import AlertU.Protocol
import AlertU.Runs

/-! The sessions of the tray over its one request channel, in the steps of `run_session`: the connection,
the draining of the channel, the resynchronisation and the `select!` loop. Requests are queued at any
moment. A request is known by its place in the channel, which keeps all that was ever sent on it. -/

open Runs

namespace AlertU

namespace TraySession

/-- A line of a session: a request, with its place in the channel if it was taken from there. -/
abbrev Entry := Option ℕ × Request

/-- State pushes, the config, and the device list. -/
def resynchronisation : List Request := [.subscribe, .getConfig, .listDevices]

/-- Where a session stands. -/
inductive SessionStage where
  | draining
  | resyncing (req : Request) (rest : List Request)
  | selecting
  | writing (n : ℕ) (req : Request)
  deriving DecidableEq, Repr

/-- The place of the request that is in hand, or else of the next one to be received. -/
def SessionStage.frontier (received : ℕ) : SessionStage → ℕ
  | .writing n _ => n
  | _ => received

/-- A session: how much had been sent when it was connected and when it had drained the channel, and
the lines it has written. -/
structure Session where
  connectedAt : ℕ
  drainedAt : Option ℕ
  stage : SessionStage
  written : List Entry
  deriving DecidableEq, Repr

/-- What becomes of a write; one that fails may have put the line on the wire all the same. -/
inductive Write where
  | done
  | failed (landed : Bool)
  deriving DecidableEq, Repr

inductive Input where
  | queue (req : Request)
  | connect (accepted : Bool)
  | drain
  | resync (write : Write)
  | receive
  | write (write : Write)
  | hangUp
  deriving DecidableEq, Repr

/-- The requests of a list by their places in it. -/
def entries (requests : List Request) : List Entry :=
  requests.zipIdx.map fun e => (some e.2, e.1)

/-- The requests that are resynchronised with, which have no place in the channel. -/
def own (requests : List Request) : List Entry := requests.map fun req => (none, req)

namespace Session

/-- The places of the requests that the session has written. -/
def places (session : Session) : List ℕ := session.written.filterMap (·.1)

/-- What the session may write, if `sent` is sent. -/
def script (session : Session) (sent : List Request) : List Entry :=
  match session.drainedAt with
  | none => []
  | some d => own resynchronisation ++ (entries sent).drop d

def put (session : Session) (entry : Entry) : Session :=
  { session with written := session.written ++ [entry] }

end Session

end TraySession

open TraySession

/-- The supervisor loop of `main`: the channel, the sessions that have ended and the one that goes on. -/
structure Supervisor where
  sent : List Request
  received : ℕ
  past : List Session
  session : Option Session

namespace Supervisor

def start : Supervisor := ⟨[], 0, [], none⟩

variable (s : Supervisor)

/-- All sessions, in their order. -/
def sessions : List Session := s.past ++ s.session.toList

/-- The session goes on to a stage after a write, or ends. -/
def afterWrite (session : Session) (entry : Entry) (stage : SessionStage) : Write → Supervisor
  | .done => { s with session := some { session.put entry with stage } }
  | .failed true => { s with past := s.past ++ [{ session.put entry with stage }], session := none }
  | .failed false => { s with past := s.past ++ [session], session := none }

def step (s : Supervisor) (input : Input) : Except Unit Supervisor :=
  match input, s.session with
  | .queue req, _ => .ok { s with sent := s.sent ++ [req] }
  | .connect true, none => .ok { s with session := some ⟨s.sent.length, none, .draining, []⟩ }
  | .connect false, none => .ok s
  | input, some session =>
      match input, session.stage with
      | .drain, .draining =>
          match s.sent[s.received]? with
          | some _ => .ok { s with received := s.received + 1 }
          | none => .ok { s with session := some { session with
              drainedAt := some s.sent.length
              stage := .resyncing .subscribe [.getConfig, .listDevices] } }
      | .resync write, .resyncing req [] => .ok (s.afterWrite session (none, req) .selecting write)
      | .resync write, .resyncing req (next :: rest) =>
          .ok (s.afterWrite session (none, req) (.resyncing next rest) write)
      | .receive, .selecting =>
          match s.sent[s.received]? with
          | some req => .ok { s with
              received := s.received + 1
              session := some { session with stage := .writing s.received req } }
          | none => .error ()
      | .write write, .writing n req => .ok (s.afterWrite session (some n, req) .selecting write)
      | .hangUp, .selecting => .ok { s with past := s.past ++ [session], session := none }
      | _, _ => .error ()
  | _, none => .error ()

/-! ### One step -/

variable {s} {s' : Supervisor} {input : Input}

/-- Everything that one step can do. -/
inductive Went (s : Supervisor) : Supervisor → Prop where
  | queued (req : Request) : Went s { s with sent := s.sent ++ [req] }
  | connected (hsession : s.session = none) :
      Went s { s with session := some ⟨s.sent.length, none, .draining, []⟩ }
  | refused : Went s s
  | discarded (session : Session) (req : Request) (hsession : s.session = some session)
      (hstage : session.stage = .draining) (hreq : s.sent[s.received]? = some req) :
      Went s { s with received := s.received + 1 }
  | drained (session : Session) (hsession : s.session = some session)
      (hstage : session.stage = .draining) (hnone : s.sent[s.received]? = none) :
      Went s { s with session := some { session with
        drainedAt := some s.sent.length
        stage := .resyncing .subscribe [.getConfig, .listDevices] } }
  | resynced (session : Session) (req : Request) (write : Write) (hsession : s.session = some session)
      (hstage : session.stage = .resyncing req []) :
      Went s (s.afterWrite session (none, req) .selecting write)
  | resyncing (session : Session) (req next : Request) (rest : List Request) (write : Write)
      (hsession : s.session = some session) (hstage : session.stage = .resyncing req (next :: rest)) :
      Went s (s.afterWrite session (none, req) (.resyncing next rest) write)
  | received (session : Session) (req : Request) (hsession : s.session = some session)
      (hstage : session.stage = .selecting) (hreq : s.sent[s.received]? = some req) :
      Went s { s with
        received := s.received + 1
        session := some { session with stage := .writing s.received req } }
  | wrote (session : Session) (n : ℕ) (req : Request) (write : Write)
      (hsession : s.session = some session) (hstage : session.stage = .writing n req) :
      Went s (s.afterWrite session (some n, req) .selecting write)
  | hungUp (session : Session) (hsession : s.session = some session)
      (hstage : session.stage = .selecting) :
      Went s { s with past := s.past ++ [session], session := none }

theorem step_cases (h : s.step input = .ok s') : Went s s' := by
  unfold step at h
  split at h
  · cases h
    exact .queued _
  · rename_i hsession
    cases h
    exact .connected hsession
  · cases h
    exact .refused
  · rename_i session _ hsession
    split at h
    · rename_i hstage _
      split at h
      · rename_i req hreq
        cases h
        exact .discarded session req hsession hstage hreq
      · rename_i hnone
        cases h
        exact .drained session hsession hstage hnone
    · rename_i write req hstage _
      cases h
      exact .resynced session req write hsession hstage
    · rename_i write req next rest hstage _
      cases h
      exact .resyncing session req next rest write hsession hstage
    · rename_i hstage _
      split at h
      · rename_i req hreq
        cases h
        exact .received session req hsession hstage hreq
      · cases h
    · rename_i write n req hstage _
      cases h
      exact .wrote session n req write hsession hstage
    · rename_i hstage _
      cases h
      exact .hungUp session hsession hstage
    · cases h
  · cases h

/-! ### What a session has written -/

theorem entries_append (requests : List Request) (req : Request) :
    entries (requests ++ [req]) = entries requests ++ [(some requests.length, req)] := by
  simp [entries, List.zipIdx_append]

theorem entries_take_succ {sent : List Request} {n : ℕ} {req : Request} (h : sent[n]? = some req) :
    entries (sent.take (n + 1)) = entries (sent.take n) ++ [(some n, req)] := by
  have hlt : n < sent.length := (List.getElem?_eq_some_iff.mp h).1
  rw [List.take_add_one, h, Option.toList_some, entries_append, List.length_take,
    Nat.min_eq_left hlt.le]

theorem entries_mono {requests sent : List Request} (h : requests <+: sent) :
    entries requests <+: entries sent := by
  obtain ⟨more, rfl⟩ := h
  rw [entries, entries, List.zipIdx_append, List.map_append]
  exact List.prefix_append _ _

theorem script_mono {session : Session} {sent sent' : List Request} (h : sent <+: sent') :
    session.script sent <+: session.script sent' := by
  unfold Session.script
  cases session.drainedAt with
  | none => exact List.prefix_rfl
  | some d => exact (List.prefix_append_right_inj _).mpr ((entries_mono h).drop d)

@[simp]
theorem places_put (session : Session) (entry : Entry) :
    (session.put entry).places = session.places ++ entry.1.toList := by
  cases hplace : entry.1 <;>
    simp [Session.places, Session.put, List.filterMap_append, hplace]

theorem places_own (requests : List Request) : (own requests).filterMap (·.1) = [] := by
  rw [List.filterMap_eq_nil_iff]
  intro entry hmem
  obtain ⟨req, -, rfl⟩ := List.mem_map.mp hmem
  rfl

/-- How much of its script a session has written at its stage. -/
def Writing (sent : List Request) (received : ℕ) (session : Session) : Prop :=
  match session.stage with
  | .draining =>
      session.drainedAt = none ∧ session.written = [] ∧ session.connectedAt ≤ sent.length
  | .resyncing req rest =>
      session.drainedAt = some received ∧ session.connectedAt ≤ received ∧
        ∃ before, before ++ req :: rest = resynchronisation ∧ session.written = own before
  | .selecting =>
      ∃ d, session.drainedAt = some d ∧ session.connectedAt ≤ d ∧ d ≤ received ∧
        session.written = own resynchronisation ++ (entries (sent.take received)).drop d
  | .writing n req =>
      ∃ d, session.drainedAt = some d ∧ session.connectedAt ≤ d ∧ d ≤ n ∧ received = n + 1 ∧
        sent[n]? = some req ∧
        session.written = own resynchronisation ++ (entries (sent.take n)).drop d

/-- A session that has ended, or goes on: it keeps to its script, and has drained after connecting. -/
structure Faithful (sent : List Request) (session : Session) : Prop where
  written : session.written <+: session.script sent
  connected : ∀ d, session.drainedAt = some d → session.connectedAt ≤ d
  since : ∀ n ∈ session.places, session.connectedAt ≤ n

theorem le_of_mem_places {sent : List Request} {d n : ℕ}
    (h : n ∈ ((entries sent).drop d).filterMap (·.1)) : d ≤ n := by
  obtain ⟨entry, hmem, hplace⟩ := List.mem_filterMap.mp h
  obtain ⟨i, hi⟩ := List.getElem?_of_mem hmem
  rw [List.getElem?_drop, entries, List.getElem?_map, List.getElem?_zipIdx] at hi
  obtain ⟨e, he, rfl⟩ := Option.map_eq_some_iff.mp hi
  obtain ⟨req, -, rfl⟩ := Option.map_eq_some_iff.mp he
  have hn : 0 + (d + i) = n := Option.some.inj hplace
  omega

theorem Faithful.of_script {sent : List Request} {session : Session}
    (hwritten : session.written <+: session.script sent)
    (hconnected : ∀ d, session.drainedAt = some d → session.connectedAt ≤ d) :
    Faithful sent session := by
  refine ⟨hwritten, hconnected, fun n hn => ?_⟩
  unfold Session.script at hwritten
  cases hdrained : session.drainedAt with
  | none =>
      rw [hdrained] at hwritten
      rw [Session.places, List.prefix_nil.mp hwritten] at hn
      cases hn
  | some d =>
      rw [hdrained] at hwritten
      have hmem := (hwritten.filterMap (·.1)).subset hn
      rw [List.filterMap_append, places_own, List.nil_append] at hmem
      exact (hconnected d hdrained).trans (le_of_mem_places hmem)

theorem Writing.faithful {sent : List Request} {received : ℕ} {session : Session}
    (h : Writing sent received session) : Faithful sent session := by
  have hscript : ∀ {d : ℕ}, session.drainedAt = some d →
      session.script sent = own resynchronisation ++ (entries sent).drop d := fun hdrained => by
    rw [Session.script, hdrained]
  have htake : ∀ {n d : ℕ}, (entries (sent.take n)).drop d <+: (entries sent).drop d :=
    fun {n d} => (entries_mono (List.take_prefix n sent)).drop d
  unfold Writing at h
  cases hstage : session.stage with
  | draining =>
      rw [hstage] at h
      obtain ⟨hdrained, hwritten, -⟩ := h
      refine .of_script (by rw [hwritten]; exact List.nil_prefix) fun d hd => ?_
      rw [hdrained] at hd
      cases hd
  | resyncing req rest =>
      rw [hstage] at h
      obtain ⟨hdrained, hconnected, before, hbefore, hwritten⟩ := h
      refine .of_script ?_ fun d hd => ?_
      · rw [hscript hdrained, hwritten, ← hbefore, own, own, List.map_append, List.append_assoc]
        exact List.prefix_append _ _
      · cases hdrained.symm.trans hd
        exact hconnected
  | selecting =>
      rw [hstage] at h
      obtain ⟨d, hdrained, hconnected, -, hwritten⟩ := h
      refine .of_script ?_ fun d' hd => ?_
      · rw [hscript hdrained, hwritten]
        exact (List.prefix_append_right_inj _).mpr htake
      · cases hdrained.symm.trans hd
        exact hconnected
  | writing n req =>
      rw [hstage] at h
      obtain ⟨d, hdrained, hconnected, -, -, -, hwritten⟩ := h
      refine .of_script ?_ fun d' hd => ?_
      · rw [hscript hdrained, hwritten]
        exact (List.prefix_append_right_inj _).mpr htake
      · cases hdrained.symm.trans hd
        exact hconnected

/-- What is sent later makes no difference to what a session has written. -/
theorem Writing.send {sent : List Request} {received : ℕ} {session : Session}
    (h : Writing sent received session) (hbound : received ≤ sent.length) (req : Request) :
    Writing (sent ++ [req]) received session := by
  unfold Writing at h ⊢
  cases hstage : session.stage with
  | draining =>
      rw [hstage] at h
      obtain ⟨hdrained, hwritten, hconnected⟩ := h
      exact ⟨hdrained, hwritten, hconnected.trans (by rw [List.length_append]; omega)⟩
  | resyncing req' rest =>
      rw [hstage] at h
      exact h
  | selecting =>
      rw [hstage] at h
      simp only [List.take_append_of_le_length hbound]
      exact h
  | writing n req' =>
      rw [hstage] at h
      obtain ⟨d, hdrained, hconnected, hle, hreceived, hreq, hwritten⟩ := h
      have hn : n < sent.length := by omega
      refine ⟨d, hdrained, hconnected, hle, hreceived, ?_, ?_⟩
      · rw [List.getElem?_append_left hn]
        exact hreq
      · rw [List.take_append_of_le_length hn.le]
        exact hwritten

/-! ### All sessions -/

/-- The place of the request that is to be written next. -/
def frontier (s : Supervisor) : ℕ :=
  (s.session.map fun session => session.stage.frontier s.received).getD s.received

/-- The places of what all sessions have written. -/
def places (s : Supervisor) : List ℕ := s.sessions.flatMap Session.places

/-- Every session keeps to its script, and the sessions write the requests in the order of their places. -/
structure Orderly (s : Supervisor) : Prop where
  bound : s.received ≤ s.sent.length
  past : ∀ session ∈ s.past, Faithful s.sent session
  session : ∀ session, s.session = some session → Writing s.sent s.received session
  ordered : s.places.Pairwise (· < ·)
  below : ∀ n ∈ s.places, n < s.frontier

theorem orderly_start : start.Orderly :=
  ⟨Nat.le_refl 0, fun _ hmem => (by cases hmem), fun _ h => (by cases h), .nil,
    fun _ hmem => by cases hmem⟩

theorem frontier_eq {session : Session} (hsession : s.session = some session) :
    s.frontier = session.stage.frontier s.received := by
  rw [frontier, hsession]
  rfl

theorem frontier_le (h : s.Orderly) : s.frontier ≤ s.received := by
  cases hsession : s.session with
  | none =>
      rw [frontier, hsession]
      exact Nat.le_refl _
  | some session =>
      rw [frontier_eq hsession]
      have hwriting := h.session session hsession
      cases hstage : session.stage with
      | writing n req =>
          rw [Writing, hstage] at hwriting
          obtain ⟨d, -, -, -, hreceived, -⟩ := hwriting
          show n ≤ s.received
          omega
      | _ => exact Nat.le_refl _

theorem faithful_of_mem (h : s.Orderly) {session : Session} (hmem : session ∈ s.sessions) :
    Faithful s.sent session := by
  rcases List.mem_append.mp hmem with hmem | hmem
  · exact h.past session hmem
  · exact (h.session session (Option.mem_toList.mp hmem)).faithful

/-- A session that goes on without a write. -/
theorem Orderly.advance (h : s.Orderly) {session session' : Session} {received : ℕ}
    (hsession : s.session = some session) (hplaces : session'.places = session.places)
    (hbound : received ≤ s.sent.length) (hwriting : Writing s.sent received session')
    (hfrontier : s.received ≤ frontier { s with received, session := some session' }) :
    Orderly { s with received, session := some session' } := by
  have hall : places { s with received, session := some session' } = s.places := by
    simp [places, sessions, hsession, hplaces]
  refine ⟨hbound, h.past, fun other hother => ?_, ?_, fun n hn => ?_⟩
  · cases hother
    exact hwriting
  · rw [hall]
    exact h.ordered
  · rw [hall] at hn
    exact (h.below n hn).trans_le ((frontier_le h).trans hfrontier)

/-- A session that ends. -/
theorem Orderly.finish (h : s.Orderly) {session : Session} (hsession : s.session = some session) :
    Orderly { s with past := s.past ++ [session], session := none } := by
  have hall : places { s with past := s.past ++ [session], session := none } = s.places := by
    simp [places, sessions, hsession]
  refine ⟨h.bound, fun other hother => ?_, fun other hother => (by cases hother), ?_, fun n hn => ?_⟩
  · rcases List.mem_append.mp hother with hother | hother
    · exact h.past other hother
    · obtain rfl := List.mem_singleton.mp hother
      exact (h.session other hsession).faithful
  · rw [hall]
    exact h.ordered
  · rw [hall] at hn
    exact (h.below n hn).trans_le (frontier_le h)

/-- A session that goes on after a write: what it has written is the next request in its place, or none
of the channel. -/
theorem Orderly.put (h : s.Orderly) {session : Session} {entry : Entry} {stage : SessionStage}
    (hsession : s.session = some session)
    (hplace : ∀ n, entry.1 = some n → s.frontier = n ∧ n < s.received)
    (hwriting : Writing s.sent s.received { session.put entry with stage })
    (hfrontier : frontier { s with session := some { session.put entry with stage } } = s.received) :
    Orderly { s with session := some { session.put entry with stage } } := by
  have hall : places { s with session := some { session.put entry with stage } } =
      s.places ++ entry.1.toList := by
    have hput : Session.places { session.put entry with stage } = session.places ++ entry.1.toList :=
      places_put session entry
    simp [places, sessions, hsession, hput]
  refine ⟨h.bound, h.past, fun other hother => ?_, ?_, fun n hn => ?_⟩
  · cases hother
    exact hwriting
  · rw [hall, List.pairwise_append]
    refine ⟨h.ordered, ?_, fun m hm n hn => ?_⟩
    · cases entry.1 <;> simp
    · obtain ⟨hfront, -⟩ := hplace n (Option.mem_toList.mp hn)
      exact (h.below m hm).trans_eq hfront
  · rw [hfrontier]
    rw [hall] at hn
    rcases List.mem_append.mp hn with hn | hn
    · exact (h.below n hn).trans_le (frontier_le h)
    · exact (hplace n (Option.mem_toList.mp hn)).2

theorem Orderly.afterWrite (h : s.Orderly) {session : Session} {entry : Entry} {stage : SessionStage}
    (hsession : s.session = some session)
    (hplace : ∀ n, entry.1 = some n → s.frontier = n ∧ n < s.received)
    (hwriting : Writing s.sent s.received { session.put entry with stage })
    (hfrontier : frontier { s with session := some { session.put entry with stage } } = s.received)
    (write : Write) : (s.afterWrite session entry stage write).Orderly := by
  have hput := h.put hsession hplace hwriting hfrontier
  cases write with
  | done => exact hput
  | failed landed =>
      cases landed with
      | true => exact hput.finish rfl
      | false => exact h.finish hsession

theorem orderly_step (h : s.Orderly) (hstep : Went s s') : s'.Orderly := by
  cases hstep with
  | queued req =>
      refine ⟨h.bound.trans (by rw [List.length_append]; omega), fun session hsession => ?_,
        fun session hsession => (h.session session hsession).send h.bound req, h.ordered, h.below⟩
      have hfaithful := h.past session hsession
      exact ⟨hfaithful.written.trans (script_mono (List.prefix_append _ _)), hfaithful.connected,
        hfaithful.since⟩
  | connected hsession =>
      have hall : places { s with session := some ⟨s.sent.length, none, .draining, []⟩ } = s.places := by
        simp [places, sessions, hsession, Session.places]
      have hfrontier : s.frontier = s.received := by
        rw [frontier, hsession]
        rfl
      refine ⟨h.bound, h.past, fun session hother => ?_, ?_, fun n hn => ?_⟩
      · cases hother
        exact ⟨rfl, rfl, Nat.le_refl _⟩
      · rw [hall]
        exact h.ordered
      · rw [hall] at hn
        exact (h.below n hn).trans_eq hfrontier
  | refused => exact h
  | discarded session req hsession hstage hreq =>
      have hwriting := h.session session hsession
      rw [Writing, hstage] at hwriting
      have hnext : Orderly { s with received := s.received + 1, session := some session } := by
        refine h.advance hsession rfl (List.getElem?_eq_some_iff.mp hreq).1 ?_ ?_
        · rw [Writing, hstage]
          exact hwriting
        · rw [frontier_eq rfl, hstage]
          exact Nat.le_succ _
      rw [← hsession] at hnext
      exact hnext
  | drained session hsession hstage hnone =>
      have hwriting := h.session session hsession
      rw [Writing, hstage] at hwriting
      have hreceived : s.received = s.sent.length :=
        Nat.le_antisymm h.bound (List.getElem?_eq_none_iff.mp hnone)
      refine h.advance hsession rfl h.bound ⟨?_, ?_, [], rfl, hwriting.2.1⟩ (Nat.le_refl _)
      · rw [hreceived]
      · rw [hreceived]
        exact hwriting.2.2
  | resynced session req write hsession hstage =>
      have hwriting := h.session session hsession
      rw [Writing, hstage] at hwriting
      obtain ⟨hdrained, hconnected, before, hbefore, hwritten⟩ := hwriting
      refine h.afterWrite hsession (fun n hn => by cases hn) ?_ rfl write
      refine ⟨s.received, hdrained, hconnected, Nat.le_refl _, ?_⟩
      have hdrop : (entries (s.sent.take s.received)).drop s.received = [] := by
        simp [entries, h.bound]
      rw [hdrop, List.append_nil, ← hbefore, own, List.map_append, Session.put, hwritten]
      rfl
  | resyncing session req next rest write hsession hstage =>
      have hwriting := h.session session hsession
      rw [Writing, hstage] at hwriting
      obtain ⟨hdrained, hconnected, before, hbefore, hwritten⟩ := hwriting
      refine h.afterWrite hsession (fun n hn => by cases hn) ?_ rfl write
      refine ⟨hdrained, hconnected, before ++ [req], by rw [← hbefore, List.append_assoc]; rfl, ?_⟩
      rw [own, List.map_append, Session.put, hwritten]
      rfl
  | received session req hsession hstage hreq =>
      have hwriting := h.session session hsession
      rw [Writing, hstage] at hwriting
      obtain ⟨d, hdrained, hconnected, hle, hwritten⟩ := hwriting
      refine h.advance hsession rfl (List.getElem?_eq_some_iff.mp hreq).1 ?_ (Nat.le_refl _)
      exact ⟨d, hdrained, hconnected, hle, rfl, hreq, hwritten⟩
  | wrote session n req write hsession hstage =>
      have hwriting := h.session session hsession
      rw [Writing, hstage] at hwriting
      obtain ⟨d, hdrained, hconnected, hle, hreceived, hreq, hwritten⟩ := hwriting
      have hlength : (entries (s.sent.take n)).length = n := by
        have hn : n < s.sent.length := (List.getElem?_eq_some_iff.mp hreq).1
        simp [entries, hn.le]
      refine h.afterWrite hsession (fun m hm => ?_) ?_ rfl write
      · cases hm
        refine ⟨?_, by omega⟩
        rw [frontier_eq hsession, hstage]
        rfl
      · refine ⟨d, hdrained, hconnected, by show d ≤ s.received; omega, ?_⟩
        show session.written ++ [(some n, req)] = _
        rw [hreceived, entries_take_succ hreq, List.drop_append_of_le_length (by rw [hlength]; exact hle),
          hwritten, List.append_assoc]
  | hungUp session hsession hstage => exact h.finish hsession

theorem orderly_of_run {inputs : List Input} (hrun : Run step start inputs s) : s.Orderly :=
  hrun.invariant orderly_start fun _ _ _ h _ hstep => orderly_step h (step_cases hstep)

/-- Whenever requests are queued and wherever the sessions end: what a session writes is a prefix of the
resynchronisation followed by what was sent after it had drained the channel, which it does when it is
connected; no request is written twice, and none that was sent before the session was connected. -/
theorem sessions_keep_to_script {inputs : List Input} (hrun : Run step start inputs s) :
    (∀ session ∈ s.sessions, session.written <+: session.script s.sent ∧
      ∀ d, session.drainedAt = some d → session.connectedAt ≤ d) ∧
    s.places.Pairwise (· < ·) ∧
    ∀ session ∈ s.sessions, ∀ n ∈ session.places, session.connectedAt ≤ n := by
  have h := orderly_of_run hrun
  refine ⟨fun session hmem => ?_, h.ordered, fun session hmem => (faithful_of_mem h hmem).since⟩
  exact ⟨(faithful_of_mem h hmem).written, (faithful_of_mem h hmem).connected⟩

/-- Two requests are queued while the tray is offline, and one when it has synchronised. -/
theorem sessions_keep_to_script_offline : ∃ s : Supervisor,
    s.sent = [.arm, .toggle, .disarm] ∧ s.places = [2] ∧
    ∀ session ∈ s.sessions, session.written <+: session.script s.sent := by
  obtain ⟨s, hrun, hsent, hplaces⟩ : ∃ s, Run step start
      ([.queue .arm, .queue .toggle, .connect true, .drain, .drain, .drain, .resync .done, .resync .done,
        .resync .done, .queue .disarm, .receive, .write .done]) s ∧
      s.sent = [.arm, .toggle, .disarm] ∧ s.places = [2] :=
    ⟨_, run_get (by decide +kernel), by decide +kernel, by decide +kernel⟩
  exact ⟨s, hsent, hplaces, fun session hmem => ((sessions_keep_to_script hrun).1 session hmem).1⟩

end Supervisor

end AlertU
