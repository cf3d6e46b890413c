import AlertU.TrayPresses

/-! What the tray shows after a press. It shows the press as paired, and takes the configuration with it
for its own, as soon as the `SetConfig` is queued, and nothing recalls that when the `SetConfig` is lost or
refused. While none is, the daemon accepts the presses in their order, and what is shown comes true. -/

open FilePath Runs Logs

namespace AlertU

/-! ### The order in which presses are accepted -/

/-- The request that is on its way to the machine. -/
def ConnPhase.unsent : ConnPhase Origin → List (Request × Origin)
  | .sending e => [e]
  | _ => []

namespace Conn

variable {p : Platform} {host : Host} {v v' : Service} {c c' : Conn Origin} {progress : Progress}

/-- The requests that the machine has still to handle, in their order. -/
def waiting (c : Conn Origin) : List (Request × Origin) :=
  c.ctrl ++ c.phase.unsent ++ c.lines.filterMap fun line => line.1.request?.map (·, line.2)

theorem Moved.waiting (h : Moved v c progress c') : c'.waiting.Sublist c.waiting := by
  cases h with
  | started hphase => simp [Conn.waiting, hphase, ConnPhase.unsent]
  | blank tag rest hphase hlines => simp [Conn.waiting, hlines, Line.request?]
  | malformed error tag rest hphase hlines =>
      simp [Conn.waiting, hphase, hlines, ConnPhase.unsent, Line.request?]
  | stated e subscribed rest hphase hlines hrequest =>
      simp [Conn.waiting, hphase, hlines, ConnPhase.unsent, Line.request?]
  | listed e rest hphase hlines hrequest =>
      simp [Conn.waiting, hphase, hlines, ConnPhase.unsent, Line.request?]
  | dispatched e rest hphase hlines hcontrol =>
      simp [Conn.waiting, hphase, hlines, ConnPhase.unsent, Line.request?]
  | asked e hphase hrunning hexpects => simp [Conn.waiting, hphase, ConnPhase.unsent]
  | acked e hphase hrunning hexpects => simp [Conn.waiting, hphase, ConnPhase.unsent]
  | unsent e hphase hrunning => simp [Conn.waiting, hphase, ConnPhase.unsent]
  | ended e entries outcome hphase => simp [Conn.waiting, hphase, ConnPhase.unsent]
  | resumed e response hphase => simp [Conn.waiting, hphase, ConnPhase.unsent]
  | dropped e hphase hrunning => simp [Conn.waiting, hphase, ConnPhase.unsent]
  | stateMarked hphase hsubscribed hflagged => simp [Conn.waiting, hphase, ConnPhase.unsent]
  | devicesMarked hphase hsubscribed hflagged => simp [Conn.waiting, hphase, ConnPhase.unsent]
  | stateBorrowed hphase => simp [Conn.waiting, hphase, ConnPhase.unsent]
  | devicesBorrowed hphase => simp [Conn.waiting, hphase, ConnPhase.unsent]
  | written origin response hphase => simp [Conn.waiting, hphase, ConnPhase.unsent]
  | hungUp hphase => exact List.Sublist.refl _
  | failed origin response hphase => exact List.Sublist.refl _

theorem kill_waiting (c : Conn Origin) : c.kill.waiting.Sublist c.waiting := by
  simp only [waiting, kill, List.nil_append, List.append_assoc]
  exact List.sublist_append_right _ _

/-- The answer to a request does not come back to the machine. -/
theorem settle_unsent (actions : List Action) (phase : ConnPhase Origin) :
    (phase.settle actions).unsent = phase.unsent := by
  rcases settle_cases actions phase with h | ⟨e, rfl, ⟨response, h⟩ | ⟨entries, h⟩⟩ <;> rw [h] <;> rfl

/-- The machine takes up the first request that waits, and accepts no other. -/
theorem Handled.waiting (h : Handled p host v c v' c') {e : Request × Origin}
    {rest : List (Request × Origin)} (hctrl : c.ctrl = e :: rest) :
    ((deeds e v v').filterMap Deed.settledPress? ++ c'.waiting.filterMap press?).Sublist
      (c.waiting.filterMap press?) := by
  cases h with
  | handled e' rest' ctrl next hctrl' hcontrol hrunning hstep =>
      cases hctrl.symm.trans hctrl'
      have hwaiting : c.waiting = e :: Conn.waiting { c with
          ctrl := rest
          phase := if e.1.expectsAnswer then c.phase.settle (v.daemon.since next) else c.phase } := by
        simp only [Conn.waiting, hctrl]
        split_ifs <;> simp [settle_unsent]
      rw [hwaiting, ← List.singleton_append, List.filterMap_append]
      refine List.Sublist.append ?_ (List.Sublist.refl _)
      obtain ⟨req, origin⟩ := e
      cases req with
      | toggle =>
          simp only [deeds]
          split_ifs
          exact List.nil_sublist _
      | setConfig cfg =>
          simp only [deeds]
          split_ifs
          · exact List.Sublist.refl _
          · exact List.nil_sublist _
      | _ => exact List.nil_sublist _
  | died e' rest' hctrl' =>
      have hnone : deeds e v { v with running := false } = [] := by
        obtain ⟨req, origin⟩ := e
        cases req with
        | setConfig cfg => simp [deeds, Daemon.since]
        | _ => rfl
      rw [hnone]
      exact List.Sublist.refl _

end Conn

namespace FrontEnd

variable {p : Platform} {s s' : FrontEnd} {input : FrontEndInput}

/-- The requests of the tray that the machine has still to handle, except on connections given up. -/
def waiting (s : FrontEnd) : List (Request × Origin) :=
  (s.link.map fun link => link.conn.waiting).getD [] ++ s.requests

/-- The presses are accepted one after another, and none waits on a connection that has been given up. -/
structure Lined (s : FrontEnd) : Prop where
  order : (s.settled ++ s.waiting.filterMap press?).Pairwise (· < ·)
  orphans : ∀ conn ∈ s.orphans, conn.waiting.filterMap press? = []

theorem waiting_of_link {link : Link} (hlink : s.link = some link) :
    s.waiting = link.conn.waiting ++ s.requests := by
  rw [waiting, hlink]
  rfl

theorem waiting_of_none (hlink : s.link = none) : s.waiting = s.requests := by
  rw [waiting, hlink]
  rfl

/-- Nothing is added, neither to what has been accepted nor to what waits. -/
theorem Lined.sublist (h : s.Lined) (hsettled : s'.settled = s.settled)
    (hwaiting : (s'.waiting.filterMap press?).Sublist (s.waiting.filterMap press?))
    (horphans : ∀ conn ∈ s'.orphans, conn.waiting.filterMap press? = []) : s'.Lined := by
  refine ⟨?_, horphans⟩
  rw [hsettled]
  exact h.order.sublist (List.Sublist.append (List.Sublist.refl _) hwaiting)

/-- A new press is queued. -/
theorem Lined.concat (h : s.Lined) {n : ℕ}
    (hbound : ∀ m ∈ s.settled ++ s.waiting.filterMap press?, m < n) (hsettled : s'.settled = s.settled)
    (hwaiting : s'.waiting.filterMap press? = s.waiting.filterMap press? ++ [n])
    (horphans : ∀ conn ∈ s'.orphans, conn.waiting.filterMap press? = []) : s'.Lined := by
  refine ⟨?_, horphans⟩
  rw [hsettled, hwaiting, ← List.append_assoc]
  refine List.pairwise_append.mpr ⟨h.order, List.pairwise_singleton _ _, fun m hm n' hn => ?_⟩
  rw [List.mem_singleton.mp hn]
  exact hbound m hm

/-- A `SetConfig` that waits has not been answered. -/
theorem waiting_unanswered (hanswering : s.Answering) {link : Link} (hlink : s.link = some link) {n : ℕ}
    (hmem : n ∈ link.conn.waiting.filterMap press?) : n ∈ link.unanswered.filterMap press? := by
  obtain ⟨e, he, hpress⟩ := List.mem_filterMap.mp hmem
  refine List.mem_filterMap.mpr ⟨e, ?_, hpress⟩
  have hphase : link.conn.phase.request = some e → e ∈ link.unanswered := by
    intro hrequest
    rw [Link.unanswered, hrequest]
    simp
  rcases List.mem_append.mp he with he | he
  · rcases List.mem_append.mp he with he | he
    · obtain ⟨cfg, origin, rfl, -⟩ := press?_eq_some hpress
      have hasked := (hanswering link.conn (link_mem hlink)).asked.subset
        (List.mem_filter.mpr ⟨he, rfl⟩)
      refine hphase ?_
      unfold ConnPhase.asked at hasked
      split at hasked
      · rename_i hasking
        rw [hasking, List.mem_singleton.mp hasked]
        rfl
      · cases hasked
    · refine hphase ?_
      unfold ConnPhase.unsent at he
      split at he
      · rename_i hsending
        rw [hsending, List.mem_singleton.mp he]
        rfl
      · cases he
  · exact List.mem_append_right _ he

/-- A connection that is given up without a loss has nothing left that waits. -/
theorem Lined.given_up (h : s.Lined) (hanswering : s.Answering) {link : Link} (hlink : s.link = some link)
    (hkeeps : (link.unanswered.filterMap press?).all s.settled.contains) :
    link.conn.waiting.filterMap press? = [] := by
  refine List.eq_nil_iff_forall_not_mem.mpr fun n hmem => ?_
  have hsettled := List.contains_iff_mem.mp
    (List.all_eq_true.mp hkeeps n (waiting_unanswered hanswering hlink hmem))
  have horder := h.order
  rw [waiting_of_link hlink, List.filterMap_append, List.pairwise_append] at horder
  exact Nat.lt_irrefl n (horder.2.2 n hsettled n (List.mem_append_left _ hmem))

/-- What has been accepted, and what waits, are presses that there have been. -/
theorem Numbered.lined_bound (h : s.Numbered) (hanswering : s.Answering) {n : ℕ}
    (hmem : n ∈ s.settled ++ s.waiting.filterMap press?) : n ≤ s.presses := by
  rcases List.mem_append.mp hmem with hmem | hmem
  · obtain ⟨cfg, origin, haccepted, rfl⟩ := mem_settled.mp hmem
    exact (h.bounds (h.accepted cfg origin haccepted)).2
  · refine (h.outstanding_bounds ?_).2
    cases hlink : s.link with
    | none =>
        rw [outstanding_of_none hlink]
        rwa [waiting_of_none hlink] at hmem
    | some link =>
        rw [waiting_of_link hlink, List.filterMap_append, List.mem_append] at hmem
        rw [outstanding_of_link hlink, List.filterMap_append, List.mem_append]
        exact hmem.imp_left (waiting_unanswered hanswering hlink)

/-- The machine takes up a request of a peer. -/
theorem Lined.handled (h : s.Lined) {peer : Peer} {conn conn' : Conn Origin} {service : Service}
    {e : Request × Origin} {rest : List (Request × Origin)} {host : Host}
    (hpeer : s.peer? peer = some conn) (hctrl : conn.ctrl = e :: rest)
    (hhandled : Conn.Handled p host s.service conn service conn') :
    Lined (setPeer { s with service, history := s.history ++ deeds e s.service service } conn' peer) := by
  have hwaiting := hhandled.waiting hctrl
  cases peer with
  | link =>
      obtain ⟨link, hlink, rfl⟩ := Option.map_eq_some_iff.mp hpeer
      refine ⟨?_, h.orphans⟩
      have horder := h.order
      rw [waiting_of_link hlink, List.filterMap_append] at horder
      have hset : (setPeer { s with service, history := s.history ++ deeds e s.service service } conn'
          .link).link = some { link with conn := conn' } := by simp [setPeer, hlink]
      rw [waiting_of_link hset, List.filterMap_append]
      refine horder.sublist ?_
      show ((s.history ++ deeds e s.service service).filterMap Deed.settledPress? ++ _).Sublist _
      rw [List.filterMap_append, List.append_assoc, ← List.append_assoc _ (List.filterMap press? _)]
      exact List.Sublist.append (List.Sublist.refl _) (hwaiting.append (List.Sublist.refl _))
  | orphan n =>
      have hmem : conn ∈ s.orphans := List.mem_of_getElem? hpeer
      rw [h.orphans conn hmem, List.sublist_nil, List.append_eq_nil_iff] at hwaiting
      refine ⟨?_, fun other hother => ?_⟩
      · show ((s.history ++ deeds e s.service service).filterMap Deed.settledPress? ++ _).Pairwise _
        rw [List.filterMap_append, hwaiting.1, List.append_nil]
        exact h.order
      · rcases List.mem_or_eq_of_mem_set hother with hother | rfl
        · exact h.orphans other hother
        · exact hwaiting.2

/-- The task of a peer goes on. -/
theorem Lined.moved (h : s.Lined) {peer : Peer} {conn conn' : Conn Origin} {progress : Progress}
    (hpeer : s.peer? peer = some conn) (hmoved : Conn.Moved s.service conn progress conn') :
    (s.setPeer conn' peer).Lined := by
  have hwaiting := hmoved.waiting.filterMap press?
  cases peer with
  | link =>
      obtain ⟨link, hlink, rfl⟩ := Option.map_eq_some_iff.mp hpeer
      refine h.sublist rfl ?_ h.orphans
      have hset : (s.setPeer conn' .link).link = some { link with conn := conn' } := by simp [setPeer, hlink]
      rw [waiting_of_link hlink, waiting_of_link hset, List.filterMap_append, List.filterMap_append]
      exact hwaiting.append (List.Sublist.refl _)
  | orphan n =>
      refine h.sublist rfl (List.Sublist.refl _) fun other hother => ?_
      rcases List.mem_or_eq_of_mem_set hother with hother | rfl
      · exact h.orphans other hother
      · rw [h.orphans conn (List.mem_of_getElem? hpeer)] at hwaiting
        exact List.sublist_nil.mp hwaiting

/-- The connection joins those that have been given up. -/
theorem Lined.orphaned (h : s.Lined) (hanswering : s.Answering) (hkeeps : s.Keeps input) {link : Link}
    (hlink : s.link = some link) (hfailing : link.unanswered ⊆ s.failing input) :
    ∀ conn ∈ s.orphans ++ [link.conn], conn.waiting.filterMap press? = [] := by
  intro conn hmem
  rcases List.mem_append.mp hmem with hmem | hmem
  · exact h.orphans conn hmem
  · rw [List.mem_singleton.mp hmem]
    refine h.given_up hanswering hlink (List.all_eq_true.mpr fun n hn => ?_)
    obtain ⟨e, he, hpress⟩ := List.mem_filterMap.mp hn
    exact List.all_eq_true.mp hkeeps n (List.mem_filterMap.mpr ⟨e, hfailing he, hpress⟩)

/-- The tray reads a response; a press that it reads is the next one. -/
theorem Lined.read (h : s.Lined) (hnumbered : s.Numbered) (hanswering : s.Answering) {link : Link}
    (hlink : s.link = some link) (origin : Option (Request × Origin)) (response : Response) :
    ((s.readLine link origin response).apply response).Lined := by
  have hsettled := settled_readLine (s := s) link origin response
  have hwaiting : (s.readLine link origin response).waiting = s.waiting := by
    rw [waiting_of_link rfl, waiting_of_link hlink]
    rfl
  have hread : (s.readLine link origin response).Lined :=
    h.sublist hsettled (by rw [hwaiting]) h.orphans
  have hsame : (s.readLine link origin response).settled ++
      (s.readLine link origin response).waiting.filterMap press? =
      s.settled ++ s.waiting.filterMap press? := by rw [hsettled, hwaiting]
  have happlied := apply_cases (s.readLine link origin response) response
  generalize (s.readLine link origin response).apply response = next at *
  cases happlied with
  | fetched cfg =>
      refine hread.sublist (List.filterMap_append.trans (List.append_nil _)) ?_ hread.orphans
      rw [waiting_of_link rfl, waiting_of_link rfl, List.append_nil]
  | pressed path name key base cfg hbase hcfg =>
      refine hread.concat (n := s.presses + 1) (fun m hm => ?_)
        (List.filterMap_append.trans (List.append_nil _)) ?_ hread.orphans
      · exact Nat.lt_succ_of_le (hnumbered.lined_bound hanswering (hsame ▸ hm))
      · rw [waiting_of_link rfl, waiting_of_link rfl, ← List.append_assoc, List.filterMap_append]
        rfl
  | shown response tray request hcfg hpairing hrequest =>
      refine hread.sublist rfl ?_ hread.orphans
      rw [waiting_of_link rfl, waiting_of_link rfl]
      rcases hrequest with rfl | rfl <;> simp [readLine, press?, queue]

theorem Lined.step (h : s.Lined) (hnumbered : s.Numbered) (hanswering : s.Answering)
    (hkeeps : s.Keeps input) (hwent : Went p s input s') : s'.Lined := by
  cases hwent with
  | machine wake host service hwake => exact h.sublist rfl (List.Sublist.refl _) h.orphans
  | handled peer host conn conn' service e rest hpeer hctrl hhandled =>
      exact h.handled hpeer hctrl hhandled
  | moved peer progress conn conn' hpeer hmoved => exact h.moved hpeer hmoved
  | restarted host daemon =>
      refine h.sublist rfl ?_ (List.forall_mem_nil _)
      cases hlink : s.link with
      | none => simp [waiting]
      | some link =>
          have hkilled : ∀ t : FrontEnd, t.link = some { link with conn := link.conn.kill } →
              t.waiting = link.conn.kill.waiting ++ t.requests := fun t ht => waiting_of_link ht
          rw [waiting_of_link hlink, hkilled _ (by simp), List.filterMap_append, List.filterMap_append]
          exact ((Conn.kill_waiting _).filterMap _).append (List.Sublist.refl _)
  | connected hlink =>
      refine h.sublist (List.filterMap_append.trans ?_) ?_ h.orphans
      · rw [settledPress?_lost, List.append_nil]
        rfl
      · rw [waiting_of_link rfl]
        exact List.nil_sublist _
  | toggled =>
      refine h.sublist rfl ?_ h.orphans
      simp [waiting, queue, press?]
  | paired =>
      refine h.sublist rfl ?_ h.orphans
      simp [waiting, queue, Tray.startPairing, press?]
  | wrote link e rest hlink hrequests =>
      refine h.sublist rfl ?_ h.orphans
      rw [waiting_of_link hlink, waiting_of_link rfl, hrequests]
      simp [Conn.waiting, Line.request?]
  | failed link e rest hlink hrequests =>
      refine h.sublist ?_ ?_ (h.orphaned hanswering hkeeps hlink ?_)
      · refine List.filterMap_append.trans ?_
        rw [settledPress?_lost, List.append_nil]
        exact List.filterMap_append.trans (List.append_nil _)
      · rw [waiting_of_link hlink, waiting_of_none rfl, hrequests]
        exact ((List.sublist_cons_self e rest).trans (List.sublist_append_right _ _)).filterMap _
      · rw [failing, hlink]
        exact List.subset_append_left _ _
  | read link origin response hlink _ => exact h.read hnumbered hanswering hlink origin response
  | lost link hlink =>
      refine h.sublist (List.filterMap_append.trans ?_) ?_ (h.orphaned hanswering hkeeps hlink ?_)
      · rw [settledPress?_lost, List.append_nil]
        rfl
      · rw [waiting_of_link hlink, waiting_of_none rfl]
        exact (List.sublist_append_right _ _).filterMap _
      · rw [failing, hlink]
        exact List.Subset.refl _
  | offline hlink => exact h.sublist rfl (List.Sublist.refl _) h.orphans

/-! ### What the tray shows -/

/-- What the tray holds and shows is accounted for by the history. -/
structure Accounted (s : FrontEnd) : Prop where
  cached : s.tray.cfg = latest Deed.cached? s.history
  shown : ∀ name key, s.tray.pairing = .done name key → ∃ (base : Config) (path : PathBuf),
    s.pressed.getLast? = some (base.applyLearnedRemote path name key)

/-- A step in which the tray adopts no configuration. -/
theorem Accounted.quiet (h : s.Accounted) (hquiet : Quiet s s') : s'.Accounted := by
  refine ⟨?_, fun name key hdone => ?_⟩
  · rw [hquiet.cfg, hquiet.latest.1]
    exact h.cached
  · rw [hquiet.latest.2]
    exact h.shown name key (hquiet.pairing name key hdone)

theorem Accounted.step (h : s.Accounted) (hwent : Went p s input s') : s'.Accounted := by
  by_cases hinput : input = .read
  · subst hinput
    cases hwent with
    | read link origin response hlink hline =>
        have hread := h.quiet (quiet_readLine link origin response)
        have happlied := apply_cases (s.readLine link origin response) response
        generalize (s.readLine link origin response).apply response = next at *
        cases happlied with
        | fetched cfg =>
            refine ⟨?_, fun name key hdone => ?_⟩
            · rw [latest_append, latest_singleton]
              rfl
            · obtain ⟨base, path, hlast⟩ := hread.shown name key hdone
              refine ⟨base, path, ?_⟩
              rw [pressed, List.filterMap_append]
              exact (congrArg _ (List.append_nil _)).trans hlast
        | pressed path name key base cfg hbase hcfg =>
            refine ⟨?_, fun name' key' hdone => ?_⟩
            · rw [latest_append, latest_singleton]
              rfl
            · cases hdone
              refine ⟨base, path, ?_⟩
              rw [pressed, List.filterMap_append, ← hcfg]
              exact List.getLast?_concat
        | shown response tray request hcfg hpairing hrequest =>
            exact ⟨hcfg.trans hread.cached, fun name key hdone =>
              hread.shown name key (hpairing name key hdone)⟩
  · exact h.quiet (hwent.quiet hinput)

/-- The configuration that the tray has taken for its own last is one that it was told, or that of the
last press. -/
theorem latest_cached (history : List Deed) :
    latest Deed.cached? history = latest Deed.told? history ∨
      ∃ cfg, latest Deed.cached? history = some cfg ∧
        (history.filterMap Deed.pressed?).getLast? = some cfg := by
  induction history using List.reverseRecOn with
  | nil => exact .inl rfl
  | append_singleton history deed ih =>
      rw [latest_append, latest_append, latest_singleton, latest_singleton, List.filterMap_append]
      cases deed with
      | fetched cfg => exact .inl rfl
      | pressed cfg => exact .inr ⟨cfg, rfl, List.getLast?_concat⟩
      | _ =>
          refine ih.imp id fun ⟨cfg, hcached, hpressed⟩ => ⟨cfg, hcached, ?_⟩
          exact (congrArg _ (List.append_nil _)).trans hpressed

/-- The invariants of a tray and its connections. -/
structure Consistent (s : FrontEnd) : Prop where
  orderly : s.Orderly
  numbered : s.Numbered
  accounted : s.Accounted

theorem consistent_start (daemon : Daemon) : (start daemon).Consistent := by
  refine ⟨orderly_start daemon, ⟨rfl, fun cfg origin hsent => ?_, fun cfg origin haccepted => ?_, .nil⟩,
    rfl, fun name key hdone => ?_⟩
  · rcases hsent with hmem | ⟨conn, hconn, -⟩
    · cases hmem
    · cases hconn
  · obtain ⟨force, hmem⟩ := haccepted
    cases hmem
  · cases hdone

theorem consistent_step (h : s.Consistent) (hstep : s.step p input = .ok s') : s'.Consistent :=
  ⟨orderly_step h.orderly hstep,
    h.numbered.step (step_cases hstep) h.orderly.2 h.orderly.1,
    h.accounted.step (step_cases hstep)⟩

/-- The invariants of a tray that loses no press. -/
def Lossless (s : FrontEnd) : Prop := s.Consistent ∧ s.Lined

theorem lossless_step (h : s.Lossless) (hkeeps : s.Keeps input) (hstep : s.step p input = .ok s') :
    s'.Lossless :=
  ⟨consistent_step h.1 hstep, h.2.step h.1.numbered h.1.orderly.1 hkeeps (step_cases hstep)⟩

/-- The daemon accepts a press with what it has been turned into. -/
theorem accepted_of_settled (h : s.Numbered) {cfg : Config} (hlast : s.pressed.getLast? = some cfg)
    (hsettled : s.presses ∈ s.settled) : ∃ origin, origin.press = s.presses ∧ s.Accepted cfg origin := by
  obtain ⟨cfg', origin, haccepted, hpress⟩ := mem_settled.mp hsettled
  obtain ⟨i, hi, hget⟩ := h.accepted cfg' origin haccepted
  rw [List.getLast?_eq_getElem?, ← h.presses, ← hpress, hi, Nat.add_sub_cancel, hget] at hlast
  cases hlast
  exact ⟨origin, hpress, haccepted⟩

/-- The press that is accepted last is the last press, if that has been accepted. -/
theorem latest_accepted (h : s.Numbered) (hlined : s.Lined) {cfg : Config}
    (hlast : s.pressed.getLast? = some cfg) (hsettled : s.presses ∈ s.settled) :
    latest Deed.accepted? s.history = some cfg := by
  have hpresses : s.settled = (s.history.filterMap Deed.settled?).map (·.1.press) :=
    (List.map_filterMap ..).symm
  have hconfigs : s.history.filterMap Deed.accepted? = (s.history.filterMap Deed.settled?).map (·.2) :=
    (List.map_filterMap ..).symm
  rw [latest, hconfigs, List.getLast?_map]
  rcases List.eq_nil_or_concat (s.history.filterMap Deed.settled?) with hnil | ⟨init, last, hconcat⟩
  · rw [hpresses, hnil] at hsettled
    cases hsettled
  · obtain ⟨origin, cfg'⟩ := last
    rw [List.concat_eq_append] at hconcat
    have haccepted : s.Accepted cfg' origin := by
      obtain ⟨deed, hdeed, heq⟩ := List.mem_filterMap.mp
        (show (origin, cfg') ∈ s.history.filterMap Deed.settled? by
          rw [hconcat]
          exact List.mem_append_right _ List.mem_cons_self)
      cases deed with
      | applied origin' force cfg'' =>
          cases heq
          exact ⟨force, hdeed⟩
      | _ => cases heq
    obtain ⟨i, hi, hget⟩ := h.accepted cfg' origin haccepted
    have horder := (List.pairwise_append.mp hlined.order).1
    have hlatest : origin.press = s.presses := by
      have hle := (h.bounds ⟨i, hi, hget⟩).2
      rw [hpresses, hconcat, List.map_append, List.mem_append] at hsettled
      rw [hpresses, hconcat, List.map_append, List.pairwise_append] at horder
      rcases hsettled with hearlier | hlast
      · have := horder.2.2 _ hearlier origin.press (List.mem_singleton_self _)
        omega
      · exact (List.mem_singleton.mp hlast).symm
    rw [List.getLast?_eq_getElem?, ← h.presses, ← hlatest, hi, Nat.add_sub_cancel, hget] at hlast
    cases hlast
    rw [hconcat, List.getLast?_concat]
    rfl

/-- Throughout a run every press is on its way to the daemon or has been accepted, exactly if no step loses
a `SetConfig` that has not been accepted, or reads its refusal. In such a run, once nothing is outstanding,
a press that is shown as paired has been accepted; and unless a press is on its way, the tray's copy of the
configuration is what the daemon has told or accepted last. -/
theorem press_is_written_iff {host : Host} {files : FileSystem} {cfg : Config} {cfgPath : PathBuf}
    {privileges : Privileges} {inputs : List FrontEndInput}
    (hrun : Run (step p) (start (.start p host files cfg cfgPath privileges)) inputs s) :
    (RunIf (step p) (fun s input => s.Keeps input) (start (.start p host files cfg cfgPath privileges))
        inputs s ↔
      Throughout (step p) (start (.start p host files cfg cfgPath privileges)) inputs Truthful) ∧
    (RunIf (step p) (fun s input => s.Keeps input) (start (.start p host files cfg cfgPath privileges))
        inputs s →
      (s.Settled → ∀ name key, s.tray.pairing = .done name key →
        ∃ (origin : Origin) (base : Config) (path : PathBuf), origin.press = s.presses ∧
          s.Accepted (base.applyLearnedRemote path name key) origin) ∧
      (s.outstanding.filterMap press? = [] → s.tray.cfg = latest Deed.told? s.history ∨
        s.tray.cfg = latest Deed.accepted? s.history)) := by
  have hiff : RunIf (step p) (fun s input => s.Keeps input)
      (start (.start p host files cfg cfgPath privileges)) inputs s ↔
      Throughout (step p) (start (.start p host files cfg cfgPath privileges)) inputs Truthful := by
    refine runIf_iff_throughout (consistent_start _) ?_ (fun _ _ _ h hnext => consistent_step h hnext) ?_ hrun
    · intro n hone hle
      exact absurd (hone.trans hle) (Nat.not_succ_le_zero 0)
    · intro s input next h htruthful hnext
      exact keeps_iff htruthful h.numbered (step_cases hnext) h.orderly.2 h.orderly.1
  refine ⟨hiff, fun hkept => ?_⟩
  have htruthful : s.Truthful := (hiff.mp hkept).last hrun
  have hlossless : s.Lossless := hkept.invariant ⟨consistent_start _, .nil, List.forall_mem_nil _⟩
    fun _ _ _ h hkeeps hnext => lossless_step h hkeeps hnext
  obtain ⟨h, hlined⟩ := hlossless
  have haccepted : s.outstanding.filterMap press? = [] → ∀ cfg, s.pressed.getLast? = some cfg →
      s.presses ∈ s.settled := by
    intro hnone cfg hlast
    have hpos : 1 ≤ s.presses := by
      rw [h.numbered.presses]
      exact List.length_pos_of_mem (List.mem_of_getLast? hlast)
    refine (htruthful s.presses hpos (Nat.le_refl _)).resolve_left ?_
    rw [hnone]
    exact List.not_mem_nil
  constructor
  · intro hsettled name key hdone
    obtain ⟨base, path, hlast⟩ := h.accounted.shown name key hdone
    have hnone : s.outstanding.filterMap press? = [] := by
      rw [List.eq_nil_iff_forall_not_mem.mpr fun e he => hsettled e (pending_iff.mpr he)]
      rfl
    obtain ⟨origin, hpress, hwritten⟩ := accepted_of_settled h.numbered hlast (haccepted hnone _ hlast)
    exact ⟨origin, base, path, hpress, hwritten⟩
  · intro hnone
    rw [h.accounted.cached]
    rcases latest_cached s.history with htold | ⟨cfg, hcached, hlast⟩
    · exact .inl htold
    · right
      rw [hcached, latest_accepted h.numbered hlined hlast (haccepted hnone cfg hlast)]

/-- The answer to the `SetConfig` of a press reaches the tray. -/
def confirm (host : Host) : List FrontEndInput :=
  [.write true, .progress .link .line, .progress .link .send, .control .link host,
    .progress .link .resume, .progress .link (.write true), .read]

theorem press_is_written_iff_shutter : ∃ (s : FrontEnd) (origin : Origin) (base : Config) (path : PathBuf),
    s.tray.pairing = .done "AB Shutter" "KEY_ENTER" ∧
    s.Accepted (base.applyLearnedRemote path "AB Shutter" "KEY_ENTER") origin := by
  obtain ⟨s, hkept, hdone, hrequests, hlink⟩ : ∃ s, RunIf (step Bench.platform)
      (fun s input => s.Keeps input) (start (Bench.boot .default "c1"))
      (synchronise ++ press ++ confirm Bench.remoteHost) s ∧
      s.tray.pairing = .done "AB Shutter" "KEY_ENTER" ∧ s.requests = [] ∧
      s.link.map Link.unanswered = some [] :=
    ⟨_, runIf_get (by decide +kernel), by decide +kernel⟩
  obtain ⟨origin, base, path, -, hwritten⟩ := ((press_is_written_iff
    (hkept.weaken fun _ _ _ => trivial)).2 hkept).1 (settled_of hrequests hlink) _ _ hdone
  exact ⟨s, origin, base, path, hdone, hwritten⟩

/-- The disk has gone read-only: the `SetConfig` of the press is refused, and the press stays paired. -/
theorem refused_press_stays_done :
    ¬∀ (p : Platform) (host : Host) (files : FileSystem) (cfg : Config) (cfgPath : PathBuf)
        (privileges : Privileges) (inputs : List FrontEndInput) (s : FrontEnd),
      Run (step p) (start (.start p host files cfg cfgPath privileges)) inputs s →
      (s.Settled → ∀ name key, s.tray.pairing = .done name key →
        ∃ (origin : Origin) (base : Config) (path : PathBuf), origin.press = s.presses ∧
          s.Accepted (base.applyLearnedRemote path name key) origin) ∧
      (s.tray.cfg = latest Deed.told? s.history ∨ s.tray.cfg = latest Deed.accepted? s.history) := by
  intro h
  obtain ⟨s, hrun, hdone, hrequests, hlink, hnone⟩ : ∃ s, Run (step Bench.platform)
      (start (Bench.boot .default "c1"))
      (synchronise ++ press ++
        confirm { Bench.remoteHost with disk := { Disk.sound with writeFault := some none } }) s ∧
      s.tray.pairing = .done "AB Shutter" "KEY_ENTER" ∧ s.requests = [] ∧
      s.link.map Link.unanswered = some [] ∧ s.settled = [] :=
    ⟨_, run_get (by decide +kernel), by decide +kernel⟩
  obtain ⟨origin, base, path, -, hwritten⟩ :=
    (h _ _ _ _ _ _ _ s hrun).1 (settled_of hrequests hlink) _ _ hdone
  have hmem := mem_settled.mpr ⟨_, origin, hwritten, rfl⟩
  rw [hnone] at hmem
  cases hmem

end FrontEnd

end AlertU
