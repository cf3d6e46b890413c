import AlertU.TrayFollows
import Mathlib.Algebra.Ring.Nat

/-! The tray and the daemon left to themselves. Whatever they do, in whatever order, leaves less to do; and
when there is nothing left, the tray shows the guard. -/

open FilePath Channel Logs Runs

namespace AlertU

/-! ### What a message leads to -/

/-- A button press that is reported has the tray send a request in turn. -/
def Response.weight : Response → ℕ
  | .learned _ _ _ => 30
  | _ => 0

def Request.weight : Request → ℕ
  | .learnRemote _ => 30
  | _ => 0

def Line.weight : Line → ℕ
  | .request req => req.weight
  | _ => 0

theorem Response.weight_le (response : Response) : response.weight ≤ 30 := by
  unfold weight
  split <;> omega

/-! ### What is left to do on a connection -/

namespace Conn

variable {γ : Type} {p : Platform} {host : Host} {v v' : Service} {c c' : Conn γ}
  {progress : Progress}

/-- The connection is neither given up by its client nor broken. -/
def goesOn : Progress → Bool
  | .hangUp | .write false => false
  | _ => true

theorem Moved.opened (h : Moved v c progress c') (hgoes : goesOn progress) : c'.closed = c.closed := by
  cases h with
  | hungUp hphase => cases hgoes
  | failed origin response hphase => cases hgoes
  | _ => rfl

/-- What is left to do for a phase until the connection is back in its `select!`. -/
def rank : ConnPhase γ → ℕ
  | .selecting => 0
  | .starting => 1
  | .stateMarked | .devicesMarked => 3
  | .sending e => 16 + e.1.weight
  | .asking e => 5 + e.1.weight
  | .listening _ _ => 34
  | .answered _ response => 3 + response.weight
  | .writing _ response => 2 + response.weight

/-- A change that is flagged is to be marked, read and written. -/
def flagWork {α : Type*} (w : Watch α) (seen : ℕ) : ℕ := if w.flagged seen then 4 else 0

def lineWork (lines : List (Line × γ)) : ℕ := (lines.map fun line => 20 + line.1.weight).sum

/-- What is left to read of the lines from the `n`th on. -/
def readWork (n : ℕ) (written : List (Option (Request × γ) × Response)) : ℕ :=
  ((written.drop n).map fun line => 1 + line.2.weight).sum

/-- What is left to do on a connection: a command may change the state and the devices, and a line may be
a command. -/
def work (v : Service) (c : Conn γ) : ℕ :=
  lineWork c.lines + 10 * c.ctrl.length + rank c.phase + flagWork v.daemon.stateTx c.stateRx +
    flagWork v.daemon.devicesTx c.devicesRx + if v.running then 1 else 0

theorem lineWork_cons (line : Line × γ) (lines : List (Line × γ)) :
    lineWork (line :: lines) = 20 + line.1.weight + lineWork lines := by
  rw [lineWork, List.map_cons, List.sum_cons]
  rfl

theorem lineWork_concat (lines : List (Line × γ)) (line : Line × γ) :
    lineWork (lines ++ [line]) = lineWork lines + (20 + line.1.weight) := by
  rw [lineWork, List.map_append, List.sum_append]
  rfl

theorem readWork_append {n : ℕ} {written : List (Option (Request × γ) × Response)}
    (hn : n ≤ written.length) (line : Option (Request × γ) × Response) :
    readWork n (written ++ [line]) = readWork n written + (1 + line.2.weight) := by
  rw [readWork, List.drop_append_of_le_length hn, List.map_append, List.sum_append]
  rfl

theorem readWork_of_getElem? {n : ℕ} {written : List (Option (Request × γ) × Response)}
    {line : Option (Request × γ) × Response} (h : written[n]? = some line) :
    readWork n written = 1 + line.2.weight + readWork (n + 1) written := by
  obtain ⟨hn, rfl⟩ := List.getElem?_eq_some_iff.mp h
  rw [readWork, List.drop_eq_getElem_cons hn, List.map_cons, List.sum_cons]
  rfl

theorem flagWork_le {α : Type*} (w : Watch α) (seen : ℕ) : flagWork w seen ≤ 4 := by
  unfold flagWork
  split_ifs <;> omega

theorem flagWork_of_flagged {α : Type*} {w : Watch α} {seen : ℕ} (h : w.flagged seen) :
    flagWork w seen = 4 := if_pos h

theorem flagWork_self {α : Type*} (w : Watch α) : flagWork w w.version = 0 := by
  simp [flagWork, Watch.flagged]

/-- Every step of the connection leaves less to do, the lines that are to be read included. -/
theorem Moved.work_lt (h : Moved v c progress c') (hgoes : goesOn progress) {n : ℕ}
    (hn : n ≤ c.written.length) :
    c'.work v + readWork n c'.written < c.work v + readWork n c.written := by
  cases h with
  | hungUp hphase => cases hgoes
  | failed origin response hphase => cases hgoes
  | started hphase =>
      simp only [work, rank, hphase, flagWork_self]
      omega
  | blank tag rest hphase hlines =>
      simp only [work, hlines, lineWork_cons]
      omega
  | malformed error tag rest hphase hlines =>
      simp only [work, rank, hphase, hlines, lineWork_cons, Response.weight]
      omega
  | stated e subscribed rest hphase hlines hrequest =>
      simp only [work, rank, hphase, hlines, lineWork_cons, Response.weight]
      omega
  | listed e rest hphase hlines hrequest =>
      simp only [work, rank, hphase, hlines, lineWork_cons, Response.weight]
      omega
  | dispatched e rest hphase hlines hcontrol =>
      simp only [work, rank, hphase, hlines, lineWork_cons, Line.weight]
      omega
  | asked e hphase hrunning hexpects =>
      simp only [work, rank, hphase, List.length_append, List.length_singleton]
      omega
  | acked e hphase hrunning hexpects =>
      simp only [work, rank, hphase, List.length_append, List.length_singleton, Response.weight]
      omega
  | unsent e hphase hrunning =>
      simp only [work, rank, hphase, daemonGone, Response.weight]
      omega
  | ended e entries outcome hphase =>
      have hweight := (Learn.answer entries outcome).weight_le
      simp only [work, rank, hphase]
      omega
  | resumed e response hphase =>
      simp only [work, rank, hphase]
      omega
  | dropped e hphase hrunning =>
      simp only [work, rank, hphase, daemonGone, Response.weight, List.length_nil]
      omega
  | stateMarked hphase hsubscribed hflagged =>
      simp only [work, rank, hphase, flagWork_self, flagWork_of_flagged hflagged]
      omega
  | devicesMarked hphase hsubscribed hflagged =>
      simp only [work, rank, hphase, flagWork_self, flagWork_of_flagged hflagged]
      omega
  | stateBorrowed hphase =>
      simp only [work, rank, hphase, Response.weight]
      omega
  | devicesBorrowed hphase =>
      simp only [work, rank, hphase, Response.weight]
      omega
  | written origin response hphase =>
      simp only [work, rank, hphase, readWork_append hn]
      omega

theorem settle_rank (actions : List Action) (phase : ConnPhase γ) :
    rank (phase.settle actions) ≤ rank phase := by
  cases phase with
  | asking e =>
      rw [ConnPhase.settle]
      cases hsettled : actions.findSome? (Action.settles e) with
      | none =>
          simp only [Option.getD_none, rank, daemonGone, Response.weight]
          omega
      | some settled =>
          obtain ⟨action, -, haction⟩ := List.exists_of_findSome?_eq_some hsettled
          unfold Action.settles at haction
          split at haction <;> cases haction
          case h_5 hrequest =>
            simp only [Option.getD_some, rank, hrequest, Request.weight]
            omega
          all_goals
            simp only [Option.getD_some, rank, Response.weight]
            omega
  | _ => exact le_rfl

/-- The machine leaves less to do by taking up a command, even if it changes the state and the devices. -/
theorem Handled.work_lt (h : Handled p host v c v' c') (hrunning : v.running = true) :
    c'.work v' < c.work v := by
  cases h with
  | handled e rest ctrl next hctrl hcontrol hrunning hstep =>
      have hstate := flagWork_le next.stateTx c.stateRx
      have hdevices := flagWork_le next.devicesTx c.devicesRx
      have hrank : rank (if e.1.expectsAnswer then c.phase.settle (v.daemon.since next) else c.phase) ≤
          rank c.phase := by
        split_ifs
        · exact settle_rank _ _
        · exact le_rfl
      simp only [work, hctrl, List.length_cons]
      omega
  | died e rest hctrl =>
      simp only [work, hrunning, if_true, Bool.false_eq_true, if_false]
      omega

theorem running_of_handle {result : Service × Conn γ} (h : c.handle p v host = .ok result) :
    v.running = true := by
  unfold handle at h
  split at h
  · cases h
  · split at h
    · rename_i hrunning
      exact hrunning
    · cases h

/-- The task of the connection, or the machine, can go on. -/
def CanGoOn (p : Platform) (host : Host) (v : Service) (c : Conn γ) : Prop :=
  (∃ progress c', goesOn progress ∧ c.step v progress = .ok c') ∨ ∃ result, c.handle p v host = .ok result

theorem CanGoOn.of_step (progress : Progress) (hgoes : goesOn progress)
    (hstep : (c.step v progress).toOption.isSome) : CanGoOn p host v c :=
  .inl ⟨progress, _, hgoes, eq_ok_get hstep⟩

/-- A connection outside of its `select!` can go on: it waits for the machine only for a command that the
machine is to take up. -/
theorem Commanding.canGoOn (h : c.Commanding v) (hopen : c.closed = false) (hphase : c.phase ≠ .selecting) :
    CanGoOn p host v c := by
  cases hat : c.phase with
  | selecting => exact absurd hat hphase
  | starting => exact .of_step .start rfl (by simp [step, hopen, hat, Except.toOption])
  | sending e =>
      refine .of_step .send rfl ?_
      cases hrunning : v.running <;> simp [step, hopen, hat, hrunning, Except.toOption]
  | asking e =>
      cases hrunning : v.running with
      | false => exact .of_step .resume rfl (by simp [step, hopen, hat, hrunning, Except.toOption])
      | true =>
          have hmem := (h.awaiting e hat).2 hrunning
          cases hctrl : c.ctrl with
          | nil =>
              rw [hctrl] at hmem
              cases hmem
          | cons first rest =>
              obtain ⟨ctrl, hcontrol⟩ := Option.isSome_iff_exists.mp
                (h.commands first (hctrl ▸ List.mem_cons_self))
              refine .inr ?_
              simp only [handle, hctrl, hcontrol, hrunning]
              cases v.daemon.step p (.control ctrl, host) <;> exact ⟨_, rfl⟩
  | listening e entries =>
      exact .of_step (.outcome .timedOut) rfl (by simp [step, hopen, hat, Except.toOption])
  | answered e response => exact .of_step .resume rfl (by simp [step, hopen, hat, Except.toOption])
  | stateMarked => exact .of_step .borrow rfl (by simp [step, hopen, hat, Except.toOption])
  | devicesMarked => exact .of_step .borrow rfl (by simp [step, hopen, hat, Except.toOption])
  | writing origin response =>
      exact .of_step (.write true) rfl (by simp [step, hopen, hat, Except.toOption])

/-- A connection in its `select!` can go on as long as there is a line or, for a subscriber, a change. -/
theorem canGoOn_of_selecting (hopen : c.closed = false) (hphase : c.phase = .selecting)
    (hready : c.lines ≠ [] ∨ c.subscribed = true ∧
      (v.daemon.stateTx.flagged c.stateRx ∨ v.daemon.devicesTx.flagged c.devicesRx)) :
    CanGoOn p host v c := by
  rcases hready with hlines | ⟨hsubscribed, hflagged | hflagged⟩
  · refine .of_step .line rfl ?_
    cases hline : c.lines with
    | nil => exact absurd hline hlines
    | cons line rest => simp [step, hopen, hphase, hline, Except.toOption]
  · exact .of_step .stateChanged rfl (by simp [step, hopen, hphase, hsubscribed, hflagged, Except.toOption])
  · exact .of_step .devicesChanged rfl
      (by simp [step, hopen, hphase, hsubscribed, hflagged, Except.toOption])

end Conn

/-! ### Left to themselves -/

namespace FrontEnd

variable {p : Platform} {s s' : FrontEnd} {input : FrontEndInput} {link : Link}

/-- What the daemon does on the connection of the session, and what the session reads and writes there. The
connection is not lost, and neither the user nor anybody else does anything. -/
def own : FrontEndInput → Bool
  | .progress .link progress => Conn.goesOn progress
  | .control .link _ | .read | .write true => true
  | _ => false

def requestWork (requests : List (Request × Origin)) : ℕ := (requests.map fun e => 21 + e.1.weight).sum

/-- What is left to do for the session. -/
def work (s : FrontEnd) : ℕ :=
  match s.link with
  | none => 0
  | some link =>
      requestWork s.requests + (link.conn.work s.service + Conn.readWork link.read link.conn.written)

/-- A session, on a connection that the daemon serves. -/
structure Live (s : FrontEnd) : Prop where
  following : s.Following
  opened : ∃ link, s.link = some link ∧ link.conn.closed = false

theorem requestWork_cons (e : Request × Origin) (requests : List (Request × Origin)) :
    requestWork (e :: requests) = 21 + e.1.weight + requestWork requests := by
  rw [requestWork, List.map_cons, List.sum_cons]
  rfl

/-- A response leads to one request at most, and only if a press is reported. -/
theorem apply_requestWork (s : FrontEnd) (response : Response) :
    requestWork (s.apply response).requests ≤ requestWork s.requests + response.weight := by
  cases response with
  | learned path name key =>
      simp only [apply, Tray.applyResponse, Tray.finishPairing]
      cases s.tray.cfg <;> simp [queue, requestWork, Request.weight, Response.weight]
  | _ => simp [apply, queue, Tray.applyResponse, Tray.finishPairing, requestWork]

/-- Whatever is done, there is less left to do. -/
theorem Live.step (h : s.Live) (hown : own input) (hstep : s.step p input = .ok s') :
    s'.Live ∧ s'.work < s.work := by
  have hfollowing := h.following.step hstep
  obtain ⟨link, hlink, hopen⟩ := h.opened
  have hread := (h.following.follows link hlink).read
  cases input with
  | progress peer progress =>
      cases peer with
      | orphan n => cases hown
      | link =>
          simp only [FrontEnd.step, peer?, hlink, Option.map_some] at hstep
          split at hstep
          · rename_i conn hconn
            cases hstep
            have hmoved := (Conn.step_cases hconn).2
            have hless := hmoved.work_lt hown hread
            refine ⟨⟨hfollowing, { link with conn }, by simp [setPeer, hlink],
              (hmoved.opened hown).trans hopen⟩, ?_⟩
            simp only [work, setPeer, hlink, Option.map_some]
            omega
          · cases hstep
  | control peer host =>
      cases peer with
      | orphan n => cases hown
      | link =>
          simp only [FrontEnd.step, peer?, hlink, Option.map_some] at hstep
          split at hstep
          · rename_i e rest service conn hctrl hhandle
            cases hstep
            have hhandled := Conn.handle_cases hhandle
            have hless := hhandled.work_lt (Conn.running_of_handle hhandle)
            refine ⟨⟨hfollowing, { link with conn }, by simp [setPeer],
              hhandled.closed.trans hopen⟩, ?_⟩
            simp only [work, setPeer, hlink, Option.map_some, hhandled.written_eq]
            omega
          · cases hstep
  | read =>
      simp only [FrontEnd.step, hlink] at hstep
      split at hstep
      · rename_i origin response hline
        cases hstep
        obtain ⟨hlink', hservice, -⟩ := Following.apply_frame (s.readLine link origin response) response
        have hrequests := (s.readLine link origin response).apply_requestWork response
        refine ⟨⟨hfollowing, { link with read := link.read + 1 }, hlink', hopen⟩, ?_⟩
        rw [work, work, hlink', hlink, hservice]
        simp only [readLine, Conn.readWork_of_getElem? hline] at hrequests ⊢
        omega
      · cases hstep
  | write written =>
      cases written with
      | false => cases hown
      | true =>
          simp only [FrontEnd.step, hlink] at hstep
          split at hstep
          · rename_i link' e rest hlink' hrequests
            cases hstep
            cases hlink'
            refine ⟨⟨hfollowing, _, rfl, hopen⟩, ?_⟩
            simp only [work, hlink, hrequests, requestWork_cons, Conn.work, Conn.lineWork_concat,
              Line.weight]
            omega
          · cases hstep
  | _ => cases hown

/-- As long as the tray is not up to date with the guard, there is something to do. -/
theorem Live.exists_step (h : s.Live) (hstuck : ∀ input next, own input → s.step p input ≠ .ok next) :
    ∃ link, s.CaughtUp link := by
  obtain ⟨link, hlink, hopen⟩ := h.opened
  have hserving := (h.following.follows link hlink).serving hopen
  have hcannot : ¬Conn.CanGoOn p (Bench.host "c1") s.service link.conn := by
    rintro (⟨progress, conn, hgoes, hconn⟩ | ⟨⟨service, conn⟩, hhandle⟩)
    · refine hstuck (.progress .link progress) (s.setPeer conn .link) hgoes ?_
      simp only [FrontEnd.step, peer?, hlink, Option.map_some, hconn]
    · cases hctrl : link.conn.ctrl with
      | nil =>
          rw [Conn.handle, hctrl] at hhandle
          cases hhandle
      | cons e rest =>
          refine hstuck (.control .link (Bench.host "c1")) (setPeer { s with
            service
            history := s.history ++ deeds e s.service service } conn .link) rfl ?_
          simp only [FrontEnd.step, peer?, hlink, Option.map_some, hctrl, hhandle]
  have hselecting : link.conn.phase = .selecting := by
    by_contra hphase
    exact hcannot (hserving.commanding.canGoOn hopen hphase)
  have hquiet : ¬(link.conn.lines ≠ [] ∨ link.conn.subscribed = true ∧
      (s.service.daemon.stateTx.flagged link.conn.stateRx ∨
        s.service.daemon.devicesTx.flagged link.conn.devicesRx)) := fun hready =>
    hcannot (Conn.canGoOn_of_selecting hopen hselecting hready)
  simp only [not_or, not_and, ne_eq, not_not, Bool.not_eq_true] at hquiet
  obtain ⟨htaken, hquiet⟩ := hquiet
  have hsubscribed : link.conn.subscribed = true := by
    refine hserving.subscribed.resolve_right ?_
    rintro ⟨tag, hmem⟩
    rw [htaken] at hmem
    cases hmem
  refine ⟨link, hlink, hopen, hselecting, htaken, (hquiet hsubscribed).1, (hquiet hsubscribed).2, ?_⟩
  by_contra hunread
  obtain ⟨⟨origin, response⟩, hline⟩ : ∃ line, link.conn.written[link.read]? = some line :=
    ⟨_, List.getElem?_eq_getElem (Nat.lt_of_not_le hunread)⟩
  refine hstuck .read ((s.readLine link origin response).apply response) rfl ?_
  simp only [FrontEnd.step, hlink, hline]

/-- Left to themselves, the daemon and the tray are soon done, in whatever order they go on: no run is
longer than what there was left to do, and when there is nothing left, the tray shows the guard. -/
theorem tray_catches_up {host : Host} {files : FileSystem} {cfg : Config} {cfgPath : PathBuf}
    {privileges : Privileges} {inputs more : List FrontEndInput}
    (hrun : Run (step p) (start (.start p host files cfg cfgPath privileges)) inputs s)
    (hlink : s.link = some link) (hopen : link.conn.closed = false)
    (hmore : RunIf (step p) (fun _ input => own input) s more s') :
    more.length ≤ s.work ∧
      ((∀ input next, own input → s'.step p input ≠ .ok next) → s'.ShowsGuard) := by
  have hlive : s.Live := ⟨following_of_run hrun, link, hlink, hopen⟩
  obtain ⟨hlive', hlength⟩ := hmore.length_add_le work hlive fun _ _ _ h hown hstep => h.step hown hstep
  refine ⟨by omega, fun hstuck => ?_⟩
  obtain ⟨link', hcaught⟩ := hlive'.exists_step hstuck
  exact hlive'.following.showsGuard hcaught

theorem tray_catches_up_armed : ∃ s s' : FrontEnd, s.tray.state = .idle ∧ s'.tray.state = .armed ∧
    pushed.length ≤ s.work ∧
      ((∀ input next, own input → s'.step Bench.platform input ≠ .ok next) → s'.ShowsGuard) := by
  obtain ⟨s, hrun, hidle, link, hlink, hopen, s', hmore, harmed⟩ : ∃ s, Run (step Bench.platform)
      (start (Bench.boot .default "c1")) armedElsewhere s ∧ s.tray.state = .idle ∧
      ∃ link, s.link = some link ∧ link.conn.closed = false ∧
        ∃ s', RunIf (step Bench.platform) (fun _ input => own input) s pushed s' ∧
          s'.tray.state = .armed :=
    ⟨_, run_get (by decide +kernel), by decide +kernel, _, (Option.some_get (by decide +kernel)).symm,
      by decide +kernel, _, runIf_get (by decide +kernel), by decide +kernel⟩
  exact ⟨s, s', hidle, harmed, tray_catches_up hrun hlink hopen hmore⟩

end FrontEnd

end AlertU
