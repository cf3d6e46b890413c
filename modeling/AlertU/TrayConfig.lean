import AlertU.TrayToggle

/-! Pairing from the tray as a read-modify-write of the configuration. What the tray modifies is its
copy of the configuration that it has fetched last, and what it writes replaces the whole configuration
in force: the fields that a pairing does not touch keep their values exactly if they have not changed
since the fetch. -/

open FilePath Runs

namespace AlertU

namespace Config

/-- The configuration in everything that a pairing does not touch. -/
def elsewhere (cfg : Config) : Config :=
  { cfg with remoteDevice := "", remoteNameHint := "", toggleKeys := [] }

@[simp]
theorem elsewhere_applyLearnedRemote (cfg : Config) (path : PathBuf) (name key : String) :
    (cfg.applyLearnedRemote path name key).elsewhere = cfg.elsewhere := by
  rw [applyLearnedRemote]
  split_ifs <;> rfl

/-- The configuration is elsewhere the one that has been fetched. -/
def StemsFrom (cfg : Config) (fetched : Option Config) : Prop :=
  fetched.map elsewhere = some cfg.elsewhere

instance (cfg : Config) (fetched : Option Config) : Decidable (cfg.StemsFrom fetched) :=
  inferInstanceAs (Decidable (fetched.map elsewhere = some cfg.elsewhere))

theorem StemsFrom.applyLearnedRemote {cfg : Config} {fetched : Option Config}
    (h : cfg.StemsFrom fetched) (path : PathBuf) (name key : String) :
    (cfg.applyLearnedRemote path name key).StemsFrom fetched := by
  rw [StemsFrom, elsewhere_applyLearnedRemote]
  exact h

end Config

namespace Deed

/-- A `SetConfig` of the tray that is accepted changes only what a pairing touches. -/
def Framed : Deed → Prop
  | .applied _ force cfg => cfg.elsewhere = force.elsewhere
  | _ => True

/-- When it is accepted, the configuration in force is elsewhere the one that the tray had fetched. -/
def Fresh : Deed → Prop
  | .applied origin force _ => force.StemsFrom origin.fetched
  | _ => True

instance : DecidablePred Fresh
  | .applied origin force _ => inferInstanceAs (Decidable (force.StemsFrom origin.fetched))
  | .fetched _ | .pressed _ | .toggled _ _ _ | .replied _ _ | .lost _ =>
      inferInstanceAs (Decidable True)

/-- The tray has made it from the configuration that it had fetched. -/
def Derived : Deed → Prop
  | .applied origin _ cfg => cfg.StemsFrom origin.fetched
  | _ => True

theorem Derived.framed_iff {deed : Deed} (h : deed.Derived) : deed.Framed ↔ deed.Fresh := by
  cases deed with
  | applied origin force cfg =>
      change origin.fetched.map Config.elsewhere = some cfg.elsewhere at h
      rw [Framed, Fresh, Config.StemsFrom, h, Option.some_inj]
  | _ => exact Iff.rfl

end Deed

namespace FrontEnd

variable {p : Platform} {s s' : FrontEnd} {input : FrontEndInput}

/-- A request of the tray that is queued, or that some connection has received. -/
def Sent (s : FrontEnd) (e : Request × Origin) : Prop :=
  e ∈ s.requests ∨ ∃ conn ∈ s.conns, e ∈ conn.requests

/-- What a connection has received, it had received before, or the tray has written it now. -/
theorem Arises.sent {conn : Conn Origin} (h : Arises p s s' conn) {cfg : Config} {origin : Origin}
    (hmem : (.setConfig cfg, origin) ∈ conn.requests) : s.Sent (.setConfig cfg, origin) := by
  cases h with
  | same conn hconn => exact .inr ⟨conn, hconn, hmem⟩
  | moved conn₁ conn progress hconn hmoved => exact .inr ⟨conn₁, hconn, hmoved.requests ▸ hmem⟩
  | handled conn₁ conn host e rest hconn hctrl hhandled hhistory =>
      exact .inr ⟨conn₁, hconn, hhandled.requests ▸ hmem⟩
  | killed conn hconn => exact .inr ⟨conn, hconn, hmem⟩
  | wrote conn e hconn he =>
      simp only [Conn.requests, List.filterMap_append, ← List.append_assoc] at hmem
      rcases List.mem_append.mp hmem with hmem | hmem
      · exact .inr ⟨conn, hconn, hmem⟩
      · simp only [List.filterMap_cons, Line.request?, Option.map_some, List.filterMap_nil,
          List.mem_singleton] at hmem
        rw [hmem]
        exact .inl he
  | opened => simp [resync, Conn.requests, Conn.new, ConnPhase.request, Line.request?] at hmem

/-- The configurations that the tray holds or has sent stem from one that it has fetched. -/
structure Genuine (s : FrontEnd) : Prop where
  cached : ∀ cfg, s.tray.cfg = some cfg → cfg.StemsFrom s.fetched
  sent : ∀ cfg origin, s.Sent (.setConfig cfg, origin) → cfg.StemsFrom origin.fetched
  derived : ∀ deed ∈ s.history, deed.Derived

namespace Genuine

/-- What is sent now was sent before, except for what the tray queues. -/
theorem sent_of_queued (h : s.Genuine) (hwent : Went p s input s')
    (hqueued : ∀ cfg origin, (.setConfig cfg, origin) ∈ s'.requests →
      cfg.StemsFrom origin.fetched) {cfg : Config} {origin : Origin}
    (hsent : s'.Sent (.setConfig cfg, origin)) : cfg.StemsFrom origin.fetched := by
  rcases hsent with hmem | ⟨conn, hconn, hmem⟩
  · exact hqueued cfg origin hmem
  · exact h.sent cfg origin ((hwent.arises hconn).sent hmem)

/-- A step in which the tray neither changes its configuration nor queues one. -/
theorem keep (h : s.Genuine) (hwent : Went p s input s')
    (hderived : ∀ deed ∈ s'.history, deed.Derived) (htray : s'.tray.cfg = s.tray.cfg)
    (hfetched : s'.fetched = s.fetched)
    (hrequests : ∀ cfg origin, (.setConfig cfg, origin) ∈ s'.requests →
      (.setConfig cfg, origin) ∈ s.requests) : s'.Genuine := by
  refine ⟨?_, fun cfg origin => h.sent_of_queued hwent fun cfg origin hmem => ?_, hderived⟩
  · rw [htray, hfetched]
    exact h.cached
  · exact h.sent cfg origin (.inl (hrequests cfg origin hmem))

/-- A `SetConfig` that the machine accepts is one that the tray has sent. -/
theorem noted (h : s.Genuine) (hanswering : s.Answering) {deed : Deed} (hnoted : Noted p s s' deed) :
    deed.Derived := by
  cases hnoted with
  | handled conn conn' host e rest deed hconn hctrl hhandled hdeed =>
      obtain ⟨req, origin⟩ := e
      rcases deeds_cases hdeed with ⟨-, -, rfl⟩ | ⟨cfg, hrequest, rfl⟩
      · trivial
      · cases hrequest
        refine h.sent cfg origin (.inr ⟨conn, hconn, (hanswering conn hconn).ctrl ?_⟩)
        rw [hctrl]
        exact List.mem_cons_self
  | _ => trivial

theorem step (h : s.Genuine) (hanswering : s.Answering) (hwent : Went p s input s') :
    s'.Genuine := by
  have hderived : ∀ deed ∈ s'.history, deed.Derived := by
    intro deed hmem
    rcases hwent.noted hmem with hmem | hnoted
    · exact h.derived deed hmem
    · exact h.noted hanswering hnoted
  have hkeep := h.keep hwent hderived
  have hsent := h.sent_of_queued hwent
  cases hwent with
  | machine wake host service hwake => exact hkeep rfl rfl fun _ _ hmem => hmem
  | handled peer host conn conn' service e rest hpeer hctrl hhandled =>
      cases peer <;> exact hkeep rfl rfl fun _ _ hmem => hmem
  | moved peer progress conn conn' hpeer hmoved =>
      cases peer <;> exact hkeep rfl rfl fun _ _ hmem => hmem
  | restarted host daemon => exact hkeep rfl rfl fun _ _ hmem => hmem
  | connected hlink => exact hkeep rfl rfl fun _ _ hmem => absurd hmem List.not_mem_nil
  | toggled =>
      refine hkeep rfl rfl fun cfg origin hmem => ?_
      simpa [queue] using hmem
  | paired =>
      refine hkeep rfl rfl fun cfg origin hmem => ?_
      simpa [queue, Tray.startPairing] using hmem
  | wrote link e rest hlink hrequests =>
      refine hkeep rfl rfl fun cfg origin hmem => ?_
      rw [hrequests]
      exact List.mem_cons_of_mem _ hmem
  | failed link e rest hlink hrequests =>
      refine hkeep rfl rfl fun cfg origin hmem => ?_
      rw [hrequests]
      exact List.mem_cons_of_mem _ hmem
  | read link origin response hlink hline =>
      have happlied := apply_cases (s.readLine link origin response) response
      generalize (s.readLine link origin response).apply response = next at *
      cases happlied with
      | fetched cfg =>
          refine ⟨fun cfg' hcfg => ?_, fun cfg' origin' => hsent fun cfg' origin' hmem => ?_, hderived⟩
          · cases hcfg
            rfl
          · rw [List.append_nil] at hmem
            exact h.sent cfg' origin' (.inl hmem)
      | pressed path name key base cfg hbase hcfg =>
          have hpressed : cfg.StemsFrom s.fetched := by
            rw [hcfg]
            exact (h.cached base hbase).applyLearnedRemote path name key
          refine ⟨fun cfg' hcfg' => ?_, fun cfg' origin' => hsent fun cfg' origin' hmem => ?_, hderived⟩
          · cases hcfg'
            exact hpressed
          · rcases List.mem_append.mp hmem with hmem | hmem
            · exact h.sent cfg' origin' (.inl hmem)
            · cases List.mem_singleton.mp hmem
              exact hpressed
      | shown response tray request hcfg hpairing hrequest =>
          refine hkeep hcfg rfl fun cfg' origin' hmem => ?_
          rcases hrequest with rfl | rfl
          · simpa [queue, readLine] using hmem
          · simpa [queue, readLine] using hmem
  | lost link hlink => exact hkeep rfl rfl fun _ _ hmem => hmem
  | offline hlink => exact hkeep rfl rfl fun _ _ hmem => hmem

end Genuine

/-- The invariants of the connections and of the configurations together. -/
def Traced (s : FrontEnd) : Prop := s.Answering ∧ s.Genuine

theorem traced_start (daemon : Daemon) : (start daemon).Traced := by
  refine ⟨answering_start daemon, fun cfg hcfg => ?_, fun cfg origin hsent => ?_,
    List.forall_mem_nil _⟩
  · cases hcfg
  · rcases hsent with hmem | ⟨conn, hconn, -⟩
    · cases hmem
    · cases hconn

theorem traced_step (h : s.Traced) (hstep : s.step p input = .ok s') : s'.Traced :=
  ⟨h.1.step (step_cases hstep), h.2.step h.1 (step_cases hstep)⟩

/-- Each pairing from the tray that is accepted leaves everything else in the configuration in force
alone, exactly if each time that is still what the tray had fetched. -/
theorem pairing_keeps_updates_iff {host : Host} {files : FileSystem} {cfg : Config}
    {cfgPath : PathBuf} {privileges : Privileges} {inputs : List FrontEndInput}
    (hrun : Run (step p) (start (.start p host files cfg cfgPath privileges)) inputs s) :
    (∀ deed ∈ s.history, deed.Framed) ↔ ∀ deed ∈ s.history, deed.Fresh := by
  have h : s.Traced := hrun.invariant (traced_start _) fun _ _ _ h _ hnext => traced_step h hnext
  constructor
  · intro hframed deed hmem
    exact (h.2.derived deed hmem).framed_iff.mp (hframed deed hmem)
  · intro hfresh deed hmem
    exact (h.2.derived deed hmem).framed_iff.mpr (hfresh deed hmem)

/-- A pairing is started from the menu, and the button of the remote is pressed. -/
def press : List FrontEndInput :=
  .pair :: deliver ++ [
    .progress .link (.outcome (.learned ⟨"/dev/input/event5"⟩ "AB Shutter" "KEY_ENTER")),
    .progress .link .resume, .progress .link (.write true), .read]

theorem pairing_keeps_updates_iff_alone : ∃ (s : FrontEnd) (origin : Origin),
    .applied origin .default Bench.shutter ∈ s.history ∧ ∀ deed ∈ s.history, deed.Framed := by
  obtain ⟨s, hrun, hmem, hfresh⟩ : ∃ s, Run (step Bench.platform)
      (start (Bench.boot .default "c1")) (synchronise ++ press ++ deliver) s ∧
      .applied ⟨.idle, some .default, 1⟩ .default Bench.shutter ∈ s.history ∧
      ∀ deed ∈ s.history, deed.Fresh :=
    ⟨_, run_get (by decide +kernel), by decide +kernel⟩
  exact ⟨s, _, hmem, (pairing_keeps_updates_iff hrun).mpr hfresh⟩

/-- Another client turns the delays off after the tray has fetched the configuration, and the pairing
turns them on again. -/
theorem pairing_reverts_update :
    ¬∀ (p : Platform) (host : Host) (files : FileSystem) (cfg : Config) (cfgPath : PathBuf)
        (privileges : Privileges) (inputs : List FrontEndInput) (s : FrontEnd),
      Run (step p) (start (.start p host files cfg cfgPath privileges)) inputs s →
      ∀ deed ∈ s.history, deed.Framed := by
  intro h
  obtain ⟨s, hrun, hmem⟩ : ∃ s, Run (step Bench.platform) (start (Bench.boot .default "c1"))
      (synchronise ++ .machine (.control (.setConfig Bench.prompt)) Bench.remoteHost :: press ++
        deliver) s ∧
      .applied ⟨.idle, some .default, 1⟩ Bench.prompt Bench.shutter ∈ s.history :=
    ⟨_, run_get (by decide +kernel), by decide +kernel⟩
  have hframed : Bench.shutter.elsewhere = Bench.prompt.elsewhere := h _ _ _ _ _ _ _ s hrun _ hmem
  exact absurd hframed (by decide +kernel)

end FrontEnd

end AlertU
