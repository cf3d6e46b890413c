import AlertU.ClientRetry
import AlertU.ConfigPersist
import AlertU.MachinePanic

/-! A `SetConfig` that the machine receives twice. Whether the configuration is accepted depends on
itself and on the disk, and one that is accepted overwrites what was in memory and in the file. So a
second copy leaves the machine as if it had been the only one, unless a deadline overflows in one of
the two runs: the first copy may have replaced, or have brought, the delay that overflows. -/

open FilePath Calls Runs

namespace AlertU

/-! ### One step -/

section Disk

variable {disk : Disk} {fs fs' : FileSystem}

/-- Whether a file can be written is up to the disk, whatever the files hold. -/
theorem write_answer (path : PathBuf) (text : String) :
    (fs.write disk path text).1 = (fs'.write disk path text).1 := by
  unfold FileSystem.write
  cases path.fileName with
  | none => rfl
  | some _ => cases disk.writeFault <;> rfl

theorem rename_answer (source target : PathBuf) :
    (fs.rename disk source target).1 = (fs'.rename disk source target).1 := by
  unfold FileSystem.rename
  split_ifs <;> rfl

/-- Whether a save succeeds is up to the disk, whatever the files hold. -/
theorem Config.save_answer {toml : Toml} {cfg : Config} {path : PathBuf}
    (h : (cfg.save toml disk fs path).1 = .ok ()) : (cfg.save toml disk fs' path).1 = .ok () := by
  obtain ⟨text, fs₁, hparent, htext, hwrite, hrename⟩ := save_eq_ok_iff.mp (Prod.ext h rfl)
  let tmp := path.withExtension "toml.tmp"
  have hwrite' : (fs'.write disk tmp text).1 = true := by
    rw [write_answer tmp text, hwrite]
  have hrename' : ((fs'.write disk tmp text).2.rename disk tmp path).1 = true := by
    rw [rename_answer tmp path, hrename]
  exact congrArg Prod.fst
    (save_eq_ok_iff.mpr ⟨text, _, hparent, htext, Prod.ext hwrite' rfl, Prod.ext hrename' rfl⟩)

end Disk

namespace Daemon

variable {p : Platform} {host : Host} {d d' e e' : Daemon} {wake : Wake}

/-- Two daemons with one configuration, in memory and in the file. -/
structure SameConfig (d d' : Daemon) : Prop where
  path : d'.cfgPath = d.cfgPath
  cfg : d'.cfg = d.cfg
  file : d'.files.lookup d.cfgPath = d.files.lookup d.cfgPath

/-- Only a `SetConfig` touches the configuration or the files. -/
theorem StepResult.keeps (hstep : StepResult p host d wake d')
    (hwake : ∀ cfg, wake ≠ .control (.setConfig cfg)) : d'.cfg = d.cfg ∧ d'.files = d.files := by
  cases hstep with
  | rejected cfg _ _ _ => exact absurd rfl (hwake cfg)
  | installed cfg _ _ _ => exact absurd rfl (hwake cfg)
  | intruded _ d₁ _ _ _ hgrace _ => cases hgrace <;> exact ⟨rfl, rfl⟩
  | _ => exact ⟨rfl, rfl⟩

/-- What a `SetConfig` does to the configuration, in memory and in the file. -/
inductive Stored (p : Platform) (host : Host) (cfg : Config) (d d' : Daemon) : Prop where
  | accepted (text : String) (hvalid : cfg.validate = .ok ())
      (hsaved : (cfg.save p.toml host.disk d.files d.cfgPath).1 = .ok ())
      (htext : p.toml.toStringPretty cfg = some text) (hcfg : d'.cfg = cfg)
      (hfile : d'.files.lookup d.cfgPath = some text)
  | rejected (hrefused : cfg.validate = .ok () →
        (cfg.save p.toml host.disk d.files d.cfgPath).1 ≠ .ok ())
      (hcfg : d'.cfg = d.cfg) (hfile : d'.files.lookup d.cfgPath = d.files.lookup d.cfgPath)

theorem stored_of_step {cfg : Config} (hstep : step p d (.control (.setConfig cfg), host) = .ok d') :
    Stored p host cfg d d' := by
  replace hstep : d.onControl p host (.setConfig cfg) = .ok d' := hstep
  rw [setConfig_eq] at hstep
  cases hvalid : cfg.validate with
  | error message =>
      rw [hvalid] at hstep
      cases hstep
      refine .rejected (fun hok => ?_) rfl rfl
      rw [hvalid] at hok
      cases hok
  | ok _ =>
      rw [hvalid] at hstep
      rcases hsave : cfg.save p.toml host.disk d.files d.cfgPath with ⟨saved, files⟩
      rw [hsave] at hstep
      cases saved with
      | error message =>
          cases hstep
          refine .rejected (fun _ => by rw [hsave]; simp) rfl (Config.lookup_of_save_error hsave)
      | ok _ =>
          cases hstep
          obtain ⟨text, htext, hlookup⟩ := Config.lookup_of_save_ok hsave
          exact .accepted text hvalid (by rw [hsave]) htext rfl hlookup

theorem cfgPath_of_step {input : Wake × Host} (hstep : step p d input = .ok d') :
    d'.cfgPath = d.cfgPath := by
  obtain ⟨wake, host⟩ := input
  cases step_cases hstep with
  | intruded _ d₁ _ _ _ hgrace _ => cases hgrace <;> rfl
  | _ => rfl

/-- A configuration that one daemon accepts, another one with the same path accepts as well. -/
theorem Stored.same {cfg : Config} (hpath : d'.cfgPath = d.cfgPath)
    (hsaved : cfg.validate = .ok () ∧ (cfg.save p.toml host.disk d.files d.cfgPath).1 = .ok ())
    (h : Stored p host cfg d e) (h' : Stored p host cfg d' e') :
    e'.cfg = e.cfg ∧ e'.files.lookup d.cfgPath = e.files.lookup d.cfgPath := by
  have hsaved' : (cfg.save p.toml host.disk d'.files d'.cfgPath).1 = .ok () := by
    rw [hpath]
    exact Config.save_answer hsaved.2
  cases h with
  | rejected hrefused _ _ => exact absurd hsaved.2 (hrefused hsaved.1)
  | accepted text _ _ htext hcfg hfile =>
      cases h' with
      | rejected hrefused _ _ => exact absurd hsaved' (hrefused hsaved.1)
      | accepted text' _ _ htext' hcfg' hfile' =>
          rw [htext] at htext'
          cases htext'
          rw [hpath] at hfile'
          exact ⟨hcfg'.trans hcfg.symm, hfile'.trans hfile.symm⟩

/-- Daemons with one configuration go on with one, whatever they receive. -/
theorem sameConfig_step {input : Wake × Host} (h : SameConfig d d') (hstep : step p d input = .ok e)
    (hstep' : step p d' input = .ok e') : SameConfig e e' := by
  have hpath := cfgPath_of_step hstep
  have hpath' := cfgPath_of_step hstep'
  obtain ⟨wake, host⟩ := input
  suffices hsame : e'.cfg = e.cfg ∧ e'.files.lookup d.cfgPath = e.files.lookup d.cfgPath by
    refine ⟨by rw [hpath, hpath', h.path], hsame.1, ?_⟩
    rw [hpath]
    exact hsame.2
  by_cases hset : ∃ cfg, wake = .control (.setConfig cfg)
  · obtain ⟨cfg, rfl⟩ := hset
    have hstored := stored_of_step hstep
    have hstored' := stored_of_step hstep'
    by_cases hsaved : cfg.validate = .ok () ∧
        (cfg.save p.toml host.disk d.files d.cfgPath).1 = .ok ()
    · exact hstored.same h.path hsaved hstored'
    · cases hstored with
      | accepted _ hvalid hsave _ _ _ => exact absurd ⟨hvalid, hsave⟩ hsaved
      | rejected _ hcfg hfile =>
          cases hstored' with
          | accepted _ hvalid hsave _ _ _ =>
              rw [h.path] at hsave
              exact absurd ⟨hvalid, Config.save_answer hsave⟩ hsaved
          | rejected _ hcfg' hfile' =>
              rw [h.path] at hfile'
              exact ⟨by rw [hcfg, hcfg', h.cfg], by rw [hfile, hfile', h.file]⟩
  · have hwake : ∀ cfg, wake ≠ .control (.setConfig cfg) := fun cfg hcfg => hset ⟨cfg, hcfg⟩
    obtain ⟨hcfg, hfiles⟩ := (step_cases hstep).keeps hwake
    obtain ⟨hcfg', hfiles'⟩ := (step_cases hstep').keeps hwake
    exact ⟨by rw [hcfg, hcfg', h.cfg], by rw [hfiles, hfiles', h.file]⟩

/-! ### Runs -/

variable {inputs : List (Wake × Host)}

theorem cfgPath_of_run (hrun : Run (step p) d inputs d') : d'.cfgPath = d.cfgPath := by
  induction hrun with
  | nil => rfl
  | snoc _ _ hnext ih => exact (cfgPath_of_step hnext).trans ih

theorem sameConfig_run (h : SameConfig d d') (hrun : Run (step p) d inputs e)
    (hrun' : Run (step p) d' inputs e') : SameConfig e e' := by
  induction inputs generalizing d d' with
  | nil =>
      cases run_unique hrun .nil
      cases run_unique hrun' .nil
      exact h
  | cons input rest ih =>
      obtain ⟨next, hnext, hrest⟩ := run_cons_iff.mp hrun
      obtain ⟨next', hnext', hrest'⟩ := run_cons_iff.mp hrun'
      exact ih (sameConfig_step h hnext hnext') hrest hrest'

/-- The message of a `SetConfig`. -/
def copy (cfg : Config) (host : Host) : Wake × Host := (.control (.setConfig cfg), host)

/-- The machine would accept the configuration. -/
def Accepts (p : Platform) (host : Host) (d : Daemon) (cfg : Config) : Prop :=
  (d.applyConfig p host cfg).1 = .ok

theorem saved_of_accepts {cfg : Config} (h : d.Accepts p host cfg) :
    cfg.validate = .ok () ∧ (cfg.save p.toml host.disk d.files d.cfgPath).1 = .ok () := by
  unfold Accepts applyConfig at h
  cases hvalid : cfg.validate with
  | error message =>
      rw [hvalid] at h
      cases h
  | ok _ =>
      rw [hvalid] at h
      rcases hsave : cfg.save p.toml host.disk d.files d.cfgPath with ⟨saved, files⟩
      rw [hsave] at h
      cases saved with
      | error message => cases h
      | ok _ => exact ⟨rfl, rfl⟩

/-- An accepted copy leaves nothing of what was before, and what follows is the same. -/
theorem sameConfig_of_copy {cfg : Config} {after : List (Wake × Host)} (hpath : d'.cfgPath = d.cfgPath)
    (haccepts : d.Accepts p host cfg) (hrun : Run (step p) d (copy cfg host :: after) e)
    (hrun' : Run (step p) d' (copy cfg host :: after) e') : SameConfig e e' := by
  obtain ⟨next, hnext, hrest⟩ := run_cons_iff.mp hrun
  obtain ⟨next', hnext', hrest'⟩ := run_cons_iff.mp hrun'
  obtain ⟨hcfg, hfile⟩ :=
    (stored_of_step hnext).same hpath (saved_of_accepts haccepts) (stored_of_step hnext')
  refine sameConfig_run ⟨?_, hcfg, ?_⟩ hrest hrest'
  · rw [cfgPath_of_step hnext, cfgPath_of_step hnext', hpath]
  · rw [cfgPath_of_step hnext]
    exact hfile

/-! ### The end of a machine -/

theorem plus_bind_ne_stopped {t : Timing.Instant} {delay : ℕ} {f : Timing.Instant → Except Halt Daemon}
    (hf : ∀ sum, f sum ≠ .error .stopped) : (plus t delay >>= f) ≠ .error .stopped := by
  unfold plus
  cases t.checkedAdd delay with
  | none => exact fun h => by cases h
  | some sum => exact hf sum

theorem runEffect_ne_stopped {effect : Effect} : d.runEffect p host effect ≠ .error .stopped := by
  cases effect with
  | startGrace | startCountdown => exact plus_bind_ne_stopped fun _ h => by cases h
  | _ => exact fun h => by cases h

theorem apply_ne_stopped {event : Event} : d.apply p host event ≠ .error .stopped := by
  intro h
  unfold apply at h
  dsimp only at h
  split at h
  · cases h
  · rename_i transition _
    cases hfold : transition.effects.foldlM (fun d effect => d.runEffect p host effect)
        (d.record (.handle event)) with
    | ok d₁ =>
        rw [hfold] at h
        cases h
    | error e =>
        rw [hfold] at h
        cases h
        obtain ⟨_, effect, _, d₁, -, -, heffect⟩ := foldlM_eq_error_iff.mp hfold
        exact runEffect_ne_stopped heffect

/-- The machine stops only when one of its channels is closed. -/
theorem channel_of_stopped (h : step p d (wake, host) = .error .stopped) :
    wake = .inputsClosed ∨ wake = .controlsClosed := by
  cases wake with
  | inputsClosed => exact .inl rfl
  | controlsClosed => exact .inr rfl
  | lockClosed => cases h
  | input signal =>
      change d.onInput p host signal = _ at h
      cases signal with
      | remoteToggle => exact absurd h apply_ne_stopped
      | activity summary =>
          rw [onInput] at h
          split_ifs at h
          rcases helapsed : d.graceElapsed p with ⟨elapsed, d₁⟩
          rw [helapsed] at h
          cases elapsed with
          | true => exact absurd h apply_ne_stopped
          | false => cases h
  | lock locked =>
      change d.onLock p host locked = _ at h
      rw [onLock] at h
      split_ifs at h
      exact absurd h apply_ne_stopped
  | control ctrl =>
      change d.onControl p host ctrl = _ at h
      cases ctrl with
      | toggle | arm | disarm => exact absurd h apply_ne_stopped
      | setConfig cfg =>
          rw [setConfig_eq] at h
          cases h
      | rescan | getConfig | learnRemote _ | testSound => cases h
  | timer =>
      change d.onTimer p host = _ at h
      by_cases hstate : d.state = .triggered
      · rw [onTimer_eq hstate] at h
        cases h
      · rw [onTimer, if_pos hstate] at h
        cases h

/-- A channel that the machine receives from is closed. -/
def Closing (input : Wake × Host) : Prop := input.1 = .inputsClosed ∨ input.1 = .controlsClosed

theorem open_of_run (hrun : Run (step p) d inputs d') : ∀ input ∈ inputs, ¬Closing input := by
  induction hrun with
  | nil => exact List.forall_mem_nil _
  | @snoc inputs s next last _ _ hnext ih =>
      intro input hmem hclosing
      rcases List.mem_append.mp hmem with hmem | hmem
      · exact ih input hmem hclosing
      · obtain rfl := List.mem_singleton.mp hmem
        obtain ⟨wake, host⟩ := input
        rcases hclosing with rfl | rfl <;> cases hnext

/-- A machine that does not panic goes on until one of its channels is closed. -/
theorem outcome_cases (hquiet : inputs.foldlM (step p) d ≠ .error .panicked) :
    (∃ d', Run (step p) d inputs d') ∧ (∀ input ∈ inputs, ¬Closing input) ∨
      inputs.foldlM (step p) d = .error .stopped ∧ ∃ input ∈ inputs, Closing input := by
  cases hfold : inputs.foldlM (step p) d with
  | ok d' =>
      have hrun := run_iff_foldlM.mpr hfold
      exact .inl ⟨⟨d', hrun⟩, open_of_run hrun⟩
  | error halt =>
      cases halt with
      | panicked => exact absurd hfold hquiet
      | stopped =>
          obtain ⟨_, input, _, s, rfl, -, hstop⟩ := foldlM_eq_error_iff.mp hfold
          exact .inr ⟨rfl, input, by simp, channel_of_stopped hstop⟩

/-! ### The second copy -/

/-- What two runs of the machine come to: both go on, under one configuration, or both are stopped. A machine
that panics agrees with none, not even with one that panics at the same message. -/
def Agree : Except Halt Daemon → Except Halt Daemon → Prop
  | .ok d, .ok d' => SameConfig d d'
  | .error .stopped, .error .stopped => True
  | _, _ => False

/-- No message finds the machine in a state in which a deadline overflows. -/
def NoOverflow (p : Platform) (d : Daemon) (inputs : List (Wake × Host)) : Prop :=
  ∀ before input after d', inputs = before ++ input :: after → Run (step p) d before d' →
    ¬d'.Overflows p input.1

theorem ne_panicked_of_agree {r r' : Except Halt Daemon} (h : Agree r r') :
    r ≠ .error .panicked ∧ r' ≠ .error .panicked := by
  constructor
  · rintro rfl
    cases h
  · rintro rfl
    rcases r with (_ | _) | _ <;> cases h

theorem isSome_of_agree {r r' : Except Halt Daemon} (h : Agree r r') :
    r.toOption.isSome = r'.toOption.isSome := by
  rcases r with (_ | _) | _ <;> rcases r' with (_ | _) | _ <;> first | rfl | cases h

/-- After two copies of a `SetConfig` the machine agrees with one that has received the second only,
whatever comes between them and after, if and only if no deadline overflows in either run. -/
theorem agree_iff {files : FileSystem} {cfg₀ cfg : Config} {cfgPath : PathBuf} {privileges : Privileges}
    {before between after : List (Wake × Host)} {host₁ host₂ : Host} {d₂ : Daemon}
    (hreceived : Run (step p) (start p host files cfg₀ cfgPath privileges)
      (before ++ copy cfg host₁ :: between) d₂)
    (haccepts : d₂.Accepts p host₂ cfg) :
    Agree ((before ++ copy cfg host₁ :: between ++ copy cfg host₂ :: after).foldlM (step p)
        (start p host files cfg₀ cfgPath privileges))
      ((before ++ between ++ copy cfg host₂ :: after).foldlM (step p)
        (start p host files cfg₀ cfgPath privileges)) ↔
      NoOverflow p (start p host files cfg₀ cfgPath privileges)
        (before ++ copy cfg host₁ :: between ++ copy cfg host₂ :: after) ∧
      NoOverflow p (start p host files cfg₀ cfgPath privileges)
        (before ++ between ++ copy cfg host₂ :: after) := by
  have hstart : (start p host files cfg₀ cfgPath privileges).Consistent := .start _ _ _ _
  have hopen := open_of_run hreceived
  have hcopy : ∀ host', ¬Closing (copy cfg host') := fun _ h => by rcases h with h | h <;> cases h
  constructor
  · intro hagree
    obtain ⟨hboth, honly⟩ := ne_panicked_of_agree hagree
    exact ⟨(ne_panicked_iff hstart).mp hboth, (ne_panicked_iff hstart).mp honly⟩
  · rintro ⟨hboth, honly⟩
    rcases outcome_cases ((ne_panicked_iff hstart).mpr hboth) with
      ⟨⟨d, hrun⟩, hgoing⟩ | ⟨hstopped, input, hmem, hclosing⟩
    · rcases outcome_cases ((ne_panicked_iff hstart).mpr honly) with
        ⟨⟨d', hrun'⟩, -⟩ | ⟨-, input, hmem, hclosing⟩
      · rw [run_iff_foldlM.mp hrun, run_iff_foldlM.mp hrun']
        obtain ⟨s, hs, hafter⟩ := run_append_iff.mp hrun
        obtain ⟨s', hs', hafter'⟩ := run_append_iff.mp hrun'
        cases run_unique hreceived hs
        refine sameConfig_of_copy ?_ haccepts hafter hafter'
        rw [cfgPath_of_run hreceived, cfgPath_of_run hs']
      · refine absurd hclosing (hgoing input ?_)
        simp only [List.mem_append, List.mem_cons] at hmem ⊢
        tauto
    · rcases outcome_cases ((ne_panicked_iff hstart).mpr honly) with
        ⟨-, hgoing⟩ | ⟨hstopped', -⟩
      · refine absurd hclosing (hgoing input ?_)
        rcases List.mem_append.mp hmem with hmem | hmem
        · exact absurd hclosing (hopen input hmem)
        · exact List.mem_append_right _ hmem
      · rw [hstopped, hstopped']
        trivial

/-- Whatever its calls are answered, a use of the client puts its request on the wire once, or twice if
it is safe to replay, and the second time over a fresh connection after the first attempt has failed. Of
a `SetConfig` the machine keeps what it would keep of the second copy alone, if and only if no deadline
overflows. -/
theorem replayed_setConfig_agrees_iff {files : FileSystem} {cfg₀ cfg : Config} {cfgPath : PathBuf}
    {privileges : Privileges} {before between after : List (Wake × Host)} {host₁ host₂ : Host}
    {d₂ : Daemon}
    (hreceived : Run (step p) (start p host files cfg₀ cfgPath privileges)
      (before ++ copy cfg host₁ :: between) d₂)
    (haccepts : d₂.Accepts p host₂ cfg) :
    (∀ (client : Client) (debug : Response → String) (req : Request)
        (answers : List ((k : Client.Call) → Client.Answer k))
        (c : Client.History × Prog Client.Call Client.Answer (Except Client.Chain Client.Content)),
      Run (Calls.step (anything Client.History.note)) ([], client.perform debug (.request req)) answers
        c → Client.Prudent client req c.1) ∧
    (Agree ((before ++ copy cfg host₁ :: between ++ copy cfg host₂ :: after).foldlM (step p)
        (start p host files cfg₀ cfgPath privileges))
      ((before ++ between ++ copy cfg host₂ :: after).foldlM (step p)
        (start p host files cfg₀ cfgPath privileges)) ↔
      NoOverflow p (start p host files cfg₀ cfgPath privileges)
        (before ++ copy cfg host₁ :: between ++ copy cfg host₂ :: after) ∧
      NoOverflow p (start p host files cfg₀ cfgPath privileges)
        (before ++ between ++ copy cfg host₂ :: after)) :=
  ⟨fun _ _ _ _ _ hrun => Client.prudent_of_run hrun, agree_iff hreceived haccepts⟩

/-- Another client arms the guard. -/
def armedByAnother : Wake × Host := (.control .arm, Bench.host "c1")

/-- The guard is armed between two copies of a configuration without delays. -/
theorem replayed_setConfig_agrees_iff_prompt :
    Agree (([] ++ copy Bench.prompt (Bench.host "c1") :: [armedByAnother] ++
        copy Bench.prompt (Bench.host "c1") :: []).foldlM (step Bench.platform)
        (Bench.boot .default "c1"))
      (([] ++ [armedByAnother] ++ copy Bench.prompt (Bench.host "c1") :: []).foldlM
        (step Bench.platform) (Bench.boot .default "c1")) ↔
      NoOverflow Bench.platform (Bench.boot .default "c1")
        ([] ++ copy Bench.prompt (Bench.host "c1") :: [armedByAnother] ++
          copy Bench.prompt (Bench.host "c1") :: []) ∧
      NoOverflow Bench.platform (Bench.boot .default "c1")
        ([] ++ [armedByAnother] ++ copy Bench.prompt (Bench.host "c1") :: []) := by
  obtain ⟨d₂, hreceived, haccepts⟩ : ∃ d₂, Run (step Bench.platform) (Bench.boot .default "c1")
      ([] ++ copy Bench.prompt (Bench.host "c1") :: [armedByAnother]) d₂ ∧
      (d₂.applyConfig Bench.platform (Bench.host "c1") Bench.prompt).1 = .ok :=
    ⟨_, run_get (by decide +kernel), by decide +kernel⟩
  exact (replayed_setConfig_agrees_iff hreceived haccepts).2

/-- A client sends a configuration whose countdown cannot be added to the clock, another client arms the
guard, and the first replays its request. Then there is an activity, and another configuration. With the
first copy there is no grace period, so that the activity ends the machine; without it the activity is
ignored, and the other configuration is installed. -/
theorem first_copy_matters :
    ¬∀ (p : Platform) (host host₁ host₂ : Host) (files : FileSystem) (cfg₀ cfg : Config)
        (cfgPath : PathBuf) (privileges : Privileges) (before between after : List (Wake × Host))
        (d₁ d₂ : Daemon),
      Run (step p) (start p host files cfg₀ cfgPath privileges) before d₁ →
      d₁.Accepts p host₁ cfg →
      Run (step p) (start p host files cfg₀ cfgPath privileges) (before ++ copy cfg host₁ :: between)
        d₂ → d₂.Accepts p host₂ cfg →
      Agree ((before ++ copy cfg host₁ :: between ++ copy cfg host₂ :: after).foldlM (step p)
          (start p host files cfg₀ cfgPath privileges))
        ((before ++ between ++ copy cfg host₂ :: after).foldlM (step p)
          (start p host files cfg₀ cfgPath privileges)) := by
  intro h
  have haccepts₁ : ((Bench.boot .default "c1").applyConfig Bench.platform (Bench.host "c1") Bench.endless).1 =
      .ok := by decide +kernel
  obtain ⟨d₂, hsecond, haccepts₂⟩ : ∃ d₂, Run (step Bench.platform) (Bench.boot .default "c1")
      ([] ++ copy Bench.endless (Bench.host "c1") :: [armedByAnother]) d₂ ∧
      (d₂.applyConfig Bench.platform (Bench.host "c1") Bench.endless).1 = .ok :=
    ⟨_, run_get (by decide +kernel), by decide +kernel⟩
  have hagree := isSome_of_agree (h Bench.platform (Bench.host "c1") (Bench.host "c1")
    (Bench.host "c1") ⟨fun _ => none⟩ .default Bench.endless ⟨"/etc/alertu/config.toml"⟩ ⟨none⟩
    [] [armedByAnother] [(.input (.activity "AT Keyboard"), Bench.host "c1"),
      copy Bench.prompt (Bench.host "c1")] _ d₂ .nil haccepts₁ hsecond haccepts₂)
  exact absurd hagree (by decide +kernel)

end Daemon

end AlertU
