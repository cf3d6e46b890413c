import AlertU.Bench
import AlertU.MachineStep
import AlertU.Runs

/-! The two copies of the configuration. `Persisted` says that the file holds what is in memory; a
`SetConfig` replaces both or neither, so a restart in any state resumes under the configuration that
the clients were told is in force. -/

open FilePath Runs

namespace AlertU

/-- The file at `path` is one that a start-up would load as `cfg`. -/
def Config.Loads (toml : Toml) (fs : FileSystem) (path : PathBuf) (cfg : Config) : Prop :=
  ∀ disk : Disk, disk.readFault = none → load toml disk fs path = .ok cfg

namespace Config

variable {toml : Toml} {disk : Disk} {fs fs' : FileSystem} {path : PathBuf} {cfg cfg' : Config}

theorem load_congr (hlookup : fs'.lookup path = fs.lookup path) :
    load toml disk fs' path = load toml disk fs path := by
  unfold load FileSystem.readToString
  rw [hlookup]

theorem Loads.congr (h : cfg.Loads toml fs path) (hlookup : fs'.lookup path = fs.lookup path) :
    cfg.Loads toml fs' path := fun disk hdisk => by
  rw [load_congr hlookup]
  exact h disk hdisk

/-- What a start-up has loaded, a later one would load again. -/
theorem loads_of_load (h : load toml disk fs path = .ok cfg) : cfg.Loads toml fs path := by
  intro disk' hdisk'
  unfold load FileSystem.readToString at h ⊢
  rw [hdisk']
  cases hfault : disk.readFault with
  | some error =>
      rw [hfault] at h
      cases h
  | none =>
      rw [hfault] at h
      exact h

theorem loads_of_save (h : cfg.save toml disk fs path = (.ok (), fs')) :
    cfg.Loads toml fs' path := by
  obtain ⟨text, htext, hlookup⟩ := lookup_of_save_ok h
  intro disk' hdisk'
  unfold load FileSystem.readToString
  rw [hdisk', hlookup]
  simp only [toml.round_trip cfg text htext]

end Config

namespace Daemon

variable {p : Platform} {host : Host} {d d' : Daemon} {wake : Wake}

/-- The configuration in memory is valid, and the file holds it. -/
structure Persisted (p : Platform) (cfgPath : PathBuf) (d : Daemon) : Prop where
  path : d.cfgPath = cfgPath
  valid : d.cfg.validate = .ok ()
  file : d.cfg.Loads p.toml d.files cfgPath

namespace Persisted

variable {cfgPath : PathBuf}

theorem congr (h : Persisted p cfgPath d) (hpath : d'.cfgPath = d.cfgPath) (hcfg : d'.cfg = d.cfg)
    (hfile : d'.files.lookup cfgPath = d.files.lookup cfgPath) : Persisted p cfgPath d' := by
  refine ⟨hpath.trans h.path, by rw [hcfg, h.valid], ?_⟩
  rw [hcfg]
  exact h.file.congr hfile

theorem main {files : FileSystem} {privileges : Privileges}
    (hboot : Daemon.main p host files cfgPath privileges = .ok d) : Persisted p cfgPath d := by
  obtain ⟨cfg, hload, hvalid, rfl⟩ := main_ok_iff.mp hboot
  exact ⟨rfl, hvalid, Config.loads_of_load hload⟩

/-- A configuration that is rejected leaves the file as it was. -/
theorem lookup_of_rejected (h : d.cfgPath = cfgPath) {cfg : Config} {message : String}
    {files : FileSystem} (hwhy : (cfg.validate = .error message ∧ files = d.files) ∨
      (cfg.validate = .ok () ∧
        cfg.save p.toml host.disk d.files d.cfgPath = (.error message, files))) :
    files.lookup cfgPath = d.files.lookup cfgPath := by
  rcases hwhy with ⟨-, rfl⟩ | ⟨-, hsave⟩
  · rfl
  · rw [← h]
    exact Config.lookup_of_save_error hsave

theorem step (h : Persisted p cfgPath d) (hstep : StepResult p host d wake d') :
    Persisted p cfgPath d' := by
  cases hstep with
  | skipped _ _ _ => exact h
  | ignored _ _ _ _ _ => exact h.congr rfl rfl rfl
  | inGrace _ _ _ _ _ _ => exact h.congr rfl rfl rfl
  | armed _ _ _ _ _ _ _ => exact h.congr rfl rfl rfl
  | disarmed _ _ _ _ _ => exact h.congr rfl rfl rfl
  | intruded _ d₁ _ _ _ hgrace _ => cases hgrace <;> exact h.congr rfl rfl rfl
  | ticked _ _ => exact h.congr rfl rfl rfl
  | sounded _ _ _ _ => exact h.congr rfl rfl rfl
  | rescanned => exact h.congr rfl rfl rfl
  | rejected cfg message files hwhy => exact h.congr rfl rfl (lookup_of_rejected h.path hwhy)
  | installed cfg files hvalid hsaved =>
      rw [h.path] at hsaved
      exact ⟨h.path, hvalid, Config.loads_of_save hsaved⟩
  | replied => exact h.congr rfl rfl rfl
  | learned _ _ _ => exact h.congr rfl rfl rfl
  | refused _ _ _ => exact h.congr rfl rfl rfl
  | tested => exact h.congr rfl rfl rfl

end Persisted

/-- What a `SetConfig` does: it answers `ok` if and only if it has saved and installed the submitted
configuration, and after an error the machine and the file are what they were. -/
structure Replaces (p : Platform) (cfgPath : PathBuf) (d : Daemon) (cfg : Config) (d' : Daemon)
    (reply : Reply) : Prop where
  answered : d'.log.getLast? = some (.replySet reply)
  replaced : reply = .ok ↔
    ∃ segment, d'.log = d.log ++ segment ∧ .saved cfg ∈ segment ∧ .installed cfg ∈ segment
  ok : reply = .ok → d'.cfg = cfg ∧ cfg.Loads p.toml d'.files cfgPath
  error : reply ≠ .ok → d'.toMachine = d.toMachine ∧
    d'.files.lookup cfgPath = d.files.lookup cfgPath

theorem setConfig_replaces {cfgPath : PathBuf} (hpath : d.cfgPath = cfgPath) (cfg : Config)
    (host : Host) : ∃ d' reply, step p d (.control (.setConfig cfg), host) = .ok d' ∧
      Replaces p cfgPath d cfg d' reply := by
  have hrejected (message : String) (files : FileSystem)
      (hfile : files.lookup cfgPath = d.files.lookup cfgPath) :
      Replaces p cfgPath d cfg (d.rejecting message files) (.error message) := by
    refine ⟨by simp [rejecting], ⟨nofun, ?_⟩, nofun, fun _ => ⟨rfl, hfile⟩⟩
    rintro ⟨segment, hlog, hsaved, -⟩
    rw [← List.append_cancel_left hlog, List.mem_singleton] at hsaved
    cases hsaved
  show ∃ d' reply, d.onControl p host (.setConfig cfg) = .ok d' ∧ _
  rw [setConfig_eq]
  cases hvalid : cfg.validate with
  | error message => exact ⟨_, _, rfl, hrejected message d.files rfl⟩
  | ok _ =>
      rcases hsave : cfg.save p.toml host.disk d.files d.cfgPath with ⟨saved, files⟩
      cases saved with
      | error message =>
          exact ⟨_, _, rfl, hrejected message files
            (Persisted.lookup_of_rejected hpath (.inr ⟨hvalid, hsave⟩))⟩
      | ok _ =>
          rw [hpath] at hsave
          refine ⟨_, .ok, rfl, by simp [installing], ⟨fun _ => ⟨_, rfl, by simp, by simp⟩, fun _ => rfl⟩,
            fun _ => ⟨rfl, Config.loads_of_save hsave⟩, fun hne => absurd rfl hne⟩

/-- From any start-up, after any messages: the configuration in memory is valid and the file holds
it, and every `SetConfig` from there replaces both or neither. -/
theorem config_in_memory_and_file_agree {d₀ : Daemon} {files : FileSystem} {cfgPath : PathBuf}
    {privileges : Privileges} {inputs : List (Wake × Host)}
    (hboot : main p host files cfgPath privileges = .ok d₀) (hrun : Run (step p) d₀ inputs d) :
    (d.cfg.validate = .ok () ∧ d.cfg.Loads p.toml d.files cfgPath) ∧
      ∀ cfg host, ∃ d' reply, step p d (.control (.setConfig cfg), host) = .ok d' ∧
        Replaces p cfgPath d cfg d' reply := by
  have h : Persisted p cfgPath d := hrun.invariant (Persisted.main hboot)
    fun _ _ _ h _ hnext => h.step (step_cases hnext)
  exact ⟨⟨h.valid, h.file⟩, fun cfg host => setConfig_replaces h.path cfg host⟩

theorem config_in_memory_and_file_agree_prompt :
    ∃ d : Daemon, d.cfg = Bench.prompt ∧ d.state = .armed ∧
      d.cfg.Loads Bench.platform.toml d.files ⟨"/etc/alertu/config.toml"⟩ ∧
      ∃ d' reply, step Bench.platform d (.control (.setConfig Bench.shutter), Bench.host "c1") =
        .ok d' ∧ Replaces Bench.platform ⟨"/etc/alertu/config.toml"⟩ d Bench.shutter d' reply := by
  obtain ⟨d₀, hboot, d, hrun, hcfg, hstate⟩ : ∃ d₀, main Bench.platform (Bench.host "c1")
      ⟨fun _ => none⟩ ⟨"/etc/alertu/config.toml"⟩ ⟨none⟩ = .ok d₀ ∧
      ∃ d, Run (step Bench.platform) d₀ [(.control (.setConfig Bench.prompt), Bench.host "c1"),
        (.control .arm, Bench.host "c1")] d ∧ d.cfg = Bench.prompt ∧ d.state = .armed :=
    ⟨_, eq_ok_get (by decide +kernel), _, run_get (by decide +kernel), by decide +kernel,
      by decide +kernel⟩
  have h := config_in_memory_and_file_agree hboot hrun
  exact ⟨d, hcfg, hstate, h.1.2, h.2 _ _⟩

end Daemon

end AlertU
