import AlertU.Arguments
import AlertU.ConfigPersist
import AlertU.SocketBind

/-! The start of the daemon: the command line, the group of the socket, the configuration, and the socket.
All that can be wrong with what the daemon has been told is found before it touches the system. -/

open FilePath Calls Posix Runs

namespace AlertU.Startup

open Procedure SocketBind

def ESRCH : Errno := ⟨3⟩
def EBADF : Errno := ⟨9⟩

def NUL : Char := Char.ofNat 0

/-- The answer of `getgrnam_r`: a group, no group, or an error number. -/
inductive GroupEntry where
  | found (gid : ℕ)
  | missing
  | failed (errno : Errno)
  deriving DecidableEq, Repr

/-- The group database, and how a name is printed in quotes. -/
structure Groups where
  getgrnam : String → GroupEntry
  debug : String → String

/-- Resolve a group name to its gid. -/
def resolveGid (groups : Groups) (name : String) : Except Failure ℕ :=
  if NUL ∈ name.toList then
    .error (.context s!"group name {groups.debug name} contains a NUL byte"
      (.message ("nul byte found in provided data at position: " ++
        toString (String.ofList (name.toList.takeWhile (· ≠ NUL))).utf8ByteSize)))
  else
    match groups.getgrnam name with
    | .found gid => .ok gid
    | .missing => .error (.message s!"no such group: {name}")
    -- some databases report a missing group as an error
    | .failed errno =>
        if errno = ENOENT ∨ errno = ESRCH ∨ errno = EBADF ∨ errno = EPERM then
          .error (.message s!"no such group: {name}")
        else .error (.context s!"looking up group {name}" (.io errno))

def resolvePrivileges (groups : Groups) : Option String → Except Failure Privileges
  | some name => ((resolveGid groups name).map fun gid => ⟨some gid⟩).mapError
      (.context s!"resolving --socket-group {name}")
  | none => .ok ⟨none⟩

/-- How a start ends: with the help text, with an error, or with a daemon that listens. -/
inductive Outcome where
  | help (text : String)
  | failed (error : Failure)
  | serving (daemon : Daemon) (listener : ℕ)

namespace Outcome

def listener? : Outcome → Option ℕ
  | .serving _ listener => some listener
  | _ => none

end Outcome

variable (p : Platform) (host : Host) (files : FileSystem) (groups : Groups) (defaultPath : PathBuf)

/-- `main` before it binds the socket. -/
def prepare (args : List String) : Except Outcome (Args × Privileges × Daemon) :=
  match Args.parseArgs defaultPath args with
  | .error (.help text) => .error (.help text)
  | .error (.failed message) =>
      .error (.failed (.context "parsing command-line arguments" (.message message)))
  | .ok opts =>
      match resolvePrivileges groups opts.socketGroup with
      | .error error => .error (.failed error)
      | .ok privileges =>
          match Config.load p.toml host.disk files opts.config with
          | .error message =>
              .error (.failed (.context s!"loading config {opts.config.raw}" (.message message)))
          | .ok cfg =>
              match cfg.validate with
              | .error message => .error (.failed (.context "validating config" (.message message)))
              | .ok () => .ok (opts, privileges, Daemon.start p host files cfg opts.config privileges)

/-- `main` until it waits for a signal. The machine has been spawned when the socket is bound. -/
def main (args : List String) : Prog Call Answer Outcome :=
  match prepare p host files groups defaultPath args with
  | .error outcome => .ret outcome
  | .ok (opts, privileges, daemon) =>
      Prog.bind (withContext s!"binding the control socket {opts.socket.raw}" (bind opts.socket privileges))
        fun r => .ret (match r with
          | .ok listener => .serving daemon listener
          | .error error => .failed error)

/-! ### What the daemon has been told -/

/-- The arguments are well formed, the group exists, and the configuration can be loaded and is valid. -/
structure Prepared (args : List String) (opts : Args) (privileges : Privileges) (daemon : Daemon) : Prop where
  parsed : Args.parseArgs defaultPath args = .ok opts
  group : ∀ name, opts.socketGroup = some name → NUL ∉ name.toList ∧
    ∃ gid, groups.getgrnam name = .found gid ∧ privileges = ⟨some gid⟩
  ungrouped : opts.socketGroup = none → privileges = ⟨none⟩
  started : Daemon.main p host files opts.config privileges = .ok daemon

variable {p host files groups defaultPath} {args : List String} {opts : Args} {privileges : Privileges}
  {daemon : Daemon}

theorem resolveGid_iff {name : String} {gid : ℕ} : resolveGid groups name = .ok gid ↔
    NUL ∉ name.toList ∧ groups.getgrnam name = .found gid := by
  unfold resolveGid
  by_cases hnul : NUL ∈ name.toList
  · rw [if_pos hnul]
    exact iff_of_false (fun h => by cases h) fun h => h.1 hnul
  · rw [if_neg hnul]
    cases groups.getgrnam name with
    | found gid' => simp [hnul]
    | missing => simp
    | failed errno =>
        dsimp only
        split_ifs <;> simp

theorem resolvePrivileges_iff {group : Option String} :
    resolvePrivileges groups group = .ok privileges ↔
      (∀ name, group = some name → NUL ∉ name.toList ∧
        ∃ gid, groups.getgrnam name = .found gid ∧ privileges = ⟨some gid⟩) ∧
      (group = none → privileges = ⟨none⟩) := by
  cases group with
  | none => simp [resolvePrivileges, eq_comm]
  | some name =>
      simp only [resolvePrivileges]
      cases hresolve : resolveGid groups name with
      | error error =>
          refine iff_of_false (fun h => by cases h) fun h => ?_
          obtain ⟨hnul, gid, hfound, -⟩ := h.1 name rfl
          exact absurd (hresolve.symm.trans (resolveGid_iff.mpr ⟨hnul, hfound⟩)) fun h => by cases h
      | ok gid =>
          obtain ⟨hnul, hfound⟩ := resolveGid_iff.mp hresolve
          simp [Except.map, Except.mapError, hnul, hfound, eq_comm]

theorem prepare_iff : prepare p host files groups defaultPath args = .ok (opts, privileges, daemon) ↔
    Prepared p host files groups defaultPath args opts privileges daemon := by
  unfold prepare
  constructor
  · intro h
    split at h
    · cases h
    · cases h
    · rename_i hparsed
      split at h
      · cases h
      · rename_i hgroup
        split at h
        · cases h
        · rename_i hload
          split at h
          · cases h
          · rename_i hvalid
            cases h
            obtain ⟨hfound, hnone⟩ := resolvePrivileges_iff.mp hgroup
            exact ⟨hparsed, hfound, hnone, Daemon.main_ok_iff.mpr ⟨_, hload, hvalid, rfl⟩⟩
  · intro h
    obtain ⟨cfg, hload, hvalid, rfl⟩ := Daemon.main_ok_iff.mp h.started
    simp only [h.parsed, resolvePrivileges_iff.mpr ⟨h.group, h.ungrouped⟩, hload, hvalid]

/-- What stops `main` before the socket is no daemon. -/
theorem not_serving_of_prepare {outcome : Outcome}
    (h : prepare p host files groups defaultPath args = .error outcome) : outcome.listener? = none := by
  unfold prepare at h
  split at h
  · cases h
    rfl
  · cases h
    rfl
  · split at h
    · cases h
      rfl
    · split at h
      · cases h
        rfl
      · split at h
        · cases h
          rfl
        · cases h

/-! ### The start as a whole -/

variable {proc : Process} {s s' : Kernel} {parent : PathBuf}

theorem main_of_prepared (h : Prepared p host files groups defaultPath args opts privileges daemon) :
    main p host files groups defaultPath args =
      Prog.bind (withContext s!"binding the control socket {opts.socket.raw}" (bind opts.socket privileges))
        fun r => .ret (match r with
          | .ok listener => .serving daemon listener
          | .error error => .failed error) := by
  rw [main, prepare_iff.mpr h]

/-- Only the daemon that has been prepared serves. -/
theorem main_yields (h : Prepared p host files groups defaultPath args opts privileges daemon) :
    Prog.Yields (fun outcome => ∀ daemon' listener, outcome = .serving daemon' listener → daemon' = daemon)
      (main p host files groups defaultPath args) := by
  rw [main_of_prepared h]
  refine Prog.yields_bind fun r => ?_
  cases r with
  | ok listener =>
      intro daemon' listener' houtcome
      cases houtcome
      rfl
  | error error =>
      intro daemon' listener houtcome
      cases houtcome

theorem always_main (hnumbered : Numbered s)
    (h : Prepared p host files groups defaultPath args opts privileges daemon)
    (hparent : opts.socket.parent = some parent) (hclaimed : Claimed proc s parent) :
    Always (exec proc) (Guarded proc privileges s opts.socket parent)
      (fun outcome s' =>
        (∀ daemon' listener, outcome = .serving daemon' listener →
          Final proc privileges s' opts.socket parent) ∧
        ∀ error, outcome = .failed error → s.listeners < s'.listeners → Narrow proc privileges s' parent)
      (main p host files groups defaultPath args) s := by
  rw [main_of_prepared h, Calls.always_bind, withContext, always_mapError]
  refine (SocketBind.always_bind hnumbered hparent hclaimed).post.mono (fun _ h => h) fun r s' hr => ?_
  obtain ⟨hguarded, houtcome⟩ := hr
  cases r with
  | ok listener => exact ⟨hguarded, fun _ _ _ => houtcome, fun _ h => by cases h⟩
  | error error => exact ⟨hguarded, fun _ _ h => (by cases h), fun _ _ hlt => (houtcome hlt).1⟩

/-- Unless the arguments are well formed, the group exists and the configuration is valid, the daemon ends
before it has touched the system. Otherwise the daemon that serves is the one with that configuration, and a
user other than root and the daemon's own reaches its socket only as a member of the group that was asked
for, between any two calls and whichever of them fail. -/
theorem daemon_starts_as_asked (hnumbered : Numbered s) {inputs : List Env}
    {c : Kernel × Prog Call Answer Outcome}
    (hrun : Run (step (exec proc)) (s, main p host files groups defaultPath args) inputs c) :
    ((¬∃ opts privileges daemon, Prepared p host files groups defaultPath args opts privileges daemon) →
      c.1 = s ∧ ∃ outcome, c.2 = .ret outcome ∧ outcome.listener? = none) ∧
    ∀ opts privileges daemon, Prepared p host files groups defaultPath args opts privileges daemon →
      (∀ daemon' listener, c.2 = .ret (.serving daemon' listener) → daemon' = daemon) ∧
      ∀ parent, opts.socket.parent = some parent → Claimed proc s parent →
        (Fresh s c.1 opts.socket → ∀ who : User, who.uid ≠ 0 → who.uid ≠ proc.euid →
          Reaches c.1 parent opts.socket who →
          ∃ socket, c.1.node opts.socket = some socket ∧ socket.gid ∈ who.groups ∧
            ∀ name, opts.socketGroup = some name → groups.getgrnam name = .found socket.gid) ∧
        (∀ daemon' listener, c.2 = .ret (.serving daemon' listener) →
          Final proc privileges c.1 opts.socket parent) ∧
        ∀ error, c.2 = .ret (.failed error) → s.listeners < c.1.listeners →
          Narrow proc privileges c.1 parent := by
  constructor
  · intro hunprepared
    cases hprepare : prepare p host files groups defaultPath args with
    | ok prepared => exact absurd ⟨_, _, _, prepare_iff.mp hprepare⟩ hunprepared
    | error outcome =>
        rw [main, hprepare] at hrun
        cases inputs with
        | nil =>
            cases run_iff_foldlM.mp hrun
            exact ⟨rfl, outcome, rfl, not_serving_of_prepare hprepare⟩
        | cons input inputs =>
            obtain ⟨next, hnext, -⟩ := run_cons_iff.mp hrun
            cases hnext
  · intro opts privileges daemon hprepared
    refine ⟨fun daemon' listener hret => ?_, fun parent hparent hclaimed => ?_⟩
    · exact (always_iff_run.mp (.of_yields (main_yields hprepared)) inputs c hrun).2 _ hret _ _ rfl
    · obtain ⟨hguarded, houtcome⟩ :=
        always_iff_run.mp (always_main hnumbered hprepared hparent hclaimed) inputs c hrun
      refine ⟨fun hfresh who hroot hother hreaches => ?_, fun daemon' listener hret => ?_, fun error hret => ?_⟩
      · obtain ⟨dir, socket, -, hsocket, -, hmember, hgroup⟩ :=
          hguarded.member_of_reaches hfresh hroot hother hreaches
        refine ⟨socket, hsocket, hmember, fun name hname => ?_⟩
        obtain ⟨-, gid, hfound, rfl⟩ := hprepared.group name hname
        rw [(hgroup gid rfl).2, hfound]
      · exact (houtcome _ hret).1 _ _ rfl
      · exact (houtcome _ hret).2 _ rfl

section Bench

def groupFile : Groups := ⟨fun name => if name = "alertu" then .found 7 else .missing, fun name => name⟩

def bootHost : Host := Bench.host "2"

/-- The group is there, and there is no configuration yet. -/
theorem daemon_starts_as_asked_for_group : ∃ c : Kernel × Prog Call Answer Outcome,
    Run (step (exec looseDaemon))
      (emptyKernel, main Bench.platform bootHost ⟨fun _ => none⟩ groupFile ⟨"/etc/alertu/config.toml"⟩
        ["--socket-group", "alertu"]) (List.replicate 10 granted) c ∧
    Final looseDaemon ⟨some 7⟩ c.1 ⟨"/run/alertu/alertu.sock"⟩ ⟨"/run/alertu"⟩ := by
  obtain ⟨c, hrun, hserves⟩ : ∃ c : Kernel × Prog Call Answer Outcome,
      Run (step (exec looseDaemon))
        (emptyKernel, main Bench.platform bootHost ⟨fun _ => none⟩ groupFile ⟨"/etc/alertu/config.toml"⟩
          ["--socket-group", "alertu"]) (List.replicate 10 granted) c ∧
        (c.2.result?.bind Outcome.listener?) = some 0 :=
    ⟨_, run_get (by decide +kernel), by decide +kernel⟩
  have hprepared : Prepared Bench.platform bootHost ⟨fun _ => none⟩ groupFile ⟨"/etc/alertu/config.toml"⟩
      ["--socket-group", "alertu"] ⟨⟨"/etc/alertu/config.toml"⟩, ⟨"/run/alertu/alertu.sock"⟩, some "alertu"⟩
      ⟨some 7⟩ (Daemon.start Bench.platform bootHost ⟨fun _ => none⟩ .default ⟨"/etc/alertu/config.toml"⟩
        ⟨some 7⟩) := by
    refine ⟨by decide +kernel, fun name hname => ?_, fun h => (by cases h), ?_⟩
    · cases hname
      exact ⟨by decide, 7, rfl, rfl⟩
    · exact Daemon.main_ok_iff.mpr ⟨.default, rfl, by decide +kernel, rfl⟩
  have hclaimed : Claimed looseDaemon emptyKernel ⟨"/run/alertu"⟩ :=
    ⟨by decide +kernel, fun _ h => by cases h⟩
  have hasked := (daemon_starts_as_asked (fun _ _ _ h => by cases h) hrun).2 _ _ _ hprepared
  obtain ⟨-, hfinal, -⟩ := hasked.2 ⟨"/run/alertu"⟩ (by decide +kernel) hclaimed
  obtain ⟨outcome, houtcome, hlistener⟩ := Option.bind_eq_some_iff.mp hserves
  cases outcome with
  | help text => cases hlistener
  | failed error => cases hlistener
  | serving daemon listener => exact ⟨c, hrun, hfinal daemon listener (Prog.eq_ret houtcome)⟩

end Bench

end AlertU.Startup
