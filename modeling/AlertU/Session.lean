import AlertU.Config

/-! logind session control: the session a configuration implies, the lock and unlock commands, and
the readings of the lock state. -/

open Text

namespace AlertU

/-- A finished helper process: its exit status and its output. -/
structure Output where
  success : Bool
  stdout : String
  deriving DecidableEq, Repr

/-- What `loginctl` answers while one message is handled; `none` where it cannot be run at all. -/
structure Loginctl where
  showSeat : Option Output
  listSessions : Option Output
  action : Option Output
  showSession : Option Output
  deriving DecidableEq, Repr

namespace Loginctl

/-- The active session on `seat0`, when `loginctl show-seat` reports one. -/
def activeSession (ctl : Loginctl) : Option String :=
  match ctl.showSeat with
  | some out =>
      let id := trim out.stdout.toList
      if out.success ∧ id ≠ [] then some (String.ofList id) else none
  | none => none

/-- The first session of `loginctl list-sessions`. -/
def firstListed (ctl : Loginctl) : Option String :=
  match ctl.listSessions with
  | some out =>
      if out.success then
        (firstLine out.stdout.toList).bind fun line => (firstWord line).map String.ofList
      else none
  | none => none

end Loginctl

/-- Resolve a concrete session id from config; the empty id when there is none. -/
def resolveSessionId (ctl : Loginctl) (cfg : Config) : String :=
  if !cfg.sessionIsAuto then cfg.sessionId
  else
    match ctl.activeSession with
    | some id => id
    | none =>
        match ctl.firstListed with
        | some id => id
        | none => ""

theorem resolveSessionId_of_activeSession {ctl : Loginctl} {cfg : Config} {id : String}
    (hauto : cfg.sessionIsAuto) (hid : ctl.activeSession = some id) :
    resolveSessionId ctl cfg = id := by
  simp [resolveSessionId, hauto, hid]

/-- How a lock or unlock command ended. -/
inductive CommandOutcome where
  | noSession
  | notRun
  | failed
  | succeeded
  deriving DecidableEq, Repr

/-- Controls a single logind session. -/
structure SessionCtl where
  id : String
  deriving DecidableEq, Repr

namespace SessionCtl

/-- `SessionCtl::new`. -/
def new (ctl : Loginctl) (cfg : Config) : SessionCtl := ⟨resolveSessionId ctl cfg⟩

/-- Re-point at the session implied by `cfg`. -/
def updateFrom (_session : SessionCtl) (ctl : Loginctl) (cfg : Config) : SessionCtl :=
  ⟨resolveSessionId ctl cfg⟩

/-- `SessionCtl::run`, the body of `lock` and `unlock`. -/
def run (session : SessionCtl) (ctl : Loginctl) : CommandOutcome :=
  if session.id = "" then .noSession
  else
    match ctl.action with
    | none => .notRun
    | some out => if out.success then .succeeded else .failed

/-- Query `LockedHint`; `none` if it could not be read. -/
def isLocked (session : SessionCtl) (ctl : Loginctl) : Option Bool :=
  if session.id = "" then none
  else
    match ctl.showSession with
    | none => none
    | some out =>
        if out.success then
          match String.ofList (trim out.stdout.toList) with
          | "yes" => some true
          | "no" => some false
          | _ => none
        else none

end SessionCtl

/-- One round of `monitor` after a reading: the state it keeps and the boolean it pushes. The first
observed value is not emitted. -/
def monitorStep (last reading : Option Bool) : Option Bool × Option Bool :=
  match reading with
  | none => (last, none)
  | some locked =>
      if last ≠ some locked then (some locked, if last.isSome then some locked else none)
      else (last, none)

end AlertU
