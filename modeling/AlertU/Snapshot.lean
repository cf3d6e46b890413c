import AlertU.Perms
import AlertU.Text

/-! Webcam capture: the directory is prepared, a tool writes the still into it under its own umask, and
the still is given its mode and its group afterwards. -/

open FilePath Calls Posix Calendar

namespace AlertU.Snapshot

open Procedure Perms

/-- The name of a still that is captured at a local time. -/
def stillName (now : Tm) : List Char := "alertu-".toList ++ now.stamp ++ ".jpg".toList

def outPath (cfg : Config) (now : Tm) : PathBuf := cfg.snapshotDir.join ⟨String.ofList (stillName now)⟩

/-- `Command::output`: the tool is started, creates its output file if it gets so far, and ends. -/
def output (prog : String) (args : List String) (out : PathBuf) : Procedure (Bool × String) := do
  ask "running capture tool" (.perform (Call.spawn prog args))
  let _ ← tell (.perform (Call.create out))
  ask "running capture tool" (.perform Call.wait)

/-- Run `fswebcam`, or else `ffmpeg`. -/
def runCaptureTool (cfg : Config) (out : PathBuf) : Procedure (Bool × String) := do
  let fswebcam ← tell (.perform (Call.which "fswebcam"))
  if fswebcam then
    output "fswebcam" ["-d", cfg.cameraDevice, "-r", "1280x720", "--no-banner", out.raw] out
  else do
    let ffmpeg ← tell (.perform (Call.which "ffmpeg"))
    if ffmpeg then
      output "ffmpeg" ["-y", "-f", "v4l2", "-i", cfg.cameraDevice, "-frames:v", "1", out.raw] out
    else throw (.message "no capture tool found (install fswebcam or ffmpeg)")

/-- Apply the snapshot boundary to a freshly captured file. -/
def secureCapturedFile (out : PathBuf) (privileges : Privileges) : Procedure Unit := do
  chmod out 0o640
  applyGroup out privileges

/-- Capture a single still, named with a timestamp, and return its path. -/
def capture (cfg : Config) (privileges : Privileges) : Procedure PathBuf := do
  let _ ← withContext s!"preparing snapshot dir {cfg.snapshotDir.raw}"
    (secureDir cfg.snapshotDir privileges)
  let now ← tell (.perform Call.localTime)
  let out := outPath cfg now
  let result ← runCaptureTool cfg out
  if result.1 then do
    withContext s!"securing snapshot {out.raw}" (secureCapturedFile out privileges)
    pure out
  else
    throw (.message s!"capture failed: {String.ofList (Text.trim result.2.toList)}")

/-! ### Traces -/

/-- What a capture has read from the clock and which files it has written. -/
structure Trace where
  clock : Option Tm
  written : List PathBuf

def Trace.note (t : Trace) : (k : Call) → Answer k → Trace
  | .localTime, now => { t with clock := some now }
  | .create path, .ok () => { t with written := t.written ++ [path] }
  | _, _ => t

/-- Calls that a trace does not note. -/
def Unnoted (k : Call) : Prop := ∀ (t : Trace) r, t.note k r = t

theorem unnoted_secureDir (dir : PathBuf) (privileges : Privileges) :
    Prog.Only Unnoted (secureDir dir privileges) := by
  refine (only_secureDir dir privileges).mono fun k hk => ?_
  cases hk <;> exact fun _ _ => rfl

theorem unnoted_secureCapturedFile (out : PathBuf) (privileges : Privileges) :
    Prog.Only Unnoted (secureCapturedFile out privileges) :=
  Fallible.only_andThen (only_chmod fun _ _ => rfl) fun _ => only_applyGroup fun _ _ _ => rfl

theorem unnoted_spawn (prog : String) (args : List String) :
    Prog.Only Unnoted (ask "running capture tool" (.perform (Call.spawn prog args))) :=
  only_ask (Prog.only_perform fun _ _ => rfl)

theorem unnoted_wait : Prog.Only Unnoted (ask "running capture tool" (.perform Call.wait)) :=
  only_ask (Prog.only_perform fun _ _ => rfl)

/-! ### Where the stills go -/

theorem isName_stillName (now : Tm) : PathBuf.isName (stillName now) := by
  have hlength : (stillName now).length = ("alertu-".toList ++ now.stamp).length + 4 :=
    List.length_append
  have hne : ∀ segment : List Char, segment.length ≤ 2 → stillName now ≠ segment := by
    rintro segment hsegment hname
    rw [hname] at hlength
    generalize ("alertu-".toList ++ now.stamp).length = n at hlength
    omega
  simp only [PathBuf.isName, Bool.and_eq_true, decide_eq_true_eq]
  exact ⟨⟨hne [] (by simp), hne ['.'] (by simp)⟩, hne ['.', '.'] (by simp)⟩

theorem notMem_stillName (now : Tm) : '/' ∉ stillName now := by
  intro h
  rcases List.mem_append.mp h with h | h
  · rcases List.mem_append.mp h with h | h
    · revert h
      decide
    · rcases Tm.mem_stamp h with h | h | h <;> cases h
  · revert h
    decide

/-- A still is an entry of the snapshot directory. -/
theorem components_outPath (cfg : Config) (now : Tm) :
    (outPath cfg now).components = cfg.snapshotDir.components ++ [.normal (stillName now)] := by
  have htext : (⟨String.ofList (stillName now)⟩ : PathBuf).raw.toList = stillName now :=
    String.toList_ofList
  have h := components_join (p := cfg.snapshotDir) (q := ⟨String.ofList (stillName now)⟩)
    (by rw [htext]; exact isName_stillName now) (by rw [htext]; exact notMem_stillName now)
  rwa [htext] at h

theorem stillName_injective : Function.Injective stillName := by
  intro t u h
  exact Tm.stamp_injective (List.append_cancel_left (List.append_cancel_right h))

/-- Two stills have one path exactly if they are of one directory and of one civil second. -/
theorem outPath_same_iff {cfg cfg' : Config} {now now' : Tm} :
    (outPath cfg now).same (outPath cfg' now') ↔ cfg.snapshotDir.same cfg'.snapshotDir ∧ now = now' := by
  simp only [PathBuf.same, beq_iff_eq, components_outPath]
  constructor
  · intro h
    obtain ⟨hdir, hname⟩ := List.append_inj' h rfl
    simp only [List.cons.injEq, Component.normal.injEq, and_true] at hname
    exact ⟨hdir, stillName_injective hname⟩
  · rintro ⟨hdir, rfl⟩
    rw [hdir]

end AlertU.Snapshot
