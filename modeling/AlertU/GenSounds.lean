import AlertU.FileTree
import AlertU.Perms

/-! `alertu-ctl gen-sounds`: the default sound files, written into a directory that is made readable for
everybody first. Without `--force` the command refuses to overwrite any of them. -/

open FilePath Calls FileTree
open Posix hiding Call Answer exec

namespace AlertU.GenSounds

/-- The directory and the files are readable for the account of the service. -/
def DIR_MODE : Mode := 0o755
def FILE_MODE : Mode := 0o644

/-- The contents of the three files: two recordings and a generated tick. -/
structure Sounds where
  beep : List UInt8
  warning : List UInt8
  siren : List UInt8

def files (sounds : Sounds) : List (PathBuf × List UInt8) :=
  [(⟨"beep.wav"⟩, sounds.beep), (⟨"warning.wav"⟩, sounds.warning), (⟨"siren.wav"⟩, sounds.siren)]

abbrev Command := Fallible Call Answer Failure

/-- A call that can fail, with the context of its error. -/
def ask (text : String) (p : Prog Call Answer (Except Errno Unit)) : Command Unit :=
  Fallible.mapError (.context text) (p.bind fun r => .ret (r.mapError .io))

def setMode (path : PathBuf) (mode : Mode) : Command Unit :=
  ask s!"setting mode on {path.raw}" (.perform (FileTree.Call.setPermissions path mode))

/-- Refuse to overwrite any of the files. -/
def checkNone (dir : PathBuf) : List PathBuf → Command Unit
  | [] => pure ()
  | name :: rest => do
      let found ← (ExceptT.lift (Prog.perform (FileTree.Call.exists (dir.join name))) : Command Bool)
      if found then
        throw (.message s!"{(dir.join name).raw} already exists; pass --force to overwrite")
      else checkNone dir rest

def writeAll (dir : PathBuf) : List (PathBuf × List UInt8) → Command Unit
  | [] => pure ()
  | (name, bytes) :: rest => do
      let path := dir.join name
      ask s!"writing {path.raw}" (.perform (FileTree.Call.write path bytes))
      setMode path FILE_MODE
      writeAll dir rest

/-- Write the three default sounds into `dir`. -/
def writeSounds (sounds : Sounds) (dir : PathBuf) (force : Bool) : Command Unit := do
  ask s!"creating {dir.raw}" (.perform (FileTree.Call.createDirAll dir))
  setMode dir DIR_MODE
  if !force then checkNone dir ((files sounds).map (·.1))
  writeAll dir (files sounds)

/-! ### The rules of the calls -/

variable {proc : Process} {I : Tree → Prop} {t : Tree} {path dir : PathBuf}

theorem always_ask {text : String} {p : Prog Call Answer (Except Errno Unit)}
    {Q : Except Failure Unit → Tree → Prop} : Always (exec proc) I Q (ask text p) t ↔
      Always (exec proc) I (fun r => Q ((r.mapError .io).mapError (.context text))) p t := by
  rw [ask, always_mapError, always_bind]
  exact ⟨fun h => h.mono (fun _ h => h) fun _ _ hr => hr.2, fun h => h.post⟩

/-- One of the three files is there. -/
def Occupied (sounds : Sounds) (t : Tree) (dir : PathBuf) : Prop :=
  ∃ file ∈ files sounds, t.lookup (dir.join file.1).components ≠ none

/-- The command has refused. -/
structure Refused (sounds : Sounds) (proc : Process) (t : Tree) (dir : PathBuf)
    (r : Except Failure Unit) (t' : Tree) : Prop where
  error : ∃ failure, r = .error failure
  refusal : ∀ text, r = .error (.message text) → (∃ file ∈ files sounds,
      text = s!"{(dir.join file.1).raw} already exists; pass --force to overwrite") ∧
    ∃ n, t.lookup dir.components = some n ∧ t' = t.setMode n DIR_MODE
  other : (∀ text, r ≠ .error (.message text)) → t' = t

variable {sounds : Sounds}

theorem components_file {file : PathBuf × List UInt8} (h : file ∈ files sounds) :
    (dir.join file.1).components = dir.components ++ [.normal file.1.raw.toList] := by
  have hname : file.1 ∈ ([⟨"beep.wav"⟩, ⟨"warning.wav"⟩, ⟨"siren.wav"⟩] : List PathBuf) :=
    List.mem_map_of_mem (f := Prod.fst) h
  generalize file.1 = name at hname
  simp only [List.mem_cons, List.not_mem_nil, or_false] at hname
  rcases hname with rfl | rfl | rfl <;> exact components_join (by decide) (by decide)

/-- A file that is there has its directory above it. -/
theorem Occupied.above (h : Occupied sounds t dir) :
    ∃ n, t.lookup dir.components = some n ∧ (t.nodes n).kind = .dir := by
  obtain ⟨file, hfile, hthere⟩ := h
  obtain ⟨m, hm⟩ := Option.ne_none_iff_exists'.mp hthere
  rw [components_file hfile] at hm
  exact t.above _ _ m hm

/-- Once the directory has its mode, its owner and root can search it. -/
theorem allows_of_mayChmod {node : Node} (h : proc.mayChmod node) :
    ({ node with mode := DIR_MODE } : Node).allows proc.user .exec := by
  simp only [Process.mayChmod, Bool.or_eq_true, decide_eq_true_eq] at h
  rw [Node.allows]
  have hexec : DIR_MODE.getLsbD (Access.exec.bit + 6) = true := by decide
  split_ifs with hroot hown
  · rfl
  · exact hexec
  · rcases h with h | h
    · exact absurd h hroot
    · exact absurd h.symm hown
  · rcases h with h | h
    · exact absurd h hroot
    · exact absurd h.symm hown

theorem Occupied.seen {n : ℕ} (h : Occupied sounds t dir) (hdir : t.lookup dir.components = some n)
    (hmay : proc.mayChmod (t.nodes n)) :
    ∃ name ∈ (files sounds).map (·.1), (t.setMode n DIR_MODE).pathExists proc (dir.join name) := by
  obtain ⟨file, hfile, hthere⟩ := h
  obtain ⟨m, hm⟩ := Option.ne_none_iff_exists'.mp hthere
  refine ⟨file.1, List.mem_map_of_mem hfile, ?_⟩
  have hsearch : ((t.setMode n DIR_MODE).nodes n).allows proc.user .exec := by
    rw [Tree.setMode_nodes_self]
    exact allows_of_mayChmod hmay
  rw [components_file hfile] at hm
  rw [Tree.pathExists, components_file hfile,
    Tree.find_entry (t := t.setMode n DIR_MODE) hdir hsearch hm]
  rfl

end AlertU.GenSounds
