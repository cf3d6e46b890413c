import AlertU.FilePath
import Mathlib.Logic.Function.Basic

/-! The contents of text files. A path names a file through its components. Every operation answers
whether it succeeded; which of them fail is decided by the caller's `Disk`, one per use. -/

namespace FilePath

structure FileSystem where
  content : List Component → Option String

/-- How the disk answers the calls of one use of it. `writeFault` is what a failed write leaves
behind in the file it was writing, nothing included. -/
structure Disk where
  readFault : Option String
  mkdirFails : Bool
  writeFault : Option (Option String)
  renameFails : Bool

/-- A disk on which every operation succeeds. -/
def Disk.sound : Disk := ⟨none, false, none, false⟩

inductive ReadResult where
  | text (text : String)
  | notFound
  | failed (error : String)
  deriving DecidableEq, Repr

namespace FileSystem

def lookup (fs : FileSystem) (p : PathBuf) : Option String := fs.content p.components

def put (fs : FileSystem) (p : PathBuf) (text : Option String) : FileSystem :=
  ⟨Function.update fs.content p.components text⟩

/-- `std::fs::read_to_string`. -/
def readToString (fs : FileSystem) (disk : Disk) (p : PathBuf) : ReadResult :=
  match disk.readFault with
  | some error => .failed error
  | none =>
      match fs.lookup p with
      | some text => .text text
      | none => .notFound

/-- `std::fs::write`. A path without a file name is a directory or empty, and cannot be written. -/
def write (fs : FileSystem) (disk : Disk) (p : PathBuf) (text : String) : Bool × FileSystem :=
  match p.fileName, disk.writeFault with
  | none, _ => (false, fs)
  | some _, some left => (false, fs.put p left)
  | some _, none => (true, fs.put p (some text))

/-- `std::fs::rename` of a file. -/
def rename (fs : FileSystem) (disk : Disk) (source target : PathBuf) : Bool × FileSystem :=
  if disk.renameFails then (false, fs)
  else (true, (fs.put target (fs.lookup source)).put source none)

@[simp]
theorem lookup_put_self (fs : FileSystem) (p : PathBuf) (text : Option String) :
    (fs.put p text).lookup p = text := Function.update_self _ _ _

theorem lookup_put_of_ne (fs : FileSystem) {p q : PathBuf} (text : Option String)
    (h : q.components ≠ p.components) : (fs.put p text).lookup q = fs.lookup q :=
  Function.update_of_ne h _ _

/-- Writing one file leaves every other file as it was, whether it fails or not. -/
theorem lookup_write_of_ne (fs : FileSystem) (disk : Disk) {p q : PathBuf} (text : String)
    (h : q.components ≠ p.components) : (fs.write disk p text).2.lookup q = fs.lookup q := by
  unfold write
  split
  · rfl
  · exact lookup_put_of_ne _ _ h
  · exact lookup_put_of_ne _ _ h

theorem lookup_of_write {fs fs' : FileSystem} {disk : Disk} {p : PathBuf} {text : String}
    (h : fs.write disk p text = (true, fs')) : fs'.lookup p = some text ∧ p.fileName ≠ none := by
  unfold write at h
  split at h
  · cases h
  · cases h
  · rename_i name hname _
    cases h
    simp [hname]

theorem eq_of_rename_failed {fs fs' : FileSystem} {disk : Disk} {source target : PathBuf}
    (h : fs.rename disk source target = (false, fs')) : fs' = fs := by
  unfold rename at h
  split_ifs at h
  · cases h
    rfl
  · simp at h

theorem lookup_of_rename {fs fs' : FileSystem} {disk : Disk} {source target : PathBuf}
    (hne : target.components ≠ source.components)
    (h : fs.rename disk source target = (true, fs')) : fs'.lookup target = fs.lookup source := by
  unfold rename at h
  split_ifs at h
  · simp at h
  · cases h
    rw [lookup_put_of_ne _ _ hne, lookup_put_self]

end FileSystem

end FilePath
