import AlertU.Posix

/-! Files by number, and the paths that lead to them. Symbolic links are followed, so that several paths
may lead to one file, and a file other than the root and the working directory is reached through its
directory. A call that fails changes nothing, `create_dir_all` apart, which keeps the directories that it
has made. -/

open FilePath Posix

namespace FileTree

def ENOTDIR : Errno := ⟨20⟩

structure Tree where
  lookup : List Component → Option ℕ
  nodes : ℕ → Node
  bytes : ℕ → List UInt8
  /-- The number of the next file. -/
  fresh : ℕ
  used : ∀ q n, lookup q = some n → n < fresh
  above : ∀ q c n, lookup (q ++ [c]) = some n → ∃ dir, lookup q = some dir ∧ (nodes dir).kind = .dir

namespace Tree

variable (proc : Process) (t : Tree)

/-- The file that a path leads to. -/
def node (path : PathBuf) : Option Node := (t.lookup path.components).map t.nodes

/-- Give a file another mode. -/
def setMode (n : ℕ) (mode : Mode) : Tree :=
  { t with
    nodes := Function.update t.nodes n { t.nodes n with mode }
    above := fun q c m hm => by
      obtain ⟨dir, hdir, hkind⟩ := t.above q c m hm
      refine ⟨dir, hdir, ?_⟩
      by_cases h : dir = n
      · subst h
        rw [Function.update_self]
        exact hkind
      · rw [Function.update_of_ne h]
        exact hkind }

@[simp]
theorem setMode_nodes_self (n : ℕ) (mode : Mode) :
    (t.setMode n mode).nodes n = { t.nodes n with mode } := Function.update_self _ _ _

/-- Give a file other contents. -/
def setBytes (n : ℕ) (bytes : List UInt8) : Tree :=
  { t with bytes := Function.update t.bytes n bytes }

/-- A new entry of a directory. -/
def enter (dir : List Component) (c : Component) (node : Node) (bytes : List UInt8) (d : ℕ)
    (hdir : t.lookup dir = some d) (hkind : (t.nodes d).kind = .dir)
    (hnew : t.lookup (dir ++ [c]) = none) : Tree where
  lookup := Function.update t.lookup (dir ++ [c]) (some t.fresh)
  nodes := Function.update t.nodes t.fresh node
  bytes := Function.update t.bytes t.fresh bytes
  fresh := t.fresh + 1
  used q n h := by
    by_cases hq : q = dir ++ [c]
    · rw [hq, Function.update_self] at h
      cases h
      exact Nat.lt_succ_self _
    · rw [Function.update_of_ne hq] at h
      exact Nat.lt_succ_of_lt (t.used q n h)
  above q c' n h := by
    have hold : ∃ d', t.lookup q = some d' ∧ (t.nodes d').kind = .dir := by
      by_cases hq : q ++ [c'] = dir ++ [c]
      · obtain ⟨rfl, -⟩ := List.append_inj' hq rfl
        exact ⟨d, hdir, hkind⟩
      · rw [Function.update_of_ne hq] at h
        exact t.above q c' n h
    obtain ⟨d', hd', hkind'⟩ := hold
    have hne : q ≠ dir ++ [c] := by
      rintro rfl
      rw [hnew] at hd'
      cases hd'
    refine ⟨d', ?_, ?_⟩
    · rw [Function.update_of_ne hne]
      exact hd'
    · rw [Function.update_of_ne (t.used q d' hd').ne]
      exact hkind'

/-- Make a new file, which depends on its directory at `dir`. -/
def make (dir : List Component) (c : Component) (node : Node → Node) (bytes : List UInt8) :
    Except Errno Tree :=
  match hdir : t.lookup dir with
  | none => .error ENOENT
  | some d =>
      if hkind : (t.nodes d).kind = .dir then
        if hnew : t.lookup (dir ++ [c]) = none then
          if (t.nodes d).allows proc.user .write && (t.nodes d).allows proc.user .exec then
            .ok (t.enter dir c (node (t.nodes d)) bytes d hdir hkind hnew)
          else .error EACCES
        else .error EEXIST
      else .error ENOTDIR

/-- What a path leads to, given that its directory can be searched. -/
def find (q : List Component) : Except Errno ℕ :=
  if q = [] then .error ENOENT
  else
    let found := match t.lookup q with
      | some n => .ok n
      | none => .error ENOENT
    if q = [.rootDir] then found
    else
      match t.lookup q.dropLast with
      | none => .error ENOENT
      | some d => if (t.nodes d).allows proc.user .exec then found else .error EACCES

/-- A new file at a path that leads nowhere so far. -/
def makeAt (q : List Component) (node : Node → Node) (bytes : List UInt8) : Except Errno Tree :=
  match t.find proc q, q.getLast? with
  | .ok _, _ => .error EEXIST
  | .error _, none => .error ENOENT
  | .error e, some c => if e = ENOENT then t.make proc q.dropLast c node bytes else .error e

/-- A new directory inherits the set-group-id bit. -/
def mkdir (q : List Component) : Except Errno Tree :=
  t.makeAt proc q (fun dir => ⟨.dir, proc.euid, Kernel.newGid proc (some dir),
    (0o777 &&& ~~~proc.umask) ||| (dir.mode &&& 0o2000)⟩) []

def isDir (q : List Component) : Bool :=
  match t.find proc q with
  | .ok n => (t.nodes n).kind = .dir
  | .error _ => false

/-- `create_dir_all` on the components of a path, last one first. -/
def createDirAll (t : Tree) : List Component → Except Errno Unit × Tree
  | [] => (.ok (), t)
  | c :: up =>
      let q := (c :: up).reverse
      match t.mkdir proc q with
      | .ok t => (.ok (), t)
      | .error e =>
          if e = ENOENT then
            match createDirAll t up with
            | (.error e, t) => (.error e, t)
            | (.ok (), t) =>
                match t.mkdir proc q with
                | .ok t => (.ok (), t)
                | .error e => (.error e, t)
          else if e = EEXIST ∧ t.isDir proc q then (.ok (), t)
          else (.error e, t)

/-- `set_permissions`. -/
def setPermissions (path : PathBuf) (mode : Mode) : Except Errno Tree :=
  match t.find proc path.components with
  | .ok n => if proc.mayChmod (t.nodes n) then .ok (t.setMode n mode) else .error EPERM
  | .error e => .error e

/-- `Path::exists`: an error counts as a no. -/
def pathExists (path : PathBuf) : Bool := (t.find proc path.components).isOk

/-- `fs::write`. -/
def write (path : PathBuf) (bytes : List UInt8) : Except Errno Tree :=
  match t.find proc path.components with
  | .ok n =>
      match (t.nodes n).kind with
      | .dir => .error EISDIR
      | .socket _ => .error ENXIO
      | .file | .symlink =>
          if (t.nodes n).allows proc.user .write then .ok (t.setBytes n bytes) else .error EACCES
  | .error _ =>
      t.makeAt proc path.components (fun dir => ⟨.file, proc.euid, Kernel.newGid proc (some dir),
        0o666 &&& ~~~proc.umask⟩) bytes

end Tree

inductive Call where
  | createDirAll (dir : PathBuf)
  | setPermissions (path : PathBuf) (mode : Mode)
  | exists (path : PathBuf)
  | write (path : PathBuf) (bytes : List UInt8)
  deriving DecidableEq, Repr

abbrev Answer : Call → Type
  | .exists _ => Bool
  | _ => Except Errno Unit

/-- A call with its outcome, unless a fault makes it fail. -/
def attempt (t : Tree) (fault : Option Errno) (outcome : Except Errno Tree) : Except Errno Unit × Tree :=
  match fault, outcome with
  | some e, _ => (.error e, t)
  | none, .error e => (.error e, t)
  | none, .ok t' => (.ok (), t')

/-- What the system answers to a call of the process. A fault is an error that the files do not decide,
as when the disk is full. -/
def exec (proc : Process) (t : Tree) : (k : Call) → Option Errno → Answer k × Tree
  | .createDirAll dir, none => t.createDirAll proc dir.components.reverse
  | .createDirAll _, some e => (.error e, t)
  | .setPermissions path mode, fault => attempt t fault (t.setPermissions proc path mode)
  | .exists path, _ => (t.pathExists proc path, t)
  | .write path bytes, fault => attempt t fault (t.write proc path bytes)

/-! ### A file that is there -/

namespace Tree

variable {proc : Process} {t t' : Tree} {q : List Component} {path : PathBuf} {n : ℕ}

/-- An entry of a directory that can be searched is found. -/
theorem find_entry {c : Component} {d : ℕ} (hd : t.lookup q = some d)
    (hsearch : (t.nodes d).allows proc.user .exec) (h : t.lookup (q ++ [c]) = some n) :
    t.find proc (q ++ [c]) = .ok n := by
  rw [find, if_neg (by simp)]
  simp only [h, List.dropLast_concat, hd, hsearch, if_true, ite_self]

end Tree

end FileTree
