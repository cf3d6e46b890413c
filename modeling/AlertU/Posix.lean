import AlertU.Calendar
import AlertU.Calls
import AlertU.FilePath
import Mathlib.Logic.Function.Basic

/-! The owners, groups and modes of a Unix file system, and the system calls of a process that bear on
them. A call that is refused for a reason the model does not decide fails by the fault it is given; a
call that fails changes nothing. -/

open FilePath Calls Calendar

namespace Posix

/-- Permission bits, with the sticky bit and the two set-id bits on top. -/
abbrev Mode := BitVec 12

structure Errno where
  code : ℕ
  deriving DecidableEq, Repr

def EPERM : Errno := ⟨1⟩
def ENOENT : Errno := ⟨2⟩
def EACCES : Errno := ⟨13⟩
def EEXIST : Errno := ⟨17⟩
def EISDIR : Errno := ⟨21⟩
def ENXIO : Errno := ⟨6⟩
def EADDRINUSE : Errno := ⟨98⟩

/-- What `lstat` finds; a socket carries the number of the listener that was bound to it. -/
inductive Kind where
  | dir
  | symlink
  | file
  | socket (listener : ℕ)
  deriving DecidableEq, Repr

/-- A file. The owner, group and mode of a symbolic link are those of what it leads to: its own count
for nothing. -/
structure Node where
  kind : Kind
  uid : ℕ
  gid : ℕ
  mode : Mode
  deriving DecidableEq, Repr

structure User where
  uid : ℕ
  groups : List ℕ
  deriving DecidableEq, Repr

/-- A kind of access, by the number of its bit in each of the three classes. -/
inductive Access where
  | exec
  | write
  | read
  deriving DecidableEq, Repr

def Access.bit : Access → ℕ
  | .exec => 0
  | .write => 1
  | .read => 2

/-- Whether the user may access the file: as root, as its owner, as one of its group, or as another. -/
def Node.allows (node : Node) (who : User) (access : Access) : Bool :=
  if who.uid = 0 then true
  else if who.uid = node.uid then node.mode.getLsbD (access.bit + 6)
  else if node.gid ∈ who.groups then node.mode.getLsbD (access.bit + 3)
  else node.mode.getLsbD access.bit

/-- What a user who is neither root nor the owner may do. -/
theorem Node.allows_of_ne {node : Node} {who : User} (access : Access) (hroot : who.uid ≠ 0)
    (hother : who.uid ≠ node.uid) : node.allows who access =
      if node.gid ∈ who.groups then node.mode.getLsbD (access.bit + 3)
      else node.mode.getLsbD access.bit := by
  rw [Node.allows, if_neg hroot, if_neg hother]

/-- The credentials of a process, and the mask of what it creates. -/
structure Process where
  euid : ℕ
  egid : ℕ
  groups : List ℕ
  umask : Mode
  deriving DecidableEq, Repr

def Process.user (proc : Process) : User := ⟨proc.euid, proc.egid :: proc.groups⟩

/-- Whether the process may change the mode of the file: as root, or as its owner. -/
def Process.mayChmod (proc : Process) (node : Node) : Bool := proc.euid = 0 || node.uid = proc.euid

/-- Whether the process may give the file to the group: as root, or as its owner and a member. -/
def Process.mayChgrp (proc : Process) (gid : ℕ) (node : Node) : Bool :=
  proc.euid = 0 || (node.uid = proc.euid && gid ∈ proc.user.groups)

inductive Call where
  | geteuid
  | createDirAll (dir : PathBuf)
  | symlinkMetadata (path : PathBuf)
  | chmod (path : PathBuf) (mode : Mode)
  | chgrp (path : PathBuf) (gid : ℕ)
  | exists (path : PathBuf)
  | removeFile (path : PathBuf)
  | bind (path : PathBuf)
  | localTime
  | which (prog : String)
  | spawn (prog : String) (args : List String)
  | create (path : PathBuf)
  | wait
  deriving DecidableEq, Repr

abbrev Answer : Call → Type
  | .geteuid => ℕ
  | .createDirAll _ | .chmod _ _ | .chgrp _ _ | .removeFile _ | .spawn _ _ | .create _ => Except Errno Unit
  | .symlinkMetadata _ => Except Errno Node
  | .bind _ => Except Errno ℕ
  | .wait => Except Errno (Bool × String)
  | .exists _ | .which _ => Bool
  | .localTime => Tm

instance : (k : Call) → Inhabited (Answer k)
  | .geteuid => ⟨0⟩
  | .createDirAll _ | .chmod _ _ | .chgrp _ _ | .removeFile _ | .spawn _ _ | .create _ => ⟨.ok ()⟩
  | .symlinkMetadata _ | .bind _ | .wait => ⟨.error ENOENT⟩
  | .exists _ | .which _ => ⟨false⟩
  | .localTime => ⟨default⟩

/-- What the model leaves open about one call. -/
structure Env where
  fault : Option Errno
  flag : Bool
  now : Tm
  stderr : String

/-- The files by their paths, the number of listeners so far, and the calls that have failed. -/
structure Kernel where
  nodes : List Component → Option Node
  listeners : ℕ
  failed : List Call

namespace Kernel

variable (s : Kernel) (proc : Process)

def fail (k : Call) : Kernel := { s with failed := s.failed ++ [k] }

def put (path : PathBuf) (node : Option Node) : Kernel :=
  { s with nodes := Function.update s.nodes path.components node }

/-- The file at a path. -/
def node (path : PathBuf) : Option Node := s.nodes path.components

/-- The directory that a path is an entry of; the empty path stands for the working directory. -/
def dirOf (path : PathBuf) : Option Node := s.nodes path.components.dropLast

/-- The group of a new file: that of a directory with the set-group-id bit, else that of the process. -/
def newGid (dir : Option Node) : ℕ :=
  match dir with
  | some dir => if dir.mode.getLsbD 10 then dir.gid else proc.egid
  | none => proc.egid

/-- `create_dir_all`: what counts of it is the directory itself, which inherits the set-group-id bit. -/
def createDirAll (dir : PathBuf) : Except Errno (Unit × Kernel) :=
  if dir.components = [] then .ok ((), s)
  else
    match s.node dir with
    | none =>
        let above := s.dirOf dir
        let inherited := (above.map (·.mode)).getD 0 &&& 0o2000
        .ok ((), s.put dir (some ⟨.dir, proc.euid, newGid proc above, (0o777 &&& ~~~proc.umask) ||| inherited⟩))
    | some node =>
        match node.kind with
        | .dir | .symlink => .ok ((), s)
        | .file | .socket _ => .error EEXIST

def symlinkMetadata (path : PathBuf) : Except Errno (Node × Kernel) :=
  if path.components = [] then .error ENOENT
  else
    match s.node path with
    | some node => .ok (node, s)
    | none => .error ENOENT

/-- Change the metadata of a file, if that is allowed. -/
def modify (path : PathBuf) (may : Node → Bool) (f : Node → Node) : Except Errno (Unit × Kernel) :=
  match s.node path with
  | some node => if may node then .ok ((), s.put path (some (f node))) else .error EPERM
  | none => .error ENOENT

def removeFile (path : PathBuf) : Except Errno (Unit × Kernel) :=
  match s.node path with
  | some node => if node.kind = .dir then .error EISDIR else .ok ((), s.put path none)
  | none => .error ENOENT

/-- Why the process may not make an entry in the directory. -/
def cannotCreate (dir : Option Node) : Option Errno :=
  match dir with
  | none => some ENOENT
  | some dir =>
      if dir.allows proc.user .write && dir.allows proc.user .exec then none else some EACCES

/-- `bind` of a listening socket. -/
def bind (path : PathBuf) : Except Errno (ℕ × Kernel) :=
  match s.node path, cannotCreate proc (s.dirOf path) with
  | some _, _ => .error EADDRINUSE
  | none, some e => .error e
  | none, none =>
      let socket : Node :=
        ⟨.socket s.listeners, proc.euid, newGid proc (s.dirOf path), 0o777 &&& ~~~proc.umask⟩
      .ok (s.listeners, { s.put path (some socket) with listeners := s.listeners + 1 })

/-- `open` with `O_CREAT | O_TRUNC`, as a tool opens its output. -/
def create (path : PathBuf) : Except Errno (Unit × Kernel) :=
  match s.node path, cannotCreate proc (s.dirOf path) with
  | some node, _ =>
      match node.kind with
      | .file | .symlink => if node.allows proc.user .write then .ok ((), s) else .error EACCES
      | .dir => .error EISDIR
      | .socket _ => .error ENXIO
  | none, some e => .error e
  | none, none =>
      .ok ((), s.put path
        (some ⟨.file, proc.euid, newGid proc (s.dirOf path), 0o666 &&& ~~~proc.umask⟩))

/-- A call with its outcome, unless a fault makes it fail. -/
def attempt {α : Type} (k : Call) (fault : Option Errno) (outcome : Except Errno (α × Kernel)) :
    Except Errno α × Kernel :=
  match fault, outcome with
  | some e, _ => (.error e, s.fail k)
  | none, .error e => (.error e, s.fail k)
  | none, .ok (a, s') => (.ok a, s')

end Kernel

open Kernel in
/-- What the system answers to a call of the process, or of a tool that the process runs. -/
def exec (proc : Process) (s : Kernel) : (k : Call) → Env → Answer k × Kernel
  | .geteuid, _ => (proc.euid, s)
  | .createDirAll dir, env => s.attempt (.createDirAll dir) env.fault (s.createDirAll proc dir)
  | .symlinkMetadata path, env =>
      s.attempt (.symlinkMetadata path) env.fault (s.symlinkMetadata path)
  | .chmod path mode, env =>
      s.attempt (.chmod path mode) env.fault
        (s.modify path proc.mayChmod fun node => { node with mode })
  | .chgrp path gid, env =>
      s.attempt (.chgrp path gid) env.fault
        (s.modify path (proc.mayChgrp gid) fun node => { node with gid })
  | .exists path, env =>
      -- it follows links, and takes an error for a no
      (env.fault.isNone && match s.node path with
        | none => false
        | some node => node.kind ≠ .symlink || env.flag, s)
  | .removeFile path, env => s.attempt (.removeFile path) env.fault (s.removeFile path)
  | .bind path, env => s.attempt (.bind path) env.fault (s.bind proc path)
  | .localTime, env => (env.now, s)
  | .which _, env => (env.flag, s)
  | .spawn prog args, env => s.attempt (.spawn prog args) env.fault (.ok ((), s))
  | .create path, env => s.attempt (.create path) env.fault (s.create proc path)
  | .wait, env => s.attempt .wait env.fault (.ok ((env.flag, env.stderr), s))

/-! ### Frames -/

namespace Kernel

variable {s s' : Kernel} {path : PathBuf}

/-- At most the file at `path` differs, and there is no new listener. -/
structure SameBut (path : PathBuf) (s s' : Kernel) : Prop where
  listeners : s'.listeners = s.listeners
  nodes : ∀ q, q ≠ path.components → s'.nodes q = s.nodes q

theorem SameBut.refl (path : PathBuf) (s : Kernel) : s.SameBut path s := ⟨rfl, fun _ _ => rfl⟩

theorem SameBut.fail (h : s.SameBut path s') (k : Call) : s.SameBut path (s'.fail k) :=
  ⟨h.listeners, h.nodes⟩

theorem SameBut.put (h : s.SameBut path s') (node : Option Node) :
    s.SameBut path (s'.put path node) :=
  ⟨h.listeners, fun q hq => (Function.update_of_ne hq _ _).trans (h.nodes q hq)⟩

theorem SameBut.trans {s'' : Kernel} (h : s.SameBut path s') (h' : s'.SameBut path s'') :
    s.SameBut path s'' :=
  ⟨h'.listeners.trans h.listeners, fun q hq => (h'.nodes q hq).trans (h.nodes q hq)⟩

theorem SameBut.node {other : PathBuf} (h : s.SameBut path s')
    (hne : other.components ≠ path.components) : s'.node other = s.node other := h.nodes _ hne

@[simp]
theorem node_put_self (s : Kernel) (path : PathBuf) (node : Option Node) :
    (s.put path node).node path = node := Function.update_self _ _ _

theorem node_put_of_ne (s : Kernel) {other : PathBuf} (node : Option Node)
    (hne : other.components ≠ path.components) : (s.put path node).node other = s.node other :=
  Function.update_of_ne hne _ _

@[simp]
theorem node_fail (s : Kernel) (k : Call) (path : PathBuf) : (s.fail k).node path = s.node path := rfl

/-- No file differs, and there is no new listener. -/
structure Same (s s' : Kernel) : Prop where
  listeners : s'.listeners = s.listeners
  nodes : s'.nodes = s.nodes

theorem Same.refl (s : Kernel) : s.Same s := ⟨rfl, rfl⟩

theorem Same.fail (h : s.Same s') (k : Call) : s.Same (s'.fail k) := ⟨h.listeners, h.nodes⟩

theorem Same.node (h : s.Same s') (path : PathBuf) : s'.node path = s.node path :=
  congrFun h.nodes _

theorem modify_eq_ok {may : Node → Bool} {f : Node → Node} {a : Unit}
    (h : s.modify path may f = .ok (a, s')) :
    ∃ node, s.node path = some node ∧ may node = true ∧ s' = s.put path (some (f node)) := by
  unfold modify at h
  cases hnode : s.node path with
  | none =>
      rw [hnode] at h
      cases h
  | some node =>
      rw [hnode] at h
      simp only at h
      split_ifs at h with hmay
      cases h
      exact ⟨node, rfl, hmay, rfl⟩

/-- What becomes of a file that is known. -/
theorem modify_eq_ok_of_node {may : Node → Bool} {f : Node → Node} {a : Unit} {node : Node}
    (hnode : s.node path = some node) (h : s.modify path may f = .ok (a, s')) :
    may node = true ∧ s' = s.put path (some (f node)) := by
  obtain ⟨found, hfound, hmay, rfl⟩ := modify_eq_ok h
  cases hnode.symm.trans hfound
  exact ⟨hmay, rfl⟩

/-- Where a call leads: nowhere if it fails, else to its outcome. -/
theorem attempt_state {α : Type} {P : Kernel → Prop} {k : Call} {fault : Option Errno}
    {outcome : Except Errno (α × Kernel)} (hfail : P (s.fail k))
    (hok : ∀ a s', outcome = .ok (a, s') → P s') : P (s.attempt k fault outcome).2 := by
  cases fault with
  | some e => exact hfail
  | none =>
      cases outcome with
      | error e => exact hfail
      | ok result => exact hok result.1 result.2 rfl

end Kernel

end Posix
