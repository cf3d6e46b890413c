import AlertU.Machine
import AlertU.Posix

/-! The group boundary around what the daemon exposes: `chmod`, `chgrp` and the preparation of a managed
directory, which is narrowed to its owner first, given its group next, and widened last. A directory
that belongs to somebody else is declined and left alone. -/

open FilePath Calls Posix

namespace AlertU

/-- An error with the contexts that it has been given on its way out. -/
inductive Failure where
  | io (errno : Errno)
  | message (text : String)
  | context (text : String) (cause : Failure)
  deriving DecidableEq, Repr

/-- A function of the daemon that makes system calls and may fail. -/
abbrev Procedure := Fallible Call Answer Failure

namespace Procedure

variable {α : Type}

def io (p : Prog Call Answer (Except Errno α)) : Procedure α := p.bind fun r => .ret (r.mapError .io)

def withContext (text : String) (x : Procedure α) : Procedure α := Fallible.mapError (.context text) x

/-- A call that can fail, with the context of its error. -/
def ask (text : String) (p : Prog Call Answer (Except Errno α)) : Procedure α := withContext text (io p)

/-- A call that cannot fail. -/
def tell (p : Prog Call Answer α) : Procedure α := ExceptT.lift p

end Procedure

namespace Perms

open Procedure

def octal (mode : Mode) : String := String.ofList (Nat.toDigits 8 mode.toNat)

/-- Set the group owner of `path`, leaving the user owner untouched. -/
def chgrp (path : PathBuf) (gid : ℕ) : Procedure Unit :=
  ask s!"setting group {gid} on {path.raw}" (.perform (Call.chgrp path gid))

/-- Set the mode of `path`. -/
def chmod (path : PathBuf) (mode : Mode) : Procedure Unit :=
  ask s!"setting mode {octal mode} on {path.raw}" (.perform (Call.chmod path mode))

/-- The mode a managed directory carries while the daemon is still putting things inside it. -/
def DIR_SETUP_MODE : Mode := 0o700

/-- The mode a managed directory ends up at. -/
def DIR_MODE : Mode := 0o750

/-- Apply the group of the boundary, if there is one. -/
def applyGroup (path : PathBuf) (privileges : Privileges) : Procedure Unit :=
  match privileges.groupGid with
  | some gid => chgrp path gid
  | none => pure ()

/-- Create the directory, decide whether it is ours, and if it is, narrow it and apply the group. -/
def beginSecureDir (dir : PathBuf) (privileges : Privileges) : Procedure Bool := do
  ask s!"creating directory {dir.raw}" (.perform (Call.createDirAll dir))
  let found ← ask s!"inspecting directory {dir.raw}" (.perform (Call.symlinkMetadata dir))
  let euid ← tell (.perform Call.geteuid)
  if found.kind ≠ .dir ∨ found.uid ≠ euid then
    pure false
  else do
    chmod dir DIR_SETUP_MODE
    applyGroup dir privileges
    pure true

/-- Widen a directory that `beginSecureDir` claimed. -/
def finishSecureDir (dir : PathBuf) : Procedure Unit := chmod dir DIR_MODE

/-- Create `dir` if needed and apply the group boundary, but only if the directory is ours to manage. -/
def secureDir (dir : PathBuf) (privileges : Privileges) : Procedure Bool := do
  let claimed ← beginSecureDir dir privileges
  if !claimed then pure false
  else do
    finishSecureDir dir
    pure true

end Perms

/-! ### The rules of the calls -/

namespace Procedure

variable {α β : Type} {proc : Process} {I : Kernel → Prop} {s : Kernel}

theorem always_io {Q : Except Failure α → Kernel → Prop} {p : Prog Call Answer (Except Errno α)} :
    Always (exec proc) I Q (io p) s ↔ Always (exec proc) I (fun r => Q (r.mapError .io)) p s := by
  rw [io, always_bind]
  exact ⟨fun h => h.mono (fun _ h => h) fun _ _ hr => hr.2, fun h => h.post⟩

/-- A call that can fail: it fails and changes nothing, or it has its outcome. -/
theorem always_ask (outcome : Except Errno (α × Kernel)) {k : Call} {text : String}
    {p : Prog Call Answer (Except Errno α)} {Q : Except Failure α → Kernel → Prop}
    (hcall : ∀ R, Always (exec proc) I R p s ↔ I s ∧ ∀ env : Env,
      I (s.attempt k env.fault outcome).2 ∧
        R (s.attempt k env.fault outcome).1 (s.attempt k env.fault outcome).2) :
    Always (exec proc) I Q (ask text p) s ↔ I s ∧
      (∀ e, I (s.fail k) ∧ Q (.error (.context text (.io e))) (s.fail k)) ∧
      ∀ a s', outcome = .ok (a, s') → I s' ∧ Q (.ok a) s' := by
  rw [ask, withContext, always_mapError, always_io, hcall]
  refine and_congr_right fun _ => ?_
  constructor
  · intro h
    refine ⟨fun e => h ⟨some e, false, default, ""⟩, fun a s' houtcome => ?_⟩
    have := h ⟨none, false, default, ""⟩
    rw [houtcome] at this
    exact this
  · rintro ⟨hfail, hok⟩ env
    cases hfault : env.fault with
    | some e => exact hfail e
    | none =>
        cases houtcome : outcome with
        | error e => exact hfail e
        | ok result => exact hok result.1 result.2 houtcome

theorem always_chmod {path : PathBuf} {mode : Mode} {Q : Except Failure Unit → Kernel → Prop} :
    Always (exec proc) I Q (Perms.chmod path mode) s ↔ I s ∧
      (∀ e, I (s.fail (.chmod path mode)) ∧
        Q (.error (.context s!"setting mode {Perms.octal mode} on {path.raw}" (.io e)))
          (s.fail (.chmod path mode))) ∧
      ∀ a s', s.modify path proc.mayChmod (fun node => { node with mode }) = .ok (a, s') →
        I s' ∧ Q (.ok a) s' :=
  always_ask _ fun _ => Iff.rfl

theorem always_chgrp {path : PathBuf} {gid : ℕ} {Q : Except Failure Unit → Kernel → Prop} :
    Always (exec proc) I Q (Perms.chgrp path gid) s ↔ I s ∧
      (∀ e, I (s.fail (.chgrp path gid)) ∧
        Q (.error (.context s!"setting group {gid} on {path.raw}" (.io e)))
          (s.fail (.chgrp path gid))) ∧
      ∀ a s', s.modify path (proc.mayChgrp gid) (fun node => { node with gid }) = .ok (a, s') →
        I s' ∧ Q (.ok a) s' :=
  always_ask _ fun _ => Iff.rfl

theorem always_tell {σ ι : Type} {sys : σ → (k : Call) → ι → Answer k × σ} {I : σ → Prop} {s : σ}
    {p : Prog Call Answer α} {Q : Except Failure α → σ → Prop} :
    Always sys I Q (tell p) s ↔ Always sys I (fun a => Q (.ok a)) p s := by
  show Always sys I Q (p.bind fun a => .ret (.ok a)) s ↔ _
  rw [always_bind]
  exact ⟨fun h => h.mono (fun _ h => h) fun _ _ hr => hr.2, fun h => h.post⟩

end Procedure

/-! ### The calls that prepare a directory -/

section Only

variable {α : Type} {S : Call → Prop}

theorem Procedure.only_ask {text : String} {p : Prog Call Answer (Except Errno α)} (h : p.Only S) :
    Prog.Only S (Procedure.ask text p) :=
  Fallible.only_mapError (Prog.only_bind h fun _ => trivial)

theorem Procedure.only_tell {p : Prog Call Answer α} (h : p.Only S) :
    Prog.Only S (Procedure.tell p) := Prog.only_bind h fun _ => trivial

namespace Perms

open Procedure

/-- The calls that bear on a directory while it is prepared. -/
inductive Managing (dir : PathBuf) : Call → Prop
  | geteuid : Managing dir .geteuid
  | createDirAll : Managing dir (.createDirAll dir)
  | symlinkMetadata : Managing dir (.symlinkMetadata dir)
  | chmod (mode : Mode) : Managing dir (.chmod dir mode)
  | chgrp (gid : ℕ) : Managing dir (.chgrp dir gid)

theorem only_chmod {path : PathBuf} {mode : Mode} (h : S (.chmod path mode)) :
    Prog.Only S (chmod path mode) := only_ask (Prog.only_perform h)

theorem only_applyGroup {path : PathBuf} {privileges : Privileges} (h : ∀ gid, S (.chgrp path gid)) :
    Prog.Only S (applyGroup path privileges) := by
  unfold applyGroup
  cases privileges.groupGid with
  | none => trivial
  | some gid => exact only_ask (Prog.only_perform (h gid))

theorem only_beginSecureDir (dir : PathBuf) (privileges : Privileges) :
    Prog.Only (Managing dir) (beginSecureDir dir privileges) := by
  refine Fallible.only_andThen (only_ask (Prog.only_perform .createDirAll)) fun _ => ?_
  refine Fallible.only_andThen (only_ask (Prog.only_perform .symlinkMetadata)) fun found => ?_
  refine Fallible.only_andThen (only_tell (Prog.only_perform .geteuid)) fun euid => ?_
  by_cases hforeign : found.kind ≠ .dir ∨ found.uid ≠ euid
  · rw [if_pos hforeign]
    trivial
  · rw [if_neg hforeign]
    exact Fallible.only_andThen (only_chmod (.chmod _)) fun _ =>
      Fallible.only_andThen (only_applyGroup .chgrp) fun _ => trivial

theorem only_secureDir (dir : PathBuf) (privileges : Privileges) :
    Prog.Only (Managing dir) (secureDir dir privileges) := by
  refine Fallible.only_andThen (only_beginSecureDir dir privileges) fun claimed => ?_
  cases claimed with
  | false => trivial
  | true => exact Fallible.only_andThen (only_chmod (.chmod _)) fun _ => trivial

end Perms

end Only

/-! ### What becomes of a directory -/

namespace Perms

open Procedure

variable {proc : Process} {privileges : Privileges} {s : Kernel} {dir : PathBuf}

/-- A directory that `beginSecureDir` claims: it is missing, or it is a directory of the daemon's. -/
structure Claimable (proc : Process) (s : Kernel) (dir : PathBuf) : Prop where
  named : dir.components ≠ []
  own : ∀ node, s.node dir = some node → node.kind = .dir ∧ node.uid = proc.euid

/-- The group in which the directory is found, once it has been created. -/
def foundGid (proc : Process) (s : Kernel) (dir : PathBuf) : ℕ :=
  match s.node dir with
  | some node => node.gid
  | none => Kernel.newGid proc (s.dirOf dir)

/-- The directory with a mode, owned by the daemon, in the group of the boundary. -/
def managed (proc : Process) (privileges : Privileges) (s : Kernel) (dir : PathBuf) (mode : Mode) :
    Node :=
  ⟨.dir, proc.euid, privileges.groupGid.getD (foundGid proc s dir), mode⟩

/-- After `create_dir_all`, a directory that can be claimed is there and belongs to the daemon. -/
theorem createDirAll_claimable {s' : Kernel} {a : Unit} (h : Claimable proc s dir)
    (hcreated : s.createDirAll proc dir = .ok (a, s')) :
    s.SameBut dir s' ∧ ∃ mode, s'.node dir = some ⟨.dir, proc.euid, foundGid proc s dir, mode⟩ := by
  rw [Kernel.createDirAll, if_neg h.named] at hcreated
  cases hnode : s.node dir with
  | none =>
      rw [hnode] at hcreated
      cases hcreated
      simp only [foundGid, hnode]
      exact ⟨(Kernel.SameBut.refl dir s).put _, _, Kernel.node_put_self _ _ _⟩
  | some node =>
      obtain ⟨hkind, hown⟩ := h.own node hnode
      rw [hnode] at hcreated
      simp only [hkind] at hcreated
      cases hcreated
      refine ⟨.refl dir s, node.mode, ?_⟩
      rw [hnode, foundGid, hnode, ← hkind, ← hown]

theorem symlinkMetadata_eq_ok {s' : Kernel} {found node : Node} (hnode : s.node dir = some node)
    (h : s.symlinkMetadata dir = .ok (found, s')) : found = node ∧ s' = s := by
  unfold Kernel.symlinkMetadata at h
  split_ifs at h
  rw [hnode] at h
  cases h
  exact ⟨rfl, rfl⟩

/-- The group is applied to a managed directory, whatever group it is found in. -/
theorem always_applyGroup {I : Kernel → Prop} {Q : Except Failure Unit → Kernel → Prop} {node : Node}
    (hinv : I s) (hnode : s.node dir = some node)
    (hfail : ∀ gid e, privileges.groupGid = some gid →
      I (s.fail (.chgrp dir gid)) ∧ Q (.error e) (s.fail (.chgrp dir gid)))
    (hnone : privileges.groupGid = none → Q (.ok ()) s)
    (hsome : ∀ gid, privileges.groupGid = some gid → proc.mayChgrp gid node = true →
      I (s.put dir (some { node with gid })) ∧ Q (.ok ()) (s.put dir (some { node with gid }))) :
    Always (exec proc) I Q (applyGroup dir privileges) s := by
  unfold applyGroup
  cases hgroup : privileges.groupGid with
  | none => exact ⟨hinv, hnone hgroup⟩
  | some gid =>
      refine always_chgrp.mpr ⟨hinv, fun e => hfail gid _ hgroup, fun a s' hs' => ?_⟩
      obtain ⟨hmay, rfl⟩ := Kernel.modify_eq_ok_of_node hnode hs'
      exact hsome gid hgroup hmay

/-- The daemon can give its own files to the group of the boundary, if there is one. -/
def Grantable (proc : Process) (privileges : Privileges) : Prop :=
  ∀ gid, privileges.groupGid = some gid → proc.euid = 0 ∨ gid ∈ proc.user.groups

instance (proc : Process) (privileges : Privileges) : Decidable (Grantable proc privileges) :=
  match h : privileges.groupGid with
  | none => .isTrue fun _ hgid => by rw [h] at hgid; cases hgid
  | some gid => decidable_of_iff (proc.euid = 0 ∨ gid ∈ proc.user.groups)
      ⟨fun hgrant _ hgid => by rw [h] at hgid; cases hgid; exact hgrant, fun hgrant => hgrant gid h⟩

theorem mayChgrp_own {gid : ℕ} {node : Node} (hown : node.uid = proc.euid) :
    proc.mayChgrp gid node = true ↔ proc.euid = 0 ∨ gid ∈ proc.user.groups := by
  simp [Process.mayChgrp, hown]

theorem mayChmod_own {node : Node} (hown : node.uid = proc.euid) : proc.mayChmod node = true := by
  simp [Process.mayChmod, hown]

/-- A directory that can be claimed is claimed, and left to its owner alone, if its group can be given. -/
theorem always_beginSecureDir (h : Claimable proc s dir) :
    Always (exec proc) (s.SameBut dir)
      (fun r s' => ∀ claimed, r = .ok claimed → claimed = true ∧ Grantable proc privileges ∧
        s'.node dir = some (managed proc privileges s dir DIR_SETUP_MODE))
      (beginSecureDir dir privileges) s := by
  have hself : s.SameBut dir s := .refl dir s
  refine always_andThen.mpr ((always_ask (s.createDirAll proc dir) fun _ => Iff.rfl).mpr
    ⟨hself, fun e => ⟨hself.fail _, fun _ h => by cases h⟩, fun _ s₁ hcreated => ?_⟩)
  obtain ⟨hsame₁, mode, hnode₁⟩ := createDirAll_claimable h hcreated
  refine ⟨hsame₁, always_andThen.mpr
    ((always_ask (s₁.symlinkMetadata dir) fun _ => Iff.rfl).mpr
      ⟨hsame₁, fun e => ⟨hsame₁.fail _, fun _ h => by cases h⟩, fun found s₂ hfound => ?_⟩)⟩
  obtain ⟨rfl, rfl⟩ := symlinkMetadata_eq_ok hnode₁ hfound
  refine ⟨hsame₁, always_andThen.mpr (always_tell.mpr ⟨hsame₁, fun env => ⟨hsame₁, ?_⟩⟩)⟩
  have hours : ¬((Kind.dir ≠ Kind.dir) ∨ proc.euid ≠ proc.euid) := by simp
  show Always _ _ _ (if (Kind.dir ≠ Kind.dir) ∨ proc.euid ≠ proc.euid then _ else _) s₂
  rw [if_neg hours]
  refine always_andThen.mpr (always_chmod.mpr
    ⟨hsame₁, fun e => ⟨hsame₁.fail _, fun _ h => by cases h⟩, fun _ s₃ hnarrowed => ?_⟩)
  obtain ⟨-, rfl⟩ := Kernel.modify_eq_ok_of_node hnode₁ hnarrowed
  have hsame₃ := hsame₁.put (some ⟨.dir, proc.euid, foundGid proc s dir, DIR_SETUP_MODE⟩)
  refine ⟨hsame₃, always_andThen.mpr (always_applyGroup hsame₃ (Kernel.node_put_self _ _ _)
    (fun gid e _ => ⟨hsame₃.fail _, fun _ h => by cases h⟩)
    (fun hgroup => ⟨hsame₃, fun claimed hclaimed => ?_⟩)
    fun gid hgroup hmay => ⟨hsame₃.put _, hsame₃.put _, fun claimed hclaimed => ?_⟩)⟩
  · cases hclaimed
    refine ⟨rfl, fun gid hgid => ?_, ?_⟩
    · rw [hgroup] at hgid
      cases hgid
    · rw [Kernel.node_put_self, managed, hgroup]
      rfl
  · cases hclaimed
    refine ⟨rfl, fun gid' hgid => ?_, ?_⟩
    · rw [hgroup] at hgid
      cases hgid
      exact (mayChgrp_own rfl).mp hmay
    · rw [Kernel.node_put_self, managed, hgroup]
      rfl

/-- A directory of somebody else's is declined, and nothing about it changes. -/
theorem always_beginSecureDir_declined {node : Node} (hnode : s.node dir = some node)
    (hforeign : node.kind ≠ .dir ∨ node.uid ≠ proc.euid) :
    Always (exec proc) s.Same (fun r _ => r ≠ .ok true) (beginSecureDir dir privileges) s := by
  have hself : s.Same s := .refl s
  refine always_andThen.mpr ((always_ask (s.createDirAll proc dir) fun _ => Iff.rfl).mpr
    ⟨hself, fun e => ⟨hself.fail _, fun h => by cases h⟩, fun _ s₁ hcreated => ?_⟩)
  have hsame : s₁ = s := by
    rw [Kernel.createDirAll, hnode] at hcreated
    split_ifs at hcreated
    · cases hcreated
      rfl
    · simp only at hcreated
      split at hcreated <;> cases hcreated <;> rfl
  subst hsame
  refine ⟨hself, always_andThen.mpr
    ((always_ask (s₁.symlinkMetadata dir) fun _ => Iff.rfl).mpr
      ⟨hself, fun e => ⟨hself.fail _, fun h => by cases h⟩, fun found s₂ hfound => ?_⟩)⟩
  obtain ⟨rfl, rfl⟩ := symlinkMetadata_eq_ok hnode hfound
  refine ⟨hself, always_andThen.mpr (always_tell.mpr ⟨hself, fun env => ⟨hself, ?_⟩⟩)⟩
  show Always _ _ _ (if found.kind ≠ .dir ∨ found.uid ≠ proc.euid then _ else _) s₂
  rw [if_pos hforeign]
  exact ⟨hself, fun h => by cases h⟩

/-- The directory as `secureDir` leaves it, if it reports one at all. -/
def prepared (proc : Process) (privileges : Privileges) (s : Kernel) (dir : PathBuf) : Option Node :=
  let ours :=
    if Grantable proc privileges then some (managed proc privileges s dir DIR_MODE) else none
  if dir.components = [] then none
  else
    match s.node dir with
    | none => ours
    | some node =>
        match node.kind with
        | .dir => if node.uid = proc.euid then ours else some node
        | .symlink => some node
        | .file | .socket _ => none

theorem prepared_of_claimable (h : Claimable proc s dir) : prepared proc privileges s dir =
    if Grantable proc privileges then some (managed proc privileges s dir DIR_MODE) else none := by
  unfold prepared
  rw [if_neg h.named]
  cases hnode : s.node dir with
  | none => rfl
  | some node =>
      obtain ⟨hkind, hown⟩ := h.own node hnode
      simp only [hkind, if_pos hown]

section Outcome

variable {I : Kernel → Prop}

variable {Q : Except Failure Bool → Kernel → Prop}

end Outcome

end Perms

end AlertU
