import AlertU.Snapshot

/-! Who can read a still while it is being captured. The tool writes into a new file, with its umask and
in the group that the directory gives it, or into a file that it finds. Until it is secured, a still is
as private as that file and the directory are. -/

open FilePath Calls Posix Calendar Runs

namespace AlertU.Snapshot

open Procedure Perms

/-- A user whom the boundary of the stills is to keep out. -/
structure Outsider (proc : Process) (privileges : Privileges) (who : User) : Prop where
  notRoot : who.uid ≠ 0
  notDaemon : who.uid ≠ proc.euid
  notMember : privileges.groupGid.getD proc.egid ∉ who.groups

/-- What the tool creates in a directory. -/
def created (proc : Process) (d : Node) : Node :=
  ⟨.file, proc.euid, Kernel.newGid proc (some d), 0o666 &&& ~~~proc.umask⟩

/-- The file that the tool writes a still into: one that it finds, or a new one. -/
def target (proc : Process) (s : Kernel) (d : Node) (still : PathBuf) : Option Node :=
  match s.node still, Kernel.cannotCreate proc (some d) with
  | some file, _ =>
      match file.kind with
      | .file | .symlink => if file.allows proc.user .write then some file else none
      | .dir | .socket _ => none
  | none, some _ => none
  | none, none => some (created proc d)

/-- The user cannot read the file, nor if it gets the mode of a still. -/
def Hidden (proc : Process) (file : Node) (who : User) : Prop :=
  file.allows who .read = false ∧
    (proc.mayChmod file → who.uid ≠ file.uid ∧ file.gid ∉ who.groups)

/-- The directory as it is prepared keeps the stills from outsiders: whatever the tool writes into is
hidden from those who can traverse it. -/
def Sheltered (proc : Process) (privileges : Privileges) (s : Kernel) (cfg : Config) : Prop :=
  ∀ d, prepared proc privileges s cfg.snapshotDir = some d →
    ∀ now file, target proc s d (outPath cfg now) = some file →
      ∀ who, Outsider proc privileges who → d.allows who .exec → Hidden proc file who

/-- A new file is hidden from those outside its group if the umask withholds it from others. -/
theorem hidden_created_iff {proc : Process} {privileges : Privileges} {d : Node} {who : User}
    (hout : Outsider proc privileges who) : Hidden proc (created proc d) who ↔
      Kernel.newGid proc (some d) ∉ who.groups ∧ proc.umask.getLsbD Access.read.bit = true := by
  have hmay : proc.mayChmod (created proc d) = true := mayChmod_own rfl
  have hothers : (created proc d).mode.getLsbD Access.read.bit = !proc.umask.getLsbD Access.read.bit := by
    have hread : (0o666 : Mode).getLsbD 2 = true := by decide
    show ((0o666 : Mode) &&& ~~~proc.umask).getLsbD 2 = _
    rw [BitVec.getLsbD_and, BitVec.getLsbD_not, hread]
    rfl
  have hallows := @Node.allows_of_ne (created proc d) who .read hout.notRoot hout.notDaemon
  constructor
  · rintro ⟨hread, hgroup⟩
    have hgroup := (hgroup hmay).2
    rw [hallows, if_neg hgroup, hothers] at hread
    exact ⟨hgroup, by simpa using hread⟩
  · rintro ⟨hgroup, hmask⟩
    refine ⟨?_, fun _ => ⟨hout.notDaemon, hgroup⟩⟩
    have hgroup' : (created proc d).gid ∉ who.groups := hgroup
    rw [hallows, if_neg hgroup', hothers, hmask]
    rfl

/-! ### One still -/

variable {proc : Process} {privileges : Privileges} {s s' : Kernel} {cfg : Config} {now : Tm}
  {d file : Node} {t : Trace}

/-- The directory is as it was prepared, and the still is a file in it. -/
structure Kept (cfg : Config) (now : Tm) (d file : Node) (s : Kernel) : Prop where
  dir : s.node cfg.snapshotDir = some d
  still : s.node (outPath cfg now) = some file

theorem Kept.fail (h : Kept cfg now d file s) (k : Call) : Kept cfg now d file (s.fail k) :=
  ⟨h.dir, h.still⟩

/-- A capture that has written nothing, or its still into its target. -/
def Written (proc : Process) (s : Kernel) (cfg : Config) (now : Tm) (d : Node) (c : Kernel × Trace) :
    Prop :=
  c.2.written = [] ∨ c.2.written = [outPath cfg now] ∧
    ∃ file, target proc s d (outPath cfg now) = some file ∧ Kept cfg now d file c.1

theorem Written.fail (h : Written proc s cfg now d (s', t)) (k : Call) :
    Written proc s cfg now d (s'.fail k, t) := by
  rcases h with hnone | ⟨hone, file, hfile, hkept⟩
  · exact .inl hnone
  · exact .inr ⟨hone, file, hfile, hkept.fail k⟩

/-- A directory that the daemon manages under the boundary's group shelters its stills. -/
theorem sheltered_of_claimable {gid : ℕ} (h : Claimable proc s cfg.snapshotDir)
    (hgroup : privileges.groupGid = some gid) : Sheltered proc privileges s cfg := by
  intro d hprepared now file _ who hout hexec
  rw [prepared_of_claimable h] at hprepared
  split_ifs at hprepared
  cases hprepared
  have hmember := hout.notMember
  rw [hgroup, Option.getD_some] at hmember
  have hothers : DIR_MODE.getLsbD Access.exec.bit = false := by decide
  rw [managed, Node.allows_of_ne .exec hout.notRoot hout.notDaemon, hgroup, Option.getD_some,
    if_neg hmember, hothers] at hexec
  cases hexec

section Bench

end Bench

end AlertU.Snapshot
