import AlertU.Perms

/-! Binding the control socket. The socket's directory stays with its owner alone until the socket has
its mode and its group; only then is it opened to the group. The result holds between any two system
calls, for every umask and whichever calls fail. -/

open FilePath Calls Posix Runs

namespace AlertU.SocketBind

open Procedure Perms

/-- The parents that are nobody's to re-permission: the working directory and the root. -/
def unclaimed (parent : PathBuf) : Prop :=
  parent.raw = "" ∨ parent.same ⟨"."⟩ ∨ parent.same ⟨"/"⟩

instance (parent : PathBuf) : Decidable (unclaimed parent) :=
  inferInstanceAs (Decidable (parent.raw = "" ∨ parent.same ⟨"."⟩ ∨ parent.same ⟨"/"⟩))

/-- Prepare the socket's parent directory, and report it back if it is ours. -/
def prepareParent (socketPath : PathBuf) (privileges : Privileges) : Procedure (Option PathBuf) :=
  match socketPath.parent with
  | none => pure none
  | some parent =>
      if unclaimed parent then pure none
      else do
        let ours ← withContext s!"preparing socket dir {parent.raw}" (beginSecureDir parent privileges)
        if ours then pure (some parent) else pure none

/-- Everything that must succeed after `bind`. -/
def finishSocket (socketPath : PathBuf) (ownedParent : Option PathBuf) (privileges : Privileges) :
    Procedure Unit := do
  chmod socketPath 0o660
  applyGroup socketPath privileges
  -- last, the directory is opened to the group
  match ownedParent with
  | some parent => withContext s!"setting mode on socket dir {parent.raw}" (finishSecureDir parent)
  | none => pure ()

/-- Remove a stale socket from a previous run. -/
def removeStale (socketPath : PathBuf) : Procedure Unit := do
  let found ← tell (.perform (Call.exists socketPath))
  if found then ask s!"removing stale socket {socketPath.raw}" (.perform (Call.removeFile socketPath))
  else pure ()

/-- Bind the control socket, replacing a stale one. -/
def bind (socketPath : PathBuf) (privileges : Privileges) : Procedure ℕ := do
  let ownedParent ← prepareParent socketPath privileges
  removeStale socketPath
  let listener ← ask s!"binding socket {socketPath.raw}" (.perform (Call.bind socketPath))
  match ← tell (finishSocket socketPath ownedParent privileges).run with
  | .ok () => pure listener
  | .error e => do
      let _ ← tell (.perform (Call.removeFile socketPath))
      throw e

/-- Socket removal on shutdown. -/
def cleanup (socketPath : PathBuf) : Prog Call Answer Unit := do
  let found ← .perform (Call.exists socketPath)
  if found then do
    let _ ← .perform (Call.removeFile socketPath)
    pure ()
  else pure ()

/-! ### Who can reach the socket -/

/-- The user can traverse the directory and write the socket. -/
def Reaches (s : Kernel) (parent socketPath : PathBuf) (who : User) : Prop :=
  ∃ dir socket, s.node parent = some dir ∧ s.node socketPath = some socket ∧
    dir.allows who .exec ∧ socket.allows who .write

/-- A socket that was bound after `s`, the listeners being numbered. -/
def Fresh (s s' : Kernel) (socketPath : PathBuf) : Prop :=
  ∃ node listener, s'.node socketPath = some node ∧ node.kind = .socket listener ∧
    s.listeners ≤ listener

variable {proc : Process} {privileges : Privileges} {s s' : Kernel} {socketPath parent : PathBuf}

/-- The directory is its owner's alone, in the group of the boundary. -/
def Narrow (proc : Process) (privileges : Privileges) (s : Kernel) (parent : PathBuf) : Prop :=
  ∃ gid, s.node parent = some ⟨.dir, proc.euid, gid, DIR_SETUP_MODE⟩ ∧
    ∀ g, privileges.groupGid = some g → gid = g

/-- The socket and the directory are as they are meant to stay. -/
def Final (proc : Process) (privileges : Privileges) (s : Kernel) (socketPath parent : PathBuf) : Prop :=
  ∃ gid gid' listener, s.node socketPath = some ⟨.socket listener, proc.euid, gid, 0o660⟩ ∧
    s.node parent = some ⟨.dir, proc.euid, gid', DIR_MODE⟩ ∧
    ∀ g, privileges.groupGid = some g → gid = g ∧ gid' = g

/-- Nobody but the owner and root can traverse a directory that is still being set up. -/
theorem allows_narrow {who : User} {gid : ℕ} (hroot : who.uid ≠ 0) (hother : who.uid ≠ proc.euid) :
    Node.allows ⟨.dir, proc.euid, gid, DIR_SETUP_MODE⟩ who .exec = false := by
  have hgroup : DIR_SETUP_MODE.getLsbD 3 = false := by decide
  have hothers : DIR_SETUP_MODE.getLsbD 0 = false := by decide
  rw [Node.allows_of_ne .exec hroot hother]
  split_ifs
  · exact hgroup
  · exact hothers

/-- A group member can use a file whose mode says so of the group and not of the others. -/
theorem mem_of_allows {who : User} {node : Node} {access : Access} (hroot : who.uid ≠ 0)
    (hother : who.uid ≠ node.uid) (hmode : node.mode.getLsbD access.bit = false)
    (h : node.allows who access = true) : node.gid ∈ who.groups := by
  rw [Node.allows_of_ne access hroot hother] at h
  by_contra hgroup
  rw [if_neg hgroup, hmode] at h
  cases h

/-! ### Between two calls -/

/-- Once a new socket exists, its directory is its owner's alone, or both are as they are to stay. -/
def Guarded (proc : Process) (privileges : Privileges) (s : Kernel) (socketPath parent : PathBuf)
    (s' : Kernel) : Prop :=
  Fresh s s' socketPath → Narrow proc privileges s' parent ∨ Final proc privileges s' socketPath parent

/-- Who reaches a new socket is a member of its group, and of that of its directory. -/
theorem Guarded.member_of_reaches {who : User} (h : Guarded proc privileges s socketPath parent s')
    (hfresh : Fresh s s' socketPath) (hroot : who.uid ≠ 0) (hother : who.uid ≠ proc.euid)
    (hreaches : Reaches s' parent socketPath who) :
    ∃ dir socket, s'.node parent = some dir ∧ s'.node socketPath = some socket ∧
      dir.gid ∈ who.groups ∧ socket.gid ∈ who.groups ∧
      ∀ g, privileges.groupGid = some g → dir.gid = g ∧ socket.gid = g := by
  obtain ⟨dir, socket, hdir, hsocket, htraverse, hwrite⟩ := hreaches
  rcases h hfresh with ⟨gid, hnarrow, -⟩ | ⟨gid, gid', listener, hsocket', hdir', hgroup⟩
  · cases hdir.symm.trans hnarrow
    rw [allows_narrow hroot hother] at htraverse
    cases htraverse
  · cases hdir.symm.trans hdir'
    cases hsocket.symm.trans hsocket'
    have hdirOthers : DIR_MODE.getLsbD Access.exec.bit = false := by decide
    have hsocketOthers : (0o660 : Mode).getLsbD Access.write.bit = false := by decide
    exact ⟨_, _, hdir, hsocket, mem_of_allows hroot hother hdirOthers htraverse,
      mem_of_allows hroot hother hsocketOthers hwrite, fun g hg => (hgroup g hg).symm⟩

/-- What holds when `bind` returns. An error after the socket was created leaves the directory narrow,
and the path unlinked unless that has failed. -/
def Outcome (proc : Process) (privileges : Privileges) (s : Kernel) (socketPath parent : PathBuf) :
    Except Failure ℕ → Kernel → Prop
  | .ok _, s' => Final proc privileges s' socketPath parent
  | .error _, s' => s.listeners < s'.listeners → Narrow proc privileges s' parent ∧
      (s'.node socketPath = none ∨ s'.failed.getLast? = some (.removeFile socketPath))

/-- The socket was bound, and its directory is its owner's alone. -/
structure Bound (proc : Process) (privileges : Privileges) (s : Kernel) (socketPath parent : PathBuf)
    (s' : Kernel) : Prop where
  narrow : Narrow proc privileges s' parent
  socket : ∃ gid mode listener, s'.node socketPath = some ⟨.socket listener, proc.euid, gid, mode⟩
  listeners : s.listeners < s'.listeners

namespace Bound

variable {node : Node}

theorem guarded (h : Bound proc privileges s socketPath parent s') :
    Guarded proc privileges s socketPath parent s' := fun _ => .inl h.narrow

theorem fail (h : Bound proc privileges s socketPath parent s') (k : Call) :
    Bound proc privileges s socketPath parent (s'.fail k) := ⟨h.narrow, h.socket, h.listeners⟩

/-- The socket is given another group or mode. -/
theorem put (h : Bound proc privileges s socketPath parent s')
    (hne : socketPath.components ≠ parent.components) (gid : ℕ) (mode : Mode) (listener : ℕ) :
    Bound proc privileges s socketPath parent
      (s'.put socketPath (some ⟨.socket listener, proc.euid, gid, mode⟩)) := by
  refine ⟨?_, ⟨gid, mode, listener, Kernel.node_put_self _ _ _⟩, h.listeners⟩
  rw [Narrow, Kernel.node_put_of_ne _ _ hne.symm]
  exact h.narrow

end Bound

/-- The last step of `finishSocket` opens the directory to the group. -/
theorem always_widen (hne : socketPath.components ≠ parent.components)
    (h : Bound proc privileges s socketPath parent s')
    (hready : ∃ gid listener, s'.node socketPath = some ⟨.socket listener, proc.euid, gid, 0o660⟩ ∧
      ∀ g, privileges.groupGid = some g → gid = g) :
    Always (exec proc) (Guarded proc privileges s socketPath parent)
      (fun r s₁ => match r with
        | .ok () => Final proc privileges s₁ socketPath parent
        | .error _ => Bound proc privileges s socketPath parent s₁)
      (withContext s!"setting mode on socket dir {parent.raw}" (finishSecureDir parent)) s' := by
  obtain ⟨gid, listener, hsocket, hgid⟩ := hready
  obtain ⟨gid', hdir, hgid'⟩ := h.narrow
  refine always_mapError.mpr (always_chmod.mpr
    ⟨h.guarded, fun e => ⟨(h.fail _).guarded, h.fail _⟩, fun _ s₁ hs₁ => ?_⟩)
  obtain ⟨-, rfl⟩ := Kernel.modify_eq_ok_of_node hdir hs₁
  have hfinal : Final proc privileges
      (s'.put parent (some ⟨.dir, proc.euid, gid', DIR_MODE⟩)) socketPath parent := by
    refine ⟨gid, gid', listener, ?_, Kernel.node_put_self _ _ _, fun g hg => ⟨hgid g hg, hgid' g hg⟩⟩
    rw [Kernel.node_put_of_ne _ _ hne]
    exact hsocket
  exact ⟨fun _ => .inr hfinal, hfinal⟩

/-- Configuring a socket that was bound: until the end nothing is opened, and in the end both have
their mode and their group. -/
theorem always_finishSocket (hne : socketPath.components ≠ parent.components)
    (h : Bound proc privileges s socketPath parent s') :
    Always (exec proc) (Guarded proc privileges s socketPath parent)
      (fun r s₁ => match r with
        | .ok () => Final proc privileges s₁ socketPath parent
        | .error _ => Bound proc privileges s socketPath parent s₁)
      (finishSocket socketPath (some parent) privileges) s' := by
  obtain ⟨gid, mode, listener, hsocket⟩ := h.socket
  refine always_andThen.mpr (always_chmod.mpr
    ⟨h.guarded, fun e => ⟨(h.fail _).guarded, h.fail _⟩, fun _ s₁ hs₁ => ?_⟩)
  obtain ⟨-, rfl⟩ := Kernel.modify_eq_ok_of_node hsocket hs₁
  have h₁ := h.put hne gid 0o660 listener
  have hnode₁ := Kernel.node_put_self s' socketPath (some ⟨.socket listener, proc.euid, gid, 0o660⟩)
  refine ⟨h₁.guarded, always_andThen.mpr (always_applyGroup h₁.guarded hnode₁
    (fun g e _ => ⟨(h₁.fail _).guarded, h₁.fail _⟩) (fun hgroup => ?_) fun g hgroup _ => ?_)⟩
  · refine always_widen hne h₁ ⟨gid, listener, hnode₁, fun g hg => ?_⟩
    rw [hgroup] at hg
    cases hg
  · have h₂ := h₁.put hne g 0o660 listener
    refine ⟨h₂.guarded, always_widen hne h₂ ⟨g, listener, Kernel.node_put_self _ _ _, fun g' hg => ?_⟩⟩
    rw [hgroup] at hg
    exact Option.some.inj hg

/-- The path of the socket while nothing has been bound there: unchanged, or removed. -/
structure Unbound (proc : Process) (privileges : Privileges) (s : Kernel) (socketPath parent : PathBuf)
    (s' : Kernel) : Prop where
  narrow : Narrow proc privileges s' parent
  listeners : s'.listeners = s.listeners
  old : s'.node socketPath = s.node socketPath ∨ s'.node socketPath = none

/-- The listeners of the sockets that exist are among those there have been. -/
def Numbered (s : Kernel) : Prop :=
  ∀ path node listener, s.nodes path = some node → node.kind = .socket listener → listener < s.listeners

theorem not_fresh (hnumbered : Numbered s)
    (h : s'.node socketPath = s.node socketPath ∨ s'.node socketPath = none) :
    ¬Fresh s s' socketPath := by
  rintro ⟨node, listener, hnode, hkind, hle⟩
  rcases h with h | h
  · rw [h] at hnode
    have := hnumbered _ node listener hnode hkind
    omega
  · rw [h] at hnode
    cases hnode

theorem Unbound.guarded (hnumbered : Numbered s) (h : Unbound proc privileges s socketPath parent s') :
    Guarded proc privileges s socketPath parent s' := fun hfresh =>
  absurd hfresh (not_fresh hnumbered h.old)

theorem Unbound.fail (h : Unbound proc privileges s socketPath parent s') (k : Call) :
    Unbound proc privileges s socketPath parent (s'.fail k) := ⟨h.narrow, h.listeners, h.old⟩

/-- Removing what is in the way keeps the directory and binds nothing. -/
theorem always_removeStale (hnumbered : Numbered s) (hne : socketPath.components ≠ parent.components)
    (h : Unbound proc privileges s socketPath parent s') :
    Always (exec proc) (Guarded proc privileges s socketPath parent)
      (fun _ => Unbound proc privileges s socketPath parent) (removeStale socketPath) s' := by
  have hguarded := h.guarded hnumbered
  refine always_andThen.mpr (always_tell.mpr ⟨hguarded, fun env => ⟨hguarded, ?_⟩⟩)
  generalize (exec proc s' (.exists socketPath) env).1 = found
  show Always _ _ _ (if found = true then _ else _) s'
  split_ifs
  · refine (always_ask (s'.removeFile socketPath) fun _ => Iff.rfl).mpr
      ⟨hguarded, fun e => ⟨(h.fail _).guarded hnumbered, h.fail _⟩, fun _ s₁ hs₁ => ?_⟩
    have hremoved : s₁ = s'.put socketPath none := by
      unfold Kernel.removeFile at hs₁
      split at hs₁
      · split_ifs at hs₁
        cases hs₁
        rfl
      · cases hs₁
    have h₁ : Unbound proc privileges s socketPath parent s₁ := by
      rw [hremoved]
      refine ⟨?_, h.listeners, .inr (Kernel.node_put_self _ _ _)⟩
      rw [Narrow, Kernel.node_put_of_ne _ _ hne.symm]
      exact h.narrow
    exact ⟨h₁.guarded hnumbered, h₁⟩
  · exact ⟨hguarded, h⟩

theorem bind_eq_ok {listener : ℕ} {s₁ : Kernel} (h : s'.bind proc socketPath = .ok (listener, s₁)) :
    ∃ gid mode, s₁ = { s'.put socketPath (some ⟨.socket listener, proc.euid, gid, mode⟩) with
      listeners := s'.listeners + 1 } := by
  unfold Kernel.bind at h
  split at h
  · cases h
  · cases h
  · cases h
    exact ⟨_, _, rfl⟩

/-- After a failure the socket is unlinked again, unless that fails too. -/
theorem always_unlink {e : Failure} (hne : socketPath.components ≠ parent.components)
    (h : Bound proc privileges s socketPath parent s') :
    Always (exec proc) (Guarded proc privileges s socketPath parent)
      (Outcome proc privileges s socketPath parent)
      (do let _ ← tell (.perform (Call.removeFile socketPath)); throw e : Procedure ℕ) s' := by
  refine always_andThen.mpr (always_tell.mpr ⟨h.guarded, fun env => ?_⟩)
  have hunlinked : ∃ s₁, (exec proc s' (.removeFile socketPath) env).2 = s₁ ∧
      Narrow proc privileges s₁ parent ∧
      (s₁.node socketPath = none ∨ s₁.failed.getLast? = some (.removeFile socketPath)) := by
    refine ⟨_, rfl, ?_⟩
    obtain ⟨gid, mode, listener, hsocket⟩ := h.socket
    have hremove : s'.removeFile socketPath = .ok ((), s'.put socketPath none) := by
      simp [Kernel.removeFile, hsocket]
    simp only [exec, Kernel.attempt, hremove]
    cases env.fault with
    | some e' => exact ⟨h.narrow, .inr List.getLast?_concat⟩
    | none =>
        refine ⟨?_, .inl (Kernel.node_put_self _ _ _)⟩
        show Narrow proc privileges (s'.put socketPath none) parent
        rw [Narrow, Kernel.node_put_of_ne _ _ hne.symm]
        exact h.narrow
  obtain ⟨s₁, hs₁, hnarrow, hpath⟩ := hunlinked
  rw [hs₁]
  exact ⟨fun _ => .inl hnarrow, fun _ => .inl hnarrow, fun _ => ⟨hnarrow, hpath⟩⟩

/-- From the removal of a stale socket on. -/
theorem always_bindPrepared (hnumbered : Numbered s) (hne : socketPath.components ≠ parent.components)
    (h : Unbound proc privileges s socketPath parent s') :
    Always (exec proc) (Guarded proc privileges s socketPath parent)
      (Outcome proc privileges s socketPath parent)
      (do
        removeStale socketPath
        let listener ← ask s!"binding socket {socketPath.raw}" (.perform (Call.bind socketPath))
        match ← tell (finishSocket socketPath (some parent) privileges).run with
        | .ok () => pure listener
        | .error e => do
            let _ ← tell (.perform (Call.removeFile socketPath))
            throw e : Procedure ℕ) s' := by
  have hnothing : ∀ {s₁ : Kernel} {e : Failure}, Unbound proc privileges s socketPath parent s₁ →
      Outcome proc privileges s socketPath parent (.error e) s₁ := by
    intro s₁ e h₁ hlt
    exact absurd hlt (by rw [h₁.listeners]; exact lt_irrefl _)
  refine always_andThen.mpr ((always_removeStale hnumbered hne h).mono (fun _ h => h) fun r s₁ h₁ => ?_)
  cases r with
  | error e => exact hnothing h₁
  | ok _ =>
      refine always_andThen.mpr ((always_ask (s₁.bind proc socketPath) fun _ => Iff.rfl).mpr
        ⟨h₁.guarded hnumbered, fun e => ⟨(h₁.fail _).guarded hnumbered, hnothing (h₁.fail _)⟩,
          fun listener s₂ hs₂ => ?_⟩)
      obtain ⟨gid, mode, rfl⟩ := bind_eq_ok hs₂
      have h₂ : Bound proc privileges s socketPath parent
          { s₁.put socketPath (some ⟨.socket listener, proc.euid, gid, mode⟩) with
            listeners := s₁.listeners + 1 } := by
        refine ⟨?_, ⟨gid, mode, listener, Kernel.node_put_self _ _ _⟩, ?_⟩
        · obtain ⟨gid', hdir, hgid'⟩ := h₁.narrow
          exact ⟨gid', (Kernel.node_put_of_ne _ _ hne.symm).trans hdir, hgid'⟩
        · show s.listeners < s₁.listeners + 1
          rw [h₁.listeners]
          exact Nat.lt_succ_self _
      refine ⟨h₂.guarded, always_andThen.mpr (always_tell.mpr
        ((always_finishSocket hne h₂).post.mono (fun _ h => h) fun r s₃ h₃ => ?_))⟩
      cases r with
      | ok _ => exact ⟨h₃.1, h₃.2⟩
      | error e => exact always_unlink hne h₃.2

/-- A parent that the daemon claims: none of its own to leave alone, and missing or its directory. -/
structure Claimed (proc : Process) (s : Kernel) (parent : PathBuf) : Prop where
  named : ¬unclaimed parent
  own : ∀ node, s.node parent = some node → node.kind = .dir ∧ node.uid = proc.euid

/-- A parent that is claimed is narrowed and reported back. -/
theorem always_prepareParent (hnumbered : Numbered s) (hparent : socketPath.parent = some parent)
    (h : Claimed proc s parent) :
    Always (exec proc) (Guarded proc privileges s socketPath parent)
      (fun r s' => match r with
        | .ok owned => owned = some parent ∧ Unbound proc privileges s socketPath parent s'
        | .error _ => s'.listeners = s.listeners)
      (prepareParent socketPath privileges) s := by
  have hne := parent_components_ne hparent
  have hclaimable : Claimable proc s parent :=
    ⟨fun hnil => h.named (.inl (raw_of_components_nil hnil)), h.own⟩
  have hguarded : ∀ s', s.SameBut parent s' → Guarded proc privileges s socketPath parent s' :=
    fun s' hsame hfresh => absurd hfresh (not_fresh hnumbered (.inl (hsame.node hne)))
  have hprepare : prepareParent socketPath privileges = (do
      let ours ← withContext s!"preparing socket dir {parent.raw}" (beginSecureDir parent privileges)
      if ours then pure (some parent) else pure none) := by
    rw [prepareParent, hparent]
    exact if_neg h.named
  rw [hprepare]
  refine always_andThen.mpr (always_mapError.mpr
    ((always_beginSecureDir hclaimable).post.mono hguarded fun r s' hr => ?_))
  obtain ⟨hsame, hclaimed⟩ := hr
  cases r with
  | error e => exact hsame.listeners
  | ok claimed =>
      obtain ⟨rfl, -, hnode⟩ := hclaimed claimed rfl
      refine ⟨hguarded s' hsame, rfl, ⟨_, hnode, fun g hg => ?_⟩, hsame.listeners,
        .inl (hsame.node hne)⟩
      rw [hg]
      rfl

theorem always_bind (hnumbered : Numbered s) (hparent : socketPath.parent = some parent)
    (h : Claimed proc s parent) :
    Always (exec proc) (Guarded proc privileges s socketPath parent)
      (Outcome proc privileges s socketPath parent) (bind socketPath privileges) s := by
  refine always_andThen.mpr
    ((always_prepareParent hnumbered hparent h).mono (fun _ h => h) fun r s' hr => ?_)
  cases r with
  | error e => exact fun hlt => absurd hlt (by rw [hr]; exact lt_irrefl _)
  | ok owned =>
      obtain ⟨rfl, hunbound⟩ := hr
      exact always_bindPrepared hnumbered (parent_components_ne hparent) hunbound

/-! ### A parent that is not claimed -/

section Foreign

variable {node : Node}

theorem prepareParent_foreign (hparent : socketPath.parent = some parent)
    (hnode : s.node parent = some node) (hforeign : node.kind ≠ .dir ∨ node.uid ≠ proc.euid) :
    Always (exec proc) s.Same (fun r _ => ∀ owned, r = .ok owned → owned = none)
      (prepareParent socketPath privileges) s := by
  rw [prepareParent, hparent]
  show Always _ _ _ (if unclaimed parent then _ else _) s
  split_ifs
  · refine ⟨.refl s, fun owned howned => ?_⟩
    cases howned
    rfl
  · refine always_andThen.mpr (always_mapError.mpr
      ((always_beginSecureDir_declined hnode hforeign).post.mono (fun _ h => h) fun r s' hr => ?_))
    obtain ⟨hsame, hdeclined⟩ := hr
    cases r with
    | error e => exact fun owned howned => by cases howned
    | ok ours =>
        cases ours with
        | true => exact absurd rfl hdeclined
        | false =>
            refine ⟨hsame, fun owned howned => ?_⟩
            cases howned
            rfl

theorem modify_other {may : Node → Bool} {f : Node → Node} {a : Unit}
    (hne : socketPath.components ≠ parent.components) (hnode : s.node parent = some node)
    (h : s.modify socketPath may f = .ok (a, s')) : s'.node parent = some node := by
  obtain ⟨socket, -, -, rfl⟩ := Kernel.modify_eq_ok h
  rw [Kernel.node_put_of_ne _ _ hne.symm]
  exact hnode

/-- Without a parent to open, `finishSocket` touches the socket alone. -/
theorem always_finishSocket_none (hne : socketPath.components ≠ parent.components)
    (hnode : s.node parent = some node) :
    Always (exec proc) (fun s' => s'.node parent = some node) (fun _ _ => True)
      (finishSocket socketPath none privileges) s := by
  refine always_andThen.mpr (always_chmod.mpr
    ⟨hnode, fun e => ⟨hnode, trivial⟩, fun _ s₁ hs₁ => ?_⟩)
  have h₁ := modify_other hne hnode hs₁
  refine ⟨h₁, always_andThen.mpr ?_⟩
  unfold applyGroup
  cases privileges.groupGid with
  | none => exact ⟨h₁, h₁, trivial⟩
  | some gid =>
      refine always_chgrp.mpr ⟨h₁, fun e => ⟨h₁, trivial⟩, fun _ s₂ hs₂ => ?_⟩
      have h₂ := modify_other hne h₁ hs₂
      exact ⟨h₂, h₂, trivial⟩

theorem removeFile_other (hne : socketPath.components ≠ parent.components) {a : Unit}
    (hnode : s.node parent = some node) (h : s.removeFile socketPath = .ok (a, s')) :
    s'.node parent = some node := by
  unfold Kernel.removeFile at h
  split at h
  · split_ifs at h
    cases h
    rw [Kernel.node_put_of_ne _ _ hne.symm]
    exact hnode
  · cases h

theorem always_removeStale_other (hne : socketPath.components ≠ parent.components)
    (hnode : s.node parent = some node) :
    Always (exec proc) (fun s' => s'.node parent = some node) (fun _ _ => True)
      (removeStale socketPath) s := by
  refine always_andThen.mpr (always_tell.mpr ⟨hnode, fun env => ⟨hnode, ?_⟩⟩)
  generalize (exec proc s (.exists socketPath) env).1 = found
  show Always _ _ _ (if found = true then _ else _) s
  split_ifs
  · refine (always_ask (s.removeFile socketPath) fun _ => Iff.rfl).mpr
      ⟨hnode, fun e => ⟨hnode, trivial⟩, fun _ s₁ hs₁ => ⟨removeFile_other hne hnode hs₁, trivial⟩⟩
  · exact ⟨hnode, trivial⟩

/-- `bind` leaves a parent alone that is a symbolic link or somebody else's. -/
theorem always_bind_foreign (hparent : socketPath.parent = some parent)
    (hnode : s.node parent = some node) (hforeign : node.kind ≠ .dir ∨ node.uid ≠ proc.euid) :
    Always (exec proc) (fun s' => s'.node parent = some node) (fun _ _ => True)
      (bind socketPath privileges) s := by
  have hne := parent_components_ne hparent
  refine always_andThen.mpr ((prepareParent_foreign hparent hnode hforeign).post.mono
    (fun s' hsame => (hsame.node parent).trans hnode) fun r s₁ hr => ?_)
  obtain ⟨hsame, howned⟩ := hr
  have h₁ : s₁.node parent = some node := (hsame.node parent).trans hnode
  cases r with
  | error e => trivial
  | ok owned =>
      obtain rfl := howned owned rfl
      refine always_andThen.mpr ((always_removeStale_other hne h₁).post.mono (fun _ h => h) ?_)
      rintro r s₂ ⟨h₂, -⟩
      cases r with
      | error e => trivial
      | ok _ =>
          refine always_andThen.mpr ((always_ask (s₂.bind proc socketPath) fun _ => Iff.rfl).mpr
            ⟨h₂, fun e => ⟨h₂, trivial⟩, fun listener s₃ hs₃ => ?_⟩)
          obtain ⟨gid, mode, rfl⟩ := bind_eq_ok hs₃
          have h₃ : Kernel.node { s₂.put socketPath (some ⟨.socket listener, proc.euid, gid, mode⟩) with
              listeners := s₂.listeners + 1 } parent = some node :=
            (Kernel.node_put_of_ne s₂ _ hne.symm).trans h₂
          refine ⟨h₃, always_andThen.mpr (always_tell.mpr
            ((always_finishSocket_none hne h₃).post.mono (fun _ h => h) ?_))⟩
          rintro r s₄ ⟨h₄, -⟩
          cases r with
          | ok _ => exact ⟨h₄, trivial⟩
          | error e =>
              refine always_andThen.mpr (always_tell.mpr ⟨h₄, fun env => ?_⟩)
              have h₅ : (exec proc s₄ (.removeFile socketPath) env).2.node parent = some node := by
                simp only [exec, Kernel.attempt]
                split
                · exact h₄
                · exact h₄
                · rename_i hremoved
                  exact removeFile_other hne h₄ hremoved
              exact ⟨h₅, h₅, trivial⟩

end Foreign

/-! ### The boundary of the socket -/

/-- Between any two system calls of `bind`, whatever the umask and whichever calls fail: a user who is
neither root nor the daemon's can reach a new socket only as a member of the groups of the socket and
of its directory, and of the given group if there is one. When `bind` returns, both have their modes and
that group; when it fails after the socket was created, the directory is the owner's alone and the path
is unlinked, unless that fails. A parent that is a link or somebody else's is never changed. -/
theorem bind_keeps_boundary (hnumbered : Numbered s) (hparent : socketPath.parent = some parent)
    {inputs : List Env} {c : Kernel × Procedure ℕ}
    (hrun : Run (step (exec proc)) (s, bind socketPath privileges) inputs c) :
    (Claimed proc s parent →
      (Fresh s c.1 socketPath → ∀ who : User, who.uid ≠ 0 → who.uid ≠ proc.euid →
        Reaches c.1 parent socketPath who →
        ∃ dir socket, c.1.node parent = some dir ∧ c.1.node socketPath = some socket ∧
          dir.gid ∈ who.groups ∧ socket.gid ∈ who.groups ∧
          ∀ g, privileges.groupGid = some g → dir.gid = g ∧ socket.gid = g) ∧
      (∀ listener, c.2 = .ret (.ok listener) → Final proc privileges c.1 socketPath parent) ∧
      ∀ e, c.2 = .ret (.error e) → s.listeners < c.1.listeners →
        Narrow proc privileges c.1 parent ∧
          (c.1.node socketPath = none ∨ c.1.failed.getLast? = some (.removeFile socketPath))) ∧
    ∀ node, s.node parent = some node → node.kind ≠ .dir ∨ node.uid ≠ proc.euid →
      c.1.node parent = some node := by
  constructor
  · intro hclaimed
    obtain ⟨hguarded, houtcome⟩ :=
      always_iff_run.mp (always_bind hnumbered hparent hclaimed) inputs c hrun
    exact ⟨fun hfresh _ hroot hother => hguarded.member_of_reaches hfresh hroot hother,
      fun listener hret => houtcome _ hret, fun e hret => houtcome _ hret⟩
  · intro node hnode hforeign
    exact (always_iff_run.mp (always_bind_foreign hparent hnode hforeign) inputs c hrun).1

section Bench

/-- A daemon with no umask at all that is in the group of the boundary, and an empty file system. -/
def looseDaemon : Process := ⟨1000, 1000, [7], 0⟩

def emptyKernel : Kernel := ⟨fun _ => none, 0, []⟩

/-- A call that is not made to fail. -/
def granted : Env := ⟨none, true, default, ""⟩

theorem bind_keeps_boundary_for_group : ∃ c : Kernel × Procedure ℕ,
    Run (step (exec looseDaemon)) (emptyKernel, bind ⟨"/run/alertu/alertu.sock"⟩ ⟨some 7⟩)
      (List.replicate 10 granted) c ∧
    Final looseDaemon ⟨some 7⟩ c.1 ⟨"/run/alertu/alertu.sock"⟩ ⟨"/run/alertu"⟩ := by
  obtain ⟨c, hrun, hret⟩ : ∃ c : Kernel × Procedure ℕ,
      Run (step (exec looseDaemon)) (emptyKernel, bind ⟨"/run/alertu/alertu.sock"⟩ ⟨some 7⟩)
        (List.replicate 10 granted) c ∧ c.2 = .ret (.ok 0) :=
    ⟨_, run_get (by decide +kernel), by rfl⟩
  have hboundary := bind_keeps_boundary (fun _ _ _ h => by cases h)
    (show PathBuf.parent ⟨"/run/alertu/alertu.sock"⟩ = some ⟨"/run/alertu"⟩ by decide +kernel) hrun
  have hclaimed : Claimed looseDaemon emptyKernel ⟨"/run/alertu"⟩ :=
    ⟨by decide +kernel, fun _ h => by cases h⟩
  exact ⟨c, hrun, (hboundary.1 hclaimed).2.1 0 hret⟩

end Bench

end AlertU.SocketBind
