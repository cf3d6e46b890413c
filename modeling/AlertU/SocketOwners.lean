import AlertU.SocketBind

/-! Several daemons that are configured with one socket path. Each binds the socket when it starts and
unlinks it when it is told to stop, by calls that interleave with those of the others; none of them asks
whose socket the path leads to. -/

open FilePath Calls Posix Runs

namespace AlertU

namespace SocketBind

open Procedure Perms

/-- The calls of `bind` and `cleanup`. -/
inductive OnSocket (socketPath : PathBuf) : Call → Prop
  | managing {parent : PathBuf} {k : Call} (hparent : socketPath.parent = some parent) :
      Managing parent k → OnSocket socketPath k
  | chmod (mode : Mode) : OnSocket socketPath (.chmod socketPath mode)
  | chgrp (gid : ℕ) : OnSocket socketPath (.chgrp socketPath gid)
  | exists : OnSocket socketPath (.exists socketPath)
  | removeFile : OnSocket socketPath (.removeFile socketPath)
  | bind : OnSocket socketPath (.bind socketPath)

theorem only_prepareParent (socketPath : PathBuf) (privileges : Privileges) :
    Prog.Only (OnSocket socketPath) (prepareParent socketPath privileges) := by
  unfold prepareParent
  cases hparent : socketPath.parent with
  | none => trivial
  | some parent =>
      show Prog.Only _ (if unclaimed parent then _ else _)
      split_ifs
      · trivial
      · refine Fallible.only_andThen (Fallible.only_mapError
          ((only_beginSecureDir parent privileges).mono fun _ => .managing hparent)) fun ours => ?_
        cases ours <;> trivial

/-- The directory that is reported back is the socket's. -/
theorem prepareParent_yields (socketPath : PathBuf) (privileges : Privileges) :
    Prog.Yields (fun r => ∀ owned, r = .ok owned → ∀ parent, owned = some parent →
      socketPath.parent = some parent) (prepareParent socketPath privileges) := by
  have hnone : ∀ owned, (.ok none : Except Failure (Option PathBuf)) = .ok owned →
      ∀ parent, owned = some parent → socketPath.parent = some parent := by
    intro owned howned parent hparent
    cases howned
    cases hparent
  unfold prepareParent
  cases hparent : socketPath.parent with
  | none =>
      rw [hparent] at hnone
      exact hnone
  | some parent =>
      show Prog.Yields _ (if unclaimed parent then _ else _)
      rw [hparent] at hnone
      split_ifs
      · exact hnone
      · refine Fallible.yields_andThen (fun e owned h => by cases h) fun ours => ?_
        cases ours with
        | false => exact hnone
        | true =>
            intro owned howned found hfound
            cases howned
            exact hfound

theorem only_finishSocket {socketPath : PathBuf} {ownedParent : Option PathBuf} (privileges : Privileges)
    (howned : ∀ parent, ownedParent = some parent → socketPath.parent = some parent) :
    Prog.Only (OnSocket socketPath) (finishSocket socketPath ownedParent privileges) := by
  refine Fallible.only_andThen (only_chmod (.chmod _)) fun _ => ?_
  refine Fallible.only_andThen (only_applyGroup .chgrp) fun _ => ?_
  cases ownedParent with
  | none => trivial
  | some parent =>
      exact Fallible.only_mapError (only_chmod (.managing (howned parent rfl) (.chmod _)))

theorem only_bind (socketPath : PathBuf) (privileges : Privileges) :
    Prog.Only (OnSocket socketPath) (bind socketPath privileges) := by
  have hremove : Prog.Only (OnSocket socketPath)
      (.perform (Call.removeFile socketPath) : Prog Call Answer _) := Prog.only_perform .removeFile
  refine Fallible.only_andThen_of (only_prepareParent socketPath privileges)
    (prepareParent_yields socketPath privileges) fun owned howned => ?_
  refine Fallible.only_andThen ?_ fun _ => ?_
  · refine Fallible.only_andThen (only_tell (Prog.only_perform .exists)) fun found => ?_
    cases found with
    | false => trivial
    | true => exact only_ask hremove
  refine Fallible.only_andThen (only_ask (Prog.only_perform .bind)) fun listener => ?_
  refine Fallible.only_andThen (only_tell (only_finishSocket privileges howned)) fun result => ?_
  cases result with
  | ok _ => trivial
  | error e => exact Fallible.only_andThen (only_tell hremove) fun _ => trivial

theorem only_cleanup (socketPath : PathBuf) : (cleanup socketPath).Only (OnSocket socketPath) := by
  refine Prog.only_bind (Prog.only_perform .exists) fun found => ?_
  cases found with
  | false => trivial
  | true => exact Prog.only_bind (Prog.only_perform .removeFile) fun _ => trivial

/-! ### The processes -/

/-- What a daemon process is at: it binds its socket, serves until it is told to stop, and cleans up. -/
inductive Phase where
  | starting (rest : Procedure ℕ)
  | serving
  | stopping (rest : Prog Call Answer Unit)
  | ended

/-- A process and the socket that it has bound and not unlinked. -/
structure Life where
  proc : Process
  phase : Phase
  listener : Option ℕ

/-- The end of a start: the daemon serves, or the error ends it. -/
def started : Procedure ℕ → Phase
  | .ret (.ok _) => .serving
  | .ret (.error _) => .ended
  | .call k next => .starting (.call k next)

def stopped : Prog Call Answer Unit → Phase
  | .ret () => .ended
  | .call k next => .stopping (.call k next)

/-- The call that a process makes next. -/
def Phase.next : Phase → Option Call
  | .starting (.call k _) => some k
  | .stopping (.call k _) => some k
  | _ => none

/-- The socket of a process after a call. -/
def held (listener : Option ℕ) : (k : Call) → Answer k → Option ℕ
  | .bind _, .ok l => some l
  | .removeFile _, .ok () => none
  | _, _ => listener

namespace Life

/-- The socket on which the process accepts connections, until it has unlinked it itself or ended. -/
def accepting (life : Life) : Option ℕ :=
  match life.phase with
  | .ended => none
  | _ => life.listener

/-- The next call of a process. -/
def advance (s : Kernel) (env : Env) (life : Life) : Option (Life × Kernel) :=
  match life.phase with
  | .starting (.call k next) =>
      let answer := exec life.proc s k env
      some (⟨life.proc, started (next answer.1), held life.listener k answer.1⟩, answer.2)
  | .stopping (.call k next) =>
      let answer := exec life.proc s k env
      some (⟨life.proc, stopped (next answer.1), held life.listener k answer.1⟩, answer.2)
  | _ => none

/-- What a process unlinks by its next call. -/
def unlinking (s : Kernel) (env : Env) (life : Life) : Option Kind :=
  match life.phase.next with
  | some (.removeFile path) =>
      if (exec life.proc s (.removeFile path) env).1 = .ok () then (s.node path).map (·.kind) else none
  | _ => none

end Life

/-- A file that was unlinked: by a process with a socket of its own or without, while others were
accepting. -/
structure Removal where
  own : Option ℕ
  kind : Kind
  served : List ℕ

/-- A process with a socket unlinks that one; a process that has none unlinks no socket in use. -/
def Removal.Proper (r : Removal) : Prop :=
  match r.own with
  | some listener => r.kind = .socket listener
  | none => ∀ listener ∈ r.served, r.kind ≠ .socket listener

/-! ### One call -/

variable {proc : Process} {s : Kernel} {socketPath : PathBuf} {k : Call} {env : Env}

theorem attempt_error {α : Type} {fault : Option Errno} {outcome : Except Errno (α × Kernel)} {e : Errno}
    (h : (s.attempt k fault outcome).1 = .error e) : (s.attempt k fault outcome).2 = s.fail k := by
  cases fault with
  | some e' => rfl
  | none =>
      cases outcome with
      | error e' => rfl
      | ok result => cases h

theorem attempt_ok {α : Type} {fault : Option Errno} {outcome : Except Errno (α × Kernel)} {a : α}
    (h : (s.attempt k fault outcome).1 = .ok a) :
    outcome = .ok (a, (s.attempt k fault outcome).2) := by
  cases fault with
  | some e' => cases h
  | none =>
      cases outcome with
      | error e' => cases h
      | ok result =>
          cases h
          rfl

/-- A call on another directory leaves the socket alone. -/
theorem exec_managing {parent : PathBuf} (hne : socketPath.components ≠ parent.components)
    (h : Managing parent k) : (exec proc s k env).2.node socketPath = s.node socketPath := by
  have hput : ∀ node, (s.put parent node).node socketPath = s.node socketPath :=
    fun node => Kernel.node_put_of_ne s node hne
  have hmodify : ∀ {may : Node → Bool} {f : Node → Node} {a : Unit} {s' : Kernel},
      s.modify parent may f = .ok (a, s') → s'.node socketPath = s.node socketPath := by
    intro may f a s' hs'
    obtain ⟨node, -, -, rfl⟩ := Kernel.modify_eq_ok hs'
    exact hput _
  cases h with
  | geteuid => rfl
  | createDirAll =>
      refine Kernel.attempt_state (P := fun s' => s'.node socketPath = s.node socketPath) rfl ?_
      intro _ s' hs'
      unfold Kernel.createDirAll at hs'
      split_ifs at hs'
      · cases hs'
        rfl
      · split at hs'
        · cases hs'
          exact hput _
        · split at hs' <;> cases hs' <;> rfl
  | symlinkMetadata =>
      refine Kernel.attempt_state (P := fun s' => s'.node socketPath = s.node socketPath) rfl ?_
      intro _ s' hs'
      unfold Kernel.symlinkMetadata at hs'
      split_ifs at hs'
      split at hs' <;> cases hs'
      rfl
  | chmod mode =>
      exact Kernel.attempt_state (P := fun s' => s'.node socketPath = s.node socketPath) rfl
        fun _ _ hs' => hmodify hs'
  | chgrp gid =>
      exact Kernel.attempt_state (P := fun s' => s'.node socketPath = s.node socketPath) rfl
        fun _ _ hs' => hmodify hs'

/-- A change of the owner, group or mode leaves the socket what it is. -/
theorem modify_kind {may : Node → Bool} {f : Node → Node} {a : Unit} {s' : Kernel}
    (h : s.modify socketPath may f = .ok (a, s')) (hf : ∀ node, (f node).kind = node.kind) :
    (s'.node socketPath).map (·.kind) = (s.node socketPath).map (·.kind) := by
  obtain ⟨node, hnode, -, rfl⟩ := Kernel.modify_eq_ok h
  rw [Kernel.node_put_self, hnode]
  exact congrArg some (hf node)

/-- A file that was unlinked was there, and is gone. -/
theorem exec_removeFile_ok (hok : (exec proc s (.removeFile socketPath) env).1 = .ok ()) :
    (s.node socketPath).isSome ∧
      (exec proc s (.removeFile socketPath) env).2.node socketPath = none := by
  have houtcome : s.removeFile socketPath =
      .ok ((), (exec proc s (.removeFile socketPath) env).2) := attempt_ok hok
  unfold Kernel.removeFile at houtcome
  split at houtcome
  · rename_i node hnode
    split_ifs at houtcome
    obtain ⟨-, hs'⟩ := Prod.mk.inj (Except.ok.inj houtcome)
    rw [hnode, ← hs']
    exact ⟨rfl, Kernel.node_put_self _ _ _⟩
  · cases houtcome

/-- A socket is bound where there was nothing. -/
theorem exec_bind_ok {l : ℕ} (hok : (exec proc s (.bind socketPath) env).1 = .ok l) :
    s.node socketPath = none ∧
      ((exec proc s (.bind socketPath) env).2.node socketPath).map (·.kind) = some (.socket l) := by
  have houtcome : s.bind proc socketPath =
      .ok (l, (exec proc s (.bind socketPath) env).2) := attempt_ok hok
  constructor
  · unfold Kernel.bind at houtcome
    split at houtcome
    · cases houtcome
    · cases houtcome
    · assumption
  · obtain ⟨gid, mode, hs'⟩ := bind_eq_ok houtcome
    rw [hs']
    exact congrArg _ (Kernel.node_put_self s socketPath _)

/-- What a call of `bind` or `cleanup` does to the socket: it unlinks it, or binds it where there was
none, or leaves it what it is. -/
theorem exec_cases (h : OnSocket socketPath k) (listener : Option ℕ) :
    (k = .removeFile socketPath ∧ (exec proc s (.removeFile socketPath) env).1 = .ok () ∧
      (s.node socketPath).isSome ∧ (exec proc s k env).2.node socketPath = none ∧
      held listener k (exec proc s k env).1 = none) ∨
    (∃ l, k = .bind socketPath ∧ s.node socketPath = none ∧
      ((exec proc s k env).2.node socketPath).map (·.kind) = some (.socket l) ∧
      held listener k (exec proc s k env).1 = some l) ∨
    (¬(k = .removeFile socketPath ∧ (exec proc s (.removeFile socketPath) env).1 = .ok ()) ∧
      ((exec proc s k env).2.node socketPath).map (·.kind) = (s.node socketPath).map (·.kind) ∧
      held listener k (exec proc s k env).1 = listener) := by
  cases h with
  | managing hparent h =>
      refine .inr (.inr ⟨?_, congrArg _ (exec_managing (parent_components_ne hparent) h), ?_⟩)
      · rintro ⟨rfl, -⟩
        cases h
      · cases h <;> rfl
  | chmod mode =>
      refine .inr (.inr ⟨(fun h => by cases h.1), ?_, rfl⟩)
      exact Kernel.attempt_state
        (P := fun s' => (s'.node socketPath).map (·.kind) = (s.node socketPath).map (·.kind)) rfl
        fun _ _ hs' => modify_kind hs' fun _ => rfl
  | chgrp gid =>
      refine .inr (.inr ⟨(fun h => by cases h.1), ?_, rfl⟩)
      exact Kernel.attempt_state
        (P := fun s' => (s'.node socketPath).map (·.kind) = (s.node socketPath).map (·.kind)) rfl
        fun _ _ hs' => modify_kind hs' fun _ => rfl
  | «exists» => exact .inr (.inr ⟨(fun h => by cases h.1), rfl, rfl⟩)
  | removeFile =>
      cases hremove : (exec proc s (.removeFile socketPath) env).1 with
      | error e =>
          refine .inr (.inr ⟨(fun h => by cases h.2), ?_, rfl⟩)
          have hsame : (exec proc s (.removeFile socketPath) env).2 =
              s.fail (.removeFile socketPath) := attempt_error hremove
          rw [hsame]
          rfl
      | ok _ =>
          obtain ⟨hsome, hgone⟩ := exec_removeFile_ok hremove
          exact .inl ⟨rfl, rfl, hsome, hgone, rfl⟩
  | bind =>
      cases hbind : (exec proc s (.bind socketPath) env).1 with
      | error e =>
          refine .inr (.inr ⟨(fun h => by cases h.1), ?_, rfl⟩)
          have hsame : (exec proc s (.bind socketPath) env).2 = s.fail (.bind socketPath) :=
            attempt_error hbind
          rw [hsame]
          rfl
      | ok l =>
          obtain ⟨hfree, hkind⟩ := exec_bind_ok hbind
          exact .inr (.inl ⟨l, rfl, hfree, hkind, rfl⟩)

/-- What is left of a process is made of calls of `bind` or `cleanup`. -/
def Phase.OnSocket (socketPath : PathBuf) : Phase → Prop
  | .starting rest => Prog.Only (SocketBind.OnSocket socketPath) rest
  | .stopping rest => Prog.Only (SocketBind.OnSocket socketPath) rest
  | .serving | .ended => True

theorem started_onSocket {rest : Procedure ℕ} (h : Prog.Only (OnSocket socketPath) rest) :
    (started rest).OnSocket socketPath := by
  cases rest with
  | ret r => cases r <;> trivial
  | call k next => exact h

theorem stopped_onSocket {rest : Prog Call Answer Unit} (h : rest.Only (OnSocket socketPath)) :
    (stopped rest).OnSocket socketPath := by
  cases rest with
  | ret r => trivial
  | call k next => exact h

theorem accepting_of_not_ended {life : Life} (h : life.phase ≠ .ended) :
    life.accepting = life.listener := by
  unfold Life.accepting
  split
  · rename_i hended
    exact absurd hended h
  · rfl

theorem listener_of_accepting {life : Life} {l : ℕ} (h : life.accepting = some l) :
    life.listener = some l := by
  unfold Life.accepting at h
  split at h
  · cases h
  · exact h

/-- A process that goes on makes the next call of `bind` or `cleanup`. -/
theorem advance_cases {life life' : Life} {files : Kernel} (honly : life.phase.OnSocket socketPath)
    (h : life.advance s env = some (life', files)) :
    ∃ k, life.phase ≠ .ended ∧ life.phase.next = some k ∧ OnSocket socketPath k ∧
      life'.phase.OnSocket socketPath ∧ files = (exec life.proc s k env).2 ∧
      life'.listener = held life.listener k (exec life.proc s k env).1 := by
  cases hphase : life.phase with
  | starting rest =>
      rw [hphase] at honly
      cases rest with
      | ret r =>
          simp only [Life.advance, hphase] at h
          cases h
      | call k next =>
          simp only [Life.advance, hphase] at h
          cases h
          exact ⟨k, by simp, rfl, honly.1, started_onSocket (honly.2 _), rfl, rfl⟩
  | serving =>
      simp only [Life.advance, hphase] at h
      cases h
  | stopping rest =>
      rw [hphase] at honly
      cases rest with
      | ret r =>
          simp only [Life.advance, hphase] at h
          cases h
      | call k next =>
          simp only [Life.advance, hphase] at h
          cases h
          exact ⟨k, by simp, rfl, honly.1, stopped_onSocket (honly.2 _), rfl, rfl⟩
  | ended =>
      simp only [Life.advance, hphase] at h
      cases h

/-- A process unlinks by a call of `remove_file` that succeeds. -/
theorem unlinking_eq {life : Life} (hnext : life.phase.next = some k) (honly : OnSocket socketPath k) :
    life.unlinking s env =
      if k = .removeFile socketPath ∧ (exec life.proc s (.removeFile socketPath) env).1 = .ok () then
        (s.node socketPath).map (·.kind) else none := by
  unfold Life.unlinking
  rw [hnext]
  cases honly with
  | removeFile => simp only [true_and]
  | managing hparent h => cases h <;> simp
  | _ => simp

end SocketBind

/-- The processes in the order of their start, the files, and the files unlinked so far. -/
structure Instances where
  files : Kernel
  lives : List SocketBind.Life
  removals : List SocketBind.Removal

namespace Instances

open SocketBind Procedure Perms

inductive Input where
  | launch (proc : Process) (privileges : Privileges)
  | call (n : ℕ) (env : Env)
  | signal (n : ℕ)
  | kill (n : ℕ)

/-- A daemon is started, makes a call, is told to stop, or is killed. -/
def step (socketPath : PathBuf) (s : Instances) : Input → Except Unit Instances
  | .launch proc privileges =>
      .ok { s with lives := s.lives ++ [⟨proc, started (bind socketPath privileges), none⟩] }
  | .call n env =>
      match s.lives[n]? with
      | none => .error ()
      | some life =>
          match life.advance s.files env with
          | none => .error ()
          | some (life', files) => .ok {
              files
              lives := s.lives.set n life'
              removals := s.removals ++ ((life.unlinking s.files env).map fun kind =>
                ⟨life.listener, kind, s.lives.filterMap Life.accepting⟩).toList }
  | .signal n =>
      match s.lives[n]? with
      | none => .error ()
      | some life =>
          match life.phase with
          | .serving => .ok { s with
              lives := s.lives.set n { life with phase := stopped (cleanup socketPath) } }
          | _ => .error ()
  | .kill n =>
      match s.lives[n]? with
      | none => .error ()
      | some life => .ok { s with lives := s.lives.set n { life with phase := .ended } }

def start (files : Kernel) : Instances := ⟨files, [], []⟩

/-- The path leads to every daemon that accepts connections. -/
def Leads (socketPath : PathBuf) (s : Instances) : Prop :=
  ∀ (n : ℕ) (life : Life) (listener : ℕ), s.lives[n]? = some life → life.accepting = some listener →
    (s.files.node socketPath).map (·.kind) = some (.socket listener)

/-- The path leads to every daemon that accepts connections, and nobody has unlinked another's socket. -/
structure Served (socketPath : PathBuf) (s : Instances) : Prop where
  leads : s.Leads socketPath
  proper : ∀ r ∈ s.removals, r.Proper

/-- A process unlinks the path only while no other accepts connections. -/
def UnlinksAlone (s : Instances) (input : Input) : Prop :=
  ∀ n env life, input = .call n env → s.lives[n]? = some life → life.unlinking s.files env ≠ none →
    ∀ (m : ℕ) (other : Life), n ≠ m → s.lives[m]? = some other → other.accepting = none

/-! ### One step -/

variable {socketPath : PathBuf} {s next : Instances} {input : Input}

/-- All that the processes still do is `bind` or `cleanup`. -/
def OnlySockets (socketPath : PathBuf) (s : Instances) : Prop :=
  ∀ life ∈ s.lives, life.phase.OnSocket socketPath

/-- One step: a process starts, makes its next call, is told to stop, or ends. -/
inductive Stepped (socketPath : PathBuf) (s : Instances) : Input → Instances → Prop
  | launched (proc : Process) (privileges : Privileges) : Stepped socketPath s (.launch proc privileges)
      { s with lives := s.lives ++ [⟨proc, started (bind socketPath privileges), none⟩] }
  | called {n : ℕ} {env : Env} {life life' : Life} {files : Kernel} (hlife : s.lives[n]? = some life)
      (hadvance : life.advance s.files env = some (life', files)) : Stepped socketPath s (.call n env)
        ⟨files, s.lives.set n life', s.removals ++ ((life.unlinking s.files env).map fun kind =>
          ⟨life.listener, kind, s.lives.filterMap Life.accepting⟩).toList⟩
  | signalled {n : ℕ} {life : Life} (hlife : s.lives[n]? = some life) (hphase : life.phase = .serving) :
      Stepped socketPath s (.signal n)
        { s with lives := s.lives.set n { life with phase := stopped (cleanup socketPath) } }
  | killed {n : ℕ} {life : Life} (hlife : s.lives[n]? = some life) : Stepped socketPath s (.kill n)
      { s with lives := s.lives.set n { life with phase := .ended } }

theorem step_cases (h : s.step socketPath input = .ok next) : Stepped socketPath s input next := by
  cases input with
  | launch proc privileges =>
      cases h
      exact .launched proc privileges
  | call n env =>
      simp only [step] at h
      split at h
      · cases h
      · rename_i life hlife
        split at h
        · cases h
        · rename_i hadvance
          cases h
          exact .called hlife hadvance
  | signal n =>
      simp only [step] at h
      split at h
      · cases h
      · rename_i life hlife
        split at h
        · rename_i hphase
          cases h
          exact .signalled hlife hphase
        · cases h
  | kill n =>
      simp only [step] at h
      split at h
      · cases h
      · rename_i life hlife
        cases h
        exact .killed hlife

/-- What a step does to the socket and to those who accept connections on it. -/
inductive Effect (socketPath : PathBuf) (s : Instances) (input : Input) (next : Instances) : Prop
  | quiet
      (fewer : ∀ (m : ℕ) (life' : Life) (l : ℕ), next.lives[m]? = some life' →
        life'.accepting = some l → ∃ life, s.lives[m]? = some life ∧ life.accepting = some l)
      (kind : (next.files.node socketPath).map (·.kind) = (s.files.node socketPath).map (·.kind))
      (removals : next.removals = s.removals) (alone : s.UnlinksAlone input)
  | unlink {n : ℕ} {env : Env} {life life' : Life} {kind : Kind} (hinput : input = .call n env)
      (hlife : s.lives[n]? = some life) (running : life.phase ≠ .ended)
      (unlinking : life.unlinking s.files env = some kind)
      (found : (s.files.node socketPath).map (·.kind) = some kind)
      (gone : next.files.node socketPath = none) (lives : next.lives = s.lives.set n life')
      (closed : life'.accepting = none)
      (removals : next.removals =
        s.removals ++ [⟨life.listener, kind, s.lives.filterMap Life.accepting⟩])
  | bind {n : ℕ} {life' : Life} {l : ℕ} (free : s.files.node socketPath = none)
      (kind : (next.files.node socketPath).map (·.kind) = some (.socket l))
      (lives : next.lives = s.lives.set n life') (listening : life'.listener = some l)
      (removals : next.removals = s.removals) (alone : s.UnlinksAlone input)

theorem onlySockets_start (files : Kernel) : (start files).OnlySockets socketPath :=
  fun _ hlife => by cases hlife

/-- A process that goes on with calls of `bind` or `cleanup`. -/
theorem onlySockets_set {files : Kernel} {removals : List Removal} {n : ℕ} {life : Life}
    (hinv : s.OnlySockets socketPath) (hlife : life.phase.OnSocket socketPath) :
    OnlySockets socketPath ⟨files, s.lives.set n life, removals⟩ := by
  intro other hother
  rcases List.mem_or_eq_of_mem_set hother with hother | rfl
  · exact hinv other hother
  · exact hlife

theorem onlySockets_step (hinv : s.OnlySockets socketPath) (h : s.step socketPath input = .ok next) :
    next.OnlySockets socketPath := by
  cases step_cases h with
  | launched proc privileges =>
      intro life hlife
      rcases List.mem_append.mp hlife with hlife | hlife
      · exact hinv life hlife
      · obtain rfl := List.mem_singleton.mp hlife
        exact started_onSocket (only_bind socketPath privileges)
  | called hlife hadvance =>
      obtain ⟨k, -, -, -, honly, -⟩ := advance_cases (hinv _ (List.mem_of_getElem? hlife)) hadvance
      exact onlySockets_set hinv honly
  | signalled hlife hphase => exact onlySockets_set hinv (stopped_onSocket (only_cleanup socketPath))
  | killed hlife => exact onlySockets_set hinv trivial

theorem effect_of_call {n : ℕ} {env : Env} {life life' : Life} {files : Kernel}
    (hinv : s.OnlySockets socketPath) (hlife : s.lives[n]? = some life)
    (hadvance : life.advance s.files env = some (life', files)) :
    Effect socketPath s (.call n env) ⟨files, s.lives.set n life',
      s.removals ++ ((life.unlinking s.files env).map fun kind =>
        ⟨life.listener, kind, s.lives.filterMap Life.accepting⟩).toList⟩ := by
  obtain ⟨k, hrunning, hnext, honly, -, rfl, hlistener⟩ :=
    advance_cases (hinv life (List.mem_of_getElem? hlife)) hadvance
  have hunlinking : life.unlinking s.files env = _ := unlinking_eq hnext honly
  have halone : life.unlinking s.files env = none → s.UnlinksAlone (.call n env) := by
    intro hnone n' env' other hinput hother hunlinks
    cases hinput
    cases hlife.symm.trans hother
    exact absurd hnone hunlinks
  rcases exec_cases honly life.listener with ⟨hk, hok, hsome, hgone, hheld⟩ |
    ⟨l, hk, hfree, hkind, hheld⟩ | ⟨hnot, hkind, hheld⟩
  · obtain ⟨node, hnode⟩ := Option.isSome_iff_exists.mp hsome
    rw [if_pos ⟨hk, hok⟩, hnode] at hunlinking
    have hfound : (s.files.node socketPath).map (·.kind) = some node.kind := by
      rw [hnode]
      rfl
    refine .unlink rfl hlife hrunning hunlinking hfound hgone rfl ?_ ?_
    · cases haccepting : life'.accepting with
      | none => rfl
      | some l =>
          have := listener_of_accepting haccepting
          rw [hlistener, hheld] at this
          cases this
    · rw [hunlinking]
      rfl
  · have hnone : life.unlinking s.files env = none := by
      rw [hunlinking, hk]
      exact if_neg fun h => by cases h.1
    refine .bind hfree hkind rfl (hlistener.trans hheld) ?_ (halone hnone)
    rw [hnone]
    exact List.append_nil _
  · have hnone : life.unlinking s.files env = none := hunlinking.trans (if_neg hnot)
    refine .quiet (fun m other l hother hl => ?_) hkind ?_ (halone hnone)
    · rcases getElem?_set_cases hother with ⟨rfl, rfl⟩ | ⟨-, hother⟩
      · refine ⟨life, hlife, ?_⟩
        rw [accepting_of_not_ended hrunning, ← hheld, ← hlistener]
        exact listener_of_accepting hl
      · exact ⟨other, hother, hl⟩
    · rw [hnone]
      exact List.append_nil _

theorem effect_of_step (hinv : s.OnlySockets socketPath) (h : s.step socketPath input = .ok next) :
    Effect socketPath s input next := by
  cases step_cases h with
  | launched proc privileges =>
      refine .quiet (fun m life' l hlife' hl => ?_) rfl rfl (fun _ _ _ hinput => by cases hinput)
      by_cases hm : m < s.lives.length
      · rw [List.getElem?_append_left hm] at hlife'
        exact ⟨life', hlife', hl⟩
      · rw [List.getElem?_append_right (Nat.le_of_not_lt hm)] at hlife'
        obtain rfl := List.mem_singleton.mp (List.mem_of_getElem? hlife')
        cases listener_of_accepting hl
  | called hlife hadvance => exact effect_of_call hinv hlife hadvance
  | signalled hlife hphase =>
      refine .quiet (fun m life' l hlife' hl => ?_) rfl rfl (fun _ _ _ hinput => by cases hinput)
      rcases getElem?_set_cases hlife' with ⟨rfl, rfl⟩ | ⟨-, hlife'⟩
      · have hlistener := listener_of_accepting hl
        refine ⟨_, hlife, ?_⟩
        rw [accepting_of_not_ended (by rw [hphase]; simp)]
        exact hlistener
      · exact ⟨life', hlife', hl⟩
  | killed hlife =>
      refine .quiet (fun m life' l hlife' hl => ?_) rfl rfl (fun _ _ _ hinput => by cases hinput)
      rcases getElem?_set_cases hlife' with ⟨rfl, rfl⟩ | ⟨-, hlife'⟩
      · cases hl
      · exact ⟨life', hlife', hl⟩

/-- A process that unlinks the path while no other accepts connections unlinks its own socket, or one
that nobody uses. -/
theorem proper_of_alone {n : ℕ} {life : Life} {kind : Kind} (hserved : s.Served socketPath)
    (hlife : s.lives[n]? = some life) (running : life.phase ≠ .ended)
    (found : (s.files.node socketPath).map (·.kind) = some kind)
    (hothers : ∀ (m : ℕ) (other : Life), n ≠ m → s.lives[m]? = some other → other.accepting = none) :
    Removal.Proper ⟨life.listener, kind, s.lives.filterMap Life.accepting⟩ := by
  have haccepting := accepting_of_not_ended running
  unfold Removal.Proper
  cases hlistener : life.listener with
  | some l =>
      have := hserved.leads n life l hlife (haccepting.trans hlistener)
      exact Option.some.inj (found.symm.trans this)
  | none =>
      intro l hl
      obtain ⟨other, hother, hl⟩ := List.mem_filterMap.mp hl
      obtain ⟨m, hm⟩ := List.getElem?_of_mem hother
      by_cases hne : n = m
      · subst hne
        cases hlife.symm.trans hm
        rw [haccepting, hlistener] at hl
        cases hl
      · rw [hothers m other hne hm] at hl
        cases hl

/-- A step keeps the path leading to everyone who accepts connections, and unlinks nobody else's socket,
exactly if it unlinks the path only while nobody else accepts. -/
theorem unlinksAlone_iff (hserved : s.Served socketPath) (h : Effect socketPath s input next) :
    s.UnlinksAlone input ↔ next.Served socketPath := by
  cases h with
  | quiet fewer kind removals alone =>
      refine iff_of_true alone ⟨fun m life' l hlife' hl => ?_, by rw [removals]; exact hserved.proper⟩
      obtain ⟨life, hlife, hl⟩ := fewer m life' l hlife' hl
      rw [kind]
      exact hserved.leads m life l hlife hl
  | @bind n life' l free kind lives listening removals alone =>
      refine iff_of_true alone ⟨fun m other l' hother hl' => ?_, by rw [removals]; exact hserved.proper⟩
      rw [lives] at hother
      rcases getElem?_set_cases hother with ⟨rfl, rfl⟩ | ⟨-, hother⟩
      · cases listening.symm.trans (listener_of_accepting hl')
        exact kind
      · -- whoever else accepted would have had the path
        have := hserved.leads m other l' hother hl'
        rw [free] at this
        cases this
  | @unlink n env life life' kind hinput hlife running unlinking found gone lives closed removals =>
      constructor
      · intro halone
        have hothers := halone n env life hinput hlife (by rw [unlinking]; simp)
        refine ⟨fun m other l hother hl => ?_, fun r hr => ?_⟩
        · rw [lives] at hother
          rcases getElem?_set_cases hother with ⟨rfl, rfl⟩ | ⟨hne, hother⟩
          · rw [closed] at hl
            cases hl
          · rw [hothers m other hne hother] at hl
            cases hl
        · rw [removals] at hr
          rcases List.mem_append.mp hr with hr | hr
          · exact hserved.proper r hr
          · obtain rfl := List.mem_singleton.mp hr
            exact proper_of_alone hserved hlife running found hothers
      · intro hnext n' env' life'' hinput' hlife'' hunlinks m other hne hother
        cases hinput.symm.trans hinput'
        cases hl : other.accepting with
        | none => rfl
        | some l =>
            have := hnext.leads m other l (by rw [lives, List.getElem?_set_ne hne]; exact hother) hl
            rw [gone] at this
            cases this

theorem served_start (files : Kernel) : (start files).Served socketPath :=
  ⟨fun _ _ _ hlife => (by cases hlife), fun _ hr => by cases hr⟩

/-- In every run of daemons on one socket path, whatever they find there, however their calls interleave
and whichever of these fail: the path leads to every daemon that accepts connections, and none unlinks
what is not its own or what another serves, as long as each of them unlinks the path only while no other
accepts connections, and only that long. -/
theorem served_iff_unlinksAlone {files : Kernel} {inputs : List Input}
    (hrun : Run (step socketPath) (start files) inputs s) :
    RunIf (step socketPath) UnlinksAlone (start files) inputs s ↔
      Throughout (step socketPath) (start files) inputs (Served socketPath) :=
  runIf_iff_throughout (onlySockets_start files) (served_start files)
    (fun _ _ _ hinv h => onlySockets_step hinv h)
    (fun _ _ _ hinv hserved h => unlinksAlone_iff hserved (effect_of_step hinv h)) hrun

section Bench

def controlSocket : PathBuf := ⟨"/run/alertu/alertu.sock"⟩

/-- A daemon starts and binds its socket, and while it serves a second one does the same. -/
def twoStarts : List Input :=
  .launch looseDaemon ⟨none⟩ :: List.replicate 8 (.call 0 granted) ++
    .launch looseDaemon ⟨none⟩ :: List.replicate 9 (.call 1 granted)

/-- The first daemon goes on serving, and the path leads to the second. -/
theorem twoStarts_run : ∃ s, Run (step controlSocket) (start emptyKernel) twoStarts s ∧
    ¬s.Leads controlSocket := by
  obtain ⟨s, hrun, hfirst, hkind⟩ : ∃ s,
      Run (step controlSocket) (start emptyKernel) twoStarts s ∧
      s.lives[0]?.map Life.accepting = some (some 0) ∧
      (s.files.node controlSocket).map (·.kind) = some (.socket 1) :=
    ⟨_, run_get (by decide +kernel), by decide +kernel, by decide +kernel⟩
  obtain ⟨life, hlife, haccepting⟩ := Option.map_eq_some_iff.mp hfirst
  refine ⟨s, hrun, fun hleads => ?_⟩
  have := hleads 0 life 0 hlife haccepting
  rw [hkind] at this
  cases this

theorem served_iff_unlinksAlone_twice : ∃ s,
    Run (step controlSocket) (start emptyKernel) twoStarts s ∧
    ¬RunIf (step controlSocket) UnlinksAlone (start emptyKernel) twoStarts s := by
  obtain ⟨s, hrun, hnot⟩ := twoStarts_run
  exact ⟨s, hrun, fun hguarded =>
    hnot (((served_iff_unlinksAlone hrun).mp hguarded).last hrun).leads⟩

/-- A second daemon takes the socket of one that is serving for a stale one. -/
theorem second_start_takes_socket : ¬∀ (socketPath : PathBuf) (files : Kernel) (inputs : List Input)
    (s : Instances), Run (step socketPath) (start files) inputs s → s.Served socketPath := by
  intro h
  obtain ⟨s, hrun, hnot⟩ := twoStarts_run
  exact hnot (h _ _ _ s hrun).leads

end Bench

end Instances

end AlertU
