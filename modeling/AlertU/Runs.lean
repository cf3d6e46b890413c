import Mathlib.Data.List.Induction

/-! Runs of a partial step function. A step consumes one input and either yields the next state or
stops the run with an error; whatever is not determined by the state (the next message, the answer
of another process, the order in which two tasks go on) is part of the input. `RunIf` are the runs
whose steps all satisfy a guard, `Run` those without one, and `List.foldlM` executes them. -/

namespace Runs

variable {σ ι ε : Type*} {step : σ → ι → Except ε σ}

/-- The states that `inputs` lead to from `start`, when every step satisfies `guard`. -/
inductive RunIf (step : σ → ι → Except ε σ) (guard : σ → ι → Prop) (start : σ) :
    List ι → σ → Prop
  | nil : RunIf step guard start [] start
  | snoc {inputs : List ι} {s next : σ} {input : ι} :
      RunIf step guard start inputs s → guard s input → step s input = .ok next →
        RunIf step guard start (inputs ++ [input]) next

/-- The runs of `step`, with no condition on their steps. -/
abbrev Run (step : σ → ι → Except ε σ) : σ → List ι → σ → Prop :=
  RunIf step fun _ _ => True

variable {guard : σ → ι → Prop} {start s : σ} {inputs : List ι}

/-- What holds at the start and is preserved by every guarded step holds wherever a run gets. -/
theorem RunIf.invariant {Inv : σ → Prop} (hrun : RunIf step guard start inputs s)
    (hstart : Inv start)
    (hstep : ∀ s input next, Inv s → guard s input → step s input = .ok next → Inv next) :
    Inv s := by
  induction hrun with
  | nil => exact hstart
  | snoc _ hguard hnext ih => exact hstep _ _ _ ih hguard hnext

theorem RunIf.weaken {guard' : σ → ι → Prop} (hrun : RunIf step guard start inputs s)
    (hguard : ∀ s input, guard s input → guard' s input) : RunIf step guard' start inputs s := by
  induction hrun with
  | nil => exact .nil
  | snoc _ hg hnext ih => exact .snoc ih (hguard _ _ hg) hnext

theorem RunIf.trans {middle : σ} {more : List ι} (hfirst : RunIf step guard start inputs middle)
    (hsecond : RunIf step guard middle more s) : RunIf step guard start (inputs ++ more) s := by
  induction hsecond with
  | nil =>
      rw [List.append_nil]
      exact hfirst
  | snoc _ hg hnext ih =>
      rw [← List.append_assoc]
      exact .snoc ih hg hnext

theorem foldlM_snoc (start : σ) (inputs : List ι) (input : ι) :
    (inputs ++ [input]).foldlM step start =
      (inputs.foldlM step start).bind fun s => step s input := by
  rw [List.foldlM_append]
  cases hfold : inputs.foldlM step start with
  | error e => rfl
  | ok s =>
      show step s input >>= pure = step s input
      exact bind_pure _

/-- Folding the step function over the inputs computes exactly the runs. -/
theorem run_iff_foldlM : Run step start inputs s ↔ inputs.foldlM step start = .ok s := by
  constructor
  · intro hrun
    induction hrun with
    | nil => rfl
    | snoc _ _ hnext ih =>
        rw [foldlM_snoc, ih]
        exact hnext
  · induction inputs using List.reverseRecOn generalizing s with
    | nil =>
        intro hfold
        cases hfold
        exact .nil
    | append_singleton inputs input ih =>
        intro hfold
        rw [foldlM_snoc] at hfold
        cases hearlier : inputs.foldlM step start with
        | error e =>
            rw [hearlier] at hfold
            cases hfold
        | ok s' =>
            rw [hearlier] at hfold
            exact .snoc (ih hearlier) trivial hfold

theorem eq_ok_get {result : Except ε σ} (h : result.toOption.isSome) :
    result = .ok (result.toOption.get h) := by
  cases result with
  | error e => cases h
  | ok s => rfl

/-- The run of an execution that does not fail. -/
theorem run_get (h : (inputs.foldlM step start).toOption.isSome) :
    Run step start inputs ((inputs.foldlM step start).toOption.get h) := by
  rw [run_iff_foldlM]
  exact eq_ok_get h

/-- The run of an execution that ends where `q` holds. -/
theorem exists_run {q : σ → Bool} (h : (inputs.foldlM step start).toOption.any q) :
    ∃ s, Run step start inputs s ∧ q s := by
  obtain ⟨s, hs, hq⟩ := (Option.any_eq_true _ _).mp h
  refine ⟨s, run_iff_foldlM.mpr ?_, hq⟩
  cases hfold : inputs.foldlM step start with
  | error e =>
      rw [hfold] at hs
      cases hs
  | ok s' =>
      rw [hfold] at hs
      cases hs
      rfl

theorem run_cons_iff {input : ι} :
    Run step start (input :: inputs) s ↔
      ∃ next, step start input = .ok next ∧ Run step next inputs s := by
  rw [run_iff_foldlM, List.foldlM_cons]
  cases hfirst : step start input with
  | error e =>
      constructor
      · intro h
        cases h
      · rintro ⟨next, hnext, -⟩
        cases hnext
  | ok next =>
      show inputs.foldlM step next = .ok s ↔ _
      rw [← run_iff_foldlM]
      constructor
      · exact fun h => ⟨next, rfl, h⟩
      · rintro ⟨next', hnext, h⟩
        cases hnext
        exact h

/-- A run fails at its first step, or after it. -/
theorem fails_cons_iff {first : ι} {rest : List ι} {e : ε} :
    (∃ before input after s, first :: rest = before ++ input :: after ∧
        Run step start before s ∧ step s input = .error e) ↔
      step start first = .error e ∨ ∃ next, step start first = .ok next ∧
        ∃ before input after s, rest = before ++ input :: after ∧
          Run step next before s ∧ step s input = .error e := by
  constructor
  · rintro ⟨before, input, after, s, hinputs, hrun, herror⟩
    cases before with
    | nil =>
        obtain ⟨rfl, rfl⟩ := List.cons.inj hinputs
        rw [run_iff_foldlM] at hrun
        cases hrun
        exact .inl herror
    | cons first' before =>
        obtain ⟨rfl, rfl⟩ := List.cons.inj hinputs
        obtain ⟨next, hnext, hrun⟩ := run_cons_iff.mp hrun
        exact .inr ⟨next, hnext, before, input, after, s, rfl, hrun, herror⟩
  · rintro (herror | ⟨next, hnext, before, input, after, s, rfl, hrun, herror⟩)
    · exact ⟨[], first, rest, start, rfl, .nil, herror⟩
    · exact ⟨first :: before, input, after, s, rfl, run_cons_iff.mpr ⟨next, hnext, hrun⟩, herror⟩

/-- An execution fails with `e` exactly when some run of its inputs reaches a state where the next
step fails with `e`. -/
theorem foldlM_eq_error_iff {e : ε} :
    inputs.foldlM step start = .error e ↔
      ∃ before input after s, inputs = before ++ input :: after ∧
        Run step start before s ∧ step s input = .error e := by
  induction inputs generalizing start with
  | nil =>
      constructor
      · intro hfold
        cases hfold
      · rintro ⟨before, input, after, s, hinputs, -, -⟩
        cases before <;> cases hinputs
  | cons first rest ih =>
      rw [List.foldlM_cons, fails_cons_iff]
      cases hfirst : step start first with
      | error e' =>
          constructor
          · intro hfold
            cases hfold
            exact .inl rfl
          · rintro (herror | ⟨next, hnext, -⟩)
            · cases herror
              rfl
            · cases hnext
      | ok next =>
          show List.foldlM step next rest = .error e ↔ _
          rw [ih]
          constructor
          · exact fun hfails => .inr ⟨next, rfl, hfails⟩
          · rintro (herror | ⟨next', hnext, hfails⟩)
            · cases herror
            · cases hnext
              exact hfails

/-- A run whose steps all turn out to satisfy the guard. -/
theorem RunIf.of_run (hrun : Run step start inputs s)
    (hguard : ∀ before input after s, inputs = before ++ input :: after →
      Run step start before s → guard s input) : RunIf step guard start inputs s := by
  induction hrun with
  | nil => exact .nil
  | @snoc inputs s next input hrun _ hnext ih =>
      refine .snoc (ih fun before i after s' hsplit => ?_) (hguard _ _ [] _ rfl hrun) hnext
      exact hguard before i (after ++ [input]) s' (by rw [hsplit, List.append_assoc]; rfl)

/-- The step function that refuses what its guard does not let pass. -/
def guarded (step : σ → ι → Except ε σ) (guard : σ → ι → Bool) (s : σ) (input : ι) : Option σ :=
  if guard s input then (step s input).toOption else none

/-- The guarded run of an execution that does not fail. -/
theorem runIf_get {guard : σ → ι → Bool} (h : (inputs.foldlM (guarded step guard) start).isSome) :
    RunIf step (fun s input => guard s input) start inputs
      ((inputs.foldlM (guarded step guard) start).get h) := by
  induction inputs using List.reverseRecOn with
  | nil => exact .nil
  | append_singleton inputs input ih =>
      obtain ⟨next, hnext⟩ := Option.isSome_iff_exists.mp h
      simp only [hnext, Option.get_some]
      rw [List.foldlM_append] at hnext
      cases hearlier : inputs.foldlM (guarded step guard) start with
      | none =>
          rw [hearlier] at hnext
          cases hnext
      | some s =>
          have hrun := ih (by rw [hearlier]; rfl)
          simp only [hearlier, Option.get_some] at hrun
          rw [hearlier] at hnext
          change (guarded step guard s input >>= pure) = some next at hnext
          rw [bind_pure, guarded] at hnext
          split_ifs at hnext with hguard
          refine .snoc hrun hguard ?_
          cases hstep : step s input with
          | error e =>
              rw [hstep] at hnext
              cases hnext
          | ok next' =>
              rw [hstep] at hnext
              cases hnext
              rfl

theorem run_append_iff {more : List ι} :
    Run step start (inputs ++ more) s ↔
      ∃ middle, Run step start inputs middle ∧ Run step middle more s := by
  constructor
  · intro hrun
    rw [run_iff_foldlM, List.foldlM_append] at hrun
    cases hfirst : inputs.foldlM step start with
    | error e =>
        rw [hfirst] at hrun
        cases hrun
    | ok middle =>
        rw [hfirst] at hrun
        exact ⟨middle, run_iff_foldlM.mpr hfirst, run_iff_foldlM.mpr hrun⟩
  · rintro ⟨middle, hfirst, hsecond⟩
    exact hfirst.trans hsecond

/-! ### Guards and states

A guard may say exactly what a property of the states needs: each step keeps the property if and only if
it is guarded. Then the guarded runs are those that have the property throughout. -/

/-- `P` holds wherever the run has been. -/
def Throughout (step : σ → ι → Except ε σ) (start : σ) (inputs : List ι) (P : σ → Prop) : Prop :=
  ∀ before after s, inputs = before ++ after → Run step start before s → P s

theorem run_unique {s' : σ} (hrun : Run step start inputs s) (hrun' : Run step start inputs s') :
    s = s' := by
  rw [run_iff_foldlM] at hrun hrun'
  rw [hrun] at hrun'
  cases hrun'
  rfl

theorem runIf_snoc_iff {input : ι} {next : σ} : RunIf step guard start (inputs ++ [input]) next ↔
    ∃ s, RunIf step guard start inputs s ∧ guard s input ∧ step s input = .ok next := by
  constructor
  · intro hrun
    generalize hall : inputs ++ [input] = all at hrun
    cases hrun with
    | nil => cases inputs <;> cases hall
    | snoc hrun hguard hnext =>
        obtain ⟨rfl, hlast⟩ := List.append_inj' hall rfl
        cases hlast
        exact ⟨_, hrun, hguard, hnext⟩
  · rintro ⟨s, hrun, hguard, hnext⟩
    exact .snoc hrun hguard hnext

theorem throughout_nil {P : σ → Prop} : Throughout step start [] P ↔ P start := by
  constructor
  · intro h
    exact h [] [] start rfl .nil
  · intro h before after s hsplit hrun
    obtain ⟨rfl, rfl⟩ := List.append_eq_nil_iff.mp hsplit.symm
    cases run_unique hrun .nil
    exact h

theorem throughout_snoc {P : σ → Prop} {input : ι} {next : σ} (hrun : Run step start inputs s)
    (hnext : step s input = .ok next) :
    Throughout step start (inputs ++ [input]) P ↔ Throughout step start inputs P ∧ P next := by
  constructor
  · intro h
    refine ⟨fun before after s' hsplit => h before (after ++ [input]) s' ?_,
      h (inputs ++ [input]) [] next (List.append_nil _).symm (.snoc hrun trivial hnext)⟩
    rw [hsplit, List.append_assoc]
  · rintro ⟨hthroughout, hlast⟩ before after s' hsplit hrun'
    rcases List.eq_nil_or_concat after with rfl | ⟨after, last, rfl⟩
    · rw [List.append_nil] at hsplit
      subst hsplit
      cases run_unique hrun' (.snoc hrun trivial hnext)
      exact hlast
    · rw [List.concat_eq_append, ← List.append_assoc] at hsplit
      exact hthroughout before after s' (List.append_inj' hsplit rfl).1 hrun'

theorem Throughout.last {P : σ → Prop} (h : Throughout step start inputs P)
    (hrun : Run step start inputs s) : P s :=
  h inputs [] s (List.append_nil _).symm hrun

/-- A step from a state of the run keeps `P` exactly if it is guarded, `Inv` being invariant. -/
theorem runIf_iff_throughout {Inv P : σ → Prop} (hinv : Inv start) (hstart : P start)
    (hpreserved : ∀ s input next, Inv s → step s input = .ok next → Inv next)
    (hguard : ∀ s input next, Inv s → P s → step s input = .ok next → (guard s input ↔ P next))
    (hrun : Run step start inputs s) :
    RunIf step guard start inputs s ↔ Throughout step start inputs P := by
  induction hrun with
  | nil =>
      rw [throughout_nil]
      exact iff_of_true .nil hstart
  | @snoc inputs s next input hrun _ hnext ih =>
      have hinvariant : Inv s :=
        hrun.invariant hinv fun s input next h _ hnext => hpreserved s input next h hnext
      rw [throughout_snoc hrun hnext, ← ih, runIf_snoc_iff]
      constructor
      · rintro ⟨s', hrunIf, hguarded, hnext'⟩
        cases run_unique hrun (hrunIf.weaken fun _ _ _ => trivial)
        exact ⟨hrunIf, (hguard s input next hinvariant (ih.mp hrunIf |>.last hrun) hnext).mp hguarded⟩
      · rintro ⟨hrunIf, hlast⟩
        exact ⟨s, hrunIf, (hguard s input next hinvariant (ih.mp hrunIf |>.last hrun) hnext).mpr hlast,
          hnext⟩

/-! ### Refinement

The concrete machine keeps a log. It refines an abstract machine when the abstract machine can read
every log the concrete one writes, one segment for each step. -/

section Refinement

variable {τ κ ε' : Type*} {spec : τ → κ → Except ε' τ}

theorem RunIf.refines {t₀ : τ} (hrun : RunIf step guard start inputs s)
    (Match : σ → τ → Prop) (log : σ → List κ)
    (hstart : ∃ t, Run spec t₀ (log start) t ∧ Match start t)
    (hstep : ∀ s input next t, Match s t → guard s input → step s input = .ok next →
      ∃ segment t', log next = log s ++ segment ∧ Run spec t segment t' ∧ Match next t') :
    ∃ t, Run spec t₀ (log s) t ∧ Match s t := by
  induction hrun with
  | nil => exact hstart
  | snoc _ hg hnext ih =>
      obtain ⟨t, hread, hmatch⟩ := ih
      obtain ⟨segment, t', hlog, hsegment, hmatch'⟩ := hstep _ _ _ t hmatch hg hnext
      rw [hlog]
      exact ⟨t', hread.trans hsegment, hmatch'⟩

end Refinement

/-! ### Parts

The state of a machine may list its parts, of which a step changes one. -/

theorem getElem?_set_cases {π : Type*} {parts : List π} {n m : ℕ} {part part' : π}
    (h : (parts.set n part')[m]? = some part) :
    (n = m ∧ part = part') ∨ (n ≠ m ∧ parts[m]? = some part) := by
  by_cases hm : n = m
  · subst hm
    rw [List.getElem?_set, if_pos rfl] at h
    split_ifs at h
    exact .inl ⟨rfl, (Option.some.inj h).symm⟩
  · rw [List.getElem?_set_ne hm] at h
    exact .inr ⟨hm, h⟩

/-- Steps that leave less to do are as many as there was to do at most. -/
theorem RunIf.length_add_le {Inv : σ → Prop} (work : σ → ℕ) (hrun : RunIf step guard start inputs s)
    (hstart : Inv start) (hstep : ∀ s input next, Inv s → guard s input → step s input = .ok next →
      Inv next ∧ work next < work s) : Inv s ∧ inputs.length + work s ≤ work start := by
  induction hrun with
  | nil => exact ⟨hstart, Nat.le_of_eq (Nat.zero_add _)⟩
  | snoc _ hguard hnext ih =>
      obtain ⟨hinv, hlength⟩ := ih
      obtain ⟨hinv', hless⟩ := hstep _ _ _ hinv hguard hnext
      refine ⟨hinv', ?_⟩
      rw [List.length_append, List.length_singleton]
      omega

end Runs
