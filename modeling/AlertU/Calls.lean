import AlertU.Runs
import Mathlib.Logic.Function.Basic

/-! Programs that act on a system through calls. A program is the tree of the calls that it makes, each
with a continuation for its answer; a system answers a call and changes its state, depending on one
input for whatever it leaves open. `Always` says that an invariant holds between any two calls and a
postcondition at the end, and it is exactly what all runs of the program have in common. -/

open Runs

namespace Calls

universe u

/-- A program whose calls `κ` are answered by `ρ`. -/
inductive Prog (κ : Type) (ρ : κ → Type) (α : Type) where
  | ret (a : α)
  | call (k : κ) (next : ρ k → Prog κ ρ α)

variable {κ : Type} {ρ : κ → Type} {α β ε : Type} {σ ι : Type u}

namespace Prog

def bind : Prog κ ρ α → (α → Prog κ ρ β) → Prog κ ρ β
  | .ret a, f => f a
  | .call k next, f => .call k fun r => (next r).bind f

instance : Monad (Prog κ ρ) where
  pure := .ret
  bind := .bind

/-- The program that makes one call and returns its answer. -/
def perform (k : κ) : Prog κ ρ (ρ k) := .call k .ret

end Prog

/-- A program that may fail with `ε`. -/
abbrev Fallible (κ : Type) (ρ : κ → Type) (ε : Type) := ExceptT ε (Prog κ ρ)

/-- Change the error of a program. -/
def Fallible.mapError (f : ε → ε) (x : Fallible κ ρ ε α) : Fallible κ ρ ε α :=
  Prog.bind x fun r => .ret (r.mapError f)

/-- One call of the program, on a system that answers with `exec`. -/
def step (exec : σ → (k : κ) → ι → ρ k × σ) :
    σ × Prog κ ρ α → ι → Except Unit (σ × Prog κ ρ α)
  | (_, .ret _), _ => .error ()
  | (s, .call k next), i => .ok ((exec s k i).2, next (exec s k i).1)

/-- What a program that is at its end has returned. -/
def Prog.result? : Prog κ ρ α → Option α
  | .ret a => some a
  | .call _ _ => none

theorem Prog.eq_ret {a : α} {prog : Prog κ ρ α} (h : prog.result? = some a) : prog = .ret a := by
  cases prog with
  | ret a' =>
      cases h
      rfl
  | call k next => cases h

/-- `I` holds before each call and at the end, and `Q` of the result. -/
def Always (exec : σ → (k : κ) → ι → ρ k × σ) (I : σ → Prop) (Q : α → σ → Prop) :
    Prog κ ρ α → σ → Prop
  | .ret a, s => I s ∧ Q a s
  | .call k next, s => I s ∧ ∀ i, Always exec I Q (next (exec s k i).1) (exec s k i).2

variable {exec : σ → (k : κ) → ι → ρ k × σ} {I J : σ → Prop} {Q R : α → σ → Prop}
  {prog : Prog κ ρ α} {s : σ}

theorem Always.holds (h : Always exec I Q prog s) : I s := by
  cases prog <;> exact h.1

theorem Always.mono (h : Always exec I Q prog s) (hinv : ∀ s, I s → J s)
    (hpost : ∀ a s, Q a s → R a s) : Always exec J R prog s := by
  induction prog generalizing s with
  | ret a => exact ⟨hinv s h.1, hpost a s h.2⟩
  | call k next ih => exact ⟨hinv s h.1, fun i => ih _ (h.2 i)⟩

/-- The invariant holds at the end as well. -/
theorem Always.post (h : Always exec I Q prog s) : Always exec I (fun a s => I s ∧ Q a s) prog s := by
  induction prog generalizing s with
  | ret a => exact ⟨h.1, h⟩
  | call k next ih => exact ⟨h.1, fun i => ih _ (h.2 i)⟩

theorem always_bind {f : α → Prog κ ρ β} {Q : β → σ → Prop} :
    Always exec I Q (prog.bind f) s ↔ Always exec I (fun a => Always exec I Q (f a)) prog s := by
  induction prog generalizing s with
  | ret a => exact ⟨fun h => ⟨h.holds, h⟩, fun h => h.2⟩
  | call k next ih => exact and_congr_right fun _ => forall_congr' fun i => ih _

/-- The rule for `?`: the first error is the result. -/
theorem always_andThen {x : Fallible κ ρ ε α} {f : α → Fallible κ ρ ε β}
    {Q : Except ε β → σ → Prop} :
    Always exec I Q (x >>= f : Fallible κ ρ ε β) s ↔ Always exec I (fun r s => match r with
      | .ok a => Always exec I Q (f a) s
      | .error e => Q (.error e) s) x s := by
  show Always exec I Q (Prog.bind x (ExceptT.bindCont f)) s ↔ _
  rw [always_bind]
  constructor
  · refine fun h => h.mono (fun _ h => h) fun r s hr => ?_
    cases r with
    | ok a => exact hr
    | error e => exact hr.2
  · refine fun h => h.post.mono (fun _ h => h) fun r s hr => ?_
    cases r with
    | ok a => exact hr.2
    | error e => exact hr

theorem always_mapError {x : Fallible κ ρ ε α} {f : ε → ε} {Q : Except ε α → σ → Prop} :
    Always exec I Q (x.mapError f) s ↔ Always exec I (fun r => Q (r.mapError f)) x s := by
  rw [Fallible.mapError, always_bind]
  exact ⟨fun h => h.mono (fun _ h => h) fun _ _ hr => hr.2, fun h => h.post⟩

/-! ### The runs of a program -/

theorem Always.of_step {i : ι} {c : σ × Prog κ ρ α} (h : Always exec I Q prog s)
    (hstep : step exec (s, prog) i = .ok c) : Always exec I Q c.2 c.1 := by
  cases prog with
  | ret a => cases hstep
  | call k next =>
      cases hstep
      exact h.2 i

/-- What holds always holds wherever a run gets, and the other way round. -/
theorem always_iff_run : Always exec I Q prog s ↔
    ∀ inputs c, Run (step exec) (s, prog) inputs c → I c.1 ∧ ∀ a, c.2 = .ret a → Q a c.1 := by
  constructor
  · intro h inputs c hrun
    let Inv : σ × Prog κ ρ α → Prop := fun c => Always exec I Q c.2 c.1
    have hc : Inv c := hrun.invariant h fun c i next h _ hstep => Always.of_step h hstep
    refine ⟨Always.holds hc, fun a ha => ?_⟩
    change Always exec I Q c.2 c.1 at hc
    rw [ha] at hc
    exact hc.2
  · intro h
    induction prog generalizing s with
    | ret a =>
        obtain ⟨hinv, hpost⟩ := h [] _ .nil
        exact ⟨hinv, hpost a rfl⟩
    | call k next ih =>
        refine ⟨(h [] _ .nil).1, fun i => ih _ fun inputs c hrun => ?_⟩
        exact h (i :: inputs) c (run_cons_iff.mpr ⟨_, rfl, hrun⟩)

/-! ### Programs of a few calls -/

/-- The program makes no call outside `S`, whatever it is answered. -/
def Prog.Only (S : κ → Prop) : Prog κ ρ α → Prop
  | .ret _ => True
  | .call k next => S k ∧ ∀ r, (next r).Only S

variable {S T : κ → Prop}

theorem Prog.Only.mono (h : prog.Only S) (hcalls : ∀ k, S k → T k) : prog.Only T := by
  induction prog with
  | ret a => trivial
  | call k next ih => exact ⟨hcalls k h.1, fun r => ih r (h.2 r)⟩

theorem Prog.only_perform {k : κ} (h : S k) : (Prog.perform k : Prog κ ρ (ρ k)).Only S :=
  ⟨h, fun _ => trivial⟩

theorem Prog.only_bind {f : α → Prog κ ρ β} (h : prog.Only S) (hf : ∀ a, (f a).Only S) :
    (prog.bind f).Only S := by
  induction prog with
  | ret a => exact hf a
  | call k next ih => exact ⟨h.1, fun r => ih r (h.2 r)⟩

theorem Fallible.only_andThen {x : Fallible κ ρ ε α} {f : α → Fallible κ ρ ε β} (h : Prog.Only S x)
    (hf : ∀ a, Prog.Only S (f a)) : Prog.Only S (x >>= f : Fallible κ ρ ε β) :=
  Prog.only_bind h fun r => match r with
    | .ok a => hf a
    | .error _ => trivial

/-- Whatever the calls are answered, the program returns something of `R`. -/
def Prog.Yields (R : α → Prop) : Prog κ ρ α → Prop
  | .ret a => R a
  | .call _ next => ∀ r, (next r).Yields R

theorem Prog.yields_bind {R : β → Prop} {f : α → Prog κ ρ β} (hf : ∀ a, (f a).Yields R) :
    (prog.bind f).Yields R := by
  induction prog with
  | ret a => exact hf a
  | call k next ih => exact ih

theorem Fallible.yields_andThen {R : Except ε β → Prop} {x : Fallible κ ρ ε α}
    {f : α → Fallible κ ρ ε β} (herror : ∀ e, R (.error e)) (hf : ∀ a, Prog.Yields R (f a)) :
    Prog.Yields R (x >>= f : Fallible κ ρ ε β) :=
  Prog.yields_bind fun r => match r with
    | .ok a => hf a
    | .error e => herror e

/-- What a program returns whatever its calls are answered, it returns in every run. -/
theorem Always.of_yields {R : α → Prop} (h : prog.Yields R) :
    Always exec (fun _ => True) (fun a _ => R a) prog s := by
  induction prog generalizing s with
  | ret a => exact ⟨trivial, h⟩
  | call k next ih => exact ⟨trivial, fun i => ih _ (h _)⟩

/-- What a program goes on with depends only on what it can return. -/
theorem Fallible.only_andThen_of {R : α → Prop} {x : Fallible κ ρ ε α} {f : α → Fallible κ ρ ε β}
    (h : Prog.Only S x) (hx : Prog.Yields (fun r => ∀ a, r = .ok a → R a) x)
    (hf : ∀ a, R a → Prog.Only S (f a)) : Prog.Only S (x >>= f : Fallible κ ρ ε β) := by
  have hbind : ∀ y : Prog κ ρ (Except ε α), y.Only S →
      y.Yields (fun r => ∀ a, r = .ok a → R a) → (y.bind (ExceptT.bindCont f)).Only S := by
    intro y
    induction y with
    | ret r =>
        intro _ hr
        cases r with
        | ok a => exact hf a (hr a rfl)
        | error e => trivial
    | call k next ih => exact fun hy hr => ⟨hy.1, fun r => ih r (hy.2 r) (hr r)⟩
  exact hbind x h hx

theorem Fallible.only_mapError {x : Fallible κ ρ ε α} {f : ε → ε} (h : Prog.Only S x) :
    Prog.Only S (x.mapError f) := Prog.only_bind h fun _ => trivial

/-- What the calls of a program keep, the program keeps. -/
theorem Always.of_only (h : prog.Only S) (hkeep : ∀ s k i, S k → I s → I (exec s k i).2) (hs : I s) :
    Always exec I (fun _ _ => True) prog s := by
  induction prog generalizing s with
  | ret a => exact ⟨hs, trivial⟩
  | call k next ih => exact ⟨hs, fun i => ih _ (h.2 _) (hkeep s k i h.1 hs)⟩

/-! ### Parts of a program -/

section Via

variable {κ' : Type} {ρ' : κ' → Type} {f : κ → κ'} {g : ∀ k, ρ' (f k) → ρ k}

/-- A program as part of one that makes other calls as well. -/
def Prog.via (f : κ → κ') (g : ∀ k, ρ' (f k) → ρ k) : Prog κ ρ α → Prog κ' ρ' α
  | .ret a => .ret a
  | .call k next => .call (f k) fun r => (next (g k r)).via f g

/-- The part runs on what its calls meet of the whole system. -/
theorem always_via {exec : σ → (k : κ') → ι → ρ' k × σ} :
    Always exec I Q (prog.via f g) s ↔
      Always (fun s k i => (g k (exec s (f k) i).1, (exec s (f k) i).2)) I Q prog s := by
  induction prog generalizing s with
  | ret a => exact Iff.rfl
  | call k next ih => exact and_congr_right fun _ => forall_congr' fun i => ih _

end Via

/-! ### Traces

A program can be followed without its system: whatever the calls are answered, a trace takes note. -/

section Trace

variable {τ : Type} {note : τ → (k : κ) → ρ k → τ} {I : τ → Prop} {Q : α → τ → Prop} {t : τ}

/-- The system that answers anything. -/
def anything (note : τ → (k : κ) → ρ k → τ) (t : τ) (k : κ) (answers : (k : κ) → ρ k) : ρ k × τ :=
  (answers k, note t k (answers k))

theorem always_anything_call [DecidableEq κ] [∀ k, Inhabited (ρ k)] {k : κ} {next : ρ k → Prog κ ρ α} :
    Always (anything note) I Q (.call k next) t ↔
      I t ∧ ∀ r, Always (anything note) I Q (next r) (note t k r) := by
  refine and_congr_right fun _ => ⟨fun h r => ?_, fun h answers => h (answers k)⟩
  have hr := h (Function.update (fun _ => default) k r)
  rw [anything, Function.update_self] at hr
  exact hr

/-- Calls that are not noted leave the trace alone. -/
theorem always_unnoted (h : prog.Only fun k => ∀ t r, note t k r = t) (ht : I t) :
    Always (anything note) I (fun _ t' => t' = t) prog t := by
  have hsame : Always (anything note) (fun t' => t' = t) (fun _ _ => True) prog t :=
    .of_only h (fun t' k answers hk ht' => (hk t' _).trans ht') rfl
  exact hsame.post.mono (fun t' ht' => ht' ▸ ht) fun _ _ h => h.1

/-- The system with a trace of what it answers. -/
def traced (exec : σ → (k : κ) → ι → ρ k × σ) (note : τ → (k : κ) → ρ k → τ) (c : σ × τ) (k : κ)
    (i : ι) : ρ k × (σ × τ) :=
  ((exec c.1 k i).1, (exec c.1 k i).2, note c.2 k (exec c.1 k i).1)

end Trace

/-! ### Interference

Others may act on the system between any two calls of a program. What they keep can be relied on. -/

section Interference

variable {η : Type u} {ε' : Type} {act : σ → η → Except ε' σ} {P : σ → Prop}

/-- Others act, one after the other; what is impossible does not happen. -/
def interfere (act : σ → η → Except ε' σ) (s : σ) (acts : List η) : σ :=
  acts.foldl (fun s e => (act s e).toOption.getD s) s

/-- The system whose calls are answered after others have acted. -/
def amid (act : σ → η → Except ε' σ) (exec : σ → (k : κ) → ι → ρ k × σ) (s : σ) (k : κ)
    (i : List η × ι) : ρ k × σ := exec (interfere act s i.1) k i.2

/-- The others keep `P`. -/
def Stable (act : σ → η → Except ε' σ) (P : σ → Prop) : Prop :=
  ∀ s e s', P s → act s e = .ok s' → P s'

theorem Stable.interfere (h : Stable act P) {acts : List η} (hs : P s) :
    P (Calls.interfere act s acts) := by
  induction acts generalizing s with
  | nil => exact hs
  | cons e rest ih =>
      apply ih
      show P ((act s e).toOption.getD s)
      cases hact : act s e with
      | error _ => exact hs
      | ok s' => exact h s e s' hs hact

/-- The rule for a call: what can be relied on before it holds when it is answered. -/
theorem always_amid_call {k : κ} {next : ρ k → Prog κ ρ α} (hstable : Stable act P)
    (hinv : ∀ s, P s → I s) (hs : P s)
    (hnext : ∀ s i, P s → Always (amid act exec) I Q (next (exec s k i).1) (exec s k i).2) :
    Always (amid act exec) I Q (.call k next) s :=
  ⟨hinv s hs, fun i => hnext _ i.2 (hstable.interfere hs)⟩

/-- The others act while the program waits. -/
theorem Always.acted {s' : σ} {e : η} (h : Always (amid act exec) I Q prog s) (hinv : Stable act I)
    (hpost : ∀ a, Stable act (Q a)) (hact : act s e = .ok s') :
    Always (amid act exec) I Q prog s' := by
  cases prog with
  | ret a => exact ⟨hinv s e s' h.1 hact, hpost a s e s' h.2 hact⟩
  | call k next =>
      refine ⟨hinv s e s' h.1 hact, fun i => ?_⟩
      have hnext := h.2 (e :: i.1, i.2)
      simp only [amid, interfere, List.foldl_cons, hact, Except.toOption, Option.getD_some] at hnext
      exact hnext

/-- The program makes its next call. -/
theorem Always.called {k : κ} {next : ρ k → Prog κ ρ α}
    (h : Always (amid act exec) I Q (.call k next) s) (i : ι) :
    Always (amid act exec) I Q (next (exec s k i).1) (exec s k i).2 := h.2 ([], i)

end Interference

end Calls
