import AlertU.Logs
import AlertU.Runs
import Mathlib.Data.Nat.Notation

/-! A loop that debounces changes. On every turn it makes a fresh sleep of one quiet window and waits for
whatever comes first: a change, a failure, or the end of the sleep, which counts only if a change is
outstanding. The burst is then settled, and the loop acts on it before it turns again. -/

open Logs Runs

namespace Debounce

/-- What a loop has done, and when. -/
inductive Turn where
  | changed
  | failed
  | settled
  | resumed
  deriving DecidableEq, Repr

/-- A debouncing loop: since when the sleep of this turn runs (not at all while the loop acts on a settled
burst), the time of the last turn, and all turns so far. -/
structure Loop where
  dirty : Bool
  since : Option ℕ
  now : ℕ
  turns : List (ℕ × Turn)
  deriving DecidableEq, Repr

namespace Loop

/-- A loop that has just made its first sleep. -/
def start (now : ℕ) : Loop := ⟨false, some now, now, []⟩

/-- The next turn, on a clock that does not go back. -/
def step (window : ℕ) (s : Loop) : ℕ × Turn → Except Unit Loop
  | (t, turn) =>
      if t < s.now then .error ()
      else
        match turn, s.since with
        | .changed, some _ => .ok ⟨true, some t, t, s.turns ++ [(t, turn)]⟩
        | .failed, some _ => .ok ⟨s.dirty, some t, t, s.turns ++ [(t, turn)]⟩
        | .settled, some since =>
            if s.dirty ∧ since + window ≤ t then .ok ⟨false, none, t, s.turns ++ [(t, turn)]⟩
            else .error ()
        | .resumed, none => .ok ⟨s.dirty, some t, t, s.turns ++ [(t, turn)]⟩
        | _, _ => .error ()

end Loop

/-- Among `turns` there is a change that no settled burst has followed. -/
def Outstanding (turns : List (ℕ × Turn)) : Prop :=
  ∃ earlier t later, turns = earlier ++ (t, .changed) :: later ∧ ∀ e ∈ later, e.2 ≠ .settled

variable {turns : List (ℕ × Turn)} {t window : ℕ}

theorem outstanding_changed : Outstanding (turns ++ [(t, .changed)]) :=
  ⟨turns, t, [], rfl, nofun⟩

theorem not_outstanding_settled : ¬Outstanding (turns ++ [(t, .settled)]) := by
  rintro ⟨earlier, t', later, hturns, hlater⟩
  rcases List.eq_nil_or_concat later with rfl | ⟨later, last, rfl⟩
  · have hlast := (List.append_inj' hturns rfl).2
    cases hlast
  · rw [List.concat_eq_append, ← List.cons_append, ← List.append_assoc] at hturns
    have hlast := (List.append_inj' hturns rfl).2
    cases hlast
    exact hlater (t, .settled) (by simp) rfl

theorem outstanding_append {turn : Turn} (hchanged : turn ≠ .changed) (hsettled : turn ≠ .settled) :
    Outstanding (turns ++ [(t, turn)]) ↔ Outstanding turns := by
  constructor
  · rintro ⟨earlier, t', later, hturns, hlater⟩
    rcases List.eq_nil_or_concat later with rfl | ⟨later, last, rfl⟩
    · have hlast := (List.append_inj' hturns rfl).2
      cases hlast
      exact absurd rfl hchanged
    · rw [List.concat_eq_append, ← List.cons_append, ← List.append_assoc] at hturns
      refine ⟨earlier, t', later, (List.append_inj' hturns rfl).1, fun e he => hlater e ?_⟩
      rw [List.concat_eq_append]
      exact List.mem_append_left _ he
  · rintro ⟨earlier, t', later, rfl, hlater⟩
    refine ⟨earlier, t', later ++ [(t, turn)], by simp, fun e he => ?_⟩
    rcases List.mem_append.mp he with he | he
    · exact hlater e he
    · cases List.mem_singleton.mp he
      exact hsettled

/-- Each settled burst has an outstanding change before it, and a whole window without any turn. -/
def Debounced (window : ℕ) (turns : List (ℕ × Turn)) : Prop :=
  Each (fun before e _ => e.2 = .settled →
    Outstanding before ∧ ∀ e' ∈ before, e'.1 + window ≤ e.1) [] turns

theorem debounced_snoc {turn : Turn} : Debounced window (turns ++ [(t, turn)]) ↔
    Debounced window turns ∧
      (turn = .settled → Outstanding turns ∧ ∀ e ∈ turns, e.1 + window ≤ t) := each_concat

namespace Loop

/-- The loop between two turns: it is dirty exactly while a change is outstanding, and no turn is later
than the sleep. -/
structure Ok (window : ℕ) (s : Loop) : Prop where
  dirty : s.dirty ↔ Outstanding s.turns
  past : ∀ e ∈ s.turns, e.1 ≤ s.now
  asleep : ∀ since, s.since = some since → since = s.now
  debounced : Debounced window s.turns

variable {s s' : Loop} {turn : Turn}

theorem Ok.start (now : ℕ) : (Loop.start now).Ok window := by
  refine ⟨⟨nofun, ?_⟩, nofun, fun _ h => (Option.some.inj h).symm, trivial⟩
  rintro ⟨earlier, t, later, hturns, -⟩
  cases earlier <;> cases hturns

theorem past_append (hpast : ∀ e ∈ s.turns, e.1 ≤ s.now) (ht : s.now ≤ t) (turn : Turn) :
    ∀ e ∈ s.turns ++ [(t, turn)], e.1 ≤ t := by
  intro e he
  rcases List.mem_append.mp he with he | he
  · exact Nat.le_trans (hpast e he) ht
  · cases List.mem_singleton.mp he
    exact Nat.le_refl t

/-- What a turn does, sorted by what has woken the loop. -/
theorem step_cases (h : s.step window (t, turn) = .ok s') : s.now ≤ t ∧ s'.now = t ∧
    s'.turns = s.turns ++ [(t, turn)] ∧ (∀ since, s'.since = some since → since = t) ∧
    ((turn = .changed ∧ s'.dirty) ∨ (turn = .failed ∧ s.since ≠ none ∧ s'.dirty = s.dirty) ∨
      (turn = .resumed ∧ s.since = none ∧ s'.dirty = s.dirty) ∨
      (turn = .settled ∧ s'.dirty = false ∧ s'.since = none ∧ s.dirty ∧
        ∃ since, s.since = some since ∧ since + window ≤ t)) := by
  simp only [step] at h
  split_ifs at h with ht
  have hle := Nat.not_lt.mp ht
  cases turn with
  | changed =>
      cases hsince : s.since <;> rw [hsince] at h <;> cases h
      exact ⟨hle, rfl, rfl, fun _ h => (Option.some.inj h).symm, .inl ⟨rfl, rfl⟩⟩
  | failed =>
      cases hsince : s.since <;> rw [hsince] at h <;> cases h
      exact ⟨hle, rfl, rfl, fun _ h => (Option.some.inj h).symm, .inr (.inl ⟨rfl, nofun, rfl⟩)⟩
  | settled =>
      cases hsince : s.since with
      | none =>
          rw [hsince] at h
          cases h
      | some since =>
          rw [hsince] at h
          simp only at h
          split_ifs at h with hdue
          cases h
          exact ⟨hle, rfl, rfl, nofun, .inr (.inr (.inr ⟨rfl, rfl, rfl, hdue.1, since, rfl, hdue.2⟩))⟩
  | resumed =>
      cases hsince : s.since <;> rw [hsince] at h <;> cases h
      exact ⟨hle, rfl, rfl, fun _ h => (Option.some.inj h).symm, .inr (.inr (.inl ⟨rfl, rfl, rfl⟩))⟩

theorem Ok.step (h : s.Ok window) (hturn : s.step window (t, turn) = .ok s') : s'.Ok window := by
  obtain ⟨hle, hnow, hturns, hasleep, hwhy⟩ := step_cases hturn
  have hpast : ∀ e ∈ s'.turns, e.1 ≤ s'.now := by
    rw [hturns, hnow]
    exact past_append h.past hle turn
  have hasleep' : ∀ since, s'.since = some since → since = s'.now := by
    rw [hnow]
    exact hasleep
  have hquiet (hchanged : turn ≠ .changed) (hsettled : turn ≠ .settled) (hdirty : s'.dirty = s.dirty) :
      s'.Ok window := by
    refine ⟨?_, hpast, hasleep', ?_⟩
    · rw [hturns, outstanding_append hchanged hsettled, hdirty]
      exact h.dirty
    · rw [hturns, debounced_snoc]
      exact ⟨h.debounced, fun hs => absurd hs hsettled⟩
  rcases hwhy with ⟨rfl, hdirty⟩ | ⟨rfl, -, hdirty⟩ | ⟨rfl, -, hdirty⟩ |
    ⟨rfl, hdirty, -, houtstanding, since, hsince, hdue⟩
  · refine ⟨?_, hpast, hasleep', ?_⟩
    · rw [hturns]
      exact iff_of_true hdirty outstanding_changed
    · rw [hturns, debounced_snoc]
      exact ⟨h.debounced, nofun⟩
  · exact hquiet nofun nofun hdirty
  · exact hquiet nofun nofun hdirty
  · refine ⟨?_, hpast, hasleep', ?_⟩
    · rw [hturns]
      refine iff_of_false ?_ not_outstanding_settled
      rw [hdirty]
      exact nofun
    · rw [hturns, debounced_snoc]
      refine ⟨h.debounced, fun _ => ⟨h.dirty.mp houtstanding, fun e he => ?_⟩⟩
      have hslept := h.asleep since hsince
      have := h.past e he
      omega

end Loop

end Debounce
