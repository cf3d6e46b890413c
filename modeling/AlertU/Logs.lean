import Mathlib.Data.List.Basic
import Mathlib.Data.List.DropRight

/-! Properties of a growing log that hold at each of its entries. `Each P before log` says that every
entry of `log` satisfies `P`, given what stands before it (`before` and the log up to it) and what
stands after it; `latest f log` is what the last entry that `f` reads says, and `since` collects what it
reads after the last reset. -/

namespace Logs

variable {κ α : Type*} {P : List κ → κ → List κ → Prop} {before log segment : List κ}

def Each (P : List κ → κ → List κ → Prop) (before : List κ) : List κ → Prop
  | [] => True
  | entry :: after => P before entry after ∧ Each P (before ++ [entry]) after

@[simp]
theorem each_nil : Each P before [] := trivial

@[simp]
theorem each_cons {entry : κ} {after : List κ} :
    Each P before (entry :: after) ↔ P before entry after ∧ Each P (before ++ [entry]) after :=
  Iff.rfl

theorem each_iff : Each P before log ↔
    ∀ middle entry after, log = middle ++ entry :: after → P (before ++ middle) entry after := by
  induction log generalizing before with
  | nil =>
      simp only [each_nil, true_iff]
      intro middle entry after h
      cases middle <;> cases h
  | cons first log ih =>
      rw [each_cons, ih]
      constructor
      · rintro ⟨hfirst, hlog⟩ middle entry after h
        cases middle with
        | nil =>
            obtain ⟨rfl, rfl⟩ := List.cons.inj h
            rw [List.append_nil]
            exact hfirst
        | cons first' middle =>
            obtain ⟨rfl, rfl⟩ := List.cons.inj h
            have := hlog middle entry after rfl
            rwa [List.append_assoc] at this
      · intro h
        refine ⟨?_, fun middle entry after hlog => ?_⟩
        · have := h [] first log rfl
          rwa [List.append_nil] at this
        · have := h (first :: middle) entry after (by rw [hlog]; rfl)
          rwa [List.append_assoc]

/-- A property that does not mind what is appended holds at each entry of a longer log if it holds at
each of the new ones. -/
theorem Each.append (hmono : ∀ before entry after more, P before entry after →
      P before entry (after ++ more))
    (hlog : Each P before log) (hsegment : Each P (before ++ log) segment) :
    Each P before (log ++ segment) := by
  induction log generalizing before with
  | nil =>
      rw [List.append_nil] at hsegment
      exact hsegment
  | cons first log ih =>
      rw [each_cons] at hlog
      rw [List.cons_append, each_cons]
      refine ⟨hmono _ _ _ _ hlog.1, ih hlog.2 ?_⟩
      rw [List.append_assoc]
      exact hsegment

/-- A property that does not mind what stands after an entry can be checked piece by piece. -/
theorem each_append (hafter : ∀ before entry after after', P before entry after →
      P before entry after') :
    Each P before (log ++ segment) ↔ Each P before log ∧ Each P (before ++ log) segment := by
  constructor
  · intro h
    rw [each_iff] at h
    refine ⟨each_iff.mpr fun middle entry after hlog => ?_,
      each_iff.mpr fun middle entry after hsegment => ?_⟩
    · refine hafter _ _ _ _ (h middle entry (after ++ segment) ?_)
      rw [hlog, List.append_assoc]
      rfl
    · have := h (log ++ middle) entry after (by rw [hsegment, List.append_assoc])
      rwa [← List.append_assoc] at this
  · rintro ⟨hlog, hsegment⟩
    exact hlog.append (fun before entry after _ => hafter before entry after _) hsegment

/-- An entry is added to a log whose entries satisfy something about what stands before them. -/
theorem each_concat {Q : List κ → κ → Prop} {entry : κ} :
    Each (fun before entry _ => Q before entry) [] (log ++ [entry]) ↔
      Each (fun before entry _ => Q before entry) [] log ∧ Q log entry := by
  rw [each_append fun _ _ _ _ h => h, each_cons, List.nil_append]
  exact and_congr_right fun _ => and_iff_left trivial

/-- The last value that `f` reads from the log. -/
def latest (f : κ → Option α) (log : List κ) : Option α := (log.filterMap f).getLast?

@[simp]
theorem latest_nil (f : κ → Option α) : latest f [] = none := rfl

theorem latest_append (f : κ → Option α) :
    latest f (log ++ segment) = (latest f segment).or (latest f log) := by
  rw [latest, List.filterMap_append, List.getLast?_append]
  rfl

@[simp]
theorem latest_singleton (f : κ → Option α) (entry : κ) : latest f [entry] = f entry := by
  cases h : f entry <;> simp [latest, h]

theorem latest_eq_none {f : κ → Option α} (h : ∀ entry ∈ log, f entry = none) :
    latest f log = none := by
  rw [latest, List.filterMap_eq_nil_iff.mpr h]
  rfl

theorem exists_of_latest {f : κ → Option α} {a : α} (h : latest f log = some a) :
    ∃ entry ∈ log, f entry = some a :=
  List.mem_filterMap.mp (List.mem_of_getLast? h)

/-- What `f` reads from the entries after the last one that resets. -/
def since (reset : κ → Bool) (f : κ → Option α) (log : List κ) : List α :=
  (log.rtakeWhile fun entry => !reset entry).filterMap f

theorem since_of_reset {reset : κ → Bool} {f : κ → Option α} {entry : κ} (h : reset entry) :
    since reset f (log ++ [entry]) = [] := by
  rw [since, List.rtakeWhile_concat_neg _ _ _ (by simp [h])]
  rfl

theorem since_concat {reset : κ → Bool} {f : κ → Option α} {entry : κ} (h : reset entry = false) :
    since reset f (log ++ [entry]) = since reset f log ++ (f entry).toList := by
  rw [since, List.rtakeWhile_concat_pos _ _ _ (by simp [h]), List.filterMap_append]
  cases hread : f entry <;> simp [since, hread]

end Logs
