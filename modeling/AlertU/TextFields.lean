import AlertU.FilePath
import AlertU.Text

/-! Lists that are written as one text: names between commas, which are trimmed when they are read and
left out when they are empty, and lines. -/

open FilePath

namespace Text

/-- `names.join(", ")`. -/
def joined (names : List (List Char)) : List Char := [',', ' '].intercalate names

/-- The names between the commas of a text. -/
def fields (s : List Char) : List (List Char) := ((s.splitOn ',').map trim).filter (· ≠ [])

/-- A name that reads back as itself: it has no comma and is not empty, nor has it white space around. -/
def isField (name : List Char) : Bool := name ≠ [] && trim name = name && ',' ∉ name

theorem isField_iff {name : List Char} : isField name ↔ name ≠ [] ∧ trim name = name ∧ ',' ∉ name := by
  simp only [isField, Bool.and_eq_true, decide_eq_true_eq, and_assoc]

theorem mem_of_mem_trim {s : List Char} {c : Char} (h : c ∈ trim s) : c ∈ s := by
  obtain ⟨before, after, hs, -⟩ := trim_decompose s
  rw [hs]
  exact List.mem_append_left _ (List.mem_append_right _ h)

theorem trim_cons_space (s : List Char) : trim (' ' :: s) = trim s := by
  rw [trim, trim, List.dropWhile_cons_of_pos (by decide)]

theorem fields_nil : fields [] = [] := by decide

theorem fields_append (s t : List Char) : fields (s ++ ',' :: t) = fields s ++ fields t := by
  rw [fields, List.splitOn_append_cons_self, List.map_append, List.filter_append]
  rfl

theorem fields_cons_space (s : List Char) : fields (' ' :: s) = fields s := by
  obtain ⟨first, rest, hsplit⟩ := List.exists_cons_of_ne_nil (List.splitOn_ne_nil ',' s)
  have hcomma : (' ' == ',') = false := by decide
  rw [fields, fields, List.splitOn_cons_eq_if_modifyHead, hcomma, hsplit]
  simp only [Bool.false_eq_true, if_false, List.modifyHead_cons, List.map_cons, trim_cons_space]

/-- The names of a joined list are the names of its parts. -/
theorem fields_joined (names : List (List Char)) : fields (joined names) = names.flatMap fields := by
  induction names with
  | nil => exact fields_nil
  | cons name rest ih =>
      cases rest with
      | nil => simp [joined]
      | cons next rest =>
          have hjoined : joined (name :: next :: rest) = name ++ ',' :: ' ' :: joined (next :: rest) := by
            simp [joined, List.intercalate_cons_cons]
          rw [hjoined, fields_append, fields_cons_space, ih]
          rfl

theorem isField_of_mem_fields {s name : List Char} (h : name ∈ fields s) : isField name := by
  obtain ⟨hmem, hne⟩ := List.mem_filter.mp h
  obtain ⟨segment, hsegment, rfl⟩ := List.mem_map.mp hmem
  refine isField_iff.mpr ⟨by simpa using hne, trim_trim segment, fun hcomma => ?_⟩
  exact notMem_of_mem_splitOn hsegment (mem_of_mem_trim hcomma)

theorem fields_of_isField {name : List Char} (h : isField name) : fields name = [name] := by
  obtain ⟨hne, htrim, hcomma⟩ := isField_iff.mp h
  rw [fields, List.splitOn_eq_singleton hcomma, List.map_singleton, htrim]
  exact List.filter_eq_self.mpr (by simpa using hne)

/-- A joined list reads back as itself exactly when each of its names does. -/
theorem fields_joined_eq_iff (names : List (List Char)) :
    fields (joined names) = names ↔ ∀ name ∈ names, isField name := by
  rw [fields_joined]
  constructor
  · intro h name hname
    rw [← h] at hname
    obtain ⟨other, -, hmem⟩ := List.mem_flatMap.mp hname
    exact isField_of_mem_fields hmem
  · intro h
    calc names.flatMap fields
        = names.flatMap fun name => [name] :=
          List.flatMap_congr fun name hname => fields_of_isField (h name hname)
      _ = names := List.flatMap_singleton' names

/-! ### Lines -/

/-- A line without the carriage return that stands before its line feed. -/
def withoutReturn (line : List Char) : List Char :=
  if line.getLast? = some '\r' then line.dropLast else line

/-- `str::lines`. What follows the last line feed is a line when it is not empty, and is left as it is. -/
def lines (s : List Char) : List (List Char) :=
  let pieces := s.splitOn '\n'
  pieces.dropLast.map withoutReturn ++ [pieces.getLastD []].filter (· ≠ [])

/-- A line that is printed as it is read: it has no line feed, and no carriage return at its end. -/
def IsLine (line : List Char) : Prop := '\n' ∉ line ∧ line.getLast? ≠ some '\r'

theorem lines_cons {line : List Char} (hline : IsLine line) (s : List Char) :
    lines (line ++ '\n' :: s) = line :: lines s := by
  have hsplit : (line ++ '\n' :: s).splitOn '\n' = line :: s.splitOn '\n' := by
    rw [List.splitOn_append_cons_self, List.splitOn_eq_singleton hline.1, List.singleton_append]
  obtain ⟨first, rest, hpieces⟩ := List.exists_cons_of_ne_nil (List.splitOn_ne_nil '\n' s)
  rw [lines, lines, hsplit, hpieces]
  simp only [List.dropLast_cons_cons, List.map_cons, withoutReturn, if_neg hline.2, List.cons_append]
  rfl

/-- Lines read back as they were printed. -/
theorem lines_printed {ls : List (List Char)} (hls : ∀ line ∈ ls, IsLine line) :
    lines (ls.flatMap (· ++ ['\n'])) = ls := by
  induction ls with
  | nil => decide
  | cons line rest ih =>
      rw [List.forall_mem_cons] at hls
      rw [List.flatMap_cons, List.append_assoc, List.singleton_append, lines_cons hls.1, ih hls.2]

end Text
