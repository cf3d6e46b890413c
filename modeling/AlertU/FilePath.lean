import Mathlib.Data.List.DropRight
import Mathlib.Data.List.Infix

/-! Unix paths as `std::path` reads them. A `PathBuf` is the text it was made from; two paths are
equal when their components are, so repeated separators, inner `.` segments and a trailing separator
do not count. -/

namespace FilePath

inductive Component where
  | rootDir
  | curDir
  | parentDir
  | normal (name : List Char)
  deriving DecidableEq, Repr

structure PathBuf where
  raw : String
  deriving DecidableEq, Repr

/-- What one segment between two separators stands for, past the first segment of the path. -/
def component? (segment : List Char) : Option Component :=
  if segment = [] ∨ segment = ['.'] then none
  else if segment = ['.', '.'] then some .parentDir
  else some (.normal segment)

/-- A segment that stands for no component. -/
def isBlank (segment : List Char) : Bool := (component? segment).isNone

/-- The component of the first segment: an empty one is the root, when anything follows. -/
def headComponent? (first : List Char) (rest : List (List Char)) : Option Component :=
  if first = [] then if rest = [] then none else some .rootDir
  else if first = ['.'] then some .curDir
  else component? first

namespace PathBuf

def segments (p : PathBuf) : List (List Char) := p.raw.toList.splitOn '/'

def ofSegments (segments : List (List Char)) : PathBuf :=
  ⟨String.ofList (['/'].intercalate segments)⟩

/-- `Path::components`. -/
def components (p : PathBuf) : List Component :=
  match p.segments with
  | [] => []
  | first :: rest => (headComponent? first rest).toList ++ rest.filterMap component?

/-- Equality of paths in Rust. -/
def same (p q : PathBuf) : Bool := p.components == q.components

/-- `Path::is_absolute`. -/
def isAbsolute (p : PathBuf) : Bool := p.components.head? == some .rootDir

/-- The segments up to the last one that stands for a component. -/
def trimmed (p : PathBuf) : List (List Char) :=
  match p.segments with
  | [] => []
  | first :: rest => first :: rest.rdropWhile isBlank

def isName (segment : List Char) : Bool :=
  segment ≠ [] && segment ≠ ['.'] && segment ≠ ['.', '.']

/-- `Path::file_name`. -/
def fileName (p : PathBuf) : Option (List Char) :=
  p.trimmed.getLast?.filter isName

/-- `Path::parent`: none for the root and for the empty path. -/
def parent (p : PathBuf) : Option PathBuf :=
  match p.trimmed with
  | [] => none
  | [first] => if first = [] then none else some ⟨""⟩
  | first :: rest =>
      let dir := first :: rest.dropLast.rdropWhile isBlank
      some (if dir = [[]] then ⟨"/"⟩ else ofSegments dir)

end PathBuf

/-- `Path::file_stem` on a file name: what stands before its last dot, unless that is empty. -/
def fileStem (name : List Char) : List Char :=
  match (name.rdropWhile (· ≠ '.')).dropLast with
  | [] => name
  | stem => stem

/-- `Path::join`: an absolute path takes the place of the first one. -/
def PathBuf.join (p q : PathBuf) : PathBuf :=
  if q.raw.toList.head? = some '/' then q
  else if p.raw.toList = [] ∨ p.raw.toList.getLast? = some '/' then ⟨p.raw ++ q.raw⟩
  else ⟨p.raw ++ "/" ++ q.raw⟩

/-- `Path::with_extension`. -/
def PathBuf.withExtension (p : PathBuf) (extension : String) : PathBuf :=
  match p.fileName with
  | none => p
  | some name =>
      ofSegments (p.trimmed.dropLast ++ [fileStem name ++ '.' :: extension.toList])

theorem same_self (path : PathBuf) : path.same path := by
  simp [PathBuf.same]

theorem same_comm (p q : PathBuf) : p.same q = q.same p := Bool.beq_comm

/-! ### The components of a path with another extension -/

theorem notMem_of_mem_splitOn {separator : Char} {text segment : List Char}
    (h : segment ∈ text.splitOn separator) : separator ∉ segment := by
  induction text generalizing segment with
  | nil =>
      rw [List.splitOn_nil, List.mem_singleton] at h
      rw [h]
      exact List.not_mem_nil
  | cons c text ih =>
      rw [List.splitOn_cons_eq_if_modifyHead] at h
      split_ifs at h with hc
      · rcases List.mem_cons.mp h with rfl | h
        · exact List.not_mem_nil
        · exact ih h
      · cases hsplit : text.splitOn separator with
        | nil => exact absurd hsplit (List.splitOn_ne_nil _ _)
        | cons first rest =>
            rw [hsplit, List.modifyHead_cons] at h
            rcases List.mem_cons.mp h with rfl | h
            · have hfirst : separator ∉ first := ih (by simp [hsplit])
              simp only [beq_iff_eq] at hc
              simp only [List.mem_cons, not_or]
              exact ⟨fun hsep => hc hsep.symm, hfirst⟩
            · exact ih (by simp [hsplit, h])

theorem segments_ofSegments {segments : List (List Char)} (hne : segments ≠ [])
    (hsep : ∀ segment ∈ segments, '/' ∉ segment) :
    (PathBuf.ofSegments segments).segments = segments := by
  rw [PathBuf.segments, PathBuf.ofSegments, String.toList_ofList]
  exact List.splitOn_intercalate _ hsep hne

theorem components_eq {p : PathBuf} {first : List Char} {rest : List (List Char)}
    (h : p.segments = first :: rest) :
    p.components = (headComponent? first rest).toList ++ rest.filterMap component? := by
  rw [PathBuf.components, h]

theorem trimmed_eq {p : PathBuf} {first : List Char} {rest : List (List Char)}
    (h : p.segments = first :: rest) : p.trimmed = first :: rest.rdropWhile isBlank := by
  rw [PathBuf.trimmed, h]

theorem exists_segments (p : PathBuf) : ∃ first rest, p.segments = first :: rest := by
  cases hp : p.segments with
  | nil => exact absurd hp (List.splitOn_ne_nil _ _)
  | cons first rest => exact ⟨first, rest, rfl⟩

theorem raw_of_segments {p : PathBuf} (h : p.segments = [[]]) : p.raw.toList = [] := by
  have htext := congrArg (List.intercalate ['/']) h
  rwa [PathBuf.segments, List.intercalate_splitOn] at htext

theorem mem_segments_of_mem_trimmed {p : PathBuf} {segment : List Char}
    (h : segment ∈ p.trimmed) : segment ∈ p.segments := by
  obtain ⟨first, rest, hp⟩ := exists_segments p
  rw [trimmed_eq hp] at h
  rw [hp]
  rcases List.mem_cons.mp h with rfl | h
  · exact List.mem_cons_self
  · exact List.mem_cons_of_mem _ ((List.rdropWhile_prefix _ _).subset h)

theorem component?_of_isName {segment : List Char} (h : PathBuf.isName segment) :
    component? segment = some (.normal segment) := by
  simp only [PathBuf.isName, Bool.and_eq_true, decide_eq_true_eq] at h
  simp [component?, h.1.1, h.1.2, h.2]

theorem headComponent?_of_isName {first : List Char} (h : PathBuf.isName first)
    (rest : List (List Char)) : headComponent? first rest = some (.normal first) := by
  have hcomponent := component?_of_isName h
  simp only [PathBuf.isName, Bool.and_eq_true, decide_eq_true_eq] at h
  simp [headComponent?, h.1.1, h.1.2, hcomponent]

theorem filterMap_rdropWhile_isBlank (rest : List (List Char)) :
    (rest.rdropWhile isBlank).filterMap component? = rest.filterMap component? := by
  have hnone : (rest.rtakeWhile isBlank).filterMap component? = [] := by
    rw [List.filterMap_eq_nil_iff]
    intro segment hmem
    have hblank : isBlank segment := List.mem_rtakeWhile_imp hmem
    exact Option.isNone_iff_eq_none.mp hblank
  conv_rhs => rw [← List.rdropWhile_append_rtakeWhile (p := isBlank) (l := rest)]
  rw [List.filterMap_append, hnone, List.append_nil]

/-- The file name of a path is its last component. -/
theorem components_getLast? {p : PathBuf} {name : List Char} (h : p.fileName = some name) :
    p.components.getLast? = some (.normal name) := by
  obtain ⟨first, rest, hp⟩ := exists_segments p
  rw [PathBuf.fileName, trimmed_eq hp, Option.filter_eq_some_iff] at h
  rw [components_eq hp, ← filterMap_rdropWhile_isBlank]
  rcases List.eq_nil_or_concat (rest.rdropWhile isBlank) with hrest | ⟨init, last, hrest⟩
  · rw [hrest, List.getLast?_singleton, Option.some.injEq] at h
    obtain ⟨rfl, hname⟩ := h
    simp [hrest, headComponent?_of_isName hname]
  · rw [hrest, List.concat_eq_append, ← List.cons_append, List.getLast?_concat,
      Option.some.injEq] at h
    obtain ⟨rfl, hname⟩ := h
    simp [hrest, component?_of_isName hname, List.getLast?_append]

theorem fileName_ofSegments {dir : List (List Char)} {name : List Char}
    (hdir : ∀ segment ∈ dir, '/' ∉ segment) (hsep : '/' ∉ name) (hname : PathBuf.isName name) :
    (PathBuf.ofSegments (dir ++ [name])).fileName = some name := by
  have hsegments : (PathBuf.ofSegments (dir ++ [name])).segments = dir ++ [name] := by
    apply segments_ofSegments (by simp)
    intro segment hmem
    rcases List.mem_append.mp hmem with hmem | hmem
    · exact hdir segment hmem
    · rw [List.mem_singleton.mp hmem]
      exact hsep
  have htrimmed : (PathBuf.ofSegments (dir ++ [name])).trimmed = dir ++ [name] := by
    cases dir with
    | nil => exact trimmed_eq hsegments
    | cons first dir =>
        have hlast : ¬isBlank name := by simp [isBlank, component?_of_isName hname]
        rw [List.cons_append] at hsegments
        rw [List.cons_append, trimmed_eq hsegments, List.rdropWhile_concat_neg _ _ _ hlast]
  rw [PathBuf.fileName, htrimmed, List.getLast?_concat, Option.filter_some, if_pos hname]

theorem fileStem_append {stem rest : List Char} (hstem : stem ≠ []) (hrest : '.' ∉ rest) :
    fileStem (stem ++ '.' :: rest) = stem := by
  have hdrop : (stem ++ '.' :: rest).rdropWhile (· ≠ '.') = stem ++ ['.'] := by
    induction rest using List.reverseRecOn with
    | nil => exact List.rdropWhile_concat_neg _ _ _ (by simp)
    | append_singleton rest c ih =>
        rw [List.mem_append, not_or] at hrest
        have hc : c ≠ '.' := fun h => hrest.2 (by simp [h])
        rw [← List.cons_append, ← List.append_assoc, List.rdropWhile_concat_pos _ _ _ (by simpa),
          ih hrest.1]
  unfold fileStem
  rw [hdrop, List.dropLast_concat]
  cases stem with
  | nil => exact absurd rfl hstem
  | cons c stem => rfl

theorem fileStem_ne_nil {name : List Char} (h : name ≠ []) : fileStem name ≠ [] := by
  unfold fileStem
  split
  · exact h
  · assumption

theorem fileStem_subset {name : List Char} {c : Char} (h : c ∈ fileStem name) : c ∈ name := by
  unfold fileStem at h
  split at h
  · exact h
  · exact (List.rdropWhile_prefix _ _).subset (List.dropLast_subset _ h)

/-- A path with the extension `toml.tmp` is not the path it was made from. -/
theorem withExtension_components_ne {p : PathBuf} {name : List Char}
    (h : p.fileName = some name) :
    (p.withExtension "toml.tmp").components ≠ p.components := by
  have hname : PathBuf.isName name ∧ name ∈ p.segments := by
    unfold PathBuf.fileName at h
    rw [Option.filter_eq_some_iff] at h
    exact ⟨h.2, mem_segments_of_mem_trimmed (List.mem_of_getLast? h.1)⟩
  have hsep : '/' ∉ name := notMem_of_mem_splitOn hname.2
  have hne : name ≠ [] := by
    rintro rfl
    exact absurd hname.1 (by decide)
  have hstem := fileStem_ne_nil hne
  have hnew : (p.withExtension "toml.tmp").fileName = some (fileStem name ++ ".toml.tmp".toList) := by
    unfold PathBuf.withExtension
    rw [h]
    apply fileName_ofSegments
    · intro segment hmem
      exact notMem_of_mem_splitOn (mem_segments_of_mem_trimmed (List.dropLast_subset _ hmem))
    · rw [List.mem_append, not_or]
      exact ⟨fun hmem => hsep (fileStem_subset hmem), by decide⟩
    · have hlen : 3 ≤ (fileStem name ++ '.' :: "toml.tmp".toList).length := by simp
      simp only [PathBuf.isName, Bool.and_eq_true, decide_eq_true_eq]
      refine ⟨⟨?_, ?_⟩, ?_⟩ <;>
        · intro hshort
          rw [hshort] at hlen
          exact absurd hlen (by decide)
  intro heq
  have hlast := components_getLast? hnew
  rw [heq, components_getLast? h] at hlast
  simp only [Option.some.injEq, Component.normal.injEq] at hlast
  have hagain : fileStem (fileStem name ++ ".toml".toList ++ '.' :: "tmp".toList) =
      fileStem name ++ ".toml".toList := fileStem_append (by simp [hstem]) (by decide)
  have hsame : fileStem name ++ ".toml".toList ++ '.' :: "tmp".toList = name := by
    rw [List.append_assoc]
    exact hlast.symm
  rw [hsame] at hagain
  simpa using congrArg List.length hagain

/-! ### Parents and entries -/

theorem headComponent?_congr {first : List Char} {rest rest' : List (List Char)}
    (h : first = [] → (rest = [] ↔ rest' = [])) : headComponent? first rest = headComponent? first rest' := by
  unfold headComponent?
  by_cases hfirst : first = []
  · simp only [if_pos hfirst, h hfirst]
  · rw [if_neg hfirst, if_neg hfirst]

theorem components_ofSegments {first : List Char} {rest : List (List Char)}
    (hsep : ∀ segment ∈ first :: rest, '/' ∉ segment) :
    (PathBuf.ofSegments (first :: rest)).components =
      (headComponent? first rest).toList ++ rest.filterMap component? :=
  components_eq (segments_ofSegments (List.cons_ne_nil _ _) hsep)

theorem headComponent?_isSome {first : List Char} (hfirst : first ≠ []) (rest : List (List Char)) :
    (headComponent? first rest).isSome := by
  rw [headComponent?, if_neg hfirst]
  split_ifs with hdot
  · rfl
  · rw [component?, if_neg (by simp [hfirst, hdot])]
    split_ifs <;> rfl

/-- The last segment that is not blank is the last component. -/
theorem filterMap_concat {rest init : List (List Char)} {last : List Char}
    (hrest : rest.rdropWhile isBlank = init ++ [last]) : ∃ c,
      (rest.rdropWhile isBlank).filterMap component? = init.filterMap component? ++ [c] := by
  have hlast : isBlank last = false := by
    have hne : rest.rdropWhile isBlank ≠ [] := by simp [hrest]
    have := List.rdropWhile_last_not isBlank rest hne
    simpa [hrest] using this
  obtain ⟨c, hc⟩ : ∃ c, component? last = some c := by
    rwa [isBlank, Option.isNone_eq_false_iff, Option.isSome_iff_exists] at hlast
  refine ⟨c, ?_⟩
  rw [hrest, List.filterMap_append]
  simp [hc]

/-- The parent of a path is what is left without its last component. -/
theorem parent_components {p dir : PathBuf} (h : p.parent = some dir) :
    p.components ≠ [] ∧ dir.components = p.components.dropLast := by
  obtain ⟨first, rest, hp⟩ := exists_segments p
  have hsep : ∀ segment ∈ first :: rest, '/' ∉ segment := by
    rw [← hp]
    exact fun segment => notMem_of_mem_splitOn
  rw [components_eq hp, ← filterMap_rdropWhile_isBlank]
  rw [PathBuf.parent, trimmed_eq hp] at h
  rcases List.eq_nil_or_concat (rest.rdropWhile isBlank) with hrest | ⟨init, last, hrest⟩
  · rw [hrest] at h ⊢
    simp only at h
    split_ifs at h with hfirst
    cases h
    obtain ⟨c, hc⟩ := Option.isSome_iff_exists.mp (headComponent?_isSome hfirst rest)
    rw [hc]
    exact ⟨by simp, rfl⟩
  · rw [List.concat_eq_append] at hrest
    obtain ⟨c, hc⟩ := filterMap_concat hrest
    have hne : rest ≠ [] := by
      rintro rfl
      simp at hrest
    rw [hc, ← List.append_assoc, List.dropLast_concat]
    refine ⟨by simp, ?_⟩
    have hinit : ∀ segment ∈ first :: init.rdropWhile isBlank, '/' ∉ segment := by
      intro segment hmem
      apply hsep
      rcases List.mem_cons.mp hmem with rfl | hmem
      · exact List.mem_cons_self
      · apply List.mem_cons_of_mem
        apply (List.rdropWhile_prefix isBlank rest).subset
        rw [hrest]
        exact List.mem_append_left _ ((List.rdropWhile_prefix _ _).subset hmem)
    rw [hrest] at h
    cases hsplit : init ++ [last] with
    | nil => simp at hsplit
    | cons second more =>
        rw [hsplit] at h
        simp only [← hsplit, List.dropLast_concat, Option.some.injEq] at h
        rw [← filterMap_rdropWhile_isBlank init]
        by_cases hroot : first :: init.rdropWhile isBlank = [[]]
        · obtain ⟨rfl, hnil⟩ := List.cons.inj hroot
          rw [if_pos hroot] at h
          subst h
          rw [hnil]
          simp [headComponent?, hne]
          decide
        · rw [if_neg hroot] at h
          subst h
          rw [components_ofSegments hinit]
          congr 2
          apply headComponent?_congr
          rintro rfl
          simp only [List.cons.injEq, true_and] at hroot
          exact iff_of_false hroot hne

theorem parent_components_ne {p dir : PathBuf} (h : p.parent = some dir) :
    p.components ≠ dir.components := by
  obtain ⟨hne, hdir⟩ := parent_components h
  rw [hdir]
  intro heq
  have hlength := congrArg List.length heq
  rw [List.length_dropLast] at hlength
  have := List.length_pos_iff.mpr hne
  omega

theorem raw_of_components_nil {p : PathBuf} (h : p.components = []) : p.raw = "" := by
  obtain ⟨first, rest, hp⟩ := exists_segments p
  rw [components_eq hp, List.append_eq_nil_iff] at h
  by_cases hfirst : first = []
  · subst hfirst
    have hrest : rest = [] := by
      by_contra hne
      simp [headComponent?, hne] at h
    rw [hrest] at hp
    exact String.toList_injective (raw_of_segments hp)
  · have hsome := headComponent?_isSome hfirst rest
    cases hc : headComponent? first rest with
    | none => rw [hc] at hsome; cases hsome
    | some c => rw [hc] at h; simp at h

/-- A name at the end of a path that has other segments. -/
theorem components_snoc {p : PathBuf} {first name : List Char} {rest : List (List Char)}
    (hp : p.segments = first :: (rest ++ [name])) (hname : PathBuf.isName name) :
    p.components = (headComponent? first (rest ++ [name])).toList ++ rest.filterMap component? ++
      [.normal name] := by
  rw [components_eq hp, List.filterMap_append, List.filterMap_cons_some (component?_of_isName hname),
    List.append_assoc]
  rfl

/-- The entry of a directory with a given name. -/
theorem components_join {p q : PathBuf} (hname : PathBuf.isName q.raw.toList)
    (hsep : '/' ∉ q.raw.toList) :
    (p.join q).components = p.components ++ [.normal q.raw.toList] := by
  have hhead : ¬q.raw.toList.head? = some '/' := fun h => hsep (List.mem_of_head? h)
  have hentry (before : List Char) : (before ++ '/' :: q.raw.toList).splitOn '/' =
      before.splitOn '/' ++ [q.raw.toList] := by
    rw [List.splitOn_append_cons_self, List.splitOn_eq_singleton hsep]
  rw [PathBuf.join, if_neg hhead]
  by_cases hempty : p.raw.toList = []
  · have hp : p.components = [] := by
      rw [PathBuf.components, PathBuf.segments, hempty]
      rfl
    have hq : (⟨p.raw ++ q.raw⟩ : PathBuf).segments = [q.raw.toList] := by
      rw [PathBuf.segments, String.toList_append, hempty, List.nil_append,
        List.splitOn_eq_singleton hsep]
    rw [if_pos (.inl hempty), components_eq hq, headComponent?_of_isName hname, hp]
    rfl
  · by_cases hslash : p.raw.toList.getLast? = some '/'
    · obtain ⟨before, hbefore⟩ := List.getLast?_eq_some_iff.mp hslash
      obtain ⟨first, rest, hsegments⟩ := List.exists_cons_of_ne_nil (List.splitOn_ne_nil '/' before)
      have hp : p.segments = first :: (rest ++ [[]]) := by
        rw [PathBuf.segments, hbefore, List.splitOn_append_cons_self, hsegments, List.splitOn_nil]
        rfl
      have hq : (⟨p.raw ++ q.raw⟩ : PathBuf).segments = first :: (rest ++ [q.raw.toList]) := by
        rw [PathBuf.segments, String.toList_append, hbefore, List.append_assoc,
          List.singleton_append, hentry, hsegments]
        rfl
      have hfirst : headComponent? first (rest ++ [q.raw.toList]) =
          headComponent? first (rest ++ [[]]) :=
        headComponent?_congr fun _ => iff_of_false (by simp) (by simp)
      have hblank : [[]].filterMap component? = [] := rfl
      rw [if_pos (.inr hslash), components_snoc hq hname, components_eq hp, hfirst,
        List.filterMap_append, hblank, List.append_nil]
    · obtain ⟨first, rest, hp⟩ := exists_segments p
      have hq : (⟨p.raw ++ "/" ++ q.raw⟩ : PathBuf).segments = first :: (rest ++ [q.raw.toList]) := by
        have htext : (p.raw ++ "/" ++ q.raw).toList = p.raw.toList ++ '/' :: q.raw.toList := by
          simp
        rw [PathBuf.segments, htext, hentry, ← PathBuf.segments, hp]
        rfl
      have hfirst : headComponent? first (rest ++ [q.raw.toList]) = headComponent? first rest := by
        apply headComponent?_congr
        rintro rfl
        refine iff_of_false (by simp) ?_
        rintro rfl
        exact hempty (raw_of_segments hp)
      rw [if_neg (by simp [hempty, hslash]), components_snoc hq hname, components_eq hp, hfirst]

end FilePath
