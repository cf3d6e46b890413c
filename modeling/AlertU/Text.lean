import Mathlib.Data.List.DropRight
import Mathlib.Data.List.Infix

/-! Strings as the Rust standard library treats them: `trim`, `to_lowercase`, `contains`,
`eq_ignore_ascii_case` and the first word of a text. A string is worked on as its list of
characters. The per-character data of Unicode is a parameter, `Unicode`; what is fixed here is how
`to_lowercase` uses it, the final form of capital sigma included. -/

namespace Text

/-- The Unicode property `White_Space`. -/
def isWhitespace (c : Char) : Bool :=
  let n := c.toNat
  (0x09 ≤ n && n ≤ 0x0d) || n == 0x20 || n == 0x85 || n == 0xa0 || n == 0x1680 ||
    (0x2000 ≤ n && n ≤ 0x200a) || n == 0x2028 || n == 0x2029 || n == 0x202f || n == 0x205f ||
    n == 0x3000

/-- `str::trim`. -/
def trim (s : List Char) : List Char :=
  (s.dropWhile isWhitespace).rdropWhile isWhitespace

/-- `str::trim_end`. -/
def trimEnd (s : List Char) : List Char := s.rdropWhile isWhitespace

/-- A string is its trimmed part between two runs of white space. -/
theorem trim_decompose (s : List Char) :
    ∃ before after, s = before ++ trim s ++ after ∧ (∀ c ∈ before, isWhitespace c) ∧
      ∀ c ∈ after, isWhitespace c := by
  refine ⟨s.takeWhile isWhitespace, (s.dropWhile isWhitespace).rtakeWhile isWhitespace, ?_, ?_, ?_⟩
  · rw [List.append_assoc, trim, List.rdropWhile_append_rtakeWhile, List.takeWhile_append_dropWhile]
  · exact fun c hc => List.mem_takeWhile_imp hc
  · exact fun c hc => List.mem_rtakeWhile_imp hc

theorem dropWhile_of_isPrefix {p : Char → Bool} {s t : List Char} (hst : s <+: t)
    (ht : t.dropWhile p = t) : s.dropWhile p = s := by
  cases s with
  | nil => rfl
  | cons c s =>
      obtain ⟨rest, rfl⟩ := hst
      cases hc : p c with
      | false => rw [List.dropWhile_cons_of_neg (by simp [hc])]
      | true =>
          rw [List.cons_append, List.dropWhile_cons_of_pos hc] at ht
          have hlen := congrArg List.length ht
          have hle := (List.dropWhile_sublist p (l := s ++ rest)).length_le
          rw [List.length_cons] at hlen
          omega

/-- Trimming twice is trimming once. -/
theorem trim_trim (s : List Char) : trim (trim s) = trim s := by
  have hdrop : (trim s).dropWhile isWhitespace = trim s :=
    dropWhile_of_isPrefix (List.rdropWhile_prefix _ _) (List.dropWhile_idempotent _ _)
  rw [trim, hdrop]
  exact List.rdropWhile_idempotent _ _

/-- `str::eq_ignore_ascii_case`. `Char.toLower` changes ASCII letters only. -/
def eqIgnoreAsciiCase (s t : List Char) : Bool := s.map Char.toLower == t.map Char.toLower

/-- `str::contains` with a string as its pattern. -/
def contains (s pattern : List Char) : Bool := decide (pattern <:+: s)

/-- `s.split_whitespace().next()`. -/
def firstWord (s : List Char) : Option (List Char) :=
  match (s.dropWhile isWhitespace).takeWhile (fun c => !isWhitespace c) with
  | [] => none
  | word => some word

/-- `s.lines().next()`. -/
def firstLine (s : List Char) : Option (List Char) :=
  match s with
  | [] => none
  | s =>
      let line := s.takeWhile (· ≠ '\n')
      if line.length < s.length && line.getLast? == some '\r' then some line.dropLast
      else some line

/-! ### Lower case -/

/-- The character data of Unicode that `str::to_lowercase` reads. White space is neither cased nor
case-ignorable, and no character has an empty lower case. -/
structure Unicode where
  lower : Char → List Char
  cased : Char → Bool
  caseIgnorable : Char → Bool
  lower_ne_nil : ∀ c, lower c ≠ []
  cased_of_whitespace : ∀ c, isWhitespace c → cased c = false
  caseIgnorable_of_whitespace : ∀ c, isWhitespace c → caseIgnorable c = false

namespace Unicode

variable (U : Unicode)

/-- `case_ignorable_then_cased`: past the case-ignorable characters comes a cased one. -/
def caseIgnorableThenCased (s : List Char) : Bool :=
  match s.dropWhile U.caseIgnorable with
  | [] => false
  | c :: _ => U.cased c

/-- The loop of `str::to_lowercase`. `before` is what has been read, last character first: a capital
sigma becomes final when it ends a word. -/
def lowerFrom : List Char → List Char → List Char
  | _, [] => []
  | before, c :: after =>
      (if c = 'Σ' then
        if U.caseIgnorableThenCased before && !U.caseIgnorableThenCased after then ['ς'] else ['σ']
      else U.lower c) ++ lowerFrom (c :: before) after

/-- `str::to_lowercase`. -/
def toLowercase (s : List Char) : List Char := U.lowerFrom [] s

variable {U}

theorem caseIgnorableThenCased_append (s : List Char) {space : List Char}
    (hspace : ∀ c ∈ space, isWhitespace c) :
    U.caseIgnorableThenCased (s ++ space) = U.caseIgnorableThenCased s := by
  induction s with
  | nil =>
      cases space with
      | nil => rfl
      | cons c rest =>
          have hc := hspace c (by simp)
          simp [caseIgnorableThenCased, U.caseIgnorable_of_whitespace c hc,
            U.cased_of_whitespace c hc]
  | cons c s ih =>
      cases hc : U.caseIgnorable c with
      | false => simp [caseIgnorableThenCased, hc]
      | true => simpa [caseIgnorableThenCased, hc] using ih

theorem lowerFrom_eq_nil_iff (before s : List Char) : U.lowerFrom before s = [] ↔ s = [] := by
  cases s with
  | nil => simp [lowerFrom]
  | cons c s =>
      simp only [lowerFrom, List.append_eq_nil_iff, reduceCtorEq, iff_false, not_and]
      intro h
      split_ifs at h
      exact absurd h (U.lower_ne_nil c)

/-- White space around a string does not change the lower case of the string itself. -/
theorem lowerFrom_between (before s : List Char) {first last : List Char}
    (hfirst : ∀ c ∈ first, isWhitespace c) (hlast : ∀ c ∈ last, isWhitespace c) :
    U.lowerFrom (before ++ first) (s ++ last) =
      U.lowerFrom before s ++ U.lowerFrom (s.reverse ++ before ++ first) last := by
  induction s generalizing before with
  | nil => simp [lowerFrom]
  | cons c s ih =>
      have htail := ih (c :: before)
      rw [List.cons_append] at htail
      rw [List.cons_append, lowerFrom, lowerFrom, htail,
        caseIgnorableThenCased_append before hfirst, caseIgnorableThenCased_append s hlast]
      simp only [List.append_assoc, List.reverse_cons, List.cons_append,
        List.nil_append]

theorem lowerFrom_append_space (before s : List Char) {space : List Char}
    (hspace : ∀ c ∈ space, isWhitespace c) :
    U.lowerFrom before (space ++ s) =
      U.lowerFrom before space ++ U.lowerFrom (space.reverse ++ before) s := by
  induction space generalizing before with
  | nil => rfl
  | cons c space ih =>
      have hc : c ≠ 'Σ' := by
        rintro rfl
        exact absurd (hspace 'Σ' (by simp)) (by decide)
      have hrest := ih (c :: before) fun c' hc' => hspace c' (List.mem_cons_of_mem _ hc')
      rw [List.cons_append, lowerFrom, lowerFrom, if_neg hc, if_neg hc, hrest]
      simp

/-- The lower case of a trimmed string occurs in the lower case of the string. -/
theorem toLowercase_trim_isInfix (s : List Char) :
    U.toLowercase (trim s) <:+: U.toLowercase s := by
  obtain ⟨before, after, hs, hbefore, hafter⟩ := trim_decompose s
  refine ⟨U.lowerFrom [] before, U.lowerFrom ((trim s).reverse ++ before.reverse) after, ?_⟩
  have hreverse : ∀ c ∈ before.reverse, isWhitespace c := fun c hc =>
    hbefore c (List.mem_reverse.mp hc)
  have hbetween := U.lowerFrom_between [] (trim s) hreverse hafter
  rw [List.nil_append, List.append_nil] at hbetween
  conv_rhs => rw [toLowercase, hs, List.append_assoc, lowerFrom_append_space _ _ hbefore,
    List.append_nil, hbetween]
  simp [toLowercase]

theorem toLowercase_eq_nil_iff (s : List Char) : U.toLowercase s = [] ↔ s = [] :=
  lowerFrom_eq_nil_iff [] s

end Unicode

/-- An ASCII letter is no white space. -/
theorem isAlpha_of_isWhitespace {c : Char} (hc : isWhitespace c) : c.isAlpha = false := by
  by_contra h
  change ¬(decide ('A'.val ≤ c.val ∧ c.val ≤ 'Z'.val) ||
    (decide ('a'.val ≤ c.val) && decide (c.val ≤ 'z'.val))) = false at h
  simp only [Bool.not_eq_false, Bool.or_eq_true, Bool.and_eq_true, decide_eq_true_eq,
    UInt32.le_iff_toNat_le] at h
  simp only [isWhitespace, Char.toNat, Bool.or_eq_true, Bool.and_eq_true, beq_iff_eq,
    decide_eq_true_eq] at hc
  have hletters : 'A'.val.toNat = 65 ∧ 'Z'.val.toNat = 90 ∧ 'a'.val.toNat = 97 ∧
      'z'.val.toNat = 122 := by decide
  omega

/-- The data of Unicode on the ASCII characters, where every other character is its own lower
case. -/
def ascii : Unicode where
  lower c := [c.toLower]
  cased c := c.isAlpha
  caseIgnorable c := c == '\'' || c == '.' || c == ':' || c == '^' || c == '`'
  lower_ne_nil c := by simp
  cased_of_whitespace c hc := isAlpha_of_isWhitespace hc
  caseIgnorable_of_whitespace c hc := by
    by_contra h
    simp only [Bool.not_eq_false, Bool.or_eq_true, beq_iff_eq] at h
    rcases h with (((rfl | rfl) | rfl) | rfl) | rfl <;> exact absurd hc (by decide)

end Text
