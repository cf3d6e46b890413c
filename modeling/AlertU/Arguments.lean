import AlertU.FilePath

/-! The command line of the daemon: options that each take a value. An option without its value, and a
word that is no option, are errors. -/

open FilePath

namespace AlertU

def DEFAULT_SOCKET_PATH : String := "/run/alertu/alertu.sock"

/-- Parsed command-line options. -/
structure Args where
  config : PathBuf
  socket : PathBuf
  socketGroup : Option String
  deriving DecidableEq, Repr

namespace Args

/-- How parsing ends without options: the help text is printed, or startup is aborted. -/
inductive Exit where
  | help (text : String)
  | failed (message : String)
  deriving DecidableEq, Repr

/-- The value that must follow `flag`. -/
def valueFor (flag : String) : Option String → Except Exit String
  | some v =>
      if v.toList.head? = some '-' ∧ 1 < v.utf8ByteSize then
        .error (.failed s!"{flag} expects a value, but the next argument is another flag: {v}")
      else .ok v
  | none => .error (.failed s!"{flag} expects a value")

def helpText (defaultPath : PathBuf) : String :=
  "alertu-daemon [--config <path>] [--socket <path>] [--socket-group <name>]\n\n" ++
  s!"Defaults:\n  config: {defaultPath.raw}\n  socket: {DEFAULT_SOCKET_PATH}\n" ++
  "  socket group: the daemon's own group\n\n" ++
  "The control socket is created 0660. Members of its group get full\n" ++
  "control of the alarm; treat membership as a privilege grant."

variable (defaultPath : PathBuf)

/-- One word where an option is expected, and the word after it. -/
def takeArg (args : Args) (arg : String) (next : Option String) : Except Exit Args :=
  if arg = "--config" ∨ arg = "-c" then
    (valueFor arg next).map fun v => { args with config := ⟨v⟩ }
  else if arg = "--socket" ∨ arg = "-s" then
    (valueFor arg next).map fun v => { args with socket := ⟨v⟩ }
  else if arg = "--socket-group" then
    (valueFor arg next).map fun v => { args with socketGroup := some v }
  else if arg = "--help" ∨ arg = "-h" then .error (.help (helpText defaultPath))
  else .error (.failed s!"unknown argument {arg} (try --help)")

/-- The loop of `parse_args`: an option takes the word after it along. -/
def parseFrom (args : Args) : List String → Except Exit Args
  | [] => .ok args
  | [arg] => takeArg defaultPath args arg none
  | arg :: next :: rest =>
      match takeArg defaultPath args arg (some next) with
      | .ok args => parseFrom args rest
      | .error exit => .error exit

/-- The options before any argument is read. -/
def defaults : Args := ⟨defaultPath, ⟨DEFAULT_SOCKET_PATH⟩, none⟩

/-- `parse_args`, on the arguments after the name of the program. -/
def parseArgs (args : List String) : Except Exit Args := parseFrom defaultPath (defaults defaultPath) args

/-! ### The grammar -/

inductive Flag where
  | config
  | socket
  | socketGroup
  deriving DecidableEq, Repr

def Flag.words : Flag → List String
  | .config => ["--config", "-c"]
  | .socket => ["--socket", "-s"]
  | .socketGroup => ["--socket-group"]

/-- A word that can be a value: it does not start with a dash, unless it is one. -/
def isValue (v : String) : Bool := v.toList.head? ≠ some '-' || v = "-"

/-- An option with its value. -/
structure Pair where
  flag : Flag
  word : String
  value : String
  spelled : word ∈ flag.words
  plain : isValue value

def written (pairs : List Pair) : List String := pairs.flatMap fun pair => [pair.word, pair.value]

/-- The last value that an option is given. -/
def lastValue (flag : Flag) (pairs : List Pair) : Option String :=
  ((pairs.filter fun pair => pair.flag = flag).getLast?).map (·.value)

/-- Every option has its last value, or its default. -/
def ofPairs (pairs : List Pair) : Args where
  config := ((lastValue .config pairs).map PathBuf.mk).getD defaultPath
  socket := ((lastValue .socket pairs).map PathBuf.mk).getD ⟨DEFAULT_SOCKET_PATH⟩
  socketGroup := lastValue .socketGroup pairs

def set (args : Args) (pair : Pair) : Args :=
  match pair.flag with
  | .config => { args with config := ⟨pair.value⟩ }
  | .socket => { args with socket := ⟨pair.value⟩ }
  | .socketGroup => { args with socketGroup := some pair.value }

variable {defaultPath} {args parsed : Args} {pairs : List Pair}

/-- A word of one byte that starts with a dash is a dash. -/
theorem isValue_iff {v : String} :
    isValue v ↔ ¬(v.toList.head? = some '-' ∧ 1 < v.utf8ByteSize) := by
  by_cases hdash : v.toList.head? = some '-'
  · obtain ⟨rest, hrest⟩ := List.head?_eq_some_iff.mp hdash
    have hv : v = "-" ++ String.ofList rest := by
      apply String.toList_injective
      simp [hrest]
    have hsize : v.utf8ByteSize = 1 + (String.ofList rest).utf8ByteSize := by
      rw [hv, String.utf8ByteSize_append]
      rfl
    have hempty : v = "-" ↔ (String.ofList rest).utf8ByteSize = 0 := by
      rw [String.utf8ByteSize_eq_zero_iff, hv]
      constructor
      · intro h
        apply String.toList_injective
        simpa using congrArg String.toList h
      · intro h
        rw [h]
        rfl
    simp only [isValue, hdash, ne_eq, not_true_eq_false, decide_false, Bool.false_or,
      decide_eq_true_eq, true_and, hsize, hempty]
    omega
  · simp [isValue, hdash]

theorem valueFor_of_isValue {flag v : String} (h : isValue v) : valueFor flag (some v) = .ok v :=
  if_neg (isValue_iff.mp h)

theorem valueFor_eq_ok {flag v : String} {next : Option String} (h : valueFor flag next = .ok v) :
    next = some v ∧ isValue v := by
  cases next with
  | none => cases h
  | some next =>
      rw [valueFor] at h
      split_ifs at h with hdash
      cases h
      exact ⟨rfl, isValue_iff.mpr hdash⟩

/-- Without a value, an option fails. -/
theorem valueFor_cases (flag : String) (next : Option String) :
    (∃ v, valueFor flag next = .ok v) ∨ ∃ message, valueFor flag next = .error (.failed message) := by
  cases next with
  | none => exact .inr ⟨_, rfl⟩
  | some v =>
      rw [valueFor]
      split_ifs
      · exact .inr ⟨_, rfl⟩
      · exact .inl ⟨v, rfl⟩

theorem takeArg_pair (pair : Pair) :
    takeArg defaultPath args pair.word (some pair.value) = .ok (args.set pair) := by
  obtain ⟨flag, word, value, hspelled, hplain⟩ := pair
  have hvalue : valueFor word (some value) = .ok value := valueFor_of_isValue hplain
  cases flag with
  | config =>
      have hword : word = "--config" ∨ word = "-c" := by simpa [Flag.words] using hspelled
      simp only [takeArg, hword, if_true, hvalue]
      rfl
  | socket =>
      have hword : word = "--socket" ∨ word = "-s" := by simpa [Flag.words] using hspelled
      rcases hword with rfl | rfl <;> simp [takeArg, hvalue, Except.map, set]
  | socketGroup =>
      have hword : word = "--socket-group" := by simpa [Flag.words] using hspelled
      subst hword
      simp [takeArg, hvalue, Except.map, set]

/-- An option is taken only together with a value. -/
theorem takeArg_eq_ok {arg : String} {next : Option String}
    (h : takeArg defaultPath args arg next = .ok parsed) :
    ∃ pair : Pair, arg = pair.word ∧ next = some pair.value ∧ parsed = args.set pair := by
  have hmap {f : String → Args} (h : (valueFor arg next).map f = .ok parsed) :
      ∃ v, next = some v ∧ isValue v ∧ parsed = f v := by
    cases hvalue : valueFor arg next with
    | error e =>
        rw [hvalue] at h
        cases h
    | ok v =>
        rw [hvalue] at h
        cases h
        obtain ⟨hnext, hplain⟩ := valueFor_eq_ok hvalue
        exact ⟨v, hnext, hplain, rfl⟩
  unfold takeArg at h
  split_ifs at h with hconfig hsocket hgroup
  · obtain ⟨v, hnext, hplain, rfl⟩ := hmap h
    exact ⟨⟨.config, arg, v, by simpa [Flag.words] using hconfig, hplain⟩, rfl, hnext, rfl⟩
  · obtain ⟨v, hnext, hplain, rfl⟩ := hmap h
    exact ⟨⟨.socket, arg, v, by simpa [Flag.words] using hsocket, hplain⟩, rfl, hnext, rfl⟩
  · obtain ⟨v, hnext, hplain, rfl⟩ := hmap h
    exact ⟨⟨.socketGroup, arg, v, by simpa [Flag.words] using hgroup, hplain⟩, rfl, hnext, rfl⟩

/-- Only a request for help ends without an error. -/
theorem takeArg_cases {arg : String} (next : Option String) (hhelp : arg ≠ "--help" ∧ arg ≠ "-h") :
    (∃ parsed, takeArg defaultPath args arg next = .ok parsed) ∨
      ∃ message, takeArg defaultPath args arg next = .error (.failed message) := by
  have hmap (f : String → Args) : (∃ parsed, (valueFor arg next).map f = .ok parsed) ∨
      ∃ message, (valueFor arg next).map f = .error (.failed message) := by
    rcases valueFor_cases arg next with ⟨v, hv⟩ | ⟨message, hmessage⟩
    · exact .inl ⟨f v, by rw [hv]; rfl⟩
    · exact .inr ⟨message, by rw [hmessage]; rfl⟩
  unfold takeArg
  split_ifs with hconfig hsocket hgroup hask
  · exact hmap _
  · exact hmap _
  · exact hmap _
  · rcases hask with hask | hask
    · exact absurd hask hhelp.1
    · exact absurd hask hhelp.2
  · exact .inr ⟨_, rfl⟩

/-! ### The loop -/

theorem written_cons (pair : Pair) (pairs : List Pair) :
    written (pair :: pairs) = pair.word :: pair.value :: written pairs := rfl

/-- Whatever is written as options and values is parsed. -/
theorem parseFrom_written : parseFrom defaultPath args (written pairs) = .ok (pairs.foldl set args) := by
  induction pairs generalizing args with
  | nil => rfl
  | cons pair pairs ih =>
      rw [written_cons, parseFrom, takeArg_pair]
      exact ih

/-- Whatever is parsed is written as options and values. -/
theorem parseFrom_eq_ok {words : List String} (h : parseFrom defaultPath args words = .ok parsed) :
    ∃ pairs, words = written pairs ∧ parsed = pairs.foldl set args := by
  induction args, words using parseFrom.induct defaultPath with
  | case1 args =>
      cases h
      exact ⟨[], rfl, rfl⟩
  | case2 args arg =>
      obtain ⟨pair, -, hnext, -⟩ := takeArg_eq_ok h
      cases hnext
  | case3 args arg next rest args' htake ih =>
      rw [parseFrom, htake] at h
      obtain ⟨pairs, rfl, rfl⟩ := ih h
      obtain ⟨pair, rfl, hnext, rfl⟩ := takeArg_eq_ok htake
      cases hnext
      exact ⟨pair :: pairs, rfl, rfl⟩
  | case4 args arg next rest exit htake =>
      rw [parseFrom, htake] at h
      cases h

/-- Without a request for help where an option is expected, parsing succeeds or fails. -/
theorem parseFrom_cases {words : List String}
    (hhelp : ∀ pairs word rest, words = written pairs ++ word :: rest → word ≠ "--help" ∧ word ≠ "-h") :
    (∃ parsed, parseFrom defaultPath args words = .ok parsed) ∨
      ∃ message, parseFrom defaultPath args words = .error (.failed message) := by
  induction args, words using parseFrom.induct defaultPath with
  | case1 args => exact .inl ⟨args, rfl⟩
  | case2 args arg => exact takeArg_cases none (hhelp [] arg [] rfl)
  | case3 args arg next rest args' htake ih =>
      rw [parseFrom, htake]
      apply ih
      obtain ⟨pair, rfl, hnext, -⟩ := takeArg_eq_ok htake
      cases hnext
      intro pairs word rest' hrest
      exact hhelp (pair :: pairs) word rest' (by rw [hrest, written_cons]; rfl)
  | case4 args arg next rest exit htake =>
      rw [parseFrom, htake]
      have hcases : (∃ parsed, takeArg defaultPath args arg (some next) = .ok parsed) ∨
          ∃ message, takeArg defaultPath args arg (some next) = .error (.failed message) :=
        takeArg_cases (some next) (hhelp [] arg (next :: rest) rfl)
      rw [htake] at hcases
      rcases hcases with ⟨parsed, hparsed⟩ | ⟨message, hmessage⟩
      · cases hparsed
      · cases hmessage
        exact .inr ⟨message, rfl⟩

/-! ### The last value -/

theorem lastValue_concat (flag : Flag) (pairs : List Pair) (pair : Pair) :
    lastValue flag (pairs ++ [pair]) =
      if pair.flag = flag then some pair.value else lastValue flag pairs := by
  rw [lastValue, lastValue, List.filter_append]
  split_ifs with h
  · simp [h]
  · simp [h]

/-- A later value takes the place of an earlier one. -/
theorem foldl_set (defaultPath : PathBuf) (pairs : List Pair) :
    pairs.foldl set (defaults defaultPath) = ofPairs defaultPath pairs := by
  induction pairs using List.reverseRecOn with
  | nil => rfl
  | append_singleton pairs pair ih =>
      rw [List.foldl_append, ih, List.foldl_cons, List.foldl_nil]
      cases hflag : pair.flag <;> simp [set, ofPairs, lastValue_concat, hflag]

/-- Parsing succeeds exactly on options that each have their value, and takes the last value of each.
Otherwise it fails, unless help is asked for where an option is expected. -/
theorem parseArgs_succeeds_iff (defaultPath : PathBuf) (args : List String) :
    ((∃ parsed, parseArgs defaultPath args = .ok parsed) ↔ ∃ pairs, args = written pairs) ∧
    (∀ pairs, args = written pairs → parseArgs defaultPath args = .ok (ofPairs defaultPath pairs)) ∧
    ((∀ pairs word rest, args = written pairs ++ word :: rest → word ≠ "--help" ∧ word ≠ "-h") →
      (¬∃ pairs, args = written pairs) →
        ∃ message, parseArgs defaultPath args = .error (.failed message)) := by
  have hwritten (pairs : List Pair) (h : args = written pairs) :
      parseArgs defaultPath args = .ok (ofPairs defaultPath pairs) := by
    rw [h, parseArgs, parseFrom_written, foldl_set]
  have hparsed : (∃ parsed, parseArgs defaultPath args = .ok parsed) → ∃ pairs, args = written pairs := by
    rintro ⟨parsed, h⟩
    obtain ⟨pairs, hpairs, -⟩ := parseFrom_eq_ok h
    exact ⟨pairs, hpairs⟩
  refine ⟨⟨hparsed, fun ⟨pairs, h⟩ => ⟨_, hwritten pairs h⟩⟩, hwritten, fun hhelp hnone => ?_⟩
  have hcases : (∃ parsed, parseArgs defaultPath args = .ok parsed) ∨
      ∃ message, parseArgs defaultPath args = .error (.failed message) := parseFrom_cases hhelp
  rcases hcases with hok | hfailed
  · exact absurd (hparsed hok) hnone
  · exact hfailed

example : parseArgs ⟨"/c"⟩ ["-s", "/p", "--socket-group", "wheel", "-s", "-"] =
    .ok ⟨⟨"/c"⟩, ⟨"-"⟩, some "wheel"⟩ := by decide +kernel

example : ∃ message, parseArgs ⟨"/c"⟩ ["--socket-group", "--socket", "/p"] = .error (.failed message) :=
  ⟨_, rfl⟩

end Args

end AlertU
