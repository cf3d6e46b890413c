import AlertU.Calls
import Mathlib.Data.List.DropRight

/-! `alertu-authorize`, the helper that adds the invoking account to the group of the daemon. It is run as
root, from a shell. What `getent`, `id` and `usermod` do is left open: they are calls, and the system that
answers them is a parameter. -/

open Calls Runs

namespace AlertU.Authorize

/-- A command that the script runs, with the values that the script gives it. -/
inductive Call where
  | getent (key : List Char)
  | id (user : List Char)
  | usermod (argv : List (List Char))
  | echo (text : String)
  | complain (text : String)
  deriving DecidableEq

/-- `getent` and `id` stand in pipelines: either something is printed into the rest of the pipeline, or
the last command of it fails, with a status that is one more than the number here. The others return their
status. -/
abbrev Answer : Call → Type
  | .getent _ | .id _ => Except ℕ (List Char)
  | .usermod _ | .echo _ | .complain _ => ℕ

/-! ### The script -/

/-- `$(…)` of a text: without its last newlines. -/
def substitution (text : List Char) : List Char := text.rdropWhile (· = '\n')

/-- `cut -d: -f1`. -/
def cutFirst (text : List Char) : List Char :=
  ['\n'].intercalate ((text.splitOn '\n').map fun line => line.takeWhile (· ≠ ':'))

/-- `tr ' ' '\n'`. -/
def spacesToLines (text : List Char) : List Char := text.map fun c => if c = ' ' then '\n' else c

/-- `grep -qx pattern`, for a pattern without special characters. -/
def hasLine (pattern text : List Char) : Bool := pattern ∈ text.splitOn '\n'

/-- `set -e`: the script ends with the status of a command that fails. -/
def andThen (status : ℕ) (next : Prog Call Answer ℕ) : Prog Call Answer ℕ :=
  if status ≠ 0 then .ret status else next

/-- The text is printed on the standard output, and the script ends. -/
def finish (text : String) : Prog Call Answer ℕ := .call (.echo text) fun status => andThen status (.ret 0)

/-- The text is printed on the standard error, and the script ends. -/
def refuse (text : String) (exit : ℕ) : Prog Call Answer ℕ :=
  .call (.complain text) fun status => andThen status (.ret exit)

/-- `usermod -aG alertu user`. -/
abbrev join (user : List Char) : Call := .usermod ["-aG".toList, "alertu".toList, user]

def membership (user : List Char) : String := s!"{String.ofList user} is already in the alertu group"

def confirmation (user : List Char) : String := s!"added {String.ofList user} to the alertu group"

/-- The end of the script. -/
def addUser (user : List Char) : Prog Call Answer ℕ :=
  .call (join user) fun status => andThen status (finish (confirmation user))

/-- The condition of the script on the groups of the account. It is false as well when its pipeline fails. -/
def listed : Except ℕ (List Char) → Bool
  | .ok printed => hasLine "alertu".toList (spacesToLines printed)
  | .error _ => false

/-- The part of the script that has found the account. -/
def authorizeUser (user : List Char) : Prog Call Answer ℕ :=
  .call (.id user) fun printed =>
    if listed printed then finish (membership user) else addUser user

def authorize (args : List String) (pkexecUid : Option (List Char)) : Prog Call Answer ℕ :=
  if args ≠ [] then refuse "alertu-authorize: takes no arguments" 2
  else
    match pkexecUid with
    | none | some [] => refuse "alertu-authorize: PKEXEC_UID unset — run this through pkexec" 2
    | some uid =>
        .call (.getent uid) fun printed =>
          match printed with
          | .error status => .ret (status + 1)
          | .ok printed =>
              let user := substitution (cutFirst printed)
              if user = [] then refuse s!"alertu-authorize: no account for uid {String.ofList uid}" 1
              else authorizeUser user

/-! ### What the script reads -/

theorem splitOn_line {line : List Char} (h : '\n' ∉ line) : (line ++ ['\n']).splitOn '\n' = [line, []] := by
  rw [List.splitOn_append_cons_self, List.splitOn_eq_singleton h, List.splitOn_nil]
  rfl

/-- The script finds the name in the line of an account. -/
theorem cutFirst_line {name entry : List Char} (hcolon : ':' ∉ name) (hname : '\n' ∉ name)
    (hentry : '\n' ∉ entry) : substitution (cutFirst (name ++ ':' :: entry ++ ['\n'])) = name := by
  have hsplit : (name ++ ':' :: entry ++ ['\n']).splitOn '\n' = [name ++ ':' :: entry, []] := by
    refine splitOn_line ?_
    simp [hname, hentry]
  have hfirst : (name ++ ':' :: entry).takeWhile (· ≠ ':') = name := by
    rw [List.takeWhile_append_of_pos (by
      intro c hc
      have hne : c ≠ ':' := fun heq => hcolon (heq ▸ hc)
      simpa using hne)]
    simp
  have hcut : cutFirst (name ++ ':' :: entry ++ ['\n']) = name ++ ['\n'] := by
    rw [cutFirst, hsplit, List.map_cons, hfirst]
    rfl
  rw [hcut, substitution, List.rdropWhile_concat_pos _ _ _ (by decide), List.rdropWhile_eq_self_iff]
  intro hne hlast
  rw [decide_eq_true_eq] at hlast
  exact hname (hlast ▸ List.getLast_mem hne)

theorem spacesToLines_intercalate {texts : List (List Char)} (h : ∀ text ∈ texts, ' ' ∉ text) :
    spacesToLines ([' '].intercalate texts) = ['\n'].intercalate texts := by
  have hplain : ∀ text ∈ texts, spacesToLines text = text := by
    intro text htext
    refine (List.map_congr_left fun c hc => ?_).trans (List.map_id text)
    have hspace : c ≠ ' ' := fun heq => h text htext (heq ▸ hc)
    exact if_neg hspace
  induction texts with
  | nil => rfl
  | cons text rest ih =>
      rw [List.forall_mem_cons] at h hplain
      cases rest with
      | nil => simpa using hplain.1
      | cons next rest =>
          have hsplit : spacesToLines (text ++ ([' '] ++ [' '].intercalate (next :: rest))) =
              spacesToLines text ++ (['\n'] ++ spacesToLines ([' '].intercalate (next :: rest))) := by
            rw [spacesToLines, List.map_append, List.map_append]
            rfl
          rw [List.intercalate_cons_cons, List.intercalate_cons_cons, List.append_assoc, List.append_assoc,
            hsplit, hplain.1, ih h.2 hplain.2]

/-- The script finds the group among those of an account, which `id -nG` lists on one line. -/
theorem listed_line {groups : List (List Char)} (hplain : ∀ group ∈ groups, ' ' ∉ group ∧ '\n' ∉ group) :
    listed (.ok ([' '].intercalate groups ++ ['\n'])) ↔ "alertu".toList ∈ groups := by
  have hlines : spacesToLines ([' '].intercalate groups ++ ['\n']) = ['\n'].intercalate groups ++ ['\n'] := by
    rw [← spacesToLines_intercalate fun group hgroup => (hplain group hgroup).1]
    rw [spacesToLines, List.map_append]
    rfl
  rw [listed, hasLine, decide_eq_true_eq, hlines, List.splitOn_append_cons_self]
  by_cases hgroups : groups = []
  · rw [hgroups]
    decide
  · rw [List.splitOn_intercalate '\n' (fun group hgroup => (hplain group hgroup).2) hgroups]
    rw [List.mem_append, List.splitOn_nil, List.mem_singleton]
    exact or_iff_left (by decide)

/-! ### What the script grants -/

/-- What the script has run, with the answers. -/
abbrev Log := List ((k : Call) × Answer k)

def note (log : Log) (k : Call) (r : Answer k) : Log := log ++ [⟨k, r⟩]

/-- The script has been run without arguments, and `user` is the first field of what `getent` has printed for
the uid that `pkexec` has recorded. -/
structure Found (log : Log) (args : List String) (pkexecUid : Option (List Char)) (user : List Char) :
    Prop where
  noArgs : args = []
  caller : ∃ key printed, pkexecUid = some key ∧ key ≠ [] ∧ ⟨.getent key, .ok printed⟩ ∈ log ∧
    substitution (cutFirst printed) = user
  named : user ≠ []

variable {σ ι : Type}

/-- Of the commands, only `usermod` changes the accounts. -/
def Reading (exec : σ → (k : Call) → ι → Answer k × σ) : Prop :=
  ∀ accts k i, (∀ argv, k ≠ .usermod argv) → (exec accts k i).2 = accts

/-- How the script ends for the account `user`: it was a member and nothing has been changed, or `usermod`
has failed, or `usermod` has succeeded. What the script says of it may fail to be printed. -/
inductive Ended (exec : σ → (k : Call) → ι → Answer k × σ) (accts : σ) (user : List Char) (log : Log) :
    (exit : ℕ) → (accts' : σ) → Prop
  | member {exit : ℕ} (printed : List Char) (hprinted : ⟨.id user, .ok printed⟩ ∈ log)
      (hlisted : listed (.ok printed)) (hsaid : ⟨.echo (membership user), exit⟩ ∈ log) :
      Ended exec accts user log exit accts
  | refused {exit : ℕ} {accts' : σ} (i : ι) (hcall : exec accts (join user) i = (exit, accts'))
      (hstatus : ⟨join user, exit⟩ ∈ log) (hexit : exit ≠ 0) : Ended exec accts user log exit accts'
  | added {exit : ℕ} {accts' : σ} (i : ι) (hcall : exec accts (join user) i = (0, accts'))
      (hstatus : ⟨join user, 0⟩ ∈ log) (hsaid : ⟨.echo (confirmation user), exit⟩ ∈ log) :
      Ended exec accts user log exit accts'

variable {exec : σ → (k : Call) → ι → Answer k × σ} {accts accts' : σ} {log log' : Log}
  {args : List String} {pkexecUid : Option (List Char)} {user : List Char} {I : σ × Log → Prop}
  {Q : ℕ → σ × Log → Prop}

theorem mem_note {k : Call} (r : Answer k) : ⟨k, r⟩ ∈ note log k r :=
  List.mem_append_right _ (List.mem_singleton_self _)

theorem subset_note {k : Call} (r : Answer k) : log ⊆ note log k r := List.subset_append_left _ _

theorem Found.mono (h : Found log args pkexecUid user) (hlog : log ⊆ log') :
    Found log' args pkexecUid user := by
  obtain ⟨key, printed, hkey, hne, hmem, hfirst⟩ := h.caller
  exact ⟨h.noArgs, ⟨key, printed, hkey, hne, hlog hmem, hfirst⟩, h.named⟩

/-- The rule for `set -e`. -/
theorem always_checked {status : ℕ} {next : Prog Call Answer ℕ} {s : σ × Log} (hinv : I s)
    (hfailed : status ≠ 0 → Q status s) (hnext : status = 0 → Always (traced exec note) I Q next s) :
    Always (traced exec note) I Q (andThen status next) s := by
  rw [andThen]
  by_cases hstatus : status = 0
  · rw [if_neg (not_not.mpr hstatus)]
    exact hnext hstatus
  · rw [if_pos hstatus]
    exact ⟨hinv, hfailed hstatus⟩

/-- The rule for a command that does not change the accounts. -/
theorem always_reading {k : Call} {next : Answer k → Prog Call Answer ℕ} (hreading : Reading exec)
    (hk : ∀ argv, k ≠ .usermod argv) (hinv : I (accts, log))
    (hnext : ∀ r, Always (traced exec note) I Q (next r) (accts, note log k r)) :
    Always (traced exec note) I Q (.call k next) (accts, log) := by
  refine ⟨hinv, fun i => ?_⟩
  have hsame := hreading accts k i hk
  show Always _ I Q (next (exec accts k i).1) ((exec accts k i).2, note log k (exec accts k i).1)
  rw [hsame]
  exact hnext _

/-- The last command of the script: its status is the exit code. -/
theorem always_finish {text : String} (hreading : Reading exec) (hinv : I (accts, log))
    (hend : ∀ status : ℕ, I (accts, note log (.echo text) status) ∧
      Q status (accts, note log (.echo text) status)) :
    Always (traced exec note) I Q (finish text) (accts, log) := by
  refine always_reading hreading nofun hinv fun (status : ℕ) => ?_
  obtain ⟨hinv', hpost⟩ := hend status
  refine always_checked hinv' (fun _ => hpost) fun hstatus => ⟨hinv', ?_⟩
  exact (congrArg (Q · (accts, note log (.echo text) status)) hstatus).mp hpost

/-- What the script refuses it does not exit from with 0. -/
theorem always_refuse {text : String} {exit : ℕ} (hexit : exit ≠ 0) (hreading : Reading exec)
    (hend : ∀ log', I (accts, log') ∧ ∀ exit, exit ≠ 0 → Q exit (accts, log')) :
    Always (traced exec note) I Q (refuse text exit) (accts, log) := by
  refine always_reading hreading nofun (hend log).1 fun (status : ℕ) => ?_
  obtain ⟨hinv, hpost⟩ := hend (note log (.complain text) status)
  exact always_checked hinv (hpost status) fun _ => ⟨hinv, hpost exit hexit⟩

/-- The accounts are as at first, or `usermod` has been run once, for the account that has been found. -/
def Granted (exec : σ → (k : Call) → ι → Answer k × σ) (accts : σ) (args : List String)
    (pkexecUid : Option (List Char)) (c : σ × Log) : Prop :=
  c.1 = accts ∨ ∃ user, Found c.2 args pkexecUid user ∧ ∃ i, c.1 = (exec accts (join user) i).2

/-- The group is granted to the account that has been found, unless that is listed as a member. -/
theorem always_authorizeUser (hreading : Reading exec) (hfound : Found log args pkexecUid user) :
    Always (traced exec note) (Granted exec accts args pkexecUid)
      (fun exit c => Found c.2 args pkexecUid user ∧ Ended exec accts user c.2 exit c.1)
      (authorizeUser user) (accts, log) := by
  refine always_reading hreading nofun (.inl rfl) fun printed => ?_
  have hfound' := hfound.mono (subset_note (k := .id user) printed)
  split_ifs with hlisted
  · refine always_finish hreading (.inl rfl) fun status => ⟨.inl rfl, hfound'.mono (subset_note _), ?_⟩
    cases printed with
    | ok printed => exact .member printed (subset_note _ (mem_note _)) hlisted (mem_note _)
    | error _ => cases hlisted
  · refine ⟨.inl rfl, fun i => ?_⟩
    rcases hcall : exec accts (join user) i with ⟨status, accts'⟩
    have hgranted : ∀ log', Found log' args pkexecUid user → Granted exec accts args pkexecUid (accts', log') :=
      fun log' hfound => .inr ⟨user, hfound, i, by rw [hcall]⟩
    simp only [traced, hcall]
    have hjoined := hfound'.mono (subset_note (k := join user) status)
    refine always_checked (hgranted _ hjoined) (fun hexit => ⟨hjoined, ?_⟩) fun hstatus => ?_
    · exact .refused i hcall (mem_note _) hexit
    · subst hstatus
      refine always_finish hreading (hgranted _ hjoined) fun exit => ?_
      exact ⟨hgranted _ (hjoined.mono (subset_note _)), hjoined.mono (subset_note _),
        .added i hcall (subset_note _ (mem_note _)) (mem_note _)⟩

theorem always_authorize (hreading : Reading exec) :
    Always (traced exec note) (Granted exec accts args pkexecUid)
      (fun exit c => (∃ user, Found c.2 args pkexecUid user ∧ Ended exec accts user c.2 exit c.1) ∨
        (exit ≠ 0 ∧ c.1 = accts)) (authorize args pkexecUid) (accts, []) := by
  unfold authorize
  by_cases hargs : args = []
  · rw [if_neg (not_not.mpr hargs)]
    split
    · exact always_refuse (by decide) hreading fun _ => ⟨.inl rfl, fun _ hexit => .inr ⟨hexit, rfl⟩⟩
    · exact always_refuse (by decide) hreading fun _ => ⟨.inl rfl, fun _ hexit => .inr ⟨hexit, rfl⟩⟩
    · rename_i key hkey
      refine always_reading hreading nofun (.inl rfl) fun printed => ?_
      cases printed with
      | error status => exact ⟨.inl rfl, .inr ⟨Nat.succ_ne_zero status, rfl⟩⟩
      | ok printed =>
          by_cases hnobody : substitution (cutFirst printed) = []
          · simp only [if_pos hnobody]
            exact always_refuse (by decide) hreading fun _ => ⟨.inl rfl, fun _ hexit => .inr ⟨hexit, rfl⟩⟩
          · simp only [if_neg hnobody]
            have hne : key ≠ [] := fun hempty => hkey (by rw [hempty])
            have hfound : Found (note [] (.getent key) (.ok printed)) args (some key)
                (substitution (cutFirst printed)) :=
              ⟨hargs, ⟨key, printed, rfl, hne, mem_note _, rfl⟩, hnobody⟩
            exact (always_authorizeUser hreading hfound).mono (fun _ h => h) fun _ _ h => .inl ⟨_, h⟩
  · rw [if_pos hargs]
    exact always_refuse (by decide) hreading fun _ => ⟨.inl rfl, fun _ hexit => .inr ⟨hexit, rfl⟩⟩

/-- Whatever the helper is run with, whatever its commands print and whichever of them fail: it leaves the
accounts alone or has `usermod` make one account a member of the group of the daemon, once: the one that
`getent` has named for the uid that `pkexec` has recorded, when there are no arguments. It exits with 0 only
when that account has been listed as a member or `usermod` has succeeded. -/
theorem authorize_grants_caller (hreading : Reading exec) {inputs : List ι}
    {c : (σ × Log) × Prog Call Answer ℕ}
    (hrun : Run (step (traced exec note)) ((accts, []), authorize args pkexecUid) inputs c) :
    (c.1.1 = accts ∨
      ∃ user, Found c.1.2 args pkexecUid user ∧ ∃ i, c.1.1 = (exec accts (join user) i).2) ∧
    ∀ exit, c.2 = .ret exit →
      (∃ user, Found c.1.2 args pkexecUid user ∧ Ended exec accts user c.1.2 exit c.1.1) ∨
        (exit ≠ 0 ∧ c.1.1 = accts) :=
  always_iff_run.mp (always_authorize hreading) inputs c hrun

/-- A machine with the accounts `root` and `user`, by the members of the group. The last command, which
reports, is answered by the input. -/
def machine (members : List (List Char)) : (k : Call) → ℕ → Answer k × List (List Char)
  | .getent key, _ =>
      (.ok (if key = "1000".toList then "user:x:1000:1000::/:/bin/sh\n".toList
        else if key = "0".toList then "root:x:0:0::/:/bin/sh\n".toList else []), members)
  | .id user, _ =>
      (.ok (user ++ (if user ∈ members then " alertu\n".toList else "\n".toList)), members)
  | .usermod argv, _ => (0, argv.drop 2 ++ members)
  | .echo _, status | .complain _, status => (status, members)

/-- The account is added, and the script fails to say so. -/
theorem authorize_grants_caller_user : ∃ c : (List (List Char) × Log) × Prog Call Answer ℕ,
    Run (step (traced machine note)) (([], []), authorize [] (some "1000".toList)) [0, 0, 0, 1] c ∧
      c.2 = .ret 1 ∧ ∃ user, Found c.1.2 [] (some "1000".toList) user ∧
        Ended machine [] user c.1.2 1 ["user".toList] := by
  have hreading : Reading machine := by
    intro members k i hk
    cases k with
    | usermod argv => exact absurd rfl (hk argv)
    | getent _ | id _ | echo _ | complain _ => rfl
  obtain ⟨c, hrun, hexit, hmembers⟩ : ∃ c : (List (List Char) × Log) × Prog Call Answer ℕ,
      Run (step (traced machine note)) (([], []), authorize [] (some "1000".toList)) [0, 0, 0, 1] c ∧
        c.2 = .ret 1 ∧ c.1.1 = ["user".toList] := ⟨_, run_get (by decide +kernel), rfl, rfl⟩
  refine ⟨c, hrun, hexit, ?_⟩
  rcases (authorize_grants_caller hreading hrun).2 1 hexit with hended | ⟨-, hsame⟩
  · exact hmembers ▸ hended
  · rw [hsame] at hmembers
    cases hmembers

end AlertU.Authorize
