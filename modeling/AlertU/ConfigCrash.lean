import AlertU.Calls
import AlertU.ConfigPersist

/-! Saving the configuration, call by call. The daemon may die between any two calls, in the middle of the
temporary file too, and start again on the files as it has left them. -/

open FilePath Calls Runs

namespace FilePath.FileSystem

theorem put_put (fs : FileSystem) (p : PathBuf) (text text' : Option String) :
    (fs.put p text).put p text' = fs.put p text' := by
  rw [put, put, Function.update_idem]
  rfl

theorem put_lookup (fs : FileSystem) (p : PathBuf) : fs.put p (fs.lookup p) = fs := by
  rw [put, lookup, Function.update_eq_self]

end FilePath.FileSystem

namespace AlertU.ConfigCrash

/-- The calls of `std::fs`: `create` opens a file for writing and empties it, `write` appends what it can of
a text. -/
inductive Call where
  | createDirAll (dir : PathBuf)
  | create (path : PathBuf)
  | write (path : PathBuf) (text : List Char)
  | rename (source target : PathBuf)
  deriving DecidableEq

/-- Whether the call has succeeded, or how much has been written. -/
abbrev Answer : Call → Type
  | .write _ _ => Option ℕ
  | _ => Bool

/-- The files, and the configurations that have taken the place of the file. -/
structure Files where
  fs : FileSystem
  saved : List Config

/-- The calls of a save of `cfg`. Each may fail; a write may take any part of its text but nothing. -/
def exec (cfg : Config) (s : Files) : (k : Call) → Option ℕ → Answer k × Files
  | .createDirAll _, input => (input.isSome, s)
  | .create path, input =>
      if input.isSome ∧ path.fileName.isSome then (true, { s with fs := s.fs.put path (some "") })
      else (false, s)
  | .write path text, input =>
      match input with
      | none => (none, s)
      | some n =>
          let content := (s.fs.lookup path).getD "" ++ String.ofList (text.take (n + 1))
          (some (min (n + 1) text.length), { s with fs := s.fs.put path (some content) })
  | .rename source target, input =>
      if input.isSome then
        (true, ⟨(s.fs.put target (s.fs.lookup source)).put source none, s.saved ++ [cfg]⟩)
      else (false, s)

abbrev Method := Fallible Call Answer String

def check (text : String) (p : Prog Call Answer Bool) : Method Unit :=
  Prog.bind p fun ok => .ret (if ok then .ok () else .error text)

/-- `write_all`; each turn takes something of the text. -/
def writeAll (path : PathBuf) : ℕ → List Char → Prog Call Answer Bool
  | _, [] => .ret true
  | 0, _ :: _ => .ret false
  | fuel + 1, c :: rest =>
      .call (.write path (c :: rest)) fun written =>
        match written with
        | none | some 0 => .ret false
        | some (n + 1) => writeAll path fuel (rest.drop n)

/-- `std::fs::write`. -/
def writeFile (path : PathBuf) (text : List Char) : Prog Call Answer Bool :=
  .call (.create path) fun opened => if opened then writeAll path text.length text else .ret false

def createParent (path : PathBuf) : Method Unit :=
  match path.parent with
  | some parent =>
      if parent.raw ≠ "" then check s!"creating config dir {parent.raw}" (.perform (Call.createDirAll parent))
      else pure ()
  | none => pure ()

/-- `Config::save`, on the text of the configuration. -/
def replace (path : PathBuf) (text : String) : Method Unit := do
  let tmp := path.withExtension "toml.tmp"
  check s!"writing {tmp.raw}" (writeFile tmp text.toList)
  check s!"replacing {path.raw}" (.perform (Call.rename tmp path))

/-- `Config::save`. -/
def save (toml : Toml) (path : PathBuf) (cfg : Config) : Method Unit := do
  createParent path
  match toml.toStringPretty cfg with
  | none => throw "serializing config"
  | some text => replace path text

/-! ### The temporary file -/

/-- Nothing but the file at `tmp` has changed, and not even that if it is no file. -/
structure Scratch (s : Files) (tmp : PathBuf) (s' : Files) : Prop where
  saved : s'.saved = s.saved
  written : ∃ left, s'.fs = s.fs.put tmp left
  nameless : tmp.fileName = none → s'.fs = s.fs

variable {cfg : Config} {s s' : Files} {path tmp : PathBuf} {text : String}

theorem Scratch.refl (s : Files) (tmp : PathBuf) : Scratch s tmp s :=
  ⟨rfl, ⟨_, (FileSystem.put_lookup s.fs tmp).symm⟩, fun _ => rfl⟩

/-- The temporary file holds what has been written so far, and all of it at the end. -/
theorem always_writeAll (hname : tmp.fileName ≠ none) {fuel : ℕ} {done rest : List Char}
    (hfuel : rest.length ≤ fuel) (hsaved : s'.saved = s.saved)
    (hdone : s'.fs = s.fs.put tmp (some (String.ofList done))) :
    Always (exec cfg) (Scratch s tmp)
      (fun (ok : Bool) s' => ok → s'.fs = s.fs.put tmp (some (String.ofList (done ++ rest))))
      (writeAll tmp fuel rest) s' := by
  have hscratch : Scratch s tmp s' := ⟨hsaved, ⟨_, hdone⟩, fun h => absurd h hname⟩
  induction fuel generalizing s' done rest with
  | zero =>
      cases rest with
      | nil => exact ⟨hscratch, fun _ => by rw [List.append_nil, hdone]⟩
      | cons c rest => exact absurd hfuel (by simp)
  | succ fuel ih =>
      cases rest with
      | nil => exact ⟨hscratch, fun _ => by rw [List.append_nil, hdone]⟩
      | cons c rest =>
          refine ⟨hscratch, fun input => ?_⟩
          cases input with
          | none => exact ⟨hscratch, fun h => by cases h⟩
          | some n =>
              have hmin : min (n + 1) (c :: rest).length = min n rest.length + 1 := by
                rw [List.length_cons]
                omega
              have hall : done ++ c :: rest = (done ++ c :: rest.take n) ++ rest.drop (min n rest.length) := by
                rw [List.append_assoc, List.cons_append]
                congr 2
                rcases le_total n rest.length with h | h
                · rw [min_eq_left h, List.take_append_drop]
                · rw [min_eq_right h, List.take_of_length_le h, List.drop_length, List.append_nil]
              have hcontent : s'.fs.put tmp (some ((s'.fs.lookup tmp).getD "" ++
                  String.ofList ((c :: rest).take (n + 1)))) =
                  s.fs.put tmp (some (String.ofList (done ++ c :: rest.take n))) := by
                rw [hdone, FileSystem.lookup_put_self, FileSystem.put_put, String.ofList_append]
                rfl
              have hless : (rest.drop (min n rest.length)).length ≤ fuel := by
                rw [List.length_drop]
                rw [List.length_cons] at hfuel
                omega
              simp only [exec, hmin, hcontent]
              rw [hall]
              exact ih hless hsaved rfl ⟨hsaved, ⟨_, rfl⟩, fun h => absurd h hname⟩

/-- Writing the temporary file succeeds with all of the text in it. -/
theorem always_writeFile (s : Files) (tmp : PathBuf) (text : String) :
    Always (exec cfg) (Scratch s tmp)
      (fun (ok : Bool) s' => ok → tmp.fileName ≠ none ∧ s'.fs = s.fs.put tmp (some text))
      (writeFile tmp text.toList) s := by
  refine ⟨.refl s tmp, fun input => ?_⟩
  by_cases hopened : input.isSome ∧ tmp.fileName.isSome
  · have hname : tmp.fileName ≠ none := Option.isSome_iff_ne_none.mp hopened.2
    have hexec : exec cfg s (.create tmp) input = (true, { s with fs := s.fs.put tmp (some "") }) :=
      if_pos hopened
    rw [hexec]
    have hempty : s.fs.put tmp (some "") = s.fs.put tmp (some (String.ofList [])) := rfl
    have hwritten : Always (exec cfg) (Scratch s tmp) _ (writeAll tmp text.toList.length text.toList)
        { s with fs := s.fs.put tmp (some "") } := always_writeAll hname le_rfl rfl hempty
    refine hwritten.mono (fun _ h => h) fun ok s' h hok => ?_
    rw [h hok, List.nil_append, String.ofList_toList]
    exact ⟨hname, rfl⟩
  · have hexec : exec cfg s (.create tmp) input = (false, s) := if_neg hopened
    rw [hexec]
    exact ⟨.refl s tmp, fun h => by cases h⟩

/-! ### The file -/

/-- The file holds what has been saved last, or what was there at first. -/
def Holds (toml : Toml) (path : PathBuf) (initial : Option String) (s : Files) : Prop :=
  match s.saved.getLast? with
  | some cfg => ∃ text, toml.toStringPretty cfg = some text ∧ s.fs.lookup path = some text
  | none => s.fs.lookup path = initial

variable {toml : Toml} {initial : Option String}

theorem Scratch.holds (h : Scratch s (path.withExtension "toml.tmp") s')
    (hs : Holds toml path initial s) : Holds toml path initial s' := by
  have hlookup : s'.fs.lookup path = s.fs.lookup path := by
    cases hname : path.fileName with
    | none =>
        have htmp : path.withExtension "toml.tmp" = path := by rw [PathBuf.withExtension, hname]
        rw [h.nameless (by rw [htmp, hname])]
    | some name =>
        obtain ⟨left, hleft⟩ := h.written
        rw [hleft]
        exact FileSystem.lookup_put_of_ne _ _ (withExtension_components_ne hname).symm
  rw [Holds, hlookup, h.saved]
  exact hs

theorem always_check {message : String} {p : Prog Call Answer Bool} {I : Files → Prop}
    {Q : Except String Unit → Files → Prop} : Always (exec cfg) I Q (check message p) s ↔
      Always (exec cfg) I (fun ok => Q (if ok then .ok () else .error message)) p s := by
  rw [check, always_bind]
  exact ⟨fun h => h.mono (fun _ h => h) fun _ _ hr => hr.2, fun h => h.post⟩

/-- The file is replaced as a whole, by the last call. -/
theorem always_replace (htext : toml.toStringPretty cfg = some text) (hs : Holds toml path initial s) :
    Always (exec cfg) (Holds toml path initial)
      (fun r s' => r = .ok () → s'.saved.getLast? = some cfg) (replace path text) s := by
  rw [replace, always_andThen, always_check]
  refine (always_writeFile s _ text).post.mono (fun s' h => h.holds hs) fun ok s' ⟨hscratch, hok⟩ => ?_
  cases ok with
  | false => exact fun h => by cases h
  | true =>
      obtain ⟨hname, hfs⟩ := hok rfl
      have hs' := hscratch.holds hs
      refine always_check.mpr ⟨hs', fun input => ?_⟩
      by_cases hrenamed : input.isSome
      · have hexec : exec cfg s' (.rename (path.withExtension "toml.tmp") path) input =
            (true, ⟨(s'.fs.put path (s'.fs.lookup (path.withExtension "toml.tmp"))).put
              (path.withExtension "toml.tmp") none, s'.saved ++ [cfg]⟩) := if_pos hrenamed
        obtain ⟨name, hfile⟩ : ∃ name, path.fileName = some name := by
          cases hfile : path.fileName with
          | none => exact absurd (by rw [PathBuf.withExtension, hfile]; exact hfile) hname
          | some name => exact ⟨name, rfl⟩
        have hsaved : (s'.saved ++ [cfg]).getLast? = some cfg := List.getLast?_concat
        rw [hexec]
        refine ⟨?_, fun _ => hsaved⟩
        rw [Holds, hsaved]
        refine ⟨text, htext, ?_⟩
        rw [FileSystem.lookup_put_of_ne _ _ (withExtension_components_ne hfile).symm,
          FileSystem.lookup_put_self, hfs, FileSystem.lookup_put_self]
      · have hexec : exec cfg s' (.rename (path.withExtension "toml.tmp") path) input = (false, s') :=
          if_neg hrenamed
        rw [hexec]
        exact ⟨hs', fun h => by cases h⟩

/-- The directory is made, or that fails as on a disk where it does. -/
theorem always_createParent {I : Files → Prop} {Q : Except String Unit → Files → Prop} (hs : I s)
    (hok : (∀ disk : Disk, disk.mkdirFails = false → Config.createParent disk path = .ok ()) → Q (.ok ()) s)
    (herror : ∀ message, (∀ disk : Disk, disk.mkdirFails →
      Config.createParent disk path = .error message) → Q (.error message) s) :
    Always (exec cfg) I Q (createParent path) s := by
  simp only [createParent]
  cases hparent : path.parent with
  | none => exact ⟨hs, hok fun disk _ => by rw [Config.createParent, hparent]⟩
  | some parent =>
      dsimp only
      by_cases hempty : parent.raw = ""
      · rw [if_neg (not_not.mpr hempty)]
        exact ⟨hs, hok fun disk _ => by simp [Config.createParent, hparent, hempty]⟩
      · rw [if_pos hempty]
        refine always_check.mpr ⟨hs, fun input => ⟨hs, ?_⟩⟩
        cases input with
        | none => exact herror _ fun disk h => by simp [Config.createParent, hparent, hempty, h]
        | some n => exact hok fun disk h => by simp [Config.createParent, hparent, h]

theorem always_save (hs : Holds toml path initial s) :
    Always (exec cfg) (Holds toml path initial)
      (fun r s' => r = .ok () → s'.saved.getLast? = some cfg) (save toml path cfg) s := by
  refine always_andThen.mpr (always_createParent hs (fun _ => ?_) fun _ _ h => (by cases h))
  cases htext : toml.toStringPretty cfg with
  | none => exact ⟨hs, fun h => by cases h⟩
  | some text => exact always_replace htext hs

/-! ### Deaths and restarts -/

/-- The files, and the save that is going on. -/
structure Saving where
  files : Files
  program : Option (Config × Prog Call Answer (Except String Unit))

inductive Input where
  | save (cfg : Config)
  | call (input : Option ℕ)
  | finish
  | die

def start (fs : FileSystem) : Saving := ⟨⟨fs, []⟩, none⟩

def step (toml : Toml) (path : PathBuf) (s : Saving) : Input → Except Unit Saving
  | .save cfg =>
      match s.program with
      | none => .ok { s with program := some (cfg, save toml path cfg) }
      | some _ => .error ()
  | .call input =>
      match s.program with
      | some (cfg, .call k next) =>
          let (answer, files) := exec cfg s.files k input
          .ok ⟨files, some (cfg, next answer)⟩
      | _ => .error ()
  | .finish =>
      match s.program with
      | some (_, .ret _) => .ok { s with program := none }
      | _ => .error ()
  | .die => .ok { s with program := none }

/-- The file is what it should be, and stays so whatever the save that is going on will do. -/
structure Sound (toml : Toml) (path : PathBuf) (initial : Option String) (s : Saving) : Prop where
  holds : Holds toml path initial s.files
  program : ∀ cfg prog, s.program = some (cfg, prog) → Always (exec cfg) (Holds toml path initial)
    (fun r s' => r = .ok () → s'.saved.getLast? = some cfg) prog s.files

theorem Sound.step {s s' : Saving} {input : Input} (h : Sound toml path initial s)
    (hstep : step toml path s input = .ok s') : Sound toml path initial s' := by
  cases input with
  | save cfg =>
      simp only [ConfigCrash.step] at hstep
      split at hstep
      · cases hstep
        refine ⟨h.holds, fun cfg' prog hprogram => ?_⟩
        cases hprogram
        exact always_save h.holds
      · cases hstep
  | call input =>
      simp only [ConfigCrash.step] at hstep
      split at hstep
      · rename_i cfg k next hprogram
        cases hstep
        have hnext := (h.program _ _ hprogram).2 input
        refine ⟨hnext.holds, fun cfg' prog hprogram' => ?_⟩
        cases hprogram'
        exact hnext
      · cases hstep
  | finish =>
      simp only [ConfigCrash.step] at hstep
      split at hstep
      · cases hstep
        exact ⟨h.holds, fun cfg' prog hprogram => by cases hprogram⟩
      · cases hstep
  | die =>
      cases hstep
      exact ⟨h.holds, fun cfg' prog hprogram => by cases hprogram⟩

/-- Whenever the daemon dies and whatever has failed before, it starts again on the configuration that has
been saved last, or on what was there at first: never on a part of a file. A save that returns is the last
one. -/
theorem config_survives_crashes {fs : FileSystem} {inputs : List Input} {s : Saving}
    (hrun : Run (step toml path) (start fs) inputs s) :
    (match s.files.saved.getLast? with
      | some cfg => cfg.Loads toml s.files.fs path
      | none => ∀ disk, Config.load toml disk s.files.fs path = Config.load toml disk fs path) ∧
    ∀ cfg, s.program = some (cfg, .ret (.ok ())) → s.files.saved.getLast? = some cfg := by
  have hstart : Sound toml path (fs.lookup path) (start fs) :=
    ⟨rfl, fun cfg prog hprogram => by cases hprogram⟩
  have hsound := hrun.invariant hstart fun _ _ _ h _ hstep => h.step hstep
  refine ⟨?_, fun cfg hprogram => (hsound.program _ _ hprogram).2 rfl⟩
  have hholds := hsound.holds
  rw [Holds] at hholds
  cases hlast : s.files.saved.getLast? with
  | none =>
      rw [hlast] at hholds
      exact fun disk => Config.load_congr hholds
  | some cfg =>
      rw [hlast] at hholds
      obtain ⟨text, htext, hlookup⟩ := hholds
      intro disk hdisk
      rw [Config.load, FileSystem.readToString, hdisk, hlookup]
      simp only [toml.round_trip cfg text htext]

/-- The daemon dies in the middle of the temporary file, starts again and saves. -/
theorem config_survives_crashes_torn : ∃ s,
    Run (step Bench.toml ⟨"/etc/alertu/config.toml"⟩) (start ⟨fun _ => none⟩)
      [.save .default, .call (some 0), .call (some 0), .call (some 2), .die,
        .save .default, .call (some 0), .call (some 0), .call (some 100000), .call (some 0)] s ∧
      Config.default.Loads Bench.toml s.files.fs ⟨"/etc/alertu/config.toml"⟩ := by
  obtain ⟨s, hrun, hsaved⟩ : ∃ s,
      Run (step Bench.toml ⟨"/etc/alertu/config.toml"⟩) (start ⟨fun _ => none⟩)
        [.save .default, .call (some 0), .call (some 0), .call (some 2), .die,
          .save .default, .call (some 0), .call (some 0), .call (some 100000), .call (some 0)] s ∧
        (s.files.saved.getLast? == some .default) := exists_run (by decide +kernel)
  have hloads := (config_survives_crashes hrun).1
  rw [beq_iff_eq.mp hsaved] at hloads
  exact ⟨s, hrun, hloads⟩

/-! ### The save in one step -/

/-- What has been written, as a use of a disk. -/
theorem write_of_scratch {ok : Bool} (hscratch : Scratch s tmp s')
    (hok : ok → tmp.fileName ≠ none ∧ s'.fs = s.fs.put tmp (some text)) :
    ∃ writeFault, ∀ disk : Disk, disk.writeFault = writeFault → s.fs.write disk tmp text = (ok, s'.fs) := by
  cases ok with
  | true =>
      obtain ⟨hname, hfs⟩ := hok rfl
      refine ⟨none, fun disk hfault => ?_⟩
      obtain ⟨name, hname⟩ := Option.ne_none_iff_exists'.mp hname
      rw [FileSystem.write, hname, hfault, hfs]
  | false =>
      obtain ⟨left, hleft⟩ := hscratch.written
      refine ⟨some left, fun disk hfault => ?_⟩
      cases hname : tmp.fileName with
      | none => rw [FileSystem.write, hname, hscratch.nameless hname]
      | some name => rw [FileSystem.write, hname, hfault, hleft]

/-- The calls of a save come to what `Config.save` makes in one step of some disk. -/
theorem always_save_one_step (s : Files) :
    Always (exec cfg) (fun _ => True)
      (fun r s' => (∃ disk, Config.save toml disk s.fs path cfg = (r, s'.fs)) ∧
        s'.saved = s.saved ++ if r = .ok () then [cfg] else []) (save toml path cfg) s := by
  refine always_andThen.mpr (always_createParent trivial (fun hparent => ?_) fun message hparent => ?_)
  · cases htext : toml.toStringPretty cfg with
    | none =>
        refine ⟨trivial, ⟨.sound, ?_⟩, (List.append_nil _).symm⟩
        rw [Config.save, hparent _ rfl]
        simp only [htext]
    | some text =>
        refine always_andThen.mpr (always_check.mpr ?_)
        refine (always_writeFile s _ text).post.mono (fun _ _ => trivial) fun ok s' hwritten => ?_
        rcases hwritten with ⟨hscratch, hok⟩
        obtain ⟨writeFault, hwrite⟩ := write_of_scratch hscratch hok
        cases ok with
        | false =>
            refine ⟨⟨⟨none, false, writeFault, false⟩, ?_⟩, ?_⟩
            · rw [Config.save, hparent _ rfl]
              simp only [htext, hwrite ⟨none, false, writeFault, false⟩ rfl]
            · exact hscratch.saved.trans (List.append_nil _).symm
        | true =>
            refine always_check.mpr ⟨trivial, fun input => ⟨trivial, ?_⟩⟩
            cases input with
            | none =>
                refine ⟨⟨⟨none, false, writeFault, true⟩, ?_⟩, ?_⟩
                · rw [Config.save, hparent _ rfl]
                  simp only [htext, hwrite ⟨none, false, writeFault, true⟩ rfl]
                  rfl
                · exact hscratch.saved.trans (List.append_nil _).symm
            | some n =>
                refine ⟨⟨⟨none, false, writeFault, false⟩, ?_⟩, ?_⟩
                · rw [Config.save, hparent _ rfl]
                  simp only [htext, hwrite ⟨none, false, writeFault, false⟩ rfl]
                  rfl
                · exact congrArg (· ++ [cfg]) hscratch.saved
  · refine ⟨⟨⟨none, true, none, false⟩, ?_⟩, (List.append_nil _).symm⟩
    rw [Config.save, hparent _ rfl]

/-- Every run of a save to its end returns what `Config.save` returns on some disk, and leaves the files as
that does; the configuration has taken the place of the file if and only if the save succeeds. -/
theorem save_is_one_step {inputs : List (Option ℕ)} {r : Except String Unit}
    (hrun : Run (Calls.step (exec cfg)) (s, save toml path cfg) inputs (s', .ret r)) :
    (∃ disk, Config.save toml disk s.fs path cfg = (r, s'.fs)) ∧
      s'.saved = s.saved ++ if r = .ok () then [cfg] else [] :=
  (always_iff_run.mp (always_save_one_step s) inputs _ hrun).2 r rfl

/-- The text is written in three pieces. -/
theorem save_is_one_step_pieces : ∃ (s' : Files) (disk : Disk),
    Run (Calls.step (exec .default)) (⟨⟨fun _ => none⟩, []⟩,
        save Bench.toml ⟨"/etc/alertu/config.toml"⟩ .default)
      [some 0, some 0, some 99, some 0, some 100000, some 0] (s', .ret (.ok ())) ∧
      Config.save Bench.toml disk ⟨fun _ => none⟩ ⟨"/etc/alertu/config.toml"⟩ .default = (.ok (), s'.fs) := by
  obtain ⟨c, hrun, hresult⟩ : ∃ c, Run (Calls.step (exec .default)) (⟨⟨fun _ => none⟩, []⟩,
        save Bench.toml ⟨"/etc/alertu/config.toml"⟩ .default)
      [some 0, some 0, some 99, some 0, some 100000, some 0] c ∧
        (c.2.result? == some (.ok ())) := exists_run (by decide +kernel)
  obtain ⟨s', prog⟩ := c
  cases Prog.eq_ret (beq_iff_eq.mp hresult)
  obtain ⟨⟨disk, hdisk⟩, -⟩ := save_is_one_step hrun
  exact ⟨s', disk, hrun, hdisk⟩

end AlertU.ConfigCrash
