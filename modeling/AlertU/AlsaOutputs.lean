import AlertU.TextFields
import Mathlib.Data.List.ModifyLast

/-! The ALSA outputs that the settings window offers, read from what `aplay -L` prints. The text names a
device on an unindented line and describes it on the indented lines below. The loop keeps the `plughw:`
devices only, and attaches what is indented to the last device it has kept. Strings are lists of
characters here. -/

open Text

namespace AlertU.AlsaOutputs

/-- An output: the name of its device and its description. -/
abbrev Output := List Char × List Char

def indented (line : List Char) : Bool := (line.head?.map isWhitespace).getD false

def isPlughw (line : List Char) : Bool := "plughw:".toList.isPrefixOf line

/-- Describe an output that has no description yet. -/
def describe (text : List Char) (output : Output) : Output :=
  if output.2.isEmpty then (output.1, text) else output

/-- One turn of the loop over the lines. -/
def addLine (devices : List Output) (line : List Char) : List Output :=
  if indented line then devices.modifyLast (describe (trim line))
  else if isPlughw line then devices ++ [(trim line, [])]
  else devices

/-- ALSA output devices, as `aplay -L` reports them: whether it succeeded and what it printed, if it could
be started at all. -/
def alsaOutputs (aplay : Option (Bool × String)) : List Output :=
  match aplay with
  | some (true, text) => (lines text.toList).foldl addLine []
  | _ => []

/-! ### What the text says -/

/-- A device and the lines that describe it. -/
structure Block where
  device : List Char
  description : List (List Char)

/-- A line that names a device. -/
def isDevice (line : List Char) : Bool := !line.isEmpty && !indented line

/-- The devices that a text names, each with the lines up to the next device. -/
def blocks : List (List Char) → List Block
  | [] => []
  | line :: rest =>
      if isDevice line then ⟨line, rest.takeWhile (!isDevice ·)⟩ :: blocks rest else blocks rest

/-- The first line that is not blank, trimmed, or nothing. -/
def firstText : List (List Char) → List Char
  | [] => []
  | line :: rest => if trim line = [] then firstText rest else trim line

def Block.summary (b : Block) : List Char := firstText b.description

/-- The `plughw:` devices, each with the description in its own block. -/
def listed (bs : List Block) : List Output :=
  (bs.filter (isPlughw ·.device)).map fun b => (trim b.device, b.summary)

/-- No device up to the next `plughw:` device is described. -/
def Quiet (bs : List Block) : Prop :=
  ∀ b ∈ bs.takeWhile (!isPlughw ·.device), b.summary = []

/-- Between a `plughw:` device that is not described and the next one, no device is described. -/
def Undisturbed : List Block → Prop
  | [] => True
  | b :: rest => (isPlughw b.device → b.summary = [] → Quiet rest) ∧ Undisturbed rest

/-! ### Printed blocks -/

/-- A block as `aplay` prints it: the device on a line of its own, and its description indented. -/
structure Block.Printed (b : Block) : Prop where
  device : isDevice b.device
  indented : ∀ line ∈ b.description, indented line
  isLine : ∀ line ∈ b.device :: b.description, IsLine line

def printed (bs : List Block) : List Char :=
  (bs.flatMap fun b => b.device :: b.description).flatMap (· ++ ['\n'])

theorem not_isDevice_of_indented {line : List Char} (h : indented line) : isDevice line = false := by
  simp [isDevice, h]

theorem blocks_description {description : List (List Char)}
    (h : ∀ line ∈ description, indented line) (rest : List (List Char)) :
    blocks (description ++ rest) = blocks rest := by
  induction description with
  | nil => rfl
  | cons line description ih =>
      rw [List.forall_mem_cons] at h
      rw [List.cons_append, blocks, not_isDevice_of_indented h.1]
      exact ih h.2

theorem takeWhile_printed {bs : List Block} (h : ∀ b ∈ bs, b.Printed) :
    (bs.flatMap fun b => b.device :: b.description).takeWhile (!isDevice ·) = [] := by
  cases bs with
  | nil => rfl
  | cons b rest =>
      have hdevice := (h b List.mem_cons_self).device
      rw [List.flatMap_cons, List.cons_append, List.takeWhile_cons_of_neg (by simp [hdevice])]

/-- Blocks read back as they were printed. -/
theorem blocks_lines_printed {bs : List Block} (h : ∀ b ∈ bs, b.Printed) :
    blocks (lines (printed bs)) = bs := by
  have hlines : ∀ line ∈ bs.flatMap fun b => b.device :: b.description, IsLine line := by
    intro line hline
    obtain ⟨b, hb, hmem⟩ := List.mem_flatMap.mp hline
    exact (h b hb).isLine line hmem
  rw [printed, lines_printed hlines]
  clear hlines
  induction bs with
  | nil => rfl
  | cons b rest ih =>
      rw [List.forall_mem_cons] at h
      have hdescription : ∀ line ∈ b.description, (!isDevice line) = true := by
        intro line hline
        rw [not_isDevice_of_indented (h.1.indented line hline), Bool.not_false]
      rw [List.flatMap_cons, List.cons_append, blocks, if_pos h.1.device,
        List.takeWhile_append_of_pos hdescription, takeWhile_printed h.2, List.append_nil,
        blocks_description h.1.indented, ih h.2]

/-! ### The loop, block by block -/

/-- What the lines of a block do to the outputs. -/
def addBlock (devices : List Output) (b : Block) : List Output :=
  if isPlughw b.device then devices ++ [(trim b.device, b.summary)]
  else devices.modifyLast (describe b.summary)

theorem modifyLast_modifyLast {α : Type} (f g : α → α) (l : List α) :
    (l.modifyLast g).modifyLast f = l.modifyLast (f ∘ g) := by
  rcases List.eq_nil_or_concat l with rfl | ⟨init, last, rfl⟩
  · rfl
  · simp only [List.concat_eq_append, List.modifyLast_concat, Function.comp_apply]

theorem modifyLast_id {α : Type} (l : List α) : l.modifyLast id = l := by
  rcases List.eq_nil_or_concat l with rfl | ⟨init, last, rfl⟩
  · rfl
  · rw [List.concat_eq_append, List.modifyLast_concat, id]

theorem describe_nil : describe [] = id := by
  funext ⟨name, text⟩
  cases text with
  | nil => rfl
  | cons c text => rfl

theorem describe_described {output : Output} (h : output.2 ≠ []) (text : List Char) :
    describe text output = output := by
  rw [describe, if_neg (by simpa using h)]

/-- Of two descriptions the first that is not empty counts. -/
theorem describe_comp (first second : List Char) :
    describe second ∘ describe first = describe (if first = [] then second else first) := by
  funext ⟨name, text⟩
  cases text with
  | cons c text => rfl
  | nil =>
      cases first with
      | nil => rfl
      | cons c first => rfl

theorem indented_of_not_isDevice {line : List Char} (hline : isDevice line = false) (hne : line ≠ []) :
    indented line := by
  simpa [isDevice, hne] using hline

theorem addLine_of_isDevice {line : List Char} (hline : isDevice line) (devices : List Output)
    (description : List (List Char)) :
    (addLine devices line).modifyLast (describe (firstText description)) =
      addBlock devices ⟨line, description⟩ := by
  have hindented : indented line = false := by
    rw [isDevice, Bool.and_eq_true, Bool.not_eq_true', Bool.not_eq_true'] at hline
    exact hline.2
  rw [addLine, hindented, addBlock]
  cases hplughw : isPlughw line with
  | false => rfl
  | true =>
      simp only [Bool.false_eq_true, if_false, if_true, List.modifyLast_concat]
      rfl

theorem addLine_of_not_isDevice {line : List Char} (hline : isDevice line = false)
    (devices : List Output) (description : List (List Char)) :
    (addLine devices line).modifyLast (describe (firstText description)) =
      devices.modifyLast (describe (firstText (line :: description))) := by
  by_cases hne : line = []
  · subst hne
    rfl
  · rw [addLine, if_pos (indented_of_not_isDevice hline hne), modifyLast_modifyLast, describe_comp]
    rfl

/-- The loop reads a text block by block. The lines before the first device go to the last output. -/
theorem foldl_addLine (ls : List (List Char)) (devices : List Output) :
    ls.foldl addLine devices = (blocks ls).foldl addBlock
      (devices.modifyLast (describe (firstText (ls.takeWhile (!isDevice ·))))) := by
  induction ls generalizing devices with
  | nil =>
      show devices = devices.modifyLast (describe [])
      rw [describe_nil, modifyLast_id]
  | cons line rest ih =>
      rw [List.foldl_cons, ih, blocks, List.takeWhile_cons]
      cases hline : isDevice line with
      | true =>
          rw [addLine_of_isDevice hline]
          simp only [if_true, Bool.not_true, Bool.false_eq_true, if_false, firstText, describe_nil,
            modifyLast_id, List.foldl_cons]
      | false =>
          rw [addLine_of_not_isDevice hline]
          rfl

theorem alsaOutputs_blocks (text : String) :
    alsaOutputs (some (true, text)) = (blocks (lines text.toList)).foldl addBlock [] :=
  foldl_addLine (lines text.toList) []

/-! ### When the descriptions stay with their devices -/

theorem addBlock_plughw {b : Block} (hb : isPlughw b.device) (devices : List Output) :
    addBlock devices b = devices ++ [(trim b.device, b.summary)] := if_pos hb

theorem addBlock_other {b : Block} (hb : isPlughw b.device = false) (devices : List Output)
    (output : Output) : addBlock (devices ++ [output]) b = devices ++ [describe b.summary output] := by
  rw [addBlock, if_neg (by simp [hb]), List.modifyLast_concat]

theorem listed_plughw {b : Block} (hb : isPlughw b.device) (rest : List Block) :
    listed (b :: rest) = (trim b.device, b.summary) :: listed rest := by
  simp only [listed, List.filter_cons, hb, if_true, List.map_cons]

theorem listed_other {b : Block} (hb : isPlughw b.device = false) (rest : List Block) :
    listed (b :: rest) = listed rest := by
  simp only [listed, List.filter_cons, hb, Bool.false_eq_true, if_false]

theorem quiet_plughw {b : Block} (hb : isPlughw b.device) (rest : List Block) : Quiet (b :: rest) := by
  intro other hother
  rw [List.takeWhile_cons_of_neg (by simp [hb])] at hother
  exact absurd hother List.not_mem_nil

theorem quiet_other {b : Block} (hb : isPlughw b.device = false) (rest : List Block) :
    Quiet (b :: rest) ↔ b.summary = [] ∧ Quiet rest := by
  rw [Quiet, List.takeWhile_cons_of_pos (by simp [hb]), List.forall_mem_cons]
  rfl

theorem undisturbed_other {b : Block} (hb : isPlughw b.device = false) (rest : List Block) :
    Undisturbed (b :: rest) ↔ Undisturbed rest := by
  simp only [Undisturbed, hb, Bool.false_eq_true, false_implies, true_and]

/-- What a block adds comes after an output that is described. -/
theorem addBlock_keeps {devices front : List Output} {output : Output} (houtput : output.2 ≠ [])
    (h : front ++ [output] <+: devices) (b : Block) : front ++ [output] <+: addBlock devices b := by
  obtain ⟨more, rfl⟩ := h
  cases hb : isPlughw b.device with
  | true =>
      rw [addBlock_plughw hb, List.append_assoc]
      exact List.prefix_append _ _
  | false =>
      by_cases hmore : more = []
      · subst hmore
        rw [List.append_nil, addBlock_other hb, describe_described houtput]
      · rw [addBlock, if_neg (by simp [hb]), List.modifyLast_append_of_right_ne_nil _ _ _ hmore]
        exact List.prefix_append _ _

theorem foldl_addBlock_keeps {devices front : List Output} {output : Output} (houtput : output.2 ≠ [])
    (h : front ++ [output] <+: devices) (bs : List Block) :
    front ++ [output] <+: bs.foldl addBlock devices := by
  induction bs generalizing devices with
  | nil => exact h
  | cons b rest ih =>
      rw [List.foldl_cons]
      exact ih (addBlock_keeps houtput h b)

/-- With an output at hand, the rest of the text gives its own devices exactly when nothing before the
next of them describes the output as well, and the rest is undisturbed. -/
theorem foldl_addBlock_iff (bs : List Block) (devices : List Output) (output : Output) :
    bs.foldl addBlock (devices ++ [output]) = devices ++ output :: listed bs ↔
      (output.2 = [] → Quiet bs) ∧ Undisturbed bs := by
  induction bs generalizing devices output with
  | nil => simp [listed, Quiet, Undisturbed]
  | cons b rest ih =>
      rw [List.foldl_cons]
      cases hb : isPlughw b.device with
      | true =>
          have hlist : devices ++ output :: listed (b :: rest) =
              devices ++ [output] ++ (trim b.device, b.summary) :: listed rest := by
            rw [listed_plughw hb, List.append_assoc, List.singleton_append]
          rw [addBlock_plughw hb, hlist, ih]
          simp only [quiet_plughw hb, Undisturbed, hb, true_implies, implies_true, true_and]
      | false =>
          rw [addBlock_other hb, listed_other hb, quiet_other hb, undisturbed_other hb]
          by_cases houtput : output.2 = []
          · by_cases hsummary : b.summary = []
            · rw [hsummary, describe_nil, id, ih]
              simp only [true_and]
            · -- the output has got the description of another device, and keeps it
              obtain ⟨name, text⟩ := output
              obtain rfl : text = [] := houtput
              have hkept : devices ++ [(name, b.summary)] <+:
                  rest.foldl addBlock (devices ++ [(name, b.summary)]) :=
                foldl_addBlock_keeps hsummary List.prefix_rfl rest
              constructor
              · intro h
                rw [show describe b.summary (name, []) = (name, b.summary) from rfl] at h
                rw [h, List.prefix_append_right_inj, List.cons_prefix_cons] at hkept
                exact absurd (Prod.mk.inj hkept.1).2 hsummary
              · rintro ⟨hquiet, -⟩
                exact absurd (hquiet rfl).1 hsummary
          · rw [describe_described houtput, ih]
            simp only [houtput, false_implies]

/-- The outputs are the `plughw:` devices of the text, each with the first description in its own block,
exactly when the text is undisturbed. -/
theorem alsaOutputs_eq_listed_iff (text : String) :
    alsaOutputs (some (true, text)) = listed (blocks (lines text.toList)) ↔
      Undisturbed (blocks (lines text.toList)) := by
  rw [alsaOutputs_blocks]
  induction blocks (lines text.toList) with
  | nil => exact ⟨fun _ => trivial, fun _ => rfl⟩
  | cons b rest ih =>
      rw [List.foldl_cons]
      cases hb : isPlughw b.device with
      | true =>
          rw [addBlock_plughw hb, listed_plughw hb]
          exact (foldl_addBlock_iff rest [] (trim b.device, b.summary)).trans
            (by simp only [Undisturbed, hb, true_implies])
      | false =>
          rw [listed_other hb, undisturbed_other hb, ← ih, addBlock, if_neg (by simp [hb])]
          rfl

/-- An output that is not described takes over the description of the skipped device below it. -/
theorem description_from_skipped_device :
    alsaOutputs (some (true,
      "plughw:CARD=PCH,DEV=0\nhw:CARD=NVidia,DEV=3\n    HDA NVidia, HDMI 0\n")) =
        [("plughw:CARD=PCH,DEV=0".toList, "HDA NVidia, HDMI 0".toList)] ∧
      listed (blocks (lines
        "plughw:CARD=PCH,DEV=0\nhw:CARD=NVidia,DEV=3\n    HDA NVidia, HDMI 0\n".toList)) =
        [("plughw:CARD=PCH,DEV=0".toList, [])] :=
  ⟨by decide +kernel, by decide +kernel⟩

end AlertU.AlsaOutputs
