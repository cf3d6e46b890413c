import AlertU.Input
import AlertU.RemoteAlias
import Mathlib.Data.Char
import Mathlib.Data.List.Lex
import Mathlib.Data.List.Sort
import Mathlib.Data.Prod.Lex

/-! The enumeration of the input devices: what a device is taken for, and the order of the list, which
leaves nothing of the order in which the directory is read. -/

namespace FilePath

/-- Components compare by their kind, and names by their characters, whose order UTF-8 keeps. -/
def Component.key : Component → ℕ ×ₗ List Char
  | .rootDir => toLex (0, [])
  | .curDir => toLex (1, [])
  | .parentDir => toLex (2, [])
  | .normal name => toLex (3, name)

theorem Component.key_injective : Function.Injective Component.key := by
  intro a b h
  cases a <;> cases b <;> simp_all [key]

namespace PathBuf

def key (p : PathBuf) : List (ℕ ×ₗ List Char) := p.components.map Component.key

/-- `Path::cmp` is not `Greater`. -/
def le (p q : PathBuf) : Bool := p.key ≤ q.key

theorem key_eq_iff {p q : PathBuf} : p.key = q.key ↔ p.same q := by
  rw [key, key, Component.key_injective.list_map.eq_iff, same, beq_iff_eq]

end PathBuf

end FilePath

open FilePath Text

namespace AlertU

/-- What the `evdev` crate tells about an open device. -/
structure Device where
  name : Option String
  supportedKeys : Option (List KeyCode)
  supportedRelativeAxes : Option (List UInt16)
  deriving DecidableEq, Repr

namespace Devices

def KEY_ENTER : KeyCode := 28
def KEY_A : KeyCode := 30
def KEY_SPACE : KeyCode := 57
def KEY_VOLUMEUP : KeyCode := 115
def BTN_LEFT : KeyCode := 0x110
def REL_X : UInt16 := 0
def REL_Y : UInt16 := 1

/-- Classify a device by its declared capabilities, as a keyboard and as a pointer. -/
def classify (dev : Device) : Bool × Bool :=
  let isPointer := dev.supportedRelativeAxes.any (fun r => r.contains REL_X && r.contains REL_Y) &&
    dev.supportedKeys.any fun k => k.contains BTN_LEFT
  let isKeyboard := dev.supportedKeys.any fun k =>
    k.contains KEY_ENTER || k.contains KEY_A || k.contains KEY_SPACE || k.contains KEY_VOLUMEUP
  (isKeyboard, isPointer)

def entryOf (found : PathBuf × Device) : DeviceEntry :=
  let (isKeyboard, isPointer) := classify found.2
  ⟨found.1, found.2.name.getD "<unnamed>", isKeyboard, isPointer⟩

/-- Enumerate all readable devices, sorted by path; `enumerated` are those that `evdev::enumerate` has
opened, in the order of the directory. -/
def list (enumerated : List (PathBuf × Device)) : List DeviceEntry :=
  (enumerated.map entryOf).mergeSort fun a b => a.path.le b.path

/-- The name contains the hint, in lower case, and the hint is not empty. -/
def named (U : Unicode) (nameHint name : String) : Bool :=
  trim nameHint.toList |> U.toLowercase |> fun hint => hint ≠ [] && contains (U.toLowercase name.toList) hint

/-- No two of the paths are equal. -/
def Distinct (enumerated : List (PathBuf × Device)) : Prop :=
  enumerated.Pairwise fun a b => ¬a.1.same b.1

variable {U : Unicode} {cfg : Config} {enumerated enumerated' : List (PathBuf × Device)}

theorem findByHint_eq (nameHint : String) (entries : List DeviceEntry) :
    findByHint U nameHint entries = entries.find? fun e => named U nameHint e.name := by
  simp only [findByHint, named]
  by_cases hhint : U.toLowercase (trim nameHint.toList) = []
  · rw [if_pos hhint, hhint, eq_comm, List.find?_eq_none]
    simp
  · rw [if_neg hhint]
    simp [hhint]

theorem list_perm : (list enumerated).Perm (enumerated.map entryOf) := List.mergeSort_perm _ _

theorem list_sorted : (list enumerated).Pairwise fun a b => a.path.key ≤ b.path.key := by
  have hsorted : (list enumerated).Pairwise fun a b => a.path.le b.path := by
    refine List.pairwise_mergeSort (fun a b c hab hbc => ?_) (fun a b => ?_) _
    · exact decide_eq_true ((of_decide_eq_true hab).trans (of_decide_eq_true hbc))
    · rw [Bool.or_eq_true]
      exact (le_total a.path.key b.path.key).imp decide_eq_true decide_eq_true
  exact hsorted.imp of_decide_eq_true

/-- No path stands in the list twice. -/
theorem list_strict (h : Distinct enumerated) :
    (list enumerated).Pairwise fun a b => a.path.key < b.path.key := by
  have hdistinct : (list enumerated).Pairwise fun a b => a.path.key ≠ b.path.key := by
    refine (List.pairwise_map.mpr ?_).perm list_perm.symm fun hne => hne.symm
    exact h.imp fun hab heq => hab (PathBuf.key_eq_iff.mp heq)
  exact (list_sorted.and hdistinct).imp fun h => lt_of_le_of_ne h.1 h.2

/-- Entries of a strictly sorted list are known by their paths. -/
theorem eq_of_key_eq {entries : List DeviceEntry}
    (hstrict : entries.Pairwise fun a b => a.path.key < b.path.key) {a b : DeviceEntry}
    (ha : a ∈ entries) (hb : b ∈ entries) (hkey : a.path.key = b.path.key) : a = b := by
  have hnodup : (entries.map fun e => e.path.key).Nodup :=
    List.pairwise_map.mpr (hstrict.imp fun h => h.ne)
  exact List.inj_on_of_nodup_map hnodup ha hb hkey

/-- What is found first in a strictly sorted list is the least of what is looked for. -/
theorem find?_least {entries : List DeviceEntry} {wanted : DeviceEntry → Bool}
    (hstrict : entries.Pairwise fun a b => a.path.key < b.path.key) {e : DeviceEntry} :
    entries.find? wanted = some e ↔
      e ∈ entries ∧ wanted e ∧ ∀ other ∈ entries, wanted other → e.path.key ≤ other.path.key := by
  have hleast : ∀ e, entries.find? wanted = some e →
      e ∈ entries ∧ wanted e ∧ ∀ other ∈ entries, wanted other → e.path.key ≤ other.path.key := by
    intro e hfind
    refine ⟨List.mem_of_find?_eq_some hfind, List.find?_some hfind, fun other hother hwanted => ?_⟩
    obtain ⟨-, earlier, later, rfl, hearlier⟩ := List.find?_eq_some_iff_append.mp hfind
    rcases List.mem_append.mp hother with hmem | hmem
    · exact absurd hwanted (by simpa using hearlier other hmem)
    · rcases List.mem_cons.mp hmem with rfl | hmem
      · exact le_rfl
      · exact ((List.pairwise_cons.mp (List.pairwise_append.mp hstrict).2.1).1 other hmem).le
  refine ⟨hleast e, fun ⟨hmem, hwanted, hfirst⟩ => ?_⟩
  cases hfind : entries.find? wanted with
  | none => exact absurd hwanted (by simpa using List.find?_eq_none.mp hfind e hmem)
  | some found =>
      obtain ⟨hmem', hwanted', hfirst'⟩ := hleast found hfind
      rw [eq_of_key_eq hstrict hmem' hmem (le_antisymm (hfirst' e hmem hwanted) (hfirst found hmem' hwanted'))]

/-- The order of the directory does not matter. -/
theorem list_congr (h : Distinct enumerated) (hperm : enumerated'.Perm enumerated) :
    list enumerated' = list enumerated := by
  have hsame : (list enumerated').Perm (list enumerated) :=
    list_perm.trans ((hperm.map entryOf).trans list_perm.symm)
  refine hsame.eq_of_pairwise (fun a b ha hb hab hba => ?_) list_sorted list_sorted
  exact eq_of_key_eq (list_strict h) (hsame.mem_iff.mp ha) hb (le_antisymm hab hba)

theorem candidates_auto (hwatch : cfg.watchIsAuto) (entries : List DeviceEntry) :
    candidates cfg entries = (entries.filter fun e => !e.isPointer).map (·.path) := if_pos hwatch

/-- Every device that could be opened is listed once, in the order of the paths, whatever the order in
which the directory names them. The remote that `auto` finds is the one with the least path among those
whose names contain the hint, and the devices that `auto` watches are all the others that are not
pointers, each once. -/
theorem list_of_any_order (hdistinct : Distinct enumerated) :
    (∀ enumerated', enumerated'.Perm enumerated → list enumerated' = list enumerated) ∧
    (list enumerated).Perm (enumerated.map entryOf) ∧
    ((list enumerated).Pairwise fun a b => a.path.key < b.path.key) ∧
    (cfg.remoteIsAuto → ∀ path, (resolve U cfg (list enumerated)).remote = some path ↔
      ∃ e ∈ enumerated.map entryOf, e.path = path ∧ named U cfg.remoteNameHint e.name ∧
        ∀ other ∈ enumerated.map entryOf, named U cfg.remoteNameHint other.name → path.le other.path) ∧
    (cfg.watchIsAuto →
      ((resolve U cfg (list enumerated)).watch.Pairwise fun p q => p.key < q.key) ∧
      ∀ path, path ∈ (resolve U cfg (list enumerated)).watch ↔
        (∃ e ∈ enumerated.map entryOf, e.path = path ∧ !e.isPointer) ∧
          !isRemote (resolve U cfg (list enumerated)).remote path) := by
  have hstrict := list_strict hdistinct
  refine ⟨fun enumerated' => list_congr hdistinct, list_perm, hstrict, fun hremote path => ?_,
    fun hwatch => ⟨?_, fun path => ?_⟩⟩
  · rw [resolve_remote, namedRemote, if_pos hremote, Option.map_eq_some_iff]
    simp only [findByHint_eq, find?_least hstrict, list_perm.mem_iff]
    constructor
    · rintro ⟨e, ⟨hmem, hnamed, hleast⟩, rfl⟩
      exact ⟨e, hmem, rfl, hnamed, fun other hother h => decide_eq_true (hleast other hother h)⟩
    · rintro ⟨e, hmem, rfl, hnamed, hleast⟩
      exact ⟨e, ⟨hmem, hnamed, fun other hother h => of_decide_eq_true (hleast other hother h)⟩, rfl⟩
  · rw [resolve_watch, candidates_auto hwatch]
    exact List.Pairwise.filter _ (List.pairwise_map.mpr (hstrict.filter fun e => !e.isPointer))
  · rw [resolve_watch, candidates_auto hwatch, List.mem_filter, List.mem_map, resolve_remote]
    simp only [List.mem_filter, list_perm.mem_iff]
    grind

/-- A remote that shows up as two devices, and a mouse. -/
def shutter : List (PathBuf × Device) :=
  [(⟨"/dev/input/event5"⟩, ⟨some "AB Shutter", some [KEY_VOLUMEUP], none⟩),
    (⟨"/dev/input/event2"⟩, ⟨some "Mouse", some [BTN_LEFT], some [REL_X, REL_Y]⟩),
    (⟨"/dev/input/event10"⟩, ⟨some "AB Shutter Keys", some [KEY_ENTER], none⟩)]

theorem list_of_any_order_shutter :
    list shutter.reverse = list shutter ∧
      (resolve Text.ascii { Config.default with remoteNameHint := "shutter" } (list shutter)).remote =
        some ⟨"/dev/input/event10"⟩ ∧
      ∀ path, path ∈ (resolve Text.ascii { Config.default with remoteNameHint := "shutter" }
          (list shutter)).watch →
        ∃ e ∈ shutter.map entryOf, e.path = path ∧ !e.isPointer := by
  have hdistinct : Distinct shutter := by
    unfold Distinct
    decide +kernel
  obtain ⟨horder, -, -, hremote, hwatch⟩ :=
    @list_of_any_order Text.ascii { Config.default with remoteNameHint := "shutter" } shutter hdistinct
  refine ⟨horder _ shutter.reverse_perm, ?_, fun path hpath => ?_⟩
  · refine (hremote rfl _).mpr ⟨entryOf (⟨"/dev/input/event10"⟩, ⟨some "AB Shutter Keys", some [KEY_ENTER], none⟩),
      ?_, rfl, ?_, ?_⟩
    · decide +kernel
    · decide +kernel
    · decide +kernel
  · exact ((hwatch rfl).2 path |>.mp hpath).1

end Devices

end AlertU
