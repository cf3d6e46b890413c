import AlertU.Bench
import AlertU.MachineStep
import AlertU.Runs

/-! Pairing as a round trip. A press that a pairing window reports is written into a configuration as
a name hint (or a path) and a key name, and read back by a search over the enumerated devices; the
theorem says exactly when the search finds the device that was pressed. -/

open FilePath Timing Text Runs

namespace AlertU

open Devices

/-- A name that a device can be paired by. -/
def usableName (name : String) : Bool :=
  let hint := trim name.toList
  hint ≠ [] && hint ≠ "?".toList && hint ≠ "<unnamed>".toList

/-- Whether the hint that `entry` is paired by also names `e`. -/
def answersTo (U : Unicode) (entry e : DeviceEntry) : Bool :=
  contains (U.toLowercase e.name.toList) (U.toLowercase (trim entry.name.toList))

section Resolve

variable {U : Unicode} {cfg : Config} {entry : DeviceEntry} {before after : List DeviceEntry}
  {key : String}

theorem answersTo_self : answersTo U entry entry :=
  decide_eq_true (Unicode.toLowercase_trim_isInfix _)

theorem applyLearnedRemote_named (hname : usableName entry.name) :
    cfg.applyLearnedRemote entry.path entry.name key =
      { cfg with
        remoteDevice := AUTO
        remoteNameHint := String.ofList (trim entry.name.toList)
        toggleKeys := [key] } := by
  simp only [usableName, Bool.and_eq_true, decide_eq_true_eq] at hname
  rw [Config.applyLearnedRemote]
  simp only [hname.1.1, hname.1.2, hname.2, false_or, if_false]

theorem applyLearnedRemote_unnamed (hname : ¬usableName entry.name) :
    cfg.applyLearnedRemote entry.path entry.name key =
      { cfg with remoteDevice := entry.path.raw, toggleKeys := [key] } := by
  have hhint : trim entry.name.toList = [] ∨ trim entry.name.toList = "?".toList ∨
      trim entry.name.toList = "<unnamed>".toList := by
    by_contra h
    simp only [not_or] at h
    exact hname (by simp only [usableName, ne_eq, h.1, h.2.1, h.2.2]; decide)
  rw [Config.applyLearnedRemote]
  simp only [hhint, if_true]

theorem applyLearnedRemote_toggleKeys :
    (cfg.applyLearnedRemote entry.path entry.name key).toggleKeys = [key] := by
  by_cases hname : usableName entry.name
  · rw [applyLearnedRemote_named hname]
  · rw [applyLearnedRemote_unnamed hname]

/-- The first match of a search is the element at hand unless an earlier one matches. -/
theorem find?_middle {α : Type} {q : α → Bool} {a : α} {before after : List α} (ha : q a) :
    (before ++ a :: after).find? q = some (((before.find? q).getD a)) := by
  rw [List.find?_append, List.find?_cons_of_pos ha]
  cases before.find? q <;> rfl

/-- A device paired by name is resolved to the first device that its hint names. -/
theorem resolve_named (hname : usableName entry.name) :
    (resolve U (cfg.applyLearnedRemote entry.path entry.name key) (before ++ entry :: after)).remote =
      some ((before.find? (answersTo U entry)).getD entry).path := by
  have hhint : U.toLowercase (trim entry.name.toList) ≠ [] := by
    simp only [usableName, Bool.and_eq_true, decide_eq_true_eq] at hname
    rw [Ne, Unicode.toLowercase_eq_nil_iff]
    exact hname.1.1
  have hfind : findByHint U (String.ofList (trim entry.name.toList)) (before ++ entry :: after) =
      some ((before.find? (answersTo U entry)).getD entry) := by
    rw [findByHint]
    simp only [String.toList_ofList, trim_trim, if_neg hhint]
    exact find?_middle answersTo_self
  rw [applyLearnedRemote_named hname]
  simp only [resolve, resolveRemote, Config.remoteIsAuto, isAuto_AUTO, if_true, hfind]

/-- A device paired by path is resolved to that path, unless the path reads as the wildcard. -/
theorem resolve_unnamed (hname : ¬usableName entry.name) (hauto : ¬isAuto entry.path.raw)
    (entries : List DeviceEntry) :
    (resolve U (cfg.applyLearnedRemote entry.path entry.name key) entries).remote =
      some entry.path := by
  rw [applyLearnedRemote_unnamed hname]
  simp only [resolve, resolveRemote, Config.remoteIsAuto, hauto]
  rfl

/-- The resolution finds the device that was paired unless an earlier one answers to its hint. -/
theorem isRemote_resolve_iff (U : Unicode) (cfg : Config) (key : String) (after : List DeviceEntry)
    (hdistinct : ∀ e ∈ before, !entry.path.same e.path) (habsolute : entry.path.isAbsolute) :
    isRemote (resolve U (cfg.applyLearnedRemote entry.path entry.name key)
        (before ++ entry :: after)).remote entry.path ↔
      (usableName entry.name → ∀ e ∈ before, !answersTo U entry e) := by
  by_cases hname : usableName entry.name
  · rw [resolve_named hname, isRemote]
    cases hfind : before.find? (answersTo U entry) with
    | none =>
        have hnone := List.find?_eq_none.mp hfind
        simp only [Option.getD_none, FilePath.same_self, true_iff]
        intro _ e he
        simpa using hnone e he
    | some e =>
        have hmem := List.mem_of_find?_eq_some hfind
        have hsame := hdistinct e hmem
        simp only [Option.getD_some, hname, true_implies]
        constructor
        · intro h
          rw [h] at hsame
          cases hsame
        · intro h
          have := h e hmem
          rw [List.find?_some hfind] at this
          cases this
  · rw [resolve_unnamed hname (not_isAuto_of_isAbsolute habsolute), isRemote]
    simp [hname, FilePath.same_self]

end Resolve

section Keys

variable {evdev : Evdev} {code : KeyCode}

/-- A key is read back from the configuration exactly if it has a name. -/
theorem mem_parseToggleKeys_iff :
    code ∈ parseToggleKeys evdev [evdev.debug code] ↔ (evdev.name code).isSome := by
  rw [← Evdev.fromStr_debug_iff, parseToggleKeys, List.mem_filterMap]
  simp

theorem parseToggleKeys_eq_iff :
    parseToggleKeys evdev [evdev.debug code] = [code] ↔ (evdev.name code).isSome := by
  rw [← Evdev.fromStr_debug_iff, parseToggleKeys]
  cases h : evdev.fromStr (evdev.debug code) <;> simp [h]

end Keys

namespace Daemon

variable {p : Platform} {host : Host} {d d' : Daemon} {entry : DeviceEntry} {code : KeyCode}

/-- Some reader turns a press of the key on the device into a toggle. -/
def Reacts (d : Daemon) (entry : DeviceEntry) (code : KeyCode) : Prop :=
  ∃ reader ∈ d.readers, entry.path.same reader.path ∧
    reader.role.signal entry.name (.key code 1) = some .remoteToggle

theorem spawnReaders_reacts_iff : (d.spawnReaders p host).Reacts entry code ↔
    isRemote (resolve p.unicode d.cfg host.devices).remote entry.path ∧
      code ∈ parseToggleKeys p.evdev d.cfg.toggleKeys := by
  unfold Reacts spawnReaders
  simp only [List.mem_append]
  constructor
  · rintro ⟨reader, hreader, hpath, hsignal⟩
    obtain ⟨keys, code', hrole, hevent, hcode⟩ := Role.signal_eq_remoteToggle hsignal
    cases hevent
    rcases hreader with hreader | hreader
    · cases hremote : (resolve p.unicode d.cfg host.devices).remote with
      | none =>
          rw [hremote] at hreader
          cases hreader
      | some path =>
          rw [hremote] at hreader
          simp only at hreader
          split_ifs at hreader
          · cases hreader
          · rw [List.mem_singleton] at hreader
            subst hreader
            cases hrole
            exact ⟨hpath, hcode⟩
    · obtain ⟨path, -, rfl⟩ := List.mem_map.mp hreader
      cases hrole
  · rintro ⟨hremote, hcode⟩
    cases hpath : (resolve p.unicode d.cfg host.devices).remote with
    | none =>
        rw [hpath] at hremote
        cases hremote
    | some path =>
        rw [hpath] at hremote
        have hkeys : (parseToggleKeys p.evdev d.cfg.toggleKeys).isEmpty = false :=
          List.isEmpty_eq_false_iff_exists_mem.mpr ⟨code, hcode⟩
        refine ⟨⟨path, .remote (parseToggleKeys p.evdev d.cfg.toggleKeys)⟩, .inl ?_, hremote, ?_⟩
        · simp [hkeys]
        · simp [Role.signal, hcode]

/-- The readers after a `SetConfig` that was accepted. -/
theorem reacts_of_accepted {cfg : Config} (h : step p d (.control (.setConfig cfg), host) = .ok d')
    (haccepted : d'.log.getLast? = some (.replySet .ok)) :
    d'.Reacts entry code ↔ isRemote (resolve p.unicode cfg host.devices).remote entry.path ∧
      code ∈ parseToggleKeys p.evdev cfg.toggleKeys := by
  change d.onControl p host (.setConfig cfg) = .ok d' at h
  rw [setConfig_eq] at h
  split at h
  · cases h
    simp [rejecting] at haccepted
  · split at h
    · cases h
      simp [rejecting] at haccepted
    · cases h
      exact spawnReaders_reacts_iff

/-- A press reported by a pairing window, written into any configuration: the resolution over the
same devices finds the device that was pressed, its key is read back, and once the configuration is
accepted the remote's reader reacts to the button, if and only if no earlier device answers to the
hint and the key has a name. -/
theorem learned_remote_resolves_iff {before after : List DeviceEntry} {cfg : Config}
    {started now : Instant} {press : Press} {path : PathBuf} {name key : String}
    (hdevices : host.devices = before ++ entry :: after)
    (hdistinct : host.devices.Pairwise fun a b => !a.path.same b.path)
    (habsolute : entry.path.isAbsolute)
    (hpress : Learn.watchOne p.evdev entry (.key code 1) = some press)
    (hreport : Learn.receive started now press = some (.learned path name key)) :
    (isRemote (resolve p.unicode (cfg.applyLearnedRemote path name key) host.devices).remote
        entry.path ∧
      parseToggleKeys p.evdev (cfg.applyLearnedRemote path name key).toggleKeys = [code] ↔
        (usableName entry.name → ∀ e ∈ before, !answersTo p.unicode entry e) ∧
          (p.evdev.name code).isSome) ∧
    (step p d (.control (.setConfig (cfg.applyLearnedRemote path name key)), host) = .ok d' →
      d'.log.getLast? = some (.replySet .ok) →
      (d'.Reacts entry code ↔
        (usableName entry.name → ∀ e ∈ before, !answersTo p.unicode entry e) ∧
          (p.evdev.name code).isSome)) := by
  obtain ⟨code', hevent, -, rfl⟩ := Learn.watchOne_eq_some hpress
  cases hevent
  unfold Learn.receive at hreport
  split_ifs at hreport
  cases hreport
  have hbefore : ∀ e ∈ before, !entry.path.same e.path := by
    intro e he
    rw [hdevices] at hdistinct
    have := (List.pairwise_append.mp hdistinct).2.2 e he entry List.mem_cons_self
    rwa [FilePath.same_comm]
  have hremote := isRemote_resolve_iff p.unicode cfg (p.evdev.debug code) after hbefore habsolute
  constructor
  · rw [hdevices, applyLearnedRemote_toggleKeys, parseToggleKeys_eq_iff, hremote]
  · intro hstep haccepted
    rw [reacts_of_accepted hstep haccepted, hdevices, applyLearnedRemote_toggleKeys,
      mem_parseToggleKeys_iff, hremote]

def shutterNode : DeviceEntry := ⟨⟨"/dev/input/event5"⟩, "AB Shutter", true, false⟩

/-- The node of the volume keys that such a remote may come with. -/
def shutterControlNode : DeviceEntry :=
  ⟨⟨"/dev/input/event4"⟩, "AB Shutter Consumer Control", true, false⟩

theorem shutter_press : Learn.watchOne Bench.evdev shutterNode (.key 28 1) =
    some ⟨⟨"/dev/input/event5"⟩, "AB Shutter", "KEY_ENTER"⟩ := by decide +kernel

theorem shutter_report : Learn.receive ⟨0, by decide⟩ ⟨1000000000, by decide⟩
    ⟨⟨"/dev/input/event5"⟩, "AB Shutter", "KEY_ENTER"⟩ =
      some (.learned ⟨"/dev/input/event5"⟩ "AB Shutter" "KEY_ENTER") := by decide +kernel

theorem learned_remote_resolves_iff_shutter : ∃ d' : Daemon, d'.Reacts shutterNode 28 ∧
    ⟨Bench.keyboard.path, .watch⟩ ∈ d'.readers := by
  obtain ⟨d', hstep, haccepted, hwatched⟩ : ∃ d', step Bench.platform (Bench.boot .default "c1")
      (.control (.setConfig (Config.default.applyLearnedRemote ⟨"/dev/input/event5"⟩ "AB Shutter"
        "KEY_ENTER")), Bench.deskHost) = .ok d' ∧ d'.log.getLast? = some (.replySet .ok) ∧
      ⟨Bench.keyboard.path, .watch⟩ ∈ d'.readers :=
    ⟨_, eq_ok_get (by decide +kernel), by decide +kernel, by decide +kernel⟩
  have hdevices : Bench.deskHost.devices = [Bench.keyboard] ++ shutterNode :: [] := rfl
  have hreacts := (learned_remote_resolves_iff hdevices (by decide) (by decide) shutter_press
    shutter_report).2 hstep haccepted
  exact ⟨d', hreacts.mpr ⟨fun _ => by decide +kernel, by decide⟩, hwatched⟩

/-- With a second node whose name contains that of the node that was pressed, the pairing resolves to
the wrong one. -/
theorem learned_remote_misses_second_node :
    ¬∀ (p : Platform) (entries : List DeviceEntry) (entry : DeviceEntry) (cfg : Config)
        (code : KeyCode) (press : Press) (started now : Instant) (path : PathBuf)
        (name key : String), entry ∈ Learn.listened entries →
      (entries.Pairwise fun a b => !a.path.same b.path) → (∀ e ∈ entries, e.path.isAbsolute) →
      Learn.watchOne p.evdev entry (.key code 1) = some press →
      Learn.receive started now press = some (.learned path name key) →
      isRemote (resolve p.unicode (cfg.applyLearnedRemote path name key) entries).remote
          entry.path ∧
        parseToggleKeys p.evdev (cfg.applyLearnedRemote path name key).toggleKeys = [code] := by
  intro h
  have hremote := (h Bench.platform [shutterControlNode, shutterNode] shutterNode .default 28 _ _ _ _
    _ _ (by decide) (by decide) (by decide) shutter_press shutter_report).1
  exact absurd hremote (by decide +kernel)

end Daemon

end AlertU
