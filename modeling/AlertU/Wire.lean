import AlertU.Client
import AlertU.Records
import Mathlib.Tactic.SplitIfs

/-! The wire format of the control socket: the JSON values that requests and responses are written as, and
what is read from a JSON value that a peer has sent. The derived code follows the attributes of the types:
`tag`, `rename_all`, and for the configuration `default` and `deny_unknown_fields`. -/

open FilePath Records

namespace AlertU

/-- A path is written as its text. -/
def pathCodec : Codec PathBuf :=
  Codec.string.via ⟨PathBuf.raw, PathBuf.mk, fun _ => rfl, fun _ => rfl⟩

theorem exact_pathCodec : pathCodec.Exact := Codec.exact_via Codec.exact_string _

namespace Config

def fields : List (Member Config) :=
  [⟨_, "remote_device", .string, remoteDevice, fun v cfg => { cfg with remoteDevice := v }, fun _ _ => rfl⟩,
    ⟨_, "remote_name_hint", .string, remoteNameHint, fun v cfg => { cfg with remoteNameHint := v },
      fun _ _ => rfl⟩,
    ⟨_, "toggle_keys", .list .string, toggleKeys, fun v cfg => { cfg with toggleKeys := v },
      fun _ _ => rfl⟩,
    ⟨_, "watch_devices", .list .string, watchDevices, fun v cfg => { cfg with watchDevices := v },
      fun _ _ => rfl⟩,
    ⟨_, "grace_period_secs", .u64, gracePeriodSecs, fun v cfg => { cfg with gracePeriodSecs := v },
      fun _ _ => rfl⟩,
    ⟨_, "alarm_delay_secs", .u64, alarmDelaySecs, fun v cfg => { cfg with alarmDelaySecs := v },
      fun _ _ => rfl⟩,
    ⟨_, "beep_sound", pathCodec, beepSound, fun v cfg => { cfg with beepSound := v }, fun _ _ => rfl⟩,
    ⟨_, "warning_sound", pathCodec, warningSound, fun v cfg => { cfg with warningSound := v },
      fun _ _ => rfl⟩,
    ⟨_, "siren_sound", pathCodec, sirenSound, fun v cfg => { cfg with sirenSound := v }, fun _ _ => rfl⟩,
    ⟨_, "alsa_device", .string, alsaDevice, fun v cfg => { cfg with alsaDevice := v }, fun _ _ => rfl⟩,
    ⟨_, "snapshot_dir", pathCodec, snapshotDir, fun v cfg => { cfg with snapshotDir := v },
      fun _ _ => rfl⟩,
    ⟨_, "camera_device", .string, cameraDevice, fun v cfg => { cfg with cameraDevice := v },
      fun _ _ => rfl⟩,
    ⟨_, "session_id", .string, sessionId, fun v cfg => { cfg with sessionId := v }, fun _ _ => rfl⟩,
    ⟨_, "alarm_webhook_url", .string, alarmWebhookUrl, fun v cfg => { cfg with alarmWebhookUrl := v },
      fun _ _ => rfl⟩]

/-- A field that is missing has its default; one that is unknown is refused. -/
def record : Record Config where
  fields := fields
  base := default
  required := false
  strict := true
  names := by simp [fields]
  apart := by simp [fields, Member.Apart]
  ext a b h := by
    simp only [fields, List.forall_mem_cons] at h
    cases a
    cases b
    simp_all

theorem exact_fields : ∀ f ∈ fields, f.codec.Exact := by
  simp only [fields, List.forall_mem_cons]
  refine ⟨Codec.exact_string, Codec.exact_string, Codec.exact_list Codec.exact_string,
    Codec.exact_list Codec.exact_string, Codec.exact_u64, Codec.exact_u64, exact_pathCodec,
    exact_pathCodec, exact_pathCodec, Codec.exact_string, exact_pathCodec, Codec.exact_string,
    Codec.exact_string, Codec.exact_string, nofun⟩

/-- The entries of an object that is read as the configuration: each is one that would be written for it,
none stands there twice, and the fields that are left out have their defaults. -/
theorem readObject_iff {obj : List (String × Json)} {cfg : Config} :
    record.readObject obj = some cfg ↔ (obj.map (·.1)).Nodup ∧ obj ⊆ record.entries cfg ∧
      ∀ f ∈ fields, f.name ∉ obj.map (·.1) → f.get cfg = f.get default :=
  Record.readObject_exact_iff exact_fields rfl rfl

end Config

namespace GuardState

/-- `rename_all = "lowercase"`. -/
def wireName : GuardState → String
  | .idle => "idle"
  | .armed => "armed"
  | .triggered => "triggered"
  | .alarm => "alarm"

def ofWireName (name : String) : Option GuardState :=
  [idle, armed, triggered, alarm].find? (·.wireName = name)

/-- A state is written as its name, and read from an object with just that key as well. -/
def codec : Codec GuardState where
  write s := .string s.wireName
  read
    | .string name | .object [(name, .null)] | .object [(name, .object [])] => ofWireName name
    | _ => none
  read_write s := by cases s <;> rfl

end GuardState

def InputDeviceInfo.record : Record InputDeviceInfo where
  fields :=
    [⟨_, "path", pathCodec, path, fun v info => { info with path := v }, fun _ _ => rfl⟩,
      ⟨_, "name", .string, name, fun v info => { info with name := v }, fun _ _ => rfl⟩,
      ⟨_, "is_keyboard", .bool, isKeyboard, fun v info => { info with isKeyboard := v }, fun _ _ => rfl⟩,
      ⟨_, "is_pointer", .bool, isPointer, fun v info => { info with isPointer := v }, fun _ _ => rfl⟩]
  base := ⟨⟨""⟩, "", false, false⟩
  required := true
  strict := false
  names := by simp
  apart := by simp [Member.Apart]
  ext a b h := by
    simp only [List.forall_mem_cons] at h
    cases a
    cases b
    simp_all

namespace Request

/-- The tag `cmd`. -/
def cmd : Request → String
  | .getState => "get_state"
  | .subscribe => "subscribe"
  | .arm => "arm"
  | .disarm => "disarm"
  | .toggle => "toggle"
  | .getConfig => "get_config"
  | .setConfig _ => "set_config"
  | .listDevices => "list_devices"
  | .learnRemote _ => "learn_remote"
  | .testSound => "test_sound"

/-- The content of `LearnRemote`. -/
def learning : Record UInt64 := .single "timeout_secs" .u64 0

/-- What stands beside the tag. -/
def content : Request → List (String × Json)
  | .setConfig cfg => Config.record.entries cfg
  | .learnRemote timeoutSecs => learning.entries timeoutSecs
  | _ => []

def entries (req : Request) : List (String × Json) := ("cmd", .string req.cmd) :: req.content

def toJson (req : Request) : Json := .object req.entries

def variants : List (String × (Json → Option Request)) :=
  [("get_state", readUnit .getState), ("subscribe", readUnit .subscribe), ("arm", readUnit .arm),
    ("disarm", readUnit .disarm), ("toggle", readUnit .toggle), ("get_config", readUnit .getConfig),
    ("set_config", fun j => (Config.record.read j).map .setConfig),
    ("list_devices", readUnit .listDevices),
    ("learn_remote", fun j => (learning.read j).map .learnRemote),
    ("test_sound", readUnit .testSound)]

def ofJson (j : Json) : Option Request := readTagged "cmd" variants j

end Request

namespace Response

/-- The tag `event`. -/
def event : Response → String
  | .state _ => "state"
  | .stateChanged _ => "state_changed"
  | .config _ => "config"
  | .devices _ => "devices"
  | .learned _ _ _ => "learned"
  | .learnTimedOut => "learn_timed_out"
  | .ok => "ok"
  | .error _ => "error"

/-- The content of `State` and `StateChanged`. -/
def telling : Record GuardState := .single "state" GuardState.codec .idle

/-- The content of `Devices`. -/
def listing : Record (List InputDeviceInfo) :=
  .single "devices" (.list (.ofRecord InputDeviceInfo.record)) []

/-- The content of `Learned`. -/
def learning : Record LearnedRemote where
  fields :=
    [⟨_, "path", pathCodec, LearnedRemote.path, fun v l => { l with path := v }, fun _ _ => rfl⟩,
      ⟨_, "name", .string, LearnedRemote.name, fun v l => { l with name := v }, fun _ _ => rfl⟩,
      ⟨_, "key", .string, LearnedRemote.key, fun v l => { l with key := v }, fun _ _ => rfl⟩]
  base := ⟨⟨""⟩, "", ""⟩
  required := true
  strict := false
  names := by simp
  apart := by simp [Member.Apart]
  ext a b h := by
    simp only [List.forall_mem_cons] at h
    cases a
    cases b
    simp_all

/-- The content of `Error`. -/
def failing : Record String := .single "message" .string ""

/-- What stands beside the tag. -/
def content : Response → List (String × Json)
  | .state s | .stateChanged s => telling.entries s
  | .config cfg => Config.record.entries cfg
  | .devices infos => listing.entries infos
  | .learned path name key => learning.entries ⟨path, name, key⟩
  | .learnTimedOut | .ok => []
  | .error message => failing.entries message

def entries (response : Response) : List (String × Json) :=
  ("event", .string response.event) :: response.content

def toJson (response : Response) : Json := .object response.entries

def variants : List (String × (Json → Option Response)) :=
  [("state", fun j => (telling.read j).map .state),
    ("state_changed", fun j => (telling.read j).map .stateChanged),
    ("config", fun j => (Config.record.read j).map .config),
    ("devices", fun j => (listing.read j).map .devices),
    ("learned", fun j => (learning.read j).map fun l => .learned l.path l.name l.key),
    ("learn_timed_out", readUnit .learnTimedOut), ("ok", readUnit .ok),
    ("error", fun j => (failing.read j).map .error)]

def ofJson (j : Json) : Option Response := readTagged "event" variants j

end Response

/-! ### Round trips -/

theorem Request.ofJson_toJson (req : Request) : ofJson req.toJson = some req := by
  cases req with
  | setConfig cfg =>
      exact readTagged_record (by simp [variants, cmd, List.lookup_cons])
        (by simp [Config.record, Config.fields])
  | learnRemote timeoutSecs =>
      exact readTagged_record (by simp [variants, cmd, List.lookup_cons]) (by simp [learning, Record.single])
  | _ => exact readTagged_unit (by simp [variants, cmd, List.lookup_cons])

theorem Response.ofJson_toJson (response : Response) : ofJson response.toJson = some response := by
  cases response with
  | learned path name key =>
      have hvariant : variants.lookup "learned" =
          some fun j => (learning.read j).map fun l => .learned l.path l.name l.key := by
        simp [variants, List.lookup_cons]
      show readTagged "event" variants
        (.object (("event", .string "learned") :: learning.entries ⟨path, name, key⟩)) = _
      exact readTagged_record hvariant (by simp [learning])
  | config cfg =>
      exact readTagged_record (by simp [variants, event, List.lookup_cons])
        (by simp [Config.record, Config.fields])
  | learnTimedOut | ok => exact readTagged_unit (by simp [variants, event, List.lookup_cons])
  | state _ | stateChanged _ | devices _ | error _ =>
      exact readTagged_record (by simp [variants, event, List.lookup_cons])
        (by simp [telling, listing, failing, Record.single])

theorem stable_pathCodec : Stable pathCodec.read := Codec.stable_via Codec.stable_string _

theorem Config.stable_record : Stable record.read := by
  refine Record.stable_read ?_
  show ∀ f ∈ fields, Stable f.codec.read
  simp only [fields, List.forall_mem_cons]
  exact ⟨Codec.stable_string, Codec.stable_string, Codec.stable_list Codec.stable_string,
    Codec.stable_list Codec.stable_string, Codec.stable_u64, Codec.stable_u64, stable_pathCodec,
    stable_pathCodec, stable_pathCodec, Codec.stable_string, stable_pathCodec, Codec.stable_string,
    Codec.stable_string, Codec.stable_string, nofun⟩

/-- A state is only read from objects of one entry. -/
theorem GuardState.read_longer {e e' : String × Json} {obj : List (String × Json)} :
    codec.read (.object (e :: e' :: obj)) = none := by
  obtain ⟨name, j⟩ := e
  cases j with
  | object inner => cases inner <;> rfl
  | _ => rfl

theorem GuardState.stable_codec : Stable codec.read := by
  refine stable_of (fun obj obj' h => ?_) (fun before after name j j' h => ?_) fun _ _ _ _ _ => rfl
  · cases obj with
    | nil => rw [h.nil_eq]
    | cons e obj =>
        cases obj with
        | nil => rw [List.perm_singleton.mp h.symm]
        | cons e' rest =>
            cases obj' with
            | nil => cases h.length_eq
            | cons f obj' =>
                cases obj' with
                | nil => cases h.length_eq
                | cons f' rest' => rw [read_longer, read_longer]
  · cases before with
    | cons e before => cases before <;> simp only [List.cons_append, List.nil_append, read_longer]
    | nil =>
        cases after with
        | cons e after => simp only [List.nil_append, read_longer]
        | nil =>
            by_cases hnull : j = .null
            · rw [hnull, h.null_iff.mp hnull]
            · by_cases hempty : j = .object []
              · rw [hempty, h.empty_iff.mp hempty]
              · have hother : ∀ j : Json, j ≠ .null → j ≠ .object [] →
                    codec.read (.object [(name, j)]) = none := by
                  intro j hnull hempty
                  cases j with
                  | null => exact absurd rfl hnull
                  | object obj =>
                      cases obj with
                      | nil => exact absurd rfl hempty
                      | cons _ _ => rfl
                  | _ => rfl
                exact (hother j hnull hempty).trans
                  (hother j' (mt h.null_iff.mpr hnull) (mt h.empty_iff.mpr hempty)).symm

theorem InputDeviceInfo.stable_record : Stable record.read := by
  refine Record.stable_read ?_
  simp only [record, List.forall_mem_cons]
  exact ⟨stable_pathCodec, Codec.stable_string, Codec.stable_bool, Codec.stable_bool, nofun⟩

/-- The order of the entries does not matter to the daemon. -/
theorem Request.stable_ofJson : Stable ofJson := by
  refine stable_readTagged ?_
  have hconfig : Stable fun j => (Config.record.read j).map setConfig :=
    fun _ _ h => congrArg _ (Config.stable_record h)
  have hlearn : Stable fun j => (learning.read j).map learnRemote :=
    fun _ _ h => congrArg _ (Record.stable_single 0 Codec.stable_u64 h)
  simp only [variants, List.forall_mem_cons]
  exact ⟨stable_readUnit _, stable_readUnit _, stable_readUnit _, stable_readUnit _, stable_readUnit _,
    stable_readUnit _, hconfig, stable_readUnit _, hlearn, stable_readUnit _, nofun⟩

/-- The order of the entries does not matter to a client. -/
theorem Response.stable_ofJson : Stable ofJson := by
  refine stable_readTagged ?_
  have htelling : Stable telling.read := Record.stable_single _ GuardState.stable_codec
  have hlisting : Stable listing.read :=
    Record.stable_single _ (Codec.stable_list InputDeviceInfo.stable_record)
  have hlearning : Stable learning.read := by
    refine Record.stable_read ?_
    simp only [learning, List.forall_mem_cons]
    exact ⟨stable_pathCodec, Codec.stable_string, Codec.stable_string, nofun⟩
  have hfailing : Stable failing.read := Record.stable_single _ Codec.stable_string
  simp only [variants, List.forall_mem_cons]
  exact ⟨fun _ _ h => congrArg _ (htelling h), fun _ _ h => congrArg _ (htelling h),
    fun _ _ h => congrArg _ (Config.stable_record h), fun _ _ h => congrArg _ (hlisting h),
    fun _ _ h => congrArg _ (hlearning h), stable_readUnit _, stable_readUnit _,
    fun _ _ h => congrArg _ (hfailing h), nofun⟩

/-- Every message that is written is read back by the other side, whatever the order of the entries in any
of its objects. -/
theorem messages_round_trip :
    (∀ (req : Request) (j : Json), j.Same req.toJson → Request.ofJson j = some req) ∧
    ∀ (response : Response) (j : Json), j.Same response.toJson → Response.ofJson j = some response :=
  ⟨fun req _ h => (Request.stable_ofJson h).trans req.ofJson_toJson,
    fun response _ h => (Response.stable_ofJson h).trans response.ofJson_toJson⟩

theorem messages_round_trip_swapped :
    Request.ofJson (.object [("timeout_secs", .int 20), ("cmd", .string "learn_remote")]) =
      some (.learnRemote 20) ∧
    Response.ofJson (.object [("devices", .array [.object [("is_pointer", .bool true),
        ("path", .string "/dev/input/event5"), ("name", .string "mouse"), ("is_keyboard", .bool false)]]),
        ("event", .string "devices")]) =
      some (.devices [⟨⟨"/dev/input/event5"⟩, "mouse", false, true⟩]) :=
  ⟨messages_round_trip.1 (.learnRemote 20) _ (.perm (.swap _ _ _)),
    messages_round_trip.2 (.devices [⟨⟨"/dev/input/event5"⟩, "mouse", false, true⟩]) _
      (.trans (.perm (.swap _ _ _)) (.entry [_] [] "devices" (.item [] [] (.perm
        (@List.perm_append_comm _ [_] [_, _, _])))))⟩

/-! ### What is accepted -/

namespace Request

/-- What may stand beside the tag of a request: anything, if it has no fields; anything with one value for
`timeout_secs`; and for a configuration just its own entries, where those with the defaults may be left
out. -/
def Admits (rest : List (String × Json)) : Request → Prop
  | .setConfig cfg => (rest.map (·.1)).Nodup ∧ rest ⊆ Config.record.entries cfg ∧
      ∀ f ∈ Config.fields, f.name ∉ rest.map (·.1) → f.get cfg = f.get Config.default
  | .learnRemote timeoutSecs => values "timeout_secs" rest = [.int timeoutSecs.toNat]
  | _ => True

theorem read_learning_iff {rest : List (String × Json)} {timeoutSecs : UInt64} :
    learning.readObject rest = some timeoutSecs ↔
      values "timeout_secs" rest = [.int timeoutSecs.toNat] := by
  rw [learning, Record.readObject_single_iff]
  constructor
  · rintro ⟨j, hvalues, hread⟩
    rw [hvalues, Codec.exact_u64 j timeoutSecs hread]
    rfl
  · exact fun hvalues => ⟨_, hvalues, Codec.u64.read_write timeoutSecs⟩

/-- Which objects are read as which request. -/
theorem ofJson_object_iff {req : Request} {obj : List (String × Json)} :
    ofJson (.object obj) = some req ↔
      values "cmd" obj = [.string req.cmd] ∧ req.Admits (obj.filter fun e => e.1 ≠ "cmd") := by
  generalize hrest : (obj.filter fun e => e.1 ≠ "cmd") = rest
  rw [ofJson, readTagged_object_iff, hrest]
  constructor
  · rintro ⟨name, read, hvalues, hvariant, hread⟩
    rw [hvalues]
    obtain ⟨before, after, hsplit, _⟩ := List.lookup_eq_some_iff.mp hvariant
    have hmem : (name, read) ∈ variants := by
      rw [hsplit]
      exact List.mem_append_right _ List.mem_cons_self
    simp only [variants, List.mem_cons, Prod.mk.injEq, List.not_mem_nil, or_false] at hmem
    rcases hmem with ⟨rfl, rfl⟩ | ⟨rfl, rfl⟩ | ⟨rfl, rfl⟩ | ⟨rfl, rfl⟩ | ⟨rfl, rfl⟩ | ⟨rfl, rfl⟩ |
      ⟨rfl, rfl⟩ | ⟨rfl, rfl⟩ | ⟨rfl, rfl⟩ | ⟨rfl, rfl⟩
    case inr.inr.inr.inr.inr.inr.inl =>
      obtain ⟨cfg, hcfg, rfl⟩ := Option.map_eq_some_iff.mp hread
      exact ⟨rfl, Config.readObject_iff.mp hcfg⟩
    case inr.inr.inr.inr.inr.inr.inr.inr.inl =>
      obtain ⟨timeoutSecs, htimeout, rfl⟩ := Option.map_eq_some_iff.mp hread
      exact ⟨rfl, read_learning_iff.mp htimeout⟩
    all_goals
      cases hread
      exact ⟨rfl, trivial⟩
  · rintro ⟨hvalues, hadmits⟩
    refine ⟨req.cmd, ?_⟩
    cases req with
    | setConfig cfg =>
        refine ⟨_, hvalues, by simp [variants, cmd, List.lookup_cons]; rfl, ?_⟩
        show (Config.record.readObject rest).map setConfig = _
        rw [Config.readObject_iff.mpr hadmits, Option.map_some]
    | learnRemote timeoutSecs =>
        refine ⟨_, hvalues, by simp [variants, cmd, List.lookup_cons]; rfl, ?_⟩
        show (learning.readObject rest).map learnRemote = _
        rw [read_learning_iff.mpr hadmits, Option.map_some]
    | _ => exact ⟨_, hvalues, by simp [variants, cmd, List.lookup_cons]; rfl, rfl⟩

end Request

end AlertU
