import AlertU.Logs
import AlertU.TrayPairing

/-! The presses that the tray has learned, and what becomes of their `SetConfig`s. Each press is turned into
one, which is queued, written and answered in its turn. So every press is on its way to the daemon or has
been accepted, as long as no step loses a `SetConfig` that has not been accepted, or reads its refusal. -/

open FilePath Runs Logs

namespace AlertU

namespace Deed

/-- The configuration that the tray takes for its own. -/
def cached? : Deed → Option Config
  | .fetched cfg | .pressed cfg => some cfg
  | _ => none

/-- The configuration that a press is turned into. -/
def pressed? : Deed → Option Config
  | .pressed cfg => some cfg
  | _ => none

/-- The configuration that the daemon tells. -/
def told? : Deed → Option Config
  | .fetched cfg => some cfg
  | _ => none

/-- The `SetConfig` of the tray that the daemon accepts. -/
def settled? : Deed → Option (Origin × Config)
  | .applied origin _ cfg => some (origin, cfg)
  | _ => none

/-- The configuration that the daemon accepts from the tray. -/
def accepted? (deed : Deed) : Option Config := deed.settled?.map (·.2)

/-- The press whose `SetConfig` the daemon accepts. -/
def settledPress? (deed : Deed) : Option ℕ := deed.settled?.map (·.1.press)

theorem pressed?_eq_none {deed : Deed} (h : deed.cached? = none) : deed.pressed? = none := by
  cases deed with
  | pressed cfg => cases h
  | _ => rfl

end Deed

/-- The press whose `SetConfig` a request is. -/
def press? : Request × Origin → Option ℕ
  | (.setConfig _, origin) => some origin.press
  | _ => none

theorem press?_eq_some {e : Request × Origin} {n : ℕ} (h : press? e = some n) :
    ∃ cfg origin, e = (.setConfig cfg, origin) ∧ origin.press = n := by
  obtain ⟨req, origin⟩ := e
  cases req with
  | setConfig cfg => exact ⟨cfg, origin, rfl, Option.some.inj h⟩
  | _ => cases h

namespace FrontEnd

variable {p : Platform} {s s' : FrontEnd} {input : FrontEndInput}

/-! ### The presses and what becomes of them -/

/-- The requests that are queued, or written and not answered, in the order of their queueing. -/
def outstanding (s : FrontEnd) : List (Request × Origin) :=
  (s.link.map Link.unanswered).getD [] ++ s.requests

/-- What the presses have been turned into. -/
def pressed (s : FrontEnd) : List Config := s.history.filterMap Deed.pressed?

/-- The presses whose `SetConfig` the daemon has accepted, in that order. -/
def settled (s : FrontEnd) : List ℕ := s.history.filterMap Deed.settledPress?

/-- The requests that a step loses, or of which it reads that they are refused. -/
def failing (s : FrontEnd) : FrontEndInput → List (Request × Origin)
  | .connect => s.requests
  | .lose => (s.link.map Link.unanswered).getD []
  | .write false => (s.link.map Link.unanswered).getD [] ++ s.requests.take 1
  | .read =>
      match s.link.bind fun link => link.conn.written[link.read]? with
      | some (some e, .error _) => [e]
      | _ => []
  | _ => []

/-- No `SetConfig` that the daemon has not accepted is lost or refused. -/
def Keeps (s : FrontEnd) (input : FrontEndInput) : Bool :=
  ((s.failing input).filterMap press?).all s.settled.contains

/-- Every press is on its way to the daemon, or has been accepted. -/
def Truthful (s : FrontEnd) : Prop :=
  ∀ n, 1 ≤ n → n ≤ s.presses → n ∈ s.outstanding.filterMap press? ∨ n ∈ s.settled

theorem outstanding_of_link {link : Link} (hlink : s.link = some link) :
    s.outstanding = link.unanswered ++ s.requests := by
  rw [outstanding, hlink]
  rfl

theorem outstanding_of_none (hlink : s.link = none) : s.outstanding = s.requests := by
  rw [outstanding, hlink]
  rfl

theorem pending_iff {e : Request × Origin} : s.Pending e ↔ e ∈ s.outstanding := by
  cases hlink : s.link with
  | none => simp [Pending, outstanding_of_none hlink, hlink]
  | some link => simp [Pending, outstanding_of_link hlink, hlink, or_comm]

/-- What is outstanding has been sent. -/
theorem sent_of_outstanding {e : Request × Origin} (he : e ∈ s.outstanding) : s.Sent e := by
  rcases pending_iff.mpr he with hmem | ⟨link, hlink, hmem⟩
  · exact .inl hmem
  · refine .inr ⟨link.conn, link_mem hlink, ?_⟩
    rw [link.requests_eq]
    exact List.mem_append_right _ hmem

theorem mem_settled {n : ℕ} : n ∈ s.settled ↔ ∃ cfg origin, s.Accepted cfg origin ∧ origin.press = n := by
  constructor
  · intro hmem
    obtain ⟨deed, hdeed, hpress⟩ := List.mem_filterMap.mp hmem
    obtain ⟨⟨origin, cfg⟩, hsettled, rfl⟩ := Option.map_eq_some_iff.mp hpress
    cases deed with
    | applied origin' force cfg' =>
        cases hsettled
        exact ⟨cfg, origin, ⟨force, hdeed⟩, rfl⟩
    | _ => cases hsettled
  · rintro ⟨cfg, origin, ⟨force, hmem⟩, rfl⟩
    exact List.mem_filterMap.mpr ⟨_, hmem, rfl⟩

/-! ### One step -/

/-- A step in which the tray reads nothing leaves its configuration alone, and the last press. -/
structure Quiet (s s' : FrontEnd) : Prop where
  cfg : s'.tray.cfg = s.tray.cfg
  presses : s'.presses = s.presses
  pairing : ∀ name key, s'.tray.pairing = .done name key → s.tray.pairing = .done name key
  history : ∃ more, s'.history = s.history ++ more ∧ ∀ deed ∈ more, deed.cached? = none

theorem Quiet.of_history (hcfg : s'.tray.cfg = s.tray.cfg) (hpresses : s'.presses = s.presses)
    (hpairing : s'.tray.pairing = s.tray.pairing) (hhistory : s'.history = s.history) : Quiet s s' :=
  ⟨hcfg, hpresses, fun _ _ h => hpairing.symm.trans h,
    [], by rw [hhistory, List.append_nil], List.forall_mem_nil _⟩

theorem Quiet.of_lost (more : List (Request × Origin)) (hcfg : s'.tray.cfg = s.tray.cfg)
    (hpresses : s'.presses = s.presses) (hpairing : s'.tray.pairing = s.tray.pairing)
    (hhistory : s'.history = s.history ++ more.map Deed.lost) : Quiet s s' := by
  refine ⟨hcfg, hpresses, fun _ _ h => hpairing.symm.trans h, _, hhistory, fun deed hmem => ?_⟩
  obtain ⟨e, -, rfl⟩ := List.mem_map.mp hmem
  rfl

theorem Went.quiet (h : Went p s input s') (hinput : input ≠ .read) : Quiet s s' := by
  cases h with
  | machine wake host service hwake => exact .of_history rfl rfl rfl rfl
  | handled peer host conn conn' service e rest hpeer hctrl hhandled =>
      have hdeeds : ∀ deed ∈ deeds e s.service service, deed.cached? = none := by
        intro deed hdeed
        rcases deeds_cases hdeed with ⟨-, -, rfl⟩ | ⟨cfg, -, rfl⟩ <;> rfl
      cases peer <;> exact ⟨rfl, rfl, fun _ _ h => h, _, rfl, hdeeds⟩
  | moved peer progress conn conn' hpeer hmoved => cases peer <;> exact .of_history rfl rfl rfl rfl
  | restarted host daemon => exact .of_history rfl rfl rfl rfl
  | connected hlink => exact .of_lost s.requests rfl rfl rfl rfl
  | toggled => exact .of_history rfl rfl rfl rfl
  | paired =>
      refine ⟨rfl, rfl, fun name key hdone => ?_, [], (List.append_nil _).symm, List.forall_mem_nil _⟩
      cases hdone
  | wrote link e rest hlink hrequests => exact .of_history rfl rfl rfl rfl
  | failed link e rest hlink hrequests =>
      refine .of_lost (e :: link.unanswered) rfl rfl rfl ?_
      simp [drop]
  | read link origin response hlink hline => exact absurd rfl hinput
  | lost link hlink => exact .of_lost link.unanswered rfl rfl rfl rfl
  | offline hlink => exact .of_history rfl rfl rfl rfl

theorem Quiet.latest (h : Quiet s s') :
    latest Deed.cached? s'.history = latest Deed.cached? s.history ∧ s'.pressed = s.pressed := by
  obtain ⟨more, hhistory, hmore⟩ := h.history
  constructor
  · rw [hhistory, latest_append, latest_eq_none hmore, Option.none_or]
  · rw [pressed, hhistory, List.filterMap_append,
      List.filterMap_eq_nil_iff.mpr fun deed hmem => Deed.pressed?_eq_none (hmore deed hmem),
      List.append_nil]
    rfl

/-- A line that the tray reads is no news of its configuration yet. -/
theorem quiet_readLine (link : Link) (origin : Option (Request × Origin)) (response : Response) :
    Quiet s (s.readLine link origin response) := by
  refine ⟨rfl, rfl, fun _ _ hdone => hdone, _, rfl, fun deed hmem => ?_⟩
  obtain ⟨e, -, rfl⟩ := List.mem_map.mp hmem
  rfl

/-- What a step adds to the outstanding requests: no `SetConfig`, or that of a new press. -/
inductive Made (s s' : FrontEnd) : List (Request × Origin) → Prop where
  | other (new : List (Request × Origin)) (hnew : new.filterMap press? = [])
      (hpresses : s'.presses = s.presses) (hpressed : s'.pressed = s.pressed) : Made s s' new
  | press (cfg : Config) (origin : Origin) (horigin : origin.press = s.presses + 1)
      (hpresses : s'.presses = s.presses + 1) (hpressed : s'.pressed = s.pressed ++ [cfg]) :
      Made s s' [(.setConfig cfg, origin)]

/-- The outstanding requests before and after a step: those that go fail or are answered, and what they
ask for has then been accepted. -/
structure Passes (s : FrontEnd) (input : FrontEndInput) (s' : FrontEnd)
    (gone kept new : List (Request × Origin)) : Prop where
  before : s.outstanding = gone ++ kept
  after : s'.outstanding = kept ++ new
  failing : s.failing input ⊆ gone
  resolved : ∀ e ∈ gone, e ∈ s.failing input ∨ ∀ n, press? e = some n → n ∈ s'.settled
  made : Made s s' new

/-- A step that nothing goes in. -/
theorem Passes.still (hquiet : Quiet s s') (new : List (Request × Origin))
    (hunanswered : s'.link.map Link.unanswered = s.link.map Link.unanswered)
    (hrequests : s'.requests = s.requests ++ new) (hfailing : s.failing input = [])
    (hnew : new.filterMap press? = []) : Passes s input s' [] s.outstanding new := by
  refine ⟨rfl, ?_, ?_, List.forall_mem_nil _, .other new hnew hquiet.presses hquiet.latest.2⟩
  · rw [outstanding, hunanswered, hrequests, outstanding, List.append_assoc]
  · rw [hfailing]
    exact List.nil_subset _

/-- A step in which requests fail, and nothing else becomes of any. -/
theorem Passes.lose (hquiet : Quiet s s') {gone kept new : List (Request × Origin)}
    (hbefore : s.outstanding = gone ++ kept) (hafter : s'.outstanding = kept ++ new)
    (hfailing : s.failing input = gone) (hnew : new.filterMap press? = []) :
    Passes s input s' gone kept new := by
  refine ⟨hbefore, hafter, ?_, fun e he => .inl ?_, .other new hnew hquiet.presses hquiet.latest.2⟩
  · rw [hfailing]
    exact List.Subset.refl _
  · rw [hfailing]
    exact he

/-- The connection of a peer goes on, and nothing is answered. -/
theorem setPeer_unanswered (horder : s.InOrder) {peer : Peer} {conn conn' : Conn Origin}
    (hpeer : s.peer? peer = some conn) (hwritten : conn.written <+: conn'.written)
    (hrequests : conn'.requests = conn.requests) :
    (s.setPeer conn' peer).link.map Link.unanswered = s.link.map Link.unanswered := by
  cases peer with
  | link =>
      obtain ⟨link, hlink, rfl⟩ := Option.map_eq_some_iff.mp hpeer
      rw [FrontEnd.setPeer, hlink, Option.map_some, Option.map_some, Option.map_some,
        Link.unanswered_moved (horder link hlink) hwritten hrequests]
  | orphan n => rfl

/-- An answer to a `SetConfig` that is no error says that it has been accepted. -/
theorem accepted_of_fits {cfg : Config} {origin : Origin} {response : Response}
    (hfits : Fits s.Accepted (.setConfig cfg, origin) response)
    (herror : ∀ message, response ≠ .error message) : s.Accepted cfg origin := by
  cases response with
  | ok =>
      obtain ⟨cfg', hrequest, haccepted⟩ := hfits rfl
      cases hrequest
      exact haccepted
  | error message => exact absurd rfl (herror message)
  | state state => rcases hfits with hfits | hfits <;> cases hfits
  | _ => cases hfits

/-- What the tray reads is an error, or an answer to a `SetConfig` that has been accepted. -/
theorem read_resolved (hanswering : s.Answering) {link : Link} {origin : Option (Request × Origin)}
    {response : Response} (hlink : s.link = some link)
    (hline : link.conn.written[link.read]? = some (origin, response)) {e : Request × Origin}
    (he : e ∈ origin.toList) :
    e ∈ s.failing .read ∨ ∀ n, press? e = some n → n ∈ s.settled := by
  cases Option.mem_toList.mp he
  have hfits := hanswering.line hlink (List.mem_of_getElem? hline)
  by_cases herror : ∃ message, response = .error message
  · obtain ⟨message, rfl⟩ := herror
    left
    simp [failing, hlink, hline]
  · right
    intro n hpress
    obtain ⟨cfg, origin, rfl, rfl⟩ := press?_eq_some hpress
    exact mem_settled.mpr ⟨cfg, origin,
      accepted_of_fits hfits fun message hmessage => herror ⟨message, hmessage⟩, rfl⟩

theorem failing_read {link : Link} {origin : Option (Request × Origin)} {response : Response}
    (hlink : s.link = some link)
    (hline : link.conn.written[link.read]? = some (origin, response)) :
    s.failing .read ⊆ origin.toList := by
  simp only [failing, hlink, Option.bind_some, hline]
  split
  · rename_i hsome
    cases hsome
    exact List.Subset.refl _
  · exact List.nil_subset _

/-- The tray reads a line: the request that it answers goes, and a press may make a new one. -/
theorem passes_read (hanswering : s.Answering) {link : Link} {origin : Option (Request × Origin)}
    {response : Response} (hlink : s.link = some link)
    (hline : link.conn.written[link.read]? = some (origin, response)) :
    ∃ gone kept new,
      Passes s .read ((s.readLine link origin response).apply response) gone kept new := by
  have hquiet := quiet_readLine (s := s) link origin response
  have happlied := apply_cases (s.readLine link origin response) response
  have hsettled : s.settled ⊆ ((s.readLine link origin response).apply response).settled :=
    (((List.prefix_append _ _).trans happlied.frame.1).filterMap _).subset
  obtain ⟨new, hrequests, hmade⟩ : ∃ new, ((s.readLine link origin response).apply response).requests =
      s.requests ++ new ∧ Made s ((s.readLine link origin response).apply response) new := by
    generalize (s.readLine link origin response).apply response = next at happlied
    cases happlied with
    | fetched cfg =>
        refine ⟨[], rfl, .other [] rfl rfl ?_⟩
        rw [← hquiet.latest.2]
        exact List.filterMap_append.trans (List.append_nil _)
    | pressed path name key base cfg hbase hcfg =>
        refine ⟨_, rfl, .press cfg _ rfl rfl ?_⟩
        rw [← hquiet.latest.2]
        exact List.filterMap_append
    | shown response tray request hcfg hpairing hrequest =>
        refine ⟨_, rfl, .other _ ?_ rfl hquiet.latest.2⟩
        rcases hrequest with rfl | rfl <;> rfl
  refine ⟨origin.toList, Link.unanswered { link with read := link.read + 1 } ++ s.requests, new,
    ?_, ?_, failing_read hlink hline, fun e he => ?_, hmade⟩
  · rw [outstanding_of_link hlink, Link.unanswered_read hline, List.append_assoc]
  · rw [outstanding_of_link (happlied.frame.2.1.trans rfl), hrequests, List.append_assoc]
  · exact (read_resolved hanswering hlink hline he).imp_right fun h n hn => hsettled (h n hn)

/-- Everything that a step does to the outstanding requests. -/
theorem Went.passes (h : Went p s input s') (horder : s.InOrder) (hanswering : s.Answering) :
    ∃ gone kept new, Passes s input s' gone kept new := by
  by_cases hinput : input = .read
  · subst hinput
    cases h with
    | read link origin response hlink hline => exact passes_read hanswering hlink hline
  · have hquiet := h.quiet hinput
    cases h with
    | machine wake host service hwake =>
        exact ⟨_, _, _, .still hquiet [] rfl (List.append_nil _).symm rfl rfl⟩
    | handled peer host conn conn' service e rest hpeer hctrl hhandled =>
        have hnoted : InOrder { s with service, history := s.history ++ deeds e s.service service } :=
          horder
        refine ⟨_, _, _, .still hquiet [] ?_ ?_ rfl rfl⟩
        · exact setPeer_unanswered hnoted ((peer?_noted _ _ _).trans hpeer)
            (by rw [hhandled.written_eq]) hhandled.requests
        · cases peer <;> exact (List.append_nil _).symm
    | moved peer progress conn conn' hpeer hmoved =>
        refine ⟨_, _, _, .still hquiet [] ?_ ?_ rfl rfl⟩
        · exact setPeer_unanswered horder hpeer hmoved.written_prefix hmoved.requests
        · cases peer <;> exact (List.append_nil _).symm
    | restarted host daemon =>
        refine ⟨_, _, _, .still hquiet [] ?_ (List.append_nil _).symm rfl rfl⟩
        rw [Option.map_map]
        rfl
    | connected hlink =>
        refine ⟨s.requests, [], [(.subscribe, s.origin), (.getConfig, s.origin), (.listDevices, s.origin)],
          .lose hquiet ?_ ?_ rfl rfl⟩
        · rw [outstanding_of_none hlink, List.append_nil]
        · exact (outstanding_of_link rfl).trans (List.append_nil _)
    | toggled => exact ⟨_, _, _, .still hquiet _ rfl rfl rfl rfl⟩
    | paired => exact ⟨_, _, _, .still hquiet _ rfl rfl rfl rfl⟩
    | wrote link e rest hlink hrequests =>
        refine ⟨[], s.outstanding, [], rfl, ?_, List.nil_subset _, List.forall_mem_nil _,
          .other [] rfl hquiet.presses hquiet.latest.2⟩
        rw [outstanding_of_link rfl, outstanding_of_link hlink, Link.unanswered_arrive, hrequests,
          List.append_nil, List.append_assoc]
        rfl
    | failed link e rest hlink hrequests =>
        refine ⟨link.unanswered ++ [e], rest, [], .lose hquiet ?_ ?_ ?_ rfl⟩
        · rw [outstanding_of_link hlink, hrequests, List.append_assoc]
          rfl
        · rw [List.append_nil]
          exact outstanding_of_none rfl
        · rw [failing, hlink, hrequests]
          rfl
    | read link origin response hlink hline => exact absurd rfl hinput
    | lost link hlink =>
        refine ⟨link.unanswered, s.requests, [], .lose hquiet (outstanding_of_link hlink) ?_ ?_ rfl⟩
        · rw [List.append_nil]
          exact outstanding_of_none rfl
        · rw [failing, hlink]
          rfl
    | offline hlink => exact ⟨_, _, _, .still hquiet [] rfl (List.append_nil _).symm rfl rfl⟩

theorem Went.settled_subset (h : Went p s input s') : s.settled ⊆ s'.settled :=
  (h.history.filterMap _).subset

/-! ### Which press a `SetConfig` carries -/

/-- The configuration is what the press of that number has been turned into. -/
def Carries (s : FrontEnd) (cfg : Config) (origin : Origin) : Prop :=
  ∃ i, origin.press = i + 1 ∧ s.pressed[i]? = some cfg

theorem Carries.mono {cfg : Config} {origin : Origin} (h : s.Carries cfg origin)
    (hpressed : s.pressed <+: s'.pressed) : s'.Carries cfg origin := by
  obtain ⟨i, hpress, hget⟩ := h
  refine ⟨i, hpress, ?_⟩
  obtain ⟨more, hmore⟩ := hpressed
  rw [← hmore, List.getElem?_append_left (List.getElem?_eq_some_iff.mp hget).1]
  exact hget

/-- Each `SetConfig` carries a press, and all that are outstanding carry later presses one after another. -/
structure Numbered (s : FrontEnd) : Prop where
  presses : s.presses = s.pressed.length
  sent : ∀ cfg origin, s.Sent (.setConfig cfg, origin) → s.Carries cfg origin
  accepted : ∀ cfg origin, s.Accepted cfg origin → s.Carries cfg origin
  ordered : (s.outstanding.filterMap press?).Pairwise (· < ·)

theorem Numbered.bounds (h : s.Numbered) {cfg : Config} {origin : Origin} (hcarries : s.Carries cfg origin) :
    1 ≤ origin.press ∧ origin.press ≤ s.presses := by
  obtain ⟨i, hpress, hget⟩ := hcarries
  have hlt := (List.getElem?_eq_some_iff.mp hget).1
  have := h.presses
  omega

theorem Numbered.outstanding_bounds (h : s.Numbered) {n : ℕ}
    (hmem : n ∈ s.outstanding.filterMap press?) : 1 ≤ n ∧ n ≤ s.presses := by
  obtain ⟨e, he, hpress⟩ := List.mem_filterMap.mp hmem
  obtain ⟨cfg, origin, rfl, rfl⟩ := press?_eq_some hpress
  exact h.bounds (h.sent cfg origin (sent_of_outstanding he))

/-- A `SetConfig` that the machine accepts is one that the tray has sent. -/
theorem sent_of_noted (hanswering : s.Answering) {cfg : Config} {origin : Origin} {force : Config}
    (hnoted : Noted p s s' (.applied origin force cfg)) : s.Sent (.setConfig cfg, origin) := by
  generalize hdeed : Deed.applied origin force cfg = deed at hnoted
  cases hnoted with
  | handled conn conn' host e rest deed hconn hctrl hhandled hmem =>
      obtain ⟨req, origin'⟩ := e
      rcases deeds_cases hmem with ⟨-, -, rfl⟩ | ⟨cfg', hrequest, rfl⟩
      · cases hdeed
      · cases hdeed
        cases hrequest
        refine .inr ⟨conn, hconn, (hanswering conn hconn).ctrl ?_⟩
        rw [hctrl]
        exact List.mem_cons_self
  | _ => cases hdeed

theorem Numbered.step (h : s.Numbered) (hwent : Went p s input s') (horder : s.InOrder)
    (hanswering : s.Answering) : s'.Numbered := by
  obtain ⟨gone, kept, new, hpasses⟩ := hwent.passes horder hanswering
  have hpressed : s.pressed <+: s'.pressed := hwent.history.filterMap _
  have hnew : ∀ cfg origin, (.setConfig cfg, origin) ∈ new → s'.Carries cfg origin := by
    intro cfg origin hmem
    cases hpasses.made with
    | other new hnone hpresses hsame =>
        cases List.filterMap_eq_nil_iff.mp hnone _ hmem
    | press cfg' origin' horigin hpresses hadded =>
        cases List.mem_singleton.mp hmem
        refine ⟨s.presses, horigin, ?_⟩
        rw [hadded, h.presses, List.getElem?_concat_length]
  refine ⟨?_, fun cfg origin hsent => ?_, fun cfg origin haccepted => ?_, ?_⟩
  · cases hpasses.made with
    | other new hnone hpresses hsame =>
        rw [hpresses, hsame]
        exact h.presses
    | press cfg origin horigin hpresses hadded =>
        rw [hpresses, hadded, List.length_append, h.presses]
        rfl
  · rcases hsent with hmem | ⟨conn, hconn, hmem⟩
    · have hout : (.setConfig cfg, origin) ∈ kept ++ new := by
        rw [← hpasses.after]
        exact List.mem_append_right _ hmem
      rcases List.mem_append.mp hout with hkept | hadded
      · refine (h.sent cfg origin (sent_of_outstanding ?_)).mono hpressed
        rw [hpasses.before]
        exact List.mem_append_right _ hkept
      · exact hnew cfg origin hadded
    · exact (h.sent cfg origin ((hwent.arises hconn).sent hmem)).mono hpressed
  · obtain ⟨force, hmem⟩ := haccepted
    rcases hwent.noted hmem with hmem | hnoted
    · exact (h.accepted cfg origin ⟨force, hmem⟩).mono hpressed
    · exact (h.sent cfg origin (sent_of_noted hanswering hnoted)).mono hpressed
  · have hordered := h.ordered
    rw [hpasses.before, List.filterMap_append, List.pairwise_append] at hordered
    rw [hpasses.after, List.filterMap_append]
    cases hpasses.made with
    | other new hnone hpresses hsame =>
        rw [hnone, List.append_nil]
        exact hordered.2.1
    | press cfg origin horigin hpresses hadded =>
        refine List.pairwise_append.mpr ⟨hordered.2.1, List.pairwise_singleton _ _, fun m hm n hn => ?_⟩
        have hle := (h.outstanding_bounds (n := m) (by
          rw [hpasses.before, List.filterMap_append]
          exact List.mem_append_right _ hm)).2
        cases List.mem_singleton.mp hn
        rw [horigin]
        omega

/-! ### No press is lost -/

/-- What is lost has not been accepted. -/
theorem settledPress?_lost (es : List (Request × Origin)) :
    (es.map Deed.lost).filterMap Deed.settledPress? = [] := by
  refine List.filterMap_eq_nil_iff.mpr fun deed hmem => ?_
  obtain ⟨e, -, rfl⟩ := List.mem_map.mp hmem
  rfl

theorem settled_readLine (link : Link) (origin : Option (Request × Origin)) (response : Response) :
    (s.readLine link origin response).settled = s.settled := by
  refine List.filterMap_append.trans ?_
  cases origin <;> exact List.append_nil _

/-- A step in which requests fail accepts none. -/
theorem settled_of_failing (hwent : Went p s input s') (hfailing : s.failing input ≠ []) :
    s'.settled = s.settled := by
  cases hwent with
  | connected hlink =>
      refine List.filterMap_append.trans ?_
      rw [settledPress?_lost, List.append_nil]
      rfl
  | failed link e rest hlink hrequests =>
      refine List.filterMap_append.trans ?_
      rw [settledPress?_lost, List.append_nil]
      exact List.filterMap_append.trans (List.append_nil _)
  | read link origin response hlink hline =>
      have hread := settled_readLine (s := s) link origin response
      have happlied := apply_cases (s.readLine link origin response) response
      generalize (s.readLine link origin response).apply response = next at *
      cases happlied with
      | fetched cfg => exact (List.filterMap_append.trans (List.append_nil _)).trans hread
      | pressed path name key base cfg hbase hcfg =>
          exact (List.filterMap_append.trans (List.append_nil _)).trans hread
      | shown response tray request hcfg hpairing hrequest => exact hread
  | lost link hlink =>
      refine List.filterMap_append.trans ?_
      rw [settledPress?_lost, List.append_nil]
      rfl
  | _ => exact absurd rfl hfailing

/-- A step from a state in which every press is on its way or accepted leads to another such state exactly
if it neither loses nor refuses one. -/
theorem keeps_iff (h : s.Truthful) (hnumbered : s.Numbered) (hwent : Went p s input s')
    (horder : s.InOrder) (hanswering : s.Answering) : s.Keeps input ↔ s'.Truthful := by
  obtain ⟨gone, kept, new, hpasses⟩ := hwent.passes horder hanswering
  have hbefore : s.outstanding.filterMap press? = gone.filterMap press? ++ kept.filterMap press? := by
    rw [hpasses.before, List.filterMap_append]
  have hafter : s'.outstanding.filterMap press? = kept.filterMap press? ++ new.filterMap press? := by
    rw [hpasses.after, List.filterMap_append]
  constructor
  · intro hkeeps n hone hle
    have hearlier : n ≤ s.presses → n ∈ s'.outstanding.filterMap press? ∨ n ∈ s'.settled := by
      intro hle
      rcases h n hone hle with hout | hsettled
      · rw [hbefore, List.mem_append] at hout
        rcases hout with hgone | hkept
        · right
          obtain ⟨e, he, hpress⟩ := List.mem_filterMap.mp hgone
          rcases hpasses.resolved e he with hfails | haccepted
          · refine hwent.settled_subset (List.contains_iff_mem.mp ?_)
            exact List.all_eq_true.mp hkeeps n (List.mem_filterMap.mpr ⟨e, hfails, hpress⟩)
          · exact haccepted n hpress
        · left
          rw [hafter]
          exact List.mem_append_left _ hkept
      · exact .inr (hwent.settled_subset hsettled)
    cases hpasses.made with
    | other new hnone hpresses hsame => exact hearlier (hpresses ▸ hle)
    | press cfg origin horigin hpresses hadded =>
        by_cases hnew : n = s.presses + 1
        · left
          rw [hafter, hnew, ← horigin]
          exact List.mem_append_right _ (List.mem_singleton_self _)
        · exact hearlier (by omega)
  · intro htruthful
    refine List.all_eq_true.mpr fun n hmem => List.contains_iff_mem.mpr ?_
    obtain ⟨e, he, hpress⟩ := List.mem_filterMap.mp hmem
    have hgone : n ∈ gone.filterMap press? := List.mem_filterMap.mpr ⟨e, hpasses.failing he, hpress⟩
    obtain ⟨hone, hle⟩ := hnumbered.outstanding_bounds (n := n) (by
      rw [hbefore]
      exact List.mem_append_left _ hgone)
    rw [← settled_of_failing hwent (List.ne_nil_of_mem he)]
    have hmore : s.presses ≤ s'.presses ∧ n ∉ new.filterMap press? := by
      cases hpasses.made with
      | other new hnone hpresses hsame =>
          rw [hnone]
          exact ⟨hpresses.ge, List.not_mem_nil⟩
      | press cfg origin horigin hpresses hadded =>
          refine ⟨by omega, fun hnew => ?_⟩
          have : n = origin.press := List.mem_singleton.mp hnew
          omega
    refine (htruthful n hone (hle.trans hmore.1)).resolve_left fun hout => ?_
    rw [hafter, List.mem_append] at hout
    rcases hout with hkept | hnew
    · -- what goes was queued before what stays
      have hordered := hnumbered.ordered
      rw [hbefore, List.pairwise_append] at hordered
      exact Nat.lt_irrefl n (hordered.2.2 n hgone n hkept)
    · exact hmore.2 hnew

end FrontEnd

end AlertU
