import AlertU.TrayConfig

/-! Waiting for the press of a button. While the tray waits, its pairing entry is disabled, and only an
answer enables it again. So the entry depends on a `LearnRemote` being outstanding on the connection of
the session; giving the connection up does not take the tray out of its wait. -/

open FilePath Runs

namespace AlertU

namespace FrontEnd

variable {p : Platform} {s s' : FrontEnd} {input : FrontEndInput}

/-! ### Pending requests -/

/-- A request that is queued, or written to the connection of the session and not answered there. -/
def Pending (s : FrontEnd) (e : Request × Origin) : Prop :=
  e ∈ s.requests ∨ ∃ link, s.link = some link ∧ e ∈ link.unanswered

/-- No request of the tray is outstanding. -/
def Settled (s : FrontEnd) : Prop := ∀ e, ¬s.Pending e

theorem settled_of (hrequests : s.requests = []) (hlink : s.link.map Link.unanswered = some []) :
    s.Settled := by
  rintro e (hmem | ⟨link, hsome, hmem⟩)
  · rw [hrequests] at hmem
    cases hmem
  · rw [hsome] at hlink
    rw [Option.some_inj.mp hlink] at hmem
    cases hmem

/-- The tray has read no more than what has been written. -/
def InOrder (s : FrontEnd) : Prop :=
  ∀ link, s.link = some link → link.read ≤ link.conn.written.length

/-- How a request stops being pending. -/
inductive Resolved (s s' : FrontEnd) (e : Request × Origin) : FrontEndInput → Prop where
  | discarded (hlink : s.link = none) (hlost : .lost e ∈ s'.history) : Resolved s s' e .connect
  | dropped (input : FrontEndInput) (hinput : input = .lose ∨ input = .write false)
      (hlost : .lost e ∈ s'.history) : Resolved s s' e input
  | replied (link : Link) (response : Response) (hlink : s.link = some link)
      (hline : link.conn.written[link.read]? = some (some e, response))
      (hnext : s' = (s.readLine link (some e) response).apply response) : Resolved s s' e .read

theorem peer?_noted (service : Service) (history : List Deed) (peer : Peer) :
    peer? { s with service, history } peer = s.peer? peer := by
  cases peer <;> rfl

/-- The connection of a peer goes on, and nothing that the tray has not read is lost. -/
theorem InOrder.setPeer (h : s.InOrder) {peer : Peer} {conn conn' : Conn Origin}
    (hpeer : s.peer? peer = some conn) (hwritten : conn.written <+: conn'.written) :
    (s.setPeer conn' peer).InOrder := by
  intro link hlink
  cases peer with
  | link =>
      obtain ⟨link₁, hlink₁, rfl⟩ := Option.map_eq_some_iff.mp hlink
      obtain ⟨link₂, hlink₂, rfl⟩ := Option.map_eq_some_iff.mp hpeer
      cases hlink₁.symm.trans hlink₂
      exact (h link₁ hlink₁).trans hwritten.length_le
  | orphan n => exact h link hlink

theorem Pending.setPeer {e : Request × Origin} (he : s.Pending e) (horder : s.InOrder) {peer : Peer}
    {conn conn' : Conn Origin} (hpeer : s.peer? peer = some conn)
    (hwritten : conn.written <+: conn'.written) (hrequests : conn'.requests = conn.requests) :
    (s.setPeer conn' peer).Pending e := by
  cases peer with
  | link =>
      rcases he with hmem | ⟨link, hlink, hmem⟩
      · exact .inl hmem
      · obtain ⟨link₁, hlink₁, rfl⟩ := Option.map_eq_some_iff.mp hpeer
        cases hlink.symm.trans hlink₁
        refine .inr ⟨{ link with conn := conn' }, by simp [FrontEnd.setPeer, hlink], ?_⟩
        rwa [Link.unanswered_moved (horder link hlink) hwritten hrequests]
  | orphan n => exact he

theorem InOrder.step (h : s.InOrder) (hwent : Went p s input s') : s'.InOrder := by
  intro link hlink
  cases hwent with
  | machine wake host service hwake => exact h link hlink
  | handled peer host conn conn' service e rest hpeer hctrl hhandled =>
      have hnoted : InOrder { s with service, history := s.history ++ deeds e s.service service } := h
      exact hnoted.setPeer ((peer?_noted _ _ _).trans hpeer) (by rw [hhandled.written_eq]) link hlink
  | moved peer progress conn conn' hpeer hmoved =>
      exact h.setPeer hpeer hmoved.written_prefix link hlink
  | restarted host daemon =>
      obtain ⟨link₁, hlink₁, rfl⟩ := Option.map_eq_some_iff.mp hlink
      exact h link₁ hlink₁
  | connected hnone =>
      cases hlink
      exact Nat.zero_le _
  | toggled => exact h link hlink
  | paired => exact h link hlink
  | wrote link₁ e rest hlink₁ hrequests =>
      cases hlink
      exact h link₁ hlink₁
  | failed link₁ e rest hlink₁ hrequests => cases hlink
  | read link₁ origin response hlink₁ hline =>
      rw [(apply_cases (s.readLine link₁ origin response) response).frame.2.1] at hlink
      cases hlink
      exact (List.getElem?_eq_some_iff.mp hline).1
  | lost link₁ hlink₁ => cases hlink
  | offline hnone => exact h link hlink

/-- A pending request stays pending, unless it is answered, or is lost with the connection. -/
theorem Went.pending (h : Went p s input s') (horder : s.InOrder) {e : Request × Origin}
    (he : s.Pending e) : s'.Pending e ∨ Resolved s s' e input := by
  cases h with
  | machine wake host service hwake => exact .inl he
  | handled peer host conn conn' service e' rest hpeer hctrl hhandled =>
      have hnoted : Pending { s with service, history := s.history ++ deeds e' s.service service } e :=
        he
      exact .inl (hnoted.setPeer horder ((peer?_noted _ _ _).trans hpeer)
        (by rw [hhandled.written_eq]) hhandled.requests)
  | moved peer progress conn conn' hpeer hmoved =>
      exact .inl (he.setPeer horder hpeer hmoved.written_prefix hmoved.requests)
  | restarted host daemon =>
      refine .inl (he.imp_right ?_)
      rintro ⟨link, hlink, hmem⟩
      exact ⟨{ link with conn := link.conn.kill }, by simp [hlink], hmem⟩
  | connected hlink =>
      rcases he with he | ⟨link, hlink', -⟩
      · refine .inr (.discarded hlink ?_)
        exact List.mem_append_right _ (List.mem_map_of_mem he)
      · cases hlink.symm.trans hlink'
  | toggled => exact .inl (he.imp_left fun hmem => List.mem_append_left _ hmem)
  | paired => exact .inl (he.imp_left fun hmem => List.mem_append_left _ hmem)
  | wrote link e' rest hlink hrequests =>
      left
      rcases he with he | ⟨link', hlink', he⟩
      · rw [hrequests, List.mem_cons] at he
        rcases he with rfl | he
        · refine .inr ⟨_, rfl, ?_⟩
          rw [Link.unanswered_arrive]
          exact List.mem_append_right _ List.mem_cons_self
        · exact .inl he
      · cases hlink.symm.trans hlink'
        refine .inr ⟨_, rfl, ?_⟩
        rw [Link.unanswered_arrive]
        exact List.mem_append_left _ he
  | failed link e' rest hlink hrequests =>
      rcases he with he | ⟨link', hlink', he⟩
      · rw [hrequests, List.mem_cons] at he
        rcases he with rfl | he
        · refine .inr (.dropped _ (.inr rfl) ?_)
          exact List.mem_append_left _ (List.mem_append_right _ List.mem_cons_self)
        · exact .inl (.inl he)
      · cases hlink.symm.trans hlink'
        refine .inr (.dropped _ (.inr rfl) ?_)
        exact List.mem_append_right _ (List.mem_map_of_mem he)
  | read link origin response hlink hline =>
      obtain ⟨-, hlink', -, hrequests⟩ :=
        (apply_cases (s.readLine link origin response) response).frame
      rcases he with he | ⟨link', hlink₁, he⟩
      · exact .inl (.inl (hrequests.subset he))
      · cases hlink.symm.trans hlink₁
        rw [Link.unanswered_read hline, List.mem_append] at he
        rcases he with he | he
        · cases Option.mem_toList.mp he
          exact .inr (.replied link response hlink hline rfl)
        · exact .inl (.inr ⟨_, hlink', he⟩)
  | lost link hlink =>
      rcases he with he | ⟨link', hlink', he⟩
      · exact .inl (.inl he)
      · cases hlink.symm.trans hlink'
        exact .inr (.dropped _ (.inl rfl) (List.mem_append_right _ (List.mem_map_of_mem he)))
  | offline hlink => exact .inl he

/-! ### Waiting -/

/-- After an answer to a `LearnRemote` the tray does not wait any more. -/
theorem waiting_of_applyResponse (accepted : Config → Origin → Prop) {t : Tray}
    {response : Response} (h : (t.applyResponse response).1.pairing = .waiting) :
    t.pairing = .waiting ∧ ∀ e : Request × Origin, e.1.isLearnRemote → ¬Fits accepted e response := by
  cases response with
  | state state =>
      refine ⟨h, fun e hlearn hfits => ?_⟩
      rcases hfits with hfits | hfits <;> rw [hfits] at hlearn <;> cases hlearn
  | stateChanged state => exact ⟨h, fun e _ hfits => hfits⟩
  | config cfg =>
      refine ⟨h, fun e hlearn hfits => ?_⟩
      rw [show e.1 = .getConfig from hfits] at hlearn
      cases hlearn
  | devices devices =>
      refine ⟨h, fun e hlearn hfits => ?_⟩
      rw [show e.1 = .listDevices from hfits] at hlearn
      cases hlearn
  | ok =>
      refine ⟨h, fun e hlearn hfits => ?_⟩
      obtain ⟨req, origin⟩ := e
      cases req with
      | learnRemote secs =>
          obtain ⟨cfg, hrequest, -⟩ := hfits rfl
          cases hrequest
      | _ => cases hlearn
  | learned path name key =>
      simp only [Tray.applyResponse, Tray.finishPairing] at h
      cases hcfg : t.cfg <;> rw [hcfg] at h <;> cases h
  | learnTimedOut => cases h
  | error message =>
      simp only [Tray.applyResponse, Tray.failPairing] at h
      split_ifs at h with hwaiting
      exact absurd h hwaiting

theorem apply_tray (s : FrontEnd) (response : Response) :
    (s.apply response).tray = (s.tray.applyResponse response).1 := by
  cases response with
  | learned path name key =>
      simp only [apply]
      split <;> rfl
  | _ => rfl

/-- A `LearnRemote` is queued for the connection of the session, or unanswered there. -/
def Outstanding (s : FrontEnd) : Prop :=
  s.link.isSome ∧ ∃ e, e.1.isLearnRemote ∧ s.Pending e

/-- The tray waits only for an answer that can still come. -/
def WaitsForAnswer (s : FrontEnd) : Prop := s.tray.pairing = .waiting → s.Outstanding

/-- A pairing is started only on a connection, and no connection is given up during the wait. -/
def Holds (s : FrontEnd) : FrontEndInput → Bool
  | .pair => s.link.isSome
  | .lose | .write false => s.tray.pairing ≠ .waiting
  | _ => true

/-- What the tray has read has been written as an answer. -/
theorem Answering.line (h : s.Answering) {link : Link} {e : Request × Origin} {response : Response}
    (hlink : s.link = some link) (hline : (some e, response) ∈ link.conn.written) :
    Fits s.Accepted e response :=
  (h link.conn (link_mem hlink)).output e response (List.mem_append_left _ hline)

/-- Only `lose` and a failed write end a session. -/
theorem Went.link_isSome (h : Went p s input s') (hlink : s.link.isSome)
    (hkept : input ≠ .lose ∧ input ≠ .write false) : s'.link.isSome := by
  cases h with
  | machine wake host service hwake => exact hlink
  | handled peer host conn conn' service e rest hpeer hctrl hhandled =>
      cases peer <;> simpa [setPeer] using hlink
  | moved peer progress conn conn' hpeer hmoved => cases peer <;> simpa [setPeer] using hlink
  | restarted host daemon => simpa using hlink
  | connected hnone => rfl
  | toggled => exact hlink
  | paired => exact hlink
  | wrote link e rest hlink₁ hrequests => rfl
  | failed link e rest hlink₁ hrequests => exact absurd rfl hkept.2
  | read link origin response hlink₁ hline =>
      rw [(apply_cases (s.readLine link origin response) response).frame.2.1]
      rfl
  | lost link hlink₁ => exact absurd rfl hkept.1
  | offline hnone => exact hlink

/-- The tray begins to wait only at a click. -/
theorem Went.waiting (h : Went p s input s') (hinput : input ≠ .pair)
    (hwaiting : s'.tray.pairing = .waiting) : s.tray.pairing = .waiting := by
  cases h with
  | handled peer host conn conn' service e rest hpeer hctrl hhandled => cases peer <;> exact hwaiting
  | moved peer progress conn conn' hpeer hmoved => cases peer <;> exact hwaiting
  | paired => exact absurd rfl hinput
  | read link origin response hlink hline =>
      rw [apply_tray] at hwaiting
      exact (waiting_of_applyResponse s.Accepted hwaiting).1
  | _ => exact hwaiting

/-- The request that the tray waits for stays outstanding as long as the session does. -/
theorem Outstanding.step (h : s.Outstanding) (hanswering : s.Answering) (horder : s.InOrder)
    (hwent : Went p s input s') (hkept : input ≠ .lose ∧ input ≠ .write false)
    (hwaiting : s'.tray.pairing = .waiting) : s'.Outstanding := by
  obtain ⟨hlink, e, hlearn, hpending⟩ := h
  refine ⟨hwent.link_isSome hlink hkept, ?_⟩
  rcases hwent.pending horder hpending with hpending | hresolved
  · exact ⟨e, hlearn, hpending⟩
  · cases hresolved with
    | discarded hnone hlost =>
        rw [hnone] at hlink
        cases hlink
    | dropped input hinput hlost =>
        rcases hinput with hinput | hinput
        · exact absurd hinput hkept.1
        · exact absurd hinput hkept.2
    | replied link response hlink hline hnext =>
        rw [hnext, apply_tray] at hwaiting
        have hfits := hanswering.line hlink (List.mem_of_getElem? hline)
        exact absurd hfits ((waiting_of_applyResponse s.Accepted hwaiting).2 e hlearn)

/-- A step from a state in which the tray waits for an answer, if it waits at all, leads to another such
state exactly if it respects the wait. -/
theorem holds_iff (h : s.WaitsForAnswer) (hanswering : s.Answering) (horder : s.InOrder)
    (hwent : Went p s input s') : s.Holds input ↔ s'.WaitsForAnswer := by
  by_cases hkept : input ≠ .lose ∧ input ≠ .write false
  · by_cases hpair : input = .pair
    · subst hpair
      cases hwent with
      | paired =>
          constructor
          · intro hlink hwaiting
            exact ⟨hlink, _, rfl, .inl (List.mem_append_right _ List.mem_cons_self)⟩
          · intro hwaits
            exact (hwaits rfl).1
    · refine iff_of_true ?_ fun hwaiting => ?_
      · cases input with
        | pair => exact absurd rfl hpair
        | lose => exact absurd rfl hkept.1
        | write written =>
            cases written with
            | true => rfl
            | false => exact absurd rfl hkept.2
        | _ => rfl
      · exact (h (hwent.waiting hpair hwaiting)).step hanswering horder hwent hkept hwaiting
  · have hended : s'.link = none ∧ s'.tray.pairing = s.tray.pairing ∧
        (s.Holds input ↔ s.tray.pairing ≠ .waiting) := by
      cases hwent with
      | failed link e rest hlink hrequests => exact ⟨rfl, rfl, by rw [Holds, decide_eq_true_eq]⟩
      | lost link hlink => exact ⟨rfl, rfl, by rw [Holds, decide_eq_true_eq]⟩
      | _ => exact absurd ⟨by simp, by simp⟩ hkept
    obtain ⟨hlink, hpairing, hholds⟩ := hended
    rw [hholds]
    constructor
    · intro hne hwaiting
      exact absurd (hpairing.symm.trans hwaiting) hne
    · intro hwaits hwaiting
      have hsome := (hwaits (hpairing.trans hwaiting)).1
      rw [hlink] at hsome
      cases hsome

/-- The answers fit, and the tray reads them in their order. -/
def Orderly (s : FrontEnd) : Prop := s.Answering ∧ s.InOrder

theorem orderly_start (daemon : Daemon) : (start daemon).Orderly :=
  ⟨answering_start daemon, fun _ hlink => by cases hlink⟩

theorem orderly_step (h : s.Orderly) (hstep : s.step p input = .ok s') : s'.Orderly :=
  ⟨h.1.step (step_cases hstep), h.2.step (step_cases hstep)⟩

/-- Throughout a run the tray waits only for an answer that can still come, exactly if it starts each
pairing on a connection and no connection is given up while it waits. -/
theorem waits_for_answer_iff {host : Host} {files : FileSystem} {cfg : Config} {cfgPath : PathBuf}
    {privileges : Privileges} {inputs : List FrontEndInput}
    (hrun : Run (step p) (start (.start p host files cfg cfgPath privileges)) inputs s) :
    RunIf (step p) (fun s input => s.Holds input) (start (.start p host files cfg cfgPath privileges))
      inputs s ↔
    Throughout (step p) (start (.start p host files cfg cfgPath privileges)) inputs
      WaitsForAnswer := by
  refine runIf_iff_throughout (orderly_start _) ?_ (fun _ _ _ h hnext => orderly_step h hnext) ?_ hrun
  · intro hwaiting
    cases hwaiting
  · intro s input next horderly hwaits hnext
    exact holds_iff hwaits horderly.1 horderly.2 (step_cases hnext)

theorem waits_for_answer_iff_window : ∃ s : FrontEnd, s.tray.pairing = .waiting ∧ s.Outstanding := by
  obtain ⟨s, hrunIf, hwaiting⟩ : ∃ s, RunIf (step Bench.platform) (fun s input => s.Holds input)
      (start (Bench.boot .default "c1")) (synchronise ++ .pair :: deliver) s ∧
      s.tray.pairing = .waiting :=
    ⟨_, runIf_get (by decide +kernel), by decide +kernel⟩
  have hrun := hrunIf.weaken fun _ _ _ => trivial
  exact ⟨s, hwaiting, ((waits_for_answer_iff hrun).mp hrunIf).last hrun hwaiting⟩

/-- The connection is lost while the pairing window is open: the tray connects again and synchronises,
but it goes on waiting, with nothing outstanding. -/
theorem lost_pairing_waits_on :
    ¬∀ (p : Platform) (host : Host) (files : FileSystem) (cfg : Config) (cfgPath : PathBuf)
        (privileges : Privileges) (inputs : List FrontEndInput) (s : FrontEnd),
      Run (step p) (start (.start p host files cfg cfgPath privileges)) inputs s →
      s.WaitsForAnswer := by
  intro h
  obtain ⟨s, hrun, hwaiting, hrequests, hlink⟩ : ∃ s, Run (step Bench.platform)
      (start (Bench.boot .default "c1"))
      (synchronise ++ .pair :: deliver ++ [.lose, .setOffline] ++ synchronise) s ∧
      s.tray.pairing = .waiting ∧ s.requests = [] ∧ s.link.map Link.unanswered = some [] :=
    ⟨_, run_get (by decide +kernel), by decide +kernel⟩
  obtain ⟨-, e, -, hpending⟩ := h _ _ _ _ _ _ _ s hrun hwaiting
  exact settled_of hrequests hlink e hpending

end FrontEnd

end AlertU
