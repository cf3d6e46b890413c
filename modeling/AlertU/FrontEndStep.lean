import AlertU.ConnectionAnswers
import AlertU.FrontEnd

/-! What one step of the tray and the daemon can do. `Went` lists the outcomes of a step, `Applied` those
of a response that the tray applies, and `Arises` the ways in which a connection comes about. Requests
are never lost track of: each stays queued or unanswered until it is answered or recorded as lost. -/

open FilePath

namespace AlertU

/-! ### The requests of a link -/

namespace Link

variable {link : Link} {conn : Conn Origin}

/-- The requests of the connection are those answered and read, and those unanswered. -/
theorem requests_eq (link : Link) : link.conn.requests =
    (link.conn.written.take link.read).filterMap (·.1) ++ link.unanswered := by
  conv_lhs => rw [Conn.requests, ← List.take_append_drop link.read link.conn.written]
  simp only [unanswered, List.filterMap_append, List.append_assoc]

/-- The connection goes on, and nothing that the tray has not read is lost. -/
theorem unanswered_moved (hread : link.read ≤ link.conn.written.length)
    (hwritten : link.conn.written <+: conn.written) (hrequests : conn.requests = link.conn.requests) :
    unanswered { link with conn } = link.unanswered := by
  have hbefore := requests_eq link
  have hafter := requests_eq { link with conn }
  obtain ⟨more, hmore⟩ := hwritten
  rw [← hmore, List.take_append_of_le_length hread] at hafter
  exact List.append_cancel_left (hafter.symm.trans (hrequests.trans hbefore))

/-- The next line that the tray reads is taken off the unanswered requests. -/
theorem unanswered_read {origin : Option (Request × Origin)} {response : Response}
    (hline : link.conn.written[link.read]? = some (origin, response)) :
    link.unanswered = origin.toList ++ unanswered { link with read := link.read + 1 } := by
  obtain ⟨hlt, hget⟩ := List.getElem?_eq_some_iff.mp hline
  rw [unanswered, unanswered, List.drop_eq_getElem_cons hlt, hget]
  cases origin <;> simp

theorem unanswered_arrive (e : Request × Origin) :
    unanswered { link with conn.lines := link.conn.lines ++ [(.request e.1, e.2)] } =
      link.unanswered ++ [e] := by
  simp [unanswered, Line.request?]

end Link

namespace Conn

variable {γ : Type} {p : Platform} {host : Host} {v v' : Service} {c c' : Conn γ}
  {progress : Progress}

theorem Moved.written_prefix (h : Moved v c progress c') : c.written <+: c'.written := by
  cases h with
  | written origin response hphase => exact List.prefix_append _ _
  | _ => exact List.prefix_rfl

theorem Handled.written_eq (h : Handled p host v c v' c') : c'.written = c.written := by
  cases h <;> rfl

/-- What the end of the daemon's process leaves of a connection. -/
theorem Answering.kill {accepted : Config → γ → Prop} (h : c.Answering accepted) :
    c.kill.Answering accepted :=
  h.still rfl rfl h.phase (List.nil_subset _) List.nil_prefix

end Conn

namespace FrontEnd

variable {p : Platform} {s s' : FrontEnd} {input : FrontEndInput}

/-- The outcomes of a step. -/
inductive Went (p : Platform) (s : FrontEnd) : FrontEndInput → FrontEnd → Prop where
  | machine (wake : Wake) (host : Host) (service : Service)
      (hwake : s.service.wake p wake host = .ok service) :
      Went p s (.machine wake host) { s with service }
  | handled (peer : Peer) (host : Host) (conn conn' : Conn Origin) (service : Service)
      (e : Request × Origin) (rest : List (Request × Origin)) (hpeer : s.peer? peer = some conn)
      (hctrl : conn.ctrl = e :: rest)
      (hhandled : Conn.Handled p host s.service conn service conn') :
      Went p s (.control peer host) (setPeer { s with
        service
        history := s.history ++ deeds e s.service service } conn' peer)
  | moved (peer : Peer) (progress : Progress) (conn conn' : Conn Origin)
      (hpeer : s.peer? peer = some conn)
      (hmoved : Conn.Moved s.service conn progress conn') :
      Went p s (.progress peer progress) (s.setPeer conn' peer)
  | restarted (host : Host) (daemon : Daemon) :
      Went p s (.restart host) { s with
        service := ⟨daemon, true⟩
        link := s.link.map fun link => { link with conn := link.conn.kill }
        orphans := [] }
  | connected (hlink : s.link = none) : Went p s .connect s.connect
  | toggled : Went p s .toggle (s.queue (s.tray, some .toggle))
  | paired : Went p s .pair (s.queue s.tray.startPairing)
  | wrote (link : Link) (e : Request × Origin) (rest : List (Request × Origin))
      (hlink : s.link = some link) (hrequests : s.requests = e :: rest) :
      Went p s (.write true) { s with
        requests := rest
        link := some { link with conn.lines := link.conn.lines ++ [(.request e.1, e.2)] } }
  | failed (link : Link) (e : Request × Origin) (rest : List (Request × Origin))
      (hlink : s.link = some link) (hrequests : s.requests = e :: rest) :
      Went p s (.write false)
        (drop { s with requests := rest, history := s.history ++ [.lost e] } link)
  | read (link : Link) (origin : Option (Request × Origin)) (response : Response)
      (hlink : s.link = some link)
      (hline : link.conn.written[link.read]? = some (origin, response)) :
      Went p s .read ((s.readLine link origin response).apply response)
  | lost (link : Link) (hlink : s.link = some link) : Went p s .lose (s.drop link)
  | offline (hlink : s.link = none) : Went p s .setOffline { s with tray.connected := false }

/-- Everything that one step can do. -/
theorem step_cases (h : s.step p input = .ok s') : Went p s input s' := by
  cases input with
  | machine wake host =>
      simp only [step] at h
      split at h
      · rename_i service hwake
        cases h
        exact .machine wake host service hwake
      · cases h
  | control peer host =>
      simp only [step] at h
      split at h
      · rename_i conn hpeer
        split at h
        · rename_i e rest service conn' hctrl hhandle
          cases h
          exact .handled peer host conn conn' service e rest hpeer hctrl
            (Conn.handle_cases hhandle)
        · cases h
      · cases h
  | progress peer progress =>
      simp only [step] at h
      split at h
      · rename_i conn hpeer
        split at h
        · rename_i conn' hconn
          cases h
          exact .moved peer progress conn conn' hpeer (Conn.step_cases hconn).2
        · cases h
      · cases h
  | restart host =>
      simp only [step] at h
      split at h
      · rename_i daemon hmain
        cases h
        exact .restarted host daemon
      · cases h
  | connect =>
      simp only [step] at h
      split_ifs at h with hidle
      cases h
      simp only [Bool.or_eq_true, not_or, Option.isSome_iff_ne_none, not_not] at hidle
      exact .connected hidle.1
  | toggle =>
      simp only [step] at h
      split_ifs at h
      cases h
      exact .toggled
  | pair =>
      simp only [step] at h
      split_ifs at h
      cases h
      exact .paired
  | write written =>
      simp only [step] at h
      split at h
      · rename_i link e rest hlink hrequests
        cases written with
        | true =>
            cases h
            exact .wrote link e rest hlink hrequests
        | false =>
            cases h
            exact .failed link e rest hlink hrequests
      · cases h
  | read =>
      simp only [step] at h
      split at h
      · rename_i link hlink
        split at h
        · rename_i origin response hline
          cases h
          exact .read link origin response hlink hline
        · cases h
      · cases h
  | lose =>
      simp only [step] at h
      split at h
      · rename_i link hlink
        cases h
        exact .lost link hlink
      · cases h
  | setOffline =>
      simp only [step] at h
      split_ifs at h with hlink
      cases h
      exact .offline (by simpa using hlink)

/-! ### What the tray applies -/

/-- The outcomes of a response. -/
inductive Applied (s : FrontEnd) : Response → FrontEnd → Prop where
  | fetched (cfg : Config) :
      Applied s (.config cfg) { s with
        tray.cfg := some cfg
        fetched := some cfg
        history := s.history ++ [.fetched cfg]
        requests := s.requests ++ [] }
  | pressed (path : PathBuf) (name key : String) (base cfg : Config) (hbase : s.tray.cfg = some base)
      (hcfg : cfg = base.applyLearnedRemote path name key) :
      Applied s (.learned path name key) { s with
        tray.cfg := some cfg
        tray.pairing := .done name key
        presses := s.presses + 1
        history := s.history ++ [.pressed cfg]
        requests := s.requests ++
          [(.setConfig cfg, ⟨s.tray.state, s.fetched, s.presses + 1⟩)] }
  | shown (response : Response) (tray : Tray) (request : Option Request)
      (hcfg : tray.cfg = s.tray.cfg)
      (hpairing : ∀ name key, tray.pairing = .done name key → s.tray.pairing = .done name key)
      (hrequest : request = none ∨ request = some .getConfig) :
      Applied s response (s.queue (tray, request))

theorem apply_cases (s : FrontEnd) (response : Response) : Applied s response (s.apply response) := by
  cases response with
  | config cfg => exact .fetched cfg
  | learned path name key =>
      cases hbase : s.tray.cfg with
      | none =>
          have happly : s.apply (.learned path name key) =
              s.queue ({ s.tray with pairing := .refused }, some .getConfig) := by
            simp only [apply, Tray.applyResponse, Tray.finishPairing, hbase]
          rw [happly]
          exact .shown _ _ _ rfl (fun _ _ h => by cases h) (.inr rfl)
      | some base =>
          have happly : s.apply (.learned path name key) =
              queue { s with
                presses := s.presses + 1
                history := s.history ++ [.pressed (base.applyLearnedRemote path name key)] }
                ({ s.tray with
                  cfg := some (base.applyLearnedRemote path name key)
                  pairing := .done name key },
                  some (.setConfig (base.applyLearnedRemote path name key))) := by
            simp only [apply, Tray.applyResponse, Tray.finishPairing, hbase]
          rw [happly]
          exact .pressed path name key base _ hbase rfl
  | error message =>
      refine .shown _ _ _ ?_ ?_ (.inl rfl)
      · rw [Tray.failPairing]
        split_ifs <;> rfl
      · intro name key h
        rw [Tray.failPairing] at h
        split_ifs at h
        exact h
  | learnTimedOut => exact .shown _ _ _ rfl (fun _ _ h => by cases h) (.inl rfl)
  | _ => exact .shown _ _ _ rfl (fun _ _ h => h) (.inl rfl)

/-- Whatever a response does, the history goes on and the connections stay. -/
theorem Applied.frame {response : Response} (h : Applied s response s') :
    s.history <+: s'.history ∧ s'.link = s.link ∧ s'.orphans = s.orphans ∧
      s.requests <+: s'.requests := by
  cases h with
  | fetched cfg => exact ⟨List.prefix_append _ _, rfl, rfl, List.prefix_append _ _⟩
  | pressed path name key base cfg hbase hcfg =>
      exact ⟨List.prefix_append _ _, rfl, rfl, List.prefix_append _ _⟩
  | shown response tray request hcfg hpairing hrequest =>
      exact ⟨List.prefix_rfl, rfl, rfl, List.prefix_append _ _⟩

/-! ### The history -/

theorem Went.history (h : Went p s input s') : s.history <+: s'.history := by
  cases h with
  | handled peer host conn conn' service e rest hpeer hctrl hhandled =>
      cases peer <;> exact List.prefix_append _ _
  | moved peer progress conn conn' hpeer hmoved => cases peer <;> exact List.prefix_rfl
  | connected hlink => exact List.prefix_append _ _
  | failed link e rest hlink hrequests =>
      exact (List.prefix_append _ _).trans (List.prefix_append _ _)
  | read link origin response hlink hline =>
      exact (List.prefix_append _ _).trans (apply_cases (s.readLine link origin response) response).frame.1
  | lost link hlink => exact List.prefix_append _ _
  | _ => exact List.prefix_rfl

/-- The daemon has accepted the configuration that was sent with that origin. -/
def Accepted (s : FrontEnd) (cfg : Config) (origin : Origin) : Prop :=
  ∃ force, .applied origin force cfg ∈ s.history

theorem Went.accepted (h : Went p s input s') {cfg : Config} {origin : Origin}
    (haccepted : s.Accepted cfg origin) : s'.Accepted cfg origin := by
  obtain ⟨force, hmem⟩ := haccepted
  exact ⟨force, h.history.subset hmem⟩

/-! ### The connections -/

/-- The connections that the daemon serves. -/
def conns (s : FrontEnd) : List (Conn Origin) := s.link.toList.map Link.conn ++ s.orphans

theorem mem_conns {conn : Conn Origin} :
    conn ∈ s.conns ↔ (∃ link, s.link = some link ∧ link.conn = conn) ∨ conn ∈ s.orphans := by
  simp [conns]

theorem link_mem {link : Link} (hlink : s.link = some link) : link.conn ∈ s.conns :=
  mem_conns.mpr (.inl ⟨link, hlink, rfl⟩)

theorem peer_mem {peer : Peer} {conn : Conn Origin} (hpeer : s.peer? peer = some conn) :
    conn ∈ s.conns := by
  cases peer with
  | link =>
      obtain ⟨link, hlink, rfl⟩ := Option.map_eq_some_iff.mp hpeer
      exact link_mem hlink
  | orphan n => exact mem_conns.mpr (.inr (List.mem_of_getElem? hpeer))

theorem mem_setPeer {peer : Peer} {conn conn' : Conn Origin}
    (hmem : conn' ∈ (s.setPeer conn peer).conns) : conn' = conn ∨ conn' ∈ s.conns := by
  rw [mem_conns] at hmem
  cases peer with
  | link =>
      rcases hmem with ⟨link', hlink', rfl⟩ | hmem
      · obtain ⟨link, -, rfl⟩ := Option.map_eq_some_iff.mp hlink'
        exact .inl rfl
      · exact .inr (mem_conns.mpr (.inr hmem))
  | orphan n =>
      rcases hmem with hmem | hmem
      · exact .inr (mem_conns.mpr (.inl hmem))
      · rcases List.mem_or_eq_of_mem_set hmem with hmem | rfl
        · exact .inr (mem_conns.mpr (.inr hmem))
        · exact .inl rfl

/-- The requests that `run_session` starts with. -/
def resync (origin : Origin) : Conn Origin :=
  { Conn.new with lines :=
    [(.request .subscribe, origin), (.request .getConfig, origin), (.request .listDevices, origin)] }

/-- How a connection comes about in a step. -/
inductive Arises (p : Platform) (s s' : FrontEnd) : Conn Origin → Prop where
  | same (conn : Conn Origin) (hconn : conn ∈ s.conns) : Arises p s s' conn
  | moved (conn conn' : Conn Origin) (progress : Progress) (hconn : conn ∈ s.conns)
      (hmoved : Conn.Moved s.service conn progress conn') : Arises p s s' conn'
  | handled (conn conn' : Conn Origin) (host : Host) (e : Request × Origin)
      (rest : List (Request × Origin)) (hconn : conn ∈ s.conns) (hctrl : conn.ctrl = e :: rest)
      (hhandled : Conn.Handled p host s.service conn s'.service conn')
      (hhistory : s'.history = s.history ++ deeds e s.service s'.service) : Arises p s s' conn'
  | killed (conn : Conn Origin) (hconn : conn ∈ s.conns) : Arises p s s' conn.kill
  | wrote (conn : Conn Origin) (e : Request × Origin) (hconn : conn ∈ s.conns)
      (he : e ∈ s.requests) :
      Arises p s s' { conn with lines := conn.lines ++ [(.request e.1, e.2)] }
  | opened : Arises p s s' (resync s.origin)

theorem Arises.of_link {link : Link} {conn : Conn Origin} (hlink : s.link = some link)
    (hmem : conn = link.conn ∨ conn ∈ s.orphans) : Arises p s s' conn := by
  rcases hmem with rfl | hmem
  · exact .same _ (link_mem hlink)
  · exact .same _ (mem_conns.mpr (.inr hmem))

theorem Went.arises (h : Went p s input s') {conn : Conn Origin} (hmem : conn ∈ s'.conns) :
    Arises p s s' conn := by
  cases h with
  | machine wake host service hwake => exact .same conn hmem
  | handled peer host conn₁ conn' service e rest hpeer hctrl hhandled =>
      rcases mem_setPeer hmem with rfl | hmem
      · cases peer <;> exact .handled conn₁ conn host e rest (peer_mem hpeer) hctrl hhandled rfl
      · exact .same conn hmem
  | moved peer progress conn₁ conn' hpeer hmoved =>
      rcases mem_setPeer hmem with rfl | hmem
      · exact .moved conn₁ conn progress (peer_mem hpeer) hmoved
      · exact .same conn hmem
  | restarted host daemon =>
      rcases mem_conns.mp hmem with ⟨link', hlink', rfl⟩ | hmem
      · obtain ⟨link, hlink, rfl⟩ := Option.map_eq_some_iff.mp hlink'
        exact .killed link.conn (link_mem hlink)
      · cases hmem
  | connected hlink =>
      rcases mem_conns.mp hmem with ⟨link', hlink', rfl⟩ | hmem
      · cases hlink'
        exact .opened
      · exact .same conn (mem_conns.mpr (.inr hmem))
  | wrote link e rest hlink hrequests =>
      rcases mem_conns.mp hmem with ⟨link', hlink', rfl⟩ | hmem
      · cases hlink'
        exact .wrote link.conn e (link_mem hlink) (by rw [hrequests]; exact List.mem_cons_self)
      · exact .same conn (mem_conns.mpr (.inr hmem))
  | failed link e rest hlink hrequests =>
      refine .of_link hlink ?_
      simpa [conns, drop, or_comm] using hmem
  | read link origin response hlink hline =>
      obtain ⟨-, hlink', horphans, -⟩ := (apply_cases (s.readLine link origin response) response).frame
      refine .of_link hlink ?_
      rw [mem_conns, hlink', horphans] at hmem
      rcases hmem with ⟨link', hlink', rfl⟩ | hmem
      · cases hlink'
        exact .inl rfl
      · exact .inr hmem
  | lost link hlink =>
      refine .of_link hlink ?_
      simpa [conns, drop, or_comm] using hmem
  | toggled => exact .same conn hmem
  | paired => exact .same conn hmem
  | offline hlink => exact .same conn hmem

/-- The machine accepts a `SetConfig` of the tray exactly if that is a deed. -/
theorem accepted_of_deeds {e : Request × Origin} {cfg : Config}
    (hhistory : s'.history = s.history ++ deeds e s.service s'.service)
    (hrequest : e.1 = .setConfig cfg)
    (hreply : .replySet .ok ∈ s.service.daemon.since s'.service.daemon) : s'.Accepted cfg e.2 := by
  refine ⟨s.service.daemon.cfg, ?_⟩
  rw [hhistory, deeds, hrequest]
  simp [hreply]

/-- Every connection answers each request with an answer to it. -/
theorem Arises.answering {conn : Conn Origin} (h : Arises p s s' conn)
    (hconns : ∀ conn ∈ s.conns, conn.Answering s.Accepted)
    (hmono : ∀ cfg origin, s.Accepted cfg origin → s'.Accepted cfg origin) :
    conn.Answering s'.Accepted := by
  cases h with
  | same conn hconn => exact (hconns conn hconn).mono hmono
  | moved conn₁ conn progress hconn hmoved => exact ((hconns conn₁ hconn).moved hmoved).mono hmono
  | handled conn₁ conn host e rest hconn hctrl hhandled hhistory =>
      refine (hconns conn₁ hconn).handled hhandled hmono fun e' rest' cfg hctrl' hrequest hreply => ?_
      rw [hctrl] at hctrl'
      cases hctrl'
      exact accepted_of_deeds hhistory hrequest hreply
  | killed conn hconn => exact (hconns conn hconn).kill.mono hmono
  | wrote conn e hconn he => exact ((hconns conn hconn).arrive _).mono hmono
  | opened => exact Conn.Answering.new.arrive _

/-! ### The deeds -/

/-- What the machine does for a request of the tray. -/
theorem deeds_cases {e : Request × Origin} {v next : Service} {deed : Deed}
    (h : deed ∈ deeds e v next) :
    (e.1 = .toggle ∧ next.running = true ∧
      deed = .toggled e.2.shown v.daemon.state next.daemon.state) ∨
    ∃ cfg, e.1 = .setConfig cfg ∧ deed = .applied e.2 v.daemon.cfg cfg := by
  obtain ⟨req, origin⟩ := e
  cases req with
  | toggle =>
      simp only [deeds] at h
      split_ifs at h with hrunning
      · exact .inl ⟨rfl, hrunning, List.mem_singleton.mp h⟩
      · cases h
  | setConfig cfg =>
      simp only [deeds] at h
      split_ifs at h
      · exact .inr ⟨cfg, rfl, List.mem_singleton.mp h⟩
      · cases h
  | _ => cases h

/-- How a deed comes about in a step. -/
inductive Noted (p : Platform) (s s' : FrontEnd) : Deed → Prop where
  | fetched (cfg : Config) : Noted p s s' (.fetched cfg)
  | pressed (cfg : Config) : Noted p s s' (.pressed cfg)
  | handled (conn conn' : Conn Origin) (host : Host) (e : Request × Origin)
      (rest : List (Request × Origin)) (deed : Deed) (hconn : conn ∈ s.conns)
      (hctrl : conn.ctrl = e :: rest)
      (hhandled : Conn.Handled p host s.service conn s'.service conn')
      (hdeed : deed ∈ deeds e s.service s'.service) : Noted p s s' deed
  | replied (link : Link) (e : Request × Origin) (response : Response) (hlink : s.link = some link)
      (hline : (some e, response) ∈ link.conn.written) : Noted p s s' (.replied e response)
  | lost (e : Request × Origin) : Noted p s s' (.lost e)

theorem Went.noted (h : Went p s input s') {deed : Deed} (hmem : deed ∈ s'.history) :
    deed ∈ s.history ∨ Noted p s s' deed := by
  cases h with
  | handled peer host conn conn' service e rest hpeer hctrl hhandled =>
      have hnoted : ∀ deed ∈ deeds e s.service service, Noted p s
          (setPeer { s with service, history := s.history ++ deeds e s.service service } conn' peer)
          deed := by
        intro deed hdeed
        refine .handled conn conn' host e rest deed (peer_mem hpeer) hctrl ?_ ?_
        · cases peer <;> exact hhandled
        · cases peer <;> exact hdeed
      have hhistory : deed ∈ s.history ++ deeds e s.service service := by
        cases peer <;> exact hmem
      exact (List.mem_append.mp hhistory).imp_right (hnoted deed)
  | moved peer progress conn conn' hpeer hmoved => cases peer <;> exact .inl hmem
  | connected hlink =>
      refine (List.mem_append.mp hmem).imp_right fun hlost => ?_
      obtain ⟨e, -, rfl⟩ := List.mem_map.mp hlost
      exact .lost e
  | failed link e rest hlink hrequests =>
      change deed ∈ s.history ++ [.lost e] ++ link.unanswered.map Deed.lost at hmem
      rw [List.append_assoc] at hmem
      refine (List.mem_append.mp hmem).imp_right fun hlost => ?_
      rcases List.mem_append.mp hlost with hlost | hlost
      · rw [List.mem_singleton.mp hlost]
        exact .lost e
      · obtain ⟨e', -, rfl⟩ := List.mem_map.mp hlost
        exact .lost e'
  | read link origin response hlink hline =>
      have hread : deed ∈ (s.readLine link origin response).history →
          deed ∈ s.history ∨ Noted p s ((s.readLine link origin response).apply response) deed := by
        intro hmem
        refine (List.mem_append.mp hmem).imp_right fun hreplied => ?_
        obtain ⟨e, he, rfl⟩ := List.mem_map.mp hreplied
        refine .replied link e response hlink ?_
        rw [← Option.mem_toList.mp he]
        exact List.mem_of_getElem? hline
      have happlied := apply_cases (s.readLine link origin response) response
      generalize (s.readLine link origin response).apply response = next at *
      cases happlied with
      | fetched cfg =>
          rcases List.mem_append.mp hmem with hmem | hmem
          · exact hread hmem
          · rw [List.mem_singleton.mp hmem]
            exact .inr (.fetched cfg)
      | pressed path name key base cfg hbase hcfg =>
          rcases List.mem_append.mp hmem with hmem | hmem
          · exact hread hmem
          · rw [List.mem_singleton.mp hmem]
            exact .inr (.pressed cfg)
      | shown response tray request hcfg hpairing hrequest => exact hread hmem
  | lost link hlink =>
      refine (List.mem_append.mp hmem).imp_right fun hlost => ?_
      obtain ⟨e, -, rfl⟩ := List.mem_map.mp hlost
      exact .lost e
  | _ => exact .inl hmem

/-- Every connection answers each of its requests with an answer to it. -/
def Answering (s : FrontEnd) : Prop := ∀ conn ∈ s.conns, conn.Answering s.Accepted

theorem answering_start (daemon : Daemon) : (start daemon).Answering := List.forall_mem_nil _

theorem Answering.step (h : s.Answering) (hwent : Went p s input s') : s'.Answering :=
  fun _ hmem => (hwent.arises hmem).answering h fun _ _ => hwent.accepted

end FrontEnd

end AlertU
