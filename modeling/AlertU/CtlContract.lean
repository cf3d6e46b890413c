import AlertU.Ctl

/-! What a subcommand of `alertu-ctl` does, whatever its calls are answered: the requests that it puts on the
wire, what it prints, and the code that it exits with. All three follow from one contract, which is checked
call by call. -/

open FilePath Calls

namespace AlertU.Ctl

/-- What a command has done so far: whether it has turned to the socket, the text of the file that it has
read, its requests, the responses to them, the lines that it has printed, the line that it could not print,
and whether the standard error has failed. -/
structure Tally where
  opened : Bool
  text : Option String
  puts : List Request
  replies : List Response
  prints : List String
  broken : Option String
  mute : Bool
  deriving DecidableEq, Repr

namespace Tally

def nothing : Tally := ⟨false, none, [], [], [], none, false⟩

variable (t : Tally)

def connect : Tally := { t with opened := true }

def put (req : Request) : Tally := { t with puts := t.puts ++ [req] }

def reply (response : Response) : Tally := { t with replies := t.replies ++ [response] }

def print (text : String) : Tally := { t with prints := t.prints ++ [text] }

def breakOff (text : String) : Tally := { t with broken := some text }

def muted : Tally := { t with mute := true }

/-- Everything that was to be printed has been. -/
def Intact (t : Tally) : Prop := t.broken = none ∧ t.mute = false

def note (t : Tally) : (k : Call) → Answer k → Tally
  | .client .connect, _ => t.connect
  | .client (.writeAll req), _ => t.put req
  | .client .readLine, .ok (some (.ok response)) => t.reply response
  | .read _, .ok text => { t with text := some text }
  | .print text, true => t.print text
  | .print text, false => t.breakOff text
  | .prompt _, false | .complain _, false => t.muted
  | _, _ => t

end Tally

/-! ### The rules of the calls -/

variable {formats : Formats} {socket : PathBuf} {json : Bool} {I : Tally → Prop} {t : Tally} {α β : Type}

/-- The socket, which answers anything. -/
def anySocket (t : Tally) (k : Client.Call) (answers : (k : Call) → Answer k) :
    Client.Answer k × Tally :=
  (answers (.client k), t.note (.client k) (answers (.client k)))

theorem always_yielded {x : Prog Call Answer (Except Client.Chain α)}
    {Q : Except (Stop Client.Chain) α → Tally → Prop} :
    Always (anything Tally.note) I Q (Prog.bind x yielded) t ↔
      Always (anything Tally.note) I (fun r => Q (r.mapError .error)) x t := by
  rw [always_bind]
  exact ⟨fun h => h.mono (fun _ h => h) fun _ _ hr => hr.2, fun h => h.post⟩

theorem always_onClient {x : Client.Method α} {Q : Except (Stop Client.Chain) α → Tally → Prop} :
    Always (anything Tally.note) I Q (onClient x) t ↔
      Always anySocket I (fun r => Q (r.mapError .error)) x t := by
  rw [onClient, always_yielded]
  exact always_via

theorem always_ask {k : Client.Call} {text : String} {Q : Except Client.Chain α → Tally → Prop}
    {p : Prog Client.Call Client.Answer (Except String α)} {f : Client.Answer k → Except String α}
    (hp : p = .call k fun r => .ret (f r)) (ht : I t)
    (hr : ∀ r, I (t.note (.client k) r) ∧
      Q ((f r).mapError fun e => [text, e]) (t.note (.client k) r)) :
    Always anySocket I Q (Client.ask text p) t := by
  subst hp
  exact ⟨ht, fun answers => hr (answers (.client k))⟩

theorem always_readResponse {Q : Except Client.Chain Response → Tally → Prop} (ht : I t)
    (herror : ∀ e, Q (.error e) t)
    (hok : ∀ response, I (t.reply response) ∧ Q (.ok response) (t.reply response)) :
    Always anySocket I Q Client.readResponse t := by
  refine always_andThen.mpr (always_ask (k := .readLine) (f := id) rfl ht fun r => ?_)
  match r with
  | .error _ => exact ⟨ht, herror _⟩
  | .ok none => exact ⟨ht, ht, herror _⟩
  | .ok (some (.error _)) => exact ⟨ht, ht, herror _⟩
  | .ok (some (.ok response)) => exact ⟨(hok response).1, (hok response).1, (hok response).2⟩

/-- The rule for a round trip of a client that does not reconnect: its request is written once at most, and
the response to it is the next line. -/
theorem always_roundTrip {client : Client} (hclient : client.reconnect = false) {req : Request}
    {Q : Except Client.Chain Response → Tally → Prop} (ht : I t) (hput : I (t.put req))
    (herror : ∀ e, Q (.error e) t ∧ Q (.error e) (t.put req))
    (hok : ∀ response, I ((t.put req).reply response) ∧
      Q (.ok response) ((t.put req).reply response)) :
    Always anySocket I Q (client.roundTrip req) t := by
  refine always_bind.mpr ?_
  have hattempt : Always anySocket I Q (Client.attemptRoundTrip req) t := by
    refine always_andThen.mpr (always_ask (k := .serialize req) (f := id) rfl ht fun r => ?_)
    cases r with
    | error _ => exact ⟨ht, (herror _).1⟩
    | ok _ =>
        refine ⟨ht, always_andThen.mpr (always_ask (k := .writeAll req) (f := id) rfl ht fun r => ?_)⟩
        cases r with
        | error _ => exact ⟨hput, (herror _).2⟩
        | ok _ =>
            refine ⟨hput, always_andThen.mpr (always_ask (k := .flush) (f := id) rfl hput fun r => ?_)⟩
            cases r with
            | error _ => exact ⟨hput, (herror _).2⟩
            | ok _ => exact ⟨hput, always_readResponse hput (fun e => (herror e).2) hok⟩
  refine hattempt.post.mono (fun _ h => h) fun r t' hr => ?_
  cases r with
  | ok response => exact hr
  | error e =>
      simp only [Client.retry, hclient, Bool.false_and, Bool.false_eq_true, if_false]
      exact hr

/-- The rule for a method that expects a response of one kind. -/
theorem always_expecting {client : Client} (hclient : client.reconnect = false) {req : Request}
    {debug : Response → String} {content : Response → Option α}
    {Q : Except (Stop Client.Chain) α → Tally → Prop} (ht : I t) (hput : I (t.put req))
    (herror : ∀ e, Q (.error (.error e)) t ∧ Q (.error (.error e)) (t.put req))
    (hreply : ∀ response, I ((t.put req).reply response) ∧
      (∀ e, Q (.error (.error e)) ((t.put req).reply response)) ∧
      ∀ a, content response = some a → Q (.ok a) ((t.put req).reply response)) :
    Always (anything Tally.note) I Q (onClient (client.expecting debug req content)) t := by
  refine always_onClient.mpr (always_andThen.mpr (always_roundTrip hclient ht hput herror fun response => ?_))
  obtain ⟨hI, hbad, hgood⟩ := hreply response
  rcases Client.unpack_cases debug req content response with ⟨a, ha, hunpack⟩ | ⟨e, hunpack⟩
  · simp only [hunpack]
    exact ⟨hI, hI, hgood a ha⟩
  · simp only [hunpack]
    exact ⟨hI, hI, hbad e⟩

theorem always_connect {Q : Except (Stop Client.Chain) Unit → Tally → Prop} (ht : I t)
    (hconnect : I t.connect) (herror : ∀ e, Q (.error (.error e)) t.connect) (hok : Q (.ok ()) t.connect) :
    Always (anything Tally.note) I Q (onClient (Client.connect socket)) t := by
  refine always_onClient.mpr ⟨ht, fun answers => ⟨hconnect, ?_⟩⟩
  show Q (Except.mapError .error (Except.mapError _ (answers (.client .connect)))) t.connect
  cases answers (.client .connect) with
  | error e => exact herror _
  | ok _ => exact hok

theorem always_printRendered {rendered : Except Client.Chain String}
    {Q : Except (Stop Client.Chain) Unit → Tally → Prop} (ht : I t)
    (herror : ∀ e, rendered = .error e → Q (.error (.error e)) t)
    (hok : ∀ text, rendered = .ok text → I (t.print text) ∧ Q (.ok ()) (t.print text))
    (hbroken : ∀ text, rendered = .ok text → I (t.breakOff text) ∧ Q (.error .panic) (t.breakOff text)) :
    Always (anything Tally.note) I Q (printRendered rendered) t := by
  cases rendered with
  | error e => exact ⟨ht, herror e rfl⟩
  | ok text =>
      refine always_anything_call.mpr ⟨ht, fun r => ?_⟩
      cases r with
      | true => exact hok text rfl
      | false => exact hbroken text rfl

theorem always_fallibly {f : Client.Chain → CliError} {x : Action α}
    {Q : Except (Stop CliError) α → Tally → Prop} :
    Always (anything Tally.note) I Q (fallibly f x) t ↔
      Always (anything Tally.note) I (fun r => Q (r.mapError (Stop.map f))) x t := by
  rw [fallibly, always_bind]
  exact ⟨fun h => h.mono (fun _ h => h) fun _ _ hr => hr.2, fun h => h.post⟩

/-! ### The contract -/

/-- The requests that a subcommand has to make, given the file that it has read and the responses so far.
Pairing changes nothing in the configuration that it is told but what the remote is learned by. -/
def requests (formats : Formats) (t : Tally) : Subcommand → List Request
  | .arm => [.arm]
  | .disarm => [.disarm]
  | .toggle => [.toggle]
  | .status watch => if watch then [.subscribe] else [.getState]
  | .getConfig => [.getConfig]
  | .listDevices => [.listDevices]
  | .setConfig _ =>
      match t.text.bind formats.toml.fromStr with
      | some cfg => [.setConfig cfg]
      | none => []
  | .pair timeoutSecs =>
      match t.replies with
      | .learned path name key :: .config cfg :: _ =>
          [.learnRemote timeoutSecs, .getConfig, .setConfig (cfg.applyLearnedRemote path name key)]
      | .learned _ _ _ :: _ => [.learnRemote timeoutSecs, .getConfig]
      | _ => [.learnRemote timeoutSecs]
  | .genSounds _ _ => []

def Subcommand.isGenSounds : Subcommand → Bool
  | .genSounds _ _ => true
  | _ => false

/-- The subcommand goes on until something fails. -/
def Subcommand.isWatch : Subcommand → Bool
  | .status watch => watch
  | _ => false

/-- The outcome of a subcommand is the first response that it got. -/
def Reported (cmd : Subcommand) (outcome : Outcome) (t : Tally) : Prop :=
  if cmd.isGenSounds then outcome = .ack ∧ t.replies = []
  else t.replies.head? = some outcome.toResponse

/-- How a subcommand ends, or goes on watching. -/
inductive Ended (formats : Formats) (json : Bool) (cmd : Subcommand) (t : Tally) :
    Except (Stop CliError) Unit → Prop where
  | done (outcome : Outcome) (text : String) (hputs : t.puts = requests formats t cmd)
      (hrender : render formats outcome json = .ok text) (hprints : t.prints = [text])
      (hreported : Reported cmd outcome t) (hintact : t.Intact) : Ended formats json cmd t (.ok ())
  | watched (hwatch : cmd.isWatch) (hputs : t.puts = requests formats t cmd) (hintact : t.Intact) :
      Ended formats json cmd t (.ok ())
  | refused (source : Client.Chain) (hprints : t.prints = []) (hopened : t.opened = false)
      (hintact : t.Intact) : Ended formats json cmd t (.error (.error (.usage source)))
  | failed (source : Client.Chain) (hprints : cmd.isWatch = false → t.prints = [])
      (hopened : t.opened ∨ cmd.isGenSounds) (hintact : t.Intact) :
      Ended formats json cmd t (.error (.error (.daemon source)))
  | unprinted (text : String) (hbroken : t.broken = some text)
      (hprints : cmd.isWatch = false → t.prints = [] ∧ ∃ outcome,
        render formats outcome json = .ok text ∧ Reported cmd outcome t) :
      Ended formats json cmd t (.error .panic)
  | unprompted (hmute : t.mute = true) (hprints : t.prints = []) (hbroken : t.broken = none) :
      Ended formats json cmd t (.error .panic)

/-- The subcommand keeps to its requests, and ends as it has to. -/
abbrev Keeps (formats : Formats) (json : Bool) (cmd : Subcommand) (x : Command Unit) (t : Tally) : Prop :=
  Always (anything Tally.note) (fun t => t.puts <+: requests formats t cmd)
    (fun r t => Ended formats json cmd t r) x t

/-- The rest of a subcommand that has got its outcome. -/
theorem always_printOutcome {cmd : Subcommand} {outcome : Outcome} (hopened : t.opened ∨ cmd.isGenSounds)
    (hputs : t.puts = requests formats t cmd) (hprints : t.prints = []) (hintact : t.Intact)
    (hreported : Reported cmd outcome t)
    (hsame : ∀ t', t'.text = t.text → t'.replies = t.replies →
      requests formats t' cmd = requests formats t cmd) :
    Always (anything Tally.note) (fun t => t.puts <+: requests formats t cmd)
      (fun r t => Ended formats json cmd t (r.mapError (Stop.map .daemon)))
      (printOutcome formats outcome json) t := by
  refine always_printRendered ?_ (fun e _ => .failed e (fun _ => hprints) hopened hintact)
    (fun text hrender => ?_) fun text hrender => ?_
  · rw [hputs]
  · have hputs' : (t.print text).puts = requests formats (t.print text) cmd := by
      rw [hsame (t.print text) rfl rfl]
      exact hputs
    refine ⟨?_, .done outcome text hputs' hrender ?_ hreported hintact⟩
    · rw [hputs']
    · show t.prints ++ [text] = [text]
      rw [hprints, List.nil_append]
  · refine ⟨?_, .unprinted text rfl fun _ => ⟨hprints, outcome, hrender, hreported⟩⟩
    rw [hsame (t.breakOff text) rfl rfl, ← hputs]
    exact List.prefix_rfl

/-- A failure in the exchange with the daemon. -/
theorem failed {cmd : Subcommand} (e : Client.Chain) (hprints : t.prints = [])
    (hopened : t.opened ∨ cmd.isGenSounds) (hintact : t.Intact) :
    Ended formats json cmd t (.error (.error (.daemon e))) := .failed e (fun _ => hprints) hopened hintact

/-- A subcommand of one round trip. -/
theorem keeps_withClient {cmd : Subcommand} {req : Request} {content : Response → Option α}
    {outcome : α → Outcome} (hcmd : cmd.isGenSounds = false)
    (hrequests : ∀ t, requests formats t cmd = [req])
    (hcontent : ∀ response a, content response = some a → (outcome a).toResponse = response) :
    Keeps formats json cmd (withClient formats socket json fun client => do
      let a ← onClient (client.expecting formats.debug req content)
      pure (outcome a)) .nothing := by
  have hnone : ∀ t : Tally, t.puts = [] → t.puts <+: requests formats t cmd := by
    intro t ht
    rw [ht]
    exact List.nil_prefix
  have hall : ∀ t : Tally, t.puts = [req] → t.puts <+: requests formats t cmd := by
    intro t ht
    rw [ht, hrequests]
  refine always_fallibly.mpr (always_andThen.mpr (always_connect (hnone _ rfl) (hnone _ rfl)
    (fun e => failed e rfl (.inl rfl) ⟨rfl, rfl⟩) ?_))
  refine always_andThen.mpr (always_andThen.mpr (always_expecting rfl (hnone _ rfl) (hall _ rfl)
    (fun e => ⟨failed e rfl (.inl rfl) ⟨rfl, rfl⟩, failed e rfl (.inl rfl) ⟨rfl, rfl⟩⟩) fun response => ?_))
  refine ⟨hall _ rfl, fun e => failed e rfl (.inl rfl) ⟨rfl, rfl⟩, fun a ha => ⟨hall _ rfl, ?_⟩⟩
  refine always_printOutcome (.inl rfl) (hrequests _).symm rfl ⟨rfl, rfl⟩ ?_ fun _ _ _ => ?_
  · simp only [Reported, hcmd, Bool.false_eq_true, if_false]
    exact congrArg some (hcontent response a ha).symm
  · rw [hrequests, hrequests]

/-- A subcommand that only needs an acknowledgement. -/
theorem keeps_acknowledged {cmd : Subcommand} {req : Request} (hcmd : cmd.isGenSounds = false)
    (hrequests : ∀ t, requests formats t cmd = [req]) :
    Keeps formats json cmd (withClient formats socket json fun client => do
      onClient (client.expectOk formats.debug req)
      pure .ack) .nothing := by
  refine @keeps_withClient formats socket json Unit cmd req _ (fun _ => .ack) hcmd hrequests
    fun response a ha => ?_
  cases response <;> cases ha
  rfl

theorem fromStr_of_checkConfig {text : String} {cfg : Config} (h : checkConfig formats text = .ok cfg) :
    formats.toml.fromStr text = some cfg := by
  unfold checkConfig at h
  split at h
  · cases h
  · rename_i cfg' hcfg
    split at h
    · cases h
    · cases h
      exact hcfg

/-- The configuration that `set-config` sends is the one in the file, once that has been found valid. -/
theorem keeps_set (file : PathBuf) :
    Keeps formats json (.setConfig file) (set formats socket json file) .nothing := by
  refine always_andThen.mpr (always_fallibly.mpr (always_andThen.mpr ?_))
  refine always_anything_call.mpr ⟨List.nil_prefix, fun r => ?_⟩
  cases r with
  | error e => exact ⟨List.nil_prefix, .refused _ rfl rfl ⟨rfl, rfl⟩⟩
  | ok text =>
      refine ⟨List.nil_prefix, List.nil_prefix, ?_⟩
      cases hcheck : checkConfig formats text with
      | error e => exact .refused _ rfl rfl ⟨rfl, rfl⟩
      | ok cfg =>
          refine always_fallibly.mpr (always_andThen.mpr (always_connect List.nil_prefix List.nil_prefix
            (fun e => failed e rfl (.inl rfl) ⟨rfl, rfl⟩) ?_))
          have hall : ∀ t : Tally, t.text = some text →
              requests formats t (.setConfig file) = [.setConfig cfg] := by
            intro t ht
            simp only [requests, ht, Option.bind_some, fromStr_of_checkConfig hcheck]
          refine always_andThen.mpr (always_expecting rfl List.nil_prefix ?_
            (fun e => ⟨failed e rfl (.inl rfl) ⟨rfl, rfl⟩, failed e rfl (.inl rfl) ⟨rfl, rfl⟩⟩)
            fun response => ?_)
          · rw [hall _ rfl]
            exact List.prefix_rfl
          · refine ⟨?_, fun e => failed e rfl (.inl rfl) ⟨rfl, rfl⟩, fun a ha => ?_⟩
            · rw [hall _ rfl]
              exact List.prefix_rfl
            · refine always_printOutcome (.inl rfl) (hall _ rfl).symm rfl ⟨rfl, rfl⟩ ?_ fun t htext _ => ?_
              · cases response <;> cases ha
                rfl
              · rw [hall _ htext, hall _ rfl]

theorem keeps_genSounds (dir : PathBuf) (force : Bool) :
    Keeps formats json (.genSounds dir force) (genSounds formats json dir force) .nothing := by
  refine always_andThen.mpr (always_fallibly.mpr (always_yielded.mpr (always_anything_call.mpr
    ⟨List.nil_prefix, fun r => ⟨List.nil_prefix, ?_⟩⟩)))
  cases r with
  | error e => exact .refused e rfl rfl ⟨rfl, rfl⟩
  | ok _ =>
      exact always_fallibly.mpr
        (always_printOutcome (.inr rfl) rfl rfl ⟨rfl, rfl⟩ ⟨rfl, rfl⟩ fun _ _ _ => rfl)

/-- An exchange whose outcome is then printed as it has to be. -/
abbrev Leads (formats : Formats) (json : Bool) (cmd : Subcommand) (x : Action Outcome) (t : Tally) :
    Prop :=
  Always (anything Tally.note) (fun t => t.puts <+: requests formats t cmd)
    (fun r t => match r with
      | .ok outcome => Always (anything Tally.note) (fun t => t.puts <+: requests formats t cmd)
          (fun r t => Ended formats json cmd t (r.mapError (Stop.map .daemon)))
          (printOutcome formats outcome json) t
      | .error e => Ended formats json cmd t (.error (e.map .daemon))) x t

/-- The configuration that pairing sends back is the one that it has just been told, with the remote in
it. -/
theorem leads_saveLearned {timeoutSecs : UInt64} {client : Client} {learned : LearnedRemote}
    {text : Option String} (hclient : client.reconnect = false) :
    Leads formats json (.pair timeoutSecs)
      (do
        let cfg ← onClient (client.getConfig formats.debug)
        onClient (client.setConfig formats.debug
          (cfg.applyLearnedRemote learned.path learned.name learned.key))
        pure (.paired (some learned)))
      ⟨true, text, [.learnRemote timeoutSecs], [.learned learned.path learned.name learned.key], [],
        none, false⟩ := by
  refine always_andThen.mpr (always_expecting hclient ⟨_, rfl⟩ ⟨_, rfl⟩
    (fun e => ⟨failed e rfl (.inl rfl) ⟨rfl, rfl⟩, failed e rfl (.inl rfl) ⟨rfl, rfl⟩⟩) fun response => ?_)
  refine ⟨?_, fun e => failed e rfl (.inl rfl) ⟨rfl, rfl⟩, fun cfg hcfg => ?_⟩
  · cases response <;> exact ⟨_, rfl⟩
  · obtain rfl : response = .config cfg := by
      cases response <;> cases hcfg
      rfl
    refine always_andThen.mpr (always_expecting hclient ⟨_, rfl⟩ ⟨_, rfl⟩
      (fun e => ⟨failed e rfl (.inl rfl) ⟨rfl, rfl⟩, failed e rfl (.inl rfl) ⟨rfl, rfl⟩⟩) fun response => ?_)
    refine ⟨⟨_, rfl⟩, fun e => failed e rfl (.inl rfl) ⟨rfl, rfl⟩, fun _ _ => ⟨⟨_, rfl⟩, ?_⟩⟩
    refine always_printOutcome (.inl rfl) rfl rfl ⟨rfl, rfl⟩ rfl fun t _ hreplies => ?_
    rw [requests, hreplies]
    rfl

theorem leads_learnAndSave {timeoutSecs : UInt64} {client : Client} (hclient : client.reconnect = false) :
    Leads formats json (.pair timeoutSecs) (learnAndSave formats client timeoutSecs)
      Tally.nothing.connect := by
  refine always_andThen.mpr (always_expecting hclient ⟨_, rfl⟩ ⟨_, rfl⟩
    (fun e => ⟨failed e rfl (.inl rfl) ⟨rfl, rfl⟩, failed e rfl (.inl rfl) ⟨rfl, rfl⟩⟩) fun response => ?_)
  refine ⟨?_, fun e => failed e rfl (.inl rfl) ⟨rfl, rfl⟩, fun remote hremote => ?_⟩
  · cases response <;> exact ⟨_, rfl⟩
  · cases response <;> cases hremote
    · exact leads_saveLearned hclient
    · refine ⟨⟨_, rfl⟩, always_printOutcome (.inl rfl) rfl rfl ⟨rfl, rfl⟩ rfl fun t _ hreplies => ?_⟩
      rw [requests, hreplies]
      rfl

theorem keeps_pair (timeoutSecs : UInt64) :
    Keeps formats json (.pair timeoutSecs) (pair formats socket json timeoutSecs) .nothing := by
  refine always_fallibly.mpr (always_andThen.mpr (always_connect ⟨_, rfl⟩ ⟨_, rfl⟩
    (fun e => failed e rfl (.inl rfl) ⟨rfl, rfl⟩) (always_andThen.mpr ?_)))
  have hlearn : Leads formats json (.pair timeoutSecs)
      (learnAndSave formats ⟨socket, false⟩ timeoutSecs) Tally.nothing.connect :=
    leads_learnAndSave rfl
  cases json with
  | true => exact hlearn.mono (fun _ h => h) fun r _ h => by cases r <;> exact h
  | false =>
      refine always_andThen.mpr (always_anything_call.mpr ⟨⟨_, rfl⟩, fun r => ?_⟩)
      cases r with
      | true => exact ⟨⟨_, rfl⟩, hlearn.mono (fun _ h => h) fun r _ h => by cases r <;> exact h⟩
      | false => exact ⟨⟨_, rfl⟩, .unprompted rfl rfl rfl⟩

/-! ### Watching -/

/-- The line that `status --watch` prints for a response, if it tells the state. -/
def pushLine (formats : Formats) (json : Bool) (response : Response) :
    Option (Except Client.Chain String) := response.state?.map (renderPush formats json response)

/-- The lines are those of the states that have been told, but perhaps not yet for the last of them. -/
abbrev Streams (formats : Formats) (json : Bool) (t : Tally) : Prop :=
  t.prints.map Except.ok <+: t.replies.filterMap (pushLine formats json)

/-- A line for every state that has been told. -/
abbrev Streamed (formats : Formats) (json : Bool) (t : Tally) : Prop :=
  t.replies.filterMap (pushLine formats json) = t.prints.map Except.ok

/-- The states are being watched: that has been asked for, and nothing else. -/
structure Watching (formats : Formats) (json : Bool) (t : Tally) : Prop where
  streams : Streams formats json t
  puts : t.puts = [.subscribe]
  opened : t.opened = true

/-- How a round of watching ends. A line that could not be printed is the one for the last state. -/
inductive Watched (formats : Formats) (json : Bool) (t : Tally) : Except (Stop Client.Chain) Unit → Prop
    where
  | on (hstreamed : Streamed formats json t) (hintact : t.Intact) : Watched formats json t (.ok ())
  | failed (source : Client.Chain) (hintact : t.Intact) : Watched formats json t (.error (.error source))
  | unprinted (text : String) (hbroken : t.broken = some text)
      (hlast : t.replies.filterMap (pushLine formats json) = t.prints.map Except.ok ++ [.ok text]) :
      Watched formats json t (.error .panic)

/-- The rule for printing the state that has been told last. -/
theorem always_printPush {rendered : Except Client.Chain String}
    (ht : t.replies.filterMap (pushLine formats json) = t.prints.map Except.ok ++ [rendered])
    (hputs : t.puts = [.subscribe]) (hopened : t.opened = true) (hintact : t.Intact) :
    Always (anything Tally.note) (Watching formats json) (fun r t => Watched formats json t r)
      (printRendered rendered) t := by
  have hstreams : Streams formats json t := by
    rw [Streams, ht]
    exact List.prefix_append _ _
  refine always_printRendered ⟨hstreams, hputs, hopened⟩ (fun e _ => .failed e hintact)
    (fun text htext => ?_) fun text htext => ?_
  · subst htext
    have hstreamed : Streamed formats json (t.print text) := by
      show t.replies.filterMap _ = (t.prints ++ [text]).map _
      rw [ht, List.map_append]
      rfl
    exact ⟨⟨by rw [Streams, hstreamed], hputs, hopened⟩, .on hstreamed hintact⟩
  · subst htext
    exact ⟨⟨hstreams, hputs, hopened⟩, .unprinted text rfl ht⟩

theorem always_watchPushes (rounds : ℕ) (ht : Streamed formats json t) (hputs : t.puts = [.subscribe])
    (hopened : t.opened = true) (hintact : t.Intact) :
    Always (anything Tally.note) (Watching formats json) (fun r t => Watched formats json t r)
      (watchPushes formats json rounds) t := by
  have hwatching {t : Tally} (hstreams : Streams formats json t) (hputs : t.puts = [.subscribe])
      (hopened : t.opened = true) : Watching formats json t := ⟨hstreams, hputs, hopened⟩
  induction rounds generalizing t with
  | zero => exact ⟨hwatching (by rw [Streams, ht]) hputs hopened, .on ht hintact⟩
  | succ rounds ih =>
      have hread (response : Response) : (t.reply response).replies.filterMap (pushLine formats json) =
          t.prints.map Except.ok ++ (pushLine formats json response).toList := by
        show (t.replies ++ [response]).filterMap _ = _
        rw [List.filterMap_append, ht, List.filterMap_cons, List.filterMap_nil]
        cases pushLine formats json response <;> rfl
      refine always_andThen.mpr (always_onClient.mpr (always_readResponse
        (hwatching (by rw [Streams, ht]) hputs hopened) (fun e => .failed e hintact) fun response => ?_))
      have hsilent (hnone : pushLine formats json response = none) :
          Streamed formats json (t.reply response) := by
        rw [Streamed, hread, hnone]
        exact List.append_nil _
      have htold {rendered : Except Client.Chain String} (hsome : pushLine formats json response =
          some rendered) : Watching formats json (t.reply response) ∧
            Always (anything Tally.note) (Watching formats json) (fun r t => Watched formats json t r)
              (printRendered rendered >>= fun _ => watchPushes formats json rounds : Action Unit)
              (t.reply response) := by
        have hlines : (t.reply response).replies.filterMap (pushLine formats json) =
            t.prints.map Except.ok ++ [rendered] := by
          rw [hread, hsome]
          rfl
        have hprinted := always_printPush (t := t.reply response) hlines hputs hopened hintact
        refine ⟨hprinted.holds, always_andThen.mpr (hprinted.post.mono (fun _ h => h) fun r t' h => ?_)⟩
        cases h.2 with
        | on hstreamed hintact => exact ih hstreamed h.1.puts h.1.opened hintact
        | failed source hintact => exact .failed source hintact
        | unprinted text hbroken hlast => exact .unprinted text hbroken hlast
      have hskip (hnone : pushLine formats json response = none) :
          Watching formats json (t.reply response) ∧ Always (anything Tally.note) (Watching formats json)
            (fun r t => Watched formats json t r) (watchPushes formats json rounds) (t.reply response) := by
        have hnext := ih (t := t.reply response) (hsilent hnone) hputs hopened hintact
        exact ⟨hnext.holds, hnext⟩
      cases response with
      | state s | stateChanged s => exact htold rfl
      | config _ | devices _ | learned _ _ _ | learnTimedOut | ok => exact hskip rfl
      | error message =>
          exact ⟨(hskip rfl).1, (hskip rfl).1, .failed _ hintact⟩

/-- `status --watch` before it is subscribed, and then. -/
theorem always_watch (rounds : ℕ) {I : Tally → Prop} {Q : Except (Stop CliError) Unit → Tally → Prop}
    (hbefore : ∀ t : Tally, t.puts <+: [.subscribe] → t.prints = [] → I t)
    (hsubscribed : ∀ t, Watching formats json t → I t)
    (hfailed : ∀ t e, t.opened = true → t.Intact → Q (.error (.error (.daemon e))) t)
    (hwatched : ∀ t r, Watching formats json t → Watched formats json t r →
      Q (r.mapError (Stop.map .daemon)) t) :
    Always (anything Tally.note) I Q (watch formats socket json rounds) .nothing := by
  have hput : [Request.subscribe] <+: [.subscribe] := List.prefix_rfl
  have hlate : ∀ t : Tally, t.puts = [.subscribe] → t.prints = [] → t.opened = true → I t :=
    fun t hputs hprints hopened => hsubscribed t
      ⟨by rw [Streams, hprints]; exact List.nil_prefix, hputs, hopened⟩
  refine always_fallibly.mpr (always_andThen.mpr (always_connect (hbefore _ List.nil_prefix rfl)
    (hbefore _ List.nil_prefix rfl) (fun e => hfailed _ e rfl ⟨rfl, rfl⟩) ?_))
  refine always_andThen.mpr (always_expecting rfl (hbefore _ List.nil_prefix rfl)
    (hbefore _ hput rfl) (fun e => ⟨hfailed _ e rfl ⟨rfl, rfl⟩, hfailed _ e rfl ⟨rfl, rfl⟩⟩)
    fun response => ⟨hlate _ rfl rfl rfl, fun e => hfailed _ e rfl ⟨rfl, rfl⟩, fun s hs => ?_⟩)
  obtain rfl : response = .state s := by
    cases response <;> cases hs
    rfl
  -- the first state is printed as it would be if it were pushed
  have hfirst : render formats (.state s) json = renderPush formats json (.state s) s := by
    cases json <;> rfl
  have hlines : ((Tally.nothing.connect.put .subscribe).reply (.state s)).replies.filterMap
      (pushLine formats json) = ([] : List String).map Except.ok ++
        [render formats (.state s) json] := by
    rw [hfirst]
    rfl
  refine always_andThen.mpr ((always_printPush hlines rfl rfl ⟨rfl, rfl⟩).post.mono hsubscribed
    fun r t h => ?_)
  cases h.2 with
  | on hstreamed hintact =>
      exact (always_watchPushes rounds hstreamed h.1.puts h.1.opened hintact).post.mono hsubscribed
        fun r t h => hwatched t r h.1 h.2
  | failed source hintact => exact hfailed t source h.1.opened hintact
  | unprinted text hbroken hlast => exact hwatched t _ h.1 (.unprinted text hbroken hlast)

theorem keeps_watch (rounds : ℕ) :
    Keeps formats json (.status true) (watch formats socket json rounds) .nothing := by
  refine always_watch rounds (fun _ hputs _ => hputs) (fun t h => ?_)
    (fun t e hopened hintact => .failed e nofun (.inl hopened) hintact) fun t r h hwatched => ?_
  · rw [h.puts]
    exact List.prefix_rfl
  · cases hwatched with
    | on hstreamed hintact => exact .watched rfl h.puts hintact
    | failed source hintact => exact .failed source nofun (.inl h.opened) hintact
    | unprinted text hbroken hlast => exact .unprinted text hbroken nofun

/-- The contract of the subcommands. -/
theorem keeps_run (rounds : ℕ) (cmd : Subcommand) :
    Keeps formats json cmd (run formats socket json rounds cmd) .nothing := by
  cases cmd with
  | arm | disarm | toggle => exact keeps_acknowledged rfl fun _ => rfl
  | status watch =>
      cases watch with
      | true => exact keeps_watch rounds
      | false =>
          exact keeps_withClient rfl (fun _ => rfl) fun response a ha => by
            cases response <;> cases ha; rfl
  | getConfig =>
      exact keeps_withClient rfl (fun _ => rfl) fun response a ha => by cases response <;> cases ha; rfl
  | listDevices =>
      exact keeps_withClient rfl (fun _ => rfl) fun response a ha => by cases response <;> cases ha; rfl
  | setConfig file => exact keeps_set file
  | pair timeoutSecs => exact keeps_pair timeoutSecs
  | genSounds dir force => exact keeps_genSounds dir force

/-! ### What a caller can rely on -/

variable (formats socket json)

/-- Whatever happens, at every moment and at the end: the requests on the wire are the first ones of the
script, each written once, and all of them if the subcommand succeeds. -/
theorem run_keeps_to_script (rounds : ℕ) (cmd : Subcommand) :
    Always (anything Tally.note) (fun t => t.puts <+: requests formats t cmd)
      (fun r t => r = .ok () → t.puts = requests formats t cmd)
      (run formats socket json rounds cmd) .nothing := by
  refine (keeps_run rounds cmd).mono (fun _ h => h) fun r t hended hr => ?_
  cases hended with
  | done _ _ hputs _ _ _ _ => exact hputs
  | watched _ hputs _ => exact hputs
  | refused _ _ _ _ | failed _ _ _ _ | unprinted _ _ _ | unprompted _ _ _ => cases hr

omit socket json in
theorem toJson_of_render {outcome : Outcome} {text : String} (h : render formats outcome true = .ok text) :
    formats.toJson outcome.toResponse = .ok text := by
  simp only [render, renderJson, if_true] at h
  cases hjson : formats.toJson outcome.toResponse with
  | error e =>
      rw [hjson] at h
      cases h
  | ok text' =>
      rw [hjson] at h
      cases h
      rfl

/-- A subcommand that does not watch prints nothing as a whole if it fails. If it succeeds it prints one text,
which shows the response to its first request; with `--json` it is that response itself, and `Ok` for the
sounds. A text whose printing has failed, perhaps midway, is the one that would have been printed. -/
theorem run_prints_response (rounds : ℕ) (cmd : Subcommand) :
    Always (anything Tally.note) (fun _ => True)
      (fun r t => cmd.isWatch = false → (∀ e, r = .error e → t.prints = []) ∧
        (∀ text, t.broken = some text → r = .error .panic ∧ ∃ outcome,
          render formats outcome json = .ok text ∧ Reported cmd outcome t) ∧
        (r = .ok () → ∃ outcome text,
          t.prints = [text] ∧ render formats outcome json = .ok text ∧ Reported cmd outcome t ∧
            (json → ∃ response, formats.toJson response = .ok text ∧
              if cmd.isGenSounds then response = .ok else t.replies.head? = some response)))
      (run formats socket json rounds cmd) .nothing := by
  refine (keeps_run rounds cmd).mono (fun _ _ => trivial) fun r t hended hcmd => ?_
  have hnone : t.broken = none → ∀ text, t.broken = some text → r = .error .panic ∧ ∃ outcome,
      render formats outcome json = .ok text ∧ Reported cmd outcome t := by
    intro hnone text hbroken
    cases hnone.symm.trans hbroken
  cases hended with
  | done outcome text _ hrender hprints hreported hintact =>
      refine ⟨fun e he => (by cases he), hnone hintact.1,
        fun _ => ⟨outcome, text, hprints, hrender, hreported, ?_⟩⟩
      rintro rfl
      refine ⟨outcome.toResponse, toJson_of_render formats hrender, ?_⟩
      unfold Reported at hreported
      by_cases hsounds : cmd.isGenSounds
      · rw [if_pos hsounds] at hreported ⊢
        rw [hreported.1]
        rfl
      · rw [if_neg hsounds] at hreported ⊢
        exact hreported
  | watched hwatch _ _ => cases hcmd.symm.trans hwatch
  | refused _ hprints _ hintact =>
      exact ⟨fun _ _ => hprints, hnone hintact.1, fun hok => by cases hok⟩
  | failed _ hprints _ hintact =>
      exact ⟨fun _ _ => hprints hcmd, hnone hintact.1, fun hok => by cases hok⟩
  | unprinted text hbroken hprints =>
      refine ⟨fun _ _ => (hprints hcmd).1, fun text' htext => ⟨rfl, ?_⟩, fun hok => by cases hok⟩
      cases hbroken.symm.trans htext
      exact (hprints hcmd).2
  | unprompted _ hprints hbroken =>
      exact ⟨fun _ _ => hprints, hnone hbroken, fun hok => by cases hok⟩

/-- `status --watch`, for as many pushes as may come: it prints the state that it is told first and every
state that is pushed, in their order, each on a line of its own and with `--json` as it was pushed. It
goes on until the connection or the daemon fails, which is not the caller's fault, or until the line for the
state that it was told last cannot be printed, which is a panic. -/
theorem watch_prints_states (rounds : ℕ) :
    Always (anything Tally.note) (Streams formats json)
      (fun r t => (r = .ok () → Streamed formats json t) ∧
        (∀ e, r = .error (.error e) → e.code = EXIT_DAEMON ∧ t.broken = none) ∧
        (r = .error .panic → ∃ text, t.broken = some text ∧
          t.replies.filterMap (pushLine formats json) = t.prints.map Except.ok ++ [.ok text]))
      (watch formats socket json rounds) .nothing := by
  refine always_watch rounds (fun t _ hprints => ?_) (fun t h => h.streams)
    (fun t e _ hintact => ⟨nofun, fun e' he => ?_, nofun⟩) fun t r _ hwatched => ?_
  · rw [Streams, hprints]
    exact List.nil_prefix
  · cases he
    exact ⟨rfl, hintact.1⟩
  · cases hwatched with
    | on hstreamed _ => exact ⟨fun _ => hstreamed, nofun, nofun⟩
    | failed source hintact =>
        refine ⟨nofun, fun e he => ?_, nofun⟩
        cases he
        exact ⟨rfl, hintact.1⟩
    | unprinted text hbroken hlast => exact ⟨nofun, nofun, fun _ => ⟨text, hbroken, hlast⟩⟩

end AlertU.Ctl
