import AlertU.Client

/-! What one use of the client puts on the wire, whatever its calls are answered. An attempt writes its
request at most once. A second attempt is made only of a request that is safe to replay, after the
first has failed, and on a connection that has been opened since. -/

open FilePath Calls Runs

namespace AlertU.Client

/-- A call and its answer. -/
abbrev Event := Σ k : Call, Answer k

namespace Event

/-- The request that a call puts on the wire, wholly or in part. -/
def put? : Event → Option Request
  | ⟨.writeAll req, _⟩ => some req
  | _ => none

/-- The call has failed, or it has brought no response. -/
def failed : Event → Bool
  | ⟨.connect, .error _⟩ => true
  | ⟨.serialize _, .error _⟩ | ⟨.writeAll _, .error _⟩ | ⟨.flush, .error _⟩ => true
  | ⟨.readLine, .error _⟩ | ⟨.readLine, .ok none⟩ | ⟨.readLine, .ok (some (.error _))⟩ => true
  | _ => false

end Event

/-- The events of a use of the client, in their order. -/
abbrev History := List Event

def History.note (t : History) (k : Call) (r : Answer k) : History := t ++ [⟨k, r⟩]

/-- The requests that have been put on the wire. -/
def History.puts (t : History) : List Request := t.filterMap Event.put?

@[simp]
theorem puts_append (t u : History) : History.puts (t ++ u) = History.puts t ++ History.puts u :=
  List.filterMap_append

/-- An attempt opens no connection, and writes the request once if at all. -/
structure Attempt (req : Request) (t : History) : Prop where
  puts : t.puts <+: [req]
  connected : ∀ answer, ⟨.connect, answer⟩ ∉ t

/-- The attempt has failed in its last call. -/
structure Failed (req : Request) (t : History) : Prop extends Attempt req t where
  last : ∃ failure, t.getLast? = some failure ∧ failure.failed = true

/-- A use that has come to a second attempt: the first one has failed, and the connection is fresh. -/
structure Retried (client : Client) (req : Request) (t : History) : Prop where
  reconnect : client.reconnect = true
  safe : req.isReplaySafe = true
  split : ∃ first second : History, t = first ++ ⟨.connect, .ok ()⟩ :: second ∧
    Failed req first ∧ Attempt req second

/-- A use that has not come to a second attempt: it is at its first, or that has failed and so has the
connection to follow. -/
def Once (req : Request) (t : History) : Prop :=
  Attempt req t ∨ ∃ first error, t = first ++ [⟨.connect, .error error⟩] ∧ Failed req first

/-- What a use of the client has done so far. -/
def Disciplined (client : Client) (req : Request) (t : History) : Prop :=
  Once req t ∨ Retried client req t

variable {client : Client} {req : Request} {t u : History} {α : Type}

theorem Attempt.nil : Attempt req [] := ⟨List.nil_prefix, fun _ => List.not_mem_nil⟩

/-- A call that neither opens a connection nor writes goes on with an attempt. -/
theorem Attempt.snoc {event : Event} (h : Attempt req t) (hput : event.put? = none)
    (hconnect : ∀ answer, (⟨.connect, answer⟩ : Event) ≠ event) : Attempt req (t ++ [event]) := by
  constructor
  · have hnone : History.puts [event] = [] := by simp [History.puts, hput]
    rw [puts_append, hnone, List.append_nil]
    exact h.puts
  · intro answer hmem
    rcases List.mem_append.mp hmem with hmem | hmem
    · exact h.connected answer hmem
    · exact hconnect answer (List.mem_singleton.mp hmem)

theorem Attempt.write {answer : Answer (.writeAll req)} (h : Attempt req t) (hfirst : t.puts = []) :
    Attempt req (t ++ [⟨.writeAll req, answer⟩]) := by
  constructor
  · rw [puts_append, hfirst]
    exact List.prefix_rfl
  · intro answer' hmem
    rcases List.mem_append.mp hmem with hmem | hmem
    · exact h.connected answer' hmem
    · cases List.mem_singleton.mp hmem

theorem Attempt.fail {event : Event} (h : Attempt req (t ++ [event])) (hfailed : event.failed = true) :
    Failed req (t ++ [event]) := ⟨h, event, by simp, hfailed⟩

/-- The rule for a call with a context. -/
theorem always_ask {I : History → Prop} {k : Call} {text : String} {Q : Except Chain α → History → Prop}
    {p : Prog Call Answer (Except String α)} {f : Answer k → Except String α}
    (hp : p = .call k fun r => .ret (f r))
    (h : I t ∧ ∀ r, I (t.note k r) ∧ Q ((f r).mapError fun e => [text, e]) (t.note k r)) :
    Always (anything History.note) I Q (ask text p) t := by
  subst hp
  exact always_anything_call.mpr ⟨h.1, fun r => h.2 r⟩

/-- An attempt after `t`, from the point where its events are `u`: it keeps to its script, and an error
of it is one of its last call. -/
abbrev Attempting (req : Request) (t u : History) (x : Method Response) : Prop :=
  Always (anything History.note) (fun t' => ∃ u, t' = t ++ u ∧ Attempt req u)
    (fun r t' => ∀ e, r = .error e → ∃ u, t' = t ++ u ∧ Failed req u) x (t ++ u)

theorem attempting_readResponse (hu : Attempt req u) : Attempting req t u readResponse := by
  have hnote : ∀ r, History.note (t ++ u) .readLine r = t ++ (u ++ [⟨.readLine, r⟩]) :=
    fun r => List.append_assoc _ _ _
  have hread : ∀ r, Attempt req (u ++ [⟨.readLine, r⟩]) := fun r => hu.snoc rfl fun _ h => by cases h
  refine always_andThen.mpr (always_ask (k := .readLine) (f := id) rfl ⟨⟨u, rfl, hu⟩, fun r => ?_⟩)
  rw [hnote]
  refine ⟨⟨_, rfl, hread r⟩, ?_⟩
  match r with
  | .error error => exact fun e he => ⟨_, rfl, (hread _).fail rfl⟩
  | .ok none => exact ⟨⟨_, rfl, hread _⟩, fun e he => ⟨_, rfl, (hread _).fail rfl⟩⟩
  | .ok (some (.error error)) => exact ⟨⟨_, rfl, hread _⟩, fun e he => ⟨_, rfl, (hread _).fail rfl⟩⟩
  | .ok (some (.ok response)) => exact ⟨⟨_, rfl, hread _⟩, fun e he => by cases he⟩

/-- A call of an attempt that yields nothing but an error. -/
theorem attempting_ask {k : Call} {text : String} {p : Prog Call Answer (Except String Unit)}
    {f : Answer k → Except String Unit} {x : Method Response} (hp : p = .call k fun r => .ret (f r))
    (hu : Attempt req u) (hcall : ∀ r, Attempt req (u ++ [⟨k, r⟩]))
    (hfailed : ∀ r e, f r = .error e → Event.failed ⟨k, r⟩ = true)
    (hx : ∀ r, Attempting req t (u ++ [⟨k, r⟩]) x) :
    Attempting req t u (ask text p >>= fun _ => x) := by
  have hnote : ∀ r, History.note (t ++ u) k r = t ++ (u ++ [⟨k, r⟩]) :=
    fun r => List.append_assoc _ _ _
  refine always_andThen.mpr (always_ask hp ⟨⟨u, rfl, hu⟩, fun r => ?_⟩)
  rw [hnote]
  refine ⟨⟨_, rfl, hcall r⟩, ?_⟩
  cases hanswer : f r with
  | error error => exact fun e he => ⟨_, rfl, (hcall r).fail (hfailed r error hanswer)⟩
  | ok _ => exact hx r

theorem attempting_attemptRoundTrip : Attempting req t [] (attemptRoundTrip req) := by
  refine attempting_ask (k := .serialize req) (f := id) rfl .nil
    (fun r => Attempt.nil.snoc rfl fun _ h => by cases h) ?_ fun r => ?_
  · rintro r e rfl
    rfl
  have hserialized : Attempt req ([] ++ [⟨.serialize req, r⟩]) :=
    Attempt.nil.snoc rfl fun _ h => by cases h
  refine attempting_ask (k := .writeAll req) (f := id) rfl hserialized
    (fun r' => hserialized.write rfl) ?_ fun r' => ?_
  · rintro r e rfl
    rfl
  have hwritten : Attempt req ([] ++ [⟨.serialize req, r⟩] ++ [⟨.writeAll req, r'⟩]) :=
    hserialized.write rfl
  refine attempting_ask (k := .flush) (f := id) rfl hwritten
    (fun r => hwritten.snoc rfl fun _ h => by cases h) ?_ fun r'' => ?_
  · rintro r e rfl
    rfl
  exact attempting_readResponse (hwritten.snoc rfl fun _ h => by cases h)

/-- A method that keeps to the script of its request, whatever it returns. -/
abbrev Keeping (client : Client) (req : Request) (x : Method α) (t : History) : Prop :=
  Always (anything History.note) (Disciplined client req) (fun _ _ => True) x t

theorem Attempt.disciplined (h : Attempt req t) : Disciplined client req t := .inl (.inl h)

theorem keeping_retry (h : Failed req t) (e : Chain) : Keeping client req (client.retry req e) t := by
  have ht : Disciplined client req t := h.toAttempt.disciplined
  unfold retry
  by_cases hretry : (client.reconnect && req.isReplaySafe) = true
  swap
  · rw [if_neg hretry]
    exact ⟨ht, trivial⟩
  rw [if_pos hretry]
  obtain ⟨hreconnect, hsafe⟩ := Bool.and_eq_true_iff.mp hretry
  refine always_andThen.mpr (always_mapError.mpr (always_anything_call.mpr ⟨ht, fun r => ?_⟩))
  cases r with
  | error error => exact ⟨.inl (.inr ⟨t, error, rfl, h⟩), trivial⟩
  | ok _ =>
      have hretried : ∀ u, Attempt req u →
          Disciplined client req (t.note .connect (.ok ()) ++ u) := fun u hu =>
        .inr ⟨hreconnect, hsafe, t, u, List.append_assoc _ _ _, h, hu⟩
      have hfresh := hretried [] .nil
      rw [List.append_nil] at hfresh
      refine ⟨hfresh, always_mapError.mpr ?_⟩
      have hagain : Attempting req (t.note .connect (.ok ())) [] (attemptRoundTrip req) :=
        attempting_attemptRoundTrip
      rw [Attempting, List.append_nil] at hagain
      refine hagain.mono ?_ fun _ _ _ => trivial
      rintro _ ⟨u, rfl, hu⟩
      exact hretried u hu

theorem keeping_roundTrip : Keeping client req (client.roundTrip req) [] := by
  refine always_bind.mpr ((attempting_attemptRoundTrip (t := [])).post.mono ?_ ?_)
  · rintro _ ⟨u, rfl, hu⟩
    exact hu.disciplined
  · rintro r _ ⟨⟨u, rfl, hu⟩, herror⟩
    cases r with
    | ok response => exact ⟨hu.disciplined, trivial⟩
    | error e =>
        obtain ⟨u', hsame, hfailed⟩ := herror e rfl
        rw [hsame]
        exact keeping_retry hfailed e

/-- What follows a method without a call keeps to its script. -/
theorem Keeping.andThen {β : Type} {x : Method α} {f : α → Method β} (h : Keeping client req x t)
    (hf : ∀ a, ∃ r, f a = Prog.ret r) : Keeping client req (x >>= f) t := by
  refine always_andThen.mpr (h.post.mono (fun _ h => h) ?_)
  rintro (e | a) t' ⟨ht', -⟩
  · trivial
  · show Keeping client req (f a) t'
    obtain ⟨r, hr⟩ := hf a
    rw [hr]
    exact ⟨ht', trivial⟩

theorem keeping_expecting (debug : Response → String) (content : Response → Option α) :
    Keeping client req (client.expecting debug req content) [] := by
  refine keeping_roundTrip.andThen fun response => ?_
  rcases unpack_cases debug req content response with ⟨a, -, ha⟩ | ⟨e, he⟩
  · exact ⟨_, ha⟩
  · exact ⟨_, he⟩

theorem keeping_perform (debug : Response → String) :
    Keeping client req (client.perform debug (.request req)) [] := by
  cases req with
  | getConfig | listDevices | getState | subscribe | learnRemote _ =>
      exact (keeping_expecting debug _).andThen fun _ => ⟨_, rfl⟩
  | setConfig _ | testSound | arm | disarm | toggle =>
      exact (keeping_expecting debug _).andThen fun _ => ⟨_, rfl⟩

/-! ### What is on the wire -/

theorem Once.puts (h : Once req t) : t.puts <+: [req] := by
  rcases h with h | ⟨first, error, rfl, hfirst⟩
  · exact h.puts
  · have hnone : History.puts [(⟨.connect, .error error⟩ : Event)] = [] := rfl
    rw [puts_append, hnone, List.append_nil]
    exact hfirst.puts

theorem Retried.puts (h : Retried client req t) :
    ∃ first second : List Request, t.puts = first ++ second ∧ first <+: [req] ∧ second <+: [req] := by
  obtain ⟨first, second, rfl, hfirst, hsecond⟩ := h.split
  refine ⟨first.puts, second.puts, ?_, hfirst.puts, hsecond.puts⟩
  rw [puts_append]
  rfl

/-- What a use of the client puts on the wire: its request, once at most, or else twice at most and the
second time in a second attempt. -/
structure Prudent (client : Client) (req : Request) (t : History) : Prop where
  own : ∀ put ∈ t.puts, put = req
  once : req ∈ [.arm, .disarm, .toggle, .subscribe] ∨ req.isLearnRemote = true → t.puts.length ≤ 1
  twice : t.puts.length ≤ 2
  again : t.puts.length ≤ 1 ∨ Retried client req t

theorem Disciplined.prudent (h : Disciplined client req t) : Prudent client req t := by
  have hown : ∀ puts : List Request, puts <+: [req] → ∀ put ∈ puts, put = req := fun puts hputs put hput =>
    List.mem_singleton.mp (hputs.subset hput)
  rcases h with h | h
  · have hlength : t.puts.length ≤ 1 := h.puts.length_le
    exact ⟨hown _ h.puts, fun _ => hlength, by omega, .inl hlength⟩
  · obtain ⟨first, second, hputs, hfirst, hsecond⟩ := h.puts
    have hfirst' : first.length ≤ 1 := hfirst.length_le
    have hsecond' : second.length ≤ 1 := hsecond.length_le
    refine ⟨?_, ?_, ?_, .inr h⟩
    · intro put hput
      rw [hputs] at hput
      rcases List.mem_append.mp hput with hput | hput
      · exact hown _ hfirst put hput
      · exact hown _ hsecond put hput
    · intro hrisky
      have hsafe := h.safe
      cases req <;> simp [Request.isReplaySafe, Request.isLearnRemote] at hsafe hrisky
    · rw [hputs, List.length_append]
      omega

/-- Whatever its calls are answered, a use of the client is prudent at any time. -/
theorem prudent_of_run {debug : Response → String} {inputs : List ((k : Call) → Answer k)}
    {c : History × Prog Call Answer (Except Chain Content)}
    (hrun : Run (step (anything History.note)) ([], client.perform debug (.request req)) inputs c) :
    Prudent client req c.1 :=
  (always_iff_run.mp (keeping_perform debug) inputs c hrun).1.prudent

end AlertU.Client
