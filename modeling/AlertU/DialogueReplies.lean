import AlertU.Bench
import AlertU.Dialogue

/-! Every use of a client that does not subscribe gets the reply to its own request. Whenever no use is
under way, as many responses have been read from the socket as lines have arrived on its connection, or
there is nothing more to read; a write adds one line and a read takes its answer. What others do keeps
this, so it can be relied on between any two calls. -/

open FilePath Calls Runs

namespace AlertU

/-- The response that has been read answers the line that the same use has written. -/
def Receipt.Proper (wires : List Wire) (r : Receipt) : Prop :=
  ∃ wire line reply, wires[r.wire]? = some wire ∧ wire.arrived[r.position]? = some (line, some r.call) ∧
    wire.conn.output[r.position]? = some reply ∧ Answers (line, some r.call) reply

/-- The daemon has produced the response for the request of this use. -/
def Replied (wires : List Wire) (call : ℕ) (req : Request) (response : Response) : Prop :=
  ∃ (n : ℕ) (wire : Wire), wires[n]? = some wire ∧
    (some (req, some call), response) ∈ wire.conn.output

/-- What the use returns is the content of a response that the daemon has produced for its request. -/
def Earned (wires : List Wire) (use : Client.Use) (call : ℕ) (content : Client.Content) : Prop :=
  ∃ req response, use = .request req ∧ Replied wires call req response ∧
    Client.Content.of response = some content

theorem getElem?_of_prefix {α : Type} {before after : List α} {n : ℕ} {a : α} (h : before <+: after)
    (hn : before[n]? = some a) : after[n]? = some a := by
  obtain ⟨more, rfl⟩ := h
  rw [List.getElem?_append_left (List.getElem?_eq_some_iff.mp hn).1, hn]

section Goes

variable {wires wires' : List Wire} {call : ℕ} {req : Request} {response : Response}

theorem Receipt.Proper.goes {r : Receipt} (h : r.Proper wires)
    (hgoes : ∀ n : ℕ, Wire.Goes wires[n]? wires'[n]?) : r.Proper wires' := by
  obtain ⟨wire, line, reply, hwire, hline, hreply, hanswers⟩ := h
  obtain ⟨wire', hwire', -, harrived, houtput⟩ := (hgoes r.wire).grows hwire
  exact ⟨wire', line, reply, hwire', getElem?_of_prefix harrived hline,
    getElem?_of_prefix houtput hreply, hanswers⟩

theorem Replied.goes (h : Replied wires call req response)
    (hgoes : ∀ n : ℕ, Wire.Goes wires[n]? wires'[n]?) : Replied wires' call req response := by
  obtain ⟨n, wire, hwire, hmem⟩ := h
  obtain ⟨wire', hwire', -, -, houtput⟩ := (hgoes n).grows hwire
  exact ⟨n, wire', hwire', houtput.subset hmem⟩

theorem Earned.goes {use : Client.Use} {content : Client.Content} (h : Earned wires use call content)
    (hgoes : ∀ n : ℕ, Wire.Goes wires[n]? wires'[n]?) : Earned wires' use call content := by
  obtain ⟨req, response, huse, hreplied, hcontent⟩ := h
  exact ⟨req, response, huse, hreplied.goes hgoes, hcontent⟩

end Goes

namespace Exchange

variable {p : Platform} {x x' : Exchange} {call : ℕ} {req : Request} {fate : Fate}

/-- What holds of the connections at any time: those on which nobody subscribes are in step, and every
response has been read by the use that has written its line. -/
structure Sound (x : Exchange) : Prop where
  inStep : ∀ (n : ℕ) (wire : Wire), x.wires[n]? = some wire → wire.Unsubscribed →
    wire.conn.InStep wire.arrived
  receipts : ∀ r ∈ x.receipts, r.Proper x.wires

/-- The client's connection carries the client's lines only, and of those `pending` is still to be
answered, unless there is nothing more to read. -/
def Touch (x : Exchange) (pending : List (Line × Option ℕ)) : Prop :=
  ∃ wire, x.wires[x.socket.wire]? = some wire ∧ wire.mine = true ∧
    (∀ line ∈ wire.arrived, line.1 ≠ .blank ∧ line.1 ≠ .request .subscribe) ∧
    (x.socket.readable = true → ∃ before, wire.arrived = before ++ pending ∧ before.length = x.socket.read)

/-- The client owes and awaits nothing. -/
structure Idle (call : ℕ) (x : Exchange) : Prop extends Sound x where
  touch : x.Touch []
  call : x.call = call

/-- The client has written its request, or what makes a malformed line of it. -/
structure Waiting (call : ℕ) (req : Request) (x : Exchange) : Prop extends Sound x where
  touch : ∃ line, x.Touch [(line, some call)] ∧ (line = .request req ∨ ∃ error, line = .malformed error)
  call : x.call = call

theorem Sound.goes (h : x.Sound) (hgoes : ∀ n : ℕ, Wire.Goes x.wires[n]? x'.wires[n]?)
    (hreceipts : ∀ r ∈ x'.receipts, r ∈ x.receipts ∨ r.Proper x'.wires) : x'.Sound := by
  constructor
  · intro n wire hwire hlines
    exact (hgoes n).inStep (h.inStep n) hwire hlines
  · intro r hr
    rcases hreceipts r hr with hr | hr
    · exact (h.receipts r hr).goes hgoes
    · exact hr

/-! ### What others do -/

theorem Acted.sound (hacted : Acted x x') (h : x.Sound) : x'.Sound :=
  h.goes hacted.goes fun r hr => .inl (by rwa [hacted.receipts] at hr)

theorem Acted.touch (hacted : Acted x x') {pending : List (Line × Option ℕ)} (h : x.Touch pending) :
    x'.Touch pending := by
  obtain ⟨wire, hwire, hmine, hplain, haligned⟩ := h
  obtain ⟨wire', hwire', hmine', -, -⟩ := (hacted.goes _).grows hwire
  have harrived := hacted.own wire wire' hwire hmine hwire'
  refine ⟨wire', ?_, hmine'.trans hmine, ?_, ?_⟩
  · rw [hacted.socket]
    exact hwire'
  · rw [harrived]
    exact hplain
  · rw [hacted.socket, harrived]
    exact haligned

theorem stable_sound : Stable (act p) Sound := fun _ _ _ h hact => (act_acted hact).sound h

theorem stable_idle : Stable (act p) (Idle call) := fun _ _ _ h hact =>
  have hacted := act_acted hact
  ⟨hacted.sound h.toSound, hacted.touch h.touch, hacted.call.trans h.call⟩

theorem stable_waiting : Stable (act p) (Waiting call req) := by
  intro x move x' h hact
  have hacted := act_acted hact
  obtain ⟨line, htouch, hline⟩ := h.touch
  exact ⟨hacted.sound h.toSound, ⟨line, hacted.touch htouch, hline⟩, hacted.call.trans h.call⟩

/-! ### What the client's calls do -/

theorem goes_modify {wires : List Wire} {n : ℕ} {f : Wire → Wire}
    (h : ∀ wire, Wire.Goes (some wire) (some (f wire))) (m : ℕ) :
    Wire.Goes wires[m]? (wires.modify n f)[m]? := by
  rw [List.getElem?_modify]
  cases wires[m]? with
  | none => exact .same _
  | some wire =>
      show Wire.Goes (some wire) (some (if n = m then f wire else wire))
      by_cases hm : n = m
      · rw [if_pos hm]
        exact h wire
      · rw [if_neg hm]
        exact .same _

/-- The connections go on with each call of the client as well. -/
theorem exec_goes (x : Exchange) (k : Client.Call) (fate : Fate) (n : ℕ) :
    Wire.Goes x.wires[n]? (x.exec k fate).2.wires[n]? := by
  cases k with
  | connect =>
      simp only [exec]
      cases fate.refusal with
      | some fault => exact .same _
      | none => exact goes_append x.wires true n
  | serialize req =>
      simp only [exec]
      cases fate.fault with
      | some error => exact .same _
      | none => exact .same _
  | writeAll req =>
      simp only [exec, writeAll]
      split
      · exact goes_modify (fun wire => .received wire _) n
      · exact .same _
      · exact goes_modify (fun wire => .stranded wire _) n
  | flush => exact .same _
  | readLine =>
      simp only [exec, readLine]
      split
      · exact .same _
      · split
        · exact .same _
        · split_ifs <;> exact .same _
      · exact .same _

theorem exec_call (x : Exchange) (k : Client.Call) (fate : Fate) :
    (x.exec k fate).2.call = x.call := by
  cases k with
  | connect =>
      simp only [exec]
      cases fate.refusal <;> rfl
  | serialize req =>
      simp only [exec]
      cases fate.fault <;> rfl
  | writeAll req =>
      simp only [exec, writeAll]
      split <;> rfl
  | flush => rfl
  | readLine =>
      simp only [exec, readLine]
      split
      · rfl
      · split
        · rfl
        · split_ifs <;> rfl
      · rfl

theorem exec_receipts (x : Exchange) (fate : Fate) {k : Client.Call} (hk : k ≠ .readLine) :
    (x.exec k fate).2.receipts = x.receipts := by
  cases k with
  | connect =>
      simp only [exec]
      cases fate.refusal <;> rfl
  | serialize req =>
      simp only [exec]
      cases fate.fault <;> rfl
  | writeAll req =>
      simp only [exec, writeAll]
      split <;> rfl
  | flush => rfl
  | readLine => exact absurd rfl hk

/-- A call of the client by which no response is read. -/
theorem Sound.exec (h : x.Sound) (fate : Fate) {k : Client.Call} (hk : k ≠ .readLine) :
    (x.exec k fate).2.Sound :=
  h.goes (exec_goes x k fate) fun r hr => .inl (by rwa [exec_receipts x fate hk] at hr)

theorem idle_connect (h : x.Idle call) (fate : Fate) : (x.exec .connect fate).2.Idle call := by
  refine ⟨h.toSound.exec fate (by simp), ?_, (exec_call _ _ _).trans h.call⟩
  simp only [Exchange.exec]
  cases fate.refusal with
  | some fault => exact h.touch
  | none =>
      refine ⟨.new true, ?_, rfl, fun line hmem => absurd hmem List.not_mem_nil, fun _ => ⟨[], rfl, rfl⟩⟩
      exact List.getElem?_concat_length

theorem exec_serialize (x : Exchange) (req : Request) (fate : Fate) :
    (x.exec (.serialize req) fate).2 = x := by
  simp only [Exchange.exec]
  cases fate.fault <;> rfl

theorem touch_modify {f : Wire → Wire} {pending : List (Line × Option ℕ)} {wire : Wire}
    (hwire : x.wires[x.socket.wire]? = some wire) (hmine : (f wire).mine = true)
    (hplain : ∀ line ∈ (f wire).arrived, line.1 ≠ .blank ∧ line.1 ≠ .request .subscribe)
    (haligned : x.socket.readable = true →
      ∃ before, (f wire).arrived = before ++ pending ∧ before.length = x.socket.read) :
    (x.modify f).Touch pending := by
  refine ⟨f wire, ?_, hmine, hplain, haligned⟩
  show (x.wires.modify x.socket.wire f)[x.socket.wire]? = some (f wire)
  rw [List.getElem?_modify_eq, hwire]
  rfl

/-- A write that fails leaves the client where it was. -/
theorem idle_writeAll (h : x.Idle call) {error : String}
    (hanswer : (x.exec (.writeAll req) fate).1 = .error error) :
    (x.exec (.writeAll req) fate).2.Idle call := by
  obtain ⟨wire, hwire, hmine, hplain, haligned⟩ := h.touch
  refine ⟨h.toSound.exec fate (by simp), ?_, (exec_call _ _ _).trans h.call⟩
  simp only [Exchange.exec, writeAll] at hanswer ⊢
  split at hanswer
  · cases hanswer
  · exact h.touch
  · exact touch_modify hwire hmine hplain haligned

/-- A write that succeeds has the client wait for the answer to one line more. -/
theorem waiting_writeAll (h : x.Idle call) (hreq : req ≠ .subscribe)
    (hanswer : (x.exec (.writeAll req) fate).1 = .ok ()) :
    (x.exec (.writeAll req) fate).2.Waiting call req := by
  obtain ⟨wire, hwire, hmine, hplain, haligned⟩ := h.touch
  have hline : wire.joined fate.error (.request req) = .request req ∨
      ∃ error, wire.joined fate.error (.request req) = .malformed error := by
    unfold Wire.joined
    split_ifs
    · exact .inr ⟨_, rfl⟩
    · exact .inl rfl
  refine ⟨h.toSound.exec fate (by simp), ⟨_, ?_, hline⟩, (exec_call _ _ _).trans h.call⟩
  simp only [Exchange.exec, writeAll] at hanswer ⊢
  split at hanswer
  swap
  · cases hanswer
  swap
  · cases hanswer
  refine touch_modify hwire hmine ?_ ?_
  · intro line hmem
    rcases List.mem_append.mp hmem with hmem | hmem
    · exact hplain line hmem
    · obtain rfl := List.mem_singleton.mp hmem
      rcases hline with hline | ⟨error, hline⟩
      · simp [hline, hreq]
      · simp [hline]
  · intro hreadable
    obtain ⟨before, harrived, hread⟩ := haligned hreadable
    rw [List.append_nil] at harrived
    subst harrived
    rw [h.call]
    exact ⟨wire.arrived, rfl, hread⟩

/-- When nothing is awaited, no response is there to be read. -/
theorem Idle.no_reply (h : x.Idle call) {wire : Wire} (hwire : x.wires[x.socket.wire]? = some wire)
    (hreadable : x.socket.readable = true) : wire.conn.output[x.socket.read]? = none := by
  obtain ⟨own, hown, -, hplain, haligned⟩ := h.touch
  rw [hwire] at hown
  cases hown
  obtain ⟨before, harrived, hread⟩ := haligned hreadable
  have hle := (h.inStep _ wire hwire fun line hmem => (hplain line hmem).2).length_le
  rw [harrived, List.append_nil, hread] at hle
  exact List.getElem?_eq_none hle

/-- When one line is awaited, the next response is the answer to it. -/
theorem Waiting.reply (h : x.Waiting call req) {wire : Wire}
    (hwire : x.wires[x.socket.wire]? = some wire) (hreadable : x.socket.readable = true)
    {origin : Option (Request × Option ℕ)} {response : Response}
    (hreply : wire.conn.output[x.socket.read]? = some (origin, response)) :
    (∃ line, wire.arrived[x.socket.read]? = some (line, some call) ∧
      Answers (line, some call) (origin, response)) ∧
    (origin = some (req, some call) ∨ ∃ message, response = .error message) := by
  obtain ⟨line, ⟨own, hown, -, hplain, haligned⟩, hline⟩ := h.touch
  rw [hwire] at hown
  cases hown
  obtain ⟨before, harrived, hread⟩ := haligned hreadable
  have hstep := h.inStep _ wire hwire fun line hmem => (hplain line hmem).2
  obtain ⟨answered, hanswered, hanswers⟩ := hstep.answers hreply
  have hnonblank : nonblank wire.arrived = wire.arrived :=
    List.filter_eq_self.mpr fun line hmem => by simpa using (hplain line hmem).1
  have hlast : wire.arrived[x.socket.read]? = some (line, some call) := by
    rw [harrived, ← hread, List.getElem?_concat_length]
  rw [hnonblank, hlast] at hanswered
  cases hanswered
  refine ⟨⟨line, hlast, hanswers⟩, ?_⟩
  rcases hline with rfl | ⟨error, rfl⟩
  · exact .inl hanswers
  · exact .inr ⟨_, (Prod.mk.inj hanswers).2⟩

/-- A response is there for the request, or it is an error. -/
def Got (wires : List Wire) (call : ℕ) (req : Request) (response : Response) : Prop :=
  Replied wires call req response ∨ ∃ message, response = .error message

theorem sound_finish (h : x.Sound) : x.finish.Sound := ⟨h.inStep, h.receipts⟩

theorem touch_finish {pending pending' : List (Line × Option ℕ)} (h : x.Touch pending) :
    x.finish.Touch pending' := by
  obtain ⟨wire, hwire, hmine, hplain, -⟩ := h
  exact ⟨wire, hwire, hmine, hplain, nofun⟩

theorem idle_finish (hsound : x.Sound) {pending : List (Line × Option ℕ)} (htouch : x.Touch pending)
    (hcall : x.call = call) : x.finish.Idle call :=
  ⟨sound_finish hsound, touch_finish htouch, hcall⟩

/-- A read while nothing is awaited brings no response. -/
theorem idle_readLine (h : x.Idle call) (fate : Fate) : (x.readLine fate).2.Idle call ∧
    ∀ parsed, (x.readLine fate).1 ≠ .ok (some parsed) := by
  unfold readLine
  split
  · exact ⟨idle_finish h.toSound h.touch h.call, nofun⟩
  · rename_i wire _ hreadable hwire
    rw [h.no_reply hwire hreadable]
    exact ⟨idle_finish h.toSound h.touch h.call, nofun⟩
  · exact ⟨h, nofun⟩

theorem idle_take (h : x.Waiting call req) {wire : Wire}
    (hwire : x.wires[x.socket.wire]? = some wire) (hreadable : x.socket.readable = true)
    {reply : Option (Request × Option ℕ) × Response}
    (hreply : wire.conn.output[x.socket.read]? = some reply) : x.take.Idle call := by
  obtain ⟨⟨line, hline, hanswers⟩, -⟩ := h.reply hwire hreadable hreply
  refine ⟨⟨h.inStep, ?_⟩, ?_, h.call⟩
  · intro r hr
    rcases List.mem_append.mp hr with hr | hr
    · exact h.receipts r hr
    · obtain rfl := List.mem_singleton.mp hr
      rw [← h.call] at hline hanswers
      exact ⟨wire, line, reply, hwire, hline, hreply, hanswers⟩
  · obtain ⟨line, ⟨own, hown, hmine, hplain, haligned⟩, -⟩ := h.touch
    refine ⟨own, hown, hmine, hplain, fun _ => ?_⟩
    obtain ⟨before, harrived, hread⟩ := haligned hreadable
    refine ⟨before ++ [(line, some call)], ?_, ?_⟩
    · rw [harrived, List.append_nil]
    · rw [List.length_append, hread]
      rfl

theorem parse_eq_ok {response response' : Response} (h : parse fate response = .ok response') :
    response' = response := by
  unfold parse at h
  split at h <;> cases h
  rfl

theorem got_of_reply (h : x.Waiting call req) {wire : Wire}
    (hwire : x.wires[x.socket.wire]? = some wire) (hreadable : x.socket.readable = true)
    {origin : Option (Request × Option ℕ)} {response : Response}
    (hreply : wire.conn.output[x.socket.read]? = some (origin, response)) :
    Got x.wires call req response := by
  rcases (h.reply hwire hreadable hreply).2 with rfl | hmessage
  · exact .inl ⟨_, wire, hwire, List.mem_of_getElem? hreply⟩
  · exact .inr hmessage

/-- A read while an answer is awaited brings that answer, or none at all for good. -/
theorem waiting_readLine (h : x.Waiting call req) (fate : Fate) : (x.readLine fate).2.Idle call ∧
    ∀ response, (x.readLine fate).1 = .ok (some (.ok response)) →
      Got (x.readLine fate).2.wires call req response := by
  obtain ⟨line, htouch, -⟩ := h.touch
  have hfinish : x.finish.Idle call := idle_finish h.toSound htouch h.call
  unfold readLine
  split
  · exact ⟨hfinish, nofun⟩
  · rename_i wire _ hreadable hwire
    split
    · exact ⟨hfinish, nofun⟩
    · rename_i origin response hreply
      have hidle := idle_take h hwire hreadable hreply
      have hgot : ∀ response', parse fate response = .ok response' →
          Got x.wires call req response' := by
        intro response' hparse
        rw [parse_eq_ok hparse]
        exact got_of_reply h hwire hreadable hreply
      split_ifs
      · exact ⟨hidle, fun response' hanswer => hgot response' (by simpa using hanswer)⟩
      · exact ⟨idle_finish hidle.toSound hidle.touch hidle.call,
          fun response' hanswer => hgot response' (by simpa using hanswer)⟩
      · exact ⟨hfinish, nofun⟩
  · rename_i hnot
    obtain ⟨own, hown, hmine, hplain, -⟩ := htouch
    exact ⟨⟨h.toSound, ⟨own, hown, hmine, hplain, fun hreadable => (hnot own hreadable hown).elim⟩,
      h.call⟩, nofun⟩

end Exchange

/-! ### What the client's methods do -/

namespace Client

open Exchange

variable {α : Type} {p : Platform} {client : Client} {x : Exchange} {call : ℕ} {req : Request}

/-- A method of the client among what others do. -/
abbrev Among (p : Platform) (Q : Except Chain α → Exchange → Prop) (method : Method α) (x : Exchange) :
    Prop := Always (amid (act p) exec) Sound Q method x

/-- The rule for a call with a context. -/
theorem among_ask {P : Exchange → Prop} {Q : Except Chain α → Exchange → Prop} {k : Call} {text : String}
    {program : Prog Call Answer (Except String α)} {f : Answer k → Except String α}
    (hprogram : program = .call k fun r => .ret (f r)) (hstable : Stable (act p) P)
    (hsound : ∀ x, P x → x.Sound) (hx : P x)
    (hnext : ∀ x fate, P x → (x.exec k fate).2.Sound ∧
      Q ((f (x.exec k fate).1).mapError fun e => [text, e]) (x.exec k fate).2) :
    Among p Q (ask text program) x := by
  subst hprogram
  exact always_amid_call hstable hsound hx fun x fate hx => hnext x fate hx

/-- After a round trip the client awaits nothing, and a response is one for the request. -/
def Done (call : ℕ) (req : Request) (r : Except Chain Response) (x : Exchange) : Prop :=
  x.Idle call ∧ ∀ response, r = .ok response → Got x.wires call req response

theorem among_readResponse (hx : x.Waiting call req) : Among p (Done call req) readResponse x := by
  refine always_andThen.mpr (among_ask (k := .readLine) (f := id) rfl stable_waiting
    (fun _ h => h.toSound) hx fun x fate hx => ?_)
  obtain ⟨hidle, hgot⟩ := waiting_readLine hx fate
  refine ⟨hidle.toSound, ?_⟩
  cases hread : (x.exec .readLine fate).1 with
  | error error => exact ⟨hidle, nofun⟩
  | ok line =>
      cases line with
      | none => exact ⟨hidle.toSound, hidle, nofun⟩
      | some parsed =>
          cases parsed with
          | error error => exact ⟨hidle.toSound, hidle, nofun⟩
          | ok response =>
              refine ⟨hidle.toSound, hidle, fun response' h => ?_⟩
              cases h
              exact hgot response hread

theorem among_attemptRoundTrip (hreq : req ≠ .subscribe) (hx : x.Idle call) :
    Among p (Done call req) (attemptRoundTrip req) x := by
  refine always_andThen.mpr (among_ask (k := .serialize req) (f := id) rfl stable_idle
    (fun _ h => h.toSound) hx fun x fate hx => ?_)
  rw [exec_serialize]
  refine ⟨hx.toSound, ?_⟩
  cases (x.exec (.serialize req) fate).1 with
  | error error => exact ⟨hx, nofun⟩
  | ok _ =>
      refine always_andThen.mpr (among_ask (k := .writeAll req) (f := id) rfl stable_idle
        (fun _ h => h.toSound) hx fun x fate hx => ?_)
      cases hwrite : (x.exec (.writeAll req) fate).1 with
      | error error =>
          have hidle := idle_writeAll hx hwrite
          exact ⟨hidle.toSound, hidle, nofun⟩
      | ok _ =>
          have hwaiting := waiting_writeAll hx hreq hwrite
          refine ⟨hwaiting.toSound, always_andThen.mpr (among_ask (k := .flush) (f := id) rfl
            stable_waiting (fun _ h => h.toSound) hwaiting fun x fate hx => ⟨hx.toSound, ?_⟩)⟩
          exact among_readResponse hx

theorem among_reopen (hx : x.Idle call) :
    Among p (fun _ x => x.Idle call) (client.reopen : Method Unit) x :=
  always_amid_call stable_idle (fun _ h => h.toSound) hx fun _ fate hx =>
    have hidle := idle_connect hx fate
    ⟨hidle.toSound, hidle⟩

theorem Done.of_error {r : Except Chain Response} {f : Chain → Chain} (h : Done call req r x) :
    Done call req (r.mapError f) x := by
  cases r with
  | ok response => exact h
  | error e => exact ⟨h.1, nofun⟩

theorem among_retry (hreq : req ≠ .subscribe) (hx : x.Idle call) (e : Chain) :
    Among p (Done call req) (client.retry req e) x := by
  unfold retry
  split_ifs
  · refine always_andThen.mpr (always_mapError.mpr ((among_reopen hx).mono (fun _ h => h) ?_))
    rintro (e | _) x hx
    · exact ⟨hx, nofun⟩
    · exact always_mapError.mpr ((among_attemptRoundTrip hreq hx).mono (fun _ h => h)
        fun _ _ h => h.of_error)
  · exact ⟨hx.toSound, hx, nofun⟩

theorem among_roundTrip (hreq : req ≠ .subscribe) (hx : x.Idle call) :
    Among p (Done call req) (client.roundTrip req) x := by
  refine always_bind.mpr ((among_attemptRoundTrip hreq hx).mono (fun _ h => h) ?_)
  intro r x hdone
  cases r with
  | ok response => exact ⟨hdone.1.toSound, hdone⟩
  | error e => exact among_retry hreq hdone.1 e

/-- After its use the client awaits nothing, and what it returns is earned. -/
def Returned (use : Use) (call : ℕ) (content : α → Content) (r : Except Chain α) (x : Exchange) : Prop :=
  x.Idle call ∧ ∀ a, r = .ok a → Earned x.wires use call (content a)

theorem among_expecting {debug : Response → String} {content : Response → Option α} {g : α → Content}
    (hreq : req ≠ .subscribe) (hcontent : ∀ response a, content response = some a →
      Content.of response = some (g a)) (hx : x.Idle call) :
    Among p (Returned (.request req) call g) (client.expecting debug req content) x := by
  refine always_andThen.mpr ((among_roundTrip hreq hx).mono (fun _ h => h) ?_)
  rintro (e | response) x ⟨hidle, hgot⟩
  · exact ⟨hidle, nofun⟩
  · show Among p _ (unpack debug req content response) x
    rcases unpack_cases debug req content response with ⟨a, hfound, ha⟩ | ⟨e, he⟩
    · rw [ha]
      have hof := hcontent response a hfound
      refine ⟨hidle.toSound, hidle, fun a' ha => ?_⟩
      cases ha
      rcases hgot response rfl with hreplied | ⟨message, rfl⟩
      · exact ⟨req, response, rfl, hreplied, hof⟩
      · cases hof
    · rw [he]
      exact ⟨hidle.toSound, hidle, nofun⟩

/-- A method that returns the content of what another one has returned. -/
theorem among_content {method : Method α} {use : Use} {g : α → Content}
    (h : Among p (Returned use call g) method x) :
    Among p (Returned use call id) (method >>= fun a => pure (g a)) x := by
  refine always_andThen.mpr (h.post.mono (fun _ h => h) ?_)
  rintro (e | a) x ⟨hsound, hidle, hearned⟩
  · exact ⟨hidle, nofun⟩
  · refine ⟨hsound, hidle, fun content hcontent => ?_⟩
    cases hcontent
    exact hearned a rfl

theorem among_expectOk {debug : Response → String} (hreq : req ≠ .subscribe) (hx : x.Idle call) :
    Among p (Returned (.request req) call fun _ => .done) (client.expectOk debug req) x :=
  among_expecting hreq (fun response a h => by cases response <;> first | rfl | cases h) hx

/-- Without a subscription nothing is pushed. -/
theorem among_nextPush (hx : x.Idle call) : Among p (Returned .nextPush call .push) nextPush x := by
  refine always_andThen.mpr (among_ask (k := .readLine) (f := id) rfl stable_idle
    (fun _ h => h.toSound) hx fun x fate hx => ?_)
  obtain ⟨hidle, hnone⟩ := idle_readLine hx fate
  refine ⟨hidle.toSound, ?_⟩
  cases hread : (x.exec .readLine fate).1 with
  | error error => exact ⟨hidle, nofun⟩
  | ok line =>
      cases line with
      | none => exact ⟨hidle.toSound, hidle, nofun⟩
      | some parsed => exact absurd hread (hnone parsed)

theorem among_perform {debug : Response → String} {use : Use} (huse : use ≠ .request .subscribe)
    (hx : x.Idle call) : Among p (Returned use call id) (client.perform debug use) x := by
  cases use with
  | nextPush =>
      exact among_content (among_nextPush hx)
  | request req =>
      have hreq : req ≠ .subscribe := fun h => huse (congrArg _ h)
      cases req with
      | subscribe => exact absurd rfl hreq
      | arm | disarm | toggle | testSound | setConfig _ =>
          exact among_content (among_expectOk hreq hx)
      | getConfig | listDevices | getState | learnRemote _ =>
          refine among_content (among_expecting hreq (fun response a h => ?_) hx)
          cases response <;> first | cases h; rfl | cases h

end Client

/-! ### The dialogue -/

namespace Dialogue

open Exchange Client

variable {p : Platform} {client : Client} {debug : Response → String} {s s' : Dialogue}

/-- The client never subscribes. -/
def NeverSubscribes (_ : Dialogue) (input : DialogueInput) : Prop :=
  ∀ use, input = .use use → use ≠ .request .subscribe

/-- What has been returned is earned, and what is left of the method in use keeps to the replies of its
own request. -/
structure Faithful (p : Platform) (s : Dialogue) : Prop where
  results : ∀ f ∈ s.results, ∀ content, f.result = .ok content →
    Earned s.exchange.wires f.use f.call content
  idle : s.current = none → s.exchange.Idle s.exchange.call
  busy : ∀ use method, s.current = some (use, method) →
    Among p (Returned use s.exchange.call id) method s.exchange

theorem faithful_start (daemon : Daemon) : (start daemon).Faithful p := by
  refine ⟨List.forall_mem_nil _, fun _ => ⟨⟨?_, List.forall_mem_nil _⟩, ?_, rfl⟩, nofun⟩
  · intro n wire hwire _
    obtain rfl : wire = .new true := List.mem_singleton.mp (List.mem_of_getElem? hwire)
    exact .new
  · exact ⟨.new true, rfl, rfl, List.forall_mem_nil _, fun _ => ⟨[], rfl, rfl⟩⟩

theorem earned_of_goes {exchange : Exchange} (h : s.Faithful p)
    (hgoes : ∀ n : ℕ, Wire.Goes s.exchange.wires[n]? exchange.wires[n]?) :
    ∀ f ∈ s.results, ∀ content, f.result = .ok content →
      Earned exchange.wires f.use f.call content :=
  fun f hf content hcontent => (h.results f hf content hcontent).goes hgoes

/-- The client goes on with a method, or returns from it. -/
theorem faithful_goOn {use : Use} {method : Prog Call Answer (Except Chain Content)}
    (hresults : ∀ f ∈ s.results, ∀ content, f.result = .ok content →
      Earned s.exchange.wires f.use f.call content)
    (hmethod : Among p (Returned use s.exchange.call id) method s.exchange) :
    (s.goOn use method).Faithful p := by
  cases method with
  | ret result =>
      obtain ⟨-, hidle, hearned⟩ := hmethod
      refine ⟨fun f hf content hcontent => ?_, fun _ => hidle, nofun⟩
      rcases List.mem_append.mp hf with hf | hf
      · exact hresults f hf content hcontent
      · obtain rfl := List.mem_singleton.mp hf
        exact hearned content hcontent
  | call k next =>
      refine ⟨hresults, nofun, fun use' method hcurrent => ?_⟩
      cases hcurrent
      exact hmethod

theorem stable_returned {use : Use} {call : ℕ} {r : Except Chain Content} :
    Stable (act p) (Returned use call id r) := fun x move x' h hact =>
  ⟨stable_idle x move x' h.1 hact, fun a ha => (h.2 a ha).goes (act_acted hact).goes⟩

theorem faithful_step {input : DialogueInput} (h : s.Faithful p) (hguard : s.NeverSubscribes input)
    (hstep : s.step p client debug input = .ok s') : s'.Faithful p := by
  cases input with
  | move move =>
      simp only [step] at hstep
      split at hstep
      · rename_i exchange hact
        cases hstep
        have hacted := act_acted hact
        have hearned := earned_of_goes h hacted.goes
        refine ⟨hearned, fun hcurrent => ?_, fun use method hcurrent => ?_⟩
        · rw [hacted.call]
          exact stable_idle _ _ _ (h.idle hcurrent) hact
        · rw [hacted.call]
          exact (h.busy use method hcurrent).acted stable_sound (fun _ => stable_returned) hact
      · cases hstep
  | use use =>
      simp only [step] at hstep
      split at hstep
      · rename_i hcurrent
        cases hstep
        have hidle := h.idle hcurrent
        refine faithful_goOn h.results (among_perform (hguard use rfl) ⟨⟨?_, ?_⟩, ?_, rfl⟩)
        · exact hidle.inStep
        · exact hidle.receipts
        · exact hidle.touch
      · cases hstep
  | call fate =>
      simp only [step] at hstep
      split at hstep
      · rename_i use k next hcurrent
        split_ifs at hstep
        cases hstep
        have hearned := earned_of_goes h (exec_goes s.exchange k fate)
        refine faithful_goOn hearned ?_
        rw [exec_call]
        exact (h.busy use _ hcurrent).called fate
      · cases hstep

theorem Faithful.sound (h : s.Faithful p) : s.exchange.Sound := by
  cases hcurrent : s.current with
  | none => exact (h.idle hcurrent).toSound
  | some current => exact (h.busy current.1 current.2 hcurrent).holds

/-- A client that never subscribes, whatever fails and whatever others do: what a use returns is the
content of the response to its own request, every response is read by the use whose line it answers, and
a connection on which nobody subscribes answers its lines one by one. -/
theorem uses_get_own_replies {daemon : Daemon} {inputs : List DialogueInput}
    (hrun : RunIf (step p client debug) NeverSubscribes (start daemon) inputs s) :
    (∀ f ∈ s.results, ∀ content, f.result = .ok content →
      Earned s.exchange.wires f.use f.call content) ∧
    (∀ r ∈ s.exchange.receipts, r.Proper s.exchange.wires) ∧
    ∀ wire ∈ s.exchange.wires, wire.Unsubscribed → wire.conn.InStep wire.arrived := by
  have h : s.Faithful p := hrun.invariant (faithful_start daemon)
    fun _ _ _ h hguard hstep => faithful_step h hguard hstep
  refine ⟨h.results, h.sound.receipts, fun wire hmem hlines => ?_⟩
  obtain ⟨n, hwire⟩ := List.getElem?_of_mem hmem
  exact h.sound.inStep n wire hwire hlines

/-- A write that fails after part of the line is out. -/
def brokenPipe : Fate := { Fate.fair with fault := some "Broken pipe (os error 32)", landed := some false }

/-- The first write of a `GetConfig` fails; over a fresh connection the client gets its answer. -/
def reconnected : List DialogueInput :=
  [.use (.request .getConfig), .call .fair, .call brokenPipe, .call .fair, .call .fair, .call .fair,
    .call .fair, .move (.progress 1 .start), .move (.progress 1 .line), .move (.progress 1 .send),
    .move (.control 1 (Bench.host "c1")), .move (.progress 1 .resume),
    .move (.progress 1 (.write true)), .call .fair]

theorem uses_get_own_replies_reconnected : ∃ s : Dialogue, ∃ f ∈ s.results,
    f.result = .ok (.config .default) ∧
      Earned s.exchange.wires (.request .getConfig) f.call (.config .default) := by
  obtain ⟨s, hrun, hresult⟩ : ∃ s, Run (step Bench.platform ⟨⟨"/run/alertu.sock"⟩, true⟩ fun _ => "")
      (start (Bench.boot .default "c1")) reconnected s ∧
      s.results.map (fun f => (f.use, f.result)) = [(.request .getConfig, .ok (.config .default))] :=
    ⟨_, run_get (by decide +kernel), by decide +kernel⟩
  have hguard : ∀ before input after s, reconnected = before ++ input :: after →
      Run (step Bench.platform ⟨⟨"/run/alertu.sock"⟩, true⟩ fun _ => "")
        (start (Bench.boot .default "c1")) before s → s.NeverSubscribes input := by
    intro before input after s hsplit _
    have hmem : input ∈ reconnected := by simp [hsplit]
    rintro use rfl rfl
    simp [reconnected] at hmem
  have hnever := RunIf.of_run hrun hguard
  obtain ⟨f, hf, hpair⟩ := List.mem_map.mp (hresult ▸ List.mem_singleton.mpr rfl)
  obtain ⟨huse, hcontent⟩ := Prod.mk.inj hpair
  have hearned := (uses_get_own_replies hnever).1 f hf _ hcontent
  rw [huse] at hearned
  exact ⟨s, f, hf, hcontent, hearned⟩

end Dialogue

end AlertU
