import AlertU.Bench
import AlertU.Learn

/-! A whole pairing window: the readers of `learn::run` and its loop over what they forward, on a schedule
of what the devices report. The window is one loop over two tasks: what a reader forwards is received at
once, and the timer of the runtime says when a loop that still waits gives up. -/

open FilePath Timing

namespace AlertU.Learn

/-- The timer behind `timeout_at`: when it gives up waiting for the deadline to pass. -/
structure Timer where
  givesUp : Instant → Instant

/-- A value that comes before the deadline is returned, and otherwise there is an error. -/
def Timer.Exact (timer : Timer) : Prop := ∀ deadline, timer.givesUp deadline = deadline

/-- What comes from a device: an event, or the end of its reader, which has failed to open the device
or to read from it. -/
inductive Report where
  | event (event : EventSummary)
  | ended
  deriving DecidableEq, Repr

/-- A report of a device, which is given by its number in the list of entries. -/
structure Arrival where
  now : Instant
  device : ℕ
  report : Report
  deriving DecidableEq, Repr

inductive Act where
  | spawned (entry : DeviceEntry)
  | aborted (entry : DeviceEntry)
  | replied (now : Instant) (reply : Except String Outcome)
  deriving DecidableEq, Repr

variable (evdev : Evdev) (timer : Timer) (entries : List DeviceEntry) (started deadline : Instant)

/-- The device of a reader that has been spawned and has not ended. -/
def reader (ended : List ℕ) (device : ℕ) : Option DeviceEntry :=
  if device ∈ ended then none else entries[device]?.filter fun entry => !entry.isPointer

/-- The channel is closed: no reader holds a sender any more. -/
def allEnded (ended : List ℕ) : Bool :=
  (List.range entries.length).all fun device => (reader entries ended device).isNone

/-- The readers that have ended once the report is in. -/
def endedAfter (ended : List ℕ) (arrival : Arrival) : List ℕ :=
  if arrival.report = .ended then arrival.device :: ended else ended

/-- One turn of the loop: how the report ends it, if it does, while the readers of the devices in `ended`
have ended. -/
def turn (ended : List ℕ) (arrival : Arrival) : Option (Instant × Outcome) :=
  if timer.givesUp deadline ≤ arrival.now then some (timer.givesUp deadline, .timedOut)
  else
    match arrival.report with
    | .ended =>
        if allEnded entries (arrival.device :: ended) then some (max started arrival.now, .timedOut)
        else none
    | .event event =>
        ((reader entries ended arrival.device).bind (watchOne evdev · event)).bind fun press =>
          (receive started arrival.now press).map (arrival.now, ·)

/-- The loop of `run`. -/
def listen (ended : List ℕ) : List Arrival → Instant × Outcome
  | [] => (timer.givesUp deadline, .timedOut)
  | arrival :: rest =>
      match turn evdev timer entries started deadline ended arrival with
      | some result => result
      | none => listen (endedAfter ended arrival) rest

/-- Watch every non-pointer device and answer with the first key press. -/
def run (window : ℕ) (schedule : List Arrival) : List Act :=
  (listened entries).map .spawned ++
    if (listened entries).isEmpty then
      [.replied started (.error "no input device available to learn from")]
    else
      match started.checkedAdd window with
      | none => [] -- `started + window` panics, and the reply is dropped
      | some deadline =>
          let (now, outcome) := listen evdev timer entries started deadline [] schedule
          (listened entries).map .aborted ++ [.replied now (.ok outcome)]

/-! ### What is learned -/

/-- The `n`-th report comes to a reader, which has not ended before. -/
def Heard (ended : List ℕ) (schedule : List Arrival) (n device : ℕ) (entry : DeviceEntry) : Prop :=
  entries[device]? = some entry ∧ entry.isPointer = false ∧ device ∉ ended ∧
    ∀ m < n, ∀ before, schedule[m]? ≠ some ⟨before, device, .ended⟩

/-- A press that may be learned: of a key on a device that is no pointer and still has its reader, and
received at or after `SETTLE` and before the deadline. -/
def Qualifies (ended : List ℕ) (schedule : List Arrival) (n : ℕ) (press : Press) : Prop :=
  ∃ now device code entry, schedule[n]? = some ⟨now, device, .event (.key code 1)⟩ ∧
    Heard entries ended schedule n device entry ∧ ¬(0x100 ≤ code.toNat ∧ code.toNat < 0x160) ∧
    SETTLE ≤ now.elapsedSince started ∧ now < deadline ∧
    press = ⟨entry.path, entry.name, evdev.debug code⟩

/-- The first press that may be learned. -/
def FirstPress (ended : List ℕ) (schedule : List Arrival) (press : Press) : Prop :=
  ∃ n, Qualifies evdev entries started deadline ended schedule n press ∧
    ∀ m < n, ∀ other, ¬Qualifies evdev entries started deadline ended schedule m other

/-- Nothing more can come of the first `n` reports: they have ended every reader. -/
def EndedBefore (schedule : List Arrival) (n : ℕ) : Prop :=
  ∀ device entry, entries[device]? = some entry → entry.isPointer = false →
    ∃ m < n, ∃ now, schedule[m]? = some ⟨now, device, .ended⟩

/-- An event that comes inside the settle window. -/
def isEarly (arrival : Arrival) : Bool :=
  arrival.report ≠ .ended && arrival.now.elapsedSince started < SETTLE

variable {evdev timer entries started deadline} {ended : List ℕ} {schedule rest : List Arrival}
  {arrival : Arrival} {press : Press}

theorem reader_eq_some {device : ℕ} {entry : DeviceEntry} :
    reader entries ended device = some entry ↔
      device ∉ ended ∧ entries[device]? = some entry ∧ entry.isPointer = false := by
  unfold reader
  split_ifs with hended
  · simp [hended]
  · simp [hended, Option.filter_eq_some_iff]

theorem watchOne_key {entry : DeviceEntry} {code : KeyCode} (h : ¬(0x100 ≤ code.toNat ∧ code.toNat < 0x160)) :
    watchOne evdev entry (.key code 1) = some ⟨entry.path, entry.name, evdev.debug code⟩ := by
  have hcode : isPointerButton code = false := by simpa [isPointerButton] using h
  rw [watchOne, hcode]
  rfl

theorem heard_zero_iff {device : ℕ} {entry : DeviceEntry} :
    Heard entries ended schedule 0 device entry ↔ reader entries ended device = some entry := by
  rw [reader_eq_some]
  constructor
  · rintro ⟨hentry, hpointer, hended, -⟩
    exact ⟨hended, hentry, hpointer⟩
  · rintro ⟨hended, hentry, hpointer⟩
    exact ⟨hentry, hpointer, hended, fun m hm => absurd hm (Nat.not_lt_zero m)⟩

theorem heard_succ_iff {n device : ℕ} {entry : DeviceEntry} :
    Heard entries ended (arrival :: rest) (n + 1) device entry ↔
      Heard entries (endedAfter ended arrival) rest n device entry := by
  have hfirst : device ∉ endedAfter ended arrival ↔
      device ∉ ended ∧ ∀ before, arrival ≠ ⟨before, device, .ended⟩ := by
    obtain ⟨now, other, report⟩ := arrival
    by_cases hreport : report = .ended <;> simp [endedAfter, hreport, eq_comm, and_comm]
  refine and_congr_right fun _ => and_congr_right fun _ => ?_
  rw [hfirst, and_assoc]
  refine and_congr_right fun _ => ?_
  constructor
  · intro hbefore
    refine ⟨fun before heq => hbefore 0 (Nat.succ_pos n) before (congrArg some heq), ?_⟩
    exact fun m hm before heq => hbefore (m + 1) (Nat.succ_lt_succ hm) before heq
  · rintro ⟨hhead, hbefore⟩ m hm before heq
    cases m with
    | zero => exact hhead before (Option.some.inj heq)
    | succ m => exact hbefore m (Nat.lt_of_succ_lt_succ hm) before heq

/-- The first report is a press that may be learned. -/
theorem qualifies_zero_iff : Qualifies evdev entries started deadline ended (arrival :: rest) 0 press ↔
    ∃ event, arrival.report = .event event ∧
      (reader entries ended arrival.device).bind (watchOne evdev · event) = some press ∧
      SETTLE ≤ arrival.now.elapsedSince started ∧ arrival.now < deadline := by
  constructor
  · rintro ⟨now, device, code, entry, harrival, hheard, hcode, hsettle, hdeadline, rfl⟩
    rw [List.getElem?_cons_zero, Option.some.injEq] at harrival
    subst harrival
    refine ⟨_, rfl, ?_, hsettle, hdeadline⟩
    rw [heard_zero_iff.mp hheard, Option.bind_some, watchOne_key hcode]
  · rintro ⟨event, hreport, hpress, hsettle, hdeadline⟩
    obtain ⟨entry, hreader, hpress⟩ := Option.bind_eq_some_iff.mp hpress
    obtain ⟨code, rfl, hcode, rfl⟩ := watchOne_eq_some hpress
    refine ⟨arrival.now, arrival.device, code, entry, ?_, heard_zero_iff.mpr hreader, ?_, hsettle,
      hdeadline, rfl⟩
    · rw [List.getElem?_cons_zero, ← hreport]
    · simpa [isPointerButton] using hcode

theorem qualifies_succ_iff {n : ℕ} :
    Qualifies evdev entries started deadline ended (arrival :: rest) (n + 1) press ↔
      Qualifies evdev entries started deadline (endedAfter ended arrival) rest n press := by
  simp only [Qualifies, List.getElem?_cons_succ, heard_succ_iff]

/-- Once the loop is past a report that cannot be learned, the rest of the schedule decides. -/
theorem firstPress_cons
    (hfirst : ∀ other, ¬Qualifies evdev entries started deadline ended (arrival :: rest) 0 other) :
    FirstPress evdev entries started deadline ended (arrival :: rest) press ↔
      FirstPress evdev entries started deadline (endedAfter ended arrival) rest press := by
  constructor
  · rintro ⟨n, hpress, hbefore⟩
    cases n with
    | zero => exact absurd hpress (hfirst press)
    | succ n =>
        refine ⟨n, qualifies_succ_iff.mp hpress, fun m hm other hother => ?_⟩
        exact hbefore (m + 1) (Nat.succ_lt_succ hm) other (qualifies_succ_iff.mpr hother)
  · rintro ⟨n, hpress, hbefore⟩
    refine ⟨n + 1, qualifies_succ_iff.mpr hpress, fun m hm other hother => ?_⟩
    cases m with
    | zero => exact hfirst other hother
    | succ m => exact hbefore m (Nat.lt_of_succ_lt_succ hm) other (qualifies_succ_iff.mp hother)

theorem not_qualifies_cons
    (hfirst : ∀ other, ¬Qualifies evdev entries started deadline ended (arrival :: rest) 0 other)
    (hrest : ∀ n other,
      ¬Qualifies evdev entries started deadline (endedAfter ended arrival) rest n other) (n : ℕ)
    (other : Press) :
    ¬Qualifies evdev entries started deadline ended (arrival :: rest) n other := by
  cases n with
  | zero => exact hfirst other
  | succ n => exact fun h => hrest n other (qualifies_succ_iff.mp h)

/-- Nothing that comes at the deadline or later may be learned. -/
theorem not_qualifies_of_late (hsorted : (arrival :: rest).Pairwise fun a b => a.now ≤ b.now)
    (hlate : deadline ≤ arrival.now) (n : ℕ) (other : Press) :
    ¬Qualifies evdev entries started deadline ended (arrival :: rest) n other := by
  rintro ⟨now, device, code, entry, harrival, -, -, -, hdeadline, -⟩
  have hmem := List.mem_of_getElem? harrival
  rcases List.mem_cons.mp hmem with heq | hmem
  · rw [← heq] at hlate
    exact absurd hdeadline (not_lt.mpr hlate)
  · have hle := (List.pairwise_cons.mp hsorted).1 _ hmem
    exact absurd hdeadline (not_lt.mpr (hlate.trans hle))

/-- With every reader gone, nothing may be learned. -/
theorem not_qualifies_of_allEnded (h : allEnded entries ended) (n : ℕ) (other : Press) :
    ¬Qualifies evdev entries started deadline ended schedule n other := by
  rintro ⟨now, device, code, entry, -, ⟨hentry, hpointer, hended, -⟩, -⟩
  have hreader := reader_eq_some.mpr ⟨hended, hentry, hpointer⟩
  have hlt : device < entries.length := (List.getElem?_eq_some_iff.mp hentry).1
  have hnone := List.all_eq_true.mp h device (List.mem_range.mpr hlt)
  rw [hreader] at hnone
  cases hnone

/-- What comes of a report that is in time. -/
theorem turn_of_waits (rest : List Arrival) (hwaits : arrival.now < timer.givesUp deadline) :
    turn evdev timer entries started deadline ended arrival = none ∨
    (∃ press, Qualifies evdev entries started (timer.givesUp deadline) ended (arrival :: rest) 0 press ∧
      turn evdev timer entries started deadline ended arrival =
        some (arrival.now, .learned press.path press.name press.key)) ∨
    (allEnded entries (endedAfter ended arrival) ∧ arrival.report = .ended ∧
      turn evdev timer entries started deadline ended arrival =
        some (max started arrival.now, .timedOut)) := by
  rw [turn, if_neg (not_le.mpr hwaits)]
  cases hreport : arrival.report with
  | ended =>
      rw [endedAfter, if_pos hreport]
      by_cases hclosed : allEnded entries (arrival.device :: ended)
      · exact .inr (.inr ⟨hclosed, rfl, if_pos hclosed⟩)
      · exact .inl (if_neg hclosed)
  | event event =>
      cases hpress : (reader entries ended arrival.device).bind (watchOne evdev · event) with
      | none => exact .inl (by simp only [hpress, Option.bind_none])
      | some press =>
          by_cases hsettle : arrival.now.elapsedSince started < SETTLE
          · simp [hpress, receive, hsettle]
          · refine .inr (.inl ⟨press, qualifies_zero_iff.mpr ?_, ?_⟩)
            · exact ⟨event, hreport, hpress, not_lt.mp hsettle, hwaits⟩
            · simp [hpress, receive, hsettle]

/-- A press that may be learned is learned. -/
theorem turn_of_qualifies
    (h : Qualifies evdev entries started (timer.givesUp deadline) ended (arrival :: rest) 0 press) :
    turn evdev timer entries started deadline ended arrival =
      some (arrival.now, .learned press.path press.name press.key) := by
  obtain ⟨event, hreport, hpress, hsettle, hwaits⟩ := qualifies_zero_iff.mp h
  simp [turn, not_le.mpr hwaits, hreport, hpress, receive, not_lt.mpr hsettle]

/-- The loop learns the first press that may be learned, and times out when there is none. -/
theorem listen_outcome (hsorted : schedule.Pairwise fun a b => a.now ≤ b.now) :
    (∃ press, FirstPress evdev entries started (timer.givesUp deadline) ended schedule press ∧
      (listen evdev timer entries started deadline ended schedule).2 =
        .learned press.path press.name press.key) ∨
    ((∀ n press, ¬Qualifies evdev entries started (timer.givesUp deadline) ended schedule n press) ∧
      (listen evdev timer entries started deadline ended schedule).2 = .timedOut) := by
  induction schedule generalizing ended with
  | nil =>
      refine .inr ⟨?_, rfl⟩
      rintro n press ⟨now, device, code, entry, harrival, -⟩
      cases harrival
  | cons arrival rest ih =>
      by_cases hlate : timer.givesUp deadline ≤ arrival.now
      · refine .inr ⟨not_qualifies_of_late hsorted hlate, ?_⟩
        rw [listen, turn, if_pos hlate]
      · rcases turn_of_waits rest (not_le.mp hlate) with
          hturn | ⟨press, hpress, hturn⟩ | ⟨hclosed, hreport, hturn⟩
        · have hfirst (other : Press) : ¬Qualifies evdev entries started (timer.givesUp deadline) ended
              (arrival :: rest) 0 other := by
            intro hother
            rw [turn_of_qualifies hother] at hturn
            cases hturn
          rw [listen, hturn]
          rcases ih (List.pairwise_cons.mp hsorted).2 with ⟨press, hpress, houtcome⟩ | ⟨hnone, houtcome⟩
          · exact .inl ⟨press, (firstPress_cons hfirst).mpr hpress, houtcome⟩
          · exact .inr ⟨not_qualifies_cons hfirst hnone, houtcome⟩
        · refine .inl ⟨press, ⟨0, hpress, fun m hm => absurd hm (Nat.not_lt_zero m)⟩, ?_⟩
          rw [listen, hturn]
        · refine .inr ⟨not_qualifies_cons ?_ (not_qualifies_of_allEnded hclosed), ?_⟩
          · intro other hother
            obtain ⟨event, hevent, -⟩ := qualifies_zero_iff.mp hother
            rw [hreport] at hevent
            cases hevent
          · rw [listen, hturn]

/-- The loop is over when the timer gives up. -/
theorem listen_fst_le (hstarted : started ≤ timer.givesUp deadline) :
    (listen evdev timer entries started deadline ended schedule).1 ≤ timer.givesUp deadline := by
  induction schedule generalizing ended with
  | nil => exact le_refl _
  | cons arrival rest ih =>
      rw [listen]
      by_cases hlate : timer.givesUp deadline ≤ arrival.now
      · rw [turn, if_pos hlate]
      · have hnow : arrival.now ≤ timer.givesUp deadline := (not_le.mp hlate).le
        rcases turn_of_waits rest (not_le.mp hlate) with
          hturn | ⟨press, -, hturn⟩ | ⟨-, -, hturn⟩
        · rw [hturn]
          exact ih
        · rw [hturn]
          exact hnow
        · rw [hturn]
          exact max_le hstarted hnow

/-- Reports that come too late change nothing. -/
theorem listen_of_late (hlate : ∀ arrival ∈ schedule, timer.givesUp deadline ≤ arrival.now) :
    listen evdev timer entries started deadline ended schedule =
      (timer.givesUp deadline, .timedOut) := by
  cases schedule with
  | nil => rfl
  | cons arrival rest => rw [listen, turn, if_pos (hlate arrival List.mem_cons_self)]

/-- Presses inside the settle window neither end nor extend the window. -/
theorem listen_filter_early (hsorted : schedule.Pairwise fun a b => a.now ≤ b.now) :
    listen evdev timer entries started deadline ended
        (schedule.filter fun arrival => !isEarly started arrival) =
      listen evdev timer entries started deadline ended schedule := by
  induction schedule generalizing ended with
  | nil => rfl
  | cons arrival rest ih =>
      obtain ⟨hhead, hrest⟩ := List.pairwise_cons.mp hsorted
      by_cases hearly : isEarly started arrival
      · rw [List.filter_cons_of_neg (by simpa using hearly), ih hrest]
        simp only [isEarly, Bool.and_eq_true, decide_eq_true_eq] at hearly
        by_cases hlate : timer.givesUp deadline ≤ arrival.now
        · rw [listen, turn, if_pos hlate]
          exact listen_of_late fun other hother => hlate.trans (hhead other hother)
        · rcases turn_of_waits rest (not_le.mp hlate) with
            hturn | ⟨press, hpress, -⟩ | ⟨-, hreport, -⟩
          · rw [listen, hturn, endedAfter, if_neg hearly.1]
          · obtain ⟨-, -, -, hsettle, -⟩ := qualifies_zero_iff.mp hpress
            exact absurd hearly.2 (not_lt.mpr hsettle)
          · exact absurd hreport hearly.1
      · rw [List.filter_cons_of_pos (by simpa using hearly), listen, listen, ih hrest]

theorem Qualifies.press_eq {n : ℕ} {other : Press}
    (h : Qualifies evdev entries started deadline ended schedule n press)
    (hother : Qualifies evdev entries started deadline ended schedule n other) : press = other := by
  obtain ⟨now, device, code, entry, harrival, ⟨hentry, -⟩, -, -, -, rfl⟩ := h
  obtain ⟨now', device', code', entry', harrival', ⟨hentry', -⟩, -, -, -, rfl⟩ := hother
  cases harrival.symm.trans harrival'
  cases hentry.symm.trans hentry'
  rfl

theorem FirstPress.unique {other : Press}
    (h : FirstPress evdev entries started deadline ended schedule press)
    (hother : FirstPress evdev entries started deadline ended schedule other) : press = other := by
  obtain ⟨n, hn, hbefore⟩ := h
  obtain ⟨m, hm, hbefore'⟩ := hother
  rcases lt_trichotomy n m with hlt | rfl | hlt
  · exact absurd hn (hbefore' n hlt press)
  · exact hn.press_eq hm
  · exact absurd hm (hbefore m hlt other)

/-- Once every reader has ended, nothing more may be learned. -/
theorem not_qualifies_of_endedBefore {n : ℕ} (hended : EndedBefore entries schedule n)
    (hbefore : ∀ m < n, ∀ other, ¬Qualifies evdev entries started deadline ended schedule m other)
    (m : ℕ) (other : Press) :
    ¬Qualifies evdev entries started deadline ended schedule m other := by
  intro hother
  by_cases hm : m < n
  · exact hbefore m hm other hother
  · obtain ⟨now, device, code, entry, -, ⟨hentry, hpointer, -, hrunning⟩, -⟩ := hother
    obtain ⟨k, hk, now', hend⟩ := hended device entry hentry hpointer
    exact hrunning k (by omega) now' hend

/-- What the window promises: one reply, after every reader has been aborted, with the first press that
may be learned, and no later than the deadline. -/
structure Replied (evdev : Evdev) (entries : List DeviceEntry) (started deadline : Instant)
    (schedule : List Arrival) (now : Instant) (reply : Except String Outcome) : Prop where
  learned : ∀ path name key, reply = .ok (.learned path name key) ↔
    FirstPress evdev entries started deadline [] schedule ⟨path, name, key⟩
  timedOut : reply = .ok .timedOut ↔ listened entries ≠ [] ∧
    ∀ n press, ¬Qualifies evdev entries started deadline [] schedule n press
  ended : ∀ n, listened entries ≠ [] → EndedBefore entries schedule n →
    (∀ m < n, ∀ press, ¬Qualifies evdev entries started deadline [] schedule m press) →
      reply = .ok .timedOut
  error : ∀ message, reply = .error message ↔
    listened entries = [] ∧ message = "no input device available to learn from"
  inTime : now ≤ deadline

theorem not_qualifies_of_listened_nil (hlistened : listened entries = []) (n : ℕ) (other : Press) :
    ¬Qualifies evdev entries started deadline ended schedule n other := by
  rintro ⟨now, device, code, entry, -, ⟨hentry, hpointer, -⟩, -⟩
  have hmem : entry ∈ listened entries :=
    List.mem_filter.mpr ⟨List.mem_of_getElem? hentry, by simp [hpointer]⟩
  rw [hlistened] at hmem
  cases hmem

theorem replied_of_no_device (hlistened : listened entries = []) (hstarted : started ≤ deadline) :
    Replied evdev entries started deadline schedule started
      (.error "no input device available to learn from") := by
  refine ⟨fun path name key => iff_of_false nofun ?_, iff_of_false nofun fun h => h.1 hlistened,
    fun n h => absurd hlistened h, fun message => ?_, hstarted⟩
  · rintro ⟨n, hn, -⟩
    exact not_qualifies_of_listened_nil hlistened n _ hn
  · rw [Except.error.injEq, eq_comm]
    exact (and_iff_right hlistened).symm

/-- The loop meets the promise, when the timer is exact. -/
theorem replied_of_listen (hlistened : listened entries ≠ []) (htimer : timer.Exact)
    (hstarted : started ≤ deadline) (hsorted : schedule.Pairwise fun a b => a.now ≤ b.now) :
    Replied evdev entries started deadline schedule
      (listen evdev timer entries started deadline [] schedule).1
      (.ok (listen evdev timer entries started deadline [] schedule).2) := by
  have hexact := htimer deadline
  have hinTime : (listen evdev timer entries started deadline [] schedule).1 ≤ timer.givesUp deadline :=
    listen_fst_le (by rwa [hexact])
  have houtcome :
      (∃ press, FirstPress evdev entries started (timer.givesUp deadline) [] schedule press ∧
        (listen evdev timer entries started deadline [] schedule).2 =
          .learned press.path press.name press.key) ∨
      ((∀ n press, ¬Qualifies evdev entries started (timer.givesUp deadline) [] schedule n press) ∧
        (listen evdev timer entries started deadline [] schedule).2 = .timedOut) :=
    listen_outcome hsorted
  rw [hexact] at hinTime houtcome
  rcases houtcome with ⟨press, hpress, houtcome⟩ | ⟨hnone, houtcome⟩
  · have hexists : ∃ n other, Qualifies evdev entries started deadline [] schedule n other :=
      ⟨hpress.choose, press, hpress.choose_spec.1⟩
    rw [houtcome]
    refine ⟨fun path name key => ⟨fun h => ?_, fun h => ?_⟩, iff_of_false nofun fun h => ?_,
      fun n _ hended hbefore => ?_, fun message => iff_of_false nofun fun h => hlistened h.1, hinTime⟩
    · cases h
      exact hpress
    · rw [hpress.unique h]
    · obtain ⟨n, other, hother⟩ := hexists
      exact h.2 n other hother
    · obtain ⟨m, other, hother⟩ := hexists
      exact absurd hother (not_qualifies_of_endedBefore hended hbefore m other)
  · rw [houtcome]
    refine ⟨fun path name key => iff_of_false nofun ?_, iff_of_true rfl ⟨hlistened, hnone⟩,
      fun _ _ _ _ => rfl, fun message => iff_of_false nofun fun h => hlistened h.1, hinTime⟩
    rintro ⟨n, hn, -⟩
    exact hnone n _ hn

/-- The window replies exactly once, after it has aborted its readers, and learns the first press that is
received at or after `SETTLE` and before the deadline; earlier presses count for nothing. -/
theorem run_learns_first_press {window : ℕ} (htimer : timer.Exact)
    (hdeadline : started.checkedAdd window = some deadline)
    (hsorted : schedule.Pairwise fun a b => a.now ≤ b.now) :
    (∃ now reply, run evdev timer entries started window schedule =
        (listened entries).map .spawned ++ ((listened entries).map .aborted ++ [.replied now reply]) ∧
      Replied evdev entries started deadline schedule now reply) ∧
    run evdev timer entries started window (schedule.filter fun arrival => !isEarly started arrival) =
      run evdev timer entries started window schedule := by
  have hstarted : started ≤ deadline := by
    rw [Instant.le_iff, Instant.checkedAdd_eq_some.mp hdeadline]
    exact Nat.le_add_right _ _
  constructor
  · by_cases hlistened : listened entries = []
    · refine ⟨started, .error "no input device available to learn from", ?_,
        replied_of_no_device hlistened hstarted⟩
      simp [run, hlistened]
    · refine ⟨_, _, ?_, replied_of_listen hlistened htimer hstarted hsorted⟩
      simp [run, hlistened, hdeadline]
  · simp only [run, hdeadline, listen_filter_early hsorted]

def onTime : Timer := ⟨id⟩

/-- A keyboard, a mouse and the remote. -/
def desk : List DeviceEntry :=
  [⟨⟨"/dev/input/event0"⟩, "AT Keyboard", true, false⟩, ⟨⟨"/dev/input/event1"⟩, "Mouse", false, true⟩,
    ⟨⟨"/dev/input/event5"⟩, "AB Shutter", true, false⟩]

theorem atMillis_fits (millis : ℕ) : min millis 100000 * 1000000 / nanosPerSec < 2 ^ 63 := by
  rw [nanosPerSec]
  omega

def atMillis (millis : ℕ) : Instant := ⟨min millis 100000 * 1000000, atMillis_fits millis⟩

/-- The Enter key that has opened the dialogue, a click, the remote's button, and the Enter key again. -/
def deskSchedule : List Arrival :=
  [⟨atMillis 300, 0, .event (.key 28 1)⟩, ⟨atMillis 700, 1, .event (.key 0x110 1)⟩,
    ⟨atMillis 1000, 2, .event (.key 115 1)⟩, ⟨atMillis 2000, 0, .event (.key 28 1)⟩]

theorem run_learns_first_press_desk :
    ∃ now, run Bench.evdev onTime desk (atMillis 0) (fromMillis 30000) deskSchedule =
      (listened desk).map .spawned ++ ((listened desk).map .aborted ++
        [.replied now (.ok (.learned ⟨"/dev/input/event5"⟩ "AB Shutter" "KEY_VOLUMEUP"))]) ∧
      FirstPress Bench.evdev desk (atMillis 0) (atMillis 30000) [] deskSchedule
        ⟨⟨"/dev/input/event5"⟩, "AB Shutter", "KEY_VOLUMEUP"⟩ := by
  obtain ⟨now, reply, hrun, hreplied⟩ := (@run_learns_first_press Bench.evdev onTime desk
    (atMillis 0) (atMillis 30000) deskSchedule (fromMillis 30000) (fun _ => rfl) (by decide +kernel)
    (by decide +kernel)).1
  have hreply : reply = .ok (.learned ⟨"/dev/input/event5"⟩ "AB Shutter" "KEY_VOLUMEUP") := by
    have hlast : (run Bench.evdev onTime desk (atMillis 0) (fromMillis 30000) deskSchedule).getLast? =
        some (.replied (atMillis 1000) (.ok (.learned ⟨"/dev/input/event5"⟩ "AB Shutter"
          "KEY_VOLUMEUP"))) := by decide +kernel
    rw [hrun, ← List.append_assoc, List.getLast?_concat] at hlast
    cases hlast
    rfl
  rw [hreply] at hrun
  exact ⟨now, hrun, (hreplied.learned _ _ _).mp hreply⟩

end AlertU.Learn
