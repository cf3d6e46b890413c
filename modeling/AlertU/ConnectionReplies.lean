import AlertU.ConnectionStep
import Mathlib.Data.List.Forall2

/-! The response lines of a connection against the lines that have arrived on it. As long as nobody
subscribes on the connection, the non-blank lines that it has taken are answered by one line each, in
their order, but for one that may be in hand. -/

open FilePath Channel

namespace AlertU

variable {γ : Type}

/-- The response line answers the line: the request that it carries, or that it carries none. -/
def Answers (line : Line × γ) (reply : Option (Request × γ) × Response) : Prop :=
  match line.1 with
  | .blank => False
  | .malformed error => reply = (none, .error s!"bad request: {error}")
  | .request req => reply.1 = some (req, line.2)

/-- The lines that are to be answered. -/
def nonblank (lines : List (Line × γ)) : List (Line × γ) := lines.filter fun line => line.1 ≠ .blank

theorem nonblank_append (lines more : List (Line × γ)) :
    nonblank (lines ++ more) = nonblank lines ++ nonblank more := List.filter_append _ _

/-- The line that is being dispatched, and has no response line yet. -/
def ConnPhase.owed : ConnPhase γ → List (Line × γ)
  | .sending e | .asking e | .listening e _ | .answered e _ => [(.request e.1, e.2)]
  | _ => []

/-- A line other than a `Subscribe`. -/
def Unsubscribing (lines : List (Line × γ)) : Prop := ∀ line ∈ lines, line.1 ≠ .request .subscribe

namespace Conn

variable {p : Platform} {host : Host} {v v' : Service} {c c' : Conn γ} {progress : Progress}
  {arrived : List (Line × γ)}

/-- Of the lines that have arrived, the connection has answered those it has taken, or holds the last of
them in its hand. -/
structure InStep (arrived : List (Line × γ)) (c : Conn γ) : Prop where
  replies : ∃ taken answered, arrived = taken ++ c.lines ∧
    nonblank taken = answered ++ c.phase.owed ∧ List.Forall₂ Answers answered c.output
  unsubscribed : c.subscribed = false
  unmarked : c.phase ≠ .stateMarked ∧ c.phase ≠ .devicesMarked

theorem InStep.new : InStep [] (.new : Conn γ) :=
  ⟨⟨[], [], rfl, rfl, .nil⟩, rfl, nofun, nofun⟩

/-- A reply is one to the line at its place among those that are to be answered. -/
theorem InStep.answers (h : InStep arrived c) {n : ℕ} {reply : Option (Request × γ) × Response}
    (hreply : c.output[n]? = some reply) : ∃ line, (nonblank arrived)[n]? = some line ∧ Answers line reply := by
  obtain ⟨taken, answered, rfl, htaken, hreplies⟩ := h.replies
  obtain ⟨hn, rfl⟩ := List.getElem?_eq_some_iff.mp hreply
  have hlt : n < answered.length := by
    rw [hreplies.length_eq]
    exact hn
  refine ⟨answered[n], ?_, hreplies.get hlt hn⟩
  rw [nonblank_append, htaken, List.append_assoc, List.getElem?_append_left hlt]
  exact List.getElem?_eq_getElem hlt

theorem InStep.length_le (h : InStep arrived c) : c.output.length ≤ arrived.length := by
  obtain ⟨taken, answered, rfl, htaken, hreplies⟩ := h.replies
  have hfilter : (nonblank taken).length ≤ taken.length := List.length_filter_le _ _
  rw [htaken, List.length_append, hreplies.length_eq] at hfilter
  rw [List.length_append]
  omega

theorem InStep.arrive (h : InStep arrived c) (more : List (Line × γ)) :
    InStep (arrived ++ more) { c with lines := c.lines ++ more } := by
  obtain ⟨taken, answered, rfl, htaken, hreplies⟩ := h.replies
  exact ⟨⟨taken, answered, List.append_assoc _ _ _, htaken, hreplies⟩, h.unsubscribed, h.unmarked⟩

theorem InStep.kill (h : InStep arrived c) : InStep arrived c.kill :=
  ⟨h.replies, h.unsubscribed, h.unmarked⟩

/-- A step that takes no line and writes none. -/
theorem InStep.still (h : InStep arrived c) (hlines : c'.lines = c.lines)
    (howed : c'.phase.owed = c.phase.owed) (houtput : c'.output = c.output)
    (hsubscribed : c'.subscribed = c.subscribed)
    (hunmarked : c'.phase ≠ .stateMarked ∧ c'.phase ≠ .devicesMarked) : InStep arrived c' := by
  obtain ⟨taken, answered, harrived, htaken, hreplies⟩ := h.replies
  refine ⟨⟨taken, answered, ?_, ?_, ?_⟩, ?_, hunmarked⟩
  · rw [hlines]
    exact harrived
  · rw [howed]
    exact htaken
  · rw [houtput]
    exact hreplies
  · rw [hsubscribed]
    exact h.unsubscribed

/-- A step that takes a line, which is answered at once or held in the hand. -/
theorem InStep.take (h : InStep arrived c) {line : Line × γ} {rest : List (Line × γ)}
    {replied : List (Option (Request × γ) × Response)} (hlines : c.lines = line :: rest)
    (hidle : c.phase.owed = []) (hlines' : c'.lines = rest) (houtput : c'.output = c.output ++ replied)
    (hanswer : ∃ answered, nonblank [line] = answered ++ c'.phase.owed ∧
      List.Forall₂ Answers answered replied)
    (hsubscribed : c'.subscribed = false)
    (hunmarked : c'.phase ≠ .stateMarked ∧ c'.phase ≠ .devicesMarked) : InStep arrived c' := by
  obtain ⟨taken, answered, harrived, htaken, hreplies⟩ := h.replies
  obtain ⟨last, hlast, hreplied⟩ := hanswer
  refine ⟨⟨taken ++ [line], answered ++ last, ?_, ?_, ?_⟩, hsubscribed, hunmarked⟩
  · rw [harrived, hlines, hlines', List.append_assoc]
    rfl
  · rw [nonblank_append, htaken, hidle, List.append_nil, hlast, List.append_assoc]
  · rw [houtput]
    exact List.rel_append hreplies hreplied

/-- A step that writes the answer to the line in hand. -/
theorem InStep.settle (h : InStep arrived c) {e : Request × γ} {response : Response}
    (hline : c.phase.line = []) (howed : c.phase.owed = [(.request e.1, e.2)])
    (hlines : c'.lines = c.lines) (hwritten : c'.written = c.written)
    (hphase : c'.phase = .writing (some e) response) (hsubscribed : c'.subscribed = c.subscribed) :
    InStep arrived c' := by
  obtain ⟨taken, answered, harrived, htaken, hreplies⟩ := h.replies
  refine ⟨⟨taken, answered ++ [(.request e.1, e.2)], ?_, ?_, ?_⟩, ?_, ?_⟩
  · rw [hlines]
    exact harrived
  · rw [htaken, howed, hphase]
    exact (List.append_nil _).symm
  · rw [output_writing hline hwritten hphase]
    exact List.rel_append hreplies (.cons rfl .nil)
  · rw [hsubscribed]
    exact h.unsubscribed
  · rw [hphase]
    exact ⟨nofun, nofun⟩

theorem InStep.moved (h : InStep arrived c) (hlines : Unsubscribing arrived)
    (hmoved : Moved v c progress c') : InStep arrived c' := by
  have hnext : ∀ line rest, c.lines = line :: rest → line.1 ≠ .request .subscribe := by
    intro line rest hrest
    obtain ⟨taken, _, harrived, -⟩ := h.replies
    exact hlines line (by rw [harrived, hrest]; simp)
  cases hmoved with
  | started hphase =>
      exact h.still rfl (by rw [hphase]; rfl) (output_eq (by rw [hphase]; rfl) rfl rfl) rfl ⟨nofun, nofun⟩
  | blank tag rest hphase hrest =>
      refine h.take hrest (by rw [hphase]; rfl) rfl (List.append_nil _).symm ⟨[], ?_, .nil⟩
        h.unsubscribed h.unmarked
      rw [hphase]
      rfl
  | malformed error tag rest hphase hrest =>
      exact h.take hrest (by rw [hphase]; rfl) rfl (output_writing (by rw [hphase]; rfl) rfl rfl)
        ⟨[(.malformed error, tag)], rfl, .cons rfl .nil⟩ h.unsubscribed ⟨nofun, nofun⟩
  | stated e subscribed rest hphase hrest hrequest =>
      have hsubscribed : subscribed = false := by
        rcases hrequest with ⟨-, rfl⟩ | ⟨hsubscribe, -⟩
        · exact h.unsubscribed
        · exact absurd (congrArg Line.request hsubscribe) (hnext _ rest hrest)
      exact h.take hrest (by rw [hphase]; rfl) rfl (output_writing (by rw [hphase]; rfl) rfl rfl)
        ⟨[(.request e.1, e.2)], rfl, .cons rfl .nil⟩ hsubscribed ⟨nofun, nofun⟩
  | listed e rest hphase hrest hrequest =>
      exact h.take hrest (by rw [hphase]; rfl) rfl (output_writing (by rw [hphase]; rfl) rfl rfl)
        ⟨[(.request e.1, e.2)], rfl, .cons rfl .nil⟩ h.unsubscribed ⟨nofun, nofun⟩
  | dispatched e rest hphase hrest hcontrol =>
      refine h.take hrest (by rw [hphase]; rfl) rfl ?_ ⟨[], rfl, .nil⟩ h.unsubscribed ⟨nofun, nofun⟩
      rw [List.append_nil]
      exact output_eq (by rw [hphase]; rfl) rfl rfl
  | hungUp hphase => exact h.still rfl rfl rfl rfl h.unmarked
  | asked e hphase hrunning hexpects =>
      exact h.still rfl (by rw [hphase]; rfl) (output_eq (by rw [hphase]; rfl) rfl rfl) rfl ⟨nofun, nofun⟩
  | acked e hphase hrunning hexpects =>
      exact h.settle (by rw [hphase]; rfl) (by rw [hphase]; rfl) rfl rfl rfl rfl
  | unsent e hphase hrunning =>
      exact h.settle (by rw [hphase]; rfl) (by rw [hphase]; rfl) rfl rfl rfl rfl
  | ended e entries outcome hphase =>
      exact h.still rfl (by rw [hphase]; rfl) (output_eq (by rw [hphase]; rfl) rfl rfl) rfl ⟨nofun, nofun⟩
  | resumed e response hphase =>
      exact h.settle (by rw [hphase]; rfl) (by rw [hphase]; rfl) rfl rfl rfl rfl
  | dropped e hphase hrunning =>
      exact h.settle (by rw [hphase]; rfl) (by rw [hphase]; rfl) rfl rfl rfl rfl
  | stateMarked hphase hsubscribed hflagged | devicesMarked hphase hsubscribed hflagged =>
      rw [h.unsubscribed] at hsubscribed
      cases hsubscribed
  | stateBorrowed hphase => exact absurd hphase h.unmarked.1
  | devicesBorrowed hphase => exact absurd hphase h.unmarked.2
  | written origin response hphase =>
      exact h.still rfl (by rw [hphase]; rfl) (output_written hphase rfl rfl) rfl ⟨nofun, nofun⟩
  | failed origin response hphase => exact h.still rfl rfl rfl rfl h.unmarked

theorem settle_owed (actions : List Action) (phase : ConnPhase γ) :
    (phase.settle actions).owed = phase.owed := by
  rcases settle_cases actions phase with h | ⟨e, rfl, ⟨response, h⟩ | ⟨entries, h⟩⟩ <;> rw [h] <;> rfl

theorem InStep.handled (h : InStep arrived c) (hhandled : Handled p host v c v' c') :
    InStep arrived c' := by
  have houtput := hhandled.output
  cases hhandled with
  | handled e rest ctrl next hctrl hcontrol hrunning hstep =>
      refine h.still rfl ?_ houtput rfl ?_
      · simp only
        split_ifs
        · exact settle_owed _ _
        · rfl
      · simp only
        split_ifs
        · rcases settle_cases (v.daemon.since next) c.phase with hsame | ⟨e, -, ⟨_, hsettled⟩ | ⟨_, hsettled⟩⟩
          · rw [hsame]
            exact h.unmarked
          · rw [hsettled]
            exact ⟨nofun, nofun⟩
          · rw [hsettled]
            exact ⟨nofun, nofun⟩
        · exact h.unmarked
  | died e rest hctrl => exact h

theorem output_prefix_of_eq (h : c'.output = c.output) : c.output <+: c'.output := by
  rw [h]

theorem output_prefix_of_writing {line : Option (Request × γ) × Response}
    (h : c'.output = c.output ++ [line]) : c.output <+: c'.output := by
  rw [h]
  exact List.prefix_append _ _

/-- What has been written stays written. -/
theorem Moved.output_grows (h : Moved v c progress c') : c.output <+: c'.output := by
  cases h with
  | started hphase | dispatched _ _ hphase _ _ | asked _ hphase _ _ | ended _ _ _ hphase
  | stateMarked hphase _ _ | devicesMarked hphase _ _ =>
      exact output_prefix_of_eq (output_eq (by rw [hphase]; rfl) rfl rfl)
  | blank _ _ _ _ | hungUp _ | failed _ _ _ => exact List.prefix_rfl
  | malformed _ _ _ hphase _ | stated _ _ _ hphase _ _ | listed _ _ hphase _ _ | acked _ hphase _ _
  | unsent _ hphase _ | resumed _ _ hphase | dropped _ hphase _ | stateBorrowed hphase
  | devicesBorrowed hphase =>
      exact output_prefix_of_writing (output_writing (by rw [hphase]; rfl) rfl rfl)
  | written _ _ hphase => exact output_prefix_of_eq (output_written hphase rfl rfl)

end Conn

end AlertU
