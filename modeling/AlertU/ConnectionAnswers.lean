import AlertU.ConnectionStep

/-! Which response a connection gives to which request. A connection awaits at most one answer, and the
command that it awaits is the only one of its kind in the control channel; so the answer of the machine
is the answer to that request, and an `Ok` to a `SetConfig` says that this one has been accepted. -/

open FilePath Channel

namespace AlertU

variable {γ : Type}

/-- The responses that answer a request, when `accepted` are the `SetConfig`s that have been. -/
def Fits (accepted : Config → γ → Prop) (e : Request × γ) : Response → Prop
  | .state _ => e.1 = .getState ∨ e.1 = .subscribe
  | .stateChanged _ => False
  | .config _ => e.1 = .getConfig
  | .devices _ => e.1 = .listDevices
  | .learned _ _ _ | .learnTimedOut => e.1.isLearnRemote
  | .ok => e.1.expectsAnswer → ∃ cfg, e.1 = .setConfig cfg ∧ accepted cfg e.2
  | .error _ => e.1.control.isSome

namespace ConnPhase

/-- The request that is being dispatched goes to the machine, and the answer that waits is one to it. -/
def Fits (accepted : Config → γ → Prop) : ConnPhase γ → Prop
  | .sending e | .asking e => e.1.control.isSome
  | .listening e _ => e.1.isLearnRemote
  | .answered e response => AlertU.Fits accepted e response
  | _ => True

/-- The request whose answer the machine owes. -/
def asked : ConnPhase γ → List (Request × γ)
  | .asking e => [e]
  | _ => []

end ConnPhase

variable {accepted accepted' : Config → γ → Prop} {e : Request × γ} {response : Response}

theorem Fits.mono (hmono : ∀ cfg tag, accepted cfg tag → accepted' cfg tag)
    (h : Fits accepted e response) : Fits accepted' e response := by
  cases response with
  | ok =>
      intro hexpects
      obtain ⟨cfg, hrequest, haccepted⟩ := h hexpects
      exact ⟨cfg, hrequest, hmono _ _ haccepted⟩
  | _ => exact h

theorem ConnPhase.Fits.mono {phase : ConnPhase γ} (hmono : ∀ cfg tag, accepted cfg tag → accepted' cfg tag)
    (h : phase.Fits accepted) : phase.Fits accepted' := by
  cases phase with
  | answered e response => exact AlertU.Fits.mono hmono h
  | _ => exact h

/-- A request that carries a channel for an answer is one for the machine. -/
theorem isSome_control {req : Request} (h : req.expectsAnswer) : req.control.isSome := by
  cases req <;> first | rfl | cases h

theorem fits_learn_answer (hrequest : e.1.isLearnRemote) (entries : List DeviceEntry)
    (outcome : Outcome) : Fits accepted e (Learn.answer entries outcome) := by
  unfold Learn.answer
  split_ifs
  · refine isSome_control ?_
    cases hreq : e.1 <;> rw [hreq] at hrequest <;> first | rfl | cases hrequest
  · cases outcome <;> exact hrequest

/-- What the machine does for a request settles it with an answer to it. -/
theorem settles_fits {action : Action} {actions : List Action} {phase : ConnPhase γ}
    (hmem : action ∈ actions)
    (haccepted : ∀ cfg, e.1 = .setConfig cfg → .replySet .ok ∈ actions → accepted cfg e.2)
    (h : action.settles e = some phase) : phase.Fits accepted := by
  unfold Action.settles at h
  split at h
  · rename_i hrequest
    cases h
    exact hrequest
  · rename_i cfg hrequest
    cases h
    exact fun _ => ⟨cfg, hrequest, haccepted cfg hrequest hmem⟩
  · rename_i hrequest
    cases h
    exact isSome_control (by rw [hrequest]; rfl)
  · rename_i hrequest
    cases h
    exact isSome_control (by rw [hrequest]; rfl)
  · rename_i hrequest
    cases h
    show e.1.isLearnRemote
    rw [hrequest]
    rfl
  · cases h

theorem settle_fits {actions : List Action} (hcontrol : e.1.control.isSome)
    (haccepted : ∀ cfg, e.1 = .setConfig cfg → .replySet .ok ∈ actions → accepted cfg e.2) :
    ((ConnPhase.asking e).settle actions).Fits accepted := by
  rw [ConnPhase.settle]
  cases hsettled : actions.findSome? (Action.settles e) with
  | none => exact hcontrol
  | some settled =>
      obtain ⟨action, hmem, haction⟩ := List.exists_of_findSome?_eq_some hsettled
      exact settles_fits hmem haccepted haction

namespace Conn

variable {p : Platform} {host : Host} {v v' : Service} {c c' : Conn γ} {progress : Progress}

/-- Every request that has been answered, or is about to be, gets an answer to itself. -/
structure Answering (accepted : Config → γ → Prop) (c : Conn γ) : Prop where
  output : ∀ e response, (some e, response) ∈ c.output → Fits accepted e response
  phase : c.phase.Fits accepted
  ctrl : c.ctrl ⊆ c.requests
  asked : c.ctrl.filter (·.1.expectsAnswer) <+: c.phase.asked

namespace Answering

theorem new : Answering accepted (.new : Conn γ) :=
  ⟨fun _ _ hmem => absurd hmem List.not_mem_nil, trivial, List.Subset.refl _, List.prefix_rfl⟩

theorem mono (h : c.Answering accepted)
    (hmono : ∀ cfg tag, accepted cfg tag → accepted' cfg tag) : c.Answering accepted' :=
  ⟨fun e response hmem => (h.output e response hmem).mono hmono, h.phase.mono hmono, h.ctrl, h.asked⟩

/-- Lines may arrive at any time. -/
theorem arrive (h : c.Answering accepted) (more : List (Line × γ)) :
    Answering accepted { c with lines := c.lines ++ more } := by
  refine ⟨h.output, h.phase, ?_, h.asked⟩
  intro e hmem
  have := h.ctrl hmem
  simp only [requests, List.filterMap_append, ← List.append_assoc]
  exact List.mem_append_left _ this

/-- A step that writes nothing. -/
theorem still (h : c.Answering accepted) (houtput : c'.output = c.output)
    (hrequests : c'.requests = c.requests) (hphase : c'.phase.Fits accepted)
    (hctrl : c'.ctrl ⊆ c.requests)
    (hasked : c'.ctrl.filter (·.1.expectsAnswer) <+: c'.phase.asked) : c'.Answering accepted := by
  refine ⟨?_, hphase, ?_, hasked⟩
  · rw [houtput]
    exact h.output
  · rw [hrequests]
    exact hctrl

/-- A step that writes a line. -/
theorem writing (h : c.Answering accepted) {origin : Option (Request × γ)} {response : Response}
    (hline : c.phase.line = []) (hwritten : c'.written = c.written)
    (hphase : c'.phase = .writing origin response) (hrequests : c'.requests = c.requests)
    (hfits : ∀ e, origin = some e → Fits accepted e response)
    (hctrl : c'.ctrl ⊆ c.requests) (hasked : c'.ctrl.filter (·.1.expectsAnswer) = []) :
    c'.Answering accepted := by
  refine ⟨?_, by rw [hphase]; trivial, by rw [hrequests]; exact hctrl, ?_⟩
  · intro e response' hmem
    rw [output_writing hline hwritten hphase, List.mem_append, List.mem_singleton] at hmem
    rcases hmem with hmem | hmem
    · exact h.output e response' hmem
    · cases hmem
      exact hfits e rfl
  · rw [hasked]
    exact List.nil_prefix

/-- Nothing is asked for outside of a dispatch. -/
theorem asked_nil (h : c.Answering accepted) (hphase : c.phase.asked = []) :
    c.ctrl.filter (·.1.expectsAnswer) = [] := by
  have := h.asked
  rwa [hphase, List.prefix_nil] at this

/-- A command that is handled and owes an answer is the one that the connection awaits. -/
theorem first_asked (h : c.Answering accepted) {e : Request × γ} {rest : List (Request × γ)}
    (hctrl : c.ctrl = e :: rest) (hexpects : e.1.expectsAnswer) :
    c.phase = .asking e ∧ rest.filter (·.1.expectsAnswer) = [] := by
  have hasked := h.asked
  rw [hctrl, List.filter_cons, if_pos hexpects] at hasked
  cases hphase : c.phase with
  | asking e' =>
      rw [hphase] at hasked
      obtain ⟨rfl, hnil⟩ := List.cons_prefix_cons.mp hasked
      exact ⟨rfl, List.prefix_nil.mp hnil⟩
  | _ =>
      rw [hphase] at hasked
      cases List.prefix_nil.mp hasked

/-- A step that writes nothing and sends nothing, while nothing is asked for. -/
theorem idle (h : c.Answering accepted) (hasked : c.phase.asked = []) (houtput : c'.output = c.output)
    (hrequests : c'.requests = c.requests) (hphase : c'.phase.Fits accepted)
    (hctrl : c'.ctrl = c.ctrl) : c'.Answering accepted := by
  refine h.still houtput hrequests hphase ?_ ?_
  · rw [hctrl]
    exact h.ctrl
  · rw [hctrl, h.asked_nil hasked]
    exact List.nil_prefix

/-- A step that writes a line and sends nothing, while nothing is asked for. -/
theorem write (h : c.Answering accepted) {origin : Option (Request × γ)} {response : Response}
    (hasked : c.phase.asked = []) (hline : c.phase.line = []) (hwritten : c'.written = c.written)
    (hphase : c'.phase = .writing origin response) (hrequests : c'.requests = c.requests)
    (hctrl : c'.ctrl = c.ctrl) (hfits : ∀ e, origin = some e → Fits accepted e response) :
    c'.Answering accepted := by
  refine h.writing hline hwritten hphase hrequests hfits ?_ ?_
  · rw [hctrl]
    exact h.ctrl
  · rw [hctrl]
    exact h.asked_nil hasked

theorem moved (h : c.Answering accepted) (hmoved : Moved v c progress c') :
    c'.Answering accepted := by
  have hrequests := hmoved.requests
  have hfits := h.phase
  cases hmoved with
  | started hphase =>
      exact h.idle (by rw [hphase]; rfl) (output_eq (by rw [hphase]; rfl) rfl rfl) hrequests trivial rfl
  | blank tag rest hphase hlines => exact h.still rfl hrequests h.phase h.ctrl h.asked
  | malformed error tag rest hphase hlines =>
      refine h.write (by rw [hphase]; rfl) (by rw [hphase]; rfl) rfl rfl hrequests rfl fun e he => ?_
      cases he
  | stated e subscribed rest hphase hlines hrequest =>
      refine h.write (by rw [hphase]; rfl) (by rw [hphase]; rfl) rfl rfl hrequests rfl fun e' he => ?_
      cases he
      exact hrequest.imp And.left And.left
  | listed e rest hphase hlines hrequest =>
      refine h.write (by rw [hphase]; rfl) (by rw [hphase]; rfl) rfl rfl hrequests rfl fun e' he => ?_
      cases he
      exact hrequest
  | dispatched e rest hphase hlines hcontrol =>
      exact h.idle (by rw [hphase]; rfl) (output_eq (by rw [hphase]; rfl) rfl rfl) hrequests hcontrol rfl
  | hungUp hphase => exact h.still rfl hrequests h.phase h.ctrl h.asked
  | asked e hphase hrunning hexpects =>
      rw [hphase] at hfits
      refine h.still (output_eq (by rw [hphase]; rfl) rfl rfl) hrequests hfits ?_ ?_
      · refine List.append_subset.mpr ⟨h.ctrl, ?_⟩
        simp [requests, hphase, ConnPhase.request]
      · rw [List.filter_append, h.asked_nil (by rw [hphase]; rfl)]
        simp [ConnPhase.asked, hexpects]
  | acked e hphase hrunning hexpects =>
      refine h.writing (by rw [hphase]; rfl) rfl rfl hrequests (fun e' he => ?_) ?_ ?_
      · cases he
        intro hexpects'
        rw [hexpects] at hexpects'
        cases hexpects'
      · refine List.append_subset.mpr ⟨h.ctrl, ?_⟩
        simp [requests, hphase, ConnPhase.request]
      · rw [List.filter_append, h.asked_nil (by rw [hphase]; rfl)]
        simp [hexpects]
  | unsent e hphase hrunning =>
      rw [hphase] at hfits
      refine h.write (by rw [hphase]; rfl) (by rw [hphase]; rfl) rfl rfl hrequests rfl fun e' he => ?_
      cases he
      exact hfits
  | ended e entries outcome hphase =>
      rw [hphase] at hfits
      exact h.idle (by rw [hphase]; rfl) (output_eq (by rw [hphase]; rfl) rfl rfl) hrequests
        (fits_learn_answer hfits entries outcome) rfl
  | resumed e response hphase =>
      rw [hphase] at hfits
      refine h.write (by rw [hphase]; rfl) (by rw [hphase]; rfl) rfl rfl hrequests rfl fun e' he => ?_
      cases he
      exact hfits
  | dropped e hphase hrunning =>
      rw [hphase] at hfits
      refine h.writing (by rw [hphase]; rfl) rfl rfl hrequests (fun e' he => ?_)
        (List.nil_subset _) rfl
      cases he
      exact hfits
  | stateMarked hphase hsubscribed hflagged =>
      exact h.idle (by rw [hphase]; rfl) (output_eq (by rw [hphase]; rfl) rfl rfl) hrequests trivial rfl
  | devicesMarked hphase hsubscribed hflagged =>
      exact h.idle (by rw [hphase]; rfl) (output_eq (by rw [hphase]; rfl) rfl rfl) hrequests trivial rfl
  | stateBorrowed hphase =>
      refine h.write (by rw [hphase]; rfl) (by rw [hphase]; rfl) rfl rfl hrequests rfl fun e he => ?_
      cases he
  | devicesBorrowed hphase =>
      refine h.write (by rw [hphase]; rfl) (by rw [hphase]; rfl) rfl rfl hrequests rfl fun e he => ?_
      cases he
  | written origin response hphase =>
      exact h.idle (by rw [hphase]; rfl) (output_written hphase rfl rfl) hrequests trivial rfl
  | failed origin response hphase => exact h.still rfl hrequests h.phase h.ctrl h.asked

/-- The machine handles a command of the connection. -/
theorem handled (h : c.Answering accepted) (hhandled : Handled p host v c v' c')
    (hmono : ∀ cfg tag, accepted cfg tag → accepted' cfg tag)
    (haccepted : ∀ e rest cfg, c.ctrl = e :: rest → e.1 = .setConfig cfg →
      .replySet .ok ∈ v.daemon.since v'.daemon → accepted' cfg e.2) : c'.Answering accepted' := by
  have hrequests := hhandled.requests
  have houtput := hhandled.output
  cases hhandled with
  | handled e rest ctrl next hctrl hcontrol hrunning hstep =>
      have hrest : rest ⊆ c.requests := by
        intro e' hmem
        exact h.ctrl (by rw [hctrl]; exact List.mem_cons_of_mem _ hmem)
      by_cases hexpects : e.1.expectsAnswer
      · obtain ⟨hphase, hnil⟩ := h.first_asked hctrl hexpects
        refine (h.mono hmono).still houtput hrequests ?_ hrest ?_
        · simp only [hexpects, if_true, hphase]
          refine settle_fits (by rw [hcontrol]; rfl) fun cfg hrequest hreply => ?_
          exact haccepted e rest cfg hctrl hrequest hreply
        · rw [hnil]
          exact List.nil_prefix
      · have hasked := h.asked
        rw [hctrl, List.filter_cons, if_neg hexpects] at hasked
        refine (h.mono hmono).still houtput hrequests ?_ hrest ?_
        · simp only [hexpects]
          exact h.phase.mono hmono
        · simp only [hexpects]
          exact hasked
  | died e rest hctrl => exact h.mono hmono

end Answering

end Conn

end AlertU
