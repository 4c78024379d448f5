import PicoMesh.Equiv.PublishRead
import PicoMesh.PicoBoard

/-!
# Endpoints on a board do not disturb one another

An endpoint keeps an instance that it is attached to.  What a board shows of an
endpoint that stays with one instance is a run of that endpoint alone
(`pico_board_isolation`), so what is proved of `peripheralEndpoint` holds of each
such endpoint of a board, whatever the program does with the others and whatever
happens on the other bus.

An endpoint may move: `begin` with the other instance is accepted.  The handler
of the first instance then works on the block of the second one, and the first
one's event stays pending (`moved_endpoint_leaves_event`).
-/

namespace PicoMesh

/-! ### One event in an idle block -/

/-- Nothing is pending in a block. -/
def I2cHw.Idle (hw : I2cHw) : Prop := hw = { transmitted := hw.transmitted }

/-- **An event in an idle block** is served as the only one, and leaves the block idle. -/
theorem handleIrq_raise (endpoint : I2cPeripheralEndpoint) {hw : I2cHw} (h : hw.Idle)
    (event : IrqEvent) :
    AttachedEndpoint.handleIrq { endpoint, hw := hw.raise event } =
      { endpoint := (AttachedEndpoint.handleIrq { endpoint, hw := event.hw }).endpoint
        hw :=
          { transmitted := hw.transmitted ++
              (AttachedEndpoint.handleIrq { endpoint, hw := event.hw }).hw.transmitted } } := by
  unfold I2cHw.Idle at h
  generalize hw.transmitted = transmitted at h
  subst h
  cases event with
  | rdReq => rfl
  | rxFull byte =>
    show _ = AttachedEndpoint.mk _ { transmitted := transmitted ++ [] }
    rw [List.append_nil]
    rfl
  | stopDet | txAbrt | rxOver =>
    show _ = AttachedEndpoint.mk _ { transmitted := transmitted ++ [] }
    rw [List.append_nil]
    rfl

namespace PicoBoard

variable {ι : Type} [DecidableEq ι] {board : PicoBoard ι} {e : ι}

/-! ### Attachment -/

/-- **What `begin` can do**: it is refused, or attaches the endpoint to an instance that is free or
its own. -/
theorem begin_cases (board : PicoBoard ι) (e : ι) (instance? : Option I2cInst) (address : UInt8) :
    board.begin e instance? address = (board, false) ∨
    ∃ inst, instance? = some inst ∧ address ≤ 0x7F ∧
      (board.attached inst = none ∨ board.attached inst = some e) ∧
      board.begin e instance? address =
        ({ endpoints :=
            Function.update board.endpoints e { board.endpoints e with instance? := some inst }
           attached := Function.update board.attached inst (some e)
           ports := Function.update board.ports inst
            { board.ports inst with slaveAddress := some address, irqEnabled := true } },
          true) := by
  cases instance? with
  | none => exact Or.inl rfl
  | some inst =>
    unfold begin
    simp only
    split_ifs with haddress htaken
    · exact Or.inl rfl
    · exact Or.inl rfl
    · refine Or.inr ⟨inst, rfl, UInt8.not_lt.mp haddress, ?_, rfl⟩
      rwa [not_and_or, not_ne_iff, not_ne_iff] at htaken

/-- The table, the endpoints' instances and the enabled interrupts agree. -/
structure Registered (board : PicoBoard ι) : Prop where
  enabled : ∀ inst, (board.ports inst).irqEnabled = (board.attached inst).isSome
  attached : ∀ e inst, (board.endpoints e).instance? = some inst → board.attached inst = some e
  bound : ∀ inst e, board.attached inst = some e → (board.endpoints e).instance?.isSome = true

omit [DecidableEq ι] in
theorem registered_start : ({} : PicoBoard ι).Registered where
  enabled _ := rfl
  attached _ _ h := by simp at h
  bound _ _ h := by simp at h

/-- An event is raised at an instance. -/
def raised (board : PicoBoard ι) (inst : I2cInst) (event : IrqEvent) : PicoBoard ι :=
  { board with
    ports := Function.update board.ports inst
      { board.ports inst with hw := (board.ports inst).hw.raise event } }

/-- The board behind a call of an endpoint's `handle_irq` on the block of an instance. -/
def served (board : PicoBoard ι) (e : ι) (own : I2cInst) : PicoBoard ι :=
  let result := AttachedEndpoint.handleIrq
    { endpoint := (board.endpoints e).thread.endpoint, hw := (board.ports own).hw }
  { board with
    endpoints := Function.update board.endpoints e
      { board.endpoints e with
        thread := { (board.endpoints e).thread with endpoint := result.endpoint } }
    ports := Function.update board.ports own { board.ports own with hw := result.hw } }

/-- **What an interrupt can do**: nothing, or raise its event and call the attached endpoint, on the
block of the instance that the endpoint was attached to last. -/
theorem Registered.interrupt_cases (h : board.Registered) (inst : I2cInst) (event : IrqEvent) :
    board.attached inst = none ∧ board.interrupt inst event = (board, .ignored) ∨
    ∃ e own, board.attached inst = some e ∧ (board.endpoints e).instance? = some own ∧
      board.interrupt inst event =
        ((board.raised inst event).served e own,
          .called e (.irq event) (.handled event
            ((((board.raised inst event).served e own).ports own).hw.transmitted.drop
              ((board.raised inst event).ports own).hw.transmitted.length))) := by
  have henabled := h.enabled inst
  cases hattached : board.attached inst with
  | none =>
    left
    rw [hattached] at henabled
    refine ⟨rfl, ?_⟩
    unfold interrupt
    rw [henabled]
    rfl
  | some e =>
    right
    rw [hattached] at henabled
    obtain ⟨own, hown⟩ := Option.isSome_iff_exists.mp (h.bound inst e hattached)
    refine ⟨e, own, rfl, hown, ?_⟩
    unfold interrupt irqHandler
    rw [henabled]
    simp only [Option.isSome_some, if_true, hattached, hown, served, raised, Function.update_self]

/-! ### The invariant of an endpoint -/

/-- What a board shows of an endpoint. -/
def view (e : ι) : BoardReply ι → Option (EndpointOp × EndpointReply)
  | .called e' op reply => if e' = e then some (op, reply) else none
  | _ => none

/-- An endpoint that is attached is not moved to the other instance. -/
def Stays (e : ι) (board : PicoBoard ι) : BoardOp ι → Prop
  | .begin e' instance? address =>
    e' = e → (board.begin e' instance? address).2 = true → (board.endpoints e).instance? ≠ none →
      (board.endpoints e).instance? = instance?
  | _ => True

instance (e : ι) (board : PicoBoard ι) : DecidablePred (board.Stays e)
  | .begin _ _ _ => inferInstanceAs (Decidable (_ → _ → _ → _))
  | .beginPublish _ _ | .commitPublish _ | .poll _ | .irq _ _ => .isTrue trivial

/-- **The invariant**: the endpoint is attached to its own instance only, and is as it would be
alone; nothing is pending in a block that no other endpoint is attached to. -/
structure Isolates (board : PicoBoard ι) (e : ι) (thread : EndpointThread) : Prop where
  registered : board.Registered
  thread : (board.endpoints e).thread = thread
  own : ∀ inst, board.attached inst = some e → (board.endpoints e).instance? = some inst
  idle : ∀ inst, (∀ e', board.attached inst = some e' → e' = e) → (board.ports inst).hw.Idle

omit [DecidableEq ι] in
theorem isolates_start : ({} : PicoBoard ι).Isolates e {} where
  registered := registered_start
  thread := rfl
  own _ h := by simp at h
  idle _ _ := rfl

variable {thread : EndpointThread}

/-- Steps of the main thread at an endpoint leave the attachments alone. -/
theorem Registered.call (h : board.Registered) (e : ι) (op : EndpointOp) :
    (board.call e op).1.Registered := by
  have hinstance : ∀ e', ((board.call e op).1.endpoints e').instance? =
      (board.endpoints e').instance? := by
    intro e'
    simp only [PicoBoard.call, Function.update_apply]
    split_ifs with heq
    · rw [heq]
    · rfl
  exact
    { enabled := h.enabled
      attached := fun e' inst hinst => h.attached e' inst ((hinstance e').symm.trans hinst)
      bound := fun inst e' hattached => by
        rw [hinstance]
        exact h.bound inst e' hattached }

/-- A step at another endpoint leaves this one alone. -/
theorem Isolates.call_of_ne (h : board.Isolates e thread) {e' : ι} (hne : e' ≠ e)
    (op : EndpointOp) : (board.call e' op).1.Isolates e thread where
  registered := h.registered.call e' op
  thread := by
    simp only [PicoBoard.call, Function.update_of_ne hne.symm]
    exact h.thread
  own inst hattached := by
    simp only [PicoBoard.call, Function.update_of_ne hne.symm]
    exact h.own inst hattached
  idle := h.idle

/-- **A step of the main thread** is the endpoint's own. -/
theorem Isolates.call (h : board.Isolates e thread) (op : EndpointOp) :
    (board.call e op).2 = .called e op (thread.step op).2 ∧
      (board.call e op).1.Isolates e (thread.step op).1 := by
  rw [← h.thread]
  refine ⟨rfl, h.registered.call e op, ?_, fun inst hattached => ?_, h.idle⟩
  · simp only [PicoBoard.call, Function.update_self]
  · simp only [PicoBoard.call, Function.update_self]
    exact h.own inst hattached

/-! ### Attaching -/

/-- A `begin` keeps the instances apart. -/
theorem Registered.begin (h : board.Registered) (e : ι) (instance? : Option I2cInst)
    (address : UInt8) : (board.begin e instance? address).1.Registered := by
  rcases board.begin_cases e instance? address with hrefused | ⟨inst, rfl, -, hfree, hbegin⟩
  · rw [hrefused]
    exact h
  rw [hbegin]
  refine ⟨fun inst' => ?_, fun e' inst' => ?_, fun inst' e' => ?_⟩
  · rcases eq_or_ne inst' inst with rfl | hinst
    · simp only [Function.update_self, Option.isSome_some]
    · simp only [Function.update_of_ne hinst]
      exact h.enabled inst'
  · rcases eq_or_ne e' e with rfl | hne
    · simp only [Function.update_self, Option.some.injEq]
      rintro rfl
      exact Function.update_self inst (some e') board.attached
    · simp only [Function.update_of_ne hne]
      intro hown
      have hattached := h.attached e' inst' hown
      rcases eq_or_ne inst' inst with rfl | hinst
      · -- an instance of another endpoint is not free
        rw [hattached] at hfree
        simp [hne] at hfree
      · rw [Function.update_of_ne hinst]
        exact hattached
  · rcases eq_or_ne e' e with rfl | hne
    · simp only [Function.update_self, Option.isSome_some, implies_true]
    · simp only [Function.update_of_ne hne]
      rcases eq_or_ne inst' inst with rfl | hinst
      · rw [Function.update_self, Option.some.injEq]
        exact fun heq => absurd heq.symm hne
      · rw [Function.update_of_ne hinst]
        exact h.bound inst' e'

/-- **An instance stays with its endpoint.** -/
theorem attached_begin (board : PicoBoard ι) (e : ι) (instance? : Option I2cInst) (address : UInt8)
    {inst : I2cInst} {e' : ι} (hattached : board.attached inst = some e') :
    (board.begin e instance? address).1.attached inst = some e' := by
  rcases board.begin_cases e instance? address with hrefused | ⟨inst', rfl, -, hfree, hbegin⟩
  · rw [hrefused]
    exact hattached
  · rw [hbegin]
    simp only [Function.update_apply]
    split_ifs with hinst
    · subst hinst
      rw [hattached] at hfree
      simpa [eq_comm] using hfree
    · exact hattached

/-- A `begin` that does not move the endpoint leaves it as it would be alone. -/
theorem Isolates.begin (h : board.Isolates e thread) {e' : ι} {instance? : Option I2cInst}
    {address : UInt8} (hstays : board.Stays e (.begin e' instance? address)) :
    (board.begin e' instance? address).1.Isolates e thread := by
  have hregistered := h.registered.begin e' instance? address
  simp only [Stays] at hstays
  rcases board.begin_cases e' instance? address with hrefused | ⟨inst, rfl, -, hfree, hbegin⟩
  · rw [hrefused]
    exact h
  rw [hbegin] at hregistered hstays ⊢
  refine ⟨hregistered, ?_, fun inst' => ?_, fun inst' hother => ?_⟩
  · rcases eq_or_ne e e' with rfl | hne
    · simp only [Function.update_self]
      exact h.thread
    · simp only [Function.update_of_ne hne]
      exact h.thread
  · rcases eq_or_ne inst' inst with rfl | hinst
    · simp only [Function.update_self, Option.some.injEq]
      rintro rfl
      rw [Function.update_self]
    · simp only [Function.update_of_ne hinst]
      intro hattached
      have hown := h.own inst' hattached
      rcases eq_or_ne e e' with rfl | hne
      · -- the endpoint is attached to this instance, and stays
        have hsame := hstays rfl rfl (by simp [hown])
        rw [hown, Option.some.injEq] at hsame
        exact absurd hsame hinst
      · rw [Function.update_of_ne hne]
        exact hown
  · rcases eq_or_ne inst' inst with rfl | hinst
    · simp only [Function.update_self, Option.some.injEq] at hother ⊢
      obtain rfl := hother e' rfl
      refine h.idle inst' fun e'' hattached => ?_
      rcases hfree with hnone | hsome
      · exact nomatch hnone.symm.trans hattached
      · exact (Option.some.inj (hsome.symm.trans hattached)).symm
    · simp only [Function.update_of_ne hinst] at hother ⊢
      exact h.idle inst' hother

/-! ### Interrupts -/

@[simp] theorem attached_served (board : PicoBoard ι) (e : ι) (own : I2cInst) :
    (board.served e own).attached = board.attached := rfl

omit [DecidableEq ι] in
@[simp] theorem attached_raised (board : PicoBoard ι) (inst : I2cInst) (event : IrqEvent) :
    (board.raised inst event).attached = board.attached := rfl

omit [DecidableEq ι] in
theorem Registered.raised (h : board.Registered) (inst : I2cInst) (event : IrqEvent) :
    (board.raised inst event).Registered where
  enabled inst' := by
    simp only [PicoBoard.raised, Function.update_apply, ← h.enabled inst']
    split_ifs with hinst
    · rw [hinst]
    · rfl
  attached := h.attached
  bound := h.bound

theorem Registered.served (h : board.Registered) (e : ι) (own : I2cInst) :
    (board.served e own).Registered := by
  have hinstance : ∀ e', ((board.served e own).endpoints e').instance? =
      (board.endpoints e').instance? := by
    intro e'
    simp only [PicoBoard.served, Function.update_apply]
    split_ifs with heq
    · rw [heq]
    · rfl
  refine ⟨fun inst => ?_, fun e' inst hinst => h.attached e' inst ((hinstance e').symm.trans hinst),
    fun inst e' hattached => ?_⟩
  · simp only [PicoBoard.served, Function.update_apply, ← h.enabled inst]
    split_ifs with hinst
    · rw [hinst]
    · rfl
  · rw [hinstance]
    exact h.bound inst e' hattached

/-- The interrupt of another endpoint leaves this one alone: it touches only blocks that other
endpoint is attached to. -/
theorem Isolates.served_of_ne (h : board.Isolates e thread) {e' : ι} (hne : e' ≠ e)
    {inst own : I2cInst} (hattached : board.attached inst = some e')
    (hown : (board.endpoints e').instance? = some own) (event : IrqEvent) :
    ((board.raised inst event).served e' own).Isolates e thread where
  registered := (h.registered.raised inst event).served e' own
  thread := by
    simp only [PicoBoard.served, PicoBoard.raised, Function.update_of_ne hne.symm]
    exact h.thread
  own inst' hinst := by
    simp only [PicoBoard.served, PicoBoard.raised, Function.update_of_ne hne.symm]
    exact h.own inst' hinst
  idle inst' hother := by
    have hinst : inst' ≠ inst := by
      rintro rfl
      exact hne (hother e' hattached)
    have hinst' : inst' ≠ own := by
      rintro rfl
      exact hne (hother e' (h.registered.attached e' _ hown))
    simp only [PicoBoard.served, PicoBoard.raised, Function.update_of_ne hinst,
      Function.update_of_ne hinst']
    exact h.idle inst' hother

/-- **The endpoint's interrupt** is served in its own block, as if it were alone. -/
theorem Isolates.served (h : board.Isolates e thread) {inst : I2cInst}
    (hattached : board.attached inst = some e) (event : IrqEvent) :
    (thread.step (.irq event)).2 = .handled event
        ((((board.raised inst event).served e inst).ports inst).hw.transmitted.drop
          ((board.raised inst event).ports inst).hw.transmitted.length) ∧
      ((board.raised inst event).served e inst).Isolates e (thread.step (.irq event)).1 := by
  have hidle := h.idle inst fun e' hother => (Option.some.inj (hattached.symm.trans hother)).symm
  have hserved := handleIrq_raise thread.endpoint hidle event
  have hregistered := (h.registered.raised inst event).served e inst
  have htransmitted : ((board.ports inst).hw.raise event).transmitted =
      (board.ports inst).hw.transmitted := by cases event <;> rfl
  refine ⟨?_, hregistered, ?_, fun inst' hinst => ?_, fun inst' hother => ?_⟩
  · simp only [PicoBoard.served, PicoBoard.raised, Function.update_self, h.thread, hserved,
      htransmitted, List.drop_left]
    rfl
  · simp only [PicoBoard.served, PicoBoard.raised, Function.update_self, h.thread, hserved]
    rfl
  · simp only [PicoBoard.served, PicoBoard.raised, Function.update_self]
    exact h.own inst' hinst
  · rcases eq_or_ne inst' inst with rfl | hinst
    · simp only [PicoBoard.served, PicoBoard.raised, Function.update_self, h.thread, hserved]
      rfl
    · simp only [PicoBoard.served, PicoBoard.raised, Function.update_of_ne hinst]
      exact h.idle inst' hother

/-! ### Runs -/

/-- The endpoint follows a step of the main thread, -/
theorem Isolates.follows_call (h : board.Isolates e thread) (e' : ι) (op : EndpointOp) :
    peripheralEndpoint.Follows (view e) (fun board thread => board.Isolates e thread) thread
      (board.call e' op) := by
  unfold Mealy.Follows
  rcases eq_or_ne e' e with rfl | hne
  · obtain ⟨hreply, hnext⟩ := h.call op
    simp only [hreply, view, if_true]
    exact ⟨rfl, hnext⟩
  · have hview : view e (board.call e' op).2 = none := if_neg hne
    rw [hview]
    exact h.call_of_ne hne op

/-- and an interrupt. -/
theorem Isolates.follows_interrupt (h : board.Isolates e thread) (inst : I2cInst)
    (event : IrqEvent) :
    peripheralEndpoint.Follows (view e) (fun board thread => board.Isolates e thread) thread
      (board.interrupt inst event) := by
  unfold Mealy.Follows
  rcases h.registered.interrupt_cases inst event with
    ⟨-, hfree⟩ | ⟨e', own, hattached, hown, hcalled⟩
  · rw [hfree]
    exact h
  rw [hcalled]
  rcases eq_or_ne e' e with rfl | hne
  · obtain rfl : inst = own := Option.some.inj ((h.own inst hattached).symm.trans hown)
    obtain ⟨hreply, hnext⟩ := h.served hattached event
    simp only [view, if_true]
    exact ⟨hreply, hnext⟩
  · simp only [view, if_neg hne]
    exact h.served_of_ne hne hattached hown event

/-- **A board projects onto each endpoint that stays.** -/
theorem projection (e : ι) :
    Mealy.Projection (picoBoard ι) peripheralEndpoint (view e) (Stays e)
      fun board thread => board.Isolates e thread where
  follows board thread op h hstays := by
    cases op with
    | begin e' instance? address => exact h.begin hstays
    | beginPublish e' frame => exact h.follows_call e' (.beginPublish frame)
    | commitPublish e' => exact h.follows_call e' .commitPublish
    | poll e' => exact h.follows_call e' .poll
    | irq inst event => exact h.follows_interrupt inst event

theorem Registered.step (h : board.Registered) (op : BoardOp ι) : (board.step op).1.Registered := by
  cases op with
  | begin e instance? address => exact h.begin e instance? address
  | beginPublish e frame => exact h.call e (.beginPublish frame)
  | commitPublish e => exact h.call e .commitPublish
  | poll e => exact h.call e .poll
  | irq inst event =>
    show (board.interrupt inst event).1.Registered
    rcases h.interrupt_cases inst event with ⟨-, hfree⟩ | ⟨e, own, -, -, hcalled⟩
    · rw [hfree]
      exact h
    · rw [hcalled]
      exact (h.raised inst event).served e own

/-- An instance stays with its endpoint. -/
theorem Registered.attached_step (h : board.Registered) (op : BoardOp ι) {inst : I2cInst}
    (hattached : board.attached inst = some e) : (board.step op).1.attached inst = some e := by
  cases op with
  | begin e' instance? address => exact board.attached_begin e' instance? address hattached
  | beginPublish | commitPublish | poll => exact hattached
  | irq inst' event =>
    show (board.interrupt inst' event).1.attached inst = some e
    rcases h.interrupt_cases inst' event with ⟨-, hfree⟩ | ⟨e', own, -, -, hcalled⟩
    · rw [hfree]
      exact hattached
    · rw [hcalled]
      exact hattached

end PicoBoard

section

variable {ι : Type} [DecidableEq ι]

/-- A board after a run of steps. -/
def picoBoardAfter (ops : List (BoardOp ι)) : PicoBoard ι :=
  (picoBoard ι).run (picoBoard ι).start ops

/-- The steps of an endpoint in a run of its board, with what they show. -/
def endpointLog (e : ι) (ops : List (BoardOp ι)) : List (EndpointOp × EndpointReply) :=
  (picoBoard ι).log (PicoBoard.view e) (picoBoard ι).start ops

theorem registered_picoBoardAfter (ops : List (BoardOp ι)) : (picoBoardAfter ops).Registered :=
  (picoBoard ι).run_invariant (fun _ op h => h.step op) PicoBoard.registered_start ops

/-- **An endpoint that has moved** leaves the events of the instance that it was attached to first
pending. -/
theorem moved_endpoint_leaves_event (ops : List (BoardOp ι)) {e : ι} {inst own : I2cInst}
    (hattached : (picoBoardAfter ops).attached inst = some e)
    (hown : ((picoBoardAfter ops).endpoints e).instance? = some own) (hmoved : inst ≠ own)
    (event : IrqEvent) :
    (((picoBoardAfter ops).step (.irq inst event)).1.ports inst).hw =
      ((picoBoardAfter ops).ports inst).hw.raise event := by
  have h := registered_picoBoardAfter ops
  generalize picoBoardAfter ops = board at hattached hown h ⊢
  show ((board.interrupt inst event).1.ports inst).hw = _
  rcases h.interrupt_cases inst event with ⟨hfree, -⟩ | ⟨e', own', hattached', hown', hcalled⟩
  · exact nomatch hfree.symm.trans hattached
  · obtain rfl := Option.some.inj (hattached.symm.trans hattached')
    obtain rfl := Option.some.inj (hown.symm.trans hown')
    rw [hcalled]
    simp only [PicoBoard.served, PicoBoard.raised, Function.update_of_ne hmoved,
      Function.update_self]

/-- **Endpoints on a board do not disturb one another.**  Whatever a program does with its other
endpoints and whatever happens on either bus: as long as an endpoint is not moved to the other
instance, its steps and their answers are those of the endpoint alone; an instance that it is
attached to stays with it, and every event there is its own and is served at once. -/
theorem pico_board_isolation (e : ι) (ops : List (BoardOp ι))
    (hops : (picoBoard ι).Along (PicoBoard.Stays e) (picoBoard ι).start ops) :
    (endpointLog e ops).map Prod.snd = endpointReplies ((endpointLog e ops).map Prod.fst) ∧
    ((picoBoardAfter ops).endpoints e).thread = endpointAfter ((endpointLog e ops).map Prod.fst) ∧
    ∀ inst, (picoBoardAfter ops).attached inst = some e →
      (∀ op, ((picoBoardAfter ops).step op).1.attached inst = some e) ∧
      ∀ event, ∃ transmitted,
        ((picoBoardAfter ops).step (.irq inst event)).2 =
          .called e (.irq event) (.handled event transmitted) ∧
        (((picoBoardAfter ops).step (.irq inst event)).1.ports inst).hw.Idle := by
  have hproject := PicoBoard.projection (ι := ι) e
  have hstart : (picoBoard ι).start.Isolates e peripheralEndpoint.start := PicoBoard.isolates_start
  have h : (picoBoardAfter ops).Isolates e (endpointAfter ((endpointLog e ops).map Prod.fst)) :=
    hproject.run hstart hops
  refine ⟨(hproject.outputs hstart hops).symm, h.thread, fun inst hattached => ⟨fun op => ?_,
    fun event => ?_⟩⟩
  · exact h.registered.attached_step op hattached
  · have hidle := (h.served hattached event).2.idle inst fun e' hother =>
      (Option.some.inj (hattached.symm.trans hother)).symm
    show ∃ transmitted, ((picoBoardAfter ops).interrupt inst event).2 = _ ∧
      (((picoBoardAfter ops).interrupt inst event).1.ports inst).hw.Idle
    rcases h.registered.interrupt_cases inst event with
      ⟨hfree, -⟩ | ⟨e', own, hattached', hown, hcalled⟩
    · exact nomatch hfree.symm.trans hattached
    · obtain rfl := Option.some.inj (hattached.symm.trans hattached')
      obtain rfl := Option.some.inj ((h.own inst hattached).symm.trans hown)
      rw [hcalled]
      exact ⟨_, rfl, hidle⟩

/-- Two endpoints, and an event for each. -/
theorem pico_board_isolation_example :
    ((endpointLog true [.begin true (some .i2c0) 0x42, .begin false (some .i2c1) 0x43,
      .irq .i2c1 (.rxFull 7), .irq .i2c0 .stopDet]).map Prod.snd) =
      endpointReplies [.irq .stopDet] := by
  refine (pico_board_isolation true _ (by decide)).1.trans ?_
  rfl

end

end PicoMesh
