import PicoMesh.Equiv.WireLink
import PicoMesh.WireBoard

/-!
# The endpoint that was begun first

The sketch's endpoints keep buffers of their own, and each is what it would be
alone after its own calls and callbacks (`WireBoard.projection`).  Which endpoint
the callbacks call is decided by the calls of `begin` that a run makes: the first
one names the endpoint, and those of this endpoint name the buses (`wire_board`).

An endpoint that has been begun on a second bus is still called for what happens
on the first one, but reads the second.  A write on the first bus then discards
the message that the sketch has not polled (`moved_endpoint_forgets`).
-/

namespace PicoMesh

open WirePeripheralEndpoint

/-! ### What a run asks for -/

section

variable {ι β : Type} [DecidableEq ι]

/-- The endpoint and the bus of a `begin`. -/
def WireBoardOp.binding : WireBoardOp ι β → Option (ι × β)
  | .begin e _ wire => some (e, wire)
  | _ => none

/-- A frame that is published at an endpoint. -/
def WireBoardOp.frameAt (e : ι) : WireBoardOp ι β → Option Frame
  | .publish e' frame => if e' = e then some frame else none
  | _ => none

/-- The calls of `begin` in a run. -/
def bindings (ops : List (WireBoardOp ι β)) : List (ι × β) := ops.filterMap WireBoardOp.binding

/-- The endpoint that is begun first. -/
def firstBegun (begun : List (ι × β)) : Option ι := begun.head?.map Prod.fst

/-- The buses that an endpoint is begun on, in order. -/
def busesOf (e : ι) (begun : List (ι × β)) : List β :=
  (begun.filter fun binding => binding.1 = e).map Prod.snd

/-- The endpoint that an event of a bus is for, and the bus that it works on. -/
def calledFor [DecidableEq β] (wire : β) (begun : List (ι × β)) : Option (ι × β) :=
  (firstBegun begun).bind fun e =>
    if wire ∈ busesOf e begun then (busesOf e begun).getLast?.map fun own => (e, own) else none

/-- What reads of an endpoint are answered with: the frame that was published last. -/
def lastPublished (e : ι) (ops : List (WireBoardOp ι β)) : List UInt8 :=
  (ops.filterMap (WireBoardOp.frameAt e)).getLast?.elim [] fun frame => (encodeFrame frame).active

omit [DecidableEq ι] in
theorem firstBegun_concat (begun : List (ι × β)) (e : ι) (wire : β) :
    firstBegun (begun ++ [(e, wire)]) = some ((firstBegun begun).getD e) := by
  cases begun <;> rfl

theorem busesOf_concat (begun : List (ι × β)) (e e' : ι) (wire : β) :
    busesOf e' (begun ++ [(e, wire)]) = busesOf e' begun ++ if e = e' then [wire] else [] := by
  unfold busesOf
  rw [List.filter_append, List.map_append, List.filter_singleton]
  split_ifs <;> simp_all

end

namespace WireBoard

variable {ι β : Type} [DecidableEq ι] (board : WireBoard ι β)

/-! ### Each endpoint by itself -/

/-- What a board shows of an endpoint. -/
def view (e : ι) : WireBoardReply ι β → Option (WireOp × WireReply)
  | .called e' op reply => if e' = e then some (op, reply) else none
  | .calledBack e' _ op reply => if e' = e then some (op, reply) else none
  | _ => none

/-- What an endpoint of a board has in its buffers. -/
def Holds (e : ι) (board : WireBoard ι β) (endpoint : WirePeripheralEndpoint) : Prop :=
  (board.endpoints e).endpoint = endpoint

theorem endpoint_set (e e' : ι) (endpoint : WirePeripheralEndpoint) :
    ((board.set e' endpoint).endpoints e).endpoint =
      if e = e' then endpoint else (board.endpoints e).endpoint := by
  simp only [set, Function.update_apply]
  split_ifs <;> rfl

theorem wire_set (e e' : ι) (endpoint : WirePeripheralEndpoint) :
    ((board.set e' endpoint).endpoints e).wire? = (board.endpoints e).wire? := by
  simp only [set, Function.update_apply]
  split_ifs with h
  · rw [h]
  · rfl

/-- The receive callback is a step of the endpoint alone. -/
theorem step_receive (endpoint : WirePeripheralEndpoint) (count : ℕ) (available : List UInt8) :
    endpoint.step (.receive (available.take count)) =
      (endpoint.receiveFromIsr count available, .received) := by
  unfold WirePeripheralEndpoint.step receiveFromIsr
  simp only [List.take_length]

/-- An endpoint follows a step that changes the buffers of one endpoint as that one alone would. -/
theorem follows_set (e e' : ι) {op : WireOp} {next : WirePeripheralEndpoint} {reply : WireReply}
    {shown : WireBoardReply ι β} (hstep : (board.endpoints e').endpoint.step op = (next, reply))
    (hshown : view e shown = if e' = e then some (op, reply) else none) :
    wirePeripheralEndpoint.Follows (view e) (Holds e) (board.endpoints e).endpoint
      (board.set e' next, shown) := by
  unfold Mealy.Follows Holds
  rcases eq_or_ne e' e with rfl | hne
  · rw [hshown, if_pos rfl]
    simp only [endpoint_set, if_true]
    exact ⟨congrArg Prod.snd hstep, (congrArg Prod.fst hstep).symm⟩
  · rw [hshown, if_neg hne]
    simp only [endpoint_set, if_neg hne.symm]

/-- An endpoint follows a step that calls none. -/
theorem follows_ignored (e : ι) :
    wirePeripheralEndpoint.Follows (view e) (Holds e) (board.endpoints e).endpoint
      (board, (.ignored : WireBoardReply ι β)) :=
  rfl

theorem follows_receiveCallback (e : ι) (count : ℕ) (available : β → List UInt8) :
    wirePeripheralEndpoint.Follows (view e) (Holds e) (board.endpoints e).endpoint
      (board.receiveCallback count available) := by
  unfold receiveCallback
  match board.target with
  | none => exact board.follows_ignored e
  | some (active, own) =>
    exact board.follows_set e active (step_receive _ count (available own)) rfl

theorem follows_requestCallback (e : ι) :
    wirePeripheralEndpoint.Follows (view e) (Holds e) (board.endpoints e).endpoint
      (board, board.requestCallback) := by
  unfold requestCallback
  match board.target with
  | none => exact board.follows_ignored e
  | some (active, own) =>
    have hsame : board.set active (board.endpoints active).endpoint = board := by
      simp only [set, Function.update_eq_self]
    have hstep : (board.endpoints active).endpoint.step .request =
        ((board.endpoints active).endpoint,
          .requested (board.endpoints active).endpoint.requestFromIsr) := rfl
    have hfollows := board.follows_set e active hstep
      (rfl : view e (.calledBack active own _ _) = _)
    rwa [hsame] at hfollows

variable [DecidableEq β]

/-- **What `begin` can do**: another endpoint is active and it is refused, or it binds the endpoint
to the bus. -/
theorem begin_cases (e : ι) (address : UInt8) (wire : β) :
    (∃ first, board.active? = some first ∧ first ≠ e ∧
      board.begin e address wire = (board, false)) ∨
    (board.active? = none ∨ board.active? = some e) ∧
      board.begin e address wire =
        ({ endpoints :=
            Function.update board.endpoints e { board.endpoints e with wire? := some wire }
           active? := some e
           buses :=
            Function.update board.buses wire { address := some address, callbacks := true } },
          true) := by
  unfold begin
  cases hactive : board.active? with
  | none => exact Or.inr ⟨Or.inl rfl, rfl⟩
  | some first =>
    rcases eq_or_ne first e with rfl | hne
    · exact Or.inr ⟨Or.inr rfl, if_neg fun h => h.2 rfl⟩
    · exact Or.inl ⟨first, rfl, hne, if_pos ⟨Option.some_ne_none _, fun h =>
        hne (Option.some.inj h)⟩⟩

/-- A `begin` leaves the buffers alone. -/
theorem endpoint_begin (e e' : ι) (address : UInt8) (wire : β) :
    (((board.begin e' address wire).1).endpoints e).endpoint = (board.endpoints e).endpoint := by
  rcases board.begin_cases e' address wire with ⟨first, -, -, hrefused⟩ | ⟨-, hbegun⟩
  · rw [hrefused]
  · rw [hbegun]
    simp only [Function.update_apply]
    split_ifs with h
    · rw [h]
    · rfl

/-- **A board projects onto each of its endpoints.** -/
theorem projection (e : ι) :
    Mealy.Projection (wireBoard ι β) wirePeripheralEndpoint (view e) (fun _ _ => True)
      (Holds e) where
  follows board endpoint op h _ := by
    unfold Holds at h
    subst h
    show wirePeripheralEndpoint.Follows _ _ _ (board.step op)
    cases op with
    | begin e' address wire => exact board.endpoint_begin e e' address wire
    | publish e' frame => exact board.follows_set e e' rfl rfl
    | poll e' frame error => exact board.follows_set e e' rfl rfl
    | receive wire count available =>
      simp only [step]
      split_ifs
      · exact board.follows_receiveCallback e count available
      · exact board.follows_ignored e
    | request wire =>
      simp only [step]
      split_ifs
      · exact board.follows_requestCallback e
      · exact board.follows_ignored e

/-! ### Which endpoint is called -/

/-- **The invariant**: the first `begin` decides which endpoint is active, and its own calls decide
which bus it works on and which buses call it. -/
structure Tracks (board : WireBoard ι β) (begun : List (ι × β)) : Prop where
  active : board.active? = firstBegun begun
  wire : ∀ e, firstBegun begun = some e →
    (board.endpoints e).wire? = (busesOf e begun).getLast?
  callbacks : ∀ wire, (board.buses wire).callbacks = true ↔
    ∃ e, firstBegun begun = some e ∧ wire ∈ busesOf e begun

omit [DecidableEq β] in
theorem tracks_start : ({} : WireBoard ι β).Tracks [] where
  active := rfl
  wire _ h := by cases h
  callbacks wire := by
    constructor
    · intro h
      cases h
    · rintro ⟨e, h, -⟩
      cases h

variable {board} {begun : List (ι × β)}

omit [DecidableEq β] in
/-- A step at the buffers of an endpoint changes nothing of it. -/
theorem Tracks.set (h : board.Tracks begun) (e : ι) (endpoint : WirePeripheralEndpoint) :
    (board.set e endpoint).Tracks begun where
  active := h.active
  wire e' hfirst := (board.wire_set e' e endpoint).trans (h.wire e' hfirst)
  callbacks := h.callbacks

omit [DecidableEq β] in
theorem Tracks.receiveCallback (h : board.Tracks begun) (count : ℕ) (available : β → List UInt8) :
    (board.receiveCallback count available).1.Tracks begun := by
  unfold WireBoard.receiveCallback
  match board.target with
  | none => exact h
  | some (e, own) => exact h.set e _

/-- **A `begin`** is refused if another endpoint was first, and is the latest of its endpoint
otherwise. -/
theorem Tracks.begin (h : board.Tracks begun) (e : ι) (address : UInt8) (wire : β) :
    (board.begin e address wire).1.Tracks (begun ++ [(e, wire)]) := by
  rcases board.begin_cases e address wire with ⟨first, hactive, hne, hrefused⟩ | ⟨hfree, hbegun⟩
  · -- the first endpoint and its buses stay
    rw [hrefused]
    rw [h.active] at hactive
    have hbuses : busesOf first (begun ++ [(e, wire)]) = busesOf first begun := by
      rw [busesOf_concat, if_neg hne.symm, List.append_nil]
    have hfirst : firstBegun (begun ++ [(e, wire)]) = some first := by
      rw [firstBegun_concat, hactive, Option.getD_some]
    refine ⟨h.active.trans (hactive.trans hfirst.symm), fun e' he' => ?_, fun wire' => ?_⟩
    · obtain rfl := Option.some.inj (hfirst.symm.trans he')
      rw [hbuses]
      exact h.wire first hactive
    · rw [h.callbacks, hactive, hfirst]
      simp only [Option.some.injEq, exists_eq_left', hbuses]
  · rw [hbegun]
    rw [h.active] at hfree
    have hfirst : firstBegun (begun ++ [(e, wire)]) = some e := by
      rw [firstBegun_concat]
      rcases hfree with hnone | hsome
      · rw [hnone, Option.getD_none]
      · rw [hsome, Option.getD_some]
    have hbuses : busesOf e (begun ++ [(e, wire)]) = busesOf e begun ++ [wire] := by
      rw [busesOf_concat, if_pos rfl]
    refine ⟨hfirst.symm, fun e' he' => ?_, fun wire' => ?_⟩
    · obtain rfl := Option.some.inj (hfirst.symm.trans he')
      simp only [Function.update_self, hbuses, List.getLast?_concat]
    · rw [hfirst]
      simp only [Option.some.injEq, exists_eq_left', hbuses, List.mem_append,
        List.mem_singleton, Function.update_apply]
      split_ifs with hsame
      · simp only [hsame, or_true]
      · simp only [hsame, or_false, h.callbacks]
        rcases hfree with hnone | hsome
        · -- nothing has been begun
          obtain rfl : begun = [] := by
            cases begun with
            | nil => rfl
            | cons binding begun => cases hnone
          simp [firstBegun, busesOf]
        · simp only [hsome, Option.some.injEq, exists_eq_left']

/-- What an event of a bus calls. -/
theorem Tracks.target (h : board.Tracks begun) (wire : β) :
    (if (board.buses wire).callbacks then board.target else none) = calledFor wire begun := by
  have hcallbacks := h.callbacks wire
  unfold calledFor
  cases hfirst : firstBegun begun with
  | none =>
    simp only [hfirst, reduceCtorEq, false_and, exists_false, iff_false] at hcallbacks
    rw [if_neg hcallbacks]
    rfl
  | some e =>
    simp only [hfirst, Option.some.injEq, exists_eq_left'] at hcallbacks
    unfold WireBoard.target
    rw [h.active, hfirst, Option.bind_some, Option.bind_some, h.wire e hfirst]
    simp only [hcallbacks]

/-- What a step leaves of the invariant. -/
theorem Tracks.step (h : board.Tracks begun) (op : WireBoardOp ι β) :
    (board.step op).1.Tracks (begun ++ op.binding.toList) := by
  cases op with
  | begin e address wire => exact h.begin e address wire
  | publish e frame =>
    simp only [WireBoardOp.binding, Option.toList_none, List.append_nil]
    exact h.set e _
  | poll e frame error =>
    simp only [WireBoardOp.binding, Option.toList_none, List.append_nil]
    exact h.set e _
  | receive wire count available =>
    simp only [WireBoardOp.binding, Option.toList_none, List.append_nil, WireBoard.step]
    split_ifs
    · exact h.receiveCallback count available
    · exact h
  | request wire =>
    simp only [WireBoardOp.binding, Option.toList_none, List.append_nil, WireBoard.step]
    split_ifs <;> exact h

/-! ### What reads are answered with -/

omit [DecidableEq β] in
/-- Buffers that answer reads as before. -/
theorem requestFromIsr_set {e' : ι} {endpoint : WirePeripheralEndpoint}
    (h : endpoint.requestFromIsr = (board.endpoints e').endpoint.requestFromIsr) (e : ι) :
    ((board.set e' endpoint).endpoints e).endpoint.requestFromIsr =
      (board.endpoints e).endpoint.requestFromIsr := by
  rw [endpoint_set]
  split_ifs with heq
  · rw [heq, h]
  · rfl

omit [DecidableEq β] in
theorem requestFromIsr_receiveCallback (count : ℕ) (available : β → List UInt8) (e : ι) :
    ((board.receiveCallback count available).1.endpoints e).endpoint.requestFromIsr =
      (board.endpoints e).endpoint.requestFromIsr := by
  unfold WireBoard.receiveCallback
  match board.target with
  | none => rfl
  | some (active, own) => exact requestFromIsr_set (requestFromIsr_receive _ _) e

/-- **Only a publish** changes what reads are answered with, and only at its endpoint. -/
theorem requestFromIsr_step (op : WireBoardOp ι β) (e : ι) :
    ((board.step op).1.endpoints e).endpoint.requestFromIsr =
      (op.frameAt e).elim (board.endpoints e).endpoint.requestFromIsr
        fun frame => (encodeFrame frame).active := by
  cases op with
  | begin e' address wire => exact congrArg _ (board.endpoint_begin e e' address wire)
  | publish e' frame =>
    show ((board.set e' _).endpoints e).endpoint.requestFromIsr = _
    rw [endpoint_set]
    rcases eq_or_ne e' e with rfl | hne
    · rw [if_pos rfl, requestFromIsr_publish, WireBoardOp.frameAt, if_pos rfl, Option.elim_some]
    · rw [if_neg hne.symm, WireBoardOp.frameAt, if_neg hne, Option.elim_none]
  | poll e' frame error => exact requestFromIsr_set (requestFromIsr_poll frame error) e
  | receive wire count available =>
    simp only [WireBoardOp.frameAt, Option.elim_none, WireBoard.step]
    split_ifs
    · exact requestFromIsr_receiveCallback count available e
    · rfl
  | request wire =>
    simp only [WireBoardOp.frameAt, Option.elim_none, WireBoard.step]
    split_ifs <;> rfl

end WireBoard

/-! ### Runs -/

section

variable {ι β : Type} [DecidableEq ι] [DecidableEq β]

/-- A board after a run of steps. -/
def wireBoardAfter (ops : List (WireBoardOp ι β)) : WireBoard ι β :=
  (wireBoard ι β).run (wireBoard ι β).start ops

/-- The steps of an endpoint in a run of its board, with what they show. -/
def wireEndpointLog (e : ι) (ops : List (WireBoardOp ι β)) : List (WireOp × WireReply) :=
  (wireBoard ι β).log (WireBoard.view e) (wireBoard ι β).start ops

theorem wireBoardAfter_concat (ops : List (WireBoardOp ι β)) (op : WireBoardOp ι β) :
    wireBoardAfter (ops ++ [op]) = ((wireBoardAfter ops).step op).1 :=
  (wireBoard ι β).run_concat _ _ _

theorem tracks_wireBoardAfter (ops : List (WireBoardOp ι β)) :
    (wireBoardAfter ops).Tracks (bindings ops) := by
  induction ops using List.reverseRecOn with
  | nil => exact WireBoard.tracks_start
  | append_singleton ops op ih =>
    have hbindings : bindings (ops ++ [op]) = bindings ops ++ op.binding.toList := by
      unfold bindings
      rw [List.filterMap_append]
      cases op <;> rfl
    rw [wireBoardAfter_concat, hbindings]
    exact ih.step op

theorem requestFromIsr_wireBoardAfter (e : ι) (ops : List (WireBoardOp ι β)) :
    ((wireBoardAfter ops).endpoints e).endpoint.requestFromIsr = lastPublished e ops := by
  induction ops using List.reverseRecOn with
  | nil => rfl
  | append_singleton ops op ih =>
    rw [wireBoardAfter_concat, WireBoard.requestFromIsr_step, ih]
    unfold lastPublished
    rw [List.filterMap_append]
    cases hframe : op.frameAt e with
    | none =>
      rw [List.filterMap_cons_none hframe, List.filterMap_nil, List.append_nil, Option.elim_none]
    | some frame =>
      rw [List.filterMap_cons_some hframe, List.filterMap_nil, List.getLast?_concat,
        Option.elim_some, Option.elim_some]

/-- **An endpoint that has been begun on a second bus** loses what the sketch has not polled to a
write on the first one, if its new bus has nothing available. -/
theorem moved_endpoint_forgets (ops : List (WireBoardOp ι β)) {wire own : β} {e : ι}
    (hcalled : calledFor wire (bindings ops) = some (e, own)) (count : ℕ)
    {available : β → List UInt8} (hown : available own = []) (frame : Frame)
    (error : Option DecodeError) :
    (((wireBoardAfter ops).step (.receive wire count available)).1.poll e frame error).2 =
      .called e (.poll frame error) (.polled { received := false, frame, error }) := by
  have htarget := (tracks_wireBoardAfter ops).target wire
  rw [hcalled] at htarget
  generalize wireBoardAfter ops = board at htarget
  split_ifs at htarget with hcallbacks
  simp only [WireBoard.step, if_pos hcallbacks, WireBoard.receiveCallback, htarget,
    WireBoard.poll, WireBoard.endpoint_set, if_true, hown]
  unfold receiveFromIsr poll
  simp

/-- **One endpoint of a sketch serves the buses.**  In any order of calls and of events, on any
number of endpoints and buses: each endpoint's steps and their answers are those of the endpoint
alone; `begin` is refused from the first one on for every other endpoint; and a bus calls the first
endpoint if that has been begun on it, which reads the bus of its latest `begin`, and is answered
there with the frame that was published last at it. -/
theorem wire_board (ops : List (WireBoardOp ι β)) :
    (∀ e, (wireEndpointLog e ops).map Prod.snd =
      wirePeripheralEndpoint.outputs wirePeripheralEndpoint.start
        ((wireEndpointLog e ops).map Prod.fst)) ∧
    (∀ e address wire, ((wireBoardAfter ops).begin e address wire).2 = true ↔
      ∀ first, firstBegun (bindings ops) = some first → first = e) ∧
    (∀ wire count available,
      ((wireBoardAfter ops).step (.receive wire count available)).2 =
        (calledFor wire (bindings ops)).elim .ignored fun (e, own) =>
          .calledBack e own (.receive ((available own).take count)) .received) ∧
    ∀ wire, ((wireBoardAfter ops).step (.request wire)).2 =
      (calledFor wire (bindings ops)).elim .ignored fun (e, own) =>
        .calledBack e own .request (.requested (lastPublished e ops)) := by
  have h := tracks_wireBoardAfter ops
  have hrequest := fun e => requestFromIsr_wireBoardAfter e ops
  refine ⟨fun e => ?_, fun e address wire => ?_, fun wire count available => ?_, fun wire => ?_⟩
  · exact ((WireBoard.projection e).outputs rfl ((wireBoard ι β).along_of_forall
      fun _ _ => trivial)).symm
  · rw [← h.active]
    rcases (wireBoardAfter ops).begin_cases e address wire with
      ⟨first, hactive, hne, hrefused⟩ | ⟨hfree, hbegun⟩
    · rw [hrefused, hactive]
      constructor
      · intro hfalse
        cases hfalse
      · intro hsame
        exact absurd (hsame first rfl) hne
    · rw [hbegun]
      refine iff_of_true rfl fun first hactive => ?_
      rcases hfree with hnone | hsome
      · exact nomatch hnone.symm.trans hactive
      · exact Option.some.inj (hactive.symm.trans hsome)
  · have htarget := h.target wire
    rw [← htarget]
    simp only [WireBoard.step, WireBoard.receiveCallback]
    split_ifs
    · cases (wireBoardAfter ops).target <;> rfl
    · rfl
  · have htarget := h.target wire
    rw [← htarget]
    simp only [WireBoard.step, WireBoard.requestCallback]
    split_ifs
    · cases (wireBoardAfter ops).target with
      | none => rfl
      | some called => simp only [hrequest, Option.elim_some]
    · rfl

/-- The second endpoint is refused, and the first one serves a bus that it has left. -/
example :
    ((wireBoard Bool Bool).outputs (wireBoard Bool Bool).start
      [.begin true 0x42 false, .begin false 0x43 true, .begin true 0x42 true,
        .receive false 1 fun _ => []]).getLast? =
      some (.calledBack true true (.receive []) .received) := by
  decide

end

end PicoMesh
