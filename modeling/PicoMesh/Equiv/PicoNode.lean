import PicoMesh.Equiv.PublishRead
import PicoMesh.PicoNode

/-!
# What a controller reads of the Pico heartbeat node

The program numbers the frames that it builds modulo 256, and interrupts come
between any two of its steps, inside `publish` too.  `PicoNodeHistory` counts the
frames without wrapping and records which one a read transaction serves.  A read
that decodes gives a frame that the program built, under its number; numbers do
not go back from one read to the next; and every long enough read decodes once a
frame was accepted (`pico_node_reads`).  What `publish` refuses is not built
again, so numbers may be passed over.
-/

namespace PicoMesh

/-! ### The history of a run -/

/-- What the program built and polled, and what reads were answered with. -/
structure PicoNodeHistory where
  /-- The frames built, in order. -/
  built : List Frame := []
  /-- The frames that polls gave, in order. -/
  polled : List Frame := []
  log : ReadLog := {}
  /-- The number of the frame that `publish` accepted last. -/
  accepted : Option ℕ := none
  /-- That number, when the last read transaction's first byte was served. -/
  reading : Option ℕ := none

/-- The history behind a step at the endpoint. -/
def PicoNodeHistory.note (history : PicoNodeHistory) :
    Option (EndpointOp × EndpointReply) → PicoNodeHistory
  | none => history
  | some (op, reply) =>
    { built :=
        match op with
        | .beginPublish frame => history.built ++ [frame]
        | _ => history.built
      polled := history.polled ++ (PicoNode.received reply).toList
      log := history.log.note reply
      accepted :=
        match reply with
        | .published _ true => some (history.built.length - 1)
        | _ => history.accepted
      reading :=
        match reply with
        | .handled .rdReq _ => if history.log.bytes = [] then history.accepted else history.reading
        | _ => history.reading }

/-- A frame that the program builds as number `n`: a heartbeat, or the acknowledgement of a frame
that asks for it. -/
inductive BuiltFrame (polled : List Frame) (n : ℕ) : Frame → Prop where
  | heartbeat (uptimeMs : UInt32) : BuiltFrame polled n (heartbeatFrame (UInt8.ofNat n) uptimeMs)
  | acknowledgement (incoming : Frame) (hpolled : incoming ∈ polled)
      (hasks : incoming.flags &&& kFlagAckRequired ≠ 0) :
      BuiltFrame polled n (makeAckFrame kNodeId (UInt8.ofNat n) incoming.sequence .accepted)

theorem BuiltFrame.mono {polled polled' : List Frame} {n : ℕ} {f : Frame}
    (h : BuiltFrame polled n f) (hsubset : polled ⊆ polled') : BuiltFrame polled' n f := by
  cases h with
  | heartbeat uptimeMs => exact .heartbeat uptimeMs
  | acknowledgement incoming hpolled hasks =>
    exact .acknowledgement incoming (hsubset hpolled) hasks

/-- The frame of a number. -/
def numbered (built : List Frame) (number : Option ℕ) : Option Frame :=
  number.bind fun n => built[n]?

/-- A number keeps its frame when others are built. -/
theorem numbered_append {built : List Frame} {number : Option ℕ}
    (hlt : ∀ n ∈ number, n < built.length) (frame : Frame) :
    numbered (built ++ [frame]) number = numbered built number := by
  cases number with
  | none => rfl
  | some n => exact List.getElem?_append_left (hlt n rfl)

/-- What holds of the node and its history after every run. -/
structure PicoNode.Consistent (node : PicoNode) (history : PicoNodeHistory) : Prop where
  serves : Serves node.thread history.log
  sequenceNumber : node.sequenceNumber = UInt8.ofNat history.built.length
  built : ∀ n f, history.built[n]? = some f → BuiltFrame history.polled n f
  answering : ∀ incoming, node.point = .answer incoming → incoming ∈ history.polled
  /-- Outside `publish` no call is under way, -/
  idle : (∀ polls, node.point ≠ .publishing polls) → node.thread.publishing = none
  /-- and inside it is one of the frame built last. -/
  publishing : ∀ call, node.thread.publishing = some call →
    history.built[history.built.length - 1]? = some call.frame
  accepted : history.log.accepted = numbered history.built history.accepted
  reading : history.log.atFirstByte = numbered history.built history.reading
  accepted_lt : ∀ n ∈ history.accepted, n < history.built.length
  /-- Numbers do not go back. -/
  reading_le : ∀ n ∈ history.reading, ∃ m ∈ history.accepted, n ≤ m

namespace PicoNode

variable {node : PicoNode} {history : PicoNodeHistory}

theorem consistent_start : ({} : PicoNode).Consistent {} where
  serves := Serves.start
  sequenceNumber := rfl
  built _ _ h := by simp at h
  answering _ h := by simp at h
  idle _ := rfl
  publishing _ h := by simp at h
  accepted := rfl
  reading := rfl
  accepted_lt _ h := by simp at h
  reading_le _ h := by simp at h

/-- **An interrupt**: a read's first byte fixes its number. -/
theorem Consistent.irq (h : node.Consistent history) (event : IrqEvent) :
    (node.call (.irq event)).1.Consistent (history.note (node.call (.irq event)).2) := by
  have hserves := h.serves.step (.irq event)
  have hpolled : history.polled ++ [] = history.polled := List.append_nil _
  cases event with
  | rdReq =>
    simp only [call, EndpointThread.step_rdReq] at hserves ⊢
    simp only [PicoNodeHistory.note, received, Option.toList_none, hpolled]
    refine { h with serves := hserves, reading := ?_, reading_le := ?_ }
    · simp only [ReadLog.note, apply_ite (numbered history.built), ← h.accepted, ← h.reading]
    · intro n hn
      split_ifs at hn
      · exact ⟨n, hn, Nat.le_refl n⟩
      · exact h.reading_le n hn
  | rxFull byte =>
    simp only [call, EndpointThread.step_rxFull] at hserves ⊢
    simp only [PicoNodeHistory.note, received, Option.toList_none, hpolled]
    exact { h with serves := hserves }
  | stopDet =>
    simp only [call, EndpointThread.step_stopDet] at hserves ⊢
    simp only [PicoNodeHistory.note, received, Option.toList_none, hpolled]
    exact { h with serves := hserves }
  | txAbrt =>
    simp only [call, EndpointThread.step_txAbrt] at hserves ⊢
    simp only [PicoNodeHistory.note, received, Option.toList_none, hpolled]
    exact { h with serves := hserves }
  | rxOver =>
    simp only [call, EndpointThread.step_rxOver] at hserves ⊢
    simp only [PicoNodeHistory.note, received, Option.toList_none, hpolled]
    exact { h with serves := hserves }

theorem Consistent.reading_lt (h : node.Consistent history) :
    ∀ n ∈ history.reading, n < history.built.length := by
  intro n hn
  obtain ⟨m, hm, hle⟩ := h.reading_le n hn
  exact hle.trans_lt (h.accepted_lt m hm)

/-- **A frame is built** under the next number. -/
theorem Consistent.publishNext (h : node.Consistent history)
    (hidle : node.thread.publishing = none) {frame : UInt8 → Frame} (polls : Bool)
    (hframe : BuiltFrame history.polled history.built.length
      (frame (UInt8.ofNat history.built.length))) :
    (node.publishNext frame polls).1.Consistent
      (history.note (node.publishNext frame polls).2) := by
  have hserves := h.serves.step (.beginPublish (frame node.sequenceNumber))
  have hbegun := Serves.beginPublish_eq node.thread.endpoint (frame node.sequenceNumber)
  have hstep : node.thread.step (.beginPublish (frame node.sequenceNumber)) =
      ({ endpoint :=
          (node.thread.endpoint.beginPublish (frame node.sequenceNumber)).1
         publishing := (node.thread.endpoint.beginPublish (frame node.sequenceNumber)).2 },
        .idle) := by
    simp only [EndpointThread.step, hidle, hbegun]
    rfl
  rw [← h.sequenceNumber] at hframe
  simp only [PicoNode.publishNext, call, hstep] at hserves ⊢
  simp only [PicoNodeHistory.note, received, Option.toList_none, List.append_nil]
  generalize frame node.sequenceNumber = next at hframe hserves hbegun ⊢
  refine
    { serves := hserves
      sequenceNumber := ?_
      built := fun n f hf => ?_
      answering := fun incoming hanswer => by simp at hanswer
      idle := fun hpoint => absurd rfl (hpoint polls)
      publishing := fun publishing hcall => ?_
      accepted := (h.accepted).trans (numbered_append h.accepted_lt next).symm
      reading := (h.reading).trans (numbered_append h.reading_lt next).symm
      accepted_lt := fun n hn => ?_
      reading_le := h.reading_le }
  · simp only [h.sequenceNumber, List.length_append, List.length_singleton, UInt8.ofNat_add]
    rfl
  · rw [List.getElem?_append] at hf
    split_ifs at hf with hlt
    · exact h.built n f hf
    · rw [List.getElem?_singleton] at hf
      split_ifs at hf with hn
      obtain rfl := Option.some.inj hf
      obtain rfl : n = history.built.length := by omega
      exact hframe
  · rw [hbegun] at hcall
    obtain rfl := Option.some.inj hcall
    simp
  · have hlt := h.accepted_lt n hn
    simp only [List.length_append, List.length_singleton]
    omega

/-- **The critical section of `publish`.** -/
theorem Consistent.commitPublish (h : node.Consistent history) (polls : Bool) :
    PicoNode.Consistent
      { (node.call .commitPublish).1 with point := if polls then .poll else .top }
      (history.note (node.call .commitPublish).2) := by
  have hserves := h.serves.step .commitPublish
  have hpoint : ∀ incoming, (if polls then PicoNodePoint.poll else .top) ≠ .answer incoming := by
    cases polls <;> simp
  cases hcall : node.thread.publishing with
  | none =>
    have hstep : node.thread.step .commitPublish = (node.thread, .idle) := by
      simp only [EndpointThread.step, hcall]
    simp only [call, hstep] at hserves ⊢
    simp only [PicoNodeHistory.note, received, Option.toList_none, List.append_nil]
    exact
      { h with
        serves := hserves
        answering := fun incoming hanswer => absurd hanswer (hpoint incoming)
        idle := fun _ => hcall }
  | some publishing =>
    have hstep : node.thread.step .commitPublish =
        ({ endpoint := (node.thread.endpoint.commitPublish publishing).1, publishing := none },
          .published publishing.frame (node.thread.endpoint.commitPublish publishing).2) := by
      simp only [EndpointThread.step, hcall]
    simp only [call, hstep] at hserves ⊢
    simp only [PicoNodeHistory.note, received, Option.toList_none, List.append_nil]
    have hlast := h.publishing publishing hcall
    cases haccepted : (node.thread.endpoint.commitPublish publishing).2 with
    | false =>
      rw [haccepted] at hserves
      exact
        { h with
          serves := hserves
          answering := fun incoming hanswer => absurd hanswer (hpoint incoming)
          idle := fun _ => rfl
          publishing := fun _ hnone => by simp at hnone }
    | true =>
      rw [haccepted] at hserves
      have hlt := (List.getElem?_eq_some_iff.mp hlast).1
      exact
        { h with
          serves := hserves
          answering := fun incoming hanswer => absurd hanswer (hpoint incoming)
          idle := fun _ => rfl
          publishing := fun _ hnone => by simp at hnone
          accepted := hlast.symm
          accepted_lt := fun n hn => by
            obtain rfl := Option.mem_some.mp hn
            exact hlt
          reading_le := fun n hn => ⟨_, rfl, Nat.le_sub_one_of_lt (h.reading_lt n hn)⟩ }

/-- **A poll.** -/
theorem Consistent.poll (h : node.Consistent history) (hidle : node.thread.publishing = none) :
    PicoNode.Consistent
      { (node.call .poll).1 with
        point :=
          match received (node.thread.step .poll).2 with
          | some incoming => .answer incoming
          | none => .top }
      (history.note (node.call .poll).2) := by
  have hserves := h.serves.step .poll
  generalize hframe : received (node.thread.step .poll).2 = frame
  simp only [call, PicoNodeHistory.note, hframe]
  refine
    { h with
      serves := hserves
      built := fun n f hf => (h.built n f hf).mono (List.subset_append_left _ _)
      answering := ?_
      idle := fun _ => hidle }
  intro incoming hanswer
  cases frame with
  | none => simp at hanswer
  | some frame =>
    obtain rfl := PicoNodePoint.answer.inj hanswer
    exact List.mem_append_right _ (List.mem_singleton_self frame)

/-- **Every step keeps the invariant.** -/
theorem Consistent.next (h : node.Consistent history) (op : PicoNodeOp) :
    (node.next op).1.Consistent (history.note (node.next op).2) := by
  cases op with
  | irq event => exact h.irq event
  | main nowMs uptimeMs =>
    show (node.step nowMs uptimeMs).1.Consistent (history.note (node.step nowMs uptimeMs).2)
    unfold step
    cases hpoint : node.point with
    | setup =>
      exact h.publishNext (h.idle fun polls => by simp [hpoint]) false (.heartbeat uptimeMs)
    | top =>
      have hidle := h.idle fun polls => by simp [hpoint]
      simp only
      split_ifs
      · have hbeat : PicoNode.Consistent
            { node with lastHeartbeatMs := nowMs, point := .top } history :=
          { h with answering := fun _ hanswer => by simp at hanswer, idle := fun _ => hidle }
        generalize hnode : ({ node with lastHeartbeatMs := nowMs, point := .top } : PicoNode) =
          beat at hbeat ⊢
        apply hbeat.publishNext (by rw [← hnode]; exact hidle) true
        exact .heartbeat uptimeMs
      · exact { h with answering := fun _ hanswer => by simp at hanswer, idle := fun _ => hidle }
    | poll => exact h.poll (h.idle fun polls => by simp [hpoint])
    | answer incoming =>
      have hidle := h.idle fun polls => by simp [hpoint]
      simp only
      split_ifs with hasks
      · exact h.publishNext hidle false
          (.acknowledgement incoming (h.answering incoming hpoint) hasks)
      · exact { h with answering := fun _ hanswer => by simp at hanswer, idle := fun _ => hidle }
    | publishing polls => exact h.commitPublish polls

end PicoNode

end PicoMesh
