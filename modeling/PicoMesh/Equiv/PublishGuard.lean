import PicoMesh.Equiv.PublishRead

/-!
# When a publish is refused

The critical section of `publish()` takes a non-zero read index for a read
transaction in progress.  `Schedule` says which of the steps so far put one in
progress, from the steps alone.  A refused call leaves no trace in what the
handler serves, then or later: the run without the call serves the same
(`refused_unobservable`).

Until a frame is accepted the read index stays zero, so a first `publish()` that
reaches its critical section inside a read is accepted there, and the rest of
the read is taken from its frame.  `publish_guard_iff` says that this is the only
way a read can be disturbed.
-/

namespace PicoMesh

/-! ### The schedule -/

/-- What the steps of a run say, whatever the endpoint makes of them. -/
structure Schedule where
  /-- The main thread is in a `publish()` call, before its critical section. -/
  publishing : Bool := false
  /-- A `publish()` call has gone through its critical section. -/
  returned : Bool := false
  /-- A byte has been requested since the last STOP or abort. -/
  reading : Bool := false
  deriving DecidableEq, Repr

/-- The schedule after a step. -/
def Schedule.note (schedule : Schedule) : EndpointOp → Schedule
  | .beginPublish _ => { schedule with publishing := true }
  | .commitPublish =>
    { schedule with publishing := false, returned := schedule.returned || schedule.publishing }
  | .poll => schedule
  | .irq .rdReq => { schedule with reading := true }
  | .irq .stopDet => { schedule with reading := false }
  | .irq .txAbrt => { schedule with reading := false }
  | .irq (.rxFull _) => schedule
  | .irq .rxOver => schedule

/-- The schedule of a run. -/
def schedule (ops : List EndpointOp) : Schedule := ops.foldl Schedule.note {}

theorem schedule_concat (ops : List EndpointOp) (op : EndpointOp) :
    schedule (ops ++ [op]) = (schedule ops).note op :=
  List.foldl_concat _ _ _ _

/-- Whether a step is one of `publish()`. -/
def EndpointOp.isPublish : EndpointOp → Bool
  | .beginPublish _ => true
  | .commitPublish => true
  | _ => false

/-- What a handler call shows: its event and the bytes it transmits. -/
def EndpointReply.handledBytes : EndpointReply → Option (IrqEvent × List UInt8)
  | .handled event transmitted => some (event, transmitted)
  | _ => none

/-! ### What `publish()` answers -/

theorem I2cPeripheralEndpoint.commitPublish_snd (endpoint : I2cPeripheralEndpoint)
    (call : PublishCall) : (endpoint.commitPublish call).2 = decide (endpoint.txIndex = 0) := by
  unfold commitPublish
  by_cases hindex : endpoint.txIndex = 0 <;> simp [hindex]

theorem I2cPeripheralEndpoint.txIndex_commitPublish (endpoint : I2cPeripheralEndpoint)
    (call : PublishCall) : (endpoint.commitPublish call).1.txIndex = endpoint.txIndex := by
  unfold commitPublish
  split_ifs <;> rfl

namespace EndpointThread

variable {s : EndpointThread}

/-- Beginning a call, when the main thread is not in one. -/
theorem step_beginPublish (h : s.publishing = none) (frame : Frame) :
    ∃ call, s.step (.beginPublish frame) =
        ({ endpoint := (s.endpoint.beginPublish frame).1, publishing := some call }, .idle) ∧
      call.frame = frame ∧
      (s.endpoint.beginPublish frame).1.txIndex = s.endpoint.txIndex := by
  have hbegin := Serves.beginPublish_eq s.endpoint frame
  refine ⟨⟨frame, s.endpoint.txActiveIndex ^^^ 1, (encodeFrame frame).active.length⟩, ?_, rfl,
    by rw [hbegin]⟩
  simp only [EndpointThread.step, h, hbegin]
  rfl

/-- The main thread begins no second call inside one. -/
theorem step_beginPublish_of_busy {call : PublishCall} (h : s.publishing = some call)
    (frame : Frame) : s.step (.beginPublish frame) = (s, .idle) := by
  simp only [EndpointThread.step, h, Option.isSome_some, if_true]

theorem step_commitPublish {call : PublishCall} (h : s.publishing = some call) :
    s.step .commitPublish =
      ({ endpoint := (s.endpoint.commitPublish call).1, publishing := none },
        .published call.frame (decide (s.endpoint.txIndex = 0))) := by
  simp only [EndpointThread.step, h, I2cPeripheralEndpoint.commitPublish_snd]

theorem step_commitPublish_of_idle (h : s.publishing = none) :
    s.step .commitPublish = (s, .idle) := by
  simp only [EndpointThread.step, h]

/-- Only the critical section of a call makes it return, and it returns true exactly
when the read index is zero. -/
theorem published_of_step {op : EndpointOp} {frame : Frame} {accepted : Bool}
    (h : (s.step op).2 = .published frame accepted) :
    op = .commitPublish ∧ s.publishing.isSome = true ∧
      accepted = decide (s.endpoint.txIndex = 0) := by
  cases op with
  | beginPublish frame' =>
    cases hcall : s.publishing with
    | none =>
      obtain ⟨call, hstep, -⟩ := step_beginPublish hcall frame'
      rw [hstep] at h
      cases h
    | some call =>
      rw [step_beginPublish_of_busy hcall] at h
      cases h
  | commitPublish =>
    cases hcall : s.publishing with
    | none =>
      rw [step_commitPublish_of_idle hcall] at h
      cases h
    | some call =>
      rw [step_commitPublish hcall] at h
      obtain ⟨-, rfl⟩ := EndpointReply.published.inj h
      exact ⟨rfl, rfl, rfl⟩
  | poll => cases h
  | irq event => cases h

/-- Other steps do not touch the call. -/
theorem publishing_step {op : EndpointOp} (hop : op.isPublish = false) :
    (s.step op).1.publishing = s.publishing := by
  cases op with
  | beginPublish frame => cases hop
  | commitPublish => cases hop
  | poll => rfl
  | irq event => rfl

end EndpointThread

/-! ### A refused call is not observable -/

/-- Two endpoints that answer reads alike: the same frame is accepted, and the same
byte of it is next. -/
def SameReads (s s' : EndpointThread) : Prop :=
  ∃ log log', Serves s log ∧ Serves s' log' ∧ log'.accepted = log.accepted ∧
    s'.endpoint.txIndex = s.endpoint.txIndex

/-- The two main threads are in a call with the same frame, or in none. -/
def SamePublishing (s s' : EndpointThread) : Prop :=
  s'.publishing.map PublishCall.frame = s.publishing.map PublishCall.frame

/-- The record of the accepted frame changes only where a call returns true. -/
theorem ReadLog.accepted_note {log : ReadLog} {reply : EndpointReply}
    (h : ∀ frame, reply ≠ .published frame true) : (log.note reply).accepted = log.accepted := by
  fun_cases ReadLog.note log reply with
  | case1 frame => exact absurd rfl (h frame)
  | _ => rfl

namespace SameReads

variable {s s' : EndpointThread}

/-- The handler serves the same byte and leaves the same read index. -/
theorem nextTxByte (h : SameReads s s') :
    s'.endpoint.nextTxByte.2 = s.endpoint.nextTxByte.2 ∧
      s'.endpoint.nextTxByte.1.txIndex = s.endpoint.nextTxByte.1.txIndex := by
  obtain ⟨log, log', hserves, hserves', haccepted, hindex⟩ := h
  obtain ⟨index, hnext, hstep⟩ := hserves.nextTxByte
  obtain ⟨index', hnext', hstep'⟩ := hserves'.nextTxByte
  rw [haccepted, hindex] at hnext' hstep'
  rw [hstep, hstep']
  exact ⟨rfl, UInt8.toNat_inj.mp (hnext'.trans hnext.symm)⟩

/-- **A step outside `publish()`** keeps reads alike and shows the same. -/
theorem step (h : SameReads s s') {op : EndpointOp} (hop : op.isPublish = false) :
    SameReads (s.step op).1 (s'.step op).1 ∧
      (s'.step op).2.handledBytes = (s.step op).2.handledBytes := by
  obtain ⟨hbyte, hnext⟩ := h.nextTxByte
  obtain ⟨log, log', hserves, hserves', haccepted, hindex⟩ := h
  have hquiet : ∀ s : EndpointThread, ∀ frame, (s.step op).2 ≠ .published frame true := by
    intro s frame hreply
    obtain ⟨rfl, -⟩ := EndpointThread.published_of_step hreply
    cases hop
  have hkept : (s'.step op).1.endpoint.txIndex = (s.step op).1.endpoint.txIndex ∧
      (s'.step op).2.handledBytes = (s.step op).2.handledBytes := by
    cases op with
    | beginPublish frame => cases hop
    | commitPublish => cases hop
    | poll =>
      have hpoll := fun endpoint : I2cPeripheralEndpoint =>
        congrArg (fun side => side.2.2.2) endpoint.txSide_poll
      exact ⟨(hpoll s'.endpoint).trans (hindex.trans (hpoll s.endpoint).symm), rfl⟩
    | irq event =>
      cases event with
      | rxFull byte =>
        have hreceive := fun endpoint : I2cPeripheralEndpoint =>
          congrArg (fun side => side.2.2.2) (endpoint.txSide_receiveByte byte)
        exact ⟨(hreceive s'.endpoint).trans (hindex.trans (hreceive s.endpoint).symm), rfl⟩
      | rdReq =>
        rw [EndpointThread.step_rdReq, EndpointThread.step_rdReq, hbyte]
        exact ⟨hnext, rfl⟩
      | stopDet => exact ⟨rfl, rfl⟩
      | txAbrt => exact ⟨rfl, rfl⟩
      | rxOver => exact ⟨hindex, rfl⟩
  refine ⟨⟨_, _, hserves.step op, hserves'.step op, ?_, hkept.1⟩, hkept.2⟩
  rw [ReadLog.accepted_note (hquiet s), ReadLog.accepted_note (hquiet s'), haccepted]

/-- **Any step** of main threads in the same call does so too, and leaves them in the
same call. -/
theorem step_of_same (h : SameReads s s') (hsame : SamePublishing s s') (op : EndpointOp) :
    (SameReads (s.step op).1 (s'.step op).1 ∧ SamePublishing (s.step op).1 (s'.step op).1) ∧
      (s'.step op).2.handledBytes = (s.step op).2.handledBytes := by
  cases hop : op.isPublish with
  | false =>
    obtain ⟨hreads, hbytes⟩ := h.step hop
    refine ⟨⟨hreads, ?_⟩, hbytes⟩
    unfold SamePublishing
    rw [EndpointThread.publishing_step hop, EndpointThread.publishing_step hop, hsame]
  | true =>
    unfold SamePublishing at hsame ⊢
    have hbusy : s'.publishing = none ↔ s.publishing = none := by
      rw [← Option.map_eq_none_iff, hsame, Option.map_eq_none_iff]
    obtain ⟨log, log', hserves, hserves', haccepted, hindex⟩ := h
    have hstep := hserves.step op
    have hstep' := hserves'.step op
    cases op with
    | poll => cases hop
    | irq event => cases hop
    | beginPublish frame =>
      cases hcall : s.publishing with
      | none =>
        obtain ⟨call, hbegin, hframe, htx⟩ := EndpointThread.step_beginPublish hcall frame
        obtain ⟨call', hbegin', hframe', htx'⟩ :=
          EndpointThread.step_beginPublish (hbusy.mpr hcall) frame
        rw [hbegin] at hstep ⊢
        rw [hbegin'] at hstep' ⊢
        refine ⟨⟨⟨_, _, hstep, hstep', haccepted, ?_⟩, ?_⟩, rfl⟩
        · exact htx'.trans (hindex.trans htx.symm)
        · exact congrArg some (hframe'.trans hframe.symm)
      | some call =>
        obtain ⟨call', hcall'⟩ : ∃ call', s'.publishing = some call' := by
          rw [← Option.ne_none_iff_exists', ne_eq, hbusy, hcall]
          simp
        rw [EndpointThread.step_beginPublish_of_busy hcall,
          EndpointThread.step_beginPublish_of_busy hcall']
        exact ⟨⟨⟨log, log', hserves, hserves', haccepted, hindex⟩, hsame⟩, rfl⟩
    | commitPublish =>
      cases hcall : s.publishing with
      | none =>
        rw [EndpointThread.step_commitPublish_of_idle hcall,
          EndpointThread.step_commitPublish_of_idle (hbusy.mpr hcall)]
        exact ⟨⟨⟨log, log', hserves, hserves', haccepted, hindex⟩, hsame⟩, rfl⟩
      | some call =>
        obtain ⟨call', hcall', hframe⟩ : ∃ call', s'.publishing = some call' ∧
            call'.frame = call.frame := by
          rw [hcall, Option.map_some, Option.map_eq_some_iff] at hsame
          exact hsame
        rw [EndpointThread.step_commitPublish hcall] at hstep ⊢
        rw [EndpointThread.step_commitPublish hcall', hframe, hindex] at hstep'
        rw [EndpointThread.step_commitPublish hcall', hframe, hindex]
        refine ⟨⟨⟨_, _, hstep, hstep', ?_, ?_⟩, rfl⟩, rfl⟩
        · -- both record the frame, or neither does
          cases decide (s.endpoint.txIndex = 0) with
          | true => rfl
          | false => exact haccepted
        · rw [I2cPeripheralEndpoint.txIndex_commitPublish,
            I2cPeripheralEndpoint.txIndex_commitPublish, hindex]

/-- A refused critical section leaves reads as they are. -/
theorem commit_refused (h : SameReads s s') (hidle : s'.publishing = none) {frame : Frame}
    (hrefused : (s.step .commitPublish).2 = .published frame false) :
    SameReads (s.step .commitPublish).1 s' ∧ SamePublishing (s.step .commitPublish).1 s' := by
  obtain ⟨-, hsome, -⟩ := EndpointThread.published_of_step hrefused
  obtain ⟨call, hcall⟩ := Option.isSome_iff_exists.mp hsome
  obtain ⟨log, log', hserves, hserves', haccepted, hindex⟩ := h
  have hcommit := hserves.step .commitPublish
  rw [hrefused] at hcommit
  rw [EndpointThread.step_commitPublish hcall] at hcommit ⊢
  constructor
  · refine ⟨_, _, hcommit, hserves', haccepted, ?_⟩
    rw [I2cPeripheralEndpoint.txIndex_commitPublish, hindex]
  · unfold SamePublishing
    rw [hidle]

end SameReads

/-- The endpoint with only its handler calls shown. -/
def handlerOutputs : Mealy EndpointThread EndpointOp (Option (IrqEvent × List UInt8)) :=
  peripheralEndpoint.mapOutput EndpointReply.handledBytes

theorem handlerOutputs_run (ops : List EndpointOp) :
    handlerOutputs.run handlerOutputs.start ops = endpointAfter ops :=
  Mealy.run_mapOutput _ _ _ _

theorem endpointAfter_append_cons (before between : List EndpointOp) (op : EndpointOp) :
    endpointAfter (before ++ op :: between) =
      handlerOutputs.run ((endpointAfter before).step op).1 between := by
  rw [← handlerOutputs_run, Mealy.run_append, Mealy.run_cons, handlerOutputs_run]
  rfl

/-- What handler calls show while one main thread is in a call and the other is not. -/
theorem sameReads_simulation :
    Mealy.Simulation handlerOutputs handlerOutputs id (fun _ op => op.isPublish = false)
      SameReads where
  answer _ _ _ h hop := (h.step hop).2
  next _ _ _ h hop := (h.step hop).1

/-- What they show while both are in the same call. -/
theorem samePublishing_simulation :
    Mealy.Simulation handlerOutputs handlerOutputs id (fun _ _ => True)
      fun s s' => SameReads s s' ∧ SamePublishing s s' where
  answer _ _ op h _ := (h.1.step_of_same h.2 op).2
  next _ _ op h _ := (h.1.step_of_same h.2 op).1

/-- What the handler calls of a run show. -/
theorem filterMap_handledBytes (ops : List EndpointOp) :
    (endpointReplies ops).filterMap EndpointReply.handledBytes =
      (handlerOutputs.outputs handlerOutputs.start ops).filterMap id := by
  rw [handlerOutputs, Mealy.outputs_mapOutput, List.filterMap_map]
  rfl

/-- The main thread stays in its call while other steps are taken. -/
theorem publishing_run {between : List EndpointOp}
    (hbetween : ∀ op ∈ between, op.isPublish = false) (s : EndpointThread) :
    (handlerOutputs.run s between).publishing = s.publishing := by
  induction between generalizing s with
  | nil => rfl
  | cons op between ih =>
    rw [Mealy.run_cons, ih fun op' hop' => hbetween op' (List.mem_cons_of_mem _ hop')]
    exact EndpointThread.publishing_step (hbetween op List.mem_cons_self)

/-- **A refused call is not observable.**  The handler calls of a run show the same
without it, during the call and ever after. -/
theorem refused_unobservable {before between later : List EndpointOp} {frame : Frame}
    (hidle : (endpointAfter before).publishing = none)
    (hbetween : ∀ op ∈ between, op.isPublish = false)
    (hrefused : ((endpointAfter (before ++ .beginPublish frame :: between)).step
      .commitPublish).2 = .published frame false) :
    (endpointReplies (before ++ .beginPublish frame :: between ++ .commitPublish ::
      later)).filterMap EndpointReply.handledBytes =
    (endpointReplies (before ++ between ++ later)).filterMap EndpointReply.handledBytes := by
  obtain ⟨call, hbegin, -, htx⟩ := EndpointThread.step_beginPublish hidle frame
  have hserves := serves_after before
  have hbegun := hserves.step (.beginPublish frame)
  rw [hbegin] at hbegun
  -- the two runs part at the beginning of the call
  have hreads : SameReads ((endpointAfter before).step (.beginPublish frame)).1
      (endpointAfter before) := by
    rw [hbegin]
    exact ⟨_, _, hbegun, hserves, rfl, htx.symm⟩
  have halong : handlerOutputs.Along (fun _ op => op.isPublish = false)
      ((endpointAfter before).step (.beginPublish frame)).1 between := by
    rw [Mealy.along_iff]
    rintro before' op rest rfl
    exact hbetween op (List.mem_append_right _ List.mem_cons_self)
  have hduring := sameReads_simulation.outputs hreads halong
  have hafter := sameReads_simulation.run hreads halong
  rw [List.map_id] at hduring hafter
  have hidle' : (handlerOutputs.run (endpointAfter before) between).publishing = none := by
    rw [publishing_run hbetween, hidle]
  -- and meet again where it is refused
  rw [endpointAfter_append_cons] at hrefused
  obtain ⟨hleft, hsame⟩ := hafter.commit_refused hidle' hrefused
  have hany : handlerOutputs.Along (fun _ _ => True)
      ((handlerOutputs.run ((endpointAfter before).step (.beginPublish frame)).1 between).step
        .commitPublish).1 later := handlerOutputs.along_of_forall fun _ _ => trivial
  have hlater := samePublishing_simulation.outputs ⟨hleft, hsame⟩ hany
  rw [List.map_id] at hlater
  -- the two steps of the call itself show nothing
  have hbegins : (handlerOutputs.step (endpointAfter before) (.beginPublish frame)).2 = none := by
    show ((endpointAfter before).step (.beginPublish frame)).2.handledBytes = none
    rw [hbegin]
    rfl
  have hcommits : (handlerOutputs.step (handlerOutputs.run
      ((endpointAfter before).step (.beginPublish frame)).1 between) .commitPublish).2 = none := by
    show ((handlerOutputs.run ((endpointAfter before).step (.beginPublish frame)).1
      between).step .commitPublish).2.handledBytes = none
    rw [hrefused]
    rfl
  have hwith : handlerOutputs.outputs handlerOutputs.start
      (before ++ .beginPublish frame :: between ++ .commitPublish :: later) =
        handlerOutputs.outputs handlerOutputs.start before ++
          none :: handlerOutputs.outputs (endpointAfter before) between ++
            none :: handlerOutputs.outputs (handlerOutputs.run (endpointAfter before) between)
              later := by
    rw [Mealy.outputs_append, Mealy.outputs_append, Mealy.outputs_cons, Mealy.outputs_cons,
      handlerOutputs_run, handlerOutputs_run, endpointAfter_append_cons, hbegins, hcommits,
      hduring, hlater]
    rfl
  have hwithout : handlerOutputs.outputs handlerOutputs.start (before ++ between ++ later) =
      handlerOutputs.outputs handlerOutputs.start before ++
        handlerOutputs.outputs (endpointAfter before) between ++
          handlerOutputs.outputs (handlerOutputs.run (endpointAfter before) between) later := by
    rw [Mealy.outputs_append, Mealy.outputs_append, Mealy.run_append, handlerOutputs_run]
  rw [filterMap_handledBytes, filterMap_handledBytes, hwith, hwithout]
  simp only [List.filterMap_append, List.filterMap_cons, id_eq]

/-! ### The guard -/

/-- The call and the transaction that the schedule shows are those of the endpoint and
the record. -/
theorem schedule_after (ops : List EndpointOp) :
    (schedule ops).publishing = (endpointAfter ops).publishing.isSome ∧
      ((schedule ops).reading = true ↔ (readLog ops).bytes ≠ []) := by
  induction ops using List.reverseRecOn with
  | nil => exact ⟨rfl, by simp [schedule, readLog, endpointReplies]⟩
  | append_singleton ops op ih =>
    obtain ⟨hpublishing, hreading⟩ := ih
    rw [schedule_concat, endpointAfter_concat, readLog_concat]
    generalize endpointAfter ops = s at hpublishing ⊢
    cases op with
    | beginPublish frame =>
      cases hcall : s.publishing with
      | none =>
        obtain ⟨call, hstep, -⟩ := EndpointThread.step_beginPublish hcall frame
        rw [hstep]
        exact ⟨rfl, hreading⟩
      | some call =>
        rw [EndpointThread.step_beginPublish_of_busy hcall, hcall]
        exact ⟨rfl, hreading⟩
    | commitPublish =>
      cases hcall : s.publishing with
      | none =>
        rw [EndpointThread.step_commitPublish_of_idle hcall, hcall]
        exact ⟨rfl, hreading⟩
      | some call =>
        rw [EndpointThread.step_commitPublish hcall]
        refine ⟨rfl, ?_⟩
        cases decide (s.endpoint.txIndex = 0) with
        | true => exact hreading
        | false => exact hreading
    | poll => exact ⟨hpublishing, hreading⟩
    | irq event =>
      cases event with
      | rxFull byte => exact ⟨hpublishing, hreading⟩
      | rdReq => exact ⟨hpublishing, by simp [Schedule.note, ReadLog.note]⟩
      | stopDet => exact ⟨hpublishing, by simp [Schedule.note, ReadLog.note]⟩
      | txAbrt => exact ⟨hpublishing, by simp [Schedule.note, ReadLog.note]⟩
      | rxOver => exact ⟨hpublishing, hreading⟩

/-- A call that has returned stays so. -/
theorem Schedule.returned_note {schedule : Schedule} (h : schedule.returned = true)
    (op : EndpointOp) : (schedule.note op).returned = true := by
  cases op with
  | beginPublish frame => exact h
  | commitPublish => exact Bool.or_eq_true_iff.mpr (.inl h)
  | poll => exact h
  | irq event => cases event <;> exact h

/-- A frame is accepted only when a call has returned. -/
theorem returned_of_accepted {ops : List EndpointOp} {f : Frame}
    (h : (readLog ops).accepted = some f) : (schedule ops).returned = true := by
  induction ops using List.reverseRecOn with
  | nil => cases h
  | append_singleton ops op ih =>
    rw [readLog_concat] at h
    rw [schedule_concat]
    by_cases hreply : ∃ frame, ((endpointAfter ops).step op).2 = .published frame true
    · -- the step is the critical section of a call
      obtain ⟨frame, hframe⟩ := hreply
      obtain ⟨rfl, hcall, -⟩ := EndpointThread.published_of_step hframe
      rw [← (schedule_after ops).1] at hcall
      exact Bool.or_eq_true_iff.mpr (.inr hcall)
    · rw [ReadLog.accepted_note fun frame hframe => hreply ⟨frame, hframe⟩] at h
      exact Schedule.returned_note (ih h) op

/-- The first call to return does not return inside a read transaction. -/
def FirstOutsideRead (ops : List EndpointOp) : Prop :=
  ∀ before, before ++ [.commitPublish] <+: ops → (schedule before).publishing = true →
    (schedule before).reading = true → (schedule before).returned = true

theorem FirstOutsideRead.mono {ops ops' : List EndpointOp} (h : FirstOutsideRead ops')
    (hops : ops <+: ops') : FirstOutsideRead ops :=
  fun before hbefore => h before (hbefore.trans hops)

/-- What holds while no read has been disturbed. -/
structure Undisturbed (ops : List EndpointOp) : Prop where
  /-- The first call to return was accepted. -/
  accepted : (schedule ops).returned = true → (readLog ops).accepted ≠ none
  /-- No frame has been accepted in the current transaction. -/
  atFirstByte : (readLog ops).bytes ≠ [] → (readLog ops).atFirstByte = (readLog ops).accepted
  /-- Without a frame, zeros are served. -/
  zeros : (readLog ops).bytes ≠ [] → (readLog ops).accepted = none →
    (readLog ops).bytes = List.replicate (readLog ops).bytes.length 0

/-- **The read index is the guard that it is taken for**, once a call has returned
or outside a transaction. -/
theorem Undisturbed.txIndex_iff {ops : List EndpointOp} (h : Undisturbed ops)
    (hfirst : (schedule ops).reading = true → (schedule ops).returned = true) :
    (endpointAfter ops).endpoint.txIndex = 0 ↔ (schedule ops).reading = false := by
  have hserves := serves_after ops
  have hreading := (schedule_after ops).2
  constructor
  · intro hindex
    rw [← Bool.not_eq_true]
    intro hread
    have hbytes := hreading.mp hread
    obtain ⟨f, hf⟩ := Option.ne_none_iff_exists'.mp (h.accepted (hfirst hread))
    -- a byte of the accepted frame has been served
    obtain ⟨-, -, hserved⟩ := hserves.serving hbytes f ((h.atFirstByte hbytes).trans hf)
    have hpos := encodeFrame_active_pos f
    have hsome := List.length_pos_iff.mpr hbytes
    have hzero : (endpointAfter ops).endpoint.txIndex.toNat = 0 := congrArg UInt8.toNat hindex
    omega
  · intro hread
    apply hserves.between
    by_contra hbytes
    rw [hreading.mpr hbytes] at hread
    cases hread

/-- Where the record stays and no call returns, nothing is disturbed. -/
theorem Undisturbed.of_same {ops ops' : List EndpointOp} (h : Undisturbed ops)
    (hlog : readLog ops' = readLog ops)
    (hreturned : (schedule ops').returned = true → (schedule ops).returned = true) :
    Undisturbed ops' := by
  refine ⟨?_, ?_, ?_⟩ <;> rw [hlog]
  · exact fun h' => h.accepted (hreturned h')
  · exact h.atFirstByte
  · exact h.zeros

theorem Undisturbed.beginPublish {ops : List EndpointOp} (h : Undisturbed ops) (frame : Frame) :
    Undisturbed (ops ++ [.beginPublish frame]) := by
  apply h.of_same
  · rw [readLog_concat]
    cases hcall : (endpointAfter ops).publishing with
    | none =>
      obtain ⟨call, hstep, -⟩ := EndpointThread.step_beginPublish hcall frame
      rw [hstep]
      rfl
    | some call =>
      rw [EndpointThread.step_beginPublish_of_busy hcall]
      rfl
  · rw [schedule_concat]
    exact id

/-- The critical section of a call that is not the first one inside a read. -/
theorem Undisturbed.commitPublish {ops : List EndpointOp} (h : Undisturbed ops)
    (hfirst : FirstOutsideRead (ops ++ [.commitPublish])) :
    Undisturbed (ops ++ [.commitPublish]) := by
  obtain ⟨hcalled, hreading⟩ := schedule_after ops
  cases hcall : (endpointAfter ops).publishing with
  | none =>
    apply h.of_same
    · rw [readLog_concat, EndpointThread.step_commitPublish_of_idle hcall]
      rfl
    · rw [schedule_concat]
      intro hreturned
      rcases Bool.or_eq_true_iff.mp hreturned with hbefore | hpublishing
      · exact hbefore
      · rw [hcalled, hcall] at hpublishing
        cases hpublishing
  | some call =>
    have hpublishing : (schedule ops).publishing = true := by
      rw [hcalled, hcall]
      rfl
    have hreturned := hfirst ops (List.prefix_refl _) hpublishing
    have hindex := h.txIndex_iff hreturned
    have hlog : readLog (ops ++ [.commitPublish]) = (readLog ops).note
        (.published call.frame (decide ((endpointAfter ops).endpoint.txIndex = 0))) := by
      rw [readLog_concat, EndpointThread.step_commitPublish hcall]
    by_cases hzero : (endpointAfter ops).endpoint.txIndex = 0
    · -- accepted, with no byte served
      have hbytes : (readLog ops).bytes = [] := by
        by_contra hbytes
        rw [hindex.mp hzero] at hreading
        cases hreading.mpr hbytes
      rw [decide_eq_true hzero] at hlog
      refine ⟨?_, ?_, ?_⟩ <;> rw [hlog]
      · exact fun _ => Option.some_ne_none _
      · exact fun hne => absurd hbytes hne
      · exact fun hne => absurd hbytes hne
    · -- refused inside a read
      rw [decide_eq_false hzero] at hlog
      have hread : (schedule ops).reading = true := by
        rw [← Bool.not_eq_false, ← hindex]
        exact hzero
      exact h.of_same hlog fun _ => hreturned hread

/-- A byte is served: of the accepted frame, or a zero. -/
theorem Undisturbed.rdReq {ops : List EndpointOp} (h : Undisturbed ops) :
    Undisturbed (ops ++ [.irq .rdReq]) := by
  obtain ⟨index, -, hnext⟩ := (serves_after ops).nextTxByte
  have hlog : readLog (ops ++ [.irq .rdReq]) =
      { readLog ops with
        atFirstByte :=
          if (readLog ops).bytes = [] then (readLog ops).accepted else (readLog ops).atFirstByte
        bytes := (readLog ops).bytes ++ [(wireBytes (readLog ops).accepted).getD
          (endpointAfter ops).endpoint.txIndex.toNat 0] } := by
    rw [readLog_concat, EndpointThread.step_rdReq, hnext]
    rfl
  refine ⟨?_, ?_, ?_⟩ <;> rw [hlog]
  · rw [schedule_concat]
    exact h.accepted
  · intro _
    dsimp only
    split_ifs with hnil
    · rfl
    · exact h.atFirstByte hnil
  · intro _ hnone
    dsimp only at hnone ⊢
    have hbytes : (readLog ops).bytes = List.replicate (readLog ops).bytes.length 0 := by
      by_cases hnil : (readLog ops).bytes = []
      · rw [hnil]
        rfl
      · exact h.zeros hnil hnone
    rw [hnone, List.length_append, List.length_singleton, List.replicate_succ', ← hbytes]
    rfl

/-- The end of a transaction. -/
theorem Undisturbed.endRead {ops : List EndpointOp} {op : EndpointOp} (h : Undisturbed ops)
    (hlog : readLog (ops ++ [op]) = { readLog ops with bytes := [] })
    (hreturned : ((schedule ops).note op).returned = (schedule ops).returned) :
    Undisturbed (ops ++ [op]) := by
  refine ⟨?_, ?_, ?_⟩ <;> rw [hlog]
  · rw [schedule_concat, hreturned]
    exact h.accepted
  · exact fun hne => absurd rfl hne
  · exact fun hne => absurd rfl hne

/-- **A step that meets the condition disturbs no read.** -/
theorem Undisturbed.step {ops : List EndpointOp} (h : Undisturbed ops) {op : EndpointOp}
    (hfirst : FirstOutsideRead (ops ++ [op])) : Undisturbed (ops ++ [op]) := by
  have hreturned := congrArg Schedule.returned (schedule_concat ops op)
  cases op with
  | beginPublish frame => exact h.beginPublish frame
  | commitPublish => exact h.commitPublish hfirst
  | poll => exact h.of_same (readLog_concat ops _) fun h' => hreturned ▸ h'
  | irq event =>
    cases event with
    | rxFull byte => exact h.of_same (readLog_concat ops _) fun h' => hreturned ▸ h'
    | rdReq => exact h.rdReq
    | stopDet => exact h.endRead (readLog_concat ops _) rfl
    | txAbrt => exact h.endRead (readLog_concat ops _) rfl
    | rxOver => exact h.of_same (readLog_concat ops _) fun h' => hreturned ▸ h'

theorem undisturbed_of_first {ops : List EndpointOp} (h : FirstOutsideRead ops) :
    Undisturbed ops := by
  induction ops using List.reverseRecOn with
  | nil => exact ⟨nofun, fun hne => absurd rfl hne, fun hne => absurd rfl hne⟩
  | append_singleton ops op ih => exact (ih (h.mono (List.prefix_append _ _))).step h

/-- **`publish()` never takes effect inside a read**, throughout a run. -/
structure GuardsReads (ops : List EndpointOp) : Prop where
  /-- A call returns false exactly when a read transaction is in progress. -/
  refused : ∀ before op rest, ops = before ++ op :: rest → ∀ frame accepted,
    ((endpointAfter before).step op).2 = .published frame accepted →
      (accepted = false ↔ (schedule before).reading = true)
  /-- A refused call leaves all that is served as it is without the call. -/
  unchanged : ∀ before between later frame,
    ops = before ++ .beginPublish frame :: between ++ .commitPublish :: later →
    (endpointAfter before).publishing = none → (∀ op ∈ between, op.isPublish = false) →
    ((endpointAfter (before ++ .beginPublish frame :: between)).step .commitPublish).2 =
      .published frame false →
    (endpointReplies ops).filterMap EndpointReply.handledBytes =
      (endpointReplies (before ++ between ++ later)).filterMap EndpointReply.handledBytes
  /-- The bytes of a transaction are those of one accepted frame and then zeros, or
  zeros if none was accepted when it started. -/
  bytes : ∀ before, before <+: ops →
    (∀ f, (readLog before).atFirstByte = some f →
      .published f true ∈ endpointReplies before ∧
        (readLog before).bytes = served f (readLog before).bytes.length) ∧
    ((readLog before).atFirstByte = none →
      (readLog before).bytes = List.replicate (readLog before).bytes.length 0)

theorem guardsReads_of_first {ops : List EndpointOp} (h : FirstOutsideRead ops) :
    GuardsReads ops where
  refused := by
    rintro before op rest rfl frame accepted hreply
    obtain ⟨rfl, hcall, rfl⟩ := EndpointThread.published_of_step hreply
    have hbefore : before ++ [.commitPublish] <+: before ++ .commitPublish :: rest :=
      ⟨rest, by simp⟩
    rw [← (schedule_after before).1] at hcall
    have hundisturbed := undisturbed_of_first (h.mono (List.prefix_append _ _))
    rw [decide_eq_false_iff_not, hundisturbed.txIndex_iff (h before hbefore hcall),
      Bool.not_eq_false]
  unchanged := by
    rintro before between later frame rfl hidle hbetween hrefused
    exact refused_unobservable hidle hbetween hrefused
  bytes := by
    intro before hbefore
    have hserves := serves_after before
    have hundisturbed := undisturbed_of_first (h.mono hbefore)
    by_cases hnil : (readLog before).bytes = []
    · rw [hnil]
      refine ⟨fun f hf => ⟨published_of_recorded before f (.inr hf), ?_⟩, fun _ => rfl⟩
      exact (List.eq_nil_of_length_eq_zero (length_served f 0)).symm
    · refine ⟨fun f hf => ⟨published_of_recorded before f (.inr hf), ?_⟩, fun hnone => ?_⟩
      · exact (hserves.serving hnil f hf).2.1
      · exact hundisturbed.zeros hnil ((hundisturbed.atFirstByte hnil).symm.trans hnone)

/-- **When `publish()` respects reads.**  Throughout a run it does so exactly when
the first call to return does not return inside a read transaction. -/
theorem publish_guard_iff (ops : List EndpointOp) : GuardsReads ops ↔ FirstOutsideRead ops := by
  constructor
  · rintro h before ⟨rest, rfl⟩ hcall hread
    rw [(schedule_after before).1] at hcall
    obtain ⟨call, hcall⟩ := Option.isSome_iff_exists.mp hcall
    have hreply := EndpointThread.step_commitPublish hcall
    -- the call is refused, so the read index is not zero and a frame is accepted
    have hrefused := (h.refused before .commitPublish rest (by simp) call.frame _
      (congrArg Prod.snd hreply)).mpr hread
    have hindex := (serves_after before).index
    cases haccepted : (readLog before).accepted with
    | some f => exact returned_of_accepted haccepted
    | none =>
      rw [haccepted] at hindex
      have hzero : (endpointAfter before).endpoint.txIndex = 0 :=
        UInt8.toNat_inj.mp (Nat.le_zero.mp hindex)
      exact absurd hzero (decide_eq_false_iff_not.mp hrefused)
  · exact guardsReads_of_first

/-- **A frame accepted inside a read.**  A controller has been served one zero when
the first `publish()` returns true; the next byte is the first of the frame. -/
theorem publish_accepted_inside_read :
    ¬GuardsReads [.irq .rdReq, .beginPublish {}, .commitPublish, .irq .rdReq] ∧
      (readLog [.irq .rdReq, .beginPublish {}, .commitPublish, .irq .rdReq]).bytes =
        [0, 0xB7] := by
  constructor
  · intro h
    have hrefused := h.refused [.irq .rdReq, .beginPublish {}] .commitPublish [.irq .rdReq] rfl {}
      true (by decide)
    exact absurd (hrefused.mpr (by decide)) (by decide)
  · decide

end PicoMesh
