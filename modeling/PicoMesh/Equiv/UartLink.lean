import Mathlib.Data.List.Induction
import PicoMesh.Equiv.BatchScan
import PicoMesh.Equiv.Resynchronisation
import PicoMesh.UartLink

/-!
# A UART delivers frames in order

However the sender's frames and the receiver's calls are interleaved, and however
many bytes each call asks for: as long as the FIFO does not overrun, the bytes
that the decoder was fed, those in the FIFO and those on the line are the frames
sent one behind the other (`UartLink.Carries`).  So the decoder reports the frames
sent, in order, each once, and nothing else (`uart_link_delivery`).
-/

namespace PicoMesh

/-- The frames that a run sends. -/
def UartLinkOp.sent? : UartLinkOp → Option Frame
  | .send frame => some frame
  | _ => none

/-- No byte arrives at a full FIFO. -/
def UartLink.NoOverrun (depth : ℕ) (s : UartLink) (op : UartLinkOp) : Prop :=
  op = .arrive → s.fifo.length < depth

instance (depth : ℕ) (s : UartLink) (op : UartLinkOp) : Decidable (s.NoOverrun depth op) :=
  inferInstanceAs (Decidable (_ → _))

/-- The link after a run. -/
def uartLinkAfter (depth : ℕ) (ops : List UartLinkOp) : UartLink :=
  (uartLink depth).run (uartLink depth).start ops

/-- What the decoder reported in a run. -/
def uartResults (depth : ℕ) (ops : List UartLinkOp) : List StreamResult :=
  ((uartLink depth).outputs (uartLink depth).start ops).flatten

namespace UartLink

/-- What holds of the link when these frames were sent and these results reported: the bytes fed to
the decoder, those in the FIFO and those on the line are the frames' encodings. -/
structure Carries (s : UartLink) (sent : List Frame) (results : List StreamResult) : Prop where
  decoder : ∃ read, read ++ s.fifo ++ s.line = wireStream sent ∧
    s.decoder = streamDecoder.run streamDecoder.start read ∧
    results = streamDecoder.outputs streamDecoder.start read

theorem carries_start : ({} : UartLink).Carries [] [] := ⟨[], rfl, rfl, rfl⟩

variable {depth : ℕ} {s : UartLink} {sent : List Frame} {results : List StreamResult}

/-- **A step without overrun** keeps every byte. -/
theorem Carries.step (h : s.Carries sent results) {op : UartLinkOp} (hop : s.NoOverrun depth op) :
    (s.step depth op).1.Carries (sent ++ op.sent?.toList) (results ++ (s.step depth op).2) := by
  obtain ⟨read, hbytes, hdecoder, hresults⟩ := h.decoder
  cases op with
  | send frame =>
    have hsend : (transport.send (encodeFrame frame).active).2 = (encodeFrame frame).active := by
      have hpos := encodeFrame_length_pos frame
      simp only [UartTransport.send, transport]
      rw [if_neg (by omega)]
    refine ⟨read, ?_, hdecoder, by simpa [UartLink.step] using hresults⟩
    simp only [UartLink.step, hsend, UartLinkOp.sent?, Option.toList_some]
    rw [wireStream, List.flatMap_append, ← wireStream, ← hbytes]
    simp
  | arrive =>
    have hspace := hop rfl
    cases hline : s.line with
    | nil =>
      simp only [UartLink.step, hline, UartLinkOp.sent?, Option.toList_none, List.append_nil]
      exact h
    | cons byte line =>
      rw [hline] at hbytes
      simp only [UartLink.step, hline, if_pos hspace, UartLinkOp.sent?, Option.toList_none,
        List.append_nil]
      exact ⟨read, by simpa using hbytes, hdecoder, hresults⟩
  | receive capacity =>
    have hsplit := List.take_append_drop capacity s.fifo
    simp only [UartLink.step, UartTransport.receive, transport, UartLinkOp.sent?,
      Option.toList_none, List.append_nil]
    refine ⟨read ++ s.fifo.take capacity, ?_, ?_, ?_⟩
    · rw [← hbytes, List.length_take, ← List.drop_eq_drop_min]
      conv_rhs => rw [← hsplit]
      simp
    · rw [Mealy.run_append, hdecoder]
    · rw [Mealy.outputs_append, hresults, hdecoder]

end UartLink

theorem carries_uartLinkAfter {depth : ℕ} {ops : List UartLinkOp}
    (hops : (uartLink depth).Along (UartLink.NoOverrun depth) (uartLink depth).start ops) :
    (uartLinkAfter depth ops).Carries (ops.filterMap UartLinkOp.sent?) (uartResults depth ops) := by
  induction ops using List.reverseRecOn with
  | nil => exact UartLink.carries_start
  | append_singleton ops op ih =>
    rw [Mealy.along_append] at hops
    have hstep := (ih hops.1).step hops.2.1
    have hsent : [op].filterMap UartLinkOp.sent? = op.sent?.toList := by
      cases op <;> rfl
    unfold uartLinkAfter uartResults at hstep ⊢
    rw [Mealy.run_concat, Mealy.outputs_concat, List.flatten_append, List.flatten_singleton,
      List.filterMap_append, hsent]
    exact hstep

/-! ### What the decoder reports -/

/-- The results of a stream of frames report them. -/
theorem readyFrames_flatMap_frameResults (frames : List Frame) :
    readyFrames (frames.flatMap frameResults) = frames.map Frame.normalise := by
  induction frames with
  | nil => rfl
  | cons f frames ih =>
    rw [List.flatMap_cons, readyFrames_append, ih, frameResults, readyFrames_append,
      readyFrames_replicate_needMore]
    rfl

theorem status_of_mem_frameResults {frames : List Frame} {result : StreamResult}
    (h : result ∈ frames.flatMap frameResults) :
    result.status = .needMore ∨ result.status = .frameReady := by
  obtain ⟨f, -, hresult⟩ := List.mem_flatMap.mp h
  unfold frameResults at hresult
  rw [List.mem_append, List.mem_singleton] at hresult
  rcases hresult with hmore | rfl
  · rw [List.eq_of_mem_replicate hmore]
    exact Or.inl rfl
  · exact Or.inr rfl

/-- **A UART delivers frames in order.**  However sends, arrivals and calls of `receive` are
interleaved, and for whatever capacities: without an overrun every byte is reported on once, the
decoder reports no errors and discards nothing, and its frames are the first of the frames sent, in
order; all of them once every byte was read. -/
theorem uart_link_delivery (depth : ℕ) (ops : List UartLinkOp)
    (hops : (uartLink depth).Along (UartLink.NoOverrun depth) (uartLink depth).start ops) :
    let link := uartLinkAfter depth ops
    let sent := ops.filterMap UartLinkOp.sent?
    let results := uartResults depth ops
    results.length + link.fifo.length + link.line.length = (wireStream sent).length ∧
    (∀ result ∈ results, result.status = .needMore ∨ result.status = .frameReady) ∧
    readyFrames results <+: sent.map Frame.normalise ∧
    (link.fifo = [] → link.line = [] → readyFrames results = sent.map Frame.normalise) := by
  intro link sent results
  obtain ⟨read, hbytes, -, hresults⟩ := (carries_uartLinkAfter hops).decoder
  -- what is reported of the bytes read is the beginning of what the whole stream is worth
  have hwhole : streamDecoder.outputs streamDecoder.start (wireStream sent) =
      sent.flatMap frameResults :=
    (StreamDecoder.outputs_start _).trans (outputs_wireStream sent).2
  rw [← hbytes, List.append_assoc, Mealy.outputs_append, ← hresults] at hwhole
  have hreported : results <+: sent.flatMap frameResults := ⟨_, hwhole⟩
  refine ⟨?_, fun result hresult => ?_, ?_, fun hfifo hline => ?_⟩
  · have hlength := congrArg List.length hbytes
    simp only [List.length_append] at hlength
    have hread : results.length = read.length := by
      rw [show results = _ from hresults, Mealy.length_outputs]
    rw [hread]
    exact hlength
  · exact status_of_mem_frameResults (hreported.subset hresult)
  · rw [← readyFrames_flatMap_frameResults]
    exact hreported.filterMap _
  · rw [← readyFrames_flatMap_frameResults, ← hwhole, show (uartLinkAfter depth ops).fifo = [] from
      hfifo, show (uartLinkAfter depth ops).line = [] from hline]
    simp [results]

/-- A frame that is read three bytes at a time. -/
theorem uart_link_delivery_example :
    readyFrames (uartResults 32 ([.send { nodeId := 3 }] ++ List.replicate 8 .arrive ++
      [.receive 3, .receive 3, .receive 3])) = [{ nodeId := 3 }] := by
  refine ((uart_link_delivery 32 _ (by decide +kernel)).2.2.2 ?_ ?_).trans ?_
  · decide +kernel
  · decide +kernel
  · decide +kernel

end PicoMesh
