import PicoMesh.Equiv.ReceiveMailbox
import PicoMesh.WirePeripheralEndpoint

/-!
# The Arduino endpoint keeps the latest write

What the receive side is for is a place that holds the latest write until a poll
takes it: a later write replaces an unread one, an empty one does nothing.
`observedEndpoint` runs the endpoint beside such a place, `unread`, which is
computed from the calls alone and keeps writes whole.

The receive callback keeps the first bytes of a write only, and it recomputes the
ready flag from the write at hand, an empty one included.  `Intact` is the
condition on a step that neither shows: under it the buffer holds what fits of
the unread write (`holdsUnread_step`), and `latest_write_iff` says that a run
keeps the latest write throughout exactly when all its steps are intact.
-/

namespace PicoMesh

/-! ### The receive buffer -/

/-- **The receive loop stores what fits of a write.** -/
theorem foldl_storeByte (buffer : Vector UInt8 kMaxEncodedFrameSize) (write : List UInt8) :
    (write.foldl storeByte (buffer, 0)).2.toNat = (fitting write).length ∧
      (write.foldl storeByte (buffer, 0)).1.toList.take
        (write.foldl storeByte (buffer, 0)).2.toNat = fitting write := by
  have hsizes := sizes
  induction write using List.reverseRecOn with
  | nil => exact ⟨rfl, rfl⟩
  | append_singleton write byte ih =>
    obtain ⟨hlength, hbytes⟩ := ih
    rw [List.foldl_concat, fitting_append]
    generalize write.foldl storeByte (buffer, 0) = stored at hlength hbytes ⊢
    have hstored : stored.2.toNat < kMaxEncodedFrameSize ↔ write.length < kMaxEncodedFrameSize := by
      rw [hlength, fitting, List.length_take]
      omega
    unfold storeByte
    by_cases hroom : write.length < kMaxEncodedFrameSize
    · -- the counter stays a byte: it is below the capacity
      have hnext : (stored.2 + 1).toNat = stored.2.toNat + 1 := by
        rw [UInt8.toNat_add, UInt8.toNat_one]
        have hlt := hstored.mpr hroom
        omega
      rw [if_pos (hstored.mpr hroom), if_pos hroom, hnext, Vector.toList_setIfInBounds,
        take_succ_set _ _ _ (by rw [Vector.length_toList]; exact hstored.mpr hroom), hbytes,
        List.length_append, List.length_singleton, hlength]
      exact ⟨rfl, rfl⟩
    · rw [if_neg (fun hlt => hroom (hstored.mp hlt)), if_neg hroom]
      exact ⟨hlength, hbytes⟩

namespace WirePeripheralEndpoint

variable {endpoint : WirePeripheralEndpoint}

/-- The message that is ready. -/
def message (endpoint : WirePeripheralEndpoint) : Option (List UInt8) :=
  if endpoint.rxReady then some endpoint.held else none

/-- After a write the message is what fits of it; an empty write leaves none. -/
theorem message_receive (write : List UInt8) :
    (endpoint.receiveFromIsr write.length write).message =
      if write = [] then none else some (fitting write) := by
  obtain ⟨hlength, hbytes⟩ := foldl_storeByte endpoint.rxBytes write
  unfold receiveFromIsr message held
  rw [List.take_length, hbytes]
  have hready : 0 < (write.foldl storeByte (endpoint.rxBytes, 0)).2 ↔ write ≠ [] := by
    rw [UInt8.lt_iff_toNat_lt, hlength, UInt8.toNat_zero, List.length_pos_iff, ne_eq,
      fitting_eq_nil_iff]
  simp only [hready, decide_eq_true_eq, ne_eq, ite_not]

/-- A poll takes the message. -/
theorem message_poll (frame : Frame) (error : Option DecodeError) :
    (endpoint.poll frame error).1.message = none := by
  have hready : (endpoint.poll frame error).1.rxReady = false := by
    unfold poll
    dsimp only
    split_ifs with hnone
    · exact (Bool.not_eq_true' _).mp hnone
    · rfl
    · rfl
  unfold message
  rw [hready]
  rfl

theorem message_publish (frame : Frame) :
    (endpoint.publish frame).1.message = endpoint.message := by
  unfold publish
  generalize encodeFrame frame = encoded
  dsimp only
  split_ifs
  · rfl
  · simp only [message, held]

/-- A poll hands over a frame exactly when the message decodes to it. -/
theorem poll_received_iff (frame : Frame) (error : Option DecodeError) (f : Frame) :
    (endpoint.poll frame error).2.received = true ∧ (endpoint.poll frame error).2.frame = f ↔
      ∃ bytes, endpoint.message = some bytes ∧ (decodeFrame bytes).ok = true ∧
        (decodeFrame bytes).frame = f := by
  unfold poll message
  cases endpoint.rxReady with
  | false => simp
  | true => cases hok : (decodeFrame endpoint.held).ok <;> simp [hok]

/-- A poll that answers `false` leaves the caller's frame. -/
theorem frame_poll (frame : Frame) (error : Option DecodeError)
    (h : (endpoint.poll frame error).2.received = false) :
    (endpoint.poll frame error).2.frame = frame := by
  unfold poll at h ⊢
  dsimp only at h ⊢
  split_ifs at h ⊢ <;> rfl

end WirePeripheralEndpoint

/-- A write that the strict decoder accepts fits the receive buffer. -/
theorem length_le_of_decodeFrame_ok {data : List UInt8} (h : (decodeFrame data).ok = true) :
    data.length ≤ kMaxEncodedFrameSize := by
  have hshape := ((decodeFrame_ok_iff data).mp ((decodeFrame_ok_iff_error data).mp h)).1
  rw [hshape.length]
  exact Nat.add_le_add_left hshape.bound _

/-! ### The endpoint beside the latest write -/

/-- An endpoint, and the most recent non-empty write if no poll has consumed it. -/
structure ObservedEndpoint where
  endpoint : WirePeripheralEndpoint := {}
  unread : Option (List UInt8) := none
  deriving DecidableEq, Repr

/-- The unread write after a step. -/
def unreadAfter (unread : Option (List UInt8)) : WireOp → Option (List UInt8)
  | .receive write => if write = [] then unread else some write
  | .poll _ _ => none
  | .request => unread
  | .publish _ => unread

/-- The endpoint as a machine, with the unread write kept beside it. -/
def observedEndpoint : Mealy ObservedEndpoint WireOp WireReply where
  start := {}
  step s op :=
    ({ endpoint := (s.endpoint.step op).1, unread := unreadAfter s.unread op },
      (s.endpoint.step op).2)

/-- Observing an endpoint does not change what it does. -/
theorem observedEndpoint_run (ops : List WireOp) :
    (observedEndpoint.run observedEndpoint.start ops).endpoint = wireEndpointAfter ops := by
  induction ops using List.reverseRecOn with
  | nil => rfl
  | append_singleton ops op ih =>
    rw [Mealy.run_concat, wireEndpointAfter_concat, ← ih]
    rfl

/-- **A step that keeps the latest write.**  A poll returns true with a frame exactly
when the unread write, as a whole, decodes to it, and otherwise leaves the
caller's frame; an empty write leaves the message that is ready, or that there is
none. -/
def KeepsLatestWrite (s : ObservedEndpoint) : WireOp → Prop
  | .poll frame error =>
    (∀ f, (s.endpoint.poll frame error).2.received = true ∧
        (s.endpoint.poll frame error).2.frame = f ↔
      ∃ write, s.unread = some write ∧ (decodeFrame write).ok = true ∧
        (decodeFrame write).frame = f) ∧
    ((s.endpoint.poll frame error).2.received = false →
      (s.endpoint.poll frame error).2.frame = frame)
  | .receive write =>
    write = [] → (s.endpoint.receiveFromIsr write.length write).message = s.endpoint.message
  | .request => True
  | .publish _ => True

/-- No empty write finds a write unread, and no poll finds an unread write that is
too long for the buffer and decodes once it is cut off. -/
def Intact (s : ObservedEndpoint) : WireOp → Prop
  | .poll _ _ =>
    ∀ write, s.unread = some write → kMaxEncodedFrameSize < write.length →
      (decodeFrame (fitting write)).ok = false
  | .receive write => write = [] → s.unread = none
  | .request => True
  | .publish _ => True

/-- The message that is ready is what fits of the unread write. -/
def HoldsUnread (s : ObservedEndpoint) : Prop := s.endpoint.message = s.unread.map fitting

/-- **An intact step keeps the buffer and the unread write together.** -/
theorem holdsUnread_step (s : ObservedEndpoint) (op : WireOp) (h : HoldsUnread s)
    (hop : Intact s op) : HoldsUnread (observedEndpoint.step s op).1 := by
  cases op with
  | receive write =>
    show (s.endpoint.receiveFromIsr write.length write).message =
      (if write = [] then s.unread else some write).map fitting
    rw [WirePeripheralEndpoint.message_receive]
    split_ifs with hempty
    · rw [hop hempty]
      rfl
    · rfl
  | poll frame error => exact WirePeripheralEndpoint.message_poll frame error
  | request => exact h
  | publish frame => exact (WirePeripheralEndpoint.message_publish frame).trans h

/-- Where the buffer holds what fits of the unread write, the intact steps are the
ones that keep the latest write. -/
theorem keepsLatestWrite_iff (s : ObservedEndpoint) (op : WireOp) (h : HoldsUnread s) :
    KeepsLatestWrite s op ↔ Intact s op := by
  unfold HoldsUnread at h
  cases op with
  | receive write =>
    apply imp_congr_right
    rintro rfl
    rw [WirePeripheralEndpoint.message_receive, if_pos rfl, h, eq_comm, Option.map_eq_none_iff]
  | poll frame error =>
    have hpoll := fun f => s.endpoint.poll_received_iff frame error f
    constructor
    · rintro ⟨hkeeps, -⟩ write hwrite hlong
      rw [← Bool.not_eq_true]
      intro hok
      -- the cut write is handed over, so the whole one would have to decode
      have hmessage : s.endpoint.message = some (fitting write) := by
        rw [h, hwrite]
        rfl
      obtain ⟨write', hwrite', hok', -⟩ :=
        (hkeeps _).mp ((hpoll _).mpr ⟨_, hmessage, hok, rfl⟩)
      obtain rfl : write = write' := Option.some.inj (hwrite.symm.trans hwrite')
      have hfits := length_le_of_decodeFrame_ok hok'
      omega
    · intro hintact
      refine ⟨fun f => ?_, s.endpoint.frame_poll frame error⟩
      rw [hpoll, h]
      constructor
      · rintro ⟨bytes, hbytes, hok, hframe⟩
        obtain ⟨write, hwrite, rfl⟩ := Option.map_eq_some_iff.mp hbytes
        rcases Nat.lt_or_ge kMaxEncodedFrameSize write.length with hlong | hfits
        · rw [hintact write hwrite hlong] at hok
          cases hok
        · rw [fitting, List.take_of_length_le hfits] at hok hframe
          exact ⟨write, hwrite, hok, hframe⟩
      · rintro ⟨write, hwrite, hok, hframe⟩
        have hfits : fitting write = write :=
          List.take_of_length_le (length_le_of_decodeFrame_ok hok)
        refine ⟨fitting write, by rw [hwrite]; rfl, ?_⟩
        rw [hfits]
        exact ⟨hok, hframe⟩
  | request => rfl
  | publish frame => rfl

/-- **When the latest write is kept.**  Every step of a run keeps the latest write
exactly when every step is intact. -/
theorem latest_write_iff (ops : List WireOp) :
    observedEndpoint.Along KeepsLatestWrite observedEndpoint.start ops ↔
      observedEndpoint.Along Intact observedEndpoint.start ops := by
  have hstart : HoldsUnread observedEndpoint.start := rfl
  exact observedEndpoint.along_congr keepsLatestWrite_iff holdsUnread_step hstart ops

/-- **A message lost and a message cut into shape.**  After a frame is written an
empty write leaves nothing for the poll; and of a write of 41 bytes that begins
with a frame of 40 the poll hands over that frame. -/
theorem latest_write_lost_or_cut :
    ¬observedEndpoint.Along KeepsLatestWrite observedEndpoint.start
        [.receive [0xB7, 1, 1, 0, 1, 0, 0, 70], .receive [], .poll {} none] ∧
      ¬observedEndpoint.Along KeepsLatestWrite observedEndpoint.start
        [.receive ([0xB7, 1, 1, 0, 1, 0, 32] ++ List.replicate 32 0 ++ [38, 0]),
          .poll {} none] := by
  constructor
  · rintro ⟨-, hempty, -⟩
    exact absurd (hempty rfl) (by decide)
  · rintro ⟨-, ⟨hpoll, -⟩, -⟩
    obtain ⟨write, hwrite, hok, -⟩ := (hpoll _).mp ⟨by decide +kernel, rfl⟩
    obtain rfl := Option.some.inj hwrite
    exact absurd hok (by decide)

end PicoMesh
