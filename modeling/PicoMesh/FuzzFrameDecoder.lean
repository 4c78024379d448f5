import PicoMesh.StreamDecoder

/-!
# The fuzz target (`fuzz_frame_decoder.cpp`)

The target hands an input to the strict decoder, to the prefix helper and, byte
by byte, to a stream decoder, and compares what they say.  `invariant_failure`,
which traps, is `none` here.
-/

namespace PicoMesh

/-- The comparison of two frames: every field, and the payload as far as it counts. -/
def framesEqual (left right : Frame) : Bool :=
  if left.type ≠ right.type ∨ left.flags ≠ right.flags ∨ left.nodeId ≠ right.nodeId ∨
      left.sequence ≠ right.sequence ∨ left.payloadLength ≠ right.payloadLength then false
  else
    (List.range left.payloadLength.toNat).all fun i =>
      left.payload.getD i 0 == right.payload.getD i 0

/-- The checks of the strict decoder and the prefix helper. -/
def fuzzExact (data : List UInt8) : Option Unit :=
  let exact := decodeFrame data
  let prefixLength := frameLengthFromPrefix data
  if prefixLength > data.length ∨ prefixLength > kMaxEncodedFrameSize then none
  else if exact.ok then
    if prefixLength ≠ data.length then none
    else
      let reencoded := encodeFrame exact.frame
      let roundTrip := decodeEncodedFrame reencoded
      if !roundTrip.ok || !framesEqual exact.frame roundTrip.frame then none else some ()
  else some ()

/-- The loop over the bytes: the decoder behind it. -/
def fuzzStream (stream : StreamDecoder) : List UInt8 → Option StreamDecoder
  | [] => some stream
  | byte :: data =>
    let (stream, result) := stream.feed byte
    if stream.bufferedSize > kMaxEncodedFrameSize then none
    else if result.status = .frameReady ∧ !(decodeEncodedFrame (encodeFrame result.frame)).ok then
      none
    else fuzzStream stream data

/-- `LLVMFuzzerTestOneInput`. -/
def llvmFuzzerTestOneInput (data : List UInt8) : Option ℕ := do
  fuzzExact data
  let stream ← fuzzStream {} data
  let stream := stream.reset
  if stream.bufferedSize ≠ 0 then none else some 0

end PicoMesh
