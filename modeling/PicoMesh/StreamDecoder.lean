import PicoMesh.Frame
import PicoMesh.Library.Mealy

/-!
# The incremental stream decoder (`stream_decoder.h`, `stream_decoder.cpp`)

`StreamDecoder.feed` consumes one byte and answers with a `StreamResult`.  The
buffer keeps stale bytes past `size`; `StreamDecoder.candidate` is the part
that belongs to the current candidate frame.
-/

namespace PicoMesh

/-- Outcome after feeding one byte to the decoder. -/
inductive StreamStatus where
  | needMore
  | frameReady
  | frameError
  | discarded
  deriving DecidableEq, Repr

/-- Result returned after one byte is consumed. -/
structure StreamResult where
  status : StreamStatus := .needMore
  frame : Frame := {}
  error : DecodeError := .none
  deriving DecidableEq, Repr

/-- The default result: the candidate frame is incomplete. -/
def StreamResult.needMore : StreamResult := {}

/-- Decoder state. -/
structure StreamDecoder where
  buffer : Vector UInt8 kMaxEncodedFrameSize := Vector.replicate _ 0
  size : ℕ := 0
  expectedLength : ℕ := 0
  deriving DecidableEq, Repr

namespace StreamDecoder

/-- Discard the current candidate frame. -/
def reset (d : StreamDecoder) : StreamDecoder :=
  { d with size := 0, expectedLength := 0 }

/-- Number of bytes retained for the current candidate frame. -/
def bufferedSize (d : StreamDecoder) : ℕ := d.size

/-- The bytes of the current candidate frame. -/
def candidate (d : StreamDecoder) : List UInt8 := d.buffer.toList.take d.size

/-- Abandon the candidate with an error; a magic byte starts the next one. -/
def fail (d : StreamDecoder) (error : DecodeError) (lastByte : UInt8) :
    StreamDecoder × StreamResult :=
  let d := d.reset
  let d :=
    if lastByte = kFrameMagic then { d with buffer := d.buffer.setIfInBounds 0 lastByte, size := 1 }
    else d
  (d, { status := .frameError, error })

/-- `buffer_[size_++] = byte`. -/
def push (d : StreamDecoder) (byte : UInt8) : StreamDecoder :=
  { d with buffer := d.buffer.setIfInBounds d.size byte, size := d.size + 1 }

/-- Record the declared length when the header is complete. -/
def learnLength (d : StreamDecoder) : StreamDecoder :=
  if d.size = kFrameHeaderSize then
    { d with expectedLength := kFrameOverhead + (d.buffer.getD 6 0).toNat }
  else d

/-- Consume one byte from a continuous stream. -/
def feed (d : StreamDecoder) (byte : UInt8) : StreamDecoder × StreamResult :=
  if d.size = 0 then
    if byte ≠ kFrameMagic then (d, { status := .discarded, error := .badMagic })
    else (d.push byte, .needMore)
  else if d.size ≥ kMaxEncodedFrameSize then d.fail .lengthMismatch byte
  else
    let d := d.push byte
    -- both header checks read the byte just pushed
    if d.size = 2 ∧ d.buffer.getD 1 0 ≠ kProtocolVersion then d.fail .unsupportedVersion byte
    else if d.size = kFrameHeaderSize ∧ (d.buffer.getD 6 0).toNat > kMaxPayloadSize then
      d.fail .payloadTooLarge byte
    else
      let d := d.learnLength
      if d.expectedLength ≠ 0 ∧ d.size = d.expectedLength then
        -- whatever the strict decoder says, the candidate is over
        let decoded := decodeFrame (d.buffer.toList.take d.size)
        let d := d.reset
        if !decoded.ok then (d, { status := .frameError, error := decoded.error })
        else (d, { status := .frameReady, frame := decoded.frame })
      else (d, .needMore)

end StreamDecoder

/-- A fresh decoder fed byte by byte. -/
def streamDecoder : Mealy StreamDecoder UInt8 StreamResult where
  start := {}
  step := StreamDecoder.feed

/-- A call on the decoder. -/
inductive DecoderOp where
  | feed (byte : UInt8)
  | reset
  deriving DecidableEq, Repr

/-- One call; only `feed` returns a value. -/
def StreamDecoder.step (d : StreamDecoder) : DecoderOp → StreamDecoder × Option StreamResult
  | .feed byte => ((d.feed byte).1, some (d.feed byte).2)
  | .reset => (d.reset, none)

/-- The decoder as a machine over its calls. -/
def decoderCalls : Mealy StreamDecoder DecoderOp (Option StreamResult) where
  start := {}
  step := StreamDecoder.step

end PicoMesh
