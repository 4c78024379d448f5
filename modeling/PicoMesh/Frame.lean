import PicoMesh.Checksum

/-!
# Frames and the strict frame codec (`frame.h`, `frame.cpp`)

A frame travels as a seven-byte header, up to 32 payload bytes and a trailing
checksum byte.  `encodeFrame` fills the source's fixed 40-byte storage;
`EncodedFrame.active` is the part of it that goes on the wire.
-/

namespace PicoMesh

/-- Protocol start byte used to locate a frame. -/
def kFrameMagic : UInt8 := 0xB7

/-- Wire-protocol version encoded in every frame. -/
def kProtocolVersion : UInt8 := 1

/-- Maximum number of application payload bytes in one frame. -/
abbrev kMaxPayloadSize : ℕ := 32

/-- Number of bytes before the application payload. -/
abbrev kFrameHeaderSize : ℕ := 7

/-- Header plus trailing checksum size. -/
abbrev kFrameOverhead : ℕ := kFrameHeaderSize + 1

/-- Largest possible encoded frame size. -/
abbrev kMaxEncodedFrameSize : ℕ := kFrameOverhead + kMaxPayloadSize

/-- The numeric values of the size constants, for linear arithmetic. -/
theorem sizes : kMaxPayloadSize = 32 ∧ kFrameHeaderSize = 7 ∧ kFrameOverhead = 8 ∧
    kMaxEncodedFrameSize = 40 := ⟨rfl, rfl, rfl, rfl⟩

/-! ### Data -/

/-- Message category.  The source's enumeration has a fixed underlying byte
type and `decode_frame` casts any received byte to it, so every byte is a value;
the named categories are constants of the type. -/
structure MessageType where
  /-- The byte on the wire. -/
  raw : UInt8
  deriving DecidableEq, Repr

namespace MessageType

/-- Periodic node-liveness announcement. -/
def heartbeat : MessageType := ⟨0x01⟩
/-- Application state publication. -/
def state : MessageType := ⟨0x02⟩
/-- Application command. -/
def command : MessageType := ⟨0x10⟩
/-- Response to an ACK-required frame. -/
def acknowledgement : MessageType := ⟨0x11⟩
/-- First value reserved for application-defined types. -/
def user : MessageType := ⟨0x80⟩

end MessageType

/-- Decoded, fixed-capacity frame.  Only the first `payloadLength` bytes of
`payload` are part of the message. -/
structure Frame where
  type : MessageType := .heartbeat
  flags : UInt8 := 0
  nodeId : UInt8 := 0
  sequence : UInt8 := 0
  payload : Vector UInt8 kMaxPayloadSize := Vector.replicate _ 0
  payloadLength : UInt8 := 0
  deriving DecidableEq, Repr

/-- Encoded frame bytes and their active length. -/
structure EncodedFrame where
  bytes : Vector UInt8 kMaxEncodedFrameSize := Vector.replicate _ 0
  length : ℕ := 0
  deriving DecidableEq, Repr

/-- The valid encoded bytes: the first `length` of the storage. -/
def EncodedFrame.active (encoded : EncodedFrame) : List UInt8 :=
  encoded.bytes.toList.take encoded.length

/-- Reason strict frame decoding failed. -/
inductive DecodeError where
  | none
  | tooShort
  | badMagic
  | unsupportedVersion
  | payloadTooLarge
  | lengthMismatch
  | badChecksum
  deriving DecidableEq, Repr

/-- Result of strict frame decoding. -/
structure DecodeResult where
  frame : Frame := {}
  error : DecodeError := .none
  deriving DecidableEq, Repr

/-- The source's `operator bool`. -/
def DecodeResult.ok (result : DecodeResult) : Bool := result.error == .none

/-! ### Codec -/

/-- The destination of `std::copy_n(src.begin(), n, dst.begin() + offset)` with
`src` cut to its first `n` bytes. -/
def copyAt {size : ℕ} (dst : Vector UInt8 size) (offset : ℕ) (src : List UInt8) :
    Vector UInt8 size :=
  Vector.ofFn fun i =>
    if offset ≤ i.val then src.getD (i.val - offset) dst[i] else dst[i]

/-- Determine a complete encoded length from a valid header prefix; zero for an
incomplete or invalid prefix. -/
def frameLengthFromPrefix (data : List UInt8) : ℕ :=
  if data.length < kFrameHeaderSize then 0
  else if data.getD 0 0 ≠ kFrameMagic ∨ data.getD 1 0 ≠ kProtocolVersion then 0
  else
    let payloadLength := (data.getD 6 0).toNat
    if payloadLength > kMaxPayloadSize then 0
    else
      let expectedLength := kFrameOverhead + payloadLength
      if expectedLength ≤ data.length then expectedLength else 0

/-- Encode a frame into fixed-capacity storage. -/
def encodeFrame (frame : Frame) : EncodedFrame :=
  -- the minimum is taken on bytes
  let payloadLength := (min frame.payloadLength (UInt8.ofNat kMaxPayloadSize)).toNat
  let bytes : Vector UInt8 kMaxEncodedFrameSize := Vector.replicate _ 0
  let bytes := bytes.set 0 kFrameMagic
  let bytes := bytes.set 1 kProtocolVersion
  let bytes := bytes.set 2 frame.type.raw
  let bytes := bytes.set 3 frame.flags
  let bytes := bytes.set 4 frame.nodeId
  let bytes := bytes.set 5 frame.sequence
  let bytes := bytes.set 6 (UInt8.ofNat payloadLength)
  let bytes := copyAt bytes kFrameHeaderSize (frame.payload.toList.take payloadLength)
  let length := kFrameOverhead + payloadLength
  -- the checksum goes right behind the payload and covers all before it
  let bytes := bytes.setIfInBounds (length - 1) (checksum8 (bytes.toList.take (length - 1)))
  { bytes, length }

/-- Strictly decode one exact frame buffer. -/
def decodeFrame (data : List UInt8) : DecodeResult :=
  if data.length < kFrameOverhead then { error := .tooShort }
  else if data.getD 0 0 ≠ kFrameMagic then { error := .badMagic }
  else if data.getD 1 0 ≠ kProtocolVersion then { error := .unsupportedVersion }
  else
    let payloadLength := (data.getD 6 0).toNat
    if payloadLength > kMaxPayloadSize then { error := .payloadTooLarge }
    else if data.length ≠ kFrameOverhead + payloadLength then { error := .lengthMismatch }
    else if !verifyChecksum8 data then { error := .badChecksum }
    else
      { frame :=
          { type := ⟨data.getD 2 0⟩
            flags := data.getD 3 0
            nodeId := data.getD 4 0
            sequence := data.getD 5 0
            payloadLength := UInt8.ofNat payloadLength
            payload := copyAt (Vector.replicate _ 0) 0
              ((data.drop kFrameHeaderSize).take payloadLength) } }

/-- The overload for an encoded frame object. -/
def decodeEncodedFrame (data : EncodedFrame) : DecodeResult := decodeFrame data.active

end PicoMesh
