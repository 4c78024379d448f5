import PicoMesh.Frame
import PicoMesh.Library.Mealy

/-!
# The Arduino I2C peripheral endpoint (`wire_transport.h`, `wire_transport.cpp`)

One message buffer and one reply buffer, shared between the sketch and the two
callbacks of `Wire`.  A callback is called with the number of bytes of the
write, which `Wire` makes available to `read()`; the sketch polls with the frame
and the error it wants written, the error possibly a null pointer.

`wirePeripheralEndpoint` is the endpoint with every call and every callback
atomic, as `noInterrupts()` makes them.
-/

namespace PicoMesh

/-- The endpoint's buffers. -/
structure WirePeripheralEndpoint where
  rxBytes : Vector UInt8 kMaxEncodedFrameSize := Vector.replicate _ 0
  rxLength : UInt8 := 0
  rxReady : Bool := false
  txBytes : Vector UInt8 kMaxEncodedFrameSize := Vector.replicate _ 0
  txLength : UInt8 := 0
  deriving DecidableEq, Repr

/-- What `poll()` leaves with its caller: the value it returns and the two
variables it was given. -/
structure PollResult where
  received : Bool
  frame : Frame
  error : Option DecodeError
  deriving DecidableEq, Repr

/-- The body of the receive loop: a byte that does not fit is read all the same. -/
def storeByte (stored : Vector UInt8 kMaxEncodedFrameSize × UInt8) (byte : UInt8) :
    Vector UInt8 kMaxEncodedFrameSize × UInt8 :=
  if stored.2.toNat < kMaxEncodedFrameSize then
    (stored.1.setIfInBounds stored.2.toNat byte, stored.2 + 1)
  else stored

namespace WirePeripheralEndpoint

variable (endpoint : WirePeripheralEndpoint)

/-- The bytes that the receive buffer holds. -/
def held : List UInt8 := endpoint.rxBytes.toList.take endpoint.rxLength.toNat

/-- Publish a frame for later controller read requests. -/
def publish (frame : Frame) : WirePeripheralEndpoint × Bool :=
  let encoded := encodeFrame frame
  if encoded.length = 0 ∨ encoded.length > kMaxEncodedFrameSize then (endpoint, false)
  else
    ({ endpoint with
        txBytes := copyAt endpoint.txBytes 0 encoded.active
        txLength := UInt8.ofNat encoded.length }, true)

/-- Take the message that is ready, if there is one, and decode it into the
caller's frame. -/
def poll (frame : Frame) (error : Option DecodeError) : WirePeripheralEndpoint × PollResult :=
  if !endpoint.rxReady then (endpoint, { received := false, frame, error })
  else
    let decoded := decodeFrame endpoint.held
    let endpoint := { endpoint with rxReady := false, rxLength := 0 }
    if !decoded.ok then
      (endpoint, { received := false, frame, error := error.map fun _ => decoded.error })
    else
      (endpoint,
        { received := true, frame := decoded.frame, error := error.map fun _ => .none })

/-- The receive callback, for a write of `count` bytes of which `Wire` has
`available`. -/
def receiveFromIsr (count : ℕ) (available : List UInt8) : WirePeripheralEndpoint :=
  -- what the first loop leaves, the second one reads away
  let stored := (available.take count).foldl storeByte (endpoint.rxBytes, 0)
  { endpoint with
    rxBytes := stored.1
    rxLength := stored.2
    rxReady := decide (0 < stored.2) }

/-- The bytes that the request callback writes. -/
def requestFromIsr : List UInt8 :=
  if 0 < endpoint.txLength then endpoint.txBytes.toList.take endpoint.txLength.toNat else []

end WirePeripheralEndpoint

/-- A callback of `Wire` or a call of the sketch. -/
inductive WireOp where
  /-- A controller writes these bytes. -/
  | receive (write : List UInt8)
  | request
  | publish (frame : Frame)
  | poll (frame : Frame) (error : Option DecodeError)
  deriving DecidableEq, Repr

/-- What a step shows. -/
inductive WireReply where
  | received
  | requested (bytes : List UInt8)
  | published (accepted : Bool)
  | polled (result : PollResult)
  deriving DecidableEq, Repr

/-- One atomic step. -/
def WirePeripheralEndpoint.step (endpoint : WirePeripheralEndpoint) :
    WireOp → WirePeripheralEndpoint × WireReply
  | .receive write => (endpoint.receiveFromIsr write.length write, .received)
  | .request => (endpoint, .requested endpoint.requestFromIsr)
  | .publish frame => ((endpoint.publish frame).1, .published (endpoint.publish frame).2)
  | .poll frame error => ((endpoint.poll frame error).1, .polled (endpoint.poll frame error).2)

/-- The endpoint as a machine over its atomic steps. -/
def wirePeripheralEndpoint : Mealy WirePeripheralEndpoint WireOp WireReply where
  start := {}
  step := WirePeripheralEndpoint.step

/-- The endpoint after a run of atomic steps. -/
def wireEndpointAfter (ops : List WireOp) : WirePeripheralEndpoint :=
  wirePeripheralEndpoint.run wirePeripheralEndpoint.start ops

theorem wireEndpointAfter_concat (ops : List WireOp) (op : WireOp) :
    wireEndpointAfter (ops ++ [op]) = ((wireEndpointAfter ops).step op).1 :=
  Mealy.run_concat _ _ _ _

end PicoMesh
