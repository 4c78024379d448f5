import Mathlib.Logic.Function.Basic
import PicoMesh.WirePeripheralEndpoint

/-!
# Endpoints of a sketch (`wire_transport.h`, `wire_transport.cpp`)

The callbacks of `Wire` carry no argument that says whose they are.  `begin`
therefore enters the endpoint into the one static `active_`, from which both
callbacks take the endpoint they call, and is refused while another endpoint
stands there.  A callback works on the bus of the endpoint's own `wire_`, which
is the bus of its latest `begin`, whatever bus it was called for.

The endpoints of a sketch and the buses of its board are named by arbitrary
types.
-/

namespace PicoMesh

/-- An endpoint with its `wire_`. -/
structure BoundEndpoint (β : Type) where
  endpoint : WirePeripheralEndpoint := {}
  wire? : Option β := none
  deriving DecidableEq, Repr

/-- A bus, as far as `begin` touches it. -/
structure WireBus where
  /-- The address that it answers to. -/
  address : Option UInt8 := none
  /-- Whether `onReceive` and `onRequest` have registered the callbacks. -/
  callbacks : Bool := false
  deriving DecidableEq, Repr

/-- A board whose sketch has the endpoints `ι` and which has the buses `β`. -/
structure WireBoard (ι β : Type) where
  endpoints : ι → BoundEndpoint β := fun _ => {}
  /-- The static `active_`. -/
  active? : Option ι := none
  buses : β → WireBus := fun _ => {}

/-- A call of the sketch, or an event of a bus. -/
inductive WireBoardOp (ι β : Type) where
  | begin (e : ι) (address : UInt8) (wire : β)
  | publish (e : ι) (frame : Frame)
  | poll (e : ι) (frame : Frame) (error : Option DecodeError)
  /-- A write of `count` bytes on a bus, with what each bus then has `available`. -/
  | receive (wire : β) (count : ℕ) (available : β → List UInt8)
  | request (wire : β)

/-- What a step shows. -/
inductive WireBoardReply (ι β : Type) where
  | begun (accepted : Bool)
  /-- A call of an endpoint, with what it shows. -/
  | called (e : ι) (op : WireOp) (reply : WireReply)
  /-- A callback: the endpoint, the bus that it reads or writes, and what it shows. -/
  | calledBack (e : ι) (own : β) (op : WireOp) (reply : WireReply)
  /-- No endpoint is called. -/
  | ignored
  deriving DecidableEq, Repr

namespace WireBoard

variable {ι β : Type} [DecidableEq ι] (board : WireBoard ι β)

/-- An endpoint with its buffers changed. -/
def set (e : ι) (endpoint : WirePeripheralEndpoint) : WireBoard ι β :=
  { board with
    endpoints := Function.update board.endpoints e { board.endpoints e with endpoint } }

/-- `publish` of an endpoint. -/
def publish (e : ι) (frame : Frame) : WireBoard ι β × WireBoardReply ι β :=
  let result := (board.endpoints e).endpoint.publish frame
  (board.set e result.1, .called e (.publish frame) (.published result.2))

/-- `poll` of an endpoint. -/
def poll (e : ι) (frame : Frame) (error : Option DecodeError) :
    WireBoard ι β × WireBoardReply ι β :=
  let result := (board.endpoints e).endpoint.poll frame error
  (board.set e result.1, .called e (.poll frame error) (.polled result.2))

/-- The endpoint that a callback calls, with its bus.  There is no active endpoint without a bus. -/
def target : Option (ι × β) :=
  board.active?.bind fun e => (board.endpoints e).wire?.map fun own => (e, own)

/-- `receive_callback`: the active endpoint reads what its own bus has available. -/
def receiveCallback (count : ℕ) (available : β → List UInt8) :
    WireBoard ι β × WireBoardReply ι β :=
  match board.target with
  | none => (board, .ignored)
  | some (e, own) =>
    (board.set e ((board.endpoints e).endpoint.receiveFromIsr count (available own)),
      .calledBack e own (.receive ((available own).take count)) .received)

/-- `request_callback`: the active endpoint writes to its own bus. -/
def requestCallback : WireBoardReply ι β :=
  match board.target with
  | none => .ignored
  | some (e, own) =>
    .calledBack e own .request (.requested (board.endpoints e).endpoint.requestFromIsr)

variable [DecidableEq β]

/-- `begin`, and the value it returns. -/
def begin (e : ι) (address : UInt8) (wire : β) : WireBoard ι β × Bool :=
  if board.active? ≠ none ∧ board.active? ≠ some e then (board, false)
  else
    ({ endpoints :=
        Function.update board.endpoints e { board.endpoints e with wire? := some wire }
       active? := some e
       buses :=
        Function.update board.buses wire { address := some address, callbacks := true } }, true)

/-- One atomic step.  A bus without callbacks calls none. -/
def step : WireBoardOp ι β → WireBoard ι β × WireBoardReply ι β
  | .begin e address wire =>
    ((board.begin e address wire).1, .begun (board.begin e address wire).2)
  | .publish e frame => board.publish e frame
  | .poll e frame error => board.poll e frame error
  | .receive wire count available =>
    if (board.buses wire).callbacks then board.receiveCallback count available
    else (board, .ignored)
  | .request wire =>
    if (board.buses wire).callbacks then (board, board.requestCallback) else (board, .ignored)

end WireBoard

/-- The board as a machine over its atomic steps. -/
def wireBoard (ι β : Type) [DecidableEq ι] [DecidableEq β] :
    Mealy (WireBoard ι β) (WireBoardOp ι β) (WireBoardReply ι β) where
  start := {}
  step board op := board.step op

end PicoMesh
