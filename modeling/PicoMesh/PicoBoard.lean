import Mathlib.Logic.Function.Basic
import PicoMesh.PeripheralEndpoint
import PicoMesh.Transport

/-!
# Endpoints on a board (`picomesh_pico_transport.h`, `picomesh_pico_transport.cpp`)

A chip has two I2C instances, each with an interrupt.  `begin` attaches an
endpoint to an instance: it enters it into the table `endpoints_`, from which the
static handler of the instance's interrupt takes the endpoint whose `handle_irq`
it calls.  `handle_irq` works on the block of the endpoint's own `instance_`,
which is the instance of its latest `begin`.

The endpoints of a program are named by an arbitrary type.
-/

namespace PicoMesh

/-- An event is raised in a block. -/
def I2cHw.raise (hw : I2cHw) : IrqEvent → I2cHw
  | .rxFull byte => { hw with rxFifo := hw.rxFifo ++ [byte] }
  | .rdReq => { hw with rdReq := true }
  | .stopDet => { hw with stopDet := true }
  | .txAbrt => { hw with txAbrt := true }
  | .rxOver => { hw with rxOver := true }

/-- An I2C instance, as far as `begin` and the handler touch it. -/
structure I2cPort where
  hw : I2cHw := {}
  /-- The address that it answers to in slave mode. -/
  slaveAddress : Option UInt8 := none
  /-- Whether its interrupt has its handler and is enabled, with the bits of `IrqEvent` unmasked. -/
  irqEnabled : Bool := false
  deriving DecidableEq, Repr

/-- An endpoint, with what the main thread does with it and its `instance_`. -/
structure BoardEndpoint where
  thread : EndpointThread := {}
  instance? : Option I2cInst := none
  deriving DecidableEq, Repr

/-- A board whose program has the endpoints `ι`. -/
structure PicoBoard (ι : Type) where
  endpoints : ι → BoardEndpoint := fun _ => {}
  /-- The table `endpoints_`. -/
  attached : I2cInst → Option ι := fun _ => none
  ports : I2cInst → I2cPort := fun _ => {}

namespace PicoBoard

variable {ι : Type} [DecidableEq ι] (board : PicoBoard ι)

/-- `begin`, and the value it returns. -/
def begin (e : ι) (instance? : Option I2cInst) (address : UInt8) : PicoBoard ι × Bool :=
  match instance? with
  | none => (board, false)
  | some inst =>
    if address > 0x7F then (board, false)
    else if board.attached inst ≠ none ∧ board.attached inst ≠ some e then (board, false)
    else
      ({ endpoints :=
          Function.update board.endpoints e { board.endpoints e with instance? := some inst }
         attached := Function.update board.attached inst (some e)
         ports := Function.update board.ports inst
          { board.ports inst with slaveAddress := some address, irqEnabled := true } }, true)

/-- `i2c0_irq_handler` and `i2c1_irq_handler`: the endpoint that is called, and the bytes that its
`handle_irq` transmits. -/
def irqHandler (inst : I2cInst) : PicoBoard ι × Option (ι × List UInt8) :=
  match board.attached inst with
  | none => (board, none)
  | some e =>
    match (board.endpoints e).instance? with
    -- there is no attached endpoint without an instance
    | none => (board, none)
    | some own =>
      let before := (board.ports own).hw
      let served := AttachedEndpoint.handleIrq
        { endpoint := (board.endpoints e).thread.endpoint, hw := before }
      let thread := { (board.endpoints e).thread with endpoint := served.endpoint }
      ({ board with
          endpoints := Function.update board.endpoints e { board.endpoints e with thread }
          ports := Function.update board.ports own { board.ports own with hw := served.hw } },
        some (e, served.hw.transmitted.drop before.transmitted.length))

end PicoBoard

/-- An atomic step: of the main thread, or an interrupt. -/
inductive BoardOp (ι : Type) where
  | begin (e : ι) (instance? : Option I2cInst) (address : UInt8)
  | beginPublish (e : ι) (frame : Frame)
  | commitPublish (e : ι)
  | poll (e : ι)
  | irq (inst : I2cInst) (event : IrqEvent)
  deriving DecidableEq, Repr

/-- What a step shows. -/
inductive BoardReply (ι : Type) where
  | begun (accepted : Bool)
  /-- A step of an endpoint, with what it shows. -/
  | called (e : ι) (op : EndpointOp) (reply : EndpointReply)
  /-- No endpoint is called. -/
  | ignored
  deriving DecidableEq, Repr

namespace PicoBoard

variable {ι : Type} [DecidableEq ι] (board : PicoBoard ι)

/-- A step of the main thread at an endpoint. -/
def call (e : ι) (op : EndpointOp) : PicoBoard ι × BoardReply ι :=
  let result := (board.endpoints e).thread.step op
  ({ board with
      endpoints :=
        Function.update board.endpoints e { board.endpoints e with thread := result.1 } },
    .called e op result.2)

/-- An interrupt.  An instance that is not in slave mode raises none. -/
def interrupt (inst : I2cInst) (event : IrqEvent) : PicoBoard ι × BoardReply ι :=
  if (board.ports inst).irqEnabled then
    let port := { board.ports inst with hw := (board.ports inst).hw.raise event }
    let raised := { board with ports := Function.update board.ports inst port }
    let result := raised.irqHandler inst
    (result.1,
      match result.2 with
      | some (e, transmitted) => .called e (.irq event) (.handled event transmitted)
      | none => .ignored)
  else (board, .ignored)

/-- One atomic step. -/
def step : BoardOp ι → PicoBoard ι × BoardReply ι
  | .begin e instance? address =>
    ((board.begin e instance? address).1, .begun (board.begin e instance? address).2)
  | .beginPublish e frame => board.call e (.beginPublish frame)
  | .commitPublish e => board.call e .commitPublish
  | .poll e => board.call e .poll
  | .irq inst event => board.interrupt inst event

end PicoBoard

/-- The board as a machine over its atomic steps. -/
def picoBoard (ι : Type) [DecidableEq ι] : Mealy (PicoBoard ι) (BoardOp ι) (BoardReply ι) where
  start := {}
  step := PicoBoard.step

end PicoMesh
