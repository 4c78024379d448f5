import PicoMesh.StreamDecoder
import PicoMesh.Transport

/-!
# Frames over a UART (`picomesh_pico_transport.cpp`, `stream_decoder.cpp`)

One board sends frames with `UartTransport::send`; the other one calls
`UartTransport::receive` now and then, for any number of bytes, and feeds what it
gets to a `StreamDecoder`.  In between is the line and the receiver's FIFO, which
drops a byte that finds it full.
-/

namespace PicoMesh

/-- What lies between the two programs, and the receiver's decoder. -/
structure UartLink where
  /-- The bytes sent that have not arrived. -/
  line : List UInt8 := []
  /-- The bytes arrived that have not been read. -/
  fifo : List UInt8 := []
  decoder : StreamDecoder := {}

/-- A step of the sender, the line or the receiver. -/
inductive UartLinkOp where
  | send (frame : Frame)
  | arrive
  | receive (capacity : ℕ)
  deriving DecidableEq, Repr

namespace UartLink

/-- The transport of either board. -/
def transport : UartTransport := { instance? := some .uart0 }

/-- One step, for a FIFO of a given depth; a call of `receive` answers with what the decoder makes
of its bytes. -/
def step (depth : ℕ) (s : UartLink) : UartLinkOp → UartLink × List StreamResult
  | .send frame =>
    ({ s with line := s.line ++ (transport.send (encodeFrame frame).active).2 }, [])
  | .arrive =>
    match s.line with
    | [] => (s, [])
    | byte :: line =>
      if s.fifo.length < depth then ({ s with line, fifo := s.fifo ++ [byte] }, [])
      else ({ s with line }, [])
  | .receive capacity =>
    let bytes := transport.receive s.fifo capacity
    ({ s with
        fifo := s.fifo.drop bytes.length
        decoder := streamDecoder.run s.decoder bytes },
      streamDecoder.outputs s.decoder bytes)

end UartLink

/-- The link as a machine. -/
def uartLink (depth : ℕ) : Mealy UartLink UartLinkOp (List StreamResult) where
  start := {}
  step := UartLink.step depth

end PicoMesh
