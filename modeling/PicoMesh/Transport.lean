import Mathlib.Data.Int.Notation
import PicoMesh.Frame

/-!
# Controller transports (`picomesh_pico_transport.cpp`, `wire_transport.cpp`)

A send hands its bytes to the bus and says whether all of them went out.  An I2C
controller read asks for a number of bytes and gets at most that many.  A
peripheral may pad what it sends, so both I2C `receive` functions look for a
complete frame at the start of the bytes and return its length.  The bus calls
of the Pico SDK and of Arduino's Wire library are parameters; a null pointer,
which the functions answer as they answer a length or a capacity of zero, is not
modelled apart.  A UART read takes what has arrived, up to the capacity.
-/

namespace PicoMesh

/-- The two I2C instances of the chip. -/
inductive I2cInst where
  | i2c0
  | i2c1
  deriving DecidableEq, Repr

/-- The Pico SDK's controller; `none` is a null instance. -/
structure I2cControllerTransport where
  instance? : Option I2cInst
  address : UInt8
  deriving DecidableEq, Repr

/-- Send bytes.  `writeBlocking` is `i2c_write_blocking`: for an instance, an
address and the bytes it gives the number written, negative for an error. -/
def I2cControllerTransport.send (transport : I2cControllerTransport)
    (writeBlocking : I2cInst → UInt8 → List UInt8 → ℤ) (data : List UInt8) : Bool :=
  match transport.instance? with
  | none => false
  | some inst =>
    if data.length = 0 then false
    -- the length is cast to `int`
    else decide (writeBlocking inst transport.address data = (Int32.ofNat data.length).toInt)

/-- Read up to `capacity` bytes: the bytes stored and the length returned.
`readBlocking` is `i2c_read_blocking`: for an instance, an address and a length
it gives the returned number, negative for an error, and the bytes it stored. -/
def I2cControllerTransport.receive (transport : I2cControllerTransport)
    (readBlocking : I2cInst → UInt8 → ℕ → ℤ × List UInt8) (capacity : ℕ) : List UInt8 × ℕ :=
  match transport.instance? with
  | none => ([], 0)
  | some inst =>
    if capacity = 0 then ([], 0)
    else
      let received := readBlocking inst transport.address capacity
      if received.1 ≤ 0 then ([], 0)
      else
        let count := received.1.toNat
        let destination := received.2.take count
        let frameLength := frameLengthFromPrefix destination
        (destination, if frameLength ≠ 0 then frameLength else count)

/-- Arduino's controller. -/
structure WireControllerTransport where
  address : UInt8
  deriving DecidableEq, Repr

/-- Send bytes.  `write` is how many bytes `TwoWire::write` takes into its buffer,
`endTransmission` what the transmission of those bytes to an address ends with. -/
def WireControllerTransport.send (transport : WireControllerTransport)
    (write : List UInt8 → ℕ) (endTransmission : UInt8 → List UInt8 → UInt8) (data : List UInt8) :
    Bool :=
  if data.length = 0 ∨ data.length > 255 then false
  else decide (write data = data.length) && decide (endTransmission transport.address data = 0)

/-- Read up to `capacity` bytes: the bytes stored and the length returned.
`requestFrom` is `TwoWire::requestFrom`: for an address and a number of bytes it
gives the returned number and the bytes that can then be read. -/
def WireControllerTransport.receive (transport : WireControllerTransport)
    (requestFrom : UInt8 → UInt8 → ℕ × List UInt8) (capacity : ℕ) : List UInt8 × ℕ :=
  if capacity = 0 then ([], 0)
  else
    let requested :=
      UInt8.ofNat (if capacity < kMaxEncodedFrameSize then capacity else kMaxEncodedFrameSize)
    let available := requestFrom transport.address requested
    -- the loop stops at the capacity, at the returned number or when nothing is left
    let destination := available.2.take (min capacity available.1)
    let count := destination.length
    let frameLength := frameLengthFromPrefix destination
    (destination, if frameLength ≠ 0 then frameLength else count)

/-- The two UART instances of the chip. -/
inductive UartInst where
  | uart0
  | uart1
  deriving DecidableEq, Repr

/-- The Pico SDK's UART; `none` is a null instance. -/
structure UartTransport where
  instance? : Option UartInst
  deriving DecidableEq, Repr

/-- Send bytes: the value returned, and the bytes that `uart_write_blocking` is given. -/
def UartTransport.send (transport : UartTransport) (data : List UInt8) : Bool × List UInt8 :=
  match transport.instance? with
  | none => (false, [])
  | some _ => if data.length = 0 then (false, []) else (true, data)

/-- Read up to `capacity` bytes: the bytes stored.  `readable` are those that `uart_getc` gives one
after the other as long as `uart_is_readable` holds. -/
def UartTransport.receive (transport : UartTransport) (readable : List UInt8) (capacity : ℕ) :
    List UInt8 :=
  match transport.instance? with
  | none => []
  | some _ => readable.take capacity

end PicoMesh
