import Mathlib.Data.List.Basic

/-!
# The 8-bit two's-complement checksum of the wire protocol (`checksum.cpp`)

The source passes a byte buffer as a pair `(data, length)`.  Every core
function that takes such a pair answers a null pointer exactly as it answers
a buffer of length zero, so the pair is modelled by the list of bytes it
covers, with `[]` standing for both.
-/

namespace PicoMesh

/-- The unsigned byte sum modulo 256, accumulated from the left as both loops
of the source do. -/
def byteSum (data : List UInt8) : UInt8 :=
  data.foldl (fun sum byte => sum + byte) 0

/-- Compute the protocol's two's-complement checksum byte. -/
def checksum8 (data : List UInt8) : UInt8 := 0 - byteSum data

/-- Verify a buffer that already includes its checksum byte. -/
def verifyChecksum8 (data : List UInt8) : Bool :=
  if data.length = 0 then false else byteSum data == 0

end PicoMesh
