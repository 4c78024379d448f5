import PicoMesh.Equiv.Frame
import PicoMesh.Library.BurstError

/-!
# Burst errors in encoded frames

The byte sum that the strict decoder checks is a sum of 8-bit words modulo 2^8, so it
alone detects every burst of up to eight bits, wherever it falls and in either
bit order (`burst_detected`).
-/

namespace PicoMesh

open BurstError

/-- `data'` has as many bytes as `data` and differs from it at most in the eight
consecutive bits from place `w` on, with the bits of every byte in the given
order. -/
def BurstAt (order : BitOrder) (w : ℕ) (data data' : List UInt8) : Prop :=
  Burst 8 order w (data.map UInt8.toNat) (data'.map UInt8.toNat)

theorem toNat_lt_of_mem (data : List UInt8) : ∀ x ∈ data.map UInt8.toNat, x < 2 ^ 8 := by
  intro x hx
  obtain ⟨byte, -, rfl⟩ := List.mem_map.mp hx
  exact byte.toNat_lt

/-- A burst that keeps the byte sum changes nothing. -/
theorem BurstAt.eq_of_byteSum {order : BitOrder} {w : ℕ} {data data' : List UInt8}
    (h : BurstAt order w data data') (hsum : byteSum data' = byteSum data) : data' = data := by
  have hmod : (data'.map UInt8.toNat).sum ≡ (data.map UInt8.toNat).sum [MOD 2 ^ 8] := by
    show _ % 256 = _ % 256
    rw [← toNat_byteSum, ← toNat_byteSum, hsum]
  have hwords := Burst.eq_of_sum_modEq h (toNat_lt_of_mem data) (toNat_lt_of_mem data')
    (by decide) hmod
  exact List.map_injective_iff.mpr (fun _ _ => UInt8.toNat_inj.mp) hwords

/-- **Every burst error of up to eight bits is detected.** -/
theorem burst_detected (f : Frame) (order : BitOrder) (w : ℕ) (data : List UInt8)
    (hne : data ≠ (encodeFrame f).active) (hburst : BurstAt order w (encodeFrame f).active data) :
    (decodeFrame data).ok = false := by
  rw [Bool.eq_false_iff, ne_eq, decodeFrame_ok_iff_error, decodeFrame_ok_iff]
  rintro ⟨-, hsum⟩
  exact hne (hburst.eq_of_byteSum (hsum.trans (byteSum_encodeFrame f).symm))

/-- The last bit of the sequence byte and the first bit of the length byte change. -/
theorem burst_detected_example :
    (decodeFrame [0xB7, 0x01, 0x01, 0, 0, 0x01, 0x80, 0x47]).ok = false := by
  have hbytes : (encodeFrame {}).active = [0xB7, 0x01, 0x01, 0, 0, 0, 0, 0x47] := by decide
  have hinside : ∀ p < 64, p < 44 ∨ 44 + 8 ≤ p →
      bitAt 8 .msbFirst [0xB7, 0x01, 0x01, 0, 0, 0x01, 0x80, 0x47] p =
        bitAt 8 .msbFirst [0xB7, 0x01, 0x01, 0, 0, 0, 0, 0x47] p := by decide
  refine burst_detected {} .msbFirst 44 _ ?_ ?_
  · rw [hbytes]
    decide
  · rw [hbytes]
    refine ⟨rfl, fun p hp => ?_⟩
    rcases lt_or_ge p 64 with hlt | hge
    · exact hinside p hlt hp
    · rw [bitAt, bitAt, List.getD_eq_default _ _ (by show 8 ≤ p / 8; omega),
        List.getD_eq_default _ _ (by show 8 ≤ p / 8; omega)]

end PicoMesh
