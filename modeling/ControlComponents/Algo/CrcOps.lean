/-
`CrcOps::crc8` (`ocs_algo`) as a shift register that takes the bits of the buffer in.

- `crc8_eq_feedAll`: either bit order is the register that moves down, seen from the end whose bit comes first.
- `crc8_lsb_eq_reverse`: the two bit orders are mirror images.
- `crc_append_eq_zero_iff`: a byte after the buffer leaves the register empty iff it is the checksum.
- `ErrorDetection`: what the checksum notices. `detects`: the checksums of 1-Wire and of SHT41 do.
-/
import ControlComponents.Algo.BitOps
import ControlComponents.Lib.ShiftRegister

namespace ControlComponents.Algo.CrcOps

open ControlComponents.Lib.BitStream ControlComponents.Lib.ShiftRegister

/-! ## The register -/

/-- a byte with its first bit in the given order as the lowest one -/
def lsbFirst : BitOrder → Byte → Byte
  | .lsb, byte => byte
  | .msb, byte => byte.reverse

/-- the bits of a buffer in the order in which the checksum takes them in -/
def bitStream (order : BitOrder) (buf : List Byte) : List Bool := stream (buf.map (lsbFirst order))

theorem lsbFirst_lsbFirst (order : BitOrder) (byte : Byte) : lsbFirst order (lsbFirst order byte) = byte := by
  cases order with
  | lsb => rfl
  | msb => exact BitVec.reverse_reverse_eq

theorem lsbFirst_injective (order : BitOrder) : Function.Injective (lsbFirst order) :=
  Function.LeftInverse.injective (lsbFirst_lsbFirst order)

theorem lsbFirst_xor (order : BitOrder) (a b : Byte) : lsbFirst order (a ^^^ b) = lsbFirst order a ^^^ lsbFirst order b := by
  cases order with
  | lsb => rfl
  | msb => exact reverse_xor a b

/-- one turn of the inner loop is one turn of the register -/
theorem lsbFirst_shift (polynomial : Byte) (order : BitOrder) (crc : Byte) :
    lsbFirst order (shift polynomial order crc) = turn (lsbFirst order polynomial) (lsbFirst order crc) := by
  cases order with
  | lsb => rfl
  | msb =>
    have hup : shift polynomial .msb crc = turnUp polynomial crc := rfl
    have hmirror := reverse_turn (BitVec.reverse polynomial) (BitVec.reverse crc)
    rw [BitVec.reverse_reverse_eq, BitVec.reverse_reverse_eq] at hmirror
    rw [lsbFirst, lsbFirst, lsbFirst, hup, ← hmirror, BitVec.reverse_reverse_eq]

theorem lsbFirst_iterate_shift (polynomial : Byte) (order : BitOrder) (crc : Byte) (n : ℕ) :
    lsbFirst order ((shift polynomial order)^[n] crc) =
      (turn (lsbFirst order polynomial))^[n] (lsbFirst order crc) := by
  induction n generalizing crc with
  | zero => rfl
  | succ n ih => rw [Function.iterate_succ_apply, Function.iterate_succ_apply, ih, lsbFirst_shift]

/-- one turn of the outer loop takes the bits of a byte in -/
theorem lsbFirst_byte (polynomial : Byte) (order : BitOrder) (crc byte : Byte) :
    lsbFirst order ((shift polynomial order)^[8] (crc ^^^ byte)) =
      feedAll (lsbFirst order polynomial) (lsbFirst order crc) (bits (lsbFirst order byte)) := by
  rw [feedAll_eq _ _ (length_bits _).le, word_bits, length_bits, lsbFirst_iterate_shift, lsbFirst_xor]

theorem crc8_cons (byte : Byte) (buf : List Byte) (initial polynomial : Byte) (order : BitOrder) :
    crc8 (byte :: buf) initial polynomial order =
      crc8 buf ((shift polynomial order)^[8] (initial ^^^ byte)) polynomial order := rfl

theorem crc8_concat (buf : List Byte) (byte initial polynomial : Byte) (order : BitOrder) :
    crc8 (buf ++ [byte]) initial polynomial order =
      (shift polynomial order)^[8] (crc8 buf initial polynomial order ^^^ byte) := by
  rw [crc8, crc8, List.foldl_concat]

/-- **One register.** The checksum is what the bits of the buffer leave in the register. -/
theorem crc8_eq_feedAll (buf : List Byte) (initial polynomial : Byte) (order : BitOrder) :
    lsbFirst order (crc8 buf initial polynomial order) =
      feedAll (lsbFirst order polynomial) (lsbFirst order initial) (bitStream order buf) := by
  induction buf generalizing initial with
  | nil => rfl
  | cons byte buf ih =>
    have hstream : bitStream order (byte :: buf) = bits (lsbFirst order byte) ++ bitStream order buf := rfl
    rw [crc8_cons, ih, hstream, feedAll_append, lsbFirst_byte]

/-! ## Bit orders -/

/-- **Mirror images.** Least significant bit first is most significant bit first with everything that goes in and what
comes out reversed. -/
theorem crc8_lsb_eq_reverse (buf : List Byte) (initial polynomial : Byte) :
    crc8 buf initial polynomial .lsb =
      (crc8 (buf.map BitVec.reverse) initial.reverse polynomial.reverse .msb).reverse := by
  have hbuf : bitStream .msb (buf.map BitVec.reverse) = bitStream .lsb buf := by
    have hbytes : (buf.map BitVec.reverse).map (lsbFirst .msb) = buf.map (lsbFirst .lsb) := by
      rw [List.map_map]
      exact List.map_congr_left fun byte _ => BitVec.reverse_reverse_eq
    rw [bitStream, bitStream, hbytes]
  have hlsb := crc8_eq_feedAll buf initial polynomial .lsb
  have hmsb := crc8_eq_feedAll (buf.map BitVec.reverse) initial.reverse polynomial.reverse .msb
  rw [hbuf] at hmsb
  simp only [lsbFirst, BitVec.reverse_reverse_eq] at hlsb hmsb
  rw [hlsb, hmsb]

/-! ## Error detection -/

/-- the arguments of `crc8` that a device is read with -/
structure Parameters where
  initial : Byte
  polynomial : Byte
  order : BitOrder

namespace Parameters

variable (p : Parameters)

def crc (buf : List Byte) : Byte := crc8 buf p.initial p.polynomial p.order

/-- the polynomial feeds the place that a turn leaves empty -/
def Invertible : Prop := (lsbFirst p.order p.polynomial).getLsbD 7 = true

instance : Decidable p.Invertible := by
  unfold Invertible; infer_instance

variable {p}

theorem shift_injective (h : p.Invertible) : Function.Injective (shift p.polynomial p.order) := by
  intro a b hab
  have hturn := congrArg (lsbFirst p.order) hab
  rw [lsbFirst_shift, lsbFirst_shift] at hturn
  exact lsbFirst_injective _ (turn_injective h hturn)

theorem shift_iterate_zero (n : ℕ) : (shift p.polynomial p.order)^[n] 0#8 = 0#8 := by
  have hzero : shift p.polynomial p.order 0#8 = 0#8 := by
    unfold shift
    cases p.order <;> rfl
  exact Function.iterate_fixed hzero n

/-- only the checksum empties the register -/
theorem crc_append_eq_zero_iff (h : p.Invertible) (buf : List Byte) (byte : Byte) :
    p.crc (buf ++ [byte]) = 0#8 ↔ byte = p.crc buf := by
  rw [crc, crc8_concat, ← crc]
  refine ⟨?_, ?_⟩
  · intro hempty
    rw [← shift_iterate_zero (p := p) 8] at hempty
    exact (eq_of_xor_eq_zero ((shift_injective h).iterate 8 hempty)).symm
  · rintro rfl
    rw [BitVec.xor_self, shift_iterate_zero]

theorem bitStream_injective (order : BitOrder) {a b : List Byte} (hlen : a.length = b.length)
    (h : bitStream order a = bitStream order b) : a = b := by
  have hmap := stream_injective (by rw [List.length_map, List.length_map, hlen]) h
  exact List.map_injective_iff.2 (lsbFirst_injective order) hmap

variable (p) in
/-- what the checksum notices -/
structure ErrorDetection : Prop where
  /-- buffers that differ, but only within 8 consecutive bits, have different checksums -/
  burst : ∀ a b : List Byte, a.length = b.length → a ≠ b → DifferWithin 8 (bitStream p.order a) (bitStream p.order b) →
    p.crc a ≠ p.crc b
  /-- a buffer with its checksum leaves the register empty -/
  residue : ∀ buf : List Byte, p.crc (buf ++ [p.crc buf]) = 0#8

theorem errorDetection (h : p.Invertible) : p.ErrorDetection where
  burst := by
    intro a b hlen hne hwithin hcrc
    have hstreams : (bitStream p.order a).length = (bitStream p.order b).length := by
      rw [bitStream, bitStream, length_stream, length_stream, List.length_map, List.length_map, hlen]
    have hdiffer := feedAll_ne_of_differWithin h (lsbFirst p.order p.initial) hstreams
      (fun hstream => hne (bitStream_injective p.order hlen hstream)) hwithin
    apply hdiffer
    rw [← crc8_eq_feedAll, ← crc8_eq_feedAll]
    exact congrArg (lsbFirst p.order) hcrc
  residue := fun buf => (crc_append_eq_zero_iff h buf _).2 rfl

end Parameters

/-- `onewire::calculate_crc` -/
def oneWire : Parameters := ⟨0x00#8, 0x8C#8, .lsb⟩

/-- `sht41::calculate_crc` -/
def sht41 : Parameters := ⟨0xFF#8, 0x31#8, .msb⟩

theorem oneWire_invertible : oneWire.Invertible := by decide

theorem sht41_invertible : sht41.Invertible := by decide

/-- **Error detection.** Both checksums notice every burst of at most 8 bits, and both leave the register empty. -/
theorem detects : oneWire.ErrorDetection ∧ sht41.ErrorDetection :=
  ⟨Parameters.errorDetection oneWire_invertible, Parameters.errorDetection sht41_invertible⟩

end ControlComponents.Algo.CrcOps
