/-
Bits of a byte and checksums (`ocs_algo`): `BitOps` and `CrcOps`.

- `getLsbD_setBit`: what setting or clearing one bit of a byte does to each of its bits.
- `nth_eq_getLsbD`: reading a bit.
- `packU8_eq`: two bytes side by side.
-/
import ControlComponents.Basic

namespace ControlComponents.Algo

/-! ## Model -/

namespace BitOps

/-- `unsigned` is 32 bits wide -/
def mask (pos : Byte) : BitVec 32 := 1#32 <<< pos.toNat

def umask (pos : Byte) : BitVec 32 := ~~~ mask pos

def nth (value : BitVec 32) (pos : Byte) : Byte := if mask pos &&& value ≠ 0#32 then 1 else 0

def packU8 (hi lo : Byte) : BitVec 16 := hi.setWidth 16 <<< 8 ||| lo.setWidth 16

end BitOps

/-- a byte with its `pos`-th bit set by the mask or cleared by its complement, as readers of bits store them -/
def setBit (byte : Byte) (pos : ℕ) (bit : Bool) : Byte :=
  if bit then (byte.setWidth 32 ||| BitOps.mask (BitVec.ofNat 8 pos)).setWidth 8
  else (byte.setWidth 32 &&& BitOps.umask (BitVec.ofNat 8 pos)).setWidth 8

/-- `CrcOps::BitOrder` -/
inductive BitOrder where
  /-- least significant bit first -/
  | lsb
  /-- most significant bit first -/
  | msb
deriving DecidableEq

namespace CrcOps

/-- one turn of the inner loop -/
def shift (polynomial : Byte) (order : BitOrder) (crc : Byte) : Byte :=
  match order with
  | .lsb => if crc.getLsbD 0 then (crc >>> 1) ^^^ polynomial else crc >>> 1
  | .msb => if crc.getLsbD 7 then (crc <<< 1) ^^^ polynomial else crc <<< 1

def crc8 (buf : List Byte) (initial polynomial : Byte) (order : BitOrder) : Byte :=
  buf.foldl (fun crc byte => (shift polynomial order)^[8] (crc ^^^ byte)) initial

end CrcOps

/-- the checksums of the tests of `crc_ops` -/
example : CrcOps.crc8 [0xBE#8, 0xEF#8] 0xFF#8 0x31#8 .msb = 0x92#8 ∧
    CrcOps.crc8 [0xAB#8, 0x01#8, 0x4B#8, 0x46#8, 0x7F#8, 0xFF#8, 0x05#8, 0x10#8] 0x00#8 0x8C#8 .lsb = 0x92#8 := by
  decide +kernel

/-! ## Bits -/

theorem getLsbD_mask {pos : ℕ} (hpos : pos < 32) (i : ℕ) :
    (BitOps.mask (BitVec.ofNat 8 pos)).getLsbD i = decide (i = pos) := by
  have hto : (BitVec.ofNat 8 pos).toNat = pos := by
    rw [BitVec.toNat_ofNat]
    omega
  simp only [BitOps.mask, hto, BitVec.getLsbD_shiftLeft, BitVec.getLsbD_one]
  by_cases h : i = pos
  · simp [h, hpos]
  · simp only [h, decide_false, Bool.and_eq_false_imp, Bool.and_eq_true, Bool.not_eq_true', decide_eq_true_eq,
      decide_eq_false_iff_not]
    omega

/-- setting a bit changes this bit only -/
theorem getLsbD_setBit (byte : Byte) {pos : ℕ} (hpos : pos < 8) (bit : Bool) {i : ℕ} (hi : i < 8) :
    (setBit byte pos bit).getLsbD i = if i = pos then bit else byte.getLsbD i := by
  have hpos32 : pos < 32 := by omega
  have h32 : i < 32 := by omega
  cases bit with
  | false =>
    simp only [setBit, BitOps.umask, Bool.false_eq_true, if_false, BitVec.getLsbD_setWidth, BitVec.getLsbD_and,
      BitVec.getLsbD_not, getLsbD_mask hpos32, hi, h32, decide_true, Bool.true_and]
    by_cases h : i = pos
    · simp [h]
    · simp [h]
  | true =>
    simp only [setBit, if_true, BitVec.getLsbD_setWidth, BitVec.getLsbD_or, getLsbD_mask hpos32, hi, h32, decide_true,
      Bool.true_and]
    by_cases h : i = pos
    · simp [h]
    · simp [h]

/-- a mask meets the values that have its bit -/
theorem mask_and_ne_zero (value : BitVec 32) {pos : ℕ} (hpos : pos < 32) :
    BitOps.mask (BitVec.ofNat 8 pos) &&& value ≠ 0#32 ↔ value.getLsbD pos = true := by
  refine ⟨?_, ?_⟩
  · intro hne
    by_contra hbit
    rw [Bool.not_eq_true] at hbit
    apply hne
    apply BitVec.eq_of_getLsbD_eq
    intro i _
    rw [BitVec.getLsbD_and, getLsbD_mask hpos, BitVec.getLsbD_zero]
    by_cases h : i = pos
    · simp [h, hbit]
    · simp [h]
  · intro hbit hzero
    have h := congrArg (fun v => v.getLsbD pos) hzero
    simp [BitVec.getLsbD_and, getLsbD_mask hpos, hbit] at h

theorem nth_eq_getLsbD (byte : Byte) {pos : ℕ} (hpos : pos < 8) :
    decide (BitOps.nth (byte.setWidth 32) (BitVec.ofNat 8 pos) ≠ 0) = byte.getLsbD pos := by
  have hpos32 : pos < 32 := by omega
  have hmask : BitOps.mask (BitVec.ofNat 8 pos) &&& byte.setWidth 32 ≠ 0#32 ↔ byte.getLsbD pos = true := by
    rw [mask_and_ne_zero _ hpos32, BitVec.getLsbD_setWidth, decide_eq_true hpos32, Bool.true_and]
  unfold BitOps.nth
  cases hbit : byte.getLsbD pos with
  | false =>
    rw [if_neg (fun h => by simp [hbit] at hmask; exact h hmask)]
    rfl
  | true =>
    rw [if_pos (hmask.2 hbit)]
    rfl

theorem packU8_eq (hi lo : Byte) : BitOps.packU8 hi lo = hi ++ lo := by
  apply BitVec.eq_of_getLsbD_eq
  intro i h
  simp only [BitOps.packU8, BitVec.getLsbD_or, BitVec.getLsbD_shiftLeft, BitVec.getLsbD_setWidth, BitVec.getLsbD_append, h,
    decide_true, Bool.true_and]
  by_cases hlow : i < 8
  · simp [hlow]
  · have hrest : i - 8 < 16 := by omega
    simp [hlow, hrest, BitVec.getLsbD_of_ge lo i (Nat.not_lt.1 hlow)]

end ControlComponents.Algo
