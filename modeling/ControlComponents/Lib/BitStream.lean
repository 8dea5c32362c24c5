/-
The bits of words in the order in which a serial line carries them: least significant bit first, word after word.

- `word_bits`: a word is that of its bits. `word_injective`: up to `w` bits are told apart by their word.
- `stream_injective`: buffers of the same length and the same stream are equal.
-/
import Mathlib.Tactic

namespace ControlComponents.Lib.BitStream

variable {w : ℕ}

/-- the bits of a word -/
def bits (v : BitVec w) : List Bool := (List.range w).map v.getLsbD

/-- the word of the first `w` bits; bits that are missing are 0 -/
def word (w : ℕ) (bs : List Bool) : BitVec w := (BitVec.ofBoolListLE bs).setWidth w

/-- the bits of a buffer -/
def stream (buf : List (BitVec w)) : List Bool := buf.flatMap bits

@[simp] theorem length_bits (v : BitVec w) : (bits v).length = w := by simp [bits]

theorem getLsbD_word (w : ℕ) (bs : List Bool) (i : ℕ) : (word w bs).getLsbD i = (decide (i < w) && bs.getD i false) := by
  rw [word, BitVec.getLsbD_setWidth, BitVec.getLsbD_ofBoolListLE]

/-- the first bit is the lowest one -/
theorem word_cons (w : ℕ) (bit : Bool) (bs : List Bool) : word w (bit :: bs) = word w [bit] ^^^ (word w bs <<< 1) := by
  apply BitVec.eq_of_getLsbD_eq
  intro i hi
  rw [BitVec.getLsbD_xor, BitVec.getLsbD_shiftLeft, getLsbD_word, getLsbD_word, getLsbD_word]
  cases i with
  | zero => simp [hi]
  | succ i =>
    have hrest : i < w := by omega
    simp [hi, hrest]

theorem word_injective {a b : List Bool} (hlen : a.length = b.length) (hle : a.length ≤ w) (h : word w a = word w b) :
    a = b := by
  apply List.ext_getElem hlen
  intro i ha hb
  have hbit : (word w a).getLsbD i = (word w b).getLsbD i := by rw [h]
  have hi : i < w := by omega
  rw [getLsbD_word, getLsbD_word] at hbit
  simpa [hi, ha, hb] using hbit

theorem getD_bits (v : BitVec w) (i : ℕ) : (bits v).getD i false = v.getLsbD i := by
  by_cases h : i < w
  · simp [bits, h]
  · simp [bits, h, BitVec.getLsbD_of_ge v i (not_lt.1 h)]

theorem word_bits (v : BitVec w) : word w (bits v) = v := by
  apply BitVec.eq_of_getLsbD_eq
  intro i hi
  rw [getLsbD_word, getD_bits, decide_eq_true hi, Bool.true_and]

theorem bits_injective : Function.Injective (bits : BitVec w → List Bool) :=
  Function.LeftInverse.injective word_bits

@[simp] theorem stream_nil : stream ([] : List (BitVec w)) = [] := rfl

theorem stream_cons (v : BitVec w) (buf : List (BitVec w)) : stream (v :: buf) = bits v ++ stream buf := rfl

theorem length_stream (buf : List (BitVec w)) : (stream buf).length = buf.length * w := by
  simp [stream, List.length_flatMap]

theorem stream_injective {a b : List (BitVec w)} (hlen : a.length = b.length) (h : stream a = stream b) : a = b := by
  induction a generalizing b with
  | nil => exact (List.length_eq_zero_iff.1 hlen.symm).symm
  | cons v a ih =>
    cases b with
    | nil => cases hlen
    | cons u b =>
      obtain ⟨hhead, hrest⟩ := List.append_inj h (by rw [length_bits, length_bits])
      rw [bits_injective hhead, ih (Nat.succ.inj hlen) hrest]

end ControlComponents.Lib.BitStream
