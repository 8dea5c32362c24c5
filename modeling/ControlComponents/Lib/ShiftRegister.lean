/-
Linear feedback shift registers: a register of `w` bits that takes a stream of bits in, one bit a turn. Every turn moves
the register down by one place, and a 1 that falls out puts the polynomial back in.

- `turn_xor`: a turn is linear. `turn_injective`: it is invertible when the polynomial feeds the highest place.
- `feedAll_eq`: up to `w` bits may as well be put into the register at once and then turned through.
- `feedAll_ne_of_differWithin`: streams that differ, but only within `w` consecutive bits, leave different registers.
- `reverse_turn`: the register that moves up is the mirror image.
-/
import ControlComponents.Lib.BitStream

namespace ControlComponents.Lib.ShiftRegister

open ControlComponents.Lib.BitStream

variable {w : ℕ}

/-! ## One turn -/

/-- one turn of the register that moves down -/
def turn (polynomial register : BitVec w) : BitVec w :=
  if register.getLsbD 0 then (register >>> 1) ^^^ polynomial else register >>> 1

/-- one turn of the register that moves up -/
def turnUp (polynomial register : BitVec w) : BitVec w :=
  if register.getMsbD 0 then (register <<< 1) ^^^ polynomial else register <<< 1

theorem turn_xor (polynomial a b : BitVec w) :
    turn polynomial (a ^^^ b) = turn polynomial a ^^^ turn polynomial b := by
  have hcancel : ∀ x y : BitVec w, x ^^^ y = (x ^^^ polynomial) ^^^ (y ^^^ polynomial) := by
    intro x y
    rw [BitVec.xor_assoc, BitVec.xor_comm y, ← BitVec.xor_assoc polynomial, BitVec.xor_self, BitVec.zero_xor]
  simp only [turn, BitVec.getLsbD_xor, BitVec.ushiftRight_xor_distrib]
  cases a.getLsbD 0 with
  | false =>
    cases b.getLsbD 0 with
    | false => rfl
    | true => exact BitVec.xor_assoc _ _ _
  | true =>
    cases b.getLsbD 0 with
    | false => simp only [Bool.xor_false, if_true, Bool.false_eq_true, if_false]; ac_rfl
    | true => exact hcancel _ _

theorem turn_of_even {polynomial register : BitVec w} (h : register.getLsbD 0 = false) :
    turn polynomial register = register >>> 1 := by
  rw [turn, h]
  rfl

/-- only the empty register turns into the empty one -/
theorem turn_eq_zero {polynomial : BitVec w} (htop : polynomial.getLsbD (w - 1) = true) {register : BitVec w}
    (h : turn polynomial register = 0#w) : register = 0#w := by
  have hlow : register.getLsbD 0 = false := by
    by_contra hbit
    rw [Bool.not_eq_false] at hbit
    -- what falls out feeds the highest place, which the move has left empty
    have htopbit := congrArg (fun r => r.getLsbD (w - 1)) h
    simp only [turn, hbit, if_true, BitVec.getLsbD_xor, BitVec.getLsbD_ushiftRight, htop, BitVec.getLsbD_zero] at htopbit
    rw [BitVec.getLsbD_of_ge register (1 + (w - 1)) (by omega)] at htopbit
    cases htopbit
  rw [turn_of_even hlow] at h
  apply BitVec.eq_of_getLsbD_eq
  intro i hi
  cases i with
  | zero => rw [hlow, BitVec.getLsbD_zero]
  | succ i =>
    have hbit := congrArg (fun r => r.getLsbD i) h
    simpa [BitVec.getLsbD_ushiftRight, Nat.add_comm] using hbit

theorem eq_of_xor_eq_zero {a b : BitVec w} (h : a ^^^ b = 0#w) : a = b := by
  rw [← BitVec.xor_left_inj b, h, BitVec.xor_self]

theorem turn_injective {polynomial : BitVec w} (htop : polynomial.getLsbD (w - 1) = true) :
    Function.Injective (turn polynomial) := by
  intro a b h
  apply eq_of_xor_eq_zero
  apply turn_eq_zero htop
  rw [turn_xor, h, BitVec.xor_self]

/-! ## The mirror image -/

theorem reverse_xor (a b : BitVec w) : (a ^^^ b).reverse = a.reverse ^^^ b.reverse := by
  apply BitVec.eq_of_getLsbD_eq
  intro i _
  simp only [BitVec.getLsbD_xor, BitVec.getLsbD_reverse, BitVec.getMsbD_xor]

theorem reverse_ushiftRight_one (a : BitVec w) : (a >>> 1).reverse = a.reverse <<< 1 := by
  apply BitVec.eq_of_getLsbD_eq
  intro i hi
  rw [BitVec.getLsbD_reverse, BitVec.getLsbD_shiftLeft, BitVec.getLsbD_reverse, BitVec.getMsbD_eq_getLsbD,
    BitVec.getMsbD_eq_getLsbD, BitVec.getLsbD_ushiftRight]
  cases i with
  | zero =>
    rw [BitVec.getLsbD_of_ge a (1 + (w - 1 - 0)) (by omega)]
    simp
  | succ i =>
    have hrest : i < w := by omega
    have hplace : 1 + (w - 1 - (i + 1)) = w - 1 - i := by omega
    simp [hi, hrest, hplace]

/-- the register that moves up is the mirror image of the one that moves down -/
theorem reverse_turn (polynomial register : BitVec w) :
    (turn polynomial register).reverse = turnUp polynomial.reverse register.reverse := by
  rw [turn, turnUp, BitVec.getMsbD_reverse]
  split_ifs with h
  · rw [reverse_xor, reverse_ushiftRight_one]
  · exact reverse_ushiftRight_one register

/-! ## Streams -/

/-- a bit goes into the lowest place -/
def feed (polynomial register : BitVec w) (bit : Bool) : BitVec w := turn polynomial (register ^^^ word w [bit])

def feedAll (polynomial register : BitVec w) (bs : List Bool) : BitVec w := bs.foldl (feed polynomial) register

@[simp] theorem feedAll_nil (polynomial register : BitVec w) : feedAll polynomial register [] = register := rfl

theorem feedAll_cons (polynomial register : BitVec w) (bit : Bool) (bs : List Bool) :
    feedAll polynomial register (bit :: bs) = feedAll polynomial (feed polynomial register bit) bs := rfl

theorem feedAll_append (polynomial register : BitVec w) (a b : List Bool) :
    feedAll polynomial register (a ++ b) = feedAll polynomial (feedAll polynomial register a) b := List.foldl_append

/-- below the highest place, bits move down with the register -/
theorem turn_word {bs : List Bool} (h : bs.length < w) (polynomial : BitVec w) :
    turn polynomial (word w bs <<< 1) = word w bs := by
  have heven : (word w bs <<< 1).getLsbD 0 = false := by simp
  rw [turn_of_even heven]
  apply BitVec.eq_of_getLsbD_eq
  intro i hi
  rw [BitVec.getLsbD_ushiftRight, BitVec.getLsbD_shiftLeft, Nat.add_sub_cancel_left, getLsbD_word]
  by_cases hlast : 1 + i < w
  · simp [hlast]
  · have hout : bs.length ≤ i := by omega
    simp [hlast, List.getElem?_eq_none hout]

/-- up to `w` bits may be put in at once -/
theorem feedAll_eq (polynomial register : BitVec w) {bs : List Bool} (h : bs.length ≤ w) :
    feedAll polynomial register bs = (turn polynomial)^[bs.length] (register ^^^ word w bs) := by
  induction bs generalizing register with
  | nil =>
    have hempty : word w [] = 0#w := by
      apply BitVec.eq_of_getLsbD_eq
      intro i _
      simp [getLsbD_word]
    simp [hempty]
  | cons bit bs ih =>
    have hturn : feed polynomial register bit ^^^ word w bs = turn polynomial (register ^^^ word w (bit :: bs)) := by
      calc feed polynomial register bit ^^^ word w bs
          = turn polynomial (register ^^^ word w [bit]) ^^^ turn polynomial (word w bs <<< 1) := by
            rw [turn_word h, feed]
        _ = turn polynomial (register ^^^ word w [bit] ^^^ (word w bs <<< 1)) := (turn_xor _ _ _).symm
        _ = turn polynomial (register ^^^ word w (bit :: bs)) := by rw [BitVec.xor_assoc, ← word_cons]
    rw [feedAll_cons, ih _ (Nat.le_of_succ_le h), hturn, List.length_cons, Function.iterate_succ_apply]

/-- the same stream leaves different registers different -/
theorem feedAll_injective {polynomial : BitVec w} (htop : polynomial.getLsbD (w - 1) = true) (bs : List Bool) :
    Function.Injective fun register => feedAll polynomial register bs := by
  induction bs with
  | nil => exact fun a b h => h
  | cons bit bs ih =>
    intro a b h
    have hfeed : feed polynomial a bit = feed polynomial b bit := ih h
    exact (BitVec.xor_left_inj _).1 (turn_injective htop hfeed)

/-- from the same register, different streams that are not longer than it leave different registers -/
theorem feedAll_injective_of_length_le {polynomial : BitVec w} (htop : polynomial.getLsbD (w - 1) = true)
    (register : BitVec w) {a b : List Bool} (hlen : a.length = b.length) (hle : a.length ≤ w)
    (h : feedAll polynomial register a = feedAll polynomial register b) : a = b := by
  rw [feedAll_eq polynomial register hle, feedAll_eq polynomial register (hlen ▸ hle), ← hlen] at h
  have hwords := (turn_injective htop).iterate a.length h
  exact word_injective hlen hle ((BitVec.xor_right_inj _).1 hwords)

/-! ## Bursts -/

/-- the streams differ only within some `window` consecutive bits -/
def DifferWithin (window : ℕ) (a b : List Bool) : Prop :=
  ∃ start, ∀ i, a[i]? ≠ b[i]? → start ≤ i ∧ i < start + window

/-- **Bursts.** Streams of the same length that differ, but only within as many consecutive bits as the register has, leave
different registers. -/
theorem feedAll_ne_of_differWithin {polynomial : BitVec w} (htop : polynomial.getLsbD (w - 1) = true)
    (register : BitVec w) {a b : List Bool} (hlen : a.length = b.length) (hne : a ≠ b) (hwithin : DifferWithin w a b) :
    feedAll polynomial register a ≠ feedAll polynomial register b := by
  obtain ⟨start, hwindow⟩ := hwithin
  have hsplit : ∀ l : List Bool, l = l.take start ++ ((l.drop start).take w ++ (l.drop start).drop w) := by
    intro l
    rw [List.take_append_drop, List.take_append_drop]
  have hbefore : a.take start = b.take start := by
    apply List.ext_getElem?
    intro i
    rw [List.getElem?_take, List.getElem?_take]
    split_ifs with hi
    · by_contra h
      exact absurd (hwindow i h).1 (not_le.2 hi)
    · rfl
  have hafter : (a.drop start).drop w = (b.drop start).drop w := by
    apply List.ext_getElem?
    intro i
    rw [List.drop_drop, List.drop_drop, List.getElem?_drop, List.getElem?_drop]
    by_contra h
    have := (hwindow _ h).2
    omega
  intro h
  apply hne
  rw [hsplit a, hsplit b, feedAll_append, feedAll_append, feedAll_append, feedAll_append, hbefore, hafter] at h
  have hinside := feedAll_injective htop _ h
  have hmiddle := feedAll_injective_of_length_le htop _ (by simp [hlen]) (by simp) hinside
  rw [hsplit a, hsplit b, hbefore, hmiddle, hafter]

end ControlComponents.Lib.ShiftRegister
