/-
`TimeOps::after` (`ocs_algo`): whether an interval has passed, for any integer type of a wrapping clock.

- `value_add`, `elapsed`: a sum and a difference of two times, as numbers; each of them wraps at most once.
- `after_forward`, `after_backward`: the order of the comparisons of the source, for a reading that is not below the start
  and for one that is.
- `after_iff_elapsed`: `after` compares the time that has passed, modulo the range of the type, with the interval.
-/
import Mathlib.Tactic

namespace ControlComponents.Algo.TimeOps

/-! ## Model -/

/-- the two kinds of integer types -/
inductive Kind where
  | unsigned
  /-- two's complement -/
  | signed
deriving DecidableEq

variable {w : ℕ}

/-- the number that `w` bits stand for -/
def Kind.value : Kind → BitVec w → ℤ
  | .unsigned, a => a.toNat
  | .signed, a => a.toInt

/-- `a < b` -/
def Kind.lt : Kind → BitVec w → BitVec w → Bool
  | .unsigned, a, b => a.ult b
  | .signed, a, b => a.slt b

/-- `a <= b` -/
def Kind.le : Kind → BitVec w → BitVec w → Bool
  | .unsigned, a, b => a.ule b
  | .signed, a, b => a.sle b

/-- `TimeOps::after`; the sum wraps around -/
def after (kind : Kind) (start now interval : BitVec w) : Bool :=
  let dest := start + interval
  if kind.lt now start then
    if kind.lt start dest then true
    else if kind.le dest now then true
    else false
  else if kind.lt now dest then false
  else if kind.lt dest start then false
  else true

/-! ## Numbers -/

theorem lt_iff (kind : Kind) (a b : BitVec w) : kind.lt a b = true ↔ kind.value a < kind.value b := by
  cases kind with
  | unsigned =>
    rw [Kind.lt, BitVec.ult_iff_lt, BitVec.lt_def]
    exact Int.ofNat_lt.symm
  | signed => exact BitVec.slt_iff_toInt_lt

theorem le_iff (kind : Kind) (a b : BitVec w) : kind.le a b = true ↔ kind.value a ≤ kind.value b := by
  cases kind with
  | unsigned =>
    rw [Kind.le, BitVec.ule_iff_le, BitVec.le_def]
    exact Int.ofNat_le.symm
  | signed => exact BitVec.sle_iff_toInt_le

/-- the least number of the type -/
def Kind.least (w : ℕ) : Kind → ℤ
  | .unsigned => 0
  | .signed => -(2 ^ w / 2)

/-- the type covers one whole turn -/
theorem value_range (kind : Kind) (a : BitVec w) :
    kind.least w ≤ kind.value a ∧ kind.value a < kind.least w + 2 ^ w := by
  cases kind with
  | unsigned =>
    have hlt : (a.toNat : ℤ) < 2 ^ w := by exact_mod_cast a.isLt
    simp only [Kind.least, Kind.value]
    omega
  | signed =>
    have hlow : -2 ^ w ≤ 2 * a.toInt := BitVec.le_two_mul_toInt
    have hhigh : 2 * a.toInt < 2 ^ w := BitVec.two_mul_toInt_lt
    simp only [Kind.least, Kind.value]
    generalize (2 : ℤ) ^ w = turn at hlow hhigh ⊢
    omega

theorem least_nonpos (kind : Kind) : kind.least w ≤ 0 := by
  cases kind with
  | unsigned => exact le_rfl
  | signed =>
    have hturn : (0 : ℤ) < 2 ^ w := by positivity
    simp only [Kind.least]
    omega

/-- a number is its bits, up to whole turns -/
theorem value_modEq (kind : Kind) (a : BitVec w) : kind.value a ≡ a.toNat [ZMOD 2 ^ w] := by
  cases kind with
  | unsigned => exact Int.ModEq.refl _
  | signed =>
    rw [Kind.value, BitVec.toInt_eq_toNat_cond]
    split_ifs with h
    · exact Int.ModEq.refl _
    · push_cast
      exact Int.modEq_iff_dvd.2 ⟨1, by ring⟩

theorem eq_or_eq_of_modEq {turn a b : ℤ} (hmod : a ≡ b [ZMOD turn]) (hlow : -turn < b - a) (hhigh : b - a < 2 * turn) :
    b = a ∨ b = a + turn := by
  obtain ⟨k, hk⟩ := Int.modEq_iff_dvd.1 hmod
  have hpos : 0 < turn := by omega
  have hk0 : -1 < k := by
    by_contra h
    have hmul : turn * k ≤ turn * -1 := Int.mul_le_mul_of_nonneg_left (by omega) hpos.le
    omega
  have hk1 : k < 2 := by
    by_contra h
    have hmul : turn * 2 ≤ turn * k := Int.mul_le_mul_of_nonneg_left (by omega) hpos.le
    omega
  obtain rfl | rfl : k = 0 ∨ k = 1 := by omega
  · left; omega
  · right; omega

/-- a sum with a positive interval wraps at most once, below the type's greatest number -/
theorem value_add (kind : Kind) (start interval : BitVec w) (hpos : 0 < kind.value interval) :
    kind.value start + kind.value interval = kind.value (start + interval) ∨
      kind.value start + kind.value interval = kind.value (start + interval) + 2 ^ w := by
  have hmod : kind.value (start + interval) ≡ kind.value start + kind.value interval [ZMOD 2 ^ w] := by
    refine (value_modEq kind _).trans ?_
    rw [BitVec.toNat_add]
    push_cast
    exact (Int.mod_modEq _ _).trans ((value_modEq kind start).symm.add (value_modEq kind interval).symm)
  have hstart := value_range kind start
  have hinterval := value_range kind interval
  have hdest := value_range kind (start + interval)
  have hleast := least_nonpos (w := w) kind
  exact eq_or_eq_of_modEq hmod (by omega) (by omega)

/-- the bits of a difference are the distance forward from the one time to the other -/
theorem elapsed (kind : Kind) (start now : BitVec w) :
    ((now - start).toNat : ℤ) =
      if kind.value now < kind.value start then kind.value now - kind.value start + 2 ^ w
      else kind.value now - kind.value start := by
  have hmod : kind.value now - kind.value start ≡ ((now - start).toNat : ℤ) [ZMOD 2 ^ w] := by
    have hsum : ((now - start + start).toNat : ℤ) ≡ (now - start).toNat + start.toNat [ZMOD 2 ^ w] := by
      rw [BitVec.toNat_add]
      push_cast
      exact Int.mod_modEq _ _
    rw [BitVec.sub_add_cancel] at hsum
    have hnow : kind.value now ≡ (now - start).toNat + start.toNat [ZMOD 2 ^ w] := (value_modEq kind now).trans hsum
    have hdiff := hnow.sub (value_modEq kind start)
    rwa [add_sub_cancel_right] at hdiff
  have hstart := value_range kind start
  have hnow := value_range kind now
  have hlt : ((now - start).toNat : ℤ) < 2 ^ w := by exact_mod_cast (now - start).isLt
  rcases eq_or_eq_of_modEq hmod (by omega) (by omega) with h | h
  · rw [if_neg (by omega), h]
  · rw [if_pos (by omega), h]

/-! ## Comparisons -/

/-- a reading that is not below the start: no turn in between -/
theorem after_forward {kind : Kind} {start now interval : BitVec w} (hpos : 0 < kind.value interval)
    (hle : kind.value start ≤ kind.value now) :
    after kind start now interval = true ↔ kind.value start + kind.value interval ≤ kind.value now := by
  have hnow := value_range kind now
  have hdest := value_range kind (start + interval)
  have hinterval := value_range kind interval
  have hleast := least_nonpos (w := w) kind
  have hadd := value_add kind start interval hpos
  have hback : ¬ kind.lt now start = true := by
    rw [lt_iff]
    omega
  unfold after
  rw [if_neg hback]
  by_cases hlate : kind.lt now (start + interval) = true
  · rw [if_pos hlate]
    rw [lt_iff] at hlate
    simp only [Bool.false_eq_true, false_iff]
    omega
  · rw [if_neg hlate]
    rw [lt_iff] at hlate
    by_cases hwrap : kind.lt (start + interval) start = true
    · -- the end of the interval is past the greatest number, the reading is not
      rw [if_pos hwrap]
      rw [lt_iff] at hwrap
      simp only [Bool.false_eq_true, false_iff]
      omega
    · rw [if_neg hwrap]
      rw [lt_iff] at hwrap
      simp only [true_iff]
      omega

/-- a reading below the start: the clock has turned once in between -/
theorem after_backward {kind : Kind} {start now interval : BitVec w} (hpos : 0 < kind.value interval)
    (hlt : kind.value now < kind.value start) :
    after kind start now interval = true ↔ kind.value start + kind.value interval ≤ kind.value now + 2 ^ w := by
  have hnow := value_range kind now
  have hdest := value_range kind (start + interval)
  have hinterval := value_range kind interval
  have hleast := least_nonpos (w := w) kind
  have hadd := value_add kind start interval hpos
  unfold after
  rw [if_pos ((lt_iff kind now start).2 hlt)]
  by_cases hahead : kind.lt start (start + interval) = true
  · -- the interval ends before the turn
    rw [if_pos hahead]
    rw [lt_iff] at hahead
    simp only [true_iff]
    omega
  · rw [if_neg hahead]
    rw [lt_iff] at hahead
    by_cases hreached : kind.le (start + interval) now = true
    · rw [if_pos hreached]
      rw [le_iff] at hreached
      simp only [true_iff]
      omega
    · rw [if_neg hreached]
      rw [le_iff] at hreached
      simp only [Bool.false_eq_true, false_iff]
      omega

/-- **Elapsed time.** In a type of any width, signed or not, a positive interval has passed iff the distance from the start
to the reading, modulo the range of the type, is at least the interval. -/
theorem after_iff_elapsed (kind : Kind) (start now interval : BitVec w) (hpos : 0 < kind.value interval) :
    after kind start now interval = true ↔ kind.value interval ≤ ((now - start).toNat : ℤ) := by
  rw [elapsed kind start now]
  by_cases hlt : kind.value now < kind.value start
  · rw [after_backward hpos hlt, if_pos hlt]
    omega
  · rw [after_forward hpos (not_lt.1 hlt), if_neg hlt]
    omega

/-- across the greatest number of a signed byte and across zero of an unsigned one -/
theorem after_iff_elapsed_turn :
    (after .signed 120#8 130#8 10#8 = true ↔ (10 : ℤ) ≤ (130#8 - 120#8).toNat) ∧
      (after .unsigned 250#8 3#8 10#8 = true ↔ (10 : ℤ) ≤ (3#8 - 250#8).toNat) :=
  ⟨after_iff_elapsed .signed 120#8 130#8 10#8 (by decide), after_iff_elapsed .unsigned 250#8 3#8 10#8 (by decide)⟩

/-- the interval has passed on the signed byte (10 of 10) and not on the unsigned one (9 of 10) -/
example : after .signed 120#8 130#8 10#8 = true ∧ after .unsigned 250#8 3#8 10#8 = false := by decide

end ControlComponents.Algo.TimeOps
