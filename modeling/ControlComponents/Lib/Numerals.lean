/-
Decimal numerals, and what `std::from_chars` of C++ makes of a text for any integer type.

`from_chars` reads the number that the text begins with and says where it ends. Only a signed type has a sign, a minus.

- `Numeral`: the grammar, with the number that is denoted.
- `denotes_iff`: a text is a numeral that fits the type iff `from_chars` reads it to its end.
-/
import ControlComponents.Lib.Format

namespace ControlComponents.Lib.Numerals

open ControlComponents.Lib.Format

/-- an integer type -/
structure IntType where
  signed : Bool
  width : ℕ
deriving DecidableEq

namespace IntType

def unsigned (width : ℕ) : IntType := ⟨false, width⟩

/-- `int` of 32 bits -/
def int : IntType := ⟨true, 32⟩

def least (t : IntType) : ℤ := if t.signed then -2 ^ (t.width - 1) else 0

def greatest (t : IntType) : ℤ := if t.signed then 2 ^ (t.width - 1) - 1 else 2 ^ t.width - 1

/-- the number is one of the type -/
def Fits (t : IntType) (n : ℤ) : Prop := t.least ≤ n ∧ n ≤ t.greatest

instance (t : IntType) (n : ℤ) : Decidable (t.Fits n) := by
  unfold Fits; infer_instance

end IntType

/-- `-` -/
def minus : BitVec 8 := 45#8

/-- whether there is a sign, and the text behind it -/
def fromSign (t : IntType) : List (BitVec 8) → Bool × List (BitVec 8)
  | [] => (false, [])
  | c :: text => if t.signed ∧ c = minus then (true, text) else (false, c :: text)

/-- the number of digits behind a sign or none -/
def signed (negative : Bool) (digits : List (BitVec 8)) : ℤ := if negative then -value digits else value digits

/-- the number that begins behind the sign and the text behind it -/
def fromDigits (t : IntType) (negative : Bool) (text : List (BitVec 8)) : Option (ℤ × List (BitVec 8)) :=
  let digits := text.takeWhile isDigit
  if digits = [] ∨ ¬ t.Fits (signed negative digits) then none
  else some (signed negative digits, text.dropWhile isDigit)

/-- the number and the text behind it; `none` if the text does not begin with a numeral that fits -/
def fromChars (t : IntType) (text : List (BitVec 8)) : Option (ℤ × List (BitVec 8)) :=
  fromDigits t (fromSign t text).1 (fromSign t text).2

/-- the numerals of a type, with the numbers they denote -/
inductive Numeral (t : IntType) : List (BitVec 8) → ℤ → Prop
  | plain (digits : List (BitVec 8)) : digits ≠ [] → (∀ c ∈ digits, isDigit c = true) → Numeral t digits (value digits)
  | negative (digits : List (BitVec 8)) : t.signed = true → digits ≠ [] → (∀ c ∈ digits, isDigit c = true) →
      Numeral t (minus :: digits) (-(value digits))

/-- the whole text is a numeral, and its number fits the type -/
def Denotes (t : IntType) (text : List (BitVec 8)) (n : ℤ) : Prop := Numeral t text n ∧ t.Fits n

theorem fromSign_cases (t : IntType) (text : List (BitVec 8)) :
    fromSign t text = (false, text) ∨ ∃ rest, t.signed = true ∧ text = minus :: rest ∧ fromSign t text = (true, rest) := by
  cases text with
  | nil => exact .inl rfl
  | cons c rest =>
    by_cases h : t.signed = true ∧ c = minus
    · refine .inr ⟨rest, h.1, by rw [h.2], ?_⟩
      exact if_pos h
    · exact .inl (if_neg h)

/-- digits have no sign -/
theorem fromSign_digits (t : IntType) {digits : List (BitVec 8)} (h : ∀ c ∈ digits, isDigit c = true) :
    fromSign t digits = (false, digits) := by
  rcases fromSign_cases t digits with hplain | ⟨rest, -, rfl, -⟩
  · exact hplain
  · exact absurd (h minus List.mem_cons_self) (by decide)

theorem fromDigits_digits (t : IntType) (negative : Bool) {digits : List (BitVec 8)} (hne : digits ≠ [])
    (h : ∀ c ∈ digits, isDigit c = true) (hfits : t.Fits (signed negative digits)) :
    fromDigits t negative digits = some (signed negative digits, []) := by
  have htake : digits.takeWhile isDigit = digits := List.takeWhile_eq_self_iff.2 h
  have hdrop : digits.dropWhile isDigit = [] := List.dropWhile_eq_nil_iff.2 h
  unfold fromDigits
  rw [htake, hdrop]
  exact if_neg (not_or.2 ⟨hne, not_not.2 hfits⟩)

/-- what is read are digits, and the text goes on behind them -/
theorem digits_of_fromDigits {t : IntType} {negative : Bool} {text rest : List (BitVec 8)} {n : ℤ}
    (h : fromDigits t negative text = some (n, rest)) :
    ∃ digits, text = digits ++ rest ∧ digits ≠ [] ∧ (∀ c ∈ digits, isDigit c = true) ∧
      n = signed negative digits ∧ t.Fits n := by
  unfold fromDigits at h
  dsimp only at h
  by_cases hrefused : text.takeWhile isDigit = [] ∨ ¬ t.Fits (signed negative (text.takeWhile isDigit))
  · rw [if_pos hrefused] at h
    cases h
  · rw [if_neg hrefused] at h
    obtain ⟨rfl, rfl⟩ := Prod.mk.inj (Option.some.inj h)
    obtain ⟨hne, hfits⟩ := not_or.1 hrefused
    refine ⟨text.takeWhile isDigit, List.takeWhile_append_dropWhile.symm, hne, ?_, rfl, not_not.1 hfits⟩
    intro c hc
    exact List.mem_takeWhile_imp hc

theorem fromChars_of_numeral {t : IntType} {text : List (BitVec 8)} {n : ℤ} (h : Numeral t text n) (hfits : t.Fits n) :
    fromChars t text = some (n, []) := by
  cases h with
  | plain _ hne hdigits =>
    rw [fromChars, fromSign_digits t hdigits]
    exact fromDigits_digits t false hne hdigits hfits
  | negative digits hsigned hne hdigits =>
    have hsign : fromSign t (minus :: digits) = (true, digits) := if_pos ⟨hsigned, rfl⟩
    rw [fromChars, hsign]
    exact fromDigits_digits t true hne hdigits hfits

/-- what is read is a numeral, and the text goes on behind it -/
theorem numeral_of_fromChars {t : IntType} {text rest : List (BitVec 8)} {n : ℤ}
    (h : fromChars t text = some (n, rest)) :
    ∃ numeral, text = numeral ++ rest ∧ Numeral t numeral n ∧ t.Fits n := by
  rw [fromChars] at h
  rcases fromSign_cases t text with hsign | ⟨behind, hsigned, rfl, hsign⟩
  · rw [hsign] at h
    obtain ⟨digits, htext, hne, hdigits, rfl, hfits⟩ := digits_of_fromDigits h
    exact ⟨digits, htext, .plain digits hne hdigits, hfits⟩
  · rw [hsign] at h
    obtain ⟨digits, rfl, hne, hdigits, rfl, hfits⟩ := digits_of_fromDigits h
    exact ⟨minus :: digits, rfl, .negative digits hsigned hne hdigits, hfits⟩

/-- **Whole texts.** A text is a numeral that fits iff `from_chars` reads it to its end. -/
theorem denotes_iff (t : IntType) (text : List (BitVec 8)) (n : ℤ) :
    Denotes t text n ↔ fromChars t text = some (n, []) := by
  refine ⟨fun h => fromChars_of_numeral h.1 h.2, fun h => ?_⟩
  obtain ⟨numeral, htext, hnumeral, hfits⟩ := numeral_of_fromChars h
  rw [List.append_nil] at htext
  exact ⟨htext ▸ hnumeral, hfits⟩

end ControlComponents.Lib.Numerals
