/-
Numbers in C's formatted output and input: `%u` and `%02X` of `printf`, `%lu` of `scanf` with a 32-bit `unsigned long`,
the classes of characters in the C locale, and the copy `snprintf` makes of a text.

- `scanUnsigned_decimal`: a printed number is read back, whatever stands behind it unless it is a digit.
- `hexByte_values`: the digits that are printed for a byte denote it, in either case.
- `snprintf_eq`: a text that is shorter than the buffer is copied whole.
-/
import ControlComponents.Lib.CString

namespace ControlComponents.Lib.Format

/-! ## Model -/

/-- the ASCII codes of a text -/
def ascii (cs : List Char) : List (BitVec 8) := cs.map fun c => BitVec.ofNat 8 c.toNat

/-- `%u` -/
def decimal (n : ℕ) : List (BitVec 8) := ascii (Nat.toDigits 10 n)

def isDigit (c : BitVec 8) : Bool := 48 ≤ c.toNat ∧ c.toNat ≤ 57

/-- a blank, or one of `\t`, `\n`, `\v`, `\f` and `\r` -/
def isSpace (c : BitVec 8) : Bool := c.toNat = 32 ∨ (9 ≤ c.toNat ∧ c.toNat ≤ 13)

/-- the number that decimal digits denote -/
def value (digits : List (BitVec 8)) : ℕ := digits.foldl (fun n c => 10 * n + (c.toNat - 48)) 0

/-- an optional sign and the text behind it -/
def scanSign : List (BitVec 8) → Bool × List (BitVec 8)
  | [] => (false, [])
  | c :: text => if c = 45#8 then (true, text) else if c = 43#8 then (false, text) else (false, c :: text)

/-- the result of `strtoul`; `ULONG_MAX` if it has no 32 bits -/
def toUnsignedLong (negative : Bool) (n : ℕ) : BitVec 32 :=
  if 2 ^ 32 ≤ n then BitVec.allOnes 32 else if negative then -BitVec.ofNat 32 n else BitVec.ofNat 32 n

/-- `%lu`: the number and the text behind it -/
def scanUnsigned (text : List (BitVec 8)) : Option (BitVec 32 × List (BitVec 8)) :=
  let (negative, text) := scanSign (text.dropWhile isSpace)
  let digits := text.takeWhile isDigit
  if digits = [] then none else some (toUnsignedLong negative (value digits), text.dropWhile isDigit)

/-- `n` times `%lu` with `separator` between them: the numbers that are assigned -/
def scanSeparated (separator : BitVec 8) : ℕ → List (BitVec 8) → List (BitVec 32)
  | 0, _ => []
  | n + 1, text =>
    match scanUnsigned text with
    | none => []
    | some (number, []) => [number]
    | some (number, c :: rest) => number :: if c = separator then scanSeparated separator n rest else []

/-- what `sscanf` returns: `EOF` if the text ends before the first conversion, otherwise the number of assignments -/
def scanned (text : List (BitVec 8)) (numbers : List (BitVec 32)) : ℤ :=
  if text.dropWhile isSpace = [] then -1 else numbers.length

def tolower (c : BitVec 8) : BitVec 8 := if 65 ≤ c.toNat ∧ c.toNat ≤ 90 then c + 32 else c

/-- a hexadecimal digit of either case -/
def isHex (c : BitVec 8) : Bool := isDigit c ∨ (97 ≤ (tolower c).toNat ∧ (tolower c).toNat ≤ 102)

/-- the number a hexadecimal digit denotes -/
def hexValue (c : BitVec 8) : ℕ := if isDigit c then c.toNat - 48 else (tolower c).toNat - 87

/-- the upper-case digit of a number below 16 -/
def hexDigit (n : ℕ) : BitVec 8 := BitVec.ofNat 8 (if n < 10 then 48 + n else 55 + n)

/-- `%02X` of a byte -/
def hexByte (b : BitVec 8) : List (BitVec 8) := [hexDigit (b.toNat / 16), hexDigit (b.toNat % 16)]

/-- `snprintf` of a text into a buffer: what it returns and the buffer afterwards -/
def snprintf (buf text : List (BitVec 8)) : ℤ × List (BitVec 8) :=
  let written := if buf.length = 0 then [] else text.take (buf.length - 1) ++ [0#8]
  (text.length, written ++ buf.drop written.length)

/-! ## Digits -/

theorem toNat_ascii {c : Char} (hc : c.isDigit) : (BitVec.ofNat 8 c.toNat).toNat = c.toNat := by
  have h : 48 ≤ c.toNat ∧ c.toNat ≤ 57 := Char.isDigit_iff_toNat.1 hc
  rw [BitVec.toNat_ofNat]
  omega

theorem isDigit_ascii {c : Char} (hc : c.isDigit) : isDigit (BitVec.ofNat 8 c.toNat) = true := by
  have h : 48 ≤ c.toNat ∧ c.toNat ≤ 57 := Char.isDigit_iff_toNat.1 hc
  rw [isDigit, toNat_ascii hc]
  simpa using h

theorem isDigit_of_mem_decimal {n : ℕ} {c : BitVec 8} (hc : c ∈ decimal n) : isDigit c = true := by
  obtain ⟨d, hd, rfl⟩ := List.mem_map.1 hc
  exact isDigit_ascii (Nat.isDigit_of_mem_toDigits (by norm_num) (by norm_num) hd)

theorem decimal_ne_nil (n : ℕ) : decimal n ≠ [] := by
  intro h
  exact Nat.toDigits_ne_nil (List.map_eq_nil_iff.1 h)

theorem length_decimal_le {n k : ℕ} (hk : 0 < k) (hn : n < 10 ^ k) : (decimal n).length ≤ k := by
  rw [decimal, ascii, List.length_map]
  exact (Nat.length_toDigits_le_iff (by norm_num) hk).2 hn

theorem value_ascii (cs : List Char) (h : ∀ c ∈ cs, c.isDigit) : value (ascii cs) = Nat.ofDigitChars 10 cs 0 := by
  rw [value, ascii, Nat.ofDigitChars_eq_foldl, List.foldl_map]
  refine List.foldl_ext _ _ _ ?_
  intro n c hc
  rw [toNat_ascii (h c hc)]
  rfl

/-- the digits of a number denote it -/
theorem value_decimal (n : ℕ) : value (decimal n) = n := by
  rw [decimal, value_ascii]
  · exact Nat.ofDigitChars_ten_toDigits
  · intro c hc
    exact Nat.isDigit_of_mem_toDigits (by norm_num) (by norm_num) hc

/-! ## Reading back -/

/-- a digit is neither a blank nor a sign -/
theorem scanSign_digit {c : BitVec 8} (hc : isDigit c = true) (text : List (BitVec 8)) :
    scanSign ((c :: text).dropWhile isSpace) = (false, c :: text) := by
  have h : 48 ≤ c.toNat ∧ c.toNat ≤ 57 := by simpa [isDigit] using hc
  have hspace : isSpace c = false := by
    simp only [isSpace, decide_eq_false_iff_not]
    omega
  have hminus : c ≠ 45#8 := by
    rintro rfl
    exact absurd h.1 (by decide)
  have hplus : c ≠ 43#8 := by
    rintro rfl
    exact absurd h.1 (by decide)
  simp only [List.dropWhile_cons, hspace, scanSign, if_neg hminus, if_neg hplus, Bool.false_eq_true, if_false]

/-- digits are read up to the first character that is none -/
theorem scanUnsigned_digits {digits rest : List (BitVec 8)} (hne : digits ≠ []) (hdigits : ∀ c ∈ digits, isDigit c = true)
    (hrest : ∀ c ∈ rest.head?, isDigit c = false) :
    scanUnsigned (digits ++ rest) = some (toUnsignedLong false (value digits), rest) := by
  obtain ⟨d, ds, rfl⟩ := List.exists_cons_of_ne_nil hne
  have hstop : rest.takeWhile isDigit = [] ∧ rest.dropWhile isDigit = rest := by
    cases rest with
    | nil => exact ⟨rfl, rfl⟩
    | cons c rest =>
      have hc : isDigit c = false := hrest c rfl
      simp [hc]
  have htake : ((d :: ds) ++ rest).takeWhile isDigit = d :: ds := by
    rw [List.takeWhile_append_of_pos hdigits, hstop.1, List.append_nil]
  have hdrop : ((d :: ds) ++ rest).dropWhile isDigit = rest := by
    rw [List.dropWhile_append_of_pos hdigits, hstop.2]
  have hsign := scanSign_digit (hdigits d List.mem_cons_self) (ds ++ rest)
  simp only [scanUnsigned, List.cons_append, hsign] at htake hdrop ⊢
  rw [htake, hdrop, if_neg (List.cons_ne_nil d ds)]

/-- **A printed number is read back**, whatever stands behind it unless it is a digit -/
theorem scanUnsigned_decimal {n : ℕ} (hn : n < 2 ^ 32) {rest : List (BitVec 8)}
    (hrest : ∀ c ∈ rest.head?, isDigit c = false) :
    scanUnsigned (decimal n ++ rest) = some (BitVec.ofNat 32 n, rest) := by
  rw [scanUnsigned_digits (decimal_ne_nil n) (fun c => isDigit_of_mem_decimal) hrest, value_decimal, toUnsignedLong,
    if_neg (by omega)]
  rfl

/-- the number before a separator is read, and the scan goes on behind the separator -/
theorem scanSeparated_decimal {separator : BitVec 8} (hsep : isDigit separator = false) (k : ℕ) {n : ℕ}
    (hn : n < 2 ^ 32) (text : List (BitVec 8)) :
    scanSeparated separator (k + 1) (decimal n ++ separator :: text) =
      BitVec.ofNat 32 n :: scanSeparated separator k text := by
  have hrest : ∀ c ∈ (separator :: text).head?, isDigit c = false := by
    rintro c hc
    cases hc
    exact hsep
  rw [scanSeparated, scanUnsigned_decimal hn hrest]
  exact congrArg _ (if_pos rfl)

/-- the last number of a format may stand before anything but a digit -/
theorem scanSeparated_last {separator : BitVec 8} {n : ℕ} (hn : n < 2 ^ 32) {rest : List (BitVec 8)}
    (hrest : ∀ c ∈ rest.head?, isDigit c = false) :
    scanSeparated separator 1 (decimal n ++ rest) = [BitVec.ofNat 32 n] := by
  rw [scanSeparated, scanUnsigned_decimal hn hrest]
  cases rest with
  | nil => rfl
  | cons c rest => simp [scanSeparated]

theorem scanUnsigned_eq_none {text : List (BitVec 8)} (h : text.dropWhile isSpace = []) : scanUnsigned text = none := by
  simp [scanUnsigned, h, scanSign]

/-- `sscanf` returns the number of assignments if there is one -/
theorem scanned_eq_iff (separator : BitVec 8) (k : ℕ) (text : List (BitVec 8)) {n : ℕ} (hn : 0 < n) :
    scanned text (scanSeparated separator k text) = n ↔ (scanSeparated separator k text).length = n := by
  by_cases hend : text.dropWhile isSpace = []
  · have hnil : scanSeparated separator k text = [] := by
      cases k with
      | zero => rfl
      | succ k => rw [scanSeparated, scanUnsigned_eq_none hend]
    rw [scanned, if_pos hend, hnil, List.length_nil]
    omega
  · rw [scanned, if_neg hend]
    omega

theorem length_scanSeparated_le (separator : BitVec 8) (k : ℕ) (text : List (BitVec 8)) :
    (scanSeparated separator k text).length ≤ k := by
  induction k generalizing text with
  | zero => exact le_rfl
  | succ k ih =>
    rw [scanSeparated]
    split
    · exact Nat.zero_le _
    · exact Nat.le_add_left 1 k
    · rename_i number c rest _
      have hrest := ih rest
      split_ifs
      · simpa using hrest
      · simp

/-- a shorter format finds the first numbers of a longer one -/
theorem scanSeparated_take (separator : BitVec 8) {k n : ℕ} (hkn : k ≤ n) (text : List (BitVec 8)) :
    scanSeparated separator k text = (scanSeparated separator n text).take k := by
  induction k generalizing n text with
  | zero => simp [scanSeparated]
  | succ k ih =>
    obtain ⟨n, rfl⟩ := Nat.exists_eq_add_of_le' hkn
    rw [show n + (k + 1) = n + k + 1 from rfl, scanSeparated, scanSeparated]
    split
    · rfl
    · simp
    · rename_i number c rest _
      rw [List.take_succ_cons]
      by_cases hc : c = separator
      · rw [if_pos hc, if_pos hc, ih (Nat.le_add_left k n)]
      · rw [if_neg hc, if_neg hc, List.take_nil]

/-! ## Hexadecimal digits -/

/-- a digit stays one, with its value, when its case is changed -/
theorem isHex_of_tolower_eq {n : ℕ} (hn : n < 16) {c : BitVec 8} (h : tolower c = tolower (hexDigit n)) :
    isHex c = true ∧ hexValue c = n := by
  have hall : ∀ n : Fin 16, ∀ c : BitVec 8, tolower c = tolower (hexDigit n) → isHex c = true ∧ hexValue c = n := by
    decide +kernel
  exact hall ⟨n, hn⟩ c h

/-- **The two digits of a byte** denote it, in either case. -/
theorem hexByte_values (b : BitVec 8) {text : List (BitVec 8)} (h : text.map tolower = (hexByte b).map tolower) :
    ∃ hi lo, text = [hi, lo] ∧ isHex hi = true ∧ isHex lo = true ∧ 16 * hexValue hi + hexValue lo = b.toNat := by
  have hlen : text.length = 2 := by
    have hlen := congrArg List.length h
    simpa [hexByte] using hlen
  obtain ⟨hi, lo, rfl⟩ := List.length_eq_two.1 hlen
  simp only [hexByte, List.map_cons, List.map_nil, List.cons.injEq, and_true] at h
  obtain ⟨hhi, hhiValue⟩ := isHex_of_tolower_eq (by omega) h.1
  obtain ⟨hlo, hloValue⟩ := isHex_of_tolower_eq (by omega) h.2
  refine ⟨hi, lo, rfl, hhi, hlo, ?_⟩
  rw [hhiValue, hloValue]
  omega

/-! ## Writing to a buffer -/

/-- **A text that is shorter than the buffer is copied whole** and terminated. -/
theorem snprintf_eq {buf text : List (BitVec 8)} (h : text.length < buf.length) :
    snprintf buf text = ((text.length : ℤ), text ++ 0#8 :: buf.drop (text.length + 1)) := by
  have hpos : buf.length ≠ 0 := by omega
  have htake : text.take (buf.length - 1) = text := List.take_of_length_le (by omega)
  simp [snprintf, hpos, htake]

/-- and read from it as a string -/
theorem ofBuffer_snprintf {buf text : List (BitVec 8)} (h : text.length < buf.length) (hnul : 0#8 ∉ text) :
    (CString.ofBuffer (snprintf buf text).2).text = text := by
  rw [snprintf_eq h]
  simp only [CString.ofBuffer]
  rw [List.takeWhile_append_of_pos]
  · simp
  · intro c hc
    simpa using fun h : c = 0#8 => hnul (h ▸ hc)

end ControlComponents.Lib.Format
