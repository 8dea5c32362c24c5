/-
NUL-terminated byte strings and the `<cstring>` operations the firmware uses on them. A `CString` holds the text before
the terminator; that the text has no NUL of its own is part of the value.
-/
import Mathlib.Data.List.TakeWhile
import Mathlib.Tactic

namespace ControlComponents.Lib

/-- a NUL-terminated string: its text and that the text has no NUL -/
structure CString where
  text : List (BitVec 8)
  noNul : 0#8 ∉ text
deriving DecidableEq

namespace CString

/-- the string that starts at the beginning of a buffer -/
def ofBuffer (buf : List (BitVec 8)) : CString where
  text := buf.takeWhile (· ≠ 0#8)
  noNul h := by simpa using List.mem_takeWhile_imp h

def empty : CString := ⟨[], by simp⟩

/-- a literal; characters outside Latin-1 are truncated to a byte -/
def ofString (s : String) : CString := ofBuffer (s.toList.map fun c => BitVec.ofNat 8 c.toNat)

def strlen (s : CString) : ℕ := s.text.length

def append (s t : CString) : CString where
  text := s.text ++ t.text
  noNul h := (List.mem_append.1 h).elim s.noNul t.noNul

theorem ext {a b : CString} (h : a.text = b.text) : a = b := by
  obtain ⟨a, ha⟩ := a
  obtain ⟨b, hb⟩ := b
  cases h
  rfl

@[simp] theorem ofBuffer_text (s : CString) : ofBuffer s.text = s := by
  refine ext ?_
  simp only [ofBuffer]
  rw [List.takeWhile_eq_self_iff]
  intro b hb
  simpa using fun h : b = 0#8 => s.noNul (h ▸ hb)

/-- `strncpy` into a zeroed buffer that is longer than `n` -/
def strncpy (src : CString) (n : ℕ) : CString := ofBuffer (src.text.take n)

/-- compare at most `n` characters, the terminator counting as 0 -/
def compareUpTo : ℕ → List (BitVec 8) → List (BitVec 8) → ℤ
  | 0, _, _ => 0
  | _ + 1, [], [] => 0
  | _ + 1, [], b :: _ => -(b.toNat : ℤ)
  | _ + 1, a :: _, [] => a.toNat
  | n + 1, a :: as, b :: bs => if a = b then compareUpTo n as bs else (a.toNat : ℤ) - b.toNat

def strncmp (a b : CString) (n : ℕ) : ℤ := compareUpTo n a.text b.text

theorem compareUpTo_eq_zero_iff (as bs : List (BitVec 8)) :
    compareUpTo (min as.length bs.length) as bs = 0 ↔ as <+: bs ∨ bs <+: as := by
  induction as generalizing bs with
  | nil => simp [compareUpTo]
  | cons a as ih =>
    cases bs with
    | nil => simp [compareUpTo]
    | cons b bs =>
      have hmin : min (a :: as).length (b :: bs).length = min as.length bs.length + 1 := by
        simp only [List.length_cons]
        omega
      rw [hmin]
      simp only [compareUpTo, List.cons_prefix_cons]
      by_cases hab : a = b
      · rw [if_pos hab, ih bs]
        simp [hab]
      · have hne : a.toNat ≠ b.toNat := fun h => hab (BitVec.eq_of_toNat_eq h)
        rw [if_neg hab]
        refine ⟨?_, ?_⟩
        · intro h
          omega
        · rintro (⟨h, -⟩ | ⟨h, -⟩)
          · exact absurd h hab
          · exact absurd h.symm hab

/-- **Comparing over the shorter length** finds no difference iff one string is a prefix of the other. -/
theorem strncmp_min_eq_zero_iff (a b : CString) :
    strncmp a b (min a.strlen b.strlen) = 0 ↔ a.text <+: b.text ∨ b.text <+: a.text :=
  compareUpTo_eq_zero_iff a.text b.text

/-- the first `c` at or after position `pos`; `c` is not the terminator -/
def strchr (s : CString) (pos : ℕ) (c : BitVec 8) : Option ℕ := ((s.text.drop pos).idxOf? c).map (pos + ·)

theorem strchr_eq_none {s : CString} {pos : ℕ} {c : BitVec 8} (h : c ∉ s.text.drop pos) : s.strchr pos c = none := by
  rw [strchr, List.idxOf?_eq_none_iff.2 h]
  rfl

/-- the first `c` stands behind the longest part without one -/
theorem strchr_eq_some {s : CString} {pos : ℕ} {c : BitVec 8} {before after : List (BitVec 8)}
    (h : s.text.drop pos = before ++ c :: after) (hc : c ∉ before) : s.strchr pos c = some (pos + before.length) := by
  have hidx : (before ++ c :: after).idxOf? c = some before.length := by
    rw [List.idxOf?_eq_some_iff]
    refine ⟨by simp, by simp, ?_⟩
    intro j hj
    rw [List.getElem_append_left hj]
    intro heq
    exact hc (heq ▸ List.getElem_mem hj)
  rw [strchr, h, hidx]
  rfl

end CString

end ControlComponents.Lib
