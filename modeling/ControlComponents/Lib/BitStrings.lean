/-
Finite lists of things that are told apart by their bits, read as the leaves of a binary trie.

- `Agree`: two things have the same bits below a position. `Conflict`: something that agrees with `a` below a position has
  the other bit there, so the path of `a` has a branch.
- `agree_of_free`: without branches in between, those that agree below the one position agree below the other.
- `SinglyBranched`: every branch has at most one thing on its side of ones. `singlyBranched_iff`: it is enough to look at
  the branches of one path that always takes the side of zeros.
-/
import Mathlib.Tactic

namespace ControlComponents.Lib.BitStrings

variable {α : Type} (bit : α → ℕ → Bool)

/-! ## Agreement -/

def Agree (n : ℕ) (a b : α) : Prop := ∀ i < n, bit a i = bit b i

instance (n : ℕ) (a b : α) : Decidable (Agree bit n a b) := by
  unfold Agree; infer_instance

variable {bit}

theorem Agree.refl (n : ℕ) (a : α) : Agree bit n a a := fun _ _ => rfl

theorem Agree.symm {n : ℕ} {a b : α} (h : Agree bit n a b) : Agree bit n b a := fun i hi => (h i hi).symm

theorem Agree.trans {n : ℕ} {a b c : α} (hab : Agree bit n a b) (hbc : Agree bit n b c) : Agree bit n a c :=
  fun i hi => (hab i hi).trans (hbc i hi)

theorem Agree.mono {m n : ℕ} (hmn : m ≤ n) {a b : α} (h : Agree bit n a b) : Agree bit m a b :=
  fun i hi => h i (Nat.lt_of_lt_of_le hi hmn)

theorem agree_zero (a b : α) : Agree bit 0 a b := fun i hi => absurd hi (Nat.not_lt_zero i)

theorem agree_succ {n : ℕ} {a b : α} : Agree bit (n + 1) a b ↔ Agree bit n a b ∧ bit a n = bit b n := by
  refine ⟨?_, ?_⟩
  · intro h
    exact ⟨h.mono (Nat.le_succ n), h n (Nat.lt_succ_self n)⟩
  · rintro ⟨h, hn⟩ i hi
    rcases Nat.lt_succ_iff_lt_or_eq.1 hi with hi | rfl
    · exact h i hi
    · exact hn

/-- where two things first disagree -/
theorem exists_first_difference {n : ℕ} {a b : α} (h : ¬ Agree bit n a b) :
    ∃ m < n, Agree bit m a b ∧ bit a m ≠ bit b m := by
  induction n with
  | zero => exact absurd (agree_zero a b) h
  | succ n ih =>
    by_cases hn : Agree bit n a b
    · exact ⟨n, Nat.lt_succ_self n, hn, fun hbit => h (agree_succ.2 ⟨hn, hbit⟩)⟩
    · obtain ⟨m, hm, hagree, hbit⟩ := ih hn
      exact ⟨m, Nat.lt_succ_of_lt hm, hagree, hbit⟩

/-! ## Branches -/

variable (bit)

/-- the path of `a` has a branch at `n` -/
def Conflict (D : List α) (a : α) (n : ℕ) : Prop := ∃ b ∈ D, Agree bit n a b ∧ bit a n ≠ bit b n

instance (D : List α) (a : α) : DecidablePred (Conflict bit D a) := fun n => by
  unfold Conflict; infer_instance

variable {bit} {D : List α}

theorem bit_eq_of_free {a b : α} {n : ℕ} (hfree : ¬ Conflict bit D a n) (hb : b ∈ D) (hab : Agree bit n a b) :
    bit a n = bit b n := by
  by_contra hbit
  exact hfree ⟨b, hb, hab, hbit⟩

/-- the branches of a path are shared by what agrees with it beyond them -/
theorem Conflict.congr {a b : α} {n : ℕ} (hab : Agree bit (n + 1) a b) (h : Conflict bit D a n) :
    Conflict bit D b n := by
  obtain ⟨c, hc, hac, hbit⟩ := h
  obtain ⟨hagree, hn⟩ := agree_succ.1 hab
  exact ⟨c, hc, hagree.symm.trans hac, fun h => hbit (hn.trans h)⟩

theorem agree_of_free {a b : α} {m n : ℕ} (hb : b ∈ D) (hab : Agree bit m a b)
    (hfree : ∀ i, m ≤ i → i < n → ¬ Conflict bit D a i) : Agree bit n a b := by
  by_contra hn
  obtain ⟨k, hk, hagree, hbit⟩ := exists_first_difference hn
  rcases Nat.lt_or_ge k m with hkm | hkm
  · exact hbit (hab k hkm)
  · exact hfree k hkm hk ⟨b, hb, hagree, hbit⟩

/-- both sides of a branch are taken by something -/
theorem Conflict.exists_bit {a : α} {n : ℕ} (ha : a ∈ D) (h : Conflict bit D a n) (value : Bool) :
    ∃ b ∈ D, Agree bit n a b ∧ bit b n = value := by
  obtain ⟨b, hb, hab, hbit⟩ := h
  by_cases hvalue : bit a n = value
  · exact ⟨a, ha, Agree.refl n a, hvalue⟩
  · refine ⟨b, hb, hab, ?_⟩
    revert hbit hvalue
    cases bit a n <;> cases bit b n <;> cases value <;> simp

/-- no branch in between, none more to count -/
theorem count_eq_of_free {p : ℕ → Prop} [DecidablePred p] {m n : ℕ} (hmn : m ≤ n) (hfree : ∀ i, m ≤ i → i < n → ¬ p i) :
    Nat.count p n = Nat.count p m := by
  apply le_antisymm
  · by_contra hlt
    obtain ⟨i, hi, hp⟩ := Nat.exists_of_count_lt_count (not_le.1 hlt)
    exact hfree i hi.1 hi.2 hp
  · exact Nat.count_monotone p hmn

/-! ## One thing on the side of ones -/

variable (bit)

/-- every branch below `L` has at most one thing on its side of ones -/
def SinglyBranched (L : ℕ) (D : List α) : Prop :=
  ∀ a ∈ D, ∀ b ∈ D, ∀ c ∈ D, ∀ n < L, Agree bit n a c → Agree bit n b c → bit a n = true → bit b n = true →
    bit c n = false → a = b

/-- a path that takes the side of zeros at each of its branches below `L` -/
structure Least (L : ℕ) (D : List α) (z : α) : Prop where
  mem : z ∈ D
  zero : ∀ n < L, Conflict bit D z n → bit z n = false

/-- at most one thing leaves the path of `z` at `n` -/
def OneLeaves (D : List α) (z : α) (n : ℕ) : Prop :=
  ∀ a ∈ D, ∀ b ∈ D, Agree bit n z a → Agree bit n z b → bit a n = true → bit b n = true → a = b

variable {bit}

theorem singlyBranched_iff {L : ℕ} {z : α} (hz : Least bit L D z) :
    SinglyBranched bit L D ↔ ∀ n < L, Conflict bit D z n → OneLeaves bit D z n := by
  refine ⟨?_, ?_⟩
  · intro h n hn hconf a ha b hb hza hzb hbita hbitb
    exact h a ha b hb z hz.mem n hn hza.symm hzb.symm hbita hbitb (hz.zero n hn hconf)
  · intro h a ha b hb c hc n hn hac hbc hbita hbitb hbitc
    by_cases hzc : Agree bit n z c
    · have hza : Agree bit n z a := hzc.trans hac.symm
      have hbitz : bit z n = false := by
        by_contra htrue
        rw [Bool.not_eq_false] at htrue
        have hconf : Conflict bit D z n := ⟨c, hc, hzc, by simp [htrue, hbitc]⟩
        rw [hz.zero n hn hconf] at htrue
        cases htrue
      exact h n hn ⟨a, ha, hza, by simp [hbitz, hbita]⟩ a ha b hb hza (hzc.trans hbc.symm) hbita hbitb
    · -- all three leave the path of `z` together, which only one thing may do
      obtain ⟨m, hm, hagree, hbit⟩ := exists_first_difference hzc
      have hconf : Conflict bit D z m := ⟨c, hc, hagree, hbit⟩
      have hzero := hz.zero m (hm.trans hn) hconf
      have hcm : bit c m = true := by
        rw [hzero] at hbit
        simpa using hbit.symm
      have hone := h m (hm.trans hn) hconf
      have heq : a = c := hone a ha c hc (hagree.trans (hac.symm.mono hm.le)) hagree ((hac m hm).trans hcm) hcm
      rw [heq, hbitc] at hbita
      cases hbita

end ControlComponents.Lib.BitStrings
