/-
Fixed-length little-endian byte strings, the memory image of an unsigned integer on the target. `ofLe` reads a byte
string of any length; `toLe n` writes the low `n` bytes of a number.
-/
import Mathlib.Tactic

namespace ControlComponents.Lib.LittleEndian

/-- the low `n` bytes of `v`, least significant first -/
def toLe : ℕ → ℕ → List (BitVec 8)
  | 0, _ => []
  | n + 1, v => BitVec.ofNat 8 v :: toLe n (v / 256)

/-- the number a little-endian byte string denotes -/
def ofLe : List (BitVec 8) → ℕ
  | [] => 0
  | b :: bs => b.toNat + 256 * ofLe bs

@[simp] theorem length_toLe (n v : ℕ) : (toLe n v).length = n := by
  induction n generalizing v with
  | zero => rfl
  | succ n ih => simp [toLe, ih]

/-- reading back what was written keeps the low `n` bytes -/
theorem ofLe_toLe (n v : ℕ) : ofLe (toLe n v) = v % 256 ^ n := by
  induction n generalizing v with
  | zero => simp [toLe, ofLe, Nat.mod_one]
  | succ n ih =>
    have h : v % 256 ^ (n + 1) = v % 256 + 256 * (v / 256 % 256 ^ n) := by
      rw [Nat.pow_succ', Nat.mod_mul]
    simp only [toLe, ofLe, ih, BitVec.toNat_ofNat, h]

/-- an `8 * n`-bit word survives the round trip through its memory image -/
theorem ofNat_ofLe_toLe {w : ℕ} (n : ℕ) (hw : w = 8 * n) (v : BitVec w) : BitVec.ofNat w (ofLe (toLe n v.toNat)) = v := by
  have hpow : 2 ^ w = 256 ^ n := by rw [hw, Nat.pow_mul]
  have hv : v.toNat < 256 ^ n := hpow ▸ v.isLt
  calc BitVec.ofNat w (ofLe (toLe n v.toNat)) = BitVec.ofNat w (v.toNat % 256 ^ n) := by rw [ofLe_toLe]
    _ = BitVec.ofNat w v.toNat := by rw [Nat.mod_eq_of_lt hv]
    _ = v := by rw [BitVec.ofNat_toNat, BitVec.setWidth_eq]

/-- an `n`-byte variable holding `old` after `bs` was copied over its first bytes -/
def overlay {w : ℕ} (n : ℕ) (old : BitVec w) (bs : List (BitVec 8)) : BitVec w :=
  BitVec.ofNat w (ofLe (bs ++ (toLe n old.toNat).drop bs.length))

/-- a full-length copy replaces the variable -/
theorem overlay_toLe {w : ℕ} (n : ℕ) (hw : w = 8 * n) (old v : BitVec w) : overlay n old (toLe n v.toNat) = v := by
  have h : (toLe n old.toNat).drop (toLe n v.toNat).length = [] := by simp
  rw [overlay, h, List.append_nil, ofNat_ofLe_toLe n hw]

theorem toLe_zero (n : ℕ) : toLe n 0 = List.replicate n 0 := by
  induction n with
  | zero => rfl
  | succ n ih => simp [toLe, ih, List.replicate_succ]

theorem ofLe_eq_zero (bs : List (BitVec 8)) (h : ∀ b ∈ bs, b = 0) : ofLe bs = 0 := by
  induction bs with
  | nil => rfl
  | cons b bs ih =>
    have hb : b = 0 := h b List.mem_cons_self
    have hbs : ofLe bs = 0 := ih fun b' hb' => h b' (List.mem_cons_of_mem _ hb')
    simp [ofLe, hb, hbs]

/-- zero bytes copied over a zero variable leave it zero -/
theorem overlay_zero {w : ℕ} (n : ℕ) (bs : List (BitVec 8)) (h : ∀ b ∈ bs, b = 0) : overlay n (0 : BitVec w) bs = 0 := by
  have hall : ∀ b ∈ bs ++ (toLe n (0 : BitVec w).toNat).drop bs.length, b = 0 := by
    intro b hb
    rcases List.mem_append.1 hb with hb | hb
    · exact h b hb
    · have hmem := List.mem_of_mem_drop hb
      have hzero : (0 : BitVec w).toNat = 0 := rfl
      rw [hzero, toLe_zero] at hmem
      exact List.eq_of_mem_replicate hmem
  rw [overlay, ofLe_eq_zero _ hall]
  rfl

theorem ofLe_append (as bs : List (BitVec 8)) : ofLe (as ++ bs) = ofLe as + 256 ^ as.length * ofLe bs := by
  induction as with
  | nil => simp [ofLe]
  | cons a as ih =>
    simp only [List.cons_append, ofLe, ih, List.length_cons, Nat.pow_succ]
    ring

theorem ofLe_lt (bs : List (BitVec 8)) : ofLe bs < 256 ^ bs.length := by
  induction bs with
  | nil => simp [ofLe]
  | cons b bs ih =>
    simp only [ofLe, List.length_cons, Nat.pow_succ]
    omega

/-- bytes copied over a zero variable give their number -/
theorem toNat_overlay_zero {w : ℕ} (n : ℕ) (hw : w = 8 * n) (bs : List (BitVec 8)) (h : bs.length ≤ n) :
    (overlay n (0 : BitVec w) bs).toNat = ofLe bs := by
  have hrest : ofLe ((toLe n (0 : BitVec w).toNat).drop bs.length) = 0 := by
    apply ofLe_eq_zero
    intro b hb
    have hzero : (0 : BitVec w).toNat = 0 := rfl
    rw [hzero, toLe_zero] at hb
    exact List.eq_of_mem_replicate (List.mem_of_mem_drop hb)
  have hlt : ofLe bs < 2 ^ w :=
    calc ofLe bs < 256 ^ bs.length := ofLe_lt bs
      _ ≤ 256 ^ n := Nat.pow_le_pow_right (by norm_num) h
      _ = 2 ^ w := by rw [hw, Nat.pow_mul]
  rw [overlay, BitVec.toNat_ofNat, ofLe_append, hrest, Nat.mul_zero, Nat.add_zero, Nat.mod_eq_of_lt hlt]

end ControlComponents.Lib.LittleEndian
