/-
A device with registers on a serial bus. The master selects the device, clocks bytes in and gets as many bytes back. A
control byte with its highest bit set starts a read, which goes from register to register until the device is released; one
without it announces the value of one register. The other seven bits are the address, whose highest bit is always set.

- `exchange_writes`: pairs of control and data bytes write registers in their order.
- `exchange_take`: a transaction that breaks off at any byte has written the first registers of the list, and no other.
- `exchange_reads`: what a read gets, the first byte apart, is a row of registers; it changes no register.
-/
import Mathlib.Data.List.TakeDrop
import Mathlib.Data.BitVec
import Mathlib.Tactic.IntervalCases

namespace ControlComponents.Lib.RegisterBus

variable {σ : Type}

/-- how a device answers reads of its registers and takes writes -/
structure Registers (σ : Type) where
  read : σ → BitVec 8 → BitVec 8
  write : σ → BitVec 8 → BitVec 8 → σ

/-- what the next byte of a transaction is to the device -/
inductive Phase where
  | control
  | write (addr : BitVec 8)
  | read (addr : BitVec 8)

/-- the address in a control byte -/
def address (control : BitVec 8) : BitVec 8 := control ||| 0x80#8

/-- one byte in, one byte out -/
def clock (r : Registers σ) : Phase × σ → BitVec 8 → BitVec 8 × Phase × σ
  | (.control, s), b => (0, if b.getLsbD 7 then .read (address b) else .write (address b), s)
  | (.write addr, s), b => (0, .control, r.write s addr b)
  | (.read addr, s), _ => (r.read s addr, .read (addr + 1), s)

/-- the bytes of a transaction, one after another -/
def exchange (r : Registers σ) : Phase × σ → List (BitVec 8) → List (BitVec 8) × Phase × σ
  | d, [] => ([], d)
  | d, b :: bs =>
    let (received, d) := clock r d b
    let (rest, d) := exchange r d bs
    (received :: rest, d)

theorem exchange_nil (r : Registers σ) (d : Phase × σ) : exchange r d [] = ([], d) := rfl

theorem exchange_cons (r : Registers σ) (d : Phase × σ) (b : BitVec 8) (bs : List (BitVec 8)) :
    exchange r d (b :: bs) =
      ((clock r d b).1 :: (exchange r (clock r d b).2 bs).1, (exchange r (clock r d b).2 bs).2) := rfl

/-! ## Writes -/

/-- a list of writes as bytes -/
def writeBytes (writes : List (BitVec 8 × BitVec 8)) : List (BitVec 8) :=
  writes.flatMap fun w => [w.1 &&& 0x7F#8, w.2]

/-- the device after a list of writes -/
def writeAll (r : Registers σ) (s : σ) (writes : List (BitVec 8 × BitVec 8)) : σ :=
  writes.foldl (fun s w => r.write s w.1 w.2) s

/-- every register of the list has an address -/
def Addressable (writes : List (BitVec 8 × BitVec 8)) : Prop := ∀ w ∈ writes, w.1.getLsbD 7 = true

/-- what each write of a list keeps, the list keeps -/
theorem writeAll_preserves {r : Registers σ} {P : σ → Prop} {writes : List (BitVec 8 × BitVec 8)}
    (h : ∀ w ∈ writes, ∀ s, P s → P (r.write s w.1 w.2)) {s : σ} (hs : P s) : P (writeAll r s writes) := by
  induction writes generalizing s with
  | nil => exact hs
  | cons w writes ih =>
    have hrest : ∀ v ∈ writes, ∀ s, P s → P (r.write s v.1 v.2) := fun v hv => h v (List.mem_cons_of_mem w hv)
    exact ih hrest (h w List.mem_cons_self s hs)

theorem address_and {addr : BitVec 8} (h : addr.getLsbD 7 = true) : address (addr &&& 0x7F#8) = addr := by
  apply BitVec.eq_of_getLsbD_eq
  intro i hi
  interval_cases i <;> simp [address, h]

theorem getLsbD_and_7 (addr : BitVec 8) : (addr &&& 0x7F#8).getLsbD 7 = false := by
  simp

/-- **Writes broken off.** After the first `k` bytes of a list of writes the first `k / 2` of its registers are written. -/
theorem exchange_take (r : Registers σ) (s : σ) {writes : List (BitVec 8 × BitVec 8)} (h : Addressable writes) (k : ℕ) :
    (exchange r (.control, s) ((writeBytes writes).take k)).2.2 = writeAll r s (writes.take (k / 2)) := by
  induction writes generalizing s k with
  | nil => simp [writeBytes, writeAll, exchange_nil]
  | cons w writes ih =>
    have hw : w.1.getLsbD 7 = true := h w List.mem_cons_self
    have hrest : Addressable writes := fun v hv => h v (List.mem_cons_of_mem w hv)
    -- the control byte alone changes nothing, the pair writes one register
    match k with
    | 0 => rfl
    | 1 => rfl
    | k + 2 =>
      have hhalf : (k + 2) / 2 = k / 2 + 1 := by omega
      have hstep : exchange r (.control, s) ((writeBytes (w :: writes)).take (k + 2)) =
          (0 :: 0 :: (exchange r (.control, r.write s w.1 w.2) ((writeBytes writes).take k)).1,
            (exchange r (.control, r.write s w.1 w.2) ((writeBytes writes).take k)).2) := by
        simp only [writeBytes, List.flatMap_cons, List.cons_append, List.nil_append, List.take_succ_cons, exchange_cons,
          clock, getLsbD_and_7, Bool.false_eq_true, if_false, address_and hw]
      rw [hstep, hhalf, List.take_succ_cons]
      exact ih (r.write s w.1 w.2) hrest k

theorem length_writeBytes (writes : List (BitVec 8 × BitVec 8)) : (writeBytes writes).length = 2 * writes.length := by
  induction writes with
  | nil => rfl
  | cons w writes ih =>
    simp only [writeBytes, List.flatMap_cons, List.length_append, List.length_cons, List.length_nil] at ih ⊢
    omega

/-- **Writes** reach the registers in their order. -/
theorem exchange_writes (r : Registers σ) (s : σ) {writes : List (BitVec 8 × BitVec 8)} (h : Addressable writes) :
    (exchange r (.control, s) (writeBytes writes)).2.2 = writeAll r s writes := by
  have htake := exchange_take r s h (writeBytes writes).length
  rwa [List.take_length, length_writeBytes, Nat.mul_div_cancel_left _ Nat.two_pos, List.take_length] at htake

/-! ## Reads -/

/-- the registers from an address on -/
def row (r : Registers σ) (s : σ) : BitVec 8 → ℕ → List (BitVec 8)
  | _, 0 => []
  | addr, n + 1 => r.read s addr :: row r s (addr + 1) n

/-- a register of a row -/
theorem getD_row (r : Registers σ) (s : σ) (addr : BitVec 8) {n i : ℕ} (hi : i < n) :
    (row r s addr n).getD i 0 = r.read s (addr + BitVec.ofNat 8 i) := by
  induction n generalizing addr i with
  | zero => exact absurd hi (Nat.not_lt_zero i)
  | succ n ih =>
    cases i with
    | zero => simp [row]
    | succ i =>
      have hnext : addr + 1 + BitVec.ofNat 8 i = addr + BitVec.ofNat 8 (i + 1) := by
        rw [BitVec.add_assoc, Nat.add_comm i 1]
        congr 1
        exact (BitVec.ofNat_add 1 i).symm
      rw [row, List.getD_cons_succ, ih (addr + 1) (Nat.lt_of_succ_lt_succ hi), hnext]

/-- a read that has begun takes any bytes for its clock -/
theorem exchange_row (r : Registers σ) (s : σ) (addr : BitVec 8) (bs : List (BitVec 8)) :
    (exchange r (.read addr, s) bs).1 = row r s addr bs.length ∧ (exchange r (.read addr, s) bs).2.2 = s := by
  induction bs generalizing addr with
  | nil => exact ⟨rfl, rfl⟩
  | cons b bs ih =>
    obtain ⟨hreceived, hstate⟩ := ih (addr + 1)
    refine ⟨?_, hstate⟩
    simp only [exchange_cons, clock, hreceived, List.length_cons, row]

/-- **Reads** get the registers in their order. -/
theorem exchange_reads (r : Registers σ) (s : σ) {control : BitVec 8} (h : control.getLsbD 7 = true)
    (bs : List (BitVec 8)) :
    (exchange r (.control, s) (control :: bs)).1 = 0 :: row r s (address control) bs.length ∧
      (exchange r (.control, s) (control :: bs)).2.2 = s := by
  obtain ⟨hreceived, hstate⟩ := exchange_row r s (address control) bs
  simp only [exchange_cons, clock, h, if_true, hreceived, hstate, and_self]

/-- a read that breaks off changes nothing either -/
theorem exchange_reads_take (r : Registers σ) (s : σ) {control : BitVec 8} (h : control.getLsbD 7 = true)
    (bs : List (BitVec 8)) (k : ℕ) : (exchange r (.control, s) ((control :: bs).take k)).2.2 = s := by
  cases k with
  | zero => rfl
  | succ k => exact (exchange_reads r s h (bs.take k)).2

end ControlComponents.Lib.RegisterBus
