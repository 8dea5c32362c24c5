/-
Which sets of devices the scanner enumerates (`RomCodeScanner` on the ideal bus).

A search walks along the bits of the devices; where both bits are present it is at a branch. The first search takes the
side of zeros at each branch, and each later one is to take the side of ones at the last branch not done yet.

- `along_free`, `along_conflict`: one bit of a search, without a branch and at a branch.
- `new_run`, `follow_run`, `stays_run`: what is left of a search beyond the last known branch, before it, and anywhere.
- `stage_repeats`: where two devices are on the side of ones, the next search reports a device again or fails an
  assertion.
- `enumeration_iff`: the loop stops with `NoData` and reports every device once iff no branch has two devices on its side
  of ones. `enumeration_wrong` are three devices on which it never stops.
-/
import ControlComponents.Onewire.RomCodeScanner
import ControlComponents.Lib.BitStrings

namespace ControlComponents.Onewire

open ControlComponents.Algo ControlComponents.Lib.BitStrings

/-! ## Buffers -/

theorem vector_ext_bits {buf buf' : Vector Byte 8} (h : ∀ i < 64, bitAt buf i = bitAt buf' i) : buf = buf' := by
  apply Vector.ext
  intro j hj
  apply BitVec.eq_of_getLsbD_eq
  intro i hi
  have hbit := h (8 * j + i) (by omega)
  have hdiv : (8 * j + i) / 8 = j := by omega
  have hmod : (8 * j + i) % 8 = i := by omega
  simpa [bitAt, hdiv, hmod, hj] using hbit

theorem bitAt_store {buf buf' : Vector Byte 8} {n : ℕ} {bit : Bool} (h : RomCodeScanner.store buf n bit = some buf')
    (i : ℕ) (hi : i < 64) : bitAt buf' i = if i = n then bit else bitAt buf i := by
  unfold RomCodeScanner.store at h
  obtain ⟨byte, hbyte, hbuf⟩ := Option.bind_eq_some_iff.1 h
  simp only [Option.some.injEq] at hbuf
  subst hbuf
  have hmod : i % 8 < 8 := Nat.mod_lt i (by omega)
  unfold bitAt
  by_cases hsame : n / 8 = i / 8
  · have hn : n / 8 < 8 := by omega
    rw [← hsame, Vector.getElem?_setIfInBounds_self_of_lt hn, hbyte]
    simp only [Option.getD_some, getLsbD_setBit byte (Nat.mod_lt n (by omega)) bit hmod]
    by_cases heq : i = n
    · simp [heq]
    · have hne : i % 8 ≠ n % 8 := by omega
      simp [heq, hne]
  · have hne : i ≠ n := by
      intro heq
      subst heq
      exact hsame rfl
    rw [Vector.getElem?_setIfInBounds_ne hsame, if_neg hne]

/-- the first `n` bits of a code, and zeros -/
def firstBits (z : RomCode) (n : ℕ) : Vector Byte 8 :=
  .ofFn fun j => (z.bytes[j].setWidth (n - 8 * j)).setWidth 8

theorem bitAt_firstBits (z : RomCode) (n : ℕ) {i : ℕ} (hi : i < 64) :
    bitAt (firstBits z n) i = (decide (i < n) && z.bit i) := by
  have hdiv : i / 8 < 8 := by omega
  have hmod : i % 8 < 8 := Nat.mod_lt i (by omega)
  have hlt : i % 8 < n - 8 * (i / 8) ↔ i < n := by omega
  simp [RomCode.bit, bitAt, firstBits, hdiv, hmod, hlt, BitVec.getLsbD_setWidth]

theorem firstBits_zero (z : RomCode) : firstBits z 0 = RomCode.new.bytes := by
  apply vector_ext_bits
  intro i hi
  have hdiv : i / 8 < 8 := by omega
  rw [bitAt_firstBits z 0 hi]
  simp [bitAt, RomCode.new, hdiv]

theorem firstBits_full (z : RomCode) : firstBits z 64 = z.bytes := by
  apply vector_ext_bits
  intro i hi
  rw [bitAt_firstBits z 64 hi]
  simp [hi, RomCode.bit]

theorem store_firstBits {z d : RomCode} {n : ℕ} (hn : n < 64) (h : Agree RomCode.bit n z d) :
    RomCodeScanner.store (firstBits z n) n (d.bit n) = some (firstBits d (n + 1)) := by
  have hdiv : n / 8 < 8 := by omega
  obtain ⟨buf, hbuf⟩ : ∃ buf, RomCodeScanner.store (firstBits z n) n (d.bit n) = some buf := by
    simp [RomCodeScanner.store, hdiv]
  rw [hbuf, Option.some.injEq]
  apply vector_ext_bits
  intro i hi
  rw [bitAt_store hbuf i hi, bitAt_firstBits d (n + 1) hi, bitAt_firstBits z n hi]
  rcases Nat.lt_trichotomy i n with hlt | rfl | hgt
  · simp [hlt, hlt.ne, Nat.lt_succ_of_lt hlt, h i hlt]
  · simp
  · have hge : ¬ i < n := by omega
    have hge' : ¬ i < n + 1 := by omega
    simp [hge, hge', hgt.ne']

/-! ## One bit of a search -/

/-- the devices that have been selected along the first `n` bits of `z` -/
def selected (devices : List RomCode) (z : RomCode) (n : ℕ) : List RomCode :=
  devices.filter fun d => decide (Agree RomCode.bit n z d)

/-- the rest of a search that has followed the first `n` bits of `z` -/
def along (devices : List RomCode) (z : RomCode) (n : ℕ) (s : RomCodeScanner) :
    Option (StatusCode × RomCodeScanner × Vector Byte 8 × IdealBus) :=
  RomCodeScanner.scanLoop (idealBus devices) (64 - n) n s (firstBits z n) ⟨searched n, selected devices z n⟩

theorem mem_selected {devices : List RomCode} {z d : RomCode} {n : ℕ} :
    d ∈ selected devices z n ↔ d ∈ devices ∧ Agree RomCode.bit n z d := by
  simp [selected]

theorem selected_zero (devices : List RomCode) (z : RomCode) : selected devices z 0 = devices := by
  apply List.filter_eq_self.2
  intro a _
  exact decide_eq_true (agree_zero z a)

theorem selected_congr (devices : List RomCode) {z d : RomCode} {n : ℕ} (h : Agree RomCode.bit n z d) :
    selected devices z n = selected devices d n := by
  apply List.filter_congr
  intro a _
  rw [decide_eq_decide]
  exact ⟨h.symm.trans, h.trans⟩

theorem selected_filter (devices : List RomCode) {z d : RomCode} {n : ℕ} (h : Agree RomCode.bit n z d) :
    ((selected devices z n).filter fun a => a.bit n = d.bit n) = selected devices d (n + 1) := by
  rw [selected_congr devices h]
  simp only [selected, List.filter_filter]
  apply List.filter_congr
  intro a _
  rw [← Bool.decide_and, decide_eq_decide, agree_succ]
  exact ⟨fun hand => ⟨hand.2, hand.1.symm⟩, fun hand => ⟨hand.2.symm, hand.1⟩⟩

/-- the two reads tell whether there is a branch -/
theorem reads {devices : List RomCode} {z : RomCode} (hz : z ∈ devices) (n : ℕ) :
    (((selected devices z n).all fun d => d.bit n) =
        if Conflict RomCode.bit devices z n then false else z.bit n) ∧
      ((selected devices z n).all fun d => !d.bit n) =
        if Conflict RomCode.bit devices z n then false else !z.bit n := by
  have hself : z ∈ selected devices z n := mem_selected.2 ⟨hz, Agree.refl n z⟩
  by_cases hconf : Conflict RomCode.bit devices z n
  · obtain ⟨a, ha, hza, hbita⟩ := hconf.exists_bit hz false
    obtain ⟨b, hb, hzb, hbitb⟩ := hconf.exists_bit hz true
    simp only [hconf, if_true, List.all_eq_false, Bool.not_eq_true', Bool.not_eq_true]
    exact ⟨⟨a, mem_selected.2 ⟨ha, hza⟩, hbita⟩, ⟨b, mem_selected.2 ⟨hb, hzb⟩, by simp [hbitb]⟩⟩
  · have hsame (d : RomCode) (hd : d ∈ selected devices z n) : d.bit n = z.bit n := by
      obtain ⟨hmem, hagree⟩ := mem_selected.1 hd
      exact (bit_eq_of_free hconf hmem hagree).symm
    simp only [hconf, if_false]
    cases hbit : z.bit n with
    | false =>
      rw [List.all_eq_false, Bool.not_false, List.all_eq_true]
      refine ⟨⟨z, hself, by simp [hbit]⟩, ?_⟩
      intro d hd
      rw [hsame d hd, hbit, Bool.not_false]
    | true =>
      rw [List.all_eq_true, Bool.not_true, List.all_eq_false]
      refine ⟨?_, ⟨z, hself, by simp [hbit]⟩⟩
      intro d hd
      rw [hsame d hd, hbit]

/-- the bit of a search at which the next is taken from a device `d` -/
theorem along_step (devices : List RomCode) {z d : RomCode} {n : ℕ} (hn : n < 64) (hagree : Agree RomCode.bit n z d)
    (s' : RomCodeScanner) :
    ((RomCodeScanner.store (firstBits z n) n (d.bit n)).bind fun buf =>
      RomCodeScanner.scanLoop (idealBus devices) (63 - n) (n + 1) s' buf
        ⟨searched (n + 1), (selected devices z n).filter fun a => a.bit n = d.bit n⟩) = along devices d (n + 1) s' := by
  rw [store_firstBits hn hagree, selected_filter devices hagree, Option.bind_some, along, Nat.add_comm n 1,
    ← Nat.sub_sub]

/-- one turn of the loop -/
theorem along_eq {devices : List RomCode} {z : RomCode} (hz : z ∈ devices) {n : ℕ} (hn : n < 64) (s : RomCodeScanner) :
    along devices z n s =
      (if Conflict RomCode.bit devices z n then s.handleDiscrepancy (firstBits z n) n else some (z.bit n, s)).bind
        fun r => (RomCodeScanner.store (firstBits z n) n r.1).bind fun buf =>
          RomCodeScanner.scanLoop (idealBus devices) (63 - n) (n + 1) r.2 buf
            ⟨searched (n + 1), (selected devices z n).filter fun a => a.bit n = r.1⟩ := by
  obtain ⟨hone, hzero⟩ := reads hz n
  have hlen : 64 - n = (63 - n) + 1 := by omega
  have hphase : searched n = .search n := if_neg (by omega)
  have hread (A : List RomCode) : (idealBus devices).readBit ⟨.search n, A⟩ =
      (.ok, A.all fun d => d.bit n, ⟨.complement n, A⟩) := rfl
  have hcomplement (A : List RomCode) : (idealBus devices).readBit ⟨.complement n, A⟩ =
      (.ok, A.all fun d => !d.bit n, ⟨.select n, A⟩) := rfl
  have hwrite (A : List RomCode) (bit : Bool) : (idealBus devices).writeBit bit ⟨.select n, A⟩ =
      (.ok, ⟨searched (n + 1), A.filter fun d => d.bit n = bit⟩) := rfl
  rw [along, hlen, RomCodeScanner.scanLoop, hphase]
  simp only [hread, hcomplement, hwrite, hone, hzero]
  by_cases hconf : Conflict RomCode.bit devices z n
  · simp only [hconf, if_true, Bool.false_and, Bool.false_eq_true, if_false, Bool.not_false, Bool.and_self,
      Option.bind_eq_bind]
  · simp only [hconf, if_false]
    cases hbit : z.bit n <;> simp

/-- **A bit without a branch.** -/
theorem along_free {devices : List RomCode} {z : RomCode} (hz : z ∈ devices) {n : ℕ} (hn : n < 64)
    (hfree : ¬ Conflict RomCode.bit devices z n) (s : RomCodeScanner) :
    along devices z n s = along devices z (n + 1) s := by
  rw [along_eq hz hn, if_neg hfree, Option.bind_some]
  exact along_step devices hn (Agree.refl n z) s

/-- **A bit at a branch.** The search goes on along any device that has the bit chosen. -/
theorem along_conflict {devices : List RomCode} {z d : RomCode} (hz : z ∈ devices) {n : ℕ} (hn : n < 64)
    (hconf : Conflict RomCode.bit devices z n) {s s' : RomCodeScanner} (hagree : Agree RomCode.bit n z d)
    (hbit : s.handleDiscrepancy (firstBits z n) n = some (d.bit n, s')) :
    along devices z n s = along devices d (n + 1) s' := by
  rw [along_eq hz hn, if_pos hconf, hbit, Option.bind_some]
  exact along_step devices hn hagree s'

theorem along_assert {devices : List RomCode} {z : RomCode} (hz : z ∈ devices) {n : ℕ} (hn : n < 64)
    (hconf : Conflict RomCode.bit devices z n) {s : RomCodeScanner}
    (hnone : s.handleDiscrepancy (firstBits z n) n = none) : along devices z n s = none := by
  rw [along_eq hz hn, if_pos hconf, hnone, Option.bind_none]

/-- the end of a search: the code of the device followed -/
theorem along_end (devices : List RomCode) (z : RomCode) (s : RomCodeScanner) :
    along devices z 64 s = some (.ok, s, z.bytes, ⟨.idle, selected devices z 64⟩) := by
  rw [along, firstBits_full]
  rfl

/-! ## One branch -/

theorem handle_current {size : ℕ} (s : RomCodeScanner) {n : ℕ} (buf : Vector Byte size) (h : s.currDiscrepancy = n)
    (hcount : s.conflictCount ≠ 0) :
    s.handleDiscrepancy buf n = some (true,
      if n = 0 then ⟨s.finished, 0, -1, 0⟩
      else ⟨s.finished, s.prevDiscrepancy, s.prevDiscrepancy, s.conflictCount - 1⟩) := by
  unfold RomCodeScanner.handleDiscrepancy
  rw [if_pos h]
  split_ifs <;> rfl

theorem handle_new {size : ℕ} {s : RomCodeScanner} {n : ℕ} (buf : Vector Byte size) (h : s.currDiscrepancy < n) :
    s.handleDiscrepancy buf n = some (false,
      ⟨s.finished, if s.prevDiscrepancy < 0 then n else s.currDiscrepancy, n, (s.conflictCount + 1) % 2 ^ 32⟩) := by
  unfold RomCodeScanner.handleDiscrepancy
  rw [if_neg h.ne, if_pos h]

theorem handle_previous {s : RomCodeScanner} {n i : ℕ} (buf : Vector Byte 8) (h : (n : ℤ) < s.currDiscrepancy)
    (hprev : s.prevDiscrepancy = i) (hi : i < 64) :
    s.handleDiscrepancy buf n = some (bitAt buf i, { s with prevDiscrepancy := n }) := by
  have hdiv : i / 8 < 8 := by omega
  have hpos : ¬ s.prevDiscrepancy < 0 := by omega
  have hto : s.prevDiscrepancy.toNat = i := by omega
  unfold RomCodeScanner.handleDiscrepancy
  rw [if_neg h.ne', if_neg (not_lt.2 h.le), if_neg hpos, hto, Vector.getElem?_eq_getElem hdiv]
  simp only [Option.bind_eq_bind, Option.bind_some, nth_eq_getLsbD _ (Nat.mod_lt i (by omega)), bitAt,
    Vector.getElem?_eq_getElem hdiv, Option.getD_some]

theorem handle_assert {size : ℕ} {s : RomCodeScanner} {n : ℕ} (buf : Vector Byte size)
    (h : (n : ℤ) < s.currDiscrepancy) (hprev : s.prevDiscrepancy < 0) : s.handleDiscrepancy buf n = none := by
  unfold RomCodeScanner.handleDiscrepancy
  rw [if_neg h.ne', if_neg (not_lt.2 h.le), if_pos hprev]

theorem handle_finished {size : ℕ} {s s' : RomCodeScanner} {n : ℕ} {bit : Bool} {buf : Vector Byte size}
    (h : s.handleDiscrepancy buf n = some (bit, s')) : s'.finished = s.finished := by
  unfold RomCodeScanner.handleDiscrepancy at h
  split_ifs at h
  · simp only [Option.some.injEq, Prod.mk.injEq] at h
    rw [← h.2]
  · simp only [Option.some.injEq, Prod.mk.injEq] at h
    rw [← h.2]
  · simp only [Option.some.injEq, Prod.mk.injEq] at h
    rw [← h.2]
  · simp only [Option.some.injEq, Prod.mk.injEq] at h
    rw [← h.2]
  · obtain ⟨byte, -, h⟩ := Option.bind_eq_some_iff.1 h
    simp only [Option.some.injEq, Prod.mk.injEq] at h
    rw [← h.2]

/-! ## Runs -/

/-- **Anywhere.** The rest of a search stops at an assertion or ends with the code of a device it can still reach. -/
theorem stays_run {devices : List RomCode} {z : RomCode} (hz : z ∈ devices) (n : ℕ) (hn : n ≤ 64) (s : RomCodeScanner) :
    along devices z n s = none ∨ ∃ y ∈ devices, Agree RomCode.bit n z y ∧ ∃ s', s'.finished = s.finished ∧
      along devices z n s = some (.ok, s', y.bytes, ⟨.idle, selected devices y 64⟩) := by
  induction hk : 64 - n generalizing z n s with
  | zero =>
    obtain rfl : n = 64 := by omega
    exact Or.inr ⟨z, hz, Agree.refl 64 z, s, rfl, along_end devices z s⟩
  | succ k ih =>
    have hlt : n < 64 := by omega
    by_cases hconf : Conflict RomCode.bit devices z n
    · cases hhandle : s.handleDiscrepancy (firstBits z n) n with
      | none => exact Or.inl (along_assert hz hlt hconf hhandle)
      | some r =>
        obtain ⟨bit, s'⟩ := r
        obtain ⟨d, hd, hagree, rfl⟩ := hconf.exists_bit hz bit
        rw [along_conflict hz hlt hconf hagree hhandle, ← handle_finished hhandle]
        rcases ih hd (n + 1) (by omega) s' (by omega) with hnone | ⟨y, hy, hdy, hrun⟩
        · exact Or.inl hnone
        · exact Or.inr ⟨y, hy, hagree.trans (hdy.mono (Nat.le_succ n)), hrun⟩
    · rw [along_free hz hlt hconf]
      rcases ih hz (n + 1) (by omega) s (by omega) with hnone | ⟨y, hy, hzy, hrun⟩
      · exact Or.inl hnone
      · exact Or.inr ⟨y, hy, hzy.mono (Nat.le_succ n), hrun⟩

/-- the scanner after the rest of a search with a branch at `n` or later, `q` the last one: the branch before it is one of
them too, or it is the one that was the current one -/
structure NewBranch (devices : List RomCode) (y : RomCode) (n : ℕ) (s s' : RomCodeScanner) (q : ℕ) : Prop where
  ge : n ≤ q
  lt : q < 64
  curr : s'.currDiscrepancy = q
  conflict : Conflict RomCode.bit devices y q
  last : ∀ i, q < i → i < 64 → ¬ Conflict RomCode.bit devices y i
  prev : (∃ p : ℕ, n ≤ p ∧ p ≤ q ∧ s'.prevDiscrepancy = p ∧ Conflict RomCode.bit devices y p) ∨
    (0 ≤ s.prevDiscrepancy ∧ s'.prevDiscrepancy = s.currDiscrepancy)

/-- what the rest of a search does beyond the last known branch: the path of `y` takes the side of zeros, and its
branches are counted -/
structure NewRun (devices : List RomCode) (y : RomCode) (n : ℕ) (s s' : RomCodeScanner) : Prop where
  zero : ∀ i, n ≤ i → i < 64 → Conflict RomCode.bit devices y i → y.bit i = false
  finished : s'.finished = s.finished
  count : s'.conflictCount + Nat.count (Conflict RomCode.bit devices y) n =
    s.conflictCount + Nat.count (Conflict RomCode.bit devices y) 64
  branch : (s' = s ∧ ∀ i, n ≤ i → i < 64 → ¬ Conflict RomCode.bit devices y i) ∨
    ∃ q, NewBranch devices y n s s' q

/-- **Beyond the last known branch.** The search takes the side of zeros at every branch it meets and counts it. -/
theorem new_run {devices : List RomCode} {z : RomCode} (hz : z ∈ devices) (n : ℕ) (hn : n ≤ 64) (s : RomCodeScanner)
    (hcurr : s.currDiscrepancy < n) (hcount : s.conflictCount + (64 - n) < 2 ^ 32) :
    ∃ y ∈ devices, Agree RomCode.bit n z y ∧ ∃ s', NewRun devices y n s s' ∧
      along devices z n s = some (.ok, s', y.bytes, ⟨.idle, selected devices y 64⟩) := by
  induction hk : 64 - n generalizing z n s with
  | zero =>
    obtain rfl : n = 64 := by omega
    refine ⟨z, hz, Agree.refl 64 z, s, ⟨?_, rfl, rfl, Or.inl ⟨rfl, ?_⟩⟩, along_end devices z s⟩
    · intro i hge hlt
      omega
    · intro i hge hlt
      omega
  | succ k ih =>
    have hlt : n < 64 := by omega
    by_cases hconf : Conflict RomCode.bit devices z n
    · obtain ⟨d, hd, hagree, hbit⟩ := hconf.exists_bit hz false
      have hhandle := handle_new (firstBits z n) hcurr
      rw [Nat.mod_eq_of_lt (by omega), ← hbit] at hhandle
      rw [along_conflict hz hlt hconf hagree hhandle]
      obtain ⟨y, hy, hdy, s', hrun, halong⟩ := ih hd (n + 1) (by omega)
        ⟨s.finished, if s.prevDiscrepancy < 0 then n else s.currDiscrepancy, n, s.conflictCount + 1⟩
        (by push_cast; omega) (by simp only; omega) (by omega)
      have hconfy : Conflict RomCode.bit devices y n := by
        have hconfd : Conflict RomCode.bit devices d n := by
          obtain ⟨a, ha, hza, hbita⟩ := hconf.exists_bit hz true
          exact ⟨a, ha, hagree.symm.trans hza, by simp [hbit, hbita]⟩
        exact hconfd.congr hdy
      have hbity : y.bit n = false := by rw [← (agree_succ.1 hdy).2, hbit]
      refine ⟨y, hy, hagree.trans (hdy.mono (Nat.le_succ n)), s', ⟨?_, hrun.finished, ?_, Or.inr ?_⟩, halong⟩
      · intro i hge hi hconfi
        rcases Nat.eq_or_lt_of_le hge with rfl | hgt
        · exact hbity
        · exact hrun.zero i hgt hi hconfi
      · have hsucc := hrun.count
        rw [Nat.count_succ, if_pos hconfy] at hsucc
        simp only at hsucc
        omega
      · rcases hrun.branch with ⟨hsame, hfree⟩ | ⟨q, hq⟩
        · refine ⟨n, le_rfl, hlt, by rw [hsame], hconfy, fun i hi => hfree i hi, ?_⟩
          rw [hsame]
          by_cases hprev : s.prevDiscrepancy < 0
          · exact Or.inl ⟨n, le_rfl, le_rfl, if_pos hprev, hconfy⟩
          · exact Or.inr ⟨not_lt.1 hprev, if_neg hprev⟩
        · refine ⟨q, (Nat.le_succ n).trans hq.ge, hq.lt, hq.curr, hq.conflict, hq.last, Or.inl ?_⟩
          rcases hq.prev with ⟨p, hge, hle, hp⟩ | ⟨-, hp⟩
          · exact ⟨p, (Nat.le_succ n).trans hge, hle, hp⟩
          · exact ⟨n, le_rfl, (Nat.le_succ n).trans hq.ge, hp, hconfy⟩
    · rw [along_free hz hlt hconf]
      obtain ⟨y, hy, hzy, s', hrun, halong⟩ := ih hz (n + 1) (by omega) s (by push_cast; omega) (by omega) (by omega)
      have hfree : ¬ Conflict RomCode.bit devices y n := fun h => hconf (h.congr hzy.symm)
      refine ⟨y, hy, hzy.mono (Nat.le_succ n), s', ⟨?_, hrun.finished, ?_, ?_⟩, halong⟩
      · intro i hge hi hconfi
        rcases Nat.eq_or_lt_of_le hge with rfl | hgt
        · exact absurd hconfi hfree
        · exact hrun.zero i hgt hi hconfi
      · have hsucc := hrun.count
        rw [Nat.count_succ, if_neg hfree] at hsucc
        exact hsucc
      · rcases hrun.branch with ⟨hsame, hnone⟩ | ⟨q, hq⟩
        · refine Or.inl ⟨hsame, ?_⟩
          intro i hge hi
          rcases Nat.eq_or_lt_of_le hge with rfl | hgt
          · exact hfree
          · exact hnone i hgt hi
        · refine Or.inr ⟨q, (Nat.le_succ n).trans hq.ge, hq.lt, hq.curr, hq.conflict, hq.last, ?_⟩
          rcases hq.prev with ⟨p, hge, hle, hp⟩ | hp
          · exact Or.inl ⟨p, (Nat.le_succ n).trans hge, hle, hp⟩
          · exact Or.inr hp

/-- where `prev_discrepancy_` stands before bit `n` of the path of `z`: where it was, if there is no branch below `n`, and
at the last of them otherwise -/
def PrevAt (devices : List RomCode) (z : RomCode) (prev : ℤ) (n : ℕ) (prev' : ℤ) : Prop :=
  (prev' = prev ∧ ∀ i < n, ¬ Conflict RomCode.bit devices z i) ∨
    ∃ q < n, prev' = q ∧ Conflict RomCode.bit devices z q ∧ ∀ i, q < i → i < n → ¬ Conflict RomCode.bit devices z i

/-- **Before the current branch.** The search follows the path that takes the side of zeros, as long as the bit it reads
at the previous branch is not one of a one. -/
theorem follow_run {devices : List RomCode} {z : RomCode} (hz : Least RomCode.bit 64 devices z) {s : RomCodeScanner}
    {p : ℕ} (hprev : s.prevDiscrepancy = p) (hp : p < 64) (n : ℕ) (hn : n ≤ 64) (hcurr : (n : ℤ) ≤ s.currDiscrepancy)
    (hzero : p < n → z.bit p = false) :
    ∃ prev', PrevAt devices z s.prevDiscrepancy n prev' ∧
      along devices z 0 s = along devices z n { s with prevDiscrepancy := prev' } := by
  induction n with
  | zero =>
    refine ⟨s.prevDiscrepancy, Or.inl ⟨rfl, ?_⟩, rfl⟩
    intro i hi
    exact absurd hi (Nat.not_lt_zero i)
  | succ n ih =>
    have hlt : n < 64 := by omega
    obtain ⟨prev', hat, hrun⟩ := ih (by omega) (by push_cast at hcurr; omega) (fun h => hzero (by omega))
    by_cases hconf : Conflict RomCode.bit devices z n
    · have hbit : z.bit n = false := hz.zero n hlt hconf
      -- the branch read is not written yet, or it is on the path
      obtain ⟨i, hi, hilt, hread⟩ : ∃ i : ℕ, prev' = i ∧ i < 64 ∧ bitAt (firstBits z n) i = false := by
        rcases hat with ⟨hsame, -⟩ | ⟨q, hq, hprev', hconfq, -⟩
        · refine ⟨p, hsame.trans hprev, hp, ?_⟩
          rw [bitAt_firstBits z n hp]
          by_cases hpn : p < n
          · simp [hzero (by omega)]
          · simp [hpn]
        · refine ⟨q, hprev', by omega, ?_⟩
          rw [bitAt_firstBits z n (by omega), hz.zero q (by omega) hconfq, Bool.and_false]
      have hhandle : RomCodeScanner.handleDiscrepancy { s with prevDiscrepancy := prev' } (firstBits z n) n =
          some (z.bit n, { s with prevDiscrepancy := n }) := by
        rw [handle_previous (firstBits z n) (by push_cast at hcurr; simp only; omega) hi hilt, hread, hbit]
      refine ⟨n, Or.inr ⟨n, Nat.lt_succ_self n, rfl, hconf, ?_⟩, ?_⟩
      · intro j hnj hjn
        omega
      · rw [hrun, along_conflict hz.mem hlt hconf (Agree.refl n z) hhandle]
    · refine ⟨prev', ?_, by rw [hrun, along_free hz.mem hlt hconf]⟩
      rcases hat with ⟨hsame, hfree⟩ | ⟨q, hq, hprev', hconfq, hfree⟩
      · refine Or.inl ⟨hsame, ?_⟩
        intro i hi
        rcases Nat.lt_succ_iff_lt_or_eq.1 hi with hi | rfl
        · exact hfree i hi
        · exact hconf
      · refine Or.inr ⟨q, Nat.lt_succ_of_lt hq, hprev', hconfq, ?_⟩
        intro i hqi hi
        rcases Nat.lt_succ_iff_lt_or_eq.1 hi with hi | rfl
        · exact hfree i hqi hi
        · exact hconf

/-! ## Scans -/

/-- the scanner after a scan that has reported a code -/
def scanned (s : RomCodeScanner) : RomCodeScanner := if s.conflictCount = 0 then { s with finished := true } else s

theorem scan_eq {devices : List RomCode} {z : RomCode} (hz : z ∈ devices) {s : RomCodeScanner}
    (hs : s.finished = false) (b : IdealBus) :
    s.scan (idealBus devices) .new b = (along devices z 0 s).bind fun r =>
      if r.1 ≠ .ok then some (r.1, r.2.1, ⟨r.2.2.1⟩, r.2.2.2)
      else if !RomCode.valid ⟨r.2.2.1⟩ then some (.error, r.2.1, ⟨r.2.2.1⟩, r.2.2.2)
      else some (.ok, scanned r.2.1, ⟨r.2.2.1⟩, r.2.2.2) := by
  have hreset : (idealBus devices).reset b = (.ok, ⟨.command 0 0, devices⟩) := by
    have hne : devices.isEmpty = false := by
      rw [List.isEmpty_eq_false_iff]
      exact List.ne_nil_of_mem hz
    simp [idealBus, hne]
  have hcommand : (idealBus devices).writeByte RomCode.searchRom ⟨.command 0 0, devices⟩ =
      (.ok, ⟨searched 0, devices⟩) := rfl
  have hall : selected devices z 0 = devices := selected_zero devices z
  unfold RomCodeScanner.scan along
  simp only [hs, Bool.false_eq_true, if_false, hreset, hcommand, firstBits_zero, hall, Option.bind_eq_bind]
  rfl

variable {devices : List RomCode} {s s' : RomCodeScanner} {y z : RomCode} {b b' : IdealBus}

/-- the loop stops with `NoData`, and the codes reported before and by it are those of the devices, each once -/
def Completes (devices : List RomCode) (s : RomCodeScanner) (b : IdealBus) (before : List RomCode) : Prop :=
  ∃ fuel codes, scanRomCodes (idealBus devices) fuel s b = some (.noData, codes) ∧ (before ++ codes).Perm devices

theorem completes_finished (hs : s.finished = true) (before : List RomCode) :
    Completes devices s b before ↔ before.Perm devices := by
  have hscan (fuel : ℕ) : scanRomCodes (idealBus devices) (fuel + 1) s b = some (.noData, []) := by
    simp [scanRomCodes, RomCodeScanner.scan, hs]
  refine ⟨?_, ?_⟩
  · intro h
    obtain ⟨fuel, codes, hrun, hperm⟩ := h
    cases fuel with
    | zero => cases hrun
    | succ fuel =>
      rw [hscan fuel, Option.some.injEq, Prod.mk.injEq] at hrun
      rwa [← hrun.2, List.append_nil] at hperm
  · intro hperm
    exact ⟨1, [], hscan 0, by rwa [List.append_nil]⟩

theorem not_completes_of_assert (hz : z ∈ devices) (hs : s.finished = false) (hrun : along devices z 0 s = none)
    (before : List RomCode) : ¬ Completes devices s b before := by
  intro h
  obtain ⟨fuel, codes, hcodes, -⟩ := h
  cases fuel with
  | zero => cases hcodes
  | succ fuel =>
    simp only [scanRomCodes, scan_eq hz hs, hrun, Option.bind_none, Option.bind_eq_bind] at hcodes
    cases hcodes

/-- one turn of the loop -/
theorem scanRomCodes_succ (hz : z ∈ devices) (hs : s.finished = false) (hy : y.valid = true)
    (hrun : along devices z 0 s = some (.ok, s', y.bytes, b')) (b : IdealBus) (fuel : ℕ) :
    scanRomCodes (idealBus devices) (fuel + 1) s b =
      (scanRomCodes (idealBus devices) fuel (scanned s') b').map fun r => (r.1, y :: r.2) := by
  have hy' : RomCode.valid ⟨y.bytes⟩ = true := hy
  simp only [scanRomCodes, scan_eq hz hs, hrun, Option.bind_some, ne_eq, not_true_eq_false, if_false, hy', Bool.not_true,
    Bool.false_eq_true, Option.bind_eq_bind]
  cases scanRomCodes (idealBus devices) fuel (scanned s') b' <;> rfl

theorem completes_scan (hz : z ∈ devices) (hs : s.finished = false) (hy : y.valid = true)
    (hrun : along devices z 0 s = some (.ok, s', y.bytes, b')) (before : List RomCode) :
    Completes devices s b before ↔ Completes devices (scanned s') b' (before ++ [y]) := by
  have hscan := scanRomCodes_succ hz hs hy hrun b
  refine ⟨?_, ?_⟩
  · intro h
    obtain ⟨fuel, codes, hcodes, hperm⟩ := h
    cases fuel with
    | zero => cases hcodes
    | succ fuel =>
      rw [hscan fuel] at hcodes
      obtain ⟨⟨code, rest⟩, hrest, heq⟩ := Option.map_eq_some_iff.1 hcodes
      simp only [Prod.mk.injEq] at heq
      obtain ⟨rfl, rfl⟩ := heq
      exact ⟨fuel, rest, hrest, by rwa [List.append_assoc, List.singleton_append]⟩
  · intro h
    obtain ⟨fuel, codes, hcodes, hperm⟩ := h
    refine ⟨fuel + 1, y :: codes, by rw [hscan fuel, hcodes]; rfl, ?_⟩
    rwa [List.append_assoc, List.singleton_append] at hperm

/-- nothing that has been reported twice can be completed -/
theorem Completes.nodup (hnodup : devices.Nodup) {before : List RomCode} (h : Completes devices s b before) :
    before.Nodup := by
  obtain ⟨fuel, codes, -, hperm⟩ := h
  have hall : (before ++ codes).Nodup := hperm.nodup_iff.2 hnodup
  exact (List.nodup_append.1 hall).1

/-! ## Stages -/

theorem eq_of_agree {a d : RomCode} (h : Agree RomCode.bit 64 a d) : a = d := by
  obtain ⟨bytes⟩ := a
  obtain ⟨bytes'⟩ := d
  exact congrArg RomCode.mk (vector_ext_bits h)

theorem selected_free {m n : ℕ} (hmn : m ≤ n) (hfree : ∀ i, m ≤ i → i < n → ¬ Conflict RomCode.bit devices z i) :
    selected devices z n = selected devices z m := by
  apply List.filter_congr
  intro a ha
  rw [decide_eq_decide]
  exact ⟨Agree.mono hmn, fun hagree => agree_of_free ha hagree hfree⟩

theorem selected_nodup (hnodup : devices.Nodup) (z : RomCode) (n : ℕ) : (selected devices z n).Nodup :=
  hnodup.filter _

/-- the only device on the side of ones joins those on the side of zeros -/
theorem selected_join (hnodup : devices.Nodup) {c : ℕ} (hzero : z.bit c = false) (hone : OneLeaves RomCode.bit devices z c)
    (hy : y ∈ devices) (hzy : Agree RomCode.bit c z y) (hbit : y.bit c = true) :
    (selected devices z (c + 1) ++ [y]).Perm (selected devices z c) := by
  have hnot : y ∉ selected devices z (c + 1) := by
    intro hmem
    have hsame := (agree_succ.1 (mem_selected.1 hmem).2).2
    rw [hzero, hbit] at hsame
    cases hsame
  have hleft : (selected devices z (c + 1) ++ [y]).Nodup :=
    List.nodup_append.2 ⟨selected_nodup hnodup z (c + 1), List.nodup_singleton y, by
      rintro a ha _ hb rfl
      rw [List.mem_singleton.1 hb] at ha
      exact hnot ha⟩
  apply (List.perm_ext_iff_of_nodup hleft (selected_nodup hnodup z c)).2
  intro a
  rw [List.mem_append, List.mem_singleton, mem_selected, agree_succ]
  refine ⟨?_, ?_⟩
  · rintro (⟨ha, hagree, -⟩ | rfl)
    · exact mem_selected.2 ⟨ha, hagree⟩
    · exact mem_selected.2 ⟨hy, hzy⟩
  · intro ha
    obtain ⟨hmem, hagree⟩ := mem_selected.1 ha
    cases hbita : a.bit c with
    | false => exact Or.inl ⟨hmem, hagree, hzero⟩
    | true => exact Or.inr (hone a hmem y hy hagree hzy hbita hbit)

/-- the current branch `c` of the path `z` is the last one whose side of ones is still to come: what leaves the path later
has been reported, and so has `z` -/
structure Stage (devices : List RomCode) (z : RomCode) (c : ℕ) (s : RomCodeScanner) (before : List RomCode) : Prop where
  lt : c < 64
  conflict : Conflict RomCode.bit devices z c
  finished : s.finished = false
  curr : s.currDiscrepancy = c
  prev : ∃ p : ℕ, p ≤ c ∧ s.prevDiscrepancy = p ∧ Conflict RomCode.bit devices z p
  count : s.conflictCount = Nat.count (Conflict RomCode.bit devices z) (c + 1)
  before : before.Perm (selected devices z (c + 1))

/-- the state of the scanner after the current branch -/
def taken (s : RomCodeScanner) (c : ℕ) (prev : ℤ) : RomCodeScanner :=
  if c = 0 then ⟨s.finished, 0, -1, 0⟩ else ⟨s.finished, prev, prev, s.conflictCount - 1⟩

/-- **One stage.** The scan takes the side of ones at the current branch and the side of zeros at the branches beyond. -/
theorem stage_run (hz : Least RomCode.bit 64 devices z) {c : ℕ} {before : List RomCode}
    (h : Stage devices z c s before) :
    ∃ prev', PrevAt devices z s.prevDiscrepancy c prev' ∧
      ∃ y ∈ devices, Agree RomCode.bit c z y ∧ y.bit c = true ∧ ∃ s', NewRun devices y (c + 1) (taken s c prev') s' ∧
        along devices z 0 s = some (.ok, s', y.bytes, ⟨.idle, selected devices y 64⟩) := by
  obtain ⟨p, hpc, hprev, hconfp⟩ := h.prev
  have hp : p < 64 := by
    have hc := h.lt
    omega
  obtain ⟨prev', hat, hfollow⟩ := follow_run hz hprev hp c h.lt.le (by rw [h.curr]) (fun _ => hz.zero p hp hconfp)
  obtain ⟨d, hd, hzd, hbitd⟩ := h.conflict.exists_bit hz.mem true
  have hcount : s.conflictCount = Nat.count (Conflict RomCode.bit devices z) c + 1 := by
    rw [h.count, Nat.count_succ, if_pos h.conflict]
  have hhandle : RomCodeScanner.handleDiscrepancy { s with prevDiscrepancy := prev' } (firstBits z c) c =
      some (d.bit c, taken s c prev') := by
    have hcurrent := handle_current { s with prevDiscrepancy := prev' } (firstBits z c) h.curr (by rw [hcount]; omega)
    rw [hcurrent, hbitd]
    rfl
  have htaken : (taken s c prev').currDiscrepancy < ((c + 1 : ℕ) : ℤ) := by
    have hle : prev' ≤ c := by
      rcases hat with ⟨hsame, -⟩ | ⟨q, hq, hprev', -⟩
      · rw [hsame, hprev]
        exact_mod_cast hpc
      · rw [hprev']
        exact_mod_cast hq.le
    unfold taken
    split_ifs
    · simp only
      omega
    · push_cast
      omega
  have hle : Nat.count (Conflict RomCode.bit devices z) c ≤ c := Nat.count_le _
  have hsmall : (taken s c prev').conflictCount + (64 - (c + 1)) < 2 ^ 32 := by
    have hc := h.lt
    unfold taken
    split_ifs
    · simp only
      omega
    · simp only
      omega
  obtain ⟨y, hy, hdy, s', hrun, halong⟩ := new_run hd (c + 1) h.lt (taken s c prev') htaken hsmall
  obtain ⟨hdy', hbit⟩ := agree_succ.1 hdy
  refine ⟨prev', hat, y, hy, hzd.trans hdy', by rw [← hbit, hbitd], s', hrun, ?_⟩
  rw [hfollow, along_conflict hz.mem h.lt h.conflict hzd hhandle, halong]

/-- **A branch with two devices on its side of ones.** The scan after it fails an assertion or goes back to the side of
zeros and reports a device again, so the loop completes in no case. -/
theorem stage_repeats (hnodup : devices.Nodup) (hvalid : ∀ d ∈ devices, d.valid = true)
    (hz : Least RomCode.bit 64 devices z) {c : ℕ} {before : List RomCode} (h : Stage devices z c s before)
    (htwo : ¬ OneLeaves RomCode.bit devices z c) : ¬ Completes devices s b before := by
  obtain ⟨prev', hat, y, hy, hzy, hbit, s', hrun, halong⟩ := stage_run hz h
  have hc := h.lt
  -- the two devices part behind `c`, so the scan has met a new branch there
  obtain ⟨q, hq⟩ : ∃ q, NewBranch devices y (c + 1) (taken s c prev') s' q := by
    rcases hrun.branch with ⟨-, hfree⟩ | hbranch
    · exfalso
      apply htwo
      intro a ha a' ha' hza hza' hbita hbita'
      have hone (d : RomCode) (hd : d ∈ devices) (hzd : Agree RomCode.bit c z d) (hbitd : d.bit c = true) : y = d :=
        eq_of_agree (agree_of_free hd (agree_succ.2 ⟨hzy.symm.trans hzd, by rw [hbit, hbitd]⟩) hfree)
      rw [← hone a ha hza hbita, ← hone a' ha' hza' hbita']
    · exact hbranch
  have hcount : 0 < s'.conflictCount := by
    have hlt : Nat.count (Conflict RomCode.bit devices y) (c + 1) < Nat.count (Conflict RomCode.bit devices y) 64 :=
      calc Nat.count (Conflict RomCode.bit devices y) (c + 1)
          ≤ Nat.count (Conflict RomCode.bit devices y) q := Nat.count_monotone _ hq.ge
        _ < Nat.count (Conflict RomCode.bit devices y) 64 := Nat.count_strict_mono hq.conflict hq.lt
    have hsum := hrun.count
    omega
  have hnext : scanned s' = s' := if_neg hcount.ne'
  have hs' : s'.finished = false := by
    rw [hrun.finished, ← h.finished]
    unfold taken
    split_ifs <;> rfl
  rw [completes_scan hz.mem h.finished (hvalid y hy) halong, hnext]
  have hcurr : ((c + 1 : ℕ) : ℤ) ≤ s'.currDiscrepancy := by
    rw [hq.curr]
    exact_mod_cast hq.ge
  -- what the next scan reads at the previous branch
  have hprev : s'.prevDiscrepancy < 0 ∧ c = 0 ∨
      ∃ i : ℕ, i < 64 ∧ s'.prevDiscrepancy = i ∧ (i < c + 1 → z.bit i = false) := by
    rcases hq.prev with ⟨i, hge, hle, hi, -⟩ | ⟨-, hi⟩
    · refine Or.inr ⟨i, hle.trans_lt hq.lt, hi, ?_⟩
      intro hlt
      omega
    · by_cases hzero : c = 0
      · rw [taken, if_pos hzero] at hi
        exact Or.inl ⟨hi.trans_lt (by change (-1 : ℤ) < 0; omega), hzero⟩
      · rw [taken, if_neg hzero] at hi
        rcases hat with ⟨hsame, -⟩ | ⟨i, hic, hprev', hconfi, -⟩
        · obtain ⟨p, hpc, hprev, hconfp⟩ := h.prev
          exact Or.inr ⟨p, by omega, by rw [hi, hsame, hprev], fun _ => hz.zero p (by omega) hconfp⟩
        · exact Or.inr ⟨i, by omega, by rw [hi, hprev'], fun _ => hz.zero i (by omega) hconfi⟩
  rcases hprev with ⟨hneg, rfl⟩ | ⟨i, hi, hprev, hzero⟩
  · apply not_completes_of_assert hz.mem hs'
    refine along_assert hz.mem (by omega) h.conflict (handle_assert _ ?_ hneg)
    push_cast at hcurr ⊢
    omega
  · obtain ⟨prev'', -, hfollow⟩ := follow_run hz hprev hi (c + 1) (by omega) hcurr hzero
    rcases stays_run hz.mem (c + 1) (by omega) { s' with prevDiscrepancy := prev'' } with
      hnone | ⟨d, hd, hzd, s'', -, hagain⟩
    · exact not_completes_of_assert hz.mem hs' (hfollow.trans hnone) _
    · rw [completes_scan hz.mem hs' (hvalid d hd) (hfollow.trans hagain)]
      intro hcompletes
      have hmem : d ∈ before := h.before.mem_iff.2 (mem_selected.2 ⟨hd, hzd⟩)
      have hnodup' := hcompletes.nodup hnodup
      rw [List.nodup_append] at hnodup'
      exact hnodup'.2.2 d (List.mem_append_left _ hmem) d (List.mem_singleton_self d) rfl

/-- **A branch with one device on its side of ones.** The scan reports it, and what has been reported is then all that
the branch before has on its side of zeros. -/
theorem stage_reports (hnodup : devices.Nodup) (hvalid : ∀ d ∈ devices, d.valid = true)
    (hz : Least RomCode.bit 64 devices z) {c : ℕ} {before : List RomCode} (h : Stage devices z c s before)
    (hone : OneLeaves RomCode.bit devices z c) (b : IdealBus) :
    ∃ prev' y b', PrevAt devices z s.prevDiscrepancy c prev' ∧ (before ++ [y]).Perm (selected devices z c) ∧
      (Completes devices s b before ↔ Completes devices (scanned (taken s c prev')) b' (before ++ [y])) := by
  obtain ⟨prev', hat, y, hy, hzy, hbit, s', hrun, halong⟩ := stage_run hz h
  have hzero : z.bit c = false := hz.zero c h.lt h.conflict
  -- only `y` is on the side of ones, so no branch is left behind `c`
  have hsame : s' = taken s c prev' := by
    rcases hrun.branch with ⟨hsame, -⟩ | ⟨q, hq⟩
    · exact hsame
    · obtain ⟨a, ha, hya, hne⟩ := hq.conflict
      obtain ⟨hya', hbita⟩ := agree_succ.1 (hya.mono hq.ge)
      have heq : y = a := hone y hy a ha hzy (hzy.trans hya') hbit (hbita.symm.trans hbit)
      rw [heq] at hne
      exact absurd rfl hne
  refine ⟨prev', y, ⟨.idle, selected devices y 64⟩, hat, ?_, ?_⟩
  · exact (h.before.append_right [y]).trans (selected_join hnodup hzero hone hy hzy hbit)
  · rw [← hsame]
    exact completes_scan hz.mem h.finished (hvalid y hy) halong before

/-- without a branch above the current one the scanner is done -/
theorem taken_last {c : ℕ} {prev' : ℤ} {before : List RomCode} (h : Stage devices z c s before)
    (hfree : ∀ i < c, ¬ Conflict RomCode.bit devices z i) : (scanned (taken s c prev')).finished = true := by
  have hcount : s.conflictCount = 1 :=
    calc s.conflictCount = Nat.count (Conflict RomCode.bit devices z) (c + 1) := h.count
      _ = Nat.count (Conflict RomCode.bit devices z) c + 1 := by rw [Nat.count_succ, if_pos h.conflict]
      _ = 1 := by rw [Nat.count_iff_forall_not.2 hfree]
  unfold scanned
  rw [if_pos]
  unfold taken
  split_ifs
  · rfl
  · rw [hcount]

/-- the branch `q` before the current one becomes the current one -/
theorem taken_next {c q : ℕ} {before : List RomCode} (h : Stage devices z c s before) (hq : q < c)
    (hconf : Conflict RomCode.bit devices z q) (hfree : ∀ i, q < i → i < c → ¬ Conflict RomCode.bit devices z i)
    {after : List RomCode} (hperm : after.Perm (selected devices z c)) :
    Stage devices z q (scanned (taken s c q)) after := by
  have hcount : s.conflictCount = Nat.count (Conflict RomCode.bit devices z) (q + 1) + 1 :=
    calc s.conflictCount = Nat.count (Conflict RomCode.bit devices z) (c + 1) := h.count
      _ = Nat.count (Conflict RomCode.bit devices z) c + 1 := by rw [Nat.count_succ, if_pos h.conflict]
      _ = Nat.count (Conflict RomCode.bit devices z) (q + 1) + 1 := by rw [count_eq_of_free hq hfree]
  have hpos : Nat.count (Conflict RomCode.bit devices z) (q + 1) ≠ 0 := by
    rw [Nat.count_succ, if_pos hconf]
    omega
  have htaken : taken s c q = ⟨s.finished, q, q, Nat.count (Conflict RomCode.bit devices z) (q + 1)⟩ := by
    unfold taken
    rw [if_neg (by omega), hcount, Nat.add_sub_cancel]
  have hnext : scanned (taken s c q) = taken s c q := by
    unfold scanned
    rw [htaken, if_neg hpos]
  rw [selected_free hq hfree] at hperm
  rw [hnext, htaken]
  exact ⟨hq.trans h.lt, hconf, h.finished, rfl, ⟨q, le_rfl, rfl, hconf⟩, rfl, hperm⟩

/-- **The stages.** From a stage on, the loop completes iff no branch up to the current one has two devices on its side of
ones; the induction is on the current branch. -/
theorem stage_completes_iff (hnodup : devices.Nodup) (hvalid : ∀ d ∈ devices, d.valid = true)
    (hz : Least RomCode.bit 64 devices z) (c : ℕ) (s : RomCodeScanner) (b : IdealBus) (before : List RomCode)
    (h : Stage devices z c s before) :
    Completes devices s b before ↔
      ∀ n ≤ c, Conflict RomCode.bit devices z n → OneLeaves RomCode.bit devices z n := by
  induction c using Nat.strong_induction_on generalizing s b before with
  | _ c ih =>
    by_cases hone : OneLeaves RomCode.bit devices z c
    · obtain ⟨prev', y, b', hat, hperm, hcompletes⟩ := stage_reports hnodup hvalid hz h hone b
      rw [hcompletes]
      rcases hat with ⟨-, hfree⟩ | ⟨q, hq, rfl, hconfq, hfree⟩
      · rw [completes_finished (taken_last h hfree)]
        rw [selected_free (Nat.zero_le c) (fun i _ hi => hfree i hi), selected_zero] at hperm
        refine iff_of_true hperm ?_
        intro n hn hconf
        rcases Nat.lt_or_eq_of_le hn with hlt | rfl
        · exact absurd hconf (hfree n hlt)
        · exact hone
      · rw [ih q hq _ _ _ (taken_next h hq hconfq hfree hperm)]
        refine ⟨?_, ?_⟩
        · intro hall n hn hconf
          rcases Nat.lt_or_ge q n with hqn | hnq
          · rcases Nat.lt_or_eq_of_le hn with hlt | rfl
            · exact absurd hconf (hfree n hqn hlt)
            · exact hone
          · exact hall n hnq hconf
        · intro hall n hn hconf
          exact hall n (hn.trans hq.le) hconf
    · refine iff_of_false (stage_repeats hnodup hvalid hz h hone) ?_
      intro hall
      exact hone (hall c le_rfl h.conflict)

/-! ## Main results -/

/-- the devices on a bus: one at least, with distinct and valid codes -/
structure Devices where
  codes : List RomCode
  nonempty : codes ≠ []
  nodup : codes.Nodup
  valid : ∀ d ∈ codes, d.valid = true

/-- the loop of a new scanner stops with `NoData` and has reported the code of every device once and nothing else -/
def Enumerates (devices : Devices) (b : IdealBus) : Prop :=
  ∃ fuel codes, scanRomCodes (idealBus devices.codes) fuel .new b = some (.noData, codes) ∧ codes.Perm devices.codes

/-- **Enumeration.** A new scanner enumerates the devices iff no branch has two of them on its side of ones. -/
theorem enumeration_iff (devices : Devices) (b : IdealBus) :
    Enumerates devices b ↔ SinglyBranched RomCode.bit 64 devices.codes := by
  obtain ⟨z₀, hz₀⟩ := List.exists_mem_of_ne_nil _ devices.nonempty
  obtain ⟨z, hz, -, s', hrun, halong⟩ := new_run hz₀ 0 (by omega) .new (by decide) (by decide)
  have hleast : Least RomCode.bit 64 devices.codes z := ⟨hz, fun n hn => hrun.zero n (Nat.zero_le n) hn⟩
  have hscan : Enumerates devices b ↔ Completes devices.codes (scanned s') ⟨.idle, selected devices.codes z 64⟩ [z] :=
    completes_scan hz₀ rfl (devices.valid z hz) halong []
  -- the first scan reports the device that takes the side of zeros
  have hfirst : [z].Perm (selected devices.codes z 64) := by
    apply (List.perm_ext_iff_of_nodup (List.nodup_singleton z) (selected_nodup devices.nodup z 64)).2
    intro a
    rw [List.mem_singleton, mem_selected]
    refine ⟨?_, ?_⟩
    · intro heq
      subst heq
      exact ⟨hz, Agree.refl 64 a⟩
    · rintro ⟨-, hagree⟩
      exact (eq_of_agree hagree).symm
  rw [hscan, singlyBranched_iff hleast]
  rcases hrun.branch with ⟨hsame, hfree⟩ | ⟨q, hq⟩
  · have hdone : (scanned s').finished = true := by
      rw [hsame]
      rfl
    rw [completes_finished hdone]
    rw [selected_free (Nat.zero_le 64) hfree, selected_zero] at hfirst
    refine iff_of_true hfirst ?_
    intro n hn hconf
    exact absurd hconf (hfree n (Nat.zero_le n) hn)
  · have hcount : s'.conflictCount = Nat.count (Conflict RomCode.bit devices.codes z) (q + 1) := by
      have hsum := hrun.count
      simp only [Nat.count_zero, Nat.add_zero, RomCodeScanner.new, Nat.zero_add] at hsum
      rw [hsum]
      exact count_eq_of_free hq.lt hq.last
    have hnext : scanned s' = s' := by
      unfold scanned
      rw [if_neg]
      rw [hcount, Nat.count_succ, if_pos hq.conflict]
      omega
    rw [selected_free hq.lt hq.last] at hfirst
    have hprev : ∃ p : ℕ, p ≤ q ∧ s'.prevDiscrepancy = p ∧ Conflict RomCode.bit devices.codes z p := by
      rcases hq.prev with ⟨p, -, hle, hp, hconf⟩ | ⟨hneg, -⟩
      · exact ⟨p, hle, hp, hconf⟩
      · exact absurd hneg (by decide)
    have hstage : Stage devices.codes z q s' [z] :=
      ⟨hq.lt, hq.conflict, hrun.finished, hq.curr, hprev, hcount, hfirst⟩
    rw [hnext, stage_completes_iff devices.nodup devices.valid hleast q s' _ [z] hstage]
    refine ⟨?_, ?_⟩
    · intro hall n hn hconf
      rcases Nat.lt_or_ge q n with hqn | hnq
      · exact absurd hconf (hq.last n hqn hn)
      · exact hall n hnq hconf
    · intro hall n hn hconf
      exact hall n (hn.trans_lt hq.lt) hconf

/-- a DS18B20 by the first byte of its serial number -/
def exampleCode (serial : Byte) : RomCode :=
  ⟨#v[0x28, serial, 0, 0, 0, 0, 0, calculateCrc [0x28, serial, 0, 0, 0, 0, 0]]⟩

/-- three devices, two of which part behind the branch at the first bit of the serial number -/
def exampleDevices : Devices where
  codes := [exampleCode 0, exampleCode 1, exampleCode 3]
  nonempty := by simp
  nodup := by decide +kernel
  valid := by decide +kernel

/-- the first three scans of the loop on these devices; the third leaves the scanner as it was -/
theorem example_searches :
    along exampleDevices.codes (exampleCode 0) 0 .new =
        some (.ok, ⟨false, 8, 8, 1⟩, (exampleCode 0).bytes, ⟨.idle, [exampleCode 0]⟩) ∧
      along exampleDevices.codes (exampleCode 0) 0 ⟨false, 8, 8, 1⟩ =
        some (.ok, ⟨false, 8, 9, 1⟩, (exampleCode 1).bytes, ⟨.idle, [exampleCode 1]⟩) ∧
      along exampleDevices.codes (exampleCode 0) 0 ⟨false, 8, 9, 1⟩ =
        some (.ok, ⟨false, 8, 9, 1⟩, (exampleCode 0).bytes, ⟨.idle, [exampleCode 0]⟩) :=
  ⟨by decide +kernel, by decide +kernel, by decide +kernel⟩

/-- **Enumeration goes wrong.** On these devices the loop reports the first device, the second, and then the first again
and again: it never stops, and the third device is never reported. -/
theorem enumeration_wrong : (¬ ∀ devices b, Enumerates devices b) ∧
    ∀ fuel b, scanRomCodes (idealBus exampleDevices.codes) fuel .new b = none := by
  have hmem : exampleCode 0 ∈ exampleDevices.codes := List.mem_cons_self
  have hvalid (d : RomCode) (hd : d ∈ exampleDevices.codes) : d.valid = true := exampleDevices.valid d hd
  obtain ⟨hfirst, hsecond, hthird⟩ := example_searches
  have hagain (fuel : ℕ) (b : IdealBus) :
      scanRomCodes (idealBus exampleDevices.codes) fuel ⟨false, 8, 9, 1⟩ b = none := by
    induction fuel generalizing b with
    | zero => rfl
    | succ fuel ih =>
      rw [scanRomCodes_succ hmem rfl (hvalid _ hmem) hthird b fuel]
      exact Option.map_eq_none_iff.2 (ih _)
  have hnever (fuel : ℕ) (b : IdealBus) : scanRomCodes (idealBus exampleDevices.codes) fuel .new b = none := by
    rcases fuel with _ | _ | fuel
    · rfl
    · rw [scanRomCodes_succ hmem rfl (hvalid _ hmem) hfirst b 0]
      rfl
    · rw [scanRomCodes_succ hmem rfl (hvalid _ hmem) hfirst b (fuel + 1), Option.map_eq_none_iff,
        show scanned ⟨false, 8, 8, 1⟩ = ⟨false, 8, 8, 1⟩ from rfl,
        scanRomCodes_succ hmem rfl (hvalid (exampleCode 1) (by simp [exampleDevices])) hsecond _ fuel,
        Option.map_eq_none_iff]
      exact hagain fuel _
  refine ⟨?_, hnever⟩
  intro h
  obtain ⟨fuel, codes, hrun, -⟩ := h exampleDevices ⟨.idle, []⟩
  rw [hnever fuel] at hrun
  cases hrun

end ControlComponents.Onewire
