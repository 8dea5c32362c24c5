/-
The assertions of `RomCodeScanner` (`ocs_onewire`), on a bus that replies anything.

A bus is a script of replies: the codes of its calls and the bits that are read. A conflict is a position at which both
values are present. Below the current discrepancy a conflict needs a previous one to follow, and at the current discrepancy
one that is counted; a scan that comes through these two goes through all others.

- `Inv`: the previous discrepancy is not above the current one, unless there is none.
- `asserts_iff`: the scripts and calls for which no assertion fails. `asserts_fail` has two for which one does.
-/
import ControlComponents.Lib.Runs
import ControlComponents.Onewire.Enumeration

namespace ControlComponents.Onewire

open ControlComponents.Lib.Runs

/-! ## Model -/

/-- the replies of a bus, by the number of the call -/
abbrev Script := ℕ → StatusCode × Bool

def scriptBus (script : Script) : Bus ℕ where
  reset b := ((script b).1, b + 1)
  readBit b := ((script b).1, (script b).2, b + 1)
  writeBit _ b := ((script b).1, b + 1)

namespace RomCodeScanner

/-- `reset` -/
def reset (_ : RomCodeScanner) : RomCodeScanner := .new

/-- the scanner, and the number of calls of the bus -/
structure World where
  scanner : RomCodeScanner
  calls : ℕ

def World.start : World := ⟨.new, 0⟩

inductive Call where
  | scan (romCode : RomCode)
  | reset

/-- `none` where an assertion fails -/
def step (script : Script) (w : World) : Call → Option World
  | .scan romCode =>
    (w.scanner.scan (scriptBus script) romCode w.calls).map fun (_, scanner, _, calls) => ⟨scanner, calls⟩
  | .reset => some ⟨w.scanner.reset, w.calls⟩

/-! ## Conflicts -/

/-- the positions from `n` on at which the script has both values, until it ends the search -/
def conflicts (script : Script) : ℕ → ℕ → ℕ → List ℕ
  | 0, _, _ => []
  | k + 1, n, b =>
    match script b, script (b + 1) with
    | (.ok, bit1), (.ok, bit2) =>
      if bit1 && bit2 then []
      else
        let rest := if (script (b + 2)).1 = .ok then conflicts script k (n + 1) (b + 3) else []
        if !bit1 && !bit2 then n :: rest else rest
    | _, _ => []

/-- the conflicts that a call meets -/
def shown (script : Script) (w : World) : Call → List ℕ
  | .scan _ =>
    if w.scanner.finished then []
    else
      match (scriptBus script).reset w.calls with
      | (.ok, b) =>
        match (scriptBus script).writeByte RomCode.searchRom b with
        | (.ok, b) => conflicts script 64 0 b
        | _ => []
      | _ => []
  | .reset => []

/-- a conflict below the current discrepancy has a previous one to follow, and one at it is counted -/
structure Covers (s : RomCodeScanner) (conflicts : List ℕ) : Prop where
  below : 0 ≤ s.prevDiscrepancy ∨ ∀ n ∈ conflicts, s.currDiscrepancy ≤ (n : ℤ)
  current : s.conflictCount ≠ 0 ∨ s.currDiscrepancy ≤ 0 ∨ ∀ n ∈ conflicts, (n : ℤ) ≠ s.currDiscrepancy

/-- the previous discrepancy is a position of the code, and not above the current one, if there is one -/
structure Inv (s : RomCodeScanner) : Prop where
  lt : s.prevDiscrepancy < 64
  le : s.prevDiscrepancy ≤ s.currDiscrepancy ∨ s.currDiscrepancy < 0

theorem new_inv : Inv .new := ⟨by decide, .inl le_rfl⟩

theorem conflicts_ge (script : Script) (k : ℕ) {n b m : ℕ} (hm : m ∈ conflicts script k n b) : n ≤ m := by
  induction k generalizing n b with
  | zero => cases hm
  | succ k ih =>
    have hrest (h : m ∈ if (script (b + 2)).1 = .ok then conflicts script k (n + 1) (b + 3) else []) : n ≤ m := by
      split_ifs at h
      · exact (Nat.le_succ n).trans (ih h)
      · cases h
    simp only [conflicts] at hm
    split at hm
    · rename_i bit1 bit2 _ _
      by_cases hboth : (bit1 && bit2) = true
      · rw [if_pos hboth] at hm
        cases hm
      · rw [if_neg hboth] at hm
        by_cases hconflict : (!bit1 && !bit2) = true
        · rw [if_pos hconflict] at hm
          rcases List.mem_cons.1 hm with rfl | h
          · exact le_rfl
          · exact hrest h
        · rw [if_neg hconflict] at hm
          exact hrest hm
    · cases hm

/-! ## One conflict -/

theorem covers_of_above {s : RomCodeScanner} {conflicts : List ℕ} (h : ∀ n ∈ conflicts, s.currDiscrepancy < (n : ℤ)) :
    Covers s conflicts :=
  ⟨.inr fun n hn => (h n hn).le, .inr (.inr fun n hn => (h n hn).ne')⟩

/-- a conflict is handled if it is covered, and the ones after it are covered as before -/
theorem handle_cases {s : RomCodeScanner} (hs : Inv s) (buf : Vector Byte 8) {n : ℕ} (hn : n < 64) {rest : List ℕ}
    (hrest : ∀ m ∈ rest, n < m) :
    (∃ bit s', s.handleDiscrepancy buf n = some (bit, s') ∧ Inv s' ∧ (Covers s (n :: rest) ↔ Covers s' rest)) ∨
      (s.handleDiscrepancy buf n = none ∧ ¬ Covers s (n :: rest)) := by
  have hmem : n ∈ n :: rest := List.mem_cons_self
  have hfrom (m : ℕ) (hm : m ∈ n :: rest) : n ≤ m := by
    rcases List.mem_cons.1 hm with rfl | h
    · exact le_rfl
    · exact (hrest m h).le
  rcases lt_trichotomy s.currDiscrepancy (n : ℤ) with hlt | heq | hgt
  · -- a new discrepancy: no conflict that is still to come is at it or below it
    refine .inl ⟨_, _, handle_new buf hlt, ⟨?_, .inl ?_⟩, iff_of_true ?_ ?_⟩
    · simp only
      split_ifs <;> omega
    · simp only
      split_ifs
      · exact le_rfl
      · exact hlt.le
    · exact covers_of_above fun m hm => hlt.trans_le (Int.ofNat_le.2 (hfrom m hm))
    · exact covers_of_above fun m hm => Int.ofNat_lt.2 (hrest m hm)
  · have hbelow : ∀ m ∈ n :: rest, s.currDiscrepancy ≤ (m : ℤ) := by
      intro m hm
      rw [heq]
      exact Int.ofNat_le.2 (hfrom m hm)
    rcases Nat.eq_zero_or_pos n with rfl | hpos
    · -- the search of the first bit is over
      have hhandle : s.handleDiscrepancy buf 0 = some (true, ⟨s.finished, 0, -1, 0⟩) := by
        unfold handleDiscrepancy
        rw [if_pos heq, if_pos rfl]
      refine .inl ⟨_, _, hhandle, ⟨by simp only; decide, .inr (by simp only; decide)⟩, iff_of_true ?_ ?_⟩
      · exact ⟨.inr hbelow, .inr (.inl heq.le)⟩
      · exact ⟨.inl le_rfl, .inr (.inl (by simp only; decide))⟩
    · by_cases hcount : s.conflictCount = 0
      · refine .inr ⟨?_, fun hcovers => ?_⟩
        · unfold handleDiscrepancy
          rw [if_pos heq, if_neg hpos.ne', if_pos hcount]
        · rcases hcovers.current with h | h | h
          · exact h hcount
          · omega
          · exact h n hmem heq.symm
      · -- the discrepancy is handled, and the previous one is not above it
        have hhandle := handle_current s buf heq hcount
        rw [if_neg hpos.ne'] at hhandle
        have hprev : s.prevDiscrepancy ≤ n := by
          rcases hs.le with h | h <;> omega
        refine .inl ⟨_, _, hhandle, ⟨hs.lt, .inl le_rfl⟩, iff_of_true ⟨.inr hbelow, .inl hcount⟩ ?_⟩
        exact covers_of_above fun m hm => hprev.trans_lt (Int.ofNat_lt.2 (hrest m hm))
  · rcases lt_or_ge s.prevDiscrepancy 0 with hneg | hpos
    · refine .inr ⟨handle_assert buf hgt hneg, fun hcovers => ?_⟩
      rcases hcovers.below with h | h
      · omega
      · have hle := h n hmem
        omega
    · -- the previous path is followed, up to the current discrepancy
      obtain ⟨i, hi⟩ := Int.eq_ofNat_of_zero_le hpos
      have hlt : i < 64 := by
        have := hs.lt
        omega
      refine .inl ⟨_, _, handle_previous buf hgt hi hlt, ⟨by simp only; omega, .inl hgt.le⟩, ?_, ?_⟩
      · refine fun hcovers => ⟨.inl (Int.natCast_nonneg n), hcovers.current.imp_right (Or.imp_right fun h m hm => ?_)⟩
        exact h m (List.mem_cons_of_mem n hm)
      · refine fun hcovers => ⟨.inl hpos, hcovers.current.imp_right (Or.imp_right fun h m hm => ?_)⟩
        rcases List.mem_cons.1 hm with rfl | hm
        · exact hgt.ne
        · exact h m hm

/-! ## One scan -/

theorem store_isSome (buf : Vector Byte 8) {n : ℕ} (hn : n < 64) (bit : Bool) :
    ∃ buf', store buf n bit = some buf' := by
  have hdiv : n / 8 < 8 := by omega
  unfold store
  rw [Vector.getElem?_eq_getElem hdiv]
  exact ⟨_, rfl⟩

theorem covers_nil (s : RomCodeScanner) : Covers s [] := covers_of_above fun n hn => by cases hn

/-- a search goes through iff its conflicts are covered -/
theorem scanLoop_cases (script : Script) (k : ℕ) {n : ℕ} (hn : n + k = 64) {s : RomCodeScanner} (hs : Inv s)
    (buf : Vector Byte 8) (b : ℕ) :
    (∃ r, scanLoop (scriptBus script) k n s buf b = some r ∧ Inv r.2.1 ∧ Covers s (conflicts script k n b)) ∨
      (scanLoop (scriptBus script) k n s buf b = none ∧ ¬ Covers s (conflicts script k n b)) := by
  induction k generalizing n s buf b with
  | zero => exact .inl ⟨_, rfl, hs, covers_nil s⟩
  | succ k ih =>
    have hlt : n < 64 := by omega
    set rest := if (script (b + 2)).1 = .ok then conflicts script k (n + 1) (b + 3) else [] with hrest
    have hafter (m : ℕ) (hm : m ∈ rest) : n < m := by
      rw [hrest] at hm
      split_ifs at hm
      · exact conflicts_ge script k hm
      · cases hm
    -- a search that ends
    have hend {s : RomCodeScanner} (hs : Inv s) (code : StatusCode) (buf : Vector Byte 8) (b : ℕ) :
        (∃ r, some (code, s, buf, b) = some r ∧ Inv r.2.1 ∧ Covers s []) ∨
          (some (code, s, buf, b) = none ∧ ¬ Covers s []) := .inl ⟨_, rfl, hs, covers_nil s⟩
    -- the search after a bit has been decided on
    set tail : Bool × RomCodeScanner → Option (StatusCode × RomCodeScanner × Vector Byte 8 × ℕ) := fun r =>
      (store buf n r.1).bind fun buf =>
        if (script (b + 2)).1 = .ok then scanLoop (scriptBus script) k (n + 1) r.2 buf (b + 3)
        else some ((script (b + 2)).1, r.2, buf, b + 3) with htail
    have hgoes (bit : Bool) {s' : RomCodeScanner} (hs' : Inv s') :
        (∃ r, tail (bit, s') = some r ∧ Inv r.2.1 ∧ Covers s' rest) ∨ (tail (bit, s') = none ∧ ¬ Covers s' rest) := by
      obtain ⟨buf', hstore⟩ := store_isSome buf hlt bit
      simp only [htail, hstore, Option.bind_some, hrest]
      split_ifs
      · exact ih (by omega) hs' buf' (b + 3)
      · exact .inl ⟨_, rfl, hs', covers_nil s'⟩
    cases hfirst : script b with
    | mk code1 bit1 =>
      have hread1 : (scriptBus script).readBit b = (code1, bit1, b + 1) := by simp only [scriptBus, hfirst]
      cases hsecond : script (b + 1) with
      | mk code2 bit2 =>
        have hread2 : (scriptBus script).readBit (b + 1) = (code2, bit2, b + 2) := by
          simp only [scriptBus, hsecond]
        cases code1 with
        | ok =>
          cases code2 with
          | ok =>
            have hloop : scanLoop (scriptBus script) (k + 1) n s buf b =
                if bit1 && bit2 then some (.noData, s, buf, b + 2)
                else (if !bit1 && !bit2 then s.handleDiscrepancy buf n else some (bit1 && !bit2, s)).bind tail := by
              have hwrite (bit : Bool) : (scriptBus script).writeBit bit (b + 2) = ((script (b + 2)).1, b + 3) := rfl
              simp only [scanLoop, hread1, hread2, hwrite, htail]
              cases (script (b + 2)).1 <;> rfl
            have hconflicts : conflicts script (k + 1) n b =
                if bit1 && bit2 then [] else if !bit1 && !bit2 then n :: rest else rest := by
              simp only [conflicts, hfirst, hsecond, hrest]
            rw [hloop, hconflicts]
            cases bit1 with
            | true =>
              cases bit2 with
              | true => exact hend hs _ _ _
              | false => exact hgoes true hs
            | false =>
              cases bit2 with
              | true => exact hgoes false hs
              | false =>
                simp only [Bool.and_false, Bool.false_eq_true, if_false, Bool.not_false, Bool.and_true, if_true]
                rcases handle_cases hs buf hlt hafter with ⟨bit, s', hhandle, hs', hcovers⟩ | ⟨hhandle, hnot⟩
                · rw [hhandle, Option.bind_some, hcovers]
                  exact hgoes bit hs'
                · rw [hhandle]
                  exact .inr ⟨rfl, hnot⟩
          | _ =>
            simp only [scanLoop, conflicts, hread1, hread2, hfirst, hsecond]
            exact hend hs _ _ _
        | _ =>
          simp only [scanLoop, conflicts, hread1, hfirst]
          exact hend hs _ _ _

/-- a call goes through iff its conflicts are covered -/
theorem step_cases (script : Script) {w : World} (hw : Inv w.scanner) (call : Call) :
    (∃ w', step script w call = some w' ∧ Inv w'.scanner ∧ Covers w.scanner (shown script w call)) ∨
      (step script w call = none ∧ ¬ Covers w.scanner (shown script w call)) := by
  cases call with
  | reset => exact .inl ⟨_, rfl, new_inv, covers_nil _⟩
  | scan romCode =>
    simp only [step, shown, scan]
    by_cases hfinished : w.scanner.finished = true
    · rw [if_pos hfinished, if_pos hfinished]
      exact .inl ⟨_, rfl, hw, covers_nil _⟩
    · rw [if_neg hfinished, if_neg hfinished]
      cases hreset : (scriptBus script).reset w.calls with
      | mk code b =>
        cases code with
        | ok =>
          simp only
          cases hwrite : (scriptBus script).writeByte RomCode.searchRom b with
          | mk code b =>
            cases code with
            | ok =>
              simp only
              rcases scanLoop_cases script 64 (Nat.zero_add 64) hw romCode.bytes b with
                ⟨⟨code, s, buf, b'⟩, hloop, hinv, hcovers⟩ | ⟨hloop, hnot⟩
              · left
                simp only [hloop, Option.bind_eq_bind, Option.bind_some]
                split_ifs
                · exact ⟨_, rfl, hinv, hcovers⟩
                · exact ⟨_, rfl, hinv, hcovers⟩
                · exact ⟨_, rfl, ⟨hinv.lt, hinv.le⟩, hcovers⟩
                · exact ⟨_, rfl, hinv, hcovers⟩
              · right
                simp only [hloop, Option.bind_eq_bind, Option.bind_none, Option.map_none, true_and]
                exact hnot
            | _ => exact .inl ⟨_, rfl, hw, covers_nil _⟩
        | _ => exact .inl ⟨_, rfl, hw, covers_nil _⟩

/-- **The assertions.** For every script of replies and every sequence of calls: no assertion fails iff each scan meets
only conflicts that are covered by the state before it. -/
theorem asserts_iff (script : Script) (calls : List Call) :
    exec (step script) .start calls ≠ none ↔
      GuardedExec (step script) (fun w call => Covers w.scanner (shown script w call)) .start calls := by
  rw [exec_ne_none_iff]
  have hkeep (w : World) (call : Call) (w' : World) (hw : Inv w.scanner) (_ : True) (h : step script w call = some w') :
      Inv w'.scanner := by
    rcases step_cases script hw call with ⟨w'', hw'', hinv, -⟩ | ⟨hnone, -⟩
    · obtain rfl := Option.some.inj (hw''.symm.trans h)
      exact hinv
    · rw [hnone] at h
      cases h
  have hiff (w : World) (call : Call) (hw : Inv w.scanner) (_ : True) :
      step script w call ≠ none ↔ Covers w.scanner (shown script w call) := by
    rcases step_cases script hw call with ⟨w', hw', -, hcovers⟩ | ⟨hnone, hnot⟩
    · exact iff_of_true (by rw [hw']; exact Option.some_ne_none w') hcovers
    · exact iff_of_false (by rw [hnone]; exact fun h => h rfl) hnot
  have hstart : Inv World.start.scanner := new_inv
  exact guardedExec_congr hkeep hiff hstart calls (guardedExec_true _ _)

/-- the replies of a scan with the conflicts, up to a position; elsewhere a 0 is read -/
def replies (conflicts : List ℕ) (positions : ℕ) : List (StatusCode × Bool) :=
  List.replicate 9 (.ok, true) ++ (List.range positions).flatMap fun n => [(.ok, false), (.ok, n ∉ conflicts), (.ok, true)]

def scriptOf (replies : List (StatusCode × Bool)) : Script := fun n => replies[n]?.getD (.ok, true)

/-- three devices: one that has a 0 at the first position, and two that differ at the sixth -/
def threeDevices : Script := scriptOf (replies [0] 64 ++ replies [0, 5] 64 ++ replies [0] 1)

/-- the only conflict is resolved in a scan that is cut short -/
def cutShort : Script := scriptOf (replies [3] 64 ++ replies [3] 4 ++ [(.error, true)] ++ replies [3] 4)

def NeverAsserts : Prop := ∀ (script : Script) (calls : List Call), exec (step script) .start calls ≠ none

def scans : List Call := [.scan .new, .scan .new, .scan .new]

/-- **Assertions that fail.** In the third scan of either script: there is no previous discrepancy to follow, and the
conflict at the current one has been counted out. -/
theorem asserts_fail : ¬ NeverAsserts ∧
    (exec (step threeDevices) .start scans = none ∧ exec (step threeDevices) .start (scans.take 2) ≠ none) ∧
    exec (step cutShort) .start scans = none ∧ exec (step cutShort) .start (scans.take 2) ≠ none := by
  have hthree : exec (step threeDevices) .start scans = none ∧ exec (step threeDevices) .start (scans.take 2) ≠ none := by
    decide +kernel
  refine ⟨fun h => h threeDevices scans hthree.1, hthree, ?_⟩
  decide +kernel

end RomCodeScanner

end ControlComponents.Onewire
