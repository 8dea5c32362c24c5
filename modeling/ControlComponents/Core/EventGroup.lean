/-
Event groups of FreeRTOS (`core::StaticEventGroup`): a word of bits that are set, cleared and waited for.

- `hasBits_setBits`, `hasBits_clearBits`: setting or clearing bits leaves the others.
-/
import ControlComponents.Basic

namespace ControlComponents.Core

/-- `EventBits_t` of FreeRTOS -/
abbrev EventBits := BitVec 32

/-- `xEventGroupSetBits` -/
def setBits (group bits : EventBits) : EventBits := group ||| bits

/-- `xEventGroupClearBits` -/
def clearBits (group bits : EventBits) : EventBits := group &&& ~~~bits

/-- any of the bits is set -/
def hasBits (group bits : EventBits) : Bool := decide (group &&& bits ≠ 0#32)

theorem hasBits_eq_false {group bits : EventBits} : hasBits group bits = false ↔ group &&& bits = 0#32 := by
  rw [hasBits, decide_eq_false_iff_not, not_not]

theorem hasBits_setBits_self {group bits : EventBits} (h : bits ≠ 0#32) : hasBits (setBits group bits) bits = true := by
  have hand : (group ||| bits) &&& bits = bits := by
    apply BitVec.eq_of_getLsbD_eq
    intro i _
    rw [BitVec.getLsbD_and, BitVec.getLsbD_or]
    cases bits.getLsbD i with
    | false => rw [Bool.and_false]
    | true => rw [Bool.or_true, Bool.and_true]
  rw [hasBits, setBits, hand, decide_eq_true h]

theorem hasBits_setBits {group bits others : EventBits} (h : bits &&& others = 0#32) :
    hasBits (setBits group bits) others = hasBits group others := by
  have hand : (group ||| bits) &&& others = group &&& others := by
    apply BitVec.eq_of_getLsbD_eq
    intro i _
    have hi := congrArg (fun v => v.getLsbD i) h
    simp only [BitVec.getLsbD_and, BitVec.getLsbD_zero] at hi
    rw [BitVec.getLsbD_and, BitVec.getLsbD_and, BitVec.getLsbD_or, Bool.and_or_distrib_right, hi, Bool.or_false]
  rw [hasBits, setBits, hand, hasBits]

theorem hasBits_clearBits_self (group bits : EventBits) : hasBits (clearBits group bits) bits = false := by
  rw [hasBits_eq_false]
  calc group &&& ~~~bits &&& bits
      = group &&& (~~~bits &&& bits) := BitVec.and_assoc _ _ _
    _ = group &&& 0#32 := by rw [BitVec.not_and_self]; rfl
    _ = 0#32 := BitVec.and_zero

theorem hasBits_clearBits {group bits others : EventBits} (h : bits &&& others = 0#32) :
    hasBits (clearBits group bits) others = hasBits group others := by
  have hand : group &&& ~~~bits &&& others = group &&& others := by
    apply BitVec.eq_of_getLsbD_eq
    intro i hlt
    have hi := congrArg (fun v => v.getLsbD i) h
    simp only [BitVec.getLsbD_and, BitVec.getLsbD_zero] at hi
    rw [BitVec.getLsbD_and, BitVec.getLsbD_and, BitVec.getLsbD_and, BitVec.getLsbD_not, decide_eq_true hlt,
      Bool.true_and]
    cases ho : others.getLsbD i with
    | false => rw [Bool.and_false, Bool.and_false]
    | true =>
      rw [ho, Bool.and_true] at hi
      rw [hi, Bool.not_false, Bool.and_true]
  rw [hasBits, clearBits, hand, hasBits]

/-- waiting for any of two sets of bits -/
theorem hasBits_or (group bits others : EventBits) :
    hasBits group (bits ||| others) = (hasBits group bits || hasBits group others) := by
  have hand : group &&& (bits ||| others) = group &&& bits ||| group &&& others := by
    apply BitVec.eq_of_getLsbD_eq
    intro i _
    simp only [BitVec.getLsbD_and, BitVec.getLsbD_or, Bool.and_or_distrib_left]
  rw [hasBits, hasBits, hasBits, hand, ← Bool.decide_or]
  exact decide_eq_decide.2 (by rw [ne_eq, BitVec.or_eq_zero_iff, not_and_or])

end ControlComponents.Core
