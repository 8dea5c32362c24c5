/-
What all components share: bytes, and the status codes (`ocs_status/code.h`) one of which every fallible operation
reports.
-/
import Mathlib.Tactic

namespace ControlComponents

abbrev Byte := BitVec 8

/-- the result of an operation -/
inductive StatusCode where
  /-- success -/
  | ok
  | error
  /-- not enough data to perform the operation -/
  | noData
  | noMem
  | isrYield
  | invalidArg
  | invalidState
  | timeout
  /-- the operation has not changed the resource -/
  | notModified
  /-- invalid status code -/
  | last
deriving DecidableEq, Repr

/-- the status of an update that failed: neither done nor found unnecessary -/
def StatusCode.IsError (code : StatusCode) : Prop := code ≠ .ok ∧ code ≠ .notModified

instance (code : StatusCode) : Decidable code.IsError := by
  unfold StatusCode.IsError; infer_instance

/-- a failure that an operation outside the modelled code may report: any status but `ok` -/
structure Fault where
  code : StatusCode
  failed : code ≠ .ok
deriving DecidableEq

/-- the plain failure, `StatusCode::Error` -/
def Fault.plain : Fault := ⟨.error, by decide⟩

/-- readings of a clock that is at `a` before the `n`-th one and at `b` from then on -/
theorem monotone_ite_lt {α : Type} [Preorder α] {a b : α} (hab : a ≤ b) (n : ℕ) :
    Monotone fun k => if k < n then a else b := by
  intro j k hjk
  by_cases hk : k < n
  · simp only [if_pos hk, if_pos (hjk.trans_lt hk), le_rfl]
  · simp only [if_neg hk]
    split_ifs
    · exact hab
    · exact le_rfl

end ControlComponents
