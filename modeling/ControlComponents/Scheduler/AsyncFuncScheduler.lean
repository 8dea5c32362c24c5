/-
`AsyncFuncScheduler` (`ocs_scheduler`): functions that any task adds and one task runs.

Functions are added to one queue while the other is run; the queues are swapped under the mutex at the start of a run.
-/
import ControlComponents.Basic

namespace ControlComponents.Scheduler

/-- the two queues, of functions `φ` -/
structure AsyncFuncScheduler (φ : Type) where
  maxEventCount : ℕ
  maxEventCount_pos : 0 < maxEventCount
  readQueue : List φ
  writeQueue : List φ

namespace AsyncFuncScheduler

variable {φ : Type}

def new (maxEventCount : ℕ) (h : 0 < maxEventCount) : AsyncFuncScheduler φ := ⟨maxEventCount, h, [], []⟩

/-- `add`, given whether there is memory for the future; `none` if the function is refused -/
def add (s : AsyncFuncScheduler φ) (allocated : Bool) (func : φ) : Option (AsyncFuncScheduler φ) :=
  if s.writeQueue.length = s.maxEventCount then none
  else if !allocated then none
  else some { s with writeQueue := s.writeQueue ++ [func] }

/-- the start of `run`; `none` if there is nothing to run -/
def swap (s : AsyncFuncScheduler φ) : Option (AsyncFuncScheduler φ) :=
  if s.writeQueue.isEmpty then none
  else some { s with writeQueue := s.readQueue, readQueue := s.writeQueue }

/-- the end of `run` -/
def clear (s : AsyncFuncScheduler φ) : AsyncFuncScheduler φ := { s with readQueue := [] }

theorem add_spec {s s' : AsyncFuncScheduler φ} {allocated : Bool} {func : φ} (h : s.add allocated func = some s') :
    s'.writeQueue = s.writeQueue ++ [func] ∧ s'.readQueue = s.readQueue := by
  unfold add at h
  split_ifs at h
  rw [Option.some.injEq] at h
  rw [← h]
  exact ⟨rfl, rfl⟩

theorem swap_spec {s s' : AsyncFuncScheduler φ} (h : s.swap = some s') :
    s'.writeQueue = s.readQueue ∧ s'.readQueue = s.writeQueue := by
  unfold swap at h
  split_ifs at h
  rw [Option.some.injEq] at h
  rw [← h]
  exact ⟨rfl, rfl⟩

end AsyncFuncScheduler

end ControlComponents.Scheduler
