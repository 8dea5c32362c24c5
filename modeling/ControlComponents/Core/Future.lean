/-
`Future` (`ocs_core`): the result of a function that another task runs, and the tasks that wait for it in its condition
variable.

What `Future` does under its mutex is one step; a task that waits goes to sleep between two of them, until it is notified or
its time is over.
-/
import ControlComponents.Basic

namespace ControlComponents.Core

/-- a future, with the tasks in the queue of its condition variable -/
structure Future (θ : Type) where
  code : StatusCode
  tasks : List θ

namespace Future

variable {θ : Type}

def new : Future θ := ⟨.last, []⟩

/-- `notify`: the tasks that are given a notification by the broadcast, in order -/
def notify (f : Future θ) (code : StatusCode) : List θ × Future θ := (f.tasks, ⟨code, []⟩)

/-- one turn of the loop of `wait`: the task is queued before it goes to sleep; `none` if there is a result to return -/
def wait (f : Future θ) (task : θ) : Option (Future θ) :=
  if f.code = .last then some { f with tasks := f.tasks ++ [task] } else none

@[simp] theorem new_code : (new : Future θ).code = .last := rfl

theorem wait_code {f f' : Future θ} {task : θ} (h : f.wait task = some f') : f'.code = f.code := by
  unfold wait at h
  split_ifs at h
  rw [Option.some.injEq] at h
  rw [← h]

end Future

end ControlComponents.Core
