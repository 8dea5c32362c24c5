/-
`Cond` (`ocs_core`): a condition variable as a queue of tasks, over the direct-to-task notifications of FreeRTOS.

A task that waits puts itself into the queue and blocks until its notification value is not 0 or its time is over. A wait
whose time is over leaves its entry in the queue, so the first entry may be of a task that is no longer waiting.

- `Inv`: a task that waits and is not notified has an entry in the queue.
- `wakes_iff`: a signal wakes a waiting task exactly when the first entry is of one. `expired_absorbs` is a run in which it
  is not.
- `never_expires`: without timeouts the queue holds each task that waits and is not notified once, and no other one.
-/
import ControlComponents.Basic
import ControlComponents.Lib.Runs

namespace ControlComponents.Core

open ControlComponents.Lib.Runs

/-! ## Model -/

/-- `xTaskNotifyGive` on the notification values of the tasks -/
def notifyGive {τ : Type} [DecidableEq τ] (value : τ → ℕ) (task : τ) : τ → ℕ :=
  Function.update value task (value task + 1)

structure Cond (τ : Type) where
  tasks : List τ

namespace Cond

variable {τ : Type} [DecidableEq τ]

def appendTask (c : Cond τ) (task : τ) : Cond τ := ⟨c.tasks ++ [task]⟩

def signal (c : Cond τ) (value : τ → ℕ) : (τ → ℕ) × Cond τ :=
  match c.tasks with
  | [] => (value, c)
  | task :: tasks => (notifyGive value task, ⟨tasks⟩)

/-- the loop of `broadcast`, over the tasks that are left -/
def broadcastLoop : List τ → (τ → ℕ) → τ → ℕ
  | [], value => value
  | task :: tasks, value => broadcastLoop tasks (notifyGive value task)

def broadcast (c : Cond τ) (value : τ → ℕ) : (τ → ℕ) × Cond τ := (broadcastLoop c.tasks value, ⟨[]⟩)

/-- where a task is: outside `wait`, with what its last `wait` returned, or in it. It waits from the entry in the queue on: a
notification that comes before `ulTaskNotifyTake` makes that return at once. -/
inductive Place where
  | outside (last : Option StatusCode)
  | waiting
deriving DecidableEq

structure World (τ : Type) where
  cond : Cond τ
  place : τ → Place
  value : τ → ℕ

inductive Event (τ : Type) where
  | wait (task : τ)
  /-- `ulTaskNotifyTake` returns the value and clears it -/
  | wake (task : τ)
  /-- the time of a wait is over; a wait with an infinite timeout has no such step -/
  | expire (task : τ)
  | signal
  | broadcast

def World.start : World τ := ⟨⟨[]⟩, fun _ => .outside none, fun _ => 0⟩

def step (w : World τ) : Event τ → Option (World τ)
  | .wait task =>
    if w.place task = .waiting then none
    else some { w with cond := w.cond.appendTask task, place := Function.update w.place task .waiting }
  | .wake task =>
    if w.place task = .waiting ∧ w.value task ≠ 0 then
      some { w with
        place := Function.update w.place task (.outside (some .ok))
        value := Function.update w.value task 0 }
    else none
  | .expire task =>
    if w.place task = .waiting ∧ w.value task = 0 then
      some { w with place := Function.update w.place task (.outside (some .error)) }
    else none
  | .signal =>
    let (value, cond) := w.cond.signal w.value
    some { w with value, cond }
  | .broadcast =>
    let (value, cond) := w.cond.broadcast w.value
    some { w with value, cond }

/-! ## Signals -/

/-- the task is blocked in `wait` and has not been notified -/
def Blocked (w : World τ) (task : τ) : Prop := w.place task = .waiting ∧ w.value task = 0

instance (w : World τ) (task : τ) : Decidable (Blocked w task) := by
  unfold Blocked; infer_instance

/-- the last `wait` of the task has ended by timeout -/
def Expired (w : World τ) (task : τ) : Prop := w.place task = .outside (some .error)

/-- the task is given a notification by a signal -/
def Signalled (w : World τ) (task : τ) : Prop := (w.cond.signal w.value).1 task = w.value task + 1

/-- a signal notifies a blocked task if there is one, and no task that has left by timeout -/
def Wakes (w : World τ) : Event τ → Prop
  | .signal => (∀ task, Blocked w task → ∃ other, Blocked w other ∧ Signalled w other) ∧
      ∀ task, Signalled w task → ¬ Expired w task
  | _ => True

/-- when a signal comes, the first entry is not of a task that has left by timeout, and it is of a blocked one if there is
one at all -/
def FirstBlocked (w : World τ) : Event τ → Prop
  | .signal => ∀ first ∈ w.cond.tasks.head?, ¬ Expired w first ∧ ∀ task, Blocked w task → Blocked w first
  | _ => True

theorem notifyGive_self (value : τ → ℕ) (task : τ) : notifyGive value task task = value task + 1 :=
  Function.update_self _ _ _

theorem notifyGive_of_ne (value : τ → ℕ) {task other : τ} (h : other ≠ task) :
    notifyGive value task other = value other := Function.update_of_ne h _ _

/-- a broadcast gives a task as many notifications as it has entries -/
theorem broadcastLoop_apply (tasks : List τ) (value : τ → ℕ) (task : τ) :
    broadcastLoop tasks value task = value task + tasks.count task := by
  induction tasks generalizing value with
  | nil => rfl
  | cons first tasks ih =>
    rw [broadcastLoop, ih]
    by_cases h : task = first
    · subst h
      rw [notifyGive_self, List.count_cons_self]
      omega
    · rw [notifyGive_of_ne _ h, List.count_cons_of_ne (Ne.symm h)]

/-- a signal goes to the first entry -/
theorem signalled_iff (w : World τ) (task : τ) : Signalled w task ↔ w.cond.tasks.head? = some task := by
  unfold Signalled signal
  cases htasks : w.cond.tasks with
  | nil => simp
  | cons first tasks =>
    by_cases h : task = first
    · subst h
      simp [notifyGive_self]
    · simp [notifyGive_of_ne _ h, Ne.symm h]

/-! ## The queue -/

/-- every blocked task has an entry -/
def Inv (w : World τ) : Prop := ∀ task, Blocked w task → task ∈ w.cond.tasks

omit [DecidableEq τ] in
theorem start_inv : Inv (.start : World τ) := by
  intro task h
  cases h.1

theorem update_waiting {place : τ → Place} {task other : τ} {last : Option StatusCode}
    (h : Function.update place task (.outside last) other = .waiting) : other ≠ task ∧ place other = .waiting := by
  have hne : other ≠ task := by
    intro heq
    subst heq
    rw [Function.update_self] at h
    cases h
  rw [Function.update_of_ne hne] at h
  exact ⟨hne, h⟩

theorem step_inv (w : World τ) (e : Event τ) (w' : World τ) (hw : Inv w) (h : step w e = some w') : Inv w' := by
  cases e with
  | wait task =>
    simp only [step] at h
    split_ifs at h
    obtain rfl := Option.some.inj h
    intro other hother
    obtain ⟨hplace, hvalue⟩ := hother
    refine List.mem_append.2 ?_
    by_cases hne : other = task
    · exact .inr (List.mem_singleton.2 hne)
    · have hplace : Function.update w.place task .waiting other = .waiting := hplace
      rw [Function.update_of_ne hne] at hplace
      exact .inl (hw other ⟨hplace, hvalue⟩)
  | wake task =>
    simp only [step] at h
    split_ifs at h
    obtain rfl := Option.some.inj h
    intro other hother
    obtain ⟨hplace, hvalue⟩ := hother
    obtain ⟨hne, hplace⟩ := update_waiting hplace
    simp only [Function.update_of_ne hne] at hvalue
    exact hw other ⟨hplace, hvalue⟩
  | expire task =>
    simp only [step] at h
    split_ifs at h
    obtain rfl := Option.some.inj h
    intro other hother
    obtain ⟨hplace, hvalue⟩ := hother
    exact hw other ⟨(update_waiting hplace).2, hvalue⟩
  | signal =>
    obtain rfl := Option.some.inj h
    intro other hother
    obtain ⟨hplace, hvalue⟩ := hother
    cases htasks : w.cond.tasks with
    | nil =>
      simp only [htasks] at hvalue
      exact absurd (hw other ⟨hplace, hvalue⟩) (by simp [htasks])
    | cons first tasks =>
      simp only [htasks] at hvalue
      have hne : other ≠ first := by
        intro heq
        subst heq
        rw [notifyGive_self] at hvalue
        cases hvalue
      rw [notifyGive_of_ne _ hne] at hvalue
      have hmem := hw other ⟨hplace, hvalue⟩
      rw [htasks] at hmem
      exact (List.mem_cons.1 hmem).resolve_left hne
  | broadcast =>
    obtain rfl := Option.some.inj h
    intro other hother
    obtain ⟨hplace, hvalue⟩ := hother
    have hvalue : broadcastLoop w.cond.tasks w.value other = 0 := hvalue
    rw [broadcastLoop_apply, Nat.add_eq_zero_iff] at hvalue
    exact absurd (hw other ⟨hplace, hvalue.1⟩) (List.count_eq_zero.1 hvalue.2)

/-- a signal finds an entry if a task is blocked, and goes to the first one -/
theorem wakes_iff_firstBlocked (w : World τ) (hw : Inv w) (e : Event τ) : Wakes w e ↔ FirstBlocked w e := by
  cases e with
  | signal =>
    simp only [Wakes, FirstBlocked, signalled_iff, Option.mem_def]
    refine ⟨?_, ?_⟩
    · intro h first hfirst
      obtain ⟨hwake, hleft⟩ := h
      refine ⟨hleft first hfirst, fun task htask => ?_⟩
      obtain ⟨other, hother, hhead⟩ := hwake task htask
      rw [hfirst, Option.some.injEq] at hhead
      exact hhead ▸ hother
    · intro hfirst
      refine ⟨fun task htask => ?_, fun task htask => (hfirst task htask).1⟩
      cases hhead : w.cond.tasks.head? with
      | none =>
        rw [List.head?_eq_none_iff] at hhead
        exact absurd (hw task htask) (by simp [hhead])
      | some first => exact ⟨first, (hfirst first hhead).2 task htask, rfl⟩
  | _ => exact Iff.rfl

/-! ## Without timeouts -/

/-- the queue holds the blocked tasks, each once, and only tasks that wait are notified -/
structure Exact (w : World τ) : Prop where
  nodup : w.cond.tasks.Nodup
  mem : ∀ task, task ∈ w.cond.tasks ↔ Blocked w task
  notified : ∀ task, w.value task ≠ 0 → w.place task = .waiting

omit [DecidableEq τ] in
theorem start_exact : Exact (.start : World τ) where
  nodup := List.nodup_nil
  mem task := by simp [World.start, Blocked]
  notified task h := absurd rfl h

def IsExpire : Event τ → Prop
  | .expire _ => True
  | _ => False

theorem wait_exact {w : World τ} (hw : Exact w) {task : τ} (h : w.place task ≠ .waiting) :
    Exact { w with cond := w.cond.appendTask task, place := Function.update w.place task .waiting } := by
  have hnot : task ∉ w.cond.tasks := fun hmem => h ((hw.mem task).1 hmem).1
  have hvalue : w.value task = 0 := by
    by_contra hne
    exact h (hw.notified task hne)
  refine ⟨?_, ?_, ?_⟩
  · refine List.Nodup.append hw.nodup (List.nodup_singleton _) ?_
    intro other hother hmem
    rw [List.mem_singleton] at hmem
    exact hnot (hmem ▸ hother)
  · intro other
    show other ∈ w.cond.tasks ++ [task] ↔ Function.update w.place task .waiting other = .waiting ∧ w.value other = 0
    rw [List.mem_append, List.mem_singleton, hw.mem]
    by_cases hne : other = task
    · subst hne
      simp [hvalue]
    · simp [hne, Blocked]
  · intro other hother
    show Function.update w.place task .waiting other = .waiting
    by_cases hne : other = task
    · rw [hne, Function.update_self]
    · rw [Function.update_of_ne hne]
      exact hw.notified other hother

theorem wake_exact {w : World τ} (hw : Exact w) {task : τ} (h : w.value task ≠ 0) :
    Exact { w with
      place := Function.update w.place task (.outside (some .ok))
      value := Function.update w.value task 0 } := by
  refine ⟨hw.nodup, ?_, ?_⟩
  · intro other
    show other ∈ w.cond.tasks ↔ Function.update w.place task (.outside (some .ok)) other = .waiting ∧
      Function.update w.value task 0 other = 0
    rw [hw.mem]
    by_cases hne : other = task
    · subst hne
      simp [Blocked, h]
    · rw [Function.update_of_ne hne, Function.update_of_ne hne]
      rfl
  · intro other hother
    have hother : Function.update w.value task 0 other ≠ 0 := hother
    have hne : other ≠ task := by
      intro heq
      subst heq
      exact hother (Function.update_self _ _ _)
    rw [Function.update_of_ne hne] at hother
    exact (Function.update_of_ne hne _ _).trans (hw.notified other hother)

theorem signal_exact {w : World τ} (hw : Exact w) :
    Exact { w with value := (w.cond.signal w.value).1, cond := (w.cond.signal w.value).2 } := by
  unfold signal
  cases htasks : w.cond.tasks with
  | nil => exact hw
  | cons first tasks =>
    have hnodup := hw.nodup
    rw [htasks, List.nodup_cons] at hnodup
    have hfirst : Blocked w first := (hw.mem first).1 (by simp [htasks])
    refine ⟨hnodup.2, ?_, ?_⟩
    · intro other
      show other ∈ tasks ↔ w.place other = .waiting ∧ notifyGive w.value first other = 0
      by_cases hne : other = first
      · subst hne
        simp [hnodup.1, notifyGive_self]
      · have hmem := hw.mem other
        rw [htasks, List.mem_cons, or_iff_right hne] at hmem
        rw [hmem, notifyGive_of_ne _ hne]
        rfl
    · intro other hother
      have hother : notifyGive w.value first other ≠ 0 := hother
      by_cases hne : other = first
      · exact hne ▸ hfirst.1
      · rw [notifyGive_of_ne _ hne] at hother
        exact hw.notified other hother

theorem broadcast_exact {w : World τ} (hw : Exact w) :
    Exact { w with value := (w.cond.broadcast w.value).1, cond := (w.cond.broadcast w.value).2 } := by
  have hvalue (task : τ) : (w.cond.broadcast w.value).1 task = w.value task + w.cond.tasks.count task :=
    broadcastLoop_apply _ _ _
  refine ⟨List.nodup_nil, ?_, ?_⟩
  · intro task
    refine iff_of_false List.not_mem_nil ?_
    intro h
    obtain ⟨hplace, hzero⟩ := h
    simp only [hvalue, Nat.add_eq_zero_iff, List.count_eq_zero] at hzero
    exact hzero.2 ((hw.mem task).2 ⟨hplace, hzero.1⟩)
  · intro task htask
    simp only [hvalue] at htask
    by_cases hmem : task ∈ w.cond.tasks
    · exact ((hw.mem task).1 hmem).1
    · rw [List.count_eq_zero.2 hmem] at htask
      exact hw.notified task htask

theorem step_exact (w : World τ) (e : Event τ) (w' : World τ) (hw : Exact w) (he : ¬ IsExpire e)
    (h : step w e = some w') : Exact w' := by
  cases e with
  | wait task =>
    simp only [step] at h
    split_ifs at h with hplace
    exact Option.some.inj h ▸ wait_exact hw hplace
  | wake task =>
    simp only [step] at h
    split_ifs at h with hplace
    exact Option.some.inj h ▸ wake_exact hw hplace.2
  | expire task => exact absurd trivial he
  | signal => exact Option.some.inj h ▸ signal_exact hw
  | broadcast => exact Option.some.inj h ▸ broadcast_exact hw

omit [DecidableEq τ] in
theorem Exact.firstBlocked {w : World τ} (hw : Exact w) (e : Event τ) : FirstBlocked w e := by
  cases e with
  | signal =>
    intro first hfirst
    have hblocked : Blocked w first := (hw.mem first).1 (List.mem_of_mem_head? hfirst)
    refine ⟨fun hexp => ?_, fun _ _ => hblocked⟩
    rw [Expired, hblocked.1] at hexp
    cases hexp
  | _ => trivial

/-- in a run without timeouts every signal finds a blocked task first -/
theorem never_expires (es : List (Event τ)) (hes : ∀ e ∈ es, ¬ IsExpire e) {w : World τ} (hw : Exact w) :
    GuardedExec step FirstBlocked w es := by
  induction es generalizing w with
  | nil => trivial
  | cons e es ih =>
    rw [List.forall_mem_cons] at hes
    exact ⟨hw.firstBlocked e, fun w' hw' => ih hes.2 (step_exact w e w' hw hes.1 hw')⟩

/-- **Signals.** For any number of tasks and every order of waits, timeouts, signals and broadcasts: all signals of the run
wake a blocked task if there is one, and none goes to a task that has left by timeout, iff each of them finds the entry of
such a task first. In particular they do in runs without timeouts. -/
theorem wakes_iff (es : List (Event τ)) :
    (GuardedExec step Wakes .start es ↔ GuardedExec step FirstBlocked .start es) ∧
      ((∀ e ∈ es, ¬ IsExpire e) → GuardedExec step Wakes .start es) := by
  have hiff : GuardedExec step Wakes .start es ↔ GuardedExec step FirstBlocked .start es := by
    have hstep (w : World τ) (e : Event τ) (w' : World τ) (hw : Inv w) (_ : True) (h : step w e = some w') : Inv w' :=
      step_inv w e w' hw h
    have hcond (w : World τ) (e : Event τ) (hw : Inv w) (_ : True) : Wakes w e ↔ FirstBlocked w e :=
      wakes_iff_firstBlocked w hw e
    exact guardedExec_congr hstep hcond start_inv es (guardedExec_true _ es)
  exact ⟨hiff, fun hes => hiff.2 (never_expires es hes start_exact)⟩

theorem wakes_iff_example : GuardedExec step Wakes .start [.wait 0, .wait 1, .signal, .wake 0, .signal, .wake 1] :=
  (wakes_iff _).2 (by simp [IsExpire])

def SignalWakes : Prop := ∀ es : List (Event ℕ), GuardedExec step Wakes .start es

/-- one task waits until its time is over, then another one waits, and a signal comes -/
def expiredFirst : List (Event ℕ) := [.wait 0, .expire 0, .wait 1, .signal]

def expiredEnd : World ℕ := (exec step .start expiredFirst).get (by decide)

/-- **A timed-out task absorbs a signal.** The signal goes to the task that has left, and the other one stays blocked. -/
theorem expired_absorbs : ¬ SignalWakes ∧ expiredEnd.value 0 = 1 ∧ Blocked expiredEnd 1 := by
  refine ⟨fun h => ?_, by decide, by decide⟩
  obtain ⟨_, hwait⟩ := h expiredFirst
  obtain ⟨_, hexpire⟩ := hwait _ rfl
  obtain ⟨_, hother⟩ := hexpire _ rfl
  obtain ⟨⟨_, hleft⟩, _⟩ := hother _ rfl
  exact hleft 0 rfl rfl

end Cond

end ControlComponents.Core
