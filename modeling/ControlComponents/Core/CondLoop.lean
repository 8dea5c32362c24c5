/-
A value under a mutex, and tasks that wait on a condition variable until the value is ready: `while (!ready) cond.wait(..)`.

Several components (`ocs_net`, `ocs_http`) wait in this way. What a task does while it holds the mutex is one step; between
two of them other tasks take theirs. A wait whose time is over leaves its entry in the queue, so a task may be notified for
a wait that it has left.

- `step_inv`: a task that is blocked and not notified is in the queue, and the queue is empty once the value is ready.
- `notified_of_ready`: once the value is ready no task is left blocked. `returns_when_ready`: each of them returns then.
- `returns_result`: a wait that has not expired returns the result of the value at that time.
-/
import ControlComponents.Core.Cond
import ControlComponents.Lib.Histories

namespace ControlComponents.Core.CondLoop

open ControlComponents.Lib.Histories ControlComponents.Lib.Runs

/-! ## Model -/

/-- values `σ`, changed by updates `υ`, and when a wait for them is over and with which status. A value does not cease to be
ready, and an update that makes it ready notifies all tasks. -/
structure Guard (σ υ : Type) where
  ready : σ → Option StatusCode
  apply : σ → υ → σ
  broadcasts : υ → Bool
  stays : ∀ s u, ready s ≠ none → ready (apply s u) ≠ none
  quiet : ∀ s u, broadcasts u = false → ready (apply s u) ≠ none → ready s ≠ none

/-- where a task is: it waits from the entry in the queue on, and then takes the mutex again -/
inductive Place where
  | outside
  | waiting
  | relocking (notified : Bool)
deriving DecidableEq

inductive Entry (τ υ : Type) where
  | updated (u : υ)
  /-- a wait has returned, because its time was over or for another reason -/
  | returned (task : τ) (expired : Bool) (code : StatusCode)
deriving DecidableEq

structure World (τ σ υ : Type) where
  value : σ
  cond : Cond τ
  place : τ → Place
  /-- the notification values -/
  notified : τ → ℕ
  log : List (Entry τ υ)

inductive Event (τ υ : Type) where
  | call (task : τ)
  /-- `ulTaskNotifyTake` returns the value and clears it -/
  | wake (task : τ)
  /-- the time of `ulTaskNotifyTake` is over; a wait with an infinite timeout has no such step -/
  | expire (task : τ)
  | relock (task : τ)
  /-- a notification from elsewhere -/
  | give (task : τ)
  | update (u : υ)

section

variable {τ σ υ : Type} [DecidableEq τ]

def World.start (initial : σ) : World τ σ υ := ⟨initial, ⟨[]⟩, fun _ => .outside, fun _ => 0, []⟩

def World.move (w : World τ σ υ) (task : τ) (place : Place) : World τ σ υ :=
  { w with place := Function.update w.place task place }

def World.leave (w : World τ σ υ) (task : τ) (expired : Bool) (code : StatusCode) : World τ σ υ :=
  { w with place := Function.update w.place task .outside, log := w.log ++ [.returned task expired code] }

/-- the test of the loop: the task returns, or it enters the queue -/
def turn (g : Guard σ υ) (w : World τ σ υ) (task : τ) : World τ σ υ :=
  match g.ready w.value with
  | some code => w.leave task false code
  | none => { w with cond := w.cond.appendTask task }.move task .waiting

def update (g : Guard σ υ) (w : World τ σ υ) (u : υ) : World τ σ υ :=
  let w := { w with value := g.apply w.value u, log := w.log ++ [.updated u] }
  if g.broadcasts u then
    let (notified, cond) := w.cond.broadcast w.notified
    { w with notified, cond }
  else w

def step (g : Guard σ υ) (w : World τ σ υ) : Event τ υ → Option (World τ σ υ)
  | .call task => if w.place task = .outside then some (turn g w task) else none
  | .wake task =>
    if w.place task = .waiting ∧ w.notified task ≠ 0 then
      some ({ w with notified := Function.update w.notified task 0 }.move task (.relocking true))
    else none
  | .expire task =>
    if w.place task = .waiting ∧ w.notified task = 0 then some (w.move task (.relocking false)) else none
  | .relock task =>
    match w.place task with
    | .relocking true => some (turn g w task)
    | .relocking false => some (w.leave task true .error)
    | _ => none
  | .give task => some { w with notified := notifyGive w.notified task }
  | .update u => some (update g w u)

/-- the updates of a log -/
def updates {τ : Type} (log : List (Entry τ υ)) : List υ :=
  log.filterMap fun
    | .updated u => some u
    | .returned .. => none

/-! ## The invariant -/

/-- the task is blocked and has not been notified -/
def Blocked (w : World τ σ υ) (task : τ) : Prop := w.place task = .waiting ∧ w.notified task = 0

/-- what a wait returns: the result of the value that the updates have led to, unless it expires -/
def Returns (g : Guard σ υ) (initial : σ) (before : List (Entry τ υ)) (e : Entry τ υ) : Prop :=
  ∀ task expired code, e = .returned task expired code →
    if expired = true then code = .error
    else g.ready ((updates before).foldl g.apply initial) = some code

structure Inv (g : Guard σ υ) (initial : σ) (w : World τ σ υ) : Prop where
  queued : ∀ task, Blocked w task → task ∈ w.cond.tasks
  empty : g.ready w.value ≠ none → w.cond.tasks = []
  value : w.value = (updates w.log).foldl g.apply initial
  log : Obeys (Returns g initial) w.log

variable {g : Guard σ υ} {initial : σ}

omit [DecidableEq τ] in
theorem start_inv (hinitial : g.ready initial = none) : Inv g initial (.start initial : World τ σ υ) where
  queued task h := by cases h.1
  empty h := absurd hinitial h
  value := rfl
  log := obeys_nil _

/-- a task that moves and does not block leaves the queue as it is for the others -/
theorem move_queued {w : World τ σ υ} (h : ∀ task, Blocked w task → task ∈ w.cond.tasks) {task : τ} {place : Place}
    (hplace : place ≠ .waiting) : ∀ other, Blocked (w.move task place) other → other ∈ w.cond.tasks := by
  intro other hother
  obtain ⟨hother, hzero⟩ := hother
  have hother : Function.update w.place task place other = .waiting := hother
  by_cases hne : other = task
  · rw [hne, Function.update_self] at hother
    exact absurd hother hplace
  · rw [Function.update_of_ne hne] at hother
    exact h other ⟨hother, hzero⟩

omit [DecidableEq τ] in
theorem updates_append (log log' : List (Entry τ υ)) : updates (log ++ log') = updates log ++ updates log' :=
  List.filterMap_append

omit [DecidableEq τ] in
theorem updates_concat_returned (log : List (Entry τ υ)) (task : τ) (expired : Bool) (code : StatusCode) :
    updates (log ++ [.returned task expired code]) = updates log := by
  simp [updates]

omit [DecidableEq τ] in
theorem updates_concat_updated (log : List (Entry τ υ)) (u : υ) :
    updates (log ++ [.updated u]) = updates log ++ [u] := by
  simp [updates]

theorem leave_inv {w : World τ σ υ} (hw : Inv g initial w) (task : τ) {expired : Bool} {code : StatusCode}
    (hcode : if expired = true then code = .error else g.ready w.value = some code) :
    Inv g initial (w.leave task expired code) where
  queued := by
    have houtside : Place.outside ≠ .waiting := by simp
    exact move_queued hw.queued houtside
  empty := hw.empty
  value := by
    show w.value = (updates (w.log ++ [.returned task expired code])).foldl g.apply initial
    rw [updates_concat_returned]
    exact hw.value
  log := by
    refine (obeys_concat w.log _).2 ⟨hw.log, ?_⟩
    intro other expired' code' heq
    obtain ⟨-, rfl, rfl⟩ := Entry.returned.inj heq
    rw [← hw.value]
    exact hcode

theorem turn_inv {w : World τ σ υ} (hw : Inv g initial w) (task : τ) : Inv g initial (turn g w task) := by
  unfold turn
  cases hready : g.ready w.value with
  | some code => exact leave_inv hw task (by simp [hready])
  | none =>
    refine ⟨?_, fun h => absurd hready h, hw.value, hw.log⟩
    intro other hother
    by_cases hne : other = task
    · exact List.mem_append_right _ (List.mem_singleton.2 hne)
    · obtain ⟨hplace, hzero⟩ := hother
      have hplace : Function.update w.place task .waiting other = .waiting := hplace
      rw [Function.update_of_ne hne] at hplace
      exact List.mem_append_left _ (hw.queued other ⟨hplace, hzero⟩)

/-- an update notifies every task that is blocked, or does not make the value ready -/
theorem update_inv {w : World τ σ υ} (hw : Inv g initial w) (u : υ) : Inv g initial (update g w u) := by
  have hvalue : g.apply w.value u = (updates (w.log ++ [.updated u])).foldl g.apply initial := by
    rw [updates_concat_updated, List.foldl_concat, ← hw.value]
  have hlog : Obeys (Returns g initial) (w.log ++ [.updated u]) :=
    (obeys_concat w.log _).2 ⟨hw.log, fun _ _ _ heq => by cases heq⟩
  unfold update
  simp only
  split_ifs with hbroadcast
  · refine ⟨?_, fun _ => rfl, hvalue, hlog⟩
    intro task htask
    obtain ⟨hplace, hzero⟩ := htask
    have hzero : Cond.broadcastLoop w.cond.tasks w.notified task = 0 := hzero
    rw [Cond.broadcastLoop_apply, Nat.add_eq_zero_iff] at hzero
    exact absurd (hw.queued task ⟨hplace, hzero.1⟩) (List.count_eq_zero.1 hzero.2)
  · refine ⟨hw.queued, fun hready => ?_, hvalue, hlog⟩
    exact hw.empty (g.quiet w.value u (Bool.eq_false_iff.2 hbroadcast) hready)

theorem step_inv (w : World τ σ υ) (e : Event τ υ) (w' : World τ σ υ) (hw : Inv g initial w)
    (h : step g w e = some w') : Inv g initial w' := by
  cases e with
  | call task =>
    simp only [step] at h
    split_ifs at h
    exact Option.some.inj h ▸ turn_inv hw task
  | wake task =>
    simp only [step] at h
    split_ifs at h
    obtain rfl := Option.some.inj h
    refine ⟨?_, hw.empty, hw.value, hw.log⟩
    intro other hother
    obtain ⟨hplace, hzero⟩ := hother
    have hplace : Function.update w.place task (.relocking true) other = .waiting := hplace
    have hzero : Function.update w.notified task 0 other = 0 := hzero
    by_cases hne : other = task
    · rw [hne, Function.update_self] at hplace
      cases hplace
    · rw [Function.update_of_ne hne] at hplace hzero
      exact hw.queued other ⟨hplace, hzero⟩
  | expire task =>
    simp only [step] at h
    split_ifs at h
    obtain rfl := Option.some.inj h
    exact ⟨move_queued hw.queued (by simp), hw.empty, hw.value, hw.log⟩
  | relock task =>
    simp only [step] at h
    split at h
    · exact Option.some.inj h ▸ turn_inv hw task
    · exact Option.some.inj h ▸ leave_inv hw task rfl
    · cases h
  | give task =>
    obtain rfl := Option.some.inj h
    refine ⟨?_, hw.empty, hw.value, hw.log⟩
    intro other hother
    obtain ⟨hplace, hzero⟩ := hother
    have hzero : notifyGive w.notified task other = 0 := hzero
    by_cases hne : other = task
    · rw [hne, Cond.notifyGive_self] at hzero
      cases hzero
    · rw [Cond.notifyGive_of_ne _ hne] at hzero
      exact hw.queued other ⟨hplace, hzero⟩
  | update u => exact Option.some.inj h ▸ update_inv hw u

theorem exec_step_inv (hinitial : g.ready initial = none) (es : List (Event τ υ)) (w : World τ σ υ)
    (h : exec (step g) (.start initial) es = some w) : Inv g initial w :=
  exec_inv step_inv (start_inv hinitial) es h

/-! ## Waiting -/

omit [DecidableEq τ] in
/-- **No lost wake-up.** Once the value is ready, every task that waits has been notified. -/
theorem notified_of_ready {w : World τ σ υ} (hw : Inv g initial w) (hready : g.ready w.value ≠ none) {task : τ}
    (hplace : w.place task = .waiting) : w.notified task ≠ 0 := by
  intro hzero
  have hmem := hw.queued task ⟨hplace, hzero⟩
  rw [hw.empty hready] at hmem
  cases hmem

theorem turn_of_ready {w : World τ σ υ} {code : StatusCode} (hready : g.ready w.value = some code) (task : τ) :
    turn g w task = w.leave task false code := by
  rw [turn, hready]

/-- a task that calls once the value is ready returns at once -/
theorem call_when_ready {w : World τ σ υ} {code : StatusCode} (hready : g.ready w.value = some code) {task : τ}
    (hplace : w.place task = .outside) : step g w (.call task) = some (w.leave task false code) := by
  simp only [step, if_pos hplace, turn_of_ready hready]

/-- **The end of a wait.** A task that waits while the value is ready can take its next two steps, and returns the result. -/
theorem returns_when_ready {w : World τ σ υ} (hw : Inv g initial w) {code : StatusCode}
    (hready : g.ready w.value = some code) {task : τ} (hplace : w.place task = .waiting) :
    ∃ w', exec (step g) w [.wake task, .relock task] = some w' ∧ w'.place task = .outside ∧
      w'.log = w.log ++ [.returned task false code] := by
  have hnotified : w.notified task ≠ 0 := notified_of_ready hw (by rw [hready]; exact Option.some_ne_none code) hplace
  let woken := { w with notified := Function.update w.notified task 0 }.move task (.relocking true)
  have hwoken : woken.place task = .relocking true := Function.update_self _ _ _
  have hturn : turn g woken task = woken.leave task false code := turn_of_ready (w := woken) hready task
  refine ⟨woken.leave task false code, ?_, Function.update_self _ _ _, rfl⟩
  simp only [exec, step, if_pos (And.intro hplace hnotified), Option.bind_some]
  show (match woken.place task with
    | .relocking true => some (turn g woken task)
    | .relocking false => some (woken.leave task true .error)
    | _ => none).bind _ = _
  rw [hwoken, hturn]
  rfl

omit [DecidableEq τ] in
/-- **What a wait returns**: the result of the value at that time, or an error because its time is over. -/
theorem returns_result {w : World τ σ υ} (hw : Inv g initial w) {before after : List (Entry τ υ)} {task : τ}
    {expired : Bool} {code : StatusCode} (h : w.log = before ++ .returned task expired code :: after) :
    if expired = true then code = .error else g.ready ((updates before).foldl g.apply initial) = some code :=
  hw.log before _ after h task expired code rfl

end

end ControlComponents.Core.CondLoop
