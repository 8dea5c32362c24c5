/-
Requests whose handlers have the scheduler task run a function: `DS18B20Handler`, which schedules it on a node of the
`Store`, and `AnalogConfigStoreHandler`, which schedules it on an `AsyncFuncScheduler` of its own.

The function refers to the locals of `serve_http`, so it must not run when that call has returned. The server task, the
scheduler task and all other tasks take steps in any order; a step is what a task does under a mutex or between two
calls. The nodes are told apart by a key: the GPIO of a node of the store, and one key more for the other scheduler.

- `step_inv`: a function of `serve_http` is queued or runs only for the call that is being served, as long as no call
  returns from a wait that has expired while its function is queued or runs.
- `executes_while_served`: the same for runs. `executes_after_return` are runs in which the wait expires.
-/
import ControlComponents.Core.Future
import ControlComponents.Scheduler.AsyncFuncScheduler
import ControlComponents.Lib.Runs
import Mathlib.Data.List.ReduceOption

namespace ControlComponents.Pipeline

open ControlComponents.Core ControlComponents.Scheduler ControlComponents.Lib.Runs

/-! ## Model -/

/-- a scheduled function: that of a call of `serve_http`, by its number, or any other -/
abbrev ScheduledFunc := Option ℕ

/-- the server task in `serve_http` -/
inductive HttpTask where
  /-- in no call -/
  | idle
  /-- in `Future::wait`, about to look at the result -/
  | waiting (call : ℕ)
  /-- in `ulTaskNotifyTake` -/
  | asleep (call : ℕ)
  /-- the wait has expired; what is left is to return `Timeout` -/
  | expired (call : ℕ)
  /-- the wait has succeeded; what is left is to respond and return -/
  | ready (call : ℕ)

/-- the call being served -/
def HttpTask.call : HttpTask → Option ℕ
  | .idle => none
  | .waiting call | .asleep call | .expired call | .ready call => some call

/-- the scheduler task in `Store::run`, with the nodes to come, or in `AsyncFuncScheduler::run` -/
inductive SchedulerTask (κ : Type) where
  | idle
  | visiting (rest : List κ)
  /-- between two functions -/
  | draining (node : κ) (left : List ScheduledFunc) (rest : List κ)
  | executing (node : κ) (func : ScheduledFunc) (left : List ScheduledFunc) (rest : List κ)
  /-- the function has returned `code`, which its future is about to be notified of -/
  | notifying (node : κ) (func : ScheduledFunc) (code : StatusCode) (left : List ScheduledFunc) (rest : List κ)

structure System (κ : Type) where
  nodes : List κ
  scheduler : κ → AsyncFuncScheduler ScheduledFunc
  /-- the futures of the calls of `serve_http`, in which only the server task waits -/
  future : ℕ → Future Unit
  /-- the number of calls that have scheduled a function -/
  calls : ℕ
  http : HttpTask
  /-- the notification value of the server task -/
  notified : ℕ
  task : SchedulerTask κ

/-- a step of a task; whether memory is allocated and what a function returns is part of the event -/
inductive Event (κ : Type) where
  /-- a request whose handler schedules a function -/
  | request (node : κ) (allocated : Bool)
  /-- a turn of `Future::wait` -/
  | look
  /-- `ulTaskNotifyTake` returns with a notification -/
  | wake
  /-- `ulTaskNotifyTake` returns without one -/
  | expire
  /-- `serve_http` returns -/
  | leave
  /-- any task schedules any other function -/
  | add (node : κ) (allocated : Bool)
  /-- a notification from elsewhere -/
  | stray
  /-- the scheduler task runs a task over these nodes -/
  | run (nodes : List κ)
  /-- `AsyncFuncScheduler::run` of the next node starts -/
  | visit
  /-- the next function of the queue is called, or the queue is cleared -/
  | call
  | done (code : StatusCode)
  | notify

variable {κ : Type}

namespace System

def new (nodes : List κ) (maxEventCount : ℕ) (h : 0 < maxEventCount) : System κ where
  nodes
  scheduler _ := .new maxEventCount h
  future _ := .new
  calls := 0
  http := .idle
  notified := 0
  task := .idle

/-- what schedules a function on a node, if there is the node and its scheduler accepts it -/
def schedule [DecidableEq κ] (s : System κ) (node : κ) (allocated : Bool) (func : ScheduledFunc) : Option (System κ) :=
  if node ∈ s.nodes then
    ((s.scheduler node).add allocated func).map fun scheduler =>
      { s with scheduler := Function.update s.scheduler node scheduler }
  else none

/-- one step, if it is possible -/
def step [DecidableEq κ] (s : System κ) : Event κ → Option (System κ)
  | .request node allocated =>
    match s.http with
    | .idle =>
      match s.schedule node allocated (some s.calls) with
      | none => some s
      | some s' => some { s' with future := Function.update s.future s.calls .new, calls := s.calls + 1,
                                  http := .waiting s.calls }
    | _ => none
  | .look =>
    match s.http with
    | .waiting call =>
      match (s.future call).wait () with
      | none => some { s with http := .ready call }
      | some future => some { s with future := Function.update s.future call future, http := .asleep call }
    | _ => none
  | .wake =>
    match s.http with
    | .asleep call => if s.notified = 0 then none else some { s with notified := 0, http := .waiting call }
    | _ => none
  | .expire =>
    match s.http with
    | .asleep call => if s.notified = 0 then some { s with http := .expired call } else none
    | _ => none
  | .leave =>
    match s.http with
    | .expired _ | .ready _ => some { s with http := .idle }
    | _ => none
  | .add node allocated => some ((s.schedule node allocated none).getD s)
  | .stray => some { s with notified := s.notified + 1 }
  | .run nodes =>
    match s.task with
    | .idle => some { s with task := .visiting nodes }
    | _ => none
  | .visit =>
    match s.task with
    | .visiting [] => some { s with task := .idle }
    | .visiting (node :: rest) =>
      match (s.scheduler node).swap with
      | none => some { s with task := .visiting rest }
      | some scheduler => some { s with scheduler := Function.update s.scheduler node scheduler,
                                        task := .draining node scheduler.readQueue rest }
    | _ => none
  | .call =>
    match s.task with
    | .draining node [] rest =>
      some { s with scheduler := Function.update s.scheduler node (s.scheduler node).clear, task := .visiting rest }
    | .draining node (func :: left) rest => some { s with task := .executing node func left rest }
    | _ => none
  | .done code =>
    match s.task with
    | .executing node func left rest => some { s with task := .notifying node func code left rest }
    | _ => none
  | .notify =>
    match s.task with
    | .notifying node func code left rest =>
      match func with
      | none => some { s with task := .draining node left rest }
      | some call =>
        let (tasks, future) := (s.future call).notify code
        some { s with future := Function.update s.future call future, notified := s.notified + tasks.length,
                      task := .draining node left rest }
    | _ => none

/-! ## The property and the condition -/

/-- the functions of the running queue that have not returned -/
def left (s : System κ) : List ScheduledFunc :=
  match s.task with
  | .draining _ left _ | .notifying _ _ _ left _ => left
  | .executing _ func left _ => func :: left
  | _ => []

/-- the function of a call is queued or runs -/
def Pending (s : System κ) (call : ℕ) : Prop :=
  (∃ node, some call ∈ (s.scheduler node).writeQueue) ∨ some call ∈ s.left

/-- the function of a call runs -/
def Executes (s : System κ) (call : ℕ) : Prop :=
  match s.task with
  | .executing _ func _ _ => func = some call
  | _ => False

/-- no call returns from a wait that has expired while its function is queued or runs -/
def Allowed (s : System κ) (e : Event κ) : Prop :=
  match e, s.http with
  | .leave, .expired call => ¬ s.Pending call
  | _, _ => True

instance [Fintype κ] (s : System κ) (e : Event κ) : Decidable (s.Allowed e) := by
  unfold Allowed Pending
  split <;> infer_instance

/-! ## Invariant -/

/-- where a function that has not returned may be: in the queue of a node, or with the scheduler task -/
inductive Place (κ : Type) where
  | queue (node : κ)
  | task

/-- the functions of `serve_http` at a place, by their calls -/
def owners (s : System κ) : Place κ → List ℕ
  | .queue node => (s.scheduler node).writeQueue.reduceOption
  | .task => s.left.reduceOption

/-- the call whose future is about to be notified -/
def notifies (s : System κ) : Option ℕ :=
  match s.task with
  | .notifying _ func _ _ _ => func
  | _ => none

/-- the node whose queue is being run -/
def drains (s : System κ) : Option κ :=
  match s.task with
  | .draining node _ _ | .executing node _ _ _ | .notifying node _ _ _ _ => some node
  | _ => none

/-- no function of `serve_http` is queued or runs -/
def Clear (s : System κ) : Prop := ∀ p, s.owners p = []

/-- only the function of the call being served is queued or runs, at one place, and has no result -/
structure Located (s : System κ) (call : ℕ) (p : Place κ) : Prop where
  served : s.http.call = some call
  code : (s.future call).code = .last
  notNotified : s.notifies ≠ some call
  here : s.owners p = [call]
  elsewhere : ∀ p', p' ≠ p → s.owners p' = []

structure Inv (s : System κ) : Prop where
  located : s.Clear ∨ ∃ call p, s.Located call p
  fresh : ∀ call, s.http.call = some call ∨ s.notifies = some call → call < s.calls
  ready : ∀ call, s.http = .ready call → s.Clear
  read : ∀ node, s.drains ≠ some node → (s.scheduler node).readQueue = []

theorem pending_iff {s : System κ} {call : ℕ} : s.Pending call ↔ ∃ p, call ∈ s.owners p := by
  refine ⟨?_, ?_⟩
  · rintro (⟨node, h⟩ | h)
    · exact ⟨.queue node, List.reduceOption_mem_iff.2 h⟩
    · exact ⟨.task, List.reduceOption_mem_iff.2 h⟩
  · rintro ⟨p, h⟩
    cases p with
    | queue node => exact Or.inl ⟨node, List.reduceOption_mem_iff.1 h⟩
    | task => exact Or.inr (List.reduceOption_mem_iff.1 h)

theorem Executes.pending {s : System κ} {call : ℕ} (h : s.Executes call) : s.Pending call := by
  unfold Executes at h
  split at h
  · next func left rest htask =>
    refine Or.inr ?_
    rw [System.left, htask, h]
    exact List.mem_cons_self
  · exact absurd h id

theorem Inv.served {s : System κ} (hs : s.Inv) {call : ℕ} (h : s.Pending call) :
    s.http.call = some call ∧ (s.future call).code = .last := by
  obtain ⟨p, hp⟩ := pending_iff.1 h
  rcases hs.located with hclear | ⟨call', p', hloc⟩
  · rw [hclear p] at hp
    cases hp
  · have heq : call = call' := by
      by_cases hpp : p = p'
      · rw [hpp, hloc.here] at hp
        exact List.mem_singleton.1 hp
      · rw [hloc.elsewhere p hpp] at hp
        cases hp
    rw [heq]
    exact ⟨hloc.served, hloc.code⟩

/-- nothing is left of a call whose function is neither queued nor runs -/
theorem Inv.clear {s : System κ} (hs : s.Inv) {call : ℕ} (hcall : s.http.call = some call) (h : ¬ s.Pending call) :
    s.Clear := by
  rcases hs.located with hclear | ⟨call', p, hloc⟩
  · exact hclear
  · exfalso
    apply h
    have heq : call' = call := Option.some.inj (hloc.served.symm.trans hcall)
    exact pending_iff.2 ⟨p, by rw [hloc.here, heq]; exact List.mem_singleton_self call⟩

theorem new_inv (nodes : List κ) (maxEventCount : ℕ) (h : 0 < maxEventCount) : (new nodes maxEventCount h).Inv := by
  refine ⟨Or.inl ?_, ?_, ?_, fun _ _ => rfl⟩
  · intro p
    cases p <;> rfl
  · rintro call (h | h) <;> cases h
  · intro call h
    cases h

/-- a function that does not move is located where it was -/
theorem located_of_owners {s t : System κ} (h : s.Clear ∨ ∃ call p, s.Located call p)
    (howners : ∀ p, t.owners p = s.owners p) (hcall : t.http.call = s.http.call)
    (hcode : ∀ call p, s.Located call p → (t.future call).code = .last)
    (hnotifies : ∀ call p, s.Located call p → t.notifies ≠ some call) : t.Clear ∨ ∃ call p, t.Located call p := by
  rcases h with h | ⟨call, p, hloc⟩
  · exact Or.inl fun p => (howners p).trans (h p)
  · exact Or.inr ⟨call, p, hcall.trans hloc.served, hcode call p hloc, hnotifies call p hloc,
      (howners p).trans hloc.here, fun p' hp' => (howners p').trans (hloc.elsewhere p' hp')⟩

/-! ## Steps -/

/-- what a step of the server task alone keeps -/
theorem Inv.http {s t : System κ} (hs : s.Inv) (hscheduler : t.scheduler = s.scheduler) (htask : t.task = s.task)
    (hcalls : t.calls = s.calls) (hcode : ∀ call, (t.future call).code = (s.future call).code)
    (hcall : t.http.call = s.http.call ∨ t.http.call = none ∧ s.Clear)
    (hready : ∀ call, t.http = .ready call → s.Clear) : t.Inv := by
  have howners (p : Place κ) : t.owners p = s.owners p := by
    cases p with
    | queue node => simp only [owners, hscheduler]
    | task => simp only [owners, left, htask]
  have hnotifies : t.notifies = s.notifies := by simp only [notifies, htask]
  have hclear (h : s.Clear) : t.Clear := fun p => (howners p).trans (h p)
  refine ⟨?_, ?_, fun call h => hclear (hready call h), ?_⟩
  · rcases hcall with hcall | ⟨-, h⟩
    · exact located_of_owners hs.located howners hcall (fun call _ hloc => (hcode call).trans hloc.code)
        (fun _ _ hloc => by rw [hnotifies]; exact hloc.notNotified)
    · exact Or.inl (hclear h)
  · intro call h
    rw [hcalls]
    apply hs.fresh
    rw [hnotifies] at h
    rcases h with h | h
    · rcases hcall with hcall | ⟨hcall, -⟩
      · exact Or.inl (hcall.symm.trans h)
      · rw [hcall] at h
        cases h
    · exact Or.inr h
  · intro node h
    rw [hscheduler]
    apply hs.read
    simpa only [drains, htask] using h

/-- what a step of the scheduler task keeps, where the functions of `serve_http` move to `owners` -/
theorem Inv.task {s t : System κ} (hs : s.Inv) (hhttp : t.http = s.http) (hcalls : t.calls = s.calls)
    (hlocated : t.Clear ∨ ∃ call p, t.Located call p) (hnotifies : ∀ call, t.notifies = some call → call < s.calls)
    (hclear : s.Clear → t.Clear) (hread : ∀ node, t.drains ≠ some node → (t.scheduler node).readQueue = []) : t.Inv := by
  refine ⟨hlocated, ?_, ?_, hread⟩
  · rintro call (h | h)
    · rw [hhttp] at h
      rw [hcalls]
      exact hs.fresh call (Or.inl h)
    · rw [hcalls]
      exact hnotifies call h
  · intro call h
    rw [hhttp] at h
    exact hclear (hs.ready call h)

/-- what scheduling a function does -/
theorem schedule_spec [DecidableEq κ] {s s' : System κ} {node : κ} {allocated : Bool} {func : ScheduledFunc}
    (h : s.schedule node allocated func = some s') :
    s'.owners (.queue node) = s.owners (.queue node) ++ func.toList ∧
      (∀ p, p ≠ .queue node → s'.owners p = s.owners p) ∧
      (∀ n, (s'.scheduler n).readQueue = (s.scheduler n).readQueue) ∧
      s'.future = s.future ∧ s'.calls = s.calls ∧ s'.http = s.http ∧ s'.task = s.task := by
  unfold schedule at h
  split_ifs at h
  obtain ⟨scheduler, hadd, rfl⟩ := Option.map_eq_some_iff.1 h
  obtain ⟨hwrite, hread⟩ := AsyncFuncScheduler.add_spec hadd
  refine ⟨?_, ?_, ?_, rfl, rfl, rfl, rfl⟩
  · simp only [owners, Function.update_self, hwrite, List.reduceOption_append]
    cases func <;> rfl
  · intro p hp
    cases p with
    | queue n =>
      have hne : n ≠ node := fun heq => hp (by rw [heq])
      simp only [owners, Function.update_of_ne hne]
    | task => rfl
  · intro n
    by_cases hn : n = node
    · simp only [hn, Function.update_self, hread]
    · simp only [Function.update_of_ne hn]

theorem request_inv [DecidableEq κ] {s t : System κ} {node : κ} {allocated : Bool} (hs : s.Inv)
    (h : s.step (.request node allocated) = some t) : t.Inv := by
  cases hhttp : s.http with
  | idle =>
    simp only [step, hhttp] at h
    cases hschedule : s.schedule node allocated (some s.calls) with
    | none =>
      rw [hschedule, Option.some.injEq] at h
      exact h ▸ hs
    | some s' =>
      rw [hschedule, Option.some.injEq] at h
      obtain ⟨hhere, helsewhere, hread, hfuture, hcalls, -, htask⟩ := schedule_spec hschedule
      -- no call is being served, so nothing is pending
      have hclear : s.Clear := by
        rcases hs.located with hclear | ⟨call, p, hloc⟩
        · exact hclear
        · have hserved := hloc.served
          rw [hhttp] at hserved
          cases hserved
      have hnotifies : t.notifies = s.notifies := by rw [← h]; simp only [notifies, htask]
      have howners (p : Place κ) : t.owners p = s'.owners p := by
        rw [← h]
        cases p <;> rfl
      refine ⟨Or.inr ⟨s.calls, .queue node, ?_, ?_, ?_, ?_, ?_⟩, ?_, ?_, ?_⟩
      · rw [← h]
        rfl
      · rw [← h]
        simp only [Function.update_self, Future.new_code]
      · intro hcall
        rw [hnotifies] at hcall
        exact absurd (hs.fresh s.calls (Or.inr hcall)) (Nat.lt_irrefl _)
      · rw [howners, hhere, hclear]
        rfl
      · intro p hp
        rw [howners, helsewhere p hp, hclear]
      · rintro call (hcall | hcall)
        · rw [← h] at hcall ⊢
          simp only [HttpTask.call, Option.some.injEq] at hcall
          rw [← hcall]
          exact Nat.lt_succ_self _
        · rw [hnotifies] at hcall
          rw [← h]
          exact Nat.lt_succ_of_lt (hs.fresh call (Or.inr hcall))
      · intro call hcall
        rw [← h] at hcall
        cases hcall
      · intro n hn
        rw [← h] at hn ⊢
        rw [hread]
        apply hs.read
        simpa only [drains, htask] using hn
  | waiting call => simp [step, hhttp] at h
  | asleep call => simp [step, hhttp] at h
  | expired call => simp [step, hhttp] at h
  | ready call => simp [step, hhttp] at h

/-- a function that is not one of `serve_http` -/
theorem add_inv [DecidableEq κ] {s s' : System κ} {node : κ} {allocated : Bool} (hs : s.Inv)
    (h : s.schedule node allocated none = some s') : s'.Inv := by
  obtain ⟨hhere, helsewhere, hread, hfuture, hcalls, hhttp, htask⟩ := schedule_spec h
  have howners (p : Place κ) : s'.owners p = s.owners p := by
    by_cases hp : p = .queue node
    · rw [hp, hhere]
      exact List.append_nil _
    · exact helsewhere p hp
  have hnotifies : s'.notifies = s.notifies := by simp only [notifies, htask]
  apply hs.task hhttp hcalls
  · exact located_of_owners hs.located howners (by rw [hhttp]) (fun _ _ hloc => by rw [hfuture]; exact hloc.code)
      (fun _ _ hloc => by rw [hnotifies]; exact hloc.notNotified)
  · intro call hcall
    rw [hnotifies] at hcall
    exact hs.fresh call (Or.inr hcall)
  · intro hclear p
    rw [howners p, hclear p]
  · intro n hn
    rw [hread]
    apply hs.read
    simpa only [drains, htask] using hn

/-- the queue of a node moves to the scheduler task -/
theorem visit_inv [DecidableEq κ] {s : System κ} {node : κ} {rest : List κ} (hs : s.Inv)
    (htask : s.task = .visiting (node :: rest)) {scheduler : AsyncFuncScheduler ScheduledFunc}
    (hswap : (s.scheduler node).swap = some scheduler) :
    Inv { s with scheduler := Function.update s.scheduler node scheduler,
                 task := .draining node scheduler.readQueue rest } := by
  obtain ⟨hwrite, hread⟩ := AsyncFuncScheduler.swap_spec hswap
  have hempty : (s.scheduler node).readQueue = [] := hs.read node (by simp [drains, htask])
  have hleft : s.owners .task = [] := by simp only [owners, left, htask, List.reduceOption_nil]
  set t : System κ := { s with scheduler := Function.update s.scheduler node scheduler,
                               task := .draining node scheduler.readQueue rest } with ht
  have hqueue : t.owners (.queue node) = [] := by
    simp only [ht, owners, Function.update_self, hwrite, hempty, List.reduceOption_nil]
  have hmoved : t.owners .task = s.owners (.queue node) := by
    simp only [ht, owners, left, hread]
  have hother (p : Place κ) (hp : p ≠ .queue node) (hp' : p ≠ .task) : t.owners p = s.owners p := by
    cases p with
    | queue n =>
      have hne : n ≠ node := fun heq => hp (by rw [heq])
      simp only [ht, owners, Function.update_of_ne hne]
    | task => exact absurd rfl hp'
  have hclear (h : s.Clear) : t.Clear := by
    intro p
    by_cases hp : p = .queue node
    · rw [hp, hqueue]
    · by_cases hp' : p = .task
      · rw [hp', hmoved, h]
      · rw [hother p hp hp', h]
  refine hs.task rfl rfl ?_ ?_ hclear ?_
  · rcases hs.located with h | ⟨call, p, hloc⟩
    · exact Or.inl (hclear h)
    · by_cases hp : p = .queue node
      · refine Or.inr ⟨call, .task, hloc.served, hloc.code, by simp [ht, notifies], by rw [hmoved, ← hp, hloc.here], ?_⟩
        intro p' hp'
        by_cases hq : p' = .queue node
        · rw [hq, hqueue]
        · rw [hother p' hq hp', hloc.elsewhere p' (by rw [hp]; exact hq)]
      · have hp' : p ≠ .task := by
          intro heq
          subst heq
          have hhere := hloc.here
          rw [hleft] at hhere
          cases hhere
        refine Or.inr ⟨call, p, hloc.served, hloc.code, by simp [ht, notifies], by rw [hother p hp hp', hloc.here], ?_⟩
        intro q hq
        by_cases hqn : q = .queue node
        · rw [hqn, hqueue]
        · by_cases hqt : q = .task
          · rw [hqt, hmoved, hloc.elsewhere _ (Ne.symm hp)]
          · rw [hother q hqn hqt, hloc.elsewhere q hq]
  · intro call hcall
    simp [ht, notifies] at hcall
  · intro n hn
    have hne : n ≠ node := by
      intro heq
      subst heq
      exact hn rfl
    have hrest := hs.read n (by simp [drains, htask])
    simpa only [ht, Function.update_of_ne hne] using hrest

/-- what a step of the scheduler task keeps that leaves the queues of the nodes as they are -/
theorem Inv.left {s : System κ} (hs : s.Inv) (task : SchedulerTask κ)
    (hleft : ({ s with task } : System κ).owners .task = s.owners .task)
    (hnotifies : ({ s with task } : System κ).notifies = none)
    (hdrains : ({ s with task } : System κ).drains = s.drains ∨ s.drains = none) :
    Inv { s with task } := by
  have howners (p : Place κ) : ({ s with task } : System κ).owners p = s.owners p := by
    cases p with
    | queue node => rfl
    | task => exact hleft
  refine hs.task rfl rfl ?_ ?_ (fun h p => (howners p).trans (h p)) ?_
  · exact located_of_owners hs.located howners rfl (fun _ _ hloc => hloc.code)
      (fun _ _ _ => by rw [hnotifies]; exact fun h => nomatch h)
  · intro call hcall
    rw [hnotifies] at hcall
    cases hcall
  · intro node hnode
    apply hs.read
    rcases hdrains with h | h
    · rwa [h] at hnode
    · rw [h]
      exact fun h => nomatch h

/-- the function that has returned is no longer pending -/
theorem done_inv {s : System κ} {node : κ} {func : ScheduledFunc} {rest : List ScheduledFunc} {nodes : List κ}
    (hs : s.Inv) (htask : s.task = .executing node func rest nodes) (code : StatusCode) :
    Inv { s with task := .notifying node func code rest nodes } := by
  have hbefore : s.owners .task = (func :: rest).reduceOption := by simp only [owners, System.left, htask]
  set t : System κ := { s with task := .notifying node func code rest nodes } with ht
  have hafter : t.owners .task = rest.reduceOption := rfl
  have hnotifies : t.notifies = func := rfl
  have hdrains : t.drains = s.drains := by simp only [ht, drains, htask]
  have hread : ∀ n, t.drains ≠ some n → (t.scheduler n).readQueue = [] := by
    intro n hn
    rw [hdrains] at hn
    exact hs.read n hn
  cases func with
  | none =>
    have howners (p : Place κ) : t.owners p = s.owners p := by
      cases p with
      | queue n => rfl
      | task => rw [hafter, hbefore, List.reduceOption_cons_of_none]
    refine hs.task rfl rfl ?_ ?_ (fun h p => (howners p).trans (h p)) hread
    · exact located_of_owners hs.located howners rfl (fun _ _ hloc => hloc.code) (fun _ _ _ h => nomatch h)
    · intro call hcall
      cases hcall
  | some call =>
    rw [List.reduceOption_cons_of_some] at hbefore
    -- the function was the only one
    have hclear : t.Clear ∧ s.http.call = some call := by
      rcases hs.located with h | ⟨call', p, hloc⟩
      · rw [h] at hbefore
        cases hbefore
      · have hp : p = .task := by
          by_contra hne
          rw [hloc.elsewhere .task (Ne.symm hne)] at hbefore
          cases hbefore
        subst hp
        rw [hloc.here, List.cons.injEq] at hbefore
        obtain ⟨rfl, hrest⟩ := hbefore
        refine ⟨?_, hloc.served⟩
        intro p
        cases p with
        | queue n => exact hloc.elsewhere (.queue n) (fun h => nomatch h)
        | task => rw [hafter, ← hrest]
    refine hs.task rfl rfl (Or.inl hclear.1) ?_ (fun _ => hclear.1) hread
    intro call' hcall'
    rw [hnotifies, Option.some.injEq] at hcall'
    rw [← hcall']
    exact hs.fresh call (Or.inl hclear.2)

/-- the queue that has been run is cleared -/
theorem clear_inv [DecidableEq κ] {s : System κ} {node : κ} {rest : List κ} (hs : s.Inv)
    (htask : s.task = .draining node [] rest) :
    Inv { s with scheduler := Function.update s.scheduler node (s.scheduler node).clear, task := .visiting rest } := by
  set t : System κ := { s with scheduler := Function.update s.scheduler node (s.scheduler node).clear,
                               task := .visiting rest } with ht
  have howners (p : Place κ) : t.owners p = s.owners p := by
    cases p with
    | queue n =>
      by_cases hn : n = node
      · simp only [ht, owners, hn, Function.update_self, AsyncFuncScheduler.clear]
      · simp only [ht, owners, Function.update_of_ne hn]
    | task => simp only [ht, owners, System.left, htask]
  refine hs.task rfl rfl ?_ ?_ (fun h p => (howners p).trans (h p)) ?_
  · exact located_of_owners hs.located howners rfl (fun _ _ hloc => hloc.code)
      (fun _ _ _ h => by cases h)
  · intro call hcall
    cases hcall
  · intro n _
    by_cases hn : n = node
    · simp only [ht, hn, Function.update_self, AsyncFuncScheduler.clear]
    · have hread := hs.read n (by simp only [drains, htask, ne_eq, Option.some.injEq]; exact Ne.symm hn)
      simpa only [ht, Function.update_of_ne hn] using hread

/-- the result of a function goes to a future that no pending function has -/
theorem notify_inv [DecidableEq κ] {s : System κ} {node : κ} {call : ℕ} {code : StatusCode}
    {rest : List ScheduledFunc} {nodes : List κ} (hs : s.Inv)
    (htask : s.task = .notifying node (some call) code rest nodes) (future : Future Unit) (notified : ℕ) :
    Inv { s with future := Function.update s.future call future, notified, task := .draining node rest nodes } := by
  set t : System κ := { s with future := Function.update s.future call future, notified,
                               task := .draining node rest nodes } with ht
  have howners (p : Place κ) : t.owners p = s.owners p := by
    cases p with
    | queue n => rfl
    | task => simp only [ht, owners, System.left, htask]
  refine hs.task rfl rfl ?_ ?_ (fun h p => (howners p).trans (h p)) ?_
  · refine located_of_owners hs.located howners rfl ?_ (fun _ _ _ h => nomatch h)
    intro call' p hloc
    have hne : call' ≠ call := by
      intro heq
      subst heq
      exact hloc.notNotified (by simp only [notifies, htask])
    simpa only [ht, Function.update_of_ne hne] using hloc.code
  · intro call' hcall'
    cases hcall'
  · intro n hn
    apply hs.read
    simpa only [ht, drains, htask] using hn

/-- a wait that ends has met a result, and a function with a result is not pending -/
theorem look_inv [DecidableEq κ] {s t : System κ} (hs : s.Inv) (h : s.step .look = some t) : t.Inv := by
  simp only [step] at h
  split at h
  · next call hhttp =>
    have hcall : s.http.call = some call := by
      rw [hhttp]
      rfl
    split at h
    · next hwait =>
      rw [Option.some.injEq] at h
      subst h
      have hclear : s.Clear := by
        apply hs.clear hcall
        intro hpending
        simp [Future.wait, (hs.served hpending).2] at hwait
      exact hs.http rfl rfl rfl (fun _ => rfl) (Or.inl hcall.symm) (fun _ _ => hclear)
    · next future hwait =>
      rw [Option.some.injEq] at h
      subst h
      refine hs.http rfl rfl rfl ?_ (Or.inl hcall.symm) (fun _ h => nomatch h)
      intro call'
      by_cases heq : call' = call
      · simp only [heq, Function.update_self, Future.wait_code hwait]
      · simp only [Function.update_of_ne heq]
  · cases h

/-- a call that returns leaves no function behind: it has met a result, or the condition says so -/
theorem leave_inv [DecidableEq κ] {s t : System κ} (hs : s.Inv) (hallowed : s.Allowed .leave)
    (h : s.step .leave = some t) : t.Inv := by
  simp only [step] at h
  split at h
  · next call hhttp =>
    simp only [Allowed, hhttp] at hallowed
    rw [Option.some.injEq] at h
    subst h
    have hclear : s.Clear := hs.clear (by rw [hhttp]; rfl) hallowed
    exact hs.http rfl rfl rfl (fun _ => rfl) (Or.inr ⟨rfl, hclear⟩) (fun _ h => nomatch h)
  · next call hhttp =>
    rw [Option.some.injEq] at h
    subst h
    exact hs.http rfl rfl rfl (fun _ => rfl) (Or.inr ⟨rfl, hs.ready call hhttp⟩) (fun _ h => nomatch h)
  · cases h

/-- **Steps.** Every step that is allowed keeps the invariant. -/
theorem step_inv [DecidableEq κ] (s : System κ) (e : Event κ) (t : System κ) (hs : s.Inv) (hallowed : s.Allowed e)
    (h : s.step e = some t) : t.Inv := by
  cases e with
  | request node allocated => exact request_inv hs h
  | look => exact look_inv hs h
  | wake =>
    simp only [step] at h
    split at h
    · next call hhttp =>
      split_ifs at h
      rw [Option.some.injEq] at h
      subst h
      exact hs.http rfl rfl rfl (fun _ => rfl) (Or.inl (by rw [hhttp]; rfl)) (fun _ h => nomatch h)
    · cases h
  | expire =>
    simp only [step] at h
    split at h
    · next call hhttp =>
      split_ifs at h
      rw [Option.some.injEq] at h
      subst h
      exact hs.http rfl rfl rfl (fun _ => rfl) (Or.inl (by rw [hhttp]; rfl)) (fun _ h => nomatch h)
    · cases h
  | leave => exact leave_inv hs hallowed h
  | add node allocated =>
    rw [step, Option.some.injEq] at h
    cases hschedule : s.schedule node allocated none with
    | none =>
      rw [hschedule, Option.getD_none] at h
      exact h ▸ hs
    | some s' =>
      rw [hschedule, Option.getD_some] at h
      exact h ▸ add_inv hs hschedule
  | stray =>
    rw [step, Option.some.injEq] at h
    subst h
    exact hs.http rfl rfl rfl (fun _ => rfl) (Or.inl rfl) hs.ready
  | run nodes =>
    simp only [step] at h
    split at h
    · next htask =>
      rw [Option.some.injEq] at h
      subst h
      exact hs.left _ (by simp only [owners, System.left, htask]) rfl (Or.inl (by simp only [drains, htask]))
    · cases h
  | visit =>
    simp only [step] at h
    split at h
    · next htask =>
      rw [Option.some.injEq] at h
      subst h
      exact hs.left _ (by simp only [owners, System.left, htask]) rfl (Or.inl (by simp only [drains, htask]))
    · next node rest htask =>
      split at h
      · rw [Option.some.injEq] at h
        subst h
        exact hs.left _ (by simp only [owners, System.left, htask]) rfl (Or.inl (by simp only [drains, htask]))
      · next scheduler hswap =>
        rw [Option.some.injEq] at h
        exact h ▸ visit_inv hs htask hswap
    · cases h
  | call =>
    simp only [step] at h
    split at h
    · next node rest htask =>
      rw [Option.some.injEq] at h
      exact h ▸ clear_inv hs htask
    · next node func left rest htask =>
      rw [Option.some.injEq] at h
      subst h
      exact hs.left _ (by simp only [owners, System.left, htask]) rfl (Or.inl (by simp only [drains, htask]))
    · cases h
  | done code =>
    simp only [step] at h
    split at h
    · next node func left rest htask =>
      rw [Option.some.injEq] at h
      exact h ▸ done_inv hs htask code
    · cases h
  | notify =>
    simp only [step] at h
    split at h
    · next node func code left rest htask =>
      cases func with
      | none =>
        rw [Option.some.injEq] at h
        subst h
        exact hs.left _ (by simp only [owners, System.left, htask]) rfl (Or.inl (by simp only [drains, htask]))
      | some call =>
        rw [Option.some.injEq] at h
        exact h ▸ notify_inv hs htask _ _
    · cases h

/-! ## Main results -/

/-- **Executed while served.** In every run in which no call returns from an expired wait while its function is queued or
runs, a function of `serve_http` runs only while its call has not returned. -/
theorem executes_while_served [DecidableEq κ] (nodes : List κ) (maxEventCount : ℕ) (hmax : 0 < maxEventCount)
    (es : List (Event κ)) (t : System κ)
    (hallowed : GuardedExec step Allowed (new nodes maxEventCount hmax) es)
    (hrun : exec step (new nodes maxEventCount hmax) es = some t) (call : ℕ) (h : t.Executes call) :
    t.http.call = some call := by
  have hinv : t.Inv := guardedExec_inv step_inv (new_inv nodes maxEventCount hmax) es hallowed hrun
  exact (hinv.served h.pending).1

/-- the scheduler of the analog configurations, by itself -/
def exampleSystem : System Unit := new [()] 16 (by decide)

/-- a call whose wait expires when its function has returned already, and the next call -/
def exampleRun : List (Event Unit) :=
  [.request () true, .look, .run [()], .visit, .call, .done .ok, .expire, .leave, .notify, .call, .visit,
    .request () true, .look, .run [()], .visit, .call]

theorem executes_while_served_example :
    ∃ t, exec step exampleSystem exampleRun = some t ∧ t.Executes 1 ∧ t.http.call = some 1 := by
  obtain ⟨t, ht, hexecutes⟩ : ∃ t, exec step exampleSystem exampleRun = some t ∧ t.Executes 1 := ⟨_, rfl, rfl⟩
  exact ⟨t, ht, hexecutes, executes_while_served [()] 16 (by decide) exampleRun t (by decide) ht 1 hexecutes⟩

/-- the scheduler task comes when the wait has expired -/
def lateRun : List (Event Unit) := [.request () true, .look, .expire, .leave, .run [()], .visit, .call]

/-- the wait expires while the function runs -/
def slowRun : List (Event Unit) := [.request () true, .look, .run [()], .visit, .call, .expire, .leave]

/-- **Executed after the return.** A function runs though its call has returned: because the scheduler task comes too late,
or because the function takes too long. -/
theorem executes_after_return :
    (¬ ∀ (es : List (Event Unit)) (t : System Unit), exec step exampleSystem es = some t →
      ∀ call, t.Executes call → t.http.call = some call) ∧
    (∃ t, exec step exampleSystem lateRun = some t ∧ t.Executes 0 ∧ t.http.call = none) ∧
    ∃ t, exec step exampleSystem slowRun = some t ∧ t.Executes 0 ∧ t.http.call = none := by
  have hlate : ∃ t, exec step exampleSystem lateRun = some t ∧ t.Executes 0 ∧ t.http.call = none := ⟨_, rfl, rfl, rfl⟩
  refine ⟨?_, hlate, ⟨_, rfl, rfl, rfl⟩⟩
  intro h
  obtain ⟨t, ht, hexecutes, hcall⟩ := hlate
  have hserved := h lateRun t ht 0 hexecutes
  rw [hcall] at hserved
  cases hserved

end System

end ControlComponents.Pipeline
