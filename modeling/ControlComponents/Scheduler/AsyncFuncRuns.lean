/-
Runs of `AsyncFuncScheduler` (`ocs_scheduler`) while other tasks, and the functions that are run, add functions.

A run starts with the swap of the queues under the mutex. It then goes through the read queue and clears it without the
mutex, so additions come between any two of its steps. Functions are named by the number of their call of `add`.

- `Inv`: the functions accepted so far are those started, the rest of the read queue, and the write queue.
- `run_completes`: a run returns when its functions do.
- `executes_once`: every accepted function is started once, in order, in the next run, and its future is notified once
  with what it returns; `add` is refused for lack of room after `maxEventCount` functions since the last swap.
-/
import ControlComponents.Core.Future
import ControlComponents.Lib.Runs
import ControlComponents.Scheduler.AsyncFuncScheduler

namespace ControlComponents.Scheduler.AsyncFuncScheduler

open ControlComponents.Core ControlComponents.Lib.Runs

/-! ## Model -/

/-- where the call of `run` is: the position in the read queue -/
inductive Runner where
  | idle
  | next (pos : ℕ)
  | executing (pos : ℕ)
  /-- the function has returned, its future is not notified yet -/
  | notifying (pos : ℕ) (code : StatusCode)
deriving DecidableEq

/-- the number of functions of the read queue that have been started -/
def Runner.passed : Runner → ℕ
  | .idle => 0
  | .next pos => pos
  | .executing pos => pos + 1
  | .notifying pos _ => pos + 1

structure World (θ : Type) where
  scheduler : AsyncFuncScheduler ℕ
  runner : Runner
  futures : ℕ → Future θ
  /-- the number of calls of `add` -/
  calls : ℕ
  /-- the number of runs that have begun -/
  begun : ℕ
  /-- functions with the number of runs begun before they were accepted -/
  accepted : List (ℕ × ℕ)
  refused : List ℕ
  /-- the number of functions accepted before the last swap of the queues -/
  acceptedAtSwap : ℕ
  /-- functions with the run they were executed in -/
  started : List (ℕ × ℕ)
  returned : List (ℕ × StatusCode)
  notified : List (ℕ × StatusCode)

inductive Event (θ : Type) where
  /-- `add`, from any task or from the function that is executed -/
  | add (allocated : Bool)
  /-- a task goes to sleep in `Future::wait` on the future of an accepted function -/
  | wait (func : ℕ) (task : θ)
  /-- `run` is called; it returns at once if the write queue is empty -/
  | run
  | call
  | ret (code : StatusCode)
  | notify
  /-- `run` clears the read queue and returns -/
  | finish

variable {θ : Type}

def World.start (maxEventCount : ℕ) (h : 0 < maxEventCount) : World θ :=
  ⟨.new maxEventCount h, .idle, fun _ => .new, 0, 0, [], [], 0, [], [], []⟩

def step (w : World θ) : Event θ → Option (World θ)
  | .add allocated =>
    match w.scheduler.add allocated w.calls with
    | some scheduler =>
      some { w with scheduler, calls := w.calls + 1, accepted := w.accepted ++ [(w.calls, w.begun)] }
    | none => some { w with calls := w.calls + 1, refused := w.refused ++ [w.calls] }
  | .wait func task =>
    if func ∈ w.accepted.map Prod.fst then some
      { w with futures := Function.update w.futures func (((w.futures func).wait task).getD (w.futures func)) }
    else none
  | .run =>
    if w.runner ≠ .idle then none
    else match w.scheduler.swap with
      | some scheduler => some
        { w with scheduler, runner := .next 0, begun := w.begun + 1, acceptedAtSwap := w.accepted.length }
      | none => some { w with begun := w.begun + 1 }
  | .call =>
    match w.runner with
    | .next pos => w.scheduler.readQueue[pos]?.map fun func =>
        { w with runner := .executing pos, started := w.started ++ [(func, w.begun)] }
    | _ => none
  | .ret code =>
    match w.runner with
    | .executing pos => w.scheduler.readQueue[pos]?.map fun func =>
        { w with runner := .notifying pos code, returned := w.returned ++ [(func, code)] }
    | _ => none
  | .notify =>
    match w.runner with
    | .notifying pos code => w.scheduler.readQueue[pos]?.map fun func =>
        { w with
          runner := .next (pos + 1)
          futures := Function.update w.futures func ((w.futures func).notify code).2
          notified := w.notified ++ [(func, code)] }
    | _ => none
  | .finish =>
    match w.runner with
    | .next pos =>
      if pos = w.scheduler.readQueue.length then some { w with scheduler := w.scheduler.clear, runner := .idle }
      else none
    | _ => none

/-! ## The invariant -/

/-- where the functions that have been started are: returned and notified, but for the one the run is at -/
def InStep (w : World θ) : Prop :=
  match w.runner with
  | .idle => w.scheduler.readQueue = [] ∧ w.started.map Prod.fst = w.returned.map Prod.fst ∧ w.returned = w.notified
  | .next pos => pos ≤ w.scheduler.readQueue.length ∧ w.started.map Prod.fst = w.returned.map Prod.fst ∧
      w.returned = w.notified
  | .executing pos => ∃ func, w.scheduler.readQueue[pos]? = some func ∧
      w.started.map Prod.fst = w.returned.map Prod.fst ++ [func] ∧ w.returned = w.notified
  | .notifying pos code => ∃ func, w.scheduler.readQueue[pos]? = some func ∧
      w.started.map Prod.fst = w.returned.map Prod.fst ∧ w.returned = w.notified ++ [(func, code)]

/-- accepted functions with the run they are to be executed in, the next one -/
def World.due (w : World θ) : List (ℕ × ℕ) := w.accepted.map fun p => (p.1, p.2 + 1)

theorem InStep.idle {w : World θ} (h : InStep w) (hrun : w.runner = .idle) :
    w.scheduler.readQueue = [] ∧ w.started.map Prod.fst = w.returned.map Prod.fst ∧ w.returned = w.notified := by
  unfold InStep at h
  rwa [hrun] at h

theorem InStep.next {w : World θ} (h : InStep w) {pos : ℕ} (hrun : w.runner = .next pos) :
    pos ≤ w.scheduler.readQueue.length ∧ w.started.map Prod.fst = w.returned.map Prod.fst ∧
      w.returned = w.notified := by
  unfold InStep at h
  rwa [hrun] at h

theorem InStep.executing {w : World θ} (h : InStep w) {pos : ℕ} (hrun : w.runner = .executing pos) :
    ∃ func, w.scheduler.readQueue[pos]? = some func ∧
      w.started.map Prod.fst = w.returned.map Prod.fst ++ [func] ∧ w.returned = w.notified := by
  unfold InStep at h
  rwa [hrun] at h

theorem InStep.notifying {w : World θ} (h : InStep w) {pos : ℕ} {code : StatusCode}
    (hrun : w.runner = .notifying pos code) : ∃ func, w.scheduler.readQueue[pos]? = some func ∧
      w.started.map Prod.fst = w.returned.map Prod.fst ∧ w.returned = w.notified ++ [(func, code)] := by
  unfold InStep at h
  rwa [hrun] at h

structure Inv (w : World θ) : Prop where
  due : w.due = w.started ++ (w.scheduler.readQueue.drop w.runner.passed).map (fun func => (func, w.begun)) ++
    w.scheduler.writeQueue.map fun func => (func, w.begun + 1)
  inStep : InStep w
  accepted_lt : ∀ func ∈ w.accepted.map Prod.fst, func < w.calls
  accepted_nodup : (w.accepted.map Prod.fst).Nodup
  refused : ∀ func ∈ w.refused, func < w.calls ∧ func ∉ w.accepted.map Prod.fst
  room : w.accepted.length = w.acceptedAtSwap + w.scheduler.writeQueue.length
  codes : ∀ p ∈ w.notified, (w.futures p.1).code = p.2
  pending : ∀ func, func ∉ w.notified.map Prod.fst → (w.futures func).code = .last

theorem start_inv (maxEventCount : ℕ) (h : 0 < maxEventCount) : Inv (.start maxEventCount h : World θ) where
  due := rfl
  inStep := ⟨rfl, rfl, rfl⟩
  accepted_lt func hfunc := by cases hfunc
  accepted_nodup := List.nodup_nil
  refused func hfunc := by cases hfunc
  room := rfl
  codes p hp := by cases hp
  pending func _ := rfl

theorem due_fst (w : World θ) : w.due.map Prod.fst = w.accepted.map Prod.fst := by
  rw [World.due, List.map_map]
  rfl

theorem Inv.started_prefix {w : World θ} (hw : Inv w) : w.started <+: w.due := by
  rw [hw.due, List.append_assoc]
  exact List.prefix_append _ _

theorem Inv.started_nodup {w : World θ} (hw : Inv w) : (w.started.map Prod.fst).Nodup := by
  have hsub : w.started.map Prod.fst <+: w.accepted.map Prod.fst := due_fst w ▸ hw.started_prefix.map Prod.fst
  exact hw.accepted_nodup.sublist hsub.sublist

/-! ## Steps -/

theorem add_accepted_inv {w : World θ} (hw : Inv w) {allocated : Bool} {scheduler : AsyncFuncScheduler ℕ}
    (h : w.scheduler.add allocated w.calls = some scheduler) :
    Inv { w with scheduler, calls := w.calls + 1, accepted := w.accepted ++ [(w.calls, w.begun)] } := by
  obtain ⟨hwrite, hread⟩ := add_spec h
  have hfst : (w.accepted ++ [(w.calls, w.begun)]).map Prod.fst = w.accepted.map Prod.fst ++ [w.calls] := by simp
  refine ⟨?_, ?_, ?_, ?_, ?_, ?_, hw.codes, hw.pending⟩
  · calc (w.accepted ++ [(w.calls, w.begun)]).map (fun p => (p.1, p.2 + 1))
        = w.due ++ [(w.calls, w.begun + 1)] := by simp [World.due]
      _ = w.started ++ (w.scheduler.readQueue.drop w.runner.passed).map (fun func => (func, w.begun)) ++
          (w.scheduler.writeQueue ++ [w.calls]).map fun func => (func, w.begun + 1) := by rw [hw.due]; simp
      _ = _ := by rw [← hwrite, ← hread]
  · have hin := hw.inStep
    unfold InStep at hin ⊢
    simp only [hread]
    exact hin
  · intro func hfunc
    rw [hfst, List.mem_append, List.mem_singleton] at hfunc
    rcases hfunc with hfunc | rfl
    · exact (hw.accepted_lt func hfunc).trans (Nat.lt_succ_self _)
    · exact Nat.lt_succ_self _
  · show ((w.accepted ++ [(w.calls, w.begun)]).map Prod.fst).Nodup
    rw [hfst]
    refine List.Nodup.append hw.accepted_nodup (List.nodup_singleton _) ?_
    intro func hfunc hcall
    rw [List.mem_singleton] at hcall
    exact absurd (hw.accepted_lt func hfunc) (by omega)
  · intro func hfunc
    obtain ⟨hlt, hnot⟩ := hw.refused func hfunc
    refine ⟨hlt.trans (Nat.lt_succ_self _), ?_⟩
    rw [hfst, List.mem_append, List.mem_singleton]
    rintro (hmem | rfl)
    · exact hnot hmem
    · exact absurd hlt (Nat.lt_irrefl _)
  · have hroom := hw.room
    simp only [hwrite, List.length_append, List.length_singleton]
    omega

theorem add_refused_inv {w : World θ} (hw : Inv w) :
    Inv { w with calls := w.calls + 1, refused := w.refused ++ [w.calls] } := by
  refine ⟨hw.due, hw.inStep, ?_, hw.accepted_nodup, ?_, hw.room, hw.codes, hw.pending⟩
  · intro func hfunc
    exact (hw.accepted_lt func hfunc).trans (Nat.lt_succ_self _)
  · intro func hfunc
    rw [List.mem_append, List.mem_singleton] at hfunc
    rcases hfunc with hfunc | rfl
    · obtain ⟨hlt, hnot⟩ := hw.refused func hfunc
      exact ⟨hlt.trans (Nat.lt_succ_self _), hnot⟩
    · refine ⟨Nat.lt_succ_self _, fun hmem => ?_⟩
      exact absurd (hw.accepted_lt _ hmem) (Nat.lt_irrefl _)

/-- waiting does not touch the code of a future -/
theorem wait_inv {w : World θ} (hw : Inv w) (func : ℕ) (task : θ) :
    Inv { w with futures := Function.update w.futures func (((w.futures func).wait task).getD (w.futures func)) } := by
  have hcode (f : ℕ) : (Function.update w.futures func
      (((w.futures func).wait task).getD (w.futures func)) f).code = (w.futures f).code := by
    by_cases hf : f = func
    · subst hf
      rw [Function.update_self]
      cases hwait : (w.futures f).wait task with
      | none => rfl
      | some future => exact Future.wait_code hwait
    · rw [Function.update_of_ne hf]
  refine ⟨hw.due, hw.inStep, hw.accepted_lt, hw.accepted_nodup, hw.refused, hw.room, ?_, ?_⟩
  · intro p hp
    exact (hcode p.1).trans (hw.codes p hp)
  · intro f hf
    exact (hcode f).trans (hw.pending f hf)

/-- at a swap the read queue is empty: it was cleared at the end of the run before -/
theorem swap_inv {w : World θ} (hw : Inv w) (hidle : w.runner = .idle) {scheduler : AsyncFuncScheduler ℕ}
    (h : w.scheduler.swap = some scheduler) :
    Inv { w with scheduler, runner := .next 0, begun := w.begun + 1, acceptedAtSwap := w.accepted.length } := by
  obtain ⟨hwrite, hread⟩ := swap_spec h
  obtain ⟨hempty, hret, hnot⟩ := hw.inStep.idle hidle
  refine ⟨?_, ⟨Nat.zero_le _, hret, hnot⟩, hw.accepted_lt, hw.accepted_nodup, hw.refused, ?_, hw.codes, hw.pending⟩
  · calc w.due
        = w.started ++ w.scheduler.writeQueue.map fun func => (func, w.begun + 1) := by rw [hw.due, hempty]; simp
      _ = w.started ++ (scheduler.readQueue.drop 0).map (fun func => (func, w.begun + 1)) ++
          scheduler.writeQueue.map fun func => (func, w.begun + 1 + 1) := by rw [hread, hwrite, hempty]; simp
  · simp only [hwrite, hempty, List.length_nil, Nat.add_zero]

theorem run_empty_inv {w : World θ} (hw : Inv w) (hidle : w.runner = .idle) (h : w.scheduler.swap = none) :
    Inv { w with begun := w.begun + 1 } := by
  have hwrite : w.scheduler.writeQueue = [] := by
    unfold swap at h
    split_ifs at h with hempty
    exact List.isEmpty_iff.1 hempty
  refine ⟨?_, hw.inStep, hw.accepted_lt, hw.accepted_nodup, hw.refused, hw.room, hw.codes, hw.pending⟩
  show w.due = w.started ++ (w.scheduler.readQueue.drop w.runner.passed).map (fun func => (func, w.begun + 1)) ++
    w.scheduler.writeQueue.map fun func => (func, w.begun + 1 + 1)
  rw [hw.due, (hw.inStep.idle hidle).1, hwrite]
  simp

theorem call_inv {w : World θ} (hw : Inv w) {pos func : ℕ} (hrun : w.runner = .next pos)
    (hfunc : w.scheduler.readQueue[pos]? = some func) :
    Inv { w with runner := .executing pos, started := w.started ++ [(func, w.begun)] } := by
  obtain ⟨_, hret, hnot⟩ := hw.inStep.next hrun
  refine ⟨?_, ⟨func, hfunc, ?_, hnot⟩, hw.accepted_lt, hw.accepted_nodup, hw.refused, hw.room, hw.codes, hw.pending⟩
  · have hdrop : w.scheduler.readQueue.drop pos = func :: w.scheduler.readQueue.drop (pos + 1) :=
      List.drop_eq_getElem?_toList_append.trans (by rw [hfunc]; rfl)
    calc w.due
        = w.started ++ (w.scheduler.readQueue.drop pos).map (fun func => (func, w.begun)) ++
          w.scheduler.writeQueue.map (fun func => (func, w.begun + 1)) := by rw [hw.due, hrun, Runner.passed]
      _ = w.started ++ [(func, w.begun)] ++
          (w.scheduler.readQueue.drop (pos + 1)).map (fun func => (func, w.begun)) ++
          w.scheduler.writeQueue.map (fun func => (func, w.begun + 1)) := by rw [hdrop]; simp
  · rw [List.map_append, hret]
    rfl

theorem ret_inv {w : World θ} (hw : Inv w) {pos func : ℕ} (code : StatusCode) (hrun : w.runner = .executing pos)
    (hfunc : w.scheduler.readQueue[pos]? = some func) :
    Inv { w with runner := .notifying pos code, returned := w.returned ++ [(func, code)] } := by
  obtain ⟨f, hf, hret, hnot⟩ := hw.inStep.executing hrun
  obtain rfl : func = f := Option.some.inj (hfunc.symm.trans hf)
  have hdue := hw.due
  rw [hrun] at hdue
  refine ⟨hdue, ⟨func, hfunc, ?_, by rw [hnot]⟩, hw.accepted_lt, hw.accepted_nodup, hw.refused, hw.room, hw.codes,
    hw.pending⟩
  rw [hret, List.map_append]
  rfl

/-- the function the run is at has been notified only now -/
theorem notify_inv {w : World θ} (hw : Inv w) {pos func : ℕ} {code : StatusCode} (hrun : w.runner = .notifying pos code)
    (hfunc : w.scheduler.readQueue[pos]? = some func) :
    Inv { w with
      runner := .next (pos + 1)
      futures := Function.update w.futures func ((w.futures func).notify code).2
      notified := w.notified ++ [(func, code)] } := by
  obtain ⟨f, hf, hret, hnot⟩ := hw.inStep.notifying hrun
  obtain rfl : func = f := Option.some.inj (hfunc.symm.trans hf)
  have hdue := hw.due
  rw [hrun] at hdue
  have hfresh : func ∉ w.notified.map Prod.fst := by
    have hnodup := hw.started_nodup
    rw [hret, hnot, List.map_append, List.map_singleton] at hnodup
    exact fun hmem => List.disjoint_of_nodup_append hnodup hmem (List.mem_singleton_self func)
  refine ⟨hdue, ⟨(List.getElem?_eq_some_iff.1 hfunc).1, hret, hnot⟩, hw.accepted_lt, hw.accepted_nodup, hw.refused,
    hw.room, ?_, ?_⟩
  · intro p hp
    rw [List.mem_append, List.mem_singleton] at hp
    rcases hp with hp | rfl
    · have hne : p.1 ≠ func := fun h => hfresh (h ▸ List.mem_map_of_mem hp)
      simp only [Function.update_of_ne hne]
      exact hw.codes p hp
    · simp only [Function.update_self]
      rfl
  · intro f hf
    rw [List.map_append, List.map_singleton, List.mem_append, List.mem_singleton, not_or] at hf
    simp only [Function.update_of_ne hf.2]
    exact hw.pending f hf.1

theorem finish_inv {w : World θ} (hw : Inv w) (hrun : w.runner = .next w.scheduler.readQueue.length) :
    Inv { w with scheduler := w.scheduler.clear, runner := .idle } := by
  obtain ⟨_, hret, hnot⟩ := hw.inStep.next hrun
  refine ⟨?_, ⟨rfl, hret, hnot⟩, hw.accepted_lt, hw.accepted_nodup, hw.refused, hw.room, hw.codes, hw.pending⟩
  show w.due = w.started ++ (List.drop 0 []).map (fun func => (func, w.begun)) ++ _
  rw [hw.due, hrun, Runner.passed, List.drop_length]
  rfl

theorem step_inv (w : World θ) (e : Event θ) (w' : World θ) (hw : Inv w) (h : step w e = some w') : Inv w' := by
  cases e with
  | add allocated =>
    simp only [step] at h
    split at h
    · rename_i scheduler hadd
      exact Option.some.inj h ▸ add_accepted_inv hw hadd
    · exact Option.some.inj h ▸ add_refused_inv hw
  | wait func task =>
    simp only [step] at h
    split_ifs at h
    exact Option.some.inj h ▸ wait_inv hw func task
  | run =>
    simp only [step] at h
    split_ifs at h with hidle
    rw [not_not] at hidle
    split at h
    · rename_i scheduler hswap
      exact Option.some.inj h ▸ swap_inv hw hidle hswap
    · rename_i hswap
      exact Option.some.inj h ▸ run_empty_inv hw hidle hswap
  | call =>
    simp only [step] at h
    split at h
    · rename_i pos hrun
      obtain ⟨func, hfunc, rfl⟩ := Option.map_eq_some_iff.1 h
      exact call_inv hw hrun hfunc
    · cases h
  | ret code =>
    simp only [step] at h
    split at h
    · rename_i pos hrun
      obtain ⟨func, hfunc, rfl⟩ := Option.map_eq_some_iff.1 h
      exact ret_inv hw code hrun hfunc
    · cases h
  | notify =>
    simp only [step] at h
    split at h
    · rename_i pos code hrun
      obtain ⟨func, hfunc, rfl⟩ := Option.map_eq_some_iff.1 h
      exact notify_inv hw hrun hfunc
    · cases h
  | finish =>
    simp only [step] at h
    split at h
    · rename_i pos hrun
      split_ifs at h with hpos
      exact Option.some.inj h ▸ finish_inv hw (hpos ▸ hrun)
    · cases h

/-! ## Runs -/

/-- what the loop of `run` does with the next `count` functions from `pos` on -/
def turns (code : ℕ → StatusCode) : (pos count : ℕ) → List (Event θ)
  | _, 0 => [.finish]
  | pos, count + 1 => .call :: .ret (code pos) :: .notify :: turns code (pos + 1) count

/-- what is left of the run; the function at a position returns the code of this position -/
def Runner.rest (code : ℕ → StatusCode) (length : ℕ) : Runner → List (Event θ)
  | .idle => []
  | .next pos => turns code pos (length - pos)
  | .executing pos => .ret (code pos) :: .notify :: turns code (pos + 1) (length - (pos + 1))
  | .notifying pos _ => .notify :: turns code (pos + 1) (length - (pos + 1))

theorem turns_complete (code : ℕ → StatusCode) {w : World θ} {pos count : ℕ} (hrun : w.runner = .next pos)
    (hlen : pos + count = w.scheduler.readQueue.length) :
    ∃ w', exec step w (turns code pos count) = some w' ∧ w'.runner = .idle ∧ w'.begun = w.begun := by
  induction count generalizing w pos with
  | zero =>
    refine ⟨{ w with scheduler := w.scheduler.clear, runner := .idle }, ?_, rfl, rfl⟩
    rw [turns, exec, step, hrun]
    simp only [show pos = w.scheduler.readQueue.length from hlen, if_true]
    rfl
  | succ count ih =>
    have hlt : pos < w.scheduler.readQueue.length := by omega
    have hfunc : w.scheduler.readQueue[pos]? = some w.scheduler.readQueue[pos] := List.getElem?_eq_getElem hlt
    simp only [turns, exec, step, hrun, hfunc, Option.map_some, Option.bind_some]
    apply ih
    · rfl
    · show pos + 1 + count = w.scheduler.readQueue.length
      omega

theorem loop_completes (code : ℕ → StatusCode) {w : World θ} {pos : ℕ} (hrun : w.runner = .next pos)
    (hle : pos ≤ w.scheduler.readQueue.length) :
    ∃ w', exec step w (turns code pos (w.scheduler.readQueue.length - pos)) = some w' ∧ w'.runner = .idle ∧
      w'.begun = w.begun :=
  turns_complete code hrun (Nat.add_sub_of_le hle)

/-- **Progress.** A run in progress returns after the functions it has left, whatever they return. -/
theorem run_completes {w : World θ} (hw : Inv w) (code : ℕ → StatusCode) :
    ∃ w', exec step w (w.runner.rest code w.scheduler.readQueue.length) = some w' ∧ w'.runner = .idle ∧
      w'.begun = w.begun := by
  cases hrun : w.runner with
  | idle => exact ⟨w, rfl, hrun, rfl⟩
  | next pos => exact loop_completes code hrun (hw.inStep.next hrun).1
  | executing pos =>
    obtain ⟨func, hfunc, _, _⟩ := hw.inStep.executing hrun
    have hlt : pos < w.scheduler.readQueue.length := (List.getElem?_eq_some_iff.1 hfunc).1
    simp only [Runner.rest, exec, step, hrun, hfunc, Option.map_some, Option.bind_some]
    apply loop_completes code
    · rfl
    · exact hlt
  | notifying pos =>
    obtain ⟨func, hfunc, _, _⟩ := hw.inStep.notifying hrun
    have hlt : pos < w.scheduler.readQueue.length := (List.getElem?_eq_some_iff.1 hfunc).1
    simp only [Runner.rest, exec, step, hrun, hfunc, Option.map_some, Option.bind_some]
    apply loop_completes code
    · rfl
    · exact hlt

/-- with memory, `add` is refused when the write queue is full -/
theorem add_eq_none_iff (s : AsyncFuncScheduler ℕ) (func : ℕ) :
    s.add true func = none ↔ s.writeQueue.length = s.maxEventCount := by
  simp [add]

/-- what the scheduler promises: the functions that have been started are the accepted ones in order, each at most once
and in the run after its acceptance, all of them when a run has begun since and none is in progress -/
structure ExecutesOnce (w : World θ) : Prop where
  distinct : (w.accepted.map Prod.fst).Nodup
  order : w.started <+: w.accepted.map fun p => (p.1, p.2 + 1)
  executed : w.runner = .idle → ∀ p ∈ w.accepted, p.2 < w.begun → (p.1, p.2 + 1) ∈ w.started
  notified : w.notified <+: w.returned ∧ w.returned.map Prod.fst <+: w.started.map Prod.fst
  all_notified : w.runner = .idle → w.notified = w.returned ∧ w.returned.map Prod.fst = w.started.map Prod.fst
  codes : ∀ p ∈ w.notified, (w.futures p.1).code = p.2
  pending : ∀ func, func ∉ w.notified.map Prod.fst → (w.futures func).code = .last
  refused : w.scheduler.add true w.calls = none ↔ w.accepted.length - w.acceptedAtSwap = w.scheduler.maxEventCount
  never : ∀ func ∈ w.refused, func ∉ w.started.map Prod.fst

theorem Inv.notified_prefix {w : World θ} (hw : Inv w) :
    w.notified <+: w.returned ∧ w.returned.map Prod.fst <+: w.started.map Prod.fst := by
  cases hrun : w.runner with
  | idle =>
    obtain ⟨_, hret, hnot⟩ := hw.inStep.idle hrun
    rw [hret, hnot]
    exact ⟨List.prefix_rfl, List.prefix_rfl⟩
  | next pos =>
    obtain ⟨_, hret, hnot⟩ := hw.inStep.next hrun
    rw [hret, hnot]
    exact ⟨List.prefix_rfl, List.prefix_rfl⟩
  | executing pos =>
    obtain ⟨func, _, hret, hnot⟩ := hw.inStep.executing hrun
    rw [hret, hnot]
    exact ⟨List.prefix_rfl, List.prefix_append _ _⟩
  | notifying pos code =>
    obtain ⟨func, _, hret, hnot⟩ := hw.inStep.notifying hrun
    rw [hret, hnot]
    exact ⟨List.prefix_append _ _, List.prefix_rfl⟩

theorem Inv.executesOnce {w : World θ} (hw : Inv w) : ExecutesOnce w := by
  refine ⟨hw.accepted_nodup, hw.started_prefix, ?_, hw.notified_prefix, ?_, hw.codes, hw.pending, ?_, ?_⟩
  · intro hidle p hp hlt
    have hmem : (p.1, p.2 + 1) ∈ w.due := List.mem_map_of_mem (f := fun p => (p.1, p.2 + 1)) hp
    rw [hw.due, (hw.inStep.idle hidle).1, List.drop_nil, List.map_nil, List.append_nil, List.mem_append] at hmem
    rcases hmem with hmem | hmem
    · exact hmem
    -- what is still in the write queue was accepted after the last run had begun
    · obtain ⟨func, _, heq⟩ := List.mem_map.1 hmem
      have hrun : w.begun + 1 = p.2 + 1 := congrArg Prod.snd heq
      omega
  · intro hidle
    obtain ⟨_, hret, hnot⟩ := hw.inStep.idle hidle
    exact ⟨hnot.symm, hret.symm⟩
  · have hroom := hw.room
    rw [add_eq_none_iff]
    omega
  · intro func hfunc hmem
    have hsub : w.started.map Prod.fst <+: w.accepted.map Prod.fst := due_fst w ▸ hw.started_prefix.map Prod.fst
    exact (hw.refused func hfunc).2 (hsub.subset hmem)

/-- **Exactly once and in order.** For every interleaving of additions, also from the functions that are run, with runs
that are not nested, and whatever the functions return. A run in progress returns after the functions it has left. -/
theorem executes_once (maxEventCount : ℕ) (h : 0 < maxEventCount) (es : List (Event θ)) (w : World θ)
    (hw : exec step (.start maxEventCount h) es = some w) :
    ExecutesOnce w ∧ ∀ code, ∃ w', exec step w (w.runner.rest code w.scheduler.readQueue.length) = some w' ∧
      w'.runner = .idle ∧ w'.begun = w.begun := by
  have hstep (w : World θ) (e : Event θ) (w' : World θ) (hw : Inv w) (h : step w e = some w') : Inv w' :=
    step_inv w e w' hw h
  have hinv : Inv w := exec_inv hstep (start_inv maxEventCount h) es hw
  exact ⟨hinv.executesOnce, run_completes hinv⟩

/-- room for one function: the second one is refused, a third one is accepted while the first one is executed -/
def exampleEvents : List (Event ℕ) :=
  [.add true, .add true, .run, .call, .add true, .wait 0 7, .ret .timeout, .notify, .finish, .run, .call, .ret .ok]

def exampleEnd : World ℕ := (exec step (World.start 1 (by decide)) exampleEvents).get (by decide)

theorem executes_once_example : ExecutesOnce exampleEnd ∧ exampleEnd.started = [(0, 1), (2, 2)] ∧
    exampleEnd.refused = [1] ∧ exampleEnd.notified = [(0, .timeout)] :=
  ⟨(executes_once 1 (by decide) exampleEvents exampleEnd (Option.some_get _).symm).1, by decide, by decide, by decide⟩

end ControlComponents.Scheduler.AsyncFuncScheduler
