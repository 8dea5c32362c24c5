/-
Nested runs of `AsyncFuncScheduler` (`ocs_scheduler`): functions that call `add` and `run` of the scheduler they run on.

A loop of `run` goes through the queue that was the read queue when it began. A nested `run` that finds functions swaps the
queues below it: the loop goes on over what is now the write queue, which is filled by `add`, and cleared by nobody.

- `Inv`: a single loop, over the read queue; what has been accepted has been executed, or is still to be executed.
- `executes_once_unless_nested`: every function is executed once as long as no nested run finds any to run.
  `nested_run_repeats` has a run that executes a function twice, and one that modifies a queue in a loop.
-/
import ControlComponents.Lib.Runs
import ControlComponents.Scheduler.AsyncFuncScheduler

namespace ControlComponents.Scheduler.AsyncFuncScheduler

namespace Nested

open ControlComponents.Lib.Runs

/-! ## Model -/

/-- a loop of `run` that has not come to its end -/
structure Loop where
  /-- its queue is the read queue; it is the write queue after a swap -/
  overRead : Bool
  pos : ℕ
  /-- the number of functions when it began -/
  size : ℕ
  /-- the function at the position has been called, and has not returned -/
  executing : Bool
deriving DecidableEq

def Loop.queue (l : Loop) (s : AsyncFuncScheduler ℕ) : List ℕ := if l.overRead then s.readQueue else s.writeQueue

/-- the loop after the queues have been swapped -/
def Loop.swapped (l : Loop) : Loop := { l with overRead := !l.overRead }

/-- the functions that the loop has still to call -/
def Loop.rest (l : Loop) (s : AsyncFuncScheduler ℕ) : List ℕ :=
  ((l.queue s).take l.size).drop (if l.executing then l.pos + 1 else l.pos)

structure World where
  scheduler : AsyncFuncScheduler ℕ
  /-- the innermost loop first -/
  loops : List Loop
  /-- a queue has been modified while a loop goes through it -/
  modified : Bool
  /-- the number of calls of `add` -/
  calls : ℕ
  accepted : List ℕ
  executed : List ℕ

def World.start (maxEventCount : ℕ) (h : 0 < maxEventCount) : World := ⟨.new maxEventCount h, [], false, 0, [], []⟩

inductive Event where
  /-- `add`, from any task or from the function that is executed -/
  | add (allocated : Bool)
  /-- `run`, from the task or from the function that is executed -/
  | run
  | call
  | ret
  /-- the end of the innermost loop, and of its `run` -/
  | finish

/-- `run` is called by the task, or by the function that is executed -/
def World.mayRun (w : World) : Bool :=
  match w.loops with
  | [] => true
  | l :: _ => l.executing

/-- what a loop does after its queue has been modified is not defined -/
def step (w : World) (e : Event) : Option World :=
  if w.modified then none
  else
    match e with
    | .add allocated =>
      match w.scheduler.add allocated w.calls with
      | some scheduler => some
        { w with
          scheduler
          modified := w.loops.any fun l => !l.overRead
          calls := w.calls + 1
          accepted := w.accepted ++ [w.calls] }
      | none => some { w with calls := w.calls + 1 }
    | .run =>
      if !w.mayRun then none
      else
        match w.scheduler.swap with
        | some scheduler => some
          { w with scheduler, loops := ⟨true, 0, scheduler.readQueue.length, false⟩ :: w.loops.map Loop.swapped }
        | none => some w
    | .call =>
      match w.loops with
      | [] => none
      | l :: outer =>
        if l.executing || decide (l.size ≤ l.pos) then none
        else (l.queue w.scheduler)[l.pos]?.map fun func =>
          { w with loops := { l with executing := true } :: outer, executed := w.executed ++ [func] }
    | .ret =>
      match w.loops with
      | [] => none
      | l :: outer =>
        if l.executing then some { w with loops := { l with pos := l.pos + 1, executing := false } :: outer }
        else none
    | .finish =>
      match w.loops with
      | [] => none
      | l :: outer =>
        if l.executing || decide (l.pos < l.size) then none
        else some
          { w with scheduler := w.scheduler.clear, loops := outer, modified := outer.any fun l => l.overRead }

/-- the functions that will be called: by the loops, and by the next run -/
def World.waiting (w : World) : List ℕ := (w.loops.flatMap fun l => l.rest w.scheduler) ++ w.scheduler.writeQueue

/-- no function is executed twice, none is lost, and no queue is modified in a loop over it -/
structure Lawful (w : World) : Prop where
  once : w.executed.Nodup
  kept : ∀ func ∈ w.accepted, func ∈ w.executed ∨ func ∈ w.waiting
  stable : w.modified = false

/-- a nested `run` finds nothing to run -/
def Idle (w : World) : Event → Prop
  | .run => w.loops ≠ [] → w.scheduler.writeQueue = []
  | _ => True

instance (w : World) (e : Event) : Decidable (Idle w e) := by
  cases e <;> unfold Idle <;> infer_instance

/-! ## The invariant -/

/-- at most one loop, over the whole read queue -/
def Single (w : World) : Prop :=
  (w.loops = [] ∧ w.scheduler.readQueue = []) ∨
    ∃ l, w.loops = [l] ∧ l.overRead = true ∧ l.size = w.scheduler.readQueue.length

structure Inv (w : World) : Prop where
  single : Single w
  stable : w.modified = false
  accepted : w.accepted = w.executed ++ w.waiting
  lt : ∀ func ∈ w.accepted, func < w.calls
  nodup : w.accepted.Nodup

/-- a loop is the only one, and its queue is the read queue -/
theorem Single.of_loops {w : World} (h : Single w) {l : Loop} {outer : List Loop} (hloops : w.loops = l :: outer) :
    outer = [] ∧ l.overRead = true ∧ l.size = w.scheduler.readQueue.length := by
  rcases h with ⟨hnil, -⟩ | ⟨l', hsingle, hover, hsize⟩
  · rw [hloops] at hnil
    cases hnil
  · rw [hloops] at hsingle
    obtain ⟨rfl, rfl⟩ := List.cons.inj hsingle
    exact ⟨rfl, hover, hsize⟩

theorem start_inv (maxEventCount : ℕ) (h : 0 < maxEventCount) : Inv (.start maxEventCount h) where
  single := .inl ⟨rfl, rfl⟩
  stable := rfl
  accepted := rfl
  lt func hfunc := by cases hfunc
  nodup := List.nodup_nil

theorem Inv.lawful {w : World} (hw : Inv w) : Lawful w where
  once := by
    have hnodup := hw.nodup
    rw [hw.accepted] at hnodup
    exact hnodup.of_append_left
  kept func hfunc := by
    rw [hw.accepted, List.mem_append] at hfunc
    exact hfunc
  stable := hw.stable

/-- the rest of a loop over the whole read queue -/
theorem rest_eq {l : Loop} {s : AsyncFuncScheduler ℕ} (hread : l.overRead = true) (hsize : l.size = s.readQueue.length) :
    l.rest s = s.readQueue.drop (if l.executing then l.pos + 1 else l.pos) := by
  rw [Loop.rest, Loop.queue, if_pos hread, hsize, List.take_length]

/-! ## Steps -/

theorem add_inv {w : World} (hw : Inv w) {allocated : Bool} {scheduler : AsyncFuncScheduler ℕ}
    (h : w.scheduler.add allocated w.calls = some scheduler) :
    Inv { w with
      scheduler
      modified := w.loops.any fun l => !l.overRead
      calls := w.calls + 1
      accepted := w.accepted ++ [w.calls] } := by
  obtain ⟨hwrite, hread⟩ := add_spec h
  have hlt : ∀ func ∈ w.accepted ++ [w.calls], func < w.calls + 1 := by
    intro func hfunc
    rw [List.mem_append, List.mem_singleton] at hfunc
    rcases hfunc with hfunc | rfl
    · exact (hw.lt func hfunc).trans (Nat.lt_succ_self _)
    · exact Nat.lt_succ_self _
  have hnodup : (w.accepted ++ [w.calls]).Nodup := by
    refine List.Nodup.append hw.nodup (List.nodup_singleton _) ?_
    intro func hfunc hcall
    rw [List.mem_singleton] at hcall
    exact absurd (hw.lt func hfunc) (by omega)
  rcases hw.single with ⟨hloops, hempty⟩ | ⟨l, hloops, hover, hsize⟩
  · refine ⟨.inl ⟨hloops, hread.trans hempty⟩, ?_, ?_, hlt, hnodup⟩
    · simp only [hloops, List.any_nil]
    · rw [hw.accepted]
      simp only [World.waiting, hloops, hwrite, List.flatMap_nil, List.nil_append, List.append_assoc]
  · refine ⟨.inr ⟨l, hloops, hover, by rw [hsize, hread]⟩, ?_, ?_, hlt, hnodup⟩
    · simp only [hloops, List.any_cons, hover, Bool.not_true, List.any_nil, Bool.or_self]
    · have hrest : l.rest scheduler = l.rest w.scheduler := by
        rw [rest_eq hover (by rw [hsize, hread]), rest_eq hover hsize, hread]
      rw [hw.accepted]
      simp only [World.waiting, hloops, hwrite, hrest, List.flatMap_cons, List.flatMap_nil, List.append_nil,
        List.append_assoc]

theorem refused_inv {w : World} (hw : Inv w) : Inv { w with calls := w.calls + 1 } :=
  ⟨hw.single, hw.stable, hw.accepted, fun func hfunc => (hw.lt func hfunc).trans (Nat.lt_succ_self _), hw.nodup⟩

/-- a run that finds functions is not nested, and the read queue is empty -/
theorem swap_inv {w : World} (hw : Inv w) (hidle : Idle w .run) {scheduler : AsyncFuncScheduler ℕ}
    (h : w.scheduler.swap = some scheduler) :
    Inv { w with
      scheduler
      loops := ⟨true, 0, scheduler.readQueue.length, false⟩ :: w.loops.map Loop.swapped } := by
  obtain ⟨hwrite, hread⟩ := swap_spec h
  rcases hw.single with ⟨hloops, hempty⟩ | ⟨l, hloops, -, -⟩
  · refine ⟨.inr ⟨_, by rw [hloops]; rfl, rfl, rfl⟩, hw.stable, ?_, hw.lt, hw.nodup⟩
    rw [hw.accepted]
    have hrest : Loop.rest ⟨true, 0, w.scheduler.writeQueue.length, false⟩ scheduler = w.scheduler.writeQueue :=
      (rest_eq rfl (by rw [hread])).trans hread
    simp only [World.waiting, hloops, List.map_nil, List.flatMap_cons, List.flatMap_nil, hrest, hread, hwrite, hempty,
      List.append_nil, List.nil_append]
  · have hne : w.loops ≠ [] := by
      rw [hloops]
      exact List.cons_ne_nil _ _
    rw [swap, hidle hne] at h
    cases h

theorem call_inv {w : World} (hw : Inv w) {l : Loop} {outer : List Loop} (hloops : w.loops = l :: outer)
    (hexec : l.executing = false) {func : ℕ} (hfunc : (l.queue w.scheduler)[l.pos]? = some func) :
    Inv { w with loops := { l with executing := true } :: outer, executed := w.executed ++ [func] } := by
  obtain ⟨rfl, hover, hsize⟩ := hw.single.of_loops hloops
  refine ⟨.inr ⟨_, rfl, hover, hsize⟩, hw.stable, ?_, hw.lt, hw.nodup⟩
  have hbefore : l.rest w.scheduler = w.scheduler.readQueue.drop l.pos := by
    rw [rest_eq hover hsize, hexec]
    rfl
  have hafter : Loop.rest { l with executing := true } w.scheduler = w.scheduler.readQueue.drop (l.pos + 1) :=
    rest_eq hover hsize
  rw [Loop.queue, if_pos hover] at hfunc
  have hdrop : w.scheduler.readQueue.drop l.pos = func :: w.scheduler.readQueue.drop (l.pos + 1) := by
    calc w.scheduler.readQueue.drop l.pos
        = w.scheduler.readQueue[l.pos]?.toList ++ w.scheduler.readQueue.drop (l.pos + 1) :=
          List.drop_eq_getElem?_toList_append
      _ = func :: w.scheduler.readQueue.drop (l.pos + 1) := by
          rw [hfunc]
          rfl
  calc w.accepted
      = w.executed ++ (w.scheduler.readQueue.drop l.pos ++ w.scheduler.writeQueue) := by
        rw [hw.accepted, World.waiting, hloops, List.flatMap_singleton, hbefore]
    _ = w.executed ++ [func] ++ (w.scheduler.readQueue.drop (l.pos + 1) ++ w.scheduler.writeQueue) := by
        rw [hdrop]
        simp
    _ = _ := by
        rw [World.waiting, List.flatMap_singleton, hafter]

theorem ret_inv {w : World} (hw : Inv w) {l : Loop} {outer : List Loop} (hloops : w.loops = l :: outer)
    (hexec : l.executing = true) :
    Inv { w with loops := { l with pos := l.pos + 1, executing := false } :: outer } := by
  obtain ⟨rfl, hover, hsize⟩ := hw.single.of_loops hloops
  refine ⟨.inr ⟨_, rfl, hover, hsize⟩, hw.stable, ?_, hw.lt, hw.nodup⟩
  have hrest : Loop.rest { l with pos := l.pos + 1, executing := false } w.scheduler = l.rest w.scheduler := by
    rw [rest_eq hover hsize, hexec]
    exact rest_eq hover hsize
  rw [hw.accepted, World.waiting, World.waiting, hloops, List.flatMap_singleton, List.flatMap_singleton, hrest]

theorem finish_inv {w : World} (hw : Inv w) {l : Loop} {outer : List Loop} (hloops : w.loops = l :: outer)
    (hexec : l.executing = false) (hend : l.size ≤ l.pos) :
    Inv { w with scheduler := w.scheduler.clear, loops := outer, modified := outer.any fun l => l.overRead } := by
  obtain ⟨rfl, hover, hsize⟩ := hw.single.of_loops hloops
  refine ⟨.inl ⟨rfl, rfl⟩, rfl, ?_, hw.lt, hw.nodup⟩
  -- all functions of the queue have been called
  have hrest : l.rest w.scheduler = [] := by
    rw [rest_eq hover hsize, hexec]
    exact List.drop_eq_nil_iff.2 (hsize ▸ hend)
  rw [hw.accepted, World.waiting, hloops, List.flatMap_singleton, hrest]
  rfl

theorem step_inv (w : World) (e : Event) (w' : World) (hw : Inv w) (hidle : Idle w e) (h : step w e = some w') :
    Inv w' := by
  have hstable : ¬ w.modified = true := by
    rw [hw.stable]
    exact Bool.false_ne_true
  unfold step at h
  rw [if_neg hstable] at h
  cases e with
  | add allocated =>
    cases hadd : w.scheduler.add allocated w.calls with
    | some scheduler =>
      simp only [hadd, Option.some.injEq] at h
      exact h ▸ add_inv hw hadd
    | none =>
      simp only [hadd, Option.some.injEq] at h
      exact h ▸ refused_inv hw
  | run =>
    simp only at h
    split_ifs at h
    cases hswap : w.scheduler.swap with
    | some scheduler =>
      simp only [hswap, Option.some.injEq] at h
      exact h ▸ swap_inv hw hidle hswap
    | none =>
      simp only [hswap, Option.some.injEq] at h
      exact h ▸ hw
  | call =>
    cases hloops : w.loops with
    | nil =>
      rw [hloops] at h
      cases h
    | cons l outer =>
      simp only [hloops] at h
      split_ifs at h with hnot
      rw [Bool.or_eq_true, not_or, Bool.not_eq_true] at hnot
      obtain ⟨func, hfunc, rfl⟩ := Option.map_eq_some_iff.1 h
      exact call_inv hw hloops hnot.1 hfunc
  | ret =>
    cases hloops : w.loops with
    | nil =>
      rw [hloops] at h
      cases h
    | cons l outer =>
      simp only [hloops] at h
      split_ifs at h with hexec
      obtain rfl := Option.some.inj h
      exact ret_inv hw hloops hexec
  | finish =>
    cases hloops : w.loops with
    | nil =>
      rw [hloops] at h
      cases h
    | cons l outer =>
      simp only [hloops] at h
      split_ifs at h with hnot
      rw [Bool.or_eq_true, not_or, Bool.not_eq_true, decide_eq_true_eq, not_lt] at hnot
      obtain rfl := Option.some.inj h
      exact finish_inv hw hloops hnot.1 hnot.2

/-- **Reentrancy.** For every run of the scheduler in which functions and other tasks call `add` and functions call `run`,
as often and as deep as they like: as long as no nested `run` finds a function in the write queue, no function is executed
twice, none is lost, and no queue is modified in a loop over it. -/
theorem executes_once_unless_nested (maxEventCount : ℕ) (h : 0 < maxEventCount) (events : List Event) (w : World)
    (hidle : GuardedExec step Idle (.start maxEventCount h) events)
    (hexec : exec step (.start maxEventCount h) events = some w) : Lawful w :=
  (guardedExec_inv step_inv (start_inv maxEventCount h) events hidle hexec).lawful

/-- a function that adds another one and runs the scheduler, which executes that one -/
def nestedRun : List Event := [.add true, .run, .call, .add true, .run, .call, .ret, .finish]

/-- a function that runs the scheduler, which has nothing to run, and then adds another one -/
def emptyRun : List Event := [.add true, .run, .call, .run, .add true, .ret, .finish, .run, .call]

def emptyRunEnd : World := (exec step (.start 2 Nat.zero_lt_two) emptyRun).get (by decide)

theorem executes_once_unless_nested_example : emptyRunEnd.executed = [0, 1] ∧ Lawful emptyRunEnd := by
  refine ⟨by decide, ?_⟩
  exact executes_once_unless_nested 2 Nat.zero_lt_two emptyRun emptyRunEnd (by decide) (Option.some_get _).symm

def Reentrant : Prop :=
  ∀ (maxEventCount : ℕ) (h : 0 < maxEventCount) (events : List Event) (w : World),
    exec step (.start maxEventCount h) events = some w → Lawful w

/-- **A nested run.** The function that has called `run` is executed again by the next run, and an `add` before that
modifies the queue whose loop has not come to its end. -/
theorem nested_run_repeats : ¬ Reentrant ∧
    (exec step (.start 2 Nat.zero_lt_two) (nestedRun ++ [.ret, .finish, .run, .call])).map World.executed = some [0, 1, 0] ∧
    (exec step (.start 2 Nat.zero_lt_two) (nestedRun ++ [.add true])).map World.modified = some true := by
  have hrepeats : (exec step (.start 2 Nat.zero_lt_two) (nestedRun ++ [.ret, .finish, .run, .call])).map World.executed =
      some [0, 1, 0] := by decide
  refine ⟨fun h => ?_, hrepeats, by decide⟩
  obtain ⟨w, hw, hexecuted⟩ := Option.map_eq_some_iff.1 hrepeats
  have honce := (h 2 Nat.zero_lt_two _ w hw).once
  rw [hexecuted] at honce
  revert honce
  decide

end Nested

end ControlComponents.Scheduler.AsyncFuncScheduler
