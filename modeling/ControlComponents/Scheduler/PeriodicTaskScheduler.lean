/-
`PeriodicTaskScheduler` (`ocs_scheduler`): tasks that one loop runs, each at most once per interval.

Every `run` reads the clock once for each task and asks the rate limiter of the task. What a task returns is logged only,
so no task depends on another one.

- `run_calls`: a run takes one decision on every task that has been added.
- `timing_law_iff`: a task is run exactly when it is due, iff none of its readings comes less than its interval after an
  execution at the reading 0. `zero_reading_repeats` is a run at such a reading.
-/
import ControlComponents.Core.RateLimiter
import ControlComponents.Lib.Runs

namespace ControlComponents.Scheduler

open ControlComponents.Core ControlComponents.Lib.Runs

/-! ## Model -/

namespace PeriodicTaskScheduler

structure Node where
  id : String
  limiter : RateLimiter

/-- a reading of the clock for a node, whether its task was run, and the status of the node -/
structure Call where
  now : Time
  performed : Bool
  code : StatusCode

/-- `result` is what the task returns if it is run -/
def Node.run (n : Node) (now : Time) (result : StatusCode) : Call × Node :=
  let (allowed, limiter) := n.limiter.allow now
  (⟨now, allowed, if allowed then result else .ok⟩, { n with limiter })

end PeriodicTaskScheduler

open PeriodicTaskScheduler

structure PeriodicTaskScheduler where
  maxCount : ℕ
  maxCount_pos : 0 < maxCount
  nodes : List Node

namespace PeriodicTaskScheduler

/-- what `add` asserts of an interval; a millisecond is 1000 microseconds -/
abbrev TaskInterval := {interval : Time // 0 < interval.toInt ∧ 1000 ≤ interval.toInt}

def new (maxCount : ℕ) (h : 0 < maxCount) : PeriodicTaskScheduler := ⟨maxCount, h, []⟩

def add (s : PeriodicTaskScheduler) (id : String) (interval : TaskInterval) : StatusCode × PeriodicTaskScheduler :=
  if s.nodes.length = s.maxCount then (.error, s)
  else if s.nodes.any fun node => decide (node.id = id) then (.invalidArg, s)
  else (.ok, { s with nodes := s.nodes ++ [⟨id, .new ⟨interval.1, interval.2.1⟩⟩] })

/-- the nodes in order, each at its own reading; the statuses are logged only -/
def run_ (s : PeriodicTaskScheduler) (now : ℕ → Time) (result : ℕ → StatusCode) :
    List Call × PeriodicTaskScheduler :=
  let called := s.nodes.mapIdx fun i node => node.run (now i) (result i)
  (called.map Prod.fst, { s with nodes := called.map Prod.snd })

/-- a scheduler, the number of readings taken from the clock, and the calls of each run -/
structure Device where
  scheduler : PeriodicTaskScheduler
  tick : ℕ
  runs : List (List Call)

inductive Event where
  | add (id : String) (interval : TaskInterval)
  | run (result : ℕ → StatusCode)

def Device.start (maxCount : ℕ) (h : 0 < maxCount) : Device := ⟨.new maxCount h, 0, []⟩

/-- `run` takes a reading before the nodes and another one after them -/
def step (clock : ℕ → Time) (d : Device) : Event → Device
  | .add id interval => { d with scheduler := (d.scheduler.add id interval).2 }
  | .run result =>
    let (calls, scheduler) := d.scheduler.run_ (fun i => clock (d.tick + 1 + i)) result
    { scheduler, tick := d.tick + 1 + d.scheduler.nodes.length + 1, runs := d.runs ++ [calls] }

/-! ## The log of a task -/

/-- the calls of the task that was added as number `i` -/
def Device.calls (d : Device) (i : ℕ) : List Call := d.runs.filterMap fun calls => calls[i]?

def Device.readings (d : Device) (i : ℕ) : List Time := (d.calls i).map Call.now

/-- readings and decisions -/
def Device.log (d : Device) (i : ℕ) : List (ℤ × Bool) := (d.calls i).map fun c => (c.now.toInt, c.performed)

/-- every task is run exactly when it is due -/
def TimingLaw (d : Device) : Prop :=
  ∀ i n, d.scheduler.nodes[i]? = some n → Follows n.limiter.interval.1.toInt none (d.log i)

/-- no task has a reading less than its interval after an execution at the reading 0 -/
def NoZeroExecution (d : Device) : Prop :=
  ∀ i n, d.scheduler.nodes[i]? = some n →
    Unambiguous n.limiter.interval.1.toInt none ((d.readings i).map BitVec.toInt)

/-- the decisions on a task are those of a limiter of its own at readings that do not go back -/
structure Inv (clock : ℕ → Time) (d : Device) : Prop where
  limiter : ∀ i n, d.scheduler.nodes[i]? = some n →
    (RateLimiter.new n.limiter.interval).allowAll (d.readings i) = ((d.calls i).map Call.performed, n.limiter)
  fresh : ∀ i, d.scheduler.nodes.length ≤ i → d.calls i = []
  sorted : ∀ i, (d.readings i).Pairwise fun a b => a.toInt ≤ b.toInt
  past : ∀ i, ∀ now ∈ d.readings i, now.toInt ≤ (clock d.tick).toInt

theorem start_inv (clock : ℕ → Time) (maxCount : ℕ) (h : 0 < maxCount) : Inv clock (.start maxCount h) where
  limiter i n hn := by
    have hnone : (Device.start maxCount h).scheduler.nodes[i]? = none := rfl
    rw [hnone] at hn
    cases hn
  fresh _ _ := rfl
  sorted _ := List.Pairwise.nil
  past i now hnow := by cases hnow

/-- a task that is added has a fresh limiter and no calls -/
theorem add_inv {clock : ℕ → Time} {d : Device} (hd : Inv clock d) (id : String) (interval : TaskInterval) :
    Inv clock (step clock d (.add id interval)) := by
  simp only [step, add]
  split_ifs
  · exact hd
  · exact hd
  · refine ⟨?_, ?_, hd.sorted, hd.past⟩
    · intro i n hn
      rw [List.getElem?_append] at hn
      split_ifs at hn with hlt
      · exact hd.limiter i n hn
      · have hi : i = d.scheduler.nodes.length := by
          by_contra hne
          have hpos : i - d.scheduler.nodes.length ≠ 0 := by omega
          obtain ⟨k, hk⟩ := Nat.exists_eq_succ_of_ne_zero hpos
          rw [hk] at hn
          cases hn
        subst hi
        simp only [Nat.sub_self, List.getElem?_cons_zero, Option.some.injEq] at hn
        subst hn
        have hcalls : d.calls d.scheduler.nodes.length = [] := hd.fresh _ le_rfl
        show RateLimiter.allowAll _ ((d.calls _).map Call.now) = ((d.calls _).map Call.performed, _)
        rw [hcalls]
        rfl
    · intro i hi
      rw [List.length_append] at hi
      exact hd.fresh i (by omega)

/-- the calls of one run, one for each task -/
def runCalls (clock : ℕ → Time) (d : Device) (result : ℕ → StatusCode) : List Call :=
  (d.scheduler.run_ (fun i => clock (d.tick + 1 + i)) result).1

theorem run_runs (clock : ℕ → Time) (d : Device) (result : ℕ → StatusCode) :
    (step clock d (.run result)).runs = d.runs ++ [runCalls clock d result] := rfl

theorem run_nodes (clock : ℕ → Time) (d : Device) (result : ℕ → StatusCode) (i : ℕ) :
    (step clock d (.run result)).scheduler.nodes[i]? =
      d.scheduler.nodes[i]?.map fun n => (n.run (clock (d.tick + 1 + i)) (result i)).2 := by
  simp only [step, run_, List.getElem?_map, List.getElem?_mapIdx, Option.map_map]
  rfl

/-- a run takes one decision on every task that has been added -/
theorem run_calls (clock : ℕ → Time) (d : Device) (result : ℕ → StatusCode) (i : ℕ) :
    (step clock d (.run result)).calls i = d.calls i ++
      (d.scheduler.nodes[i]?.map fun n => (n.run (clock (d.tick + 1 + i)) (result i)).1).toList := by
  have hget : (runCalls clock d result)[i]? =
      d.scheduler.nodes[i]?.map fun n => (n.run (clock (d.tick + 1 + i)) (result i)).1 := by
    simp only [runCalls, run_, List.getElem?_map, List.getElem?_mapIdx, Option.map_map]
    rfl
  rw [Device.calls, run_runs, List.filterMap_append, ← hget, Device.calls]
  cases h : (runCalls clock d result)[i]? <;> simp [h]

theorem run_inv {clock : ℕ → Time} (hclock : Monotone fun k => (clock k).toInt) {d : Device} (hd : Inv clock d)
    (result : ℕ → StatusCode) : Inv clock (step clock d (.run result)) := by
  have htick (i : ℕ) (hi : i < d.scheduler.nodes.length) :
      (clock (d.tick + 1 + i)).toInt ≤ (clock (step clock d (.run result)).tick).toInt := by
    apply hclock
    simp only [step]
    omega
  have hlater (i : ℕ) : (clock d.tick).toInt ≤ (clock (d.tick + 1 + i)).toInt := hclock (by omega)
  have hafter : (clock d.tick).toInt ≤ (clock (step clock d (.run result)).tick).toInt := by
    apply hclock
    simp only [step]
    omega
  have hlen : (step clock d (.run result)).scheduler.nodes.length = d.scheduler.nodes.length := by simp [step, run_]
  refine ⟨?_, ?_, ?_, ?_⟩
  · intro i n hn
    rw [run_nodes] at hn
    obtain ⟨m, hm, rfl⟩ := Option.map_eq_some_iff.1 hn
    have hbefore := hd.limiter i m hm
    have hinterval : (m.run (clock (d.tick + 1 + i)) (result i)).2.limiter.interval = m.limiter.interval :=
      RateLimiter.allow_interval m.limiter _
    rw [Device.readings, run_calls, hm, hinterval, Option.map_some, Option.toList_some, List.map_append, List.map_append,
      List.map_singleton, List.map_singleton]
    have hconcat := RateLimiter.allowAll_concat (.new m.limiter.interval) (d.readings i)
      (m.run (clock (d.tick + 1 + i)) (result i)).1.now
    rw [hbefore] at hconcat
    exact hconcat
  · intro i hi
    rw [hlen] at hi
    rw [run_calls, hd.fresh i hi, List.getElem?_eq_none hi]
    rfl
  · intro i
    rw [Device.readings, run_calls, List.map_append]
    cases hm : d.scheduler.nodes[i]? with
    | none =>
      simp only [Option.map_none, Option.toList_none, List.map_nil, List.append_nil]
      exact hd.sorted i
    | some m =>
      refine List.pairwise_append.2 ⟨hd.sorted i, List.pairwise_singleton _ _, ?_⟩
      intro now hnow later hlater'
      simp only [Option.map_some, Option.toList_some, List.map_singleton, List.mem_singleton] at hlater'
      subst hlater'
      exact (hd.past i now hnow).trans (hlater i)
  · intro i now hnow
    rw [Device.readings, run_calls, List.map_append, List.mem_append] at hnow
    rcases hnow with hnow | hnow
    · exact (hd.past i now hnow).trans hafter
    · cases hm : d.scheduler.nodes[i]? with
      | none => simp [hm] at hnow
      | some m =>
        simp only [hm, Option.map_some, Option.toList_some, List.map_singleton, List.mem_singleton] at hnow
        subst hnow
        exact htick i (List.getElem?_eq_some_iff.1 hm).1

theorem step_inv {clock : ℕ → Time} (hclock : Monotone fun k => (clock k).toInt) (d : Device) (e : Event)
    (hd : Inv clock d) : Inv clock (step clock d e) := by
  cases e with
  | add id interval => exact add_inv hd id interval
  | run result => exact run_inv hclock hd result

/-- the log of a task is the log of its limiter -/
theorem Inv.log {clock : ℕ → Time} {d : Device} (hd : Inv clock d) {i : ℕ} {n : Node}
    (hn : d.scheduler.nodes[i]? = some n) : d.log i = (RateLimiter.new n.limiter.interval).log (d.readings i) := by
  rw [RateLimiter.log, hd.limiter i n hn, Device.readings, Device.log, List.map_map, List.zip_map']
  rfl

/-- **The timing law.** For every clock that does not go back, all additions and runs and all results: every run takes a
decision on every task, and every task is run exactly when it is due iff no task has a reading less than its interval
after an execution at the reading 0. -/
theorem timing_law_iff {clock : ℕ → Time} (hclock : Monotone fun k => (clock k).toInt) (maxCount : ℕ)
    (h : 0 < maxCount) (es : List Event) :
    let d := run (step clock) (.start maxCount h) es
    (TimingLaw d ↔ NoZeroExecution d) ∧
      ∀ result, ∃ calls, calls.length = d.scheduler.nodes.length ∧
        (step clock d (.run result)).runs = d.runs ++ [calls] := by
  intro d
  have hstep (d : Device) (e : Event) (hd : Inv clock d) : Inv clock (step clock d e) := step_inv hclock d e hd
  have hd : Inv clock d := run_preserves hstep (start_inv clock maxCount h) es
  refine ⟨?_, ?_⟩
  · refine forall₃_congr fun i n hn => ?_
    rw [hd.log hn]
    have htracks := RateLimiter.new_tracks n.limiter.interval
    exact RateLimiter.follows_iff htracks (d.readings i) (by simp) (hd.sorted i)
  · intro result
    exact ⟨runCalls clock d result, by simp [runCalls, run_], run_runs clock d result⟩

/-- a clock at 0 in the first run of one task and at `later` from then on -/
def exampleClock (later : Time) (k : ℕ) : Time := if k < 3 then 0 else later

theorem exampleClock_mono {later : Time} (h : 0 ≤ later.toInt) : Monotone fun k => (exampleClock later k).toInt := by
  simp only [exampleClock, apply_ite BitVec.toInt]
  exact monotone_ite_lt h 3

/-- a task with an interval of a millisecond, and two runs -/
def exampleEvents : List Event := [.add "blink" ⟨1000, by decide⟩, .run fun _ => .ok, .run fun _ => .error]

theorem timing_law_iff_example :
    let d := run (step (exampleClock 1000)) (.start 1 (by decide)) exampleEvents
    TimingLaw d ∧ d.log 0 = [(0, true), (1000, true)] := by
  refine ⟨(timing_law_iff (exampleClock_mono (by decide)) 1 (by decide) exampleEvents).1.2 ?_, by decide⟩
  intro i n hn
  cases i with
  | zero =>
    cases hn
    decide
  | succ i => cases hn

def FollowsTimingLaw : Prop :=
  ∀ (clock : ℕ → Time), (Monotone fun k => (clock k).toInt) → ∀ (maxCount : ℕ) (h : 0 < maxCount) (es : List Event),
    TimingLaw (run (step clock) (.start maxCount h) es)

/-- **A reading of 0 means "never ran".** The task is executed at 0 and again a microsecond later, although its interval
is a millisecond. -/
theorem zero_reading_repeats : ¬ FollowsTimingLaw ∧
    (run (step (exampleClock 1)) (.start 1 (by decide)) exampleEvents).log 0 = [(0, true), (1, true)] := by
  refine ⟨fun h => ?_, by decide⟩
  have hbad := h (exampleClock 1) (exampleClock_mono (by decide)) 1 (by decide) exampleEvents 0 _ rfl
  have hlog : (run (step (exampleClock 1)) (.start 1 (by decide)) exampleEvents).log 0 = [(0, true), (1, true)] := by
    decide
  rw [hlog] at hbad
  revert hbad
  decide

end PeriodicTaskScheduler

end ControlComponents.Scheduler
