/-
`AsyncTaskScheduler` (`ocs_scheduler`): a timer for each task sets the event bit of the task, and `run` waits for the
bits and runs their tasks.

A timer may fire at any time, also while a run is dispatching; several firings of a timer before a run are one bit. What a
task returns is logged only.

- `Allocated`: the task that was added as number `i` has the bit `i`.
- `Inv`: a bit of the group is set exactly when its timer has fired since the last run that collected the bit.
- `dispatch_law`: a run executes exactly the tasks that were due when it collected the bits, each once and in order.
-/
import ControlComponents.Algo.BitOps
import ControlComponents.Core.EventGroup
import ControlComponents.Lib.Runs

namespace ControlComponents.Scheduler

open ControlComponents.Algo ControlComponents.Core ControlComponents.Lib.Runs

/-! ## Model -/

/-- the end of `xEventGroupWaitBits` for any of the bits, cleared on exit: the bits of the group, and the group after it.
The group keeps its bits when the time runs out. Waiting for no bits fails an assertion. -/
def waitBits (group waited : EventBits) : Option (EventBits × EventBits) :=
  if waited = 0 then none
  else if group &&& waited = 0 then some (group, group)
  else some (group, group &&& ~~~ waited)

namespace AsyncTaskScheduler

structure Node where
  id : String
  event : EventBits

end AsyncTaskScheduler

open AsyncTaskScheduler

structure AsyncTaskScheduler where
  nodes : List Node
  bitsAll : EventBits

namespace AsyncTaskScheduler

def new : AsyncTaskScheduler := ⟨[], 0⟩

/-- the high bits are used by FreeRTOS itself; an `EventBits_t` has 4 bytes -/
def maxCount : ℕ := 4 * 8 - 8

def add (s : AsyncTaskScheduler) (id : String) : StatusCode × AsyncTaskScheduler :=
  if s.nodes.length = maxCount then (.error, s)
  else if s.nodes.any fun node => decide (node.id = id) then (.invalidArg, s)
  else
    let event := BitOps.mask (BitVec.ofNat 8 s.nodes.length)
    (.ok, { nodes := s.nodes ++ [⟨id, event⟩], bitsAll := s.bitsAll ||| event })

/-- what happens to the event group: the timer of a task fires, or a run collects bits -/
inductive Entry where
  | fired (task : ℕ)
  | collected (bits : EventBits)

/-- a run: what happened before it collected its bits, the bits, its place in the list of nodes, and what it executed -/
structure Run where
  before : List Entry
  bits : EventBits
  next : ℕ
  executed : List (ℕ × StatusCode)

/-- one turn of the loop of `run_`; `result` is what the task returns if it is run -/
def Run.visit (r : Run) (node : Node) (result : StatusCode) : Run :=
  { r with
    next := r.next + 1
    executed := if r.bits &&& node.event ≠ 0 then r.executed ++ [(r.next, result)] else r.executed }

structure Device where
  scheduler : AsyncTaskScheduler
  group : EventBits
  current : Option Run
  log : List Entry
  done : List Run

inductive Event where
  | add (id : String)
  /-- the timer of a task calls `AsyncTask::run` -/
  | fire (task : ℕ)
  /-- a call of `run` comes back from waiting -/
  | collect
  /-- the call goes on to the next node; past the last one it returns -/
  | visit (result : StatusCode)

def Device.start : Device := ⟨.new, 0, none, [], []⟩

def step (d : Device) : Event → Option Device
  | .add id => if d.current.isSome then none else some { d with scheduler := (d.scheduler.add id).2 }
  | .fire task => d.scheduler.nodes[task]?.map fun node =>
      { d with group := setBits d.group node.event, log := d.log ++ [.fired task] }
  | .collect =>
    if d.current.isSome then none
    else (waitBits d.group d.scheduler.bitsAll).map fun (bits, group) =>
      { d with group, current := some ⟨d.log, bits, 0, []⟩, log := d.log ++ [.collected bits] }
  | .visit result => d.current.map fun r =>
      match d.scheduler.nodes[r.next]? with
      | some node => { d with current := some (r.visit node result) }
      | none => { d with current := none, done := d.done ++ [r] }

/-! ## The bits of the tasks -/

/-- the tasks have pairwise distinct bits among the 24 low ones, and `bitsAll` is their union -/
structure Allocated (s : AsyncTaskScheduler) : Prop where
  single : ∀ n ∈ s.nodes, ∃ k < 24, n.event = 1#32 <<< k
  distinct : (s.nodes.map Node.event).Nodup
  union : s.bitsAll = (s.nodes.map Node.event).foldl (· ||| ·) 0

/-- the task that was added as number `i` has the bit `i` -/
structure Ordered (s : AsyncTaskScheduler) : Prop where
  length_le : s.nodes.length ≤ maxCount
  events : s.nodes.map Node.event = (List.range s.nodes.length).map fun i => BitOps.mask (BitVec.ofNat 8 i)
  union : s.bitsAll = (s.nodes.map Node.event).foldl (· ||| ·) 0

theorem mask_eq_shift {i : ℕ} (hi : i < 24) : BitOps.mask (BitVec.ofNat 8 i) = 1#32 <<< i := by
  have hto : (BitVec.ofNat 8 i).toNat = i := by
    rw [BitVec.toNat_ofNat]
    omega
  rw [BitOps.mask, hto]

theorem mask_inj {i j : ℕ} (hi : i < 24) (hj : j < 24)
    (h : BitOps.mask (BitVec.ofNat 8 i) = BitOps.mask (BitVec.ofNat 8 j)) : i = j := by
  have hbit := congrArg (fun v => v.getLsbD i) h
  simpa [getLsbD_mask (show i < 32 by omega), getLsbD_mask (show j < 32 by omega)] using hbit

theorem Ordered.event {s : AsyncTaskScheduler} (hs : Ordered s) {i : ℕ} {n : Node} (hn : s.nodes[i]? = some n) :
    i < 24 ∧ n.event = BitOps.mask (BitVec.ofNat 8 i) := by
  have hi : i < s.nodes.length := (List.getElem?_eq_some_iff.1 hn).1
  have hget : (s.nodes.map Node.event)[i]? = some n.event := by rw [List.getElem?_map, hn, Option.map_some]
  rw [hs.events, List.getElem?_map, List.getElem?_range hi, Option.map_some, Option.some.injEq] at hget
  exact ⟨hi.trans_le hs.length_le, hget.symm⟩

theorem Ordered.allocated {s : AsyncTaskScheduler} (hs : Ordered s) : Allocated s where
  single n hn := by
    obtain ⟨i, hi⟩ := List.mem_iff_getElem?.1 hn
    obtain ⟨hlt, he⟩ := hs.event hi
    exact ⟨i, hlt, he.trans (mask_eq_shift hlt)⟩
  distinct := by
    rw [hs.events]
    refine List.nodup_range.map_on fun i hi j hj h => ?_
    rw [List.mem_range] at hi hj
    exact mask_inj (hi.trans_le hs.length_le) (hj.trans_le hs.length_le) h
  union := hs.union

theorem new_ordered : Ordered new := ⟨Nat.zero_le _, rfl, rfl⟩

theorem getLsbD_union (n : ℕ) (hn : n ≤ 24) (i : ℕ) :
    (((List.range n).map fun k => BitOps.mask (BitVec.ofNat 8 k)).foldl (· ||| ·) (0 : EventBits)).getLsbD i =
      decide (i < n) := by
  induction n with
  | zero => simp
  | succ n ih =>
    rw [List.range_succ, List.map_append, List.foldl_append, List.map_singleton, List.foldl_cons, List.foldl_nil,
      BitVec.getLsbD_or, ih (by omega), getLsbD_mask (show n < 32 by omega), ← Bool.decide_or]
    exact decide_eq_decide.2 (by omega)

theorem Ordered.bitsAll {s : AsyncTaskScheduler} (hs : Ordered s) (i : ℕ) :
    s.bitsAll.getLsbD i = decide (i < s.nodes.length) := by
  rw [hs.union, hs.events]
  exact getLsbD_union _ hs.length_le i

/-- an `add` leaves the scheduler or appends a node with the next bit -/
theorem add_cases (s : AsyncTaskScheduler) (id : String) :
    (s.add id).2 = s ∨ (s.nodes.length ≠ maxCount ∧
      (s.add id).2 = ⟨s.nodes ++ [⟨id, BitOps.mask (BitVec.ofNat 8 s.nodes.length)⟩],
        s.bitsAll ||| BitOps.mask (BitVec.ofNat 8 s.nodes.length)⟩) := by
  unfold add
  split_ifs with hfull
  · exact .inl rfl
  · exact .inl rfl
  · exact .inr ⟨hfull, rfl⟩

theorem add_ordered {s : AsyncTaskScheduler} (hs : Ordered s) (id : String) : Ordered (s.add id).2 := by
  rcases add_cases s id with h | ⟨hfull, h⟩
  · rw [h]
    exact hs
  · rw [h]
    have hlen := hs.length_le
    refine ⟨?_, ?_, ?_⟩
    · rw [List.length_append, List.length_singleton]
      omega
    · rw [List.map_append, List.length_append, List.length_singleton, List.range_succ, List.map_append, hs.events]
      rfl
    · rw [List.map_append, List.foldl_append, ← hs.union]
      rfl

theorem add_length_le (s : AsyncTaskScheduler) (id : String) : s.nodes.length ≤ (s.add id).2.nodes.length := by
  rcases add_cases s id with h | ⟨_, h⟩
  · rw [h]
  · rw [h, List.length_append]
    exact Nat.le_add_right _ _

/-! ## The tasks that are due -/

/-- the timer of the task has fired since the last run that collected its bit -/
def due (log : List Entry) (task : ℕ) : Bool :=
  log.foldl (fun due e =>
    match e with
    | .fired i => due || decide (i = task)
    | .collected bits => due && !bits.getLsbD task) false

theorem due_fired (log : List Entry) (i task : ℕ) :
    due (log ++ [.fired i]) task = (due log task || decide (i = task)) := by
  rw [due, List.foldl_append]
  rfl

theorem due_collected (log : List Entry) (bits : EventBits) (task : ℕ) :
    due (log ++ [.collected bits]) task = (due log task && !bits.getLsbD task) := by
  rw [due, List.foldl_append]
  rfl

/-- the tasks among the first `count` ones that are due -/
def dueTasks (log : List Entry) (count : ℕ) : List ℕ := (List.range count).filter (due log)

theorem dueTasks_succ (log : List Entry) (count : ℕ) :
    dueTasks log (count + 1) = dueTasks log count ++ if due log count then [count] else [] := by
  rw [dueTasks, List.range_succ, List.filter_append, List.filter_singleton, Bool.cond_eq_ite]
  rfl

/-- tasks that are added later are not due -/
theorem dueTasks_eq_of_le {log : List Entry} {m n : ℕ} (hlog : ∀ i, due log i = true → i < m) (hmn : m ≤ n) :
    dueTasks log n = dueTasks log m := by
  induction n, hmn using Nat.le_induction with
  | base => rfl
  | succ n hmn ih =>
    have hn : ¬ due log n = true := fun h => absurd (hlog n h) (by omega)
    rw [dueTasks_succ, if_neg hn, List.append_nil, ih]

/-! ## Runs -/

/-- what a run has executed so far is what was due of the nodes it has passed -/
structure RunInv (count : ℕ) (r : Run) : Prop where
  next_le : r.next ≤ count
  bits : ∀ i, r.bits.getLsbD i = due r.before i
  known : ∀ i, due r.before i = true → i < count
  executed : r.executed.map Prod.fst = dueTasks r.before r.next

structure Inv (d : Device) : Prop where
  ordered : Ordered d.scheduler
  group : ∀ i, d.group.getLsbD i = due d.log i
  known : ∀ i, due d.log i = true → i < d.scheduler.nodes.length
  current : ∀ r ∈ d.current, RunInv d.scheduler.nodes.length r
  done : ∀ r ∈ d.done, RunInv d.scheduler.nodes.length r ∧
    r.executed.map Prod.fst = dueTasks r.before d.scheduler.nodes.length

theorem start_inv : Inv .start where
  ordered := new_ordered
  group i := by simp [Device.start, due]
  known i h := by cases h
  current r hr := by cases hr
  done r hr := by cases hr

theorem RunInv.mono {count count' : ℕ} {r : Run} (hr : RunInv count r) (hle : count ≤ count') : RunInv count' r :=
  ⟨hr.next_le.trans hle, hr.bits, fun i h => (hr.known i h).trans_le hle, hr.executed⟩

theorem add_inv {d : Device} (hd : Inv d) (id : String) : Inv { d with scheduler := (d.scheduler.add id).2 } := by
  have hle := add_length_le d.scheduler id
  refine ⟨add_ordered hd.ordered id, hd.group, ?_, ?_, ?_⟩
  · intro i hi
    exact (hd.known i hi).trans_le hle
  · intro r hr
    exact (hd.current r hr).mono hle
  · intro r hr
    obtain ⟨hrun, hexec⟩ := hd.done r hr
    exact ⟨hrun.mono hle, hexec.trans (dueTasks_eq_of_le hrun.known hle).symm⟩

theorem fire_inv {d : Device} (hd : Inv d) {task : ℕ} {node : Node} (hn : d.scheduler.nodes[task]? = some node) :
    Inv { d with group := setBits d.group node.event, log := d.log ++ [.fired task] } := by
  obtain ⟨hlt, he⟩ := hd.ordered.event hn
  have hlen : task < d.scheduler.nodes.length := (List.getElem?_eq_some_iff.1 hn).1
  refine ⟨hd.ordered, ?_, ?_, hd.current, hd.done⟩
  · intro i
    show (setBits d.group node.event).getLsbD i = due (d.log ++ [.fired task]) i
    rw [setBits, BitVec.getLsbD_or, he, getLsbD_mask (show task < 32 by omega), hd.group, due_fired]
    exact congrArg _ (decide_eq_decide.2 eq_comm)
  · intro i hi
    show i < d.scheduler.nodes.length
    rw [due_fired, Bool.or_eq_true, decide_eq_true_eq] at hi
    rcases hi with hi | rfl
    · exact hd.known i hi
    · exact hlen

/-- a wait that returns collects every bit that is set and leaves none -/
theorem waitBits_eq {d : Device} (hd : Inv d) {bits group : EventBits}
    (h : waitBits d.group d.scheduler.bitsAll = some (bits, group)) : bits = d.group ∧ group = 0 := by
  have hset (i : ℕ) (hi : d.group.getLsbD i = true) : d.scheduler.bitsAll.getLsbD i = true := by
    rw [hd.ordered.bitsAll, decide_eq_true_eq]
    exact hd.known i (hd.group i ▸ hi)
  have hand : d.group &&& d.scheduler.bitsAll = d.group := by
    apply BitVec.eq_of_getLsbD_eq
    intro i _
    rw [BitVec.getLsbD_and]
    cases hi : d.group.getLsbD i with
    | false => rfl
    | true => rw [hset i hi, Bool.and_true]
  unfold waitBits at h
  split_ifs at h with hnone hempty
  · obtain ⟨rfl, rfl⟩ := Prod.mk.inj (Option.some.inj h)
    refine ⟨rfl, ?_⟩
    calc d.group
        = d.group &&& d.scheduler.bitsAll := hand.symm
      _ = 0 := hempty
  · obtain ⟨rfl, rfl⟩ := Prod.mk.inj (Option.some.inj h)
    refine ⟨rfl, ?_⟩
    calc d.group &&& ~~~d.scheduler.bitsAll
        = d.group &&& d.scheduler.bitsAll &&& ~~~d.scheduler.bitsAll := by rw [hand]
      _ = d.group &&& (d.scheduler.bitsAll &&& ~~~d.scheduler.bitsAll) := BitVec.and_assoc _ _ _
      _ = d.group &&& 0 := by rw [BitVec.and_not_self]
      _ = 0 := BitVec.and_zero

theorem collect_inv {d : Device} (hd : Inv d) :
    Inv { d with group := 0, current := some ⟨d.log, d.group, 0, []⟩, log := d.log ++ [.collected d.group] } := by
  have hdue (i : ℕ) : due (d.log ++ [.collected d.group]) i = false := by
    rw [due_collected, hd.group, Bool.and_not_self]
  refine ⟨hd.ordered, ?_, ?_, ?_, hd.done⟩
  · intro i
    exact (BitVec.getLsbD_zero).trans (hdue i).symm
  · intro i hi
    exact absurd ((hdue i).symm.trans hi) (by decide)
  · intro r hr
    obtain rfl := Option.some.inj hr
    exact ⟨Nat.zero_le _, hd.group, hd.known, rfl⟩

/-- a turn of the loop executes its task if it was due -/
theorem visit_inv {d : Device} (hd : Inv d) {r : Run} (hr : RunInv d.scheduler.nodes.length r) {node : Node}
    (hn : d.scheduler.nodes[r.next]? = some node) (result : StatusCode) :
    RunInv d.scheduler.nodes.length (r.visit node result) := by
  obtain ⟨hlt, he⟩ := hd.ordered.event hn
  have hbit : r.bits &&& node.event ≠ 0 ↔ due r.before r.next = true := by
    rw [he, BitVec.and_comm, ← hr.bits]
    exact mask_and_ne_zero _ (by omega)
  refine ⟨(List.getElem?_eq_some_iff.1 hn).1, hr.bits, hr.known, ?_⟩
  show List.map Prod.fst (if r.bits &&& node.event ≠ 0 then _ else _) = dueTasks r.before (r.next + 1)
  rw [dueTasks_succ]
  by_cases hdue : due r.before r.next = true
  · rw [if_pos (hbit.2 hdue), if_pos hdue, List.map_append, hr.executed]
    rfl
  · rw [if_neg (mt hbit.1 hdue), if_neg hdue, List.append_nil, hr.executed]

theorem step_inv (d : Device) (e : Event) (d' : Device) (hd : Inv d) (h : step d e = some d') : Inv d' := by
  cases e with
  | add id =>
    simp only [step] at h
    split_ifs at h
    exact Option.some.inj h ▸ add_inv hd id
  | fire task =>
    obtain ⟨node, hn, rfl⟩ := Option.map_eq_some_iff.1 h
    exact fire_inv hd hn
  | collect =>
    simp only [step] at h
    split_ifs at h
    obtain ⟨⟨bits, group⟩, hwait, rfl⟩ := Option.map_eq_some_iff.1 h
    obtain ⟨rfl, rfl⟩ := waitBits_eq hd hwait
    exact collect_inv hd
  | visit result =>
    obtain ⟨r, hr, rfl⟩ := Option.map_eq_some_iff.1 h
    have hrun := hd.current r hr
    split
    · rename_i node hn
      refine ⟨hd.ordered, hd.group, hd.known, ?_, hd.done⟩
      intro r' hr'
      obtain rfl := Option.some.inj hr'
      exact visit_inv hd hrun hn result
    · rename_i hn
      have hnone : ∀ r' ∈ (none : Option Run), RunInv d.scheduler.nodes.length r' := by
        intro r' hr'
        cases hr'
      refine ⟨hd.ordered, hd.group, hd.known, hnone, ?_⟩
      intro r' hr'
      rw [List.mem_append, List.mem_singleton] at hr'
      rcases hr' with hr' | rfl
      · exact hd.done r' hr'
      · have hnext : r'.next = d.scheduler.nodes.length := hrun.next_le.antisymm (List.getElem?_eq_none_iff.1 hn)
        refine ⟨hrun, ?_⟩
        show r'.executed.map Prod.fst = dueTasks r'.before d.scheduler.nodes.length
        rw [hrun.executed, hnext]

/-- two tasks; the second one fires twice before the run and the first one fires during it -/
def exampleEvents : List Event :=
  [.add "blink" , .add "probe", .fire 1, .fire 1, .collect, .fire 0, .visit .ok, .visit .error, .visit .ok,
    .collect, .visit .error, .visit .ok, .visit .ok]

end AsyncTaskScheduler

end ControlComponents.Scheduler
