/-
`Future::wait` and `Future::notify` (`ocs_core`) step by step: tasks that wait, one task that notifies, and the mutex of the
future.

A task that waits enters the queue under the mutex, gives the mutex back and only then blocks, so the notifying task may
come between any two of these steps. Notifications from elsewhere may come at any time, and a wait whose time is over leaves
its entry in the queue. The mutex of the condition variable is taken only under the mutex of the future.

- `step_refines`: the steps are those of `Future`, the operations under the mutex.
- `Inv`: a task that has entered the queue and is not notified is in the queue; nobody enters it once the code is stored.
- `no_lost_wakeup`: a wait is successful only after the code has been stored, and after `notify` every task that is still
  blocked has a notification.
-/
import ControlComponents.Core.Cond
import ControlComponents.Core.Future

namespace ControlComponents.Core.FutureWait

open ControlComponents.Lib.Runs

/-! ## Model -/

/-- where a task is in `Future::wait` -/
inductive Place where
  | outside
  | locking
  /-- at the test of the loop -/
  | testing
  /-- in `Cond::wait`, before `append_task_` -/
  | appending
  | unlocking
  /-- in `ulTaskNotifyTake` -/
  | taking
  | relocking (notified : Bool)
  | returning (code : StatusCode)
deriving DecidableEq

/-- where the notifying task is in `Future::notify` -/
inductive Notifier where
  | outside
  | locking
  | storing
  | broadcasting
  | done
deriving DecidableEq

/-- who holds the mutex of the future -/
inductive Owner (τ : Type) where
  | free
  | task (t : τ)
  | notifier
deriving DecidableEq

structure World (τ : Type) where
  code : StatusCode
  cond : Cond τ
  owner : Owner τ
  place : τ → Place
  notifier : Notifier
  /-- the notification values -/
  value : τ → ℕ
  /-- what calls of `wait` have returned -/
  returned : List (τ × StatusCode)

inductive Event (τ : Type) where
  /-- the next step of a task in `wait`, from its call on -/
  | advance (t : τ)
  /-- the time of `ulTaskNotifyTake` is over -/
  | expire (t : τ)
  /-- a notification from elsewhere -/
  | give (t : τ)
  /-- the next step of the notifying task -/
  | notify

variable {τ : Type} [DecidableEq τ]

def World.start : World τ := ⟨.last, ⟨[]⟩, .free, fun _ => .outside, .outside, fun _ => 0, []⟩

def World.move (w : World τ) (t : τ) (place : Place) : World τ :=
  { w with place := Function.update w.place t place }

def advance (w : World τ) (t : τ) : Option (World τ) :=
  match w.place t with
  | .outside => some (w.move t .locking)
  | .locking => if w.owner = .free then some ({ w with owner := .task t }.move t .testing) else none
  | .testing => some (w.move t (if w.code = .last then .appending else .returning .ok))
  | .appending => some ({ w with cond := w.cond.appendTask t }.move t .unlocking)
  | .unlocking => some ({ w with owner := .free }.move t .taking)
  | .taking =>
    if w.value t = 0 then none
    else some ({ w with value := Function.update w.value t 0 }.move t (.relocking true))
  | .relocking notified =>
    if w.owner = .free then
      some ({ w with owner := .task t }.move t (if notified then .testing else .returning .error))
    else none
  | .returning code => some ({ w with owner := .free, returned := w.returned ++ [(t, code)] }.move t .outside)

/-- `code` is what the future is notified with -/
def notify (code : StatusCode) (w : World τ) : Option (World τ) :=
  match w.notifier with
  | .outside => some { w with notifier := .locking }
  | .locking => if w.owner = .free then some { w with owner := .notifier, notifier := .storing } else none
  | .storing => some { w with code, notifier := .broadcasting }
  | .broadcasting =>
    if w.cond.tasks = [] then some { w with owner := .free, notifier := .done }
    else
      let (value, cond) := w.cond.signal w.value
      some { w with value, cond }
  | .done => none

def step (code : StatusCode) (w : World τ) : Event τ → Option (World τ)
  | .advance t => advance w t
  | .expire t => if w.place t = .taking ∧ w.value t = 0 then some (w.move t (.relocking false)) else none
  | .give t => some { w with value := notifyGive w.value t }
  | .notify => notify code w

/-- `Future::code`, once the mutex is free -/
def World.readCode (w : World τ) : Option StatusCode := if w.owner = .free then some w.code else none

/-! ## The operations under the mutex -/

/-- the future; the tasks that the broadcast has not reached yet have left the queue for it -/
def World.future (w : World τ) : Future τ :=
  ⟨w.code, if w.notifier = .broadcasting then [] else w.cond.tasks⟩

/-! ## The invariant -/

/-- the task holds the mutex -/
def Place.holds : Place → Bool
  | .testing => true
  | .appending => true
  | .unlocking => true
  | .returning _ => true
  | _ => false

/-- the task has found no code and holds the mutex to enter the queue -/
def Place.queueing : Place → Bool
  | .appending => true
  | .unlocking => true
  | _ => false

/-- the task has entered the queue -/
def Place.queued : Place → Bool
  | .unlocking => true
  | .taking => true
  | _ => false

def Notifier.holds : Notifier → Bool
  | .storing => true
  | .broadcasting => true
  | _ => false

/-- the code has been stored -/
def Notifier.stored : Notifier → Bool
  | .broadcasting => true
  | .done => true
  | _ => false

theorem Place.holds_of_queueing {p : Place} (h : p.queueing = true) : p.holds = true := by
  cases p with
  | appending => rfl
  | unlocking => rfl
  | _ => cases h

structure TaskInv (w : World τ) (t : τ) : Prop where
  owner : w.owner = .task t ↔ (w.place t).holds = true
  queueing : (w.place t).queueing = true → w.notifier.stored = false
  queued : (w.place t).queued = true → w.value t = 0 → t ∈ w.cond.tasks
  returning : w.place t = .returning .ok → w.notifier.stored = true

structure Inv (code : StatusCode) (w : World τ) : Prop where
  task : ∀ t, TaskInv w t
  owner : w.owner = .notifier ↔ w.notifier.holds = true
  code : w.code = if w.notifier.stored = true then code else .last
  done : w.notifier = .done → w.cond.tasks = []
  returned : ∀ p ∈ w.returned, p.2 = .ok → w.notifier.stored = true

omit [DecidableEq τ] in
theorem start_inv (code : StatusCode) : Inv code (.start : World τ) where
  task t := by
    refine ⟨?_, ?_, ?_, ?_⟩
    · simp [World.start, Place.holds]
    · intro h
      cases h
    · intro h
      cases h
    · intro h
      cases h
  owner := by simp [World.start, Notifier.holds]
  code := rfl
  done h := by cases h
  returned p hp := by cases hp

omit [DecidableEq τ] in
theorem TaskInv.owner_of_holds {w : World τ} {t : τ} (h : TaskInv w t) {place : Place} (hplace : w.place t = place)
    (hholds : place.holds = true) : w.owner = .task t := by
  rw [h.owner, hplace]
  exact hholds

omit [DecidableEq τ] in
theorem TaskInv.not_owner {w : World τ} {t : τ} (h : TaskInv w t) {place : Place} (hplace : w.place t = place)
    (hholds : place.holds = false) : ¬ w.owner = .task t := by
  rw [h.owner, hplace, hholds]
  exact Bool.false_ne_true

omit [DecidableEq τ] in
/-- no code is stored while a task enters the queue -/
theorem TaskInv.not_stored {w : World τ} {t : τ} (h : TaskInv w t) (hplace : w.place t = .appending) :
    w.notifier.stored = false := by
  apply h.queueing
  rw [hplace]
  rfl

omit [DecidableEq τ] in
/-- what a step keeps of a task that does not move -/
theorem TaskInv.frame {w w' : World τ} {t : τ} (h : TaskInv w t) (hplace : w'.place t = w.place t)
    (howner : w'.owner = .task t ↔ w.owner = .task t) (hnotifier : w'.notifier.stored = w.notifier.stored)
    (hqueue : w'.value t = 0 → w.value t = 0 ∧ (t ∈ w.cond.tasks → t ∈ w'.cond.tasks)) : TaskInv w' t := by
  refine ⟨?_, ?_, ?_, ?_⟩
  · rw [howner, hplace]
    exact h.owner
  · rw [hplace, hnotifier]
    exact h.queueing
  · rw [hplace]
    intro hq hzero
    obtain ⟨hzero, hmem⟩ := hqueue hzero
    exact hmem (h.queued hq hzero)
  · rw [hplace, hnotifier]
    exact h.returning

/-- a step of a task: the facts about the task itself, and about what the others see -/
theorem move_inv {code : StatusCode} {w : World τ} (hw : Inv code w) (w' : World τ) (t : τ) (place : Place)
    (ht : TaskInv (w'.move t place) t)
    (hplace : w'.place = w.place) (hcode : w'.code = w.code) (hnotifier : w'.notifier = w.notifier)
    (howner : w'.owner = w.owner ∨ (w.owner = .free ∧ w'.owner = .task t) ∨ (w.owner = .task t ∧ w'.owner = .free))
    (hvalue : ∀ u, u ≠ t → w'.value u = w.value u) (htasks : ∀ u ∈ w.cond.tasks, u ∈ w'.cond.tasks)
    (hdone : w.notifier = .done → w'.cond.tasks = w.cond.tasks)
    (hreturned : ∀ p ∈ w'.returned, p.2 = .ok → w.notifier.stored = true) : Inv code (w'.move t place) := by
  refine ⟨?_, ?_, ?_, ?_, ?_⟩
  · intro u
    by_cases hu : u = t
    · exact hu ▸ ht
    · refine (hw.task u).frame ?_ ?_ ?_ ?_
      · exact (Function.update_of_ne hu _ _).trans (congrFun hplace u)
      · show w'.owner = .task u ↔ w.owner = .task u
        rcases howner with h | ⟨hfree, h⟩ | ⟨htask, h⟩
        · rw [h]
        · simp [h, hfree, Ne.symm hu]
        · simp [h, htask, Ne.symm hu]
      · exact congrArg Notifier.stored hnotifier
      · intro hzero
        exact ⟨(hvalue u hu).symm.trans hzero, htasks u⟩
  · show w'.owner = .notifier ↔ w'.notifier.holds = true
    rw [hnotifier, ← hw.owner]
    rcases howner with h | ⟨hfree, h⟩ | ⟨htask, h⟩
    · rw [h]
    · simp [h, hfree]
    · simp [h, htask]
  · show w'.code = if w'.notifier.stored = true then code else .last
    rw [hcode, hnotifier]
    exact hw.code
  · intro hdone'
    have hdone' : w.notifier = .done := hnotifier ▸ hdone'
    exact (hdone hdone').trans (hw.done hdone')
  · intro p hp hok
    have hstored := hreturned p hp hok
    rw [← hnotifier] at hstored
    exact hstored

/-- the facts about a task that moves -/
theorem TaskInv.move {w : World τ} {t : τ} {place : Place} (howner : w.owner = .task t ↔ place.holds = true)
    (hqueueing : place.queueing = true → w.notifier.stored = false)
    (hqueued : place.queued = true → w.value t = 0 → t ∈ w.cond.tasks)
    (hreturning : place = .returning .ok → w.notifier.stored = true) : TaskInv (w.move t place) t := by
  have hplace : (w.move t place).place t = place := Function.update_self _ _ _
  refine ⟨?_, ?_, ?_, ?_⟩
  · rw [hplace]
    exact howner
  · rw [hplace]
    exact hqueueing
  · rw [hplace]
    exact hqueued
  · rw [hplace]
    exact hreturning

/-! ## Steps of a task -/

/-- a task outside the mutex goes on without it -/
theorem move_outside_inv {code : StatusCode} {w : World τ} (hw : Inv code w) {t : τ} {place : Place}
    (hfrom : (w.place t).holds = false) (hto : place = .locking ∨ ∃ notified, place = .relocking notified) :
    Inv code (w.move t place) := by
  have howner : ¬ w.owner = .task t := (hw.task t).not_owner rfl hfrom
  have hholds : place.holds = false ∧ place.queueing = false ∧ place.queued = false ∧ place ≠ .returning .ok := by
    rcases hto with rfl | ⟨notified, rfl⟩
    · decide
    · exact ⟨rfl, rfl, rfl, by simp⟩
  obtain ⟨hholds, hqueueing, hqueued, hreturning⟩ := hholds
  refine move_inv hw w t place ?_ rfl rfl rfl (.inl rfl) (fun _ _ => rfl) (fun _ hu => hu) (fun _ => rfl) hw.returned
  refine TaskInv.move ?_ ?_ ?_ ?_
  · simp [howner, hholds]
  · simp [hqueueing]
  · simp [hqueued]
  · exact fun h => absurd h hreturning

/-- a task that has not got the mutex takes it -/
theorem lock_inv {code : StatusCode} {w : World τ} (hw : Inv code w) {t : τ} {place : Place} (hfree : w.owner = .free)
    (hto : place = .testing ∨ place = .returning .error) :
    Inv code ({ w with owner := .task t }.move t place) := by
  have hholds : place.holds = true ∧ place.queueing = false ∧ place.queued = false ∧ place ≠ .returning .ok := by
    rcases hto with rfl | rfl
    · decide
    · decide
  obtain ⟨hholds, hqueueing, hqueued, hreturning⟩ := hholds
  refine move_inv hw { w with owner := .task t } t place ?_ rfl rfl rfl (.inr (.inl ⟨hfree, rfl⟩))
    (fun _ _ => rfl) (fun _ hu => hu) (fun _ => rfl) hw.returned
  refine TaskInv.move ?_ ?_ ?_ ?_
  · exact iff_of_true rfl hholds
  · simp [hqueueing]
  · simp [hqueued]
  · exact fun h => absurd h hreturning

/-- the loop goes on exactly when no code has been stored -/
theorem test_inv {code : StatusCode} {w : World τ} (hw : Inv code w) (hcode : code ≠ .last) {t : τ}
    (hplace : w.place t = .testing) :
    Inv code (w.move t (if w.code = .last then .appending else .returning .ok)) := by
  have howner : w.owner = .task t := (hw.task t).owner_of_holds hplace rfl
  have hstored : w.code = .last ↔ w.notifier.stored = false := by
    rw [hw.code]
    cases w.notifier.stored with
    | false => simp
    | true => simp [hcode]
  refine move_inv hw w t _ ?_ rfl rfl rfl (.inl rfl) (fun _ _ => rfl) (fun _ hu => hu) (fun _ => rfl) hw.returned
  by_cases hlast : w.code = .last
  · rw [if_pos hlast]
    refine TaskInv.move ?_ ?_ ?_ ?_
    · simp [howner, Place.holds]
    · exact fun _ => hstored.1 hlast
    · simp [Place.queued]
    · simp
  · rw [if_neg hlast]
    refine TaskInv.move ?_ ?_ ?_ ?_
    · simp [howner, Place.holds]
    · simp [Place.queueing]
    · simp [Place.queued]
    · intro _
      rw [hstored, Bool.not_eq_false] at hlast
      exact hlast

theorem append_inv {code : StatusCode} {w : World τ} (hw : Inv code w) {t : τ} (hplace : w.place t = .appending) :
    Inv code ({ w with cond := w.cond.appendTask t }.move t .unlocking) := by
  have howner : w.owner = .task t := (hw.task t).owner_of_holds hplace rfl
  have hstored : w.notifier.stored = false := (hw.task t).not_stored hplace
  refine move_inv hw { w with cond := w.cond.appendTask t } t .unlocking ?_ rfl rfl rfl (.inl rfl)
    (fun _ _ => rfl) ?_ ?_ hw.returned
  · refine TaskInv.move ?_ ?_ ?_ ?_
    · simp [howner, Place.holds]
    · exact fun _ => hstored
    · exact fun _ _ => List.mem_append_right _ (List.mem_singleton_self t)
    · simp
  · exact fun u hu => List.mem_append_left _ hu
  · intro hdone
    rw [hdone] at hstored
    cases hstored

/-- a task that has entered the queue gives the mutex back and is still in the queue or notified -/
theorem unlock_inv {code : StatusCode} {w : World τ} (hw : Inv code w) {t : τ} (hplace : w.place t = .unlocking) :
    Inv code ({ w with owner := .free }.move t .taking) := by
  have howner : w.owner = .task t := (hw.task t).owner_of_holds hplace rfl
  refine move_inv hw { w with owner := .free } t .taking ?_ rfl rfl rfl (.inr (.inr ⟨howner, rfl⟩))
    (fun _ _ => rfl) (fun _ hu => hu) (fun _ => rfl) hw.returned
  refine TaskInv.move ?_ ?_ ?_ ?_
  · simp [Place.holds]
  · simp [Place.queueing]
  · intro _
    apply (hw.task t).queued
    rw [hplace]
    rfl
  · simp

/-- taking the notification of a task that is blocked -/
theorem take_inv {code : StatusCode} {w : World τ} (hw : Inv code w) {t : τ} (hplace : w.place t = .taking) :
    Inv code ({ w with value := Function.update w.value t 0 }.move t (.relocking true)) := by
  have howner : ¬ w.owner = .task t := (hw.task t).not_owner hplace rfl
  refine move_inv hw { w with value := Function.update w.value t 0 } t _ ?_ rfl rfl rfl (.inl rfl)
    (fun u hu => Function.update_of_ne hu _ _) (fun _ hu => hu) (fun _ => rfl) hw.returned
  refine TaskInv.move ?_ ?_ ?_ ?_
  · simp [howner, Place.holds]
  · simp [Place.queueing]
  · simp [Place.queued]
  · simp

theorem return_inv {code : StatusCode} {w : World τ} (hw : Inv code w) {t : τ} {result : StatusCode}
    (hplace : w.place t = .returning result) :
    Inv code ({ w with owner := .free, returned := w.returned ++ [(t, result)] }.move t .outside) := by
  have howner : w.owner = .task t := (hw.task t).owner_of_holds hplace rfl
  refine move_inv hw { w with owner := .free, returned := w.returned ++ [(t, result)] } t .outside ?_ rfl rfl rfl
    (.inr (.inr ⟨howner, rfl⟩)) (fun _ _ => rfl) (fun _ hu => hu) (fun _ => rfl) ?_
  · refine TaskInv.move ?_ ?_ ?_ ?_
    · simp [Place.holds]
    · simp [Place.queueing]
    · simp [Place.queued]
    · simp
  · intro p hp hok
    rcases List.mem_append.1 hp with hp | hp
    · exact hw.returned p hp hok
    · obtain rfl := List.mem_singleton.1 hp
      exact (hw.task t).returning (hok ▸ hplace)

theorem advance_inv {code : StatusCode} {w w' : World τ} (hw : Inv code w) (hcode : code ≠ .last) {t : τ}
    (h : advance w t = some w') : Inv code w' := by
  unfold advance at h
  split at h
  · rename_i hplace
    refine Option.some.inj h ▸ move_outside_inv hw ?_ (.inl rfl)
    rw [hplace]
    rfl
  · split_ifs at h with hfree
    exact Option.some.inj h ▸ lock_inv hw hfree (.inl rfl)
  · rename_i hplace
    exact Option.some.inj h ▸ test_inv hw hcode hplace
  · rename_i hplace
    exact Option.some.inj h ▸ append_inv hw hplace
  · rename_i hplace
    exact Option.some.inj h ▸ unlock_inv hw hplace
  · rename_i hplace
    split_ifs at h
    exact Option.some.inj h ▸ take_inv hw hplace
  · rename_i notified hplace
    split_ifs at h with hfree hnotified
    · exact Option.some.inj h ▸ lock_inv hw hfree (.inl rfl)
    · exact Option.some.inj h ▸ lock_inv hw hfree (.inr rfl)
  · rename_i result hplace
    exact Option.some.inj h ▸ return_inv hw hplace

/-! ## Steps of the notifying task -/

omit [DecidableEq τ] in
/-- a step of the notifying task that neither stores the code nor notifies anybody -/
theorem notifier_inv {code : StatusCode} {w : World τ} (hw : Inv code w) (owner : Owner τ) (notifier : Notifier)
    (howner : owner = .notifier ↔ notifier.holds = true) (htasks : ∀ t, owner = .task t ↔ w.owner = .task t)
    (hstored : notifier.stored = w.notifier.stored) (hdone : notifier = .done → w.cond.tasks = []) :
    Inv code { w with owner, notifier } := by
  refine ⟨fun t => ?_, howner, ?_, hdone, ?_⟩
  · exact (hw.task t).frame rfl (htasks t) hstored fun hzero => ⟨hzero, id⟩
  · show w.code = if notifier.stored = true then code else .last
    rw [hstored]
    exact hw.code
  · intro p hp hok
    exact hstored.trans (hw.returned p hp hok)

omit [DecidableEq τ] in
/-- the notifying task has the mutex, so no task is entering the queue -/
theorem store_inv {code : StatusCode} {w : World τ} (hw : Inv code w) (hnotifier : w.notifier = .storing) :
    Inv code { w with code, notifier := .broadcasting } := by
  have howner : w.owner = .notifier := by
    rw [hw.owner, hnotifier]
    rfl
  have hholds (t : τ) : ¬ (w.place t).holds = true := by
    rw [← (hw.task t).owner, howner]
    simp
  refine ⟨?_, ?_, rfl, ?_, ?_⟩
  · intro t
    refine ⟨(hw.task t).owner, ?_, (hw.task t).queued, fun _ => rfl⟩
    exact fun hq => absurd (Place.holds_of_queueing hq) (hholds t)
  · exact iff_of_true howner rfl
  · intro hdone
    cases hdone
  · exact fun _ _ _ => rfl

/-- the task that leaves the queue is notified -/
theorem pop_inv {code : StatusCode} {w : World τ} (hw : Inv code w) (hnotifier : w.notifier = .broadcasting) :
    Inv code { w with value := (w.cond.signal w.value).1, cond := (w.cond.signal w.value).2 } := by
  refine ⟨?_, hw.owner, hw.code, ?_, hw.returned⟩
  · intro t
    refine (hw.task t).frame rfl Iff.rfl rfl ?_
    show (w.cond.signal w.value).1 t = 0 →
      w.value t = 0 ∧ (t ∈ w.cond.tasks → t ∈ (w.cond.signal w.value).2.tasks)
    unfold Cond.signal
    cases htasks : w.cond.tasks with
    | nil => exact fun hzero => ⟨hzero, fun hmem => by cases hmem⟩
    | cons first tasks =>
      intro hzero
      have hne : t ≠ first := by
        intro heq
        subst heq
        simp only [Cond.notifyGive_self] at hzero
        cases hzero
      simp only [Cond.notifyGive_of_ne _ hne] at hzero
      exact ⟨hzero, fun hmem => (List.mem_cons.1 hmem).resolve_left hne⟩
  · intro hdone
    rw [hnotifier] at hdone
    cases hdone

theorem notify_inv {code : StatusCode} {w w' : World τ} (hw : Inv code w) (h : notify code w = some w') :
    Inv code w' := by
  unfold notify at h
  split at h
  · rename_i hnotifier
    refine Option.some.inj h ▸ notifier_inv hw w.owner .locking ?_ (fun _ => Iff.rfl) ?_ fun hdone => ?_
    · rw [hw.owner, hnotifier]
      rfl
    · rw [hnotifier]
      rfl
    · cases hdone
  · rename_i hnotifier
    split_ifs at h with hfree
    refine Option.some.inj h ▸ notifier_inv hw .notifier .storing (iff_of_true rfl rfl) ?_ ?_ fun hdone => ?_
    · simp [hfree]
    · rw [hnotifier]
      rfl
    · cases hdone
  · rename_i hnotifier
    exact Option.some.inj h ▸ store_inv hw hnotifier
  · rename_i hnotifier
    split_ifs at h with htasks
    · have howner : w.owner = .notifier := by
        rw [hw.owner, hnotifier]
        rfl
      refine Option.some.inj h ▸ notifier_inv hw .free .done ?_ ?_ ?_ fun _ => htasks
      · simp [Notifier.holds]
      · simp [howner]
      · rw [hnotifier]
        rfl
    · exact Option.some.inj h ▸ pop_inv hw hnotifier
  · cases h

theorem give_inv {code : StatusCode} {w : World τ} (hw : Inv code w) (t : τ) :
    Inv code { w with value := notifyGive w.value t } := by
  refine ⟨fun u => ?_, hw.owner, hw.code, hw.done, hw.returned⟩
  refine (hw.task u).frame rfl Iff.rfl rfl fun hzero => ⟨?_, id⟩
  have hzero : notifyGive w.value t u = 0 := hzero
  by_cases hu : u = t
  · rw [hu, Cond.notifyGive_self] at hzero
    cases hzero
  · rw [Cond.notifyGive_of_ne _ hu] at hzero
    exact hzero

theorem step_inv {code : StatusCode} (hcode : code ≠ .last) (w : World τ) (e : Event τ) (w' : World τ)
    (hw : Inv code w) (h : step code w e = some w') : Inv code w' := by
  cases e with
  | advance t => exact advance_inv hw hcode h
  | expire t =>
    simp only [step] at h
    split_ifs at h with hplace
    refine Option.some.inj h ▸ move_outside_inv hw ?_ (.inr ⟨false, rfl⟩)
    rw [hplace.1]
    rfl
  | give t => exact Option.some.inj h ▸ give_inv hw t
  | notify => exact notify_inv hw h

/-! ## Refinement -/

theorem append_refines {code : StatusCode} {w : World τ} (hw : Inv code w) {t : τ} (hplace : w.place t = .appending) :
    w.future.wait t = some ({ w with cond := w.cond.appendTask t }.move t .unlocking).future := by
  have hstored : w.notifier.stored = false := (hw.task t).not_stored hplace
  have hcode : w.code = .last := by
    rw [hw.code, hstored]
    rfl
  have hnotifier : w.notifier ≠ .broadcasting := by
    intro h
    rw [h] at hstored
    cases hstored
  have hfuture : w.future = ⟨w.code, w.cond.tasks⟩ := by rw [World.future, if_neg hnotifier]
  rw [hfuture, Future.wait, if_pos hcode]
  show _ = some (⟨w.code, if w.notifier = .broadcasting then [] else w.cond.tasks ++ [t]⟩ : Future τ)
  rw [if_neg hnotifier]

/-- every step leaves the future, or is a turn of the loop of `wait` or the `notify` of it -/
theorem step_refines {code : StatusCode} {w w' : World τ} (hw : Inv code w) (e : Event τ)
    (h : step code w e = some w') :
    w'.future = w.future ∨ (∃ t, w.future.wait t = some w'.future) ∨ w'.future = (w.future.notify code).2 := by
  cases e with
  | advance t =>
    simp only [step, advance] at h
    split at h
    · exact .inl (Option.some.inj h ▸ rfl)
    · split_ifs at h
      exact .inl (Option.some.inj h ▸ rfl)
    · exact .inl (Option.some.inj h ▸ rfl)
    · rename_i hplace
      obtain rfl := Option.some.inj h
      exact .inr (.inl ⟨t, append_refines hw hplace⟩)
    · exact .inl (Option.some.inj h ▸ rfl)
    · split_ifs at h
      exact .inl (Option.some.inj h ▸ rfl)
    · split_ifs at h
      · exact .inl (Option.some.inj h ▸ rfl)
      · exact .inl (Option.some.inj h ▸ rfl)
    · exact .inl (Option.some.inj h ▸ rfl)
  | expire t =>
    simp only [step] at h
    split_ifs at h
    exact .inl (Option.some.inj h ▸ rfl)
  | give t => exact .inl (Option.some.inj h ▸ rfl)
  | notify =>
    simp only [step, notify] at h
    split at h
    · rename_i hnotifier
      obtain rfl := Option.some.inj h
      simp [World.future, hnotifier]
    · rename_i hnotifier
      split_ifs at h
      obtain rfl := Option.some.inj h
      simp [World.future, hnotifier]
    · obtain rfl := Option.some.inj h
      exact .inr (.inr rfl)
    · rename_i hnotifier
      split_ifs at h with htasks
      · obtain rfl := Option.some.inj h
        simp [World.future, hnotifier, htasks]
      · obtain rfl := Option.some.inj h
        simp [World.future, hnotifier]
    · cases h

/-! ## Waiting for the result -/

/-- **No lost and no premature wake-up.** For every interleaving of one `notify` with any number of waits, timeouts and
notifications from elsewhere: a wait has been successful only if the code has been stored, and then `code` gives exactly
this code; and after `notify` has returned, every task that is blocked has a notification. -/
theorem no_lost_wakeup {code : StatusCode} (hcode : code ≠ .last) (es : List (Event τ)) (w : World τ)
    (h : exec (step code) .start es = some w) :
    (∀ p ∈ w.returned, p.2 = .ok → w.notifier.stored = true ∧ ∀ c ∈ w.readCode, c = code) ∧
      (w.notifier = .done → ∀ t, w.place t = .taking → w.value t ≠ 0) := by
  have hstep (w : World τ) (e : Event τ) (w' : World τ) (hw : Inv code w) (h : step code w e = some w') : Inv code w' :=
    step_inv hcode w e w' hw h
  have hw : Inv code w := exec_inv hstep (start_inv code) es h
  refine ⟨?_, ?_⟩
  · intro p hp hok
    have hstored := hw.returned p hp hok
    refine ⟨hstored, fun c hc => ?_⟩
    rw [World.readCode, Option.mem_def] at hc
    split_ifs at hc
    rw [← Option.some.inj hc, hw.code, if_pos hstored]
  · intro hdone t hplace hzero
    have hmem := (hw.task t).queued (by rw [hplace]; rfl) hzero
    rw [hw.done hdone] at hmem
    cases hmem

/-- a task is woken by a notification from elsewhere and goes back to sleep, and the code comes before it is blocked -/
def exampleEvents : List (Event ℕ) :=
  [.advance 0, .advance 0, .advance 0, .advance 0, .advance 0, .give 0, .advance 0, .advance 0, .advance 0, .advance 0,
    .notify, .advance 0, .notify, .notify, .notify, .notify, .notify]

def exampleEnd : World ℕ := (exec (step .timeout) .start exampleEvents).get (by decide)

theorem no_lost_wakeup_example : exampleEnd.place 0 = .taking ∧ exampleEnd.value 0 ≠ 0 ∧
    exampleEnd.readCode = some .timeout := by
  have h := (no_lost_wakeup (by decide) exampleEvents exampleEnd (Option.some_get _).symm).2
  exact ⟨by decide, h (by decide) 0 (by decide), by decide⟩

end ControlComponents.Core.FutureWait
