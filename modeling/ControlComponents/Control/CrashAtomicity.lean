/-
Histories of an `FsmBlock` over one storage, with write failures and power losses.

A power loss after some writes of a save leaves the storage as a failure of the next write does, so it is such a failure
followed by `restart`.

- `crash_atomic`: in every history whose interrupted saves stopped before their first write, or had only writes left that
  would have changed nothing, a new block restores one whole record: that of the last completed save or of an interrupted
  one after it. A load that fails leaves the zero record if the values it got before the failure are zero.
- `crash_mixes_records`: without the condition a new block mixes the records of two saves.
-/
import ControlComponents.Control.FsmBlock
import ControlComponents.Lib.Runs

namespace ControlComponents.Control

open ControlComponents.Lib.KeyedWrites ControlComponents.Lib.Runs ControlComponents.Storage

/-! ## Model -/

/-- one call of `write_`: the record and whether every write of it went through -/
structure Save where
  record : Record
  completed : Bool
deriving DecidableEq

/-- a block, its storage, and the saves so far, the newest first -/
structure World where
  block : FsmBlock
  store : Store
  saves : List Save

/-- the operations of a block, with the clock reading and the storage failures each meets, and a restart -/
inductive Event where
  | setNext (state : State)
  | update (now : Time)
  | transit (now : Time) (f : Faults)
  | run (f : Faults)
  | handleReboot (now : Time) (f : Faults)
  | restart (resolution : Resolution) (f : Faults)

/-- the record an event saves, and the failures it meets doing so -/
def Event.save (b : FsmBlock) : Event → Option (Record × Faults)
  | .setNext _ | .update _ | .restart _ _ => none
  | .transit _ f => some (⟨b.writeCount + 1, b.currState, b.currStateDur, b.nextState, 0⟩, f)
  | .run f => some ({ b.toRecord with writeCount := b.writeCount + 1 }, f)
  | .handleReboot now f => some ({ (b.update now).toRecord with writeCount := b.writeCount + 1 }, f)

def Event.saves (b : FsmBlock) (ev : Event) : List Save :=
  ((ev.save b).map fun p => ⟨p.1, completes p.2⟩).toList

def step (w : World) (ev : Event) : World :=
  let saves := ev.saves w.block ++ w.saves
  match ev with
  | .setNext state => ⟨w.block.setNext state, w.store, saves⟩
  | .update now => ⟨w.block.update now, w.store, saves⟩
  | .transit now f =>
    let (_, b, s) := w.block.transit now f w.store
    ⟨b, s, saves⟩
  | .run f =>
    let (_, b, s) := w.block.run f w.store
    ⟨b, s, saves⟩
  | .handleReboot now f =>
    let (b, s) := w.block.handleReboot now f w.store
    ⟨b, s, saves⟩
  | .restart resolution f => ⟨.init resolution f w.store, w.store, saves⟩

/-- a block over an empty storage -/
def start (resolution : Resolution) : World := ⟨.init resolution .none ∅, ∅, []⟩

/-- the record of the last completed save or of one after it; the zero record if none has completed -/
def Restorable : List Save → Record → Prop
  | [], r => r = .zero
  | save :: saves, r => r = save.record ∨ (save.completed = false ∧ Restorable saves r)

instance decidableRestorable : ∀ (saves : List Save) (r : Record), Decidable (Restorable saves r)
  | [], r => inferInstanceAs (Decidable (r = .zero))
  | save :: saves, r =>
    have := decidableRestorable saves r
    inferInstanceAs (Decidable (r = save.record ∨ (save.completed = false ∧ Restorable saves r)))

/-! ## The condition -/

/-- a save that is not interrupted, or stops before its first write, or has only writes left that change nothing -/
def SaveSafe (f : Faults) (s : Store) (r : Record) : Prop :=
  (f.write writeCountField.key).isSome ∨ ∀ p ∈ pending f.write r.image, s.lookup p.1 = some p.2

instance (f : Faults) (s : Store) (r : Record) : Decidable (SaveSafe f s r) := by
  unfold SaveSafe; infer_instance

def Allowed (w : World) (ev : Event) : Prop := ∀ p ∈ ev.save w.block, SaveSafe p.2 w.store p.1

instance (w : World) (ev : Event) : Decidable (Allowed w ev) := by
  unfold Allowed; infer_instance

/-- the values a load gets before its first failure are zero -/
def LoadSafe (f : Faults) (s : Store) : Prop := ∀ fld ∈ loaded f s fields, ∀ v ∈ s.lookup fld.key, ∀ b ∈ v, b = 0

instance (f : Faults) (s : Store) : Decidable (LoadSafe f s) := by
  -- not the search over all bytes that the instances of `BitVec` would find
  have (v : List Byte) : Decidable (∀ b ∈ v, b = 0) := List.decidableBAll _ v
  unfold LoadSafe; infer_instance

/-! ## One step -/

/-- what a step does to the storage: nothing, or one save -/
theorem step_cases (w : World) (ev : Event) :
    (ev.save w.block = none ∧ (step w ev).store = w.store ∧ (step w ev).saves = w.saves) ∨
    ∃ r f, ev.save w.block = some (r, f) ∧ (step w ev).store = (putAll f.write r.image w.store).2 ∧
      (step w ev).saves = ⟨r, completes f⟩ :: w.saves := by
  cases ev with
  | setNext state => exact Or.inl ⟨rfl, rfl, rfl⟩
  | update now => exact Or.inl ⟨rfl, rfl, rfl⟩
  | restart resolution f => exact Or.inl ⟨rfl, rfl, rfl⟩
  | transit now f =>
    refine Or.inr ⟨_, f, rfl, ?_, rfl⟩
    have h := congrArg Prod.snd ((w.block.moved now).write_spec f w.store).1
    exact h
  | run f =>
    refine Or.inr ⟨_, f, rfl, ?_, rfl⟩
    have h := congrArg Prod.snd (w.block.write_spec f w.store).1
    exact h
  | handleReboot now f =>
    refine Or.inr ⟨_, f, rfl, ?_, rfl⟩
    have h := congrArg Prod.snd ((w.block.update now).write_spec f w.store).1
    exact h

/-- the storage has no record and none was completed, or it has one whole record that may be restored -/
def Consistent (w : World) : Prop :=
  (Absent w.store ∧ Restorable w.saves .zero) ∨ ∃ r, Holds w.store r ∧ Restorable w.saves r

theorem start_consistent (resolution : Resolution) : Consistent (start resolution) :=
  Or.inl ⟨fun _ _ => rfl, rfl⟩

/-- a save that stops before its first write leaves the storage alone and is not completed -/
theorem save_stopped {f : Faults} (h : (f.write writeCountField.key).isSome) (s : Store) (r : Record) :
    (putAll f.write r.image s).2 = s ∧ completes f = false := by
  obtain ⟨e, he⟩ := Option.isSome_iff_exists.1 h
  refine ⟨?_, ?_⟩
  · simp only [Record.image, fields, List.map_cons, putAll, he]
  · simp [completes, fields, he]

theorem step_consistent (w : World) (ev : Event) (hw : Consistent w) (hok : Allowed w ev) : Consistent (step w ev) := by
  rcases step_cases w ev with ⟨-, hstore, hsaves⟩ | ⟨r, f, hsave, hstore, hsaves⟩
  · unfold Consistent
    rw [hstore, hsaves]
    exact hw
  · unfold Consistent
    rw [hstore, hsaves]
    rcases hok (r, f) hsave with hstop | hpending
    · -- nothing was written: what could be restored still can
      obtain ⟨hs, hcomp⟩ := save_stopped hstop w.store r
      rw [hs, hcomp]
      rcases hw with ⟨habsent, hzero⟩ | ⟨r', hholds, hr'⟩
      · exact Or.inl ⟨habsent, Or.inr ⟨rfl, hzero⟩⟩
      · exact Or.inr ⟨r', hholds, Or.inr ⟨rfl, hr'⟩⟩
    · -- the new record is there as a whole
      refine Or.inr ⟨r, ?_, Or.inl rfl⟩
      intro p hp
      apply lookup_putAll_of_pending f.write r.image w.store _ hpending p hp
      rw [keys_image]
      exact nodup_keys

/-! ## Main results -/

/-- what a new block restores over a consistent storage -/
theorem read_consistent {w : World} (hw : Consistent w) (f : Faults) :
    ((FsmBlock.read_ f w.store .zero).1 = .ok → Restorable w.saves (FsmBlock.read_ f w.store .zero).2) ∧
    Restorable w.saves (FsmBlock.read_ .none w.store .zero).2 := by
  rcases hw with ⟨habsent, hzero⟩ | ⟨r, hholds, hr⟩
  · refine ⟨fun hok => absurd hok (FsmBlock.read_absent habsent f .zero).1, ?_⟩
    rw [(FsmBlock.read_absent habsent .none .zero).2]
    exact hzero
  · refine ⟨fun hok => ?_, ?_⟩
    · rw [FsmBlock.read_saved hholds .zero hok]
      exact hr
    · rw [FsmBlock.read_none hholds .zero]
      exact hr

/-- **Crash atomicity.** After every history of allowed steps, a new block over the storage restores one whole record,
that of the last completed save or of one after it, whenever all its reads succeed and in particular when no storage call
fails; and a new block one of whose reads fails has the zero record if the values read before are zero. -/
theorem crash_atomic (resolution : Resolution) (evs : List Event) (hok : Guarded step Allowed (start resolution) evs) :
    let w := Lib.Runs.run step (start resolution) evs
    ∀ resolution' f,
      Restorable w.saves (FsmBlock.init resolution' .none w.store).toRecord ∧
      ((FsmBlock.read_ f w.store .zero).1 = .ok → Restorable w.saves (FsmBlock.init resolution' f w.store).toRecord) ∧
      ((FsmBlock.read_ f w.store .zero).1 ≠ .ok → LoadSafe f w.store →
        (FsmBlock.init resolution' f w.store).toRecord = .zero) := by
  intro w resolution' f
  have hw : Consistent w := run_inv step_consistent (start_consistent resolution) evs hok
  obtain ⟨hread, hnone⟩ := read_consistent hw f
  refine ⟨hnone, hread, fun _ hload => ?_⟩
  exact readFields_zero fields (fun fld h => h) hload

def second : Resolution := ⟨1000000, second_ne_zero⟩

/-- the write under `key` fails -/
def writeFails (key : String) : Faults := { Faults.none with write := fun k => if k = key then some .plain else none }

/-- the read under `key` fails -/
def readFails (key : String) : Faults := { Faults.none with read := fun k => if k = key then some .plain else none }

/-- the second transition cannot be saved at all, and the power goes -/
def stoppedSave : List Event :=
  [.setNext 1, .transit 5 .none, .setNext 2, .transit 9 (writeFails "write_count"), .restart second .none]

theorem crash_atomic_example :
    let w := Lib.Runs.run step (start second) stoppedSave
    Restorable w.saves (FsmBlock.init second .none w.store).toRecord ∧
      (FsmBlock.init second (readFails "write_count") w.store).toRecord = .zero := by
  have h := crash_atomic second stoppedSave (by decide) second (readFails "write_count")
  exact ⟨h.1, h.2.2 (by decide) (by decide)⟩

/-- after every history a new block restores one whole record, and has the zero record if one of its reads fails -/
def CrashAtomic : Prop :=
  ∀ (resolution : Resolution) (evs : List Event),
    let w := Lib.Runs.run step (start resolution) evs
    ∀ resolution' f,
      ((FsmBlock.read_ f w.store .zero).1 = .ok → Restorable w.saves (FsmBlock.init resolution' f w.store).toRecord) ∧
      ((FsmBlock.read_ f w.store .zero).1 ≠ .ok → (FsmBlock.init resolution' f w.store).toRecord = .zero)

/-- the power goes in the middle of the second transition, before the current state is written -/
def cutSave : List Event := [.setNext 1, .transit 5 .none, .setNext 2, .transit 9 (writeFails "curr_state")]

/-- **A cut save mixes two records.** The block went from no state to 1 and from 1 to 2; what is restored has been in 1
before and is in 1 now. A new block whose second read fails keeps the write count it has read. -/
theorem crash_mixes_records : ¬ CrashAtomic ∧
    (let w := Lib.Runs.run step (start second) cutSave
     (FsmBlock.init second .none w.store).toRecord = ⟨2, 1, 0, 1, 0⟩ ∧
       w.saves = [⟨⟨2, 1, 0, 2, 0⟩, false⟩, ⟨⟨1, 0, 0, 1, 0⟩, true⟩] ∧
       (FsmBlock.init second (readFails "prev_state") w.store).toRecord = ⟨2, 0, 0, 0, 0⟩) := by
  refine ⟨fun h => ?_, by decide⟩
  have hbad := (h second cutSave second .none).1 (by decide)
  revert hbad
  decide

end ControlComponents.Control
