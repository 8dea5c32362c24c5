/-
`FsmBlock` (`ocs_control`): the state of a finite-state machine, kept in the storage across restarts.

A block holds the previous, the current and the requested next state, how long the first two lasted, and how often it
was saved. Five of these fields make up the saved record; `write_` stores them key by key and `read_` loads them the same
way, each returning at the first failure.

- `write_spec`: what a save does, with `completes` for when it reports success.
- `read_saved`: a load over a saved record that reports success loads that record.
- `readFields_zero`: a load that reports a failure has loaded the fields before the failing one.
- `update_toInt`: the duration of the current state, where nothing overflows.
-/
import ControlComponents.Storage

namespace ControlComponents.Control

open ControlComponents.Lib.LittleEndian ControlComponents.Lib.KeyedWrites ControlComponents.Storage

/-! ## Model -/

/-- FSM state; 0 is no state -/
abbrev State := BitVec 16

/-- `core::Time`, a signed 64-bit number -/
abbrev Time := BitVec 64

/-- the saved fields of a block -/
structure Record where
  writeCount : BitVec 64
  prevState : State
  prevStateDur : Time
  currState : State
  currStateDur : Time
deriving DecidableEq

def Record.zero : Record := ⟨0, 0, 0, 0, 0⟩

/-- one saved field: its key, the size of its variable, and the copies between the variable and a buffer -/
structure Field where
  key : String
  size : ℕ
  save : Record → List Byte
  load : Record → List Byte → Record

def writeCountField : Field where
  key := "write_count"
  size := 8
  save r := toLe 8 r.writeCount.toNat
  load r bs := { r with writeCount := overlay 8 r.writeCount bs }

def prevStateField : Field where
  key := "prev_state"
  size := 2
  save r := toLe 2 r.prevState.toNat
  load r bs := { r with prevState := overlay 2 r.prevState bs }

def prevStateDurField : Field where
  key := "prev_state_dur"
  size := 8
  save r := toLe 8 r.prevStateDur.toNat
  load r bs := { r with prevStateDur := overlay 8 r.prevStateDur bs }

def currStateField : Field where
  key := "curr_state"
  size := 2
  save r := toLe 2 r.currState.toNat
  load r bs := { r with currState := overlay 2 r.currState bs }

def currStateDurField : Field where
  key := "curr_state_dur"
  size := 8
  save r := toLe 8 r.currStateDur.toNat
  load r bs := { r with currStateDur := overlay 8 r.currStateDur bs }

/-- the order of `write_` and of `read_` -/
def fields : List Field := [writeCountField, prevStateField, prevStateDurField, currStateField, currStateDurField]

/-- the writes of `write_` -/
def Record.image (r : Record) : List (String × List Byte) := fields.map fun fld => (fld.key, fld.save r)

/-- a positive time unit (`configASSERT(resolution_)`) -/
abbrev Resolution := {resolution : Time // resolution ≠ 0}

/-- one second of a clock in microseconds -/
theorem second_ne_zero : (1000000 : Time) ≠ 0 := by decide

structure FsmBlock extends Record where
  resolution : Resolution
  nextState : State
  startTs : Time
  savedTs : Time
deriving DecidableEq

/-- load the fields in order, up to the first read that fails -/
def readFields (f : Faults) (s : Store) : List Field → Record → StatusCode × Record
  | [], r => (.ok, r)
  | fld :: rest, r =>
    match read f s fld.key fld.size with
    | .error code => (code, r)
    | .ok bs => readFields f s rest (fld.load r bs)

namespace FsmBlock

def read_ (f : Faults) (s : Store) (r : Record) : StatusCode × Record := readFields f s fields r

/-- the constructor -/
def init (resolution : Resolution) (f : Faults) (s : Store) : FsmBlock :=
  let (code, r) := read_ f s .zero
  { toRecord := r
    resolution := resolution
    nextState := 0
    startTs := 0
    savedTs := if code = .ok then r.currStateDur else 0 }

def isInTransit (b : FsmBlock) : Bool := decide (b.nextState ≠ 0) && decide (b.currState ≠ b.nextState)

def setNext (b : FsmBlock) (state : State) : FsmBlock := { b with nextState := state }

def update (b : FsmBlock) (now : Time) : FsmBlock :=
  { b with currStateDur := b.savedTs + (now - b.startTs).sdiv b.resolution }

def write_ (b : FsmBlock) (f : Faults) (s : Store) : StatusCode × FsmBlock × Store :=
  let b := { b with writeCount := b.writeCount + 1 }
  match putAll f.write b.image s with
  | (some e, t) => (e.code, b, t)
  | (none, t) => (.ok, b, t)

/-- the block as `transit` has it when it saves -/
def moved (b : FsmBlock) (now : Time) : FsmBlock :=
  { b with
    prevState := b.currState
    prevStateDur := b.currStateDur
    currState := b.nextState
    currStateDur := 0
    nextState := 0
    startTs := now
    savedTs := 0 }

def transit (b : FsmBlock) (now : Time) (f : Faults) (s : Store) : StatusCode × FsmBlock × Store :=
  (b.moved now).write_ f s

/-- the status of the save is logged only -/
def handleReboot (b : FsmBlock) (now : Time) (f : Faults) (s : Store) : FsmBlock × Store :=
  ((b.update now).write_ f s).2

def run (b : FsmBlock) (f : Faults) (s : Store) : StatusCode × FsmBlock × Store := b.write_ f s

theorem isInTransit_iff (b : FsmBlock) : b.isInTransit = true ↔ b.nextState ≠ 0 ∧ b.currState ≠ b.nextState := by
  rw [isInTransit, Bool.and_eq_true, decide_eq_true_eq, decide_eq_true_eq]

end FsmBlock

/-! ## Fields -/

@[simp] theorem keys_image (r : Record) : r.image.map Prod.fst = fields.map Field.key := by
  simp [Record.image]

theorem nodup_keys : (fields.map Field.key).Nodup := by
  decide

/-- loading every field of a record gives the record -/
theorem load_image (r r' : Record) : fields.foldl (fun t fld => fld.load t (fld.save r)) r' = r := by
  simp only [fields, List.foldl_cons, List.foldl_nil, writeCountField, prevStateField, prevStateDurField,
    currStateField, currStateDurField]
  rw [overlay_toLe 8 rfl, overlay_toLe 2 rfl, overlay_toLe 8 rfl, overlay_toLe 2 rfl, overlay_toLe 8 rfl]

theorem length_save (r : Record) (fld : Field) (h : fld ∈ fields) : (fld.save r).length = fld.size := by
  simp only [fields, List.mem_cons, List.not_mem_nil, or_false] at h
  rcases h with rfl | rfl | rfl | rfl | rfl <;> exact length_toLe _ _

/-- a zero value loaded into a zero record -/
theorem load_zero (fld : Field) (h : fld ∈ fields) (bs : List Byte) (hbs : ∀ b ∈ bs, b = 0) :
    fld.load .zero bs = .zero := by
  have h64 : overlay 8 (0 : BitVec 64) bs = 0 := overlay_zero 8 bs hbs
  have h16 : overlay 2 (0 : BitVec 16) bs = 0 := overlay_zero 2 bs hbs
  simp only [fields, List.mem_cons, List.not_mem_nil, or_false] at h
  rcases h with rfl | rfl | rfl | rfl | rfl
  · simp only [writeCountField, Record.zero, h64]
  · simp only [prevStateField, Record.zero, h16]
  · simp only [prevStateDurField, Record.zero, h64]
  · simp only [currStateField, Record.zero, h16]
  · simp only [currStateDurField, Record.zero, h64]

/-! ## Durations -/

/-- the values of a `Time` -/
def InRange (x : ℤ) : Prop := -2 ^ 63 ≤ x ∧ x < 2 ^ 63

instance (x : ℤ) : Decidable (InRange x) := by
  unfold InRange; infer_instance

/-- the duration that an `update` computes, without overflow -/
def FsmBlock.duration (b : FsmBlock) (now : ℤ) : ℤ :=
  b.savedTs.toInt + (now - b.startTs.toInt).tdiv b.resolution.1.toInt

/-- neither the difference nor the quotient nor the sum of an `update` overflows -/
def FsmBlock.Fits (b : FsmBlock) (now : Time) : Prop :=
  InRange (now.toInt - b.startTs.toInt) ∧ InRange ((now.toInt - b.startTs.toInt).tdiv b.resolution.1.toInt) ∧
    InRange (b.duration now.toInt)

instance (b : FsmBlock) (now : Time) : Decidable (b.Fits now) := by
  unfold FsmBlock.Fits; infer_instance

theorem bmod_of_inRange {x : ℤ} (h : InRange x) : x.bmod (2 ^ 64) = x := by
  obtain ⟨hlo, hhi⟩ := h
  apply Int.bmod_eq_of_le
  · omega
  · omega

theorem FsmBlock.update_toInt {b : FsmBlock} {now : Time} (h : b.Fits now) :
    (b.update now).currStateDur.toInt = b.duration now.toInt := by
  obtain ⟨hdiff, hquot, hsum⟩ := h
  have hsub : (now - b.startTs).toInt = now.toInt - b.startTs.toInt := by
    rw [BitVec.toInt_sub, bmod_of_inRange hdiff]
  have hdiv : ((now - b.startTs).sdiv b.resolution.1).toInt =
      (now.toInt - b.startTs.toInt).tdiv b.resolution.1.toInt := by
    rw [BitVec.toInt_sdiv, hsub, bmod_of_inRange hquot]
  calc (b.update now).currStateDur.toInt
      = (b.savedTs.toInt + ((now - b.startTs).sdiv b.resolution.1).toInt).bmod (2 ^ 64) := BitVec.toInt_add _ _
    _ = (b.duration now.toInt).bmod (2 ^ 64) := by rw [hdiv, duration]
    _ = b.duration now.toInt := bmod_of_inRange hsum

/-- with a positive resolution the duration grows with the clock -/
theorem FsmBlock.duration_mono {b : FsmBlock} (hres : 0 < b.resolution.1.toInt) {s t : ℤ} (hst : s ≤ t) :
    b.duration s ≤ b.duration t := by
  have hle : s - b.startTs.toInt ≤ t - b.startTs.toInt := by omega
  have hquot := Int.tdiv_le_tdiv hres hle
  unfold duration
  omega

/-! ## Saving and loading -/

/-- the record is in the storage, all five fields of it -/
def Holds (s : Store) (r : Record) : Prop := ∀ p ∈ r.image, s.lookup p.1 = some p.2

/-- no field of a record is in the storage -/
def Absent (s : Store) : Prop := ∀ fld ∈ fields, s.lookup fld.key = none

/-- no write of a save fails -/
def completes (f : Faults) : Bool := fields.all fun fld => (f.write fld.key).isNone

/-- what a save does: the counted record goes to the storage up to the first write that fails -/
theorem FsmBlock.write_spec (b : FsmBlock) (f : Faults) (s : Store) :
    (b.write_ f s).2 = ({ b with writeCount := b.writeCount + 1 },
      (putAll f.write (Record.image { b.toRecord with writeCount := b.writeCount + 1 }) s).2) ∧
    ((b.write_ f s).1 = .ok ↔ completes f = true) := by
  set r : Record := { b.toRecord with writeCount := b.writeCount + 1 } with hr
  have hcomp : completes f = true ↔ ∀ p ∈ r.image, f.write p.1 = none := by
    simp [completes, Record.image]
  have hok := putAll_ok_iff f.write r.image s
  unfold FsmBlock.write_
  cases h : putAll f.write r.image s with
  | mk res t =>
    rw [h] at hok
    cases res with
    | none =>
      simp only [← hr, h, true_and, true_iff]
      exact hcomp.2 (hok.1 rfl)
    | some e =>
      simp only [← hr, h, true_and, e.failed, false_iff]
      intro hc
      cases hok.2 (hcomp.1 hc)

/-- a transition moves to the requested state and takes the request back, whatever becomes of the save -/
theorem FsmBlock.transit_spec (b : FsmBlock) (now : Time) (f : Faults) (s : Store) :
    (b.transit now f s).2.1.currState = b.nextState ∧ (b.transit now f s).2.1.nextState = 0 := by
  have h := congrArg Prod.fst ((b.moved now).write_spec f s).1
  unfold FsmBlock.transit
  rw [h]
  exact ⟨rfl, rfl⟩

/-- a load that reports success has loaded every field from what is stored under its key -/
theorem readFields_ok {f : Faults} {s : Store} {r : Record} (flds : List Field)
    (hs : ∀ fld ∈ flds, s.lookup fld.key = some (fld.save r)) (r' : Record)
    (hok : (readFields f s flds r').1 = .ok) :
    (readFields f s flds r').2 = flds.foldl (fun t fld => fld.load t (fld.save r)) r' := by
  induction flds generalizing r' with
  | nil => rfl
  | cons fld flds ih =>
    simp only [readFields] at hok ⊢
    rcases read_cases f s fld.key fld.size with ⟨code, hcode, hread⟩ | ⟨v, hv, hread⟩
    · rw [hread] at hok
      exact absurd hok hcode
    · have hsave : v = fld.save r := Option.some.inj (hv.symm.trans (hs fld List.mem_cons_self))
      subst hsave
      rw [hread] at hok ⊢
      apply ih
      · intro fld' hfld'
        exact hs fld' (List.mem_cons_of_mem _ hfld')
      · exact hok

/-- the fields whose values are loaded before the first read that fails -/
def loaded (f : Faults) (s : Store) (flds : List Field) : List Field :=
  flds.takeWhile fun fld => (read f s fld.key fld.size).isOk

/-- a load into a zero record that finds zero values only leaves it zero -/
theorem readFields_zero {f : Faults} {s : Store} (flds : List Field) (hflds : ∀ fld ∈ flds, fld ∈ fields)
    (hzero : ∀ fld ∈ loaded f s flds, ∀ v, s.lookup fld.key = some v → ∀ b ∈ v, b = 0) :
    (readFields f s flds .zero).2 = .zero := by
  induction flds with
  | nil => rfl
  | cons fld flds ih =>
    simp only [readFields]
    rcases read_cases f s fld.key fld.size with ⟨code, -, hread⟩ | ⟨v, hv, hread⟩
    · rw [hread]
    · have hloaded : loaded f s (fld :: flds) = fld :: loaded f s flds := by
        simp [loaded, hread, Except.isOk, Except.toBool]
      rw [hloaded] at hzero
      have hload : fld.load .zero v = .zero := by
        apply load_zero fld (hflds fld List.mem_cons_self)
        exact hzero fld List.mem_cons_self v hv
      simp only [hread, hload]
      apply ih
      · intro fld' hfld'
        exact hflds fld' (List.mem_cons_of_mem _ hfld')
      · intro fld' hfld'
        exact hzero fld' (List.mem_cons_of_mem _ hfld')

/-- over a saved record, a load that reports success loads that record -/
theorem FsmBlock.read_saved {f : Faults} {s : Store} {r : Record} (hs : Holds s r) (r' : Record)
    (hok : (read_ f s r').1 = .ok) : (read_ f s r').2 = r := by
  have hfields : ∀ fld ∈ fields, s.lookup fld.key = some (fld.save r) := by
    intro fld hfld
    exact hs (fld.key, fld.save r) (List.mem_map_of_mem hfld)
  have h := readFields_ok fields hfields r' hok
  rw [load_image] at h
  exact h

/-- without storage failures a saved record is loaded -/
theorem FsmBlock.read_none {s : Store} {r : Record} (hs : Holds s r) (r' : Record) :
    read_ .none s r' = (.ok, r) := by
  have hread (flds : List Field) (hflds : ∀ fld ∈ flds, fld ∈ fields) (t : Record) :
      (readFields .none s flds t).1 = .ok := by
    induction flds generalizing t with
    | nil => rfl
    | cons fld flds ih =>
      have hfld := hflds fld List.mem_cons_self
      have hlookup : s.lookup fld.key = some (fld.save r) := hs (fld.key, fld.save r) (List.mem_map_of_mem hfld)
      have hok : read .none s fld.key fld.size = .ok (fld.save r) := by
        simp [Storage.read, Faults.none, hlookup, length_save r fld hfld]
      simp only [readFields, hok]
      apply ih
      intro fld' hfld'
      exact hflds fld' (List.mem_cons_of_mem _ hfld')
  have hok := hread fields (fun fld h => h) r'
  exact Prod.ext hok (read_saved hs r' hok)

/-- over a storage without a record a load fails and changes nothing -/
theorem FsmBlock.read_absent {s : Store} (hs : Absent s) (f : Faults) (r : Record) :
    (read_ f s r).1 ≠ .ok ∧ (read_ f s r).2 = r := by
  rcases read_cases f s writeCountField.key writeCountField.size with ⟨code, hcode, hread⟩ | ⟨v, hv, -⟩
  · simp only [read_, fields, readFields, hread]
    exact ⟨hcode, trivial⟩
  · rw [hs writeCountField (by simp [fields])] at hv
    cases hv

end ControlComponents.Control
