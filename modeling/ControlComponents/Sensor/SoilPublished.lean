/-
What the soil `AnalogSensor` (`ocs_sensor/soil`) publishes over a restored block.

`parse_status` is there to publish `None` for a state that is no status, but its check holds of no state: it asks for a
state that is below the first status and at the same time not below the last one. A restored state is published as its low
byte.

- `react_block`: when a run moves the block, and what it leaves otherwise.
- `next_enumerated_iff`: when a run publishes enumerators. `enumerated_iff`: the runs over one storage that do.
- `guarded_iff_first`: they are told by the restored states and the first run that has a reading.
- `publishes_no_status`: three runs that do not.
-/
import ControlComponents.Sensor.SoilHysteresis

namespace ControlComponents.Sensor.Soil

open ControlComponents.Control ControlComponents.Lib ControlComponents.Lib.Runs ControlComponents.Storage

variable {δ : Type}

/-! ## The law -/

/-- one of the statuses that consumers know -/
def SoilStatus.Enumerated (status : SoilStatus) : Prop :=
  status = .none ∨ status = .saturated ∨ status = .wet ∨ status = .depletion ∨ status = .dry ∨ status = .error

instance (status : SoilStatus) : Decidable status.Enumerated := by
  unfold SoilStatus.Enumerated; infer_instance

/-- both published statuses are known -/
def Data.Enumerated (d : Data δ) : Prop := d.prevStatus.Enumerated ∧ d.currStatus.Enumerated

instance (d : Data δ) : Decidable d.Enumerated := by
  unfold Data.Enumerated; infer_instance

/-- the low byte of the state is below `Last` -/
def Recognized (state : State) : Prop := state.toNat % 256 < 6

instance (state : State) : Decidable (Recognized state) := by
  unfold Recognized; infer_instance

/-- the run transits the block: the status of the reading is another one, and the override does not take it back -/
def Moves (a : Arith δ) (threshold : Byte) (block : FsmBlock) (config : AnalogConfig) (raw voltage : ℤ)
    (status : SoilStatus) : Prop :=
  block.currState ≠ status.toState ∧
    ¬ TakesBack a threshold (block.setNext status.toState) (measured a config raw voltage)

/-- what a run that publishes has to meet: a current state that is a status, and a previous one as well unless the run moves
the block -/
def Recognizes (a : Arith δ) (threshold : Byte) (w : World δ) (i : Input) : Prop :=
  ∀ raw voltage status, i.read = .ok (raw, voltage) → calculateStatus i.config raw = some status →
    Recognized w.block.currState ∧
      (Recognized w.block.prevState ∨ Moves a threshold w.block i.config raw voltage status)

/-! ## Statuses -/

theorem enumerated_iff_lt (status : SoilStatus) : status.Enumerated ↔ status.value.toNat < 6 := by
  have hall : ∀ value : Byte, SoilStatus.Enumerated ⟨value⟩ ↔ value.toNat < 6 := by decide
  exact hall status.value

theorem parseStatus_enumerated_iff (state : State) : (parseStatus state).Enumerated ↔ Recognized state := by
  rw [enumerated_iff_lt, parseStatus_eq, BitVec.toNat_setWidth, Recognized]

/-- the status of a reading is known, and not `None` -/
theorem calculateStatus_enumerated {config : AnalogConfig} {raw : ℤ} {status : SoilStatus}
    (h : calculateStatus config raw = some status) : status.Enumerated ∧ status.toState ≠ 0 := by
  unfold calculateStatus at h
  split_ifs at h
  · obtain rfl := Option.some.inj h
    decide
  · have hmem : status ∈ statuses := List.mem_of_getElem? h
    have hall : ∀ s ∈ statuses, s.Enumerated ∧ s.toState ≠ 0 := by decide
    exact hall status hmem

/-! ## One run -/

/-- the override looks at the states of the block only -/
theorem takesBack_update (a : Arith δ) (threshold : Byte) (block : FsmBlock) (now : Time) (next : State) (data : Data δ) :
    TakesBack a threshold ((block.update now).setNext next) data ↔ TakesBack a threshold (block.setNext next) data :=
  ⟨fun h => ⟨h.nonzero, h.transit, h.progress, h.current, h.next⟩,
    fun h => ⟨h.nonzero, h.transit, h.progress, h.current, h.next⟩⟩

/-- a reaction moves the block to the status of the reading, or leaves its states -/
theorem react_block (a : Arith δ) (threshold : Byte) (config : AnalogConfig) (raw voltage : ℤ) (now : Time)
    (faults : Faults) (block : FsmBlock) (store : Store) {status : SoilStatus} (hne : status.toState ≠ 0) :
    let r := react a threshold config raw voltage now faults block store status
    (Moves a threshold block config raw voltage status ∧ r.1 = arrived block status.toState now) ∨
      (¬ Moves a threshold block config raw voltage status ∧ ∃ next, r.1 = block.setNext next) := by
  intro r
  have hr : r = _ := react_eq a threshold config raw voltage now faults block store status
  rw [hr]
  rcases override_fst a threshold (block.setNext status.toState) (measured a config raw voltage) with
    ⟨htakes, hblock⟩ | ⟨hnot, hblock⟩
  · have hstays : ((block.setNext status.toState).setNext block.currState).isInTransit = false := by
      rw [Bool.eq_false_iff, ne_eq, FsmBlock.isInTransit_iff]
      exact fun h => h.2 rfl
    refine .inr ⟨fun hmoves => hmoves.2 htakes, block.currState, ?_⟩
    rw [hblock]
    exact congrArg Prod.fst (if_neg (Bool.eq_false_iff.1 hstays))
  · rw [hblock]
    by_cases hcurr : block.currState = status.toState
    · have hstays : ¬ (block.setNext status.toState).isInTransit = true := by
        rw [FsmBlock.isInTransit_iff]
        exact fun h => h.2 hcurr
      rw [if_neg hstays]
      exact .inr ⟨fun hmoves => hmoves.1 hcurr, status.toState, rfl⟩
    · have htransit : (block.setNext status.toState).isInTransit = true :=
        (FsmBlock.isInTransit_iff _).2 ⟨hne, hcurr⟩
      rw [if_pos htransit]
      exact .inl ⟨⟨hcurr, hnot⟩, transit_setNext block status.toState now faults store⟩

theorem enumerated_of_shows {block : FsmBlock} {d : Data δ} (h : Shows block d) :
    d.Enumerated ↔ Recognized block.prevState ∧ Recognized block.currState := by
  rw [Data.Enumerated, h.prevStatus, h.currStatus, parseStatus_enumerated_iff, parseStatus_enumerated_iff]

/-- a reaction publishes known statuses iff the current state of the block is a status, and the previous one as well unless
the reaction moves the block -/
theorem react_enumerated_iff (a : Arith δ) (threshold : Byte) (config : AnalogConfig) (raw voltage : ℤ) (now : Time)
    (faults : Faults) (block : FsmBlock) (store : Store) {status : SoilStatus} (hknown : status.Enumerated)
    (hne : status.toState ≠ 0) :
    (react a threshold config raw voltage now faults block store status).2.2.Enumerated ↔
      Recognized block.currState ∧
        (Recognized block.prevState ∨ Moves a threshold block config raw voltage status) := by
  have hshows := (react_cases a threshold config raw voltage now faults block store status).1
  rw [enumerated_of_shows hshows]
  rcases react_block a threshold config raw voltage now faults block store hne with
    ⟨hmoves, hblock⟩ | ⟨hstays, next, hblock⟩
  · have hcurr : Recognized status.toState := by
      rw [← parseStatus_enumerated_iff, parseStatus_toState]
      exact hknown
    rw [hblock]
    exact ⟨fun hboth => ⟨hboth.1, .inr hmoves⟩, fun hone => ⟨hone.1, hcurr⟩⟩
  · rw [hblock]
    exact ⟨fun hboth => ⟨hboth.2, .inl hboth.1⟩, fun hone => ⟨hone.2.resolve_right hstays, hone.1⟩⟩

/-- the condition on a run is one on its reading -/
theorem recognizes_iff {a : Arith δ} {threshold : Byte} {w : World δ} {i : Input} {raw voltage : ℤ}
    {status : SoilStatus} (hread : i.read = .ok (raw, voltage)) (hstatus : calculateStatus i.config raw = some status) :
    Recognizes a threshold w i ↔ Recognized w.block.currState ∧
      (Recognized w.block.prevState ∨ Moves a threshold w.block i.config raw voltage status) := by
  refine ⟨fun hall => hall raw voltage status hread hstatus, ?_⟩
  rintro hone raw' voltage' status' hread' hstatus'
  obtain ⟨rfl, rfl⟩ := Prod.mk.inj (Except.ok.inj (hread.symm.trans hread'))
  obtain rfl := Option.some.inj (hstatus.symm.trans hstatus')
  exact hone

/-- a run publishes known statuses iff it recognizes what it publishes -/
theorem next_enumerated_iff {a : Arith δ} {threshold : Byte} {clock : ℕ → Time} {w w' : World δ} {i : Input}
    (h : next a threshold clock w i = some w') :
    (∀ d ∈ w'.published, d.Enumerated) ↔ (∀ d ∈ w.published, d.Enumerated) ∧ Recognizes a threshold w i := by
  simp only [next, step] at h
  split at h
  · rename_i code hread
    obtain rfl := Option.some.inj h
    have hvacuous : Recognizes a threshold w i := by
      intro raw voltage status hok
      rw [hread] at hok
      cases hok
    exact (and_iff_left hvacuous).symm
  · rename_i raw voltage hread
    rw [Option.map_map] at h
    obtain ⟨status, hstatus, rfl⟩ := Option.map_eq_some_iff.1 h
    obtain ⟨hknown, hne⟩ := calculateStatus_enumerated hstatus
    have hsame : Moves a threshold (w.block.update (clock w.tick)) i.config raw voltage status ↔
        Moves a threshold w.block i.config raw voltage status :=
      and_congr_right' (not_congr (takesBack_update a threshold w.block _ _ _))
    have hnew := react_enumerated_iff a threshold i.config raw voltage (clock (w.tick + 1)) i.faults
      (w.block.update (clock w.tick)) w.store hknown hne
    rw [hsame] at hnew
    rw [recognizes_iff hread hstatus]
    refine Iff.trans ?_ (and_congr_right' hnew)
    simp only [Function.comp_apply, List.mem_append, List.mem_singleton, or_imp, forall_and, forall_eq]

/-! ## Runs -/

theorem exec_enumerated_iff {a : Arith δ} {threshold : Byte} {clock : ℕ → Time} {w w' : World δ} (is : List Input)
    (h : exec (next a threshold clock) w is = some w') :
    (∀ d ∈ w'.published, d.Enumerated) ↔
      (∀ d ∈ w.published, d.Enumerated) ∧ GuardedExec (next a threshold clock) (Recognizes a threshold) w is := by
  induction is generalizing w with
  | nil =>
    obtain rfl := Option.some.inj h
    exact (and_iff_left trivial).symm
  | cons i is ih =>
    obtain ⟨w₁, hw₁, hrest⟩ := Option.bind_eq_some_iff.1 h
    have htail : (∀ s ∈ next a threshold clock w i, GuardedExec (next a threshold clock) (Recognizes a threshold) s is) ↔
        GuardedExec (next a threshold clock) (Recognizes a threshold) w₁ is := by
      simp only [hw₁, Option.mem_def, Option.some.injEq, forall_eq']
    rw [ih hrest, next_enumerated_iff hw₁, GuardedExec, htail, and_assoc]

/-- both states of the block are statuses -/
def Restored (w : World δ) : Prop := Recognized w.block.prevState ∧ Recognized w.block.currState

theorem recognizes_of_restored {a : Arith δ} {threshold : Byte} {w : World δ} (hw : Restored w) (i : Input) :
    Recognizes a threshold w i :=
  fun _ _ _ _ _ => ⟨hw.2, .inl hw.1⟩

/-- a run without a reading leaves everything as it is -/
theorem next_of_error {a : Arith δ} {threshold : Byte} {clock : ℕ → Time} {w w' : World δ} {i : Input}
    (hread : i.read.isOk = false) (h : next a threshold clock w i = some w') : w' = w := by
  unfold next step at h
  cases hr : i.read with
  | ok r =>
    rw [hr] at hread
    cases hread
  | error code =>
    rw [hr] at h
    exact (Option.some.inj h).symm

/-- a run that publishes and recognizes what it publishes leaves two statuses -/
theorem next_restored {a : Arith δ} {threshold : Byte} {clock : ℕ → Time} {w w' : World δ} {i : Input}
    (hread : i.read.isOk = true) (hone : Recognizes a threshold w i) (h : next a threshold clock w i = some w') :
    Restored w' := by
  unfold next step at h
  cases hr : i.read with
  | error code =>
    rw [hr] at hread
    cases hread
  | ok r =>
    obtain ⟨raw, voltage⟩ := r
    rw [hr] at h
    simp only [Option.map_map] at h
    obtain ⟨status, hstatus, rfl⟩ := Option.map_eq_some_iff.1 h
    obtain ⟨hknown, hne⟩ := calculateStatus_enumerated hstatus
    obtain ⟨hcurr, hprev⟩ := hone raw voltage status hr hstatus
    rcases react_block a threshold i.config raw voltage (clock (w.tick + 1)) i.faults (w.block.update (clock w.tick))
      w.store hne with ⟨-, hblock⟩ | ⟨hstays, n, hblock⟩
    · -- the current state has become the previous one
      have hnew : Recognized status.toState := by
        rw [← parseStatus_enumerated_iff, parseStatus_toState]
        exact hknown
      simp only [Restored, Function.comp_apply, hblock]
      exact ⟨hcurr, hnew⟩
    · have hsame : ¬Moves a threshold w.block i.config raw voltage status :=
        fun hmoves => hstays ⟨hmoves.1, fun htakes => hmoves.2 ((takesBack_update a threshold w.block _ _ _).1 htakes)⟩
      simp only [Restored, Function.comp_apply, hblock]
      exact ⟨hprev.resolve_right hsame, hcurr⟩

theorem guarded_of_restored (a : Arith δ) (threshold : Byte) (clock : ℕ → Time) (is : List Input) {w : World δ}
    (hw : Restored w) : GuardedExec (next a threshold clock) (Recognizes a threshold) w is := by
  induction is generalizing w with
  | nil => trivial
  | cons i is ih =>
    refine ⟨recognizes_of_restored hw i, fun w' hw' => ih ?_⟩
    cases hread : i.read.isOk with
    | false => exact next_of_error hread hw' ▸ hw
    | true => exact next_restored hread (recognizes_of_restored hw i) hw'

/-- **The first reading decides.** What a sequence of runs publishes is known iff it has no reading, or the restored current
state is a status and so is the restored previous one, unless the first run that has a reading moves the block. -/
theorem guarded_iff_first (a : Arith δ) (threshold : Byte) (clock : ℕ → Time) (is : List Input) (w : World δ)
    (hrun : exec (next a threshold clock) w is ≠ none) :
    GuardedExec (next a threshold clock) (Recognizes a threshold) w is ↔
      ∀ i ∈ is.find? fun i => i.read.isOk, Recognizes a threshold w i := by
  induction is with
  | nil => exact iff_of_true trivial (fun i hi => by cases hi)
  | cons i is ih =>
    obtain ⟨w', hw'⟩ : ∃ w', next a threshold clock w i = some w' :=
      Option.ne_none_iff_exists'.1 ((exec_ne_none_iff w (i :: is)).1 hrun).1
    cases hread : i.read.isOk with
    | false =>
      obtain rfl := next_of_error hread hw'
      have hvacuous : Recognizes a threshold w' i := by
        intro raw voltage status hok
        rw [hok] at hread
        cases hread
      have hrest : exec (next a threshold clock) w' is ≠ none := by
        simpa only [exec, hw', Option.bind_some] using hrun
      rw [List.find?_cons_of_neg (by simp [hread]), ← ih hrest, GuardedExec, and_iff_right hvacuous]
      simp only [hw', Option.mem_def, Option.some.injEq, forall_eq']
    | true =>
      have hfind : (i :: is).find? (fun i => i.read.isOk) = some i := List.find?_cons_of_pos hread
      rw [hfind]
      refine ⟨?_, ?_⟩
      · rintro hguarded i' hi'
        obtain rfl := Option.some.inj hi'
        exact hguarded.1
      · intro hfirst
        have hone := hfirst i rfl
        exact ⟨hone, fun w'' hw'' => guarded_of_restored a threshold clock is (next_restored hread hone hw'')⟩

/-- **Published statuses.** Over every storage, with every failure of it, and in every sequence of runs whose status index is
in range: all published statuses are known iff every run that publishes recognizes the current state of the block, and the
previous one unless it moves the block. -/
theorem enumerated_iff (a : Arith δ) (threshold : Byte) (clock : ℕ → Time) (resolution : Resolution) (faults : Faults)
    (store : Store) (is : List Input) (w : World δ)
    (h : exec (next a threshold clock) (.start a resolution faults store) is = some w) :
    (∀ d ∈ w.published, d.Enumerated) ↔
      GuardedExec (next a threshold clock) (Recognizes a threshold) (.start a resolution faults store) is := by
  have hempty : ∀ d ∈ (World.start a resolution faults store).published, d.Enumerated := by
    intro d hd
    cases hd
  exact (exec_enumerated_iff is h).trans (and_iff_right hempty)

theorem enumerated_iff_example :
    ((∀ d ∈ exampleEnd.published, d.Enumerated) ↔ GuardedExec (next exactArith 0 exampleClock) (Recognizes exactArith 0)
      (.start exactArith ⟨1000000, second_ne_zero⟩ .none ∅) ([1, 1, 7].map exampleInput)) ∧
    ∀ d ∈ exampleEnd.published, d.Enumerated :=
  ⟨enumerated_iff exactArith 0 exampleClock ⟨1000000, second_ne_zero⟩ .none ∅ ([1, 1, 7].map exampleInput) exampleEnd
    (Option.some_get _).symm, by decide⟩

def StatusesEnumerated : Prop :=
  ∀ (threshold : Byte) (clock : ℕ → Time) (resolution : Resolution) (faults : Faults) (store : Store) (is : List Input)
    (w : World ℚ), exec (next exactArith threshold clock) (.start exactArith resolution faults store) is = some w →
      ∀ d ∈ w.published, d.Enumerated

/-- a storage with the two states of a block -/
def storedStates (prev curr : State) : Store := KeyedWrites.insertAll ∅ (Record.image ⟨1, prev, 0, curr, 0⟩)

/-- the statuses that runs publish over the two states -/
def publishedStatuses (prev curr : State) (raws : List ℤ) : Option (List (ℕ × ℕ)) :=
  (exampleRun ⟨1000000, second_ne_zero⟩ (storedStates prev curr) raws).map fun w =>
    w.published.map fun d => (d.prevStatus.value.toNat, d.currStatus.value.toNat)

/-- **No status.** A current state of 7 is published as the previous status of the first reading; a previous state of 7 is
published until the status of the soil changes; of a state above a byte, the low byte is published. -/
theorem publishes_no_status : ¬ StatusesEnumerated ∧
    publishedStatuses 0 7 [1, 1] = some [(7, 1), (7, 1)] ∧
    publishedStatuses 7 1 [1, 1, 7] = some [(7, 1), (7, 1), (1, 4)] ∧
    publishedStatuses 0x0109 1 [1] = some [(9, 1)] := by
  have hseven : publishedStatuses 0 7 [1, 1] = some [(7, 1), (7, 1)] := by decide +kernel
  refine ⟨fun h => ?_, hseven, by decide +kernel, by decide +kernel⟩
  obtain ⟨w, hw, hpublished⟩ := Option.map_eq_some_iff.1 hseven
  have hall := h 0 exampleClock ⟨1000000, second_ne_zero⟩ .none (storedStates 0 7) ([1, 1].map exampleInput) w hw
  have hvalues : ∀ v ∈ w.published.map (fun d => (d.prevStatus.value.toNat, d.currStatus.value.toNat)), v.1 < 6 := by
    intro v hv
    obtain ⟨d, hd, rfl⟩ := List.mem_map.1 hv
    exact (enumerated_iff_lt _).1 (hall d hd).1
  rw [hpublished] at hvalues
  exact absurd (hvalues (7, 1) List.mem_cons_self) (by decide)

end ControlComponents.Sensor.Soil
