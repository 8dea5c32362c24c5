/-
Hysteresis of the soil `AnalogSensor` (`ocs_sensor/soil`): a new status counts only from a threshold on.

The progress of a reading is measured from the lower end of its status, whatever the status of the block is: a status that
lies above the one of the block begins at their boundary, one that lies below it ends there.

- `progress_le_iff`: a progress that has not reached the threshold, in exact arithmetic.
- `keeps_iff`: when a reaction keeps the status of the block, and `hysteresis_iff` the same of a run.
- `keeps_far_from_boundary`: runs that keep a status away from its boundaries.
-/
import ControlComponents.Sensor.SoilStatusLookup

namespace ControlComponents.Sensor.Soil

open ControlComponents.Control ControlComponents.Lib ControlComponents.Storage

/-! ## Progress -/

/-- the smallest reading of a status -/
def lowerEnd (config : AnalogConfig) (status : SoilStatus) : ℤ :=
  config.min.toNat + statusLen config * ((status.value.toNat : ℤ) - 1)

/-- the reading lies less than a percent above the threshold, at most, from the lower end of the status -/
def BelowThreshold (threshold : Byte) (config : AnalogConfig) (raw : ℤ) (status : SoilStatus) : Prop :=
  100 * (raw - lowerEnd config status) < (threshold.toNat + 1) * statusLen config

instance (threshold : Byte) (config : AnalogConfig) (raw : ℤ) (status : SoilStatus) :
    Decidable (BelowThreshold threshold config raw status) := by
  unfold BelowThreshold; infer_instance

/-- the progress is a whole number of percents, rounded down -/
theorem progress_eq {config : AnalogConfig} {raw : ℤ} (h : isInvalidInput config raw = false) {status : SoilStatus}
    (hvalue : (status.value.toNat : ℤ) = statusIndex config raw + 1) :
    calculateStatusProgress exactArith config raw =
      ⌊(100 * (raw - lowerEnd config status : ℤ) / statusLen config : ℚ)⌋ := by
  have hindex : statusIndex config raw = status.value.toNat - 1 := by omega
  have hpos : raw - config.min.toNat - statusLen config * (raw - config.min.toNat).tdiv (statusLen config) =
      raw - lowerEnd config status := by
    have hdiv : (raw - config.min.toNat).tdiv (statusLen config) = statusIndex config raw := rfl
    rw [hdiv, hindex, lowerEnd]
    ring
  have hvalid : ¬ isInvalidInput config raw = true := by
    rw [h]
    exact Bool.false_ne_true
  rw [calculateStatusProgress, if_neg hvalid]
  simp only [hpos, exactArith, Arith.roundFloor]
  have hfloor : (((raw - lowerEnd config status : ℤ) : ℚ) / statusLen config * ((10 ^ 2 : ℤ) : ℚ)) =
      100 * (raw - lowerEnd config status : ℤ) / statusLen config := by
    push_cast
    ring
  have hpercent (n : ℤ) : ((100 : ℤ) : ℚ) * (n / ((10 ^ 2 : ℤ) : ℚ)) = n := by
    push_cast
    ring
  rw [hfloor]
  exact hpercent _

theorem progress_le_iff {config : AnalogConfig} {raw : ℤ} (h : isInvalidInput config raw = false)
    (hb : InBounds config raw) {status : SoilStatus} (hvalue : (status.value.toNat : ℤ) = statusIndex config raw + 1)
    (threshold : Byte) :
    exactArith.gt (calculateStatusProgress exactArith config raw) (exactArith.ofInt threshold.toNat) = false ↔
      BelowThreshold threshold config raw status := by
  have hlen : (0 : ℚ) < statusLen config := by
    have hpos : 0 < statusLen config := lt_of_le_of_ne (Int.natCast_nonneg _) hb.divides.symm
    exact_mod_cast hpos
  rw [progress_eq h hvalue]
  simp only [exactArith, decide_eq_false_iff_not, not_lt]
  rw [Int.cast_le, Int.floor_le_iff, div_lt_iff₀ hlen, BelowThreshold]
  norm_cast

/-! ## Reactions -/

theorem parseStatus_toState (status : SoilStatus) : parseStatus status.toState = status := by
  rw [parseStatus_eq, SoilStatus.toState, BitVec.setWidth_setWidth_of_le _ (by decide), BitVec.setWidth_eq]

/-- the override takes the request back -/
structure TakesBack (a : Arith δ) (threshold : Byte) (block : FsmBlock) (data : Data δ) : Prop where
  nonzero : threshold ≠ 0
  transit : block.isInTransit = true
  progress : a.gt data.statusProgress (a.ofInt threshold.toNat) = false
  current : parseStatus block.currState ≠ .none
  next : parseStatus block.nextState ≠ .error

theorem override_fst (a : Arith δ) (threshold : Byte) (block : FsmBlock) (data : Data δ) :
    (TakesBack a threshold block data ∧
      (overrideStatusProgress a threshold block data).1 = block.setNext block.currState) ∨
    (¬ TakesBack a threshold block data ∧ (overrideStatusProgress a threshold block data).1 = block) := by
  simp only [overrideStatusProgress]
  split_ifs with hzero htransit hgt hstatus
  · exact .inr ⟨fun h => h.nonzero hzero, rfl⟩
  · refine .inr ⟨fun h => ?_, rfl⟩
    rw [h.transit] at htransit
    cases htransit
  · refine .inr ⟨fun h => ?_, rfl⟩
    rw [h.progress] at hgt
    cases hgt
  · exact .inr ⟨fun h => hstatus.elim h.current h.next, rfl⟩
  all_goals
    obtain ⟨hcurrent, hnext⟩ := not_or.1 hstatus
    have htransit : block.isInTransit = true := by simpa using htransit
    exact .inl ⟨⟨hzero, htransit, by simpa using hgt, hcurrent, hnext⟩, rfl⟩

/-- a reaction publishes the status of the block or the requested one -/
theorem react_currStatus (a : Arith δ) (threshold : Byte) (config : AnalogConfig) (raw voltage : ℤ) (now : Time)
    (faults : Faults) (block : FsmBlock) (store : Store) {status : SoilStatus} (hne : status.toState ≠ 0) :
    let data := (react a threshold config raw voltage now faults block store status).2.2
    (TakesBack a threshold (block.setNext status.toState) (measured a config raw voltage) ∧
      data.currStatus = parseStatus block.currState) ∨
    (¬ TakesBack a threshold (block.setNext status.toState) (measured a config raw voltage) ∧
      data.currStatus = status) := by
  intro data
  set requested := block.setNext status.toState with hrequested
  set override := overrideStatusProgress a threshold requested (measured a config raw voltage) with hoverride
  have hdata : data = if override.1.isInTransit then override.2.withBlock (override.1.transit now faults store).2.1
      else override.2.withBlock override.1 := by
    have hreact := congrArg (fun r => r.2.2) (react_eq a threshold config raw voltage now faults block store status)
    refine hreact.trans ?_
    split_ifs <;> rfl
  have hblock := override_fst a threshold requested (measured a config raw voltage)
  rw [← hoverride] at hblock
  rcases hblock with ⟨htakes, hfst⟩ | ⟨hnot, hfst⟩
  · refine .inl ⟨htakes, ?_⟩
    have htransit : override.1.isInTransit = false := by
      rw [hfst, Bool.eq_false_iff, ne_eq, FsmBlock.isInTransit_iff]
      exact fun h => h.2 rfl
    rw [hdata, htransit]
    calc (override.2.withBlock override.1).currStatus
        = parseStatus override.1.currState := (shows_withBlock override.2 override.1).currStatus
      _ = parseStatus block.currState := by
        rw [hfst]
        rfl
  · refine .inr ⟨hnot, ?_⟩
    rw [hdata, hfst]
    split_ifs with htransit
    · have hmoved : (requested.transit now faults store).2.1.currState = status.toState := by
        rw [hrequested, transit_setNext]
        rfl
      calc (override.2.withBlock (requested.transit now faults store).2.1).currStatus
          = parseStatus (requested.transit now faults store).2.1.currState := (shows_withBlock override.2 _).currStatus
        _ = parseStatus status.toState := by rw [hmoved]
        _ = status := parseStatus_toState status
    · have hcurr : block.currState = status.toState := by
        rw [FsmBlock.isInTransit_iff, not_and, not_not] at htransit
        exact htransit hne
      calc (override.2.withBlock requested).currStatus
          = parseStatus block.currState := (shows_withBlock override.2 requested).currStatus
        _ = parseStatus status.toState := congrArg parseStatus hcurr
        _ = status := parseStatus_toState status

/-! ## The law -/

/-- the status that a run publishes is not the one of its reading -/
def Keeps (threshold : Byte) (config : AnalogConfig) (raw : ℤ) (current status : SoilStatus) : Prop :=
  threshold ≠ 0 ∧ current ≠ .none ∧ current ≠ status ∧ BelowThreshold threshold config raw status

instance (threshold : Byte) (config : AnalogConfig) (raw : ℤ) (current status : SoilStatus) :
    Decidable (Keeps threshold config raw current status) := by
  unfold Keeps; infer_instance

theorem keeps_iff (threshold : Byte) {config : AnalogConfig} {raw : ℤ} (voltage : ℤ) (now : Time) (faults : Faults)
    (block : FsmBlock) (store : Store) (h : isInvalidInput config raw = false) (hb : InBounds config raw)
    {status : SoilStatus} (hvalue : (status.value.toNat : ℤ) = statusIndex config raw + 1) :
    let data := (react exactArith threshold config raw voltage now faults block store status).2.2
    let current := parseStatus block.currState
    (data.currStatus = status ∨ data.currStatus = current) ∧
      (data.currStatus ≠ status ↔ Keeps threshold config raw current status) := by
  intro data current
  have hindex := hb.nonneg
  have hlt := hb.lt
  have hcount : statusCount = 4 := rfl
  have hvalid : status.toState ≠ 0 ∧ status ≠ .error := by
    refine ⟨fun hzero => ?_, fun herror => ?_⟩
    · have hnone : status = .none := by rw [← parseStatus_toState status, hzero]; rfl
      have hnat : status.value.toNat = 0 := by rw [hnone]; rfl
      omega
    · have hnat : status.value.toNat = 5 := by rw [herror]; rfl
      omega
  have hnext : parseStatus (block.setNext status.toState).nextState ≠ .error := by
    rw [FsmBlock.setNext, parseStatus_toState]
    exact hvalid.2
  -- without a change of the status, nothing is kept
  have htransit (hne : current ≠ status) : (block.setNext status.toState).isInTransit = true := by
    rw [FsmBlock.isInTransit_iff]
    refine ⟨hvalid.1, fun heq => hne ?_⟩
    exact (congrArg parseStatus heq).trans (parseStatus_toState status)
  have hprogress := progress_le_iff h hb hvalue threshold
  rcases react_currStatus exactArith threshold config raw voltage now faults block store hvalid.1 with
    ⟨htakes, hcurr⟩ | ⟨hnot, hcurr⟩
  · refine ⟨.inr hcurr, fun hne => ?_, fun hkeeps => ?_⟩
    · rw [hcurr] at hne
      exact ⟨htakes.nonzero, htakes.current, hne, hprogress.1 htakes.progress⟩
    · rw [hcurr]
      exact hkeeps.2.2.1
  · refine ⟨.inl hcurr, fun hne => absurd hcurr hne, fun ⟨hzero, hcurrent, hne, hbelow⟩ => ?_⟩
    exact absurd ⟨hzero, htransit hne, hprogress.2 hbelow, hcurrent, hnext⟩ hnot

/-- the readings of a configuration with statuses of one length have a status, but for the maximum -/
theorem inBounds_of_dvd {config : AnalogConfig} {raw : ℤ} (hdvd : statusCount ∣ range config)
    (hmin : config.min.toNat ≤ raw) (hmax : raw < config.max.toNat) :
    isInvalidInput config raw = false ∧ InBounds config raw := by
  have hvalid : isInvalidInput config raw = false := by
    rw [isInvalidInput_eq_false, offset, range]
    omega
  refine ⟨hvalid, ?_⟩
  have hfits : statusCount * (range config / statusCount) = range config := Int.mul_ediv_cancel' hdvd
  have hlt : offset config raw < range config := by
    rw [offset, range]
    omega
  have hpos : 0 < range config := by
    have hoffset := (isInvalidInput_eq_false.1 hvalid).1
    omega
  rw [inBounds_iff hvalid, hfits]
  exact ⟨Int.le_of_dvd hpos hdvd, hlt⟩

/-- **Hysteresis.** For every block, every valid configuration whose range is a multiple of the number of statuses, every
reading below the maximum and every threshold, in exact arithmetic: a run publishes the status of the reading or the one
of the block, and keeps the latter iff the block has one and the reading has not passed the threshold, measured from the
lower end of its status. -/
theorem hysteresis_iff (threshold : Byte) (clock : ℕ → Time) (w : World ℚ) (i : Input) {raw voltage : ℤ}
    (hread : i.read = .ok (raw, voltage)) (hdvd : statusCount ∣ range i.config) (hmin : i.config.min.toNat ≤ raw)
    (hmax : raw < i.config.max.toNat) :
    ∃ status w', calculateStatus i.config raw = some status ∧
      step exactArith threshold clock w i = some (.ok, w') ∧
      (w'.data.currStatus = status ∨ w'.data.currStatus = parseStatus w.block.currState) ∧
      (w'.data.currStatus ≠ status ↔ Keeps threshold i.config raw (parseStatus w.block.currState) status) := by
  obtain ⟨hvalid, hb⟩ := inBounds_of_dvd hdvd hmin hmax
  rcases calculateStatus_cases hvalid with ⟨-, status, hstatus, hvalue⟩ | ⟨hnot, -⟩
  · have hkeeps := keeps_iff threshold voltage (clock (w.tick + 1)) i.faults (w.block.update (clock w.tick)) w.store
      hvalid hb hvalue
    set r := react exactArith threshold i.config raw voltage (clock (w.tick + 1)) i.faults
      (w.block.update (clock w.tick)) w.store status with hr
    refine ⟨status, ⟨r.1, r.2.1, w.tick + 2, r.2.2, w.published ++ [r.2.2]⟩, hstatus, ?_, hkeeps⟩
    simp only [step, hread, hstatus, Option.map_some, hr]
  · exact absurd hb hnot

/-- a world whose block has restored the state -/
def restored (state : State) : World ℚ :=
  .start exactArith ⟨1000000, second_ne_zero⟩ .none (KeyedWrites.insertAll ∅ (Record.image ⟨1, 0, 0, state, 0⟩))

/-- the status that a run publishes, with a threshold of 10 percent and a range of 8 -/
def publishes (current : SoilStatus) (raw : ℤ) : Option SoilStatus :=
  (step exactArith 10 exampleClock (restored current.toState) (exampleInput raw)).map fun r => r.2.data.currStatus

/-- just above the boundary the status is kept, in the middle it is not -/
theorem hysteresis_iff_example :
    (∃ w', step exactArith 10 exampleClock (restored SoilStatus.saturated.toState) (exampleInput 2) = some (.ok, w') ∧
      w'.data.currStatus ≠ .wet) ∧ publishes .saturated 3 = some .wet := by
  obtain ⟨status, w', hstatus, hstep, -, hiff⟩ := hysteresis_iff 10 exampleClock
    (restored SoilStatus.saturated.toState) (exampleInput 2) rfl (by decide) (by decide) (by decide)
  have hwet : calculateStatus (exampleInput 2).config 2 = some .wet := by decide
  obtain rfl := Option.some.inj (hwet.symm.trans hstatus)
  exact ⟨⟨w', hstep, hiff.2 (by decide +kernel)⟩, by decide +kernel⟩

/-- the statuses are neighbours, and the reading is within the threshold from the lower end of the drier one -/
def NearBoundary (threshold : Byte) (config : AnalogConfig) (raw : ℤ) (current status : SoilStatus) : Prop :=
  (current.value.toNat + 1 = status.value.toNat ∧
      100 * |raw - lowerEnd config status| ≤ threshold.toNat * statusLen config) ∨
    (status.value.toNat + 1 = current.value.toNat ∧
      100 * |raw - lowerEnd config current| ≤ threshold.toNat * statusLen config)

instance (threshold : Byte) (config : AnalogConfig) (raw : ℤ) (current status : SoilStatus) :
    Decidable (NearBoundary threshold config raw current status) := by
  unfold NearBoundary; infer_instance

def KeepsNearBoundary : Prop :=
  ∀ (threshold : Byte) (clock : ℕ → Time) (w : World ℚ) (i : Input) (raw voltage : ℤ), i.read = .ok (raw, voltage) →
    statusCount ∣ range i.config → i.config.min.toNat ≤ raw → raw < i.config.max.toNat →
      ∀ status w', calculateStatus i.config raw = some status →
        step exactArith threshold clock w i = some (.ok, w') → w'.data.currStatus ≠ status →
          parseStatus w.block.currState = .error ∨
            NearBoundary threshold i.config raw (parseStatus w.block.currState) status

/-- **Kept away from the boundary.** The smallest reading, in a soil that was dry or wet before: the sensor does not
publish that it is saturated. -/
theorem keeps_far_from_boundary : ¬ KeepsNearBoundary ∧ publishes .dry 0 = some .dry ∧ publishes .wet 0 = some .wet := by
  have hdry : publishes .dry 0 = some .dry := by decide +kernel
  refine ⟨fun h => ?_, hdry, by decide +kernel⟩
  obtain ⟨r, hstep, hcurr⟩ := Option.map_eq_some_iff.1 hdry
  have hcode : r.1 = .ok := by
    simp only [step] at hstep
    obtain ⟨status, -, hpair⟩ := Option.map_eq_some_iff.1 hstep
    exact (congrArg Prod.fst hpair).symm
  have hne : r.2.data.currStatus ≠ .saturated := by
    rw [hcurr]
    decide
  have hnear := h 10 exampleClock (restored SoilStatus.dry.toState) (exampleInput 0) 0 0 rfl (by decide) (by decide)
    (by decide) .saturated r.2 (by decide) (by rw [hstep, ← hcode]) hne
  revert hnear
  decide +kernel

end ControlComponents.Sensor.Soil
