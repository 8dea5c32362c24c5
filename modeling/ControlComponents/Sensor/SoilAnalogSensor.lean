/-
Soil `AnalogSensor` (`ocs_sensor/soil`): the status of the soil from a reading, kept in an `FsmBlock`.

A run updates the duration of the current status, requests the status of the reading, may take the request back where the
reading is close to the boundary, transits the block and publishes what it holds. A transition that cannot be saved is
logged only. The arithmetic of `double` is a parameter: nothing that is proved here depends on it.

- `run_cases`: a run leaves the statuses of the block or moves it to another one.
- `whole_run`: what the published data of two consecutive runs have to do with each other.
-/
import ControlComponents.Control.FsmBlock
import ControlComponents.Lib.Runs
import ControlComponents.Sensor.AnalogConfig

namespace ControlComponents.Sensor.Soil

open ControlComponents.Control ControlComponents.Lib ControlComponents.Lib.Runs ControlComponents.Storage

/-! ## Model -/

/-- `double` -/
structure Arith (δ : Type) where
  ofInt : ℤ → δ
  /-- a literal with decimal places -/
  decimal : ℤ → ℕ → δ
  sub : δ → δ → δ
  mul : δ → δ → δ
  div : δ → δ → δ
  floor : δ → δ
  gt : δ → δ → Bool

variable {δ : Type}

/-- `MathOps::round_floor` -/
def Arith.roundFloor (a : Arith δ) (value : δ) (decimalPlaces : ℕ) : δ :=
  let multiplier := a.ofInt (10 ^ decimalPlaces)
  a.div (a.floor (a.mul value multiplier)) multiplier

/-- an enumeration over a byte; a restored state may be any number -/
structure SoilStatus where
  value : Byte
deriving DecidableEq

namespace SoilStatus

def none : SoilStatus := ⟨0⟩
def saturated : SoilStatus := ⟨1⟩
def wet : SoilStatus := ⟨2⟩
def depletion : SoilStatus := ⟨3⟩
def dry : SoilStatus := ⟨4⟩
def error : SoilStatus := ⟨5⟩
def last : SoilStatus := ⟨6⟩

def toState (status : SoilStatus) : State := status.value.setWidth 16

end SoilStatus

/-- the conversion to the enumeration keeps the low byte of a state -/
def parseStatus (state : State) : SoilStatus :=
  if state < SoilStatus.none.toState ∧ state ≥ SoilStatus.last.toState then .none else ⟨state.setWidth 8⟩

def statuses : List SoilStatus := [.saturated, .wet, .depletion, .dry]

def statusCount : ℤ := statuses.length

def isInvalidInput (config : AnalogConfig) (raw : ℤ) : Bool :=
  decide (raw < config.min.toNat) || decide (raw > config.max.toNat)

/-- `get_status_len_`, an `uint16_t` -/
def statusLen (config : AnalogConfig) : ℤ :=
  (BitVec.ofInt 16 (((config.max.toNat : ℤ) - config.min.toNat).tdiv statusCount)).toNat

/-- `none` where the index is out of range, or the length is 0 -/
def calculateStatus (config : AnalogConfig) (raw : ℤ) : Option SoilStatus :=
  if isInvalidInput config raw then some .error
  else if statusLen config = 0 then none
  else statuses[((raw - config.min.toNat).tdiv (statusLen config)).toNat]?

def calculateMoisture (a : Arith δ) (config : AnalogConfig) (raw : ℤ) : δ :=
  if isInvalidInput config raw then a.ofInt 0
  else
    let range := (config.max.toNat : ℤ) - config.min.toNat
    let offset := raw - config.min.toNat
    let loss := a.div (a.ofInt offset) (a.ofInt range)
    let remain := a.sub (a.ofInt 1) loss
    a.roundFloor (a.mul (a.ofInt 100) remain) 2

def calculateStatusProgress (a : Arith δ) (config : AnalogConfig) (raw : ℤ) : δ :=
  if isInvalidInput config raw then a.ofInt 0
  else
    let offset := raw - config.min.toNat
    let statusIndex := offset.tdiv (statusLen config)
    let statusPos := offset - statusLen config * statusIndex
    let progress := a.roundFloor (a.div (a.ofInt statusPos) (a.ofInt (statusLen config))) 2
    a.mul (a.ofInt 100) progress

structure Data (δ : Type) where
  raw : ℤ
  voltage : ℤ
  moisture : δ
  prevStatus : SoilStatus
  currStatus : SoilStatus
  prevStatusDuration : Time
  currStatusDuration : Time
  writeCount : BitVec 64
  statusProgress : δ

def Data.new (a : Arith δ) : Data δ := ⟨0, 0, a.ofInt 0, .none, .none, 0, 0, 0, a.ofInt 0⟩

/-- the request is taken back where the progress of the new status has not reached the threshold -/
def overrideStatusProgress (a : Arith δ) (threshold : Byte) (block : FsmBlock) (data : Data δ) :
    FsmBlock × Data δ :=
  if threshold = 0 then (block, data)
  else if !block.isInTransit then (block, data)
  else if a.gt data.statusProgress (a.ofInt threshold.toNat) then (block, data)
  else
    let currentStatus := parseStatus block.currState
    let nextStatus := parseStatus block.nextState
    if currentStatus = .none ∨ nextStatus = .error then (block, data)
    else
      let moisturePerStatus := a.div (a.ofInt 100) (a.ofInt statusCount)
      let moistureUsed := a.mul moisturePerStatus (a.ofInt currentStatus.value.toNat)
      let (moisture, progress) :=
        if currentStatus ≠ .error then (a.sub (a.ofInt 100) (a.roundFloor moistureUsed 2), a.decimal 9999 2)
        else (a.ofInt 0, a.ofInt 0)
      (block.setNext block.currState, { data with moisture, statusProgress := progress })

/-- the data with what the block holds -/
def Data.withBlock (data : Data δ) (block : FsmBlock) : Data δ :=
  { data with
    prevStatus := parseStatus block.prevState
    currStatus := parseStatus block.currState
    prevStatusDuration := block.prevStateDur
    currStatusDuration := block.currStateDur
    writeCount := block.writeCount }

/-- the block of a sensor and its storage, the number of readings of the clock, the data and all that has been published -/
structure World (δ : Type) where
  block : FsmBlock
  store : Store
  tick : ℕ
  data : Data δ
  published : List (Data δ)

/-- what a run meets: the configuration, what the reader and the converter report, and which writes fail -/
structure Input where
  config : AnalogConfig
  reader : Except Fault ℤ
  converter : Except Fault ℤ
  faults : Faults

/-- the reading and the voltage, or the status that ends the run before the block is touched -/
def Input.read (i : Input) : Except StatusCode (ℤ × ℤ) :=
  if !i.config.valid then .error .invalidState
  else
    match i.reader with
    | .error e => .error e.code
    | .ok raw =>
      match i.converter with
      | .error e => .error e.code
      | .ok voltage => .ok (raw, voltage)

/-- the part of `run` after `update`: the request, the override, the transition and the data -/
def react (a : Arith δ) (threshold : Byte) (config : AnalogConfig) (raw voltage : ℤ) (now : Time) (faults : Faults)
    (block : FsmBlock) (store : Store) (status : SoilStatus) : FsmBlock × Store × Data δ :=
  let block := block.setNext status.toState
  let data : Data δ :=
    { Data.new a with
      raw
      voltage
      moisture := calculateMoisture a config raw
      statusProgress := calculateStatusProgress a config raw }
  let (block, data) := overrideStatusProgress a threshold block data
  if block.isInTransit then
    let (_, block, store) := block.transit now faults store
    (block, store, data.withBlock block)
  else (block, store, data.withBlock block)

/-- `run`; `none` where the status index is out of range. The clock is read by `update` and by `transit`. -/
def step (a : Arith δ) (threshold : Byte) (clock : ℕ → Time) (w : World δ) (i : Input) :
    Option (StatusCode × World δ) :=
  match i.read with
  | .error code => some (code, w)
  | .ok (raw, voltage) =>
    (calculateStatus i.config raw).map fun status =>
      let (block, store, data) := react a threshold i.config raw voltage (clock (w.tick + 1)) i.faults
        (w.block.update (clock w.tick)) w.store status
      (.ok, ⟨block, store, w.tick + 2, data, w.published ++ [data]⟩)

/-- a sensor over a new block -/
def World.start (a : Arith δ) (resolution : Resolution) (faults : Faults) (store : Store) : World δ :=
  ⟨.init resolution faults store, store, 0, .new a, []⟩

/-! ## The law -/

/-- the status and the number of saves from one published data to the next one -/
structure Follows (d e : Data δ) : Prop where
  same : e.currStatus = d.currStatus →
    e.prevStatus = d.prevStatus ∧ e.prevStatusDuration = d.prevStatusDuration ∧ e.writeCount = d.writeCount
  changed : e.currStatus ≠ d.currStatus →
    e.prevStatus = d.currStatus ∧ e.currStatusDuration = 0 ∧ e.writeCount = d.writeCount + 1

/-- the duration of a status does not decrease while it lasts, and is not lost when it ends -/
structure Lasts (d e : Data δ) : Prop where
  same : e.currStatus = d.currStatus → d.currStatusDuration.toInt ≤ e.currStatusDuration.toInt
  changed : e.currStatus ≠ d.currStatus → d.currStatusDuration.toInt ≤ e.prevStatusDuration.toInt

instance (d e : Data δ) : Decidable (Lasts d e) :=
  decidable_of_iff ((e.currStatus = d.currStatus → d.currStatusDuration.toInt ≤ e.currStatusDuration.toInt) ∧
    (e.currStatus ≠ d.currStatus → d.currStatusDuration.toInt ≤ e.prevStatusDuration.toInt))
    ⟨fun h => ⟨h.1, h.2⟩, fun h => ⟨h.same, h.changed⟩⟩

/-- the state is one of the enumerators, from `None` to `Last` -/
def IsStatus (state : State) : Prop := state ≤ SoilStatus.last.toState

instance (state : State) : Decidable (IsStatus state) := by
  unfold IsStatus; infer_instance

/-- no state is below `None`, so the check of the conversion never applies -/
theorem parseStatus_eq (state : State) : parseStatus state = ⟨state.setWidth 8⟩ := by
  have hnone : ¬ (state < SoilStatus.none.toState ∧ state ≥ SoilStatus.last.toState) := by
    intro h
    obtain ⟨hlt, _⟩ := h
    simp [SoilStatus.none, SoilStatus.toState] at hlt
  rw [parseStatus, if_neg hnone]

theorem parseStatus_inj {s t : State} (hs : IsStatus s) (ht : IsStatus t) (h : parseStatus s = parseStatus t) :
    s = t := by
  rw [parseStatus_eq, parseStatus_eq] at h
  have hs : s.toNat ≤ 6 := hs
  have ht : t.toNat ≤ 6 := ht
  have hnat := congrArg (fun status => status.value.toNat) h
  simp only [BitVec.toNat_setWidth] at hnat
  apply BitVec.eq_of_toNat_eq
  omega

/-- a reading gives one of the enumerators after `None` -/
theorem calculateStatus_mem {config : AnalogConfig} {raw : ℤ} {status : SoilStatus}
    (h : calculateStatus config raw = some status) : IsStatus status.toState := by
  unfold calculateStatus at h
  split_ifs at h
  · obtain rfl := Option.some.inj h
    decide
  · have hmem : status ∈ statuses := List.mem_of_getElem? h
    have hall : ∀ s ∈ statuses, IsStatus s.toState := by decide
    exact hall status hmem

/-! ## One run -/

/-- the data are those of the block -/
structure Shows (block : FsmBlock) (d : Data δ) : Prop where
  prevStatus : d.prevStatus = parseStatus block.prevState
  currStatus : d.currStatus = parseStatus block.currState
  prevStatusDuration : d.prevStatusDuration = block.prevStateDur
  currStatusDuration : d.currStatusDuration = block.currStateDur
  writeCount : d.writeCount = block.writeCount

theorem shows_withBlock (data : Data δ) (block : FsmBlock) : Shows block (data.withBlock block) :=
  ⟨rfl, rfl, rfl, rfl, rfl⟩

theorem override_block (a : Arith δ) (threshold : Byte) (block : FsmBlock) (data : Data δ) :
    (overrideStatusProgress a threshold block data).1 = block ∨
      (overrideStatusProgress a threshold block data).1 = block.setNext block.currState := by
  simp only [overrideStatusProgress]
  split_ifs
  · exact .inl rfl
  · exact .inl rfl
  · exact .inl rfl
  · exact .inl rfl
  · exact .inr rfl
  · exact .inr rfl

/-- a block that has moved to another status and counted the save -/
def arrived (block : FsmBlock) (next : State) (now : Time) : FsmBlock :=
  { (block.setNext next).moved now with writeCount := block.writeCount + 1 }

/-- the data that a reading gives before the block is asked -/
def measured (a : Arith δ) (config : AnalogConfig) (raw voltage : ℤ) : Data δ :=
  { Data.new a with
    raw
    voltage
    moisture := calculateMoisture a config raw
    statusProgress := calculateStatusProgress a config raw }

/-- a reaction from what the override leaves -/
theorem react_eq (a : Arith δ) (threshold : Byte) (config : AnalogConfig) (raw voltage : ℤ) (now : Time)
    (faults : Faults) (block : FsmBlock) (store : Store) (status : SoilStatus) :
    let o := overrideStatusProgress a threshold (block.setNext status.toState) (measured a config raw voltage)
    react a threshold config raw voltage now faults block store status =
      if o.1.isInTransit then
        ((o.1.transit now faults store).2.1, (o.1.transit now faults store).2.2,
          o.2.withBlock (o.1.transit now faults store).2.1)
      else (o.1, store, o.2.withBlock o.1) := rfl

/-- a transition moves the block and counts the save, whether or not the save succeeds -/
theorem transit_setNext (block : FsmBlock) (next : State) (now : Time) (faults : Faults) (store : Store) :
    ((block.setNext next).transit now faults store).2.1 = arrived block next now :=
  congrArg Prod.fst (((block.setNext next).moved now).write_spec faults store).1

/-- a run leaves the block but for the request, or moves it to another status; the data are those of the block -/
theorem react_cases (a : Arith δ) (threshold : Byte) (config : AnalogConfig) (raw voltage : ℤ) (now : Time)
    (faults : Faults) (block : FsmBlock) (store : Store) (status : SoilStatus) :
    let r := react a threshold config raw voltage now faults block store status
    Shows r.1 r.2.2 ∧ ((∃ next, r.1 = block.setNext next) ∨
      (block.currState ≠ status.toState ∧ r.1 = arrived block status.toState now)) := by
  intro r
  set requested := block.setNext status.toState
  have hr : r = _ := react_eq a threshold config raw voltage now faults block store status
  have hblock := override_block a threshold requested (measured a config raw voltage)
  rw [hr]
  split_ifs with htransit
  · refine ⟨shows_withBlock _ _, .inr ?_⟩
    rcases hblock with h | h
    · rw [h] at htransit ⊢
      have hne : block.currState ≠ status.toState := ((FsmBlock.isInTransit_iff requested).1 htransit).2
      exact ⟨hne, transit_setNext block status.toState now faults store⟩
    -- a block whose request was taken back does not move
    · rw [h] at htransit
      have hne : block.currState ≠ block.currState := ((FsmBlock.isInTransit_iff _).1 htransit).2
      exact absurd rfl hne
  · refine ⟨shows_withBlock _ _, .inl ?_⟩
    rcases hblock with h | h
    · exact ⟨status.toState, h⟩
    · exact ⟨block.currState, h⟩

/-! ## Runs -/

/-- the state after a run -/
def next (a : Arith δ) (threshold : Byte) (clock : ℕ → Time) (w : World δ) (i : Input) : Option (World δ) :=
  (step a threshold clock w i).map Prod.snd

/-- what a run does: it ends before the block is touched, or it publishes the data of the block after the reaction -/
theorem next_cases {a : Arith δ} {threshold : Byte} {clock : ℕ → Time} {w w' : World δ} {i : Input}
    (h : next a threshold clock w i = some w') :
    w' = w ∨ ∃ r status block store d, i.read = .ok r ∧ IsStatus status ∧
      w' = ⟨block, store, w.tick + 2, d, w.published ++ [d]⟩ ∧ Shows block d ∧
      ((∃ n, block = (w.block.update (clock w.tick)).setNext n) ∨
        (w.block.currState ≠ status ∧
          block = arrived (w.block.update (clock w.tick)) status (clock (w.tick + 1)))) := by
  simp only [next, step] at h
  split at h
  · exact .inl (Option.some.inj h).symm
  · rename_i raw voltage hread
    rw [Option.map_map] at h
    obtain ⟨status, hstatus, rfl⟩ := Option.map_eq_some_iff.1 h
    obtain ⟨hshows, hblock⟩ := react_cases a threshold i.config raw voltage (clock (w.tick + 1)) i.faults
      (w.block.update (clock w.tick)) w.store status
    exact .inr ⟨(raw, voltage), status.toState, _, _, _, hread, calculateStatus_mem hstatus, rfl, hshows, hblock⟩

/-- the block holds enumerators and is what was published last, and the law has been kept so far -/
structure Inv (w : World δ) : Prop where
  prev : IsStatus w.block.prevState
  curr : IsStatus w.block.currState
  shows : ∀ d ∈ w.published.getLast?, Shows w.block d
  chain : w.published.IsChain Follows

/-- a block that stays in its status -/
theorem follows_of_stay {block : FsmBlock} {now : Time} {n : State} {d e : Data δ} (hd : Shows block d)
    (he : Shows ((block.update now).setNext n) e) : Follows d e ∧ e.currStatus = d.currStatus := by
  have hcurr : e.currStatus = d.currStatus := he.currStatus.trans hd.currStatus.symm
  refine ⟨⟨fun _ => ⟨?_, ?_, ?_⟩, fun hne => absurd hcurr hne⟩, hcurr⟩
  · exact he.prevStatus.trans hd.prevStatus.symm
  · exact he.prevStatusDuration.trans hd.prevStatusDuration.symm
  · exact he.writeCount.trans hd.writeCount.symm

/-- a block that moves to another status -/
theorem follows_of_move {block : FsmBlock} {now later : Time} {status : State} {d e : Data δ} (hd : Shows block d)
    (hcurr : IsStatus block.currState) (hstatus : IsStatus status) (hne : block.currState ≠ status)
    (he : Shows (arrived (block.update now) status later) e) : Follows d e ∧ e.currStatus ≠ d.currStatus := by
  have hchanged : e.currStatus ≠ d.currStatus := by
    intro h
    rw [he.currStatus, hd.currStatus] at h
    exact hne (parseStatus_inj hcurr hstatus h.symm)
  refine ⟨⟨fun h => absurd h hchanged, fun _ => ⟨?_, ?_, ?_⟩⟩, hchanged⟩
  · exact he.prevStatus.trans hd.currStatus.symm
  · exact he.currStatusDuration
  · exact he.writeCount.trans (congrArg (· + 1) hd.writeCount.symm)

theorem isChain_concat {R : Data δ → Data δ → Prop} {l : List (Data δ)} {e : Data δ} (hl : l.IsChain R)
    (he : ∀ d ∈ l.getLast?, R d e) : (l ++ [e]).IsChain R := by
  refine List.isChain_append.2 ⟨hl, List.isChain_singleton e, fun d hd x hx => ?_⟩
  obtain rfl := Option.some.inj hx
  exact he d hd

theorem next_inv {a : Arith δ} {threshold : Byte} {clock : ℕ → Time} (w : World δ) (i : Input) (w' : World δ)
    (hw : Inv w) (h : next a threshold clock w i = some w') : Inv w' := by
  rcases next_cases h with rfl | ⟨r, status, block, store, e, _, hstatus, rfl, hshows, hblock⟩
  · exact hw
  · have hlast : ∀ d ∈ (w.published ++ [e]).getLast?, Shows block d := by
      rw [List.getLast?_concat]
      intro d hd
      exact Option.some.inj hd ▸ hshows
    rcases hblock with ⟨n, rfl⟩ | ⟨hne, rfl⟩
    · refine ⟨hw.prev, hw.curr, hlast, isChain_concat hw.chain fun d hd => ?_⟩
      exact (follows_of_stay (hw.shows d hd) hshows).1
    · refine ⟨hw.curr, hstatus, hlast, isChain_concat hw.chain fun d hd => ?_⟩
      exact (follows_of_move (hw.shows d hd) hw.curr hstatus hne hshows).1

/-! ## Durations -/

/-- `update` does not overflow, if the run comes to it -/
def Fits (clock : ℕ → Time) (w : World δ) (i : Input) : Prop := i.read.isOk = true → w.block.Fits (clock w.tick)

instance (clock : ℕ → Time) (w : World δ) (i : Input) : Decidable (Fits clock w i) := by
  unfold Fits; infer_instance

/-- the duration of the block is that of a reading of the past -/
structure Timed (clock : ℕ → Time) (w : World δ) : Prop where
  inv : Inv w
  resolution : 0 < w.block.resolution.1.toInt
  seen : ∀ d ∈ w.published.getLast?, ∃ now : ℤ, now ≤ (clock w.tick).toInt ∧
    w.block.currStateDur.toInt = w.block.duration now
  chain : w.published.IsChain Lasts

theorem next_timed {a : Arith δ} {threshold : Byte} {clock : ℕ → Time} (hclock : Monotone fun k => (clock k).toInt)
    (w : World δ) (i : Input) (w' : World δ) (hw : Timed clock w) (hfits : Fits clock w i)
    (h : next a threshold clock w i = some w') : Timed clock w' := by
  have hinv := next_inv w i w' hw.inv h
  rcases next_cases h with rfl | ⟨r, status, block, store, e, hread, hstatus, rfl, hshows, hblock⟩
  · exact hw
  · have hdur : (w.block.update (clock w.tick)).currStateDur.toInt = w.block.duration (clock w.tick).toInt :=
      FsmBlock.update_toInt (hfits (by rw [hread]; rfl))
    -- the duration that was published last is not above the one after the update
    have hgrow (d : Data δ) (hd : d ∈ w.published.getLast?) :
        d.currStatusDuration.toInt ≤ (w.block.update (clock w.tick)).currStateDur.toInt := by
      obtain ⟨now, hnow, hseen⟩ := hw.seen d hd
      calc d.currStatusDuration.toInt
          = w.block.duration now := by rw [(hw.inv.shows d hd).currStatusDuration, hseen]
        _ ≤ w.block.duration (clock w.tick).toInt := FsmBlock.duration_mono hw.resolution hnow
        _ = (w.block.update (clock w.tick)).currStateDur.toInt := hdur.symm
    rcases hblock with ⟨n, rfl⟩ | ⟨hne, rfl⟩
    · refine ⟨hinv, hw.resolution, ?_, isChain_concat hw.chain fun d hd => ?_⟩
      · exact fun _ _ => ⟨(clock w.tick).toInt, hclock (Nat.le_add_right _ 2), hdur⟩
      · obtain ⟨_, hsame⟩ := follows_of_stay (hw.inv.shows d hd) hshows
        refine ⟨fun _ => ?_, fun hne => absurd hsame hne⟩
        rw [hshows.currStatusDuration]
        exact hgrow d hd
    · refine ⟨hinv, hw.resolution, ?_, isChain_concat hw.chain fun d hd => ?_⟩
      · refine fun _ _ => ⟨(clock (w.tick + 1)).toInt, hclock (Nat.le_succ _), ?_⟩
        simp [arrived, FsmBlock.moved, FsmBlock.duration]
      · obtain ⟨_, hchanged⟩ := follows_of_move (hw.inv.shows d hd) hw.inv.curr hstatus hne hshows
        refine ⟨fun h => absurd h hchanged, fun _ => ?_⟩
        rw [hshows.prevStatusDuration]
        exact hgrow d hd

/-- **The law of a sensor.** For every new block that holds enumerators, and every sequence of runs with any readings,
threshold, clock and failures: from one published data to the next one the statuses and the number of saves follow each
other, and a run that fails leaves the data and the block. With a positive resolution, a clock that does not go back, and
updates that do not overflow, a duration does not decrease, and is not lost when the status changes. -/
theorem whole_run (a : Arith δ) (threshold : Byte) (clock : ℕ → Time) (resolution : Resolution) (faults : Faults)
    (store : Store) (hprev : IsStatus (FsmBlock.init resolution faults store).prevState)
    (hcurr : IsStatus (FsmBlock.init resolution faults store).currState) (is : List Input) (w : World δ)
    (h : exec (next a threshold clock) (.start a resolution faults store) is = some w) :
    w.published.IsChain Follows ∧
    (0 < resolution.1.toInt → (Monotone fun k => (clock k).toInt) →
      GuardedExec (next a threshold clock) (Fits clock) (.start a resolution faults store) is →
        w.published.IsChain Lasts) ∧
    ∀ i code w', step a threshold clock w i = some (code, w') → code ≠ .ok → w'.data = w.data ∧ w'.block = w.block := by
  have hstart : Inv (World.start a resolution faults store) := by
    refine ⟨hprev, hcurr, fun d hd => ?_, List.isChain_nil⟩
    cases hd
  refine ⟨?_, ?_, ?_⟩
  · have hstep (w : World δ) (i : Input) (w' : World δ) (hw : Inv w) (h : next a threshold clock w i = some w') :
        Inv w' := next_inv w i w' hw h
    exact (exec_inv hstep hstart is h).chain
  · intro hres hclock hfits
    have hstep (w : World δ) (i : Input) (w' : World δ) (hw : Timed clock w) (hf : Fits clock w i)
        (h : next a threshold clock w i = some w') : Timed clock w' := next_timed hclock w i w' hw hf h
    have htimed : Timed clock (World.start a resolution faults store) := by
      refine ⟨hstart, hres, fun d hd => ?_, List.isChain_nil⟩
      cases hd
    exact (guardedExec_inv hstep htimed is hfits h).chain
  · intro i code w' hrun hcode
    simp only [step] at hrun
    split at hrun
    · obtain ⟨-, rfl⟩ := Prod.mk.inj (Option.some.inj hrun)
      exact ⟨rfl, rfl⟩
    · obtain ⟨status, _, heq⟩ := Option.map_eq_some_iff.1 hrun
      exact absurd (congrArg Prod.fst heq).symm hcode

/-- exact arithmetic -/
def exactArith : Arith ℚ where
  ofInt n := n
  decimal n places := n / 10 ^ places
  sub x y := x - y
  mul x y := x * y
  div x y := x / y
  floor x := x.floor
  gt x y := decide (y < x)

/-- a clock that is at 0 for the first run and a second later from then on -/
def exampleClock (k : ℕ) : Time := if k < 2 then 0 else 1000000

theorem exampleClock_mono : Monotone fun k => (exampleClock k).toInt := by
  simp only [exampleClock, apply_ite BitVec.toInt]
  exact monotone_ite_lt (by decide) 2

/-- a reading between 0 and 8; the writes of the block fail -/
def exampleInput (raw : ℤ) : Input :=
  ⟨⟨⟨"soil", 0, 8, 10, .mode1⟩, 0, 8, .mode1⟩, .ok raw, .ok raw, { Faults.none with write := fun _ => some .plain }⟩

/-- a new block with the resolution, over the storage -/
def exampleRun (resolution : Resolution) (store : Store) (raws : List ℤ) : Option (World ℚ) :=
  exec (next exactArith 0 exampleClock) (.start exactArith resolution .none store) (raws.map exampleInput)

def exampleEnd : World ℚ := (exampleRun ⟨1000000, second_ne_zero⟩ ∅ [1, 1, 7]).get (by decide)

theorem whole_run_example : exampleEnd.published.IsChain Follows ∧ exampleEnd.published.IsChain Lasts ∧
    exampleEnd.published.map (fun d => (d.currStatus, d.currStatusDuration)) =
      [(.saturated, 0), (.saturated, 1), (.dry, 0)] := by
  obtain ⟨hfollows, hlasts, _⟩ := whole_run exactArith 0 exampleClock ⟨1000000, second_ne_zero⟩ .none ∅ (by decide)
    (by decide) ([1, 1, 7].map exampleInput) exampleEnd (Option.some_get _).symm
  exact ⟨hfollows, hlasts (by decide) exampleClock_mono (by decide), by decide⟩

def DurationsLast : Prop :=
  ∀ (threshold : Byte) (clock : ℕ → Time), (Monotone fun k => (clock k).toInt) →
    ∀ (resolution : Resolution) (faults : Faults) (store : Store),
      IsStatus (FsmBlock.init resolution faults store).prevState →
      IsStatus (FsmBlock.init resolution faults store).currState →
      ∀ (is : List Input) (w : World ℚ),
        exec (next exactArith threshold clock) (.start exactArith resolution faults store) is = some w →
          w.published.IsChain Lasts

def backwardsEnd : World ℚ := (exampleRun ⟨-1, by decide⟩ ∅ [1, 1]).get (by decide)

/-- a record whose duration is the largest `Time` -/
def longRecord : Record := ⟨1, 2, 0, 1, 0x7fffffffffffffff⟩

def overflowEnd : World ℚ :=
  (exampleRun ⟨1000000, second_ne_zero⟩ (KeyedWrites.insertAll ∅ longRecord.image) [1, 1]).get (by decide +kernel)

/-- **A duration may decrease.** With a negative resolution, which the block accepts, and where the restored duration
overflows. -/
theorem duration_decreases : ¬ DurationsLast ∧
    backwardsEnd.published.map (fun d => d.currStatusDuration.toInt) = [0, -1000000] ∧
    overflowEnd.published.map (fun d => d.currStatusDuration.toInt) = [2 ^ 63 - 1, -2 ^ 63] := by
  refine ⟨fun h => ?_, by decide, by decide +kernel⟩
  have hchain := h 0 exampleClock exampleClock_mono ⟨-1, by decide⟩ .none ∅ (by decide) (by decide)
    ([1, 1].map exampleInput) backwardsEnd (Option.some_get _).symm
  revert hchain
  decide

end ControlComponents.Sensor.Soil
