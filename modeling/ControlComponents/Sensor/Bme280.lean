/-
BME280 `Sensor` (`ocs_sensor/bme280`): the calibration of the device and its measurements of pressure, temperature and
humidity.

The three values of a measurement are computed from one block of registers. Pressure and humidity depend on the fine
temperature, a member that the temperature leaves behind; the pressure is computed before the temperature of its own block.
Machine arithmetic wraps around; the arithmetic of `double` is a parameter.

- `tFine_eq`: the fine temperature a sensor holds is that of the last block it has read.
- `historyFree_iff`: what two sensors with different histories publish for one block. `not_historyFree` is such a pair.
- `decodesCalibration_iff`: the coefficients of the humidity that are stored right. `not_decodesCalibration` shows one that
  is not.
-/
import ControlComponents.Algo.BitOps
import ControlComponents.Lib.Runs
import ControlComponents.Sensor.SoilAnalogSensor

namespace ControlComponents.Bme280

open ControlComponents.Algo ControlComponents.Lib.Runs
open ControlComponents.Sensor.Soil (Arith exactArith)

/-! ## Registers -/

abbrev S32 := BitVec 32
abbrev U32 := BitVec 32
abbrev S64 := BitVec 64

/-- 0xF7 - 0xFE -/
structure RegisterData where
  pressMsb : Byte
  pressLsb : Byte
  pressXlsb : Byte
  tempMsb : Byte
  tempLsb : Byte
  tempXlsb : Byte
  humMsb : Byte
  humLsb : Byte

/-- bit 3 of the status register -/
def measuring (status : Byte) : Bool := status.getLsbD 3

/-- 0x88 - 0xA1 -/
structure CalibrationData1 where
  digT1 : BitVec 16
  digT2 : BitVec 16
  digT3 : BitVec 16
  digP1 : BitVec 16
  digP2 : BitVec 16
  digP3 : BitVec 16
  digP4 : BitVec 16
  digP5 : BitVec 16
  digP6 : BitVec 16
  digP7 : BitVec 16
  digP8 : BitVec 16
  digP9 : BitVec 16
  digH1 : Byte

/-- 0xE1 - 0xE7 -/
structure CalibrationData2 where
  digH2 : BitVec 16
  digH3 : Byte
  digH4 : BitVec 16
  digH5 : BitVec 16
  digH6 : Byte

/-- the `i`-th number of sixteen bits in memory, its low byte first -/
def half (buf : Vector Byte 26) (i : Fin 13) : BitVec 16 :=
  buf[2 * i.val + 1] ++ buf[2 * i.val]

/-- the copy of the registers over the packed structure; the byte before the last is reserved -/
def readCalibration1 (old : CalibrationData1) (received : Except Fault (Vector Byte 26)) : StatusCode × CalibrationData1 :=
  match received with
  | .error e => (e.code, old)
  | .ok buf => (.ok,
      { digT1 := half buf 0, digT2 := half buf 1, digT3 := half buf 2
        digP1 := half buf 3, digP2 := half buf 4, digP3 := half buf 5, digP4 := half buf 6, digP5 := half buf 7
        digP6 := half buf 8, digP7 := half buf 9, digP8 := half buf 10, digP9 := half buf 11
        digH1 := buf[25] })

/-- bytes are promoted to `int` before they are shifted -/
def readCalibration2 (old : CalibrationData2) (received : Except Fault (Vector Byte 7)) : StatusCode × CalibrationData2 :=
  match received with
  | .error e => (e.code, old)
  | .ok buf =>
    let digH4HighBits := buf[3]
    let digH4LowBits := buf[4] &&& 0x0F#8
    let digH5HighBits := buf[5]
    let digH5LowBits := (buf[4] &&& 0xF0#8) >>> 4
    (.ok,
      { digH2 := BitOps.packU8 buf[1] buf[0]
        digH3 := buf[2]
        digH4 := (digH4HighBits.setWidth 32 <<< 4 ||| digH4LowBits.setWidth 32).setWidth 16
        digH5 := (digH5HighBits.setWidth 32 <<< 4 ||| digH5LowBits.setWidth 32).setWidth 16
        digH6 := buf[6] })

/-! ## Measurements -/

def format20bitData (msb lsb xlsb : Byte) : BitVec 32 :=
  let highBits := BitOps.packU8 msb lsb
  let lowBits := (xlsb &&& 0xF0#8) >>> 4
  highBits.setWidth 32 <<< 4 ||| lowBits.setWidth 32

def RegisterData.pressureRaw (block : RegisterData) : S32 := format20bitData block.pressMsb block.pressLsb block.pressXlsb

def RegisterData.temperatureRaw (block : RegisterData) : S32 := format20bitData block.tempMsb block.tempLsb block.tempXlsb

def RegisterData.humidityRaw (block : RegisterData) : S32 := (BitOps.packU8 block.humMsb block.humLsb).setWidth 32

inductive OperationMode where
  | sleep
  | forced
  | normal
deriving DecidableEq

structure Params where
  operationMode : OperationMode
  /-- 0 leaves the pressure as it is -/
  pressureResolution : Byte
  /-- 0 leaves the pressure as it is -/
  pressureDecimalPlaces : Byte
  /-- 0 leaves the humidity as it is -/
  humidityDecimalPlaces : Byte

structure Data (δ : Type) where
  pressure : δ
  temperature : δ
  humidity : δ

structure Sensor (δ : Type) where
  params : Params
  calibration1 : CalibrationData1
  calibration2 : CalibrationData2
  /-- carries fine temperature -/
  tFine : S32
  /-- the published data -/
  data : Data δ

variable {δ : Type}

/-- what the temperature leaves in `t_fine_` -/
def fineTemperature (c : CalibrationData1) (adcT : S32) : S32 :=
  let digT1 : S32 := c.digT1.setWidth 32
  let digT2 : S32 := c.digT2.signExtend 32
  let digT3 : S32 := c.digT3.signExtend 32
  let var1 := ((adcT.sshiftRight 3 - digT1 <<< 1) * digT2).sshiftRight 11
  let var2 := (((adcT.sshiftRight 4 - digT1) * (adcT.sshiftRight 4 - digT1)).sshiftRight 12 * digT3).sshiftRight 14
  var1 + var2

/-- `BME280_compensate_T_int32_` -/
def Sensor.compensateT (s : Sensor δ) (adcT : S32) : S32 × Sensor δ :=
  let s := { s with tFine := fineTemperature s.calibration1 adcT }
  ((s.tFine * 5 + 128).sshiftRight 8, s)

/-- `BME280_compensate_P_int64_` -/
def compensateP (c : CalibrationData1) (tFine adcP : S32) : U32 :=
  let var1 : S64 := tFine.signExtend 64 - 128000
  let var2 : S64 := var1 * var1 * c.digP6.signExtend 64
  let var2 := var2 + (var1 * c.digP5.signExtend 64) <<< 17
  let var2 := var2 + c.digP4.signExtend 64 <<< 35
  let var1 := (var1 * var1 * c.digP3.signExtend 64).sshiftRight 8 + (var1 * c.digP2.signExtend 64) <<< 12
  let var1 := (((1 : S64) <<< 47 + var1) * c.digP1.setWidth 64).sshiftRight 33
  if var1 = 0 then 0
  else
    let p : S64 := (1048576 - adcP).signExtend 64
    let p := ((p <<< 31 - var2) * 3125).sdiv var1
    let var1 := (c.digP9.signExtend 64 * p.sshiftRight 13 * p.sshiftRight 13).sshiftRight 25
    let var2 := (c.digP8.signExtend 64 * p).sshiftRight 19
    let p := (p + var1 + var2).sshiftRight 8 + c.digP7.signExtend 64 <<< 4
    p.setWidth 32

/-- `BME280_compensate_H_int32_` -/
def compensateH (c1 : CalibrationData1) (c2 : CalibrationData2) (tFine adcH : S32) : U32 :=
  let vX1 : S32 := tFine - 76800
  let vX1 := ((adcH <<< 14 - c2.digH4.signExtend 32 <<< 20 - c2.digH5.signExtend 32 * vX1) + 16384).sshiftRight 15 *
    (((((vX1 * c2.digH6.signExtend 32).sshiftRight 10 *
      ((vX1 * c2.digH3.setWidth 32).sshiftRight 11 + 32768)).sshiftRight 10 + 2097152) * c2.digH2.signExtend 32 +
        8192).sshiftRight 14)
  let vX1 := vX1 - ((vX1.sshiftRight 15 * vX1.sshiftRight 15).sshiftRight 7 * c1.digH1.setWidth 32).sshiftRight 4
  let vX1 := if vX1.slt 0 then 0 else vX1
  let vX1 := if (419430400 : S32).slt vX1 then 419430400 else vX1
  vX1.sshiftRight 12

/-- the published pressure, from the compensated one -/
def Params.pressure (params : Params) (a : Arith δ) (compensated : U32) : δ :=
  let pressure := a.div (a.ofInt compensated.toNat) (a.ofInt 256)
  let pressure :=
    if params.pressureResolution ≠ 0#8 then a.div pressure (a.ofInt (10 ^ params.pressureResolution.toNat)) else pressure
  if params.pressureDecimalPlaces ≠ 0#8 then a.roundFloor pressure params.pressureDecimalPlaces.toNat else pressure

/-- the published humidity, from the compensated one -/
def Params.humidity (params : Params) (a : Arith δ) (compensated : U32) : δ :=
  let humidity := a.div (a.ofInt compensated.toNat) (a.ofInt 1024)
  if params.humidityDecimalPlaces ≠ 0#8 then a.roundFloor humidity params.humidityDecimalPlaces.toNat else humidity

def Sensor.readData (s : Sensor δ) (a : Arith δ) (received : Except Fault RegisterData) : StatusCode × Sensor δ :=
  match received with
  | .error e => (e.code, s)
  | .ok block =>
    -- with the fine temperature of the measurement before
    let pressure := s.params.pressure a (compensateP s.calibration1 s.tFine block.pressureRaw)
    let (t, s) := s.compensateT block.temperatureRaw
    let temperature := a.div (a.ofInt t.toInt) (a.ofInt 100)
    let humidity := s.params.humidity a (compensateH s.calibration1 s.calibration2 s.tFine block.humidityRaw)
    (.ok, { s with data := { pressure, temperature, humidity } })

/-- what a run meets on the bus -/
structure Input where
  /-- the status of the write of the configuration -/
  written : StatusCode
  /-- the reads of the status register -/
  polls : List (Except Fault Byte)
  received : Except Fault RegisterData

/-- the loop that waits for the end of a measurement; `none` where the device is measuring at every poll -/
def waitMeasured : List (Except Fault Byte) → Option StatusCode
  | [] => none
  | .error e :: _ => some e.code
  | .ok status :: polls => if measuring status then waitMeasured polls else some .ok

/-- `none` for a run that does not return -/
def Sensor.run (s : Sensor δ) (a : Arith δ) (i : Input) : Option (StatusCode × Sensor δ) :=
  if s.params.operationMode = .forced then
    if i.written ≠ .ok then some (i.written, s)
    else
      match waitMeasured i.polls with
      | none => none
      | some .ok => some (s.readData a i.received)
      | some code => some (code, s)
  else some (s.readData a i.received)

/-- a sensor at the end of its construction, before the run that lets the device stabilise; a read that failed leaves the
calibration zero -/
def Sensor.start (a : Arith δ) (params : Params) (c1 : CalibrationData1) (c2 : CalibrationData2) : Sensor δ where
  params := params
  calibration1 := c1
  calibration2 := c2
  tFine := 0
  data := ⟨a.ofInt 0, a.ofInt 0, a.ofInt 0⟩

def CalibrationData1.zero : CalibrationData1 := ⟨0, 0, 0, 0, 0, 0, 0, 0, 0, 0, 0, 0, 0⟩

def CalibrationData2.zero : CalibrationData2 := ⟨0, 0, 0, 0, 0⟩

/-- the sensor after a run -/
def step (a : Arith δ) (s : Sensor δ) (i : Input) : Option (Sensor δ) := (s.run a i).map Prod.snd

/-- the constructor, whose run is the first of every sensor; what fails is logged only -/
def Sensor.construct (a : Arith δ) (params : Params) (received1 : Except Fault (Vector Byte 26))
    (received2 : Except Fault (Vector Byte 7)) (first : Input) : Option (Sensor δ) :=
  step a (.start a params (readCalibration1 .zero received1).2 (readCalibration2 .zero received2).2) first

/-! ## The fine temperature -/

/-- the block that a run measures, if it comes that far -/
def Input.measured (params : Params) (i : Input) : Option RegisterData :=
  if params.operationMode = .forced ∧ (i.written ≠ .ok ∨ waitMeasured i.polls ≠ some .ok) then none
  else i.received.toOption

/-- a run that returns stops with an error and leaves the sensor as it was, or reads the data -/
theorem run_cases {a : Arith δ} {s s' : Sensor δ} {i : Input} {code : StatusCode} (h : s.run a i = some (code, s')) :
    (code ≠ .ok ∧ i.measured s.params = none ∧ s' = s) ∨
      (∃ block, i.received = .ok block ∧ i.measured s.params = some block ∧ (code, s') = s.readData a (.ok block)) := by
  have hread (hm : i.measured s.params = i.received.toOption) (hr : s.readData a i.received = (code, s')) :
      (code ≠ .ok ∧ i.measured s.params = none ∧ s' = s) ∨
        (∃ block, i.received = .ok block ∧ i.measured s.params = some block ∧ (code, s') = s.readData a (.ok block)) := by
    cases hi : i.received with
    | error e =>
      rw [hi] at hm hr
      obtain ⟨rfl, rfl⟩ := Prod.mk.inj hr
      exact Or.inl ⟨e.failed, hm, rfl⟩
    | ok block =>
      rw [hi] at hm hr
      exact Or.inr ⟨block, rfl, hm, hr.symm⟩
  unfold Sensor.run at h
  by_cases hmode : s.params.operationMode = .forced
  · rw [if_pos hmode] at h
    by_cases hwritten : i.written = .ok
    · rw [if_neg (not_not.2 hwritten)] at h
      cases hwait : waitMeasured i.polls with
      | none => rw [hwait] at h; cases h
      | some polled =>
        rw [hwait] at h
        by_cases hpolled : polled = .ok
        · subst hpolled
          refine hread ?_ (Option.some.inj h)
          simp [Input.measured, hwritten, hwait]
        · have hstop : (code, s') = (polled, s) := by
            cases polled <;> first | exact absurd rfl hpolled | exact (Option.some.inj h).symm
          obtain ⟨rfl, rfl⟩ := Prod.mk.inj hstop
          refine Or.inl ⟨hpolled, ?_, rfl⟩
          simp [Input.measured, hmode, hwait, hpolled]
    · rw [if_pos hwritten] at h
      obtain ⟨rfl, rfl⟩ := Prod.mk.inj (Option.some.inj h)
      refine Or.inl ⟨hwritten, ?_, rfl⟩
      simp [Input.measured, hmode, hwritten]
  · rw [if_neg hmode] at h
    refine hread ?_ (Option.some.inj h)
    simp [Input.measured, hmode]

/-- the fine temperature of the last block of a history, `fine` if it has none -/
def lastFine (params : Params) (c : CalibrationData1) (fine : S32) (h : List Input) : S32 :=
  (h.filterMap (Input.measured params)).getLast?.elim fine fun block => fineTemperature c block.temperatureRaw

/-- what is the same in all states of a sensor, with the fine temperature it holds -/
structure Holds (params : Params) (c1 : CalibrationData1) (c2 : CalibrationData2) (fine : S32) (s : Sensor δ) : Prop where
  params : s.params = params
  calibration1 : s.calibration1 = c1
  calibration2 : s.calibration2 = c2
  tFine : s.tFine = fine

theorem step_holds {a : Arith δ} {params : Params} {c1 : CalibrationData1} {c2 : CalibrationData2} {fine : S32}
    {s s' : Sensor δ} (hs : Holds params c1 c2 fine s) {i : Input} (h : step a s i = some s') :
    Holds params c1 c2 (lastFine params c1 fine [i]) s' := by
  obtain ⟨⟨code, _⟩, hrun, rfl⟩ := Option.map_eq_some_iff.1 h
  rcases run_cases hrun with ⟨-, hm, rfl⟩ | ⟨block, -, hm, hread⟩
  · rw [hs.params] at hm
    simpa [lastFine, hm] using hs
  · rw [hs.params] at hm
    obtain ⟨-, rfl⟩ := Prod.mk.inj hread
    refine ⟨hs.params, hs.calibration1, hs.calibration2, ?_⟩
    simp [lastFine, hm, hs.calibration1]

theorem lastFine_cons (params : Params) (c : CalibrationData1) (fine : S32) (i : Input) (h : List Input) :
    lastFine params c fine (i :: h) = lastFine params c (lastFine params c fine [i]) h := by
  cases hm : i.measured params with
  | none => simp [lastFine, hm]
  | some block =>
    simp only [lastFine, List.filterMap_cons, hm, List.filterMap_nil, List.getLast?_cons]
    cases (h.filterMap (Input.measured params)).getLast? <;> rfl

/-- **The fine temperature** a sensor holds is that of the last block it has read. -/
theorem tFine_eq {a : Arith δ} {params : Params} {c1 : CalibrationData1} {c2 : CalibrationData2} {fine : S32}
    {s t : Sensor δ} (hs : Holds params c1 c2 fine s) {h : List Input} (ht : exec (step a) s h = some t) :
    Holds params c1 c2 (lastFine params c1 fine h) t := by
  induction h generalizing s fine with
  | nil => exact Option.some.inj ht ▸ hs
  | cons i h ih =>
    obtain ⟨s', hs', ht'⟩ := Option.bind_eq_some_iff.1 ht
    rw [lastFine_cons]
    exact ih (step_holds hs hs') ht'

theorem start_holds (a : Arith δ) (params : Params) (c1 : CalibrationData1) (c2 : CalibrationData2) :
    Holds params c1 c2 0 (.start a params c1 c2) := ⟨rfl, rfl, rfl, rfl⟩

/-! ## Histories -/

/-- after a history, the run of the constructor included, a run reads the block and publishes the data -/
def Publishes (a : Arith δ) (params : Params) (c1 : CalibrationData1) (c2 : CalibrationData2) (h : List Input) (i : Input)
    (block : RegisterData) (data : Data δ) : Prop :=
  i.received = .ok block ∧
    ∃ s s', exec (step a) (.start a params c1 c2) h = some s ∧ s.run a i = some (.ok, s') ∧ s'.data = data

/-- what is published depends on the history through the fine temperature that it leaves, in the pressure -/
theorem publishes_data {a : Arith δ} {params : Params} {c1 : CalibrationData1} {c2 : CalibrationData2} {h : List Input}
    {i : Input} {block : RegisterData} {data : Data δ} (hp : Publishes a params c1 c2 h i block data) :
    data =
      { pressure := params.pressure a (compensateP c1 (lastFine params c1 0 h) block.pressureRaw)
        temperature :=
          a.div (a.ofInt ((fineTemperature c1 block.temperatureRaw * 5 + 128).sshiftRight 8).toInt) (a.ofInt 100)
        humidity := params.humidity a
          (compensateH c1 c2 (fineTemperature c1 block.temperatureRaw) block.humidityRaw) } := by
  obtain ⟨hblock, s, s', hs, hrun, rfl⟩ := hp
  obtain ⟨rfl, rfl, rfl, hfine⟩ := tFine_eq (start_holds a params c1 c2) hs
  rcases run_cases hrun with ⟨hcode, -⟩ | ⟨block', hblock', -, hread⟩
  · exact absurd rfl hcode
  · obtain rfl : block = block' := Except.ok.inj (hblock.symm.trans hblock')
    obtain ⟨-, rfl⟩ := Prod.mk.inj hread
    rw [← hfine]

/-- **Histories.** Two sensors with the same parameters and calibration that read the same block publish the same temperature
and humidity; they publish the same pressure iff it comes out the same from the fine temperatures that their histories have
left, and so in particular if these are equal. -/
theorem historyFree_iff {a : Arith δ} {params : Params} {c1 : CalibrationData1} {c2 : CalibrationData2}
    {h₁ h₂ : List Input} {i₁ i₂ : Input} {block : RegisterData} {data₁ data₂ : Data δ}
    (hp₁ : Publishes a params c1 c2 h₁ i₁ block data₁) (hp₂ : Publishes a params c1 c2 h₂ i₂ block data₂) :
    (lastFine params c1 0 h₁ = lastFine params c1 0 h₂ → data₁ = data₂) ∧
      (data₁ = data₂ ↔ params.pressure a (compensateP c1 (lastFine params c1 0 h₁) block.pressureRaw) =
        params.pressure a (compensateP c1 (lastFine params c1 0 h₂) block.pressureRaw)) ∧
      data₁.temperature = data₂.temperature ∧ data₁.humidity = data₂.humidity := by
  rw [publishes_data hp₁, publishes_data hp₂]
  refine ⟨?_, ⟨?_, ?_⟩, rfl, rfl⟩
  · intro hfine
    rw [hfine]
  · intro hdata
    exact congrArg Data.pressure hdata
  · intro hpressure
    rw [hpressure]

/-- the registers 0x88 - 0xA1 of a device -/
def exampleRegisters : Vector Byte 26 :=
  #v[0x70, 0x6B, 0x43, 0x67, 0x18, 0xFC, 0x7D, 0x8E, 0x43, 0xD6, 0xD0, 0x0B, 0x27, 0x0B, 0x8C, 0x00, 0xF9, 0xFF, 0x8C, 0x3C,
    0xF8, 0xC6, 0x70, 0x17, 0x00, 0x4B]

def exampleCalibration1 : CalibrationData1 := (readCalibration1 .zero (.ok exampleRegisters)).2

def exampleCalibration2 : CalibrationData2 := ⟨370, 0, 310, 50, 30⟩

def exampleParams : Params := ⟨.normal, 0, 0, 0⟩

/-- at 25.08 degrees -/
def warmBlock : RegisterData := ⟨0x65, 0x5A, 0xC0, 0x7E, 0xED, 0x00, 0x6E, 0x00⟩

/-- at 4.5 degrees -/
def coldBlock : RegisterData := { warmBlock with tempMsb := 0x6E }

def reading (block : RegisterData) : Input := ⟨.ok, [], .ok block⟩

/-- the second of two measurements in a row of the same block -/
theorem historyFree_iff_settled : ∃ data₁ data₂ : Data ℚ,
    Publishes exactArith exampleParams exampleCalibration1 exampleCalibration2
      [reading coldBlock, reading warmBlock] (reading warmBlock) warmBlock data₁ ∧
    Publishes exactArith exampleParams exampleCalibration1 exampleCalibration2
      [reading warmBlock] (reading warmBlock) warmBlock data₂ ∧
    data₁ = data₂ := by
  have hp₁ : Publishes exactArith exampleParams exampleCalibration1 exampleCalibration2
      [reading coldBlock, reading warmBlock] (reading warmBlock) warmBlock _ := ⟨rfl, _, _, rfl, rfl, rfl⟩
  have hp₂ : Publishes exactArith exampleParams exampleCalibration1 exampleCalibration2
      [reading warmBlock] (reading warmBlock) warmBlock _ := ⟨rfl, _, _, rfl, rfl, rfl⟩
  exact ⟨_, _, hp₁, hp₂, (historyFree_iff hp₁ hp₂).1 rfl⟩

/-- what is published depends on the block that is read only -/
def HistoryFree : Prop :=
  ∀ (params : Params) (c1 : CalibrationData1) (c2 : CalibrationData2) (h₁ h₂ : List Input) (i₁ i₂ : Input)
    (block : RegisterData) (data₁ data₂ : Data ℚ), Publishes exactArith params c1 c2 h₁ i₁ block data₁ →
      Publishes exactArith params c1 c2 h₂ i₂ block data₂ → data₁ = data₂

/-- the pressure after a measurement of one block in the constructor and of another in a run -/
def pressureAfter (first second : RegisterData) : Option ℚ :=
  (Sensor.construct exactArith exampleParams (.ok exampleRegisters) (.ok #v[0x72, 0x01, 0x00, 0x13, 0x26, 0x03, 0x1E])
    (reading first)).bind fun s => (step exactArith s (reading second)).map fun s' => s'.data.pressure

/-- **Not history-free**: the same block gives 975.04 hPa after a cold measurement and 1006.53 hPa after a warm one. -/
theorem not_historyFree : ¬HistoryFree ∧ pressureAfter coldBlock warmBlock = some (390015 / 4) ∧
    pressureAfter warmBlock warmBlock = some (25767233 / 256) := by
  refine ⟨?_, by decide +kernel, by decide +kernel⟩
  intro h
  have hdata := h exampleParams exampleCalibration1 exampleCalibration2 [reading coldBlock] [reading warmBlock]
    (reading warmBlock) (reading warmBlock) warmBlock _ _ ⟨rfl, _, _, rfl, rfl, rfl⟩ ⟨rfl, _, _, rfl, rfl, rfl⟩
  exact absurd (congrArg Data.pressure hdata) (by decide +kernel)

/-! ## Coefficients of the humidity -/

/-- the registers 0xE1 - 0xE7 of a device, which share one byte between two numbers of twelve bits -/
def registers (digH2 : BitVec 16) (digH3 : Byte) (digH4 digH5 : BitVec 12) (digH6 : Byte) : Vector Byte 7 :=
  #v[digH2.extractLsb' 0 8, digH2.extractLsb' 8 8, digH3, digH4.extractLsb' 4 8,
    digH5.extractLsb' 0 4 ++ digH4.extractLsb' 0 4, digH5.extractLsb' 4 8, digH6]

/-- the stored coefficients have the signed values of the device -/
structure Decodes (c : CalibrationData2) (digH2 : BitVec 16) (digH3 : Byte) (digH4 digH5 : BitVec 12) (digH6 : Byte) :
    Prop where
  digH2 : c.digH2.toInt = digH2.toInt
  digH3 : c.digH3.toNat = digH3.toNat
  digH4 : c.digH4.toInt = digH4.toInt
  digH5 : c.digH5.toInt = digH5.toInt
  digH6 : c.digH6.toInt = digH6.toInt

theorem packU8_extract (v : BitVec 16) : BitOps.packU8 (v.extractLsb' 8 8) (v.extractLsb' 0 8) = v := by
  rw [packU8_eq]
  apply BitVec.eq_of_getLsbD_eq
  intro i h
  simp only [BitVec.getLsbD_append, BitVec.getLsbD_extractLsb']
  by_cases hlow : i < 8
  · simp [hlow]
  · have hrest : i - 8 < 8 := by omega
    have hadd : 8 + (i - 8) = i := by omega
    simp [hlow, hrest, hadd]

/-- a number of twelve bits from its high bits and its low bits -/
theorem join12 (v : BitVec 12) :
    ((v.extractLsb' 4 8).setWidth 32 <<< 4 ||| (v.extractLsb' 0 4).setWidth 32).setWidth 16 = v.setWidth 16 := by
  apply BitVec.eq_of_getLsbD_eq
  intro i h
  simp only [BitVec.getLsbD_setWidth, BitVec.getLsbD_or, BitVec.getLsbD_shiftLeft, BitVec.getLsbD_extractLsb']
  by_cases hlow : i < 4
  · have h32 : i < 32 := by omega
    simp [hlow, h32, h]
  · have h32 : i < 32 := by omega
    have hadd : 4 + (i - 4) = i := by omega
    by_cases hhigh : i - 4 < 8
    · have h32' : i - 4 < 32 := by omega
      simp [hlow, h32, h32', h, hadd, hhigh]
    · have hge : v.getLsbD i = false := BitVec.getLsbD_of_ge v i (by omega)
      simp [hlow, h32, h, hadd, hhigh, hge]

theorem low_nibble : ∀ hi lo : BitVec 4, (hi ++ lo &&& 0x0F#8).setWidth 32 = lo.setWidth 32 := by decide +kernel

theorem high_nibble : ∀ hi lo : BitVec 4, ((hi ++ lo &&& 0xF0#8) >>> 4).setWidth 32 = hi.setWidth 32 := by decide +kernel

/-- the numbers of twelve bits are stored without their sign -/
theorem readCalibration2_registers (old : CalibrationData2) (digH2 : BitVec 16) (digH3 : Byte) (digH4 digH5 : BitVec 12)
    (digH6 : Byte) :
    readCalibration2 old (.ok (registers digH2 digH3 digH4 digH5 digH6)) =
      (.ok, ⟨digH2, digH3, digH4.setWidth 16, digH5.setWidth 16, digH6⟩) := by
  have hstored : readCalibration2 old (.ok (registers digH2 digH3 digH4 digH5 digH6)) =
      (.ok,
        { digH2 := BitOps.packU8 (digH2.extractLsb' 8 8) (digH2.extractLsb' 0 8)
          digH3 := digH3
          digH4 := ((digH4.extractLsb' 4 8).setWidth 32 <<< 4 |||
            (digH5.extractLsb' 0 4 ++ digH4.extractLsb' 0 4 &&& 0x0F#8).setWidth 32).setWidth 16
          digH5 := ((digH5.extractLsb' 4 8).setWidth 32 <<< 4 |||
            ((digH5.extractLsb' 0 4 ++ digH4.extractLsb' 0 4 &&& 0xF0#8) >>> 4).setWidth 32).setWidth 16
          digH6 := digH6 }) := rfl
  rw [hstored, packU8_extract, low_nibble, high_nibble, join12, join12]

theorem toInt_setWidth_iff (v : BitVec 12) : (v.setWidth 16).toInt = v.toInt ↔ 0 ≤ v.toInt := by
  have hmod : v.toNat % 2 ^ 16 = v.toNat := Nat.mod_eq_of_lt (by omega)
  simp only [BitVec.toInt_eq_toNat_cond, BitVec.toNat_setWidth, hmod]
  split_ifs <;> omega

/-- **Coefficients.** The two numbers that share a byte are stored right iff they are not negative, the other three
always. -/
theorem decodesCalibration_iff (old : CalibrationData2) (digH2 : BitVec 16) (digH3 : Byte) (digH4 digH5 : BitVec 12)
    (digH6 : Byte) :
    Decodes (readCalibration2 old (.ok (registers digH2 digH3 digH4 digH5 digH6))).2 digH2 digH3 digH4 digH5 digH6 ↔
      0 ≤ digH4.toInt ∧ 0 ≤ digH5.toInt := by
  rw [readCalibration2_registers, ← toInt_setWidth_iff digH4, ← toInt_setWidth_iff digH5]
  refine ⟨?_, ?_⟩
  · intro h
    exact ⟨h.digH4, h.digH5⟩
  · intro h
    exact ⟨rfl, rfl, h.1, h.2, rfl⟩

/-- every coefficient is stored with its signed value -/
def DecodesCalibration : Prop :=
  ∀ (old : CalibrationData2) (digH2 : BitVec 16) (digH3 : Byte) (digH4 digH5 : BitVec 12) (digH6 : Byte),
    Decodes (readCalibration2 old (.ok (registers digH2 digH3 digH4 digH5 digH6))).2 digH2 digH3 digH4 digH5 digH6

/-- **Not so with a negative one**: a device with H4 = -1 is taken for one with H4 = 4095. -/
theorem not_decodesCalibration : ¬DecodesCalibration ∧
    (readCalibration2 .zero (.ok #v[0x72, 0x01, 0x00, 0xFF, 0x2F, 0x03, 0x1E])).2.digH4.toInt = 4095 ∧
      registers 370 0 (-1) 50 30 = #v[0x72, 0x01, 0x00, 0xFF, 0x2F, 0x03, 0x1E] := by
  refine ⟨?_, by decide +kernel, by decide +kernel⟩
  intro h
  exact absurd (h .zero 370 0 (-1) 50 30).digH4 (by decide +kernel)

end ControlComponents.Bme280
