/-
The life of a BME280 `Sensor`: its construction, and runs over a bus whose transactions may fail at any byte.

- `constructOnBus_spec`: what the constructor leaves in the sensor and in the chip.
- `bus_law`: what a run publishes is computed from the chip's registers, which hold its last conversion or the reset values;
  in forced mode that conversion has been started in this run and with the oversampling of the parameters.
- `settings_law`: the registers that hold the parameters, after any failures, and the one that may not.
-/
import ControlComponents.Sensor.Bme280Bus

namespace ControlComponents.Bme280

open ControlComponents.Algo ControlComponents.Lib.RegisterBus ControlComponents.Lib.Runs
open ControlComponents.Sensor.Soil (Arith exactArith)

variable {δ : Type}

/-! ## Construction and runs -/

/-- the transactions of the constructor -/
structure Construction where
  reset : Exchange
  id : Exchange
  write : Exchange
  readBack : Exchange
  calibration1 : Exchange
  calibration2 : Exchange
  first : Transactions

/-- the constructor, which only logs what fails -/
def Sensor.constructOnBus (a : Arith δ) (p : SensorParams) (c : Chip) (x : Construction) : Option (Sensor δ × Chip) :=
  let (_, c) := sendReset c x.reset
  let (_, c) := SpiTransceiver.receive c x.id 1 0xD0#8
  let (_, c) := p.writeConfiguration c x.write
  let (_, c) := SpiTransceiver.receive c x.readBack 4 0xF2#8
  let (received1, c) := SpiTransceiver.receive c x.calibration1 26 0x88#8
  let (received2, c) := SpiTransceiver.receive c x.calibration2 7 0xE1#8
  let s := Sensor.start a p.toParams (readCalibration1 .zero received1).2 (readCalibration2 .zero received2).2
  (s.runOnBus a p c x.first).map Prod.snd

/-- one step of a life -/
def runStep (a : Arith δ) (p : SensorParams) (n : Sensor δ × Chip) (t : Transactions) : Option (Sensor δ × Chip) :=
  (n.1.runOnBus a p n.2 t).map Prod.snd

/-- the construction and the runs of a sensor -/
def life (a : Arith δ) (p : SensorParams) (c : Chip) (x : Construction) (ts : List Transactions) :
    Option (Sensor δ × Chip) :=
  (Sensor.constructOnBus a p c x).bind fun n => exec (runStep a p) n ts

/-! ## What the constructor leaves -/

/-- two registers, the lower byte first -/
def Chip.word (c : Chip) (addr : Byte) : BitVec 16 := c.factory (addr + 1) ++ c.factory addr

/-- the coefficients of temperature and pressure, and the first one of the humidity -/
def Chip.calibration1 (c : Chip) : CalibrationData1 where
  digT1 := c.word 0x88
  digT2 := c.word 0x8A
  digT3 := c.word 0x8C
  digP1 := c.word 0x8E
  digP2 := c.word 0x90
  digP3 := c.word 0x92
  digP4 := c.word 0x94
  digP5 := c.word 0x96
  digP6 := c.word 0x98
  digP7 := c.word 0x9A
  digP8 := c.word 0x9C
  digP9 := c.word 0x9E
  digH1 := c.factory 0xA1

/-- eight bits in one register, the other four in the lower half of the next -/
def Chip.digH4 (c : Chip) : BitVec 12 := c.factory 0xE4 ++ (c.factory 0xE5).extractLsb' 0 4

/-- eight bits in one register, the other four in the upper half of the one before -/
def Chip.digH5 (c : Chip) : BitVec 12 := c.factory 0xE6 ++ (c.factory 0xE5).extractLsb' 4 4

/-- a number that is read without its sign -/
def unsigned (v : BitVec 12) : ℤ := if v.toInt < 0 then v.toInt + 4096 else v.toInt

/-- the other coefficients of the humidity as a sensor reads them: two of them without their sign -/
structure Chip.Calibrates (chip : Chip) (c : CalibrationData2) : Prop where
  digH2 : c.digH2 = chip.word 0xE1
  digH3 : c.digH3 = chip.factory 0xE3
  digH4 : c.digH4.toInt = unsigned chip.digH4
  digH5 : c.digH5.toInt = unsigned chip.digH5
  digH6 : c.digH6 = chip.factory 0xE7

theorem read_factory (c : Chip) {addr : Byte} (h : addr < 0xF2#8) : c.read addr = c.factory addr := by
  simp only [Chip.read]
  split <;> first | rfl | exact absurd h (by decide)

theorem read_calibration1 (c : Chip) (i : Fin 26) :
    c.read (0x88#8 + BitVec.ofNat 8 i) = c.factory (0x88#8 + BitVec.ofNat 8 i) := by
  have h : ∀ i : Fin 26, 0x88#8 + BitVec.ofNat 8 i < 0xF2#8 := by decide
  exact read_factory c (h i)

theorem read_calibration2 (c : Chip) (i : Fin 7) :
    c.read (0xE1#8 + BitVec.ofNat 8 i) = c.factory (0xE1#8 + BitVec.ofNat 8 i) := by
  have h : ∀ i : Fin 7, 0xE1#8 + BitVec.ofNat 8 i < 0xF2#8 := by decide
  exact read_factory c (h i)

/-- the registers of the configuration hold the parameters -/
structure Chip.Configured (p : SensorParams) (c : Chip) : Prop where
  ctrlHum : c.ctrlHum = p.ctrlHum
  osrs : c.ctrlMeas >>> 2 = p.ctrlMeas >>> 2
  config : p.operationMode ≠ .normal ∨ c.ignoresConfig = false → c.config = p.config

/-- what no write of a register changes -/
structure Chip.Same (chip c : Chip) : Prop where
  factory : c.factory = chip.factory
  ignoresConfig : c.ignoresConfig = chip.ignoresConfig

theorem Chip.Same.write {chip c : Chip} (h : Same chip c) (addr b : Byte) : Same chip (c.write addr b) := by
  simp only [Chip.write]
  split
  · split <;> exact ⟨h.factory, h.ignoresConfig⟩
  · exact ⟨h.factory, h.ignoresConfig⟩
  · obtain ⟨hfactory, hignores, -⟩ := writeCtrlMeas_spec c b
    exact ⟨hfactory.trans h.factory, hignores.trans h.ignoresConfig⟩
  · split <;> exact ⟨h.factory, h.ignoresConfig⟩
  · exact h

theorem Chip.Same.own {chip c : Chip} (h : Same chip c) (o : Own) : Same chip (c.own o) := by
  rcases own_cases c o with hown | ⟨-, hown⟩ | ⟨v, data, -, ⟨-, hown⟩ | ⟨-, ctrlMeas, -, hown⟩⟩
  all_goals rw [hown]; exact ⟨h.factory, h.ignoresConfig⟩

theorem Chip.Same.wait {chip c : Chip} (h : Same chip c) (x : Exchange) : Same chip (c.wait x) := by
  have hown (d : Chip) (o : Own) (hd : Same chip d) : Same chip (d.own o) := hd.own o
  exact run_preserves hown h x.own

theorem kept_same (p : SensorParams) (chip : Chip) : Kept p (Chip.Same chip) := by
  refine ⟨fun c o hc => hc.own o, ?_⟩
  intro c k hc
  apply writeAll_preserves ?_ hc
  intro w _ d hd
  exact hd.write w.1 w.2

theorem kept_configured (p : SensorParams) : Kept p (Chip.Configured p) := by
  refine ⟨?_, ?_⟩
  · intro c o hc
    rcases own_cases c o with hown | ⟨-, hown⟩ | ⟨v, data, -, ⟨-, hown⟩ | ⟨-, ctrlMeas, hosrs, hown⟩⟩
    · rwa [hown]
    · rw [hown]
      exact ⟨hc.ctrlHum, hc.osrs, hc.config⟩
    · rw [hown]
      exact ⟨hc.ctrlHum, hc.osrs, hc.config⟩
    · rw [hown]
      exact ⟨hc.ctrlHum, hosrs.trans hc.osrs, hc.config⟩
  · intro c k hc
    apply writeAll_preserves ?_ hc
    intro w hw d hd
    have hmem : w ∈ p.configuration := List.mem_of_mem_take hw
    simp only [SensorParams.configuration, List.mem_cons, List.not_mem_nil, or_false] at hmem
    -- every register is written with the value that it holds
    rcases hmem with rfl | rfl | rfl | rfl
    · exact ⟨rfl, hd.osrs, hd.config⟩
    · exact hd
    · obtain ⟨-, hignores, hhum, hmeas, hconfig⟩ := writeCtrlMeas_spec d p.ctrlMeas
      refine ⟨hhum.trans hd.ctrlHum, congrArg (fun b : Byte => b >>> 2) hmeas, ?_⟩
      intro hmode
      exact hconfig.trans (hd.config (hignores ▸ hmode))
    · rw [show Chip.registers.write d 0xF5#8 p.config = d.write 0xF5#8 p.config from rfl, write_config]
      refine ⟨hd.ctrlHum, hd.osrs, ?_⟩
      intro hmode
      dsimp only
      split_ifs
      · exact hd.config hmode
      · rfl

/-- all four writes configure any chip -/
theorem configured_of_configuration (p : SensorParams) (c : Chip) :
    (writeAll Chip.registers c p.configuration).Configured p := by
  obtain ⟨-, hignores, hhum, hmeas, -⟩ := writeCtrlMeas_spec { c with ctrlHum := p.ctrlHum } p.ctrlMeas
  rw [writeAll_configuration, write_config]
  refine ⟨hhum, congrArg (fun b : Byte => b >>> 2) hmeas, ?_⟩
  intro hmode
  refine if_neg ?_
  rintro ⟨hchip, hnormal⟩
  rw [hmeas, modeOf_ctrlMeas] at hnormal
  rcases hmode with hmode | hmode
  · exact hmode hnormal
  · exact Bool.false_ne_true (hmode.symm.trans hchip)

/-- in normal mode the mode is written before `config`, and a chip that may ignore the write ignores it -/
theorem kept_config_zero {p : SensorParams} (hnormal : p.operationMode = .normal) :
    Kept p fun c => c.ignoresConfig = true ∧ c.config = 0#8 := by
  refine ⟨?_, ?_⟩
  · intro c o hc
    rcases own_cases c o with hown | ⟨-, hown⟩ | ⟨v, data, -, ⟨-, hown⟩ | ⟨-, ctrlMeas, -, hown⟩⟩
    all_goals rw [hown]; exact hc
  · rintro c k ⟨hignores, hzero⟩
    obtain ⟨-, hkeeps, -, hmeas, hconfig⟩ := writeCtrlMeas_spec { c with ctrlHum := p.ctrlHum } p.ctrlMeas
    match k with
    | 0 => exact ⟨hignores, hzero⟩
    | 1 => exact ⟨hignores, hzero⟩
    | 2 => exact ⟨hignores, hzero⟩
    | 3 => exact ⟨hkeeps.trans hignores, hconfig.trans hzero⟩
    | k + 4 =>
      have hall : p.configuration.take (k + 4) = p.configuration :=
        List.take_of_length_le (Nat.le_add_left 4 k)
      rw [hall, writeAll_configuration, write_config]
      refine ⟨hkeeps.trans hignores, ?_⟩
      dsimp only
      rw [hmeas, modeOf_ctrlMeas, if_pos ⟨hkeeps.trans hignores, hnormal⟩]
      exact hconfig.trans hzero

/-- the fine temperature, the temperature and the humidity are those of a block of registers -/
structure Sensor.Shows (a : Arith δ) (block : RegisterData) (s : Sensor δ) : Prop where
  tFine : s.tFine = fineTemperature s.calibration1 block.temperatureRaw
  temperature : s.data.temperature = a.div (a.ofInt ((s.tFine * 5 + 128).sshiftRight 8).toInt) (a.ofInt 100)
  humidity : s.data.humidity =
    s.params.humidity a (compensateH s.calibration1 s.calibration2 s.tFine block.humidityRaw)

/-- what a sensor has from its construction, and that it shows the last block it has read, if it has read one -/
structure Sensor.Built (a : Arith δ) (p : SensorParams) (chip : Chip) (x : Construction) (s : Sensor δ) : Prop where
  params : s.params = p.toParams
  calibration1 : s.calibration1 = if x.calibration1.broken = none then chip.calibration1 else .zero
  calibration2 : if x.calibration2.broken = none then chip.Calibrates s.calibration2 else s.calibration2 = .zero
  shows : s.tFine = 0 ∨ ∃ block, s.Shows a block

theorem readData_shows (a : Arith δ) (s : Sensor δ) (block : RegisterData) :
    (s.readData a (.ok block)).2.Shows a block ∧
      (s.readData a (.ok block)).2.data.pressure =
        s.params.pressure a (compensateP s.calibration1 s.tFine block.pressureRaw) :=
  ⟨⟨rfl, rfl, rfl⟩, rfl⟩

theorem Sensor.Built.run {a : Arith δ} {p : SensorParams} {chip : Chip} {x : Construction} {s s' : Sensor δ}
    (h : s.Built a p chip x) {c c' : Chip} {t : Transactions} {code : StatusCode}
    (hrun : s.runOnBus a p c t = some (code, s', c')) : s'.Built a p chip x := by
  rcases runOnBus_cases hrun with ⟨-, rfl⟩ | ⟨-, rfl⟩
  · exact h
  · exact ⟨h.params, h.calibration1, h.calibration2, .inr ⟨_, (readData_shows a s c'.data).1⟩⟩

theorem half_ofFn (f : Byte → Byte) (i : Fin 13) :
    half (Vector.ofFn fun j : Fin 26 => f (0x88#8 + BitVec.ofNat 8 j)) i =
      f (0x88#8 + BitVec.ofNat 8 (2 * i.val + 1)) ++ f (0x88#8 + BitVec.ofNat 8 (2 * i.val)) := by
  simp [half]

/-- the packed structure over the registers -/
theorem readCalibration1_factory (chip : Chip) :
    (readCalibration1 .zero (.ok (Vector.ofFn fun j : Fin 26 => chip.factory (0x88#8 + BitVec.ofNat 8 j)))).2 =
      chip.calibration1 := by
  simp only [readCalibration1, half_ofFn]
  rw [Vector.getElem_ofFn]
  rfl

/-- the coefficients that a read leaves -/
theorem readCalibration1_received (chip : Chip) {c : Chip} (hc : chip.Same c) (x : Exchange) :
    (readCalibration1 .zero (SpiTransceiver.receive c x 26 0x88#8).1).2 =
      if x.broken = none then chip.calibration1 else .zero := by
  have hwait : chip.Same (c.wait x) := hc.wait x
  rw [receive_spec c x 26 rfl]
  cases x.broken with
  | some k => rfl
  | none =>
    simp only [if_true, read_calibration1, hwait.factory]
    exact readCalibration1_factory chip

theorem toInt_setWidth_unsigned (v : BitVec 12) : (v.setWidth 16).toInt = unsigned v := by
  have hmod : v.toNat % 2 ^ 16 = v.toNat := Nat.mod_eq_of_lt (by omega)
  simp only [unsigned, BitVec.toInt_eq_toNat_cond, BitVec.toNat_setWidth, hmod]
  split_ifs <;> omega

/-- the registers of a chip are laid out as those of a device with its coefficients -/
theorem factory_registers (chip : Chip) :
    (Vector.ofFn fun i : Fin 7 => chip.factory (0xE1#8 + BitVec.ofNat 8 i)) =
      registers (chip.word 0xE1) (chip.factory 0xE3) chip.digH4 chip.digH5 (chip.factory 0xE7) := by
  have hlow (a b : Byte) : (a ++ b).extractLsb' 0 8 = b := BitVec.extractLsb'_append_eq_right
  have hhigh (a b : Byte) : (a ++ b).extractLsb' 8 8 = a := BitVec.extractLsb'_append_eq_left
  have hrest (a : Byte) (b : BitVec 4) : (a ++ b).extractLsb' 4 8 = a ∧ (a ++ b).extractLsb' 0 4 = b :=
    ⟨BitVec.extractLsb'_append_eq_left, BitVec.extractLsb'_append_eq_right⟩
  have hjoin (a : Byte) : a.extractLsb' 4 4 ++ a.extractLsb' 0 4 = a := BitVec.extractLsb'_append_extractLsb'
  simp only [registers, Chip.word, Chip.digH4, Chip.digH5, hlow, hhigh, (hrest _ _).1, (hrest _ _).2, hjoin]
  rfl

theorem readCalibration2_received (chip : Chip) {c : Chip} (hc : chip.Same c) (x : Exchange) :
    if x.broken = none then chip.Calibrates (readCalibration2 .zero (SpiTransceiver.receive c x 7 0xE1#8).1).2
    else (readCalibration2 .zero (SpiTransceiver.receive c x 7 0xE1#8).1).2 = .zero := by
  have hwait : chip.Same (c.wait x) := hc.wait x
  rw [receive_spec c x 7 rfl]
  cases x.broken with
  | some k => rfl
  | none =>
    simp only [if_true, read_calibration2, hwait.factory, factory_registers, readCalibration2_registers]
    exact ⟨rfl, rfl, toInt_setWidth_unsigned _, toInt_setWidth_unsigned _, rfl⟩

/-- what holds of the chip when the construction comes to its first run -/
structure Chip.Prepared (p : SensorParams) (chip : Chip) (x : Construction) (c : Chip) : Prop where
  same : chip.Same c
  configured : x.write.broken = none → c.Configured p
  ignored : p.operationMode = .normal → chip.ignoresConfig = true → x.reset.broken = none →
    c.ignoresConfig = true ∧ c.config = 0#8

theorem sendReset_spec (c : Chip) (x : Exchange) :
    c.Same (sendReset c x).2 ∧ (x.broken = none → (sendReset c x).2.config = 0#8) := by
  have h : Addressable (writes [0xB6#8] 0xE0#8) := by
    intro w hw
    rw [List.mem_singleton.1 hw]
    simp
  have hwait : c.Same (c.wait x) := Chip.Same.wait ⟨rfl, rfl⟩ x
  rw [sendReset, send_spec c x h]
  cases x.broken with
  | none => exact ⟨hwait.write 0xE0#8 0xB6#8, fun _ => rfl⟩
  | some k =>
    refine ⟨?_, fun hnone => by cases hnone⟩
    apply writeAll_preserves ?_ hwait
    intro w _ d hd
    exact hd.write w.1 w.2

/-- **Construction.** The first run starts with a sensor that is built and a chip that is prepared. -/
theorem constructOnBus_spec {a : Arith δ} {p : SensorParams} {chip c : Chip} {x : Construction} {s : Sensor δ}
    (h : Sensor.constructOnBus a p chip x = some (s, c)) : ∃ (s₀ : Sensor δ) (c₀ : Chip) (code : StatusCode),
      s₀.Built a p chip x ∧ chip.Prepared p x c₀ ∧ s₀.runOnBus a p c₀ x.first = some (code, s, c) := by
  obtain ⟨⟨code, s', c'⟩, hrun, hend⟩ := Option.map_eq_some_iff.1 h
  cases hend
  obtain ⟨hreset, hzero⟩ := sendReset_spec chip x.reset
  -- what stays through the reads behind the configuration
  have hreads {P : Chip → Prop} (hP : Kept p P) {c : Chip} (hc : P c) :
      P (SpiTransceiver.receive (SpiTransceiver.receive (SpiTransceiver.receive c x.readBack 4 0xF2#8).2
        x.calibration1 26 0x88#8).2 x.calibration2 7 0xE1#8).2 :=
    hP.receive (hP.receive (hP.receive hc x.readBack 4 0xF2#8 rfl) x.calibration1 26 0x88#8 rfl)
      x.calibration2 7 0xE1#8 rfl
  have hsame := kept_same p chip
  have hwritten : chip.Same (p.writeConfiguration (SpiTransceiver.receive (sendReset chip x.reset).2 x.id 1 0xD0#8).2
      x.write).2 := hsame.configure (hsame.receive hreset x.id 1 0xD0#8 rfl)
  have hread : chip.Same (SpiTransceiver.receive (p.writeConfiguration
      (SpiTransceiver.receive (sendReset chip x.reset).2 x.id 1 0xD0#8).2 x.write).2 x.readBack 4 0xF2#8).2 :=
    hsame.receive hwritten x.readBack 4 0xF2#8 rfl
  refine ⟨_, _, code, ⟨rfl, readCalibration1_received chip hread x.calibration1,
    readCalibration2_received chip (hsame.receive hread x.calibration1 26 0x88#8 rfl) x.calibration2, .inl rfl⟩,
    ⟨hreads hsame hwritten, ?_, ?_⟩, hrun⟩
  · intro hx
    refine hreads (kept_configured p) ?_
    rw [writeConfiguration_spec, hx]
    exact configured_of_configuration p _
  · intro hnormal hignores hx
    have hP := kept_config_zero hnormal
    refine hreads hP (hP.configure (hP.receive ?_ x.id 1 0xD0#8 rfl))
    exact ⟨hreset.ignoresConfig.trans hignores, hzero hx⟩

/-- a forced run that writes its configuration leaves the chip configured -/
theorem runOnBus_configured {s s' : Sensor δ} {a : Arith δ} {p : SensorParams} (hforced : p.operationMode = .forced)
    {c c' : Chip} {t : Transactions} (ht : t.write.broken = none) {code : StatusCode}
    (h : s.runOnBus a p c t = some (code, s', c')) : c'.Configured p := by
  refine (kept_configured p).of_written (fun _ => ?_) (fun hother => absurd hforced hother) h
  rw [writeConfiguration_spec, ht]
  exact configured_of_configuration p _

theorem runStep_inv {a : Arith δ} {p : SensorParams} {P : Sensor δ × Chip → Prop}
    (hrun : ∀ (s s' : Sensor δ) (c c' : Chip) (t : Transactions) (code : StatusCode), P (s, c) →
      s.runOnBus a p c t = some (code, s', c') → P (s', c')) (n : Sensor δ × Chip) (t : Transactions)
    (n' : Sensor δ × Chip) (hn : P n) (h : runStep a p n t = some n') : P n' := by
  obtain ⟨⟨code, s', c'⟩, hr, rfl⟩ := Option.map_eq_some_iff.1 h
  exact hrun n.1 s' n.2 c' t code hn hr

/-- the runs after a construction keep what every run keeps -/
theorem life_inv {a : Arith δ} {p : SensorParams} {chip c : Chip} {x : Construction} {ts : List Transactions} {s : Sensor δ}
    {P : Sensor δ × Chip → Prop}
    (hrun : ∀ (s s' : Sensor δ) (c c' : Chip) (t : Transactions) (code : StatusCode), P (s, c) →
      s.runOnBus a p c t = some (code, s', c') → P (s', c'))
    (hstart : ∀ s c, s.Built a p chip x → chip.Prepared p x c → P (s, c)) (h : life a p chip x ts = some (s, c)) :
    P (s, c) := by
  obtain ⟨⟨s₁, c₁⟩, hconstruct, hruns⟩ := Option.bind_eq_some_iff.1 h
  obtain ⟨s₀, c₀, code, hbuilt, hprepared, hfirst⟩ := constructOnBus_spec hconstruct
  exact exec_inv (runStep_inv hrun) (hrun _ _ _ _ _ _ (hstart s₀ c₀ hbuilt hprepared) hfirst) ts hruns

/-! ## What holds in a life -/

/-- nothing fails in a run, and in forced mode two conversions end while it waits: one that was running already, and its
own -/
structure Transactions.Good (p : SensorParams) (t : Transactions) : Prop where
  write : t.write.broken = none
  polls : ∀ x ∈ t.polls, x.broken = none
  data : t.data.broken = none
  finished : p.operationMode = .forced → 2 ≤ (t.polls.map Exchange.finished).sum

/-- **What a run publishes,** in the whole life of a sensor. Its coefficients are those of the chip, two of the humidity
without their sign, or zero if the constructor could not read them. A run that fails leaves the sensor as it was. One that
succeeds publishes a temperature and a humidity that are computed from the data of the chip, and a pressure that is computed
from them with the fine temperature of the block before. These are the results of the conversion that has ended last, or
the reset values if none has ended; in forced mode it has been started in the run, with the oversampling of the parameters.
A run in which nothing fails succeeds. -/
theorem bus_law {a : Arith δ} {p : SensorParams} {chip c : Chip} {x : Construction} {ts : List Transactions} {s : Sensor δ}
    (hlife : life a p chip x ts = some (s, c)) :
    s.Built a p chip x ∧
      (∀ t code s' c', s.runOnBus a p c t = some (code, s', c') →
        (code ≠ .ok ∧ s' = s) ∨
          (code = .ok ∧ s'.Shows a c'.data ∧
            s'.data.pressure = p.toParams.pressure a (compensateP s.calibration1 s.tFine c'.data.pressureRaw) ∧
            (p.operationMode = .forced → ∃ v block, c'.latest = some (v, block) ∧ v.Taken c.started p))) ∧
      ∀ t, t.Good p → ∃ s' c', s.runOnBus a p c t = some (.ok, s', c') := by
  have hbuilt : s.Built a p chip x :=
    life_inv (P := fun n => n.1.Built a p chip x) (fun _ _ _ _ _ _ hs hr => hs.run hr) (fun _ _ hs _ => hs) hlife
  refine ⟨hbuilt, ?_, ?_⟩
  · intro t code s' c' hrun
    rcases runOnBus_cases hrun with hfailed | ⟨rfl, hdata⟩
    · exact Or.inl hfailed
    · obtain ⟨hshows, hpressure⟩ := readData_shows a s c'.data
      rw [← hdata] at hshows hpressure
      rw [hbuilt.params] at hpressure
      exact Or.inr ⟨rfl, hshows, hpressure, fun hforced => (runOnBus_fresh hforced hrun).latest⟩
  · intro t ht
    by_cases hforced : p.operationMode = .forced
    · exact runOnBus_complete hforced s c ht.write ht.polls ht.data (ht.finished hforced)
    · refine ⟨(s.readData a (.ok (c.wait t.data).data)).2, c.wait t.data, ?_⟩
      rw [Sensor.runOnBus, if_neg hforced, readDataOnBus_spec, ht.data]

/-- one measurement at a time -/
def forcedParams : SensorParams := ⟨⟨.forced, 0, 0, 0⟩, .mode1, .mode16, .mode2, .four, 5⟩

/-- a chip that is new -/
def exampleChip : Chip where
  factory addr := exampleRegisters.toList.getD (addr - 0x88#8).toNat 0
  ignoresConfig := true
  ctrlHum := 0
  ctrlMeas := 0
  config := 0
  osrsH := 0
  started := 0
  converting := none
  pending := false
  latest := none

def quiet : Exchange := ⟨[], none⟩

/-- the second coefficients are not read; the configuration breaks off twice, before `ctrl_meas` and behind it -/
def exampleConstruction : Construction :=
  ⟨quiet, quiet, ⟨[], some 3⟩, quiet, quiet, ⟨[], some 3⟩, ⟨⟨[], some 6⟩, [], quiet⟩⟩

/-- a run that waits for the second poll -/
def exampleTransactions : Transactions := ⟨quiet, [⟨[.finish coldBlock], none⟩, ⟨[.finish warmBlock], none⟩], quiet⟩

def exampleNode : Sensor ℚ × Chip :=
  (life exactArith forcedParams exampleChip exampleConstruction [exampleTransactions]).get (by rfl)

theorem bus_law_example : exampleNode.1.calibration2 = .zero ∧
    (∃ s' c', exampleNode.1.runOnBus exactArith forcedParams exampleNode.2 exampleTransactions = some (.ok, s', c') ∧
      s'.Shows exactArith c'.data ∧
      ∃ v block, c'.latest = some (v, block) ∧ v.Taken exampleNode.2.started forcedParams) := by
  have hlife : life exactArith forcedParams exampleChip exampleConstruction [exampleTransactions] = some exampleNode :=
    (Option.some_get _).symm
  have hgood : exampleTransactions.Good forcedParams :=
    ⟨rfl, (by intro x hx; simp only [exampleTransactions, List.mem_cons, List.not_mem_nil, or_false] at hx
              rcases hx with rfl | rfl <;> rfl), rfl, (fun _ => by decide)⟩
  obtain ⟨hbuilt, hpublishes, hsucceeds⟩ := bus_law hlife
  obtain ⟨s', c', hrun⟩ := hsucceeds exampleTransactions hgood
  refine ⟨hbuilt.calibration2, s', c', hrun, ?_⟩
  obtain ⟨hfailed, -⟩ | ⟨-, hshows, -, hforced⟩ := hpublishes exampleTransactions .ok s' c' hrun
  · exact absurd rfl hfailed
  · exact ⟨hshows, hforced rfl⟩

/-- the bits of the registers ask for what the parameters say -/
structure Chip.Set (p : SensorParams) (c : Chip) : Prop where
  humidity : samplesOf (c.ctrlHum.extractLsb' 0 3) = p.humidityOversampling.samples
  pressure : samplesOf (c.ctrlMeas.extractLsb' 2 3) = p.pressureOversampling.samples
  temperature : samplesOf (c.ctrlMeas.extractLsb' 5 3) = p.temperatureOversampling.samples
  filter : p.operationMode ≠ .normal ∨ c.ignoresConfig = false →
    coefficientOf (c.config.extractLsb' 2 3) = p.iirCoefficient.coefficient
  standby : p.operationMode ≠ .normal ∨ c.ignoresConfig = false →
    c.config.extractLsb' 5 3 = p.inactiveDuration.extractLsb' 0 3

theorem config_bits (p : SensorParams) :
    coefficientOf (p.config.extractLsb' 2 3) = p.iirCoefficient.coefficient ∧
      p.config.extractLsb' 5 3 = p.inactiveDuration.extractLsb' 0 3 := by
  have h (iir : IirCoefficient) (duration : Byte) :
      coefficientOf ((iir.value <<< 2 ||| (duration &&& 0x07#8) <<< 5).extractLsb' 2 3) = iir.coefficient ∧
        (iir.value <<< 2 ||| (duration &&& 0x07#8) <<< 5).extractLsb' 5 3 = duration.extractLsb' 0 3 := by
    revert duration
    cases iir <;> decide
  exact h p.iirCoefficient p.inactiveDuration

theorem Chip.Configured.set {p : SensorParams} {c : Chip} (h : c.Configured p) : c.Set p := by
  obtain ⟨hpressure, htemperature⟩ := extract_osrs h.osrs
  obtain ⟨hp, ht⟩ := samplesOf_ctrlMeas p
  refine ⟨?_, ?_, ?_, fun hmode => ?_, fun hmode => ?_⟩
  · rw [h.ctrlHum]
    exact samplesOf_ctrlHum p
  · rw [hpressure, hp]
  · rw [htemperature, ht]
  · rw [h.config hmode]
    exact (config_bits p).1
  · rw [h.config hmode]
    exact (config_bits p).2

/-- once the configuration has been written the registers hold it -/
theorem life_configured {a : Arith δ} {p : SensorParams} {chip c : Chip} {x : Construction} {ts : List Transactions}
    {s : Sensor δ} (hlife : life a p chip x ts = some (s, c))
    (hwritten : x.write.broken = none ∨ p.operationMode = .forced ∧ ∃ t ∈ x.first :: ts, t.write.broken = none) :
    c.Configured p := by
  have hconfigured := kept_configured p
  rcases hwritten with hx | ⟨hforced, ht⟩
  · exact life_inv (P := fun n => n.2.Configured p) (fun _ _ _ _ _ _ hc hr => hconfigured.runOnBus hc hr)
      (fun _ _ _ hc => hc.configured hx) hlife
  · obtain ⟨⟨s₁, c₁⟩, hconstruct, hruns⟩ := Option.bind_eq_some_iff.1 hlife
    obtain ⟨s₀, c₀, code, -, -, hfirst⟩ := constructOnBus_spec hconstruct
    have hkeep := runStep_inv (a := a) (P := fun n => n.2.Configured p)
      (fun _ _ _ _ _ _ hc hr => hconfigured.runOnBus hc hr)
    rcases ht with ⟨t, hmem, ht⟩
    rcases List.mem_cons.1 hmem with rfl | hmem
    · exact exec_inv hkeep (show c₁.Configured p from runOnBus_configured hforced ht hfirst) ts hruns
    · refine exec_of_mem hkeep (e := t) ?_ hmem hruns
      rintro n n' hstep
      obtain ⟨⟨code, s', c'⟩, hr, rfl⟩ := Option.map_eq_some_iff.1 hstep
      exact runOnBus_configured hforced ht hr

/-- **What the registers hold,** in the whole life of a sensor. Once the configuration has been written without an error
the oversampling of the parameters stays in the registers, whatever fails later, and so do the filter and the standby time,
unless in normal mode the chip ignores the write of `config`: then, after a reset, this register stays as the reset has
left it. -/
theorem settings_law {a : Arith δ} {p : SensorParams} {chip c : Chip} {x : Construction} {ts : List Transactions}
    {s : Sensor δ} (hlife : life a p chip x ts = some (s, c)) :
    ((x.write.broken = none ∨ p.operationMode = .forced ∧ ∃ t ∈ x.first :: ts, t.write.broken = none) →
      c.Configured p ∧ c.Set p) ∧
    (p.operationMode = .normal → chip.ignoresConfig = true → x.reset.broken = none → c.config = 0#8) := by
  refine ⟨fun hwritten => ?_, ?_⟩
  · have hconfigured := life_configured hlife hwritten
    exact ⟨hconfigured, hconfigured.set⟩
  · intro hnormal hignores hx
    have hzero := kept_config_zero hnormal
    exact (life_inv (P := fun n => n.2.ignoresConfig = true ∧ n.2.config = 0#8)
      (fun _ _ _ _ _ _ hc hr => hzero.runOnBus hc hr) (fun _ _ _ hc => hc.ignored hnormal hignores hx) hlife).2

/-- measurements in a row -/
def normalParams : SensorParams := ⟨⟨.normal, 0, 0, 0⟩, .mode1, .mode16, .mode2, .four, 5⟩

/-- nothing fails -/
def quietConstruction : Construction := ⟨quiet, quiet, quiet, quiet, quiet, quiet, ⟨quiet, [], quiet⟩⟩

def normalNode : Sensor ℚ × Chip :=
  (life exactArith normalParams exampleChip quietConstruction [exampleTransactions]).get (by rfl)

/-- the second run writes the configuration that has broken off before; in normal mode the chip ignores the filter -/
theorem settings_law_example : (exampleNode.2.Configured forcedParams ∧ exampleNode.2.Set forcedParams) ∧
    normalNode.2.config = 0#8 := by
  have hlife : life exactArith forcedParams exampleChip exampleConstruction [exampleTransactions] = some exampleNode :=
    (Option.some_get _).symm
  have hlife' : life exactArith normalParams exampleChip quietConstruction [exampleTransactions] = some normalNode :=
    (Option.some_get _).symm
  refine ⟨(settings_law hlife).1 (Or.inr ⟨rfl, exampleTransactions, by simp, rfl⟩), ?_⟩
  exact (settings_law hlife').2 rfl rfl rfl

end ControlComponents.Bme280
