/-
The BME280 behind its registers: `SpiTransceiver`, the transactions of `Sensor`, and a chip that takes them byte by byte.

A transaction may fail after any of its bytes. Between two transactions the chip goes on by itself: it finishes the
conversion that is running and, in normal mode, starts the next one. A conversion is taken with the oversampling in force
when it starts; that of the humidity comes into force with a write of `ctrl_meas`.

- `send_spec`, `receive_spec`: what the transceiver does to the registers.
- `Kept`: what holds of the chip whatever a sensor and the chip itself do, `Kept.runOnBus`.
- `runOnBus_cases`, `runOnBus_fresh`: what a run publishes, and that in forced mode it is of a conversion that was started
  in this run.
- `runOnBus_complete`: a forced run in which nothing fails comes to its end.
-/
import ControlComponents.Lib.RegisterBus
import ControlComponents.Sensor.Bme280

namespace ControlComponents.Bme280

open ControlComponents.Algo ControlComponents.Lib.RegisterBus ControlComponents.Lib.Runs
open ControlComponents.Sensor.Soil (Arith exactArith)

variable {δ : Type}

/-! ## Parameters -/

/-- `Sensor::OversamplingMode` -/
inductive OversamplingMode where
  | none
  | mode1
  | mode2
  | mode4
  | mode8
  | mode16

/-- the samples that a measurement is taken from; with none it is skipped -/
def OversamplingMode.samples : OversamplingMode → ℕ
  | none => 0
  | mode1 => 1
  | mode2 => 2
  | mode4 => 4
  | mode8 => 8
  | mode16 => 16

def OversamplingMode.value : OversamplingMode → Byte
  | none => 0
  | mode1 => 1
  | mode2 => 2
  | mode4 => 3
  | mode8 => 4
  | mode16 => 5

/-- `Sensor::IirCoefficient` -/
inductive IirCoefficient where
  | none
  | two
  | four
  | eight
  | sixteen

/-- 0 with the filter off -/
def IirCoefficient.coefficient : IirCoefficient → ℕ
  | none => 0
  | two => 2
  | four => 4
  | eight => 8
  | sixteen => 16

def IirCoefficient.value : IirCoefficient → Byte
  | none => 0
  | two => 1
  | four => 2
  | eight => 3
  | sixteen => 4

def OperationMode.value : OperationMode → Byte
  | sleep => 0
  | forced => 2
  | normal => 3

/-- all of `Sensor::Params` -/
structure SensorParams extends Params where
  pressureOversampling : OversamplingMode
  temperatureOversampling : OversamplingMode
  humidityOversampling : OversamplingMode
  iirCoefficient : IirCoefficient
  inactiveDuration : Byte

/-- `RegisterCtrlHum` -/
def SensorParams.ctrlHum (p : SensorParams) : Byte := p.humidityOversampling.value

/-- `RegisterCtrlMeas` -/
def SensorParams.ctrlMeas (p : SensorParams) : Byte :=
  p.operationMode.value ||| p.pressureOversampling.value <<< 2 ||| p.temperatureOversampling.value <<< 5

/-- `RegisterConfig`, whose standby time has three bits -/
def SensorParams.config (p : SensorParams) : Byte :=
  p.iirCoefficient.value <<< 2 ||| (p.inactiveDuration &&& 0x07#8) <<< 5

/-! ## The chip -/

/-- the samples that three bits `osrs_h`, `osrs_p` or `osrs_t` ask for -/
def samplesOf (osrs : BitVec 3) : ℕ :=
  match osrs with
  | 0#3 => 0
  | 1#3 => 1
  | 2#3 => 2
  | 3#3 => 4
  | 4#3 => 8
  | _ => 16

/-- the coefficient that the three bits `filter` ask for -/
def coefficientOf (filter : BitVec 3) : ℕ :=
  match filter with
  | 0#3 => 0
  | 1#3 => 2
  | 2#3 => 4
  | 3#3 => 8
  | _ => 16

/-- a conversion, with the samples it is taken from -/
structure Conversion where
  /-- how many were started before it -/
  number : ℕ
  humidity : ℕ
  pressure : ℕ
  temperature : ℕ

structure Chip where
  /-- the registers that nobody writes -/
  factory : Byte → Byte
  /-- writes of `config` in normal mode may be ignored -/
  ignoresConfig : Bool
  ctrlHum : Byte
  ctrlMeas : Byte
  config : Byte
  /-- the oversampling of the humidity in force -/
  osrsH : Byte
  started : ℕ
  converting : Option Conversion
  /-- a forced conversion has been asked for while one was running -/
  pending : Bool
  /-- the conversion that has ended last since the reset, with its results -/
  latest : Option (Conversion × RegisterData)

/-- the mode in `ctrl_meas` -/
def modeOf (ctrlMeas : Byte) : OperationMode :=
  match ctrlMeas &&& 0x03#8 with
  | 0#8 => .sleep
  | 3#8 => .normal
  | _ => .forced

namespace Chip

/-- the registers before the first conversion -/
def resetData : RegisterData := ⟨0x80, 0, 0, 0x80, 0, 0, 0x80, 0⟩

/-- the results of the last conversion -/
def data (c : Chip) : RegisterData := c.latest.elim resetData Prod.snd

/-- a conversion starts -/
def start (c : Chip) : Chip :=
  { c with
    converting := some
      { number := c.started
        humidity := samplesOf (c.osrsH.extractLsb' 0 3)
        pressure := samplesOf (c.ctrlMeas.extractLsb' 2 3)
        temperature := samplesOf (c.ctrlMeas.extractLsb' 5 3) }
    started := c.started + 1 }

/-- the power-on-reset procedure -/
def reset (c : Chip) : Chip :=
  { c with
    ctrlHum := 0, ctrlMeas := 0, config := 0, osrsH := 0, converting := none, pending := false, latest := none }

/-- a write of `ctrl_meas` -/
def writeCtrlMeas (c : Chip) (b : Byte) : Chip :=
  let c := { c with ctrlMeas := b, osrsH := c.ctrlHum }
  match modeOf b with
  | .sleep => c
  | .forced => if c.converting.isSome then { c with pending := true } else c.start
  | .normal => if c.converting.isSome then c else c.start

def write (c : Chip) (addr b : Byte) : Chip :=
  match addr with
  | 0xE0#8 => if b = 0xB6#8 then c.reset else c
  | 0xF2#8 => { c with ctrlHum := b }
  | 0xF4#8 => c.writeCtrlMeas b
  | 0xF5#8 => if c.ignoresConfig ∧ modeOf c.ctrlMeas = .normal then c else { c with config := b }
  | _ => c

def read (c : Chip) (addr : Byte) : Byte :=
  match addr with
  | 0xF2#8 => c.ctrlHum
  | 0xF3#8 => if c.converting.isSome then 0x08#8 else 0#8
  | 0xF4#8 => c.ctrlMeas
  | 0xF5#8 => c.config
  | 0xF7#8 => c.data.pressMsb
  | 0xF8#8 => c.data.pressLsb
  | 0xF9#8 => c.data.pressXlsb
  | 0xFA#8 => c.data.tempMsb
  | 0xFB#8 => c.data.tempLsb
  | 0xFC#8 => c.data.tempXlsb
  | 0xFD#8 => c.data.humMsb
  | 0xFE#8 => c.data.humLsb
  | _ => c.factory addr

def registers : Registers Chip := ⟨read, write⟩

/-- what the chip does by itself -/
inductive Own where
  /-- the inactive period of the normal mode is over -/
  | cycle
  /-- the conversion that is running ends, with these results -/
  | finish (data : RegisterData)

def own (c : Chip) : Own → Chip
  | .cycle => if modeOf c.ctrlMeas = .normal ∧ c.converting.isNone then c.start else c
  | .finish data =>
    match c.converting with
    | none => c
    | some v =>
      let c := { c with converting := none, latest := some (v, data) }
      if c.pending then { c with pending := false }.start
      else if modeOf c.ctrlMeas = .forced then { c with ctrlMeas := c.ctrlMeas &&& 0xFC#8 }
      else c

end Chip

/-! ## Transactions -/

/-- what happens to a transaction -/
structure Exchange where
  /-- what the chip has done since the last one -/
  own : List Chip.Own
  /-- the bytes that are clocked in a transaction that fails -/
  broken : Option ℕ

/-- the chip when a transaction begins -/
def Chip.wait (c : Chip) (x : Exchange) : Chip := run Chip.own c x.own

/-- `MasterTransceiver::transceive` -/
def Chip.transceive (c : Chip) (x : Exchange) (bytes : List Byte) : Except Fault (List Byte) × Chip :=
  match x.broken with
  | none =>
    let (received, _, c) := exchange Chip.registers (.control, c.wait x) bytes
    (.ok received, c)
  | some k => (.error .plain, (exchange Chip.registers (.control, c.wait x) (bytes.take k)).2.2)

namespace SpiTransceiver

/-- each register is sent as a pair of bytes -/
def sendBuf : List Byte → Byte → List Byte
  | [], _ => []
  | dataByte :: buf, addr =>
    let controlByte := (addr.setWidth 32 &&& BitOps.umask 7).setWidth 8
    controlByte :: dataByte :: sendBuf buf (addr + 1)

def send (c : Chip) (x : Exchange) (buf : List Byte) (addr : Byte) : StatusCode × Chip :=
  match c.transceive x (sendBuf buf addr) with
  | (.ok _, c) => (.ok, c)
  | (.error e, c) => (e.code, c)

def receive (c : Chip) (x : Exchange) (size : ℕ) (addr : Byte) : Except Fault (Vector Byte size) × Chip :=
  -- the bytes behind the first one only clock the registers out
  let sendBuf := (addr.setWidth 32 ||| BitOps.mask 7).setWidth 8 :: List.replicate size 0#8
  match c.transceive x sendBuf with
  | (.ok recvBuf, c) => (.ok (Vector.ofFn fun i => recvBuf.getD (i + 1) 0), c)
  | (.error e, c) => (.error e, c)

end SpiTransceiver

/-! ## The sensor -/

/-- the copy of eight registers over the packed structure -/
def RegisterData.ofBytes (buf : Vector Byte 8) : RegisterData where
  pressMsb := buf.get ⟨0, Nat.le_of_ble_eq_true rfl⟩
  pressLsb := buf.get ⟨1, Nat.le_of_ble_eq_true rfl⟩
  pressXlsb := buf.get ⟨2, Nat.le_of_ble_eq_true rfl⟩
  tempMsb := buf.get ⟨3, Nat.le_of_ble_eq_true rfl⟩
  tempLsb := buf.get ⟨4, Nat.le_of_ble_eq_true rfl⟩
  tempXlsb := buf.get ⟨5, Nat.le_of_ble_eq_true rfl⟩
  humMsb := buf.get ⟨6, Nat.le_of_ble_eq_true rfl⟩
  humLsb := buf.get ⟨7, Nat.le_of_ble_eq_true rfl⟩

/-- `reset_` -/
def sendReset (c : Chip) (x : Exchange) : StatusCode × Chip := SpiTransceiver.send c x [0xB6#8] 0xE0#8

/-- the second of the four registers is `status` -/
def SensorParams.writeConfiguration (p : SensorParams) (c : Chip) (x : Exchange) : StatusCode × Chip :=
  SpiTransceiver.send c x [p.ctrlHum, 0#8, p.ctrlMeas, p.config] 0xF2#8

/-- the loop of a forced run; `none` where it has not come to an end with the exchanges there are -/
def waitOnBus (c : Chip) : List Exchange → Option (StatusCode × Chip)
  | [] => none
  | x :: xs =>
    match SpiTransceiver.receive c x 1 0xF3#8 with
    | (.error e, c) => some (e.code, c)
    | (.ok buf, c) => if measuring (buf.get ⟨0, Nat.le_of_ble_eq_true rfl⟩) then waitOnBus c xs else some (.ok, c)

/-- the transactions of a run -/
structure Transactions where
  write : Exchange
  polls : List Exchange
  data : Exchange

def Sensor.readDataOnBus (s : Sensor δ) (a : Arith δ) (c : Chip) (x : Exchange) : StatusCode × Sensor δ × Chip :=
  let (received, c) := SpiTransceiver.receive c x 8 0xF7#8
  let (code, s) := s.readData a (received.map RegisterData.ofBytes)
  (code, s, c)

/-- `Sensor::run` -/
def Sensor.runOnBus (s : Sensor δ) (a : Arith δ) (p : SensorParams) (c : Chip) (t : Transactions) :
    Option (StatusCode × Sensor δ × Chip) :=
  if p.operationMode = .forced then
    let (code, c) := p.writeConfiguration c t.write
    if code ≠ .ok then some (code, s, c)
    else
      (waitOnBus c t.polls).map fun (code, c) =>
        if code ≠ .ok then (code, s, c) else s.readDataOnBus a c t.data
  else some (s.readDataOnBus a c t.data)

/-! ## What the transceiver does -/

/-- the registers of a buffer, from an address on -/
def writes : List Byte → Byte → List (Byte × Byte)
  | [], _ => []
  | dataByte :: buf, addr => (addr, dataByte) :: writes buf (addr + 1)

theorem controlByte_write (addr : Byte) : (addr.setWidth 32 &&& BitOps.umask 7).setWidth 8 = addr &&& 0x7F#8 := by
  revert addr
  decide

theorem controlByte_read {addr : Byte} (h : addr.getLsbD 7 = true) :
    (addr.setWidth 32 ||| BitOps.mask 7).setWidth 8 = addr := by
  revert addr
  decide

theorem address_self {addr : Byte} (h : addr.getLsbD 7 = true) : address addr = addr := by
  revert addr
  decide

theorem sendBuf_eq (buf : List Byte) (addr : Byte) : SpiTransceiver.sendBuf buf addr = writeBytes (writes buf addr) := by
  induction buf generalizing addr with
  | nil => rfl
  | cons dataByte buf ih =>
    simp only [SpiTransceiver.sendBuf, controlByte_write, ih, writes, writeBytes, List.flatMap_cons, List.cons_append,
      List.nil_append]

/-- **Sending.** All registers are written, or the first ones and an error is reported. -/
theorem send_spec (c : Chip) (x : Exchange) {buf : List Byte} {addr : Byte} (h : Addressable (writes buf addr)) :
    SpiTransceiver.send c x buf addr =
      match x.broken with
      | none => (.ok, writeAll Chip.registers (c.wait x) (writes buf addr))
      | some k => (.error, writeAll Chip.registers (c.wait x) ((writes buf addr).take (k / 2))) := by
  cases hx : x.broken with
  | none => simp only [SpiTransceiver.send, Chip.transceive, hx, sendBuf_eq, exchange_writes _ _ h]
  | some k => simp only [SpiTransceiver.send, Chip.transceive, hx, sendBuf_eq, exchange_take _ _ h, Fault.plain]

/-- **Receiving** changes no register. -/
theorem receive_spec (c : Chip) (x : Exchange) (size : ℕ) {addr : Byte} (h : addr.getLsbD 7 = true) :
    SpiTransceiver.receive c x size addr =
      (match x.broken with
        | none => .ok (Vector.ofFn fun i => (c.wait x).read (addr + BitVec.ofNat 8 i))
        | some _ => .error .plain, c.wait x) := by
  cases hx : x.broken with
  | none =>
    obtain ⟨hreceived, hchip⟩ := exchange_reads Chip.registers (c.wait x) h (List.replicate size 0#8)
    rw [address_self h, List.length_replicate] at hreceived
    simp only [SpiTransceiver.receive, Chip.transceive, hx, controlByte_read h, hreceived, hchip, List.getD_cons_succ]
    congr 3
    funext i
    exact getD_row Chip.registers (c.wait x) addr i.isLt
  | some k =>
    simp only [SpiTransceiver.receive, Chip.transceive, hx, controlByte_read h,
      exchange_reads_take Chip.registers (c.wait x) h]

/-- the status register tells whether a conversion is running -/
theorem measuring_read (c : Chip) : measuring (c.read 0xF3#8) = c.converting.isSome := by
  simp only [Chip.read, measuring]
  cases c.converting with
  | none => rfl
  | some v => simp

/-- one turn of the loop of a forced run -/
theorem waitOnBus_cons (c : Chip) (x : Exchange) (xs : List Exchange) :
    waitOnBus c (x :: xs) =
      match x.broken with
      | some _ => some (.error, c.wait x)
      | none => if (c.wait x).converting.isSome then waitOnBus (c.wait x) xs else some (.ok, c.wait x) := by
  have hmeasuring : measuring ((Vector.ofFn fun i : Fin 1 => (c.wait x).read (0xF3#8 + BitVec.ofNat 8 i)).get
      ⟨0, Nat.le_of_ble_eq_true rfl⟩) = (c.wait x).converting.isSome := measuring_read (c.wait x)
  rw [waitOnBus, receive_spec c x 1 rfl]
  cases x.broken with
  | some k => rfl
  | none =>
    dsimp only
    rw [hmeasuring]

/-! ## What stays -/

/-- the four registers of the configuration -/
def SensorParams.configuration (p : SensorParams) : List (Byte × Byte) :=
  [(0xF2#8, p.ctrlHum), (0xF3#8, 0#8), (0xF4#8, p.ctrlMeas), (0xF5#8, p.config)]

theorem writeConfiguration_spec (p : SensorParams) (c : Chip) (x : Exchange) :
    p.writeConfiguration c x =
      match x.broken with
      | none => (.ok, writeAll Chip.registers (c.wait x) p.configuration)
      | some k => (.error, writeAll Chip.registers (c.wait x) (p.configuration.take (k / 2))) := by
  have h : Addressable (writes [p.ctrlHum, 0#8, p.ctrlMeas, p.config] 0xF2#8) := by
    intro w hw
    simp only [writes, List.mem_cons, List.not_mem_nil, or_false] at hw
    rcases hw with rfl | rfl | rfl | rfl <;> simp
  exact send_spec c x h

/-- the chip goes on by itself, and a sensor writes its configuration or the first registers of it -/
structure Kept (p : SensorParams) (P : Chip → Prop) : Prop where
  own : ∀ c o, P c → P (c.own o)
  writes : ∀ c k, P c → P (writeAll Chip.registers c (p.configuration.take k))

namespace Kept

variable {p : SensorParams} {P : Chip → Prop} {c c' : Chip} {x : Exchange}

theorem wait (h : Kept p P) (hc : P c) : P (c.wait x) := run_preserves h.own hc x.own

theorem configure (h : Kept p P) (hc : P c) : P (p.writeConfiguration c x).2 := by
  rw [writeConfiguration_spec]
  cases x.broken with
  | none => exact h.writes _ p.configuration.length (h.wait hc)
  | some k => exact h.writes _ _ (h.wait hc)

theorem receive (h : Kept p P) (hc : P c) (x : Exchange) (size : ℕ) (addr : Byte) (haddr : addr.getLsbD 7 = true) :
    P (SpiTransceiver.receive c x size addr).2 := by
  rw [receive_spec c x size haddr]
  exact h.wait hc

theorem waitOnBus (h : Kept p P) (hc : P c) {xs : List Exchange} {code : StatusCode}
    (hwait : Bme280.waitOnBus c xs = some (code, c')) : P c' := by
  induction xs generalizing c with
  | nil => cases hwait
  | cons x xs ih =>
    have hnext : P (c.wait x) := h.wait hc
    rw [waitOnBus_cons] at hwait
    cases hx : x.broken with
    | some k =>
      rw [hx] at hwait
      cases hwait
      exact hnext
    | none =>
      rw [hx] at hwait
      dsimp only at hwait
      split_ifs at hwait
      · exact ih hnext hwait
      · cases hwait
        exact hnext

end Kept

/-- the end of a run that has been there: an error, or the data of the chip as it is then -/
theorem readDataOnBus_spec (s : Sensor δ) (a : Arith δ) (c : Chip) (x : Exchange) :
    s.readDataOnBus a c x =
      match x.broken with
      | none => (.ok, (s.readData a (.ok (c.wait x).data)).2, c.wait x)
      | some _ => (.error, s, c.wait x) := by
  rw [Sensor.readDataOnBus, receive_spec c x 8 rfl]
  cases x.broken with
  | none => rfl
  | some k => rfl

/-- **One run.** It ends with an error and leaves the sensor as it was, or publishes what it computes from the data that
the chip holds in the end. -/
theorem runOnBus_cases {s s' : Sensor δ} {a : Arith δ} {p : SensorParams} {c c' : Chip} {t : Transactions}
    {code : StatusCode} (h : s.runOnBus a p c t = some (code, s', c')) :
    (code ≠ .ok ∧ s' = s) ∨ (code = .ok ∧ s' = (s.readData a (.ok c'.data)).2) := by
  have hdata (c : Chip) (h : s.readDataOnBus a c t.data = (code, s', c')) :
      (code ≠ .ok ∧ s' = s) ∨ (code = .ok ∧ s' = (s.readData a (.ok c'.data)).2) := by
    rw [readDataOnBus_spec] at h
    cases hx : t.data.broken with
    | none =>
      rw [hx] at h
      cases h
      exact Or.inr ⟨rfl, rfl⟩
    | some k =>
      rw [hx] at h
      cases h
      exact Or.inl ⟨(fun h => by cases h), rfl⟩
  unfold Sensor.runOnBus at h
  split_ifs at h with hforced
  · dsimp only at h
    split_ifs at h with hwritten
    · cases h
      exact Or.inl ⟨hwritten, rfl⟩
    · obtain ⟨⟨polled, chip⟩, -, hend⟩ := Option.map_eq_some_iff.1 h
      dsimp only at hend
      split_ifs at hend with hpolled
      · cases hend
        exact Or.inl ⟨hpolled, rfl⟩
      · exact hdata chip hend
  · exact hdata c (Option.some.inj h)

/-- what stays and holds once a forced run has written its configuration holds when it ends -/
theorem Kept.of_written {p : SensorParams} {P : Chip → Prop} (h : Kept p P) {s s' : Sensor δ} {a : Arith δ} {c c' : Chip}
    {t : Transactions} {code : StatusCode} (hforced : p.operationMode = .forced → P (p.writeConfiguration c t.write).2)
    (hother : p.operationMode ≠ .forced → P c) (hrun : s.runOnBus a p c t = some (code, s', c')) : P c' := by
  have hdata (c : Chip) (hc : P c) (hread : s.readDataOnBus a c t.data = (code, s', c')) : P c' := by
    have hchip : (s.readDataOnBus a c t.data).2.2 = c.wait t.data := by
      rw [readDataOnBus_spec]
      cases t.data.broken with
      | none => rfl
      | some k => rfl
    rw [hread] at hchip
    rw [show c' = c.wait t.data from hchip]
    exact h.wait hc
  unfold Sensor.runOnBus at hrun
  split_ifs at hrun with hmode
  · dsimp only at hrun
    split_ifs at hrun with hwritten
    · cases hrun
      exact hforced hmode
    · obtain ⟨⟨polled, chip⟩, hwait, hend⟩ := Option.map_eq_some_iff.1 hrun
      have hchip : P chip := h.waitOnBus (hforced hmode) hwait
      dsimp only at hend
      split_ifs at hend with hpolled
      · cases hend
        exact hchip
      · exact hdata chip hchip hend
  · exact hdata c (hother hmode) (Option.some.inj hrun)

theorem Kept.runOnBus {p : SensorParams} {P : Chip → Prop} (h : Kept p P) {s s' : Sensor δ} {a : Arith δ} {c c' : Chip}
    {t : Transactions} {code : StatusCode} (hc : P c) (hrun : s.runOnBus a p c t = some (code, s', c')) : P c' :=
  h.of_written (fun _ => h.configure hc) (fun _ => hc) hrun

/-! ## Conversions -/

/-- a chip by itself does nothing, starts a conversion, or ends the one that is running, which another one may follow -/
theorem own_cases (c : Chip) (o : Chip.Own) :
    c.own o = c ∨ (c.converting = none ∧ c.own o = c.start) ∨
      ∃ v data, c.converting = some v ∧
        ((c.pending = true ∧
            c.own o = { c with converting := none, latest := some (v, data), pending := false }.start) ∨
          (c.pending = false ∧ ∃ ctrlMeas : Byte, ctrlMeas >>> 2 = c.ctrlMeas >>> 2 ∧
            c.own o = { c with converting := none, latest := some (v, data), ctrlMeas := ctrlMeas })) := by
  have hmode (b : Byte) : (b &&& 0xFC#8) >>> 2 = b >>> 2 := by
    revert b
    decide
  cases o with
  | cycle =>
    simp only [Chip.own]
    split_ifs with hcycle
    · exact Or.inr (Or.inl ⟨Option.isNone_iff_eq_none.1 hcycle.2, rfl⟩)
    · exact Or.inl rfl
  | finish data =>
    cases hv : c.converting with
    | none => exact Or.inl (by simp only [Chip.own, hv])
    | some v =>
      refine Or.inr (Or.inr ⟨v, data, rfl, ?_⟩)
      simp only [Chip.own, hv]
      cases hpending : c.pending with
      | true => exact Or.inl ⟨rfl, rfl⟩
      | false =>
        refine Or.inr ⟨rfl, ?_⟩
        simp only [Bool.false_eq_true, if_false]
        split_ifs
        · exact ⟨c.ctrlMeas &&& 0xFC#8, hmode _, rfl⟩
        · exact ⟨c.ctrlMeas, rfl, rfl⟩

/-- started after `n` others at least, with the oversampling of the parameters -/
structure Conversion.Taken (n : ℕ) (p : SensorParams) (v : Conversion) : Prop where
  number : n ≤ v.number
  humidity : v.humidity = p.humidityOversampling.samples
  pressure : v.pressure = p.pressureOversampling.samples
  temperature : v.temperature = p.temperatureOversampling.samples

/-- the bits of the registers are those of the parameters -/
theorem samplesOf_ctrlHum (p : SensorParams) : samplesOf (p.ctrlHum.extractLsb' 0 3) = p.humidityOversampling.samples := by
  unfold SensorParams.ctrlHum
  cases p.humidityOversampling <;> rfl

theorem samplesOf_ctrlMeas (p : SensorParams) :
    samplesOf (p.ctrlMeas.extractLsb' 2 3) = p.pressureOversampling.samples ∧
      samplesOf (p.ctrlMeas.extractLsb' 5 3) = p.temperatureOversampling.samples := by
  have h (mode : OperationMode) (osrsP osrsT : OversamplingMode) :
      samplesOf ((mode.value ||| osrsP.value <<< 2 ||| osrsT.value <<< 5).extractLsb' 2 3) = osrsP.samples ∧
        samplesOf ((mode.value ||| osrsP.value <<< 2 ||| osrsT.value <<< 5).extractLsb' 5 3) = osrsT.samples := by
    cases mode <;> cases osrsP <;> cases osrsT <;> exact ⟨rfl, rfl⟩
  exact h p.operationMode p.pressureOversampling p.temperatureOversampling

/-- the oversampling is in the upper bits of `ctrl_meas` -/
theorem extract_osrs {a b : Byte} (h : a >>> 2 = b >>> 2) :
    a.extractLsb' 2 3 = b.extractLsb' 2 3 ∧ a.extractLsb' 5 3 = b.extractLsb' 5 3 := by
  have hfield (c : Byte) :
      c.extractLsb' 2 3 = (c >>> 2).extractLsb' 0 3 ∧ c.extractLsb' 5 3 = (c >>> 2).extractLsb' 3 3 := by
    revert c
    decide
  rw [(hfield a).1, (hfield a).2, h, (hfield b).1, (hfield b).2]
  exact ⟨rfl, rfl⟩

namespace Chip

/-- a conversion that starts now is taken so -/
structure Ready (n : ℕ) (p : SensorParams) (c : Chip) : Prop where
  started : n ≤ c.started
  osrsH : c.osrsH = p.ctrlHum
  osrs : c.ctrlMeas >>> 2 = p.ctrlMeas >>> 2

/-- a conversion has been asked for: it is running, or another one is and it follows; or it is done -/
structure Asked (n : ℕ) (p : SensorParams) (c : Chip) : Prop extends Ready n p c where
  running : ∀ v, c.converting = some v → c.pending = true ∨ v.Taken n p
  idle : c.converting = none → ∃ v data, c.latest = some (v, data) ∧ v.Taken n p

/-- the conversion is done, and every later one is taken so, too -/
structure Settled (n : ℕ) (p : SensorParams) (c : Chip) : Prop extends Ready n p c where
  running : ∀ v, c.converting = some v → v.Taken n p
  latest : ∃ v data, c.latest = some (v, data) ∧ v.Taken n p

variable {n : ℕ} {p : SensorParams} {c : Chip}

theorem Ready.start (h : Ready n p c) : Ready n p c.start ∧ ∀ v, c.start.converting = some v → v.Taken n p := by
  refine ⟨⟨h.started.trans (Nat.le_succ _), h.osrsH, h.osrs⟩, ?_⟩
  intro v hv
  cases hv
  obtain ⟨hpressure, htemperature⟩ := extract_osrs h.osrs
  obtain ⟨hp, ht⟩ := samplesOf_ctrlMeas p
  refine ⟨h.started, ?_, ?_, ?_⟩
  · exact (congrArg (fun b : Byte => samplesOf (b.extractLsb' 0 3)) h.osrsH).trans (samplesOf_ctrlHum p)
  · exact (congrArg samplesOf hpressure).trans hp
  · exact (congrArg samplesOf htemperature).trans ht

theorem Asked.own (h : Asked n p c) (o : Own) : Asked n p (c.own o) := by
  rcases own_cases c o with hown | ⟨-, hown⟩ | ⟨v, data, hv, ⟨-, hown⟩ | ⟨hpending, ctrlMeas, hosrs, hown⟩⟩
  · rwa [hown]
  · rw [hown]
    obtain ⟨hready, htaken⟩ := h.toReady.start
    exact ⟨hready, fun v hv => Or.inr (htaken v hv), fun hnone => by cases hnone⟩
  · -- the conversion that was asked for starts
    rw [hown]
    obtain ⟨hready, htaken⟩ := Ready.start
      (c := { c with converting := none, latest := some (v, data), pending := false }) ⟨h.started, h.osrsH, h.osrs⟩
    exact ⟨hready, fun v hv => Or.inr (htaken v hv), fun hnone => by cases hnone⟩
  · -- the conversion that ends is the one that was asked for
    have htaken : v.Taken n p := (h.running v hv).resolve_left (by rw [hpending]; exact Bool.false_ne_true)
    rw [hown]
    exact ⟨⟨h.started, h.osrsH, hosrs.trans h.osrs⟩, (fun _ hnone => by cases hnone), fun _ => ⟨v, data, rfl, htaken⟩⟩

theorem Settled.own (h : Settled n p c) (o : Own) : Settled n p (c.own o) := by
  rcases own_cases c o with hown | ⟨-, hown⟩ | ⟨v, data, hv, ⟨-, hown⟩ | ⟨-, ctrlMeas, hosrs, hown⟩⟩
  · rwa [hown]
  · rw [hown]
    obtain ⟨hready, htaken⟩ := h.toReady.start
    exact ⟨hready, htaken, h.latest⟩
  · rw [hown]
    obtain ⟨hready, htaken⟩ := Ready.start
      (c := { c with converting := none, latest := some (v, data), pending := false }) ⟨h.started, h.osrsH, h.osrs⟩
    exact ⟨hready, htaken, v, data, rfl, h.running v hv⟩
  · rw [hown]
    exact ⟨⟨h.started, h.osrsH, hosrs.trans h.osrs⟩, (fun _ hnone => by cases hnone), v, data, rfl, h.running v hv⟩

theorem Asked.wait (h : Asked n p c) (x : Exchange) : Asked n p (c.wait x) := by
  have hown (d : Chip) (o : Own) (hd : Asked n p d) : Asked n p (d.own o) := hd.own o
  exact run_preserves hown h x.own

theorem Settled.wait (h : Settled n p c) (x : Exchange) : Settled n p (c.wait x) := by
  have hown (d : Chip) (o : Own) (hd : Settled n p d) : Settled n p (d.own o) := hd.own o
  exact run_preserves hown h x.own

theorem Asked.settled (h : Asked n p c) (hidle : c.converting = none) : Settled n p c :=
  ⟨h.toReady, (fun v hv => by rw [hidle] at hv; cases hv), h.idle hidle⟩

end Chip

theorem modeOf_ctrlMeas (p : SensorParams) : modeOf p.ctrlMeas = p.operationMode := by
  have h (mode : OperationMode) (osrsP osrsT : OversamplingMode) :
      modeOf (mode.value ||| osrsP.value <<< 2 ||| osrsT.value <<< 5) = mode := by
    cases mode <;> cases osrsP <;> cases osrsT <;> rfl
  exact h p.operationMode p.pressureOversampling p.temperatureOversampling

/-- a write of `ctrl_meas` sets the register and leaves the others, whether a conversion starts or not -/
theorem writeCtrlMeas_spec (c : Chip) (b : Byte) :
    (c.writeCtrlMeas b).factory = c.factory ∧ (c.writeCtrlMeas b).ignoresConfig = c.ignoresConfig ∧
      (c.writeCtrlMeas b).ctrlHum = c.ctrlHum ∧ (c.writeCtrlMeas b).ctrlMeas = b ∧
      (c.writeCtrlMeas b).config = c.config := by
  simp only [Chip.writeCtrlMeas]
  split
  · exact ⟨rfl, rfl, rfl, rfl, rfl⟩
  · split <;> exact ⟨rfl, rfl, rfl, rfl, rfl⟩
  · split <;> exact ⟨rfl, rfl, rfl, rfl, rfl⟩

theorem write_config (c : Chip) (b : Byte) :
    c.write 0xF5#8 b = { c with config := if c.ignoresConfig ∧ modeOf c.ctrlMeas = .normal then c.config else b } := by
  simp only [Chip.write]
  split_ifs <;> rfl

theorem writeAll_configuration (p : SensorParams) (c : Chip) :
    writeAll Chip.registers c p.configuration =
      ({ c with ctrlHum := p.ctrlHum }.writeCtrlMeas p.ctrlMeas).write 0xF5#8 p.config := rfl

/-- the configuration of forced mode asks for a conversion -/
theorem asked_of_configuration {p : SensorParams} (hforced : p.operationMode = .forced) {n : ℕ} {c : Chip}
    (hn : n ≤ c.started) : (writeAll Chip.registers c p.configuration).Asked n p := by
  have hmeas : ({ c with ctrlHum := p.ctrlHum }.writeCtrlMeas p.ctrlMeas).Asked n p := by
    have hready : Chip.Ready n p { c with ctrlHum := p.ctrlHum, ctrlMeas := p.ctrlMeas, osrsH := p.ctrlHum } :=
      ⟨hn, rfl, rfl⟩
    simp only [Chip.writeCtrlMeas, modeOf_ctrlMeas, hforced]
    cases hv : c.converting with
    | none =>
      obtain ⟨hstart, htaken⟩ := hready.start
      rw [hv] at hstart htaken
      exact ⟨hstart, fun v hv => Or.inr (htaken v hv), (fun hnone => by cases hnone)⟩
    | some v => exact ⟨⟨hn, rfl, rfl⟩, fun _ _ => Or.inl rfl, (fun hnone => by cases hnone)⟩
  rw [writeAll_configuration, write_config]
  exact ⟨⟨hmeas.started, hmeas.osrsH, hmeas.osrs⟩, hmeas.running, hmeas.idle⟩

/-- the loop comes to its end when the conversion is done -/
theorem settled_of_waitOnBus {n : ℕ} {p : SensorParams} {c c' : Chip} (h : c.Asked n p) {xs : List Exchange}
    (hwait : waitOnBus c xs = some (.ok, c')) : c'.Settled n p := by
  induction xs generalizing c with
  | nil => cases hwait
  | cons x xs ih =>
    have hnext : (c.wait x).Asked n p := h.wait x
    rw [waitOnBus_cons] at hwait
    cases hx : x.broken with
    | some k =>
      rw [hx] at hwait
      cases hwait
    | none =>
      rw [hx] at hwait
      dsimp only at hwait
      split_ifs at hwait with hrunning
      · exact ih hnext hwait
      · cases hwait
        exact hnext.settled (Option.not_isSome_iff_eq_none.1 hrunning)

theorem started_own (c : Chip) (o : Chip.Own) : c.started ≤ (c.own o).started := by
  rcases own_cases c o with hown | ⟨-, hown⟩ | ⟨v, data, -, ⟨-, hown⟩ | ⟨-, ctrlMeas, -, hown⟩⟩
  all_goals rw [hown]
  · exact Nat.le_succ _
  · exact Nat.le_succ _

theorem started_wait (c : Chip) (x : Exchange) : c.started ≤ (c.wait x).started := by
  have hown (d : Chip) (o : Chip.Own) (hd : c.started ≤ d.started) : c.started ≤ (d.own o).started :=
    hd.trans (started_own d o)
  exact run_preserves hown le_rfl x.own

/-- **Fresh data.** The data that a forced run publishes are of a conversion that was started in it. -/
theorem runOnBus_fresh {s s' : Sensor δ} {a : Arith δ} {p : SensorParams} (hforced : p.operationMode = .forced)
    {c c' : Chip} {t : Transactions} (h : s.runOnBus a p c t = some (.ok, s', c')) : c'.Settled c.started p := by
  unfold Sensor.runOnBus at h
  rw [if_pos hforced] at h
  have hwritten : (p.writeConfiguration c t.write).1 = .ok := by
    by_contra hfailed
    dsimp only at h
    rw [if_pos hfailed] at h
    exact hfailed (congrArg Prod.fst (Option.some.inj h))
  have hasked : (p.writeConfiguration c t.write).2.Asked c.started p := by
    rw [writeConfiguration_spec] at hwritten ⊢
    cases hx : t.write.broken with
    | some k =>
      rw [hx] at hwritten
      cases hwritten
    | none => exact asked_of_configuration hforced (started_wait c t.write)
  dsimp only at h
  rw [if_neg (not_not.2 hwritten)] at h
  obtain ⟨⟨polled, chip⟩, hwait, hend⟩ := Option.map_eq_some_iff.1 h
  dsimp only at hend
  split_ifs at hend with hpolled
  · exact absurd (congrArg Prod.fst hend) hpolled
  · have hsettled : chip.Settled c.started p := settled_of_waitOnBus hasked (not_not.1 hpolled ▸ hwait)
    have hchip : c' = chip.wait t.data := by
      rw [readDataOnBus_spec] at hend
      cases hx : t.data.broken with
      | some k =>
        rw [hx] at hend
        cases hend
      | none =>
        rw [hx] at hend
        cases hend
        rfl
    rw [hchip]
    exact hsettled.wait t.data

/-! ## The end of a forced run -/

/-- the conversions that have to end before the chip is idle -/
def Chip.toCome (c : Chip) : ℕ := if c.converting.isSome then (if c.pending then 2 else 1) else 0

/-- whether a step of the chip ends a conversion -/
def Chip.Own.finishes : Own → Bool
  | .cycle => false
  | .finish _ => true

/-- outside normal mode a conversion that ends is one less to come, and none starts unasked -/
theorem own_toCome {c : Chip} (hmode : modeOf c.ctrlMeas ≠ .normal) (o : Chip.Own) :
    modeOf (c.own o).ctrlMeas ≠ .normal ∧
      (c.own o).toCome + (if o.finishes then 1 else 0) ≤ max c.toCome (if o.finishes then 1 else 0) := by
  have hsleep (b : Byte) : modeOf (b &&& 0xFC#8) ≠ .normal := by
    revert b
    decide
  cases o with
  | cycle =>
    rw [Chip.own, if_neg (fun h => hmode h.1)]
    exact ⟨hmode, le_max_left _ _⟩
  | finish data =>
    cases hv : c.converting with
    | none =>
      simp only [Chip.own, hv]
      exact ⟨hmode, by simp [Chip.toCome, hv]⟩
    | some v =>
      simp only [Chip.own, hv]
      cases hpending : c.pending with
      | true => exact ⟨hmode, by simp [Chip.toCome, Chip.start, hv, hpending, Chip.Own.finishes]⟩
      | false =>
        simp only [Bool.false_eq_true, if_false]
        by_cases hforced : modeOf c.ctrlMeas = .forced
        · rw [if_pos hforced]
          exact ⟨hsleep _, by simp [Chip.toCome, hv, hpending, Chip.Own.finishes]⟩
        · rw [if_neg hforced]
          exact ⟨hmode, by simp [Chip.toCome, hv, hpending, Chip.Own.finishes]⟩

/-- the conversions that end before an exchange -/
def Exchange.finished (x : Exchange) : ℕ := x.own.countP Chip.Own.finishes

theorem wait_toCome {c : Chip} (hmode : modeOf c.ctrlMeas ≠ .normal) (x : Exchange) :
    modeOf (c.wait x).ctrlMeas ≠ .normal ∧ (c.wait x).toCome ≤ c.toCome - x.finished := by
  have h (os : List Chip.Own) (c : Chip) (hmode : modeOf c.ctrlMeas ≠ .normal) :
      modeOf (run Chip.own c os).ctrlMeas ≠ .normal ∧
        (run Chip.own c os).toCome ≤ c.toCome - os.countP Chip.Own.finishes := by
    induction os generalizing c with
    | nil => exact ⟨hmode, le_rfl⟩
    | cons o os ih =>
      obtain ⟨hnext, hless⟩ := own_toCome hmode o
      obtain ⟨hend, hrest⟩ := ih (c.own o) hnext
      refine ⟨hend, hrest.trans ?_⟩
      rw [List.countP_cons]
      omega
  exact h x.own c hmode

/-- the loop ends when so many conversions end as there are to come -/
theorem waitOnBus_complete {c : Chip} (hmode : modeOf c.ctrlMeas ≠ .normal) {xs : List Exchange}
    (hxs : ∀ x ∈ xs, x.broken = none) (hpoll : xs ≠ []) (hfinished : c.toCome ≤ (xs.map Exchange.finished).sum) :
    ∃ c', waitOnBus c xs = some (.ok, c') := by
  induction xs generalizing c with
  | nil => exact absurd rfl hpoll
  | cons x xs ih =>
    obtain ⟨hnext, hless⟩ := wait_toCome hmode x
    rw [List.map_cons, List.sum_cons] at hfinished
    rw [waitOnBus_cons, hxs x List.mem_cons_self]
    dsimp only
    split_ifs with hrunning
    · have hmore : 1 ≤ (c.wait x).toCome := by
        rw [Chip.toCome, if_pos hrunning]
        split_ifs <;> omega
      refine ih hnext (fun y hy => hxs y (List.mem_cons_of_mem x hy)) ?_ (by omega)
      rintro rfl
      simp only [List.map_nil, List.sum_nil] at hfinished
      omega
    · exact ⟨_, rfl⟩

/-- **A forced run ends** with OK if no transaction breaks and two conversions end while it waits: one that was running
already, and its own. -/
theorem runOnBus_complete {a : Arith δ} {p : SensorParams} (hforced : p.operationMode = .forced) (s : Sensor δ) (c : Chip)
    {t : Transactions} (hwrite : t.write.broken = none) (hpolls : ∀ x ∈ t.polls, x.broken = none)
    (hdata : t.data.broken = none) (hfinished : 2 ≤ (t.polls.map Exchange.finished).sum) :
    ∃ s' c', s.runOnBus a p c t = some (.ok, s', c') := by
  have hmode : modeOf (p.writeConfiguration c t.write).2.ctrlMeas ≠ .normal := by
    rw [writeConfiguration_spec, hwrite]
    dsimp only
    rw [writeAll_configuration, write_config]
    obtain ⟨-, -, -, hmeas, -⟩ := writeCtrlMeas_spec { c.wait t.write with ctrlHum := p.ctrlHum } p.ctrlMeas
    rw [hmeas, modeOf_ctrlMeas, hforced]
    exact fun h => by cases h
  have hcome : (p.writeConfiguration c t.write).2.toCome ≤ (t.polls.map Exchange.finished).sum := by
    refine le_trans ?_ hfinished
    rw [Chip.toCome]
    split_ifs <;> omega
  have hnonempty : t.polls ≠ [] := by
    intro hnil
    rw [hnil] at hfinished
    exact absurd hfinished (by decide)
  obtain ⟨c', hwait⟩ := waitOnBus_complete hmode hpolls hnonempty hcome
  have hwritten : (p.writeConfiguration c t.write).1 = .ok := by rw [writeConfiguration_spec, hwrite]
  refine ⟨(s.readData a (.ok (c'.wait t.data).data)).2, c'.wait t.data, ?_⟩
  rw [Sensor.runOnBus, if_pos hforced]
  dsimp only
  rw [if_neg (not_not.2 hwritten), hwait, Option.map_some]
  dsimp only
  rw [if_neg (not_not.2 rfl), readDataOnBus_spec, hdata]

end ControlComponents.Bme280
