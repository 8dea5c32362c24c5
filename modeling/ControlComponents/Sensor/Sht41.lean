/-
SHT41 `Sensor` (`ocs_sensor/sht41`): measurements, and the heater with the number of its activations, which is kept in
memory and in a storage.

A call sends a command and receives an answer of two words, each with a checksum. `heat` counts an activation after its
answer has come in right, and persists the count; a failed write is logged only. The constructor reads the count back; a
failed read is logged only.

- `step_trusted_iff`: what a call or a construction does to the two counts.
- `trusted_iff`: the runs over one storage in which they can be trusted. `not_trusted` shows three runs in which they cannot.
- `sound_iff_lossless`, `trusted_iff_lossless`: they are told by the sequence of constructions and activations.
- `run_counts`: what the calls of a sensor add up to.
-/
import ControlComponents.Algo.CrcOps
import ControlComponents.Lib.Runs
import ControlComponents.Sensor.SoilAnalogSensor
import ControlComponents.Storage

namespace ControlComponents.Sht41

open ControlComponents.Algo ControlComponents.Lib.LittleEndian ControlComponents.Lib.Runs ControlComponents.Storage
open ControlComponents.Sensor.Soil (Arith exactArith)

/-! ## Model -/

/-- `Sensor::Command` -/
inductive Command where
  | measureHighPrecision
  | measureMediumPrecision
  | measureLowPrecision
  | readSerialNumber
  | softReset
  | activateHeater200mW1000ms
  | activateHeater200mW100ms
  | activateHeater110mW1000ms
  | activateHeater110mW100ms
  | activateHeater20mW1000ms
  | activateHeater20mW100ms
deriving DecidableEq

def Command.value : Command → ℕ
  | .measureHighPrecision => 0xFD
  | .measureMediumPrecision => 0xF6
  | .measureLowPrecision => 0xE0
  | .readSerialNumber => 0x89
  | .softReset => 0x94
  | .activateHeater200mW1000ms => 0x39
  | .activateHeater200mW100ms => 0x32
  | .activateHeater110mW1000ms => 0x2F
  | .activateHeater110mW100ms => 0x24
  | .activateHeater20mW1000ms => 0x1E
  | .activateHeater20mW100ms => 0x15

/-- the enumeration is an `int`, which is sent whole -/
def Command.bytes (command : Command) : List Byte := toLe 4 command.value

/-- in milliseconds -/
def heatingLongPulseDelay : ℕ := 1100 + 10 + 50

def heatingShortPulseDelay : ℕ := 110 + 10 + 50

def estimateHeatingDelay : Command → ℕ
  | .activateHeater200mW1000ms => heatingLongPulseDelay
  | .activateHeater200mW100ms => heatingShortPulseDelay
  | .activateHeater110mW1000ms => heatingLongPulseDelay
  | .activateHeater110mW100ms => heatingShortPulseDelay
  | .activateHeater20mW1000ms => heatingLongPulseDelay
  | .activateHeater20mW100ms => heatingShortPulseDelay
  | _ => 0

structure Params where
  sendWaitInterval : BitVec 32
  busWaitInterval : BitVec 64
  measureCommand : Command
  heatingCommand : Command

/-- the assertions of the constructor -/
def Params.Asserted (params : Params) : Prop :=
  params.sendWaitInterval ≠ 0#32 ∧ params.busWaitInterval ≠ 0#64 ∧ estimateHeatingDelay params.heatingCommand ≠ 0

instance (params : Params) : Decidable params.Asserted := by
  unfold Params.Asserted; infer_instance

/-- three bytes of an answer: a word, high byte first, and its checksum -/
structure Word where
  hi : Byte
  lo : Byte
  checksum : Byte

/-- the buffer of six bytes -/
structure Buf where
  first : Word
  second : Word

def Buf.bytes (buf : Buf) : List Byte :=
  [buf.first.hi, buf.first.lo, buf.first.checksum, buf.second.hi, buf.second.lo, buf.second.checksum]

/-- the bus in one call: which sends fail, and what is received -/
structure Transceiver where
  send : List Byte → Option Fault
  receive : Except Fault Buf

variable {δ : Type}

structure Data (δ : Type) where
  humidity : δ
  temperature : δ
  heatingCount : BitVec 32

structure Sensor (δ : Type) where
  params : Params
  heatingCount : BitVec 32
  serialNumber : List Byte
  data : Data δ

def heatingCountKey : String := "heating_count"

def sendCommand (t : Transceiver) (command : Command) : StatusCode :=
  match t.send command.bytes with
  | some e => e.code
  | none => .ok

def calculateCrc (hi lo : Byte) : Byte := CrcOps.crc8 [hi, lo] 0xFF#8 0x31#8 .msb

def receiveData (a : Arith δ) (t : Transceiver) (data : Data δ) : Except StatusCode (Data δ) :=
  match t.receive with
  | .error e => .error e.code
  | .ok buf =>
    let temperatureTicks := BitOps.packU8 buf.first.hi buf.first.lo
    if buf.first.checksum ≠ calculateCrc buf.first.hi buf.first.lo then .error .invalidState
    else
      let humidityTicks := BitOps.packU8 buf.second.hi buf.second.lo
      if buf.second.checksum ≠ calculateCrc buf.second.hi buf.second.lo then .error .invalidState
      else
        let scaled (factor ticks : ℤ) : δ := a.div (a.mul (a.ofInt factor) (a.ofInt ticks)) (a.ofInt 65535)
        let temperature := a.roundFloor (a.sub (scaled 175 temperatureTicks.toNat) (a.ofInt 45)) 2
        let humidity := a.roundFloor (a.sub (scaled 125 humidityTicks.toNat) (a.ofInt 6)) 2
        let humidity :=
          if a.gt (a.ofInt 0) humidity then a.ofInt 0
          else if a.gt humidity (a.ofInt 100) then a.ofInt 100 else humidity
        .ok { data with temperature, humidity }

def Data.zero (a : Arith δ) : Data δ := ⟨a.ofInt 0, a.ofInt 0, 0⟩

/-- `read_heating_count_` into a member that is zero; what fails is logged only -/
def readHeatingCount (f : Faults) (s : Store) : BitVec 32 :=
  match Storage.read f s heatingCountKey 4 with
  | .error _ => 0
  | .ok bs => overlay 4 0 bs

def writeHeatingCount (f : Faults) (s : Store) (heatingCount : BitVec 32) : StatusCode × Store :=
  write f s heatingCountKey (toLe 4 heatingCount.toNat)

/-- `read_serial_number_` into a member that is zero, of four bytes; what fails is logged only -/
def readSerialNumber (t : Transceiver) : List Byte :=
  match sendCommand t .readSerialNumber, t.receive with
  | .ok, .ok buf =>
    if buf.first.checksum ≠ calculateCrc buf.first.hi buf.first.lo ∨
        buf.second.checksum ≠ calculateCrc buf.second.hi buf.second.lo then List.replicate 4 0
    else buf.bytes.take 4
  | _, _ => List.replicate 4 0

/-- `none` where an assertion fails; the soft reset that comes first is logged only -/
def Sensor.construct (a : Arith δ) (params : Params) (t : Transceiver) (f : Faults) (s : Store) : Option (Sensor δ) :=
  if params.Asserted then some
    { params
      heatingCount := readHeatingCount f s
      serialNumber := readSerialNumber t
      data := .zero a }
  else none

def Sensor.run (a : Arith δ) (c : Sensor δ) (t : Transceiver) : StatusCode × Sensor δ :=
  match sendCommand t c.params.measureCommand with
  | .ok =>
    match receiveData a t { Data.zero a with heatingCount := c.heatingCount } with
    | .error code => (code, c)
    | .ok data => (.ok, { c with data })
  | code => (code, c)

def Sensor.reset (c : Sensor δ) (t : Transceiver) : StatusCode × Sensor δ := (sendCommand t .softReset, c)

def Sensor.heat (a : Arith δ) (c : Sensor δ) (t : Transceiver) (f : Faults) (s : Store) :
    StatusCode × Sensor δ × Store :=
  match sendCommand t c.params.heatingCommand with
  | .ok =>
    match receiveData a t (.zero a) with
    | .error code => (code, c, s)
    | .ok data =>
      let heatingCount := c.heatingCount + 1
      (.ok, { c with heatingCount, data := { data with heatingCount } }, (writeHeatingCount f s heatingCount).2)
  | code => (code, c, s)

/-- the sensor that was constructed last, and the storage -/
structure Device (δ : Type) where
  sensor : Option (Sensor δ)
  store : Store

/-- a construction or a call, with the failures it meets -/
inductive Event where
  | construct (params : Params) (t : Transceiver) (f : Faults)
  | heat (t : Transceiver) (f : Faults)
  | run (t : Transceiver)
  | reset (t : Transceiver)

def Device.start (s : Store) : Device δ := ⟨none, s⟩

def step (a : Arith δ) (d : Device δ) : Event → Option (Device δ)
  | .construct params t f => (Sensor.construct a params t f d.store).map fun c => { d with sensor := some c }
  | .heat t f => d.sensor.map fun c =>
    let (_, c, store) := c.heat a t f d.store
    ⟨some c, store⟩
  | .run t => d.sensor.map fun c => { d with sensor := some (c.run a t).2 }
  | .reset t => d.sensor.map fun c => { d with sensor := some (c.reset t).2 }

/-! ## Trust -/

/-- the count in memory; `⊥` if there is no sensor -/
def Device.memory (d : Device δ) : WithBot ℕ := d.sensor.map fun c => c.heatingCount.toNat

/-- the count in the storage; `⊥` if there is none -/
def Device.persisted (d : Device δ) : WithBot ℕ := (d.store.lookup heatingCountKey).map ofLe

/-- the number of activation commands that a call sends successfully -/
def activations (d : Device δ) : Event → ℕ
  | .heat t _ =>
    match d.sensor with
    | some c => if sendCommand t c.params.heatingCommand = .ok then 1 else 0
    | none => 0
  | _ => 0

def Event.isCall : Event → Bool
  | .construct .. => false
  | _ => true

/-- neither count decreases, and a call adds its activations to the count in memory -/
def Trusted (a : Arith δ) (d : Device δ) (e : Event) : Prop :=
  ∀ d' ∈ step a d e, d.memory ≤ d'.memory ∧ d.persisted ≤ d'.persisted ∧
    (e.isCall = true → d'.memory = d.memory + activations d e)

instance (a : Arith δ) (d : Device δ) (e : Event) : Decidable (Trusted a d e) := by
  unfold Trusted; infer_instance

/-- two words with their checksums have been received -/
def Intact (t : Transceiver) : Prop :=
  match t.receive with
  | .error _ => False
  | .ok buf =>
    buf.first.checksum = calculateCrc buf.first.hi buf.first.lo ∧
      buf.second.checksum = calculateCrc buf.second.hi buf.second.lo

instance (t : Transceiver) : Decidable (Intact t) := by
  unfold Intact
  split <;> infer_instance

/-- a construction takes over a count that is zero or has been persisted and can be read; an activation that is sent is
answered right, leaves room to count it, and is not persisted over a larger count -/
def Sound (d : Device δ) : Event → Prop
  | .construct params _ f =>
    params.Asserted → d.memory ≤ (0 : ℕ) ∨
      ((Storage.read f d.store heatingCountKey 4).isOk = true ∧ d.memory ≤ d.persisted)
  | .heat t f =>
    match d.sensor with
    | some c => sendCommand t c.params.heatingCommand = .ok →
      Intact t ∧ c.heatingCount.toNat + 1 < 2 ^ 32 ∧
        (f.write heatingCountKey = none → d.persisted ≤ (c.heatingCount.toNat + 1 : ℕ))
    | none => True
  | _ => True

instance (d : Device δ) (e : Event) : Decidable (Sound d e) := by
  unfold Sound
  split
  · infer_instance
  · split <;> infer_instance
  · infer_instance

/-! ## Steps -/

/-- a word is accepted iff its bytes and its checksum leave the register empty -/
theorem checksum_iff_residue (hi lo checksum : Byte) :
    checksum = calculateCrc hi lo ↔ CrcOps.sht41.crc [hi, lo, checksum] = 0#8 :=
  (CrcOps.Parameters.crc_append_eq_zero_iff CrcOps.sht41_invertible [hi, lo] checksum).symm

theorem receiveData_of_intact (a : Arith δ) {t : Transceiver} (h : Intact t) (data : Data δ) :
    ∃ data', receiveData a t data = .ok data' := by
  unfold Intact at h
  unfold receiveData
  cases ht : t.receive with
  | error e => simp [ht] at h
  | ok buf =>
    simp only [ht] at h
    simp only [ne_eq, h.1, h.2, not_true_eq_false, if_false]
    exact ⟨_, rfl⟩

theorem receiveData_of_not_intact (a : Arith δ) {t : Transceiver} (h : ¬Intact t) (data : Data δ) :
    ∃ code, receiveData a t data = .error code := by
  unfold Intact at h
  unfold receiveData
  cases ht : t.receive with
  | error e => exact ⟨_, rfl⟩
  | ok buf =>
    simp only [ht, not_and_or] at h
    by_cases hfirst : buf.first.checksum = calculateCrc buf.first.hi buf.first.lo
    · have hsecond : buf.second.checksum ≠ calculateCrc buf.second.hi buf.second.lo := h.resolve_left (not_not.2 hfirst)
      simp only [ne_eq, hfirst, not_true_eq_false, if_false, hsecond, not_false_eq_true, if_true]
      exact ⟨_, rfl⟩
    · simp only [ne_eq, hfirst, not_false_eq_true, if_true]
      exact ⟨_, rfl⟩

/-- a call of `heat` leaves the sensor and the storage as they were, or it has sent an activation that is answered right,
counts it and tries to persist the count -/
theorem heat_cases (a : Arith δ) (c : Sensor δ) (t : Transceiver) (f : Faults) (s : Store) :
    (¬(sendCommand t c.params.heatingCommand = .ok ∧ Intact t) ∧ (c.heat a t f s).2 = (c, s)) ∨
      (sendCommand t c.params.heatingCommand = .ok ∧ Intact t ∧ ∃ data, (c.heat a t f s).2 =
        ({ c with heatingCount := c.heatingCount + 1, data }, (writeHeatingCount f s (c.heatingCount + 1)).2)) := by
  unfold Sensor.heat
  cases hsent : sendCommand t c.params.heatingCommand with
  | ok =>
    by_cases hintact : Intact t
    · obtain ⟨data, hdata⟩ := receiveData_of_intact a hintact (.zero a)
      rw [hdata]
      exact Or.inr ⟨rfl, hintact, _, rfl⟩
    · obtain ⟨code, hcode⟩ := receiveData_of_not_intact a hintact (.zero a)
      rw [hcode]
      exact Or.inl ⟨fun h => hintact h.2, rfl⟩
  | _ => exact Or.inl ⟨fun h => absurd h.1 (by decide), rfl⟩

theorem run_heatingCount (a : Arith δ) (c : Sensor δ) (t : Transceiver) :
    (c.run a t).2.heatingCount = c.heatingCount := by
  unfold Sensor.run
  cases sendCommand t c.params.measureCommand with
  | ok => cases receiveData a t { Data.zero a with heatingCount := c.heatingCount } <;> rfl
  | _ => rfl

theorem run_params (a : Arith δ) (c : Sensor δ) (t : Transceiver) : (c.run a t).2.params = c.params := by
  unfold Sensor.run
  cases sendCommand t c.params.measureCommand with
  | ok => cases receiveData a t { Data.zero a with heatingCount := c.heatingCount } <;> rfl
  | _ => rfl

/-- what a construction that is asserted leaves -/
theorem construct_spec (a : Arith δ) {params : Params} (hasserted : params.Asserted) (t : Transceiver) (f : Faults)
    (d : Device δ) : ∃ c : Sensor δ, step a d (.construct params t f) = some ⟨some c, d.store⟩ ∧ c.params = params ∧
      c.heatingCount = readHeatingCount f d.store :=
  ⟨_, by rw [step, Sensor.construct, if_pos hasserted, Option.map_some], rfl, rfl⟩

/-- the count that a construction takes over -/
theorem readHeatingCount_cases (f : Faults) (s : Store) :
    ((Storage.read f s heatingCountKey 4).isOk = true ∧
        (s.lookup heatingCountKey).map ofLe = some (readHeatingCount f s).toNat) ∨
      ((Storage.read f s heatingCountKey 4).isOk = false ∧ readHeatingCount f s = 0) := by
  unfold readHeatingCount
  cases hread : Storage.read f s heatingCountKey 4 with
  | error code => exact Or.inr ⟨rfl, rfl⟩
  | ok bs => exact Or.inl ⟨rfl, map_ofLe_of_read rfl hread⟩

/-- a step that is impossible -/
theorem trusted_of_none {a : Arith δ} {d : Device δ} {e : Event} (h : step a d e = none) : Trusted a d e := by
  intro d' hd'
  rw [h] at hd'
  cases hd'

/-- a construction is trusted iff it takes over no less than there was -/
theorem construct_trusted_iff_le (a : Arith δ) (d : Device δ) {params : Params} (hasserted : params.Asserted)
    (t : Transceiver) (f : Faults) :
    Trusted a d (.construct params t f) ↔ d.memory ≤ ((readHeatingCount f d.store).toNat : ℕ) := by
  simp only [Trusted, step, Sensor.construct, if_pos hasserted, Option.map_some, Option.mem_some_iff, forall_eq',
    Event.isCall, Bool.false_eq_true, false_implies, and_true]
  exact and_iff_left le_rfl

theorem construct_trusted_iff (a : Arith δ) (d : Device δ) (params : Params) (t : Transceiver) (f : Faults) :
    Trusted a d (.construct params t f) ↔ Sound d (.construct params t f) := by
  by_cases hasserted : params.Asserted
  · have hstep := construct_trusted_iff_le a d hasserted t f
    have hsound : Sound d (.construct params t f) ↔ d.memory ≤ (0 : ℕ) ∨
        ((Storage.read f d.store heatingCountKey 4).isOk = true ∧ d.memory ≤ d.persisted) := by
      simp only [Sound, hasserted, true_implies]
    rw [hstep, hsound]
    rcases readHeatingCount_cases f d.store with ⟨hok, hcount⟩ | ⟨hok, hcount⟩
    · have hpersisted : d.persisted = ((readHeatingCount f d.store).toNat : ℕ) := hcount
      rw [hpersisted]
      refine ⟨fun h => Or.inr ⟨hok, h⟩, ?_⟩
      rintro (h | ⟨-, h⟩)
      · exact h.trans (WithBot.coe_le_coe.2 (Nat.zero_le _))
      · exact h
    · rw [hcount]
      simp only [hok, Bool.false_eq_true, false_and, or_false]
      rfl
  · have hnone : step a d (.construct params t f) = none := by
      simp only [step, Sensor.construct, if_neg hasserted, Option.map_none]
    exact iff_of_true (trusted_of_none hnone) fun h => absurd h hasserted

/-- a call that leaves the count and the storage as they are -/
theorem trusted_of_unchanged {a : Arith δ} {d : Device δ} {e : Event}
    (h : ∀ d' ∈ step a d e, d'.memory = d.memory ∧ d'.store = d.store) (hnone : activations d e = 0) : Trusted a d e := by
  intro d' hd'
  obtain ⟨hmemory, hstore⟩ := h d' hd'
  have hpersisted : d'.persisted = d.persisted := congrArg (fun s => (s.lookup heatingCountKey).map ofLe) hstore
  refine ⟨hmemory.ge, hpersisted.ge, ?_⟩
  intro _
  rw [hmemory, hnone, Nat.cast_zero, add_zero]

theorem persisted_write (f : Faults) (d : Device δ) (count : BitVec 32) (c : Option (Sensor δ)) :
    Device.persisted ⟨c, (writeHeatingCount f d.store count).2⟩ =
      if f.write heatingCountKey = none then ((count.toNat : ℕ) : WithBot ℕ) else d.persisted := by
  unfold writeHeatingCount
  rcases write_cases f d.store heatingCountKey (toLe 4 count.toNat) with ⟨e, he, hw⟩ | ⟨he, hw⟩
  · rw [hw, he]
    rfl
  · have hcount : count.toNat % 256 ^ 4 = count.toNat := Nat.mod_eq_of_lt count.isLt
    rw [hw, he, if_pos rfl]
    simp only [Device.persisted, Finmap.lookup_insert, Option.map_some, ofLe_toLe, hcount]
    rfl

/-- counting one activation, which does not fit if the count is at its maximum -/
theorem toNat_succ_iff (count : BitVec 32) : (count + 1).toNat = count.toNat + 1 ↔ count.toNat + 1 < 2 ^ 32 := by
  have hone : (1 : BitVec 32).toNat = 1 := rfl
  simp only [BitVec.toNat_add, hone]
  omega

theorem memory_some {d : Device δ} {c : Sensor δ} (hd : d.sensor = some c) : d.memory = (c.heatingCount.toNat : ℕ) := by
  rw [Device.memory, hd]
  rfl

/-- an activation that is counted: there must be room for it, and no larger count in the storage -/
theorem counted_trusted_iff {a : Arith δ} {d : Device δ} {c : Sensor δ} (hd : d.sensor = some c) {t : Transceiver}
    {f : Faults} (hone : activations d (.heat t f) = 1) {data : Data δ}
    (hstep : step a d (.heat t f) = some ⟨some { c with heatingCount := c.heatingCount + 1, data },
      (writeHeatingCount f d.store (c.heatingCount + 1)).2⟩) :
    Trusted a d (.heat t f) ↔ c.heatingCount.toNat + 1 < 2 ^ 32 ∧
      (f.write heatingCountKey = none → d.persisted ≤ (c.heatingCount.toNat + 1 : ℕ)) := by
  have hmemory := memory_some hd
  have hpersisted := persisted_write f d (c.heatingCount + 1) (some { c with heatingCount := c.heatingCount + 1, data })
  refine ⟨?_, ?_⟩
  · intro h
    obtain ⟨-, hkept, hgrows⟩ := h _ hstep
    have hadd := hgrows rfl
    rw [hone, hmemory] at hadd
    have hroom : (c.heatingCount + 1).toNat = c.heatingCount.toNat + 1 := WithBot.coe_injective hadd
    refine ⟨(toNat_succ_iff _).1 hroom, ?_⟩
    intro hwrite
    rwa [hpersisted, if_pos hwrite, hroom] at hkept
  · rintro ⟨hroom, hkept⟩ d' hd'
    rw [hstep] at hd'
    cases hd'
    have hadd := (toNat_succ_iff _).2 hroom
    have hle : c.heatingCount.toNat ≤ (c.heatingCount + 1).toNat := hadd ▸ Nat.le_succ _
    have hgrows : ((c.heatingCount + 1).toNat : WithBot ℕ) = c.heatingCount.toNat + (1 : ℕ) := congrArg _ hadd
    rw [hmemory, hone, hpersisted]
    refine ⟨WithBot.coe_le_coe.2 hle, ?_, fun _ => hgrows⟩
    by_cases hwrite : f.write heatingCountKey = none
    · rw [if_pos hwrite, hadd]
      exact hkept hwrite
    · rw [if_neg hwrite]

theorem heat_trusted_iff (a : Arith δ) (d : Device δ) (t : Transceiver) (f : Faults) :
    Trusted a d (.heat t f) ↔ Sound d (.heat t f) := by
  cases hd : d.sensor with
  | none =>
    have hnone : step a d (.heat t f) = none := by
      simp only [step, hd, Option.map_none]
    exact iff_of_true (trusted_of_none hnone) (by simp only [Sound, hd])
  | some c =>
    have hmemory := memory_some hd
    have hstep : step a d (.heat t f) = some ⟨some (c.heat a t f d.store).2.1, (c.heat a t f d.store).2.2⟩ := by
      simp only [step, hd, Option.map_some]
    by_cases hsent : sendCommand t c.params.heatingCommand = .ok
    · have hone : activations d (.heat t f) = 1 := by
        simp only [activations, hd, hsent, if_true]
      have hsound : Sound d (.heat t f) ↔ Intact t ∧ c.heatingCount.toNat + 1 < 2 ^ 32 ∧
          (f.write heatingCountKey = none → d.persisted ≤ (c.heatingCount.toNat + 1 : ℕ)) := by
        simp only [Sound, hd, hsent, true_implies]
      rw [hsound]
      rcases heat_cases a c t f d.store with ⟨hfails, hheat⟩ | ⟨-, hintact, data, hheat⟩
      · -- the activation is not counted
        rw [hheat] at hstep
        refine iff_of_false ?_ fun h => hfails ⟨hsent, h.1⟩
        intro h
        have hgrows := (h _ hstep).2.2 rfl
        rw [hone, hmemory] at hgrows
        have hsame : c.heatingCount.toNat = c.heatingCount.toNat + 1 := WithBot.coe_injective hgrows
        omega
      · rw [hheat] at hstep
        rw [counted_trusted_iff hd hone hstep]
        exact (and_iff_right hintact).symm
    · have hzero : activations d (.heat t f) = 0 := by
        simp only [activations, hd, hsent, if_false]
      refine iff_of_true (trusted_of_unchanged ?_ hzero) ?_
      · intro d' hd'
        rcases heat_cases a c t f d.store with ⟨-, hheat⟩ | ⟨hok, -⟩
        · rw [hstep, hheat] at hd'
          cases hd'
          exact ⟨hmemory.symm, rfl⟩
        · exact absurd hok hsent
      · simp only [Sound, hd]
        intro h
        exact absurd h hsent

/-- **What a step does to the counts.** -/
theorem step_trusted_iff (a : Arith δ) (d : Device δ) (e : Event) : Trusted a d e ↔ Sound d e := by
  cases e with
  | construct params t f => exact construct_trusted_iff a d params t f
  | heat t f => exact heat_trusted_iff a d t f
  | run t =>
    refine iff_of_true (trusted_of_unchanged ?_ rfl) trivial
    intro d' hd'
    obtain ⟨c, hc, rfl⟩ := Option.map_eq_some_iff.1 hd'
    rw [memory_some hc, memory_some rfl, run_heatingCount]
    exact ⟨rfl, rfl⟩
  | reset t =>
    refine iff_of_true (trusted_of_unchanged ?_ rfl) trivial
    intro d' hd'
    obtain ⟨c, hc, rfl⟩ := Option.map_eq_some_iff.1 hd'
    rw [memory_some hc, memory_some rfl]
    exact ⟨rfl, rfl⟩

/-! ## Runs -/

/-- the activation commands that a run sends successfully -/
def allActivations (a : Arith δ) : Device δ → List Event → ℕ
  | _, [] => 0
  | d, e :: es => activations d e + ((step a d e).elim 0 fun d' => allActivations a d' es)

/-- **Calls add up.** After sound calls the count in memory has grown by the number of their activations. -/
theorem run_counts (a : Arith δ) {d t : Device δ} {es : List Event} (hcalls : ∀ e ∈ es, e.isCall = true)
    (hsound : GuardedExec (step a) Sound d es) (ht : exec (step a) d es = some t) :
    t.memory = d.memory + allActivations a d es := by
  induction es generalizing d with
  | nil =>
    obtain rfl : d = t := Option.some.inj ht
    rw [allActivations, Nat.cast_zero, add_zero]
  | cons e es ih =>
    obtain ⟨d', hd', ht'⟩ := Option.bind_eq_some_iff.1 ht
    have hgrows := (((step_trusted_iff a d e).2 hsound.1) d' hd').2.2 (hcalls e List.mem_cons_self)
    calc t.memory
        = d'.memory + allActivations a d' es :=
          ih (fun e' he' => hcalls e' (List.mem_cons_of_mem e he')) (hsound.2 d' hd') ht'
      _ = d.memory + allActivations a d (e :: es) := by
        rw [hgrows, allActivations, hd', Option.elim_some, Nat.cast_add, add_assoc]

theorem trusted_steps_iff (a : Arith δ) (d : Device δ) (es : List Event) :
    GuardedExec (step a) (Trusted a) d es ↔ GuardedExec (step a) Sound d es :=
  have hstep (d : Device δ) (e : Event) (d' : Device δ) (_ : True) (_ : True) (_ : step a d e = some d') : True := trivial
  guardedExec_congr hstep (fun d e _ _ => step_trusted_iff a d e) trivial es (guardedExec_true _ es)

/-! ### The sequence of constructions and activations -/

/-- what may follow where `count` is the count and `saved` tells whether it is stored: every activation that is sent is
answered right, and no sensor is constructed that does not take the count over -/
def Lossless : Command → ℕ → Bool → List Event → Prop
  | _, _, _, [] => True
  | _, count, saved, .construct params _ f :: es => params.Asserted →
    (count = 0 ∨ (saved = true ∧ f.read heatingCountKey = none)) ∧ Lossless params.heatingCommand count saved es
  | command, count, saved, .heat t f :: es =>
    if sendCommand t command = .ok then
      Intact t ∧ count + 1 < 2 ^ 32 ∧ Lossless command (count + 1) (f.write heatingCountKey).isNone es
    else Lossless command count saved es
  | command, count, saved, .run _ :: es => Lossless command count saved es
  | command, count, saved, .reset _ :: es => Lossless command count saved es

/-- the count is stored, or less is -/
def Kept (d : Device δ) (count : ℕ) : Bool → Prop
  | true => ∃ bs, d.store.lookup heatingCountKey = some bs ∧ bs.length ≤ 4 ∧ ofLe bs = count
  | false => d.persisted < count

theorem Kept.persisted_le {d : Device δ} {count : ℕ} {saved : Bool} (h : Kept d count saved) : d.persisted ≤ count := by
  cases saved with
  | true =>
    obtain ⟨bs, hlookup, -, hcount⟩ := h
    rw [Device.persisted, hlookup, Option.map_some, hcount]
    exact le_rfl
  | false => exact le_of_lt h

/-- it is about the storage only -/
theorem Kept.of_store {d d' : Device δ} {count : ℕ} {saved : Bool} (h : Kept d count saved) (hs : d'.store = d.store) :
    Kept d' count saved := by
  cases saved with
  | true => simpa only [Kept, hs] using h
  | false => simpa only [Kept, Device.persisted, hs] using h

/-- a construction takes the count over iff there is none, or it is stored and can be read -/
theorem Kept.taken_iff {d : Device δ} {count : ℕ} {saved : Bool} (h : Kept d count saved) (f : Faults) :
    (readHeatingCount f d.store).toNat = count ↔ count = 0 ∨ (saved = true ∧ f.read heatingCountKey = none) := by
  rcases readHeatingCount_cases f d.store with ⟨hok, hread⟩ | ⟨hok, hread⟩
  · have hpersisted : d.persisted = ((readHeatingCount f d.store).toNat : ℕ) := hread
    cases saved with
    | true =>
      obtain ⟨bs, hlookup, -, hcount⟩ := h
      have hnone : f.read heatingCountKey = none := by
        unfold Storage.read at hok
        cases hf : f.read heatingCountKey with
        | none => rfl
        | some e =>
          rw [hf] at hok
          cases hok
      rw [hlookup, Option.map_some, hcount] at hread
      exact iff_of_true (Option.some.inj hread).symm (Or.inr ⟨rfl, hnone⟩)
    | false =>
      have hless : (readHeatingCount f d.store).toNat < count := by
        rw [Kept, hpersisted] at h
        exact WithBot.coe_lt_coe.1 h
      refine iff_of_false hless.ne ?_
      rintro (hzero | ⟨hsaved, -⟩)
      · omega
      · cases hsaved
  · rw [hread]
    refine ⟨fun hzero => Or.inl hzero.symm, ?_⟩
    rintro (hzero | ⟨rfl, hnone⟩)
    · exact hzero.symm
    · obtain ⟨bs, hlookup, hlen, -⟩ := h
      rw [Storage.read, hnone, hlookup] at hok
      simp only [Nat.not_lt.2 hlen, if_false] at hok
      cases hok

/-- a count that grows by one is stored, or the one before -/
theorem Kept.write {d : Device δ} {n : ℕ} {saved : Bool} (h : Kept d n saved) {count : BitVec 32}
    (hcount : count.toNat = n + 1) (f : Faults) (c : Option (Sensor δ)) :
    Kept ⟨c, (writeHeatingCount f d.store count).2⟩ (n + 1) (f.write heatingCountKey).isNone := by
  have hpersisted := persisted_write f d count c
  cases hf : f.write heatingCountKey with
  | some e =>
    rw [hf, if_neg (Option.some_ne_none e)] at hpersisted
    have hgrows : d.persisted < ((n + 1 : ℕ) : WithBot ℕ) :=
      h.persisted_le.trans_lt (WithBot.coe_lt_coe.2 (Nat.lt_succ_self n))
    exact hpersisted.trans_lt hgrows
  | none =>
    have hlookup : (writeHeatingCount f d.store count).2.lookup heatingCountKey = some (toLe 4 count.toNat) := by
      rw [writeHeatingCount, Storage.write, hf]
      exact Finmap.lookup_insert _
    have hfits : count.toNat % 256 ^ 4 = count.toNat := Nat.mod_eq_of_lt count.isLt
    refine ⟨toLe 4 count.toNat, hlookup, (length_toLe 4 _).le, ?_⟩
    rw [ofLe_toLe, hfits, hcount]

theorem construct_sound_iff (a : Arith δ) {d : Device δ} {c : Sensor δ} (hd : d.sensor = some c) {saved : Bool}
    (h : Kept d c.heatingCount.toNat saved) {params : Params} (hasserted : params.Asserted) (t : Transceiver) (f : Faults) :
    Sound d (.construct params t f) ↔
      c.heatingCount.toNat = 0 ∨ (saved = true ∧ f.read heatingCountKey = none) := by
  have hle : (readHeatingCount f d.store).toNat ≤ c.heatingCount.toNat := by
    rcases readHeatingCount_cases f d.store with ⟨-, hread⟩ | ⟨-, hread⟩
    · have hpersisted : d.persisted = ((readHeatingCount f d.store).toNat : ℕ) := hread
      have hkept := h.persisted_le
      rw [hpersisted] at hkept
      exact WithBot.coe_le_coe.1 hkept
    · rw [hread]
      exact Nat.zero_le _
  calc Sound d (.construct params t f)
      ↔ d.memory ≤ ((readHeatingCount f d.store).toNat : ℕ) :=
        (construct_trusted_iff a d params t f).symm.trans (construct_trusted_iff_le a d hasserted t f)
    _ ↔ c.heatingCount.toNat ≤ (readHeatingCount f d.store).toNat := by
        rw [memory_some hd]
        exact WithBot.coe_le_coe
    _ ↔ (readHeatingCount f d.store).toNat = c.heatingCount.toNat := ⟨fun hge => le_antisymm hle hge, fun heq => heq.ge⟩
    _ ↔ c.heatingCount.toNat = 0 ∨ (saved = true ∧ f.read heatingCountKey = none) := h.taken_iff f

/-- nothing larger is stored, so only the answer and the room are left to ask for -/
theorem heat_sound_iff {d : Device δ} {c : Sensor δ} (hd : d.sensor = some c) {saved : Bool}
    (h : Kept d c.heatingCount.toNat saved) (t : Transceiver) (f : Faults) :
    Sound d (.heat t f) ↔
      (sendCommand t c.params.heatingCommand = .ok → Intact t ∧ c.heatingCount.toNat + 1 < 2 ^ 32) := by
  have hless : d.persisted ≤ ((c.heatingCount.toNat + 1 : ℕ) : WithBot ℕ) :=
    h.persisted_le.trans (WithBot.coe_le_coe.2 (Nat.le_succ _))
  simp only [Sound, hd]
  refine imp_congr_right fun _ => and_congr_right fun _ => and_iff_left fun _ => ?_
  exact_mod_cast hless

/-- **The sequence decides.** Over a sensor whose count is stored, or less than it, a run is sound iff it loses no count. -/
theorem sound_iff_lossless (a : Arith δ) (es : List Event) {d : Device δ} {c : Sensor δ} (hd : d.sensor = some c)
    {saved : Bool} (h : Kept d c.heatingCount.toNat saved) :
    GuardedExec (step a) Sound d es ↔ Lossless c.params.heatingCommand c.heatingCount.toNat saved es := by
  induction es generalizing d c saved with
  | nil => exact iff_of_true trivial trivial
  | cons e es ih =>
    cases e with
    | construct params t f =>
      by_cases hasserted : params.Asserted
      · have hsound := construct_sound_iff a hd h hasserted t f
        obtain ⟨c', hstep, hparams, hread⟩ := construct_spec a hasserted t f d
        simp only [GuardedExec, Lossless, hasserted, true_implies, hsound, hstep, Option.mem_some_iff, forall_eq']
        refine and_congr_right fun htaken => ?_
        have hcount : c'.heatingCount.toNat = c.heatingCount.toNat := hread ▸ (h.taken_iff f).2 htaken
        rw [← hcount, ← hparams]
        exact ih rfl (hcount ▸ h.of_store rfl)
      · have hnone : step a d (.construct params t f) = none := by
          simp only [step, Sensor.construct, if_neg hasserted, Option.map_none]
        refine iff_of_true ⟨fun hdone => absurd hdone hasserted, ?_⟩ fun hdone => absurd hdone hasserted
        intro d' hd'
        rw [hnone] at hd'
        cases hd'
    | heat t f =>
      have hsound := heat_sound_iff hd h t f
      have hstep : step a d (.heat t f) = some ⟨some (c.heat a t f d.store).2.1, (c.heat a t f d.store).2.2⟩ := by
        simp only [step, hd, Option.map_some]
      simp only [GuardedExec, Lossless, hsound, hstep, Option.mem_some_iff, forall_eq']
      by_cases hsent : sendCommand t c.params.heatingCommand = .ok
      · rw [if_pos hsent, and_assoc.symm]
        simp only [hsent, true_implies]
        refine and_congr_right fun hanswered => ?_
        obtain ⟨hintact, hroom⟩ := hanswered
        rcases heat_cases a c t f d.store with ⟨hfails, -⟩ | ⟨-, -, data, hheat⟩
        · exact absurd ⟨hsent, hintact⟩ hfails
        · have hcount := (toNat_succ_iff c.heatingCount).2 hroom
          have hnext := h.write hcount f (some { c with heatingCount := c.heatingCount + 1, data })
          rw [← hcount] at hnext
          rw [hheat, ← hcount]
          exact ih (c := { c with heatingCount := c.heatingCount + 1, data }) rfl hnext
      · rw [if_neg hsent]
        rcases heat_cases a c t f d.store with ⟨-, hheat⟩ | ⟨hok, -⟩
        · rw [hheat, and_iff_right fun hok => absurd hok hsent]
          exact ih rfl (h.of_store rfl)
        · exact absurd hok hsent
    | run t =>
      have hstep : step a d (.run t) = some { d with sensor := some (c.run a t).2 } := by
        simp only [step, hd, Option.map_some]
      have hsame := run_heatingCount a c t
      have hparams := run_params a c t
      simp only [GuardedExec, Lossless, Sound, true_and, hstep, Option.mem_some_iff, forall_eq']
      rw [← hsame, ← hparams]
      exact ih rfl (hsame ▸ h.of_store rfl)
    | reset t =>
      have hstep : step a d (.reset t) = some { d with sensor := some c } := by
        simp only [step, hd, Option.map_some, Sensor.reset]
      simp only [GuardedExec, Lossless, Sound, true_and, hstep, Option.mem_some_iff, forall_eq']
      exact ih rfl (h.of_store rfl)

theorem readHeatingCount_of_readable {f : Faults} {s : Store} (hread : f.read heatingCountKey = none)
    (hstored : ∀ bs ∈ s.lookup heatingCountKey, bs.length ≤ 4) :
    (readHeatingCount f s).toNat = ((s.lookup heatingCountKey).map ofLe).getD 0 := by
  rcases readHeatingCount_cases f s with ⟨-, hcount⟩ | ⟨hok, hcount⟩
  · rw [hcount]
    rfl
  · unfold Storage.read at hok
    cases hlookup : s.lookup heatingCountKey with
    | none => rw [hcount]; rfl
    | some bs =>
      rw [hread, hlookup] at hok
      simp only [Nat.not_lt.2 (hstored bs hlookup), if_false] at hok
      cases hok

/-- **Trust, told by the sequence.** A run whose first construction reads what is stored can be trusted iff it loses no
count. -/
theorem trusted_iff_lossless (a : Arith δ) {s : Store} {params : Params} (hasserted : params.Asserted) (t : Transceiver)
    {f : Faults} (hread : f.read heatingCountKey = none) (hstored : ∀ bs ∈ s.lookup heatingCountKey, bs.length ≤ 4)
    (es : List Event) :
    GuardedExec (step a) (Trusted a) (.start s) (.construct params t f :: es) ↔
      Lossless params.heatingCommand (((s.lookup heatingCountKey).map ofLe).getD 0)
        (s.lookup heatingCountKey).isSome es := by
  obtain ⟨c, hstep, hparams, hcount⟩ := construct_spec a hasserted t f (.start s)
  -- the count in memory is the one that is stored
  have hmemory : c.heatingCount.toNat = ((s.lookup heatingCountKey).map ofLe).getD 0 := by
    rw [hcount]
    exact readHeatingCount_of_readable hread hstored
  have hkept : Kept (⟨some c, s⟩ : Device δ) c.heatingCount.toNat (s.lookup heatingCountKey).isSome := by
    rw [hmemory]
    cases hlookup : s.lookup heatingCountKey with
    | none =>
      have hbot : Device.persisted (⟨some c, s⟩ : Device δ) = ⊥ := by
        rw [Device.persisted, hlookup]
        rfl
      exact hbot.trans_lt (WithBot.bot_lt_coe 0)
    | some bs => exact ⟨bs, hlookup, hstored bs hlookup, rfl⟩
  have hfirst : Sound (.start s : Device δ) (.construct params t f) := fun _ => Or.inl bot_le
  have hrest := sound_iff_lossless a es (d := ⟨some c, s⟩) rfl hkept
  rw [hparams, hmemory] at hrest
  rw [trusted_steps_iff, GuardedExec, and_iff_right hfirst, ← hrest]
  simp only [hstep, Option.mem_some_iff, forall_eq']
  rfl

/-! ### The law -/

/-- **Trust over the life of the device.** In every run over any storage, with any parameters and any sends, receives, reads
and writes failing, neither count ever decreases and every call counts its activations, iff every construction and every
activation of the run is sound. -/
theorem trusted_iff (a : Arith δ) (s : Store) (es : List Event) :
    GuardedExec (step a) (Trusted a) (.start s) es ↔ GuardedExec (step a) Sound (.start s) es :=
  trusted_steps_iff a (.start s) es

def exampleParams : Params := ⟨10, 5000000, .measureLowPrecision, .activateHeater20mW100ms⟩

/-- two words with their checksums -/
def answers : Transceiver := ⟨fun _ => none, .ok ⟨⟨0xBE, 0xEF, 0x92⟩, ⟨0xBE, 0xEF, 0x92⟩⟩⟩

def silent : Transceiver := ⟨fun _ => none, .error .plain⟩

def readFails : Faults := { Faults.none with read := fun _ => some .plain }

def writeFails : Faults := { Faults.none with write := fun _ => some .plain }

/-- an activation that is counted and persisted, a measurement that fails, an activation that is counted only, and a reset -/
example : GuardedExec (step exactArith) (Trusted exactArith) (.start ∅)
    [.construct exampleParams answers readFails, .heat answers .none, .run silent, .heat answers writeFails,
      .reset silent] := by
  decide +kernel

/-- the counts can be trusted in every run -/
def CountTrusted : Prop :=
  ∀ (s : Store) (es : List Event), GuardedExec (step exactArith) (Trusted exactArith) (.start s) es

/-- 100 activations -/
def hundred : Store := (∅ : Store).insert heatingCountKey (toLe 4 100)

/-- the two counts after a run -/
def countsAfter (s : Store) (es : List Event) : Option (WithBot ℕ × WithBot ℕ) :=
  (exec (step exactArith) (.start s) es).map fun d => (d.memory, d.persisted)

/-- **Not in all runs.** An activation is not counted if its measurement gets lost; after a failed read the count starts
again from zero, and the next activation overwrites the 100 that are persisted; an activation that could not be persisted
is forgotten at the next construction. -/
theorem not_trusted : ¬CountTrusted ∧
    countsAfter ∅ [.construct exampleParams answers .none, .heat silent .none] = some (0, ⊥) ∧
    countsAfter hundred [.construct exampleParams answers readFails, .heat answers .none] = some (1, 1) ∧
    countsAfter hundred [.construct exampleParams answers .none, .heat answers writeFails] = some (101, 100) ∧
    countsAfter hundred [.construct exampleParams answers .none, .heat answers writeFails,
      .construct exampleParams answers .none] = some (100, 100) := by
  refine ⟨?_, by decide +kernel, by decide +kernel, by decide +kernel, by decide +kernel⟩
  intro h
  exact absurd (h ∅ [.construct exampleParams answers .none, .heat silent .none]) (by decide +kernel)

end ControlComponents.Sht41
