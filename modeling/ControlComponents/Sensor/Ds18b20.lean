/-
Configuration of a DS18B20 sensor (`ocs_sensor/ds18b20`): `Scratchpad`, `Sensor` and `Store::Node::add`.

A configuration is validated, written to the device, read back and compared, and compared with the stored one, which it
replaces if it differs; only then is it taken over and the bus assigned. The bus may reply anything, and every call of the
bus or of the storage may fail.

- `Inv`: a configured sensor has a valid ROM code, and its configuration is the stored one, byte for byte.
- `configured_persisted`: this holds after every sequence of calls, and a call that fails changes nothing.
-/
import ControlComponents.Lib.Runs
import ControlComponents.Onewire.RomCodeScanner
import ControlComponents.Storage

namespace ControlComponents.Onewire

open ControlComponents.Algo

/-! ## Bytes on the bus -/

namespace Bus

variable {β : Type} (bus : Bus β)

/-- the loop of `read_byte` over the remaining bits, from the `n`-th one on; it stores every bit it has read -/
def readBits : ℕ → ℕ → Byte → β → StatusCode × Byte × β
  | 0, _, byte, b => (.ok, byte, b)
  | k + 1, n, byte, b =>
    match bus.readBit b with
    | (.ok, bit, b) => readBits k (n + 1) (setBit byte n bit) b
    | (code, _, b) => (code, byte, b)

def readByte (byte : Byte) (b : β) : StatusCode × Byte × β := bus.readBits 8 0 byte b

/-- the loop of `read_bytes` over the remaining bytes, from the `n`-th one on -/
def readBytesLoop {size : ℕ} : ℕ → ℕ → Vector Byte size → β → StatusCode × Vector Byte size × β
  | 0, _, buf, b => (.ok, buf, b)
  | k + 1, n, buf, b =>
    match bus.readByte (buf[n]?.getD 0) b with
    | (.ok, byte, b) => readBytesLoop k (n + 1) (buf.setIfInBounds n byte) b
    | (code, byte, b) => (code, buf.setIfInBounds n byte, b)

def readBytes {size : ℕ} (buf : Vector Byte size) (b : β) : StatusCode × Vector Byte size × β :=
  if size = 0 then (.invalidArg, buf, b) else bus.readBytesLoop size 0 buf b

def writeBytesLoop : List Byte → β → StatusCode × β
  | [], b => (.ok, b)
  | byte :: buf, b =>
    match bus.writeByte byte b with
    | (.ok, b) => writeBytesLoop buf b
    | r => r

def writeBytes (buf : List Byte) (b : β) : StatusCode × β :=
  if buf.isEmpty then (.invalidArg, b) else bus.writeBytesLoop buf b

end Bus

/-- `RomCode::match` -/
def RomCode.matchRom {β : Type} (romCode : RomCode) (bus : Bus β) (b : β) : StatusCode × β :=
  match bus.reset b with
  | (.ok, b) =>
    -- `Command::MatchRom`
    match bus.writeByte 0x55 b with
    | (.ok, b) => bus.writeBytes romCode.bytes.toList b
    | r => r
  | r => r

end ControlComponents.Onewire

namespace ControlComponents.Ds18b20

open ControlComponents.Algo ControlComponents.Lib.Runs ControlComponents.Onewire ControlComponents.Storage

/-! ## Model -/

/-- `Configuration::Resolution`, an enumeration over a byte; a stored record may hold any byte -/
structure Resolution where
  value : Byte
deriving DecidableEq

namespace Resolution

def none : Resolution := ⟨0⟩
def bit12 : Resolution := ⟨1⟩
def bit11 : Resolution := ⟨2⟩
def bit10 : Resolution := ⟨3⟩
def bit9 : Resolution := ⟨4⟩

end Resolution

/-- the packed record that is stored: the ROM code and the resolution -/
structure Configuration where
  romCode : RomCode
  resolution : Resolution
deriving DecidableEq

namespace Configuration

def new : Configuration := ⟨.new, .none⟩

def size : ℕ := 9

/-- the bytes of the record -/
def image (c : Configuration) : List Byte := c.romCode.bytes.toList ++ [c.resolution.value]

/-- the record after bytes have been read into it -/
def load (c : Configuration) (bs : List Byte) : Configuration :=
  ⟨⟨.ofFn fun i : Fin 8 => bs[i.val]?.getD (c.romCode.bytes.get i)⟩, ⟨bs[8]?.getD c.resolution.value⟩⟩

end Configuration

/-- `configuration_resolution_to_proto`: the bits R0 and R1 -/
def configurationResolutionToProto (resolution : Resolution) : Byte × Byte :=
  if resolution = .bit12 then (1, 1)
  else if resolution = .bit11 then (0, 1)
  else if resolution = .bit10 then (1, 0)
  else if resolution = .bit9 then (0, 0)
  else (0, 0)

/-- the packed structure of nine bytes; the configuration is byte 4 -/
structure Scratchpad where
  bytes : Vector Byte 9
deriving DecidableEq

namespace Scratchpad

def new : Scratchpad := ⟨.replicate 9 0⟩

def crc (s : Scratchpad) : Byte := s.bytes[8]

def valid (s : Scratchpad) : Bool := calculateCrc (s.bytes.toList.take 8) = s.crc

/-- the bit fields of the configuration, from the least significant bit on: five reserved bits, R0, R1, a reserved bit -/
def r0 (s : Scratchpad) : Byte := if s.bytes[4].getLsbD 5 then 1 else 0

def r1 (s : Scratchpad) : Byte := if s.bytes[4].getLsbD 6 then 1 else 0

def setR0 (s : Scratchpad) (r0 : Byte) : Scratchpad := ⟨s.bytes.set 4 (setBit s.bytes[4] 5 (r0.getLsbD 0))⟩

def setR1 (s : Scratchpad) (r1 : Byte) : Scratchpad := ⟨s.bytes.set 4 (setBit s.bytes[4] 6 (r1.getLsbD 0))⟩

variable {β : Type}

/-- `write`: only the bytes 2, 3 and 4 can be modified -/
def write (s : Scratchpad) (bus : Bus β) (romCode : RomCode) (b : β) : StatusCode × β :=
  match romCode.matchRom bus b with
  | (.ok, b) =>
    -- `Command::WriteScratchpad`
    match bus.writeByte 0x4E b with
    | (.ok, b) => bus.writeBytes ((s.bytes.toList.drop 2).take 3) b
    | r => r
  | r => r

def read (s : Scratchpad) (bus : Bus β) (romCode : RomCode) (b : β) : StatusCode × Scratchpad × β :=
  match romCode.matchRom bus b with
  | (.ok, b) =>
    -- `Command::ReadScratchpad`
    match bus.writeByte 0xBE b with
    | (.ok, b) =>
      let (code, bytes, b) := bus.readBytes s.bytes b
      (code, ⟨bytes⟩, b)
    | (code, b) => (code, s, b)
  | (code, b) => (code, s, b)

end Scratchpad

/-- `bus_` is the node the sensor is assigned to -/
structure Sensor where
  id : String
  bus : Option ℕ
  configuration : Configuration

namespace Sensor

def new (id : String) : Sensor := ⟨id, .none, .new⟩

def configured (s : Sensor) : Bool := s.bus.isSome

/-- `read_configuration` into a default configuration -/
def readConfiguration (s : Sensor) (f : Faults) (store : Store) : Except StatusCode Configuration :=
  if s.configured then .ok s.configuration
  else (Storage.read f store s.id Configuration.size).map Configuration.new.load

variable {β : Type}

/-- the part of `write_configuration` on the bus: the resolution is written to the device and read back -/
def updateDevice (bus : Bus β) (configuration : Configuration) (b : β) : StatusCode × β :=
  let (r0, r1) := configurationResolutionToProto configuration.resolution
  let scratchpad := (Scratchpad.new.setR0 r0).setR1 r1
  match scratchpad.write bus configuration.romCode b with
  | (.ok, b) =>
    match scratchpad.read bus configuration.romCode b with
    | (.ok, scratchpad, b) =>
      if !scratchpad.valid then (.invalidState, b)
      else if scratchpad.r0 ≠ r0 ∨ scratchpad.r1 ≠ r1 then (.invalidState, b)
      else (.ok, b)
    | (code, _, b) => (code, b)
  | r => r

/-- the part of `write_configuration` in the storage: the record is written if it differs from the stored one -/
def persist (id : String) (f : Faults) (store : Store) (configuration : Configuration) : StatusCode × Store :=
  match Storage.read f store id Configuration.size with
  | .error code =>
    if code ≠ .noData then (code, store)
    else if Configuration.new ≠ configuration then Storage.write f store id configuration.image
    else (.ok, store)
  | .ok bs =>
    if Configuration.new.load bs ≠ configuration then Storage.write f store id configuration.image
    else (.ok, store)

/-- `write_configuration` on the bus of a node -/
def writeConfiguration (s : Sensor) (bus : Bus β) (node : ℕ) (f : Faults) (store : Store)
    (configuration : Configuration) (b : β) : StatusCode × Sensor × Store × β :=
  if !configuration.romCode.valid then (.invalidArg, s, store, b)
  else
    match updateDevice bus configuration b with
    | (.ok, b) =>
      match persist s.id f store configuration with
      | (.ok, store) => (.ok, { s with bus := some node, configuration }, store, b)
      | (code, store) => (code, s, store, b)
    | (code, b) => (code, s, store, b)

/-- `erase_configuration`: the status and the erased configuration -/
def eraseConfiguration (s : Sensor) (f : Faults) (store : Store) : Except StatusCode Configuration × Sensor × Store :=
  match Storage.erase f store s.id with
  | (.ok, store) => (.ok s.configuration, { s with bus := .none, configuration := .new }, store)
  | (code, store) => (.error code, s, store)

end Sensor

/-- the sensor, the storage, the ids of the sensors of each node, and the devices on the buses -/
structure World (β : Type) where
  sensor : Sensor
  store : Store
  sensors : ℕ → List String
  devices : β

inductive Call where
  /-- `Store::Node::add`; the storage may fail in the reading of the configuration and again in the writing -/
  | add (node : ℕ) (reading writing : Faults)
  | readConfiguration (f : Faults)
  | writeConfiguration (node : ℕ) (f : Faults) (configuration : {c : Configuration // c.resolution ≠ .none})
  | eraseConfiguration (f : Faults)

variable {β : Type}

/-- a sensor that has not been configured yet -/
def World.start (id : String) (store : Store) (sensors : ℕ → List String) (devices : β) : World β :=
  ⟨.new id, store, sensors, devices⟩

/-- `Store::Node::add`: a configuration that cannot be loaded or written is logged only -/
def World.add (bus : ℕ → Bus β) (w : World β) (node : ℕ) (reading writing : Faults) :
    StatusCode × World β :=
  if (w.sensors node).any fun id => decide (id = w.sensor.id) then (.invalidArg, w)
  else
    let sensors := Function.update w.sensors node (w.sensors node ++ [w.sensor.id])
    match w.sensor.readConfiguration reading w.store with
    | .error _ => (.ok, { w with sensors })
    | .ok configuration =>
      let (_, sensor, store, devices) :=
        w.sensor.writeConfiguration (bus node) node writing w.store configuration w.devices
      (.ok, { sensor, store, sensors, devices })

/-- a call, with its status -/
def step (bus : ℕ → Bus β) (w : World β) : Call → StatusCode × World β
  | .add node reading writing => w.add bus node reading writing
  | .readConfiguration f =>
    match w.sensor.readConfiguration f w.store with
    | .error code => (code, w)
    | .ok _ => (.ok, w)
  | .writeConfiguration node f configuration =>
    let (code, sensor, store, devices) :=
      w.sensor.writeConfiguration (bus node) node f w.store configuration w.devices
    (code, { w with sensor, store, devices })
  | .eraseConfiguration f =>
    let (result, sensor, store) := w.sensor.eraseConfiguration f w.store
    (match result with | .error code => code | .ok _ => .ok, { w with sensor, store })

/-! ## Records -/

@[simp] theorem length_image (c : Configuration) : c.image.length = Configuration.size := by
  simp [Configuration.image, Configuration.size]

/-- a full record is loaded byte for byte -/
theorem image_load (c : Configuration) {bs : List Byte} (h : bs.length = Configuration.size) :
    (c.load bs).image = bs := by
  have hlen : bs.length = 9 := h
  apply List.ext_getElem
  · rw [length_image, h]
  · intro i _ hi
    simp only [Configuration.image, Configuration.load, List.getElem_append, Vector.length_toList, List.getElem_singleton]
    split_ifs with hlt
    · simp [hi]
    · have hi8 : i = 8 := by omega
      subst hi8
      simp [hi]

/-! ## Single calls -/

/-- every stored record of the sensor is a full one -/
def Full (id : String) (store : Store) : Prop := ∀ v, store.lookup id = some v → v.length = Configuration.size

/-- a write that fails leaves the storage; otherwise the storage holds the record -/
theorem write_spec (id : String) (f : Faults) (store : Store) (v : List Byte) :
    ((Storage.write f store id v).1 ≠ .ok → (Storage.write f store id v).2 = store) ∧
      ((Storage.write f store id v).1 = .ok → (Storage.write f store id v).2.lookup id = some v) := by
  rcases write_cases f store id v with ⟨e, _, h⟩ | ⟨_, h⟩
  · rw [h]
    exact ⟨fun _ => rfl, fun hok => absurd hok e.failed⟩
  · rw [h]
    exact ⟨fun hne => absurd rfl hne, fun _ => Finmap.lookup_insert store⟩

/-- `persist` fails and leaves the storage, or the storage holds the record in the end. A record without a resolution is
what a failed read leaves in memory, so it has to be there before. -/
theorem persist_spec {id : String} {store : Store} (hfull : Full id store) (f : Faults) {c : Configuration}
    (hc : c.resolution ≠ .none ∨ store.lookup id = some c.image) :
    ((Sensor.persist id f store c).1 ≠ .ok → (Sensor.persist id f store c).2 = store) ∧
      ((Sensor.persist id f store c).1 = .ok → (Sensor.persist id f store c).2.lookup id = some c.image) := by
  unfold Sensor.persist
  rcases read_cases f store id Configuration.size with ⟨code, hcode, hread⟩ | ⟨v, hlookup, hread⟩
  · simp only [hread]
    split_ifs with hno hne
    · exact ⟨fun _ => rfl, fun hok => absurd hok hcode⟩
    · exact write_spec id f store c.image
    · rw [not_not] at hne
      subst hne
      exact ⟨fun hne => absurd rfl hne, fun _ => hc.resolve_left fun h => h rfl⟩
  · simp only [hread]
    split_ifs with hne
    · exact write_spec id f store c.image
    -- the record is not written because the storage holds it
    · rw [not_not] at hne
      refine ⟨fun hne => absurd rfl hne, fun _ => ?_⟩
      calc store.lookup id
          = some v := hlookup
        _ = some (Configuration.new.load v).image := by rw [image_load _ (hfull v hlookup)]
        _ = some c.image := by rw [hne]

theorem persist_full {id : String} {store : Store} (hfull : Full id store) (f : Faults) (c : Configuration) :
    Full id (Sensor.persist id f store c).2 := by
  have hwrite : Full id (Storage.write f store id c.image).2 := by
    rcases write_cases f store id c.image with ⟨e, _, h⟩ | ⟨_, h⟩
    · rw [h]
      exact hfull
    · rw [h]
      intro v hv
      rw [Finmap.lookup_insert, Option.some.injEq] at hv
      rw [← hv, length_image]
  unfold Sensor.persist
  split
  · split_ifs
    · exact hfull
    · exact hwrite
    · exact hfull
  · split_ifs
    · exact hwrite
    · exact hfull

/-- what holds of the sensor and its storage -/
structure Inv (s : Sensor) (store : Store) : Prop where
  full : Full s.id store
  persisted : s.configured = true → s.configuration.romCode.valid = true ∧ store.lookup s.id = some s.configuration.image

/-- a configuration that has been read is a stored one -/
theorem readConfiguration_stored {s : Sensor} {store : Store} (h : Inv s store) {f : Faults} {c : Configuration}
    (hread : s.readConfiguration f store = .ok c) : store.lookup s.id = some c.image := by
  unfold Sensor.readConfiguration at hread
  split_ifs at hread with hconf
  · cases hread
    exact (h.persisted hconf).2
  · rcases read_cases f store s.id Configuration.size with ⟨code, _, hfail⟩ | ⟨v, hlookup, hok⟩
    · rw [hfail] at hread
      cases hread
    · rw [hok] at hread
      cases hread
      rw [hlookup, image_load _ (h.full v hlookup)]

/-- a configuration with a resolution, or one that is stored, is taken over whole or not at all -/
theorem writeConfiguration_spec {s : Sensor} {store : Store} (h : Inv s store) (bus : Bus β) (node : ℕ) (f : Faults)
    {c : Configuration} (hc : c.resolution ≠ .none ∨ store.lookup s.id = some c.image) (b : β) :
    (∃ code b', code ≠ .ok ∧ s.writeConfiguration bus node f store c b = (code, s, store, b')) ∨
      ∃ store' b', s.writeConfiguration bus node f store c b =
        (.ok, { s with bus := some node, configuration := c }, store', b') ∧
        Inv { s with bus := some node, configuration := c } store' := by
  unfold Sensor.writeConfiguration
  split_ifs with hvalid
  · exact .inl ⟨_, _, by decide, rfl⟩
  · rw [Bool.not_eq_true, Bool.not_eq_false'] at hvalid
    obtain ⟨hfail, hok⟩ := persist_spec h.full f hc
    have hfull := persist_full h.full f c
    split
    · split
      · rename_i store' hpersist
        rw [hpersist] at hok hfull
        exact .inr ⟨store', _, rfl, hfull, fun _ => ⟨hvalid, hok rfl⟩⟩
      · rename_i code store' hne hpersist
        rw [hpersist] at hfail
        obtain rfl := hfail hne
        exact .inl ⟨code, _, hne, rfl⟩
    · rename_i code b' hne hdevice
      exact .inl ⟨code, b', hne, rfl⟩

theorem erase_cases (f : Faults) (store : Store) (id : String) :
    (∃ code, code ≠ .ok ∧ Storage.erase f store id = (code, store)) ∨
      Storage.erase f store id = (.ok, store.erase id) := by
  unfold Storage.erase
  cases f.erase id with
  | some e => exact .inl ⟨e.code, e.failed, rfl⟩
  | none =>
    by_cases hmem : id ∈ store
    · exact .inr (if_pos hmem)
    · exact .inl ⟨.noData, by decide, if_neg hmem⟩

/-- an erased sensor is not configured -/
theorem eraseConfiguration_spec (s : Sensor) (store : Store) (f : Faults) :
    (∃ code, code ≠ .ok ∧ s.eraseConfiguration f store = (.error code, s, store)) ∨
      ∃ store', s.eraseConfiguration f store =
        (.ok s.configuration, { s with bus := .none, configuration := .new }, store') ∧
        Inv { s with bus := .none, configuration := .new } store' := by
  unfold Sensor.eraseConfiguration
  rcases erase_cases f store s.id with ⟨code, hcode, herase⟩ | herase
  · refine .inl ⟨code, hcode, ?_⟩
    rw [herase]
    split
    · rename_i hpair
      exact absurd (Prod.mk.inj hpair).1 hcode
    · rename_i hpair
      obtain ⟨rfl, rfl⟩ := Prod.mk.inj hpair
      rfl
  · rw [herase]
    refine .inr ⟨_, rfl, ?_, fun hconf => by cases hconf⟩
    intro v hv
    rw [Finmap.lookup_erase] at hv
    cases hv

/-! ## Runs -/

/-- a call keeps the invariant, and one that fails leaves the sensor and the storage -/
structure Lawful (w : World β) (r : StatusCode × World β) : Prop where
  inv : Inv r.2.sensor r.2.store
  unchanged : r.1 ≠ .ok → r.2.sensor = w.sensor ∧ r.2.store = w.store

theorem add_lawful (bus : ℕ → Bus β) {w : World β} (hw : Inv w.sensor w.store) (node : ℕ) (reading writing : Faults) :
    Lawful w (w.add bus node reading writing) := by
  unfold World.add
  split_ifs with hid
  · exact ⟨hw, fun _ => ⟨rfl, rfl⟩⟩
  · cases hread : w.sensor.readConfiguration reading w.store with
    | error code => exact ⟨hw, fun hne => absurd rfl hne⟩
    | ok configuration =>
      have hstored := readConfiguration_stored hw hread
      rcases writeConfiguration_spec hw (bus node) node writing (.inr hstored) w.devices with
        ⟨code, devices, _, h⟩ | ⟨store, devices, h, hinv⟩
      · simp only [h]
        exact ⟨hw, fun hne => absurd rfl hne⟩
      · simp only [h]
        exact ⟨hinv, fun hne => absurd rfl hne⟩

theorem step_lawful (bus : ℕ → Bus β) (w : World β) (call : Call) (hw : Inv w.sensor w.store) :
    Lawful w (step bus w call) := by
  cases call with
  | add node reading writing => exact add_lawful bus hw node reading writing
  | readConfiguration f =>
    simp only [step]
    split
    · exact ⟨hw, fun _ => ⟨rfl, rfl⟩⟩
    · exact ⟨hw, fun _ => ⟨rfl, rfl⟩⟩
  | writeConfiguration node f configuration =>
    simp only [step]
    rcases writeConfiguration_spec hw (bus node) node f (.inl configuration.2) w.devices with
      ⟨code, devices, _, h⟩ | ⟨store, devices, h, hinv⟩
    · rw [h]
      exact ⟨hw, fun _ => ⟨rfl, rfl⟩⟩
    · rw [h]
      exact ⟨hinv, fun hne => absurd rfl hne⟩
  | eraseConfiguration f =>
    simp only [step]
    rcases eraseConfiguration_spec w.sensor w.store f with ⟨code, _, h⟩ | ⟨store, h, hinv⟩
    · rw [h]
      exact ⟨hw, fun _ => ⟨rfl, rfl⟩⟩
    · rw [h]
      exact ⟨hinv, fun hne => absurd rfl hne⟩

/-- the state after a list of calls -/
def after (bus : ℕ → Bus β) (w : World β) (calls : List Call) : World β := run (fun w call => (step bus w call).2) w calls

/-- **The configuration in memory is the stored one.** For every bus, all devices, and a storage that holds one full record
of the sensor or none: after every sequence of calls, whatever fails, a configured sensor has a valid ROM code, and its
configuration is byte for byte what is stored under its id; and a call that fails leaves the sensor and the storage. -/
theorem configured_persisted (bus : ℕ → Bus β) (id : String) (store : Store)
    (hstore : ∀ v, store.lookup id = some v → v.length = Configuration.size) (sensors : ℕ → List String) (devices : β)
    (calls : List Call) :
    let w := after bus (.start id store sensors devices) calls
    (w.sensor.configured = true →
      w.sensor.configuration.romCode.valid = true ∧ w.store.lookup w.sensor.id = some w.sensor.configuration.image) ∧
    ∀ call, (step bus w call).1 ≠ .ok →
      (step bus w call).2.sensor = w.sensor ∧ (step bus w call).2.store = w.store := by
  intro w
  have hstep (w : World β) (call : Call) (hw : Inv w.sensor w.store) :
      Inv (step bus w call).2.sensor (step bus w call).2.store := (step_lawful bus w call hw).inv
  have hstart : Inv (World.start id store sensors devices).sensor (World.start id store sensors devices).store :=
    ⟨hstore, fun hconf => by cases hconf⟩
  have hw : Inv w.sensor w.store := run_preserves hstep hstart calls
  exact ⟨hw.persisted, fun call => (step_lawful bus w call hw).unchanged⟩

/-- a bus that pulls the line down all the time -/
def exampleBus : Bus Unit where
  reset b := (.ok, b)
  readBit b := (.ok, false, b)
  writeBit _ b := (.ok, b)

/-- the sensor is added, a configuration is written, and erased when the storage fails -/
def exampleCalls : List Call :=
  [.add 0 .none .none, .writeConfiguration 0 .none ⟨⟨.new, .bit9⟩, by decide⟩,
    .eraseConfiguration { Faults.none with erase := fun _ => some .plain }]

theorem configured_persisted_example :
    let w := after (fun _ => exampleBus) (.start "temp" ∅ (fun _ => []) ()) exampleCalls
    w.sensor.configured = true ∧ w.store.lookup w.sensor.id = some w.sensor.configuration.image := by
  intro w
  have h := (configured_persisted (fun _ => exampleBus) "temp" ∅ (by simp) (fun _ => []) () exampleCalls).1
  have hconf : w.sensor.configured = true := by decide +kernel
  exact ⟨hconf, (h hconf).2⟩

end ControlComponents.Ds18b20
