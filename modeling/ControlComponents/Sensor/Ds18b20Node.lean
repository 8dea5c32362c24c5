/-
One bus of the store (`ocs_sensor/ds18b20`) with all that is on it: the sensors that share it, their storage, and devices
that are plugged in and out, finish their conversions, and may be named by several sensors.

- `updateDevice_spec`, `measure_spec`: a configuration goes to the device that it names and to no other, and a measurement
  comes from the device of the sensor.
- `resolution_kept`: over whole runs, the device of a configuration that has been accepted has its resolution until the next
  attempt to configure it. `publishes_own`: what a run of a sensor publishes.
-/
import ControlComponents.Lib.Histories
import ControlComponents.Sensor.Ds18b20Bus

namespace ControlComponents.Ds18b20

open ControlComponents.Lib.BitStream ControlComponents.Lib.Histories ControlComponents.Lib.Runs ControlComponents.Onewire
open ControlComponents.Storage

/-! ## Configuring and measuring -/

namespace Device

theorem scratchpad_valid (d : Device) : d.scratchpad.valid = true := by
  have htake : d.scratchpad.bytes.toList.take 8 = d.memory.toList := by
    rw [scratchpad, Vector.toList_push, List.take_left' (Vector.length_toList)]
  have hcrc : d.scratchpad.crc = calculateCrc d.memory.toList := Vector.getElem_push_eq
  rw [Scratchpad.valid, htake, hcrc, decide_eq_true rfl]

/-- R0 and R1 of a device -/
def resolution (d : Device) : Byte × Byte := (d.scratchpad.r0, d.scratchpad.r1)

/-- the number of bits that a device converts to: nine, and those that bits 5 and 6 of its configuration add -/
def bits (d : Device) : ℕ := 9 + (d.memory.toList.getD 4 0).toNat / 32 % 4

end Device

/-- the number of bits of a resolution; the least for a byte that is none of the four -/
def Resolution.bits (resolution : Resolution) : ℕ :=
  if resolution = .bit12 then 12
  else if resolution = .bit11 then 11
  else if resolution = .bit10 then 10
  else 9

/-- the scratchpad that is written for two bits -/
def sentScratchpad (proto : Byte × Byte) : Scratchpad := (Scratchpad.new.setR0 proto.1).setR1 proto.2

theorem proto_mem (resolution : Resolution) :
    configurationResolutionToProto resolution ∈ [((1 : Byte), (1 : Byte)), (0, 1), (1, 0), (0, 0)] := by
  unfold configurationResolutionToProto
  split_ifs <;> decide

/-- the two bits that are sent are those that the device has then -/
theorem write_resolution (d : Device) {proto : Byte × Byte}
    (h : proto ∈ [((1 : Byte), (1 : Byte)), (0, 1), (1, 0), (0, 0)]) :
    (d.write (Devices.sentBytes (sentScratchpad proto))).resolution = proto := by
  have hbyte (sent : List Bool) : (d.write sent).scratchpad.bytes[4] = (word 8 (sent.drop 16) &&& 0x60) ||| 0x1F := by
    simp only [Device.scratchpad, Device.write]
    rw [Vector.getElem_push_lt (by decide), Vector.getElem_set_self]
  simp only [Device.resolution, Scratchpad.r0, Scratchpad.r1, hbyte]
  simp only [List.mem_cons, List.not_mem_nil, or_false] at h
  rcases h with rfl | rfl | rfl | rfl <;> decide +kernel

/-- without the device the bytes that are read fail the check -/
theorem absent_invalid : Scratchpad.valid ⟨.replicate 9 0xFF⟩ = false := by decide +kernel

section

variable (line : ℕ → Option LineFault) (w : Wire) (hunique : w.bus.romCodes.Nodup)

include hunique in
/-- what `Scratchpad::read` has read, if it returns OK -/
theorem read_answer (c : RomCode) (s : Scratchpad) (h : (s.read (deviceBus line) c w).1 = .ok) :
    (s.read (deviceBus line) c w).2.1 = w.bus.answer c := by
  have hstream := read_levels line c s w h
  rw [Devices.run_requestSignals, Devices.levels_requested hunique] at hstream
  have hbytes := Vector.toList_inj.1 (stream_injective (by simp) hstream)
  rcases hread : (s.read (deviceBus line) c w).2.1 with ⟨bytes⟩
  rcases hanswer : w.bus.answer c with ⟨bytes'⟩
  rw [hread, hanswer] at hbytes
  exact congrArg Scratchpad.mk hbytes

/-- reading leaves the scratchpads, whatever fails -/
theorem read_devices (c : RomCode) (s : Scratchpad) :
    (s.read (deviceBus line) c w).2.2.bus.devices = w.bus.devices :=
  (Devices.throughout_readSignals w.bus c 72).of_sent ((performs_read line c s).sends w)

/-- the ROM codes stay -/
theorem map_stored (b : Devices) (c : RomCode) (sent : List Bool) :
    (b.stored c sent).map Device.romCode = b.romCodes := by
  rw [Devices.stored, List.map_map]
  refine List.map_congr_left fun d _ => ?_
  rw [Function.comp_apply]
  split_ifs <;> rfl

/-- a scratchpad that is valid is that of a device -/
theorem mem_of_answer_valid {b : Devices} {c : RomCode} (h : (b.answer c).valid = true) : c ∈ b.romCodes := by
  by_contra hc
  rw [Devices.answer_of_absent hc, absent_invalid] at h
  cases h

/-- the device with a code after it has stored what was sent -/
theorem answer_stored {b b' : Devices} (hunique : b.romCodes.Nodup) {c : RomCode} (hc : c ∈ b.romCodes) {sent : List Bool}
    (h : b'.devices = b.stored c sent) : ∃ d ∈ b.devices, d.romCode = c ∧ b'.answer c = (d.write sent).scratchpad := by
  obtain ⟨d, hd, rfl⟩ := List.mem_map.1 hc
  have hcodes : b'.romCodes = b.romCodes := by rw [Devices.romCodes, h, map_stored]
  have hmem : d.write sent ∈ b'.devices := by
    rw [h]
    exact List.mem_map.2 ⟨d, hd, if_pos rfl⟩
  exact ⟨d, hd, rfl, Devices.answer_of_mem (hcodes ▸ hunique) hmem⟩

/-- what is sent to the device of a configuration -/
def sentConfiguration (configuration : Configuration) : List Bool :=
  Devices.sentBytes (sentScratchpad (configurationResolutionToProto configuration.resolution))

/-- the device converts to as many bits as have been asked for then -/
theorem write_bits (d : Device) (configuration : Configuration) :
    (d.write (sentConfiguration configuration)).bits = configuration.resolution.bits := by
  have hbyte (sent : List Bool) :
      (d.write sent).memory.toList.getD 4 0 = (word 8 (sent.drop 16) &&& 0x60) ||| 0x1F := by
    rw [List.getD_eq_getElem _ _ (by simp), Vector.getElem_toList, Device.write, Vector.getElem_set_self]
  rw [Device.bits, hbyte]
  unfold sentConfiguration Resolution.bits configurationResolutionToProto
  split_ifs <;> decide +kernel

include hunique in
/-- **Configuring the device with a code.** Whatever operations of the line fail: its scratchpad is as it was, or it has
stored the resolution, and no other device has changed. If the status is OK the device is there and has stored it, and if
it is there and nothing fails the status is OK. -/
theorem updateDevice_spec (configuration : Configuration) :
    let r := Sensor.updateDevice (deviceBus line) configuration w
    (r.2.bus.devices = w.bus.devices ∨
      r.2.bus.devices = w.bus.stored configuration.romCode (sentConfiguration configuration)) ∧
    (r.1 = .ok → r.2.bus.devices = w.bus.stored configuration.romCode (sentConfiguration configuration) ∧
      configuration.romCode ∈ w.bus.romCodes) ∧
    ((∀ n, line n = none) → configuration.romCode ∈ w.bus.romCodes → r.1 = .ok) := by
  unfold sentConfiguration
  have hproto := proto_mem configuration.resolution
  rcases hresolution : configurationResolutionToProto configuration.resolution with ⟨r0, r1⟩
  rw [hresolution] at hproto
  have hperforms := performs_write line configuration.romCode (sentScratchpad (r0, r1))
  have hwrite := hperforms.sends w
  have hdevices := (Devices.throughout_writeSignals w.bus configuration.romCode (sentScratchpad (r0, r1))).of_sent hwrite
  have hcomplete (hline : ∀ n, line n = none) (hc : configuration.romCode ∈ w.bus.romCodes) :=
    hperforms.completes hline w fun hnil => by simp [Devices.romCodes, hnil] at hc
  have hsent : (Scratchpad.new.setR0 r0).setR1 r1 = sentScratchpad (r0, r1) := rfl
  simp only [Sensor.updateDevice, hresolution, hsent]
  rcases hresult : (sentScratchpad (r0, r1)).write (deviceBus line) configuration.romCode w with ⟨code, w₁⟩
  rw [hresult] at hwrite hdevices hcomplete
  cases code with
  | ok =>
    have hstored : w₁.bus.devices =
        w.bus.stored configuration.romCode (Devices.sentBytes (sentScratchpad (r0, r1))) := by
      rw [Sent.complete_run hwrite, Devices.run_writeSignals]
    have hcodes : w₁.bus.romCodes = w.bus.romCodes := by
      rw [Devices.romCodes, hstored, map_stored]
    have hkept := read_devices line w₁ configuration.romCode (sentScratchpad (r0, r1))
    have hanswer := read_answer line w₁ (hcodes ▸ hunique) configuration.romCode (sentScratchpad (r0, r1))
    have hread' := (performs_read line configuration.romCode (sentScratchpad (r0, r1))).completes
    rw [hstored] at hkept
    simp only
    rcases hread : (sentScratchpad (r0, r1)).read (deviceBus line) configuration.romCode w₁ with
      ⟨code, scratchpad, w₂⟩
    rw [hread] at hkept hanswer
    cases code with
    | ok =>
      have hscratchpad : scratchpad = w₁.bus.answer configuration.romCode := hanswer rfl
      have hright (hc : configuration.romCode ∈ w.bus.romCodes) :
          scratchpad.valid = true ∧ scratchpad.r0 = r0 ∧ scratchpad.r1 = r1 := by
        obtain ⟨d, -, -, hd⟩ := answer_stored hunique hc hstored
        have hbits := write_resolution d hproto
        rw [hscratchpad, hd]
        exact ⟨Device.scratchpad_valid _, congrArg Prod.fst hbits, congrArg Prod.snd hbits⟩
      simp only
      split_ifs with hvalid hbits
      · refine ⟨.inr hkept, (fun h => by cases h), fun _ hc => ?_⟩
        rw [(hright hc).1] at hvalid
        cases hvalid
      · exact ⟨.inr hkept, (fun h => by cases h), fun _ hc => absurd (hright hc).2 (by tauto)⟩
      · refine ⟨.inr hkept, fun _ => ⟨hkept, ?_⟩, fun _ _ => rfl⟩
        rw [← hcodes]
        exact mem_of_answer_valid (by rw [← hscratchpad]; simpa using hvalid)
    | _ =>
      refine ⟨.inr hkept, (fun h => by cases h), fun hline hc => ?_⟩
      have hne : w₁.bus.devices ≠ [] := by
        intro hnil
        rw [← hcodes, Devices.romCodes, hnil] at hc
        cases hc
      have hok := hread' hline w₁ hne
      rw [discard, hread] at hok
      cases hok
  | _ => exact ⟨hdevices, (fun h => by cases h), fun hline hc => hcomplete hline hc⟩

/-- the part of `Sensor::run` before the scratchpad is read -/
def convertSignals (c : RomCode) : List Signal := matchSignals c ++ (bits (0x44 : Byte)).map .write

theorem performs_convert (line : ℕ → Option LineFault) (c : RomCode) :
    Performs line (andThen (c.matchRom (deviceBus line)) ((deviceBus line).writeByte 0x44)) (convertSignals c) :=
  (performs_matchRom line c).andThen (performs_writeByte line 0x44)

/-- a conversion that is started leaves the scratchpads; what it measures is stored later -/
theorem throughout_convertSignals (b : Devices) (c : RomCode) :
    Throughout Devices.see (fun d => d.devices = b.devices) b (convertSignals c) := by
  rw [convertSignals, throughout_append, Devices.run_matchSignals]
  refine ⟨Devices.throughout_matchSignals b c fun _ => id, ?_⟩
  refine Devices.throughout_receive rfl _ (by decide) (fun _ => id) ?_
  simp only [Devices.complete, List.nil_append, word_bits]
  rfl

theorem answer_congr {b b' : Devices} (h : b.devices = b'.devices) (c : RomCode) : b.answer c = b'.answer c := by
  rw [Devices.answer, Devices.answer, h]

include hunique in
/-- **Measuring.** Whatever operations of the line fail: no scratchpad changes, and what is read is the scratchpad of the
device with the code of the sensor. If nothing fails and there is a device it is read. -/
theorem measure_spec (s : Sensor) :
    let r := s.measure (fun _ => deviceBus line) w
    r.2.bus.devices = w.bus.devices ∧
    (∀ scratchpad, r.1 = .ok scratchpad → scratchpad = w.bus.answer s.configuration.romCode) ∧
    ((∀ n, line n = none) → s.configured = true → w.bus.devices ≠ [] → ∃ scratchpad, r.1 = .ok scratchpad) := by
  have hconvert := (performs_convert line s.configuration.romCode).sends w
  have hdevices := (throughout_convertSignals w.bus s.configuration.romCode).of_sent hconvert
  have hcomplete (hline : ∀ n, line n = none) (hne : w.bus.devices ≠ []) :=
    (performs_convert line s.configuration.romCode).completes hline w hne
  simp only [andThen] at hconvert hdevices hcomplete
  unfold Sensor.measure
  cases hbus : s.bus with
  | none => exact ⟨rfl, (fun _ h => by cases h), fun _ hconfigured => by simp [Sensor.configured, hbus] at hconfigured⟩
  | some node =>
    simp only
    rcases hmatch : s.configuration.romCode.matchRom (deviceBus line) w with ⟨code, w₁⟩
    rw [hmatch] at hdevices hcomplete
    cases code with
    | ok =>
      simp only at hdevices hcomplete ⊢
      rcases hbyte : (deviceBus line).writeByte 0x44 w₁ with ⟨code, w₂⟩
      rw [hbyte] at hdevices hcomplete
      cases code with
      | ok =>
        have hcodes : w₂.bus.romCodes = w.bus.romCodes := congrArg (List.map Device.romCode) hdevices
        have hkept := read_devices line w₂ s.configuration.romCode .new
        have hanswer := read_answer line w₂ (hcodes ▸ hunique) s.configuration.romCode .new
        have hread' := (performs_read line s.configuration.romCode .new).completes
        simp only
        rcases hread : Scratchpad.new.read (deviceBus line) s.configuration.romCode w₂ with ⟨code, scratchpad, w₃⟩
        rw [hread] at hkept hanswer
        cases code with
        | ok =>
          refine ⟨hkept.trans hdevices, fun scratchpad' h => ?_, fun _ _ _ => ⟨scratchpad, rfl⟩⟩
          rw [← Except.ok.inj h, ← answer_congr hdevices]
          exact hanswer rfl
        | _ =>
          refine ⟨hkept.trans hdevices, (fun _ h => by cases h), fun hline _ hne => ?_⟩
          have hok := hread' hline w₂ (hdevices ▸ hne)
          rw [discard, hread] at hok
          cases hok
      | _ => exact ⟨hdevices, (fun _ h => by cases h), fun hline _ hne => by cases hcomplete hline hne⟩
    | _ => exact ⟨hdevices, (fun _ h => by cases h), fun hline _ hne => by cases hcomplete hline hne⟩

end

/-! ## The bus with its sensors -/

inductive NodeEntry where
  /-- an attempt to configure the device of a sensor -/
  | configured (configuration : Configuration) (code : StatusCode)
  /-- a device has been plugged in or out -/
  | plugged (romCode : RomCode)
deriving DecidableEq

structure Node where
  sensors : ℕ → Sensor
  /-- what they have published -/
  data : ℕ → ℚ
  /-- those that have been added, in order -/
  added : List ℕ
  store : Store
  wire : Wire
  log : List NodeEntry

inductive NodeEvent where
  /-- `Store::Node::add`; the storage may fail in the reading of the configuration and again in the writing -/
  | add (i : ℕ) (reading writing : Faults)
  | configure (i : ℕ) (f : Faults) (configuration : {c : Configuration // c.resolution ≠ .none})
  | erase (i : ℕ) (f : Faults)
  | run (i : ℕ)
  /-- a device has a new temperature -/
  | converted (romCode : RomCode) (lsb msb : Byte)
  | plug (d : Device)
  | unplug (romCode : RomCode)

def Device.convert (d : Device) (lsb msb : Byte) : Device := { d with memory := (d.memory.set 0 lsb).set 1 msb }

def Wire.withDevices (w : Wire) (devices : List Device) : Wire := { w with bus := { w.bus with devices } }

namespace Node

/-- sensors that have not been configured, any content of the storage, and devices with codes of their own -/
def start (ids : ℕ → String) (store : Store) (devices : {ds : List Device // (ds.map Device.romCode).Nodup}) : Node :=
  ⟨fun i => .new (ids i), fun _ => 0, [], store, ⟨⟨.idle, [], devices⟩, 0⟩, []⟩

variable (line : ℕ → Option LineFault) (n : Node)

def configure (i : ℕ) (f : Faults) (configuration : Configuration) : StatusCode × Node :=
  let (code, sensor, store, wire) :=
    (n.sensors i).writeConfiguration (deviceBus line) 0 f n.store configuration n.wire
  let log := n.log ++ [.configured configuration code]
  (code, { n with sensors := Function.update n.sensors i sensor, store, wire, log })

/-- `Store::Node::add`: a configuration that cannot be loaded or written is logged only -/
def add (i : ℕ) (reading writing : Faults) : Node :=
  if n.added.any fun j => decide ((n.sensors j).id = (n.sensors i).id) then n
  else
    let n := { n with added := n.added ++ [i] }
    match (n.sensors i).readConfiguration reading n.store with
    | .error _ => n
    | .ok configuration => (n.configure line i writing configuration).2

def erase (i : ℕ) (f : Faults) : Node :=
  let (_, sensor, store) := (n.sensors i).eraseConfiguration f n.store
  { n with sensors := Function.update n.sensors i sensor, store }

def runSensor (i : ℕ) : Node :=
  let (_, value, wire) := (n.sensors i).run (fun _ => deviceBus line) (n.data i) n.wire
  { n with data := Function.update n.data i value, wire }

def step (n : Node) : NodeEvent → Node
  | .add i reading writing => n.add line i reading writing
  | .configure i f configuration => (n.configure line i f configuration).2
  | .erase i f => n.erase i f
  | .run i => n.runSensor line i
  | .converted romCode lsb msb =>
    let devices := n.wire.bus.devices.map fun d => if d.romCode = romCode then d.convert lsb msb else d
    { n with wire := n.wire.withDevices devices }
  | .plug d =>
    if n.wire.bus.romCodes.contains d.romCode then n
    else { n with wire := n.wire.withDevices (n.wire.bus.devices ++ [d]), log := n.log ++ [.plugged d.romCode] }
  | .unplug romCode =>
    { n with wire := n.wire.withDevices (n.wire.bus.devices.filter fun d => decide (d.romCode ≠ romCode)),
             log := n.log ++ [.plugged romCode] }

end Node

/-! ## The resolution of a device -/

/-- the entry is about the device with the code -/
def NodeEntry.touches (c : RomCode) : NodeEntry → Bool
  | .configured configuration _ => decide (configuration.romCode = c)
  | .plugged romCode => decide (romCode = c)

/-- the device with the code has been given the resolution -/
def NodeEntry.sets (c : RomCode) (bits : ℕ) : NodeEntry → Bool
  | .configured configuration .ok => decide (configuration.romCode = c ∧ configuration.resolution.bits = bits)
  | _ => false

/-- the device with the code is there and converts to as many bits -/
def Resolved (b : Devices) (c : RomCode) (bits : ℕ) : Prop :=
  ∃ d ∈ b.devices, d.romCode = c ∧ d.bits = bits

structure Node.Inv (n : Node) : Prop where
  unique : n.wire.bus.romCodes.Nodup
  kept : ∀ c bits, since (NodeEntry.sets c bits) (NodeEntry.touches c) n.log = true → Resolved n.wire.bus c bits

theorem resolved_congr {b b' : Devices} (h : b'.devices = b.devices) {c : RomCode} {bits : ℕ}
    (hb : Resolved b c bits) : Resolved b' c bits := by
  unfold Resolved
  rwa [h]

/-- what changes some devices only leaves the others -/
theorem resolved_map {b b' : Devices} {f : Device → Device} (h : b'.devices = b.devices.map f)
    {c : RomCode} {bits : ℕ} (hf : ∀ d, d.romCode = c → (f d).romCode = c ∧ (f d).bits = d.bits)
    (hb : Resolved b c bits) : Resolved b' c bits := by
  obtain ⟨d, hd, hcode, hbits⟩ := hb
  obtain ⟨hcode', hbits'⟩ := hf d hcode
  exact ⟨f d, h ▸ List.mem_map_of_mem hd, hcode', hbits'.trans hbits⟩

/-- **Configuring a sensor.** Its device is as it was or has the resolution, and no other has changed; if the status is OK
the device is there and has it, and the sensor has taken the configuration over. -/
theorem writeConfiguration_devices (line : ℕ → Option LineFault) (s : Sensor) (f : Faults) (store : Store)
    (configuration : Configuration) (w : Wire) (hunique : w.bus.romCodes.Nodup) :
    let r := s.writeConfiguration (deviceBus line) 0 f store configuration w
    (r.2.2.2.bus.devices = w.bus.devices ∨
      r.2.2.2.bus.devices = w.bus.stored configuration.romCode (sentConfiguration configuration)) ∧
    (r.1 = .ok → r.2.2.2.bus.devices = w.bus.stored configuration.romCode (sentConfiguration configuration) ∧
      configuration.romCode ∈ w.bus.romCodes ∧ r.2.1 = { s with bus := some 0, configuration }) := by
  obtain ⟨hdevices, hok, -⟩ := updateDevice_spec line w hunique configuration
  unfold Sensor.writeConfiguration
  split_ifs with hvalid
  · exact ⟨.inl rfl, (fun h => by cases h)⟩
  · rcases hupdate : Sensor.updateDevice (deviceBus line) configuration w with ⟨code, w'⟩
    rw [hupdate] at hdevices hok
    cases code with
    | ok =>
      obtain ⟨hstored, hmem⟩ := hok rfl
      rcases hpersist : Sensor.persist s.id f store configuration with ⟨code, store'⟩
      cases code with
      | ok => exact ⟨hdevices, fun _ => ⟨hstored, hmem, rfl⟩⟩
      | _ => exact ⟨hdevices, (fun h => by cases h)⟩
    | _ => exact ⟨hdevices, (fun h => by cases h)⟩

/-- a device that has stored a configuration converts to its number of bits -/
theorem resolved_stored {b b' : Devices} {configuration : Configuration}
    (h : b'.devices = b.stored configuration.romCode (sentConfiguration configuration))
    (hmem : configuration.romCode ∈ b.romCodes) :
    Resolved b' configuration.romCode configuration.resolution.bits := by
  obtain ⟨d, hd, hcode⟩ := List.mem_map.1 hmem
  refine ⟨d.write (sentConfiguration configuration), ?_, hcode, write_bits d configuration⟩
  rw [h]
  exact List.mem_map.2 ⟨d, hd, if_pos hcode⟩

namespace Node

variable {line : ℕ → Option LineFault} {n : Node}

theorem configure_inv (hn : n.Inv) (i : ℕ) (f : Faults) (configuration : Configuration) :
    (n.configure line i f configuration).2.Inv := by
  obtain ⟨hdevices, hok⟩ := writeConfiguration_devices line (n.sensors i) f n.store configuration n.wire hn.unique
  unfold configure
  rcases hwrite : (n.sensors i).writeConfiguration (deviceBus line) 0 f n.store configuration n.wire with
    ⟨code, sensor, store, wire⟩
  rw [hwrite] at hdevices hok
  refine ⟨?_, fun c bits hsince => ?_⟩
  · have hcodes : wire.bus.romCodes = n.wire.bus.romCodes := by
      rcases hdevices with hsame | hstored
      · exact congrArg (List.map Device.romCode) hsame
      · rw [Devices.romCodes, hstored, map_stored]
    exact hcodes ▸ hn.unique
  · rw [since_concat, mark] at hsince
    split_ifs at hsince with hset htouch
    · -- the device has just been given the resolution
      have hcode : code = .ok ∧ configuration.romCode = c ∧ configuration.resolution.bits = bits := by
        cases code <;> simp [NodeEntry.sets] at hset
        exact ⟨rfl, hset⟩
      obtain ⟨rfl, rfl, rfl⟩ := hcode
      obtain ⟨hstored, hmem, -⟩ := hok rfl
      exact resolved_stored hstored hmem
    · have hne : configuration.romCode ≠ c := by simpa [NodeEntry.touches] using htouch
      rcases hdevices with hsame | hstored
      · exact resolved_congr hsame (hn.kept c bits hsince)
      · refine resolved_map hstored (fun d hd => ?_) (hn.kept c bits hsince)
        rw [if_neg (by rw [hd]; exact hne.symm)]
        exact ⟨hd, rfl⟩

theorem add_inv (hn : n.Inv) (i : ℕ) (reading writing : Faults) : (n.add line i reading writing).Inv := by
  unfold add
  split_ifs
  · exact hn
  · have hadded : ({ n with added := n.added ++ [i] } : Node).Inv := ⟨hn.unique, hn.kept⟩
    simp only
    split
    · exact hadded
    · exact configure_inv hadded i writing _

/-- what leaves the devices and the log keeps the invariant -/
theorem inv_congr {n' : Node} (hn : n.Inv) (hdevices : n'.wire.bus.devices = n.wire.bus.devices) (hlog : n'.log = n.log) :
    n'.Inv := by
  refine ⟨?_, fun c bits hsince => resolved_congr hdevices (hn.kept c bits (hlog ▸ hsince))⟩
  rw [Devices.romCodes, hdevices]
  exact hn.unique

theorem runSensor_devices (hn : n.Inv) (i : ℕ) : (n.runSensor line i).wire.bus.devices = n.wire.bus.devices := by
  have hkept := (measure_spec line n.wire hn.unique (n.sensors i)).1
  unfold runSensor Sensor.run
  rcases hmeasure : (n.sensors i).measure (fun _ => deviceBus line) n.wire with ⟨result, wire⟩
  rw [hmeasure] at hkept
  cases result <;> exact hkept

/-- a new temperature leaves the resolution -/
theorem convert_bits (d : Device) (lsb msb : Byte) : (d.convert lsb msb).bits = d.bits := by
  have hbyte : (d.convert lsb msb).memory.toList.getD 4 0 = d.memory.toList.getD 4 0 := by
    rw [List.getD_eq_getElem _ _ (by simp), List.getD_eq_getElem _ _ (by simp), Vector.getElem_toList,
      Vector.getElem_toList, Device.convert, Vector.getElem_set_ne _ _ (by decide), Vector.getElem_set_ne _ _ (by decide)]
  rw [Device.bits, hbyte, Device.bits]

/-- a device that comes or goes leaves what is known of the others -/
theorem since_plugged {log : List NodeEntry} {romCode c : RomCode} {bits : ℕ}
    (h : since (NodeEntry.sets c bits) (NodeEntry.touches c) (log ++ [.plugged romCode]) = true) :
    romCode ≠ c ∧ since (NodeEntry.sets c bits) (NodeEntry.touches c) log = true := by
  have hset : NodeEntry.sets c bits (.plugged romCode) = false := rfl
  rw [since_concat, mark, hset, if_neg Bool.false_ne_true] at h
  split_ifs at h with htouch
  exact ⟨by simpa [NodeEntry.touches] using htouch, h⟩

theorem step_inv (n : Node) (e : NodeEvent) (hn : n.Inv) : (n.step line e).Inv := by
  cases e with
  | add i reading writing => exact add_inv hn i reading writing
  | configure i f configuration => exact configure_inv hn i f configuration
  | erase i f => exact inv_congr hn rfl rfl
  | run i => exact inv_congr hn (runSensor_devices hn i) rfl
  | converted romCode lsb msb =>
    have hmap : (n.step line (.converted romCode lsb msb)).wire.bus.devices =
        n.wire.bus.devices.map fun d => if d.romCode = romCode then d.convert lsb msb else d := rfl
    refine ⟨?_, fun c bits hsince => resolved_map hmap (fun d hd => ?_) (hn.kept c bits hsince)⟩
    · rw [Devices.romCodes, hmap, List.map_map]
      have hcodes : n.wire.bus.devices.map (Device.romCode ∘ fun d => if d.romCode = romCode then d.convert lsb msb else d) =
          n.wire.bus.romCodes := by
        refine List.map_congr_left fun d _ => ?_
        rw [Function.comp_apply]
        split_ifs <;> rfl
      rw [hcodes]
      exact hn.unique
    · split_ifs
      · exact ⟨hd, convert_bits d lsb msb⟩
      · exact ⟨hd, rfl⟩
  | plug d =>
    simp only [step]
    split_ifs with hmem
    · exact hn
    · refine ⟨?_, fun c bits hsince => ?_⟩
      · have hnotMem : d.romCode ∉ n.wire.bus.romCodes := by simpa using hmem
        have hcodes : (n.wire.withDevices (n.wire.bus.devices ++ [d])).bus.romCodes = n.wire.bus.romCodes ++ [d.romCode] :=
          List.map_append
        rw [hcodes]
        exact List.nodup_append.2 ⟨hn.unique, List.nodup_singleton _, fun c hc e he => by
          rw [List.mem_singleton.1 he]
          exact fun hcode => hnotMem (hcode ▸ hc)⟩
      · obtain ⟨-, hbefore⟩ := since_plugged hsince
        obtain ⟨e, he, hresolved⟩ := hn.kept c bits hbefore
        exact ⟨e, List.mem_append_left _ he, hresolved⟩
  | unplug romCode =>
    refine ⟨?_, fun c bits hsince => ?_⟩
    · exact hn.unique.sublist (List.filter_sublist.map _)
    · obtain ⟨hne, hbefore⟩ := since_plugged hsince
      obtain ⟨e, he, hcode, hbits⟩ := hn.kept c bits hbefore
      refine ⟨e, List.mem_filter.2 ⟨he, ?_⟩, hcode, hbits⟩
      rw [hcode]
      exact decide_eq_true hne.symm

theorem start_inv (ids : ℕ → String) (store : Store) (devices : {ds : List Device // (ds.map Device.romCode).Nodup}) :
    (start ids store devices).Inv :=
  ⟨devices.2, fun _ _ h => by cases h⟩

end Node

/-- a state of a bus that is reached in some run, whatever is stored at first -/
def Node.Reached (line : ℕ → Option LineFault) (n : Node) : Prop :=
  ∃ ids store devices es, n = run (Node.step line) (.start ids store devices) es

theorem Node.Reached.inv {line : ℕ → Option LineFault} {n : Node} (h : n.Reached line) : n.Inv := by
  obtain ⟨ids, store, devices, es, rfl⟩ := h
  exact run_preserves Node.step_inv (Node.start_inv ids store devices) es

/-- the code of family 0x28 with one byte of a serial number -/
def codeOf (serial crc : Byte) : RomCode := ⟨#v[0x28, serial, 0, 0, 0, 0, 0, crc]⟩

def firstDevice : Device := ⟨codeOf 1 0x29, .replicate 8 0⟩

def secondDevice : Device := ⟨codeOf 2 0x70, .replicate 8 0⟩

def exampleConfiguration : Configuration := ⟨codeOf 1 0x29, .bit9⟩

/-- a sensor is configured and runs while another device comes and goes -/
def exampleNode : Node :=
  run (Node.step fun _ => none) (.start (fun _ => "temp") ∅ ⟨[firstDevice], by decide⟩)
    [.plug secondDevice, .configure 0 .none ⟨exampleConfiguration, by decide⟩, .run 0, .unplug secondDevice.romCode]

/-- **The resolution of a device.** On a bus that several sensors share, whatever fails on the line or in the storage: after
a sensor has been configured with status OK, the device with the ROM code of the configuration is on the bus and converts to
the number of bits of its resolution, until somebody tries to configure this device again or plugs it in or out. -/
theorem resolution_kept (line : ℕ → Option LineFault) (n : Node) (hn : n.Reached line) (before after : List NodeEntry)
    (configuration : Configuration) (hlog : n.log = before ++ .configured configuration .ok :: after)
    (hafter : ∀ e ∈ after, e.touches configuration.romCode = false) :
    ∃ d ∈ n.wire.bus.devices, d.romCode = configuration.romCode ∧ d.bits = configuration.resolution.bits := by
  refine hn.inv.kept configuration.romCode _ ?_
  rw [hlog]
  exact since_of_set (decide_eq_true ⟨rfl, rfl⟩) hafter

theorem resolution_kept_example :
    ∃ d ∈ exampleNode.wire.bus.devices, d.romCode = codeOf 1 0x29 ∧ d.bits = 9 :=
  resolution_kept (fun _ => none) exampleNode ⟨_, _, _, _, rfl⟩ [.plugged secondDevice.romCode]
    [.plugged secondDevice.romCode] exampleConfiguration (by decide +kernel) (by decide)

/-- **What a sensor publishes.** In every state of such a bus: a run of a sensor publishes the temperature of the device
with the ROM code of its configuration, or nothing, and changes no device. If nothing fails on the line and its device is
there, the run publishes. -/
theorem publishes_own (line : ℕ → Option LineFault) (n : Node) (hn : n.Reached line) (i : ℕ) :
    (n.step line (.run i)).wire.bus.devices = n.wire.bus.devices ∧
    ((n.step line (.run i)).data = n.data ∨
      ∃ d ∈ n.wire.bus.devices, d.romCode = (n.sensors i).configuration.romCode ∧
        (n.step line (.run i)).data = Function.update n.data i d.scratchpad.getTemperature) ∧
    ((∀ k, line k = none) → (n.sensors i).configured = true →
      ∀ d ∈ n.wire.bus.devices, d.romCode = (n.sensors i).configuration.romCode →
        (n.step line (.run i)).data = Function.update n.data i d.scratchpad.getTemperature) := by
  have hinv := hn.inv
  obtain ⟨-, hanswer, hcomplete⟩ := measure_spec line n.wire hinv.unique (n.sensors i)
  have hdata : (n.step line (.run i)).data = Function.update n.data i
      ((n.sensors i).run (fun _ => deviceBus line) (n.data i) n.wire).2.1 := rfl
  refine ⟨Node.runSensor_devices hinv i, ?_, fun hline hconfigured d hd hcode => ?_⟩
  · rw [hdata]
    rcases hmeasure : ((n.sensors i).measure (fun _ => deviceBus line) n.wire).1 with code | scratchpad
    · have hvalue : ((n.sensors i).run (fun _ => deviceBus line) (n.data i) n.wire).2.1 = n.data i := by
        rw [Sensor.run, ← Prod.eta ((n.sensors i).measure _ _), hmeasure]
      rw [hvalue]
      exact .inl (Function.update_eq_self i n.data)
    · rw [run_spec (n.sensors i) _ _ _ hmeasure]
      split_ifs with hvalid
      · rw [hanswer scratchpad hmeasure] at hvalid ⊢
        obtain ⟨d, hd, hcode⟩ := List.mem_map.1 (mem_of_answer_valid hvalid)
        refine .inr ⟨d, hd, hcode, ?_⟩
        rw [← hcode, Devices.answer_of_mem hinv.unique hd]
      · exact .inl (Function.update_eq_self i n.data)
  · obtain ⟨scratchpad, hmeasure⟩ := hcomplete hline hconfigured (List.ne_nil_of_mem hd)
    have hscratchpad : scratchpad = d.scratchpad := by
      rw [hanswer scratchpad hmeasure, ← hcode, Devices.answer_of_mem hinv.unique hd]
    rw [hdata, run_spec (n.sensors i) _ _ _ hmeasure, hscratchpad, if_pos d.scratchpad_valid]

theorem publishes_own_example : (exampleNode.sensors 0).configured = true ∧
    ∃ d ∈ exampleNode.wire.bus.devices,
      (exampleNode.step (fun _ => none) (.run 0)).data = Function.update exampleNode.data 0 d.scratchpad.getTemperature := by
  have hconfigured : (exampleNode.sensors 0).configured = true := by decide +kernel
  obtain ⟨-, -, h⟩ := publishes_own (fun _ => none) exampleNode ⟨_, _, _, _, rfl⟩ 0
  obtain ⟨d, hd, hcode⟩ : ∃ d ∈ exampleNode.wire.bus.devices, d.romCode = (exampleNode.sensors 0).configuration.romCode := by
    decide +kernel
  exact ⟨hconfigured, d, hd, h (fun _ => rfl) hconfigured d hd hcode⟩

end ControlComponents.Ds18b20
