/-
Configuring a sensor over the web (`ocs_pipeline/httpserver`, `ocs_sensor/ds18b20`): the serial number and the resolution are
parsed, the ROM code with the serial number is searched on the bus, and the sensor is configured with it.

- `deviceBus_simulates`: up to operations that fail, the devices take part in a search as on the ideal bus.
- `findRomCode_sound`: a code that is found is that of a device with the serial number, whatever fails.
- `findRomCode_complete`: without failures the search finds what is there, if a new scanner enumerates the devices.
- `writeConfiguration_law`: what a request has come to when it is answered with OK.
-/
import ControlComponents.Onewire.BusSimulation
import ControlComponents.Sensor.Ds18b20Node
import ControlComponents.Sensor.Ds18b20Parse

namespace ControlComponents.Ds18b20

open ControlComponents.Algo ControlComponents.Lib.BitStream ControlComponents.Lib.BitStrings ControlComponents.Lib.Format
open ControlComponents.Lib.Runs
open ControlComponents.Onewire ControlComponents.Storage

/-! ## Model -/

/-- the loop of `find_rom_code`: the configuration in the end; `none` if it does not stop within the fuel or an assertion
fails -/
def findLoop {β : Type} (bus : Bus β) : ℕ → RomCodeScanner → Configuration → β → Option (StatusCode × Configuration × β)
  | 0, _, _, _ => none
  | fuel + 1, s, configuration, b => do
    let (code, s, romCode, b) ← s.scan bus .new b
    if code ≠ .ok then some (code, configuration, b)
    else if romCode.serialNumber = configuration.romCode.serialNumber then some (.ok, { configuration with romCode }, b)
    else findLoop bus fuel s configuration b

def findRomCode {β : Type} (bus : Bus β) (fuel : ℕ) (configuration : Configuration) (b : β) :
    Option (StatusCode × Configuration × β) :=
  findLoop bus fuel .new configuration b

/-- `get_sensor` -/
def Node.getSensor (n : Node) (sensorId : String) : Option ℕ :=
  n.added.find? fun i => decide (sensorId = (n.sensors i).id)

/-- `DS18B20Handler::write_configuration_` up to the formatting of the response -/
def Node.writeRequest (line : ℕ → Option LineFault) (n : Node) (fuel : ℕ) (f : Faults) (sensorId : String)
    (serialNumber resolution : Value) : Option (StatusCode × Node) :=
  match n.getSensor sensorId with
  | none => some (.invalidArg, n)
  | some i => do
    let (code, configuration) ← parseConfiguration .new serialNumber resolution
    if code ≠ .ok then some (code, n)
    else
      let (code, configuration, wire) ← findRomCode (deviceBus line) fuel configuration n.wire
      let n := { n with wire }
      if code ≠ .ok then some (code, n) else some (n.configure line i f configuration)

/-! ## Searching the devices -/

section

variable (line : ℕ → Option LineFault) (devices : List Device)

/-- the devices are in a search that is in the state `b` on the ideal bus -/
def Searching (w : Wire) (b : IdealBus) : Prop := w.bus.phase = .search b ∧ w.bus.devices = devices

/-- a signal is taken, or its operation fails, and then it has been taken or not -/
theorem signal_cases (w : Wire) (signal : Signal) :
    w.signal line signal = (.ok, ⟨w.bus.see signal, w.calls + 1⟩) ∨
      ((¬ ∀ n, line n = none) ∧ (w.signal line signal).1 = .error ∧
        ((w.signal line signal).2.bus = w.bus ∨ (w.signal line signal).2.bus = w.bus.see signal)) := by
  unfold Wire.signal
  cases hfault : line w.calls with
  | none => exact .inl rfl
  | some fault =>
    have hfails : ¬ ∀ n, line n = none := fun hline => by rw [hline w.calls] at hfault; cases hfault
    cases fault with
    | lost => exact .inr ⟨hfails, by simp, .inl rfl⟩
    | late => exact .inr ⟨hfails, by simp, .inr rfl⟩

/-- writing fails with an error only -/
theorem writeByte_code (byte : Byte) (w : Wire) :
    ((deviceBus line).writeByte byte w).1 = .ok ∨ ((deviceBus line).writeByte byte w).1 = .error := by
  rw [Bus.writeByte_eq_emit]
  generalize bits byte = sent
  induction sent generalizing w with
  | nil => exact .inl rfl
  | cons bit sent ih =>
    rcases signal_cases line w (.write bit) with hok | ⟨-, hcode, -⟩
    · simp only [Bus.emit, deviceBus, hok]
      exact ih _
    · rcases hsignal : w.signal line (.write bit) with ⟨code, w'⟩
      rw [hsignal] at hcode
      obtain rfl : code = .error := hcode
      simp [Bus.emit, deviceBus, hsignal]

theorem deviceBus_simulates : BusSimulation (deviceBus line) (idealBus (devices.map Device.romCode))
    (¬ ∀ n, line n = none) (fun w => w.bus.devices = devices) (Searching devices) where
  read w b hw := by
    obtain ⟨hphase, rfl⟩ := hw
    have hsee : w.bus.see .read =
        { w.bus with phase := .search ((idealBus w.bus.romCodes).readBit b).2.2 } := by
      simp only [Devices.see, hphase]
    rcases signal_cases line w .read with hok | ⟨hfails, hcode, hbus⟩
    · refine .inr ?_
      have hlevel : w.bus.level = ((idealBus w.bus.romCodes).readBit b).2.1 := by
        simp only [Devices.level, hphase]
      have hideal : ((idealBus w.bus.romCodes).readBit b).1 = .ok := by
        simp only [idealBus]
        split <;> rfl
      simp only [deviceBus, hok]
      exact ⟨hideal.symm, hlevel, by rw [hsee]; exact ⟨rfl, rfl⟩⟩
    · refine .inl ⟨hfails, hcode, ?_⟩
      show (w.signal line .read).2.bus.devices = _
      rcases hbus with hbus | hbus
      · rw [hbus]
      · rw [hbus, hsee]
  write bit w b hw := by
    obtain ⟨hphase, rfl⟩ := hw
    have hsee : w.bus.see (.write bit) =
        { w.bus with phase := .search ((idealBus w.bus.romCodes).writeBit bit b).2 } := by
      simp only [Devices.see, hphase]
    rcases signal_cases line w (.write bit) with hok | ⟨hfails, hcode, hbus⟩
    · refine .inr ?_
      have hideal : ((idealBus w.bus.romCodes).writeBit bit b).1 = .ok := by
        simp only [idealBus]
        split
        · split_ifs <;> rfl
        · rfl
        · rfl
      simp only [deviceBus, hok]
      exact ⟨hideal.symm, by rw [hsee]; exact ⟨rfl, rfl⟩⟩
    · refine .inl ⟨hfails, hcode, ?_⟩
      show (w.signal line (.write bit)).2.bus.devices = _
      rcases hbus with hbus | hbus
      · rw [hbus]
      · rw [hbus, hsee]

/-- **A scan of the devices** is one on the ideal bus, up to operations that fail. -/
theorem scan_deviceBus (s : RomCodeScanner) (romCode : RomCode) (w : Wire) (b : IdealBus) :
    Simulated (¬ ∀ n, line n = none) (fun w' => w'.bus.devices = w.bus.devices)
      (fun w' _ => w'.bus.devices = w.bus.devices) (s.scan (deviceBus line) romCode w)
      (s.scan (idealBus w.bus.romCodes) romCode b) := by
  refine scan_simulated (T := fun w' _ => w'.bus.devices = w.bus.devices)
    (C := fun w' b' => w'.bus.phase = .receiving .romCommand [] ∧ b' = ⟨.command 0 0, w.bus.romCodes⟩ ∧
      w'.bus.devices = w.bus.devices ∧ w.bus.devices ≠ [])
    (deviceBus_simulates line w.bus.devices) ?_ ?_ (fun _ _ h => h.2) s romCode rfl
  · intro w' b' hw'
    rcases signal_cases line w' .reset with hok | ⟨hfails, hcode, hbus⟩
    · refine .inr ?_
      have hdevices : (w'.bus.see .reset).devices = w.bus.devices := hw'
      simp only [deviceBus, hok, idealBus, hdevices, List.isEmpty_map]
      refine ⟨trivial, trivial, fun hstarted => ⟨rfl, rfl, trivial, fun hnil => ?_⟩⟩
      simp [hnil] at hstarted
    · refine .inl ?_
      have hcode' : ((deviceBus line).reset w') = w'.signal line .reset := by
        simp only [deviceBus]
        rcases hsignal : w'.signal line .reset with ⟨code, w''⟩
        rw [hsignal] at hcode
        cases code with
        | ok => cases hcode
        | _ => rfl
      rw [hcode']
      refine ⟨hfails, hcode, ?_⟩
      rcases hbus with hbus | hbus
      · rw [hbus]
        exact hw'
      · rw [hbus]
        exact hw'
  · rintro w' b' ⟨hphase, rfl, hdevices, hne⟩
    have hperforms := performs_writeByte line RomCode.searchRom
    have hsent := hperforms.sends w'
    have hsearch : w'.bus.complete .romCommand (bits RomCode.searchRom) =
        { w'.bus with phase := .search ⟨searched 0, w'.bus.romCodes⟩ } := by
      simp only [Devices.complete, word_bits]
      rfl
    have hrun : run Devices.see w'.bus ((bits RomCode.searchRom).map .write) =
        { w'.bus with phase := .search ⟨searched 0, w'.bus.romCodes⟩ } := by
      rw [Devices.run_receive hphase (by decide) (by decide), List.nil_append, hsearch]
    have hideal : (idealBus (w.bus.devices.map Device.romCode)).writeByte RomCode.searchRom
        ⟨.command 0 0, w.bus.romCodes⟩ = (.ok, ⟨searched 0, w.bus.romCodes⟩) := rfl
    have hthroughout : Throughout Devices.see (fun d => d.devices = w.bus.devices) w'.bus
        ((bits RomCode.searchRom).map .write) := by
      refine Devices.throughout_receive hphase _ (by decide) (fun d hd => hd.trans hdevices) ?_
      rw [List.nil_append, hsearch]
      exact hdevices
    have hcodes : w'.bus.romCodes = w.bus.romCodes := congrArg (List.map Device.romCode) hdevices
    by_cases hcode : ((deviceBus line).writeByte RomCode.searchRom w').1 = .ok
    · refine .inr ⟨by rw [hcode, hideal], ?_⟩
      unfold Sends at hsent
      rw [decide_eq_true hcode] at hsent
      rw [hideal]
      unfold Searching
      rw [hsent.complete_run, hrun, hcodes]
      exact ⟨rfl, hdevices⟩
    · refine .inl ⟨fun hline => hcode ?_, (writeByte_code line _ w').resolve_left hcode, hthroughout.of_sent hsent⟩
      exact hperforms.completes hline w' (hdevices ▸ hne)

/-! ## Finding a code -/

/-- the scans leave the devices, and the code that is found is that of a device, valid and with the serial number -/
structure Found (w : Wire) (configuration : Configuration) (code : StatusCode) (found : Configuration) (w' : Wire) :
    Prop where
  devices : w'.bus.devices = w.bus.devices
  resolution : found.resolution = configuration.resolution
  mem : code = .ok → found.romCode ∈ w.bus.romCodes
  valid : code = .ok → found.romCode.valid = true
  serialNumber : code = .ok → found.romCode.serialNumber = configuration.romCode.serialNumber

theorem findLoop_sound (fuel : ℕ) (s : RomCodeScanner) (configuration : Configuration) (w : Wire) {code : StatusCode}
    {found : Configuration} {w' : Wire}
    (h : findLoop (deviceBus line) fuel s configuration w = some (code, found, w')) :
    Found w configuration code found w' := by
  induction fuel generalizing s w with
  | zero => cases h
  | succ fuel ih =>
    have hscan := scan_deviceBus line s .new w ⟨.idle, []⟩
    obtain ⟨⟨scanned, s', romCode, w₁⟩, hdevice, hrest⟩ := Option.bind_eq_some_iff.1 h
    rw [hdevice] at hscan
    generalize hideal : s.scan (idealBus w.bus.romCodes) .new ⟨.idle, []⟩ = r at hscan
    have hkept : w₁.bus.devices = w.bus.devices := by
      cases hscan with
      | failed _ _ hw => exact hw
      | same hw => exact hw
    simp only at hrest
    split_ifs at hrest with hcode hserial
    · simp only [Option.some.injEq, Prod.mk.injEq] at hrest
      obtain ⟨rfl, rfl, rfl⟩ := hrest
      exact ⟨hkept, rfl, fun hok => absurd hok hcode, fun hok => absurd hok hcode, fun hok => absurd hok hcode⟩
    · simp only [Option.some.injEq, Prod.mk.injEq] at hrest
      obtain ⟨rfl, rfl, rfl⟩ := hrest
      rw [ne_eq, not_not] at hcode
      subst hcode
      cases hscan with
      | failed _ hcode => cases hcode
      | same _ =>
        obtain ⟨hmem, hvalid⟩ := scan_mem hideal
        exact ⟨hkept, rfl, fun _ => hmem, fun _ => hvalid, fun _ => hserial⟩
    · have hfound := ih s' w₁ hrest
      have hcodes : w₁.bus.romCodes = w.bus.romCodes := congrArg (List.map Device.romCode) hkept
      exact ⟨hfound.devices.trans hkept, hfound.resolution, fun hok => hcodes ▸ hfound.mem hok, hfound.valid,
        hfound.serialNumber⟩

end

/-- the search follows the loop that reports all codes, as far as the first one with the serial number -/
theorem findLoop_of_scanRomCodes {line : ℕ → Option LineFault} (hline : ∀ n, line n = none) (fuel : ℕ) (s : RomCodeScanner)
    (configuration : Configuration) (w : Wire) (b : IdealBus) {romCodes : List RomCode}
    (h : scanRomCodes (idealBus w.bus.romCodes) fuel s b = some (.noData, romCodes)) :
    ∃ found w', findLoop (deviceBus line) fuel s configuration w = some
      (if ∃ c ∈ romCodes, c.serialNumber = configuration.romCode.serialNumber then .ok else .noData, found, w') := by
  induction fuel generalizing s w b romCodes with
  | zero => cases h
  | succ fuel ih =>
    have hscan := scan_deviceBus line s .new w b
    obtain ⟨⟨code, s', romCode, b'⟩, hideal, hrest⟩ := Option.bind_eq_some_iff.1 h
    rw [hideal] at hscan
    generalize hdevice : s.scan (deviceBus line) .new w = r at hscan
    cases hscan with
    | failed hfails => exact absurd hline hfails
    | @same _ _ _ w' _ hkept =>
      have hkept : w'.bus.devices = w.bus.devices := hkept
      simp only at hrest
      simp only [findLoop, hdevice, Option.bind_eq_bind, Option.bind_some]
      split_ifs at hrest with hcode
      · simp only [Option.some.injEq, Prod.mk.injEq] at hrest
        obtain ⟨rfl, rfl⟩ := hrest
        exact ⟨configuration, w', by simp⟩
      · obtain ⟨⟨code', rest⟩, hscans, hrest⟩ := Option.bind_eq_some_iff.1 hrest
        simp only [Option.some.injEq, Prod.mk.injEq] at hrest
        obtain ⟨rfl, rfl⟩ := hrest
        rw [if_neg hcode]
        by_cases hserial : romCode.serialNumber = configuration.romCode.serialNumber
        · have hexists : ∃ c ∈ romCode :: rest, c.serialNumber = configuration.romCode.serialNumber :=
            ⟨romCode, List.mem_cons_self, hserial⟩
          rw [if_pos hserial, if_pos hexists]
          exact ⟨_, _, rfl⟩
        · have hcodes : w'.bus.romCodes = w.bus.romCodes := congrArg (List.map Device.romCode) hkept
          have hiff : (∃ c ∈ romCode :: rest, c.serialNumber = configuration.romCode.serialNumber) ↔
              ∃ c ∈ rest, c.serialNumber = configuration.romCode.serialNumber := by
            simp [hserial]
          rw [if_neg hserial]
          simp only [hiff]
          exact ih s' w' b' (hcodes ▸ hscans)

/-- **Finding a code.** If a new scanner enumerates the devices and nothing fails, the search stops; it is successful iff
there is a device with the serial number. -/
theorem findRomCode_complete {line : ℕ → Option LineFault} (hline : ∀ n, line n = none) (devices : Onewire.Devices)
    (henumerates : Enumerates devices ⟨.idle, []⟩) (configuration : Configuration) (w : Wire)
    (hcodes : w.bus.romCodes = devices.codes) :
    ∃ fuel code found w', findRomCode (deviceBus line) fuel configuration w = some (code, found, w') ∧
      (code = .ok ↔ ∃ c ∈ devices.codes, c.serialNumber = configuration.romCode.serialNumber) ∧
      (code ≠ .ok → code = .noData) := by
  obtain ⟨fuel, romCodes, hscans, hperm⟩ := henumerates
  obtain ⟨found, w', hfind⟩ := findLoop_of_scanRomCodes hline fuel .new configuration w ⟨.idle, []⟩ (hcodes ▸ hscans)
  refine ⟨fuel, _, found, w', hfind, ?_, ?_⟩
  · have hiff : (∃ c ∈ romCodes, c.serialNumber = configuration.romCode.serialNumber) ↔
        ∃ c ∈ devices.codes, c.serialNumber = configuration.romCode.serialNumber := by
      simp only [hperm.mem_iff]
    rw [← hiff]
    split_ifs with hexists <;> simp [hexists]
  · split_ifs with hexists <;> simp

/-- two devices, whose codes part at one branch -/
def twoDevices : Onewire.Devices where
  codes := [firstDevice.romCode, secondDevice.romCode]
  nonempty := by simp
  nodup := by decide
  valid := by decide +kernel

def twoWire : Wire := ⟨⟨.idle, [], [firstDevice, secondDevice]⟩, 0⟩

theorem twoDevices_enumerates : Enumerates twoDevices ⟨.idle, []⟩ :=
  ⟨3, [secondDevice.romCode, firstDevice.romCode], by decide +kernel, by decide⟩

theorem findRomCode_complete_example : ∃ fuel code found w',
    findRomCode (deviceBus fun _ => none) fuel exampleConfiguration twoWire = some (code, found, w') ∧ code = .ok := by
  obtain ⟨fuel, code, found, w', hfind, hok, -⟩ :=
    findRomCode_complete (fun _ => rfl) twoDevices twoDevices_enumerates exampleConfiguration twoWire rfl
  exact ⟨fuel, code, found, w', hfind, hok.2 ⟨firstDevice.romCode, by decide, rfl⟩⟩

/-! ## Requests -/

/-- **Configuring a sensor over the web.** In every state of a bus, whatever fails on the line or in the storage: a request
changes no device but at most one. If it is answered with OK, the texts have been accepted, this is a device whose serial
number is the one that was parsed, it converts to the number of bits of the resolution that was parsed, and the sensor is
configured with its ROM code. -/
theorem request_law (line : ℕ → Option LineFault) (n : Node) (hn : n.Reached line) (fuel : ℕ) (f : Faults)
    (sensorId : String) (serialNumber resolution : Value) (code : StatusCode) (n' : Node)
    (h : n.writeRequest line fuel f sensorId serialNumber resolution = some (code, n')) :
    (n'.wire.bus.devices = n.wire.bus.devices ∨
      ∃ c sent, n'.wire.bus.devices = n.wire.bus.stored c sent) ∧
    (code = .ok → ∃ i parsed, ∃ d ∈ n.wire.bus.devices, n.getSensor sensorId = some i ∧
      parseConfiguration .new serialNumber resolution = some (.ok, parsed) ∧
      d.romCode.serialNumber = parsed.romCode.serialNumber ∧ d.romCode.valid = true ∧
      (n'.sensors i).configured = true ∧ (n'.sensors i).configuration = ⟨d.romCode, parsed.resolution⟩ ∧
      Resolved n'.wire.bus d.romCode parsed.resolution.bits) := by
  have hinv := hn.inv
  unfold Node.writeRequest at h
  cases hsensor : n.getSensor sensorId with
  | none =>
    rw [hsensor, Option.some.injEq, Prod.mk.injEq] at h
    obtain ⟨rfl, rfl⟩ := h
    exact ⟨.inl rfl, (fun h => by cases h)⟩
  | some i =>
    rw [hsensor] at h
    obtain ⟨⟨code₁, parsed⟩, hparse, h⟩ := Option.bind_eq_some_iff.1 h
    simp only at h
    split_ifs at h with hcode₁
    · simp only [Option.some.injEq, Prod.mk.injEq] at h
      obtain ⟨rfl, rfl⟩ := h
      exact ⟨.inl rfl, fun hok => absurd hok hcode₁⟩
    rw [ne_eq, not_not] at hcode₁
    subst hcode₁
    obtain ⟨⟨code₂, found, wire⟩, hfind, h⟩ := Option.bind_eq_some_iff.1 h
    have hfound := findLoop_sound line fuel .new parsed n.wire hfind
    have hcodes : wire.bus.romCodes = n.wire.bus.romCodes := congrArg (List.map Device.romCode) hfound.devices
    simp only at h
    split_ifs at h with hcode₂
    · simp only [Option.some.injEq, Prod.mk.injEq] at h
      obtain ⟨rfl, rfl⟩ := h
      exact ⟨.inl hfound.devices, fun hok => absurd hok hcode₂⟩
    rw [ne_eq, not_not] at hcode₂
    subst hcode₂
    obtain ⟨hdevices, hok⟩ := writeConfiguration_devices line (n.sensors i) f n.store found wire (hcodes ▸ hinv.unique)
    have hstoredEq : wire.bus.stored found.romCode (sentConfiguration found) =
        n.wire.bus.stored found.romCode (sentConfiguration found) := by
      rw [Devices.stored, hfound.devices]
      rfl
    rw [hfound.devices, hstoredEq] at hdevices
    simp only [Node.configure, Option.some.injEq, Prod.mk.injEq] at h
    rcases hwrite : (n.sensors i).writeConfiguration (deviceBus line) 0 f n.store found wire with
      ⟨code₃, sensor, store', wire'⟩
    rw [hwrite] at hdevices hok h
    obtain ⟨rfl, rfl⟩ := h
    refine ⟨hdevices.imp_right fun hstored => ⟨_, _, hstored⟩, fun hcode₃ => ?_⟩
    obtain ⟨hstored, hmem, hsensor'⟩ := hok hcode₃
    dsimp only at hsensor'
    obtain ⟨d, hd, hcode⟩ := List.mem_map.1 (hfound.mem rfl)
    have hresolved := resolved_stored hstored hmem
    rw [hfound.resolution] at hresolved
    refine ⟨i, parsed, d, hd, rfl, hparse, hcode ▸ hfound.serialNumber rfl, hcode ▸ hfound.valid rfl, ?_, ?_,
      hcode ▸ hresolved⟩
    · show (Function.update n.sensors i sensor i).configured = true
      rw [Function.update_self, hsensor']
      rfl
    · show (Function.update n.sensors i sensor i).configuration = _
      rw [Function.update_self, hsensor', hcode, ← hfound.resolution]

def serialText : Value := ⟨ascii "01:00:00:00:00:00".toList, [0], by decide⟩

/-- a sensor has been added to a bus with two devices -/
def exampleStart : Node :=
  run (Node.step fun _ => none) (.start (fun _ => "temp") ∅ ⟨[firstDevice, secondDevice], by decide⟩) [.add 0 .none .none]

def exampleAnswer : StatusCode × Node :=
  (exampleStart.writeRequest (fun _ => none) 3 .none "temp" serialText nineBits).get (by decide +kernel)

theorem request_law_example : exampleAnswer.1 = .ok ∧ ∃ i, (exampleAnswer.2.sensors i).configured = true := by
  have hok : exampleAnswer.1 = .ok := by decide +kernel
  have hanswer : exampleStart.writeRequest (fun _ => none) 3 .none "temp" serialText nineBits = some exampleAnswer :=
    (Option.some_get _).symm
  rw [← Prod.eta exampleAnswer] at hanswer
  obtain ⟨-, h⟩ := request_law (fun _ => none) exampleStart ⟨_, _, _, _, rfl⟩ 3 .none "temp" serialText nineBits _ _ hanswer
  obtain ⟨i, -, -, -, -, -, -, -, hconfigured, -⟩ := h hok
  exact ⟨hok, i, hconfigured⟩

end ControlComponents.Ds18b20
