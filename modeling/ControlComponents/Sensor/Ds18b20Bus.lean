/-
The devices on the bus of the DS18B20 sensors, and what the functions of `ocs_sensor/ds18b20` come to on it.

After a reset all devices listen. A ROM command selects some of them for the function command that follows, or begins a
search; a device that is selected stores what is written to its scratchpad, or sends it. Any operation of the line may
fail, and then the devices have seen it or not.

- `Performs`: an operation of the source as the signals that it sends. `performs_write`, `performs_read`: those of the
  scratchpad.
- `throughout_writeSignals`, `throughout_readSignals`: what the signals do to the devices, wherever they stop.
- `levels_requested`: what is read is the scratchpad of the device with the code that was sent.
-/
import ControlComponents.Onewire.BusTransport
import ControlComponents.Sensor.Ds18b20Temperature
import Mathlib.Data.List.GetD

namespace ControlComponents.Ds18b20

open ControlComponents.Algo ControlComponents.Lib.BitStream ControlComponents.Lib.Runs ControlComponents.Onewire

/-! ## Devices -/

/-- a device, with the bytes of its scratchpad before the checksum -/
structure Device where
  romCode : RomCode
  memory : Vector Byte 8
deriving DecidableEq

namespace Device

def scratchpad (d : Device) : Scratchpad := ⟨d.memory.push (calculateCrc d.memory.toList)⟩

/-- the thresholds and the configuration are stored; only R0 and R1 of the configuration can be modified -/
def write (d : Device) (received : List Bool) : Device :=
  let configuration : Byte := (word 8 (received.drop 16) &&& 0x60) ||| 0x1F
  { d with memory := ((d.memory.set 2 (word 8 received)).set 3 (word 8 (received.drop 8))).set 4 configuration }

end Device

/-- what the devices receive: the ROM command, the ROM code, the function command, the bytes of the scratchpad -/
inductive Stage where
  | romCommand
  | matchRom
  | function
  | writeScratchpad
deriving DecidableEq

def Stage.bits : Stage → ℕ
  | .romCommand => 8
  | .matchRom => 64
  | .function => 8
  | .writeScratchpad => 24

inductive DevicePhase where
  | idle
  | receiving (stage : Stage) (received : List Bool)
  /-- the `n`-th bit of the scratchpad is sent next -/
  | sending (n : ℕ)
  | search (b : IdealBus)
deriving DecidableEq

structure Devices where
  phase : DevicePhase
  /-- the ROM codes that are selected -/
  selected : List RomCode
  devices : List Device
deriving DecidableEq

inductive Signal where
  | reset
  | write (bit : Bool)
  | read
deriving DecidableEq

namespace Devices

def romCodes (b : Devices) : List RomCode := b.devices.map Device.romCode

/-- the last bit of a stage has been received -/
def complete (b : Devices) (stage : Stage) (received : List Bool) : Devices :=
  match stage with
  | .romCommand =>
    -- `Command::MatchRom`
    if word 8 received = 0x55#8 then { b with phase := .receiving .matchRom [] }
    else if word 8 received = RomCode.searchRom then { b with phase := .search ⟨searched 0, b.romCodes⟩ }
    else { b with phase := .idle }
  | .matchRom =>
    { b with phase := .receiving .function [], selected := b.selected.filter fun c => stream c.bytes.toList = received }
  | .function =>
    -- `Command::WriteScratchpad`, `Command::ReadScratchpad`
    if word 8 received = 0x4E#8 then { b with phase := .receiving .writeScratchpad [] }
    else if word 8 received = 0xBE#8 then { b with phase := .sending 0 }
    else { b with phase := .idle }
  | .writeScratchpad =>
    { b with phase := .idle,
             devices := b.devices.map fun d => if b.selected.contains d.romCode then d.write received else d }

/-- the level of the line while a bit is read: low if a device pulls it low -/
def level (b : Devices) : Bool :=
  match b.phase with
  | .sending n =>
    b.devices.all fun d => !b.selected.contains d.romCode || (stream d.scratchpad.bytes.toList).getD n true
  | .search s => ((idealBus b.romCodes).readBit s).2.1
  | _ => true

def see (b : Devices) : Signal → Devices
  | .reset => { b with phase := .receiving .romCommand [], selected := b.romCodes }
  | .write bit =>
    match b.phase with
    | .receiving stage received =>
      if received.length + 1 = stage.bits then b.complete stage (received ++ [bit])
      else { b with phase := .receiving stage (received ++ [bit]) }
    | .search s => { b with phase := .search ((idealBus b.romCodes).writeBit bit s).2 }
    | _ => b
  | .read =>
    match b.phase with
    | .sending n => { b with phase := .sending (n + 1) }
    | .search s => { b with phase := .search ((idealBus b.romCodes).readBit s).2.2 }
    | _ => b

end Devices

/-- an operation of the line that fails, before the devices have seen it or after -/
inductive LineFault where
  | lost
  | late
deriving DecidableEq

/-- the devices, and how many operations there have been -/
structure Wire where
  bus : Devices
  calls : ℕ
deriving DecidableEq

def Wire.signal (line : ℕ → Option LineFault) (w : Wire) (signal : Signal) : StatusCode × Wire :=
  match line w.calls with
  | none => (.ok, ⟨w.bus.see signal, w.calls + 1⟩)
  | some .lost => (.error, ⟨w.bus, w.calls + 1⟩)
  | some .late => (.error, ⟨w.bus.see signal, w.calls + 1⟩)

/-- `Bus` over the devices: a reset fails if no device reports its presence -/
def deviceBus (line : ℕ → Option LineFault) : Bus Wire where
  reset w :=
    match w.signal line .reset with
    | (.ok, w) => (if w.bus.devices.isEmpty then .error else .ok, w)
    | r => r
  readBit w :=
    let (code, seen) := w.signal line .read
    (code, w.bus.level, seen)
  writeBit bit w := w.signal line (.write bit)

/-! ## Operations as signals -/

section

variable (line : ℕ → Option LineFault)

/-- the signals have been sent, all of them if the status is OK -/
def Sends (w : Wire) (signals : List Signal) (code : StatusCode) (w' : Wire) : Prop :=
  Sent Devices.see w.bus signals (decide (code = .ok)) w'.bus

theorem Sends.append {w w' w'' : Wire} {as bs : List Signal} {code : StatusCode} (h : Sends w as .ok w')
    (h' : Sends w' bs code w'') : Sends w (as ++ bs) code w'' :=
  Sent.append h h'

theorem Sends.stop {w w' : Wire} {as : List Signal} {code : StatusCode} (h : Sends w as code w') (hcode : code ≠ .ok)
    (bs : List Signal) : Sends w (as ++ bs) code w' := by
  unfold Sends at h ⊢
  rw [decide_eq_false hcode] at h ⊢
  exact h.stop bs

theorem sends_signal (w : Wire) (signal : Signal) :
    Sends w [signal] (w.signal line signal).1 (w.signal line signal).2 := by
  unfold Wire.signal
  split
  · exact .next (.done _)
  · exact .stopped _ _
  · exact .next (.stopped _ _)

theorem sends_reset (w : Wire) : Sends w [.reset] ((deviceBus line).reset w).1 ((deviceBus line).reset w).2 := by
  have h := sends_signal line w .reset
  simp only [deviceBus]
  rcases hsignal : w.signal line .reset with ⟨code, w'⟩
  rw [hsignal] at h
  cases code with
  | ok =>
    simp only
    split_ifs
    · have hbus : w'.bus = w.bus.see .reset := Sent.complete_run h
      unfold Sends
      rw [hbus]
      exact .next (.stopped _ _)
    · exact h
  | _ => exact h

/-- whatever fails, the operation sends the signals, and all of them if its status is OK; if nothing fails and a device is
there, it is -/
structure Performs (op : Wire → StatusCode × Wire) (signals : List Signal) : Prop where
  sends : ∀ w, Sends w signals (op w).1 (op w).2
  completes : (∀ n, line n = none) → ∀ w : Wire, w.bus.devices ≠ [] → (op w).1 = .ok

theorem performs_signal (signal : Signal) : Performs line (fun w => w.signal line signal) [signal] where
  sends w := sends_signal line w signal
  completes hline w _ := by
    simp only [Wire.signal, hline]

theorem performs_reset : Performs line (deviceBus line).reset [.reset] where
  sends := sends_reset line
  completes hline w hw := by
    simp [deviceBus, Wire.signal, hline, Devices.see, hw]

/-- the devices stay on the bus -/
theorem see_nonempty (b : Devices) (signal : Signal) (h : b.devices ≠ []) : (b.see signal).devices ≠ [] := by
  have hcomplete (stage : Stage) (received : List Bool) : (b.complete stage received).devices ≠ [] := by
    cases stage with
    | romCommand => simp only [Devices.complete]; split_ifs <;> exact h
    | matchRom => exact h
    | function => simp only [Devices.complete]; split_ifs <;> exact h
    | writeScratchpad => simpa [Devices.complete] using h
  cases signal with
  | reset => exact h
  | write bit =>
    simp only [Devices.see]
    split
    · split_ifs
      · exact hcomplete _ _
      · exact h
    · exact h
    · exact h
  | read =>
    simp only [Devices.see]
    split <;> exact h

section

variable {β : Type}

/-- an operation after another one, which it needs -/
def andThen (op next : β → StatusCode × β) (b : β) : StatusCode × β :=
  match op b with
  | (.ok, b) => next b
  | r => r

/-- an operation without what it reads -/
def discard {α : Type} (op : β → StatusCode × α × β) (b : β) : StatusCode × β := ((op b).1, (op b).2.2)

variable (bus : Bus β)

theorem emit_cons (bit : Bool) (bs : List Bool) : bus.emit (bit :: bs) = andThen (bus.writeBit bit) (bus.emit bs) := by
  funext b
  rcases hbit : bus.writeBit bit b with ⟨code, b'⟩
  cases code <;> simp only [Bus.emit, andThen, hbit]

theorem receive_succ (n : ℕ) : discard (bus.receive (n + 1)) = andThen (discard bus.readBit) (discard (bus.receive n)) := by
  funext b
  rcases hbit : bus.readBit b with ⟨code, bit, b'⟩
  cases code <;> simp only [discard, Bus.receive, andThen, hbit]

theorem matchRom_eq (c : RomCode) : c.matchRom bus =
    andThen bus.reset (andThen (bus.writeByte 0x55) (bus.writeBytes c.bytes.toList)) := by
  funext b
  rcases hreset : bus.reset b with ⟨code, b'⟩
  cases code with
  | ok =>
    rcases hbyte : bus.writeByte 0x55 b' with ⟨code, b''⟩
    cases code <;> simp only [RomCode.matchRom, andThen, hreset, hbyte]
  | _ => simp only [RomCode.matchRom, andThen, hreset]

theorem write_eq (c : RomCode) (s : Scratchpad) : s.write bus c =
    andThen (c.matchRom bus) (andThen (bus.writeByte 0x4E) (bus.writeBytes ((s.bytes.toList.drop 2).take 3))) := by
  funext b
  rcases hmatch : c.matchRom bus b with ⟨code, b'⟩
  cases code with
  | ok =>
    rcases hbyte : bus.writeByte 0x4E b' with ⟨code, b''⟩
    cases code <;> simp only [Scratchpad.write, andThen, hmatch, hbyte]
  | _ => simp only [Scratchpad.write, andThen, hmatch]

theorem read_eq (c : RomCode) (s : Scratchpad) : discard (s.read bus c) =
    andThen (andThen (c.matchRom bus) (bus.writeByte 0xBE)) (discard (bus.readBytes s.bytes)) := by
  funext b
  rcases hmatch : c.matchRom bus b with ⟨code, b'⟩
  cases code with
  | ok =>
    rcases hbyte : bus.writeByte 0xBE b' with ⟨code, b''⟩
    cases code <;> simp only [discard, Scratchpad.read, andThen, hmatch, hbyte]
  | _ => simp only [discard, Scratchpad.read, andThen, hmatch]

end

section

variable {line} {op next : Wire → StatusCode × Wire} {as bs : List Signal}

theorem Performs.andThen (h : Performs line op as) (h' : Performs line next bs) :
    Performs line (andThen op next) (as ++ bs) where
  sends w := by
    have hop := h.sends w
    unfold Ds18b20.andThen
    rcases hresult : op w with ⟨code, w'⟩
    rw [hresult] at hop
    cases code with
    | ok => exact hop.append (h'.sends w')
    | _ => exact hop.stop (by simp) bs
  completes hline w hw := by
    have hop := h.sends w
    have hcode := h.completes hline w hw
    unfold Ds18b20.andThen
    rcases hresult : op w with ⟨code, w'⟩
    rw [hresult] at hop hcode
    dsimp only at hcode
    subst hcode
    refine h'.completes hline w' ?_
    rw [Sent.complete_run hop]
    exact run_preserves see_nonempty hw as

end

theorem performs_emit (bits : List Bool) : Performs line ((deviceBus line).emit bits) (bits.map .write) := by
  induction bits with
  | nil => exact ⟨fun w => .done _, fun _ _ _ => rfl⟩
  | cons bit bits ih =>
    rw [emit_cons]
    exact (performs_signal line (.write bit)).andThen ih

theorem performs_writeByte (byte : Byte) :
    Performs line ((deviceBus line).writeByte byte) ((bits byte).map .write) := by
  have heq : (deviceBus line).writeByte byte = (deviceBus line).emit (bits byte) :=
    funext ((deviceBus line).writeByte_eq_emit byte)
  rw [heq]
  exact performs_emit line (bits byte)

theorem performs_writeBytes {buf : List Byte} (hbuf : buf ≠ []) :
    Performs line ((deviceBus line).writeBytes buf) ((stream buf).map .write) := by
  have heq : (deviceBus line).writeBytes buf = (deviceBus line).emit (stream buf) :=
    funext ((deviceBus line).writeBytes_eq_emit hbuf)
  rw [heq]
  exact performs_emit line (stream buf)

/-- `RomCode::match` -/
def matchSignals (c : RomCode) : List Signal :=
  [.reset] ++ ((bits (0x55 : Byte)).map .write ++ (stream c.bytes.toList).map .write)

theorem performs_matchRom (c : RomCode) : Performs line (c.matchRom (deviceBus line)) (matchSignals c) := by
  have hbytes : c.bytes.toList ≠ [] := List.ne_nil_of_length_pos (by simp)
  rw [matchRom_eq]
  exact (performs_reset line).andThen ((performs_writeByte line 0x55).andThen (performs_writeBytes line hbytes))

/-- `Scratchpad::write` -/
def writeSignals (c : RomCode) (s : Scratchpad) : List Signal :=
  matchSignals c ++ ((bits (0x4E : Byte)).map .write ++ (stream ((s.bytes.toList.drop 2).take 3)).map .write)

theorem performs_write (c : RomCode) (s : Scratchpad) :
    Performs line (s.write (deviceBus line) c) (writeSignals c s) := by
  have hbytes : (s.bytes.toList.drop 2).take 3 ≠ [] := List.ne_nil_of_length_pos (by simp)
  rw [write_eq]
  exact (performs_matchRom line c).andThen ((performs_writeByte line 0x4E).andThen (performs_writeBytes line hbytes))

theorem performs_receive (n : ℕ) :
    Performs line (discard ((deviceBus line).receive n)) (List.replicate n .read) := by
  induction n with
  | zero => exact ⟨fun w => .done _, fun _ _ _ => rfl⟩
  | succ n ih =>
    rw [receive_succ]
    exact (performs_signal line .read).andThen ih

/-- the levels of the line while `n` bits are read -/
def levels : ℕ → Devices → List Bool
  | 0, _ => []
  | n + 1, b => b.level :: levels n (b.see .read)

/-- the bits that have been read are the levels of the line -/
theorem receive_levels (n : ℕ) (w : Wire) (h : ((deviceBus line).receive n w).1 = .ok) :
    ((deviceBus line).receive n w).2.1 = levels n w.bus := by
  induction n generalizing w with
  | zero => rfl
  | succ n ih =>
    have hsent := sends_signal line w .read
    simp only [Bus.receive, deviceBus] at h ⊢
    rcases hsignal : w.signal line .read with ⟨code, w'⟩
    rw [hsignal] at h hsent
    cases code with
    | ok =>
      have hbus : w'.bus = w.bus.see .read := Sent.complete_run hsent
      simp only [levels, ← hbus]
      rw [← ih w' h]
      rfl
    | _ => cases h

/-- the part of `Scratchpad::read` before the bytes come -/
def requestSignals (c : RomCode) : List Signal := matchSignals c ++ (bits (0xBE : Byte)).map .write

theorem performs_request (c : RomCode) :
    Performs line (andThen (c.matchRom (deviceBus line)) ((deviceBus line).writeByte 0xBE)) (requestSignals c) :=
  (performs_matchRom line c).andThen (performs_writeByte line 0xBE)

theorem performs_read (c : RomCode) (s : Scratchpad) :
    Performs line (discard (s.read (deviceBus line) c)) (requestSignals c ++ List.replicate 72 .read) := by
  have hbytes : discard ((deviceBus line).readBytes s.bytes) = discard ((deviceBus line).receive 72) := by
    funext w
    obtain ⟨hcode, -, hstate⟩ := (deviceBus line).readBytes_eq_receive (by decide) s.bytes w
    rw [length_stream, Vector.length_toList] at hcode hstate
    exact Prod.ext hcode hstate
  rw [read_eq, hbytes]
  exact (performs_request line c).andThen (performs_receive line 72)

/-- what `Scratchpad::read` has read, if it returns OK -/
theorem read_levels (c : RomCode) (s : Scratchpad) (w : Wire) (h : (s.read (deviceBus line) c w).1 = .ok) :
    stream (s.read (deviceBus line) c w).2.1.bytes.toList = levels 72 (run Devices.see w.bus (requestSignals c)) := by
  have hrequest := (performs_request line c).sends w
  simp only [andThen] at hrequest
  simp only [Scratchpad.read] at h ⊢
  rcases hmatch : c.matchRom (deviceBus line) w with ⟨code, w'⟩
  rw [hmatch] at h hrequest
  cases code with
  | ok =>
    simp only at h hrequest ⊢
    rcases hbyte : (deviceBus line).writeByte 0xBE w' with ⟨code, w''⟩
    rw [hbyte] at h hrequest
    cases code with
    | ok =>
      have hbus : w''.bus = run Devices.see w.bus (requestSignals c) := Sent.complete_run hrequest
      obtain ⟨hcode, hstream, -⟩ := (deviceBus line).readBytes_eq_receive (by decide) s.bytes w''
      simp only at h ⊢
      rw [length_stream, Vector.length_toList] at hcode hstream
      rw [hcode] at h
      have hlen := ((deviceBus line).length_receive 72 w'').2.1 h
      rw [hstream, Bus.overwrite, receive_levels line 72 w'' h, ← hbus, List.drop_eq_nil_of_le, List.append_nil]
      rw [length_stream, Vector.length_toList, ← receive_levels line 72 w'' h, hlen]
    | _ => cases h
  | _ => cases h

end

/-! ## What the signals do -/

namespace Devices

variable {b : Devices} {stage : Stage} {received : List Bool}

theorem complete_phase (b : Devices) (phase : DevicePhase) (stage : Stage) (received : List Bool) :
    ({ b with phase } : Devices).complete stage received = b.complete stage received := by
  cases stage <;> rfl

theorem see_write (hphase : b.phase = .receiving stage received) (bit : Bool) :
    b.see (.write bit) = if received.length + 1 = stage.bits then b.complete stage (received ++ [bit])
      else { b with phase := .receiving stage (received ++ [bit]) } := by
  simp only [see, hphase]

/-- the bits of a stage are collected, and with the last one it is complete -/
theorem run_receive (hphase : b.phase = .receiving stage received) {bs : List Bool} (hne : bs ≠ [])
    (hlen : received.length + bs.length = stage.bits) :
    run see b (bs.map .write) = b.complete stage (received ++ bs) := by
  induction bs generalizing b received with
  | nil => exact absurd rfl hne
  | cons bit bs ih =>
    rw [List.length_cons] at hlen
    rw [List.map_cons, run, see_write hphase]
    cases bs with
    | nil =>
      rw [if_pos (by simpa using hlen)]
      rfl
    | cons bit' bs =>
      rw [if_neg (by rw [List.length_cons] at hlen; omega), ih rfl (List.cons_ne_nil _ _)
        (by rw [List.length_append, ← hlen, List.length_singleton]; omega), complete_phase, List.append_assoc]
      rfl

/-- what depends on the scratchpads only, and holds for them before the last bit and after it, holds throughout -/
theorem throughout_receive {P : Devices → Prop} (hphase : b.phase = .receiving stage received) (bs : List Bool)
    (hlen : received.length + bs.length ≤ stage.bits) (hP : ∀ c : Devices, c.devices = b.devices → P c)
    (hcomplete : P (b.complete stage (received ++ bs))) : Throughout see P b (bs.map .write) := by
  induction bs generalizing b received with
  | nil => exact hP b rfl
  | cons bit bs ih =>
    rw [List.length_cons] at hlen
    refine ⟨hP b rfl, ?_⟩
    rw [see_write hphase]
    split_ifs with hlast
    · have hnil : bs = [] := List.length_eq_zero_iff.1 (by omega)
      subst hnil
      exact hcomplete
    · refine ih rfl (by rw [List.length_append, List.length_singleton]; omega) hP ?_
      rw [complete_phase, List.append_assoc]
      exact hcomplete

/-- the state after a code has been sent: the devices with this code are selected -/
def matched (b : Devices) (c : RomCode) : Devices :=
  { b with phase := .receiving .function [], selected := b.romCodes.filter fun d => decide (d = c) }

theorem stream_eq_iff (c d : RomCode) : stream d.bytes.toList = stream c.bytes.toList ↔ d = c := by
  refine ⟨fun h => ?_, fun h => by rw [h]⟩
  have hbytes : d.bytes = c.bytes := Vector.toList_inj.1 (stream_injective (by simp) h)
  cases c
  cases d
  exact congrArg RomCode.mk hbytes

/-- the command is that for a code -/
theorem run_matchCommand (b : Devices) : run see (b.see .reset) ((bits (0x55 : Byte)).map .write) =
    { b with phase := .receiving .matchRom [], selected := b.romCodes } := by
  have hreset : (b.see .reset).phase = .receiving .romCommand [] := rfl
  rw [run_receive hreset (by decide) (by decide)]
  simp only [complete, List.nil_append, word_bits]
  rfl

theorem length_stream_romCode (c : RomCode) : (stream c.bytes.toList).length = Stage.matchRom.bits := by
  rw [length_stream, Vector.length_toList]
  rfl

theorem run_matchSignals (b : Devices) (c : RomCode) : run see b (matchSignals c) = b.matched c := by
  have hne : stream c.bytes.toList ≠ [] := List.ne_nil_of_length_pos (by rw [length_stream_romCode]; decide)
  rw [matchSignals, run_append, run_append]
  show run see (run see (b.see .reset) _) _ = _
  rw [run_matchCommand, run_receive rfl hne (length_stream_romCode c ▸ Nat.zero_add _)]
  simp only [complete, List.nil_append, matched, stream_eq_iff]

/-- a code that is sent leaves the scratchpads -/
theorem throughout_matchSignals {P : Devices → Prop} (b : Devices) (c : RomCode)
    (hP : ∀ d : Devices, d.devices = b.devices → P d) : Throughout see P b (matchSignals c) := by
  rw [matchSignals, throughout_append, throughout_append]
  refine ⟨⟨hP b rfl, hP _ rfl⟩, ?_, ?_⟩
  · have hreset : (b.see .reset).phase = .receiving .romCommand [] := rfl
    refine throughout_receive hreset _ (by decide) hP (hP _ ?_)
    simp only [complete, List.nil_append, word_bits]
    rfl
  · show Throughout see P (run see (b.see .reset) _) _
    rw [run_matchCommand]
    exact throughout_receive rfl _ (by rw [length_stream_romCode]; decide) hP (hP _ rfl)

/-- the scratchpads after the device with a code has stored what was sent -/
def stored (b : Devices) (c : RomCode) (sent : List Bool) : List Device :=
  b.devices.map fun d => if d.romCode = c then d.write sent else d

/-- with the last bit the devices that are selected store what was sent -/
theorem complete_matched (b : Devices) (c : RomCode) (sent : List Bool) :
    (b.matched c).complete .writeScratchpad sent = ⟨.idle, (b.matched c).selected, b.stored c sent⟩ := by
  have hdevices : ((b.matched c).complete .writeScratchpad sent).devices = b.stored c sent := by
    refine List.map_congr_left fun d hd => ?_
    have hmem : d.romCode ∈ b.romCodes := List.mem_map_of_mem hd
    by_cases hcode : d.romCode = c
    · rw [if_pos hcode, if_pos (by simpa [matched] using ⟨hmem, hcode⟩)]
    · rw [if_neg hcode, if_neg (by simpa [matched] using fun _ => hcode)]
  rw [← hdevices]
  rfl

/-- what is sent to the scratchpads -/
def sentBytes (s : Scratchpad) : List Bool := stream ((s.bytes.toList.drop 2).take 3)

theorem length_sentBytes (s : Scratchpad) : (sentBytes s).length = Stage.writeScratchpad.bits := by
  rw [sentBytes, length_stream]
  simp [Stage.bits]

theorem run_writeCommand (b : Devices) (c : RomCode) :
    run see (b.matched c) ((bits (0x4E : Byte)).map .write) =
      { b.matched c with phase := .receiving .writeScratchpad [] } := by
  rw [run_receive rfl (by decide) (by decide)]
  simp only [complete, List.nil_append, word_bits]
  rfl

theorem run_writeSignals (b : Devices) (c : RomCode) (s : Scratchpad) :
    run see b (writeSignals c s) = ⟨.idle, (b.matched c).selected, b.stored c (sentBytes s)⟩ := by
  have hne : sentBytes s ≠ [] := List.ne_nil_of_length_pos (by rw [length_sentBytes]; decide)
  rw [writeSignals, run_append, run_append, run_matchSignals, run_writeCommand]
  show run see _ ((sentBytes s).map .write) = _
  rw [run_receive rfl hne (length_sentBytes s ▸ Nat.zero_add _), complete_phase, List.nil_append, complete_matched]

/-- **Writing.** Wherever it stops, the scratchpads are as they were, or the device with the code has stored what was
sent. -/
theorem throughout_writeSignals (b : Devices) (c : RomCode) (s : Scratchpad) :
    Throughout see (fun d => d.devices = b.devices ∨ d.devices = b.stored c (sentBytes s)) b (writeSignals c s) := by
  have hP (d : Devices) (h : d.devices = b.devices) : d.devices = b.devices ∨ d.devices = b.stored c (sentBytes s) :=
    .inl h
  rw [writeSignals, throughout_append, throughout_append, run_matchSignals]
  refine ⟨throughout_matchSignals b c hP, ?_, ?_⟩
  · refine throughout_receive rfl _ (by decide) hP (hP _ ?_)
    simp only [complete, List.nil_append, word_bits]
    rfl
  · rw [run_writeCommand]
    refine throughout_receive rfl (sentBytes s) (by rw [length_sentBytes]; exact le_rfl) hP (.inr ?_)
    rw [complete_phase, List.nil_append, complete_matched]

/-- the state in which the devices with a code send their scratchpads -/
def requested (b : Devices) (c : RomCode) : Devices := { b.matched c with phase := .sending 0 }

theorem run_requestSignals (b : Devices) (c : RomCode) : run see b (requestSignals c) = b.requested c := by
  rw [requestSignals, run_append, run_matchSignals, run_receive rfl (by decide) (by decide)]
  simp only [complete, List.nil_append, word_bits]
  rfl

theorem see_read_devices (b : Devices) : (b.see .read).devices = b.devices := by
  simp only [see]
  split <;> rfl

/-- **Reading** leaves the scratchpads. -/
theorem throughout_readSignals (b : Devices) (c : RomCode) (n : ℕ) :
    Throughout see (fun d => d.devices = b.devices) b (requestSignals c ++ List.replicate n .read) := by
  rw [throughout_append, requestSignals, throughout_append, run_matchSignals]
  refine ⟨⟨throughout_matchSignals b c fun _ => id, ?_⟩, ?_⟩
  · refine throughout_receive rfl _ (by decide) (fun _ => id) ?_
    simp only [complete, List.nil_append, word_bits]
    rfl
  · have hstart : (run see b (requestSignals c)).devices = b.devices := by
      rw [run_requestSignals]
      rfl
    refine throughout_of_step (fun e he d hd => ?_) hstart
    rw [List.eq_of_mem_replicate he, see_read_devices, hd]

/-! ## What is read -/

/-- the scratchpad of the device with the code; without one nobody pulls the line low -/
def answer (b : Devices) (c : RomCode) : Scratchpad :=
  match b.devices.find? fun d => decide (d.romCode = c) with
  | some d => d.scratchpad
  | none => ⟨.replicate 9 0xFF⟩

theorem answer_of_mem (hunique : b.romCodes.Nodup) {d : Device} (hd : d ∈ b.devices) :
    b.answer d.romCode = d.scratchpad := by
  unfold answer
  cases hfind : b.devices.find? fun e => decide (e.romCode = d.romCode) with
  | none =>
    have hne : d.romCode ≠ d.romCode := by simpa using List.find?_eq_none.1 hfind d hd
    exact absurd rfl hne
  | some e =>
    have hcode : e.romCode = d.romCode := by simpa using List.find?_some hfind
    rw [List.inj_on_of_nodup_map hunique (List.mem_of_find?_eq_some hfind) hd hcode]

theorem answer_of_absent {c : RomCode} (h : c ∉ b.romCodes) : b.answer c = ⟨.replicate 9 0xFF⟩ := by
  have hfind : b.devices.find? (fun d => decide (d.romCode = c)) = none := by
    refine List.find?_eq_none.2 fun d hd => ?_
    have hne : d.romCode ≠ c := fun hcode => h (hcode ▸ List.mem_map_of_mem hd)
    simpa using hne
  rw [answer, hfind]

theorem stream_absent : stream (⟨.replicate 9 0xFF⟩ : Scratchpad).bytes.toList = List.replicate 72 true := by decide

/-- the level of the line is the bit of the device that sends -/
theorem level_requested (hunique : b.romCodes.Nodup) (c : RomCode) {n : ℕ} (hn : n < 72) :
    ({ b.requested c with phase := .sending n } : Devices).level =
      (stream (b.answer c).bytes.toList).getD n true := by
  have hselected (d : Device) (hd : d ∈ b.devices) :
      (b.requested c).selected.contains d.romCode = decide (d.romCode = c) := by
    have hmem : d.romCode ∈ b.romCodes := List.mem_map_of_mem hd
    have hiff : d.romCode ∈ (b.requested c).selected ↔ d.romCode = c := by simpa [requested, matched] using fun _ => hmem
    rw [Bool.eq_iff_iff, List.contains_iff_mem, hiff, decide_eq_true_iff]
  simp only [level]
  by_cases hc : c ∈ b.romCodes
  · obtain ⟨d, hd, rfl⟩ := List.mem_map.1 hc
    rw [answer_of_mem hunique hd, Bool.eq_iff_iff, List.all_eq_true]
    refine ⟨fun h => ?_, fun h e he => ?_⟩
    · have hbit := h d hd
      rw [hselected d hd] at hbit
      simpa using hbit
    · rw [hselected e he]
      by_cases hcode : e.romCode = d.romCode
      · rw [List.inj_on_of_nodup_map hunique he hd hcode, h, Bool.or_true]
      · simp [hcode]
  · rw [answer_of_absent hc, stream_absent]
    have hbit : (List.replicate 72 true).getD n true = true := by
      rw [List.getD_eq_getElem _ _ (by rwa [List.length_replicate]), List.getElem_replicate]
    rw [hbit, List.all_eq_true]
    intro e he
    have hcode : e.romCode ≠ c := fun hcode => hc (hcode ▸ List.mem_map_of_mem he)
    rw [hselected e he, decide_eq_false hcode]
    rfl

theorem levels_sending (b : Devices) (n k : ℕ) :
    levels n { b with phase := .sending k } =
      (List.range n).map fun i => ({ b with phase := .sending (k + i) } : Devices).level := by
  induction n generalizing k with
  | zero => rfl
  | succ n ih =>
    rw [List.range_succ_eq_map, List.map_cons, List.map_map]
    simp only [levels, see, Nat.add_zero, ih]
    refine congrArg _ (List.map_congr_left fun i _ => ?_)
    rw [Function.comp_apply, Nat.succ_eq_add_one, Nat.add_right_comm, Nat.add_assoc]

/-- **Reading** brings the scratchpad of the device with the code. -/
theorem levels_requested (hunique : b.romCodes.Nodup) (c : RomCode) :
    levels 72 (b.requested c) = stream (b.answer c).bytes.toList := by
  have hlen : (stream (b.answer c).bytes.toList).length = 72 := by rw [length_stream, Vector.length_toList]
  calc levels 72 (b.requested c)
      = (List.range 72).map fun i => ({ b.requested c with phase := .sending (0 + i) } : Devices).level :=
        levels_sending (b.requested c) 72 0
    _ = (List.range 72).map fun i => (stream (b.answer c).bytes.toList).getD i true := by
        refine List.map_congr_left fun i hi => ?_
        rw [Nat.zero_add, level_requested hunique c (List.mem_range.1 hi)]
    _ = stream (b.answer c).bytes.toList := by
        apply List.ext_getElem
        · rw [List.length_map, List.length_range, hlen]
        · intro i _ hi
          rw [List.getElem_map, List.getElem_range, List.getD_eq_getElem _ _ hi]

end Devices

end ControlComponents.Ds18b20
