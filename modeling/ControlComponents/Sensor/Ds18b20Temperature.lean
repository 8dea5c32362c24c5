/-
The temperature of a DS18B20 sensor (`ocs_sensor/ds18b20`): `Scratchpad::get_temperature` and `Sensor::run`.

The device sends a number of sixteen bits in two's complement, in sixteenths of a degree. The bits below the sign are added
up as a magnitude, which is negated if the sign bits are set. The arithmetic is exact.

- `getTemperature_eq`: the temperature from the magnitude and the sign bits.
- `decodes_iff`: the scratchpads whose temperature is right, and what a run publishes. `negative_temperature` is one whose
  temperature is not.
-/
import ControlComponents.Sensor.Ds18b20
import Mathlib.Data.Rat.Defs
import Mathlib.Tactic.Ring
import Mathlib.Tactic.NormNum

namespace ControlComponents.Ds18b20

open ControlComponents.Algo ControlComponents.Onewire

/-! ## Model -/

namespace Scratchpad

def temperatureLsb (s : Scratchpad) : Byte := s.bytes[0]

def temperatureMsb (s : Scratchpad) : Byte := s.bytes[1]

/-- `if (BitOps::nth(byte, n)) result += pow(2, exponent)` -/
def addend (byte : Byte) (n : ℕ) (exponent : ℤ) : ℚ :=
  if BitOps.nth (byte.setWidth 32) (BitVec.ofNat 8 n) ≠ 0 then 2 ^ exponent else 0

/-- the branch of the resolution -/
def fraction (s : Scratchpad) : ℚ :=
  if s.r0 = 1 ∧ s.r1 = 1 then
    addend s.temperatureLsb 0 (-4) + addend s.temperatureLsb 1 (-3) + addend s.temperatureLsb 2 (-2) +
      addend s.temperatureLsb 3 (-1)
  else if s.r0 = 0 ∧ s.r1 = 1 then
    addend s.temperatureLsb 1 (-3) + addend s.temperatureLsb 2 (-2) + addend s.temperatureLsb 3 (-1)
  else if s.r0 = 1 ∧ s.r1 = 0 then
    addend s.temperatureLsb 2 (-2) + addend s.temperatureLsb 3 (-1)
  else
    addend s.temperatureLsb 3 (-1)

def getTemperature (s : Scratchpad) : ℚ :=
  let result := s.fraction +
    addend s.temperatureLsb 4 0 + addend s.temperatureLsb 5 1 + addend s.temperatureLsb 6 2 +
    addend s.temperatureLsb 7 3 +
    addend s.temperatureMsb 0 4 + addend s.temperatureMsb 1 5 + addend s.temperatureMsb 2 6
  let signMask : Byte := 0b11111000
  if s.temperatureMsb &&& signMask = signMask then -result else result

end Scratchpad

namespace Sensor

variable {β : Type}

/-- the part of `run` on the bus: the scratchpad that is read -/
def measure (s : Sensor) (bus : ℕ → Bus β) (b : β) : Except StatusCode Scratchpad × β :=
  match s.bus with
  | none => (.error .invalidState, b)
  | some node =>
    match s.configuration.romCode.matchRom (bus node) b with
    | (.ok, b) =>
      -- `Command::ConvertT`
      match (bus node).writeByte 0x44 b with
      | (.ok, b) =>
        match Scratchpad.new.read (bus node) s.configuration.romCode b with
        | (.ok, scratchpad, b) => (.ok scratchpad, b)
        | (code, _, b) => (.error code, b)
      | (code, b) => (.error code, b)
    | (code, b) => (.error code, b)

/-- `run`: the status and the data -/
def run (s : Sensor) (bus : ℕ → Bus β) (data : ℚ) (b : β) : StatusCode × ℚ × β :=
  match s.measure bus b with
  | (.error code, b) => (code, data, b)
  | (.ok scratchpad, b) => (.ok, if scratchpad.valid then scratchpad.getTemperature else data, b)

end Sensor

/-! ## What the device sends -/

namespace Scratchpad

/-- the low bits that are undefined at the resolution -/
def undefinedBits (s : Scratchpad) : ℕ :=
  if s.r0 = 1 ∧ s.r1 = 1 then 0
  else if s.r0 = 0 ∧ s.r1 = 1 then 1
  else if s.r0 = 1 ∧ s.r1 = 0 then 2
  else 3

/-- the two bytes of the temperature, with the undefined bits cleared -/
def temperatureWord (s : Scratchpad) : BitVec 16 :=
  (s.temperatureMsb ++ s.temperatureLsb) >>> s.undefinedBits <<< s.undefinedBits

/-- the temperature that the device has sent, in degrees -/
def temperature (s : Scratchpad) : ℚ := s.temperatureWord.toInt / 16

/-- the sign bits -/
def sign (s : Scratchpad) : ℕ := s.temperatureWord.toNat / 2 ^ 11

/-- the bits below the sign -/
def magnitude (s : Scratchpad) : ℕ := s.temperatureWord.toNat % 2 ^ 11

/-- no sign bit is set, or all are and the number is the only one that is its own magnitude: -64 degrees -/
def SignMagnitude (s : Scratchpad) : Prop := s.sign = 0 ∨ (s.sign = 31 ∧ s.magnitude = 2 ^ 10)

instance (s : Scratchpad) : Decidable s.SignMagnitude := by
  unfold SignMagnitude; infer_instance

theorem undefinedBits_le (s : Scratchpad) : s.undefinedBits ≤ 3 := by
  unfold undefinedBits
  split_ifs <;> decide

theorem temperatureWord_toNat (s : Scratchpad) : s.temperatureWord.toNat =
    (s.temperatureMsb.toNat * 2 ^ 8 + s.temperatureLsb.toNat) / 2 ^ s.undefinedBits * 2 ^ s.undefinedBits := by
  have happend : (s.temperatureMsb ++ s.temperatureLsb).toNat =
      s.temperatureMsb.toNat * 2 ^ 8 + s.temperatureLsb.toNat := by
    rw [BitVec.toNat_append, ← Nat.shiftLeft_add_eq_or_of_lt s.temperatureLsb.isLt, Nat.shiftLeft_eq]
  have hlt := (s.temperatureMsb ++ s.temperatureLsb).isLt
  have hle := Nat.div_mul_le_self (s.temperatureMsb ++ s.temperatureLsb).toNat (2 ^ s.undefinedBits)
  calc s.temperatureWord.toNat
      = (s.temperatureMsb ++ s.temperatureLsb).toNat / 2 ^ s.undefinedBits * 2 ^ s.undefinedBits % 2 ^ 16 := by
        rw [temperatureWord, BitVec.toNat_shiftLeft, BitVec.toNat_ushiftRight, Nat.shiftLeft_eq,
          Nat.shiftRight_eq_div_pow]
    _ = (s.temperatureMsb ++ s.temperatureLsb).toNat / 2 ^ s.undefinedBits * 2 ^ s.undefinedBits :=
        Nat.mod_eq_of_lt (hle.trans_lt hlt)
    _ = _ := by rw [happend]

/-! ## The sum of the bits -/

/-- a byte from its bits -/
theorem toNat_eq_bits (b : Byte) : b.toNat = (b.getLsbD 0).toNat + 2 * (b.getLsbD 1).toNat + 4 * (b.getLsbD 2).toNat +
    8 * (b.getLsbD 3).toNat + 16 * (b.getLsbD 4).toNat + 32 * (b.getLsbD 5).toNat + 64 * (b.getLsbD 6).toNat +
    128 * (b.getLsbD 7).toNat := by
  revert b
  decide +kernel

theorem addend_eq (byte : Byte) {n : ℕ} (hn : n < 8) (exponent : ℤ) :
    addend byte n exponent = (byte.getLsbD n).toNat * 2 ^ exponent := by
  have hbit := nth_eq_getLsbD byte hn
  rw [addend]
  cases hb : byte.getLsbD n with
  | false =>
    rw [hb, decide_eq_false_iff_not] at hbit
    rw [if_neg hbit]
    simp
  | true =>
    rw [hb, decide_eq_true_eq] at hbit
    rw [if_pos hbit]
    simp

/-- the bits of a byte, for `omega` -/
theorem getLsbD_toNat_le (b : Byte) (n : ℕ) : (b.getLsbD n).toNat ≤ 1 := Bool.toNat_le _

theorem fraction_eq (s : Scratchpad) : s.fraction =
    (s.temperatureLsb.toNat % 16 / 2 ^ s.undefinedBits * 2 ^ s.undefinedBits : ℕ) / 16 := by
  set lsb := s.temperatureLsb with hlsb
  have hbits := toNat_eq_bits lsb
  have h0 := getLsbD_toNat_le lsb 0
  have h1 := getLsbD_toNat_le lsb 1
  have h2 := getLsbD_toNat_le lsb 2
  have h3 := getLsbD_toNat_le lsb 3
  unfold fraction undefinedBits
  simp (disch := decide) only [← hlsb, addend_eq]
  split_ifs
  · have hsum : lsb.toNat % 16 / 2 ^ 0 * 2 ^ 0 = (lsb.getLsbD 0).toNat + 2 * (lsb.getLsbD 1).toNat +
        4 * (lsb.getLsbD 2).toNat + 8 * (lsb.getLsbD 3).toNat := by omega
    rw [hsum]
    push_cast
    norm_num
    ring
  · have hsum : lsb.toNat % 16 / 2 ^ 1 * 2 ^ 1 = 2 * (lsb.getLsbD 1).toNat + 4 * (lsb.getLsbD 2).toNat +
        8 * (lsb.getLsbD 3).toNat := by omega
    rw [hsum]
    push_cast
    norm_num
    ring
  · have hsum : lsb.toNat % 16 / 2 ^ 2 * 2 ^ 2 = 4 * (lsb.getLsbD 2).toNat + 8 * (lsb.getLsbD 3).toNat := by omega
    rw [hsum]
    push_cast
    norm_num
    ring
  · have hsum : lsb.toNat % 16 / 2 ^ 3 * 2 ^ 3 = 8 * (lsb.getLsbD 3).toNat := by omega
    rw [hsum]
    push_cast
    norm_num
    ring

/-- the sign bits are the top five of the first byte, and the magnitude is made of the other ones -/
theorem sign_magnitude (s : Scratchpad) : s.sign = s.temperatureMsb.toNat / 8 ∧
    s.magnitude = s.temperatureLsb.toNat % 16 / 2 ^ s.undefinedBits * 2 ^ s.undefinedBits +
      16 * (s.temperatureLsb.toNat / 16) + 256 * (s.temperatureMsb.toNat % 8) := by
  rw [sign, magnitude, temperatureWord_toNat]
  have hk := undefinedBits_le s
  interval_cases s.undefinedBits
  all_goals omega

theorem signMask_iff (msb : Byte) : msb &&& 0b11111000 = 0b11111000 ↔ msb.toNat / 8 = 31 := by
  revert msb
  decide +kernel

/-- the code takes the bits below the sign for a magnitude -/
theorem getTemperature_eq (s : Scratchpad) :
    s.getTemperature = (if s.sign = 31 then -(s.magnitude : ℚ) else s.magnitude) / 16 := by
  obtain ⟨hsign, hmagnitude⟩ := sign_magnitude s
  have hlsb := toNat_eq_bits s.temperatureLsb
  have hmsb := toNat_eq_bits s.temperatureMsb
  have hle (n : ℕ) := getLsbD_toNat_le s.temperatureLsb n
  have hle' (n : ℕ) := getLsbD_toNat_le s.temperatureMsb n
  have hresult : s.fraction + addend s.temperatureLsb 4 0 + addend s.temperatureLsb 5 1 +
      addend s.temperatureLsb 6 2 + addend s.temperatureLsb 7 3 + addend s.temperatureMsb 0 4 +
      addend s.temperatureMsb 1 5 + addend s.temperatureMsb 2 6 = (s.magnitude : ℚ) / 16 := by
    have hhigh : s.temperatureLsb.toNat / 16 = (s.temperatureLsb.getLsbD 4).toNat +
        2 * (s.temperatureLsb.getLsbD 5).toNat + 4 * (s.temperatureLsb.getLsbD 6).toNat +
        8 * (s.temperatureLsb.getLsbD 7).toNat := by
      have h0 := hle 0
      have h1 := hle 1
      have h2 := hle 2
      have h3 := hle 3
      omega
    have hlow : s.temperatureMsb.toNat % 8 = (s.temperatureMsb.getLsbD 0).toNat +
        2 * (s.temperatureMsb.getLsbD 1).toNat + 4 * (s.temperatureMsb.getLsbD 2).toNat := by
      have h0 := hle' 0
      have h1 := hle' 1
      have h2 := hle' 2
      omega
    rw [hmagnitude, hhigh, hlow, fraction_eq]
    simp (disch := decide) only [addend_eq]
    push_cast
    norm_num
    ring
  rw [getTemperature]
  simp only [hresult, signMask_iff, ← hsign]
  split_ifs
  · rw [neg_div]
  · rfl

/-- the number of the device from the same bits -/
theorem temperatureWord_toInt (s : Scratchpad) : s.temperatureWord.toInt =
    if s.sign < 16 then (s.sign : ℤ) * 2 ^ 11 + s.magnitude else ((s.sign : ℤ) - 32) * 2 ^ 11 + s.magnitude := by
  rw [BitVec.toInt_eq_toNat_cond, sign, magnitude]
  split_ifs
  all_goals omega

theorem getTemperature_eq_iff (s : Scratchpad) : s.getTemperature = s.temperature ↔ s.SignMagnitude := by
  have hsign : s.sign < 32 := by
    rw [sign]
    omega
  have hint : s.getTemperature = s.temperature ↔
      (if s.sign = 31 then -(s.magnitude : ℤ) else s.magnitude) = s.temperatureWord.toInt := by
    have hcast : (if s.sign = 31 then -(s.magnitude : ℚ) else s.magnitude) =
        ((if s.sign = 31 then -(s.magnitude : ℤ) else s.magnitude : ℤ) : ℚ) := by
      split_ifs
      · push_cast
        rfl
      · rfl
    rw [getTemperature_eq, temperature, hcast, div_left_inj' (by norm_num), Int.cast_inj]
  rw [hint, temperatureWord_toInt, SignMagnitude]
  split_ifs
  all_goals omega

end Scratchpad

/-! ## Runs -/

variable {β : Type}

/-- what a run publishes: the temperature of a valid scratchpad, and nothing for an invalid one -/
def Publishes (s : Sensor) (bus : ℕ → Bus β) (data : ℚ) (b : β) : Prop :=
  ∀ scratchpad, (s.measure bus b).1 = .ok scratchpad →
    (scratchpad.valid = true → (s.run bus data b).2.1 = scratchpad.temperature) ∧
      (scratchpad.valid = false → (s.run bus data b).2.1 = data)

/-- a run publishes what the code makes of a valid scratchpad -/
theorem run_spec (s : Sensor) (bus : ℕ → Bus β) (data : ℚ) (b : β) {scratchpad : Scratchpad}
    (h : (s.measure bus b).1 = .ok scratchpad) :
    (s.run bus data b).2.1 = if scratchpad.valid then scratchpad.getTemperature else data := by
  have hpair : s.measure bus b = (.ok scratchpad, (s.measure bus b).2) := by rw [← h]
  rw [Sensor.run, hpair]

/-- **The temperature of a run.** For every sensor, every bus and all that is read from it: a run publishes the temperature
that the device has sent, and nothing for an invalid scratchpad, iff in a valid one the sign bits are not set or the number
is that of -64 degrees. -/
theorem decodes_iff (s : Sensor) (bus : ℕ → Bus β) (data : ℚ) (b : β) :
    Publishes s bus data b ↔
      ∀ scratchpad, (s.measure bus b).1 = .ok scratchpad → scratchpad.valid = true → scratchpad.SignMagnitude := by
  refine ⟨fun h scratchpad hread hvalid => ?_, fun h scratchpad hread => ⟨fun hvalid => ?_, fun hvalid => ?_⟩⟩
  · have hrun := (h scratchpad hread).1 hvalid
    rw [run_spec s bus data b hread, if_pos hvalid] at hrun
    exact scratchpad.getTemperature_eq_iff.1 hrun
  · rw [run_spec s bus data b hread, if_pos hvalid]
    exact scratchpad.getTemperature_eq_iff.2 (h scratchpad hread hvalid)
  · rw [run_spec s bus data b hread, hvalid]
    exact if_neg Bool.false_ne_true

/-- a bus that replies with the bits of a list -/
def replyingBus : Bus (List Bool) where
  reset b := (.ok, b)
  readBit b := (.ok, b.headD true, b.tail)
  writeBit _ b := (.ok, b)

/-- the bits of a scratchpad, in the order of the bus -/
def Scratchpad.bits (s : Scratchpad) : List Bool := s.bytes.toList.flatMap fun byte => (List.range 8).map byte.getLsbD

/-- minus 10.125 degrees, with 12 bits -/
def coldScratchpad : Scratchpad := ⟨#v[0x5E, 0xFF, 0x4B, 0x46, 0x7F, 0xFF, 0x02, 0x10, 0xB6]⟩

def exampleSensor : Sensor := ⟨"temp", some 0, ⟨.new, .bit12⟩⟩

def PublishesTemperature : Prop :=
  ∀ (s : Sensor) (bus : ℕ → Bus (List Bool)) (data : ℚ) (b : List Bool), Publishes s bus data b

/-- **A temperature below zero.** The run publishes -117.875 for -10.125 degrees. -/
theorem negative_temperature : ¬ PublishesTemperature ∧ coldScratchpad.valid = true ∧
    coldScratchpad.temperature = -81 / 8 ∧
    (exampleSensor.run (fun _ => replyingBus) 20 coldScratchpad.bits).2.1 = -943 / 8 := by
  have hvalid : coldScratchpad.valid = true := by decide +kernel
  have htemperature : coldScratchpad.temperature = -81 / 8 := by decide +kernel
  have hrun : (exampleSensor.run (fun _ => replyingBus) 20 coldScratchpad.bits).2.1 = -943 / 8 := by
    decide +kernel
  have hread : (exampleSensor.measure (fun _ => replyingBus) coldScratchpad.bits).1 = .ok coldScratchpad := by
    decide +kernel
  refine ⟨fun h => ?_, hvalid, htemperature, hrun⟩
  have hpublished := (h exampleSensor (fun _ => replyingBus) 20 coldScratchpad.bits coldScratchpad hread).1 hvalid
  rw [hrun, htemperature] at hpublished
  norm_num at hpublished

end ControlComponents.Ds18b20
