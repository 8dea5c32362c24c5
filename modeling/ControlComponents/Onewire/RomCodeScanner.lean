/-
Enumeration of the devices on a 1-Wire bus (`ocs_onewire`): `Bus`, `RomCode` and `RomCodeScanner`, and the loop that
calls the scanner (`scan_rom_codes`).

The wires are not modelled: a bus is a reset, a bit read and a bit written over some state, each of which may fail. The
ideal bus is the one on which the devices follow the search as the protocol says. A failed assertion and an access outside
of the buffer are `none`.
-/
import ControlComponents.Algo.CrcOps

namespace ControlComponents.Onewire

open ControlComponents.Algo

/-! ## Bus -/

/-- `Bus` over a state -/
structure Bus (β : Type) where
  reset : β → StatusCode × β
  readBit : β → StatusCode × Bool × β
  writeBit : Bool → β → StatusCode × β

namespace Bus

variable {β : Type} (bus : Bus β)

/-- the loop of `write_byte`, least significant bit first -/
def writeBits : ℕ → Byte → β → StatusCode × β
  | 0, _, b => (.ok, b)
  | n + 1, byte, b =>
    match bus.writeBit (decide (byte % 2 ≠ 0)) b with
    | (.ok, b) => writeBits n (byte / 2) b
    | r => r

def writeByte (byte : Byte) (b : β) : StatusCode × β := bus.writeBits 8 byte b

end Bus

/-! ## ROM codes -/

/-- the `n`-th bit of a buffer, the least significant bit of a byte first -/
def bitAt {size : ℕ} (buf : Vector Byte size) (n : ℕ) : Bool := (buf[n / 8]?.getD 0).getLsbD (n % 8)

def calculateCrc (buf : List Byte) : Byte := CrcOps.crc8 buf 0x00 0x8C .lsb

/-- the packed structure: the family code, six bytes of serial number and the checksum -/
structure RomCode where
  bytes : Vector Byte 8
deriving DecidableEq

namespace RomCode

/-- `Command::SearchRom` -/
def searchRom : Byte := 0xF0

def new : RomCode := ⟨.replicate 8 0⟩

/-- the bits in the order in which they are sent -/
def bit (romCode : RomCode) (n : ℕ) : Bool := bitAt romCode.bytes n

def crc (romCode : RomCode) : Byte := romCode.bytes[7]

def valid (romCode : RomCode) : Bool := calculateCrc (romCode.bytes.toList.take 7) = romCode.crc

/-- a code is valid iff all of its bytes leave the register of the checksum empty -/
theorem valid_iff_residue (romCode : RomCode) : romCode.valid = true ↔ calculateCrc romCode.bytes.toList = 0#8 := by
  have hsplit : romCode.bytes.toList = romCode.bytes.toList.take 7 ++ [romCode.crc] := by
    apply List.ext_getElem
    · simp
    · intro i hi _
      rw [Vector.length_toList] at hi
      rcases Nat.lt_or_ge i 7 with hlow | hlast
      · simp [hlow]
      · obtain rfl : i = 7 := by omega
        simp [crc]
  have hresidue := CrcOps.Parameters.crc_append_eq_zero_iff CrcOps.oneWire_invertible (romCode.bytes.toList.take 7)
    romCode.crc
  rw [← hsplit] at hresidue
  exact decide_eq_true_iff.trans (eq_comm.trans hresidue.symm)

end RomCode

/-! ## Scanner -/

structure RomCodeScanner where
  finished : Bool
  prevDiscrepancy : ℤ
  currDiscrepancy : ℤ
  /-- `unsigned` -/
  conflictCount : ℕ
deriving DecidableEq

namespace RomCodeScanner

def new : RomCodeScanner := ⟨false, -1, -1, 0⟩

/-- the bit to go on with where both values are present, or `none` for a failed assertion -/
def handleDiscrepancy {size : ℕ} (s : RomCodeScanner) (buf : Vector Byte size) (position : ℕ) :
    Option (Bool × RomCodeScanner) :=
  if s.currDiscrepancy = position then
    if position = 0 then some (true, { s with prevDiscrepancy := 0, currDiscrepancy := -1, conflictCount := 0 })
    else if s.conflictCount = 0 then none
    else some (true, { s with currDiscrepancy := s.prevDiscrepancy, conflictCount := s.conflictCount - 1 })
  else if s.currDiscrepancy < position then
    let prev := if s.prevDiscrepancy < 0 then (position : ℤ) else s.currDiscrepancy
    some (false, { s with prevDiscrepancy := prev, currDiscrepancy := position,
                          conflictCount := (s.conflictCount + 1) % 2 ^ 32 })
  else if s.prevDiscrepancy < 0 then none
  else do
    let byte ← buf[s.prevDiscrepancy.toNat / 8]?
    let bit := BitOps.nth (byte.setWidth 32) (BitVec.ofNat 8 (s.prevDiscrepancy.toNat % 8))
    some (decide (bit ≠ 0), { s with prevDiscrepancy := position })

/-- `bit` as the `n`-th bit of the buffer -/
def store {size : ℕ} (buf : Vector Byte size) (n : ℕ) (bit : Bool) : Option (Vector Byte size) := do
  let byte ← buf[n / 8]?
  some (buf.setIfInBounds (n / 8) (setBit byte (n % 8) bit))

variable {β : Type} (bus : Bus β)

/-- the loop of `scan_`, with the number of bits to go -/
def scanLoop {size : ℕ} : ℕ → ℕ → RomCodeScanner → Vector Byte size → β →
    Option (StatusCode × RomCodeScanner × Vector Byte size × β)
  | 0, _, s, buf, b => some (.ok, s, buf, b)
  | k + 1, n, s, buf, b =>
    match bus.readBit b with
    | (.ok, bit1, b) =>
      match bus.readBit b with
      | (.ok, bit2, b) =>
        if bit1 && bit2 then some (.noData, s, buf, b)
        else do
          let (bit, s) ← (if !bit1 && !bit2 then s.handleDiscrepancy buf n else some (bit1 && !bit2, s))
          let buf ← store buf n bit
          match bus.writeBit bit b with
          | (.ok, b) => scanLoop k (n + 1) s buf b
          | (code, b) => some (code, s, buf, b)
      | (code, _, b) => some (code, s, buf, b)
    | (code, _, b) => some (code, s, buf, b)

def scan (s : RomCodeScanner) (romCode : RomCode) (b : β) : Option (StatusCode × RomCodeScanner × RomCode × β) :=
  if s.finished then some (.noData, s, romCode, b)
  else
    match bus.reset b with
    | (.ok, b) =>
      match bus.writeByte RomCode.searchRom b with
      | (.ok, b) => do
        let (code, s, buf, b) ← scanLoop bus 64 0 s romCode.bytes b
        if code ≠ .ok then some (code, s, ⟨buf⟩, b)
        else if !RomCode.valid ⟨buf⟩ then some (.error, s, ⟨buf⟩, b)
        else some (.ok, if s.conflictCount = 0 then { s with finished := true } else s, ⟨buf⟩, b)
      | (code, b) => some (code, s, romCode, b)
    | (code, b) => some (code, s, romCode, b)

end RomCodeScanner

/-- the loop of `scan_rom_codes`: the status that stops it and the codes before it; `none` if it does not stop within the
fuel or an assertion fails -/
def scanRomCodes {β : Type} (bus : Bus β) : ℕ → RomCodeScanner → β → Option (StatusCode × List RomCode)
  | 0, _, _ => none
  | fuel + 1, s, b => do
    let (code, s, romCode, b) ← s.scan bus .new b
    if code ≠ .ok then some (code, [])
    else
      let (code, romCodes) ← scanRomCodes bus fuel s b
      some (code, romCode :: romCodes)

/-! ## The ideal bus -/

/-- what the devices expect next: a bit of a command, or a search at bit `n` that reads it, reads its complement and
selects -/
inductive Phase where
  | idle
  | command (n : ℕ) (byte : ℕ)
  | search (n : ℕ)
  | complement (n : ℕ)
  | select (n : ℕ)
deriving DecidableEq

structure IdealBus where
  phase : Phase
  /-- the devices that still participate -/
  active : List RomCode
deriving DecidableEq

/-- the phase after `n` bits of a search -/
def searched (n : ℕ) : Phase := if n = 64 then .idle else .search n

/-- a reset reports presence; a read in a search is the wired-AND over the devices that participate, and the bit written
deselects the others -/
def idealBus (devices : List RomCode) : Bus IdealBus where
  reset _ := (if devices.isEmpty then .error else .ok, ⟨.command 0 0, devices⟩)
  readBit b :=
    match b.phase with
    | .search n => (.ok, b.active.all fun d => d.bit n, { b with phase := .complement n })
    | .complement n => (.ok, b.active.all fun d => !d.bit n, { b with phase := .select n })
    | _ => (.ok, true, b)
  writeBit bit b :=
    match b.phase with
    | .command n byte =>
      let byte := byte + if bit then 2 ^ n else 0
      if n < 7 then (.ok, { b with phase := .command (n + 1) byte })
      else if byte = RomCode.searchRom.toNat then (.ok, { b with phase := searched 0 })
      else (.ok, ⟨.idle, []⟩)
    | .select n => (.ok, ⟨searched (n + 1), b.active.filter fun d => d.bit n = bit⟩)
    | _ => (.ok, b)

end ControlComponents.Onewire
