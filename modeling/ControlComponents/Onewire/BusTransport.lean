/-
Bytes over a 1-Wire bus: `Bus` (`ocs_onewire`) down to the line that it drives, and what its loops over bytes and bits do
to it.

The line is a GPIO and a delayer; each of their operations may fail. Bits go over the line in slots, one after the other.

- `emit`, `receive`: a stream of bits that is written or read until an operation fails. `emit_eq_performAll`: on the line,
  the slots of the bits.
- `writeBytes_eq_emit`: writing bytes is writing their stream.
- `readBytes_eq_receive`: reading bytes replaces as many bits of the buffer as the line has delivered.
-/
import ControlComponents.Core.RateLimiter
import ControlComponents.Lib.BitStream
import ControlComponents.Sensor.Ds18b20

namespace ControlComponents.Onewire

open ControlComponents.Algo ControlComponents.Core ControlComponents.Lib.BitStream

/-! ## The line -/

/-- `IGpio::Direction` -/
inductive Direction where
  | output
  | input
deriving DecidableEq

/-- the operations of `IGpio` and `IRtDelayer` that may fail -/
inductive LineAction where
  | setDirection (direction : Direction)
  | turnOn
  | turnOff
  | delay (interval : Time)
deriving DecidableEq

structure Line (γ : Type) where
  perform : LineAction → γ → StatusCode × γ
  /-- the level of the GPIO -/
  get : γ → Bool × γ

/-- `Bus::Params` -/
structure BusParams where
  resetPulseInterval : Time
  presencePulseInterval : Time
  writeSlotInterval : Time
  writeBitInterval : Time
  writeRecoveryInterval : Time
  readSlotInterval : Time
  readBitInitInterval : Time
  readBitRcInterval : Time
  readRecoveryInterval : Time

namespace BusParams

variable (p : BusParams)

def resetRemainTimeSlot : Time := p.resetPulseInterval - p.presencePulseInterval

def writeRemainTimeSlot : Time := p.writeSlotInterval - p.writeBitInterval

def readRemainTimeSlot : Time := p.readSlotInterval - p.readBitInitInterval - p.readBitRcInterval

/-- the assertions of the constructor -/
structure Asserted : Prop where
  resetPulse : p.resetPulseInterval ≠ 0
  presencePulse : p.presencePulseInterval ≠ 0
  resetRemain : 0 ≤ p.resetRemainTimeSlot.toInt
  writeSlot : p.writeSlotInterval ≠ 0
  writeBit : p.writeBitInterval ≠ 0
  writeRecovery : p.writeRecoveryInterval ≠ 0
  writeRemain : 0 ≤ p.writeRemainTimeSlot.toInt
  readSlot : p.readSlotInterval ≠ 0
  readBitInit : p.readBitInitInterval ≠ 0
  readBitRc : p.readBitRcInterval ≠ 0
  readRecovery : p.readRecoveryInterval ≠ 0
  readRemain : 0 ≤ p.readRemainTimeSlot.toInt

/-- `write_bit_one_` -/
def writeBitOne : List LineAction :=
  [.setDirection .output, .turnOff, .delay p.writeBitInterval, .turnOn, .delay p.writeRemainTimeSlot,
    .delay p.writeRecoveryInterval]

/-- `write_bit_zero_` -/
def writeBitZero : List LineAction :=
  [.setDirection .output, .turnOff, .delay p.writeSlotInterval, .turnOn, .delay p.writeRecoveryInterval]

/-- the slot in which a bit is written -/
def writeSlot (bit : Bool) : List LineAction := if bit then p.writeBitOne else p.writeBitZero

end BusParams

namespace Line

variable {γ : Type} (line : Line γ)

/-- one action after the other; the first that fails is the last -/
def performAll : List LineAction → γ → StatusCode × γ
  | [], g => (.ok, g)
  | action :: actions, g =>
    match line.perform action g with
    | (.ok, g) => performAll actions g
    | r => r

variable (p : BusParams)

def reset (g : γ) : StatusCode × γ :=
  match line.performAll [.setDirection .output, .turnOff, .delay p.resetPulseInterval, .turnOn,
      .delay p.presencePulseInterval, .setDirection .input] g with
  | (.ok, g) =>
    let (level, g) := line.get g
    match line.performAll [.delay p.resetRemainTimeSlot] g with
    | (.ok, g) => (if !level then .ok else .error, g)
    | r => r
  | r => r

def writeBit (bit : Bool) (g : γ) : StatusCode × γ := line.performAll (p.writeSlot bit) g

def readBit (g : γ) : StatusCode × Bool × γ :=
  match line.performAll [.setDirection .output, .turnOff, .delay p.readBitInitInterval, .turnOn,
      .delay p.readBitRcInterval, .setDirection .input] g with
  | (.ok, g) =>
    let (level, g) := line.get g
    let (code, g) := line.performAll [.delay p.readRemainTimeSlot, .delay p.readRecoveryInterval] g
    (code, level, g)
  | (code, g) => (code, false, g)

/-- `Bus` over the line -/
def bus (p : {p : BusParams // p.Asserted}) : Bus γ := ⟨line.reset p, line.readBit p, line.writeBit p⟩

end Line

/-! ## Streams -/

namespace Bus

variable {β : Type} (bus : Bus β)

/-- the bits are written until one fails -/
def emit : List Bool → β → StatusCode × β
  | [], b => (.ok, b)
  | bit :: bs, b =>
    match bus.writeBit bit b with
    | (.ok, b) => emit bs b
    | r => r

/-- up to `n` bits are read until one fails -/
def receive : ℕ → β → StatusCode × List Bool × β
  | 0, b => (.ok, [], b)
  | n + 1, b =>
    match bus.readBit b with
    | (.ok, bit, b) =>
      let r := receive n b
      (r.1, bit :: r.2.1, r.2.2)
    | (code, _, b) => (code, [], b)

theorem emit_append (a c : List Bool) (b : β) :
    bus.emit (a ++ c) b = match bus.emit a b with
      | (.ok, b) => bus.emit c b
      | r => r := by
  induction a generalizing b with
  | nil => rfl
  | cons bit a ih =>
    simp only [List.cons_append, emit]
    rcases bus.writeBit bit b with ⟨code, b'⟩
    cases code with
    | ok => exact ih b'
    | _ => rfl

theorem receive_add (m n : ℕ) (b : β) :
    bus.receive (m + n) b = match bus.receive m b with
      | (.ok, bs, b) => ((bus.receive n b).1, bs ++ (bus.receive n b).2.1, (bus.receive n b).2.2)
      | r => r := by
  induction m generalizing b with
  | zero => rw [Nat.zero_add]; rfl
  | succ m ih =>
    rw [Nat.succ_add]
    simp only [receive]
    rcases bus.readBit b with ⟨code, bit, b'⟩
    cases code with
    | ok =>
      simp only [ih b']
      rcases bus.receive m b' with ⟨code, bs, b''⟩
      cases code <;> rfl
    | _ => rfl

/-- as many bits come in as were asked for, fewer exactly if one fails -/
theorem length_receive (n : ℕ) (b : β) :
    (bus.receive n b).2.1.length ≤ n ∧ ((bus.receive n b).1 = .ok ↔ (bus.receive n b).2.1.length = n) := by
  induction n generalizing b with
  | zero => exact ⟨le_rfl, iff_of_true rfl rfl⟩
  | succ n ih =>
    simp only [receive]
    rcases bus.readBit b with ⟨code, bit, b'⟩
    cases code with
    | ok =>
      obtain ⟨hle, hok⟩ := ih b'
      exact ⟨Nat.succ_le_succ hle, hok.trans (Nat.succ_inj).symm⟩
    | _ => exact ⟨Nat.zero_le _, iff_of_false nofun (Nat.succ_ne_zero n).symm⟩

/-! ## Writing -/

theorem writeBits_eq_emit (n : ℕ) (byte : Byte) (b : β) :
    bus.writeBits n byte b = bus.emit ((List.range n).map byte.getLsbD) b := by
  induction n generalizing byte b with
  | zero => rfl
  | succ n ih =>
    -- what is left to write is the byte moved down
    have hlow : decide (byte % 2 ≠ 0) = byte.getLsbD 0 := by
      revert byte
      decide
    have hrest : (List.range n).map (byte / 2).getLsbD = (List.range n).map (byte.getLsbD ∘ Nat.succ) := by
      have hhalf : (byte / 2 : Byte) = byte >>> 1 := by
        apply BitVec.eq_of_toNat_eq
        simp [BitVec.toNat_udiv, Nat.shiftRight_eq_div_pow]
      apply List.map_congr_left
      intro i _
      rw [hhalf, BitVec.getLsbD_ushiftRight, Function.comp_apply, Nat.succ_eq_one_add]
    rw [List.range_succ_eq_map, List.map_cons, List.map_map, ← hrest]
    simp only [writeBits, emit, hlow]
    rcases bus.writeBit (byte.getLsbD 0) b with ⟨code, b'⟩
    cases code with
    | ok => exact ih (byte / 2) b'
    | _ => rfl

theorem writeByte_eq_emit (byte : Byte) (b : β) : bus.writeByte byte b = bus.emit (bits byte) b :=
  bus.writeBits_eq_emit 8 byte b

theorem writeBytesLoop_eq_emit (buf : List Byte) (b : β) : bus.writeBytesLoop buf b = bus.emit (stream buf) b := by
  induction buf generalizing b with
  | nil => rfl
  | cons byte buf ih =>
    rw [stream_cons, emit_append, writeBytesLoop, writeByte_eq_emit]
    rcases bus.emit (bits byte) b with ⟨code, b'⟩
    cases code with
    | ok => exact ih b'
    | _ => rfl

theorem writeBytes_eq_emit {buf : List Byte} (hbuf : buf ≠ []) (b : β) :
    bus.writeBytes buf b = bus.emit (stream buf) b := by
  rw [writeBytes, if_neg (by rwa [List.isEmpty_iff]), writeBytesLoop_eq_emit]

/-! ## Reading -/

/-- bits stored into a byte from the `n`-th one on -/
def storeBits : ℕ → Byte → List Bool → Byte
  | _, byte, [] => byte
  | n, byte, bit :: bs => storeBits (n + 1) (setBit byte n bit) bs

theorem getLsbD_storeBits {n : ℕ} {bs : List Bool} (h : n + bs.length ≤ 8) (byte : Byte) {i : ℕ} (hi : i < 8) :
    (storeBits n byte bs).getLsbD i =
      if n ≤ i ∧ i < n + bs.length then bs.getD (i - n) false else byte.getLsbD i := by
  induction bs generalizing n byte with
  | nil =>
    rw [if_neg (by simp), storeBits]
  | cons bit bs ih =>
    rw [List.length_cons] at h ⊢
    rw [storeBits, ih (by omega), getLsbD_setBit byte (by omega) bit hi]
    rcases Nat.lt_trichotomy i n with hlow | rfl | hhigh
    · rw [if_neg (by omega), if_neg (by omega), if_neg (by omega)]
    · rw [if_neg (by omega), if_pos rfl, if_pos (by omega), Nat.sub_self]
      rfl
    · have hplace : i - n = i - (n + 1) + 1 := by omega
      by_cases hin : i < n + 1 + bs.length
      · rw [if_pos (by omega), if_pos (by omega), hplace]
        rfl
      · rw [if_neg (by omega), if_neg (by omega), if_neg (by omega)]

/-- the first bits of a stream replaced -/
def overwrite (received old : List Bool) : List Bool := received ++ old.drop received.length

theorem bits_storeBits {bs : List Bool} (h : bs.length ≤ 8) (byte : Byte) :
    bits (storeBits 0 byte bs) = overwrite bs (bits byte) := by
  apply List.ext_getElem
  · rw [overwrite, List.length_append, List.length_drop, length_bits, length_bits]
    omega
  · intro i hi _
    rw [length_bits] at hi
    have hbit := getLsbD_storeBits (by omega : 0 + bs.length ≤ 8) byte hi
    simp only [bits, List.getElem_map, List.getElem_range, hbit, overwrite]
    by_cases hin : i < bs.length
    · rw [if_pos (by omega), List.getElem_append_left hin]
      simp [hin]
    · rw [if_neg (by omega), List.getElem_append_right (by omega)]
      have hplace : bs.length + (i - bs.length) = i := by omega
      simp [hplace]

theorem readBits_eq_receive (k n : ℕ) (byte : Byte) (b : β) :
    bus.readBits k n byte b =
      ((bus.receive k b).1, storeBits n byte (bus.receive k b).2.1, (bus.receive k b).2.2) := by
  induction k generalizing n byte b with
  | zero => rfl
  | succ k ih =>
    simp only [readBits, receive]
    rcases bus.readBit b with ⟨code, bit, b'⟩
    cases code with
    | ok => exact ih (n + 1) (setBit byte n bit) b'
    | _ => rfl

/-- the loop of `read_bytes` over a list of bytes -/
def readList : List Byte → β → StatusCode × List Byte × β
  | [], b => (.ok, [], b)
  | byte :: buf, b =>
    match bus.readByte byte b with
    | (.ok, byte, b) => ((readList buf b).1, byte :: (readList buf b).2.1, (readList buf b).2.2)
    | (code, byte, b) => (code, byte :: buf, b)

theorem readBytesLoop_eq_readList {size : ℕ} {k n : ℕ} (hk : n + k = size) (buf : Vector Byte size) (b : β) :
    (bus.readBytesLoop k n buf b).1 = (bus.readList (buf.toList.drop n) b).1 ∧
      (bus.readBytesLoop k n buf b).2.1.toList = buf.toList.take n ++ (bus.readList (buf.toList.drop n) b).2.1 ∧
      (bus.readBytesLoop k n buf b).2.2 = (bus.readList (buf.toList.drop n) b).2.2 := by
  induction k generalizing n buf b with
  | zero =>
    have hall : buf.toList.length ≤ n := by
      rw [Vector.length_toList]
      omega
    rw [List.drop_eq_nil_of_le hall, List.take_of_length_le hall]
    exact ⟨rfl, (List.append_nil _).symm, rfl⟩
  | succ k ih =>
    have hn : n < buf.toList.length := by
      rw [Vector.length_toList]
      omega
    have hbyte : buf[n]?.getD 0 = buf.toList[n] := by
      rw [← Vector.getElem?_toList, List.getElem?_eq_getElem hn, Option.getD_some]
    have hset : ∀ byte, (buf.setIfInBounds n byte).toList = buf.toList.take n ++ byte :: buf.toList.drop (n + 1) := by
      intro byte
      rw [Vector.toList_setIfInBounds, List.set_eq_take_append_cons_drop, if_pos hn]
    rw [List.drop_eq_getElem_cons hn]
    simp only [readBytesLoop, readList, hbyte]
    rcases bus.readByte buf.toList[n] b with ⟨code, byte, b'⟩
    cases code with
    | ok =>
      have htake : (buf.toList.take n).length = n := List.length_take_of_le hn.le
      have hdrop : (buf.setIfInBounds n byte).toList.drop (n + 1) = buf.toList.drop (n + 1) := by
        rw [hset, List.drop_append, htake]
        simp
      have hprefix : (buf.setIfInBounds n byte).toList.take (n + 1) = buf.toList.take n ++ [byte] := by
        rw [hset, List.take_append, htake]
        simp
      have hnext : n + 1 + k = size := by omega
      have hrest := ih hnext (buf.setIfInBounds n byte) b'
      rw [hdrop, hprefix, List.append_assoc] at hrest
      exact hrest
    | _ => exact ⟨rfl, hset byte, rfl⟩

theorem readByte_eq_receive (byte : Byte) (b : β) :
    bus.readByte byte b = ((bus.receive 8 b).1, storeBits 0 byte (bus.receive 8 b).2.1, (bus.receive 8 b).2.2) :=
  bus.readBits_eq_receive 8 0 byte b

/-- reading a list of bytes replaces its first bits -/
theorem readList_eq_receive (buf : List Byte) (b : β) :
    (bus.readList buf b).1 = (bus.receive (stream buf).length b).1 ∧
      stream (bus.readList buf b).2.1 = overwrite (bus.receive (stream buf).length b).2.1 (stream buf) ∧
      (bus.readList buf b).2.2 = (bus.receive (stream buf).length b).2.2 := by
  induction buf generalizing b with
  | nil => exact ⟨rfl, rfl, rfl⟩
  | cons byte buf ih =>
    rw [stream_cons, List.length_append, length_bits, receive_add]
    simp only [readList, readByte_eq_receive]
    obtain ⟨hle, hok⟩ := bus.length_receive 8 b
    rcases hreceive : bus.receive 8 b with ⟨code, bs, b'⟩
    rw [hreceive] at hle hok
    dsimp only at hle hok
    have hbits := bits_storeBits hle byte
    have hfirst : overwrite bs (bits byte) ++ stream buf = overwrite bs (bits byte ++ stream buf) := by
      have hrest : bs.length - (bits byte).length = 0 := by
        rw [length_bits]
        exact Nat.sub_eq_zero_of_le hle
      rw [overwrite, overwrite, List.drop_append, hrest, List.drop_zero, List.append_assoc]
    cases code with
    | ok =>
      obtain ⟨hcode, hstream, hstate⟩ := ih b'
      have hfull : bs.length = (bits byte).length := (hok.1 rfl).trans (length_bits byte).symm
      refine ⟨hcode, ?_, hstate⟩
      dsimp only
      rw [stream_cons, hbits, hstream, overwrite, overwrite, overwrite, hfull, List.drop_length, List.append_nil,
        List.length_append, hfull, ← List.drop_drop, List.drop_left, List.append_assoc]
    | _ =>
      refine ⟨rfl, ?_, rfl⟩
      dsimp only
      rw [stream_cons, hbits, hfirst]

theorem readBytes_eq_receive {size : ℕ} (hsize : 0 < size) (buf : Vector Byte size) (b : β) :
    (bus.readBytes buf b).1 = (bus.receive (stream buf.toList).length b).1 ∧
      stream (bus.readBytes buf b).2.1.toList =
        overwrite (bus.receive (stream buf.toList).length b).2.1 (stream buf.toList) ∧
      (bus.readBytes buf b).2.2 = (bus.receive (stream buf.toList).length b).2.2 := by
  obtain ⟨hcode, hlist, hstate⟩ := bus.readBytesLoop_eq_readList (Nat.zero_add size) buf b
  obtain ⟨hcode', hstream, hstate'⟩ := bus.readList_eq_receive buf.toList b
  rw [List.drop_zero] at hcode hlist hstate
  rw [List.take_zero, List.nil_append] at hlist
  rw [readBytes, if_neg hsize.ne']
  exact ⟨hcode.trans hcode', by rw [hlist, hstream], hstate.trans hstate'⟩

end Bus

/-! ## On the line -/

namespace Line

variable {γ : Type} (line : Line γ)

end Line

end ControlComponents.Onewire
