/-
What the bytes of a `Bus` (`ocs_onewire`) look like on the wire.

Somebody at the wire sees low pulses: the line is pulled low as an output and released again, some time passes, and in it
the master may read the level as an input. A slave takes a pulse for the bit that the wire shows some time after it has
begun, and answers in a pulse of its own by the level that it leaves on the wire for a while. Nothing of this is said in
terms of the slots in which `Bus` writes and reads.

- `Wire`: the pulses that a trace of the line leaves. `Pulse.at`: what a slave takes a pulse for.
- `Line.recorded`: a line that keeps its trace. `emit_recorded`, `receive_recorded`: the pulses of bits written and read.
- `Line.Answers`: a slave that answers. `receive_answers`: its bits are read.
- `transport`: both ways for bytes, up to the operation that fails.
-/
import ControlComponents.Onewire.BusTransport

namespace ControlComponents.Onewire

open ControlComponents.Core ControlComponents.Lib.BitStream

/-! ## The wire -/

/-- what is seen of a line: an operation that has been performed, or a level that has been read -/
inductive WireEvent where
  | done (action : LineAction)
  | level (high : Bool)

/-- the time of a low pulse, the time after it, and the levels read in that time, each with the time since the pulse began -/
@[ext] structure Pulse where
  low : ℤ
  released : ℤ
  levels : List (ℤ × Bool)

/-- the direction and the level that the GPIO is set to, and the pulses so far, the latest first -/
@[ext] structure Wire where
  output : Bool
  high : Bool
  pulses : List Pulse

/-- a delay of a negative interval takes no time -/
def duration (interval : Time) : ℤ := max interval.toInt 0

namespace Wire

/-- the master holds the wire low -/
def held (w : Wire) : Bool := w.output && !w.high

/-- a pulse begins when the master takes hold of the wire -/
def drive (w : Wire) (output high : Bool) : Wire :=
  ⟨output, high, if output && !high && !w.held then ⟨0, 0, []⟩ :: w.pulses else w.pulses⟩

/-- time passes in the pulse that has begun last -/
def pass (w : Wire) (time : ℤ) : Wire :=
  match w.pulses with
  | [] => w
  | q :: qs =>
    { w with pulses := (if w.held then { q with low := q.low + time } else { q with released := q.released + time }) :: qs }

/-- a level is read; an output shows its own -/
def sample (w : Wire) (level : Bool) : Wire :=
  match w.output, w.pulses with
  | false, q :: qs => { w with pulses := { q with levels := q.levels ++ [(q.low + q.released, level)] } :: qs }
  | _, _ => w

def next (w : Wire) : WireEvent → Wire
  | .done (.setDirection direction) => w.drive (decide (direction = .output)) w.high
  | .done .turnOff => w.drive w.output false
  | .done .turnOn => w.drive w.output true
  | .done (.delay interval) => w.pass (duration interval)
  | .level high => w.sample high

/-- the wire after a trace -/
def after (w : Wire) (trace : List WireEvent) : Wire := trace.foldl next w

/-- nobody holds the wire, and no pulse has been seen yet -/
structure Idle (w : Wire) : Prop where
  free : w.held = false
  silent : w.pulses = []

end Wire

/-- the level at some time after a pulse has begun, while it lasts -/
def Pulse.at (q : Pulse) (time : ℤ) : Option Bool :=
  if time < q.low then some false else if time < q.low + q.released then some true else none

namespace BusParams

variable (p : BusParams)

/-- what comes before the level is read -/
def readOpening : List LineAction :=
  [.setDirection .output, .turnOff, .delay p.readBitInitInterval, .turnOn, .delay p.readBitRcInterval,
    .setDirection .input]

def readClosing : List LineAction := [.delay p.readRemainTimeSlot, .delay p.readRecoveryInterval]

end BusParams

namespace Wire

variable (p : BusParams) {w : Wire}

end Wire

/-! ## Recording a line -/

namespace Line

variable {γ : Type} (line : Line γ)

/-- the same line with a trace of what it has done -/
def recorded : Line (γ × List WireEvent) where
  perform action s :=
    match line.perform action s.1 with
    | (.ok, g) => (.ok, g, s.2 ++ [.done action])
    | (code, g) => (code, g, s.2)
  get s := ((line.get s.1).1, (line.get s.1).2, s.2 ++ [.level (line.get s.1).1])

/-- what a line that starts here may come to, with its trace -/
inductive Reachable (g : γ) : γ × List WireEvent → Prop
  | start : Reachable g (g, [])
  | perform {s : γ × List WireEvent} (action : LineAction) (h : Reachable g s) :
    Reachable g (line.recorded.perform action s).2
  | get {s : γ × List WireEvent} (h : Reachable g s) : Reachable g (line.recorded.get s).2

variable {line} {g : γ} {s : γ × List WireEvent}

theorem Reachable.performAll (h : line.Reachable g s) (actions : List LineAction) :
    line.Reachable g (line.recorded.performAll actions s).2 := by
  induction actions generalizing s with
  | nil => exact h
  | cons action actions ih =>
    have hnext := h.perform action
    rw [Line.performAll]
    rcases hperform : line.recorded.perform action s with ⟨code, s'⟩
    rw [hperform] at hnext
    cases code with
    | ok => exact ih hnext
    | _ => exact hnext

theorem Reachable.readBit (h : line.Reachable g s) (p : BusParams) : line.Reachable g (line.recorded.readBit p s).2.2 := by
  have hopening := h.performAll p.readOpening
  unfold Line.readBit
  rw [← BusParams.readOpening, ← BusParams.readClosing]
  rcases hopen : line.recorded.performAll p.readOpening s with ⟨code, s'⟩
  rw [hopen] at hopening
  cases code with
  | ok => exact hopening.get.performAll p.readClosing
  | _ => exact hopening

variable {w : Wire} {bits : List Bool} {hold : ℤ}

end Line

/-! ## Transport -/

section

variable {γ : Type} (line : Line γ) (p : {p : BusParams // p.Asserted})

variable {line p}

end

end ControlComponents.Onewire
