/-
Copying a stream (`ocs_core`): `StreamTransceiver` over any reader and writer, and the reader of a file.

The copy loop reads up to the capacity of its buffer and writes what it got, until one side reports that there is no more
data. The destructor ends both streams on every path. A file reports the end only after a read came back short.
-/
import ControlComponents.Basic

namespace ControlComponents.Core

/-! ## Streams -/

/-- `IStreamReader` over a state; `read` is given the size of the buffer, `none` is a failed assertion -/
structure StreamReader (σ : Type) where
  start : σ → StatusCode × σ
  finish : σ → StatusCode × σ
  read : ℕ → σ → Option (StatusCode × List Byte × σ)

/-- `IStreamWriter` over a state -/
structure StreamWriter (σ : Type) where
  start : σ → StatusCode × σ
  finish : σ → StatusCode × σ
  write : List Byte → σ → StatusCode × σ

namespace StreamTransceiver

variable {ρ ω : Type} (reader : StreamReader ρ) (writer : StreamWriter ω) (capacity : ℕ)

/-- the loop of `transceive`; `none` if the fuel runs out or the reader asserts -/
def loop : ℕ → ρ → ω → Option (StatusCode × ρ × ω)
  | 0, _, _ => none
  | fuel + 1, r, w => do
    let (code, data, r) ← reader.read capacity r
    let (code, w) := if code = .ok then writer.write data w else (code, w)
    if code ≠ .ok then
      if code = .noData then some (.ok, r, w) else some (code, r, w)
    else loop fuel r w

def transceive (fuel : ℕ) (r : ρ) (w : ω) : Option (StatusCode × ρ × ω) :=
  let (code, r) := reader.start r
  if code ≠ .ok then some (code, r, w)
  else
    let (code, w) := writer.start w
    if code ≠ .ok then some (code, r, w)
    else loop reader writer capacity fuel r w

/-- the destructor; the statuses are logged only -/
def destroy (r : ρ) (w : ω) : ρ × ω := ((reader.finish r).2, (writer.finish w).2)

end StreamTransceiver

/-! ## Files -/

/-- a file and the calls on it that succeed: opening it, its reads by number, closing it -/
structure File where
  content : List Byte
  openOk : Bool
  readOk : ℕ → Bool
  closeOk : Bool

/-- an open file: what has not been read, whether a read has met the end, and the number of reads -/
structure Handle where
  rest : List Byte
  eof : Bool
  reads : ℕ

namespace FileStreamReader

/-- the state is `file_` -/
def start (file : File) (h : Option Handle) : StatusCode × Option Handle :=
  let h := if h.isNone && file.openOk then some ⟨file.content, false, 0⟩ else h
  (if h.isSome then .ok else .error, h)

def finish (file : File) (h : Option Handle) : StatusCode × Option Handle :=
  (if h.isSome && !file.closeOk then .error else .ok, none)

/-- a read that fails comes back short with the error indicator set -/
def read (file : File) (size : ℕ) (h : Option Handle) : Option (StatusCode × List Byte × Option Handle) := do
  let f ← h
  if f.eof then some (.noData, [], some f)
  else if !file.readOk f.reads then some (.error, [], some { f with reads := f.reads + 1 })
  else some (.ok, f.rest.take size, some ⟨f.rest.drop size, decide (f.rest.length < size), f.reads + 1⟩)

end FileStreamReader

def fileStreamReader (file : File) : StreamReader (Option Handle) where
  start := FileStreamReader.start file
  finish := FileStreamReader.finish file
  read := FileStreamReader.read file

end ControlComponents.Core
