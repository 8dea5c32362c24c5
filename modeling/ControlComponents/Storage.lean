/-
Persistent key-value storage: `storage::IStorage` as `NvsStorage` implements it, and `algo::StorageOps::prob_read`.

A store maps keys to byte strings. Every call may fail (`Faults`); a failed call reports its status and leaves the store
as it was, so a single-key write is atomic. `NvsStorage` passes on what `nvs_erase_all` answers where nothing is stored, so
this answer is up to the driver. Values are the memory images the callers pass: integers little-endian,
strings without the terminating NUL. They are never empty, which the implementation asserts.
-/
import ControlComponents.Basic
import ControlComponents.Lib.LittleEndian
import ControlComponents.Lib.KeyedWrites

namespace ControlComponents.Storage

open ControlComponents.Lib.LittleEndian ControlComponents.Lib.KeyedWrites

/-- contents of one storage namespace -/
abbrev Store := Map String (List Byte)

/-- which storage calls fail, by key; `eraseAll` has no key -/
structure Faults where
  probe : String → Option Fault
  read : String → Option Fault
  write : String → Option Fault
  erase : String → Option Fault
  eraseAll : Option Fault
  /-- whether erasing everything where nothing is stored is answered with `NoData` -/
  emptyNoData : Bool

/-- no storage failure, and an erase is fine with nothing to erase -/
def Faults.none : Faults := ⟨fun _ => .none, fun _ => .none, fun _ => .none, fun _ => .none, .none, false⟩

def probe (f : Faults) (s : Store) (key : String) : Except StatusCode ℕ :=
  match f.probe key with
  | some e => .error e.code
  | none =>
    match s.lookup key with
    | none => .error .noData
    | some v => .ok v.length

/-- the bytes copied to a buffer of `size` bytes; a longer value is refused (`nvs_get_blob`) -/
def read (f : Faults) (s : Store) (key : String) (size : ℕ) : Except StatusCode (List Byte) :=
  match f.read key with
  | some e => .error e.code
  | none =>
    match s.lookup key with
    | none => .error .noData
    | some v => if size < v.length then .error .error else .ok v

def write (f : Faults) (s : Store) (key : String) (value : List Byte) : StatusCode × Store :=
  match f.write key with
  | some e => (e.code, s)
  | none => (.ok, s.insert key value)

def erase (f : Faults) (s : Store) (key : String) : StatusCode × Store :=
  match f.erase key with
  | some e => (e.code, s)
  | none => if key ∈ s then (.ok, s.erase key) else (.noData, s)

def eraseAll (f : Faults) (s : Store) : StatusCode × Store :=
  match f.eraseAll with
  | some e => (e.code, s)
  | none => if s = ∅ ∧ f.emptyNoData = true then (.noData, s) else (.ok, ∅)

/-- `if (changed) { write; on error return its status; modified = true; }` for each block in order, then OK or
NotModified -/
def saveBlocks (f : Faults) (s : Store) (bs : List (Block String (List Byte))) : StatusCode × Store :=
  match putAll f.write (writesOf bs) s with
  | (some e, t) => (e.code, t)
  | (none, t) => (if bs.any Block.changed then .ok else .notModified, t)

/-- `StorageOps::prob_read`: the value under `key`, at most `size` bytes of it -/
def probRead (f : Faults) (s : Store) (key : String) (size : ℕ) : Except StatusCode (List Byte) :=
  match probe f s key with
  | .error code => .error code
  | .ok recvSize => if size < recvSize then .error .invalidArg else read f s key recvSize

/-- an integer variable of `n` bytes after `prob_read` into it: the default where the read fails -/
def probReadInt {w : ℕ} (f : Faults) (s : Store) (key : String) (n : ℕ) (init default : BitVec w) : BitVec w :=
  match probRead f s key n with
  | .error _ => default
  | .ok bs => overlay n init bs

/-! ## Reads -/

/-- a read reports a failure, or it has found the value under its key -/
theorem read_cases (f : Faults) (s : Store) (key : String) (size : ℕ) :
    (∃ code, code ≠ .ok ∧ read f s key size = .error code) ∨
      (∃ v, s.lookup key = some v ∧ read f s key size = .ok v) := by
  unfold read
  cases f.read key with
  | some e => exact Or.inl ⟨e.code, e.failed, rfl⟩
  | none =>
    cases s.lookup key with
    | none => exact Or.inl ⟨.noData, by decide, rfl⟩
    | some v =>
      simp only
      split_ifs
      · exact Or.inl ⟨.error, by decide, rfl⟩
      · exact Or.inr ⟨v, rfl, rfl⟩

/-- an integer variable after a read into it while it is zero holds the number that is stored -/
theorem map_ofLe_of_read {w n : ℕ} (hw : w = 8 * n) {f : Faults} {s : Store} {key : String} {bs : List Byte}
    (h : read f s key n = .ok bs) : (s.lookup key).map ofLe = some (overlay n (0 : BitVec w) bs).toNat := by
  unfold read at h
  cases hf : f.read key with
  | some e => simp [hf] at h
  | none =>
    cases hl : s.lookup key with
    | none => simp [hf, hl] at h
    | some v =>
      by_cases hlen : n < v.length
      · simp [hf, hl, hlen] at h
      · simp only [hf, hl, hlen, if_false, Except.ok.injEq] at h
        subst h
        exact congrArg some (toNat_overlay_zero n hw v (Nat.not_lt.1 hlen)).symm

theorem probRead_none (s : Store) (key : String) (size : ℕ) :
    probRead .none s key size =
      match s.lookup key with
      | none => .error .noData
      | some v => if size < v.length then .error .invalidArg else .ok v := by
  simp only [probRead, probe, read, Faults.none]
  cases s.lookup key with
  | none => rfl
  | some v => simp

/-- a read depends on the value under its key only -/
theorem probRead_congr {s t : Store} {key : String} (f : Faults) (size : ℕ) (h : s.lookup key = t.lookup key) :
    probRead f s key size = probRead f t key size := by
  simp only [probRead, probe, read, h]

theorem probReadInt_congr {w : ℕ} {s t : Store} {key : String} (f : Faults) (n : ℕ) (init default : BitVec w)
    (h : s.lookup key = t.lookup key) : probReadInt f s key n init default = probReadInt f t key n init default := by
  simp only [probReadInt, probRead_congr f n h]

theorem probRead_of_lookup {s : Store} {key : String} {v : List Byte} {size : ℕ} (h : s.lookup key = some v)
    (hv : v.length ≤ size) : probRead .none s key size = .ok v := by
  simp [probRead_none, h, Nat.not_lt.2 hv]

/-- an integer stored whole is read back -/
theorem probReadInt_of_lookup {w : ℕ} {s : Store} {key : String} (n : ℕ) (hw : w = 8 * n) (init default v : BitVec w)
    (h : s.lookup key = some (toLe n v.toNat)) : probReadInt .none s key n init default = v := by
  simp only [probReadInt, probRead_of_lookup h (length_toLe n _).le, overlay_toLe n hw]

/-! ## Writes -/

/-- an erase of everything that does not fail leaves nothing, whatever it answers -/
theorem eraseAll_store {f : Faults} (h : f.eraseAll = none) (s : Store) : (eraseAll f s).2 = ∅ := by
  simp only [eraseAll, h]
  split_ifs with hempty
  · exact hempty.1
  · rfl

/-- a failed write reports its fault and changes nothing; a write that reports anything but a fault went through -/
theorem write_cases (f : Faults) (s : Store) (key : String) (value : List Byte) :
    (∃ e, f.write key = some e ∧ write f s key value = (e.code, s)) ∨
      (f.write key = none ∧ write f s key value = (.ok, s.insert key value)) := by
  unfold write
  cases f.write key with
  | some e => exact Or.inl ⟨e, rfl, rfl⟩
  | none => exact Or.inr ⟨rfl, rfl⟩

/-- what saving a record block by block can do: stop in a changed block whose write fails, with the blocks before it
saved, or save them all and tell whether there was anything to save -/
theorem saveBlocks_cases (f : Faults) (s : Store) (bs : List (Block String (List Byte))) :
    (∃ n b e, bs[n]? = some b ∧ b.changed = true ∧ f.write b.key = some e ∧
      saveBlocks f s bs = (e.code, insertAll s (writesOf (bs.take n)))) ∨
    ((∀ b ∈ bs, b.changed = true → f.write b.key = none) ∧
      saveBlocks f s bs = (if bs.any Block.changed then .ok else .notModified, insertAll s (writesOf bs))) := by
  cases h : (putAll f.write (writesOf bs) s).1 with
  | some e =>
    obtain ⟨done, b, rest, rfl, hc, he, -, heq⟩ := putAll_writesOf_split f.write bs s e h
    have hpair : putAll f.write (writesOf (done ++ b :: rest)) s = (some e, insertAll s (writesOf done)) :=
      Prod.ext h heq
    exact Or.inl ⟨done.length, b, e, by simp, hc, he, by simp [saveBlocks, hpair]⟩
  | none =>
    have hok := (putAll_ok_iff f.write (writesOf bs) s).1 h
    refine Or.inr ⟨fun b hb hc => hok (b.key, b.value) (mem_writesOf.2 ⟨b, hb, hc, rfl⟩), ?_⟩
    simp only [saveBlocks, putAll_of_ok f.write (writesOf bs) s hok]

/-- the status of a save: that of the first write that fails, or whether there was anything to write -/
theorem saveBlocks_code (f : Faults) (s : Store) (bs : List (Block String (List Byte))) :
    (saveBlocks f s bs).1 = ((writesOf bs).findSome? fun p => f.write p.1).elim
      (if bs.any Block.changed then .ok else .notModified) Fault.code := by
  rw [← putAll_fst f.write (writesOf bs) s]
  unfold saveBlocks
  obtain ⟨_ | e, t⟩ := putAll f.write (writesOf bs) s <;> rfl

/-- a failing save names the block whose write failed -/
theorem saveBlocks_failed {f : Faults} {s : Store} {bs : List (Block String (List Byte))}
    (h : (saveBlocks f s bs).1.IsError) :
    ∃ n b e, bs[n]? = some b ∧ b.changed = true ∧ f.write b.key = some e ∧
      saveBlocks f s bs = (e.code, insertAll s (writesOf (bs.take n))) := by
  rcases saveBlocks_cases f s bs with hfail | ⟨-, hok⟩
  · exact hfail
  · rw [hok] at h
    exfalso
    simp only [StatusCode.IsError] at h
    split_ifs at h
    · exact h.1 rfl
    · exact h.2 rfl

/-- without storage failures everything is saved -/
theorem saveBlocks_none (s : Store) (bs : List (Block String (List Byte))) :
    saveBlocks .none s bs = (if bs.any Block.changed then .ok else .notModified, insertAll s (writesOf bs)) := by
  rcases saveBlocks_cases .none s bs with ⟨n, b, e, -, -, he, -⟩ | ⟨-, hok⟩
  · cases he
  · exact hok

end ControlComponents.Storage
