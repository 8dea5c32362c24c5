/-
`NvsStorage` (`ocs_storage/target_esp32/nvs_storage.cpp`) over the NVS driver: every operation opens a handle of its
namespace, makes its calls through it and closes it.

The driver is a parameter. `Nvs.Lawful` is what its documentation says of the calls that are made here: what an answer tells
of the contents of a namespace, what a call changes, and that a change which has been committed survives a power cut. Every
call may fail, and nothing is said of what a failed change leaves behind (`Nvs.Settled`: nothing).

The storages of the device are made by `StorageBuilder`, each with a namespace of its own.
-/
import ControlComponents.Storage
import ControlComponents.Lib.Calls

namespace ControlComponents.Storage

open ControlComponents.Lib.Calls

/-! ## The driver -/

/-- `nvs_open_mode_t` -/
inductive OpenMode where
  | readonly
  | readwrite
deriving DecidableEq

/-- `esp_err_t`, as far as it is told apart -/
inductive EspErr where
  | ok
  | notFound
  | readOnly
  | invalidHandle
  | invalidLength
  | other
deriving DecidableEq

/-- a call of the driver; `nvs_get_blob` without a buffer asks for the length, and `nvs_close` returns nothing -/
inductive NvsCall where
  | open_ (ns : String) (mode : OpenMode)
  | getBlob (handle : ℕ) (key : String) (size : Option ℕ)
  | setBlob (handle : ℕ) (key : String) (value : List Byte)
  | eraseKey (handle : ℕ) (key : String)
  | eraseAll (handle : ℕ)
  | commit (handle : ℕ)
  | close (handle : ℕ)

structure NvsAnswer where
  err : EspErr
  handle : ℕ := 0
  size : ℕ := 0
  value : List Byte := []

/-- what a call changes if it is answered with OK: the handle, and what becomes of its namespace -/
def NvsCall.change : NvsCall → Option (ℕ × (Store → Store))
  | .setBlob handle key value => some (handle, fun s => s.insert key value)
  | .eraseKey handle key => some (handle, fun s => s.erase key)
  | .eraseAll handle => some (handle, fun _ => ∅)
  | _ => none

/-- the driver, and what can be told of its states -/
structure Nvs (ν : Type) where
  call : NvsCall → ν → NvsAnswer × ν
  handles : ν → ℕ → Option (String × OpenMode)
  /-- the contents of the namespaces, as they are read -/
  view : ν → String → Store
  /-- the contents that are found after a power cut -/
  durable : ν → String → Store

/-- the open handles after a call -/
def Nvs.handlesAfter {ν : Type} (drv : Nvs ν) (n : ν) : NvsCall → ℕ → Option (String × OpenMode)
  | .open_ ns mode =>
    if (drv.call (.open_ ns mode) n).1.err = .ok then
      Function.update (drv.handles n) (drv.call (.open_ ns mode) n).1.handle (some (ns, mode))
    else drv.handles n
  | .close handle => Function.update (drv.handles n) handle none
  | _ => drv.handles n

/-- what is documented of the driver -/
structure Nvs.Lawful {ν : Type} (drv : Nvs ν) : Prop where
  /-- handles are opened and closed by the calls for it -/
  handled (c : NvsCall) (n : ν) : drv.handles (drv.call c n).2 = drv.handlesAfter n c
  fresh {ns : String} {mode : OpenMode} {n : ν} (h : (drv.call (.open_ ns mode) n).1.err = .ok) :
    drv.handles n (drv.call (.open_ ns mode) n).1.handle = none
  /-- a namespace that is not found for reading has nothing in it -/
  absent {ns : String} {n : ν} (h : (drv.call (.open_ ns .readonly) n).1.err = .notFound) : drv.view n ns = ∅
  /-- a value is read with its length; without a buffer, its length -/
  got {handle : ℕ} {key : String} {size : Option ℕ} {n : ν} {ns : String} {mode : OpenMode}
    (hopen : drv.handles n handle = some (ns, mode)) (h : (drv.call (.getBlob handle key size) n).1.err = .ok) :
    ∃ v, (drv.view n ns).lookup key = some v ∧ (drv.call (.getBlob handle key size) n).1.size = v.length ∧
      (drv.call (.getBlob handle key size) n).1.value = (if size.isSome then v else []) ∧ ∀ k ∈ size, v.length ≤ k
  missing {handle : ℕ} {key : String} {size : Option ℕ} {n : ν} {ns : String} {mode : OpenMode}
    (hopen : drv.handles n handle = some (ns, mode)) (h : (drv.call (.getBlob handle key size) n).1.err = .notFound) :
    (drv.view n ns).lookup key = none
  tooLong {handle : ℕ} {key : String} {size : ℕ} {n : ν} {ns : String} {mode : OpenMode}
    (hopen : drv.handles n handle = some (ns, mode))
    (h : (drv.call (.getBlob handle key (some size)) n).1.err = .invalidLength) :
    ∃ v, (drv.view n ns).lookup key = some v ∧ size < v.length
  /-- a key that is erased was there, and one that is not found was not -/
  erased {handle : ℕ} {n : ν} {ns : String} (key : String) (hopen : drv.handles n handle = some (ns, .readwrite)) :
    ((drv.call (.eraseKey handle key) n).1.err = .ok → key ∈ drv.view n ns) ∧
      ((drv.call (.eraseKey handle key) n).1.err = .notFound → key ∉ drv.view n ns)
  /-- the other calls change nothing -/
  kept {c : NvsCall} (hc : c.change = none) (n : ν) : drv.view (drv.call c n).2 = drv.view n
  /-- a change concerns the namespace of its handle, and is made if it is answered with OK -/
  confined {c : NvsCall} {handle : ℕ} {f : Store → Store} (hc : c.change = some (handle, f)) {n : ν} {ns : String}
    {mode : OpenMode} (hopen : drv.handles n handle = some (ns, mode)) {ns' : String} (hne : ns' ≠ ns) :
    drv.view (drv.call c n).2 ns' = drv.view n ns'
  changed {c : NvsCall} {handle : ℕ} {f : Store → Store} (hc : c.change = some (handle, f)) {n : ν} {ns : String}
    (hopen : drv.handles n handle = some (ns, .readwrite)) (h : (drv.call c n).1.err = .ok) :
    drv.view (drv.call c n).2 ns = f (drv.view n ns)
  /-- a key has its old value or its new one when the power is cut after a call -/
  flushed (c : NvsCall) (n : ν) (ns key : String) :
    (drv.durable (drv.call c n).2 ns).lookup key = (drv.durable n ns).lookup key ∨
      (drv.durable (drv.call c n).2 ns).lookup key = (drv.view (drv.call c n).2 ns).lookup key
  committed {handle : ℕ} {n : ν} {ns : String} {mode : OpenMode} (hopen : drv.handles n handle = some (ns, mode))
    (h : (drv.call (.commit handle) n).1.err = .ok) : drv.durable (drv.call (.commit handle) n).2 ns = drv.view n ns

/-- a call leaves no change behind with an error: a change that is not answered with OK has changed nothing, and a commit has
not failed -/
def Nvs.Settled {ν : Type} (drv : Nvs ν) (x : NvsCall × ν) : Prop :=
  (x.1.change.isSome = true → (drv.call x.1 x.2).1.err ≠ .ok → drv.view (drv.call x.1 x.2).2 = drv.view x.2) ∧
    ∀ handle, x.1 = .commit handle → (drv.call x.1 x.2).1.err = .ok

/-! ## Operations -/

abbrev NvsProg := Prog NvsCall NvsAnswer

/-- `NVS_KEY_NAME_MAX_SIZE - 1` -/
def maxNamespaceLen : ℕ := 15

structure NvsStorage where
  ns : String
  /-- asserted by the constructor -/
  fits : ns.utf8ByteSize ≤ maxNamespaceLen
deriving DecidableEq

def NvsStorage.open_ (s : NvsStorage) (mode : OpenMode) : NvsProg (ℕ × StatusCode) := do
  let a ← perform (.open_ s.ns mode)
  if a.err = .notFound then return (0, .noData)
  if a.err ≠ .ok then return (0, .error)
  return (a.handle, .ok)

/-- the value read and its size, with the status -/
def NvsStorage.read_ (handle : ℕ) (key : String) (size : Option ℕ) : NvsProg (StatusCode × ℕ × List Byte) := do
  let a ← perform (.getBlob handle key size)
  if a.err = .notFound then return (.noData, 0, [])
  if a.err ≠ .ok then return (.error, 0, [])
  return (.ok, a.size, a.value)

def NvsStorage.write_ (handle : ℕ) (key : String) (value : List Byte) : NvsProg StatusCode := do
  let a ← perform (.setBlob handle key value)
  if a.err ≠ .ok then return .error
  let a ← perform (.commit handle)
  if a.err ≠ .ok then return .error
  return .ok

def NvsStorage.erase_ (handle : ℕ) (key : String) : NvsProg StatusCode := do
  let a ← perform (.eraseKey handle key)
  if a.err = .notFound then return .noData
  if a.err ≠ .ok then return .error
  let a ← perform (.commit handle)
  if a.err ≠ .ok then return .error
  return .ok

def NvsStorage.eraseAll_ (handle : ℕ) : NvsProg StatusCode := do
  let a ← perform (.eraseAll handle)
  if a.err = .notFound then return .noData
  if a.err ≠ .ok then return .error
  let a ← perform (.commit handle)
  if a.err ≠ .ok then return .error
  return .ok

/-- `auto [handle, code] = open_(mode); if (code == OK) { ...; nvs_close(handle); }` -/
def NvsStorage.withHandle {α : Type} (s : NvsStorage) (mode : OpenMode) (failed : StatusCode → α)
    (body : ℕ → NvsProg α) : NvsProg α := do
  let (handle, code) ← s.open_ mode
  if code = .ok then
    let r ← body handle
    let _ ← perform (.close handle)
    return r
  return failed code

def NvsStorage.probe (s : NvsStorage) (key : String) : NvsProg (StatusCode × ℕ × List Byte) :=
  s.withHandle .readonly (⟨·, 0, []⟩) fun handle => read_ handle key none

def NvsStorage.read (s : NvsStorage) (key : String) (size : ℕ) : NvsProg (StatusCode × ℕ × List Byte) :=
  s.withHandle .readonly (⟨·, 0, []⟩) fun handle => read_ handle key (some size)

def NvsStorage.write (s : NvsStorage) (key : String) (value : List Byte) : NvsProg StatusCode :=
  s.withHandle .readwrite id fun handle => write_ handle key value

def NvsStorage.erase (s : NvsStorage) (key : String) : NvsProg StatusCode :=
  s.withHandle .readwrite id fun handle => erase_ handle key

def NvsStorage.eraseAll (s : NvsStorage) : NvsProg StatusCode := s.withHandle .readwrite id eraseAll_

/-- an operation of `IStorage` -/
inductive Op where
  | probe (key : String)
  | read (key : String) (size : ℕ)
  | write (key : String) (value : List Byte)
  | erase (key : String)
  | eraseAll

/-- what an operation returns: a status, with the size and the value where there is one -/
abbrev OpResult := StatusCode × ℕ × List Byte

def NvsStorage.prog (s : NvsStorage) : Op → NvsProg OpResult
  | .probe key => s.probe key
  | .read key size => s.read key size
  | .write key value => do return (← s.write key value, 0, [])
  | .erase key => do return (← s.erase key, 0, [])
  | .eraseAll => do return (← s.eraseAll, 0, [])

/-- the operation on a store -/
def Op.apply (f : Faults) (s : Store) : Op → OpResult × Store
  | .probe key =>
    match Storage.probe f s key with
    | .error code => ((code, 0, []), s)
    | .ok size => ((.ok, size, []), s)
  | .read key size =>
    match Storage.read f s key size with
    | .error code => ((code, 0, []), s)
    | .ok v => ((.ok, v.length, v), s)
  | .write key value => let (code, t) := Storage.write f s key value; ((code, 0, []), t)
  | .erase key => let (code, t) := Storage.erase f s key; ((code, 0, []), t)
  | .eraseAll => let (code, t) := Storage.eraseAll f s; ((code, 0, []), t)

/-! ## Builder -/

structure StorageBuilder where
  ids : Finset String

/-- `StorageBuilder::make`: an identifier is used once -/
def StorageBuilder.make (b : StorageBuilder) (id : {id : String // id.utf8ByteSize ≤ maxNamespaceLen}) :
    Option NvsStorage × StorageBuilder :=
  if id.1 ∈ b.ids then (none, b) else (some ⟨id.1, id.2⟩, ⟨insert id.1 b.ids⟩)

/-- the storages that are made for a list of identifiers -/
def StorageBuilder.makeAll (b : StorageBuilder) :
    List {id : String // id.utf8ByteSize ≤ maxNamespaceLen} → List NvsStorage
  | [] => []
  | id :: ids => (b.make id).1.toList ++ (b.make id).2.makeAll ids

end ControlComponents.Storage
