/-
Analog sensor configuration (`ocs_sensor/analog_config.cpp`): minimum, maximum and oversampling mode, each kept in
memory and under a key of its own in the storage.

`configure` goes through the three fields in a fixed order. A field that differs from its argument is written to the
storage first and to the memory after, and a failed write ends the call, so a failed update leaves the fields before it
changed and the ones from it on untouched. `reset` erases the storage and takes the defaults whatever the erase reports.

- `configure_cases`: everything one `configure` call can do.
- `failed_update`: what an update that reports an error leaves behind, in memory and after a reload.
- `updates_not_atomic`: such an update is not all-or-nothing, neither by `configure` nor by `reset`.
-/
import ControlComponents.Storage

namespace ControlComponents.Sensor

open ControlComponents.Storage ControlComponents.Lib.LittleEndian

/-! ## Model -/

/-- number of times a value is measured before it is available to be read -/
inductive OversamplingMode where
  | none
  | mode1
  | mode8
  | mode16
  | mode32
  | mode64
  | last
deriving DecidableEq, Repr

/-- the underlying `uint8_t` of an enumerator -/
def OversamplingMode.toByte : OversamplingMode → Byte
  | .none => 0
  | .mode1 => 1
  | .mode8 => 2
  | .mode16 => 3
  | .mode32 => 4
  | .mode64 => 5
  | .last => 6

/-- `static_cast<OversamplingMode>(mode)`; used only after `validateOversamplingMode` -/
def OversamplingMode.ofByte (mode : Byte) : OversamplingMode :=
  match mode.toNat with
  | 1 => .mode1
  | 2 => .mode8
  | 3 => .mode16
  | 4 => .mode32
  | 5 => .mode64
  | _ => .none

def validateOversamplingMode (mode : Byte) : Bool :=
  !(decide (mode ≤ OversamplingMode.none.toByte) || decide (mode ≥ OversamplingMode.last.toByte))

def parseOversamplingMode (count : Byte) : OversamplingMode :=
  match count.toNat with
  | 1 => .mode1
  | 8 => .mode8
  | 16 => .mode16
  | 32 => .mode32
  | 64 => .mode64
  | _ => .none

def validate (min max : BitVec 16) (sampleCount : Byte) (bitwidth : ℕ) : Bool :=
  if min ≥ max then false
  else if parseOversamplingMode sampleCount = .none then false
  else if bitwidth = 0 then false
  else true

/-- the constructor's arguments, constant for the life of the object -/
structure AnalogParams where
  id : String
  defMin : BitVec 16
  defMax : BitVec 16
  defBitwidth : ℕ
  defOversamplingMode : OversamplingMode
deriving DecidableEq

structure AnalogConfig where
  params : AnalogParams
  min : BitVec 16
  max : BitVec 16
  oversamplingMode : OversamplingMode
deriving DecidableEq

namespace AnalogParams

def minKey (p : AnalogParams) : String := p.id ++ "_min"
def maxKey (p : AnalogParams) : String := p.id ++ "_max"
def oversamplingModeKey (p : AnalogParams) : String := p.id ++ "_ovsm"

@[simp] theorem minKey_ne_maxKey (p : AnalogParams) : p.minKey ≠ p.maxKey := by
  simp [minKey, maxKey]

@[simp] theorem minKey_ne_modeKey (p : AnalogParams) : p.minKey ≠ p.oversamplingModeKey := by
  simp [minKey, oversamplingModeKey]

@[simp] theorem maxKey_ne_modeKey (p : AnalogParams) : p.maxKey ≠ p.oversamplingModeKey := by
  simp [maxKey, oversamplingModeKey]

end AnalogParams

namespace AnalogConfig

/-- the constructor's decoding of the stored oversampling byte -/
def readMode (p : AnalogParams) (f : Faults) (s : Store) : OversamplingMode :=
  match probRead f s p.oversamplingModeKey 1 with
  | .error _ => p.defOversamplingMode
  | .ok bs =>
    let mode : Byte := overlay 1 0 bs
    if validateOversamplingMode mode then .ofByte mode else p.defOversamplingMode

/-- the constructor -/
def init (p : AnalogParams) (f : Faults) (s : Store) : AnalogConfig where
  params := p
  min := probReadInt f s p.minKey 2 0 p.defMin
  max := probReadInt f s p.maxKey 2 0 p.defMax
  oversamplingMode := readMode p f s

def getBitwidth (c : AnalogConfig) : ℕ := c.params.defBitwidth

def getSampleCount (c : AnalogConfig) : Byte :=
  match c.oversamplingMode with
  | .none => 0
  | .last => 0
  | .mode1 => 1
  | .mode8 => 8
  | .mode16 => 16
  | .mode32 => 32
  | .mode64 => 64

def valid (c : AnalogConfig) : Bool := validate c.min c.max c.getSampleCount c.getBitwidth

/-- one block of `configure`: an unchanged field is skipped, a changed one is written and then taken over -/
def commit {α : Type} [DecidableEq α] (f : Faults) (s : Store) (key : String) (image : α → List Byte) (old new : α) :
    StatusCode × α × Store :=
  if old ≠ new then
    match write f s key (image new) with
    | (.ok, s) => (.ok, new, s)
    | (code, s) => (code, old, s)
  else (.ok, old, s)

def imageU16 (v : BitVec 16) : List Byte := toLe 2 v.toNat
def imageMode (m : OversamplingMode) : List Byte := toLe 1 m.toByte.toNat

def configure (c : AnalogConfig) (f : Faults) (s : Store) (min max : BitVec 16) (sampleCount : Byte) :
    StatusCode × AnalogConfig × Store :=
  if !validate min max sampleCount c.getBitwidth then (.invalidArg, c, s)
  else
    let (code, newMin, s) := commit f s c.params.minKey imageU16 c.min min
    if code ≠ .ok then (code, c, s)
    else
      let (code, newMax, s) := commit f s c.params.maxKey imageU16 c.max max
      if code ≠ .ok then (code, { c with min := newMin }, s)
      else
        let mode := parseOversamplingMode sampleCount
        let (code, newMode, s) := commit f s c.params.oversamplingModeKey imageMode c.oversamplingMode mode
        if code ≠ .ok then (code, { c with min := newMin, max := newMax }, s)
        else
          let modified := decide (c.min ≠ min) || decide (c.max ≠ max) || decide (c.oversamplingMode ≠ mode)
          (if modified then .ok else .notModified,
            { c with min := newMin, max := newMax, oversamplingMode := newMode }, s)

def reset (c : AnalogConfig) (f : Faults) (s : Store) : StatusCode × AnalogConfig × Store :=
  let (code, s) := eraseAll f s
  let code := if code = .noData then .notModified else code
  (code, { c with
    min := c.params.defMin, max := c.params.defMax, oversamplingMode := c.params.defOversamplingMode }, s)

/-- what the rest of the firmware reads from a configuration -/
def values (c : AnalogConfig) : BitVec 16 × BitVec 16 × Byte := (c.min, c.max, c.getSampleCount)

/-- a new object over the same storage, with the same defaults and id -/
def reload (c : AnalogConfig) (s : Store) : AnalogConfig := init c.params .none s

/-! ## One block, one call -/

/-- the store after a block that did not fail -/
def committed {α : Type} [DecidableEq α] (s : Store) (key : String) (image : α → List Byte) (old new : α) : Store :=
  if old = new then s else s.insert key (image new)

/-- a block either fails with its fault, changing nothing, or the field holds the argument -/
theorem commit_spec {α : Type} [DecidableEq α] (f : Faults) (s : Store) (key : String) (image : α → List Byte)
    (old new : α) :
    ((old = new ∨ f.write key = none) ∧
      commit f s key image old new = (.ok, new, committed s key image old new)) ∨
    (old ≠ new ∧ ∃ e, f.write key = some e ∧ commit f s key image old new = (e.code, old, s)) := by
  by_cases h : old = new
  · exact Or.inl ⟨Or.inl h, by simp [commit, committed, h]⟩
  · rcases write_cases f s key (image new) with ⟨e, he, hw⟩ | ⟨he, hw⟩
    · refine Or.inr ⟨h, e, he, ?_⟩
      obtain ⟨code, failed⟩ := e
      simp only [commit, ne_eq, h, not_false_eq_true, ite_true, hw]
    · exact Or.inl ⟨Or.inr he, by simp [commit, committed, h, hw]⟩

/-- everything a `configure` call can do: reject the arguments, stop at the first, second or third block, or take over
all three fields -/
theorem configure_cases (c : AnalogConfig) (f : Faults) (s : Store) (min max : BitVec 16) (n : Byte) :
    let s1 := committed s c.params.minKey imageU16 c.min min
    let s2 := committed s1 c.params.maxKey imageU16 c.max max
    let s3 := committed s2 c.params.oversamplingModeKey imageMode c.oversamplingMode (parseOversamplingMode n)
    let okMin := c.min = min ∨ f.write c.params.minKey = none
    let okMax := c.max = max ∨ f.write c.params.maxKey = none
    (validate min max n c.getBitwidth = false ∧ configure c f s min max n = (.invalidArg, c, s)) ∨
    (c.min ≠ min ∧ ∃ e, f.write c.params.minKey = some e ∧ configure c f s min max n = (e.code, c, s)) ∨
    (okMin ∧ c.max ≠ max ∧ ∃ e, f.write c.params.maxKey = some e ∧
      configure c f s min max n = (e.code, { c with min := min }, s1)) ∨
    (okMin ∧ okMax ∧ c.oversamplingMode ≠ parseOversamplingMode n ∧ ∃ e, f.write c.params.oversamplingModeKey = some e ∧
      configure c f s min max n = (e.code, { c with min := min, max := max }, s2)) ∨
    ∃ code, (code = .ok ∨ code = .notModified) ∧ configure c f s min max n =
      (code, { c with min := min, max := max, oversamplingMode := parseOversamplingMode n }, s3) := by
  intro s1 s2 s3 okMin okMax
  cases hv : validate min max n c.getBitwidth with
  | false => exact Or.inl ⟨rfl, by simp [configure, hv]⟩
  | true =>
    right
    rcases commit_spec f s c.params.minKey imageU16 c.min min with ⟨hmin, h1⟩ | ⟨hne, e, he, h1⟩
    · right
      rcases commit_spec f s1 c.params.maxKey imageU16 c.max max with ⟨hmax, h2⟩ | ⟨hne, e, he, h2⟩
      · right
        rcases commit_spec f s2 c.params.oversamplingModeKey imageMode c.oversamplingMode (parseOversamplingMode n) with
          ⟨-, h3⟩ | ⟨hne, e, he, h3⟩
        · refine Or.inr ⟨_, ?_, by simp only [configure, hv, h1, h2, h3, s1, s2]; rfl⟩
          split <;> simp
        · exact Or.inl ⟨hmin, hmax, hne, e, he, by simp [configure, hv, h1, h2, h3, s1, s2, e.failed]⟩
      · exact Or.inl ⟨hmin, hne, e, he, by simp [configure, hv, h1, h2, s1, e.failed]⟩
    · exact Or.inl ⟨hne, e, he, by simp [configure, hv, h1, e.failed]⟩

/-! ## What a reload sees -/

theorem reload_insert_min (c : AnalogConfig) (s : Store) (v : BitVec 16) :
    reload c (s.insert c.params.minKey (imageU16 v)) = { reload c s with min := v } := by
  have hmin : probReadInt .none (s.insert c.params.minKey (imageU16 v)) c.params.minKey 2 0 c.params.defMin = v :=
    probReadInt_of_lookup 2 rfl 0 c.params.defMin v (Finmap.lookup_insert s)
  have hmax : (s.insert c.params.minKey (imageU16 v)).lookup c.params.maxKey = s.lookup c.params.maxKey :=
    Finmap.lookup_insert_of_ne _ c.params.minKey_ne_maxKey.symm
  have hmode : (s.insert c.params.minKey (imageU16 v)).lookup c.params.oversamplingModeKey =
      s.lookup c.params.oversamplingModeKey := Finmap.lookup_insert_of_ne _ c.params.minKey_ne_modeKey.symm
  simp only [reload, init, readMode, hmin, probReadInt_congr _ 2 0 _ hmax, probRead_congr _ 1 hmode]

theorem reload_insert_max (c : AnalogConfig) (s : Store) (v : BitVec 16) :
    reload c (s.insert c.params.maxKey (imageU16 v)) = { reload c s with max := v } := by
  have hmax : probReadInt .none (s.insert c.params.maxKey (imageU16 v)) c.params.maxKey 2 0 c.params.defMax = v :=
    probReadInt_of_lookup 2 rfl 0 c.params.defMax v (Finmap.lookup_insert s)
  have hmin : (s.insert c.params.maxKey (imageU16 v)).lookup c.params.minKey = s.lookup c.params.minKey :=
    Finmap.lookup_insert_of_ne _ c.params.minKey_ne_maxKey
  have hmode : (s.insert c.params.maxKey (imageU16 v)).lookup c.params.oversamplingModeKey =
      s.lookup c.params.oversamplingModeKey := Finmap.lookup_insert_of_ne _ c.params.maxKey_ne_modeKey.symm
  simp only [reload, init, readMode, hmax, probReadInt_congr _ 2 0 _ hmin, probRead_congr _ 1 hmode]

/-- a block that got through leaves a reload with the argument, or with what it saw before if the field was skipped -/
theorem reload_committed_min (c : AnalogConfig) (s : Store) (min : BitVec 16) :
    reload c (committed s c.params.minKey imageU16 c.min min) =
      { reload c s with min := if c.min = min then (reload c s).min else min } := by
  unfold committed
  split_ifs
  · rfl
  · exact reload_insert_min c s min

theorem reload_committed_max (c : AnalogConfig) (s : Store) (max : BitVec 16) :
    reload c (committed s c.params.maxKey imageU16 c.max max) =
      { reload c s with max := if c.max = max then (reload c s).max else max } := by
  unfold committed
  split_ifs
  · rfl
  · exact reload_insert_max c s max

/-! ## Failed updates -/

/-- the same values as before, in memory and after a reload -/
def Unchanged (c : AnalogConfig) (s : Store) (c' : AnalogConfig) (s' : Store) : Prop :=
  c'.values = c.values ∧ (reload c s').values = (reload c s).values

instance (c : AnalogConfig) (s : Store) (c' : AnalogConfig) (s' : Store) : Decidable (Unchanged c s c' s') := by
  unfold Unchanged; infer_instance

/-- one field is left alone, in memory and after a reload -/
def Kept {α : Type} (field : AnalogConfig → α) (c : AnalogConfig) (s : Store) (c' : AnalogConfig) (s' : Store) : Prop :=
  field c' = field c ∧ field (reload c s') = field (reload c s)

/-- one field is taken over: it is the argument already and left alone, or its write gets through and it holds the argument,
in memory and after a reload -/
def Taken {α : Type} (field : AnalogConfig → α) (arg : α) (fault : Option Fault) (c : AnalogConfig) (s : Store)
    (c' : AnalogConfig) (s' : Store) : Prop :=
  (field c = arg ∧ Kept field c s c' s') ∨
    (field c ≠ arg ∧ fault = none ∧ field c' = arg ∧ field (reload c s') = arg)

/-- where a failed `configure` stops: at the arguments or the write of the minimum, at the write of the maximum with the
minimum taken over, or at that of the oversampling mode with both taken over. All fields from there on are left alone -/
def Stopped (f : Faults) (min max : BitVec 16) (n : Byte) (c : AnalogConfig) (s : Store) (c' : AnalogConfig)
    (s' : Store) : Prop :=
  Kept AnalogConfig.getSampleCount c s c' s' ∧
    ((validate min max n c.getBitwidth = false ∨ (c.min ≠ min ∧ f.write c.params.minKey ≠ none)) ∧
        Kept AnalogConfig.min c s c' s' ∧ Kept AnalogConfig.max c s c' s' ∨
      Taken AnalogConfig.min min (f.write c.params.minKey) c s c' s' ∧
        (c.max ≠ max ∧ f.write c.params.maxKey ≠ none) ∧ Kept AnalogConfig.max c s c' s' ∨
      Taken AnalogConfig.min min (f.write c.params.minKey) c s c' s' ∧
        Taken AnalogConfig.max max (f.write c.params.maxKey) c s c' s' ∧
        c.oversamplingMode ≠ parseOversamplingMode n ∧ f.write c.params.oversamplingModeKey ≠ none)

/-- the minimum when its block got through -/
theorem taken_min {c : AnalogConfig} {f : Faults} {min : BitVec 16}
    (hmin : c.min = min ∨ f.write c.params.minKey = none) {s : Store} {c' : AnalogConfig} {s' : Store} (hc : c'.min = min)
    (hs : (reload c s').min = if c.min = min then (reload c s).min else min) :
    Taken AnalogConfig.min min (f.write c.params.minKey) c s c' s' := by
  by_cases heq : c.min = min
  · exact Or.inl ⟨heq, hc.trans heq.symm, by rw [hs, if_pos heq]⟩
  · exact Or.inr ⟨heq, hmin.resolve_left heq, hc, by rw [hs, if_neg heq]⟩

/-- the maximum when its block got through -/
theorem taken_max {c : AnalogConfig} {f : Faults} {max : BitVec 16}
    (hmax : c.max = max ∨ f.write c.params.maxKey = none) {s : Store} {c' : AnalogConfig} {s' : Store} (hc : c'.max = max)
    (hs : (reload c s').max = if c.max = max then (reload c s).max else max) :
    Taken AnalogConfig.max max (f.write c.params.maxKey) c s c' s' := by
  by_cases heq : c.max = max
  · exact Or.inl ⟨heq, hc.trans heq.symm, by rw [hs, if_pos heq]⟩
  · exact Or.inr ⟨heq, hmax.resolve_left heq, hc, by rw [hs, if_neg heq]⟩

/-- **A failed `configure`** stops at one field: those before it are taken over, in memory and in the storage alike, and it
and those behind it are left alone. -/
theorem failed_configure (c : AnalogConfig) (f : Faults) (s : Store) (min max : BitVec 16) (n : Byte)
    (herr : (configure c f s min max n).1.IsError) :
    let (_, c', s') := configure c f s min max n
    Stopped f min max n c s c' s' := by
  rcases configure_cases c f s min max n with ⟨hrejected, h⟩ | ⟨hne, e, he, h⟩ | ⟨hmin, hne, e, he, h⟩ |
    ⟨hmin, hmax, hne, e, he, h⟩ | ⟨code, hcode, h⟩
  · rw [h]
    exact ⟨⟨rfl, rfl⟩, Or.inl ⟨Or.inl hrejected, ⟨rfl, rfl⟩, rfl, rfl⟩⟩
  · rw [h]
    exact ⟨⟨rfl, rfl⟩, Or.inl ⟨Or.inr ⟨hne, by simp [he]⟩, ⟨rfl, rfl⟩, rfl, rfl⟩⟩
  · rw [h]
    have hs1 := reload_committed_min c s min
    refine ⟨⟨rfl, by rw [hs1]; rfl⟩, Or.inr (Or.inl ⟨?_, ⟨hne, by simp [he]⟩, rfl, by rw [hs1]⟩)⟩
    exact taken_min hmin rfl (by rw [hs1])
  · rw [h]
    have hs1 := reload_committed_min c s min
    have hs2 := reload_committed_max c (committed s c.params.minKey imageU16 c.min min) max
    rw [hs1] at hs2
    refine ⟨⟨rfl, by rw [hs2]; rfl⟩, Or.inr (Or.inr ⟨?_, ?_, hne, by simp [he]⟩)⟩
    · exact taken_min hmin rfl (by rw [hs2])
    · exact taken_max hmax rfl (by rw [hs2])
  · rw [h] at herr
    rcases hcode with rfl | rfl
    · exact absurd rfl herr.1
    · exact absurd rfl herr.2

/-- a failed erase leaves the storage alone; the memory takes the defaults all the same -/
theorem failed_reset (c : AnalogConfig) (f : Faults) (s : Store) (herr : (reset c f s).1.IsError) :
    let (_, c', s') := reset c f s
    c'.min = c.params.defMin ∧ c'.max = c.params.defMax ∧ c'.oversamplingMode = c.params.defOversamplingMode ∧
      s' = s := by
  refine ⟨rfl, rfl, rfl, ?_⟩
  simp only [reset, eraseAll] at herr ⊢
  cases he : f.eraseAll with
  | some e => rfl
  | none =>
    simp only [he] at herr
    split at herr
    · exact absurd rfl herr.2
    · exact absurd rfl herr.1

/-- every update that reports an error changes nothing, in memory or after a reload -/
def UpdatesAtomic : Prop :=
  ∀ (c : AnalogConfig) (f : Faults) (s : Store),
    (∀ (min max : BitVec 16) (n : Byte), (configure c f s min max n).1.IsError →
      Unchanged c s (configure c f s min max n).2.1 (configure c f s min max n).2.2) ∧
    ((reset c f s).1.IsError → Unchanged c s (reset c f s).2.1 (reset c f s).2.2)

/-- **Failed updates.** A `configure` that reports an error stops at the arguments or at the first write that fails: of the
fields before that one, minimum and maximum, each that differed holds the argument in memory and after a reload, its write
having got through; everything else is as before. A `reset` that reports an error changes nothing a reload sees, and the
memory holds the defaults. -/
theorem failed_update (c : AnalogConfig) (f : Faults) (s : Store) :
    (∀ (min max : BitVec 16) (n : Byte), (configure c f s min max n).1.IsError →
      let (_, c', s') := configure c f s min max n
      Stopped f min max n c s c' s') ∧
    ((reset c f s).1.IsError →
      let (_, c', s') := reset c f s
      c'.values = (init c.params .none ∅).values ∧ (reload c s').values = (reload c s).values) := by
  refine ⟨fun min max n herr => failed_configure c f s min max n herr, fun herr => ?_⟩
  obtain ⟨hmin, hmax, hmode, hs⟩ := failed_reset c f s herr
  have hempty : init c.params .none ∅ = ⟨c.params, c.params.defMin, c.params.defMax, c.params.defOversamplingMode⟩ := by
    simp [init, readMode, probReadInt, probRead_none]
  refine ⟨?_, by rw [hs]⟩
  simp only [values, getSampleCount, hmin, hmax, hmode, hempty]

/-- a sensor with the defaults 1, 2 and 32 samples -/
def exampleParams : AnalogParams := ⟨"test", 1, 2, 10, .mode32⟩

/-- the write of the maximum fails -/
def maxWriteFails : Faults := { Faults.none with write := fun key => if key = "test_max" then some .plain else none }

def eraseAllFails : Faults := { Faults.none with eraseAll := some .plain }

/-- `configure 10 20 8` with a failing write of the maximum, and a `reset` with a failing erase -/
theorem failed_update_example :
    let c := init exampleParams .none ∅
    (let (_, c', s') := configure c maxWriteFails ∅ 10 20 8
     Stopped maxWriteFails 10 20 8 c ∅ c' s') ∧
    (reset c eraseAllFails ∅).2.1.values = (1, 2, 32) := by
  have hconf := (failed_update (init exampleParams .none ∅) maxWriteFails ∅).1 10 20 8 (by decide)
  have hreset := (failed_update (init exampleParams .none ∅) eraseAllFails ∅).2 (by decide)
  exact ⟨hconf, hreset.1.trans (by decide)⟩

/-- **Updates are not all-or-nothing.** `configure 10 20 8` with a failing write of the maximum reports the failure and
leaves the minimum 10 over the maximum 2, in memory and in the storage. A `reset` whose erase fails reports the failure
and takes the defaults in memory. -/
theorem updates_not_atomic : ¬ UpdatesAtomic ∧
    (let (code, c, s) := configure (init exampleParams .none ∅) maxWriteFails ∅ 10 20 8
     code = .error ∧ c.values = (10, 2, 32) ∧ (reload c s).values = (10, 2, 32) ∧ c.valid = false) ∧
    (let (_, c, s) := configure (init exampleParams .none ∅) .none ∅ 10 20 8
     let (code, c', s') := reset c eraseAllFails s
     code = .error ∧ c'.values = (1, 2, 32) ∧ (reload c' s').values = (10, 20, 8)) := by
  refine ⟨fun h => ?_, by decide, by decide⟩
  have hbad := (h (init exampleParams .none ∅) maxWriteFails ∅).1 10 20 8 (by decide)
  revert hbad
  decide

end AnalogConfig

end ControlComponents.Sensor
