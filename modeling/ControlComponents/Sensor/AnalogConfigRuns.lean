/-
Runs of `AnalogConfig` (`ocs_sensor`): the object in memory and the storage below it.

Each field is taken over when its write has succeeded and skipped when it is unchanged, so a new object over the same
storage reads what the live one holds, whatever writes have failed before. A skipped field may hold a default that is not
stored, or the fallback for a mode that does not decode; the new object falls back the same way.

- `update_inStep`: one update keeps memory and storage in step.
- `memory_refines_storage`: so does every sequence of updates.
-/
import ControlComponents.Sensor.AnalogConfig
import ControlComponents.Lib.Runs

namespace ControlComponents.Sensor.AnalogConfig

open ControlComponents.Storage ControlComponents.Lib.LittleEndian ControlComponents.Lib.Runs

/-! ## Model -/

/-- an object and its storage -/
structure Live where
  config : AnalogConfig
  store : Store

/-- a call; any write of `configure` may fail, and the erase of `reset` reports OK or NoData -/
inductive Update where
  | configure (f : Faults) (min max : BitVec 16) (sampleCount : Byte)
  | reset

def Live.start (p : AnalogParams) (s : Store) : Live := ⟨init p .none s, s⟩

def update (w : Live) : Update → Live
  | .configure f min max sampleCount =>
    let (_, config, store) := configure w.config f w.store min max sampleCount
    ⟨config, store⟩
  | .reset =>
    let (_, config, store) := reset w.config .none w.store
    ⟨config, store⟩

/-- a new object with the same defaults and id reads what the live one holds -/
def InStep (p : AnalogParams) (w : Live) : Prop := w.config = init p .none w.store

/-! ## The oversampling mode -/

theorem parseOversamplingMode_ne_none {min max : BitVec 16} {n : Byte} {bitwidth : ℕ}
    (h : validate min max n bitwidth = true) : parseOversamplingMode n ≠ .none := by
  intro hnone
  simp [validate, hnone] at h

theorem parseOversamplingMode_ne_last (n : Byte) : parseOversamplingMode n ≠ .last := by
  unfold parseOversamplingMode
  split <;> decide

/-- a mode that was stored decodes to itself -/
theorem ofByte_toByte {mode : OversamplingMode} (hnone : mode ≠ .none) (hlast : mode ≠ .last) :
    validateOversamplingMode mode.toByte = true ∧ OversamplingMode.ofByte mode.toByte = mode := by
  cases mode with
  | none => exact absurd rfl hnone
  | last => exact absurd rfl hlast
  | _ => decide

theorem reload_insert_mode (c : AnalogConfig) (s : Store) {mode : OversamplingMode} (hnone : mode ≠ .none)
    (hlast : mode ≠ .last) :
    reload c (s.insert c.params.oversamplingModeKey (imageMode mode)) = { reload c s with oversamplingMode := mode } := by
  set t := s.insert c.params.oversamplingModeKey (imageMode mode) with ht
  have hmin : t.lookup c.params.minKey = s.lookup c.params.minKey :=
    Finmap.lookup_insert_of_ne _ c.params.minKey_ne_modeKey
  have hmax : t.lookup c.params.maxKey = s.lookup c.params.maxKey :=
    Finmap.lookup_insert_of_ne _ c.params.maxKey_ne_modeKey
  have hmode : t.lookup c.params.oversamplingModeKey = some (imageMode mode) := Finmap.lookup_insert s
  obtain ⟨hvalid, hdecode⟩ := ofByte_toByte hnone hlast
  have hread : readMode c.params .none t = mode := by
    have himage : overlay 1 (0 : Byte) (imageMode mode) = mode.toByte := overlay_toLe 1 rfl 0 mode.toByte
    simp only [readMode, probRead_of_lookup hmode (length_toLe 1 _).le, himage, hvalid, if_true, hdecode]
  simp only [reload, init, hread, probReadInt_congr _ 2 0 _ hmin, probReadInt_congr _ 2 0 _ hmax]

theorem reload_committed_mode (c : AnalogConfig) (s : Store) {mode : OversamplingMode} (hnone : mode ≠ .none)
    (hlast : mode ≠ .last) :
    reload c (committed s c.params.oversamplingModeKey imageMode c.oversamplingMode mode) =
      { reload c s with
        oversamplingMode := if c.oversamplingMode = mode then (reload c s).oversamplingMode else mode } := by
  unfold committed
  split_ifs
  · rfl
  · exact reload_insert_mode c s hnone hlast

/-! ## Updates -/

/-- a skipped field and a field taken over both hold the argument -/
theorem ite_eq_arg {α : Type} [DecidableEq α] (old new : α) : (if old = new then old else new) = new := by
  split_ifs with h
  · exact h
  · rfl

theorem configure_inStep {p : AnalogParams} {w : Live} (hw : InStep p w) (f : Faults) (min max : BitVec 16) (n : Byte) :
    InStep p (update w (.configure f min max n)) := by
  obtain ⟨c, s⟩ := w
  have hp : c.params = p := congrArg AnalogConfig.params hw
  subst hp
  have hs : reload c s = c := hw.symm
  cases hv : validate min max n c.getBitwidth with
  | false => simpa [update, configure, hv] using hw
  | true =>
    have hs1 := reload_committed_min c s min
    rw [hs, ite_eq_arg] at hs1
    have hs2 := reload_committed_max c (committed s c.params.minKey imageU16 c.min min) max
    rw [hs1, ite_eq_arg] at hs2
    have hs3 := reload_committed_mode c
      (committed (committed s c.params.minKey imageU16 c.min min) c.params.maxKey imageU16 c.max max)
      (parseOversamplingMode_ne_none hv) (parseOversamplingMode_ne_last n)
    rw [hs2, ite_eq_arg] at hs3
    rcases configure_cases c f s min max n with
      ⟨-, h⟩ | ⟨-, e, -, h⟩ | ⟨-, -, e, -, h⟩ | ⟨-, -, -, e, -, h⟩ | ⟨code, -, h⟩
    · simpa only [update, h] using hw
    · simpa only [update, h] using hw
    · simp only [update, h]
      exact hs1.symm
    · simp only [update, h]
      exact hs2.symm
    · simp only [update, h]
      exact hs3.symm

theorem reset_inStep {p : AnalogParams} {w : Live} (hw : InStep p w) : InStep p (update w .reset) := by
  obtain ⟨c, s⟩ := w
  have hp : c.params = p := congrArg AnalogConfig.params hw
  subst hp
  have hempty : (eraseAll .none s).2 = ∅ := eraseAll_store rfl s
  simp [InStep, update, reset, hempty, init, readMode, probReadInt, probRead_none]

theorem update_inStep {p : AnalogParams} {w : Live} (hw : InStep p w) (u : Update) : InStep p (update w u) := by
  cases u with
  | configure f min max n => exact configure_inStep hw f min max n
  | reset => exact reset_inStep hw

/-- **Memory refines storage.** After every sequence of updates, over any initial storage and with any writes failing, a
new object with the same defaults and id holds the minimum, the maximum and the sample count of the live one. -/
theorem memory_refines_storage (p : AnalogParams) (s : Store) (us : List Update) :
    let w := run update (.start p s) us
    w.config.values = (init p .none w.store).values := by
  have hstart : InStep p (.start p s) := rfl
  have hstep (w : Live) (u : Update) (hw : InStep p w) : InStep p (update w u) := update_inStep hw u
  have hw : InStep p (run update (.start p s) us) := run_preserves hstep hstart us
  exact congrArg values hw

end ControlComponents.Sensor.AnalogConfig
