/-
`AnalogConfigStore` (`ocs_sensor`): several `AnalogConfig` objects over one storage.

The keys of an object begin with its id, so that a write of one is not read by another. `reset` erases the whole storage,
the values of the other objects with it: their memory keeps the values until a restart.

- `AnalogConfigStore.ids_injective`: the configurations of a store have distinct ids.
- `configure_undisturbed`: a `configure` leaves what the other objects would load.
- `undisturbed_iff`: so does a run of calls, iff its resets find nothing but defaults. `reset_disturbs` is one that does not.
-/
import ControlComponents.Sensor.AnalogConfig
import ControlComponents.Lib.Runs

namespace ControlComponents.Sensor

open ControlComponents.Storage ControlComponents.Lib.Runs

/-! ## The store -/

/-- the configurations that have been added; `add` asserts that the id of a new one is unknown -/
structure AnalogConfigStore where
  configs : List AnalogParams
  nodup : (configs.map AnalogParams.id).Nodup

namespace AnalogConfigStore

def empty : AnalogConfigStore := ⟨[], List.nodup_nil⟩

def get (s : AnalogConfigStore) (id : String) : Option AnalogParams := s.configs.find? fun c => decide (id = c.id)

theorem not_mem_of_get {s : AnalogConfigStore} {id : String} (h : s.get id = none) :
    id ∉ s.configs.map AnalogParams.id := by
  intro hmem
  obtain ⟨c, hc, rfl⟩ := List.mem_map.1 hmem
  have hne := List.find?_eq_none.1 h c hc
  simp at hne

theorem nodup_concat {s : AnalogConfigStore} {c : AnalogParams} (h : s.get c.id = none) :
    ((s.configs ++ [c]).map AnalogParams.id).Nodup := by
  rw [List.map_append, List.map_singleton]
  refine List.Nodup.append s.nodup (List.nodup_singleton _) ?_
  exact List.disjoint_singleton.2 (not_mem_of_get h)

/-- `none` where the assertion fails -/
def add (s : AnalogConfigStore) (c : AnalogParams) : Option AnalogConfigStore :=
  if h : s.get c.id = none then some ⟨s.configs ++ [c], nodup_concat h⟩ else none

/-- the configurations of a store have pairwise distinct ids -/
theorem ids_injective (s : AnalogConfigStore) :
    Function.Injective fun i : Fin s.configs.length => (s.configs.get i).id := by
  intro i j h
  have heq : (s.configs.map AnalogParams.id)[i.val] = (s.configs.map AnalogParams.id)[j.val] := by simpa using h
  exact Fin.ext (s.nodup.getElem_inj_iff.1 heq)

end AnalogConfigStore

/-! ## Keys -/

namespace AnalogParams

def keys (p : AnalogParams) : List String := [p.minKey, p.maxKey, p.oversamplingModeKey]

theorem append_ne_of_getLast {s t a b : String} {x y : Char} (ha : a.toList.getLast? = some x)
    (hb : b.toList.getLast? = some y) (hne : x ≠ y) : s ++ a ≠ t ++ b := by
  intro h
  have hlast := congrArg (fun u : String => u.toList.getLast?) h
  simp only [String.toList_append, List.getLast?_append, ha, hb, Option.some_or, Option.some.injEq] at hlast
  exact hne hlast

/-- the suffixes of the keys end in different letters -/
theorem keys_disjoint {p q : AnalogParams} (h : p.id ≠ q.id) {k : String} (hp : k ∈ p.keys) : k ∉ q.keys := by
  intro hq
  simp only [keys, List.mem_cons, List.not_mem_nil, or_false, minKey, maxKey, oversamplingModeKey] at hp hq
  rcases hp with rfl | rfl | rfl
  · rcases hq with hq | hq | hq
    · exact h ((String.append_left_inj _).1 hq)
    · exact append_ne_of_getLast rfl rfl (by decide) hq
    · exact append_ne_of_getLast rfl rfl (by decide) hq
  · rcases hq with hq | hq | hq
    · exact append_ne_of_getLast rfl rfl (by decide) hq
    · exact h ((String.append_left_inj _).1 hq)
    · exact append_ne_of_getLast rfl rfl (by decide) hq
  · rcases hq with hq | hq | hq
    · exact append_ne_of_getLast rfl rfl (by decide) hq
    · exact append_ne_of_getLast rfl rfl (by decide) hq
    · exact h ((String.append_left_inj _).1 hq)

end AnalogParams

namespace AnalogConfig

/-- an object that is constructed now -/
def fresh (p : AnalogParams) (s : Store) : BitVec 16 × BitVec 16 × Byte := (init p .none s).values

/-- the values of the defaults -/
def defaults (p : AnalogParams) : BitVec 16 × BitVec 16 × Byte :=
  values ⟨p, p.defMin, p.defMax, p.defOversamplingMode⟩

/-- a new object reads its keys only -/
theorem init_congr {p : AnalogParams} {s t : Store} (f : Faults) (h : ∀ k ∈ p.keys, s.lookup k = t.lookup k) :
    init p f s = init p f t := by
  have hmin := h p.minKey (by simp [AnalogParams.keys])
  have hmax := h p.maxKey (by simp [AnalogParams.keys])
  have hmode := h p.oversamplingModeKey (by simp [AnalogParams.keys])
  simp only [init, readMode, probReadInt_congr f 2 0 _ hmin, probReadInt_congr f 2 0 _ hmax, probRead_congr f 1 hmode]

theorem fresh_empty (p : AnalogParams) : fresh p ∅ = defaults p := by
  simp [fresh, init, readMode, probReadInt, probRead_none, defaults]

theorem lookup_committed {α : Type} [DecidableEq α] (s : Store) {key k : String} (image : α → List Byte) (old new : α)
    (h : k ≠ key) : (committed s key image old new).lookup k = s.lookup k := by
  unfold committed
  split_ifs
  · rfl
  · exact Finmap.lookup_insert_of_ne _ h

/-- a `configure` writes its keys only -/
theorem lookup_configure (c : AnalogConfig) (f : Faults) (s : Store) (min max : BitVec 16) (n : Byte) {k : String}
    (h : k ∉ c.params.keys) : (configure c f s min max n).2.2.lookup k = s.lookup k := by
  simp only [AnalogParams.keys, List.mem_cons, List.not_mem_nil, or_false, not_or] at h
  obtain ⟨hmin, hmax, hmode⟩ := h
  rcases configure_cases c f s min max n with
    ⟨-, h⟩ | ⟨-, e, -, h⟩ | ⟨-, -, e, -, h⟩ | ⟨-, -, -, e, -, h⟩ | ⟨code, -, h⟩
  · rw [h]
  · rw [h]
  · rw [h]
    exact lookup_committed _ _ _ _ hmin
  · rw [h]
    calc _ = _ := lookup_committed _ _ _ _ hmax
      _ = _ := lookup_committed _ _ _ _ hmin
  · rw [h]
    calc _ = _ := lookup_committed _ _ _ _ hmode
      _ = _ := lookup_committed _ _ _ _ hmax
      _ = _ := lookup_committed _ _ _ _ hmin

theorem configure_params (c : AnalogConfig) (f : Faults) (s : Store) (min max : BitVec 16) (n : Byte) :
    (configure c f s min max n).2.1.params = c.params := by
  rcases configure_cases c f s min max n with
    ⟨-, h⟩ | ⟨-, e, -, h⟩ | ⟨-, -, e, -, h⟩ | ⟨-, -, -, e, -, h⟩ | ⟨code, -, h⟩ <;>
    rw [h]

/-! ## Objects over one storage -/

section

variable {ι : Type} [DecidableEq ι]

/-- the objects and their storage -/
structure Shared (ι : Type) where
  config : ι → AnalogConfig
  store : Store

/-- a call on one of the objects; any storage call of it may fail -/
inductive Call (ι : Type) where
  | configure (i : ι) (f : Faults) (min max : BitVec 16) (sampleCount : Byte)
  | reset (i : ι) (f : Faults)

def Call.target : Call ι → ι
  | .configure i _ _ _ _ => i
  | .reset i _ => i

/-- the objects are constructed over the storage -/
def Shared.start (params : ι → AnalogParams) (f : ι → Faults) (s : Store) : Shared ι :=
  ⟨fun i => init (params i) (f i) s, s⟩

def Shared.step (w : Shared ι) : Call ι → Shared ι
  | .configure i f min max sampleCount =>
    let (_, config, store) := configure (w.config i) f w.store min max sampleCount
    ⟨Function.update w.config i config, store⟩
  | .reset i f =>
    let (_, config, store) := reset (w.config i) f w.store
    ⟨Function.update w.config i config, store⟩

/-- what the other objects would load after a restart is as before the call -/
def Undisturbed (params : ι → AnalogParams) (w : Shared ι) (call : Call ι) : Prop :=
  ∀ j ≠ call.target, fresh (params j) (w.step call).store = fresh (params j) w.store

/-- a reset whose erase fails, or which finds nothing but defaults for the other objects -/
def Harmless (params : ι → AnalogParams) (w : Shared ι) : Call ι → Prop
  | .configure _ _ _ _ _ => True
  | .reset i f => f.eraseAll ≠ none ∨ ∀ j ≠ i, fresh (params j) w.store = defaults (params j)

/-- the objects keep their ids and defaults -/
def Built (params : ι → AnalogParams) (w : Shared ι) : Prop := ∀ i, (w.config i).params = params i

theorem step_built {params : ι → AnalogParams} (w : Shared ι) (call : Call ι) (hw : Built params w) :
    Built params (w.step call) := by
  intro j
  by_cases hj : j = call.target
  · subst hj
    cases call with
    | configure i f min max n =>
      simp only [Shared.step, Call.target, Function.update_self]
      exact (configure_params _ _ _ _ _ _).trans (hw i)
    | reset i f =>
      simp only [Shared.step, Call.target, Function.update_self]
      exact hw i
  · have hsame : (w.step call).config j = w.config j := by
      cases call with
      | configure i f min max n => exact Function.update_of_ne hj _ _
      | reset i f => exact Function.update_of_ne hj _ _
    rw [hsame]
    exact hw j

theorem configure_undisturbed {params : ι → AnalogParams} (hids : Function.Injective fun i => (params i).id)
    {w : Shared ι} (hw : Built params w) (i : ι) (f : Faults) (min max : BitVec 16) (n : Byte) :
    Undisturbed params w (.configure i f min max n) := by
  intro j hj
  refine congrArg values (init_congr .none fun k hk => ?_)
  have hid : (params j).id ≠ (w.config i).params.id := by
    rw [hw i]
    exact fun h => hj (hids h)
  exact lookup_configure _ f w.store min max n (AnalogParams.keys_disjoint hid hk)

theorem undisturbed_step_iff {params : ι → AnalogParams} (hids : Function.Injective fun i => (params i).id)
    (w : Shared ι) (call : Call ι) (hw : Built params w) : Undisturbed params w call ↔ Harmless params w call := by
  cases call with
  | configure i f min max n => exact iff_of_true (configure_undisturbed hids hw i f min max n) trivial
  | reset i f =>
    have hstore : (w.step (.reset i f)).store = (eraseAll f w.store).2 := rfl
    simp only [Undisturbed, Harmless, Call.target, hstore]
    cases hf : f.eraseAll with
    | some e =>
      have hkept : (eraseAll f w.store).2 = w.store := by rw [eraseAll, hf]
      rw [hkept]
      exact iff_of_true (fun _ _ => rfl) (.inl (Option.some_ne_none e))
    | none =>
      rw [eraseAll_store hf]
      simp only [fresh_empty, ne_eq, not_true_eq_false, false_or]
      exact forall₂_congr fun j _ => eq_comm

/-- **Objects that share a storage.** For any number of objects with distinct ids, over any storage and with any storage
calls failing, and every sequence of calls: no call changes what another object would load, iff every reset whose erase
works finds nothing but defaults for the others. -/
theorem undisturbed_iff (params : ι → AnalogParams) (hids : Function.Injective fun i => (params i).id) (f : ι → Faults)
    (s : Store) (calls : List (Call ι)) :
    Guarded Shared.step (Undisturbed params) (.start params f s) calls ↔
      Guarded Shared.step (Harmless params) (.start params f s) calls := by
  have hstart : Built params (.start params f s) := fun _ => rfl
  have hkeep (w : Shared ι) (call : Call ι) (hw : Built params w) (_ : Undisturbed params w call) :
      Built params (w.step call) := step_built w call hw
  exact guarded_congr hkeep (undisturbed_step_iff hids) hstart calls

end

/-- two sensors with the same defaults -/
def sensors : AnalogConfigStore := ⟨[⟨"test_1", 1, 2, 10, .mode1⟩, ⟨"test_2", 1, 2, 10, .mode1⟩], by decide⟩

def sensor (i : Fin 2) : AnalogParams := sensors.configs.get i

theorem sensor_injective : Function.Injective fun i => (sensor i).id := sensors.ids_injective

/-- the second sensor is configured -/
def configureSecond : Call (Fin 2) := .configure 1 .none 10 20 8

/-- resetting the only sensor that has been configured -/
theorem undisturbed_iff_example :
    Guarded Shared.step (Undisturbed sensor) (.start sensor (fun _ => .none) ∅) [configureSecond, .reset 1 .none] := by
  have hharmless := undisturbed_iff sensor sensor_injective (fun _ => .none) ∅ [configureSecond, .reset 1 .none]
  exact hharmless.2 ⟨trivial, .inr (by decide), trivial⟩

def NeverDisturbed : Prop :=
  ∀ (n : ℕ) (params : Fin n → AnalogParams), (Function.Injective fun i => (params i).id) →
    ∀ (f : Fin n → Faults) (s : Store) (calls : List (Call (Fin n))),
      Guarded Shared.step (Undisturbed params) (.start params f s) calls

/-- **A reset disturbs.** The second sensor is configured and the first one is reset: after a restart the second one has
its defaults. -/
theorem reset_disturbs : ¬ NeverDisturbed ∧
    (let w := (Shared.start sensor (fun _ => .none) ∅).step configureSecond
     fresh (sensor 1) w.store = (10, 20, 8) ∧ fresh (sensor 1) (w.step (.reset 0 .none)).store = (1, 2, 1)) := by
  refine ⟨fun h => ?_, by decide⟩
  have hreset := (h 2 sensor sensor_injective (fun _ => .none) ∅ [configureSecond, .reset 0 .none]).2.1
  have hsecond := hreset 1 (by decide)
  revert hsecond
  decide

end AnalogConfig

end ControlComponents.Sensor
