/-
Erasing the configuration of a DS18B20 sensor (`ocs_sensor/ds18b20`).

A sensor that is not configured reads its configuration from the storage, and erases it there, but reports the one in
memory, which is the default until the sensor is configured. A sensor whose device has not answered at the startup is one
with a stored configuration that is not in memory.

- `InMemory`: only a configured sensor has a configuration in memory, whatever is stored.
- `erase_reports_iff`: when an erase reports what was stored. `erase_reports_default` is one that does not.
-/
import ControlComponents.Sensor.Ds18b20

namespace ControlComponents.Ds18b20

open ControlComponents.Lib.Runs ControlComponents.Onewire ControlComponents.Storage

/-- an erase that works reports what could be read before, and nothing is configured or can be read after it -/
def EraseReports (s : Sensor) (store : Store) (f : Faults) : Prop :=
  ∀ erased s' store', s.eraseConfiguration f store = (.ok erased, s', store') →
    s.readConfiguration .none store = .ok erased ∧
      s'.configured = false ∧ s'.readConfiguration .none store' = .error .noData

/-- the stored bytes are those of the default, as far as they go -/
def Blank (v : List Byte) : Prop := v.length ≤ Configuration.size ∧ ∀ b ∈ v, b = 0

/-- the sensor is configured, or the erase fails, or what it erases is blank -/
def KnowsErased (s : Sensor) (store : Store) (f : Faults) : Prop :=
  s.configured = true ∨ f.erase s.id ≠ none ∨ ∀ v, store.lookup s.id = some v → Blank v

/-! ## Memory -/

/-- a sensor that is not configured has the default in memory -/
def InMemory (s : Sensor) : Prop := s.configured = true ∨ s.configuration = .new

variable {β : Type}

theorem writeConfiguration_inMemory {s : Sensor} (hs : InMemory s) (bus : Bus β) (node : ℕ) (f : Faults) (store : Store)
    (c : Configuration) (b : β) : InMemory (s.writeConfiguration bus node f store c b).2.1 := by
  unfold Sensor.writeConfiguration
  split_ifs
  · exact hs
  · split
    · split
      · exact .inl rfl
      · exact hs
    · exact hs

theorem step_inMemory (bus : ℕ → Bus β) (w : World β) (call : Call) (hw : InMemory w.sensor) :
    InMemory (step bus w call).2.sensor := by
  cases call with
  | add node reading writing =>
    simp only [step, World.add]
    split_ifs
    · exact hw
    · split
      · exact hw
      · exact writeConfiguration_inMemory hw (bus node) node writing w.store _ w.devices
  | readConfiguration f =>
    simp only [step]
    split
    · exact hw
    · exact hw
  | writeConfiguration node f c => exact writeConfiguration_inMemory hw (bus node) node f w.store c w.devices
  | eraseConfiguration f =>
    simp only [step, Sensor.eraseConfiguration]
    split
    · exact .inr rfl
    · exact hw

/-! ## Erasing -/

/-- a record that has been loaded is the default one if all its bytes are 0 -/
theorem load_new_iff {v : List Byte} (h : v.length ≤ Configuration.size) :
    Configuration.new.load v = .new ↔ ∀ b ∈ v, b = 0 := by
  have hlen : v.length ≤ 9 := h
  refine ⟨fun heq b hb => ?_, fun hzero => ?_⟩
  · obtain ⟨i, hi, rfl⟩ := List.mem_iff_getElem.1 hb
    rcases Nat.lt_or_ge i 8 with hlt | hge
    · have hbyte := congrArg (fun c : Configuration => c.romCode.bytes[i]) heq
      simpa [Configuration.load, Configuration.new, RomCode.new, hi] using hbyte
    · have hi8 : i = 8 := by omega
      subst hi8
      have hbyte := congrArg (fun c : Configuration => c.resolution.value) heq
      simpa [Configuration.load, Configuration.new, Resolution.none, hi] using hbyte
  · have hbyte (i : ℕ) : v[i]?.getD 0 = 0 := by
      cases hi : v[i]? with
      | none => rfl
      | some b => exact hzero b (List.mem_of_getElem? hi)
    have hrom : (Configuration.new.load v).romCode = .new := by
      simp only [Configuration.load, Configuration.new, RomCode.new, RomCode.mk.injEq]
      apply Vector.ext
      intro i hi
      have hget : (Vector.replicate 8 (0 : Byte)).get ⟨i, hi⟩ = 0 := Vector.getElem_replicate hi
      rw [Vector.getElem_ofFn, Vector.getElem_replicate, hget]
      exact hbyte i
    have hresolution : (Configuration.new.load v).resolution = .none := congrArg Resolution.mk (hbyte 8)
    exact congrArg₂ Configuration.mk hrom hresolution

theorem erased_spec (s : Sensor) (store : Store) :
    Sensor.configured { s with bus := none, configuration := .new } = false ∧
      Sensor.readConfiguration { s with bus := none, configuration := .new } .none (store.erase s.id) =
        .error .noData := by
  refine ⟨rfl, ?_⟩
  have hlookup : (store.erase s.id).lookup s.id = none := Finmap.lookup_erase _ _
  have hread : Storage.read .none (store.erase s.id) s.id Configuration.size = .error .noData := by
    simp only [Storage.read, Faults.none, hlookup]
  simp only [Sensor.readConfiguration, Sensor.configured, Option.isSome_none, Bool.false_eq_true, if_false, hread]
  rfl

/-- what a sensor that is not configured can read is the default if the stored record is blank -/
theorem readConfiguration_new_iff {s : Sensor} (hconf : s.configured = false) {store : Store} {v : List Byte}
    (hv : store.lookup s.id = some v) : s.readConfiguration .none store = .ok .new ↔ Blank v := by
  have hread : s.readConfiguration .none store =
      if Configuration.size < v.length then .error .error else .ok (Configuration.new.load v) := by
    simp only [Sensor.readConfiguration, hconf, Bool.false_eq_true, if_false, Storage.read, Faults.none, hv]
    split_ifs <;> rfl
  rw [hread]
  split_ifs with hlong
  · refine iff_of_false (fun h => by cases h) (fun h => ?_)
    exact absurd h.1 (Nat.not_le.2 hlong)
  · have hle := Nat.not_lt.1 hlong
    rw [Except.ok.injEq, load_new_iff hle, Blank, and_iff_right hle]

theorem eraseReports_iff {s : Sensor} (hs : InMemory s) (store : Store) (f : Faults) :
    EraseReports s store f ↔ KnowsErased s store f := by
  by_cases hf : f.erase s.id = none
  · cases hv : store.lookup s.id with
    | none =>
      -- nothing is stored, and nothing can be erased
      have hmem : s.id ∉ store := Finmap.lookup_eq_none.1 hv
      have herase : Storage.erase f store s.id = (.noData, store) := by simp only [Storage.erase, hf, if_neg hmem]
      refine iff_of_true (fun erased s' store' h => ?_) (.inr (.inr fun v hv' => ?_))
      · simp only [Sensor.eraseConfiguration, herase] at h
        cases h
      · rw [hv] at hv'
        cases hv'
    | some v =>
      have hmem : s.id ∈ store := Finmap.mem_iff.2 ⟨v, hv⟩
      have herase : Storage.erase f store s.id = (.ok, store.erase s.id) := by
        simp only [Storage.erase, hf, if_pos hmem]
      have hresult : s.eraseConfiguration f store =
          (.ok s.configuration, { s with bus := none, configuration := .new }, store.erase s.id) := by
        simp only [Sensor.eraseConfiguration, herase]
      have hreports : EraseReports s store f ↔ s.readConfiguration .none store = .ok s.configuration := by
        refine ⟨fun h => (h _ _ _ hresult).1, fun h erased s' store' heq => ?_⟩
        rw [hresult] at heq
        obtain ⟨rfl, rfl, rfl⟩ := heq
        exact ⟨h, erased_spec s store⟩
      rw [hreports, KnowsErased]
      cases hconf : s.configured with
      | true =>
        refine iff_of_true ?_ (.inl rfl)
        rw [Sensor.readConfiguration, if_pos hconf]
      | false =>
        have hnew : s.configuration = .new := hs.resolve_left (by rw [hconf]; exact Bool.false_ne_true)
        rw [hnew, readConfiguration_new_iff hconf hv]
        simp [hf, hv]
  · obtain ⟨e, he⟩ := Option.ne_none_iff_exists'.1 hf
    have herase : Storage.erase f store s.id = (e.code, store) := by simp only [Storage.erase, he]
    refine iff_of_true (fun erased s' store' h => ?_) (.inr (.inl hf))
    simp only [Sensor.eraseConfiguration, herase] at h
    split at h
    · rename_i hpair
      exact absurd (Prod.mk.inj hpair).1 e.failed
    · cases h

/-- **What an erase reports.** For every bus, all devices, any stored bytes, and after every sequence of calls, whatever
fails: an erase that works reports what could be read before it iff the sensor is configured or the stored record is
blank. -/
theorem erase_reports_iff (bus : ℕ → Bus β) (id : String) (store : Store) (sensors : ℕ → List String) (devices : β)
    (calls : List Call) (f : Faults) :
    let w := after bus (.start id store sensors devices) calls
    EraseReports w.sensor w.store f ↔ KnowsErased w.sensor w.store f := by
  intro w
  have hstep (w : World β) (call : Call) (hw : InMemory w.sensor) : InMemory (step bus w call).2.sensor :=
    step_inMemory bus w call hw
  have hstart : InMemory (World.start id store sensors devices).sensor := .inr rfl
  have hw : InMemory w.sensor := run_preserves hstep hstart calls
  exact eraseReports_iff hw w.store f

def EraseReportsStored : Prop :=
  ∀ (bus : ℕ → Bus Unit) (id : String) (store : Store) (sensors : ℕ → List String) (calls : List Call) (f : Faults),
    EraseReports (after bus (.start id store sensors ()) calls).sensor
      (after bus (.start id store sensors ()) calls).store f

/-- a bus without devices -/
def silentBus : Bus Unit where
  reset b := (.error, b)
  readBit b := (.ok, true, b)
  writeBit _ b := (.ok, b)

def storedConfiguration : Configuration := ⟨.new, .bit9⟩

/-- a sensor with a stored configuration whose device does not answer at the startup -/
def unanswered : World Unit :=
  after (fun _ => silentBus) (.start "temp" (Finmap.singleton "temp" storedConfiguration.image) (fun _ => []) ())
    [.add 0 .none .none]

/-- **A default is reported.** -/
theorem erase_reports_default : ¬ EraseReportsStored ∧
    unanswered.sensor.readConfiguration .none unanswered.store = .ok storedConfiguration ∧
    (unanswered.sensor.eraseConfiguration .none unanswered.store).1 = .ok .new := by
  have hread : unanswered.sensor.readConfiguration .none unanswered.store = .ok storedConfiguration := by
    decide +kernel
  have herase : (unanswered.sensor.eraseConfiguration .none unanswered.store).1 = .ok .new := by
    decide +kernel
  refine ⟨fun h => ?_, hread, herase⟩
  have hreports : EraseReports unanswered.sensor unanswered.store .none :=
    h (fun _ => silentBus) "temp" (Finmap.singleton "temp" storedConfiguration.image) (fun _ => [])
      [.add 0 .none .none] .none
  obtain ⟨hstored, -⟩ := hreports .new _ _ (by rw [← herase])
  have hsame : storedConfiguration = .new := Except.ok.inj (hread.symm.trans hstored)
  revert hsame
  decide

end ControlComponents.Ds18b20
