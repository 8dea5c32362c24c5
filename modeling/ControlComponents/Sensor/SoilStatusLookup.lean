/-
Status lookup of the soil `AnalogSensor` (`ocs_sensor/soil`): the index of a reading into the list of statuses.

The index is the distance from the minimum over the length of a status, and the length is the range over the number of
statuses, both rounded down. A range below the number of statuses has the length 0, and what the rounding leaves at the
upper end, the maximum at least, lies past the last status.

- `calculateStatus_cases`: the status of a reading with an index in bounds, and that there is none otherwise.
- `lookup_iff`: the readings whose lookup is right. `lookup_out_of_bounds` has one of each kind for which it is not.
-/
import ControlComponents.Sensor.SoilAnalogSensor

namespace ControlComponents.Sensor.Soil

/-! ## Arithmetic -/

def range (config : AnalogConfig) : ℤ := (config.max.toNat : ℤ) - config.min.toNat

def offset (config : AnalogConfig) (raw : ℤ) : ℤ := raw - config.min.toNat

/-- the index into `statuses_` -/
def statusIndex (config : AnalogConfig) (raw : ℤ) : ℤ := (offset config raw).tdiv (statusLen config)

theorem range_lt (config : AnalogConfig) : range config < 2 ^ 16 := by
  unfold range
  omega

/-- the conversion of the length to `uint16_t` loses nothing -/
theorem statusLen_eq {config : AnalogConfig} (h : 0 ≤ range config) : statusLen config = range config / statusCount := by
  have hlt := range_lt config
  have hdiv : ((config.max.toNat : ℤ) - config.min.toNat).tdiv statusCount = range config / statusCount :=
    Int.tdiv_eq_ediv_of_nonneg h
  rw [statusLen, hdiv, BitVec.toNat_ofInt]
  have hcount : statusCount = 4 := rfl
  rw [hcount]
  omega

theorem isInvalidInput_eq_false {config : AnalogConfig} {raw : ℤ} :
    isInvalidInput config raw = false ↔ 0 ≤ offset config raw ∧ offset config raw ≤ range config := by
  simp only [isInvalidInput, offset, range, Bool.or_eq_false_iff, decide_eq_false_iff_not]
  omega

theorem statusIndex_eq {config : AnalogConfig} {raw : ℤ} (h : isInvalidInput config raw = false) :
    statusIndex config raw = offset config raw / statusLen config :=
  Int.tdiv_eq_ediv_of_nonneg (isInvalidInput_eq_false.1 h).1

/-! ## The lookup -/

/-- neither calculation divides by 0, and the index is one of the list -/
structure InBounds (config : AnalogConfig) (raw : ℤ) : Prop where
  divides : statusLen config ≠ 0
  nonneg : 0 ≤ statusIndex config raw
  lt : statusIndex config raw < statusCount

/-- the reading is below what the rounding of the length leaves at the upper end -/
theorem inBounds_iff {config : AnalogConfig} {raw : ℤ} (h : isInvalidInput config raw = false) :
    InBounds config raw ↔
      statusCount ≤ range config ∧ offset config raw < statusCount * (range config / statusCount) := by
  obtain ⟨hoffset, hrange⟩ := isInvalidInput_eq_false.1 h
  have hlen := statusLen_eq (hoffset.trans hrange)
  have hcount : (0 : ℤ) < statusCount := by decide
  refine ⟨fun hb => ?_, fun ⟨hfour, hlt⟩ => ?_⟩
  · have hpos : 0 < range config / statusCount := by
      have hnonneg : 0 ≤ range config / statusCount := Int.ediv_nonneg (hoffset.trans hrange) hcount.le
      exact lt_of_le_of_ne hnonneg fun h0 => hb.divides (hlen.trans h0.symm)
    refine ⟨?_, ?_⟩
    · have hone : 1 * statusCount ≤ range config := (Int.le_ediv_iff_mul_le hcount).1 hpos
      rwa [one_mul] at hone
    · have hlt := hb.lt
      rw [statusIndex_eq h, hlen] at hlt
      exact (Int.ediv_lt_iff_lt_mul hpos).1 hlt
  · have hpos : 0 < statusLen config := by
      rw [hlen]
      have hone : 1 * statusCount ≤ range config := by rwa [one_mul]
      exact (Int.le_ediv_iff_mul_le hcount).2 hone
    refine ⟨hpos.ne', ?_, ?_⟩
    · rw [statusIndex_eq h]
      exact Int.ediv_nonneg hoffset hpos.le
    · rw [statusIndex_eq h, Int.ediv_lt_iff_lt_mul hpos, hlen]
      exact hlt

/-- the maximum is a reading, but no configuration has a status for it -/
theorem maximum_not_inBounds {config : AnalogConfig} (h : config.min ≤ config.max) :
    ¬ InBounds config config.max.toNat := by
  have hle : config.min.toNat ≤ config.max.toNat := h
  have hreading : isInvalidInput config config.max.toNat = false := by
    rw [isInvalidInput_eq_false, offset, range]
    omega
  rw [inBounds_iff hreading, not_and]
  intro _
  have hfits : statusCount * (range config / statusCount) ≤ range config := Int.mul_ediv_self_le (by decide)
  exact not_lt.2 hfits

/-- the statuses are numbered from 1 -/
theorem statuses_value {n : ℕ} {status : SoilStatus} (h : statuses[n]? = some status) :
    status.value.toNat = n + 1 := by
  have hlt : n < statuses.length := (List.getElem?_eq_some_iff.1 h).1
  have hall : ∀ n < statuses.length, ∀ s ∈ statuses[n]?, s.value.toNat = n + 1 := by decide
  exact hall n hlt status h

/-- a lookup gives a status iff it is in bounds, and then the one with the number of the index -/
theorem calculateStatus_cases {config : AnalogConfig} {raw : ℤ} (h : isInvalidInput config raw = false) :
    (InBounds config raw ∧ ∃ status, calculateStatus config raw = some status ∧
      (status.value.toNat : ℤ) = statusIndex config raw + 1) ∨
    (¬ InBounds config raw ∧ calculateStatus config raw = none) := by
  have hvalid : ¬ isInvalidInput config raw = true := by
    rw [h]
    exact Bool.false_ne_true
  by_cases hb : InBounds config raw
  · have hlt : (statusIndex config raw).toNat < statuses.length := (Int.toNat_lt hb.nonneg).2 hb.lt
    refine .inl ⟨hb, statuses[(statusIndex config raw).toNat], ?_, ?_⟩
    · rw [calculateStatus, if_neg hvalid, if_neg hb.divides]
      exact List.getElem?_eq_getElem hlt
    · rw [statuses_value (List.getElem?_eq_getElem hlt)]
      have hnonneg := hb.nonneg
      omega
  · refine .inr ⟨hb, ?_⟩
    rw [calculateStatus, if_neg hvalid]
    split_ifs with hlen
    · rfl
    · obtain ⟨hoffset, hrange⟩ := isInvalidInput_eq_false.1 h
      have hlen0 : 0 ≤ statusLen config := Int.natCast_nonneg _
      have hnonneg : 0 ≤ statusIndex config raw := by
        rw [statusIndex_eq h]
        exact Int.ediv_nonneg hoffset hlen0
      have hge : statusCount ≤ statusIndex config raw := by
        by_contra hlt
        exact hb ⟨hlen, hnonneg, not_le.1 hlt⟩
      refine List.getElem?_eq_none ?_
      exact (Int.le_toNat hnonneg).2 hge

/-- a larger reading does not have a smaller index -/
theorem statusIndex_mono {config : AnalogConfig} {raw raw' : ℤ} (h : isInvalidInput config raw = false)
    (h' : isInvalidInput config raw' = false) (hb : InBounds config raw) (hle : raw ≤ raw') :
    statusIndex config raw ≤ statusIndex config raw' := by
  have hpos : 0 < statusLen config := lt_of_le_of_ne (Int.natCast_nonneg _) hb.divides.symm
  rw [statusIndex_eq h, statusIndex_eq h']
  apply Int.ediv_le_ediv hpos
  unfold offset
  omega

/-! ## The law -/

/-- the lookup of a reading: no division by 0, an index of the list, and no wetter status for a larger reading -/
structure LookupLaw (config : AnalogConfig) (raw : ℤ) : Prop where
  inBounds : InBounds config raw
  monotone : ∀ raw', raw ≤ raw' → isInvalidInput config raw' = false →
    ∀ s ∈ calculateStatus config raw, ∀ s' ∈ calculateStatus config raw', s.value ≤ s'.value

/-- **The lookup of a reading.** For every configuration and every reading between its minimum and its maximum: the lookup
is right iff the range has a place for each status, and the reading is below the multiple of their length that fits in. -/
theorem lookup_iff (config : AnalogConfig) (raw : ℤ) (h : isInvalidInput config raw = false) :
    LookupLaw config raw ↔
      statusCount ≤ range config ∧ offset config raw < statusCount * (range config / statusCount) := by
  rw [← inBounds_iff h]
  refine ⟨LookupLaw.inBounds, fun hb => ⟨hb, fun raw' hle h' s hs s' hs' => ?_⟩⟩
  rcases calculateStatus_cases h with ⟨-, t, ht, hvalue⟩ | ⟨-, hnone⟩
  · rcases calculateStatus_cases h' with ⟨-, t', ht', hvalue'⟩ | ⟨-, hnone'⟩
    · obtain rfl := Option.some.inj (ht.symm.trans hs)
      obtain rfl := Option.some.inj (ht'.symm.trans hs')
      have hmono := statusIndex_mono h h' hb hle
      rw [BitVec.le_def]
      omega
    · rw [hnone'] at hs'
      cases hs'
  · rw [hnone] at hs
    cases hs

/-- a configuration with the range, 10 bits and a single measurement -/
def exampleConfig (min max : BitVec 16) : AnalogConfig := ⟨⟨"soil", min, max, 10, .mode1⟩, min, max, .mode1⟩

theorem lookup_iff_example : LookupLaw (exampleConfig 10 26) 14 :=
  (lookup_iff (exampleConfig 10 26) 14 (by decide)).2 (by decide)

def LookupInBounds : Prop :=
  ∀ config : AnalogConfig, config.valid = true → ∀ raw, isInvalidInput config raw = false → LookupLaw config raw

/-- **A lookup out of bounds.** A range of 3 divides by 0, and the maximum has the index 4. -/
theorem lookup_out_of_bounds : ¬ LookupInBounds ∧ statusLen (exampleConfig 0 3) = 0 ∧
    statusIndex (exampleConfig 0 8) 8 = statusCount := by
  refine ⟨fun h => ?_, by decide, by decide⟩
  have hbounds := (h (exampleConfig 0 3) (by decide) 0 (by decide)).inBounds
  exact hbounds.divides (by decide)

end ControlComponents.Sensor.Soil
