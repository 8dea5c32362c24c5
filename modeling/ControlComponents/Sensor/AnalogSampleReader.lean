/-
`AnalogSampleReader` (`ocs_sensor`): the average of several readings of an ADC.

The number of samples is checked against the bit width before the loop, by a comparison of doubles; a quotient by a power of
two is exact, so rational numbers compute the same. The reader and the delayer may fail at any turn.

- `readLoop_spec`: the total is the sum of the samples and stays in `int`, or the loop ends at the first failure.
- `read_averages`: a result is the floor of the mean, between the smallest and the largest sample; after an error the
  caller's value is untouched.
-/
import ControlComponents.Sensor.AnalogConfig

namespace ControlComponents.Sensor

/-! ## Model -/

/-- the values of an `int` -/
def InInt (x : ℤ) : Prop := -2 ^ 31 ≤ x ∧ x < 2 ^ 31

instance (x : ℤ) : Decidable (InInt x) := by
  unfold InInt; infer_instance

def intMax : ℤ := 2147483647

/-- what the ADC and the delayer do at each turn: the status and the value of a reading, and the status of the delay -/
structure Peripherals where
  reading : ℕ → StatusCode × ℤ
  delay : ℕ → StatusCode

namespace AnalogSampleReader

/-- the loop of `read` over the remaining samples, from the `n`-th one on; `none` if the total overflows -/
def readLoop (p : Peripherals) : ℕ → ℕ → ℤ → Option (StatusCode × ℤ)
  | 0, _, total => some (.ok, total)
  | k + 1, n, total =>
    match p.reading n with
    | (.ok, result) =>
      if InInt (total + result) then
        match p.delay n with
        | .ok => readLoop p k (n + 1) (total + result)
        | code => some (code, total + result)
      else none
    | (code, _) => some (code, total)

/-- the status and the caller's value after `read` -/
def read (config : AnalogConfig) (p : Peripherals) (raw : ℤ) : Option (StatusCode × ℤ) :=
  let sampleCount := config.getSampleCount
  if sampleCount = 0 then some (.invalidState, raw)
  else
    let bitwidth := config.getBitwidth
    if bitwidth = 0 then some (.invalidState, raw)
    else
      let maxValue : ℚ := 2 ^ bitwidth
      let maxSampleCount := intMax / maxValue
      if maxSampleCount < sampleCount.toNat then some (.invalidState, raw)
      else
        match readLoop p sampleCount.toNat 0 0 with
        | none => none
        | some (.ok, total) => some (.ok, total.tdiv sampleCount.toNat)
        | some (code, _) => some (code, raw)

end AnalogSampleReader

/-! ## Samples -/

/-- the first samples -/
def samples (p : Peripherals) (k : ℕ) : List ℤ := (List.range k).map fun n => (p.reading n).2

/-- no step of the first turns fails -/
def Completes (p : Peripherals) (k : ℕ) : Prop := ∀ n < k, (p.reading n).1 = .ok ∧ p.delay n = .ok

/-- the samples that are read lie between 0 and `2 ^ bitwidth` -/
def SamplesFit (p : Peripherals) (bitwidth : ℕ) : Prop :=
  ∀ n, (p.reading n).1 = .ok → 0 ≤ (p.reading n).2 ∧ (p.reading n).2 ≤ 2 ^ bitwidth

theorem samples_succ (p : Peripherals) (k : ℕ) : samples p (k + 1) = samples p k ++ [(p.reading k).2] := by
  simp [samples, List.range_succ]

@[simp] theorem length_samples (p : Peripherals) (k : ℕ) : (samples p k).length = k := by
  simp [samples]

/-- a list whose members lie between two bounds has its sum between the multiples of them -/
theorem sum_mem_bounds {l : List ℤ} {lo hi : ℤ} (h : ∀ x ∈ l, lo ≤ x ∧ x ≤ hi) :
    l.length * lo ≤ l.sum ∧ l.sum ≤ l.length * hi := by
  have hlo := List.card_nsmul_le_sum l lo fun x hx => (h x hx).1
  have hhi := List.sum_le_card_nsmul l hi fun x hx => (h x hx).2
  rw [nsmul_eq_mul] at hlo hhi
  exact ⟨hlo, hhi⟩

/-- the mean lies between the bounds -/
theorem mean_mem_bounds {l : List ℤ} (hne : l ≠ []) {lo hi : ℤ} (h : ∀ x ∈ l, lo ≤ x ∧ x ≤ hi) :
    lo ≤ l.sum / l.length ∧ l.sum / l.length ≤ hi := by
  have hpos : 0 < (l.length : ℤ) := by exact_mod_cast List.length_pos_of_ne_nil hne
  obtain ⟨hlo, hhi⟩ := sum_mem_bounds h
  refine ⟨?_, ?_⟩
  · exact (Int.le_ediv_iff_mul_le hpos).2 (by rwa [mul_comm])
  · exact Int.ediv_le_of_le_mul hpos (by rwa [mul_comm])

theorem samples_bounds {p : Peripherals} {bitwidth : ℕ} (hfit : SamplesFit p bitwidth) {k : ℕ} (hdone : Completes p k) :
    ∀ x ∈ samples p k, 0 ≤ x ∧ x ≤ 2 ^ bitwidth := by
  intro x hx
  obtain ⟨n, hn, rfl⟩ := List.mem_map.1 hx
  exact hfit n (hdone n (List.mem_range.1 hn)).1

theorem Completes.succ {p : Peripherals} {k : ℕ} (h : Completes p k) (hreading : (p.reading k).1 = .ok)
    (hdelay : p.delay k = .ok) : Completes p (k + 1) := by
  intro n hn
  rcases Nat.lt_succ_iff_lt_or_eq.1 hn with hn | rfl
  · exact h n hn
  · exact ⟨hreading, hdelay⟩

/-! ## The loop -/

namespace AnalogSampleReader

/-- **The loop**: with room for the largest total of all samples it does not overflow; it adds them up if nothing fails, and
ends with an error otherwise. -/
theorem readLoop_spec {p : Peripherals} {bitwidth : ℕ} (hfit : SamplesFit p bitwidth) (k n : ℕ) (hdone : Completes p n)
    (hroom : ((n + k : ℕ) : ℤ) * 2 ^ bitwidth ≤ intMax) :
    (readLoop p k n (samples p n).sum = some (.ok, (samples p (n + k)).sum) ∧ Completes p (n + k)) ∨
    ∃ code total, readLoop p k n (samples p n).sum = some (code, total) ∧ code ≠ .ok := by
  induction k generalizing n with
  | zero => exact Or.inl ⟨rfl, hdone⟩
  | succ k ih =>
    rw [readLoop]
    cases hreading : p.reading n with
    | mk code result =>
      cases code with
      | ok =>
        -- the total with this sample is one of `n + 1` samples
        have hsum := sum_mem_bounds (samples_bounds hfit hdone)
        have hresult := hfit n (by rw [hreading])
        rw [hreading] at hresult
        rw [length_samples, mul_zero] at hsum
        have hint : InInt ((samples p n).sum + result) := by
          have hpow : (0 : ℤ) ≤ k * 2 ^ bitwidth := by positivity
          have htotal : (samples p n).sum + result ≤ intMax := by
            push_cast at hroom
            linarith [hsum.2, hresult.2]
          refine ⟨by linarith [hsum.1, hresult.1], ?_⟩
          exact lt_of_le_of_lt htotal (by norm_num [intMax])
        have hnext : (samples p n).sum + result = (samples p (n + 1)).sum := by
          rw [samples_succ, hreading, List.sum_append, List.sum_singleton]
        simp only [hint, if_true]
        cases hdelay : p.delay n with
        | ok =>
          rw [hnext, show n + (k + 1) = n + 1 + k by omega]
          refine ih (n + 1) (hdone.succ (by rw [hreading]) hdelay) ?_
          rwa [show n + 1 + k = n + (k + 1) by omega]
        | _ => exact Or.inr ⟨_, _, rfl, by decide⟩
      | _ => exact Or.inr ⟨_, _, rfl, by decide⟩

/-- the comparison of doubles: all samples together fit into an `int` -/
theorem guard_iff (sampleCount bitwidth : ℕ) :
    ¬(intMax : ℚ) / 2 ^ bitwidth < sampleCount ↔ (sampleCount : ℤ) * 2 ^ bitwidth ≤ intMax := by
  rw [not_lt, le_div_iff₀ (by positivity)]
  exact_mod_cast Iff.rfl

/-- what a call of `read` reports and leaves in the caller's variable -/
structure Averages (config : AnalogConfig) (p : Peripherals) (raw : ℤ) (code : StatusCode) (raw' : ℤ) : Prop where
  /-- an error leaves the caller's value as it was -/
  untouched : code ≠ .ok → raw' = raw
  completes : code = .ok → Completes p config.getSampleCount.toNat
  mean : code = .ok → raw' = ⌊((samples p config.getSampleCount.toNat).sum : ℚ) / config.getSampleCount.toNat⌋
  /-- the result lies between the smallest and the largest sample -/
  between : code = .ok → ∃ lo ∈ samples p config.getSampleCount.toNat, ∃ hi ∈ samples p config.getSampleCount.toNat,
    (∀ x ∈ samples p config.getSampleCount.toNat, lo ≤ x ∧ x ≤ hi) ∧ lo ≤ raw' ∧ raw' ≤ hi

theorem Averages.of_error {config : AnalogConfig} {p : Peripherals} {raw : ℤ} {code : StatusCode} (h : code ≠ .ok) :
    Averages config p raw code raw :=
  { untouched := fun _ => rfl, completes := fun hok => absurd hok h, mean := fun hok => absurd hok h,
    between := fun hok => absurd hok h }

theorem exists_bounds {l : List ℤ} (hne : l ≠ []) : ∃ lo ∈ l, ∃ hi ∈ l, ∀ x ∈ l, lo ≤ x ∧ x ≤ hi := by
  have hfin : l.toFinset.Nonempty := (List.toFinset_nonempty_iff l).2 hne
  obtain ⟨lo, hlo, hmin⟩ := l.toFinset.exists_min_image id hfin
  obtain ⟨hi, hhi, hmax⟩ := l.toFinset.exists_max_image id hfin
  simp only [List.mem_toFinset, id_eq] at hlo hmin hhi hmax
  exact ⟨lo, hlo, hi, hhi, fun x hx => ⟨hmin x hx, hmax x hx⟩⟩

/-- the quotient of a complete total -/
theorem Averages.of_total {config : AnalogConfig} {p : Peripherals} {raw : ℤ} (hfit : SamplesFit p config.getBitwidth)
    (hpos : 0 < config.getSampleCount.toNat) (hdone : Completes p config.getSampleCount.toNat) :
    Averages config p raw .ok ((samples p config.getSampleCount.toNat).sum.tdiv config.getSampleCount.toNat) := by
  have hlen := length_samples p config.getSampleCount.toNat
  have hne : samples p config.getSampleCount.toNat ≠ [] := List.ne_nil_of_length_pos (by rwa [hlen])
  have hnonneg : 0 ≤ (samples p config.getSampleCount.toNat).sum :=
    List.sum_nonneg fun x hx => (samples_bounds hfit hdone x hx).1
  rw [Int.tdiv_eq_ediv_of_nonneg hnonneg]
  obtain ⟨lo, hlo, hi, hhi, hall⟩ := exists_bounds hne
  have hmean := mean_mem_bounds hne hall
  rw [hlen] at hmean
  exact { untouched := fun h => absurd rfl h, completes := fun _ => hdone,
          mean := fun _ => (Rat.floor_intCast_div_natCast _ _).symm, between := fun _ => ⟨lo, hlo, hi, hhi, hall, hmean⟩ }

/-- **Averages**: whatever the configuration, the samples and the failures, `read` does not overflow; its result is the floor
of the mean of all samples, and an error leaves the caller's value untouched. -/
theorem read_averages (config : AnalogConfig) (p : Peripherals) (raw : ℤ) (hfit : SamplesFit p config.getBitwidth) :
    ∃ code raw', read config p raw = some (code, raw') ∧ Averages config p raw code raw' := by
  have hinvalid : StatusCode.invalidState ≠ .ok := by decide
  unfold read
  simp only
  split_ifs with hcount hbitwidth hguard
  · exact ⟨_, _, rfl, .of_error hinvalid⟩
  · exact ⟨_, _, rfl, .of_error hinvalid⟩
  · exact ⟨_, _, rfl, .of_error hinvalid⟩
  · have hpos : 0 < config.getSampleCount.toNat := Nat.pos_of_ne_zero fun h => hcount (BitVec.eq_of_toNat_eq h)
    have hroom := (guard_iff config.getSampleCount.toNat config.getBitwidth).1 hguard
    rcases readLoop_spec hfit config.getSampleCount.toNat 0 (fun n hn => absurd hn (Nat.not_lt_zero n))
        (by rwa [Nat.zero_add]) with ⟨hloop, hdone⟩ | ⟨code, total, hloop, hcode⟩
    · rw [Nat.zero_add] at hloop hdone
      rw [show (0 : ℤ) = (samples p 0).sum from rfl, hloop]
      exact ⟨_, _, rfl, .of_total hfit hpos hdone⟩
    · rw [show (0 : ℤ) = (samples p 0).sum from rfl, hloop]
      refine ⟨code, raw, ?_, .of_error hcode⟩
      cases code with
      | ok => exact absurd rfl hcode
      | _ => rfl

def tenBits : AnalogConfig := ⟨⟨"soil", 1, 2, 10, .mode8⟩, 1, 2, .mode8⟩

/-- samples that rise to the largest value of ten bits and start again -/
def rising : Peripherals := ⟨fun n => (.ok, 128 * ((n % 8 : ℕ) + 1)), fun _ => .ok⟩

/-- eight samples from 128 to 1024 -/
theorem read_averages_rising : read tenBits rising (-1) = some (.ok, 576) ∧
    ∃ code raw', read tenBits rising (-1) = some (code, raw') ∧ Averages tenBits rising (-1) code raw' := by
  refine ⟨by decide +kernel, read_averages tenBits rising (-1) ?_⟩
  intro n _
  have hbitwidth : tenBits.getBitwidth = 10 := rfl
  rw [hbitwidth]
  simp only [rising]
  omega

end AnalogSampleReader

end ControlComponents.Sensor
