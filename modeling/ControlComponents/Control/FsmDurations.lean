/-
Durations of states across restarts (`fsm_block`): a block updated, moved and saved in one session after another, each of
which ends with `handle_reboot` and starts again with the record that was saved and a clock at 0.

The duration is split over the value at the last restart, the reading at which the state was entered and the value of the
last update. `Ledger` keeps these, and the time really spent in the state, as numbers without bounds.

- `Inv`: the block holds what the ledger says; `step_inv` for one event.
- `durations_survive`: with a positive resolution, and as long as durations fit into a `Time`, updates follow the ledger,
  durations do not decrease between transitions and are off by less than a unit a session, and a transition stores the
  last value of the state it leaves. `durations_stated_false` shows what happens without these conditions.
-/
import ControlComponents.Control.FsmBlock
import ControlComponents.Lib.Runs

namespace ControlComponents.Control.FsmDurations

open ControlComponents.Lib.KeyedWrites ControlComponents.Lib.Runs ControlComponents.Storage

/-! ## Sessions -/

/-- an operation on the block with the clock reading it takes; after a reboot the next session has begun -/
inductive Event where
  | update (now : Time)
  | setNext (state : State)
  | transit (now : Time)
  | save
  | reboot (now : Time)

def Event.isTransit : Event → Bool
  | .transit _ => true
  | _ => false

/-- what the durations of a block are to be -/
structure Ledger where
  /-- of the previous state -/
  previous : ℤ
  /-- the value of the last update since the state was entered, 0 if there was none -/
  current : ℤ
  /-- the value of the last update, be it of another state -/
  updated : ℤ
  /-- the value at the previous reboot, 0 in the session in which the state was entered -/
  atReboot : ℤ
  /-- the reading at which the state was entered, 0 in later sessions -/
  entered : ℤ
  /-- the time spent in the state in earlier sessions -/
  earlier : ℤ
  /-- the number of these sessions -/
  sessions : ℕ
deriving DecidableEq

namespace Ledger

def zero : Ledger := ⟨0, 0, 0, 0, 0, 0, 0⟩

/-- the value of an update: whole units since the state was entered or the session began -/
def value (l : Ledger) (resolution now : ℤ) : ℤ := l.atReboot + (now - l.entered).fdiv resolution

/-- the time spent in the state -/
def spent (l : Ledger) (now : ℤ) : ℤ := l.earlier + (now - l.entered)

def step (l : Ledger) (resolution : ℤ) : Event → Ledger
  | .update now => { l with current := l.value resolution now.toInt, updated := l.value resolution now.toInt }
  | .setNext _ => l
  | .transit now =>
    { l with previous := l.current, current := 0, atReboot := 0, entered := now.toInt, earlier := 0, sessions := 0 }
  | .save => l
  | .reboot now =>
    let value := l.value resolution now.toInt
    { l with
      current := value
      updated := value
      atReboot := value
      entered := 0
      earlier := l.spent now.toInt
      sessions := l.sessions + 1 }

end Ledger

/-- a block and its storage; the last reading of the session and the ledger are not part of the code -/
structure Life where
  block : FsmBlock
  store : Store
  clock : ℤ
  ledger : Ledger

namespace Life

def start (resolution : Resolution) (store : Store) : Life := ⟨.init resolution .none store, store, 0, .zero⟩

/-- no access to the storage fails -/
def stepBlock (w : Life) : Event → FsmBlock × Store
  | .update now => (w.block.update now, w.store)
  | .setNext state => (w.block.setNext state, w.store)
  | .transit now => (w.block.transit now .none w.store).2
  | .save => (w.block.run .none w.store).2
  | .reboot now =>
    let store := (w.block.handleReboot now .none w.store).2
    (.init w.block.resolution .none store, store)

/-- the last reading of the session -/
def stepClock (w : Life) : Event → ℤ
  | .update now => now.toInt
  | .transit now => now.toInt
  | .reboot _ => 0
  | _ => w.clock

def step (w : Life) (e : Event) : Life where
  block := (w.stepBlock e).1
  store := (w.stepBlock e).2
  clock := w.stepClock e
  ledger := w.ledger.step w.block.resolution.1.toInt e

/-- the clock of a session starts at 0 and does not go back -/
def ClockRuns (w : Life) : Event → Prop
  | .update now => w.clock ≤ now.toInt
  | .setNext _ => True
  | .transit now => w.clock ≤ now.toInt
  | .save => True
  | .reboot now => w.clock ≤ now.toInt

instance (w : Life) (e : Event) : Decidable (w.ClockRuns e) := by
  cases e <;> unfold ClockRuns <;> infer_instance

/-- the duration fits into a `Time` -/
def DurationFits (w : Life) (e : Event) : Prop := (w.ledger.step w.block.resolution.1.toInt e).current < 2 ^ 63

instance (w : Life) (e : Event) : Decidable (w.DurationFits e) := by
  unfold DurationFits; infer_instance

end Life

/-! ## The law -/

/-- the durations of a block and of its next step; `stored` is what a transition is to store -/
structure DurationLaw (stored : Ledger → ℤ) (w : Life) (e : Event) : Prop where
  current : w.block.currStateDur.toInt = w.ledger.current
  previous : w.block.prevStateDur.toInt = w.ledger.previous
  /-- an update gives the value of the ledger -/
  update : ∀ now, e = .update now →
    (w.step e).block.currStateDur.toInt = w.ledger.value w.block.resolution.1.toInt now.toInt
  /-- which is off by less than one unit for each session -/
  error : ∀ now, e = .update now →
    |w.ledger.spent now.toInt - w.block.resolution.1.toInt * (w.step e).block.currStateDur.toInt| <
      (w.ledger.sessions + 1) * w.block.resolution.1.toInt
  monotone : e.isTransit = false → w.block.currStateDur.toInt ≤ (w.step e).block.currStateDur.toInt
  transit : ∀ now, e = .transit now → (w.step e).block.prevStateDur.toInt = stored w.ledger

/-- the law as it is stated: after every history of a new block, a transition stores the value of the last update -/
def DurationsSurvive : Prop :=
  ∀ (resolution : Resolution) (store : Store), Absent store → ∀ (es : List Event) (e : Event),
    Guarded Life.step Life.ClockRuns (.start resolution store) (es ++ [e]) →
    DurationLaw Ledger.updated (run Life.step (.start resolution store) es) e

/-! ## The block and the ledger -/

/-- the block holds what the ledger says -/
structure Inv (resolution : Resolution) (w : Life) : Prop where
  same : w.block.resolution = resolution
  current : w.block.currStateDur.toInt = w.ledger.current
  previous : w.block.prevStateDur.toInt = w.ledger.previous
  saved : w.block.savedTs.toInt = w.ledger.atReboot
  start : w.block.startTs.toInt = w.ledger.entered
  enteredNonneg : 0 ≤ w.ledger.entered
  enteredLe : w.ledger.entered ≤ w.clock
  clockLt : w.clock < 2 ^ 63
  atRebootNonneg : 0 ≤ w.ledger.atReboot
  atRebootLe : w.ledger.atReboot ≤ w.ledger.current
  /-- the last update is not ahead of the clock -/
  currentLe : w.ledger.current ≤ w.ledger.value resolution.1.toInt w.clock
  currentLt : w.ledger.current < 2 ^ 63
  errorNonneg : resolution.1.toInt * w.ledger.atReboot ≤ w.ledger.earlier
  errorLe : w.ledger.earlier ≤
    resolution.1.toInt * w.ledger.atReboot + w.ledger.sessions * (resolution.1.toInt - 1)

section

variable {resolution : Resolution} (hres : 0 < resolution.1.toInt)

include hres

theorem Ledger.value_eq (l : Ledger) (now : ℤ) :
    l.value resolution.1.toInt now = l.atReboot + (now - l.entered) / resolution.1.toInt := by
  rw [Ledger.value, Int.fdiv_eq_ediv_of_nonneg _ hres.le]

theorem Ledger.value_mono (l : Ledger) {a b : ℤ} (hab : a ≤ b) :
    l.value resolution.1.toInt a ≤ l.value resolution.1.toInt b := by
  rw [l.value_eq hres, l.value_eq hres]
  have h : (a - l.entered) / resolution.1.toInt ≤ (b - l.entered) / resolution.1.toInt :=
    Int.ediv_le_ediv hres (by omega)
  omega

/-- the time that is not in whole units of the session -/
theorem Ledger.spent_sub (l : Ledger) (now : ℤ) :
    l.spent now - resolution.1.toInt * l.value resolution.1.toInt now =
      l.earlier - resolution.1.toInt * l.atReboot + (now - l.entered) % resolution.1.toInt := by
  have h := Int.emod_add_mul_ediv (now - l.entered) resolution.1.toInt
  rw [l.value_eq hres, Ledger.spent, mul_add]
  omega

/-- the time an update loses: none, or less than a unit for each session -/
theorem Inv.error {w : Life} (h : Inv resolution w) (now : ℤ) :
    0 ≤ w.ledger.spent now - resolution.1.toInt * w.ledger.value resolution.1.toInt now ∧
    w.ledger.spent now - resolution.1.toInt * w.ledger.value resolution.1.toInt now ≤
      (w.ledger.sessions + 1) * (resolution.1.toInt - 1) := by
  have hnonneg := Int.emod_nonneg (now - w.ledger.entered) hres.ne'
  have hlt := Int.emod_lt_of_pos (now - w.ledger.entered) hres
  have hlo := h.errorNonneg
  have hhi := h.errorLe
  rw [w.ledger.spent_sub hres, add_mul, one_mul]
  refine ⟨?_, ?_⟩
  · omega
  · omega

/-- **An update follows the ledger** if its value fits -/
theorem Inv.update {w : Life} (h : Inv resolution w) {now : Time} (hclock : w.clock ≤ now.toInt)
    (hfits : w.ledger.value resolution.1.toInt now.toInt < 2 ^ 63) :
    (w.block.update now).currStateDur.toInt = w.ledger.value resolution.1.toInt now.toInt := by
  have hnow : now.toInt < 2 ^ 63 := by simpa using BitVec.toInt_lt (x := now)
  have hentered := h.enteredNonneg
  have hle := h.enteredLe
  have hreboot := h.atRebootNonneg
  have hquot : 0 ≤ (now.toInt - w.ledger.entered) / resolution.1.toInt := Int.ediv_nonneg (by omega) hres.le
  have htdiv : (now.toInt - w.ledger.entered).tdiv resolution.1.toInt =
      (now.toInt - w.ledger.entered) / resolution.1.toInt := Int.tdiv_eq_ediv_of_nonneg (by omega)
  have hduration : w.block.duration now.toInt = w.ledger.value resolution.1.toInt now.toInt := by
    rw [FsmBlock.duration, h.saved, h.start, h.same, htdiv, w.ledger.value_eq hres]
  rw [w.ledger.value_eq hres] at hfits
  rw [← hduration, FsmBlock.update_toInt]
  refine ⟨?_, ?_, ?_⟩
  · rw [h.start]
    exact ⟨by omega, by omega⟩
  · rw [h.start, h.same, htdiv]
    exact ⟨by omega, by omega⟩
  · rw [hduration, w.ledger.value_eq hres]
    exact ⟨by omega, hfits⟩

end

/-! ## Saving and restarting -/

/-- a save without failures changes nothing but the count -/
theorem write_none (b : FsmBlock) (s : Store) :
    (b.write_ .none s).2.1 = { b with writeCount := b.writeCount + 1 } ∧
    Holds (b.write_ .none s).2.2 { b.toRecord with writeCount := b.writeCount + 1 } := by
  rw [(b.write_spec .none s).1]
  refine ⟨rfl, ?_⟩
  intro p hp
  rw [putAll_of_ok _ _ _ fun _ _ => rfl]
  exact lookup_insertAll_of_mem _ _ _ _ ((keys_image _).symm ▸ nodup_keys) hp

/-- **A restart** restores the saved durations; the one of the current state goes on from its saved value. -/
theorem init_saved (resolution : Resolution) {s : Store} {r : Record} (hs : Holds s r) :
    FsmBlock.init resolution .none s =
      { toRecord := r, resolution := resolution, nextState := 0, startTs := 0, savedTs := r.currStateDur } := by
  simp [FsmBlock.init, FsmBlock.read_none hs]

theorem init_absent (resolution : Resolution) {s : Store} (hs : Absent s) :
    FsmBlock.init resolution .none s =
      { toRecord := .zero, resolution := resolution, nextState := 0, startTs := 0, savedTs := 0 } := by
  obtain ⟨hcode, hrecord⟩ := FsmBlock.read_absent hs .none .zero
  simp [FsmBlock.init, hcode, hrecord]

theorem start_inv (resolution : Resolution) (hres : 0 < resolution.1.toInt) {store : Store} (hstore : Absent store) :
    Inv resolution (.start resolution store) := by
  unfold Life.start
  rw [init_absent resolution hstore]
  exact { same := rfl, current := rfl, previous := rfl, saved := rfl, start := rfl, enteredNonneg := le_rfl,
          enteredLe := le_rfl, clockLt := by norm_num, atRebootNonneg := le_rfl, atRebootLe := le_rfl,
          currentLe := by rw [Ledger.value_eq hres]; simp [Ledger.zero], currentLt := by norm_num [Ledger.zero],
          errorNonneg := by simp [Ledger.zero], errorLe := by simp [Ledger.zero] }

theorem toInt_lt (now : Time) : now.toInt < 2 ^ 63 := by
  simpa using BitVec.toInt_lt (x := now)

theorem Inv.stepUpdate {resolution : Resolution} (hres : 0 < resolution.1.toInt) {w : Life} (h : Inv resolution w)
    {now : Time} (hclock : w.clock ≤ now.toInt) (hfits : w.ledger.value resolution.1.toInt now.toInt < 2 ^ 63) :
    Inv resolution (w.step (.update now)) := by
  have hmono := w.ledger.value_mono hres hclock
  have hcurrent := h.currentLe
  have hreboot := h.atRebootLe
  have hentered := h.enteredLe
  simp only [Life.step, Life.stepBlock, Life.stepClock, Ledger.step, h.same]
  exact { same := h.same, current := h.update hres hclock hfits, previous := h.previous, saved := h.saved,
          start := h.start, enteredNonneg := h.enteredNonneg, enteredLe := hentered.trans hclock,
          clockLt := toInt_lt now, atRebootNonneg := h.atRebootNonneg,
          atRebootLe := hreboot.trans (hcurrent.trans hmono), currentLe := le_rfl, currentLt := hfits,
          errorNonneg := h.errorNonneg, errorLe := h.errorLe }

theorem Inv.stepTransit {resolution : Resolution} (hres : 0 < resolution.1.toInt) {w : Life} (h : Inv resolution w)
    {now : Time} (hclock : w.clock ≤ now.toInt) : Inv resolution (w.step (.transit now)) := by
  have hentered := h.enteredLe
  have hnonneg := h.enteredNonneg
  simp only [Life.step, Life.stepBlock, Life.stepClock, Ledger.step, FsmBlock.transit, (write_none _ _).1]
  exact { same := h.same, current := rfl, previous := h.current, saved := rfl, start := rfl,
          enteredNonneg := hnonneg.trans (hentered.trans hclock), enteredLe := le_rfl, clockLt := toInt_lt now,
          atRebootNonneg := le_rfl, atRebootLe := le_rfl, currentLe := by rw [Ledger.value_eq hres]; simp,
          currentLt := by norm_num, errorNonneg := by simp, errorLe := by simp }

theorem Inv.stepSave {resolution : Resolution} {w : Life} (h : Inv resolution w) : Inv resolution (w.step .save) := by
  simp only [Life.step, Life.stepBlock, Life.stepClock, Ledger.step, FsmBlock.run, (write_none _ _).1]
  exact { same := h.same, current := h.current, previous := h.previous, saved := h.saved, start := h.start,
          enteredNonneg := h.enteredNonneg, enteredLe := h.enteredLe, clockLt := h.clockLt,
          atRebootNonneg := h.atRebootNonneg, atRebootLe := h.atRebootLe, currentLe := h.currentLe,
          currentLt := h.currentLt, errorNonneg := h.errorNonneg, errorLe := h.errorLe }

/-- after a reboot the session begins with the value of the update that `handle_reboot` makes -/
theorem Inv.stepReboot {resolution : Resolution} (hres : 0 < resolution.1.toInt) {w : Life} (h : Inv resolution w)
    {now : Time} (hclock : w.clock ≤ now.toInt) (hfits : w.ledger.value resolution.1.toInt now.toInt < 2 ^ 63) :
    Inv resolution (w.step (.reboot now)) := by
  have hmono := w.ledger.value_mono hres hclock
  have hnonneg := h.atRebootNonneg.trans (h.atRebootLe.trans (h.currentLe.trans hmono))
  have hvalue := h.update hres hclock hfits
  obtain ⟨herror, herrorLe⟩ := h.error hres now.toInt
  simp only [Life.step, Life.stepBlock, Life.stepClock, Ledger.step, FsmBlock.handleReboot,
    init_saved _ (write_none _ _).2, h.same]
  exact { same := rfl, current := hvalue, previous := h.previous, saved := hvalue, start := rfl, enteredNonneg := le_rfl,
          enteredLe := le_rfl, clockLt := by norm_num, atRebootNonneg := hnonneg, atRebootLe := le_rfl,
          currentLe := by simp [Ledger.value], currentLt := hfits,
          errorNonneg := by simp only; omega, errorLe := by simp only; push_cast; omega }

/-- **One event** keeps the block and the ledger together -/
theorem step_inv {resolution : Resolution} (hres : 0 < resolution.1.toInt) {w : Life} {e : Event}
    (h : Inv resolution w) (hclock : w.ClockRuns e) (hfits : w.DurationFits e) : Inv resolution (w.step e) := by
  unfold Life.DurationFits at hfits
  rw [h.same] at hfits
  cases e with
  | update now => exact h.stepUpdate hres hclock hfits
  | setNext state => exact { h with }
  | transit now => exact h.stepTransit hres hclock
  | save => exact h.stepSave
  | reboot now => exact h.stepReboot hres hclock hfits

/-- what one event does to the durations -/
theorem Inv.law {resolution : Resolution} (hres : 0 < resolution.1.toInt) {w : Life} {e : Event}
    (h : Inv resolution w) (hclock : w.ClockRuns e) (hfits : w.DurationFits e) : DurationLaw Ledger.current w e := by
  have hnext := step_inv hres h hclock hfits
  have hupdate : ∀ now, e = .update now →
      (w.step e).block.currStateDur.toInt = w.ledger.value w.block.resolution.1.toInt now.toInt := by
    rintro now rfl
    exact hnext.current
  refine { current := h.current, previous := h.previous, update := hupdate, error := ?_, monotone := ?_, transit := ?_ }
  · intro now he
    obtain ⟨hnonneg, hle⟩ := h.error hres now.toInt
    rw [hupdate now he, h.same, abs_of_nonneg hnonneg]
    rw [mul_sub, mul_one] at hle
    omega
  · intro htransit
    rw [h.current, hnext.current]
    -- the value of an update with a later reading
    have hvalue : ∀ now : Time, w.clock ≤ now.toInt →
        w.ledger.current ≤ w.ledger.value w.block.resolution.1.toInt now.toInt := by
      intro now hle
      rw [h.same]
      exact h.currentLe.trans (w.ledger.value_mono hres hle)
    cases e with
    | update now => exact hvalue now hclock
    | setNext state => exact le_rfl
    | transit now => cases htransit
    | save => exact le_rfl
    | reboot now => exact hvalue now hclock
  · rintro now rfl
    exact hnext.previous

/-- an event that takes place with a clock that runs and a duration that fits -/
def Life.Allowed (w : Life) (e : Event) : Prop := w.ClockRuns e ∧ w.DurationFits e

instance (w : Life) (e : Event) : Decidable (w.Allowed e) := by
  unfold Life.Allowed; infer_instance

theorem run_durations {resolution : Resolution} (hres : 0 < resolution.1.toInt) {w : Life} (h : Inv resolution w)
    (es : List Event) (hes : Guarded Life.step Life.Allowed w es) : Inv resolution (run Life.step w es) := by
  have hstep : ∀ w e, Inv resolution w → w.Allowed e → Inv resolution (w.step e) := fun w e hw he =>
    step_inv hres hw he.1 he.2
  exact run_inv hstep h es hes

/-- **Durations survive restarts**: over every sequence of sessions of a block that starts without a saved record, with a
positive resolution and durations that fit, the next event keeps the law, a transition storing the value of the last update
of the state it leaves. -/
theorem durations_survive {resolution : Resolution} (hres : 0 < resolution.1.toInt) {store : Store}
    (hstore : Absent store) (es : List Event) (e : Event)
    (hes : Guarded Life.step Life.Allowed (.start resolution store) (es ++ [e])) :
    DurationLaw Ledger.current (run Life.step (.start resolution store) es) e := by
  obtain ⟨hes, he⟩ := (guarded_append _ es [e]).1 hes
  exact (run_durations hres (start_inv resolution hres hstore) es hes).law hres he.1.1 he.1.2

/-- a state entered at 1.5 s of the first session, updated at 4.2 s, saved by a reboot at 5 s, and updated again at 2 s
of the second session, with a resolution of a second -/
theorem durations_survive_restart :
    DurationLaw Ledger.current (run Life.step (.start ⟨1000000, second_ne_zero⟩ ∅)
      [.setNext 2, .transit 1500000, .update 4200000, .reboot 5000000]) (.update 2000000) :=
  durations_survive (by decide) (fun _ _ => rfl) _ _ (by decide +kernel)

/-- a negative unit of time -/
def negativeResolution : Resolution := ⟨-2, by decide⟩

def microsecond : Resolution := ⟨1, by decide⟩

/-- the last moment of a clock -/
def lastMoment : Time := 0x7FFFFFFFFFFFFFFF

/-- **Not so without the conditions**: of two transitions in a row the second stores 0, not the value of the last update;
the division is towards zero, not down, with a negative resolution; and a duration over two sessions may overflow. -/
theorem durations_stated_false : ¬DurationsSurvive ∧
    (run Life.step (.start ⟨1000000, second_ne_zero⟩ ∅)
      [.update 5000000, .transit 5000000, .transit 5000000]).block.prevStateDur = 0 ∧
    (run Life.step (.start negativeResolution ∅) [.update 3]).block.currStateDur = -1 ∧
    (run Life.step (.start microsecond ∅) [.reboot lastMoment, .update lastMoment]).block.currStateDur = -2 := by
  refine ⟨?_, by decide +kernel, by decide +kernel, by decide +kernel⟩
  intro h
  have hlaw := h ⟨1000000, second_ne_zero⟩ ∅ (fun _ _ => rfl) [.update 5000000, .transit 5000000] (.transit 5000000)
    (by decide +kernel)
  exact absurd (hlaw.transit 5000000 rfl) (by decide +kernel)

end ControlComponents.Control.FsmDurations
