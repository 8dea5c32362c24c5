/-
`RateLimiter` (`ocs_core`) over `TimeOps::after` (`ocs_algo`): an operation at most once per interval.

A reading of 0 in `start_` means that the operation has not been performed yet. An operation performed at a reading of 0
is therefore forgotten, and the next reading is allowed whatever its distance.

- `after_iff`: for a clock that does not go back, `after` is the comparison of times without overflow.
- `follows_iff`: the limiter follows its schedule iff no reading comes less than the interval after an operation at 0.
-/
import ControlComponents.Algo.TimeOps
import ControlComponents.Basic

namespace ControlComponents.Core

/-! ## Model -/

/-- `core::Time`, microseconds in a signed 64-bit number -/
abbrev Time := BitVec 64

/-- `TimeOps::after`; the sum wraps around -/
def after (start now interval : Time) : Bool :=
  let dest := start + interval
  if now.slt start then
    if start.slt dest then true
    else if dest.sle now then true
    else false
  else if now.slt dest then false
  else if dest.slt start then false
  else true

/-- a positive time (`configASSERT(interval > 0)`) -/
abbrev Interval := {interval : Time // 0 < interval.toInt}

structure RateLimiter where
  interval : Interval
  start : Time

namespace RateLimiter

def new (interval : Interval) : RateLimiter := ⟨interval, 0⟩

/-- `allow` at the clock reading `now` -/
def allow (l : RateLimiter) (now : Time) : Bool × RateLimiter :=
  if l.start ≠ 0 ∧ after l.start now l.interval = false then (false, l)
  else (true, { l with start := now })

/-- the calls at the given readings -/
def allowAll (l : RateLimiter) : List Time → List Bool × RateLimiter
  | [] => ([], l)
  | now :: readings =>
    let (allowed, l) := l.allow now
    let (rest, l) := allowAll l readings
    (allowed :: rest, l)

end RateLimiter

/-! ## The schedule -/

/-- the operation is due: it has not been performed, or at least the interval has passed since -/
def Due (interval : ℤ) (last : Option ℤ) (now : ℤ) : Prop := ∀ t ∈ last, t + interval ≤ now

instance (interval : ℤ) (last : Option ℤ) (now : ℤ) : Decidable (Due interval last now) := by
  unfold Due; infer_instance

/-- the timing law of a log of readings and decisions, with the reading of the last operation: an operation is performed
exactly when it is due -/
def Follows (interval : ℤ) : Option ℤ → List (ℤ × Bool) → Prop
  | _, [] => True
  | last, (now, performed) :: log =>
    (performed = true ↔ Due interval last now) ∧ Follows interval (if performed then some now else last) log

instance decidableFollows (interval : ℤ) : ∀ (last : Option ℤ) (log : List (ℤ × Bool)),
    Decidable (Follows interval last log)
  | _, [] => .isTrue trivial
  | _, (_, _) :: log => @instDecidableAnd _ _ _ (decidableFollows interval _ log)

/-- no reading comes less than the interval after an operation at 0, where the operation is performed when it is due -/
def Unambiguous (interval : ℤ) : Option ℤ → List ℤ → Prop
  | _, [] => True
  | last, now :: readings =>
    (last = some 0 → interval ≤ now) ∧
      Unambiguous interval (if Due interval last now then some now else last) readings

instance decidableUnambiguous (interval : ℤ) : ∀ (last : Option ℤ) (readings : List ℤ),
    Decidable (Unambiguous interval last readings)
  | _, [] => .isTrue trivial
  | _, _ :: readings => @instDecidableAnd _ _ _ (decidableUnambiguous interval _ readings)

/-! ## Refinement -/

/-- `TimeOps::after` of the signed 64-bit type -/
theorem after_eq (start now interval : Time) : after start now interval = Algo.TimeOps.after .signed start now interval :=
  rfl

/-- without going back, `after` compares the times as numbers -/
theorem after_iff {start now interval : Time} (hpos : 0 < interval.toInt) (hle : start.toInt ≤ now.toInt) :
    after start now interval = true ↔ start.toInt + interval.toInt ≤ now.toInt := by
  rw [after_eq]
  exact Algo.TimeOps.after_forward hpos hle

namespace RateLimiter

/-- `start_` holds the reading of the last operation, or means that there was none -/
def Tracks (l : RateLimiter) : Option ℤ → Prop
  | none => l.start = 0
  | some t => l.start.toInt = t

theorem new_tracks (interval : Interval) : (new interval).Tracks none := rfl

/-- readings of a clock that does not go back, with the decisions of the limiter -/
def log (l : RateLimiter) (readings : List Time) : List (ℤ × Bool) :=
  (readings.map BitVec.toInt).zip (l.allowAll readings).1

theorem log_cons (l : RateLimiter) (now : Time) (readings : List Time) :
    l.log (now :: readings) = (now.toInt, (l.allow now).1) :: (l.allow now).2.log readings := rfl

theorem allow_interval (l : RateLimiter) (now : Time) : (l.allow now).2.interval = l.interval := by
  unfold allow
  split_ifs <;> rfl

theorem allowAll_concat (l : RateLimiter) (readings : List Time) (now : Time) :
    l.allowAll (readings ++ [now]) =
      ((l.allowAll readings).1 ++ [((l.allowAll readings).2.allow now).1], ((l.allowAll readings).2.allow now).2) := by
  induction readings generalizing l with
  | nil => rfl
  | cons r readings ih => simp only [List.cons_append, allowAll, ih]

/-- an operation that is performed is tracked -/
theorem tracks_performed {l : RateLimiter} {now : Time} (h : (l.allow now).1 = true) :
    (l.allow now).2.Tracks (some now.toInt) := by
  unfold allow at h ⊢
  split_ifs at h ⊢
  rfl

theorem allow_refused {l : RateLimiter} {now : Time} (h : (l.allow now).1 = false) : (l.allow now).2 = l := by
  unfold allow at h ⊢
  split_ifs at h ⊢
  rfl

/-- unless the last operation was at 0, an operation is performed when it is due -/
theorem allow_iff {l : RateLimiter} {last : Option ℤ} (hl : l.Tracks last) {now : Time}
    (hle : ∀ t ∈ last, t ≤ now.toInt) (hzero : last ≠ some 0) :
    (l.allow now).1 = true ↔ Due l.interval.1.toInt last now.toInt := by
  cases last with
  | none =>
    have hstart : l.start = 0 := hl
    simp [allow, hstart, Due]
  | some t =>
    have ht : l.start.toInt = t := hl
    have hne : l.start ≠ 0 := by
      intro h
      rw [h] at ht
      exact hzero (congrArg some ht.symm)
    have hafter := after_iff l.interval.2 (ht.trans_le (hle t rfl))
    rw [ht] at hafter
    have hdue : Due l.interval.1.toInt (some t) now.toInt ↔ t + l.interval.1.toInt ≤ now.toInt := by simp [Due]
    rw [hdue, ← hafter]
    unfold allow
    cases hval : after l.start now l.interval with
    | true => simp
    | false =>
      rw [if_pos ⟨hne, rfl⟩]

/-- an operation at 0 is forgotten -/
theorem allow_zero {l : RateLimiter} (hl : l.Tracks (some 0)) (now : Time) : (l.allow now).1 = true := by
  have hstart : l.start = 0 := BitVec.eq_of_toInt_eq hl
  simp [allow, hstart]

/-- **The limiter and its schedule.** At readings that do not go back, the operation is performed exactly when it is due,
iff no reading comes less than the interval after an operation at 0. -/
theorem follows_iff {l : RateLimiter} {last : Option ℤ} (hl : l.Tracks last) (readings : List Time)
    (hle : ∀ t ∈ last, ∀ now ∈ readings, t ≤ now.toInt)
    (hsorted : readings.Pairwise fun a b => a.toInt ≤ b.toInt) :
    Follows l.interval.1.toInt last (l.log readings) ↔
      Unambiguous l.interval.1.toInt last (readings.map BitVec.toInt) := by
  induction readings generalizing l last with
  | nil => rfl
  | cons now readings ih =>
    obtain ⟨hnow, hsorted⟩ := List.pairwise_cons.1 hsorted
    have hhead : ∀ t ∈ last, t ≤ now.toInt := fun t ht => hle t ht now List.mem_cons_self
    rw [log_cons, List.map_cons, Follows, Unambiguous]
    cases hallow : (l.allow now).1 with
    | true =>
      have hrest := ih (tracks_performed hallow) (by rintro t ⟨⟩; exact hnow) hsorted
      rw [allow_interval] at hrest
      simp only [if_true, true_iff, hrest]
      by_cases hzero : last = some 0
      · subst hzero
        simp only [Due, Option.mem_def, Option.some.injEq, forall_eq', zero_add, true_implies]
        refine and_congr_right fun hdue => ?_
        rw [if_pos hdue]
      · have hdue := (allow_iff hl hhead hzero).1 hallow
        simp only [hdue, hzero, false_implies, true_and, if_true]
    | false =>
      have hzero : last ≠ some 0 := by
        intro h
        subst h
        rw [allow_zero hl now] at hallow
        cases hallow
      have hdue : ¬ Due l.interval.1.toInt last now.toInt := by
        intro h
        rw [(allow_iff hl hhead hzero).2 h] at hallow
        cases hallow
      have hrest := ih hl (fun t ht u hu => hle t ht u (List.mem_cons_of_mem _ hu)) hsorted
      simp only [allow_refused hallow, Bool.false_eq_true, if_false, hdue, hzero, false_implies, true_and, hrest,
        iff_self]

end RateLimiter

end ControlComponents.Core
