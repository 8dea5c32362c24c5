/-
Runs of a deterministic machine: a state, a step function and a list of events.

- `Guarded`: every step of a run is taken in a state that allows it.
- `run_inv`: an invariant that every allowed step keeps holds after every guarded run. `run_preserves` is about all steps.
- `exec`, `GuardedExec`, `exec_inv`, `guardedExec_inv`: the same for a machine whose steps may be impossible.
- `guarded_congr`, `guardedExec_congr`: two conditions on steps that agree under an invariant agree on runs.
- `Sent`: a list of events that are sent one by one, until one fails. `Throughout.of_sent`: what holds throughout a run
  holds wherever the sending ends.
-/
import Mathlib.Logic.Basic

namespace ControlComponents.Lib.Runs

variable {σ ε : Type}

/-- the state after a list of events -/
def run (step : σ → ε → σ) : σ → List ε → σ
  | s, [] => s
  | s, e :: es => run step (step s e) es

/-- every event of the list is allowed in the state it meets -/
def Guarded (step : σ → ε → σ) (allowed : σ → ε → Prop) : σ → List ε → Prop
  | _, [] => True
  | s, e :: es => allowed s e ∧ Guarded step allowed (step s e) es

instance decidableGuarded (step : σ → ε → σ) (allowed : σ → ε → Prop) [∀ s e, Decidable (allowed s e)] :
    ∀ (s : σ) (es : List ε), Decidable (Guarded step allowed s es)
  | _, [] => .isTrue trivial
  | s, e :: es => @instDecidableAnd _ _ _ (decidableGuarded step allowed (step s e) es)

/-- **Invariants of runs.** What holds at the start and is kept by every allowed step holds after every guarded run. -/
theorem run_inv {step : σ → ε → σ} {allowed : σ → ε → Prop} {Inv : σ → Prop}
    (hstep : ∀ s e, Inv s → allowed s e → Inv (step s e)) {s : σ} (hs : Inv s) (es : List ε)
    (hg : Guarded step allowed s es) : Inv (run step s es) := by
  induction es generalizing s with
  | nil => exact hs
  | cons e es ih =>
    obtain ⟨he, hes⟩ := hg
    apply ih
    · exact hstep s e hs he
    · exact hes

/-- an invariant that every step keeps holds after every run -/
theorem run_preserves {step : σ → ε → σ} {Inv : σ → Prop} (hstep : ∀ s e, Inv s → Inv (step s e)) {s : σ} (hs : Inv s)
    (es : List ε) : Inv (run step s es) := by
  induction es generalizing s with
  | nil => exact hs
  | cons e es ih => exact ih (hstep s e hs)

/-- two conditions on steps that agree under an invariant, which the steps that meet them keep, agree on runs -/
theorem guarded_congr {step : σ → ε → σ} {p q : σ → ε → Prop} {Inv : σ → Prop}
    (hstep : ∀ s e, Inv s → p s e → Inv (step s e)) (hiff : ∀ s e, Inv s → (p s e ↔ q s e)) {s : σ} (hs : Inv s)
    (es : List ε) : Guarded step p s es ↔ Guarded step q s es := by
  induction es generalizing s with
  | nil => rfl
  | cons e es ih =>
    have hrest : p s e ∧ Guarded step p (step s e) es ↔ p s e ∧ Guarded step q (step s e) es :=
      and_congr_right fun hp => ih (hstep s e hs hp)
    exact hrest.trans (and_congr_left' (hiff s e hs))

/-- a run is guarded iff its two parts are -/
theorem guarded_append {step : σ → ε → σ} {allowed : σ → ε → Prop} (s : σ) (as bs : List ε) :
    Guarded step allowed s (as ++ bs) ↔ Guarded step allowed s as ∧ Guarded step allowed (run step s as) bs := by
  induction as generalizing s with
  | nil => simp [Guarded, run]
  | cons a as ih => simp only [List.cons_append, Guarded, run, ih, and_assoc]

theorem run_append (step : σ → ε → σ) (s : σ) (as bs : List ε) : run step s (as ++ bs) = run step (run step s as) bs := by
  induction as generalizing s with
  | nil => rfl
  | cons a as ih => exact ih (step s a)

/-! ## Runs that may stop -/

/-- the property holds at the start and after every event -/
def Throughout (step : σ → ε → σ) (P : σ → Prop) : σ → List ε → Prop
  | s, [] => P s
  | s, e :: es => P s ∧ Throughout step P (step s e) es

theorem throughout_start {step : σ → ε → σ} {P : σ → Prop} {s : σ} {es : List ε} (h : Throughout step P s es) : P s := by
  cases es with
  | nil => exact h
  | cons e es => exact h.1

/-- a property holds throughout a run iff it does throughout both parts -/
theorem throughout_append {step : σ → ε → σ} {P : σ → Prop} (s : σ) (as bs : List ε) :
    Throughout step P s (as ++ bs) ↔ Throughout step P s as ∧ Throughout step P (run step s as) bs := by
  induction as generalizing s with
  | nil =>
    have hstart : Throughout step P s bs → P s := throughout_start
    exact ⟨fun h => ⟨hstart h, h⟩, And.right⟩
  | cons a as ih => simp only [List.cons_append, Throughout, run, ih, and_assoc]

/-- what every event keeps holds throughout -/
theorem throughout_of_step {step : σ → ε → σ} {P : σ → Prop} {es : List ε} (hstep : ∀ e ∈ es, ∀ s, P s → P (step s e))
    {s : σ} (hs : P s) : Throughout step P s es := by
  induction es generalizing s with
  | nil => exact hs
  | cons e es ih =>
    have hrest (a : ε) (ha : a ∈ es) : ∀ s, P s → P (step s a) := hstep a (List.mem_cons_of_mem e ha)
    exact ⟨hs, ih hrest (hstep e List.mem_cons_self s hs)⟩

/-- the events are sent one by one; the machine has taken all of them, or those before some point, and the sender knows
that it has not been all -/
inductive Sent (step : σ → ε → σ) : σ → List ε → Bool → σ → Prop
  | done (s : σ) : Sent step s [] true s
  | stopped (s : σ) (es : List ε) : Sent step s es false s
  | next {s s' : σ} {e : ε} {es : List ε} {complete : Bool} (h : Sent step (step s e) es complete s') :
    Sent step s (e :: es) complete s'

namespace Sent

variable {step : σ → ε → σ} {s s' s'' : σ} {as bs : List ε} {complete : Bool}

theorem complete_run (h : Sent step s as true s') : s' = run step s as := by
  generalize hdone : true = complete at h
  induction h with
  | done s => rfl
  | stopped s es => cases hdone
  | next h ih => exact ih hdone

/-- sending goes on where it has come to the end -/
theorem append (h : Sent step s as true s') (h' : Sent step s' bs complete s'') : Sent step s (as ++ bs) complete s'' := by
  generalize hdone : true = done at h
  induction h with
  | done s => exact h'
  | stopped s es => cases hdone
  | next h ih => exact .next (ih h' hdone)

/-- where sending has stopped it has stopped for good -/
theorem stop (h : Sent step s as false s') (bs : List ε) : Sent step s (as ++ bs) false s' := by
  generalize hdone : false = done at h
  induction h with
  | done s => cases hdone
  | stopped s es => exact .stopped s _
  | next h ih => exact .next (ih hdone)

end Sent

/-- **What holds throughout** a run holds wherever the sending of its events ends. -/
theorem Throughout.of_sent {step : σ → ε → σ} {P : σ → Prop} {s s' : σ} {es : List ε} {complete : Bool}
    (h : Throughout step P s es) (hsent : Sent step s es complete s') : P s' := by
  induction hsent with
  | done s => exact h
  | stopped s es => exact throughout_start h
  | next _ ih => exact ih h.2

/-! ## Steps that may be impossible -/

/-- the state after a list of events, if every one of them is possible -/
def exec (step : σ → ε → Option σ) : σ → List ε → Option σ
  | s, [] => some s
  | s, e :: es => (step s e).bind fun s' => exec step s' es

theorem exec_append (step : σ → ε → Option σ) (s : σ) (as bs : List ε) :
    exec step s (as ++ bs) = (exec step s as).bind fun t => exec step t bs := by
  induction as generalizing s with
  | nil => rfl
  | cons a as ih =>
    simp only [List.cons_append, exec, Option.bind_assoc]
    exact congrArg _ (funext fun s' => ih s')

/-- **Invariants of partial runs.** What holds at the start and is kept by every possible step holds wherever a run
ends. -/
theorem exec_inv {step : σ → ε → Option σ} {Inv : σ → Prop}
    (hstep : ∀ s e s', Inv s → step s e = some s' → Inv s') {s t : σ} (hs : Inv s) (es : List ε)
    (ht : exec step s es = some t) : Inv t := by
  induction es generalizing s with
  | nil =>
    simp only [exec, Option.some.injEq] at ht
    exact ht ▸ hs
  | cons e es ih =>
    obtain ⟨s', hs', ht'⟩ := Option.bind_eq_some_iff.1 ht
    apply ih
    · exact hstep s e s' hs hs'
    · exact ht'

/-- what one of the events brings about and every step keeps holds at the end -/
theorem exec_of_mem {step : σ → ε → Option σ} {P : σ → Prop} (hkeep : ∀ s e s', P s → step s e = some s' → P s') {e : ε}
    (hset : ∀ s s', step s e = some s' → P s') {s t : σ} {es : List ε} (he : e ∈ es) (ht : exec step s es = some t) :
    P t := by
  induction es generalizing s with
  | nil => exact absurd he List.not_mem_nil
  | cons d es ih =>
    obtain ⟨s', hs', ht'⟩ := Option.bind_eq_some_iff.1 ht
    rcases List.mem_cons.1 he with rfl | he
    · exact exec_inv hkeep (hset s s' hs') es ht'
    · exact ih he ht'

/-- every event of the list is allowed in the state it meets -/
def GuardedExec (step : σ → ε → Option σ) (allowed : σ → ε → Prop) : σ → List ε → Prop
  | _, [] => True
  | s, e :: es => allowed s e ∧ ∀ s' ∈ step s e, GuardedExec step allowed s' es

/-- a run is possible iff each of its steps is, in the state it meets -/
theorem exec_ne_none_iff {step : σ → ε → Option σ} (s : σ) (es : List ε) :
    exec step s es ≠ none ↔ GuardedExec step (fun s e => step s e ≠ none) s es := by
  induction es generalizing s with
  | nil => exact iff_of_true (Option.some_ne_none s) trivial
  | cons e es ih =>
    cases he : step s e with
    | none => simp [exec, GuardedExec, he]
    | some s' => simp [exec, GuardedExec, he, ← ih s']

theorem guardedExec_true {step : σ → ε → Option σ} (s : σ) (es : List ε) :
    GuardedExec step (fun _ _ => True) s es := by
  induction es generalizing s with
  | nil => trivial
  | cons e es ih => exact ⟨trivial, fun s' _ => ih s'⟩

instance decidableGuardedExec (step : σ → ε → Option σ) (allowed : σ → ε → Prop) [∀ s e, Decidable (allowed s e)] :
    ∀ (s : σ) (es : List ε), Decidable (GuardedExec step allowed s es)
  | _, [] => .isTrue trivial
  | s, e :: es =>
    have : Decidable (∀ s' ∈ step s e, GuardedExec step allowed s' es) :=
      match step s e with
      | none => .isTrue fun _ h => nomatch h
      | some s' => @decidable_of_iff _ _ (by simp) (decidableGuardedExec step allowed s' es)
    @instDecidableAnd _ _ _ this

/-- **Invariants of guarded partial runs.** What holds at the start and is kept by every possible step that is allowed
holds wherever a guarded run ends. -/
theorem guardedExec_inv {step : σ → ε → Option σ} {allowed : σ → ε → Prop} {Inv : σ → Prop}
    (hstep : ∀ s e s', Inv s → allowed s e → step s e = some s' → Inv s') {s t : σ} (hs : Inv s) (es : List ε)
    (hg : GuardedExec step allowed s es) (ht : exec step s es = some t) : Inv t := by
  induction es generalizing s with
  | nil =>
    simp only [exec, Option.some.injEq] at ht
    exact ht ▸ hs
  | cons e es ih =>
    obtain ⟨he, hes⟩ := hg
    obtain ⟨s', hs', ht'⟩ := Option.bind_eq_some_iff.1 ht
    apply ih
    · exact hstep s e s' hs he hs'
    · exact hes s' hs'
    · exact ht'

/-- two conditions on steps that agree under an invariant agree on runs -/
theorem guardedExec_congr {step : σ → ε → Option σ} {allowed p q : σ → ε → Prop} {Inv : σ → Prop}
    (hstep : ∀ s e s', Inv s → allowed s e → step s e = some s' → Inv s')
    (hiff : ∀ s e, Inv s → allowed s e → (p s e ↔ q s e)) {s : σ} (hs : Inv s) (es : List ε)
    (hg : GuardedExec step allowed s es) : GuardedExec step p s es ↔ GuardedExec step q s es := by
  induction es generalizing s with
  | nil => rfl
  | cons e es ih =>
    obtain ⟨he, hes⟩ := hg
    have hrest : (∀ s' ∈ step s e, GuardedExec step p s' es) ↔ ∀ s' ∈ step s e, GuardedExec step q s' es :=
      forall₂_congr fun s' hs' => ih (hstep s e s' hs he hs') (hes s' hs')
    exact and_congr (hiff s e hs he) hrest

end ControlComponents.Lib.Runs
