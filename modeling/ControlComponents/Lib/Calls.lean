/-
Programs that call a device: each call has an answer, on which the rest of the program depends. The device is a function
from a call and its state to the answer and the next state.

- `run`, `calls`, `states`: what a program comes to, its calls, and every state in which it can be interrupted, before each
  call and at its end. `run_bind`, `calls_bind`, `mem_states_bind`: all of a sequence of two programs.
- `exec`, `execStates`: the same for one program after the other, each chosen by an event.
- `exec_steps`, `execStates_between`: a machine that takes one step for each program, and what an interruption leaves.

Calls, answers and states are arbitrary types.
-/
import Mathlib.Data.List.Basic

namespace ControlComponents.Lib.Calls

/-- a program with calls `C`, answers `R` and the result `α` -/
inductive Prog (C R α : Type) where
  | ret (a : α)
  | call (c : C) (k : R → Prog C R α)

variable {C R S α β : Type}

def Prog.bind : Prog C R α → (α → Prog C R β) → Prog C R β
  | .ret a, f => f a
  | .call c k, f => .call c fun r => (k r).bind f

instance : Monad (Prog C R) where
  pure := .ret
  bind := .bind

/-- a single call, whose answer is the result -/
def perform (c : C) : Prog C R R := .call c .ret

/-- the result of a program on a device, and the state it leaves -/
def run (device : C → S → R × S) : Prog C R α → S → α × S
  | .ret a, s => (a, s)
  | .call c k, s => run device (k (device c s).1) (device c s).2

/-- the states before each call of a program and at its end -/
def states (device : C → S → R × S) : Prog C R α → S → List S
  | .ret _, s => [s]
  | .call c k, s => s :: states device (k (device c s).1) (device c s).2

/-- the calls of a program, each with the state in which it is made -/
def calls (device : C → S → R × S) : Prog C R α → S → List (C × S)
  | .ret _, _ => []
  | .call c k, s => (c, s) :: calls device (k (device c s).1) (device c s).2

variable (device : C → S → R × S)

@[simp] theorem run_pure (a : α) (s : S) : run device (pure a) s = (a, s) := rfl

@[simp] theorem states_pure (a : α) (s : S) : states device (pure a : Prog C R α) s = [s] := rfl

@[simp] theorem run_perform (c : C) (s : S) : run device (perform c) s = device c s := rfl

@[simp] theorem states_perform (c : C) (s : S) : states device (perform c) s = [s, (device c s).2] := rfl

@[simp] theorem calls_pure (a : α) (s : S) : calls device (pure a : Prog C R α) s = [] := rfl

@[simp] theorem calls_perform (c : C) (s : S) : calls device (perform c) s = [(c, s)] := rfl

@[simp] theorem run_bind (p : Prog C R α) (f : α → Prog C R β) (s : S) :
    run device (p >>= f) s = run device (f (run device p s).1) (run device p s).2 := by
  induction p generalizing s with
  | ret a => rfl
  | call c k ih => exact ih (device c s).1 (device c s).2

@[simp] theorem calls_bind (p : Prog C R α) (f : α → Prog C R β) (s : S) :
    calls device (p >>= f) s = calls device p s ++ calls device (f (run device p s).1) (run device p s).2 := by
  induction p generalizing s with
  | ret a => rfl
  | call c k ih => exact congrArg ((c, s) :: ·) (ih (device c s).1 (device c s).2)

theorem start_mem_states (p : Prog C R α) (s : S) : s ∈ states device p s := by
  cases p with
  | ret a => exact List.mem_singleton_self s
  | call c k => exact List.mem_cons_self

/-- two programs in sequence are interrupted in the first one, or in the second one -/
@[simp] theorem mem_states_bind (p : Prog C R α) (f : α → Prog C R β) (s t : S) :
    t ∈ states device (p >>= f) s ↔
      t ∈ states device p s ∨ t ∈ states device (f (run device p s).1) (run device p s).2 := by
  induction p generalizing s with
  | ret a =>
    refine ⟨.inr, ?_⟩
    rintro (h | h)
    · rw [List.mem_singleton.1 h]
      exact start_mem_states device (f a) s
    · exact h
  | call c k ih =>
    have hrest := ih (device c s).1 (device c s).2
    constructor
    · intro h
      rcases List.mem_cons.1 h with rfl | h
      · exact .inl List.mem_cons_self
      · exact (hrest.1 h).imp_left (List.mem_cons_of_mem s)
    · rintro (h | h)
      · rcases List.mem_cons.1 h with rfl | h
        · exact List.mem_cons_self
        · exact List.mem_cons_of_mem s (hrest.2 (.inl h))
      · exact List.mem_cons_of_mem s (hrest.2 (.inr h))

/-! ## One program after the other -/

/-- the steps of a machine that chooses its answers, one for each event -/
inductive Steps {ε A : Type} (step : A → ε → α → A → Prop) : A → List (ε × α) → A → Prop where
  | nil (a : A) : Steps step a [] a
  | cons {a b c : A} {e : ε} {r : α} {l : List (ε × α)} (head : step a e r b) (tail : Steps step b l c) :
    Steps step a ((e, r) :: l) c

/-- the steps that concern one part of a state are steps of that part, if the others leave it -/
theorem Steps.filter {ε A B : Type} {step : A → ε → α → A → Prop} {part : A → B} {step' : B → ε → α → B → Prop}
    {p : ε → Bool} (hstep : ∀ a e r b, step a e r b → p e = true → step' (part a) e r (part b))
    (hother : ∀ a e r b, step a e r b → p e = false → part b = part a) {a b : A} {l : List (ε × α)}
    (h : Steps step a l b) : Steps step' (part a) (l.filter fun x => p x.1) (part b) := by
  induction h with
  | nil a => exact .nil _
  | @cons a b c e r l head tail ih =>
    cases hp : p e with
    | true =>
      rw [List.filter_cons_of_pos (by simpa using hp)]
      exact .cons (hstep a e r b head hp) ih
    | false =>
      rw [List.filter_cons_of_neg (by simp [hp]), ← hother a e r b head hp]
      exact ih

section
variable {ε A : Type} (prog : ε → Prog C R α)

/-- the programs of all events, in order: their results with their calls, and the state they leave -/
def exec : List ε → S → List (ε × α × List (C × S)) × S
  | [], s => ([], s)
  | e :: es, s =>
    ((e, (run device (prog e) s).1, calls device (prog e) s) :: (exec es (run device (prog e) s).2).1,
      (exec es (run device (prog e) s).2).2)

/-- the states in which they can be interrupted -/
def execStates : List ε → S → List S
  | [], s => [s]
  | e :: es, s => states device (prog e) s ++ execStates es (run device (prog e) s).2

variable {device prog}

/-- every event has one result -/
theorem exec_events (es : List ε) (s : S) : (exec device prog es s).1.map Prod.fst = es := by
  induction es generalizing s with
  | nil => rfl
  | cons e es ih => exact congrArg (e :: ·) (ih _)

/-- **Refinement.** If the program of every event is a step of a machine, all programs of a run are its steps. -/
theorem exec_steps {live : S → A} {step : A → ε → α × List (C × S) → A → Prop}
    (hstep : ∀ s e, step (live s) e ((run device (prog e) s).1, calls device (prog e) s) (live (run device (prog e) s).2))
    (es : List ε) (s : S) : Steps step (live s) (exec device prog es s).1 (live (exec device prog es s).2) := by
  induction es generalizing s with
  | nil => exact .nil _
  | cons e es ih => exact .cons (hstep s e) (ih _)

/-- what every program keeps, all of them keep -/
theorem exec_keeps {B : Type} {f : S → B} (hf : ∀ s e, f (run device (prog e) s).2 = f s) (es : List ε) (s : S) :
    f (exec device prog es s).2 = f s := by
  induction es generalizing s with
  | nil => rfl
  | cons e es ih => exact (ih _).trans (hf s e)

/-- **Interruptions.** If a program that is interrupted leaves something between what it has found and what it would have
left, then a run that is interrupted leaves something between what two neighbouring programs of it leave. The calls of the
run may be assumed to have a property, and what each program finds an invariant. -/
theorem execStates_between {Inv : S → Prop} {Good : C × S → Prop} {Between : S → S → S → Prop}
    (hinv : ∀ s e, (∀ x ∈ calls device (prog e) s, Good x) → Inv s → Inv (run device (prog e) s).2)
    (hself : ∀ s, Inv s → Between s s s)
    (hcut : ∀ s e, (∀ x ∈ calls device (prog e) s, Good x) → Inv s → ∀ t ∈ states device (prog e) s,
      Between s (run device (prog e) s).2 t)
    (es : List ε) {s t : S} (hs : Inv s) (hgood : ∀ x ∈ (exec device prog es s).1, ∀ y ∈ x.2.2, Good y)
    (ht : t ∈ execStates device prog es s) :
    ∃ k ≤ es.length, Between (exec device prog (es.take k) s).2 (exec device prog (es.take (k + 1)) s).2 t := by
  induction es generalizing s with
  | nil =>
    obtain rfl := List.mem_singleton.1 ht
    exact ⟨0, Nat.le_refl 0, hself t hs⟩
  | cons e es ih =>
    obtain ⟨hfirst, hrest⟩ := List.forall_mem_cons.1 hgood
    rcases List.mem_append.1 ht with ht | ht
    · exact ⟨0, Nat.zero_le _, hcut s e hfirst hs t ht⟩
    · obtain ⟨k, hk, h⟩ := ih (hinv s e hfirst hs) hrest ht
      exact ⟨k + 1, Nat.succ_le_succ hk, h⟩

end

end ControlComponents.Lib.Calls
