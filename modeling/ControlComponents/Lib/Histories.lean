/-
Logs that only grow, and rules that each entry of a log keeps towards the entries before it.

- `Obeys`: every entry keeps the rule. `obeys_append`, `obeys_concat`: a log keeps it iff its parts do, the later
  one behind the earlier one.
- `since`: an entry that sets a mark has not been followed by one that clears it. `since_append` is the rule for two
  logs, `since_of_set` for a mark that is left alone.

The entries are of an arbitrary type.
-/
import Mathlib.Data.List.Basic

namespace ControlComponents.Lib.Histories

variable {α : Type}

/-- every entry keeps the rule `P` towards those before it -/
def Obeys (P : List α → α → Prop) (log : List α) : Prop :=
  ∀ before a after, log = before ++ a :: after → P before a

theorem obeys_nil (P : List α → α → Prop) : Obeys P [] := by
  intro before a after h
  exact absurd h.symm (List.append_ne_nil_of_right_ne_nil before (List.cons_ne_nil a after))

/-- **Two logs in a row** keep a rule iff the first does, and the second does behind the first. -/
theorem obeys_append {P : List α → α → Prop} (as bs : List α) :
    Obeys P (as ++ bs) ↔ Obeys P as ∧ Obeys (fun before => P (as ++ before)) bs := by
  refine ⟨fun h => ⟨?_, ?_⟩, ?_⟩
  · intro before a after hlog
    refine h before a (after ++ bs) ?_
    rw [hlog, List.append_assoc, List.cons_append]
  · intro before a after hlog
    refine h (as ++ before) a after ?_
    rw [hlog, List.append_assoc]
  · rintro ⟨has, hbs⟩ before a after hlog
    rcases List.append_eq_append_iff.1 hlog with ⟨mid, hbefore, hrest⟩ | ⟨mid, has', hrest⟩
    · rw [hbefore]
      exact hbs mid a after hrest
    · cases mid with
      | nil =>
        rw [List.append_nil] at has'
        subst has'
        simpa using hbs [] a after hrest.symm
      | cons b mid =>
        rw [List.cons_append, List.cons.injEq] at hrest
        obtain ⟨rfl, -⟩ := hrest
        exact has before a mid has'

theorem obeys_singleton {P : List α → α → Prop} (a : α) : Obeys P [a] ↔ P [] a := by
  refine ⟨fun h => h [] a [] rfl, fun h before b after hlog => ?_⟩
  obtain ⟨rfl, rest⟩ | ⟨mid, rfl, rest⟩ := List.cons_eq_append_iff.1 hlog
  · obtain ⟨rfl, -⟩ := List.cons.inj rest
    exact h
  · exact absurd rest.symm (List.append_ne_nil_of_right_ne_nil mid (List.cons_ne_nil b after))

theorem obeys_concat {P : List α → α → Prop} (log : List α) (a : α) :
    Obeys P (log ++ [a]) ↔ Obeys P log ∧ P log a := by
  rw [obeys_append, obeys_singleton, List.append_nil]

/-! ## Marks -/

section

variable (sets clears : α → Bool)

/-- a mark after one more entry -/
def mark (marked : Bool) (a : α) : Bool := if sets a then true else if clears a then false else marked

/-- some entry has set the mark, and none after it has cleared it -/
def since (log : List α) : Bool := log.foldl (mark sets clears) false

theorem since_concat (log : List α) (a : α) :
    since sets clears (log ++ [a]) = mark sets clears (since sets clears log) a := by
  rw [since, List.foldl_append]
  rfl

variable {sets clears}

theorem foldl_mark_of_uncleared {log : List α} (h : ∀ a ∈ log, clears a = false) :
    log.foldl (mark sets clears) true = true := by
  induction log with
  | nil => rfl
  | cons a log ih =>
    have hmark : mark sets clears true a = true := by
      simp [mark, h a List.mem_cons_self]
    rw [List.foldl_cons, hmark]
    exact ih fun b hb => h b (List.mem_cons_of_mem a hb)

/-- a mark stays until it is cleared -/
theorem since_of_set {before after : List α} {a : α} (ha : sets a = true) (h : ∀ b ∈ after, clears b = false) :
    since sets clears (before ++ a :: after) = true := by
  have hmark (marked : Bool) : mark sets clears marked a = true := if_pos ha
  rw [since, List.foldl_append, List.foldl_cons, hmark]
  exact foldl_mark_of_uncleared h

end

end ControlComponents.Lib.Histories
