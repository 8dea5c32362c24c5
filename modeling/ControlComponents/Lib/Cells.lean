/-
Cells of memory that are taken and freed. The calls that need memory are numbered, and which of them succeed is given.

- `Grows h h' cells`: from `h` to `h'` the cells `cells` have been taken, all of them new, and nothing else has changed.
- `Grows.trans`: one piece of work after the other. `Grows.free`: what has been taken may be freed, once.
- `Grows.released`: if it has all been freed, the memory is as it was.
-/
import Mathlib.Data.Finset.Union
import Mathlib.Data.List.Nodup
import Mathlib.Tactic

namespace ControlComponents.Lib.Cells

structure Heap where
  /-- the cells that are taken -/
  live : Finset ℕ
  /-- number of calls so far; a cell has the number of the call that has taken it -/
  calls : ℕ
  /-- a cell has been freed that was not taken -/
  faulted : Bool
deriving DecidableEq

def Heap.tick (h : Heap) : Heap := { h with calls := h.calls + 1 }

/-- a new cell, if the call succeeds -/
def Heap.alloc (succeeds : ℕ → Bool) (h : Heap) : Option ℕ × Heap :=
  if succeeds h.calls then (some h.calls, { h.tick with live := insert h.calls h.live }) else (none, h.tick)

def Heap.freeOne (h : Heap) (c : ℕ) : Heap :=
  if c ∈ h.live then { h with live := h.live.erase c } else { h with faulted := true }

def Heap.free (h : Heap) (cells : List ℕ) : Heap := cells.foldl Heap.freeOne h

/-- later cells will be new -/
def Heap.Fresh (h : Heap) : Prop := ∀ c ∈ h.live, c < h.calls

/-- the cells have been taken since, and nothing else has changed -/
structure Grows (h h' : Heap) (cells : List ℕ) : Prop where
  live : h'.live = h.live ∪ cells.toFinset
  nodup : cells.Nodup
  new : ∀ c ∈ cells, h.calls ≤ c ∧ c < h'.calls
  calls : h.calls ≤ h'.calls
  faulted : h'.faulted = h.faulted

variable {h h' h'' : Heap} {cells cells' : List ℕ}

theorem Grows.fresh (hg : Grows h h' cells) (hfresh : h.Fresh) : h'.Fresh := by
  intro c hc
  rw [hg.live, Finset.mem_union, List.mem_toFinset] at hc
  rcases hc with hc | hc
  · exact (hfresh c hc).trans_le hg.calls
  · exact (hg.new c hc).2

theorem Grows.refl (h : Heap) : Grows h h [] := ⟨by simp, List.nodup_nil, by simp, Nat.le_refl _, rfl⟩

theorem Grows.tick (h : Heap) : Grows h h.tick [] := ⟨by simp [Heap.tick], List.nodup_nil, by simp, Nat.le_succ _, rfl⟩

theorem Grows.alloc {succeeds : ℕ → Bool} {c : ℕ} (h₁ : h.alloc succeeds = (some c, h')) : Grows h h' [c] := by
  unfold Heap.alloc at h₁
  split_ifs at h₁
  · obtain ⟨hc, rfl⟩ := Prod.ext_iff.1 h₁
    obtain rfl : h.calls = c := Option.some.inj hc
    refine ⟨?_, List.nodup_singleton _, ?_, Nat.le_succ _, rfl⟩
    · simp only [List.toFinset_cons, List.toFinset_nil, insert_empty_eq, Finset.union_singleton]
    · intro c hc
      rw [List.mem_singleton.1 hc]
      exact ⟨Nat.le_refl _, Nat.lt_succ_self _⟩
  · cases (Prod.ext_iff.1 h₁).1

theorem Grows.alloc_failed {succeeds : ℕ → Bool} (h₁ : h.alloc succeeds = (none, h')) :
    Grows h h' [] ∧ succeeds h.calls = false := by
  unfold Heap.alloc at h₁
  split_ifs at h₁ with hs
  · cases (Prod.ext_iff.1 h₁).1
  · obtain ⟨-, rfl⟩ := Prod.ext_iff.1 h₁
    exact ⟨.tick h, by simpa using hs⟩

/-- one piece of work after the other -/
theorem Grows.trans (hg : Grows h h' cells) (hg' : Grows h' h'' cells') : Grows h h'' (cells ++ cells') := by
  refine ⟨?_, ?_, ?_, hg.calls.trans hg'.calls, hg'.faulted.trans hg.faulted⟩
  · rw [hg'.live, hg.live, List.toFinset_append, Finset.union_assoc]
  · rw [List.nodup_append]
    refine ⟨hg.nodup, hg'.nodup, fun a ha b hb hab => ?_⟩
    have ha' := (hg.new a ha).2
    have hb' := (hg'.new b hb).1
    omega
  · intro c hc
    rcases List.mem_append.1 hc with hc | hc
    · exact ⟨(hg.new c hc).1, (hg.new c hc).2.trans_le hg'.calls⟩
    · exact ⟨hg.calls.trans (hg'.new c hc).1, (hg'.new c hc).2⟩

theorem free_spec (cells : List ℕ) (h : Heap) (hnodup : cells.Nodup) (hlive : ∀ c ∈ cells, c ∈ h.live) :
    (h.free cells).live = h.live \ cells.toFinset ∧ (h.free cells).calls = h.calls ∧
      (h.free cells).faulted = h.faulted := by
  induction cells generalizing h with
  | nil => simp [Heap.free]
  | cons c cells ih =>
    obtain ⟨hc, hnodup⟩ := List.nodup_cons.1 hnodup
    have hone : h.freeOne c = { h with live := h.live.erase c } := if_pos (hlive c List.mem_cons_self)
    have hrest : ∀ d ∈ cells, d ∈ (h.freeOne c).live := by
      intro d hd
      rw [hone]
      exact Finset.mem_erase.2 ⟨fun h => hc (h ▸ hd), hlive d (List.mem_cons_of_mem c hd)⟩
    obtain ⟨hl, hcalls, hfaulted⟩ := ih (h.freeOne c) hnodup hrest
    refine ⟨?_, ?_, ?_⟩
    · change ((h.freeOne c).free cells).live = _
      rw [hl, hone]
      ext d
      simp only [Finset.mem_sdiff, Finset.mem_erase, List.mem_toFinset, List.mem_cons, not_or]
      tauto
    · exact hcalls.trans (by rw [hone])
    · exact hfaulted.trans (by rw [hone])

/-- **Freeing.** Some of the cells that have been taken are freed, each of them once; the others stay. -/
theorem Grows.free (hg : Grows h h' (cells ++ cells')) (hfresh : h.Fresh) : Grows h (h'.free cells') cells := by
  obtain ⟨hnodup, hnodup', hdisjoint⟩ := List.nodup_append.1 hg.nodup
  have hmem : ∀ c ∈ cells', c ∈ h'.live := by
    intro c hc
    rw [hg.live, Finset.mem_union, List.mem_toFinset]
    exact .inr (List.mem_append_right _ hc)
  obtain ⟨hlive, hcalls, hfaulted⟩ := free_spec cells' h' hnodup' hmem
  refine ⟨?_, hnodup, ?_, ?_, hfaulted.trans hg.faulted⟩
  · rw [hlive, hg.live]
    ext d
    simp only [Finset.mem_sdiff, Finset.mem_union, List.mem_toFinset, List.mem_append]
    constructor
    · tauto
    · intro hd
      refine ⟨by tauto, fun hd' => ?_⟩
      rcases hd with hd | hd
      · have hold := hfresh d hd
        have hnew := (hg.new d (List.mem_append_right _ hd')).1
        omega
      · exact hdisjoint d hd d hd' rfl
  · intro c hc
    rw [hcalls]
    exact hg.new c (List.mem_append_left _ hc)
  · rw [hcalls]
    exact hg.calls

/-- work that has freed all it has taken -/
theorem Grows.released (hg : Grows h h' []) : h'.live = h.live ∧ h'.faulted = h.faulted :=
  ⟨by simpa using hg.live, hg.faulted⟩

end ControlComponents.Lib.Cells
