/-
The non-empty parts of a list between separators, as positions. A segment is given by its start and its length.

- `segments_append_cons`: the segments of a list are those before and those behind a separator; the rest follows from it.
- `eq_segments_iff`: `segments` lists, from left to right, the non-empty maximal sublists without a separator.
-/
import Mathlib.Data.List.Sort
import Mathlib.Tactic

namespace ControlComponents.Lib

variable {α : Type}

/-- where the non-empty ones of consecutive parts lie, the first part at `start` -/
def segmentsFrom (start : ℕ) : List (List α) → List (ℕ × ℕ)
  | [] => []
  | part :: parts =>
    (if part = [] then [] else [(start, part.length)]) ++ segmentsFrom (start + part.length + 1) parts

def segments [DecidableEq α] (separator : α) (text : List α) : List (ℕ × ℕ) := segmentsFrom 0 (text.splitOn separator)

/-- a segment `by` positions further on -/
def moveBy (n : ℕ) (s : ℕ × ℕ) : ℕ × ℕ := (s.1 + n, s.2)

/-- a non-empty sublist without a separator that a separator or the end of the text stands at on either side -/
structure IsSegment (separator : α) (text : List α) (s : ℕ × ℕ) : Prop where
  nonempty : 0 < s.2
  inside : s.1 + s.2 ≤ text.length
  free : separator ∉ (text.drop s.1).take s.2
  left : s.1 = 0 ∨ text[s.1 - 1]? = some separator
  right : s.1 + s.2 = text.length ∨ text[s.1 + s.2]? = some separator

/-! ## Equations -/

theorem segmentsFrom_add (start n : ℕ) (parts : List (List α)) :
    segmentsFrom (start + n) parts = (segmentsFrom start parts).map (moveBy n) := by
  induction parts generalizing start with
  | nil => rfl
  | cons part parts ih =>
    have hstart : start + n + part.length + 1 = start + part.length + 1 + n := by omega
    rw [segmentsFrom, segmentsFrom, hstart, ih, List.map_append]
    split_ifs <;> rfl

theorem segments_of_notMem [DecidableEq α] {separator : α} {text : List α} (h : separator ∉ text) :
    segments separator text = if text = [] then [] else [(0, text.length)] := by
  rw [segments, List.splitOn_eq_singleton h, segmentsFrom, segmentsFrom, List.append_nil]

/-- **The segments before and behind a separator** -/
theorem segments_append_cons [DecidableEq α] {separator : α} {part : List α} (h : separator ∉ part) (rest : List α) :
    segments separator (part ++ separator :: rest) =
      (if part = [] then [] else [(0, part.length)]) ++
        (segments separator rest).map (moveBy (part.length + 1)) := by
  have hstart : 0 + part.length + 1 = 0 + (part.length + 1) := by omega
  rw [segments, List.splitOn_append_cons_self_of_not_mem h, segmentsFrom, hstart, segmentsFrom_add]
  rfl

/-! ## Characterisation -/

/-- a whole list without separators is its only segment -/
theorem isSegment_of_notMem {separator : α} {text : List α} (h : separator ∉ text) (s : ℕ × ℕ) :
    IsSegment separator text s ↔ text ≠ [] ∧ s = (0, text.length) := by
  have hget : ∀ i, text[i]? ≠ some separator := fun i hi => h (List.mem_of_getElem? hi)
  refine ⟨?_, ?_⟩
  · intro hs
    have hleft : s.1 = 0 := hs.left.resolve_right (hget _)
    have hright : s.1 + s.2 = text.length := hs.right.resolve_right (hget _)
    have hpos := hs.nonempty
    refine ⟨?_, Prod.ext hleft (by simp only; omega)⟩
    rintro rfl
    simp only [List.length_nil] at hright
    omega
  · rintro ⟨hne, rfl⟩
    refine { nonempty := List.length_pos_of_ne_nil hne, inside := by simp, free := ?_, left := Or.inl rfl,
             right := Or.inl (by simp) }
    simpa using h

theorem getElem?_behind (separator : α) (part rest : List α) (i : ℕ) :
    (part ++ separator :: rest)[part.length + 1 + i]? = rest[i]? := by
  rw [List.getElem?_append_right (by omega), show part.length + 1 + i - part.length = i + 1 by omega,
    List.getElem?_cons_succ]

theorem drop_behind (separator : α) (part rest : List α) (i : ℕ) :
    (part ++ separator :: rest).drop (i + (part.length + 1)) = rest.drop i := by
  rw [show i + (part.length + 1) = part.length + 1 + i by omega, ← List.drop_drop]
  simp

/-- the segments that start behind a separator are those of the rest -/
theorem isSegment_moveBy (separator : α) (part rest : List α) (s : ℕ × ℕ) :
    IsSegment separator (part ++ separator :: rest) (moveBy (part.length + 1) s) ↔ IsSegment separator rest s := by
  obtain ⟨start, len⟩ := s
  have hat (i : ℕ) (hi : i = part.length + 1 + (i - (part.length + 1))) :
      (part ++ separator :: rest)[i]? = rest[i - (part.length + 1)]? := by
    rw [← getElem?_behind separator part rest, ← hi]
  refine ⟨?_, ?_⟩
  · rintro ⟨hpos, hinside, hfree, hleft, hright⟩
    simp only [moveBy, List.length_append, List.length_cons] at hpos hinside hfree hleft hright
    rw [drop_behind] at hfree
    refine { nonempty := hpos, inside := by simp only; omega, free := hfree, left := ?_, right := ?_ }
    · by_cases hzero : start = 0
      · exact Or.inl hzero
      · refine Or.inr ?_
        have hseparator := hleft.resolve_left (by omega)
        rwa [hat _ (by omega), show start + (part.length + 1) - 1 - (part.length + 1) = start - 1 by omega] at hseparator
    · rcases hright with hright | hright
      · exact Or.inl (by simp only; omega)
      · rw [hat _ (by omega), show start + (part.length + 1) + len - (part.length + 1) = start + len by omega] at hright
        exact Or.inr hright
  · rintro ⟨hpos, hinside, hfree, hleft, hright⟩
    simp only at hpos hinside hfree hleft hright
    refine { nonempty := hpos, inside := ?_, free := ?_, left := Or.inr ?_, right := ?_ }
    · simp only [moveBy, List.length_append, List.length_cons]
      omega
    · simp only [moveBy]
      rwa [drop_behind]
    · simp only [moveBy]
      by_cases hzero : start = 0
      · simp [hzero]
      · rw [hat _ (by omega), show start + (part.length + 1) - 1 - (part.length + 1) = start - 1 by omega]
        exact hleft.resolve_left hzero
    · simp only [moveBy, List.length_append, List.length_cons]
      rcases hright with hright | hright
      · exact Or.inl (by omega)
      · rw [hat _ (by omega), show start + (part.length + 1) + len - (part.length + 1) = start + len by omega]
        exact Or.inr hright

/-- a segment that starts before the first separator, or at it, is the part before it -/
theorem IsSegment.eq_first {separator : α} {part rest : List α} (h : separator ∉ part) {start len : ℕ}
    (hs : IsSegment separator (part ++ separator :: rest) (start, len)) (hle : start ≤ part.length) :
    start = 0 ∧ len = part.length := by
  have hpart : ∀ i, i < part.length → (part ++ separator :: rest)[i]? ≠ some separator := by
    intro i hi heq
    rw [List.getElem?_append_left hi] at heq
    exact h (List.mem_of_getElem? heq)
  have hstart : start = 0 := by
    by_contra hne
    have hleft := hs.left.resolve_left hne
    exact hpart (start - 1) (by omega) hleft
  subst hstart
  have hshort : len ≤ part.length := by
    by_contra hlong
    refine hs.free ?_
    have htake : (part ++ separator :: rest).take len = part ++ (separator :: rest).take (len - part.length) := by
      rw [List.take_append, List.take_of_length_le (by omega)]
    obtain ⟨k, hk⟩ : ∃ k, len - part.length = k + 1 := ⟨len - part.length - 1, by omega⟩
    simp [htake, hk]
  refine ⟨rfl, ?_⟩
  by_contra hne
  rcases hs.right with hright | hright
  · simp only [List.length_append, List.length_cons] at hright
    omega
  · exact hpart (0 + len) (by omega) hright

/-- a segment lies on one side of a separator -/
theorem isSegment_append_cons {separator : α} {part : List α} (h : separator ∉ part) (rest : List α) (s : ℕ × ℕ) :
    IsSegment separator (part ++ separator :: rest) s ↔
      (part ≠ [] ∧ s = (0, part.length)) ∨ ∃ s', IsSegment separator rest s' ∧ s = moveBy (part.length + 1) s' := by
  obtain ⟨start, len⟩ := s
  refine ⟨?_, ?_⟩
  · intro hs
    by_cases hle : start ≤ part.length
    · obtain ⟨rfl, rfl⟩ := hs.eq_first h hle
      exact Or.inl ⟨List.ne_nil_of_length_pos hs.nonempty, rfl⟩
    · obtain ⟨start, rfl⟩ : ∃ start', start = start' + (part.length + 1) := ⟨start - (part.length + 1), by omega⟩
      exact Or.inr ⟨(start, len), (isSegment_moveBy separator part rest (start, len)).1 hs, rfl⟩
  · rintro (⟨hne, heq⟩ | ⟨s', hs, heq⟩)
    · obtain ⟨rfl, rfl⟩ := Prod.mk.inj heq
      refine { nonempty := List.length_pos_of_ne_nil hne, inside := by simp, free := by simpa using h,
               left := Or.inl rfl, right := Or.inr (by simp) }
    · rw [heq]
      exact (isSegment_moveBy separator part rest s').2 hs

theorem mem_segments_iff [DecidableEq α] (separator : α) (text : List α) (s : ℕ × ℕ) :
    s ∈ segments separator text ↔ IsSegment separator text s := by
  induction hn : text.length using Nat.strong_induction_on generalizing text s with
  | _ n ih =>
    by_cases hmem : separator ∈ text
    · obtain ⟨part, rest, rfl, hpart⟩ := List.eq_append_cons_of_mem hmem
      have hlt : rest.length < n := by
        rw [← hn, List.length_append, List.length_cons]
        omega
      have hrest : ∀ s, s ∈ segments separator rest ↔ IsSegment separator rest s := fun s => ih _ hlt rest s rfl
      rw [segments_append_cons hpart, isSegment_append_cons hpart, List.mem_append, List.mem_map]
      simp only [hrest, eq_comm (a := s)]
      by_cases hempty : part = []
      · simp [hempty]
      · simp [hempty, eq_comm]
    · rw [segments_of_notMem hmem, isSegment_of_notMem hmem]
      by_cases hempty : text = []
      · simp [hempty]
      · simp [hempty]

theorem pairwise_segmentsFrom (start : ℕ) (parts : List (List α)) :
    (segmentsFrom start parts).Pairwise (fun s t => s.1 < t.1) ∧ ∀ s ∈ segmentsFrom start parts, start ≤ s.1 := by
  induction parts generalizing start with
  | nil => exact ⟨List.Pairwise.nil, by simp [segmentsFrom]⟩
  | cons part parts ih =>
    obtain ⟨hpairwise, hge⟩ := ih (start + part.length + 1)
    rw [segmentsFrom]
    split_ifs with hempty
    · exact ⟨hpairwise, fun s hs => le_trans (by omega) (hge s hs)⟩
    · refine ⟨List.pairwise_cons.2 ⟨?_, hpairwise⟩, ?_⟩
      · intro s hs
        exact lt_of_lt_of_le (by simp only; omega) (hge s hs)
      · intro s hs
        rcases List.mem_cons.1 hs with rfl | hs
        · exact le_rfl
        · exact le_trans (by omega) (hge s hs)

/-- **The segments from left to right**: the list with every non-empty maximal sublist without a separator, in order -/
theorem eq_segments_iff [DecidableEq α] (separator : α) (text : List α) (l : List (ℕ × ℕ)) :
    l = segments separator text ↔
      l.Pairwise (fun s t => s.1 < t.1) ∧ ∀ s, s ∈ l ↔ IsSegment separator text s := by
  have hsorted := (pairwise_segmentsFrom 0 (text.splitOn separator)).1
  refine ⟨?_, ?_⟩
  · rintro rfl
    exact ⟨hsorted, mem_segments_iff separator text⟩
  · rintro ⟨hpairwise, hmem⟩
    refine List.Pairwise.eq_of_mem_iff hpairwise hsorted ?_
    intro s
    rw [hmem, ← mem_segments_iff]

end ControlComponents.Lib
