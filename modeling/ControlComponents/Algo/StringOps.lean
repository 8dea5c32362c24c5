/-
`StringOps` (`ocs_algo`): splitting a value at a delimiter.

`split` looks for the delimiter with `strchr`, which knows nothing of the length of the view: it stops at a NUL inside the
value and runs on into the bytes behind it. A pointer is an offset into the value here; the bytes behind the value in its
object belong to the model.

- `split_terminates`: the loop ends on every value, or reads behind the object.
- `split_iff`: the result is the list of the non-empty parts iff no part before the last delimiter has a NUL, and a last
  part of two or more characters is followed by a NUL before the next delimiter and preceded by a non-empty one.
- `split_overrun`: once the loop is behind the value, it adds a view that lies there.
- `not_splitsValues`: a value with a leading delimiter.
-/
import ControlComponents.Algo.UriOps
import ControlComponents.Lib.Segments

namespace ControlComponents.Algo

open ControlComponents.Lib

/-! ## Model -/

/-- the characters of a `std::string_view` and the bytes behind them in their object; the address space has 32 bits -/
structure Value where
  text : Text
  after : Text
  fits : (text ++ after).length < 2 ^ 32

/-- the object from the beginning of the value -/
def Value.object (value : Value) : Text := value.text ++ value.after

/-- the characters a view shows -/
def Value.content (value : Value) (v : StringView) : Text := (value.object.drop v.data).take v.size

/-- `strchr`: `none` if it reads behind the object, `some none` if a NUL comes before the character -/
def strchr (c : Byte) : Text → Option (Option ℕ)
  | [] => none
  | b :: text => if b = c then some (some 0) else if b = 0#8 then some none else (strchr c text).map (·.map (· + 1))

inductive Outcome where
  /-- it reads behind the object -/
  | undefined
  /-- it is out of fuel -/
  | running
  | done (values : List StringView)
deriving DecidableEq

def splitLoop (delimiter : Byte) (value : Value) : ℕ → ℕ → List StringView → Outcome
  | 0, _, _ => .running
  | fuel + 1, start, values =>
    -- `start == &value.back()`
    if start = value.text.length - 1 then
      .done (if value.object[start]? ≠ some delimiter then values ++ [⟨start, 1⟩] else values)
    else
      match strchr delimiter (value.object.drop start) with
      | none => .undefined
      | some none =>
        .done (if values.length ≠ 0 then values ++ [⟨start, ptrDiff value.text.length start⟩] else values)
      | some (some distance) =>
        let stop := start + distance
        let values := if value.object[start]? ≠ some delimiter then values ++ [⟨start, ptrDiff stop start⟩] else values
        if stop = value.text.length - 1 then .done values
        else splitLoop delimiter value fuel (stop + 1) values

/-- with fuel for the whole object -/
def split (delimiter : Byte) (value : Value) : Outcome :=
  if value.text.length < 2 then .done []
  else splitLoop delimiter value (value.object.length + 1) 0 []

/-! ## Specification -/

/-- the result of splitting a text: views inside it, and exactly its non-empty maximal parts without a delimiter in order,
if it has a delimiter -/
structure Splits (delimiter : Byte) (text : Text) (values : List StringView) : Prop where
  inside : ∀ v ∈ values, v.data + v.size ≤ text.length
  ordered : values.Pairwise fun v w => v.data < w.data
  exact : ∀ v, v ∈ values ↔ delimiter ∈ text ∧ IsSegment delimiter text (v.data, v.size)

def StringView.ofSegment (s : ℕ × ℕ) : StringView := ⟨s.1, s.2⟩

/-- views of the non-empty ones of consecutive parts -/
def viewsFrom (start : ℕ) (parts : List Text) : List StringView := (segmentsFrom start parts).map .ofSegment

theorem viewsFrom_cons (start : ℕ) (part : Text) (parts : List Text) :
    viewsFrom start (part :: parts) =
      (if part = [] then [] else [⟨start, part.length⟩]) ++ viewsFrom (start + part.length + 1) parts := by
  rw [viewsFrom, segmentsFrom, List.map_append]
  split_ifs <;> rfl

/-- the result as a list -/
theorem splits_iff (delimiter : Byte) (text : Text) (values : List StringView) :
    Splits delimiter text values ↔
      values = if delimiter ∈ text then viewsFrom 0 (text.splitOn delimiter) else [] := by
  have hsegments := (eq_segments_iff delimiter text (values.map fun v => (v.data, v.size)))
  have hback : (values.map fun v => (v.data, v.size)).map StringView.ofSegment = values := by
    rw [List.map_map]
    exact List.map_id' values
  have hmem : ∀ s : ℕ × ℕ, s ∈ values.map (fun v => (v.data, v.size)) ↔ (⟨s.1, s.2⟩ : StringView) ∈ values := by
    intro s
    rw [List.mem_map]
    refine ⟨?_, fun h => ⟨⟨s.1, s.2⟩, h, rfl⟩⟩
    rintro ⟨v, hv, rfl⟩
    exact hv
  by_cases hdelimiter : delimiter ∈ text
  · rw [if_pos hdelimiter]
    have hviews : values = viewsFrom 0 (text.splitOn delimiter) ↔
        (values.map fun v => (v.data, v.size)) = Lib.segments delimiter text := by
      refine ⟨?_, ?_⟩
      · rintro rfl
        rw [viewsFrom, List.map_map]
        exact List.map_id' _
      · intro h
        rw [← hback, h]
        rfl
    rw [hviews, hsegments, List.pairwise_map]
    refine ⟨?_, ?_⟩
    · intro h
      refine ⟨h.ordered, fun s => ?_⟩
      rw [hmem, h.exact]
      exact and_iff_right hdelimiter
    · rintro ⟨hordered, hexact⟩
      have hexact' : ∀ v, v ∈ values ↔ IsSegment delimiter text (v.data, v.size) := fun v =>
        (hmem (v.data, v.size)).symm.trans (hexact _)
      exact { inside := fun v hv => ((hexact' v).1 hv).inside, ordered := hordered,
              exact := fun v => (hexact' v).trans (and_iff_right hdelimiter).symm }
  · rw [if_neg hdelimiter]
    refine ⟨?_, ?_⟩
    · intro h
      exact List.eq_nil_iff_forall_not_mem.2 fun v hv => hdelimiter ((h.exact v).1 hv).1
    · rintro rfl
      exact { inside := by simp, ordered := List.Pairwise.nil, exact := by simp [hdelimiter] }

/-- what the loop needs of the parts it has before it: none but the last has a NUL, and the last one, if it has two or
more characters, ends for `strchr` before the next delimiter, a view having been found before -/
def Regular (delimiter : Byte) (after : Text) : Bool → List Text → Prop
  | _, [] => True
  | found, [last] => last.length ≤ 1 ∨ (strchr delimiter (last ++ after) = some none ∧ found = true)
  | found, part :: parts => 0#8 ∉ part ∧ Regular delimiter after (found || decide (part ≠ [])) parts

/-- when a value is split into its parts; without a delimiter nothing has to be found before the last part -/
def Separable (delimiter : Byte) (value : Value) : Prop :=
  value.text.length < 2 ∨
    Regular delimiter value.after (!value.text.contains delimiter) (value.text.splitOn delimiter)

theorem regular_singleton (delimiter : Byte) (after : Text) (found : Bool) (last : Text) :
    Regular delimiter after found [last] ↔
      last.length ≤ 1 ∨ (strchr delimiter (last ++ after) = some none ∧ found = true) := Iff.rfl

theorem regular_cons (delimiter : Byte) (after : Text) (found : Bool) (part : Text) {parts : List Text}
    (hne : parts ≠ []) :
    Regular delimiter after found (part :: parts) ↔
      0#8 ∉ part ∧ Regular delimiter after (found || decide (part ≠ [])) parts := by
  obtain ⟨next, parts, rfl⟩ := List.exists_cons_of_ne_nil hne
  rfl

/-! ## `strchr` -/

/-- the character comes first -/
theorem strchr_found {c : Byte} {before : Text} (hc : c ∉ before) (hnul : 0#8 ∉ before) (text : Text) :
    strchr c (before ++ c :: text) = some (some before.length) := by
  induction before with
  | nil => simp [strchr]
  | cons b before ih =>
    rw [List.mem_cons, not_or] at hc hnul
    rw [List.cons_append, strchr, if_neg (Ne.symm hc.1), if_neg (Ne.symm hnul.1), ih hc.2 hnul.2]
    rfl

/-- a NUL comes first -/
theorem strchr_nul {c : Byte} {before : Text} (hc : c ∉ before) (hne : c ≠ 0#8) (text : Text) :
    strchr c (before ++ 0#8 :: text) = some none := by
  induction before with
  | nil => rw [List.nil_append, strchr, if_neg hne.symm, if_pos rfl]
  | cons b before ih =>
    rw [List.mem_cons, not_or] at hc
    rw [List.cons_append, strchr, if_neg (Ne.symm hc.1)]
    split_ifs
    · rfl
    · rw [ih hc.2]
      rfl

/-- a NUL in a part without the character stops the search -/
theorem strchr_nul_mem {c : Byte} {part : Text} (hc : c ∉ part) (hnul : 0#8 ∈ part) (text : Text) :
    strchr c (part ++ text) = some none := by
  obtain ⟨before, behind, rfl, -⟩ := List.eq_append_cons_of_mem hnul
  have hne : c ≠ 0#8 := by
    rintro rfl
    exact hc hnul
  rw [List.append_assoc, List.cons_append]
  exact strchr_nul (fun h => hc (List.mem_append_left _ h)) hne _

/-- a NUL in a part ends the search for the delimiter behind it -/
theorem strchr_part {c : Byte} {part : Text} (hc : c ∉ part) (hnul : 0#8 ∈ part) (next after : Text) :
    strchr c (part ++ c :: next ++ after) = some none := by
  rw [List.append_assoc]
  exact strchr_nul_mem hc hnul _

/-- what is found is the first one -/
theorem of_strchr_eq_some {c : Byte} {text : Text} {distance : ℕ} (h : strchr c text = some (some distance)) :
    ∃ before after, text = before ++ c :: after ∧ before.length = distance ∧ c ∉ before := by
  induction text generalizing distance with
  | nil => cases h
  | cons b text ih =>
    rw [strchr] at h
    split_ifs at h with hb hnul
    · cases h
      exact ⟨[], text, by rw [hb]; rfl, rfl, by simp⟩
    · cases h
    · obtain ⟨found, hfound, heq⟩ := Option.map_eq_some_iff.1 h
      obtain ⟨distance', rfl, rfl⟩ := Option.map_eq_some_iff.1 heq
      obtain ⟨before, after, rfl, rfl, hc⟩ := ih hfound
      refine ⟨b :: before, after, rfl, rfl, ?_⟩
      rw [List.mem_cons, not_or]
      exact ⟨Ne.symm hb, hc⟩

theorem strchr_eq_none_iff {c : Byte} {text : Text} : strchr c text = none ↔ c ∉ text ∧ 0#8 ∉ text := by
  induction text with
  | nil => simp [strchr]
  | cons b text ih =>
    rw [strchr]
    split_ifs with hb hnul
    · simp [hb]
    · simp [hnul]
    · rw [Option.map_eq_none_iff, ih]
      simp [Ne.symm hb, Ne.symm hnul]

/-- the character is not found if a NUL stands before it -/
theorem of_strchr_eq_nul {c : Byte} {text : Text} (h : strchr c text = some none) : 0#8 ∈ text := by
  induction text with
  | nil => cases h
  | cons b text ih =>
    rw [strchr] at h
    split_ifs at h with hb hnul
    · cases h
    · exact hnul ▸ List.mem_cons_self
    · obtain ⟨found, hfound, heq⟩ := Option.map_eq_some_iff.1 h
      obtain rfl : found = none := Option.map_eq_none_iff.1 heq
      exact List.mem_cons_of_mem _ (ih hfound)

/-- up to what is found there is no NUL -/
theorem nul_mem_of_strchr {c : Byte} (hne : c ≠ 0#8) {text : Text} {distance : ℕ}
    (h : strchr c text = some (some distance)) : 0#8 ∈ text ↔ 0#8 ∈ text.drop (distance + 1) := by
  induction text generalizing distance with
  | nil => cases h
  | cons b text ih =>
    rw [strchr] at h
    split_ifs at h with hb hnul
    · cases h
      simp [hb, hne.symm]
    · cases h
    · obtain ⟨found, hfound, heq⟩ := Option.map_eq_some_iff.1 h
      obtain ⟨distance', rfl, rfl⟩ := Option.map_eq_some_iff.1 heq
      rw [List.drop_succ_cons, ← ih hfound, List.mem_cons]
      simp [Ne.symm hnul]

/-- a character that is not in the first part is found behind it -/
theorem le_of_strchr_append {c : Byte} {part text : Text} (hc : c ∉ part) {distance : ℕ}
    (h : strchr c (part ++ text) = some (some distance)) : part.length ≤ distance := by
  obtain ⟨before, after, heq, rfl, -⟩ := of_strchr_eq_some h
  by_contra hlt
  have hget : (part ++ text)[before.length]? = some c := by
    rw [heq]
    simp
  rw [List.getElem?_append_left (by omega)] at hget
  exact hc (List.mem_of_getElem? hget)

theorem strchr_lt {c : Byte} {text : Text} {distance : ℕ} (h : strchr c text = some (some distance)) :
    distance < text.length := by
  obtain ⟨before, after, rfl, rfl, -⟩ := of_strchr_eq_some h
  simp

/-! ## The loop -/

/-- **The loop ends**: with fuel for the rest of the object it never runs out of it -/
theorem splitLoop_terminates (delimiter : Byte) (value : Value) (fuel start : ℕ) (values : List StringView)
    (hfuel : value.object.length - start < fuel) : splitLoop delimiter value fuel start values ≠ .running := by
  induction fuel generalizing start values with
  | zero => omega
  | succ fuel ih =>
    rw [splitLoop]
    by_cases hlast : start = value.text.length - 1
    · rw [if_pos hlast]
      exact Outcome.noConfusion
    · rw [if_neg hlast]
      split
      · exact Outcome.noConfusion
      · exact Outcome.noConfusion
      · rename_i distance hfound
        have hlt := strchr_lt hfound
        rw [List.length_drop] at hlt
        by_cases hstop : start + distance = value.text.length - 1
        · simp only [if_pos hstop]
          exact Outcome.noConfusion
        · simp only [if_neg hstop]
          exact ih _ _ (by omega)

theorem split_terminates (delimiter : Byte) (value : Value) : split delimiter value ≠ .running := by
  unfold split
  split_ifs
  · exact Outcome.noConfusion
  · exact splitLoop_terminates delimiter value _ 0 [] (by omega)

/-- **Behind the value** the loop does not stop before it has added a view that lies there and is longer than the value,
its length being a negative difference -/
theorem split_overrun (delimiter : Byte) (value : Value) (fuel start : ℕ) (values found : List StringView)
    (hstart : value.text.length < start) (hvalues : values ≠ [])
    (h : splitLoop delimiter value fuel start values = .done found) :
    ∃ v ∈ found, value.text.length < v.data ∧ value.text.length < v.size := by
  induction fuel generalizing start values with
  | zero => cases h
  | succ fuel ih =>
    have hlength : values.length ≠ 0 := fun h => hvalues (List.length_eq_zero_iff.1 h)
    rw [splitLoop, if_neg (by omega)] at h
    split at h
    · cases h
    · rename_i hend
      rw [if_pos hlength] at h
      cases h
      have hobject : start < value.object.length := by
        by_contra hle
        rw [List.drop_eq_nil_of_le (not_lt.1 hle)] at hend
        cases hend
      have hfits : value.object.length < 2 ^ 32 := value.fits
      refine ⟨_, List.mem_append_right _ (List.mem_singleton_self _), hstart, ?_⟩
      simp only
      rw [ptrDiff_of_lt hstart (by omega)]
      omega
    · rename_i distance hfound
      simp only at h
      rw [if_neg (show ¬start + distance = value.text.length - 1 by omega)] at h
      refine ih _ _ (by omega) ?_ h
      split_ifs
      · exact List.append_ne_nil_of_left_ne_nil hvalues _
      · exact hvalues

/-- the views of the parts of a text lie in it -/
theorem viewsFrom_inside (delimiter : Byte) (start : ℕ) (text : Text) {v : StringView}
    (hv : v ∈ viewsFrom start (text.splitOn delimiter)) : v.data + v.size ≤ start + text.length := by
  obtain ⟨s, hs, rfl⟩ := List.mem_map.1 hv
  rw [← Nat.zero_add start, segmentsFrom_add] at hs
  obtain ⟨t, ht, rfl⟩ := List.mem_map.1 hs
  have hinside := ((mem_segments_iff delimiter text t).1 ht).inside
  simp only [StringView.ofSegment, moveBy]
  omega

/-- the object behind an offset into the value -/
theorem Value.object_drop {value : Value} {start : ℕ} {rest : Text} (h : value.text.drop start = rest)
    (hne : rest ≠ []) : value.object.drop start = rest ++ value.after ∧ start + rest.length = value.text.length := by
  have hlen := congrArg List.length h
  have hpos := List.length_pos_of_ne_nil hne
  rw [List.length_drop] at hlen
  refine ⟨?_, by omega⟩
  rw [Value.object, List.drop_append_of_le_length (by omega), h]

/-- the text behind a delimiter -/
theorem drop_part {delimiter : Byte} {text part next : Text} {start : ℕ}
    (h : text.drop start = part ++ delimiter :: next) : text.drop (start + part.length + 1) = next := by
  have hdrop := congrArg (List.drop (part.length + 1)) h
  rw [List.drop_drop] at hdrop
  simpa [Nat.add_assoc] using hdrop

theorem Value.object_head {value : Value} {start : ℕ} {rest : Text} (h : value.text.drop start = rest)
    (hne : rest ≠ []) : value.object[start]? = rest.head? := by
  rw [← List.head?_drop, (Value.object_drop h hne).1, List.head?_append_of_ne_nil _ hne]

theorem splitLoop_last (delimiter : Byte) {value : Value} (fuel : ℕ) {start : ℕ} (values : List StringView) {c : Byte}
    (h : value.text.drop start = [c]) :
    splitLoop delimiter value (fuel + 1) start values =
      .done (if c ≠ delimiter then values ++ [⟨start, 1⟩] else values) := by
  have hend := (Value.object_drop h (by simp)).2
  simp only [List.length_singleton] at hend
  have hlast : start = value.text.length - 1 := by omega
  rw [splitLoop, Value.object_head h (by simp), if_pos hlast]
  simp

/-- a turn that finds the delimiter in the value -/
theorem splitLoop_part {delimiter : Byte} {value : Value} (fuel : ℕ) {start : ℕ} (values : List StringView)
    {part next : Text} (h : value.text.drop start = part ++ delimiter :: next) (hpart : delimiter ∉ part)
    (hnul : 0#8 ∉ part) (hlen : 2 ≤ (part ++ delimiter :: next).length) :
    splitLoop delimiter value (fuel + 1) start values =
      if next = [] then .done (values ++ if part = [] then [] else [⟨start, part.length⟩])
      else splitLoop delimiter value fuel (start + part.length + 1)
        (values ++ if part = [] then [] else [⟨start, part.length⟩]) := by
  obtain ⟨hobject, hend⟩ := Value.object_drop h (by simp)
  have hfits : value.object.length < 2 ^ 32 := value.fits
  have hle : value.text.length ≤ value.object.length := by simp [Value.object]
  have hfound : strchr delimiter (value.object.drop start) = some (some part.length) := by
    rw [hobject, List.append_assoc, List.cons_append]
    exact strchr_found hpart hnul _
  have hhead : value.object[start]? ≠ some delimiter ↔ part ≠ [] := by
    rw [Value.object_head h (by simp)]
    cases part with
    | nil => simp
    | cons b part => simpa using fun hb : b = delimiter => hpart (hb ▸ List.mem_cons_self)
  simp only [List.length_append, List.length_cons] at hend hlen
  have hstop : start + part.length = value.text.length - 1 ↔ next = [] := by
    rw [← List.length_eq_zero_iff]
    omega
  rw [splitLoop, if_neg (by omega), hfound]
  simp only [hhead, hstop, ptrDiff_of_le (Nat.le_add_right start part.length) (by omega), Nat.add_sub_cancel_left]
  by_cases hempty : part = []
  · simp [hempty]
  · simp [hempty]

/-- a turn that finds a NUL before the delimiter -/
theorem splitLoop_nul {delimiter : Byte} {value : Value} (fuel : ℕ) {start : ℕ} (values : List StringView) {rest : Text}
    (h : value.text.drop start = rest) (hlen : 2 ≤ rest.length)
    (hnul : strchr delimiter (rest ++ value.after) = some none) :
    splitLoop delimiter value (fuel + 1) start values =
      .done (if values = [] then [] else values ++ [⟨start, rest.length⟩]) := by
  obtain ⟨hobject, hend⟩ := Value.object_drop h (List.ne_nil_of_length_pos (by omega))
  have hfits : value.object.length < 2 ^ 32 := value.fits
  have hle : value.text.length ≤ value.object.length := by simp [Value.object]
  have hsize : ptrDiff value.text.length start = rest.length := by
    rw [ptrDiff_of_le (by omega) (by omega)]
    omega
  rw [splitLoop, if_neg (by omega), hobject, hnul, hsize]
  by_cases hempty : values = []
  · simp [hempty]
  · simp [hempty]

/-- a turn that finds the delimiter behind the value does not lead to views in the value -/
theorem splitLoop_behind {delimiter : Byte} {value : Value} {fuel start : ℕ} {values found : List StringView} {rest : Text}
    (h : value.text.drop start = rest) (hlen : 2 ≤ rest.length) (hmem : delimiter ∉ rest)
    (hnul : strchr delimiter (rest ++ value.after) ≠ some none)
    (hdone : splitLoop delimiter value (fuel + 1) start values = .done found) :
    ∃ v ∈ found, value.text.length < v.data ∧ value.text.length < v.size := by
  have hne : rest ≠ [] := List.ne_nil_of_length_pos (by omega)
  obtain ⟨hobject, hend⟩ := Value.object_drop h hne
  have hhead : value.object[start]? ≠ some delimiter := by
    rw [Value.object_head h hne]
    exact fun hd => hmem (List.mem_of_head? hd)
  rw [splitLoop, if_neg (by omega), hobject] at hdone
  split at hdone
  · cases hdone
  · rename_i hend
    exact absurd hend hnul
  · rename_i distance hfound
    have hbehind := le_of_strchr_append hmem hfound
    simp only [if_pos hhead] at hdone
    rw [if_neg (show ¬start + distance = value.text.length - 1 by omega)] at hdone
    exact split_overrun delimiter value fuel _ _ _ (by omega) (by simp) hdone

theorem splitOn_self (c : Byte) : [c].splitOn c = [[], []] := by
  rw [show [c] = [] ++ c :: [] from rfl, List.splitOn_append_cons_self_of_not_mem List.not_mem_nil, List.splitOn_nil]

/-- a turn without a delimiter in the rest of the value adds the view of the rest iff a NUL comes before the next one -/
theorem splitLoop_last_iff {delimiter : Byte} {value : Value} (fuel : ℕ) {start : ℕ} {values : List StringView} {rest : Text}
    (hrest : value.text.drop start = rest) (hlen : 2 ≤ rest.length) (hmem : delimiter ∉ rest)
    (hinside : ∀ v ∈ values, v.data ≤ value.text.length) :
    splitLoop delimiter value (fuel + 1) start values = .done (values ++ viewsFrom start (rest.splitOn delimiter)) ↔
      strchr delimiter (rest ++ value.after) = some none ∧ values ≠ [] := by
  have hne : rest ≠ [] := List.ne_nil_of_length_pos (by omega)
  obtain ⟨-, hend⟩ := Value.object_drop hrest hne
  by_cases hnul : strchr delimiter (rest ++ value.after) = some none
  · have hviews : viewsFrom start [rest] = [⟨start, rest.length⟩] := by
      rw [viewsFrom_cons, if_neg hne]
      rfl
    rw [splitLoop_nul fuel values hrest hlen hnul, List.splitOn_eq_singleton hmem, hviews]
    by_cases hempty : values = []
    · simp [hempty]
    · simp [hempty, hnul]
  · -- the views that are added behind the value
    simp only [hnul, false_and, iff_false]
    intro hdone
    obtain ⟨v, hv, hdata, -⟩ := splitLoop_behind hrest hlen hmem hnul hdone
    rcases List.mem_append.1 hv with hv | hv
    · exact absurd (hinside v hv) (not_le_of_gt hdata)
    · have hin := viewsFrom_inside delimiter start rest hv
      omega

/-- **What the loop finds**: from an offset on it adds the views of all non-empty parts exactly when they are regular. -/
theorem splitLoop_iff (delimiter : Byte) (value : Value) (fuel start : ℕ) (values : List StringView) {rest : Text}
    (hrest : value.text.drop start = rest) (hne : rest ≠ []) (hfuel : value.object.length - start < fuel)
    (hinside : ∀ v ∈ values, v.data ≤ value.text.length) :
    splitLoop delimiter value fuel start values = .done (values ++ viewsFrom start (rest.splitOn delimiter)) ↔
      Regular delimiter value.after (decide (values ≠ [])) (rest.splitOn delimiter) := by
  induction fuel generalizing start values rest with
  | zero => omega
  | succ fuel ih =>
    obtain ⟨-, hend⟩ := Value.object_drop hrest hne
    have hpos := List.length_pos_of_ne_nil hne
    have hle : value.text.length ≤ value.object.length := by simp [Value.object]
    by_cases hlen : rest.length = 1
    · -- the last character
      obtain ⟨c, rfl⟩ := List.length_eq_one_iff.1 hlen
      rw [splitLoop_last delimiter fuel values hrest]
      by_cases hc : c = delimiter
      · subst hc
        rw [splitOn_self, regular_cons _ _ _ _ (List.cons_ne_nil _ _), regular_singleton]
        simp [viewsFrom, segmentsFrom]
      · have hsplit : [c].splitOn delimiter = [[c]] := List.splitOn_eq_singleton (by simpa using Ne.symm hc)
        rw [hsplit, regular_singleton]
        simp [viewsFrom, segmentsFrom, StringView.ofSegment, hc]
    have hlen2 : 2 ≤ rest.length := by omega
    by_cases hmem : delimiter ∈ rest
    · obtain ⟨part, next, rfl, hpart⟩ := List.eq_append_cons_of_mem hmem
      rw [List.splitOn_append_cons_self_of_not_mem hpart, viewsFrom_cons, ← List.append_assoc,
        regular_cons _ _ _ _ (List.splitOn_ne_nil _ _)]
      by_cases hnul : 0#8 ∈ part
      · -- the whole rest is taken for one part
        have hstop := strchr_part hpart hnul next value.after
        have hpartne : part ≠ [] := List.ne_nil_of_mem hnul
        rw [splitLoop_nul fuel values hrest hlen2 hstop]
        simp only [hnul, not_true, false_and, iff_false, Outcome.done.injEq]
        intro heq
        by_cases hempty : values = []
        · simp [hempty, hpartne] at heq
        · simp [hempty, hpartne] at heq
      · rw [splitLoop_part fuel values hrest hpart hnul hlen2]
        simp only [hnul, not_false_eq_true, true_and]
        by_cases hnext : next = []
        · subst hnext
          rw [if_pos rfl, List.splitOn_nil, regular_singleton]
          simp [viewsFrom, segmentsFrom]
        · simp only [List.length_append, List.length_cons] at hend
          rw [if_neg hnext, ih _ _ (drop_part hrest) hnext (by omega)]
          · simp
          · intro v hv
            rcases List.mem_append.1 hv with hv | hv
            · exact hinside v hv
            · split_ifs at hv with hempty
              · cases hv
              · cases List.mem_singleton.1 hv
                simp only
                omega
    · have hshort : ¬rest.length ≤ 1 := by omega
      rw [splitLoop_last_iff fuel hrest hlen2 hmem hinside, List.splitOn_eq_singleton hmem, regular_singleton]
      simp only [hshort, false_or, decide_eq_true_eq]

theorem split_of_notMem {delimiter : Byte} {value : Value} (hlen : 2 ≤ value.text.length) (hmem : delimiter ∉ value.text) :
    split delimiter value = .done [] ↔ strchr delimiter (value.text ++ value.after) = some none := by
  have hrest : value.text.drop 0 = value.text := rfl
  rw [split, if_neg (by omega)]
  by_cases hnul : strchr delimiter (value.text ++ value.after) = some none
  · rw [splitLoop_nul _ [] hrest hlen hnul]
    simp [hnul]
  · simp only [hnul, iff_false]
    intro hdone
    obtain ⟨v, hv, -⟩ := splitLoop_behind hrest hlen hmem hnul hdone
    cases hv

/-- **When a value is split into its parts** -/
theorem split_iff (delimiter : Byte) (value : Value) :
    (∃ values, split delimiter value = .done values ∧ Splits delimiter value.text values) ↔
      Separable delimiter value := by
  simp only [splits_iff, exists_eq_right]
  by_cases hlen : value.text.length < 2
  · -- at most one character
    have hviews : (if delimiter ∈ value.text then viewsFrom 0 (value.text.splitOn delimiter) else []) = [] := by
      split_ifs with hmem
      · obtain ⟨c, hc⟩ := List.length_eq_one_iff.1 (show value.text.length = 1 by
          have hpos := List.length_pos_of_mem hmem
          omega)
        rw [hc] at hmem ⊢
        obtain rfl : delimiter = c := by simpa using hmem
        rw [splitOn_self]
        rfl
      · rfl
    rw [hviews, split, if_pos hlen]
    simp [Separable, hlen]
  · have hlen2 : 2 ≤ value.text.length := by omega
    simp only [Separable, hlen, false_or]
    by_cases hmem : delimiter ∈ value.text
    · have hne : value.text ≠ [] := List.ne_nil_of_mem hmem
      have hloop := splitLoop_iff delimiter value (value.object.length + 1) 0 [] rfl hne (by omega) (by simp)
      rw [if_pos hmem, split, if_neg hlen]
      simpa [hmem] using hloop
    · rw [if_neg hmem, split_of_notMem hlen2 hmem, List.splitOn_eq_singleton hmem, regular_singleton]
      simp [hmem]
      omega

/-! ## Reading behind the object -/

/-- behind the value the loop goes on to the next NUL -/
theorem splitLoop_behind_defined {delimiter : Byte} (hne : delimiter ≠ 0#8) (value : Value) (fuel start : ℕ)
    (values : List StringView) (hstart : value.text.length ≤ start) (hpos : 0 < value.text.length)
    (hfuel : value.object.length - start < fuel) :
    splitLoop delimiter value fuel start values ≠ .undefined ↔ 0#8 ∈ value.object.drop start := by
  induction fuel generalizing start values with
  | zero => omega
  | succ fuel ih =>
    rw [splitLoop, if_neg (by omega)]
    split
    · rename_i hnone
      simp [(strchr_eq_none_iff.1 hnone).2]
    · rename_i hnul
      simp [of_strchr_eq_nul hnul]
    · rename_i distance hfound
      have hlt := strchr_lt hfound
      rw [List.length_drop] at hlt
      simp only
      rw [if_neg (show ¬start + distance = value.text.length - 1 by omega), ih _ _ (by omega) (by omega),
        nul_mem_of_strchr hne hfound, List.drop_drop, Nat.add_assoc]

/-- a delimiter with at most one character behind it is one of the last two -/
theorem mem_last_two {delimiter : Byte} {text part next : Text} {start : ℕ}
    (h : text.drop start = part ++ delimiter :: next) (hend : start + part.length + next.length + 1 = text.length)
    (htwo : 2 ≤ text.length) (hnext : next.length ≤ 1) : delimiter ∈ text.drop (text.length - 2) := by
  have htail : (text.drop (text.length - 2)).drop (1 - next.length) = delimiter :: next := by
    have hdrop := congrArg (List.drop part.length) h
    rw [List.drop_drop] at hdrop
    rw [List.drop_drop, show text.length - 2 + (1 - next.length) = start + part.length by omega]
    simpa using hdrop
  exact List.mem_of_mem_drop (htail ▸ List.mem_cons_self)

/-- from an offset on the loop stays in the object iff one of the last two characters is a delimiter or there is a NUL -/
theorem splitLoop_defined {delimiter : Byte} (hne : delimiter ≠ 0#8) (value : Value) (fuel start : ℕ)
    (values : List StringView) {rest : Text} (hrest : value.text.drop start = rest) (hrestne : rest ≠ [])
    (hlong : 2 ≤ rest.length ∨ delimiter ∈ value.text.drop (value.text.length - 2))
    (hfuel : value.object.length - start < fuel) :
    splitLoop delimiter value fuel start values ≠ .undefined ↔
      delimiter ∈ value.text.drop (value.text.length - 2) ∨ 0#8 ∈ rest ++ value.after := by
  induction fuel generalizing start values rest with
  | zero => omega
  | succ fuel ih =>
    obtain ⟨hobject, hend⟩ := Value.object_drop hrest hrestne
    have hpos := List.length_pos_of_ne_nil hrestne
    have hle : value.text.length ≤ value.object.length := by simp [Value.object]
    by_cases hlen : rest.length = 1
    · obtain ⟨c, rfl⟩ := List.length_eq_one_iff.1 hlen
      have hlast := hlong.resolve_left (by simp)
      rw [splitLoop_last delimiter fuel values hrest]
      simp [hlast]
    have hlen2 : 2 ≤ rest.length := by omega
    have htext2 : 2 ≤ value.text.length := by omega
    by_cases hnul : strchr delimiter (rest ++ value.after) = some none
    · rw [splitLoop_nul fuel values hrest hlen2 hnul]
      simp [of_strchr_eq_nul hnul]
    by_cases hmem : delimiter ∈ rest
    · obtain ⟨part, next, rfl, hpart⟩ := List.eq_append_cons_of_mem hmem
      have hpartnul : 0#8 ∉ part := fun h => hnul (strchr_part hpart h _ _)
      simp only [List.length_append, List.length_cons] at hend
      have hshort : next.length ≤ 1 → delimiter ∈ value.text.drop (value.text.length - 2) :=
        mem_last_two hrest (by omega) htext2
      rw [splitLoop_part fuel values hrest hpart hpartnul hlen2]
      by_cases hnext : next = []
      · simp [hnext, hshort]
      · have hnextlen : 2 ≤ next.length ∨ delimiter ∈ value.text.drop (value.text.length - 2) := by
          by_cases h : 2 ≤ next.length
          · exact Or.inl h
          · exact Or.inr (hshort (by omega))
        rw [if_neg hnext, ih _ _ (drop_part hrest) hnext hnextlen (by omega)]
        simp [hpartnul, hne.symm]
    · -- the scan leaves the value
      have hlast : delimiter ∉ value.text.drop (value.text.length - 2) := by
        intro h
        rw [show value.text.length - 2 = start + (rest.length - 2) by omega, ← List.drop_drop, hrest] at h
        exact hmem (List.mem_of_mem_drop h)
      simp only [hlast, false_or]
      rw [splitLoop, if_neg (by omega), hobject]
      split
      · rename_i hnone
        simp [(strchr_eq_none_iff.1 hnone).2]
      · rename_i hstop
        exact absurd hstop hnul
      · rename_i distance hfound
        have hbehind := le_of_strchr_append hmem hfound
        have hobjectlen := congrArg List.length hobject
        rw [List.length_drop] at hobjectlen
        simp only
        rw [if_neg (show ¬start + distance = value.text.length - 1 by omega),
          splitLoop_behind_defined hne value fuel _ _ (by omega) (by omega) (by omega), nul_mem_of_strchr hne hfound,
          ← hobject, List.drop_drop, Nat.add_assoc]

/-- **When splitting stays in the object**: one of the last two characters is a delimiter, or there is a NUL in the value or
behind it. -/
theorem split_defined_iff {delimiter : Byte} (hne : delimiter ≠ 0#8) {value : Value} (hlen : 2 ≤ value.text.length) :
    (∃ values, split delimiter value = .done values) ↔
      delimiter ∈ value.text.drop (value.text.length - 2) ∨ 0#8 ∈ value.object := by
  have hrest : value.text.drop 0 = value.text := rfl
  have hloop := splitLoop_defined hne value (value.object.length + 1) 0 [] hrest
    (List.ne_nil_of_length_pos (by omega)) (Or.inl hlen) (by omega)
  have hterminates := split_terminates delimiter value
  rw [split, if_neg (by omega)] at hterminates ⊢
  refine Iff.trans ?_ hloop
  cases h : splitLoop delimiter value (value.object.length + 1) 0 [] with
  | undefined => simp
  | running => exact absurd h hterminates
  | done values => simp

/-- every value is split into its parts -/
def SplitsValues : Prop :=
  ∀ (delimiter : Byte) (value : Value), ∃ values, split delimiter value = .done values ∧
    Splits delimiter value.text values

/-- `:AB` with its terminator -/
def leadingDelimiter : Value := ⟨[58, 65, 66], [0], by decide⟩

/-- **Not every value is split into its parts**: `:AB` has the part `AB`, but nothing is found. -/
theorem not_splitsValues : ¬SplitsValues ∧ split 58 leadingDelimiter = .done [] ∧
    IsSegment 58 leadingDelimiter.text (1, 2) := by
  have hsegment : IsSegment (58 : Byte) leadingDelimiter.text (1, 2) :=
    { nonempty := by decide, inside := by decide, free := by decide, left := by decide, right := by decide }
  have hsplit : split 58 leadingDelimiter = .done [] := by decide
  refine ⟨?_, hsplit, hsegment⟩
  intro h
  obtain ⟨values, hdone, hsplits⟩ := h 58 leadingDelimiter
  rw [hsplit] at hdone
  cases hdone
  have hmem := (hsplits.exact ⟨1, 2⟩).2 ⟨by decide, hsegment⟩
  cases hmem

end ControlComponents.Algo
