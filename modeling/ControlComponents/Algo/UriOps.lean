/-
`UriOps` (`ocs_algo`): the path and the query of a URI as views into it.

`parse_query` walks the query with raw pointers. A pointer is an offset into the URI here, and a length is a pointer
difference taken as a 32-bit `size_t`.

- `parseQueryLoop_eq_walk`: the loop ends, and it visits the parts of the query between the `&` one by one.
- `parseKeyValue_delimited`, `parseKeyValue_skipped`, `parseKeyValue_overrun`: what is made of one part. A part without
  `=` is skipped only if no `=` follows anywhere behind it; otherwise its key runs on into the next parts and its value
  gets a negative length.
- `parse_query_iff`: the result is the key-value map of the query iff no part without `=` stands before one that has it.
  `query_overrun` is a URI whose result is not.
-/
import ControlComponents.Basic
import ControlComponents.Lib.CString

namespace ControlComponents.Algo

open ControlComponents.Lib

/-! ## Model -/

abbrev Text := List Byte

/-- a NUL-terminated string in a 32-bit address space -/
structure Uri extends CString where
  fits : text.length < 2 ^ 32

/-- `?` -/
def mark : Byte := 63

/-- `&` -/
def ampersand : Byte := 38

/-- `=` -/
def equals : Byte := 61

/-- `std::string_view` into the URI -/
structure StringView where
  data : ℕ
  size : ℕ
deriving DecidableEq

/-- a pointer difference as `size_t` -/
def ptrDiff (p q : ℕ) : ℕ := (BitVec.ofNat 32 p - BitVec.ofNat 32 q).toNat

/-- the characters a view shows, as far as the URI goes -/
def Uri.content (uri : Uri) (v : StringView) : Text := (uri.text.drop v.data).take v.size

/-- keys with their values, in order of insertion -/
abbrev Values := List (StringView × StringView)

/-- a key is inserted unless an equal one is there -/
def emplace (uri : Uri) (values : Values) (key value : StringView) : Values :=
  if values.any fun e => decide (uri.content e.1 = uri.content key) then values else values ++ [(key, value)]

/-- `begin` is the first and `last` the last character of the part -/
def parseKeyValue (uri : Uri) (values : Values) (start last : ℕ) : Values :=
  match uri.strchr start equals with
  | none => values
  | some delimiter =>
    if delimiter = start ∨ delimiter = last then values
    else emplace uri values ⟨start, ptrDiff delimiter start⟩ ⟨delimiter + 1, ptrDiff last delimiter⟩

def parsePath (uri : Uri) : StringView :=
  match uri.strchr 0 mark with
  | some queryStart => ⟨0, queryStart⟩
  | none => ⟨0, uri.strlen⟩

/-- the loop of `parse_query`; `none` if the fuel runs out -/
def parseQueryLoop (uri : Uri) : ℕ → ℕ → Values → Option Values
  | 0, _, _ => none
  | fuel + 1, queryStart, values =>
    if queryStart = uri.strlen then some values
    else
      let queryStart := queryStart + 1
      match uri.strchr queryStart ampersand with
      | none => some (parseKeyValue uri values queryStart (queryStart + (uri.strlen - queryStart) - 1))
      | some last => parseQueryLoop uri fuel last (parseKeyValue uri values queryStart (last - 1))

def parseQuery (fuel : ℕ) (uri : Uri) : Option Values :=
  match uri.strchr 0 mark with
  | none => some []
  | some queryStart => parseQueryLoop uri fuel queryStart []

/-! ## Specification -/

/-- the parts of the query between the `&` -/
def segments (uri : Uri) : List Text :=
  match uri.text.idxOf? mark with
  | none => []
  | some queryStart => (uri.text.drop (queryStart + 1)).splitOn ampersand

/-- a part split at its first `=`, if neither side is empty -/
def keyValue (seg : Text) : Option (Text × Text) :=
  let key := seg.takeWhile (· ≠ equals)
  let value := seg.drop (key.length + 1)
  if equals ∈ seg ∧ key ≠ [] ∧ value ≠ [] then some (key, value) else none

/-- keep the first of several values for one key -/
def insertNew (m : List (Text × Text)) (p : Text × Text) : List (Text × Text) :=
  if m.any fun e => decide (e.1 = p.1) then m else m ++ [p]

/-- the key-value map of the query -/
def queryMap (uri : Uri) : List (Text × Text) := ((segments uri).filterMap keyValue).foldl insertNew []

/-- the view lies in the part of the URI after its first `?` -/
def InQuery (uri : Uri) (v : StringView) : Prop :=
  ∃ queryStart, uri.strchr 0 mark = some queryStart ∧ queryStart < v.data ∧ v.data + v.size ≤ uri.strlen

/-- what the views show -/
def contents (uri : Uri) (values : Values) : List (Text × Text) :=
  values.map fun e => (uri.content e.1, uri.content e.2)

/-- all views lie in the query and what they show is its key-value map -/
def IsQueryMap (uri : Uri) (values : Values) : Prop :=
  (∀ e ∈ values, InQuery uri e.1 ∧ InQuery uri e.2) ∧ contents uri values = queryMap uri

/-! ## The loop -/

/-- the parts of the query one by one, the first of them at `start` -/
def walk (uri : Uri) : ℕ → List Text → Values → Values
  | _, [], values => values
  | start, seg :: segs, values =>
    walk uri (start + seg.length + 1) segs (parseKeyValue uri values start (start + seg.length - 1))

/-- with fuel for the rest of the URI the loop visits all parts of it -/
theorem parseQueryLoop_eq_walk (uri : Uri) (fuel queryStart : ℕ) (values : Values) (hlt : queryStart < uri.strlen)
    (hfuel : uri.strlen - queryStart < fuel) :
    parseQueryLoop uri fuel queryStart values =
      some (walk uri (queryStart + 1) ((uri.text.drop (queryStart + 1)).splitOn ampersand) values) := by
  induction fuel generalizing queryStart values with
  | zero => omega
  | succ fuel ih =>
    have hlen : (uri.text.drop (queryStart + 1)).length = uri.strlen - (queryStart + 1) := by
      rw [List.length_drop]
      rfl
    simp only [parseQueryLoop, if_neg hlt.ne]
    by_cases hmem : ampersand ∈ uri.text.drop (queryStart + 1)
    · obtain ⟨seg, rest, hsplit, hseg⟩ := List.eq_append_cons_of_mem hmem
      rw [hsplit] at hlen
      simp only [List.length_append, List.length_cons] at hlen
      have hrest : uri.text.drop (queryStart + 1 + seg.length + 1) = rest := by
        have h : (uri.text.drop (queryStart + 1)).drop (seg.length + 1) = rest := by
          rw [hsplit]
          simp
        rw [List.drop_drop] at h
        exact h
      rw [CString.strchr_eq_some hsplit hseg, hsplit, List.splitOn_append_cons_self_of_not_mem hseg]
      simp only [walk]
      rw [ih (queryStart + 1 + seg.length) _ (by omega) (by omega), hrest]
    · rw [CString.strchr_eq_none hmem, List.splitOn_eq_singleton hmem]
      simp only [walk, hlen]

/-! ## One part -/

theorem ptrDiff_eq {p q : ℕ} (hp : p < 2 ^ 32) (hq : q < 2 ^ 32) : ptrDiff p q = (2 ^ 32 - q + p) % 2 ^ 32 := by
  rw [ptrDiff, BitVec.toNat_sub, BitVec.toNat_ofNat, BitVec.toNat_ofNat, Nat.mod_eq_of_lt hp, Nat.mod_eq_of_lt hq]

theorem ptrDiff_of_le {p q : ℕ} (hle : q ≤ p) (hp : p < 2 ^ 32) : ptrDiff p q = p - q := by
  have hq : q < 2 ^ 32 := by omega
  calc ptrDiff p q = (2 ^ 32 - q + p) % 2 ^ 32 := ptrDiff_eq hp hq
    _ = (2 ^ 32 + (p - q)) % 2 ^ 32 := by congr 1; omega
    _ = p - q := by rw [Nat.add_mod_left, Nat.mod_eq_of_lt (by omega)]

/-- a negative difference wraps around -/
theorem ptrDiff_of_lt {p q : ℕ} (hlt : p < q) (hq : q < 2 ^ 32) : ptrDiff p q = 2 ^ 32 - (q - p) := by
  have hp : p < 2 ^ 32 := by omega
  calc ptrDiff p q = (2 ^ 32 - q + p) % 2 ^ 32 := ptrDiff_eq hp hq
    _ = 2 ^ 32 - q + p := Nat.mod_eq_of_lt (by omega)
    _ = 2 ^ 32 - (q - p) := by omega

/-- what is found behind an offset ends with the URI -/
theorem Uri.le_strlen {uri : Uri} {start : ℕ} {text : Text} (h : uri.text.drop start = text) (hne : text ≠ []) :
    start + text.length = uri.strlen := by
  have hlen := congrArg List.length h
  have hpos : 0 < text.length := List.length_pos_of_ne_nil hne
  rw [List.length_drop] at hlen
  unfold CString.strlen
  omega

theorem keyValue_of_split {key value : Text} (hkey : equals ∉ key) :
    keyValue (key ++ equals :: value) = if key ≠ [] ∧ value ≠ [] then some (key, value) else none := by
  have htake : (key ++ equals :: value).takeWhile (fun c => decide (c ≠ equals)) = key := by
    rw [List.takeWhile_append_of_pos]
    · simp
    · intro c hc
      simpa using fun h : c = equals => hkey (h ▸ hc)
  simp only [keyValue, htake]
  simp

theorem keyValue_of_notMem {seg : Text} (h : equals ∉ seg) : keyValue seg = none := by
  simp [keyValue, h]

/-- a part with an `=` in it -/
theorem parseKeyValue_delimited {uri : Uri} {start : ℕ} {key value tail : Text}
    (h : uri.text.drop start = key ++ equals :: value ++ tail) (hkey : equals ∉ key) (hstart : 0 < start)
    (values : Values) :
    parseKeyValue uri values start (start + (key ++ equals :: value).length - 1) =
      if key ≠ [] ∧ value ≠ [] then
        emplace uri values ⟨start, key.length⟩ ⟨start + key.length + 1, value.length⟩
      else values := by
  have hsplit : uri.text.drop start = key ++ equals :: (value ++ tail) := by
    rw [h, List.append_assoc]
    rfl
  have hlen := Uri.le_strlen hsplit (by simp)
  have hfits : uri.strlen < 2 ^ 32 := uri.fits
  simp only [List.length_append, List.length_cons] at hlen ⊢
  simp only [parseKeyValue, CString.strchr_eq_some hsplit hkey]
  rw [ptrDiff_of_le (by omega) (by omega), ptrDiff_of_le (by omega) (by omega)]
  have hfirst : start + key.length = start ↔ key = [] := by
    rw [← List.length_eq_zero_iff]
    omega
  have hlast : start + key.length = start + (key.length + (value.length + 1)) - 1 ↔ value = [] := by
    rw [← List.length_eq_zero_iff]
    omega
  simp only [hfirst, hlast]
  by_cases hempty : key = [] ∨ value = []
  · rw [if_pos hempty, if_neg (by tauto)]
  · rw [if_neg hempty, if_pos (by tauto)]
    congr 2 <;> omega

/-- a part without an `=` in it or behind it -/
theorem parseKeyValue_skipped {uri : Uri} {start : ℕ} (h : equals ∉ uri.text.drop start) (values : Values) (last : ℕ) :
    parseKeyValue uri values start last = values := by
  simp only [parseKeyValue, CString.strchr_eq_none h]

/-- a part without an `=` in it, but with one behind it -/
theorem parseKeyValue_overrun {uri : Uri} {start : ℕ} {seg between tail : Text}
    (h : uri.text.drop start = seg ++ ampersand :: between ++ equals :: tail) (hseg : equals ∉ seg)
    (hbetween : equals ∉ between) (hstart : 0 < start) (values : Values) :
    parseKeyValue uri values start (start + seg.length - 1) =
      emplace uri values ⟨start, (seg ++ ampersand :: between).length⟩
        ⟨start + (seg ++ ampersand :: between).length + 1, 2 ^ 32 - (between.length + 2)⟩ := by
  have hkey : equals ∉ seg ++ ampersand :: between := by
    have hne : equals ≠ ampersand := by decide
    simp [hseg, hbetween, hne]
  have hlen := Uri.le_strlen h (by simp)
  have hfits : uri.strlen < 2 ^ 32 := uri.fits
  simp only [List.length_append, List.length_cons] at hlen
  simp only [parseKeyValue, CString.strchr_eq_some h hkey]
  simp only [List.length_append, List.length_cons]
  rw [ptrDiff_of_le (by omega) (by omega), ptrDiff_of_lt (by omega) (by omega), if_neg (by omega)]
  congr 2 <;> omega

theorem contents_emplace (uri : Uri) (values : Values) (k v : StringView) :
    contents uri (emplace uri values k v) = insertNew (contents uri values) (uri.content k, uri.content v) := by
  have hany : ((contents uri values).any fun e => decide (e.1 = uri.content k)) =
      values.any fun e => decide (uri.content e.1 = uri.content k) := by
    simp [contents, List.any_map, Function.comp_def]
  unfold emplace insertNew
  rw [hany]
  split_ifs
  · rfl
  · simp [contents]

theorem mem_emplace {uri : Uri} {values : Values} {k v : StringView} {e : StringView × StringView}
    (h : e ∈ emplace uri values k v) : e ∈ values ∨ e = (k, v) := by
  unfold emplace at h
  split_ifs at h
  · exact Or.inl h
  · simpa using h

theorem subset_emplace (uri : Uri) (values : Values) (k v : StringView) : values ⊆ emplace uri values k v := by
  unfold emplace
  split_ifs
  · exact fun e h => h
  · exact List.subset_append_left _ _

theorem subset_parseKeyValue (uri : Uri) (values : Values) (start last : ℕ) :
    values ⊆ parseKeyValue uri values start last := by
  unfold parseKeyValue
  split
  · exact fun e h => h
  · split_ifs
    · exact fun e h => h
    · exact subset_emplace uri values _ _

/-- the view lies between an offset and the end of the URI -/
def Inside (uri : Uri) (start : ℕ) (v : StringView) : Prop := start ≤ v.data ∧ v.data + v.size ≤ uri.strlen

/-- a part with an `=` in it adds its key and value, if it has both, as views into the part -/
theorem parseKeyValue_inside {uri : Uri} {start : ℕ} {seg tail : Text} (h : uri.text.drop start = seg ++ tail)
    (hmem : equals ∈ seg) (hstart : 0 < start) (values : Values) :
    contents uri (parseKeyValue uri values start (start + seg.length - 1)) =
      (keyValue seg).toList.foldl insertNew (contents uri values) ∧
    ∀ e ∈ parseKeyValue uri values start (start + seg.length - 1),
      e ∈ values ∨ (Inside uri start e.1 ∧ Inside uri start e.2 ∧ uri.content e.1 ⊆ seg) := by
  obtain ⟨key, value, rfl, hkey⟩ := List.eq_append_cons_of_mem hmem
  have hlen := Uri.le_strlen h (by simp)
  simp only [List.length_append, List.length_cons] at hlen
  have hcontentKey : uri.content ⟨start, key.length⟩ = key := by
    simp [Uri.content, h]
  have hcontentValue : uri.content ⟨start + key.length + 1, value.length⟩ = value := by
    have hdrop : uri.text.drop (start + key.length + 1) = value ++ tail := by
      have hd : (uri.text.drop start).drop (key.length + 1) = value ++ tail := by
        rw [h]
        simp
      rwa [List.drop_drop] at hd
    simp [Uri.content, hdrop]
  rw [parseKeyValue_delimited h hkey hstart, keyValue_of_split hkey]
  split_ifs with hne
  · refine ⟨?_, ?_⟩
    · rw [contents_emplace, hcontentKey, hcontentValue]
      rfl
    · intro e he
      rcases mem_emplace he with hold | rfl
      · exact Or.inl hold
      · refine Or.inr ⟨⟨le_refl _, ?_⟩, ⟨?_, ?_⟩, ?_⟩
        · simp only
          omega
        · simp only
          omega
        · simp only
          omega
        · rw [hcontentKey]
          exact List.subset_append_left _ _
  · exact ⟨rfl, fun e he => Or.inl he⟩

/-! ## All parts -/

theorem subset_walk (uri : Uri) (start : ℕ) (segs : List Text) (values : Values) :
    values ⊆ walk uri start segs values := by
  induction segs generalizing start values with
  | nil => exact fun e h => h
  | cons seg segs ih =>
    intro e he
    apply ih
    exact subset_parseKeyValue uri values _ _ he

theorem mem_intercalate_iff {c d : Byte} (hne : c ≠ d) (segs : List Text) :
    c ∈ [d].intercalate segs ↔ ∃ seg ∈ segs, c ∈ seg := by
  induction segs with
  | nil => simp
  | cons seg segs ih =>
    cases segs with
    | nil => simp
    | cons seg' segs =>
      rw [List.intercalate_cons_of_ne_nil (by simp), List.mem_append, List.mem_append, ih]
      simp [hne]

theorem notMem_of_mem_splitOn {d : Byte} (text : Text) : ∀ seg ∈ text.splitOn d, d ∉ seg := by
  induction text with
  | nil => simp
  | cons c text ih =>
    rw [List.splitOn_cons_eq_if_modifyHead]
    split_ifs with hc
    · simpa using ih
    · obtain ⟨seg, segs, hsegs⟩ := List.exists_cons_of_ne_nil (List.splitOn_ne_nil d text)
      rw [hsegs] at ih ⊢
      have hne : d ≠ c := by
        intro h
        simp [h] at hc
      intro seg' hseg'
      rw [List.modifyHead_cons] at hseg'
      rcases List.mem_cons.1 hseg' with rfl | hseg'
      · simp [hne, ih seg List.mem_cons_self]
      · exact ih seg' (List.mem_cons_of_mem _ hseg')

/-- the next part stands behind the separator -/
theorem drop_next {uri : Uri} {start : ℕ} {seg : Text} {segs : List Text} (hne : segs ≠ [])
    (h : uri.text.drop start = [ampersand].intercalate (seg :: segs)) :
    uri.text.drop start = seg ++ ampersand :: [ampersand].intercalate segs ∧
      uri.text.drop (start + seg.length + 1) = [ampersand].intercalate segs := by
  have hsplit : uri.text.drop start = seg ++ ampersand :: [ampersand].intercalate segs := by
    rw [h, List.intercalate_cons_of_ne_nil hne]
    simp
  refine ⟨hsplit, ?_⟩
  have hd : (uri.text.drop start).drop (seg.length + 1) = [ampersand].intercalate segs := by
    rw [hsplit]
    simp
  rwa [List.drop_drop] at hd

/-- no part without an `=` stands before one that has it -/
def Delimited (segs : List Text) : Prop := segs.Pairwise fun seg later => equals ∈ later → equals ∈ seg

instance (segs : List Text) : Decidable (Delimited segs) := by
  unfold Delimited; infer_instance

/-- a part, whatever stands behind it, of delimited parts: its key and value are added, if it has both -/
theorem parseKeyValue_head {uri : Uri} {start : ℕ} {seg : Text} {segs : List Text}
    (h : uri.text.drop start = [ampersand].intercalate (seg :: segs)) (hhead : ∀ later ∈ segs, equals ∈ later → equals ∈ seg)
    (hstart : 0 < start) (values : Values) :
    contents uri (parseKeyValue uri values start (start + seg.length - 1)) =
      (keyValue seg).toList.foldl insertNew (contents uri values) ∧
    ∀ e ∈ parseKeyValue uri values start (start + seg.length - 1),
      e ∈ values ∨ (Inside uri start e.1 ∧ Inside uri start e.2 ∧ uri.content e.1 ⊆ seg) := by
  by_cases hmem : equals ∈ seg
  · obtain ⟨tail, htail⟩ : ∃ tail, uri.text.drop start = seg ++ tail := by
      cases segs with
      | nil => exact ⟨[], by simpa using h⟩
      | cons seg' segs => exact ⟨_, (drop_next (by simp) h).1⟩
    exact parseKeyValue_inside htail hmem hstart values
  · have hnone : equals ∉ uri.text.drop start := by
      rw [h, mem_intercalate_iff (by decide)]
      rintro ⟨later, hlater, heq⟩
      rcases List.mem_cons.1 hlater with rfl | hlater
      · exact hmem heq
      · exact hmem (hhead later hlater heq)
    rw [parseKeyValue_skipped hnone, keyValue_of_notMem hmem]
    exact ⟨rfl, fun e he => Or.inl he⟩

/-- a part without an `=`, of parts one of which has it: its key runs on over the `&` behind it -/
theorem overrun_split {uri : Uri} {start : ℕ} {seg : Text} {segs : List Text}
    (h : uri.text.drop start = [ampersand].intercalate (seg :: segs)) (hlater : ∃ later ∈ segs, equals ∈ later) :
    ∃ between tail, uri.text.drop start = seg ++ ampersand :: between ++ equals :: tail ∧ equals ∉ between ∧
      uri.content ⟨start, (seg ++ ampersand :: between).length⟩ = seg ++ ampersand :: between := by
  have hne : segs ≠ [] := by
    obtain ⟨later, hmem, -⟩ := hlater
    exact List.ne_nil_of_mem hmem
  obtain ⟨hsplit, -⟩ := drop_next hne h
  have hmem : equals ∈ [ampersand].intercalate segs := (mem_intercalate_iff (by decide) segs).2 hlater
  obtain ⟨between, tail, hbetween, hnot⟩ := List.eq_append_cons_of_mem hmem
  have hover : uri.text.drop start = seg ++ ampersand :: between ++ equals :: tail := by
    rw [hsplit, hbetween]
    simp
  refine ⟨between, tail, hover, hnot, ?_⟩
  rw [Uri.content, hover]
  exact List.take_left

/-- a part, whatever stands around it: the value it adds lies behind `start`, or its key has run on over an `&` -/
theorem parseKeyValue_value {uri : Uri} {start : ℕ} {seg : Text} {segs : List Text}
    (h : uri.text.drop start = [ampersand].intercalate (seg :: segs)) (hstart : 0 < start) (values : Values) :
    ∀ e ∈ parseKeyValue uri values start (start + seg.length - 1),
      e ∈ values ∨ Inside uri start e.2 ∨ ampersand ∈ uri.content e.1 := by
  intro e he
  by_cases hhead : ∀ later ∈ segs, equals ∈ later → equals ∈ seg
  · rcases (parseKeyValue_head h hhead hstart values).2 e he with hold | ⟨-, hvalue, -⟩
    · exact Or.inl hold
    · exact Or.inr (Or.inl hvalue)
  · push Not at hhead
    obtain ⟨later, hlater, heq, hseg⟩ := hhead
    obtain ⟨between, tail, hover, hnot, hcontent⟩ := overrun_split h ⟨later, hlater, heq⟩
    rw [parseKeyValue_overrun hover hseg hnot hstart] at he
    rcases mem_emplace he with hold | rfl
    · exact Or.inl hold
    · refine Or.inr (Or.inr ?_)
      rw [hcontent]
      simp

theorem walk_value {uri : Uri} {start : ℕ} (segs : List Text)
    (h : uri.text.drop start = [ampersand].intercalate segs) (hstart : 0 < start) (values : Values) :
    ∀ e ∈ walk uri start segs values, e ∈ values ∨ Inside uri start e.2 ∨ ampersand ∈ uri.content e.1 := by
  induction segs generalizing start values with
  | nil => exact fun e he => Or.inl he
  | cons seg segs ih =>
    intro e he
    have hrest : e ∈ parseKeyValue uri values start (start + seg.length - 1) ∨
        Inside uri (start + seg.length + 1) e.2 ∨ ampersand ∈ uri.content e.1 := by
      cases segs with
      | nil => exact Or.inl he
      | cons seg' segs => exact ih (drop_next (by simp) h).2 (by omega) _ e he
    rcases hrest with hmem | ⟨hvalue, hend⟩ | hamp
    · exact parseKeyValue_value h hstart values e hmem
    · exact Or.inr (Or.inl ⟨by omega, hend⟩)
    · exact Or.inr (Or.inr hamp)

/-- delimited parts give their key-value map, in views of what is behind the first of them -/
theorem walk_delimited {uri : Uri} {start : ℕ} (segs : List Text)
    (h : uri.text.drop start = [ampersand].intercalate segs) (hdel : Delimited segs) (hstart : 0 < start)
    (values : Values) :
    contents uri (walk uri start segs values) = (segs.filterMap keyValue).foldl insertNew (contents uri values) ∧
      ∀ e ∈ walk uri start segs values, e ∈ values ∨ (Inside uri start e.1 ∧ Inside uri start e.2) := by
  induction segs generalizing start values with
  | nil => exact ⟨rfl, fun e he => Or.inl he⟩
  | cons seg segs ih =>
    obtain ⟨hhead, htail⟩ := List.pairwise_cons.1 hdel
    obtain ⟨hcontents, hviews⟩ := parseKeyValue_head h hhead hstart values
    set next := parseKeyValue uri values start (start + seg.length - 1) with hnext
    have hrest : contents uri (walk uri (start + seg.length + 1) segs next) =
          (segs.filterMap keyValue).foldl insertNew (contents uri next) ∧
        ∀ e ∈ walk uri (start + seg.length + 1) segs next,
          e ∈ next ∨ (Inside uri (start + seg.length + 1) e.1 ∧ Inside uri (start + seg.length + 1) e.2) := by
      cases segs with
      | nil => exact ⟨rfl, fun e he => Or.inl he⟩
      | cons seg' segs => exact ih (drop_next (by simp) h).2 htail (by omega) next
    refine ⟨?_, ?_⟩
    · simp only [walk, ← hnext, hrest.1, hcontents]
      cases hkv : keyValue seg with
      | none => simp [hkv]
      | some p => simp [hkv]
    · intro e he
      rcases hrest.2 e he with hmem | ⟨⟨hk, hk'⟩, hv, hv'⟩
      · rcases hviews e hmem with hold | ⟨hk, hv, -⟩
        · exact Or.inl hold
        · exact Or.inr ⟨hk, hv⟩
      · exact Or.inr ⟨⟨by omega, hk'⟩, by omega, hv'⟩

/-- parts that are not delimited leave a value that runs over the end of the URI: the first key that runs on into the
next part has an `&` in it, so it is new -/
theorem walk_overrun {uri : Uri} {start : ℕ} (segs : List Text)
    (h : uri.text.drop start = [ampersand].intercalate segs) (hdel : ¬ Delimited segs)
    (hsegs : ∀ seg ∈ segs, ampersand ∉ seg) (hstart : 0 < start) (values : Values)
    (hvalues : ∀ e ∈ values, ampersand ∉ uri.content e.1) :
    ∃ e ∈ walk uri start segs values, uri.strlen < e.2.data + e.2.size := by
  induction segs generalizing start values with
  | nil => exact absurd List.Pairwise.nil hdel
  | cons seg segs ih =>
    have hne : segs ≠ [] := by
      intro heq
      subst heq
      exact hdel (List.pairwise_singleton _ _)
    obtain ⟨-, hdrop⟩ := drop_next hne h
    by_cases hhead : ∀ later ∈ segs, equals ∈ later → equals ∈ seg
    · have htail : ¬ Delimited segs := fun htail => hdel (List.pairwise_cons.2 ⟨hhead, htail⟩)
      obtain ⟨-, hviews⟩ := parseKeyValue_head h hhead hstart values
      apply ih hdrop htail
      · intro seg' hseg'
        exact hsegs seg' (List.mem_cons_of_mem _ hseg')
      · omega
      · intro e he
        rcases hviews e he with hold | ⟨-, -, hsub⟩
        · exact hvalues e hold
        · exact fun hamp => hsegs seg List.mem_cons_self (hsub hamp)
    · -- this part has no `=`, and one follows
      push Not at hhead
      obtain ⟨later, hlater, heq, hseg⟩ := hhead
      obtain ⟨between, tail, hover, hnot, hcontent⟩ := overrun_split h ⟨later, hlater, heq⟩
      have hlen := Uri.le_strlen hover (by simp)
      simp only [List.length_append, List.length_cons] at hlen
      have hfits : uri.strlen < 2 ^ 32 := uri.fits
      have hnew : ¬ (values.any fun e => decide (uri.content e.1 =
          uri.content ⟨start, (seg ++ ampersand :: between).length⟩)) = true := by
        rw [hcontent]
        simp only [List.any_eq_true, decide_eq_true_eq, not_exists, not_and]
        intro e he hkey
        apply hvalues e he
        rw [hkey]
        simp
      refine ⟨(⟨start, (seg ++ ampersand :: between).length⟩,
        ⟨start + (seg ++ ampersand :: between).length + 1, 2 ^ 32 - (between.length + 2)⟩), ?_, ?_⟩
      · simp only [walk]
        apply subset_walk
        rw [parseKeyValue_overrun hover hseg hnot hstart, emplace, if_neg hnew]
        simp
      · simp only [List.length_append, List.length_cons]
        omega

/-! ## Main results -/

/-- the parser ends, with any fuel beyond the length of the URI: there is no query, or it visits the parts of it -/
theorem parseQuery_eq_walk (uri : Uri) :
    (uri.strchr 0 mark = none ∧ segments uri = [] ∧ ∀ fuel, parseQuery fuel uri = some []) ∨
    ∃ queryStart, uri.strchr 0 mark = some queryStart ∧
      uri.text.drop (queryStart + 1) = [ampersand].intercalate (segments uri) ∧ (∀ seg ∈ segments uri, ampersand ∉ seg) ∧
      ∀ fuel, uri.strlen < fuel → parseQuery fuel uri = some (walk uri (queryStart + 1) (segments uri) []) := by
  cases hidx : uri.text.idxOf? mark with
  | none =>
    have hchr : uri.strchr 0 mark = none := by
      simp [CString.strchr, hidx]
    exact Or.inl ⟨hchr, by simp [segments, hidx], fun fuel => by simp [parseQuery, hchr]⟩
  | some queryStart =>
    have hchr : uri.strchr 0 mark = some queryStart := by
      simp [CString.strchr, hidx]
    have hsegs : segments uri = (uri.text.drop (queryStart + 1)).splitOn ampersand := by
      simp [segments, hidx]
    have hlt : queryStart < uri.strlen := (List.idxOf?_eq_some_iff.1 hidx).1
    refine Or.inr ⟨queryStart, hchr, ?_, ?_, ?_⟩
    · rw [hsegs, List.intercalate_splitOn]
    · rw [hsegs]
      exact notMem_of_mem_splitOn _
    · intro fuel hfuel
      simp only [parseQuery, hchr]
      rw [parseQueryLoop_eq_walk uri fuel queryStart [] hlt (by omega), hsegs]

/-- **Query parsing.** For every URI the parser ends, with any fuel beyond the length of the URI. All views it returns lie
in the query and show its key-value map iff no part of the query without an `=` stands before one that has it. -/
theorem parse_query_iff (uri : Uri) :
    ∃ values, (∀ fuel, uri.strlen < fuel → parseQuery fuel uri = some values) ∧
      (IsQueryMap uri values ↔ Delimited (segments uri)) := by
  rcases parseQuery_eq_walk uri with ⟨-, hsegs, hrun⟩ | ⟨queryStart, hchr, hat, hamp, hrun⟩
  · refine ⟨[], fun fuel _ => hrun fuel, ?_, ?_⟩
    · intro _
      rw [hsegs]
      exact List.Pairwise.nil
    · intro _
      refine ⟨by simp, ?_⟩
      simp [queryMap, hsegs, contents]
  · refine ⟨walk uri (queryStart + 1) (segments uri) [], hrun, ?_, ?_⟩
    · rintro ⟨hviews, -⟩
      by_contra hdel
      obtain ⟨e, he, hover⟩ := walk_overrun (segments uri) hat hdel hamp (by omega) [] (by simp)
      obtain ⟨q, -, -, hend⟩ := (hviews e he).2
      omega
    · intro hdel
      obtain ⟨hcontents, hviews⟩ := walk_delimited (segments uri) hat hdel (by omega) []
      refine ⟨?_, hcontents⟩
      intro e he
      rcases hviews e he with hold | ⟨⟨hk, hk'⟩, hv, hv'⟩
      · cases hold
      · exact ⟨⟨queryStart, hchr, hk, hk'⟩, queryStart, hchr, hv, hv'⟩

/-- whatever the query, a value that is returned under a key without an `&` lies in the URI -/
theorem parseQuery_value (uri : Uri) :
    ∃ values, parseQuery (uri.strlen + 1) uri = some values ∧
      ∀ e ∈ values, ampersand ∉ uri.content e.1 → e.2.data + e.2.size ≤ uri.strlen := by
  rcases parseQuery_eq_walk uri with ⟨-, -, hrun⟩ | ⟨queryStart, -, hat, -, hrun⟩
  · exact ⟨[], hrun _, by simp⟩
  · refine ⟨_, hrun _ (Nat.lt_succ_self _), ?_⟩
    intro e he hkey
    rcases walk_value (segments uri) hat (by omega) [] e he with hold | ⟨-, hend⟩ | hamp
    · cases hold
    · exact hend
    · exact absurd hamp hkey

/-- an ASCII URI -/
def Uri.ofString (s : String) (h : (CString.ofString s).text.length < 2 ^ 32) : Uri := ⟨.ofString s, h⟩

/-- every URI is parsed into its key-value map, in views of its query -/
def QueryParsed : Prop :=
  ∀ uri : Uri, ∃ values, (∀ fuel, uri.strlen < fuel → parseQuery fuel uri = some values) ∧ IsQueryMap uri values

def goodUri : Uri := .ofString "/a?k=v&k=w&x=&" (by decide)

/-- repeated keys, empty values and empty parts are no trouble -/
theorem parse_query_iff_example :
    ∃ values, parseQuery 15 goodUri = some values ∧ IsQueryMap goodUri values := by
  obtain ⟨values, hrun, hmap⟩ := parse_query_iff goodUri
  exact ⟨values, hrun 15 (by decide), hmap.2 (by decide)⟩

def badUri : Uri := .ofString "?a&b=c" (by decide)

/-- **A query that is not parsed into its map.** In `?a&b=c` the part `a` gets the key `a&b` and a value of 2^32 - 3
bytes. -/
theorem query_overrun : ¬ QueryParsed ∧
    parseQuery 7 badUri = some [(⟨1, 3⟩, ⟨5, 2 ^ 32 - 3⟩), (⟨3, 1⟩, ⟨5, 1⟩)] ∧
    queryMap badUri = [([98], [99])] := by
  have hrun : parseQuery 7 badUri = some [(⟨1, 3⟩, ⟨5, 2 ^ 32 - 3⟩), (⟨3, 1⟩, ⟨5, 1⟩)] := by
    decide
  refine ⟨fun h => ?_, hrun, by decide⟩
  obtain ⟨values, hvalues, hmap⟩ := h badUri
  have heq := Option.some.inj ((hvalues 7 (by decide)).symm.trans hrun)
  subst heq
  obtain ⟨q, -, -, hend⟩ := (hmap.1 _ List.mem_cons_self).2
  revert hend
  decide

end ControlComponents.Algo
