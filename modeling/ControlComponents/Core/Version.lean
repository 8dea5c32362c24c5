/-
`Version` and `version_to_str` (`ocs_core`): three 16-bit numbers with a comparison, and their text.

`operator<` goes on to the next component also when the one before is greater. So it holds as soon as any component is
smaller.

- `lt_iff`: `operator<` is the failure of the componentwise order the other way round.
- `orderLaws_iff`: among given versions it is the lexicographic order, with the laws of a strict total order, iff any two
  of them compare the same way in every component. `not_versionsOrdered` shows two versions of which each is below the other.
- `scan_eq`: the three attempts of `parse` assign what the first one alone finds.
- `parse_versionToStr`: the text of a version is parsed back whatever follows it, unless it is a digit.
-/
import ControlComponents.Basic
import ControlComponents.Lib.Format
import ControlComponents.Lib.LittleEndian
import Mathlib.Data.Prod.Lex
import Mathlib.Order.Preorder.Chain

namespace ControlComponents.Core

open ControlComponents.Lib ControlComponents.Lib.Format ControlComponents.Lib.LittleEndian

/-! ## Model -/

structure Version where
  major : BitVec 16
  minor : BitVec 16
  patch : BitVec 16
deriving DecidableEq

/-- `memcmp` of two objects of the same size -/
def memcmp : List Byte → List Byte → ℤ
  | a :: as, b :: bs => if a = b then memcmp as bs else (a.toNat : ℤ) - b.toNat
  | _, _ => 0

/-- the numbers `sscanf` stores, in the order of the format -/
structure Parsed where
  major : BitVec 32
  minor : BitVec 32
  patch : BitVec 32

def Parsed.assign (parsed : Parsed) : List (BitVec 32) → Parsed
  | [] => parsed
  | [major] => { parsed with major := major }
  | [major, minor] => { parsed with major := major, minor := minor }
  | major :: minor :: patch :: _ => ⟨major, minor, patch⟩

/-- `.` -/
def dot : Byte := 46

/-- `sscanf` with `n` times `%lu`: what it returns and the numbers afterwards -/
def sscanf (n : ℕ) (str : CString) (parsed : Parsed) : ℤ × Parsed :=
  let numbers := scanSeparated dot n str.text
  (scanned str.text numbers, parsed.assign numbers)

/-- the three attempts of `parse`; they share the numbers -/
def scan (str : CString) : Option Parsed :=
  let (assigned, parsed) := sscanf 3 str ⟨0, 0, 0⟩
  if assigned = 3 then some parsed
  else
    let (assigned, parsed) := sscanf 2 str parsed
    if assigned = 2 then some parsed
    else
      let (assigned, parsed) := sscanf 1 str parsed
      if assigned = 1 then some parsed else none

namespace Version

/-- the memory image; there is no padding -/
def image (v : Version) : List Byte := toLe 2 v.major.toNat ++ toLe 2 v.minor.toNat ++ toLe 2 v.patch.toNat

/-- `operator==` -/
def eq (v version : Version) : Bool := memcmp v.image version.image = 0

/-- `operator<` -/
def lt (v version : Version) : Bool :=
  if v.major < version.major then true
  else if v.minor < version.minor then true
  else v.patch < version.patch

def parse (v : Version) (str : CString) : Bool × Version :=
  match scan str with
  | none => (false, v)
  | some parsed =>
    if 65535 < parsed.major.toNat ∨ 65535 < parsed.minor.toNat ∨ 65535 < parsed.patch.toNat then (false, v)
    else (true, ⟨parsed.major.setWidth 16, parsed.minor.setWidth 16, parsed.patch.setWidth 16⟩)

end Version

/-- `version_to_str::size_` -/
def versionSize : ℕ := (CString.ofString "65535.65535.65535").strlen

/-- `"%u.%u.%u"` -/
def formatted (version : Version) : List Byte :=
  decimal version.major.toNat ++ dot :: (decimal version.minor.toNat ++ dot :: decimal version.patch.toNat)

/-- `version_to_str`: the buffer -/
def versionBuf (version : Version) : List Byte :=
  let (written, buf) := snprintf (List.replicate (versionSize + 1) 0) (formatted version)
  if written < 0 then
    let none := (CString.ofString "<none>").text ++ [0]
    none ++ buf.drop none.length
  else buf

/-- `version_to_str::c_str` -/
def versionToStr (version : Version) : CString := .ofBuffer (versionBuf version)

/-! ## Comparison -/

theorem memcmp_eq_zero_iff {as bs : List Byte} (h : as.length = bs.length) : memcmp as bs = 0 ↔ as = bs := by
  induction as generalizing bs with
  | nil =>
    obtain rfl : bs = [] := List.length_eq_zero_iff.1 h.symm
    simp [memcmp]
  | cons a as ih =>
    obtain ⟨b, bs, rfl⟩ := List.exists_cons_of_ne_nil (List.ne_nil_of_length_eq_add_one h.symm)
    rw [memcmp]
    by_cases hab : a = b
    · rw [if_pos hab, ih (Nat.succ.inj h), hab]
      simp
    · have hne : a.toNat ≠ b.toNat := fun h => hab (BitVec.eq_of_toNat_eq h)
      rw [if_neg hab]
      refine ⟨?_, ?_⟩
      · intro h
        omega
      · intro h
        exact absurd (List.cons.inj h).1 hab

theorem toLe_inj {a b : BitVec 16} (h : toLe 2 a.toNat = toLe 2 b.toNat) : a = b := by
  rw [← ofNat_ofLe_toLe 2 rfl a, ← ofNat_ofLe_toLe 2 rfl b, h]

namespace Version

theorem image_inj {a b : Version} (h : a.image = b.image) : a = b := by
  obtain ⟨hinit, hpatch⟩ := List.append_inj' h (by simp)
  obtain ⟨hmajor, hminor⟩ := List.append_inj' hinit (by simp)
  obtain ⟨_, _, _⟩ := a
  obtain ⟨_, _, _⟩ := b
  cases toLe_inj hmajor
  cases toLe_inj hminor
  cases toLe_inj hpatch
  rfl

theorem eq_iff (a b : Version) : eq a b = true ↔ a = b := by
  rw [eq, decide_eq_true_iff, memcmp_eq_zero_iff (by simp [image])]
  refine ⟨image_inj, ?_⟩
  rintro rfl
  rfl

/-- the components, compared one by one -/
def components (v : Version) : ℕ × ℕ × ℕ := (v.major.toNat, v.minor.toNat, v.patch.toNat)

/-- the components, the first difference deciding -/
def key (v : Version) : ℕ ×ₗ ℕ ×ₗ ℕ := toLex (v.major.toNat, toLex (v.minor.toNat, v.patch.toNat))

theorem components_inj {a b : Version} (h : a.components = b.components) : a = b := by
  obtain ⟨_, _, _⟩ := a
  obtain ⟨_, _, _⟩ := b
  simp only [components, Prod.mk.injEq] at h
  obtain ⟨hmajor, hminor, hpatch⟩ := h
  cases BitVec.eq_of_toNat_eq hmajor
  cases BitVec.eq_of_toNat_eq hminor
  cases BitVec.eq_of_toNat_eq hpatch
  rfl

/-- **What `operator<` decides**: not all components of the other version are as small -/
theorem lt_iff (a b : Version) : lt a b = true ↔ ¬b.components ≤ a.components := by
  simp only [lt, components, Prod.mk_le_mk, BitVec.lt_def, not_and_or, not_le]
  split_ifs with hmajor hminor
  · simp [hmajor]
  · simp [hminor]
  · simp [hmajor, hminor]

theorem key_le_of_components_le {a b : Version} (h : a.components ≤ b.components) : a.key ≤ b.key := by
  simp only [components, Prod.mk_le_mk] at h
  simp only [key, Prod.Lex.toLex_le_toLex]
  omega

theorem key_inj {a b : Version} (h : a.key = b.key) : a = b := by
  refine components_inj ?_
  simpa [key, components] using h

/-- `operator<` misses no pair in lexicographic order -/
theorem lt_of_key_lt {a b : Version} (h : a.key < b.key) : lt a b = true := by
  rw [lt_iff]
  intro hle
  exact absurd (key_le_of_components_le hle) (not_le_of_gt h)

end Version

open Version

/-- `operator<` and `operator==` among the versions of a set: a strict total order that is consistent with equality, and
the lexicographic order -/
structure OrderLaws (versions : Set Version) : Prop where
  irrefl : ∀ a ∈ versions, lt a a = false
  asymm : ∀ a ∈ versions, ∀ b ∈ versions, lt a b = true → lt b a = false
  trans : ∀ a ∈ versions, ∀ b ∈ versions, ∀ c ∈ versions, lt a b = true → lt b c = true → lt a c = true
  /-- exactly one of `a < b`, `a == b` and `b < a` -/
  trichotomous : ∀ a ∈ versions, ∀ b ∈ versions,
    (lt a b = true ∧ eq a b = false ∧ lt b a = false) ∨ (lt a b = false ∧ eq a b = true ∧ lt b a = false) ∨
      (lt a b = false ∧ eq a b = false ∧ lt b a = true)
  lexicographic : ∀ a ∈ versions, ∀ b ∈ versions, lt a b = true ↔ a.key < b.key

/-- any two versions compare the same way in every component -/
abbrev Aligned (versions : Set Version) : Prop := IsChain (fun a b => a.components ≤ b.components) versions

theorem Aligned.total {versions : Set Version} (h : Aligned versions) {a b : Version} (ha : a ∈ versions)
    (hb : b ∈ versions) : a.components ≤ b.components ∨ b.components ≤ a.components := by
  by_cases hab : a = b
  · exact Or.inl (le_of_eq (congrArg components hab))
  · exact h ha hb hab

/-- between two aligned versions `operator<` is the lexicographic order -/
theorem lt_iff_key_lt {a b : Version} (h : a.components ≤ b.components ∨ b.components ≤ a.components) :
    lt a b = true ↔ a.key < b.key := by
  refine ⟨?_, lt_of_key_lt⟩
  intro hlt
  rw [lt_iff] at hlt
  have hle : a.components ≤ b.components := h.resolve_right hlt
  refine lt_of_le_of_ne (key_le_of_components_le hle) ?_
  intro heq
  exact hlt (le_of_eq (congrArg components (key_inj heq.symm)))

theorem Aligned.orderLaws {versions : Set Version} (h : Aligned versions) : OrderLaws versions := by
  have hlex : ∀ a ∈ versions, ∀ b ∈ versions, lt a b = true ↔ a.key < b.key := fun a ha b hb =>
    lt_iff_key_lt (h.total ha hb)
  have hnot : ∀ a ∈ versions, ∀ b ∈ versions, ¬a.key < b.key → lt a b = false := by
    intro a ha b hb hab
    exact Bool.eq_false_iff.2 fun hlt => hab ((hlex a ha b hb).1 hlt)
  have hne : ∀ a b : Version, a ≠ b → eq a b = false := by
    intro a b hab
    exact Bool.eq_false_iff.2 fun heq => hab ((eq_iff a b).1 heq)
  refine { irrefl := ?_, asymm := ?_, trans := ?_, trichotomous := ?_, lexicographic := hlex }
  · intro a ha
    exact hnot a ha a ha (lt_irrefl _)
  · intro a ha b hb hab
    exact hnot b hb a ha (lt_asymm ((hlex a ha b hb).1 hab))
  · intro a ha b hb c hc hab hbc
    exact (hlex a ha c hc).2 (((hlex a ha b hb).1 hab).trans ((hlex b hb c hc).1 hbc))
  · intro a ha b hb
    rcases lt_trichotomy a.key b.key with hab | hab | hab
    · refine Or.inl ⟨(hlex a ha b hb).2 hab, hne a b ?_, hnot b hb a ha (lt_asymm hab)⟩
      rintro rfl
      exact lt_irrefl _ hab
    · cases key_inj hab
      exact Or.inr (Or.inl ⟨hnot a ha a ha (lt_irrefl _), (eq_iff a a).2 rfl, hnot a ha a ha (lt_irrefl _)⟩)
    · refine Or.inr (Or.inr ⟨hnot a ha b hb (lt_asymm hab), hne a b ?_, (hlex b hb a ha).2 hab⟩)
      rintro rfl
      exact lt_irrefl _ hab

/-- **When versions are ordered**: the comparison of the versions of a set obeys the laws of the lexicographic order iff
any two of them compare the same way in every component. -/
theorem orderLaws_iff (versions : Set Version) : OrderLaws versions ↔ Aligned versions := by
  refine ⟨?_, Aligned.orderLaws⟩
  intro laws a ha b hb _
  -- otherwise each is below the other
  by_contra h
  obtain ⟨hab, hba⟩ := not_or.1 h
  have hlt : lt b a = true := (lt_iff b a).2 hab
  have hgt : lt a b = true := (lt_iff a b).2 hba
  rw [laws.asymm a ha b hb hgt] at hlt
  exact Bool.false_ne_true hlt

/-- all versions are ordered -/
def VersionsOrdered : Prop := OrderLaws Set.univ

/-- **Not all versions are ordered**: 2.0.0 is below 1.1.0, and 1.1.0 below 2.0.0 -/
theorem not_versionsOrdered : ¬VersionsOrdered ∧ lt ⟨2, 0, 0⟩ ⟨1, 1, 0⟩ = true ∧ lt ⟨1, 1, 0⟩ ⟨2, 0, 0⟩ = true := by
  refine ⟨?_, by decide, by decide⟩
  intro laws
  have h := laws.asymm ⟨2, 0, 0⟩ trivial ⟨1, 1, 0⟩ trivial (by decide)
  exact absurd h (by decide)

/-! ## Text -/

/-- **The attempts agree**: what `parse` scans are the numbers that the longest format finds, if it finds any, the others
being 0. No failed attempt leaves a number behind that the one that succeeds does not assign again. -/
theorem scan_eq (str : CString) :
    scan str = if scanSeparated dot 3 str.text = [] then none
      else some (Parsed.assign ⟨0, 0, 0⟩ (scanSeparated dot 3 str.text)) := by
  have hle := length_scanSeparated_le dot 3 str.text
  have h3 := scanned_eq_iff dot 3 str.text (show 0 < 3 by decide)
  have h2 := scanned_eq_iff dot 2 str.text (show 0 < 2 by decide)
  have h1 := scanned_eq_iff dot 1 str.text (show 0 < 1 by decide)
  simp only [scanSeparated_take dot (show 2 ≤ 3 by decide) str.text] at h2
  simp only [scanSeparated_take dot (show 1 ≤ 3 by decide) str.text] at h1
  simp only [scan, sscanf, scanSeparated_take dot (show 2 ≤ 3 by decide) str.text,
    scanSeparated_take dot (show 1 ≤ 3 by decide) str.text]
  -- the number of numbers decides which attempt succeeds
  match hnumbers : scanSeparated dot 3 str.text, hle with
  | [], _ => simp_all
  | [_], _ => simp_all [Parsed.assign]
  | [_, _], _ => simp_all [Parsed.assign]
  | [_, _, _], _ => simp_all [Parsed.assign]

theorem length_formatted_le (v : Version) : (formatted v).length ≤ versionSize := by
  have hmajor := length_decimal_le (show 0 < 5 by decide) (v.major.isLt.trans (by norm_num))
  have hminor := length_decimal_le (show 0 < 5 by decide) (v.minor.isLt.trans (by norm_num))
  have hpatch := length_decimal_le (show 0 < 5 by decide) (v.patch.isLt.trans (by norm_num))
  have hsize : versionSize = 17 := by decide
  simp only [formatted, List.length_append, List.length_cons]
  omega

theorem noNul_formatted (v : Version) : 0#8 ∉ formatted v := by
  have hdecimal : ∀ n, 0#8 ∉ decimal n := by
    intro n h
    exact absurd (isDigit_of_mem_decimal h) (by decide)
  simp only [formatted, List.mem_append, List.mem_cons, not_or]
  exact ⟨hdecimal _, by decide, hdecimal _, by decide, hdecimal _⟩

/-- the buffer holds the whole text -/
theorem versionToStr_text (v : Version) : (versionToStr v).text = formatted v := by
  have hlen : (formatted v).length < (List.replicate (versionSize + 1) (0 : Byte)).length := by
    rw [List.length_replicate]
    exact Nat.lt_succ_of_le (length_formatted_le v)
  have hnonneg : ¬(snprintf (List.replicate (versionSize + 1) 0) (formatted v)).1 < 0 := by
    rw [snprintf_eq hlen]
    omega
  rw [versionToStr, versionBuf]
  simp only [hnonneg, if_false]
  exact ofBuffer_snprintf hlen (noNul_formatted v)

theorem scanSeparated_formatted (v : Version) {suffix : List Byte} (hsuffix : ∀ c ∈ suffix.head?, isDigit c = false) :
    scanSeparated dot 3 (formatted v ++ suffix) =
      [v.major.setWidth 32, v.minor.setWidth 32, v.patch.setWidth 32] := by
  have hdot : isDigit dot = false := by decide
  have hwide : ∀ x : BitVec 16, x.toNat < 2 ^ 32 := fun x => x.isLt.trans (by norm_num)
  simp only [formatted, List.append_assoc, List.cons_append]
  rw [scanSeparated_decimal hdot 2 (hwide _), scanSeparated_decimal hdot 1 (hwide _),
    scanSeparated_last (hwide _) hsuffix]
  simp only [BitVec.ofNat_toNat]

/-- **The text of a version** is written whole, and parsed back into any version object whatever follows it, unless it is
a digit. A text that is not parsed leaves the object as it was. -/
theorem parse_versionToStr :
    (∀ v : Version, (versionToStr v).text = formatted v) ∧
    (∀ (v : Version) (suffix : CString), (∀ c ∈ suffix.text.head?, isDigit c = false) →
      ∀ old : Version, old.parse ((versionToStr v).append suffix) = (true, v)) ∧
    ∀ (old : Version) (str : CString), (old.parse str).1 = false → (old.parse str).2 = old := by
  refine ⟨versionToStr_text, ?_, ?_⟩
  · intro v suffix hsuffix old
    have hlarge : ∀ x : BitVec 16, ¬65535 < (x.setWidth 32).toNat := by
      intro x
      rw [BitVec.toNat_setWidth, Nat.mod_eq_of_lt (by omega)]
      omega
    have hback : ∀ x : BitVec 16, (x.setWidth 32).setWidth 16 = x := fun x => BitVec.setWidth_setWidth_of_le x (by decide)
    have hnumbers : scanSeparated dot 3 ((versionToStr v).append suffix).text =
        [v.major.setWidth 32, v.minor.setWidth 32, v.patch.setWidth 32] := by
      change scanSeparated dot 3 ((versionToStr v).text ++ suffix.text) = _
      rw [versionToStr_text, scanSeparated_formatted v hsuffix]
    rw [parse, scan_eq, hnumbers, if_neg (List.cons_ne_nil _ _)]
    simp only [Parsed.assign, hlarge, hback, or_self, if_false]
  · intro old str h
    unfold parse at h ⊢
    split
    · rfl
    · split_ifs with hlarge
      · rfl
      · simp_all

/-- the text of 9.1.1 with a pre-release tag behind it -/
theorem parse_versionToStr_tagged :
    (⟨0, 0, 0⟩ : Version).parse ((versionToStr ⟨9, 1, 1⟩).append (.ofString "_<rc|beta>")) = (true, ⟨9, 1, 1⟩) :=
  parse_versionToStr.2.1 ⟨9, 1, 1⟩ (.ofString "_<rc|beta>") (by decide) ⟨0, 0, 0⟩

end ControlComponents.Core
