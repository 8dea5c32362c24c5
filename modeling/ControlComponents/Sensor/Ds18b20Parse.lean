/-
Configurations of a DS18B20 sensor as text: `serial_number_to_str` (`ocs_onewire`) and `parse_configuration`
(`ocs_sensor/ds18b20`).

The serial number is split at the colons; that a group has two characters is checked, that they are hexadecimal digits is
not. The value comes from a URI, so anything may follow it.

- `parseSerialNumber_pairs`, `parseSerialNumber_accepts`: a serial number is taken iff five pairs are each followed by a
  colon, and behind the last pair a NUL comes before the next colon.
- `followsGrammar_iff`: the grammar is followed iff the parser neither reads behind the object, nor takes such pairs with
  characters that are no digits, nor refuses digits because of what follows them. `not_parsesGrammar` shows a letter that
  is no digit.
- `parse_printed`: a printed serial number is parsed back, in either case of its letters.
-/
import ControlComponents.Algo.StringOps
import ControlComponents.Lib.Format
import ControlComponents.Sensor.Ds18b20

namespace ControlComponents.Onewire

open ControlComponents.Algo ControlComponents.Lib ControlComponents.Lib.Format

/-! ## Model -/

abbrev SerialNumber := Vector Byte 6

def RomCode.serialNumber (romCode : RomCode) : SerialNumber := .ofFn fun i : Fin 6 => romCode.bytes[i.val + 1]

def RomCode.setSerialNumber (romCode : RomCode) (serialNumber : SerialNumber) : RomCode :=
  ⟨#v[romCode.bytes.get 0, serialNumber.get 0, serialNumber.get 1, serialNumber.get 2, serialNumber.get 3,
    serialNumber.get 4, serialNumber.get 5, romCode.bytes.get 7]⟩

@[simp] theorem RomCode.serialNumber_setSerialNumber (romCode : RomCode) (serialNumber : SerialNumber) :
    (romCode.setSerialNumber serialNumber).serialNumber = serialNumber := by
  ext i hi
  simp only [RomCode.serialNumber, RomCode.setSerialNumber, Vector.getElem_ofFn]
  interval_cases i <;> rfl

/-- `:` -/
def colon : Byte := 58

/-- `serial_number_to_str::str_length` -/
def strLength : ℕ := (CString.ofString "AA:BB:CC:DD:EE:FF").strlen

/-- `DS_SENSOR_SERIAL_NUMBER_STR` with its arguments -/
def formatted (serialNumber : SerialNumber) : Text := [colon].intercalate (serialNumber.toList.map hexByte)

/-- `serial_number_to_str`: the buffer; `none` if the assertion fails -/
def serialNumberToStr (serialNumber : SerialNumber) : Option Text :=
  let (written, buf) := snprintf (List.replicate (strLength + 1) 0) (formatted serialNumber)
  if written = strLength then some buf else none

end ControlComponents.Onewire

namespace ControlComponents.Ds18b20

open ControlComponents.Algo ControlComponents.Lib ControlComponents.Lib.Format ControlComponents.Onewire

def parseResolution (str : Text) : Resolution :=
  if str = ascii "12".toList then .bit12
  else if str = ascii "11".toList then .bit11
  else if str = ascii "10".toList then .bit10
  else if str = ascii "9".toList then .bit9
  else .none

/-- one character of `parse_hex`, as an `int` -/
def parseDigit (c : Byte) : BitVec 32 :=
  if isDigit c then c.setWidth 32 - 48 else (tolower c).setWidth 32 - 97 + 10

def parseHex (hi lo : Byte) : Byte := (parseDigit hi <<< 4 ||| parseDigit lo).setWidth 8

/-- the byte of a group of two characters -/
def groupByte (group : Text) : Byte := parseHex (group[0]?.getD 0) (group[1]?.getD 0)

/-- the loop of `parse_serial_number` over the remaining groups, from the `n`-th one on -/
def parseGroups (str : Value) : List StringView → ℕ → SerialNumber → Bool × SerialNumber
  | [], _, serialNumber => (true, serialNumber)
  | v :: values, n, serialNumber =>
    if v.size ≠ 2 then (false, serialNumber)
    else parseGroups str values (n + 1) (serialNumber.setIfInBounds n (groupByte (str.content v)))

/-- `parse_serial_number`; `none` if splitting reads behind the object -/
def parseSerialNumber (serialNumber : SerialNumber) (str : Value) : Option (Bool × SerialNumber) :=
  if str.text.length ≠ strLength then some (false, serialNumber)
  else
    match split colon str with
    | .done values => some (if values.length ≠ 6 then (false, serialNumber) else parseGroups str values 0 serialNumber)
    | _ => none

def parseConfiguration (configuration : Configuration) (serialNumber resolution : Value) :
    Option (StatusCode × Configuration) :=
  match parseSerialNumber configuration.romCode.serialNumber serialNumber with
  | none => none
  | some (false, serial) =>
    some (.invalidArg, { configuration with romCode := configuration.romCode.setSerialNumber serial })
  | some (true, serial) =>
    let configuration : Configuration :=
      { romCode := configuration.romCode.setSerialNumber serial, resolution := parseResolution resolution.text }
    if configuration.resolution = .none then some (.invalidArg, configuration) else some (.ok, configuration)

/-! ## Specification -/

/-- two hexadecimal digits and the byte they denote -/
def Denotes (group : Text) (b : Byte) : Prop :=
  ∃ hi lo, group = [hi, lo] ∧ isHex hi = true ∧ isHex lo = true ∧ 16 * hexValue hi + hexValue lo = b.toNat

/-- six groups of two hexadecimal digits with colons between them, and the bytes they denote -/
def SerialText (text : Text) (serialNumber : SerialNumber) : Prop :=
  ∃ groups, text = [colon].intercalate groups ∧ List.Forall₂ Denotes groups serialNumber.toList

/-- a supported resolution and its text -/
def ResolutionText (text : Text) (resolution : Resolution) : Prop :=
  (text = ascii "9".toList ∧ resolution = .bit9) ∨ (text = ascii "10".toList ∧ resolution = .bit10) ∨
    (text = ascii "11".toList ∧ resolution = .bit11) ∨ (text = ascii "12".toList ∧ resolution = .bit12)

/-- the texts are accepted iff they are in the grammar, with what they denote, and refused as invalid otherwise -/
def FollowsGrammar (configuration : Configuration) (serialNumber resolution : Value) : Prop :=
  ∃ code result, parseConfiguration configuration serialNumber resolution = some (code, result) ∧
    (code = .ok ↔ (∃ serial, SerialText serialNumber.text serial) ∧ ∃ r, ResolutionText resolution.text r) ∧
    (code = .ok → SerialText serialNumber.text result.romCode.serialNumber ∧
      ResolutionText resolution.text result.resolution) ∧
    (code ≠ .ok → code = .invalidArg)

/-! ## Groups -/

/-- groups with a colon behind each of them -/
def front (groups : List Text) : Text := groups.flatMap (· ++ [colon])

@[simp] theorem front_nil : front [] = [] := rfl

@[simp] theorem front_cons (g : Text) (groups : List Text) : front (g :: groups) = g ++ colon :: front groups := by
  simp [front]

/-- two characters, neither a colon nor a NUL -/
structure IsGroup (g : Text) : Prop where
  length : g.length = 2
  noColon : colon ∉ g
  noNul : 0#8 ∉ g

theorem intercalate_front (groups : List Text) (last : Text) :
    [colon].intercalate (groups ++ [last]) = front groups ++ last := by
  induction groups with
  | nil => simp [List.intercalate]
  | cons g groups ih =>
    obtain ⟨next, rest, hnext⟩ := List.exists_cons_of_ne_nil (show groups ++ [last] ≠ [] by simp)
    rw [List.cons_append, hnext, List.intercalate_cons_cons, ← hnext, ih, front_cons]
    simp

theorem length_front {groups : List Text} (h : ∀ g ∈ groups, g.length = 2) : (front groups).length = 3 * groups.length := by
  induction groups with
  | nil => rfl
  | cons g groups ih =>
    rw [List.forall_mem_cons] at h
    rw [front_cons, List.length_append, List.length_cons, ih h.2, h.1, List.length_cons]
    omega

/-- pairs can be told apart by their lengths -/
theorem front_inj {groups groups' : List Text} {last last' : Text} (h : front groups ++ last = front groups' ++ last')
    (hcount : groups.length = groups'.length) (hlen : ∀ g ∈ groups, g.length = 2) (hlen' : ∀ g ∈ groups', g.length = 2) :
    groups = groups' ∧ last = last' := by
  induction groups generalizing groups' with
  | nil =>
    obtain rfl : groups' = [] := List.length_eq_zero_iff.1 hcount.symm
    exact ⟨rfl, h⟩
  | cons g groups ih =>
    obtain ⟨g', groups', rfl⟩ := List.exists_cons_of_ne_nil (List.ne_nil_of_length_eq_add_one hcount.symm)
    rw [List.forall_mem_cons] at hlen hlen'
    rw [front_cons, front_cons, List.append_assoc, List.append_assoc] at h
    obtain ⟨rfl, hrest⟩ := List.append_inj h (hlen.1.trans hlen'.1.symm)
    obtain ⟨rfl, rfl⟩ := ih (List.cons.inj hrest).2 (Nat.succ.inj hcount) hlen.2 hlen'.2
    exact ⟨rfl, rfl⟩

/-- a view of the value from an offset to its end shows the rest of it -/
theorem content_rest {value : Value} {start : ℕ} {rest : Text} (h : value.text.drop start = rest) (hne : rest ≠ []) :
    value.content ⟨start, rest.length⟩ = rest := by
  rw [Value.content, (Value.object_drop h hne).1, List.take_left]

theorem content_part {value : Value} {start : ℕ} {part next : Text} (h : value.text.drop start = part ++ colon :: next) :
    value.content ⟨start, part.length⟩ = part := by
  rw [Value.content, (Value.object_drop h (by simp)).1, List.append_assoc, List.take_left]

/-- **What views of two characters take**: a view and the delimiter behind it take three characters, so that no more views
fit into the rest of the value than one for three, and the last of so many begins the last pair. -/
theorem splitLoop_pairs {value : Value} (fuel start : ℕ) (values : List StringView) {found : List StringView} {rest : Text}
    (hrest : value.text.drop start = rest) (hne : rest ≠ []) (hlen : 2 ≤ value.text.length)
    (hdone : splitLoop colon value fuel start values = .done found) (hsize : ∀ v ∈ found, v.size = 2) :
    ∃ more, found = values ++ more ∧ 3 * more.length ≤ rest.length + 1 ∧
      (3 * more.length = rest.length + 1 →
        ∃ groups pair, rest = front groups ++ pair ∧ groups.length + 1 = more.length ∧ (∀ g ∈ groups, IsGroup g) ∧
          strchr colon (pair ++ value.after) = some none ∧ more.map value.content = groups ++ [pair]) := by
  induction fuel generalizing start values rest with
  | zero => cases hdone
  | succ fuel ih =>
    have hpos := List.length_pos_of_ne_nil hne
    by_cases hone : rest.length = 1
    · -- the last character is no view of two
      obtain ⟨c, rfl⟩ := List.length_eq_one_iff.1 hone
      rw [splitLoop_last colon fuel values hrest] at hdone
      cases hdone
      by_cases hc : c = colon
      · exact ⟨[], by simp [hc], by simp, by simp⟩
      · have h := hsize ⟨start, 1⟩ (by simp [hc])
        cases h
    have hlen2 : 2 ≤ rest.length := by omega
    by_cases hnul : strchr colon (rest ++ value.after) = some none
    · -- the rest is taken for one view
      rw [splitLoop_nul fuel values hrest hlen2 hnul] at hdone
      cases hdone
      by_cases hempty : values = []
      · exact ⟨[], by simp [hempty], by simp, by simp⟩
      · have h := hsize ⟨start, rest.length⟩ (by simp [hempty])
        simp only at h
        refine ⟨[⟨start, rest.length⟩], by simp [hempty], by simp [h], ?_⟩
        intro _
        exact ⟨[], rest, rfl, rfl, by simp, hnul, by simp [content_rest hrest hne]⟩
    by_cases hmem : colon ∈ rest
    · obtain ⟨part, next, rfl, hpart⟩ := List.eq_append_cons_of_mem hmem
      have hpartnul : 0#8 ∉ part := fun h => hnul (strchr_part hpart h _ _)
      rw [splitLoop_part fuel values hrest hpart hpartnul hlen2] at hdone
      simp only [List.length_append, List.length_cons] at hlen2 ⊢
      by_cases hempty : part = []
      · -- a delimiter alone takes a character and adds no view
        subst hempty
        simp only [if_pos, List.append_nil, List.length_nil] at hdone hlen2 ⊢
        have hnext : next ≠ [] := List.ne_nil_of_length_pos (by omega)
        rw [if_neg hnext] at hdone
        obtain ⟨more, rfl, hbound, -⟩ := ih _ _ (drop_part hrest) hnext hdone
        exact ⟨more, rfl, by omega, fun h => absurd h (by omega)⟩
      rw [if_neg hempty] at hdone
      by_cases hnext : next = []
      · rw [if_pos hnext] at hdone
        cases hdone
        have hpartlen : part.length = 2 := hsize ⟨start, part.length⟩ (by simp)
        exact ⟨_, rfl, by simp; omega, by simp [hnext, hpartlen]⟩
      · rw [if_neg hnext] at hdone
        obtain ⟨more, rfl, hbound, hgroups⟩ := ih _ _ (drop_part hrest) hnext hdone
        have hpartlen : part.length = 2 := hsize ⟨start, part.length⟩ (by simp)
        refine ⟨_, List.append_assoc _ _ _, ?_, ?_⟩
        · simp only [List.length_append, List.length_singleton]
          omega
        · intro heq
          simp only [List.length_append, List.length_singleton] at heq
          obtain ⟨groups, pair, rfl, hcount, hall, hend, hcontent⟩ := hgroups (by omega)
          refine ⟨part :: groups, pair, ?_, ?_, ?_, hend, ?_⟩
          · simp
          · simp only [List.length_append, List.length_cons, List.length_nil]
            omega
          · exact List.forall_mem_cons.2 ⟨⟨hpartlen, hpart, hpartnul⟩, hall⟩
          · rw [List.map_append, hcontent]
            simp [content_part hrest]
    · obtain ⟨v, hv, -, hlong⟩ := splitLoop_behind hrest hlen2 hmem hnul hdone
      have h := hsize v hv
      omega

/-- **Pairs are found**, each as a view, if a NUL comes before the next colon behind the last of them. -/
theorem splitLoop_groups {value : Value} (fuel start : ℕ) (values : List StringView) {groups : List Text} {pair : Text}
    (hrest : value.text.drop start = front groups ++ pair) (hpair : pair.length = 2) (hgroups : ∀ g ∈ groups, IsGroup g)
    (hnul : strchr colon (pair ++ value.after) = some none) (hvalues : groups = [] → values ≠ [])
    (hfuel : groups.length < fuel) :
    ∃ more, splitLoop colon value fuel start values = .done (values ++ more) ∧ (∀ v ∈ more, v.size = 2) ∧
      more.map value.content = groups ++ [pair] := by
  induction groups generalizing fuel start values with
  | nil =>
    obtain ⟨fuel, rfl⟩ := Nat.exists_eq_succ_of_ne_zero (Nat.ne_of_gt (Nat.zero_lt_of_lt hfuel))
    rw [front_nil, List.nil_append] at hrest
    refine ⟨[⟨start, pair.length⟩], ?_, by simp [hpair], ?_⟩
    · rw [splitLoop_nul fuel values hrest (by omega) hnul, if_neg (hvalues rfl)]
    · simp [content_rest hrest (List.ne_nil_of_length_pos (by omega))]
  | cons g groups ih =>
    obtain ⟨fuel, rfl⟩ := Nat.exists_eq_succ_of_ne_zero (Nat.ne_of_gt (Nat.zero_lt_of_lt hfuel))
    rw [List.forall_mem_cons] at hgroups
    rw [front_cons, List.append_assoc, List.cons_append] at hrest
    have hne : g ≠ [] := List.ne_nil_of_length_pos (by rw [hgroups.1.length]; decide)
    have hnext : front groups ++ pair ≠ [] := List.append_ne_nil_of_right_ne_nil _ (List.ne_nil_of_length_pos (by omega))
    obtain ⟨more, hdone, hsize, hcontent⟩ := ih fuel (start + g.length + 1) (values ++ [⟨start, g.length⟩])
      (drop_part hrest) hgroups.2 (by simp) (Nat.lt_of_succ_lt_succ hfuel)
    refine ⟨⟨start, g.length⟩ :: more, ?_, List.forall_mem_cons.2 ⟨hgroups.1.length, hsize⟩, ?_⟩
    · rw [splitLoop_part fuel values hrest hgroups.1.noColon hgroups.1.noNul (by simp [hgroups.1.length]), if_neg hnext,
        if_neg hne, hdone, List.append_assoc]
      rfl
    · rw [List.map_cons, hcontent, content_part hrest]
      rfl

/-- five pairs with colons behind them, and a sixth behind which a NUL comes before the next colon -/
structure SixPairs (value : Value) (groups : List Text) (pair : Text) : Prop where
  text : value.text = front groups ++ pair
  count : groups.length = 5
  groups : ∀ g ∈ groups, IsGroup g
  ends : strchr colon (pair ++ value.after) = some none

theorem SixPairs.length_pair {value : Value} {groups : List Text} {pair : Text} (h : SixPairs value groups pair)
    (hlen : value.text.length = 17) : pair.length = 2 := by
  have htotal := congrArg List.length h.text
  rw [List.length_append, length_front fun g hg => (h.groups g hg).length, h.count] at htotal
  omega

/-- **When splitting gives six views of two characters** -/
theorem split_six_iff {value : Value} (hlen : value.text.length = 17) (groups : List Text) (pair : Text) :
    (∃ values, split colon value = .done values ∧ values.length = 6 ∧ (∀ v ∈ values, v.size = 2) ∧
      values.map value.content = groups ++ [pair]) ↔ SixPairs value groups pair := by
  have hne : value.text ≠ [] := List.ne_nil_of_length_pos (by omega)
  rw [split, if_neg (by omega)]
  refine ⟨?_, ?_⟩
  · rintro ⟨values, hdone, hcount, hsize, hcontent⟩
    obtain ⟨more, rfl, -, hgroups⟩ := splitLoop_pairs _ 0 [] rfl hne (by omega) hdone hsize
    obtain ⟨groups', pair', htext, hcount', hall, hend, hcontent'⟩ := hgroups (by rw [List.drop_zero]; omega)
    rw [hcontent'] at hcontent
    obtain ⟨rfl, hpair⟩ := List.append_inj' hcontent rfl
    cases hpair
    exact { text := htext, count := by omega, groups := hall, ends := hend }
  · intro h
    have hfuel : groups.length < value.object.length + 1 := by
      rw [h.count, Value.object, List.length_append]
      omega
    obtain ⟨more, hdone, hsize, hcontent⟩ := splitLoop_groups (value.object.length + 1) 0 [] h.text (h.length_pair hlen)
      h.groups h.ends (fun hnil => absurd h.count (by simp [hnil])) hfuel
    rw [List.nil_append] at hdone
    have hcount := congrArg List.length hcontent
    rw [List.length_map, List.length_append, h.count] at hcount
    exact ⟨more, hdone, hcount, hsize, hcontent⟩

/-! ## Serial numbers -/

theorem parseGroups_fst (str : Value) (values : List StringView) (n : ℕ) (serialNumber : SerialNumber) :
    (parseGroups str values n serialNumber).1 = true ↔ ∀ v ∈ values, v.size = 2 := by
  induction values generalizing n serialNumber with
  | nil => simp [parseGroups]
  | cons v values ih =>
    rw [parseGroups, List.forall_mem_cons]
    by_cases hv : v.size = 2
    · simp [hv, ih]
    · simp [hv]

/-- six groups give all six bytes -/
theorem parseGroups_snd {str : Value} {values : List StringView} (hcount : values.length = 6)
    (hsize : ∀ v ∈ values, v.size = 2) (serialNumber : SerialNumber) :
    (parseGroups str values 0 serialNumber).2.toList = (values.map str.content).map groupByte := by
  match values, hcount with
  | [a, b, c, d, e, f], _ =>
    simp only [List.forall_mem_cons] at hsize
    obtain ⟨ha, hb, hc, hd, he, hf, -⟩ := hsize
    simp only [parseGroups, ha, hb, hc, hd, he, hf, ne_eq, not_true, if_false, List.map_cons, List.map_nil]
    generalize groupByte (str.content a) = a', groupByte (str.content b) = b', groupByte (str.content c) = c',
      groupByte (str.content d) = d', groupByte (str.content e) = e', groupByte (str.content f) = f'
    have hall : (((((serialNumber.setIfInBounds 0 a').setIfInBounds (0 + 1) b').setIfInBounds (0 + 1 + 1) c').setIfInBounds
        (0 + 1 + 1 + 1) d').setIfInBounds (0 + 1 + 1 + 1 + 1) e').setIfInBounds (0 + 1 + 1 + 1 + 1 + 1) f' =
        #v[a', b', c', d', e', f'] := by
      ext i hi
      interval_cases i <;> simp
    rw [hall]
    rfl

/-- **When a serial number is taken**, and its bytes -/
theorem parseSerialNumber_pairs {str : Value} (hlen : str.text.length = strLength) {groups : List Text} {pair : Text}
    (h : SixPairs str groups pair) (serialNumber : SerialNumber) :
    ∃ serial, parseSerialNumber serialNumber str = some (true, serial) ∧
      serial.toList = (groups ++ [pair]).map groupByte := by
  obtain ⟨values, hdone, hcount, hsize, hcontent⟩ := (split_six_iff hlen groups pair).2 h
  refine ⟨(parseGroups str values 0 serialNumber).2, ?_, ?_⟩
  · rw [parseSerialNumber, if_neg (by simp [hlen]), hdone]
    simp only [hcount, ne_eq, not_true, if_false]
    rw [← (parseGroups_fst str values 0 serialNumber).2 hsize]
  · rw [parseGroups_snd hcount hsize, hcontent]

/-- nothing else is taken -/
theorem parseSerialNumber_accepts {str : Value} {serialNumber serial : SerialNumber}
    (h : parseSerialNumber serialNumber str = some (true, serial)) :
    str.text.length = strLength ∧ ∃ groups pair, SixPairs str groups pair ∧
      serial.toList = (groups ++ [pair]).map groupByte := by
  unfold parseSerialNumber at h
  split_ifs at h with hlen
  · cases h
  · rw [not_not] at hlen
    refine ⟨hlen, ?_⟩
    split at h
    · rename_i values hdone
      split_ifs at h with hcount
      · cases h
      · rw [not_not] at hcount
        rw [Option.some.injEq] at h
        have hsize := (parseGroups_fst str values 0 serialNumber).1 (by rw [h])
        have hbytes : (parseGroups str values 0 serialNumber).2.toList = _ := parseGroups_snd hcount hsize serialNumber
        have hne : values.map str.content ≠ [] := List.ne_nil_of_length_pos (by rw [List.length_map, hcount]; decide)
        have hcontent := (List.dropLast_append_getLast hne).symm
        rw [h, hcontent] at hbytes
        exact ⟨_, _, (split_six_iff hlen _ _).1 ⟨values, hdone, hcount, hsize, hcontent⟩, hbytes⟩
    · cases h

/-- the texts are parsed unless splitting reads behind the object -/
theorem parseSerialNumber_isSome {str : Value} (hlen : str.text.length = strLength) (serialNumber : SerialNumber) :
    (∃ r, parseSerialNumber serialNumber str = some r) ↔ colon ∈ str.text.drop 15 ∨ 0#8 ∈ str.object := by
  have hdefined := split_defined_iff (show colon ≠ 0#8 by decide) (show 2 ≤ str.text.length by rw [hlen]; decide)
  rw [hlen, show strLength - 2 = 15 from rfl] at hdefined
  rw [← hdefined, parseSerialNumber, if_neg (by simp [hlen])]
  cases split colon str with
  | undefined => simp
  | running => simp
  | done values => simp

/-! ## The grammar -/

theorem parseDigit_of_isHex {c : Byte} (hc : isHex c = true) :
    parseDigit c = BitVec.ofNat 32 (hexValue c) ∧ hexValue c < 16 := by
  have hall : ∀ c : Byte, isHex c = true → parseDigit c = BitVec.ofNat 32 (hexValue c) ∧ hexValue c < 16 := by
    decide +kernel
  exact hall c hc

theorem parseHex_of_isHex {hi lo : Byte} (hhi : isHex hi = true) (hlo : isHex lo = true) :
    (parseHex hi lo).toNat = 16 * hexValue hi + hexValue lo := by
  have hall : ∀ h l : Fin 16,
      ((BitVec.ofNat 32 h <<< 4 ||| BitVec.ofNat 32 l).setWidth 8).toNat = 16 * h.val + l.val := by
    decide +kernel
  obtain ⟨hhiDigit, hhiLt⟩ := parseDigit_of_isHex hhi
  obtain ⟨hloDigit, hloLt⟩ := parseDigit_of_isHex hlo
  rw [parseHex, hhiDigit, hloDigit]
  exact hall ⟨_, hhiLt⟩ ⟨_, hloLt⟩

/-- two digits denote the byte the parser makes of them -/
theorem denotes_iff (g : Text) (b : Byte) :
    Denotes g b ↔ (g.length = 2 ∧ ∀ c ∈ g, isHex c = true) ∧ groupByte g = b := by
  refine ⟨?_, ?_⟩
  · rintro ⟨hi, lo, rfl, hhi, hlo, hvalue⟩
    refine ⟨⟨rfl, by simp [hhi, hlo]⟩, BitVec.eq_of_toNat_eq ?_⟩
    rw [← hvalue]
    exact parseHex_of_isHex hhi hlo
  · rintro ⟨⟨hlen, hhex⟩, rfl⟩
    obtain ⟨hi, lo, rfl⟩ := List.length_eq_two.1 hlen
    have hhi : isHex hi = true := hhex hi (by simp)
    have hlo : isHex lo = true := hhex lo (by simp)
    exact ⟨hi, lo, rfl, hhi, hlo, (parseHex_of_isHex hhi hlo).symm⟩

theorem forall₂_denotes_iff (groups : List Text) (bytes : List Byte) :
    List.Forall₂ Denotes groups bytes ↔
      (∀ g ∈ groups, g.length = 2 ∧ ∀ c ∈ g, isHex c = true) ∧ bytes = groups.map groupByte := by
  have heq : List.Forall₂ (fun g b => groupByte g = b) groups bytes ↔ groups.map groupByte = bytes := by
    rw [← List.forall₂_map_left_iff, List.forall₂_eq_eq_eq]
  have hdenotes : Denotes = fun g b => (g.length = 2 ∧ ∀ c ∈ g, isHex c = true) ∧ groupByte g = b := by
    funext g b
    exact propext (denotes_iff g b)
  calc List.Forall₂ Denotes groups bytes
      ↔ List.Forall₂ (fun g b => (g.length = 2 ∧ ∀ c ∈ g, isHex c = true) ∧ groupByte g = b) groups bytes := by
        rw [hdenotes]
    _ ↔ (∀ g ∈ groups, g.length = 2 ∧ ∀ c ∈ g, isHex c = true) ∧ groups.map groupByte = bytes := by
        rw [List.forall₂_and_left, heq]
    _ ↔ _ := by rw [eq_comm (a := bytes)]

theorem isGroup_of_isHex {g : Text} (hlen : g.length = 2) (hhex : ∀ c ∈ g, isHex c = true) : IsGroup g :=
  { length := hlen
    noColon := fun h => absurd (hhex _ h) (by decide)
    noNul := fun h => absurd (hhex _ h) (by decide) }

/-- a serial number as five pairs and a sixth -/
theorem serialText_iff (text : Text) (serial : SerialNumber) :
    SerialText text serial ↔ ∃ groups pair, text = front groups ++ pair ∧ groups.length = 5 ∧
      (∀ g ∈ groups ++ [pair], g.length = 2 ∧ ∀ c ∈ g, isHex c = true) ∧
      serial.toList = (groups ++ [pair]).map groupByte := by
  refine ⟨?_, ?_⟩
  · rintro ⟨all, rfl, hdenotes⟩
    have hcount := hdenotes.length_eq
    rw [Vector.length_toList] at hcount
    have hne : all ≠ [] := List.ne_nil_of_length_pos (by omega)
    obtain ⟨groups, pair, rfl⟩ : ∃ groups pair, all = groups ++ [pair] :=
      ⟨_, _, (List.dropLast_append_getLast hne).symm⟩
    rw [List.length_append, List.length_singleton] at hcount
    obtain ⟨hhex, hbytes⟩ := (forall₂_denotes_iff _ _).1 hdenotes
    exact ⟨groups, pair, intercalate_front groups pair, by omega, hhex, hbytes⟩
  · rintro ⟨groups, pair, rfl, hcount, hhex, hbytes⟩
    exact ⟨groups ++ [pair], (intercalate_front groups pair).symm, (forall₂_denotes_iff _ _).2 ⟨hhex, hbytes⟩⟩

theorem SerialText.length {text : Text} {serial : SerialNumber} (h : SerialText text serial) :
    text.length = strLength := by
  obtain ⟨groups, pair, rfl, hcount, hhex, -⟩ := (serialText_iff text serial).1 h
  have hpair := (hhex pair (by simp)).1
  have hfront := length_front fun g hg => (hhex g (List.mem_append_left _ hg)).1
  rw [List.length_append, hfront, hcount, hpair]
  rfl

/-- the supported resolutions are those that are parsed -/
theorem resolutionText_iff (text : Text) (r : Resolution) :
    ResolutionText text r ↔ parseResolution text = r ∧ r ≠ .none := by
  refine ⟨?_, ?_⟩
  · rintro (⟨rfl, rfl⟩ | ⟨rfl, rfl⟩ | ⟨rfl, rfl⟩ | ⟨rfl, rfl⟩)
    · decide
    · decide
    · decide
    · decide
  · rintro ⟨rfl, hne⟩
    unfold parseResolution at hne ⊢
    split_ifs at hne ⊢ with h12 h11 h10 h9
    · exact Or.inr (Or.inr (Or.inr ⟨h12, rfl⟩))
    · exact Or.inr (Or.inr (Or.inl ⟨h11, rfl⟩))
    · exact Or.inr (Or.inl ⟨h10, rfl⟩)
    · exact Or.inl ⟨h9, rfl⟩
    · exact absurd rfl hne

theorem exists_resolutionText_iff (text : Text) :
    (∃ r, ResolutionText text r) ↔ parseResolution text ≠ .none := by
  simp only [resolutionText_iff]
  refine ⟨?_, fun h => ⟨_, rfl, h⟩⟩
  rintro ⟨r, rfl, h⟩
  exact h

/-- what is made of the serial number decides, together with the resolution -/
theorem parseConfiguration_of_some {configuration : Configuration} {serialNumber : Value} {taken : Bool}
    {serial : SerialNumber}
    (h : parseSerialNumber configuration.romCode.serialNumber serialNumber = some (taken, serial)) (resolution : Value) :
    ∃ code result, parseConfiguration configuration serialNumber resolution = some (code, result) ∧
      (code = .ok ↔ taken = true ∧ ∃ r, ResolutionText resolution.text r) ∧
      (code = .ok → result.romCode.serialNumber = serial ∧ ResolutionText resolution.text result.resolution) ∧
      (code ≠ .ok → code = .invalidArg) := by
  rw [exists_resolutionText_iff]
  simp only [parseConfiguration, h]
  cases taken with
  | false => exact ⟨_, _, rfl, by simp, by simp, fun _ => rfl⟩
  | true =>
    by_cases hnone : parseResolution resolution.text = .none
    · simp only [hnone, if_true]
      exact ⟨_, _, rfl, by simp, by simp, fun _ => rfl⟩
    · simp only [hnone, if_false]
      refine ⟨_, _, rfl, by simp [hnone], fun _ => ⟨?_, ?_⟩, fun hne => absurd rfl hne⟩
      · exact RomCode.serialNumber_setSerialNumber _ _
      · exact (resolutionText_iff _ _).2 ⟨rfl, hnone⟩

/-- the condition: the serial number has another length, or splitting stays in the object, and a supported resolution comes
with five pairs and a sixth only if a NUL comes before the next colon behind them exactly when all are digits -/
def Unambiguous (serialNumber resolution : Value) : Prop :=
  serialNumber.text.length ≠ strLength ∨
  ((colon ∈ serialNumber.text.drop 15 ∨ 0#8 ∈ serialNumber.object) ∧
    ∀ groups pair, serialNumber.text = front groups ++ pair → groups.length = 5 → (∀ g ∈ groups, IsGroup g) →
      (∃ r, ResolutionText resolution.text r) →
      (strchr colon (pair ++ serialNumber.after) = some none ↔ ∀ g ∈ groups ++ [pair], ∀ c ∈ g, isHex c = true))

/-- there is a serial number in the grammar iff there are six pairs of digits -/
theorem exists_serialText_iff (text : Text) :
    (∃ serial, SerialText text serial) ↔ ∃ groups pair, text = front groups ++ pair ∧ groups.length = 5 ∧
      ∀ g ∈ groups ++ [pair], g.length = 2 ∧ ∀ c ∈ g, isHex c = true := by
  refine ⟨?_, ?_⟩
  · rintro ⟨serial, h⟩
    obtain ⟨groups, pair, htext, hcount, hhex, -⟩ := (serialText_iff text serial).1 h
    exact ⟨groups, pair, htext, hcount, hhex⟩
  · rintro ⟨groups, pair, htext, hcount, hhex⟩
    have hsize : ((groups ++ [pair]).map groupByte).toArray.size = 6 := by simp [hcount]
    exact ⟨⟨_, hsize⟩, (serialText_iff _ _).2 ⟨groups, pair, htext, hcount, hhex, rfl⟩⟩

/-- which serial numbers are taken, if the condition holds for them: those of the grammar -/
theorem taken_iff {str : Value} (hlen : str.text.length = strLength)
    (hcondition : ∀ groups pair, str.text = front groups ++ pair → groups.length = 5 → (∀ g ∈ groups, IsGroup g) →
      (strchr colon (pair ++ str.after) = some none ↔ ∀ g ∈ groups ++ [pair], ∀ c ∈ g, isHex c = true))
    {serialNumber serial : SerialNumber} {taken : Bool} (h : parseSerialNumber serialNumber str = some (taken, serial)) :
    (taken = true ↔ ∃ serial, SerialText str.text serial) ∧ (taken = true → SerialText str.text serial) := by
  have htaken : taken = true → SerialText str.text serial := by
    rintro rfl
    obtain ⟨-, groups, pair, hpairs, hbytes⟩ := parseSerialNumber_accepts h
    have hhex := (hcondition groups pair hpairs.text hpairs.count hpairs.groups).1 hpairs.ends
    refine (serialText_iff _ _).2 ⟨groups, pair, hpairs.text, hpairs.count, ?_, hbytes⟩
    intro g hg
    refine ⟨?_, hhex g hg⟩
    rcases List.mem_append.1 hg with hg | hg
    · exact (hpairs.groups g hg).length
    · rw [List.mem_singleton.1 hg]
      exact hpairs.length_pair hlen
  refine ⟨⟨fun ht => ⟨serial, htaken ht⟩, ?_⟩, htaken⟩
  intro hserial
  obtain ⟨groups, pair, htext, hcount, hhex⟩ := (exists_serialText_iff _).1 hserial
  have hgroups : ∀ g ∈ groups, IsGroup g := fun g hg =>
    isGroup_of_isHex (hhex g (List.mem_append_left _ hg)).1 (hhex g (List.mem_append_left _ hg)).2
  have hends := (hcondition groups pair htext hcount hgroups).2 fun g hg => (hhex g hg).2
  obtain ⟨serial', hserial', -⟩ := parseSerialNumber_pairs hlen ⟨htext, hcount, hgroups, hends⟩ serialNumber
  rw [h] at hserial'
  cases hserial'
  rfl

/-- if the serial numbers that are taken are those of the grammar, the condition holds for them -/
theorem ends_iff_of_taken {str : Value} (hlen : str.text.length = strLength) {serialNumber serial : SerialNumber}
    {taken : Bool} (h : parseSerialNumber serialNumber str = some (taken, serial))
    (htaken : taken = true ↔ ∃ serial, SerialText str.text serial) {groups : List Text} {pair : Text}
    (htext : str.text = front groups ++ pair) (hcount : groups.length = 5) (hgroups : ∀ g ∈ groups, IsGroup g) :
    strchr colon (pair ++ str.after) = some none ↔ ∀ g ∈ groups ++ [pair], ∀ c ∈ g, isHex c = true := by
  have hlength : ∀ g ∈ groups, g.length = 2 := fun g hg => (hgroups g hg).length
  refine ⟨?_, ?_⟩
  · intro hends
    obtain ⟨serial', hserial', -⟩ := parseSerialNumber_pairs hlen ⟨htext, hcount, hgroups, hends⟩ serialNumber
    rw [h] at hserial'
    cases hserial'
    obtain ⟨groups', pair', htext', hcount', hhex⟩ := (exists_serialText_iff _).1 (htaken.1 rfl)
    obtain ⟨rfl, rfl⟩ := front_inj (htext.symm.trans htext') (hcount.trans hcount'.symm) hlength
      fun g hg => (hhex g (List.mem_append_left _ hg)).1
    exact fun g hg => (hhex g hg).2
  · intro hhex
    have hpair : pair.length = 2 := by
      have htotal := congrArg List.length htext
      rw [hlen, List.length_append, length_front hlength, hcount, show strLength = 17 from rfl] at htotal
      omega
    have hserial : ∃ serial, SerialText str.text serial := by
      refine (exists_serialText_iff _).2 ⟨groups, pair, htext, hcount, fun g hg => ⟨?_, hhex g hg⟩⟩
      rcases List.mem_append.1 hg with hg | hg
      · exact hlength g hg
      · exact List.mem_singleton.1 hg ▸ hpair
    obtain rfl := htaken.2 hserial
    obtain ⟨-, groups', pair', hpairs, -⟩ := parseSerialNumber_accepts h
    obtain ⟨rfl, rfl⟩ := front_inj (htext.symm.trans hpairs.text) (hcount.trans hpairs.count.symm) hlength
      fun g hg => (hpairs.groups g hg).length
    exact hpairs.ends

/-- **When the grammar is followed** -/
theorem followsGrammar_iff (configuration : Configuration) (serialNumber resolution : Value) :
    FollowsGrammar configuration serialNumber resolution ↔ Unambiguous serialNumber resolution := by
  by_cases hlen : serialNumber.text.length = strLength
  · simp only [Unambiguous, hlen, ne_eq, not_true, false_or]
    rw [← parseSerialNumber_isSome hlen configuration.romCode.serialNumber]
    refine ⟨?_, ?_⟩
    · rintro ⟨code, result, hparse, hok, -, -⟩
      obtain ⟨⟨taken, serial⟩, hr⟩ :
          ∃ r, parseSerialNumber configuration.romCode.serialNumber serialNumber = some r := by
        cases h : parseSerialNumber configuration.romCode.serialNumber serialNumber with
        | none => simp [parseConfiguration, h] at hparse
        | some r => exact ⟨r, rfl⟩
      refine ⟨⟨_, hr⟩, ?_⟩
      intro groups pair htext hcount hgroups hresolution
      obtain ⟨code', result', hparse', hok', -⟩ := parseConfiguration_of_some hr resolution
      rw [hparse] at hparse'
      cases hparse'
      -- with a supported resolution the code is that of the serial number
      have htaken : taken = true ↔ ∃ serial, SerialText serialNumber.text serial := by
        rw [hok] at hok'
        tauto
      exact ends_iff_of_taken hlen hr htaken htext hcount hgroups
    · rintro ⟨⟨⟨taken, serial⟩, hr⟩, hcondition⟩
      obtain ⟨code, result, hparse, hok, hresult, hinvalid⟩ := parseConfiguration_of_some hr resolution
      refine ⟨code, result, hparse, ?_, ?_, hinvalid⟩
      · rw [hok]
        refine and_congr_left fun hresolution => ?_
        exact (taken_iff hlen (fun g p ht hc hg => hcondition g p ht hc hg hresolution) hr).1
      · intro hcode
        obtain ⟨htaken, hresolution⟩ := hok.1 hcode
        obtain ⟨hserial, hresolved⟩ := hresult hcode
        rw [hserial]
        exact ⟨(taken_iff hlen (fun g p ht hc hg => hcondition g p ht hc hg hresolution) hr).2 htaken, hresolved⟩
  · refine iff_of_true ?_ (Or.inl hlen)
    have hr : parseSerialNumber configuration.romCode.serialNumber serialNumber =
        some (false, configuration.romCode.serialNumber) := by
      rw [parseSerialNumber, if_pos hlen]
    obtain ⟨code, result, hparse, hok, -, hinvalid⟩ := parseConfiguration_of_some hr resolution
    have hcode : code ≠ .ok := fun h => Bool.false_ne_true (hok.1 h).1
    refine ⟨code, result, hparse, ?_, fun h => absurd h hcode, hinvalid⟩
    refine iff_of_false hcode ?_
    rintro ⟨⟨serial, hserial⟩, -⟩
    exact hlen hserial.length

/-- every pair of texts is parsed by the grammar -/
def ParsesGrammar : Prop :=
  ∀ (configuration : Configuration) (serialNumber resolution : Value),
    FollowsGrammar configuration serialNumber resolution

/-- `GG:BB:CC:DD:EE:FF` with its terminator -/
def noDigits : Value := ⟨ascii "GG:BB:CC:DD:EE:FF".toList, [0], by decide⟩

def nineBits : Value := ⟨ascii "9".toList, [0], by decide⟩

theorem noDigits_not_serialText (serial : SerialNumber) : ¬SerialText noDigits.text serial := by
  intro h
  obtain ⟨groups, pair, htext, hcount, hhex⟩ := (exists_serialText_iff _).1 ⟨serial, h⟩
  obtain ⟨g, groups, rfl⟩ := List.exists_cons_of_ne_nil (show groups ≠ [] by
    rintro rfl
    cases hcount)
  obtain ⟨hlen, hdigits⟩ := hhex g (by simp)
  obtain ⟨hi, lo, rfl⟩ := List.length_eq_two.1 hlen
  rw [front_cons] at htext
  have hfirst : hi = 71#8 := ((List.cons.inj htext).1).symm
  have hdigit := hdigits hi (by simp)
  rw [hfirst] at hdigit
  exact absurd hdigit (by decide)

/-- **The grammar is not always followed**: characters that are no digits are accepted. -/
theorem not_parsesGrammar : ¬ParsesGrammar ∧
    (parseConfiguration .new noDigits nineBits).map Prod.fst = some .ok := by
  have haccepted : (parseConfiguration .new noDigits nineBits).map Prod.fst = some .ok := by decide +kernel
  refine ⟨?_, haccepted⟩
  intro h
  obtain ⟨code, result, hparse, hok, -⟩ := h .new noDigits nineBits
  rw [hparse] at haccepted
  obtain rfl : code = .ok := Option.some.inj haccepted
  obtain ⟨⟨serial, hserial⟩, -⟩ := hok.1 rfl
  exact noDigits_not_serialText serial hserial

/-! ## Round trip -/

/-- a serial number in the grammar is taken if a NUL follows it -/
theorem parseSerialNumber_of_serialText {str : Value} {serial : SerialNumber} (h : SerialText str.text serial)
    (hafter : str.after.head? = some 0) (serialNumber : SerialNumber) :
    parseSerialNumber serialNumber str = some (true, serial) := by
  obtain ⟨groups, pair, htext, hcount, hhex, hbytes⟩ := (serialText_iff _ _).1 h
  have hgroup : ∀ g ∈ groups ++ [pair], IsGroup g := fun g hg => isGroup_of_isHex (hhex g hg).1 (hhex g hg).2
  obtain ⟨after, hafter⟩ := List.head?_eq_some_iff.1 hafter
  have hends : strchr colon (pair ++ str.after) = some none := by
    rw [hafter]
    exact strchr_nul (hgroup pair (by simp)).noColon (by decide) after
  obtain ⟨serial', hparse, hbytes'⟩ := parseSerialNumber_pairs h.length
    ⟨htext, hcount, fun g hg => hgroup g (List.mem_append_left _ hg), hends⟩ serialNumber
  rw [hparse, Vector.toList_inj.1 (hbytes'.trans hbytes.symm)]

/-- a text that differs from groups of digits in the case of letters consists of such groups -/
theorem exists_front {bytes : List Byte} {last : Byte} {text : Text}
    (h : text.map tolower = (front (bytes.map hexByte) ++ hexByte last).map tolower) :
    ∃ groups pair, text = front groups ++ pair ∧ List.Forall₂ Denotes (groups ++ [pair]) (bytes ++ [last]) := by
  induction bytes generalizing text with
  | nil =>
    obtain ⟨hi, lo, rfl, hhi, hlo, hvalue⟩ := hexByte_values last h
    exact ⟨[], [hi, lo], rfl, List.Forall₂.cons ⟨hi, lo, rfl, hhi, hlo, hvalue⟩ List.Forall₂.nil⟩
  | cons b bytes ih =>
    rw [List.map_cons, front_cons, List.append_assoc, List.map_append] at h
    obtain ⟨g, rest, rfl, hg, hrest⟩ := List.map_eq_append_iff.1 h
    obtain ⟨c, rest, rfl, hc, hrest⟩ := List.map_eq_cons_iff.1 hrest
    obtain ⟨groups, pair, rfl, hdenotes⟩ := ih hrest
    have hcolon : ∀ c : Byte, tolower c = tolower colon → c = colon := by decide +kernel
    obtain rfl := hcolon c hc
    exact ⟨g :: groups, pair, by simp, List.Forall₂.cons (hexByte_values b hg) hdenotes⟩

/-- the printed text, and what differs from it in the case of letters, denotes the serial number -/
theorem serialText_of_tolower {text : Text} {serial : SerialNumber}
    (h : text.map tolower = (formatted serial).map tolower) : SerialText text serial := by
  have hne : serial.toList ≠ [] := List.ne_nil_of_length_pos (by simp)
  have hsplit := (List.dropLast_append_getLast hne).symm
  have hformatted : formatted serial =
      front (serial.toList.dropLast.map hexByte) ++ hexByte (serial.toList.getLast hne) := by
    rw [← intercalate_front, ← List.map_singleton, ← List.map_append, ← hsplit, formatted]
  rw [hformatted] at h
  obtain ⟨groups, pair, rfl, hdenotes⟩ := exists_front h
  rw [← hsplit] at hdenotes
  exact ⟨groups ++ [pair], (intercalate_front groups pair).symm, hdenotes⟩

theorem SerialText.noNul {text : Text} {serial : SerialNumber} (h : SerialText text serial) : 0#8 ∉ text := by
  obtain ⟨groups, pair, rfl, -, hhex, -⟩ := (serialText_iff text serial).1 h
  have hgroup : ∀ g ∈ groups ++ [pair], 0#8 ∉ g := fun g hg => (isGroup_of_isHex (hhex g hg).1 (hhex g hg).2).noNul
  intro hnul
  rcases List.mem_append.1 hnul with hnul | hnul
  · obtain ⟨g, hg, hnul⟩ := List.mem_flatMap.1 hnul
    rcases List.mem_append.1 hnul with hnul | hnul
    · exact hgroup g (List.mem_append_left _ hg) hnul
    · exact absurd (List.mem_singleton.1 hnul) (by decide)
  · exact hgroup pair (by simp) hnul

/-- **A printed serial number is parsed back** with any supported resolution, whatever the case of its letters. -/
theorem parse_printed (serialNumber : SerialNumber) :
    ∃ buf, serialNumberToStr serialNumber = some buf ∧
      ∀ (configuration : Configuration) (str resolution : Value) (r : Resolution),
        str.text.map tolower = (CString.ofBuffer buf).text.map tolower → str.after.head? = some 0 →
        ResolutionText resolution.text r →
        ∃ result, parseConfiguration configuration str resolution = some (.ok, result) ∧
          result.romCode.serialNumber = serialNumber ∧ result.resolution = r := by
  have hserial : SerialText (formatted serialNumber) serialNumber := serialText_of_tolower rfl
  have hlen : (formatted serialNumber).length < (List.replicate (strLength + 1) (0 : Byte)).length := by
    rw [hserial.length, List.length_replicate]
    exact Nat.lt_succ_self _
  refine ⟨(snprintf (List.replicate (strLength + 1) 0) (formatted serialNumber)).2, ?_, ?_⟩
  · have hwritten : (snprintf (List.replicate (strLength + 1) 0) (formatted serialNumber)).1 = strLength := by
      rw [snprintf_eq hlen, hserial.length]
    exact if_pos hwritten
  · intro configuration str resolution r htext hafter hresolution
    rw [ofBuffer_snprintf hlen hserial.noNul] at htext
    have hparse := parseSerialNumber_of_serialText (serialText_of_tolower htext) hafter
      configuration.romCode.serialNumber
    obtain ⟨code, result, hresult, hok, hsame, -⟩ := parseConfiguration_of_some hparse resolution
    obtain rfl : code = .ok := hok.2 ⟨rfl, r, hresolution⟩
    obtain ⟨hserialNumber, hresolved⟩ := hsame rfl
    refine ⟨result, hresult, hserialNumber, ?_⟩
    rw [← ((resolutionText_iff _ _).1 hresolved).1, ((resolutionText_iff _ _).1 hresolution).1]

/-- the serial number `28:FF:64:1E:0F:C3` in lower case -/
theorem parse_printed_lower :
    ∃ result, parseConfiguration .new ⟨ascii "28:ff:64:1e:0f:c3".toList, [0], by decide⟩ nineBits = some (.ok, result) ∧
      result.romCode.serialNumber = #v[0x28, 0xFF, 0x64, 0x1E, 0x0F, 0xC3] ∧ result.resolution = .bit9 := by
  obtain ⟨buf, hbuf, h⟩ := parse_printed #v[0x28, 0xFF, 0x64, 0x1E, 0x0F, 0xC3]
  refine h .new _ nineBits .bit9 ?_ rfl (Or.inl ⟨rfl, rfl⟩)
  have heq : serialNumberToStr #v[0x28, 0xFF, 0x64, 0x1E, 0x0F, 0xC3] =
      some (ascii "28:FF:64:1E:0F:C3".toList ++ [0]) := by decide +kernel
  rw [heq] at hbuf
  cases hbuf
  decide +kernel

end ControlComponents.Ds18b20
