/-
Formatting JSON (`ocs_fmt/json`): cJSON items, which every formatter adds to the object it is given.

An item is a cell of memory with its children. The calls of cJSON are numbered, and any of them may fail. An item that has
not been added to another one is deleted with its children when its `unique_ptr` ends. Numbers are of a type `D`.

- `Formatter.docs`: what a formatter has to add.
- `format_spec`: a formatter that reports success has added it; whatever it reports, every cell it has taken is that of an
  item it has added.
- `prepare_spec`: a document, printed or not, is deleted as a whole.
-/
import ControlComponents.Basic
import ControlComponents.Lib.Cells

namespace ControlComponents.Fmt.Json

open ControlComponents.Lib.Cells

/-! ## Items -/

/-- the type of an item, with its value if it has one -/
inductive Value (D : Type) where
  | object
  | array
  | number (v : D)
  | string (v : String)
  | bool (v : Bool)
  | null

/-- a JSON text before it is printed -/
inductive Doc (D : Type) where
  | item (key : String) (value : Value D) (children : List (Doc D))

/-- `cJSON`: the cell of the item, its key in an object, its value and its children -/
inductive Cjson (D : Type) where
  | item (cell : ℕ) (key : String) (value : Value D) (children : List (Cjson D))

variable {D : Type}

mutual

/-- the cells of an item and its children -/
def Cjson.cells : Cjson D → List ℕ
  | .item cell _ _ children => cell :: cellsOf children

def cellsOf : List (Cjson D) → List ℕ
  | [] => []
  | i :: items => i.cells ++ cellsOf items

end

mutual

def Cjson.doc : Cjson D → Doc D
  | .item _ key value children => .item key value (docsOf children)

def docsOf : List (Cjson D) → List (Doc D)
  | [] => []
  | i :: items => i.doc :: docsOf items

end

theorem cellsOf_append (is js : List (Cjson D)) : cellsOf (is ++ js) = cellsOf is ++ cellsOf js := by
  induction is with
  | nil => rfl
  | cons i is ih => simp only [List.cons_append, cellsOf, ih, List.append_assoc]

theorem docsOf_append (is js : List (Cjson D)) : docsOf (is ++ js) = docsOf is ++ docsOf js := by
  induction is with
  | nil => rfl
  | cons i is ih => simp only [List.cons_append, docsOf, ih]

/-! ## Texts -/

def Doc.key : Doc D → String
  | .item key _ _ => key

mutual

/-- `cJSON_PrintPreallocated` without blanks, for numbers that are integers and strings without characters to escape -/
def Doc.print : Doc ℤ → String
  | .item _ .object children => "\x7b" ++ ",".intercalate (printMembers children) ++ "\x7d"
  | .item _ .array children => "[" ++ ",".intercalate (printAll children) ++ "]"
  | .item _ (.number v) _ => toString v
  | .item _ (.string v) _ => "\"" ++ v ++ "\""
  | .item _ (.bool v) _ => toString v
  | .item _ .null _ => "null"

def printAll : List (Doc ℤ) → List String
  | [] => []
  | d :: docs => d.print :: printAll docs

def printMembers : List (Doc ℤ) → List String
  | [] => []
  | d :: docs => ("\"" ++ d.key ++ "\":" ++ d.print) :: printMembers docs

end

/-! ## Memory -/

/-- which calls of cJSON succeed, by number -/
abbrev Memory := ℕ → Bool

/-- `cJSON_Create...`, for an item that has no children yet -/
def create (mem : Memory) (value : Value D) (h : Heap) : Option (Cjson D) × Heap :=
  match h.alloc mem with
  | (none, h) => (none, h)
  | (some cell, h) => (some (.item cell "" value []), h)

/-- `cJSON_Delete` -/
def delete (i : Cjson D) (h : Heap) : Heap := h.free i.cells

/-- `cJSON_AddItemToObjectCS`, `cJSON_AddItemToArray`: an item that is not added is deleted by its owner -/
def attach (mem : Memory) (key : String) (i : Cjson D) (h : Heap) : Option (Cjson D) × Heap :=
  if mem h.calls then
    match i with
    | .item cell _ value children => (some (.item cell key value children), h.tick)
  else (none, delete i h.tick)

/-! ## Formatters -/

/-- one field of an object: its key and its value, none of them a container -/
abbrev Field (D : Type) := String × Value D

/-- `CjsonObjectFormatter::add_..._cs`: create an item and add it -/
def addField (mem : Memory) (f : Field D) (h : Heap) : Option (Cjson D) × Heap :=
  match create mem f.2 h with
  | (none, h) => (none, h)
  | (some i, h) => attach mem f.1 i h

/-- `if (!formatter.add_...(...)) { return NoMem; }` for each field, with the items that have been added -/
def addFields (mem : Memory) : List (Field D) → Heap → StatusCode × List (Cjson D) × Heap
  | [], h => (.ok, [], h)
  | f :: fs, h =>
    match addField mem f h with
    | (none, h) => (.noMem, [], h)
    | (some i, h) =>
      let (code, items, h) := addFields mem fs h
      (code, i :: items, h)

/-- an object in an array, for each row of fields -/
def addRows (mem : Memory) : List (List (Field D)) → Heap → StatusCode × List (Cjson D) × Heap
  | [], h => (.ok, [], h)
  | fs :: rows, h =>
    match create mem .object h with
    | (none, h) => (.noMem, [], h)
    | (some (.item cell key value _), h) =>
      match addFields mem fs h with
      | (.ok, fields, h) =>
        match attach mem "" (.item cell key value fields) h with
        | (none, h) => (.noMem, [], h)
        | (some i, h) =>
          let (code, items, h) := addRows mem rows h
          (code, i :: items, h)
      | (code, fields, h) => (code, [], delete (.item cell key value fields) h)

/-- `FieldFormatter::Type` -/
inductive FieldType where
  | object
  | array
deriving DecidableEq

def FieldType.value : FieldType → Value D
  | .object => .object
  | .array => .array

/-- a formatter with the data it meets -/
inductive Formatter (D : Type) where
  /-- a formatter that adds one field after the other, unless it has no data -/
  | fields (data : Except Fault (List (Field D)))
  /-- a formatter that adds an array of objects -/
  | rows (key : String) (rows : List (List (Field D)))
  /-- `FanoutFormatter` -/
  | fanout (formatters : List (Formatter D))
  /-- `FieldFormatter` -/
  | field (key : String) (type : FieldType) (formatters : List (Formatter D))

mutual

/-- `format`: the status, and the items that have been added to the object -/
def Formatter.format (mem : Memory) : Formatter D → Heap → StatusCode × List (Cjson D) × Heap
  | .fields (.error e), h => (e.code, [], h)
  | .fields (.ok fs), h => addFields mem fs h
  | .rows key rows, h =>
    match addField mem (key, .array) h with
    | (none, h) => (.noMem, [], h)
    | (some (.item cell key value _), h) =>
      let (code, items, h) := addRows mem rows h
      (code, [.item cell key value items], h)
  | .fanout fs, h => formatAll mem fs h
  | .field key type fs, h =>
    match create mem type.value h with
    | (none, h) => (.noMem, [], h)
    | (some (.item cell key' value _), h) =>
      match formatAll mem fs h with
      | (.ok, items, h) =>
        match attach mem key (.item cell key' value items) h with
        | (none, h) => (.noMem, [], h)
        | (some i, h) => (.ok, [i], h)
      | (code, items, h) => (code, [], delete (.item cell key' value items) h)

/-- one formatter after the other, up to the first one that fails -/
def formatAll (mem : Memory) : List (Formatter D) → Heap → StatusCode × List (Cjson D) × Heap
  | [], h => (.ok, [], h)
  | f :: fs, h =>
    match f.format mem h with
    | (.ok, items, h) =>
      let (code, items', h) := formatAll mem fs h
      (code, items ++ items', h)
    | r => r

end

/-! ## What they have to add -/

def Field.doc (f : Field D) : Doc D := .item f.1 f.2 []

mutual

def Formatter.docs : Formatter D → List (Doc D)
  | .fields (.error _) => []
  | .fields (.ok fs) => fs.map Field.doc
  | .rows key rows => [.item key .array (rows.map fun fs => .item "" .object (fs.map Field.doc))]
  | .fanout fs => docsAll fs
  | .field key type fs => [.item key type.value (docsAll fs)]

def docsAll : List (Formatter D) → List (Doc D)
  | [] => []
  | f :: fs => f.docs ++ docsAll fs

end

mutual

/-- all formatters have their data -/
def Formatter.Available : Formatter D → Prop
  | .fields data => data.isOk = true
  | .rows _ _ => True
  | .fanout fs => AvailableAll fs
  | .field _ _ fs => AvailableAll fs

def AvailableAll : List (Formatter D) → Prop
  | [] => True
  | f :: fs => f.Available ∧ AvailableAll fs

end

/-! ## Laws -/

section
variable {mem : Memory} {h h' : Heap}

theorem create_some {value : Value D} {i : Cjson D} (hc : create mem value h = (some i, h')) :
    ∃ cell, i = .item cell "" value [] ∧ Grows h h' [cell] := by
  unfold create at hc
  rcases hcell : h.alloc mem with ⟨_ | cell, h₁⟩
  · simp [hcell] at hc
  · simp only [hcell, Prod.mk.injEq, Option.some.injEq] at hc
    obtain ⟨rfl, rfl⟩ := hc
    exact ⟨cell, rfl, .alloc hcell⟩

theorem create_none {value : Value D} (hc : create mem value h = (none, h')) :
    Grows h h' [] ∧ mem h.calls = false := by
  unfold create at hc
  rcases hcell : h.alloc mem with ⟨_ | cell, h₁⟩
  · simp only [hcell, Prod.mk.injEq, true_and] at hc
    subst hc
    exact Grows.alloc_failed hcell
  · simp [hcell] at hc

/-- an item that is added keeps its cells, one that is not is deleted -/
theorem attach_cases (key : String) {i : Cjson D} (hfresh : h.Fresh) (hg : Grows h h' i.cells) :
    (∃ cell key' value children, i = .item cell key' value children ∧
      (attach mem key i h').1 = some (.item cell key value children) ∧ Grows h (attach mem key i h').2 i.cells) ∨
    ((attach mem key i h').1 = none ∧ Grows h (attach mem key i h').2 [] ∧ mem h'.calls = false) := by
  unfold attach
  have htick : Grows h h'.tick ([] ++ i.cells) := by
    simpa using hg.trans (.tick h')
  cases hm : mem h'.calls with
  | true =>
    obtain ⟨cell, key', value, children⟩ := i
    exact .inl ⟨cell, key', value, children, rfl, rfl, htick⟩
  | false => exact .inr ⟨rfl, htick.free hfresh, rfl⟩

/-- what formatting comes to: the items that have been added own the cells that have been taken, and they are all of
`docs` if it has succeeded -/
structure Adds (mem : Memory) (h : Heap) (docs : List (Doc D)) (available : Prop)
    (r : StatusCode × List (Cjson D) × Heap) : Prop where
  grows : Grows h r.2.2 (cellsOf r.2.1)
  complete : r.1 = .ok → docsOf r.2.1 = docs
  succeeds : (∀ n, mem n = true) → available → r.1 = .ok

theorem addField_spec (mem : Memory) (f : Field D) (hfresh : h.Fresh) :
    (∃ cell, (addField mem f h).1 = some (.item cell f.1 f.2 []) ∧ Grows h (addField mem f h).2 [cell]) ∨
    ((addField mem f h).1 = none ∧ Grows h (addField mem f h).2 [] ∧ ∃ n, mem n = false) := by
  unfold addField
  rcases hc : create mem f.2 h with ⟨_ | i, h₁⟩
  · exact .inr ⟨rfl, (create_none hc).1, _, (create_none hc).2⟩
  · obtain ⟨cell, rfl, hg⟩ := create_some hc
    have hg' : Grows h h₁ (Cjson.item cell "" f.2 []).cells := hg
    rcases attach_cases f.1 hfresh hg' with ⟨cell', key', value, children, hi, hsome, hgrows⟩ | ⟨hnone, hgrows, hm⟩
    · cases hi
      exact .inl ⟨cell, hsome, hgrows⟩
    · exact .inr ⟨hnone, hgrows, _, hm⟩

theorem addFields_spec (mem : Memory) (fs : List (Field D)) (hfresh : h.Fresh) :
    Adds mem h (fs.map Field.doc) True (addFields mem fs h) := by
  induction fs generalizing h with
  | nil => exact ⟨.refl h, fun _ => rfl, fun _ _ => rfl⟩
  | cons f fs ih =>
    unfold addFields
    rcases addField_spec mem f hfresh with ⟨cell, hsome, hg⟩ | ⟨hnone, hg, n, hm⟩
    · rcases hf : addField mem f h with ⟨i, h₁⟩
      rw [hf] at hsome hg
      obtain rfl : i = some (.item cell f.1 f.2 []) := hsome
      obtain ⟨hgrows, hcomplete, hsucceeds⟩ := ih (hg.fresh hfresh)
      refine ⟨hg.trans hgrows, fun hok => ?_, hsucceeds⟩
      exact congrArg (f.doc :: ·) (hcomplete hok)
    · rcases hf : addField mem f h with ⟨i, h₁⟩
      rw [hf] at hnone hg
      obtain rfl : i = none := hnone
      exact ⟨hg, (fun hok => by cases hok), fun hall => by simp [hall n] at hm⟩

/-- a container whose children have been formatted: it is added with them, or deleted with them -/
theorem container_spec {h₁ h₂ : Heap} {docs : List (Doc D)} {available : Prop} {cell : ℕ} {code : StatusCode}
    {items : List (Cjson D)} (key key' : String) (value : Value D) (hfresh : h.Fresh)
    (hg : Grows h h₁ [cell]) (hadds : Adds mem h₁ docs available (code, items, h₂)) :
    (code = .ok ∧ docsOf items = docs ∧
      ∃ h₃, attach mem key (.item cell key' value items) h₂ = (some (.item cell key value items), h₃) ∧
        Grows h h₃ (cell :: cellsOf items)) ∨
    (code = .ok ∧ ∃ h₃, attach mem key (.item cell key' value items) h₂ = (none, h₃) ∧ Grows h h₃ [] ∧
      ∃ n, mem n = false) ∨
    (code ≠ .ok ∧ Grows h (delete (.item cell key' value items) h₂) [] ∧ ((∀ n, mem n = true) → ¬ available)) := by
  have howned : Grows h h₂ ([] ++ (Cjson.item cell key' value items).cells) := hg.trans hadds.grows
  by_cases hcode : code = .ok
  · rcases attach_cases key hfresh howned with ⟨cell', key'', value', children, hi, hsome, hg'⟩ | ⟨hnone, hg', hm⟩
    · cases hi
      exact .inl ⟨hcode, hadds.complete hcode, _, Prod.ext hsome rfl, hg'⟩
    · exact .inr (.inl ⟨hcode, _, Prod.ext hnone rfl, hg', _, hm⟩)
  · exact .inr (.inr ⟨hcode, howned.free hfresh, fun hall h => hcode (hadds.succeeds hall h)⟩)

theorem addRows_spec (mem : Memory) (rows : List (List (Field D))) (hfresh : h.Fresh) :
    Adds mem h (rows.map fun fs => .item "" .object (fs.map Field.doc)) True (addRows mem rows h) := by
  induction rows generalizing h with
  | nil => exact ⟨.refl h, fun _ => rfl, fun _ _ => rfl⟩
  | cons fs rows ih =>
    unfold addRows
    rcases hc : create mem (.object : Value D) h with ⟨_ | i, h₁⟩
    · obtain ⟨hg, hm⟩ := create_none hc
      exact ⟨hg, (fun hok => by cases hok), fun hall => by simp [hall] at hm⟩
    · obtain ⟨cell, rfl, hg⟩ := create_some hc
      have hfields := addFields_spec mem fs (hg.fresh hfresh)
      rcases hfs : addFields mem fs h₁ with ⟨code, fields, h₂⟩
      rw [hfs] at hfields
      rcases container_spec "" "" .object hfresh hg hfields with
        ⟨rfl, hdocs, h₃, ha, hg'⟩ | ⟨rfl, h₃, ha, hg', n, hm⟩ | ⟨hcode, hg', hnot⟩
      · simp only [hfs, ha]
        obtain ⟨hgrows, hcomplete, hsucceeds⟩ := ih (hg'.fresh hfresh)
        refine ⟨hg'.trans hgrows, fun hok => ?_, hsucceeds⟩
        simp only [List.map_cons, docsOf, Cjson.doc, hdocs, hcomplete hok]
      · simp only [hfs, ha]
        exact ⟨hg', (fun hok => by cases hok), fun hall => by simp [hall n] at hm⟩
      · have hrow : ∀ r : StatusCode × List (Cjson D) × Heap,
            r = (code, [], delete (.item cell "" .object fields) h₂) →
            Adds mem h ((fs :: rows).map fun fs => .item "" .object (fs.map Field.doc)) True r := by
          rintro _ rfl
          exact ⟨hg', fun hok => absurd hok hcode, fun hall => absurd trivial (hnot hall)⟩
        apply hrow
        cases code with
        | ok => exact absurd rfl hcode
        | _ => simp only [hfs]

mutual

/-- **Ownership.** Whatever calls fail, the cells a formatter has taken are those of the items it has added; a formatter
that reports success has added all it has to. -/
theorem format_spec (mem : Memory) (F : Formatter D) {h : Heap} (hfresh : h.Fresh) :
    Adds mem h F.docs F.Available (F.format mem h) := by
  cases F with
  | fields data =>
    cases data with
    | error e =>
      refine ⟨.refl h, fun hok => absurd hok e.failed, fun _ hdata => ?_⟩
      cases hdata
    | ok fs =>
      obtain ⟨hgrows, hcomplete, hsucceeds⟩ := addFields_spec mem fs hfresh
      exact ⟨hgrows, hcomplete, fun hall _ => hsucceeds hall trivial⟩
  | rows key rows =>
    rcases addField_spec mem (key, (.array : Value D)) hfresh with ⟨cell, hsome, hg⟩ | ⟨hnone, hg, n, hm⟩
    · obtain ⟨hgrows, hcomplete, hsucceeds⟩ := addRows_spec mem rows (hg.fresh hfresh)
      rcases hf : addField mem (key, (.array : Value D)) h with ⟨i, h₁⟩
      rw [hf] at hsome hg hgrows hcomplete hsucceeds
      obtain rfl : i = some (.item cell key .array []) := hsome
      simp only [Formatter.format, hf]
      refine ⟨?_, fun hok => ?_, fun hall _ => hsucceeds hall trivial⟩
      · simpa only [cellsOf, Cjson.cells, List.append_nil, List.singleton_append] using hg.trans hgrows
      · simp only [docsOf, Cjson.doc, Formatter.docs, hcomplete hok]
    · rcases hf : addField mem (key, (.array : Value D)) h with ⟨i, h₁⟩
      rw [hf] at hnone hg
      obtain rfl : i = none := hnone
      simp only [Formatter.format, hf]
      exact ⟨hg, (fun hok => by cases hok), fun hall => by simp [hall n] at hm⟩
  | fanout fs => exact formatAll_spec mem fs hfresh
  | field key type fs =>
    rcases hc : create mem (type.value : Value D) h with ⟨_ | i, h₁⟩
    · obtain ⟨hg, hm⟩ := create_none hc
      simp only [Formatter.format, hc]
      exact ⟨hg, (fun hok => by cases hok), fun hall => by simp [hall] at hm⟩
    · obtain ⟨cell, rfl, hg⟩ := create_some hc
      have hall := formatAll_spec mem fs (hg.fresh hfresh)
      rcases hfs : formatAll mem fs h₁ with ⟨code, items, h₂⟩
      rw [hfs] at hall
      rcases container_spec key "" type.value hfresh hg hall with
        ⟨rfl, hdocs, h₃, ha, hg'⟩ | ⟨rfl, h₃, ha, hg', n, hm⟩ | ⟨hcode, hg', hnot⟩
      · simp only [Formatter.format, hc, hfs, ha]
        refine ⟨?_, fun _ => ?_, fun _ _ => rfl⟩
        · simpa only [cellsOf, Cjson.cells, List.append_nil] using hg'
        · simp only [docsOf, Cjson.doc, hdocs, Formatter.docs]
      · simp only [Formatter.format, hc, hfs, ha]
        exact ⟨hg', (fun hok => by cases hok), fun hall => by simp [hall n] at hm⟩
      · have hfield : ∀ r : StatusCode × List (Cjson D) × Heap,
            r = (code, [], delete (.item cell "" type.value items) h₂) →
            Adds mem h (Formatter.field key type fs).docs (Formatter.field key type fs).Available r := by
          rintro _ rfl
          exact ⟨hg', fun hok => absurd hok hcode, fun hall h => absurd h (hnot hall)⟩
        apply hfield
        cases code with
        | ok => exact absurd rfl hcode
        | _ => simp only [Formatter.format, hc, hfs]

theorem formatAll_spec (mem : Memory) (fs : List (Formatter D)) {h : Heap} (hfresh : h.Fresh) :
    Adds mem h (docsAll fs) (AvailableAll fs) (formatAll mem fs h) := by
  cases fs with
  | nil => exact ⟨.refl h, fun _ => rfl, fun _ _ => rfl⟩
  | cons f fs =>
    obtain ⟨hgrows, hcomplete, hsucceeds⟩ := format_spec mem f hfresh
    rcases hf : f.format mem h with ⟨code, items, h₁⟩
    rw [hf] at hgrows hcomplete hsucceeds
    by_cases hcode : code = .ok
    · subst hcode
      obtain ⟨hgrows', hcomplete', hsucceeds'⟩ := formatAll_spec mem fs (hgrows.fresh hfresh)
      simp only [formatAll, hf]
      refine ⟨?_, fun hok => ?_, fun hall h => hsucceeds' hall h.2⟩
      · rw [cellsOf_append]
        exact hgrows.trans hgrows'
      · rw [docsOf_append, hcomplete rfl, hcomplete' hok]
        rfl
    · have hfirst : ∀ r : StatusCode × List (Cjson D) × Heap, r = (code, items, h₁) →
          Adds mem h (docsAll (f :: fs)) (AvailableAll (f :: fs)) r := by
        rintro _ rfl
        exact ⟨hgrows, fun hok => absurd hok hcode, fun hall h => hsucceeds hall h.1⟩
      apply hfirst
      cases code with
      | ok => exact absurd rfl hcode
      | _ => simp only [formatAll, hf]

end

end

end ControlComponents.Fmt.Json
