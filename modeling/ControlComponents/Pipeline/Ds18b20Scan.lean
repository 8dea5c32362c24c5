/-
Scanning the bus of the DS18B20 sensors over the web (`ocs_pipeline/httpserver`): `DS18B20Handler` answers with the serial
numbers of the devices and the sensors of the node. A sensor is configured with one of these texts.

Any operation of the line and any call of cJSON may fail. The function runs in the task of the scheduler while the request
waits for it; here it has finished in time.

- `scanCodes_spec`, `scanCodes_complete`: the loop over the codes, compared with the one on the ideal bus.
- `handleScan_law`: what a request comes to. `scan_configures`: what it lists can be configured.
-/
import ControlComponents.Pipeline.JsonDocuments
import ControlComponents.Sensor.Ds18b20Search

namespace ControlComponents.Ds18b20

open ControlComponents.Algo ControlComponents.Fmt ControlComponents.Fmt.Json ControlComponents.Lib
open ControlComponents.Lib.Cells ControlComponents.Lib.Format ControlComponents.Onewire ControlComponents.Pipeline
open ControlComponents.Storage

variable {D : Type}

/-! ## Model -/

/-- the characters of a text; cJSON keeps its bytes -/
def chars (text : Text) : String := String.ofList (text.map fun c => Char.ofNat c.toNat)

/-- what `CjsonArrayFormatter::append_string` adds: an item without a key -/
def textItem (text : Text) : Json.Field D := ("", .string (chars text))

section

variable {β : Type} (bus : Bus β) (mem : Memory)

/-- the loop of `scan_rom_codes`: the status, the items of the array, the bus and the memory; `none` if it does not stop
within the fuel or an assertion fails -/
def scanCodes : ℕ → RomCodeScanner → β → Heap → Option (StatusCode × List (Cjson D) × β × Heap)
  | 0, _, _, _ => none
  | fuel + 1, s, b, h => do
    let (code, s, romCode, b) ← s.scan bus .new b
    if code ≠ .ok then some (if code ≠ .noData then code else .ok, [], b, h)
    else
      let buf ← serialNumberToStr romCode.serialNumber
      match addField mem (textItem (CString.ofBuffer buf).text) h with
      | (none, h) => some (.noMem, [], b, h)
      | (some item, h) => do
        let (code, items, b, h) ← scanCodes fuel s b h
        some (code, item :: items, b, h)

/-- `format_sensors_`, given the identifiers of the sensors and whether they are configured -/
def sensorsFormatter (sensors : List (String × Bool)) : Formatter D :=
  .rows "sensors" (sensors.map fun s => [("id", .string s.1), ("configured", .bool s.2)])

/-- `scan_`, with the items that have been added to the object -/
def scanBus (fuel : ℕ) (sensors : List (String × Bool)) (b : β) (h : Heap) :
    Option (StatusCode × List (Cjson D) × β × Heap) :=
  match addField mem ("rom_codes", .array) h with
  | (none, h) => some (.noMem, [], b, h)
  | (some (.item cell key value _), h) => do
    let (code, codes, b, h) ← scanCodes bus mem fuel .new b h
    let found : Cjson D := .item cell key value codes
    if code ≠ .ok then some (code, [found], b, h)
    else
      let (code, items, h) := (sensorsFormatter sensors).format mem h
      some (code, found :: items, b, h)

end

def outOfMemory : Fault := ⟨.noMem, (fun h => by cases h)⟩

/-- the sensors of the node, as they are listed -/
def Node.listed (n : Node) : List (String × Bool) := n.added.map fun i => ((n.sensors i).id, (n.sensors i).configured)

/-- `handle_scan_` up to the reply: the document is printed if it fits into the buffer, and deleted in any case -/
def Node.handleScan (line : ℕ → Option LineFault) (mem : Memory) (print : Doc D → Option String) (fuel : ℕ)
    (n : Node) (h : Heap) : Option (Prepared × Node × Heap) :=
  match create mem .object h with
  | (none, h) => some (.error outOfMemory, n, h)
  | (some (.item cell key value _), h) => do
    let (code, items, wire, h) ← scanBus (deviceBus line) mem fuel n.listed n.wire h
    let json : Cjson D := .item cell key value items
    let n := { n with wire }
    if hcode : code = .ok then
      match print json.doc with
      | none => some (.error outOfMemory, n, delete json h)
      | some text => some (.ok text, n, delete json h)
    else some (.error ⟨code, hcode⟩, n, delete json h)

/-! ## The codes -/

/-- what is listed of a code -/
def codeDoc (c : RomCode) : Doc D := Json.Field.doc (textItem (formatted c.serialNumber))

def scanDoc (codes : List RomCode) (sensors : List (String × Bool)) : Doc D :=
  .item "" .object (.item "rom_codes" .array (codes.map codeDoc) :: (sensorsFormatter sensors).docs)

/-- the buffer always takes the text -/
theorem serialNumberToStr_eq (serialNumber : SerialNumber) :
    ∃ buf, serialNumberToStr serialNumber = some buf ∧ (CString.ofBuffer buf).text = formatted serialNumber := by
  have hserial : SerialText (formatted serialNumber) serialNumber := serialText_of_tolower rfl
  have hlen : (formatted serialNumber).length < (List.replicate (strLength + 1) (0 : Byte)).length := by
    rw [hserial.length, List.length_replicate]
    exact Nat.lt_succ_self _
  refine ⟨_, if_pos ?_, ofBuffer_snprintf hlen hserial.noNul⟩
  exact congrArg _ hserial.length

section

variable {line : ℕ → Option LineFault} {mem : Memory}

/-- **The loop over the codes.** Whatever fails, it leaves the devices, and the cells it has taken are those of the items.
If it reports success it has listed what the loop on the ideal bus reports. -/
theorem scanCodes_spec (fuel : ℕ) (s : RomCodeScanner) (w : Wire) (b : IdealBus) {h : Heap} (hfresh : h.Fresh)
    {code : StatusCode} {items : List (Cjson D)} {w' : Wire} {h' : Heap}
    (hscan : scanCodes (deviceBus line) mem fuel s w h = some (code, items, w', h')) :
    Grows h h' (cellsOf items) ∧ w'.bus.devices = w.bus.devices ∧
      (code = .ok → ∃ codes, scanRomCodes (idealBus w.bus.romCodes) fuel s b = some (.noData, codes) ∧
        docsOf items = codes.map codeDoc) := by
  induction fuel generalizing s w b h code items w' h' with
  | zero => cases hscan
  | succ fuel ih =>
    have hsim := scan_deviceBus line s .new w b
    obtain ⟨⟨scanned, s', romCode, w₁⟩, hdevice, hrest⟩ := Option.bind_eq_some_iff.1 hscan
    rw [hdevice] at hsim
    generalize hideal : s.scan (idealBus w.bus.romCodes) .new b = r at hsim
    have hkept : w₁.bus.devices = w.bus.devices := by
      cases hsim with
      | failed _ _ hw => exact hw
      | same hw => exact hw
    have hcodes : w₁.bus.romCodes = w.bus.romCodes := congrArg (List.map Device.romCode) hkept
    simp only at hrest
    split_ifs at hrest with hcode hdata
    · simp only [Option.some.injEq, Prod.mk.injEq] at hrest
      obtain ⟨rfl, rfl, rfl, rfl⟩ := hrest
      exact ⟨.refl h, hkept, fun hok => absurd hok hcode⟩
    · simp only [Option.some.injEq, Prod.mk.injEq] at hrest
      obtain ⟨rfl, rfl, rfl, rfl⟩ := hrest
      refine ⟨.refl h, hkept, fun _ => ⟨[], ?_, rfl⟩⟩
      rw [ne_eq, not_not] at hdata
      subst hdata
      cases hsim with
      | failed _ hcode => cases hcode
      | same _ => simp [scanRomCodes, hideal]
    · rw [ne_eq, not_not] at hcode
      subst hcode
      obtain ⟨buf, hbuf, htext⟩ := serialNumberToStr_eq romCode.serialNumber
      simp only [hbuf, Option.bind_eq_bind, Option.bind_some, htext] at hrest
      rcases addField_spec mem (textItem (D := D) (formatted romCode.serialNumber)) hfresh with
        ⟨cell, hsome, hg⟩ | ⟨hnone, hg, -⟩
      · rcases hadd : addField mem (textItem (D := D) (formatted romCode.serialNumber)) h with ⟨item, h₁⟩
        rw [hadd] at hsome hg hrest
        subst hsome
        obtain ⟨⟨code₂, items₂, w₂, h₂⟩, hloop, hrest⟩ := Option.bind_eq_some_iff.1 hrest
        simp only [Option.some.injEq, Prod.mk.injEq] at hrest
        obtain ⟨rfl, rfl, rfl, rfl⟩ := hrest
        cases hsim with
        | failed _ hcode => cases hcode
        | @same _ _ _ _ b₁ _ =>
          obtain ⟨hgrows, hdevices, hlisted⟩ := ih s' w₁ b₁ (hg.fresh hfresh) hloop
          refine ⟨hg.trans hgrows, hdevices.trans hkept, fun hok => ?_⟩
          obtain ⟨codes, hscans, hdocs⟩ := hlisted hok
          refine ⟨romCode :: codes, ?_, ?_⟩
          · rw [hcodes] at hscans
            simp [scanRomCodes, hideal, hscans]
          · rw [List.map_cons, ← hdocs]
            rfl
      · rcases hadd : addField mem (textItem (D := D) (formatted romCode.serialNumber)) h with ⟨item, h₁⟩
        rw [hadd] at hnone hg hrest
        obtain rfl : item = none := hnone
        simp only [Option.some.injEq, Prod.mk.injEq] at hrest
        obtain ⟨rfl, rfl, rfl, rfl⟩ := hrest
        exact ⟨hg, hkept, fun hok => by cases hok⟩

/-- without failures the loop follows the one on the ideal bus -/
theorem scanCodes_complete (hline : ∀ k, line k = none) (hmem : ∀ k, mem k = true) (fuel : ℕ) (s : RomCodeScanner)
    (w : Wire) (b : IdealBus) {h : Heap} (hfresh : h.Fresh) {codes : List RomCode}
    (hscans : scanRomCodes (idealBus w.bus.romCodes) fuel s b = some (.noData, codes)) :
    ∃ (items : List (Cjson D)) (w' : Wire) (h' : Heap),
      scanCodes (deviceBus line) mem fuel s w h = some (.ok, items, w', h') := by
  induction fuel generalizing s w b h codes with
  | zero => cases hscans
  | succ fuel ih =>
    have hsim := scan_deviceBus line s .new w b
    obtain ⟨⟨code, s', romCode, b'⟩, hideal, hrest⟩ := Option.bind_eq_some_iff.1 hscans
    rw [hideal] at hsim
    generalize hdevice : s.scan (deviceBus line) .new w = r at hsim
    cases hsim with
    | failed hfails => exact absurd hline hfails
    | @same _ _ _ w₁ _ hkept =>
      have hcodes : w₁.bus.romCodes = w.bus.romCodes := congrArg (List.map Device.romCode) hkept
      simp only at hrest
      simp only [scanCodes, hdevice, Option.bind_eq_bind, Option.bind_some]
      split_ifs at hrest with hcode
      · simp only [Option.some.injEq, Prod.mk.injEq] at hrest
        obtain ⟨rfl, rfl⟩ := hrest
        exact ⟨[], w₁, h, by simp⟩
      · obtain ⟨⟨code', rest⟩, hothers, hrest⟩ := Option.bind_eq_some_iff.1 hrest
        simp only [Option.some.injEq, Prod.mk.injEq] at hrest
        obtain ⟨rfl, rfl⟩ := hrest
        obtain ⟨buf, hbuf, htext⟩ := serialNumberToStr_eq romCode.serialNumber
        simp only [if_neg hcode, hbuf, Option.bind_some, htext]
        rcases addField_spec mem (textItem (D := D) (formatted romCode.serialNumber)) hfresh with
          ⟨cell, hsome, hg⟩ | ⟨-, -, k, hk⟩
        · rcases hadd : addField mem (textItem (D := D) (formatted romCode.serialNumber)) h with ⟨item, h₁⟩
          rw [hadd] at hsome hg
          subst hsome
          rw [← hcodes] at hothers
          obtain ⟨items, w', h', hloop⟩ := ih s' w₁ b' (hg.fresh hfresh) hothers
          simp only [hloop, Option.bind_some]
          exact ⟨_, _, _, rfl⟩
        · rw [hmem k] at hk
          cases hk

/-! ## The request -/

theorem scanBus_spec (fuel : ℕ) (sensors : List (String × Bool)) (w : Wire) (b : IdealBus) {h : Heap}
    (hfresh : h.Fresh) {code : StatusCode} {items : List (Cjson D)} {w' : Wire} {h' : Heap}
    (hscan : scanBus (deviceBus line) mem fuel sensors w h = some (code, items, w', h')) :
    Grows h h' (cellsOf items) ∧ w'.bus.devices = w.bus.devices ∧
      (code = .ok → ∃ codes, scanRomCodes (idealBus w.bus.romCodes) fuel .new b = some (.noData, codes) ∧
        Doc.item "" .object (docsOf items) = scanDoc codes sensors) := by
  unfold scanBus at hscan
  rcases addField_spec mem ("rom_codes", (.array : Json.Value D)) hfresh with ⟨cell, hsome, hg⟩ | ⟨hnone, hg, -⟩
  · rcases hadd : addField mem ("rom_codes", (.array : Json.Value D)) h with ⟨item, h₁⟩
    rw [hadd] at hsome hg hscan
    subst hsome
    obtain ⟨⟨code₂, codes, w₂, h₂⟩, hloop, hrest⟩ := Option.bind_eq_some_iff.1 hscan
    obtain ⟨hgrows, hdevices, hlisted⟩ := scanCodes_spec fuel .new w b (hg.fresh hfresh) hloop
    simp only at hrest
    split_ifs at hrest with hcode
    · simp only [Option.some.injEq, Prod.mk.injEq] at hrest
      obtain ⟨rfl, rfl, rfl, rfl⟩ := hrest
      refine ⟨?_, hdevices, fun hok => absurd hok hcode⟩
      simpa only [cellsOf, Cjson.cells, List.append_nil, List.singleton_append] using hg.trans hgrows
    · simp only [Option.some.injEq, Prod.mk.injEq] at hrest
      obtain ⟨rfl, rfl, rfl, rfl⟩ := hrest
      rw [ne_eq, not_not] at hcode
      obtain ⟨found, hscans, hdocs⟩ := hlisted hcode
      have hformat := format_spec mem (sensorsFormatter (D := D) sensors) ((hg.trans hgrows).fresh hfresh)
      refine ⟨?_, hdevices, fun hok => ⟨found, hscans, ?_⟩⟩
      · simpa only [cellsOf, Cjson.cells, List.cons_append, List.nil_append] using (hg.trans hgrows).trans hformat.grows
      · simp only [docsOf, Cjson.doc, hdocs, hformat.complete hok, scanDoc]
  · rcases hadd : addField mem ("rom_codes", (.array : Json.Value D)) h with ⟨item, h₁⟩
    rw [hadd] at hnone hg hscan
    obtain rfl : item = none := hnone
    simp only [Option.some.injEq, Prod.mk.injEq] at hscan
    obtain ⟨rfl, rfl, rfl, rfl⟩ := hscan
    exact ⟨hg, rfl, fun hok => by cases hok⟩

/-- without failures the loop on the ideal bus decides -/
theorem scanBus_complete (hline : ∀ k, line k = none) (hmem : ∀ k, mem k = true) (fuel : ℕ)
    (sensors : List (String × Bool)) (w : Wire) (b : IdealBus) {h : Heap} (hfresh : h.Fresh) {codes : List RomCode}
    (hscans : scanRomCodes (idealBus w.bus.romCodes) fuel .new b = some (.noData, codes)) :
    ∃ (items : List (Cjson D)) (w' : Wire) (h' : Heap),
      scanBus (deviceBus line) mem fuel sensors w h = some (.ok, items, w', h') := by
  unfold scanBus
  rcases addField_spec mem ("rom_codes", (.array : Json.Value D)) hfresh with ⟨cell, hsome, hg⟩ | ⟨-, -, k, hk⟩
  · rcases hadd : addField mem ("rom_codes", (.array : Json.Value D)) h with ⟨item, h₁⟩
    rw [hadd] at hsome hg
    subst hsome
    obtain ⟨found, w', h₂, hloop⟩ := scanCodes_complete (D := D) hline hmem fuel .new w b (hg.fresh hfresh) hscans
    have hgrows := (scanCodes_spec fuel .new w b (hg.fresh hfresh) hloop).1
    have hok : ((sensorsFormatter (D := D) sensors).format mem h₂).1 = .ok :=
      (format_spec mem (sensorsFormatter sensors) ((hg.trans hgrows).fresh hfresh)).succeeds hmem trivial
    simp only [hloop, Option.bind_eq_bind, Option.bind_some, ne_eq, not_true_eq_false, if_false, hok]
    exact ⟨_, _, _, rfl⟩
  · rw [hmem k] at hk
    cases hk

/-- what a request has come to: the memory is as it was, the node too but for the line, and the text that is answered
with lists the codes of a search on the ideal bus -/
structure Scans (print : Doc D → Option String) (fuel : ℕ) (n : Node) (h : Heap) (r : Prepared × Node × Heap) :
    Prop where
  released : Grows h r.2.2 []
  node : r.2.1 = { n with wire := r.2.1.wire }
  devices : r.2.1.wire.bus.devices = n.wire.bus.devices
  lists : ∀ (b : IdealBus) text, r.1 = .ok text → ∃ codes,
    scanRomCodes (idealBus n.wire.bus.romCodes) fuel .new b = some (.noData, codes) ∧
      print (scanDoc codes n.listed) = some text

theorem handleScan_spec (print : Doc D → Option String) (fuel : ℕ) (n : Node) {h : Heap} (hfresh : h.Fresh)
    {r : Prepared × Node × Heap} (hscan : n.handleScan line mem print fuel h = some r) : Scans print fuel n h r := by
  unfold Node.handleScan at hscan
  rcases hc : create mem (.object : Json.Value D) h with ⟨_ | i, h₁⟩
  · rw [hc] at hscan
    obtain rfl := Option.some.inj hscan
    exact ⟨(create_none hc).1, rfl, rfl, fun _ _ h => by cases h⟩
  · obtain ⟨cell, rfl, hg⟩ := create_some hc
    rw [hc] at hscan
    obtain ⟨⟨code, items, wire, h₂⟩, hbus, hrest⟩ := Option.bind_eq_some_iff.1 hscan
    have hspec (b : IdealBus) := scanBus_spec fuel n.listed n.wire b (hg.fresh hfresh) hbus
    obtain ⟨hgrows, hdevices, -⟩ := hspec ⟨.idle, []⟩
    have howned : Grows h h₂ ([] ++ (Cjson.item cell "" .object items).cells) := hg.trans hgrows
    have hreleased : Grows h (delete (.item cell "" .object items) h₂) [] := howned.free hfresh
    simp only at hrest
    split_ifs at hrest with hcode
    · have hdoc : (Cjson.item cell "" .object items).doc = Doc.item "" .object (docsOf items) := rfl
      rw [hdoc] at hrest
      split at hrest
      · obtain rfl := Option.some.inj hrest
        exact ⟨hreleased, rfl, hdevices, fun _ _ h => by cases h⟩
      · rename_i text hprint
        obtain rfl := Option.some.inj hrest
        refine ⟨hreleased, rfl, hdevices, fun b text' htext => ?_⟩
        obtain ⟨codes, hscans, hlisted⟩ := (hspec b).2.2 hcode
        refine ⟨codes, hscans, ?_⟩
        rw [← hlisted, hprint, Except.ok.inj htext]
    · obtain rfl := Option.some.inj hrest
      exact ⟨hreleased, rfl, hdevices, fun _ _ h => by cases h⟩

/-- the loop reports the same codes whenever it stops -/
theorem scanRomCodes_fuel {β : Type} {bus : Bus β} {fuel fuel' : ℕ} (s : RomCodeScanner) (b : β)
    {r r' : StatusCode × List RomCode} (h : scanRomCodes bus fuel s b = some r)
    (h' : scanRomCodes bus fuel' s b = some r') : r = r' := by
  induction fuel generalizing fuel' s b r r' with
  | zero => cases h
  | succ fuel ih =>
    cases fuel' with
    | zero => cases h'
    | succ fuel' =>
      obtain ⟨⟨code, s', romCode, b'⟩, hscan, h⟩ := Option.bind_eq_some_iff.1 h
      obtain ⟨_, hscan', h'⟩ := Option.bind_eq_some_iff.1 h'
      obtain rfl := Option.some.inj (hscan.symm.trans hscan')
      simp only at h h'
      split_ifs at h h'
      · exact Option.some.inj (h.symm.trans h')
      · obtain ⟨q, hq, h⟩ := Option.bind_eq_some_iff.1 h
        obtain ⟨q', hq', h'⟩ := Option.bind_eq_some_iff.1 h'
        obtain rfl := ih s' b' hq hq'
        exact Option.some.inj (h.symm.trans h')

/-- without failures the document is answered with, if it can be printed -/
theorem handleScan_complete (hline : ∀ k, line k = none) (hmem : ∀ k, mem k = true) {print : Doc D → Option String}
    {fuel : ℕ} {n : Node} {h : Heap} (hfresh : h.Fresh) {codes : List RomCode} {b : IdealBus}
    (hscans : scanRomCodes (idealBus n.wire.bus.romCodes) fuel .new b = some (.noData, codes))
    (hprint : (print (scanDoc codes n.listed)).isSome = true) :
    ∃ text wire h', n.handleScan line mem print fuel h = some (.ok text, { n with wire }, h') := by
  unfold Node.handleScan
  rcases hc : create mem (.object : Json.Value D) h with ⟨_ | i, h₁⟩
  · have hfailed := (create_none hc).2
    rw [hmem] at hfailed
    cases hfailed
  · obtain ⟨cell, rfl, hg⟩ := create_some hc
    obtain ⟨items, wire, h₂, hbus⟩ :=
      scanBus_complete (D := D) hline hmem fuel n.listed n.wire b (hg.fresh hfresh) hscans
    obtain ⟨-, -, hlisted⟩ := scanBus_spec fuel n.listed n.wire b (hg.fresh hfresh) hbus
    obtain ⟨found, hreported, hdoc⟩ := hlisted rfl
    obtain ⟨-, rfl⟩ := Prod.mk.inj (scanRomCodes_fuel .new b hscans hreported)
    obtain ⟨text, htext⟩ := Option.isSome_iff_exists.1 hprint
    have hjson : (Cjson.item cell "" .object items).doc = scanDoc codes n.listed := hdoc
    refine ⟨text, wire, delete (.item cell "" .object items) h₂, ?_⟩
    simp only [hbus, Option.bind_eq_bind, Option.bind_some, dif_pos, hjson, htext]

theorem exampleStart_romCodes : exampleStart.wire.bus.romCodes = twoDevices.codes := by decide +kernel

end

/-! ## Configuring what has been listed -/

/-- the bytes of a text are those of its characters -/
theorem ascii_chars (text : Text) : ascii (chars text).toList = text := by
  have hbyte : ∀ c : Byte, BitVec.ofNat 8 (Char.ofNat c.toNat).toNat = c := by decide +kernel
  rw [chars, String.toList_ofList, ascii, List.map_map]
  exact List.map_id'' hbyte text

theorem strchr_skip {c : Byte} {part : Text} (hc : c ∉ part) (hnul : 0#8 ∉ part) {text : Text}
    (h : strchr c text = some none) : strchr c (part ++ text) = some none := by
  induction part with
  | nil => exact h
  | cons b part ih =>
    rw [List.mem_cons, not_or] at hc hnul
    rw [List.cons_append, strchr, if_neg (Ne.symm hc.1), if_neg (Ne.symm hnul.1), ih hc.2 hnul.2]
    rfl

/-- a serial number of the grammar is taken, if behind it a NUL comes before the next colon -/
theorem parseSerialNumber_of_ends {str : Value} {serial : SerialNumber} (h : SerialText str.text serial)
    (hends : strchr colon str.after = some none) (serialNumber : SerialNumber) :
    parseSerialNumber serialNumber str = some (true, serial) := by
  obtain ⟨groups, pair, htext, hcount, hhex, hbytes⟩ := (serialText_iff _ _).1 h
  have hgroup : ∀ g ∈ groups ++ [pair], IsGroup g := fun g hg => isGroup_of_isHex (hhex g hg).1 (hhex g hg).2
  have hpair := hgroup pair (by simp)
  obtain ⟨serial', hparse, hbytes'⟩ := parseSerialNumber_pairs h.length
    ⟨htext, hcount, fun g hg => hgroup g (List.mem_append_left _ hg), strchr_skip hpair.noColon hpair.noNul hends⟩
    serialNumber
  rw [hparse, Vector.toList_inj.1 (hbytes'.trans hbytes.symm)]

/-- a record is stored unless there is a longer one under its key -/
theorem persist_none {id : String} {store : Store}
    (h : ∀ v, store.lookup id = some v → v.length ≤ Configuration.size) (c : Configuration) :
    (Sensor.persist id .none store c).1 = .ok := by
  unfold Sensor.persist
  cases hlookup : store.lookup id with
  | none =>
    have hread : Storage.read .none store id Configuration.size = .error .noData := by
      simp [Storage.read, Faults.none, hlookup]
    simp only [hread, ne_eq, not_true_eq_false, if_false]
    split_ifs <;> rfl
  | some v =>
    have hread : Storage.read .none store id Configuration.size = .ok v := by
      simp [Storage.read, Faults.none, hlookup, Nat.not_lt.2 (h v hlookup)]
    simp only [hread]
    split_ifs <;> rfl

/-- a sensor can be configured with the code of a device, if nothing fails -/
theorem writeConfiguration_complete {line : ℕ → Option LineFault} (hline : ∀ k, line k = none) (s : Sensor)
    {store : Store} (hstore : ∀ v, store.lookup s.id = some v → v.length ≤ Configuration.size) (w : Wire)
    (hunique : w.bus.romCodes.Nodup) {configuration : Configuration} (hvalid : configuration.romCode.valid = true)
    (hmem : configuration.romCode ∈ w.bus.romCodes) :
    (s.writeConfiguration (deviceBus line) 0 .none store configuration w).1 = .ok := by
  obtain ⟨-, -, hok⟩ := updateDevice_spec line w hunique configuration
  have hupdated := hok hline hmem
  have hpersisted := persist_none hstore configuration
  unfold Sensor.writeConfiguration
  rw [hvalid]
  rcases hupdate : Sensor.updateDevice (deviceBus line) configuration w with ⟨code, w'⟩
  rw [hupdate] at hupdated
  obtain rfl : code = .ok := hupdated
  rcases hpersist : Sensor.persist s.id .none store configuration with ⟨code, store'⟩
  rw [hpersist] at hpersisted
  obtain rfl : code = .ok := hpersisted
  simp

/-- the request in which a serial number of the list is sent back, in either case of its letters; behind it a NUL comes
before the next colon, and what is stored for the sensor fits into a record -/
structure Chosen (n : Node) (c : RomCode) (sensorId : String) (i : ℕ) (serial resolution : Value) (r : Resolution) :
    Prop where
  sensor : n.getSensor sensorId = some i
  same : serial.text.map tolower = (ascii (chars (formatted c.serialNumber)).toList).map tolower
  ends : strchr colon serial.after = some none
  supported : ResolutionText resolution.text r
  fits : ∀ v, n.store.lookup (n.sensors i).id = some v → v.length ≤ Configuration.size

/-- a serial number that the loop over the codes reports is found, and the sensor configured with it -/
theorem writeRequest_complete {line : ℕ → Option LineFault} (hline : ∀ k, line k = none) {n : Node}
    (hunique : n.wire.bus.romCodes.Nodup) {fuel : ℕ} {reported : List RomCode}
    (hscans : scanRomCodes (idealBus n.wire.bus.romCodes) fuel .new ⟨.idle, []⟩ = some (.noData, reported))
    {c : RomCode} (hc : c ∈ reported) {sensorId : String} {i : ℕ} {serial resolution : Value} {r : Resolution}
    (h : Chosen n c sensorId i serial resolution r) :
    ∃ n', n.writeRequest line fuel .none sensorId serial resolution = some (.ok, n') ∧
      ∃ d ∈ n.wire.bus.devices, d.romCode.serialNumber = c.serialNumber ∧
        (n'.sensors i).configured = true ∧ (n'.sensors i).configuration = ⟨d.romCode, r⟩ ∧
        Resolved n'.wire.bus d.romCode r.bits := by
  obtain ⟨hsensor, hserial, hends, hresolution, hfits⟩ := h
  rw [ascii_chars] at hserial
  have hparse := parseSerialNumber_of_ends (serialText_of_tolower hserial) hends
    Configuration.new.romCode.serialNumber
  obtain ⟨code, parsed, hparsed, hok, hsame, -⟩ := parseConfiguration_of_some hparse resolution
  obtain rfl : code = .ok := hok.2 ⟨rfl, r, hresolution⟩
  obtain ⟨hnumber, hresolved⟩ := hsame rfl
  have hr : parsed.resolution = r := by
    rw [← ((resolutionText_iff _ _).1 hresolved).1, ((resolutionText_iff _ _).1 hresolution).1]
  obtain ⟨found, wire, hfind⟩ := findLoop_of_scanRomCodes hline fuel .new parsed n.wire ⟨.idle, []⟩ hscans
  have hexists : ∃ d ∈ reported, d.serialNumber = parsed.romCode.serialNumber :=
    ⟨c, hc, hnumber.symm⟩
  rw [if_pos hexists] at hfind
  have hfound := findLoop_sound line fuel .new parsed n.wire hfind
  have hkept : wire.bus.romCodes = n.wire.bus.romCodes := congrArg (List.map Device.romCode) hfound.devices
  rw [← hkept] at hunique
  have hmem : found.romCode ∈ wire.bus.romCodes := hkept ▸ hfound.mem rfl
  have hwritten := writeConfiguration_complete hline (n.sensors i) hfits wire hunique (hfound.valid rfl) hmem
  obtain ⟨-, hconfigured⟩ := writeConfiguration_devices line (n.sensors i) .none n.store found wire hunique
  rcases hwrite : (n.sensors i).writeConfiguration (deviceBus line) 0 .none n.store found wire with
    ⟨code, sensor, store, wire'⟩
  rw [hwrite] at hwritten hconfigured
  obtain rfl : code = .ok := hwritten
  obtain ⟨hstored, -, rfl⟩ := hconfigured rfl
  obtain ⟨d, hd, hcode⟩ := List.mem_map.1 (hfound.mem rfl)
  refine ⟨({ n with wire } : Node).configure line i .none found |>.2, ?_, d, hd, ?_, ?_, ?_, ?_⟩
  · have hfind' : findRomCode (deviceBus line) fuel parsed n.wire = some (.ok, found, wire) := hfind
    simp only [Node.writeRequest, hsensor, hparsed, Option.bind_eq_bind, Option.bind_some, ne_eq, not_true_eq_false,
      if_false, hfind']
    simp [Node.configure, hwrite]
  · rw [hcode, hfound.serialNumber rfl, hnumber]
  · simp [Node.configure, hwrite, Sensor.configured]
  · simp only [Node.configure, hwrite, Function.update_self, hcode, ← hr, ← hfound.resolution]
  · have hresult := resolved_stored hstored hmem
    rw [hfound.resolution, hr, ← hcode] at hresult
    simpa only [Node.configure, hwrite] using hresult

/-- **From the list to a sensor.** If no two devices have the same code and a request to scan has been answered, whatever
has failed on the line or in memory, then every text it lists, all devices if a new scanner enumerates them, can be sent
back, with a NUL behind it before the next colon, for a sensor under whose key nothing longer than a record is stored: if
nothing fails now, the sensor is configured with a device of that serial number, and the device converts to as many bits as
were asked for. -/
theorem scan_configures {line : ℕ → Option LineFault} (line' : ℕ → Option LineFault) (hline' : ∀ k, line' k = none)
    {mem : Memory} {print : Doc D → Option String} {n n' : Node} {h h' : Heap} (hfresh : h.Fresh)
    (hunique : n.wire.bus.romCodes.Nodup) {fuel : ℕ} {text : String}
    (hscan : n.handleScan line mem print fuel h = some (.ok text, n', h')) :
    ∃ codes : List RomCode, print (scanDoc codes n.listed) = some text ∧
      (∀ devices : Onewire.Devices, Enumerates devices ⟨.idle, []⟩ → n.wire.bus.romCodes = devices.codes →
        codes.Perm devices.codes) ∧
      ∀ c ∈ codes, ∀ sensorId i serial resolution r, Chosen n' c sensorId i serial resolution r →
        ∃ fuel' n'', n'.writeRequest line' fuel' .none sensorId serial resolution = some (.ok, n'') ∧
          ∃ d ∈ n.wire.bus.devices, d.romCode.serialNumber = c.serialNumber ∧
            (n''.sensors i).configured = true ∧ (n''.sensors i).configuration = ⟨d.romCode, r⟩ ∧
            Resolved n''.wire.bus d.romCode r.bits := by
  obtain ⟨-, -, hdevices, hlists⟩ := handleScan_spec print fuel n hfresh hscan
  obtain ⟨codes, hreported, hprint⟩ := hlists ⟨.idle, []⟩ text rfl
  refine ⟨codes, hprint, ?_, fun c hc sensorId i serial resolution r hchosen => ⟨fuel, ?_⟩⟩
  · rintro devices ⟨steps, found, hscans, hperm⟩ hdevices
    rw [← hdevices] at hscans
    obtain ⟨-, rfl⟩ := Prod.mk.inj (scanRomCodes_fuel .new _ hscans hreported)
    exact hperm
  have hcodes : n'.wire.bus.romCodes = n.wire.bus.romCodes := congrArg (List.map Device.romCode) hdevices
  rw [← hcodes] at hunique hreported
  have hrequest := writeRequest_complete hline' hunique hreported hc hchosen
  rw [hdevices] at hrequest
  exact hrequest

/-- both devices are listed, and a sensor is configured with the text of one -/
theorem scan_configures_example : ∃ fuel text n' h',
    exampleStart.handleScan (fun _ => none) (fun _ => true) (fun d => some d.print) fuel ⟨∅, 0, false⟩ =
      some (.ok text, n', h') ∧
    ∃ fuel' n'', n'.writeRequest (fun _ => none) fuel' .none "temp" serialText nineBits = some (.ok, n'') ∧
      (n''.sensors 0).configured = true := by
  have hfresh : (⟨∅, 0, false⟩ : Heap).Fresh := fun c hc => by simp at hc
  obtain ⟨steps, found, hscans, -⟩ := twoDevices_enumerates
  rw [← exampleStart_romCodes] at hscans
  have hanswered : ∃ text wire h', exampleStart.handleScan (fun _ => none) (fun _ => true) (fun d => some d.print) steps
      ⟨∅, 0, false⟩ = some (.ok text, { exampleStart with wire }, h') :=
    handleScan_complete (fun _ => rfl) (fun _ => rfl) hfresh hscans rfl
  obtain ⟨text, wire, h', hscan⟩ := hanswered
  have hunique : exampleStart.wire.bus.romCodes.Nodup := exampleStart_romCodes ▸ twoDevices.nodup
  obtain ⟨codes, -, hlisted, hconfigures⟩ := scan_configures (fun _ => none) (fun _ => rfl) hfresh hunique hscan
  have hperm := hlisted twoDevices twoDevices_enumerates exampleStart_romCodes
  have hsensor : exampleStart.getSensor "temp" = some 0 := by decide +kernel
  have hmem : firstDevice.romCode ∈ codes := hperm.mem_iff.2 List.mem_cons_self
  have hchosen : Chosen { exampleStart with wire } firstDevice.romCode "temp" 0 serialText nineBits .bit9 := by
    refine ⟨hsensor, ?_, by decide, .inl ⟨rfl, rfl⟩, fun v hv => ?_⟩
    · rw [ascii_chars]
      decide +kernel
    · cases hv
  obtain ⟨fuel', n'', hrequest, d, -, -, hconfigured, -⟩ :=
    hconfigures _ hmem "temp" 0 serialText nineBits .bit9 hchosen
  exact ⟨steps, text, _, h', hscan, fuel', n'', hrequest, hconfigured⟩

end ControlComponents.Ds18b20
