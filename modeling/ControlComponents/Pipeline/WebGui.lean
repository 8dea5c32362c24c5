/-
`WebGuiPipeline` (`ocs_pipeline`): the files of the web interface, sent in chunks.

- `handleFile_spec`: every request for a file ends, and its writes are the chunks of a `Transfer` followed by the
  zero-length chunk of the destructor.
- `framed_iff`: when the framing is right. It is wrong for an empty file, for one that fills its last chunk, and whenever
  opening, reading or writing fails before the whole file is out; `framing_wrong` is one file of each kind.
-/
import ControlComponents.Http.Response
import ControlComponents.Lib.CString

namespace ControlComponents.Pipeline

open ControlComponents.Core ControlComponents.Http ControlComponents.Lib

/-! ## Model -/

/-- the files by path -/
abbrev FileSystem := CString → File

structure WebGuiPipeline where
  /-- the filesystem has been mounted -/
  valid : Bool
  /-- size of the copy buffer -/
  capacity : ℕ
  capacity_pos : 0 < capacity

namespace WebGuiPipeline

def mountPoint : CString := .ofString "/web_gui"

def checkFileExtension (filepath : CString) (ext : String) : Bool :=
  decide ((CString.ofString ext).text <:+ filepath.text)

def parseContentType (filepath : CString) : String :=
  if checkFileExtension filepath ".html" then "text/html"
  else if checkFileExtension filepath ".js" then "application/javascript"
  else if checkFileExtension filepath ".css" then "text/css"
  else if checkFileExtension filepath ".png" then "image/png"
  else if checkFileExtension filepath ".ico" then "image/x-icon"
  else if checkFileExtension filepath ".svg" then "text/xml"
  else "text/plain"

def handleRoot (httpd : Httpd) (req : Request) : StatusCode × Request :=
  match ResponseWriter.writeStatus httpd req .movedPermanently with
  | (.ok, req) =>
    match Header.set httpd req "Location" "/dashboard" with
    | (.ok, req) => ResponseWriter.write httpd req []
    | r => r
  | r => r

/-- copy a file to the response; the transceiver is destroyed when its result is known -/
def sendFile (httpd : Httpd) (file : File) (capacity fuel : ℕ) (req : Request) : Option (StatusCode × Request) := do
  let reader := fileStreamReader file
  let writer := chunkStreamWriter httpd
  let (code, r, w) ← StreamTransceiver.transceive reader writer capacity fuel none req
  some (code, (StreamTransceiver.destroy reader writer r w).2)

def handleFile (gui : WebGuiPipeline) (httpd : Httpd) (fs : FileSystem) (fuel : ℕ) (req : Request)
    (filename : CString) : Option (StatusCode × Request) :=
  if !gui.valid then some (.invalidState, req)
  else
    let filePath := mountPoint.append filename
    match Header.set httpd req "Content-Type" (parseContentType filePath) with
    | (.ok, req) =>
      match Header.set httpd req "Transfer-Encoding" "chunked" with
      | (.ok, req) =>
        match Header.set httpd req "Content-Encoding" "gzip" with
        | (.ok, req) => sendFile httpd (fs (filePath.append (.ofString ".gz"))) gui.capacity fuel req
        | r => some r
      | r => some r
    | r => some r

def serveHttp (gui : WebGuiPipeline) (httpd : Httpd) (fs : FileSystem) (fuel : ℕ) (uri : CString) (req : Request) :
    Option (StatusCode × Request) :=
  if uri = .ofString "/" then some (handleRoot httpd req)
  else if uri = .ofString "/dashboard" then gui.handleFile httpd fs fuel req (.ofString "/index.html")
  else gui.handleFile httpd fs fuel req uri

end WebGuiPipeline

/-! ## One transfer -/

/-- What the copy loop can write of the bytes `rest`, where its next read and its next write are number `n`: the chunks
with their results, and the status of the loop. -/
inductive Transfer (capacity : ℕ) (readOk sendOk : ℕ → Bool) :
    List Byte → ℕ → List (List Byte × Bool) → StatusCode → Prop
  | readFails (rest : List Byte) (n : ℕ) : readOk n = false → Transfer capacity readOk sendOk rest n [] .error
  | sendFails (rest : List Byte) (n : ℕ) : readOk n = true → sendOk n = false →
      Transfer capacity readOk sendOk rest n [(rest.take capacity, false)] .error
  | short (rest : List Byte) (n : ℕ) : rest.length < capacity → readOk n = true → sendOk n = true →
      Transfer capacity readOk sendOk rest n [(rest, true)] .ok
  | full (rest : List Byte) (n : ℕ) (ws : List (List Byte × Bool)) (code : StatusCode) : capacity ≤ rest.length →
      readOk n = true → sendOk n = true → Transfer capacity readOk sendOk (rest.drop capacity) (n + 1) ws code →
      Transfer capacity readOk sendOk rest n ((rest.take capacity, true) :: ws) code

/-- What a request for a file leaves: the status reported and the writes. Nothing is written without a filesystem or without
the headers; the last chunk comes in every other case. -/
inductive Handled (gui : WebGuiPipeline) (httpd : Httpd) (file : File) : StatusCode → List (List Byte × Bool) → Prop
  | early (code : StatusCode) : gui.valid = false ∨ httpd 0 = false ∨ httpd 1 = false → code ≠ .ok →
      Handled gui httpd file code []
  | unopened : gui.valid = true → httpd 0 = true → httpd 1 = true → file.openOk = false →
      Handled gui httpd file .error [([], httpd 2)]
  | sent (ws : List (List Byte × Bool)) (code : StatusCode) : gui.valid = true → httpd 0 = true → httpd 1 = true →
      file.openOk = true → Transfer gui.capacity file.readOk (fun i => httpd (2 + i)) file.content 0 ws code →
      Handled gui httpd file code (ws ++ [([], httpd (2 + ws.length))])

/-- the calls for a list of chunks -/
def chunkCalls (ws : List (List Byte × Bool)) : List (HttpdCall × Bool) := ws.map fun w => (.sendChunk w.1, w.2)

theorem writes_chunkCalls (ws : List (List Byte × Bool)) : writes (chunkCalls ws) = ws := by
  induction ws with
  | nil => rfl
  | cons w ws ih =>
    simp only [writes, chunkCalls, List.map_cons, List.filterMap_cons] at ih ⊢
    rw [ih]
    rfl

theorem noError_chunkCalls (ws : List (List Byte × Bool)) : NoError (chunkCalls ws) := by
  intro c hc http code
  obtain ⟨w, -, rfl⟩ := List.mem_map.1 hc
  simp

theorem write_chunked (httpd : Httpd) (req : Request) (hc : req.chunked = true) (data : List Byte) :
    ResponseWriter.write httpd req data = (if httpd req.calls.length then .ok else .error,
      ⟨true, req.calls ++ [(.sendChunk data, httpd req.calls.length)]⟩) := by
  obtain ⟨chunked, calls⟩ := req
  cases hc
  rfl

/-- the copy loop from an open file to a response whose headers took two calls, with any fuel beyond the length of the
file; the induction is on that length -/
theorem loop_transfer (httpd : Httpd) (file : File) {capacity : ℕ} (hcap : 0 < capacity) (rest : List Byte) (n : ℕ)
    (calls : List (HttpdCall × Bool)) (hcalls : calls.length = 2 + n) :
    ∃ ws code h, Transfer capacity file.readOk (fun i => httpd (2 + i)) rest n ws code ∧
      ∀ fuel, rest.length + 1 < fuel →
        StreamTransceiver.loop (fileStreamReader file) (chunkStreamWriter httpd) capacity fuel
          (some ⟨rest, false, n⟩) ⟨true, calls⟩ = some (code, some h, ⟨true, calls ++ chunkCalls ws⟩) := by
  induction hlen : rest.length using Nat.strong_induction_on generalizing rest n calls with
  | _ len ih =>
    have hwrite (data : List Byte) : (chunkStreamWriter httpd).write data ⟨true, calls⟩ =
        (if httpd (2 + n) then .ok else .error, ⟨true, calls ++ [(.sendChunk data, httpd (2 + n))]⟩) := by
      have h := write_chunked httpd ⟨true, calls⟩ rfl data
      simp only [hcalls] at h
      exact h
    cases hread : file.readOk n with
    | false =>
      refine ⟨[], .error, ⟨rest, false, n + 1⟩, .readFails rest n hread, ?_⟩
      intro fuel hfuel
      obtain ⟨k, rfl⟩ : ∃ k, fuel = k + 1 := ⟨fuel - 1, by omega⟩
      simp [StreamTransceiver.loop, fileStreamReader, FileStreamReader.read, hread, chunkCalls]
    | true =>
      cases hsend : httpd (2 + n) with
      | false =>
        refine ⟨[(rest.take capacity, false)], .error, ⟨rest.drop capacity, decide (rest.length < capacity), n + 1⟩,
          .sendFails rest n hread hsend, ?_⟩
        intro fuel hfuel
        obtain ⟨k, rfl⟩ : ∃ k, fuel = k + 1 := ⟨fuel - 1, by omega⟩
        simp [StreamTransceiver.loop, fileStreamReader, FileStreamReader.read, hread, hwrite, hsend, chunkCalls]
      | true =>
        have hstep (fuel : ℕ) :
            StreamTransceiver.loop (fileStreamReader file) (chunkStreamWriter httpd) capacity (fuel + 1)
              (some ⟨rest, false, n⟩) ⟨true, calls⟩ =
            StreamTransceiver.loop (fileStreamReader file) (chunkStreamWriter httpd) capacity fuel
              (some ⟨rest.drop capacity, decide (rest.length < capacity), n + 1⟩)
              ⟨true, calls ++ [(.sendChunk (rest.take capacity), true)]⟩ := by
          simp [StreamTransceiver.loop, fileStreamReader, FileStreamReader.read, hread, hwrite, hsend]
        by_cases hshort : rest.length < capacity
        · -- the read came back short, so the next one ends the loop
          refine ⟨[(rest, true)], .ok, ⟨rest.drop capacity, true, n + 1⟩, .short rest n hshort hread hsend, ?_⟩
          intro fuel hfuel
          obtain ⟨k, rfl⟩ : ∃ k, fuel = k + 1 + 1 := ⟨fuel - 2, by omega⟩
          rw [hstep]
          simp [StreamTransceiver.loop, fileStreamReader, FileStreamReader.read, hshort, chunkCalls,
            List.take_of_length_le hshort.le]
        · have hdrop : (rest.drop capacity).length = rest.length - capacity := List.length_drop
          obtain ⟨ws, code, h, htransfer, hloop⟩ := ih (rest.drop capacity).length (by omega) (rest.drop capacity) (n + 1)
            (calls ++ [(.sendChunk (rest.take capacity), true)])
            (by simp only [List.length_append, List.length_singleton]; omega) rfl
          refine ⟨(rest.take capacity, true) :: ws, code, h,
            .full rest n ws code (Nat.le_of_not_lt hshort) hread hsend htransfer, ?_⟩
          intro fuel hfuel
          obtain ⟨k, rfl⟩ : ∃ k, fuel = k + 1 := ⟨fuel - 1, by omega⟩
          rw [hstep, decide_eq_false hshort, hloop k (by omega)]
          simp [chunkCalls]

/-- sending a file to a response whose headers took two calls -/
theorem sendFile_spec (httpd : Httpd) (file : File) {capacity : ℕ} (hcap : 0 < capacity)
    (calls : List (HttpdCall × Bool)) (hcalls : calls.length = 2) :
    ∃ code ws, (if file.openOk then Transfer capacity file.readOk (fun i => httpd (2 + i)) file.content 0 ws code
        else ws = [] ∧ code = .error) ∧
      ∀ fuel, file.content.length + 1 < fuel → WebGuiPipeline.sendFile httpd file capacity fuel ⟨true, calls⟩ =
        some (code, ⟨true, calls ++ chunkCalls (ws ++ [([], httpd (2 + ws.length))])⟩) := by
  have hend (ws : List (List Byte × Bool)) : ((chunkStreamWriter httpd).finish ⟨true, calls ++ chunkCalls ws⟩).2 =
      ⟨true, calls ++ chunkCalls (ws ++ [([], httpd (2 + ws.length))])⟩ := by
    have h := congrArg Prod.snd (write_chunked httpd ⟨true, calls ++ chunkCalls ws⟩ rfl [])
    simp only [chunkCalls, List.length_append, List.length_map, hcalls, List.append_assoc] at h
    simp only [chunkCalls, List.map_append, List.map_singleton]
    exact h
  cases hopen : file.openOk with
  | false =>
    refine ⟨.error, [], by simp, ?_⟩
    intro fuel _
    have h := hend []
    have hnil : chunkCalls [] = [] := rfl
    rw [hnil, List.append_nil] at h
    simp [WebGuiPipeline.sendFile, StreamTransceiver.transceive, fileStreamReader, FileStreamReader.start, hopen,
      StreamTransceiver.destroy, h]
  | true =>
    obtain ⟨ws, code, hd, htransfer, hloop⟩ := loop_transfer httpd file hcap file.content 0 calls hcalls
    refine ⟨code, ws, by simpa using htransfer, ?_⟩
    intro fuel hfuel
    have hstart : StreamTransceiver.transceive (fileStreamReader file) (chunkStreamWriter httpd) capacity fuel none
        ⟨true, calls⟩ = some (code, some hd, ⟨true, calls ++ chunkCalls ws⟩) := by
      simp only [StreamTransceiver.transceive]
      have hopened : (fileStreamReader file).start none = (.ok, some ⟨file.content, false, 0⟩) := by
        simp [fileStreamReader, FileStreamReader.start, hopen]
      have hbegin : (chunkStreamWriter httpd).start ⟨true, calls⟩ = (.ok, ⟨true, calls⟩) := rfl
      simp only [hopened, hbegin, ne_eq, not_true_eq_false, if_false]
      exact hloop fuel hfuel
    simp only [WebGuiPipeline.sendFile, hstart, Option.bind_eq_bind, Option.bind_some, StreamTransceiver.destroy, hend]

/-- **A request for a file.** With fuel beyond the length of the file it ends, and the server is not asked for an error
response. -/
theorem handleFile_spec (gui : WebGuiPipeline) (httpd : Httpd) (fs : FileSystem) (filename : CString) :
    let file := fs ((WebGuiPipeline.mountPoint.append filename).append (.ofString ".gz"))
    ∃ code req, (∀ fuel, file.content.length + 1 < fuel →
        gui.handleFile httpd fs fuel .new filename = some (code, req)) ∧ NoError req.calls ∧
      Handled gui httpd file code (writes req.calls) := by
  intro file
  have hfile : fs ((WebGuiPipeline.mountPoint.append filename).append (.ofString ".gz")) = file := rfl
  set ct := WebGuiPipeline.parseContentType (WebGuiPipeline.mountPoint.append filename) with hct
  have htype : Header.set httpd .new "Content-Type" ct =
      (if httpd 0 then .ok else .error, ⟨false, [(.setType ct, httpd 0)]⟩) := rfl
  have hchunked (calls : List (HttpdCall × Bool)) :
      Header.set httpd ⟨false, calls⟩ "Transfer-Encoding" "chunked" = (.ok, ⟨true, calls⟩) := rfl
  have hgzip : Header.set httpd ⟨true, [(.setType ct, true)]⟩ "Content-Encoding" "gzip" =
      (if httpd 1 then .ok else .error, ⟨true, [(.setType ct, true), (.setHdr "Content-Encoding" "gzip", httpd 1)]⟩) := rfl
  unfold WebGuiPipeline.handleFile
  cases hvalid : gui.valid with
  | false =>
    refine ⟨.invalidState, .new, ?_, by simp [NoError, Request.new], .early _ (Or.inl hvalid) (by decide)⟩
    intro fuel _
    simp
  | true =>
    cases h0 : httpd 0 with
    | false =>
      refine ⟨.error, ⟨false, [(.setType ct, false)]⟩, ?_, by simp [NoError],
        .early _ (Or.inr (Or.inl h0)) (by decide)⟩
      intro fuel _
      simp [← hct, htype, h0]
    | true =>
      cases h1 : httpd 1 with
      | false =>
        refine ⟨.error, ⟨true, [(.setType ct, true), (.setHdr "Content-Encoding" "gzip", false)]⟩, ?_, by simp [NoError],
          .early _ (Or.inr (Or.inr h1)) (by decide)⟩
        intro fuel _
        simp [← hct, htype, h0, hchunked, hgzip, h1]
      | true =>
        obtain ⟨code, ws, hres, hsend⟩ := sendFile_spec httpd file gui.capacity_pos
          [(.setType ct, true), (.setHdr "Content-Encoding" "gzip", true)] rfl
        refine ⟨code, ⟨true, [(.setType ct, true), (.setHdr "Content-Encoding" "gzip", true)] ++
          chunkCalls (ws ++ [([], httpd (2 + ws.length))])⟩, ?_, ?_, ?_⟩
        · intro fuel hfuel
          simp only [Bool.not_true, Bool.false_eq_true, if_false, ← hct, htype, h0, if_true, hchunked, hgzip, h1, hfile]
          exact hsend fuel hfuel
        · exact NoError.append (by simp [NoError]) (noError_chunkCalls _)
        · have hwrites : writes ([(.setType ct, true), (.setHdr "Content-Encoding" "gzip", true)] ++
              chunkCalls (ws ++ [([], httpd (2 + ws.length))])) = ws ++ [([], httpd (2 + ws.length))] := by
            rw [writes_append, writes_chunkCalls]
            rfl
          rw [hwrites]
          cases hopen : file.openOk with
          | false =>
            rw [hopen] at hres
            obtain ⟨rfl, rfl⟩ := hres
            exact .unopened hvalid h0 h1 hopen
          | true =>
            rw [hopen] at hres
            exact .sent ws code hvalid h0 h1 hopen hres

/-! ## Framing -/

/-- the bytes that went out, in order -/
def delivered (ws : List (List Byte × Bool)) : List Byte := ((ws.filter fun w => w.2).map Prod.fst).flatten

/-- The writes for a file of this content are framed: a zero-length chunk stands at the end only, so there is at most one,
and when it is sent the whole content is out; and a status of success means that the whole content is out. -/
structure Framed (content : List Byte) (code : StatusCode) (ws : List (List Byte × Bool)) : Prop where
  last : ∀ before w after, ws = before ++ w :: after → w.1 = [] → after = []
  whole : ∀ before w after, ws = before ++ w :: after → w.1 = [] → delivered before = content
  success : code = .ok → delivered ws = content

/-- every chunk of the file is read and sent, and a file that fills its last chunk (an empty file does) has a failing
read behind it -/
def Clean (capacity : ℕ) (readOk sendOk : ℕ → Bool) (len : ℕ) : Prop :=
  (∀ i < len / capacity, readOk i = true ∧ sendOk i = true) ∧
    if len % capacity = 0 then readOk (len / capacity) = false
    else readOk (len / capacity) = true ∧ sendOk (len / capacity) = true

instance (capacity : ℕ) (readOk sendOk : ℕ → Bool) (len : ℕ) : Decidable (Clean capacity readOk sendOk len) := by
  unfold Clean; infer_instance

theorem delivered_cons_ok (data : List Byte) (ws : List (List Byte × Bool)) :
    delivered ((data, true) :: ws) = data ++ delivered ws := by
  simp [delivered]

/-- the condition for a file with one more full chunk -/
theorem clean_full {capacity : ℕ} (hcap : 0 < capacity) (readOk sendOk : ℕ → Bool) {len : ℕ} (hlen : capacity ≤ len)
    (hread : readOk 0 = true) (hsend : sendOk 0 = true) :
    Clean capacity readOk sendOk len ↔
      Clean capacity (fun i => readOk (i + 1)) (fun i => sendOk (i + 1)) (len - capacity) := by
  have hdiv : len / capacity = (len - capacity) / capacity + 1 := Nat.div_eq_sub_div hcap hlen
  have hmod : (len - capacity) % capacity = len % capacity := (Nat.mod_eq_sub_mod hlen).symm
  unfold Clean
  rw [hmod, hdiv]
  have hall : (∀ i < (len - capacity) / capacity + 1, readOk i = true ∧ sendOk i = true) ↔
      ∀ i < (len - capacity) / capacity, readOk (i + 1) = true ∧ sendOk (i + 1) = true := by
    refine ⟨?_, ?_⟩
    · intro h i hi
      exact h (i + 1) (by omega)
    · intro h i hi
      cases i with
      | zero => exact ⟨hread, hsend⟩
      | succ i => exact h i (by omega)
  rw [hall]

/-- where the first read or write fails, only an empty file whose read fails is clean -/
theorem clean_stopped {capacity : ℕ} (hcap : 0 < capacity) {readOk sendOk : ℕ → Bool} {len : ℕ}
    (hstop : readOk 0 = false ∨ sendOk 0 = false) :
    Clean capacity readOk sendOk len ↔ len = 0 ∧ readOk 0 = false := by
  refine ⟨?_, ?_⟩
  · intro h
    obtain ⟨hfull, hlast⟩ := h
    have hdiv : len / capacity = 0 := by
      by_contra hpos
      obtain ⟨hread, hsend⟩ := hfull 0 (Nat.pos_of_ne_zero hpos)
      rcases hstop with h | h
      · rw [hread] at h
        cases h
      · rw [hsend] at h
        cases h
    rw [hdiv] at hlast
    have hlt : len < capacity := (Nat.div_eq_zero_iff_lt hcap).1 hdiv
    rw [Nat.mod_eq_of_lt hlt] at hlast
    split_ifs at hlast with hzero
    · exact ⟨hzero, hlast⟩
    · rcases hstop with h | h
      · rw [hlast.1] at h
        cases h
      · rw [hlast.2] at h
        cases h
  · rintro ⟨rfl, hread⟩
    simp [Clean, hread]

/-- a transfer sends the whole content and no empty chunk iff it is clean -/
theorem Transfer.clean_iff {capacity : ℕ} (hcap : 0 < capacity) {readOk sendOk : ℕ → Bool} {rest : List Byte} {n : ℕ}
    {ws : List (List Byte × Bool)} {code : StatusCode} (h : Transfer capacity readOk sendOk rest n ws code) :
    ((∀ w ∈ ws, w.1 ≠ []) ∧ delivered ws = rest) ↔
      Clean capacity (fun i => readOk (n + i)) (fun i => sendOk (n + i)) rest.length := by
  induction h with
  | readFails rest n hread =>
    rw [clean_stopped hcap (Or.inl hread), List.length_eq_zero_iff]
    simp [delivered, hread, eq_comm]
  | sendFails rest n hread hsend =>
    rw [clean_stopped hcap (Or.inr hsend), List.length_eq_zero_iff]
    refine ⟨?_, ?_⟩
    · intro h
      obtain ⟨hne, hall⟩ := h
      have hrest : rest = [] := hall.symm
      exact absurd (by simp [hrest]) (hne (rest.take capacity, false) List.mem_cons_self)
    · rintro ⟨-, hfalse⟩
      simp [hread] at hfalse
  | short rest n hlen hread hsend =>
    have hdiv : rest.length / capacity = 0 := Nat.div_eq_of_lt hlen
    have hmod : rest.length % capacity = rest.length := Nat.mod_eq_of_lt hlen
    simp only [Clean, hdiv, hmod, Nat.not_lt_zero, false_implies, implies_true, true_and, Nat.add_zero, hread, hsend,
      and_self, List.length_eq_zero_iff]
    by_cases hempty : rest = []
    · simp [hempty]
    · simp [hempty, delivered]
  | full rest n ws code hlen hread hsend htail ih =>
    have hclean := clean_full hcap (fun i => readOk (n + i)) (fun i => sendOk (n + i)) hlen hread hsend
    have hne : rest.take capacity ≠ [] := by
      intro hempty
      have hzero := congrArg List.length hempty
      rw [List.length_take, List.length_nil] at hzero
      omega
    have hshift (ok : ℕ → Bool) : (fun i => ok (n + (i + 1))) = fun i => ok (n + 1 + i) := by
      funext i
      rw [Nat.add_right_comm, Nat.add_assoc]
    rw [hclean, hshift, hshift, ← List.length_drop, ← ih, delivered_cons_ok]
    have hcut : rest.take capacity ++ delivered ws = rest ↔ delivered ws = rest.drop capacity := by
      refine ⟨?_, ?_⟩
      · intro h
        exact List.append_cancel_left (h.trans (List.take_append_drop capacity rest).symm)
      · intro h
        rw [h, List.take_append_drop]
    rw [hcut]
    simp [hne]

/-- a transfer reports success only if the whole content is out -/
theorem Transfer.success {capacity : ℕ} {readOk sendOk : ℕ → Bool} {rest : List Byte} {n : ℕ}
    {ws : List (List Byte × Bool)} {code : StatusCode} (h : Transfer capacity readOk sendOk rest n ws code)
    (hcode : code = .ok) : delivered ws = rest := by
  induction h with
  | readFails rest n hread => cases hcode
  | sendFails rest n hread hsend => cases hcode
  | short rest n hlen hread hsend => simp [delivered]
  | full rest n ws code hlen hread hsend htail ih =>
    rw [delivered_cons_ok, ih hcode, List.take_append_drop]

/-- the zero-length chunk of the destructor leaves the framing right iff what was written before it is the content in
chunks that are not empty -/
theorem framed_append_end (content : List Byte) (code : StatusCode) (ws : List (List Byte × Bool)) (sent : Bool)
    (hcode : code = .ok → delivered ws = content) :
    Framed content code (ws ++ [([], sent)]) ↔ (∀ w ∈ ws, w.1 ≠ []) ∧ delivered ws = content := by
  have hend : delivered (ws ++ [([], sent)]) = delivered ws := by
    cases sent <;> simp [delivered]
  refine ⟨?_, ?_⟩
  · intro h
    refine ⟨?_, h.whole ws ([], sent) [] rfl rfl⟩
    intro w hw hempty
    obtain ⟨before, after, rfl⟩ := List.append_of_mem hw
    have hafter := h.last before w (after ++ [([], sent)]) (by simp) hempty
    simp at hafter
  · intro h
    obtain ⟨hne, hall⟩ := h
    -- the only empty chunk is the last one
    have hlast (before : List (List Byte × Bool)) (w : List Byte × Bool) (after : List (List Byte × Bool))
        (hsplit : ws ++ [([], sent)] = before ++ w :: after) (hempty : w.1 = []) : after = [] ∧ before = ws := by
      rcases List.eq_nil_or_concat after with rfl | ⟨after', c, rfl⟩
      · exact ⟨rfl, (List.append_inj_left' hsplit rfl).symm⟩
      · exfalso
        rw [List.concat_eq_append, ← List.cons_append, ← List.append_assoc] at hsplit
        have hws := List.append_inj_left' hsplit rfl
        apply hne w _ hempty
        rw [hws]
        simp
    refine ⟨fun before w after hsplit hempty => (hlast before w after hsplit hempty).1, ?_, fun hok => ?_⟩
    · intro before w after hsplit hempty
      rw [(hlast before w after hsplit hempty).2]
      exact hall
    · rw [hend]
      exact hcode hok

/-! ## Main results -/

/-- **Framing.** Every request for a file ends, and its writes are framed iff nothing is written at all (no filesystem, or
a header that is not accepted), or an empty file does not open, or the file opens and its transfer is clean. -/
theorem framed_iff (gui : WebGuiPipeline) (httpd : Httpd) (fs : FileSystem) (filename : CString) :
    let file := fs ((WebGuiPipeline.mountPoint.append filename).append (.ofString ".gz"))
    ∃ code req, (∀ fuel, file.content.length + 1 < fuel →
        gui.handleFile httpd fs fuel .new filename = some (code, req)) ∧
      (Framed file.content code (writes req.calls) ↔
        gui.valid = false ∨ httpd 0 = false ∨ httpd 1 = false ∨ (file.openOk = false ∧ file.content = []) ∨
        (file.openOk = true ∧
          Clean gui.capacity file.readOk (fun i => httpd (2 + i)) file.content.length)) := by
  intro file
  obtain ⟨code, req, hrun, -, hres⟩ := handleFile_spec gui httpd fs filename
  refine ⟨code, req, hrun, ?_⟩
  change Handled gui httpd file code (writes req.calls) at hres
  clear_value file
  generalize writes req.calls = sent at hres ⊢
  cases hres with
  | early _ hearly hcode =>
    refine ⟨?_, ?_⟩
    · intro _
      tauto
    · intro _
      exact ⟨by simp, by simp, fun hok => absurd hok hcode⟩
  | unopened hvalid h0 h1 hopen =>
    have hend := framed_append_end file.content .error [] (httpd 2) (by simp)
    rw [List.nil_append] at hend
    rw [hend]
    simp [delivered, eq_comm, hvalid, h0, h1, hopen]
  | sent ws _ hvalid h0 h1 hopen htransfer =>
    rw [framed_append_end _ _ _ _ htransfer.success, htransfer.clean_iff gui.capacity_pos]
    simp [hvalid, h0, h1, hopen]

/-- a mounted filesystem and a buffer of four bytes -/
def exampleGui : WebGuiPipeline := ⟨true, 4, by decide⟩

/-- a file all calls on which succeed -/
def goodFile (content : List Byte) : File := ⟨content, true, fun _ => true, true⟩

/-- a file that does not fill its last chunk -/
theorem framed_iff_example :
    ∃ code req, exampleGui.handleFile (fun _ => true) (fun _ => goodFile [1, 2, 3, 4, 5]) 7 .new (.ofString "/assets/a.js") =
        some (code, req) ∧ Framed [1, 2, 3, 4, 5] code (writes req.calls) := by
  obtain ⟨code, req, hrun, hframed⟩ :=
    framed_iff exampleGui (fun _ => true) (fun _ => goodFile [1, 2, 3, 4, 5]) (.ofString "/assets/a.js")
  exact ⟨code, req, hrun 7 (by decide), hframed.2 (by decide)⟩

/-- the writes for every file are framed, wherever its calls fail -/
def FilesFramed : Prop :=
  ∀ (gui : WebGuiPipeline) (httpd : Httpd) (fs : FileSystem) (filename : CString) (fuel : ℕ) (code : StatusCode)
    (req : Request), gui.handleFile httpd fs fuel .new filename = some (code, req) →
    Framed (fs ((WebGuiPipeline.mountPoint.append filename).append (.ofString ".gz"))).content code (writes req.calls)

/-- the writes for `/assets/a.js` of this file, all writes succeeding -/
def exampleWrites (file : File) : Option (List (List Byte × Bool)) :=
  (exampleGui.handleFile (fun _ => true) (fun _ => file) 10 .new (.ofString "/assets/a.js")).map fun r => writes r.2.calls

/-- **Framing goes wrong.** A file that fills its chunk and an empty file end twice; a file whose second read fails and a
file that does not open end all the same. -/
theorem framing_wrong : ¬ FilesFramed ∧
    exampleWrites (goodFile [1, 2, 3, 4]) = some [([1, 2, 3, 4], true), ([], true), ([], true)] ∧
    exampleWrites (goodFile []) = some [([], true), ([], true)] ∧
    exampleWrites { goodFile [1, 2, 3, 4, 5] with readOk := fun n => decide (n ≠ 1) } =
      some [([1, 2, 3, 4], true), ([], true)] ∧
    exampleWrites { goodFile [1] with openOk := false } = some [([], true)] := by
  refine ⟨fun h => ?_, by decide, by decide, by decide, by decide⟩
  have hrun : ∃ code req, exampleGui.handleFile (fun _ => true) (fun _ => goodFile []) 10 .new (.ofString "/assets/a.js") =
      some (code, req) ∧ writes req.calls = [([], true), ([], true)] := ⟨_, _, rfl, rfl⟩
  obtain ⟨code, req, hreq, hwrites⟩ := hrun
  have hlast := (h exampleGui (fun _ => true) (fun _ => goodFile []) (.ofString "/assets/a.js") 10 code req hreq).last []
    ([], true) [([], true)] hwrites rfl
  cases hlast

end ControlComponents.Pipeline
