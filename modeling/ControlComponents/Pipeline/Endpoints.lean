/-
The endpoints of the HTTP server (`ocs_pipeline/httpserver`) and the responses they give.

A handler works out a text or a failure and replies with it. What it works out is not modelled here: it is an input,
`prepared`. What matters is what the handler does to the response afterwards. Four do more than reply: the handlers that
reboot the device report how that went, the handler of analog configurations replies from another task and may stop
waiting for it, and the web interface sends files in chunks.

- `one_response_iff`: for every endpoint, when a request gets one response. `second_response` are requests that get two.
-/
import ControlComponents.Pipeline.WebGui

namespace ControlComponents.Pipeline

open ControlComponents.Core ControlComponents.Http ControlComponents.Lib

/-! ## Model -/

/-- a text to reply with, or a failure to report -/
abbrev Prepared := Except Fault String

/-- reply with what was worked out, or report the failure -/
def reply (write : Request → String → StatusCode × Request) (prepared : Prepared) (req : Request) :
    StatusCode × Request :=
  match prepared with
  | .error e => (e.code, req)
  | .ok text => write req text

/-- reply, then report how rebooting went -/
def replyAndReboot (httpd : Httpd) (prepared : Prepared) (reboot : StatusCode) (req : Request) :
    StatusCode × Request :=
  match reply (ResponseOps.writeText httpd) prepared req with
  | (.ok, req) => (reboot, req)
  | r => r

def DataHandler.serveHttp (httpd : Httpd) (formatted : Prepared) : Request → StatusCode × Request :=
  reply (ResponseOps.writeJson httpd) formatted

def SystemStateHandler.serveHttp (httpd : Httpd) (formatted : Prepared) : Request → StatusCode × Request :=
  reply (ResponseOps.writeJson httpd) formatted

def TimeHandler.serveHttp (httpd : Httpd) (formatted : Prepared) : Request → StatusCode × Request :=
  reply (ResponseOps.writeText httpd) formatted

/-- the operation runs in another task and does not touch the response -/
def SHT41Handler.serveHttp (httpd : Httpd) (operation : Except Fault Unit) : Request → StatusCode × Request :=
  reply (ResponseOps.writeText httpd) (operation.map fun _ => "OK")

/-- the operation runs in another task and does not touch the response -/
def DS18B20Handler.serveHttp (httpd : Httpd) (operation : Prepared) : Request → StatusCode × Request :=
  reply (ResponseOps.writeJson httpd) operation

def SystemHandler.serveHttp (httpd : Httpd) (reboot : StatusCode) : Request → StatusCode × Request :=
  replyAndReboot httpd (.ok "Rebooting...") reboot

def MdnsHandler.serveHttp (httpd : Httpd) (updated : Except Fault Unit) (reboot : StatusCode) :
    Request → StatusCode × Request :=
  replyAndReboot httpd (updated.map fun _ => "OK") reboot

def ApNetworkHandler.handleGet (httpd : Httpd) (formatted : Prepared) : Request → StatusCode × Request :=
  reply (ResponseOps.writeJson httpd) formatted

def ApNetworkHandler.handleUpdate (httpd : Httpd) (updated : Except Fault Unit) (reboot : StatusCode) :
    Request → StatusCode × Request :=
  replyAndReboot httpd (updated.map fun _ => "OK") reboot

def StaNetworkHandler.handleGet (httpd : Httpd) (formatted : Prepared) : Request → StatusCode × Request :=
  reply (ResponseOps.writeJson httpd) formatted

def StaNetworkHandler.handleUpdate (httpd : Httpd) (updated : Except Fault Unit) (reboot : StatusCode) :
    Request → StatusCode × Request :=
  replyAndReboot httpd (updated.map fun _ => "OK") reboot

/-- what becomes of a function given to another task: refused, finished in time, or waited for in vain. That one goes on
while the server returns from the wait, so some of its calls for the response are made when the wait ends and some more by
the time the server calls `httpd_resp_send_err` -/
inductive Scheduled where
  | refused
  | finished
  | timedOut (waited returning : ℕ)

namespace AnalogConfigStoreHandler

/-- the scheduled function: all configurations or one of them as JSON, or `OK` as text for an update -/
def handle (httpd : Httpd) (update : Bool) (prepared : Prepared) : Request → StatusCode × Request :=
  if update then reply (ResponseOps.writeText httpd) (prepared.map fun _ => "OK")
  else reply (ResponseOps.writeJson httpd) prepared

/-- what the function calls before the server's `httpd_resp_send_err` stands before it, whether the wait has ended or not;
what it calls later is left out -/
def serveHttp (httpd : Httpd) (future : Scheduled) (update : Bool) (prepared : Prepared) (req : Request) :
    StatusCode × Request :=
  match future with
  | .refused => (.invalidState, req)
  | .finished => handle httpd update prepared req
  | .timedOut waited returning =>
    let after := (handle httpd update prepared req).2
    (.timeout, { after with calls := after.calls.take (req.calls.length + (waited + returning)) })

end AnalogConfigStoreHandler

/-- a dispatched request with everything its handler meets -/
inductive Endpoint where
  /-- no handler for the path -/
  | unknown
  | data (formatted : Prepared)
  | systemState (formatted : Prepared)
  | time (formatted : Prepared)
  | sht41 (operation : Except Fault Unit)
  | ds18b20 (operation : Prepared)
  | system (reboot : StatusCode)
  | mdns (updated : Except Fault Unit) (reboot : StatusCode)
  | apGet (formatted : Prepared)
  | apUpdate (updated : Except Fault Unit) (reboot : StatusCode)
  | staGet (formatted : Prepared)
  | staUpdate (updated : Except Fault Unit) (reboot : StatusCode)
  | analogConfig (future : Scheduled) (update : Bool) (prepared : Prepared)
  | webGui (gui : WebGuiPipeline) (fs : FileSystem) (uri : CString)

/-- the handler, with fuel for the loop that sends a file -/
def Endpoint.handler (httpd : Httpd) (fuel : ℕ) : Endpoint → Option Handler
  | .unknown => none
  | .data formatted => some fun req => some (DataHandler.serveHttp httpd formatted req)
  | .systemState formatted => some fun req => some (SystemStateHandler.serveHttp httpd formatted req)
  | .time formatted => some fun req => some (TimeHandler.serveHttp httpd formatted req)
  | .sht41 operation => some fun req => some (SHT41Handler.serveHttp httpd operation req)
  | .ds18b20 operation => some fun req => some (DS18B20Handler.serveHttp httpd operation req)
  | .system reboot => some fun req => some (SystemHandler.serveHttp httpd reboot req)
  | .mdns updated reboot => some fun req => some (MdnsHandler.serveHttp httpd updated reboot req)
  | .apGet formatted => some fun req => some (ApNetworkHandler.handleGet httpd formatted req)
  | .apUpdate updated reboot => some fun req => some (ApNetworkHandler.handleUpdate httpd updated reboot req)
  | .staGet formatted => some fun req => some (StaNetworkHandler.handleGet httpd formatted req)
  | .staUpdate updated reboot => some fun req => some (StaNetworkHandler.handleUpdate httpd updated reboot req)
  | .analogConfig future update prepared =>
    some fun req => some (AnalogConfigStoreHandler.serveHttp httpd future update prepared req)
  | .webGui gui fs uri => some (gui.serveHttp httpd fs fuel uri)

/-! ## The condition -/

/-- the three calls of a reply succeed -/
def replied (httpd : Httpd) : Bool := httpd 0 && httpd 1 && httpd 2

/-- a reboot that is reported as failed comes after no reply -/
def RebootSingle (httpd : Httpd) (updated : Except Fault Unit) (reboot : StatusCode) : Prop :=
  reboot = .ok ∨ updated.isOk = false ∨ replied httpd = false

/-- the file is never started on, or it does not open and the last chunk is not sent, or all of it goes out, or nothing
of it does and the last chunk is not sent either -/
def FileSingle (httpd : Httpd) (gui : WebGuiPipeline) (file : File) : Prop :=
  gui.valid = false ∨ httpd 0 = false ∨ httpd 1 = false ∨
    if file.openOk then
      (∀ i ≤ file.content.length / gui.capacity, file.readOk i = true ∧ httpd (2 + i) = true) ∨
        (httpd 2 = false ∧ (file.readOk 0 = false ∨ httpd 3 = false))
    else httpd 2 = false

/-- when a request to the endpoint gets one response -/
def Endpoint.Single (httpd : Httpd) : Endpoint → Prop
  | .system reboot => RebootSingle httpd (.ok ()) reboot
  | .mdns updated reboot | .apUpdate updated reboot | .staUpdate updated reboot => RebootSingle httpd updated reboot
  | .analogConfig (.timedOut waited returning) _ prepared =>
    waited + returning < 3 ∨ prepared.isOk = false ∨ replied httpd = false
  | .webGui gui fs uri =>
    if uri = .ofString "/" then True
    else if uri = .ofString "/dashboard" then
      FileSingle httpd gui (fs ((WebGuiPipeline.mountPoint.append (.ofString "/index.html")).append (.ofString ".gz")))
    else FileSingle httpd gui (fs ((WebGuiPipeline.mountPoint.append uri).append (.ofString ".gz")))
  | _ => True

/-! ## Replies -/

/-- what a handler leaves: the status it reports and the result of each write -/
structure Served (result : StatusCode × Request) (code : StatusCode) (sent : List Bool) : Prop where
  code_eq : result.1 = code
  sent_eq : (writes result.2.calls).map Prod.snd = sent
  noError : NoError result.2.calls

theorem Served.single_iff {httpd : Httpd} {result : StatusCode × Request} {code : StatusCode} {sent : List Bool}
    (h : Served result code sent) :
    OneResponse (Server.respond httpd result.1 result.2) ↔ code = .ok ∨ ∀ s ∈ sent, s = false := by
  rw [oneResponse_respond_iff httpd h.noError, h.code_eq, ← h.sent_eq]
  simp

theorem served_new (code : StatusCode) : Served (code, .new) code [] := ⟨rfl, rfl, by simp [NoError, Request.new]⟩

/-- writing a text: all three calls, or nothing sent -/
theorem write_served (httpd : Httpd) (contentType text : String) :
    Served (ResponseOps.write httpd .new contentType text) (if replied httpd then .ok else .error)
      (if httpd 0 && httpd 1 then [httpd 2] else []) := by
  obtain ⟨req, hres, -, hcalls⟩ := ResponseOps.write_spec httpd contentType text
  rw [hres]
  refine ⟨rfl, ?_, ?_⟩
  · rw [hcalls]
    cases httpd 0 <;> cases httpd 1 <;> simp [writes, HttpdCall.written]
  · rw [hcalls]
    cases httpd 0 <;> cases httpd 1 <;> simp [NoError]

theorem write_unsent {httpd : Httpd} (hreplied : replied httpd = false) :
    ∀ s ∈ (if httpd 0 && httpd 1 then [httpd 2] else []), s = false := by
  revert hreplied
  unfold replied
  cases httpd 0 <;> cases httpd 1 <;> simp

theorem reply_single (httpd : Httpd) (contentType : String) (prepared : Prepared) :
    OneResponse (Server.respond httpd
      (reply (ResponseOps.write httpd · contentType ·) prepared .new).1
      (reply (ResponseOps.write httpd · contentType ·) prepared .new).2) := by
  cases prepared with
  | error e => exact (served_new e.code).single_iff.2 (Or.inr (by simp))
  | ok text =>
    apply (write_served httpd contentType text).single_iff.2
    cases hreplied : replied httpd with
    | true => exact Or.inl rfl
    | false => exact Or.inr (write_unsent hreplied)

@[simp] theorem replyAndReboot_error (httpd : Httpd) (e : Fault) (reboot : StatusCode) (req : Request) :
    replyAndReboot httpd (.error e) reboot req = (e.code, req) := by
  unfold replyAndReboot
  simp only [reply]
  split
  · next req heq =>
    simp only [Prod.mk.injEq] at heq
    exact absurd heq.1 e.failed
  · rfl

/-- a reply that is sent is followed by the reboot -/
theorem replyAndReboot_text {httpd : Httpd} {text : String} {req : Request}
    (h : ResponseOps.writeText httpd .new text = (if replied httpd then .ok else .error, req)) (reboot : StatusCode) :
    replyAndReboot httpd (.ok text) reboot .new = (if replied httpd then reboot else .error, req) := by
  simp only [replyAndReboot, reply, h]
  cases replied httpd <;> rfl

theorem replyAndReboot_single_iff (httpd : Httpd) (prepared : Prepared) (reboot : StatusCode) :
    OneResponse (Server.respond httpd (replyAndReboot httpd prepared reboot .new).1
        (replyAndReboot httpd prepared reboot .new).2) ↔
      reboot = .ok ∨ prepared.isOk = false ∨ replied httpd = false := by
  cases prepared with
  | error e =>
    rw [replyAndReboot_error, (served_new e.code).single_iff]
    simp [Except.isOk, Except.toBool]
  | ok text =>
    have h := write_served httpd "text/plain; charset=utf-8" text
    obtain ⟨⟨code, req⟩, hw⟩ : ∃ r, ResponseOps.write httpd .new "text/plain; charset=utf-8" text = r := ⟨_, rfl⟩
    rw [hw] at h
    have hcode : code = if replied httpd then .ok else .error := h.code_eq
    subst hcode
    rw [replyAndReboot_text hw]
    cases hreplied : replied httpd with
    | false =>
      simp only [hreplied, Bool.false_eq_true, if_false] at h ⊢
      rw [h.single_iff]
      simp only [or_true, iff_true]
      exact Or.inr (write_unsent hreplied)
    | true =>
      have hserved : Served (reboot, req) reboot [true] := by
        refine ⟨rfl, ?_, h.noError⟩
        have hsent := h.sent_eq
        unfold replied at hreplied
        simp only [Bool.and_eq_true] at hreplied
        simpa [hreplied.1.1, hreplied.1.2, hreplied.2] using hsent
      simp only [if_true]
      rw [hserved.single_iff]
      simp [Except.isOk, Except.toBool]

theorem timedOut_single_iff (httpd : Httpd) (waited returning : ℕ) (update : Bool) (prepared : Prepared) :
    OneResponse (Server.respond httpd
        (AnalogConfigStoreHandler.serveHttp httpd (.timedOut waited returning) update prepared .new).1
        (AnalogConfigStoreHandler.serveHttp httpd (.timedOut waited returning) update prepared .new).2) ↔
      waited + returning < 3 ∨ prepared.isOk = false ∨ replied httpd = false := by
  cases prepared with
  | error e =>
    have hhandle : AnalogConfigStoreHandler.handle httpd update (.error e) .new = (e.code, .new) := by
      cases update <;> rfl
    have hserved : Served (AnalogConfigStoreHandler.serveHttp httpd (.timedOut waited returning) update (.error e) .new)
        .timeout [] := by
      simp only [AnalogConfigStoreHandler.serveHttp, hhandle]
      exact ⟨rfl, by simp [Request.new, writes], by simp [Request.new, NoError]⟩
    rw [hserved.single_iff]
    simp [Except.isOk, Except.toBool]
  | ok text =>
    obtain ⟨contentType, sent, hcontent⟩ : ∃ contentType sent,
        AnalogConfigStoreHandler.handle httpd update (.ok text) .new =
          ResponseOps.write httpd .new contentType sent := by
      cases update
      · exact ⟨_, text, rfl⟩
      · exact ⟨_, "OK", rfl⟩
    obtain ⟨req, hres, -, hcalls⟩ := ResponseOps.write_spec httpd contentType sent
    -- the function has made `done` of its calls before the error response
    obtain ⟨done, hdone⟩ : ∃ done, waited + returning = done := ⟨_, rfl⟩
    have hserved : Served
        (AnalogConfigStoreHandler.serveHttp httpd (.timedOut waited returning) update (.ok text) .new) .timeout
        (if 3 ≤ done && httpd 0 && httpd 1 then [httpd 2] else []) := by
      simp only [AnalogConfigStoreHandler.serveHttp, hcontent, hres, hdone]
      simp only [Request.new, List.length_nil, Nat.zero_add]
      refine ⟨rfl, ?_, ?_⟩
      · rw [hcalls]
        rcases done with _ | _ | _ | done <;> cases httpd 0 <;> cases httpd 1 <;> simp [writes, HttpdCall.written]
      · have hnoError := (write_served httpd contentType sent).noError
        rw [hres] at hnoError
        intro c hc
        exact hnoError c (List.mem_of_mem_take hc)
    rw [hserved.single_iff, hdone]
    unfold replied
    rcases Nat.lt_or_ge done 3 with hdone | hdone
    · simp [hdone, Nat.not_le.2 hdone]
    · cases httpd 0 <;> cases httpd 1 <;> simp [hdone, Nat.not_lt.2 hdone, Except.isOk, Except.toBool]

/-! ## Files -/

/-- a transfer reports success iff every chunk is read and sent, the one past the last full chunk too -/
theorem Transfer.ok_iff {capacity : ℕ} (hcap : 0 < capacity) {readOk sendOk : ℕ → Bool} {rest : List Byte} {n : ℕ}
    {ws : List (List Byte × Bool)} {code : StatusCode} (h : Transfer capacity readOk sendOk rest n ws code) :
    code = .ok ↔ ∀ i ≤ rest.length / capacity, readOk (n + i) = true ∧ sendOk (n + i) = true := by
  induction h with
  | readFails rest n hread =>
    refine ⟨?_, ?_⟩
    · intro hcode
      cases hcode
    · intro hall
      have h0 := (hall 0 (Nat.zero_le _)).1
      rw [Nat.add_zero, hread] at h0
      cases h0
  | sendFails rest n hread hsend =>
    refine ⟨?_, ?_⟩
    · intro hcode
      cases hcode
    · intro hall
      have h0 := (hall 0 (Nat.zero_le _)).2
      rw [Nat.add_zero, hsend] at h0
      cases h0
  | short rest n hlen hread hsend =>
    rw [Nat.div_eq_of_lt hlen]
    simp [hread, hsend]
  | full rest n ws code hlen hread hsend htail ih =>
    have hdiv : rest.length / capacity = (rest.drop capacity).length / capacity + 1 := by
      rw [List.length_drop]
      exact Nat.div_eq_sub_div hcap hlen
    rw [ih, hdiv]
    refine ⟨?_, ?_⟩
    · intro hall i hi
      cases i with
      | zero => exact ⟨hread, hsend⟩
      | succ i =>
        have h := hall i (by omega)
        rwa [Nat.add_right_comm, Nat.add_assoc] at h
    · intro hall i hi
      have h := hall (i + 1) (by omega)
      rwa [← Nat.add_assoc, Nat.add_right_comm] at h

/-- nothing of a transfer and of the chunk after it goes out -/
theorem Transfer.unsent_iff {capacity : ℕ} {readOk sendOk : ℕ → Bool} {rest : List Byte} {n : ℕ}
    {ws : List (List Byte × Bool)} {code : StatusCode} (h : Transfer capacity readOk sendOk rest n ws code) :
    (∀ w ∈ ws ++ [([], sendOk (n + ws.length))], w.2 = false) ↔
      sendOk n = false ∧ (readOk n = false ∨ sendOk (n + 1) = false) := by
  cases h with
  | readFails _ _ hread => simp [hread]
  | sendFails _ _ hread hsend => simp [hread, hsend]
  | short _ _ hlen hread hsend => simp [hsend]
  | full _ _ ws _ hlen hread hsend htail => simp [hsend]

theorem handleFile_single_iff (gui : WebGuiPipeline) (httpd : Httpd) (fs : FileSystem) (filename : CString) :
    let file := fs ((WebGuiPipeline.mountPoint.append filename).append (.ofString ".gz"))
    ∃ code req, (∀ fuel, file.content.length + 1 < fuel →
        gui.handleFile httpd fs fuel .new filename = some (code, req)) ∧
      (OneResponse (Server.respond httpd code req) ↔ FileSingle httpd gui file) := by
  intro file
  obtain ⟨code, req, hrun, hnoError, hres⟩ := handleFile_spec gui httpd fs filename
  refine ⟨code, req, hrun, ?_⟩
  change Handled gui httpd file code (writes req.calls) at hres
  clear_value file
  rw [oneResponse_respond_iff httpd hnoError]
  unfold FileSingle
  generalize writes req.calls = sent at hres ⊢
  cases hres with
  | early _ hearly hcode =>
    simp only [List.not_mem_nil, false_implies, implies_true, or_true, true_iff]
    tauto
  | unopened hvalid h0 h1 hopen => simp [hvalid, h0, h1, hopen]
  | sent ws _ hvalid h0 h1 hopen htransfer =>
    have hunsent := htransfer.unsent_iff
    simp only [Nat.zero_add] at hunsent
    rw [htransfer.ok_iff gui.capacity_pos, hunsent]
    simp [hvalid, h0, h1, hopen]

theorem handleRoot_single (httpd : Httpd) :
    OneResponse (Server.respond httpd (WebGuiPipeline.handleRoot httpd .new).1
      (WebGuiPipeline.handleRoot httpd .new).2) := by
  have hstatus : ResponseWriter.writeStatus httpd .new .movedPermanently =
      (if httpd 0 then .ok else .error, ⟨false, [(.setStatus .movedPermanently, httpd 0)]⟩) := rfl
  have hlocation : Header.set httpd ⟨false, [(.setStatus .movedPermanently, true)]⟩ "Location" "/dashboard" =
      (if httpd 1 then .ok else .error,
        ⟨false, [(.setStatus .movedPermanently, true), (.setHdr "Location" "/dashboard", httpd 1)]⟩) := rfl
  have hserved : Served (WebGuiPipeline.handleRoot httpd .new) (if replied httpd then .ok else .error)
      (if httpd 0 && httpd 1 then [httpd 2] else []) := by
    unfold WebGuiPipeline.handleRoot replied
    rw [hstatus]
    cases h0 : httpd 0 with
    | false => exact ⟨by simp, by simp [writes, HttpdCall.written], by simp [NoError]⟩
    | true =>
      simp only [if_true, hlocation]
      cases h1 : httpd 1 with
      | false => exact ⟨by simp, by simp [writes, HttpdCall.written], by simp [NoError]⟩
      | true =>
        simp only [if_true, ResponseWriter.write, Bool.false_eq_true, if_false, httpdCall, List.length_cons,
          List.length_nil, Nat.zero_add, Nat.reduceAdd]
        exact ⟨by simp, by simp [writes, HttpdCall.written], by simp [NoError]⟩
  apply hserved.single_iff.2
  cases hreplied : replied httpd with
  | true => exact Or.inl rfl
  | false => exact Or.inr (write_unsent hreplied)

/-! ## Main results -/

/-- with enough fuel the request is served, and it gets one response iff the condition holds -/
def ServedOnceIff (httpd : Httpd) (handler : ℕ → Option Handler) (condition : Prop) : Prop :=
  ∃ least resp, (∀ fuel, least < fuel → Server.handleRequestGet httpd (handler fuel) = some resp) ∧
    (OneResponse resp ↔ condition)

theorem reply_servedOnce (httpd : Httpd) (contentType : String) (prepared : Prepared) :
    ServedOnceIff httpd (fun _ => some fun req => some (reply (ResponseOps.write httpd · contentType ·) prepared req))
      True :=
  ⟨0, _, fun _ _ => rfl, iff_true_intro (reply_single httpd contentType prepared)⟩

theorem reboot_servedOnce (httpd : Httpd) (updated : Except Fault Unit) (text : String) (reboot : StatusCode) :
    ServedOnceIff httpd
      (fun _ => some fun req => some (replyAndReboot httpd (updated.map fun _ => text) reboot req))
      (RebootSingle httpd updated reboot) := by
  refine ⟨0, _, fun _ _ => rfl, ?_⟩
  rw [replyAndReboot_single_iff]
  cases updated <;> rfl

theorem failure_single (httpd : Httpd) (code : StatusCode) :
    OneResponse (Server.respond httpd code .new) :=
  (served_new code).single_iff.2 (Or.inr (by simp))

theorem webGui_servedOnce (httpd : Httpd) (gui : WebGuiPipeline) (fs : FileSystem) (uri : CString) :
    ServedOnceIff httpd (fun fuel => some (gui.serveHttp httpd fs fuel uri))
      (Endpoint.Single httpd (.webGui gui fs uri)) := by
  have hfile (filename : CString) : ServedOnceIff httpd
      (fun fuel => some fun req => gui.handleFile httpd fs fuel req filename)
      (FileSingle httpd gui (fs ((WebGuiPipeline.mountPoint.append filename).append (.ofString ".gz")))) := by
    obtain ⟨code, req, hrun, hsingle⟩ := handleFile_single_iff gui httpd fs filename
    refine ⟨(fs ((WebGuiPipeline.mountPoint.append filename).append (.ofString ".gz"))).content.length + 1,
      Server.respond httpd code req, ?_, hsingle⟩
    intro fuel hfuel
    simp only [Server.handleRequestGet, hrun fuel hfuel, Option.map_some]
  have hserve (fuel : ℕ) : gui.serveHttp httpd fs fuel uri = fun req =>
      if uri = .ofString "/" then some (WebGuiPipeline.handleRoot httpd req)
      else if uri = .ofString "/dashboard" then gui.handleFile httpd fs fuel req (.ofString "/index.html")
      else gui.handleFile httpd fs fuel req uri := rfl
  rw [Endpoint.Single]
  simp only [hserve]
  split_ifs
  · exact ⟨0, _, fun _ _ => rfl, iff_true_intro (handleRoot_single httpd)⟩
  · exact hfile (.ofString "/index.html")
  · exact hfile uri

/-- **One response per request.** With enough fuel for its file, if it sends one, every request is served, and it gets one
response iff the condition of its endpoint holds. -/
theorem one_response_iff (httpd : Httpd) (e : Endpoint) :
    ∃ least resp, (∀ fuel, least < fuel → Server.handleRequestGet httpd (e.handler httpd fuel) = some resp) ∧
      (OneResponse resp ↔ e.Single httpd) := by
  cases e with
  | unknown => exact ⟨0, _, fun _ _ => rfl, iff_true_intro (failure_single httpd .invalidArg)⟩
  | data formatted => exact reply_servedOnce httpd _ formatted
  | systemState formatted => exact reply_servedOnce httpd _ formatted
  | time formatted => exact reply_servedOnce httpd _ formatted
  | sht41 operation => exact reply_servedOnce httpd _ (operation.map fun _ => "OK")
  | ds18b20 operation => exact reply_servedOnce httpd _ operation
  | system reboot => exact reboot_servedOnce httpd (.ok ()) "Rebooting..." reboot
  | mdns updated reboot => exact reboot_servedOnce httpd updated "OK" reboot
  | apGet formatted => exact reply_servedOnce httpd _ formatted
  | apUpdate updated reboot => exact reboot_servedOnce httpd updated "OK" reboot
  | staGet formatted => exact reply_servedOnce httpd _ formatted
  | staUpdate updated reboot => exact reboot_servedOnce httpd updated "OK" reboot
  | analogConfig future update prepared =>
    cases future with
    | refused => exact ⟨0, _, fun _ _ => rfl, iff_true_intro (failure_single httpd .invalidState)⟩
    | finished =>
      cases update with
      | false => exact reply_servedOnce httpd _ prepared
      | true => exact reply_servedOnce httpd _ (prepared.map fun _ => "OK")
    | timedOut waited returning =>
      exact ⟨0, _, fun _ _ => rfl, timedOut_single_iff httpd waited returning update prepared⟩
  | webGui gui fs uri => exact webGui_servedOnce httpd gui fs uri

/-- every request gets one response, wherever its calls fail -/
def OneResponsePerRequest : Prop :=
  ∀ (httpd : Httpd) (e : Endpoint) (fuel : ℕ) (resp : Request),
    Server.handleRequestGet httpd (e.handler httpd fuel) = some resp → OneResponse resp

/-- the calls for a request, all of them succeeding -/
def exampleCalls (e : Endpoint) : Option (List HttpdCall) :=
  (Server.handleRequestGet (fun _ => true) (e.handler (fun _ => true) 10)).map fun resp => resp.calls.map Prod.fst

/-- **A second response.** The error response comes after the chunk that ends the response for a file that does not
exist, after the text of a request whose reboot is refused, and after the text that an update of an analog configuration
sends between the end of the wait for it and the error response. -/
theorem second_response : ¬ OneResponsePerRequest ∧
    exampleCalls (.webGui exampleGui (fun _ => { goodFile [] with openOk := false }) (.ofString "/assets/a.js")) =
      some [.setType "application/javascript", .setHdr "Content-Encoding" "gzip", .sendChunk [],
        .sendErr .internalServerError .error] ∧
    exampleCalls (.mdns (.ok ()) .invalidState) =
      some [.setType "text/plain; charset=utf-8", .setStatus .ok, .send (bytes "OK"),
        .sendErr .internalServerError .invalidState] ∧
    exampleCalls (.analogConfig (.timedOut 2 1) true (.ok "OK")) =
      some [.setType "text/plain; charset=utf-8", .setStatus .ok, .send (bytes "OK"),
        .sendErr .internalServerError .timeout] := by
  refine ⟨fun h => ?_, by decide, by decide, by decide⟩
  have hrun : ∃ resp, Server.handleRequestGet (fun _ => true)
      (Endpoint.handler (fun _ => true) 1 (.mdns (.ok ()) .invalidState)) = some resp ∧
      resp.calls = [(.setType "text/plain; charset=utf-8", true), (.setStatus .ok, true), (.send (bytes "OK"), true)] ++
        (.sendErr .internalServerError .invalidState, true) :: [] := ⟨_, rfl, rfl⟩
  obtain ⟨resp, hreq, hcalls⟩ := hrun
  have hunsent := h (fun _ => true) (.mdns (.ok ()) .invalidState) 1 resp hreq _ _ _ _ _ hcalls (bytes "OK", true)
    (by decide)
  cases hunsent

end ControlComponents.Pipeline
