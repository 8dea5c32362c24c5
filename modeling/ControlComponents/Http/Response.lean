/-
The response side of the HTTP server (`ocs_http`) over the ESP-IDF server: `Header`, `ResponseWriter`,
`ChunkStreamWriter`, `ResponseOps` (`ocs_algo`) and `Server::handle_request_get_`.

A request keeps the list of the ESP-IDF calls made for it, each with its result. Which call succeeds is given by its
number.

- `oneResponse_respond_iff`: the server adds an error response to a request whose handler reports a failure, so a request
  gets one response iff its handler reports success or none of its writes has succeeded.
-/
import ControlComponents.Core.Stream

namespace ControlComponents.Http

open ControlComponents.Core

/-! ## Model -/

/-- `http::StatusCode` -/
inductive HttpStatus where
  | ok
  | movedPermanently
  | notModified
  | badRequest
  | unauthorized
  | forbidden
  | notFound
  | requestTimeout
  | internalServerError
  | notImplemented
  | serviceUnavailable
deriving DecidableEq

/-- the calls of the ESP-IDF server that concern a response -/
inductive HttpdCall where
  | setStatus (code : HttpStatus)
  | setType (value : String)
  | setHdr (key value : String)
  | send (data : List Byte)
  | sendChunk (data : List Byte)
  | sendErr (http : HttpStatus) (code : StatusCode)
deriving DecidableEq

/-- which calls for a request succeed, by number -/
abbrev Httpd := ℕ → Bool

/-- a request: whether its header says chunked, and the calls made for it with their results -/
structure Request where
  chunked : Bool
  calls : List (HttpdCall × Bool)

def Request.new : Request := ⟨false, []⟩

def httpdCall (httpd : Httpd) (req : Request) (c : HttpdCall) : StatusCode × Request :=
  let res := httpd req.calls.length
  (if res then .ok else .error, { req with calls := req.calls ++ [(c, res)] })

namespace Header

/-- the server sets Content-Length by itself, and Transfer-Encoding when it sends chunks -/
def set (httpd : Httpd) (req : Request) (key value : String) : StatusCode × Request :=
  if key = "Content-Length" then (.ok, req)
  else if key = "Content-Type" then httpdCall httpd req (.setType value)
  else if key = "Transfer-Encoding" ∧ value = "chunked" then (.ok, { req with chunked := true })
  else httpdCall httpd req (.setHdr key value)

end Header

namespace ResponseWriter

def write (httpd : Httpd) (req : Request) (data : List Byte) : StatusCode × Request :=
  if req.chunked then httpdCall httpd req (.sendChunk data) else httpdCall httpd req (.send data)

def writeStatus (httpd : Httpd) (req : Request) (code : HttpStatus) : StatusCode × Request :=
  httpdCall httpd req (.setStatus code)

end ResponseWriter

/-- `ChunkStreamWriter` -/
def chunkStreamWriter (httpd : Httpd) : StreamWriter Request where
  start req := (.ok, req)
  finish req := ResponseWriter.write httpd req []
  write data req := ResponseWriter.write httpd req data

/-- the characters of a text, for one that is ASCII -/
def bytes (text : String) : List Byte := text.toList.map fun c => BitVec.ofNat 8 c.toNat

namespace ResponseOps

/-- `write_text` and `write_json` differ in the type of the content -/
def write (httpd : Httpd) (req : Request) (contentType text : String) : StatusCode × Request :=
  match Header.set httpd req "Content-Type" contentType with
  | (.ok, req) =>
    match Header.set httpd req "Content-Length" (toString (bytes text).length) with
    | (.ok, req) =>
      match ResponseWriter.writeStatus httpd req .ok with
      | (.ok, req) => ResponseWriter.write httpd req (bytes text)
      | r => r
    | r => r
  | r => r

def writeText (httpd : Httpd) (req : Request) (text : String) : StatusCode × Request :=
  write httpd req "text/plain; charset=utf-8" text

def writeJson (httpd : Httpd) (req : Request) (text : String) : StatusCode × Request :=
  write httpd req "application/json" text

end ResponseOps

/-- a handler: what it reports and the calls it makes for the request, if it ends -/
abbrev Handler := Request → Option (StatusCode × Request)

namespace Server

def statusCodeToHttpCode : StatusCode → HttpStatus
  | .invalidArg => .badRequest
  | _ => .internalServerError

/-- the error response for a handler that reports a failure -/
def respond (httpd : Httpd) (code : StatusCode) (req : Request) : Request :=
  if code ≠ .ok then (httpdCall httpd req (.sendErr (statusCodeToHttpCode code) code)).2 else req

/-- `handle_request_get_` with the handler its router has found, if any -/
def handleRequestGet (httpd : Httpd) (handler : Option Handler) : Option Request :=
  match handler with
  | none => some (respond httpd .invalidArg .new)
  | some serveHttp => (serveHttp .new).map fun r => respond httpd r.1 r.2

end Server

/-! ## Calls -/

/-- the data of a `ResponseWriter::write` -/
def HttpdCall.written : HttpdCall → Option (List Byte)
  | .send data | .sendChunk data => some data
  | _ => none

/-- the `ResponseWriter::write` calls, in order, each with its result -/
def writes (calls : List (HttpdCall × Bool)) : List (List Byte × Bool) :=
  calls.filterMap fun c => c.1.written.map fun data => (data, c.2)

theorem writes_append (as bs : List (HttpdCall × Bool)) : writes (as ++ bs) = writes as ++ writes bs :=
  List.filterMap_append

/-- the error responses are called for by the server only -/
def NoError (calls : List (HttpdCall × Bool)) : Prop := ∀ c ∈ calls, ∀ http code, c.1 ≠ .sendErr http code

theorem NoError.append {as bs : List (HttpdCall × Bool)} (ha : NoError as) (hb : NoError bs) : NoError (as ++ bs) := by
  intro c hc
  rcases List.mem_append.1 hc with hc | hc
  · exact ha c hc
  · exact hb c hc

/-- every error response stands before the first successful write -/
def OneResponse (req : Request) : Prop :=
  ∀ before after http code res, req.calls = before ++ (.sendErr http code, res) :: after →
    ∀ w ∈ writes before, w.2 = false

/-- **One response.** A request gets one response iff its handler reports success or none of its writes has succeeded. -/
theorem oneResponse_respond_iff (httpd : Httpd) {code : StatusCode} {req : Request} (hreq : NoError req.calls) :
    OneResponse (Server.respond httpd code req) ↔ code = .ok ∨ ∀ w ∈ writes req.calls, w.2 = false := by
  unfold Server.respond
  by_cases hcode : code = .ok
  · simp only [hcode, ne_eq, not_true_eq_false, if_false, true_or, iff_true]
    intro before after http code' res hsplit
    have hmem : (HttpdCall.sendErr http code', res) ∈ req.calls := by
      rw [hsplit]
      simp
    exact absurd rfl (hreq _ hmem http code')
  · simp only [ne_eq, hcode, not_false_eq_true, if_true, false_or]
    refine ⟨?_, ?_⟩
    · intro hone
      exact hone req.calls [] _ _ _ rfl
    · intro hnone before after http code' res hsplit
      -- the error response of the server is the only one, so `before` is what the handler did
      have hlast : before = req.calls := by
        rcases List.eq_nil_or_concat after with rfl | ⟨after', c, rfl⟩
        · exact (List.append_inj_left' hsplit rfl).symm
        · have hsplit' : req.calls = before ++ (.sendErr http code', res) :: after' := by
            have h := hsplit
            rw [List.concat_eq_append, ← List.cons_append, ← List.append_assoc] at h
            exact List.append_inj_left' h rfl
          have hmem : (HttpdCall.sendErr http code', res) ∈ req.calls := by
            rw [hsplit']
            simp
          exact absurd rfl (hreq _ hmem http code')
      rw [hlast]
      exact hnone

/-- what writing a text can do: the three calls up to the first that fails -/
theorem ResponseOps.write_spec (httpd : Httpd) (contentType text : String) :
    ∃ req, ResponseOps.write httpd .new contentType text =
        (if httpd 0 && httpd 1 && httpd 2 then .ok else .error, req) ∧
      req.chunked = false ∧
      req.calls = [(.setType contentType, httpd 0)] ++
        if httpd 0 then [(.setStatus .ok, httpd 1)] ++ if httpd 1 then [(.send (bytes text), httpd 2)] else [] else [] := by
  have htype : Header.set httpd .new "Content-Type" contentType =
      (if httpd 0 then .ok else .error, ⟨false, [(.setType contentType, httpd 0)]⟩) := rfl
  have hlength (req : Request) (value : String) : Header.set httpd req "Content-Length" value = (.ok, req) := rfl
  unfold ResponseOps.write
  cases h0 : httpd 0 with
  | false => exact ⟨⟨false, [(.setType contentType, false)]⟩, by simp [htype, h0], rfl, by simp⟩
  | true =>
    cases h1 : httpd 1 with
    | false =>
      refine ⟨⟨false, [(.setType contentType, true), (.setStatus .ok, false)]⟩, ?_, rfl, by simp⟩
      simp [htype, h0, hlength, ResponseWriter.writeStatus, httpdCall, h1]
    | true =>
      refine ⟨⟨false, [(.setType contentType, true), (.setStatus .ok, true), (.send (bytes text), httpd 2)]⟩, ?_, rfl,
        by simp⟩
      simp [htype, h0, hlength, ResponseWriter.writeStatus, ResponseWriter.write, httpdCall, h1]

end ControlComponents.Http
