/-
How a request comes to the web interface (`ocs_http`, `ocs_pipeline`), and what the interface makes of its URI.

The server routes on the path of the URI. The interface compares the whole URI, with its query, with the two paths that it
treats on their own, and takes it for the name of the file in every other case.

- `route_congr`: the query has no part in routing.
- `serveHttp_eq`: serving a request is performing the action that its URI stands for.
- `dispatch_iff`: when two URIs with the same path stand for the same action. `query_dispatched` are pairs that do not.
-/
import ControlComponents.Algo.UriOps
import ControlComponents.Pipeline.WebGui

namespace ControlComponents.Http

open ControlComponents.Algo ControlComponents.Lib

/-! ## Routing -/

/-- the endpoints of the GET requests: a pattern and its handler -/
abbrev Router (η : Type) := List (CString × η)

/-- whether a path matches a pattern, as `httpd_uri_match_wildcard` of ESP-IDF has it -/
abbrev Matcher := CString → Text → Bool

namespace Router

variable {η : Type}

/-- `none` where the assertion fails -/
def add (router : Router η) (pattern : CString) (handler : η) : Option (Router η) :=
  if router.any fun e => decide (e.1 = pattern) then none else some (router ++ [(pattern, handler)])

/-- `match`: the handler of the first pattern that the path matches -/
def matchPath (router : Router η) (matcher : Matcher) (path : Text) : Option η :=
  (router.find? fun e => matcher e.1 path).map Prod.snd

end Router

namespace Server

variable {η : Type}

/-- the handler that `handle_request_get_` finds -/
def route (router : Router η) (matcher : Matcher) (uri : Uri) : Option η :=
  router.matchPath matcher (uri.content (parsePath uri))

/-- the handler depends on the path only -/
theorem route_congr (router : Router η) (matcher : Matcher) {u v : Uri}
    (hpath : u.content (parsePath u) = v.content (parsePath v)) : route router matcher u = route router matcher v :=
  congrArg (router.matchPath matcher) hpath

end Server

end ControlComponents.Http

namespace ControlComponents.Pipeline

open ControlComponents.Algo ControlComponents.Http ControlComponents.Lib

namespace WebGuiPipeline

variable {η : Type}

/-- the routes that the constructor adds -/
def register (router : Router η) (gui : η) : Option (Router η) := do
  let router ← router.add (.ofString "/") gui
  let router ← router.add (.ofString "/dashboard") gui
  router.add (.ofString "/assets/*") gui

/-! ## Actions -/

/-- what the interface does for a request -/
inductive Action where
  /-- the request is redirected to the dashboard -/
  | redirect
  /-- the file is sent, under the type of its content -/
  | send (path : CString) (contentType : String)
  /-- the filesystem has not been mounted -/
  | refuse
deriving DecidableEq

/-- the action of `handle_file_` -/
def fileAction (gui : WebGuiPipeline) (filename : CString) : Action :=
  if !gui.valid then .refuse
  else .send ((mountPoint.append filename).append (.ofString ".gz")) (parseContentType (mountPoint.append filename))

/-- the action of `serve_http` -/
def action (gui : WebGuiPipeline) (uri : CString) : Action :=
  if uri = .ofString "/" then .redirect
  else if uri = .ofString "/dashboard" then gui.fileAction (.ofString "/index.html")
  else gui.fileAction uri

/-- a file is sent once its headers are accepted -/
def perform (gui : WebGuiPipeline) (httpd : Httpd) (fs : FileSystem) (fuel : ℕ) (req : Request) :
    Action → Option (StatusCode × Request)
  | .redirect => some (handleRoot httpd req)
  | .send path contentType =>
    match Header.set httpd req "Content-Type" contentType with
    | (.ok, req) =>
      match Header.set httpd req "Transfer-Encoding" "chunked" with
      | (.ok, req) =>
        match Header.set httpd req "Content-Encoding" "gzip" with
        | (.ok, req) => sendFile httpd (fs path) gui.capacity fuel req
        | r => some r
      | r => some r
    | r => some r
  | .refuse => some (.invalidState, req)

theorem handleFile_eq (gui : WebGuiPipeline) (httpd : Httpd) (fs : FileSystem) (fuel : ℕ) (req : Request)
    (filename : CString) :
    gui.handleFile httpd fs fuel req filename = gui.perform httpd fs fuel req (gui.fileAction filename) := by
  unfold handleFile fileAction
  cases gui.valid <;> rfl

/-- serving a request is performing the action of its URI -/
theorem serveHttp_eq (gui : WebGuiPipeline) (httpd : Httpd) (fs : FileSystem) (fuel : ℕ) (uri : CString) (req : Request) :
    gui.serveHttp httpd fs fuel uri req = gui.perform httpd fs fuel req (gui.action uri) := by
  unfold serveHttp action
  split_ifs
  · rfl
  · exact gui.handleFile_eq httpd fs fuel req _
  · exact gui.handleFile_eq httpd fs fuel req uri

/-! ## The query -/

/-- the path ends before the first `?` -/
theorem content_parsePath (uri : Uri) : uri.content (parsePath uri) = uri.text.takeWhile (· ≠ mark) := by
  by_cases hmem : mark ∈ uri.text
  · obtain ⟨path, query, hsplit, hpath⟩ := List.eq_append_cons_of_mem hmem
    have hall : ∀ b ∈ path, decide (b ≠ mark) = true := by
      intro b hb
      exact decide_eq_true fun h => hpath (h ▸ hb)
    have hmark : uri.strchr 0 mark = some path.length := by
      rw [CString.strchr_eq_some (List.drop_zero.trans hsplit) hpath, Nat.zero_add]
    rw [parsePath, hmark, Uri.content, List.drop_zero, hsplit, List.take_left, List.takeWhile_append_of_pos hall]
    simp
  · have hmark : uri.strchr 0 mark = none := CString.strchr_eq_none hmem
    have hall : ∀ b ∈ uri.text, decide (b ≠ mark) = true := by
      intro b hb
      exact decide_eq_true fun h => hmem (h ▸ hb)
    rw [parsePath, hmark, Uri.content, List.drop_zero, List.takeWhile_eq_self_iff.2 hall]
    exact List.take_length

/-- the file of the dashboard has another path than the dashboard -/
theorem path_ne_of_dashboard {u v : Uri} (hpath : u.content (parsePath u) = v.content (parsePath v))
    (hu : u.toCString = .ofString "/dashboard") : v.toCString ≠ .ofString "/index.html" := by
  intro hv
  rw [content_parsePath, content_parsePath, hu, hv] at hpath
  revert hpath
  decide

theorem append_injective {a b c d : CString} (h : (c.append a).append d = (c.append b).append d) : a = b := by
  apply CString.ext
  have htext := congrArg CString.text h
  exact List.append_cancel_left (List.append_cancel_right htext)

theorem fileAction_eq_iff (gui : WebGuiPipeline) (a b : CString) :
    gui.fileAction a = gui.fileAction b ↔ gui.valid = false ∨ a = b := by
  unfold fileAction
  cases hvalid : gui.valid with
  | false => simp
  | true =>
    simp only [Bool.not_true, Bool.false_eq_true, if_false, Bool.true_eq_false, false_or]
    refine ⟨fun h => append_injective (Action.send.inj h).1, ?_⟩
    rintro rfl
    rfl

theorem fileAction_ne_redirect (gui : WebGuiPipeline) (filename : CString) : gui.fileAction filename ≠ .redirect := by
  unfold fileAction
  split_ifs <;> exact nofun

/-- the file that a URI other than the root stands for -/
def filename (uri : CString) : CString :=
  if uri = .ofString "/dashboard" then .ofString "/index.html" else uri

theorem action_of_ne_root (gui : WebGuiPipeline) {uri : CString} (h : uri ≠ .ofString "/") :
    gui.action uri = gui.fileAction (filename uri) := by
  rw [action, if_neg h, filename]
  split_ifs <;> rfl

/-- URIs with the same path and the same file are equal -/
theorem eq_of_filename {u v : Uri} (hpath : u.content (parsePath u) = v.content (parsePath v))
    (h : filename u.toCString = filename v.toCString) : u.toCString = v.toCString := by
  unfold filename at h
  split_ifs at h with hu hv hv
  · rw [hu, hv]
  · exact absurd h.symm (path_ne_of_dashboard hpath hu)
  · exact absurd h (path_ne_of_dashboard hpath.symm hv)
  · exact h

theorem action_eq_iff (gui : WebGuiPipeline) {u v : Uri} (hpath : u.content (parsePath u) = v.content (parsePath v)) :
    gui.action u.toCString = gui.action v.toCString ↔ u.toCString = v.toCString ∨
      gui.valid = false ∧ u.toCString ≠ .ofString "/" ∧ v.toCString ≠ .ofString "/" := by
  by_cases hu : u.toCString = .ofString "/"
  · by_cases hv : v.toCString = .ofString "/"
    · simp [hu, hv]
    · have hroot : gui.action u.toCString = .redirect := if_pos hu
      rw [hroot, action_of_ne_root gui hv]
      refine iff_of_false (gui.fileAction_ne_redirect _).symm ?_
      rintro (h | h)
      · exact hv (h ▸ hu)
      · exact h.2.1 hu
  · by_cases hv : v.toCString = .ofString "/"
    · have hroot : gui.action v.toCString = .redirect := if_pos hv
      rw [hroot, action_of_ne_root gui hu]
      refine iff_of_false (gui.fileAction_ne_redirect _) ?_
      rintro (h | h)
      · exact hu (h ▸ hv)
      · exact h.2.2 hv
    · rw [action_of_ne_root gui hu, action_of_ne_root gui hv, fileAction_eq_iff]
      have hfile : filename u.toCString = filename v.toCString ↔ u.toCString = v.toCString :=
        ⟨eq_of_filename hpath, congrArg filename⟩
      rw [hfile, or_comm, and_iff_left ⟨hu, hv⟩]

/-- **Dispatch and the query.** Two URIs with the same path come to the same handler. The interface takes the same action for
both iff they are equal, or the filesystem has not been mounted and neither is the root. -/
theorem dispatch_iff {η : Type} (router : Router η) (matcher : Matcher) (handler : η) (gui : WebGuiPipeline) (u v : Uri)
    (hpath : u.content (parsePath u) = v.content (parsePath v)) (hu : Server.route router matcher u = some handler) :
    Server.route router matcher v = some handler ∧
      (gui.action u.toCString = gui.action v.toCString ↔ u.toCString = v.toCString ∨
        gui.valid = false ∧ u.toCString ≠ .ofString "/" ∧ v.toCString ≠ .ofString "/") :=
  ⟨Server.route_congr router matcher hpath ▸ hu, gui.action_eq_iff hpath⟩

/-- a pattern that ends in `*` is matched by what begins with it, any other one by itself -/
def starMatcher : Matcher := fun pattern path =>
  if pattern.text.getLast? = some 42 then pattern.text.dropLast.isPrefixOf path else decide (pattern.text = path)

/-- the routes of the interface alone -/
def exampleRouter : Router Unit := (register [] ()).getD []

def uriOf (s : String) (h : (CString.ofString s).text.length < 2 ^ 32) : Uri := ⟨.ofString s, h⟩

theorem dispatch_iff_example :
    Server.route exampleRouter starMatcher (uriOf "/?x" (by decide)) = some () ∧
      (exampleGui.action (.ofString "/") = exampleGui.action (.ofString "/?x") ↔
        CString.ofString "/" = .ofString "/?x" ∨ exampleGui.valid = false ∧
          CString.ofString "/" ≠ .ofString "/" ∧ CString.ofString "/?x" ≠ .ofString "/") :=
  dispatch_iff exampleRouter starMatcher () exampleGui (uriOf "/" (by decide)) (uriOf "/?x" (by decide)) (by decide)
    (by decide)

def QueryIgnored : Prop :=
  ∀ (router : Router Unit) (matcher : Matcher) (gui : WebGuiPipeline) (u v : Uri),
    u.content (parsePath u) = v.content (parsePath v) → Server.route router matcher u = some () →
      Server.route router matcher v = some () → gui.action u.toCString = gui.action v.toCString

/-- **The query is part of the file name.** With a query, the root is not redirected, the dashboard is not found, and a
script is neither found nor sent as one. -/
theorem query_dispatched : ¬ QueryIgnored ∧
    exampleGui.action (.ofString "/") = .redirect ∧
    exampleGui.action (.ofString "/?x") = .send (.ofString "/web_gui/?x.gz") "text/plain" ∧
    exampleGui.action (.ofString "/dashboard") = .send (.ofString "/web_gui/index.html.gz") "text/html" ∧
    exampleGui.action (.ofString "/dashboard?x") = .send (.ofString "/web_gui/dashboard?x.gz") "text/plain" ∧
    exampleGui.action (.ofString "/assets/a.js") = .send (.ofString "/web_gui/assets/a.js.gz") "application/javascript" ∧
    exampleGui.action (.ofString "/assets/a.js?x") = .send (.ofString "/web_gui/assets/a.js?x.gz") "text/plain" := by
  refine ⟨fun h => ?_, by decide, by decide, by decide, by decide, by decide, by decide⟩
  have hsame := h exampleRouter starMatcher exampleGui (uriOf "/" (by decide)) (uriOf "/?x" (by decide)) (by decide)
    (by decide) (by decide)
  revert hsame
  decide

end WebGuiPipeline

end ControlComponents.Pipeline
