/-
The handlers of the network configuration (`ocs_pipeline/httpserver`): `ApNetworkHandler`, `StaNetworkHandler` and
`MdnsHandler`.

A query without values reads the configuration, `reset=1` erases it, and anything else sets what it names. An update
that was made, or was not necessary, is answered with `OK`, and then the device is rebooted. One variable holds the
status of the update and then that of the answer: the test for an update that was not necessary is made on the answer.

- `valuesReadable`: a value that ends behind the URI has a key with an `&` in it, which no handler asks for. So every
  request is served.
- `serveHttp_endpoint`: what a handler does to the response is what its endpoint does.
- `reboots_on_change_iff`: when a request reboots the device iff something was modified. `reset_reboots` is one that
  reboots it for nothing.
-/
import ControlComponents.Algo.UriOps
import ControlComponents.Net.NetworkConfig
import ControlComponents.Pipeline.Endpoints

namespace ControlComponents.Pipeline.Httpserver

open ControlComponents.Algo ControlComponents.Http ControlComponents.Lib ControlComponents.Lib.KeyedWrites
open ControlComponents.Net ControlComponents.Storage

/-! ## Values of a query -/

/-- the comparison of a `std::string_view` with a literal -/
def shows (uri : Uri) (v : StringView) (text : String) : Bool :=
  decide (v.size = (bytes text).length ∧ uri.content v = bytes text)

/-- `values.find(key)` -/
def find (uri : Uri) (values : Values) (key : String) : Option StringView :=
  (values.find? fun e => shows uri e.1 key).map Prod.snd

/-- the request is refused -/
def refused : Fault := ⟨.invalidArg, StatusCode.noConfusion⟩

/-- what is parsed from a query, or why it is refused; `none` is a read behind the end of the URI -/
abbrev Parse := ExceptT Fault Option

/-- the characters of a view are read -/
def copy (uri : Uri) (v : StringView) : Option Text :=
  if v.data + v.size ≤ uri.strlen then some (uri.content v) else none

/-- `std::from_chars` for a `uint8_t`: the number the text begins with, if it begins with one that fits -/
def fromChars (text : Text) : Option Byte :=
  let digits := text.takeWhile fun c => decide (48 ≤ c.toNat ∧ c.toNat ≤ 57)
  let number := digits.foldl (fun n c => 10 * n + (c.toNat - 48)) 0
  if digits = [] ∨ 256 ≤ number then none else some (BitVec.ofNat 8 number)

def parseNumber (uri : Uri) (default : Byte) : Option StringView → Parse Byte
  | none => pure default
  | some v => do
    let text ← copy uri v
    match fromChars text with
    | none => throw refused
    | some number => pure number

def parseText (uri : Uri) (default : CString) : Option StringView → Parse CString
  | none => pure default
  | some v => do
    let text ← copy uri v
    pure (.ofBuffer text)

/-- what a query with values asks for -/
inductive Update (α : Type) where
  | reset
  | configure (settings : α)

/-- `reset` comes before all other keys -/
def parseUpdate {α : Type} (uri : Uri) (values : Values) (settings : Parse α) : Parse (Update α) :=
  match find uri values "reset" with
  | some value => if shows uri value "1" then pure .reset else throw refused
  | none => do
    let settings ← settings
    pure (.configure settings)

/-! ## Handlers -/

/-- what a handler meets: the server, the storage, the text it makes of the configuration, and the reboot task -/
structure Env where
  httpd : Httpd
  faults : Faults
  formatted : Prepared
  reboot : StatusCode

/-- what a handler has done: its status, the response, the storage, the result of `configure` or `reset` if one was
called, and whether the reboot task was run -/
structure Outcome where
  code : StatusCode
  request : Request
  store : Store
  config : Option StatusCode
  rebooted : Bool

/-- the request was only read, or it was refused -/
def notUpdated (s : Store) (result : StatusCode × Request) : Outcome := ⟨result.1, result.2, s, none, false⟩

/-- the end of an update -/
def finishUpdate (env : Env) (req : Request) (updated : StatusCode × Store) : Outcome :=
  let code := updated.1
  if code ≠ .ok ∧ code ≠ .notModified then ⟨code, req, updated.2, some updated.1, false⟩
  else
    let (code, req) := ResponseOps.writeText env.httpd req "OK"
    if code ≠ .ok then ⟨code, req, updated.2, some updated.1, false⟩
    else if code = .notModified then ⟨.ok, req, updated.2, some updated.1, false⟩
    else ⟨env.reboot, req, updated.2, some updated.1, true⟩

/-- an update that is parsed and made -/
def update {α : Type} (env : Env) (parsed : Parse (Update α)) (make : Update α → StatusCode × Store) (s : Store)
    (req : Request) : Option Outcome :=
  parsed.run.map fun
    | .error e => notUpdated s (e.code, req)
    | .ok u => finishUpdate env req (make u)

namespace ApNetworkHandler

def parse (config : ApNetworkConfig) (uri : Uri) (values : Values) : Parse (Update ApSettings) :=
  parseUpdate uri values do
    let password := find uri values "password"
    let channel := find uri values "channel"
    let maxConn := find uri values "max_conn"
    if password = none ∧ channel = none ∧ maxConn = none then throw refused
    let parsedChannel ← parseNumber uri config.settings.channel channel
    let parsedMaxConn ← parseNumber uri config.settings.maxConn maxConn
    let parsedPassword ← parseText uri config.settings.password password
    pure ⟨parsedPassword, parsedChannel, parsedMaxConn⟩

def make (config : ApNetworkConfig) (f : Faults) (s : Store) : Update ApSettings → StatusCode × Store
  | .reset => ApNetworkConfig.reset f s
  | .configure settings => ApNetworkConfig.configure config f s settings

def handleUpdate (env : Env) (config : ApNetworkConfig) (s : Store) (uri : Uri) (values : Values) (req : Request) :
    Option Outcome :=
  update env (parse config uri values) (make config env.faults s) s req

def handleGet (env : Env) (s : Store) (req : Request) : Outcome :=
  notUpdated s (reply (ResponseOps.writeJson env.httpd) env.formatted req)

def serveHttp (env : Env) (config : ApNetworkConfig) (s : Store) (uri : Uri) (req : Request) : Option Outcome := do
  let values ← parseQuery (uri.strlen + 1) uri
  if values = [] then some (handleGet env s req) else handleUpdate env config s uri values req

end ApNetworkHandler

namespace StaNetworkHandler

def parse (config : StaSettings) (uri : Uri) (values : Values) : Parse (Update StaSettings) :=
  parseUpdate uri values do
    let maxRetryCount := find uri values "retry"
    let ssid := find uri values "ssid"
    let password := find uri values "password"
    if maxRetryCount = none ∧ ssid = none ∧ password = none then throw refused
    let parsedMaxRetryCount ← parseNumber uri config.maxRetryCount maxRetryCount
    let parsedSsid ← parseText uri config.ssid ssid
    let parsedPassword ← parseText uri config.password password
    pure ⟨parsedMaxRetryCount, parsedSsid, parsedPassword⟩

def make (config : StaSettings) (f : Faults) (s : Store) : Update StaSettings → StatusCode × Store
  | .reset => StaNetworkConfig.reset f s
  | .configure settings => StaNetworkConfig.configure config f s settings

def handleUpdate (env : Env) (config : StaSettings) (s : Store) (uri : Uri) (values : Values) (req : Request) :
    Option Outcome :=
  update env (parse config uri values) (make config env.faults s) s req

def handleGet (env : Env) (config : StaSettings) (s : Store) (req : Request) : Outcome :=
  if !StaNetworkConfig.valid config then notUpdated s (.invalidState, req)
  else notUpdated s (reply (ResponseOps.writeJson env.httpd) env.formatted req)

def serveHttp (env : Env) (config : StaSettings) (s : Store) (uri : Uri) (req : Request) : Option Outcome := do
  let values ← parseQuery (uri.strlen + 1) uri
  if values = [] then some (handleGet env config s req) else handleUpdate env config s uri values req

end StaNetworkHandler

namespace MdnsHandler

def parse (uri : Uri) (values : Values) : Parse (Update CString) :=
  parseUpdate uri values do
    match find uri values "hostname" with
    | none => throw refused
    | some hostname =>
      -- copied to a zeroed array with one byte more
      let hostnameBuf ← copy uri hostname
      pure (.ofBuffer hostnameBuf)

def make (config : CString) (f : Faults) (s : Store) : Update CString → StatusCode × Store
  | .reset => MdnsConfig.reset f s
  | .configure hostname => MdnsConfig.configure config f s hostname

/-- the hostname cannot be read -/
def serveHttp (env : Env) (config : CString) (s : Store) (uri : Uri) (req : Request) : Option Outcome := do
  let values ← parseQuery (uri.strlen + 1) uri
  if values = [] then some (notUpdated s (.invalidArg, req))
  else update env (parse uri values) (make config env.faults s) s req

end MdnsHandler

/-- one of the handlers with the configuration it holds -/
inductive ConfigHandler where
  | ap (config : ApNetworkConfig)
  | sta (config : StaSettings)
  | mdns (config : CString)

def ConfigHandler.serveHttp (env : Env) (s : Store) (uri : Uri) (req : Request) : ConfigHandler → Option Outcome
  | .ap config => ApNetworkHandler.serveHttp env config s uri req
  | .sta config => StaNetworkHandler.serveHttp env config s uri req
  | .mdns config => MdnsHandler.serveHttp env config s uri req

/-! ## Specification -/

/-- once `OK` is written the device is rebooted iff something was modified, and it never is if nothing was -/
structure RebootsOnChange (o : Outcome) : Prop where
  answered : (bytes "OK", true) ∈ writes o.request.calls → (o.rebooted = true ↔ o.config = some .ok)
  unmodified : o.config ≠ some .ok → o.rebooted = false

/-- an erase that finds nothing, or fails with a status that is taken for that -/
def ErasesNothing (fault : Option Fault) (stored : Prop) : Prop :=
  fault.elim (¬ stored) fun e => e.code = .noData ∨ e.code = .notModified

/-- no setting differs from the current one, or the first write fails with a status that is taken for that -/
def SavesNothing (f : Faults) (bs : List (Block String (List Byte))) : Prop :=
  ((writesOf bs).findSome? fun p => f.write p.1).elim (bs.any Block.changed = false) fun e => e.code = .notModified

/-- an erase of everything that is answered as finding nothing, or fails with a status that is taken for that -/
def ErasesAllInVain (f : Faults) (s : Store) : Prop := ErasesNothing f.eraseAll (s ≠ ∅ ∨ f.emptyNoData = false)

def ApNetworkHandler.Unnecessary (config : ApNetworkConfig) (f : Faults) (s : Store) : Update ApSettings → Prop
  | .reset => ErasesAllInVain f s
  | .configure settings =>
    ApNetworkConfig.accepts settings = true ∧ SavesNothing f (ApNetworkConfig.blocks config.settings settings)

def StaNetworkHandler.Unnecessary (config : StaSettings) (f : Faults) (s : Store) : Update StaSettings → Prop
  | .reset => ErasesAllInVain f s
  | .configure settings =>
    StaNetworkConfig.accepts settings = true ∧ SavesNothing f (StaNetworkConfig.blocks config settings)

def MdnsHandler.Unnecessary (config : CString) (f : Faults) (s : Store) : Update CString → Prop
  | .reset => ErasesNothing (f.erase MdnsConfig.hostnameKey) (MdnsConfig.hostnameKey ∈ s)
  | .configure hostname =>
    MdnsConfig.accepts hostname = true ∧ SavesNothing f (MdnsConfig.blocks config hostname)

/-- the query of a URI is accepted and asks for this update -/
def AsksFor {α : Type} (uri : Uri) (parse : Values → Parse (Update α)) (u : Update α) : Prop :=
  ∃ values, parseQuery (uri.strlen + 1) uri = some values ∧ (parse values).run = some (.ok u)

/-- the request is for an update that is not necessary -/
def ConfigHandler.AsksUnnecessary (f : Faults) (s : Store) (uri : Uri) : ConfigHandler → Prop
  | .ap config =>
    ∃ u, AsksFor uri (ApNetworkHandler.parse config uri) u ∧ ApNetworkHandler.Unnecessary config f s u
  | .sta config =>
    ∃ u, AsksFor uri (StaNetworkHandler.parse config uri) u ∧ StaNetworkHandler.Unnecessary config f s u
  | .mdns config => ∃ u, AsksFor uri (MdnsHandler.parse uri) u ∧ MdnsHandler.Unnecessary config f s u

/-! ## Parsing -/

/-- no view is read behind the end of the URI -/
def Defined {α : Type} (x : Parse α) : Prop := ∃ r, x.run = some r

section

variable {α β : Type}

theorem defined_pure (a : α) : Defined (pure a : Parse α) := ⟨.ok a, rfl⟩

theorem defined_throw (e : Fault) : Defined (throw e : Parse α) := ⟨.error e, rfl⟩

theorem defined_bind {x : Parse α} {g : α → Parse β} (hx : Defined x) (hg : ∀ a, Defined (g a)) :
    Defined (x >>= g) := by
  obtain ⟨r, hr⟩ := hx
  cases r with
  | error e => exact ⟨.error e, by rw [ExceptT.run_bind, hr]; rfl⟩
  | ok a =>
    obtain ⟨r', hr'⟩ := hg a
    exact ⟨r', by rw [ExceptT.run_bind, hr]; exact hr'⟩

theorem defined_parseUpdate {uri : Uri} {values : Values} {settings : Parse α} (h : Defined settings) :
    Defined (parseUpdate uri values settings) := by
  unfold parseUpdate
  split
  · split
    · exact defined_pure _
    · exact defined_throw _
  · exact defined_bind h fun a => defined_pure _

end

/-- the value that was found, if any, ends with the URI or before -/
def Readable (uri : Uri) (found : Option StringView) : Prop := ∀ v, found = some v → v.data + v.size ≤ uri.strlen

theorem defined_copy {uri : Uri} {v : StringView} (h : Readable uri (some v)) :
    Defined (copy uri v : Parse Text) := by
  refine ⟨.ok (uri.content v), ?_⟩
  simp only [copy, if_pos (h v rfl)]
  rfl

theorem defined_parseNumber {uri : Uri} {found : Option StringView} (default : Byte) (h : Readable uri found) :
    Defined (parseNumber uri default found) := by
  cases found with
  | none => exact defined_pure _
  | some v =>
    refine defined_bind (defined_copy h) fun text => ?_
    split
    · exact defined_throw _
    · exact defined_pure _

theorem defined_parseText {uri : Uri} {found : Option StringView} (default : CString) (h : Readable uri found) :
    Defined (parseText uri default found) := by
  cases found with
  | none => exact defined_pure _
  | some v => exact defined_bind (defined_copy h) fun text => defined_pure _

/-- what a handler can look up in the values of a query -/
def ValuesReadable (uri : Uri) (values : Values) : Prop :=
  ∀ key : String, ampersand ∉ bytes key → Readable uri (find uri values key)

theorem valuesReadable {uri : Uri} {values : Values}
    (h : ∀ e ∈ values, ampersand ∉ uri.content e.1 → e.2.data + e.2.size ≤ uri.strlen) :
    ValuesReadable uri values := by
  intro key hkey v hv
  obtain ⟨e, he, rfl⟩ := Option.map_eq_some_iff.1 hv
  have hshows := List.find?_some he
  simp only [shows, decide_eq_true_eq] at hshows
  refine h e (List.mem_of_find?_eq_some he) ?_
  rw [hshows.2]
  exact hkey

theorem ApNetworkHandler.defined_parse (config : ApNetworkConfig) {uri : Uri} {values : Values}
    (h : ValuesReadable uri values) : Defined (parse config uri values) := by
  apply defined_parseUpdate
  simp only
  split_ifs
  · exact defined_throw _
  · refine defined_bind (defined_parseNumber _ (h "channel" (by decide))) fun parsedChannel => ?_
    refine defined_bind (defined_parseNumber _ (h "max_conn" (by decide))) fun parsedMaxConn => ?_
    exact defined_bind (defined_parseText _ (h "password" (by decide))) fun parsedPassword => defined_pure _

theorem StaNetworkHandler.defined_parse (config : StaSettings) {uri : Uri} {values : Values}
    (h : ValuesReadable uri values) : Defined (parse config uri values) := by
  apply defined_parseUpdate
  simp only
  split_ifs
  · exact defined_throw _
  · refine defined_bind (defined_parseNumber _ (h "retry" (by decide))) fun parsedMaxRetryCount => ?_
    refine defined_bind (defined_parseText _ (h "ssid" (by decide))) fun parsedSsid => ?_
    exact defined_bind (defined_parseText _ (h "password" (by decide))) fun parsedPassword => defined_pure _

theorem MdnsHandler.defined_parse {uri : Uri} {values : Values} (h : ValuesReadable uri values) :
    Defined (parse uri values) := by
  apply defined_parseUpdate
  have hhostname := h "hostname" (by decide)
  split
  · exact defined_throw _
  · next v hv =>
    rw [hv] at hhostname
    exact defined_bind (defined_copy hhostname) fun hostnameBuf => defined_pure _

/-- a query without values asks for no update -/
theorem parseUpdate_nil {α : Type} (uri : Uri) {settings : Parse α} (h : settings.run = some (.error refused)) :
    (parseUpdate uri [] settings).run = some (.error refused) := by
  have hfind : find uri [] "reset" = none := rfl
  simp only [parseUpdate, hfind]
  rw [ExceptT.run_bind, h]
  rfl

/-! ## Updates -/

theorem saveBlocks_notModified_iff (f : Faults) (s : Store) (bs : List (Block String (List Byte))) :
    (saveBlocks f s bs).1 = .notModified ↔ SavesNothing f bs := by
  rw [saveBlocks_code, SavesNothing]
  cases (writesOf bs).findSome? fun p => f.write p.1 with
  | some e => rfl
  | none => cases hany : bs.any Block.changed <;> simp

theorem noDataIsNotModified_iff (erased : StatusCode × Store) :
    (noDataIsNotModified erased).1 = .notModified ↔ erased.1 = .noData ∨ erased.1 = .notModified := by
  unfold noDataIsNotModified
  split_ifs with h
  · simp [h]
  · simp [h]

theorem eraseAll_notModified_iff (f : Faults) (s : Store) :
    (noDataIsNotModified (eraseAll f s)).1 = .notModified ↔ ErasesAllInVain f s := by
  rw [noDataIsNotModified_iff, ErasesAllInVain, ErasesNothing, eraseAll]
  cases f.eraseAll with
  | some e => rfl
  | none => by_cases h : s = ∅ <;> cases hanswer : f.emptyNoData <;> simp [h]

theorem erase_notModified_iff (f : Faults) (s : Store) (key : String) :
    (noDataIsNotModified (Storage.erase f s key)).1 = .notModified ↔ ErasesNothing (f.erase key) (key ∈ s) := by
  rw [noDataIsNotModified_iff, ErasesNothing, Storage.erase]
  cases f.erase key with
  | some e => rfl
  | none => by_cases h : key ∈ s <;> simp [h]

/-- a `configure` checks its arguments and saves what has changed -/
theorem configure_notModified_iff (accepted : Bool) (f : Faults) (s : Store) (bs : List (Block String (List Byte))) :
    (if accepted then saveBlocks f s bs else (.invalidArg, s)).1 = .notModified ↔
      accepted = true ∧ SavesNothing f bs := by
  cases accepted with
  | false => simp
  | true => simpa using saveBlocks_notModified_iff f s bs

theorem ApNetworkHandler.make_notModified_iff (config : ApNetworkConfig) (f : Faults) (s : Store)
    (u : Update ApSettings) : (make config f s u).1 = .notModified ↔ Unnecessary config f s u := by
  cases u with
  | reset => exact eraseAll_notModified_iff f s
  | configure settings => exact configure_notModified_iff _ f s _

theorem StaNetworkHandler.make_notModified_iff (config : StaSettings) (f : Faults) (s : Store)
    (u : Update StaSettings) : (make config f s u).1 = .notModified ↔ Unnecessary config f s u := by
  cases u with
  | reset => exact eraseAll_notModified_iff f s
  | configure settings => exact configure_notModified_iff _ f s _

theorem MdnsHandler.make_notModified_iff (config : CString) (f : Faults) (s : Store) (u : Update CString) :
    (make config f s u).1 = .notModified ↔ Unnecessary config f s u := by
  cases u with
  | reset => exact erase_notModified_iff f s _
  | configure hostname => exact configure_notModified_iff _ f s _

/-- the answer to an update that was made or was not necessary -/
theorem writeOk_spec (httpd : Httpd) :
    ∃ req, ResponseOps.writeText httpd .new "OK" = (if replied httpd then .ok else .error, req) ∧
      ((bytes "OK", true) ∈ writes req.calls ↔ replied httpd = true) := by
  obtain ⟨req, hres, -, hcalls⟩ := ResponseOps.write_spec httpd "text/plain; charset=utf-8" "OK"
  refine ⟨req, hres, ?_⟩
  rw [hcalls]
  unfold replied
  cases httpd 0 <;> cases httpd 1 <;> cases httpd 2 <;> simp [writes, HttpdCall.written]

/-- what becomes of an update: it has failed, or its answer is not written, or the device is rebooted -/
theorem finishUpdate_cases (env : Env) (updated : StatusCode × Store) :
    (updated.1.IsError ∧ finishUpdate env .new updated = ⟨updated.1, .new, updated.2, some updated.1, false⟩) ∨
    (¬ updated.1.IsError ∧ ∃ req,
      ResponseOps.writeText env.httpd .new "OK" = (if replied env.httpd then .ok else .error, req) ∧
      ((bytes "OK", true) ∈ writes req.calls ↔ replied env.httpd = true) ∧
      finishUpdate env .new updated =
        ⟨if replied env.httpd then env.reboot else .error, req, updated.2, some updated.1, replied env.httpd⟩) := by
  by_cases hcode : updated.1.IsError
  · refine Or.inl ⟨hcode, ?_⟩
    rw [finishUpdate]
    exact if_pos hcode
  · obtain ⟨req, hres, hwritten⟩ := writeOk_spec env.httpd
    refine Or.inr ⟨hcode, req, hres, hwritten, ?_⟩
    have hanswer : finishUpdate env .new updated =
        if (if replied env.httpd then StatusCode.ok else .error) ≠ .ok then
          ⟨if replied env.httpd then StatusCode.ok else .error, req, updated.2, some updated.1, false⟩
        else if (if replied env.httpd then StatusCode.ok else .error) = .notModified then
          ⟨.ok, req, updated.2, some updated.1, false⟩
        else ⟨env.reboot, req, updated.2, some updated.1, true⟩ := by
      rw [finishUpdate]
      simp only [hres]
      exact if_neg hcode
    rw [hanswer]
    cases replied env.httpd <;> rfl

/-- an update that has not failed reboots the device whenever its answer is written -/
theorem finishUpdate_rebootsOnChange_iff (env : Env) (updated : StatusCode × Store) :
    RebootsOnChange (finishUpdate env .new updated) ↔ (replied env.httpd = true → updated.1 ≠ .notModified) := by
  rcases finishUpdate_cases env updated with ⟨hcode, hres⟩ | ⟨hcode, req, -, hwritten, hres⟩
  · rw [hres]
    refine iff_of_true ⟨?_, fun _ => rfl⟩ fun _ => hcode.2
    intro hanswered
    simp [Request.new, writes] at hanswered
  · have hdone : updated.1 = .ok ∨ updated.1 = .notModified := by
      unfold StatusCode.IsError at hcode
      tauto
    rw [hres]
    cases hreplied : replied env.httpd with
    | false =>
      refine iff_of_true ⟨?_, fun _ => rfl⟩ fun h => absurd h Bool.false_ne_true
      intro hanswered
      exact absurd (hwritten.1 hanswered) (by simp [hreplied])
    | true =>
      rcases hdone with hok | hnot
      · exact iff_of_true ⟨fun _ => by simp [hok], fun h => absurd (congrArg some hok) h⟩ fun _ => by simp [hok]
      · refine iff_of_false ?_ (by simp [hnot])
        intro h
        have hnever := h.unmodified (by simp [hnot])
        exact absurd hnever (by simp)

theorem notUpdated_rebootsOnChange {s : Store} {result : StatusCode × Request} :
    RebootsOnChange (notUpdated s result) := ⟨fun _ => by simp [notUpdated], fun _ => rfl⟩

/-- a request with a defined parse is served, and reboots the device iff something was modified unless it asks for an
update that is not necessary -/
theorem update_rebootsOnChange_iff {α : Type} (env : Env) {parsed : Parse (Update α)}
    {make : Update α → StatusCode × Store} {unnecessary : Update α → Prop}
    (hmake : ∀ u, (make u).1 = .notModified ↔ unnecessary u) (s : Store) (hparsed : Defined parsed) :
    ∃ o, update env parsed make s .new = some o ∧
      (RebootsOnChange o ↔
        (replied env.httpd = true → ¬ ∃ u, parsed.run = some (.ok u) ∧ unnecessary u)) := by
  obtain ⟨r, hr⟩ := hparsed
  cases r with
  | error e =>
    refine ⟨notUpdated s (e.code, .new), by rw [update, hr]; rfl, ?_⟩
    refine iff_of_true notUpdated_rebootsOnChange ?_
    rintro - ⟨u, hu, -⟩
    rw [hr] at hu
    cases hu
  | ok u =>
    refine ⟨finishUpdate env .new (make u), by rw [update, hr]; rfl, ?_⟩
    rw [finishUpdate_rebootsOnChange_iff, hr]
    simp [hmake]

/-! ## Endpoints -/

/-- the endpoints that stand for the requests to a handler -/
def ConfigHandler.Serves (env : Env) : ConfigHandler → Endpoint → Prop
  | .ap _, .apGet _ => True
  | .ap _, .apUpdate _ reboot => reboot = env.reboot
  | .sta _, .staGet _ => True
  | .sta _, .staUpdate _ reboot => reboot = env.reboot
  | .mdns _, .mdns _ reboot => reboot = env.reboot
  | _, _ => False

/-- the end of an update is a reply followed by the reboot -/
theorem finishUpdate_reply (env : Env) (updated : StatusCode × Store) :
    ∃ result : Except Fault Unit,
      replyAndReboot env.httpd (result.map fun _ => "OK") env.reboot .new =
        ((finishUpdate env .new updated).code, (finishUpdate env .new updated).request) := by
  rcases finishUpdate_cases env updated with ⟨hcode, hres⟩ | ⟨-, req, hwrite, -, hres⟩
  · exact ⟨.error ⟨updated.1, hcode.1⟩, by rw [hres]; exact replyAndReboot_error _ _ _ _⟩
  · exact ⟨.ok (), by rw [hres]; exact replyAndReboot_text hwrite env.reboot⟩

theorem update_reply {α : Type} {env : Env} {parsed : Parse (Update α)} {make : Update α → StatusCode × Store}
    {s : Store} {o : Outcome} (h : update env parsed make s .new = some o) :
    ∃ result : Except Fault Unit,
      replyAndReboot env.httpd (result.map fun _ => "OK") env.reboot .new = (o.code, o.request) := by
  obtain ⟨r, -, rfl⟩ := Option.map_eq_some_iff.1 h
  cases r with
  | error e => exact ⟨.error e, replyAndReboot_error _ _ _ _⟩
  | ok u => exact finishUpdate_reply env (make u)

/-- a request is either served as one without values or as an update -/
theorem serve_cases {α : Type} {env : Env} {uri : Uri} {parse : Values → Parse (Update α)}
    {make : Update α → StatusCode × Store} {s : Store} {get o : Outcome}
    (h : ((parseQuery (uri.strlen + 1) uri).bind fun values =>
      if values = [] then some get else update env (parse values) make s .new) = some o) :
    o = get ∨ ∃ values, update env (parse values) make s .new = some o := by
  obtain ⟨values, -, hserve⟩ := Option.bind_eq_some_iff.1 h
  split_ifs at hserve
  · exact Or.inl (Option.some.inj hserve).symm
  · exact Or.inr ⟨values, hserve⟩

/-- what a handler does to the response is what one of its endpoints does -/
theorem serveHttp_endpoint {h : ConfigHandler} {env : Env} {s : Store} {uri : Uri} {o : Outcome} (fuel : ℕ)
    (hserve : h.serveHttp env s uri .new = some o) :
    ∃ e, h.Serves env e ∧ ((e.handler env.httpd fuel).bind fun serve => serve .new) = some (o.code, o.request) := by
  cases h with
  | ap config =>
    rcases serve_cases hserve with rfl | ⟨values, hupdate⟩
    · exact ⟨.apGet env.formatted, trivial, rfl⟩
    · obtain ⟨result, hreply⟩ := update_reply hupdate
      exact ⟨.apUpdate result env.reboot, rfl, congrArg some hreply⟩
  | sta config =>
    rcases serve_cases hserve with rfl | ⟨values, hupdate⟩
    · unfold StaNetworkHandler.handleGet
      split_ifs
      · exact ⟨.staGet (.error ⟨.invalidState, StatusCode.noConfusion⟩), trivial, rfl⟩
      · exact ⟨.staGet env.formatted, trivial, rfl⟩
    · obtain ⟨result, hreply⟩ := update_reply hupdate
      exact ⟨.staUpdate result env.reboot, rfl, congrArg some hreply⟩
  | mdns config =>
    rcases serve_cases hserve with rfl | ⟨values, hupdate⟩
    · exact ⟨.mdns (.error refused) env.reboot, rfl, congrArg some (replyAndReboot_error _ _ _ _)⟩
    · obtain ⟨result, hreply⟩ := update_reply hupdate
      exact ⟨.mdns result env.reboot, rfl, congrArg some hreply⟩

/-! ## Requests -/

theorem parse_nil_ap (config : ApNetworkConfig) (uri : Uri) :
    (ApNetworkHandler.parse config uri []).run = some (.error refused) := parseUpdate_nil uri rfl

theorem parse_nil_sta (config : StaSettings) (uri : Uri) :
    (StaNetworkHandler.parse config uri []).run = some (.error refused) := parseUpdate_nil uri rfl

theorem parse_nil_mdns (uri : Uri) : (MdnsHandler.parse uri []).run = some (.error refused) := parseUpdate_nil uri rfl

/-- a handler that serves a query without values in one way and all others as updates -/
theorem serve_rebootsOnChange_iff {α : Type} (env : Env) (uri : Uri) {parse : Values → Parse (Update α)}
    {make : Update α → StatusCode × Store} {unnecessary : Update α → Prop}
    (hmake : ∀ u, (make u).1 = .notModified ↔ unnecessary u) (s : Store)
    (hdefined : ∀ values, ValuesReadable uri values → Defined (parse values))
    (hnil : (parse []).run = some (.error refused)) {get : Outcome} (hget : RebootsOnChange get) :
    ∃ o, ((parseQuery (uri.strlen + 1) uri).bind fun values =>
        if values = [] then some get else update env (parse values) make s .new) = some o ∧
      (RebootsOnChange o ↔ (replied env.httpd = true → ¬ ∃ u, AsksFor uri parse u ∧ unnecessary u)) := by
  obtain ⟨values, hquery, hvalue⟩ := parseQuery_value uri
  have hasks (u : Update α) : AsksFor uri parse u ↔ (parse values).run = some (.ok u) := by
    simp [AsksFor, hquery]
  simp only [hquery, Option.bind_some, hasks]
  by_cases hempty : values = []
  · subst hempty
    refine ⟨get, if_pos rfl, iff_of_true hget ?_⟩
    rintro - ⟨u, hu, -⟩
    rw [hnil] at hu
    cases hu
  · rw [if_neg hempty]
    exact update_rebootsOnChange_iff env hmake s (hdefined values (valuesReadable hvalue))

/-- **Rebooting on change.** Every request to one of the handlers is served, over any configuration and storage, with
any storage and server calls failing. It reboots the device iff something was modified, unless it asks for an update
that is not necessary and the answer to it is written. -/
theorem reboots_on_change_iff (h : ConfigHandler) (env : Env) (s : Store) (uri : Uri) :
    ∃ o, h.serveHttp env s uri .new = some o ∧
      (RebootsOnChange o ↔ (replied env.httpd = true → ¬ h.AsksUnnecessary env.faults s uri)) := by
  cases h with
  | ap config =>
    exact serve_rebootsOnChange_iff env uri (ApNetworkHandler.make_notModified_iff config env.faults s) s
      (fun _ => ApNetworkHandler.defined_parse config) (parse_nil_ap config uri) notUpdated_rebootsOnChange
  | sta config =>
    have hget : RebootsOnChange (StaNetworkHandler.handleGet env config s .new) := by
      unfold StaNetworkHandler.handleGet
      split_ifs
      · exact notUpdated_rebootsOnChange
      · exact notUpdated_rebootsOnChange
    exact serve_rebootsOnChange_iff env uri (StaNetworkHandler.make_notModified_iff config env.faults s) s
      (fun _ => StaNetworkHandler.defined_parse config) (parse_nil_sta config uri) hget
  | mdns config =>
    exact serve_rebootsOnChange_iff env uri (MdnsHandler.make_notModified_iff config env.faults s) s
      (fun _ => MdnsHandler.defined_parse) (parse_nil_mdns uri) notUpdated_rebootsOnChange

/-- every request reboots the device iff something was modified -/
def AlwaysRebootsOnChange : Prop :=
  ∀ (h : ConfigHandler) (env : Env) (s : Store) (uri : Uri) (o : Outcome),
    h.serveHttp env s uri .new = some o → RebootsOnChange o

/-- a server and a storage without failures -/
def faultless : Env := ⟨fun _ => true, .none, .ok "", .ok⟩

def resetUri : Uri := .ofString "/api/v1/config/mdns?reset=1" (by decide)

/-- **A reset reboots for nothing.** No hostname is stored: the reset is reported as `NotModified`, `OK` is written and
the device is rebooted. -/
theorem reset_reboots : ¬ AlwaysRebootsOnChange ∧
    ∃ o, (ConfigHandler.mdns (.ofString "control")).serveHttp faultless ∅ resetUri .new = some o ∧
      (bytes "OK", true) ∈ writes o.request.calls ∧ o.config = some .notModified ∧ o.rebooted = true := by
  have hrun : ∃ o, (ConfigHandler.mdns (.ofString "control")).serveHttp faultless ∅ resetUri .new = some o ∧
      (bytes "OK", true) ∈ writes o.request.calls ∧ o.config = some .notModified ∧ o.rebooted = true := by
    refine ⟨_, (Option.some_get (by decide)).symm, ?_⟩
    decide
  refine ⟨fun h => ?_, hrun⟩
  obtain ⟨o, ho, -, hconfig, hrebooted⟩ := hrun
  have hnever := (h _ _ _ _ o ho).unmodified (by rw [hconfig]; decide)
  rw [hrebooted] at hnever
  cases hnever

end ControlComponents.Pipeline.Httpserver
