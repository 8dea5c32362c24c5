/-
The handlers of the sensor configuration (`ocs_pipeline/httpserver`): `AnalogConfigStoreHandler` and `DS18B20Handler`.

Both leave work to another task. The analog handler leaves it everything, from the parsing of the query on. The other one
parses the query and leaves it an operation on the sensors of a GPIO. What becomes of an operation is an input here.

- `defined_parse`: every request is parsed, as no value is read behind the end of the URI.
- `AnalogConfigStoreHandler.serveHttp_step`: a request makes one call on one of the configurations, or none.
- `serveHttp_endpoint`: what a handler does to the response is what its endpoint does.
-/
import ControlComponents.Lib.Numerals
import ControlComponents.Pipeline.ConfigHandlers
import ControlComponents.Sensor.AnalogConfigStore

namespace ControlComponents.Pipeline.Httpserver

open ControlComponents.Algo ControlComponents.Http ControlComponents.Lib ControlComponents.Lib.Numerals
open ControlComponents.Sensor ControlComponents.Storage

/-! ## Values of a query -/

/-- `std::from_chars` for an unsigned type: only its `ec` is looked at, not where the number ends -/
def parseUnsigned {w : ℕ} (uri : Uri) (default : BitVec w) : Option StringView → Parse (BitVec w)
  | none => pure default
  | some v => do
    let text ← copy uri v
    match Numerals.fromChars (.unsigned w) text with
    | none => throw refused
    | some (number, _) => pure (BitVec.ofInt w number)

/-- a value that has to be there -/
def require (uri : Uri) (values : Values) (key : String) : Parse StringView :=
  match find uri values key with
  | none => throw refused
  | some v => pure v

/-! ## Analog configurations -/

/-- the objects of a store over its storage -/
abbrev Objects (store : AnalogConfigStore) := AnalogConfig.Shared (Fin store.configs.length)

/-- what `configure` sets -/
structure AnalogSettings where
  min : BitVec 16
  max : BitVec 16
  sampleCount : Byte

/-- what the handler meets: the server, the storage, the text it makes of configurations, and what becomes of the function
that it schedules -/
structure AnalogEnv where
  httpd : Httpd
  faults : Faults
  formatted : Prepared
  future : Scheduled

/-- what the handler has done: its status, the response and the objects -/
structure AnalogOutcome (store : AnalogConfigStore) where
  code : StatusCode
  request : Request
  objects : Objects store

namespace AnalogConfigStoreHandler

variable {store : AnalogConfigStore}

/-- the object with this id -/
def get (store : AnalogConfigStore) (id : CString) : Option (Fin store.configs.length) :=
  (List.finRange store.configs.length).find? fun i => decide (id = .ofString (store.configs.get i).id)

/-- `none` where the configuration is only read -/
def parse (config : AnalogConfig) (uri : Uri) (values : Values) : Parse (Update (Option AnalogSettings)) :=
  parseUpdate uri values do
    let min := find uri values "min"
    let max := find uri values "max"
    let oversampling := find uri values "oversampling"
    if min = none ∧ max = none ∧ oversampling = none then pure none
    else
      let parsedMin ← parseUnsigned uri config.min min
      let parsedMax ← parseUnsigned uri config.max max
      let parsedSampleCount ← parseUnsigned uri config.getSampleCount oversampling
      pure (some ⟨parsedMin, parsedMax, parsedSampleCount⟩)

/-- the status of a call on one of the objects -/
def callCode (w : Objects store) : AnalogConfig.Call (Fin store.configs.length) → StatusCode
  | .configure i f min max sampleCount => ((w.config i).configure f w.store min max sampleCount).1
  | .reset i f => ((w.config i).reset f w.store).1

/-- the call and the answer to it -/
def update (env : AnalogEnv) (w : Objects store) (req : Request) (call : AnalogConfig.Call (Fin store.configs.length)) :
    AnalogOutcome store :=
  let code := callCode w call
  if code ≠ .ok ∧ code ≠ .notModified then ⟨code, req, w.step call⟩
  else
    let (code, req) := ResponseOps.writeText env.httpd req "OK"
    ⟨code, req, w.step call⟩

def handleAll (env : AnalogEnv) (req : Request) : StatusCode × Request :=
  reply (ResponseOps.writeJson env.httpd) env.formatted req

def handleSingleGet (env : AnalogEnv) (config : AnalogConfig) (req : Request) : StatusCode × Request :=
  if !config.valid then (.invalidState, req) else reply (ResponseOps.writeJson env.httpd) env.formatted req

/-- what is done with the object that was found -/
def perform (env : AnalogEnv) (w : Objects store) (i : Fin store.configs.length) (req : Request) :
    Except Fault (Update (Option AnalogSettings)) → AnalogOutcome store
  | .error e => ⟨e.code, req, w⟩
  | .ok .reset => update env w req (.reset i env.faults)
  | .ok (.configure none) =>
    let (code, req) := handleSingleGet env (w.config i) req
    ⟨code, req, w⟩
  | .ok (.configure (some settings)) =>
    update env w req (.configure i env.faults settings.min settings.max settings.sampleCount)

def handleSingle (env : AnalogEnv) (w : Objects store) (uri : Uri) (values : Values) (req : Request) :
    Option (AnalogOutcome store) :=
  match find uri values "id" with
  | none => some ⟨.invalidArg, req, w⟩
  | some id => do
    let idBuf ← copy uri id
    match get store (.ofBuffer idBuf) with
    | none => some ⟨.invalidArg, req, w⟩
    | some i => (parse (w.config i) uri values).run.map (perform env w i req)

/-- the function that is scheduled -/
def handle (env : AnalogEnv) (w : Objects store) (uri : Uri) (req : Request) : Option (AnalogOutcome store) := do
  let values ← parseQuery (uri.strlen + 1) uri
  if values = [] then
    let (code, req) := handleAll env req
    some ⟨code, req, w⟩
  else handleSingle env w uri values req

/-- the objects are those that the function leaves, also if it runs on when the wait has ended -/
def serveHttp (env : AnalogEnv) (w : Objects store) (uri : Uri) (req : Request) : Option (AnalogOutcome store) :=
  match env.future with
  | .refused => some ⟨.invalidState, req, w⟩
  | .finished => handle env w uri req
  | .timedOut waited returning =>
    (handle env w uri req).map fun o =>
      ⟨.timeout, { o.request with calls := o.request.calls.take (req.calls.length + (waited + returning)) }, o.objects⟩

end AnalogConfigStoreHandler

/-! ## DS18B20 sensors -/

/-- an operation on the sensors of a GPIO; it reads the values of the query when it runs -/
inductive Ds18b20Operation where
  | scan
  | readConfiguration (sensorId : StringView)
  | writeConfiguration (sensorId serialNumber resolution : StringView)
  | eraseConfiguration (sensorId : StringView)
deriving DecidableEq

/-- what becomes of an operation by the end of the wait; when it has finished, its status or the text made of it -/
inductive Awaited where
  | refused
  | timedOut
  | finished (result : Prepared)

/-- what the handler meets: the server, whether the JSON object is allocated, and what the store of the sensors makes of an
operation on a GPIO -/
structure Ds18b20Env (σ : Type) where
  httpd : Httpd
  allocated : Bool
  schedule : ℤ → Ds18b20Operation → σ → Awaited × σ

/-- what the handler has done: its status, the response, and the sensors with their storage -/
structure Ds18b20Outcome (σ : Type) where
  code : StatusCode
  request : Request
  sensors : σ

namespace DS18B20Handler

variable {σ : Type}

/-- `std::from_chars` for an `int` -/
def parseGpio (uri : Uri) (values : Values) : Parse ℤ :=
  match find uri values "gpio" with
  | none => throw refused
  | some gpio => do
    let text ← copy uri gpio
    match Numerals.fromChars .int text with
    | none => throw refused
    | some (number, _) => pure number

def parseScan (uri : Uri) (values : Values) : Parse (ℤ × Ds18b20Operation) := do
  let gpio ← parseGpio uri values
  pure (gpio, .scan)

def parseConfiguration (uri : Uri) (values : Values) (func : StringView → Ds18b20Operation) :
    Parse (ℤ × Ds18b20Operation) := do
  let gpio ← parseGpio uri values
  let sensorId ← require uri values "sensor_id"
  pure (gpio, func sensorId)

def parseWriteConfiguration (uri : Uri) (values : Values) : Parse (ℤ × Ds18b20Operation) := do
  let gpio ← parseGpio uri values
  let sensorId ← require uri values "sensor_id"
  let serialNumber ← require uri values "serial_number"
  let resolution ← require uri values "resolution"
  pure (gpio, .writeConfiguration sensorId serialNumber resolution)

/-- the operation that was parsed is scheduled and waited for -/
def perform (env : Ds18b20Env σ) (s : σ) (req : Request) : Except Fault (ℤ × Ds18b20Operation) → Ds18b20Outcome σ
  | .error e => ⟨e.code, req, s⟩
  | .ok (gpio, operation) =>
    if !env.allocated then ⟨.noMem, req, s⟩
    else
      match env.schedule gpio operation s with
      | (.refused, s) => ⟨.invalidState, req, s⟩
      | (.timedOut, s) => ⟨.timeout, req, s⟩
      | (.finished result, s) =>
        let (code, req) := reply (ResponseOps.writeJson env.httpd) result req
        ⟨code, req, s⟩

/-- the path tells what is parsed from the query -/
def parse (uri : Uri) (values : Values) : Parse (ℤ × Ds18b20Operation) :=
  let path := parsePath uri
  if shows uri path "/api/v1/sensor/ds18b20/scan" then parseScan uri values
  else if shows uri path "/api/v1/sensor/ds18b20/read_configuration" then
    parseConfiguration uri values .readConfiguration
  else if shows uri path "/api/v1/sensor/ds18b20/write_configuration" then parseWriteConfiguration uri values
  else if shows uri path "/api/v1/sensor/ds18b20/erase_configuration" then
    parseConfiguration uri values .eraseConfiguration
  else throw refused

def serveHttp (env : Ds18b20Env σ) (s : σ) (uri : Uri) (req : Request) : Option (Ds18b20Outcome σ) := do
  let values ← parseQuery (uri.strlen + 1) uri
  (parse uri values).run.map (perform env s req)

end DS18B20Handler

/-! ## Parsing -/

section

variable {uri : Uri} {values : Values}

theorem defined_parseUnsigned {w : ℕ} {found : Option StringView} (default : BitVec w) (h : Readable uri found) :
    Defined (parseUnsigned uri default found) := by
  cases found with
  | none => exact defined_pure _
  | some v =>
    refine defined_bind (defined_copy h) fun text => ?_
    split
    · exact defined_throw _
    · exact defined_pure _

theorem defined_require (uri : Uri) (values : Values) (key : String) : Defined (require uri values key) := by
  unfold require
  split
  · exact defined_throw _
  · exact defined_pure _

theorem AnalogConfigStoreHandler.defined_parse (config : AnalogConfig) (h : ValuesReadable uri values) :
    Defined (parse config uri values) := by
  apply defined_parseUpdate
  simp only
  split_ifs
  · exact defined_pure _
  · refine defined_bind (defined_parseUnsigned _ (h "min" (by decide))) fun parsedMin => ?_
    refine defined_bind (defined_parseUnsigned _ (h "max" (by decide))) fun parsedMax => ?_
    exact defined_bind (defined_parseUnsigned _ (h "oversampling" (by decide))) fun parsedSampleCount => defined_pure _

theorem DS18B20Handler.defined_parseGpio (h : ValuesReadable uri values) : Defined (parseGpio uri values) := by
  have hgpio := h "gpio" (by decide)
  unfold parseGpio
  split
  · exact defined_throw _
  · next gpio hfind =>
    rw [hfind] at hgpio
    refine defined_bind (defined_copy hgpio) fun text => ?_
    split
    · exact defined_throw _
    · exact defined_pure _

theorem DS18B20Handler.defined_parseConfiguration (h : ValuesReadable uri values)
    (func : StringView → Ds18b20Operation) : Defined (parseConfiguration uri values func) := by
  refine defined_bind (defined_parseGpio h) fun gpio => ?_
  exact defined_bind (defined_require uri values "sensor_id") fun sensorId => defined_pure _

theorem DS18B20Handler.defined_parse (h : ValuesReadable uri values) : Defined (parse uri values) := by
  unfold parse
  simp only
  split_ifs
  · exact defined_bind (defined_parseGpio h) fun gpio => defined_pure _
  · exact defined_parseConfiguration h _
  · refine defined_bind (defined_parseGpio h) fun gpio => ?_
    refine defined_bind (defined_require uri values "sensor_id") fun sensorId => ?_
    refine defined_bind (defined_require uri values "serial_number") fun serialNumber => ?_
    exact defined_bind (defined_require uri values "resolution") fun resolution => defined_pure _
  · exact defined_parseConfiguration h _
  · exact defined_throw _

end

/-! ## Requests -/

namespace AnalogConfigStoreHandler

variable {store : AnalogConfigStore} {env : AnalogEnv} {w : Objects store} {uri : Uri} {o : AnalogOutcome store}

/-- the object whose id is given -/
def named (store : AnalogConfigStore) (uri : Uri) (values : Values) : Option (Fin store.configs.length) :=
  (find uri values "id").bind fun id => get store (.ofBuffer (uri.content id))

/-- everything the function does: it reads all objects, or finds none for the id, or goes on with the one it finds -/
theorem handle_cases (env : AnalogEnv) (w : Objects store) (uri : Uri) (req : Request) :
    ∃ values, parseQuery (uri.strlen + 1) uri = some values ∧ ValuesReadable uri values ∧
      ((values = [] ∧ handle env w uri req = some ⟨(handleAll env req).1, (handleAll env req).2, w⟩) ∨
        (named store uri values = none ∧ handle env w uri req = some ⟨.invalidArg, req, w⟩) ∨
        ∃ i r, named store uri values = some i ∧ (parse (w.config i) uri values).run = some r ∧
          handle env w uri req = some (perform env w i req r)) := by
  obtain ⟨values, hquery, hvalue⟩ := parseQuery_value uri
  have hread := valuesReadable hvalue
  refine ⟨values, hquery, hread, ?_⟩
  by_cases hempty : values = []
  · exact .inl ⟨hempty, by simp only [handle, hquery, Option.bind_eq_bind, Option.bind_some, if_pos hempty]⟩
  · have hsingle : handle env w uri req = handleSingle env w uri values req := by
      simp only [handle, hquery, Option.bind_eq_bind, Option.bind_some, if_neg hempty]
    rw [hsingle, named]
    cases hid : find uri values "id" with
    | none => exact .inr (.inl ⟨rfl, by simp only [handleSingle, hid]⟩)
    | some id =>
      have hcopy : copy uri id = some (uri.content id) := if_pos (hread "id" (by decide) id hid)
      cases hget : get store (.ofBuffer (uri.content id)) with
      | none =>
        refine .inr (.inl ⟨hget, ?_⟩)
        simp only [handleSingle, hid, hcopy, Option.bind_eq_bind, Option.bind_some, hget]
      | some i =>
        obtain ⟨r, hr⟩ := defined_parse (w.config i) hread
        refine .inr (.inr ⟨i, r, hget, hr, ?_⟩)
        simp only [handleSingle, hid, hcopy, Option.bind_eq_bind, Option.bind_some, hget, hr, Option.map_some]

/-- what becomes of a call: it has failed, or its answer is written -/
theorem update_eq (env : AnalogEnv) (w : Objects store) (req : Request)
    (call : AnalogConfig.Call (Fin store.configs.length)) :
    (callCode w call).IsError ∧ update env w req call = ⟨callCode w call, req, w.step call⟩ ∨
      ¬ (callCode w call).IsError ∧ update env w req call =
        ⟨(ResponseOps.writeText env.httpd req "OK").1, (ResponseOps.writeText env.httpd req "OK").2, w.step call⟩ := by
  by_cases hcode : (callCode w call).IsError
  · exact .inl ⟨hcode, if_pos hcode⟩
  · exact .inr ⟨hcode, if_neg hcode⟩

theorem update_objects (call : AnalogConfig.Call (Fin store.configs.length)) (req : Request) :
    (update env w req call).objects = w.step call := by
  rcases update_eq env w req call with ⟨-, h⟩ | ⟨-, h⟩
  · rw [h]
  · rw [h]

theorem perform_step (i : Fin store.configs.length) (req : Request)
    (r : Except Fault (Update (Option AnalogSettings))) :
    (perform env w i req r).objects = w ∨ ∃ call, (perform env w i req r).objects = w.step call := by
  match r with
  | .error _ => exact .inl rfl
  | .ok .reset => exact .inr ⟨_, update_objects _ req⟩
  | .ok (.configure none) => exact .inl rfl
  | .ok (.configure (some settings)) => exact .inr ⟨_, update_objects _ req⟩

/-- the function makes one call on one of the objects, or none -/
theorem handle_step {req : Request} (h : handle env w uri req = some o) :
    o.objects = w ∨ ∃ call, o.objects = w.step call := by
  obtain ⟨values, -, -, ⟨-, hrun⟩ | ⟨-, hrun⟩ | ⟨i, r, -, -, hrun⟩⟩ := handle_cases env w uri req
  · cases hrun.symm.trans h
    exact .inl rfl
  · cases hrun.symm.trans h
    exact .inl rfl
  · cases hrun.symm.trans h
    exact perform_step i req r

/-- so does a request -/
theorem serveHttp_step {req : Request} (h : serveHttp env w uri req = some o) :
    o.objects = w ∨ ∃ call, o.objects = w.step call := by
  unfold serveHttp at h
  split at h
  · cases h
    exact .inl rfl
  · exact handle_step h
  · obtain ⟨after, hafter, rfl⟩ := Option.map_eq_some_iff.1 h
    have hstep := handle_step hafter
    exact hstep

/-- a reply to a request that asks for something else than an update -/
theorem perform_endpoint (i : Fin store.configs.length) (req : Request)
    (r : Except Fault (Update (Option AnalogSettings))) :
    ∃ updated prepared, Pipeline.AnalogConfigStoreHandler.handle env.httpd updated prepared req =
      ((perform env w i req r).code, (perform env w i req r).request) := by
  have hcall (call : AnalogConfig.Call (Fin store.configs.length)) :
      ∃ updated prepared, Pipeline.AnalogConfigStoreHandler.handle env.httpd updated prepared req =
        ((update env w req call).code, (update env w req call).request) := by
    rcases update_eq env w req call with ⟨hcode, h⟩ | ⟨-, h⟩
    · exact ⟨true, .error ⟨callCode w call, hcode.1⟩, by rw [h]; rfl⟩
    · exact ⟨true, .ok "", by rw [h]; rfl⟩
  match r with
  | .error e => exact ⟨true, .error e, rfl⟩
  | .ok .reset => exact hcall _
  | .ok (.configure none) =>
    simp only [perform, handleSingleGet]
    split_ifs
    · exact ⟨false, .error ⟨.invalidState, StatusCode.noConfusion⟩, rfl⟩
    · exact ⟨false, env.formatted, rfl⟩
  | .ok (.configure (some settings)) => exact hcall _

theorem handle_endpoint {req : Request} (h : handle env w uri req = some o) :
    ∃ updated prepared,
      Pipeline.AnalogConfigStoreHandler.handle env.httpd updated prepared req = (o.code, o.request) := by
  obtain ⟨values, -, -, ⟨-, hrun⟩ | ⟨-, hrun⟩ | ⟨i, r, -, -, hrun⟩⟩ := handle_cases env w uri req
  · cases hrun.symm.trans h
    exact ⟨false, env.formatted, rfl⟩
  · cases hrun.symm.trans h
    exact ⟨true, .error refused, rfl⟩
  · cases hrun.symm.trans h
    exact perform_endpoint i req r

/-- what the handler does to the response is what its endpoint does -/
theorem serveHttp_endpoint (h : serveHttp env w uri .new = some o) (fuel : ℕ) :
    ∃ updated prepared,
      ((Endpoint.analogConfig env.future updated prepared).handler env.httpd fuel).bind (fun serve => serve .new) =
        some (o.code, o.request) := by
  unfold serveHttp at h
  cases hfuture : env.future with
  | refused =>
    rw [hfuture] at h
    cases h
    exact ⟨true, .error refused, rfl⟩
  | finished =>
    rw [hfuture] at h
    obtain ⟨updated, prepared, hhandle⟩ := handle_endpoint h
    exact ⟨updated, prepared, congrArg some hhandle⟩
  | timedOut waited returning =>
    rw [hfuture] at h
    obtain ⟨after, hafter, rfl⟩ := Option.map_eq_some_iff.1 h
    obtain ⟨updated, prepared, hhandle⟩ := handle_endpoint hafter
    refine ⟨updated, prepared, ?_⟩
    simp only [Endpoint.handler, Option.bind_some, Pipeline.AnalogConfigStoreHandler.serveHttp, hhandle]

end AnalogConfigStoreHandler

namespace DS18B20Handler

variable {σ : Type} {env : Ds18b20Env σ} {s : σ} {uri : Uri} {o : Ds18b20Outcome σ}

/-- every request is parsed, and what it asks for is done -/
theorem serveHttp_eq (env : Ds18b20Env σ) (s : σ) (uri : Uri) (req : Request) :
    ∃ values r, parseQuery (uri.strlen + 1) uri = some values ∧ ValuesReadable uri values ∧
      (parse uri values).run = some r ∧ serveHttp env s uri req = some (perform env s req r) := by
  obtain ⟨values, hquery, hvalue⟩ := parseQuery_value uri
  obtain ⟨r, hr⟩ := defined_parse (valuesReadable hvalue)
  refine ⟨values, r, hquery, valuesReadable hvalue, hr, ?_⟩
  simp only [serveHttp, hquery, Option.bind_eq_bind, Option.bind_some, hr, Option.map_some]

/-- what the handler does to the response is what its endpoint does -/
theorem serveHttp_endpoint (h : serveHttp env s uri .new = some o) (fuel : ℕ) :
    ∃ operation, ((Endpoint.ds18b20 operation).handler env.httpd fuel).bind (fun serve => serve .new) =
      some (o.code, o.request) := by
  obtain ⟨values, r, -, -, -, hserve⟩ := serveHttp_eq env s uri .new
  cases hserve.symm.trans h
  match r with
  | .error e => exact ⟨.error e, rfl⟩
  | .ok (gpio, operation) =>
    simp only [perform]
    split_ifs
    · exact ⟨.error ⟨.noMem, StatusCode.noConfusion⟩, rfl⟩
    · split
      · exact ⟨.error ⟨.invalidState, StatusCode.noConfusion⟩, rfl⟩
      · exact ⟨.error ⟨.timeout, StatusCode.noConfusion⟩, rfl⟩
      · next result _ _ => exact ⟨result, rfl⟩

end DS18B20Handler

end ControlComponents.Pipeline.Httpserver
