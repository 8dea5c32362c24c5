/-
The numeric parameters `min`, `max`, `oversampling`, `channel`, `max_conn`, `retry` and `gpio` of the configuration requests
(`ocs_pipeline/httpserver`).

A value such as `5abc` is taken for 5. `TimeOps::parse_time`, which reads a number with `strtoll`, looks at its end and
refuses it.

- `serveHttp_decided`: each handler serves every request, and goes on with the numbers that the values begin with.
- `numbers_validated_iff`: when the parameters of a request are validated as a whole. `number_cut` is a request for which
  they are not.
-/
import ControlComponents.Pipeline.NumericRequests

namespace ControlComponents.Pipeline.Httpserver

open ControlComponents.Algo ControlComponents.Http ControlComponents.Lib ControlComponents.Lib.Numerals
open ControlComponents.Net ControlComponents.Sensor ControlComponents.Storage

/-! ## Requests -/

/-- what `configure` is to be called with -/
def askedSettings {α : Type} (parsed : Parse (Update α)) : Option α :=
  match parsed.run with
  | some (.ok (.configure settings)) => some settings
  | _ => none

/-- the erase reports `InvalidArg`, or it finds nothing and the reboot task reports `InvalidArg` -/
def ResetRefused (env : Env) (s : Store) : Prop :=
  env.faults.eraseAll = some refused ∨
    ErasesNothing env.faults.eraseAll (s ≠ ∅) ∧ replied env.httpd = true ∧ env.reboot = .invalidArg

/-- a request to a handler of the network configuration; `configure` and `reset` do not change the object in memory -/
def updateRequest {α : Type} (keys : List (NumericKey α)) (env : Env) (s : Store) (uri : Uri) (values : Values)
    (parsed : Parse (Update α)) (o : Outcome) : NumericRequest α where
  given := given keys uri values
  complete := find uri values "reset" = none
  asked := askedSettings parsed
  erases := AsksReset uri values ∧ ¬ ResetRefused env s
  answered := True
  code := o.code
  unchanged := o.store = s

namespace ApNetworkHandler

def channel : NumericKey ApSettings := ⟨"channel", .unsigned 8, fun a => a.channel.toNat⟩
def maxConn : NumericKey ApSettings := ⟨"max_conn", .unsigned 8, fun a => a.maxConn.toNat⟩
def numericKeys : List (NumericKey ApSettings) := [channel, maxConn]

def numericRequest (env : Env) (config : ApNetworkConfig) (s : Store) (uri : Uri) (values : Values) (o : Outcome) :
    NumericRequest ApSettings := updateRequest numericKeys env s uri values (parse config uri values) o

end ApNetworkHandler

namespace StaNetworkHandler

def retry : NumericKey StaSettings := ⟨"retry", .unsigned 8, fun a => a.maxRetryCount.toNat⟩
def numericKeys : List (NumericKey StaSettings) := [retry]

def numericRequest (env : Env) (config : StaSettings) (s : Store) (uri : Uri) (values : Values) (o : Outcome) :
    NumericRequest StaSettings := updateRequest numericKeys env s uri values (parse config uri values) o

end StaNetworkHandler

namespace AnalogConfigStoreHandler

def min : NumericKey AnalogSettings := ⟨"min", .unsigned 16, fun a => a.min.toNat⟩
def max : NumericKey AnalogSettings := ⟨"max", .unsigned 16, fun a => a.max.toNat⟩
def oversampling : NumericKey AnalogSettings := ⟨"oversampling", .unsigned 8, fun a => a.sampleCount.toNat⟩
def numericKeys : List (NumericKey AnalogSettings) := [min, max, oversampling]

/-- what the query asks of the object whose id is given -/
def parsedFor {store : AnalogConfigStore} (w : Objects store) (uri : Uri) (values : Values) : Option AnalogSettings :=
  (named store uri values).bind fun i => (askedSettings (parse (w.config i) uri values)).join

/-- the erase reports `InvalidArg`, and the object holds the defaults -/
def ResetRefused (env : AnalogEnv) (config : AnalogConfig) : Prop :=
  env.faults.eraseAll = some refused ∧ config.min = config.params.defMin ∧ config.max = config.params.defMax ∧
    config.oversamplingMode = config.params.defOversamplingMode

def numericRequest {store : AnalogConfigStore} (env : AnalogEnv) (w : Objects store) (uri : Uri) (values : Values)
    (o : AnalogOutcome store) : NumericRequest AnalogSettings where
  given := given numericKeys uri values
  complete := named store uri values ≠ none ∧ find uri values "reset" = none
  asked := parsedFor w uri values
  erases := ∃ i, named store uri values = some i ∧ AsksReset uri values ∧ ¬ ResetRefused env (w.config i)
  answered := env.future = .finished
  code := o.code
  unchanged := o.objects = w

end AnalogConfigStoreHandler

namespace DS18B20Handler

def gpio : NumericKey (ℤ × Ds18b20Operation) := ⟨"gpio", .int, fun a => a.1⟩
def numericKeys : List (NumericKey (ℤ × Ds18b20Operation)) := [gpio]

/-- the other keys that the path asks for -/
def otherKeys (uri : Uri) : Option (List String) :=
  if shows uri (parsePath uri) "/api/v1/sensor/ds18b20/scan" then some []
  else if shows uri (parsePath uri) "/api/v1/sensor/ds18b20/read_configuration" then some ["sensor_id"]
  else if shows uri (parsePath uri) "/api/v1/sensor/ds18b20/write_configuration" then
    some ["sensor_id", "serial_number", "resolution"]
  else if shows uri (parsePath uri) "/api/v1/sensor/ds18b20/erase_configuration" then some ["sensor_id"]
  else none

def numericRequest {σ : Type} (s : σ) (uri : Uri) (values : Values) (o : Ds18b20Outcome σ) :
    NumericRequest (ℤ × Ds18b20Operation) where
  given := given numericKeys uri values
  complete := ∃ keys, otherKeys uri = some keys ∧ ∀ key ∈ keys, find uri values key ≠ none
  asked := (parse uri values).run.bind Except.toOption
  erases := False
  answered := True
  code := o.code
  unchanged := o.sensors = s

end DS18B20Handler

/-! ## Parsing -/

section

variable {uri : Uri} {values : Values}

theorem ApNetworkHandler.parse_settles (config : ApNetworkConfig) (hread : ValuesReadable uri values)
    (hgiven : given numericKeys uri values ≠ []) :
    ∃ settings, parse config uri values = parseUpdate uri values settings ∧
      Settles (given numericKeys uri values) id (fun _ => True) settings := by
  refine ⟨_, rfl, ?_⟩
  have hsome : ¬ (find uri values "password" = none ∧ find uri values "channel" = none ∧
      find uri values "max_conn" = none) := by
    rintro ⟨-, hchannel, hmaxConn⟩
    exact hgiven (by simp [given, numericKeys, channel, maxConn, hchannel, hmaxConn])
  simp only [if_neg hsome, parseNumber_eq]
  refine settles_number channel rfl (hread "channel" (by decide)) _ fun channel => ?_
  refine settles_number maxConn rfl (hread "max_conn" (by decide)) _ fun maxConn => ?_
  exact settles_text (hread "password" (by decide)) _ fun password => settles_pure ⟨⟨trivial, rfl⟩, rfl⟩

theorem StaNetworkHandler.parse_settles (config : StaSettings) (hread : ValuesReadable uri values)
    (hgiven : given numericKeys uri values ≠ []) :
    ∃ settings, parse config uri values = parseUpdate uri values settings ∧
      Settles (given numericKeys uri values) id (fun _ => True) settings := by
  refine ⟨_, rfl, ?_⟩
  have hsome : ¬ (find uri values "retry" = none ∧ find uri values "ssid" = none ∧
      find uri values "password" = none) := by
    rintro ⟨hretry, -, -⟩
    exact hgiven (by simp [given, numericKeys, retry, hretry])
  simp only [if_neg hsome, parseNumber_eq]
  refine settles_number retry rfl (hread "retry" (by decide)) _ fun retry => ?_
  refine settles_text (hread "ssid" (by decide)) _ fun ssid => ?_
  exact settles_text (hread "password" (by decide)) _ fun password => settles_pure ⟨trivial, rfl⟩

theorem AnalogConfigStoreHandler.parse_settles (config : AnalogConfig) (hread : ValuesReadable uri values)
    (hgiven : given numericKeys uri values ≠ []) :
    ∃ settings, parse config uri values = parseUpdate uri values settings ∧
      Settles (given numericKeys uri values) some (fun _ => True) settings := by
  refine ⟨_, rfl, ?_⟩
  have hsome : ¬ (find uri values "min" = none ∧ find uri values "max" = none ∧
      find uri values "oversampling" = none) := by
    rintro ⟨hmin, hmax, hoversampling⟩
    exact hgiven (by simp [given, numericKeys, min, max, oversampling, hmin, hmax, hoversampling])
  simp only [if_neg hsome]
  refine settles_number min rfl (hread "min" (by decide)) _ fun min => ?_
  refine settles_number max rfl (hread "max" (by decide)) _ fun max => ?_
  refine settles_number oversampling rfl (hread "oversampling" (by decide)) _ fun sampleCount => ?_
  exact settles_pure ⟨⟨⟨trivial, rfl⟩, rfl⟩, rfl⟩

end

/-! ## Network configuration -/

theorem eq_refused_iff {e : Fault} : e = refused ↔ e.code = .invalidArg := by
  obtain ⟨code, failed⟩ := e
  refine ⟨?_, ?_⟩
  · rintro ⟨⟩
    rfl
  · rintro ⟨⟩
    rfl

/-- what a reset leaves: the storage as before if it fails, and if it does not, then iff it finds nothing -/
theorem reset_cases (f : Faults) (s : Store) :
    ((noDataIsNotModified (eraseAll f s)).1.IsError ∧ (noDataIsNotModified (eraseAll f s)).2 = s ∧
      ¬ ErasesNothing f.eraseAll (s ≠ ∅) ∧
      ((noDataIsNotModified (eraseAll f s)).1 = .invalidArg ↔ f.eraseAll = some refused)) ∨
    (¬ (noDataIsNotModified (eraseAll f s)).1.IsError ∧ f.eraseAll ≠ some refused ∧
      ((noDataIsNotModified (eraseAll f s)).2 = s ↔ ErasesNothing f.eraseAll (s ≠ ∅))) := by
  have hstore : (noDataIsNotModified (eraseAll f s)).2 = (eraseAll f s).2 := rfl
  rw [hstore]
  cases herase : f.eraseAll with
  | some e =>
    have herased : eraseAll f s = (e.code, s) := by
      rw [eraseAll, herase]
    rw [herased]
    by_cases hnothing : e.code = .noData ∨ e.code = .notModified
    · refine .inr ⟨?_, ?_, iff_of_true rfl hnothing⟩
      · rcases hnothing with h | h <;> simp [noDataIsNotModified, StatusCode.IsError, h]
      · rintro ⟨⟩
        revert hnothing
        decide
    · have hcode : (noDataIsNotModified (e.code, s)).1 = e.code := if_neg fun h => hnothing (.inl h)
      rw [hcode]
      refine .inl ⟨⟨e.failed, fun h => hnothing (.inr h)⟩, rfl, hnothing, ?_⟩
      rw [Option.some.injEq, eq_refused_iff]
  | none =>
    have hok : ¬ (noDataIsNotModified (eraseAll f s)).1.IsError := by
      simp only [eraseAll, herase, noDataIsNotModified]
      split_ifs <;> simp_all [StatusCode.IsError]
    refine .inr ⟨hok, (Option.some_ne_none refused).symm, ?_⟩
    rw [eraseAll_store herase, ErasesNothing, Option.elim_none, not_not]
    exact eq_comm

/-- a reset is reported as `InvalidArg` with nothing changed -/
theorem resetRefused_iff (env : Env) (s : Store) :
    ((finishUpdate env .new (noDataIsNotModified (eraseAll env.faults s))).code = .invalidArg ∧
      (finishUpdate env .new (noDataIsNotModified (eraseAll env.faults s))).store = s) ↔ ResetRefused env s := by
  rcases finishUpdate_cases env (noDataIsNotModified (eraseAll env.faults s)) with
    ⟨hcode, hres⟩ | ⟨hcode, req, -, -, hres⟩
  · rcases reset_cases env.faults s with ⟨-, hstore, hnothing, hrefused⟩ | ⟨hnot, -, -⟩
    · rw [hres, ResetRefused, ← hrefused]
      simp [hstore, hnothing]
    · exact absurd hcode hnot
  · rcases reset_cases env.faults s with ⟨herror, -, -, -⟩ | ⟨-, hrefused, hstore⟩
    · exact absurd herror hcode
    · rw [hres, ResetRefused]
      cases replied env.httpd with
      | true => simp [hstore, hrefused, and_comm]
      | false => simp [hrefused]

/-- a request to one of the handlers of the network configuration -/
theorem decided_update {α : Type} {keys : List (NumericKey α)} {env : Env} {s : Store} {uri : Uri} {values : Values}
    {settings : Parse α} {make : Update α → StatusCode × Store}
    (hreset : make .reset = noDataIsNotModified (eraseAll env.faults s))
    (hsettles : Settles (given keys uri values) id (fun _ => True) settings) {o : Outcome}
    (ho : update env (parseUpdate uri values settings) make s .new = some o) :
    (updateRequest keys env s uri values (parseUpdate uri values settings) o).Decided := by
  rcases parseUpdate_numbers uri values hsettles with
    ⟨hasks, hfind, hrun⟩ | ⟨hasks, hrun, hunread⟩ | ⟨hfind, hasks, a, hrun, hread⟩
  · rw [update, hrun] at ho
    cases ho
    have hrefused := resetRefused_iff env s
    rw [← hreset] at hrefused
    refine NumericRequest.decided_reset ?_ hfind trivial (hrefused.trans ?_)
    · simp only [updateRequest, askedSettings, hrun]
    · simp [updateRequest, hasks]
  · rw [update, hrun] at ho
    cases ho
    refine NumericRequest.decided_refused ?_ hunread trivial (fun h => hasks h.1) rfl rfl
    simp only [updateRequest, askedSettings, hrun]
  · refine NumericRequest.decided_accepted ?_ hread hfind trivial fun h => hasks h.1
    simp only [updateRequest, askedSettings, hrun, id]

/-- a handler that serves a query without values in one way and all others as updates -/
theorem serve_decided {α : Type} {keys : List (NumericKey α)} (env : Env) (s : Store) (uri : Uri)
    {parse : Values → Parse (Update α)} (make : Update α → StatusCode × Store)
    (hreset : make .reset = noDataIsNotModified (eraseAll env.faults s))
    (hdefined : ∀ values, ValuesReadable uri values → Defined (parse values))
    (hsettles : ∀ values, ValuesReadable uri values → given keys uri values ≠ [] →
      ∃ settings, parse values = parseUpdate uri values settings ∧
        Settles (given keys uri values) id (fun _ => True) settings) (get : Outcome) :
    ∃ values o, parseQuery (uri.strlen + 1) uri = some values ∧
      ((parseQuery (uri.strlen + 1) uri).bind fun values =>
        if values = [] then some get else update env (parse values) make s .new) = some o ∧
      (given keys uri values ≠ [] → (updateRequest keys env s uri values (parse values) o).Decided) := by
  obtain ⟨values, hquery, hvalue⟩ := parseQuery_value uri
  have hread := valuesReadable hvalue
  by_cases hempty : values = []
  · refine ⟨values, get, hquery, ?_, fun hgiven => ?_⟩
    · rw [hquery, Option.bind_some, if_pos hempty]
    · subst hempty
      exact absurd (List.filterMap_eq_nil_iff.2 fun k _ => rfl) hgiven
  · obtain ⟨r, hr⟩ := hdefined values hread
    obtain ⟨o, ho⟩ : ∃ o, update env (parse values) make s .new = some o := ⟨_, by rw [update, hr]; rfl⟩
    refine ⟨values, o, hquery, ?_, fun hgiven => ?_⟩
    · rw [hquery, Option.bind_some, if_neg hempty, ho]
    · obtain ⟨settings, hsettings, hnumbers⟩ := hsettles values hread hgiven
      rw [hsettings] at ho ⊢
      exact decided_update hreset hnumbers ho

theorem ApNetworkHandler.serveHttp_decided (env : Env) (config : ApNetworkConfig) (s : Store) (uri : Uri) :
    ∃ values o, parseQuery (uri.strlen + 1) uri = some values ∧ serveHttp env config s uri .new = some o ∧
      (given numericKeys uri values ≠ [] → (numericRequest env config s uri values o).Decided) :=
  serve_decided env s uri (make config env.faults s) rfl (fun _ => defined_parse config)
    (fun _ hread => parse_settles config hread) (handleGet env s .new)

theorem StaNetworkHandler.serveHttp_decided (env : Env) (config : StaSettings) (s : Store) (uri : Uri) :
    ∃ values o, parseQuery (uri.strlen + 1) uri = some values ∧ serveHttp env config s uri .new = some o ∧
      (given numericKeys uri values ≠ [] → (numericRequest env config s uri values o).Decided) :=
  serve_decided env s uri (make config env.faults s) rfl (fun _ => defined_parse config)
    (fun _ hread => parse_settles config hread) (handleGet env config s .new)

/-! ## Analog configurations -/

namespace AnalogConfigStoreHandler

variable {store : AnalogConfigStore}

/-- an answer is no `InvalidArg` -/
theorem writeText_code_ne (httpd : Httpd) : (ResponseOps.writeText httpd .new "OK").1 ≠ .invalidArg := by
  obtain ⟨req, hres, -⟩ := writeOk_spec httpd
  rw [hres]
  split_ifs <;> exact StatusCode.noConfusion

/-- an object holds the defaults after a reset, whatever becomes of the erase -/
theorem step_reset_eq_iff (w : Objects store) (i : Fin store.configs.length) (f : Faults) :
    w.step (.reset i f) = w ↔
      ((w.config i).min = (w.config i).params.defMin ∧ (w.config i).max = (w.config i).params.defMax ∧
        (w.config i).oversamplingMode = (w.config i).params.defOversamplingMode) ∧
      (noDataIsNotModified (eraseAll f w.store)).2 = w.store := by
  obtain ⟨config, s⟩ := w
  have hstep : AnalogConfig.Shared.step ⟨config, s⟩ (.reset i f) =
      ⟨Function.update config i ⟨(config i).params, (config i).params.defMin, (config i).params.defMax,
        (config i).params.defOversamplingMode⟩, (noDataIsNotModified (eraseAll f s)).2⟩ := rfl
  rw [hstep, AnalogConfig.Shared.mk.injEq, Function.update_eq_self_iff]
  refine and_congr_left fun _ => ?_
  dsimp only
  generalize config i = c
  obtain ⟨params, min, max, mode⟩ := c
  simp only [AnalogConfig.mk.injEq, true_and]
  exact and_congr eq_comm (and_congr eq_comm eq_comm)

/-- a reset is reported as `InvalidArg` with nothing changed -/
theorem resetRefused_iff (env : AnalogEnv) (w : Objects store) (i : Fin store.configs.length) :
    ((update env w .new (.reset i env.faults)).code = .invalidArg ∧
      (update env w .new (.reset i env.faults)).objects = w) ↔ ResetRefused env (w.config i) := by
  have hcall : callCode w (.reset i env.faults) = (noDataIsNotModified (eraseAll env.faults w.store)).1 := rfl
  rw [update_objects, step_reset_eq_iff, ResetRefused]
  rcases reset_cases env.faults w.store with ⟨herror, hsame, -, hrefused⟩ | ⟨hok, hrefused, -⟩
  · rcases update_eq env w .new (.reset i env.faults) with ⟨-, h⟩ | ⟨hnot, -⟩
    · rw [h, hcall, hrefused, hsame, eq_self, and_true]
    · rw [hcall] at hnot
      exact absurd herror hnot
  · rcases update_eq env w .new (.reset i env.faults) with ⟨hnot, -⟩ | ⟨-, h⟩
    · rw [hcall] at hnot
      exact absurd hnot hok
    · rw [h]
      exact iff_of_false (fun hcode => writeText_code_ne env.httpd hcode.1) fun hcode => hrefused hcode.1

/-- what the object is asked for that the id names -/
theorem asked_eq (env : AnalogEnv) {w : Objects store} {uri : Uri} {values : Values} {i : Fin store.configs.length}
    {r : Except Fault (Update (Option AnalogSettings))} (hnamed : named store uri values = some i)
    (hparse : (parse (w.config i) uri values).run = some r) (o : AnalogOutcome store) :
    (numericRequest env w uri values o).asked =
      match r with
      | .ok (.configure settings) => settings
      | _ => none := by
  simp only [numericRequest, parsedFor, hnamed, Option.bind_some, askedSettings, hparse]
  match r with
  | .error _ => rfl
  | .ok .reset => rfl
  | .ok (.configure settings) => cases settings <;> rfl

/-- the object that is reset is the one that the id names -/
theorem erases_iff (env : AnalogEnv) (w : Objects store) {uri : Uri} {values : Values} {i : Fin store.configs.length}
    (hnamed : named store uri values = some i) (o : AnalogOutcome store) :
    (numericRequest env w uri values o).erases ↔ AsksReset uri values ∧ ¬ ResetRefused env (w.config i) := by
  simp [numericRequest, hnamed]

/-- a request that is served before the wait ends -/
theorem handle_decided {env : AnalogEnv} {w : Objects store} {uri : Uri} {values : Values} {o : AnalogOutcome store}
    (hfuture : env.future = .finished) (hquery : parseQuery (uri.strlen + 1) uri = some values)
    (ho : handle env w uri .new = some o) (hgiven : given numericKeys uri values ≠ []) :
    (numericRequest env w uri values o).Decided := by
  obtain ⟨values', hquery', hread, hcases⟩ := handle_cases env w uri .new
  obtain rfl : values' = values := Option.some.inj (hquery'.symm.trans hquery)
  rcases hcases with ⟨rfl, -⟩ | ⟨hnamed, hrun⟩ | ⟨i, r, hnamed, hparse, hrun⟩
  · exact absurd rfl hgiven
  · cases hrun.symm.trans ho
    refine NumericRequest.decided_refused ?_ (fun h => absurd hnamed h.1) hfuture ?_ rfl rfl
    · simp only [numericRequest, parsedFor, hnamed, Option.bind_none]
    · simp [numericRequest, hnamed]
  · cases hrun.symm.trans ho
    have hasked := asked_eq env hnamed hparse (perform env w i .new r)
    have herases := erases_iff env w hnamed (perform env w i .new r)
    obtain ⟨settings, hsettings, hsettles⟩ := parse_settles (w.config i) hread hgiven
    rcases parseUpdate_numbers uri values' hsettles with
      ⟨hasks, hfind, hreset⟩ | ⟨hasks, herror, hunread⟩ | ⟨hfind, hasks, a, hdone, hnumbers⟩
    · rw [← hsettings] at hreset
      cases hparse.symm.trans hreset
      refine NumericRequest.decided_reset hasked (fun h => hfind h.2) hfuture ((resetRefused_iff env w i).trans ?_)
      rw [herases]
      simp [hasks]
    · rw [← hsettings] at herror
      cases hparse.symm.trans herror
      exact NumericRequest.decided_refused hasked (fun h => hunread h.2) hfuture (fun h => hasks (herases.1 h).1) rfl rfl
    · rw [← hsettings] at hdone
      cases hparse.symm.trans hdone
      have hcomplete : (numericRequest env w uri values' (perform env w i .new (.ok (.configure (some a))))).complete :=
        ⟨by rw [hnamed]; exact Option.some_ne_none i, hfind⟩
      exact NumericRequest.decided_accepted hasked hnumbers hcomplete hfuture fun h => hasks (herases.1 h).1

theorem exists_handle (env : AnalogEnv) (w : Objects store) (uri : Uri) : ∃ o, handle env w uri .new = some o := by
  obtain ⟨values, -, -, ⟨-, hrun⟩ | ⟨-, hrun⟩ | ⟨i, r, -, -, hrun⟩⟩ := handle_cases env w uri .new
  · exact ⟨_, hrun⟩
  · exact ⟨_, hrun⟩
  · exact ⟨_, hrun⟩

/-- every request is served, and if it has numeric parameters, it is decided about them -/
theorem serveHttp_decided (env : AnalogEnv) (w : Objects store) (uri : Uri) :
    ∃ values o, parseQuery (uri.strlen + 1) uri = some values ∧ serveHttp env w uri .new = some o ∧
      (given numericKeys uri values ≠ [] → (numericRequest env w uri values o).Decided) := by
  obtain ⟨values, hquery, -⟩ := parseQuery_value uri
  obtain ⟨o, ho⟩ := exists_handle env w uri
  have hserved (hgiven : given numericKeys uri values ≠ []) :
      (numericRequest { env with future := .finished } w uri values o).Decided := handle_decided rfl hquery ho hgiven
  cases hfuture : env.future with
  | refused =>
    refine ⟨values, ⟨.invalidState, .new, w⟩, hquery, by rw [serveHttp, hfuture], fun hgiven => ?_⟩
    exact (hserved hgiven).unanswer (by simp [hfuture]) StatusCode.noConfusion
  | finished =>
    exact ⟨values, o, hquery, by rw [serveHttp, hfuture]; exact ho, fun hgiven => handle_decided hfuture hquery ho hgiven⟩
  | timedOut waited returning =>
    refine ⟨values, _, hquery, by rw [serveHttp, hfuture, ho]; rfl, fun hgiven => ?_⟩
    exact (hserved hgiven).unanswer (by simp [hfuture]) StatusCode.noConfusion

end AnalogConfigStoreHandler

/-! ## DS18B20 sensors -/

namespace DS18B20Handler

section

variable {uri : Uri} {values : Values}

theorem parseGpio_cases (hread : ValuesReadable uri values) (hgiven : given numericKeys uri values ≠ []) :
    ∃ text, given numericKeys uri values = [(gpio, text)] ∧
      ((∃ n rest, Numerals.fromChars .int text = some (n, rest) ∧ (parseGpio uri values).run = some (.ok n)) ∨
        Numerals.fromChars .int text = none ∧ (parseGpio uri values).run = some (.error refused)) := by
  cases hfind : find uri values "gpio" with
  | none => exact absurd (by simp [given, numericKeys, gpio, hfind]) hgiven
  | some v =>
    refine ⟨uri.content v, by simp [given, numericKeys, gpio, hfind], ?_⟩
    have hv := hread "gpio" (by decide)
    rw [hfind] at hv
    rw [parseGpio, hfind]
    simp only [run_bind_copy hv]
    cases Numerals.fromChars .int (uri.content v) with
    | none => exact .inr ⟨rfl, rfl⟩
    | some number => exact .inl ⟨number.1, number.2, rfl, rfl⟩

/-- the GPIO is read first -/
theorem settles_gpio {next : ℤ → Parse (ℤ × Ds18b20Operation)} (hread : ValuesReadable uri values)
    (hgiven : given numericKeys uri values ≠ []) (hnext : ∀ n, Settles [] id (fun a => gpio.number a = n) (next n)) :
    Settles (given numericKeys uri values) id (fun _ => True) (parseGpio uri values >>= next) := by
  obtain ⟨text, htext, ⟨n, rest, hchars, hrun⟩ | ⟨hchars, hrun⟩⟩ := parseGpio_cases hread hgiven
  · rw [htext]
    have hstep : (parseGpio uri values >>= next).run = (next n).run := by
      rw [ExceptT.run_bind, hrun]
      rfl
    rw [Settles, hstep]
    rcases hnext n with ⟨a, hdone, hnumber, -⟩ | ⟨-, p, hp, -⟩
    · exact .inl ⟨a, hdone, trivial, List.forall_mem_singleton.2 ⟨rest, by rw [hnumber]; exact hchars⟩⟩
    · cases hp
  · rw [htext]
    refine .inr ⟨?_, _, List.mem_singleton_self _, hchars⟩
    rw [ExceptT.run_bind, hrun]
    rfl

theorem refused_gpio {next : ℤ → Parse (ℤ × Ds18b20Operation)} (hread : ValuesReadable uri values)
    (hgiven : given numericKeys uri values ≠ []) (hnext : ∀ n, (next n).run = some (.error refused)) :
    (parseGpio uri values >>= next).run = some (.error refused) := by
  obtain ⟨text, -, ⟨n, rest, -, hrun⟩ | ⟨-, hrun⟩⟩ := parseGpio_cases hread hgiven
  · rw [ExceptT.run_bind, hrun]
    exact hnext n
  · rw [ExceptT.run_bind, hrun]
    rfl

/-- all that the path asks for is there -/
theorem parse_settles (hread : ValuesReadable uri values) (hgiven : given numericKeys uri values ≠ [])
    (hcomplete : ∃ keys, otherKeys uri = some keys ∧ ∀ key ∈ keys, find uri values key ≠ none) :
    Settles (given numericKeys uri values) id (fun _ => True) (parse uri values) := by
  obtain ⟨keys, hkeys, hfound⟩ := hcomplete
  unfold otherKeys at hkeys
  unfold parse
  simp only
  split_ifs at hkeys ⊢
  · exact settles_gpio hread hgiven fun n => settles_pure rfl
  · cases hkeys
    refine settles_gpio hread hgiven fun n => ?_
    exact settles_require (hfound "sensor_id" (by simp)) fun sensorId => settles_pure rfl
  · cases hkeys
    refine settles_gpio hread hgiven fun n => ?_
    refine settles_require (hfound "sensor_id" (by simp)) fun sensorId => ?_
    refine settles_require (hfound "serial_number" (by simp)) fun serialNumber => ?_
    exact settles_require (hfound "resolution" (by simp)) fun resolution => settles_pure rfl
  · cases hkeys
    refine settles_gpio hread hgiven fun n => ?_
    exact settles_require (hfound "sensor_id" (by simp)) fun sensorId => settles_pure rfl

/-- something that the path asks for is missing, or the path is unknown -/
theorem parse_refused (hread : ValuesReadable uri values) (hgiven : given numericKeys uri values ≠ [])
    (hmissing : ¬ ∃ keys, otherKeys uri = some keys ∧ ∀ key ∈ keys, find uri values key ≠ none) :
    (parse uri values).run = some (.error refused) := by
  unfold otherKeys at hmissing
  unfold parse
  simp only
  split_ifs at hmissing ⊢
  · exact absurd ⟨[], rfl, by simp⟩ hmissing
  · refine refused_gpio hread hgiven fun n => refused_require fun hsensor _ => ?_
    exact absurd ⟨_, rfl, by simpa using hsensor⟩ hmissing
  · refine refused_gpio hread hgiven fun n => refused_require fun hsensor _ => ?_
    refine refused_require fun hserial _ => refused_require fun hresolution _ => ?_
    exact absurd ⟨_, rfl, by simpa using ⟨hsensor, hserial, hresolution⟩⟩ hmissing
  · refine refused_gpio hread hgiven fun n => refused_require fun hsensor _ => ?_
    exact absurd ⟨_, rfl, by simpa using hsensor⟩ hmissing
  · rfl

/-- every request is served, and if it has a GPIO, it is decided about it -/
theorem serveHttp_decided {σ : Type} (env : Ds18b20Env σ) (s : σ) (uri : Uri) :
    ∃ values o, parseQuery (uri.strlen + 1) uri = some values ∧ serveHttp env s uri .new = some o ∧
      (given numericKeys uri values ≠ [] → (numericRequest s uri values o).Decided) := by
  obtain ⟨values, r, hquery, hread, hparse, hserve⟩ := serveHttp_eq env s uri .new
  refine ⟨values, _, hquery, hserve, fun hgiven => ?_⟩
  by_cases hcomplete : (numericRequest s uri values (perform env s .new r)).complete
  · rcases parse_settles hread hgiven hcomplete with ⟨a, hdone, -, hnumbers⟩ | ⟨herror, hunread⟩
    · refine NumericRequest.decided_accepted ?_ hnumbers hcomplete trivial id
      simp only [numericRequest, hdone]
      rfl
    · cases hparse.symm.trans herror
      refine NumericRequest.decided_refused ?_ (fun _ => hunread) trivial id rfl rfl
      simp only [numericRequest, hparse]
      rfl
  · have herror := parse_refused hread hgiven hcomplete
    cases hparse.symm.trans herror
    refine NumericRequest.decided_refused ?_ (fun h => absurd h hcomplete) trivial id rfl rfl
    simp only [numericRequest, hparse]
    rfl

end

end DS18B20Handler

/-! ## Main results -/

/-- the request is parsed and served, and what becomes of it has the property -/
def Served {α ο : Type} (uri : Uri) (serve : Option ο) (request : Values → ο → NumericRequest α)
    (property : NumericRequest α → Prop) : Prop :=
  ∃ values o, parseQuery (uri.strlen + 1) uri = some values ∧ serve = some o ∧ property (request values o)

/-- one of the handlers with everything that it meets: configuration, storage and calls that may fail -/
inductive NumericEndpoint : Type 1 where
  | ap (env : Env) (config : ApNetworkConfig) (s : Store)
  | sta (env : Env) (config : StaSettings) (s : Store)
  | analog (store : AnalogConfigStore) (env : AnalogEnv) (w : Objects store)
  | ds18b20 (σ : Type) (env : Ds18b20Env σ) (s : σ)

/-- a request to the endpoint is served, and what becomes of it has the property -/
def NumericEndpoint.Serves (uri : Uri) (property : {α : Type} → NumericRequest α → Prop) : NumericEndpoint → Prop
  | .ap env config s =>
    Served uri (ApNetworkHandler.serveHttp env config s uri .new) (ApNetworkHandler.numericRequest env config s uri)
      property
  | .sta env config s =>
    Served uri (StaNetworkHandler.serveHttp env config s uri .new) (StaNetworkHandler.numericRequest env config s uri)
      property
  | .analog _ env w =>
    Served uri (AnalogConfigStoreHandler.serveHttp env w uri .new)
      (AnalogConfigStoreHandler.numericRequest env w uri) property
  | .ds18b20 _ env s =>
    Served uri (DS18B20Handler.serveHttp env s uri .new) (DS18B20Handler.numericRequest s uri) property

theorem served_iff {α ο : Type} {uri : Uri} {serve : Option ο} {keys : List (NumericKey α)}
    {request : Values → ο → NumericRequest α} (hkeys : ∀ values o, (request values o).given = given keys uri values)
    (h : ∃ values o, parseQuery (uri.strlen + 1) uri = some values ∧ serve = some o ∧
      (given keys uri values ≠ [] → (request values o).Decided)) :
    Served uri serve request fun r => (r.Validated ↔ r.Clean) := by
  obtain ⟨values, o, hquery, ho, hdecided⟩ := h
  refine ⟨values, o, hquery, ho, NumericRequest.validated_iff_clean ?_⟩
  rw [hkeys]
  exact hdecided

/-- **Numeric parameters.** Every request to one of the handlers is served, over any configuration and storage, with any
calls failing. Its numeric parameters are validated as a whole iff all of them are whole numerals that fit, or the request
is refused in any case. -/
theorem numbers_validated_iff (e : NumericEndpoint) (uri : Uri) : e.Serves uri fun r => (r.Validated ↔ r.Clean) := by
  cases e with
  | ap env config s => exact served_iff (fun _ _ => rfl) (ApNetworkHandler.serveHttp_decided env config s uri)
  | sta env config s => exact served_iff (fun _ _ => rfl) (StaNetworkHandler.serveHttp_decided env config s uri)
  | analog store env w => exact served_iff (fun _ _ => rfl) (AnalogConfigStoreHandler.serveHttp_decided env w uri)
  | ds18b20 σ env s => exact served_iff (fun _ _ => rfl) (DS18B20Handler.serveHttp_decided env s uri)

/-- the numeric parameters of every request are validated -/
def NumbersValidated : Prop := ∀ (e : NumericEndpoint) (uri : Uri), e.Serves uri fun r => r.Validated

def cutUri : Uri := .ofString "/api/v1/config/wifi/ap?channel=5abc" (by decide)

def exampleAp : ApNetworkConfig := ⟨.ofString "control", .ofString "password", 1, 4⟩

/-- **A number that is cut off.** The channel `5abc` is accepted and stored as 5. -/
theorem number_cut : ¬ NumbersValidated ∧
    ∃ o, ApNetworkHandler.serveHttp faultless exampleAp ∅ cutUri .new = some o ∧ o.code = .ok ∧
      o.store.lookup "channel" = some [5#8] := by
  have hrun : ∃ o, ApNetworkHandler.serveHttp faultless exampleAp ∅ cutUri .new = some o ∧ o.code = .ok ∧
      o.store.lookup "channel" = some [5#8] := by
    refine ⟨_, (Option.some_get (by decide)).symm, ?_⟩
    decide
  refine ⟨fun h => ?_, hrun⟩
  obtain ⟨o, ho, hok, -⟩ := hrun
  obtain ⟨values, o', hquery, ho', hvalid⟩ := h (.ap faultless exampleAp ∅) cutUri
  obtain rfl : o = o' := Option.some.inj (ho.symm.trans ho')
  have hvalues : parseQuery (cutUri.strlen + 1) cutUri = some [(⟨23, 7⟩, ⟨31, 4⟩)] := by
    decide
  cases hvalues.symm.trans hquery
  have hcut : ¬ (ApNetworkHandler.numericRequest faultless exampleAp ∅ cutUri [(⟨23, 7⟩, ⟨31, 4⟩)] o).Whole := by
    intro hwhole
    have hmem : (ApNetworkHandler.channel, cutUri.content ⟨31, 4⟩) ∈
        given ApNetworkHandler.numericKeys cutUri [(⟨23, 7⟩, ⟨31, 4⟩)] :=
      List.mem_filterMap.2 ⟨ApNetworkHandler.channel, List.mem_cons_self, rfl⟩
    obtain ⟨n, hn⟩ := hwhole _ hmem
    have hread : Numerals.fromChars (.unsigned 8) (cutUri.content ⟨31, 4⟩) = some (5, bytes "abc") := by
      decide
    rw [denotes_iff, ApNetworkHandler.channel, hread] at hn
    have hrest := (Prod.mk.inj (Option.some.inj hn)).2
    exact absurd hrest (by decide)
  have hcode := (hvalid.refused hcut).1
  cases hok.symm.trans hcode

end ControlComponents.Pipeline.Httpserver
