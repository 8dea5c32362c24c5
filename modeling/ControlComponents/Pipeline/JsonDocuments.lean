/-
The JSON documents of the device (`ocs_pipeline/jsonfmt`) and the requests for them: `DataHandler` and
`SystemStateHandler` format a document, print it into a buffer and delete it.

The formatters are given with the data they meet. How a document is printed is a parameter, as is which calls of cJSON
succeed; the calls are numbered through all requests.

- `prepare_spec`: one document. `documents_law`: the requests of a whole run.
-/
import ControlComponents.Core.Version
import ControlComponents.Fmt.Json
import ControlComponents.Lib.Runs
import ControlComponents.Net.ApNetwork
import ControlComponents.Pipeline.Endpoints
import ControlComponents.Sensor.SoilAnalogSensor

namespace ControlComponents.Pipeline

open ControlComponents.Core ControlComponents.Fmt.Json ControlComponents.Http ControlComponents.Lib.Cells

variable {D : Type}

/-! ## Formatters -/

section
variable (ofInt : ℤ → D)

/-- the fields of `esp_system.h` -/
def SystemFormatter (heap heapMin heapInternal : ℕ) (resetReason : String) : Formatter D :=
  .fields (.ok [("system_memory_heap", .number (ofInt heap)), ("system_memory_heap_min", .number (ofInt heapMin)),
    ("system_memory_heap_internal", .number (ofInt heapInternal)), ("system_reset_reason", .string resetReason)])

/-- the counters of the holder: the identifier and the value of each -/
def CounterFormatter (counters : List (String × BitVec 64)) : Formatter D :=
  .fields (.ok (counters.map fun c => (c.1, .number (ofInt c.2.toNat))))

/-- the pairs that have been added, in the order in which their map lists them -/
def StringFormatter (values : List (String × String)) : Formatter D :=
  .fields (.ok (values.map fun v => (v.1, .string v.2)))

/-- `TimeOps::get_time` has failed, or the time, which is unknown before `startPoint` -/
def TimeFormatter (startPoint : ℤ) (time : Option ℤ) : Formatter D :=
  .fields
    (match time with
    | none => .error .plain
    | some t => .ok [("timestamp", .number (ofInt (if t < startPoint then -1 else t)))])

def rssiToSignalStrength (rssi : ℤ) : String :=
  if rssi > -50 then "excellent"
  else if rssi > -60 then "good"
  else if rssi > -70 then "fair"
  else if rssi > -80 then "poor"
  else "unreliable"

def StaNetworkFormatter (ssid : String) (rssi : ℤ) (ip : String) : Formatter D :=
  .fields (.ok [("network_sta_ssid", .string ssid), ("network_sta_rssi", .number (ofInt rssi)),
    ("network_sta_signal_strength", .string (rssiToSignalStrength rssi)), ("network_sta_ip", .string ip)])

def ApNetworkFormatter (info : Net.ApNetwork.Info) : Formatter D :=
  .fields (.ok [("network_ap_channel", .number (ofInt info.channel.toNat)),
    ("network_ap_cur_conn", .number (ofInt info.curConnection.toNat)),
    ("network_ap_max_conn", .number (ofInt info.maxConnection.toNat))])

def soilStatusToStr (status : Sensor.Soil.SoilStatus) : String :=
  if status = .saturated then "Saturated"
  else if status = .wet then "Wet"
  else if status = .depletion then "Depletion"
  else if status = .dry then "Dry"
  else if status = .error then "Error"
  else "<none>"

def SoilAnalogSensorFormatter (data : Sensor.Soil.Data D) : Formatter D :=
  .fields (.ok [("sensor_soil_raw", .number (ofInt data.raw)), ("sensor_soil_voltage", .number (ofInt data.voltage)),
    ("sensor_soil_moisture", .number data.moisture),
    ("sensor_soil_prev_status", .string (soilStatusToStr data.prevStatus)),
    ("sensor_soil_prev_status_dur", .number (ofInt data.prevStatusDuration.toInt)),
    ("sensor_soil_curr_status", .string (soilStatusToStr data.currStatus)),
    ("sensor_soil_curr_status_dur", .number (ofInt data.currStatusDuration.toInt)),
    ("sensor_soil_write_count", .number (ofInt data.writeCount.toNat)),
    ("sensor_soil_status_progress", .number data.statusProgress)])

/-- what `uxTaskGetSystemState` tells of a task -/
structure TaskStatus where
  name : String
  /-- as `task_state_to_str` names it -/
  state : String
  number : ℕ
  priority : ℕ
  stackFree : ℕ

/-- without the configuration options for cores and run times -/
def SystemStateFormatter (tasks : List TaskStatus) : Formatter D :=
  .rows "tasks" (tasks.map fun t => [("name", .string t.name), ("state", .string t.state),
    ("number", .number (ofInt t.number)), ("priority", .number (ofInt t.priority)),
    ("stack_free", .number (ofInt t.stackFree))])

/-- the telemetry of `DataPipeline`, with the formatters that other pipelines have added -/
def telemetryFormatter (heap heapMin heapInternal : ℕ) (resetReason : String) (counters : List (String × BitVec 64))
    (added : List (Formatter D)) : Formatter D :=
  .fanout (SystemFormatter ofInt heap heapMin heapInternal resetReason :: CounterFormatter ofInt counters :: added)

end

/-- `RegistrationFormatter`: the version of the firmware is told if it can be parsed -/
def registrationFormatter (idf fwVersion fwName fwDescription deviceId : String) (added : List (Formatter D)) :
    Formatter D :=
  let version := if (Version.parse ⟨0, 0, 0⟩ (.ofString fwVersion)).1 then fwVersion else "<none>"
  .fanout (.fanout [StringFormatter [("version_esp_idf", idf), ("fw_version", version), ("fw_name", fwName),
    ("fw_description", fwDescription), ("device_id", deviceId)]] :: added)

/-! ## Requests -/

/-- a formatter and how `DynamicFormatter` prints into its buffer: not at all if the text does not fit -/
structure Documented (D : Type) where
  formatter : Formatter D
  print : Doc D → Option String

/-- the document of a formatter -/
def Documented.doc (d : Documented D) : Doc D := .item "" .object d.formatter.docs

/-- the part of `serve_http` before the reply: a document is formatted and printed; it is deleted in any case -/
def prepare (mem : Memory) (d : Documented D) (h : Heap) : Prepared × Heap :=
  match create mem .object h with
  | (none, h) => (.error ⟨.noMem, by decide⟩, h)
  | (some (.item cell key value _), h) =>
    let (code, items, h) := d.formatter.format mem h
    let json : Cjson D := .item cell key value items
    if hcode : code = .ok then
      match d.print json.doc with
      | none => (.error ⟨.noMem, by decide⟩, delete json h)
      | some text => (.ok text, delete json h)
    else (.error ⟨code, hcode⟩, delete json h)

/-- a request to `DataHandler` or `SystemStateHandler`, and the memory afterwards -/
def serve (mem : Memory) (httpd : Httpd) (d : Documented D) (h : Heap) : (StatusCode × Request) × Heap :=
  let (prepared, h) := prepare mem d h
  (DataHandler.serveHttp httpd prepared .new, h)

/-- the memory after a number of requests -/
def serveAll (mem : Memory) (httpd : Httpd) (ds : List (Documented D)) (h : Heap) : Heap :=
  Lib.Runs.run (fun h d => (serve mem httpd d h).2) h ds

/-! ## Laws -/

/-- a document leaves the memory as it was; it is answered with if everything has gone well, and whole -/
structure Prepares (mem : Memory) (d : Documented D) (h : Heap) (r : Prepared × Heap) : Prop where
  released : Grows h r.2 []
  whole : ∀ text, r.1 = .ok text → d.print d.doc = some text
  succeeds : (∀ n, mem n = true) → d.formatter.Available → ∀ text, d.print d.doc = some text → r.1 = .ok text

theorem prepare_spec (mem : Memory) (d : Documented D) {h : Heap} (hfresh : h.Fresh) :
    Prepares mem d h (prepare mem d h) := by
  unfold prepare
  rcases hc : create mem (.object : Value D) h with ⟨_ | i, h₁⟩
  · obtain ⟨hg, hm⟩ := create_none hc
    exact ⟨hg, (fun text h => by cases h), fun hall => by simp [hall] at hm⟩
  · obtain ⟨cell, rfl, hg⟩ := create_some hc
    obtain ⟨hgrows, hcomplete, hsucceeds⟩ := format_spec mem d.formatter (hg.fresh hfresh)
    rcases hf : d.formatter.format mem h₁ with ⟨code, items, h₂⟩
    rw [hf] at hgrows hcomplete hsucceeds
    have howned : Grows h h₂ ([] ++ (Cjson.item cell "" .object items).cells) := hg.trans hgrows
    have hreleased : Grows h (delete (.item cell "" .object items) h₂) [] := howned.free hfresh
    by_cases hcode : code = .ok
    · have hdoc : (Cjson.item cell "" .object items).doc = d.doc := by
        simp only [Cjson.doc, Documented.doc, hcomplete hcode]
      simp only [hf, dif_pos hcode, hdoc]
      cases hprint : d.print d.doc with
      | none => exact ⟨hreleased, (fun text h => by cases h), fun _ _ text h => by rw [hprint] at h; cases h⟩
      | some text =>
        refine ⟨hreleased, fun text' h => ?_, fun _ _ text' h => ?_⟩
        · rw [hprint, Except.ok.inj h]
        · rw [Option.some.inj (hprint.symm.trans h)]
    · simp only [hf, dif_neg hcode]
      exact ⟨hreleased, (fun text h => by cases h), fun hall h => absurd (hsucceeds hall h) hcode⟩

/-- **Documents.** In any run of requests, whatever calls of cJSON fail: every cell that a request takes it frees, once.
A request is answered with the whole document of its formatter or with an error; if nothing fails, its formatters have
their data and the text fits, it is answered with the document. -/
theorem documents_law (mem : Memory) (httpd : Httpd) (ds : List (Documented D)) (d : Documented D) (h : Heap)
    (hfresh : h.Fresh) :
    (serveAll mem httpd (ds ++ [d]) h).live = h.live ∧
    (serveAll mem httpd (ds ++ [d]) h).faulted = h.faulted ∧
    ((∃ text, d.print d.doc = some text ∧
        (serve mem httpd d (serveAll mem httpd ds h)).1 = ResponseOps.writeJson httpd .new text) ∨
      ((∃ e : Fault, (serve mem httpd d (serveAll mem httpd ds h)).1 = (e.code, .new)) ∧
        ((∀ n, mem n = true) → d.formatter.Available → d.print d.doc = none))) := by
  have hstep : ∀ (h' : Heap) (d : Documented D), Grows h h' [] → Grows h (serve mem httpd d h').2 [] :=
    fun h' d hg => hg.trans (prepare_spec mem d (hg.fresh hfresh)).released
  have hall : ∀ ds : List (Documented D), Grows h (serveAll mem httpd ds h) [] :=
    fun ds => Lib.Runs.run_preserves hstep (.refl h) ds
  obtain ⟨-, hwhole, hsucceeds⟩ := prepare_spec mem d ((hall ds).fresh hfresh)
  refine ⟨(hall _).released.1, (hall _).released.2, ?_⟩
  unfold serve
  rcases hp : prepare mem d (serveAll mem httpd ds h) with ⟨e | text, h'⟩
  · rw [hp] at hsucceeds
    refine .inr ⟨⟨e, rfl⟩, fun hmem havailable => ?_⟩
    cases hprint : d.print d.doc with
    | none => rfl
    | some text => cases hsucceeds hmem havailable text hprint
  · rw [hp] at hwhole
    exact .inl ⟨text, hwhole text rfl, rfl⟩

def exampleDocument (time : Option ℤ) : Documented ℤ where
  formatter := telemetryFormatter id 4096 1024 2048 "RST_POWERON" [("c_sys_uptime", 7)] [TimeFormatter id 0 time,
    .field "network" .object [StaNetworkFormatter id "home" (-55) "10.0.0.2"]]
  print d := if d.print.length < 512 then some d.print else none

/-- a call of the second request fails -/
theorem documents_law_example :
    (serveAll (fun n => n ≠ 30) (fun _ => true) [exampleDocument (some 5), exampleDocument none] ⟨∅, 0, false⟩).live = ∅ :=
  (documents_law (fun n => n ≠ 30) (fun _ => true) [exampleDocument (some 5)] (exampleDocument none) ⟨∅, 0, false⟩
    (fun c hc => by simp at hc)).1

end ControlComponents.Pipeline
