/-
`ClientReader` (`ocs_http`): the response to an HTTP request, received in parts by the task of the client while other tasks
wait for it and read it.

The parts are appended to one buffer, which is never cleared. A wait is for the end of the response; a read copies as much
of the buffer as there is room for, whether the response is complete or not.

- `handleEvents_buf`: the buffer is what has been received.
- `read_complete`: what is read after a successful wait.
-/
import ControlComponents.Core.CondLoop
import Mathlib.Data.List.TakeWhile

namespace ControlComponents.Http

open ControlComponents.Core ControlComponents.Core.CondLoop ControlComponents.Lib.Runs

/-! ## Model -/

structure ClientReader where
  dataReceived : Bool
  buf : List Byte

namespace ClientReader

def new : ClientReader := ⟨false, []⟩

/-- the events of `esp_http_client` -/
inductive ClientEvent where
  | onData (data : List Byte)
  | onFinish
  /-- one that is logged only -/
  | other
deriving DecidableEq

def handleEvent (r : ClientReader) : ClientEvent → ClientReader
  | .onData data => { r with buf := r.buf ++ data }
  | .onFinish => { r with dataReceived := true }
  | .other => r

/-- the loop of `wait` -/
def waitCode (r : ClientReader) : Option StatusCode := if r.dataReceived then some .ok else none

/-- the bytes that are copied to a buffer of `size` bytes -/
def read (r : ClientReader) (size : ℕ) : List Byte := r.buf.take (min size r.buf.length)

/-- the loop of `wait` over the events -/
def guard : Guard ClientReader ClientEvent where
  ready := waitCode
  apply := handleEvent
  broadcasts e := decide (e = .onFinish)
  stays r e := by
    cases e with
    | onFinish => simp [waitCode, handleEvent]
    | _ => exact id
  quiet r e hquiet := by
    cases e with
    | onFinish => simp at hquiet
    | _ => exact id

/-! ## Reading -/

/-- what the events have brought -/
def received (events : List ClientEvent) : List Byte :=
  events.flatMap fun
    | .onData data => data
    | _ => []

def ClientEvent.isFinish : ClientEvent → Bool
  | .onFinish => true
  | _ => false

/-- the client reports the end of a response after all of its parts, and makes no further request -/
def OneResponse (events : List ClientEvent) : Prop := received (events.dropWhile fun e => !e.isFinish) = []

instance (events : List ClientEvent) : Decidable (OneResponse events) :=
  inferInstanceAs (Decidable (received _ = []))

/-- **The buffer** has everything that was received, in order, however it was cut into parts. -/
theorem handleEvents_buf (events : List ClientEvent) : (events.foldl handleEvent new).buf = received events := by
  induction events using List.reverseRecOn with
  | nil => rfl
  | append_singleton events e ih =>
    rw [List.foldl_concat]
    cases e with
    | onData data => simp [handleEvent, ih, received]
    | _ => simpa [handleEvent, received] using ih

theorem handleEvents_dataReceived (events : List ClientEvent) :
    (events.foldl handleEvent new).dataReceived = true ↔ .onFinish ∈ events := by
  induction events using List.reverseRecOn with
  | nil => simp [new]
  | append_singleton events e ih =>
    rw [List.foldl_concat]
    cases e with
    | onFinish => simp [handleEvent]
    | _ => simpa [handleEvent] using ih

theorem waitCode_eq_some {r : ClientReader} {code : StatusCode} :
    waitCode r = some code ↔ r.dataReceived = true ∧ code = .ok := by
  unfold waitCode
  split_ifs with h
  · simp [h, eq_comm]
  · simp [h]

theorem received_append (as bs : List ClientEvent) : received (as ++ bs) = received as ++ received bs :=
  List.flatMap_append

/-- nothing comes after the end of a response -/
theorem received_of_finished {events later : List ClientEvent} (h : OneResponse (events ++ later))
    (hfinish : .onFinish ∈ events) : received (events ++ later) = received events := by
  have hdrop : events.dropWhile (fun e => !e.isFinish) ≠ [] := by
    intro hnil
    have hkept := List.dropWhile_eq_nil_iff.1 hnil .onFinish hfinish
    cases hkept
  rw [OneResponse, List.dropWhile_append, if_neg (by simpa [List.isEmpty_iff] using hdrop), received_append] at h
  rw [received_append, (List.append_eq_nil_iff.1 h).2, List.append_nil]

section

variable {τ : Type} [DecidableEq τ]

/-- the reader, its mutex and the tasks that use it -/
abbrev System (τ : Type) := CondLoop.World τ ClientReader ClientEvent

/-- **Waiting for a response and reading it.** For every interleaving of the events with any number of waiting tasks,
timeouts and notifications from elsewhere, with a client that makes one request (`OneResponse`): once a wait has returned
without having expired, its status is OK, and from then on every read gets the response, as much of it as there is room for,
whatever has happened since. And when the response is complete, every task that still waits can take its next two steps and
returns OK. -/
theorem read_complete (es : List (CondLoop.Event τ ClientEvent)) (w : System τ)
    (h : exec (step guard) (.start new) es = some w) (hone : OneResponse (updates w.log)) :
    (∀ before after task code, w.log = before ++ .returned task false code :: after →
      code = .ok ∧ ∀ size, w.value.read size = (received (updates before)).take size) ∧
    (.onFinish ∈ updates w.log → ∀ task, w.place task = .waiting →
      ∃ w', exec (step guard) w [.wake task, .relock task] = some w' ∧ w'.place task = .outside ∧
        w'.log = w.log ++ [.returned task false .ok]) := by
  have hw : Inv guard new w := exec_step_inv rfl es w h
  refine ⟨?_, ?_⟩
  · intro before after task code hlog
    have hresult : guard.ready ((updates before).foldl handleEvent new) = some code := returns_result hw hlog
    obtain ⟨hfinish, hcode⟩ := waitCode_eq_some.1 hresult
    have hupdates : updates w.log = updates before ++ updates after := by
      rw [hlog, updates_append]
      rfl
    refine ⟨hcode, fun size => ?_⟩
    have hbuf : w.value.buf = received (updates before) := by
      calc w.value.buf = ((updates w.log).foldl handleEvent new).buf := congrArg buf hw.value
        _ = received (updates w.log) := handleEvents_buf _
        _ = received (updates before ++ updates after) := by rw [hupdates]
        _ = received (updates before) := by
          rw [hupdates] at hone
          exact received_of_finished hone ((handleEvents_dataReceived _).1 hfinish)
    rw [read, hbuf, ← List.take_take, List.take_length]
  · intro hfinish task hplace
    have hready : guard.ready w.value = some .ok := by
      rw [hw.value]
      exact waitCode_eq_some.2 ⟨(handleEvents_dataReceived _).2 hfinish, rfl⟩
    exact returns_when_ready hw hready hplace

end

/-- a task waits, a part arrives, and the other one with the end of the response -/
def exampleEvents : List (CondLoop.Event ℕ ClientEvent) :=
  [.call 0, .update .other, .update (.onData [0x6f]), .update (.onData [0x6b]), .update .onFinish, .wake 0, .relock 0,
    .update .other]

def exampleEnd : System ℕ := (exec (step guard) (.start new) exampleEvents).get (by decide)

theorem read_complete_example : exampleEnd.value.read 16 = [0x6f, 0x6b] := by
  have hlog : exampleEnd.log =
      [.updated .other, .updated (.onData [0x6f]), .updated (.onData [0x6b]), .updated .onFinish] ++
        .returned 0 false .ok :: [.updated .other] := by decide
  have h := (read_complete exampleEvents exampleEnd (Option.some_get _).symm (by decide)).1 _ _ 0 .ok hlog
  exact h.2 16

end ClientReader

end ControlComponents.Http
