/-
`ApNetwork` (`ocs_net`): the events of the WiFi driver for an access point, and the tasks that wait for it to come up.

The status is that of the last start or stop event; a wait is for there to be one. It is never cleared, so from the first
such event on no wait blocks, also after the network has been stopped and started again. The stations are counted on their
own, in a byte.

- `handleWifiEvents_code`, `handleWifiEvents_count`: what the events come to.
- `wait_law`: what a wait returns, and that no task is left waiting.
-/
import ControlComponents.Core.CondLoop
import ControlComponents.Net.NetworkConfig

namespace ControlComponents.Net

open ControlComponents.Core ControlComponents.Core.CondLoop ControlComponents.Lib.Runs

/-! ## Model -/

structure ApNetwork where
  config : ApNetworkConfig
  code : StatusCode
  connectionCount : Byte

namespace ApNetwork

def new (config : ApNetworkConfig) : ApNetwork := ⟨config, .last, 0⟩

inductive WifiEvent where
  | apStart
  | apStop
  | apStaConnected
  | apStaDisconnected
  /-- one that no handler is interested in -/
  | other
deriving DecidableEq

def handleWifiEvent (n : ApNetwork) : WifiEvent → ApNetwork
  | .apStart => { n with code := .ok }
  | .apStop => { n with code := .error }
  | .apStaConnected => { n with connectionCount := n.connectionCount + 1 }
  | .apStaDisconnected => { n with connectionCount := n.connectionCount - 1 }
  | .other => n

/-- what the handlers of an event call under the mutex, in `INetworkHandler` -/
inductive HandlerCall where
  | handleConnect
  | handleDisconnect
deriving DecidableEq

def handlerCall : WifiEvent → Option HandlerCall
  | .apStart => some .handleConnect
  | .apStop => some .handleDisconnect
  | _ => none

/-- a start or a stop is broadcast -/
def broadcasts (e : WifiEvent) : Bool := (handlerCall e).isSome

/-- the loop of `wait` -/
def waitCode (n : ApNetwork) : Option StatusCode := if n.code = .last then none else some n.code

structure Info where
  channel : Byte
  curConnection : Byte
  maxConnection : Byte

def getInfo (n : ApNetwork) : Info :=
  ⟨n.config.settings.channel, n.connectionCount, n.config.settings.maxConn⟩

/-- the loop of `wait` over the events -/
def guard : Guard ApNetwork WifiEvent where
  ready := waitCode
  apply := handleWifiEvent
  broadcasts := broadcasts
  stays n e := by
    cases e with
    | apStart => simp [waitCode, handleWifiEvent]
    | apStop => simp [waitCode, handleWifiEvent]
    | _ => exact id
  quiet n e hquiet := by
    cases e with
    | apStart => cases hquiet
    | apStop => cases hquiet
    | _ => exact id

/-! ## Events -/

def eventCode : WifiEvent → Option StatusCode
  | .apStart => some .ok
  | .apStop => some .error
  | _ => none

/-- the status of the last start or stop -/
def lastCode (events : List WifiEvent) : Option StatusCode := (events.filterMap eventCode).getLast?

/-- how many stations are there, if none was counted twice -/
def joined (events : List WifiEvent) : ℤ := events.count .apStaConnected - events.count .apStaDisconnected

theorem handleWifiEvent_code (n : ApNetwork) (e : WifiEvent) :
    waitCode (handleWifiEvent n e) = (eventCode e).or (waitCode n) := by
  cases e with
  | apStart => simp [waitCode, handleWifiEvent, eventCode]
  | apStop => simp [waitCode, handleWifiEvent, eventCode]
  | _ => rfl

/-- **The status** is that of the last start or stop. -/
theorem handleWifiEvents_code (config : ApNetworkConfig) (events : List WifiEvent) :
    waitCode (events.foldl handleWifiEvent (new config)) = lastCode events := by
  induction events using List.reverseRecOn with
  | nil => rfl
  | append_singleton events e ih =>
    rw [List.foldl_concat, handleWifiEvent_code, ih, lastCode, lastCode, List.filterMap_append]
    cases h : eventCode e <;> simp [h]

/-- **The stations** are counted modulo 256. -/
theorem handleWifiEvents_count (config : ApNetworkConfig) (events : List WifiEvent) :
    (events.foldl handleWifiEvent (new config)).connectionCount = BitVec.ofInt 8 (joined events) := by
  induction events using List.reverseRecOn with
  | nil => rfl
  | append_singleton events e ih =>
    rw [List.foldl_concat]
    cases e with
    | apStaConnected =>
      have hjoined : joined (events ++ [.apStaConnected]) = joined events + 1 := by
        simp [joined]
        omega
      rw [hjoined, BitVec.ofInt_add, ← ih]
      rfl
    | apStaDisconnected =>
      have hjoined : joined (events ++ [.apStaDisconnected]) = joined events - 1 := by
        simp [joined]
        omega
      have hminus : BitVec.ofInt 8 (-1) = -1#8 := by decide
      rw [hjoined, sub_eq_add_neg, BitVec.ofInt_add, ← ih, hminus, ← BitVec.sub_eq_add_neg]
      rfl
    | _ => simpa [joined, handleWifiEvent] using ih

theorem handleWifiEvents_config (config : ApNetworkConfig) (events : List WifiEvent) :
    (events.foldl handleWifiEvent (new config)).config = config := by
  induction events using List.reverseRecOn with
  | nil => rfl
  | append_singleton events e ih =>
    rw [List.foldl_concat]
    cases e <;> exact ih

/-! ## Waiting -/

section

variable {τ : Type} [DecidableEq τ]

/-- the network, its mutex and the tasks that use it -/
abbrev System (τ : Type) := CondLoop.World τ ApNetwork WifiEvent

/-- **Waiting for the access point.** For every interleaving of events with any number of waiting tasks, timeouts and
notifications from elsewhere: a wait that does not expire returns the status of the last start or stop before it, and one
that expires returns an error. Once there has been a start or a stop, every task that waits can take its next two steps
and returns the status of the last one, and a new wait returns it at once. -/
theorem wait_law (config : ApNetworkConfig) (es : List (CondLoop.Event τ WifiEvent)) (w : System τ)
    (h : exec (step guard) (.start (new config)) es = some w) :
    (∀ before after task expired code, w.log = before ++ .returned task expired code :: after →
      if expired = true then code = .error else lastCode (updates before) = some code) ∧
    ∀ code, lastCode (updates w.log) = some code → ∀ task,
      (w.place task = .waiting → ∃ w', exec (step guard) w [.wake task, .relock task] = some w' ∧
        w'.place task = .outside ∧ w'.log = w.log ++ [.returned task false code]) ∧
      (w.place task = .outside → step guard w (.call task) = some (w.leave task false code)) := by
  have hw : Inv guard (new config) w := exec_step_inv rfl es w h
  refine ⟨?_, ?_⟩
  · intro before after task expired code hlog
    have hresult := returns_result hw hlog
    rwa [← handleWifiEvents_code config]
  · intro code hcode task
    have hready : guard.ready w.value = some code := by
      rw [hw.value, ← hcode]
      exact handleWifiEvents_code config _
    exact ⟨fun hplace => returns_when_ready hw hready hplace, fun hplace => call_when_ready hready hplace⟩

/-- **The information about the network** is that of its configuration, with the number of stations that have joined and
not left, as long as it fits a byte. -/
theorem info_law (config : ApNetworkConfig) (es : List (CondLoop.Event τ WifiEvent)) (w : System τ)
    (h : exec (step guard) (.start (new config)) es = some w) (hlow : 0 ≤ joined (updates w.log))
    (hhigh : joined (updates w.log) < 256) :
    w.value.getInfo.channel = config.settings.channel ∧ w.value.getInfo.maxConnection = config.settings.maxConn ∧
      (w.value.getInfo.curConnection.toNat : ℤ) = joined (updates w.log) := by
  have hw : Inv guard (new config) w := exec_step_inv rfl es w h
  have hvalue : w.value = (updates w.log).foldl handleWifiEvent (new config) := hw.value
  have hconfig := handleWifiEvents_config config (updates w.log)
  have hcount := handleWifiEvents_count config (updates w.log)
  simp only [getInfo, hvalue, hconfig, hcount, true_and]
  rw [BitVec.toNat_ofInt]
  omega

end

def exampleAp : ApNetworkConfig := ⟨.ofString "control-01", ⟨.ofString "control-01", 1, 4⟩⟩

/-- a task waits, is woken by a notification from elsewhere and goes on waiting until the access point is up -/
def exampleEvents : List (CondLoop.Event ℕ WifiEvent) :=
  [.call 0, .give 0, .wake 0, .relock 0, .update .apStaConnected, .update .apStart]

def exampleEnd : System ℕ := (exec (step guard) (.start (new exampleAp)) exampleEvents).get (by decide)

theorem wait_law_example : exampleEnd.place 0 = .waiting ∧
    ∃ w', exec (step guard) exampleEnd [.wake 0, .relock 0] = some w' ∧ w'.place 0 = .outside ∧
      w'.log = exampleEnd.log ++ [.returned 0 false .ok] := by
  have h := (wait_law exampleAp exampleEvents exampleEnd (Option.some_get _).symm).2 .ok (by decide) 0
  exact ⟨by decide, h.1 (by decide)⟩

end ApNetwork

end ControlComponents.Net
