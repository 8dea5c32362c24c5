/-
`StaNetwork` (`ocs_net`): the connection to an access point, driven by the events of the WiFi driver.

The handler of a lost connection retries a bounded number of times and then sets the FAILED bit, which is never cleared;
the one of a new address sets the CONNECTED bit. `wait` blocks until one of the two bits is set or its time is over. A
call of `esp_wifi_connect` that the driver refuses is logged only. The handler of an event is one step.

- `wait_law_iff`: `wait` returns what the bits say unless its time is over before any of them is set.
  `wait_aborts` is a call that fails its assertion.
- `never_idle_iff`: without a bit, a connection attempt is under way, iff the driver accepts the attempts that matter.
  `refused_start_idle` is a start that leaves no attempt.
-/
import ControlComponents.Core.EventGroup
import ControlComponents.Lib.Runs
import ControlComponents.Net.NetworkConfig

namespace ControlComponents.Net

open ControlComponents.Core ControlComponents.Lib.Runs

/-! ## Model -/

/-- `TickType_t` of FreeRTOS -/
abbrev TickType := BitVec 32

/-- `portMAX_DELAY`: wait without a limit -/
def portMaxDelay : TickType := 0xffffffff

def eventBitConnected : EventBits := 1#32

def eventBitFailed : EventBits := 2#32

/-- the constructor asserts that the configuration is valid -/
structure StaNetwork where
  config : {c : StaSettings // StaNetworkConfig.valid c = true}
  eventGroup : EventBits
  /-- `unsigned` -/
  retryCount : ℕ

namespace StaNetwork

def new (config : {c : StaSettings // StaNetworkConfig.valid c = true}) : StaNetwork := ⟨config, 0, 0⟩

def maxRetryCount (n : StaNetwork) : ℕ := n.config.1.maxRetryCount.toNat

def connected (n : StaNetwork) : Bool := hasBits n.eventGroup eventBitConnected

def failed (n : StaNetwork) : Bool := hasBits n.eventGroup eventBitFailed

/-- what is delivered to the network, and what it calls -/
inductive Entry where
  /-- `esp_wifi_connect` on `WIFI_EVENT_STA_START` -/
  | start (accepted : Bool)
  /-- `esp_wifi_connect` on `WIFI_EVENT_STA_DISCONNECTED` -/
  | retry (accepted : Bool)
  | disconnected
  | gotIp
  | handleConnect
  | handleDisconnect

structure World where
  network : StaNetwork
  log : List Entry

/-- the events, with the answer of the driver to the attempt that their handler may make -/
inductive Event where
  | staStart (accepted : Bool)
  | staDisconnected (accepted : Bool)
  | gotIp
  /-- one that no handler is interested in -/
  | other

def World.start (config : {c : StaSettings // StaNetworkConfig.valid c = true}) : World := ⟨.new config, []⟩

def handleWifiEventStaStart (w : World) (accepted : Bool) : World := { w with log := w.log ++ [.start accepted] }

def handleWifiEventStaDisconnected (w : World) (accepted : Bool) : World :=
  let n := { w.network with eventGroup := clearBits w.network.eventGroup eventBitConnected }
  if n.retryCount < n.maxRetryCount then
    ⟨{ n with retryCount := n.retryCount + 1 }, w.log ++ [.disconnected, .retry accepted, .handleDisconnect]⟩
  else
    ⟨{ n with eventGroup := setBits n.eventGroup eventBitFailed }, w.log ++ [.disconnected, .handleDisconnect]⟩

def handleIpEventStaGotIp (w : World) : World :=
  ⟨{ w.network with retryCount := 0, eventGroup := setBits w.network.eventGroup eventBitConnected },
    w.log ++ [.gotIp, .handleConnect]⟩

def step (w : World) : Event → World
  | .staStart accepted => handleWifiEventStaStart w accepted
  | .staDisconnected accepted => handleWifiEventStaDisconnected w accepted
  | .gotIp => handleIpEventStaGotIp w
  | .other => w

/-- one of the bits that `wait` waits for is set -/
def decided (n : StaNetwork) : Bool := hasBits n.eventGroup (eventBitConnected ||| eventBitFailed)

/-- `xEventGroupWaitBits`: the bits in the end; `none` while it is blocked. The events are those that are delivered before
the time is over. -/
def waitBits (w : World) (ticks : TickType) : List Event → Option (EventBits × World)
  | [] => if !w.network.decided && decide (ticks = portMaxDelay) then none else some (w.network.eventGroup, w)
  | e :: during => if w.network.decided then some (w.network.eventGroup, w) else waitBits (step w e) ticks during

/-- the status for the bits; `none` where the assertion fails -/
def waitCode (bits : EventBits) : Option StatusCode :=
  if hasBits bits eventBitConnected then some .ok
  else if hasBits bits eventBitFailed then some .error
  else none

def wait (w : World) (ticks : TickType) (during : List Event) : Option (Option StatusCode × World) :=
  (waitBits w ticks during).map fun (bits, w) => (waitCode bits, w)

/-! ## The bits -/

theorem decided_eq (n : StaNetwork) : n.decided = (n.connected || n.failed) := hasBits_or _ _ _

section

variable (w : World) (accepted : Bool)

theorem disconnected_retry (h : w.network.retryCount < w.network.maxRetryCount) :
    (step w (.staDisconnected accepted)).network.connected = false ∧
      (step w (.staDisconnected accepted)).network.failed = w.network.failed ∧
      (step w (.staDisconnected accepted)).network.retryCount = w.network.retryCount + 1 ∧
      (step w (.staDisconnected accepted)).log = w.log ++ [.disconnected, .retry accepted, .handleDisconnect] := by
  have hstep : step w (.staDisconnected accepted) =
      ⟨⟨w.network.config, clearBits w.network.eventGroup eventBitConnected, w.network.retryCount + 1⟩,
        w.log ++ [.disconnected, .retry accepted, .handleDisconnect]⟩ := if_pos h
  rw [hstep]
  exact ⟨hasBits_clearBits_self _ _, hasBits_clearBits (by decide), rfl, rfl⟩

theorem disconnected_fail (h : w.network.maxRetryCount ≤ w.network.retryCount) :
    (step w (.staDisconnected accepted)).network.connected = false ∧
      (step w (.staDisconnected accepted)).network.failed = true ∧
      (step w (.staDisconnected accepted)).network.retryCount = w.network.retryCount ∧
      (step w (.staDisconnected accepted)).log = w.log ++ [.disconnected, .handleDisconnect] := by
  have hstep : step w (.staDisconnected accepted) =
      ⟨⟨w.network.config, setBits (clearBits w.network.eventGroup eventBitConnected) eventBitFailed,
        w.network.retryCount⟩, w.log ++ [.disconnected, .handleDisconnect]⟩ := if_neg (Nat.not_lt.2 h)
  rw [hstep]
  refine ⟨?_, hasBits_setBits_self (by decide), rfl, rfl⟩
  calc hasBits (setBits (clearBits w.network.eventGroup eventBitConnected) eventBitFailed) eventBitConnected
      = hasBits (clearBits w.network.eventGroup eventBitConnected) eventBitConnected := hasBits_setBits (by decide)
    _ = false := hasBits_clearBits_self _ _

theorem gotIp_connected : (step w .gotIp).network.connected = true ∧
    (step w .gotIp).network.failed = w.network.failed :=
  ⟨hasBits_setBits_self (by decide), hasBits_setBits (by decide)⟩

end

theorem step_maxRetryCount (w : World) (e : Event) : (step w e).network.maxRetryCount = w.network.maxRetryCount := by
  cases e with
  | staDisconnected accepted =>
    simp only [step, handleWifiEventStaDisconnected]
    split_ifs <;> rfl
  | _ => rfl

/-! ## Waiting -/

def IsDisconnected : Event → Bool
  | .staDisconnected _ => true
  | _ => false

/-- a bit is set at the call or before the time is over: by a new address, or by more lost connections than retries left -/
def Decides (w : World) (ticks : TickType) (during : List Event) : Prop :=
  ticks = portMaxDelay ∨ w.network.connected = true ∨ w.network.failed = true ∨ .gotIp ∈ during ∨
    w.network.maxRetryCount - w.network.retryCount < during.countP IsDisconnected

/-- what `wait` returns, if it does: OK for a connection, a failure otherwise -/
def WaitLaw (result : Option (Option StatusCode × World)) : Prop :=
  ∀ code w, result = some (code, w) → ∃ c, code = some c ∧ (c = .ok ↔ w.network.connected = true) ∧
    (w.network.connected = false → c.IsError)

theorem waitBits_of_decided {w : World} (h : w.network.decided = true) (ticks : TickType) (during : List Event) :
    waitBits w ticks during = some (w.network.eventGroup, w) := by
  cases during with
  | nil => simp [waitBits, h]
  | cons e during => rw [waitBits, if_pos h]

/-- a wait gives the bits of the world in which it ends -/
theorem waitBits_eq {ticks : TickType} {during : List Event} {w w' : World} {bits : EventBits}
    (h : waitBits w ticks during = some (bits, w')) : bits = w'.network.eventGroup := by
  induction during generalizing w with
  | nil =>
    simp only [waitBits] at h
    split_ifs at h
    obtain ⟨rfl, rfl⟩ := Prod.mk.inj (Option.some.inj h)
    rfl
  | cons e during ih =>
    simp only [waitBits] at h
    split_ifs at h
    · obtain ⟨rfl, rfl⟩ := Prod.mk.inj (Option.some.inj h)
      rfl
    · exact ih h

/-- the result is right exactly when a bit is set in the end -/
theorem waitLaw_wait_iff (w : World) (ticks : TickType) (during : List Event) :
    WaitLaw (wait w ticks during) ↔
      ∀ bits w', waitBits w ticks during = some (bits, w') → w'.network.decided = true := by
  have hcode (w' : World) : (∃ c, waitCode w'.network.eventGroup = some c ∧ (c = .ok ↔ w'.network.connected = true) ∧
      (w'.network.connected = false → c.IsError)) ↔ w'.network.decided = true := by
    have hwait : waitCode w'.network.eventGroup =
        if w'.network.connected then some .ok else if w'.network.failed then some .error else none := rfl
    rw [decided_eq, hwait]
    cases w'.network.connected with
    | true => simp
    | false =>
      cases w'.network.failed with
      | true => simp [StatusCode.IsError]
      | false => simp
  unfold WaitLaw wait
  refine ⟨fun h bits w' hbits => ?_, fun h code w' hcode' => ?_⟩
  · have heq := waitBits_eq hbits
    subst heq
    exact (hcode w').1 (h _ w' (by rw [hbits]; rfl))
  · obtain ⟨⟨bits, w''⟩, hbits, hpair⟩ := Option.map_eq_some_iff.1 hcode'
    obtain ⟨rfl, rfl⟩ := Prod.mk.inj hpair
    have heq := waitBits_eq hbits
    subst heq
    exact (hcode w'').2 (h _ _ hbits)

/-- a wait that starts without a bit -/
theorem waitBits_undecided (ticks : TickType) (during : List Event) {w : World} (hw : w.network.decided = false) :
    (∀ bits w', waitBits w ticks during = some (bits, w') → w'.network.decided = true) ↔
      ticks = portMaxDelay ∨ .gotIp ∈ during ∨
        w.network.maxRetryCount - w.network.retryCount < during.countP IsDisconnected := by
  induction during generalizing w with
  | nil =>
    by_cases hticks : ticks = portMaxDelay
    · simp [waitBits, hw, hticks]
    · simp [waitBits, hw, hticks]
  | cons e during ih =>
    have hwait : waitBits w ticks (e :: during) = waitBits (step w e) ticks during := by
      rw [waitBits, if_neg (by rw [hw]; exact Bool.false_ne_true)]
    -- where the event sets a bit, the wait ends with it
    have hends (h : (step w e).network.decided = true) :
        ∀ bits w', waitBits (step w e) ticks during = some (bits, w') → w'.network.decided = true := by
      intro bits w' hbits
      rw [waitBits_of_decided h] at hbits
      obtain ⟨-, rfl⟩ := Prod.mk.inj (Option.some.inj hbits)
      exact h
    rw [hwait]
    cases e with
    | staStart accepted =>
      rw [ih (w := step w (.staStart accepted)) hw]
      simp [IsDisconnected, step, handleWifiEventStaStart]
    | other =>
      rw [ih (w := step w .other) hw]
      simp [IsDisconnected, step]
    | gotIp =>
      refine iff_of_true (hends ?_) (Or.inr (Or.inl List.mem_cons_self))
      rw [decided_eq, (gotIp_connected w).1, Bool.true_or]
    | staDisconnected accepted =>
      have hcount : (Event.staDisconnected accepted :: during).countP IsDisconnected =
          during.countP IsDisconnected + 1 := List.countP_cons_of_pos rfl
      have hmem : Event.gotIp ∈ Event.staDisconnected accepted :: during ↔ .gotIp ∈ during := by simp
      rw [hcount, hmem]
      rcases Nat.lt_or_ge w.network.retryCount w.network.maxRetryCount with hlt | hge
      · obtain ⟨hconn, hfailed, hretry, -⟩ := disconnected_retry w accepted hlt
        have hundecided : (step w (.staDisconnected accepted)).network.decided = false := by
          rw [decided_eq, Bool.or_eq_false_iff] at hw ⊢
          exact ⟨hconn, hfailed.trans hw.2⟩
        rw [ih hundecided, step_maxRetryCount, hretry]
        refine or_congr_right (or_congr_right ?_)
        omega
      · refine iff_of_true (hends ?_) (Or.inr (Or.inr ?_))
        · rw [decided_eq, (disconnected_fail w accepted hge).2.1, Bool.or_true]
        · omega

/-- **Waiting for the network.** For all events before and during the wait and every timeout: the result is as it should
be iff one of the bits is set before the time is over. -/
theorem wait_law_iff (config : {c : StaSettings // StaNetworkConfig.valid c = true}) (before during : List Event)
    (ticks : TickType) :
    let w := run step (.start config) before
    WaitLaw (wait w ticks during) ↔ Decides w ticks during := by
  intro w
  rw [waitLaw_wait_iff, Decides]
  cases hw : w.network.decided with
  | true =>
    rw [decided_eq, Bool.or_eq_true] at hw
    refine iff_of_true ?_ (Or.inr (hw.elim Or.inl fun h => Or.inr (Or.inl h)))
    intro bits w' hbits
    rw [← Bool.or_eq_true, ← decided_eq] at hw
    rw [waitBits_of_decided hw] at hbits
    obtain ⟨-, rfl⟩ := Prod.mk.inj (Option.some.inj hbits)
    exact hw
  | false =>
    rw [waitBits_undecided ticks during hw]
    rw [decided_eq, Bool.or_eq_false_iff] at hw
    simp [hw.1, hw.2]

def exampleConfig : {c : StaSettings // StaNetworkConfig.valid c = true} :=
  ⟨⟨1, .ofString "net", .ofString "password"⟩, by decide⟩

def WaitNeverAborts : Prop :=
  ∀ config (before during : List Event) (ticks : TickType),
    WaitLaw (wait (run step (.start config) before) ticks during)

/-- **A wait aborts.** The connection is lost once and retried, and the time is over before anything else happens. -/
theorem wait_aborts : ¬ WaitNeverAborts ∧
    (wait (.start exampleConfig) 1000 [.staStart true, .staDisconnected true]).map Prod.fst = some none := by
  refine ⟨fun h => ?_, by decide⟩
  obtain ⟨code, hcode, -⟩ := h exampleConfig [] [.staStart true, .staDisconnected true] 1000 none _ rfl
  cases hcode

/-! ## Attempts -/

/-- the network has been started -/
def started (log : List Entry) : Bool :=
  log.any fun e =>
    match e with
    | .start _ => true
    | _ => false

/-- the driver has accepted the last attempt, and neither of the two events that end one has come since -/
def attempting (log : List Entry) : Bool :=
  log.foldl (fun pending e =>
    match e with
    | .start accepted => accepted
    | .retry accepted => accepted
    | .disconnected => false
    | .gotIp => false
    | _ => pending) false

/-- the retries since the last new address -/
def retries (log : List Entry) : ℕ :=
  log.foldl (fun n e =>
    match e with
    | .gotIp => 0
    | .retry _ => n + 1
    | _ => n) 0

/-- a network that has been started and has no bit set is attempting to connect -/
def NotIdle (w : World) : Prop :=
  started w.log = true → w.network.connected = false → w.network.failed = false → attempting w.log = true

/-- the driver accepts the attempt of the handler, unless a bit stays set or the network has not been started -/
def Accepted (w : World) : Event → Prop
  | .staStart accepted => accepted = true ∨ w.network.connected = true ∨ w.network.failed = true
  | .staDisconnected accepted => accepted = true ∨ w.network.failed = true ∨ started w.log = false ∨
      w.network.maxRetryCount ≤ w.network.retryCount
  | _ => True

/-- FAILED is set by a lost connection after all retries -/
def FailsAfterRetries (w : World) (e : Event) : Prop :=
  (step w e).network.failed = true ↔ w.network.failed = true ∨
    (IsDisconnected e = true ∧ retries w.log = w.network.maxRetryCount)

/-- the retries are counted -/
structure Inv (w : World) : Prop where
  counted : w.network.retryCount = retries w.log
  le : w.network.retryCount ≤ w.network.maxRetryCount

theorem start_inv (config : {c : StaSettings // StaNetworkConfig.valid c = true}) : Inv (.start config) :=
  ⟨rfl, Nat.zero_le _⟩

theorem step_inv (w : World) (e : Event) (hw : Inv w) : Inv (step w e) := by
  cases e with
  | staStart accepted =>
    refine ⟨?_, hw.le⟩
    simp only [step, handleWifiEventStaStart, retries, List.foldl_append, List.foldl_cons, List.foldl_nil]
    exact hw.counted
  | other => exact hw
  | gotIp =>
    refine ⟨?_, Nat.zero_le _⟩
    simp [step, handleIpEventStaGotIp, retries]
  | staDisconnected accepted =>
    have hmax := step_maxRetryCount w (.staDisconnected accepted)
    rcases Nat.lt_or_ge w.network.retryCount w.network.maxRetryCount with hlt | hge
    · obtain ⟨-, -, hretry, hlog⟩ := disconnected_retry w accepted hlt
      refine ⟨?_, ?_⟩
      · rw [hretry, hlog, hw.counted]
        simp [retries]
      · rw [hretry, hmax]
        exact hlt
    · obtain ⟨-, -, hretry, hlog⟩ := disconnected_fail w accepted hge
      refine ⟨?_, ?_⟩
      · rw [hretry, hlog, hw.counted]
        simp [retries]
      · rw [hretry, hmax]
        exact hw.le

/-- what an event leaves -/
theorem notIdle_step_iff (w : World) (e : Event) (hw : NotIdle w) : NotIdle (step w e) ↔ Accepted w e := by
  cases e with
  | staStart accepted =>
    have hstarted : started (step w (.staStart accepted)).log = true := by
      simp [step, handleWifiEventStaStart, started]
    have hattempting : attempting (step w (.staStart accepted)).log = accepted := by
      simp [step, handleWifiEventStaStart, attempting]
    have hnetwork : (step w (.staStart accepted)).network = w.network := rfl
    rw [NotIdle, hstarted, hattempting, hnetwork, Accepted]
    cases w.network.connected <;> cases w.network.failed <;> simp
  | other => exact iff_of_true hw trivial
  | gotIp =>
    refine iff_of_true ?_ trivial
    intro _ hconn
    rw [(gotIp_connected w).1] at hconn
    cases hconn
  | staDisconnected accepted =>
    rcases Nat.lt_or_ge w.network.retryCount w.network.maxRetryCount with hlt | hge
    · obtain ⟨hconn, hfailed, -, hlog⟩ := disconnected_retry w accepted hlt
      have hstarted : started (step w (.staDisconnected accepted)).log = started w.log := by
        rw [hlog]
        simp [started]
      have hattempting : attempting (step w (.staDisconnected accepted)).log = accepted := by
        rw [hlog]
        simp [attempting]
      rw [NotIdle, hstarted, hattempting, hconn, hfailed, Accepted]
      cases started w.log <;> cases w.network.failed <;> simp [Nat.not_le.2 hlt]
    · refine iff_of_true ?_ (Or.inr (Or.inr (Or.inr hge)))
      intro _ _ hfailed
      rw [(disconnected_fail w accepted hge).2.1] at hfailed
      cases hfailed

theorem failsAfterRetries {w : World} (hw : Inv w) (e : Event) : FailsAfterRetries w e := by
  unfold FailsAfterRetries
  cases e with
  | staStart accepted => simp [step, handleWifiEventStaStart, IsDisconnected]
  | other => simp [step, IsDisconnected]
  | gotIp =>
    rw [(gotIp_connected w).2]
    simp [IsDisconnected]
  | staDisconnected accepted =>
    rw [← hw.counted]
    rcases Nat.lt_or_ge w.network.retryCount w.network.maxRetryCount with hlt | hge
    · rw [(disconnected_retry w accepted hlt).2.1]
      simp [hlt.ne]
    · refine iff_of_true (disconnected_fail w accepted hge).2.1 (Or.inr ⟨rfl, hw.le.antisymm hge⟩)

/-- **Never silently idle.** For all events and all answers of the driver: a network that has been started and has no bit
set is attempting to connect in every state, iff the driver accepts every attempt without which it would not. FAILED is
set by the lost connection that comes after all retries since the last new address, and by nothing else. -/
theorem never_idle_iff (config : {c : StaSettings // StaNetworkConfig.valid c = true}) (es : List Event) :
    (Guarded step (fun w e => NotIdle (step w e)) (.start config) es ↔ Guarded step Accepted (.start config) es) ∧
      ∀ e, FailsAfterRetries (run step (.start config) es) e := by
  refine ⟨?_, ?_⟩
  · have hstart : NotIdle (.start config) := fun h => by cases h
    have hkeep (w : World) (e : Event) (_ : NotIdle w) (h : NotIdle (step w e)) : NotIdle (step w e) := h
    exact guarded_congr hkeep notIdle_step_iff hstart es
  · have hw : Inv (run step (.start config) es) := run_preserves step_inv (start_inv config) es
    exact failsAfterRetries hw

def NeverIdle : Prop :=
  ∀ config (es : List Event), Guarded step (fun w e => NotIdle (step w e)) (.start config) es

/-- **A refused start.** The driver refuses the first attempt: no bit is set, and no event will come. -/
theorem refused_start_idle : ¬ NeverIdle ∧
    (let w := run step (.start exampleConfig) [.staStart false]
     w.network.connected = false ∧ w.network.failed = false ∧ attempting w.log = false) := by
  refine ⟨fun h => ?_, by decide⟩
  have hidle := (h exampleConfig [.staStart false]).1 (by decide) (by decide) (by decide)
  revert hidle
  decide

end StaNetwork

end ControlComponents.Net
