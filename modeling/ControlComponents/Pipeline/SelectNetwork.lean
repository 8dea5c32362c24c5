/-
The network of the device over its restarts: `SelectNetworkPipeline` (`ocs_pipeline/basic`), `ResetNetworkRunner`
(`ocs_net`) and the HTTP handlers of the two configurations.

At a boot the device becomes a station if a station configuration is stored, and an access point otherwise. A network that
does not come up has its configuration erased, and the device restarts. In between, requests change what is stored; they
take effect at the next boot. The device may restart at any time.

- `update_store`: a request makes one call on the configuration of its handler, or none.
- `stores_step`: whatever is stored, has been accepted.
- `driver_settings_accepted`: the WiFi driver only ever gets settings within the limits.
- `falls_back`: after a station that did not come up, the device is a station again only once it has got a new
  configuration.
-/
import ControlComponents.Lib.Histories
import ControlComponents.Lib.Runs
import ControlComponents.Net.StoredSettings
import ControlComponents.Net.WaitNetworkRunner
import ControlComponents.Pipeline.ConfigHandlers

namespace ControlComponents.Pipeline.Basic

open ControlComponents.Algo ControlComponents.Http ControlComponents.Lib ControlComponents.Lib.KeyedWrites
open ControlComponents.Lib.Histories ControlComponents.Lib.LittleEndian ControlComponents.Lib.Runs
open ControlComponents.Net ControlComponents.Pipeline.Httpserver ControlComponents.Storage

/-! ## Model -/

/-- what is built into the firmware, with the rate of the ticks -/
structure Firmware where
  ap : ApBuildConfig
  device : DeviceInfo
  tickRateHz : ℕ

/-- the storages `sta_config_storage_id_` and `ap_config_storage_id_` -/
structure Flash where
  sta : Store
  ap : Store

/-- the calls on them that fail -/
structure FlashFaults where
  sta : Faults
  ap : Faults

/-- the network that is selected, with the configuration it is constructed with; that of a station is asserted to be
valid -/
inductive Network where
  | sta (config : {c : StaSettings // StaNetworkConfig.valid c = true})
  | ap (config : ApNetworkConfig)
deriving DecidableEq

structure SelectNetworkPipeline where
  staConfig : StaSettings
  network : Network
  waitRunner : WaitNetworkRunner.World

namespace SelectNetworkPipeline

/-- ten minutes -/
def waitStartInterval (fw : Firmware) : TickType := BitVec.ofNat 32 (1000 * 60 * 10 * fw.tickRateHz / 1000)

/-- the constructor -/
def new (fw : Firmware) (faults : FlashFaults) (flash : Flash) : SelectNetworkPipeline :=
  let staConfig := StaNetworkConfig.init faults.sta flash.sta
  let network : Network :=
    if h : StaNetworkConfig.valid staConfig = true then .sta ⟨staConfig, h⟩
    else .ap (ApNetworkConfig.init fw.ap fw.device faults.ap flash.ap)
  ⟨staConfig, network, .new (waitStartInterval fw)⟩

def getApConfig (p : SelectNetworkPipeline) : Option ApNetworkConfig :=
  match p.network with
  | .sta _ => none
  | .ap config => some config

end SelectNetworkPipeline

/-- `INetworkConfig::reset` of the configuration of a network -/
def Network.reset (faults : FlashFaults) (flash : Flash) : Network → StatusCode × Flash
  | .sta _ =>
    let (code, store) := StaNetworkConfig.reset faults.sta flash.sta
    (code, { flash with sta := store })
  | .ap _ =>
    let (code, store) := ApNetworkConfig.reset faults.ap flash.ap
    (code, { flash with ap := store })

/-- what a start of `ResetNetworkRunner` comes to; `reset` is the status of the erased configuration, and then the device
restarts -/
structure Started where
  code : StatusCode
  runner : WaitNetworkRunner.World
  reset : Option StatusCode
  flash : Flash

def ResetNetworkRunner.start (network : Network) (runner : WaitNetworkRunner.World)
    (results : WaitNetworkRunner.Results) (faults : FlashFaults) (flash : Flash) : Started :=
  let (code, runner) := WaitNetworkRunner.start runner results
  if code ≠ .ok then
    let (reset, flash) := network.reset faults flash
    ⟨code, runner, some reset, flash⟩
  else ⟨code, runner, none, flash⟩

/-- what has happened to the device -/
inductive Entry where
  /-- a boot, with what the start of the network came to, if it returned -/
  | started (network : Network) (result : Option (StatusCode × Option StatusCode))
  /-- a call on the station configuration for a request, with its result -/
  | staUpdated (code : StatusCode)
  /-- the same for the access point -/
  | apUpdated (code : StatusCode)
deriving DecidableEq

/-- the storages, the running pipeline, and the history -/
structure Device where
  flash : Flash
  session : Option SelectNetworkPipeline
  log : List Entry

def Device.new (flash : Flash) : Device := ⟨flash, none, []⟩

inductive Event where
  /-- the device starts, whatever it has been doing; the start of the network may end in an assertion or a power cut -/
  | boot (faults : FlashFaults) (results : Option WaitNetworkRunner.Results)
  | staRequest (env : Env) (uri : Uri)
  | apRequest (env : Env) (uri : Uri)

def boot (fw : Firmware) (d : Device) (faults : FlashFaults) (results : Option WaitNetworkRunner.Results) : Device :=
  let p := SelectNetworkPipeline.new fw faults d.flash
  match results with
  | none => ⟨d.flash, none, d.log ++ [.started p.network none]⟩
  | some results =>
    let started := ResetNetworkRunner.start p.network p.waitRunner results faults d.flash
    ⟨started.flash, if started.reset.isSome then none else some { p with waitRunner := started.runner },
      d.log ++ [.started p.network (some (started.code, started.reset))]⟩

/-- the device restarts when its reboot task is run -/
def served (d : Device) (flash : Flash) (o : Httpserver.Outcome) (entry : StatusCode → Entry) : Device :=
  ⟨flash, if o.rebooted then none else d.session, d.log ++ o.config.toList.map entry⟩

def step (fw : Firmware) (d : Device) : Event → Device
  | .boot faults results => boot fw d faults results
  | .staRequest env uri =>
    let outcome := do
      let p ← d.session
      StaNetworkHandler.serveHttp env p.staConfig d.flash.sta uri .new
    match outcome with
    | none => d
    | some o => served d { d.flash with sta := o.store } o .staUpdated
  | .apRequest env uri =>
    let outcome := do
      let p ← d.session
      let config ← p.getApConfig
      ApNetworkHandler.serveHttp env config d.flash.ap uri .new
    match outcome with
    | none => d
    | some o => served d { d.flash with ap := o.store } o .apUpdated

/-! ## Requests -/

/-- **What a request stores.** It makes one call on the configuration, or none and changes nothing. -/
theorem update_store {α : Type} {env : Env} {parsed : Parse (Update α)} {make : Update α → StatusCode × Store}
    {s : Store} {o : Httpserver.Outcome} (h : update env parsed make s .new = some o) :
    (o.config = none ∧ o.store = s) ∨ ∃ u, o.config = some (make u).1 ∧ o.store = (make u).2 := by
  obtain ⟨r, -, rfl⟩ := Option.map_eq_some_iff.1 h
  cases r with
  | error e => exact .inl ⟨rfl, rfl⟩
  | ok u =>
    refine .inr ⟨u, ?_⟩
    simp only
    rcases finishUpdate_cases env (make u) with ⟨-, hres⟩ | ⟨-, req, -, -, hres⟩
    · rw [hres]
      exact ⟨rfl, rfl⟩
    · rw [hres]
      exact ⟨rfl, rfl⟩

/-- the same for a handler that serves a query without values in another way -/
theorem serve_store {α : Type} {env : Env} {uri : Uri} {parse : Values → Parse (Update α)}
    {make : Update α → StatusCode × Store} {s : Store} {get o : Httpserver.Outcome}
    (hget : get.config = none ∧ get.store = s)
    (h : ((parseQuery (uri.strlen + 1) uri).bind fun values =>
      if values = [] then some get else update env (parse values) make s .new) = some o) :
    (o.config = none ∧ o.store = s) ∨ ∃ u, o.config = some (make u).1 ∧ o.store = (make u).2 := by
  rcases serve_cases h with rfl | ⟨values, hupdate⟩
  · exact .inl hget
  · exact update_store hupdate

theorem staServe_store {env : Env} {config : StaSettings} {s : Store} {uri : Uri} {o : Httpserver.Outcome}
    (h : StaNetworkHandler.serveHttp env config s uri .new = some o) :
    (o.config = none ∧ o.store = s) ∨ ∃ u,
      o.config = some (StaNetworkHandler.make config env.faults s u).1 ∧
        o.store = (StaNetworkHandler.make config env.faults s u).2 := by
  refine serve_store ?_ h
  unfold Httpserver.StaNetworkHandler.handleGet
  split_ifs
  · exact ⟨rfl, rfl⟩
  · exact ⟨rfl, rfl⟩

theorem apServe_store {env : Env} {config : ApNetworkConfig} {s : Store} {uri : Uri} {o : Httpserver.Outcome}
    (h : ApNetworkHandler.serveHttp env config s uri .new = some o) :
    (o.config = none ∧ o.store = s) ∨ ∃ u,
      o.config = some (ApNetworkHandler.make config env.faults s u).1 ∧
        o.store = (ApNetworkHandler.make config env.faults s u).2 :=
  serve_store ⟨rfl, rfl⟩ h

/-! ## The settings of the driver -/

/-- the settings are within the limits of the configuration of the network -/
def Network.Accepted : Network → Prop
  | .sta config => StaNetworkConfig.accepts config.1 = true
  | .ap config =>
    config.ssid.strlen ≤ ApNetworkConfig.maxSsidLen ∧ ApNetworkConfig.accepts config.settings = true

/-- what is stored has been accepted by the configurations -/
structure Flash.Accepted (flash : Flash) : Prop where
  sta : Keeps (Net.Accepted StaNetworkConfig.accepts StaNetworkConfig.blocks) flash.sta
  ap : Keeps (Net.Accepted ApNetworkConfig.accepts ApNetworkConfig.blocks) flash.ap

theorem Network.reset_accepted {flash : Flash} (h : flash.Accepted) (faults : FlashFaults) (network : Network) :
    (network.reset faults flash).2.Accepted := by
  cases network with
  | sta config => exact ⟨keeps_eraseAll h.sta faults.sta, h.ap⟩
  | ap config => exact ⟨h.sta, keeps_eraseAll h.ap faults.ap⟩

theorem start_accepted {flash : Flash} (h : flash.Accepted) (network : Network) (runner : WaitNetworkRunner.World)
    (results : WaitNetworkRunner.Results) (faults : FlashFaults) :
    (ResetNetworkRunner.start network runner results faults flash).flash.Accepted := by
  unfold ResetNetworkRunner.start
  simp only
  split_ifs
  · exact network.reset_accepted h faults
  · exact h

theorem new_accepted {fw : Firmware}
    (hdefaults : ApNetworkConfig.accepts (ApNetworkConfig.defaults fw.ap fw.device) = true) {flash : Flash}
    (h : flash.Accepted) (faults : FlashFaults) : (SelectNetworkPipeline.new fw faults flash).network.Accepted := by
  unfold SelectNetworkPipeline.new
  simp only
  split_ifs with hvalid
  · exact StaNetworkConfig.init_accepts h.sta faults.sta hvalid
  · exact ⟨ApNetworkConfig.strlen_builtinSsid_le fw.device, ApNetworkConfig.init_accepts hdefaults h.ap faults.ap⟩

theorem sta_make_keeps {s : Store} (h : Keeps (Net.Accepted StaNetworkConfig.accepts StaNetworkConfig.blocks) s)
    (config : StaSettings) (f : Faults) (u : Update StaSettings) :
    Keeps (Net.Accepted StaNetworkConfig.accepts StaNetworkConfig.blocks)
      (Httpserver.StaNetworkHandler.make config f s u).2 := by
  cases u with
  | reset => exact keeps_eraseAll h f
  | configure settings => exact keeps_configure h f config settings

theorem ap_make_keeps {s : Store} (h : Keeps (Net.Accepted ApNetworkConfig.accepts ApNetworkConfig.blocks) s)
    (config : ApNetworkConfig) (f : Faults) (u : Update ApSettings) :
    Keeps (Net.Accepted ApNetworkConfig.accepts ApNetworkConfig.blocks)
      (Httpserver.ApNetworkHandler.make config f s u).2 := by
  cases u with
  | reset => exact keeps_eraseAll h f
  | configure settings => exact keeps_configure h f config.settings settings

/-- the networks that have been started -/
def Entry.network : Entry → Option Network
  | .started network _ => some network
  | _ => none

structure Inv (d : Device) : Prop where
  flash : d.flash.Accepted
  log : ∀ e ∈ d.log, ∀ network ∈ e.network, network.Accepted

/-- a step stores accepted settings only, and starts networks with accepted settings only -/
theorem step_inv {fw : Firmware}
    (hdefaults : ApNetworkConfig.accepts (ApNetworkConfig.defaults fw.ap fw.device) = true) (d : Device) (e : Event)
    (hd : Inv d) : Inv (step fw d e) := by
  have hserved {flash : Flash} {o : Httpserver.Outcome} {entry : StatusCode → Entry} (hflash : flash.Accepted)
      (hentry : ∀ code, (entry code).network = none) : Inv (served d flash o entry) := by
    refine ⟨hflash, fun e he network hnetwork => ?_⟩
    rcases List.mem_append.1 he with he | he
    · exact hd.log e he network hnetwork
    · obtain ⟨code, -, rfl⟩ := List.mem_map.1 he
      rw [hentry code] at hnetwork
      cases hnetwork
  cases e with
  | boot faults results =>
    have hnetwork := new_accepted hdefaults hd.flash faults
    have hlog (result : Option (StatusCode × Option StatusCode)) :
        ∀ e ∈ d.log ++ [.started (SelectNetworkPipeline.new fw faults d.flash).network result],
          ∀ network ∈ e.network, network.Accepted := by
      intro e he network hmem
      rcases List.mem_append.1 he with he | he
      · exact hd.log e he network hmem
      · rw [List.mem_singleton.1 he] at hmem
        exact Option.mem_some_iff.1 hmem ▸ hnetwork
    cases results with
    | none => exact ⟨hd.flash, hlog none⟩
    | some results => exact ⟨start_accepted hd.flash _ _ results faults, hlog _⟩
  | staRequest env uri =>
    rw [step]
    simp only
    split
    · exact hd
    · next o ho =>
      obtain ⟨p, -, hserve⟩ := Option.bind_eq_some_iff.1 ho
      refine hserved ⟨?_, hd.flash.ap⟩ fun _ => rfl
      rcases staServe_store hserve with ⟨-, hstore⟩ | ⟨u, -, hstore⟩
      · rw [hstore]
        exact hd.flash.sta
      · rw [hstore]
        exact sta_make_keeps hd.flash.sta p.staConfig env.faults u
  | apRequest env uri =>
    rw [step]
    simp only
    split
    · exact hd
    · next o ho =>
      obtain ⟨p, -, hp⟩ := Option.bind_eq_some_iff.1 ho
      obtain ⟨config, -, hserve⟩ := Option.bind_eq_some_iff.1 hp
      refine hserved ⟨hd.flash.sta, ?_⟩ fun _ => rfl
      rcases apServe_store hserve with ⟨-, hstore⟩ | ⟨u, -, hstore⟩
      · rw [hstore]
        exact hd.flash.ap
      · rw [hstore]
        exact ap_make_keeps hd.flash.ap config env.faults u

/-- **The settings of the WiFi driver.** Over the whole life of a device that comes with nothing stored, through restarts
at any time, requests with any URIs, and storage and server calls that fail: every network that is started has settings
within the limits, if the defaults of the access point are. -/
theorem driver_settings_accepted (fw : Firmware)
    (hdefaults : ApNetworkConfig.accepts (ApNetworkConfig.defaults fw.ap fw.device) = true) (es : List Event)
    (network : Network) (result : Option (StatusCode × Option StatusCode))
    (h : .started network result ∈ (run (step fw) (.new ⟨∅, ∅⟩) es).log) : network.Accepted := by
  have hnew : Inv (.new ⟨∅, ∅⟩) := ⟨⟨keeps_empty _, keeps_empty _⟩, fun _ he => by cases he⟩
  exact (run_preserves (step_inv hdefaults) hnew es).log _ h network rfl

def exampleFirmware : Firmware := ⟨⟨1, 4⟩, ⟨.ofString "control", .ofString "0123456789"⟩, 100⟩

def faultlessFlash : FlashFaults := ⟨.none, .none⟩

def homeUri : Uri := .ofString "/api/v1/config/sta?ssid=home&password=password" (by decide)

def homeConfig : {c : StaSettings // StaNetworkConfig.valid c = true} :=
  ⟨⟨5, .ofString "home", .ofString "password"⟩, by decide⟩

/-- an access point becomes a station, which does not come up -/
def exampleLife : List Event :=
  [.boot faultlessFlash (some ⟨.ok, .ok, .ok⟩), .staRequest faultless homeUri,
    .boot faultlessFlash (some ⟨.ok, .error, .ok⟩)]

theorem driver_settings_accepted_example : (Network.sta homeConfig).Accepted :=
  driver_settings_accepted exampleFirmware (ApNetworkConfig.defaults_accepts (by decide) (by decide) (by decide)
    (by decide)) exampleLife (.sta homeConfig) (some (.error, some .ok))
    (by decide +kernel)

/-! ## Falling back -/

/-- a station has not come up, and its configuration has been erased -/
def Entry.erases : Entry → Bool
  | .started (.sta _) (some (_, some .ok)) => true
  | _ => false

/-- a request has modified the station configuration -/
def Entry.configures : Entry → Bool
  | .staUpdated .ok => true
  | _ => false

def Entry.isStation : Entry → Bool
  | .started (.sta _) _ => true
  | _ => false

/-- the configuration of the station has been erased and not modified since -/
def erased (log : List Entry) : Bool := since Entry.erases Entry.configures log

structure FallbackInv (d : Device) : Prop where
  password : erased d.log = true → d.flash.sta.lookup StaNetworkConfig.passwordKey = none
  log : Obeys (fun before e => erased before = true → e.isStation = false) d.log

theorem erased_concat (log : List Entry) {e : Entry} (h : e.erases = false) :
    erased (log ++ [e]) = (!e.configures && erased log) := by
  rw [erased, since_concat, Histories.mark, h]
  cases e.configures <;> rfl

/-- a reset that reports success has erased everything -/
theorem eraseAll_of_ok {f : Faults} {s : Store} (h : (noDataIsNotModified (eraseAll f s)).1 = .ok) :
    (noDataIsNotModified (eraseAll f s)).2 = ∅ := by
  have hstore : (noDataIsNotModified (eraseAll f s)).2 = (eraseAll f s).2 := rfl
  rw [hstore]
  cases hf : f.eraseAll with
  | some e =>
    simp only [noDataIsNotModified, eraseAll, hf] at h
    split_ifs at h
    exact absurd h e.failed
  | none => exact eraseAll_store hf s

/-- no reset brings a key back -/
theorem lookup_eraseAll {s : Store} {key : String} (h : s.lookup key = none) (f : Faults) :
    (noDataIsNotModified (eraseAll f s)).2.lookup key = none := by
  unfold noDataIsNotModified eraseAll
  cases f.eraseAll with
  | some e => exact h
  | none =>
    simp only
    split_ifs
    · exact h
    · exact Finmap.lookup_empty key

theorem sta_make_password {f : Faults} {config : StaSettings} {s : Store} {u : Update StaSettings}
    (hs : s.lookup StaNetworkConfig.passwordKey = none)
    (h : (Httpserver.StaNetworkHandler.make config f s u).1 ≠ .ok) :
    (Httpserver.StaNetworkHandler.make config f s u).2.lookup StaNetworkConfig.passwordKey = none := by
  cases u with
  | reset => exact lookup_eraseAll hs f
  | configure settings => exact StaNetworkConfig.configure_password hs h

/-- a boot without a stored password selects the access point -/
theorem new_ap {fw : Firmware} {faults : FlashFaults} {flash : Flash}
    (h : flash.sta.lookup StaNetworkConfig.passwordKey = none) (result : Option (StatusCode × Option StatusCode)) :
    (Entry.started (SelectNetworkPipeline.new fw faults flash).network result).isStation = false := by
  have hinvalid : ¬ StaNetworkConfig.valid (StaNetworkConfig.init faults.sta flash.sta) = true :=
    fun hvalid => StaNetworkConfig.password_of_valid hvalid h
  have hnetwork : (SelectNetworkPipeline.new fw faults flash).network =
      .ap (ApNetworkConfig.init fw.ap fw.device faults.ap flash.ap) := dif_neg hinvalid
  rw [hnetwork]
  rfl

/-- what a boot leaves of the station configuration: nothing if it has been erased, and no key that was not there -/
theorem start_password {network : Network} {runner : WaitNetworkRunner.World} {results : WaitNetworkRunner.Results}
    {faults : FlashFaults} {flash : Flash} {started : Started}
    (h : ResetNetworkRunner.start network runner results faults flash = started) :
    ((Entry.started network (some (started.code, started.reset))).erases = true → started.flash.sta = ∅) ∧
      (flash.sta.lookup StaNetworkConfig.passwordKey = none →
        started.flash.sta.lookup StaNetworkConfig.passwordKey = none) := by
  subst h
  unfold ResetNetworkRunner.start
  simp only
  split_ifs
  · cases network with
    | sta config =>
      refine ⟨fun herases => ?_, fun hnone => lookup_eraseAll hnone faults.sta⟩
      simp only [Network.reset, StaNetworkConfig.reset] at herases ⊢
      refine eraseAll_of_ok ?_
      revert herases
      cases (noDataIsNotModified (eraseAll faults.sta flash.sta)).1 <;> simp [Entry.erases]
    | ap config => exact ⟨fun herases => (by cases herases), id⟩
  · refine ⟨fun herases => ?_, id⟩
    cases network with
    | sta config => cases herases
    | ap config => cases herases

/-- a boot keeps the rule -/
theorem boot_fallback (fw : Firmware) {d : Device} (hd : FallbackInv d) (faults : FlashFaults)
    (results : Option WaitNetworkRunner.Results) : FallbackInv (boot fw d faults results) := by
  obtain ⟨p, hp⟩ : ∃ p, SelectNetworkPipeline.new fw faults d.flash = p := ⟨_, rfl⟩
  have hlog (result : Option (StatusCode × Option StatusCode)) :
      Obeys (fun before e => erased before = true → e.isStation = false)
        (d.log ++ [.started p.network result]) := by
    refine (obeys_concat d.log _).2 ⟨hd.log, fun h => ?_⟩
    rw [← hp]
    exact new_ap (hd.password h) result
  unfold boot
  rw [hp]
  cases results with
  | none =>
    have hplain : (Entry.started p.network none).erases = false := by
      cases p.network <;> rfl
    refine ⟨fun h => hd.password ?_, hlog none⟩
    simpa [erased_concat d.log hplain, Entry.configures] using h
  | some results =>
    obtain ⟨started, hstarted⟩ : ∃ started,
        ResetNetworkRunner.start p.network p.waitRunner results faults d.flash = started := ⟨_, rfl⟩
    obtain ⟨hempty, hnone⟩ := start_password hstarted
    simp only [hstarted]
    refine ⟨fun h => ?_, hlog _⟩
    cases herases : (Entry.started p.network (some (started.code, started.reset))).erases with
    | true =>
      rw [hempty herases]
      exact Finmap.lookup_empty _
    | false =>
      refine hnone (hd.password ?_)
      simpa [erased_concat d.log herases, Entry.configures] using h

theorem fallback_step (fw : Firmware) (d : Device) (e : Event) (hd : FallbackInv d) : FallbackInv (step fw d e) := by
  cases e with
  | boot faults results => exact boot_fallback fw hd faults results
  | staRequest env uri =>
    rw [step]
    simp only
    split
    · exact hd
    · next o ho =>
      obtain ⟨p, -, hserve⟩ := Option.bind_eq_some_iff.1 ho
      rcases staServe_store hserve with ⟨hconfig, hstore⟩ | ⟨u, hconfig, hstore⟩
      · refine ⟨fun h => ?_, ?_⟩
        · simp only [served, hconfig, hstore, Option.toList_none, List.map_nil, List.append_nil] at h ⊢
          exact hd.password h
        · simpa [served, hconfig] using hd.log
      · refine ⟨fun h => ?_, ?_⟩
        · simp only [served, hconfig, hstore, Option.toList_some, List.map_cons, List.map_nil] at h ⊢
          rw [erased_concat d.log rfl, Bool.and_eq_true] at h
          refine sta_make_password (hd.password h.2) fun hok => ?_
          rw [hok] at h
          cases h.1
        · simp only [served, hconfig, Option.toList_some, List.map_cons, List.map_nil]
          exact (obeys_concat d.log _).2 ⟨hd.log, fun _ => rfl⟩
  | apRequest env uri =>
    rw [step]
    simp only
    split
    · exact hd
    · next o ho =>
      cases hconfig : o.config with
      | none => exact ⟨by simpa [served, hconfig] using hd.password, by simpa [served, hconfig] using hd.log⟩
      | some code =>
        refine ⟨fun h => ?_, ?_⟩
        · simp only [served, hconfig, Option.toList_some, List.map_cons, List.map_nil] at h ⊢
          rw [erased_concat d.log rfl, Bool.and_eq_true] at h
          exact hd.password h.2
        · simp only [served, hconfig, Option.toList_some, List.map_cons, List.map_nil]
          exact (obeys_concat d.log _).2 ⟨hd.log, fun _ => rfl⟩

/-- **Falling back to the access point.** When a station has not come up and its configuration has been erased, the device
is not a station again before a request has modified the station configuration, whatever is stored at first, whatever
happens and whatever fails in between. -/
theorem falls_back (fw : Firmware) (flash : Flash) (es : List Event) (before between after : List Entry)
    (c c' : {c : StaSettings // StaNetworkConfig.valid c = true}) (code : StatusCode)
    (result : Option (StatusCode × Option StatusCode))
    (h : (run (step fw) (.new flash) es).log =
      before ++ .started (.sta c) (some (code, some .ok)) :: between ++ .started (.sta c') result :: after) :
    .staUpdated .ok ∈ between := by
  have hnew : FallbackInv (.new flash) := ⟨fun herased => (by cases herased), obeys_nil _⟩
  have hlog := (run_preserves (fallback_step fw) hnew es).log _ _ _ h
  by_contra hnever
  have herased : erased (before ++ .started (.sta c) (some (code, some .ok)) :: between) = true := by
    refine since_of_set rfl fun e he => ?_
    cases hconfigures : e.configures with
    | false => rfl
    | true =>
      unfold Entry.configures at hconfigures
      split at hconfigures
      · exact absurd he hnever
      · cases hconfigures
  cases hlog herased

/-- the device goes on as an access point, and then as a station again -/
def exampleReturn : List Event :=
  [.boot faultlessFlash (some ⟨.ok, .ok, .ok⟩), .staRequest faultless homeUri, .boot faultlessFlash (some ⟨.ok, .ok, .ok⟩)]

def defaultAp : Network := .ap (ApNetworkConfig.init exampleFirmware.ap exampleFirmware.device .none ∅)

theorem falls_back_example : Entry.staUpdated .ok ∈ [.started defaultAp (some (.ok, none)), .staUpdated .ok] :=
  falls_back exampleFirmware ⟨∅, ∅⟩ (exampleLife ++ exampleReturn)
    [.started defaultAp (some (.ok, none)), .staUpdated .ok] [.started defaultAp (some (.ok, none)), .staUpdated .ok] []
    homeConfig homeConfig .error (some (.ok, none)) (by decide +kernel)

end ControlComponents.Pipeline.Basic
