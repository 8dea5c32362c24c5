/-
Calls of `configure` on a network configuration object, and what a new object reads from the storage afterwards.

- `last_write_wins_iff`: after a sequence of calls that report success, a new object reads the last arguments iff each
  field of them was found to differ, or is what the object was constructed with and no earlier call was found to differ.
  `last_write_lost` is the other case: calls that report success and are lost.
- `failed_reconfiguration`: a failed call stops in the block whose write failed, with the fields before it saved.
  `reconfiguration_not_atomic`: so a new SSID may stand with the old password.
-/
import ControlComponents.Net.NetworkConfig

namespace ControlComponents.Net

open ControlComponents.Lib ControlComponents.Lib.KeyedWrites ControlComponents.Storage

/-! ## Model -/

/-- a sequence of calls on one object: the statuses reported and the storage after them -/
def calls {α : Type} (call : Store → α → StatusCode × Store) : Store → List α → List StatusCode × Store
  | s, [] => ([], s)
  | s, a :: as =>
    let (code, t) := call s a
    let (codes, u) := calls call t as
    (code :: codes, u)

def StaNetworkConfig.configureAll (s : Store) : List StaSettings → List StatusCode × Store :=
  calls (configure (init .none s) .none) s

def ApNetworkConfig.configureAll (build : ApBuildConfig) (dev : DeviceInfo) (s : Store) :
    List ApSettings → List StatusCode × Store :=
  calls (configure (init build dev .none s) .none) s

def MdnsConfig.configureAll (dev : DeviceInfo) (s : Store) : List CString → List StatusCode × Store :=
  calls (configure (init dev .none s) .none) s

/-- no call reported an error -/
def Succeeded (run : List StatusCode × Store) : Prop := ∀ code ∈ run.1, ¬ code.IsError

instance (run : List StatusCode × Store) : Decidable (Succeeded run) := by
  unfold Succeeded; infer_instance

/-! ## Sequences of calls -/

/-- the field of the last call is found to differ, or it is the one loaded at construction and no earlier call was found
to differ -/
def Settled {α β : Type} (field : α → β) (changed : α → Bool) (loaded : β) (as : List α) (a : α) : Prop :=
  changed a = true ∨ (loaded = field a ∧ ∀ x ∈ as, changed x = false)

/-- **One field over a run.** If every call leaves the field of a changed argument, or what was there, then the field of
the last call is read back iff it is settled. The induction is on the calls before the last one. -/
theorem read_calls_iff {α β : Type} (call : Store → α → StatusCode × Store) (field : α → β) (changed : α → Bool)
    (read : Store → β) (hchanged : ∀ x y, field x = field y → changed x = changed y)
    (hcall : ∀ s x, ¬ (call s x).1.IsError → read (call s x).2 = if changed x = true then field x else read s)
    (s : Store) (as : List α) (a : α) (hok : Succeeded (calls call s (as ++ [a]))) :
    read (calls call s (as ++ [a])).2 = field a ↔ Settled field changed (read s) as a := by
  induction as generalizing s with
  | nil =>
    have hread : read (calls call s [a]).2 = if changed a = true then field a else read s :=
      hcall s a (hok _ (by simp [calls]))
    rw [List.nil_append, hread]
    unfold Settled
    split_ifs with ha <;> simp [ha]
  | cons x as ih =>
    have hx := hcall s x (hok _ (by simp [calls]))
    have htail : Succeeded (calls call (call s x).2 (as ++ [a])) := by
      intro code hcode
      exact hok code (by simp [calls, hcode])
    have hrun : (calls call s (x :: as ++ [a])).2 = (calls call (call s x).2 (as ++ [a])).2 := rfl
    rw [hrun, ih _ htail, hx]
    unfold Settled
    cases hcx : changed x with
    | false => simp [hcx]
    | true =>
      -- the field of `x` is not that of an unchanged `a`
      have hne : changed a = false → field x ≠ field a := by
        intro ha heq
        rw [hchanged x a heq, ha] at hcx
        cases hcx
      cases ha : changed a with
      | true => simp
      | false => simp [hcx, hne ha]

theorem StaNetworkConfig.init_configure (c : StaSettings) (s : Store) (a : StaSettings)
    (hok : ¬ (configure c .none s a).1.IsError) :
    init .none (configure c .none s a).2 = saved c a (init .none s) 3 := by
  have ha : accepts a = true := by
    by_contra ha
    simp [configure, ha, StatusCode.IsError] at hok
  have hall : (blocks c a).take 3 = blocks c a := rfl
  have h := init_saved c s a ha 3
  rw [hall] at h
  simpa only [configure, ha, if_true, saveBlocks_none] using h

theorem ApNetworkConfig.init_configure (build : ApBuildConfig) (dev : DeviceInfo) (c : ApNetworkConfig) (s : Store)
    (a : ApSettings) (hok : ¬ (configure c .none s a).1.IsError) :
    (init build dev .none (configure c .none s a).2).settings = saved c.settings a (init build dev .none s).settings 3 := by
  have ha : accepts a = true := by
    by_contra ha
    simp [configure, ha, StatusCode.IsError] at hok
  have hall : (blocks c.settings a).take 3 = blocks c.settings a := rfl
  have h := congrArg ApNetworkConfig.settings (init_saved build dev c.settings s a ha 3)
  rw [hall] at h
  simpa only [configure, ha, if_true, saveBlocks_none] using h

theorem MdnsConfig.init_configure (dev : DeviceInfo) (c : CString) (s : Store) (a : CString)
    (hok : ¬ (configure c .none s a).1.IsError) :
    init dev .none (configure c .none s a).2 = if textDiffers c a = true then a else init dev .none s := by
  have ha : accepts a = true := by
    by_contra ha
    simp [configure, ha, StatusCode.IsError] at hok
  have h := init_saved dev c s a ha
  simpa only [configure, ha, if_true, saveBlocks_none] using h

/-- the arguments of the last call are what a new object reads -/
theorem StaNetworkConfig.configureAll_iff (s : Store) (as : List StaSettings) (a : StaSettings)
    (hok : Succeeded (configureAll s (as ++ [a]))) :
    let c := init .none s
    init .none (configureAll s (as ++ [a])).2 = a ↔
      Settled StaSettings.maxRetryCount (fun x => decide (c.maxRetryCount ≠ x.maxRetryCount)) c.maxRetryCount as a ∧
      Settled StaSettings.ssid (fun x => !valid c || textDiffers c.ssid x.ssid) c.ssid as a ∧
      Settled StaSettings.password (fun x => !valid c || textDiffers c.password x.password) c.password as a := by
  intro c
  have hstep := init_configure c
  have hr := read_calls_iff (configure c .none) StaSettings.maxRetryCount
    (fun x => decide (c.maxRetryCount ≠ x.maxRetryCount)) (fun t => (init .none t).maxRetryCount)
    (fun x y h => by simp only [h]) (fun t x hx => by simp only [hstep t x hx, saved]; simp) s as a hok
  have hs := read_calls_iff (configure c .none) StaSettings.ssid
    (fun x => !valid c || textDiffers c.ssid x.ssid) (fun t => (init .none t).ssid)
    (fun x y h => by simp only [h]) (fun t x hx => by simp only [hstep t x hx, saved]; simp) s as a hok
  have hp := read_calls_iff (configure c .none) StaSettings.password
    (fun x => !valid c || textDiffers c.password x.password) (fun t => (init .none t).password)
    (fun x y h => by simp only [h]) (fun t x hx => by simp only [hstep t x hx, saved]; simp) s as a hok
  rw [← hr, ← hs, ← hp]
  refine ⟨?_, ?_⟩
  · intro h
    have h' : init .none (calls (configure c .none) s (as ++ [a])).2 = a := h
    rw [h']
    exact ⟨rfl, rfl, rfl⟩
  · intro h
    obtain ⟨hr', hs', hp'⟩ := h
    exact (StaSettings.ext_iff).2 ⟨hr', hs', hp'⟩

theorem ApNetworkConfig.configureAll_iff (build : ApBuildConfig) (dev : DeviceInfo) (s : Store) (as : List ApSettings)
    (a : ApSettings) (hok : Succeeded (configureAll build dev s (as ++ [a]))) :
    let c := (init build dev .none s).settings
    (init build dev .none (configureAll build dev s (as ++ [a])).2).settings = a ↔
      Settled ApSettings.password (fun x => textDiffers c.password x.password) c.password as a ∧
      Settled ApSettings.channel (fun x => decide (c.channel ≠ x.channel)) c.channel as a ∧
      Settled ApSettings.maxConn (fun x => decide (c.maxConn ≠ x.maxConn)) c.maxConn as a := by
  intro c
  have hstep := init_configure build dev (init build dev .none s)
  have hp := read_calls_iff (configure (init build dev .none s) .none) ApSettings.password
    (fun x => textDiffers c.password x.password) (fun t => (init build dev .none t).settings.password)
    (fun x y h => by simp only [h]) (fun t x hx => by simp only [hstep t x hx, saved]; simp [c]) s as a hok
  have hc := read_calls_iff (configure (init build dev .none s) .none) ApSettings.channel
    (fun x => decide (c.channel ≠ x.channel)) (fun t => (init build dev .none t).settings.channel)
    (fun x y h => by simp only [h]) (fun t x hx => by simp only [hstep t x hx, saved]; simp [c]) s as a hok
  have hm := read_calls_iff (configure (init build dev .none s) .none) ApSettings.maxConn
    (fun x => decide (c.maxConn ≠ x.maxConn)) (fun t => (init build dev .none t).settings.maxConn)
    (fun x y h => by simp only [h]) (fun t x hx => by simp only [hstep t x hx, saved]; simp [c]) s as a hok
  rw [← hp, ← hc, ← hm]
  refine ⟨?_, ?_⟩
  · intro h
    have h' : (init build dev .none (calls (configure (init build dev .none s) .none) s (as ++ [a])).2).settings = a := h
    rw [h']
    exact ⟨rfl, rfl, rfl⟩
  · intro h
    obtain ⟨hp', hc', hm'⟩ := h
    exact (ApSettings.ext_iff).2 ⟨hp', hc', hm'⟩

theorem MdnsConfig.configureAll_iff (dev : DeviceInfo) (s : Store) (as : List CString) (a : CString)
    (hok : Succeeded (configureAll dev s (as ++ [a]))) :
    init dev .none (configureAll dev s (as ++ [a])).2 = a ↔
      Settled id (textDiffers (init dev .none s)) (init dev .none s) as a :=
  read_calls_iff (configure (init dev .none s) .none) id (textDiffers (init dev .none s)) (init dev .none)
    (fun _ _ h => congrArg _ h) (init_configure dev (init dev .none s)) s as a hok

/-! ## Main results -/

/-- **Last write wins, exactly when.** After calls that all report success, a new object reads the arguments of the last
one iff each field of them is settled: found to differ from the value loaded at construction, or equal to it with no
earlier call found to differ. -/
theorem last_write_wins_iff (s : Store) (build : ApBuildConfig) (dev : DeviceInfo) :
    (∀ (as : List StaSettings) (a : StaSettings), Succeeded (StaNetworkConfig.configureAll s (as ++ [a])) →
      let c := StaNetworkConfig.init .none s
      let unset := !StaNetworkConfig.valid c
      (StaNetworkConfig.init .none (StaNetworkConfig.configureAll s (as ++ [a])).2 = a ↔
        Settled StaSettings.maxRetryCount (fun x => decide (c.maxRetryCount ≠ x.maxRetryCount)) c.maxRetryCount as a ∧
        Settled StaSettings.ssid (fun x => unset || textDiffers c.ssid x.ssid) c.ssid as a ∧
        Settled StaSettings.password (fun x => unset || textDiffers c.password x.password) c.password as a)) ∧
    (∀ (as : List ApSettings) (a : ApSettings), Succeeded (ApNetworkConfig.configureAll build dev s (as ++ [a])) →
      let c := (ApNetworkConfig.init build dev .none s).settings
      ((ApNetworkConfig.init build dev .none (ApNetworkConfig.configureAll build dev s (as ++ [a])).2).settings = a ↔
        Settled ApSettings.password (fun x => textDiffers c.password x.password) c.password as a ∧
        Settled ApSettings.channel (fun x => decide (c.channel ≠ x.channel)) c.channel as a ∧
        Settled ApSettings.maxConn (fun x => decide (c.maxConn ≠ x.maxConn)) c.maxConn as a)) ∧
    (∀ (as : List CString) (a : CString), Succeeded (MdnsConfig.configureAll dev s (as ++ [a])) →
      let c := MdnsConfig.init dev .none s
      (MdnsConfig.init dev .none (MdnsConfig.configureAll dev s (as ++ [a])).2 = a ↔
        Settled id (textDiffers c) c as a)) :=
  ⟨StaNetworkConfig.configureAll_iff s, ApNetworkConfig.configureAll_iff build dev s, MdnsConfig.configureAll_iff dev s⟩

def exampleDevice : DeviceInfo := ⟨.ofString "control", .ofString "01"⟩

def exampleBuild : ApBuildConfig := ⟨1, 4⟩

def homeNetwork : StaSettings := ⟨3, .ofString "home", .ofString "password"⟩

def workNetwork : StaSettings := ⟨3, .ofString "work", .ofString "password"⟩

/-- two calls on each object, over an empty storage: the station and the access point take over the second call, which keeps
the limit that the access point was built with; a hostname that goes back to the one loaded at construction is lost -/
theorem last_write_wins_iff_example :
    StaNetworkConfig.init .none (StaNetworkConfig.configureAll ∅ [homeNetwork, workNetwork]).2 = workNetwork ∧
    (ApNetworkConfig.init exampleBuild exampleDevice .none (ApNetworkConfig.configureAll exampleBuild exampleDevice ∅
      [⟨.ofString "password", 6, 4⟩, ⟨.ofString "other-password", 7, 4⟩]).2).settings = ⟨.ofString "other-password", 7, 4⟩ ∧
    MdnsConfig.init exampleDevice .none
      (MdnsConfig.configureAll exampleDevice ∅ [.ofString "bonsai", .ofString "control"]).2 ≠ .ofString "control" := by
  have h := last_write_wins_iff ∅ exampleBuild exampleDevice
  refine ⟨(h.1 [homeNetwork] workNetwork (by decide)).2 ?_,
    (h.2.1 [⟨.ofString "password", 6, 4⟩] ⟨.ofString "other-password", 7, 4⟩ (by decide)).2 ?_,
    (not_congr (h.2.2 [.ofString "bonsai"] (.ofString "control") (by decide))).2 ?_⟩
  · exact ⟨Or.inl (by decide), Or.inl (by decide), Or.inl (by decide)⟩
  · exact ⟨Or.inl (by decide), Or.inl (by decide), Or.inr ⟨by decide, by decide⟩⟩
  · rintro (hdiffers | ⟨-, hnone⟩)
    · exact absurd hdiffers (by decide)
    · exact absurd (hnone _ List.mem_cons_self) (by decide)

/-- after calls that all report success, a new object reads the arguments of the last one -/
def LastWriteWins : Prop :=
  ∀ (s : Store) (build : ApBuildConfig) (dev : DeviceInfo),
    (∀ (as : List StaSettings) (a : StaSettings), Succeeded (StaNetworkConfig.configureAll s (as ++ [a])) →
      StaNetworkConfig.init .none (StaNetworkConfig.configureAll s (as ++ [a])).2 = a) ∧
    (∀ (as : List ApSettings) (a : ApSettings), Succeeded (ApNetworkConfig.configureAll build dev s (as ++ [a])) →
      (ApNetworkConfig.init build dev .none (ApNetworkConfig.configureAll build dev s (as ++ [a])).2).settings = a) ∧
    (∀ (as : List CString) (a : CString), (∀ x ∈ as ++ [a], x ≠ .empty) →
      Succeeded (MdnsConfig.configureAll dev s (as ++ [a])) →
      MdnsConfig.init dev .none (MdnsConfig.configureAll dev s (as ++ [a])).2 = a)

/-- what a station connected to the home network once has in its storage -/
def homeStore : Store := (StaNetworkConfig.configureAll ∅ [homeNetwork]).2

/-- **The last write may be lost.** A hostname that extends the current one reports no change and is not written. A
station object made for the home network, moved to the work network and back, reports success each time and stays with
the work network. -/
theorem last_write_lost : ¬ LastWriteWins ∧
    (MdnsConfig.configureAll exampleDevice ∅ [.ofString "control-01"]).1 = [.notModified] ∧
    MdnsConfig.init exampleDevice .none (MdnsConfig.configureAll exampleDevice ∅ [.ofString "control-01"]).2 =
      .ofString "control" ∧
    (StaNetworkConfig.configureAll homeStore [workNetwork, homeNetwork]).1 = [.ok, .notModified] ∧
    StaNetworkConfig.init .none (StaNetworkConfig.configureAll homeStore [workNetwork, homeNetwork]).2 =
      workNetwork := by
  refine ⟨fun h => ?_, by decide, by decide, by decide, by decide⟩
  have hlost := (h ∅ exampleBuild exampleDevice).2.2 [] (.ofString "control-01") (by decide) (by decide)
  revert hlost
  decide

/-! ## Failed calls -/

/-- **A failed reconfiguration.** Either the arguments were rejected and the storage is as it was, or the write of one
block failed, with its status reported: the fields of the blocks before it that were found to differ read as the
arguments, and everything else, the failed field and all after it included, reads as before. -/
theorem failed_reconfiguration (f : Faults) (s : Store) :
    (∀ c a : StaSettings, (StaNetworkConfig.configure c f s a).1.IsError →
      let (code, s') := StaNetworkConfig.configure c f s a
      (StaNetworkConfig.accepts a = false ∧ code = .invalidArg ∧ s' = s) ∨
      ∃ n b e, (StaNetworkConfig.blocks c a)[n]? = some b ∧ b.changed = true ∧ f.write b.key = some e ∧ code = e.code ∧
        StaNetworkConfig.init .none s' = StaNetworkConfig.saved c a (StaNetworkConfig.init .none s) n) ∧
    (∀ (build : ApBuildConfig) (dev : DeviceInfo) (c : ApNetworkConfig) (a : ApSettings),
      (ApNetworkConfig.configure c f s a).1.IsError →
      let (code, s') := ApNetworkConfig.configure c f s a
      let old := ApNetworkConfig.init build dev .none s
      (ApNetworkConfig.accepts a = false ∧ code = .invalidArg ∧ s' = s) ∨
      ∃ n b e, (ApNetworkConfig.blocks c.settings a)[n]? = some b ∧ b.changed = true ∧ f.write b.key = some e ∧
        code = e.code ∧
        ApNetworkConfig.init build dev .none s' = ⟨old.ssid, ApNetworkConfig.saved c.settings a old.settings n⟩) := by
  refine ⟨?_, ?_⟩
  · intro c a herr
    unfold StaNetworkConfig.configure at herr ⊢
    split_ifs at herr ⊢ with ha
    · obtain ⟨n, b, e, hb, hc, he, heq⟩ := saveBlocks_failed herr
      rw [heq]
      exact Or.inr ⟨n, b, e, hb, hc, he, rfl, StaNetworkConfig.init_saved c s a ha n⟩
    · exact Or.inl ⟨Bool.eq_false_iff.2 ha, rfl, rfl⟩
  · intro build dev c a herr
    unfold ApNetworkConfig.configure at herr ⊢
    split_ifs at herr ⊢ with ha
    · obtain ⟨n, b, e, hb, hc, he, heq⟩ := saveBlocks_failed herr
      rw [heq]
      exact Or.inr ⟨n, b, e, hb, hc, he, rfl, ApNetworkConfig.init_saved build dev c.settings s a ha n⟩
    · exact Or.inl ⟨Bool.eq_false_iff.2 ha, rfl, rfl⟩

/-- the write under `key` fails -/
def writeFails (key : String) : Faults := { Faults.none with write := fun k => if k = key then some .plain else none }

/-- a station moved to the work network with a failing write of the SSID, and an access point given a new password and a
new connection limit with a failing write of the limit -/
theorem failed_reconfiguration_example :
    (let c := StaNetworkConfig.init .none homeStore
     ∃ n, StaNetworkConfig.init .none (StaNetworkConfig.configure c (writeFails "ssid") homeStore workNetwork).2 =
      StaNetworkConfig.saved c workNetwork c n) ∧
    (let c := ApNetworkConfig.init exampleBuild exampleDevice .none ∅
     let a : ApSettings := ⟨.ofString "other-password", 1, 2⟩
     ∃ n, ApNetworkConfig.init exampleBuild exampleDevice .none
        (ApNetworkConfig.configure c (writeFails "max_conn") ∅ a).2 =
      ⟨c.ssid, ApNetworkConfig.saved c.settings a c.settings n⟩) := by
  have hsta := (failed_reconfiguration (writeFails "ssid") homeStore).1 (StaNetworkConfig.init .none homeStore)
    workNetwork (by decide)
  have hap := (failed_reconfiguration (writeFails "max_conn") ∅).2 exampleBuild exampleDevice
    (ApNetworkConfig.init exampleBuild exampleDevice .none ∅) ⟨.ofString "other-password", 1, 2⟩ (by decide)
  refine ⟨?_, ?_⟩
  · rcases hsta with ⟨hrej, -⟩ | ⟨n, -, -, -, -, -, -, h⟩
    · exact absurd hrej (by decide)
    · exact ⟨n, h⟩
  · rcases hap with ⟨hrej, -⟩ | ⟨n, -, -, -, -, -, -, h⟩
    · exact absurd hrej (by decide)
    · exact ⟨n, h⟩

/-- a call that reports an error changes nothing a new object reads -/
def ReconfigurationAtomic : Prop :=
  ∀ (f : Faults) (s : Store),
    (∀ c a : StaSettings, (StaNetworkConfig.configure c f s a).1.IsError →
      StaNetworkConfig.init .none (StaNetworkConfig.configure c f s a).2 = StaNetworkConfig.init .none s) ∧
    (∀ (build : ApBuildConfig) (dev : DeviceInfo) (c : ApNetworkConfig) (a : ApSettings),
      (ApNetworkConfig.configure c f s a).1.IsError →
      ApNetworkConfig.init build dev .none (ApNetworkConfig.configure c f s a).2 =
        ApNetworkConfig.init build dev .none s)

def otherNetwork : StaSettings := ⟨3, .ofString "work", .ofString "other-password"⟩

/-- **Reconfiguration is not all-or-nothing.** A station moved to another network with a failing write of the password
reports the failure and is left with the new SSID and the old password. -/
theorem reconfiguration_not_atomic : ¬ ReconfigurationAtomic ∧
    (let (code, s') := StaNetworkConfig.configure (StaNetworkConfig.init .none homeStore) (writeFails "password")
      homeStore otherNetwork
     code = .error ∧ StaNetworkConfig.init .none s' = ⟨3, .ofString "work", .ofString "password"⟩) := by
  refine ⟨fun h => ?_, by decide⟩
  have hbad := (h (writeFails "password") homeStore).1 (StaNetworkConfig.init .none homeStore) otherNetwork (by decide)
  revert hbad
  decide

end ControlComponents.Net
