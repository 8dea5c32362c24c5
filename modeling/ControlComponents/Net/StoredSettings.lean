/-
What the storages of the network configuration (`ocs_net`) can hold, and the settings that are loaded from it.

Only `configure` writes to them, and only settings within its limits. A call may stop between two keys, so the keys of a
storage need not come from one call; each of them comes from some call.

- `keeps_configure`, `keeps_eraseAll`: every call keeps it so.
- `StaNetworkConfig.init_accepts`, `ApNetworkConfig.init_accepts`: what is loaded is within the limits, whatever reads
  fail. `ApNetworkConfig.defaults_accepts`: so are the defaults.
-/
import ControlComponents.Net.NetworkConfig

namespace ControlComponents.Net

open ControlComponents.Lib ControlComponents.Lib.LittleEndian ControlComponents.Lib.KeyedWrites
open ControlComponents.Storage

/-- the value is one that `configure` writes under the key for some settings that it accepts -/
def Accepted {α : Type} (accepts : α → Bool) (blocks : α → α → List (Block String (List Byte))) (key : String)
    (value : List Byte) : Prop :=
  ∃ c a, accepts a = true ∧ ∃ b ∈ blocks c a, b.key = key ∧ b.value = value

/-! ## Calls -/

theorem saveBlocks_keeps {P : String → List Byte → Prop} {f : Faults} {s : Store}
    {bs : List (Block String (List Byte))} (hs : Keeps P s) (h : ∀ b ∈ bs, P b.key b.value) :
    Keeps P (saveBlocks f s bs).2 := by
  have hwrites (n : ℕ) : ∀ p ∈ writesOf (bs.take n), P p.1 p.2 := by
    intro p hp
    obtain ⟨b, hb, -, rfl⟩ := mem_writesOf.1 hp
    exact h b (List.mem_of_mem_take hb)
  rcases saveBlocks_cases f s bs with ⟨n, b, e, -, -, -, hres⟩ | ⟨-, hres⟩
  · rw [hres]
    exact hs.insertAll (hwrites n)
  · rw [hres]
    have hall := hwrites bs.length
    rw [List.take_length] at hall
    exact hs.insertAll hall

/-- **A call of `configure`**, whatever writes fail, stores accepted settings only. -/
theorem keeps_configure {α : Type} {accepts : α → Bool} {blocks : α → α → List (Block String (List Byte))} {s : Store}
    (hs : Keeps (Accepted accepts blocks) s) (f : Faults) (c a : α) :
    Keeps (Accepted accepts blocks)
      (if accepts a then saveBlocks f s (blocks c a) else (StatusCode.invalidArg, s)).2 := by
  split_ifs with ha
  · exact saveBlocks_keeps hs fun b hb => ⟨c, a, ha, b, hb, rfl, rfl⟩
  · exact hs

theorem keeps_eraseAll {P : String → List Byte → Prop} {s : Store} (hs : Keeps P s) (f : Faults) :
    Keeps P (noDataIsNotModified (eraseAll f s)).2 := by
  unfold noDataIsNotModified eraseAll
  cases f.eraseAll with
  | some e => exact hs
  | none =>
    simp only
    split_ifs
    · exact hs
    · exact keeps_empty P

/-! ## Loading -/

theorem probRead_lookup {f : Faults} {s : Store} {key : String} {size : ℕ} {bs : List Byte}
    (h : probRead f s key size = .ok bs) : s.lookup key = some bs ∧ bs.length ≤ size := by
  unfold probRead at h
  cases hprobe : probe f s key with
  | error code =>
    rw [hprobe] at h
    cases h
  | ok n =>
    rw [hprobe] at h
    simp only at h
    split_ifs at h with hn
    rcases read_cases f s key n with ⟨code, -, hread⟩ | ⟨v, hv, hread⟩
    · rw [hread] at h
      cases h
    · rw [hread, Except.ok.injEq] at h
      subst h
      -- the size that was probed is that of the value
      have hlen : v.length = n := by
        unfold probe at hprobe
        cases hf : f.probe key with
        | some e => simp [hf] at hprobe
        | none => simpa [hf, hv] using hprobe
      exact ⟨hv, by omega⟩

/-- a string field is the default, or what is stored -/
theorem probReadStr_cases (f : Faults) (s : Store) (key : String) (size : ℕ) (default : CString) :
    probReadStr f s key size default = default ∨
      ∃ bs, s.lookup key = some bs ∧ bs.length ≤ size ∧ probReadStr f s key size default = .ofBuffer bs := by
  unfold probReadStr
  cases h : probRead f s key size with
  | error code => exact .inl rfl
  | ok bs => exact .inr ⟨bs, (probRead_lookup h).1, (probRead_lookup h).2, rfl⟩

/-- a byte field is the default, or what is stored -/
theorem probReadInt_cases (f : Faults) (s : Store) (key : String) (default : Byte) :
    probReadInt f s key 1 0 default = default ∨
      ∃ bs, s.lookup key = some bs ∧ probReadInt f s key 1 0 default = overlay 1 0 bs := by
  unfold probReadInt
  cases h : probRead f s key 1 with
  | error code => exact .inl rfl
  | ok bs => exact .inr ⟨bs, (probRead_lookup h).1, rfl⟩

theorem strlen_ofBuffer_le (buf : List Byte) : (CString.ofBuffer buf).strlen ≤ buf.length :=
  (List.takeWhile_prefix _).length_le

theorem strlen_strncpy (src : CString) (n : ℕ) : (src.strncpy n).strlen = min n src.strlen := by
  have hnul : 0#8 ∉ src.text.take n := fun h => src.noNul (List.mem_of_mem_take h)
  have htext : CString.ofBuffer (src.text.take n) = ⟨src.text.take n, hnul⟩ := CString.ofBuffer_text ⟨_, hnul⟩
  rw [CString.strncpy, htext, CString.strlen, List.length_take, CString.strlen]

theorem strlen_probReadStr_le (f : Faults) (s : Store) (key : String) (size : ℕ) {default : CString}
    (h : default.strlen ≤ size) : (probReadStr f s key size default).strlen ≤ size := by
  rcases probReadStr_cases f s key size default with hdefault | ⟨bs, -, hlen, hstored⟩
  · rw [hdefault]
    exact h
  · rw [hstored]
    exact (strlen_ofBuffer_le bs).trans hlen

namespace StaNetworkConfig

theorem maxRetryCount_stored {s : Store} (hs : Keeps (Accepted accepts blocks) s) {bs : List Byte}
    (h : s.lookup maxRetryCountKey = some bs) :
    ∃ n : Byte, bs = toLe 1 n.toNat ∧ 1 ≤ n.toNat ∧ n.toNat ≤ 5 := by
  obtain ⟨c, a, ha, b, hb, hkey, hvalue⟩ := hs _ _ h
  obtain ⟨⟨hlow, hhigh⟩, -⟩ := (accepts_iff a).1 ha
  simp only [blocks, List.mem_cons, List.not_mem_nil, or_false] at hb
  rcases hb with rfl | rfl | rfl
  · exact ⟨a.maxRetryCount, hvalue.symm, hlow, hhigh⟩
  · exact absurd hkey (by decide : ssidKey ≠ maxRetryCountKey)
  · exact absurd hkey (by decide : passwordKey ≠ maxRetryCountKey)

/-- **The configuration of a station** that is valid is within the limits of `configure`. -/
theorem init_accepts {s : Store} (hs : Keeps (Accepted accepts blocks) s) (f : Faults)
    (hvalid : valid (init f s) = true) : accepts (init f s) = true := by
  simp only [valid, Bool.and_eq_true, decide_eq_true_eq] at hvalid
  have hssid : (init f s).ssid.strlen ≤ maxSsidLen := strlen_probReadStr_le f s ssidKey maxSsidLen (Nat.zero_le _)
  have hpassword : (init f s).password.strlen ≤ maxPasswordLen :=
    strlen_probReadStr_le f s passwordKey maxPasswordLen (Nat.zero_le _)
  refine (accepts_iff _).2 ⟨?_, ⟨hvalid.1, hssid⟩, hvalid.2, hpassword⟩
  rcases probReadInt_cases f s maxRetryCountKey defaultMaxRetryCount with hdefault | ⟨bs, hbs, hstored⟩
  · simp only [init, hdefault]
    decide
  · obtain ⟨n, rfl, hlow, hhigh⟩ := maxRetryCount_stored hs hbs
    simp only [init, hstored, overlay_toLe 1 rfl]
    exact ⟨hlow, hhigh⟩

/-- a station needs a stored password -/
theorem password_of_valid {f : Faults} {s : Store} (h : valid (init f s) = true) :
    s.lookup passwordKey ≠ none := by
  intro hnone
  have hempty : (init f s).password = .empty := by
    rcases probReadStr_cases f s passwordKey maxPasswordLen .empty with hdefault | ⟨bs, hbs, -⟩
    · exact hdefault
    · rw [hnone] at hbs
      cases hbs
  simp [valid, hempty, CString.strlen, CString.empty, minPasswordLen] at h

/-- a call that does not report that it has modified something leaves the storage without a password -/
theorem configure_password {f : Faults} {c a : StaSettings} {s : Store} (hs : s.lookup passwordKey = none)
    (h : (configure c f s a).1 ≠ .ok) : (configure c f s a).2.lookup passwordKey = none := by
  unfold configure at h ⊢
  split_ifs at h ⊢ with ha
  · have hnd : ((blocks c a).map Block.key).Nodup := by
      simp [blocks, maxRetryCountKey, ssidKey, passwordKey]
    have hlookup (n : ℕ) := lookup_insertAll_take hnd s n 2 rfl
    simp only at hlookup
    rcases saveBlocks_cases f s (blocks c a) with ⟨n, b, e, hb, -, -, hres⟩ | ⟨-, hres⟩
    · -- the password is the last of the three keys
      have hn : n < (blocks c a).length := (List.getElem?_eq_some_iff.1 hb).1
      have hlast : ¬ 2 < n := by
        simp only [blocks, List.length_cons, List.length_nil] at hn
        omega
      rw [hres, hlookup n, if_neg fun hn' => hlast hn'.1, hs]
    · rw [hres] at h ⊢
      simp only [ne_eq, ite_eq_left_iff, reduceCtorEq, imp_false, not_not] at h
      have hnone : writesOf (blocks c a) = [] := by
        simpa [writesOf] using h
      simpa [hnone] using hs
  · exact hs

end StaNetworkConfig

namespace ApNetworkConfig

/-- the settings of an access point without a stored configuration -/
def defaults (build : ApBuildConfig) (dev : DeviceInfo) : ApSettings := ⟨defaultPassword dev, build.channel, build.maxConn⟩

theorem strlen_builtinSsid_le (dev : DeviceInfo) : (builtinSsid dev).strlen ≤ maxSsidLen := by
  rw [builtinSsid, strlen_strncpy]
  exact (min_le_left _ _).trans (min_le_left _ _)

/-- the SSID of a device has its whole name, as far as there is room -/
theorem strlen_builtinSsid {dev : DeviceInfo} (h : dev.fwName.strlen + 1 + dev.deviceId.strlen < 256) :
    (builtinSsid dev).strlen = min 31 (dev.fwName.strlen + 1 + dev.deviceId.strlen) := by
  let full := dev.fwName.append ((CString.ofString "-").append dev.deviceId)
  have hfull : CString.ofBuffer (dev.fwName.text ++ (CString.ofString "-").text ++ dev.deviceId.text) = full := by
    rw [List.append_assoc]
    exact CString.ofBuffer_text full
  have hlen : full.strlen = dev.fwName.strlen + 1 + dev.deviceId.strlen := by
    have hdash : (CString.ofString "-").text.length = 1 := by decide
    simp only [full, CString.strlen, CString.append, List.length_append, hdash]
    omega
  rw [builtinSsid, hfull, strlen_strncpy, hlen, Nat.mod_eq_of_lt h]
  simp only [maxSsidLen]
  omega

/-- **The defaults** are within the limits, with Kconfig values that are and a device that has a name -/
theorem defaults_accepts {build : ApBuildConfig} {dev : DeviceInfo}
    (hchannel : 1 ≤ build.channel.toNat ∧ build.channel.toNat ≤ 13)
    (hmaxConn : 1 ≤ build.maxConn.toNat ∧ build.maxConn.toNat ≤ 7) (hid : 7 ≤ dev.deviceId.strlen)
    (hname : dev.fwName.strlen + 1 + dev.deviceId.strlen < 256) : accepts (defaults build dev) = true := by
  refine (accepts_iff _).2 ⟨hchannel, hmaxConn, ?_⟩
  have hssid := strlen_builtinSsid hname
  simp only [defaults, defaultPassword, strlen_strncpy, hssid, defaultPasswordLen]
  omega

theorem stored {s : Store} (hs : Keeps (Accepted accepts blocks) s) {key : String} {bs : List Byte}
    (h : s.lookup key = some bs) : ∃ a, accepts a = true ∧
      ((key = passwordKey ∧ bs = a.password.text) ∨ (key = channelKey ∧ bs = toLe 1 a.channel.toNat) ∨
        (key = maxConnKey ∧ bs = toLe 1 a.maxConn.toNat)) := by
  obtain ⟨c, a, ha, b, hb, rfl, rfl⟩ := hs _ _ h
  refine ⟨a, ha, ?_⟩
  simp only [blocks, List.mem_cons, List.not_mem_nil, or_false] at hb
  rcases hb with rfl | rfl | rfl
  · exact .inl ⟨rfl, rfl⟩
  · exact .inr (.inl ⟨rfl, rfl⟩)
  · exact .inr (.inr ⟨rfl, rfl⟩)

/-- **The configuration of an access point** is within the limits of `configure` if its defaults are. -/
theorem init_accepts {build : ApBuildConfig} {dev : DeviceInfo} (hdefaults : accepts (defaults build dev) = true)
    {s : Store} (hs : Keeps (Accepted accepts blocks) s) (f : Faults) :
    accepts (init build dev f s).settings = true := by
  obtain ⟨hchannel, hmaxConn, hpassword⟩ := (accepts_iff _).1 hdefaults
  refine (accepts_iff _).2 ⟨?_, ?_, ?_⟩
  · rcases probReadInt_cases f s channelKey build.channel with hdefault | ⟨bs, hbs, hread⟩
    · simp only [init, hdefault]
      exact hchannel
    · obtain ⟨a, ha, ⟨hkey, -⟩ | ⟨-, rfl⟩ | ⟨hkey, -⟩⟩ := stored hs hbs
      · exact absurd hkey (by decide)
      · simp only [init, hread, overlay_toLe 1 rfl]
        exact ((accepts_iff a).1 ha).1
      · exact absurd hkey (by decide)
  · rcases probReadInt_cases f s maxConnKey build.maxConn with hdefault | ⟨bs, hbs, hread⟩
    · simp only [init, hdefault]
      exact hmaxConn
    · obtain ⟨a, ha, ⟨hkey, -⟩ | ⟨hkey, -⟩ | ⟨-, rfl⟩⟩ := stored hs hbs
      · exact absurd hkey (by decide)
      · exact absurd hkey (by decide)
      · simp only [init, hread, overlay_toLe 1 rfl]
        exact ((accepts_iff a).1 ha).2.1
  · rcases probReadStr_cases f s passwordKey maxPasswordLen (defaultPassword dev) with hdefault | ⟨bs, hbs, -, hread⟩
    · simp only [init, hdefault]
      exact hpassword
    · obtain ⟨a, ha, ⟨-, rfl⟩ | ⟨hkey, -⟩ | ⟨hkey, -⟩⟩ := stored hs hbs
      · simp only [init, hread, CString.ofBuffer_text]
        exact ((accepts_iff a).1 ha).2.2
      · exact absurd hkey (by decide)
      · exact absurd hkey (by decide)

end ApNetworkConfig

end ControlComponents.Net
