/-
Network configuration: `StaNetworkConfig`, `ApNetworkConfig` and `MdnsConfig` (`ocs_net`).

Each object reads its settings from the storage once, when it is constructed. `configure` checks its arguments, compares
each with the copy made at construction and writes those that differ; the copy is never refreshed, since changes are
applied when the component is initialised again. Strings are compared over the shorter of the two lengths.

- `textDiffers_iff`: two strings are taken for equal iff one is a prefix of the other.
- `StaNetworkConfig.init_saved`, `ApNetworkConfig.init_saved`, `MdnsConfig.init_saved`: what a new object reads after
  some blocks of a `configure` call were saved.
-/
import ControlComponents.Lib.CString
import ControlComponents.Storage

namespace ControlComponents.Net

open ControlComponents.Lib ControlComponents.Lib.LittleEndian ControlComponents.Lib.KeyedWrites
open ControlComponents.Storage

/-! ## Model -/

/-- a zeroed `char` array of `size + 1` bytes after `prob_read` of at most `size` bytes; `default` where it fails -/
def probReadStr (f : Faults) (s : Store) (key : String) (size : ℕ) (default : CString) : CString :=
  match probRead f s key size with
  | .error _ => default
  | .ok bs => .ofBuffer bs

/-- `strncmp(old, new, std::min(strlen(old), strlen(new)))` is non-zero -/
def textDiffers (old new : CString) : Bool := decide (old.strncmp new (min old.strlen new.strlen) ≠ 0)

/-- what `reset` makes of an erase: `NoData` says that there was nothing to modify -/
def noDataIsNotModified (erased : StatusCode × Store) : StatusCode × Store :=
  (if erased.1 = .noData then .notModified else erased.1, erased.2)

/-- firmware name and device identifier (`system::DeviceInfo`) -/
structure DeviceInfo where
  fwName : CString
  deviceId : CString
deriving DecidableEq

/-- the settings of `StaNetworkConfig`: its members, its getters and the arguments of its `configure` -/
@[ext]
structure StaSettings where
  maxRetryCount : Byte
  ssid : CString
  password : CString
deriving DecidableEq

namespace StaNetworkConfig

def minSsidLen : ℕ := 1
def maxSsidLen : ℕ := 31
def minPasswordLen : ℕ := 8
def maxPasswordLen : ℕ := 63
def minMaxRetryCount : ℕ := 1
def maxMaxRetryCount : ℕ := 5
def defaultMaxRetryCount : Byte := 5
def maxRetryCountKey : String := "retry"
def passwordKey : String := "password"
def ssidKey : String := "ssid"

/-- the constructor -/
def init (f : Faults) (s : Store) : StaSettings where
  maxRetryCount := probReadInt f s maxRetryCountKey 1 0 defaultMaxRetryCount
  ssid := probReadStr f s ssidKey maxSsidLen .empty
  password := probReadStr f s passwordKey maxPasswordLen .empty

def valid (c : StaSettings) : Bool :=
  decide (minSsidLen ≤ c.ssid.strlen) && decide (minPasswordLen ≤ c.password.strlen)

/-- the three `if (changed) write` blocks of `configure`, in order -/
def blocks (c a : StaSettings) : List (Block String (List Byte)) :=
  [⟨decide (c.maxRetryCount ≠ a.maxRetryCount), maxRetryCountKey, toLe 1 a.maxRetryCount.toNat⟩,
    ⟨!valid c || textDiffers c.ssid a.ssid, ssidKey, a.ssid.text⟩,
    ⟨!valid c || textDiffers c.password a.password, passwordKey, a.password.text⟩]

/-- the arguments `configure` goes on with -/
def accepts (a : StaSettings) : Bool :=
  if a.maxRetryCount.toNat < minMaxRetryCount ∨ a.maxRetryCount.toNat > maxMaxRetryCount then false
  else if a.ssid.strlen < minSsidLen ∨ a.ssid.strlen > maxSsidLen then false
  else if a.password.strlen < minPasswordLen ∨ a.password.strlen > maxPasswordLen then false
  else true

def configure (c : StaSettings) (f : Faults) (s : Store) (a : StaSettings) : StatusCode × Store :=
  if accepts a then saveBlocks f s (blocks c a) else (.invalidArg, s)

def reset (f : Faults) (s : Store) : StatusCode × Store := noDataIsNotModified (eraseAll f s)

end StaNetworkConfig

/-- the Kconfig values of the build -/
structure ApBuildConfig where
  channel : Byte
  maxConn : Byte

/-- the settings of `ApNetworkConfig` that `configure` changes -/
@[ext]
structure ApSettings where
  password : CString
  channel : Byte
  maxConn : Byte
deriving DecidableEq

structure ApNetworkConfig where
  ssid : CString
  settings : ApSettings
deriving DecidableEq

namespace ApNetworkConfig

def minPasswordLen : ℕ := 8
def maxPasswordLen : ℕ := 63
def minChannel : ℕ := 1
def maxChannel : ℕ := 13
def minMaxConn : ℕ := 1
def maxMaxConn : ℕ := 7
def maxSsidLen : ℕ := 31
def defaultPasswordLen : ℕ := 12
def passwordKey : String := "password"
def channelKey : String := "channel"
def maxConnKey : String := "max_conn"

/-- `fw_name + "-" + device_id`, cut to the SSID buffer; its length goes through a `uint8_t` first -/
def builtinSsid (dev : DeviceInfo) : CString :=
  let full := CString.ofBuffer (dev.fwName.text ++ (CString.ofString "-").text ++ dev.deviceId.text)
  full.strncpy (min maxSsidLen (full.strlen % 256))

def defaultPassword (dev : DeviceInfo) : CString :=
  (builtinSsid dev).strncpy (min defaultPasswordLen ((builtinSsid dev).strlen % 256))

/-- the constructor -/
def init (build : ApBuildConfig) (dev : DeviceInfo) (f : Faults) (s : Store) : ApNetworkConfig where
  ssid := builtinSsid dev
  settings :=
    { password := probReadStr f s passwordKey maxPasswordLen (defaultPassword dev)
      channel := probReadInt f s channelKey 1 0 build.channel
      maxConn := probReadInt f s maxConnKey 1 0 build.maxConn }

def blocks (c a : ApSettings) : List (Block String (List Byte)) :=
  [⟨textDiffers c.password a.password, passwordKey, a.password.text⟩,
    ⟨decide (c.channel ≠ a.channel), channelKey, toLe 1 a.channel.toNat⟩,
    ⟨decide (c.maxConn ≠ a.maxConn), maxConnKey, toLe 1 a.maxConn.toNat⟩]

def accepts (a : ApSettings) : Bool :=
  if a.channel.toNat < minChannel ∨ a.channel.toNat > maxChannel then false
  else if a.maxConn.toNat < minMaxConn ∨ a.maxConn.toNat > maxMaxConn then false
  else if a.password.strlen < minPasswordLen ∨ a.password.strlen > maxPasswordLen then false
  else true

def configure (c : ApNetworkConfig) (f : Faults) (s : Store) (a : ApSettings) : StatusCode × Store :=
  if accepts a then saveBlocks f s (blocks c.settings a) else (.invalidArg, s)

def reset (f : Faults) (s : Store) : StatusCode × Store := noDataIsNotModified (eraseAll f s)

end ApNetworkConfig

namespace MdnsConfig

def hostnameKey : String := "host"
def maxHostnameSize : ℕ := 31

/-- the constructor: the stored hostname, or the firmware name -/
def init (dev : DeviceInfo) (f : Faults) (s : Store) : CString :=
  probReadStr f s hostnameKey maxHostnameSize (dev.fwName.strncpy (min maxHostnameSize dev.fwName.strlen))

def blocks (c a : CString) : List (Block String (List Byte)) := [⟨textDiffers c a, hostnameKey, a.text⟩]

def accepts (a : CString) : Bool := !decide (a.strlen > maxHostnameSize)

def configure (c : CString) (f : Faults) (s : Store) (a : CString) : StatusCode × Store :=
  if accepts a then saveBlocks f s (blocks c a) else (.invalidArg, s)

/-- the only key of the component is erased -/
def reset (f : Faults) (s : Store) : StatusCode × Store := noDataIsNotModified (Storage.erase f s hostnameKey)

end MdnsConfig

/-! ## What a new object reads -/

theorem textDiffers_iff (old new : CString) :
    textDiffers old new = true ↔ ¬ (old.text <+: new.text ∨ new.text <+: old.text) := by
  simp only [textDiffers, ne_eq, decide_not, Bool.not_eq_true', decide_eq_false_iff_not,
    CString.strncmp_min_eq_zero_iff]

theorem probReadStr_congr {s t : Store} {key : String} (f : Faults) (size : ℕ) (default : CString)
    (h : s.lookup key = t.lookup key) : probReadStr f s key size default = probReadStr f t key size default := by
  simp only [probReadStr, probRead_congr f size h]

/-- a string field after the first `n` blocks were saved, where its own block is number `i` -/
theorem probReadStr_saved {bs : List (Block String (List Byte))} (hnd : (bs.map Block.key).Nodup) (s : Store) (n i : ℕ)
    {changed : Bool} {key : String} {v : CString} (size : ℕ) (default : CString)
    (hb : bs[i]? = some ⟨changed, key, v.text⟩) (hv : v.strlen ≤ size) :
    probReadStr .none (insertAll s (writesOf (bs.take n))) key size default =
      if i < n ∧ changed = true then v else probReadStr .none s key size default := by
  have h := lookup_insertAll_take hnd s n i hb
  simp only at h
  split_ifs at h ⊢ with hc
  · simp only [probReadStr, probRead_of_lookup h hv, CString.ofBuffer_text]
  · exact probReadStr_congr _ _ _ h

/-- an integer field after the first `n` blocks were saved, where its own block is number `i` -/
theorem probReadInt_saved {bs : List (Block String (List Byte))} (hnd : (bs.map Block.key).Nodup) (s : Store) (n i : ℕ)
    {changed : Bool} {key : String} {v : Byte} (default : Byte) (hb : bs[i]? = some ⟨changed, key, toLe 1 v.toNat⟩) :
    probReadInt .none (insertAll s (writesOf (bs.take n))) key 1 0 default =
      if i < n ∧ changed = true then v else probReadInt .none s key 1 0 default := by
  have h := lookup_insertAll_take hnd s n i hb
  simp only at h
  split_ifs at h ⊢ with hc
  · exact probReadInt_of_lookup 1 rfl 0 default v h
  · exact probReadInt_congr _ 1 0 default h

namespace StaNetworkConfig

/-- the settings `old` with those fields of `a` over it that the first `n` blocks of `configure a` save -/
def saved (c a old : StaSettings) (n : ℕ) : StaSettings where
  maxRetryCount := if 0 < n ∧ decide (c.maxRetryCount ≠ a.maxRetryCount) = true then a.maxRetryCount
    else old.maxRetryCount
  ssid := if 1 < n ∧ (!valid c || textDiffers c.ssid a.ssid) = true then a.ssid else old.ssid
  password := if 2 < n ∧ (!valid c || textDiffers c.password a.password) = true then a.password else old.password

theorem accepts_iff (a : StaSettings) :
    accepts a = true ↔ (1 ≤ a.maxRetryCount.toNat ∧ a.maxRetryCount.toNat ≤ 5) ∧
      (1 ≤ a.ssid.strlen ∧ a.ssid.strlen ≤ 31) ∧ 8 ≤ a.password.strlen ∧ a.password.strlen ≤ 63 := by
  simp only [accepts, minMaxRetryCount, maxMaxRetryCount, minSsidLen, maxSsidLen, minPasswordLen, maxPasswordLen]
  split_ifs <;> simp <;> omega

/-- a new object after the first `n` blocks of a `configure` call were saved -/
theorem init_saved (c : StaSettings) (s : Store) (a : StaSettings) (ha : accepts a = true) (n : ℕ) :
    init .none (insertAll s (writesOf ((blocks c a).take n))) = saved c a (init .none s) n := by
  have hnd : ((blocks c a).map Block.key).Nodup := by
    simp [blocks, maxRetryCountKey, ssidKey, passwordKey]
  obtain ⟨-, ⟨-, hssid⟩, -, hpassword⟩ := (accepts_iff a).1 ha
  have hr := probReadInt_saved hnd s n 0 defaultMaxRetryCount rfl
  have hs := probReadStr_saved hnd s n 1 maxSsidLen .empty rfl hssid
  have hp := probReadStr_saved hnd s n 2 maxPasswordLen .empty rfl hpassword
  simp only [init, saved, hr, hs, hp]

end StaNetworkConfig

namespace ApNetworkConfig

/-- the settings `old` with those fields of `a` over it that the first `n` blocks of `configure a` save -/
def saved (c a old : ApSettings) (n : ℕ) : ApSettings where
  password := if 0 < n ∧ textDiffers c.password a.password = true then a.password else old.password
  channel := if 1 < n ∧ decide (c.channel ≠ a.channel) = true then a.channel else old.channel
  maxConn := if 2 < n ∧ decide (c.maxConn ≠ a.maxConn) = true then a.maxConn else old.maxConn

theorem accepts_iff (a : ApSettings) :
    accepts a = true ↔ (1 ≤ a.channel.toNat ∧ a.channel.toNat ≤ 13) ∧ (1 ≤ a.maxConn.toNat ∧ a.maxConn.toNat ≤ 7) ∧
      8 ≤ a.password.strlen ∧ a.password.strlen ≤ 63 := by
  simp only [accepts, minChannel, maxChannel, minMaxConn, maxMaxConn, minPasswordLen, maxPasswordLen]
  split_ifs <;> simp <;> omega

/-- a new object after the first `n` blocks of a `configure` call were saved; its SSID comes from the device alone -/
theorem init_saved (build : ApBuildConfig) (dev : DeviceInfo) (c : ApSettings) (s : Store) (a : ApSettings)
    (ha : accepts a = true) (n : ℕ) :
    init build dev .none (insertAll s (writesOf ((blocks c a).take n))) =
      ⟨builtinSsid dev, saved c a (init build dev .none s).settings n⟩ := by
  have hnd : ((blocks c a).map Block.key).Nodup := by
    simp [blocks, passwordKey, channelKey, maxConnKey]
  obtain ⟨-, -, -, hpassword⟩ := (accepts_iff a).1 ha
  have hp := probReadStr_saved hnd s n 0 maxPasswordLen (defaultPassword dev) rfl hpassword
  have hc := probReadInt_saved hnd s n 1 build.channel rfl
  have hm := probReadInt_saved hnd s n 2 build.maxConn rfl
  simp only [init, saved, hp, hc, hm]

end ApNetworkConfig

namespace MdnsConfig

/-- a new object after the block of a `configure` call was saved -/
theorem init_saved (dev : DeviceInfo) (c : CString) (s : Store) (a : CString) (ha : accepts a = true) :
    init dev .none (insertAll s (writesOf (blocks c a))) = if textDiffers c a = true then a else init dev .none s := by
  have hlen : a.strlen ≤ maxHostnameSize := by
    simpa [accepts] using ha
  have hnd : ((blocks c a).map Block.key).Nodup := by
    simp [blocks]
  have h := probReadStr_saved hnd s 1 0 maxHostnameSize (dev.fwName.strncpy (min maxHostnameSize dev.fwName.strlen)) rfl
    hlen
  simpa [blocks, init] using h

end MdnsConfig

end ControlComponents.Net
