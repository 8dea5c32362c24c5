/-
`SystemCounterPipeline` (`ocs_pipeline/basic`): the seconds since the last power cut and the seconds of the whole life of
the device, over its sessions.

Both counters count from the start of the session (`TimeCounter`) and share the storage. The lifetime is saved by a task
once an hour and by a reboot; the uptime is erased as soon as it is read and saved by a reboot only.

- `runs_spec`: what the storage holds in the middle of a session, and how old it is.
- `lifetime_law`: the lifetime never runs ahead, whatever fails, and a power cut loses little more than an hour.
- `uptime_law`: the uptime is that of the sessions since the last power cut.
-/
import ControlComponents.Diagnostic.PersistentCounter
import ControlComponents.Scheduler.PeriodicTaskScheduler

namespace ControlComponents.Diagnostic

open ControlComponents.Core

/-! ## Counter of time -/

/-- `TimeCounter`; the resolution is asserted -/
structure TimeCounter where
  id : String
  resolution : {resolution : Time // resolution ≠ 0}
  offset : Time

namespace TimeCounter

def new (id : String) (resolution : {resolution : Time // resolution ≠ 0}) : TimeCounter := ⟨id, resolution, 0⟩

/-- `get` at a reading of the clock; the quotient is signed -/
def get (c : TimeCounter) (now : Time) : Value := (now - c.offset).sdiv c.resolution.1

def reset (c : TimeCounter) (now : Time) : TimeCounter := { c with offset := now }

/-- without going back, the counter counts the whole units since it has been reset -/
theorem get_toNat (c : TimeCounter) {now : Time} (hoffset : 0 ≤ c.offset.toInt) (hnow : c.offset.toInt ≤ now.toInt)
    (hresolution : 0 < c.resolution.1.toInt) :
    (c.get now).toNat = (now.toNat - c.offset.toNat) / c.resolution.1.toNat := by
  have hle : c.offset.toNat ≤ now.toNat := by
    rw [BitVec.toInt_eq_toNat_cond] at hoffset hnow
    rw [BitVec.toInt_eq_toNat_cond] at hnow
    split_ifs at hoffset hnow <;> omega
  have hsub : (now - c.offset).toNat = now.toNat - c.offset.toNat := BitVec.toNat_sub_of_le hle
  have hmsb : (now - c.offset).msb = false := by
    rw [BitVec.msb_eq_false_iff_two_mul_lt, hsub]
    rw [BitVec.toInt_eq_toNat_cond] at hnow hoffset
    rw [BitVec.toInt_eq_toNat_cond] at hnow
    split_ifs at hoffset hnow <;> omega
  have hmsb' : c.resolution.1.msb = false := by
    rw [BitVec.msb_eq_toInt]
    exact decide_eq_false (by omega)
  rw [get, BitVec.sdiv_eq, hmsb, hmsb']
  simp only [BitVec.udiv_eq, BitVec.toNat_udiv, hsub]

end TimeCounter

end ControlComponents.Diagnostic

namespace ControlComponents.Pipeline.SystemCounters

open ControlComponents.Core ControlComponents.Diagnostic ControlComponents.Lib.LittleEndian ControlComponents.Scheduler
open ControlComponents.Storage

/-! ## Model -/

def second : Time := 1000000

def hour : PeriodicTaskScheduler.TaskInterval := ⟨3600000000, by decide, by decide⟩

def uptimeCounter : TimeCounter := .new "c_sys_uptime" ⟨second, by decide⟩

def lifetimeCounter : TimeCounter := .new "c_sys_lifetime" ⟨second, by decide⟩

/-- the pipeline in a session, with the storage and the node of its task -/
structure SystemCounterPipeline where
  store : Store
  uptime : BasicPersistentCounter
  lifetime : BasicPersistentCounter
  node : PeriodicTaskScheduler.Node

namespace SystemCounterPipeline

/-- the constructor -/
def init (f : Faults) (s : Store) : SystemCounterPipeline :=
  let (uptime, s) := MemPersistentCounter.init uptimeCounter.id f s
  let (lifetime, s) := AccPersistentCounter.init lifetimeCounter.id f s
  ⟨s, uptime, lifetime, ⟨"lifetime_counter_task", .new ⟨hour.1, hour.2.1⟩⟩⟩

/-- `get` of the two counters at a reading of the clock -/
def getUptime (p : SystemCounterPipeline) (now : Time) : Value :=
  MemPersistentCounter.get p.uptime (uptimeCounter.get now)

def getLifetime (p : SystemCounterPipeline) (now : Time) : Value :=
  AccPersistentCounter.get p.lifetime (lifetimeCounter.get now)

/-- the task in a run of the task scheduler, which reads the clock, and the counter reads it again if it is run -/
def run (p : SystemCounterPipeline) (now counted : Time) (f : Faults) : SystemCounterPipeline :=
  let (code, store) := p.lifetime.run (p.getLifetime counted) f p.store
  let (call, node) := p.node.run now code
  { p with node, store := if call.performed then store else p.store }

/-- what `FanoutRebootHandler` does; the uptime has been added to it first -/
def handleReboot (p : SystemCounterPipeline) (uptime lifetime : Time) (f : Faults) : Store :=
  let store := p.uptime.handleReboot (p.getUptime uptime) f p.store
  p.lifetime.handleReboot (p.getLifetime lifetime) f store

end SystemCounterPipeline

/-- a run of the task scheduler -/
structure Run where
  now : Time
  counted : Time
  faults : Faults

/-- how a session ends: a reboot with the readings of the two counters, or a power cut -/
inductive Ending where
  | reboot (uptime lifetime : Time) (f : Faults)
  | powerCut (now : Time)

/-- a session of the device: the constructors, the runs of the task scheduler and the end; the storage may fail -/
structure Session where
  faults : Faults
  runs : List Run
  ending : Ending

/-- the pipeline after runs of the task scheduler -/
def runAll (p : SystemCounterPipeline) (runs : List Run) : SystemCounterPipeline :=
  runs.foldl (fun p r => p.run r.now r.counted r.faults) p

namespace Session

/-- the storage after a session -/
def exec (s : Store) (ses : Session) : Store :=
  let p := runAll (.init ses.faults s) ses.runs
  match ses.ending with
  | .reboot uptime lifetime f => p.handleReboot uptime lifetime f
  | .powerCut _ => p.store

/-- the last reading -/
def stop (ses : Session) : Time :=
  match ses.ending with
  | .reboot _ lifetime _ => lifetime
  | .powerCut now => now

/-- the readings in order -/
def readings (ses : Session) : List Time :=
  ses.runs.flatMap (fun r => [r.now, r.counted]) ++
    (match ses.ending with
    | .reboot uptime _ _ => [uptime]
    | .powerCut _ => []) ++ [ses.stop]

def rebooted (ses : Session) : Bool :=
  match ses.ending with
  | .reboot _ _ _ => true
  | .powerCut _ => false

/-- the clock starts at zero and does not go back -/
def Timely (ses : Session) : Prop := (0 :: ses.readings.map BitVec.toInt).Pairwise (· ≤ ·)

/-- the storage does not fail -/
def Sound (ses : Session) : Prop :=
  ses.faults = .none ∧ (∀ r ∈ ses.runs, r.faults = .none) ∧
    match ses.ending with
    | .reboot _ _ f => f = .none
    | .powerCut _ => True

/-- the session ends at most `δ` microseconds after the last run of the task scheduler, or after it has started -/
def Regular (δ : ℕ) (ses : Session) : Prop := ses.stop.toInt ≤ (ses.runs.getLast?.map fun r => r.now.toInt).getD 0 + δ

end Session

/-- the whole seconds of a reading -/
def seconds (now : Time) : ℕ := now.toNat / 1000000

/-- the seconds that the device has run -/
def elapsed (sessions : List Session) : ℕ := (sessions.map fun ses => seconds ses.stop).sum

def execAll (s : Store) (sessions : List Session) : Store := sessions.foldl Session.exec s

def powerCuts (sessions : List Session) : ℕ := sessions.countP fun ses => !ses.rebooted

/-- the seconds that a power cut may lose -/
def loss (δ : ℕ) : ℕ := (hour.1.toNat + δ) / 1000000 + 1

/-- the seconds that the reboot of a session saves for the uptime -/
def Session.uptime (ses : Session) : ℕ :=
  match ses.ending with
  | .reboot uptime _ _ => seconds uptime
  | .powerCut _ => 0

/-- the seconds since the last power cut -/
def sinceCut (sessions : List Session) : ℕ := ((sessions.rtakeWhile Session.rebooted).map Session.uptime).sum

/-! ## Readings -/

theorem toInt_eq {now : Time} (h : 0 ≤ now.toInt) : now.toInt = now.toNat := by
  rw [BitVec.toInt_eq_toNat_cond] at h ⊢
  split_ifs at h ⊢ <;> omega

theorem seconds_mono {a b : Time} (ha : 0 ≤ a.toInt) (h : a.toInt ≤ b.toInt) : seconds a ≤ seconds b := by
  have hb := toInt_eq (ha.trans h)
  have ha := toInt_eq ha
  exact Nat.div_le_div_right (by omega)

/-- both counters count the seconds of the session -/
theorem get_seconds (id : String) {now : Time} (h : 0 ≤ now.toInt) :
    ((TimeCounter.new id ⟨second, by decide⟩).get now).toNat = seconds now := by
  have hsecond : 0 < second.toInt := by decide
  rw [TimeCounter.get_toNat _ (by simp [TimeCounter.new]) (by simpa [TimeCounter.new] using h) hsecond]
  simp [TimeCounter.new, seconds, second]

theorem Session.Timely.mem {ses : Session} (h : ses.Timely) {t : Time} (ht : t ∈ ses.readings) :
    0 ≤ t.toInt ∧ t.toInt ≤ ses.stop.toInt := by
  obtain ⟨hpos, hsorted⟩ := List.pairwise_cons.1 h
  refine ⟨hpos _ (List.mem_map_of_mem ht), ?_⟩
  rw [Session.readings, List.mem_append, List.mem_singleton] at ht
  rw [Session.readings, List.map_append, List.pairwise_append] at hsorted
  rcases ht with ht | rfl
  · exact hsorted.2.2 _ (List.mem_map_of_mem ht) _ (by simp)
  · exact le_rfl

theorem Session.Timely.stop {ses : Session} (h : ses.Timely) : 0 ≤ ses.stop.toInt :=
  (h.mem (by simp [Session.readings])).1

theorem Session.Timely.run {ses : Session} (h : ses.Timely) {r : Run} (hr : r ∈ ses.runs) :
    0 ≤ r.counted.toInt ∧ r.counted.toInt ≤ ses.stop.toInt :=
  h.mem (List.mem_append_left _ (List.mem_append_left _ (List.mem_flatMap.2 ⟨r, hr, by simp⟩)))

/-! ## What is saved -/

theorem write_lookup_ne {f : Faults} {s : Store} {key k : String} {value : List Byte} (h : k ≠ key) :
    (write f s key value).2.lookup k = s.lookup k := by
  rcases write_cases f s key value with ⟨e, -, hw⟩ | ⟨-, hw⟩
  · rw [hw]
  · rw [hw]
    exact Finmap.lookup_insert_of_ne s h

theorem erase_lookup_ne {f : Faults} {s : Store} {key k : String} (h : k ≠ key) :
    (erase f s key).2.lookup k = s.lookup k := by
  unfold erase
  cases f.erase key with
  | some e => rfl
  | none =>
    simp only
    split_ifs
    · exact Finmap.lookup_erase_ne h
    · rfl

theorem ids_ne : lifetimeCounter.id ≠ uptimeCounter.id := by decide

/-- a save of the uptime leaves the lifetime -/
theorem reboot_lookup {c : BasicPersistentCounter} (hid : c.id = uptimeCounter.id) (v : Value) (f : Faults) (s : Store) :
    (c.handleReboot v f s).lookup lifetimeCounter.id = s.lookup lifetimeCounter.id :=
  write_lookup_ne (by rw [hid]; exact ids_ne)

/-- what no step of a session changes -/
structure Same (p q : SystemCounterPipeline) : Prop where
  uptime : q.uptime = p.uptime
  lifetime : q.lifetime = p.lifetime
  interval : q.node.limiter.interval = p.node.limiter.interval

theorem runAll_concat (p : SystemCounterPipeline) (runs : List Run) (r : Run) :
    runAll p (runs ++ [r]) = (runAll p runs).run r.now r.counted r.faults := by
  rw [runAll, List.foldl_append]
  rfl

theorem runAll_same (p : SystemCounterPipeline) (runs : List Run) : Same p (runAll p runs) := by
  induction runs using List.reverseRecOn with
  | nil => exact ⟨rfl, rfl, rfl⟩
  | append_singleton runs r ih =>
    rw [runAll_concat]
    exact ⟨ih.uptime, ih.lifetime, (RateLimiter.allow_interval _ _).trans ih.interval⟩

/-! ## The lifetime never runs ahead -/

/-- what is stored of the lifetime is at most `n` -/
def AtMost (s : Store) (n : ℕ) : Prop := ∀ bs ∈ s.lookup lifetimeCounter.id, ofLe bs ≤ n

theorem AtMost.mono {s : Store} {m n : ℕ} (hs : AtMost s m) (h : m ≤ n) : AtMost s n :=
  fun bs hbs => (hs bs hbs).trans h

theorem AtMost.congr {s t : Store} {n : ℕ} (hs : AtMost s n)
    (h : t.lookup lifetimeCounter.id = s.lookup lifetimeCounter.id) : AtMost t n := by
  rw [AtMost, h]
  exact hs

/-- whatever a constructor reads -/
theorem AtMost.init {s : Store} {n : ℕ} (hs : AtMost s n) (f : Faults) :
    (BasicPersistentCounter.init lifetimeCounter.id f s).value.toNat ≤ n := by
  cases hread : (read f s lifetimeCounter.id 8).isOk with
  | false =>
    rw [init_not_restored hread]
    exact Nat.zero_le n
  | true =>
    obtain ⟨bs, hbs, hvalue⟩ := Option.map_eq_some_iff.1 (init_restored hread)
    rw [← hvalue]
    exact hs bs hbs

/-- whether a save gets through or not -/
theorem AtMost.save {s : Store} {n : ℕ} (hs : AtMost s n) {c : BasicPersistentCounter} (hid : c.id = lifetimeCounter.id)
    {v : Value} (hv : v.toNat ≤ n) (f : Faults) : AtMost (c.save_ v f s).2 n := by
  rw [BasicPersistentCounter.save_, hid]
  rcases write_cases f s lifetimeCounter.id (toLe 8 v.toNat) with ⟨e, -, hw⟩ | ⟨-, hw⟩
  · rw [hw]
    exact hs
  · rw [hw]
    intro bs hbs
    obtain rfl : toLe 8 v.toNat = bs := Option.some.inj ((Finmap.lookup_insert s).symm.trans hbs)
    have hmod : v.toNat % 256 ^ 8 = v.toNat := Nat.mod_eq_of_lt v.isLt
    rw [ofLe_toLe, hmod]
    exact hv

/-- the constructors touch the uptime only -/
theorem init_spec (f : Faults) (s : Store) :
    (SystemCounterPipeline.init f s).store.lookup lifetimeCounter.id = s.lookup lifetimeCounter.id ∧
      (SystemCounterPipeline.init f s).lifetime = .init lifetimeCounter.id f (SystemCounterPipeline.init f s).store ∧
      (SystemCounterPipeline.init f s).uptime = .init uptimeCounter.id f s :=
  ⟨erase_lookup_ne ids_ne, rfl, rfl⟩

/-- a value that is saved in a session is at most what has been restored and the seconds of the session -/
theorem getLifetime_toNat {p : SystemCounterPipeline} {now : Time} (hnow : 0 ≤ now.toInt)
    (hfits : p.lifetime.value.toNat + seconds now < 2 ^ 64) :
    (p.getLifetime now).toNat = p.lifetime.value.toNat + seconds now := by
  have hget : (lifetimeCounter.get now).toNat = seconds now := get_seconds _ hnow
  calc (p.getLifetime now).toNat
      = (p.lifetime.value.toNat + (lifetimeCounter.get now).toNat) % 2 ^ 64 := BitVec.toNat_add _ _
    _ = (p.lifetime.value.toNat + seconds now) % 2 ^ 64 := by rw [hget]
    _ = p.lifetime.value.toNat + seconds now := Nat.mod_eq_of_lt hfits

theorem run_atMost {p : SystemCounterPipeline} (hid : p.lifetime.id = lifetimeCounter.id) {n : ℕ}
    (hp : AtMost p.store n) (now : Time) {counted : Time} (hget : (p.getLifetime counted).toNat ≤ n) (f : Faults) :
    AtMost (p.run now counted f).store n := by
  simp only [SystemCounterPipeline.run]
  split_ifs
  · exact hp.save hid hget f
  · exact hp

/-- a session adds at most its seconds to what is stored, whatever fails -/
theorem exec_atMost {s : Store} {n : ℕ} (hs : AtMost s n) {ses : Session} (htimely : ses.Timely)
    (hfits : n + seconds ses.stop < 2 ^ 64) : AtMost (ses.exec s) (n + seconds ses.stop) := by
  obtain ⟨hstore, hlifetime, -⟩ := init_spec ses.faults s
  set p := SystemCounterPipeline.init ses.faults s with hp
  have hid : p.lifetime.id = lifetimeCounter.id := rfl
  have hvalue : p.lifetime.value.toNat ≤ n := by
    rw [hlifetime]
    exact (hs.congr hstore).init ses.faults
  have hget {now : Time} (hpos : 0 ≤ now.toInt) (hle : now.toInt ≤ ses.stop.toInt) {q : SystemCounterPipeline}
      (hq : Same p q) : (q.getLifetime now).toNat ≤ n + seconds ses.stop := by
    have hsec := seconds_mono hpos hle
    rw [← hq.lifetime] at hvalue
    rw [getLifetime_toNat hpos (by omega)]
    omega
  have hruns : ∀ runs, (∀ r ∈ runs, r ∈ ses.runs) → AtMost (runAll p runs).store (n + seconds ses.stop) := by
    intro runs
    induction runs using List.reverseRecOn with
    | nil => exact fun _ => (hs.congr hstore).mono (Nat.le_add_right _ _)
    | append_singleton runs r ih =>
      intro hmem
      have hsame := runAll_same p runs
      obtain ⟨hpos, hle⟩ := htimely.run (hmem r (by simp))
      rw [runAll_concat]
      exact run_atMost (by rw [hsame.lifetime, hid]) (ih fun q hq => hmem q (by simp [hq])) r.now
        (hget hpos hle hsame) r.faults
  have hsame := runAll_same p ses.runs
  have hend := hruns ses.runs fun _ hr => hr
  unfold Session.exec
  rw [← hp]
  cases hending : ses.ending with
  | powerCut now => exact hend
  | reboot uptime lifetime f =>
    have hstop : ses.stop = lifetime := by simp only [Session.stop, hending]
    have huptime : (runAll p ses.runs).uptime.id = uptimeCounter.id := by rw [hsame.uptime]; rfl
    refine AtMost.save (hend.congr (reboot_lookup huptime _ f _)) (by rw [hsame.lifetime, hid]) ?_ f
    exact hget (hstop ▸ htimely.stop) (hstop ▸ le_rfl) hsame

/-! ## How old the lifetime is -/

theorem base_congr {id : String} {s t : Store} (h : t.lookup id = s.lookup id) : base id t = base id s := by
  simp only [base, BasicPersistentCounter.init, Storage.read, h]

/-- the runs of a session are in order, and the counter reads the clock after the scheduler -/
theorem Session.Timely.runs {ses : Session} (h : ses.Timely) :
    (∀ r ∈ ses.runs, r.now.toInt ≤ r.counted.toInt) ∧ ses.runs.Pairwise fun q r => q.now.toInt ≤ r.now.toInt := by
  obtain ⟨-, hsorted⟩ := List.pairwise_cons.1 h
  rw [Session.readings, List.append_assoc, List.map_append, List.pairwise_append, List.pairwise_map,
    List.pairwise_flatMap] at hsorted
  refine ⟨fun r hr => ?_, hsorted.1.2.imp fun hqr => hqr _ (by simp) _ (by simp)⟩
  exact List.rel_of_pairwise_cons (hsorted.1.1 r hr) (by simp)

/-- a run that is refused comes less than the interval after the last one that was allowed -/
theorem lt_of_refused {l : RateLimiter} {now : Time} (h : (l.allow now).1 = false) (hle : l.start.toInt ≤ now.toInt) :
    l.start ≠ 0 ∧ now.toInt < l.start.toInt + l.interval.1.toInt := by
  unfold RateLimiter.allow at h
  split_ifs at h with hrefused
  obtain ⟨hne, hafter⟩ := hrefused
  refine ⟨hne, Int.not_le.1 fun hdue => ?_⟩
  rw [(after_iff l.interval.2 hle).2 hdue] at hafter
  cases hafter

/-- a run of the task saves the lifetime, or it is refused -/
theorem run_cases (p : SystemCounterPipeline) (now counted : Time) (f : Faults) :
    ((p.run now counted f).store = (p.lifetime.run (p.getLifetime counted) f p.store).2 ∧
      (p.run now counted f).node.limiter.start.toInt = now.toInt) ∨
    ((p.run now counted f).store = p.store ∧ (p.run now counted f).node.limiter = p.node.limiter ∧
      (p.node.limiter.allow now).1 = false) := by
  by_cases hallow : (p.node.limiter.allow now).1 = true
  · exact .inl ⟨if_pos hallow, RateLimiter.tracks_performed hallow⟩
  · have hrefused := Bool.eq_false_of_not_eq_true hallow
    exact .inr ⟨if_neg hallow, RateLimiter.allow_refused hrefused, hrefused⟩

/-- **The middle of a session.** Without failures, the storage holds what one of the runs has saved, and the last run was
less than an hour later. -/
theorem runs_spec (s : Store) {runs : List Run} (hne : runs ≠ []) (hsound : ∀ r ∈ runs, r.faults = .none)
    (hsorted : runs.Pairwise fun q r => q.now.toInt ≤ r.now.toInt) :
    ∃ r ∈ runs, (runAll (.init .none s) runs).node.limiter.start.toInt = r.now.toInt ∧
      (runAll (.init .none s) runs).store.lookup lifetimeCounter.id =
        some (toLe 8 ((SystemCounterPipeline.init .none s).getLifetime r.counted).toNat) ∧
      ∀ q ∈ runs.getLast?, q.now.toInt < r.now.toInt + hour.1.toInt := by
  induction runs using List.reverseRecOn with
  | nil => exact absurd rfl hne
  | append_singleton runs q ih =>
    have hsame := runAll_same (.init .none s) runs
    have hhour : 0 < hour.1.toInt := hour.2.1
    have hlast : (runs ++ [q]).getLast? = some q := List.getLast?_concat
    rw [runAll_concat, hlast]
    simp only [Option.mem_some_iff, forall_eq']
    set p := runAll (.init .none s) runs with hp
    have hinterval : p.node.limiter.interval.1 = hour.1 := congrArg Subtype.val hsame.interval
    rcases run_cases p q.now q.counted q.faults with ⟨hstore, hstart⟩ | ⟨hstore, hlimiter, hrefused⟩
    · refine ⟨q, by simp, hstart, ?_, by omega⟩
      have hsaved : p.getLifetime q.counted = (SystemCounterPipeline.init .none s).getLifetime q.counted := by
        rw [SystemCounterPipeline.getLifetime, hsame.lifetime]
        rfl
      have hid : p.lifetime.id = lifetimeCounter.id := by rw [hsame.lifetime]; rfl
      rw [hstore, hsound q (by simp), hsaved]
      simp only [BasicPersistentCounter.run, BasicPersistentCounter.save_, hid, write, Faults.none]
      exact Finmap.lookup_insert _
    · have hruns : runs ≠ [] := by
        rintro rfl
        cases hrefused
      obtain ⟨hpairwise, -, hbefore⟩ := List.pairwise_append.1 hsorted
      obtain ⟨r, hr, hstart, hlookup, -⟩ := ih hruns (fun r hr => hsound r (by simp [hr])) hpairwise
      obtain ⟨-, hlt⟩ := lt_of_refused hrefused (hstart.trans_le (hbefore r hr q (by simp)))
      rw [hinterval, hstart] at hlt
      exact ⟨r, by simp [hr], hlimiter ▸ hstart, hstore ▸ hlookup, hlt⟩

/-- a session without failures adds its seconds, less what a power cut loses -/
theorem exec_atLeast {s : Store} {ses : Session} (htimely : ses.Timely) (hsound : ses.Sound) {δ : ℕ}
    (hregular : ses.Regular δ) (hfits : (base lifetimeCounter.id s).toNat + seconds ses.stop < 2 ^ 64) :
    (base lifetimeCounter.id s).toNat + seconds ses.stop ≤
      (base lifetimeCounter.id (ses.exec s)).toNat + (if ses.rebooted then 0 else loss δ) := by
  obtain ⟨hfaults, hruns, hending⟩ := hsound
  obtain ⟨hstore, hlifetime, -⟩ := init_spec .none s
  set p := SystemCounterPipeline.init .none s with hp
  have hvalue : p.lifetime.value = base lifetimeCounter.id s := base_congr hstore
  have hget {now : Time} (hpos : 0 ≤ now.toInt) (hle : now.toInt ≤ ses.stop.toInt) :
      (p.getLifetime now).toNat = (base lifetimeCounter.id s).toNat + seconds now := by
    have hsec := seconds_mono hpos hle
    rw [getLifetime_toNat hpos (by rw [hvalue]; omega), hvalue]
  have hstop := toInt_eq htimely.stop
  unfold Session.exec
  rw [hfaults, ← hp]
  cases hends : ses.ending with
  | reboot uptime lifetime f =>
    have hf : f = .none := by simpa only [hends] using hending
    have hlast : ses.stop = lifetime := by simp only [Session.stop, hends]
    have hsame := runAll_same p ses.runs
    have hsaved : base lifetimeCounter.id ((runAll p ses.runs).handleReboot uptime lifetime f) = p.getLifetime ses.stop := by
      refine base_of_lookup ?_
      simp only [SystemCounterPipeline.handleReboot, BasicPersistentCounter.handleReboot, BasicPersistentCounter.save_,
        SystemCounterPipeline.getLifetime, hf, hsame.lifetime, hlast, write, Faults.none]
      exact Finmap.lookup_insert _
    simp only [Session.rebooted, hends, if_true, hsaved, hget htimely.stop le_rfl]
    omega
  | powerCut now =>
    simp only [Session.rebooted, hends, Bool.false_eq_true, if_false]
    have hhour : hour.1.toInt = (hour.1.toNat : ℤ) := by decide
    rcases eq_or_ne ses.runs [] with hempty | hne
    · have hkept : base lifetimeCounter.id (runAll p ses.runs).store = base lifetimeCounter.id s := by
        rw [hempty]
        exact base_congr hstore
      have hδ : ses.stop.toInt ≤ δ := by simpa [Session.Regular, hempty] using hregular
      rw [hkept, seconds, loss]
      omega
    · obtain ⟨hcounted, hsorted⟩ := htimely.runs
      obtain ⟨r, hr, -, hlookup, hold⟩ := runs_spec s hne hruns hsorted
      obtain ⟨q, hq⟩ := List.getLast?_isSome.2 hne |> Option.isSome_iff_exists.1
      obtain ⟨hpos, hle⟩ := htimely.run hr
      have hrq := hold q hq
      have hδ : ses.stop.toInt ≤ q.now.toInt + δ := by simpa [Session.Regular, hq] using hregular
      have hrc := hcounted r hr
      have hpos' := toInt_eq hpos
      rw [base_of_lookup hlookup, hget hpos hle, seconds, seconds, loss]
      omega

theorem atMost_of_absent {s : Store} (hs : s.lookup lifetimeCounter.id = none) : AtMost s 0 := by
  intro bs hbs
  rw [hs] at hbs
  cases hbs

theorem elapsed_cons (ses : Session) (sessions : List Session) :
    elapsed (ses :: sessions) = seconds ses.stop + elapsed sessions := List.sum_cons

theorem execAll_atMost (sessions : List Session) (htimely : ∀ ses ∈ sessions, ses.Timely) {s : Store} {n : ℕ}
    (hs : AtMost s n) (hfits : n + elapsed sessions < 2 ^ 64) :
    AtMost (execAll s sessions) (n + elapsed sessions) := by
  induction sessions generalizing s n with
  | nil => exact hs
  | cons ses sessions ih =>
    rw [elapsed_cons] at hfits ⊢
    rw [← Nat.add_assoc]
    have hone := exec_atMost hs (htimely ses List.mem_cons_self) (by omega)
    exact ih (fun t ht => htimely t (List.mem_cons_of_mem _ ht)) hone (by omega)

theorem execAll_atLeast (sessions : List Session) (htimely : ∀ ses ∈ sessions, ses.Timely) {δ : ℕ}
    (h : ∀ ses ∈ sessions, ses.Sound ∧ ses.Regular δ) {s : Store} {n : ℕ} (hs : AtMost s n)
    (hfits : n + elapsed sessions < 2 ^ 64) :
    (base lifetimeCounter.id s).toNat + elapsed sessions ≤
      (base lifetimeCounter.id (execAll s sessions)).toNat + powerCuts sessions * loss δ := by
  induction sessions generalizing s n with
  | nil => simp [execAll, elapsed]
  | cons ses sessions ih =>
    rw [elapsed_cons] at hfits ⊢
    have hbase : (base lifetimeCounter.id s).toNat ≤ n := hs.init .none
    obtain ⟨hsound, hregular⟩ := h ses List.mem_cons_self
    have htime := htimely ses List.mem_cons_self
    have hone := exec_atLeast (s := s) htime hsound hregular (by omega)
    have hrest := ih (fun t ht => htimely t (List.mem_cons_of_mem _ ht)) (fun t ht => h t (List.mem_cons_of_mem _ ht))
      (exec_atMost hs htime (by omega)) (by omega)
    have hcuts : powerCuts (ses :: sessions) * loss δ =
        powerCuts sessions * loss δ + (if ses.rebooted then 0 else loss δ) := by
      rw [powerCuts, List.countP_cons]
      cases ses.rebooted <;> simp [powerCuts, Nat.add_mul]
    calc (base lifetimeCounter.id s).toNat + (seconds ses.stop + elapsed sessions)
        = (base lifetimeCounter.id s).toNat + seconds ses.stop + elapsed sessions := by omega
      _ ≤ (base lifetimeCounter.id (ses.exec s)).toNat + elapsed sessions + (if ses.rebooted then 0 else loss δ) := by
        omega
      _ ≤ (base lifetimeCounter.id (execAll (ses.exec s) sessions)).toNat + powerCuts (ses :: sessions) * loss δ := by
        omega

/-- **The lifetime.** Over any sessions of the device, from a storage without a value, with a clock that does not go back
and as long as the seconds fit: whatever reads and writes fail, the counter is never ahead of the whole seconds that the
sessions of the device have lasted; the fraction of a second that a session ends with is counted for nothing. Without
failures it is behind by at most an hour, the time between two runs of the task scheduler and a second for each power
cut. -/
theorem lifetime_law {s : Store} (hs : s.lookup lifetimeCounter.id = none) (sessions : List Session)
    (htimely : ∀ ses ∈ sessions, ses.Timely) {now : Time} (hnow : 0 ≤ now.toInt)
    (hfits : elapsed sessions + seconds now < 2 ^ 64) :
    (∀ f, ((SystemCounterPipeline.init f (execAll s sessions)).getLifetime now).toNat ≤
      elapsed sessions + seconds now) ∧
    ∀ δ, (∀ ses ∈ sessions, ses.Sound ∧ ses.Regular δ) →
      elapsed sessions + seconds now ≤
        ((SystemCounterPipeline.init .none (execAll s sessions)).getLifetime now).toNat + powerCuts sessions * loss δ := by
  refine ⟨fun f => ?_, fun δ h => ?_⟩
  · have hmost := execAll_atMost sessions htimely (atMost_of_absent hs) (by omega)
    rw [Nat.zero_add] at hmost
    obtain ⟨hstore, hlifetime, -⟩ := init_spec f (execAll s sessions)
    have hvalue := (hmost.congr hstore).init f
    rw [← hlifetime] at hvalue
    rw [getLifetime_toNat hnow (by omega)]
    omega
  · have hmost := execAll_atMost sessions htimely (atMost_of_absent hs) (by omega)
    rw [Nat.zero_add] at hmost
    obtain ⟨hstore, hlifetime, -⟩ := init_spec .none (execAll s sessions)
    have hvalue := (hmost.congr hstore).init .none
    rw [← hlifetime] at hvalue
    have hbase : (SystemCounterPipeline.init .none (execAll s sessions)).lifetime.value =
        base lifetimeCounter.id (execAll s sessions) := base_congr hstore
    have hleast := execAll_atLeast sessions htimely h (atMost_of_absent hs) (by omega)
    rw [getLifetime_toNat hnow (by omega), hbase]
    omega

/-- an hour and two minutes, ended by a power cut, and a minute, ended by a reboot -/
def exampleSessions : List Session :=
  [⟨.none, [⟨1000000, 1000100, .none⟩, ⟨61000000, 61000000, .none⟩, ⟨3661000000, 3661000100, .none⟩],
      .powerCut 3720000000⟩,
    ⟨.none, [⟨1000000, 1000000, .none⟩], .reboot 60000000 60500000 .none⟩]

theorem lifetime_law_example :
    (∀ f, ((SystemCounterPipeline.init f (execAll ∅ exampleSessions)).getLifetime 2000000).toNat ≤ 3782) ∧
      3782 ≤ ((SystemCounterPipeline.init .none (execAll ∅ exampleSessions)).getLifetime 2000000).toNat + 3661 := by
  have htimely : ∀ ses ∈ exampleSessions, ses.Timely := by
    simp only [exampleSessions, List.forall_mem_cons, Session.Timely]
    decide
  have hsound : ∀ ses ∈ exampleSessions, ses.Sound ∧ ses.Regular 60000000 := by
    simp [exampleSessions, Session.Sound, Session.Regular, Session.stop]
  have hnow : 0 ≤ (2000000 : Time).toInt := by decide
  have hlaw := lifetime_law (Finmap.lookup_empty _) exampleSessions htimely hnow (by decide)
  exact ⟨hlaw.1, hlaw.2 60000000 hsound⟩

/-! ## The uptime -/

/-- the task saves the lifetime only -/
theorem runAll_uptime (s : Store) (runs : List Run) :
    (runAll (.init .none s) runs).store.lookup uptimeCounter.id = none := by
  induction runs using List.reverseRecOn with
  | nil =>
    have herase : (erase .none s uptimeCounter.id).2.lookup uptimeCounter.id = none := by
      simp only [erase, Faults.none]
      split_ifs with h
      · exact Finmap.lookup_erase _ s
      · exact Finmap.lookup_eq_none.2 h
    exact herase
  | append_singleton runs r ih =>
    have hsame := runAll_same (.init .none s) runs
    have hid : (runAll (.init .none s) runs).lifetime.id = lifetimeCounter.id := by rw [hsame.lifetime]; rfl
    rw [runAll_concat]
    rcases run_cases (runAll (.init .none s) runs) r.now r.counted r.faults with ⟨hstore, -⟩ | ⟨hstore, -⟩
    · rw [hstore, BasicPersistentCounter.run, BasicPersistentCounter.save_, hid, write_lookup_ne ids_ne.symm]
      exact ih
    · rw [hstore]
      exact ih

theorem sinceCut_concat (sessions : List Session) (ses : Session) :
    sinceCut (sessions ++ [ses]) = if ses.rebooted then sinceCut sessions + ses.uptime else 0 := by
  unfold sinceCut
  rw [List.rtakeWhile_concat]
  split_ifs <;> simp

/-- what is added to a value that is the sum modulo its range -/
theorem add_seconds {v : Value} {n : ℕ} (h : v.toNat = n % 2 ^ 64) {now : Time} (hnow : 0 ≤ now.toInt) :
    (v + uptimeCounter.get now).toNat = (n + seconds now) % 2 ^ 64 := by
  have hget : (uptimeCounter.get now).toNat = seconds now := get_seconds _ hnow
  calc (v + uptimeCounter.get now).toNat
      = (v.toNat + (uptimeCounter.get now).toNat) % 2 ^ 64 := BitVec.toNat_add _ _
    _ = (n + seconds now) % 2 ^ 64 := by rw [hget, h, Nat.mod_add_mod]

/-- a session that ends with a reboot adds its seconds, and a power cut starts over -/
theorem exec_uptime {s : Store} {n : ℕ} (hs : (base uptimeCounter.id s).toNat = n % 2 ^ 64) {ses : Session}
    (htimely : ses.Timely) (hsound : ses.Sound) :
    (base uptimeCounter.id (ses.exec s)).toNat = (if ses.rebooted then n + ses.uptime else 0) % 2 ^ 64 := by
  obtain ⟨hfaults, -, hending⟩ := hsound
  have hkept := runAll_uptime s ses.runs
  unfold Session.exec
  rw [hfaults]
  cases hends : ses.ending with
  | powerCut now =>
    simp only [Session.rebooted, hends, Bool.false_eq_true, if_false]
    rw [base_of_absent hkept]
    rfl
  | reboot uptime lifetime f =>
    have hf : f = .none := by simpa only [hends] using hending
    have hsame := runAll_same (.init .none s) ses.runs
    have hpos : 0 ≤ uptime.toInt := (htimely.mem (by simp [Session.readings, hends])).1
    simp only [Session.rebooted, Session.uptime, hends, if_true, SystemCounterPipeline.handleReboot,
      BasicPersistentCounter.handleReboot, hf, SystemCounterPipeline.getUptime, hsame.uptime, hsame.lifetime]
    rw [← add_seconds hs hpos]
    refine congrArg BitVec.toNat (base_of_lookup ?_)
    have hid : (SystemCounterPipeline.init .none s).lifetime.id = lifetimeCounter.id := rfl
    rw [BasicPersistentCounter.save_, hid, write_lookup_ne ids_ne.symm]
    exact Finmap.lookup_insert _

theorem execAll_uptime {s : Store} (hs : s.lookup uptimeCounter.id = none) (sessions : List Session)
    (h : ∀ ses ∈ sessions, ses.Timely ∧ ses.Sound) :
    (base uptimeCounter.id (execAll s sessions)).toNat = sinceCut sessions % 2 ^ 64 := by
  induction sessions using List.reverseRecOn with
  | nil => exact congrArg BitVec.toNat (base_of_absent hs)
  | append_singleton sessions ses ih =>
    obtain ⟨htimely, hsound⟩ := h ses (by simp)
    have hbefore := ih fun t ht => h t (by simp [ht])
    rw [sinceCut_concat, execAll, List.foldl_append]
    exact exec_uptime hbefore htimely hsound

/-- **The uptime.** Over any sessions of the device without failures, from a storage without a value and as long as the
seconds fit: the counter is at the seconds of this session and of the sessions since the last power cut. -/
theorem uptime_law {s : Store} (hs : s.lookup uptimeCounter.id = none) (sessions : List Session)
    (h : ∀ ses ∈ sessions, ses.Timely ∧ ses.Sound) {now : Time} (hnow : 0 ≤ now.toInt)
    (hfits : sinceCut sessions + seconds now < 2 ^ 64) :
    ((SystemCounterPipeline.init .none (execAll s sessions)).getUptime now).toNat = sinceCut sessions + seconds now := by
  have hadd := add_seconds (execAll_uptime hs sessions h) hnow
  rw [Nat.mod_eq_of_lt hfits] at hadd
  exact hadd

end ControlComponents.Pipeline.SystemCounters
