/-
Persistent counters (`ocs_diagnostic`): `BasicPersistentCounter` with its two subclasses, over sessions of the device.

A session constructs the counter over the storage, which reads the value left by the sessions before, saves any number of
times, and ends with `handle_reboot` or a power cut. `MemPersistentCounter` erases what it has read, so only a session that
ends with a reboot leaves a value to the next one; `AccPersistentCounter` keeps it and overwrites it with every save.

- `step_notDecreasing_iff`: a step decreases the persisted value only by a save of a session that has not read it.
- `never_decreases_iff`: the same for runs. `read_failure_decreases` is a run that goes backwards.
- `base_acc`, `base_mem`, `totals`: what the counters add up to over the sessions, without failures.
-/
import ControlComponents.Storage
import ControlComponents.Lib.Runs
import Mathlib.Data.List.DropRight

namespace ControlComponents.Diagnostic

open ControlComponents.Storage ControlComponents.Lib.LittleEndian ControlComponents.Lib.Runs

/-! ## Model -/

/-- `ICounter::Value` -/
abbrev Value := BitVec 64

structure BasicPersistentCounter where
  id : String
  /-- the value read by the constructor -/
  value : Value

/-- the constructor; a failed read is logged only -/
def BasicPersistentCounter.init (id : String) (f : Faults) (s : Store) : BasicPersistentCounter where
  id := id
  value :=
    match read f s id 8 with
    | .error _ => 0
    | .ok bs => overlay 8 0 bs

/-- the two subclasses -/
inductive Kind where
  | acc
  | mem
deriving DecidableEq

def AccPersistentCounter.init (id : String) (f : Faults) (s : Store) : BasicPersistentCounter × Store :=
  (.init id f s, s)

def AccPersistentCounter.get (c : BasicPersistentCounter) (counter : Value) : Value := c.value + counter

/-- the value is erased as soon as it is read; a failed erase is logged only -/
def MemPersistentCounter.init (id : String) (f : Faults) (s : Store) : BasicPersistentCounter × Store :=
  (.init id f s, (erase f s id).2)

def MemPersistentCounter.get (c : BasicPersistentCounter) (counter : Value) : Value := c.value + counter

def Kind.init : Kind → String → Faults → Store → BasicPersistentCounter × Store
  | .acc => AccPersistentCounter.init
  | .mem => MemPersistentCounter.init

/-- the virtual `get`, given the value of the inner counter -/
def Kind.get : Kind → BasicPersistentCounter → Value → Value
  | .acc => AccPersistentCounter.get
  | .mem => MemPersistentCounter.get

def BasicPersistentCounter.save_ (c : BasicPersistentCounter) (get : Value) (f : Faults) (s : Store) :
    StatusCode × Store := write f s c.id (toLe 8 get.toNat)

def BasicPersistentCounter.run (c : BasicPersistentCounter) (get : Value) (f : Faults) (s : Store) :
    StatusCode × Store := c.save_ get f s

/-- the status of the save is logged only -/
def BasicPersistentCounter.handleReboot (c : BasicPersistentCounter) (get : Value) (f : Faults) (s : Store) : Store :=
  (c.save_ get f s).2

/-- a running session -/
structure Session where
  counter : BasicPersistentCounter
  /-- the value of the inner counter -/
  inner : Value
  /-- whether the constructor has read a value -/
  restored : Bool

/-- the device, in a session or between two -/
structure Device where
  kind : Kind
  id : String
  store : Store
  session : Option Session

/-- what happens to the device; any read, write or erase may fail -/
inductive Event where
  | construct (f : Faults) (inner : Value)
  /-- the inner counter changes -/
  | count (inner : Value)
  | run (f : Faults)
  | reboot (f : Faults)
  | powerCut

def Device.start (kind : Kind) (id : String) (s : Store) : Device := ⟨kind, id, s, none⟩

/-- `get()` of the running session -/
def Device.get (d : Device) : Option Value := d.session.map fun ses => d.kind.get ses.counter ses.inner

def step (d : Device) : Event → Option Device
  | .construct f inner =>
    match d.session with
    | some _ => none
    | none =>
      let (counter, store) := d.kind.init d.id f d.store
      some { d with store, session := some ⟨counter, inner, (read f d.store d.id 8).isOk⟩ }
  | .count inner =>
    match d.session with
    | some ses => some { d with session := some { ses with inner } }
    | none => none
  | .run f =>
    match d.session with
    | some ses => some { d with store := (ses.counter.run (d.kind.get ses.counter ses.inner) f d.store).2 }
    | none => none
  | .reboot f =>
    match d.session with
    | some ses => some { d with
        store := ses.counter.handleReboot (d.kind.get ses.counter ses.inner) f d.store
        session := none }
    | none => none
  | .powerCut =>
    match d.session with
    | some _ => some { d with session := none }
    | none => none

/-! ## The persisted value -/

/-- the number persisted under the id of the counter; `⊥` if there is none -/
def Device.persisted (d : Device) : WithBot ℕ := (d.store.lookup d.id).map ofLe

/-- the inner counter does not decrease within a session, and the sum of `get` fits -/
def Counts (d : Device) (e : Event) : Prop :=
  match e, d.session with
  | .count inner, some ses => ses.inner.toNat ≤ inner.toNat ∧ ses.counter.value.toNat + inner.toNat < 2 ^ 64
  | .construct f inner, none => (BasicPersistentCounter.init d.id f d.store).value.toNat + inner.toNat < 2 ^ 64
  | _, _ => True

instance (d : Device) (e : Event) : Decidable (Counts d e) := by
  unfold Counts
  split <;> infer_instance

/-- the step does not decrease the persisted value -/
def NotDecreasing (d : Device) (e : Event) : Prop := ∀ d' ∈ step d e, d.persisted ≤ d'.persisted

instance (d : Device) (e : Event) : Decidable (NotDecreasing d e) := by
  unfold NotDecreasing; infer_instance

/-- a save that gets through in a session that has not read a value has an inner counter at least the persisted value -/
def Restored (d : Device) (e : Event) : Prop :=
  match e, d.session with
  | .run f, some ses | .reboot f, some ses =>
    ses.restored = false → f.write d.id = none → d.persisted ≤ ses.inner.toNat
  | _, _ => True

instance (d : Device) (e : Event) : Decidable (Restored d e) := by
  unfold Restored
  split <;> infer_instance

/-! ## What the constructor reads -/

/-- a read that succeeds restores the persisted value -/
theorem init_restored {id : String} {f : Faults} {s : Store} (h : (read f s id 8).isOk = true) :
    (s.lookup id).map ofLe = some (BasicPersistentCounter.init id f s).value.toNat := by
  unfold BasicPersistentCounter.init
  cases hread : read f s id 8 with
  | error code => simp [hread, Except.isOk, Except.toBool] at h
  | ok bs => exact map_ofLe_of_read rfl hread

/-- a read that fails leaves the value zero -/
theorem init_not_restored {id : String} {f : Faults} {s : Store} (h : (read f s id 8).isOk = false) :
    (BasicPersistentCounter.init id f s).value = 0 := by
  unfold BasicPersistentCounter.init
  cases hr : read f s id 8 with
  | error code => rfl
  | ok bs => simp [hr, Except.isOk, Except.toBool] at h

/-! ## The accumulating counter -/

/-- what holds of a device with an accumulating counter: a session that has read a value is not behind it -/
structure Inv (d : Device) : Prop where
  kind : d.kind = .acc
  id : ∀ ses ∈ d.session, ses.counter.id = d.id
  fits : ∀ ses ∈ d.session, ses.counter.value.toNat + ses.inner.toNat < 2 ^ 64
  restored : ∀ ses ∈ d.session, ses.restored = true →
    d.persisted ≤ (ses.counter.value.toNat + ses.inner.toNat : ℕ)
  zero : ∀ ses ∈ d.session, ses.restored = false → ses.counter.value = 0

/-- a save that gets through -/
theorem persisted_insert (d : Device) (v : Value) (ses : Option Session) :
    Device.persisted { d with store := d.store.insert d.id (toLe 8 v.toNat), session := ses } = v.toNat := by
  have hv : v.toNat % 256 ^ 8 = v.toNat := Nat.mod_eq_of_lt v.isLt
  simp only [Device.persisted, Finmap.lookup_insert, Option.map_some, ofLe_toLe, hv]
  rfl

/-- the saved sum does not wrap around -/
theorem Inv.toNat_get {d : Device} (hd : Inv d) {ses : Session} (hses : d.session = some ses) :
    (d.kind.get ses.counter ses.inner).toNat = ses.counter.value.toNat + ses.inner.toNat := by
  have hfits := hd.fits ses hses
  rw [hd.kind]
  simp only [Kind.get, AccPersistentCounter.get, BitVec.toNat_add]
  exact Nat.mod_eq_of_lt hfits

/-- the store after a save -/
theorem save_cases {d : Device} (hd : Inv d) {ses : Session} (hses : d.session = some ses) (f : Faults) :
    (∃ e, f.write d.id = some e ∧ (ses.counter.save_ (d.kind.get ses.counter ses.inner) f d.store).2 = d.store) ∨
      (f.write d.id = none ∧ (ses.counter.save_ (d.kind.get ses.counter ses.inner) f d.store).2 =
        d.store.insert d.id (toLe 8 (d.kind.get ses.counter ses.inner).toNat)) := by
  have hid := hd.id ses hses
  unfold BasicPersistentCounter.save_
  rw [hid]
  rcases write_cases f d.store d.id (toLe 8 (d.kind.get ses.counter ses.inner).toNat) with ⟨e, he, hw⟩ | ⟨he, hw⟩
  · exact Or.inl ⟨e, he, by rw [hw]⟩
  · exact Or.inr ⟨he, by rw [hw]⟩

/-- between two sessions -/
theorem inv_of_idle {d : Device} (hkind : d.kind = .acc) (hidle : d.session = none) : Inv d := by
  have hnone (ses : Session) : ses ∉ d.session := by
    rw [hidle]
    exact Option.not_mem_none ses
  exact ⟨hkind, fun ses h => absurd h (hnone ses), fun ses h => absurd h (hnone ses), fun ses h => absurd h (hnone ses),
    fun ses h => absurd h (hnone ses)⟩

theorem start_inv (id : String) (s : Store) : Inv (.start .acc id s) := inv_of_idle rfl rfl

theorem step_inv (d : Device) (e : Event) (d' : Device) (hd : Inv d) (hc : Counts d e) (h : step d e = some d') :
    Inv d' := by
  cases hses : d.session with
  | none =>
    cases e with
    | construct f inner =>
      simp only [step, hses, hd.kind, Kind.init, AccPersistentCounter.init, Option.some.injEq] at h
      simp only [Counts, hses] at hc
      subst h
      refine ⟨rfl, ?_, ?_, ?_, ?_⟩ <;> rintro ses ⟨⟩
      · rfl
      · exact hc
      · intro hread
        calc Device.persisted d
            = (BasicPersistentCounter.init d.id f d.store).value.toNat := init_restored hread
          _ ≤ ((BasicPersistentCounter.init d.id f d.store).value.toNat + inner.toNat : ℕ) :=
            WithBot.coe_le_coe.2 (Nat.le_add_right _ _)
      · exact init_not_restored
    | _ => simp [step, hses] at h
  | some ses =>
    cases e with
    | construct f inner => simp [step, hses] at h
    | count inner =>
      simp only [step, hses, Option.some.injEq] at h
      simp only [Counts, hses] at hc
      subst h
      refine ⟨hd.kind, ?_, ?_, ?_, ?_⟩ <;> rintro ses' ⟨⟩
      · exact hd.id ses hses
      · exact hc.2
      · intro hread
        calc Device.persisted d
            ≤ (ses.counter.value.toNat + ses.inner.toNat : ℕ) := hd.restored ses hses hread
          _ ≤ (ses.counter.value.toNat + inner.toNat : ℕ) := WithBot.coe_le_coe.2 (Nat.add_le_add_left hc.1 _)
      · exact hd.zero ses hses
    | run f =>
      simp only [step, hses, BasicPersistentCounter.run, Option.some.injEq] at h
      subst h
      refine ⟨hd.kind, ?_, ?_, ?_, ?_⟩ <;> rintro ses' ⟨⟩
      · exact hd.id ses hses
      · exact hd.fits ses hses
      · intro hread
        rcases save_cases hd hses f with ⟨-, -, hstore⟩ | ⟨-, hstore⟩
        · rw [hstore]
          exact hd.restored ses hses hread
        · rw [hstore]
          exact ((persisted_insert d _ _).trans (congrArg _ (hd.toNat_get hses))).le
      · exact hd.zero ses hses
    | reboot f =>
      simp only [step, hses, Option.some.injEq] at h
      subst h
      exact inv_of_idle hd.kind rfl
    | powerCut =>
      simp only [step, hses, Option.some.injEq] at h
      subst h
      exact inv_of_idle hd.kind rfl

/-- a step that does not touch the persisted value does not decrease it -/
theorem notDecreasing_of_persisted {d : Device} {e : Event} (h : ∀ d' ∈ step d e, d'.persisted = d.persisted) :
    NotDecreasing d e := by
  intro d' hd'
  exact (h d' hd').ge

/-- a save decreases the persisted value iff it gets through in a session that starts from zero below that value -/
theorem save_notDecreasing_iff {d : Device} (hd : Inv d) {ses : Session} (hses : d.session = some ses) {f : Faults}
    {e : Event} {after : Option Session} (hstep : step d e =
      some { d with store := (ses.counter.save_ (d.kind.get ses.counter ses.inner) f d.store).2, session := after }) :
    NotDecreasing d e ↔ (ses.restored = false → f.write d.id = none → d.persisted ≤ ses.inner.toNat) := by
  rcases save_cases hd hses f with ⟨fault, hf, hstore⟩ | ⟨hf, hstore⟩
  · rw [hstore] at hstep
    refine ⟨?_, ?_⟩
    · intro _ _ hnone
      rw [hf] at hnone
      cases hnone
    · intro _
      apply notDecreasing_of_persisted
      intro d' hd'
      rw [hstep] at hd'
      cases hd'
      rfl
  · rw [hstore] at hstep
    have hsaved := (persisted_insert d _ after).trans (congrArg _ (hd.toNat_get hses))
    have hiff : NotDecreasing d e ↔ d.persisted ≤ (ses.counter.value.toNat + ses.inner.toNat : ℕ) := by
      refine ⟨?_, ?_⟩
      · intro h
        exact (h _ hstep).trans hsaved.le
      · intro h d' hd'
        rw [hstep] at hd'
        cases hd'
        exact h.trans hsaved.ge
    rw [hiff]
    cases hr : ses.restored with
    | true =>
      exact iff_of_true (hd.restored ses hses hr) (fun h => absurd h (by decide))
    | false =>
      rw [hd.zero ses hses hr]
      simp [hf]

/-- **What a step does to the persisted value.** It decreases only by a save of a session that has not read it. -/
theorem step_notDecreasing_iff (d : Device) (e : Event) (hd : Inv d) : NotDecreasing d e ↔ Restored d e := by
  cases hses : d.session with
  | none =>
    have htrue : Restored d e := by cases e <;> simp [Restored, hses]
    refine iff_of_true ?_ htrue
    apply notDecreasing_of_persisted
    intro d' hd'
    cases e with
    | construct f inner =>
      simp only [step, hses, hd.kind, Kind.init, AccPersistentCounter.init] at hd'
      cases hd'
      rfl
    | _ => simp [step, hses] at hd'
  | some ses =>
    cases e with
    | run f =>
      have hstep : step d (.run f) = some { d with
          store := (ses.counter.save_ (d.kind.get ses.counter ses.inner) f d.store).2, session := some ses } := by
        simp only [step, hses, BasicPersistentCounter.run]
      rw [save_notDecreasing_iff hd hses hstep]
      simp only [Restored, hses]
    | reboot f =>
      have hstep : step d (.reboot f) = some { d with
          store := (ses.counter.save_ (d.kind.get ses.counter ses.inner) f d.store).2, session := none } := by
        simp only [step, hses, BasicPersistentCounter.handleReboot]
      rw [save_notDecreasing_iff hd hses hstep]
      simp only [Restored, hses]
    | _ =>
      refine iff_of_true ?_ (by simp [Restored])
      apply notDecreasing_of_persisted
      intro d' hd'
      simp only [step, hses] at hd'
      cases hd'
      try rfl

/-- **The persisted value over the sessions.** In every run over any storage, with inner counters that do not decrease
within a session, sums that fit and any reads and writes failing, the persisted value never decreases iff every save that
gets through in a session that has not read it has an inner counter at least as large. -/
theorem never_decreases_iff (id : String) (s : Store) (es : List Event)
    (hc : GuardedExec step Counts (.start .acc id s) es) :
    GuardedExec step NotDecreasing (.start .acc id s) es ↔ GuardedExec step Restored (.start .acc id s) es :=
  guardedExec_congr step_inv (fun d e hd _ => step_notDecreasing_iff d e hd) (start_inv id s) es hc

def NeverDecreases : Prop :=
  ∀ (id : String) (s : Store) (es : List Event),
    GuardedExec step Counts (.start .acc id s) es → GuardedExec step NotDecreasing (.start .acc id s) es

/-- 100 under the id of the counter -/
def exampleStore : Store := (∅ : Store).insert "uptime" (toLe 8 100)

def readFails : Faults := { Faults.none with read := fun _ => some .plain }

/-- two saves of a session that has read 100, one of them failing -/
theorem never_decreases_iff_example :
    let es := [.construct .none 5, .run .none, .count 7, .run { Faults.none with write := fun _ => some .plain },
      .reboot .none]
    GuardedExec step NotDecreasing (.start .acc "uptime" exampleStore) es ∧
      (exec step (.start .acc "uptime" exampleStore) es).map Device.persisted = some (107 : ℕ) :=
  ⟨(never_decreases_iff "uptime" exampleStore _ (by decide)).2 (by decide), by decide⟩

/-- **A failed read loses the history.** The constructor cannot read the 100 of the sessions before, takes zero, and the
first save replaces the 100 by the 5 of the inner counter. -/
theorem read_failure_decreases : ¬ NeverDecreases ∧
    (exec step (.start .acc "uptime" exampleStore) [.construct readFails 5, .run .none]).map Device.persisted =
      some (5 : ℕ) := by
  refine ⟨fun h => ?_, by decide⟩
  have hbad := h "uptime" exampleStore [.construct readFails 5, .run .none] (by decide)
  revert hbad
  decide

/-! ## Totals over sessions -/

/-- how a session ends -/
inductive Ending where
  | reboot (inner : Value)
  | powerCut

/-- a session without failures: the inner counter at its start, at its calls of `run`, and at its end -/
structure Past where
  first : Value
  saves : List Value
  ending : Ending

/-- saves by `run` -/
def saveEvents (saves : List Value) : List Event := saves.flatMap fun inner => [.count inner, .run .none]

def Past.events (p : Past) : List Event :=
  .construct .none p.first :: saveEvents p.saves ++
    match p.ending with
    | .reboot inner => [.count inner, .reboot .none]
    | .powerCut => [.powerCut]

/-- the inner counter at the last save; 0 if there was none -/
def Past.lastSave (p : Past) : Value :=
  match p.ending with
  | .reboot inner => inner
  | .powerCut => p.saves.getLast?.getD 0

def Past.rebooted (p : Past) : Bool :=
  match p.ending with
  | .reboot _ => true
  | .powerCut => false

/-- what a constructor reads -/
def base (id : String) (s : Store) : Value := (BasicPersistentCounter.init id .none s).value

theorem base_of_lookup {id : String} {s : Store} {v : Value} (h : s.lookup id = some (toLe 8 v.toNat)) :
    base id s = v := by
  have hread : Storage.read .none s id 8 = .ok (toLe 8 v.toNat) := by simp [Storage.read, Faults.none, h]
  simp only [base, BasicPersistentCounter.init, hread, overlay_toLe 8 rfl]

theorem base_of_absent {id : String} {s : Store} (h : s.lookup id = none) : base id s = 0 := by
  have hread : Storage.read .none s id 8 = .error .noData := by simp [Storage.read, Faults.none, h]
  simp only [base, BasicPersistentCounter.init, hread]

/-- the store after saves of the given values -/
def saved (s : Store) (id : String) : Option Value → Store
  | none => s
  | some v => s.insert id (toLe 8 v.toNat)

/-- saves leave the last value saved -/
theorem exec_saves (kind : Kind) (id : String) (c : BasicPersistentCounter) (hc : c.id = id) (r : Bool)
    (saves : List Value) (s : Store) (inner : Value) :
    exec step ⟨kind, id, s, some ⟨c, inner, r⟩⟩ (saveEvents saves) =
      some ⟨kind, id, saved s id (saves.getLast?.map (kind.get c)), some ⟨c, saves.getLast?.getD inner, r⟩⟩ := by
  induction saves generalizing s inner with
  | nil => rfl
  | cons v saves ih =>
    have hstep : exec step ⟨kind, id, s, some ⟨c, inner, r⟩⟩ [.count v, .run .none] =
        some ⟨kind, id, s.insert id (toLe 8 (kind.get c v).toNat), some ⟨c, v, r⟩⟩ := by
      simp [exec, step, BasicPersistentCounter.run, BasicPersistentCounter.save_, write, Faults.none, hc]
    have hsplit : saveEvents (v :: saves) = [.count v, .run .none] ++ saveEvents saves := rfl
    rw [hsplit, exec_append, hstep, Option.bind_some, ih, List.getLast?_cons]
    cases saves.getLast? with
    | none => rfl
    | some u => simp [saved, Finmap.insert_insert]

/-- a past session of the accumulating counter adds its last save -/
theorem exec_acc (id : String) (s : Store) (p : Past) :
    ∃ t, exec step (.start .acc id s) p.events = some (.start .acc id t) ∧ base id t = base id s + p.lastSave := by
  obtain ⟨first, saves, ending⟩ := p
  have hcons : step (.start .acc id s) (.construct .none first) =
      some ⟨.acc, id, s, some ⟨.init id .none s, first, (Storage.read .none s id 8).isOk⟩⟩ := rfl
  have hsaves := exec_saves .acc id (.init id .none s) rfl (Storage.read .none s id 8).isOk saves s first
  set s' := saved s id (saves.getLast?.map (Kind.get .acc (.init id .none s))) with hs'
  cases ending with
  | reboot inner =>
    refine ⟨s'.insert id (toLe 8 (base id s + inner).toNat), ?_, base_of_lookup (Finmap.lookup_insert s')⟩
    rw [Past.events, List.cons_append, exec, hcons, Option.bind_some, exec_append, hsaves]
    simp only [Option.bind_some, exec, step, BasicPersistentCounter.handleReboot, BasicPersistentCounter.save_, write,
      Faults.none]
    rfl
  | powerCut =>
    refine ⟨s', ?_, ?_⟩
    · rw [Past.events, List.cons_append, exec, hcons, Option.bind_some, exec_append, hsaves]
      rfl
    · simp only [Past.lastSave, hs']
      cases saves.getLast? with
      | none => exact (BitVec.add_zero _).symm
      | some v => exact base_of_lookup (Finmap.lookup_insert s)

/-- a past session of the other counter adds its final value if it ends with a reboot, and starts over otherwise -/
theorem exec_mem (id : String) (s : Store) (p : Past) (hsaves : p.saves = []) :
    ∃ t, exec step (.start .mem id s) p.events = some (.start .mem id t) ∧
      base id t = if p.rebooted then base id s + p.lastSave else 0 := by
  obtain ⟨first, saves, ending⟩ := p
  subst hsaves
  set s' := (erase .none s id).2 with hs'
  have hcons : step (.start .mem id s) (.construct .none first) =
      some ⟨.mem, id, s', some ⟨.init id .none s, first, (Storage.read .none s id 8).isOk⟩⟩ := rfl
  cases ending with
  | reboot inner =>
    refine ⟨s'.insert id (toLe 8 (base id s + inner).toNat), ?_, base_of_lookup (Finmap.lookup_insert s')⟩
    rw [Past.events, List.cons_append, exec, hcons]
    rfl
  | powerCut =>
    refine ⟨s', ?_, base_of_absent ?_⟩
    · rw [Past.events, List.cons_append, exec, hcons]
      rfl
    · simp only [hs', erase, Faults.none]
      split_ifs with h
      · exact Finmap.lookup_erase id s
      · exact Finmap.lookup_eq_none.2 h

/-- the sum over past sessions -/
def total (past : List Past) : ℕ := (past.map fun p => p.lastSave.toNat).sum

theorem total_concat (past : List Past) (p : Past) : total (past ++ [p]) = total past + p.lastSave.toNat := by
  simp [total]

/-- the sum modulo the range of a value, with one more session -/
theorem toNat_add_total {v : Value} {past : List Past} (h : v.toNat = total past % 2 ^ 64) (p : Past) :
    (v + p.lastSave).toNat = total (past ++ [p]) % 2 ^ 64 := by
  calc (v + p.lastSave).toNat
      = (v.toNat + p.lastSave.toNat) % 2 ^ 64 := BitVec.toNat_add _ _
    _ = (total past + p.lastSave.toNat) % 2 ^ 64 := by rw [h, Nat.mod_add_mod]
    _ = total (past ++ [p]) % 2 ^ 64 := by rw [total_concat]

/-- the accumulating counter restores the sum of the last saves -/
theorem base_acc (id : String) {s : Store} (hs : s.lookup id = none) (past : List Past) :
    ∃ t, exec step (.start .acc id s) (past.flatMap Past.events) = some (.start .acc id t) ∧
      (base id t).toNat = total past % 2 ^ 64 := by
  induction past using List.reverseRecOn with
  | nil => exact ⟨s, rfl, by rw [base_of_absent hs]; rfl⟩
  | append_singleton past p ih =>
    obtain ⟨t, hexec, hbase⟩ := ih
    obtain ⟨t', hexec', hbase'⟩ := exec_acc id t p
    refine ⟨t', ?_, ?_⟩
    · rw [List.flatMap_append, exec_append, hexec, Option.bind_some, List.flatMap_singleton, hexec']
    · rw [hbase']
      exact toNat_add_total hbase p

/-- the other counter restores the sum of the final values since the last power cut -/
theorem base_mem (id : String) {s : Store} (hs : s.lookup id = none) (past : List Past)
    (hsaves : ∀ p ∈ past, p.saves = []) :
    ∃ t, exec step (.start .mem id s) (past.flatMap Past.events) = some (.start .mem id t) ∧
      (base id t).toNat = total (past.rtakeWhile Past.rebooted) % 2 ^ 64 := by
  induction past using List.reverseRecOn with
  | nil => exact ⟨s, rfl, by rw [base_of_absent hs]; rfl⟩
  | append_singleton past p ih =>
    obtain ⟨t, hexec, hbase⟩ := ih fun q hq => hsaves q (List.mem_append_left _ hq)
    obtain ⟨t', hexec', hbase'⟩ := exec_mem id t p (hsaves p (by simp))
    refine ⟨t', ?_, ?_⟩
    · rw [List.flatMap_append, exec_append, hexec, Option.bind_some, List.flatMap_singleton, hexec']
    · rw [hbase', List.rtakeWhile_concat]
      split_ifs
      · exact toNat_add_total hbase p
      · rfl

/-- the running session: it has saved some values, and the inner counter is at `inner` now -/
def current (first : Value) (saves : List Value) (inner : Value) : List Event :=
  .construct .none first :: saveEvents saves ++ [.count inner]

theorem get_current (kind : Kind) (id : String) (s : Store) (first : Value) (saves : List Value) (inner : Value) :
    (exec step (.start kind id s) (current first saves inner)).bind Device.get = some (base id s + inner) := by
  obtain ⟨c, t, r, hcons, hid, hvalue⟩ : ∃ c t r, step (.start kind id s) (.construct .none first) =
      some ⟨kind, id, t, some ⟨c, first, r⟩⟩ ∧ c.id = id ∧ c.value = base id s := by
    cases kind with
    | acc => exact ⟨_, _, _, rfl, rfl, rfl⟩
    | mem => exact ⟨_, _, _, rfl, rfl, rfl⟩
  have hget : kind.get c inner = base id s + inner := by
    cases kind with
    | acc => simp only [Kind.get, AccPersistentCounter.get, hvalue]
    | mem => simp only [Kind.get, MemPersistentCounter.get, hvalue]
  rw [current, List.cons_append, exec, hcons, Option.bind_some, exec_append, exec_saves kind id c hid]
  exact congrArg some hget

/-- the running session after sessions that leave the sum `n` -/
theorem get_after {kind : Kind} {id : String} {s t : Store} {past : List Event} {n : ℕ}
    (hexec : exec step (.start kind id s) past = some (.start kind id t)) (hbase : (base id t).toNat = n % 2 ^ 64)
    (first : Value) (saves : List Value) {inner : Value} (hfits : inner.toNat + n < 2 ^ 64) :
    ((exec step (.start kind id s) (past ++ current first saves inner)).bind Device.get).map BitVec.toNat =
      some (inner.toNat + n) := by
  have hsum : (base id t + inner).toNat = inner.toNat + n := by
    calc (base id t + inner).toNat
        = ((base id t).toNat + inner.toNat) % 2 ^ 64 := BitVec.toNat_add _ _
      _ = (inner.toNat + n) % 2 ^ 64 := by rw [hbase, Nat.mod_add_mod, Nat.add_comm]
      _ = inner.toNat + n := Nat.mod_eq_of_lt hfits
  rw [exec_append, hexec, Option.bind_some, get_current, Option.map_some, hsum]

/-- **Totals.** Without failures and overflows, over a storage without a value: the accumulating counter is at the inner
value plus the inner values at the last save of every past session, and the other counter, saved by reboots only, is at
the inner value plus the final inner values of the past sessions since the last power cut. -/
theorem totals (id : String) {s : Store} (hs : s.lookup id = none) (past : List Past) (first inner : Value) :
    (∀ saves, inner.toNat + total past < 2 ^ 64 →
      ((exec step (.start .acc id s) (past.flatMap Past.events ++ current first saves inner)).bind Device.get).map
        BitVec.toNat = some (inner.toNat + total past)) ∧
    ((∀ p ∈ past, p.saves = []) → inner.toNat + total (past.rtakeWhile Past.rebooted) < 2 ^ 64 →
      ((exec step (.start .mem id s) (past.flatMap Past.events ++ current first [] inner)).bind Device.get).map
        BitVec.toNat = some (inner.toNat + total (past.rtakeWhile Past.rebooted))) := by
  refine ⟨?_, ?_⟩
  · intro saves hfits
    obtain ⟨t, hexec, hbase⟩ := base_acc id hs past
    exact get_after hexec hbase first saves hfits
  · intro hsaves hfits
    obtain ⟨t, hexec, hbase⟩ := base_mem id hs past hsaves
    exact get_after hexec hbase first [] hfits

/-- a session with two saves and a power cut, one that ends with a reboot, and the running one -/
theorem totals_example :
    let past := [⟨1, [4, 6], .powerCut⟩, ⟨0, [], .reboot 10⟩]
    ((exec step (.start .acc "uptime" ∅) (past.flatMap Past.events ++ current 0 [2] 3)).bind Device.get).map
      BitVec.toNat = some 19 ∧
    ((exec step (.start .mem "uptime" ∅) ([⟨1, [], .powerCut⟩, ⟨0, [], .reboot 10⟩].flatMap Past.events ++
      current 0 [] 3)).bind Device.get).map BitVec.toNat = some 13 :=
  ⟨(totals "uptime" (Finmap.lookup_empty _) _ 0 3).1 [2] (by decide),
    (totals "uptime" (Finmap.lookup_empty _) [⟨1, [], .powerCut⟩, ⟨0, [], .reboot 10⟩] 0 3).2 (by decide) (by decide)⟩

end ControlComponents.Diagnostic
