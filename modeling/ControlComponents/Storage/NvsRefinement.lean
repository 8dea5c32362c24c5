/-
The NVS storages of a device refine the storage model: what the operations of `NvsStorage` do to the namespaces, over any
driver that does what is documented.

- `faultsOf`: the failures of an operation, from the answers to its own calls.
- `Acts`, `Acts.withHandle`: what a program does through a handle, and with the handle around it.
- `op_spec`: an operation acts on its namespace as the storage model acts on a store.
- `refines_storage`: the same for all operations of all storages, up to a power cut at any call.

A commit that fails is left out: it reports an error, and the change may be there.
-/
import ControlComponents.Storage.NvsStorage

namespace ControlComponents.Storage

open ControlComponents.Lib.Calls

/-! ## The failures of an operation -/

/-- all storage calls fail alike -/
def Faults.always (e : Fault) : Faults := ⟨fun _ => some e, fun _ => some e, fun _ => some e, fun _ => some e, some e, false⟩

theorem Op.apply_always (op : Op) (e : Fault) (s : Store) : op.apply (.always e) s = ((e.code, 0, []), s) := by
  cases op <;> rfl

def errorFault : Fault := ⟨.error, (fun h => by cases h)⟩

def noDataFault : Fault := ⟨.noData, (fun h => by cases h)⟩

/-- whether a call has failed; a key or a namespace to read that is not found, and a buffer that is too short, are answers -/
def faultOf : NvsCall → EspErr → Option Fault
  | _, .ok => none
  | .close _, _ => none
  | .open_ _ .readonly, .notFound => none
  | .open_ _ .readwrite, .notFound => some noDataFault
  | .getBlob _ _ _, .notFound => none
  | .getBlob _ _ (some _), .invalidLength => none
  | .eraseKey _ _, .notFound => none
  | .eraseAll _, .notFound => some noDataFault
  | _, _ => some errorFault

section
variable {ν : Type} (drv : Nvs ν)

/-- the failures of an operation that has made these calls -/
def faultsOf (made : List (NvsCall × ν)) : Faults :=
  match made.findSome? fun x => faultOf x.1 (drv.call x.1 x.2).1.err with
  | none => .none
  | some e => .always e

variable {drv}

theorem faultsOf_cons {x : NvsCall × ν} (h : faultOf x.1 (drv.call x.1 x.2).1.err = none) (made : List (NvsCall × ν)) :
    faultsOf drv (x :: made) = faultsOf drv made := by
  rw [faultsOf, faultsOf, List.findSome?_cons, h]

theorem faultsOf_concat {x : NvsCall × ν} (h : faultOf x.1 (drv.call x.1 x.2).1.err = none) (made : List (NvsCall × ν)) :
    faultsOf drv (made ++ [x]) = faultsOf drv made := by
  rw [faultsOf, faultsOf, List.findSome?_append, List.findSome?_singleton, h, Option.or_none]

theorem faultsOf_first {x : NvsCall × ν} {e : Fault} (h : faultOf x.1 (drv.call x.1 x.2).1.err = some e)
    (made : List (NvsCall × ν)) : faultsOf drv (x :: made) = .always e := by
  rw [faultsOf, List.findSome?_cons, h]

end

theorem faultOf_ok (c : NvsCall) : faultOf c .ok = none := by
  cases c <;> rfl

/-! ## One operation -/

section
variable {ν : Type} (drv : Nvs ν)

/-- every change has been committed -/
def Nvs.Clean (n : ν) : Prop := drv.durable n = drv.view n

/-- every key has the value it has before or the one it has afterwards, if the power is cut in between -/
def Nvs.Between (before after t : ν) : Prop :=
  ∀ ns key, (drv.durable t ns).lookup key = (drv.view before ns).lookup key ∨
    (drv.durable t ns).lookup key = (drv.view after ns).lookup key

/-- what a program does to the namespace `ns` is what the operation does to a store with the failures of its calls,
interrupted before or after it -/
structure Acts (op : Op) (ns : String) {α : Type} (g : α → OpResult) (n : ν) (p : NvsProg α) : Prop where
  handles : drv.handles (run drv.call p n).2 = drv.handles n
  others : ∀ ns' ≠ ns, drv.view (run drv.call p n).2 ns' = drv.view n ns'
  apply : (∀ x ∈ calls drv.call p n, drv.Settled x) →
    op.apply (faultsOf drv (calls drv.call p n)) (drv.view n ns) =
      (g (run drv.call p n).1, drv.view (run drv.call p n).2 ns)
  clean : (∀ x ∈ calls drv.call p n, drv.Settled x) → drv.Clean n → drv.Clean (run drv.call p n).2
  cut : (∀ x ∈ calls drv.call p n, drv.Settled x) → drv.Clean n →
    ∀ t ∈ states drv.call p n, drv.Between n (run drv.call p n).2 t

variable {drv} {n m t : ν} {ns : String}

/-- a change leaves the handles as they are -/
theorem Nvs.handlesAfter_change {c : NvsCall} {x : ℕ × (Store → Store)} (hc : c.change = some x) :
    drv.handlesAfter n c = drv.handles n := by
  cases c with
  | setBlob => rfl
  | eraseKey => rfl
  | eraseAll => rfl
  | _ => cases hc

/-- a call that changes nothing leaves everything committed -/
theorem clean_of_kept (hlaw : drv.Lawful) {c : NvsCall} (hkept : drv.view (drv.call c n).2 = drv.view n)
    (hclean : drv.Clean n) : drv.Clean (drv.call c n).2 := by
  funext ns
  refine Finmap.ext_lookup fun key => ?_
  rcases hlaw.flushed c n ns key with h | h
  · rw [h, hclean, hkept]
  · exact h

/-- a commit brings up to date what a change through its handle has left open -/
theorem clean_of_committed (hlaw : drv.Lawful) {c : NvsCall} {handle : ℕ} {f : Store → Store}
    (hc : c.change = some (handle, f)) (hopen : drv.handles n handle = some (ns, .readwrite))
    (hcommits : (drv.call (.commit handle) (drv.call c n).2).1.err = .ok) (hclean : drv.Clean n) :
    drv.Clean (drv.call (.commit handle) (drv.call c n).2).2 := by
  have hview : drv.view (drv.call (.commit handle) (drv.call c n).2).2 = drv.view (drv.call c n).2 := hlaw.kept rfl _
  have hopen' : drv.handles (drv.call c n).2 handle = some (ns, .readwrite) := by
    rw [hlaw.handled, Nvs.handlesAfter_change hc, hopen]
  funext ns'
  rw [hview]
  by_cases hns : ns' = ns
  · rw [hns]
    exact hlaw.committed hopen' hcommits
  · refine Finmap.ext_lookup fun key => ?_
    rcases hlaw.flushed (.commit handle) (drv.call c n).2 ns' key with h | h
    · rcases hlaw.flushed c n ns' key with h' | h'
      · rw [h, h', hclean, hlaw.confined hc hopen hns]
      · rw [h, h']
    · rw [h, hview]

theorem between_of_clean (hclean : drv.Clean t) (h : drv.view t = drv.view n ∨ drv.view t = drv.view m) :
    drv.Between n m t := by
  intro ns key
  rw [hclean]
  rcases h with h | h
  · exact .inl (by rw [h])
  · exact .inr (by rw [h])

/-- a call may be interrupted -/
theorem between_of_call (hlaw : drv.Lawful) {c : NvsCall} (hclean : drv.Clean n)
    (hview : drv.view m = drv.view (drv.call c n).2) : drv.Between n m (drv.call c n).2 := by
  intro ns key
  rw [hview, ← hclean]
  exact hlaw.flushed c n ns key

/-- a program of one call that changes nothing -/
theorem Acts.of_call {op : Op} {α : Type} {g : α → OpResult} {p : NvsProg α} {c : NvsCall} {r : α} (hlaw : drv.Lawful)
    (hrun : run drv.call p n = (r, (drv.call c n).2)) (hcalls : calls drv.call p n = [(c, n)])
    (hstates : ∀ t ∈ states drv.call p n, t = n ∨ t = (drv.call c n).2) (hhandles : drv.handlesAfter n c = drv.handles n)
    (hothers : ∀ ns' ≠ ns, drv.view (drv.call c n).2 ns' = drv.view n ns')
    (hkept : drv.Settled (c, n) → drv.view (drv.call c n).2 = drv.view n)
    (happly : op.apply (faultsOf drv [(c, n)]) (drv.view n ns) = (g r, drv.view n ns)) : Acts drv op ns g n p := by
  have hone : (∀ x ∈ calls drv.call p n, drv.Settled x) → drv.Settled (c, n) := by
    rw [hcalls]
    exact fun h => h _ (List.mem_singleton_self _)
  refine ⟨?_, ?_, ?_, ?_, ?_⟩
  · rw [hrun, hlaw.handled, hhandles]
  · rw [hrun]
    exact hothers
  · intro hsettled
    rw [hcalls, hrun, happly, hkept (hone hsettled)]
  · intro hsettled hclean
    rw [hrun]
    exact clean_of_kept hlaw (hkept (hone hsettled)) hclean
  · intro hsettled hclean t ht
    rcases hstates t ht with rfl | rfl
    · exact between_of_clean hclean (.inl rfl)
    · exact between_of_clean (clean_of_kept hlaw (hkept (hone hsettled)) hclean) (.inl (hkept (hone hsettled)))

end

/-! ### The calls through the handle -/

section
variable {ν : Type} {drv : Nvs ν} {ns : String} {n : ν} {handle : ℕ}

theorem run_read (drv : Nvs ν) (n : ν) (handle : ℕ) (key : String) (size : Option ℕ) :
    run drv.call (NvsStorage.read_ handle key size) n =
      (if (drv.call (.getBlob handle key size) n).1.err = .notFound then (.noData, 0, []) else
        if (drv.call (.getBlob handle key size) n).1.err ≠ .ok then (.error, 0, []) else
          (.ok, (drv.call (.getBlob handle key size) n).1.size, (drv.call (.getBlob handle key size) n).1.value),
        (drv.call (.getBlob handle key size) n).2) ∧
      calls drv.call (NvsStorage.read_ handle key size) n = [(.getBlob handle key size, n)] ∧
      ∀ t ∈ states drv.call (NvsStorage.read_ handle key size) n, t = n ∨ t = (drv.call (.getBlob handle key size) n).2 := by
  unfold NvsStorage.read_
  refine ⟨?_, ?_, ?_⟩
  · rw [run_bind, run_perform]
    split_ifs <;> rfl
  · rw [calls_bind, calls_perform, run_perform]
    split_ifs <;> rfl
  · intro t ht
    rw [mem_states_bind, states_perform, run_perform] at ht
    split_ifs at ht <;> simpa using ht

/-- a read through a handle of its namespace, as the storage without failures reads if the call does not fail -/
theorem Acts.read {op : Op} {key : String} {size : Option ℕ} (hlaw : drv.Lawful) {mode : OpenMode}
    (hopen : drv.handles n handle = some (ns, mode))
    (hop : op.apply .none (drv.view n ns) = (match (drv.view n ns).lookup key, size with
      | none, _ => (.noData, 0, [])
      | some v, none => (.ok, v.length, [])
      | some v, some size => if size < v.length then (.error, 0, []) else (.ok, v.length, v), drv.view n ns)) :
    Acts drv op ns id n (NvsStorage.read_ handle key size) := by
  obtain ⟨hrun, hcalls, hstates⟩ := run_read drv n handle key size
  have hkept := hlaw.kept (c := .getBlob handle key size) rfl n
  refine .of_call hlaw hrun hcalls hstates rfl (fun ns' _ => congrFun hkept ns') (fun _ => hkept) ?_
  have hnone : faultOf (.getBlob handle key size) (drv.call (.getBlob handle key size) n).1.err = none →
      faultsOf drv [(.getBlob handle key size, n)] = .none := fun h => faultsOf_cons h []
  have herror : faultOf (.getBlob handle key size) (drv.call (.getBlob handle key size) n).1.err = some errorFault →
      faultsOf drv [(.getBlob handle key size, n)] = .always errorFault := fun h => faultsOf_first h []
  cases herr : (drv.call (.getBlob handle key size) n).1.err with
  | ok =>
    obtain ⟨v, hv, hlen, hvalue, hfits⟩ := hlaw.got hopen herr
    rw [hnone (by rw [herr, faultOf_ok]), hop, hv, hlen, hvalue]
    cases size with
    | none => rfl
    | some size => simp [Nat.not_lt.2 (hfits size rfl)]
  | notFound =>
    rw [hnone (by rw [herr]; rfl), hop, hlaw.missing hopen herr]
    rfl
  | invalidLength =>
    cases size with
    | none =>
      rw [herror (by rw [herr]; rfl), Op.apply_always]
      rfl
    | some size =>
      obtain ⟨v, hv, hlong⟩ := hlaw.tooLong hopen herr
      rw [hnone (by rw [herr]; rfl), hop, hv]
      simp [hlong]
  | _ =>
    rw [herror (by rw [herr]; rfl), Op.apply_always]
    rfl

/-- what a program does that changes the namespace of its handle and commits the change; `failed` tells the status of a
change that fails -/
theorem Acts.change {op : Op} {p : NvsProg StatusCode} {g : StatusCode → OpResult} (c : NvsCall) (f : Store → Store)
    (failed : EspErr → StatusCode) (hlaw : drv.Lawful) (hc : c.change = some (handle, f))
    (hopen : drv.handles n handle = some (ns, .readwrite))
    (hp : p = (do
      let a ← perform c
      if a.err ≠ .ok then return failed a.err
      let a ← perform (.commit handle)
      if a.err ≠ .ok then return .error
      return .ok))
    (hok : (drv.call c n).1.err = .ok → op.apply .none (drv.view n ns) = (g .ok, f (drv.view n ns)))
    (hfailed : (drv.call c n).1.err ≠ .ok →
      op.apply (faultsOf drv [(c, n)]) (drv.view n ns) = (g (failed (drv.call c n).1.err), drv.view n ns)) :
    Acts drv op ns g n p := by
  by_cases herr : (drv.call c n).1.err = .ok
  · have hrun : run drv.call p n =
        (if (drv.call (.commit handle) (drv.call c n).2).1.err ≠ .ok then .error else .ok,
          (drv.call (.commit handle) (drv.call c n).2).2) := by
      rw [hp, run_bind, run_perform, if_neg (not_not.2 herr), run_bind, run_perform]
      split_ifs <;> rfl
    have hcalls : calls drv.call p n = [(c, n), (.commit handle, (drv.call c n).2)] := by
      rw [hp, calls_bind, run_perform, calls_perform, if_neg (not_not.2 herr), calls_bind, calls_perform, run_perform]
      split_ifs <;> rfl
    have hstates : ∀ t ∈ states drv.call p n,
        t = n ∨ t = (drv.call c n).2 ∨ t = (drv.call (.commit handle) (drv.call c n).2).2 := by
      intro t ht
      rw [hp, mem_states_bind, states_perform, run_perform, if_neg (not_not.2 herr), mem_states_bind, states_perform,
        run_perform] at ht
      split_ifs at ht <;> simp only [List.mem_cons, List.not_mem_nil, or_false, states_pure] at ht <;> tauto
    have hcommits : (∀ x ∈ calls drv.call p n, drv.Settled x) →
        (drv.call (.commit handle) (drv.call c n).2).1.err = .ok := by
      rw [hcalls]
      exact fun h => (h _ (List.mem_cons_of_mem _ (List.mem_singleton_self _))).2 handle rfl
    have hview : drv.view (drv.call (.commit handle) (drv.call c n).2).2 = drv.view (drv.call c n).2 := hlaw.kept rfl _
    have hclean' : (∀ x ∈ calls drv.call p n, drv.Settled x) → drv.Clean n →
        drv.Clean (drv.call (.commit handle) (drv.call c n).2).2 :=
      fun hsettled => clean_of_committed hlaw hc hopen (hcommits hsettled)
    refine ⟨?_, ?_, ?_, ?_, ?_⟩
    · rw [hrun]
      calc drv.handles (drv.call (.commit handle) (drv.call c n).2).2
        _ = drv.handles (drv.call c n).2 := hlaw.handled _ _
        _ = drv.handlesAfter n c := hlaw.handled c n
        _ = drv.handles n := Nvs.handlesAfter_change hc
    · intro ns' hne
      rw [hrun, hview, hlaw.confined hc hopen hne]
    · intro hsettled
      have hnone : faultsOf drv [(c, n), (.commit handle, (drv.call c n).2)] = .none := by
        rw [faultsOf_cons (by rw [herr, faultOf_ok]), faultsOf_cons (by rw [hcommits hsettled, faultOf_ok])]
        rfl
      rw [hcalls, hnone, hrun, hok herr, hview, hlaw.changed hc hopen herr, if_neg (not_not.2 (hcommits hsettled))]
    · intro hsettled hclean
      rw [hrun]
      exact hclean' hsettled hclean
    · intro hsettled hclean t ht
      rw [hrun]
      rcases hstates t ht with rfl | rfl | rfl
      · exact between_of_clean hclean (.inl rfl)
      · exact between_of_call hlaw hclean hview
      · exact between_of_clean (hclean' hsettled hclean) (.inr rfl)
  · have hrun : run drv.call p n = (failed (drv.call c n).1.err, (drv.call c n).2) := by
      rw [hp, run_bind, run_perform, if_pos herr, run_pure]
    have hcalls : calls drv.call p n = [(c, n)] := by
      rw [hp, calls_bind, run_perform, calls_perform, if_pos herr, calls_pure, List.append_nil]
    have hstates : ∀ t ∈ states drv.call p n, t = n ∨ t = (drv.call c n).2 := by
      intro t ht
      rw [hp, mem_states_bind, states_perform, run_perform, if_pos herr] at ht
      simpa using ht
    refine .of_call hlaw hrun hcalls hstates (Nvs.handlesAfter_change hc) ?_ ?_ (hfailed herr)
    · exact fun ns' hne => hlaw.confined hc hopen hne
    · exact fun hsettled => hsettled.1 (by rw [hc]; rfl) herr

/-! ### The handle -/

/-- the handle cannot be opened: nothing is done, and a namespace that does not exist has nothing to read -/
theorem Acts.withHandle_failed {op : Op} {α : Type} {g : α → OpResult} {s : NvsStorage} {mode : OpenMode}
    {failed : StatusCode → α} {body : ℕ → NvsProg α} (hlaw : drv.Lawful) (hfailed : ∀ code, g (failed code) = (code, 0, []))
    (habsent : mode = .readonly → op.apply .none ∅ = ((.noData, 0, []), ∅))
    (herr : (drv.call (.open_ s.ns mode) n).1.err ≠ .ok) : Acts drv op s.ns g n (s.withHandle mode failed body) := by
  have hkept := hlaw.kept (c := .open_ s.ns mode) rfl n
  have hrun : run drv.call (s.withHandle mode failed body) n =
      (failed (if (drv.call (.open_ s.ns mode) n).1.err = .notFound then .noData else .error),
        (drv.call (.open_ s.ns mode) n).2) := by
    unfold NvsStorage.withHandle NvsStorage.open_
    split_ifs with hnotFound <;> simp [hnotFound, herr]
  have hcalls : calls drv.call (s.withHandle mode failed body) n = [(.open_ s.ns mode, n)] := by
    unfold NvsStorage.withHandle NvsStorage.open_
    by_cases hnotFound : (drv.call (.open_ s.ns mode) n).1.err = .notFound <;> simp [hnotFound, herr]
  have hstates : ∀ t ∈ states drv.call (s.withHandle mode failed body) n,
      t = n ∨ t = (drv.call (.open_ s.ns mode) n).2 := by
    intro t ht
    unfold NvsStorage.withHandle NvsStorage.open_ at ht
    by_cases hnotFound : (drv.call (.open_ s.ns mode) n).1.err = .notFound
    · simpa [hnotFound] using ht
    · simpa [hnotFound, herr] using ht
  refine .of_call hlaw hrun hcalls hstates (if_neg herr) (fun ns' _ => congrFun hkept ns') (fun _ => hkept) ?_
  have hfirst : ∀ e, faultOf (.open_ s.ns mode) (drv.call (.open_ s.ns mode) n).1.err = some e →
      faultsOf drv [(.open_ s.ns mode, n)] = .always e := fun e h => faultsOf_first h []
  rw [hfailed]
  by_cases hnotFound : (drv.call (.open_ s.ns mode) n).1.err = .notFound
  · cases mode with
    | readonly =>
      have hnone : faultsOf drv [(.open_ s.ns .readonly, n)] = .none := faultsOf_cons (by rw [hnotFound]; rfl) []
      rw [hnone, hlaw.absent hnotFound, habsent rfl, if_pos hnotFound]
    | readwrite =>
      rw [hfirst noDataFault (by rw [hnotFound]; rfl), Op.apply_always, if_pos hnotFound]
      rfl
  · have herror : faultOf (.open_ s.ns mode) (drv.call (.open_ s.ns mode) n).1.err = some errorFault := by
      revert herr hnotFound
      cases (drv.call (.open_ s.ns mode) n).1.err <;> cases mode <;> simp [faultOf]
    rw [hfirst errorFault herror, Op.apply_always, if_neg hnotFound]
    rfl

/-- the handle is opened: the body acts through it, and it is closed -/
theorem Acts.withHandle_opened {op : Op} {α : Type} {g : α → OpResult} {s : NvsStorage} {mode : OpenMode}
    {failed : StatusCode → α} {body : ℕ → NvsProg α} (hlaw : drv.Lawful)
    (hbody : ∀ (m : ν) handle, drv.handles m handle = some (s.ns, mode) → Acts drv op s.ns g m (body handle))
    (herr : (drv.call (.open_ s.ns mode) n).1.err = .ok) : Acts drv op s.ns g n (s.withHandle mode failed body) := by
  have hkept := hlaw.kept (c := .open_ s.ns mode) rfl n
  have hhandled := hlaw.handled (.open_ s.ns mode) n
  rw [Nvs.handlesAfter, if_pos herr] at hhandled
  obtain ⟨answer, opened, hopen⟩ : ∃ a m, drv.call (.open_ s.ns mode) n = (a, m) := ⟨_, _, rfl⟩
  have hfresh := hlaw.fresh herr
  rw [hopen] at herr hkept hhandled hfresh
  dsimp only at herr hkept hhandled hfresh
  have hacts := hbody opened answer.handle (by rw [hhandled, Function.update_self])
  have hrun : run drv.call (s.withHandle mode failed body) n =
      ((run drv.call (body answer.handle) opened).1,
        (drv.call (.close answer.handle) (run drv.call (body answer.handle) opened).2).2) := by
    unfold NvsStorage.withHandle NvsStorage.open_
    simp [hopen, herr]
  have hcalls : calls drv.call (s.withHandle mode failed body) n =
      (.open_ s.ns mode, n) :: (calls drv.call (body answer.handle) opened ++
        [(.close answer.handle, (run drv.call (body answer.handle) opened).2)]) := by
    unfold NvsStorage.withHandle NvsStorage.open_
    simp [hopen, herr]
  have hclose := hlaw.kept (c := .close answer.handle) rfl (run drv.call (body answer.handle) opened).2
  have hsub : (∀ x ∈ calls drv.call (s.withHandle mode failed body) n, drv.Settled x) →
      ∀ x ∈ calls drv.call (body answer.handle) opened, drv.Settled x := by
    rw [hcalls]
    exact fun h x hx => h x (List.mem_cons_of_mem _ (List.mem_append_left _ hx))
  have hcleanOpen : drv.Clean n → drv.Clean opened := by
    intro hclean
    have h := clean_of_kept (c := .open_ s.ns mode) hlaw (by rw [hopen, hkept]) hclean
    rwa [hopen] at h
  refine ⟨?_, ?_, ?_, ?_, ?_⟩
  · rw [hrun]
    calc drv.handles (drv.call (.close answer.handle) (run drv.call (body answer.handle) opened).2).2
      _ = Function.update (drv.handles (run drv.call (body answer.handle) opened).2) answer.handle none :=
        hlaw.handled _ _
      _ = Function.update (Function.update (drv.handles n) answer.handle (some (s.ns, mode))) answer.handle none := by
        rw [hacts.handles, hhandled]
      _ = drv.handles n := by rw [Function.update_idem, ← hfresh, Function.update_eq_self]
  · intro ns' hne
    rw [hrun, hclose, hacts.others ns' hne, hkept]
  · intro hsettled
    have hopened : faultOf (.open_ s.ns mode) (drv.call (.open_ s.ns mode) n).1.err = none := by
      rw [hopen, herr, faultOf_ok]
    have hclosed : ∀ e, faultOf (.close answer.handle) e = none := fun e => by cases e <;> rfl
    rw [hcalls, faultsOf_cons hopened, faultsOf_concat (hclosed _), hrun, hclose, ← hkept]
    exact hacts.apply (hsub hsettled)
  · intro hsettled hclean
    rw [hrun]
    exact clean_of_kept hlaw hclose (hacts.clean (hsub hsettled) (hcleanOpen hclean))
  · intro hsettled hclean t ht
    have hcases : (t = n ∨ t = opened) ∨ t ∈ states drv.call (body answer.handle) opened ∨
        t = (run drv.call (body answer.handle) opened).2 ∨
          t = (drv.call (.close answer.handle) (run drv.call (body answer.handle) opened).2).2 := by
      unfold NvsStorage.withHandle NvsStorage.open_ at ht
      simpa [hopen, herr] using ht
    have hcleanEnd := hacts.clean (hsub hsettled) (hcleanOpen hclean)
    rw [hrun]
    rcases hcases with (rfl | rfl) | ht | rfl | rfl
    · exact between_of_clean hclean (.inl rfl)
    · exact between_of_clean (hcleanOpen hclean) (.inl hkept)
    · intro ns' key
      have h := hacts.cut (hsub hsettled) (hcleanOpen hclean) t ht ns' key
      rwa [hkept, ← hclose] at h
    · exact between_of_clean hcleanEnd (.inr hclose.symm)
    · exact between_of_clean (clean_of_kept hlaw hclose hcleanEnd) (.inr rfl)

/-- an operation opens one handle of its namespace, acts through it and closes it -/
theorem Acts.withHandle {op : Op} {α : Type} {g : α → OpResult} {s : NvsStorage} {mode : OpenMode} {failed : StatusCode → α}
    {body : ℕ → NvsProg α} (hlaw : drv.Lawful) (hfailed : ∀ code, g (failed code) = (code, 0, []))
    (habsent : mode = .readonly → op.apply .none ∅ = ((.noData, 0, []), ∅))
    (hbody : ∀ (m : ν) handle, drv.handles m handle = some (s.ns, mode) → Acts drv op s.ns g m (body handle)) :
    Acts drv op s.ns g n (s.withHandle mode failed body) := by
  by_cases herr : (drv.call (.open_ s.ns mode) n).1.err = .ok
  · exact .withHandle_opened hlaw hbody herr
  · exact .withHandle_failed hlaw hfailed habsent herr

/-- a result that is only wrapped -/
theorem Acts.map {op : Op} {α : Type} (g : α → OpResult) {p : NvsProg α} (h : Acts drv op ns g n p) :
    Acts drv op ns id n (do return g (← p)) := by
  have hrun : run drv.call (do return g (← p)) n = (g (run drv.call p n).1, (run drv.call p n).2) := by
    rw [run_bind, run_pure]
  have hcalls : calls drv.call (do return g (← p)) n = calls drv.call p n := by
    rw [calls_bind, calls_pure, List.append_nil]
  refine ⟨?_, ?_, ?_, ?_, ?_⟩
  · rw [hrun]
    exact h.handles
  · rw [hrun]
    exact h.others
  · rw [hrun, hcalls]
    exact h.apply
  · rw [hrun, hcalls]
    exact h.clean
  · rw [hrun, hcalls]
    intro hsettled hclean t ht
    rw [mem_states_bind, states_pure, List.mem_singleton] at ht
    rcases ht with ht | rfl
    · exact h.cut hsettled hclean t ht
    · exact between_of_clean (h.clean hsettled hclean) (.inr rfl)

/-- the status of `nvs_erase_key` and `nvs_erase_all` that fail -/
def eraseStatus (e : EspErr) : StatusCode := if e = .notFound then .noData else .error

/-- `if (err == NOT_FOUND) return NoData; if (err != OK) return Error;` in one test -/
theorem erase_eq {c : NvsCall} {handle : ℕ} :
    (do
      let a ← perform c
      if a.err = .notFound then return .noData
      if a.err ≠ .ok then return .error
      let a ← perform (.commit handle)
      if a.err ≠ .ok then return .error
      return .ok : NvsProg StatusCode) = (do
      let a ← perform c
      if a.err ≠ .ok then return eraseStatus a.err
      let a ← perform (.commit handle)
      if a.err ≠ .ok then return .error
      return .ok) := by
  refine congrArg (perform c >>= ·) (funext fun a => ?_)
  by_cases h : a.err = .notFound <;> simp [eraseStatus, h]

/-- a call that has failed with an error of its own -/
theorem apply_error {op : Op} {c : NvsCall} (h : faultOf c (drv.call c n).1.err = some errorFault) :
    op.apply (faultsOf drv [(c, n)]) (drv.view n ns) = ((.error, 0, []), drv.view n ns) := by
  rw [faultsOf_first h, Op.apply_always]
  rfl

/-- **An operation on its namespace.** It opens and closes one handle, answers as the storage does on the contents of the
namespace and leaves what the storage leaves, with the failures of its own calls; other namespaces are not touched, and a
power cut at any call leaves under each key what there was before or what there is afterwards. -/
theorem op_spec (hlaw : drv.Lawful) (s : NvsStorage) (op : Op) : Acts drv op s.ns id n (s.prog op) := by
  cases op with
  | probe key =>
    refine .withHandle hlaw (fun _ => rfl) ?_ fun m handle hopen => .read hlaw hopen ?_
    · exact fun _ => rfl
    · simp only [Op.apply, Storage.probe, Faults.none]
      cases (drv.view m s.ns).lookup key <;> rfl
  | read key size =>
    refine .withHandle hlaw (fun _ => rfl) ?_ fun m handle hopen => .read hlaw hopen ?_
    · exact fun _ => rfl
    · simp only [Op.apply, Storage.read, Faults.none]
      rcases (drv.view m s.ns).lookup key with _ | v
      · rfl
      · by_cases hsize : size < v.length <;> simp only [hsize, if_true, if_false]
  | write key value =>
    refine .map _ (.withHandle hlaw (fun _ => rfl) (fun h => by cases h) fun m handle hopen => ?_)
    refine .change (.setBlob handle key value) _ (fun _ => .error) hlaw rfl hopen rfl (fun _ => rfl) fun herr => ?_
    refine apply_error ?_
    revert herr
    cases (drv.call (.setBlob handle key value) m).1.err <;> simp [faultOf]
  | erase key =>
    refine .map _ (.withHandle hlaw (fun _ => rfl) (fun h => by cases h) fun m handle hopen => ?_)
    obtain ⟨hthere, hnot⟩ := hlaw.erased key hopen
    refine .change (.eraseKey handle key) _ eraseStatus hlaw rfl hopen erase_eq (fun herr => ?_) fun herr => ?_
    · simp only [Op.apply, Storage.erase, Faults.none, if_pos (hthere herr)]
    · by_cases hnotFound : (drv.call (.eraseKey handle key) m).1.err = .notFound
      · have hnone : faultsOf drv [(.eraseKey handle key, m)] = .none := faultsOf_cons (by rw [hnotFound]; rfl) []
        rw [hnone, eraseStatus, if_pos hnotFound]
        simp only [Op.apply, Storage.erase, Faults.none, if_neg (hnot hnotFound)]
      · rw [eraseStatus, if_neg hnotFound]
        refine apply_error ?_
        revert herr hnotFound
        cases (drv.call (.eraseKey handle key) m).1.err <;> simp [faultOf]
  | eraseAll =>
    refine .map _ (.withHandle hlaw (fun _ => rfl) (fun h => by cases h) fun m handle hopen => ?_)
    refine .change (.eraseAll handle) _ eraseStatus hlaw rfl hopen erase_eq (fun _ => ?_) fun herr => ?_
    · simp [Op.apply, Storage.eraseAll, Faults.none]
    · by_cases hnotFound : (drv.call (.eraseAll handle) m).1.err = .notFound
      · have hfirst : faultsOf drv [(.eraseAll handle, m)] = .always noDataFault :=
          faultsOf_first (by rw [hnotFound]; rfl) []
        rw [hfirst, Op.apply_always, eraseStatus, if_pos hnotFound]
        rfl
      · rw [eraseStatus, if_neg hnotFound]
        refine apply_error ?_
        revert herr hnotFound
        cases (drv.call (.eraseAll handle) m).1.err <;> simp [faultOf]

end

/-! ## All operations -/

theorem makeAll_nodup (b : StorageBuilder) (ids : List {id : String // id.utf8ByteSize ≤ maxNamespaceLen}) :
    ((b.makeAll ids).map NvsStorage.ns).Nodup ∧ ∀ s ∈ b.makeAll ids, s.ns ∉ b.ids := by
  induction ids generalizing b with
  | nil => exact ⟨List.nodup_nil, fun s hs => by cases hs⟩
  | cons id ids ih =>
    obtain ⟨hnodup, hnew⟩ := ih (b.make id).2
    by_cases hid : id.1 ∈ b.ids
    · simp only [StorageBuilder.makeAll, StorageBuilder.make, if_pos hid] at hnodup hnew ⊢
      exact ⟨hnodup, hnew⟩
    · simp only [StorageBuilder.makeAll, StorageBuilder.make, if_neg hid, Option.toList_some, List.singleton_append,
        List.map_cons, List.nodup_cons, List.mem_map, List.forall_mem_cons, Finset.mem_insert, not_or] at hnodup hnew ⊢
      refine ⟨⟨?_, hnodup⟩, hid, fun s hs => (hnew s hs).2⟩
      rintro ⟨s, hs, heq⟩
      exact (hnew s hs).1 heq

section
variable {ν : Type} (drv : Nvs ν)

/-- one operation on a store, with its own calls: as the storage model has it with their failures, unless one of them has
left a change behind -/
def storageStep (s : Store) (e : NvsStorage × Op) (r : OpResult × List (NvsCall × ν)) (t : Store) : Prop :=
  (∀ x ∈ r.2, drv.Settled x) → e.2.apply (faultsOf drv r.2) s = (r.1, t)

/-- one operation on the namespaces -/
def namespaceStep (v : String → Store) (e : NvsStorage × Op) (r : OpResult × List (NvsCall × ν)) (w : String → Store) :
    Prop :=
  storageStep drv (v e.1.ns) e r (w e.1.ns) ∧ ∀ ns ≠ e.1.ns, w ns = v ns

/-- all operations of all storages: each with its result and its calls, and the driver's state at the end -/
def operate : List (NvsStorage × Op) → ν → List ((NvsStorage × Op) × OpResult × List (NvsCall × ν)) × ν :=
  exec drv.call fun e => e.1.prog e.2

/-- the driver's states in which the power can be cut -/
def cuts : List (NvsStorage × Op) → ν → List ν := execStates drv.call fun e => e.1.prog e.2

end

/-- **The storage refines `Storage`.** Whatever calls of the driver fail, every storage that the builder has made sees its
own operations act on its namespace as the storage model has them act on a store, as if it were alone: each with the
failures of its own calls, those apart that leave a change behind with an error. No handle is left open. If no call leaves
a change behind, a power cut at any call leaves in all namespaces what the first operations have left, and under each key of
the next one the old value or the new one. -/
theorem refines_storage {ν : Type} (drv : Nvs ν) (hlaw : drv.Lawful) (n : ν)
    (ids : List {id : String // id.utf8ByteSize ≤ maxNamespaceLen}) (ops : List (NvsStorage × Op))
    (hops : ∀ e ∈ ops, e.1 ∈ StorageBuilder.makeAll ⟨∅⟩ ids) :
    (∀ s ∈ StorageBuilder.makeAll ⟨∅⟩ ids,
      Steps (storageStep drv) (drv.view n s.ns) ((operate drv ops n).1.filter fun x => x.1.1 = s)
        (drv.view (operate drv ops n).2 s.ns)) ∧
    drv.handles (operate drv ops n).2 = drv.handles n ∧
    ((∀ x ∈ (operate drv ops n).1, ∀ y ∈ x.2.2, drv.Settled y) → drv.Clean n → ∀ t ∈ cuts drv ops n,
      ∃ k ≤ ops.length, drv.Between (operate drv (ops.take k) n).2 (operate drv (ops.take (k + 1)) n).2 t) := by
  have hacts : ∀ (m : ν) (e : NvsStorage × Op), Acts drv e.2 e.1.ns id m (e.1.prog e.2) := fun m e => op_spec hlaw e.1 e.2
  have hstep : ∀ (m : ν) (e : NvsStorage × Op), namespaceStep drv (drv.view m) e
      ((run drv.call (e.1.prog e.2) m).1, calls drv.call (e.1.prog e.2) m) (drv.view (run drv.call (e.1.prog e.2) m).2) :=
    fun m e => ⟨(hacts m e).apply, (hacts m e).others⟩
  refine ⟨fun s hs => ?_, ?_, fun hsettled hclean t ht => ?_⟩
  · have hpart : ∀ v e r w, namespaceStep drv v e r w → decide (e.1.ns = s.ns) = true →
        storageStep drv (v s.ns) e r (w s.ns) := by
      intro v e r w h hp
      rw [← of_decide_eq_true hp]
      exact h.1
    have hother : ∀ v e r w, namespaceStep drv v e r w → decide (e.1.ns = s.ns) = false → w s.ns = v s.ns := by
      intro v e r w h hp
      exact h.2 s.ns (of_decide_eq_false hp ∘ Eq.symm)
    have hsteps := (exec_steps hstep ops n).filter hpart hother
    -- only the storage itself has its namespace
    have hfilter : ((operate drv ops n).1.filter fun x => x.1.1 = s) =
        (operate drv ops n).1.filter fun x => decide (x.1.1.ns = s.ns) := by
      refine List.filter_congr fun x hx => ?_
      have hevents : (operate drv ops n).1.map Prod.fst = ops := exec_events ops n
      have hx' : x.1 ∈ ops := hevents ▸ List.mem_map_of_mem hx
      refine decide_eq_decide.2 ⟨congrArg NvsStorage.ns, fun hns => ?_⟩
      exact List.inj_on_of_nodup_map (makeAll_nodup ⟨∅⟩ ids).1 (hops _ hx') hs hns
    rw [hfilter]
    exact hsteps
  · exact exec_keeps (fun m e => (hacts m e).handles) ops n
  · exact execStates_between (fun m e hgood hm => (hacts m e).clean hgood hm)
      (fun m hm => between_of_clean hm (.inl rfl)) (fun m e hgood hm => (hacts m e).cut hgood hm) ops hclean hsettled ht

/-! ## A driver in memory -/

structure Memory where
  /-- a namespace is created when it is first opened for writing -/
  namespaces : String → Option Store
  committed : String → Store
  handles : ℕ → Option (String × OpenMode)
  /-- number of handles opened so far -/
  opened : ℕ

namespace Memory

/-- no namespace, and no handle -/
def blank : Memory := ⟨fun _ => none, fun _ => ∅, fun _ => none, 0⟩

def view (n : Memory) (ns : String) : Store := (n.namespaces ns).getD ∅

def put (n : Memory) (ns : String) (s : Store) : Memory := { n with namespaces := Function.update n.namespaces ns (some s) }

/-- a call through an open handle -/
def through (n : Memory) (handle : ℕ) (f : String → OpenMode → NvsAnswer × Memory) : NvsAnswer × Memory :=
  match n.handles handle with
  | none => (⟨.invalidHandle, 0, 0, []⟩, n)
  | some (ns, mode) => f ns mode

/-- a change of the namespace of a handle -/
def change (n : Memory) (refused : Bool) (handle : ℕ) (there : Store → Bool) (f : Store → Store) : NvsAnswer × Memory :=
  n.through handle fun ns mode =>
    if mode = .readonly then (⟨.readOnly, 0, 0, []⟩, n)
    else if refused then (⟨.other, 0, 0, []⟩, n)
    else if there (n.view ns) then (⟨.ok, 0, 0, []⟩, n.put ns (f (n.view ns)))
    else (⟨.notFound, 0, 0, []⟩, n)

/-- changes that are `refused` fail -/
def call (refused : NvsCall → Bool) (c : NvsCall) (n : Memory) : NvsAnswer × Memory :=
  match c with
  | .open_ ns mode =>
    if mode = .readonly ∧ n.namespaces ns = none then (⟨.notFound, 0, 0, []⟩, n)
    else if n.handles (n.opened + 1) = none then
      (⟨.ok, n.opened + 1, 0, []⟩, { n.put ns (n.view ns) with
        handles := Function.update n.handles (n.opened + 1) (some (ns, mode)), opened := n.opened + 1 })
    else (⟨.other, 0, 0, []⟩, n)
  | .getBlob handle key size =>
    n.through handle fun ns _ =>
      match (n.view ns).lookup key, size with
      | none, _ => (⟨.notFound, 0, 0, []⟩, n)
      | some v, none => (⟨.ok, 0, v.length, []⟩, n)
      | some v, some size =>
        if size < v.length then (⟨.invalidLength, 0, v.length, []⟩, n) else (⟨.ok, 0, v.length, v⟩, n)
  | .setBlob handle key value => n.change (refused c) handle (fun _ => true) fun s => s.insert key value
  | .eraseKey handle key => n.change (refused c) handle (fun s => decide (key ∈ s)) fun s => s.erase key
  | .eraseAll handle => n.change (refused c) handle (fun _ => true) fun _ => ∅
  | .commit handle =>
    n.through handle fun ns _ => (⟨.ok, 0, 0, []⟩, { n with committed := Function.update n.committed ns (n.view ns) })
  | .close handle => (⟨.ok, 0, 0, []⟩, { n with handles := Function.update n.handles handle none })

end Memory

def memoryNvs (refused : NvsCall → Bool) : Nvs Memory := ⟨Memory.call refused, Memory.handles, Memory.view, Memory.committed⟩

section
variable {refused : NvsCall → Bool} {n : Memory}

theorem Memory.view_put (ns : String) (s : Store) : (n.put ns s).view = Function.update n.view ns s := by
  funext ns'
  simp only [Memory.view, Memory.put, Function.update_apply]
  split_ifs <;> rfl

/-- what a change can do: nothing, or what it is answered with OK for -/
theorem Memory.change_cases (b : Bool) (handle : ℕ) (there : Store → Bool) (f : Store → Store) :
    ((n.change b handle there f).1.err ≠ .ok ∧ (n.change b handle there f).2 = n) ∨
      ∃ ns, n.handles handle = some (ns, .readwrite) ∧ there (n.view ns) = true ∧
        n.change b handle there f = (⟨.ok, 0, 0, []⟩, n.put ns (f (n.view ns))) := by
  unfold Memory.change Memory.through
  rcases n.handles handle with - | ⟨ns, mode⟩
  · exact .inl ⟨nofun, rfl⟩
  · dsimp only
    cases mode with
    | readonly => exact .inl ⟨nofun, rfl⟩
    | readwrite =>
      rw [if_neg nofun]
      split_ifs with hrefused hthere
      · exact .inl ⟨nofun, rfl⟩
      · exact .inr ⟨ns, rfl, hthere, rfl⟩
      · exact .inl ⟨nofun, rfl⟩

/-- it is not answered with "not found" where there is something -/
theorem Memory.change_notFound {b : Bool} {handle : ℕ} {there : Store → Bool} {f : Store → Store} {ns : String}
    (hopen : n.handles handle = some (ns, .readwrite)) (h : (n.change b handle there f).1.err = .notFound) :
    there (n.view ns) = false := by
  unfold Memory.change Memory.through at h
  rw [hopen] at h
  dsimp only at h
  rw [if_neg nofun] at h
  split_ifs at h with hrefused hthere
  simpa using hthere

theorem Memory.call_change (refused : NvsCall → Bool) {c : NvsCall} {handle : ℕ} {f : Store → Store}
    (hc : c.change = some (handle, f)) :
    ∃ there, ∀ n : Memory, Memory.call refused c n = n.change (refused c) handle there f := by
  cases c with
  | eraseKey handle key =>
    cases hc
    exact ⟨fun s => decide (key ∈ s), fun _ => rfl⟩
  | setBlob | eraseAll =>
    cases hc
    exact ⟨fun _ => true, fun _ => rfl⟩
  | _ => cases hc

theorem Memory.call_getBlob (refused : NvsCall → Bool) (handle : ℕ) (key : String) (size : Option ℕ) :
    (Memory.call refused (.getBlob handle key size) n).2 = n := by
  simp only [Memory.call, Memory.through]
  split
  · rfl
  · split
    · rfl
    · rfl
    · split_ifs <;> rfl

/-- what a read through an open handle can do: there is nothing, the value is too long, or it is read -/
theorem Memory.getBlob_cases (refused : NvsCall → Bool) {handle : ℕ} (key : String) (size : Option ℕ) {ns : String}
    {mode : OpenMode} (hopen : n.handles handle = some (ns, mode)) :
    ((n.view ns).lookup key = none ∧ Memory.call refused (.getBlob handle key size) n = (⟨.notFound, 0, 0, []⟩, n)) ∨
      ∃ v, (n.view ns).lookup key = some v ∧
        ((∃ k, size = some k ∧ k < v.length ∧
            Memory.call refused (.getBlob handle key size) n = (⟨.invalidLength, 0, v.length, []⟩, n)) ∨
          ((∀ k ∈ size, v.length ≤ k) ∧
            Memory.call refused (.getBlob handle key size) n =
              (⟨.ok, 0, v.length, if size.isSome then v else []⟩, n))) := by
  simp only [Memory.call, Memory.through, hopen]
  cases hv : (n.view ns).lookup key with
  | none => exact .inl ⟨rfl, rfl⟩
  | some v =>
    refine .inr ⟨v, rfl, ?_⟩
    cases size with
    | none => exact .inr ⟨fun k hk => (by cases hk), rfl⟩
    | some size =>
      by_cases hsize : size < v.length
      · exact .inl ⟨size, rfl, hsize, if_pos hsize⟩
      · refine .inr ⟨fun k hk => ?_, if_neg hsize⟩
        cases hk
        exact Nat.not_lt.1 hsize

theorem Memory.call_commit (refused : NvsCall → Bool) (handle : ℕ) :
    (Memory.call refused (.commit handle) n).2.handles = n.handles ∧
      (Memory.call refused (.commit handle) n).2.view = n.view := by
  simp only [Memory.call, Memory.through]
  split <;> exact ⟨rfl, rfl⟩

theorem Memory.call_open (refused : NvsCall → Bool) (ns : String) (mode : OpenMode) :
    (Memory.call refused (.open_ ns mode) n).2.committed = n.committed ∧
      (Memory.call refused (.open_ ns mode) n).2.view = n.view := by
  simp only [Memory.call]
  split_ifs
  · exact ⟨rfl, rfl⟩
  · exact ⟨rfl, (Memory.view_put ns (n.view ns)).trans (Function.update_eq_self ns n.view)⟩
  · exact ⟨rfl, rfl⟩

theorem Memory.call_handled (refused : NvsCall → Bool) (c : NvsCall) (n : Memory) :
    (Memory.call refused c n).2.handles = (memoryNvs refused).handlesAfter n c := by
  cases hc : c.change with
  | some x =>
    obtain ⟨there, hcall⟩ := Memory.call_change refused hc
    rw [Nvs.handlesAfter_change hc, hcall]
    obtain ⟨-, h⟩ | ⟨ns, -, -, h⟩ := Memory.change_cases (n := n) (refused c) x.1 there x.2
    · rw [h]
      rfl
    · rw [h]
      rfl
  | none =>
    cases c with
    | open_ ns mode =>
      simp only [memoryNvs, Memory.call, Nvs.handlesAfter]
      by_cases habsent : mode = .readonly ∧ n.namespaces ns = none
      · simp only [if_pos habsent, reduceCtorEq, if_false]
      · by_cases hnumber : n.handles (n.opened + 1) = none
        · simp only [if_neg habsent, if_pos hnumber, if_true]
        · simp only [if_neg habsent, if_neg hnumber, reduceCtorEq, if_false]
    | getBlob handle key size => exact congrArg Memory.handles (Memory.call_getBlob refused handle key size)
    | commit handle => exact (Memory.call_commit refused handle).1
    | close handle => rfl
    | _ => cases hc

/-- nothing is committed but by a commit -/
theorem Memory.call_committed (refused : NvsCall → Bool) {c : NvsCall} (hc : ∀ handle, c ≠ .commit handle) (n : Memory) :
    (Memory.call refused c n).2.committed = n.committed := by
  cases hchange : c.change with
  | some x =>
    obtain ⟨there, hcall⟩ := Memory.call_change refused hchange
    rw [hcall]
    obtain ⟨-, h⟩ | ⟨ns, -, -, h⟩ := Memory.change_cases (n := n) (refused c) x.1 there x.2
    · rw [h]
    · rw [h]
      rfl
  | none =>
    cases c with
    | open_ ns mode => exact (Memory.call_open refused ns mode).1
    | getBlob handle key size => exact congrArg Memory.committed (Memory.call_getBlob refused handle key size)
    | commit handle => exact absurd rfl (hc handle)
    | close handle => rfl
    | _ => cases hchange

theorem Memory.commit_flushed (refused : NvsCall → Bool) (handle : ℕ) (n : Memory) (ns : String) :
    (Memory.call refused (.commit handle) n).2.committed ns = n.committed ns ∨
      (Memory.call refused (.commit handle) n).2.committed ns = n.view ns := by
  simp only [Memory.call, Memory.through]
  split
  · exact .inl rfl
  · dsimp only
    rw [Function.update_apply]
    split_ifs with hns
    · exact .inr (by rw [hns])
    · exact .inl rfl

theorem memoryNvs_lawful (refused : NvsCall → Bool) : (memoryNvs refused).Lawful where
  handled := Memory.call_handled refused
  fresh := by
    intro ns mode n h
    simp only [memoryNvs, Memory.call] at h ⊢
    split_ifs at h ⊢ with h1 h2
    exact h2
  absent := by
    intro ns n h
    simp only [memoryNvs, Memory.call] at h ⊢
    split_ifs at h with h1 h2
    simp [Memory.view, h1.2]
  got := by
    intro handle key size n ns mode hopen
    show (Memory.call refused _ n).1.err = .ok → ∃ v, (n.view ns).lookup key = some v ∧
      (Memory.call refused _ n).1.size = v.length ∧ (Memory.call refused _ n).1.value = _ ∧ _
    obtain ⟨-, h⟩ | ⟨v, hv, ⟨k, -, -, h⟩ | ⟨hfits, h⟩⟩ := Memory.getBlob_cases refused key size hopen
    · rw [h]
      exact nofun
    · rw [h]
      exact nofun
    · rw [h]
      exact fun _ => ⟨v, hv, rfl, rfl, hfits⟩
  missing := by
    intro handle key size n ns mode hopen
    show (Memory.call refused _ n).1.err = .notFound → (n.view ns).lookup key = none
    obtain ⟨hv, -⟩ | ⟨v, -, ⟨k, -, -, h⟩ | ⟨-, h⟩⟩ := Memory.getBlob_cases refused key size hopen
    · exact fun _ => hv
    · rw [h]
      exact nofun
    · rw [h]
      exact nofun
  tooLong := by
    intro handle key size n ns mode hopen
    show (Memory.call refused _ n).1.err = .invalidLength → ∃ v, (n.view ns).lookup key = some v ∧ size < v.length
    obtain ⟨-, h⟩ | ⟨v, hv, ⟨k, hk, hlong, -⟩ | ⟨-, h⟩⟩ := Memory.getBlob_cases refused key (some size) hopen
    · rw [h]
      exact nofun
    · obtain rfl := Option.some.inj hk
      exact fun _ => ⟨v, hv, hlong⟩
    · rw [h]
      exact nofun
  erased := by
    intro handle n ns key hopen
    refine ⟨fun h => ?_, fun h => ?_⟩
    · obtain ⟨hne, -⟩ | ⟨ns', hopen', hthere, -⟩ := Memory.change_cases (n := n) (refused (.eraseKey handle key)) handle
        (fun s => decide (key ∈ s)) fun s => s.erase key
      · exact absurd h hne
      · obtain ⟨rfl, -⟩ := Prod.mk.inj (Option.some.inj (hopen.symm.trans hopen'))
        exact of_decide_eq_true hthere
    · exact of_decide_eq_false (Memory.change_notFound hopen h)
  kept := by
    intro c hc n
    cases c with
    | open_ ns mode => exact (Memory.call_open refused ns mode).2
    | getBlob handle key size => exact congrArg Memory.view (Memory.call_getBlob refused handle key size)
    | commit handle => exact (Memory.call_commit refused handle).2
    | close handle => rfl
    | _ => cases hc
  confined := by
    intro c handle f hc n ns mode hopen ns' hne
    obtain ⟨there, hcall⟩ := Memory.call_change refused hc
    show (Memory.call refused c n).2.view ns' = n.view ns'
    rw [hcall]
    obtain ⟨-, h⟩ | ⟨ns'', hopen', -, h⟩ := Memory.change_cases (n := n) (refused c) handle there f
    · rw [h]
    · obtain ⟨rfl, -⟩ := Prod.mk.inj (Option.some.inj (hopen.symm.trans hopen'))
      rw [h, Memory.view_put, Function.update_of_ne hne]
  changed := by
    intro c handle f hc n ns hopen
    obtain ⟨there, hcall⟩ := Memory.call_change refused hc
    show (Memory.call refused c n).1.err = .ok → (Memory.call refused c n).2.view ns = f (n.view ns)
    rw [hcall]
    intro hok
    obtain ⟨hne, -⟩ | ⟨ns', hopen', -, h⟩ := Memory.change_cases (n := n) (refused c) handle there f
    · exact absurd hok hne
    · obtain ⟨rfl, -⟩ := Prod.mk.inj (Option.some.inj (hopen.symm.trans hopen'))
      rw [h, Memory.view_put, Function.update_self]
  flushed := by
    intro c n ns key
    by_cases hc : ∃ handle, c = .commit handle
    · obtain ⟨handle, rfl⟩ := hc
      rcases Memory.commit_flushed refused handle n ns with h | h
      · exact .inl (congrArg (Finmap.lookup key) h)
      · refine .inr (congrArg (Finmap.lookup key) (h.trans ?_))
        exact (congrFun (Memory.call_commit refused handle).2 ns).symm
    · rw [not_exists] at hc
      exact .inl (congrArg (fun m => (m ns).lookup key) (Memory.call_committed refused hc n))
  committed := by
    intro handle n ns mode hopen _
    show (Memory.call refused (.commit handle) n).2.committed ns = n.view ns
    have hopen' : n.handles handle = some (ns, mode) := hopen
    simp only [Memory.call, Memory.through, hopen', Function.update_self]

/-- it leaves no change behind with an error -/
theorem memoryNvs_settled {c : NvsCall} (h : ∀ handle, c = .commit handle → (n.handles handle).isSome = true) :
    (memoryNvs refused).Settled (c, n) := by
  refine ⟨fun hchange herr => ?_, fun handle hc => ?_⟩
  · obtain ⟨x, hc⟩ := Option.isSome_iff_exists.1 hchange
    obtain ⟨there, hcall⟩ := Memory.call_change refused hc
    have herr' : (Memory.call refused c n).1.err ≠ .ok := herr
    show (Memory.call refused c n).2.view = n.view
    rw [hcall] at herr' ⊢
    obtain ⟨-, h⟩ | ⟨ns', -, -, h⟩ := Memory.change_cases (n := n) (refused c) x.1 there x.2
    · rw [h]
    · rw [h] at herr'
      exact absurd rfl herr'
  · obtain ⟨x, hopen⟩ := Option.isSome_iff_exists.1 (h handle hc)
    subst hc
    show (Memory.call refused (.commit handle) n).1.err = .ok
    simp only [Memory.call, Memory.through, hopen]

end

def exampleIds : List {id : String // id.utf8ByteSize ≤ maxNamespaceLen} :=
  [⟨"system_counter", by decide⟩, ⟨"sensor_sht41", by decide⟩, ⟨"system_counter", by decide⟩]

def exampleOps : List (NvsStorage × Op) :=
  [(⟨"system_counter", by decide⟩, .write "c_sys_lifetime" [1, 0]), (⟨"sensor_sht41", by decide⟩, .write "heat_count" [7]),
    (⟨"sensor_sht41", by decide⟩, .erase "heat_count"), (⟨"system_counter", by decide⟩, .read "c_sys_lifetime" 8)]

/-- no key can be erased -/
def exampleNvs : Nvs Memory :=
  memoryNvs fun c =>
    match c with
    | .eraseKey _ _ => true
    | _ => false

theorem exampleNvs_settled : ∀ x ∈ (operate exampleNvs exampleOps .blank).1, ∀ y ∈ x.2.2, exampleNvs.Settled y := by
  have hcommits : ∀ x ∈ (operate exampleNvs exampleOps .blank).1, ∀ y ∈ x.2.2,
      (match y.1 with
        | .commit handle => (y.2.handles handle).isSome
        | _ => true) = true := by
    decide +kernel
  intro x hx y hy
  refine memoryNvs_settled fun handle hc => ?_
  have h := hcommits x hx y hy
  rwa [hc] at h

theorem refines_storage_example :
    Steps (storageStep exampleNvs) ∅
        ((operate exampleNvs exampleOps .blank).1.filter fun x => x.1.1 = ⟨"system_counter", by decide⟩)
        (exampleNvs.view (operate exampleNvs exampleOps .blank).2 "system_counter") ∧
      ∀ t ∈ cuts exampleNvs exampleOps .blank, ∃ k ≤ 4,
        exampleNvs.Between (operate exampleNvs (exampleOps.take k) .blank).2
          (operate exampleNvs (exampleOps.take (k + 1)) .blank).2 t := by
  obtain ⟨hsteps, -, hcut⟩ :=
    refines_storage exampleNvs (memoryNvs_lawful _) .blank exampleIds exampleOps (by decide)
  exact ⟨hsteps ⟨"system_counter", by decide⟩ (by decide), hcut exampleNvs_settled rfl⟩

end ControlComponents.Storage
