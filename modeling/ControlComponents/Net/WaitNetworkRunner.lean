/-
`WaitNetworkRunner` (`ocs_net`): a network that is stopped when it fails to start.

The runner remembers that it has stopped the network, and does not forget it when it starts the network again: the network is
stopped at most once in the life of a runner.

- `sinceStart`: what the network was told since it last came up.
- `stops_once`: no run stops the network twice.
- `upholds_iff`: when a call leaves the network stopped. `never_left_running_iff`: the runs of calls that do.
- `guarded_iff_oneCycle`: which runs these are, told by their calls and the answers to them.
  `left_running` are runs that leave the network running, or report that it has been stopped where stopping it has failed.
-/
import ControlComponents.Lib.Runs
import ControlComponents.Net.StaNetwork

namespace ControlComponents.Net.WaitNetworkRunner

open ControlComponents.Lib.Runs

/-! ## Model -/

/-- the calls of `INetwork` -/
inductive Call where
  | start
  | wait (interval : TickType)
  | stop
deriving DecidableEq

/-- a runner, with the calls it has made to its network and their results -/
structure World where
  waitStartInterval : TickType
  stopped : Bool
  calls : List (Call × StatusCode)

def World.new (wait : TickType) : World := ⟨wait, false, []⟩

/-- what the network answers while it is being started -/
structure Results where
  start : StatusCode
  wait : StatusCode
  /-- if it has to be stopped after all -/
  stop : StatusCode

def callNetwork (w : World) (call : Call) (code : StatusCode) : World := { w with calls := w.calls ++ [(call, code)] }

def start_ (w : World) (results : Results) : StatusCode × World :=
  let w := callNetwork w .start results.start
  if results.start ≠ .ok then (results.start, w)
  else
    let w := callNetwork w (.wait w.waitStartInterval) results.wait
    if results.wait ≠ .ok then (results.wait, w) else (.ok, w)

/-- the network answers `code` if it is called -/
def stop (w : World) (code : StatusCode) : StatusCode × World :=
  if !w.stopped then (code, { callNetwork w .stop code with stopped := true }) else (.ok, w)

def start (w : World) (results : Results) : StatusCode × World :=
  let (code, w) := start_ w results
  if code ≠ .ok then (code, (stop w results.stop).2) else (code, w)

/-- a call of the runner, with the answers of the network -/
inductive Event where
  | start (results : Results)
  | stop (code : StatusCode)

def step (w : World) : Event → World
  | .start results => (start w results).2
  | .stop code => (stop w code).2

/-! ## The law -/

/-- what is known of the network after one more call: nothing before it has come up, and then how it answered when it was
stopped -/
def track (since : Option (List StatusCode)) : Call × StatusCode → Option (List StatusCode)
  | (.start, .ok) => some []
  | (.start, _) => since
  | (.wait _, _) => since
  | (.stop, code) => since.map (· ++ [code])

/-- the answers to the stops since the network last came up, if it ever has -/
def sinceStart (w : World) : Option (List StatusCode) := w.calls.foldl track none

/-- the network has been stopped since it last came up -/
def Stopped (w : World) : Prop := ∀ stops ∈ sinceStart w, stops ≠ []

instance (w : World) : Decidable (Stopped w) := by
  unfold Stopped; infer_instance

/-- and the last stop has succeeded -/
def StoppedOk (w : World) : Prop := ∀ stops ∈ sinceStart w, stops.getLast? = some .ok

instance (w : World) : Decidable (StoppedOk w) := by
  unfold StoppedOk; infer_instance

/-- a start that fails and every stop leave the network stopped, and a stop that succeeds has done so -/
def Upholds (w : World) : Event → Prop
  | .start results => (start w results).1 ≠ .ok → Stopped (start w results).2
  | .stop code => Stopped (stop w code).2 ∧ ((stop w code).1 = .ok → StoppedOk (stop w code).2)

instance (w : World) : DecidablePred (Upholds w)
  | .start results => inferInstanceAs (Decidable ((start w results).1 ≠ .ok → Stopped (start w results).2))
  | .stop code => inferInstanceAs (Decidable (Stopped (stop w code).2 ∧ ((stop w code).1 = .ok → StoppedOk (stop w code).2)))

/-- what a call has to meet: the runner has not stopped the network yet, or need not do it now -/
def Allowed (w : World) : Event → Prop
  | .start results => w.stopped = true →
      (results.start = .ok → results.wait = .ok) ∧ (results.start ≠ .ok → Stopped w)
  | .stop _ => w.stopped = true → StoppedOk w

instance (w : World) : DecidablePred (Allowed w)
  | .start results => inferInstanceAs (Decidable (w.stopped = true →
      (results.start = .ok → results.wait = .ok) ∧ (results.start ≠ .ok → Stopped w)))
  | .stop _ => inferInstanceAs (Decidable (w.stopped = true → StoppedOk w))

/-! ## One call -/

theorem sinceStart_callNetwork (w : World) (call : Call) (code : StatusCode) :
    sinceStart (callNetwork w call code) = track (sinceStart w) (call, code) :=
  List.foldl_concat ..

theorem sinceStart_start {w : World} {code : StatusCode} (h : code ≠ .ok) :
    sinceStart (callNetwork w .start code) = sinceStart w := by
  rw [sinceStart_callNetwork]
  cases code with
  | ok => exact absurd rfl h
  | _ => rfl

/-- a runner that has stopped the network before does nothing -/
theorem stop_of_stopped {w : World} (h : w.stopped = true) (code : StatusCode) : stop w code = (.ok, w) := by
  rw [stop, h]
  rfl

theorem stop_of_not_stopped {w : World} (h : w.stopped = false) (code : StatusCode) :
    stop w code = (code, { callNetwork w .stop code with stopped := true }) := by
  rw [stop, h]
  rfl

theorem sinceStart_stop {w : World} (h : w.stopped = false) (code : StatusCode) :
    sinceStart (stop w code).2 = (sinceStart w).map (· ++ [code]) := by
  rw [stop_of_not_stopped h]
  exact sinceStart_callNetwork w .stop code

/-- the first stop reaches the network -/
theorem stopped_stop {w : World} (h : w.stopped = false) (code : StatusCode) : Stopped (stop w code).2 := by
  intro stops hstops
  rw [sinceStart_stop h] at hstops
  obtain ⟨before, -, rfl⟩ := Option.map_eq_some_iff.1 hstops
  exact List.append_ne_nil_of_right_ne_nil before (List.cons_ne_nil code [])

theorem stoppedOk_stop {w : World} (h : w.stopped = false) : StoppedOk (stop w .ok).2 := by
  intro stops hstops
  rw [sinceStart_stop h] at hstops
  obtain ⟨before, -, rfl⟩ := Option.map_eq_some_iff.1 hstops
  exact List.getLast?_concat

theorem StoppedOk.stopped {w : World} (h : StoppedOk w) : Stopped w := by
  intro stops hstops hnil
  have hlast := h stops hstops
  rw [hnil] at hlast
  cases hlast

/-- what a start comes to: the network does not come up, it does not connect, or both succeed -/
theorem start_cases (w : World) (results : Results) :
    (results.start ≠ .ok ∧
      start w results = (results.start, (stop (callNetwork w .start results.start) results.stop).2)) ∨
    (results.start = .ok ∧ results.wait ≠ .ok ∧ start w results = (results.wait,
      (stop (callNetwork (callNetwork w .start .ok) (.wait w.waitStartInterval) results.wait) results.stop).2)) ∨
    (results.start = .ok ∧ results.wait = .ok ∧ start w results =
      (.ok, callNetwork (callNetwork w .start .ok) (.wait w.waitStartInterval) .ok)) := by
  unfold start start_
  by_cases hstart : results.start = .ok
  · by_cases hwait : results.wait = .ok
    · refine .inr (.inr ⟨hstart, hwait, ?_⟩)
      simp [hstart, hwait, callNetwork]
    · refine .inr (.inl ⟨hstart, hwait, ?_⟩)
      simp [hstart, hwait, callNetwork]
  · refine .inl ⟨hstart, ?_⟩
    simp [hstart]

theorem start_upholds_iff (w : World) (results : Results) :
    Upholds w (.start results) ↔ Allowed w (.start results) := by
  simp only [Upholds, Allowed]
  rcases start_cases w results with ⟨hstart, hrun⟩ | ⟨hstart, hwait, hrun⟩ | ⟨hstart, hwait, hrun⟩
  · rw [hrun]
    cases hstopped : w.stopped with
    | false => simp [hstart, stopped_stop (w := callNetwork w .start results.start) hstopped]
    | true =>
      have hsame : Stopped (callNetwork w .start results.start) ↔ Stopped w := by
        rw [Stopped, Stopped, sinceStart_start hstart]
      rw [stop_of_stopped (w := callNetwork w .start results.start) hstopped]
      simp [hstart, hsame]
  · rw [hrun]
    set up := callNetwork (callNetwork w .start .ok) (.wait w.waitStartInterval) results.wait with hup
    have hflag : up.stopped = w.stopped := rfl
    cases hstopped : w.stopped with
    | false => simp [hwait, stopped_stop (hflag.trans hstopped)]
    | true =>
      -- the network has come up and is not stopped again
      have hup : ¬ Stopped up := by
        intro h
        refine h [] ?_ rfl
        rw [hup, sinceStart_callNetwork, sinceStart_callNetwork]
        rfl
      rw [stop_of_stopped (hflag.trans hstopped)]
      simp [hstart, hwait, hup]
  · simp [hrun, hstart, hwait]

theorem stop_upholds_iff (w : World) (code : StatusCode) : Upholds w (.stop code) ↔ Allowed w (.stop code) := by
  simp only [Upholds, Allowed]
  cases hstopped : w.stopped with
  | false =>
    have hcode : (stop w code).1 = code := by rw [stop_of_not_stopped hstopped]
    have hok : (stop w code).1 = .ok → StoppedOk (stop w code).2 := by
      rw [hcode]
      rintro rfl
      exact stoppedOk_stop hstopped
    exact iff_of_true ⟨stopped_stop hstopped code, hok⟩ nofun
  | true =>
    rw [stop_of_stopped hstopped]
    exact ⟨fun h _ => h.2 rfl, fun h => ⟨(h rfl).stopped, fun _ => h rfl⟩⟩

theorem upholds_iff (w : World) (e : Event) : Upholds w e ↔ Allowed w e := by
  cases e with
  | start results => exact start_upholds_iff w results
  | stop code => exact stop_upholds_iff w code

/-! ## Runs -/

/-- how often the network has been stopped -/
def stopCount (w : World) : ℕ := w.calls.countP fun c => decide (c.1 = .stop)

/-- the network is stopped once, and not before the runner remembers it -/
structure StopInv (w : World) : Prop where
  once : stopCount w ≤ 1
  never : w.stopped = false → stopCount w = 0

theorem stopInv_callNetwork {w : World} (hw : StopInv w) {call : Call} (hcall : call ≠ .stop) (code : StatusCode) :
    StopInv (callNetwork w call code) := by
  have hcount : stopCount (callNetwork w call code) = stopCount w := by
    rw [stopCount, callNetwork, List.countP_append, List.countP_singleton]
    simp [hcall, stopCount]
  exact ⟨hcount.trans_le hw.once, fun h => hcount.trans (hw.never h)⟩

theorem stopInv_stop {w : World} (hw : StopInv w) (code : StatusCode) : StopInv (stop w code).2 := by
  cases hstopped : w.stopped with
  | false =>
    have hcount : stopCount (stop w code).2 = stopCount w + 1 := by
      rw [stop_of_not_stopped hstopped, stopCount, callNetwork, List.countP_append]
      rfl
    refine ⟨?_, fun h => ?_⟩
    · rw [hcount, hw.never hstopped]
    · rw [stop_of_not_stopped hstopped] at h
      cases h
  | true =>
    rw [stop_of_stopped hstopped]
    exact hw

theorem stopInv_step (w : World) (e : Event) (hw : StopInv w) : StopInv (step w e) := by
  cases e with
  | stop code => exact stopInv_stop hw code
  | start results =>
    have hup (code : StatusCode) : StopInv (callNetwork w .start code) := stopInv_callNetwork hw (by simp) code
    have hwaited (code : StatusCode) :
        StopInv (callNetwork (callNetwork w .start .ok) (.wait w.waitStartInterval) code) :=
      stopInv_callNetwork (hup .ok) (by simp) code
    rw [step]
    rcases start_cases w results with ⟨-, hrun⟩ | ⟨-, -, hrun⟩ | ⟨-, -, hrun⟩
    · rw [hrun]
      exact stopInv_stop (hup results.start) results.stop
    · rw [hrun]
      exact stopInv_stop (hwaited results.wait) results.stop
    · rw [hrun]
      exact hwaited .ok

/-- a run stops the network at most once, however often it starts it -/
theorem stops_once (wait : TickType) (es : List Event) : stopCount (run step (.new wait) es) ≤ 1 := by
  have hnew : StopInv (.new wait) := ⟨Nat.zero_le 1, fun _ => rfl⟩
  exact (run_preserves stopInv_step hnew es).once

/-! ### The sequences of calls -/

/-- the network comes up and connects -/
def Event.Succeeds : Event → Prop
  | .start results => results.start = .ok ∧ results.wait = .ok
  | .stop _ => False

/-- the network comes up -/
def Event.ComesUp : Event → Prop
  | .start results => results.start = .ok
  | .stop _ => False

/-- the answer of the network when it is stopped -/
def Event.stopCode : Event → StatusCode
  | .start results => results.stop
  | .stop code => code

/-- a call that needs no stop: a start at which the network does not come up, or a stop after a clean one -/
def Event.Idle (clean : Prop) : Event → Prop
  | .start results => results.start ≠ .ok
  | .stop _ => clean

/-- calls that need no stop, and then starts that succeed -/
def AfterStop (clean : Prop) (es : List Event) : Prop :=
  ∃ idle again, es = idle ++ again ∧ (∀ e ∈ idle, e.Idle clean) ∧ ∀ e ∈ again, e.Succeeds

/-- starts that succeed, then the call that stops the network and what may follow it; the stop is clean if it succeeds, or if
the network has never come up -/
def OneCycle (fresh : Prop) (es : List Event) : Prop :=
  ∃ up rest, es = up ++ rest ∧ (∀ e ∈ up, e.Succeeds) ∧ ∀ e ∈ rest.head?,
    ¬e.Succeeds ∧ AfterStop (e.stopCode = .ok ∨ (fresh ∧ up = [] ∧ ¬e.ComesUp)) rest.tail

theorem afterStop_cons (clean : Prop) (e : Event) (es : List Event) :
    AfterStop clean (e :: es) ↔ (e.Idle clean ∧ AfterStop clean es) ∨ ∀ e' ∈ e :: es, e'.Succeeds := by
  refine ⟨?_, ?_⟩
  · rintro ⟨idle, again, hes, hidle, hagain⟩
    cases idle with
    | nil =>
      rw [List.nil_append] at hes
      exact .inr (hes ▸ hagain)
    | cons i idle =>
      obtain ⟨rfl, rfl⟩ := List.cons.inj hes
      exact .inl ⟨hidle e List.mem_cons_self, idle, again, rfl, fun e' he' => hidle e' (List.mem_cons_of_mem e he'), hagain⟩
  · rintro (⟨he, idle, again, rfl, hidle, hagain⟩ | hall)
    · exact ⟨e :: idle, again, rfl, List.forall_mem_cons.2 ⟨he, hidle⟩, hagain⟩
    · exact ⟨[], e :: es, rfl, fun e' he' => absurd he' List.not_mem_nil, hall⟩

theorem oneCycle_cons_of_succeeds {fresh : Prop} {e : Event} (he : e.Succeeds) (es : List Event) :
    OneCycle fresh (e :: es) ↔ OneCycle False es := by
  refine ⟨?_, ?_⟩
  · rintro ⟨up, rest, hes, hup, hrest⟩
    cases up with
    | nil =>
      rw [List.nil_append] at hes
      subst hes
      exact absurd he (hrest e rfl).1
    | cons u up =>
      obtain ⟨rfl, rfl⟩ := List.cons.inj hes
      refine ⟨up, rest, rfl, fun e' he' => hup e' (List.mem_cons_of_mem e he'), ?_⟩
      simpa only [reduceCtorEq, false_and, and_false] using hrest
  · rintro ⟨up, rest, rfl, hup, hrest⟩
    refine ⟨e :: up, rest, rfl, List.forall_mem_cons.2 ⟨he, hup⟩, ?_⟩
    simpa only [reduceCtorEq, false_and, and_false] using hrest

theorem oneCycle_cons_of_not_succeeds {fresh : Prop} {e : Event} (he : ¬e.Succeeds) (es : List Event) :
    OneCycle fresh (e :: es) ↔ AfterStop (e.stopCode = .ok ∨ (fresh ∧ ¬e.ComesUp)) es := by
  refine ⟨?_, ?_⟩
  · rintro ⟨up, rest, hes, hup, hrest⟩
    cases up with
    | nil =>
      rw [List.nil_append] at hes
      subst hes
      simpa only [true_and, List.tail_cons] using (hrest e rfl).2
    | cons u up =>
      obtain ⟨rfl, rfl⟩ := List.cons.inj hes
      exact absurd (hup e List.mem_cons_self) he
  · intro hafter
    refine ⟨[], e :: es, rfl, fun e' he' => absurd he' List.not_mem_nil, ?_⟩
    rintro e' he'
    obtain rfl := Option.some.inj he'
    exact ⟨he, by simpa only [true_and, List.tail_cons] using hafter⟩

/-- a start that succeeds -/
theorem step_succeeds (w : World) {e : Event} (he : e.Succeeds) :
    (step w e).stopped = w.stopped ∧ sinceStart (step w e) = some [] := by
  cases e with
  | stop code => exact he.elim
  | start results =>
    rw [step]
    rcases start_cases w results with ⟨hstart, -⟩ | ⟨-, hwait, -⟩ | ⟨-, -, hrun⟩
    · exact absurd he.1 hstart
    · exact absurd he.2 hwait
    · rw [hrun]
      exact ⟨rfl, by rw [sinceStart_callNetwork, sinceStart_callNetwork]; rfl⟩

/-- a call that needs no stop, once the network has been stopped -/
theorem step_idle {w : World} (hstopped : w.stopped = true) {e : Event} {clean : Prop} (he : e.Idle clean) :
    (step w e).stopped = true ∧ sinceStart (step w e) = sinceStart w := by
  cases e with
  | stop code =>
    rw [step, stop_of_stopped hstopped]
    exact ⟨hstopped, rfl⟩
  | start results =>
    rw [step]
    rcases start_cases w results with ⟨hstart, hrun⟩ | ⟨hstart, -⟩ | ⟨hstart, -⟩
    · rw [hrun, stop_of_stopped (w := callNetwork w .start results.start) hstopped]
      exact ⟨hstopped, sinceStart_start hstart⟩
    · exact absurd hstart he
    · exact absurd hstart he

/-- the call that stops the network -/
theorem step_stops {w : World} (hstopped : w.stopped = false) {e : Event} (he : ¬e.Succeeds) :
    (step w e).stopped = true ∧ ((e.ComesUp ∧ sinceStart (step w e) = some [e.stopCode]) ∨
      (¬e.ComesUp ∧ sinceStart (step w e) = (sinceStart w).map (· ++ [e.stopCode]))) := by
  cases e with
  | stop code =>
    refine ⟨?_, .inr ⟨not_false, sinceStart_stop hstopped code⟩⟩
    rw [step, stop_of_not_stopped hstopped]
  | start results =>
    rw [step]
    rcases start_cases w results with ⟨hstart, hrun⟩ | ⟨hstart, -, hrun⟩ | ⟨hstart, hwait, -⟩
    · have hflag : (callNetwork w .start results.start).stopped = false := hstopped
      rw [hrun]
      refine ⟨?_, .inr ⟨hstart, ?_⟩⟩
      · rw [stop_of_not_stopped hflag]
      · rw [sinceStart_stop hflag, sinceStart_start hstart]
        rfl
    · have hflag : (callNetwork (callNetwork w .start .ok) (.wait w.waitStartInterval) results.wait).stopped = false :=
        hstopped
      rw [hrun]
      refine ⟨?_, .inl ⟨hstart, ?_⟩⟩
      · rw [stop_of_not_stopped hflag]
      · rw [sinceStart_stop hflag, sinceStart_callNetwork, sinceStart_callNetwork]
        rfl
    · exact absurd ⟨hstart, hwait⟩ he

/-- it leaves the network stopped, and cleanly so if it succeeds or the network has never come up -/
theorem step_stops_spec {w : World} (hstopped : w.stopped = false) (hup : ∀ stops ∈ sinceStart w, stops = []) {e : Event}
    (he : ¬e.Succeeds) : (step w e).stopped = true ∧ Stopped (step w e) ∧
      (StoppedOk (step w e) ↔ e.stopCode = .ok ∨ (sinceStart w = none ∧ ¬e.ComesUp)) := by
  obtain ⟨hflag, hsince⟩ := step_stops hstopped he
  have hone (h : sinceStart (step w e) = some [e.stopCode]) :
      Stopped (step w e) ∧ (StoppedOk (step w e) ↔ e.stopCode = .ok) := by
    rw [Stopped, StoppedOk, h]
    simp
  refine ⟨hflag, ?_⟩
  rcases hsince with ⟨hcomes, hsince⟩ | ⟨hfails, hsince⟩
  · obtain ⟨hdown, hok⟩ := hone hsince
    exact ⟨hdown, hok.trans (by simp [hcomes])⟩
  · cases hbefore : sinceStart w with
    | none =>
      rw [hbefore] at hsince
      rw [Stopped, StoppedOk, hsince]
      simp [hfails]
    | some stops =>
      obtain rfl := hup stops hbefore
      rw [hbefore] at hsince
      obtain ⟨hdown, hok⟩ := hone hsince
      exact ⟨hdown, hok.trans (by simp)⟩

theorem not_idle_of_succeeds {e : Event} (he : e.Succeeds) (clean : Prop) : ¬e.Idle clean := by
  cases e with
  | stop code => exact he.elim
  | start results => exact fun hidle => hidle he.1

/-- before the network has been stopped every call is allowed -/
theorem allowed_of_not_stopped {w : World} (hstopped : w.stopped = false) (e : Event) : Allowed w e := by
  cases e <;> exact fun h => by rw [hstopped] at h; cases h

/-- afterwards a call succeeds, or needs no stop -/
theorem allowed_iff_of_stopped {w : World} (hstopped : w.stopped = true) (hdown : Stopped w) (e : Event) :
    Allowed w e ↔ e.Succeeds ∨ e.Idle (StoppedOk w) := by
  cases e with
  | stop code => simp only [Allowed, hstopped, true_implies, Event.Succeeds, Event.Idle, false_or]
  | start results =>
    simp only [Allowed, hstopped, hdown, true_implies, implies_true, and_true, Event.Succeeds, Event.Idle]
    tauto

/-- and a network that is up again must not need any -/
theorem allowed_iff_of_up {w : World} (hstopped : w.stopped = true) (hup : sinceStart w = some []) (e : Event) :
    Allowed w e ↔ e.Succeeds := by
  have hrunning : ¬Stopped w := fun h => h [] hup rfl
  cases e with
  | stop code =>
    refine iff_of_false (fun h => hrunning (h hstopped).stopped) not_false
  | start results =>
    simp only [Allowed, hstopped, hrunning, true_implies, imp_false, not_not, Event.Succeeds]
    tauto

/-- a network that has been started again is not stopped any more -/
theorem guarded_again_iff (es : List Event) {w : World} (hstopped : w.stopped = true) (hup : sinceStart w = some []) :
    Guarded step Allowed w es ↔ ∀ e ∈ es, e.Succeeds := by
  induction es generalizing w with
  | nil => exact iff_of_true trivial fun e he => absurd he List.not_mem_nil
  | cons e es ih =>
    rw [Guarded, allowed_iff_of_up hstopped hup, List.forall_mem_cons]
    refine and_congr_right fun he => ?_
    obtain ⟨hflag, hsince⟩ := step_succeeds w he
    exact ih (hflag.trans hstopped) hsince

theorem guarded_afterStop_iff (es : List Event) {w : World} (hstopped : w.stopped = true) (hdown : Stopped w) :
    Guarded step Allowed w es ↔ AfterStop (StoppedOk w) es := by
  induction es generalizing w with
  | nil =>
    have hnone (P : Event → Prop) : ∀ e ∈ ([] : List Event), P e := fun e he => absurd he List.not_mem_nil
    exact iff_of_true trivial ⟨[], [], rfl, hnone _, hnone _⟩
  | cons e es ih =>
    rw [Guarded, allowed_iff_of_stopped hstopped hdown, afterStop_cons, List.forall_mem_cons]
    by_cases he : e.Succeeds
    · obtain ⟨hflag, hsince⟩ := step_succeeds w he
      simp only [he, not_idle_of_succeeds he, true_or, true_and, false_and, false_or]
      exact guarded_again_iff es (hflag.trans hstopped) hsince
    · simp only [he, false_or, false_and, or_false]
      refine and_congr_right fun hidle => ?_
      obtain ⟨hflag, hsince⟩ := step_idle hstopped hidle
      have hok : StoppedOk (step w e) ↔ StoppedOk w := by rw [StoppedOk, StoppedOk, hsince]
      have hdown' : Stopped (step w e) := by
        rw [Stopped, hsince]
        exact hdown
      rw [ih hflag hdown', hok]

/-- **One cycle.** Over a network that has not been stopped, the calls that are allowed are starts that succeed, the call
that stops the network, calls that need no stop, and again starts that succeed. -/
theorem guarded_iff_oneCycle (es : List Event) {w : World} (hstopped : w.stopped = false)
    (hup : ∀ stops ∈ sinceStart w, stops = []) :
    Guarded step Allowed w es ↔ OneCycle (sinceStart w = none) es := by
  induction es generalizing w with
  | nil =>
    refine iff_of_true trivial ⟨[], [], rfl, fun e he => absurd he List.not_mem_nil, ?_⟩
    rintro e he
    cases he
  | cons e es ih =>
    rw [Guarded, and_iff_right (allowed_of_not_stopped hstopped e)]
    by_cases he : e.Succeeds
    · obtain ⟨hflag, hsince⟩ := step_succeeds w he
      have hstops : ∀ stops ∈ sinceStart (step w e), stops = [] := by
        rw [hsince]
        rintro stops hstops
        exact (Option.some.inj hstops).symm
      rw [oneCycle_cons_of_succeeds he, ih (hflag.trans hstopped) hstops, hsince]
      simp only [reduceCtorEq]
    · obtain ⟨hflag, hdown, hok⟩ := step_stops_spec hstopped hup he
      rw [oneCycle_cons_of_not_succeeds he, guarded_afterStop_iff es hflag hdown, hok]

/-- **A network that is left running.** In every sequence of calls, whatever the network answers: every start that fails and
every stop leave the network stopped, and every stop that succeeds has stopped it, iff every call finds a runner that has not
stopped the network yet, or a network that needs no stop. -/
theorem never_left_running_iff (wait : TickType) (es : List Event) :
    Guarded step Upholds (.new wait) es ↔ Guarded step Allowed (.new wait) es := by
  have hstep (w : World) (e : Event) (_ : True) (_ : Upholds w e) : True := trivial
  have hiff (w : World) (e : Event) (_ : True) : Upholds w e ↔ Allowed w e := upholds_iff w e
  exact guarded_congr hstep hiff trivial es

def NeverLeftRunning : Prop := ∀ (wait : TickType) (es : List Event), Guarded step Upholds (.new wait) es

/-- every call succeeds -/
def succeeds : Results := ⟨.ok, .ok, .ok⟩

/-- the calls that runs make -/
def callsOf (es : List Event) : List (Call × StatusCode) := (run step (.new portMaxDelay) es).calls

/-- **Left running.** The second stop of two cycles does not reach the network, nor does the one of a start that does not
connect after the first cycle; a stop that fails is reported as a success when it is repeated. -/
theorem left_running : ¬ NeverLeftRunning ∧
    callsOf [.start succeeds, .stop .ok, .start succeeds, .stop .ok] =
      [(.start, .ok), (.wait portMaxDelay, .ok), (.stop, .ok), (.start, .ok), (.wait portMaxDelay, .ok)] ∧
    callsOf [.start succeeds, .stop .ok, .start ⟨.ok, .timeout, .ok⟩] =
      [(.start, .ok), (.wait portMaxDelay, .ok), (.stop, .ok), (.start, .ok), (.wait portMaxDelay, .timeout)] ∧
    (stop (run step (.new portMaxDelay) [.start succeeds, .stop .error]) .error).1 = .ok := by
  refine ⟨fun h => ?_, by decide, by decide, by decide⟩
  have hrun := h portMaxDelay [.start succeeds, .stop .ok, .start succeeds, .stop .ok]
  revert hrun
  decide

end ControlComponents.Net.WaitNetworkRunner
