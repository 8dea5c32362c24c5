/-
`FsmStore` (`ocs_control`): runs the handlers of a block's current state and moves the block between states.

A transition takes two runs. The run that finds the block in transit remembers so in `is_transit_begin_`; the next run
tells the handlers of the old state, moves the block to whatever state is requested by then, and goes on with the
handlers of the new state. Handlers and other code may request states at any time.

- `run_cases`: the calls of one run and the block it leaves.
- `fsmStep_requested`: a requested state the store still acts on is the most recent request.
- `run_lawful`: in every history whose pending transitions still lead to another state when they are performed, each run
  keeps the law of the store. `run_moves_to_none` is a run without that.
-/
import ControlComponents.Control.FsmBlock
import ControlComponents.Lib.Runs

namespace ControlComponents.Control

open ControlComponents.Lib.Runs ControlComponents.Storage

/-! ## Model -/

abbrev Handler := ℕ

/-- what a handler does when it is called: the states it requests, in order, and the status it returns -/
structure Reaction where
  requests : List State
  code : StatusCode

/-- what can be observed: the calls of handlers, of `set_next` and of `transit`, and warnings about statuses -/
inductive Call where
  | handleTransit (h : Handler)
  | handleState (h : Handler)
  | setNext (state : State)
  | transit (old new : State)
  | warn (code : StatusCode)
deriving DecidableEq

structure FsmStore where
  block : FsmBlock
  isTransitBegin : Bool
  handlers : State → List Handler

/-- everything one run meets: the two clock readings, the storage failures, and the reactions of the handlers by
position -/
structure RunInput where
  now : Time
  transitNow : Time
  faults : Faults
  onTransit : ℕ → Reaction
  onState : ℕ → Reaction

/-- a status other than OK is reported in the log and nowhere else -/
def warnings (code : StatusCode) : List Call := if code = .ok then [] else [.warn code]

/-- call the handlers in order, the first one reacting as number `n` -/
def callHandlers (kind : Handler → Call) (react : ℕ → Reaction) : ℕ → List Handler → FsmBlock → FsmBlock × List Call
  | _, [], b => (b, [])
  | n, h :: hs, b =>
    let requests := (react n).requests
    let (b', calls) := callHandlers kind react (n + 1) hs (requests.foldl FsmBlock.setNext b)
    (b', kind h :: (requests.map .setNext ++ warnings (react n).code ++ calls))

namespace FsmStore

/-- the constructor -/
def init (b : FsmBlock) : FsmStore := ⟨b, false, fun _ => []⟩

def add (st : FsmStore) (state : State) (h : Handler) : FsmStore :=
  { st with handlers := fun s => if s = state then st.handlers s ++ [h] else st.handlers s }

def handleTransitBegin (st : FsmStore) : FsmStore := { st with isTransitBegin := true }

/-- `none` is the assertion that the current state has handlers -/
def handleTransitEnd (st : FsmStore) (i : RunInput) (s : Store) : Option (FsmStore × Store × List Call) :=
  let hs := st.handlers st.block.currState
  if hs = [] then none
  else
    let (b, calls) := callHandlers .handleTransit i.onTransit 0 hs st.block
    let (code, b', s') := b.transit i.transitNow i.faults s
    some ({ st with block := b', isTransitBegin := false }, s',
      calls ++ .transit b.currState b'.currState :: warnings code)

def handleState (st : FsmStore) (i : RunInput) : Option (FsmStore × List Call) :=
  let hs := st.handlers st.block.currState
  if hs = [] then none
  else
    let (b, calls) := callHandlers .handleState i.onState 0 hs st.block
    some ({ st with block := b }, calls)

def run (st : FsmStore) (i : RunInput) (s : Store) : Option (FsmStore × Store × List Call) := do
  let st := { st with block := st.block.update i.now }
  let (st, s, ended) ← (if st.isTransitBegin then st.handleTransitEnd i s else some (st, s, []))
  let (st, calls) ← st.handleState i
  let st := if st.block.isInTransit then st.handleTransitBegin else st
  some (st, s, ended ++ calls)

end FsmStore

/-- a store, the storage of its block, and all calls so far -/
structure Fsm where
  fsm : FsmStore
  store : Store
  trace : List Call

/-- a request from outside the handlers, or a run -/
inductive FsmEvent where
  | setNext (state : State)
  | run (i : RunInput)

def fsmStep (w : Fsm) : FsmEvent → Option Fsm
  | .setNext state =>
    some { w with
      fsm := { w.fsm with block := w.fsm.block.setNext state }
      trace := w.trace ++ [.setNext state] }
  | .run i => do
    let (fsm, store, calls) ← w.fsm.run i w.store
    some ⟨fsm, store, w.trace ++ calls⟩

/-! ## Calls of handlers -/

def Call.transitHandler : Call → Option Handler
  | .handleTransit h => some h
  | _ => none

def Call.stateHandler : Call → Option Handler
  | .handleState h => some h
  | _ => none

def Call.move : Call → Option (State × State)
  | .transit old new => some (old, new)
  | _ => none

def Call.request : Call → Option State
  | .setNext state => some state
  | _ => none

/-- the states the handlers request in their reactions, in order -/
def reactions (react : ℕ → Reaction) : ℕ → List Handler → List State
  | _, [] => []
  | n, _ :: hs => (react n).requests ++ reactions react (n + 1) hs

/-- the state requested after a list of requests -/
def lastRequest : State → List State → State
  | state, [] => state
  | _, state :: states => lastRequest state states

theorem lastRequest_append (state : State) (as bs : List State) :
    lastRequest state (as ++ bs) = lastRequest (lastRequest state as) bs := by
  induction as generalizing state with
  | nil => rfl
  | cons a as ih => exact ih a

theorem getLast?_append_lastRequest {state : State} {as : List State} (h : as.getLast? = some state)
    (bs : List State) : (as ++ bs).getLast? = some (lastRequest state bs) := by
  induction bs generalizing state as with
  | nil => rw [List.append_nil, h, lastRequest]
  | cons b bs ih =>
    have hsplit : as ++ b :: bs = (as ++ [b]) ++ bs := by simp
    rw [hsplit]
    exact ih List.getLast?_concat

theorem foldl_setNext (states : List State) (b : FsmBlock) :
    states.foldl FsmBlock.setNext b = b.setNext (lastRequest b.nextState states) := by
  induction states generalizing b with
  | nil => rfl
  | cons state states ih => exact ih (b.setNext state)

theorem filterMap_warnings {α : Type} (g : Call → Option α) (hwarn : ∀ code, g (.warn code) = none)
    (code : StatusCode) : (warnings code).filterMap g = [] := by
  unfold warnings
  split_ifs <;> simp [hwarn]

theorem filterMap_warnings_append {α : Type} (g : Call → Option α) (hwarn : ∀ code, g (.warn code) = none)
    (code : StatusCode) (calls : List Call) : (warnings code ++ calls).filterMap g = calls.filterMap g := by
  rw [List.filterMap_append, filterMap_warnings g hwarn, List.nil_append]

section callHandlers

variable (kind : Handler → Call) (react : ℕ → Reaction) (n : ℕ) (hs : List Handler) (b : FsmBlock)

/-- what is left of the reactions of the handlers is the last request -/
theorem block_callHandlers :
    (callHandlers kind react n hs b).1 = b.setNext (lastRequest b.nextState (reactions react n hs)) := by
  induction hs generalizing n b with
  | nil => rfl
  | cons h hs ih =>
    simp only [callHandlers, reactions, ih, foldl_setNext, lastRequest_append]
    rfl

/-- the handlers are all called, once and in order -/
theorem handlers_callHandlers {α : Type} (g : Call → Option α) (hset : ∀ state, g (.setNext state) = none)
    (hwarn : ∀ code, g (.warn code) = none) :
    (callHandlers kind react n hs b).2.filterMap g = hs.filterMap fun h => g (kind h) := by
  induction hs generalizing n b with
  | nil => rfl
  | cons h hs ih =>
    have hreq : ((react n).requests.map Call.setNext).filterMap g = [] := by
      simp [List.filterMap_map, hset]
    simp only [callHandlers, List.filterMap_cons, List.filterMap_append, hreq, filterMap_warnings g hwarn, ih,
      List.nil_append]

/-- the requests made are those of the reactions -/
theorem requests_callHandlers (hkind : ∀ h, (kind h).request = none) :
    (callHandlers kind react n hs b).2.filterMap Call.request = reactions react n hs := by
  induction hs generalizing n b with
  | nil => rfl
  | cons h hs ih =>
    have hreq : ((react n).requests.map Call.setNext).filterMap Call.request = (react n).requests := by
      rw [List.filterMap_map]
      exact List.filterMap_some
    simp only [callHandlers, List.filterMap_cons, hkind, List.filterMap_append, hreq,
      filterMap_warnings Call.request (fun _ => rfl), ih, reactions, List.append_nil]

end callHandlers

/-! ## One run -/

/-- calls that include no move -/
structure NoMove (calls : List Call) : Prop where
  move : calls.filterMap Call.move = []

/-- the calls of all handlers of `hs` for a transition, with the requests they make -/
structure TransitCalls (hs : List Handler) (states : List State) (calls : List Call) : Prop extends NoMove calls where
  transitHandler : calls.filterMap Call.transitHandler = hs
  stateHandler : calls.filterMap Call.stateHandler = []
  request : calls.filterMap Call.request = states

/-- the calls of all handlers of `hs` for a state, with the requests they make -/
structure StateCalls (hs : List Handler) (states : List State) (calls : List Call) : Prop extends NoMove calls where
  transitHandler : calls.filterMap Call.transitHandler = []
  stateHandler : calls.filterMap Call.stateHandler = hs
  request : calls.filterMap Call.request = states

theorem transitCalls_callHandlers (react : ℕ → Reaction) (hs : List Handler) (b : FsmBlock) :
    TransitCalls hs (reactions react 0 hs) (callHandlers .handleTransit react 0 hs b).2 where
  move := by
    rw [handlers_callHandlers _ _ _ _ _ Call.move (fun _ => rfl) (fun _ => rfl)]
    exact List.filterMap_none hs
  transitHandler := by
    rw [handlers_callHandlers _ _ _ _ _ Call.transitHandler (fun _ => rfl) (fun _ => rfl)]
    exact List.filterMap_some
  stateHandler := by
    rw [handlers_callHandlers _ _ _ _ _ Call.stateHandler (fun _ => rfl) (fun _ => rfl)]
    exact List.filterMap_none hs
  request := requests_callHandlers _ _ _ _ _ fun _ => rfl

theorem stateCalls_callHandlers (react : ℕ → Reaction) (hs : List Handler) (b : FsmBlock) :
    StateCalls hs (reactions react 0 hs) (callHandlers .handleState react 0 hs b).2 where
  move := by
    rw [handlers_callHandlers _ _ _ _ _ Call.move (fun _ => rfl) (fun _ => rfl)]
    exact List.filterMap_none hs
  transitHandler := by
    rw [handlers_callHandlers _ _ _ _ _ Call.transitHandler (fun _ => rfl) (fun _ => rfl)]
    exact List.filterMap_none hs
  stateHandler := by
    rw [handlers_callHandlers _ _ _ _ _ Call.stateHandler (fun _ => rfl) (fun _ => rfl)]
    exact List.filterMap_some
  request := requests_callHandlers _ _ _ _ _ fun _ => rfl

theorem StateCalls.warnings_append {hs : List Handler} {states : List State} {calls : List Call}
    (h : StateCalls hs states calls) (code : StatusCode) : StateCalls hs states (warnings code ++ calls) where
  move := (filterMap_warnings_append _ (fun _ => rfl) code calls).trans h.move
  transitHandler := (filterMap_warnings_append _ (fun _ => rfl) code calls).trans h.transitHandler
  stateHandler := (filterMap_warnings_append _ (fun _ => rfl) code calls).trans h.stateHandler
  request := (filterMap_warnings_append _ (fun _ => rfl) code calls).trans h.request

/-- the state a pending transition moves to in this run: the last request when the handlers have been told -/
def target (st : FsmStore) (i : RunInput) : State :=
  lastRequest st.block.nextState (reactions i.onTransit 0 (st.handlers st.block.currState))

namespace FsmStore

theorem handleState_cases {st st' : FsmStore} {i : RunInput} {calls : List Call}
    (h : st.handleState i = some (st', calls)) :
    st'.handlers = st.handlers ∧ st'.isTransitBegin = st.isTransitBegin ∧
      ∃ states, st'.block = st.block.setNext (lastRequest st.block.nextState states) ∧
        StateCalls (st.handlers st.block.currState) states calls := by
  simp only [handleState] at h
  split_ifs at h with hne
  simp only [Option.some.injEq, Prod.mk.injEq] at h
  obtain ⟨rfl, rfl⟩ := h
  exact ⟨rfl, rfl, _, block_callHandlers _ _ _ _ _, stateCalls_callHandlers _ _ _⟩

theorem handleTransitEnd_cases {st st' : FsmStore} {i : RunInput} {s s' : Store} {calls : List Call}
    (h : st.handleTransitEnd i s = some (st', s', calls)) :
    st'.handlers = st.handlers ∧ st'.isTransitBegin = false ∧ st'.block.currState = target st i ∧
      st'.block.nextState = 0 ∧
      ∃ before code, calls = before ++ .transit st.block.currState (target st i) :: warnings code ∧
        TransitCalls (st.handlers st.block.currState)
          (reactions i.onTransit 0 (st.handlers st.block.currState)) before := by
  simp only [handleTransitEnd] at h
  split_ifs at h with hne
  set told := callHandlers .handleTransit i.onTransit 0 (st.handlers st.block.currState) st.block with htold
  have hblock : told.1 = st.block.setNext (target st i) := block_callHandlers _ _ _ _ _
  have hold : told.1.currState = st.block.currState := by
    rw [hblock]
    rfl
  have hnext : told.1.nextState = target st i := by
    rw [hblock]
    rfl
  obtain ⟨hcurr, hzero⟩ := told.1.transit_spec i.transitNow i.faults s
  rw [hnext] at hcurr
  simp only [Option.some.injEq, Prod.mk.injEq] at h
  obtain ⟨rfl, rfl, rfl⟩ := h
  refine ⟨rfl, rfl, hcurr, hzero, told.2, (told.1.transit i.transitNow i.faults s).1, ?_, transitCalls_callHandlers _ _ _⟩
  rw [hold, hcurr]

/-- what a run can do. It leaves the store ready to move iff the block is in transit by then. A store with no pending
transition calls the handlers of its state; one with a pending transition tells them first, moves, and calls the handlers
of the new state. -/
theorem run_cases {st st' : FsmStore} {i : RunInput} {s s' : Store} {calls : List Call}
    (h : st.run i s = some (st', s', calls)) :
    st'.handlers = st.handlers ∧ st'.isTransitBegin = st'.block.isInTransit ∧
    ((st.isTransitBegin = false ∧ st'.block.currState = st.block.currState ∧
        ∃ states, st'.block.nextState = lastRequest st.block.nextState states ∧
          StateCalls (st.handlers st.block.currState) states calls) ∨
      (st.isTransitBegin = true ∧ st'.block.currState = target st i ∧
        ∃ before after states, calls = before ++ .transit st.block.currState (target st i) :: after ∧
          st'.block.nextState = lastRequest 0 states ∧
          TransitCalls (st.handlers st.block.currState)
            (reactions i.onTransit 0 (st.handlers st.block.currState)) before ∧
          StateCalls (st.handlers (target st i)) states after)) := by
  unfold run at h
  obtain ⟨⟨st₁, s₁, ended⟩, hended, h⟩ := Option.bind_eq_some_iff.1 h
  obtain ⟨⟨st₂, called⟩, hstate, h⟩ := Option.bind_eq_some_iff.1 h
  obtain ⟨hhandlers, hflag, states, hblock, hcalls⟩ := handleState_cases hstate
  simp only [Option.some.injEq, Prod.mk.injEq] at h
  obtain ⟨hst', -, rfl⟩ := h
  -- the flag is down when the run decides whether to raise it
  have hlast (hdown : st₂.isTransitBegin = false) :
      st'.handlers = st₂.handlers ∧ st'.block = st₂.block ∧ st'.isTransitBegin = st'.block.isInTransit := by
    subst hst'
    split_ifs with hin
    · exact ⟨rfl, rfl, hin.symm⟩
    · exact ⟨rfl, rfl, hdown.trans (Bool.eq_false_iff.2 hin).symm⟩
  cases hbegin : st.isTransitBegin with
  | false =>
    simp only [hbegin, Bool.false_eq_true, if_false, Option.some.injEq, Prod.mk.injEq] at hended
    obtain ⟨rfl, rfl, rfl⟩ := hended
    obtain ⟨hh, hb, hin⟩ := hlast hflag
    refine ⟨hh.trans hhandlers, hin, Or.inl ⟨rfl, ?_, states, ?_, hcalls⟩⟩
    · rw [hb, hblock]
      rfl
    · rw [hb, hblock]
      rfl
  | true =>
    simp only [hbegin, if_true] at hended
    obtain ⟨hhandlers₁, hdown, hcurr, hzero, before, code, rfl, hbefore⟩ := handleTransitEnd_cases hended
    obtain ⟨hh, hb, hin⟩ := hlast (hflag.trans hdown)
    rw [hhandlers₁, hcurr] at hcalls
    refine ⟨hh.trans (hhandlers.trans hhandlers₁), hin, Or.inr ⟨rfl, ?_, before, warnings code ++ called, states, ?_, ?_,
      hbefore, hcalls.warnings_append code⟩⟩
    · rw [hb, hblock]
      exact hcurr
    · rw [List.append_assoc]
      rfl
    · rw [hb, hblock, hzero]
      rfl

/-- a run is impossible only where a state it is in has no handlers -/
theorem run_eq_none_iff (st : FsmStore) (i : RunInput) (s : Store) :
    st.run i s = none ↔
      st.handlers st.block.currState = [] ∨ (st.isTransitBegin = true ∧ st.handlers (target st i) = []) := by
  have hstate (st : FsmStore) : st.handleState i = none ↔ st.handlers st.block.currState = [] := by
    simp [handleState]
  set st₀ : FsmStore := { st with block := st.block.update i.now } with hst₀
  have hend : st₀.handleTransitEnd i s = none ↔ st.handlers st.block.currState = [] := by
    simp [handleTransitEnd, hst₀, FsmBlock.update]
  unfold run
  rw [← hst₀]
  cases hbegin : st.isTransitBegin with
  | false =>
    have hbegin₀ : st₀.isTransitBegin = false := hbegin
    have h₀ : st₀.handleState i = none ↔ st.handlers st.block.currState = [] := hstate st₀
    cases hcalls : st₀.handleState i with
    | none => simp [hbegin₀, ← h₀, hcalls]
    | some p => simp [hbegin₀, ← h₀, hcalls]
  | true =>
    have hbegin₀ : st₀.isTransitBegin = true := hbegin
    cases hended : st₀.handleTransitEnd i s with
    | none => simp [hbegin₀, ← hend, hended]
    | some p =>
      obtain ⟨st₁, s₁, ended⟩ := p
      obtain ⟨hhandlers, -, hcurr, -⟩ := handleTransitEnd_cases hended
      have h₁ : st₁.handleState i = none ↔ st.handlers (target st i) = [] := by
        rw [hstate st₁, hhandlers, hcurr]
        rfl
      cases hcalls : st₁.handleState i with
      | none => simp [hbegin₀, ← hend, hended, ← h₁, hcalls]
      | some p => simp [hbegin₀, ← hend, hended, ← h₁, hcalls]

end FsmStore

/-! ## The law -/

/-- the law of one run that finds the block in state `old` after the calls `trace`, makes `calls` and leaves the block in
state `new`: either no handler is told of a transition and the block stays, or all handlers of the old state are told,
then the block moves once, to the state requested last, which is a state and not the old one; and either way the
handlers of the state the block is in by then are all called, once and in order -/
def Lawful (handlers : State → List Handler) (trace calls : List Call) (old new : State) : Prop :=
  (new = old ∧ calls.filterMap Call.move = [] ∧ calls.filterMap Call.transitHandler = [] ∧
    calls.filterMap Call.stateHandler = handlers old) ∨
  ∃ before after, calls = before ++ .transit old new :: after ∧
    before.filterMap Call.move = [] ∧ after.filterMap Call.move = [] ∧
    before.filterMap Call.transitHandler = handlers old ∧ after.filterMap Call.transitHandler = [] ∧
    before.filterMap Call.stateHandler = [] ∧ after.filterMap Call.stateHandler = handlers new ∧
    ((trace ++ before).filterMap Call.request).getLast? = some new ∧ new ≠ 0 ∧ new ≠ old

/-- if a transition is pending, the last request when the old handlers have been told is a state and another one -/
def StillMoves (st : FsmStore) (i : RunInput) : Prop :=
  st.isTransitBegin = true → target st i ≠ 0 ∧ target st i ≠ st.block.currState

instance (st : FsmStore) (i : RunInput) : Decidable (StillMoves st i) := by
  unfold StillMoves; infer_instance

/-- a request that is or will be acted on is the last one made -/
def Requested (w : Fsm) : Prop :=
  w.fsm.isTransitBegin = true ∨ w.fsm.block.nextState ≠ 0 →
    (w.trace.filterMap Call.request).getLast? = some w.fsm.block.nextState

/-- more requests keep the last one in step with the trace -/
theorem getLast?_lastRequest {state : State} {as : List State} (h : state ≠ 0 → as.getLast? = some state)
    (bs : List State) (hne : lastRequest state bs ≠ 0) : (as ++ bs).getLast? = some (lastRequest state bs) := by
  cases bs with
  | nil =>
    rw [List.append_nil]
    exact h hne
  | cons b bs =>
    have hsplit : as ++ b :: bs = (as ++ [b]) ++ bs := by simp
    rw [hsplit]
    exact getLast?_append_lastRequest List.getLast?_concat bs

theorem fsmStep_requested (w : Fsm) (ev : FsmEvent) (w' : Fsm) (hw : Requested w) (h : fsmStep w ev = some w') :
    Requested w' := by
  cases ev with
  | setNext state =>
    simp only [fsmStep, Option.some.injEq] at h
    subst h
    intro _
    rw [List.filterMap_append]
    exact List.getLast?_concat
  | run i =>
    obtain ⟨⟨st', s', calls⟩, hrun, h⟩ := Option.bind_eq_some_iff.1 h
    simp only [Option.some.injEq] at h
    subst h
    obtain ⟨-, hflag, hcases⟩ := FsmStore.run_cases hrun
    -- a raised flag means a request, so only the requested state matters
    have hreq : st'.block.nextState ≠ 0 →
        ((w.trace ++ calls).filterMap Call.request).getLast? = some st'.block.nextState := by
      intro hne
      rcases hcases with ⟨-, -, states, hnext, hcalls⟩ | ⟨-, -, before, after, states, rfl, hnext, hbefore, hafter⟩
      · rw [List.filterMap_append, hcalls.request, hnext]
        rw [hnext] at hne
        exact getLast?_lastRequest (fun h => hw (Or.inr h)) states hne
      · rw [hnext] at hne ⊢
        have hsplit : (w.trace ++ (before ++ .transit w.fsm.block.currState (target w.fsm i) :: after)).filterMap
            Call.request = (w.trace ++ before).filterMap Call.request ++ states := by
          rw [← List.append_assoc, List.filterMap_append, List.filterMap_cons, hafter.request]
          rfl
        rw [hsplit]
        exact getLast?_lastRequest (fun h => absurd rfl h) states hne
    intro hor
    apply hreq
    rcases hor with hup | hne
    · rw [hflag, FsmBlock.isInTransit_iff] at hup
      exact hup.1
    · exact hne

/-- a run keeps the law iff its pending transition, if any, still moves -/
theorem run_lawful_iff {w : Fsm} (hw : Requested w) {i : RunInput} {st' : FsmStore} {s' : Store} {calls : List Call}
    (h : w.fsm.run i w.store = some (st', s', calls)) :
    Lawful w.fsm.handlers w.trace calls w.fsm.block.currState st'.block.currState ↔ StillMoves w.fsm i := by
  obtain ⟨-, -, hcases⟩ := FsmStore.run_cases h
  rcases hcases with ⟨hbegin, hstay, states, -, hcalls⟩ | ⟨hbegin, hmove, before, after, states, rfl, -, hbefore, hafter⟩
  · refine ⟨?_, ?_⟩
    · intro _ hup
      rw [hbegin] at hup
      cases hup
    · intro _
      exact Or.inl ⟨hstay, hcalls.move, hcalls.transitHandler, hcalls.stateHandler⟩
  · rw [hmove]
    refine ⟨?_, ?_⟩
    · rintro (⟨-, hnone, -⟩ | ⟨-, -, -, -, -, -, -, -, -, -, hne⟩)
      · simp [Call.move] at hnone
      · exact fun _ => hne
    · intro hok
      refine Or.inr ⟨before, after, rfl, hbefore.move, hafter.move, hbefore.transitHandler, hafter.transitHandler,
        hbefore.stateHandler, hafter.stateHandler, ?_, hok hbegin⟩
      rw [List.filterMap_append, hbefore.request]
      exact getLast?_append_lastRequest (hw (Or.inl hbegin)) _

/-! ## Main results -/

/-- a store with registered handlers over a new block -/
def Fsm.start (resolution : Resolution) (f : Faults) (s : Store) (registered : List (State × Handler)) : Fsm where
  fsm := registered.foldl (fun st r => st.add r.1 r.2) (.init (.init resolution f s))
  store := s
  trace := []

theorem start_requested (resolution : Resolution) (f : Faults) (s : Store) (registered : List (State × Handler)) :
    Requested (.start resolution f s registered) := by
  have hadds (st : FsmStore) : (registered.foldl (fun st r => st.add r.1 r.2) st).isTransitBegin = st.isTransitBegin ∧
      (registered.foldl (fun st r => st.add r.1 r.2) st).block = st.block := by
    induction registered generalizing st with
    | nil => exact ⟨rfl, rfl⟩
    | cons r registered ih => exact ih (st.add r.1 r.2)
  obtain ⟨hflag, hblock⟩ := hadds (.init (.init resolution f s))
  intro hor
  exfalso
  rcases hor with hup | hne
  · rw [Fsm.start, hflag] at hup
    cases hup
  · rw [Fsm.start, hblock] at hne
    exact hne rfl

/-- **The run law.** Take any registered handlers, any storage and any history. A request does not change the current
state. A next run is possible unless a state it is in has no handlers, and it keeps the law of the store iff a pending
transition still leads to another state when the old handlers have been told. -/
theorem run_lawful (resolution : Resolution) (f : Faults) (s : Store) (registered : List (State × Handler))
    (evs : List FsmEvent) (w : Fsm) (hw : exec fsmStep (.start resolution f s registered) evs = some w) :
    (∀ state w', fsmStep w (.setNext state) = some w' → w'.fsm.block.currState = w.fsm.block.currState) ∧
    ∀ i, (w.fsm.run i w.store = none ↔ w.fsm.handlers w.fsm.block.currState = [] ∨
        (w.fsm.isTransitBegin = true ∧ w.fsm.handlers (target w.fsm i) = [])) ∧
      ∀ st' s' calls, w.fsm.run i w.store = some (st', s', calls) →
        (Lawful w.fsm.handlers w.trace calls w.fsm.block.currState st'.block.currState ↔ StillMoves w.fsm i) := by
  have hreq : Requested w := exec_inv fsmStep_requested (start_requested resolution f s registered) evs hw
  refine ⟨?_, fun i => ⟨w.fsm.run_eq_none_iff i w.store, fun st' s' calls h => run_lawful_iff hreq h⟩⟩
  intro state w' h
  simp only [fsmStep, Option.some.injEq] at h
  subst h
  rfl

def exampleResolution : Resolution := ⟨1000000, second_ne_zero⟩

/-- handlers that request nothing, and one handler failing -/
def quietRun : RunInput := ⟨0, 0, .none, fun _ => ⟨[], .error⟩, fun _ => ⟨[], .ok⟩⟩

/-- handlers 10 and 11 for no state, 20 for state 1, 30 for state 2 -/
def exampleHandlers : List (State × Handler) := [(0, 10), (0, 11), (1, 20), (2, 30)]

def Fsm.example : Fsm := .start exampleResolution .none ∅ exampleHandlers

/-- the second of two runs after a request performs the transition to state 1 and keeps the law -/
theorem run_lawful_example :
    ∃ w st' s' calls, exec fsmStep .example [.setNext 1, .run quietRun] = some w ∧
      w.fsm.run quietRun w.store = some (st', s', calls) ∧
      calls = [.handleTransit 10, .warn .error, .handleTransit 11, .warn .error, .transit 0 1, .handleState 20] ∧
      Lawful w.fsm.handlers w.trace calls w.fsm.block.currState st'.block.currState := by
  obtain ⟨w, hw⟩ : ∃ w, exec fsmStep .example [.setNext 1, .run quietRun] = some w := ⟨_, rfl⟩
  have hlaw := (run_lawful exampleResolution .none ∅ exampleHandlers [.setNext 1, .run quietRun] w hw).2 quietRun
  cases hw
  refine ⟨_, _, _, _, rfl, rfl, rfl, (hlaw.2 _ _ _ rfl).2 ?_⟩
  exact fun _ => by decide

/-- every possible run of every history keeps the law, and no request changes the current state -/
def RunLaw : Prop :=
  ∀ (resolution : Resolution) (f : Faults) (s : Store) (registered : List (State × Handler)) (evs : List FsmEvent)
    (w : Fsm), exec fsmStep (.start resolution f s registered) evs = some w →
    (∀ state w', fsmStep w (.setNext state) = some w' → w'.fsm.block.currState = w.fsm.block.currState) ∧
    ∀ i st' s' calls, w.fsm.run i w.store = some (st', s', calls) →
      Lawful w.fsm.handlers w.trace calls w.fsm.block.currState st'.block.currState

/-- state 1 is reached, state 2 is requested, the transition begins, and the request is taken back -/
def cancelledTransition : List FsmEvent :=
  [.setNext 1, .run quietRun, .run quietRun, .setNext 2, .run quietRun, .setNext 0]

/-- **A cancelled transition moves to no state.** The run after the request was taken back still tells the handler of
state 1 and moves the block to state 0. -/
theorem run_moves_to_none : ¬ RunLaw ∧
    ∃ w st' s', exec fsmStep .example cancelledTransition = some w ∧ w.fsm.block.currState = 1 ∧
      w.fsm.run quietRun w.store = some (st', s', [.handleTransit 20, .warn .error, .transit 1 0, .handleState 10,
        .handleState 11]) ∧ st'.block.currState = 0 := by
  obtain ⟨w, hw⟩ : ∃ w, exec fsmStep .example cancelledTransition = some w := ⟨_, rfl⟩
  refine ⟨fun h => ?_, w, ?_⟩
  · have hlaw := (h exampleResolution .none ∅ exampleHandlers cancelledTransition w hw).2 quietRun
    cases hw
    rcases hlaw _ _ _ rfl with ⟨-, hnone, -⟩ | ⟨-, -, -, -, -, -, -, -, -, -, hne, -⟩
    · cases hnone
    · exact hne rfl
  · cases hw
    exact ⟨_, _, rfl, rfl, rfl, rfl⟩

end ControlComponents.Control
