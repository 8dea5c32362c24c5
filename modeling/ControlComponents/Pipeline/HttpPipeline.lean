/-
`HttpPipeline` (`ocs_pipeline/httpserver`): the HTTP server is started when the network comes up and stopped when it goes
down, as the network tells its handlers.

The ESP-IDF server may refuse to start. One that has started keeps its endpoints; registering one is refused if an earlier
pattern matches it, if there is no room or if it cannot be allocated, and stopping a server may fail: the assertions on both
abort. An address may be told again without a disconnection before: then a server is started while one is running, and the
handle of the first one is lost.

- `registerUris_isSome_iff`: which routes can be registered.
- `exec_eq_none_iff`: which runs abort.
- `server_law`: what runs after any run of network events, what is lost, and that what a server dispatches has a handler.
-/
import ControlComponents.Lib.Histories
import ControlComponents.Net.StaNetwork
import ControlComponents.Pipeline.WebGuiDispatch

namespace ControlComponents.Http

open ControlComponents.Algo ControlComponents.Lib

/-! ## Server -/

/-- a running ESP-IDF server with the patterns of its endpoints -/
structure Instance where
  id : ℕ
  uris : List CString
deriving DecidableEq

/-- what the ESP-IDF server answers while one event is handled -/
structure HttpdAnswers where
  /-- `httpd_start` -/
  started : Bool
  /-- whether `httpd_register_uri_handler` can allocate an endpoint, by the number of those before it -/
  allocated : ℕ → Bool
  /-- `httpd_stop` -/
  stopped : Bool

/-- `Server`, with the ESP-IDF servers that run -/
structure ServerState (η : Type) where
  router : Router η
  maxUriHandlers : ℕ
  handle : Option ℕ
  running : List Instance
  /-- the number of the next ESP-IDF server -/
  next : ℕ

namespace ServerState

variable {η : Type}

/-- the constructor -/
def new (router : Router η) (maxUriHandlers : ℕ) : ServerState η := ⟨router, maxUriHandlers, none, [], 0⟩

def patterns (s : ServerState η) : List CString := s.router.map Prod.fst

end ServerState

/-- `httpd_register_uri_handler` for each pattern; `none` where one is refused and `ESP_ERROR_CHECK` aborts -/
def registerUris (matcher : Matcher) (maxUriHandlers : ℕ) (allocated : ℕ → Bool) :
    List CString → List CString → Option (List CString)
  | uris, [] => some uris
  | uris, pattern :: patterns =>
    if uris.any (fun uri => matcher uri pattern.text) ∨ maxUriHandlers ≤ uris.length ∨ allocated uris.length = false then
      none
    else registerUris matcher maxUriHandlers allocated (uris ++ [pattern]) patterns

namespace ServerState

variable {η : Type}

/-- `Server::start` -/
def start (matcher : Matcher) (answers : HttpdAnswers) (s : ServerState η) : Option (StatusCode × ServerState η) :=
  if answers.started then
    (registerUris matcher s.maxUriHandlers answers.allocated [] s.patterns).map fun uris =>
      (.ok, { s with handle := some s.next, running := s.running ++ [⟨s.next, uris⟩], next := s.next + 1 })
  else some (.error, s)

/-- `Server::stop`; `none` where `ESP_ERROR_CHECK` aborts -/
def stop (answers : HttpdAnswers) (s : ServerState η) : Option (StatusCode × ServerState η) :=
  match s.handle with
  | some h =>
    if answers.stopped then some (.ok, { s with handle := none, running := s.running.filter fun i => i.id ≠ h }) else none
  | none => some (.ok, s)

end ServerState

end ControlComponents.Http

namespace ControlComponents.Pipeline

open ControlComponents.Algo ControlComponents.Http ControlComponents.Lib ControlComponents.Lib.Runs
open ControlComponents.Net ControlComponents.Net.StaNetwork

namespace HttpPipeline

variable {η : Type}

/-- the status is logged only -/
def handleConnect (matcher : Matcher) (answers : HttpdAnswers) (s : ServerState η) : Option (ServerState η) :=
  (s.start matcher answers).map Prod.snd

def handleDisconnect (answers : HttpdAnswers) (s : ServerState η) : Option (ServerState η) := (s.stop answers).map Prod.snd

/-- what the pipeline does when the network tells its handlers of something -/
def notify (matcher : Matcher) (answers : HttpdAnswers) (s : ServerState η) : Entry → Option (ServerState η)
  | .handleConnect => handleConnect matcher answers s
  | .handleDisconnect => handleDisconnect answers s
  | _ => some s

structure State (η : Type) where
  network : World
  server : ServerState η

/-- an event of the network, with the answers of the ESP-IDF server to what the pipeline asks of it -/
abbrev NetworkEvent := StaNetwork.Event × HttpdAnswers

def step (matcher : Matcher) (s : State η) (e : NetworkEvent) : Option (State η) :=
  let network := StaNetwork.step s.network e.1
  ((network.log.drop s.network.log.length).foldlM (notify matcher e.2) s.server).map fun server => ⟨network, server⟩

def State.start (config : {c : StaSettings // StaNetworkConfig.valid c = true}) (router : Router η) (maxUriHandlers : ℕ) :
    State η := ⟨.start config, .new router maxUriHandlers⟩

/-! ## Endpoints -/

/-- there is room for all patterns, and none of them is matched by one before it -/
def Suitable (matcher : Matcher) (maxUriHandlers : ℕ) (patterns : List CString) : Prop :=
  patterns.length ≤ maxUriHandlers ∧ patterns.Pairwise fun p q => matcher p q.text = false

theorem registerUris_some {matcher : Matcher} {maxUriHandlers : ℕ} {allocated : ℕ → Bool}
    {patterns uris uris' : List CString} (h : registerUris matcher maxUriHandlers allocated uris patterns = some uris') :
    uris' = uris ++ patterns := by
  induction patterns generalizing uris with
  | nil => exact (Option.some.inj h).symm.trans (List.append_nil uris).symm
  | cons p patterns ih =>
    unfold registerUris at h
    split_ifs at h
    rw [ih h, List.append_assoc, List.singleton_append]

theorem registerUris_isSome_iff (matcher : Matcher) (maxUriHandlers : ℕ) (allocated : ℕ → Bool)
    (patterns uris : List CString) (hroom : uris.length ≤ maxUriHandlers) :
    (registerUris matcher maxUriHandlers allocated uris patterns).isSome = true ↔
      (uris.length + patterns.length ≤ maxUriHandlers ∧ (∀ u ∈ uris, ∀ p ∈ patterns, matcher u p.text = false) ∧
        patterns.Pairwise fun p q => matcher p q.text = false) ∧
      ∀ k < patterns.length, allocated (uris.length + k) = true := by
  induction patterns generalizing uris with
  | nil => simpa [registerUris] using hroom
  | cons p patterns ih =>
    have halloc : (∀ k < (p :: patterns).length, allocated (uris.length + k) = true) ↔
        allocated uris.length = true ∧ ∀ k < patterns.length, allocated ((uris ++ [p]).length + k) = true := by
      have hshift : ∀ k, (uris ++ [p]).length + k = uris.length + (k + 1) := by
        intro k
        rw [List.length_append, List.length_singleton, Nat.add_assoc, Nat.add_comm 1 k]
      rw [List.length_cons, Nat.forall_lt_succ_left', Nat.add_zero]
      simp only [hshift]
    rw [halloc]
    unfold registerUris
    by_cases hrefused : uris.any (fun uri => matcher uri p.text) ∨ maxUriHandlers ≤ uris.length ∨
        allocated uris.length = false
    · rw [if_pos hrefused]
      refine iff_of_false (by simp) ?_
      rintro ⟨⟨hlen, hmatch, -⟩, hfirst, -⟩
      rcases hrefused with hany | hfull | hnone
      · obtain ⟨u, hu, hup⟩ := List.any_eq_true.1 hany
        rw [hmatch u hu p List.mem_cons_self] at hup
        cases hup
      · rw [List.length_cons] at hlen
        omega
      · rw [hfirst] at hnone
        cases hnone
    · rw [if_neg hrefused]
      rw [not_or, not_or, Nat.not_le, Bool.not_eq_true, List.any_eq_false, Bool.not_eq_false] at hrefused
      obtain ⟨hfree, hlt, hfirst⟩ := hrefused
      rw [ih (uris ++ [p]) (by simpa using hlt), and_iff_right hfirst]
      refine and_congr_left' ?_
      simp only [List.length_append, List.length_cons, List.length_nil, List.mem_append, List.mem_cons,
        List.not_mem_nil, or_false, List.pairwise_cons]
      constructor
      · rintro ⟨hlen, hmatch, hpairwise⟩
        refine ⟨by omega, ?_, ?_, hpairwise⟩
        · rintro u hu q (rfl | hq)
          · simpa using hfree u hu
          · exact hmatch u (.inl hu) q hq
        · exact fun q hq => hmatch p (.inr rfl) q hq
      · rintro ⟨hlen, hmatch, hfirst, hpairwise⟩
        refine ⟨by omega, ?_, hpairwise⟩
        rintro u (hu | rfl) q hq
        · exact hmatch u hu q (.inr hq)
        · exact hfirst q hq

/-- all endpoints of a router can be registered iff they are suitable and can be allocated -/
theorem registerUris_eq_none_iff (matcher : Matcher) (maxUriHandlers : ℕ) (allocated : ℕ → Bool) (patterns : List CString) :
    registerUris matcher maxUriHandlers allocated [] patterns = none ↔
      ¬ (Suitable matcher maxUriHandlers patterns ∧ ∀ k < patterns.length, allocated k = true) := by
  have hiff := registerUris_isSome_iff matcher maxUriHandlers allocated patterns [] (Nat.zero_le _)
  simp only [List.length_nil, Nat.zero_add, List.not_mem_nil, false_imp_iff, implies_true, true_and] at hiff
  rw [← Option.not_isSome_iff_eq_none, hiff]
  rfl

/-! ## One event -/

/-- an address with which a server starts -/
def starts : NetworkEvent → Bool
  | (.gotIp, answers) => answers.started
  | _ => false

def stops (e : NetworkEvent) : Bool := IsDisconnected e.1

/-- what an event does: an address starts a server, a lost connection stops the one of the handle -/
theorem step_eq (matcher : Matcher) (s : State η) (e : NetworkEvent) :
    step matcher s e =
      match e.1 with
      | .gotIp => (handleConnect matcher e.2 s.server).map fun server => ⟨StaNetwork.step s.network e.1, server⟩
      | .staDisconnected _ => (handleDisconnect e.2 s.server).map fun server => ⟨StaNetwork.step s.network e.1, server⟩
      | _ => some ⟨StaNetwork.step s.network e.1, s.server⟩ := by
  obtain ⟨event, answers⟩ := e
  unfold step
  cases event with
  | gotIp =>
    have hlog : (StaNetwork.step s.network .gotIp).log = s.network.log ++ [.gotIp, .handleConnect] := rfl
    simp only [hlog, List.drop_left]
    simp [notify]
  | staDisconnected accepted =>
    rcases Nat.lt_or_ge s.network.network.retryCount s.network.network.maxRetryCount with hretry | hfail
    · have hlog := (disconnected_retry s.network accepted hretry).2.2.2
      simp only [hlog, List.drop_left]
      simp [notify]
    · have hlog := (disconnected_fail s.network accepted hfail).2.2.2
      simp only [hlog, List.drop_left]
      simp [notify]
  | staStart accepted =>
    have hlog : (StaNetwork.step s.network (.staStart accepted)).log = s.network.log ++ [.start accepted] := rfl
    simp only [hlog, List.drop_left]
    simp [notify]
  | other =>
    have hlog : (StaNetwork.step s.network .other).log = s.network.log := rfl
    simp [hlog]

/-- what holds of the servers in every state -/
structure Inv (s : State η) : Prop where
  /-- the server of the handle runs, and only while the network is connected -/
  connected : ∀ h, s.server.handle = some h → s.network.network.connected = true ∧ ∃ i ∈ s.server.running, i.id = h
  nodup : (s.server.running.map Instance.id).Nodup
  new : ∀ i ∈ s.server.running, i.id < s.server.next
  uris : ∀ i ∈ s.server.running, i.uris = s.server.patterns

theorem start_inv (config : {c : StaSettings // StaNetworkConfig.valid c = true}) (router : Router η)
    (maxUriHandlers : ℕ) : Inv (.start config router maxUriHandlers) := by
  refine ⟨(fun h hh => by cases hh), List.nodup_nil, ?_, ?_⟩ <;> exact fun i hi => by cases hi

/-- a server that starts is the one of the handle -/
theorem Inv.started {s : State η} (hs : Inv s) {network : World} (hon : network.network.connected = true)
    {uris : List CString} (huris : uris = s.server.patterns) :
    Inv ⟨network, { s.server with
      handle := some s.server.next
      running := s.server.running ++ [⟨s.server.next, uris⟩]
      next := s.server.next + 1 }⟩ where
  connected := by
    intro h hh
    exact ⟨hon, _, List.mem_append_right _ (List.mem_singleton_self _), Option.some.inj hh⟩
  nodup := by
    rw [List.map_append, List.nodup_append]
    refine ⟨hs.nodup, List.nodup_singleton _, ?_⟩
    rintro a ha b hb rfl
    obtain ⟨i, hi, rfl⟩ := List.mem_map.1 ha
    have hlt := hs.new i hi
    rw [List.map_singleton, List.mem_singleton] at hb
    exact absurd hb hlt.ne
  new := by
    intro i hi
    rcases List.mem_append.1 hi with hi | hi
    · exact Nat.lt_succ_of_lt (hs.new i hi)
    · rw [List.mem_singleton.1 hi]
      exact Nat.lt_succ_self _
  uris := by
    intro i hi
    rcases List.mem_append.1 hi with hi | hi
    · exact hs.uris i hi
    · rw [List.mem_singleton.1 hi]
      exact huris

theorem Inv.stopped {s : State η} (hs : Inv s) (network : World) (h : ℕ) :
    Inv ⟨network, { s.server with handle := none, running := s.server.running.filter fun i => i.id ≠ h }⟩ where
  connected := by
    intro h hh
    cases hh
  nodup := hs.nodup.sublist (List.filter_sublist.map _)
  new i hi := hs.new i (List.mem_of_mem_filter hi)
  uris i hi := hs.uris i (List.mem_of_mem_filter hi)

/-- what one event does to the servers -/
structure Change (s s' : State η) (e : NetworkEvent) : Prop where
  inv : Inv s'
  /-- the router and the room for its endpoints stay -/
  same : s'.server.patterns = s.server.patterns ∧ s'.server.maxUriHandlers = s.server.maxUriHandlers
  handle : s'.server.handle.isSome = Histories.mark starts stops s.server.handle.isSome e
  running : s'.server.running.length + (if s.server.handle.isSome then 1 else 0) = s.server.running.length +
    (if s.server.handle.isSome ∧ starts e then 1 else 0) + (if s'.server.handle.isSome then 1 else 0)

/-- the server of the handle is stopped, the others run on -/
theorem length_filter_handle {running : List Instance} (hnodup : (running.map Instance.id).Nodup) {h : ℕ}
    (hmem : ∃ i ∈ running, i.id = h) : (running.filter fun i => i.id ≠ h).length + 1 = running.length := by
  obtain ⟨i, hi, rfl⟩ := hmem
  obtain ⟨before, after, rfl⟩ := List.append_of_mem hi
  rw [List.map_append, List.map_cons, List.nodup_append, List.nodup_cons] at hnodup
  obtain ⟨-, ⟨hafter, -⟩, hbefore⟩ := hnodup
  have hkeep : ∀ j ∈ before ++ after, decide (j.id ≠ i.id) = true := by
    intro j hj
    refine decide_eq_true fun hid => ?_
    rcases List.mem_append.1 hj with hj | hj
    · exact hbefore j.id (List.mem_map_of_mem hj) i.id List.mem_cons_self hid
    · exact hafter (hid ▸ List.mem_map_of_mem hj)
  rw [List.filter_append, List.filter_cons_of_neg (by simp), ← List.filter_append, List.filter_eq_self.2 hkeep]
  simp only [List.length_append, List.length_cons]
  omega

theorem step_change {matcher : Matcher} {s s' : State η} {e : NetworkEvent} (hs : Inv s)
    (h : step matcher s e = some s') : Change s s' e := by
  rw [step_eq] at h
  obtain ⟨event, answers⟩ := e
  have ⟨hconnected, hnodup, hnew, huris⟩ := hs
  cases event with
  | gotIp =>
    obtain ⟨hon, -⟩ := gotIp_connected s.network
    cases hstarted : answers.started with
    | false =>
      simp only [handleConnect, ServerState.start, hstarted, Bool.false_eq_true, if_false, Option.map_some] at h
      obtain rfl : ⟨StaNetwork.step s.network .gotIp, s.server⟩ = s' := Option.some.inj h
      have hstarts : starts (.gotIp, answers) = false := hstarted
      refine ⟨⟨fun h hh => ⟨hon, (hconnected h hh).2⟩, hnodup, hnew, huris⟩, ⟨rfl, rfl⟩, ?_, ?_⟩
      · simp [Histories.mark, hstarts, stops, IsDisconnected]
      · simp [hstarts]
    | true =>
      have hstarts : starts (.gotIp, answers) = true := hstarted
      simp only [handleConnect, ServerState.start, hstarted, if_true, Option.map_map, Option.map_eq_some_iff] at h
      obtain ⟨uris, hregistered, hs'⟩ := h
      obtain rfl : ⟨StaNetwork.step s.network .gotIp, { s.server with
        handle := some s.server.next
        running := s.server.running ++ [⟨s.server.next, uris⟩]
        next := s.server.next + 1 }⟩ = s' := hs'
      have huris' : uris = s.server.patterns := (registerUris_some hregistered).trans (List.nil_append _)
      refine ⟨hs.started hon huris', ⟨rfl, rfl⟩, ?_, ?_⟩
      · simp [Histories.mark, hstarts]
      · simp [hstarts]
        omega
  | staDisconnected accepted =>
    cases hhandle : s.server.handle with
    | none =>
      simp only [handleDisconnect, ServerState.stop, hhandle, Option.map_some] at h
      obtain rfl : ⟨StaNetwork.step s.network (.staDisconnected accepted), s.server⟩ = s' := Option.some.inj h
      refine ⟨⟨fun h hh => ?_, hnodup, hnew, huris⟩, ⟨rfl, rfl⟩, ?_, ?_⟩
      · rw [hhandle] at hh
        cases hh
      · rw [hhandle]
        rfl
      · simp [hhandle]
    | some id =>
      simp only [handleDisconnect, ServerState.stop, hhandle, Option.map_map, Option.map_eq_some_iff] at h
      obtain ⟨r, hstop, h⟩ := h
      split_ifs at hstop
      obtain rfl := Option.some.inj hstop
      subst h
      refine ⟨hs.stopped _ id, ⟨rfl, rfl⟩, ?_, ?_⟩
      · rw [hhandle]
        rfl
      · have hlength := length_filter_handle hnodup (hconnected id hhandle).2
        simpa [hhandle, starts] using hlength
  | staStart accepted =>
    obtain rfl : ⟨StaNetwork.step s.network (.staStart accepted), s.server⟩ = s' := Option.some.inj h
    exact ⟨⟨hconnected, hnodup, hnew, huris⟩, ⟨rfl, rfl⟩, rfl, by simp [starts]⟩
  | other =>
    obtain rfl : ⟨StaNetwork.step s.network .other, s.server⟩ = s' := Option.some.inj h
    exact ⟨⟨hconnected, hnodup, hnew, huris⟩, ⟨rfl, rfl⟩, rfl, by simp [starts]⟩

/-! ## Runs -/

/-- the servers that have been lost: those that have been started while another one was running -/
def lost : Bool → List NetworkEvent → ℕ
  | _, [] => 0
  | running, e :: es => (if running ∧ starts e then 1 else 0) + lost (Histories.mark starts stops running e) es

theorem exec_lost {matcher : Matcher} (es : List NetworkEvent) {s s' : State η} (hs : Inv s)
    (h : exec (step matcher) s es = some s') :
    Inv s' ∧ s'.server.patterns = s.server.patterns ∧
      s'.server.handle.isSome = es.foldl (Histories.mark starts stops) s.server.handle.isSome ∧
      s'.server.running.length + (if s.server.handle.isSome then 1 else 0) = s.server.running.length +
        lost s.server.handle.isSome es + (if s'.server.handle.isSome then 1 else 0) := by
  induction es generalizing s with
  | nil =>
    obtain rfl : s = s' := Option.some.inj h
    exact ⟨hs, rfl, rfl, by simp [lost]⟩
  | cons e es ih =>
    obtain ⟨s₁, hs₁, h⟩ := Option.bind_eq_some_iff.1 h
    have hchange := step_change hs hs₁
    obtain ⟨hinv, hpatterns, hhandle, hrunning⟩ := ih hchange.inv h
    rw [hchange.handle] at hhandle hrunning
    refine ⟨hinv, hpatterns.trans hchange.same.1, hhandle, ?_⟩
    have hone := hchange.running
    rw [hchange.handle] at hone
    simp only [lost]
    omega

/-- an event that does not abort, depending on whether there is a server: all endpoints of a server that starts can be
registered, and a server that is stopped does stop -/
def Survives (matcher : Matcher) (maxUriHandlers : ℕ) (patterns : List CString) (running : Bool) (e : NetworkEvent) : Prop :=
  (starts e = true → Suitable matcher maxUriHandlers patterns ∧ ∀ k < patterns.length, e.2.allocated k = true) ∧
    (running = true → stops e = true → e.2.stopped = true)

theorem step_eq_none_iff (matcher : Matcher) (s : State η) (e : NetworkEvent) :
    step matcher s e = none ↔
      ¬ Survives matcher s.server.maxUriHandlers s.server.patterns s.server.handle.isSome e := by
  rw [step_eq]
  obtain ⟨event, answers⟩ := e
  cases event with
  | gotIp =>
    cases hstarted : answers.started with
    | false => simp [handleConnect, ServerState.start, Survives, starts, stops, IsDisconnected, hstarted]
    | true =>
      simp [handleConnect, ServerState.start, Survives, starts, stops, IsDisconnected, hstarted, registerUris_eq_none_iff]
  | staDisconnected accepted =>
    rcases hhandle : s.server.handle with - | id
    · simp [handleDisconnect, ServerState.stop, Survives, starts, hhandle]
    · simp [handleDisconnect, ServerState.stop, Survives, starts, stops, IsDisconnected, hhandle]
  | _ => simp [Survives, starts, stops, IsDisconnected]

/-- a run goes through iff every event survives, with a server if one has started since the connection was lost last -/
theorem exec_eq_none_iff {matcher : Matcher} (es : List NetworkEvent) {s : State η} (hs : Inv s) :
    exec (step matcher) s es = none ↔
      ¬ Histories.Obeys (fun before e => Survives matcher s.server.maxUriHandlers s.server.patterns
        (before.foldl (Histories.mark starts stops) s.server.handle.isSome) e) es := by
  induction es generalizing s with
  | nil => exact iff_of_false nofun (not_not.2 (Histories.obeys_nil _))
  | cons e es ih =>
    rw [← List.singleton_append, Histories.obeys_append, Histories.obeys_singleton, List.singleton_append]
    have hnone := step_eq_none_iff matcher s e
    cases hstep : step matcher s e with
    | none =>
      refine iff_of_true ?_ fun h => hnone.1 hstep h.1
      simp only [exec, hstep, Option.bind_none]
    | some s₁ =>
      have hsurvives : Survives matcher s.server.maxUriHandlers s.server.patterns s.server.handle.isSome e := by
        by_contra hdies
        rw [hnone.2 hdies] at hstep
        cases hstep
      have hchange := step_change hs hstep
      have hrest := ih hchange.inv
      rw [hchange.same.1, hchange.same.2, hchange.handle] at hrest
      simp only [exec, hstep, Option.bind_some, hrest]
      exact not_congr ⟨fun h => ⟨hsurvives, h⟩, And.right⟩

/-- **The server of a network.** In every run of the network, whatever the ESP-IDF server answers: the device aborts iff a
server starts whose endpoints cannot all be registered, or the server is stopped and `httpd_stop` fails. Otherwise the
pipeline has a server exactly when one has started since the connection was lost last, and then the network is connected;
one more runs for each that has been started while another one was running. Every server that runs has all endpoints, so a
path that it dispatches has a handler. -/
theorem server_law (matcher : Matcher) (config : {c : StaSettings // StaNetworkConfig.valid c = true})
    (router : Router η) (maxUriHandlers : ℕ) (es : List NetworkEvent) :
    (exec (step matcher) (.start config router maxUriHandlers) es = none ↔
      ¬ Histories.Obeys (fun before e => Survives matcher maxUriHandlers (router.map Prod.fst)
        (Histories.since starts stops before) e) es) ∧
    ∀ s, exec (step matcher) (.start config router maxUriHandlers) es = some s →
      s.server.handle.isSome = Histories.since starts stops es ∧
      (∀ h, s.server.handle = some h → s.network.network.connected = true ∧ ∃ i ∈ s.server.running, i.id = h) ∧
      s.server.running.length = lost false es + (if s.server.handle.isSome then 1 else 0) ∧
      ∀ i ∈ s.server.running, ∀ uri : Uri, i.uris.any (fun p => matcher p (uri.content (parsePath uri))) = true →
        (Server.route router matcher uri).isSome = true := by
  have hstart := start_inv config router maxUriHandlers
  refine ⟨exec_eq_none_iff es hstart, fun s hs => ?_⟩
  obtain ⟨hinv, hpatterns, hhandle, hrunning⟩ := exec_lost es hstart hs
  refine ⟨hhandle, hinv.connected, ?_, fun i hi uri hany => ?_⟩
  · simpa [State.start, ServerState.new] using hrunning
  · rw [hinv.uris i hi, hpatterns] at hany
    obtain ⟨p, hp, hmatch⟩ := List.any_eq_true.1 hany
    obtain ⟨endpoint, hendpoint, rfl⟩ := List.mem_map.1 hp
    simp only [Server.route, Router.matchPath, Option.isSome_map, List.find?_isSome]
    exact ⟨endpoint, hendpoint, hmatch⟩

/-- nothing fails -/
def HttpdAnswers.good : HttpdAnswers := ⟨true, fun _ => true, true⟩

/-- an address that is told twice, and a connection that is lost -/
def exampleEvents : List NetworkEvent :=
  [(.gotIp, HttpdAnswers.good), (.gotIp, HttpdAnswers.good), (.staDisconnected true, HttpdAnswers.good)]

/-- one of the two servers runs on; the next one cannot be stopped -/
theorem server_law_example :
    (exec (step WebGuiPipeline.starMatcher) (.start exampleConfig WebGuiPipeline.exampleRouter 8) exampleEvents).map
        (fun s => (s.server.handle.isSome, s.server.running.length)) = some (false, 1) ∧
      exec (step WebGuiPipeline.starMatcher) (.start exampleConfig WebGuiPipeline.exampleRouter 8)
        (exampleEvents ++ [(.gotIp, HttpdAnswers.good), (.staDisconnected true, ⟨true, fun _ => true, false⟩)]) = none := by
  refine ⟨?_, ?_⟩
  · have hlaw := (server_law WebGuiPipeline.starMatcher exampleConfig WebGuiPipeline.exampleRouter 8 exampleEvents).2
    have hsome : (exec (step WebGuiPipeline.starMatcher) (.start exampleConfig WebGuiPipeline.exampleRouter 8)
        exampleEvents).isSome = true := by
      decide +kernel
    obtain ⟨s, hs⟩ := Option.isSome_iff_exists.1 hsome
    obtain ⟨hhandle, -, hlength, -⟩ := hlaw s hs
    have hgone : s.server.handle.isSome = false := hhandle
    rw [hgone] at hlength
    rw [hs, Option.map_some, hgone, hlength]
    rfl
  · refine (server_law WebGuiPipeline.starMatcher exampleConfig WebGuiPipeline.exampleRouter 8 _).1.2 fun h => ?_
    have hlast := h (exampleEvents ++ [(.gotIp, HttpdAnswers.good)]) _ [] rfl
    cases hlast.2 rfl rfl

end HttpPipeline

end ControlComponents.Pipeline
