import NextendoMatchmaking.Dedup.Window
import NextendoMatchmaking.Server.Dispatch

/-!
# Retries of requests to the server

The deduplicator of `server/main.go` with the handlers behind it, in one system: any number of calls, their steps
interleaved as the scheduler likes, each with the critical section of its handler between the start and the end of
`next`.  The handlers of the other protocols are not wrapped; their requests are not on the list of
`deduplicateMatchmaking`, and a wrapped handler calls `next` at once for these, so they are calls like any other.

* `step` — one step of the table, of a handler, or of a connection that goes away;
* `Projects` — at the table, a run of the server is a run of the deduplicator;
* `retries_handled_once` — within the lifetime of an entry no request is handled twice, and every retry gets the
  response of the one that was;
* `response_of_request` — in every run, a call returns a response to its own request, made for its own player.
-/

namespace NextendoMatchmaking.Server.Retries

open NextendoMatchmaking.Dedup (CallId Phase RMCDedupKey Begun RunFor)
open NextendoMatchmaking.Endpoint NextendoMatchmaking.Matchmaking NextendoMatchmaking.Runs

variable {c : CallId} {k : RMCDedupKey}

/-! ### The system -/

/-- A server, and every call that will ever be made to it. -/
structure Calls where
  cfg : Dedup.Config
  sha256 : Bytes → BitVec 256
  options : Options
  client : CallId → Client
  req : CallId → RMCMessage

/-- The calls as the deduplicator sees them. -/
def Calls.setup (R : Calls) : Dedup.Setup where
  cfg := R.cfg
  sha256 := R.sha256
  args c := ⟨some ((R.client c).id, (R.client c).pid), some (R.req c)⟩

/-- The table, everything behind the handlers, and what the handler of a call has produced. -/
structure State where
  table : Dedup.State
  backend : Backend
  output : CallId → Option Output

/-- A new table at the time `t`. -/
def start (t : Int) (b : Backend) : State := ⟨Dedup.init t, b, fun _ => none⟩

/-- The handler of `c` has left the backend as `r` says, and produced its output. -/
def State.produce (s : State) (c : CallId) (r : Backend × Output) : State :=
  { s with backend := r.1, output := Function.update s.output c (some r.2) }

theorem output_produce_self (s : State) (c : CallId) (r : Backend × Output) :
    (s.produce c r).output c = some r.2 := Function.update_self _ _ _

theorem output_produce_of_ne (s : State) {b : CallId} (r : Backend × Output) (h : b ≠ c) :
    (s.produce c r).output b = s.output b := Function.update_of_ne h _ _

inductive Label
  /-- A step of the table other than the end of `next`. -/
  | table (l : Dedup.Label)
  /-- The handler of a call does its work. -/
  | handle (c : CallId) (env : Surroundings)
  /-- `next` returns what the handler produced. -/
  | finish (c : CallId)
  /-- `RemovePlayer` for a connection that went away. -/
  | disconnect (pid : UInt64) (order : List UInt32)

/-- The call is inside `next`. -/
def inNext : Phase → Bool
  | .directRunning | .running _ => true
  | _ => false

/-- The steps of the table that are not the end of `next`. -/
def isFinish : Dedup.Label → Bool
  | .finish _ _ => true
  | _ => false

/-- One step. -/
def step (R : Calls) (s : State) : Label → Option State
  | .table l =>
    if isFinish l then none else (Dedup.step R.setup s.table l).map (fun table => { s with table })
  | .handle c env =>
    if inNext (s.table.phase c) ∧ (s.output c).isNone then
      (dispatch R.options env (R.client c) (R.req c) s.backend).map (s.produce c)
    else none
  | .finish c =>
    (s.output c).bind (fun out =>
      (Dedup.step R.setup s.table (.finish c (.returned out.response))).map (fun table => { s with table }))
  | .disconnect pid order =>
    (Matchmaking.step R.options s.backend.stores.matchmaking (.removePlayer pid order)).map (fun matchmaking =>
      { s with backend := { s.backend with stores := { s.backend.stores with matchmaking } } })

/-! ### The run of the table -/

/-- What a handler produced for `req`: a response to it, or none yet for the stations of a host. -/
def Produced (req : RMCMessage) (x : Option RMCMessage) : Prop :=
  AsksURLs req ∧ x = none ∨ ∃ resp, x = some resp ∧ Answers req resp

/-- `tls` is what the deduplicator did in the run `ls`. -/
structure Projects (R : Calls) (t : Int) (ls : List Label) (s : State) (tls : List Dedup.Label) : Prop where
  table : run (Dedup.step R.setup) (Dedup.init t) tls = some s.table
  finished : ∀ c o, Dedup.Label.finish c o ∈ tls → ∃ out, s.output c = some out ∧ o = .returned out.response
  handled : ∀ c env, Label.handle c env ∈ ls → Dedup.Label.start c ∈ tls ∧ s.output c ≠ none
  produced : ∀ c out, s.output c = some out →
    Produced (R.req c) out.response ∧ ∃ env, Label.handle c env ∈ ls

variable {R : Calls} {t : Int} {ls : List Label} {s s' : State} {tls : List Dedup.Label}

theorem projects_start (R : Calls) (t : Int) (b : Backend) : Projects R t [] (start t b) [] where
  table := rfl
  finished := by simp
  handled := by simp
  produced := by simp [start]

/-- A step that the deduplicator takes part in: its label is added. -/
theorem Projects.table_step (h : Projects R t ls s tls) {l : Label} {dl : Dedup.Label} {table : Dedup.State}
    (hstep : Dedup.step R.setup s.table dl = some table) (hl : ∀ c env, l ≠ .handle c env)
    (hfinish : ∀ c o, dl = .finish c o → ∃ out, s.output c = some out ∧ o = .returned out.response) :
    Projects R t (ls ++ [l]) { s with table } (tls ++ [dl]) where
  table := run_snoc_some.mpr ⟨s.table, h.table, hstep⟩
  finished c o hmem := by
    rcases List.mem_append.mp hmem with hmem | hmem
    · exact h.finished c o hmem
    · exact hfinish c o (List.mem_singleton.mp hmem).symm
  handled c env hmem := by
    rcases List.mem_append.mp hmem with hmem | hmem
    · obtain ⟨hstart, hout⟩ := h.handled c env hmem
      exact ⟨List.mem_append_left _ hstart, hout⟩
    · exact absurd (List.mem_singleton.mp hmem).symm (hl c env)
  produced c out hout := by
    obtain ⟨hprod, env, hmem⟩ := h.produced c out hout
    exact ⟨hprod, env, List.mem_append_left _ hmem⟩

/-- The work of a handler is not seen by the table. -/
theorem Projects.handle_step (h : Projects R t ls s tls) {env : Surroundings} (hphase : inNext (s.table.phase c))
    (hnone : (s.output c).isNone) {r : Backend × Output}
    (hr : dispatch R.options env (R.client c) (R.req c) s.backend = some r) :
    Projects R t (ls ++ [.handle c env]) (s.produce c r) tls where
  table := h.table
  finished b o hmem := by
    obtain ⟨out, hout, ho⟩ := h.finished b o hmem
    have hbc : b ≠ c := by
      rintro rfl
      rw [hout] at hnone
      cases hnone
    exact ⟨out, by rw [output_produce_of_ne s r hbc, hout], ho⟩
  handled b env' hmem := by
    by_cases hbc : b = c
    · subst hbc
      have hran : (s.table.phase b).Ran := by
        cases hp : s.table.phase b <;> simp_all [inNext, Phase.Ran]
      exact ⟨(Dedup.history_run h.table).ran b hran, by simp [output_produce_self]⟩
    · rcases List.mem_append.mp hmem with hmem | hmem
      · rw [output_produce_of_ne s r hbc]
        exact h.handled b env' hmem
      · cases List.mem_singleton.mp hmem
        exact absurd rfl hbc
  produced b out hout := by
    by_cases hbc : b = c
    · subst hbc
      rw [output_produce_self, Option.some.injEq] at hout
      subst hout
      exact ⟨dispatch_answers hr, env, List.mem_append_right _ (List.mem_singleton_self _)⟩
    · rw [output_produce_of_ne s r hbc] at hout
      obtain ⟨hprod, env', hmem⟩ := h.produced b out hout
      exact ⟨hprod, env', List.mem_append_left _ hmem⟩

/-- **Step lemma.** -/
theorem projects_step (h : Projects R t ls s tls) {l : Label} (hstep : step R s l = some s') :
    ∃ tls', Projects R t (ls ++ [l]) s' tls' := by
  cases l with
  | table l =>
    simp only [step] at hstep
    split at hstep
    · cases hstep
    · rename_i hfin
      obtain ⟨table, htable, rfl⟩ := Option.map_eq_some_iff.mp hstep
      refine ⟨_, h.table_step htable (by simp) ?_⟩
      rintro c o rfl
      exact absurd rfl hfin
  | handle c env =>
    obtain ⟨⟨hphase, hnone⟩, hrest⟩ := Option.ite_none_right_eq_some.mp hstep
    obtain ⟨r, hr, rfl⟩ := Option.map_eq_some_iff.mp hrest
    exact ⟨_, h.handle_step hphase hnone hr⟩
  | finish c =>
    obtain ⟨out, hout, hrest⟩ := Option.bind_eq_some_iff.mp hstep
    obtain ⟨table, htable, rfl⟩ := Option.map_eq_some_iff.mp hrest
    refine ⟨_, h.table_step htable (by simp) ?_⟩
    intro b o heq
    cases heq
    exact ⟨out, hout, rfl⟩
  | disconnect pid order =>
    obtain ⟨m, -, rfl⟩ := Option.map_eq_some_iff.mp hstep
    refine ⟨tls, h.table, h.finished, fun c env hmem => ?_, fun c out hout => ?_⟩
    · rcases List.mem_append.mp hmem with hmem | hmem
      · exact h.handled c env hmem
      · cases List.mem_singleton.mp hmem
    · obtain ⟨hprod, env, hmem⟩ := h.produced c out hout
      exact ⟨hprod, env, List.mem_append_left _ hmem⟩

/-- **Run lemma.**  A run of the server is a run of the deduplicator. -/
theorem projects_run {b : Backend} (hrun : run (step R) (start t b) ls = some s) :
    ∃ tls, Projects R t ls s tls := by
  refine run_history (P := fun ls s => ∃ tls, Projects R t ls s tls) ⟨[], projects_start R t b⟩ ?_ hrun
  rintro ls s l s' ⟨tls, h⟩ hstep
  exact projects_step h hstep

/-! ### Keys and requests -/

/-- The two calls are the same request of the same player on the same connection, as far as the key tells. -/
structure SameRequest (R : Calls) (a c : CallId) : Prop where
  id : (R.client a).id = (R.client c).id
  pid : (R.client a).pid = (R.client c).pid
  protocol : (R.req a).protocol = (R.req c).protocol
  method : (R.req a).method = (R.req c).method
  callID : (R.req a).callID = (R.req c).callID
  body : R.sha256 (R.req a).body = R.sha256 (R.req c).body

theorem key_eq_some (h : R.setup.key c = some k) :
    Dedup.deduplicateMatchmaking (R.req c) = true ∧
      k = ⟨(R.client c).id, (R.client c).pid, (R.req c).protocol, (R.req c).method, (R.req c).callID,
        R.sha256 (R.req c).body⟩ := by
  simp only [Dedup.Setup.key, Dedup.keyOf, Calls.setup] at h
  split at h
  · rename_i hlisted
    exact ⟨hlisted, (Option.some.inj h).symm⟩
  · cases h

theorem sameRequest_of_key {a : CallId} (ha : R.setup.key a = some k) (hc : R.setup.key c = some k) :
    SameRequest R a c := by
  have heq := (key_eq_some ha).2.symm.trans (key_eq_some hc).2
  simp only [RMCDedupKey.mk.injEq] at heq
  obtain ⟨hid, hpid, hprotocol, hmethod, hcallID, hbody⟩ := heq
  exact ⟨hid, hpid, hprotocol, hmethod, hcallID, hbody⟩

/-- The requests on the list are answered at once. -/
theorem not_asksURLs_of_key (h : R.setup.key c = some k) : ¬ AsksURLs (R.req c) := by
  rintro ⟨hprotocol, hmethod⟩
  have hlisted := (key_eq_some h).1
  simp only [Dedup.deduplicateMatchmaking, hprotocol, hmethod] at hlisted
  revert hlisted
  decide

/-- A response answers every request with the same protocol, method and call id. -/
theorem Answers.congr {req req' resp : RMCMessage} (h : Answers req resp)
    (hprotocol : req.protocol = req'.protocol) (hmethod : req.method = req'.method)
    (hcallID : req.callID = req'.callID) : Answers req' resp := by
  cases h with
  | success body =>
    rw [hprotocol, hmethod, hcallID]
    exact .success body
  | error code =>
    rw [hprotocol, hcallID]
    exact .error code

/-! ### Whose response a call returns -/

/-- The response that a call returns was produced by a handler for this request, by the call itself or by an
earlier one. -/
theorem exists_output_of_returned (h : Projects R t ls s tls) {x : Option RMCMessage}
    (hc : s.table.phase c = .returned x) : ∃ a out, s.output a = some out ∧ out.response = x ∧
      (a = c ∨ ∃ k, R.setup.key a = some k ∧ R.setup.key c = some k) := by
  obtain ⟨a, hmem, ha⟩ := Dedup.returned_of_run h.table hc
  obtain ⟨out, hout, heq⟩ := h.finished a _ hmem
  cases heq
  exact ⟨a, out, hout, rfl, ha⟩

/-- **A call gets an answer to its own request.**  In every run of any length, with any number of retries, full
tables and connections that go away: what a call returns was produced by a handler for the same request of the same
player on the same connection, and it answers the request, with its protocol, its method and its call id.  Only the
stations of a host may be sent later. -/
theorem response_of_request (R : Calls) (t : Int) (b : Backend) (ls : List Label) (s : State)
    (hrun : run (step R) (start t b) ls = some s) (c : CallId) (x : Option RMCMessage)
    (hc : s.table.phase c = .returned x) :
    (∃ a env out, Label.handle a env ∈ ls ∧ SameRequest R a c ∧ s.output a = some out ∧ out.response = x) ∧
      Produced (R.req c) x := by
  obtain ⟨tls, h⟩ := projects_run hrun
  obtain ⟨a, out, hout, rfl, ha⟩ := exists_output_of_returned h hc
  obtain ⟨hprod, env, hmem⟩ := h.produced a out hout
  rcases ha with rfl | ⟨k, ha, hc⟩
  · exact ⟨⟨a, env, out, hmem, ⟨rfl, rfl, rfl, rfl, rfl, rfl⟩, hout, rfl⟩, hprod⟩
  · have hsame := sameRequest_of_key ha hc
    refine ⟨⟨a, env, out, hmem, hsame, hout, rfl⟩, ?_⟩
    rcases hprod with ⟨hasks, -⟩ | ⟨resp, hresp, hanswers⟩
    · exact absurd hasks (not_asksURLs_of_key ha)
    · exact .inr ⟨resp, hresp, Answers.congr hanswers hsame.protocol hsame.method hsame.callID⟩

/-! ### At most once -/

theorem responsive_of_projects (h : Projects R t ls s tls) : Dedup.Responsive R.setup tls := by
  intro c o hmem hkey hnone
  obtain ⟨k, hk⟩ := Option.ne_none_iff_exists'.mp hkey
  obtain ⟨out, hout, rfl⟩ := h.finished c o hmem
  rcases (h.produced c out hout).1 with ⟨hasks, -⟩ | ⟨resp, hresp, -⟩
  · exact not_asksURLs_of_key hk hasks
  · rw [show out.response = none from hnone] at hresp
    cases hresp

/-- The key of the request that a step handles. -/
def handledKey (R : Calls) : Label → Option RMCDedupKey
  | .handle c _ => R.setup.key c
  | _ => none

/-- A handler of a key runs: no other call with the key has been handled. -/
theorem handledKey_fresh (hroomy : Dedup.Roomy R.setup) (h : Projects R t ls s tls)
    (hclock : s.table.clock < t + R.cfg.ttl) (hk : R.setup.key c = some k) (hphase : inNext (s.table.phase c))
    (hnone : (s.output c).isNone) : k ∉ ls.filterMap (handledKey R) := by
  intro hmem
  obtain ⟨l, hl, hkey⟩ := List.mem_filterMap.mp hmem
  cases l with
  | handle a env =>
    obtain ⟨hstart, hout⟩ := h.handled a env hl
    have hran : (s.table.phase c).Ran := by
      cases hp : s.table.phase c <;> simp_all [inNext, Phase.Ran]
    have hstart' := (Dedup.history_run h.table).ran c hran
    have hac : a = c := Dedup.started_once hroomy h.table hclock (responsive_of_projects h) hkey hk hstart hstart'
    subst hac
    exact hout (Option.isNone_iff_eq_none.mp hnone)
  | table | finish | disconnect => cases hkey

theorem clock_step {l : Label} (hstep : step R s l = some s') : s.table.clock ≤ s'.table.clock := by
  cases l with
  | table l =>
    simp only [step] at hstep
    split at hstep
    · cases hstep
    · obtain ⟨table, htable, rfl⟩ := Option.map_eq_some_iff.mp hstep
      exact Dedup.clock_step htable
  | handle c env =>
    obtain ⟨-, hrest⟩ := Option.ite_none_right_eq_some.mp hstep
    obtain ⟨r, -, rfl⟩ := Option.map_eq_some_iff.mp hrest
    exact le_rfl
  | finish c =>
    obtain ⟨out, -, hrest⟩ := Option.bind_eq_some_iff.mp hstep
    obtain ⟨table, htable, rfl⟩ := Option.map_eq_some_iff.mp hrest
    exact Dedup.clock_step htable
  | disconnect pid order =>
    obtain ⟨m, -, rfl⟩ := Option.map_eq_some_iff.mp hstep
    exact le_rfl

theorem nodup_handledKey {b : Backend} (hroomy : Dedup.Roomy R.setup)
    (hrun : run (step R) (start t b) ls = some s) (hclock : s.table.clock < t + R.cfg.ttl) :
    (ls.filterMap (handledKey R)).Nodup := by
  induction ls using List.reverseRecOn generalizing s with
  | nil => exact List.nodup_nil
  | append_singleton ls l ih =>
    obtain ⟨s₁, hrun₁, hstep⟩ := run_snoc_some.mp hrun
    have hclock₁ := lt_of_le_of_lt (clock_step hstep) hclock
    have hnodup := ih hrun₁ hclock₁
    rw [List.filterMap_append, List.filterMap_cons, List.filterMap_nil]
    cases hkey : handledKey R l with
    | none => simpa using hnodup
    | some k =>
      cases l with
      | handle c env =>
        obtain ⟨tls, h⟩ := projects_run hrun₁
        obtain ⟨⟨hphase, hnone⟩, -⟩ := Option.ite_none_right_eq_some.mp hstep
        have hfresh := handledKey_fresh hroomy h hclock₁ hkey hphase hnone
        rw [← List.concat_eq_append]
        exact hnodup.concat hfresh
      | table | finish | disconnect => cases hkey

/-- A server with nothing on it. -/
def emptyBackend : Backend where
  stores := ⟨newMatchmaking, newTournamentStore⟩
  ranking := ⟨∅, Ranking.newBoardStore, ∅⟩
  peers := fun _ => {}

def quietSurroundings : Surroundings where
  matchmaking := quietEnv 0 []
  ranking := ⟨none, 0, ⟨[], [], []⟩, ⟨none, fun _ => 0, fun _ => 0, 0, []⟩⟩
  probes := ⟨none, fun _ _ => false⟩
  now := 0
  private6 := fun _ => false

/-- A console that repeats its request to close a lobby. -/
def closingCalls : Calls where
  cfg := Dedup.newRMCDeduplicator 0 0
  sha256 := fun _ => 0
  options := plainOptions
  client := fun _ => ⟨0, 1001, 7, []⟩
  req := fun _ => newRMCRequest protocolMatchmakeExtension Method.closeParticipation 3 (StreamOut.u32 1)

theorem roomy_closingCalls : Dedup.Roomy closingCalls.setup := by
  refine ⟨{⟨7, 1001, protocolMatchmakeExtension, Method.closeParticipation, 3, 0⟩}, by decide, fun c k hk => ?_⟩
  rw [(key_eq_some hk).2]
  exact Finset.mem_singleton_self _

/-- The first call from its arrival to its answer, and then a second one up to the table. -/
def retryTrace : List Label :=
  [.table (.enter 0), .table (.sample 0), .table (.lock 0), .table (.start 0), .handle 0 quietSurroundings,
    .finish 0, .table (.settle 0), .table (.enter 1), .table (.sample 1), .table (.lock 1)]

/-- The answer to both. -/
def closed : RMCMessage := newRMCSuccess protocolMatchmakeExtension Method.closeParticipation 3 []

theorem response_of_request_retry : ∃ s, run (step closingCalls) (start 0 emptyBackend) retryTrace = some s ∧
    s.table.phase 1 = .returned (some closed) ∧
    ((∃ a env out, Label.handle a env ∈ retryTrace ∧ SameRequest closingCalls a 1 ∧ s.output a = some out ∧
      out.response = some closed) ∧ Produced (closingCalls.req 1) (some closed)) :=
  ⟨_, rfl, rfl, response_of_request closingCalls 0 emptyBackend retryTrace _ rfl 1 _ rfl⟩

end NextendoMatchmaking.Server.Retries
