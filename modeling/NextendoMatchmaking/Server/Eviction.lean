import NextendoMatchmaking.Endpoint.Isolation
import NextendoMatchmaking.Login.Identity
import NextendoMatchmaking.Server.PhantomLobby
import NextendoMatchmaking.Server.StaleConnection

/-!
# The reaper against the clock

`StartReaper` (`nextendo-nex/reaper.go`) starts a goroutine that sleeps, takes a snapshot of the registry, looks
at the connections of the snapshot one by one and closes those that were silent for too long.  Between any two of
these the server goes on and time passes: a packet can still arrive after the reaper has decided to close its
connection.

Undisturbed, a pass is the step of the server with `reapIdle` (`run_pass`).  Over all interleavings, the reaper
closes a connection only if it had been silent for `maxIdle` when the reaper looked at it (`evicted_only_silent`),
and if the loop is never late by more than `late`, no open connection stays registered for longer than `maxIdle`,
one sleep and twice `late` after its last packet (`evicted_in_time`).
-/

namespace NextendoMatchmaking.Server.Reaper

open NextendoMatchmaking.Endpoint NextendoMatchmaking.Matchmaking NextendoMatchmaking.Runs

variable {order : Sock → List UInt32} {r : Endpoint.State × List Effect} {heard : Option Int} {rest : List Sock}

/-! ### The settings -/

/-- `time.Duration(n) * time.Second`, in nanoseconds, with the wrap of the type. -/
def seconds (n : Int) : Int := Int.bmod (n * 1000000000) (2 ^ 64)

/-- `envSeconds`; a variable that is not set is empty. -/
def envSeconds (value : Bytes) (default : Int) : Int :=
  match Login.parseInt value with
  | none => seconds default
  | some n => if 0 ≤ n then seconds n else seconds default

/-- `ReapIdleTimeout`, from `NEXTENDO_REAP_IDLE_SECONDS`. -/
def reapIdleTimeout (idleVar : Bytes) : Int := envSeconds idleVar 600

/-- What the loop of the reaper works with. -/
structure Timing where
  maxIdle : Int
  every : Int
  deriving DecidableEq

/-- `StartReaper`, with `NEXTENDO_REAP_EVERY_SECONDS`: no loop is started where eviction is off. -/
def startReaper (idleVar everyVar : Bytes) : Option Timing :=
  if reapIdleTimeout idleVar ≤ 0 then none
  else some ⟨reapIdleTimeout idleVar, envSeconds everyVar 60⟩

/-- How long `time.Sleep(every)` sleeps. -/
def Timing.sleep (t : Timing) : Int := max t.every 0

/-! ### The loop beside the server -/

/-- Where the goroutine of the reaper is. -/
inductive Phase
  | sleeping
  /-- The connections of the snapshot it has not looked at. -/
  | passing (rest : List Sock)
  /-- It has found `c` idle and is about to close it. -/
  | closing (c : Sock) (rest : List Sock)

structure Watch where
  server : State
  clock : Int
  /-- When the current sleep ends, or the last one ended. -/
  due : Int
  phase : Phase

/-- The server as it is when `StartReaper` is called. -/
def watchStart (t : Timing) (reservationTTL clock : Int) : Watch :=
  ⟨start reservationTTL, clock, clock + t.sleep, .sleeping⟩

inductive WatchLabel
  /-- A step of the server; the times that the passes of an administrator read are left open. -/
  | server (l : Label)
  | tick (now : Int)
  /-- The sleep is over and the snapshot is taken. -/
  | wake (order : List UInt32)
  /-- The reaper looks at the next connection, or goes back to sleep after the last one. -/
  | look
  /-- The reaper closes the connection that it found idle; with the order of the `RemovePlayer` that follows. -/
  | evict (order : Sock → List UInt32)

variable {x : WatchLabel}

/-- The test of `ReapIdle`. -/
def overdue (t : Timing) (now : Int) (conn : Connection) : Bool :=
  0 < idleFor now conn && t.maxIdle ≤ idleFor now conn

/-- Packets arrive at the time that the clock shows. -/
def atTime (now : Int) : Label → Bool
  | .endpoint (.packet _ _ env) _ => env.now == now
  | _ => true

/-- What the reaper does about the next connection of its snapshot. -/
def lookAt (t : Timing) (now : Int) (s : Endpoint.State) (c : Sock) (rest : List Sock) : Phase :=
  match s.sockets.lookup c with
  | none => .passing rest
  | some conn => if overdue t now conn then .closing c rest else .passing rest

def watchStep (crypto : Crypto) (e : Config) (o : Options) (t : Timing) (w : Watch) : WatchLabel → Option Watch
  | .server l =>
    if atTime w.clock l then (step crypto e o w.server l).map (fun s => { w with server := s }) else none
  | .tick now => if w.clock ≤ now then some { w with clock := now } else none
  | .wake order =>
    match w.phase with
    | .sleeping =>
      if w.due ≤ w.clock ∧ GoMap.Enumerates order w.server.endpoint.connections then
        some { w with phase := .passing (snapshotConns w.server.endpoint order) }
      else none
    | _ => none
  | .look =>
    match w.phase with
    | .passing [] => some { w with phase := .sleeping, due := w.clock + t.sleep }
    | .passing (c :: rest) => some { w with phase := lookAt t w.clock w.server.endpoint c rest }
    | _ => none
  | .evict order =>
    match w.phase with
    | .closing c rest => (step crypto e o w.server (.endpoint (.close c) order)).map (fun s =>
        { w with server := s, phase := .passing rest })
    | _ => none

variable {crypto : Crypto} {e : Config} {o : Options} {t : Timing} {s s' : Endpoint.State} {w w' : Watch}
  {c c' : Sock} {conn conn' : Connection} {l : Endpoint.Label} {env : PacketEnv} {p : Packet}
  {ls : List WatchLabel} {late clock reservationTTL : Int}

/-! ### An undisturbed pass -/

theorem step_close {s : State} (hconn : s.endpoint.sockets.lookup c = some conn) :
    step crypto e o s (.endpoint (.close c) order) =
      ((close s.endpoint c).2.foldlM (hook o order) (s.store, s.calls)).map (fun w =>
        ⟨(close s.endpoint c).1, w.1, w.2⟩) := by
  have hexec : exec crypto e s.endpoint (deferred (.close c)) = some (close s.endpoint c) :=
    if_pos (by rw [hconn]; rfl)
  rw [step, hexec, Option.bind_some]

theorem run_passing (cs : List Sock) (s : State) (now due : Int) {work : Store × List Call}
    (hwork : (closeWhere (fun _ conn => overdue t now conn) cs s.endpoint).2.foldlM (hook o order)
      (s.store, s.calls) = some work) :
    ∃ ls, (∀ x ∈ ls, x = .look ∨ x = .evict order) ∧
      run (watchStep crypto e o t) ⟨s, now, due, .passing cs⟩ ls =
        some ⟨⟨(closeWhere (fun _ conn => overdue t now conn) cs s.endpoint).1, work.1, work.2⟩, now,
          now + t.sleep, .sleeping⟩ := by
  -- each connection of the snapshot takes a look, and an eviction where the look asks for one
  induction cs generalizing s with
  | nil =>
    cases hwork
    exact ⟨[.look], by simp, rfl⟩
  | cons c cs ih =>
    have hlook : watchStep crypto e o t ⟨s, now, due, .passing (c :: cs)⟩ .look =
      some ⟨s, now, due, lookAt t now s.endpoint c cs⟩ := rfl
    cases hlookup : s.endpoint.sockets.lookup c with
    | none =>
      simp only [closeWhere, hlookup] at hwork ⊢
      obtain ⟨ls, hls, hrun⟩ := ih s hwork
      refine ⟨.look :: ls, List.forall_mem_cons.mpr ⟨.inl rfl, hls⟩, ?_⟩
      simp only [run_cons, hlook, Option.bind_some, lookAt, hlookup]
      exact hrun
    | some conn =>
      cases hover : overdue t now conn with
      | false =>
        simp only [closeWhere, hlookup, hover, Bool.false_eq_true, if_false] at hwork ⊢
        obtain ⟨ls, hls, hrun⟩ := ih s hwork
        refine ⟨.look :: ls, List.forall_mem_cons.mpr ⟨.inl rfl, hls⟩, ?_⟩
        simp only [run_cons, hlook, Option.bind_some, lookAt, hlookup, hover, Bool.false_eq_true, if_false]
        exact hrun
      | true =>
        simp only [closeWhere, hlookup, hover, if_true, List.foldlM_append] at hwork ⊢
        obtain ⟨work₁, hwork₁, hrest⟩ := Option.bind_eq_some_iff.mp hwork
        obtain ⟨ls, hls, hrun⟩ := ih ⟨(close s.endpoint c).1, work₁.1, work₁.2⟩ hrest
        refine ⟨.look :: .evict order :: ls,
          List.forall_mem_cons.mpr ⟨.inl rfl, List.forall_mem_cons.mpr ⟨.inr rfl, hls⟩⟩, ?_⟩
        have hevict : watchStep crypto e o t ⟨s, now, due, .closing c cs⟩ (.evict order) =
            some ⟨⟨(close s.endpoint c).1, work₁.1, work₁.2⟩, now, due, .passing cs⟩ := by
          simp only [watchStep, step_close hlookup, hwork₁, Option.map_some]
        simp only [run_cons, hlook, Option.bind_some, lookAt, hlookup, hover, if_true, hevict]
        exact hrun

/-- **Refinement.**  A pass that nothing interrupts is the step of the server with `reapIdle`, at the time of its
snapshot. -/
theorem run_pass {ids : List UInt32} {s : State} (hidle : 0 < t.maxIdle) (hphase : w.phase = .sleeping)
    (hdue : w.due ≤ w.clock)
    (hstep : step crypto e o w.server (.endpoint (.reapIdle t.maxIdle (fun _ => w.clock) ids) order) = some s) :
    ∃ ls, (∀ x ∈ ls, x = .look ∨ x = .evict order) ∧ run (watchStep crypto e o t) w (.wake ids :: ls) =
      some { w with server := s, due := w.clock + t.sleep } := by
  obtain ⟨server, now, due, phase⟩ := w
  obtain rfl : phase = .sleeping := hphase
  obtain ⟨r, hexec, hmap⟩ := Option.bind_eq_some_iff.mp hstep
  obtain ⟨work, hwork, rfl⟩ := Option.map_eq_some_iff.mp hmap
  obtain ⟨horder, hr⟩ := Option.ite_none_right_eq_some.mp hexec
  obtain rfl := Option.some.inj hr
  have hreap : reapIdle t.maxIdle (fun _ => now) ids server.endpoint =
      closeWhere (fun _ conn => overdue t now conn) (snapshotConns server.endpoint ids) server.endpoint := by
    rw [reapIdle, if_neg (by omega)]
    rfl
  rw [hreap] at hwork
  obtain ⟨ls, hls, hrun⟩ := run_passing (snapshotConns server.endpoint ids) server now due hwork
  refine ⟨ls, hls, ?_⟩
  have hwake : watchStep crypto e o t ⟨server, now, due, .sleeping⟩ (.wake ids) =
    some ⟨server, now, due, .passing (snapshotConns server.endpoint ids)⟩ := if_pos ⟨hdue, horder⟩
  rw [run_cons, hwake, Option.bind_some, hrun, hreap]

/-! ### What a step does to the times -/

/-- Connections were closed, and nothing else. -/
structure Shrinks (s s' : Endpoint.State) : Prop where
  connections : ∀ id c, s'.connections.lookup id = some c → s.connections.lookup id = some c
  sockets : ∀ c, s'.sockets.lookup c = s.sockets.lookup c ∨
    ∃ conn, s.sockets.lookup c = some conn ∧ s'.sockets.lookup c = some { conn with state := .closed }

theorem Shrinks.refl (s : Endpoint.State) : Shrinks s s := ⟨fun _ _ h => h, fun _ => .inl rfl⟩

theorem Shrinks.trans {s₁ s₂ s₃ : Endpoint.State} (h : Shrinks s₁ s₂) (h' : Shrinks s₂ s₃) : Shrinks s₁ s₃ := by
  refine ⟨fun id c hid => h.connections id c (h'.connections id c hid), fun c => ?_⟩
  rcases h'.sockets c with heq | ⟨conn, hconn, hclosed⟩
  · rw [heq]
    exact h.sockets c
  · right
    rcases h.sockets c with heq | ⟨conn₁, hconn₁, hclosed₁⟩
    · exact ⟨conn, heq ▸ hconn, hclosed⟩
    · obtain rfl := Option.some.inj (hclosed₁.symm.trans hconn)
      exact ⟨conn₁, hconn₁, hclosed⟩

theorem shrinks_close (s : Endpoint.State) (c : Sock) : Shrinks s (close s c).1 := by
  unfold close
  split
  · exact .refl s
  next conn hconn =>
  split
  · exact .refl s
  refine ⟨fun id c' hid => ?_, fun c' => ?_⟩
  · rw [lookup_unregister] at hid
    split at hid
    · cases hid
    · exact hid
  · rw [sockets_unregister, lookup_set]
    split
    next hc =>
      subst hc
      exact .inr ⟨conn, hconn, rfl⟩
    · exact .inl rfl

theorem shrinks_closeWhere (test : Sock → Connection → Bool) (cs : List Sock) (s : Endpoint.State) :
    Shrinks s (closeWhere test cs s).1 := by
  induction cs generalizing s with
  | nil => exact .refl s
  | cons c cs ih =>
    unfold closeWhere
    split
    · exact ih s
    · split
      · exact (shrinks_close s c).trans (ih _)
      · exact ih s

/-- What was open and is still there was there before, at the same time. -/
theorem Shrinks.before (h : Shrinks s s') (hconn : s'.sockets.lookup c = some conn) :
    ∃ conn₀, s.sockets.lookup c = some conn₀ ∧ conn.lastSeen = conn₀.lastSeen ∧
      (conn.state ≠ .closed → conn₀.state ≠ .closed) := by
  rcases h.sockets c with heq | ⟨conn₀, hconn₀, hclosed⟩
  · exact ⟨conn, heq ▸ hconn, rfl, id⟩
  · obtain rfl := Option.some.inj (hconn.symm.trans hclosed)
    exact ⟨conn₀, hconn₀, rfl, fun hopen => absurd rfl hopen⟩

theorem lastSeen_sendRMC (settings : Settings) (msg : RMCMessage) :
    (sendRMC settings c conn msg).1.lastSeen = conn.lastSeen := by
  unfold sendRMC sendData
  split <;> rfl

theorem lastSeen_dispatchRMC (payload : Bytes) :
    (dispatchRMC e env c conn payload).1.lastSeen = conn.lastSeen := by
  unfold dispatchRMC
  split
  · rfl
  · split
    · rfl
    · split
      · dsimp only
        split
        · rfl
        · exact lastSeen_sendRMC _ _
      · exact lastSeen_sendRMC _ _

theorem lastSeen_processData : (processData e env c conn p).1.lastSeen = conn.lastSeen := by
  unfold processData
  split
  · unfold processMultiAck
    split <;> rfl
  · split
    · rfl
    · dsimp only
      split
      · rfl
      · exact lastSeen_dispatchRMC _

theorem lastSeen_acceptCONNECT {ack : Packet} (h : acceptCONNECT crypto e env conn p = some (conn', ack)) :
    conn'.lastSeen = conn.lastSeen := by
  unfold acceptCONNECT at h
  split at h
  · cases h
  · split at h
    · cases h
    next conn₁ response hlogin =>
    cases h
    unfold processLoginRequest at hlogin
    grind

/-- After a packet its connection carries the time of the packet. -/
theorem lastSeen_handled (hr : Handled crypto e env s c conn p r) (hconn : r.1.sockets.lookup c = some conn') :
    conn'.lastSeen = conn.lastSeen := by
  have hset : ∀ conn₁ : Connection, (s.set c conn₁).sockets.lookup c = some conn₁ :=
    fun conn₁ => (lookup_set _ _ _ _).trans (if_pos rfl)
  cases hr with
  | answered _ _ _ => rw [← Option.some.inj ((hset _).symm.trans hconn)]
  | greeted _ =>
    rw [← Option.some.inj ((hset _).symm.trans hconn)]
    rfl
  | connected _ hacc =>
    have hseen := lastSeen_acceptCONNECT hacc
    rw [← Option.some.inj ((hset _).symm.trans hconn)]
    exact hseen
  | data _ =>
    rw [← Option.some.inj ((hset _).symm.trans hconn)]
    exact lastSeen_processData
  | disconnected _ =>
    obtain ⟨conn₀, hconn₀, hseen, -⟩ := (shrinks_close (s.set c conn) c).before hconn
    rw [hseen, ← Option.some.inj ((hset _).symm.trans hconn₀)]

/-- A packet registers no connection but its own. -/
theorem registered_handled {id : UInt32} (hr : Handled crypto e env s c conn p r)
    (hid : r.1.connections.lookup id = some c') (hne : c' ≠ c) : s.connections.lookup id = some c' := by
  cases hr with
  | answered _ _ _ => exact hid
  | greeted _ => exact hid
  | connected _ _ =>
    have hinsert : (s.connections.insert (s.connCounter + 1) c).lookup id = some c' := hid
    rw [GoMap.lookup_insert_eq] at hinsert
    split at hinsert
    · exact absurd (Option.some.inj hinsert).symm hne
    · exact hinsert
  | data _ => exact hid
  | disconnected _ => exact (shrinks_close (s.set c conn) c).connections _ _ hid

/-- The time at which a step is a packet for `c`. -/
def arrival (c : Sock) : Endpoint.Label → Option Int
  | .packet c' _ env => if c' = c then some env.now else none
  | _ => none

/-- What a step with the arrivals `arr` does to the times: a connection carries the time of its packet if there is
one, and its time from before otherwise; without a packet for it, it was open before if it is, and registered. -/
structure Aged (arr : Sock → Option Int) (s s' : Endpoint.State) : Prop where
  times : ∀ c conn, s'.sockets.lookup c = some conn → arr c = some conn.lastSeen ∨ (arr c = none ∧
    (s.sockets.lookup c = none ∧ conn.lastSeen = 0 ∨ ∃ conn₀, s.sockets.lookup c = some conn₀ ∧
      conn.lastSeen = conn₀.lastSeen ∧ (conn.state ≠ .closed → conn₀.state ≠ .closed)))
  registered : ∀ id c, s'.connections.lookup id = some c → s.connections.lookup id = some c ∨ arr c ≠ none
  known : ∀ c, arr c ≠ none → ∃ conn, s.sockets.lookup c = some conn
  kept : ∀ c conn, s.sockets.lookup c = some conn → ∃ conn', s'.sockets.lookup c = some conn'

theorem Aged.of_shrinks (h : Shrinks s s') : Aged (fun _ => none) s s' where
  times _ _ hconn := .inr ⟨rfl, .inr (h.before hconn)⟩
  registered id c hid := .inl (h.connections id c hid)
  known _ hne := absurd rfl hne
  kept c conn hconn := by
    rcases h.sockets c with heq | ⟨_, _, hclosed⟩
    · exact ⟨conn, heq.trans hconn⟩
    · exact ⟨_, hclosed⟩

/-- A write that keeps the time and the state. -/
theorem Aged.of_set (hconn : s.sockets.lookup c = some conn) (hseen : conn'.lastSeen = conn.lastSeen)
    (hstate : conn'.state = conn.state) : Aged (fun _ => none) s (s.set c conn') where
  times c' conn₁ hconn₁ := by
    refine .inr ⟨rfl, .inr ?_⟩
    rcases lookup_set_cases hconn₁ with ⟨rfl, rfl⟩ | ⟨-, hold⟩
    · exact ⟨conn, hconn, hseen, fun hopen => hstate ▸ hopen⟩
    · exact ⟨conn₁, hold, rfl, id⟩
  registered _ _ hid := .inl hid
  known _ hne := absurd rfl hne
  kept c' conn₁ hconn₁ := by
    rw [lookup_set]
    split
    · exact ⟨conn', rfl⟩
    · exact ⟨conn₁, hconn₁⟩

/-- A connection is never forgotten. -/
theorem exec_kept (h : exec crypto e s l = some r) (hconn : s.sockets.lookup c = some conn) :
    ∃ conn', r.1.sockets.lookup c = some conn' := by
  have hbecomes := exec_becomes h c
  rw [hconn] at hbecomes
  generalize r.1.sockets.lookup c = after at hbecomes
  cases hbecomes with
  | follows _ => exact ⟨_, rfl⟩

theorem aged_exec (h : exec crypto e s l = some r) : Aged (fun c => arrival c l) s r.1 := by
  have hkept : ∀ c conn, s.sockets.lookup c = some conn → ∃ conn', r.1.sockets.lookup c = some conn' :=
    fun c conn hconn => exec_kept h hconn
  cases exec_executed h with
  | @accept c' remoteAddr hfresh =>
    refine ⟨fun c conn hconn => .inr ⟨rfl, ?_⟩, fun _ _ hid => .inl hid, fun _ hne => absurd rfl hne, hkept⟩
    rcases lookup_set_cases hconn with ⟨rfl, rfl⟩ | ⟨-, hold⟩
    · exact .inl ⟨hfresh, rfl⟩
    · exact .inr ⟨conn, hold, rfl, id⟩
  | @packet c' p env conn₁ r hconn₁ hr =>
    refine ⟨fun c conn hconn => ?_, fun id c hid => ?_, fun c hne => ?_, hkept⟩
    · by_cases hc : c' = c
      · subst hc
        left
        rw [arrival, if_pos rfl, lastSeen_handled hr hconn]
      · refine .inr ⟨if_neg hc, .inr ⟨conn, ?_, rfl, id⟩⟩
        rw [← hr.lookup_of_ne (Ne.symm hc), hconn]
    · by_cases hc : c' = c
      · right
        simp [arrival, hc]
      · exact .inl (registered_handled hr hid (Ne.symm hc))
    · by_cases hc : c' = c
      · exact ⟨conn₁, hc ▸ hconn₁⟩
      · exact absurd (if_neg hc) hne
  | closing hl test cs =>
    have harrival : (fun c => arrival c l) = fun _ => none := by
      cases l with
      | packet c' p env => exact absurd rfl (hl c' p env)
      | _ => rfl
    rw [harrival]
    exact .of_shrinks (shrinks_closeWhere test cs s)

/-- The time at which a step of the server is a packet for `c`. -/
def packetTime (c : Sock) : Label → Option Int
  | .endpoint l _ => arrival c l
  | _ => none

theorem arrival_deferred (c : Sock) (l : Endpoint.Label) : arrival c (deferred l) = arrival c l := by
  cases l <;> rfl

theorem lastSeen_respond (e : Config) (c : Sock) (conn : Connection) (response : Option RMCMessage) :
    (respond e c conn response).lastSeen = conn.lastSeen := by
  cases response with
  | none => rfl
  | some resp => exact lastSeen_sendRMC _ _

/-- **One step of the server.** -/
theorem aged_step {s s' : State} {l : Label} (h : step crypto e o s l = some s') :
    Aged (fun c => packetTime c l) s.endpoint s'.endpoint := by
  cases l with
  | endpoint l order =>
    obtain ⟨r, hr, hmap⟩ := Option.bind_eq_some_iff.mp h
    obtain ⟨work, -, rfl⟩ := Option.map_eq_some_iff.mp hmap
    have haged := aged_exec hr
    simp only [arrival_deferred] at haged
    exact haged
  | handle i env =>
    simp only [step] at h
    split at h
    · cases h
    · split at h
      · cases h
      · split at h
        · cases h
        · obtain ⟨store, -, rfl⟩ := Option.map_eq_some_iff.mp h
          exact .of_shrinks (.refl _)
  | finish i response =>
    simp only [step] at h
    split at h
    · cases h
    next call _ =>
      split at h
      · cases h
      next conn hconn =>
        cases h
        exact .of_set hconn (lastSeen_respond e call.c conn response)
          (sameIdentity_respond e call.c conn response).state

/-- What a step of the server or of the loop did. -/
inductive Watched (crypto : Crypto) (e : Config) (o : Options) (t : Timing) (w : Watch) :
    WatchLabel → Watch → Prop
  | server {l : Label} {s : State} (hat : atTime w.clock l = true) (h : step crypto e o w.server l = some s) :
      Watched crypto e o t w (.server l) { w with server := s }
  | tick {now : Int} (h : w.clock ≤ now) : Watched crypto e o t w (.tick now) { w with clock := now }
  | wake {order : List UInt32} (hphase : w.phase = .sleeping) (hdue : w.due ≤ w.clock)
      (horder : GoMap.Enumerates order w.server.endpoint.connections) :
      Watched crypto e o t w (.wake order) { w with phase := .passing (snapshotConns w.server.endpoint order) }
  | sleep (hphase : w.phase = .passing []) :
      Watched crypto e o t w .look { w with phase := .sleeping, due := w.clock + t.sleep }
  | look {c : Sock} {rest : List Sock} (hphase : w.phase = .passing (c :: rest)) :
      Watched crypto e o t w .look { w with phase := lookAt t w.clock w.server.endpoint c rest }
  | evict {c : Sock} {rest : List Sock} {order : Sock → List UInt32} {s : State}
      (hphase : w.phase = .closing c rest) (h : step crypto e o w.server (.endpoint (.close c) order) = some s) :
      Watched crypto e o t w (.evict order) { w with server := s, phase := .passing rest }

theorem watched_of_step (h : watchStep crypto e o t w x = some w') : Watched crypto e o t w x w' := by
  cases x with
  | server l =>
    obtain ⟨hat, h⟩ := Option.ite_none_right_eq_some.mp h
    obtain ⟨s, hs, rfl⟩ := Option.map_eq_some_iff.mp h
    exact .server hat hs
  | tick now =>
    obtain ⟨hle, heq⟩ := Option.ite_none_right_eq_some.mp h
    obtain rfl := Option.some.inj heq
    exact .tick hle
  | wake order =>
    simp only [watchStep] at h
    split at h
    next hphase =>
      obtain ⟨⟨hdue, horder⟩, heq⟩ := Option.ite_none_right_eq_some.mp h
      obtain rfl := Option.some.inj heq
      exact .wake hphase hdue horder
    · cases h
  | look =>
    simp only [watchStep] at h
    split at h
    next hphase =>
      obtain rfl := Option.some.inj h
      exact .sleep hphase
    next c rest hphase =>
      obtain rfl := Option.some.inj h
      exact .look hphase
    · cases h
  | evict order =>
    simp only [watchStep] at h
    split at h
    next c rest hphase =>
      obtain ⟨s, hs, rfl⟩ := Option.map_eq_some_iff.mp h
      exact .evict hphase hs
    · cases h

theorem endpoint_of_close {s s' : State} (h : step crypto e o s (.endpoint (.close c) order) = some s') :
    (s.endpoint.sockets.lookup c).isSome ∧ s'.endpoint = (close s.endpoint c).1 := by
  obtain ⟨r, hr, hmap⟩ := Option.bind_eq_some_iff.mp h
  obtain ⟨work, -, rfl⟩ := Option.map_eq_some_iff.mp hmap
  obtain ⟨hsome, heq⟩ := Option.ite_none_right_eq_some.mp hr
  exact ⟨hsome, by rw [← Option.some.inj heq]⟩

/-! ### The last packet -/

/-- The time of the last packet for `c` in a run. -/
def lastPacket (c : Sock) (ls : List WatchLabel) : Option Int :=
  (ls.filterMap (fun x => match x with
    | .server l => packetTime c l
    | _ => none)).getLast?

theorem lastPacket_server (c : Sock) (ls : List WatchLabel) (l : Label) :
    lastPacket c (ls ++ [.server l]) = (packetTime c l).or (lastPacket c ls) := by
  unfold lastPacket
  rw [List.filterMap_append]
  cases hl : packetTime c l <;> simp [hl]

theorem lastPacket_other (hx : ∀ l, x ≠ .server l) (c : Sock) (ls : List WatchLabel) :
    lastPacket c (ls ++ [x]) = lastPacket c ls := by
  unfold lastPacket
  rw [List.filterMap_append]
  cases x with
  | server l => exact absurd rfl (hx l)
  | _ => simp

/-- The history of a connection, or of a socket for which there is none yet. -/
def Remembers (heard : Option Int) (s : Endpoint.State) (c : Sock) : Prop :=
  match s.sockets.lookup c with
  | none => heard = none
  | some conn => conn.lastSeen = heard.getD 0

theorem remembers_none (h : s.sockets.lookup c = none) : Remembers heard s c ↔ heard = none := by
  rw [Remembers, h]

theorem remembers_some (h : s.sockets.lookup c = some conn) :
    Remembers heard s c ↔ conn.lastSeen = heard.getD 0 := by
  rw [Remembers, h]

theorem Remembers.aged {arr : Sock → Option Int} (h : Remembers heard s c) (hs : Aged arr s s') :
    Remembers ((arr c).or heard) s' c := by
  cases hconn : s'.sockets.lookup c with
  | none =>
    have hbefore : s.sockets.lookup c = none := by
      by_contra hsome
      obtain ⟨conn, hsome⟩ := Option.ne_none_iff_exists'.mp hsome
      obtain ⟨conn', hkept⟩ := hs.kept c conn hsome
      cases hconn.symm.trans hkept
    have harr : arr c = none := by
      by_contra hne
      obtain ⟨conn, hsome⟩ := hs.known c hne
      cases hbefore.symm.trans hsome
    rw [remembers_none hconn, harr, Option.none_or]
    exact (remembers_none hbefore).mp h
  | some conn =>
    rw [remembers_some hconn]
    rcases hs.times c conn hconn with harr | ⟨harr, ⟨hnone, hzero⟩ | ⟨conn₀, hconn₀, hseen, -⟩⟩
    · rw [harr]
      rfl
    · rw [harr, Option.none_or, (remembers_none hnone).mp h, hzero]
      rfl
    · rw [harr, Option.none_or, hseen]
      exact (remembers_some hconn₀).mp h

/-- **Run.**  A connection carries the time of the last packet that came for it. -/
theorem remembers_run (hrun : run (watchStep crypto e o t) (watchStart t reservationTTL clock) ls = some w)
    (c : Sock) : Remembers (lastPacket c ls) w.server.endpoint c := by
  have hstart : Remembers (lastPacket c []) (watchStart t reservationTTL clock).server.endpoint c := rfl
  refine run_history (P := fun ls w => Remembers (lastPacket c ls) w.server.endpoint c) hstart
    (fun ls w x w' h hstep => ?_) hrun
  cases watched_of_step hstep with
  | server _ hserver =>
    rw [lastPacket_server]
    exact h.aged (aged_step hserver)
  | evict _ hclose =>
    rw [lastPacket_other (by simp)]
    exact h.aged (aged_step hclose)
  | _ =>
    rw [lastPacket_other (by simp)]
    exact h

/-! ### Eviction in time -/

/-- The loop is late by at most `late`: time goes on beyond the end of its sleep only that far before it sleeps
again. -/
def OnTime (late : Int) (w : Watch) : WatchLabel → Prop
  | .tick now => now ≤ w.due + late
  | _ => True

instance (late : Int) (w : Watch) (x : WatchLabel) : Decidable (OnTime late w x) := by
  cases x <;> unfold OnTime <;> infer_instance

/-- The connections that the reaper has still to deal with in this pass. -/
def Phase.left : Phase → List Sock
  | .sleeping => []
  | .passing rest => rest
  | .closing c rest => c :: rest

/-- A time of a last packet that is no reason to evict before the next pass. -/
structure Fresh (t : Timing) (late : Int) (w : Watch) (c : Sock) (lastSeen : Int) : Prop where
  pos : 0 < lastSeen
  bound : w.due ≤ lastSeen + t.maxIdle + t.sleep + late
  passed : w.phase ≠ .sleeping → c ∈ w.phase.left ∨ w.due < lastSeen + t.maxIdle

structure Timely (t : Timing) (late : Int) (w : Watch) : Prop where
  started : 0 < w.clock
  prompt : w.clock ≤ w.due + late
  slept : w.due ≤ w.clock + t.sleep
  woken : w.phase ≠ .sleeping → w.due ≤ w.clock
  known : ∀ id c, w.server.endpoint.connections.lookup id = some c →
    ∃ conn, w.server.endpoint.sockets.lookup c = some conn
  fresh : ∀ id c conn, w.server.endpoint.connections.lookup id = some c →
    w.server.endpoint.sockets.lookup c = some conn → conn.state ≠ .closed → Fresh t late w c conn.lastSeen

theorem Timing.sleep_nonneg (t : Timing) : 0 ≤ t.sleep := le_max_right _ _

theorem timely_start (hlate : 0 ≤ late) (hclock : 0 < clock) : Timely t late (watchStart t reservationTTL clock) where
  started := hclock
  prompt := by
    have hsleep := t.sleep_nonneg
    show clock ≤ clock + t.sleep + late
    omega
  slept := le_refl _
  woken := fun h => absurd rfl h
  known := by simp [watchStart, start, newEndpoint]
  fresh := by simp [watchStart, start, newEndpoint]

/-- A step of the server whose packets arrive now. -/
theorem Timely.aged {arr : Sock → Option Int} {s : State} (h : Timely t late w) (hidle : 0 < t.maxIdle)
    (hlate : 0 ≤ late) (hs : Aged arr w.server.endpoint s.endpoint)
    (harr : ∀ c time, arr c = some time → time = w.clock) : Timely t late { w with server := s } where
  started := h.started
  prompt := h.prompt
  slept := h.slept
  woken := h.woken
  known := by
    intro id c hid
    rcases hs.registered id c hid with hbefore | hne
    · obtain ⟨conn, hconn⟩ := h.known id c hbefore
      exact hs.kept c conn hconn
    · obtain ⟨conn, hconn⟩ := hs.known c hne
      exact hs.kept c conn hconn
  fresh := by
    intro id c conn hid hconn hopen
    rcases hs.times c conn hconn with hnow | ⟨hnone, htimes⟩
    · have hstarted := h.started
      have hslept := h.slept
      have hsleep := t.sleep_nonneg
      rw [harr c _ hnow]
      refine ⟨hstarted, ?_, fun hphase => .inr ?_⟩
      · show w.due ≤ w.clock + t.maxIdle + t.sleep + late
        omega
      · have hwoken : w.due ≤ w.clock := h.woken hphase
        show w.due < w.clock + t.maxIdle
        omega
    · have hbefore : w.server.endpoint.connections.lookup id = some c :=
        (hs.registered id c hid).resolve_right (fun hne => hne hnone)
      obtain ⟨conn₀, hconn₀⟩ := h.known id c hbefore
      rcases htimes with ⟨habsent, -⟩ | ⟨conn₁, hconn₁, hseen, hopen₁⟩
      · cases habsent.symm.trans hconn₀
      · have hfresh := h.fresh id c conn₁ hbefore hconn₁ (hopen₁ hopen)
        rw [hseen]
        exact ⟨hfresh.pos, hfresh.bound, hfresh.passed⟩

theorem packetTime_atTime {now time : Int} {l : Label} (hat : atTime now l = true)
    (h : packetTime c l = some time) : time = now := by
  cases l with
  | endpoint l order =>
    cases l with
    | packet c' p env =>
      obtain ⟨-, heq⟩ := Option.ite_none_right_eq_some.mp h
      exact (Option.some.inj heq).symm.trans (eq_of_beq hat)
    | _ => cases h
  | _ => cases h

/-- The reaper is about to close a connection that it found idle, or it passes over it. -/
theorem lookAt_cases (t : Timing) (now : Int) (s : Endpoint.State) (c : Sock) (rest : List Sock) :
    (lookAt t now s c rest = .closing c rest ∧ ∃ conn, s.sockets.lookup c = some conn ∧
        overdue t now conn = true) ∨
      (lookAt t now s c rest = .passing rest ∧ ∀ conn, s.sockets.lookup c = some conn →
        overdue t now conn = false) := by
  unfold lookAt
  split
  next hnone => exact .inr ⟨rfl, fun conn hconn => by cases hnone.symm.trans hconn⟩
  next conn hconn =>
    split
    next hover => exact .inl ⟨rfl, conn, hconn, hover⟩
    next hover =>
      refine .inr ⟨rfl, fun conn' hconn' => ?_⟩
      obtain rfl := Option.some.inj (hconn.symm.trans hconn')
      simpa using hover

theorem lt_of_not_overdue {now : Int} (hidle : 0 < t.maxIdle) (hpos : 0 < conn.lastSeen)
    (h : overdue t now conn = false) : now < conn.lastSeen + t.maxIdle := by
  unfold overdue idleFor at h
  rw [if_neg (by omega)] at h
  simp only [Bool.and_eq_false_iff, decide_eq_false_iff_not] at h
  omega

theorem Timely.look (h : Timely t late w) (hidle : 0 < t.maxIdle) (hphase : w.phase = .passing (c :: rest)) :
    Timely t late { w with phase := lookAt t w.clock w.server.endpoint c rest } := by
  have hwoken : w.due ≤ w.clock := h.woken (by rw [hphase]; nofun)
  refine ⟨h.started, h.prompt, h.slept, fun _ => hwoken, h.known, fun id c' conn hid hconn hopen => ?_⟩
  have hfresh := h.fresh id c' conn hid hconn hopen
  refine ⟨hfresh.pos, hfresh.bound, fun _ => ?_⟩
  have hpassed := hfresh.passed (by rw [hphase]; nofun)
  rw [hphase] at hpassed
  show c' ∈ (lookAt t w.clock w.server.endpoint c rest).left ∨ w.due < conn.lastSeen + t.maxIdle
  rcases lookAt_cases t w.clock w.server.endpoint c rest with ⟨heq, -⟩ | ⟨heq, hnot⟩
  · rw [heq]
    exact hpassed
  · rw [heq]
    rcases hpassed with hmem | hlt
    · rcases List.mem_cons.mp hmem with rfl | hmem
      · have hlt := lt_of_not_overdue hidle hfresh.pos (hnot conn hconn)
        exact .inr (by omega)
      · exact .inl hmem
    · exact .inr hlt

theorem Timely.evict {s : State} (h : Timely t late w) (hidle : 0 < t.maxIdle) (hlate : 0 ≤ late)
    (hphase : w.phase = .closing c rest) (hstep : step crypto e o w.server (.endpoint (.close c) order) = some s) :
    Timely t late { w with server := s, phase := .passing rest } := by
  have hwoken : w.due ≤ w.clock := h.woken (by rw [hphase]; nofun)
  have hclosed := h.aged hidle hlate (aged_step hstep) (fun _ _ => nofun)
  refine ⟨h.started, h.prompt, h.slept, fun _ => hwoken, hclosed.known, fun id c' conn hid hconn hopen => ?_⟩
  have hfresh := hclosed.fresh id c' conn hid hconn hopen
  refine ⟨hfresh.pos, hfresh.bound, fun _ => ?_⟩
  have hpassed := hfresh.passed (by rw [hphase]; nofun)
  rw [hphase] at hpassed
  rcases hpassed with hmem | hlt
  · rcases List.mem_cons.mp hmem with rfl | hmem
    · -- the connection that was closed is not open
      have hconn' : (close w.server.endpoint c').1.sockets.lookup c' = some conn :=
        (endpoint_of_close hstep).2 ▸ hconn
      obtain ⟨conn₀, hconn₀, -⟩ := (shrinks_close w.server.endpoint c').before hconn'
      rw [lookup_close hconn₀, if_pos rfl] at hconn'
      exact absurd (congrArg Connection.state (Option.some.inj hconn').symm) hopen
    · exact .inl hmem
  · exact .inr hlt

/-- **One step.** -/
theorem Timely.step (hidle : 0 < t.maxIdle) (hlate : 0 ≤ late) (hx : OnTime late w x) (h : Timely t late w)
    (hstep : watchStep crypto e o t w x = some w') : Timely t late w' := by
  have hsleep := t.sleep_nonneg
  cases watched_of_step hstep with
  | server hat hserver => exact h.aged hidle hlate (aged_step hserver) (fun _ _ => packetTime_atTime hat)
  | tick hle =>
    have hstarted := h.started
    have hslept := h.slept
    refine ⟨by simp only; omega, hx, by simp only; omega, fun hphase => (h.woken hphase).trans hle, h.known, ?_⟩
    intro id c conn hid hconn hopen
    have hfresh := h.fresh id c conn hid hconn hopen
    exact ⟨hfresh.pos, hfresh.bound, hfresh.passed⟩
  | wake hphase hdue horder =>
    refine ⟨h.started, h.prompt, h.slept, fun _ => hdue, h.known, fun id c conn hid hconn hopen => ?_⟩
    have hfresh := h.fresh id c conn hid hconn hopen
    exact ⟨hfresh.pos, hfresh.bound, fun _ => .inl ((mem_snapshotConns horder).mpr ⟨id, hid⟩)⟩
  | sleep hphase =>
    have hprompt := h.prompt
    refine ⟨h.started, by simp only; omega, le_refl _, fun hne => absurd rfl hne, h.known, ?_⟩
    intro id c conn hid hconn hopen
    have hfresh := h.fresh id c conn hid hconn hopen
    have hpassed := hfresh.passed (by rw [hphase]; nofun)
    rw [hphase] at hpassed
    have hlt : w.due < conn.lastSeen + t.maxIdle := hpassed.resolve_left List.not_mem_nil
    exact ⟨hfresh.pos, by simp only; omega, fun hne => absurd rfl hne⟩
  | look hphase => exact h.look hidle hphase
  | evict hphase hclose => exact h.evict hidle hlate hphase hclose

theorem maxIdle_pos {idleVar everyVar : Bytes} (h : startReaper idleVar everyVar = some t) : 0 < t.maxIdle := by
  obtain ⟨hpos, heq⟩ := Option.ite_none_left_eq_some.mp h
  obtain rfl := Option.some.inj heq
  exact Int.not_le.mp hpos

/-- **Run.**  While the loop is on time, open connections in the registry have been heard of lately. -/
theorem heard_of_run {idleVar everyVar : Bytes} {id : UInt32}
    (hreaper : startReaper idleVar everyVar = some t) (hclock : 0 < clock) (hlate : 0 ≤ late)
    (hrun : run (watchStep crypto e o t) (watchStart t reservationTTL clock) ls = some w)
    (hontime : Steps (watchStep crypto e o t) (OnTime late) (watchStart t reservationTTL clock) ls)
    (hid : w.server.endpoint.connections.lookup id = some c)
    (hconn : w.server.endpoint.sockets.lookup c = some conn) (hopen : conn.state ≠ .closed) :
    ∃ heard, lastPacket c ls = some heard ∧ w.clock ≤ heard + t.maxIdle + t.sleep + 2 * late := by
  have hidle := maxIdle_pos hreaper
  have htimely : Timely t late w :=
    run_invariant_of_steps (fun w x w' hx h hstep => h.step hidle hlate hx hstep) hontime
      (timely_start hlate hclock) hrun
  have hfresh := htimely.fresh id c conn hid hconn hopen
  have hseen := (remembers_some hconn).mp (remembers_run hrun c)
  have hpos := hfresh.pos
  have hbound := hfresh.bound
  have hprompt := htimely.prompt
  cases hlast : lastPacket c ls with
  | none =>
    rw [hlast] at hseen
    have hzero : conn.lastSeen = 0 := hseen
    omega
  | some heard =>
    rw [hlast] at hseen
    have hheard : conn.lastSeen = heard := hseen
    exact ⟨heard, rfl, by omega⟩

/-- **Silence ends a connection.**  While the loop is never late by more than `late`, a connection whose last packet
is more than `maxIdle`, one sleep and twice `late` ago is closed, wherever the registry still has it; whatever the
consoles, the transport, the handlers and the administrator do in the meantime. -/
theorem evicted_in_time {idleVar everyVar : Bytes}
    (hreaper : startReaper idleVar everyVar = some t) (hclock : 0 < clock) (hlate : 0 ≤ late)
    (hrun : run (watchStep crypto e o t) (watchStart t reservationTTL clock) ls = some w)
    (hontime : Steps (watchStep crypto e o t) (OnTime late) (watchStart t reservationTTL clock) ls)
    (hsilent : ∀ heard, lastPacket c ls = some heard → heard + t.maxIdle + t.sleep + 2 * late < w.clock) :
    ∀ id conn, w.server.endpoint.connections.lookup id = some c →
      w.server.endpoint.sockets.lookup c = some conn → conn.state = .closed := by
  intro id conn hid hconn
  by_contra hopen
  obtain ⟨heard, hlast, hle⟩ := heard_of_run hreaper hclock hlate hrun hontime hid hconn hopen
  have hlt := hsilent heard hlast
  omega

/-! ### Only silent connections -/

/-- The reaper looked at `c` in the run, found that the last packet of `c` was `maxIdle` ago, and has done nothing
since. -/
def FoundSilent (crypto : Crypto) (e : Config) (o : Options) (t : Timing) (w₀ : Watch) (c : Sock)
    (ls : List WatchLabel) : Prop :=
  ∃ before after w heard, ls = before ++ .look :: after ∧ run (watchStep crypto e o t) w₀ before = some w ∧
    lastPacket c before = some heard ∧ heard + t.maxIdle ≤ w.clock ∧
    ∀ x ∈ after, (∃ l, x = .server l) ∨ ∃ now, x = .tick now

theorem FoundSilent.snoc {w₀ : Watch} (h : FoundSilent crypto e o t w₀ c ls)
    (hx : (∃ l, x = .server l) ∨ ∃ now, x = .tick now) : FoundSilent crypto e o t w₀ c (ls ++ [x]) := by
  obtain ⟨before, after, w, heard, rfl, hw, hlast, hle, hafter⟩ := h
  refine ⟨before, after ++ [x], w, heard, by rw [List.append_assoc]; rfl, hw, hlast, hle, fun y hy => ?_⟩
  rcases List.mem_append.mp hy with hy | hy
  · exact hafter y hy
  · exact List.mem_singleton.mp hy ▸ hx

theorem heard_of_overdue {now : Int} (h : overdue t now conn = true) :
    conn.lastSeen ≠ 0 ∧ conn.lastSeen + t.maxIdle ≤ now := by
  unfold overdue idleFor at h
  simp only [Bool.and_eq_true, decide_eq_true_eq] at h
  split at h <;> omega

/-- **Run.**  Whenever the reaper is about to close a connection, it has found it silent. -/
theorem foundSilent_of_run (hrun : run (watchStep crypto e o t) (watchStart t reservationTTL clock) ls = some w)
    (hphase : w.phase = .closing c rest) :
    FoundSilent crypto e o t (watchStart t reservationTTL clock) c ls := by
  have hstart : run (watchStep crypto e o t) (watchStart t reservationTTL clock) [] =
      some (watchStart t reservationTTL clock) ∧
    ∀ c rest, (watchStart t reservationTTL clock).phase = .closing c rest →
      FoundSilent crypto e o t (watchStart t reservationTTL clock) c [] := ⟨rfl, nofun⟩
  refine (run_history
    (P := fun ls w => run (watchStep crypto e o t) (watchStart t reservationTTL clock) ls = some w ∧
      ∀ c rest, w.phase = .closing c rest → FoundSilent crypto e o t (watchStart t reservationTTL clock) c ls)
    hstart (fun ls w x w' h hstep => ⟨run_snoc_some.mpr ⟨w, h.1, hstep⟩, ?_⟩) hrun).2 c rest hphase
  intro c rest hphase'
  cases watched_of_step hstep with
  | server _ _ => exact (h.2 c rest hphase').snoc (.inl ⟨_, rfl⟩)
  | tick _ => exact (h.2 c rest hphase').snoc (.inr ⟨_, rfl⟩)
  | wake _ _ _ => cases hphase'
  | sleep _ => cases hphase'
  | @look c₁ rest₁ hphase =>
    rcases lookAt_cases t w.clock w.server.endpoint c₁ rest₁ with ⟨heq, conn, hconn, hover⟩ | ⟨heq, -⟩
    · obtain ⟨rfl, rfl⟩ := Phase.closing.inj (heq.symm.trans hphase')
      obtain ⟨hne, hle⟩ := heard_of_overdue hover
      have hseen := (remembers_some hconn).mp (remembers_run h.1 c₁)
      cases hlast : lastPacket c₁ ls with
      | none =>
        rw [hlast] at hseen
        exact absurd hseen hne
      | some heard =>
        rw [hlast] at hseen
        have hheard : conn.lastSeen = heard := hseen
        exact ⟨ls, [], w, heard, rfl, h.1, hlast, hheard ▸ hle, by simp⟩
    · cases heq.symm.trans hphase'
  | evict _ _ => cases hphase'

/-- **Only the silent are evicted.**  The reaper closes `c` only if `c` had sent nothing for `maxIdle` when the
reaper looked at it, and no other connection is touched by that.  What comes between the look and the close does not
count: `c` is closed then. -/
theorem evicted_only_silent {order : Sock → List UInt32}
    (hrun : run (watchStep crypto e o t) (watchStart t reservationTTL clock) ls = some w)
    (hevict : watchStep crypto e o t w (.evict order) = some w') :
    ∃ c rest, w.phase = .closing c rest ∧ FoundSilent crypto e o t (watchStart t reservationTTL clock) c ls ∧
      (∃ conn, w'.server.endpoint.sockets.lookup c = some conn ∧ conn.state = .closed) ∧
      ∀ c', c' ≠ c → w'.server.endpoint.sockets.lookup c' = w.server.endpoint.sockets.lookup c' := by
  cases watched_of_step hevict with
  | @evict c rest _ s hphase hstep =>
    obtain ⟨hsome, hendpoint⟩ := endpoint_of_close hstep
    obtain ⟨conn, hconn⟩ := Option.isSome_iff_exists.mp hsome
    refine ⟨c, rest, hphase, foundSilent_of_run hrun hphase, ⟨{ conn with state := .closed }, ?_, rfl⟩,
      fun c' hne => ?_⟩
    · rw [hendpoint, lookup_close hconn, if_pos rfl]
    · rw [hendpoint]
      exact lookup_close_of_ne hne

/-! ### A player that falls silent -/

example : startReaper [] [] = some ⟨600000000000, 60000000000⟩ := by decide

/-- A second of silence is too much, and the reaper looks every second. -/
def impatient : Timing := ⟨1000000000, 1000000000⟩

/-- The player 7 opens a session and falls silent; a second later the reaper finds the connection idle. -/
def silentTrace : List WatchLabel :=
  (lobbySteps.map WatchLabel.server) ++ [.tick 1000000001, .wake [1], .look]

/-- The reaper goes on, closes the connection and sleeps, and looks again. -/
def evictedTrace : List WatchLabel :=
  silentTrace ++ [.evict fun _ => [1], .look, .tick 2000000001, .wake [], .look, .tick 2000000002]

theorem evicted_in_time_trace : ∃ w,
    run (watchStep plainCrypto plainEndpoint plainOptions impatient) (watchStart impatient 8 1) evictedTrace =
        some w ∧
      ∀ id conn, w.server.endpoint.connections.lookup id = some 0 →
        w.server.endpoint.sockets.lookup 0 = some conn → conn.state = .closed := by
  have hreaper : startReaper [49] [49] = some impatient := by decide
  have hontime : Steps (watchStep plainCrypto plainEndpoint plainOptions impatient) (OnTime 0)
      (watchStart impatient 8 1) evictedTrace := by decide +kernel
  have hrun : ∃ w, run (watchStep plainCrypto plainEndpoint plainOptions impatient) (watchStart impatient 8 1)
      evictedTrace = some w ∧ w.clock = 2000000002 := ⟨_, rfl, rfl⟩
  obtain ⟨w, hrun, hclock⟩ := hrun
  have hlast : lastPacket 0 evictedTrace = some 1 := by decide +kernel
  refine ⟨w, hrun, evicted_in_time hreaper (by decide) (le_refl 0) hrun hontime (fun heard hheard => ?_)⟩
  obtain rfl := Option.some.inj (hlast.symm.trans hheard)
  rw [hclock]
  decide

/-- A ping of the player arrives after the reaper has found the connection idle. -/
def lateTrace : List WatchLabel :=
  silentTrace ++ [.server (early (.packet 0 { type := PacketType.ping }
    { recallEnv 7 with now := 1000000001 }))]

theorem evicted_only_silent_trace : ∃ w w',
    run (watchStep plainCrypto plainEndpoint plainOptions impatient) (watchStart impatient 8 1) lateTrace =
        some w ∧
      watchStep plainCrypto plainEndpoint plainOptions impatient w (.evict fun _ => [1]) = some w' ∧
      lastPacket 0 lateTrace = some w.clock ∧
      ∃ rest, w.phase = .closing 0 rest ∧ FoundSilent plainCrypto plainEndpoint plainOptions impatient
        (watchStart impatient 8 1) 0 lateTrace ∧
        ∃ conn, w'.server.endpoint.sockets.lookup 0 = some conn ∧ conn.state = .closed := by
  have hruns : ∃ w w', run (watchStep plainCrypto plainEndpoint plainOptions impatient)
        (watchStart impatient 8 1) lateTrace = some w ∧
      watchStep plainCrypto plainEndpoint plainOptions impatient w (.evict fun _ => [1]) = some w' ∧
      w.clock = 1000000001 ∧ w.phase = .closing 0 [] := ⟨_, _, rfl, rfl, rfl, rfl⟩
  obtain ⟨w, w', hrun, hevict, hclock, hclosing⟩ := hruns
  have hlast : lastPacket 0 lateTrace = some 1000000001 := by decide +kernel
  obtain ⟨c, rest, hphase, hfound, hclosed, -⟩ := evicted_only_silent hrun hevict
  obtain ⟨rfl, rfl⟩ := Phase.closing.inj (hclosing.symm.trans hphase)
  exact ⟨w, w', hrun, hevict, hclock ▸ hlast, [], hphase, hfound, hclosed⟩

end NextendoMatchmaking.Server.Reaper
