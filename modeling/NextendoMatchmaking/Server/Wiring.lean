import NextendoMatchmaking.Endpoint.DispatchGate
import NextendoMatchmaking.Matchmaking.Changes

/-!
# The wired server

The secure endpoint and the gathering store as `server/main.go` puts them together: requests to the three
matchmaking protocols go to the handlers of the store, and `OnDisconnect` calls `RemovePlayer` with the PID
of the connection.

A handler runs for a while.  It is called by the packet that completes its request (`Call`), it runs its
critical section once, or not at all where a retry is answered from memory, and then its response is sent.
Between these three steps anything else can happen, also on the same connection: the transport hands the
packets of a socket to several goroutines.  What handlers push to other connections is left out; it changes
neither the registry nor the id, PID or state of a connection.

* `step` — one step of the server;
* `store_reachable` — at the store, a run of the server is a run of the store;
* `wired_moves` — the rule for properties of the endpoint and the store, move by move.
-/

namespace NextendoMatchmaking.Server

open NextendoMatchmaking.Endpoint NextendoMatchmaking.Matchmaking NextendoMatchmaking.Runs

/-! ### State -/

/-- A matchmaking handler in progress; `ran` says that its critical section is over. -/
structure Call where
  c : Sock
  service : Service
  req : RMCMessage
  ran : Bool

structure State where
  endpoint : Endpoint.State
  store : Store
  calls : List Call

/-- The server when it starts to listen, with the reservation time it was configured with. -/
def start (reservationTTL : Int) : State :=
  ⟨newEndpoint, setJoinReservationTTL reservationTTL newMatchmaking, []⟩

/-- The protocols that `main` registers with the handlers of the store. -/
def serviceOf (protocol : UInt16) : Option Service :=
  if protocol = protocolMatchmakeExtension then some .extension
  else if protocol = protocolMatchMaking then some .matchMaking
  else if protocol = protocolMatchMakingExt then some .matchMakingExt
  else none

/-- The secure endpoint of `main`: secure connection, the three matchmaking protocols, NAT traversal,
ranking and utility. -/
def secureEndpoint (settings : Settings) (secureKey : Bytes) : Config where
  settings := settings
  secure := true
  secureKey := secureKey
  handlers :=
    [0x0B, protocolMatchmakeExtension, protocolMatchMaking, protocolMatchMakingExt, 0x03, 0x70, 0x6E]
  fallbackHandler := false
  customPacketHandlers := []

/-! ### Steps -/

inductive Label
  /-- A step of the endpoint, with the order in which the `RemovePlayer` of a closed connection visits the
  gatherings. -/
  | endpoint (l : Endpoint.Label) (order : Sock → List UInt32)
  /-- The critical section of the `i`-th call. -/
  | handle (i : ℕ) (env : Env)
  /-- The `i`-th call ends, and its response is sent. -/
  | finish (i : ℕ) (response : Option RMCMessage)

/-- The handlers of the store answer later, when they finish. -/
def deferred : Endpoint.Label → Endpoint.Label
  | .packet c p env => .packet c p { env with
      answer := fun req => if (serviceOf req.protocol).isSome then none else env.answer req }
  | l => l

/-- What `main` has the endpoint do: `OnDisconnect` removes the player, and a matchmaking request starts a
call. -/
def hook (o : Options) (order : Sock → List UInt32) (w : Store × List Call) :
    Effect → Option (Store × List Call)
  | .onDisconnect c pid => (Matchmaking.step o w.1 (.removePlayer pid (order c))).map (fun m => (m, w.2))
  | .invoke c _ req =>
    match serviceOf req.protocol with
    | none => some w
    | some service => some (w.1, w.2 ++ [⟨c, service, req, false⟩])
  | _ => some w

/-- The connection after the response was sent on it. -/
def respond (e : Config) (c : Sock) (conn : Connection) : Option RMCMessage → Connection
  | none => conn
  | some resp => (sendRMC e.settings c conn resp).1

/-- One step of the server. -/
def step (crypto : Crypto) (e : Config) (o : Options) (s : State) : Label → Option State
  | .endpoint l order =>
    (exec crypto e s.endpoint (deferred l)).bind (fun r =>
      (r.2.foldlM (hook o order) (s.store, s.calls)).map (fun w => ⟨r.1, w.1, w.2⟩))
  | .handle i env =>
    match s.calls[i]? with
    | none => none
    | some call =>
      match s.endpoint.sockets.lookup call.c with
      | none => none
      | some conn =>
        if call.ran then none
        else
          (Matchmaking.step o s.store (.request call.service ⟨conn.pid, conn.id⟩ call.req env)).map
            (fun store => { s with store, calls := s.calls.set i { call with ran := true } })
  | .finish i response =>
    match s.calls[i]? with
    | none => none
    | some call =>
      match s.endpoint.sockets.lookup call.c with
      | none => none
      | some conn => some { s with
          endpoint := s.endpoint.set call.c (respond e call.c conn response)
          calls := s.calls.eraseIdx i }

variable {crypto : Crypto} {e : Config} {o : Options} {s s' : State}

/-! ### What the hooks do to the store -/

section Hooks

variable {order : Sock → List UInt32} {w w' : Store × List Call} {effects : List Effect}

/-- Nothing in `effects` is a disconnect. -/
def NoDisconnect (effects : List Effect) : Prop := ∀ c pid, .onDisconnect c pid ∉ effects

theorem hook_store {x : Effect} (hx : ∀ c pid, x ≠ .onDisconnect c pid) (h : hook o order w x = some w') :
    w'.1 = w.1 := by
  cases x with
  | onDisconnect c pid => exact absurd rfl (hx c pid)
  | invoke c conn req =>
    simp only [hook] at h
    split at h
    · cases h
      rfl
    · cases h
      rfl
  | _ =>
    cases h
    rfl

theorem hooks_store (hquiet : NoDisconnect effects) (h : effects.foldlM (hook o order) w = some w') :
    w'.1 = w.1 := by
  induction effects generalizing w with
  | nil =>
    cases h
    rfl
  | cons x effects ih =>
    rw [List.foldlM_cons] at h
    obtain ⟨w₁, h₁, hrest⟩ := Option.bind_eq_some_iff.mp h
    have htail : NoDisconnect effects := fun c pid hmem => hquiet c pid (List.mem_cons_of_mem _ hmem)
    have hhead : ∀ c pid, x ≠ .onDisconnect c pid := by
      intro c pid heq
      exact hquiet c pid (heq ▸ List.mem_cons_self)
    exact (ih htail hrest).trans (hook_store hhead h₁)

/-- Effects that end in a disconnect. -/
theorem hooks_disconnect {c : Sock} {pid : UInt64} (hquiet : NoDisconnect effects)
    (h : (effects ++ [Effect.onDisconnect c pid]).foldlM (hook o order) w = some w') :
    Matchmaking.step o w.1 (.removePlayer pid (order c)) = some w'.1 := by
  rw [List.foldlM_append] at h
  obtain ⟨w₁, h₁, hlast⟩ := Option.bind_eq_some_iff.mp h
  rw [List.foldlM_cons] at hlast
  obtain ⟨w₂, h₂, hnil⟩ := Option.bind_eq_some_iff.mp hlast
  obtain ⟨m, hm, rfl⟩ := Option.map_eq_some_iff.mp h₂
  cases hnil
  rw [← hooks_store hquiet h₁]
  exact hm

theorem reachable_hooks (hw : Reachable (Matchmaking.step o) newMatchmaking w.1)
    (h : effects.foldlM (hook o order) w = some w') :
    Reachable (Matchmaking.step o) newMatchmaking w'.1 := by
  induction effects generalizing w with
  | nil =>
    cases h
    exact hw
  | cons x effects ih =>
    rw [List.foldlM_cons] at h
    obtain ⟨w₁, h₁, hrest⟩ := Option.bind_eq_some_iff.mp h
    refine ih ?_ hrest
    by_cases hx : ∃ c pid, x = .onDisconnect c pid
    · obtain ⟨c, pid, rfl⟩ := hx
      obtain ⟨m, hm, rfl⟩ := Option.map_eq_some_iff.mp h₁
      exact reachable_step hw hm
    · have hother : ∀ c pid, x ≠ .onDisconnect c pid := fun c pid heq => hx ⟨c, pid, heq⟩
      rw [hook_store hother h₁]
      exact hw

end Hooks

/-! ### The store of a run -/

theorem store_step {l : Label} (hs : Reachable (Matchmaking.step o) newMatchmaking s.store)
    (h : step crypto e o s l = some s') : Reachable (Matchmaking.step o) newMatchmaking s'.store := by
  cases l with
  | endpoint l order =>
    obtain ⟨r, -, hmap⟩ := Option.bind_eq_some_iff.mp h
    obtain ⟨w, hw, rfl⟩ := Option.map_eq_some_iff.mp hmap
    exact reachable_hooks hs hw
  | handle i env =>
    simp only [step] at h
    split at h
    · cases h
    · split at h
      · cases h
      · split at h
        · cases h
        · obtain ⟨store, hstore, rfl⟩ := Option.map_eq_some_iff.mp h
          exact reachable_step hs hstore
  | finish i response =>
    simp only [step] at h
    split at h
    · cases h
    · split at h
      · cases h
      · cases h
        exact hs

/-- **The store of the server runs as it does alone.**  Whatever the endpoint does, the store is in a state
that its own operations reach, so that every invariant of its runs holds in the server. -/
theorem store_reachable {reservationTTL : Int} {ls : List Label}
    (h : run (step crypto e o) (start reservationTTL) ls = some s) :
    Reachable (Matchmaking.step o) newMatchmaking s.store := by
  have hstart : Reachable (Matchmaking.step o) newMatchmaking (start reservationTTL).store :=
    ⟨[.setJoinReservationTTL reservationTTL], rfl⟩
  exact run_invariant (P := fun s : State => Reachable (Matchmaking.step o) newMatchmaking s.store)
    (fun _ _ _ hs hstep => store_step hs hstep) hstart h

/-! ### Moves of the endpoint under the hooks -/

/-- **Rule for steps of the endpoint.**  A property of the endpoint and the store that every move keeps,
with a `RemovePlayer` after every close. -/
theorem wired_moves {P : Endpoint.State → Store → Prop} {s₀ : Endpoint.State} {l : Endpoint.Label}
    {order : Sock → List UInt32}
    (hquiet : ∀ {t effects t' m}, P t m → Move crypto e s₀ l t effects t' → NoDisconnect effects → P t' m)
    (hshut : ∀ {t c conn m m'}, P t m → t.sockets.lookup c = some conn → conn.state ≠ .closed →
      Matchmaking.step o m (.removePlayer conn.pid (order c)) = some m' →
      P (unregisterConnection (t.set c { conn with state := .closed }) conn) m')
    {t t' : Endpoint.State} {effects : List Effect} {w w' : Store × List Call} (hP : P t w.1)
    (h : Moves crypto e s₀ l t effects t') (hw : effects.foldlM (hook o order) w = some w') : P t' w'.1 := by
  induction h generalizing w with
  | nil =>
    cases hw
    exact hP
  | @cons _ _ _ effects _ m _ ih =>
    rw [List.foldlM_append] at hw
    obtain ⟨w₁, h₁, hrest⟩ := Option.bind_eq_some_iff.mp hw
    refine ih ?_ hrest
    cases m with
    | accept hfresh =>
      have hnone : NoDisconnect [] := nofun
      rw [hooks_store hnone h₁]
      exact hquiet hP (.accept hfresh) hnone
    | touch hconn hsame hq =>
      have hnone : NoDisconnect effects := by
        intro c pid hmem
        cases hq _ hmem
      rw [hooks_store hnone h₁]
      exact hquiet hP (.touch hconn hsame hq) hnone
    | @connect c _ _ _ conn' ack hl hp hconn hacc =>
      have hnone : NoDisconnect [.send c ack.encode, .onConnect c conn'.pid] := by
        intro c pid hmem
        simp at hmem
      rw [hooks_store hnone h₁]
      exact hquiet hP (.connect hl hp hconn hacc) hnone
    | @shut _ c conn hconn hopen =>
      have hnone : NoDisconnect [] := nofun
      exact hshut hP hconn hopen (hooks_disconnect hnone h₁)

/-! ### Small runs -/

/-- The secure endpoint with the settings for which `connectPacket` is signed. -/
def plainEndpoint : Config := secureEndpoint secureConfig.settings []

/-- A step of the endpoint while there are no gatherings. -/
def early (l : Endpoint.Label) : Label := .endpoint l (fun _ => [])

/-- `pid` connects through the socket `c`. -/
def connectSteps (c : Sock) (pid : UInt64) : List Label :=
  [early (.accept c .other), early (.packet c (connectPacket []) (recallEnv pid))]

/-- The player on `c` creates the first session. -/
def createSteps (c : Sock) (pid : UInt64) : List Label :=
  [early (.packet c (requestPacket (createRequest 4)) (recallEnv pid)), .handle 0 (quietEnv 0 []),
    .finish 0 none]

end NextendoMatchmaking.Server
