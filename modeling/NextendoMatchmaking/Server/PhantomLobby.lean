import NextendoMatchmaking.Server.Wiring

/-!
# Lobbies without players

`OnDisconnect` is there so that no gathering keeps a player who is gone.  It works when the player takes its
seat before the connection is closed, and under the PID that the connection has when it is closed.  A handler
in progress does not notice the close: its critical section seats a player that has just been removed, and
nobody removes it again.  And a `CONNECT` on a connected socket gives the connection another PID, so that the
seats of the old one are never given up (`phantom_lobby`).

These are the only ways.  If sections that seat their caller run while its PID is non-zero and has a
registered connection, and a `CONNECT` takes a connection away from a PID only if that PID has another or no
seat, then every participant of every gathering has a registered connection (`no_phantom_lobby`).
-/

namespace NextendoMatchmaking.Server

open NextendoMatchmaking.Endpoint NextendoMatchmaking.Matchmaking NextendoMatchmaking.Runs

/-- `p` has a registered connection. -/
def Online (t : Endpoint.State) (p : UInt64) : Prop :=
  ∃ id c conn, t.connections.lookup id = some c ∧ t.sockets.lookup c = some conn ∧ conn.pid = p

/-- `p` has a registered connection other than `c`. -/
def OnlineElsewhere (t : Endpoint.State) (c : Sock) (p : UInt64) : Prop :=
  ∃ id c' conn, t.connections.lookup id = some c' ∧ c' ≠ c ∧ t.sockets.lookup c' = some conn ∧ conn.pid = p

/-- `p` takes part in a gathering. -/
def Seated (m : Store) (p : UInt64) : Prop := ∃ gid, SitsIn m p gid

/-- The condition on the steps of a run. -/
structure Attended (crypto : Crypto) (e : Config) (s : State) (l : Label) : Prop where
  /-- A section that can seat its caller runs while the PID of the caller is there. -/
  handle : ∀ i env call conn, l = .handle i env → s.calls[i]? = some call →
    s.endpoint.sockets.lookup call.c = some conn → Joins call.service call.req →
    conn.pid ≠ 0 ∧ Online s.endpoint conn.pid
  /-- An accepted `CONNECT` gets an id that is not in use, and leaves no seat behind. -/
  connect : ∀ c p env order conn conn' ack, l = .endpoint (.packet c p env) order → AsksToConnect p →
    s.endpoint.sockets.lookup c = some conn →
    acceptCONNECT crypto e env { conn with lastSeen := env.now } p = some (conn', ack) →
    s.endpoint.connections.lookup (s.endpoint.connCounter + 1) = none ∧
      (conn'.pid = conn.pid ∨ ¬ Seated s.store conn.pid ∨ OnlineElsewhere s.endpoint c conn.pid)

/-! ### Who takes part after an operation -/

section Seats

variable {o : Options} {m m' : Store} {p : UInt64}

/-- A change to a gathering brings in nobody but a caller that joins. -/
theorem participants_touch {ttl : Int} {gid : UInt32} {service : Service} {conn : Caller}
    {req : RMCMessage} {env : Env} {Q : UInt64 → Prop} (hjoin : Joins service req → Q conn.pid)
    {g g' : GatheringEntry} (hg : ∀ q ∈ g.participants, Q q)
    (t : Touch o ttl gid (.request service conn req env) g g') : ∀ q ∈ g'.participants, Q q := by
  intro q hq
  rcases mem_touch t hq with hq | ⟨_, _, _, _, he, hj, -, hpid⟩
  · exact hg q hq
  · cases he
    rw [hpid]
    exact hjoin hj

/-- A request seats nobody but its caller, and only if it is one of those that join. -/
theorem seated_request {service : Service} {conn : Caller} {req : RMCMessage} {env : Env}
    (h : Matchmaking.step o m (.request service conn req env) = some m') (hp : Seated m' p) :
    Seated m p ∨ (Joins service req ∧ p = conn.pid) := by
  obtain ⟨gid, g', hg', hmem⟩ := hp
  have htouch : ∀ {g g₁ : GatheringEntry},
      (∀ q ∈ g.participants, Seated m q ∨ (Joins service req ∧ q = conn.pid)) →
      Touch o m.reservationTTL gid (.request service conn req env) g g₁ →
      ∀ q ∈ g₁.participants, Seated m q ∨ (Joins service req ∧ q = conn.pid) :=
    fun hg t => participants_touch (fun hj => .inr ⟨hj, rfl⟩) hg t
  cases (step_described h).change gid with
  | @kept g g₁ hg h₁ t _ =>
    obtain rfl := Option.some.inj (hg'.symm.trans h₁)
    exact touches_keep htouch (fun q hq => .inl ⟨gid, g, hg, hq⟩) t p hmem
  | gone h₁ _ =>
    rw [h₁] at hg'
    cases hg'
  | fresh he hj _ _ h₁ t =>
    cases he
    obtain rfl := Option.some.inj (hg'.symm.trans h₁)
    refine touches_keep htouch (fun q hq => .inr ⟨hj, ?_⟩) t p hmem
    exact List.mem_singleton.mp hq

/-- After `RemovePlayer` a PID other than 0 has no seat, and nobody has a new one. -/
theorem seated_removePlayer {pid : UInt64} {order : List UInt32}
    (h : Matchmaking.step o m (.removePlayer pid order) = some m') (hp : Seated m' p) :
    Seated m p ∧ (pid ≠ 0 → p ≠ pid) := by
  obtain ⟨gid, g', hg', hmem⟩ := hp
  simp only [Matchmaking.step] at h
  split at h
  · rename_i horder
    cases h
    by_cases hpid : pid = 0
    · rw [removePlayer, if_pos hpid] at hg'
      exact ⟨⟨gid, g', hg', hmem⟩, fun hne => absurd hpid hne⟩
    · obtain ⟨hne, g, hg, hmem'⟩ := mem_removePlayer hpid horder hg' hmem
      exact ⟨⟨gid, g, hg, hmem'⟩, fun _ => hne⟩
  · cases h

end Seats

/-! ### Who is online after a move -/

section Presence

variable {t : Endpoint.State} {c : Sock} {conn conn' : Connection} {p : UInt64}

theorem OnlineElsewhere.set (h : OnlineElsewhere t c p) : Online (t.set c conn') p := by
  obtain ⟨id, c', conn, hid, hne, hconn, hp⟩ := h
  exact ⟨id, c', conn, hid, by rw [lookup_set, if_neg hne, hconn], hp⟩

/-- A PID is online elsewhere, or it is the PID of `c`. -/
theorem online_cases (h : Online t p) (hconn : t.sockets.lookup c = some conn) :
    OnlineElsewhere t c p ∨ p = conn.pid := by
  obtain ⟨id, c', conn', hid, hconn', hp⟩ := h
  by_cases hc : c' = c
  · subst hc
    obtain rfl := Option.some.inj (hconn.symm.trans hconn')
    exact .inr hp.symm
  · exact .inl ⟨id, c', conn', hid, hc, hconn', hp⟩

theorem online_set_same (h : Online t p) (hconn : t.sockets.lookup c = some conn)
    (hpid : conn'.pid = conn.pid) : Online (t.set c conn') p := by
  obtain ⟨id, c', conn₁, hid, hconn₁, hp⟩ := h
  by_cases hc : c' = c
  · subst hc
    obtain rfl := Option.some.inj (hconn.symm.trans hconn₁)
    exact ⟨id, _, conn', hid, (lookup_set _ _ _ _).trans (if_pos rfl), hpid.trans hp⟩
  · exact ⟨id, c', conn₁, hid, by rw [lookup_set, if_neg hc, hconn₁], hp⟩

/-- Registering under an id that is not in use takes no entry away. -/
theorem online_register (hfree : t.connections.lookup (t.connCounter + 1) = none)
    (h : Online (t.set c { conn with id := t.connCounter + 1 }) p) :
    Online (registerConnection t c conn) p := by
  obtain ⟨id, c', conn', hid, hconn', hp⟩ := h
  refine ⟨id, c', conn', ?_, hconn', hp⟩
  have hne : id ≠ t.connCounter + 1 := by
    intro heq
    rw [heq, connections_set, hfree] at hid
    cases hid
  show (t.connections.insert (t.connCounter + 1) c).lookup id = some c'
  rw [GoMap.lookup_insert_eq, if_neg hne]
  exact hid

/-! ### The invariant -/

/-- Whoever has a seat is online, and open connections are registered under their ids. -/
structure LobbyInv (t : Endpoint.State) (m : Store) : Prop where
  present : ∀ p, Seated m p → p ≠ 0 ∧ Online t p
  registered : ∀ c conn, t.sockets.lookup c = some conn → conn.state ≠ .closed → conn.id ≠ 0 →
    t.connections.lookup conn.id = some c

variable {m m' : Store}

theorem lobbyInv_start (reservationTTL : Int) :
    LobbyInv (start reservationTTL).endpoint (start reservationTTL).store where
  present := by
    intro p hex
    obtain ⟨gid, g, hg, -⟩ := hex
    simp [start, setJoinReservationTTL, newMatchmaking] at hg
  registered := by
    intro c conn hconn
    simp [start, newEndpoint] at hconn

/-- A write that keeps id, PID and state. -/
theorem lobbyInv_touch (hi : LobbyInv t m) (hconn : t.sockets.lookup c = some conn)
    (hsame : SameIdentity conn conn') : LobbyInv (t.set c conn') m := by
  refine ⟨fun p hp => ?_, fun c' conn₁ hconn₁ hopen hid => ?_⟩
  · obtain ⟨hne, honline⟩ := hi.present p hp
    exact ⟨hne, online_set_same honline hconn hsame.pid⟩
  · rcases lookup_set_cases hconn₁ with ⟨rfl, rfl⟩ | ⟨-, hold⟩
    · rw [connections_set, hsame.id]
      rw [hsame.id] at hid
      rw [hsame.state] at hopen
      exact hi.registered _ conn hconn hopen hid
    · exact hi.registered c' conn₁ hold hopen hid

theorem lobbyInv_accept {remoteAddr : RemoteAddr} (hi : LobbyInv t m) (hfresh : t.sockets.lookup c = none) :
    LobbyInv (t.set c (newConnection remoteAddr)) m := by
  refine ⟨fun p hp => ?_, fun c' conn₁ hconn₁ hopen hid => ?_⟩
  · obtain ⟨hne, id, c', conn₁, hid, hconn₁, hpid⟩ := hi.present p hp
    have hc : c' ≠ c := by
      intro heq
      subst heq
      rw [hfresh] at hconn₁
      cases hconn₁
    exact ⟨hne, id, c', conn₁, hid, by rw [lookup_set, if_neg hc, hconn₁], hpid⟩
  · rcases lookup_set_cases hconn₁ with ⟨-, rfl⟩ | ⟨-, hold⟩
    · exact absurd rfl hid
    · exact hi.registered c' conn₁ hold hopen hid

theorem lobbyInv_connect (hi : LobbyInv t m) (hconn : t.sockets.lookup c = some conn)
    (hfree : t.connections.lookup (t.connCounter + 1) = none)
    (hleft : conn'.pid = conn.pid ∨ ¬ Seated m conn.pid ∨ OnlineElsewhere t c conn.pid) :
    LobbyInv (registerConnection t c conn') m := by
  refine ⟨fun p hp => ?_, fun c' conn₁ hconn₁ hopen hid => ?_⟩
  · obtain ⟨hne, honline⟩ := hi.present p hp
    refine ⟨hne, online_register hfree ?_⟩
    rcases hleft with hsame | hleft
    · exact online_set_same honline hconn hsame
    · -- The old PID of the connection has no seat, or it is online elsewhere as all others are.
      rcases online_cases honline hconn with helse | rfl
      · exact helse.set
      · exact (hleft.resolve_left (fun hnot => hnot hp)).set
  · show (t.connections.insert (t.connCounter + 1) c).lookup conn₁.id = some c'
    rw [GoMap.lookup_insert_eq]
    rcases lookup_set_cases hconn₁ with ⟨rfl, rfl⟩ | ⟨-, hold⟩
    · rw [if_pos rfl]
    · have hreg := hi.registered c' conn₁ hold hopen hid
      have hused : conn₁.id ≠ t.connCounter + 1 := by
        intro heq
        rw [heq, hfree] at hreg
        cases hreg
      rw [if_neg hused, hreg]

theorem lobbyInv_shut {o : Options} {order : List UInt32} (hi : LobbyInv t m)
    (hconn : t.sockets.lookup c = some conn) (hopen : conn.state ≠ .closed)
    (hstep : Matchmaking.step o m (.removePlayer conn.pid order) = some m') :
    LobbyInv (unregisterConnection (t.set c { conn with state := .closed }) conn) m' := by
  -- The entry that goes is the one of `c`.
  have hkeep : ∀ {id : UInt32} {c' : Sock}, t.connections.lookup id = some c' → c' ≠ c →
      (unregisterConnection (t.set c { conn with state := .closed }) conn).connections.lookup id =
        some c' := by
    intro id c' hid hne
    rw [lookup_unregister, if_neg]
    · exact hid
    · intro hex
      obtain ⟨hzero, rfl⟩ := hex
      exact hne (Option.some.inj (hid.symm.trans (hi.registered c conn hconn hopen hzero)))
  refine ⟨fun p hp => ?_, fun c' conn₁ hconn₁ hopen₁ hid => ?_⟩
  · obtain ⟨hseat, hother⟩ := seated_removePlayer hstep hp
    obtain ⟨hne, honline⟩ := hi.present p hseat
    have hpid : p ≠ conn.pid := by
      intro heq
      by_cases hzero : conn.pid = 0
      · exact hne (heq.trans hzero)
      · exact hother hzero heq
    obtain ⟨id, c', conn₁, hid, hc, hconn₁, hp₁⟩ := (online_cases honline hconn).resolve_right hpid
    refine ⟨hne, id, c', conn₁, hkeep hid hc, ?_, hp₁⟩
    rw [sockets_unregister, lookup_set, if_neg hc, hconn₁]
  · rw [sockets_unregister] at hconn₁
    rcases lookup_set_cases hconn₁ with ⟨-, rfl⟩ | ⟨hc, hold⟩
    · exact absurd rfl hopen₁
    · exact hkeep (hi.registered c' conn₁ hold hopen₁ hid) hc

end Presence

/-! ### Runs -/

variable {crypto : Crypto} {e : Config} {o : Options} {s s' : State} {l : Label}

/-- A deferred packet is the packet, and what `processCONNECT` reads is not deferred. -/
theorem deferred_packet {l : Endpoint.Label} {c : Sock} {p : Packet} {env : PacketEnv}
    (h : deferred l = .packet c p env) :
    ∃ env', l = .packet c p env' ∧ env'.now = env.now ∧ ∀ crypto e conn,
      acceptCONNECT crypto e env' conn p = acceptCONNECT crypto e env conn p := by
  cases l with
  | packet c' p' env' =>
    cases h
    exact ⟨env', rfl, rfl, fun _ _ _ => rfl⟩
  | _ => cases h

theorem lobbyInv_endpoint {l : Endpoint.Label} {order : Sock → List UInt32}
    (hC : Attended crypto e s (.endpoint l order)) (hi : LobbyInv s.endpoint s.store)
    (h : step crypto e o s (.endpoint l order) = some s') : LobbyInv s'.endpoint s'.store := by
  obtain ⟨r, hr, hmap⟩ := Option.bind_eq_some_iff.mp h
  obtain ⟨w, hw, rfl⟩ := Option.map_eq_some_iff.mp hmap
  -- Within the step seats are only given up, so what the condition says of the store stays true.
  have hkept : LobbyInv r.1 w.1 ∧ ∀ p, Seated w.1 p → Seated s.store p := by
    refine wired_moves (P := fun t m => LobbyInv t m ∧ ∀ p, Seated m p → Seated s.store p) ?_ ?_
      ⟨hi, fun _ hp => hp⟩ (exec_moves hr) hw
    · intro t effects t' m hex hmove hnone
      obtain ⟨hinv, hsub⟩ := hex
      refine ⟨?_, hsub⟩
      cases hmove with
      | accept hfresh => exact lobbyInv_accept hinv hfresh
      | touch hconn hsame _ => exact lobbyInv_touch hinv hconn hsame
      | connect hl hp hconn hacc =>
        obtain ⟨env', rfl, hnow, haccept⟩ := deferred_packet hl
        rw [← hnow, ← haccept] at hacc
        obtain ⟨hfree, hleft⟩ := hC.connect _ _ _ _ _ _ _ rfl hp hconn hacc
        exact lobbyInv_connect hinv hconn hfree
          (hleft.imp_right (Or.imp_left (fun hnot hseat => hnot (hsub _ hseat))))
      | shut _ _ => exact absurd List.mem_cons_self (hnone _ _)
    · intro t c conn m m' hex hconn hopen hstep
      obtain ⟨hinv, hsub⟩ := hex
      exact ⟨lobbyInv_shut hinv hconn hopen hstep, fun p hp => hsub p (seated_removePlayer hstep hp).1⟩
  exact hkept.1

theorem sameIdentity_respond (e : Config) (c : Sock) (conn : Connection) (response : Option RMCMessage) :
    SameIdentity conn (respond e c conn response) := by
  cases response with
  | none => exact .refl conn
  | some resp => exact (touches_sendData (l := .close c) e.settings resp.encode).1

theorem lobbyInv_step (hC : Attended crypto e s l) (hi : LobbyInv s.endpoint s.store)
    (h : step crypto e o s l = some s') : LobbyInv s'.endpoint s'.store := by
  cases l with
  | endpoint l order => exact lobbyInv_endpoint hC hi h
  | handle i env =>
    simp only [step] at h
    split at h
    · cases h
    · rename_i call hcall
      split at h
      · cases h
      · rename_i conn hconn
        split at h
        · cases h
        · obtain ⟨store, hstore, rfl⟩ := Option.map_eq_some_iff.mp h
          refine ⟨fun p hp => ?_, hi.registered⟩
          rcases seated_request hstore hp with hseat | ⟨hjoin, rfl⟩
          · exact hi.present p hseat
          · exact hC.handle i env call conn rfl hcall hconn hjoin
  | finish i response =>
    simp only [step] at h
    split at h
    · cases h
    · rename_i call hcall
      split at h
      · cases h
      · rename_i conn hconn
        cases h
        exact lobbyInv_touch hi hconn (sameIdentity_respond e call.c conn response)

/-- **No phantom lobby.**  In every run in which sections that seat their caller run while its PID is non-zero
and online, and no accepted `CONNECT` takes its last connection away from a PID with a seat, every participant
of every gathering has a registered connection; also while handlers are in progress. -/
theorem no_phantom_lobby (crypto : Crypto) (e : Config) (o : Options) (reservationTTL : Int)
    (ls : List Label) (s : State) (h : run (step crypto e o) (start reservationTTL) ls = some s)
    (hsteps : Steps (step crypto e o) (Attended crypto e) (start reservationTTL) ls) :
    ∀ gid g p, s.store.gatherings.lookup gid = some g → p ∈ g.participants → Online s.endpoint p := by
  intro gid g p hg hp
  have hi : LobbyInv s.endpoint s.store :=
    run_invariant_of_steps (P := fun s : State => LobbyInv s.endpoint s.store)
      (fun _ _ _ hC hi hstep => lobbyInv_step hC hi hstep) hsteps (lobbyInv_start reservationTTL) h
  exact (hi.present p ⟨gid, g, hg, hp⟩).2

/-- The player 7 connects and opens a session. -/
def lobbySteps : List Label := connectSteps 0 7 ++ createSteps 0 7

theorem attended_lobbySteps : Steps (step plainCrypto plainEndpoint plainOptions)
    (Attended plainCrypto plainEndpoint) (start 8) lobbySteps := by
  refine ⟨⟨?_, ?_⟩, fun s₁ h₁ => ⟨⟨?_, ?_⟩, fun s₂ h₂ => ⟨⟨?_, ?_⟩, fun s₃ h₃ => ⟨⟨?_, ?_⟩, fun s₄ h₄ =>
    ⟨⟨?_, ?_⟩, fun _ _ => trivial⟩⟩⟩⟩⟩
  · intro i env call conn hl
    cases hl
  · intro c p env order conn conn' ack hl
    cases hl
  · intro i env call conn hl
    cases hl
  · intro c p env order conn conn' ack hl _ hconn _
    cases h₁
    cases hl
    refine ⟨rfl, .inr (.inl ?_)⟩
    intro hex
    obtain ⟨gid, g, hg, -⟩ := hex
    simp [start, setJoinReservationTTL, newMatchmaking] at hg
  · intro i env call conn hl
    cases hl
  · intro c p env order conn conn' ack hl hp
    cases hl
    cases hp.1
  · intro i env call conn hl hcall hconn _
    cases h₁
    cases h₂
    cases h₃
    cases hl
    cases hcall
    cases hconn
    exact ⟨by decide, 1, 0, _, rfl, rfl, rfl⟩
  · intro c p env order conn conn' ack hl
    cases hl
  · intro i env call conn hl
    cases hl
  · intro c p env order conn conn' ack hl
    cases hl

theorem no_phantom_lobby_open : ∃ s g,
    run (step plainCrypto plainEndpoint plainOptions) (start 8) lobbySteps = some s ∧
      s.store.gatherings.lookup 1 = some g ∧ g.participants = [7] ∧ Online s.endpoint 7 := by
  have heval : ∃ s g,
      run (step plainCrypto plainEndpoint plainOptions) (start 8) lobbySteps = some s ∧
        s.store.gatherings.lookup 1 = some g ∧ g.participants = [7] := ⟨_, _, rfl, rfl, rfl⟩
  obtain ⟨s, g, hrun, hg, hparts⟩ := heval
  exact ⟨s, g, hrun, hg, hparts, no_phantom_lobby plainCrypto plainEndpoint plainOptions 8 lobbySteps s hrun
    attended_lobbySteps 1 g 7 hg (hparts ▸ List.mem_singleton.mpr rfl)⟩

/-! ### Two ways to leave a lobby behind -/

/-- Requests are dispatched on connected connections with a non-zero PID. -/
def Dispatched (s : State) (l : Label) : Prop :=
  ∀ c p env order conn, l = .endpoint (.packet c p env) order → CompletesMessage p →
    s.endpoint.sockets.lookup c = some conn → conn.state = .connected ∧ conn.pid ≠ 0

/-- The connection of the player 7 is closed while its handler is in progress. -/
def lateSteps : List Label :=
  connectSteps 0 7 ++ [early (.packet 0 (requestPacket (createRequest 4)) (recallEnv 7)), early (.close 0),
    .handle 0 (quietEnv 0 []), .finish 0 none]

/-- The player 7 opens a session, and the player 8 connects on the same socket. -/
def takeoverSteps : List Label :=
  lobbySteps ++ [early (.packet 0 (connectPacket []) (recallEnv 8))]

/-- After the first two steps, which are the same in both runs, the player 7 is connected. -/
theorem dispatched_of_connectSteps {ls : List Label}
    (h : ∀ s, run (step plainCrypto plainEndpoint plainOptions) (start 8) (connectSteps 0 7) = some s →
      Steps (step plainCrypto plainEndpoint plainOptions) Dispatched s ls) :
    Steps (step plainCrypto plainEndpoint plainOptions) Dispatched (start 8) (connectSteps 0 7 ++ ls) := by
  refine ⟨nofun, fun s₁ h₁ => ⟨?_, fun s₂ h₂ => h s₂ ?_⟩⟩
  · intro c p env order conn hl hp
    cases hl
    cases hp.1
  · exact run_cons_some.mpr ⟨s₁, h₁, run_cons_some.mpr ⟨s₂, h₂, rfl⟩⟩

theorem dispatched_lateSteps :
    Steps (step plainCrypto plainEndpoint plainOptions) Dispatched (start 8) lateSteps := by
  apply dispatched_of_connectSteps
  intro s₂ h₂
  refine ⟨?_, fun s₃ _ => ⟨nofun, fun s₄ _ => ⟨nofun, fun s₅ _ => ⟨nofun, fun _ _ => trivial⟩⟩⟩⟩
  intro c p env order conn hl _ hconn
  cases h₂
  cases hl
  cases hconn
  exact ⟨rfl, by decide⟩

theorem dispatched_takeoverSteps :
    Steps (step plainCrypto plainEndpoint plainOptions) Dispatched (start 8) takeoverSteps := by
  apply dispatched_of_connectSteps
  intro s₂ h₂
  refine ⟨?_, fun s₃ _ => ⟨nofun, fun s₄ _ => ⟨nofun, fun s₅ _ => ⟨?_, fun _ _ => trivial⟩⟩⟩⟩
  · intro c p env order conn hl _ hconn
    cases h₂
    cases hl
    cases hconn
    exact ⟨rfl, by decide⟩
  · intro c p env order conn hl hp
    cases hl
    cases hp.1

/-- **Two phantom lobbies.**  Every request is dispatched on a connected connection of the player 7, no handler
is in progress at the end, and the player 7 takes part in a session without a registered connection: when the
connection was closed before the critical section, and when a `CONNECT` gave it the PID 8. -/
theorem phantom_lobby :
    (∃ s g, run (step plainCrypto plainEndpoint plainOptions) (start 8) lateSteps = some s ∧
        Steps (step plainCrypto plainEndpoint plainOptions) Dispatched (start 8) lateSteps ∧
        s.calls = [] ∧ s.store.gatherings.lookup 1 = some g ∧ g.participants = [7] ∧
        ¬ Online s.endpoint 7) ∧
      ∃ s g, run (step plainCrypto plainEndpoint plainOptions) (start 8) takeoverSteps = some s ∧
        Steps (step plainCrypto plainEndpoint plainOptions) Dispatched (start 8) takeoverSteps ∧
        s.calls = [] ∧ s.store.gatherings.lookup 1 = some g ∧ g.participants = [7] ∧
        ¬ Online s.endpoint 7 := by
  refine ⟨⟨_, _, rfl, dispatched_lateSteps, rfl, rfl, rfl, ?_⟩,
    ⟨_, _, rfl, dispatched_takeoverSteps, rfl, rfl, rfl, ?_⟩⟩
  · intro hex
    obtain ⟨id, c, conn, hid, -⟩ := hex
    change (((∅ : GoMap UInt32 Sock).insert 1 0).erase 1).lookup id = some c at hid
    simp [GoMap.lookup_erase_eq, GoMap.lookup_insert_eq] at hid
    exact hid.1 hid.2.1
  · intro hex
    obtain ⟨id, c, conn, hid, hconn, hpid⟩ := hex
    change (((∅ : GoMap UInt32 Sock).insert 1 0).insert 2 0).lookup id = some c at hid
    have hc : 0 = c := by
      rw [GoMap.lookup_insert_eq, GoMap.lookup_insert_eq] at hid
      split at hid
      · exact Option.some.inj hid
      · split at hid
        · exact Option.some.inj hid
        · simp at hid
    subst hc
    cases hconn
    exact absurd hpid (by decide)

end NextendoMatchmaking.Server
