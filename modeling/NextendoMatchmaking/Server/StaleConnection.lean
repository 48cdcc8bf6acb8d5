import NextendoMatchmaking.Server.Wiring

/-!
# The close of a stale connection

A player that reconnects has two connections under one PID for a while.  `OnDisconnect` is keyed by the PID:
when the older connection is closed, `RemovePlayer` takes the player out of every gathering, those that it
opened through the newer connection included (`stale_close_destroys`).

A gathering is left alone exactly when there is nothing to remove: the PID is 0, which `RemovePlayer`
ignores, or the older connection was closed before and only its entry in the registry is left
(`stale_close`).
-/

namespace NextendoMatchmaking.Server

open NextendoMatchmaking.Endpoint NextendoMatchmaking.Matchmaking NextendoMatchmaking.Runs

/-- The step closes the connection `c` and no other: a `DISCONNECT` on it, the close of its socket, a pass of
the reaper that finds only `c` idle for too long, or a kick of its id. -/
inductive Closes (s : Endpoint.State) (c : Sock) (conn : Connection) : Endpoint.Label → Prop
  | disconnect {p env} (htype : p.type = PacketType.disconnect) (hack : p.hasFlag Flag.ack = false) :
      Closes s c conn (.packet c p env)
  | socket : Closes s c conn (.close c)
  | reaper {maxIdle now order} (hreg : ∃ id, s.connections.lookup id = some c) (hmax : 0 < maxIdle)
      (hidle : maxIdle ≤ idleFor (now c) conn)
      (hothers : ∀ id c' conn', s.connections.lookup id = some c' → s.sockets.lookup c' = some conn' →
        c' ≠ c → idleFor (now c') conn' < maxIdle) :
      Closes s c conn (.reapIdle maxIdle now order)
  | kick {id order} (hreg : ∃ id', s.connections.lookup id' = some c) (hid : conn.id = id)
      (hothers : ∀ id' c' conn', s.connections.lookup id' = some c' → s.sockets.lookup c' = some conn' →
        conn'.id = id → c' = c) :
      Closes s c conn (.kickConnection id order)

variable {order : List UInt32}

/-- What `close` reports. -/
def closeEffects (c : Sock) (conn : Connection) : List Effect :=
  if conn.state = .closed then [] else [.onDisconnect c conn.pid]

section Effects

variable {crypto : Crypto} {e : Config} {s : Endpoint.State} {c : Sock} {conn : Connection}
  {l : Endpoint.Label}

theorem effects_close (h : s.sockets.lookup c = some conn) : (close s c).2 = closeEffects c conn := by
  unfold close closeEffects
  rw [h]
  dsimp only
  split <;> rfl

/-- After a close the other connections are what they were, and `c` is closed. -/
theorem lookup_close (h : s.sockets.lookup c = some conn) (c' : Sock) :
    (close s c).1.sockets.lookup c' =
      if c' = c then some { conn with state := .closed } else s.sockets.lookup c' := by
  unfold close
  rw [h]
  dsimp only
  split
  · rename_i hclosed
    split
    · rename_i hc
      subst hc
      rw [h, ← hclosed]
    · rfl
  · rw [sockets_unregister, lookup_set]

/-! ### A loop that closes one connection -/

theorem closeWhere_none {test : Sock → Connection → Bool} {cs : List Sock}
    (h : s.sockets.lookup c = some conn) (hclosed : conn.state = .closed)
    (hothers : ∀ c' conn', c' ∈ cs → s.sockets.lookup c' = some conn' → c' ≠ c → test c' conn' = false) :
    (closeWhere test cs s).2 = [] := by
  induction cs with
  | nil => rfl
  | cons c' cs ih =>
    have hrest := ih (fun c'' conn' hmem => hothers c'' conn' (List.mem_cons_of_mem _ hmem))
    unfold closeWhere
    split
    · exact hrest
    · rename_i conn' hconn'
      split
      · rename_i htest
        have hc : c' = c := by
          by_contra hne
          rw [hothers c' conn' List.mem_cons_self hconn' hne] at htest
          cases htest
        subst hc
        have hstay : close s c' = (s, []) := by
          unfold close
          rw [h]
          exact if_pos hclosed
        rw [hstay]
        exact hrest
      · exact hrest

/-- A loop whose test only `c` passes closes `c`, however often it comes to it. -/
theorem closeWhere_one {test : Sock → Connection → Bool} {cs : List Sock}
    (h : s.sockets.lookup c = some conn) (hmem : c ∈ cs) (htest : test c conn = true)
    (hothers : ∀ c' conn', c' ∈ cs → s.sockets.lookup c' = some conn' → c' ≠ c → test c' conn' = false) :
    (closeWhere test cs s).2 = closeEffects c conn := by
  induction cs with
  | nil => cases hmem
  | cons c' cs ih =>
    have htail : ∀ c'' conn', c'' ∈ cs → s.sockets.lookup c'' = some conn' → c'' ≠ c →
        test c'' conn' = false := fun c'' conn' hmem' => hothers c'' conn' (List.mem_cons_of_mem _ hmem')
    by_cases hc : c' = c
    · subst hc
      have hnone : (closeWhere test cs (close s c').1).2 = [] := by
        apply closeWhere_none (c := c') (by rw [lookup_close h, if_pos rfl]) rfl
        intro c'' conn' hmem' hconn' hne
        rw [lookup_close h, if_neg hne] at hconn'
        exact htail c'' conn' hmem' hconn' hne
      unfold closeWhere
      rw [h]
      dsimp only
      rw [if_pos htest, hnone, effects_close h, List.append_nil]
    · have hmem' : c ∈ cs := (List.mem_cons.mp hmem).resolve_left (fun heq => hc heq.symm)
      unfold closeWhere
      split
      · exact ih hmem' htail
      · rename_i conn' hconn'
        rw [if_neg (by rw [hothers c' conn' List.mem_cons_self hconn' hc]; decide)]
        exact ih hmem' htail

/-! ### The four ways -/

theorem mem_snapshotConns {c' : Sock} (horder : GoMap.Enumerates order s.connections) :
    c' ∈ snapshotConns s order ↔ ∃ id, s.connections.lookup id = some c' := by
  unfold snapshotConns
  rw [List.mem_filterMap]
  constructor
  · intro hex
    obtain ⟨id, -, hid⟩ := hex
    exact ⟨id, hid⟩
  · intro hex
    obtain ⟨id, hid⟩ := hex
    exact ⟨id, (horder.2 id).mpr (Finmap.mem_of_lookup_eq_some hid), hid⟩

theorem effects_disconnect {p : Packet} {env : PacketEnv} (htype : p.type = PacketType.disconnect)
    (hack : p.hasFlag Flag.ack = false) :
    (handlePacket crypto e env s c conn p).2 =
      (if p.hasFlag Flag.needACK then [sendAck c { conn with lastSeen := env.now } p] else []) ++
        closeEffects c conn := by
  have hseen : (s.set c { conn with lastSeen := env.now }).sockets.lookup c =
      some { conn with lastSeen := env.now } := (lookup_set _ _ _ _).trans (if_pos rfl)
  have heffects := effects_close hseen
  simp [handlePacket, htype, hack, PacketType.disconnect, PacketType.syn, PacketType.connect,
    PacketType.data, PacketType.ping, heffects, closeEffects]

theorem effects_reapIdle {maxIdle : Int} {now : Sock → Int} (horder : GoMap.Enumerates order s.connections)
    (h : s.sockets.lookup c = some conn) (hreg : ∃ id, s.connections.lookup id = some c) (hmax : 0 < maxIdle)
    (hidle : maxIdle ≤ idleFor (now c) conn)
    (hothers : ∀ id c' conn', s.connections.lookup id = some c' → s.sockets.lookup c' = some conn' →
      c' ≠ c → idleFor (now c') conn' < maxIdle) :
    (reapIdle maxIdle now order s).2 = closeEffects c conn := by
  unfold reapIdle
  rw [if_neg (by omega)]
  apply closeWhere_one h ((mem_snapshotConns horder).mpr hreg)
  · have hpos : 0 < idleFor (now c) conn := by omega
    simp [hpos, hidle]
  · intro c' conn' hmem hconn' hne
    obtain ⟨id, hid⟩ := (mem_snapshotConns horder).mp hmem
    have hlt := hothers id c' conn' hid hconn' hne
    have hnot : ¬ maxIdle ≤ idleFor (now c') conn' := by omega
    simp [hnot]

theorem effects_kickConnection {id : UInt32} (horder : GoMap.Enumerates order s.connections)
    (h : s.sockets.lookup c = some conn) (hreg : ∃ id', s.connections.lookup id' = some c) (hid : conn.id = id)
    (hothers : ∀ id' c' conn', s.connections.lookup id' = some c' → s.sockets.lookup c' = some conn' →
      conn'.id = id → c' = c) :
    (kickConnection id order s).2 = closeEffects c conn := by
  have hmem : c ∈ snapshotConns s order := (mem_snapshotConns horder).mpr hreg
  unfold kickConnection
  split
  · rename_i hnone
    have hnot := List.find?_eq_none.mp hnone c hmem
    simp [h, hid] at hnot
  · rename_i c' hfound
    obtain ⟨id', hid'⟩ := (mem_snapshotConns horder).mp (List.mem_of_find?_eq_some hfound)
    have htest := List.find?_some hfound
    obtain ⟨conn', hconn', heq⟩ := Option.map_eq_some_iff.mp (eq_of_beq htest)
    rw [hothers id' c' conn' hid' hconn' heq]
    exact effects_close h

/-- **A step that closes `c` alone.**  Apart from acknowledgements it reports what `close` reports. -/
theorem effects_closes {r : Endpoint.State × List Effect} (hconn : s.sockets.lookup c = some conn)
    (hcloses : Closes s c conn l) (h : exec crypto e s (deferred l) = some r) :
    ∃ sends, NoDisconnect sends ∧ r.2 = sends ++ closeEffects c conn := by
  have hnone : NoDisconnect [] := nofun
  cases hcloses with
  | @disconnect p env htype hack =>
    simp only [deferred, exec, hconn, Option.some.injEq] at h
    subst h
    refine ⟨_, ?_, effects_disconnect htype hack⟩
    intro c' pid hmem
    split at hmem
    · simp [sendAck] at hmem
    · cases hmem
  | socket =>
    simp only [deferred, exec, hconn, Option.isSome_some, if_true, Option.some.injEq] at h
    subst h
    exact ⟨[], hnone, effects_close hconn⟩
  | reaper hreg hmax hidle hothers =>
    simp only [deferred, exec] at h
    split at h
    · rename_i horder
      cases h
      exact ⟨[], hnone, effects_reapIdle horder hconn hreg hmax hidle hothers⟩
    · cases h
  | kick hreg hid hothers =>
    simp only [deferred, exec] at h
    split at h
    · rename_i horder
      cases h
      exact ⟨[], hnone, effects_kickConnection horder hconn hreg hid hothers⟩
    · cases h

end Effects

/-! ### The fate of a gathering -/

/-- The close of one connection, seen at a gathering that its PID takes part in. -/
theorem stays_iff {crypto : Crypto} {e : Config} {o : Options} {s s' : State} {l : Endpoint.Label}
    {order : Sock → List UInt32} {c : Sock} {conn : Connection} {gid : UInt32} {g : GatheringEntry}
    (hconn : s.endpoint.sockets.lookup c = some conn) (hg : s.store.gatherings.lookup gid = some g)
    (hpid : conn.pid ∈ g.participants) (hcloses : Closes s.endpoint c conn l)
    (h : step crypto e o s (.endpoint l order) = some s') :
    (∃ g', s'.store.gatherings.lookup gid = some g' ∧ conn.pid ∈ g'.participants) ↔
      conn.pid = 0 ∨ conn.state = .closed := by
  obtain ⟨r, hr, hmap⟩ := Option.bind_eq_some_iff.mp h
  obtain ⟨w, hw, rfl⟩ := Option.map_eq_some_iff.mp hmap
  obtain ⟨sends, hsends, heffects⟩ := effects_closes hconn hcloses hr
  rw [heffects] at hw
  by_cases hclosed : conn.state = .closed
  · -- Nothing is reported, so nothing is removed.
    rw [closeEffects, if_pos hclosed, List.append_nil] at hw
    have hsame : w.1 = s.store := hooks_store hsends hw
    exact ⟨fun _ => .inr hclosed, fun _ => ⟨g, by rw [hsame]; exact hg, hpid⟩⟩
  · rw [closeEffects, if_neg hclosed] at hw
    have hstep := hooks_disconnect hsends hw
    simp only [Matchmaking.step] at hstep
    split at hstep
    · rename_i horder
      have hremoved : removePlayer conn.pid (order c) s.store = w.1 := Option.some.inj hstep
      by_cases hzero : conn.pid = 0
      · rw [hzero, removePlayer, if_pos rfl] at hremoved
        exact ⟨fun _ => .inl hzero, fun _ => ⟨g, by rw [← hremoved]; exact hg, hpid⟩⟩
      · constructor
        · intro hex
          obtain ⟨g', hg', hmem⟩ := hex
          rw [← hremoved] at hg'
          exact absurd rfl (mem_removePlayer hzero horder hg' hmem).1
        · intro hor
          rcases hor with hz | hc
          · exact absurd hz hzero
          · exact absurd hc hclosed
    · cases hstep

/-- `p` has two registered connections, the older `c₁` and the newer `c₂`. -/
structure Reconnected (t : Endpoint.State) (p : UInt64) (c₁ c₂ : Sock) (conn₁ conn₂ : Connection) :
    Prop where
  older : t.sockets.lookup c₁ = some conn₁
  newer : t.sockets.lookup c₂ = some conn₂
  distinct : c₁ ≠ c₂
  pid₁ : conn₁.pid = p
  pid₂ : conn₂.pid = p
  registered : ∃ id₁ id₂, t.connections.lookup id₁ = some c₁ ∧ t.connections.lookup id₂ = some c₂ ∧
    id₁ < id₂

/-- **The close of the older connection.**  In every run after which `p` has two connections and that goes on
with the close of the older one, a gathering that `p` takes part in stays, with `p` in it, if and only if `p`
is 0 or the older connection was closed before.  Which connection the gathering was opened through makes no
difference. -/
theorem stale_close (crypto : Crypto) (e : Config) (o : Options) (reservationTTL : Int) (ls : List Label)
    (s s' : State) (l : Endpoint.Label) (order : Sock → List UInt32) (p : UInt64) (c₁ c₂ : Sock)
    (conn₁ conn₂ : Connection) (gid : UInt32) (g : GatheringEntry)
    (hrun : run (step crypto e o) (start reservationTTL) ls = some s)
    (hboth : Reconnected s.endpoint p c₁ c₂ conn₁ conn₂) (hg : s.store.gatherings.lookup gid = some g)
    (hp : p ∈ g.participants) (hcloses : Closes s.endpoint c₁ conn₁ l)
    (hclose : run (step crypto e o) (start reservationTTL) (ls ++ [.endpoint l order]) = some s') :
    (∃ g', s'.store.gatherings.lookup gid = some g' ∧ p ∈ g'.participants) ↔
      p = 0 ∨ conn₁.state = .closed := by
  obtain ⟨s₁, hrun₁, hstep⟩ := run_snoc_some.mp hclose
  obtain rfl : s = s₁ := Option.some.inj (hrun.symm.trans hrun₁)
  obtain rfl := hboth.pid₁
  exact stays_iff hboth.older hg hp hcloses hstep

/-! ### Two connections of one player -/

/-- The player 7 has a connection that was closed and is still registered, since it had connected twice, and
a newer one through which it opens a session. -/
def reopenedSteps : List Label :=
  connectSteps 0 7 ++ [early (.packet 0 (connectPacket []) (recallEnv 7)), early (.close 0)] ++
    connectSteps 1 7 ++ createSteps 1 7

theorem stale_close_leaked : ∃ s s' conn₁ conn₂ g,
    run (step plainCrypto plainEndpoint plainOptions) (start 8) reopenedSteps = some s ∧
      Reconnected s.endpoint 7 0 1 conn₁ conn₂ ∧
      run (step plainCrypto plainEndpoint plainOptions) (start 8)
        (reopenedSteps ++ [.endpoint (.close 0) (fun _ => [1])]) = some s' ∧
      s'.store.gatherings.lookup 1 = some g ∧ 7 ∈ g.participants := by
  have heval : ∃ s s' conn₁ conn₂ g,
      run (step plainCrypto plainEndpoint plainOptions) (start 8) reopenedSteps = some s ∧
        Reconnected s.endpoint 7 0 1 conn₁ conn₂ ∧ conn₁.state = .closed ∧
        s.store.gatherings.lookup 1 = some g ∧ g.participants = [7] ∧
        run (step plainCrypto plainEndpoint plainOptions) (start 8)
          (reopenedSteps ++ [.endpoint (.close 0) (fun _ => [1])]) = some s' :=
    ⟨_, _, _, _, _, rfl, ⟨rfl, rfl, by decide, rfl, rfl, 1, 3, rfl, rfl, by decide⟩, rfl, rfl, rfl, rfl⟩
  obtain ⟨s, s', conn₁, conn₂, g, hrun, hboth, hclosed, hg, hparts, hclose⟩ := heval
  have hmem : 7 ∈ g.participants := by
    rw [hparts]
    exact List.mem_singleton.mpr rfl
  obtain ⟨g', hg', hmem'⟩ := (stale_close plainCrypto plainEndpoint plainOptions 8 reopenedSteps s s' (.close 0)
    (fun _ => [1]) 7 0 1 conn₁ conn₂ 1 g hrun hboth hg hmem .socket hclose).mpr (.inr hclosed)
  exact ⟨s, s', conn₁, conn₂, g', hrun, hboth, hclose, hg', hmem'⟩

/-- **The close of the older connection destroys the session of the newer one.**  The player 7 has the
connections 1 and 2 and opens a session through 2.  The socket of 1 is closed: the session is gone, although
2 is connected and registered. -/
theorem stale_close_destroys : ∃ s s' conn₁ conn₂ g,
    run (step plainCrypto plainEndpoint plainOptions) (start 8)
        (connectSteps 0 7 ++ connectSteps 1 7 ++ createSteps 1 7) = some s ∧
      Reconnected s.endpoint 7 0 1 conn₁ conn₂ ∧ conn₁.id = 1 ∧ conn₂.id = 2 ∧
      s.store.gatherings.lookup 1 = some g ∧ g.participants = [7] ∧ g.hostConnID = 2 ∧
      step plainCrypto plainEndpoint plainOptions s (.endpoint (.close 0) (fun _ => [1])) = some s' ∧
      s'.store.gatherings.lookup 1 = none ∧ s'.endpoint.connections.lookup 2 = some 1 ∧
      s'.endpoint.sockets.lookup 1 = some conn₂ :=
  ⟨_, _, _, _, _, rfl, ⟨rfl, rfl, by decide, rfl, rfl, 1, 2, rfl, rfl, by decide⟩, rfl, rfl, rfl, rfl, rfl,
    rfl, rfl, rfl, rfl⟩

end NextendoMatchmaking.Server
