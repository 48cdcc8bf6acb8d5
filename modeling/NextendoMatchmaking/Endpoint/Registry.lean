import NextendoMatchmaking.Endpoint.DispatchGate

/-!
# The registry of connections

`registerConnection` gives a connection a new id each time a `CONNECT` is accepted on it, and
`unregisterConnection` removes only the last one.  A repeated `CONNECT` therefore leaves an entry behind that
no close removes (`registry_leak`).

As long as no `CONNECT` is accepted on a connection that is connected, and the counter has not come around
to the id 0, which `unregisterConnection` takes for "not registered", the registry is what it should be:
every entry is under the id of its connection, and no closed connection is in it (`registry_invariant`).
-/

namespace NextendoMatchmaking.Endpoint

open NextendoMatchmaking.Runs

/-- `c` was closed and no `CONNECT` of it was accepted since. -/
def ClosedSince (log : List Effect) (c : Sock) : Prop :=
  ∃ pid before after, log = before ++ .onDisconnect c pid :: after ∧ ∀ q, .onConnect c q ∉ after

/-- A `CONNECT` is accepted only on a connection that is not connected, and not for the id 0. -/
def FreshConnect (crypto : Crypto) (e : Config) (s : State) (l : Label) : Prop :=
  ∀ c p env conn, l = .packet c p env → AsksToConnect p → s.sockets.lookup c = some conn →
    (acceptCONNECT crypto e env { conn with lastSeen := env.now } p).isSome →
    conn.state ≠ .connected ∧ s.connCounter ≠ 0xFFFFFFFF

variable {crypto : Crypto} {e : Config} {l : Label} {s₀ s s' : State} {log effects : List Effect}
  {c : Sock} {conn : Connection} {pid : UInt64}

/-! ### Logs -/

/-- A connection that has been closed by now was closed before, or is closed by the last effects. -/
theorem closedSince_append (h : ClosedSince (log ++ effects) c) :
    (ClosedSince log c ∧ ∀ q, .onConnect c q ∉ effects) ∨ ∃ q, .onDisconnect c q ∈ effects := by
  obtain ⟨pid, before, after, heq, hafter⟩ := h
  rcases List.append_eq_append_iff.mp heq with ⟨mid, -, heffects⟩ | ⟨mid, hlog, hmid⟩
  · exact .inr ⟨pid, by simp [heffects]⟩
  · cases mid with
    | nil =>
      rw [List.nil_append] at hmid
      exact .inr ⟨pid, by simp [← hmid]⟩
    | cons x mid =>
      rw [List.cons_append, List.cons.injEq] at hmid
      obtain ⟨rfl, rfl⟩ := hmid
      exact .inl ⟨⟨pid, before, mid, hlog, fun q hq => hafter q (List.mem_append_left _ hq)⟩,
        fun q hq => hafter q (List.mem_append_right _ hq)⟩

theorem closedSince_of_quiet {c' : Sock} (h : ClosedSince (log ++ effects) c)
    (hquiet : ∀ x ∈ effects, Quiet l c' conn x) : ClosedSince log c := by
  rcases closedSince_append h with ⟨hlog, -⟩ | ⟨q, hq⟩
  · exact hlog
  · exact absurd hq ((silent_of_quiet hquiet) q).2

/-! ### The invariant -/

/-- Every entry is under the id of its connection, which is connected; the connections that the log has as
closed are closed. -/
structure RegistryInv (s : State) (log : List Effect) : Prop where
  registered : ∀ id c, s.connections.lookup id = some c →
    id ≠ 0 ∧ ∃ conn, s.sockets.lookup c = some conn ∧ conn.id = id ∧ conn.state = .connected
  closed : ∀ c, ClosedSince log c → ∃ conn, s.sockets.lookup c = some conn ∧ conn.state = .closed

theorem registryInv_start : RegistryInv newEndpoint [] where
  registered := by
    intro id c h
    simp [newEndpoint] at h
  closed := by
    intro c hex
    obtain ⟨pid, before, after, heq, -⟩ := hex
    simp at heq

/-- A write to a connection that is not registered. -/
theorem registered_set (h : RegistryInv s log) (hfree : ∀ id, s.connections.lookup id ≠ some c) (id : UInt32)
    (c' : Sock) (hid : s.connections.lookup id = some c') : id ≠ 0 ∧
    ∃ conn', (s.set c conn).sockets.lookup c' = some conn' ∧ conn'.id = id ∧ conn'.state = .connected := by
  obtain ⟨hne, conn', hconn', hrest⟩ := h.registered id c' hid
  have hc : c' ≠ c := fun heq => hfree id (heq ▸ hid)
  exact ⟨hne, conn', by rw [lookup_set, if_neg hc, hconn'], hrest⟩

theorem closed_set {c' : Sock} (h : RegistryInv s log) (hc : c' ≠ c) (hclosed : ClosedSince log c') :
    ∃ conn', (s.set c conn).sockets.lookup c' = some conn' ∧ conn'.state = .closed := by
  obtain ⟨conn', hconn', hstate⟩ := h.closed c' hclosed
  exact ⟨conn', by rw [lookup_set, if_neg hc, hconn'], hstate⟩

theorem not_registered {id : UInt32} (h : RegistryInv s log) (hconn : s.sockets.lookup c = some conn)
    (hne : conn.id ≠ id ∨ conn.state ≠ .connected) : s.connections.lookup id ≠ some c := by
  intro hid
  obtain ⟨-, conn', hconn', hid', hstate'⟩ := h.registered id c hid
  obtain rfl := Option.some.inj (hconn.symm.trans hconn')
  exact hne.elim (fun hne => hne hid') (fun hne => hne hstate')

theorem registryInv_connect {conn' : Connection} {ack : Packet}
    (h : RegistryInv s log) (hconn : s.sockets.lookup c = some conn) (hstate : conn.state ≠ .connected)
    (hcounter : s.connCounter ≠ 0xFFFFFFFF) :
    RegistryInv (registerConnection s c { conn' with state := .connected })
      (log ++ [.send c ack.encode, .onConnect c conn'.pid]) := by
  have hfree : ∀ id, s.connections.lookup id ≠ some c := fun id => not_registered h hconn (.inr hstate)
  refine ⟨fun id c' hid => ?_, fun c' hclosed => ?_⟩
  · change (s.connections.insert (s.connCounter + 1) c).lookup id = some c' at hid
    rw [GoMap.lookup_insert_eq] at hid
    split at hid
    · rename_i heq
      subst heq
      cases hid
      have hself : (registerConnection s c { conn' with state := .connected }).sockets.lookup c =
          some { conn' with state := .connected, id := s.connCounter + 1 } :=
        (lookup_set _ _ _ _).trans (if_pos rfl)
      refine ⟨fun hzero => hcounter ?_, _, hself, rfl, rfl⟩
      exact (UInt32.add_left_inj 1).mp (hzero.trans (by decide))
    · exact registered_set h hfree id c' hid
  · rcases closedSince_append hclosed with ⟨hlog, hno⟩ | ⟨q, hq⟩
    · have hc : c' ≠ c := fun heq => hno conn'.pid (by simp [heq])
      exact closed_set h hc hlog
    · simp at hq

theorem registryInv_shut (h : RegistryInv s log) (hconn : s.sockets.lookup c = some conn) :
    RegistryInv (unregisterConnection (s.set c { conn with state := .closed }) conn)
      (log ++ [.onDisconnect c conn.pid]) := by
  refine ⟨fun id c' hid => ?_, fun c' hclosed => ?_⟩
  · rw [sockets_unregister]
    rw [lookup_unregister] at hid
    split at hid
    · cases hid
    · rename_i hnot
      obtain ⟨hne, conn', hconn', hid', hstate⟩ := h.registered id c' hid
      -- An entry of `c` would be under its id, and that one is gone.
      have hc : c' ≠ c := by
        intro heq
        subst heq
        obtain rfl := Option.some.inj (hconn.symm.trans hconn')
        exact hnot ⟨hid' ▸ hne, hid'.symm⟩
      exact ⟨hne, conn', by rw [lookup_set, if_neg hc, hconn'], hid', hstate⟩
  · rw [sockets_unregister]
    by_cases hc : c' = c
    · subst hc
      exact ⟨_, (lookup_set _ _ _ _).trans (if_pos rfl), rfl⟩
    · rcases closedSince_append hclosed with ⟨hlog, -⟩ | ⟨q, hq⟩
      · exact closed_set h hc hlog
      · simp [hc] at hq

theorem registryInv_move (hC : FreshConnect crypto e s₀ l) (hi : RegistryInv s log)
    (m : Move crypto e s₀ l s effects s') : RegistryInv s' (log ++ effects) := by
  cases m with
  | @accept c remoteAddr h =>
    rw [List.append_nil]
    have hfree : ∀ id, s₀.connections.lookup id ≠ some c := by
      intro id hid
      obtain ⟨-, conn, hconn, -⟩ := hi.registered id c hid
      rw [h] at hconn
      cases hconn
    refine ⟨registered_set hi hfree, fun c' hclosed => ?_⟩
    have hc : c' ≠ c := by
      intro heq
      subst heq
      obtain ⟨conn, hconn, -⟩ := hi.closed _ hclosed
      rw [h] at hconn
      cases hconn
    exact closed_set hi hc hclosed
  | @touch c conn conn' _ h hsame hquiet =>
    refine ⟨fun id c' hid => ?_, fun c' hclosed => ?_⟩
    · obtain ⟨hne, conn₁, hconn₁, hid', hstate⟩ := hi.registered id c' hid
      obtain ⟨conn₂, hconn₂, hkept⟩ := lookup_touch h hsame hconn₁
      exact ⟨hne, conn₂, hconn₂, hkept.id.trans hid', hkept.state.trans hstate⟩
    · obtain ⟨conn₁, hconn₁, hstate⟩ := hi.closed c' (closedSince_of_quiet hclosed hquiet)
      obtain ⟨conn₂, hconn₂, hkept⟩ := lookup_touch h hsame hconn₁
      exact ⟨conn₂, hconn₂, hkept.state.trans hstate⟩
  | connect hl hp h hacc =>
    obtain ⟨hstate, hcounter⟩ := hC _ _ _ _ hl hp h (by rw [hacc]; rfl)
    exact registryInv_connect hi h hstate hcounter
  | shut h _ => exact registryInv_shut hi h

/-- **The registry.**  In every run in which no `CONNECT` is accepted on a connected connection or for the id
0, every entry of the registry is under the id of its connection, so that a connection has at most one, and
a connection that was closed and not connected again has none. -/
theorem registry_invariant (crypto : Crypto) (e : Config) (ls : List Label) (t : Logged)
    (h : run (step crypto e) start ls = some t)
    (hsteps : Steps (step crypto e) (fun t l => FreshConnect crypto e t.1 l) start ls) :
    (∀ id c, t.1.connections.lookup id = some c →
        ∃ conn, t.1.sockets.lookup c = some conn ∧ conn.id = id) ∧
      (∀ id id' c, t.1.connections.lookup id = some c → t.1.connections.lookup id' = some c → id = id') ∧
      ∀ c, ClosedSince t.2 c → ∀ id, t.1.connections.lookup id ≠ some c := by
  have hi : RegistryInv t.1 t.2 := logged_invariant registryInv_start registryInv_move hsteps h
  refine ⟨?_, ?_, ?_⟩
  · intro id c hid
    obtain ⟨-, conn, hconn, hid', -⟩ := hi.registered id c hid
    exact ⟨conn, hconn, hid'⟩
  · intro id id' c hid hid'
    obtain ⟨-, conn, hconn, heq, -⟩ := hi.registered id c hid
    obtain ⟨-, conn', hconn', heq', -⟩ := hi.registered id' c hid'
    obtain rfl := Option.some.inj (hconn.symm.trans hconn')
    exact heq.symm.trans heq'
  · intro c hclosed id
    obtain ⟨conn, hconn, hstate⟩ := hi.closed c hclosed
    exact not_registered hi hconn (.inr (by rw [hstate]; decide))

/-! ### Repeated `CONNECT`s -/

/-- A player connects, leaves, and connects again. -/
def reconnectTrace : List Label :=
  [.accept 0 .other, .packet 0 (connectPacket []) (recallEnv 7), .close 0,
    .packet 0 (connectPacket []) (recallEnv 7)]

theorem registry_invariant_reconnect : ∃ t,
    run (step plainCrypto secureConfig) start reconnectTrace = some t ∧
      t.1.connections.lookup 2 = some 0 ∧ ∃ conn, t.1.sockets.lookup 0 = some conn ∧ conn.id = 2 := by
  have hsteps : Steps (step plainCrypto secureConfig)
      (fun t l => FreshConnect plainCrypto secureConfig t.1 l) start reconnectTrace := by
    refine ⟨nofun, fun t₁ h₁ => ⟨?_, fun t₂ h₂ => ⟨nofun, fun t₃ h₃ => ⟨?_, fun _ _ => trivial⟩⟩⟩⟩
    · intro c p env conn hl _ hconn _
      cases h₁
      cases hl
      cases hconn
      exact ⟨by decide, by decide⟩
    · intro c p env conn hl _ hconn _
      cases h₁
      cases h₂
      cases h₃
      cases hl
      cases hconn
      exact ⟨by decide, by decide⟩
  exact ⟨_, rfl, rfl, (registry_invariant plainCrypto secureConfig reconnectTrace _ rfl hsteps).1 2 0 rfl⟩

/-- **A repeated `CONNECT` leaks an entry.**  After two `CONNECT`s of one connection the registry has it under
the ids 1 and 2, although its id is 2; after the close the entry under 1 is still there. -/
theorem registry_leak :
    (∃ t conn, run (step plainCrypto secureConfig) start
          [.accept 0 .other, .packet 0 (connectPacket []) (recallEnv 7),
            .packet 0 (connectPacket []) (recallEnv 7)] = some t ∧
        t.1.connections.lookup 1 = some 0 ∧ t.1.sockets.lookup 0 = some conn ∧ conn.id = 2) ∧
      ∃ t ack, run (step plainCrypto secureConfig) start
          [.accept 0 .other, .packet 0 (connectPacket []) (recallEnv 7),
            .packet 0 (connectPacket []) (recallEnv 7), .close 0] = some t ∧
        t.2 = [.send 0 ack, .onConnect 0 7, .send 0 ack, .onConnect 0 7, .onDisconnect 0 7] ∧
        t.1.connections.lookup 1 = some 0 :=
  ⟨⟨_, _, rfl, rfl, rfl, rfl⟩, ⟨_, _, rfl, rfl, rfl⟩⟩

end NextendoMatchmaking.Endpoint
