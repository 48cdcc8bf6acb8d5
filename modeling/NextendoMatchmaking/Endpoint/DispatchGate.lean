import NextendoMatchmaking.Endpoint.Moves

/-!
# When a request reaches its handler

`processData` reassembles and dispatches without looking at the state of the connection.  So a request is
handled before any `CONNECT` and after the connection was closed, also on an endpoint that requires a ticket
(`dispatch_ungated`).

The gate that the handshake is meant to be stands as far as the peers keep to it: if messages are completed
on connected connections only, then every handler that is invoked finds its connection connected, after a
`CONNECT` that was accepted with the PID it finds there, and not closed since (`dispatch_gate`).
-/

namespace NextendoMatchmaking.Endpoint

open NextendoMatchmaking.Runs

/-- The last `CONNECT` of `c` that was accepted was accepted with `pid`, and `c` was not closed since. -/
def ConnectedAs (log : List Effect) (c : Sock) (pid : UInt64) : Prop :=
  ∃ before after, log = before ++ .onConnect c pid :: after ∧
    ∀ q, .onConnect c q ∉ after ∧ .onDisconnect c q ∉ after

/-- Every handler so far was invoked on a connected connection. -/
def Gated (log : List Effect) : Prop :=
  ∀ before c conn req after, log = before ++ .invoke c conn req :: after →
    conn.state = .connected ∧ ConnectedAs before c conn.pid

/-- A message is completed on a connected connection only. -/
def DataWhenConnected (s : State) (l : Label) : Prop :=
  ∀ c p env conn, l = .packet c p env → CompletesMessage p → s.sockets.lookup c = some conn →
    conn.state = .connected

variable {crypto : Crypto} {e : Config} {l : Label} {s₀ s s' : State} {log effects : List Effect}
  {c : Sock} {conn : Connection} {pid : UInt64}

/-! ### Logs -/

/-- Nothing in `effects` is about connecting or closing `c`. -/
def Silent (c : Sock) (effects : List Effect) : Prop :=
  ∀ q, .onConnect c q ∉ effects ∧ .onDisconnect c q ∉ effects

theorem ConnectedAs.append (h : ConnectedAs log c pid) (hs : Silent c effects) :
    ConnectedAs (log ++ effects) c pid := by
  obtain ⟨before, after, rfl, hafter⟩ := h
  refine ⟨before, after ++ effects, by simp, fun q => ?_⟩
  obtain ⟨hc, hd⟩ := hafter q
  obtain ⟨hc', hd'⟩ := hs q
  exact ⟨fun hx => (List.mem_append.mp hx).elim hc hc', fun hx => (List.mem_append.mp hx).elim hd hd'⟩

theorem silent_of_quiet {c' : Sock} (h : ∀ x ∈ effects, Quiet l c' conn x) : Silent c effects := by
  intro q
  constructor
  · intro hx
    cases h _ hx
  · intro hx
    cases h _ hx

/-- What was gated stays so, and of the new effects only the invocations matter. -/
theorem gated_append (h : Gated log)
    (hnew : ∀ before c conn req after, effects = before ++ .invoke c conn req :: after →
      conn.state = .connected ∧ ConnectedAs (log ++ before) c conn.pid) : Gated (log ++ effects) := by
  intro before c conn req after heq
  rcases List.append_eq_append_iff.mp heq with ⟨mid, hbefore, heffects⟩ | ⟨mid, hlog, hmid⟩
  · subst hbefore
    exact hnew mid c conn req after heffects
  · cases mid with
    | nil =>
      rw [List.append_nil] at hlog
      rw [List.nil_append] at hmid
      subst hlog
      simpa using hnew [] c conn req after (by rw [List.nil_append, hmid])
    | cons x mid =>
      rw [List.cons_append, List.cons.injEq] at hmid
      obtain ⟨rfl, -⟩ := hmid
      exact h before c conn req mid hlog

theorem gated_append_of_notMem (h : Gated log)
    (hnew : ∀ c conn req, Effect.invoke c conn req ∉ effects) : Gated (log ++ effects) := by
  apply gated_append h
  intro before c conn req after heq
  exact absurd (by simp [heq]) (hnew c conn req)

/-! ### Runs -/

/-- The invariant: the gate has held, and the connected connections are those that the log says. -/
structure GateInv (s : State) (log : List Effect) : Prop where
  gated : Gated log
  connected : ∀ c conn, s.sockets.lookup c = some conn → conn.state = .connected →
    ConnectedAs log c conn.pid

theorem gateInv_start : GateInv newEndpoint [] where
  gated := by
    intro before c conn req after heq
    simp at heq
  connected := by
    intro c conn h
    simp [newEndpoint] at h

/-- A write to one connection, with effects that are not about the others. -/
theorem connected_set {conn' : Connection}
    (h : ∀ c conn, s.sockets.lookup c = some conn → conn.state = .connected → ConnectedAs log c conn.pid)
    (hself : conn'.state = .connected → ConnectedAs (log ++ effects) c conn'.pid)
    (hothers : ∀ c', c' ≠ c → Silent c' effects) (c' : Sock) (conn : Connection)
    (hlookup : (s.set c conn').sockets.lookup c' = some conn) (hconn : conn.state = .connected) :
    ConnectedAs (log ++ effects) c' conn.pid := by
  rcases lookup_set_cases hlookup with ⟨rfl, rfl⟩ | ⟨hc, hold⟩
  · exact hself hconn
  · exact (h c' conn hold hconn).append (hothers c' hc)

theorem gateInv_move (hC : DataWhenConnected s₀ l) (hi : GateInv s log)
    (m : Move crypto e s₀ l s effects s') : GateInv s' (log ++ effects) := by
  cases m with
  | @accept c remoteAddr h =>
    rw [List.append_nil]
    refine ⟨hi.gated, fun c' conn hlookup hconn => ?_⟩
    rcases lookup_set_cases hlookup with ⟨rfl, rfl⟩ | ⟨-, hold⟩
    · cases hconn
    · exact hi.connected c' conn hold hconn
  | @touch c conn conn' _ h hsame hquiet =>
    refine ⟨gated_append hi.gated ?_, connected_set hi.connected ?_ ?_⟩
    · intro before c' conn'' req after heq
      have hbefore : ∀ x ∈ before, Quiet l c conn x := fun x hx => hquiet x (by simp [heq, hx])
      have hinvoke := hquiet (.invoke c' conn'' req) (by simp [heq])
      cases hinvoke with
      | invoke hl hp hid =>
        have hstate := hC _ _ _ _ hl hp h
        rw [hid.state, hid.pid]
        exact ⟨hstate, (hi.connected _ _ h hstate).append (silent_of_quiet hbefore)⟩
    · intro hstate
      rw [hsame.pid]
      exact (hi.connected _ _ h (hsame.state ▸ hstate)).append (silent_of_quiet hquiet)
    · intro c' _
      exact silent_of_quiet hquiet
  | @connect c p env conn conn' ack hl _ h hacc =>
    refine ⟨gated_append_of_notMem hi.gated (by simp), ?_⟩
    have hself : ConnectedAs (log ++ [.send c ack.encode, .onConnect c conn'.pid]) c conn'.pid :=
      ⟨log ++ [.send c ack.encode], [], by simp, by simp⟩
    have hothers : ∀ c', c' ≠ c → Silent c' [.send c ack.encode, .onConnect c conn'.pid] := by
      intro c' hc q
      simp [hc]
    exact connected_set hi.connected (fun _ => hself) hothers
  | @shut _ c conn h hopen =>
    refine ⟨gated_append_of_notMem hi.gated (by simp), ?_⟩
    rw [sockets_unregister]
    refine connected_set hi.connected nofun (fun c' hc q => ?_)
    simp [hc]

/-- **The gate.**  In every run in which messages are completed on connected connections only, every
handler is invoked on a connected connection: after a `CONNECT` that was accepted with its PID, and before
the connection was closed. -/
theorem dispatch_gate (crypto : Crypto) (e : Config) (ls : List Label) (t : Logged)
    (h : run (step crypto e) start ls = some t)
    (hsteps : Steps (step crypto e) (fun t l => DataWhenConnected t.1 l) start ls) : Gated t.2 :=
  (logged_invariant gateInv_start gateInv_move hsteps h).gated

/-! ### Requests on a secure endpoint -/

/-- Some functions in the place of the cryptographic ones. -/
def plainCrypto : Crypto := ⟨fun data => data, fun key data => key ++ data, fun _ data => data⟩

/-- A secure endpoint with one handler. -/
def secureConfig : Config where
  settings := newSwitchSettings [0x30, 0x39] 40000
  secure := true
  secureKey := []
  handlers := [0x6D]
  fallbackHandler := false
  customPacketHandlers := []

/-- What a packet finds when its peer has logged in as `pid` a moment ago. -/
def recallEnv (pid : UInt64) : PacketEnv := ⟨1, [], some pid, fun _ => none⟩

/-- A `CONNECT` without a ticket, signed for the connection signature `sig`. -/
def connectPacket (sig : Bytes) : Packet :=
  let p : Packet := { type := PacketType.connect, flags := Flag.needACK }
  { p with signature := litePacketSignature plainCrypto secureConfig.settings.accessKey p sig }

/-- A request in one fragment. -/
def requestPacket (req : RMCMessage) : Packet := { type := PacketType.data, payload := req.encode }

def gateRequest : RMCMessage := newRMCRequest 0x6D 1 1 []

/-- A player connects and sends a request. -/
def connectedTrace : List Label :=
  [.accept 0 .other, .packet 0 (connectPacket []) (recallEnv 7),
    .packet 0 (requestPacket gateRequest) (recallEnv 7)]

theorem dispatch_gate_connected : ∃ t conn,
    run (step plainCrypto secureConfig) start connectedTrace = some t ∧
      .invoke 0 conn gateRequest ∈ t.2 ∧ conn.pid = 7 ∧ Gated t.2 := by
  have hsteps : Steps (step plainCrypto secureConfig) (fun t l => DataWhenConnected t.1 l) start
      connectedTrace := by
    refine ⟨nofun, fun t₁ h₁ => ⟨?_, fun t₂ h₂ => ⟨?_, fun _ _ => trivial⟩⟩⟩
    · intro c p env conn hl hp
      cases hl
      cases hp.1
    · intro c p env conn hl hp hconn
      cases h₁
      cases h₂
      cases hl
      cases hconn
      rfl
  exact ⟨_, _, rfl, List.mem_of_getElem? (i := 3) rfl, rfl,
    dispatch_gate plainCrypto secureConfig connectedTrace _ rfl hsteps⟩

/-- **A request is handled before any `CONNECT` and after the close.**  On an endpoint that requires a
ticket, a peer that has sent nothing else reaches the handler with a request, under the PID 0; and so does
a peer whose connection was closed, under the PID it had. -/
theorem dispatch_ungated :
    (∃ t conn, run (step plainCrypto secureConfig) start
          [.accept 0 .other, .packet 0 (requestPacket gateRequest) (recallEnv 7)] = some t ∧
        t.2 = [.onRMC 0 gateRequest, .invoke 0 conn gateRequest] ∧
        conn.state = .connecting ∧ conn.pid = 0) ∧
      ∃ t conn ack, run (step plainCrypto secureConfig) start
          [.accept 0 .other, .packet 0 (connectPacket []) (recallEnv 7), .close 0,
            .packet 0 (requestPacket gateRequest) (recallEnv 7)] = some t ∧
        t.2 = [.send 0 ack, .onConnect 0 7, .onDisconnect 0 7, .onRMC 0 gateRequest,
          .invoke 0 conn gateRequest] ∧
        conn.state = .closed ∧ conn.pid = 7 :=
  ⟨⟨_, _, rfl, rfl, rfl, rfl⟩, ⟨_, _, _, rfl, rfl, rfl, rfl⟩⟩

end NextendoMatchmaking.Endpoint
