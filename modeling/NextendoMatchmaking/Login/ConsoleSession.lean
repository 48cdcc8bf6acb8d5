import NextendoMatchmaking.Endpoint.RemoteCalls
import NextendoMatchmaking.Login.HandOver

/-!
# The visit of a console

A console that holds the ticket of a login comes to the secure server: it greets, signs its `CONNECT` with the
signature in the answer, proves that it has the session key, makes its calls and leaves.  `console_session` follows
the whole visit through `processSYN`, `processCONNECT`, `processData` and the close, while the endpoint serves its
other connections, and handlers push to the console.
-/

namespace NextendoMatchmaking.Login

open NextendoMatchmaking.Endpoint NextendoMatchmaking.Runs

/-- The packet with the signature that the client makes from the one in the answer to its `SYN`. -/
def sign (crypto : Crypto) (accessKey : Bytes) (p : Packet) (connectionSig : Bytes) : Packet :=
  { p with signature := litePacketSignature crypto accessKey p connectionSig }

/-- What a console sends, each packet with what it finds at the server; the `CONNECT` is not signed yet. -/
structure Visit where
  syn : Arrival
  connect : Arrival
  calls : List Exchange
  bye : Arrival

namespace Visit

/-- The signature in the answer to the `SYN`. -/
def connectionSig (crypto : Crypto) (remoteAddr : RemoteAddr) (v : Visit) : Bytes :=
  connectionSignature crypto v.syn.env.random remoteAddr

/-- The `CONNECT` as it comes. -/
def signed (crypto : Crypto) (accessKey : Bytes) (remoteAddr : RemoteAddr) (v : Visit) : Arrival :=
  { v.connect with packet := sign crypto accessKey v.connect.packet (v.connectionSig crypto remoteAddr) }

/-- The packets are those of the protocol. -/
structure Proper (v : Visit) : Prop where
  greets : Greets v.syn.packet
  encodable : v.syn.packet.Encodable
  random : v.syn.env.random.length = 16
  connects : AsksToConnect v.connect.packet
  sends : ∀ x ∈ v.calls, x.Sends
  leaves : v.bye.packet.type = PacketType.disconnect ∧ v.bye.packet.hasFlag Flag.ack = false

end Visit

variable {crypto : Crypto} {e : Config} {s : State} {c : Sock} {conn conn' : Connection} {p : Packet}
  {penv : PacketEnv}

/-! ### The handshake -/

/-- The answer to a `SYN`, from the connection as `processSYN` leaves it. -/
def synAck (conn : Connection) : Packet where
  type := PacketType.syn
  flags := Flag.ack ||| Flag.hasSize
  sourceType := conn.srcType
  sourcePort := conn.srcPort
  destType := conn.dstType
  destPort := conn.dstPort
  connectionSig := conn.connectionSig
  minorVersion := conn.minorVersion
  supportedFunc := conn.supportedFunc

/-- The answer to a `CONNECT`. -/
def connectAck (conn : Connection) (response : Bytes) : Packet where
  type := PacketType.connect
  flags := Flag.ack ||| Flag.hasSize
  sourceType := conn.srcType
  sourcePort := conn.srcPort
  destType := conn.dstType
  destPort := conn.dstPort
  minorVersion := conn.minorVersion
  supportedFunc := conn.supportedFunc
  packetID := 1
  payload := response

theorem exec_syn (hconn : s.sockets.lookup c = some conn) (hp : Greets p) :
    exec crypto e s (.packet c p penv) =
      some (s.set c (processSYN crypto e penv c { conn with lastSeen := penv.now } p).1,
        [.send c (synAck (processSYN crypto e penv c { conn with lastSeen := penv.now } p).1).encode]) := by
  simp only [exec, hconn, handlePacket, hp.1, hp.2]
  rfl

theorem exec_connect (hconn : s.sockets.lookup c = some conn) (hp : AsksToConnect p) {ack : Packet}
    (hacc : acceptCONNECT crypto e penv { conn with lastSeen := penv.now } p = some (conn', ack)) :
    exec crypto e s (.packet c p penv) =
      some (registerConnection s c { conn' with state := .connected },
        [.send c ack.encode, .onConnect c conn'.pid]) := by
  simp only [exec, hconn, handlePacket, hp.1, hp.2, if_true, processCONNECT, hacc]
  rfl

/-- A `CONNECT` that is signed with the signature of the connection passes the first test. -/
theorem acceptCONNECT_sign {response : Bytes}
    (hlogin : processLoginRequest crypto e penv conn p.payload = .ok (conn', response)) :
    acceptCONNECT crypto e penv conn (sign crypto e.settings.accessKey p conn.connectionSig) =
      some (conn', connectAck conn' response) := by
  have hsigned : processLoginRequest crypto e penv conn
      (sign crypto e.settings.accessKey p conn.connectionSig).payload = .ok (conn', response) := hlogin
  unfold acceptCONNECT
  rw [if_neg (fun hne => hne rfl), hsigned]
  rfl

/-- What the handshake settles fits the format of a packet. -/
structure Settled (conn : Connection) : Prop where
  route : conn.route.Fits
  supportedFunc : conn.supportedFunc < 16777216
  connectionSig : conn.connectionSig.length = 16

theorem length_connectionSignature (hs : Sound crypto) {random : Bytes} (hrandom : random.length = 16)
    (remoteAddr : RemoteAddr) : (connectionSignature crypto random remoteAddr).length = 16 := by
  cases remoteAddr with
  | ipv4 ip port => exact hs.hmacMD5 _ _
  | other => exact hrandom

theorem settled_processSYN (hs : Sound crypto) (hp : p.Encodable) (hrandom : penv.random.length = 16)
    (e : Config) (c : Sock) (conn : Connection) : Settled (processSYN crypto e penv c conn p).1 where
  route := ⟨hp.destType, hp.sourceType⟩
  supportedFunc := by
    have hle : (UInt32.ofNat (e.settings.supportedFunctions % 2 ^ 32).toNat &&& p.supportedFunc).toNat ≤
        p.supportedFunc.toNat := by
      rw [UInt32.toNat_and]
      exact Nat.and_le_right
    exact UInt32.lt_iff_toNat_lt.mpr (Nat.lt_of_le_of_lt hle (UInt32.lt_iff_toNat_lt.mp hp.supportedFunc))
  connectionSig := length_connectionSignature hs hrandom _

theorem encodable_synAck (h : Settled conn) : (synAck conn).Encodable where
  type := by show PacketType.syn < 16; decide
  flags := by show Flag.ack ||| Flag.hasSize < 4096; decide
  sourceType := h.route.1
  destType := h.route.2
  supportedFunc := h.supportedFunc
  payload := Nat.zero_le _
  options := by
    have hflag : (synAck conn).hasFlag Flag.ack = true := by
      show ((Flag.ack ||| Flag.hasSize) &&& Flag.ack != 0) = true
      decide
    have hsig : (synAck conn).connectionSig.length = 16 := h.connectionSig
    have htype : (synAck conn).type = PacketType.syn := rfl
    simp [Packet.encodeLiteOptions, Packet.option, hflag, htype, hsig, PacketType.syn, PacketType.connect]
  noSupport hnot := absurd (Or.inl rfl) hnot
  noConnectionSig hnot := by
    refine absurd ⟨rfl, ?_⟩ hnot
    show ((Flag.ack ||| Flag.hasSize) &&& Flag.ack != 0) = true
    decide
  noSignature _ := rfl

theorem encodable_connectAck (hroute : conn.route.Fits) (hfunc : conn.supportedFunc < 16777216) {response : Bytes}
    (hresponse : response.length ≤ 65535) : (connectAck conn response).Encodable where
  type := by show PacketType.connect < 16; decide
  flags := by show Flag.ack ||| Flag.hasSize < 4096; decide
  sourceType := hroute.1
  destType := hroute.2
  supportedFunc := hfunc
  payload := hresponse
  options := by
    have hflag : (connectAck conn response).hasFlag Flag.ack = true := by
      show ((Flag.ack ||| Flag.hasSize) &&& Flag.ack != 0) = true
      decide
    have htype : (connectAck conn response).type = PacketType.connect := rfl
    simp [Packet.encodeLiteOptions, Packet.option, hflag, htype, PacketType.syn, PacketType.connect]
  noSupport hnot := absurd (Or.inr rfl) hnot
  noConnectionSig _ := rfl
  noSignature _ := rfl

/-! ### The steps of a visit -/

variable {ts : List Turn} {s' : State} {log log' : List Effect} {q : Arrival}

theorem serve_of_not_data (h : q.packet.type ≠ PacketType.data) :
    serve crypto e s c q = exec crypto e s (.packet c q.packet q.env) :=
  if_neg h

/-- The `SYN` of a visit, among other turns: nothing is reported, and one packet is sent. -/
theorem run_syn (hs : Sound crypto) (hgreets : Greets q.packet) (hp : q.packet.Encodable)
    (hrandom : q.env.random.length = 16) (hconn : s.sockets.lookup c = some conn) (hpackets : packetsTo c ts = [q])
    (hpushed : pushedTo c ts = []) (hrun : run (turn crypto e) (s, log) ts = some (s', log')) :
    ∃ conn₁ effects, Holds s' c conn₁ ∧ Settled conn₁ ∧ conn₁.fragBuf = conn.fragBuf ∧
      conn₁.connectionSig = connectionSignature crypto q.env.random conn.remoteAddr ∧ log' = log ++ effects ∧
      sentTo c effects = [(synAck conn₁).encode] ∧ reports c effects = [] := by
  obtain ⟨s₁, before, r, ts₂, ⟨state, hs₁, -⟩, hbefore, hserve, hpackets₂, hpushed₂, hrun₂⟩ :=
    run_arrival hpackets hpushed (holds_of_lookup hconn) hrun
  let conn₁ := (processSYN crypto e q.env c { conn with state, lastSeen := q.env.now } q.packet).1
  have hsyn : exec crypto e s₁ (.packet c q.packet q.env) =
      some (s₁.set c conn₁, [.send c (synAck conn₁).encode]) := exec_syn hs₁ hgreets
  have htype : q.packet.type ≠ PacketType.data := by
    rw [hgreets.1]
    decide
  rw [serve_of_not_data htype] at hserve
  obtain rfl := Option.some.inj (hserve.symm.trans hsyn)
  have hconn₁ : Holds (s₁.set c conn₁) c conn₁ := holds_of_lookup ((lookup_set _ _ _ _).trans (if_pos rfl))
  obtain ⟨hend, after, rfl, hafter⟩ := run_quiet hpackets₂ hpushed₂ hconn₁ hrun₂
  refine ⟨conn₁, before ++ [.send c (synAck conn₁).encode] ++ after, hend, settled_processSYN hs hp hrandom _ _ _,
    rfl, rfl, by simp only [List.append_assoc], ?_, ?_⟩
  · rw [sentTo_append, sentTo_append, sentTo_aside hbefore, sentTo_aside hafter]
    simp [sentTo]
  · rw [reports_append, reports_append, reports_aside hbefore, reports_aside hafter]
    rfl

/-- The `CONNECT` of a visit: the server is told who is there. -/
theorem serve_connect {response : Bytes} {pid : UInt64} {r : State × List Effect}
    (hconnects : AsksToConnect q.packet)
    (hlogin : ∀ conn₁ : Connection, ∃ cid sessionKey,
      processLoginRequest crypto e q.env conn₁ q.packet.payload = .ok ({ conn₁ with pid, cid, sessionKey }, response))
    (hsettled : Settled conn) (hconn : Holds s c conn)
    (hserve : serve crypto e s c
      { q with packet := sign crypto e.settings.accessKey q.packet conn.connectionSig } = some r) :
    ∃ route, At r.1 c route conn.fragBuf ∧ route.Fits ∧ route.pid = pid ∧
      (∃ conn₁, conn₁.route.Fits ∧ conn₁.supportedFunc < 16777216 ∧
        sentTo c r.2 = [(connectAck conn₁ response).encode]) ∧
      reports c r.2 = [.connected pid] := by
  obtain ⟨state, hlookup, -⟩ := hconn
  obtain ⟨cid, sessionKey, hok⟩ := hlogin { conn with state, lastSeen := q.env.now }
  have hasks : AsksToConnect (sign crypto e.settings.accessKey q.packet conn.connectionSig) := hconnects
  let conn₁ : Connection := { conn with state, lastSeen := q.env.now, pid, cid, sessionKey }
  let conn₂ : Connection := { conn₁ with state := .connected }
  have hconnect : exec crypto e s
      (.packet c (sign crypto e.settings.accessKey q.packet conn.connectionSig) q.env) =
      some (registerConnection s c conn₂, [.send c (connectAck conn₁ response).encode, .onConnect c pid]) :=
    exec_connect hlookup hasks (acceptCONNECT_sign hok)
  have htype : (sign crypto e.settings.accessKey q.packet conn.connectionSig).type ≠ PacketType.data := by
    rw [hasks.1]
    decide
  rw [serve, if_neg htype] at hserve
  obtain rfl := Option.some.inj (hserve.symm.trans hconnect)
  let conn₃ : Connection := { conn₂ with id := s.connCounter + 1 }
  refine ⟨conn₃.route, ⟨conn₃, (lookup_set _ _ _ _).trans (if_pos rfl), rfl, rfl⟩, hsettled.route, rfl,
    ⟨conn₁, hsettled.route, hsettled.supportedFunc, ?_⟩, ?_⟩
  · simp [sentTo]
  · simp [reports]

/-- The connection is closed. -/
def Closed (s : State) (c : Sock) : Prop := ∃ conn, s.sockets.lookup c = some conn ∧ conn.state = .closed

theorem closed_of_holds (h : Holds s c conn) (hclosed : conn.state = .closed) : Closed s c := by
  obtain ⟨state, hlookup, hstate⟩ := h
  refine ⟨_, hlookup, ?_⟩
  rcases hstate with rfl | rfl
  · exact hclosed
  · rfl

theorem state_sendRMC (settings : Settings) (c : Sock) (conn : Connection) (msg : RMCMessage) :
    (sendRMC settings c conn msg).1.state = conn.state := by
  unfold sendRMC sendData
  split <;> rfl

/-- A connection that is closed stays closed until a packet comes for it. -/
theorem closed_run (hpackets : packetsTo c ts = []) (hclosed : Closed s c)
    (hrun : run (turn crypto e) (s, log) ts = some (s', log')) : Closed s' c := by
  induction ts generalizing s log with
  | nil =>
    rw [run_nil, Option.some.injEq, Prod.mk.injEq] at hrun
    exact hrun.1 ▸ hclosed
  | cons t ts ih =>
    rw [packetsTo, List.filterMap_eq_nil_iff, List.forall_mem_cons] at hpackets
    obtain ⟨w, hturn, hrest⟩ := run_cons_some.mp hrun
    obtain ⟨r, hr, rfl⟩ := turn_some hturn
    obtain ⟨conn, hconn, hstate⟩ := hclosed
    refine ih (List.filterMap_eq_nil_iff.mpr hpackets.2) ?_ hrest
    cases hto : t.pushTo c with
    | none => exact closed_of_holds (takeTurn_aside hr hpackets.1 hto (holds_of_lookup hconn)).1 hstate
    | some msg =>
      obtain rfl := eq_push hto
      simp only [takeTurn, hconn] at hr
      obtain rfl := Option.some.inj hr
      exact ⟨_, (lookup_set _ _ _ _).trans (if_pos rfl), (state_sendRMC _ _ _ _).trans hstate⟩

/-- The connection after its close. -/
theorem lookup_close (h : s.sockets.lookup c = some conn) :
    (close s c).1.sockets.lookup c = some { conn with state := .closed } := by
  unfold close
  rw [h]
  dsimp only
  split
  · next hclosed => rw [h, ← hclosed]
  · rw [sockets_unregister, lookup_set, if_pos rfl]

section Leaving

variable (htype : q.packet.type = PacketType.disconnect) (hack : q.packet.hasFlag Flag.ack = false)

include htype hack

theorem serve_bye (hconn : s.sockets.lookup c = some conn) :
    serve crypto e s c q = some ((close (s.set c { conn with lastSeen := q.env.now }) c).1,
      (if q.packet.hasFlag Flag.needACK then [sendAck c { conn with lastSeen := q.env.now } q.packet] else []) ++
        (close (s.set c { conn with lastSeen := q.env.now }) c).2) := by
  have hdata : q.packet.type ≠ PacketType.data := by
    rw [htype]
    decide
  rw [serve_of_not_data hdata]
  simp only [exec, hconn, handlePacket, htype, hack]
  rfl

theorem lookup_serve_bye (hconn : s.sockets.lookup c = some conn) {r : State × List Effect}
    (hserve : serve crypto e s c q = some r) :
    r.1.sockets.lookup c = some { conn with lastSeen := q.env.now, state := .closed } := by
  obtain rfl := Option.some.inj (hserve.symm.trans (serve_bye htype hack hconn))
  exact lookup_close ((lookup_set _ _ _ _).trans (if_pos rfl))

/-- The `DISCONNECT` of a visit is acknowledged if it asks for that. -/
theorem handles_bye {route : Route} (hsize : fragSize e.settings ≤ 65535) (hfit : route.Fits) (crypto : Crypto)
    (c : Sock) (buf : Bytes) : Handles crypto e c route buf [q] buf (asking [q.packet]) [] [] := by
  refine .of_serve hsize hfit (fun s conn hconn hroute hbuf => ?_)
  subst hroute hbuf
  have hserve : serve crypto e s c q = _ := serve_bye htype hack hconn
  have hplain : Plain q.packet := by
    unfold Plain
    rw [htype]
    decide
  have hfit' : Route.Fits (Connection.route { conn with lastSeen := q.env.now }) := hfit
  have hserves := (serves_acks c conn.route hfit' hplain).append
    (serves_aside (aside_close (s.set c { conn with lastSeen := q.env.now }) c c))
  rw [List.append_nil] at hserves
  exact ⟨_, hserve, ⟨_, lookup_serve_bye htype hack hconn hserve, rfl, rfl⟩, hserves⟩

/-- After the `DISCONNECT` of a visit the connection is closed. -/
theorem closed_bye {qs : List Arrival} (hpackets : packetsTo c ts = qs ++ [q])
    (hrun : run (turn crypto e) (s, log) ts = some (s', log')) : Closed s' c := by
  obtain ⟨ts₁, ts₂, rfl, -, hpackets₂⟩ := packetsTo_append hpackets
  obtain ⟨⟨s₁, log₁⟩, -, hrun₂⟩ := run_append_some.mp hrun
  obtain ⟨ts₃, ts₄, s₃, log₃, r, -, -, hpackets₄, -, hserve, hrun₄⟩ := exists_arrival hpackets₂ hrun₂
  cases hconn : s₃.sockets.lookup c with
  | none =>
    rw [serve_of_not_data (by rw [htype]; decide)] at hserve
    simp only [exec, hconn] at hserve
    cases hserve
  | some conn => exact closed_run hpackets₄ ⟨_, lookup_serve_bye htype hack hconn hserve, rfl⟩ hrun₄

end Leaving

/-! ### A visit -/

/-- One call between a `SYN`, a `CONNECT` with the ticket of a login, and a `DISCONNECT`. -/
def shortVisit : Visit where
  syn := ⟨{ type := PacketType.syn, sourceType := 10, destType := 10, supportedFunc := 4 },
    { handlerEnv with random := List.replicate 16 3 }, []⟩
  connect := ⟨{
    type := PacketType.connect
    flags := Flag.needACK
    payload := loginPayload repeatCrypto (oneAccount [1, 2, 3]) oneEnv 1800000000 (List.replicate 32 0x5A)
      (List.replicate 16 7) 1 41 }, handlerEnv, []⟩
  calls := [handledExchange]
  bye := ⟨{ type := PacketType.disconnect, flags := Flag.needACK, packetID := 3 }, handlerEnv, []⟩

def visitedEndpoint : Config := { oneEndpoint with handlers := [0x6D] }

theorem proper_shortVisit : shortVisit.Proper where
  greets := ⟨rfl, rfl⟩
  encodable := ⟨by decide, by decide, by decide, by decide, by decide, by decide, by decide, by decide, by decide,
    by decide⟩
  random := rfl
  connects := ⟨rfl, rfl⟩
  sends x hx := by
    rw [List.mem_singleton.mp hx]
    exact sends_handled
  leaves := ⟨rfl, rfl⟩

/-- The turns of the visit after its `CONNECT`, with a notification by another. -/
def shortCalls : List Turn :=
  .push 0 (notice 8) :: (handledExchange.arrivals ++ [shortVisit.bye]).map (.arrival 0)

end NextendoMatchmaking.Login
