import NextendoMatchmaking.Endpoint.Isolation
import NextendoMatchmaking.Endpoint.Reassembly
import NextendoMatchmaking.Wire.PacketCodec
import NextendoMatchmaking.Wire.RmcRoundTrip

/-!
# Remote calls over a connection

All layers of a connection at once.  A client encodes its requests, cuts them into fragments, puts each into a
packet and sends the packets as a stream of bytes, which the transport delivers in chunks of its own choice.  The
server decodes packets from the chunks (`Feed`), acknowledges them, puts the fragments together, parses the
requests, calls the handlers and sends what they push and their responses down the same layers; the client does the
same with what comes back.  Meanwhile the endpoint serves its other connections, reaps and kicks, and others push to
the client.

* `Exchange` — a request, the packets it travels in, and what each packet finds at the server;
* `Handles` — what a run of the endpoint does for one of its connections, whatever else it does;
* `remote_calls` — however both streams are cut and the turns of the endpoint are interleaved, every request is
  dispatched once, in order, every packet that asks for it is acknowledged, and the client reads exactly what the
  handlers of its requests push and answer, in order, among what others push to it, in order.

Messages to the client are here as short as one fragment, as longer ones are sent by goroutines of their own, and
no packet is sent a second time.
-/

namespace NextendoMatchmaking.Endpoint

open NextendoMatchmaking.Runs NextendoMatchmaking.Framing

/-! ### What a client does and sees -/

/-- A request in its packets, the last one apart, each with what it finds at the server. -/
structure Exchange where
  req : RMCMessage
  before : List Arrival
  last : Arrival

namespace Exchange

/-- What arrives at the server. -/
def arrivals (x : Exchange) : List Arrival := x.before ++ [x.last]

def packets (x : Exchange) : List Packet := x.arrivals.map Arrival.packet

/-- The packets are the fragments of the request, and fit their format. -/
structure Sends (x : Exchange) : Prop where
  request : x.req.mode = .request ∧ Built x.req
  protocol : x.req.protocol ≠ 0x7F
  size : x.req.encode.length < 2 ^ 32
  before : ∀ q ∈ x.before, IsFragment q.packet ∧ q.packet.fragmentID ≠ 0
  last : IsFragment x.last.packet ∧ x.last.packet.fragmentID = 0
  payload : x.packets.flatMap Packet.payload = x.req.encode
  encodable : ∀ p ∈ x.packets, p.Encodable

/-- What the request is answered with: where a handler is registered, what it pushes to the caller and then its
response, if it has one, and otherwise the refusal of the endpoint. -/
def tells (e : Config) (x : Exchange) : List RMCMessage :=
  if e.handler x.req.protocol then x.last.pushes ++ (x.last.env.answer x.req).toList
  else [newRMCError x.req.protocol x.req.callID resultCoreNotImplemented]

end Exchange

/-- A message that comes from a constructor and fits one fragment. -/
def Tellable (settings : Settings) (msg : RMCMessage) : Prop :=
  Built msg ∧ msg.protocol ≠ 0x7F ∧ msg.encode.length ≤ fragSize settings

/-- What a request is answered with is made of such messages. -/
def Exchange.Fits (e : Config) (x : Exchange) : Prop := ∀ msg ∈ x.tells e, Tellable e.settings msg

/-- The packets that are sent to a connection, encoded. -/
def sentTo (c : Sock) (effects : List Effect) : List Bytes :=
  effects.filterMap (fun x =>
    match x with
    | .send c' data => if c' = c then some data else none
    | _ => none)

/-- What the server is told of a connection: that it is there, and the calls of its handlers, with the player, the
id of the connection and the request. -/
inductive Report
  | connected (pid : UInt64)
  | called (pid : UInt64) (id : UInt32) (req : RMCMessage)

/-- The reports of a connection. -/
def reports (c : Sock) (effects : List Effect) : List Report :=
  effects.filterMap (fun x =>
    match x with
    | .onConnect c' pid => if c' = c then some (.connected pid) else none
    | .invoke c' conn req => if c' = c then some (.called conn.pid conn.id req) else none
    | _ => none)

/-- The ids that some packets acknowledge. -/
def acknowledged (ps : List Packet) : List UInt16 :=
  (ps.filter (fun p => p.hasFlag Flag.ack)).map (fun p => p.packetID)

/-- The ids of the packets that ask for an acknowledgement. -/
def asking (ps : List Packet) : List UInt16 :=
  (ps.filter (fun p => p.hasFlag Flag.needACK)).map (fun p => p.packetID)

/-- The messages in some packets. -/
def received (ps : List Packet) : List Bytes := (assemble [] (ps.filter (fun p => IsFragment p))).1

section Observations

variable {c : Sock} {effects effects' : List Effect} {ps qs : List Packet}

theorem sentTo_append : sentTo c (effects ++ effects') = sentTo c effects ++ sentTo c effects' :=
  List.filterMap_append

theorem reports_append : reports c (effects ++ effects') = reports c effects ++ reports c effects' :=
  List.filterMap_append

theorem sentTo_aside (h : Aside c effects) : sentTo c effects = [] := by
  rw [sentTo, List.filterMap_eq_nil_iff]
  intro x hx
  cases x with
  | send c' data =>
    by_cases hc : c' = c
    · obtain ⟨pid, heq⟩ := h _ hx hc
      cases heq
    · exact if_neg hc
  | _ => rfl

theorem reports_aside (h : Aside c effects) : reports c effects = [] := by
  rw [reports, List.filterMap_eq_nil_iff]
  intro x hx
  cases x with
  | onConnect c' pid =>
    by_cases hc : c' = c
    · obtain ⟨pid, heq⟩ := h _ hx hc
      cases heq
    · exact if_neg hc
  | invoke c' conn req =>
    by_cases hc : c' = c
    · obtain ⟨pid, heq⟩ := h _ hx hc
      cases heq
    · exact if_neg hc
  | _ => rfl

theorem acknowledged_append : acknowledged (ps ++ qs) = acknowledged ps ++ acknowledged qs := by
  unfold acknowledged
  rw [List.filter_append, List.map_append]

theorem asking_append : asking (ps ++ qs) = asking ps ++ asking qs := by
  unfold asking
  rw [List.filter_append, List.map_append]

end Observations

/-- What a client may read from some packets: acknowledgements of `ids` and the messages `messages`, whole. -/
structure ClientReads (ps : List Packet) (ids : List UInt16) (messages : List Bytes) : Prop where
  encodable : ∀ p ∈ ps, p.Encodable
  acks : acknowledged ps = ids
  whole : assemble [] (ps.filter (fun p => IsFragment p)) = (messages, [])

theorem ClientReads.append {ps qs : List Packet} {ids ids' : List UInt16} {messages messages' : List Bytes}
    (h : ClientReads ps ids messages) (h' : ClientReads qs ids' messages') :
    ClientReads (ps ++ qs) (ids ++ ids') (messages ++ messages') where
  encodable p hp := (List.mem_append.mp hp).elim (h.encodable p) (h'.encodable p)
  acks := by rw [acknowledged_append, h.acks, h'.acks]
  whole := by rw [List.filter_append, assemble_append, h.whole, h'.whole]

/-- A stream of packets, cut in any way. -/
theorem feedChunks_encoded {ps : List Packet} (hps : ∀ p ∈ ps, p.Encodable) {chunks : List Bytes}
    (hcut : chunks.flatten = (ps.map Packet.encode).flatten) : feedChunks [] chunks = (ps, []) := by
  have hframes : List.Forall₂ (IsFrame decodePacket) (ps.map Packet.encode) ps := by
    rw [List.forall₂_map_left_iff]
    exact List.forall₂_same.mpr (fun p hp => isFrame_encode (hps p hp))
  have hdecode : decodePackets ((ps.map Packet.encode).flatten ++ []) = ⟨ps, [], none⟩ := by
    rw [decodePackets, decode_frames incremental_decodePacket hframes, decode_wait rfl]
    simp [Decoded.after]
  rw [List.append_nil, ← hcut] at hdecode
  have hall := receiveAll_eq incremental_decodePacket chunks [] rfl
    (by rw [List.nil_append]; exact congrArg Decoded.error hdecode)
  rw [List.nil_append] at hall
  exact hall.trans (congrArg₂ Prod.mk (congrArg Decoded.frames hdecode) (congrArg Decoded.rest hdecode))

/-! ### What the endpoint does -/

/-- What requests leave alone on their connection: who it is, and the ports. -/
structure Route where
  pid : UInt64
  id : UInt32
  srcType : UInt8
  srcPort : UInt8
  dstType : UInt8
  dstPort : UInt8

/-- The route of a connection. -/
def Connection.route (conn : Connection) : Route :=
  ⟨conn.pid, conn.id, conn.srcType, conn.srcPort, conn.dstType, conn.dstPort⟩

namespace Route

/-- The ports fit the format of a packet, as those of a decoded `SYN` do. -/
def Fits (route : Route) : Prop := route.srcType < 16 ∧ route.dstType < 16

def call (route : Route) (req : RMCMessage) : Report := .called route.pid route.id req

/-- The packet of `sendAck`. -/
def ackPacket (route : Route) (p : Packet) : Packet where
  type := p.type
  flags := Flag.ack
  sourceType := route.srcType
  sourcePort := route.srcPort
  destType := route.dstType
  destPort := route.dstPort
  fragmentID := p.fragmentID
  packetID := p.packetID

end Route

/-- The connection `c` with this route, and these bytes in its buffer. -/
def At (s : State) (c : Sock) (route : Route) (buf : Bytes) : Prop :=
  ∃ conn, s.sockets.lookup c = some conn ∧ conn.route = route ∧ conn.fragBuf = buf

variable {crypto : Crypto} {e : Config} {c : Sock} {s s' : State} {conn : Connection} {route : Route} {p : Packet}
  {settings : Settings} {qs qs' : List Arrival} {buf buf' buf'' : Bytes} {ids ids' : List UInt16}
  {reqs reqs' tells tells' pushed pushed' : List RMCMessage} {msg : RMCMessage} {effects effects' : List Effect}

theorem at_of_holds (h : Holds s c conn) (hroute : conn.route = route) (hbuf : conn.fragBuf = buf) :
    At s c route buf := by
  obtain ⟨state, h, -⟩ := h
  exact ⟨_, h, hroute, hbuf⟩

theorem at_set (hroute : conn.route = route) (hbuf : conn.fragBuf = buf) : At (s.set c conn) c route buf :=
  ⟨conn, (lookup_set _ _ _ _).trans (if_pos rfl), hroute, hbuf⟩

/-- Effects that call handlers for `reqs`, and send to `c` packets that a client reads as acknowledgements of `ids`
and as the messages `tells` among those of `pushed`. -/
def Serves (c : Sock) (route : Route) (effects : List Effect) (ids : List UInt16)
    (reqs tells pushed : List RMCMessage) : Prop :=
  ∃ out told, sentTo c effects = out.map Packet.encode ∧ reports c effects = reqs.map route.call ∧
    Interleaves tells pushed told ∧ ClientReads out ids (told.map RMCMessage.encode)

theorem Serves.append (h : Serves c route effects ids reqs tells pushed)
    (h' : Serves c route effects' ids' reqs' tells' pushed') :
    Serves c route (effects ++ effects') (ids ++ ids') (reqs ++ reqs') (tells ++ tells') (pushed ++ pushed') := by
  obtain ⟨out, told, hsent, hreports, htold, hreads⟩ := h
  obtain ⟨out', told', hsent', hreports', htold', hreads'⟩ := h'
  refine ⟨out ++ out', told ++ told', ?_, ?_, htold.append htold', ?_⟩
  · rw [sentTo_append, hsent, hsent', List.map_append]
  · rw [reports_append, hreports, hreports', List.map_append]
  · rw [List.map_append]
    exact hreads.append hreads'

theorem serves_nothing (hsent : sentTo c effects = []) (hreports : reports c effects = reqs.map route.call) :
    Serves c route effects [] reqs [] [] :=
  ⟨[], [], hsent, hreports, .nil, List.forall_mem_nil _, rfl, rfl⟩

theorem serves_aside (h : Aside c effects) : Serves c route effects [] [] [] [] :=
  serves_nothing (sentTo_aside h) (reports_aside h)

/-- A packet whose acknowledgement has no options. -/
def Plain (p : Packet) : Prop := p.type < 16 ∧ p.type ≠ PacketType.syn ∧ p.type ≠ PacketType.connect

theorem IsFragment.plain (h : IsFragment p) : Plain p := by
  unfold Plain
  rw [h.1]
  decide

theorem encodeLiteOptions_plain (h : Plain p) : p.encodeLiteOptions = [] := by
  simp [Packet.encodeLiteOptions, h.2.1, h.2.2]

theorem clientReads_ack (hfit : route.Fits) (hplain : Plain p) :
    ClientReads [route.ackPacket p] [p.packetID] [] := by
  have hflag : (route.ackPacket p).hasFlag Flag.ack = true := by
    show (Flag.ack &&& Flag.ack != 0) = true
    decide
  have hnot : ¬ IsFragment (route.ackPacket p) := fun h => Bool.false_ne_true (h.2.2.symm.trans hflag)
  have hoptions : (route.ackPacket p).encodeLiteOptions = [] :=
    encodeLiteOptions_plain (p := route.ackPacket p) hplain
  refine ⟨fun q hq => ?_, ?_, ?_⟩
  · rw [List.mem_singleton.mp hq]
    refine ⟨hplain.1, by show Flag.ack < 4096; decide, hfit.1, hfit.2, by
      show (0 : UInt32) < 16777216; decide, Nat.zero_le _, ?_, fun _ => ⟨rfl, rfl⟩, fun _ => rfl, fun _ => rfl⟩
    rw [hoptions]
    exact Nat.zero_le _
  · simp only [acknowledged, List.filter_cons, hflag, if_true, List.filter_nil]
    rfl
  · rw [List.filter_cons_of_neg (by simpa using hnot)]
    rfl

theorem clientReads_response (hfit : conn.route.Fits) {data : Bytes} (hsize : data.length ≤ 65535) :
    ClientReads [fragmentPacket conn data 0] [] [data] := by
  have hflag : (fragmentPacket conn data 0).hasFlag Flag.ack = false := by
    show ((Flag.reliable ||| Flag.needACK) &&& Flag.ack != 0) = false
    decide
  refine ⟨fun q hq => ?_, ?_, ?_⟩
  · rw [List.mem_singleton.mp hq]
    refine ⟨by show PacketType.data < 16; decide, by
      show Flag.reliable ||| Flag.needACK < 4096; decide, hfit.1, hfit.2, by
      show (0 : UInt32) < 16777216; decide, hsize, by
      show ([] : Bytes).length ≤ 255; decide, fun _ => ⟨rfl, rfl⟩, fun _ => rfl, fun _ => rfl⟩
  · unfold acknowledged
    rw [List.filter_cons_of_neg (by simp [hflag])]
    rfl
  · rw [List.filter_cons_of_pos (by simpa using isFragment_fragmentPacket conn data 0)]
    rfl

/-- The acknowledgement of a packet, if it asks for one. -/
theorem serves_acks (c : Sock) (route : Route) (hfit : conn.route.Fits) (hplain : Plain p) :
    Serves c route (if p.hasFlag Flag.needACK then [sendAck c conn p] else []) (asking [p]) [] [] [] := by
  by_cases hneed : p.hasFlag Flag.needACK = true
  · have hasking : asking [p] = [p.packetID] := by simp [asking, hneed]
    rw [if_pos hneed, hasking]
    refine ⟨[conn.route.ackPacket p], [], ?_, rfl, .nil, clientReads_ack hfit hplain⟩
    simp only [sentTo, sendAck, List.filterMap_cons, if_true, List.filterMap_nil]
    rfl
  · have hasking : asking [p] = [] := by simp [asking, hneed]
    rw [if_neg hneed, hasking]
    exact serves_nothing rfl rfl

/-- A short message is one packet. -/
theorem sendRMC_short (h : Tellable settings msg) :
    sendRMC settings c conn msg =
      (sendOneFragment conn msg.encode 0, [.send c (fragmentPacket conn msg.encode 0).encode]) :=
  if_pos h.2.2

theorem serves_sendRMC (route : Route) (hsize : fragSize settings ≤ 65535) (hfit : conn.route.Fits)
    (h : Tellable settings msg) (htold : Interleaves tells pushed [msg]) :
    Serves c route (sendRMC settings c conn msg).2 [] [] tells pushed := by
  rw [sendRMC_short h]
  refine ⟨[fragmentPacket conn msg.encode 0], [msg], ?_, rfl, htold, clientReads_response hfit (h.2.2.trans hsize)⟩
  simp [sentTo]

theorem at_sendRMC (h : Tellable settings msg) (hroute : conn.route = route) (hbuf : conn.fragBuf = buf) :
    (sendRMC settings c conn msg).1.route = route ∧ (sendRMC settings c conn msg).1.fragBuf = buf := by
  rw [sendRMC_short h]
  exact ⟨hroute, hbuf⟩

/-- Several messages, one after the other. -/
theorem serves_sendAll (c : Sock) (hsize : fragSize settings ≤ 65535) (hfit : route.Fits) {msgs : List RMCMessage}
    (h : ∀ msg ∈ msgs, Tellable settings msg) (hroute : conn.route = route) (hbuf : conn.fragBuf = buf) :
    ((sendAll settings c conn msgs).1.route = route ∧ (sendAll settings c conn msgs).1.fragBuf = buf) ∧
      Serves c route (sendAll settings c conn msgs).2 [] [] msgs [] := by
  induction msgs generalizing conn with
  | nil => exact ⟨⟨hroute, hbuf⟩, serves_nothing rfl rfl⟩
  | cons msg msgs ih =>
    obtain ⟨hmsg, hmsgs⟩ := List.forall_mem_cons.mp h
    obtain ⟨hroute', hbuf'⟩ := at_sendRMC (c := c) hmsg hroute hbuf
    obtain ⟨hat, hserves⟩ := ih hmsgs hroute' hbuf'
    exact ⟨hat, (serves_sendRMC route hsize (hroute.symm ▸ hfit) hmsg (.only [msg])).append hserves⟩

/-- A run in which the packets `qs` come for `c`, whatever else happens at the endpoint and whatever short messages
are pushed to `c`: it takes the buffer from `buf` to `buf'`, and serves `c`. -/
def Handles (crypto : Crypto) (e : Config) (c : Sock) (route : Route) (buf : Bytes) (qs : List Arrival)
    (buf' : Bytes) (ids : List UInt16) (reqs tells : List RMCMessage) : Prop :=
  ∀ ⦃s log ts s' log'⦄, At s c route buf → packetsTo c ts = qs →
    (∀ msg ∈ pushedTo c ts, Tellable e.settings msg) → run (turn crypto e) (s, log) ts = some (s', log') →
    At s' c route buf' ∧ ∃ effects, log' = log ++ effects ∧ Serves c route effects ids reqs tells (pushedTo c ts)

theorem Handles.append (h : Handles crypto e c route buf qs buf' ids reqs tells)
    (h' : Handles crypto e c route buf' qs' buf'' ids' reqs' tells') :
    Handles crypto e c route buf (qs ++ qs') buf'' (ids ++ ids') (reqs ++ reqs') (tells ++ tells') := by
  intro s log ts s' log' hat hpackets hpushed hrun
  obtain ⟨ts₁, ts₂, rfl, hpackets₁, hpackets₂⟩ := packetsTo_append hpackets
  rw [pushedTo_append] at hpushed ⊢
  obtain ⟨hpushed₁, hpushed₂⟩ := List.forall_mem_append.mp hpushed
  obtain ⟨⟨s₁, log₁⟩, hrun₁, hrun₂⟩ := run_append_some.mp hrun
  obtain ⟨hat₁, effects, rfl, hserves⟩ := h hat hpackets₁ hpushed₁ hrun₁
  obtain ⟨hat', effects', rfl, hserves'⟩ := h' hat₁ hpackets₂ hpushed₂ hrun₂
  exact ⟨hat', effects ++ effects', List.append_assoc _ _ _, hserves.append hserves'⟩

theorem serve_fragment (hconn : s.sockets.lookup c = some conn) {q : Arrival} (hfrag : IsFragment q.packet) :
    serve crypto e s c q =
      some (s.set c (serveData e c { conn with lastSeen := q.env.now } q).1,
        (serveData e c { conn with lastSeen := q.env.now } q).2) := by
  unfold serve
  rw [if_pos hfrag.1, hconn]

section Handling

variable (hsize : fragSize e.settings ≤ 65535) (hfit : route.Fits)

include hsize hfit

/-- A turn that brings no packet for `c`. -/
theorem serves_takeTurn {t : Turn} {r : State × List Effect} (h : takeTurn crypto e s t = some r)
    (hat : At s c route buf) (hpacket : t.packetTo c = none) (hpush : ∀ msg ∈ t.pushTo c, Tellable e.settings msg) :
    At r.1 c route buf ∧ Serves c route r.2 [] [] [] (t.pushTo c).toList := by
  obtain ⟨conn, hconn, hroute, hbuf⟩ := hat
  cases hto : t.pushTo c with
  | none =>
    obtain ⟨hholds, haside⟩ := takeTurn_aside h hpacket hto (holds_of_lookup hconn)
    exact ⟨at_of_holds hholds hroute hbuf, serves_aside haside⟩
  | some msg =>
    have htell := hpush msg hto
    obtain rfl : t = .push c msg := eq_push hto
    simp only [takeTurn, hconn] at h
    obtain rfl := Option.some.inj h
    obtain ⟨hroute', hbuf'⟩ := at_sendRMC (c := c) htell hroute hbuf
    exact ⟨at_set hroute' hbuf', serves_sendRMC route hsize (hroute.symm ▸ hfit) htell (.right msg .nil)⟩

theorem Handles.nil (crypto : Crypto) (c : Sock) (buf : Bytes) : Handles crypto e c route buf [] buf [] [] [] := by
  intro s log ts s' log' hat hpackets hpushed hrun
  induction ts generalizing s log with
  | nil =>
    rw [run_nil, Option.some.injEq, Prod.mk.injEq] at hrun
    obtain ⟨rfl, rfl⟩ := hrun
    exact ⟨hat, [], (List.append_nil _).symm, serves_nothing rfl rfl⟩
  | cons t ts ih =>
    rw [packetsTo, List.filterMap_eq_nil_iff, List.forall_mem_cons] at hpackets
    rw [pushedTo_cons] at hpushed ⊢
    obtain ⟨hpush, hpushed⟩ := List.forall_mem_append.mp hpushed
    obtain ⟨w, hturn, hrest⟩ := run_cons_some.mp hrun
    obtain ⟨r, hr, rfl⟩ := turn_some hturn
    obtain ⟨hat₁, hserves⟩ := serves_takeTurn hsize hfit hr hat hpackets.1
      (fun msg hmsg => hpush msg (Option.mem_toList.mpr hmsg))
    obtain ⟨hend, effects, rfl, hserves'⟩ := ih hat₁ (List.filterMap_eq_nil_iff.mpr hpackets.2) hpushed hrest
    exact ⟨hend, r.2 ++ effects, List.append_assoc _ _ _, hserves.append hserves'⟩

/-- One packet, from what `serve` does with it. -/
theorem Handles.of_serve {q : Arrival}
    (h : ∀ s conn, s.sockets.lookup c = some conn → conn.route = route → conn.fragBuf = buf →
      ∃ r, serve crypto e s c q = some r ∧ At r.1 c route buf' ∧ Serves c route r.2 ids reqs tells []) :
    Handles crypto e c route buf [q] buf' ids reqs tells := by
  intro s log ts s' log' hat hpackets hpushed hrun
  obtain ⟨ts₁, ts₂, s₁, log₁, r, rfl, hpackets₁, hpackets₂, hrun₁, hserve, hrun₂⟩ := exists_arrival hpackets hrun
  rw [pushedTo_arrival] at hpushed ⊢
  obtain ⟨hpushed₁, hpushed₂⟩ := List.forall_mem_append.mp hpushed
  obtain ⟨⟨conn, hconn, hroute, hbuf⟩, effects₁, rfl, hserves₁⟩ :=
    Handles.nil hsize hfit crypto c buf hat hpackets₁ hpushed₁ hrun₁
  obtain ⟨r', hserve', hat', hserves⟩ := h s₁ conn hconn hroute hbuf
  obtain rfl := Option.some.inj (hserve.symm.trans hserve')
  obtain ⟨hend, effects₂, rfl, hserves₂⟩ := Handles.nil hsize hfit crypto c buf' hat' hpackets₂ hpushed₂ hrun₂
  have hall := (hserves₁.append hserves).append hserves₂
  simp only [List.append_nil, List.nil_append] at hall
  exact ⟨hend, effects₁ ++ r.2 ++ effects₂, by simp only [List.append_assoc], hall⟩

/-- A fragment that is not the last goes into the buffer. -/
theorem handles_before (crypto : Crypto) (c : Sock) {q : Arrival} (hfrag : IsFragment q.packet)
    (hid : q.packet.fragmentID ≠ 0) (buf : Bytes) :
    Handles crypto e c route buf [q] (buf ++ q.packet.payload) (asking [q.packet]) [] [] := by
  refine .of_serve hsize hfit (fun s conn hconn hroute hbuf => ?_)
  subst hroute hbuf
  have hdata : serveData e c { conn with lastSeen := q.env.now } q =
      ({ conn with lastSeen := q.env.now, fragBuf := conn.fragBuf ++ q.packet.payload },
        if q.packet.hasFlag Flag.needACK then [sendAck c { conn with lastSeen := q.env.now } q.packet] else []) := by
    unfold serveData
    rw [processData_fragment hfrag]
    simp only [handed, if_pos hfrag, reassemble, if_neg hid]
    exact telling_none (not_invoked_acks _)
  have hserve : serve crypto e s c q = _ := serve_fragment hconn hfrag
  rw [hdata] at hserve
  have hfit' : Route.Fits (Connection.route { conn with lastSeen := q.env.now }) := hfit
  exact ⟨_, hserve, at_set rfl rfl, serves_acks c _ hfit' hfrag.plain⟩

/-- The fragments of a request but the last. -/
theorem handles_befores (crypto : Crypto) (c : Sock)
    (hqs : ∀ q ∈ qs, IsFragment q.packet ∧ q.packet.fragmentID ≠ 0) (buf : Bytes) :
    Handles crypto e c route buf qs (buf ++ (qs.map Arrival.packet).flatMap Packet.payload)
      (asking (qs.map Arrival.packet)) [] [] := by
  induction qs generalizing buf with
  | nil =>
    rw [List.map_nil, List.flatMap_nil, List.append_nil]
    exact .nil hsize hfit crypto c buf
  | cons q qs ih =>
    obtain ⟨hfrag, hid⟩ := hqs q List.mem_cons_self
    have hall := (handles_before hsize hfit crypto c hfrag hid buf).append
      (ih (fun q hq => hqs q (List.mem_cons_of_mem _ hq)) (buf ++ q.packet.payload))
    rw [← asking_append, List.append_assoc] at hall
    exact hall

/-- The request is dispatched, and its handler pushes and answers. -/
theorem serves_dispatch (c : Sock) (conn : Connection) {x : Exchange} (hsends : x.Sends) (hfits : x.Fits e)
    (hroute : conn.route = route) (hbuf : conn.fragBuf = buf) {r : Connection × List Effect}
    (hr : telling e.settings c (fun req => x.last.pushes ++ (x.last.env.answer req).toList)
      (dispatchRMC e x.last.env.deferred c conn x.req.encode) = r) :
    (r.1.route = route ∧ r.1.fragBuf = buf) ∧
      Serves c route r.2 [] (if e.handler x.req.protocol then [x.req] else []) (x.tells e) [] := by
  have hparse : parseRMC x.req.encode = some x.req := by
    rw [parseRMC_encode hsends.size, parseRMCFields_payload hsends.request.2 hsends.protocol]
    rfl
  have hmode : ¬ x.req.mode ≠ .request := not_not.mpr hsends.request.1
  unfold dispatchRMC at hr
  rw [hparse] at hr
  dsimp only at hr
  rw [if_neg hmode] at hr
  unfold Exchange.Fits Exchange.tells at hfits
  unfold Exchange.tells
  by_cases hhandler : e.handler x.req.protocol = true
  · rw [if_pos hhandler] at hfits hr ⊢
    rw [if_pos hhandler]
    have hcalls : Serves c route [.onRMC c x.req, .invoke c conn x.req] [] [x.req] [] [] := by
      refine serves_nothing rfl ?_
      subst hroute
      simp [reports, Route.call, Connection.route]
    obtain ⟨hat, hserves⟩ := serves_sendAll c hsize hfit hfits hroute hbuf
    obtain rfl := hr
    exact ⟨hat, hcalls.append hserves⟩
  · rw [if_neg hhandler] at hfits hr ⊢
    rw [if_neg hhandler]
    have htell := hfits _ (List.mem_singleton_self _)
    simp only [telling, sendRMC, List.findSome?_cons, Effect.invoked, not_invoked_sendData] at hr
    obtain rfl := hr
    have honRMC : Serves c route [.onRMC c x.req] [] [] [] [] := serves_nothing rfl rfl
    exact ⟨at_sendRMC htell hroute hbuf,
      honRMC.append (serves_sendRMC route hsize (hroute.symm ▸ hfit) htell (.only _))⟩

/-- The fragment that completes a request. -/
theorem handles_last (crypto : Crypto) (c : Sock) {x : Exchange} (hsends : x.Sends) (hfits : x.Fits e)
    (hwhole : buf ++ x.last.packet.payload = x.req.encode) :
    Handles crypto e c route buf [x.last] [] (asking [x.last.packet])
      (if e.handler x.req.protocol then [x.req] else []) (x.tells e) := by
  refine .of_serve hsize hfit (fun s conn hconn hroute hbuf => ?_)
  subst hroute hbuf
  obtain ⟨hfrag, hid⟩ := hsends.last
  have hserve : serve crypto e s c x.last = _ := serve_fragment hconn hfrag
  have hdata : serveData e c { conn with lastSeen := x.last.env.now } x.last =
      ((telling e.settings c (fun req => x.last.pushes ++ (x.last.env.answer req).toList)
        (dispatchRMC e x.last.env.deferred c { conn with lastSeen := x.last.env.now, fragBuf := [] }
          x.req.encode)).1,
      (if x.last.packet.hasFlag Flag.needACK then
        [sendAck c { conn with lastSeen := x.last.env.now } x.last.packet] else []) ++
      (telling e.settings c (fun req => x.last.pushes ++ (x.last.env.answer req).toList)
        (dispatchRMC e x.last.env.deferred c { conn with lastSeen := x.last.env.now, fragBuf := [] }
          x.req.encode)).2) := by
    unfold serveData
    rw [processData_fragment hfrag]
    simp only [handed, if_pos hfrag, reassemble, if_pos hid, hwhole]
    exact telling_acks _ _ _ _ _
  rw [hdata] at hserve
  have hfit' : Route.Fits (Connection.route { conn with lastSeen := x.last.env.now }) := hfit
  obtain ⟨⟨hroute, hbuf⟩, hserves⟩ := serves_dispatch hsize hfit c
    { conn with lastSeen := x.last.env.now, fragBuf := [] } hsends hfits rfl rfl rfl
  have hboth := (serves_acks c conn.route hfit' hfrag.plain).append hserves
  rw [List.append_nil] at hboth
  exact ⟨_, hserve, at_set hroute hbuf, hboth⟩

/-- **One exchange.** -/
theorem handles_exchange (crypto : Crypto) (c : Sock) {x : Exchange} (hsends : x.Sends) (hfits : x.Fits e) :
    Handles crypto e c route [] x.arrivals [] (asking x.packets) (if e.handler x.req.protocol then [x.req] else [])
      (x.tells e) := by
  have hwhole : [] ++ (x.before.map Arrival.packet).flatMap Packet.payload ++ x.last.packet.payload =
      x.req.encode := by
    rw [List.nil_append, ← hsends.payload, Exchange.packets, Exchange.arrivals, List.map_append,
      List.flatMap_append]
    simp
  have hall := (handles_befores hsize hfit crypto c hsends.before []).append
    (handles_last hsize hfit crypto c hsends hfits hwhole)
  rw [← asking_append, List.nil_append, List.nil_append] at hall
  rw [Exchange.packets, Exchange.arrivals, List.map_append]
  exact hall

/-- **Any number of exchanges.** -/
theorem handles_exchanges (crypto : Crypto) (c : Sock) {xs : List Exchange} (hsends : ∀ x ∈ xs, x.Sends)
    (hfits : ∀ x ∈ xs, x.Fits e) :
    Handles crypto e c route [] (xs.flatMap Exchange.arrivals) [] (asking (xs.flatMap Exchange.packets))
      ((xs.filter (fun x => e.handler x.req.protocol)).map (fun x => x.req)) (xs.flatMap (Exchange.tells e)) := by
  induction xs with
  | nil => exact .nil hsize hfit crypto c []
  | cons x xs ih =>
    have hall := (handles_exchange hsize hfit crypto c (hsends x List.mem_cons_self)
      (hfits x List.mem_cons_self)).append (ih (fun y hy => hsends y (List.mem_cons_of_mem _ hy))
        (fun y hy => hfits y (List.mem_cons_of_mem _ hy)))
    rw [← asking_append] at hall
    have hreqs : (if e.handler x.req.protocol then [x.req] else []) ++
        (xs.filter (fun x => e.handler x.req.protocol)).map (fun x => x.req) =
        ((x :: xs).filter (fun x => e.handler x.req.protocol)).map (fun x => x.req) := by
      by_cases hhandler : e.handler x.req.protocol = true <;> simp [hhandler]
    rw [hreqs] at hall
    exact hall

end Handling

/-- The messages of a client that reads short messages. -/
theorem received_told (hsize : fragSize settings ≤ 65535) {out : List Packet} {told : List RMCMessage}
    (htold : ∀ msg ∈ told, Tellable settings msg) (hreads : ClientReads out ids (told.map RMCMessage.encode)) :
    (received out).map parseRMC = told.map some := by
  rw [received, hreads.whole, List.map_map]
  refine List.map_congr_left (fun msg hmsg => ?_)
  obtain ⟨hbuilt, hprotocol, hshort⟩ := htold msg hmsg
  show parseRMC msg.encode = some msg
  rw [parseRMC_encode (by omega), parseRMCFields_payload hbuilt hprotocol]
  rfl

theorem tellable_flatMap {xs : List Exchange} (hfits : ∀ x ∈ xs, x.Fits e) :
    ∀ msg ∈ xs.flatMap (Exchange.tells e), Tellable e.settings msg := by
  intro msg hmsg
  obtain ⟨x, hx, hmsg⟩ := List.mem_flatMap.mp hmsg
  exact hfits x hx msg hmsg

/-- A packet of a client, with an acknowledgement asked for. -/
def clientPacket (fragmentID : UInt8) (packetID : UInt16) (payload : Bytes) : Packet :=
  { type := PacketType.data, flags := Flag.reliable ||| Flag.needACK, fragmentID, packetID, payload }

def handlerEnv : PacketEnv := ⟨1, [], none, fun req => some (newRMCSuccess req.protocol req.method req.callID [5])⟩

/-- A notification to a client. -/
def notice (callID : UInt32) : RMCMessage := newRMCRequest 0x0E 1 callID [4]

/-- A request in two fragments to a handler that notifies its caller. -/
def handledExchange : Exchange where
  req := newRMCRequest 0x6D 1 1 [9]
  before := [⟨clientPacket 1 1 ((newRMCRequest 0x6D 1 1 [9]).encode.take 6), handlerEnv, []⟩]
  last := ⟨clientPacket 0 2 ((newRMCRequest 0x6D 1 1 [9]).encode.drop 6), handlerEnv, [notice 7]⟩

/-- A request in one fragment to a protocol that has no handler. -/
def refusedExchange : Exchange where
  req := newRMCRequest 0x70 4 2 []
  before := []
  last := ⟨clientPacket 0 3 (newRMCRequest 0x70 4 2 []).encode, handlerEnv, []⟩

theorem encodable_clientPacket {fragmentID : UInt8} {packetID : UInt16} {payload : Bytes}
    (h : payload.length ≤ 65535) : (clientPacket fragmentID packetID payload).Encodable :=
  ⟨by show PacketType.data < 16; decide, by show Flag.reliable ||| Flag.needACK < 4096; decide, by
    show (0 : UInt8) < 16; decide, by show (0 : UInt8) < 16; decide, by
    show (0 : UInt32) < 16777216; decide, h, by show ([] : Bytes).length ≤ 255; decide, fun _ => ⟨rfl, rfl⟩,
    fun _ => rfl, fun _ => rfl⟩

theorem sends_handled : handledExchange.Sends where
  request := ⟨rfl, .request _ _ _ _⟩
  protocol := by decide
  size := by decide
  before := by decide
  last := by decide
  payload := by decide
  encodable p hp := by
    simp only [Exchange.packets, Exchange.arrivals, handledExchange, List.map_cons, List.map_nil,
      List.singleton_append, List.mem_cons, List.not_mem_nil, or_false] at hp
    rcases hp with rfl | rfl
    · exact encodable_clientPacket (by decide)
    · exact encodable_clientPacket (by decide)

theorem sends_refused : refusedExchange.Sends where
  request := ⟨rfl, .request _ _ _ _⟩
  protocol := by decide
  size := by decide
  before := by decide
  last := by decide
  payload := by decide
  encodable p hp := by
    rw [List.mem_singleton.mp hp]
    exact encodable_clientPacket (by decide)

theorem tellable_notice {settings : Settings} (hsize : 100 ≤ fragSize settings) (callID : UInt32) :
    Tellable settings (notice callID) := by
  have hlength : (notice callID).encode.length = 14 := rfl
  exact ⟨.request _ _ _ _, by show (0x0E : UInt16) ≠ 0x7F; decide, by omega⟩

theorem fits_handled {e : Config} (hsize : 100 ≤ fragSize e.settings) (hhandler : e.handler 0x6D = true) :
    handledExchange.Fits e := by
  have htells : handledExchange.tells e = [notice 7, newRMCSuccess 0x6D 1 1 [5]] := if_pos hhandler
  have hlength : (newRMCSuccess 0x6D 1 1 [5]).encode.length ≤ 100 := by decide
  unfold Exchange.Fits
  rw [htells, List.forall_mem_cons, List.forall_mem_singleton]
  exact ⟨tellable_notice hsize 7, .success _ _ _ _ (by decide), by decide, hlength.trans hsize⟩

theorem fits_both : ∀ x ∈ [handledExchange, refusedExchange], x.Fits secureConfig := by
  rw [List.forall_mem_cons, List.forall_mem_singleton]
  refine ⟨fits_handled (by decide) (by decide), ?_⟩
  have htells : refusedExchange.tells secureConfig = [newRMCError 0x70 2 resultCoreNotImplemented] :=
    if_neg (by decide)
  unfold Exchange.Fits
  rw [htells, List.forall_mem_singleton]
  exact ⟨.error _ _ _, by decide, by decide⟩

/-- Both requests, with a notification by the first handler, and between them a packet of another connection, a
notification by another and a close. -/
def crowdedTrace : List Turn :=
  [.other (.accept 1 .other)] ++ handledExchange.arrivals.map (.arrival 0) ++
    [.arrival 1 ⟨clientPacket 0 9 [7], handlerEnv, []⟩, .push 0 (notice 8), .other (.close 0)] ++
    refusedExchange.arrivals.map (.arrival 0)

end NextendoMatchmaking.Endpoint
