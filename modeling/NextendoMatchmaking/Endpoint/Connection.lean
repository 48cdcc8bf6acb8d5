import NextendoMatchmaking.Wire.Kerberos
import NextendoMatchmaking.Wire.Rmc

/-!
# Connections

`Connection` of `nextendo-nex/endpoint.go`: what one transport socket carries, and the methods that touch
only the connection itself.  A method gives the connection it leaves and what it did outside, as a list of
`Effect`s in the order in which they happened.

A message that needs several fragments is sent by a goroutine of its own.  The connection that starts it
only reports `Effect.spawn`; the steps of that goroutine are `Sender.next`.
-/

namespace NextendoMatchmaking.Endpoint

/-! ### Data -/

/-- The configuration of an `Endpoint`.  Of a handler only its being registered matters here: what it does
is up to the code that registered it. -/
structure Config where
  settings : Settings
  secure : Bool
  secureKey : Bytes
  handlers : List UInt16
  fallbackHandler : Bool
  customPacketHandlers : List UInt8

inductive ConnState
  | connecting
  | connected
  | closed
  deriving DecidableEq

structure Connection where
  remoteAddr : RemoteAddr
  id : UInt32 := 0
  pid : UInt64 := 0
  cid : UInt32 := 0
  sessionKey : Bytes := []
  connectionSig : Bytes := []
  minorVersion : UInt8 := 0
  supportedFunc : UInt32 := 0
  srcType : UInt8 := 0
  srcPort : UInt8 := 0
  dstType : UInt8 := 0
  dstPort : UInt8 := 0
  fragBuf : Bytes := []
  outReliable : UInt16 := 1
  /-- The encoded reliable packets that are not acknowledged yet. -/
  pending : GoMap UInt16 Bytes := ∅
  state : ConnState := .connecting
  /-- The time of the last packet in nanoseconds, zero before the first. -/
  lastSeen : Int := 0

/-- `NewConnection`. -/
def newConnection (remoteAddr : RemoteAddr) : Connection := { remoteAddr }

/-- The name of a connection: the socket it was made for. -/
abbrev Sock := ℕ

/-- What a connection does outside itself. -/
inductive Effect
  /-- A packet goes to the transport. -/
  | send (c : Sock) (data : Bytes)
  /-- A goroutine is started that sends the message in fragments. -/
  | spawn (c : Sock) (data : Bytes)
  /-- `OnConnect`, `OnDisconnect` and `OnRMC`, if set, are called. -/
  | onConnect (c : Sock) (pid : UInt64)
  | onDisconnect (c : Sock) (pid : UInt64)
  | onRMC (c : Sock) (req : RMCMessage)
  /-- A registered RMC handler, or the fallback, is called on the connection as it then is. -/
  | invoke (c : Sock) (conn : Connection) (req : RMCMessage)
  /-- A custom packet handler is called. -/
  | custom (c : Sock) (p : Packet)

/-! ### Sending -/

/-- `sendAck`. -/
def sendAck (c : Sock) (conn : Connection) (p : Packet) : Effect :=
  .send c (Packet.encode {
    type := p.type
    flags := Flag.ack
    sourceType := conn.srcType
    sourcePort := conn.srcPort
    destType := conn.dstType
    destPort := conn.dstPort
    fragmentID := p.fragmentID
    packetID := p.packetID })

/-- The packet of `sendOneFragment`. -/
def fragmentPacket (conn : Connection) (chunk : Bytes) (fragmentID : UInt8) : Packet where
  type := PacketType.data
  flags := Flag.reliable ||| Flag.needACK
  sourceType := conn.srcType
  sourcePort := conn.srcPort
  destType := conn.dstType
  destPort := conn.dstPort
  fragmentID := fragmentID
  packetID := conn.outReliable
  payload := chunk

/-- `sendOneFragment`: the connection it leaves; the packet goes out encoded. -/
def sendOneFragment (conn : Connection) (chunk : Bytes) (fragmentID : UInt8) : Connection :=
  { conn with
    outReliable := conn.outReliable + 1
    pending := conn.pending.insert conn.outReliable (fragmentPacket conn chunk fragmentID).encode }

/-- The fragment size that `sendData` works with. -/
def fragSize (s : Settings) : ℕ := if s.fragmentSize ≤ 0 then 1300 else s.fragmentSize.toNat

/-- `sendData`: one packet is sent at once, a longer message by a goroutine. -/
def sendData (s : Settings) (c : Sock) (conn : Connection) (data : Bytes) : Connection × List Effect :=
  if data.length ≤ fragSize s then
    (sendOneFragment conn data 0, [.send c (fragmentPacket conn data 0).encode])
  else
    (conn, [.spawn c data])

/-- A message that is being sent by `sendData`: the message, what is left of it, and the id of its next
fragment. -/
structure Sender where
  data : Bytes
  rest : Bytes
  fragmentID : UInt8

def newSender (data : Bytes) : Sender := ⟨data, data, 1⟩

namespace Sender

/-- The bytes and the id of the next fragment; the last one has the id 0. -/
def fragment (size : ℕ) (w : Sender) : Bytes × UInt8 :=
  if size < w.rest.length then (w.rest.take size, w.fragmentID) else (w.rest, 0)

/-- What is left after the next fragment; nothing after a fragment with the id 0. -/
def next (size : ℕ) (w : Sender) : Option Sender :=
  if (w.fragment size).2 = 0 then none
  else some { w with rest := w.rest.drop size, fragmentID := w.fragmentID + 1 }

end Sender

/-- `SendRMC`. -/
def sendRMC (s : Settings) (c : Sock) (conn : Connection) (msg : RMCMessage) : Connection × List Effect :=
  sendData s c conn msg.encode

/-! ### Receiving -/

/-- `ackPackets`. -/
def ackPackets (conn : Connection) (base : UInt16) (extra : List UInt16) : Connection :=
  { conn with
    pending := extra.foldl (fun m pid => m.erase pid)
      (GoMap.deleteWhere (fun pid _ => decide (pid ≤ base)) conn.pending) }

/-- The extra ids of an aggregate acknowledgement, `count` of them or as many as there are bytes for. -/
def multiAckExtras : ℕ → Bytes → List UInt16
  | 0, _ => []
  | count + 1, b₀ :: b₁ :: rest => UInt16.ofNat (leNat [b₀, b₁]) :: multiAckExtras count rest
  | _ + 1, _ => []

/-- The aggregate acknowledgement of `processData`. -/
def processMultiAck (conn : Connection) : Bytes → Connection
  | _ :: count :: b₀ :: b₁ :: rest =>
    ackPackets conn (UInt16.ofNat (leNat [b₀, b₁])) (multiAckExtras count.toNat rest)
  | _ => conn

/-- The reassembly of `processData`: what is left in the buffer, and the message that a fragment
completes. -/
def reassemble (fragBuf : Bytes) (p : Packet) : Bytes × Option Bytes :=
  let fragBuf := fragBuf ++ p.payload
  if p.fragmentID = 0 then ([], some fragBuf) else (fragBuf, none)

/-- What a packet finds outside the connection: the clock, random bytes, the answer of `RecallAuthPID`, and
what the handler answers to a request. -/
structure PacketEnv where
  now : Int
  random : Bytes
  recalled : Option UInt64
  answer : RMCMessage → Option RMCMessage

/-- `handler`. -/
def Config.handler (e : Config) (protocol : UInt16) : Bool :=
  e.handlers.contains protocol || e.fallbackHandler

/-- `dispatchRMC`. -/
def dispatchRMC (e : Config) (env : PacketEnv) (c : Sock) (conn : Connection) (payload : Bytes) :
    Connection × List Effect :=
  match parseRMC payload with
  | none => (conn, [])
  | some req =>
    if req.mode ≠ .request then
      (conn, [])
    else if e.handler req.protocol then
      let calls : List Effect := [.onRMC c req, .invoke c conn req]
      match env.answer req with
      | none => (conn, calls)
      | some resp =>
        let (conn, sends) := sendRMC e.settings c conn resp
        (conn, calls ++ sends)
    else
      let (conn, sends) := sendRMC e.settings c conn
        (newRMCError req.protocol req.callID resultCoreNotImplemented)
      (conn, .onRMC c req :: sends)

/-- `processData`. -/
def processData (e : Config) (env : PacketEnv) (c : Sock) (conn : Connection) (p : Packet) :
    Connection × List Effect :=
  if p.hasFlag Flag.multiACK then
    (processMultiAck conn p.payload, [])
  else if p.hasFlag Flag.ack then
    (ackPackets conn p.packetID [], [])
  else
    let acks := if p.hasFlag Flag.needACK then [sendAck c conn p] else []
    let (fragBuf, full) := reassemble conn.fragBuf p
    let conn := { conn with fragBuf }
    match full with
    | none => (conn, acks)
    | some payload =>
      let (conn, effects) := dispatchRMC e env c conn payload
      (conn, acks ++ effects)

/-- `processPing`. -/
def processPing (c : Sock) (conn : Connection) (p : Packet) : List Effect :=
  if p.hasFlag Flag.ack then []
  else if p.hasFlag Flag.needACK then [sendAck c conn p]
  else []

/-! ### The handshake -/

/-- `min8`. -/
def min8 (a : Int) (b : UInt8) : UInt8 :=
  if a < b.toNat then UInt8.ofNat (a % 256).toNat else b

/-- `processSYN`. -/
def processSYN (crypto : Crypto) (e : Config) (env : PacketEnv) (c : Sock) (conn : Connection)
    (p : Packet) : Connection × List Effect :=
  let conn := { conn with
    srcType := p.destType
    srcPort := p.destPort
    dstType := p.sourceType
    dstPort := p.sourcePort
    connectionSig := connectionSignature crypto env.random conn.remoteAddr
    minorVersion := min8 e.settings.prudpMinorVersion p.minorVersion
    supportedFunc := UInt32.ofNat (e.settings.supportedFunctions % 2 ^ 32).toNat &&& p.supportedFunc }
  (conn, [.send c (Packet.encode {
    type := PacketType.syn
    flags := Flag.ack ||| Flag.hasSize
    sourceType := conn.srcType
    sourcePort := conn.srcPort
    destType := conn.dstType
    destPort := conn.dstPort
    connectionSig := conn.connectionSig
    minorVersion := conn.minorVersion
    supportedFunc := conn.supportedFunc })])

/-- The errors of `processLoginRequest`. -/
inductive LoginError
  /-- `connect: ticketless CONNECT with no recent auth from this address` -/
  | noRecentAuth
  /-- The payload does not hold two buffers. -/
  | unexpectedEOF
  | badTicket
  | badRequest
  /-- `connect: bad check-data size` -/
  | badCheckSize
  /-- `connect: pid does not match ticket source` -/
  | wrongSource
  deriving DecidableEq

/-- `processLoginRequest`: the connection with the identity that was proved, and the response. -/
def processLoginRequest (crypto : Crypto) (e : Config) (env : PacketEnv) (conn : Connection)
    (payload : Bytes) : Except LoginError (Connection × Bytes) :=
  let s := e.settings
  if !e.secure then
    .ok (conn, [])
  else if payload.length = 0 then
    match env.recalled with
    | none => .error .noRecentAuth
    | some pid => .ok ({ conn with pid }, [])
  else
    let ((ticketData, requestData), err) := StreamIn.run (do
      let ticketData ← StreamIn.buffer
      let requestData ← StreamIn.buffer
      return (ticketData, requestData)) payload
    if err then
      .error .unexpectedEOF
    else
      match decryptServerTicket crypto s ticketData e.secureKey with
      | none => .error .badTicket
      | some ticket =>
        match kerberosDecrypt crypto ticket.sessionKey requestData with
        | none => .error .badRequest
        | some decrypted =>
          if (decrypted.length : Int) ≠ s.pidSize + 8 then
            .error .badCheckSize
          else
            let ((pid, cid, check), _) := StreamIn.run (do
              let pid ← StreamIn.pid s
              let cid ← StreamIn.u32
              let check ← StreamIn.u32
              return (pid, cid, check)) decrypted
            if pid ≠ ticket.source then
              .error .wrongSource
            else
              .ok ({ conn with pid, cid, sessionKey := ticket.sessionKey },
                StreamOut.u32 4 ++ StreamOut.u32 (check + 1))

/-- The part of `processCONNECT` that decides: the connection after the login, and the acknowledgement. -/
def acceptCONNECT (crypto : Crypto) (e : Config) (env : PacketEnv) (conn : Connection) (p : Packet) :
    Option (Connection × Packet) :=
  if litePacketSignature crypto e.settings.accessKey p conn.connectionSig ≠ p.signature then
    none
  else
    match processLoginRequest crypto e env conn p.payload with
    | .error _ => none
    | .ok (conn, response) => some (conn, {
        type := PacketType.connect
        flags := Flag.ack ||| Flag.hasSize
        sourceType := conn.srcType
        sourcePort := conn.srcPort
        destType := conn.dstType
        destPort := conn.dstPort
        minorVersion := conn.minorVersion
        supportedFunc := conn.supportedFunc
        packetID := 1
        payload := response })

end NextendoMatchmaking.Endpoint
