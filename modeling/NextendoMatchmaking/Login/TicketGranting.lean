import NextendoMatchmaking.Endpoint.Connection
import NextendoMatchmaking.Wire.Structures

/-!
# The authentication server

The handler of `nextendo-nex/ticketgranting.go` that answers a login with a ticket for the secure server, in
its two versions: `handleLogin` with the flat response of `LoginEx`, and `handleLoginWithContext` with the
structure that newer titles expect.  A station URL is its rendered text.

The other half is the client that `ticketgranting_test.go` and `endpoint_test.go` play: it decodes the
response, opens the ticket with the source key and builds the payload of its `CONNECT`.
-/

namespace NextendoMatchmaking.Login

open NextendoMatchmaking.Endpoint

def protocolTicketGranting : UInt16 := 0x0A

def methodLogin : UInt32 := 1
def methodLoginEx : UInt32 := 2
def methodLoginWithContext : UInt32 := 6

def resultCoreUnknown : UInt32 := 0x00010001
def resultAuthTokenParseError : UInt32 := 0x00680002
def resultAuthUnknown : UInt32 := 0x0068000E

/-! ### Hexadecimal digits -/

/-- A digit of `hex.EncodeToString`. -/
def hexDigit (n : ℕ) : UInt8 := UInt8.ofNat (if n < 10 then 48 + n else 87 + n)

/-- `hex.EncodeToString`. -/
def hexEncode (b : Bytes) : Bytes := b.flatMap (fun x => [hexDigit (x.toNat / 16), hexDigit (x.toNat % 16)])

/-- The value of a hexadecimal digit. -/
def fromHexDigit (c : UInt8) : Option ℕ :=
  if 48 ≤ c ∧ c ≤ 57 then some (c.toNat - 48)
  else if 97 ≤ c ∧ c ≤ 102 then some (c.toNat - 87)
  else if 65 ≤ c ∧ c ≤ 70 then some (c.toNat - 55)
  else none

/-- `hex.DecodeString`. -/
def hexDecode : Bytes → Option Bytes
  | [] => some []
  | [_] => none
  | c :: d :: rest => do
    let high ← fromHexDigit c
    let low ← fromHexDigit d
    let bytes ← hexDecode rest
    return UInt8.ofNat (16 * high + low) :: bytes

/-! ### The server -/

/-- `AuthConfig`, with the `KerberosKeyDerivation` of its settings. -/
structure AuthConfig where
  settings : Settings
  keyDerivation : Int
  securePID : UInt64
  securePassword : Bytes
  secureStationURL : Option Bytes
  specialProtocols : List UInt8
  serverName : Bytes
  sessionKeyLength : Int
  resolveUser : Bytes → Bytes → Option (UInt64 × Bytes)

/-- What a login finds outside: the random bytes of a session key of a given length and of the ticket key,
`none` where `rand.Read` fails, and the readings of `NowDateTime` in the ticket and in the response. -/
structure LoginEnv where
  sessionKey : Int → Option Bytes
  ticketKey : Option Bytes
  ticketTime : UInt64
  serverTime : UInt64

/-- What a login does: its response, unless it panics, and the PID that `RememberAuthPID` keeps for the
address. -/
structure Answer where
  response : Option RMCMessage
  remembered : Option UInt64 := none
  deriving DecidableEq

/-- The text of `NewStationURL("prudp")`, `prudp:/`. -/
def emptyStation : Bytes := [112, 114, 117, 100, 112, 58, 47]

namespace AuthConfig

variable (crypto : Crypto) (cfg : AuthConfig) (env : LoginEnv) (req : RMCMessage)

/-- `orEmptyStation(cfg.SecureStationURL)`. -/
def station : Bytes := cfg.secureStationURL.getD emptyStation

/-- The length of the session keys. -/
def keyLength : Int := if cfg.sessionKeyLength = 0 then cfg.settings.kerberosKeySize else cfg.sessionKeyLength

/-- The part of both handlers that issues the ticket. -/
def issue (pid : UInt64) (sourceKey : Bytes) : Except TicketError Bytes := do
  let some sessionKey := env.sessionKey cfg.keyLength | .error .random
  let targetKey := deriveKey crypto cfg.keyDerivation cfg.securePassword cfg.securePID
  let internal ← ServerTicket.encrypt crypto cfg.settings targetKey env.ticketKey
    ⟨env.ticketTime, pid, sessionKey⟩
  ClientTicket.encrypt crypto cfg.settings sourceKey ⟨sessionKey, cfg.securePID, internal⟩

/-- The connection data of `buildResponse`. -/
def connectionData : RVConnectionData where
  mainStation := cfg.station
  specialProtocols := cfg.specialProtocols
  specialStation := emptyStation
  serverTime := env.serverTime

/-- `buildResponse`. -/
def buildResponse (retval : UInt32) (pid : UInt64) (ticket sourceKey : Bytes) : RMCMessage :=
  newRMCSuccess protocolTicketGranting req.method req.callID
    (StreamOut.u32 retval ++ StreamOut.pid cfg.settings pid ++ StreamOut.buffer ticket ++
      (cfg.connectionData env).write cfg.settings ++ StreamOut.string cfg.serverName ++
      if 40000 ≤ cfg.settings.nexVersion then StreamOut.string (hexEncode sourceKey) else [])

/-- The user name and the extra data of a `LoginEx`. -/
def readLogin : Bytes × Bytes :=
  (StreamIn.run (do
    let username ← StreamIn.string
    let extraData ← StreamIn.readAll
    return (username, extraData)) req.body).1

/-- `handleLogin`. -/
def handleLogin : Answer :=
  let (username, extraData) := readLogin req
  match cfg.resolveUser username extraData with
  | none =>
    ⟨some (cfg.buildResponse env req (resultAuthTokenParseError ||| resultErrorMask) 0 [] []), none⟩
  | some (pid, sourceKey) =>
    match cfg.issue crypto env pid sourceKey with
    | .ok ticket => ⟨some (cfg.buildResponse env req resultCoreUnknown pid ticket sourceKey), some pid⟩
    | .error .panic => ⟨none, some pid⟩
    | .error _ =>
      ⟨some (cfg.buildResponse env req (resultAuthUnknown ||| resultErrorMask) 0 [] []), some pid⟩

/-- The user name and the extra data of a `ValidateAndRequestTicketWithParam`. -/
def readLoginWithContext : Bytes × Bytes :=
  (StreamIn.run (do
    let _ ← StreamIn.u8
    let _ ← StreamIn.u32
    let _ ← StreamIn.u32
    let username ← StreamIn.string
    let extraData ← StreamIn.readAll
    return (username, extraData)) req.body).1

/-- The content of the `ValidateAndRequestTicketResult`. -/
def ticketContent (pid : UInt64) (ticket sourceKey : Bytes) : Bytes :=
  StreamOut.pid cfg.settings pid ++ StreamOut.buffer ticket ++ StreamOut.string cfg.station ++
    StreamOut.dateTime env.serverTime ++ StreamOut.string cfg.serverName ++
    StreamOut.string (hexEncode sourceKey)

/-- `handleLoginWithContext`. -/
def handleLoginWithContext : Answer :=
  let (username, extraData) := readLoginWithContext req
  match cfg.resolveUser username extraData with
  | none => ⟨some (newRMCError protocolTicketGranting req.callID resultAuthTokenParseError), none⟩
  | some (pid, sourceKey) =>
    match cfg.issue crypto env pid sourceKey with
    | .ok ticket =>
      ⟨some (newRMCSuccess protocolTicketGranting req.method req.callID
        (StreamOut.u8 1 ++ StreamOut.buffer (cfg.ticketContent env pid ticket sourceKey))), some pid⟩
    | .error .panic => ⟨none, some pid⟩
    | .error _ => ⟨some (newRMCError protocolTicketGranting req.callID resultAuthUnknown), some pid⟩

/-- `Handler`. -/
def handler : Answer :=
  if req.method = methodLogin ∨ req.method = methodLoginEx then cfg.handleLogin crypto env req
  else if req.method = methodLoginWithContext then cfg.handleLoginWithContext crypto env req
  else ⟨some (newRMCError protocolTicketGranting req.callID resultCoreNotImplemented), none⟩

end AuthConfig

/-- `SetSecureAccount`, with the `KerberosKeyDerivation` of the settings. -/
def setSecureAccount (crypto : Crypto) (keyDerivation : Int) (password : Bytes) (pid : UInt64) (e : Config) :
    Config :=
  { e with secure := true, secureKey := deriveKey crypto keyDerivation password pid }

/-! ### The client -/

/-- The response of `handleLogin`; the source key, in hexadecimal digits, comes with it from NEX 4 on. -/
structure LoginResponse where
  retval : UInt32
  pid : UInt64
  ticket : Bytes
  connectionData : RVConnectionData
  returnMsg : Bytes
  sourceKey : Option Bytes
  deriving DecidableEq

/-- The source key of a response. -/
def readSourceKey (s : Settings) : Reader (Option Bytes) :=
  if 40000 ≤ s.nexVersion then some <$> StreamIn.string else pure none

def LoginResponse.read (s : Settings) : Reader LoginResponse := do
  let retval ← StreamIn.u32
  let pid ← StreamIn.pid s
  let ticket ← StreamIn.buffer
  let connectionData ← RVConnectionData.read s
  let returnMsg ← StreamIn.string
  let sourceKey ← readSourceKey s
  return { retval, pid, ticket, connectionData, returnMsg, sourceKey }

/-- `ValidateAndRequestTicketResult`. -/
structure TicketResult where
  pid : UInt64
  ticket : Bytes
  serviceNodeURL : Bytes
  currentTime : UInt64
  returnMsg : Bytes
  sourceKey : Bytes
  deriving DecidableEq

def TicketResult.load (s : Settings) : Reader TicketResult := do
  let pid ← StreamIn.pid s
  let ticket ← StreamIn.buffer
  let serviceNodeURL ← StreamIn.string
  let currentTime ← StreamIn.dateTime
  let returnMsg ← StreamIn.string
  let sourceKey ← StreamIn.string
  return { pid, ticket, serviceNodeURL, currentTime, returnMsg, sourceKey }

/-- The structure comes in its frame also where the settings have no struct headers. -/
def TicketResult.read (s : Settings) : Reader TicketResult := do
  let _ ← StreamIn.u8
  StreamIn.substream (TicketResult.load s)

/-- The data with which a client proves that it has the session key. -/
def checkData (s : Settings) (pid : UInt64) (cid check : UInt32) : Bytes :=
  StreamOut.pid s pid ++ StreamOut.u32 cid ++ StreamOut.u32 check

/-- The payload of the `CONNECT` of a client with this ticket and source key. -/
def connectPayload (crypto : Crypto) (s : Settings) (ticket sourceKey : Bytes) (pid : UInt64)
    (cid check : UInt32) : Option Bytes := do
  let t ← decryptClientTicket crypto s ticket sourceKey
  let request ← kerberosEncrypt crypto t.sessionKey (checkData s pid cid check)
  return StreamOut.buffer t.internal ++ StreamOut.buffer request

end NextendoMatchmaking.Login
