import NextendoMatchmaking.Wire.Stream

/-!
# PRUDP-Lite packets

The packets of `nextendo-nex/prudp_lite.go`, their encoding, and the two signatures of the handshake.  MD5,
HMAC-MD5 and RC4 are arbitrary functions (`Crypto`); a result that depends on what they compute says so.
-/

namespace NextendoMatchmaking

/-! ### Cryptographic functions -/

/-- The functions of Go's `crypto` packages that the servers call. -/
structure Crypto where
  md5 : Bytes → Bytes
  hmacMD5 : Bytes → Bytes → Bytes
  /-- The RC4 key stream of a key, applied to data. -/
  rc4 : Bytes → Bytes → Bytes

/-! ### Packets -/

namespace PacketType

def syn : UInt8 := 0
def connect : UInt8 := 1
def data : UInt8 := 2
def disconnect : UInt8 := 3
def ping : UInt8 := 4

end PacketType

namespace Flag

def ack : UInt16 := 0x001
def reliable : UInt16 := 0x002
def needACK : UInt16 := 0x004
def hasSize : UInt16 := 0x008
def multiACK : UInt16 := 0x200

end Flag

/-- `Packet`; the fields that a constructor of the source leaves out are zero. -/
structure Packet where
  type : UInt8
  flags : UInt16 := 0
  sourceType : UInt8 := 0
  sourcePort : UInt8 := 0
  destType : UInt8 := 0
  destPort : UInt8 := 0
  fragmentID : UInt8 := 0
  packetID : UInt16 := 0
  signature : Bytes := []
  connectionSig : Bytes := []
  minorVersion : UInt8 := 0
  supportedFunc : UInt32 := 0
  payload : Bytes := []
  deriving DecidableEq

namespace Packet

/-- `HasFlag`. -/
def hasFlag (p : Packet) (f : UInt16) : Bool := p.flags &&& f != 0

/-- One option of `encodeLiteOptions`: its id, its size in one byte, its value. -/
def option (id : UInt8) (val : Bytes) : Bytes := [id, UInt8.ofNat val.length] ++ val

/-- `encodeLiteOptions`. -/
def encodeLiteOptions (p : Packet) : Bytes :=
  let support := p.minorVersion.toUInt32 ||| (p.supportedFunc <<< 8)
  (if p.type = PacketType.syn ∨ p.type = PacketType.connect then option 0 (StreamOut.u32 support)
    else []) ++
  (if p.type = PacketType.syn ∧ p.hasFlag Flag.ack then option 1 p.connectionSig else []) ++
  (if p.type = PacketType.connect ∧ !p.hasFlag Flag.ack then option 128 p.signature else [])

/-- `EncodePacket`. -/
def encode (p : Packet) : Bytes :=
  let options := p.encodeLiteOptions
  [0x80, UInt8.ofNat options.length] ++ StreamOut.u16 (UInt16.ofNat p.payload.length) ++
    [(p.sourceType <<< 4) ||| (p.destType &&& 0xF), p.sourcePort, p.destPort, p.fragmentID] ++
    StreamOut.u16 ((p.type &&& 0xF).toUInt16 ||| (p.flags <<< 4)) ++ StreamOut.u16 p.packetID ++
    options ++ p.payload

end Packet

/-! ### Signatures -/

/-- The address of a transport peer, as `net.SplitHostPort`, `net.ParseIP` and `strconv.Atoi` take it
apart: the four bytes and the port of an IPv4 peer, or something else. -/
inductive RemoteAddr
  | ipv4 (ip : Bytes) (port : UInt16)
  | other
  deriving DecidableEq

def liteConnSigKey : Bytes :=
  [0x26, 0xc3, 0x1f, 0x38, 0x1e, 0x46, 0xd6, 0xeb, 0x38, 0xe1, 0xaf, 0x6a, 0xb7, 0x0d, 0x11]

/-- `ConnectionSignature`; `random` is what `rand.Read` gives for a peer that is not IPv4. -/
def connectionSignature (crypto : Crypto) (random : Bytes) : RemoteAddr → Bytes
  | .ipv4 ip port => crypto.hmacMD5 liteConnSigKey (ip ++ (StreamOut.u16 port).reverse)
  | .other => random

/-- `LitePacketSignature`: only a `CONNECT` with `NEED_ACK` is signed. -/
def litePacketSignature (crypto : Crypto) (accessKey : Bytes) (p : Packet) (connectionSig : Bytes) :
    Bytes :=
  if p.type = PacketType.connect ∧ p.hasFlag Flag.needACK then
    crypto.hmacMD5 (crypto.md5 accessKey) (crypto.md5 accessKey ++ connectionSig)
  else
    []

end NextendoMatchmaking
