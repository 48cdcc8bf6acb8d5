import NextendoMatchmaking.Wire.Stream

/-!
# Remote method calls

The messages of `nextendo-nex/rmc.go`, their constructors, their encoding and their parser, with the
result codes of `resultcodes.go`.
-/

namespace NextendoMatchmaking

/-! ### Result codes -/

def resultErrorMask : UInt32 := 0x80000000

def resultCoreNotImplemented : UInt32 := 0x00010002
def resultCoreAccessDenied : UInt32 := 0x00010006
def resultCoreInvalidArgument : UInt32 := 0x0001000A
def resultRendezVousSessionVoid : UInt32 := 0x00030073
def resultRendezVousSessionFull : UInt32 := 0x000300C8

/-! ### Messages -/

/-- `Mode`: the source uses the constants `RMCRequest` and `RMCResponse` only. -/
inductive RMCMode
  | request
  | response
  deriving DecidableEq

/-- `RMCMessage`, without the settings pointer that every message of a connection shares. -/
structure RMCMessage where
  mode : RMCMode
  protocol : UInt16
  method : UInt32
  callID : UInt32
  result : UInt32
  body : Bytes
  isError : Bool
  deriving DecidableEq

/-- `NewRMCRequest`. -/
def newRMCRequest (protocol : UInt16) (method callID : UInt32) (body : Bytes) : RMCMessage :=
  ⟨.request, protocol, method, callID, 0, body, false⟩

/-- `NewRMCSuccess`. -/
def newRMCSuccess (protocol : UInt16) (method callID : UInt32) (body : Bytes) : RMCMessage :=
  ⟨.response, protocol, method, callID, 0, body, false⟩

/-- `NewRMCError`: the error bit is forced on. -/
def newRMCError (protocol : UInt16) (callID errorCode : UInt32) : RMCMessage :=
  ⟨.response, protocol, 0, callID, errorCode ||| resultErrorMask, [], true⟩

namespace RMCMessage

/-- The part of `Encode` after the length field. -/
def payload (m : RMCMessage) : Bytes :=
  let flag : UInt8 := if m.mode = .request then 0x80 else 0
  let head :=
    if m.protocol < 0x80 then StreamOut.u8 (m.protocol.toUInt8 ||| flag)
    else StreamOut.u8 (0x7F ||| flag) ++ StreamOut.u16 m.protocol
  head ++
    match m.mode, m.isError with
    | .request, _ => StreamOut.u32 m.callID ++ StreamOut.u32 m.method ++ m.body
    | .response, true =>
      StreamOut.bool false ++ StreamOut.u32 (m.result ||| resultErrorMask) ++ StreamOut.u32 m.callID
    | .response, false =>
      StreamOut.bool true ++ StreamOut.u32 m.callID ++ StreamOut.u32 (m.method ||| 0x8000) ++ m.body

/-- `Encode`: the payload behind its `u32` length. -/
def encode (m : RMCMessage) : Bytes :=
  StreamOut.u32 (UInt32.ofNat m.payload.length) ++ m.payload

end RMCMessage

/-- The fields that `ParseRMC` reads after the length. -/
def parseRMCFields : Reader RMCMessage := do
  let proto ← StreamIn.u8
  let short := proto &&& 0x7F
  let protocol ← if short = 0x7F then StreamIn.u16 else pure short.toUInt16
  if proto &&& 0x80 ≠ 0 then
    let callID ← StreamIn.u32
    let method ← StreamIn.u32
    let body ← StreamIn.readAll
    return ⟨.request, protocol, method, callID, 0, body, false⟩
  else if ← StreamIn.bool then
    let callID ← StreamIn.u32
    let method ← StreamIn.u32
    let body ← StreamIn.readAll
    return ⟨.response, protocol, method &&& ~~~0x8000, callID, 0, body, false⟩
  else
    let result ← StreamIn.u32
    let callID ← StreamIn.u32
    return ⟨.response, protocol, 0, callID, result, [], true⟩

/-- `ParseRMC`: `none` on a length that does not match the data, or on an underflow. -/
def parseRMC (data : Bytes) : Option RMCMessage :=
  let (length, s) := StreamIn.u32 (newStreamIn data)
  if (length.toNat : Int) ≠ (data.length : Int) - 4 then
    none
  else
    let (m, s') := parseRMCFields s
    if s'.err then none else some m

end NextendoMatchmaking
