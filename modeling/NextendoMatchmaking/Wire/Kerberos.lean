import NextendoMatchmaking.Wire.Prudp

/-!
# Tickets

`nextendo-nex/kerberos.go`: the keys of accounts, the encryption with its checksum, and the two tickets of a
login.  The client ticket is encrypted with the source key of the login and holds the session key and, as
opaque bytes, the server ticket; that one is encrypted with the key of the secure server and holds the
session key again and the PID of the client.
-/

namespace NextendoMatchmaking

/-! ### Keys -/

/-- `deriveKeyOld`. -/
def deriveKeyOld (crypto : Crypto) (password : Bytes) (pid : UInt64) (baseCount pidCount : ℕ) : Bytes :=
  crypto.md5^[baseCount + pid.toNat % pidCount] password

/-- `deriveKeyNew`. -/
def deriveKeyNew (crypto : Crypto) (password : Bytes) (pid : UInt64) (baseCount pidCount : ℕ) : Bytes :=
  crypto.md5^[pidCount] (crypto.md5^[baseCount] password ++ StreamOut.u64 pid)

def keyDerivationNew : Int := 1

/-- `DeriveKey`, with the `KerberosKeyDerivation` of the settings. -/
def deriveKey (crypto : Crypto) (keyDerivation : Int) (password : Bytes) (pid : UInt64) : Bytes :=
  if keyDerivation = keyDerivationNew then deriveKeyNew crypto password pid 1 1
  else deriveKeyOld crypto password pid 65000 1024

/-! ### Encryption -/

/-- `kerberosEncrypt`; `none` where it panics.  `rc4.NewCipher` refuses a key that is empty or longer than 256
bytes, its error is ignored, and the nil cipher panics on any data. -/
def kerberosEncrypt (crypto : Crypto) (key data : Bytes) : Option Bytes :=
  if data ≠ [] ∧ (key.length = 0 ∨ 256 < key.length) then
    none
  else
    let enc := crypto.rc4 key data
    some (enc ++ crypto.hmacMD5 key enc)

/-- `kerberosDecrypt`.  `rc4.NewCipher` refuses a key that is empty or longer than 256 bytes; the cipher is
then nil and panics on any data, and like a wrong checksum this ends the login. -/
def kerberosDecrypt (crypto : Crypto) (key buffer : Bytes) : Option Bytes :=
  if buffer.length < 16 then
    none
  else
    let data := buffer.take (buffer.length - 16)
    let checksum := buffer.drop (buffer.length - 16)
    if checksum ≠ crypto.hmacMD5 key data then none
    else if data ≠ [] ∧ (key.length = 0 ∨ 256 < key.length) then none
    else some (crypto.rc4 key data)

/-! ### The server ticket -/

/-- How the encryption of a ticket fails. -/
inductive TicketError
  /-- `kerberos: incorrect session key size` -/
  | sessionKeySize
  /-- `rand.Read` fails. -/
  | random
  | panic
  deriving DecidableEq

/-- `ServerTicket`. -/
structure ServerTicket where
  timestamp : UInt64
  source : UInt64
  sessionKey : Bytes
  deriving DecidableEq

/-- `ServerTicket.Encrypt`, with the random bytes of the ticket key. -/
def ServerTicket.encrypt (crypto : Crypto) (s : Settings) (key : Bytes) (ticketKey : Option Bytes)
    (t : ServerTicket) : Except TicketError Bytes :=
  if (t.sessionKey.length : Int) ≠ s.kerberosKeySize then
    .error .sessionKeySize
  else
    let data := StreamOut.dateTime t.timestamp ++ StreamOut.pid s t.source ++ t.sessionKey
    if s.kerberosTicketVersion = 1 then
      match ticketKey with
      | none => .error .random
      | some ticketKey =>
        match kerberosEncrypt crypto (crypto.md5 (key ++ ticketKey)) data with
        | none => .error .panic
        | some enc => .ok (StreamOut.buffer ticketKey ++ StreamOut.buffer enc)
    else
      match kerberosEncrypt crypto key data with
      | none => .error .panic
      | some enc => .ok enc

/-- `DecryptServerTicket`: a ticket of version 1 brings a key of its own. -/
def decryptServerTicket (crypto : Crypto) (s : Settings) (data key : Bytes) : Option ServerTicket :=
  let ((ticketKey, inner), err) := StreamIn.run (do
    let ticketKey ← StreamIn.buffer
    let inner ← StreamIn.buffer
    return (ticketKey, inner)) data
  let (key, data) :=
    if s.kerberosTicketVersion = 1 then (crypto.md5 (key ++ ticketKey), inner) else (key, data)
  if s.kerberosTicketVersion = 1 ∧ err then
    none
  else
    match kerberosDecrypt crypto key data with
    | none => none
    | some dec =>
      let (ticket, err) := StreamIn.run (do
        let timestamp ← StreamIn.dateTime
        let source ← StreamIn.pid s
        let sessionKey ← StreamIn.readInt s.kerberosKeySize
        return (⟨timestamp, source, sessionKey.getD []⟩ : ServerTicket)) dec
      if err then none else some ticket

/-! ### The client ticket -/

/-- `ClientTicket`. -/
structure ClientTicket where
  sessionKey : Bytes
  target : UInt64
  internal : Bytes
  deriving DecidableEq

/-- `ClientTicket.Encrypt`. -/
def ClientTicket.encrypt (crypto : Crypto) (s : Settings) (key : Bytes) (t : ClientTicket) :
    Except TicketError Bytes :=
  if (t.sessionKey.length : Int) ≠ s.kerberosKeySize then
    .error .sessionKeySize
  else
    match kerberosEncrypt crypto key
        (t.sessionKey ++ StreamOut.pid s t.target ++ StreamOut.buffer t.internal) with
    | none => .error .panic
    | some enc => .ok enc

/-- `DecryptClientTicket`. -/
def decryptClientTicket (crypto : Crypto) (s : Settings) (data key : Bytes) : Option ClientTicket :=
  match kerberosDecrypt crypto key data with
  | none => none
  | some dec =>
    let (ticket, err) := StreamIn.run (do
      let sessionKey ← StreamIn.readInt s.kerberosKeySize
      let target ← StreamIn.pid s
      let internal ← StreamIn.buffer
      return (⟨sessionKey.getD [], target, internal⟩ : ClientTicket)) dec
    if err then none else some ticket

end NextendoMatchmaking
