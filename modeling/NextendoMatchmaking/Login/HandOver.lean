import NextendoMatchmaking.Login.Tickets
import NextendoMatchmaking.Wire.Echoes

/-!
# The hand-over from the login to the secure server

The ticket of a login passes through three encodings and two encryptions before the secure server reads it:
the server ticket inside the client ticket inside the response.  `handsOver_iff` says when a client that
follows the protocol arrives: the two keys have a length that RC4 takes, and the texts and lists of the
response have a length that the wire can carry.
-/

namespace NextendoMatchmaking.Login

open NextendoMatchmaking.Parsing NextendoMatchmaking.Endpoint

variable {crypto : Crypto} {s : Settings} {key data : Bytes} {cfg : AuthConfig} {env : LoginEnv} {pid : UInt64}
  {sourceKey sessionKey ticketKey ticket : Bytes} {req : RMCMessage} {cid check : UInt32}

/-! ### Hexadecimal digits -/

theorem fromHexDigit_hexDigit : ∀ n : Fin 16, fromHexDigit (hexDigit n) = some n.val := by
  decide

theorem hexDecode_hexEncode (b : Bytes) : hexDecode (hexEncode b) = some b := by
  induction b with
  | nil => rfl
  | cons x b ih =>
    have hbyte := x.toNat_lt
    have hhigh := fromHexDigit_hexDigit ⟨x.toNat / 16, by omega⟩
    have hlow := fromHexDigit_hexDigit ⟨x.toNat % 16, by omega⟩
    dsimp only at hhigh hlow
    show hexDecode (hexDigit (x.toNat / 16) :: hexDigit (x.toNat % 16) :: hexEncode b) = some (x :: b)
    rw [hexDecode, hhigh, hlow, ih]
    show some (UInt8.ofNat (16 * (x.toNat / 16) + x.toNat % 16) :: b) = some (x :: b)
    rw [Nat.div_add_mod, UInt8.ofNat_toNat]

theorem length_hexEncode (b : Bytes) : (hexEncode b).length = 2 * b.length := by
  induction b with
  | nil => rfl
  | cons x b ih =>
    show (hexEncode b).length + 1 + 1 = 2 * (b.length + 1)
    omega

theorem stringFits_hexEncode (hkey : RC4Key key) : StringFits (hexEncode key) := by
  have hmax := hkey.2
  unfold StringFits
  rw [length_hexEncode]
  omega

/-! ### The response -/

/-- What the flat response says. -/
def AuthConfig.loginResponse (cfg : AuthConfig) (env : LoginEnv) (pid : UInt64) (ticket sourceKey : Bytes) :
    LoginResponse where
  retval := resultCoreUnknown
  pid := pid
  ticket := ticket
  connectionData := cfg.connectionData env
  returnMsg := cfg.serverName
  sourceKey := if 40000 ≤ cfg.settings.nexVersion then some (hexEncode sourceKey) else none

/-- What the response of a login with context says. -/
def AuthConfig.ticketResult (cfg : AuthConfig) (env : LoginEnv) (pid : UInt64) (ticket sourceKey : Bytes) :
    TicketResult where
  pid := pid
  ticket := ticket
  serviceNodeURL := cfg.station
  currentTime := env.serverTime
  returnMsg := cfg.serverName
  sourceKey := hexEncode sourceKey

theorem stringFits_emptyStation : StringFits emptyStation := by
  unfold StringFits
  decide

/-- The connection data of a response, with the lengths of its parts. -/
theorem echoes_connectionData (cfg : AuthConfig) (env : LoginEnv) :
    EchoesRead (RVConnectionData.read cfg.settings) ((cfg.connectionData env).write cfg.settings)
      (cfg.connectionData env)
      ((StringFits cfg.station ∧ cfg.specialProtocols.length < 2 ^ 32) ∧
        (cfg.settings.structHeader = true →
          cfg.station.length + cfg.specialProtocols.length + 25 < 2 ^ 32)) := by
  have hsize : (cfg.connectionData env).save.length =
      cfg.station.length + cfg.specialProtocols.length + 25 := by
    have hprotocols : (StreamOut.list StreamOut.u8 cfg.specialProtocols).length =
        cfg.specialProtocols.length + 4 := by
      simp [StreamOut.list, Nat.add_comm]
    unfold RVConnectionData.save AuthConfig.connectionData
    simp only [List.length_append, length_string, length_dateTime, hprotocols]
    show _ + (7 + 3) + 8 = _
    omega
  refine .of_iff ?_ <| echoes_levelOf 1 ?_ <| .of_eq ?_ <|
    (echoes_string cfg.station).bind RVConnectionData.mainStation
      ((echoes_u8s cfg.specialProtocols).bind RVConnectionData.specialProtocols
        ((reads_string stringFits_emptyStation).bind (reads_u64 env.serverTime).last).always
        (fun _ => (settles_string.bind fun _ => settles_u64.bind fun _ => settles_pure _).keeps)
        (fun _ _ => rfl) rfl)
      (fun _ => ((settles_list settles_u8).bind fun _ => settles_string.bind fun _ =>
        settles_u64.bind fun _ => settles_pure _).keeps)
      (fun _ _ => rfl) rfl
  · unfold BufferFits
    rw [hsize, and_true]
  · exact settles_string.bind fun _ => (settles_list settles_u8).bind fun _ => settles_string.bind fun _ =>
      settles_u64.bind fun _ => settles_pure _
  · unfold RVConnectionData.save
    simp only [List.append_assoc]
    rfl

/-- The flat response comes back when the connection data and the name of the server do. -/
theorem echoes_loginResponse (hpid : PIDFits cfg.settings pid) (hticket : BufferFits ticket) (hkey : RC4Key sourceKey) :
    EchoesRead (LoginResponse.read cfg.settings)
      (StreamOut.u32 resultCoreUnknown ++ StreamOut.pid cfg.settings pid ++ StreamOut.buffer ticket ++
        (cfg.connectionData env).write cfg.settings ++ StreamOut.string cfg.serverName ++
        if 40000 ≤ cfg.settings.nexVersion then StreamOut.string (hexEncode sourceKey) else [])
      (cfg.loginResponse env pid ticket sourceKey)
      (((StringFits cfg.station ∧ cfg.specialProtocols.length < 2 ^ 32) ∧
        (cfg.settings.structHeader = true →
          cfg.station.length + cfg.specialProtocols.length + 25 < 2 ^ 32)) ∧ StringFits cfg.serverName) := by
  have hsource : Reads (readSourceKey cfg.settings)
      (if 40000 ≤ cfg.settings.nexVersion then StreamOut.string (hexEncode sourceKey) else [])
      (if 40000 ≤ cfg.settings.nexVersion then some (hexEncode sourceKey) else none) := by
    unfold readSourceKey
    split
    · exact (reads_string (stringFits_hexEncode hkey)).map
    · exact parses_pure none
  have hkeeps : SettlesRead (readSourceKey cfg.settings) := by
    unfold readSourceKey
    split
    · exact settles_string.map
    · exact settles_pure none
  unfold LoginResponse.read
  refine .of_iff ?_ <| .of_eq ?_ <| (reads_u32 resultCoreUnknown).echoes <| (reads_pid hpid).echoes <|
    (reads_buffer hticket).echoes <|
    (echoes_connectionData cfg env).bind LoginResponse.connectionData
      ((echoes_string cfg.serverName).bind LoginResponse.returnMsg hsource.last.always
        (fun _ => (hkeeps.bind fun _ => settles_pure _).keeps) (fun _ _ => rfl) rfl)
      (fun _ => (settles_string.bind fun _ => hkeeps.bind fun _ => settles_pure _).keeps)
      (fun _ _ => rfl) rfl
  · rw [and_true]
  · simp only [List.append_assoc]

/-- The response of a login with context comes back when the station and the name of the server do. -/
theorem echoes_ticketResult (hpid : PIDFits cfg.settings pid) (hticket : ticket.length ≤ 600)
    (hkey : RC4Key sourceKey) :
    EchoesRead (TicketResult.read cfg.settings)
      (StreamOut.u8 1 ++ StreamOut.buffer (cfg.ticketContent env pid ticket sourceKey))
      (cfg.ticketResult env pid ticket sourceKey) (StringFits cfg.station ∧ StringFits cfg.serverName) := by
  have hfits : BufferFits ticket := by
    unfold BufferFits
    omega
  have hcontent : StringFits cfg.station ∧ StringFits cfg.serverName →
      BufferFits (cfg.ticketContent env pid ticket sourceKey) := by
    rintro ⟨hstation, hname⟩
    have hwidth := pidWidth_le cfg.settings
    have hdigits := stringFits_hexEncode hkey
    unfold StringFits at hstation hname hdigits
    simp only [BufferFits, AuthConfig.ticketContent, List.length_append, length_pid, length_buffer,
      length_string, length_dateTime]
    omega
  -- the frame does not depend on the settings
  refine .of_iff (Q := (StringFits cfg.station ∧ StringFits cfg.serverName) ∧ _) ?_ <|
    echoes_levelOf (s := { cfg.settings with structHeader := true }) 1 ?_ <| .of_eq ?_ <|
    (reads_pid hpid).echoes <| (reads_buffer hfits).echoes <|
    (echoes_string cfg.station).bind TicketResult.serviceNodeURL
      ((reads_u64 env.serverTime).echoes <|
        (.of_iff (and_true _).symm.to_iff <| (echoes_string cfg.serverName).bind TicketResult.returnMsg
          (reads_string (stringFits_hexEncode hkey)).last.always
          (fun _ => (settles_string.bind fun _ => settles_pure _).keeps) (fun _ _ => rfl) rfl))
      (fun _ => (settles_u64.bind fun _ => settles_string.bind fun _ => settles_string.bind fun _ =>
        settles_pure _).keeps)
      (fun _ _ => rfl) rfl
  · exact ⟨fun h => ⟨h, fun _ => hcontent h⟩, And.left⟩
  · exact (settles_pid _).bind fun _ => settles_buffer.bind fun _ => settles_string.bind fun _ =>
      settles_u64.bind fun _ => settles_string.bind fun _ => settles_string.bind fun _ => settles_pure _
  · simp only [AuthConfig.ticketContent, List.append_assoc]
    rfl

/-! ### The secure server -/

theorem length_checkData (s : Settings) (pid : UInt64) (cid check : UInt32) :
    (checkData s pid cid check).length = pidWidth s + 8 := by
  simp [checkData]

theorem checkData_ne_nil (s : Settings) (pid : UInt64) (cid check : UInt32) : checkData s pid cid check ≠ [] := by
  intro hnil
  have hlength := length_checkData s pid cid check
  rw [hnil] at hlength
  cases hlength

/-- The payload with the ticket of a login and a proof of the session key. -/
def loginPayload (crypto : Crypto) (cfg : AuthConfig) (env : LoginEnv) (pid : UInt64)
    (sessionKey ticketKey : Bytes) (cid check : UInt32) : Bytes :=
  StreamOut.buffer (cfg.internal crypto env pid sessionKey ticketKey) ++
    StreamOut.buffer (enclose crypto sessionKey (checkData cfg.settings pid cid check))

/-- The secure server takes the payload, unless the settings have a size of PIDs that is not written. -/
theorem processLoginRequest_loginPayload (hs : Sound crypto) (hdraws : Draws cfg env sessionKey ticketKey)
    (hsession : RC4Key sessionKey) (hpid : PIDFits cfg.settings pid) {e : Config}
    (he : e.settings = cfg.settings) (penv : PacketEnv) (conn : Connection) (cid check : UInt32) :
    processLoginRequest crypto
        (setSecureAccount crypto cfg.keyDerivation cfg.securePassword cfg.securePID e) penv conn
        (loginPayload crypto cfg env pid sessionKey ticketKey cid check) =
      if (pidWidth cfg.settings : Int) = cfg.settings.pidSize then
        .ok ({ conn with pid, cid, sessionKey }, StreamOut.u32 4 ++ StreamOut.u32 (check + 1))
      else .error .badCheckSize := by
  have hinternal := length_internal hs hdraws hsession pid
  have hwidth := pidWidth_le cfg.settings
  have hcheck := length_checkData cfg.settings pid cid check
  have hpayload : (loginPayload crypto cfg env pid sessionKey ticketKey cid check).length ≠ 0 := by
    simp [loginPayload]
  have hbuffers : StreamIn.run (do
      let ticketData ← StreamIn.buffer
      let requestData ← StreamIn.buffer
      return (ticketData, requestData)) (loginPayload crypto cfg env pid sessionKey ticketKey cid check) =
      ((cfg.internal crypto env pid sessionKey ticketKey,
        enclose crypto sessionKey (checkData cfg.settings pid cid check)), false) := by
    refine run_of_reads ((reads_buffer ?_).bind
      ((reads_buffer ?_).last (k := fun requestData => (_, requestData))))
    · unfold BufferFits
      omega
    · unfold BufferFits
      rw [length_enclose hs, hcheck]
      omega
  have hticket : decryptServerTicket crypto cfg.settings (cfg.internal crypto env pid sessionKey ticketKey)
      (deriveKey crypto cfg.keyDerivation cfg.securePassword cfg.securePID) =
      some ⟨env.ticketTime, pid, sessionKey⟩ :=
    decrypt_serverTicket hs (rc4Key_deriveKey hs _ _ _) hdraws.ticketSize hpid hdraws.size hsession.2
  have hread : StreamIn.run (do
      let pid ← StreamIn.pid cfg.settings
      let cid ← StreamIn.u32
      let check ← StreamIn.u32
      return (pid, cid, check)) (checkData cfg.settings pid cid check) = ((pid, cid, check), false) := by
    refine run_of_reads (.of_eq (List.append_assoc _ _ _) ?_)
    exact (reads_pid hpid).bind ((reads_u32 cid).bind
      ((reads_u32 check).last (k := fun check => (pid, cid, check))))
  unfold processLoginRequest setSecureAccount
  dsimp only
  rw [he, if_neg (by decide), if_neg hpayload, hbuffers]
  dsimp only
  rw [if_neg (by decide), hticket]
  dsimp only
  rw [kerberosDecrypt_enclose hs hsession]
  dsimp only
  rw [hread, hcheck]
  dsimp only
  by_cases hsize : (pidWidth cfg.settings : Int) = cfg.settings.pidSize
  · rw [if_neg (by omega), if_neg (fun hne => hne rfl), if_pos hsize]
  · rw [if_pos (by omega), if_neg hsize]

/-! ### The client -/

/-- The two ways to log in. -/
inductive Path
  | login
  | withContext
  deriving DecidableEq

namespace Path

def handle (crypto : Crypto) (cfg : AuthConfig) (env : LoginEnv) (req : RMCMessage) : Path → Answer
  | login => cfg.handleLogin crypto env req
  | withContext => cfg.handleLoginWithContext crypto env req

/-- The user name and the extra data. -/
def credentials (req : RMCMessage) : Path → Bytes × Bytes
  | login => AuthConfig.readLogin req
  | withContext => AuthConfig.readLoginWithContext req

/-- The client reads the response to its end, and what it reads is what the server put in. -/
def Decodes (cfg : AuthConfig) (env : LoginEnv) (pid : UInt64) (ticket sourceKey body : Bytes) : Path → Prop
  | login => LoginResponse.read cfg.settings (newStreamIn body) =
      (cfg.loginResponse env pid ticket sourceKey, newStreamIn [])
  | withContext => TicketResult.read cfg.settings (newStreamIn body) =
      (cfg.ticketResult env pid ticket sourceKey, newStreamIn [])

/-- What the client takes from a response: the PID, the ticket and the source key.  Before NEX 4 the flat
response has no source key and the client must have one. -/
def receive (s : Settings) (own body : Bytes) : Path → Option (UInt64 × Bytes × Bytes)
  | login => do
    let r := (LoginResponse.read s (newStreamIn body)).1
    let key ← match r.sourceKey with
      | none => some own
      | some digits => hexDecode digits
    return (r.pid, r.ticket, key)
  | withContext => do
    let r := (TicketResult.read s (newStreamIn body)).1
    let key ← hexDecode r.sourceKey
    return (r.pid, r.ticket, key)

end Path

variable {path : Path}

/-- **The hand-over.**  The login is answered, the client decodes the response and connects with what it
received, and the secure server takes it for `pid`. -/
def HandsOver (crypto : Crypto) (cfg : AuthConfig) (env : LoginEnv) (req : RMCMessage) (e : Config)
    (penv : PacketEnv) (conn : Connection) (path : Path) (pid : UInt64) (sourceKey sessionKey : Bytes)
    (cid check : UInt32) : Prop :=
  ∃ response ticket payload conn',
    (path.handle crypto cfg env req).response = some response ∧
    cfg.issue crypto env pid sourceKey = .ok ticket ∧
    path.Decodes cfg env pid ticket sourceKey response.body ∧
    (path.receive cfg.settings sourceKey response.body).bind (fun received =>
      connectPayload crypto cfg.settings received.2.1 received.2.2 received.1 cid check) = some payload ∧
    processLoginRequest crypto
      (setSecureAccount crypto cfg.keyDerivation cfg.securePassword cfg.securePID e) penv conn payload =
      .ok (conn', StreamOut.u32 4 ++ StreamOut.u32 (check + 1)) ∧
    conn'.pid = pid ∧ conn'.cid = cid ∧ conn'.sessionKey = sessionKey

/-- The keys and the texts have lengths that RC4 and the wire take. -/
structure Fits (cfg : AuthConfig) (path : Path) (sourceKey : Bytes) : Prop where
  source : RC4Key sourceKey
  session : 0 < cfg.settings.kerberosKeySize ∧ cfg.settings.kerberosKeySize ≤ 256
  pidSize : cfg.settings.pidSize = 4 ∨ cfg.settings.pidSize = 8
  serverName : StringFits cfg.serverName
  station : StringFits cfg.station
  protocols : path = .login → cfg.specialProtocols.length < 2 ^ 32
  connectionData : path = .login → cfg.settings.structHeader = true →
    cfg.station.length + cfg.specialProtocols.length + 25 < 2 ^ 32

/-! ### When a client arrives -/

/-- The body of the response with a ticket. -/
def Path.body (cfg : AuthConfig) (env : LoginEnv) (pid : UInt64) (ticket sourceKey : Bytes) : Path → Bytes
  | login => StreamOut.u32 resultCoreUnknown ++ StreamOut.pid cfg.settings pid ++ StreamOut.buffer ticket ++
      (cfg.connectionData env).write cfg.settings ++ StreamOut.string cfg.serverName ++
      if 40000 ≤ cfg.settings.nexVersion then StreamOut.string (hexEncode sourceKey) else []
  | withContext => StreamOut.u8 1 ++ StreamOut.buffer (cfg.ticketContent env pid ticket sourceKey)

/-- Both paths answer with the ticket, with an error, or not at all. -/
theorem handle_response
    (huser : cfg.resolveUser (path.credentials req).1 (path.credentials req).2 = some (pid, sourceKey)) :
    (cfg.issue crypto env pid sourceKey = .error .panic → (path.handle crypto cfg env req).response = none) ∧
    ∀ ticket, cfg.issue crypto env pid sourceKey = .ok ticket →
      (path.handle crypto cfg env req).response = some (newRMCSuccess protocolTicketGranting req.method req.callID
        (path.body cfg env pid ticket sourceKey)) := by
  cases path with
  | login =>
    dsimp only [Path.credentials] at huser
    unfold Path.handle AuthConfig.handleLogin
    dsimp only
    rw [huser]
    dsimp only
    refine ⟨fun hissue => ?_, fun ticket hissue => ?_⟩
    · rw [hissue]
    · rw [hissue]
      rfl
  | withContext =>
    dsimp only [Path.credentials] at huser
    unfold Path.handle AuthConfig.handleLoginWithContext
    dsimp only
    rw [huser]
    dsimp only
    refine ⟨fun hissue => ?_, fun ticket hissue => ?_⟩
    · rw [hissue]
    · rw [hissue]
      rfl

/-- The response decodes exactly when its texts and lists fit. -/
theorem decodes_iff (env : LoginEnv) (hpid : PIDFits cfg.settings pid) (hticket : ticket.length ≤ 600)
    (hkey : RC4Key sourceKey) :
    path.Decodes cfg env pid ticket sourceKey (path.body cfg env pid ticket sourceKey) ↔
      StringFits cfg.serverName ∧ StringFits cfg.station ∧
        (path = .login → cfg.specialProtocols.length < 2 ^ 32) ∧
        (path = .login → cfg.settings.structHeader = true →
          cfg.station.length + cfg.specialProtocols.length + 25 < 2 ^ 32) := by
  have hfits : BufferFits ticket := by
    unfold BufferFits
    omega
  cases path with
  | login =>
    refine ((echoes_loginResponse hpid hfits hkey).read_iff not_failed_newStreamIn).trans ?_
    simp only [forall_const]
    tauto
  | withContext =>
    refine ((echoes_ticketResult hpid hticket hkey).read_iff not_failed_newStreamIn).trans ?_
    simp only [reduceCtorEq, false_imp_iff, and_true]
    tauto

/-- A client that decodes the response has the PID, the ticket and the source key of the server. -/
theorem receive_of_decodes {body : Bytes} (h : path.Decodes cfg env pid ticket sourceKey body) :
    path.receive cfg.settings sourceKey body = some (pid, ticket, sourceKey) := by
  cases path with
  | login =>
    dsimp only [Path.Decodes] at h
    unfold Path.receive
    rw [h]
    unfold AuthConfig.loginResponse
    by_cases hversion : 40000 ≤ cfg.settings.nexVersion
    · simp [hversion, hexDecode_hexEncode]
    · simp [hversion]
  | withContext =>
    dsimp only [Path.Decodes] at h
    unfold Path.receive
    rw [h]
    simp [AuthConfig.ticketResult, hexDecode_hexEncode]

/-- Only a session key that RC4 takes gives a payload. -/
theorem rc4Key_of_connectPayload (hs : Sound crypto) (hdraws : Draws cfg env sessionKey ticketKey)
    (hkey : RC4Key sourceKey) {payload : Bytes}
    (h : connectPayload crypto cfg.settings (enclose crypto sourceKey (clientData cfg.settings
      (cfg.clientTicket crypto env pid sessionKey ticketKey))) sourceKey pid cid check = some payload) :
    RC4Key sessionKey := by
  by_contra hnot
  unfold connectPayload at h
  cases hticket : decryptClientTicket crypto cfg.settings (enclose crypto sourceKey (clientData cfg.settings
      (cfg.clientTicket crypto env pid sessionKey ticketKey))) sourceKey with
  | none =>
    rw [hticket] at h
    cases h
  | some t =>
    have hsame : t.sessionKey = sessionKey := sessionKey_of_decrypt hs hkey hdraws.size hticket
    rw [hticket] at h
    dsimp only [bind, Option.bind] at h
    rw [hsame, kerberosEncrypt_of_not_key hnot (checkData_ne_nil _ _ _ _)] at h
    cases h

theorem connectPayload_eq (hs : Sound crypto) (hdraws : Draws cfg env sessionKey ticketKey)
    (hkey : RC4Key sourceKey) (hsession : RC4Key sessionKey) (pid : UInt64) (cid check : UInt32) :
    connectPayload crypto cfg.settings (enclose crypto sourceKey (clientData cfg.settings
      (cfg.clientTicket crypto env pid sessionKey ticketKey))) sourceKey pid cid check =
      some (loginPayload crypto cfg env pid sessionKey ticketKey cid check) := by
  have hinternal := length_internal hs hdraws hsession pid
  have hfits : BufferFits (cfg.clientTicket crypto env pid sessionKey ticketKey).internal := by
    show (cfg.internal crypto env pid sessionKey ticketKey).length < 2 ^ 32
    omega
  obtain ⟨target, hticket⟩ := decrypt_clientTicket (s := cfg.settings) hs hkey hdraws.size hfits
  have hrequest : kerberosEncrypt crypto (cfg.clientTicket crypto env pid sessionKey ticketKey).sessionKey
      (checkData cfg.settings pid cid check) = some (enclose crypto sessionKey _) :=
    kerberosEncrypt_of_key hsession _
  unfold connectPayload
  rw [hticket]
  dsimp only [bind, Option.bind]
  rw [hrequest]
  rfl

theorem pidWidth_eq_iff (s : Settings) : (pidWidth s : Int) = s.pidSize ↔ s.pidSize = 4 ∨ s.pidSize = 8 := by
  unfold pidWidth
  split <;> omega

theorem rc4Key_iff_size (hdraws : Draws cfg env sessionKey ticketKey) :
    RC4Key sessionKey ↔ 0 < cfg.settings.kerberosKeySize ∧ cfg.settings.kerberosKeySize ≤ 256 := by
  have hsize := hdraws.size
  unfold RC4Key
  omega

/-- **When the hand-over works.**  A client arrives at the secure server, under the PID of its login and with
its session key, exactly when the keys have lengths that RC4 takes and the texts and lists of the response fit
the wire. -/
theorem handsOver_iff (hs : Sound crypto) (hdraws : Draws cfg env sessionKey ticketKey)
    (hpid : PIDFits cfg.settings pid) {e : Config} (he : e.settings = cfg.settings) (penv : PacketEnv)
    (conn : Connection) (path : Path)
    (huser : cfg.resolveUser (path.credentials req).1 (path.credentials req).2 = some (pid, sourceKey)) :
    HandsOver crypto cfg env req e penv conn path pid sourceKey sessionKey cid check ↔
      Fits cfg path sourceKey := by
  constructor
  · rintro ⟨response, ticket, payload, conn', hresponse, hissue, hdecodes, hpayload, hlogin, -, -, -⟩
    -- without a response there is no hand-over, so RC4 takes the source key
    have hkey : RC4Key sourceKey := by
      by_contra hnot
      rw [issue_panics hs hdraws hnot] at hissue
      cases hissue
    have hticket := hissue
    rw [issue_eq hs hdraws hkey] at hticket
    cases hticket
    rw [receive_of_decodes hdecodes] at hpayload
    dsimp only [Option.bind] at hpayload
    have hsession := rc4Key_of_connectPayload hs hdraws hkey hpayload
    rw [connectPayload_eq hs hdraws hkey hsession] at hpayload
    cases hpayload
    rw [processLoginRequest_loginPayload hs hdraws hsession hpid he] at hlogin
    have hsize : (pidWidth cfg.settings : Int) = cfg.settings.pidSize := by
      by_contra hne
      rw [if_neg hne] at hlogin
      cases hlogin
    rw [(handle_response huser).2 _ hissue] at hresponse
    cases hresponse
    obtain ⟨hname, hstation, hprotocols, hdata⟩ :=
      (decodes_iff env hpid (length_ticket hs hdraws hsession pid sourceKey) hkey).mp hdecodes
    exact ⟨hkey, (rc4Key_iff_size hdraws).mp hsession, (pidWidth_eq_iff _).mp hsize, hname, hstation,
      hprotocols, hdata⟩
  · intro h
    have hsession := (rc4Key_iff_size hdraws).mpr h.session
    have hissue := issue_eq hs hdraws h.source pid
    have hdecodes := (decodes_iff env hpid (length_ticket hs hdraws hsession pid sourceKey)
      h.source).mpr ⟨h.serverName, h.station, h.protocols, h.connectionData⟩
    refine ⟨_, _, loginPayload crypto cfg env pid sessionKey ticketKey cid check,
      { conn with pid, cid, sessionKey }, (handle_response huser).2 _ hissue, hissue, hdecodes, ?_, ?_,
      rfl, rfl, rfl⟩
    · dsimp only [newRMCSuccess]
      rw [receive_of_decodes hdecodes]
      exact connectPayload_eq hs hdraws h.source hsession pid cid check
    · rw [processLoginRequest_loginPayload hs hdraws hsession hpid he,
        if_pos ((pidWidth_eq_iff _).mpr h.pidSize)]

/-- A cipher that repeats the key, with digests that say nothing. -/
def repeatCrypto : Crypto where
  md5 _ := List.replicate 16 0
  hmacMD5 _ _ := List.replicate 16 0
  rc4 key data := data.mapIdx (fun i b => b ^^^ key.getD (i % key.length) 0)

theorem sound_repeatCrypto : Sound repeatCrypto where
  md5 _ := rfl
  hmacMD5 _ _ := rfl
  rc4 := ⟨fun key i => key.getD (i % key.length) 0, fun _ _ => rfl⟩

/-- The authentication server of a Switch title that knows one account. -/
def oneAccount (sourceKey : Bytes) : AuthConfig where
  settings := newSwitchSettings [] 40000
  keyDerivation := 0
  securePID := 2
  securePassword := [115]
  secureStationURL := none
  specialProtocols := []
  serverName := [78]
  sessionKeyLength := 0
  resolveUser _ _ := some (1800000000, sourceKey)

def oneEndpoint : Config where
  settings := newSwitchSettings [] 40000
  secure := false
  secureKey := []
  handlers := []
  fallbackHandler := false
  customPacketHandlers := []

/-- A client that has just opened its connection. -/
def oneClient : Connection := newConnection (.ipv4 [10, 0, 0, 1] 4000)

def oneEnv : LoginEnv where
  sessionKey n := some (List.replicate n.toNat 0x5A)
  ticketKey := some (List.replicate 16 7)
  ticketTime := 1
  serverTime := 2

theorem draws_oneAccount (sourceKey : Bytes) :
    Draws (oneAccount sourceKey) oneEnv (List.replicate 32 0x5A) (List.replicate 16 7) where
  session := rfl
  size := rfl
  ticket := rfl
  ticketSize := rfl

theorem fits_oneAccount (path : Path) : Fits (oneAccount [1, 2, 3]) path [1, 2, 3] where
  source := by
    unfold RC4Key
    decide
  session := by decide
  pidSize := by decide
  serverName := by
    unfold StringFits
    decide
  station := stringFits_emptyStation
  protocols _ := by decide
  connectionData _ _ := by decide

/-- The login message with an empty user name. -/
def oneLogin : RMCMessage := newRMCRequest protocolTicketGranting methodLoginEx 1 []

theorem handsOver_switch :
    HandsOver repeatCrypto (oneAccount [1, 2, 3]) oneEnv oneLogin oneEndpoint ⟨0, [], none, fun _ => none⟩
      oneClient .login 1800000000 [1, 2, 3] (List.replicate 32 0x5A) 0x1234 0xCAFE ∧
    HandsOver repeatCrypto (oneAccount [1, 2, 3]) oneEnv oneLogin oneEndpoint ⟨0, [], none, fun _ => none⟩
      oneClient .withContext 1800000000 [1, 2, 3] (List.replicate 32 0x5A) 0x1234 0xCAFE :=
  ⟨(handsOver_iff sound_repeatCrypto (draws_oneAccount _) (.inl rfl) rfl _ _ .login rfl).mpr
      (fits_oneAccount .login),
    (handsOver_iff sound_repeatCrypto (draws_oneAccount _) (.inl rfl) rfl _ _ .withContext rfl).mpr
      (fits_oneAccount .withContext)⟩

/-- An account with an empty source key: neither path answers the login. -/
theorem not_handsOver_empty_key :
    Sound repeatCrypto ∧
    Draws (oneAccount []) oneEnv (List.replicate 32 0x5A) (List.replicate 16 7) ∧
    (Path.login.handle repeatCrypto (oneAccount []) oneEnv oneLogin).response = none ∧
    (Path.withContext.handle repeatCrypto (oneAccount []) oneEnv oneLogin).response = none ∧
    ¬ HandsOver repeatCrypto (oneAccount []) oneEnv oneLogin oneEndpoint ⟨0, [], none, fun _ => none⟩
      oneClient .login 1800000000 [] (List.replicate 32 0x5A) 0x1234 0xCAFE := by
  have hkey : ¬ RC4Key [] := by
    unfold RC4Key
    decide
  have hissue : (oneAccount []).issue repeatCrypto oneEnv 1800000000 [] = .error .panic :=
    issue_panics sound_repeatCrypto (draws_oneAccount []) hkey
  have hlogin : (Path.login.handle repeatCrypto (oneAccount []) oneEnv oneLogin).response = none :=
    (handle_response rfl).1 hissue
  refine ⟨sound_repeatCrypto, draws_oneAccount [], hlogin, (handle_response rfl).1 hissue, ?_⟩
  rintro ⟨response, ticket, payload, conn', hresponse, -⟩
  rw [hlogin] at hresponse
  cases hresponse

end NextendoMatchmaking.Login
