import NextendoMatchmaking.Login.TicketGranting
import NextendoMatchmaking.Wire.Decoding
import NextendoMatchmaking.Wire.Sizes

/-!
# Tickets that are opened again

The two tickets of a login are written in one server and opened in another place: the client opens the one
that is encrypted with its source key, and the secure server the one inside.  Each comes back as it was
written, under conditions on the lengths of the keys only.

The functions of `Crypto` are assumed to be what their names say (`Sound`): digests of 16 bytes, and RC4 as
XOR with a stream that the key determines.
-/

namespace NextendoMatchmaking.Login

open NextendoMatchmaking.Parsing

/-- What is assumed of the functions. -/
structure Sound (crypto : Crypto) : Prop where
  md5 : ∀ data, (crypto.md5 data).length = 16
  hmacMD5 : ∀ key data, (crypto.hmacMD5 key data).length = 16
  rc4 : ∃ stream : Bytes → ℕ → UInt8, ∀ key data,
    crypto.rc4 key data = data.mapIdx (fun i b => b ^^^ stream key i)

/-- A key that `rc4.NewCipher` takes. -/
def RC4Key (key : Bytes) : Prop := 0 < key.length ∧ key.length ≤ 256

/-- Data in the form that `kerberosEncrypt` gives it. -/
def enclose (crypto : Crypto) (key data : Bytes) : Bytes :=
  crypto.rc4 key data ++ crypto.hmacMD5 key (crypto.rc4 key data)

variable {crypto : Crypto} {s : Settings} {key data : Bytes} {cfg : AuthConfig} {env : LoginEnv} {pid : UInt64}
  {sourceKey sessionKey ticketKey : Bytes} {t : ServerTicket}

/-! ### Encryption -/

theorem length_rc4 (hs : Sound crypto) (key data : Bytes) : (crypto.rc4 key data).length = data.length := by
  obtain ⟨stream, hrc4⟩ := hs.rc4
  rw [hrc4, List.length_mapIdx]

/-- XOR with the same stream twice. -/
theorem rc4_rc4 (hs : Sound crypto) (key data : Bytes) : crypto.rc4 key (crypto.rc4 key data) = data := by
  obtain ⟨stream, hrc4⟩ := hs.rc4
  rw [hrc4, hrc4]
  apply List.ext_getElem
  · simp
  · intro i h₁ h₂
    rw [List.getElem_mapIdx, List.getElem_mapIdx, UInt8.xor_assoc, UInt8.xor_self, UInt8.xor_zero]

theorem length_enclose (hs : Sound crypto) (key data : Bytes) :
    (enclose crypto key data).length = data.length + 16 := by
  unfold enclose
  rw [List.length_append, length_rc4 hs, hs.hmacMD5]

theorem kerberosEncrypt_of_key (hkey : RC4Key key) (data : Bytes) :
    kerberosEncrypt crypto key data = some (enclose crypto key data) := by
  obtain ⟨hpos, hle⟩ := hkey
  unfold kerberosEncrypt
  rw [if_neg (by omega)]
  rfl

theorem kerberosEncrypt_of_not_key (hkey : ¬ RC4Key key) (hdata : data ≠ []) :
    kerberosEncrypt crypto key data = none := by
  unfold kerberosEncrypt
  rw [if_pos]
  refine ⟨hdata, ?_⟩
  unfold RC4Key at hkey
  omega

theorem kerberosDecrypt_enclose (hs : Sound crypto) (hkey : RC4Key key) (data : Bytes) :
    kerberosDecrypt crypto key (enclose crypto key data) = some data := by
  have hlength := length_enclose hs key data
  have hsplit : (enclose crypto key data).length - 16 = (crypto.rc4 key data).length := by
    rw [hlength, length_rc4 hs]
    omega
  obtain ⟨hpos, hle⟩ := hkey
  unfold kerberosDecrypt
  rw [if_neg (by omega), hsplit]
  unfold enclose
  rw [List.take_left, List.drop_left, if_neg (fun hne => hne rfl), if_neg (by omega), rc4_rc4 hs]

/-! ### Keys of accounts -/

theorem length_iterate_md5 (hs : Sound crypto) {n : ℕ} (hn : 0 < n) (data : Bytes) :
    (crypto.md5^[n] data).length = 16 := by
  obtain ⟨n, rfl⟩ := Nat.exists_eq_add_one_of_ne_zero (Nat.pos_iff_ne_zero.mp hn)
  rw [Function.iterate_succ_apply', hs.md5]

theorem rc4Key_deriveKey (hs : Sound crypto) (keyDerivation : Int) (password : Bytes) (pid : UInt64) :
    RC4Key (deriveKey crypto keyDerivation password pid) := by
  have hlength : (deriveKey crypto keyDerivation password pid).length = 16 := by
    unfold deriveKey deriveKeyNew deriveKeyOld
    split
    · exact length_iterate_md5 hs (Nat.one_pos) _
    · exact length_iterate_md5 hs (by omega) _
  unfold RC4Key
  omega

theorem rc4Key_md5 (hs : Sound crypto) (data : Bytes) : RC4Key (crypto.md5 data) := by
  unfold RC4Key
  rw [hs.md5]
  omega

/-! ### Reading -/

theorem run_of_reads {α : Type} {f : Reader α} {a : α} (h : Reads f data a) :
    StreamIn.run f data = (a, false) := by
  have hread := h []
  rw [List.append_nil] at hread
  unfold StreamIn.run
  rw [hread]
  rfl

theorem reads_readInt {n : Int} (h : (data.length : Int) = n) : Reads (StreamIn.readInt n) data (some data) := by
  subst h
  unfold StreamIn.readInt
  rw [if_neg (by omega), Int.toNat_natCast]
  exact reads_read data

/-- A PID as it comes back when it does not fit. -/
theorem exists_reads_pid (s : Settings) (v : UInt64) : ∃ v', Reads (StreamIn.pid s) (StreamOut.pid s v) v' := by
  unfold StreamIn.pid StreamOut.pid
  by_cases hsize : s.pidSize = 8
  · rw [if_pos hsize, if_pos hsize]
    exact ⟨v, reads_u64 v⟩
  · rw [if_neg hsize, if_neg hsize]
    exact ⟨_, (reads_u32 v.toUInt32).map⟩

/-! ### The server ticket -/

/-- The inner data of a server ticket. -/
def serverData (s : Settings) (t : ServerTicket) : Bytes :=
  StreamOut.dateTime t.timestamp ++ StreamOut.pid s t.source ++ t.sessionKey

/-- A server ticket in the form that `Encrypt` gives it. -/
def serverTicket (crypto : Crypto) (s : Settings) (key ticketKey : Bytes) (t : ServerTicket) : Bytes :=
  if s.kerberosTicketVersion = 1 then
    StreamOut.buffer ticketKey ++
      StreamOut.buffer (enclose crypto (crypto.md5 (key ++ ticketKey)) (serverData s t))
  else
    enclose crypto key (serverData s t)

theorem encrypt_serverTicket (hs : Sound crypto) (hkey : RC4Key key)
    (hsize : (t.sessionKey.length : Int) = s.kerberosKeySize) :
    t.encrypt crypto s key (some ticketKey) = .ok (serverTicket crypto s key ticketKey t) := by
  unfold ServerTicket.encrypt serverTicket
  rw [if_neg (fun hne => hne hsize)]
  dsimp only
  split
  · rw [kerberosEncrypt_of_key (rc4Key_md5 hs _)]
    rfl
  · rw [kerberosEncrypt_of_key hkey]
    rfl

theorem length_serverData (t : ServerTicket) :
    (serverData s t).length = 8 + pidWidth s + t.sessionKey.length := by
  simp [serverData, Nat.add_assoc]

theorem pidWidth_le (s : Settings) : pidWidth s ≤ 8 := by
  unfold pidWidth
  split <;> omega

theorem length_serverTicket (s : Settings) (key : Bytes) (hs : Sound crypto) (hticket : ticketKey.length = 16)
    (t : ServerTicket) :
    (serverTicket crypto s key ticketKey t).length ≤ t.sessionKey.length + 56 := by
  have hwidth := pidWidth_le s
  unfold serverTicket
  split
  · rw [List.length_append, length_buffer, length_buffer, length_enclose hs, length_serverData, hticket]
    omega
  · rw [length_enclose hs, length_serverData]
    omega

theorem decrypt_serverTicket (hs : Sound crypto) (hkey : RC4Key key) (hticket : ticketKey.length = 16)
    (hpid : PIDFits s t.source) (hsize : (t.sessionKey.length : Int) = s.kerberosKeySize)
    (hsession : t.sessionKey.length ≤ 256) :
    decryptServerTicket crypto s (serverTicket crypto s key ticketKey t) key = some t := by
  have hwidth := pidWidth_le s
  have hread : StreamIn.run (do
      let timestamp ← StreamIn.dateTime
      let source ← StreamIn.pid s
      let sessionKey ← StreamIn.readInt s.kerberosKeySize
      return (⟨timestamp, source, sessionKey.getD []⟩ : ServerTicket)) (serverData s t) = (t, false) := by
    refine run_of_reads (.of_eq (List.append_assoc _ _ _) ?_)
    exact (reads_u64 t.timestamp).bind <| (reads_pid hpid).bind <|
      (reads_readInt hsize).last (k := fun key => (⟨t.timestamp, t.source, key.getD []⟩ : ServerTicket))
  unfold decryptServerTicket serverTicket
  by_cases hversion : s.kerberosTicketVersion = 1
  · have hfits : BufferFits (enclose crypto (crypto.md5 (key ++ ticketKey)) (serverData s t)) := by
      unfold BufferFits
      rw [length_enclose hs, length_serverData]
      omega
    have hbuffers : StreamIn.run (do
        let ticketKey ← StreamIn.buffer
        let inner ← StreamIn.buffer
        return (ticketKey, inner)) (StreamOut.buffer ticketKey ++
          StreamOut.buffer (enclose crypto (crypto.md5 (key ++ ticketKey)) (serverData s t))) =
        ((ticketKey, enclose crypto (crypto.md5 (key ++ ticketKey)) (serverData s t)), false) := by
      refine run_of_reads ?_
      have hkeyFits : BufferFits ticketKey := by
        unfold BufferFits
        omega
      exact (reads_buffer hkeyFits).bind ((reads_buffer hfits).last (k := fun inner => (ticketKey, inner)))
    rw [if_pos hversion, hbuffers]
    dsimp only
    rw [if_pos hversion, if_neg (fun h => Bool.false_ne_true h.2)]
    dsimp only
    rw [kerberosDecrypt_enclose hs (rc4Key_md5 hs _)]
    dsimp only
    rw [hread]
    rfl
  · rw [if_neg hversion]
    dsimp only
    rw [if_neg hversion, if_neg (fun h => hversion h.1)]
    dsimp only
    rw [kerberosDecrypt_enclose hs hkey]
    dsimp only
    rw [hread]
    rfl

/-! ### The client ticket -/

/-- The inner data of a client ticket. -/
def clientData (s : Settings) (t : ClientTicket) : Bytes :=
  t.sessionKey ++ StreamOut.pid s t.target ++ StreamOut.buffer t.internal

theorem clientData_ne_nil (t : ClientTicket) : clientData s t ≠ [] := by
  intro hnil
  have hlength := congrArg List.length hnil
  simp [clientData] at hlength

theorem encrypt_clientTicket {t : ClientTicket} (hkey : RC4Key key)
    (hsize : (t.sessionKey.length : Int) = s.kerberosKeySize) :
    t.encrypt crypto s key = .ok (enclose crypto key (clientData s t)) := by
  unfold ClientTicket.encrypt
  rw [if_neg (fun hne => hne hsize), kerberosEncrypt_of_key hkey]
  rfl

/-- The ignored error of `rc4.NewCipher`. -/
theorem encrypt_clientTicket_panics {t : ClientTicket} (hkey : ¬ RC4Key key)
    (hsize : (t.sessionKey.length : Int) = s.kerberosKeySize) : t.encrypt crypto s key = .error .panic := by
  have hnone : kerberosEncrypt crypto key
      (t.sessionKey ++ StreamOut.pid s t.target ++ StreamOut.buffer t.internal) = none :=
    kerberosEncrypt_of_not_key hkey (clientData_ne_nil t)
  unfold ClientTicket.encrypt
  rw [if_neg (fun hne => hne hsize), hnone]

/-- The session key is what the client reads first. -/
theorem sessionKey_of_decrypt {t t' : ClientTicket} (hs : Sound crypto) (hkey : RC4Key key)
    (hsize : (t.sessionKey.length : Int) = s.kerberosKeySize)
    (h : decryptClientTicket crypto s (enclose crypto key (clientData s t)) key = some t') :
    t'.sessionKey = t.sessionKey := by
  unfold decryptClientTicket at h
  rw [kerberosDecrypt_enclose hs hkey] at h
  dsimp only [clientData, StreamIn.run] at h
  rw [bind_apply, List.append_assoc, reads_readInt hsize] at h
  split at h
  · cases h
  · cases h
    rfl

theorem decrypt_clientTicket {t : ClientTicket} (hs : Sound crypto) (hkey : RC4Key key)
    (hsize : (t.sessionKey.length : Int) = s.kerberosKeySize) (hfits : BufferFits t.internal) :
    ∃ target, decryptClientTicket crypto s (enclose crypto key (clientData s t)) key =
      some ⟨t.sessionKey, target, t.internal⟩ := by
  obtain ⟨target, htarget⟩ := exists_reads_pid s t.target
  have hread : StreamIn.run (do
      let sessionKey ← StreamIn.readInt s.kerberosKeySize
      let target ← StreamIn.pid s
      let internal ← StreamIn.buffer
      return (⟨sessionKey.getD [], target, internal⟩ : ClientTicket)) (clientData s t) =
      (⟨t.sessionKey, target, t.internal⟩, false) := by
    refine run_of_reads (.of_eq (List.append_assoc _ _ _) ?_)
    exact (reads_readInt hsize).bind <| htarget.bind <|
      (reads_buffer hfits).last (k := fun internal => (⟨t.sessionKey, target, internal⟩ : ClientTicket))
  refine ⟨target, ?_⟩
  unfold decryptClientTicket
  rw [kerberosDecrypt_enclose hs hkey]
  dsimp only
  rw [hread]
  rfl

/-! ### The ticket of a login -/

/-- The server ticket of a login. -/
def AuthConfig.internal (crypto : Crypto) (cfg : AuthConfig) (env : LoginEnv) (pid : UInt64)
    (sessionKey ticketKey : Bytes) : Bytes :=
  serverTicket crypto cfg.settings (deriveKey crypto cfg.keyDerivation cfg.securePassword cfg.securePID)
    ticketKey ⟨env.ticketTime, pid, sessionKey⟩

/-- The client ticket of a login. -/
def AuthConfig.clientTicket (crypto : Crypto) (cfg : AuthConfig) (env : LoginEnv) (pid : UInt64)
    (sessionKey ticketKey : Bytes) : ClientTicket :=
  ⟨sessionKey, cfg.securePID, cfg.internal crypto env pid sessionKey ticketKey⟩

/-- What a login draws: a session key of the length that the settings ask for, and a ticket key. -/
structure Draws (cfg : AuthConfig) (env : LoginEnv) (sessionKey ticketKey : Bytes) : Prop where
  session : env.sessionKey cfg.keyLength = some sessionKey
  size : (sessionKey.length : Int) = cfg.settings.kerberosKeySize
  ticket : env.ticketKey = some ticketKey
  ticketSize : ticketKey.length = 16

/-- The server ticket is always encrypted, so that a login stands or falls with the client ticket. -/
theorem issue_eq_encrypt (hs : Sound crypto) (hdraws : Draws cfg env sessionKey ticketKey) (pid : UInt64)
    (sourceKey : Bytes) : cfg.issue crypto env pid sourceKey =
      (cfg.clientTicket crypto env pid sessionKey ticketKey).encrypt crypto cfg.settings sourceKey := by
  unfold AuthConfig.issue
  rw [hdraws.session, hdraws.ticket]
  dsimp only
  rw [encrypt_serverTicket hs (rc4Key_deriveKey hs _ _ _) hdraws.size]
  rfl

theorem issue_eq (hs : Sound crypto) (hdraws : Draws cfg env sessionKey ticketKey) (hkey : RC4Key sourceKey)
    (pid : UInt64) : cfg.issue crypto env pid sourceKey = .ok (enclose crypto sourceKey
      (clientData cfg.settings (cfg.clientTicket crypto env pid sessionKey ticketKey))) := by
  rw [issue_eq_encrypt hs hdraws]
  exact encrypt_clientTicket hkey hdraws.size

theorem issue_panics (hs : Sound crypto) (hdraws : Draws cfg env sessionKey ticketKey)
    (hkey : ¬ RC4Key sourceKey) : cfg.issue crypto env pid sourceKey = .error .panic := by
  rw [issue_eq_encrypt hs hdraws]
  exact encrypt_clientTicket_panics hkey hdraws.size

theorem length_internal (hs : Sound crypto) (hdraws : Draws cfg env sessionKey ticketKey)
    (hsession : RC4Key sessionKey) (pid : UInt64) :
    (cfg.internal crypto env pid sessionKey ticketKey).length ≤ 312 := by
  have hle := length_serverTicket cfg.settings
    (deriveKey crypto cfg.keyDerivation cfg.securePassword cfg.securePID) hs hdraws.ticketSize
    ⟨env.ticketTime, pid, sessionKey⟩
  have hmax := hsession.2
  dsimp only at hle
  unfold AuthConfig.internal
  omega

/-- A ticket is small. -/
theorem length_ticket (hs : Sound crypto) (hdraws : Draws cfg env sessionKey ticketKey)
    (hsession : RC4Key sessionKey) (pid : UInt64) (sourceKey : Bytes) :
    (enclose crypto sourceKey (clientData cfg.settings
      (cfg.clientTicket crypto env pid sessionKey ticketKey))).length ≤ 600 := by
  have hinternal := length_internal hs hdraws hsession pid
  have hwidth := pidWidth_le cfg.settings
  have hmax := hsession.2
  rw [length_enclose hs]
  simp only [clientData, AuthConfig.clientTicket, List.length_append, length_pid, length_buffer]
  omega

end NextendoMatchmaking.Login
