import NextendoMatchmaking.Endpoint.Moves

/-!
# What a step leaves on a connection

The handshake and the reassembly keep their memory on the connection: the signature that answered the last
`SYN`, and the bytes of the message that is arriving.  Only one kind of packet writes to each of them
(`exec_becomes`): a `SYN` that is no acknowledgement to the signature, and a `DATA` packet that is no
acknowledgement to the buffer.  No packet for another connection, no close and no kick touches either.
-/

namespace NextendoMatchmaking.Endpoint

variable {r : State × List Effect}

/-- The packet carries a fragment of a message. -/
def IsFragment (p : Packet) : Prop :=
  p.type = PacketType.data ∧ p.hasFlag Flag.multiACK = false ∧ p.hasFlag Flag.ack = false

instance (p : Packet) : Decidable (IsFragment p) := by
  unfold IsFragment
  infer_instance

/-- The buffer of `c` after a step. -/
def fragBufAfter (c : Sock) (conn : Connection) : Label → Bytes
  | .packet c' p _ => if c' = c ∧ IsFragment p then (reassemble conn.fragBuf p).1 else conn.fragBuf
  | _ => conn.fragBuf

/-- The signature of `c` after a step. -/
def connectionSigAfter (crypto : Crypto) (c : Sock) (conn : Connection) : Label → Bytes
  | .packet c' p env =>
    if c' = c ∧ Greets p then connectionSignature crypto env.random conn.remoteAddr
    else conn.connectionSig
  | _ => conn.connectionSig

/-- `conn'` is the connection `c` after a step from `conn`. -/
structure Follows (crypto : Crypto) (c : Sock) (l : Label) (conn conn' : Connection) : Prop where
  remoteAddr : conn'.remoteAddr = conn.remoteAddr
  fragBuf : conn'.fragBuf = fragBufAfter c conn l
  connectionSig : conn'.connectionSig = connectionSigAfter crypto c conn l

/-- The memory of the connection is the same. -/
structure SameSession (conn conn' : Connection) : Prop where
  remoteAddr : conn'.remoteAddr = conn.remoteAddr
  fragBuf : conn'.fragBuf = conn.fragBuf
  connectionSig : conn'.connectionSig = conn.connectionSig

theorem SameSession.refl (conn : Connection) : SameSession conn conn := ⟨rfl, rfl, rfl⟩

theorem SameSession.trans {a b c : Connection} (h₁ : SameSession a b) (h₂ : SameSession b c) :
    SameSession a c :=
  ⟨h₂.remoteAddr.trans h₁.remoteAddr, h₂.fragBuf.trans h₁.fragBuf,
    h₂.connectionSig.trans h₁.connectionSig⟩

variable {crypto : Crypto} {e : Config} {l : Label} {s s' : State} {c c' : Sock} {conn conn' : Connection}
  {p : Packet} {env : PacketEnv}

/-! ### Methods of the connection -/

theorem sameSession_sendData (settings : Settings) (data : Bytes) :
    SameSession conn (sendData settings c conn data).1 := by
  unfold sendData
  split
  · exact ⟨rfl, rfl, rfl⟩
  · exact .refl conn

theorem sameSession_dispatchRMC (payload : Bytes) : SameSession conn (dispatchRMC e env c conn payload).1 := by
  have hsend : ∀ msg, SameSession conn (sendRMC e.settings c conn msg).1 :=
    fun msg => sameSession_sendData _ _
  unfold dispatchRMC
  split
  · exact .refl conn
  · split
    · exact .refl conn
    split
    · dsimp only
      split
      · exact .refl conn
      · exact hsend _
    · exact hsend _

/-- `processData` takes a fragment into the buffer; what `dispatchRMC` does then leaves the buffer alone. -/
theorem sameSession_fragment (e : Config) (env : PacketEnv) (c : Sock) (conn : Connection)
    (hmulti : p.hasFlag Flag.multiACK = false) (hack : p.hasFlag Flag.ack = false) :
    SameSession { conn with fragBuf := (reassemble conn.fragBuf p).1 }
      (processData e env c conn p).1 := by
  unfold processData
  rw [if_neg (by simp [hmulti]), if_neg (by simp [hack])]
  dsimp only
  split
  · exact .refl _
  · exact sameSession_dispatchRMC _

/-- An acknowledgement does not get as far as the buffer. -/
theorem sameSession_ack (h : ¬ (p.hasFlag Flag.multiACK = false ∧ p.hasFlag Flag.ack = false)) :
    SameSession conn (processData e env c conn p).1 := by
  unfold processData
  split
  · unfold processMultiAck
    split <;> exact ⟨rfl, rfl, rfl⟩
  · rename_i hmulti
    split
    · exact ⟨rfl, rfl, rfl⟩
    · rename_i hack
      exact absurd ⟨by simpa using hmulti, by simpa using hack⟩ h

/-- A login writes to the identity of the connection only. -/
theorem sameSession_processLoginRequest {payload response : Bytes}
    (h : processLoginRequest crypto e env conn payload = .ok (conn', response)) :
    SameSession conn conn' := by
  unfold processLoginRequest at h
  dsimp only at h
  split at h
  · cases h
    exact .refl conn
  split at h
  · split at h
    · cases h
    · cases h
      exact ⟨rfl, rfl, rfl⟩
  split at h
  · cases h
  split at h
  · cases h
  split at h
  · cases h
  split at h
  · cases h
  split at h
  · cases h
  · cases h
    exact ⟨rfl, rfl, rfl⟩

theorem sameSession_acceptCONNECT {ack : Packet}
    (h : acceptCONNECT crypto e env conn p = some (conn', ack)) : SameSession conn conn' := by
  unfold acceptCONNECT at h
  split at h
  · cases h
  split at h
  · cases h
  · rename_i hlogin
    cases h
    exact sameSession_processLoginRequest hlogin

/-! ### Every step -/

/-- A packet that is neither a fragment nor a greeting for `c` leaves its memory alone. -/
theorem Follows.of_same (h : SameSession conn conn')
    (hother : ∀ p env, l = .packet c p env → ¬ IsFragment p ∧ ¬ Greets p) :
    Follows crypto c l conn conn' := by
  have hbuf : fragBufAfter c conn l = conn.fragBuf := by
    unfold fragBufAfter
    split
    · rename_i c' p env
      rw [if_neg]
      rintro ⟨rfl, hfrag⟩
      exact (hother p env rfl).1 hfrag
    · rfl
  have hsig : connectionSigAfter crypto c conn l = conn.connectionSig := by
    unfold connectionSigAfter
    split
    · rename_i c' p env
      rw [if_neg]
      rintro ⟨rfl, hsyn⟩
      exact (hother p env rfl).2 hsyn
    · rfl
  exact ⟨h.remoteAddr, h.fragBuf.trans hbuf.symm, h.connectionSig.trans hsig.symm⟩

/-- The same for a packet of `c` itself. -/
theorem Follows.of_quiet (h : SameSession conn conn') (hfrag : ¬ IsFragment p) (hsyn : ¬ Greets p) :
    Follows crypto c (.packet c p env) conn conn' := by
  refine .of_same h (fun p' env' heq => ?_)
  cases heq
  exact ⟨hfrag, hsyn⟩

/-- The memory of every connection is the same, and no connection is new. -/
def SameSessions (s s' : State) : Prop :=
  ∀ c, Option.Rel SameSession (s.sockets.lookup c) (s'.sockets.lookup c)

theorem SameSessions.refl (s : State) : SameSessions s s := by
  intro c
  cases s.sockets.lookup c with
  | none => exact .none
  | some conn => exact .some (.refl conn)

theorem SameSessions.trans {s₁ s₂ s₃ : State} (h₁ : SameSessions s₁ s₂) (h₂ : SameSessions s₂ s₃) :
    SameSessions s₁ s₃ := by
  intro c
  have hleft := h₁ c
  have hright := h₂ c
  revert hleft hright
  generalize s₁.sockets.lookup c = x, s₂.sockets.lookup c = y, s₃.sockets.lookup c = z
  intro hleft hright
  cases hleft with
  | none =>
    cases hright
    exact .none
  | some hsame =>
    cases hright with
    | some hsame' => exact .some (hsame.trans hsame')

/-- A write that keeps the memory of one connection keeps that of all. -/
theorem sameSessions_set (h : s.sockets.lookup c = some conn) (hsame : SameSession conn conn') :
    SameSessions s (s.set c conn') := by
  intro c₁
  rw [lookup_set]
  split
  · rename_i hc
    subst hc
    rw [h]
    exact .some hsame
  · exact SameSessions.refl s c₁

theorem sameSessions_close (s : State) (c : Sock) : SameSessions s (close s c).1 := by
  unfold close
  split
  · exact .refl s
  · rename_i conn hconn
    split
    · exact .refl s
    · have hclosed : SameSession conn { conn with state := .closed } := ⟨rfl, rfl, rfl⟩
      intro c₁
      rw [sockets_unregister]
      exact sameSessions_set hconn hclosed c₁

theorem sameSessions_closeWhere (test : Sock → Connection → Bool) (cs : List Sock) (s : State) :
    SameSessions s (closeWhere test cs s).1 := by
  induction cs generalizing s with
  | nil => exact .refl s
  | cons c cs ih =>
    unfold closeWhere
    split
    · exact ih s
    · split
      · exact (sameSessions_close s c).trans (ih _)
      · exact ih s

/-- What becomes of `c` in one step: it follows the label, or it is made by it, or there is none. -/
inductive Becomes (crypto : Crypto) (c : Sock) (l : Label) : Option Connection → Option Connection → Prop
  | follows {conn conn' : Connection} (h : Follows crypto c l conn conn') :
      Becomes crypto c l (some conn) (some conn')
  | made {remoteAddr : RemoteAddr} (hl : l = .accept c remoteAddr) :
      Becomes crypto c l none (some (newConnection remoteAddr))
  | absent (hl : ∀ p env, l ≠ .packet c p env) : Becomes crypto c l none none

/-- A step that is not about a packet for `c`. -/
theorem SameSessions.becomes (h : SameSessions s s') (hl : ∀ p env, l ≠ .packet c p env) :
    Becomes crypto c l (s.sockets.lookup c) (s'.sockets.lookup c) := by
  have hrel := h c
  revert hrel
  generalize s.sockets.lookup c = x, s'.sockets.lookup c = y
  intro hrel
  cases hrel with
  | none => exact .absent hl
  | some hsame => exact .follows (.of_same hsame (fun p env heq => absurd heq (hl p env)))

/-- The connection that a packet is for. -/
theorem Handled.follows (hr : Handled crypto e env s c { conn with lastSeen := env.now } p r) :
    ∃ conn', r.1.sockets.lookup c = some conn' ∧ Follows crypto c (.packet c p env) conn conn' := by
  have hset : ∀ conn₁ : Connection, (s.set c conn₁).sockets.lookup c = some conn₁ :=
    fun conn₁ => (lookup_set _ _ _ _).trans (if_pos rfl)
  have hseen : SameSession conn { conn with lastSeen := env.now } := ⟨rfl, rfl, rfl⟩
  cases hr with
  | answered hdata hsyn _ =>
    exact ⟨_, hset _, .of_quiet hseen (fun hf => hdata hf.1) hsyn⟩
  | greeted hsyn =>
    have hfrag : ¬ IsFragment p := fun hf => nomatch hsyn.1.symm.trans hf.1
    refine ⟨_, hset _, rfl, ?_, ?_⟩
    · show conn.fragBuf = if c = c ∧ IsFragment p then _ else conn.fragBuf
      rw [if_neg (fun hf => hfrag hf.2)]
    · show connectionSignature crypto env.random conn.remoteAddr = if c = c ∧ Greets p then _ else _
      rw [if_pos ⟨rfl, hsyn⟩]
  | connected hp hacc =>
    have hsame := sameSession_acceptCONNECT hacc
    refine ⟨_, hset _, .of_quiet ⟨hsame.remoteAddr, hsame.fragBuf, hsame.connectionSig⟩ ?_ ?_⟩
    · exact fun hf => nomatch hp.1.symm.trans hf.1
    · exact fun hs => nomatch hp.1.symm.trans hs.1
  | data htype =>
    have hsyn : ¬ Greets p := fun hs => nomatch htype.symm.trans hs.1
    by_cases hfrag : IsFragment p
    · have hsame := sameSession_fragment e env c { conn with lastSeen := env.now } hfrag.2.1 hfrag.2.2
      refine ⟨_, hset _, hsame.remoteAddr, ?_, ?_⟩
      · rw [hsame.fragBuf]
        show _ = if c = c ∧ IsFragment p then (reassemble conn.fragBuf p).1 else _
        rw [if_pos ⟨rfl, hfrag⟩]
      · rw [hsame.connectionSig]
        show _ = if c = c ∧ Greets p then _ else conn.connectionSig
        rw [if_neg (fun hs => hsyn hs.2)]
    · have hack : ¬ (p.hasFlag Flag.multiACK = false ∧ p.hasFlag Flag.ack = false) :=
        fun hf => hfrag ⟨htype, hf⟩
      exact ⟨_, hset _, .of_quiet (hseen.trans (sameSession_ack hack)) hfrag hsyn⟩
  | disconnected htype =>
    have hrel := sameSessions_close (s.set c { conn with lastSeen := env.now }) c c
    rw [hset] at hrel
    dsimp only
    revert hrel
    generalize (close (s.set c { conn with lastSeen := env.now }) c).1.sockets.lookup c = closed
    intro hrel
    cases hrel with
    | some hsame =>
      refine ⟨_, rfl, .of_quiet (hseen.trans hsame) ?_ ?_⟩
      · exact fun hf => nomatch htype.symm.trans hf.1
      · exact fun hs => nomatch htype.symm.trans hs.1

theorem lookup_close_of_ne (h : c' ≠ c) : (close s c).1.sockets.lookup c' = s.sockets.lookup c' := by
  unfold close
  split
  · rfl
  · split
    · rfl
    · rw [sockets_unregister, lookup_set, if_neg h]

/-- A packet does not touch the other connections. -/
theorem Handled.lookup_of_ne (hr : Handled crypto e env s c conn p r) (h : c' ≠ c) :
    r.1.sockets.lookup c' = s.sockets.lookup c' := by
  have hset : ∀ conn₁ : Connection, (s.set c conn₁).sockets.lookup c' = s.sockets.lookup c' :=
    fun conn₁ => (lookup_set _ _ _ _).trans (if_neg h)
  cases hr with
  | answered _ _ _ => exact hset _
  | greeted _ => exact hset _
  | connected _ _ => exact hset _
  | data _ => exact hset _
  | disconnected _ => exact (lookup_close_of_ne h).trans (hset _)

/-- **One step.**  The memory of a connection after a step is what the label says. -/
theorem exec_becomes (h : exec crypto e s l = some r) (c : Sock) :
    Becomes crypto c l (s.sockets.lookup c) (r.1.sockets.lookup c) := by
  cases exec_executed h with
  | @accept c' remoteAddr hfresh =>
    rw [lookup_set]
    split
    · rename_i hc
      subst hc
      rw [hfresh]
      exact .made rfl
    · exact (SameSessions.refl s).becomes (by simp)
  | @packet c' p env conn _ hconn hr =>
    by_cases hc : c' = c
    · subst hc
      obtain ⟨conn', hlookup, hfollows⟩ := hr.follows
      rw [hconn, hlookup]
      exact .follows hfollows
    · rw [hr.lookup_of_ne (Ne.symm hc)]
      refine (SameSessions.refl s).becomes (fun p' env' heq => hc ?_)
      exact (Label.packet.inj heq).1
  | closing hl test cs => exact (sameSessions_closeWhere test cs s).becomes (hl c)

end NextendoMatchmaking.Endpoint
