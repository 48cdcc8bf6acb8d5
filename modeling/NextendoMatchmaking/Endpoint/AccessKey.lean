import NextendoMatchmaking.Endpoint.DispatchGate
import NextendoMatchmaking.Endpoint.Session

/-!
# What a `CONNECT` proves

A `CONNECT` is meant to prove that its sender knows the access key: it signs the connection signature with
which the server answered the `SYN`.  `processCONNECT` compares the signature of the packet with what
`LitePacketSignature` gives for it, and that is nothing at all for a packet without `NEED_ACK`; and before any
`SYN` the connection signature is empty.  So a `CONNECT` that leaves out the flag and the signature is
accepted, and so is one that signs nothing (`connect_without_key`).

If every `CONNECT` carries `NEED_ACK` and comes after a `SYN`, then a connection becomes connected only by one
that signs the signature which the server generated for it (`connect_proves_key`).
-/

namespace NextendoMatchmaking.Endpoint

open NextendoMatchmaking.Runs

/-! ### The handshake in a run -/

/-- A `SYN` came for `c`. -/
def Greeted (c : Sock) (ls : List Label) : Prop := ∃ p env, .packet c p env ∈ ls ∧ Greets p

/-- `sig` is the connection signature that was generated for a `SYN` of `c`. -/
def Answered (crypto : Crypto) (c : Sock) (ls : List Label) (sig : Bytes) : Prop :=
  ∃ remoteAddr p env, .accept c remoteAddr ∈ ls ∧ .packet c p env ∈ ls ∧ Greets p ∧
    sig = connectionSignature crypto env.random remoteAddr

/-- The step connects `c`: its state becomes connected, it is registered, or `OnConnect` is called for it. -/
def Enters (c : Sock) (s s' : State) (effects : List Effect) : Prop :=
  (∃ conn', s'.sockets.lookup c = some conn' ∧ conn'.state = .connected ∧
    ∀ conn, s.sockets.lookup c = some conn → conn.state ≠ .connected) ∨
  (∃ id, s'.connections.lookup id = some c ∧ s.connections.lookup id ≠ some c) ∨
  ∃ pid, .onConnect c pid ∈ effects

/-- The label is a `CONNECT` for `c` that signs, with the access key, a connection signature which was
generated for an earlier `SYN` of `c`. -/
def ProvesKey (crypto : Crypto) (e : Config) (c : Sock) (before : List Label) (l : Label) : Prop :=
  ∃ p env sig, l = .packet c p env ∧ p.type = PacketType.connect ∧ Answered crypto c before sig ∧
    p.signature = crypto.hmacMD5 (crypto.md5 e.settings.accessKey) (crypto.md5 e.settings.accessKey ++ sig)

/-- In this run `c` is connected only by packets that prove the key. -/
def EntersByKey (crypto : Crypto) (e : Config) (c : Sock) (ls : List Label) : Prop :=
  ∀ before l after t r, ls = before ++ l :: after → run (step crypto e) start before = some t →
    exec crypto e t.1 l = some r → Enters c t.1 r.1 r.2 → ProvesKey crypto e c before l

/-- Every `CONNECT` for `c` carries `NEED_ACK` and comes after a `SYN`. -/
def ProperConnects (c : Sock) (ls : List Label) : Prop :=
  ∀ before p env after, ls = before ++ .packet c p env :: after → AsksToConnect p →
    p.hasFlag Flag.needACK ∧ Greeted c before

variable {crypto : Crypto} {e : Config} {l : Label} {ls : List Label} {s₀ s s' : State}
  {log effects : List Effect} {c : Sock} {conn : Connection} {p : Packet} {env : PacketEnv}

/-! ### The connection signature -/

theorem greeted_snoc : Greeted c (ls ++ [l]) ↔ Greeted c ls ∨ ∃ p env, l = .packet c p env ∧ Greets p := by
  constructor
  · rintro ⟨p, env, hmem, hp⟩
    rcases List.mem_append.mp hmem with hold | hnew
    · exact .inl ⟨p, env, hold, hp⟩
    · exact .inr ⟨p, env, (List.mem_singleton.mp hnew).symm, hp⟩
  · rintro (⟨p, env, hmem, hp⟩ | ⟨p, env, rfl, hp⟩)
    · exact ⟨p, env, List.mem_append_left _ hmem, hp⟩
    · exact ⟨p, env, List.mem_append_right _ List.mem_cons_self, hp⟩

theorem Answered.append {sig : Bytes} (h : Answered crypto c ls sig) (ls' : List Label) :
    Answered crypto c (ls ++ ls') sig := by
  obtain ⟨remoteAddr, p, env, haccept, hsyn, hp, hsig⟩ := h
  exact ⟨remoteAddr, p, env, List.mem_append_left _ haccept, List.mem_append_left _ hsyn, hp, hsig⟩

/-- The signature on the connection is the one that answered a `SYN`, if there was one. -/
def SigInv (crypto : Crypto) (c : Sock) (ls : List Label) : Option Connection → Prop
  | none => ¬ Greeted c ls
  | some conn => .accept c conn.remoteAddr ∈ ls ∧
      (Greeted c ls → Answered crypto c ls conn.connectionSig)

theorem sigInv_becomes {before after : Option Connection} (hi : SigInv crypto c ls before)
    (h : Becomes crypto c l before after) : SigInv crypto c (ls ++ [l]) after := by
  cases h with
  | @follows conn conn' hfollows =>
    obtain ⟨haccept, hsig⟩ := hi
    have haccept' : .accept c conn'.remoteAddr ∈ ls ++ [l] := by
      rw [hfollows.remoteAddr]
      exact List.mem_append_left _ haccept
    refine ⟨haccept', fun hgreeted => ?_⟩
    rw [hfollows.connectionSig]
    by_cases hnew : ∃ p env, l = .packet c p env ∧ Greets p
    · obtain ⟨p, env, rfl, hp⟩ := hnew
      refine ⟨conn.remoteAddr, p, env, List.mem_append_left _ haccept,
        List.mem_append_right _ List.mem_cons_self, hp, ?_⟩
      exact if_pos ⟨rfl, hp⟩
    · have hkept : connectionSigAfter crypto c conn l = conn.connectionSig := by
        unfold connectionSigAfter
        split
        · rename_i c' p env
          refine if_neg ?_
          rintro ⟨rfl, hp⟩
          exact hnew ⟨p, env, rfl, hp⟩
        · rfl
      rw [hkept]
      exact (hsig ((greeted_snoc.mp hgreeted).resolve_right hnew)).append [l]
  | @made remoteAddr hl =>
    refine ⟨List.mem_append_right _ (List.mem_singleton.mpr hl.symm), fun hgreeted => ?_⟩
    rcases greeted_snoc.mp hgreeted with hold | ⟨p, env, heq, -⟩
    · exact absurd hold hi
    · cases hl.symm.trans heq
  | absent hl =>
    intro hgreeted
    rcases greeted_snoc.mp hgreeted with hold | ⟨p, env, heq, -⟩
    · exact hi hold
    · exact hl p env heq

theorem sigInv_run {t : Logged} (h : run (step crypto e) start ls = some t) (c : Sock) :
    SigInv crypto c ls (t.1.sockets.lookup c) := by
  refine run_history (P := fun ls t => SigInv crypto c ls (t.1.sockets.lookup c)) ?_ ?_ h
  · rintro ⟨p, env, hmem, -⟩
    cases hmem
  · intro ls t l t' hi hstep
    obtain ⟨r, hr, rfl⟩ := Option.map_eq_some_iff.mp hstep
    exact sigInv_becomes hi (exec_becomes hr c)

/-! ### Becoming connected -/

/-- The step is an accepted `CONNECT` for `c`. -/
def Accepts (crypto : Crypto) (e : Config) (s : State) (c : Sock) (l : Label) : Prop :=
  ∃ p env conn, l = .packet c p env ∧ AsksToConnect p ∧ s.sockets.lookup c = some conn ∧
    (acceptCONNECT crypto e env { conn with lastSeen := env.now } p).isSome

/-- Nothing so far has connected `c`. -/
structure NotEntered (c : Sock) (s s' : State) (log : List Effect) : Prop where
  state : ∀ conn', s'.sockets.lookup c = some conn' → conn'.state = .connected →
    ∃ conn, s.sockets.lookup c = some conn ∧ conn.state = .connected
  registry : ∀ id, s'.connections.lookup id = some c → s.connections.lookup id = some c
  silent : ∀ pid, .onConnect c pid ∉ log

theorem notEntered_start (c : Sock) (s : State) : NotEntered c s s [] :=
  ⟨fun conn' h hstate => ⟨conn', h, hstate⟩, fun _ h => h, nofun⟩

/-- A move connects `c` only if the step is an accepted `CONNECT` for it. -/
theorem notEntered_move (hnot : ¬ Accepts crypto e s₀ c l) (hi : NotEntered c s₀ s log)
    (m : Move crypto e s₀ l s effects s') : NotEntered c s₀ s' (log ++ effects) := by
  have hsilent : (∀ pid, .onConnect c pid ∉ effects) → ∀ pid, .onConnect c pid ∉ log ++ effects :=
    fun hnew pid hx => (List.mem_append.mp hx).elim (hi.silent pid) (hnew pid)
  cases m with
  | @accept c' remoteAddr h =>
    refine ⟨fun conn' hlookup hstate => ?_, hi.registry, hsilent (by simp)⟩
    rcases lookup_set_cases hlookup with ⟨-, rfl⟩ | ⟨-, hold⟩
    · cases hstate
    · exact hi.state conn' hold hstate
  | @touch c' conn conn' _ h hsame hquiet =>
    refine ⟨fun conn'' hlookup hstate => ?_, hi.registry, hsilent ?_⟩
    · rcases lookup_set_cases hlookup with ⟨rfl, rfl⟩ | ⟨-, hold⟩
      · exact ⟨conn, h, hsame.state ▸ hstate⟩
      · exact hi.state conn'' hold hstate
    · intro pid hx
      cases hquiet _ hx
  | @connect c' p env conn conn' ack hl hp h hacc =>
    have hc : c' ≠ c := by
      rintro rfl
      exact hnot ⟨p, env, conn, hl, hp, h, by rw [hacc]; rfl⟩
    refine ⟨fun conn'' hlookup hstate => ?_, fun id hid => ?_, hsilent ?_⟩
    · rcases lookup_set_cases hlookup with ⟨heq, -⟩ | ⟨-, hold⟩
      · exact absurd heq.symm hc
      · exact hi.state conn'' hold hstate
    · change (s₀.connections.insert (s₀.connCounter + 1) c').lookup id = some c at hid
      rw [GoMap.lookup_insert_eq] at hid
      split at hid
      · exact absurd (Option.some.inj hid) hc
      · exact hid
    · intro pid hx
      rcases List.mem_pair.mp hx with heq | heq
      · cases heq
      · exact hc (Effect.onConnect.inj heq).1.symm
  | @shut _ c' conn h hopen =>
    refine ⟨fun conn'' hlookup hstate => ?_, fun id hid => ?_, hsilent (by simp)⟩
    · rw [sockets_unregister] at hlookup
      rcases lookup_set_cases hlookup with ⟨-, rfl⟩ | ⟨-, hold⟩
      · cases hstate
      · exact hi.state conn'' hold hstate
    · rw [lookup_unregister] at hid
      split at hid
      · cases hid
      · exact hi.registry id hid

/-- **One step.**  A connection becomes connected only by a `CONNECT` that is accepted on it. -/
theorem accepts_of_enters {r : State × List Effect} (h : exec crypto e s l = some r)
    (henters : Enters c s r.1 r.2) : Accepts crypto e s c l := by
  by_contra hnot
  have hi : NotEntered c s r.1 ([] ++ r.2) :=
    moves_keep (P := NotEntered c s) (fun hi m => notEntered_move hnot hi m) (notEntered_start c s)
      (exec_moves h)
  rcases henters with ⟨conn', hlookup, hstate, hbefore⟩ | ⟨id, hid, hnone⟩ | ⟨pid, hpid⟩
  · obtain ⟨conn, hconn, hconnected⟩ := hi.state conn' hlookup hstate
    exact hbefore conn hconn hconnected
  · exact hnone (hi.registry id hid)
  · exact hi.silent pid hpid

/-- What an accepted `CONNECT` with `NEED_ACK` carries. -/
theorem signature_of_accepts (h : (acceptCONNECT crypto e env conn p).isSome) (hp : AsksToConnect p)
    (hflag : p.hasFlag Flag.needACK) :
    p.signature = crypto.hmacMD5 (crypto.md5 e.settings.accessKey)
      (crypto.md5 e.settings.accessKey ++ conn.connectionSig) := by
  unfold acceptCONNECT at h
  split at h
  · cases h
  · rename_i hsig
    rw [litePacketSignature, if_pos ⟨hp.1, hflag⟩] at hsig
    exact (not_not.mp hsig).symm

/-- **The access key.**  In every run in which each `CONNECT` for `c` carries `NEED_ACK` and comes after a
`SYN`, the connection is connected only by a `CONNECT` that signs, with the access key, a connection signature
which the server generated for an earlier `SYN` on it. -/
theorem connect_proves_key (crypto : Crypto) (e : Config) (c : Sock) (ls : List Label)
    (hproper : ProperConnects c ls) : EntersByKey crypto e c ls := by
  intro before l after t r hsplit hbefore hexec henters
  obtain ⟨p, env, conn, rfl, hp, hconn, hacc⟩ := accepts_of_enters hexec henters
  obtain ⟨hflag, hgreeted⟩ := hproper before p env after hsplit hp
  have hi := sigInv_run hbefore c
  rw [hconn] at hi
  have hsigned := signature_of_accepts hacc hp hflag
  exact ⟨p, env, conn.connectionSig, rfl, hp.1, hi.2 hgreeted, hsigned⟩

/-! ### Handshakes -/

def peerAddr : RemoteAddr := .ipv4 [10, 0, 0, 1] 4000

/-- The connection signature of the peer. -/
def peerSig : Bytes := connectionSignature plainCrypto [] peerAddr

def synPacket : Packet := { type := PacketType.syn }

/-- A `CONNECT` that leaves out `NEED_ACK`, and with it the signature. -/
def unsignedPacket : Packet := { type := PacketType.connect }

/-- A handshake as it is meant to be. -/
def signedTrace : List Label :=
  [.accept 0 peerAddr, .packet 0 synPacket (recallEnv 7), .packet 0 (connectPacket peerSig) (recallEnv 7)]

/-- The only `CONNECT` of the handshake is its last packet. -/
theorem proper_signedTrace : ProperConnects 0 signedTrace := by
  intro before p env after hsplit hp
  match before, hsplit with
  | [], hsplit => cases hsplit
  | [_], hsplit =>
    cases hsplit
    cases hp.1
  | [_, _], hsplit =>
    cases hsplit
    exact ⟨by decide, synPacket, recallEnv 7, by simp, by decide⟩
  | _ :: _ :: _ :: _, hsplit =>
    have hlen := congrArg List.length hsplit
    simp [signedTrace] at hlen

theorem connect_proves_key_signed : ∃ t,
    run (step plainCrypto secureConfig) start signedTrace = some t ∧ .onConnect 0 7 ∈ t.2 ∧
      EntersByKey plainCrypto secureConfig 0 signedTrace :=
  ⟨_, rfl, List.mem_of_getElem? (i := 2) rfl,
    connect_proves_key plainCrypto secureConfig 0 signedTrace proper_signedTrace⟩

/-- **Without the key.**  A `CONNECT` without `NEED_ACK` and without a signature is accepted after a `SYN`,
and a `CONNECT` that signs the empty signature is accepted before any. -/
theorem connect_without_key :
    ¬ EntersByKey plainCrypto secureConfig 0 [.accept 0 peerAddr, .packet 0 synPacket (recallEnv 7),
        .packet 0 unsignedPacket (recallEnv 7)] ∧
      ¬ EntersByKey plainCrypto secureConfig 0 [.accept 0 peerAddr,
        .packet 0 (connectPacket []) (recallEnv 7)] := by
  constructor
  · intro h
    have hproves := h [.accept 0 peerAddr, .packet 0 synPacket (recallEnv 7)] _ [] _ _ rfl rfl rfl
    obtain ⟨p, env, sig, heq, -, -, hsig⟩ :=
      hproves (.inr (.inr ⟨7, List.mem_of_getElem? (i := 1) rfl⟩))
    cases heq
    cases hsig
  · intro h
    have hproves := h [.accept 0 peerAddr] _ [] _ _ rfl rfl rfl
    obtain ⟨p, env, sig, -, -, ⟨remoteAddr, p', env', -, hmem, -⟩, -⟩ :=
      hproves (.inr (.inr ⟨7, List.mem_of_getElem? (i := 1) rfl⟩))
    simp at hmem

end NextendoMatchmaking.Endpoint
