import NextendoMatchmaking.Endpoint.System

/-!
# What a step does to the connections

Every step of an endpoint is described once, as a sequence of `Move`s: a connection is made, touched
without a change of its id, PID or state, connected, or shut.  Each move comes with its effects.
Properties of runs are proved move by move (`logged_invariant`), and no proof has to look into the packet
handlers again.
-/

namespace NextendoMatchmaking.Endpoint

open NextendoMatchmaking.Runs

/-- Id, PID and state are those of `conn`. -/
structure SameIdentity (conn conn' : Connection) : Prop where
  id : conn'.id = conn.id
  pid : conn'.pid = conn.pid
  state : conn'.state = conn.state

theorem SameIdentity.refl (conn : Connection) : SameIdentity conn conn := ⟨rfl, rfl, rfl⟩

theorem SameIdentity.trans {a b c : Connection} (h₁ : SameIdentity a b) (h₂ : SameIdentity b c) :
    SameIdentity a c :=
  ⟨h₂.id.trans h₁.id, h₂.pid.trans h₁.pid, h₂.state.trans h₁.state⟩

/-- The packet is the last fragment of a message, and no acknowledgement. -/
def CompletesMessage (p : Packet) : Prop :=
  p.type = PacketType.data ∧ p.hasFlag Flag.multiACK = false ∧ p.hasFlag Flag.ack = false ∧ p.fragmentID = 0

/-- The packet opens a handshake. -/
def Greets (p : Packet) : Prop := p.type = PacketType.syn ∧ p.hasFlag Flag.ack = false

instance (p : Packet) : Decidable (Greets p) := by
  unfold Greets
  infer_instance

/-- The packet asks for a connection. -/
def AsksToConnect (p : Packet) : Prop := p.type = PacketType.connect ∧ p.hasFlag Flag.ack = false

/-- The effects of a step that neither connects nor closes anything: a handler is invoked only by the last
fragment of a message. -/
inductive Quiet (l : Label) (c : Sock) (conn : Connection) : Effect → Prop
  | send (c' : Sock) (data : Bytes) : Quiet l c conn (.send c' data)
  | spawn (c' : Sock) (data : Bytes) : Quiet l c conn (.spawn c' data)
  | onRMC (c' : Sock) (req : RMCMessage) : Quiet l c conn (.onRMC c' req)
  | custom (c' : Sock) (p : Packet) : Quiet l c conn (.custom c' p)
  | invoke {p : Packet} {env : PacketEnv} {conn' : Connection} {req : RMCMessage}
      (hl : l = .packet c p env) (hp : CompletesMessage p) (hsame : SameIdentity conn conn') :
      Quiet l c conn (.invoke c conn' req)

/-- One change to the connections of an endpoint, with its effects, in a step with the label `l` from the
state `s₀`.  Only closing can come after something else in the same step. -/
inductive Move (crypto : Crypto) (e : Config) (s₀ : State) (l : Label) :
    State → List Effect → State → Prop
  | accept {c remoteAddr} (h : s₀.sockets.lookup c = none) :
      Move crypto e s₀ l s₀ [] (s₀.set c (newConnection remoteAddr))
  | touch {c conn conn' effects} (h : s₀.sockets.lookup c = some conn) (hsame : SameIdentity conn conn')
      (hquiet : ∀ x ∈ effects, Quiet l c conn x) : Move crypto e s₀ l s₀ effects (s₀.set c conn')
  | connect {c p env conn conn' ack} (hl : l = .packet c p env) (hp : AsksToConnect p)
      (h : s₀.sockets.lookup c = some conn)
      (hacc : acceptCONNECT crypto e env { conn with lastSeen := env.now } p = some (conn', ack)) :
      Move crypto e s₀ l s₀ [.send c ack.encode, .onConnect c conn'.pid]
        (registerConnection s₀ c { conn' with state := .connected })
  | shut {s c conn} (h : s.sockets.lookup c = some conn) (hopen : conn.state ≠ .closed) :
      Move crypto e s₀ l s [.onDisconnect c conn.pid]
        (unregisterConnection (s.set c { conn with state := .closed }) conn)

/-- Moves of one step, one after the other. -/
inductive Moves (crypto : Crypto) (e : Config) (s₀ : State) (l : Label) :
    State → List Effect → State → Prop
  | nil {s} : Moves crypto e s₀ l s [] s
  | cons {s s₁ s' effects effects'} (h : Move crypto e s₀ l s effects s₁)
      (t : Moves crypto e s₀ l s₁ effects' s') : Moves crypto e s₀ l s (effects ++ effects') s'

variable {crypto : Crypto} {e : Config} {l : Label} {s₀ s s₁ s' : State} {effects effects' : List Effect}
  {c : Sock} {conn : Connection} {p : Packet} {env : PacketEnv}
variable {r : State × List Effect}

theorem Moves.single (h : Move crypto e s₀ l s effects s') : Moves crypto e s₀ l s effects s' :=
  List.append_nil effects ▸ .cons h .nil

theorem Moves.append (h : Moves crypto e s₀ l s effects s₁) (h' : Moves crypto e s₀ l s₁ effects' s') :
    Moves crypto e s₀ l s (effects ++ effects') s' := by
  induction h with
  | nil => exact h'
  | cons m _ ih =>
    rw [List.append_assoc]
    exact .cons m (ih h')

/-- A write that keeps the identity of one connection keeps that of all. -/
theorem lookup_touch {conn' conn₁ : Connection} {c₁ : Sock} (h : s.sockets.lookup c = some conn)
    (hsame : SameIdentity conn conn') (h₁ : s.sockets.lookup c₁ = some conn₁) :
    ∃ conn₂, (s.set c conn').sockets.lookup c₁ = some conn₂ ∧ SameIdentity conn₁ conn₂ := by
  by_cases hc : c₁ = c
  · subst hc
    obtain rfl := Option.some.inj (h.symm.trans h₁)
    exact ⟨conn', (lookup_set _ _ _ _).trans (if_pos rfl), hsame⟩
  · exact ⟨conn₁, by rw [lookup_set, if_neg hc, h₁], .refl conn₁⟩

/-! ### Packets that only touch their connection -/

/-- A method of the connection that keeps its identity and only has quiet effects. -/
def Touches (l : Label) (c : Sock) (conn : Connection) (result : Connection × List Effect) : Prop :=
  SameIdentity conn result.1 ∧ ∀ x ∈ result.2, Quiet l c conn x

theorem Touches.move (h : s.sockets.lookup c = some conn) {result : Connection × List Effect}
    (ht : Touches l c conn result) : Move crypto e s l s result.2 (s.set c result.1) :=
  .touch h ht.1 ht.2

theorem touches_sendData (settings : Settings) (data : Bytes) :
    Touches l c conn (sendData settings c conn data) := by
  unfold sendData
  split
  · refine ⟨⟨rfl, rfl, rfl⟩, fun x hx => ?_⟩
    rw [List.mem_singleton.mp hx]
    exact .send _ _
  · refine ⟨.refl conn, fun x hx => ?_⟩
    rw [List.mem_singleton.mp hx]
    exact .spawn _ _

theorem touches_dispatchRMC (payload : Bytes) (hp : CompletesMessage p) :
    Touches (.packet c p env) c conn (dispatchRMC e env c conn payload) := by
  have hsend : ∀ msg, Touches (.packet c p env) c conn (sendRMC e.settings c conn msg) :=
    fun msg => touches_sendData _ _
  have hinvoke : ∀ req, Quiet (.packet c p env) c conn (.invoke c conn req) :=
    fun req => .invoke rfl hp (.refl conn)
  unfold dispatchRMC
  split
  · exact ⟨.refl conn, by simp⟩
  · rename_i req _
    split
    · exact ⟨.refl conn, by simp⟩
    split
    · dsimp only
      split
      · refine ⟨.refl conn, ?_⟩
        intro x hx
        rcases List.mem_pair.mp hx with rfl | rfl
        · exact .onRMC _ _
        · exact hinvoke req
      · rename_i resp _
        refine ⟨(hsend resp).1, ?_⟩
        intro x hx
        rcases List.mem_append.mp hx with hcall | hx
        · rcases List.mem_pair.mp hcall with rfl | rfl
          · exact .onRMC _ _
          · exact hinvoke req
        · exact (hsend resp).2 x hx
    · refine ⟨(hsend _).1, ?_⟩
      intro x hx
      rcases List.mem_cons.mp hx with rfl | hx
      · exact .onRMC _ _
      · exact (hsend _).2 x hx

theorem quiet_acks {x : Effect} (b : Bool) (h : x ∈ if b then [sendAck c conn p] else []) :
    Quiet l c conn x := by
  cases b with
  | true =>
    rw [List.mem_singleton.mp h]
    exact .send _ _
  | false => cases h

/-- The identity may be read before or after a write that keeps it. -/
theorem Quiet.of_same {conn' : Connection} {x : Effect} (h : SameIdentity conn conn')
    (hx : Quiet l c conn' x) : Quiet l c conn x := by
  cases hx with
  | send => exact .send _ _
  | spawn => exact .spawn _ _
  | onRMC => exact .onRMC _ _
  | custom => exact .custom _ _
  | invoke hl hp hsame => exact .invoke hl hp (h.trans hsame)

theorem touches_processData (hp : p.type = PacketType.data) :
    Touches (.packet c p env) c conn (processData e env c conn p) := by
  unfold processData
  split
  · refine ⟨?_, by simp⟩
    unfold processMultiAck
    split <;> exact ⟨rfl, rfl, rfl⟩
  · rename_i hmulti
    split
    · exact ⟨⟨rfl, rfl, rfl⟩, by simp⟩
    · rename_i hack
      simp only [reassemble]
      by_cases hfinal : p.fragmentID = 0
      · rw [if_pos hfinal]
        have hkeep : SameIdentity conn { conn with fragBuf := [] } := ⟨rfl, rfl, rfl⟩
        have hdispatch : Touches (.packet c p env) c { conn with fragBuf := [] }
            (dispatchRMC e env c { conn with fragBuf := [] } (conn.fragBuf ++ p.payload)) :=
          touches_dispatchRMC _ ⟨hp, by simpa using hmulti, by simpa using hack, hfinal⟩
        refine ⟨hkeep.trans hdispatch.1, ?_⟩
        intro x hx
        rcases List.mem_append.mp hx with hx | hx
        · exact quiet_acks _ hx
        · exact (hdispatch.2 x hx).of_same hkeep
      · rw [if_neg hfinal]
        exact ⟨⟨rfl, rfl, rfl⟩, fun x hx => quiet_acks _ hx⟩

theorem touches_processPing : Touches l c conn (conn, processPing c conn p) := by
  refine ⟨.refl conn, fun x hx => ?_⟩
  unfold processPing at hx
  split at hx
  · cases hx
  · exact quiet_acks _ hx

/-- The write of the arrival time before the packet is looked at. -/
theorem Touches.of_seen {result : Connection × List Effect} {now : Int}
    (h : Touches l c { conn with lastSeen := now } result) : Touches l c conn result := by
  have hseen : SameIdentity conn { conn with lastSeen := now } := ⟨rfl, rfl, rfl⟩
  exact ⟨hseen.trans h.1, fun x hx => (h.2 x hx).of_same hseen⟩

/-! ### Every step -/

/-- What `handlePacket` does with a packet, by its kind; `conn` carries the arrival time already. -/
inductive Handled (crypto : Crypto) (e : Config) (env : PacketEnv) (s : State) (c : Sock)
    (conn : Connection) (p : Packet) : State × List Effect → Prop
  /-- Acknowledgements of handshake packets, refused `CONNECT`s, pings and custom packets. -/
  | answered {effects : List Effect} (hdata : p.type ≠ PacketType.data) (hsyn : ¬ Greets p)
      (hquiet : ∀ x ∈ effects, Quiet (.packet c p env) c conn x) :
      Handled crypto e env s c conn p (s.set c conn, effects)
  | greeted (h : Greets p) : Handled crypto e env s c conn p
      (s.set c (processSYN crypto e env c conn p).1, (processSYN crypto e env c conn p).2)
  | connected {conn' : Connection} {ack : Packet} (h : AsksToConnect p)
      (hacc : acceptCONNECT crypto e env conn p = some (conn', ack)) : Handled crypto e env s c conn p
        (registerConnection s c { conn' with state := .connected },
          [.send c ack.encode, .onConnect c conn'.pid])
  | data (h : p.type = PacketType.data) : Handled crypto e env s c conn p
      (s.set c (processData e env c conn p).1, (processData e env c conn p).2)
  | disconnected (h : p.type = PacketType.disconnect) : Handled crypto e env s c conn p
      ((close (s.set c conn) c).1,
        (if p.hasFlag Flag.needACK then [sendAck c conn p] else []) ++ (close (s.set c conn) c).2)

theorem handled_processCONNECT (hp : AsksToConnect p) :
    Handled crypto e env s c conn p (processCONNECT crypto e env s c conn p) := by
  unfold processCONNECT
  split
  · refine .answered ?_ ?_ (by simp)
    · rw [hp.1]
      decide
    · intro hsyn
      cases hsyn.1.symm.trans hp.1
  · rename_i conn' ack hacc
    exact .connected hp hacc

/-- The inversion of `handlePacket`: no other proof splits its branches. -/
theorem handled_handlePacket (crypto : Crypto) (e : Config) (env : PacketEnv) (s : State) (c : Sock)
    (conn : Connection) (p : Packet) :
    Handled crypto e env s c { conn with lastSeen := env.now } p
      (handlePacket crypto e env s c conn p) := by
  unfold handlePacket
  refine iteInduction (fun hsyn => ?_) (fun hsyn => ?_)
  · refine iteInduction (fun hack => ?_) (fun hack => ?_)
    · refine .answered ?_ (fun hp => ?_) (by simp)
      · rw [hsyn]
        decide
      · rw [hp.2] at hack
        cases hack
    · exact .greeted ⟨hsyn, by simpa using hack⟩
  have hgreets : ¬ Greets p := fun hp => hsyn hp.1
  refine iteInduction (fun hconnect => ?_) (fun _ => ?_)
  · refine iteInduction (fun hack => ?_) (fun hack => ?_)
    · refine .answered ?_ hgreets (by simp)
      rw [hconnect]
      decide
    · exact handled_processCONNECT ⟨hconnect, by simpa using hack⟩
  refine iteInduction (fun hdata => .data hdata) (fun hdata => ?_)
  refine iteInduction (fun _ => ?_) (fun _ => ?_)
  · exact .answered hdata hgreets touches_processPing.2
  refine iteInduction (fun hdisconnect => ?_) (fun _ => ?_)
  · refine iteInduction (fun _ => ?_) (fun _ => ?_)
    · exact .answered hdata hgreets (by simp)
    · exact .disconnected hdisconnect
  · refine .answered hdata hgreets (fun x hx => ?_)
    split at hx
    · rw [List.mem_singleton.mp hx]
      exact .custom _ _
    · cases hx

/-- What a step does, by its label: the closes, the reaper and the administrator all close connections one
after the other. -/
inductive Executed (crypto : Crypto) (e : Config) (s : State) : Label → State × List Effect → Prop
  | accept {c : Sock} {remoteAddr : RemoteAddr} (h : s.sockets.lookup c = none) :
      Executed crypto e s (.accept c remoteAddr) (s.set c (newConnection remoteAddr), [])
  | packet {c : Sock} {p : Packet} {env : PacketEnv} {conn : Connection} {r : State × List Effect}
      (h : s.sockets.lookup c = some conn)
      (hr : Handled crypto e env s c { conn with lastSeen := env.now } p r) :
      Executed crypto e s (.packet c p env) r
  | closing {l : Label} (hl : ∀ c p env, l ≠ .packet c p env) (test : Sock → Connection → Bool)
      (cs : List Sock) : Executed crypto e s l (closeWhere test cs s)

theorem closeWhere_singleton (s : State) (c : Sock) : closeWhere (fun _ _ => true) [c] s = close s c := by
  unfold closeWhere
  split
  · rename_i hnone
    simp only [closeWhere, close, hnone]
  · simp only [closeWhere, if_true, List.append_nil]

/-- The inversion of a step: no other proof splits the branches of `exec`. -/
theorem exec_executed (h : exec crypto e s l = some r) : Executed crypto e s l r := by
  cases l with
  | accept c remoteAddr =>
    obtain ⟨hfresh, hr⟩ := Option.ite_none_left_eq_some.mp h
    cases hr
    exact .accept (by simpa using hfresh)
  | packet c p env =>
    simp only [exec] at h
    split at h
    · cases h
    · rename_i conn hconn
      cases h
      exact .packet hconn (handled_handlePacket crypto e env s c conn p)
  | close c =>
    obtain ⟨-, hr⟩ := Option.ite_none_right_eq_some.mp h
    cases hr
    rw [← closeWhere_singleton]
    exact .closing (by simp) _ _
  | reapIdle maxIdle now order =>
    obtain ⟨-, hr⟩ := Option.ite_none_right_eq_some.mp h
    cases hr
    unfold Endpoint.reapIdle
    split
    · exact .closing (by simp) (fun _ _ => true) []
    · exact .closing (by simp) _ _
  | kickPID pid order =>
    obtain ⟨-, hr⟩ := Option.ite_none_right_eq_some.mp h
    cases hr
    unfold Endpoint.kickPID
    split
    · exact .closing (by simp) (fun _ _ => true) []
    · exact .closing (by simp) _ _
  | kickConnection id order =>
    obtain ⟨-, hr⟩ := Option.ite_none_right_eq_some.mp h
    cases hr
    unfold Endpoint.kickConnection
    split
    · exact .closing (by simp) (fun _ _ => true) []
    · rw [← closeWhere_singleton]
      exact .closing (by simp) _ _

theorem moves_close (s : State) (c : Sock) : Moves crypto e s₀ l s (close s c).2 (close s c).1 := by
  unfold close
  split
  · exact .nil
  · rename_i conn hconn
    split
    · exact .nil
    · rename_i hopen
      exact .single (.shut hconn hopen)

theorem moves_closeWhere (test : Sock → Connection → Bool) (cs : List Sock) (s : State) :
    Moves crypto e s₀ l s (closeWhere test cs s).2 (closeWhere test cs s).1 := by
  induction cs generalizing s with
  | nil => exact .nil
  | cons c cs ih =>
    unfold closeWhere
    split
    · exact ih s
    · split
      · exact (moves_close s c).append (ih _)
      · exact ih s

theorem Handled.moves (h : s.sockets.lookup c = some conn)
    (hr : Handled crypto e env s c { conn with lastSeen := env.now } p r) :
    Moves crypto e s (.packet c p env) s r.2 r.1 := by
  have hseen : SameIdentity conn { conn with lastSeen := env.now } := ⟨rfl, rfl, rfl⟩
  cases hr with
  | answered _ _ hquiet =>
    exact .single (.touch h hseen (fun x hx => (hquiet x hx).of_same hseen))
  | greeted _ =>
    have hsyn : Touches (.packet c p env) c conn
        (processSYN crypto e env c { conn with lastSeen := env.now } p) :=
      ⟨⟨rfl, rfl, rfl⟩, fun x hx => by
        rw [List.mem_singleton.mp hx]
        exact .send _ _⟩
    exact .single (hsyn.move h)
  | connected hp hacc => exact .single (.connect rfl hp h hacc)
  | data hdata => exact .single ((touches_processData hdata).of_seen.move h)
  | disconnected _ =>
    -- The acknowledgement goes out before the connection is closed.
    have hacks : Touches (.packet c p env) c conn ({ conn with lastSeen := env.now },
        if p.hasFlag Flag.needACK then [sendAck c { conn with lastSeen := env.now } p] else []) :=
      ⟨hseen, fun x hx => quiet_acks _ hx⟩
    exact .cons (hacks.move h) (moves_close _ c)

theorem exec_moves (h : exec crypto e s l = some r) : Moves crypto e s l s r.2 r.1 := by
  cases exec_executed h with
  | accept hfresh => exact .single (.accept hfresh)
  | packet hconn hr => exact hr.moves hconn
  | closing _ test cs => exact moves_closeWhere test cs s

/-- A property of the state and of the effects so far that every move of the step keeps. -/
theorem moves_keep {P : State → List Effect → Prop}
    (hmove : ∀ {s log effects s'}, P s log → Move crypto e s₀ l s effects s' → P s' (log ++ effects))
    {log : List Effect} (hs : P s log) (h : Moves crypto e s₀ l s effects s') : P s' (log ++ effects) := by
  induction h generalizing log with
  | nil =>
    rw [List.append_nil]
    exact hs
  | cons m _ ih =>
    rw [← List.append_assoc]
    exact ih (hmove hs m)

/-- **Rule for runs of an endpoint.**  In a run whose steps all meet `C`, a property that holds at the start
and that every move of such a step keeps holds at the end. -/
theorem logged_invariant {C : State → Label → Prop} {P : State → List Effect → Prop}
    (h₀ : P newEndpoint [])
    (hmove : ∀ {s₀ l s log effects s'}, C s₀ l → P s log → Move crypto e s₀ l s effects s' →
      P s' (log ++ effects))
    {ls : List Label} {t : Logged} (hC : Steps (step crypto e) (fun t l => C t.1 l) start ls)
    (h : run (step crypto e) start ls = some t) : P t.1 t.2 := by
  refine run_invariant_of_steps (P := fun t : Logged => P t.1 t.2) ?_ hC h₀ h
  intro t l t' hc ht hstep
  obtain ⟨r, hr, rfl⟩ := Option.map_eq_some_iff.mp hstep
  exact moves_keep (hmove hc) ht (exec_moves hr)

end NextendoMatchmaking.Endpoint
