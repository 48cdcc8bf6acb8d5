import NextendoMatchmaking.Endpoint.Session

/-!
# A connection among others

An endpoint serves many connections, and the steps of all of them are interleaved.  What a packet does outside its
connection concerns its own connection only (`own_handlePacket`), and a step that is no packet for `c` leaves `c`
as it is, up to a close (`exec_aside`).

A handler can send requests on the connection of its caller before it returns, and others can send on it at any
time.  `turn` is the step of the endpoint with these pushes, and `turn_packet` says that it is the step of the
endpoint where a handler pushes nothing.  A run is, for `c`, the sequence of the packets for `c` and of what is
pushed to it: `exists_arrival` takes it apart at a packet, and in `run_quiet` nothing comes for `c`.
-/

namespace NextendoMatchmaking.Endpoint

open NextendoMatchmaking.Runs

/-- The connection that an effect is about. -/
def Effect.sock : Effect → Sock
  | .send c _ | .spawn c _ | .onConnect c _ | .onDisconnect c _ | .onRMC c _ | .invoke c _ _ | .custom c _ => c

variable {crypto : Crypto} {e : Config} {l : Label} {ls : List Label} {s s' : State} {c c' : Sock}
  {conn : Connection} {p : Packet} {env : PacketEnv} {log log' effects : List Effect}

/-! ### Effects of a packet -/

theorem sock_sendData (settings : Settings) (data : Bytes) :
    ∀ x ∈ (sendData settings c conn data).2, x.sock = c := by
  unfold sendData
  split <;> simp [Effect.sock]

theorem sock_dispatchRMC (payload : Bytes) : ∀ x ∈ (dispatchRMC e env c conn payload).2, x.sock = c := by
  have hsend : ∀ msg, ∀ x ∈ (sendRMC e.settings c conn msg).2, x.sock = c := fun msg => sock_sendData _ _
  unfold dispatchRMC
  split
  · simp
  · split
    · simp
    · split
      · dsimp only
        split
        · simp [Effect.sock]
        · next resp _ =>
          intro x hx
          rcases List.mem_append.mp hx with hcall | hx
          · rcases List.mem_pair.mp hcall with rfl | rfl <;> rfl
          · exact hsend resp x hx
      · intro x hx
        rcases List.mem_cons.mp hx with rfl | hx
        · rfl
        · exact hsend _ x hx

theorem sock_acks {x : Effect} (b : Bool) (h : x ∈ if b then [sendAck c conn p] else []) : x.sock = c := by
  cases b with
  | true =>
    rw [List.mem_singleton.mp h]
    rfl
  | false => cases h

theorem sock_processData : ∀ x ∈ (processData e env c conn p).2, x.sock = c := by
  unfold processData
  split
  · simp
  · split
    · simp
    · dsimp only
      split
      · exact fun x hx => sock_acks _ hx
      · intro x hx
        rcases List.mem_append.mp hx with hack | hx
        · exact sock_acks _ hack
        · exact sock_dispatchRMC _ x hx

theorem sock_close (s : State) (c : Sock) : ∀ x ∈ (close s c).2, x.sock = c := by
  unfold close
  split
  · simp
  · split <;> simp [Effect.sock]

/-- All effects of a result are about `c`. -/
def Own (c : Sock) (r : State × List Effect) : Prop := ∀ x ∈ r.2, x.sock = c

/-- The effects of a packet are about its own connection. -/
theorem own_handlePacket : Own c (handlePacket crypto e env s c conn p) := by
  unfold handlePacket
  refine iteInduction (fun _ => ?_) (fun _ => ?_)
  · refine iteInduction (fun _ => List.forall_mem_nil _) (fun _ => ?_)
    simp [Own, processSYN, Effect.sock]
  refine iteInduction (fun _ => ?_) (fun _ => ?_)
  · refine iteInduction (fun _ => List.forall_mem_nil _) (fun _ => ?_)
    unfold processCONNECT
    split <;> simp [Own, Effect.sock]
  refine iteInduction (fun _ => sock_processData) (fun _ => ?_)
  refine iteInduction (fun _ => ?_) (fun _ => ?_)
  · intro x hx
    simp only [processPing] at hx
    split at hx
    · cases hx
    · exact sock_acks _ hx
  refine iteInduction (fun _ => ?_) (fun _ => ?_)
  · refine iteInduction (fun _ => List.forall_mem_nil _) (fun _ => ?_)
    intro x hx
    rcases List.mem_append.mp hx with hack | hx
    · exact sock_acks _ hack
    · exact sock_close _ _ x hx
  · intro x hx
    dsimp only at hx
    split at hx
    · rw [List.mem_singleton.mp hx]
      rfl
    · cases hx

/-! ### Steps aside -/

/-- The connection is `conn`, up to a close. -/
def Holds (s : State) (c : Sock) (conn : Connection) : Prop :=
  ∃ state, s.sockets.lookup c = some { conn with state } ∧ (state = conn.state ∨ state = .closed)

/-- What is done outside concerns `c` only by a close. -/
def Aside (c : Sock) (effects : List Effect) : Prop :=
  ∀ x ∈ effects, x.sock = c → ∃ pid, x = .onDisconnect c pid

theorem Aside.append {effects' : List Effect} (h : Aside c effects) (h' : Aside c effects') :
    Aside c (effects ++ effects') :=
  fun x hx => (List.mem_append.mp hx).elim (h x) (h' x)

theorem holds_of_lookup (h : s.sockets.lookup c = some conn) : Holds s c conn := ⟨conn.state, h, .inl rfl⟩

theorem holds_close (h : Holds s c conn) (c' : Sock) : Holds (close s c').1 c conn := by
  obtain ⟨state, h, hstate⟩ := h
  unfold close
  split
  · exact ⟨state, h, hstate⟩
  · next conn' hconn' =>
    split
    · exact ⟨state, h, hstate⟩
    · by_cases hc : c = c'
      · subst hc
        obtain rfl := Option.some.inj (h.symm.trans hconn')
        refine ⟨.closed, ?_, .inr rfl⟩
        rw [sockets_unregister, lookup_set, if_pos rfl]
      · refine ⟨state, ?_, hstate⟩
        rw [sockets_unregister, lookup_set, if_neg hc, h]

theorem aside_close (s : State) (c c' : Sock) : Aside c (close s c').2 := by
  unfold close
  split
  · exact List.forall_mem_nil _
  · split
    · exact List.forall_mem_nil _
    · intro x hx hc
      obtain rfl := List.mem_singleton.mp hx
      exact ⟨_, congrArg (Effect.onDisconnect · _) hc⟩

theorem holds_closeWhere (test : Sock → Connection → Bool) (cs : List Sock) (h : Holds s c conn) :
    Holds (closeWhere test cs s).1 c conn ∧ Aside c (closeWhere test cs s).2 := by
  induction cs generalizing s with
  | nil => exact ⟨h, List.forall_mem_nil _⟩
  | cons c' cs ih =>
    unfold closeWhere
    split
    · exact ih h
    · split
      · obtain ⟨hholds, haside⟩ := ih (holds_close h c')
        exact ⟨hholds, (aside_close s c c').append haside⟩
      · exact ih h

/-- A step that is no packet for `c`. -/
theorem exec_aside {r : State × List Effect} (h : exec crypto e s l = some r)
    (hl : ∀ p env, l ≠ .packet c p env) (hc : Holds s c conn) : Holds r.1 c conn ∧ Aside c r.2 := by
  cases l with
  | packet c' p env =>
    have hne : c' ≠ c := fun heq => hl p env (heq ▸ rfl)
    obtain ⟨state, hc, hstate⟩ := hc
    simp only [exec] at h
    split at h
    · cases h
    · next conn' hconn' =>
      obtain rfl := Option.some.inj h
      refine ⟨⟨state, ?_, hstate⟩, fun x hx hsock => ?_⟩
      · exact ((handled_handlePacket crypto e env s c' conn' p).lookup_of_ne (Ne.symm hne)).trans hc
      · exact absurd ((own_handlePacket x hx).symm.trans hsock) hne
  | accept c' remoteAddr =>
    obtain ⟨hfresh, hr⟩ := Option.ite_none_left_eq_some.mp h
    cases hr
    obtain ⟨state, hc, hstate⟩ := hc
    have hne : c ≠ c' := by
      rintro rfl
      simp [hc] at hfresh
    exact ⟨⟨state, by rw [lookup_set, if_neg hne, hc], hstate⟩, List.forall_mem_nil _⟩
  | _ =>
    cases exec_executed h with
    | closing _ test cs => exact holds_closeWhere test cs hc

/-! ### Pushes -/

/-- A packet for a connection, with what it finds outside, and with what the handler that it calls, if it calls one,
pushes to the connection before it returns. -/
structure Arrival where
  packet : Packet
  env : PacketEnv
  pushes : List RMCMessage := []

/-- `SendRMC` of some messages, one after the other. -/
def sendAll (settings : Settings) (c : Sock) : Connection → List RMCMessage → Connection × List Effect
  | conn, [] => (conn, [])
  | conn, msg :: msgs =>
    let (conn, sends) := sendRMC settings c conn msg
    let (conn, more) := sendAll settings c conn msgs
    (conn, sends ++ more)

/-- The request with which a handler is called. -/
def Effect.invoked : Effect → Option RMCMessage
  | .invoke _ _ req => some req
  | _ => none

/-- The environment in which a handler has not answered yet. -/
def PacketEnv.deferred (env : PacketEnv) : PacketEnv := { env with answer := fun _ => none }

/-- A handler that was called sends the messages `tells` of its request. -/
def telling (settings : Settings) (c : Sock) (tells : RMCMessage → List RMCMessage)
    (r : Connection × List Effect) : Connection × List Effect :=
  match r.2.findSome? Effect.invoked with
  | none => r
  | some req =>
    let (conn, sends) := sendAll settings c r.1 (tells req)
    (conn, r.2 ++ sends)

/-- `processData` where the handler, if one is called, pushes and then answers. -/
def serveData (e : Config) (c : Sock) (conn : Connection) (a : Arrival) : Connection × List Effect :=
  telling e.settings c (fun req => a.pushes ++ (a.env.answer req).toList)
    (processData e a.env.deferred c conn a.packet)

/-- A packet comes; handlers are called for data only. -/
def serve (crypto : Crypto) (e : Config) (s : State) (c : Sock) (a : Arrival) : Option (State × List Effect) :=
  if a.packet.type = PacketType.data then
    match s.sockets.lookup c with
    | none => none
    | some conn =>
      let (conn, effects) := serveData e c { conn with lastSeen := a.env.now } a
      some (s.set c conn, effects)
  else exec crypto e s (.packet c a.packet a.env)

inductive Turn
  | arrival (c : Sock) (a : Arrival)
  /-- A step of the endpoint that is no packet. -/
  | other (l : Label)
  /-- The handler of another connection, or a goroutine, sends on `c`. -/
  | push (c : Sock) (msg : RMCMessage)

def Label.isPacket : Label → Bool
  | .packet _ _ _ => true
  | _ => false

/-- What happens in a turn. -/
def takeTurn (crypto : Crypto) (e : Config) (s : State) : Turn → Option (State × List Effect)
  | .arrival c a => serve crypto e s c a
  | .other l => if l.isPacket then none else exec crypto e s l
  | .push c msg =>
    match s.sockets.lookup c with
    | none => none
    | some conn =>
      let (conn, sends) := sendRMC e.settings c conn msg
      some (s.set c conn, sends)

/-- A turn that records its effects. -/
def turn (crypto : Crypto) (e : Config) (s : Logged) (t : Turn) : Option Logged :=
  (takeTurn crypto e s.1 t).map (fun (s', effects) => (s', s.2 ++ effects))

/-! Where the handler pushes nothing, an arrival is a packet. -/

theorem not_invoked_sendData (settings : Settings) (data : Bytes) :
    (sendData settings c conn data).2.findSome? Effect.invoked = none := by
  unfold sendData
  split <;> rfl

theorem not_invoked_acks (b : Bool) :
    (if b then [sendAck c conn p] else []).findSome? Effect.invoked = none := by
  cases b <;> rfl

theorem telling_none {settings : Settings} {tells : RMCMessage → List RMCMessage} {r : Connection × List Effect}
    (h : r.2.findSome? Effect.invoked = none) : telling settings c tells r = r := by
  unfold telling
  rw [h]

theorem telling_some {settings : Settings} {tells : RMCMessage → List RMCMessage} {r : Connection × List Effect}
    {req : RMCMessage} (h : r.2.findSome? Effect.invoked = some req) :
    telling settings c tells r =
      ((sendAll settings c r.1 (tells req)).1, r.2 ++ (sendAll settings c r.1 (tells req)).2) := by
  unfold telling
  rw [h]

/-- Acknowledgements before a call do not matter to what its handler tells. -/
theorem telling_acks (settings : Settings) (tells : RMCMessage → List RMCMessage) (b : Bool) (conn' : Connection)
    (r : Connection × List Effect) :
    telling settings c tells (r.1, (if b then [sendAck c conn' p] else []) ++ r.2) =
      ((telling settings c tells r).1,
        (if b then [sendAck c conn' p] else []) ++ (telling settings c tells r).2) := by
  have hacks : ((if b then [sendAck c conn' p] else []) ++ r.2).findSome? Effect.invoked =
      r.2.findSome? Effect.invoked := by
    rw [List.findSome?_append, not_invoked_acks, Option.none_or]
  cases hinvoked : r.2.findSome? Effect.invoked with
  | none => rw [telling_none hinvoked, telling_none (hacks.trans hinvoked)]
  | some req => rw [telling_some hinvoked, telling_some (hacks.trans hinvoked), List.append_assoc]

theorem dispatchRMC_deferred (e : Config) (env : PacketEnv) (c : Sock) (conn : Connection) (payload : Bytes) :
    telling e.settings c (fun req => (env.answer req).toList) (dispatchRMC e env.deferred c conn payload) =
      dispatchRMC e env c conn payload := by
  unfold dispatchRMC
  cases parseRMC payload with
  | none => rfl
  | some req =>
    dsimp only
    by_cases hmode : req.mode ≠ .request
    · rw [if_pos hmode, if_pos hmode]
      rfl
    rw [if_neg hmode, if_neg hmode]
    by_cases hhandler : e.handler req.protocol = true
    · rw [if_pos hhandler, if_pos hhandler]
      show ((sendAll e.settings c conn (env.answer req).toList).1,
        [.onRMC c req, .invoke c conn req] ++ (sendAll e.settings c conn (env.answer req).toList).2) = _
      cases env.answer req with
      | none => rfl
      | some resp => simp only [Option.toList_some, sendAll, List.append_nil]
    · rw [if_neg hhandler, if_neg hhandler]
      exact telling_none (not_invoked_sendData _ _)

theorem serveData_answer (e : Config) (c : Sock) (conn : Connection) (p : Packet) (env : PacketEnv) :
    serveData e c conn ⟨p, env, []⟩ = processData e env c conn p := by
  unfold serveData processData
  split
  · rfl
  split
  · rfl
  dsimp only
  cases (reassemble conn.fragBuf p).2 with
  | none => exact telling_none (not_invoked_acks _)
  | some payload =>
    dsimp only
    rw [telling_acks]
    simp only [List.nil_append, dispatchRMC_deferred]

theorem exec_data (crypto : Crypto) (env : PacketEnv) (hconn : s.sockets.lookup c = some conn)
    (hdata : p.type = PacketType.data) :
    exec crypto e s (.packet c p env) =
      some (s.set c (processData e env c { conn with lastSeen := env.now } p).1,
        (processData e env c { conn with lastSeen := env.now } p).2) := by
  simp only [exec, hconn, handlePacket, hdata]
  rfl

/-- **A turn without pushes is a step of the endpoint.** -/
theorem turn_packet (crypto : Crypto) (e : Config) (s : Logged) (c : Sock) (p : Packet) (env : PacketEnv) :
    turn crypto e s (.arrival c ⟨p, env, []⟩) = step crypto e s (.packet c p env) := by
  have hserve : serve crypto e s.1 c ⟨p, env, []⟩ = exec crypto e s.1 (.packet c p env) := by
    unfold serve
    refine ite_eq_right_iff.mpr (fun hdata => ?_)
    cases hconn : s.1.sockets.lookup c with
    | none => simp only [exec, hconn]
    | some conn =>
      rw [exec_data crypto env hconn hdata, ← serveData_answer]
  exact congrArg (Option.map _) hserve

/-! ### Turns aside -/

theorem sock_sendAll (settings : Settings) (msgs : List RMCMessage) :
    ∀ x ∈ (sendAll settings c conn msgs).2, x.sock = c := by
  induction msgs generalizing conn with
  | nil => exact List.forall_mem_nil _
  | cons msg msgs ih =>
    intro x hx
    rcases List.mem_append.mp hx with hx | hx
    · exact sock_sendData _ _ x hx
    · exact ih x hx

theorem sock_serveData (a : Arrival) : ∀ x ∈ (serveData e c conn a).2, x.sock = c := by
  unfold serveData
  cases hinvoked : (processData e a.env.deferred c conn a.packet).2.findSome? Effect.invoked with
  | none =>
    rw [telling_none hinvoked]
    exact sock_processData
  | some req =>
    rw [telling_some hinvoked]
    intro x hx
    rcases List.mem_append.mp hx with hx | hx
    · exact sock_processData x hx
    · exact sock_sendAll _ _ x hx

/-- What comes for `c` in a turn. -/
def Turn.packetTo (c : Sock) : Turn → Option Arrival
  | .arrival c' a => if c' = c then some a else none
  | _ => none

/-- What is pushed to `c` in a turn that is not its own. -/
def Turn.pushTo (c : Sock) : Turn → Option RMCMessage
  | .push c' msg => if c' = c then some msg else none
  | _ => none

theorem eq_push {t : Turn} {msg : RMCMessage} (h : t.pushTo c = some msg) : t = .push c msg := by
  cases t with
  | push c' msg' =>
    obtain ⟨rfl, hmsg⟩ := Option.ite_none_right_eq_some.mp h
    rw [Option.some.inj hmsg]
  | _ => cases h

/-- Whatever another connection's effects and state become, `c` stays as it is. -/
theorem aside_of_ne {effects : List Effect} {conn' : Connection} (hne : c' ≠ c)
    (heffects : ∀ x ∈ effects, x.sock = c') (hc : Holds s c conn) :
    Holds (s.set c' conn') c conn ∧ Aside c effects := by
  obtain ⟨state, hc, hstate⟩ := hc
  refine ⟨⟨state, ?_, hstate⟩, fun x hx hsock => absurd ((heffects x hx).symm.trans hsock) hne⟩
  rw [lookup_set, if_neg (Ne.symm hne), hc]

theorem takeTurn_aside {t : Turn} {r : State × List Effect} (h : takeTurn crypto e s t = some r)
    (hpacket : t.packetTo c = none) (hpush : t.pushTo c = none) (hc : Holds s c conn) :
    Holds r.1 c conn ∧ Aside c r.2 := by
  cases t with
  | arrival c' a =>
    have hne : c' ≠ c := fun heq => Option.some_ne_none a ((if_pos heq).symm.trans hpacket)
    simp only [takeTurn, serve] at h
    split at h
    · split at h
      · cases h
      · obtain rfl := Option.some.inj h
        exact aside_of_ne hne (sock_serveData a) hc
    · exact exec_aside h (fun p env hl => hne (Label.packet.inj hl).1) hc
  | other l =>
    obtain ⟨hl, h⟩ := Option.ite_none_left_eq_some.mp h
    refine exec_aside h (fun p env heq => hl ?_) hc
    rw [heq]
    rfl
  | push c' msg =>
    have hne : c' ≠ c := fun heq => Option.some_ne_none msg ((if_pos heq).symm.trans hpush)
    simp only [takeTurn] at h
    split at h
    · cases h
    · obtain rfl := Option.some.inj h
      exact aside_of_ne hne (sock_sendData _ _) hc

/-! ### Runs -/

variable {ts : List Turn}

/-- The packets for `c` in a run. -/
def packetsTo (c : Sock) (ts : List Turn) : List Arrival := ts.filterMap (Turn.packetTo c)

/-- What others push to `c` in a run. -/
def pushedTo (c : Sock) (ts : List Turn) : List RMCMessage := ts.filterMap (Turn.pushTo c)

theorem packetsTo_append {qs qs' : List Arrival} (h : packetsTo c ts = qs ++ qs') :
    ∃ ts₁ ts₂, ts = ts₁ ++ ts₂ ∧ packetsTo c ts₁ = qs ∧ packetsTo c ts₂ = qs' :=
  List.filterMap_eq_append_iff.mp h

theorem pushedTo_append (c : Sock) (ts ts' : List Turn) : pushedTo c (ts ++ ts') = pushedTo c ts ++ pushedTo c ts' :=
  List.filterMap_append

theorem pushedTo_cons (c : Sock) (t : Turn) (ts : List Turn) :
    pushedTo c (t :: ts) = (t.pushTo c).toList ++ pushedTo c ts := by
  cases hto : t.pushTo c <;> simp [pushedTo, hto]

theorem pushedTo_arrival (c c' : Sock) (a : Arrival) (ts ts' : List Turn) :
    pushedTo c (ts ++ .arrival c' a :: ts') = pushedTo c ts ++ pushedTo c ts' := by
  rw [pushedTo_append, pushedTo_cons]
  rfl

theorem turn_some {t : Turn} {w : Logged} (h : turn crypto e (s, log) t = some w) :
    ∃ r, takeTurn crypto e s t = some r ∧ w = (r.1, log ++ r.2) := by
  obtain ⟨r, hr, rfl⟩ := Option.map_eq_some_iff.mp h
  exact ⟨r, hr, rfl⟩

/-- A run up to its first packet for `c`, that packet, and the rest. -/
theorem exists_arrival {q : Arrival} {qs : List Arrival} (h : packetsTo c ts = q :: qs)
    (hrun : run (turn crypto e) (s, log) ts = some (s', log')) :
    ∃ ts₁ ts₂ s₁ log₁ r, ts = ts₁ ++ .arrival c q :: ts₂ ∧ packetsTo c ts₁ = [] ∧ packetsTo c ts₂ = qs ∧
      run (turn crypto e) (s, log) ts₁ = some (s₁, log₁) ∧ serve crypto e s₁ c q = some r ∧
      run (turn crypto e) (r.1, log₁ ++ r.2) ts₂ = some (s', log') := by
  obtain ⟨ts₁, t, ts₂, rfl, hbefore, ht, hafter⟩ := List.filterMap_eq_cons_iff.mp h
  obtain rfl : t = .arrival c q := by
    cases t with
    | arrival c' a =>
      obtain ⟨rfl, ha⟩ := Option.ite_none_right_eq_some.mp ht
      rw [Option.some.inj ha]
    | _ => cases ht
  obtain ⟨⟨s₁, log₁⟩, hrun₁, hrest⟩ := run_append_some.mp hrun
  obtain ⟨w, hturn, hrun₂⟩ := run_cons_some.mp hrest
  obtain ⟨r, hserve, rfl⟩ := turn_some hturn
  exact ⟨ts₁, ts₂, s₁, log₁, r, rfl, List.filterMap_eq_nil_iff.mpr hbefore, hafter, hrun₁, hserve, hrun₂⟩

/-- A run in which nothing comes for `c`. -/
theorem run_quiet (hpackets : packetsTo c ts = []) (hpushed : pushedTo c ts = []) (hc : Holds s c conn)
    (hrun : run (turn crypto e) (s, log) ts = some (s', log')) :
    Holds s' c conn ∧ ∃ effects, log' = log ++ effects ∧ Aside c effects := by
  induction ts generalizing s log with
  | nil =>
    rw [run_nil, Option.some.injEq, Prod.mk.injEq] at hrun
    obtain ⟨rfl, rfl⟩ := hrun
    exact ⟨hc, [], (List.append_nil _).symm, List.forall_mem_nil _⟩
  | cons t ts ih =>
    rw [packetsTo, List.filterMap_eq_nil_iff, List.forall_mem_cons] at hpackets
    rw [pushedTo, List.filterMap_eq_nil_iff, List.forall_mem_cons] at hpushed
    obtain ⟨w, hturn, hrest⟩ := run_cons_some.mp hrun
    obtain ⟨r, hr, rfl⟩ := turn_some hturn
    obtain ⟨hholds, haside⟩ := takeTurn_aside hr hpackets.1 hpushed.1 hc
    obtain ⟨hend, effects, rfl, heffects⟩ := ih (List.filterMap_eq_nil_iff.mpr hpackets.2)
      (List.filterMap_eq_nil_iff.mpr hpushed.2) hholds hrest
    exact ⟨hend, r.2 ++ effects, List.append_assoc _ _ _, haside.append heffects⟩

/-- A run in which one packet comes for `c`, up to that packet. -/
theorem run_arrival {q : Arrival} (hpackets : packetsTo c ts = [q]) (hpushed : pushedTo c ts = [])
    (hc : Holds s c conn) (hrun : run (turn crypto e) (s, log) ts = some (s', log')) :
    ∃ s₁ before r ts₂, Holds s₁ c conn ∧ Aside c before ∧ serve crypto e s₁ c q = some r ∧
      packetsTo c ts₂ = [] ∧ pushedTo c ts₂ = [] ∧
      run (turn crypto e) (r.1, log ++ before ++ r.2) ts₂ = some (s', log') := by
  obtain ⟨ts₁, ts₂, s₁, log₁, r, rfl, hpackets₁, hpackets₂, hrun₁, hserve, hrun₂⟩ := exists_arrival hpackets hrun
  rw [pushedTo_arrival, List.append_eq_nil_iff] at hpushed
  obtain ⟨hs₁, before, rfl, hbefore⟩ := run_quiet hpackets₁ hpushed.1 hc hrun₁
  exact ⟨s₁, before, r, ts₂, hs₁, hbefore, hserve, hpackets₂, hpushed.2, hrun₂⟩

end NextendoMatchmaking.Endpoint
