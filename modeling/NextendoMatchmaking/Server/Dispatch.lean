import NextendoMatchmaking.Endpoint.Peers
import NextendoMatchmaking.Ranking.Handler
import NextendoMatchmaking.Server.Allowlist

/-!
# The seven protocols of the secure server

`server/main.go` registers seven handlers with the secure endpoint.  Here they are one function of everything
that they write to: the gatherings, the tournaments, the profiles and boards, and what the connections have
reported of themselves.  `utility.go`, the last of the seven, writes nothing.

* `dispatch` — the handler of the protocol of a request; a protocol without one is answered by the endpoint;
* `dispatch_answers` — whatever the protocol and the body, what is returned answers this request.
-/

namespace NextendoMatchmaking.Server

open NextendoMatchmaking.Endpoint NextendoMatchmaking.Matchmaking NextendoMatchmaking.Ranking

/-! ### Utility -/

def protocolUtility : UInt16 := 0x6E
def methodAcquireNexUniqueID : UInt32 := 0x1
def methodAcquireNexUniqueIDWithPassword : UInt32 := 0x2
def methodGetIntegerSettings : UInt32 := 0x7
def methodGetStringSettings : UInt32 := 0x8

def nexUniqueIDPasswordSalt : UInt64 := 0x4e45585f50574421

/-- `UtilityHandler`: no settings, and an id that is the PID. -/
def utilityHandler (s : Settings) (pid : UInt64) (req : RMCMessage) : RMCMessage :=
  if req.method = methodGetIntegerSettings ∨ req.method = methodGetStringSettings then
    newRMCSuccess protocolUtility req.method req.callID (StreamOut.u32 0)
  else if req.method = methodAcquireNexUniqueID then
    newRMCSuccess protocolUtility req.method req.callID (StreamOut.u64 pid)
  else if req.method = methodAcquireNexUniqueIDWithPassword then
    newRMCSuccess protocolUtility req.method req.callID
      (UniqueIDInfo.write s ⟨pid, pid ^^^ nexUniqueIDPasswordSalt⟩)
  else notImplementedResponse protocolUtility req

/-! ### Dispatch -/

/-- A connection as the handlers see it. -/
structure Client where
  sock : Sock
  pid : UInt64
  id : UInt32
  remoteAddr : Bytes

def Client.caller (c : Client) : Caller := ⟨c.pid, c.id⟩
def Client.registrant (c : Client) : Registrant := ⟨c.pid, c.id, c.remoteAddr⟩

/-- Everything that the handlers write to. -/
structure Backend where
  stores : Stores
  ranking : RankingStores
  peers : Sock → Peer

/-- What a handler finds outside. -/
structure Surroundings where
  matchmaking : Env
  ranking : RankingEnv
  probes : ProbeEnv
  now : DateTime
  private6 : Bytes → Bool

/-- What a handler gives back: its response, the notifications, and the probes, by connection id. -/
structure Output where
  response : Option RMCMessage
  pushes : List Push := []
  probes : List (UInt32 × RMCMessage) := []

/-- The state of one connection is replaced. -/
def Backend.setPeer (b : Backend) (c : Sock) (peer : Peer) : Backend :=
  { b with peers := Function.update b.peers c peer }

/-- The handler that is registered for the protocol of the request; `none` where a matchmaking handler never
returns.  An unknown protocol is refused by `dispatchRMC`. -/
def dispatch (o : Options) (env : Surroundings) (client : Client) (req : RMCMessage) (b : Backend) :
    Option (Backend × Output) :=
  match serviceOf req.protocol with
  | some service =>
    (serve o env.matchmaking env.ranking.tournaments service client.caller req b.stores).map
      (fun r => ({ b with stores := r.1 }, { response := r.2.response, pushes := r.2.pushes }))
  | none =>
    if req.protocol = protocolSecureConnection then
      let (peer, resp) := secureConnectionHandler env.private6 switchPia519Config client.registrant req
        (b.peers client.sock)
      some (b.setPeer client.sock peer, { response := some resp })
    else if req.protocol = protocolNATTraversal then
      let (peer, resp, probes) := natTraversalHandler env.now env.probes req (b.peers client.sock)
      some (b.setPeer client.sock peer, { response := some resp, probes })
    else if req.protocol = protocolRanking then
      let (tournaments, ranking, resp) := rankingHandler o.settings env.ranking client.pid req
        b.stores.tournaments b.ranking
      some ({ b with stores := { b.stores with tournaments }, ranking }, { response := some resp })
    else if req.protocol = protocolUtility then
      some (b, { response := some (utilityHandler o.settings client.pid req) })
    else some (b, { response := some (notImplementedResponse req.protocol req) })

/-! ### Responses answer their requests -/

/-- A response to `req`: a success of its protocol and method, or an error of its protocol, with its call id. -/
inductive Answers (req : RMCMessage) : RMCMessage → Prop
  | success (body : Bytes) : Answers req (newRMCSuccess req.protocol req.method req.callID body)
  | error (code : UInt32) : Answers req (newRMCError req.protocol req.callID code)

theorem answers_success {req : RMCMessage} {protocol : UInt16} (h : req.protocol = protocol) (body : Bytes) :
    Answers req (newRMCSuccess protocol req.method req.callID body) := h ▸ .success body

theorem answers_error {req : RMCMessage} {protocol : UInt16} (h : req.protocol = protocol) (code : UInt32) :
    Answers req (newRMCError protocol req.callID code) := h ▸ .error code

/-- The reply has a response, and it answers the request. -/
def Replies (req : RMCMessage) (reply : Reply) : Prop := ∃ resp, reply.response = some resp ∧ Answers req resp

namespace Replies

variable {o : Options} {env : Env} {conn : Caller} {req resp : RMCMessage} {m : Store}
  {protocol : UInt16}

theorem of_answers (h : Answers req resp) (pushes : List Push) : Replies req ⟨some resp, pushes⟩ :=
  ⟨resp, rfl, h⟩

theorem success (h : req.protocol = protocol) (body : Bytes) (pushes : List Push) :
    Replies req ⟨some (newRMCSuccess protocol req.method req.callID body), pushes⟩ :=
  of_answers (answers_success h body) pushes

theorem error (h : req.protocol = protocol) (code : UInt32) :
    Replies req ⟨some (newRMCError protocol req.callID code), []⟩ :=
  of_answers (answers_error h code) []

theorem ite {p : Prop} [Decidable p] {a b : Store × Reply} (ha : Replies req a.2) (hb : Replies req b.2) :
    Replies req (if p then a else b).2 := by
  split
  · exact ha
  · exact hb

theorem reply_ite {p : Prop} [Decidable p] {a b : Reply} (ha : Replies req a) (hb : Replies req b) :
    Replies req (if p then a else b) := by
  split
  · exact ha
  · exact hb

section Extension

variable (h : req.protocol = protocolMatchmakeExtension)

include h

theorem openOwn (src : MatchmakeSession) (m : Store) : Replies req (openOwn o env conn req src m).2 :=
  success h _ _

theorem autoMatchmakeWith (src : MatchmakeSession) : Replies req (autoMatchmakeWith o env conn req m src).2 := by
  unfold Matchmaking.autoMatchmakeWith
  dsimp only
  refine ite (openOwn h _ _) ?_
  split
  · exact openOwn h _ _
  · exact ite (success h _ _) (openOwn h _ _)

theorem autoMatchmake : Replies req (autoMatchmake o env conn req m).2 := by
  unfold Matchmaking.autoMatchmake
  exact ite (error h _) (autoMatchmakeWith h _)

theorem createSession : Replies req (createSession o env conn req m).2 := by
  unfold Matchmaking.createSession
  exact ite (error h _) (success h _ _)

theorem joinSession : Replies req (joinSession o env conn req m).2 := by
  unfold Matchmaking.joinSession joinGathering
  split
  · exact error h _
  · exact ite (success h _ _) (ite (success h _ _) (error h _))

theorem updateApplicationBuffer : Replies req (updateApplicationBuffer conn req m).2 := by
  unfold Matchmaking.updateApplicationBuffer
  dsimp only
  split
  · exact error h _
  · exact ite (success h _ _) (error h _)

theorem updateNotificationData : Replies req (updateNotificationData o env conn req m).2 := by
  unfold Matchmaking.updateNotificationData
  exact ite (error h _) (success h _ _)

theorem updateSessionPart : Replies req (updateSessionPart o req m).2 := by
  unfold Matchmaking.updateSessionPart
  exact ite (ite (success h _ _) (success h _ _)) (success h _ _)

theorem findBySingleID : Replies req (findBySingleID o env req m) := by
  unfold Matchmaking.findBySingleID
  split
  · exact error h _
  · exact success h _ _

theorem getFriendNotificationData (list : Bool) : Replies req (getFriendNotificationData o conn req m list) := by
  unfold Matchmaking.getFriendNotificationData
  exact reply_ite (error h _) (success h _ _)

theorem modifyCurrentGameAttribute {r : Store × Reply} (hr : modifyCurrentGameAttribute conn req m = some r) :
    Replies req r.2 := by
  unfold Matchmaking.modifyCurrentGameAttribute at hr
  dsimp only at hr
  split at hr
  · cases hr
    exact success h _ _
  split at hr
  · split at hr
    · cases hr
    · cases hr
      exact success h _ _
  · cases hr
    exact success h _ _

end Extension

/-- The one request that may be answered later. -/
theorem getSessionURLs (h : req.protocol = protocolMatchMaking) :
    (getSessionURLs env req m).response = none ∨ Replies req (getSessionURLs env req m) := by
  unfold Matchmaking.getSessionURLs
  dsimp only
  split
  · exact .inr (success h _ _)
  split
  · exact .inr (success h _ _)
  · exact .inr (success h _ _)
  · exact .inl rfl

theorem migrateGatheringOwnership (h : req.protocol = protocolMatchMaking) (only : Bool) :
    Replies req (migrateGatheringOwnership o env conn req m only).2 := by
  unfold Matchmaking.migrateGatheringOwnership
  dsimp only
  split
  · exact success h _ _
  · exact ite (success h _ _) (success h _ _)

theorem findBySingleID15 (h : req.protocol = protocolMatchMaking) :
    Replies req (findBySingleID15 o env req m) := by
  unfold Matchmaking.findBySingleID15
  split <;> exact success h _ _

end Replies

/-- A handler that returns, replies to the request. -/
def Responds (req : RMCMessage) (r : Option (Store × Reply)) : Prop := ∀ x, r = some x → Replies req x.2

section Handlers

variable {o : Options} {env : Env} {conn : Caller} {req : RMCMessage} {m : Store}

theorem Replies.responds {r : Store × Reply} (h : Replies req r.2) : Responds req (some r) := by
  intro x hx
  cases hx
  exact h

theorem Responds.ite_of {p : Prop} [Decidable p] {a b : Option (Store × Reply)} (ha : p → Responds req a)
    (hb : Responds req b) : Responds req (if p then a else b) := by
  split
  · rename_i hp
    exact ha hp
  · exact hb

theorem Responds.ite {p : Prop} [Decidable p] {a b : Option (Store × Reply)} (ha : Responds req a)
    (hb : Responds req b) : Responds req (if p then a else b) := .ite_of (fun _ => ha) hb

open Replies in
/-- The dispatch of the extension, branch by branch. -/
theorem responds_extensionHandler (h : req.protocol = protocolMatchmakeExtension)
    (htournaments : asksTournaments req → Answers req (env.tournaments conn req)) :
    Responds req (extensionHandler o env conn req m) := by
  have hlist (hpre : req.method = Method.ssbuPreMatch) (hids : isTournamentIDList req.body) :
      asksTournaments req := by
    simp [asksTournaments, hpre, hids]
  have hother (hmethod : req.method = Method.tournamentSearch ∨ req.method = Method.tournamentCreate ∨
      req.method = Method.tournamentDelete ∨ req.method = Method.tournamentJoin) : asksTournaments req := by
    simp [asksTournaments, hmethod]
  unfold extensionHandler
  exact
    .ite (responds (success h _ _)) <|
    .ite (responds (success h _ _)) <|
    .ite (responds (autoMatchmake h)) <|
    .ite (responds (createSession h)) <|
    .ite (responds (joinSession h)) <|
    .ite (responds (findBySingleID h)) <|
    .ite (responds (success h _ _)) <|
    .ite (responds (success h _ _)) <|
    .ite (responds (success h _ _)) <|
    .ite (.ite (responds (success h _ _)) (responds (success h _ _))) <|
    .ite (responds (success h _ _)) <|
    .ite (responds (updateNotificationData h)) <|
    .ite (responds (getFriendNotificationData h _)) <|
    .ite (responds (getFriendNotificationData h _)) <|
    .ite (responds (updateSessionPart h)) <|
    .ite (responds (updateApplicationBuffer h)) <|
    .ite (fun _ => modifyCurrentGameAttribute h) <|
    .ite (responds (success h _ _)) <|
    .ite (responds (success h _ _)) <|
    .ite (responds (success h _ _)) <|
    .ite (responds (success h _ _)) <|
    .ite_of (fun hpre => .ite_of (fun hids => responds (of_answers (htournaments (hlist hpre hids)) _))
      (responds (success h _ _))) <|
    .ite_of (fun hmethod => responds (of_answers (htournaments (hother hmethod)) _)) <|
    .ite (responds (success h _ _)) <|
    responds (error h _)

open Replies in
theorem replies_matchMakingHandler (h : req.protocol = protocolMatchMaking)
    (hmethod : req.method ≠ Method.getSessionURLs) : Replies req (matchMakingHandler o env conn req m).2 := by
  unfold matchMakingHandler
  rw [if_neg hmethod]
  exact
    .ite (success h _ _) <|
    .ite (success h _ _) <|
    .ite (success h _ _) <|
    .ite (migrateGatheringOwnership h _) <|
    .ite (migrateGatheringOwnership h _) <|
    .ite (success h _ _) <|
    .ite (findBySingleID15 h) <|
    error h _

theorem replies_matchMakingExtHandler (h : req.protocol = protocolMatchMakingExt) :
    Replies req (matchMakingExtHandler conn req m).2 := by
  unfold matchMakingExtHandler
  exact .ite (.success h _ _) (.error h _)

theorem answers_tournamentHandler (h : req.protocol = protocolMatchmakeExtension) (tenv : TournamentEnv)
    (t : TournamentStore) : Answers req (tournamentHandler tenv conn req t).2 := by
  have hack (body : Bytes) : Answers req (tournamentAck req body) := answers_success h body
  have hrefused := answers_error h resultCoreInvalidArgument
  unfold tournamentHandler
  split
  · exact hack _
  split
  · exact hack _
  split
  · unfold createTournamentHandler
    dsimp only
    split
    · split
      · exact hrefused
      · split
        · exact hrefused
        · exact hack _
    · exact hrefused
  split
  · exact hack _
  · exact hack _

/-- A request that asks for the stations of a host. -/
def AsksURLs (req : RMCMessage) : Prop :=
  req.protocol = protocolMatchMaking ∧ req.method = Method.getSessionURLs

theorem replies_serve {tenv : TournamentEnv} {service : Service} {s : Stores} {r : Stores × Reply}
    (h : serviceOf req.protocol = some service) (hr : serve o env tenv service conn req s = some r) :
    AsksURLs req ∧ r.2.response = none ∨ Replies req r.2 := by
  have hprotocol := protocol_of_service h
  unfold serve at hr
  rw [Option.map_eq_some_iff] at hr
  obtain ⟨x, hx, rfl⟩ := hr
  cases service with
  | extension =>
    refine .inr (responds_extensionHandler hprotocol (fun hasks => ?_) x hx)
    rw [if_pos ⟨rfl, hasks⟩]
    exact answers_tournamentHandler hprotocol _ _
  | matchMaking =>
    cases hx
    by_cases hmethod : req.method = Method.getSessionURLs
    · unfold matchMakingHandler
      rw [if_pos hmethod]
      exact (Replies.getSessionURLs hprotocol).imp_left (fun hnone => ⟨⟨hprotocol, hmethod⟩, hnone⟩)
    · exact .inr (replies_matchMakingHandler hprotocol hmethod)
  | matchMakingExt =>
    cases hx
    exact .inr (replies_matchMakingExtHandler hprotocol)

theorem answers_secureConnectionHandler (h : req.protocol = protocolSecureConnection)
    (private6 : Bytes → Bool) (cfg : SecureConnectionConfig) (conn : Registrant) (peer : Peer) :
    Answers req (secureConnectionHandler private6 cfg conn req peer).2 := by
  unfold secureConnectionHandler
  split
  · exact answers_success h _
  split
  · exact answers_success h _
  · exact answers_error h _

theorem answers_natTraversalHandler (h : req.protocol = protocolNATTraversal) (now : DateTime)
    (env : ProbeEnv) (peer : Peer) : Answers req (natTraversalHandler now env req peer).2.1 := by
  have hack : Answers req (natAck req) := answers_success h []
  unfold natTraversalHandler
  split
  · exact hack
  split
  · exact hack
  split
  · exact hack
  split
  · exact answers_success h _
  split
  · exact hack
  · exact answers_error h _

theorem answers_commonDataByPIDs (h : req.protocol = protocolRanking) (s : Settings) (profiles : CommonData) :
    Answers req (commonDataByPIDs s req profiles) := by
  unfold commonDataByPIDs
  dsimp only
  split
  · exact answers_success h _
  split
  split
  · exact answers_success h _
  split <;> exact answers_success h _

theorem answers_rankingHandler (h : req.protocol = protocolRanking) (s : Settings) (env : RankingEnv)
    (pid : UInt64) (t : TournamentStore) (r : RankingStores) :
    Answers req (rankingHandler s env pid req t r).2.2 := by
  unfold rankingHandler
  split
  · exact answers_success h _
  split
  · exact answers_commonDataByPIDs h s _
  split
  · exact answers_success h _
  split
  · unfold competitionRanking
    dsimp only
    split
    · exact answers_success h _
    split <;> exact answers_success h _
  split
  · exact answers_success h _
  · exact answers_error h _

theorem answers_utilityHandler (h : req.protocol = protocolUtility) (s : Settings) (pid : UInt64) :
    Answers req (utilityHandler s pid req) := by
  unfold utilityHandler
  split
  · exact answers_success h _
  split
  · exact answers_success h _
  split
  · exact answers_success h _
  · exact answers_error h _

end Handlers

/-- **Every request is answered, and every response answers its request**: for every protocol, method and body,
whatever the state.  Only the stations of a host may be sent later. -/
theorem dispatch_answers {o : Options} {env : Surroundings} {client : Client} {req : RMCMessage}
    {b : Backend} {r : Backend × Output} (h : dispatch o env client req b = some r) :
    AsksURLs req ∧ r.2.response = none ∨ ∃ resp, r.2.response = some resp ∧ Answers req resp := by
  unfold dispatch at h
  split at h
  · rename_i service hservice
    obtain ⟨r, hr, rfl⟩ := Option.map_eq_some_iff.mp h
    exact replies_serve hservice hr
  right
  split at h
  · rename_i hp
    cases h
    exact ⟨_, rfl, answers_secureConnectionHandler hp _ _ _ _⟩
  split at h
  · rename_i hp
    cases h
    exact ⟨_, rfl, answers_natTraversalHandler hp _ _ _⟩
  split at h
  · rename_i hp
    cases h
    exact ⟨_, rfl, answers_rankingHandler hp _ _ _ _ _⟩
  split at h
  · rename_i hp
    cases h
    exact ⟨_, rfl, answers_utilityHandler hp _ _⟩
  · cases h
    exact ⟨_, rfl, .error _⟩

end NextendoMatchmaking.Server
