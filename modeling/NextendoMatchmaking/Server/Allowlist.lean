import NextendoMatchmaking.Dedup.Model
import NextendoMatchmaking.Matchmaking.Tournaments
import NextendoMatchmaking.Server.Wiring

/-!
# Requests that are not on the list

Only the requests on the list of `deduplicateMatchmaking` (`server/rmc_dedup.go`) go through the table that
answers a repeated one from memory; every other request is run each time it arrives.  The list and the
dispatch of the handlers are written down separately, in two packages.

A request that is not on the list leaves the gathering store, with everything in it, as it was.  It also
leaves the tournaments alone, with one exception that is meant: the first call that looks at them fills their
store from the file (`unlisted_reads`), and a search may be that call (`search_restores`).
-/

namespace NextendoMatchmaking.Server

open NextendoMatchmaking.Dedup NextendoMatchmaking.Matchmaking

/-- Everything that the three handlers write to. -/
structure Stores where
  matchmaking : Store
  tournaments : TournamentStore

/-- A request to one of the handlers, with what both stores make of it. -/
def serve (o : Options) (env : Env) (tenv : TournamentEnv) (service : Service) (conn : Caller)
    (req : RMCMessage) (s : Stores) : Option (Stores × Reply) :=
  let (tournaments, answer) :=
    if service = .extension ∧ asksTournaments req then tournamentHandler tenv conn req s.tournaments
    else (s.tournaments, req)
  (handle o { env with tournaments := fun _ _ => answer } service conn req s.matchmaking).map
    (fun r => (⟨r.1, tournaments⟩, r.2))

/-- The tournaments are as they were, or this was the first call and the file was read. -/
def OnlyRestored (env : TournamentEnv) (t t' : TournamentStore) : Prop :=
  t' = t ∨ (t.initialised = false ∧ t' = tournamentInit env t)

variable {o : Options} {env : Env} {tenv : TournamentEnv} {service : Service} {conn : Caller}
  {req : RMCMessage} {m : Store} {t t' : TournamentStore}

/-! ### The gathering store -/

/-- The protocol of a service. -/
def protocolOf : Service → UInt16
  | .extension => protocolMatchmakeExtension
  | .matchMaking => protocolMatchMaking
  | .matchMakingExt => protocolMatchMakingExt

theorem protocol_of_service (h : serviceOf req.protocol = some service) :
    req.protocol = protocolOf service := by
  unfold serviceOf at h
  split at h
  · rename_i hp
    cases h
    exact hp
  split at h
  · rename_i hp
    cases h
    exact hp
  split at h
  · rename_i hp
    cases h
    exact hp
  · cases h

/-- The methods of the extension that are on the list. -/
def listedMethods : List UInt32 :=
  [Method.closeParticipation, Method.openParticipation, Method.createMatchmakeSessionWithParam,
    Method.joinMatchmakeSessionWithParam, Method.autoMatchmakeWithParamPostpone,
    Method.customPrivateRoomCreate, Method.updateMatchmakeSessionPart, Method.updateApplicationBuffer,
    Method.modifyCurrentGameAttribute, Method.updateNotificationData, Method.ssbuArenaCode,
    Method.tournamentCreate, Method.tournamentDelete, Method.tournamentJoin]

theorem unlisted_extension (hp : req.protocol = protocolMatchmakeExtension)
    (h : deduplicateMatchmaking req = false) : ∀ k ∈ listedMethods, req.method ≠ k := by
  unfold deduplicateMatchmaking at h
  rw [if_pos hp] at h
  rintro k hk rfl
  exact of_decide_eq_false h hk

/-- The request is answered and the store stays as it is. -/
def LeavesStore (m : Store) (r : Option (Store × Reply)) : Prop := ∃ reply, r = some (m, reply)

theorem reads_reply (reply : Reply) : LeavesStore m (some (m, reply)) := ⟨reply, rfl⟩

theorem reads_ite {p : Prop} [Decidable p] {a b : Option (Store × Reply)} (ha : LeavesStore m a)
    (hb : LeavesStore m b) : LeavesStore m (if p then a else b) := by
  split
  · exact ha
  · exact hb

/-- A branch that the request does not take. -/
theorem reads_skip {p : Prop} [Decidable p] {a b : Option (Store × Reply)} (hp : ¬ p)
    (hb : LeavesStore m b) : LeavesStore m (if p then a else b) := by
  rw [if_neg hp]
  exact hb

/-- The dispatch of the extension, method by method. -/
theorem extensionHandler_unlisted (hp : req.protocol = protocolMatchmakeExtension)
    (h : deduplicateMatchmaking req = false) : LeavesStore m (extensionHandler o env conn req m) := by
  have hne := unlisted_extension hp h
  unfold extensionHandler
  exact
    reads_skip (hne Method.closeParticipation (by decide)) <|
    reads_skip (hne Method.openParticipation (by decide)) <|
    reads_skip (hne Method.autoMatchmakeWithParamPostpone (by decide)) <|
    reads_skip (hne Method.createMatchmakeSessionWithParam (by decide)) <|
    reads_skip (hne Method.joinMatchmakeSessionWithParam (by decide)) <|
    reads_ite (reads_reply _) <|
    reads_skip (hne Method.customPrivateRoomCreate (by decide)) <|
    reads_ite (reads_reply _) <|
    reads_ite (reads_reply _) <|
    reads_ite (reads_ite (reads_reply _) (reads_reply _)) <|
    reads_ite (reads_reply _) <|
    reads_skip (hne Method.updateNotificationData (by decide)) <|
    reads_ite (reads_reply _) <|
    reads_ite (reads_reply _) <|
    reads_skip (hne Method.updateMatchmakeSessionPart (by decide)) <|
    reads_skip (hne Method.updateApplicationBuffer (by decide)) <|
    reads_skip (hne Method.modifyCurrentGameAttribute (by decide)) <|
    reads_skip (hne Method.ssbuArenaCode (by decide)) <|
    reads_ite (reads_reply _) <|
    reads_ite (reads_reply _) <|
    reads_ite (reads_reply _) <|
    reads_ite (reads_ite (reads_reply _) (reads_reply _)) <|
    reads_ite (reads_reply _) <|
    reads_ite (reads_reply _) <|
    reads_reply _

theorem matchMakingHandler_unlisted (hp : req.protocol = protocolMatchMaking)
    (h : deduplicateMatchmaking req = false) :
    (matchMakingHandler o env conn req m).1 = m := by
  have hne : ∀ k ∈ [Method.unregisterGathering, Method.updateSessionURL, Method.updateSessionHost,
      Method.updateSessionHostV1, Method.migrateGatheringOwnership, Method.migrateGatheringOwnershipV1,
      Method.updateGatheringOwnership], req.method ≠ k := by
    unfold deduplicateMatchmaking at h
    rw [hp, if_neg (by decide), if_pos rfl] at h
    rintro k hk rfl
    exact of_decide_eq_false h hk
  unfold matchMakingHandler
  dsimp only
  rw [if_neg (hne Method.unregisterGathering (by decide)),
    if_neg (hne Method.migrateGatheringOwnership (by decide)),
    if_neg (hne Method.migrateGatheringOwnershipV1 (by decide))]
  repeat' split
  all_goals rfl

theorem matchMakingExtHandler_unlisted (hp : req.protocol = protocolMatchMakingExt)
    (h : deduplicateMatchmaking req = false) : (matchMakingExtHandler conn req m).1 = m := by
  have hne : req.method ≠ Method.endParticipation := by
    unfold deduplicateMatchmaking at h
    rw [hp, if_neg (by decide), if_neg (by decide), if_pos rfl] at h
    exact of_decide_eq_false h
  unfold matchMakingExtHandler
  rw [if_neg hne]

/-- The dispatch: a request that is not on the list only reads the gathering store, and is answered. -/
theorem handle_unlisted (o : Options) (env : Env) (conn : Caller) (m : Store)
    (hservice : serviceOf req.protocol = some service) (h : deduplicateMatchmaking req = false) :
    LeavesStore m (handle o env service conn req m) := by
  cases service with
  | extension => exact extensionHandler_unlisted (protocol_of_service hservice) h
  | matchMaking =>
    have hkept : (matchMakingHandler o env conn req m).1 = m :=
      matchMakingHandler_unlisted (protocol_of_service hservice) h
    exact ⟨_, congrArg some (Prod.ext hkept rfl)⟩
  | matchMakingExt =>
    have hkept : (matchMakingExtHandler conn req m).1 = m :=
      matchMakingExtHandler_unlisted (protocol_of_service hservice) h
    exact ⟨_, congrArg some (Prod.ext hkept rfl)⟩

/-! ### The tournaments -/

theorem onlyRestored_tournamentInit (tenv : TournamentEnv) (t : TournamentStore) :
    OnlyRestored tenv t (tournamentInit tenv t) := by
  cases hinit : t.initialised with
  | true => exact .inl (tournamentInit_of_initialised tenv hinit)
  | false => exact .inr ⟨hinit, rfl⟩

/-- The loop over the ids of a request looks at the store as often as there are ids. -/
theorem onlyRestored_findTournaments (n : ℕ) (s : StreamIn) (t : TournamentStore) :
    OnlyRestored tenv t (findTournaments tenv n s t).1 := by
  induction n generalizing s t with
  | zero => exact .inl rfl
  | succ n ih =>
    unfold findTournaments
    split
    · exact .inl rfl
    · show OnlyRestored tenv t (findTournaments tenv n (StreamIn.u32 s).2 (tournamentInit tenv t)).1
      rcases ih (StreamIn.u32 s).2 (tournamentInit tenv t) with hsame | ⟨hfalse, -⟩
      · rw [hsame]
        exact onlyRestored_tournamentInit tenv t
      · rw [initialised_tournamentInit] at hfalse
        cases hfalse

theorem onlyRestored_tournamentHandler (hp : req.protocol = protocolMatchmakeExtension)
    (h : deduplicateMatchmaking req = false) (hasks : asksTournaments req = true) :
    OnlyRestored tenv t (tournamentHandler tenv conn req t).1 := by
  have hne := unlisted_extension hp h
  unfold tournamentHandler
  by_cases hids : req.method = Method.ssbuPreMatch
  · rw [if_pos hids]
    exact onlyRestored_findTournaments _ _ t
  by_cases hsearch : req.method = Method.tournamentSearch
  · rw [if_neg hids, if_pos hsearch]
    exact onlyRestored_tournamentInit tenv t
  · -- the other methods that ask for tournaments are on the list
    exfalso
    simp [asksTournaments, hids, hsearch, hne Method.tournamentCreate (by decide),
      hne Method.tournamentDelete (by decide), hne Method.tournamentJoin (by decide)] at hasks

/-- **The list covers every write.**  A request to one of the three handlers that is not on the list of
`deduplicateMatchmaking` is answered and leaves the gathering store as it was, for every body and every caller;
and the tournaments too, except that the first call that looks at them restores them from the file. -/
theorem unlisted_reads (o : Options) (env : Env) (tenv : TournamentEnv) (service : Service) (conn : Caller)
    (req : RMCMessage) (s : Stores) (hservice : serviceOf req.protocol = some service)
    (h : deduplicateMatchmaking req = false) :
    ∃ t' reply, serve o env tenv service conn req s = some (⟨s.matchmaking, t'⟩, reply) ∧
      OnlyRestored tenv s.tournaments t' := by
  unfold serve
  by_cases hasks : service = .extension ∧ asksTournaments req = true
  · rw [if_pos hasks]
    obtain ⟨rfl, hasks⟩ := hasks
    obtain ⟨reply, hreply⟩ := handle_unlisted o
      { env with tournaments := fun _ _ => (tournamentHandler tenv conn req s.tournaments).2 } conn
      s.matchmaking hservice h
    refine ⟨_, reply, congrArg (Option.map _) hreply, ?_⟩
    exact onlyRestored_tournamentHandler (protocol_of_service hservice) h hasks
  · rw [if_neg hasks]
    obtain ⟨reply, hreply⟩ := handle_unlisted o { env with tournaments := fun _ _ => req } conn
      s.matchmaking hservice h
    exact ⟨_, reply, congrArg (Option.map _) hreply, .inl rfl⟩

/-! ### A search as the first call -/

/-- A tournament in the file: its id, a name without letters, no rules, a code. -/
def storedTournament : Tournament where
  id := 1000
  owner := 7
  code := List.replicate 12 0x30
  mark := List.replicate 8 0
  blob := StreamOut.u32 1000 ++ List.replicate 0x65 0 ++ [2, 0, 0, 0] ++ [0xFF, 0, 0, 0, 0] ++ [13, 0] ++
    List.replicate 12 0x30 ++ [0]
  participants := [7]
  createdAt := 0

/-- A server with this file. -/
def storedEnv : TournamentEnv := ⟨some [some storedTournament], fun _ => 0, fun _ => 0, 0, [1000]⟩

def searchRequest : RMCMessage := newRMCRequest protocolMatchmakeExtension Method.tournamentSearch 1 []

theorem serve_search (o : Options) (env : Env) (tenv : TournamentEnv) (conn : Caller) (s : Stores) :
    ∃ reply, serve o env tenv .extension conn searchRequest s =
      some (⟨s.matchmaking, tournamentInit tenv s.tournaments⟩, reply) := ⟨_, rfl⟩

/-- **A search may be the first call.**  It is not on the list, and the store of tournaments, empty before it,
holds what the file holds after it. -/
theorem search_restores : deduplicateMatchmaking searchRequest = false ∧
    newTournamentStore.byID.lookup 1000 = none ∧
    ∃ s' reply, serve plainOptions (quietEnv 0 []) storedEnv .extension ⟨7, 1⟩ searchRequest
        ⟨newMatchmaking, newTournamentStore⟩ = some (s', reply) ∧
      s'.tournaments.byID.lookup 1000 = some storedTournament ∧ s'.tournaments.nextID = 1001 := by
  have hvalid : validStoredTournament storedTournament = true := by decide +kernel
  have hid : storedTournament.id = 1000 := rfl
  have hfilled : tournamentInit storedEnv newTournamentStore =
      restore { newTournamentStore with initialised := true } (some storedTournament) :=
    tournamentInit_first rfl rfl
  obtain ⟨reply, hreply⟩ := serve_search plainOptions (quietEnv 0 []) storedEnv ⟨7, 1⟩
    ⟨newMatchmaking, newTournamentStore⟩
  refine ⟨rfl, rfl, _, reply, hreply, ?_, ?_⟩
  · rw [hfilled, restore_valid (by decide) hvalid, hid]
    exact Finmap.lookup_insert _
  · rw [hfilled, restore_valid (by decide) hvalid, hid]
    rfl

theorem unlisted_reads_search :
    ∃ t' reply, serve plainOptions (quietEnv 0 []) storedEnv .extension ⟨7, 1⟩ searchRequest
        ⟨newMatchmaking, newTournamentStore⟩ = some (⟨newMatchmaking, t'⟩, reply) ∧
      OnlyRestored storedEnv newTournamentStore t' :=
  unlisted_reads plainOptions (quietEnv 0 []) storedEnv .extension ⟨7, 1⟩ searchRequest _ rfl rfl

end NextendoMatchmaking.Server
