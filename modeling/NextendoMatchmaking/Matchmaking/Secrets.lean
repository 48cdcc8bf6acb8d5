import NextendoMatchmaking.Matchmaking.System
import NextendoMatchmaking.Wire.Sizes

/-!
# Secrets in lookups

A session has two secrets: the key of its peer-to-peer traffic and the password of its room.  The lookups
copy a session and take secrets out of the copy before they write it.  A lookup keeps the secrets when its
answer is the same in every two stores that differ in nothing else.

`findBySingleID15` makes the copy and takes nothing out.  `lookups_keep_secrets` says that this is the only
leak of the read-only lookups, and that it concerns every gathering that the caller can name.
-/

namespace NextendoMatchmaking.Matchmaking

variable (o : Options) (env : Env) (conn : Caller) (req : RMCMessage) (m : Store)

/-! ### Stores that differ in secrets -/

/-- A session without its password. -/
def hidePassword (session : MatchmakeSession) : MatchmakeSession := { session with userPassword := [] }

/-- A gathering with its session behind `hide`. -/
def GatheringEntry.behind (hide : MatchmakeSession → MatchmakeSession) (g : GatheringEntry) :
    GatheringEntry := { g with session := hide g.session }

/-- The store with every session behind `hide`. -/
def Store.behind (hide : MatchmakeSession → MatchmakeSession) (m : Store) : Store :=
  { m with gatherings := GoMap.mapValues (GatheringEntry.behind hide) m.gatherings }

/-- The two stores differ only in what `hide` takes out of the sessions. -/
def SameBehind (hide : MatchmakeSession → MatchmakeSession) (m m' : Store) : Prop :=
  m.behind hide = m'.behind hide

theorem lookup_behind (hide : MatchmakeSession → MatchmakeSession) (gid : UInt32) :
    (m.behind hide).gatherings.lookup gid = (m.gatherings.lookup gid).map (GatheringEntry.behind hide) :=
  GoMap.lookup_mapValues _ _ _

/-- A gathering with another key. -/
def GatheringEntry.withKey (g : GatheringEntry) (key : Bytes) : GatheringEntry :=
  { g with session := { g.session with sessionKey := key } }

/-- Another key in one gathering is not seen behind `scrub`. -/
theorem sameBehind_withKey {m : Store} {gid : UInt32} {g : GatheringEntry}
    (hg : m.gatherings.lookup gid = some g) (key : Bytes) :
    SameBehind scrub m (m.put gid (g.withKey key)) := by
  have hgatherings : (m.behind scrub).gatherings = ((m.put gid (g.withKey key)).behind scrub).gatherings := by
    apply Finmap.ext_lookup
    intro gid'
    rw [lookup_behind, lookup_behind]
    show _ = ((m.gatherings.insert gid (g.withKey key)).lookup gid').map _
    rw [GoMap.lookup_insert_eq]
    split
    · rename_i heq
      rw [heq, hg]
      rfl
    · rfl
  exact congrArg (fun gs => ({ m with gatherings := gs } : Store)) hgatherings

/-! ### The lookups that hide -/

theorem findBySingleID_behind : findBySingleID o env req (m.behind scrub) = findBySingleID o env req m := by
  unfold findBySingleID
  rw [lookup_behind]
  cases m.gatherings.lookup (readGID req) with
  | none => rfl
  | some g => rfl

theorem findByGidList_behind : findByGidList o env req (m.behind scrub) = findByGidList o env req m := by
  have hscrub : ∀ gid, ((m.behind scrub).gatherings.lookup gid).map (fun g => scrub g.session) =
      (m.gatherings.lookup gid).map (fun g => scrub g.session) := by
    intro gid
    rw [lookup_behind, Option.map_map]
    rfl
  unfold findByGidList
  simp only [hscrub]

/-- The code that a search asks for. -/
def wantedCode : Bytes :=
  if req.body = [] then []
  else
    let (criteria, err) := StreamIn.run (MatchmakeSessionSearchCriteria.read o.settings) req.body
    if err then [] else criteria.codeword

theorem browseNoHolder_eq : browseNoHolder o env req m =
    success req protocolMatchmakeExtension (sessionList o env (env.order.filterMap (fun gid =>
      (m.gatherings.lookup gid).bind (browseResult (wantedCode o req))))) := rfl

/-- A search shows the same behind `hide` when every result does. -/
theorem browseNoHolder_behind {hide : MatchmakeSession → MatchmakeSession}
    (h : ∀ g, browseResult (wantedCode o req) (g.behind hide) = browseResult (wantedCode o req) g) :
    browseNoHolder o env req (m.behind hide) = browseNoHolder o env req m := by
  have hresult : ∀ gid, ((m.behind hide).gatherings.lookup gid).bind (browseResult (wantedCode o req)) =
      (m.gatherings.lookup gid).bind (browseResult (wantedCode o req)) := by
    intro gid
    rw [lookup_behind]
    cases m.gatherings.lookup gid with
    | none => rfl
    | some g => exact h g
  rw [browseNoHolder_eq, browseNoHolder_eq]
  simp only [hresult]

theorem browseResult_scrub {code : Bytes} (hcode : code = []) (g : GatheringEntry) :
    browseResult code (g.behind scrub) = browseResult code g := by
  subst hcode
  rfl

theorem browseResult_hidePassword (code : Bytes) (g : GatheringEntry) :
    browseResult code (g.behind hidePassword) = browseResult code g := rfl

/-- The search looks at the participants and the starting times, which are not hidden. -/
theorem latestWith_behind (pid : UInt64) (best : Option GatheringEntry) (gid : UInt32) :
    latestWith (m.behind hidePassword) pid (best.map (GatheringEntry.behind hidePassword)) gid =
      (latestWith m pid best gid).map (GatheringEntry.behind hidePassword) := by
  unfold latestWith
  rw [lookup_behind]
  cases m.gatherings.lookup gid with
  | none => rfl
  | some g =>
    show (if containsPID g.participants pid then _ else _) = Option.map _ (if _ then _ else _)
    split
    · cases best with
      | none => rfl
      | some b =>
        show (if b.session.startedTime < g.session.startedTime then _ else _) =
          Option.map _ (if _ then _ else _)
        split <;> rfl
    · rfl

theorem sessionOfParticipant_behind (pid : UInt64) (order : List UInt32) :
    sessionOfParticipant (m.behind hidePassword) pid order =
      (sessionOfParticipant m pid order).map (GatheringEntry.behind hidePassword) := by
  have hgen : ∀ best : Option GatheringEntry,
      order.foldl (latestWith (m.behind hidePassword) pid) (best.map (GatheringEntry.behind hidePassword)) =
        (order.foldl (latestWith m pid) best).map (GatheringEntry.behind hidePassword) := by
    induction order with
    | nil =>
      intro best
      rfl
    | cons gid order ih =>
      intro best
      rw [List.foldl_cons, List.foldl_cons, ← ih, latestWith_behind]
  exact hgen none

theorem findByParticipant_behind :
    findByParticipant o env req (m.behind hidePassword) = findByParticipant o env req m := by
  have hresult : ∀ pid i, (sessionOfParticipant (m.behind hidePassword) pid (env.orders i)).map (fun g =>
      (pid, ({ g.session with userPassword := [] } : MatchmakeSession))) =
      (sessionOfParticipant m pid (env.orders i)).map (fun g =>
        (pid, ({ g.session with userPassword := [] } : MatchmakeSession))) := by
    intro pid i
    rw [sessionOfParticipant_behind, Option.map_map]
    rfl
  unfold findByParticipant
  simp only [hresult]

/-! ### The lookup that does not -/

/-- Every byte of the key is in the body. -/
theorem length_sessionBody_withKey (g : GatheringEntry) (key : Bytes) :
    (sessionBody o env (g.withKey key).session).length + g.session.sessionKey.length =
      (sessionBody o env g.session).length + key.length := by
  have hown : ((g.withKey key).session.saveOwn o.settings (env.paramOrder 0)).length +
      g.session.sessionKey.length =
      (g.session.saveOwn o.settings (env.paramOrder 0)).length + key.length := by
    unfold MatchmakeSession.saveOwn
    simp only [List.length_append, length_buffer]
    show _ + (key.length + 4) + _ + _ + _ + _ + _ + _ + _ + _ + _ = _
    simp only [GatheringEntry.withKey]
    omega
  have hlevel : ∀ body body' : Bytes, body.length + g.session.sessionKey.length = body'.length + key.length →
      (writeLevel o.settings body).length + g.session.sessionKey.length =
        (writeLevel o.settings body').length + key.length := by
    intro body body' h
    unfold writeLevel
    split
    · simp only [List.length_append, length_buffer, length_u8]
      omega
    · exact h
  have hall := hlevel _ _ hown
  unfold sessionBody MatchmakeSession.write
  rw [List.length_append, List.length_append]
  show (writeLevel o.settings (g.session.toGathering.save o.settings)).length + _ + _ = _
  omega

/-- The answer for a gathering that exists changes with its key. -/
theorem findBySingleID15_leaks {g : GatheringEntry} (hg : m.gatherings.lookup (readGID req) = some g) :
    findBySingleID15 o env req (m.put (readGID req) (g.withKey (g.session.sessionKey ++ [0]))) ≠
      findBySingleID15 o env req m := by
  have hother : (m.put (readGID req) (g.withKey (g.session.sessionKey ++ [0]))).gatherings.lookup
      (readGID req) = some (g.withKey (g.session.sessionKey ++ [0])) := Finmap.lookup_insert _
  unfold findBySingleID15
  rw [hg, hother]
  intro heq
  have hbody := congrArg (fun r : Reply => (r.response.map RMCMessage.body).map List.length) heq
  have hlength := length_sessionBody_withKey o env g (g.session.sessionKey ++ [0])
  simp only [success, newRMCSuccess, Option.map_some, Option.some.injEq, List.length_append] at hbody
  rw [List.length_append, List.length_singleton] at hlength
  omega

/-! ### All lookups -/

/-- What a request is answered. -/
def replyTo (service : Service) : Option Reply := (handle o env service conn req m).map Prod.snd

/-- The lookups that show neither secret. -/
inductive OpenLookup : Service → RMCMessage → Prop
  | bySingleID {req : RMCMessage} : req.method = Method.findMatchmakeSessionBySingleID →
      OpenLookup .extension req
  | byGidList {req : RMCMessage} : req.method = Method.findByGidList → OpenLookup .extension req
  | browse {req : RMCMessage} : req.method = Method.browseNoHolder → wantedCode o req = [] →
      OpenLookup .extension req
  | bySingleID15 {req : RMCMessage} : req.method = Method.findBySingleID15 → OpenLookup .matchMaking req

/-- The lookups whose caller may have the key. -/
inductive KeyedLookup : Service → RMCMessage → Prop
  | byParticipant {req : RMCMessage} : req.method = Method.findByParticipant → KeyedLookup .extension req
  | browse {req : RMCMessage} : req.method = Method.browseNoHolder → wantedCode o req ≠ [] →
      KeyedLookup .extension req

/-- A request to `findBySingleID15` that names a gathering. -/
structure NamesLive15 (service : Service) : Prop where
  service : service = .matchMaking
  live : (m.gatherings.lookup (readGID req)).isSome

section Dispatch

variable {o env conn req m}

theorem replyTo_bySingleID (h : req.method = Method.findMatchmakeSessionBySingleID) :
    replyTo o env conn req m .extension = some (findBySingleID o env req m) := by
  simp only [replyTo, handle, extensionHandler, h]
  rfl

theorem replyTo_byGidList (h : req.method = Method.findByGidList) :
    replyTo o env conn req m .extension = some (findByGidList o env req m) := by
  simp only [replyTo, handle, extensionHandler, h]
  rfl

theorem replyTo_browse (h : req.method = Method.browseNoHolder) :
    replyTo o env conn req m .extension = some (browseNoHolder o env req m) := by
  simp only [replyTo, handle, extensionHandler, h]
  rfl

theorem replyTo_bySingleID15 (h : req.method = Method.findBySingleID15) :
    replyTo o env conn req m .matchMaking = some (findBySingleID15 o env req m) := by
  simp only [replyTo, handle, matchMakingHandler, h]
  rfl

theorem replyTo_byParticipant (h : req.method = Method.findByParticipant) :
    replyTo o env conn req m .extension =
      some (if o.findByParticipantEnabled then findByParticipant o env req m
        else emptyList req protocolMatchmakeExtension) := by
  have hhandle : handle o env .extension conn req m =
      if o.findByParticipantEnabled then some (m, findByParticipant o env req m)
      else some (m, emptyList req protocolMatchmakeExtension) := by
    simp only [handle, extensionHandler, h]
    rfl
  rw [replyTo, hhandle]
  split <;> rfl

/-- What is the same behind `hide` is the same in stores that differ only there. -/
theorem replyTo_of_behind {hide : MatchmakeSession → MatchmakeSession} {service : Service}
    (h : ∀ m, replyTo o env conn req (m.behind hide) service = replyTo o env conn req m service)
    {m m' : Store} (hsame : SameBehind hide m m') :
    replyTo o env conn req m' service = replyTo o env conn req m service := by
  rw [← h m', ← h m, hsame]

end Dispatch

/-- **Secrets in lookups.**  The answer to a lookup is the same in every store that differs only in keys and
passwords, unless the lookup is `findBySingleID15` of a gathering that exists; and for a lookup whose caller
may have the key it is the same in every store that differs only in passwords. -/
theorem lookups_keep_secrets (o : Options) (env : Env) (conn : Caller) (m : Store) (service : Service)
    (req : RMCMessage) :
    (OpenLookup o service req →
      ((∀ m', SameBehind scrub m m' →
          replyTo o env conn req m' service = replyTo o env conn req m service) ↔
        ¬ NamesLive15 req m service)) ∧
    (KeyedLookup o service req → ∀ m', SameBehind hidePassword m m' →
      replyTo o env conn req m' service = replyTo o env conn req m service) := by
  constructor
  · intro hlookup
    cases hlookup with
    | bySingleID hmethod =>
      refine ⟨fun _ h => (nomatch h.service), fun _ m' hsame => replyTo_of_behind (fun m => ?_) hsame⟩
      rw [replyTo_bySingleID hmethod, replyTo_bySingleID hmethod, findBySingleID_behind]
    | byGidList hmethod =>
      refine ⟨fun _ h => (nomatch h.service), fun _ m' hsame => replyTo_of_behind (fun m => ?_) hsame⟩
      rw [replyTo_byGidList hmethod, replyTo_byGidList hmethod, findByGidList_behind]
    | browse hmethod hcode =>
      refine ⟨fun _ h => (nomatch h.service), fun _ m' hsame => replyTo_of_behind (fun m => ?_) hsame⟩
      rw [replyTo_browse hmethod, replyTo_browse hmethod,
        browseNoHolder_behind o env req m (browseResult_scrub hcode)]
    | bySingleID15 hmethod =>
      simp only [replyTo_bySingleID15 hmethod, Option.some.injEq]
      constructor
      · intro hsame hlive
        obtain ⟨g, hg⟩ := Option.isSome_iff_exists.mp hlive.live
        exact findBySingleID15_leaks o env req m hg (hsame _ (sameBehind_withKey hg _))
      · intro hdead m' hsame
        -- no gathering is named, in the one store or in the other
        have hnone : m.gatherings.lookup (readGID req) = none := by
          cases hg : m.gatherings.lookup (readGID req) with
          | none => rfl
          | some g => exact absurd ⟨rfl, by rw [hg]; rfl⟩ hdead
        have hnone' : m'.gatherings.lookup (readGID req) = none := by
          have hlookup := lookup_behind m scrub (readGID req)
          rw [hsame, lookup_behind, hnone] at hlookup
          exact Option.map_eq_none_iff.mp hlookup
        unfold findBySingleID15
        rw [hnone, hnone']
  · intro hlookup m' hsame
    cases hlookup with
    | byParticipant hmethod =>
      refine replyTo_of_behind (fun m => ?_) hsame
      rw [replyTo_byParticipant hmethod, replyTo_byParticipant hmethod, findByParticipant_behind]
    | browse hmethod _ =>
      refine replyTo_of_behind (fun m => ?_) hsame
      rw [replyTo_browse hmethod, replyTo_browse hmethod,
        browseNoHolder_behind o env req m (browseResult_hidePassword _)]

/-- One gathering, created by the PID 7. -/
def oneRoom : Store := (step plainOptions newMatchmaking (createEvent 7 8 0 [])).getD newMatchmaking

/-- A lookup of the gathering 1. -/
def lookupRequest (proto : UInt16) (method : UInt32) : RMCMessage :=
  newRMCRequest proto method 1 (StreamOut.u32 1)

/-- The lookup by id does not tell the PID 9 that the key has changed. -/
theorem lookups_keep_secrets_bySingleID : ∃ g, oneRoom.gatherings.lookup 1 = some g ∧
    replyTo plainOptions (quietEnv 0 [1]) ⟨9, 2⟩
        (lookupRequest protocolMatchmakeExtension Method.findMatchmakeSessionBySingleID)
        (oneRoom.put 1 (g.withKey [1])) .extension =
      replyTo plainOptions (quietEnv 0 [1]) ⟨9, 2⟩
        (lookupRequest protocolMatchmakeExtension Method.findMatchmakeSessionBySingleID) oneRoom
        .extension := by
  obtain ⟨g, hg⟩ : ∃ g, oneRoom.gatherings.lookup 1 = some g :=
    Option.isSome_iff_exists.mp (by decide +kernel)
  exact ⟨g, hg, ((lookups_keep_secrets plainOptions (quietEnv 0 [1]) ⟨9, 2⟩ oneRoom .extension _).1
    (.bySingleID rfl)).mpr (fun h => nomatch h.service) _ (sameBehind_withKey hg [1])⟩

/-- The PID 9, which is not in the room, gets its key from `findBySingleID15`. -/
theorem key_leaked : ∃ m', SameBehind scrub oneRoom m' ∧
    replyTo plainOptions (quietEnv 0 [1]) ⟨9, 2⟩
        (lookupRequest protocolMatchMaking Method.findBySingleID15) m' .matchMaking ≠
      replyTo plainOptions (quietEnv 0 [1]) ⟨9, 2⟩
        (lookupRequest protocolMatchMaking Method.findBySingleID15) oneRoom .matchMaking := by
  obtain ⟨g, hg⟩ : ∃ g, oneRoom.gatherings.lookup
      (readGID (lookupRequest protocolMatchMaking Method.findBySingleID15)) = some g :=
    Option.isSome_iff_exists.mp (by decide +kernel)
  refine ⟨_, sameBehind_withKey hg (g.session.sessionKey ++ [0]), ?_⟩
  rw [replyTo_bySingleID15 rfl, replyTo_bySingleID15 rfl]
  exact fun heq => findBySingleID15_leaks plainOptions _ _ _ hg (Option.some.inj heq)

end NextendoMatchmaking.Matchmaking
