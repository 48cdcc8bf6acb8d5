import NextendoMatchmaking.Matchmaking.Store

/-!
# The matchmaking handlers

`ExtensionHandler`, `MatchMakingHandler` and `MatchMakingExtHandler` of `matchmaking_handlers.go` with every
method they answer, `findByParticipant` and `applySessionPart` of `matchmaking_acnh.go`, and the
notification data of `matchmaking_notifdata.go`.

A handler is a function of the store and of what it reads from outside (`Env`): clock readings, the order
in which the runtime iterates over maps, random bytes, the environment variables, and the other
connections of the endpoint.  It gives the new store, the notifications it pushes and the response, which
is sent after them.  Handlers that work on other stores than this one (tournaments, the station URLs of a
host) answer through `Env`.
-/

namespace NextendoMatchmaking.Matchmaking

/-! ### What a handler reads and gives -/

/-- The station URLs of a host, as `getSessionURLs` finds them. -/
inductive HostURLs
  /-- No connection has this id. -/
  | noHost
  /-- The URLs to answer with, rendered. -/
  | urls (list : List Bytes)
  /-- The host has not reported its RVCID: the answer is sent later, by another goroutine. -/
  | later

structure Env where
  creation : CreationEnv
  /-- The reading of `m.now()` at the selection of a lobby, at the reservation and at the commit. -/
  selectNow : Int
  reserveNow : Int
  commitNow : Int
  /-- The order of the iteration over the gatherings; `orders` where a handler iterates repeatedly. -/
  order : List UInt32
  orders : ℕ → List UInt32
  /-- The order of the iteration over the parameters of the `i`-th session of a response. -/
  paramOrder : ℕ → List Bytes
  /-- `NATBehaviour` of the caller, and of the newest connection of a PID if there is one. -/
  natBehaviour : UInt32 × UInt32
  natOf : UInt64 → Option (UInt32 × UInt32)
  /-- A PID has a connection when the notifications are pushed. -/
  online : UInt64 → Bool
  /-- `NEX_SOLO_PIDS`. -/
  isSoloPID : UInt64 → Bool
  hostURLs : UInt32 → HostURLs
  tournaments : Caller → RMCMessage → RMCMessage

inductive Target
  | pid (p : UInt64)
  | caller
  deriving DecidableEq

structure Push where
  target : Target
  event : NotificationEvent
  deriving DecidableEq

structure Reply where
  response : Option RMCMessage
  pushes : List Push := []
  deriving DecidableEq

variable (o : Options) (env : Env) (conn : Caller) (req : RMCMessage) (m : Store)

/-- An empty or a filled success for this request. -/
def success (proto : UInt16) (body : Bytes) : Reply :=
  ⟨some (newRMCSuccess proto req.method req.callID body), []⟩

def failure (code : UInt32) : Reply :=
  ⟨some (newRMCError protocolMatchmakeExtension req.callID code), []⟩

/-- `notImplemented`. -/
def notImplemented (proto : UInt16) : Reply :=
  ⟨some (newRMCError proto req.callID resultCoreNotImplemented), []⟩

def boolResponse (proto : UInt16) (v : Bool) : Reply := success req proto (StreamOut.bool v)

def emptyList (proto : UInt16) : Reply := success req proto (StreamOut.u32 0)

/-- The gathering id with which many bodies begin. -/
def readGID : UInt32 := (StreamIn.run StreamIn.u32 req.body).1

/-! ### Notifications of participation -/

def participateEvent (gid : UInt32) (participant : UInt64) (count : ℕ) : NotificationEvent where
  pidSource := conn.pid
  type := notificationParticipate
  param1 := gid.toUInt64
  param2 := participant
  param3 := UInt64.ofNat count

/-- `notifyParticipation`: the caller is announced to every participant that is online, itself included,
and then every other participant is announced to the caller. -/
def notifyParticipation (participants : List UInt64) (gid : UInt32) : List Push :=
  (participants.filter env.online).map (fun pid =>
      ⟨.pid pid, participateEvent conn gid conn.pid participants.length⟩) ++
    (participants.filter (· != conn.pid)).map (fun pid =>
      ⟨.caller, participateEvent conn gid pid participants.length⟩)

/-! ### NAT classes -/

inductive NATClass
  | unknown
  | opened
  | moderate
  | strict
  deriving DecidableEq

def classifyNAT (natMap natFilter : UInt32) : NATClass :=
  if natMap = 0 ∧ natFilter = 0 then .unknown
  else if natMap ≤ 1 ∧ natFilter ≤ 1 then .opened
  else if natMap ≤ 1 then .moderate
  else .strict

def natCompatible (a b : NATClass) : Bool :=
  if a = .unknown ∨ b = .unknown then true
  else if a = .strict ∧ (b = .strict ∨ b = .moderate) then false
  else if b = .strict ∧ (a = .strict ∨ a = .moderate) then false
  else true

/-- `pidNATClass`. -/
def pidNATClass (pid : UInt64) : NATClass :=
  match env.natOf pid with
  | none => .unknown
  | some (natMap, natFilter) => classifyNAT natMap natFilter

/-- `gatheringNATCompatible`. -/
def gatheringNATCompatible (joiner : NATClass) (members : List UInt64) (joinerPID : UInt64) : Bool :=
  members.all (fun pid => pid == joinerPID || natCompatible joiner (pidNATClass env pid))

/-! ### Creating and joining -/

/-- The part of the candidate test of `autoMatchmake` that comes before the seat count. -/
def admissible (src : MatchmakeSession) (g : GatheringEntry) : Bool :=
  g.session.gameMode == src.gameMode && g.session.openParticipation && !g.session.userPasswordEnabled

/-- The rest of the candidate test, given the number of occupied seats: a free seat, and a member set that
the caller can reach. -/
def qualifies (g : GatheringEntry) (seats : ℕ) : Bool :=
  UInt16.ofNat seats < g.session.maxParticipants &&
    gatheringNATCompatible env (classifyNAT env.natBehaviour.1 env.natBehaviour.2) g.participants conn.pid

/-- The search loop of `autoMatchmake`.  Counting the seats of a candidate expires its reservations, also
when the candidate is then passed over. -/
def selectGathering (src : MatchmakeSession) :
    List UInt32 → GoMap UInt32 GatheringEntry → Option UInt32 × GoMap UInt32 GatheringEntry
  | [], gs => (none, gs)
  | gid :: rest, gs =>
    match gs.lookup gid with
    | none => selectGathering src rest gs
    | some cand =>
      if admissible src cand then
        let counted := occupiedSeats cand env.selectNow
        let gs' := gs.insert gid counted.2
        if qualifies env conn cand counted.1 then (some gid, gs') else selectGathering src rest gs'
      else
        selectGathering src rest gs

/-- A session in a response. -/
def sessionBody (session : MatchmakeSession) : Bytes := session.write o.settings (env.paramOrder 0)

/-- The end of `autoMatchmake`: the gathering `gid` with its count refreshed, the answer with its session,
and the notifications. -/
def announce (gid : UInt32) (g : GatheringEntry) (m : Store) : Store × Reply :=
  let g := refreshNumParticipants g
  (m.put gid g,
    ⟨some (newRMCSuccess protocolMatchmakeExtension req.method req.callID (sessionBody o env g.session)),
      notifyParticipation env conn g.participants g.session.id⟩)

/-- The new gathering of `autoMatchmake`; a solo player needs no second participant. -/
def ownGathering (gid : UInt32) (src : MatchmakeSession) : GatheringEntry :=
  let g := newGathering env.creation conn gid src
  if env.isSoloPID conn.pid then { g with session := { g.session with minParticipants := 1 } } else g

/-- `autoMatchmake` when it opens a gathering of its own. -/
def openOwn (src : MatchmakeSession) (m : Store) : Store × Reply :=
  let (gid, m') := createGathering env.creation conn src m
  announce o env conn req gid (ownGathering env conn gid src) m'

/-- `autoMatchmake` after decoding. -/
def autoMatchmakeWith (src : MatchmakeSession) : Store × Reply :=
  if env.isSoloPID conn.pid then
    openOwn o env conn req src m
  else
    let (selected, gs) := selectGathering env conn src env.order m.gatherings
    let m := { m with gatherings := gs }
    match selected.bind (fun gid => (gs.lookup gid).map (fun g => (gid, g))) with
    | none => openOwn o env conn req src m
    | some (gid, g) =>
      let (reserved, g) := reserveJoin m.reservationTTL env.reserveNow g conn.pid
      let m := m.put gid g
      if reserved then
        announce o env conn req gid (commitReservedJoin env.commitNow g conn.pid).2 m
      else
        openOwn o env conn req src m

/-- `autoMatchmake`. -/
def autoMatchmake : Store × Reply :=
  let (src, err) := StreamIn.run (readAutoMatchmakeParam o.settings) req.body
  if err then (m, failure req resultCoreInvalidArgument)
  else autoMatchmakeWith o env conn req m src

/-- `createSession`. -/
def createSession : Store × Reply :=
  let (src, err) := StreamIn.run (readAutoMatchmakeParam o.settings) req.body
  if err then
    (m, failure req resultCoreInvalidArgument)
  else
    let (gid, m') := createGathering env.creation conn src m
    let g := newGathering env.creation conn gid src
    (m', ⟨some (newRMCSuccess protocolMatchmakeExtension req.method req.callID
        (sessionBody o env g.session)), notifyParticipation env conn g.participants gid⟩)

/-- The gathering id in the body of a join. -/
def readJoinGID : UInt32 :=
  (StreamIn.run (do
    let _ ← StreamIn.u8
    StreamIn.substream StreamIn.u32) req.body).1

/-- The end of `joinSession`. -/
def answerJoin (gid : UInt32) (existing : ℕ) (joined : Bool) (g : GatheringEntry) (m : Store) :
    Store × Reply :=
  let g := refreshNumParticipants g
  let result :=
    if o.joinRespExistingCount && joined then
      { g.session with numParticipants := UInt32.ofNat existing }
    else
      g.session
  (m.put gid g,
    ⟨some (newRMCSuccess protocolMatchmakeExtension req.method req.callID (sessionBody o env result)),
      if joined then notifyParticipation env conn g.participants gid else []⟩)

/-- `joinSession` of the gathering `gid`. -/
def joinGathering (gid : UInt32) : Store × Reply :=
  match m.gatherings.lookup gid with
  | none => (m, failure req resultRendezVousSessionVoid)
  | some g =>
    let existing := g.participants.length
    if containsPID g.participants conn.pid then
      answerJoin o env conn req gid existing false g m
    else
      let (reserved, g) := reserveJoin m.reservationTTL env.reserveNow g conn.pid
      if reserved then
        let (joined, g) := commitReservedJoin env.commitNow g conn.pid
        answerJoin o env conn req gid existing joined g m
      else
        (m.put gid g, failure req resultRendezVousSessionFull)

/-- `joinSession`. -/
def joinSession : Store × Reply := joinGathering o env conn req m (readJoinGID req)

/-! ### Lookups -/

/-- A session as the lookups by id show it: without its key and its password. -/
def scrub (session : MatchmakeSession) : MatchmakeSession :=
  { session with sessionKey := [], userPassword := [] }

/-- Sessions in a response, behind their number. -/
def sessionList (sessions : List MatchmakeSession) : Bytes :=
  StreamOut.u32 (UInt32.ofNat sessions.length) ++
    sessions.zipIdx.flatMap (fun (session, i) => session.write o.settings (env.paramOrder i))

/-- `findBySingleID`. -/
def findBySingleID : Reply :=
  match m.gatherings.lookup (readGID req) with
  | none => failure req resultRendezVousSessionVoid
  | some g => success req protocolMatchmakeExtension (sessionBody o env (scrub g.session))

/-- `findByGidList`. -/
def findByGidList : Reply :=
  let gids := (StreamIn.run (StreamIn.list StreamIn.u32) req.body).1
  let sessions := gids.filterMap (fun gid => (m.gatherings.lookup gid).map (fun g => scrub g.session))
  success req protocolMatchmakeExtension (sessionList o env sessions)

/-- What the public search shows of a gathering.  With a code, the code admits and the key is kept. -/
def browseResult (wantCode : Bytes) (g : GatheringEntry) : Option MatchmakeSession :=
  if !g.session.openParticipation then none
  else if wantCode ≠ [] then
    if g.session.codeword ≠ wantCode ∧ g.code ≠ wantCode then none
    else some { g.session with userPassword := [] }
  else if g.session.userPasswordEnabled then none
  else some (scrub g.session)

/-- `browseNoHolder`. -/
def browseNoHolder : Reply :=
  let wantCode :=
    if req.body = [] then []
    else
      let (criteria, err) := StreamIn.run (MatchmakeSessionSearchCriteria.read o.settings) req.body
      if err then [] else criteria.codeword
  let sessions := env.order.filterMap (fun gid =>
    (m.gatherings.lookup gid).bind (browseResult wantCode))
  success req protocolMatchmakeExtension (sessionList o env sessions)

/-- `findBySingleID15`. -/
def findBySingleID15 : Reply :=
  match m.gatherings.lookup (readGID req) with
  | none => boolResponse req protocolMatchMaking false
  | some g => success req protocolMatchMaking (StreamOut.bool true ++ sessionBody o env g.session)

/-- The gathering that an iteration in the order `order` meets first with `pid` in it. -/
def firstWith (pid : UInt64) (order : List UInt32) : Option (UInt32 × GatheringEntry) :=
  order.findSome? (fun gid =>
    match m.gatherings.lookup gid with
    | none => none
    | some g => if containsPID g.participants pid then some (gid, g) else none)

/-- `playingSession`. -/
def playingSession : Reply :=
  let ((pids, includeSelf), _) := StreamIn.run (do
    let pids ← StreamIn.list (StreamIn.pid o.settings)
    let includeSelf ← StreamIn.bool
    return (pids, includeSelf)) req.body
  let sessions := pids.zipIdx.filterMap (fun (pid, i) =>
    if pid = conn.pid ∧ !includeSelf then none
    else (firstWith m pid (env.orders i)).map (fun (gid, g) =>
      (⟨pid, gid, g.session.gameMode, g.session.attribs.headD 0⟩ : SimplePlayingSession)))
  success req protocolMatchmakeExtension
    (StreamOut.list (SimplePlayingSession.write o.settings) sessions)

/-- One round of the loop of `sessionOfParticipant`, with the gathering that is the latest so far. -/
def latestWith (pid : UInt64) (best : Option GatheringEntry) (gid : UInt32) : Option GatheringEntry :=
  match m.gatherings.lookup gid with
  | none => best
  | some g =>
    if containsPID g.participants pid then
      match best with
      | none => some g
      | some b => if b.session.startedTime < g.session.startedTime then some g else some b
    else
      best

/-- `sessionOfParticipant`: the gathering of `pid` that was started last, the first met on a tie. -/
def sessionOfParticipant (pid : UInt64) (order : List UInt32) : Option GatheringEntry :=
  order.foldl (latestWith m pid) none

/-- `findByParticipant`. -/
def findByParticipant : Reply :=
  let ((pids, _), _) := StreamIn.run (readFindByParticipantParam o.settings) req.body
  let results := pids.zipIdx.filterMap (fun (pid, i) =>
    (sessionOfParticipant m pid (env.orders i)).map (fun g =>
      (pid, ({ g.session with userPassword := [] } : MatchmakeSession))))
  success req protocolMatchmakeExtension (StreamOut.u32 (UInt32.ofNat results.length) ++
    results.zipIdx.flatMap (fun ((pid, session), i) =>
      writeFindByParticipantResult o.settings (env.paramOrder i) pid session))

/-- `resolveCode`: the code may stand behind a struct header. -/
def resolveCode : Reply :=
  let code := (StreamIn.run StreamIn.string req.body).1
  let code :=
    if code.length ≠ 5 ∧ 5 < req.body.length then
      (StreamIn.run StreamIn.string (req.body.drop 5)).1
    else
      code
  success req protocolMatchmakeExtension (StreamOut.u32 ((m.byCode.lookup code).getD 0))

/-- `getSessionURLs`; no response now when the host has still to report. -/
def getSessionURLs : Reply :=
  let answer := fun (urls : List Bytes) =>
    success req protocolMatchMaking (StreamOut.list StreamOut.string urls)
  match m.gatherings.lookup (readGID req) with
  | none => answer []
  | some g =>
    match env.hostURLs g.hostConnID with
    | .noHost => answer []
    | .urls list => answer list
    | .later => ⟨none, []⟩

/-! ### Changes to one gathering -/

/-- `setParticipation`. -/
def setParticipation (opening : Bool) : Store × Reply :=
  let gid := readGID req
  let m :=
    match m.gatherings.lookup gid with
    | none => m
    | some g => m.put gid { g with session := { g.session with openParticipation := opening } }
  (m, success req protocolMatchmakeExtension [])

/-- `privateRoomCreate`. -/
def privateRoomCreate : Store × Reply :=
  let (code, m) := makeCode (readGID req) m
  (m, success req protocolMatchmakeExtension
    (StreamOut.u8 0 ++ StreamOut.buffer (StreamOut.string code ++ StreamOut.u64 0)))

/-- `unregister`, with the answer of its method: only the owner removes a gathering. -/
def unregister : Store × Reply :=
  let gid := readGID req
  let m :=
    match m.gatherings.lookup gid with
    | none => m
    | some g => if g.session.ownerPID = conn.pid then m.remove gid else m
  (m, boolResponse req protocolMatchMaking true)

/-- `updateApplicationBuffer`: the first participant may write. -/
def updateApplicationBuffer : Store × Reply :=
  let ((gid, buf), _) := StreamIn.run (do
    let gid ← StreamIn.u32
    let buf ← StreamIn.buffer
    return (gid, buf)) req.body
  match m.gatherings.lookup gid with
  | none => (m, failure req resultRendezVousSessionVoid)
  | some g =>
    if g.participants.headD 0 = conn.pid then
      (m.put gid { g with session := { g.session with applicationData := buf } },
        success req protocolMatchmakeExtension [])
    else
      (m, failure req resultCoreAccessDenied)

/-- The padding loop of `modifyCurrentGameAttribute`, for at most `fuel` rounds. -/
def padAttribs (index : UInt32) : ℕ → List UInt32 → Option (List UInt32)
  | 0, _ => none
  | fuel + 1, attribs =>
    if UInt32.ofNat attribs.length ≤ index then padAttribs index fuel (attribs ++ [0]) else some attribs

/-- `modifyCurrentGameAttribute`.  A loop that has not ended after `2 ^ 32` rounds never ends, since the
length compared is a 32-bit number; then there is no answer. -/
def modifyCurrentGameAttribute : Option (Store × Reply) :=
  let ((gid, attribIndex, newValue), _) := StreamIn.run (do
    let gid ← StreamIn.u32
    let attribIndex ← StreamIn.u32
    let newValue ← StreamIn.u32
    return (gid, attribIndex, newValue)) req.body
  let ack := success req protocolMatchmakeExtension []
  match m.gatherings.lookup gid with
  | none => some (m, ack)
  | some g =>
    if g.participants.head? = some conn.pid then
      match padAttribs attribIndex (2 ^ 32) g.session.attribs with
      | none => none
      | some attribs =>
        let session := { g.session with attribs := attribs.set attribIndex.toNat newValue }
        some (m.put gid { g with session }, ack)
    else
      some (m, ack)

/-- The swap of `migrateGatheringOwnership`: the participant at `idx` changes places with the first. -/
def swapFront (participants : List UInt64) (idx : ℕ) : List UInt64 :=
  (participants.set 0 (participants.getD idx 0)).set idx (participants.getD 0 0)

/-- The hand-over of `migrateGatheringOwnership`: the first candidate that is a participant moves to the
front. -/
def migrate (candidates : List UInt64) (participants : List UInt64) : List UInt64 :=
  match candidates.find? (containsPID participants) with
  | none => participants
  | some c => swapFront participants (participants.idxOf c)

/-- `migrateGatheringOwnership`. -/
def migrateGatheringOwnership (hasParticipantsOnly : Bool) : Store × Reply :=
  let ((gid, candidates), _) := StreamIn.run (do
    let gid ← StreamIn.u32
    let candidates ← StreamIn.list (StreamIn.pid o.settings)
    if hasParticipantsOnly then
      let _ ← StreamIn.bool
    return (gid, candidates)) req.body
  let ack := newRMCSuccess protocolMatchMaking req.method req.callID []
  match m.gatherings.lookup gid with
  | none => (m, ⟨some ack, []⟩)
  | some g =>
    if g.participants = [] then
      (m, ⟨some ack, []⟩)
    else
      let g := { g with participants := migrate candidates g.participants }
      (m.put gid g, ⟨some ack, notifyParticipation env conn g.participants gid⟩)

/-- `endParticipation`, with the answer of its method. -/
def endParticipation : Store × Reply :=
  let gid := readGID req
  let m :=
    match m.gatherings.lookup gid with
    | none => m
    | some g =>
      let g := without g conn.pid
      if g.participants = [] then
        m.remove gid
      else
        m.put gid (refreshNumParticipants g)
  (m, boolResponse req protocolMatchMakingExt true)

def modFlagOpenParticipation : UInt32 := 0x2
def modFlagCodeword : UInt32 := 0x4000

/-- The gathering after `applySessionPart`. -/
def applyPart (p : UpdateMatchmakeSessionParam) (g : GatheringEntry) : GatheringEntry :=
  let writesCode := p.modificationFlags &&& modFlagCodeword ≠ 0 ∨ p.codeword ≠ []
  { g with
    code := if writesCode then p.codeword else g.code
    session := { g.session with
      codeword := if writesCode then p.codeword else g.session.codeword
      attribs := if p.attributes ≠ [] then p.attributes else g.session.attribs
      applicationData := if p.applicationBuffer ≠ [] then p.applicationBuffer else g.session.applicationData
      gameMode := if p.gameMode ≠ 0 then p.gameMode else g.session.gameMode
      maxParticipants := if p.maxParticipants ≠ 0 then p.maxParticipants else g.session.maxParticipants
      openParticipation :=
        if p.modificationFlags &&& modFlagOpenParticipation ≠ 0 then p.openParticipation
        else g.session.openParticipation } }

/-- `applySessionPart`. -/
def applySessionPart (p : UpdateMatchmakeSessionParam) (m : Store) : Store :=
  match m.gatherings.lookup p.gid with
  | none => m
  | some g =>
    { m.put p.gid (applyPart p g) with
      byCode := if p.codeword ≠ [] then m.byCode.insert p.codeword p.gid else m.byCode }

/-- `updateSessionPart`: an acknowledgement, and a write where the title needs one. -/
def updateSessionPart : Store × Reply :=
  let ack := success req protocolMatchmakeExtension []
  if o.sessionPartPersists then
    let (p, err) := StreamIn.run (UpdateMatchmakeSessionParam.read o.settings) req.body
    if err then (m, ack) else (applySessionPart p m, ack)
  else
    (m, ack)

/-! ### Notification data -/

/-- `notifStore.put`. -/
def putNotification (pid : UInt64) (typ : UInt32) (ev : NotificationEvent) (m : Store) : Store :=
  { m with notif := m.notif.insert pid (((m.notif.lookup pid).getD ∅).insert typ ev) }

/-- `notifStore.get`. -/
def getNotification (pid : UInt64) (typ : UInt32) : Option NotificationEvent :=
  (m.notif.lookup pid).bind (fun byType => byType.lookup typ)

/-- The event that is pushed for published data: its type is multiplied by 1000. -/
def presenceEvent (ev : NotificationEvent) : NotificationEvent :=
  { ev with type := ev.type * 1000, param3 := 0 }

/-- `pushNotifDataToFriends`. -/
def pushNotifDataToFriends (ev : NotificationEvent) : List Push :=
  match o.friendPIDs with
  | none => []
  | some friends =>
    ((friends conn.pid).filter env.online).map (fun friend => ⟨.pid friend, presenceEvent ev⟩)

/-- `updateNotificationData`. -/
def updateNotificationData : Store × Reply :=
  let (ev, err) := StreamIn.run (do
    let typ ← StreamIn.u32
    let p1 ← StreamIn.pid o.settings
    let p2 ← StreamIn.pid o.settings
    let str ← StreamIn.string
    return ({ pidSource := conn.pid, type := typ, param1 := p1, param2 := p2, strParam := str } :
      NotificationEvent)) req.body
  if err then
    (m, failure req resultCoreInvalidArgument)
  else
    (putNotification conn.pid ev.type ev m,
      { success req protocolMatchmakeExtension [] with pushes := pushNotifDataToFriends o env conn ev })

/-- `friendNotificationsFor`: data with `Param2 = 0` says that the door is closed. -/
def friendNotificationsFor (types : List UInt32) : List NotificationEvent :=
  match o.friendPIDs with
  | none => []
  | some friends => (friends conn.pid).flatMap (fun friend =>
      (types.filterMap (getNotification m friend)).filter (fun ev => ev.param2 != 0))

/-- `getFriendNotificationData`. -/
def getFriendNotificationData (list : Bool) : Reply :=
  let (types, err) := StreamIn.run
    (if list then StreamIn.list StreamIn.u32 else do return [← StreamIn.u32]) req.body
  if err then
    failure req resultCoreInvalidArgument
  else
    let events := friendNotificationsFor o conn m types
    { success req protocolMatchmakeExtension
        (StreamOut.u32 (UInt32.ofNat events.length) ++
          events.flatMap (NotificationEvent.write o.settings)) with
      pushes := events.map (fun ev => ⟨.caller, presenceEvent ev⟩) }

/-! ### Dispatch -/

/-- `isTournamentIDList`: a count and exactly that many ids. -/
def isTournamentIDList (body : Bytes) : Bool :=
  let n := leNat (body.take 4)
  8 ≤ body.length && body.length % 4 == 0 && 0 < n && n ≤ 4096 && n * 4 + 4 == body.length

/-- `ExtensionHandler`; `none` when the request is never answered and its lock never released. -/
def extensionHandler : Option (Store × Reply) :=
  let ext := protocolMatchmakeExtension
  if req.method = Method.closeParticipation then some (setParticipation req m false)
  else if req.method = Method.openParticipation then some (setParticipation req m true)
  else if req.method = Method.autoMatchmakeWithParamPostpone then some (autoMatchmake o env conn req m)
  else if req.method = Method.createMatchmakeSessionWithParam then some (createSession o env conn req m)
  else if req.method = Method.joinMatchmakeSessionWithParam then some (joinSession o env conn req m)
  else if req.method = Method.findMatchmakeSessionBySingleID then some (m, findBySingleID o env req m)
  else if req.method = Method.customPrivateRoomCreate then some (privateRoomCreate req m)
  else if req.method = Method.customResolveCode then some (m, resolveCode req m)
  else if req.method = Method.customPlayingSession then some (m, playingSession o env conn req m)
  else if req.method = Method.findByParticipant then
    if o.findByParticipantEnabled then some (m, findByParticipant o env req m)
    else some (m, emptyList req ext)
  else if req.method = Method.customFriendsQuery then some (m, emptyList req ext)
  else if req.method = Method.updateNotificationData then some (updateNotificationData o env conn req m)
  else if req.method = Method.getFriendNotificationData then
    some (m, getFriendNotificationData o conn req m false)
  else if req.method = Method.getFriendNotificationDataList then
    some (m, getFriendNotificationData o conn req m true)
  else if req.method = Method.updateMatchmakeSessionPart then some (updateSessionPart o req m)
  else if req.method = Method.updateApplicationBuffer then some (updateApplicationBuffer conn req m)
  else if req.method = Method.modifyCurrentGameAttribute then modifyCurrentGameAttribute conn req m
  else if req.method = Method.ssbuArenaCode then some (privateRoomCreate req m)
  else if req.method = Method.ssbuArenaResolve then some (m, resolveCode req m)
  else if req.method = Method.findByGidList then some (m, findByGidList o env req m)
  else if req.method = Method.browseNoHolder then some (m, browseNoHolder o env req m)
  else if req.method = Method.ssbuPreMatch then
    if isTournamentIDList req.body then some (m, ⟨some (env.tournaments conn req), []⟩)
    else some (m, success req ext (StreamOut.u32 2))
  else if req.method = Method.tournamentSearch ∨ req.method = Method.tournamentCreate ∨
      req.method = Method.tournamentDelete ∨ req.method = Method.tournamentJoin then
    some (m, ⟨some (env.tournaments conn req), []⟩)
  else if req.method = Method.updateProgressScore then some (m, success req ext [])
  else some (m, notImplemented req ext)

/-- `MatchMakingHandler`. -/
def matchMakingHandler : Store × Reply :=
  let mm := protocolMatchMaking
  if req.method = Method.getSessionURLs then (m, getSessionURLs env req m)
  else if req.method = Method.unregisterGathering then unregister conn req m
  else if req.method = Method.updateSessionURL then (m, boolResponse req mm true)
  else if req.method = Method.updateSessionHost ∨ req.method = Method.updateSessionHostV1 then
    (m, success req mm [])
  else if req.method = Method.migrateGatheringOwnership then
    migrateGatheringOwnership o env conn req m true
  else if req.method = Method.migrateGatheringOwnershipV1 then
    migrateGatheringOwnership o env conn req m false
  else if req.method = Method.updateGatheringOwnership then (m, boolResponse req mm true)
  else if req.method = Method.findBySingleID15 then (m, findBySingleID15 o env req m)
  else (m, notImplemented req mm)

/-- `MatchMakingExtHandler`. -/
def matchMakingExtHandler : Store × Reply :=
  if req.method = Method.endParticipation then endParticipation conn req m
  else (m, notImplemented req protocolMatchMakingExt)

end NextendoMatchmaking.Matchmaking
