import NextendoMatchmaking.Wire.Protocols

/-!
# NEX structures

The structures of the package (`types.go`, `matchmaking.go`, `matchmaking_acnh.go`, `notification.go`,
`matchmaking_handlers.go`), each with both directions of its levels, and the readers of those that only the
other protocols use (`ticketgranting.go`, `utility.go`).

A structure is a list of levels.  With struct headers on, a level is a version byte and a length-prefixed
body, and reading it reads the body through a stream of its own (`StreamIn.substream`), whose error the
outer stream does not see.
-/

namespace NextendoMatchmaking

/-- One level of `WriteStructure`. -/
def writeLevel (s : Settings) (body : Bytes) : Bytes :=
  if s.structHeader then StreamOut.u8 0 ++ StreamOut.buffer body else body

/-- A level with a version of its own. -/
def writeLevelOf (s : Settings) (version : UInt8) (body : Bytes) : Bytes :=
  if s.structHeader then StreamOut.u8 version ++ StreamOut.buffer body else body

/-- One level of `ReadStructure`. -/
def readLevel {α : Type} (s : Settings) (load : Reader α) : Reader α :=
  if s.structHeader then do
    let _ ← StreamIn.u8
    StreamIn.substream load
  else
    load

/-! ### Variants -/

/-- `Variant`: a value behind its type tag; a `float64` is its bit pattern. -/
structure Variant where
  type : UInt8
  int : Int64 := 0
  double : UInt64 := 0
  bool : Bool := false
  string : Bytes := []
  date : UInt64 := 0
  uint : UInt64 := 0
  deriving DecidableEq

namespace Variant

def int64Tag : UInt8 := 1
def doubleTag : UInt8 := 2
def boolTag : UInt8 := 3
def stringTag : UInt8 := 4
def dateTimeTag : UInt8 := 5
def uint64Tag : UInt8 := 6

def save (v : Variant) : Bytes :=
  StreamOut.u8 v.type ++
    if v.type = int64Tag then StreamOut.u64 v.int.toUInt64
    else if v.type = doubleTag then StreamOut.u64 v.double
    else if v.type = boolTag then StreamOut.bool v.bool
    else if v.type = stringTag then StreamOut.string v.string
    else if v.type = dateTimeTag then StreamOut.dateTime v.date
    else if v.type = uint64Tag then StreamOut.u64 v.uint
    else []

def load : Reader Variant := do
  let type ← StreamIn.u8
  if type = int64Tag then
    return { type, int := (← StreamIn.u64).toInt64 }
  else if type = doubleTag then
    return { type, double := ← StreamIn.u64 }
  else if type = boolTag then
    return { type, bool := ← StreamIn.bool }
  else if type = stringTag then
    return { type, string := ← StreamIn.string }
  else if type = dateTimeTag then
    return { type, date := ← StreamIn.dateTime }
  else if type = uint64Tag then
    return { type, uint := ← StreamIn.u64 }
  else
    return { type }

end Variant

/-! ### Sessions -/

/-- `Gathering`, the base level of a session. -/
structure Gathering where
  id : UInt32
  ownerPID : UInt64
  hostPID : UInt64
  minParticipants : UInt16
  maxParticipants : UInt16
  participationPolicy : UInt32
  policyArgument : UInt32
  flags : UInt32
  state : UInt32
  description : Bytes
  deriving DecidableEq

/-- `MatchmakeParam`. -/
abbrev MatchmakeParam := GoMap Bytes Variant

/-- `MatchmakeSession`. -/
structure MatchmakeSession extends Gathering where
  gameMode : UInt32
  attribs : List UInt32
  openParticipation : Bool
  matchmakeSystem : UInt32
  applicationData : Bytes
  numParticipants : UInt32
  progressScore : UInt8
  sessionKey : Bytes
  option : UInt32
  param : MatchmakeParam
  startedTime : UInt64
  userPassword : Bytes
  referGID : UInt32
  userPasswordEnabled : Bool
  systemPasswordEnabled : Bool
  codeword : Bytes
  deriving DecidableEq

namespace Gathering

def save (s : Settings) (g : Gathering) : Bytes :=
  StreamOut.u32 g.id ++ StreamOut.pid s g.ownerPID ++ StreamOut.pid s g.hostPID ++
    StreamOut.u16 g.minParticipants ++ StreamOut.u16 g.maxParticipants ++
    StreamOut.u32 g.participationPolicy ++ StreamOut.u32 g.policyArgument ++ StreamOut.u32 g.flags ++
    StreamOut.u32 g.state ++ StreamOut.string g.description

def load (s : Settings) : Reader Gathering := do
  return {
    id := ← StreamIn.u32
    ownerPID := ← StreamIn.pid s
    hostPID := ← StreamIn.pid s
    minParticipants := ← StreamIn.u16
    maxParticipants := ← StreamIn.u16
    participationPolicy := ← StreamIn.u32
    policyArgument := ← StreamIn.u32
    flags := ← StreamIn.u32
    state := ← StreamIn.u32
    description := ← StreamIn.string }

def write (s : Settings) (g : Gathering) : Bytes := writeLevel s (save s g)

def read (s : Settings) : Reader Gathering := readLevel s (load s)

end Gathering

namespace MatchmakeParam

def write (s : Settings) (order : List Bytes) (p : MatchmakeParam) : Bytes :=
  writeLevel s (StreamOut.map StreamOut.string Variant.save order p)

def read (s : Settings) : Reader MatchmakeParam :=
  readLevel s (StreamIn.map StreamIn.string Variant.load)

end MatchmakeParam

namespace MatchmakeSession

/-- The derived level; `order` is the iteration order of the parameter map. -/
def saveOwn (s : Settings) (order : List Bytes) (m : MatchmakeSession) : Bytes :=
  StreamOut.u32 m.gameMode ++ StreamOut.list StreamOut.u32 m.attribs ++
    StreamOut.bool m.openParticipation ++ StreamOut.u32 m.matchmakeSystem ++
    StreamOut.buffer m.applicationData ++ StreamOut.u32 m.numParticipants ++
    StreamOut.u8 m.progressScore ++ StreamOut.buffer m.sessionKey ++ StreamOut.u32 m.option ++
    MatchmakeParam.write s order m.param ++ StreamOut.dateTime m.startedTime ++
    StreamOut.string m.userPassword ++ StreamOut.u32 m.referGID ++
    StreamOut.bool m.userPasswordEnabled ++ StreamOut.bool m.systemPasswordEnabled ++
    StreamOut.string m.codeword

def write (s : Settings) (order : List Bytes) (m : MatchmakeSession) : Bytes :=
  writeLevel s (Gathering.save s m.toGathering) ++ writeLevel s (saveOwn s order m)

/-- The derived level over a base that has been read. -/
def loadOwn (s : Settings) (g : Gathering) : Reader MatchmakeSession := do
  return {
    toGathering := g
    gameMode := ← StreamIn.u32
    attribs := ← StreamIn.list StreamIn.u32
    openParticipation := ← StreamIn.bool
    matchmakeSystem := ← StreamIn.u32
    applicationData := ← StreamIn.buffer
    numParticipants := ← StreamIn.u32
    progressScore := ← StreamIn.u8
    sessionKey := ← StreamIn.buffer
    option := ← StreamIn.u32
    param := ← MatchmakeParam.read s
    startedTime := ← StreamIn.dateTime
    userPassword := ← StreamIn.string
    referGID := ← StreamIn.u32
    userPasswordEnabled := ← StreamIn.bool
    systemPasswordEnabled := ← StreamIn.bool
    codeword := ← StreamIn.string }

def read (s : Settings) : Reader MatchmakeSession := do
  let g ← readLevel s (Gathering.load s)
  readLevel s (loadOwn s g)

end MatchmakeSession

/-- `AutoMatchmakeParam`: only its session is decoded. -/
def readAutoMatchmakeParam (s : Settings) : Reader MatchmakeSession :=
  readLevel s (MatchmakeSession.read s)

def writeAutoMatchmakeParam (s : Settings) (order : List Bytes) (session : MatchmakeSession) : Bytes :=
  writeLevel s (session.write s order)

/-! ### Searches -/

/-- `ResultRange`. -/
structure ResultRange where
  offset : UInt32
  size : UInt32
  deriving DecidableEq

def ResultRange.read (s : Settings) : Reader ResultRange :=
  readLevel s do
    return { offset := ← StreamIn.u32, size := ← StreamIn.u32 }

def ResultRange.write (s : Settings) (r : ResultRange) : Bytes :=
  writeLevel s (StreamOut.u32 r.offset ++ StreamOut.u32 r.size)

/-- `MatchmakeSessionSearchCriteria`. -/
structure MatchmakeSessionSearchCriteria where
  attribs : List Bytes
  gameMode : Bytes
  minParticipants : Bytes
  maxParticipants : Bytes
  matchmakeSystem : Bytes
  vacantOnly : Bool
  excludeLocked : Bool
  excludeNonHostPID : Bool
  selectionMethod : UInt32
  vacantParticipants : UInt16 := 0
  param : MatchmakeParam := ∅
  excludeUserPassword : Bool := false
  excludeSysPassword : Bool := false
  referGID : UInt32 := 0
  codeword : Bytes := []
  range : ResultRange := ⟨0, 0⟩
  deriving DecidableEq

namespace MatchmakeSessionSearchCriteria

/-- The fields of NEX 3.5.0 and 4.0.0 are there only for those versions. -/
def load (s : Settings) : Reader MatchmakeSessionSearchCriteria := do
  let base : MatchmakeSessionSearchCriteria := {
    attribs := ← StreamIn.list StreamIn.string
    gameMode := ← StreamIn.string
    minParticipants := ← StreamIn.string
    maxParticipants := ← StreamIn.string
    matchmakeSystem := ← StreamIn.string
    vacantOnly := ← StreamIn.bool
    excludeLocked := ← StreamIn.bool
    excludeNonHostPID := ← StreamIn.bool
    selectionMethod := ← StreamIn.u32 }
  let base ← if s.nexVersion ≥ 30500 then
      pure { base with vacantParticipants := ← StreamIn.u16 }
    else
      pure base
  if s.nexVersion ≥ 40000 then
    return { base with
      param := ← MatchmakeParam.read s
      excludeUserPassword := ← StreamIn.bool
      excludeSysPassword := ← StreamIn.bool
      referGID := ← StreamIn.u32
      codeword := ← StreamIn.string
      range := ← ResultRange.read s }
  else
    return base

def read (s : Settings) : Reader MatchmakeSessionSearchCriteria := readLevel s (load s)

def save (s : Settings) (order : List Bytes) (c : MatchmakeSessionSearchCriteria) : Bytes :=
  StreamOut.list StreamOut.string c.attribs ++ StreamOut.string c.gameMode ++
    StreamOut.string c.minParticipants ++ StreamOut.string c.maxParticipants ++
    StreamOut.string c.matchmakeSystem ++ StreamOut.bool c.vacantOnly ++
    StreamOut.bool c.excludeLocked ++ StreamOut.bool c.excludeNonHostPID ++
    StreamOut.u32 c.selectionMethod ++
    (if s.nexVersion ≥ 30500 then StreamOut.u16 c.vacantParticipants else []) ++
    (if s.nexVersion ≥ 40000 then
      MatchmakeParam.write s order c.param ++ StreamOut.bool c.excludeUserPassword ++
        StreamOut.bool c.excludeSysPassword ++ StreamOut.u32 c.referGID ++ StreamOut.string c.codeword ++
        c.range.write s
    else [])

def write (s : Settings) (order : List Bytes) (c : MatchmakeSessionSearchCriteria) : Bytes :=
  writeLevel s (save s order c)

end MatchmakeSessionSearchCriteria

/-- `MatchmakeBlockListParam`. -/
structure MatchmakeBlockListParam where
  options : UInt32
  deriving DecidableEq

def MatchmakeBlockListParam.write (s : Settings) (p : MatchmakeBlockListParam) : Bytes :=
  writeLevel s (StreamOut.u32 p.options)

def MatchmakeBlockListParam.read (s : Settings) : Reader MatchmakeBlockListParam :=
  readLevel s do
    return { options := ← StreamIn.u32 }

/-- `FindMatchmakeSessionByParticipantParam`; the block list behind the options is read and dropped. -/
def readFindByParticipantParam (s : Settings) : Reader (List UInt64 × UInt32) :=
  readLevel s do
    let principalIDs ← StreamIn.list (StreamIn.pid s)
    let options ← StreamIn.u32
    let _ ← readLevel s StreamIn.u32
    return (principalIDs, options)

/-- `FindMatchmakeSessionByParticipantParam` with all its fields. -/
structure FindMatchmakeSessionByParticipantParam where
  principalIDs : List UInt64
  options : UInt32
  blockList : MatchmakeBlockListParam
  deriving DecidableEq

def FindMatchmakeSessionByParticipantParam.write (s : Settings)
    (p : FindMatchmakeSessionByParticipantParam) : Bytes :=
  writeLevel s (StreamOut.list (StreamOut.pid s) p.principalIDs ++ StreamOut.u32 p.options ++
    p.blockList.write s)

def FindMatchmakeSessionByParticipantParam.read (s : Settings) :
    Reader FindMatchmakeSessionByParticipantParam :=
  readLevel s do
    return {
      principalIDs := ← StreamIn.list (StreamIn.pid s)
      options := ← StreamIn.u32
      blockList := ← MatchmakeBlockListParam.read s }

/-- The handler looks at two of the fields. -/
theorem readFindByParticipantParam_eq (s : Settings) : readFindByParticipantParam s =
    (fun p => (p.principalIDs, p.options)) <$> FindMatchmakeSessionByParticipantParam.read s := by
  unfold readFindByParticipantParam FindMatchmakeSessionByParticipantParam.read
    MatchmakeBlockListParam.read readLevel
  split <;> rfl

/-- `FindMatchmakeSessionByParticipantResult`. -/
def writeFindByParticipantResult (s : Settings) (order : List Bytes) (principalID : UInt64)
    (session : MatchmakeSession) : Bytes :=
  writeLevel s (StreamOut.pid s principalID ++ session.write s order)

/-- The PID and the session of a `FindMatchmakeSessionByParticipantResult`. -/
def readFindByParticipantResult (s : Settings) : Reader (UInt64 × MatchmakeSession) :=
  readLevel s do
    let principalID ← StreamIn.pid s
    let session ← MatchmakeSession.read s
    return (principalID, session)

/-- `SimplePlayingSession`. -/
structure SimplePlayingSession where
  principalID : UInt64
  gatheringID : UInt32
  gameMode : UInt32
  attribute0 : UInt32
  deriving DecidableEq

def SimplePlayingSession.write (s : Settings) (p : SimplePlayingSession) : Bytes :=
  writeLevel s (StreamOut.pid s p.principalID ++ StreamOut.u32 p.gatheringID ++
    StreamOut.u32 p.gameMode ++ StreamOut.u32 p.attribute0)

def SimplePlayingSession.read (s : Settings) : Reader SimplePlayingSession :=
  readLevel s do
    return {
      principalID := ← StreamIn.pid s
      gatheringID := ← StreamIn.u32
      gameMode := ← StreamIn.u32
      attribute0 := ← StreamIn.u32 }

/-! ### Updates and notifications -/

/-- `UpdateMatchmakeSessionParam`: a partial update of a session. -/
structure UpdateMatchmakeSessionParam where
  gid : UInt32
  modificationFlags : UInt32
  attributes : List UInt32
  openParticipation : Bool
  applicationBuffer : Bytes
  progressScore : UInt8
  param : MatchmakeParam
  startedTime : UInt64
  userPassword : Bytes
  gameMode : UInt32
  description : Bytes
  minParticipants : UInt16
  maxParticipants : UInt16
  matchmakeSystem : UInt32
  participationPolicy : UInt32
  policyArgument : UInt32
  codeword : Bytes
  deriving DecidableEq

def UpdateMatchmakeSessionParam.read (s : Settings) : Reader UpdateMatchmakeSessionParam :=
  readLevel s do
    return {
      gid := ← StreamIn.u32
      modificationFlags := ← StreamIn.u32
      attributes := ← StreamIn.list StreamIn.u32
      openParticipation := ← StreamIn.bool
      applicationBuffer := ← StreamIn.buffer
      progressScore := ← StreamIn.u8
      param := ← MatchmakeParam.read s
      startedTime := ← StreamIn.dateTime
      userPassword := ← StreamIn.string
      gameMode := ← StreamIn.u32
      description := ← StreamIn.string
      minParticipants := ← StreamIn.u16
      maxParticipants := ← StreamIn.u16
      matchmakeSystem := ← StreamIn.u32
      participationPolicy := ← StreamIn.u32
      policyArgument := ← StreamIn.u32
      codeword := ← StreamIn.string }

def UpdateMatchmakeSessionParam.save (s : Settings) (order : List Bytes)
    (p : UpdateMatchmakeSessionParam) : Bytes :=
  StreamOut.u32 p.gid ++ StreamOut.u32 p.modificationFlags ++ StreamOut.list StreamOut.u32 p.attributes ++
    StreamOut.bool p.openParticipation ++ StreamOut.buffer p.applicationBuffer ++
    StreamOut.u8 p.progressScore ++ MatchmakeParam.write s order p.param ++
    StreamOut.dateTime p.startedTime ++ StreamOut.string p.userPassword ++ StreamOut.u32 p.gameMode ++
    StreamOut.string p.description ++ StreamOut.u16 p.minParticipants ++
    StreamOut.u16 p.maxParticipants ++ StreamOut.u32 p.matchmakeSystem ++
    StreamOut.u32 p.participationPolicy ++ StreamOut.u32 p.policyArgument ++ StreamOut.string p.codeword

def UpdateMatchmakeSessionParam.write (s : Settings) (order : List Bytes)
    (p : UpdateMatchmakeSessionParam) : Bytes :=
  writeLevel s (p.save s order)

def notificationParticipate : UInt32 := 3001

/-- `NotificationEvent`. -/
structure NotificationEvent where
  pidSource : UInt64
  type : UInt32
  param1 : UInt64
  param2 : UInt64
  strParam : Bytes := []
  param3 : UInt64 := 0
  deriving DecidableEq

def NotificationEvent.write (s : Settings) (n : NotificationEvent) : Bytes :=
  writeLevel s (StreamOut.pid s n.pidSource ++ StreamOut.u32 n.type ++ StreamOut.u64 n.param1 ++
    StreamOut.u64 n.param2 ++ StreamOut.string n.strParam ++ StreamOut.u64 n.param3)

def NotificationEvent.read (s : Settings) : Reader NotificationEvent :=
  readLevel s do
    return {
      pidSource := ← StreamIn.pid s
      type := ← StreamIn.u32
      param1 := ← StreamIn.u64
      param2 := ← StreamIn.u64
      strParam := ← StreamIn.string
      param3 := ← StreamIn.u64 }

/-! ### Structures of the other protocols -/

/-- `RVConnectionData`; a station URL is the string that `ParseStationURL` takes apart. -/
structure RVConnectionData where
  mainStation : Bytes
  specialProtocols : List UInt8
  specialStation : Bytes
  serverTime : UInt64
  deriving DecidableEq

def RVConnectionData.read (s : Settings) : Reader RVConnectionData :=
  readLevel s do
    return {
      mainStation := ← StreamIn.string
      specialProtocols := ← StreamIn.list StreamIn.u8
      specialStation := ← StreamIn.string
      serverTime := ← StreamIn.dateTime }

def RVConnectionData.save (d : RVConnectionData) : Bytes :=
  StreamOut.string d.mainStation ++ StreamOut.list StreamOut.u8 d.specialProtocols ++
    StreamOut.string d.specialStation ++ StreamOut.dateTime d.serverTime

def RVConnectionData.write (s : Settings) (d : RVConnectionData) : Bytes := writeLevelOf s 1 d.save

/-- `UniqueIDInfo`. -/
structure UniqueIDInfo where
  nexUniqueID : UInt64
  nexUniqueIDPassword : UInt64
  deriving DecidableEq

def UniqueIDInfo.read (s : Settings) : Reader UniqueIDInfo :=
  readLevel s do
    return { nexUniqueID := ← StreamIn.u64, nexUniqueIDPassword := ← StreamIn.u64 }

def UniqueIDInfo.write (s : Settings) (u : UniqueIDInfo) : Bytes :=
  writeLevel s (StreamOut.u64 u.nexUniqueID ++ StreamOut.u64 u.nexUniqueIDPassword)

end NextendoMatchmaking
