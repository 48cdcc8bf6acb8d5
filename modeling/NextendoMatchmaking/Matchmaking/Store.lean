import NextendoMatchmaking.Wire.Structures

/-!
# The gathering store

The data of `Matchmaking` (`matchmaking_handlers.go`, `matchmaking_notifdata.go`), the seat reservations of
`matchmaking_reservations.go`, and the helpers that the handlers share.

Instants and durations are in nanoseconds.  A reading of `m.now()` is an argument of the function that
makes it.
-/

namespace NextendoMatchmaking.Matchmaking

/-! ### Data -/

/-- `gathering`: a session with its participants (the first is the owner), the connection of its host,
its room code and the seats reserved in it, each with the time at which the reservation ends. -/
structure GatheringEntry where
  session : MatchmakeSession
  participants : List UInt64
  hostConnID : UInt32
  code : Bytes
  reservations : GoMap UInt64 Int
  deriving DecidableEq

/-- The switches of `Matchmaking` that a game server sets before it serves. -/
structure Options where
  settings : Settings
  findByParticipantEnabled : Bool
  sessionPartPersists : Bool
  joinRespExistingCount : Bool
  friendPIDs : Option (UInt64 → List UInt64)

/-- The mutable part of `Matchmaking`. -/
structure Store where
  gatherings : GoMap UInt32 GatheringEntry
  byCode : GoMap Bytes UInt32
  nextGID : UInt32
  codeRand : UInt32
  reservationTTL : Int
  notif : GoMap UInt64 (GoMap UInt32 NotificationEvent)

/-- A write to the gathering under `gid`. -/
def Store.put (m : Store) (gid : UInt32) (g : GatheringEntry) : Store :=
  { m with gatherings := m.gatherings.insert gid g }

/-- `delete(m.gatherings, gid)`. -/
def Store.remove (m : Store) (gid : UInt32) : Store :=
  { m with gatherings := m.gatherings.erase gid }

def defaultJoinReservationTTL : Int := 8 * 1000000000

/-- `NewMatchmaking`. -/
def newMatchmaking : Store where
  gatherings := ∅
  byCode := ∅
  nextGID := 1
  codeRand := 0x1234
  reservationTTL := defaultJoinReservationTTL
  notif := ∅

/-! ### Participants -/

def containsPID (list : List UInt64) (pid : UInt64) : Bool := list.any (· == pid)

def removePID (list : List UInt64) (pid : UInt64) : List UInt64 := list.filter (· != pid)

@[simp] theorem containsPID_iff {list : List UInt64} {pid : UInt64} :
    containsPID list pid = true ↔ pid ∈ list := by
  simp [containsPID]

@[simp] theorem mem_removePID {list : List UInt64} {pid p : UInt64} :
    p ∈ removePID list pid ↔ p ∈ list ∧ p ≠ pid := by
  simp [removePID]

theorem nodup_removePID {list : List UInt64} (pid : UInt64) (h : list.Nodup) :
    (removePID list pid).Nodup := h.filter _

theorem length_removePID_le (list : List UInt64) (pid : UInt64) :
    (removePID list pid).length ≤ list.length := List.length_filter_le _ _

/-! ### Reservations -/

/-- `expireJoinReservationsLocked`. -/
def expireJoinReservations (g : GatheringEntry) (now : Int) : GatheringEntry :=
  { g with reservations := GoMap.deleteWhere (fun _ expires => !decide (now < expires)) g.reservations }

/-- `occupiedSeatsLocked`: it also expires reservations. -/
def occupiedSeats (g : GatheringEntry) (now : Int) : ℕ × GatheringEntry :=
  let g := expireJoinReservations g now
  (g.participants.length + GoMap.len g.reservations, g)

/-- `delete(g.reservations, pid)`. -/
def releaseReservation (g : GatheringEntry) (pid : UInt64) : GatheringEntry :=
  { g with reservations := g.reservations.erase pid }

/-- The write of a reservation for `pid`. -/
def putReservation (g : GatheringEntry) (pid : UInt64) (expires : Int) : GatheringEntry :=
  { g with reservations := g.reservations.insert pid expires }

/-- `reserveJoinLocked`. -/
def reserveJoin (ttl now : Int) (g : GatheringEntry) (pid : UInt64) : Bool × GatheringEntry :=
  if containsPID g.participants pid then
    (true, releaseReservation g pid)
  else
    let g := expireJoinReservations g now
    if (g.reservations.lookup pid).isSome then
      (true, putReservation g pid (now + ttl))
    else if 0 < g.session.maxParticipants ∧
        g.session.maxParticipants.toNat ≤ g.participants.length + GoMap.len g.reservations then
      (false, g)
    else
      (true, putReservation g pid (now + ttl))

/-- `commitReservedJoinLocked`. -/
def commitReservedJoin (now : Int) (g : GatheringEntry) (pid : UInt64) : Bool × GatheringEntry :=
  if containsPID g.participants pid then
    (false, releaseReservation g pid)
  else
    match g.reservations.lookup pid with
    | none => (false, releaseReservation g pid)
    | some expires =>
      if now < expires then
        (true, { releaseReservation g pid with participants := g.participants ++ [pid] })
      else
        (false, releaseReservation g pid)

/-- The gathering without the seat and the reservation of `pid`. -/
def without (g : GatheringEntry) (pid : UInt64) : GatheringEntry :=
  { releaseReservation g pid with participants := removePID g.participants pid }

/-- `g.session.NumParticipants = uint32(len(g.participants))`. -/
def refreshNumParticipants (g : GatheringEntry) : GatheringEntry :=
  { g with session := { g.session with numParticipants := UInt32.ofNat g.participants.length } }

/-! ### Creation -/

/-- What a creation reads from outside: the random session key, the current time as a NEX `DateTime`, and
whether `NEXTENDO_OPEN_PARTICIPATION` is set. -/
structure CreationEnv where
  sessionKey : Bytes
  nowDateTime : UInt64
  openParticipationDefault : Bool

/-- The bytes of an ASCII literal. -/
def ascii (str : String) : Bytes := str.toList.map (fun c => UInt8.ofNat c.toNat)

/-- `finalizeCreatedSession`. -/
def finalizeCreatedSession (env : CreationEnv) (session : MatchmakeSession) (gid : UInt32)
    (ownerPID : UInt64) : MatchmakeSession :=
  let session := { session with
    id := gid
    ownerPID := ownerPID
    hostPID := ownerPID
    maxParticipants := if session.maxParticipants = 0 then 12 else session.maxParticipants
    numParticipants := 1
    sessionKey := env.sessionKey
    startedTime := env.nowDateTime
    systemPasswordEnabled := false }
  let session :=
    if env.openParticipationDefault then
      { session with userPasswordEnabled := false, state := 1, openParticipation := true }
    else
      session
  { session with
    attribs := session.attribs ++ List.replicate (6 - session.attribs.length) 0
    param := (session.param.insert (ascii "@SR") { type := Variant.boolTag, bool := true }).insert
      (ascii "@GIR") { type := Variant.int64Tag, int := 3 } }

/-- The connection a request arrives on. -/
structure Caller where
  pid : UInt64
  id : UInt32
  deriving DecidableEq

/-- The gathering that `createGathering` registers. -/
def newGathering (env : CreationEnv) (conn : Caller) (gid : UInt32) (src : MatchmakeSession) :
    GatheringEntry where
  session := finalizeCreatedSession env src gid conn.pid
  participants := [conn.pid]
  hostConnID := conn.id
  code := []
  reservations := ∅

/-- `createGathering`: the id of the new gathering, and the store with it. -/
def createGathering (env : CreationEnv) (conn : Caller) (src : MatchmakeSession) (m : Store) :
    UInt32 × Store :=
  let gid := m.nextGID
  (gid, { m with
    nextGID := gid + 1
    gatherings := m.gatherings.insert gid (newGathering env conn gid src) })

/-! ### Room codes -/

def codeAlphabet : List UInt8 := ascii "ABCDEFGHIJKLMNPQRSTUVWXYZ23456789"

/-- The loop of `makeCode`: `n` characters of the code, from the low end of `x`. -/
def codeChars : ℕ → UInt32 → Bytes
  | 0, _ => []
  | n + 1, x => codeAlphabet.getD (x % 33).toNat 0 :: codeChars n (x / 33)

/-- `makeCode`. -/
def makeCode (gid : UInt32) (m : Store) : Bytes × Store :=
  let codeRand := m.codeRand * 1103515245 + 12345 + gid
  let code := codeChars 5 codeRand
  (code, { m with
    codeRand := codeRand
    byCode := m.byCode.insert code gid
    gatherings := GoMap.modify gid (fun g => { g with code := code }) m.gatherings })

end NextendoMatchmaking.Matchmaking
