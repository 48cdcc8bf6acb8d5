import NextendoMatchmaking.Library.Runs
import NextendoMatchmaking.Matchmaking.Handlers

/-!
# Runs of the matchmaking store

Every operation of `Matchmaking` holds its lock while it reads and writes the gatherings, so a run of the
store is a sequence of whole operations: requests to the three handlers, the reservation calls of
`matchmaking_reservations.go`, and `RemovePlayer`.  An `Event` is one operation with everything it reads
from outside.
-/

namespace NextendoMatchmaking.Matchmaking

/-- The three handlers. -/
inductive Service
  | extension
  | matchMaking
  | matchMakingExt
  deriving DecidableEq

/-- A request to one of the handlers. -/
def handle (o : Options) (env : Env) (service : Service) (conn : Caller) (req : RMCMessage) (m : Store) :
    Option (Store × Reply) :=
  match service with
  | .extension => extensionHandler o env conn req m
  | .matchMaking => some (matchMakingHandler o env conn req m)
  | .matchMakingExt => some (matchMakingExtHandler conn req m)

/-! ### The other operations -/

/-- `ReserveJoin`. -/
def reserveJoinOp (gid : UInt32) (pid : UInt64) (now : Int) (m : Store) : Bool × Store :=
  if pid = 0 then
    (false, m)
  else
    match m.gatherings.lookup gid with
    | none => (false, m)
    | some g =>
      let (reserved, g) := reserveJoin m.reservationTTL now g pid
      (reserved, m.put gid g)

/-- `CancelJoinReservation`. -/
def cancelJoinReservation (gid : UInt32) (pid : UInt64) (m : Store) : Store :=
  match m.gatherings.lookup gid with
  | none => m
  | some g => m.put gid (releaseReservation g pid)

/-- `SetJoinReservationTTL`. -/
def setJoinReservationTTL (ttl : Int) (m : Store) : Store :=
  { m with reservationTTL := if ttl ≤ 0 then defaultJoinReservationTTL else ttl }

/-- The body of the loop of `RemovePlayer`: what is left of a gathering. -/
def removePlayerFrom (pid : UInt64) (g : GatheringEntry) : Option GatheringEntry :=
  let g' := without g pid
  if g'.participants.length = g.participants.length then some g'
  else if g'.participants = [] ∨ g.session.ownerPID = pid then none
  else some (refreshNumParticipants g')

/-- One round of the loop of `RemovePlayer`; a gathering that goes takes its room code with it. -/
def removePlayerAt (pid : UInt64) (m : Store) (gid : UInt32) : Store :=
  match m.gatherings.lookup gid with
  | none => m
  | some g =>
    match removePlayerFrom pid g with
    | none => { m.remove gid with byCode := if g.code ≠ [] then m.byCode.erase g.code else m.byCode }
    | some g' => m.put gid g'

/-- `RemovePlayer`, with the order in which it visits the gatherings. -/
def removePlayer (pid : UInt64) (order : List UInt32) (m : Store) : Store :=
  if pid = 0 then m
  else order.foldl (removePlayerAt pid) { m with notif := m.notif.erase pid }

/-! ### Events and steps -/

inductive Event
  | request (service : Service) (conn : Caller) (req : RMCMessage) (env : Env)
  | reserveJoin (gid : UInt32) (pid : UInt64) (now : Int)
  | cancelJoinReservation (gid : UInt32) (pid : UInt64)
  | setJoinReservationTTL (ttl : Int)
  | removePlayer (pid : UInt64) (order : List UInt32)

/-- The clock readings of an operation. -/
def Event.readings : Event → List Int
  | .request _ _ _ env => [env.selectNow, env.reserveNow, env.commitNow]
  | .reserveJoin _ _ now => [now]
  | _ => []

/-- One operation.  The order in which it iterates over the gatherings lists them, each once. -/
def step (o : Options) (m : Store) : Event → Option Store
  | .request service conn req env =>
    if GoMap.Enumerates env.order m.gatherings then (handle o env service conn req m).map Prod.fst
    else none
  | .reserveJoin gid pid now => some (reserveJoinOp gid pid now m).2
  | .cancelJoinReservation gid pid => some (cancelJoinReservation gid pid m)
  | .setJoinReservationTTL ttl => some (setJoinReservationTTL ttl m)
  | .removePlayer pid order =>
    if GoMap.Enumerates order m.gatherings then some (removePlayer pid order m) else none

/-! ### Small requests

Events on which the theorems about runs are instantiated. -/

/-- The switches as `server/main.go` leaves them. -/
def plainOptions : Options := ⟨newSwitchSettings [] 40000, false, false, false, none⟩

/-- A call at the time `now` with nobody else connected. -/
def quietEnv (now : Int) (order : List UInt32) : Env where
  creation := ⟨[], 0, false⟩
  selectNow := now
  reserveNow := now
  commitNow := now
  order := order
  orders := fun _ => []
  paramOrder := fun _ => []
  natBehaviour := (0, 0)
  natOf := fun _ => none
  online := fun _ => false
  isSoloPID := fun _ => false
  hostURLs := fun _ => .noHost
  tournaments := fun _ req => req

/-- What is computed from a state and a gathering of it is so for some state and gathering. -/
theorem exists_live {α : Type} {x : Option Store} {gid : UInt32} {f : Store → GatheringEntry → α} {v : α}
    (h : x.bind (fun m => (m.gatherings.lookup gid).map (f m)) = some v) :
    ∃ m g, x = some m ∧ m.gatherings.lookup gid = some g ∧ f m g = v := by
  obtain ⟨m, hm, hlive⟩ := Option.bind_eq_some_iff.mp h
  obtain ⟨g, hg, hv⟩ := Option.map_eq_some_iff.mp hlive
  exact ⟨m, g, hm, hg, hv⟩

/-- The creation of a session with `max` seats.  The fields behind the capacity are cut off and read as
zero. -/
def createRequest (max : UInt16) : RMCMessage :=
  newRMCRequest protocolMatchmakeExtension Method.createMatchmakeSessionWithParam 1
    (writeLevel plainOptions.settings
      (writeLevel plainOptions.settings (List.replicate 22 0 ++ StreamOut.u16 max)))

/-- `pid` creates a session with `max` seats. -/
def createEvent (pid : UInt64) (max : UInt16) (now : Int) (order : List UInt32) : Event :=
  .request .extension ⟨pid, 1⟩ (createRequest max) (quietEnv now order)

/-- A join of `gid`. -/
def joinRequest (gid : UInt32) : RMCMessage :=
  newRMCRequest protocolMatchmakeExtension Method.joinMatchmakeSessionWithParam 1
    (writeLevel plainOptions.settings (StreamOut.u32 gid))

/-- `pid` joins `gid`. -/
def joinEvent (pid : UInt64) (gid : UInt32) (now : Int) (order : List UInt32) : Event :=
  .request .extension ⟨pid, 2⟩ (joinRequest gid) (quietEnv now order)

end NextendoMatchmaking.Matchmaking
