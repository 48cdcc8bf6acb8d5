import NextendoMatchmaking.Library.Runs
import NextendoMatchmaking.Wire.Protocols

/-!
# The request deduplicator

`rmcDeduplicator` of `server/rmc_dedup.go` with any number of concurrent calls through handlers it wraps.

A call is a goroutine inside the function that `wrap` returns.  Its steps are the ones between which other
calls can be scheduled: entering, reading the clock, the section under `d.mu`, the wake-up on a closed
`ready` channel, the start and the end of `next`, and the section under `d.mu` that `execute` defers.  The
label of a step names the call; it also carries what the run of `next` produced, and the clock has a step
of its own.  What happens inside one locked section is a function of the state.

Entries are pointers into a heap, because `execute` compares the entry in the map with its own.
-/

namespace NextendoMatchmaking.Dedup

open NextendoMatchmaking.Runs

/-! ### Keys -/

/-- `rmcDedupKey`; the hash is the 32 bytes of a SHA-256 sum. -/
structure RMCDedupKey where
  connectionID : UInt32
  pid : UInt64
  protocol : UInt16
  method : UInt32
  callID : UInt32
  bodyHash : BitVec 256
  deriving DecidableEq

/-- `deduplicateMatchmaking`: the requests that the table covers. -/
def deduplicateMatchmaking (req : RMCMessage) : Bool :=
  if req.protocol = protocolMatchmakeExtension then
    req.method ∈ [Method.closeParticipation, Method.openParticipation,
      Method.createMatchmakeSessionWithParam, Method.joinMatchmakeSessionWithParam,
      Method.autoMatchmakeWithParamPostpone, Method.customPrivateRoomCreate,
      Method.updateMatchmakeSessionPart, Method.updateApplicationBuffer,
      Method.modifyCurrentGameAttribute, Method.updateNotificationData,
      Method.ssbuArenaCode, Method.tournamentCreate, Method.tournamentDelete, Method.tournamentJoin]
  else if req.protocol = protocolMatchMaking then
    req.method ∈ [Method.unregisterGathering, Method.updateSessionURL, Method.updateSessionHost,
      Method.updateSessionHostV1, Method.migrateGatheringOwnership, Method.migrateGatheringOwnershipV1,
      Method.updateGatheringOwnership]
  else if req.protocol = protocolMatchMakingExt then
    req.method = Method.endParticipation
  else
    false

/-- What a wrapped handler is called with: the id and the PID of the connection when the key is taken,
and the request.  Either pointer may be nil. -/
structure Args where
  conn : Option (UInt32 × UInt64)
  req : Option RMCMessage

/-- The key of a call, if it goes through the table at all. -/
def keyOf (sha256 : Bytes → BitVec 256) (a : Args) : Option RMCDedupKey :=
  match a.conn, a.req with
  | some (id, pid), some req =>
    if deduplicateMatchmaking req then
      some ⟨id, pid, req.protocol, req.method, req.callID, sha256 req.body⟩
    else
      none
  | _, _ => none

/-- `cloneRMC`: a copy of the message with a copy of its body. -/
def cloneRMC : Option RMCMessage → Option RMCMessage
  | none => none
  | some message => some { message with body := [] ++ message.body }

@[simp] theorem cloneRMC_eq (m : Option RMCMessage) : cloneRMC m = m := by
  cases m <;> rfl

/-! ### Configuration -/

/-- Durations and instants are in nanoseconds. -/
def second : Int := 1000000000

def defaultRMCDedupEntries : ℕ := 4096

/-- The limits of a deduplicator. -/
structure Config where
  ttl : Int
  maxEntries : ℕ
  ttl_pos : 0 < ttl
  maxEntries_pos : 0 < maxEntries

/-- `newRMCDeduplicator`: values at or below zero give the defaults. -/
def newRMCDeduplicator (ttl maxEntries : Int) : Config where
  ttl := if ttl ≤ 0 then 20 * second else ttl
  maxEntries := if maxEntries ≤ 0 then defaultRMCDedupEntries else maxEntries.toNat
  ttl_pos := by
    split
    · decide
    · omega
  maxEntries_pos := by
    split
    · decide
    · omega

/-! ### State -/

abbrev CallId := ℕ
abbrev EntryRef := ℕ
abbrev Chan := ℕ

/-- `rmcDedupEntry`. -/
structure RMCDedupEntry where
  ready : Option Chan
  response : Option RMCMessage
  expires : Int

/-- How a run of `next` ended. -/
inductive Outcome
  | returned (response : Option RMCMessage)
  | panicked

/-- Where a call is. -/
inductive Phase
  | idle
  /-- At the head of the loop. -/
  | looping
  /-- Has read the clock and waits for `d.mu`. -/
  | sampled (now : Int)
  | blocked (ready : Chan)
  /-- About to call `next` outside `execute`. -/
  | direct
  | directRunning
  /-- In `execute`, before, during and after its run of `next`. -/
  | executing (entry : EntryRef)
  | running (entry : EntryRef)
  | deferring (entry : EntryRef) (outcome : Outcome)
  | returned (response : Option RMCMessage)
  | panicked

/-- The fields of the deduplicator, the heap and channels they point to, the clock, and the calls. -/
structure State where
  entries : GoMap RMCDedupKey EntryRef
  heap : EntryRef → RMCDedupEntry
  next : EntryRef
  closed : Chan → Bool
  calls : UInt64
  clock : Int
  phase : CallId → Phase

/-- A fresh deduplicator at time `t`. -/
def init (t : Int) : State where
  entries := ∅
  heap := fun _ => ⟨none, none, 0⟩
  next := 0
  closed := fun _ => false
  calls := 0
  clock := t
  phase := fun _ => .idle

def State.setPhase (s : State) (c : CallId) (p : Phase) : State :=
  { s with phase := Function.update s.phase c p }

/-! ### The locked sections -/

/-- `pruneLocked`: completed entries that have expired go; entries in flight stay. -/
def pruneLocked (now : Int) (s : State) : State :=
  let dead := fun (_ : RMCDedupKey) ref =>
    (s.heap ref).ready.isNone && !decide (now < (s.heap ref).expires)
  { s with entries := GoMap.deleteWhere dead s.entries }

/-- A fresh entry in flight under `k`, with a channel of its own. -/
def install (k : RMCDedupKey) (c : CallId) (s : State) : State :=
  { s with
    entries := s.entries.insert k s.next
    heap := Function.update s.heap s.next ⟨some s.next, none, 0⟩
    next := s.next + 1
    phase := Function.update s.phase c (.executing s.next) }

/-- The end of the locked section of `wrap`: run outside the table when it is full. -/
def claimOrBypass (cfg : Config) (k : RMCDedupKey) (c : CallId) (s : State) : State :=
  if cfg.maxEntries ≤ GoMap.len s.entries then s.setPhase c .direct else install k c s

/-- The head of the locked section of `wrap`: count the call and prune now and then. -/
def countAndPrune (cfg : Config) (now : Int) (s : State) : State :=
  let s := { s with calls := s.calls + 1 }
  if s.calls % 256 = 0 ∨ cfg.maxEntries ≤ GoMap.len s.entries then pruneLocked now s else s

/-- The locked section of `wrap` after counting and pruning. -/
def answerOrClaim (cfg : Config) (k : RMCDedupKey) (now : Int) (c : CallId) (s : State) : State :=
  match s.entries.lookup k with
  | some ref =>
    match (s.heap ref).ready with
    | some ready => s.setPhase c (.blocked ready)
    | none =>
      if now < (s.heap ref).expires then
        s.setPhase c (.returned (cloneRMC (s.heap ref).response))
      else
        claimOrBypass cfg k c { s with entries := s.entries.erase k }
  | none => claimOrBypass cfg k c s

/-- What the caller sees when `next` has ended. -/
def Outcome.phase : Outcome → Phase
  | .returned r => .returned r
  | .panicked => .panicked

/-- The response that the deferred function of `execute` sees: nil after a panic. -/
def Outcome.response : Outcome → Option RMCMessage
  | .returned r => r
  | .panicked => none

/-- The deferred function of `execute`, for the entry `ref` under `k`.  The last branch is where Go would
panic on closing a nil channel; the table invariant shows that it is never taken. -/
def settleEntry (cfg : Config) (k : RMCDedupKey) (ref : EntryRef) (o : Outcome) (s : State) : State :=
  if s.entries.lookup k = some ref then
    let s' :=
      match o.response with
      | none => { s with entries := s.entries.erase k }
      | some r =>
        let stored := { s.heap ref with response := cloneRMC (some r), expires := s.clock + cfg.ttl }
        { s with heap := Function.update s.heap ref stored }
    match (s'.heap ref).ready with
    | some ready =>
      { s' with
        closed := Function.update s'.closed ready true
        heap := Function.update s'.heap ref { s'.heap ref with ready := none } }
    | none => s'
  else
    s

/-! ### Steps -/

inductive Label
  /-- The clock moves to `t`. -/
  | tick (t : Int)
  | enter (c : CallId)
  | sample (c : CallId)
  /-- The locked section of `wrap`. -/
  | lock (c : CallId)
  /-- The channel a call is blocked on is closed. -/
  | wake (c : CallId)
  /-- `next` begins. -/
  | start (c : CallId)
  /-- `next` ends. -/
  | finish (c : CallId) (o : Outcome)
  /-- The locked section that `execute` defers. -/
  | settle (c : CallId)

/-- A deduplicator, the hash, and the arguments of every call that will ever be made. -/
structure Setup where
  cfg : Config
  sha256 : Bytes → BitVec 256
  args : CallId → Args

def Setup.key (S : Setup) (c : CallId) : Option RMCDedupKey := keyOf S.sha256 (S.args c)

/-- One step of the clock or of one call. -/
def step (S : Setup) (s : State) : Label → Option State
  | .tick t => if s.clock ≤ t then some { s with clock := t } else none
  | .enter c =>
    match s.phase c with
    | .idle => some (s.setPhase c (if (S.key c).isNone then .direct else .looping))
    | _ => none
  | .sample c =>
    match s.phase c with
    | .looping => some (s.setPhase c (.sampled s.clock))
    | _ => none
  | .lock c =>
    match s.phase c, S.key c with
    | .sampled now, some k => some (answerOrClaim S.cfg k now c (countAndPrune S.cfg now s))
    | _, _ => none
  | .wake c =>
    match s.phase c with
    | .blocked ready => if s.closed ready then some (s.setPhase c .looping) else none
    | _ => none
  | .start c =>
    match s.phase c with
    | .direct => some (s.setPhase c .directRunning)
    | .executing ref => some (s.setPhase c (.running ref))
    | _ => none
  | .finish c o =>
    match s.phase c with
    | .directRunning => some (s.setPhase c o.phase)
    | .running ref => some (s.setPhase c (.deferring ref o))
    | _ => none
  | .settle c =>
    match s.phase c, S.key c with
    | .deferring ref o, some k => some ((settleEntry S.cfg k ref o s).setPhase c o.phase)
    | _, _ => none

end NextendoMatchmaking.Dedup
