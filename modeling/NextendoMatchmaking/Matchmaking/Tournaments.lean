import NextendoMatchmaking.Matchmaking.Handlers

/-!
# Tournaments

The tournaments of `nextendo-nex/tournament.go`.  A player sends the structure of a tournament; the server
puts an id, a mark and a code into it, keeps it, and gives it to whoever asks.  The rest of the structure is
opaque: the field of the code is found by walking over the name and the rules.

The tournaments live in a store of their own.  It is filled from a file by the first call that needs it
(`tournamentInit`), not when the server starts.  A change only sets a flag here; the delayed writer that looks
at it is in `TournamentFile`.
-/

namespace NextendoMatchmaking.Matchmaking

/-! ### Data -/

def tournamentCodeLen : ℕ := 12
def tournamentMaxBlob : ℕ := 4096
def tournamentMax : ℕ := 2000
def tournamentNameLengthOffset : ℕ := 0x69

structure Tournament where
  id : UInt32
  owner : UInt64
  code : Bytes
  mark : Bytes
  blob : Bytes
  participants : List UInt64
  createdAt : Int
  deriving DecidableEq

/-- `tournamentStore`, with `tournamentOnce` and `tournamentDirty`. -/
structure TournamentStore where
  byID : GoMap UInt32 Tournament
  quarantined : List Tournament
  nextID : UInt32
  initialised : Bool
  dirty : Bool

/-- The store of a server that has just started. -/
def newTournamentStore : TournamentStore := ⟨∅, [], 1000, false, false⟩

/-- What the handlers read from outside. -/
structure TournamentEnv where
  /-- The list that the file holds; `none` if no file is set, or it cannot be read or decoded. -/
  file : Option (List (Option Tournament))
  /-- The random bytes of the mark and of the code. -/
  mark : Fin 8 → UInt8
  code : Fin 12 → UInt8
  now : Int
  /-- The order of the iteration over the tournaments. -/
  order : List UInt32

/-! ### The structure of a tournament -/

/-- The three bytes at `i` are those of an empty string. -/
def emptyCodeAt (b : Bytes) (i : ℕ) : Bool := (b.drop i).take 3 == [1, 0, 0]

/-- The scan of `tournamentCodeOffset` from a property of an unknown type. -/
def scanEmptyCode (b : Bytes) (pos : ℕ) : Option ℕ :=
  (List.range' pos (b.length - 2 - pos)).find? (emptyCodeAt b)

/-- The walk of `tournamentCodeOffset` over the properties, in at most `fuel` rounds. -/
def walkProperties (b : Bytes) : ℕ → ℕ → Option ℕ
  | 0, _ => none
  | fuel + 1, pos =>
    if b.length ≤ pos then none
    else if b.getD pos 0 = 0xFF then
      if pos + 5 + 3 ≤ b.length then some (pos + 5) else none
    else if b.length < pos + 2 then none
    else if b.getD (pos + 1) 0 = 0x01 then walkProperties b fuel (pos + 4)
    else if b.getD (pos + 1) 0 = 0x02 then walkProperties b fuel (pos + 5)
    else if b.getD (pos + 1) 0 = 0x04 then walkProperties b fuel (pos + 7)
    else scanEmptyCode b pos

/-- Every round moves on, so there are no more rounds than bytes. -/
theorem walkProperties_fuel (b : Bytes) (k fuel pos : ℕ) (h : b.length ≤ pos + fuel) :
    walkProperties b (fuel + k) pos = walkProperties b fuel pos := by
  induction fuel generalizing pos with
  | zero =>
    cases k with
    | zero => rfl
    | succ k =>
      rw [Nat.zero_add]
      exact if_pos h
  | succ fuel ih =>
    rw [show fuel + 1 + k = fuel + k + 1 by omega, walkProperties, walkProperties, ih (pos + 4) (by omega),
      ih (pos + 5) (by omega), ih (pos + 7) (by omega)]

/-- `tournamentCodeOffset`; `none` is its -1. -/
def tournamentCodeOffset (b : Bytes) : Option ℕ :=
  if b.length < tournamentNameLengthOffset + 2 then
    none
  else
    let nameLen := leNat ((b.drop tournamentNameLengthOffset).take 2)
    if nameLen < 2 ∨ nameLen % 2 ≠ 0 then
      none
    else
      let pos := tournamentNameLengthOffset + 2 + nameLen
      if b.length ≤ pos then none else walkProperties b b.length pos

/-- `validTournamentCode`. -/
def validTournamentCode (code : Bytes) : Bool :=
  code.length == tournamentCodeLen && code.all (fun d => 0x30 ≤ d && d ≤ 0x39)

/-- `tournamentCodeMatches`. -/
def tournamentCodeMatches (b code : Bytes) : Bool :=
  match tournamentCodeOffset b with
  | none => false
  | some i =>
    let n := leNat ((b.drop i).take 2)
    validTournamentCode code && i + 2 ≤ b.length && n == tournamentCodeLen + 1 && i + 2 + n ≤ b.length &&
      b.getD (i + 2 + n - 1) 0 == 0 && (b.drop (i + 2)).take tournamentCodeLen == code

/-- `validStoredTournament`, of a record that is there. -/
def validStoredTournament (x : Tournament) : Bool :=
  x.id != 0 && 12 ≤ x.blob.length && x.blob.length ≤ tournamentMaxBlob + tournamentCodeLen &&
    leNat (x.blob.take 4) == x.id.toNat && tournamentCodeMatches x.blob x.code

/-- `newTournamentCode`. -/
def newTournamentCode (random : Fin 12 → UInt8) : Bytes := (List.ofFn random).map (fun v => 0x30 + v % 10)

/-- `stampTournament`. -/
def stampTournament (payload : Bytes) (id : UInt32) (mark code : Bytes) : Bytes :=
  if payload.length < 12 then
    payload
  else
    let out := StreamOut.u32 id ++ mark.take 8 ++ payload.drop (4 + (mark.take 8).length)
    match tournamentCodeOffset out with
    | none => out
    | some i =>
      if !validTournamentCode code || !emptyCodeAt out i then out
      else
        let str := StreamOut.u16 (UInt16.ofNat (code.length + 1)) ++ code ++ [0]
        out.take i ++ str ++ out.drop (i + 3)

/-! ### The store -/

/-- One record of the file.  An id that was ever given is not given again; a record that does not pass the
check is kept aside. -/
def restore (t : TournamentStore) : Option Tournament → TournamentStore
  | none => t
  | some x =>
    if x.id = 0 then
      t
    else
      let t := { t with nextID := if t.nextID ≤ x.id then x.id + 1 else t.nextID }
      if validStoredTournament x then { t with byID := t.byID.insert x.id x }
      else { t with quarantined := t.quarantined ++ [x] }

/-- A record of the file that passes the check. -/
theorem restore_valid {t : TournamentStore} {x : Tournament} (hid : x.id ≠ 0)
    (hvalid : validStoredTournament x = true) :
    restore t (some x) = { t with
      nextID := if t.nextID ≤ x.id then x.id + 1 else t.nextID
      byID := t.byID.insert x.id x } := by
  unfold restore
  dsimp only
  rw [if_neg hid, if_pos hvalid]

/-- A record of the file that does not pass the check. -/
theorem restore_invalid {t : TournamentStore} {x : Tournament} (hid : x.id ≠ 0)
    (hinvalid : validStoredTournament x = false) :
    restore t (some x) = { t with
      nextID := if t.nextID ≤ x.id then x.id + 1 else t.nextID
      quarantined := t.quarantined ++ [x] } := by
  unfold restore
  dsimp only
  rw [if_neg hid, hinvalid]
  rfl

/-- `tournamentInit`. -/
def tournamentInit (env : TournamentEnv) (t : TournamentStore) : TournamentStore :=
  if t.initialised then t
  else (env.file.getD []).foldl restore { t with initialised := true }

/-- `CreateTournament`. -/
def createTournament (env : TournamentEnv) (owner : UInt64) (payload : Bytes) (t : TournamentStore) :
    TournamentStore × Option Tournament :=
  let t := tournamentInit env t
  match tournamentCodeOffset payload with
  | none => (t, none)
  | some i =>
    if payload.length = 0 ∨ tournamentMaxBlob < payload.length ∨ emptyCodeAt payload i = false then
      (t, none)
    else if tournamentMax ≤ GoMap.len t.byID then
      (t, none)
    else
      let id := t.nextID
      let t := { t with nextID := id + 1 }
      let mark := List.ofFn env.mark
      let code := newTournamentCode env.code
      let x : Tournament := {
        id, owner, code, mark
        blob := stampTournament payload id mark code
        participants := [owner]
        createdAt := env.now }
      if validStoredTournament x then ({ t with byID := t.byID.insert id x, dirty := true }, some x)
      else (t, none)

/-- The record under `id`, if it passes the check: what every later call looks at. -/
def TournamentStore.find (t : TournamentStore) (id : UInt32) : Option Tournament :=
  (t.byID.lookup id).filter validStoredTournament

/-- `tournamentByID`. -/
def tournamentByID (env : TournamentEnv) (id : UInt32) (t : TournamentStore) :
    TournamentStore × Option Tournament :=
  let t := tournamentInit env t
  (t, t.find id)

/-- `allTournaments`. -/
def allTournaments (env : TournamentEnv) (t : TournamentStore) : TournamentStore × List Tournament :=
  let t := tournamentInit env t
  (t, env.order.filterMap t.find)

/-- `joinTournament`. -/
def joinTournament (env : TournamentEnv) (id : UInt32) (pid : UInt64) (t : TournamentStore) :
    TournamentStore × Bool :=
  let t := tournamentInit env t
  match t.find id with
  | none => (t, false)
  | some x =>
    if containsPID x.participants pid then
      (t, true)
    else
      let x := { x with participants := x.participants ++ [pid] }
      ({ t with byID := t.byID.insert id x, dirty := true }, true)

/-- `deleteTournament`: for the owner only. -/
def deleteTournament (env : TournamentEnv) (id : UInt32) (pid : UInt64) (t : TournamentStore) :
    TournamentStore × Bool :=
  let t := tournamentInit env t
  match t.find id with
  | none => (t, false)
  | some x =>
    if x.owner ≠ pid then (t, false) else ({ t with byID := t.byID.erase id, dirty := true }, true)

/-! ### The first call -/

theorem initialised_restore (list : List (Option Tournament)) (t : TournamentStore) :
    (list.foldl restore t).initialised = t.initialised := by
  induction list generalizing t with
  | nil => rfl
  | cons x list ih =>
    rw [List.foldl_cons, ih]
    cases x with
    | none => rfl
    | some x =>
      unfold restore
      dsimp only
      split
      · rfl
      · split <;> rfl

theorem initialised_tournamentInit (env : TournamentEnv) (t : TournamentStore) :
    (tournamentInit env t).initialised = true := by
  unfold tournamentInit
  split
  · assumption
  · exact initialised_restore _ _

theorem tournamentInit_of_initialised {t : TournamentStore} (env : TournamentEnv) (h : t.initialised = true) :
    tournamentInit env t = t := if_pos h

/-- The first call of a server whose file holds one record. -/
theorem tournamentInit_first {env : TournamentEnv} {t : TournamentStore} {x : Tournament}
    (hfile : env.file = some [some x]) (h : t.initialised = false) :
    tournamentInit env t = restore { t with initialised := true } (some x) := by
  unfold tournamentInit
  rw [hfile, if_neg (by simp [h])]
  rfl

/-! ### Handlers -/

variable (env : TournamentEnv) (conn : Caller) (req : RMCMessage) (t : TournamentStore)

/-- A success of the extension for this request. -/
def tournamentAck (body : Bytes) : RMCMessage :=
  newRMCSuccess protocolMatchmakeExtension req.method req.callID body

/-- The method `createTournament`. -/
def createTournamentHandler : TournamentStore × RMCMessage :=
  let refused := newRMCError protocolMatchmakeExtension req.callID resultCoreInvalidArgument
  match req.body with
  | ver :: b₀ :: b₁ :: b₂ :: b₃ :: rest =>
    let ln := leNat [b₀, b₁, b₂, b₃]
    if ln = 0 ∨ rest.length < ln then
      (t, refused)
    else
      match createTournament env conn.pid (rest.take ln) t with
      | (t, none) => (t, refused)
      | (t, some x) =>
        (t, tournamentAck req ([ver] ++ StreamOut.u32 (UInt32.ofNat x.blob.length) ++ x.blob))
  | _ => (t, refused)

/-- `writeTournamentList`. -/
def writeTournamentList (list : List Tournament) : Bytes :=
  let valid := list.filter validStoredTournament
  StreamOut.u32 (UInt32.ofNat valid.length) ++
    valid.flatMap (fun x => [1] ++ StreamOut.u32 (UInt32.ofNat x.blob.length) ++ x.blob)

/-- The loop of `tournamentsByIDs` over the ids of the request, until they are all read or a read fails. -/
def findTournaments : ℕ → StreamIn → TournamentStore → TournamentStore × List Tournament
  | 0, _, t => (t, [])
  | n + 1, s, t =>
    if s.err then
      (t, [])
    else
      let (id, s) := StreamIn.u32 s
      let (t, found) := tournamentByID env id t
      let (t, rest) := findTournaments n s t
      (t, found.toList ++ rest)

/-- `tournamentsByIDs`. -/
def tournamentsByIDs : TournamentStore × RMCMessage :=
  let (n, s) := StreamIn.u32 (newStreamIn req.body)
  let (t, found) := findTournaments env n.toNat s t
  (t, tournamentAck req (writeTournamentList found))

/-- `searchTournaments`. -/
def searchTournaments : TournamentStore × RMCMessage :=
  let (t, list) := allTournaments env t
  (t, tournamentAck req (writeTournamentList (list.take 100)))

/-- The id in the first four bytes of a body. -/
def tournamentID (body : Bytes) : UInt32 := UInt32.ofNat (leNat (body.take 4))

/-- `removeTournament`: the answer does not say whether anything was deleted. -/
def removeTournament : TournamentStore × RMCMessage :=
  let t := if 4 ≤ req.body.length then (deleteTournament env (tournamentID req.body) conn.pid t).1 else t
  (t, tournamentAck req [])

/-- `registerTournament`. -/
def registerTournament : TournamentStore × RMCMessage :=
  let t := if 4 ≤ req.body.length then (joinTournament env (tournamentID req.body) conn.pid t).1 else t
  (t, tournamentAck req [])

/-- The methods of `ExtensionHandler` that work on the tournaments. -/
def tournamentHandler : TournamentStore × RMCMessage :=
  if req.method = Method.ssbuPreMatch then tournamentsByIDs env req t
  else if req.method = Method.tournamentSearch then searchTournaments env req t
  else if req.method = Method.tournamentCreate then createTournamentHandler env conn req t
  else if req.method = Method.tournamentDelete then removeTournament env conn req t
  else registerTournament env conn req t

/-- `ExtensionHandler` passes the request on to the tournaments. -/
def asksTournaments : Bool :=
  (req.method = Method.ssbuPreMatch && isTournamentIDList req.body) ||
    req.method ∈ [Method.tournamentSearch, Method.tournamentCreate, Method.tournamentDelete,
      Method.tournamentJoin]

end NextendoMatchmaking.Matchmaking
