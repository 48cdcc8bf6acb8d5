import NextendoMatchmaking.Library.GoMap
import NextendoMatchmaking.Library.Runs
import NextendoMatchmaking.Wire.Stream
import Mathlib.Data.List.DropRight

/-!
# The identity of a login

`resolveUser` of `server/main.go` with what it calls: the signed tokens of the account service, the token that
an emulator puts into the extra data of its login, and the resolution of the NSA id of a console in
`server/gates.go`, with its two caches.

Several logins run at once and share the caches, so a login is a sequence of steps: each locked section, the
place in `nsaInflight`, and each answer of the account service is one.  What the servers take from Go's
`crypto`, `encoding/base64` and `encoding/json` is given (`Given`).
-/

namespace NextendoMatchmaking.Login

/-! ### Texts -/

/-- A separator, `.`. -/
def dot : UInt8 := 46

/-- The digits of `strconv`, most significant first. -/
def parseDigits (s : Bytes) : Option ℕ :=
  s.foldlM (fun n b => if 48 ≤ b ∧ b ≤ 57 then some (10 * n + (b.toNat - 48)) else none) 0

/-- `strconv.ParseUint(s, 10, 64)`. -/
def parseUint (s : Bytes) : Option UInt64 :=
  if s = [] then none
  else (parseDigits s).bind (fun n => if n < 2 ^ 64 then some (UInt64.ofNat n) else none)

/-- `strconv.ParseInt(s, 10, 64)`. -/
def parseInt (s : Bytes) : Option Int :=
  let (negative, s') := match s with
    | 45 :: rest => (true, rest)
    | 43 :: rest => (false, rest)
    | _ => (false, s)
  (parseUint s').bind (fun n =>
    if negative then
      if n.toNat ≤ 2 ^ 63 then some (-(n.toNat : Int)) else none
    else
      if n.toNat < 2 ^ 63 then some n.toNat else none)

/-- `strings.SplitN(s, ".", n)` for `n > 0`: the last part keeps its separators. -/
def splitN (s : Bytes) (n : ℕ) : List Bytes :=
  let parts := s.splitOn dot
  if parts.length ≤ n then parts
  else parts.take (n - 1) ++ [[dot].intercalate (parts.drop (n - 1))]

/-! ### Signed tokens -/

/-- Functions of the standard library.  The `json` functions give a field of the document, its zero value where
the document does not have it, and `none` for what is no such document. -/
structure Given where
  sha256 : Bytes → Bytes
  hmacSHA256 : Bytes → Bytes → Bytes
  /-- `base64.RawURLEncoding`. -/
  encodeBase64 : Bytes → Bytes
  decodeBase64 : Bytes → Option Bytes
  nnexClaim : Bytes → Option Bytes
  pidField : Bytes → Option UInt64
  allowField : Bytes → Option Bool

/-- The variables of the environment, and `nextendoSecret`. -/
structure Gates where
  requireAccountVar : Bytes
  requireSignedTokenVar : Bytes
  secret : Bytes

/-- `requireAccount`: the variable is `1`. -/
def Gates.requireAccount (g : Gates) : Bool := g.requireAccountVar = [49]

/-- `requireSignedToken`: the variable is `1` or `true`. -/
def Gates.requireSignedToken (g : Gates) : Bool :=
  g.requireSignedTokenVar = [49] ∨ g.requireSignedTokenVar = [116, 114, 117, 101]

/-- `nx2.` -/
def tokenPrefix : Bytes := [110, 120, 50, 46]

/-- `nex:` -/
def signedPrefix : Bytes := [110, 101, 120, 58]

/-- `revokedNexPayloads`: `1800000006.Kazuu.1787343209`. -/
def revokedNexPayloads : List Bytes :=
  [[49, 56, 48, 48, 48, 48, 48, 48, 48, 54, 46, 75, 97, 122, 117, 117, 46,
    49, 55, 56, 55, 51, 52, 51, 50, 48, 57]]

/-- `nextendoPIDFromToken`, at the time `now` in seconds. -/
def nextendoPIDFromToken (gv : Given) (g : Gates) (now : Int) (s : Bytes) : Option UInt64 :=
  if g.secret.length = 0 ∨ ¬ tokenPrefix <+: s then none
  else
    match (s.drop tokenPrefix.length).splitOn dot with
    | [payload, signature] => do
      let raw ← gv.decodeBase64 payload
      let want := gv.encodeBase64 (gv.hmacSHA256 g.secret (signedPrefix ++ raw))
      if want ≠ signature then none
      else if raw ∈ revokedNexPayloads then none
      else
        match splitN raw 3 with
        | [pidText, _, expiry] => do
          let pid ← parseUint pidText
          let exp ← parseInt expiry
          if now > exp then none else some pid
        | _ => none
    | _ => none

/-! ### The token in the extra data -/

/-- `eyJ`, with which a JWT begins. -/
def jwtStart : Bytes := [101, 121, 74]

def isJWTByte (b : UInt8) : Bool :=
  b = dot ∨ b = 45 ∨ b = 95 ∨ (48 ≤ b ∧ b ≤ 57) ∨ (65 ≤ b ∧ b ≤ 90) ∨ (97 ≤ b ∧ b ≤ 122)

/-- What follows the first place where `pattern` begins, with the pattern (`bytes.Index`). -/
def fromFirst (pattern : Bytes) : Bytes → Option Bytes
  | [] => if pattern = [] then some [] else none
  | b :: rest => if pattern <+: b :: rest then some (b :: rest) else fromFirst pattern rest

/-- `bytes.TrimRight(s, "=")`. -/
def trimPadding (s : Bytes) : Bytes := s.rdropWhile (· = 61)

/-- `NexTokenFromLoginExtraData`. -/
def nexTokenFromLoginExtraData (gv : Given) (extraData : Bytes) : Option Bytes :=
  match fromFirst jwtStart extraData with
  | none => none
  | some rest =>
    match (rest.takeWhile isJWTByte).splitOn dot with
    | _ :: segment :: _ => do
      let payload ← gv.decodeBase64 (trimPadding segment)
      let nnex ← gv.nnexClaim payload
      if nnex = [] then none else some nnex
    | _ => none

/-! ### The steps of a login -/

/-- `nsaStatus`. -/
inductive NSAStatus
  | ok
  | unknown
  | unreachable
  deriving DecidableEq

/-- `nsaNegEntry`, with its time in nanoseconds. -/
structure NSANegEntry where
  status : NSAStatus
  time : Int
  deriving DecidableEq

def nsaNegTTL : Int := 60000000000
def nsaMaxInflight : ℕ := 16
def nsaNegCacheMax : ℕ := 4096

/-- The `kind` that the account service is told. -/
inductive Kind
  | ryujinx
  | switch
  deriving DecidableEq

/-- Where a login stands. -/
inductive Phase
  /-- Before the first locked section of `resolveNSAtoPID`. -/
  | lookup (nsa : UInt64)
  /-- Before the `select` on `nsaInflight`. -/
  | acquire (nsa : UInt64)
  /-- `/api/nsa` has been asked. -/
  | asking (nsa : UInt64)
  /-- Before `rememberNSAFailure`. -/
  | failing (nsa : UInt64) (status : NSAStatus)
  /-- Before the last locked section. -/
  | storing (nsa pid : UInt64)
  /-- Before the place in `nsaInflight` is given back. -/
  | releasing (pid : UInt64) (status : NSAStatus)
  /-- `/internal/online-check` has been asked. -/
  | checking (pid : UInt64) (kind : Kind)
  /-- The login has the PID and the source key, or it is rejected. -/
  | done (result : Option (UInt64 × Bytes))
  deriving DecidableEq

/-- A call of `resolveUser`. -/
structure LoginAttempt where
  username : Bytes
  extraData : Bytes
  phase : Phase
  deriving DecidableEq

structure AuthState where
  nsaCache : GoMap UInt64 UInt64 := ∅
  nsaNegCache : GoMap UInt64 NSANegEntry := ∅
  nsaInflight : ℕ := 0
  attempts : GoMap ℕ LoginAttempt := ∅

/-- An answer of the account service. -/
inductive Response
  /-- The request fails. -/
  | error
  | status (code : ℕ) (body : Bytes)
  deriving DecidableEq

/-- What happens next, and to which login. -/
inductive AuthLabel
  /-- A login begins; the times are those at which the token of the user name and the token of the extra data
  are checked. -/
  | start (id : ℕ) (username extraData : Bytes) (now now' : Int)
  | lookup (id : ℕ) (now : Int)
  | acquire (id : ℕ)
  /-- The account service answers for an NSA id. -/
  | answer (id : ℕ) (nsa : UInt64) (response : Response)
  | remember (id : ℕ) (now : Int)
  | store (id : ℕ)
  | release (id : ℕ)
  /-- The account service answers the online check. -/
  | online (id : ℕ) (response : Response)
  deriving DecidableEq

/-- The source key: the digest of `nextendo-src:` and the user name. -/
def sourceKeyOf (gv : Given) (username : Bytes) : Bytes :=
  gv.sha256 ([110, 101, 120, 116, 101, 110, 100, 111, 45, 115, 114, 99, 58] ++ username)

/-- The 32-bit FNV-1a digest, as Go's `hash/fnv` gives it. -/
def fnv32a (data : Bytes) : UInt32 := data.foldl (fun h b => (h ^^^ b.toUInt32) * 16777619) 2166136261

/-- `anonymousPID`. -/
def anonymousPID (username : Bytes) : UInt64 := 1800000000 + (fnv32a username % 100000000).toUInt64

/-- `resolveUser` for a name that is no Nextendo identity. -/
def anonymous (gv : Given) (g : Gates) (username : Bytes) : Phase :=
  if g.requireAccount then .done none else .done (some (anonymousPID username, sourceKeyOf gv username))

/-- `resolveUser` up to its first call to the account service. -/
def resolveUser (gv : Given) (g : Gates) (username extraData : Bytes) (now now' : Int) : Phase :=
  match nextendoPIDFromToken gv g now username with
  | some pid => .checking pid .ryujinx
  | none =>
    match parseUint username with
    | none => anonymous gv g username
    | some n =>
      if n < 1800000000 then anonymous gv g username
      else
        let proven := (nexTokenFromLoginExtraData gv extraData).bind (nextendoPIDFromToken gv g now')
        if n < 1810000000 then
          if g.requireSignedToken ∧ proven ≠ some n then .done none else .checking n .ryujinx
        else
          .lookup n

/-- What `resolveUser` does with the result of `resolveNSAtoPID`. -/
def afterNSA (pid : UInt64) : NSAStatus → Phase
  | .ok => .checking pid .switch
  | .unknown => .done none
  | .unreachable => .done none

/-- What `resolveNSAtoPID` makes of an answer. -/
def nsaAnswered (gv : Given) (nsa : UInt64) : Response → Phase
  | .error => .failing nsa .unreachable
  | .status code body =>
    if code = 404 then .failing nsa .unknown
    else if code ≠ 200 then .failing nsa .unreachable
    else
      match gv.pidField body with
      | none => .failing nsa .unreachable
      | some pid => if pid = 0 then .failing nsa .unreachable else .storing nsa pid

/-- `nextendoOnlineCheck`: without an answer that can be read the login goes on. -/
def nextendoOnlineCheck (gv : Given) : Response → Bool
  | .error => true
  | .status _ body => (gv.allowField body).getD true

/-- `rememberNSAFailure`. -/
def rememberNSAFailure (s : AuthState) (nsa : UInt64) (status : NSAStatus) (now : Int) : AuthState :=
  let cache := if nsaNegCacheMax ≤ s.nsaNegCache.len then ∅ else s.nsaNegCache
  { s with nsaNegCache := cache.insert nsa ⟨status, now⟩ }

/-- The first locked section of `resolveNSAtoPID`. -/
def nsaLookup (s : AuthState) (nsa : UInt64) (now : Int) : Phase :=
  match s.nsaCache.lookup nsa with
  | some pid => afterNSA pid .ok
  | none =>
    match s.nsaNegCache.lookup nsa with
    | some entry => if now - entry.time < nsaNegTTL then afterNSA 0 entry.status else .acquire nsa
    | none => .acquire nsa

/-- A step of a login that has begun: the state that the logins share, and where the login then stands. -/
def move (gv : Given) (s : AuthState) (a : LoginAttempt) (label : AuthLabel) : Option (AuthState × Phase) :=
  match a.phase, label with
  | .lookup nsa, .lookup _ now => some (s, nsaLookup s nsa now)
  | .acquire nsa, .acquire _ =>
    if s.nsaInflight < nsaMaxInflight then
      some ({ s with nsaInflight := s.nsaInflight + 1 }, .asking nsa)
    else
      some (s, afterNSA 0 .unreachable)
  | .asking nsa, .answer _ nsa' response => if nsa = nsa' then some (s, nsaAnswered gv nsa response) else none
  | .failing nsa status, .remember _ now => some (rememberNSAFailure s nsa status now, .releasing 0 status)
  | .storing nsa pid, .store _ =>
    some ({ s with nsaCache := s.nsaCache.insert nsa pid, nsaNegCache := s.nsaNegCache.erase nsa },
      .releasing pid .ok)
  | .releasing pid status, .release _ =>
    some ({ s with nsaInflight := s.nsaInflight - 1 }, afterNSA pid status)
  | .checking pid _, .online _ response =>
    some (s, .done (if nextendoOnlineCheck gv response then some (pid, sourceKeyOf gv a.username) else none))
  | _, _ => none

/-- The login that a label is about. -/
def AuthLabel.attempt : AuthLabel → ℕ
  | start id .. => id
  | lookup id _ => id
  | acquire id => id
  | answer id .. => id
  | remember id _ => id
  | store id => id
  | release id => id
  | online id _ => id

def AuthState.put (s : AuthState) (id : ℕ) (a : LoginAttempt) : AuthState :=
  { s with attempts := s.attempts.insert id a }

def authStep (gv : Given) (g : Gates) (s : AuthState) (label : AuthLabel) : Option AuthState :=
  match s.attempts.lookup label.attempt with
  | none =>
    match label with
    | .start id username extraData now now' =>
      some (s.put id ⟨username, extraData, resolveUser gv g username extraData now now'⟩)
    | _ => none
  | some a => (move gv s a label).map (fun r => r.1.put label.attempt { a with phase := r.2 })

end NextendoMatchmaking.Login
