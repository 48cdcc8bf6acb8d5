import NextendoMatchmaking.Library.Ordered
import NextendoMatchmaking.Login.Identity
import NextendoMatchmaking.Wire.Rmc

/-!
# Station URLs

`StationURL` of `nextendo-nex/types.go`, an address of the form `scheme:/key=value;key=value`, and
`handleReplaceURL` of `secureconnection.go`, with which a console reports its station again.  The parameters
keep the order in which they were first set.
-/

namespace NextendoMatchmaking.Endpoint

open NextendoMatchmaking.Ordered

/-! ### Numbers in decimal digits -/

/-- `strconv.Itoa`. -/
def itoa (n : Int) : Bytes :=
  (if n < 0 then [45] else []) ++ (Nat.toDigits 10 n.natAbs).map (fun c => UInt8.ofNat c.toNat)

/-- The digits of a number as bytes. -/
theorem toNat_digit {n : ℕ} {c : Char} (h : c ∈ Nat.toDigits 10 n) :
    (UInt8.ofNat c.toNat).toNat = c.toNat ∧ 48 ≤ c.toNat ∧ c.toNat ≤ 57 := by
  have hdigit := Nat.isDigit_of_mem_toDigits (by decide) (by decide) h
  simp only [Char.isDigit, ge_iff_le, Bool.and_eq_true, decide_eq_true_eq, UInt32.le_iff_toNat_le] at hdigit
  have hlow : 48 ≤ c.toNat := hdigit.1
  have hhigh : c.toNat ≤ 57 := hdigit.2
  refine ⟨?_, hlow, hhigh⟩
  rw [UInt8.toNat_ofNat']
  omega

theorem mem_itoa {n : Int} {b : UInt8} (h : b ∈ itoa n) : b = 45 ∨ 48 ≤ b ∧ b ≤ 57 := by
  rcases List.mem_append.mp h with h | h
  · split at h
    · exact .inl (List.mem_singleton.mp h)
    · cases h
  · obtain ⟨c, hc, rfl⟩ := List.mem_map.mp h
    obtain ⟨hbyte, hlow, hhigh⟩ := toNat_digit hc
    right
    rw [UInt8.le_iff_toNat_le, UInt8.le_iff_toNat_le, hbyte]
    exact ⟨hlow, hhigh⟩

/-- The loop of `strconv.ParseUint` with the number read so far: 0 at a byte that is no digit, and the greatest
`uint64` at the digit with which the number leaves 64 bits, whatever follows it. -/
def parseUintLoop : ℕ → Bytes → ℕ
  | n, [] => n
  | n, b :: rest =>
    if 48 ≤ b ∧ b ≤ 57 then
      if 2 ^ 64 ≤ 10 * n + (b.toNat - 48) then 2 ^ 64 - 1 else parseUintLoop (10 * n + (b.toNat - 48)) rest
    else 0

/-- The number that `strconv.Atoi` returns, with or without an error: 0 for what is no number, and the nearest
`int` for what does not fit. -/
def atoi (s : Bytes) : Int :=
  let (negative, s') := match s with
    | 45 :: rest => (true, rest)
    | 43 :: rest => (false, rest)
    | _ => (false, s)
  let n := parseUintLoop 0 s'
  if negative then max (-(n : Int)) (-2 ^ 63) else min (n : Int) (2 ^ 63 - 1)

/-- The conversion `int(v)`. -/
def intOfUInt64 (v : UInt64) : Int := if v.toNat < 2 ^ 63 then v.toNat else v.toNat - 2 ^ 64

/-! ### Station URLs -/

/-- `StationURL`: the keys with their values, in the order of the keys. -/
structure StationURL where
  scheme : Bytes
  params : List (Bytes × Bytes)
  nodup : (params.map Prod.fst).Nodup
  deriving DecidableEq

namespace StationURL

/-- The URL of an empty text. -/
def empty : StationURL := ⟨[], [], List.nodup_nil⟩

/-- `Set`. -/
def set (u : StationURL) (k v : Bytes) : StationURL := ⟨u.scheme, put k v u.params, nodup_put u.nodup k v⟩

/-- `SetInt`. -/
def setInt (u : StationURL) (k : Bytes) (v : Int) : StationURL := u.set k (itoa v)

/-- `Get`. -/
def get (u : StationURL) (k : Bytes) : Bytes := (u.params.lookup k).getD []

/-- `GetInt`. -/
def getInt (u : StationURL) (k : Bytes) : Int := atoi (u.get k)

/-- `String`. -/
def render (u : StationURL) : Bytes :=
  let joined := [59].intercalate (u.params.map (fun e => e.1 ++ [61] ++ e.2))
  if u.scheme ≠ [] then u.scheme ++ [58, 47] ++ joined else joined

end StationURL

/-- A text up to its first `:/`, and what follows. -/
def cutScheme : Bytes → Option (Bytes × Bytes)
  | [] => none
  | b :: rest =>
    if b = 58 ∧ rest.head? = some 47 then some ([], rest.drop 1)
    else (cutScheme rest).map (fun (before, after) => (b :: before, after))

/-- A field up to its first `=`, and what follows. -/
def cutField (f : Bytes) : Option (Bytes × Bytes) :=
  if 61 ∈ f then some (f.takeWhile (· ≠ 61), (f.dropWhile (· ≠ 61)).drop 1) else none

/-- `ParseStationURL`. -/
def parseStationURL (s : Bytes) : StationURL :=
  match cutScheme s with
  | none => .empty
  | some (scheme, fields) =>
    if fields = [] then { StationURL.empty with scheme }
    else (fields.splitOn 59).foldl (fun u f =>
      match cutField f with
      | none => u
      | some (k, v) => u.set k v) { StationURL.empty with scheme }

/-- `StationURLValue`. -/
def StreamIn.stationURL : Reader StationURL := parseStationURL <$> NextendoMatchmaking.StreamIn.string

/-- The keys `address`, `PID` and `RVCID`. -/
def addressKey : Bytes := [97, 100, 100, 114, 101, 115, 115]
def pidKey : Bytes := [80, 73, 68]
def rvcidKey : Bytes := [82, 86, 67, 73, 68]

/-! ### ReplaceURL -/

def protocolSecureConnection : UInt16 := 0x0B
def methodReplaceURL : UInt32 := 0x7

def StationURL.address (u : StationURL) : Bytes := u.get addressKey

/-- The loops of `handleReplaceURL`: the stations by address, the last of each, and `new` as the last of all. -/
def replaceStations (stations : List StationURL) (new : StationURL) : List StationURL :=
  (collect StationURL.address (stations ++ [new])).map Prod.snd

/-- `handleReplaceURL` of a connection with this PID and these stations.  `StationURLValue` never gives nil,
so the branch for nil is not there. -/
def handleReplaceURL (pid : UInt64) (stations : List StationURL) (req : RMCMessage) :
    List StationURL × RMCMessage :=
  let (newStation, _) := NextendoMatchmaking.StreamIn.run (do
    let _ ← StreamIn.stationURL
    StreamIn.stationURL) req.body
  (replaceStations stations (newStation.setInt pidKey (intOfUInt64 pid)),
    newRMCSuccess protocolSecureConnection req.method req.callID [])

/-- `prudp:/address=10.0.0.1;PID=7` -/
example : (parseStationURL [112, 114, 117, 100, 112, 58, 47, 97, 100, 100, 114, 101, 115, 115, 61, 49, 48, 46,
    48, 46, 48, 46, 49, 59, 80, 73, 68, 61, 55]).getInt pidKey = 7 := by decide

end NextendoMatchmaking.Endpoint
