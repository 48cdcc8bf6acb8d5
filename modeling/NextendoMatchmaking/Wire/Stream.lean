import NextendoMatchmaking.Library.GoMap

/-!
# NEX streams

The little-endian value streams of `nextendo-nex/stream.go` and the settings of `settings.go` that drive
them.

* An output stream is the list of bytes written so far, so every `StreamOut` method is the function that
  gives the bytes it appends.
* An input stream is the bytes not yet read together with the sticky error flag; every `StreamIn` method
  is a state transformer.  After an underflow each read returns the zero value and consumes nothing.
  Two ghost flags, which nothing reads, remember whether a read has failed anywhere, also in a substream, and
  whether a substream has ended in an error.

Go strings are byte strings, and a `float64` is its bit pattern, which is all that the streams look at.
A Go `int` has 64 bits on the servers this runs on, so a length read from the wire is never negative.
-/

namespace NextendoMatchmaking

/-- A byte string (a Go `[]byte`, or the bytes of a Go `string`). -/
abbrev Bytes := List UInt8

/-- The settings that the modelled functions read (`settings.go`). -/
structure Settings where
  nexVersion : Int
  structHeader : Bool
  pidSize : Int
  accessKey : Bytes
  prudpMinorVersion : Int
  supportedFunctions : Int
  fragmentSize : Int
  kerberosKeySize : Int
  kerberosTicketVersion : Int
  deriving DecidableEq

/-- `NewSwitchSettings`. -/
def newSwitchSettings (accessKey : Bytes) (nexVersion : Int) : Settings where
  nexVersion := nexVersion
  structHeader := true
  pidSize := 8
  accessKey := accessKey
  prudpMinorVersion := 5
  supportedFunctions := 0
  fragmentSize := 1300
  kerberosKeySize := 32
  kerberosTicketVersion := 1

/-! ### Fixed-width little-endian integers -/

/-- The `w` low bytes of `n`, least significant first. -/
def leBytes : ℕ → ℕ → Bytes
  | 0, _ => []
  | w + 1, n => UInt8.ofNat n :: leBytes w (n / 256)

/-- The number whose little-endian bytes are given. -/
def leNat : Bytes → ℕ
  | [] => 0
  | b :: bs => b.toNat + 256 * leNat bs

/-! ### Output -/

namespace StreamOut

def u8 (v : UInt8) : Bytes := [v]
def u16 (v : UInt16) : Bytes := leBytes 2 v.toNat
def u32 (v : UInt32) : Bytes := leBytes 4 v.toNat
def u64 (v : UInt64) : Bytes := leBytes 8 v.toNat

def bool (v : Bool) : Bytes := if v then u8 1 else u8 0

/-- `PID`: 8 or 4 bytes, as the settings say. -/
def pid (s : Settings) (v : UInt64) : Bytes := if s.pidSize = 8 then u64 v else u32 v.toUInt32

/-- `String`: a `u16` length that counts the terminator, the bytes, the terminator. -/
def string (str : Bytes) : Bytes :=
  let data := str ++ [0]
  u16 (UInt16.ofNat data.length) ++ data

def buffer (b : Bytes) : Bytes := u32 (UInt32.ofNat b.length) ++ b

/-- `QBuffer`: a `u16` length and the bytes. -/
def qBuffer (b : Bytes) : Bytes := u16 (UInt16.ofNat b.length) ++ b

def dateTime (v : UInt64) : Bytes := u64 v

/-- `WriteList`. -/
def list {α : Type} (f : α → Bytes) (l : List α) : Bytes :=
  u32 (UInt32.ofNat l.length) ++ l.flatMap f

/-- `WriteMap`: the pairs follow in the order in which the runtime happens to iterate. -/
def map {κ ν : Type} [DecidableEq κ] (kf : κ → Bytes) (vf : ν → Bytes) (order : List κ)
    (m : GoMap κ ν) : Bytes :=
  u32 (UInt32.ofNat (GoMap.len m)) ++ order.flatMap (fun k =>
    match m.lookup k with
    | some v => kf k ++ vf v
    | none => [])

end StreamOut

/-! ### Input -/

/-- `StreamIn`: what is left of the data, and whether a read has failed. -/
structure StreamIn where
  rest : Bytes
  err : Bool
  /-- Ghost: a read of this stream, or of a substream that was read from it, has failed. -/
  failed : Bool
  /-- Ghost: a substream that was read from this stream, directly or through others, ended before its fields. -/
  cut : Bool
  deriving DecidableEq

/-- `NewStreamIn`. -/
def newStreamIn (data : Bytes) : StreamIn := ⟨data, false, false, false⟩

/-- A method of `StreamIn`. -/
abbrev Reader := StateM StreamIn

namespace StreamIn

/-- `Read`: the next `n` bytes, or nil and the error. -/
def read (n : ℕ) : Reader (Option Bytes) := fun s =>
  if s.err ∨ s.rest.length < n then
    (none, { s with err := s.err || n != 0, failed := true })
  else
    (some (s.rest.take n), { s with rest := s.rest.drop n })

/-- `Read` of a size that is a Go `int`: a negative one fails. -/
def readInt (n : Int) : Reader (Option Bytes) :=
  if n < 0 then fun s => (none, { s with err := true, failed := true }) else read n.toNat

/-- The fixed-width readers: zero when the read fails. -/
def uint (w : ℕ) : Reader ℕ := do
  match ← read w with
  | none => return 0
  | some b => return leNat b

def u8 : Reader UInt8 := UInt8.ofNat <$> uint 1
def u16 : Reader UInt16 := UInt16.ofNat <$> uint 2
def u32 : Reader UInt32 := UInt32.ofNat <$> uint 4
def u64 : Reader UInt64 := UInt64.ofNat <$> uint 8

def bool : Reader Bool := (· != 0) <$> u8

/-- `PID`: 8 or 4 bytes, as the settings say. -/
def pid (s : Settings) : Reader UInt64 :=
  if s.pidSize = 8 then u64 else UInt32.toUInt64 <$> u32

/-- `String`: strips one trailing null byte. -/
def string : Reader Bytes := do
  let length ← u16
  if length = 0 then
    return []
  match ← read length.toNat with
  | none => return []
  | some b => return if b.getLast? = some 0 then b.dropLast else b

/-- `Buffer`: a `u32` length and that many bytes (nil when they are not there). -/
def buffer : Reader Bytes := do
  let n ← u32
  return (← read n.toNat).getD []

/-- `QBuffer`: a `u16` length and that many bytes. -/
def qBuffer : Reader Bytes := do
  let n ← u16
  return (← read n.toNat).getD []

def dateTime : Reader UInt64 := u64

/-- `ReadAll`. -/
def readAll : Reader Bytes := do
  let s ← get
  return (← read s.rest.length).getD []

/-- A stream after a substream of it: the error of the inner stream stays there, only the ghost flags come
out. -/
def after (s inner : StreamIn) : StreamIn :=
  { s with failed := s.failed || inner.failed, cut := s.cut || inner.err || inner.cut }

/-- `Substream`: runs `f` on the next buffer. -/
def substream {α : Type} (f : Reader α) : Reader α := do
  let b ← buffer
  let (a, inner) := f (newStreamIn b)
  modify (·.after inner)
  return a

/-- The loop of `ReadList`. -/
def times {α : Type} (f : Reader α) : ℕ → Reader (List α)
  | 0 => return []
  | n + 1 => do
    let a ← f
    let as ← times f n
    return a :: as

/-- The count of a list or a map: more elements than bytes left is an error. -/
def count : Reader (Option ℕ) := do
  let n ← u32
  let s ← get
  if s.rest.length < n.toNat then
    set { s with err := true, failed := true }
    return none
  return some n.toNat

/-- `ReadList`. -/
def list {α : Type} (f : Reader α) : Reader (List α) := do
  match ← count with
  | none => return []
  | some n => times f n

/-- `ReadMap`: a later pair replaces an earlier one with the same key. -/
def map {κ ν : Type} [DecidableEq κ] (kf : Reader κ) (vf : Reader ν) : Reader (GoMap κ ν) := do
  match ← count with
  | none => return ∅
  | some n =>
    let pairs ← times (do let k ← kf; let v ← vf; return (k, v)) n
    return pairs.foldl (fun m p => m.insert p.1 p.2) ∅

end StreamIn

/-- Runs a reader on fresh data: the value read, and whether `Err` is set afterwards. -/
def StreamIn.run {α : Type} (f : Reader α) (data : Bytes) : α × Bool :=
  let r := f (newStreamIn data)
  (r.1, r.2.err)

end NextendoMatchmaking
