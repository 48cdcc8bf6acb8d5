import Mathlib.Algebra.BigOperators.Group.Finset.Basic
import NextendoMatchmaking.Wire.RoundTrip

/-!
# How long the encodings are

The number of bytes that the encoder writes, for the values of `stream.go` and for the structures that are
relayed.  The order in which the runtime visits a map makes no difference.
-/

namespace NextendoMatchmaking

variable {s : Settings}
variable {order : List Bytes}

/-! ### Values -/

@[simp] theorem length_u8 (v : UInt8) : (StreamOut.u8 v).length = 1 := rfl
@[simp] theorem length_u16 (v : UInt16) : (StreamOut.u16 v).length = 2 := length_leBytes 2 _
@[simp] theorem length_u32 (v : UInt32) : (StreamOut.u32 v).length = 4 := length_leBytes 4 _
@[simp] theorem length_u64 (v : UInt64) : (StreamOut.u64 v).length = 8 := length_leBytes 8 _
@[simp] theorem length_dateTime (v : UInt64) : (StreamOut.dateTime v).length = 8 := length_u64 v

@[simp] theorem length_bool (v : Bool) : (StreamOut.bool v).length = 1 := by
  cases v <;> rfl

/-- The bytes of a PID. -/
def pidWidth (s : Settings) : ℕ := if s.pidSize = 8 then 8 else 4

@[simp] theorem length_pid (v : UInt64) : (StreamOut.pid s v).length = pidWidth s := by
  unfold StreamOut.pid pidWidth
  split <;> simp

@[simp] theorem length_string (str : Bytes) : (StreamOut.string str).length = str.length + 3 := by
  simp [StreamOut.string]
  omega

@[simp] theorem length_buffer (b : Bytes) : (StreamOut.buffer b).length = b.length + 4 := by
  simp [StreamOut.buffer]
  omega

@[simp] theorem length_u32s (l : List UInt32) : (StreamOut.list StreamOut.u32 l).length = 4 * l.length + 4 := by
  simp [StreamOut.list, List.length_flatMap]
  omega

theorem length_writeLevel (hs : s.structHeader = true) (body : Bytes) :
    (writeLevel s body).length = body.length + 5 := by
  simp [writeLevel, hs]
  omega

/-! ### Structures -/

/-- The bytes of a variant. -/
def Variant.size (v : Variant) : ℕ :=
  if v.type = boolTag then 2
  else if v.type = stringTag then v.string.length + 4
  else if v.type = int64Tag ∨ v.type = doubleTag ∨ v.type = dateTimeTag ∨ v.type = uint64Tag then 9
  else 1

theorem length_variant (v : Variant) : v.save.length = v.size := by
  unfold Variant.save Variant.size
  rw [List.length_append, length_u8]
  -- one case for each tag; what is behind it has a fixed length, but for strings
  by_cases hint : v.type = Variant.int64Tag
  · rw [hint]
    exact congrArg (1 + ·) (length_u64 _)
  by_cases hdouble : v.type = Variant.doubleTag
  · rw [hdouble]
    exact congrArg (1 + ·) (length_u64 _)
  by_cases hbool : v.type = Variant.boolTag
  · rw [hbool]
    exact congrArg (1 + ·) (length_bool _)
  by_cases hstring : v.type = Variant.stringTag
  · rw [hstring]
    show 1 + (StreamOut.string v.string).length = v.string.length + 4
    rw [length_string]
    omega
  by_cases hdate : v.type = Variant.dateTimeTag
  · rw [hdate]
    exact congrArg (1 + ·) (length_u64 _)
  by_cases huint : v.type = Variant.uint64Tag
  · rw [huint]
    exact congrArg (1 + ·) (length_u64 _)
  simp only [hint, hdouble, hbool, hstring, hdate, huint, if_false, or_self, List.length_nil]

/-- The bytes of one entry of the parameters. -/
def MatchmakeParam.entrySize (p : MatchmakeParam) (k : Bytes) : ℕ :=
  k.length + 3 + (p.lookup k).elim 0 Variant.size

/-- The bytes of the parameters. -/
def MatchmakeParam.size (p : MatchmakeParam) : ℕ := 4 + p.keys.sum p.entrySize

/-- The order of the entries does not change the length. -/
theorem MatchmakeParam.length_map {p : MatchmakeParam} (horder : GoMap.Enumerates order p) :
    (StreamOut.map StreamOut.string Variant.save order p).length = p.size := by
  have hkeys : p.keys = order.toFinset := by
    ext k
    rw [Finmap.mem_keys, List.mem_toFinset, horder.2 k]
  unfold StreamOut.map MatchmakeParam.size
  rw [hkeys, List.sum_toFinset _ horder.1, List.length_append, length_u32, List.length_flatMap]
  congr 2
  apply List.map_congr_left
  intro k hk
  obtain ⟨v, hv⟩ := Option.isSome_iff_exists.mp (Finmap.lookup_isSome.mpr ((horder.2 k).mp hk))
  simp only [hv, MatchmakeParam.entrySize, List.length_append, length_string, length_variant]
  rfl

/-- The bytes of the base level of a session. -/
def Gathering.size (s : Settings) (g : Gathering) : ℕ := 2 * pidWidth s + g.description.length + 27

theorem Gathering.length_save (g : Gathering) : (g.save s).length = g.size s := by
  simp only [Gathering.save, Gathering.size, List.length_append, length_u32, length_pid, length_u16,
    length_string]
  omega

/-- The bytes of a session, behind the header of the structure that it is in. -/
def MatchmakeSession.size (s : Settings) (m : MatchmakeSession) : ℕ :=
  m.toGathering.size s + (4 * m.attribs.length + m.applicationData.length + m.sessionKey.length +
    m.param.size + m.userPassword.length + m.codeword.length + 55) + 10

/-- The bytes of an update. -/
def UpdateMatchmakeSessionParam.size (p : UpdateMatchmakeSessionParam) : ℕ :=
  4 * p.attributes.length + p.applicationBuffer.length + p.param.size + p.userPassword.length +
    p.description.length + p.codeword.length + 60

theorem MatchmakeSession.length_saveOwn {m : MatchmakeSession} (hs : s.structHeader = true)
    (horder : GoMap.Enumerates order m.param) :
    (m.saveOwn s order).length = 4 * m.attribs.length + m.applicationData.length + m.sessionKey.length +
      m.param.size + m.userPassword.length + m.codeword.length + 55 := by
  unfold MatchmakeSession.saveOwn MatchmakeParam.write
  simp only [List.length_append, length_writeLevel hs, MatchmakeParam.length_map horder, length_u32,
    length_u32s, length_bool, length_buffer, length_u8, length_dateTime, length_string]
  omega

theorem MatchmakeSession.length_write {m : MatchmakeSession} (hs : s.structHeader = true)
    (horder : GoMap.Enumerates order m.param) :
    (m.write s order).length = m.size s := by
  simp only [MatchmakeSession.write, MatchmakeSession.size, List.length_append, length_writeLevel hs,
    Gathering.length_save, MatchmakeSession.length_saveOwn hs horder]
  omega

theorem UpdateMatchmakeSessionParam.length_save {p : UpdateMatchmakeSessionParam} (hs : s.structHeader = true)
    (horder : GoMap.Enumerates order p.param) :
    (p.save s order).length = p.size := by
  unfold UpdateMatchmakeSessionParam.save UpdateMatchmakeSessionParam.size MatchmakeParam.write
  simp only [List.length_append, length_writeLevel hs, MatchmakeParam.length_map horder, length_u32,
    length_u32s, length_bool, length_buffer, length_u8, length_u16, length_dateTime, length_string]
  omega

end NextendoMatchmaking
