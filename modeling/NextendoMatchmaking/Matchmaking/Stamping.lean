import Mathlib.Data.List.GetD
import NextendoMatchmaking.Matchmaking.Tournaments
import NextendoMatchmaking.Wire.RoundTrip

/-!
# Finding and filling the code of a tournament

The structure of a tournament begins with a header of 105 bytes and the name.  The properties of its rules
follow, entries of 4, 5 or 7 bytes up to an entry that begins with `0xFF`, and then the code, empty when the
structure comes from the creator.  Names, values and the tail are arbitrary and can look like any of this.

`tournamentCodeOffset` runs three times when a tournament is created: on the structure of the creator, on the
structure with the new id and mark, and on the result.  On a structure of this shape (`TournamentLayout`) the
three runs agree and only the id, the mark and the code are written (`stamp_exact`).  A property of another
type makes the locator scan for an empty string instead.  That string is then overwritten, the last run does
not find it again, and the tournament is refused (`accepted_created_iff`).
-/

namespace NextendoMatchmaking.Matchmaking

/-! ### Properties -/

/-- The types of properties that `tournamentCodeOffset` knows. -/
inductive PropertyType
  | byte
  | short
  | long
  deriving DecidableEq

namespace PropertyType

def code : PropertyType → UInt8
  | byte => 0x01
  | short => 0x02
  | long => 0x04

/-- The size of a property of the type. -/
def size : PropertyType → ℕ
  | byte => 4
  | short => 5
  | long => 7

end PropertyType

/-- An entry of the list of properties, before its end. -/
structure Property where
  id : UInt8
  type : PropertyType
  filler : Bytes
  id_ne : id ≠ 0xFF
  length_filler : filler.length + 2 = type.size

def Property.bytes (p : Property) : Bytes := p.id :: p.type.code :: p.filler

def propertyBytes (ps : List Property) : Bytes := ps.flatMap Property.bytes

theorem Property.length_bytes (p : Property) : p.bytes.length = p.type.size := p.length_filler

/-- The type of an entry is not among those that are known. -/
def UnknownType (ty : UInt8) : Prop := ty ≠ 0x01 ∧ ty ≠ 0x02 ∧ ty ≠ 0x04

/-! ### The walk -/

theorem getD_behind (pre rest : Bytes) (k : ℕ) : (pre ++ rest).getD (pre.length + k) 0 = rest.getD k 0 := by
  rw [List.getD_append_right _ _ _ _ (Nat.le_add_right _ _), Nat.add_sub_cancel_left]

theorem walk_property (pre rest : Bytes) (p : Property) (fuel : ℕ) :
    walkProperties (pre ++ (p.bytes ++ rest)) (fuel + 1) pre.length =
      walkProperties (pre ++ (p.bytes ++ rest)) fuel (pre.length + p.bytes.length) := by
  have hid : (pre ++ (p.bytes ++ rest)).getD pre.length 0 = p.id := getD_behind pre _ 0
  have htype : (pre ++ (p.bytes ++ rest)).getD (pre.length + 1) 0 = p.type.code := getD_behind pre _ 1
  have hlength : (pre ++ (p.bytes ++ rest)).length = pre.length + (p.type.size + rest.length) := by
    rw [List.length_append, List.length_append, p.length_bytes]
  have hsize : 2 ≤ p.type.size := Nat.le_of_add_left_le (Nat.le_of_eq p.length_filler)
  rw [walkProperties, hid, htype, if_neg (by omega), if_neg p.id_ne, if_neg (by omega), p.length_bytes]
  cases p.type <;> rfl

/-- The walk over properties of known types. -/
theorem walk_properties (ps : List Property) (pre rest : Bytes) (fuel : ℕ) :
    walkProperties (pre ++ (propertyBytes ps ++ rest)) (fuel + ps.length) pre.length =
      walkProperties (pre ++ (propertyBytes ps ++ rest)) fuel (pre.length + (propertyBytes ps).length) := by
  induction ps generalizing pre with
  | nil => rfl
  | cons p ps ih =>
    have hbytes : propertyBytes (p :: ps) = p.bytes ++ propertyBytes ps := List.flatMap_cons
    have hrest := ih (pre ++ p.bytes)
    rw [List.append_assoc, List.length_append] at hrest
    rw [hbytes, List.length_cons, ← Nat.add_assoc, List.append_assoc, walk_property, hrest, List.length_append,
      Nat.add_assoc]

theorem walk_terminator (pre filler rest : Bytes) (hfiller : filler.length = 4) (hrest : 3 ≤ rest.length)
    (fuel : ℕ) :
    walkProperties (pre ++ (0xFF :: filler ++ rest)) (fuel + 1) pre.length = some (pre.length + 5) := by
  have hlength : (pre ++ (0xFF :: filler ++ rest)).length = pre.length + (5 + rest.length) := by
    rw [List.length_append, List.length_append, List.length_cons, hfiller]
  have hid : (pre ++ (0xFF :: filler ++ rest)).getD pre.length 0 = 0xFF := getD_behind pre _ 0
  rw [walkProperties, hid, if_neg (by omega), if_pos rfl, if_pos (by omega)]

theorem walk_unknown (pre rest : Bytes) {id ty : UInt8} (hid : id ≠ 0xFF) (hty : UnknownType ty) (fuel : ℕ) :
    walkProperties (pre ++ (id :: ty :: rest)) (fuel + 1) pre.length =
      scanEmptyCode (pre ++ (id :: ty :: rest)) pre.length := by
  have hlength : (pre ++ (id :: ty :: rest)).length = pre.length + (2 + rest.length) := by
    rw [List.length_append, List.length_cons, List.length_cons]
    omega
  have hfirst : (pre ++ (id :: ty :: rest)).getD pre.length 0 = id := getD_behind pre _ 0
  have hsecond : (pre ++ (id :: ty :: rest)).getD (pre.length + 1) 0 = ty := getD_behind pre _ 1
  rw [walkProperties, hfirst, hsecond, if_neg (by omega), if_neg hid, if_neg (by omega), if_neg hty.1,
    if_neg hty.2.1, if_neg hty.2.2]

/-- What stands behind the properties where the walk ends: the terminator, or a property of an unknown type. -/
inductive WalkEnd : Bytes → Prop
  | terminator {filler rest : Bytes} (hfiller : filler.length = 4) (hrest : 3 ≤ rest.length) :
      WalkEnd (0xFF :: filler ++ rest)
  | unknown {rest : Bytes} {id ty : UInt8} (hid : id ≠ 0xFF) (hty : UnknownType ty) : WalkEnd (id :: ty :: rest)

/-- The property of a known type at the front of some bytes. -/
theorem property_at_front {id : UInt8} (hid : id ≠ 0xFF) (type : PropertyType) {rest : Bytes}
    (hlength : type.size ≤ rest.length + 2) :
    ∃ p : Property, id :: type.code :: rest = p.bytes ++ (id :: type.code :: rest).drop type.size := by
  have hsize : 2 ≤ type.size := by cases type <;> decide
  obtain ⟨k, hk⟩ := Nat.exists_eq_add_of_le' hsize
  have hfiller : (rest.take k).length + 2 = type.size := by
    rw [List.length_take]
    omega
  refine ⟨⟨id, type, rest.take k, hid, hfiller⟩, ?_⟩
  rw [hk]
  show _ = id :: type.code :: (rest.take k ++ rest.drop k)
  rw [List.take_append_drop]

theorem lt_of_walk {b : Bytes} {fuel pos i : ℕ} (h : walkProperties b fuel pos = some i) : pos < b.length := by
  cases fuel with
  | zero => cases h
  | succ fuel =>
    rw [walkProperties] at h
    split at h
    · cases h
    · omega

/-- A step of a walk that finds something: it is at its end, or it goes over a property of a known type. -/
theorem walk_cases {b : Bytes} {fuel pos i : ℕ} (h : walkProperties b (fuel + 1) pos = some i) :
    WalkEnd (b.drop pos) ∨ ∃ (id : UInt8) (type : PropertyType) (rest : Bytes), id ≠ 0xFF ∧
      b.drop pos = id :: type.code :: rest ∧ walkProperties b fuel (pos + type.size) = some i := by
  obtain ⟨id, rest, hdrop⟩ : ∃ id rest, b.drop pos = id :: rest := by
    cases hd : b.drop pos with
    | nil => exact absurd (lt_of_walk h) (Nat.not_lt.mpr (List.drop_eq_nil_iff.mp hd))
    | cons id rest => exact ⟨id, rest, rfl⟩
  have hget : ∀ k, b.getD (pos + k) 0 = (id :: rest).getD k 0 := by
    intro k
    rw [← hdrop]
    simp [List.getD_eq_getElem?_getD]
  have hlength : b.length - pos = rest.length + 1 := by
    rw [← List.length_drop, hdrop, List.length_cons]
  rw [walkProperties, if_neg (by omega), show b.getD pos 0 = id from hget 0] at h
  rw [hdrop]
  split at h
  · rename_i hid
    split at h
    · rw [hid, ← List.take_append_drop 4 rest]
      refine .inl (.terminator ?_ ?_)
      · rw [List.length_take]
        omega
      · rw [List.length_drop]
        omega
    · cases h
  rename_i hid
  split at h
  · cases h
  obtain ⟨ty, more, rfl⟩ : ∃ ty more, rest = ty :: more := by
    cases rest with
    | nil =>
      rw [List.length_nil] at hlength
      omega
    | cons ty more => exact ⟨ty, more, rfl⟩
  rw [show b.getD (pos + 1) 0 = ty from hget 1] at h
  split at h
  · rename_i hty
    exact .inr ⟨id, .byte, more, hid, by rw [hty]; rfl, h⟩
  split at h
  · rename_i hty
    exact .inr ⟨id, .short, more, hid, by rw [hty]; rfl, h⟩
  split at h
  · rename_i hty
    exact .inr ⟨id, .long, more, hid, by rw [hty]; rfl, h⟩
  · rename_i h₁ h₂ h₄
    exact .inl (.unknown hid ⟨h₁, h₂, h₄⟩)

/-- A walk that finds something goes over properties of known types to where it ends. -/
theorem walk_inv {b : Bytes} {fuel pos i : ℕ} (h : walkProperties b fuel pos = some i) :
    ∃ ps rest, b.drop pos = propertyBytes ps ++ rest ∧ WalkEnd rest := by
  induction fuel generalizing pos with
  | zero => cases h
  | succ fuel ih =>
    rcases walk_cases h with hend | ⟨id, type, more, hid, hdrop, hwalk⟩
    · exact ⟨[], b.drop pos, rfl, hend⟩
    · obtain ⟨ps, rest, hrest, hend⟩ := ih hwalk
      have hsize : type.size ≤ more.length + 2 := by
        have hlength := congrArg List.length hdrop
        rw [List.length_drop, List.length_cons, List.length_cons] at hlength
        have hlt := lt_of_walk hwalk
        omega
      obtain ⟨p, hp⟩ := property_at_front hid type hsize
      refine ⟨p :: ps, rest, ?_, hend⟩
      rw [hdrop, hp, ← hdrop, List.drop_drop, hrest, ← List.append_assoc]
      rfl

/-! ### Structures -/

/-- The structure of a tournament up to the properties of known types. -/
structure TournamentFront where
  header : Bytes
  name : Bytes
  properties : List Property
  length_header : header.length = tournamentNameLengthOffset
  name_pos : 2 ≤ name.length
  name_even : name.length % 2 = 0
  name_lt : name.length < 65536

namespace TournamentFront

variable (f : TournamentFront)

/-- The bytes of the structure, with any header. -/
def write (header : Bytes) : Bytes :=
  header ++ (StreamOut.u16 (UInt16.ofNat f.name.length) ++ (f.name ++ propertyBytes f.properties))

def size : ℕ := tournamentNameLengthOffset + 2 + f.name.length + (propertyBytes f.properties).length

theorem length_write {header : Bytes} (h : header.length = tournamentNameLengthOffset) :
    (f.write header).length = f.size := by
  simp only [write, size, List.length_append, h, StreamOut.u16, length_leBytes]
  omega

end TournamentFront

theorem length_le_propertyBytes (ps : List Property) : ps.length ≤ (propertyBytes ps).length := by
  induction ps with
  | nil => exact le_rfl
  | cons p ps ih =>
    show ps.length + 1 ≤ (p.bytes ++ propertyBytes ps).length
    have hpos : 0 < p.bytes.length := Nat.succ_pos _
    rw [List.length_append]
    omega

/-- The locator comes to what stands behind the known properties. -/
theorem codeOffset_write (f : TournamentFront) {header : Bytes} (rest : Bytes)
    (hheader : header.length = tournamentNameLengthOffset) (hrest : rest ≠ []) :
    ∃ fuel, tournamentCodeOffset (f.write header ++ rest) =
      walkProperties (f.write header ++ rest) (fuel + 1) (f.write header).length := by
  have hb : f.write header ++ rest = header ++ (StreamOut.u16 (UInt16.ofNat f.name.length) ++
      (f.name ++ (propertyBytes f.properties ++ rest))) := by
    simp only [TournamentFront.write, List.append_assoc]
  have hname : leNat (((f.write header ++ rest).drop tournamentNameLengthOffset).take 2) = f.name.length := by
    have hlength : (UInt16.ofNat f.name.length).toNat = f.name.length := by
      rw [UInt16.toNat_ofNat']
      exact Nat.mod_eq_of_lt f.name_lt
    rw [hb, ← hheader, List.drop_left]
    show leNat (StreamOut.u16 (UInt16.ofNat f.name.length)) = _
    rw [StreamOut.u16, hlength, leNat_leBytes 2 _ f.name_lt]
  have hlong : (f.write header ++ rest).length = f.size + rest.length := by
    rw [List.length_append, f.length_write hheader]
  have hpos : 0 < rest.length := List.length_pos_iff.mpr hrest
  have hcount := length_le_propertyBytes f.properties
  have hsize : f.size =
    tournamentNameLengthOffset + 2 + f.name.length + (propertyBytes f.properties).length := rfl
  -- the walk begins behind the name
  have hwalk : tournamentCodeOffset (f.write header ++ rest) = walkProperties (f.write header ++ rest)
      (f.write header ++ rest).length (tournamentNameLengthOffset + 2 + f.name.length) := by
    unfold tournamentCodeOffset
    dsimp only
    have heven := f.name_even
    have hname_pos := f.name_pos
    rw [if_neg (by omega), hname, if_neg (by omega), if_neg (by omega)]
  refine ⟨(f.write header ++ rest).length - f.properties.length - 1, ?_⟩
  have hfuel : (f.write header ++ rest).length =
      (f.write header ++ rest).length - f.properties.length - 1 + 1 + f.properties.length := by omega
  have hpre : (header ++ StreamOut.u16 (UInt16.ofNat f.name.length) ++ f.name).length =
      tournamentNameLengthOffset + 2 + f.name.length := by
    simp only [List.length_append, hheader, StreamOut.u16, length_leBytes]
  have hsteps := walk_properties f.properties (header ++ StreamOut.u16 (UInt16.ofNat f.name.length) ++ f.name)
    rest ((f.write header ++ rest).length - f.properties.length - 1 + 1)
  rw [← hfuel, hpre, List.append_assoc, List.append_assoc, ← hb] at hsteps
  rw [hwalk, hsteps, f.length_write hheader, hsize]

theorem codeOffset_terminator (f : TournamentFront) {header filler rest : Bytes}
    (hheader : header.length = tournamentNameLengthOffset) (hfiller : filler.length = 4)
    (hrest : 3 ≤ rest.length) :
    tournamentCodeOffset (f.write header ++ (0xFF :: filler ++ rest)) = some (f.size + 5) := by
  obtain ⟨fuel, hfuel⟩ := codeOffset_write f (0xFF :: filler ++ rest) hheader (List.cons_ne_nil _ _)
  rw [hfuel, walk_terminator _ _ _ hfiller hrest, f.length_write hheader]

theorem codeOffset_unknown (f : TournamentFront) {header rest : Bytes} {id ty : UInt8}
    (hheader : header.length = tournamentNameLengthOffset) (hid : id ≠ 0xFF) (hty : UnknownType ty) :
    tournamentCodeOffset (f.write header ++ (id :: ty :: rest)) =
      scanEmptyCode (f.write header ++ (id :: ty :: rest)) (f.write header).length := by
  obtain ⟨fuel, hfuel⟩ := codeOffset_write f (id :: ty :: rest) hheader (List.cons_ne_nil _ _)
  rw [hfuel, walk_unknown _ _ hid hty]

/-- Whatever the locator accepts has a front of known properties. -/
theorem front_of_codeOffset {b : Bytes} {i : ℕ} (h : tournamentCodeOffset b = some i) :
    ∃ (f : TournamentFront) (rest : Bytes), b = f.write f.header ++ rest ∧ WalkEnd rest := by
  unfold tournamentCodeOffset at h
  dsimp only at h
  split at h
  · cases h
  rename_i hlength
  split at h
  · cases h
  rename_i hname
  split at h
  · cases h
  rename_i hpos
  obtain ⟨ps, rest, hdrop, hend⟩ := walk_inv h
  have htwo : ((b.drop tournamentNameLengthOffset).take 2).length = 2 := by
    rw [List.length_take, List.length_drop]
    omega
  have hlt := leNat_lt ((b.drop tournamentNameLengthOffset).take 2)
  have hbytes := leBytes_leNat ((b.drop tournamentNameLengthOffset).take 2)
  rw [htwo] at hlt hbytes
  generalize leNat ((b.drop tournamentNameLengthOffset).take 2) = n at *
  have hnamelen : (((b.drop tournamentNameLengthOffset).drop 2).take n).length = n := by
    rw [List.length_take, List.length_drop, List.length_drop]
    omega
  have hheader : (b.take tournamentNameLengthOffset).length = tournamentNameLengthOffset := by
    rw [List.length_take]
    omega
  refine ⟨⟨b.take tournamentNameLengthOffset, ((b.drop tournamentNameLengthOffset).drop 2).take n, ps, hheader,
    by omega, by omega, by omega⟩, rest, ?_, hend⟩
  have hu16 : StreamOut.u16 (UInt16.ofNat n) = (b.drop tournamentNameLengthOffset).take 2 := by
    rw [StreamOut.u16, UInt16.toNat_ofNat', Nat.mod_eq_of_lt (by omega), hbytes]
  show b = b.take tournamentNameLengthOffset ++ (StreamOut.u16 (UInt16.ofNat
    (((b.drop tournamentNameLengthOffset).drop 2).take n).length) ++
      (((b.drop tournamentNameLengthOffset).drop 2).take n ++ propertyBytes ps)) ++ rest
  rw [hnamelen, hu16, List.append_assoc, List.append_assoc, List.append_assoc, ← hdrop, ← List.drop_drop,
    ← List.drop_drop, List.take_append_drop, List.take_append_drop, List.take_append_drop]

/-! ### Stamping -/

/-- The field of a code. -/
def codeField (code : Bytes) : Bytes := StreamOut.u16 13 ++ code ++ [0]

/-- A header with an id and a mark. -/
def stampHeader (header : Bytes) (id : UInt32) (mark : Bytes) : Bytes :=
  StreamOut.u32 id ++ mark ++ header.drop 12

theorem length_of_valid {code : Bytes} (h : validTournamentCode code = true) : code.length = 12 := by
  unfold validTournamentCode at h
  rw [Bool.and_eq_true, beq_iff_eq] at h
  exact h.1

theorem length_stampHeader {header mark : Bytes} (hheader : header.length = tournamentNameLengthOffset)
    (hmark : mark.length = 8) (id : UInt32) :
    (stampHeader header id mark).length = tournamentNameLengthOffset := by
  simp only [stampHeader, StreamOut.u32, List.length_append, length_leBytes, hmark, List.length_drop, hheader]
  rfl

/-- The code goes to the place of the empty string that the locator finds. -/
def fillCode (out code : Bytes) : Bytes :=
  match tournamentCodeOffset out with
  | none => out
  | some i => if emptyCodeAt out i then out.take i ++ codeField code ++ out.drop (i + 3) else out

theorem fillCode_none {out : Bytes} (h : tournamentCodeOffset out = none) (code : Bytes) :
    fillCode out code = out := by
  rw [fillCode, h]

theorem fillCode_some {out : Bytes} {i : ℕ} (h : tournamentCodeOffset out = some i)
    (hempty : emptyCodeAt out i = true) (code : Bytes) :
    fillCode out code = out.take i ++ codeField code ++ out.drop (i + 3) := by
  rw [fillCode, h]
  exact if_pos hempty

theorem stampTournament_eq (f : TournamentFront) (rest : Bytes) (id : UInt32) {mark code : Bytes}
    (hmark : mark.length = 8) (hcode : validTournamentCode code = true) :
    stampTournament (f.write f.header ++ rest) id mark code =
      fillCode (f.write (stampHeader f.header id mark) ++ rest) code := by
  have hlong : ¬ (f.write f.header ++ rest).length < 12 := by
    have hsize : tournamentNameLengthOffset = 105 := rfl
    rw [List.length_append, f.length_write f.length_header, TournamentFront.size]
    omega
  have hout : StreamOut.u32 id ++ mark.take 8 ++ (f.write f.header ++ rest).drop (4 + (mark.take 8).length) =
      f.write (stampHeader f.header id mark) ++ rest := by
    rw [List.take_of_length_le hmark.le, hmark, TournamentFront.write, TournamentFront.write, stampHeader,
      List.append_assoc f.header, List.drop_append_of_le_length (by rw [f.length_header]; decide)]
    simp only [List.append_assoc]
  unfold stampTournament fillCode
  rw [if_neg hlong, hout, hcode, length_of_valid hcode]
  dsimp only
  generalize f.write (stampHeader f.header id mark) ++ rest = out
  cases tournamentCodeOffset out with
  | none => rfl
  | some i =>
    dsimp only
    cases emptyCodeAt out i <;> rfl

theorem emptyCodeAt_behind (pre rest : Bytes) : emptyCodeAt (pre ++ ([1, 0, 0] ++ rest)) pre.length = true := by
  unfold emptyCodeAt
  rw [List.drop_left]
  rfl

/-- A structure of the shape that `tournamentCodeOffset` expects, without its code. -/
structure TournamentLayout extends TournamentFront where
  /-- What follows the `0xFF` of the terminator. -/
  filler : Bytes
  tail : Bytes
  length_filler : filler.length = 4

namespace TournamentLayout

variable (l : TournamentLayout)

/-- The bytes up to the field of the code, with any header. -/
def front (header : Bytes) : Bytes := l.write header ++ 0xFF :: l.filler

/-- The structure as the creator sends it, with an empty code. -/
def bytes : Bytes := l.front l.header ++ ([1, 0, 0] ++ l.tail)

/-- The structure with an id, a mark and a code. -/
def stamped (id : UInt32) (mark code : Bytes) : Bytes :=
  l.front (stampHeader l.header id mark) ++ (codeField code ++ l.tail)

/-- Where the code is. -/
def codeOffset : ℕ := l.size + 5

theorem length_front {header : Bytes} (h : header.length = tournamentNameLengthOffset) :
    (l.front header).length = l.codeOffset := by
  rw [front, List.length_append, l.length_write h, List.length_cons, l.length_filler, codeOffset]

theorem offset_front {header rest : Bytes} (h : header.length = tournamentNameLengthOffset)
    (hrest : 3 ≤ rest.length) : tournamentCodeOffset (l.front header ++ rest) = some l.codeOffset := by
  rw [front, List.append_assoc]
  exact codeOffset_terminator l.toTournamentFront h l.length_filler hrest

end TournamentLayout

variable {l : TournamentLayout} {id : UInt32} {mark code : Bytes}

theorem length_codeField (hcode : validTournamentCode code = true) : (codeField code).length = 15 := by
  rw [codeField, List.length_append, List.length_append, length_of_valid hcode]
  rfl

theorem stamp_layout (l : TournamentLayout) (id : UInt32) (hmark : mark.length = 8)
    (hcode : validTournamentCode code = true) :
    stampTournament l.bytes id mark code = l.stamped id mark code := by
  have hheader := length_stampHeader l.length_header hmark id
  have hfront : ∀ header, l.front header ++ ([1, 0, 0] ++ l.tail) =
      l.write header ++ (0xFF :: l.filler ++ ([1, 0, 0] ++ l.tail)) :=
    fun header => List.append_assoc _ _ _
  have hempty := emptyCodeAt_behind (l.front (stampHeader l.header id mark)) l.tail
  rw [l.length_front hheader] at hempty
  rw [TournamentLayout.bytes, hfront, stampTournament_eq _ _ _ hmark hcode, ← hfront,
    fillCode_some (l.offset_front hheader (Nat.le_add_left _ _)) hempty, ← l.length_front hheader,
    List.take_left, ← List.drop_drop, List.drop_left, TournamentLayout.stamped, List.append_assoc]
  rfl

theorem offset_stamped (l : TournamentLayout) (id : UInt32) (hmark : mark.length = 8)
    (hcode : validTournamentCode code = true) :
    tournamentCodeOffset (l.stamped id mark code) = some l.codeOffset := by
  refine l.offset_front (length_stampHeader l.length_header hmark id) ?_
  rw [List.length_append, length_codeField hcode]
  omega

theorem matches_stamped (l : TournamentLayout) (id : UInt32) (hmark : mark.length = 8)
    (hcode : validTournamentCode code = true) :
    tournamentCodeMatches (l.stamped id mark code) code = true := by
  have hlength := length_of_valid hcode
  have hfront := l.length_front (length_stampHeader l.length_header hmark id)
  have hfield : codeField code ++ l.tail = StreamOut.u16 13 ++ (code ++ (0 :: l.tail)) := by
    simp [codeField]
  have hdrop : (l.stamped id mark code).drop l.codeOffset = StreamOut.u16 13 ++ (code ++ (0 :: l.tail)) := by
    rw [TournamentLayout.stamped, ← hfront, List.drop_left, hfield]
  have hn : leNat (((l.stamped id mark code).drop l.codeOffset).take 2) = 13 := by
    rw [hdrop]
    rfl
  have hbehind : (l.stamped id mark code).drop (l.codeOffset + 2) = code ++ (0 :: l.tail) := by
    rw [← List.drop_drop, hdrop]
    rfl
  have htotal : (l.stamped id mark code).length = l.codeOffset + (15 + l.tail.length) := by
    rw [TournamentLayout.stamped, List.length_append, List.length_append, hfront, length_codeField hcode]
  have hend : (l.stamped id mark code).getD (l.codeOffset + 2 + 13 - 1) 0 = 0 := by
    rw [show l.codeOffset + 2 + 13 - 1 = l.codeOffset + 2 + code.length by omega,
      List.getD_eq_getElem?_getD, ← List.getElem?_drop, hbehind, List.getElem?_append_right le_rfl,
      Nat.sub_self]
    rfl
  have hcodeBytes : ((l.stamped id mark code).drop (l.codeOffset + 2)).take tournamentCodeLen = code := by
    rw [hbehind, show tournamentCodeLen = code.length from hlength.symm, List.take_left]
  have hfits : l.codeOffset + 2 ≤ (l.stamped id mark code).length ∧
      l.codeOffset + 2 + 13 ≤ (l.stamped id mark code).length := by omega
  unfold tournamentCodeMatches
  rw [offset_stamped l id hmark hcode]
  dsimp only
  rw [hn, hend, hcodeBytes, hcode]
  simp [hfits, tournamentCodeLen]

theorem valid_stamped (hsize : l.bytes.length ≤ tournamentMaxBlob) (hid : id ≠ 0) (hmark : mark.length = 8)
    (hcode : validTournamentCode code = true) (x : Tournament) (hxid : x.id = id) (hxcode : x.code = code)
    (hblob : x.blob = l.stamped id mark code) : validStoredTournament x = true := by
  have hbytes : l.bytes.length = l.codeOffset + (3 + l.tail.length) := by
    rw [TournamentLayout.bytes, List.length_append, List.length_append, l.length_front l.length_header]
    rfl
  have htotal : (l.stamped id mark code).length = l.codeOffset + (15 + l.tail.length) := by
    rw [TournamentLayout.stamped, List.length_append, List.length_append,
      l.length_front (length_stampHeader l.length_header hmark id), length_codeField hcode]
  have hoffset : 12 ≤ l.codeOffset := by
    have hname : tournamentNameLengthOffset = 105 := rfl
    rw [TournamentLayout.codeOffset, TournamentFront.size]
    omega
  have hstored : leNat ((l.stamped id mark code).take 4) = id.toNat := by
    have htake : (l.stamped id mark code).take 4 = StreamOut.u32 id := rfl
    rw [htake, StreamOut.u32, leNat_leBytes 4 _ id.toNat_lt]
  have hlow : 12 ≤ (l.stamped id mark code).length := by omega
  have hhigh : (l.stamped id mark code).length ≤ tournamentMaxBlob + tournamentCodeLen := by
    have hcodeLen : tournamentCodeLen = 12 := rfl
    omega
  unfold validStoredTournament
  rw [hblob, hxid, hxcode, hstored, matches_stamped l id hmark hcode]
  simp [hid, hlow, hhigh]

/-- **Stamping is exact.**  In a structure of the expected shape the locator finds the code, stamping writes the
id, the mark and the code and leaves every other byte, the locator finds the code again, and the record passes
the check. -/
theorem stamp_exact (l : TournamentLayout) (hsize : l.bytes.length ≤ tournamentMaxBlob) (id : UInt32)
    (hid : id ≠ 0) (mark code : Bytes) (hmark : mark.length = 8) (hcode : validTournamentCode code = true) :
    tournamentCodeOffset l.bytes = some l.codeOffset ∧
      stampTournament l.bytes id mark code = l.stamped id mark code ∧
      tournamentCodeOffset (stampTournament l.bytes id mark code) = some l.codeOffset ∧
      ∀ owner participants createdAt, validStoredTournament
        ⟨id, owner, code, mark, stampTournament l.bytes id mark code, participants, createdAt⟩ = true := by
  refine ⟨l.offset_front l.length_header (Nat.le_add_left _ _), stamp_layout l id hmark hcode, ?_, ?_⟩
  · rw [stamp_layout l id hmark hcode]
    exact offset_stamped l id hmark hcode
  · intro owner participants createdAt
    exact valid_stamped hsize hid hmark hcode _ rfl rfl (stamp_layout l id hmark hcode)

/-- A tournament with a name of one letter, a property whose value looks like the terminator and an empty
string, and a tail that looks like another empty string. -/
def sampleLayout : TournamentLayout where
  header := List.replicate 105 0
  name := [84, 0]
  properties := [⟨3, .long, [0xFF, 1, 0, 0, 0], by decide, rfl⟩]
  length_header := List.length_replicate
  name_pos := le_rfl
  name_even := rfl
  name_lt := by decide
  filler := [0, 0, 0, 0]
  tail := [1, 0, 0, 0]
  length_filler := rfl

/-- The code of twelve digits `9`. -/
def sampleCode : Bytes := List.replicate 12 57

theorem stamp_exact_sample :
    stampTournament sampleLayout.bytes 1000 [1, 2, 3, 4, 5, 6, 7, 8] sampleCode =
        sampleLayout.stamped 1000 [1, 2, 3, 4, 5, 6, 7, 8] sampleCode ∧
      tournamentCodeOffset sampleLayout.bytes = some 121 := by
  have hexact := stamp_exact sampleLayout (by decide +kernel) 1000 (by decide) [1, 2, 3, 4, 5, 6, 7, 8]
    sampleCode rfl (by decide)
  exact ⟨hexact.2.1, hexact.1⟩

/-! ### Creating a tournament -/

theorem scanEmptyCode_some {b : Bytes} {pos i : ℕ} (h : scanEmptyCode b pos = some i) :
    pos ≤ i ∧ emptyCodeAt b i = true := by
  have hmem := List.mem_of_find?_eq_some h
  exact ⟨(List.mem_range'_1.mp hmem).1, List.find?_some h⟩

/-- Where an empty string is found there is no code. -/
theorem matches_of_empty {b : Bytes} (h : ∀ i, tournamentCodeOffset b = some i → emptyCodeAt b i = true)
    (code : Bytes) : tournamentCodeMatches b code = false := by
  unfold tournamentCodeMatches
  cases hi : tournamentCodeOffset b with
  | none => rfl
  | some i =>
    have hempty := h i hi
    rw [emptyCodeAt, beq_iff_eq] at hempty
    have htwo : (b.drop i).take 2 = [1, 0] := by
      rw [show 2 = min 2 3 from rfl, ← List.take_take, hempty]
      rfl
    dsimp only
    rw [htwo]
    simp [leNat, tournamentCodeLen]

/-- Behind a property of an unknown type the locator finds nothing but empty strings. -/
theorem empty_of_unknown (f : TournamentFront) {header rest : Bytes} {id ty : UInt8}
    (hheader : header.length = tournamentNameLengthOffset) (hid : id ≠ 0xFF) (hty : UnknownType ty) {i : ℕ}
    (h : tournamentCodeOffset (f.write header ++ (id :: ty :: rest)) = some i) :
    (f.write header).length ≤ i ∧ emptyCodeAt (f.write header ++ (id :: ty :: rest)) i = true := by
  rw [codeOffset_unknown f hheader hid hty] at h
  exact scanEmptyCode_some h

/-- The code overwrites the empty string, and the property of an unknown type stays one. -/
theorem unknown_filled {id ty : UInt8} {rest : Bytes} (hid : id ≠ 0xFF) (hty : UnknownType ty) {j : ℕ}
    (hempty : emptyCodeAt (id :: ty :: rest) j = true) (code : Bytes) :
    ∃ id' ty' rest', id' ≠ 0xFF ∧ UnknownType ty' ∧
      (id :: ty :: rest).take j ++ codeField code ++ (id :: ty :: rest).drop (j + 3) = id' :: ty' :: rest' := by
  match j with
  | 0 => exact ⟨13, 0, _, by decide, by unfold UnknownType; decide, rfl⟩
  | 1 =>
    -- the empty string would begin with the type
    rw [emptyCodeAt, beq_iff_eq] at hempty
    injection hempty with hone _
    exact absurd hone hty.1
  | j + 2 => exact ⟨id, ty, _, hid, hty, rfl⟩

theorem unknown_refused (f : TournamentFront) {header rest : Bytes} {id ty : UInt8}
    (hheader : header.length = tournamentNameLengthOffset) (hid : id ≠ 0xFF) (hty : UnknownType ty)
    (code : Bytes) :
    tournamentCodeMatches (fillCode (f.write header ++ (id :: ty :: rest)) code) code = false := by
  cases hi : tournamentCodeOffset (f.write header ++ (id :: ty :: rest)) with
  | none =>
    rw [fillCode_none hi]
    exact matches_of_empty (fun i h => nomatch hi.symm.trans h) code
  | some i =>
    obtain ⟨hle, hempty⟩ := empty_of_unknown f hheader hid hty hi
    obtain ⟨j, rfl⟩ := Nat.exists_eq_add_of_le hle
    have hrest : emptyCodeAt (id :: ty :: rest) j = true := by
      rw [emptyCodeAt, ← List.drop_drop, List.drop_left] at hempty
      exact hempty
    obtain ⟨id', ty', rest', hid', hty', hfilled⟩ := unknown_filled hid hty hrest code
    have hblob : fillCode (f.write header ++ (id :: ty :: rest)) code =
        f.write header ++ (id' :: ty' :: rest') := by
      rw [fillCode_some hi hempty, List.take_length_add_append, Nat.add_assoc, List.drop_length_add_append,
        ← hfilled]
      simp only [List.append_assoc]
    rw [hblob]
    exact matches_of_empty (fun i h => (empty_of_unknown f hheader hid' hty' h).2) code

/-- The record that `CreateTournament` makes. -/
def newTournament (env : TournamentEnv) (owner : UInt64) (payload : Bytes) (id : UInt32) : Tournament where
  id := id
  owner := owner
  code := newTournamentCode env.code
  mark := List.ofFn env.mark
  blob := stampTournament payload id (List.ofFn env.mark) (newTournamentCode env.code)
  participants := [owner]
  createdAt := env.now

theorem valid_newTournamentCode (random : Fin 12 → UInt8) :
    validTournamentCode (newTournamentCode random) = true := by
  unfold validTournamentCode newTournamentCode
  rw [List.length_map, List.length_ofFn, List.all_map, Bool.and_eq_true, List.all_eq_true]
  refine ⟨rfl, fun v _ => ?_⟩
  have hdigit : (v % 10).toNat < 10 := by
    rw [UInt8.toNat_mod]
    exact Nat.mod_lt _ (by decide)
  simp only [Function.comp_apply, Bool.and_eq_true, decide_eq_true_eq, UInt8.le_iff_toNat_le, UInt8.toNat_add]
  have h48 : (0x30 : UInt8).toNat = 48 := rfl
  have h57 : (0x39 : UInt8).toNat = 57 := rfl
  omega

section Creating

variable {env : TournamentEnv} {owner : UInt64} {payload : Bytes} {t : TournamentStore} {i : ℕ}
  (hpos : 0 < payload.length) (hmax : payload.length ≤ tournamentMaxBlob)
  (hoffset : tournamentCodeOffset payload = some i) (hempty : emptyCodeAt payload i = true)
  (hroom : (tournamentInit env t).byID.len < tournamentMax)

include hpos hmax hoffset hempty hroom

/-- A payload that passes the first checks is refused only for its record. -/
theorem createTournament_of_accepted :
    createTournament env owner payload t =
      if validStoredTournament (newTournament env owner payload (tournamentInit env t).nextID) then
        ({ tournamentInit env t with
            nextID := (tournamentInit env t).nextID + 1
            byID := (tournamentInit env t).byID.insert (tournamentInit env t).nextID
              (newTournament env owner payload (tournamentInit env t).nextID)
            dirty := true },
          some (newTournament env owner payload (tournamentInit env t).nextID))
      else ({ tournamentInit env t with nextID := (tournamentInit env t).nextID + 1 }, none) := by
  have hpass : ¬ (payload.length = 0 ∨ tournamentMaxBlob < payload.length ∨ emptyCodeAt payload i = false) := by
    rintro (h | h | h)
    · omega
    · omega
    · rw [hempty] at h
      cases h
  unfold createTournament
  rw [hoffset]
  dsimp only
  rw [if_neg hpass, if_neg (by omega)]
  rfl

/-- **Which accepted payloads become tournaments.**  A payload that passes the checks of `CreateTournament` is
stored if it has the expected shape, with properties of known types up to the terminator, and refused
otherwise. -/
theorem accepted_created_iff (hnext : (tournamentInit env t).nextID ≠ 0) :
    (∃ x, (createTournament env owner payload t).2 = some x ∧
        (createTournament env owner payload t).1.byID.lookup x.id = some x) ↔
      ∃ l : TournamentLayout, l.bytes = payload := by
  have hmark : (List.ofFn env.mark).length = 8 := List.length_ofFn
  have hcode := valid_newTournamentCode env.code
  rw [createTournament_of_accepted hpos hmax hoffset hempty hroom]
  constructor
  · intro hcreated
    obtain ⟨f, rest, hpayload, hend⟩ := front_of_codeOffset hoffset
    cases hend with
    | @terminator filler rest hfiller hrest =>
      -- the code is what follows the terminator, and it is empty
      rw [hpayload, codeOffset_terminator f f.length_header hfiller hrest, Option.some.injEq] at hoffset
      rw [hpayload, ← hoffset, emptyCodeAt, ← f.length_write f.length_header, beq_iff_eq, ← List.drop_drop,
        List.drop_left] at hempty
      have hdrop : (0xFF :: filler ++ rest).drop 5 = rest := by
        show (filler ++ rest).drop 4 = rest
        rw [← hfiller, List.drop_left]
      rw [hdrop] at hempty
      refine ⟨⟨f, filler, rest.drop 3, hfiller⟩, ?_⟩
      show f.write f.header ++ 0xFF :: filler ++ ([1, 0, 0] ++ rest.drop 3) = payload
      rw [← hempty, List.take_append_drop, hpayload, List.append_assoc]
    | @unknown rest id ty hid hty =>
      obtain ⟨x, hx, -⟩ := hcreated
      have hmatch : tournamentCodeMatches
          (newTournament env owner payload (tournamentInit env t).nextID).blob
          (newTournament env owner payload (tournamentInit env t).nextID).code = false := by
        show tournamentCodeMatches (stampTournament payload _ _ _) (newTournamentCode env.code) = false
        rw [hpayload, stampTournament_eq f _ _ hmark hcode]
        exact unknown_refused f (length_stampHeader f.length_header hmark _) hid hty _
      have hinvalid : validStoredTournament (newTournament env owner payload (tournamentInit env t).nextID) =
          false := by
        unfold validStoredTournament
        rw [hmatch, Bool.and_false]
      rw [hinvalid] at hx
      cases hx
  · intro hlayout
    obtain ⟨l, rfl⟩ := hlayout
    have hvalid :
        validStoredTournament (newTournament env owner l.bytes (tournamentInit env t).nextID) = true :=
      valid_stamped hmax hnext hmark hcode _ rfl rfl (stamp_layout l _ hmark hcode)
    rw [if_pos hvalid]
    exact ⟨_, rfl, Finmap.lookup_insert _⟩

end Creating

/-- What a server with an empty file reads when it creates a tournament. -/
def emptyFileEnv : TournamentEnv := ⟨none, fun _ => 1, fun _ => 5, 0, []⟩

/-- The sample is stored. -/
theorem accepted_created_sample :
    ∃ x, (createTournament emptyFileEnv 7 sampleLayout.bytes newTournamentStore).2 = some x ∧
      (createTournament emptyFileEnv 7 sampleLayout.bytes newTournamentStore).1.byID.lookup x.id = some x :=
  (accepted_created_iff (i := 121) (by decide +kernel) (by decide +kernel) (by decide +kernel)
    (by decide +kernel) (by decide +kernel) (by decide)).mpr ⟨sampleLayout, rfl⟩

/-- A tournament with a property of the type 3, and an empty code behind it. -/
def unknownPayload : Bytes :=
  List.replicate 105 0 ++ [2, 0, 84, 0] ++ [5, 3, 9, 9] ++ [0xFF, 0, 0, 0, 0, 1, 0, 0]

/-- The first run of the locator finds the code, but the tournament is refused. -/
theorem unknown_property_refused :
    unknownPayload.length ≤ tournamentMaxBlob ∧ tournamentCodeOffset unknownPayload = some 118 ∧
      emptyCodeAt unknownPayload 118 = true ∧
      (createTournament emptyFileEnv 7 unknownPayload newTournamentStore).2 = none := by
  decide +kernel


end NextendoMatchmaking.Matchmaking
