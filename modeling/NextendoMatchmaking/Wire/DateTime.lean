import NextendoMatchmaking.Library.Fields
import NextendoMatchmaking.Wire.Stream

/-!
# Timestamps

`DateTime` of `nextendo-nex/types.go`: the six fields of a calendar time in one number of 64 bits, from the
second in the lowest bits to the year in the highest.
-/

namespace NextendoMatchmaking

open Fields

/-- `DateTime`. -/
abbrev DateTime := UInt64

namespace DateTime

/-- `Second`, `Minute`, `Hour`, `Day`, `Month` and `Year`. -/
def second (d : DateTime) : Int := (d &&& 63).toNat
def minute (d : DateTime) : Int := ((d >>> 6) &&& 63).toNat
def hour (d : DateTime) : Int := ((d >>> 12) &&& 31).toNat
def day (d : DateTime) : Int := ((d >>> 17) &&& 31).toNat
def month (d : DateTime) : Int := ((d >>> 22) &&& 15).toNat
def year (d : DateTime) : Int := (d >>> 26).toNat

def fields (d : DateTime) : List Int := [d.year, d.month, d.day, d.hour, d.minute, d.second]

end DateTime

/-- `MakeDateTime`. -/
def makeDateTime (year month day hour minute second : Int) : DateTime :=
  UInt64.ofInt second ||| (UInt64.ofInt minute <<< 6) ||| (UInt64.ofInt hour <<< 12) |||
    (UInt64.ofInt day <<< 17) ||| (UInt64.ofInt month <<< 22) ||| (UInt64.ofInt year <<< 26)

/-- A calendar time whose fields have room in a `DateTime`. -/
structure CalendarTime where
  year : ℕ
  month : ℕ
  day : ℕ
  hour : ℕ
  minute : ℕ
  second : ℕ
  year_lt : year < 2 ^ 37
  month_lt : month < 16
  day_lt : day < 32
  hour_lt : hour < 32
  minute_lt : minute < 64
  second_lt : second < 64
  deriving DecidableEq

namespace CalendarTime

def fields (c : CalendarTime) : List ℕ := [c.year, c.month, c.day, c.hour, c.minute, c.second]

/-- `a` is before `b`: the first field in which they differ is smaller. -/
def Precedes (a b : CalendarTime) : Prop := a.fields < b.fields

instance (a b : CalendarTime) : Decidable (a.Precedes b) := inferInstanceAs (Decidable (a.fields < b.fields))

def dateTime (c : CalendarTime) : DateTime := makeDateTime c.year c.month c.day c.hour c.minute c.second

end CalendarTime

/-! ### The fields as bits -/

/-- The bits of the fields; the year has all that the others leave. -/
def dateTimeWidths : List ℕ := [38, 4, 5, 5, 6, 6]

theorem CalendarTime.fits (c : CalendarTime) : Fits dateTimeWidths c.fields := by
  have hyear : c.year < 2 ^ 38 := c.year_lt.trans (by decide)
  exact .cons hyear <| .cons c.month_lt <| .cons c.day_lt <| .cons c.hour_lt <| .cons c.minute_lt <|
    .cons c.second_lt .nil

theorem toNat_ofInt {n : ℕ} (h : n < 2 ^ 64) : (UInt64.ofInt n).toNat = n := by
  show (UInt64.ofNat ((n : Int) % 2 ^ 64).toNat).toNat = n
  rw [UInt64.toNat_ofNat']
  omega

/-- One more field above those that a word has already. -/
theorem toNat_or_field {ws vs : List ℕ} {w v : ℕ} {low : UInt64} (shift : UInt64)
    (hlow : low.toNat = pack ws vs) (hfits : Fits (w :: ws) (v :: vs)) (hshift : shift.toNat = ws.sum)
    (hlt : ws.sum < 64) (hroom : w + ws.sum ≤ 64) :
    (low ||| (UInt64.ofInt v <<< shift)).toNat = pack (w :: ws) (v :: vs) := by
  obtain ⟨hv, hfits⟩ := List.forall₂_cons.mp hfits
  have hplace : v * 2 ^ ws.sum < 2 ^ 64 := by
    calc v * 2 ^ ws.sum < 2 ^ w * 2 ^ ws.sum := Nat.mul_lt_mul_of_pos_right hv (Nat.two_pow_pos _)
      _ = 2 ^ (w + ws.sum) := (Nat.pow_add ..).symm
      _ ≤ 2 ^ 64 := Nat.pow_le_pow_right Nat.two_pos hroom
  have hword : v < 2 ^ 64 := (Nat.le_mul_of_pos_right v (Nat.two_pow_pos _)).trans_lt hplace
  rw [pack_cons hfits, UInt64.toNat_or, UInt64.toNat_shiftLeft, toNat_ofInt hword, hlow, hshift,
    Nat.mod_eq_of_lt hlt, Nat.shiftLeft_eq, Nat.mod_eq_of_lt hplace, Nat.or_comm]

theorem toNat_dateTime (c : CalendarTime) : c.dateTime.toNat = pack dateTimeWidths c.fields := by
  have hsecond : Fits [6] [c.second] := .cons c.second_lt .nil
  have hminute : Fits [6, 6] [c.minute, c.second] := .cons c.minute_lt hsecond
  have hhour : Fits [5, 6, 6] [c.hour, c.minute, c.second] := .cons c.hour_lt hminute
  have hday : Fits [5, 5, 6, 6] [c.day, c.hour, c.minute, c.second] := .cons c.day_lt hhour
  have hmonth : Fits [4, 5, 5, 6, 6] [c.month, c.day, c.hour, c.minute, c.second] := .cons c.month_lt hday
  have hlow : (UInt64.ofInt c.second).toNat = pack [6] [c.second] := by
    rw [toNat_ofInt (c.second_lt.trans (by decide))]
    simp [pack]
  -- the fields in the order in which the source puts them in
  have hlow := toNat_or_field 6 hlow hminute rfl (by decide) (by decide)
  have hlow := toNat_or_field 12 hlow hhour rfl (by decide) (by decide)
  have hlow := toNat_or_field 17 hlow hday rfl (by decide) (by decide)
  have hlow := toNat_or_field 22 hlow hmonth rfl (by decide) (by decide)
  exact toNat_or_field 26 hlow c.fits rfl (by decide) (by decide)

/-- The accessors take the fields out. -/
theorem fields_eq_unpack (d : DateTime) :
    d.fields = (unpack dateTimeWidths d.toNat).map (fun n : ℕ => (n : Int)) := by
  have h63 (n : ℕ) : n &&& 63 = n % 2 ^ 6 := Nat.and_two_pow_sub_one_eq_mod n 6
  have h31 (n : ℕ) : n &&& 31 = n % 2 ^ 5 := Nat.and_two_pow_sub_one_eq_mod n 5
  have h15 (n : ℕ) : n &&& 15 = n % 2 ^ 4 := Nat.and_two_pow_sub_one_eq_mod n 4
  have hyear : d.toNat / 2 ^ 26 % 2 ^ 38 = d.toNat / 2 ^ 26 := by
    have hd : d.toNat < 2 ^ 64 := d.toNat_lt
    omega
  show _ = [((d.toNat / 2 ^ 26 % 2 ^ 38 : ℕ) : Int), (d.toNat / 2 ^ 22 % 2 ^ 4 : ℕ),
    (d.toNat / 2 ^ 17 % 2 ^ 5 : ℕ), (d.toNat / 2 ^ 12 % 2 ^ 5 : ℕ), (d.toNat / 2 ^ 6 % 2 ^ 6 : ℕ),
    (d.toNat / 2 ^ 0 % 2 ^ 6 : ℕ)]
  rw [hyear, ← h63, ← h63, ← h31, ← h31, ← h15]
  simp [DateTime.fields, DateTime.year, DateTime.month, DateTime.day, DateTime.hour, DateTime.minute,
    DateTime.second, Nat.shiftRight_eq_div_pow]

theorem fields_dateTime (c : CalendarTime) : c.dateTime.fields = c.fields.map (fun n : ℕ => (n : Int)) := by
  rw [fields_eq_unpack, toNat_dateTime, unpack_pack c.fits]

theorem dateTime_lt_iff (a b : CalendarTime) : a.dateTime < b.dateTime ↔ a.Precedes b := by
  rw [UInt64.lt_iff_toNat_lt, toNat_dateTime, toNat_dateTime, pack_lt_pack_iff a.fits b.fits]
  rfl

end NextendoMatchmaking
