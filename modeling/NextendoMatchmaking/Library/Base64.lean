import Mathlib.Data.List.Basic

/-!
# Base64 with the alphabet for URLs, without padding

Three bytes are four numbers of six bits, and each number is a letter.  At the end one byte is two letters and
two bytes are three; a single letter is no byte.  The decoder skips line breaks and does not look at the bits
that are left over, so several texts are one sequence of bytes.

* `decode_encode` — what is encoded is decoded again;
* `notMem_encode` — a byte that is no letter is not in an encoded text.
-/

namespace NextendoMatchmaking.Base64

/-! ### Letters -/

/-- The letter of a number below 64. -/
def letter (n : ℕ) : UInt8 :=
  if n < 26 then UInt8.ofNat (65 + n)
  else if n < 52 then UInt8.ofNat (97 + (n - 26))
  else if n < 62 then UInt8.ofNat (48 + (n - 52))
  else if n = 62 then 45
  else 95

def value (b : UInt8) : Option ℕ :=
  if 65 ≤ b ∧ b ≤ 90 then some (b.toNat - 65)
  else if 97 ≤ b ∧ b ≤ 122 then some (b.toNat - 97 + 26)
  else if 48 ≤ b ∧ b ≤ 57 then some (b.toNat - 48 + 52)
  else if b = 45 then some 62
  else if b = 95 then some 63
  else none

theorem value_letter : ∀ n < 64, value (letter n) = some n := by decide

/-! ### Groups -/

/-- The numbers of six bits. -/
def sextets : List UInt8 → List ℕ
  | [] => []
  | [a] => [a.toNat / 4, a.toNat % 4 * 16]
  | [a, b] => [a.toNat / 4, a.toNat % 4 * 16 + b.toNat / 16, b.toNat % 16 * 4]
  | a :: b :: c :: rest =>
    a.toNat / 4 :: (a.toNat % 4 * 16 + b.toNat / 16) :: (b.toNat % 16 * 4 + c.toNat / 64) :: c.toNat % 64 ::
      sextets rest

/-- The bytes of numbers of six bits. -/
def octets : List ℕ → Option (List UInt8)
  | [] => some []
  | [_] => none
  | [x, y] => some [UInt8.ofNat (x * 4 + y / 16)]
  | [x, y, z] => some [UInt8.ofNat (x * 4 + y / 16), UInt8.ofNat (y % 16 * 16 + z / 4)]
  | x :: y :: z :: w :: rest =>
    (octets rest).map (fun bs => UInt8.ofNat (x * 4 + y / 16) :: UInt8.ofNat (y % 16 * 16 + z / 4) ::
      UInt8.ofNat (z % 4 * 64 + w) :: bs)

theorem sextets_lt (bs : List UInt8) : ∀ n ∈ sextets bs, n < 64 := by
  fun_induction sextets bs with
  | case1 => simp
  | case2 a =>
    have ha := a.toNat_lt
    simp only [List.mem_cons, List.not_mem_nil, or_false, forall_eq_or_imp, forall_eq]
    omega
  | case3 a b =>
    have ha := a.toNat_lt
    have hb := b.toNat_lt
    simp only [List.mem_cons, List.not_mem_nil, or_false, forall_eq_or_imp, forall_eq]
    omega
  | case4 a b c rest ih =>
    have ha := a.toNat_lt
    have hb := b.toNat_lt
    have hc := c.toNat_lt
    simp only [List.mem_cons, forall_eq_or_imp]
    exact ⟨by omega, by omega, by omega, by omega, ih⟩

theorem ofNat_eq {n : ℕ} {a : UInt8} (h : n = a.toNat) : UInt8.ofNat n = a := by
  rw [h, UInt8.ofNat_toNat]

theorem octets_sextets (bs : List UInt8) : octets (sextets bs) = some bs := by
  fun_induction sextets bs with
  | case1 => rfl
  | case2 a =>
    have ha : UInt8.ofNat (a.toNat / 4 * 4 + a.toNat % 4 * 16 / 16) = a := ofNat_eq (by omega)
    rw [octets, ha]
  | case3 a b =>
    have hb := b.toNat_lt
    have ha : UInt8.ofNat (a.toNat / 4 * 4 + (a.toNat % 4 * 16 + b.toNat / 16) / 16) = a := ofNat_eq (by omega)
    have hb : UInt8.ofNat ((a.toNat % 4 * 16 + b.toNat / 16) % 16 * 16 + b.toNat % 16 * 4 / 4) = b :=
      ofNat_eq (by omega)
    rw [octets, ha, hb]
  | case4 a b c rest ih =>
    have hb := b.toNat_lt
    have hc := c.toNat_lt
    have ha : UInt8.ofNat (a.toNat / 4 * 4 + (a.toNat % 4 * 16 + b.toNat / 16) / 16) = a := ofNat_eq (by omega)
    have hb : UInt8.ofNat ((a.toNat % 4 * 16 + b.toNat / 16) % 16 * 16 +
        (b.toNat % 16 * 4 + c.toNat / 64) / 4) = b := ofNat_eq (by omega)
    have hc : UInt8.ofNat ((b.toNat % 16 * 4 + c.toNat / 64) % 4 * 64 + c.toNat % 64) = c :=
      ofNat_eq (by omega)
    rw [octets, ih, ha, hb, hc]
    rfl

/-! ### Texts -/

def encode (bs : List UInt8) : List UInt8 := (sextets bs).map letter

def decode (s : List UInt8) : Option (List UInt8) :=
  ((s.filter (fun b => b ≠ 10 ∧ b ≠ 13)).mapM value).bind octets

theorem notMem_encode {b : UInt8} (h : value b = none) (bs : List UInt8) : b ∉ encode bs := by
  intro hmem
  obtain ⟨n, hn, rfl⟩ := List.mem_map.mp hmem
  rw [value_letter n (sextets_lt bs n hn)] at h
  cases h

theorem mapM_value {ns : List ℕ} (h : ∀ n ∈ ns, n < 64) : (ns.map letter).mapM value = some ns := by
  induction ns with
  | nil => rfl
  | cons n ns ih =>
    rw [List.map_cons, List.mapM_cons, value_letter n (h n List.mem_cons_self),
      ih (fun m hm => h m (List.mem_cons_of_mem _ hm))]
    rfl

theorem decode_encode (bs : List UInt8) : decode (encode bs) = some bs := by
  have hletters : (encode bs).filter (fun b => b ≠ 10 ∧ b ≠ 13) = encode bs := by
    refine List.filter_eq_self.mpr (fun b hb => decide_eq_true ⟨?_, ?_⟩)
    · rintro rfl
      exact notMem_encode (by decide) bs hb
    · rintro rfl
      exact notMem_encode (by decide) bs hb
  rw [decode, hletters, encode, mapM_value (sextets_lt bs)]
  exact octets_sextets bs

end NextendoMatchmaking.Base64
