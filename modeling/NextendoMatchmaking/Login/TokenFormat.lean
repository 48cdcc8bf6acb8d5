import NextendoMatchmaking.Endpoint.StationURL
import NextendoMatchmaking.Library.Base64
import NextendoMatchmaking.Login.Impersonation

/-!
# The tokens of the account service

The account service signs `pid.username.expiry`, and `nextendoPIDFromToken` of `server/main.go` takes it apart
again: the first two dots are its separators, and what follows the second is read as the time of expiry.  A dot
in the user name is then taken for the separator behind it, the rest of the name stands before the expiry, and
no such text is a number: a token that is signed and not expired is refused.  It is never read as another PID
or as a later expiry.  `token_exact_iff` says for which tokens the check is exact.
-/

namespace NextendoMatchmaking.Login

open NextendoMatchmaking.Endpoint (itoa toNat_digit mem_itoa)

/-! ### Numbers are read back -/

/-- Digits are read as a number. -/
theorem parseDigits_eq_foldl {s : Bytes} (h : ∀ b ∈ s, 48 ≤ b ∧ b ≤ 57) :
    parseDigits s = some (s.foldl (fun n b => 10 * n + (b.toNat - 48)) 0) := by
  -- on the last digit, the one that the loop reads last
  induction s using List.reverseRecOn with
  | nil => rfl
  | append_singleton s b ih =>
    have hb := h b (List.mem_append_right _ List.mem_cons_self)
    have hs := ih (fun x hx => h x (List.mem_append_left _ hx))
    unfold parseDigits at hs ⊢
    rw [List.foldlM_append, hs, List.foldl_append, Option.bind_eq_bind, Option.bind_some, List.foldlM_cons,
      if_pos hb]
    rfl

/-- The decimal digits of a number. -/
def digitBytes (n : ℕ) : Bytes := (Nat.toDigits 10 n).map (fun c => UInt8.ofNat c.toNat)

theorem digitBytes_ne_nil (n : ℕ) : digitBytes n ≠ [] := by
  intro h
  exact Nat.toDigits_ne_nil (List.map_eq_nil_iff.mp h)

theorem mem_digitBytes {n : ℕ} {b : UInt8} (h : b ∈ digitBytes n) : 48 ≤ b ∧ b ≤ 57 := by
  obtain ⟨c, hc, rfl⟩ := List.mem_map.mp h
  obtain ⟨hvalue, hlow, hhigh⟩ := toNat_digit hc
  rw [UInt8.le_iff_toNat_le, UInt8.le_iff_toNat_le, hvalue]
  exact ⟨hlow, hhigh⟩

theorem foldl_digits (cs : List Char) (h : ∀ c ∈ cs, (UInt8.ofNat c.toNat).toNat = c.toNat) (m : ℕ) :
    (cs.map (fun c => UInt8.ofNat c.toNat)).foldl (fun n b => 10 * n + (b.toNat - 48)) m =
      Nat.ofDigitChars 10 cs m := by
  rw [Nat.ofDigitChars_eq_foldl, List.foldl_map]
  refine List.foldl_ext _ _ m (fun k c hc => ?_)
  rw [h c hc]
  rfl

theorem foldl_digitBytes (n : ℕ) : (digitBytes n).foldl (fun n b => 10 * n + (b.toNat - 48)) 0 = n := by
  rw [digitBytes, foldl_digits _ (fun c hc => (toNat_digit hc).1), Nat.ofDigitChars_ten_toDigits]

theorem parseDigits_digitBytes (n : ℕ) : parseDigits (digitBytes n) = some n := by
  rw [parseDigits_eq_foldl (fun b hb => mem_digitBytes hb), foldl_digitBytes]

theorem parseUint_digitBytes (n : ℕ) :
    parseUint (digitBytes n) = if n < 2 ^ 64 then some (UInt64.ofNat n) else none := by
  rw [parseUint, if_neg (digitBytes_ne_nil n), parseDigits_digitBytes]
  rfl

theorem itoa_natCast (n : ℕ) : itoa n = digitBytes n := by
  rw [itoa, if_neg (by omega)]
  rfl

theorem itoa_neg {v : Int} (h : v < 0) : itoa v = 45 :: digitBytes v.natAbs := by
  rw [itoa, if_pos h]
  rfl

/-- Without a sign, `ParseInt` reads what `ParseUint` reads. -/
theorem parseInt_digitBytes (n : ℕ) :
    parseInt (digitBytes n) = (parseUint (digitBytes n)).bind fun m =>
      if m.toNat < 2 ^ 63 then some (m.toNat : Int) else none := by
  cases hdigits : digitBytes n with
  | nil => exact absurd hdigits (digitBytes_ne_nil n)
  | cons b rest =>
    have hb := mem_digitBytes (hdigits ▸ List.mem_cons_self : b ∈ digitBytes n)
    unfold parseInt
    dsimp only
    split
    · rename_i heq
      cases heq
      exact absurd hb.1 (by decide)
    · rename_i heq
      cases heq
      exact absurd hb.1 (by decide)
    · simp only [Bool.false_eq_true, if_false]

/-- The digits of a number give the number to whatever has no use for one of more than 64 bits. -/
theorem bind_parseUint_digitBytes {α : Type} (n : ℕ) {f : ℕ → Option α} (h : 2 ^ 64 ≤ n → f n = none) :
    ((parseUint (digitBytes n)).bind fun m => f m.toNat) = f n := by
  rw [parseUint_digitBytes]
  by_cases hsmall : n < 2 ^ 64
  · rw [if_pos hsmall, Option.bind_some, UInt64.toNat_ofNat', Nat.mod_eq_of_lt hsmall]
  · rw [if_neg hsmall, h (Nat.le_of_not_lt hsmall)]
    rfl

theorem parseInt_itoa (v : Int) : parseInt (itoa v) = if -2 ^ 63 ≤ v ∧ v < 2 ^ 63 then some v else none := by
  rcases Int.lt_or_le v 0 with hneg | hnonneg
  · have hparse : parseInt (itoa v) = (parseUint (digitBytes v.natAbs)).bind fun m =>
        if m.toNat ≤ 2 ^ 63 then some (-(m.toNat : Int)) else none := by
      rw [itoa_neg hneg]
      rfl
    have hvalue : -(v.natAbs : Int) = v := by omega
    rw [hparse, bind_parseUint_digitBytes v.natAbs
      (f := fun m => if m ≤ 2 ^ 63 then some (-(m : Int)) else none) (fun hbig => if_neg (by omega)), hvalue]
    exact if_congr (by omega) rfl rfl
  · obtain ⟨n, rfl⟩ := Int.eq_ofNat_of_zero_le hnonneg
    rw [itoa_natCast, parseInt_digitBytes, bind_parseUint_digitBytes n
      (f := fun m => if m < 2 ^ 63 then some (m : Int) else none) (fun hbig => if_neg (by omega))]
    exact if_congr (by omega) rfl rfl

theorem parseUint_itoa (pid : UInt64) : parseUint (itoa pid.toNat) = some pid := by
  rw [itoa_natCast, parseUint_digitBytes, if_pos pid.toNat_lt, UInt64.ofNat_toNat]

theorem dot_notMem_itoa (v : Int) : dot ∉ itoa v := by
  intro hmem
  rcases mem_itoa hmem with hminus | hdigit
  · exact absurd hminus (by decide)
  · exact absurd hdigit (by decide)

/-- A text with a dot is no number. -/
theorem parseInt_of_dot {s : Bytes} (h : dot ∈ s) : parseInt s = none := by
  have hdigits : ∀ rest n, Decimal rest n → dot ∉ rest :=
    fun rest n hdecimal hmem => absurd (hdecimal.2.1 dot hmem) (by decide)
  cases hparse : parseInt s with
  | none => rfl
  | some v =>
    rcases signedDecimal_of_parseInt hparse with ⟨n, hn, _⟩ | ⟨rest, n, rfl, hn, _⟩ | ⟨rest, n, rfl, hn, _⟩
    · exact absurd h (hdigits _ _ hn)
    · exact absurd ((List.mem_cons.mp h).resolve_left (by decide)) (hdigits _ _ hn)
    · exact absurd ((List.mem_cons.mp h).resolve_left (by decide)) (hdigits _ _ hn)

/-! ### The payload -/

/-- Two fields without dots, and what follows. -/
theorem splitN_three {a b : Bytes} (ha : dot ∉ a) (hb : dot ∉ b) (c : Bytes) :
    splitN (a ++ dot :: (b ++ dot :: c)) 3 = [a, b, c] := by
  have hparts : (a ++ dot :: (b ++ dot :: c)).splitOn dot = a :: b :: c.splitOn dot := by
    rw [List.splitOn_append_cons_self_of_not_mem ha, List.splitOn_append_cons_self_of_not_mem hb]
  have hjoin : [dot].intercalate (c.splitOn dot) = c := List.intercalate_splitOn dot
  unfold splitN
  rw [hparts]
  dsimp only
  split
  · rename_i hshort
    match hrest : c.splitOn dot with
    | [] => exact absurd hrest (List.splitOn_ne_nil dot c)
    | [x] =>
      rw [hrest, List.intercalate_singleton] at hjoin
      rw [hjoin]
    | x :: y :: more =>
      rw [hrest] at hshort
      simp only [List.length_cons] at hshort
      omega
  · show [a, b] ++ [[dot].intercalate (c.splitOn dot)] = [a, b, c]
    rw [hjoin]
    rfl

/-- `pid.username.expiry` -/
def payloadOf (pid : UInt64) (username : Bytes) (expiry : Int) : Bytes :=
  itoa pid.toNat ++ dot :: (username ++ dot :: itoa expiry)

/-- The fields that the check takes a payload for, and when the third of them is the expiry. -/
theorem fields_payloadOf (pid : UInt64) (username : Bytes) (expiry : Int) :
    ∃ user rest, splitN (payloadOf pid username expiry) 3 = [itoa pid.toNat, user, rest] ∧
      parseInt rest = if dot ∉ username ∧ -2 ^ 63 ≤ expiry ∧ expiry < 2 ^ 63 then some expiry else none := by
  by_cases hdot : dot ∈ username
  · obtain ⟨user, more, rfl, huser⟩ := List.eq_append_cons_of_mem hdot
    refine ⟨user, more ++ dot :: itoa expiry, ?_, ?_⟩
    · rw [payloadOf, List.append_assoc, List.cons_append]
      exact splitN_three (dot_notMem_itoa _) huser _
    · rw [parseInt_of_dot (List.mem_append_right _ List.mem_cons_self), if_neg (fun h => h.1 hdot)]
  · refine ⟨username, itoa expiry, splitN_three (dot_notMem_itoa _) hdot _, ?_⟩
    rw [parseInt_itoa]
    exact if_congr (by simp [hdot]) rfl rfl

/-! ### Tokens -/

/-- The encoding of `gv` is `base64.RawURLEncoding`. -/
structure RawURLEncoding (gv : Given) : Prop where
  encode : gv.encodeBase64 = Base64.encode
  decode : gv.decodeBase64 = Base64.decode

/-- The token that the account service gives out. -/
def mint (gv : Given) (secret : Bytes) (pid : UInt64) (username : Bytes) (expiry : Int) : Bytes :=
  signedToken gv secret (payloadOf pid username expiry)

/-- The two parts of a token. -/
theorem splitOn_signedToken {gv : Given} (hencoding : RawURLEncoding gv) (secret raw : Bytes) :
    ((signedToken gv secret raw).drop tokenPrefix.length).splitOn dot =
      [gv.encodeBase64 raw, gv.encodeBase64 (gv.hmacSHA256 secret (signedPrefix ++ raw))] := by
  have hdot : ∀ bs, dot ∉ gv.encodeBase64 bs := by
    intro bs
    rw [hencoding.encode]
    exact Base64.notMem_encode (by decide) bs
  rw [signedToken, List.drop_left, List.splitOn_append_cons_self_of_not_mem (hdot _),
    List.splitOn_eq_singleton (hdot _)]

/-- A token that is signed and not revoked is as good as the fields of its payload. -/
theorem nextendoPIDFromToken_signed {gv : Given} {g : Gates} (hencoding : RawURLEncoding gv)
    (hsecret : g.secret ≠ []) {raw pidText user expiry : Bytes} (hkept : raw ∉ revokedNexPayloads)
    (hfields : splitN raw 3 = [pidText, user, expiry]) (now : Int) :
    nextendoPIDFromToken gv g now (signedToken gv g.secret raw) =
      (parseUint pidText).bind fun pid => (parseInt expiry).bind fun exp =>
        if now > exp then none else some pid := by
  have hstart : ¬ (g.secret.length = 0 ∨ ¬ tokenPrefix <+: signedToken gv g.secret raw) := by
    rw [not_or, not_not]
    exact ⟨fun h => hsecret (List.length_eq_zero_iff.mp h), List.prefix_append _ _⟩
  have hraw : gv.decodeBase64 (gv.encodeBase64 raw) = some raw := by
    rw [hencoding.encode, hencoding.decode]
    exact Base64.decode_encode raw
  unfold nextendoPIDFromToken
  rw [if_neg hstart, splitOn_signedToken hencoding]
  dsimp only
  rw [hraw, Option.bind_eq_bind, Option.bind_some, if_neg (not_not_intro rfl), if_neg hkept, hfields]
  rfl

/-- What the check makes of a token: it comes down to the third field of the payload. -/
theorem nextendoPIDFromToken_mint {gv : Given} {g : Gates} (hencoding : RawURLEncoding gv)
    (hsecret : g.secret ≠ []) {pid : UInt64} {username : Bytes} {expiry : Int}
    (hkept : payloadOf pid username expiry ∉ revokedNexPayloads) (now : Int) :
    nextendoPIDFromToken gv g now (mint gv g.secret pid username expiry) =
      if (dot ∉ username ∧ -2 ^ 63 ≤ expiry ∧ expiry < 2 ^ 63) ∧ now ≤ expiry then some pid else none := by
  obtain ⟨user, rest, hfields, hrest⟩ := fields_payloadOf pid username expiry
  rw [mint, nextendoPIDFromToken_signed hencoding hsecret hkept hfields, parseUint_itoa, hrest,
    Option.bind_some]
  by_cases hreadable : dot ∉ username ∧ -2 ^ 63 ≤ expiry ∧ expiry < 2 ^ 63
  · rw [if_pos hreadable, Option.bind_some]
    by_cases hnow : now ≤ expiry
    · rw [if_neg (Int.not_lt.mpr hnow), if_pos ⟨hreadable, hnow⟩]
    · rw [if_pos (Int.lt_of_not_ge hnow), if_neg (fun h => hnow h.2)]
  · rw [if_neg hreadable, if_neg (fun h => hreadable h.1)]
    rfl

/-- **Exactness of the check.**  A token that the account service signed, and that is not revoked, is accepted
with its PID and no other just until it expires, whenever its user name has no dot and its expiry is a number of
64 bits.  Any other token is refused at all times, and this is right only once it has expired. -/
theorem token_exact_iff {gv : Given} {g : Gates} (hencoding : RawURLEncoding gv) (hsecret : g.secret ≠ [])
    (pid : UInt64) (username : Bytes) (expiry : Int)
    (hkept : payloadOf pid username expiry ∉ revokedNexPayloads) (now : Int) :
    (∀ pid', nextendoPIDFromToken gv g now (mint gv g.secret pid username expiry) = some pid' ↔
        pid' = pid ∧ now ≤ expiry) ↔
      (dot ∉ username ∧ -2 ^ 63 ≤ expiry ∧ expiry < 2 ^ 63) ∨ expiry < now := by
  rw [nextendoPIDFromToken_mint hencoding hsecret hkept]
  constructor
  · intro hexact
    by_contra hbad
    rw [not_or, Int.not_lt] at hbad
    have haccepted := (hexact pid).mpr ⟨rfl, hbad.2⟩
    rw [if_neg (fun h => hbad.1 h.1)] at haccepted
    cases haccepted
  · intro hgood pid'
    by_cases hnow : now ≤ expiry
    · have hreadable := hgood.resolve_right (Int.not_lt.mpr hnow)
      rw [if_pos ⟨hreadable, hnow⟩, Option.some.injEq]
      constructor
      · intro heq
        exact ⟨heq.symm, hnow⟩
      · intro heq
        exact heq.1.symm
    · rw [if_neg (fun h => hnow h.2)]
      exact iff_of_false nofun (fun h => hnow h.2)

/-- `Moha`. -/
def plainName : Bytes := [77, 111, 104, 97]

/-- `a.b`. -/
def dottedName : Bytes := [97, 46, 98]

/-- The payload of the token in the test of the extra data. -/
example : Base64.encode (payloadOf 1800000042 plainName 9999999999) =
    [77, 84, 103, 119, 77, 68, 65, 119, 77, 68, 65, 48, 77, 105, 53, 78, 98, 50, 104, 104, 76, 106, 107, 53, 79,
      84, 107, 53, 79, 84, 107, 53, 79, 84, 107] := by decide

theorem plain_token_exact :
    strictGates.secret ≠ [] ∧ payloadOf 1800000042 plainName 9999999999 ∉ revokedNexPayloads ∧
      ∀ pid', nextendoPIDFromToken toyGiven strictGates 1800000000
        (mint toyGiven strictGates.secret 1800000042 plainName 9999999999) = some pid' ↔
          pid' = 1800000042 ∧ (1800000000 : Int) ≤ 9999999999 := by
  have hkept : payloadOf 1800000042 plainName 9999999999 ∉ revokedNexPayloads := by decide
  refine ⟨by decide, hkept, ?_⟩
  exact (token_exact_iff ⟨rfl, rfl⟩ (by decide) _ _ _ hkept _).mpr (.inl (by decide))

/-- A token with a dot in the user name is signed and not expired, and is refused. -/
theorem dotted_token_refused :
    strictGates.secret ≠ [] ∧ payloadOf 1800000042 dottedName 9999999999 ∉ revokedNexPayloads ∧
      nextendoPIDFromToken toyGiven strictGates 1800000000
        (mint toyGiven strictGates.secret 1800000042 dottedName 9999999999) = none ∧
      ¬ ∀ pid', nextendoPIDFromToken toyGiven strictGates 1800000000
        (mint toyGiven strictGates.secret 1800000042 dottedName 9999999999) = some pid' ↔
          pid' = 1800000042 ∧ (1800000000 : Int) ≤ 9999999999 := by
  have hkept : payloadOf 1800000042 dottedName 9999999999 ∉ revokedNexPayloads := by decide
  have hrefused : nextendoPIDFromToken toyGiven strictGates 1800000000
      (mint toyGiven strictGates.secret 1800000042 dottedName 9999999999) = none := by
    rw [nextendoPIDFromToken_mint ⟨rfl, rfl⟩ (by decide) hkept]
    exact if_neg (by decide)
  refine ⟨by decide, hkept, hrefused, fun hexact => ?_⟩
  rw [(hexact 1800000042).mpr ⟨rfl, by decide⟩] at hrefused
  cases hrefused

end NextendoMatchmaking.Login
