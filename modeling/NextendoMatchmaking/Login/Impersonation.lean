import NextendoMatchmaking.Library.Base64
import NextendoMatchmaking.Login.Identity
import Mathlib.Data.Nat.Digits.Defs

/-!
# No identity without a proof

When accounts and signed tokens are required, a login that is accepted has shown who it is
(`accepted_proven`): its user name is a token that the account service signed, or its user name is a PID and
the extra data carries such a token for that PID, or its user name is an NSA id and the account service said
whose it is.  The last one may have been said to another login, long ago: what keeps it true is that the cache
holds nothing but answers, and that a remembered failure never reads as a success.

Without the account gate a name that is no identity gets a PID from its digest.  The digests reach into the
range of the accounts, so such a name can get the PID of an account (`anonymous_outside_accounts_iff`).
-/

namespace NextendoMatchmaking.Login

open NextendoMatchmaking.Runs

variable {nsa : UInt64} {l : AuthLabel} {st' : AuthState}

/-! ### Numbers -/

/-- `s` is a decimal numeral for `n`. -/
def Decimal (s : Bytes) (n : ℕ) : Prop :=
  s ≠ [] ∧ (∀ b ∈ s, 48 ≤ b ∧ b ≤ 57) ∧ Nat.ofDigits 10 (s.reverse.map (fun b => b.toNat - 48)) = n

/-- `s` is a decimal numeral for `v`, perhaps with a sign. -/
def SignedDecimal (s : Bytes) (v : Int) : Prop :=
  (∃ n : ℕ, Decimal s n ∧ v = n) ∨ (∃ rest, ∃ n : ℕ, s = 43 :: rest ∧ Decimal rest n ∧ v = n) ∨
    ∃ rest, ∃ n : ℕ, s = 45 :: rest ∧ Decimal rest n ∧ v = -n

theorem digits_of_parseDigits {s : Bytes} {n : ℕ} (h : parseDigits s = some n) :
    (∀ b ∈ s, 48 ≤ b ∧ b ≤ 57) ∧ Nat.ofDigits 10 (s.reverse.map (fun b => b.toNat - 48)) = n := by
  -- on the last digit, the one that the loop reads last
  induction s using List.reverseRecOn generalizing n with
  | nil =>
    cases h
    exact ⟨by simp, rfl⟩
  | append_singleton s b ih =>
    unfold parseDigits at h
    rw [List.foldlM_append, Option.bind_eq_bind, Option.bind_eq_some_iff] at h
    obtain ⟨m, hm, hlast⟩ := h
    obtain ⟨hall, hvalue⟩ := ih hm
    rw [List.foldlM_cons] at hlast
    by_cases hb : 48 ≤ b ∧ b ≤ 57
    · rw [if_pos hb] at hlast
      cases hlast
      constructor
      · intro x hx
        rcases List.mem_append.mp hx with hx | hx
        · exact hall x hx
        · exact List.mem_singleton.mp hx ▸ hb
      · rw [List.reverse_append, List.map_append, List.reverse_singleton, List.map_singleton,
          List.singleton_append, Nat.ofDigits_cons, hvalue]
        exact Nat.add_comm _ _
    · rw [if_neg hb] at hlast
      cases hlast

theorem decimal_of_parseUint {s : Bytes} {n : UInt64} (h : parseUint s = some n) : Decimal s n.toNat := by
  unfold parseUint at h
  split at h
  · cases h
  · next hne =>
    obtain ⟨m, hm, hfits⟩ := Option.bind_eq_some_iff.mp h
    by_cases hlt : m < 2 ^ 64
    · rw [if_pos hlt] at hfits
      cases hfits
      obtain ⟨hall, hvalue⟩ := digits_of_parseDigits hm
      refine ⟨hne, hall, hvalue.trans ?_⟩
      rw [UInt64.toNat_ofNat', Nat.mod_eq_of_lt hlt]
    · rw [if_neg hlt] at hfits
      cases hfits

theorem signedDecimal_of_parseInt {s : Bytes} {v : Int} (h : parseInt s = some v) : SignedDecimal s v := by
  unfold parseInt at h
  obtain ⟨n, hn, hv⟩ := Option.bind_eq_some_iff.mp h
  have hdecimal := decimal_of_parseUint hn
  split at hdecimal
  · simp only [if_true] at hv
    split at hv
    · cases hv
      exact .inr (.inr ⟨_, _, rfl, hdecimal, rfl⟩)
    · cases hv
  · simp only [Bool.false_eq_true, if_false] at hv
    split at hv
    · cases hv
      exact .inr (.inl ⟨_, _, rfl, hdecimal, rfl⟩)
    · cases hv
  · simp only [Bool.false_eq_true, if_false] at hv
    split at hv
    · cases hv
      exact .inl ⟨_, hdecimal, rfl⟩
    · cases hv

/-! ### Tokens -/

variable {gv : Given} {g : Gates} {now now' : Int} {s : Bytes} {pid : UInt64}

/-- The parts of a token and of its payload. -/
structure Token where
  payload : Bytes
  signature : Bytes
  raw : Bytes
  pidText : Bytes
  user : Bytes
  expiry : Bytes
  exp : Int

/-- `s` is a token that was signed with the secret, is not revoked, names `pid` and is good at `now`. -/
structure Token.Valid (gv : Given) (g : Gates) (now : Int) (s : Bytes) (pid : UInt64) (t : Token) : Prop where
  text : s = tokenPrefix ++ (t.payload ++ dot :: t.signature)
  payload : gv.decodeBase64 t.payload = some t.raw
  secret : g.secret ≠ []
  signature : t.signature = gv.encodeBase64 (gv.hmacSHA256 g.secret (signedPrefix ++ t.raw))
  notRevoked : t.raw ∉ revokedNexPayloads
  fields : t.raw = t.pidText ++ dot :: (t.user ++ dot :: t.expiry)
  names : Decimal t.pidText pid.toNat
  expiry : SignedDecimal t.expiry t.exp
  unexpired : now ≤ t.exp

/-- `s` is a valid token for `pid`. -/
def ValidToken (gv : Given) (g : Gates) (now : Int) (s : Bytes) (pid : UInt64) : Prop :=
  ∃ t : Token, t.Valid gv g now s pid

/-- Parts that are joined first make no difference. -/
theorem intercalate_append_joined {sep : Bytes} (front : List Bytes) {back : List Bytes} (hback : back ≠ []) :
    sep.intercalate (front ++ [sep.intercalate back]) = sep.intercalate (front ++ back) := by
  induction front with
  | nil => exact List.intercalate_singleton
  | cons part front ih =>
    rw [List.cons_append, List.cons_append, List.intercalate_cons_of_ne_nil (by simp),
      List.intercalate_cons_of_ne_nil (by simp [hback]), ih]

theorem intercalate_splitN (s : Bytes) {n : ℕ} (hn : 0 < n) : [dot].intercalate (splitN s n) = s := by
  unfold splitN
  dsimp only
  split
  · exact List.intercalate_splitOn dot
  · next hlong =>
    have hback : (s.splitOn dot).drop (n - 1) ≠ [] := by
      rw [Ne, List.drop_eq_nil_iff]
      omega
    rw [intercalate_append_joined _ hback, List.take_append_drop]
    exact List.intercalate_splitOn dot

theorem validToken_of_nextendoPIDFromToken (h : nextendoPIDFromToken gv g now s = some pid) :
    ValidToken gv g now s pid := by
  unfold nextendoPIDFromToken at h
  split at h
  · cases h
  next hstart =>
  rw [not_or, not_not] at hstart
  split at h
  next payload signature hsplit =>
    obtain ⟨raw, hraw, h⟩ := Option.bind_eq_some_iff.mp h
    dsimp only at h
    split at h
    · cases h
    next hsignature =>
    split at h
    · cases h
    next hrevoked =>
    split at h
    next pidText user expiry hfields =>
      obtain ⟨n, hpid, h⟩ := Option.bind_eq_some_iff.mp h
      obtain ⟨exp, hexp, h⟩ := Option.bind_eq_some_iff.mp h
      split at h
      · cases h
      next hnow =>
      cases h
      have htext : [dot].intercalate ((s.drop tokenPrefix.length).splitOn dot) = s.drop tokenPrefix.length :=
        List.intercalate_splitOn dot
      rw [hsplit] at htext
      have hparts := intercalate_splitN raw (n := 3) (by decide)
      rw [hfields] at hparts
      refine ⟨⟨payload, signature, raw, pidText, user, expiry, exp⟩, ?_, hraw, ?_,
        (not_not.mp hsignature).symm, hrevoked, ?_, decimal_of_parseUint hpid, signedDecimal_of_parseInt hexp,
        not_lt.mp hnow⟩
      · rw [← List.prefix_iff_eq_append.mp hstart.2, ← htext]
        simp [List.intercalate]
      · exact fun hnil => hstart.1 (congrArg List.length hnil)
      · rw [← hparts]
        simp [List.intercalate]
    · cases h
  · cases h

/-! ### The token in the extra data -/

/-- The extra data carries a JWT whose payload has `token` as its claim. -/
def Embeds (gv : Given) (extraData token : Bytes) : Prop :=
  ∃ before jwt after header segment more json,
    extraData = before ++ (jwt ++ after) ∧ jwtStart <+: jwt ∧ (∀ b ∈ jwt, isJWTByte b = true) ∧
    jwt.splitOn dot = header :: segment :: more ∧ gv.decodeBase64 (trimPadding segment) = some json ∧
    gv.nnexClaim json = some token ∧ token ≠ []

theorem found_of_fromFirst {pattern s rest : Bytes} (h : fromFirst pattern s = some rest) :
    pattern <+: rest ∧ ∃ before, s = before ++ rest := by
  induction s with
  | nil =>
    unfold fromFirst at h
    split at h
    · next hpattern =>
      cases h
      exact ⟨hpattern ▸ List.prefix_refl _, [], rfl⟩
    · cases h
  | cons b s ih =>
    unfold fromFirst at h
    split at h
    · next hfound =>
      cases h
      exact ⟨hfound, [], rfl⟩
    · obtain ⟨hfound, before, hbefore⟩ := ih h
      exact ⟨hfound, b :: before, congrArg (b :: ·) hbefore⟩

theorem embeds_of_nexTokenFromLoginExtraData {extraData token : Bytes}
    (h : nexTokenFromLoginExtraData gv extraData = some token) : Embeds gv extraData token := by
  unfold nexTokenFromLoginExtraData at h
  split at h
  · cases h
  next rest hrest =>
  split at h
  next header segment more hsegments =>
    obtain ⟨json, hjson, h⟩ := Option.bind_eq_some_iff.mp h
    obtain ⟨nnex, hnnex, h⟩ := Option.bind_eq_some_iff.mp h
    split at h
    · cases h
    next hne =>
    cases h
    obtain ⟨⟨tail, htail⟩, before, hbefore⟩ := found_of_fromFirst hrest
    refine ⟨before, rest.takeWhile isJWTByte, rest.dropWhile isJWTByte, header, segment, more, json, ?_, ?_,
      fun b hb => List.mem_takeWhile_imp hb, hsegments, hjson, hnnex, hne⟩
    · rw [List.takeWhile_append_dropWhile]
      exact hbefore
    · -- the three bytes that were found are bytes of a JWT
      have hbytes : jwtStart.all isJWTByte = true := by decide
      rw [← htail, List.takeWhile_append_of_pos (List.all_eq_true.mp hbytes)]
      exact List.prefix_append _ _
  · cases h

/-! ### Proofs of identity -/

/-- At some point of the run the account service answered that the console `nsa` belongs to `pid`. -/
def Answered (gv : Given) (labels : List AuthLabel) (nsa pid : UInt64) : Prop :=
  ∃ id body, .answer id nsa (.status 200 body) ∈ labels ∧ gv.pidField body = some pid

/-- The ways in which a login that was made at `now` and `now'` has shown that it is `pid`. -/
inductive Proven (gv : Given) (g : Gates) (labels : List AuthLabel) (username extraData : Bytes)
    (now now' : Int) (pid : UInt64) : Prop
  /-- The user name is a valid token. -/
  | token (h : ValidToken gv g now username pid)
  /-- The user name is the PID, and the extra data has a valid token for it. -/
  | embedded (hname : Decimal username pid.toNat) (hrange : 1800000000 ≤ pid ∧ pid < 1810000000)
      {token : Bytes} (hembeds : Embeds gv extraData token) (htoken : ValidToken gv g now' token pid)
  /-- The user name is an NSA id, and the account service said whose it is. -/
  | console {nsa : UInt64} (hname : Decimal username nsa.toNat) (hrange : 1810000000 ≤ nsa)
      (hanswered : Answered gv labels nsa pid)

variable {labels : List AuthLabel} {username extraData : Bytes} {st : AuthState}

theorem Answered.snoc (h : Answered gv labels nsa pid) (l : AuthLabel) :
    Answered gv (labels ++ [l]) nsa pid := by
  obtain ⟨id, body, hmem, hpid⟩ := h
  exact ⟨id, body, List.mem_append_left _ hmem, hpid⟩

theorem Proven.snoc (h : Proven gv g labels username extraData now now' pid) (l : AuthLabel) :
    Proven gv g (labels ++ [l]) username extraData now now' pid := by
  cases h with
  | token h => exact .token h
  | embedded hname hrange hembeds htoken => exact .embedded hname hrange hembeds htoken
  | console hname hrange hanswered => exact .console hname hrange (hanswered.snoc l)

/-- What a login has shown when it stands in a phase. -/
def PhaseProven (gv : Given) (g : Gates) (labels : List AuthLabel) (username extraData : Bytes)
    (now now' : Int) : Phase → Prop
  | .lookup nsa => Decimal username nsa.toNat ∧ 1810000000 ≤ nsa
  | .acquire nsa => Decimal username nsa.toNat ∧ 1810000000 ≤ nsa
  | .asking nsa => Decimal username nsa.toNat ∧ 1810000000 ≤ nsa
  | .failing _ status => status ≠ .ok
  | .storing nsa pid => (Decimal username nsa.toNat ∧ 1810000000 ≤ nsa) ∧ Answered gv labels nsa pid
  | .releasing pid status => status = .ok → Proven gv g labels username extraData now now' pid
  | .checking pid _ => Proven gv g labels username extraData now now' pid
  | .done result => ∀ pid key, result = some (pid, key) → Proven gv g labels username extraData now now' pid

theorem PhaseProven.snoc {phase : Phase} (h : PhaseProven gv g labels username extraData now now' phase)
    (l : AuthLabel) : PhaseProven gv g (labels ++ [l]) username extraData now now' phase := by
  cases phase with
  | lookup nsa => exact h
  | acquire nsa => exact h
  | asking nsa => exact h
  | failing nsa status => exact h
  | storing nsa pid => exact ⟨h.1, h.2.snoc l⟩
  | releasing pid status => exact fun hok => (h hok).snoc l
  | checking pid kind => exact Proven.snoc h l
  | done result => exact fun pid key hresult => (h pid key hresult).snoc l

theorem phaseProven_rejected : PhaseProven gv g labels username extraData now now' (.done none) := nofun

theorem phaseProven_afterNSA {status : NSAStatus}
    (h : status = .ok → Proven gv g labels username extraData now now' pid) :
    PhaseProven gv g labels username extraData now now' (afterNSA pid status) := by
  cases status with
  | ok => exact h rfl
  | unknown => exact phaseProven_rejected
  | unreachable => exact phaseProven_rejected

/-- **The start of a login.**  Only a valid token goes straight to the online check. -/
theorem phaseProven_resolveUser (haccount : g.requireAccount = true) (hsigned : g.requireSignedToken = true)
    (username extraData : Bytes) (now now' : Int) :
    PhaseProven gv g labels username extraData now now' (resolveUser gv g username extraData now now') := by
  have hanonymous : anonymous gv g username = .done none := by
    unfold anonymous
    rw [if_pos haccount]
  unfold resolveUser
  split
  · next pid htoken => exact .token (validToken_of_nextendoPIDFromToken htoken)
  split
  · rw [hanonymous]
    exact phaseProven_rejected
  next n hn =>
  have hname := decimal_of_parseUint hn
  split
  · rw [hanonymous]
    exact phaseProven_rejected
  next hlow =>
  dsimp only
  split
  · next hhigh =>
    split
    · exact phaseProven_rejected
    · next hproven =>
      have hbind := Classical.not_not.mp fun hne => hproven ⟨hsigned, hne⟩
      obtain ⟨token, htoken, hpid⟩ := Option.bind_eq_some_iff.mp hbind
      exact .embedded hname ⟨UInt64.not_lt.mp hlow, hhigh⟩ (embeds_of_nexTokenFromLoginExtraData htoken)
        (validToken_of_nextendoPIDFromToken hpid)
  · next hhigh => exact ⟨hname, UInt64.not_lt.mp hhigh⟩

/-! ### The caches and the logins -/

/-- The cache holds answers of the account service, and the other cache no success. -/
structure CachesSound (gv : Given) (labels : List AuthLabel) (st : AuthState) : Prop where
  answers : ∀ nsa pid, st.nsaCache.lookup nsa = some pid → Answered gv labels nsa pid
  failures : ∀ nsa entry, st.nsaNegCache.lookup nsa = some entry → entry.status ≠ .ok

theorem CachesSound.snoc (h : CachesSound gv labels st) (l : AuthLabel) : CachesSound gv (labels ++ [l]) st where
  answers nsa pid hpid := (h.answers nsa pid hpid).snoc l
  failures := h.failures

theorem cachesSound_rememberNSAFailure (h : CachesSound gv labels st) {status : NSAStatus}
    (hstatus : status ≠ .ok) (nsa : UInt64) (now : Int) :
    CachesSound gv labels (rememberNSAFailure st nsa status now) where
  answers := h.answers
  failures nsa' entry hentry := by
    unfold rememberNSAFailure at hentry
    dsimp only at hentry
    rw [GoMap.lookup_insert_eq] at hentry
    split at hentry
    · cases hentry
      exact hstatus
    · split at hentry
      · cases hentry
      · exact h.failures nsa' entry hentry

theorem cachesSound_store (h : CachesSound gv labels st) {pid : UInt64} (hpid : Answered gv labels nsa pid) :
    CachesSound gv labels
      { st with nsaCache := st.nsaCache.insert nsa pid, nsaNegCache := st.nsaNegCache.erase nsa } where
  answers nsa' pid' hpid' := by
    rw [GoMap.lookup_insert_eq] at hpid'
    split at hpid'
    · next heq =>
      cases hpid'
      exact heq ▸ hpid
    · exact h.answers nsa' pid' hpid'
  failures nsa' entry hentry := by
    rw [GoMap.lookup_erase_eq] at hentry
    split at hentry
    · cases hentry
    · exact h.failures nsa' entry hentry

theorem phaseProven_nsaLookup (h : CachesSound gv labels st) (hname : Decimal username nsa.toNat)
    (hrange : 1810000000 ≤ nsa) (t : Int) :
    PhaseProven gv g labels username extraData now now' (nsaLookup st nsa t) := by
  unfold nsaLookup
  split
  · next pid hpid => exact phaseProven_afterNSA fun _ => .console hname hrange (h.answers nsa pid hpid)
  split
  · next entry hentry =>
    split
    · exact phaseProven_afterNSA fun hok => absurd hok (h.failures nsa entry hentry)
    · exact ⟨hname, hrange⟩
  · exact ⟨hname, hrange⟩

/-- The answer is the last label of the run. -/
theorem phaseProven_nsaAnswered (hname : Decimal username nsa.toNat) (hrange : 1810000000 ≤ nsa) (id : ℕ)
    (response : Response) :
    PhaseProven gv g (labels ++ [.answer id nsa response]) username extraData now now'
      (nsaAnswered gv nsa response) := by
  unfold nsaAnswered
  split
  · exact NSAStatus.noConfusion
  next code body =>
  split
  · exact NSAStatus.noConfusion
  split
  · exact NSAStatus.noConfusion
  next hcode =>
  split
  · exact NSAStatus.noConfusion
  next pid hpid =>
  split
  · exact NSAStatus.noConfusion
  · refine ⟨⟨hname, hrange⟩, id, body, List.mem_append_right _ ?_, hpid⟩
    rw [Classical.not_not.mp hcode]
    exact List.mem_singleton_self _

/-- **A step of a login** keeps the caches sound and carries the proof along. -/
theorem move_sound {a : LoginAttempt} {phase : Phase} (hcaches : CachesSound gv labels st)
    (hphase : PhaseProven gv g labels a.username a.extraData now now' a.phase)
    (h : move gv st a l = some (st', phase)) :
    CachesSound gv (labels ++ [l]) st' ∧ st'.attempts = st.attempts ∧
      PhaseProven gv g (labels ++ [l]) a.username a.extraData now now' phase := by
  have hcaches' := hcaches.snoc l
  have hphase' := hphase.snoc l
  unfold move at h
  split at h
  next nsa id t hat =>
    rw [hat] at hphase'
    cases h
    exact ⟨hcaches', rfl, phaseProven_nsaLookup hcaches' hphase'.1 hphase'.2 t⟩
  next nsa id hat =>
    rw [hat] at hphase'
    split at h
    · cases h
      exact ⟨⟨hcaches'.answers, hcaches'.failures⟩, rfl, hphase'⟩
    · cases h
      exact ⟨hcaches', rfl, phaseProven_rejected⟩
  next nsa id nsa' response hat =>
    rw [hat] at hphase
    split at h
    · next heq =>
      cases h
      subst heq
      exact ⟨hcaches', rfl, phaseProven_nsaAnswered hphase.1 hphase.2 id response⟩
    · cases h
  next nsa status id t hat =>
    rw [hat] at hphase'
    cases h
    exact ⟨cachesSound_rememberNSAFailure hcaches' hphase' nsa t, rfl, fun hok => absurd hok hphase'⟩
  next nsa pid id hat =>
    rw [hat] at hphase'
    cases h
    exact ⟨cachesSound_store hcaches' hphase'.2, rfl, fun _ => .console hphase'.1.1 hphase'.1.2 hphase'.2⟩
  next pid status id hat =>
    rw [hat] at hphase'
    cases h
    exact ⟨⟨hcaches'.answers, hcaches'.failures⟩, rfl, phaseProven_afterNSA hphase'⟩
  next pid kind id response hat =>
    rw [hat] at hphase'
    cases h
    refine ⟨hcaches', rfl, fun pid' key hresult => ?_⟩
    split at hresult
    · cases hresult
      exact hphase'
    · cases hresult
  · cases h

/-- What holds along every run in which accounts and signed tokens are required. -/
structure AuthInv (gv : Given) (g : Gates) (labels : List AuthLabel) (st : AuthState) : Prop where
  caches : CachesSound gv labels st
  attempts : ∀ id a, st.attempts.lookup id = some a → ∃ now now',
    .start id a.username a.extraData now now' ∈ labels ∧
      PhaseProven gv g labels a.username a.extraData now now' a.phase

theorem authInv_start (gv : Given) (g : Gates) : AuthInv gv g [] {} where
  caches := ⟨nofun, nofun⟩
  attempts _ _ h := nomatch h

/-- A login that is put down, with the others as they were. -/
theorem AuthInv.put (h : AuthInv gv g labels st) (hcaches : CachesSound gv (labels ++ [l]) st')
    (hsame : st'.attempts = st.attempts) (id : ℕ) {a : LoginAttempt}
    (ha : ∃ now now', .start id a.username a.extraData now now' ∈ labels ++ [l] ∧
      PhaseProven gv g (labels ++ [l]) a.username a.extraData now now' a.phase) :
    AuthInv gv g (labels ++ [l]) (st'.put id a) where
  caches := ⟨hcaches.answers, hcaches.failures⟩
  attempts id' a' hlookup := by
    unfold AuthState.put at hlookup
    dsimp only at hlookup
    rw [GoMap.lookup_insert_eq, hsame] at hlookup
    split at hlookup
    · next heq =>
      cases hlookup
      exact heq ▸ ha
    · obtain ⟨now, now', hstart, hphase⟩ := h.attempts id' a' hlookup
      exact ⟨now, now', List.mem_append_left _ hstart, hphase.snoc l⟩

theorem authInv_step (haccount : g.requireAccount = true) (hsigned : g.requireSignedToken = true)
    (h : AuthInv gv g labels st) (hstep : authStep gv g st l = some st') :
    AuthInv gv g (labels ++ [l]) st' := by
  unfold authStep at hstep
  split at hstep
  · split at hstep
    · next id username extraData now now' hnew =>
      cases hstep
      refine h.put (h.caches.snoc _) rfl id ⟨now, now', List.mem_append_right _ (List.mem_singleton_self _), ?_⟩
      exact phaseProven_resolveUser haccount hsigned username extraData now now'
    · cases hstep
  · next a hlookup =>
    obtain ⟨⟨st₁, phase⟩, hmove, heq⟩ := Option.map_eq_some_iff.mp hstep
    cases heq
    obtain ⟨now, now', hstart, hphase⟩ := h.attempts _ a hlookup
    obtain ⟨hcaches, hsame, hphase'⟩ := move_sound h.caches hphase hmove
    exact h.put hcaches hsame _ ⟨now, now', List.mem_append_left _ hstart, hphase'⟩

/-- **No identity without a proof.**  With both variables set to `1`, in every run of any number of logins, and
whatever the account service answers, a login that is accepted as `pid` has proved it. -/
theorem accepted_proven (haccount : g.requireAccountVar = [49]) (hsigned : g.requireSignedTokenVar = [49])
    (hrun : run (authStep gv g) {} labels = some st) {id : ℕ} {a : LoginAttempt} {key : Bytes}
    (hlookup : st.attempts.lookup id = some a) (hdone : a.phase = .done (some (pid, key))) :
    ∃ now now', .start id a.username a.extraData now now' ∈ labels ∧
      Proven gv g labels a.username a.extraData now now' pid := by
  have haccount' : g.requireAccount = true := decide_eq_true haccount
  have hsigned' : g.requireSignedToken = true := decide_eq_true (.inl hsigned)
  have hinv : AuthInv gv g labels st :=
    run_history (authInv_start gv g) (fun _ _ _ _ h hstep => authInv_step haccount' hsigned' h hstep) hrun
  obtain ⟨now, now', hstart, hphase⟩ := hinv.attempts id a hlookup
  rw [hdone] at hphase
  exact ⟨now, now', hstart, hphase pid key rfl⟩

/-- The text of a token with this payload. -/
def signedToken (gv : Given) (secret raw : Bytes) : Bytes :=
  tokenPrefix ++
    (gv.encodeBase64 raw ++ dot :: gv.encodeBase64 (gv.hmacSHA256 secret (signedPrefix ++ raw)))

/-- A digest of 32 bytes that is quick to compute. -/
def quickDigest (data : Bytes) : Bytes :=
  (List.range 8).flatMap (fun i => StreamOut.u32 (fnv32a (UInt8.ofNat i :: data)))

/-- A service with quick digests, whose claims are a token as such. -/
def toyGiven : Given where
  sha256 := quickDigest
  hmacSHA256 key data := quickDigest (key ++ data)
  encodeBase64 := Base64.encode
  decodeBase64 := Base64.decode
  nnexClaim json := some json
  pidField _ := some 1800000002
  allowField _ := none

def strictGates : Gates := ⟨[49], [49], [1]⟩

/-- `1800000001`, with a token for this PID in the extra data: its payload is `1800000001.u.99`. -/
def emulatorLogin : LoginAttempt where
  username := [49, 56, 48, 48, 48, 48, 48, 48, 48, 49]
  extraData := jwtStart ++ dot :: Base64.encode (signedToken toyGiven strictGates.secret
    [49, 56, 48, 48, 48, 48, 48, 48, 48, 49, 46, 117, 46, 57, 57])
  phase := .done (some (1800000001, sourceKeyOf toyGiven [49, 56, 48, 48, 48, 48, 48, 48, 48, 49]))

/-- `1810000000`, a console. -/
def consoleLogin : LoginAttempt where
  username := [49, 56, 49, 48, 48, 48, 48, 48, 48, 48]
  extraData := []
  phase := .done (some (1800000002, sourceKeyOf toyGiven [49, 56, 49, 48, 48, 48, 48, 48, 48, 48]))

/-- Both log in at once; the online check does not answer. -/
def twoLogins : List AuthLabel :=
  [.start 0 emulatorLogin.username emulatorLogin.extraData 50 50, .start 1 consoleLogin.username [] 50 50,
    .lookup 1 0, .acquire 1, .online 0 .error, .answer 1 1810000000 (.status 200 []), .store 1, .release 1,
    .online 1 .error]

theorem accepted_proven_twoLogins : ∃ st, run (authStep toyGiven strictGates) {} twoLogins = some st ∧
    (∃ now now', .start 0 emulatorLogin.username emulatorLogin.extraData now now' ∈ twoLogins ∧
      Proven toyGiven strictGates twoLogins emulatorLogin.username emulatorLogin.extraData now now' 1800000001) ∧
    ∃ now now', .start 1 consoleLogin.username consoleLogin.extraData now now' ∈ twoLogins ∧
      Proven toyGiven strictGates twoLogins consoleLogin.username consoleLogin.extraData now now' 1800000002 := by
  have hrun : (run (authStep toyGiven strictGates) {} twoLogins).map
      (fun st => (st.attempts.lookup 0, st.attempts.lookup 1)) = some (some emulatorLogin, some consoleLogin) := by
    decide +kernel
  obtain ⟨st, hst, hlogins⟩ := Option.map_eq_some_iff.mp hrun
  refine ⟨st, hst, ?_, ?_⟩
  · exact accepted_proven rfl rfl hst (congrArg Prod.fst hlogins) rfl
  · exact accepted_proven rfl rfl hst (congrArg Prod.snd hlogins) rfl

/-! ### Names without an identity -/

/-- The PIDs that `resolveUser` takes for registered accounts. -/
def IsAccountPID (pid : UInt64) : Prop := 1800000000 ≤ pid ∧ pid < 1810000000

theorem toNat_anonymousPID (username : Bytes) :
    (anonymousPID username).toNat = 1800000000 + (fnv32a username).toNat % 100000000 := by
  have hdigest : ((fnv32a username % 100000000).toUInt64).toNat = (fnv32a username).toNat % 100000000 := by
    rw [UInt32.toNat_toUInt64, UInt32.toNat_mod]
    rfl
  show (1800000000 + (fnv32a username % 100000000).toUInt64).toNat = _
  rw [UInt64.toNat_add, hdigest]
  show (1800000000 + (fnv32a username).toNat % 100000000) % 2 ^ 64 = _
  omega

theorem isAccountPID_anonymousPID {username : Bytes} :
    IsAccountPID (anonymousPID username) ↔ (fnv32a username).toNat % 100000000 < 10000000 := by
  have hpid := toNat_anonymousPID username
  rw [IsAccountPID, UInt64.le_iff_toNat_le, UInt64.lt_iff_toNat_lt]
  show 1800000000 ≤ (anonymousPID username).toNat ∧ (anonymousPID username).toNat < 1810000000 ↔ _
  omega

/-- A name that is neither a token nor a large number gets the PID of its digest at once. -/
theorem resolveUser_anonymous {username extraData : Bytes} {now now' : Int}
    (haccount : g.requireAccount = false) (htoken : nextendoPIDFromToken gv g now username = none)
    (hnumber : ∀ n, parseUint username = some n → n < 1800000000) :
    resolveUser gv g username extraData now now' =
      .done (some (anonymousPID username, sourceKeyOf gv username)) := by
  have hanonymous : anonymous gv g username =
      .done (some (anonymousPID username, sourceKeyOf gv username)) := by
    unfold anonymous
    rw [haccount]
    rfl
  unfold resolveUser
  rw [htoken]
  cases hparse : parseUint username with
  | none => exact hanonymous
  | some n =>
    show (if n < 1800000000 then anonymous gv g username else _) = _
    rw [if_pos (hnumber n hparse), hanonymous]

/-- **Anonymous names and accounts.**  Without the account gate, a name that is neither a valid token nor a
number from `1800000000` on is accepted, and its PID is outside the range of the accounts just when the
digest of the name is at least `10000000` modulo `100000000`. -/
theorem anonymous_outside_accounts_iff (gv : Given) (g : Gates) (username extraData : Bytes) (now now' : Int)
    (haccount : g.requireAccount = false) (htoken : nextendoPIDFromToken gv g now username = none)
    (hnumber : ∀ n, parseUint username = some n → n < 1800000000) :
    (∃ pid key, resolveUser gv g username extraData now now' = .done (some (pid, key)) ∧
        ¬ IsAccountPID pid) ↔
      10000000 ≤ (fnv32a username).toNat % 100000000 := by
  rw [resolveUser_anonymous haccount htoken hnumber]
  constructor
  · rintro ⟨pid, key, heq, houtside⟩
    injection heq with heq
    injection heq with heq
    injection heq with hpid _
    rw [← hpid, isAccountPID_anonymousPID, Nat.not_lt] at houtside
    exact houtside
  · intro hdigest
    refine ⟨_, _, rfl, ?_⟩
    rw [isAccountPID_anonymousPID, Nat.not_lt]
    exact hdigest

/-- No variable is set; there is a secret for the tokens. -/
def openGates : Gates := ⟨[], [], [1]⟩

/-- `mario` gets a PID behind the accounts. -/
theorem anonymous_outside_accounts_mario :
    ∃ pid key, resolveUser toyGiven openGates [109, 97, 114, 105, 111] [] 50 50 = .done (some (pid, key)) ∧
      ¬ IsAccountPID pid := by
  have hnumber : parseUint [109, 97, 114, 105, 111] = none := by decide
  refine (anonymous_outside_accounts_iff toyGiven openGates _ [] 50 50 (by decide) (by decide) ?_).mpr
    (by decide)
  intro n hn
  rw [hnumber] at hn
  cases hn

/-- `nechna` gets the PID of the account `1800000006`. -/
theorem anonymous_name_aliases_account :
    openGates.requireAccountVar = [] ∧
      nextendoPIDFromToken toyGiven openGates 50 [110, 101, 99, 104, 110, 97] = none ∧
      parseUint [110, 101, 99, 104, 110, 97] = none ∧
      ¬ ∃ pid key, resolveUser toyGiven openGates [110, 101, 99, 104, 110, 97] [] 50 50 =
        .done (some (pid, key)) ∧ ¬ IsAccountPID pid := by
  refine ⟨rfl, by decide, by decide, ?_⟩
  rintro ⟨pid, key, heq, houtside⟩
  have hpid : resolveUser toyGiven openGates [110, 101, 99, 104, 110, 97] [] 50 50 =
      .done (some (1800000006, sourceKeyOf toyGiven [110, 101, 99, 104, 110, 97])) := by decide
  rw [hpid] at heq
  injection heq with heq
  injection heq with heq
  injection heq with hpid' _
  rw [← hpid'] at houtside
  exact houtside ⟨by decide, by decide⟩

end NextendoMatchmaking.Login
