import NextendoMatchmaking.Login.Impersonation
import Mathlib.Data.Finset.Card

/-!
# What the logins ask of the account service

The port of the authentication server is open to everybody, and the account service is shared by all games.
`resolveNSAtoPID` (`server/gates.go`) therefore limits what a flood of logins can ask of it: a channel of
`nsaMaxInflight` places, a table of failures with at most `nsaNegCacheMax` entries, and a time to live for what is
in it.

Each step of a login is described once (`Moved`).  The places of the channel are those of the logins between the
`select` and the release (`card_holders`), so that none is ever lost and at most `nsaMaxInflight` requests are open
at once (`account_calls_bounded`); and while the table is not emptied, a login for an NSA id that has just failed
does not ask `/api/nsa` (`failure_suppresses_calls`).
-/

namespace NextendoMatchmaking.Login

open NextendoMatchmaking.Runs

variable {gv : Given} {g : Gates} {s s' : AuthState} {l : AuthLabel} {id : ℕ} {a a' : LoginAttempt} {phase : Phase}
variable {phase' : Phase} {nsa : UInt64}

/-! ### One step of a login -/

/-- What a step of a login does to the state that the logins share, and where the login then stands. -/
inductive Moved (gv : Given) (s : AuthState) : Phase → AuthLabel → AuthState → Phase → Prop
  | looked {nsa : UInt64} {id : ℕ} {now : Int} :
      Moved gv s (.lookup nsa) (.lookup id now) s (nsaLookup s nsa now)
  | acquired {nsa : UInt64} {id : ℕ} (h : s.nsaInflight < nsaMaxInflight) :
      Moved gv s (.acquire nsa) (.acquire id) { s with nsaInflight := s.nsaInflight + 1 } (.asking nsa)
  | saturated {nsa : UInt64} {id : ℕ} : Moved gv s (.acquire nsa) (.acquire id) s (.done none)
  | answered {nsa : UInt64} {id : ℕ} {response : Response} :
      Moved gv s (.asking nsa) (.answer id nsa response) s (nsaAnswered gv nsa response)
  | remembered {nsa : UInt64} {status : NSAStatus} {id : ℕ} {now : Int} :
      Moved gv s (.failing nsa status) (.remember id now) (rememberNSAFailure s nsa status now)
        (.releasing 0 status)
  | stored {nsa pid : UInt64} {id : ℕ} : Moved gv s (.storing nsa pid) (.store id)
      { s with nsaCache := s.nsaCache.insert nsa pid, nsaNegCache := s.nsaNegCache.erase nsa } (.releasing pid .ok)
  | released {pid : UInt64} {status : NSAStatus} {id : ℕ} : Moved gv s (.releasing pid status) (.release id)
      { s with nsaInflight := s.nsaInflight - 1 } (afterNSA pid status)
  | checked {pid : UInt64} {kind : Kind} {id : ℕ} {response : Response} (result : Option (UInt64 × Bytes)) :
      Moved gv s (.checking pid kind) (.online id response) s (.done result)

theorem moved_of_move (h : move gv s a l = some (s', phase)) : Moved gv s a.phase l s' phase := by
  unfold move at h
  split at h
  next hat =>
    cases h
    exact hat ▸ .looked
  next hat =>
    rw [hat]
    split at h
    next hroom =>
      cases h
      exact .acquired hroom
    · cases h
      exact .saturated
  next hat =>
    rw [hat]
    obtain ⟨heq, h⟩ := Option.ite_none_right_eq_some.mp h
    cases h
    exact heq ▸ .answered
  next hat =>
    cases h
    exact hat ▸ .remembered
  next hat =>
    cases h
    exact hat ▸ .stored
  next hat =>
    cases h
    exact hat ▸ .released
  next hat =>
    cases h
    exact hat ▸ .checked _
  · cases h

theorem Moved.attempts (h : Moved gv s phase l s' phase') : s'.attempts = s.attempts := by
  cases h <;> rfl

/-- A step of the server: a login begins, or one that has begun goes on. -/
inductive Stepped (gv : Given) (g : Gates) (s : AuthState) : AuthLabel → AuthState → Prop
  | start {id : ℕ} {username extraData : Bytes} {now now' : Int} (h : s.attempts.lookup id = none) :
      Stepped gv g s (.start id username extraData now now')
        (s.put id ⟨username, extraData, resolveUser gv g username extraData now now'⟩)
  | move {l : AuthLabel} {a : LoginAttempt} {s' : AuthState} {phase : Phase}
      (ha : s.attempts.lookup l.attempt = some a) (h : Moved gv s a.phase l s' phase) :
      Stepped gv g s l (s'.put l.attempt { a with phase })

theorem stepped_of_authStep (h : authStep gv g s l = some s') : Stepped gv g s l s' := by
  unfold authStep at h
  split at h
  next hnone =>
    split at h
    · cases h
      exact .start hnone
    · cases h
  next a ha =>
    obtain ⟨⟨s₁, phase⟩, hmove, heq⟩ := Option.map_eq_some_iff.mp h
    cases heq
    exact .move ha (moved_of_move hmove)

theorem lookup_put (s : AuthState) (id id' : ℕ) (a : LoginAttempt) :
    (s.put id a).attempts.lookup id' = if id' = id then some a else s.attempts.lookup id' :=
  GoMap.lookup_insert_eq _ _ _ _

/-! ### Places and failures -/

/-- The login has a place in `nsaInflight`. -/
def Phase.holds : Phase → Bool
  | .asking _ | .failing _ _ | .storing _ _ | .releasing _ _ => true
  | _ => false

/-- A request to `/api/nsa` is open. -/
def Phase.asks : Phase → Bool
  | .asking _ => true
  | _ => false

theorem Phase.holds_of_asks (h : phase.asks = true) : phase.holds = true := by
  cases phase <;> first | rfl | cases h

/-- The logins that have a place. -/
def holders (s : AuthState) : Finset ℕ := s.attempts.keysWhere (fun a => a.phase.holds)

/-- The logins whose request to `/api/nsa` is open. -/
def openCalls (s : AuthState) : Finset ℕ := s.attempts.keysWhere (fun a => a.phase.asks)

theorem openCalls_subset_holders (s : AuthState) : openCalls s ⊆ holders s := by
  intro id hid
  have hasks := GoMap.mem_keysWhere.mp hid
  refine GoMap.mem_keysWhere.mpr ?_
  cases ha : s.attempts.lookup id with
  | none => simp [ha] at hasks
  | some a =>
    rw [ha] at hasks
    exact Phase.holds_of_asks hasks

theorem holds_resolveUser (gv : Given) (g : Gates) (username extraData : Bytes) (now now' : Int) :
    (resolveUser gv g username extraData now now').holds = false := by
  unfold resolveUser anonymous
  grind [Phase.holds]

theorem holds_afterNSA (pid : UInt64) (status : NSAStatus) : (afterNSA pid status).holds = false := by
  cases status <;> rfl

theorem holds_nsaLookup (s : AuthState) (nsa : UInt64) (now : Int) : (nsaLookup s nsa now).holds = false := by
  unfold nsaLookup
  split
  · rfl
  · split
    · split
      · exact holds_afterNSA _ _
      · rfl
    · rfl

theorem holds_nsaAnswered (gv : Given) (nsa : UInt64) (response : Response) :
    (nsaAnswered gv nsa response).holds = true := by
  unfold nsaAnswered
  grind [Phase.holds]

/-- A step of a login takes a place just if the login then has one that it did not have, and gives one back just if
it has none any more. -/
theorem Moved.places (h : Moved gv s phase l s' phase') (hpos : phase.holds = true → 0 < s.nsaInflight) :
    s'.nsaInflight + phase.holds.toNat = s.nsaInflight + phase'.holds.toNat := by
  cases h with
  | looked => rw [holds_nsaLookup]; rfl
  | acquired _ => rfl
  | saturated => rfl
  | answered => rw [holds_nsaAnswered]; rfl
  | remembered => rfl
  | stored => rfl
  | released =>
    have hpos := hpos rfl
    rw [holds_afterNSA]
    show s.nsaInflight - 1 + 1 = s.nsaInflight + 0
    omega
  | checked _ => rfl

theorem Moved.inflight_le (h : Moved gv s phase l s' phase') (hle : s.nsaInflight ≤ nsaMaxInflight) :
    s'.nsaInflight ≤ nsaMaxInflight := by
  cases h with
  | acquired hroom => exact hroom
  | released => exact (Nat.sub_le _ _).trans hle
  | _ => exact hle

theorem len_rememberNSAFailure (s : AuthState) (nsa : UInt64) (status : NSAStatus) (now : Int) :
    (rememberNSAFailure s nsa status now).nsaNegCache.len ≤ nsaNegCacheMax := by
  have hinsert := GoMap.len_insert_le (if nsaNegCacheMax ≤ s.nsaNegCache.len then ∅ else s.nsaNegCache) nsa
    (⟨status, now⟩ : NSANegEntry)
  refine hinsert.trans ?_
  split
  · rw [GoMap.len_empty]
    decide
  · omega

theorem Moved.len_le (h : Moved gv s phase l s' phase') (hle : s.nsaNegCache.len ≤ nsaNegCacheMax) :
    s'.nsaNegCache.len ≤ nsaNegCacheMax := by
  cases h with
  | remembered => exact len_rememberNSAFailure s _ _ _
  | stored => exact (GoMap.len_erase_le _ _).trans hle
  | _ => exact hle

/-- The places that are taken are those of the logins that hold one, and neither they nor the failures are ever too
many. -/
structure Places (s : AuthState) : Prop where
  card_holders : (holders s).card = s.nsaInflight
  bound : s.nsaInflight ≤ nsaMaxInflight
  failures : s.nsaNegCache.len ≤ nsaNegCacheMax

theorem card_holders_put (s : AuthState) (id : ℕ) (a : LoginAttempt) :
    (holders (s.put id a)).card + ((s.attempts.lookup id).any (fun a => a.phase.holds)).toNat =
      (holders s).card + a.phase.holds.toNat :=
  GoMap.card_keysWhere_insert _ _ _ _

theorem Places.step (h : Places s) (hstep : authStep gv g s l = some s') : Places s' := by
  have hcard := h.card_holders
  cases stepped_of_authStep hstep with
  | @start id username extraData now now' hnone =>
    have hput := card_holders_put s id ⟨username, extraData, resolveUser gv g username extraData now now'⟩
    rw [hnone, holds_resolveUser] at hput
    exact ⟨hput.trans hcard, h.bound, h.failures⟩
  | @move _ a s₁ phase ha hmoved =>
    have hput := card_holders_put s₁ l.attempt { a with phase }
    rw [hmoved.attempts, ha] at hput
    have hsame : holders s₁ = holders s := by rw [holders, hmoved.attempts, holders]
    have hplaces := hmoved.places (fun hholds => by
      rw [← hcard]
      exact Finset.card_pos.mpr ⟨l.attempt, GoMap.mem_keysWhere.mpr (by rw [ha]; exact hholds)⟩)
    refine ⟨?_, hmoved.inflight_le h.bound, hmoved.len_le h.failures⟩
    rw [hsame, hcard] at hput
    exact Nat.add_right_cancel (hput.trans hplaces.symm)

/-! ### The way of a login -/

/-- How many steps a login has before it at most. -/
def Phase.rank : Phase → ℕ
  | .lookup _ => 6
  | .acquire _ => 5
  | .asking _ => 4
  | .failing _ _ => 3
  | .storing _ _ => 3
  | .releasing _ _ => 2
  | .checking _ _ => 1
  | .done _ => 0

theorem rank_afterNSA (pid : UInt64) (status : NSAStatus) : (afterNSA pid status).rank ≤ 1 := by
  cases status <;> simp [afterNSA, Phase.rank]

theorem Phase.rank_le (phase : Phase) : phase.rank ≤ 6 := by
  cases phase <;> simp [Phase.rank]

theorem rank_nsaLookup (s : AuthState) (nsa : UInt64) (now : Int) : (nsaLookup s nsa now).rank ≤ 5 := by
  have hafter := fun pid status => (rank_afterNSA pid status).trans (by decide : 1 ≤ 5)
  unfold nsaLookup
  split
  · exact hafter _ _
  · split
    · split
      · exact hafter _ _
      · exact le_refl 5
    · exact le_refl 5

theorem rank_nsaAnswered (gv : Given) (nsa : UInt64) (response : Response) :
    (nsaAnswered gv nsa response).rank ≤ 3 := by
  unfold nsaAnswered
  grind [Phase.rank]

theorem Moved.rank_lt (h : Moved gv s phase l s' phase') : phase'.rank < phase.rank := by
  cases h with
  | looked => exact Nat.lt_succ_of_le (rank_nsaLookup _ _ _)
  | answered => exact Nat.lt_succ_of_le (rank_nsaAnswered _ _ _)
  | released => exact Nat.lt_succ_of_le (rank_afterNSA _ _)
  | _ => simp [Phase.rank]

/-- The steps of a login that are of the kind `q`. -/
def stepsOf (q : AuthLabel → Bool) (id : ℕ) (ls : List AuthLabel) : ℕ := ls.countP (fun l => l.attempt = id && q l)

/-- The account service answers whose the NSA id is. -/
def AuthLabel.isAnswer : AuthLabel → Bool
  | .answer _ _ _ => true
  | _ => false

/-- The account service answers whether the account may go online. -/
def AuthLabel.isOnline : AuthLabel → Bool
  | .online _ _ => true
  | _ => false

/-- A login that has begun has `cost` of its phase before it, one that has not has `bound`. -/
def ahead (cost : Phase → ℕ) (bound id : ℕ) (s : AuthState) : ℕ :=
  ((s.attempts.lookup id).map (fun a => cost a.phase)).getD bound

/-- **Costs.**  If each step of a login pays for itself, a login has no more than `bound` of them. -/
theorem stepsOf_le {q : AuthLabel → Bool} {bound : ℕ} (cost : Phase → ℕ)
    (hstart : ∀ id username extraData now now' phase,
      (q (.start id username extraData now now')).toNat + cost phase ≤ bound)
    (hmove : ∀ s phase l s' phase', Moved gv s phase l s' phase' → (q l).toNat + cost phase' ≤ cost phase)
    {ls : List AuthLabel} (hrun : run (authStep gv g) {} ls = some s) (id : ℕ) : stepsOf q id ls ≤ bound := by
  have hcount : stepsOf q id ls + ahead cost bound id s ≤ ahead cost bound id {} := by
    refine countP_add_measure_le (fun s l s' hstep => ?_) hrun
    unfold ahead
    cases stepped_of_authStep hstep with
    | @start id' username extraData now now' hnone =>
      rw [lookup_put]
      by_cases hid : id = id'
      · subst hid
        rw [if_pos rfl, hnone]
        simpa [AuthLabel.attempt] using hstart id username extraData now now' _
      · rw [if_neg hid]
        simp [AuthLabel.attempt, Ne.symm hid]
    | @move _ a s₁ phase ha hmoved =>
      rw [lookup_put, hmoved.attempts]
      by_cases hid : id = l.attempt
      · subst hid
        rw [if_pos rfl, ha]
        simpa using hmove _ _ _ _ _ hmoved
      · rw [if_neg hid]
        simp [Ne.symm hid]
  exact (Nat.le_add_right _ _).trans hcount

/-- A kind of step that a login makes at one place of its way is made at most once. -/
theorem stepsOf_le_one {q : AuthLabel → Bool} (rank : ℕ)
    (hstart : ∀ id username extraData now now', q (.start id username extraData now now') = false)
    (hat : ∀ s phase l s' phase', Moved gv s phase l s' phase' → q l = true → phase.rank = rank)
    {ls : List AuthLabel} (hrun : run (authStep gv g) {} ls = some s) (id : ℕ) : stepsOf q id ls ≤ 1 := by
  refine stepsOf_le (fun phase => (decide (rank ≤ phase.rank)).toNat) ?_ ?_ hrun id
  · intro id username extraData now now' phase
    rw [hstart]
    exact (Nat.zero_add _).trans_le (Bool.toNat_le _)
  · intro s phase l s' phase' hmoved
    have hlt := hmoved.rank_lt
    cases hq : q l with
    | true =>
      have hrank := hat _ _ _ _ _ hmoved hq
      rw [decide_eq_false (by omega), decide_eq_true (by omega)]
      rfl
    | false =>
      by_cases hle : rank ≤ phase'.rank
      · rw [decide_eq_true hle, decide_eq_true (by omega)]
        rfl
      · rw [decide_eq_false hle]
        exact Nat.zero_le _

/-! ### Progress -/

/-- The next step of a login, with the time at which it is made and what the account service answers. -/
def Phase.next (id : ℕ) (now : Int) (response : Response) : Phase → Option AuthLabel
  | .lookup _ => some (.lookup id now)
  | .acquire _ => some (.acquire id)
  | .asking nsa => some (.answer id nsa response)
  | .failing _ _ => some (.remember id now)
  | .storing _ _ => some (.store id)
  | .releasing _ _ => some (.release id)
  | .checking _ _ => some (.online id response)
  | .done _ => none

theorem Phase.done_or_next (phase : Phase) (id : ℕ) :
    (∃ result, phase = .done result) ∨
      ∀ now response, ∃ l, l.attempt = id ∧ phase.next id now response = some l := by
  cases phase with
  | done result => exact .inl ⟨result, rfl⟩
  | _ => exact .inr (fun now response => ⟨_, rfl, rfl⟩)

theorem move_next {now : Int} {response : Response} (h : a.phase.next id now response = some l) :
    ∃ r, move gv s a l = some r := by
  unfold move
  cases hphase : a.phase <;> rw [hphase] at h <;> cases h
  case acquire nsa =>
    by_cases hroom : s.nsaInflight < nsaMaxInflight
    · exact ⟨_, if_pos hroom⟩
    · exact ⟨_, if_neg hroom⟩
  case asking nsa => exact ⟨_, if_pos rfl⟩
  all_goals exact ⟨_, rfl⟩

/-- No login waits for another: until it is done, its next step can be made. -/
theorem exists_next (gv : Given) (g : Gates) (ha : s.attempts.lookup id = some a) :
    (∃ result, a.phase = .done result) ∨ ∀ now response, ∃ l s', l.attempt = id ∧
      a.phase.next id now response = some l ∧ authStep gv g s l = some s' := by
  refine (a.phase.done_or_next id).imp_right (fun hnext now response => ?_)
  obtain ⟨l, rfl, hl⟩ := hnext now response
  obtain ⟨r, hmove⟩ := move_next (s := s) hl
  refine ⟨l, r.1.put l.attempt { a with phase := r.2 }, rfl, hl, ?_⟩
  unfold authStep
  rw [ha]
  dsimp only
  rw [hmove]
  rfl

/-- **What the logins can ask.**  In every run of any number of logins, whatever they send and whatever the account
service answers and when: at most `nsaMaxInflight` requests to `/api/nsa` are open at once; the places that are
taken are exactly those of the logins that have still to give one back, so that none is lost; the table of failures
has at most `nsaNegCacheMax` entries; each login has at most seven steps, with at most one answer about the NSA id
and at most one about going online, and until it is done its next step can be made at any time and with any answer,
so that it ends. -/
theorem account_calls_bounded (gv : Given) (g : Gates) (ls : List AuthLabel) (s : AuthState)
    (hrun : run (authStep gv g) {} ls = some s) :
    (openCalls s).card ≤ nsaMaxInflight ∧ (holders s).card = s.nsaInflight ∧
      s.nsaNegCache.len ≤ nsaNegCacheMax ∧
      ∀ id, stepsOf (fun _ => true) id ls ≤ 7 ∧ stepsOf AuthLabel.isAnswer id ls ≤ 1 ∧
        stepsOf AuthLabel.isOnline id ls ≤ 1 ∧
        ∀ a, s.attempts.lookup id = some a → (∃ result, a.phase = .done result) ∨
          ∀ now response, ∃ l s', l.attempt = id ∧ a.phase.next id now response = some l ∧
            authStep gv g s l = some s' := by
  have hplaces : Places s :=
    run_invariant (fun s l s' h hstep => h.step hstep) ⟨rfl, Nat.zero_le _, Nat.zero_le _⟩ hrun
  refine ⟨?_, hplaces.card_holders, hplaces.failures, fun id => ⟨?_, ?_, ?_, fun a ha => ?_⟩⟩
  · calc (openCalls s).card ≤ (holders s).card := Finset.card_le_card (openCalls_subset_holders s)
      _ = s.nsaInflight := hplaces.card_holders
      _ ≤ nsaMaxInflight := hplaces.bound
  · refine stepsOf_le Phase.rank (fun _ _ _ _ _ phase => ?_) (fun _ _ _ _ _ hmoved => ?_) hrun id
    · have hrank := phase.rank_le
      simp only [Bool.toNat_true]
      omega
    · have hlt := hmoved.rank_lt
      simp only [Bool.toNat_true]
      omega
  · refine stepsOf_le_one 4 (fun _ _ _ _ _ => rfl) (fun s phase l s' phase' hmoved hl => ?_) hrun id
    cases hmoved <;> first | rfl | cases hl
  · refine stepsOf_le_one 1 (fun _ _ _ _ _ => rfl) (fun s phase l s' phase' hmoved hl => ?_) hrun id
    cases hmoved <;> first | rfl | cases hl
  · exact exists_next gv g ha

theorem account_calls_bounded_twoLogins : ∃ s, run (authStep toyGiven strictGates) {} (twoLogins.take 4) = some s ∧
    openCalls s = {1} ∧ (openCalls s).card ≤ nsaMaxInflight ∧
    ∀ id, stepsOf AuthLabel.isAnswer id (twoLogins.take 4) ≤ 1 := by
  have hrun : (run (authStep toyGiven strictGates) {} (twoLogins.take 4)).map openCalls = some {1} := by decide +kernel
  obtain ⟨s, hs, hasking⟩ := Option.map_eq_some_iff.mp hrun
  obtain ⟨hcard, -, -, hsteps⟩ := account_calls_bounded toyGiven strictGates (twoLogins.take 4) s hs
  exact ⟨s, hs, hasking, hcard, fun id => (hsteps id).2.1⟩

/-! ### Failures that are remembered -/

/-- A phase in which no success is about to be remembered as a failure. -/
def Phase.Fails (phase : Phase) : Prop := ∀ nsa status, phase = .failing nsa status → status ≠ .ok

/-- No failure is remembered, or about to be, as a success. -/
structure Failures (s : AuthState) : Prop where
  table : ∀ nsa entry, s.nsaNegCache.lookup nsa = some entry → entry.status ≠ .ok
  failing : ∀ id a, s.attempts.lookup id = some a → a.phase.Fails

theorem Phase.fails_of_not_holds (h : phase.holds = false) : phase.Fails := by
  intro nsa status heq
  rw [heq] at h
  cases h

theorem fails_nsaAnswered (gv : Given) (nsa : UInt64) (response : Response) :
    (nsaAnswered gv nsa response).Fails := by
  unfold nsaAnswered Phase.Fails
  grind

theorem lookup_rememberNSAFailure {nsa' : UInt64} {status : NSAStatus} {now : Int} {entry : NSANegEntry}
    (h : (rememberNSAFailure s nsa status now).nsaNegCache.lookup nsa' = some entry) :
    nsa' = nsa ∧ entry = ⟨status, now⟩ ∨ s.nsaNegCache.lookup nsa' = some entry := by
  unfold rememberNSAFailure at h
  dsimp only at h
  rw [GoMap.lookup_insert_eq] at h
  split at h
  next heq => exact .inl ⟨heq, (Option.some.inj h).symm⟩
  · split at h
    · simp at h
    · exact .inr h

theorem Moved.failures (h : Moved gv s phase l s' phase') (hphase : phase.Fails)
    (hs : ∀ nsa entry, s.nsaNegCache.lookup nsa = some entry → entry.status ≠ .ok) :
    phase'.Fails ∧ ∀ nsa entry, s'.nsaNegCache.lookup nsa = some entry → entry.status ≠ .ok := by
  cases h with
  | looked => exact ⟨Phase.fails_of_not_holds (holds_nsaLookup _ _ _), hs⟩
  | acquired _ => exact ⟨nofun, hs⟩
  | saturated => exact ⟨nofun, hs⟩
  | answered => exact ⟨fails_nsaAnswered _ _ _, hs⟩
  | @remembered nsa status _ now =>
    refine ⟨nofun, fun nsa' entry hentry => ?_⟩
    rcases lookup_rememberNSAFailure hentry with ⟨-, rfl⟩ | hbefore
    · exact hphase nsa status rfl
    · exact hs nsa' entry hbefore
  | @stored nsa pid _ =>
    refine ⟨nofun, fun nsa' entry hentry => ?_⟩
    have herase : (s.nsaNegCache.erase nsa).lookup nsa' = some entry := hentry
    rw [GoMap.lookup_erase_eq] at herase
    split at herase
    · cases herase
    · exact hs nsa' entry herase
  | released => exact ⟨Phase.fails_of_not_holds (holds_afterNSA _ _), hs⟩
  | checked _ => exact ⟨nofun, hs⟩

theorem Failures.step (h : Failures s) (hstep : authStep gv g s l = some s') : Failures s' := by
  -- the login that makes the step, among the others
  have hput : ∀ (s₁ : AuthState) (id : ℕ) (a : LoginAttempt), s₁.attempts = s.attempts → a.phase.Fails →
      (∀ nsa entry, s₁.nsaNegCache.lookup nsa = some entry → entry.status ≠ .ok) → Failures (s₁.put id a) := by
    intro s₁ id a hsame ha htable
    refine ⟨htable, fun id' a' hlookup => ?_⟩
    rw [lookup_put, hsame] at hlookup
    split at hlookup
    · exact Option.some.inj hlookup ▸ ha
    · exact h.failing id' a' hlookup
  cases stepped_of_authStep hstep with
  | start _ => exact hput s _ _ rfl (Phase.fails_of_not_holds (holds_resolveUser _ _ _ _ _ _)) h.table
  | move ha hmoved =>
    obtain ⟨hphase, htable⟩ := hmoved.failures (h.failing _ _ ha) h.table
    exact hput _ _ _ hmoved.attempts hphase htable

/-- The server knows the account of `nsa`, or a failure that is not older than `T`. -/
def Recent (nsa : UInt64) (T : Int) (s : AuthState) : Prop :=
  (∃ pid, s.nsaCache.lookup nsa = some pid) ∨ ∃ entry, s.nsaNegCache.lookup nsa = some entry ∧ T ≤ entry.time

/-- The clock does not go back behind `T`, and the table is not full when something is remembered. -/
def Roomy (T : Int) (s : AuthState) : AuthLabel → Prop
  | .remember _ now => s.nsaNegCache.len < nsaNegCacheMax ∧ T ≤ now
  | _ => True

instance (T : Int) (s : AuthState) (l : AuthLabel) : Decidable (Roomy T s l) := by
  cases l <;> unfold Roomy <;> infer_instance

theorem recent_remember (s : AuthState) (nsa : UInt64) (T : Int) (status : NSAStatus) :
    Recent nsa T (rememberNSAFailure s nsa status T) :=
  .inr ⟨⟨status, T⟩, (GoMap.lookup_insert_eq _ _ _ _).trans (if_pos rfl), le_refl T⟩

theorem Moved.recent {T : Int} (h : Moved gv s phase l s' phase') (hl : Roomy T s l) (hs : Recent nsa T s) :
    Recent nsa T s' := by
  cases h with
  | @remembered nsa' status _ now =>
    obtain ⟨hlen, hnow⟩ : s.nsaNegCache.len < nsaNegCacheMax ∧ T ≤ now := hl
    rcases hs with hcached | ⟨entry, hentry, htime⟩
    · exact .inl hcached
    · right
      unfold rememberNSAFailure
      rw [if_neg (Nat.not_le.mpr hlen)]
      by_cases heq : nsa = nsa'
      · exact ⟨⟨status, now⟩, (GoMap.lookup_insert_eq _ _ _ _).trans (if_pos heq), hnow⟩
      · exact ⟨entry, ((GoMap.lookup_insert_eq _ _ _ _).trans (if_neg heq)).trans hentry, htime⟩
  | @stored nsa' pid _ =>
    by_cases heq : nsa = nsa'
    · exact .inl ⟨pid, (GoMap.lookup_insert_eq _ _ _ _).trans (if_pos heq)⟩
    · rcases hs with ⟨pid', hcached⟩ | ⟨entry, hentry, htime⟩
      · exact .inl ⟨pid', ((GoMap.lookup_insert_eq _ _ _ _).trans (if_neg heq)).trans hcached⟩
      · exact .inr ⟨entry, ((GoMap.lookup_erase_eq _ _ _).trans (if_neg heq)).trans hentry, htime⟩
  | _ => exact hs

theorem recent_step {T : Int} (hl : Roomy T s l) (h : Recent nsa T s) (hstep : authStep gv g s l = some s') :
    Recent nsa T s' := by
  cases stepped_of_authStep hstep with
  | start _ => exact h
  | move _ hmoved => exact hmoved.recent hl h

theorem nsaLookup_of_recent {T now : Int} (h : Recent nsa T s) (hs : Failures s) (hnow : now - T < nsaNegTTL) :
    nsaLookup s nsa now = .done none ∨
      ∃ pid, s.nsaCache.lookup nsa = some pid ∧ nsaLookup s nsa now = .checking pid .switch := by
  unfold nsaLookup
  cases hcached : s.nsaCache.lookup nsa with
  | some pid => exact .inr ⟨pid, rfl, rfl⟩
  | none =>
    rcases h with ⟨pid, hpid⟩ | ⟨entry, hentry, htime⟩
    · cases hcached.symm.trans hpid
    · left
      have hyoung : now - entry.time < nsaNegTTL := by omega
      rw [hentry]
      show (if now - entry.time < nsaNegTTL then afterNSA 0 entry.status else Phase.acquire nsa) = _
      rw [if_pos hyoung]
      cases hstatus : entry.status with
      | ok => exact absurd hstatus (hs.table nsa entry hentry)
      | unknown => rfl
      | unreachable => rfl

/-- **A failure is asked for once a minute.**  A login remembers at the time `T` that an NSA id has failed.  As long
as the table of failures is not full whenever another failure is remembered, whatever else happens, a login for that
NSA id in the next minute finds the id in memory: it is rejected, or the account has been found by then and only the
online check is left.  It does not ask `/api/nsa`, and no place is taken. -/
theorem failure_suppresses_calls {before between : List AuthLabel} {id₀ id : ℕ} {T now : Int} {nsa : UInt64}
    {status : NSAStatus} {s₀ s₁ s₂ : AuthState} {a₀ a : LoginAttempt}
    (hbefore : run (authStep gv g) {} before = some s₀) (ha₀ : s₀.attempts.lookup id₀ = some a₀)
    (hfailing : a₀.phase = .failing nsa status) (hremember : authStep gv g s₀ (.remember id₀ T) = some s₁)
    (hbetween : run (authStep gv g) s₁ between = some s₂)
    (hroomy : Steps (authStep gv g) (Roomy T) s₁ between)
    (ha : s₂.attempts.lookup id = some a) (hlooking : a.phase = .lookup nsa) (hnow : now - T < nsaNegTTL) :
    ∃ s₃ phase, authStep gv g s₂ (.lookup id now) = some s₃ ∧
      s₃.attempts.lookup id = some { a with phase } ∧ s₃.nsaInflight = s₂.nsaInflight ∧
      (phase = .done none ∨ ∃ pid, s₂.nsaCache.lookup nsa = some pid ∧ phase = .checking pid .switch) := by
  have hstart : Failures {} := ⟨nofun, nofun⟩
  have hfailures₀ : Failures s₀ := run_invariant (fun s l s' h hstep => h.step hstep) hstart hbefore
  have hfailures : Failures s₂ :=
    run_invariant (fun s l s' h hstep => h.step hstep) (hfailures₀.step hremember) hbetween
  have hrecent₁ : Recent nsa T s₁ := by
    cases stepped_of_authStep hremember with
    | move ha₀' hmoved =>
      obtain rfl := Option.some.inj (ha₀'.symm.trans ha₀)
      rw [hfailing] at hmoved
      cases hmoved with
      | remembered => exact recent_remember s₀ nsa T status
  have hrecent : Recent nsa T s₂ :=
    run_invariant_of_steps (fun s l s' hl h hstep => recent_step hl h hstep) hroomy hrecent₁ hbetween
  have hstep : authStep gv g s₂ (.lookup id now) = some (s₂.put id { a with phase := nsaLookup s₂ nsa now }) := by
    simp only [authStep, AuthLabel.attempt, ha, move, hlooking, Option.map_some]
  exact ⟨_, nsaLookup s₂ nsa now, hstep, (lookup_put _ _ _ _).trans (if_pos rfl), rfl,
    nsaLookup_of_recent hrecent hfailures hnow⟩

/-- A console whose NSA id nobody owns logs in, and tries again ten seconds later.  In between the account service
does not answer for another console, `1810000001`. -/
def unknownTwice : List AuthLabel × List AuthLabel :=
  ([.start 0 consoleLogin.username [] 50 50, .lookup 0 0, .acquire 0, .answer 0 1810000000 (.status 404 [])],
    [.start 2 [49, 56, 49, 48, 48, 48, 48, 48, 48, 49] [] 51 51, .lookup 2 1500000000, .acquire 2, .release 0,
      .answer 2 1810000001 .error, .remember 2 2000000000, .release 2,
      .start 1 consoleLogin.username [] 50 50])

theorem failure_suppresses_calls_unknown : ∃ s₁ s₂ s₃ phase,
    run (authStep toyGiven strictGates) {} (unknownTwice.1 ++ [.remember 0 1000000000]) = some s₁ ∧
      run (authStep toyGiven strictGates) s₁ unknownTwice.2 = some s₂ ∧
      authStep toyGiven strictGates s₂ (.lookup 1 11000000000) = some s₃ ∧
      s₃.attempts.lookup 1 = some ⟨consoleLogin.username, [], phase⟩ ∧
      (phase = .done none ∨ ∃ pid, s₂.nsaCache.lookup 1810000000 = some pid ∧ phase = .checking pid .switch) := by
  have hbefore : (run (authStep toyGiven strictGates) {} unknownTwice.1).map (fun s => s.attempts.lookup 0) =
      some (some ⟨consoleLogin.username, [], .failing 1810000000 .unknown⟩) := by decide +kernel
  obtain ⟨s₀, hs₀, ha₀⟩ := Option.map_eq_some_iff.mp hbefore
  have hafter : ((run (authStep toyGiven strictGates) {} unknownTwice.1).bind (fun s =>
      authStep toyGiven strictGates s (.remember 0 1000000000))).map (fun s₁ =>
        (decide (Steps (authStep toyGiven strictGates) (Roomy 1000000000) s₁ unknownTwice.2),
          (run (authStep toyGiven strictGates) s₁ unknownTwice.2).map (fun s => s.attempts.lookup 1))) =
      some (true, some (some ⟨consoleLogin.username, [], .lookup 1810000000⟩)) := by decide +kernel
  rw [hs₀, Option.bind_some] at hafter
  obtain ⟨s₁, hs₁, hafter⟩ := Option.map_eq_some_iff.mp hafter
  obtain ⟨hroomy, hbetween⟩ := Prod.mk.inj hafter
  obtain ⟨s₂, hs₂, ha⟩ := Option.map_eq_some_iff.mp hbetween
  have hnow : (11000000000 : Int) - 1000000000 < nsaNegTTL := by decide
  obtain ⟨s₃, phase, hstep, hlookup, -, hphase⟩ :=
    failure_suppresses_calls hs₀ ha₀ rfl hs₁ hs₂ (of_decide_eq_true hroomy) ha rfl hnow
  exact ⟨s₁, s₂, s₃, phase, run_snoc_some.mpr ⟨s₀, hs₀, hs₁⟩, hs₂, hstep, hlookup, hphase⟩

end NextendoMatchmaking.Login
