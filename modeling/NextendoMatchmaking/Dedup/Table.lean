import NextendoMatchmaking.Dedup.Model

/-!
# The table of the deduplicator

What one step can do to the table, and the invariant that every interleaving of calls keeps.

* `LockResult` — the four ways the locked section of `wrap` can end, after it has thinned the table of
  completed entries that are past their expiry (`Thinned`);
* `settleEntry_eq` — the deferred section of `execute` when its entry is still in the table;
* `Inv` — the table stays within its bound, an entry in flight belongs to one running `execute`, and a
  blocked call waits for such an `execute` or for a closed channel;
* `inv_step`, `inv_run` — every step keeps it, so it holds after every run.
-/

namespace NextendoMatchmaking.Dedup

open NextendoMatchmaking.Runs

variable {S : Setup} {s s' : State}

/-- The call is inside the `execute` that created the entry `ref`. -/
def Phase.Owns : Phase → EntryRef → Prop
  | .executing e, ref => e = ref
  | .running e, ref => e = ref
  | .deferring e _, ref => e = ref
  | _, _ => False

/-! ### What the locked section of `wrap` can do -/

/-- `e` is the table of `s` without some completed entries that have expired at `now`. -/
structure Thinned (now : Int) (s : State) (e : GoMap RMCDedupKey EntryRef) : Prop where
  sub : ∀ k ref, e.lookup k = some ref → s.entries.lookup k = some ref
  keep : ∀ k ref, s.entries.lookup k = some ref →
    (s.heap ref).ready ≠ none ∨ now < (s.heap ref).expires → e.lookup k = some ref
  len_le : GoMap.len e ≤ GoMap.len s.entries

/-- The table `e`, the call counted, and the call `c` in phase `p`. -/
def State.locked (s : State) (e : GoMap RMCDedupKey EntryRef) (c : CallId) (p : Phase) : State :=
  { s with entries := e, calls := s.calls + 1, phase := Function.update s.phase c p }

/-- How the locked section of the call `c` with key `k` and clock reading `now` can end. -/
inductive LockResult (S : Setup) (s : State) (c : CallId) (k : RMCDedupKey) (now : Int) : State → Prop
  /-- Another call is executing this request. -/
  | blocked {e ref ch} (thin : Thinned now s e) (hk : e.lookup k = some ref)
      (hr : (s.heap ref).ready = some ch) : LockResult S s c k now (s.locked e c (.blocked ch))
  /-- The request has been answered and the answer has not expired. -/
  | hit {e ref} (thin : Thinned now s e) (hk : e.lookup k = some ref)
      (hr : (s.heap ref).ready = none) (hx : now < (s.heap ref).expires) :
      LockResult S s c k now (s.locked e c (.returned (s.heap ref).response))
  /-- The table is full. -/
  | bypass {e} (thin : Thinned now s e) (hk : e.lookup k = none)
      (full : S.cfg.maxEntries ≤ GoMap.len e) : LockResult S s c k now (s.locked e c .direct)
  /-- The call takes the request on. -/
  | claim {e} (thin : Thinned now s e) (hk : e.lookup k = none)
      (room : GoMap.len e < S.cfg.maxEntries) :
      LockResult S s c k now (install k c { s with entries := e, calls := s.calls + 1 })

section

variable {e : GoMap RMCDedupKey EntryRef} {k k' : RMCDedupKey} {ref ref' : EntryRef} {c : CallId}
  {o : Outcome}

theorem thinned_self (now : Int) (s : State) : Thinned now s s.entries :=
  ⟨fun _ _ h => h, fun _ _ h _ => h, le_rfl⟩

theorem thinned_deleteWhere (now : Int) (s : State) :
    Thinned now s (GoMap.deleteWhere
      (fun _ ref => (s.heap ref).ready.isNone && !decide (now < (s.heap ref).expires)) s.entries) where
  sub := fun k ref h => (GoMap.lookup_deleteWhere_some h).1
  keep := by
    intro k ref h hlive
    apply GoMap.lookup_deleteWhere_kept h
    rcases hlive with hready | hfresh
    · rw [Option.isNone_eq_false_iff.mpr (Option.isSome_iff_ne_none.mpr hready), Bool.false_and]
    · rw [decide_eq_true hfresh, Bool.not_true, Bool.and_false]
  len_le := GoMap.len_deleteWhere_le _ _

theorem thinned_erase {now : Int} (h : Thinned now s e) (hk : e.lookup k = some ref) (hr : (s.heap ref).ready = none)
    (hx : ¬ now < (s.heap ref).expires) : Thinned now s (e.erase k) where
  sub := by
    intro k' ref' h'
    rw [GoMap.lookup_erase_eq] at h'
    split at h'
    · exact absurd h' (by simp)
    · exact h.sub k' ref' h'
  keep := by
    intro k' ref' h' hlive
    rw [GoMap.lookup_erase_eq]
    split
    · rename_i hkk
      -- the entry under `k` is the expired one, so it is not live
      have hsame : ref' = ref := by
        have := h.sub k ref hk
        rw [hkk, this, Option.some.injEq] at h'
        exact h'.symm
      rw [hsame] at hlive
      rcases hlive with hready | hfresh
      · exact absurd hr hready
      · exact absurd hfresh hx
    · exact h.keep k' ref' h' hlive
  len_le := le_trans (GoMap.len_erase_le e k) h.len_le

/-- Counting and pruning leave a thinned table. -/
theorem countAndPrune_eq (cfg : Config) (now : Int) (s : State) :
    ∃ e, Thinned now s e ∧
      countAndPrune cfg now s = { s with entries := e, calls := s.calls + 1 } := by
  simp only [countAndPrune]
  split
  · exact ⟨_, thinned_deleteWhere now s, rfl⟩
  · exact ⟨_, thinned_self now s, rfl⟩

/-- Full or not, the section ends in one of its last two ways. -/
theorem lockResult_claimOrBypass {now : Int} (thin : Thinned now s e) (hk : e.lookup k = none) :
    LockResult S s c k now (claimOrBypass S.cfg k c { s with entries := e, calls := s.calls + 1 }) := by
  unfold claimOrBypass
  split
  · rename_i hfull
    exact .bypass thin hk hfull
  · rename_i hroom
    exact .claim thin hk (by simpa using hroom)

/-- **What the locked section can do.** -/
theorem lockResult (S : Setup) (s : State) (c : CallId) (k : RMCDedupKey) (now : Int) :
    LockResult S s c k now (answerOrClaim S.cfg k now c (countAndPrune S.cfg now s)) := by
  obtain ⟨e, thin, he⟩ := countAndPrune_eq S.cfg now s
  rw [he]
  unfold answerOrClaim
  split
  · rename_i ref hk
    split
    · rename_i ch hr
      exact .blocked thin hk hr
    · rename_i hr
      split
      · rename_i hx
        rw [cloneRMC_eq]
        exact .hit thin hk hr hx
      · rename_i hx
        exact lockResult_claimOrBypass (thinned_erase thin hk hr hx) (Finmap.lookup_erase k e)
  · rename_i hk
    exact lockResult_claimOrBypass thin hk

/-! ### What the deferred section of `execute` can do -/

/-- An entry after its run has ended with `o`: no longer in flight, and with the response if there is
one. -/
def Outcome.complete (o : Outcome) (expires : Int) (entry : RMCDedupEntry) : RMCDedupEntry :=
  match o.response with
  | none => { entry with ready := none }
  | some r => ⟨none, some r, expires⟩

@[simp] theorem complete_ready (o : Outcome) (x : Int) (entry : RMCDedupEntry) :
    (o.complete x entry).ready = none := by
  unfold Outcome.complete
  split <;> rfl

theorem complete_of_response {r : RMCMessage} (h : o.response = some r) (x : Int) (entry : RMCDedupEntry) :
    o.complete x entry = ⟨none, some r, x⟩ := by
  rw [Outcome.complete, h]

/-- The state after the deferred section of `c` whose entry `ref` was in the table under `k`: the entry is
removed after a nil response or a panic and completed otherwise, and its channel is closed. -/
def State.settled (cfg : Config) (k : RMCDedupKey) (ref : EntryRef) (o : Outcome) (c : CallId)
    (s : State) : State :=
  { s with
    entries := if o.response = none then s.entries.erase k else s.entries
    heap := Function.update s.heap ref (o.complete (s.clock + cfg.ttl) (s.heap ref))
    closed := Function.update s.closed ref true
    phase := Function.update s.phase c o.phase }

theorem settleEntry_eq {cfg : Config} (o : Outcome) (c : CallId) (hk : s.entries.lookup k = some ref)
    (hr : (s.heap ref).ready = some ref) :
    (settleEntry cfg k ref o s).setPhase c o.phase = s.settled cfg k ref o c := by
  unfold settleEntry State.settled Outcome.complete
  rw [if_pos hk]
  cases o.response with
  | none => simp [hr, State.setPhase]
  | some r => simp [hr, State.setPhase]

/-! ### The invariant -/

structure Inv (S : Setup) (s : State) : Prop where
  len_le : GoMap.len s.entries ≤ S.cfg.maxEntries
  entry_lt : ∀ k ref, s.entries.lookup k = some ref → ref < s.next
  entry_inj : ∀ k k' ref, s.entries.lookup k = some ref → s.entries.lookup k' = some ref → k = k'
  /-- The entry of a running `execute` is in the table and in flight. -/
  owned : ∀ c ref, (s.phase c).Owns ref →
    ∃ k, S.key c = some k ∧ s.entries.lookup k = some ref ∧ (s.heap ref).ready = some ref
  owner_unique : ∀ c c' ref, (s.phase c).Owns ref → (s.phase c').Owns ref → c = c'
  /-- An entry in flight has a running `execute`. -/
  inFlight : ∀ k ref, s.entries.lookup k = some ref → (s.heap ref).ready ≠ none →
    ∃ c, (s.phase c).Owns ref
  /-- A completed entry holds a response. -/
  completed : ∀ k ref, s.entries.lookup k = some ref → (s.heap ref).ready = none →
    (s.heap ref).response ≠ none
  /-- Nobody waits for a channel that no one will close. -/
  blocked : ∀ c ch, s.phase c = .blocked ch → s.closed ch = true ∨ ∃ c', (s.phase c').Owns ch
  sampled : ∀ c now, s.phase c = .sampled now → now ≤ s.clock

theorem inv_init (S : Setup) (t : Int) : Inv S (init t) where
  len_le := by simp [init]
  entry_lt := by simp [init]
  entry_inj := by simp [init]
  owned := by simp [init, Phase.Owns]
  owner_unique := by simp [init, Phase.Owns]
  inFlight := by simp [init]
  completed := by simp [init]
  blocked := by simp [init]
  sampled := by simp [init]

/-- The clock moves on. -/
theorem inv_tick {t : Int} (h : Inv S s) (ht : s.clock ≤ t) : Inv S { s with clock := t } :=
  { h with sampled := fun c now hc => le_trans (h.sampled c now hc) ht }

/-- Dropping completed entries keeps the invariant. -/
theorem inv_thinned {now : Int} {n : UInt64} (h : Inv S s) (thin : Thinned now s e) :
    Inv S { s with entries := e, calls := n } where
  len_le := le_trans thin.len_le h.len_le
  entry_lt := fun k ref hk => h.entry_lt k ref (thin.sub k ref hk)
  entry_inj := fun k k' ref hk hk' => h.entry_inj k k' ref (thin.sub k ref hk) (thin.sub k' ref hk')
  owned := by
    intro c ref hc
    obtain ⟨k, hkey, hk, hr⟩ := h.owned c ref hc
    exact ⟨k, hkey, thin.keep k ref hk (.inl (by rw [hr]; simp)), hr⟩
  owner_unique := h.owner_unique
  inFlight := fun k ref hk => h.inFlight k ref (thin.sub k ref hk)
  completed := fun k ref hk => h.completed k ref (thin.sub k ref hk)
  blocked := h.blocked
  sampled := h.sampled

/-- The phase of a call after another or the same call has moved. -/
theorem owns_update {ph : CallId → Phase} {p : Phase} (hp : ∀ ref, p.Owns ref ↔ (ph c).Owns ref) (c' : CallId)
    (ref : EntryRef) :
    (Function.update ph c p c').Owns ref ↔ (ph c').Owns ref := by
  by_cases hc : c' = c
  · subst hc
    rw [Function.update_self, hp]
  · rw [Function.update_of_ne hc]

/-- A call moves without touching the table and without entering or leaving `execute`. -/
theorem inv_setPhase {p : Phase} (h : Inv S s) (hp : ∀ ref, p.Owns ref ↔ (s.phase c).Owns ref)
    (hblocked : ∀ ch, p = .blocked ch → s.closed ch = true ∨ ∃ c', (s.phase c').Owns ch)
    (hsampled : ∀ now, p = .sampled now → now ≤ s.clock) : Inv S (s.setPhase c p) where
  len_le := h.len_le
  entry_lt := h.entry_lt
  entry_inj := h.entry_inj
  owned := fun c' ref hc' => h.owned c' ref ((owns_update hp c' ref).mp hc')
  owner_unique := fun c₁ c₂ ref h₁ h₂ =>
    h.owner_unique c₁ c₂ ref ((owns_update hp c₁ ref).mp h₁) ((owns_update hp c₂ ref).mp h₂)
  inFlight := by
    intro k ref hk hr
    obtain ⟨c', hc'⟩ := h.inFlight k ref hk hr
    exact ⟨c', (owns_update hp c' ref).mpr hc'⟩
  completed := h.completed
  blocked := by
    intro c' ch hc'
    have hwait : s.closed ch = true ∨ ∃ c'', (s.phase c'').Owns ch := by
      by_cases hcc : c' = c
      · subst hcc
        exact hblocked ch (by simpa [State.setPhase] using hc')
      · exact h.blocked c' ch (by simpa [State.setPhase, hcc] using hc')
    rcases hwait with hclosed | ⟨c'', hc''⟩
    · exact .inl hclosed
    · exact .inr ⟨c'', (owns_update hp c'' ch).mpr hc''⟩
  sampled := by
    intro c' now hc'
    by_cases hcc : c' = c
    · subst hcc
      exact hsampled now (by simpa [State.setPhase] using hc')
    · exact h.sampled c' now (by simpa [State.setPhase, hcc] using hc')

/-! ### Installing an entry -/

theorem install_owns (k : RMCDedupKey) (c c' : CallId) (s : State) (ref : EntryRef) :
    ((install k c s).phase c').Owns ref ↔
      (c' = c ∧ ref = s.next) ∨ (c' ≠ c ∧ (s.phase c').Owns ref) := by
  by_cases hcc : c' = c
  · subst hcc
    simp [install, Phase.Owns, eq_comm]
  · simp [install, hcc]

theorem install_lookup (k k' : RMCDedupKey) (c : CallId) (s : State) :
    (install k c s).entries.lookup k' = if k' = k then some s.next else s.entries.lookup k' :=
  GoMap.lookup_insert_eq s.entries k k' s.next

theorem install_heap_next (k : RMCDedupKey) (c : CallId) (s : State) :
    (install k c s).heap s.next = ⟨some s.next, none, 0⟩ := Function.update_self _ _ _

theorem install_heap_of_lt (k : RMCDedupKey) (c : CallId) (h : ref < s.next) :
    (install k c s).heap ref = s.heap ref := Function.update_of_ne (Nat.ne_of_lt h) _ _

/-- An entry of the table after an installation is the fresh one or an older one. -/
theorem install_entry (h : Inv S s) (hk' : (install k c s).entries.lookup k' = some ref) :
    (k' = k ∧ ref = s.next) ∨ (s.entries.lookup k' = some ref ∧ ref < s.next) := by
  rw [install_lookup] at hk'
  split at hk'
  · rename_i hkk
    exact .inl ⟨hkk, (Option.some.inj hk').symm⟩
  · exact .inr ⟨hk', h.entry_lt k' ref hk'⟩

theorem owned_lt (h : Inv S s) (hc : (s.phase c).Owns ref) : ref < s.next := by
  obtain ⟨k, -, hk, -⟩ := h.owned c ref hc
  exact h.entry_lt k ref hk

/-- A call without an `execute` installs a fresh entry. -/
theorem inv_install (h : Inv S s) (hkey : S.key c = some k) (hc : ∀ ref, ¬ (s.phase c).Owns ref)
    (hk : s.entries.lookup k = none) (room : GoMap.len s.entries < S.cfg.maxEntries) : Inv S (install k c s) where
  len_le := by
    have hlen : GoMap.len (install k c s).entries = GoMap.len s.entries + 1 :=
      GoMap.len_insert_of_notMem s.next hk
    omega
  entry_lt := by
    intro k' ref hk'
    show ref < s.next + 1
    rcases install_entry h hk' with ⟨-, rfl⟩ | ⟨-, hlt⟩
    · exact Nat.lt_succ_self s.next
    · exact Nat.lt_succ_of_lt hlt
  entry_inj := by
    intro k₁ k₂ ref hk₁ hk₂
    rcases install_entry h hk₁ with ⟨rfl, hr₁⟩ | ⟨hold₁, hlt₁⟩ <;>
      rcases install_entry h hk₂ with ⟨rfl, hr₂⟩ | ⟨hold₂, hlt₂⟩
    · rfl
    · exact absurd hr₁ (Nat.ne_of_lt hlt₂)
    · exact absurd hr₂ (Nat.ne_of_lt hlt₁)
    · exact h.entry_inj k₁ k₂ ref hold₁ hold₂
  owned := by
    intro c' ref hc'
    rcases (install_owns k c c' s ref).mp hc' with ⟨rfl, rfl⟩ | ⟨-, hold⟩
    · exact ⟨k, hkey, by rw [install_lookup, if_pos rfl], by rw [install_heap_next]⟩
    · obtain ⟨k', hkey', hk', hr⟩ := h.owned c' ref hold
      have hne : k' ≠ k := by
        intro heq
        subst heq
        simp [hk'] at hk
      exact ⟨k', hkey', by rw [install_lookup, if_neg hne, hk'],
        by rw [install_heap_of_lt k c (owned_lt h hold), hr]⟩
  owner_unique := by
    intro c₁ c₂ ref h₁ h₂
    rcases (install_owns k c c₁ s ref).mp h₁ with ⟨rfl, hr₁⟩ | ⟨-, hold₁⟩ <;>
      rcases (install_owns k _ c₂ s ref).mp h₂ with ⟨rfl, hr₂⟩ | ⟨-, hold₂⟩
    · rfl
    · subst hr₁
      exact absurd (owned_lt h hold₂) (lt_irrefl _)
    · subst hr₂
      exact absurd (owned_lt h hold₁) (lt_irrefl _)
    · exact h.owner_unique c₁ c₂ ref hold₁ hold₂
  inFlight := by
    intro k' ref hk' hr
    rcases install_entry h hk' with ⟨-, rfl⟩ | ⟨hold, hlt⟩
    · exact ⟨c, (install_owns k c c s _).mpr (.inl ⟨rfl, rfl⟩)⟩
    · rw [install_heap_of_lt k c hlt] at hr
      obtain ⟨c', hc'⟩ := h.inFlight k' ref hold hr
      have hne : c' ≠ c := fun hcc => hc ref (hcc ▸ hc')
      exact ⟨c', (install_owns k c c' s ref).mpr (.inr ⟨hne, hc'⟩)⟩
  completed := by
    intro k' ref hk' hr
    rcases install_entry h hk' with ⟨-, rfl⟩ | ⟨hold, hlt⟩
    · rw [install_heap_next] at hr
      exact absurd hr (by simp)
    · rw [install_heap_of_lt k c hlt] at hr ⊢
      exact h.completed k' ref hold hr
  blocked := by
    intro c' ch hc'
    have hne : c' ≠ c := by
      intro heq
      subst heq
      simp [install] at hc'
    rcases h.blocked c' ch (by simpa [install, hne] using hc') with hclosed | ⟨c'', hc''⟩
    · exact .inl hclosed
    · have hne' : c'' ≠ c := fun hcc => hc ch (hcc ▸ hc'')
      exact .inr ⟨c'', (install_owns k c c'' s ch).mpr (.inr ⟨hne', hc''⟩)⟩
  sampled := by
    intro c' now hc'
    have hne : c' ≠ c := by
      intro heq
      subst heq
      simp [install] at hc'
    exact h.sampled c' now (by simpa [install, hne] using hc')

/-! ### Settling an entry -/

theorem not_owns_outcome (o : Outcome) (ref : EntryRef) : ¬ o.phase.Owns ref := by
  cases o <;> simp [Outcome.phase, Phase.Owns]

theorem settled_owns {c' : CallId} {ph : CallId → Phase} :
    (Function.update ph c o.phase c').Owns ref ↔ c' ≠ c ∧ (ph c').Owns ref := by
  by_cases hcc : c' = c
  · subst hcc
    rw [Function.update_self]
    exact ⟨fun h => absurd h (not_owns_outcome o ref), fun h => absurd rfl h.1⟩
  · rw [Function.update_of_ne hcc]
    exact ⟨fun h => ⟨hcc, h⟩, fun h => h.2⟩

/-- The owner of another entry is not the call that has ended. -/
theorem settled_owns_other {c' : CallId} (hc : s.phase c = .deferring ref o) (href : ref' ≠ ref)
    (hc' : (s.phase c').Owns ref') :
    (Function.update s.phase c o.phase c').Owns ref' := by
  refine settled_owns.mpr ⟨?_, hc'⟩
  intro heq
  subst heq
  rw [hc] at hc'
  exact href hc'.symm

/-- An entry that is left in the table was there, and under `k` only a response leaves one. -/
theorem settled_entry {cfg : Config} (h : (s.settled cfg k ref o c).entries.lookup k' = some ref') :
    s.entries.lookup k' = some ref' ∧ (k' = k → o.response ≠ none) := by
  unfold State.settled at h
  split at h
  · rw [GoMap.lookup_erase_eq] at h
    split at h
    · exact absurd h (by simp)
    · rename_i hne
      exact ⟨h, fun hkk => absurd hkk hne⟩
  · rename_i ho
    exact ⟨h, fun _ => ho⟩

theorem settled_lookup_of_ne (cfg : Config) (ref : EntryRef) (o : Outcome) (c : CallId) (h : k' ≠ k) :
    (s.settled cfg k ref o c).entries.lookup k' = s.entries.lookup k' := by
  unfold State.settled
  split
  · rw [GoMap.lookup_erase_eq, if_neg h]
  · rfl

theorem settled_heap_of_ne (cfg : Config) (k : RMCDedupKey) (o : Outcome) (c : CallId) (h : ref' ≠ ref) :
    (s.settled cfg k ref o c).heap ref' = s.heap ref' :=
  Function.update_of_ne h _ _

theorem settled_heap_self (cfg : Config) (k : RMCDedupKey) (ref : EntryRef) (o : Outcome) (c : CallId) :
    (s.settled cfg k ref o c).heap ref = o.complete (s.clock + cfg.ttl) (s.heap ref) :=
  Function.update_self _ _ _

/-- The call whose run has ended removes or completes its own entry. -/
theorem inv_settled (h : Inv S s) (hc : s.phase c = .deferring ref o) (hk : s.entries.lookup k = some ref) :
    Inv S (s.settled S.cfg k ref o c) where
  len_le := by
    refine le_trans ?_ h.len_le
    unfold State.settled
    split
    · exact GoMap.len_erase_le _ _
    · exact le_rfl
  entry_lt := fun k' ref' hk' => h.entry_lt k' ref' (settled_entry hk').1
  entry_inj := fun k₁ k₂ ref' hk₁ hk₂ =>
    h.entry_inj k₁ k₂ ref' (settled_entry hk₁).1 (settled_entry hk₂).1
  owned := by
    -- another `execute` has another entry, which is under another key and stays as it is
    intro c' ref' hc'
    obtain ⟨hne, hold⟩ := settled_owns.mp hc'
    obtain ⟨k', hkey', hk', hr'⟩ := h.owned c' ref' hold
    have href : ref' ≠ ref := by
      intro heq
      subst heq
      exact hne (h.owner_unique c' c ref' hold (by rw [hc]; rfl))
    have hkk : k' ≠ k := by
      intro heq
      subst heq
      rw [hk, Option.some.injEq] at hk'
      exact href hk'.symm
    exact ⟨k', hkey', by rw [settled_lookup_of_ne _ _ _ _ hkk, hk'],
      by rw [settled_heap_of_ne _ _ _ _ href, hr']⟩
  owner_unique := fun c₁ c₂ ref' h₁ h₂ =>
    h.owner_unique c₁ c₂ ref' (settled_owns.mp h₁).2 (settled_owns.mp h₂).2
  inFlight := by
    intro k' ref' hk' hready
    have href : ref' ≠ ref := by
      intro heq
      subst heq
      rw [settled_heap_self, complete_ready] at hready
      exact hready rfl
    rw [settled_heap_of_ne _ _ _ _ href] at hready
    obtain ⟨c', hc'⟩ := h.inFlight k' ref' (settled_entry hk').1 hready
    exact ⟨c', settled_owns_other hc href hc'⟩
  completed := by
    intro k' ref' hk' hready
    obtain ⟨hold, hresp⟩ := settled_entry hk'
    by_cases href : ref' = ref
    · subst href
      have ho := hresp (h.entry_inj k' k ref' hold hk)
      obtain ⟨r, hr⟩ := Option.ne_none_iff_exists'.mp ho
      rw [settled_heap_self, complete_of_response hr]
      simp
    · rw [settled_heap_of_ne _ _ _ _ href] at hready ⊢
      exact h.completed k' ref' hold hready
  blocked := by
    intro c' ch hc'
    have hne : c' ≠ c := by
      intro heq
      subst heq
      cases o <;> simp [State.settled, Outcome.phase] at hc'
    show Function.update s.closed ref true ch = true ∨ _
    by_cases hch : ch = ref
    · subst hch
      exact .inl (Function.update_self _ _ _)
    · rw [Function.update_of_ne hch]
      rcases h.blocked c' ch (by simpa [State.settled, hne] using hc') with hclosed | ⟨c'', hc''⟩
      · exact .inl hclosed
      · exact .inr ⟨c'', settled_owns_other hc hch hc''⟩
  sampled := by
    intro c' now hc'
    have hne : c' ≠ c := by
      intro heq
      subst heq
      cases o <;> simp [State.settled, Outcome.phase] at hc'
    exact h.sampled c' now (by simpa [State.settled, hne] using hc')

end

/-! ### What one step can do -/

/-- The steps that move one call and leave the table alone. -/
inductive Move (S : Setup) (s : State) : Label → CallId → Phase → Prop
  | enterDirect {c} (hc : s.phase c = .idle) (hkey : S.key c = none) : Move S s (.enter c) c .direct
  | enterLoop {c} (hc : s.phase c = .idle) (hkey : S.key c ≠ none) : Move S s (.enter c) c .looping
  | sample {c} (hc : s.phase c = .looping) : Move S s (.sample c) c (.sampled s.clock)
  | wake {c ch} (hc : s.phase c = .blocked ch) (hch : s.closed ch = true) : Move S s (.wake c) c .looping
  | startDirect {c} (hc : s.phase c = .direct) : Move S s (.start c) c .directRunning
  | startExecute {c ref} (hc : s.phase c = .executing ref) : Move S s (.start c) c (.running ref)
  | finishDirect {c o} (hc : s.phase c = .directRunning) : Move S s (.finish c o) c o.phase
  | finishExecute {c ref o} (hc : s.phase c = .running ref) :
      Move S s (.finish c o) c (.deferring ref o)

/-- Everything that a step can do. -/
inductive StepResult (S : Setup) (s : State) : Label → State → Prop
  | tick {t} (ht : s.clock ≤ t) : StepResult S s (.tick t) { s with clock := t }
  | move {l c p} (hm : Move S s l c p) : StepResult S s l (s.setPhase c p)
  | lock {c k now s'} (hc : s.phase c = .sampled now) (hkey : S.key c = some k)
      (hs : LockResult S s c k now s') : StepResult S s (.lock c) s'
  | settle {c k ref o} (hc : s.phase c = .deferring ref o) (hkey : S.key c = some k) :
      StepResult S s (.settle c) ((settleEntry S.cfg k ref o s).setPhase c o.phase)

theorem stepResult {l : Label} (h : step S s l = some s') : StepResult S s l s' := by
  cases l with
  | tick t =>
    simp only [step] at h
    split at h
    · rename_i ht
      exact Option.some.inj h ▸ .tick ht
    · exact absurd h (by simp)
  | enter c =>
    simp only [step] at h
    split at h
    · rename_i hc
      rw [← Option.some.inj h]
      cases hkey : S.key c with
      | none => exact .move (.enterDirect hc hkey)
      | some k => exact .move (.enterLoop hc (by simp [hkey]))
    · exact absurd h (by simp)
  | sample c =>
    simp only [step] at h
    split at h
    · rename_i hc
      exact Option.some.inj h ▸ .move (.sample hc)
    · exact absurd h (by simp)
  | lock c =>
    simp only [step] at h
    split at h
    · rename_i now k hc hkey
      exact Option.some.inj h ▸ .lock hc hkey (lockResult S s c k now)
    · exact absurd h (by simp)
  | wake c =>
    simp only [step] at h
    split at h
    · rename_i ch hc
      split at h
      · rename_i hch
        exact Option.some.inj h ▸ .move (.wake hc hch)
      · exact absurd h (by simp)
    · exact absurd h (by simp)
  | start c =>
    simp only [step] at h
    split at h
    · rename_i hc
      exact Option.some.inj h ▸ .move (.startDirect hc)
    · rename_i ref hc
      exact Option.some.inj h ▸ .move (.startExecute hc)
    · exact absurd h (by simp)
  | finish c o =>
    simp only [step] at h
    split at h
    · rename_i hc
      exact Option.some.inj h ▸ .move (.finishDirect hc)
    · rename_i ref hc
      exact Option.some.inj h ▸ .move (.finishExecute hc)
    · exact absurd h (by simp)
  | settle c =>
    simp only [step] at h
    split at h
    · rename_i ref o k hc hkey
      exact Option.some.inj h ▸ .settle hc hkey
    · exact absurd h (by simp)

theorem move_owns {l : Label} {c : CallId} {p : Phase} (hm : Move S s l c p) (ref : EntryRef) :
    p.Owns ref ↔ (s.phase c).Owns ref := by
  cases hm with
  | finishDirect hc =>
    rw [hc]
    exact ⟨fun h => absurd h (not_owns_outcome _ ref), fun h => absurd h (by simp [Phase.Owns])⟩
  | enterDirect hc _ | enterLoop hc _ | sample hc | wake hc _ | startDirect hc | startExecute hc
  | finishExecute hc => rw [hc]; rfl

theorem move_not_blocked {l : Label} {c : CallId} {p : Phase} (hm : Move S s l c p) (ch : Chan) :
    p ≠ .blocked ch := by
  cases hm with
  | @finishDirect _ o _ => cases o <;> simp [Outcome.phase]
  | enterDirect | enterLoop | sample | wake | startDirect | startExecute | finishExecute => simp

theorem move_sampled {l : Label} {c : CallId} {p : Phase} {now : Int} (hm : Move S s l c p)
    (hp : p = .sampled now) : now = s.clock := by
  cases hm with
  | sample _ => exact (Phase.sampled.inj hp).symm
  | @finishDirect _ o _ => cases o <;> simp [Outcome.phase] at hp
  | enterDirect | enterLoop | wake | startDirect | startExecute | finishExecute => simp at hp

/-- A settling call finds its own entry in the table. -/
theorem settle_eq {c : CallId} {k : RMCDedupKey} {ref : EntryRef} {o : Outcome} (h : Inv S s)
    (hc : s.phase c = .deferring ref o) (hkey : S.key c = some k) :
    s.entries.lookup k = some ref ∧
      (settleEntry S.cfg k ref o s).setPhase c o.phase = s.settled S.cfg k ref o c := by
  obtain ⟨k', hkey', hk, hr⟩ := h.owned c ref (by rw [hc]; rfl)
  rw [hkey, Option.some.injEq] at hkey'
  subst hkey'
  exact ⟨hk, settleEntry_eq o c hk hr⟩

/-! ### The invariant along runs -/

theorem inv_lock {c : CallId} {k : RMCDedupKey} {now : Int} (h : Inv S s)
    (hc : s.phase c = .sampled now) (hkey : S.key c = some k) (hs : LockResult S s c k now s') :
    Inv S s' := by
  have hnone : ∀ ref, ¬ (s.phase c).Owns ref := by
    intro ref
    rw [hc]
    exact id
  cases hs with
  | blocked thin hk hr =>
    refine inv_setPhase (inv_thinned h thin) (fun ref => ⟨False.elim, fun h => hnone ref h⟩) ?_ (by simp)
    intro ch' heq
    cases heq
    obtain ⟨c', hc'⟩ := h.inFlight k _ (thin.sub k _ hk) (by rw [hr]; simp)
    obtain ⟨-, -, -, hr'⟩ := h.owned c' _ hc'
    rw [hr, Option.some.injEq] at hr'
    exact .inr ⟨c', hr' ▸ hc'⟩
  | hit thin hk hr hx =>
    exact inv_setPhase (inv_thinned h thin) (fun ref => ⟨False.elim, fun h => hnone ref h⟩)
      (by simp) (by simp)
  | bypass thin hk full =>
    exact inv_setPhase (inv_thinned h thin) (fun ref => ⟨False.elim, fun h => hnone ref h⟩)
      (by simp) (by simp)
  | claim thin hk room => exact inv_install (inv_thinned h thin) hkey hnone hk room

/-- **Step lemma.** -/
theorem inv_step (s : State) (l : Label) (s' : State) (h : Inv S s) (hstep : step S s l = some s') :
    Inv S s' := by
  cases stepResult hstep with
  | tick ht => exact inv_tick h ht
  | move hm =>
    exact inv_setPhase h (move_owns hm) (fun ch hp => absurd hp (move_not_blocked hm ch))
      (fun now hp => le_of_eq (move_sampled hm hp))
  | lock hc hkey hs => exact inv_lock h hc hkey hs
  | settle hc hkey =>
    obtain ⟨hk, heq⟩ := settle_eq h hc hkey
    rw [heq]
    exact inv_settled h hc hk

/-- **Run lemma.** -/
theorem inv_run {t : Int} {ls : List Label} (h : run (step S) (init t) ls = some s) : Inv S s :=
  run_invariant inv_step (inv_init S t) h

/-! ### Entries that others must leave alone -/

/-- A locked section leaves every entry that is in flight or not yet expired as it is. -/
theorem lock_keeps {c : CallId} {k k' : RMCDedupKey} {now : Int} {ref : EntryRef} (h : Inv S s)
    (hs : LockResult S s c k now s') (hk' : s.entries.lookup k' = some ref)
    (hlive : (s.heap ref).ready ≠ none ∨ now < (s.heap ref).expires) :
    s'.entries.lookup k' = some ref ∧ s'.heap ref = s.heap ref := by
  cases hs with
  | blocked thin _ _ | hit thin _ _ _ | bypass thin _ _ => exact ⟨thin.keep k' ref hk' hlive, rfl⟩
  | claim thin hk room =>
    have hkept := thin.keep k' ref hk' hlive
    have hne : k' ≠ k := by
      intro heq
      subst heq
      simp [hk] at hkept
    exact ⟨by rw [install_lookup, if_neg hne]; exact hkept,
      install_heap_of_lt k c (h.entry_lt k' ref hk')⟩

/-- An entry in flight is left alone by every step but the deferred section of its own `execute`. -/
theorem inFlight_kept {l : Label} {k : RMCDedupKey} {ref : EntryRef} (h : Inv S s)
    (hstep : step S s l = some s') (hk : s.entries.lookup k = some ref)
    (hready : (s.heap ref).ready ≠ none) (hl : ∀ c, l = .settle c → ¬ (s.phase c).Owns ref) :
    s'.entries.lookup k = some ref ∧ s'.heap ref = s.heap ref := by
  cases stepResult hstep with
  | tick _ => exact ⟨hk, rfl⟩
  | move _ => exact ⟨hk, rfl⟩
  | lock _ _ hs => exact lock_keeps h hs hk (.inl hready)
  | @settle c k' ref' o hc hkey =>
    obtain ⟨hk', heq⟩ := settle_eq h hc hkey
    have href : ref ≠ ref' := by
      intro heq
      subst heq
      exact hl c rfl (by rw [hc]; rfl)
    have hkk : k ≠ k' := by
      intro heq
      subst heq
      rw [hk, Option.some.injEq] at hk'
      exact href hk'
    rw [heq, settled_lookup_of_ne _ _ _ _ hkk, settled_heap_of_ne _ _ _ _ href]
    exact ⟨hk, rfl⟩

/-- **The table invariant.**  After every interleaving of calls, whatever their handlers return: the table
is within its bound; an entry in flight is owned by exactly one running `execute`, a call with that key; no
step but the deferred section of that `execute` removes, replaces or changes it; and a blocked call waits
on the channel of a running `execute` or on a closed one. -/
theorem dedup_table_invariant (S : Setup) (t : Int) (ls : List Label) (s : State)
    (hrun : run (step S) (init t) ls = some s) :
    GoMap.len s.entries ≤ S.cfg.maxEntries ∧
    (∀ k ref, s.entries.lookup k = some ref → (s.heap ref).ready ≠ none →
      (∃! c, (s.phase c).Owns ref) ∧ (∀ c, (s.phase c).Owns ref → S.key c = some k) ∧
      ∀ l s', step S s l = some s' → (∀ c, l = .settle c → ¬ (s.phase c).Owns ref) →
        s'.entries.lookup k = some ref ∧ s'.heap ref = s.heap ref) ∧
    (∀ c ch, s.phase c = .blocked ch → s.closed ch = true ∨
      ∃ c' ref, (s.phase c').Owns ref ∧ (s.heap ref).ready = some ch) := by
  have h := inv_run hrun
  refine ⟨h.len_le, fun k ref hk hready => ⟨?_, ?_, ?_⟩, ?_⟩
  · obtain ⟨c, hc⟩ := h.inFlight k ref hk hready
    exact ⟨c, hc, fun c' hc' => h.owner_unique c' c ref hc' hc⟩
  · intro c hc
    obtain ⟨k', hkey, hk', -⟩ := h.owned c ref hc
    rw [hkey, h.entry_inj k' k ref hk' hk]
  · intro l s' hstep hl
    exact inFlight_kept h hstep hk hready hl
  · intro c ch hc
    rcases h.blocked c ch hc with hclosed | ⟨c', hc'⟩
    · exact .inl hclosed
    · obtain ⟨-, -, -, hr⟩ := h.owned c' ch hc'
      exact .inr ⟨c', ch, hc', hr⟩

/-- Two calls carry one and the same request: the second blocks on the first. -/
def twoCalls : Setup where
  cfg := newRMCDeduplicator 0 0
  sha256 := fun _ => 0
  args := fun _ => ⟨some (7, 1001), some (newRMCRequest protocolMatchMakingExt Method.endParticipation 3 [])⟩

def blockedTrace : List Label := [.enter 0, .sample 0, .lock 0, .enter 1, .sample 1, .lock 1]

theorem dedup_table_invariant_twoCalls :
    ∃ s, run (step twoCalls) (init 0) blockedTrace = some s ∧ s.phase 1 = .blocked 0 ∧
      (s.closed 0 = true ∨ ∃ c' ref, (s.phase c').Owns ref ∧ (s.heap ref).ready = some 0) :=
  ⟨_, rfl, rfl, (dedup_table_invariant twoCalls 0 blockedTrace _ rfl).2.2 1 0 rfl⟩

end NextendoMatchmaking.Dedup
