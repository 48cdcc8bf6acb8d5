import NextendoMatchmaking.Dedup.Table

/-!
# Retries of one request run it once

Once a call has installed the entry for its key, a call with the same key that reaches the table later does
not run `next`: while the first run lasts it waits, and after the run has ended with a response it gets that
response until the entry expires.  Conversely a call that returns without running `next` returns what a run
for the same key produced.

* `Phase.Waits`, `Phase.Past` — a call that has still to pass the table, and one that has passed it;
* `waits_run` — no call passes a table in which its key is in flight;
* `Cached`, `cached_run` — a response stays in the table until it expires;
* `History` — where the responses of the table and of the returned calls come from;
* `dedup_coalesces` — the three results together.
-/

namespace NextendoMatchmaking.Dedup

open NextendoMatchmaking.Runs

variable {S : Setup} {s s' : State}
variable {b a : CallId} {s₂ : State} {ref : EntryRef} {k : RMCDedupKey} {r : RMCMessage} {tail : List Label}

/-- The call is on its way to the locked section. -/
def Phase.Waits : Phase → Prop
  | .looping | .sampled _ | .blocked _ => True
  | _ => False

/-- The call has left the loop of `wrap`. -/
def Phase.Past : Phase → Prop
  | .idle | .looping | .sampled _ | .blocked _ => False
  | _ => True

/-! ### Phases along a run -/

theorem past_of_returned (o : Outcome) : o.phase.Past := by
  cases o <;> trivial

/-- A step changes the phase of at most one call, the one its label names. -/
theorem phase_locked {c k now} (hs : LockResult S s c k now s') (h : b ≠ c) : s'.phase b = s.phase b := by
  cases hs with
  | blocked | hit | bypass | claim => exact Function.update_of_ne h _ _

theorem phase_setPhase {c : CallId} {p : Phase} (h : b ≠ c) : (s.setPhase c p).phase b = s.phase b :=
  Function.update_of_ne h _ _

/-- The deferred section changes neither the phases nor the clock. -/
theorem settleEntry_frame (cfg : Config) (k : RMCDedupKey) (ref : EntryRef) (o : Outcome) :
    (settleEntry cfg k ref o s).phase = s.phase ∧ (settleEntry cfg k ref o s).clock = s.clock := by
  unfold settleEntry
  split
  · cases o.response with
    | none => simp only; split <;> exact ⟨rfl, rfl⟩
    | some r => simp only; split <;> exact ⟨rfl, rfl⟩
  · exact ⟨rfl, rfl⟩

/-- What a step can do to the phase of the call `b`: nothing, a move of its own, its locked section, or
the deferred section of its `execute`. -/
theorem phase_cases {l : Label} (hstep : step S s l = some s') (b : CallId) :
    (s'.phase b = s.phase b ∧ l ≠ .start b) ∨ Move S s l b (s'.phase b) ∨
    (∃ now k, l = .lock b ∧ s.phase b = .sampled now ∧ S.key b = some k ∧ LockResult S s b k now s') ∨
    (∃ ref o, l = .settle b ∧ s.phase b = .deferring ref o ∧ s'.phase b = o.phase) := by
  cases stepResult hstep with
  | tick _ => exact .inl ⟨rfl, by simp⟩
  | @move _ c p hm =>
    by_cases hb : b = c
    · subst hb
      exact .inr (.inl (by simpa [State.setPhase] using hm))
    · refine .inl ⟨phase_setPhase hb, ?_⟩
      intro heq
      subst heq
      cases hm <;> exact hb rfl
  | @lock c k now _ hc hkey hs =>
    by_cases hb : b = c
    · subst hb
      exact .inr (.inr (.inl ⟨now, k, rfl, hc, hkey, hs⟩))
    · exact .inl ⟨phase_locked hs hb, by simp⟩
  | @settle c k ref o hc _ =>
    by_cases hb : b = c
    · subst hb
      exact .inr (.inr (.inr ⟨ref, o, rfl, hc, Function.update_self _ _ _⟩))
    · exact .inl ⟨by rw [phase_setPhase hb, (settleEntry_frame _ _ _ _).1], by simp⟩

/-- A call that has left the loop never comes back to it. -/
theorem past_step (s : State) (l : Label) (s' : State) (h : (s.phase b).Past) (hstep : step S s l = some s') :
    (s'.phase b).Past := by
  rcases phase_cases hstep b with ⟨hsame, -⟩ | hm | ⟨now, k, -, hc, -⟩ | ⟨ref, o, -, -, hdone⟩
  · rw [hsame]
    exact h
  · generalize s'.phase b = p at hm
    cases hm with
    | enterDirect hc _ | enterLoop hc _ | sample hc | wake hc _ => rw [hc] at h; exact h.elim
    | startDirect | startExecute | finishExecute => trivial
    | finishDirect _ => exact past_of_returned _
  · rw [hc] at h
    exact h.elim
  · rw [hdone]
    exact past_of_returned o

/-- A call that has returned stays as it is. -/
theorem returned_step {x : Option RMCMessage} (s : State) (l : Label) (s' : State) (h : s.phase b = .returned x)
    (hstep : step S s l = some s') : s'.phase b = .returned x := by
  rcases phase_cases hstep b with ⟨hsame, -⟩ | hm | ⟨now, k, -, hc, -⟩ | ⟨ref, o, -, hc, -⟩
  · rw [hsame]
    exact h
  · generalize s'.phase b = p at hm
    cases hm with
    | enterDirect hc _ | enterLoop hc _ | sample hc | wake hc _ | startDirect hc | startExecute hc
    | finishDirect hc | finishExecute hc => simp [hc] at h
  · simp [hc] at h
  · simp [hc] at h

/-- Only its own locked section takes a waiting call out of the loop. -/
theorem waits_step {l : Label} (h : (s.phase b).Waits) (hl : l ≠ .lock b) (hstep : step S s l = some s') :
    (s'.phase b).Waits ∧ l ≠ .start b := by
  rcases phase_cases hstep b with ⟨hsame, hstart⟩ | hm | ⟨now, k, hlock, -⟩ | ⟨ref, o, -, hc, -⟩
  · rw [hsame]
    exact ⟨h, hstart⟩
  · generalize s'.phase b = p at hm
    cases hm with
    | enterDirect hc _ | startDirect hc | startExecute hc | finishDirect hc | finishExecute hc =>
      rw [hc] at h
      exact h.elim
    | enterLoop | sample | wake => exact ⟨trivial, by simp⟩
  · exact absurd hlock hl
  · rw [hc] at h
    exact h.elim

theorem clock_step {l : Label} (hstep : step S s l = some s') : s.clock ≤ s'.clock := by
  cases stepResult hstep with
  | tick ht => exact ht
  | move _ => exact le_rfl
  | lock _ _ hs =>
    cases hs with
    | blocked | hit | bypass | claim => exact le_rfl
  | settle _ _ => exact le_of_eq (settleEntry_frame _ _ _ _).2.symm

theorem clock_run {ls : List Label} (h : run (step S) s ls = some s') : s.clock ≤ s'.clock :=
  run_invariant (P := fun s₁ => s.clock ≤ s₁.clock)
    (fun _ _ _ hle hstep => le_trans hle (clock_step hstep)) le_rfl h

/-- A call reaches the table before it starts `next`. -/
theorem start_notMem_of_lock {ls : List Label} {s₁ : State} (hrun : run (step S) s ls = some s₁)
    (hlock : step S s₁ (.lock b) = some s₂) :
    Label.start b ∉ ls := by
  intro hmem
  obtain ⟨ls₁, ls₂, rfl⟩ := List.append_of_mem hmem
  obtain ⟨t₁, -, hrun₁⟩ := run_append_some.mp hrun
  obtain ⟨t₂, hstart, hrun₂⟩ := run_cons_some.mp hrun₁
  have hpast : (t₂.phase b).Past := by
    cases stepResult hstart with
    | move hm =>
      cases hm with
      | startDirect _ | startExecute _ => simp [State.setPhase, Phase.Past]
  have hpast₁ : (s₁.phase b).Past := run_invariant past_step hpast hrun₂
  cases stepResult hlock with
  | move hm => cases hm
  | lock hc _ _ => rw [hc] at hpast₁; exact hpast₁

/-! ### While the first run lasts -/

/-- An `execute` goes on until its deferred section. -/
theorem owns_step {l : Label} (h : (s.phase a).Owns ref) (hl : l ≠ .settle a) (hstep : step S s l = some s') :
    (s'.phase a).Owns ref := by
  rcases phase_cases hstep a with ⟨hsame, -⟩ | hm | ⟨now, k, -, hc, -⟩ | ⟨ref', o, hsettle, -⟩
  · rw [hsame]
    exact h
  · exact (move_owns hm ref).mpr h
  · rw [hc] at h
    exact h.elim
  · exact absurd hsettle hl

theorem owns_run {ls : List Label} (h : (s.phase a).Owns ref) (hls : Label.settle a ∉ ls)
    (hrun : run (step S) s ls = some s') : (s'.phase a).Owns ref :=
  (run_invariant_of_labels (D := fun l => l ≠ Label.settle a) (E := fun _ => True)
    (P := fun s => (s.phase a).Owns ref) (fun _ _ _ hl ha hstep => ⟨owns_step ha hl hstep, trivial⟩)
    (fun _ hl heq => hls (heq ▸ hl)) h hrun).1

/-- The locked section of a call whose key is in flight blocks it. -/
theorem lock_waits {now : Int} (hk : s.entries.lookup k = some ref) (hready : (s.heap ref).ready ≠ none)
    (hs : LockResult S s b k now s') : (s'.phase b).Waits := by
  have hkept : ∀ e, Thinned now s e → e.lookup k = some ref :=
    fun e thin => thin.keep k ref hk (.inl hready)
  cases hs with
  | blocked thin _ _ =>
    simp only [State.locked, Function.update_self]
    trivial
  | hit thin hk' hr _ =>
    rw [hkept _ thin, Option.some.injEq] at hk'
    exact absurd (hk' ▸ hr) hready
  | bypass thin hk' _ => exact absurd (hkept _ thin) (by simp [hk'])
  | claim thin hk' _ => exact absurd (hkept _ thin) (by simp [hk'])

/-- While `a` runs, the locked section of a call with the same key leaves it waiting. -/
theorem waits_step_of_owner {l : Label} (hkey : S.key b = S.key a) (hinv : Inv S s) (ha : (s.phase a).Owns ref)
    (hb : (s.phase b).Waits) (hstep : step S s l = some s') :
    (s'.phase b).Waits ∧ l ≠ .start b := by
  by_cases hlock : l = .lock b
  · subst hlock
    refine ⟨?_, by simp⟩
    cases stepResult hstep with
    | move hm => cases hm
    | lock hc hkb hs =>
      obtain ⟨k, hka, hk, hr⟩ := hinv.owned a ref ha
      rw [hkb, hka, Option.some.injEq] at hkey
      exact lock_waits (hkey ▸ hk) (by rw [hr]; simp) hs
  · exact waits_step hb hlock hstep

/-- **While the run of `a` lasts** a waiting call with the same key goes on waiting. -/
theorem waits_run (hkey : S.key b = S.key a) {ls : List Label} (hinv : Inv S s) (ha : (s.phase a).Owns ref)
    (hb : (s.phase b).Waits) (hls : Label.settle a ∉ ls) (hrun : run (step S) s ls = some s') :
    Label.start b ∉ ls ∧ (s'.phase b).Waits := by
  have hstep : ∀ s l s', l ≠ Label.settle a → Inv S s ∧ (s.phase a).Owns ref ∧ (s.phase b).Waits →
      step S s l = some s' → (Inv S s' ∧ (s'.phase a).Owns ref ∧ (s'.phase b).Waits) ∧ l ≠ .start b := by
    intro s l s' hl hs hstep
    obtain ⟨hinv, ha, hb⟩ := hs
    obtain ⟨hwaits, hstart⟩ := waits_step_of_owner hkey hinv ha hb hstep
    exact ⟨⟨inv_step _ _ _ hinv hstep, owns_step ha hl hstep, hwaits⟩, hstart⟩
  obtain ⟨⟨-, -, hwaits⟩, hstart⟩ :=
    run_invariant_of_labels hstep (fun _ hl heq => hls (heq ▸ hl)) ⟨hinv, ha, hb⟩ hrun
  exact ⟨fun hmem => hstart _ hmem rfl, hwaits⟩

/-! ### After the first run -/

/-- The table answers `k` with `r` until `expires`. -/
def Cached (s : State) (k : RMCDedupKey) (r : RMCMessage) (expires : Int) : Prop :=
  ∃ ref, s.entries.lookup k = some ref ∧ s.heap ref = ⟨none, some r, expires⟩

/-- A response stays in the table until it expires. -/
theorem cached_step {x : Int} {l : Label} (hinv : Inv S s) (h : Cached s k r x) (hstep : step S s l = some s')
    (hx : s'.clock < x) : Cached s' k r x := by
  obtain ⟨ref, hk, hheap⟩ := h
  have hx₀ : s.clock < x := lt_of_le_of_lt (clock_step hstep) hx
  cases stepResult hstep with
  | tick _ => exact ⟨ref, hk, hheap⟩
  | move _ => exact ⟨ref, hk, hheap⟩
  | @lock c _ now _ hc _ hs =>
    have hlive : now < (s.heap ref).expires := by
      rw [hheap]
      exact lt_of_le_of_lt (hinv.sampled c now hc) hx₀
    obtain ⟨hk', hheap'⟩ := lock_keeps hinv hs hk (.inr hlive)
    exact ⟨ref, hk', hheap'.trans hheap⟩
  | @settle c k' ref' o hc hkey =>
    -- the settling call's entry is in flight, so it is not this one
    obtain ⟨hk', heq⟩ := settle_eq hinv hc hkey
    obtain ⟨-, -, -, hr⟩ := hinv.owned c ref' (by rw [hc]; rfl)
    have href : ref ≠ ref' := by
      intro heq
      subst heq
      simp [hheap] at hr
    have hkk : k ≠ k' := by
      intro heq
      subst heq
      rw [hk, Option.some.injEq] at hk'
      exact href hk'
    rw [heq]
    exact ⟨ref, by rw [settled_lookup_of_ne _ _ _ _ hkk, hk],
      by rw [settled_heap_of_ne _ _ _ _ href, hheap]⟩

theorem cached_run {x : Int} {ls : List Label} (hinv : Inv S s) (h : Cached s k r x)
    (hrun : run (step S) s ls = some s') (hx : s'.clock < x) : Cached s' k r x := by
  induction ls generalizing s with
  | nil =>
    rw [run_nil, Option.some.injEq] at hrun
    exact hrun ▸ h
  | cons l ls ih =>
    obtain ⟨s₁, hstep, hrun₁⟩ := run_cons_some.mp hrun
    have hx₁ : s₁.clock < x := lt_of_le_of_lt (clock_run hrun₁) hx
    exact ih (inv_step _ _ _ hinv hstep) (cached_step hinv h hstep hx₁) hrun₁

/-- A call that reaches the table while the response is there returns it. -/
theorem lock_cached {x : Int} (hinv : Inv S s) (h : Cached s k r x) (hx : s.clock < x) (hkey : S.key b = some k)
    (hstep : step S s (.lock b) = some s') : s'.phase b = .returned (some r) := by
  obtain ⟨ref, hk, hheap⟩ := h
  cases stepResult hstep with
  | move hm => cases hm
  | @lock _ k' now _ hc hkey' hs =>
    rw [hkey, Option.some.injEq] at hkey'
    subst hkey'
    have hlive : now < (s.heap ref).expires := by
      rw [hheap]
      exact lt_of_le_of_lt (hinv.sampled b now hc) hx
    have hkept : ∀ e, Thinned now s e → e.lookup k = some ref :=
      fun e thin => thin.keep k ref hk (.inr hlive)
    cases hs with
    | blocked thin hk' hr =>
      rw [hkept _ thin, Option.some.injEq] at hk'
      simp [← hk', hheap] at hr
    | hit thin hk' _ _ =>
      rw [hkept _ thin, Option.some.injEq] at hk'
      simp [State.locked, ← hk', hheap]
    | bypass thin hk' _ => exact absurd (hkept _ thin) (by simp [hk'])
    | claim thin hk' _ => exact absurd (hkept _ thin) (by simp [hk'])

/-- A waiting call that does not reach the table again goes on waiting. -/
theorem waits_run_of_notMem {ls : List Label} (hb : (s.phase b).Waits) (hls : Label.lock b ∉ ls)
    (hrun : run (step S) s ls = some s') :
    Label.start b ∉ ls ∧ (s'.phase b).Waits := by
  obtain ⟨hwaits, hstart⟩ := run_invariant_of_labels (D := fun l => l ≠ Label.lock b)
    (E := fun l => l ≠ Label.start b) (P := fun s => (s.phase b).Waits)
    (fun _ _ _ hl h hstep => waits_step h hl hstep)
    (fun _ hl heq => hls (heq ▸ hl)) hb hrun
  exact ⟨fun hmem => hstart _ hmem rfl, hwaits⟩

/-- A call that has returned does not start `next`. -/
theorem start_notMem_of_returned {x : Option RMCMessage} {ls : List Label} (h : s.phase b = .returned x)
    (hrun : run (step S) s ls = some s') : Label.start b ∉ ls := by
  intro hmem
  obtain ⟨ls₁, ls₂, rfl⟩ := List.append_of_mem hmem
  obtain ⟨t₁, hrun₁, hrun₂⟩ := run_append_some.mp hrun
  obtain ⟨t₂, hstart, -⟩ := run_cons_some.mp hrun₂
  have hret : t₁.phase b = .returned x := run_invariant returned_step h hrun₁
  cases stepResult hstart with
  | move hm =>
    cases hm with
    | startDirect hc | startExecute hc => simp [hret] at hc

/-- The deferred section puts the response of the run into the table. -/
theorem settle_cached (hinv : Inv S s) (hkey : S.key a = some k)
    (hc : s.phase a = .deferring ref (.returned (some r))) (hstep : step S s (.settle a) = some s') :
    Cached s' k r (s.clock + S.cfg.ttl) := by
  cases stepResult hstep with
  | move hm => cases hm
  | @settle _ k' ref' o hc' hkey' =>
    rw [hkey, Option.some.injEq] at hkey'
    rw [hc, Phase.deferring.injEq] at hc'
    obtain ⟨rfl, rfl⟩ := hc'
    subst hkey'
    obtain ⟨hk, heq⟩ := settle_eq hinv hc hkey
    rw [heq]
    refine ⟨ref, ?_, ?_⟩
    · show (if some r = none then s.entries.erase k else s.entries).lookup k = some ref
      rw [if_neg (by simp), hk]
    · rw [settled_heap_self, complete_of_response rfl]

/-! ### Where responses come from -/

/-- The call is in `next`, or has left it without its answer. -/
def Phase.Ran : Phase → Prop
  | .directRunning | .running _ | .deferring _ _ | .panicked => True
  | _ => False

/-- Every response in the table and every answer without a run go back to a run that has ended with it. -/
structure History (S : Setup) (ls : List Label) (s : State) : Prop where
  inv : Inv S s
  finished : ∀ c ref o, s.phase c = .deferring ref o → Label.finish c o ∈ ls
  ran : ∀ c, (s.phase c).Ran → Label.start c ∈ ls
  cached : ∀ k ref m, s.entries.lookup k = some ref → (s.heap ref).ready = none →
    (s.heap ref).response = some m → ∃ a, S.key a = some k ∧ Label.finish a (.returned (some m)) ∈ ls
  answered : ∀ c x, s.phase c = .returned x → Label.start c ∈ ls ∨
    ∃ k m a, S.key c = some k ∧ x = some m ∧ S.key a = some k ∧
      Label.finish a (.returned (some m)) ∈ ls

theorem history_init (S : Setup) (t : Int) : History S [] (init t) where
  inv := inv_init S t
  finished := by simp [init]
  ran := by simp [init, Phase.Ran]
  cached := by simp [init]
  answered := by simp [init]

variable {ls : List Label} {l : Label}

theorem history_finished (h : History S ls s) (hstep : step S s l = some s') (c : CallId)
    (ref : EntryRef) (o : Outcome) (hc : s'.phase c = .deferring ref o) :
    Label.finish c o ∈ ls ++ [l] := by
  rcases phase_cases hstep c with ⟨hsame, -⟩ | hm | ⟨now, k, -, -, -, hs⟩ | ⟨ref', o', -, -, hdone⟩
  · exact List.mem_append_left _ (h.finished c ref o (hsame ▸ hc))
  · rw [hc] at hm
    generalize hp : Phase.deferring ref o = p at hm
    cases hm with
    | finishExecute _ =>
      obtain ⟨-, rfl⟩ := Phase.deferring.inj hp
      exact List.mem_append_right _ (by simp)
    | @finishDirect _ o' _ => cases o' <;> simp [Outcome.phase] at hp
    | enterDirect | enterLoop | sample | wake | startDirect | startExecute => simp at hp
  · cases hs <;> simp [State.locked, install] at hc
  · rw [hdone] at hc
    cases o' <;> simp [Outcome.phase] at hc

theorem history_ran (h : History S ls s) (hstep : step S s l = some s') (c : CallId)
    (hc : (s'.phase c).Ran) : Label.start c ∈ ls ++ [l] := by
  rcases phase_cases hstep c with ⟨hsame, -⟩ | hm | ⟨now, k, -, -, -, hs⟩ | ⟨ref, o, -, hdef, -⟩
  · exact List.mem_append_left _ (h.ran c (hsame ▸ hc))
  · generalize s'.phase c = p at hm hc
    cases hm with
    | startDirect | startExecute => exact List.mem_append_right _ (by simp)
    | finishDirect hr | finishExecute hr =>
      exact List.mem_append_left _ (h.ran c (by rw [hr]; trivial))
    | enterDirect | enterLoop | sample | wake => exact hc.elim
  · cases hs <;> simp [State.locked, install, Phase.Ran] at hc
  · exact List.mem_append_left _ (h.ran c (by rw [hdef]; trivial))

theorem response_returned {o : Outcome} {m : RMCMessage} (h : o.response = some m) :
    o = .returned (some m) := by
  cases o with
  | returned r =>
    have hr : r = some m := h
    rw [hr]
  | panicked => exact absurd h (by simp [Outcome.response])

theorem history_cached (h : History S ls s) (hstep : step S s l = some s') (k : RMCDedupKey)
    (ref : EntryRef) (m : RMCMessage) (hk : s'.entries.lookup k = some ref)
    (hready : (s'.heap ref).ready = none) (hresp : (s'.heap ref).response = some m) :
    ∃ a, S.key a = some k ∧ Label.finish a (.returned (some m)) ∈ ls ++ [l] := by
  have hold : s.entries.lookup k = some ref → s'.heap ref = s.heap ref →
      ∃ a, S.key a = some k ∧ Label.finish a (.returned (some m)) ∈ ls ++ [l] := by
    intro hk₀ hheap
    rw [hheap] at hready hresp
    obtain ⟨a, hkey, hmem⟩ := h.cached k ref m hk₀ hready hresp
    exact ⟨a, hkey, List.mem_append_left _ hmem⟩
  cases stepResult hstep with
  | tick _ => exact hold hk rfl
  | move _ => exact hold hk rfl
  | @lock c k' _ _ _ _ hs =>
    cases hs with
    | blocked thin _ _ | hit thin _ _ _ | bypass thin _ _ => exact hold (thin.sub k ref hk) rfl
    | claim thin _ _ =>
      rcases install_entry (inv_thinned h.inv thin) hk with ⟨-, rfl⟩ | ⟨hk₀, hlt⟩
      · simp [install_heap_next] at hready
      · exact hold (thin.sub k ref hk₀) (install_heap_of_lt k' c hlt)
  | @settle c k' ref' o hc hkey =>
    obtain ⟨hk', heq⟩ := settle_eq h.inv hc hkey
    rw [heq] at hk hready hresp hold
    obtain ⟨hk₀, hsome⟩ := settled_entry hk
    by_cases href : ref = ref'
    · subst href
      have hkk := h.inv.entry_inj k k' ref hk₀ hk'
      obtain ⟨m', hm'⟩ := Option.ne_none_iff_exists'.mp (hsome hkk)
      rw [settled_heap_self, complete_of_response hm', Option.some.injEq] at hresp
      rw [response_returned hm', hresp] at hc
      exact ⟨c, hkk ▸ hkey, List.mem_append_left _ (h.finished c ref _ hc)⟩
    · exact hold hk₀ (settled_heap_of_ne _ _ _ _ href)

theorem history_answered (h : History S ls s) (hstep : step S s l = some s') (c : CallId)
    (x : Option RMCMessage) (hc : s'.phase c = .returned x) : Label.start c ∈ ls ++ [l] ∨
      ∃ k m a, S.key c = some k ∧ x = some m ∧ S.key a = some k ∧
        Label.finish a (.returned (some m)) ∈ ls ++ [l] := by
  rcases phase_cases hstep c with ⟨hsame, -⟩ | hm | ⟨now, k, -, -, hkey, hs⟩ | ⟨ref, o, -, hdef, -⟩
  · rcases h.answered c x (hsame ▸ hc) with hmem | ⟨k, m, a, hkey, hx, hkey', hmem⟩
    · exact .inl (List.mem_append_left _ hmem)
    · exact .inr ⟨k, m, a, hkey, hx, hkey', List.mem_append_left _ hmem⟩
  · rw [hc] at hm
    generalize hp : Phase.returned x = p at hm
    cases hm with
    | finishDirect hr => exact .inl (List.mem_append_left _ (h.ran c (by rw [hr]; trivial)))
    | enterDirect | enterLoop | sample | wake | startDirect | startExecute | finishExecute =>
      simp at hp
  · cases hs with
    | @hit e ref thin hk hr _ =>
      have hk₀ := thin.sub k ref hk
      obtain ⟨m, hm⟩ := Option.ne_none_iff_exists'.mp (h.inv.completed k ref hk₀ hr)
      obtain ⟨a, hkey', hmem⟩ := h.cached k ref m hk₀ hr hm
      simp only [State.locked, Function.update_self, Phase.returned.injEq] at hc
      exact .inr ⟨k, m, a, hkey, hc ▸ hm, hkey', List.mem_append_left _ hmem⟩
    | blocked | bypass | claim => simp [State.locked, install] at hc
  · exact .inl (List.mem_append_left _ (h.ran c (by rw [hdef]; trivial)))

theorem history_run {t : Int} (hrun : run (step S) (init t) ls = some s) : History S ls s :=
  run_history (history_init S t)
    (fun _ _ _ _ h hstep => ⟨inv_step _ _ _ h.inv hstep, history_finished h hstep, history_ran h hstep,
      history_cached h hstep, history_answered h hstep⟩) hrun

/-! ### The result -/

/-- In the state `s` the locked section of `a` installs the entry `ref` for its key. -/
def Installs (S : Setup) (s : State) (a : CallId) (ref : EntryRef) (s' : State) : Prop :=
  step S s (.lock a) = some s' ∧ s'.phase a = .executing ref

theorem waits_of_lock (hlock : step S s (.lock b) = some s') : (s.phase b).Waits := by
  cases stepResult hlock with
  | move hm => cases hm
  | lock hc _ _ => rw [hc]; trivial

/-- The call `b` reaches the table after the run of `a` has stored its response. -/
theorem coalesced_late {sb sc : State} (hinv : Inv S s) (hkey : S.key b = S.key a)
    (hdef : s.phase a = .deferring ref (.returned (some r))) (htail : run (step S) s (.settle a :: tail) = some sb)
    (hclock : sb.clock < s.clock + S.cfg.ttl) (hlock : step S sb (.lock b) = some sc) :
    sc.phase b = .returned (some r) := by
  obtain ⟨s₁, hsettle, hrun⟩ := run_cons_some.mp htail
  obtain ⟨k, hka, -⟩ := hinv.owned a ref (by rw [hdef]; rfl)
  have hinv₁ : Inv S s₁ := inv_step _ _ _ hinv hsettle
  have hcached := cached_run hinv₁ (settle_cached hinv hka hdef hsettle) hrun hclock
  exact lock_cached (run_invariant inv_step hinv₁ hrun) hcached hclock (hkey.trans hka) hlock

/-- The call `b` has its last locked section while the run of `a` lasts. -/
theorem coalesced_early {s₃ sc : State} {mid : List Label} (hinv : Inv S s) (ha : (s.phase a).Owns ref)
    (hkey : S.key b = S.key a) (hlock : step S s (.lock b) = some sc)
    (hmid : run (step S) s (.lock b :: mid) = some s₂) (hmem : Label.settle a ∉ Label.lock b :: mid)
    (htail : run (step S) s₂ (.settle a :: tail) = some s₃) (hlast : Label.lock b ∉ tail) :
    Label.start b ∉ .lock b :: mid ++ .settle a :: tail ∧ (s₃.phase b).Waits := by
  obtain ⟨hstart, hwaits⟩ := waits_run hkey hinv ha (waits_of_lock hlock) hmem hmid
  obtain ⟨hstart', hwaits'⟩ := waits_run_of_notMem hwaits (by simpa using hlast) htail
  exact ⟨List.mem_append.not.mpr (not_or.mpr ⟨hstart, hstart'⟩), hwaits'⟩

/-- The segment of a run after an installation, with the last locked section of `b` marked in it. -/
theorem coalesced_after {s₁ s₃ sb : State} {mid seg₁ seg₂ : List Label} (hinv : Inv S s₁) (ha : (s₁.phase a).Owns ref)
    (hkey : S.key b = S.key a) (hmid : run (step S) s₁ mid = some s₂) (hmem : Label.settle a ∉ mid)
    (hdef : s₂.phase a = .deferring ref (.returned (some r))) (htail : run (step S) s₂ (.settle a :: tail) = some s₃)
    (hseg : mid ++ .settle a :: tail = seg₁ ++ .lock b :: seg₂) (hlast : Label.lock b ∉ seg₂)
    (hsb : run (step S) s₁ seg₁ = some sb) (hclock : sb.clock < s₂.clock + S.cfg.ttl) :
    Label.start b ∉ mid ++ .settle a :: tail ∧
      (s₃.phase b = .returned (some r) ∨ (Label.lock b ∉ tail ∧ (s₃.phase b).Waits)) := by
  have hinv₂ : Inv S s₂ := run_invariant inv_step hinv hmid
  have hall : run (step S) s₁ (seg₁ ++ .lock b :: seg₂) = some s₃ := by
    rw [← hseg]
    exact run_append_some.mpr ⟨s₂, hmid, htail⟩
  obtain ⟨sb', hsb', hrest⟩ := run_append_some.mp hall
  obtain rfl : sb' = sb := Option.some.inj (hsb'.symm.trans hsb)
  obtain ⟨sc, hlock, hseg₂⟩ := run_cons_some.mp hrest
  have hbefore : Label.start b ∉ seg₁ := start_notMem_of_lock hsb hlock
  -- the marked section comes after the deferred section of `a`, or before it
  rcases List.append_eq_append_iff.mp hseg with ⟨late, rfl, hlate⟩ | ⟨early, rfl, hearly⟩
  · cases late with
    | nil => simp at hlate
    | cons l tail₁ =>
      obtain ⟨rfl, rfl⟩ : Label.settle a = l ∧ tail = tail₁ ++ .lock b :: seg₂ := by simpa using hlate
      obtain ⟨s₂', hs₂', hrun⟩ := run_append_some.mp hsb
      obtain rfl : s₂' = s₂ := Option.some.inj (hs₂'.symm.trans hmid)
      have hret := coalesced_late hinv₂ hkey hdef hrun hclock hlock
      have hafter := start_notMem_of_returned hret hseg₂
      refine ⟨?_, .inl (run_invariant returned_step hret hseg₂)⟩
      rw [hseg, List.mem_append, not_or]
      exact ⟨hbefore, by simpa using hafter⟩
  · cases early with
    | nil => simp at hearly
    | cons l mid₂ =>
      obtain ⟨rfl, rfl⟩ : Label.lock b = l ∧ seg₂ = mid₂ ++ .settle a :: tail := by simpa using hearly
      obtain ⟨hmem₁, hmem₂⟩ : Label.settle a ∉ seg₁ ∧ Label.settle a ∉ Label.lock b :: mid₂ := by
        simpa using hmem
      have hlast' : Label.lock b ∉ tail := fun h => hlast (by simp [h])
      obtain ⟨sb'', hsb'', hmid₂⟩ := run_append_some.mp hmid
      obtain rfl : sb'' = sb' := Option.some.inj (hsb''.symm.trans hsb)
      have hown : (sb''.phase a).Owns ref := owns_run ha hmem₁ hsb
      have hwait := coalesced_early (run_invariant inv_step hinv hsb) hown hkey hlock hmid₂ hmem₂ htail
        hlast'
      refine ⟨?_, .inr ⟨hlast', hwait.2⟩⟩
      rw [hseg, List.mem_append, not_or]
      exact ⟨hbefore, hwait.1⟩

/-- **Retries run a request once.**  Take any run and any call `a` in it that installs the entry for its
key, and any other call `b` with the same key.

While the run of `a` lasts, that is until its deferred section, `b` does not start `next` if it has a
locked section after the installation.  If the run ended with the response `r`, stored at the time
`s₂.clock`, and the last locked section of `b` comes after the installation and before `s₂.clock + ttl`,
then `b` does not start `next` either: it returns `r`, unless that section came before the response, in
which case `b` is still on its way to the table.

Conversely a call that has returned without starting `next` has returned the response of a run for the
same key. -/
theorem dedup_coalesces (S : Setup) (t : Int) (ls : List Label) (s : State)
    (hrun : run (step S) (init t) ls = some s) :
    (∀ a ref s₁ b, Installs S s a ref s₁ → b ≠ a → S.key b = S.key a →
      (∀ mid s₂, run (step S) s₁ mid = some s₂ → Label.settle a ∉ mid → Label.lock b ∈ mid →
        Label.start b ∉ mid) ∧
      (∀ mid s₂ r tail s₃ seg₁ seg₂ sb,
        run (step S) s₁ mid = some s₂ → Label.settle a ∉ mid →
        s₂.phase a = .deferring ref (.returned (some r)) →
        run (step S) s₂ (.settle a :: tail) = some s₃ →
        mid ++ .settle a :: tail = seg₁ ++ .lock b :: seg₂ → Label.lock b ∉ seg₂ →
        run (step S) s₁ seg₁ = some sb → sb.clock < s₂.clock + S.cfg.ttl →
        Label.start b ∉ mid ++ .settle a :: tail ∧
          (s₃.phase b = .returned (some r) ∨ (Label.lock b ∉ tail ∧ (s₃.phase b).Waits)))) ∧
    (∀ c x, s.phase c = .returned x → Label.start c ∉ ls →
      ∃ k m a, S.key c = some k ∧ x = some m ∧ S.key a = some k ∧
        Label.finish a (.returned (some m)) ∈ ls) := by
  refine ⟨fun a ref s₁ b hinst _ hkey => ?_, fun c x hc hstart => ?_⟩
  · have hinv : Inv S s₁ := inv_step _ _ _ (inv_run hrun) hinst.1
    have ha : (s₁.phase a).Owns ref := by
      rw [hinst.2]
      rfl
    constructor
    · intro mid s₂ hmid hmem hlock
      obtain ⟨mid₁, mid₂, rfl⟩ := List.append_of_mem hlock
      obtain ⟨sb, hsb, hrest⟩ := run_append_some.mp hmid
      obtain ⟨sc, hstep, -⟩ := run_cons_some.mp hrest
      obtain ⟨hmem₁, hmem₂⟩ : Label.settle a ∉ mid₁ ∧ Label.settle a ∉ Label.lock b :: mid₂ := by
        simpa using hmem
      have hwait := waits_run hkey (run_invariant inv_step hinv hsb) (owns_run ha hmem₁ hsb)
        (waits_of_lock hstep) hmem₂ hrest
      exact List.mem_append.not.mpr (not_or.mpr ⟨start_notMem_of_lock hsb hstep, hwait.1⟩)
    · intro mid s₂ r tail s₃ seg₁ seg₂ sb hmid hmem hdef htail hseg hlast hsb hclock
      exact coalesced_after hinv ha hkey hmid hmem hdef htail hseg hlast hsb hclock
  · rcases (history_run hrun).answered c x hc with hmem | hrun'
    · exact absurd hmem hstart
    · exact hrun'

/-- A retry that arrives after the first call has been answered gets that answer: the first call up to
its installation, its run, and the retry. -/
def answer : RMCMessage := newRMCError protocolMatchMakingExt 3 resultCoreNotImplemented

def firstCall : List Label := [.enter 0, .sample 0]
def firstRun : List Label := [.start 0, .finish 0 (.returned (some answer))]
def retryCall : List Label := [.enter 1, .sample 1, .lock 1]

theorem dedup_coalesces_retry :
    ∃ s s₁ s₃, run (step twoCalls) (init 0) firstCall = some s ∧ Installs twoCalls s 0 0 s₁ ∧
      run (step twoCalls) s₁ (firstRun ++ .settle 0 :: retryCall) = some s₃ ∧
      Label.start 1 ∉ firstRun ++ .settle 0 :: retryCall ∧
      (s₃.phase 1 = .returned (some answer) ∨ (Label.lock 1 ∉ retryCall ∧ (s₃.phase 1).Waits)) :=
  ⟨_, _, _, rfl, ⟨rfl, rfl⟩, rfl,
    ((dedup_coalesces twoCalls 0 firstCall _ rfl).1 0 0 _ 1 ⟨rfl, rfl⟩ (by decide) rfl).2
      firstRun _ answer retryCall _ (firstRun ++ [.settle 0, .enter 1, .sample 1]) [] _
      rfl (by simp [firstRun]) rfl rfl rfl (by simp) rfl (by decide)⟩

end NextendoMatchmaking.Dedup
