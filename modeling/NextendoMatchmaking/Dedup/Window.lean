import NextendoMatchmaking.Dedup.Coalescing

/-!
# One run for each key

Within one lifetime of its entries, a table that has room for all the keys in use and whose handlers answer runs
the handler once for each key, in whatever order the calls are scheduled (`started_once`).  The keys that were
taken on never leave the table: the entry of a run that lasts is in flight, and the entry of one that is over has
not expired.

`returned_of_run` is about any run, however long: what a call has returned is what its own run of `next`
produced, or a run for the same key.
-/

namespace NextendoMatchmaking.Dedup

open NextendoMatchmaking.Runs

variable {S : Setup} {s s' : State} {ls : List Label} {l : Label}
variable {c : CallId} {x : Option RMCMessage} {e : GoMap RMCDedupKey EntryRef} {k : RMCDedupKey}

/-! ### Where an answer comes from -/

/-- `x` is what a run of `next` for the call `c` produced: its own, or one for the same key. -/
def RunFor (S : Setup) (ls : List Label) (c : CallId) (x : Option RMCMessage) : Prop :=
  ∃ a, Label.finish a (.returned x) ∈ ls ∧ (a = c ∨ ∃ k, S.key a = some k ∧ S.key c = some k)

theorem RunFor.mono (h : RunFor S ls c x) (l : Label) : RunFor S (ls ++ [l]) c x := by
  obtain ⟨a, hmem, ha⟩ := h
  exact ⟨a, List.mem_append_left _ hmem, ha⟩

theorem runFor_of_phase {o : Outcome} (hphase : o.phase = .returned x) (hmem : Label.finish c o ∈ ls) :
    RunFor S ls c x := by
  cases o with
  | returned r =>
    cases hphase
    exact ⟨c, hmem, .inl rfl⟩
  | panicked => cases hphase

theorem returned_step_of_run (h : History S ls s) (hret : ∀ c x, s.phase c = .returned x → RunFor S ls c x)
    (hstep : step S s l = some s') (c : CallId) (x : Option RMCMessage) (hc : s'.phase c = .returned x) :
    RunFor S (ls ++ [l]) c x := by
  rcases phase_cases hstep c with ⟨hsame, -⟩ | hm | ⟨now, k, -, -, hkey, hs⟩ | ⟨ref, o, -, hdef, hdone⟩
  · exact (hret c x (hsame ▸ hc)).mono l
  · rw [hc] at hm
    generalize hp : Phase.returned x = p at hm
    cases hm with
    | finishDirect _ => exact runFor_of_phase hp.symm (List.mem_append_right _ (List.mem_singleton_self _))
    | enterDirect | enterLoop | sample | wake | startDirect | startExecute | finishExecute => simp at hp
  · cases hs with
    | @hit e ref thin hk hr _ =>
      -- the answer in the table goes back to a run that has ended with it
      have hk₀ := thin.sub k ref hk
      obtain ⟨m, hm⟩ := Option.ne_none_iff_exists'.mp (h.inv.completed k ref hk₀ hr)
      obtain ⟨a, hkey', hmem⟩ := h.cached k ref m hk₀ hr hm
      simp only [State.locked, Function.update_self, Phase.returned.injEq] at hc
      rw [← hc, hm]
      exact ⟨a, List.mem_append_left _ hmem, .inr ⟨k, hkey', hkey⟩⟩
    | blocked | bypass | claim => simp [State.locked, install] at hc
  · rw [hc] at hdone
    exact runFor_of_phase hdone.symm (List.mem_append_left _ (h.finished c ref o hdef))

/-- **What a call returns.**  It is what a run of `next` produced, the run of the call itself or one for the
same key. -/
theorem returned_of_run {t : Int} (hrun : run (step S) (init t) ls = some s) (hc : s.phase c = .returned x) :
    RunFor S ls c x := by
  have h : History S ls s ∧ ∀ c x, s.phase c = .returned x → RunFor S ls c x := by
    refine run_history (P := fun ls s => History S ls s ∧ ∀ c x, s.phase c = .returned x → RunFor S ls c x)
      ⟨history_init S t, nofun⟩ ?_ hrun
    intro ls s l s' h hstep
    refine ⟨?_, returned_step_of_run h.1 h.2 hstep⟩
    exact ⟨inv_step _ _ _ h.1.inv hstep, history_finished h.1 hstep, history_ran h.1 hstep,
      history_cached h.1 hstep, history_answered h.1 hstep⟩
  exact h.2 c x hc

/-! ### The window -/

/-- The call has taken its request on, or has started `next`. -/
def Begun (ls : List Label) (s : State) (c : CallId) : Prop := (∃ ref, (s.phase c).Owns ref) ∨ .start c ∈ ls

/-- The table has room for every key in use. -/
def Roomy (S : Setup) : Prop :=
  ∃ keys : Finset RMCDedupKey, keys.card ≤ S.cfg.maxEntries ∧ ∀ c k, S.key c = some k → k ∈ keys

/-- Every run of `next` for a key has ended with a response. -/
def Responsive (S : Setup) (ls : List Label) : Prop :=
  ∀ c o, Label.finish c o ∈ ls → S.key c ≠ none → o.response ≠ none

/-- What holds as long as no entry can have expired, that is before the time `T`. -/
structure Window (S : Setup) (T : Int) (ls : List Label) (s : State) : Prop where
  /-- No completed entry expires before `T`. -/
  fresh : ∀ k ref, s.entries.lookup k = some ref → (s.heap ref).ready = none → T ≤ (s.heap ref).expires
  /-- Every key of the table is the key of a call. -/
  known : ∀ k ref, s.entries.lookup k = some ref → ∃ c, S.key c = some k
  /-- No call with a key has been sent past a full table. -/
  throughTable : ∀ c, S.key c ≠ none → s.phase c ≠ .direct
  claimed : ∀ c k, S.key c = some k → Begun ls s c → ∃ ref, s.entries.lookup k = some ref
  once : ∀ c c' k, S.key c = some k → S.key c' = some k → Begun ls s c → Begun ls s c' → c = c'

theorem window_init (S : Setup) (t T : Int) : Window S T [] (init t) where
  fresh := by simp [init]
  known := by simp [init]
  throughTable := by simp [init]
  claimed := by simp [init, Begun, Phase.Owns]
  once := by simp [init, Begun, Phase.Owns]

/-- A table whose keys are in use and that lacks one of them is not full. -/
theorem Roomy.not_full (h : Roomy S) (hknown : ∀ k ref, e.lookup k = some ref → ∃ c, S.key c = some k)
    (hkey : S.key c = some k) (hk : e.lookup k = none) : GoMap.len e < S.cfg.maxEntries := by
  obtain ⟨keys, hcard, hkeys⟩ := h
  have hsub : e.keys ⊂ keys := by
    refine Finset.ssubset_iff_subset_ne.mpr ⟨fun k' hk' => ?_, ?_⟩
    · obtain ⟨ref, href⟩ := Finmap.mem_iff.mp (Finmap.mem_keys.mp hk')
      obtain ⟨c', hc'⟩ := hknown k' ref href
      exact hkeys c' k' hc'
    · intro heq
      have hmem : k ∈ e.keys := heq ▸ hkeys c k hkey
      obtain ⟨ref, href⟩ := Finmap.mem_iff.mp (Finmap.mem_keys.mp hmem)
      rw [hk] at href
      cases href
  exact lt_of_lt_of_le (Finset.card_lt_card hsub) hcard

section Steps

variable {T : Int}

/-- A step after which fewer calls have begun and the table is the same. -/
theorem Window.of_same (h : Window S T ls s) (hentries : s'.entries = s.entries) (hheap : s'.heap = s.heap)
    (hdirect : ∀ c, S.key c ≠ none → s'.phase c ≠ .direct)
    (hbegun : ∀ c, S.key c ≠ none → Begun (ls ++ [l]) s' c → Begun ls s c) : Window S T (ls ++ [l]) s' where
  fresh k ref hk hready := by
    rw [hentries] at hk
    rw [hheap] at hready ⊢
    exact h.fresh k ref hk hready
  known k ref hk := h.known k ref (hentries ▸ hk)
  throughTable := hdirect
  claimed c k hkey hc := by
    rw [hentries]
    exact h.claimed c k hkey (hbegun c (by simp [hkey]) hc)
  once c c' k hkey hkey' hc hc' :=
    h.once c c' k hkey hkey' (hbegun c (by simp [hkey]) hc) (hbegun c' (by simp [hkey']) hc')

theorem begun_of_snoc (hl : l ≠ .start c) (h : Begun (ls ++ [l]) s' c)
    (howns : ∀ ref, (s'.phase c).Owns ref → Begun ls s c) : Begun ls s c := by
  rcases h with ⟨ref, href⟩ | hmem
  · exact howns ref href
  · rcases List.mem_append.mp hmem with hmem | hmem
    · exact .inr hmem
    · exact absurd (List.mem_singleton.mp hmem).symm hl

/-- A move of one call. -/
theorem window_move {p : Phase} (h : Window S T ls s) (hm : Move S s l c p) :
    Window S T (ls ++ [l]) (s.setPhase c p) := by
  refine h.of_same rfl rfl (fun b hkey => ?_) (fun b hkey hb => ?_)
  · by_cases hbc : b = c
    · subst hbc
      simp only [State.setPhase, Function.update_self]
      cases hm with
      | enterDirect _ hnone => exact absurd hnone hkey
      | @finishDirect _ o _ => cases o <;> simp [Outcome.phase]
      | enterLoop | sample | wake | startDirect | startExecute | finishExecute => simp
    · rw [phase_setPhase hbc]
      exact h.throughTable b hkey
  · by_cases hl : l = .start b
    · subst hl
      cases hm with
      | startDirect hc => exact absurd hc (h.throughTable _ hkey)
      | @startExecute _ ref hc => exact .inl ⟨ref, by rw [hc]; rfl⟩
    · refine begun_of_snoc hl hb (fun ref href => .inl ⟨ref, ?_⟩)
      exact (owns_update (move_owns hm) b ref).mp href

/-- The entries that are in flight or have not expired are still there after a locked section. -/
theorem Window.kept (h : Window S T ls s) {now : Int} (hnow : now < T) (thin : Thinned now s e) {ref : EntryRef}
    (hk : s.entries.lookup k = some ref) :
    e.lookup k = some ref := by
  refine thin.keep k ref hk ?_
  by_cases hready : (s.heap ref).ready = none
  · exact .inr (lt_of_lt_of_le hnow (h.fresh k ref hk hready))
  · exact .inl hready

/-- A locked section that installs nothing. -/
theorem window_locked (h : Window S T ls s) {now : Int} (hnow : now < T) (thin : Thinned now s e) {p : Phase}
    (hp : ∀ ref, ¬ p.Owns ref) (hdirect : p ≠ .direct) : Window S T (ls ++ [.lock c]) (s.locked e c p) := by
  have hphase : ∀ b, b ≠ c → (s.locked e c p).phase b = s.phase b := fun b hb => Function.update_of_ne hb _ _
  have hself : (s.locked e c p).phase c = p := Function.update_self _ _ _
  have hbegun : ∀ b, Begun (ls ++ [.lock c]) (s.locked e c p) b → Begun ls s b := by
    intro b hb
    refine begun_of_snoc (by simp) hb (fun ref href => ?_)
    by_cases hbc : b = c
    · rw [hbc, hself] at href
      exact absurd href (hp ref)
    · rw [hphase b hbc] at href
      exact .inl ⟨ref, href⟩
  refine ⟨fun k ref hk => h.fresh k ref (thin.sub k ref hk), fun k ref hk => h.known k ref (thin.sub k ref hk),
    fun b hkey => ?_, fun b k hkey hb => ?_, fun b b' k hkey hkey' hb hb' => ?_⟩
  · by_cases hbc : b = c
    · rw [hbc, hself]
      exact hdirect
    · rw [hphase b hbc]
      exact h.throughTable b hkey
  · obtain ⟨ref, href⟩ := h.claimed b k hkey (hbegun b hb)
    exact ⟨ref, h.kept hnow thin href⟩
  · exact h.once b b' k hkey hkey' (hbegun b hb) (hbegun b' hb')

/-- A locked section that installs an entry: no other call with the key has begun. -/
theorem window_claim (hinv : Inv S s) (h : Window S T ls s) {now : Int} (hkey : S.key c = some k) (hnow : now < T)
    (thin : Thinned now s e) (hk : e.lookup k = none) :
    Window S T (ls ++ [.lock c]) (install k c { s with entries := e, calls := s.calls + 1 }) := by
  have hbegun : ∀ b, Begun (ls ++ [.lock c]) (install k c { s with entries := e, calls := s.calls + 1 }) b →
      b = c ∨ Begun ls s b := by
    intro b hb
    by_cases hbc : b = c
    · exact .inl hbc
    · refine .inr (begun_of_snoc (by simp) hb (fun ref href => .inl ⟨ref, ?_⟩))
      rcases (install_owns k c b _ ref).mp href with ⟨heq, -⟩ | ⟨-, howns⟩
      · exact absurd heq hbc
      · exact howns
  have hfirst : ∀ b, S.key b = some k → ¬ Begun ls s b := by
    intro b hb hbegun
    obtain ⟨ref, href⟩ := h.claimed b k hb hbegun
    rw [h.kept hnow thin href] at hk
    cases hk
  refine ⟨fun k' ref hk' hready => ?_, fun k' ref hk' => ?_, fun b hb => ?_, fun b k' hb hbeg => ?_,
    fun b b' k' hb hb' hbeg hbeg' => ?_⟩
  · rcases install_entry (inv_thinned hinv thin) hk' with ⟨-, rfl⟩ | ⟨hold, hlt⟩
    · rw [install_heap_next] at hready
      cases hready
    · rw [install_heap_of_lt k c hlt] at hready ⊢
      exact h.fresh k' ref (thin.sub k' ref hold) hready
  · rcases install_entry (inv_thinned hinv thin) hk' with ⟨rfl, -⟩ | ⟨hold, -⟩
    · exact ⟨c, hkey⟩
    · exact h.known k' ref (thin.sub k' ref hold)
  · by_cases hbc : b = c
    · simp [hbc, install]
    · simp only [install, Function.update_of_ne hbc]
      exact h.throughTable b hb
  · rw [install_lookup]
    split
    · exact ⟨_, rfl⟩
    · rename_i hne
      rcases hbegun b hbeg with rfl | hold
      · rw [hkey, Option.some.injEq] at hb
        exact absurd hb.symm hne
      · obtain ⟨ref, href⟩ := h.claimed b k' hb hold
        exact ⟨ref, h.kept hnow thin href⟩
  · rcases hbegun b hbeg with rfl | hold
    · rw [hkey, Option.some.injEq] at hb
      subst hb
      rcases hbegun b' hbeg' with rfl | hold'
      · rfl
      · exact absurd hold' (hfirst b' hb')
    · rcases hbegun b' hbeg' with rfl | hold'
      · rw [hkey, Option.some.injEq] at hb'
        subst hb'
        exact absurd hold (hfirst b hb)
      · exact h.once b b' k' hb hb' hold hold'

/-- The deferred section after a response. -/
theorem window_settled (h : Window S T ls s) {ref : EntryRef} {o : Outcome} (hresp : o.response ≠ none)
    (hT : T ≤ s.clock + S.cfg.ttl) :
    Window S T (ls ++ [.settle c]) (s.settled S.cfg k ref o c) := by
  have hentries : (s.settled S.cfg k ref o c).entries = s.entries := if_neg hresp
  have hphase : ∀ b, b ≠ c → (s.settled S.cfg k ref o c).phase b = s.phase b :=
    fun b hb => Function.update_of_ne hb _ _
  have hself : (s.settled S.cfg k ref o c).phase c = o.phase := Function.update_self _ _ _
  have hbegun : ∀ b, Begun (ls ++ [.settle c]) (s.settled S.cfg k ref o c) b → Begun ls s b := by
    intro b hb
    refine begun_of_snoc (by simp) hb (fun ref' href' => ?_)
    by_cases hbc : b = c
    · rw [hbc, hself] at href'
      exact absurd href' (not_owns_outcome o ref')
    · rw [hphase b hbc] at href'
      exact .inl ⟨ref', href'⟩
  refine ⟨fun k' ref' hk' hready => ?_, fun k' ref' hk' => h.known k' ref' (hentries ▸ hk'), fun b hb => ?_,
    fun b k' hb hbeg => ?_, fun b b' k' hb hb' hbeg hbeg' => ?_⟩
  · rw [hentries] at hk'
    by_cases href : ref' = ref
    · obtain ⟨m, hm⟩ := Option.ne_none_iff_exists'.mp hresp
      rw [href, settled_heap_self, complete_of_response hm]
      exact hT
    · rw [settled_heap_of_ne _ _ _ _ href] at hready ⊢
      exact h.fresh k' ref' hk' hready
  · by_cases hbc : b = c
    · rw [hbc, hself]
      cases o <;> simp [Outcome.phase]
    · rw [hphase b hbc]
      exact h.throughTable b hb
  · rw [hentries]
    exact h.claimed b k' hb (hbegun b hbeg)
  · exact h.once b b' k' hb hb' (hbegun b hbeg) (hbegun b' hbeg')

/-- **Step lemma.** -/
theorem window_step (hroomy : Roomy S) (hhist : History S ls s) (h : Window S T ls s)
    (hstep : step S s l = some s') (hclock : s.clock < T) (hT : T ≤ s.clock + S.cfg.ttl)
    (hresponsive : Responsive S ls) : Window S T (ls ++ [l]) s' := by
  cases stepResult hstep with
  | tick _ =>
    refine h.of_same rfl rfl h.throughTable (fun b _ hb => begun_of_snoc (by simp) hb ?_)
    exact fun ref href => .inl ⟨ref, href⟩
  | move hm => exact window_move h hm
  | @lock c k now _ hc hkey hs =>
    have hnow : now < T := lt_of_le_of_lt (hhist.inv.sampled c now hc) hclock
    cases hs with
    | blocked thin _ _ => exact window_locked h hnow thin (fun _ h => h) (by simp)
    | hit thin _ _ _ => exact window_locked h hnow thin (fun _ h => h) (by simp)
    | bypass thin hk full =>
      have hroom := hroomy.not_full (fun k ref hk => h.known k ref (thin.sub k ref hk)) hkey hk
      exact absurd full (not_le.mpr hroom)
    | claim thin hk _ => exact window_claim hhist.inv h hkey hnow thin hk
  | @settle c k ref o hc hkey =>
    rw [(settle_eq hhist.inv hc hkey).2]
    have hresp := hresponsive c o (hhist.finished c ref o hc) (by simp [hkey])
    exact window_settled h hresp hT

end Steps

theorem Responsive.of_snoc (h : Responsive S (ls ++ [l])) : Responsive S ls :=
  fun c o hmem => h c o (List.mem_append_left _ hmem)

/-- **Run lemma.** -/
theorem window_run {t : Int} (hroomy : Roomy S) (hrun : run (step S) (init t) ls = some s)
    (hclock : s.clock < t + S.cfg.ttl) (hresponsive : Responsive S ls) :
    Window S (t + S.cfg.ttl) ls s := by
  induction ls using List.reverseRecOn generalizing s with
  | nil =>
    rw [run_nil, Option.some.injEq] at hrun
    exact hrun ▸ window_init S t _
  | append_singleton ls l ih =>
    obtain ⟨s₁, hrun₁, hstep⟩ := run_snoc_some.mp hrun
    have hclock₁ : s₁.clock < t + S.cfg.ttl := lt_of_le_of_lt (clock_step hstep) hclock
    have hstart : t ≤ s₁.clock := clock_run hrun₁
    exact window_step hroomy (history_run hrun₁) (ih hrun₁ hclock₁ hresponsive.of_snoc) hstep hclock₁
      (by omega) hresponsive.of_snoc

/-- **One run for each key** within the lifetime of an entry, in a table with room and with handlers that
answer. -/
theorem started_once {t : Int} (hroomy : Roomy S) (hrun : run (step S) (init t) ls = some s)
    (hclock : s.clock < t + S.cfg.ttl) (hresponsive : Responsive S ls) {a b : CallId} (ha : S.key a = some k)
    (hb : S.key b = some k) (hstart : Label.start a ∈ ls) (hstart' : Label.start b ∈ ls) : a = b :=
  (window_run hroomy hrun hclock hresponsive).once a b k ha hb (.inr hstart) (.inr hstart')

end NextendoMatchmaking.Dedup
