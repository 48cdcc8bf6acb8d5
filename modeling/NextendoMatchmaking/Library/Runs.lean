import Mathlib.Data.List.Induction

/-!
# Runs of guarded transition systems

A system is a partial step function `step : σ → ι → Option σ`: the label says which party moves and what
it reads from outside (a clock, a network, a scheduler), and `none` says that the move is not enabled.
Every interleaving is then a list of labels, and what holds of all lists holds of all interleavings.

* `run` — the state after a list of labels, if every step was enabled;
* `Reachable` — the states some run ends in;
* `Steps` — every step of a run meets a condition on the state before it;
* `run_history_of_steps` — along such a run, a property of the state and of the labels that led to it, with
  `run_history`, `run_invariant_of_steps` and `run_invariant` for the cases without a condition or a history;
* `run_invariant_of_labels` — the same for a condition on the labels alone;
* `since_iff` — what is gained and lost along a run holds at its end just if it was gained and not lost since;
* `countP_add_measure_le` — labels that lower a measure, which no label raises, occur only so often;
* `Interleaves` — two sequences in one, each in its order.
-/

namespace NextendoMatchmaking.Runs

variable {σ ι : Type*} {step : σ → ι → Option σ}

/-- The state after the labels `ls`, if each step was enabled. -/
def run (step : σ → ι → Option σ) : σ → List ι → Option σ
  | s, [] => some s
  | s, l :: ls => (step s l).bind (fun s' => run step s' ls)

@[simp] theorem run_nil (s : σ) : run step s [] = some s := rfl

theorem run_cons (s : σ) (l : ι) (ls : List ι) :
    run step s (l :: ls) = (step s l).bind (fun s' => run step s' ls) := rfl

theorem run_cons_some {s t : σ} {l : ι} {ls : List ι} :
    run step s (l :: ls) = some t ↔ ∃ s', step s l = some s' ∧ run step s' ls = some t := by
  rw [run_cons, Option.bind_eq_some_iff]

theorem run_append (s : σ) (ls ls' : List ι) :
    run step s (ls ++ ls') = (run step s ls).bind (fun s' => run step s' ls') := by
  induction ls generalizing s with
  | nil => rfl
  | cons l ls ih =>
    show (step s l).bind (fun s' => run step s' (ls ++ ls')) = _
    simp only [ih, run_cons, Option.bind_assoc]

theorem run_append_some {s t : σ} {ls ls' : List ι} :
    run step s (ls ++ ls') = some t ↔ ∃ s', run step s ls = some s' ∧ run step s' ls' = some t := by
  rw [run_append, Option.bind_eq_some_iff]

theorem run_snoc_some {s t : σ} {ls : List ι} {l : ι} :
    run step s (ls ++ [l]) = some t ↔ ∃ s', run step s ls = some s' ∧ step s' l = some t := by
  rw [run_append_some]
  constructor
  · intro hex
    obtain ⟨s', hs', h⟩ := hex
    obtain ⟨t', ht', hrun⟩ := run_cons_some.mp h
    rw [run_nil, Option.some.injEq] at hrun
    exact ⟨s', hs', hrun ▸ ht'⟩
  · intro hex
    obtain ⟨s', hs', h⟩ := hex
    exact ⟨s', hs', run_cons_some.mpr ⟨t, h, rfl⟩⟩

/-- The states that some run from `s₀` ends in. -/
def Reachable (step : σ → ι → Option σ) (s₀ s : σ) : Prop := ∃ ls, run step s₀ ls = some s

theorem reachable_step {s₀ s s' : σ} {l : ι} (h : Reachable step s₀ s) (hl : step s l = some s') :
    Reachable step s₀ s' := by
  obtain ⟨ls, hls⟩ := h
  exact ⟨ls ++ [l], run_snoc_some.mpr ⟨s, hls, hl⟩⟩

/-! ### Runs whose steps all meet a condition -/

/-- Every step of the run meets `C`, a condition on the state before it and on its label. -/
def Steps (step : σ → ι → Option σ) (C : σ → ι → Prop) : σ → List ι → Prop
  | _, [] => True
  | s, l :: ls => C s l ∧ ∀ s', step s l = some s' → Steps step C s' ls

instance decidableSteps (C : σ → ι → Prop) [∀ s l, Decidable (C s l)] :
    ∀ s ls, Decidable (Steps step C s ls)
  | _, [] => isTrue trivial
  | s, l :: ls =>
    match h : step s l with
    | none => decidable_of_iff (C s l) ⟨fun hC => ⟨hC, fun _ hs' => nomatch h.symm.trans hs'⟩, And.left⟩
    | some s' =>
      have := decidableSteps C s' ls
      decidable_of_iff (C s l ∧ Steps step C s' ls)
        ⟨fun hC => ⟨hC.1, fun _ hs'' => Option.some.inj (h.symm.trans hs'') ▸ hC.2⟩,
          fun hC => ⟨hC.1, hC.2 s' h⟩⟩

theorem steps_append {C : σ → ι → Prop} {s t : σ} {ls ls' : List ι}
    (h : Steps step C s (ls ++ ls')) (hrun : run step s ls = some t) :
    Steps step C s ls ∧ Steps step C t ls' := by
  induction ls generalizing s with
  | nil =>
    rw [run_nil, Option.some.injEq] at hrun
    exact ⟨trivial, hrun ▸ h⟩
  | cons l ls ih =>
    obtain ⟨s', hs', hrest⟩ := run_cons_some.mp hrun
    obtain ⟨hC, htail⟩ := h
    have hi := ih (htail s' hs') hrest
    refine ⟨⟨hC, fun s'' hs'' => ?_⟩, hi.2⟩
    rw [hs', Option.some.injEq] at hs''
    exact hs'' ▸ hi.1

/-- The condition may be asked split by split. -/
theorem steps_of_splits {C : σ → ι → Prop} {s : σ} {ls : List ι}
    (h : ∀ ls₁ l ls₂ s', ls = ls₁ ++ l :: ls₂ → run step s ls₁ = some s' → C s' l) :
    Steps step C s ls := by
  induction ls generalizing s with
  | nil => trivial
  | cons l ls ih =>
    refine ⟨h [] l ls s rfl rfl, fun s' hs' => ih ?_⟩
    intro ls₁ l' ls₂ s'' heq hrun
    exact h (l :: ls₁) l' ls₂ s'' (congrArg (l :: ·) heq) (run_cons_some.mpr ⟨s', hs', hrun⟩)

/-- Two conditions are one. -/
theorem steps_and {C D : σ → ι → Prop} {s : σ} {ls : List ι} (hC : Steps step C s ls) (hD : Steps step D s ls) :
    Steps step (fun s l => C s l ∧ D s l) s ls := by
  induction ls generalizing s with
  | nil => trivial
  | cons l ls ih => exact ⟨⟨hC.1, hD.1⟩, fun s' hs' => ih (hC.2 s' hs') (hD.2 s' hs')⟩

/-- A condition on the labels alone may be asked of the list. -/
theorem steps_and_forall {C : σ → ι → Prop} {D : ι → Prop} {s : σ} {ls : List ι} (h : Steps step C s ls)
    (hD : ∀ l ∈ ls, D l) : Steps step (fun s l => C s l ∧ D l) s ls := by
  induction ls generalizing s with
  | nil => trivial
  | cons l ls ih =>
    refine ⟨⟨h.1, hD l List.mem_cons_self⟩, fun s' hs' => ?_⟩
    exact ih (h.2 s' hs') (fun l' hl' => hD l' (List.mem_cons_of_mem _ hl'))

/-! ### Invariants -/

/-- **Run rule under a condition, with a history.**  Only the steps that meet `C` have to keep the property, which
may mention the labels of the run so far. -/
theorem run_history_of_steps {C : σ → ι → Prop} {P : List ι → σ → Prop} {s₀ : σ} (h₀ : P [] s₀)
    (hstep : ∀ ls s l s', C s l → P ls s → step s l = some s' → P (ls ++ [l]) s')
    {ls : List ι} {s : σ} (hC : Steps step C s₀ ls) (h : run step s₀ ls = some s) : P ls s := by
  induction ls using List.reverseRecOn generalizing s with
  | nil =>
    rw [run_nil, Option.some.injEq] at h
    exact h ▸ h₀
  | append_singleton ls l ih =>
    obtain ⟨s', hs', hl⟩ := run_snoc_some.mp h
    obtain ⟨hC₁, hC₂⟩ := steps_append hC hs'
    exact hstep ls s' l s hC₂.1 (ih hC₁ hs') hl

/-- **Run rule with a history.** -/
theorem run_history {P : List ι → σ → Prop} {s₀ : σ} (h₀ : P [] s₀)
    (hstep : ∀ ls s l s', P ls s → step s l = some s' → P (ls ++ [l]) s')
    {ls : List ι} {s : σ} (h : run step s₀ ls = some s) : P ls s :=
  run_history_of_steps (C := fun _ _ => True) h₀ (fun ls s l s' _ => hstep ls s l s')
    (steps_of_splits fun _ _ _ _ _ _ => trivial) h

/-- **Run rule under a condition.** -/
theorem run_invariant_of_steps {C : σ → ι → Prop} {P : σ → Prop}
    (hstep : ∀ s l s', C s l → P s → step s l = some s' → P s')
    {s t : σ} {ls : List ι} (hC : Steps step C s ls) (hs : P s) (h : run step s ls = some t) : P t :=
  run_history_of_steps (P := fun _ => P) hs (fun _ => hstep) hC h

/-- **Run rule.**  A property kept by every step holds at the end of every run that starts in it. -/
theorem run_invariant {P : σ → Prop} (hstep : ∀ s l s', P s → step s l = some s' → P s')
    {s t : σ} {ls : List ι} (hs : P s) (h : run step s ls = some t) : P t :=
  run_history (P := fun _ => P) hs (fun _ => hstep) h

theorem reachable_invariant {P : σ → Prop} (hstep : ∀ s l s', P s → step s l = some s' → P s')
    {s₀ s : σ} (h₀ : P s₀) (h : Reachable step s₀ s) : P s := by
  obtain ⟨ls, hls⟩ := h
  exact run_invariant hstep h₀ hls

/-- **Run rule under a condition on the labels.**  Only the steps whose labels meet `D` have to keep the
property, and what each of them says of its label holds of all labels of the run. -/
theorem run_invariant_of_labels {D E : ι → Prop} {P : σ → Prop}
    (hstep : ∀ s l s', D l → P s → step s l = some s' → P s' ∧ E l)
    {s t : σ} {ls : List ι} (hD : ∀ l ∈ ls, D l) (hs : P s) (h : run step s ls = some t) :
    P t ∧ ∀ l ∈ ls, E l := by
  induction ls generalizing s with
  | nil =>
    rw [run_nil, Option.some.injEq] at h
    exact ⟨h ▸ hs, fun _ hl => absurd hl List.not_mem_nil⟩
  | cons l ls ih =>
    obtain ⟨s', hs', hrun⟩ := run_cons_some.mp h
    obtain ⟨hP, hE⟩ := hstep s l s' (hD l List.mem_cons_self) hs hs'
    obtain ⟨hPt, hEs⟩ := ih (fun l' hl' => hD l' (List.mem_cons_of_mem _ hl')) hP hrun
    exact ⟨hPt, List.forall_mem_cons.mpr ⟨hE, hEs⟩⟩

/-! ### Gains and losses -/

theorem steps_concat {C : σ → ι → Prop} {s t : σ} {ls ls' : List ι} (h : Steps step C s ls)
    (hrun : run step s ls = some t) (h' : Steps step C t ls') : Steps step C s (ls ++ ls') := by
  induction ls generalizing s with
  | nil =>
    rw [run_nil, Option.some.injEq] at hrun
    exact hrun ▸ h'
  | cons l ls ih =>
    obtain ⟨s', hs', hrest⟩ := run_cons_some.mp hrun
    refine ⟨h.1, fun s'' hs'' => ih (h.2 s'' hs'') ?_⟩
    rw [Option.some.inj (hs''.symm.trans hs')]
    exact hrest

/-- **Rule for gains and losses.**  A property that does not hold at the start, that only a gain `G` can bring
and that a loss `L` takes away, holds at the end just if there was a gain and no loss since. -/
theorem since_iff {C G L : σ → ι → Prop} {P : σ → Prop}
    (hgain : ∀ s l s', C s l → ¬ P s → step s l = some s' → P s' → G s l)
    (hkeep : ∀ s l s', C s l → P s → step s l = some s' → (P s' ↔ ¬ L s l))
    {s₀ t : σ} {ls : List ι} (hC : Steps step C s₀ ls) (h₀ : ¬ P s₀) (h : run step s₀ ls = some t) :
    P t ↔ ∃ before l after s₁ s₂, ls = before ++ l :: after ∧ run step s₀ before = some s₁ ∧
      step s₁ l = some s₂ ∧ G s₁ l ∧ P s₂ ∧ Steps step (fun s l => ¬ L s l) s₂ after := by
  constructor
  · intro ht
    induction ls using List.reverseRecOn generalizing t with
    | nil =>
      rw [run_nil, Option.some.injEq] at h
      exact absurd (h ▸ ht) h₀
    | append_singleton ls l ih =>
      obtain ⟨s, hs, hl⟩ := run_snoc_some.mp h
      obtain ⟨hbefore, hlast⟩ := steps_append hC hs
      by_cases hP : P s
      · obtain ⟨before, l', after, s₁, s₂, rfl, hs₁, hs₂, hg, hP₂, hafter⟩ := ih hbefore hs hP
        obtain ⟨s₁', hs₁', hrest⟩ := run_append_some.mp hs
        obtain rfl := Option.some.inj (hs₁'.symm.trans hs₁)
        obtain ⟨s₂', hs₂', hrun⟩ := run_cons_some.mp hrest
        obtain rfl := Option.some.inj (hs₂'.symm.trans hs₂)
        have hkept := (hkeep s l t hlast.1 hP hl).mp ht
        exact ⟨before, l', after ++ [l], s₁', s₂', by rw [List.append_assoc]; rfl, hs₁, hs₂, hg, hP₂,
          steps_concat hafter hrun ⟨hkept, fun _ _ => trivial⟩⟩
      · exact ⟨ls, l, [], s, t, rfl, hs, hl, hgain s l t hlast.1 hP hl ht, ht, trivial⟩
  · rintro ⟨before, l, after, s₁, s₂, rfl, hs₁, hs₂, -, hP₂, hafter⟩
    obtain ⟨s₁', hs₁', hrest⟩ := run_append_some.mp h
    obtain rfl := Option.some.inj (hs₁'.symm.trans hs₁)
    obtain ⟨s₂', hs₂', hrun⟩ := run_cons_some.mp hrest
    obtain rfl := Option.some.inj (hs₂'.symm.trans hs₂)
    have hCafter := (steps_append hC hs₁).2.2 s₂' hs₂
    exact run_invariant_of_steps (fun s l s' hboth hP hstep => (hkeep s l s' hboth.1 hP hstep).mpr hboth.2)
      (steps_and hCafter hafter) hP₂ hrun

/-! ### Bounded labels -/

/-- **Measure rule.**  Each step with a label of the kind `p` lowers the measure, and no step raises it. -/
theorem countP_add_measure_le {μ : σ → ℕ} {p : ι → Bool}
    (hdown : ∀ s l s', step s l = some s' → (p l).toNat + μ s' ≤ μ s)
    {s t : σ} {ls : List ι} (h : run step s ls = some t) : ls.countP p + μ t ≤ μ s := by
  induction ls generalizing s with
  | nil =>
    rw [run_nil, Option.some.injEq] at h
    subst h
    exact Nat.le_of_eq (Nat.zero_add _)
  | cons l ls ih =>
    obtain ⟨s', hs', hrun⟩ := run_cons_some.mp h
    have hrest := ih hrun
    have hfirst := hdown s l s' hs'
    have hcount : (l :: ls).countP p = ls.countP p + (p l).toNat := by
      rw [List.countP_cons]
      cases p l <;> rfl
    omega

/-- The same for one label. -/
theorem count_add_measure_le [DecidableEq ι] {μ : σ → ℕ} {a : ι}
    (hdown : ∀ s s', step s a = some s' → μ s' < μ s)
    (hkeep : ∀ s l s', l ≠ a → step s l = some s' → μ s' ≤ μ s)
    {s t : σ} {ls : List ι} (h : run step s ls = some t) : ls.count a + μ t ≤ μ s := by
  refine countP_add_measure_le (fun s l s' hstep => ?_) h
  by_cases hl : l = a
  · subst hl
    have hlt := hdown s s' hstep
    rw [beq_self_eq_true, Bool.toNat_true]
    omega
  · have hle := hkeep s l s' hl hstep
    rw [beq_false_of_ne hl, Bool.toNat_false]
    omega

/-! ### Interleavings -/

/-- The third list has the entries of the first two, each in its order. -/
inductive Interleaves {α : Type*} : List α → List α → List α → Prop
  | nil : Interleaves [] [] []
  | left {xs ys zs : List α} (x : α) : Interleaves xs ys zs → Interleaves (x :: xs) ys (x :: zs)
  | right {xs ys zs : List α} (y : α) : Interleaves xs ys zs → Interleaves xs (y :: ys) (y :: zs)

namespace Interleaves

variable {α : Type*} {xs ys zs xs' ys' zs' : List α}

theorem append (h : Interleaves xs ys zs) (h' : Interleaves xs' ys' zs') :
    Interleaves (xs ++ xs') (ys ++ ys') (zs ++ zs') := by
  induction h with
  | nil => exact h'
  | left x _ ih => exact .left x ih
  | right y _ ih => exact .right y ih

theorem only (xs : List α) : Interleaves xs [] xs := by
  induction xs with
  | nil => exact .nil
  | cons x _ ih => exact .left x ih

theorem forall_mem {P : α → Prop} (h : Interleaves xs ys zs) (hxs : ∀ x ∈ xs, P x) (hys : ∀ y ∈ ys, P y) :
    ∀ z ∈ zs, P z := by
  induction h with
  | nil => exact hxs
  | left x _ ih =>
    rw [List.forall_mem_cons] at hxs ⊢
    exact ⟨hxs.1, ih hxs.2 hys⟩
  | right y _ ih =>
    rw [List.forall_mem_cons] at hys ⊢
    exact ⟨hys.1, ih hxs hys.2⟩

end Interleaves

end NextendoMatchmaking.Runs
