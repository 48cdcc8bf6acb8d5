import Mathlib.Data.List.Basic

/-!
# Parsers that read back what was written

A parser is a state transformer over an input.  Some states are clean: nothing has gone wrong and a list of
tokens is left, `clean tokens`.  `Parses clean f written a` says that `f`, started on a clean state that
begins with `written`, gives `a` and leaves exactly what follows.

* `Parses.bind`, `Parses.last`, `Parses.map` — a parser that is put together from others reads the
  concatenation of what they read, so a round trip of a record is proved field by field;
* `Keeps` — a property of the state that a parser keeps, with the same rules;
* `Settles` — a parser that does not lose its input has read a part of it that no longer depends on what
  follows, so a part that is cut off makes it lose (`lost_of_cut`);
* `Echoes` — a condition that says exactly when a parser reads something back, field by field like `Parses`.
-/

namespace NextendoMatchmaking.Parsing

variable {σ τ α β γ : Type}
variable {k : α → β}

theorem bind_apply (f : StateM σ α) (g : α → StateM σ β) (s : σ) : (f >>= g) s = g (f s).1 (f s).2 := rfl

/-! ### Reading back -/

/-- From every clean state that begins with `written`, `f` gives `a` and leaves the rest. -/
def Parses (clean : List τ → σ) (f : StateM σ α) (written : List τ) (a : α) : Prop :=
  ∀ suffix, f (clean (written ++ suffix)) = (a, clean suffix)

variable {clean : List τ → σ} {f : StateM σ α} {g : α → StateM σ β} {w w' : List τ} {a : α} {b : β}

theorem parses_pure (a : α) : Parses clean (pure a) [] a := by
  intro suffix
  rfl

theorem Parses.bind (hf : Parses clean f w a) (hg : Parses clean (g a) w' b) :
    Parses clean (f >>= g) (w ++ w') b := by
  intro suffix
  rw [bind_apply, List.append_assoc, hf]
  exact hg suffix

/-- The bytes may be put together in another way. -/
theorem Parses.of_eq (h : w = w') (hf : Parses clean f w' a) : Parses clean f w a := h ▸ hf

/-- What comes after `f` reads nothing. -/
theorem Parses.bind_nil (hf : Parses clean f w a) (hg : Parses clean (g a) [] b) :
    Parses clean (f >>= g) w b := by
  have h := hf.bind hg
  rw [List.append_nil] at h
  exact h

/-- The last part of a record. -/
theorem Parses.last (hf : Parses clean f w a) : Parses clean (f >>= fun x => pure (k x)) w (k a) :=
  hf.bind_nil (parses_pure (k a))

theorem Parses.map (hf : Parses clean f w a) : Parses clean (k <$> f) w (k a) := by
  intro suffix
  show (k (f (clean (w ++ suffix))).1, (f (clean (w ++ suffix))).2) = (k a, clean suffix)
  rw [hf]

/-! ### Properties that a parser keeps -/

/-- `f` keeps `P`. -/
def Keeps (P : σ → Prop) (f : StateM σ α) : Prop := ∀ s, P s → P (f s).2

variable {P : σ → Prop}

theorem keeps_pure (a : α) : Keeps P (pure a : StateM σ α) := by
  intro s hs
  exact hs

theorem Keeps.bind (hf : Keeps P f) (hg : ∀ a, Keeps P (g a)) : Keeps P (f >>= g) := by
  intro s hs
  rw [bind_apply]
  exact hg (f s).1 (f s).2 (hf s hs)

theorem Keeps.map (hf : Keeps P f) : Keeps P (k <$> f) := by
  intro s hs
  exact hf s hs

/-! ### Inputs that go on

Some states are lost: something has gone wrong, and nothing that follows makes it good. -/

/-- On every clean input `f` is lost, or it has read a part of the input, whatever follows; a lost state
stays lost. -/
structure Settles (clean : List τ → σ) (lost : σ → Prop) (f : StateM σ α) : Prop where
  keeps : Keeps lost f
  settles : ∀ input, lost (f (clean input)).2 ∨
    ∃ a rest, ∀ more, f (clean (input ++ more)) = (a, clean (rest ++ more))

variable {lost : σ → Prop}

theorem settles_pure (a : α) : Settles clean lost (pure a : StateM σ α) where
  keeps := keeps_pure a
  settles input := .inr ⟨a, input, fun _ => rfl⟩

theorem Settles.bind (hf : Settles clean lost f) (hg : ∀ a, Settles clean lost (g a)) :
    Settles clean lost (f >>= g) where
  keeps := hf.keeps.bind fun a => (hg a).keeps
  settles input := by
    rcases hf.settles input with hlost | ⟨a, rest, hread⟩
    · exact .inl ((hg _).keeps _ hlost)
    · have hnow : f (clean input) = (a, clean rest) := by
        have h := hread []
        rw [List.append_nil, List.append_nil] at h
        exact h
      rcases (hg a).settles rest with hlost | ⟨b, rest', hread'⟩
      · refine .inl ?_
        rw [bind_apply, hnow]
        exact hlost
      · refine .inr ⟨b, rest', fun more => ?_⟩
        rw [bind_apply, hread]
        exact hread' more

theorem Settles.map (hf : Settles clean lost f) : Settles clean lost (k <$> f) :=
  hf.bind fun a => settles_pure (k a)

/-- **A part that is cut off.**  A parser that reads all of its input is lost on every shorter one. -/
theorem lost_of_cut (hclean : Function.Injective clean) (hf : Settles clean lost f) {part cut : List τ}
    (h : Parses clean f (part ++ cut) a) (hcut : cut ≠ []) : lost (f (clean part)).2 := by
  rcases hf.settles part with hlost | ⟨a', rest, hread⟩
  · exact hlost
  · have hall := h []
    rw [List.append_nil, hread] at hall
    have hrest : rest ++ cut = [] := hclean (congrArg Prod.snd hall)
    exact absurd (List.append_eq_nil_iff.mp hrest).2 hcut

/-! ### Reading something else -/

/-- From no clean state that begins with `written` does `f` give `a` without being lost. -/
def Misses (clean : List τ → σ) (lost : σ → Prop) (f : StateM σ α) (written : List τ) (a : α) : Prop :=
  ∀ suffix, lost (f (clean (written ++ suffix))).2 ∨ (f (clean (written ++ suffix))).1 ≠ a

/-- `P` says exactly whether `f` reads `written` back as `a`. -/
structure Echoes (clean : List τ → σ) (lost : σ → Prop) (f : StateM σ α) (written : List τ) (a : α)
    (P : Prop) : Prop where
  reads : P → Parses clean f written a
  misses : ¬ P → Misses clean lost f written a

variable {P Q : Prop}

/-- What is cut off does not make up for what was missed. -/
theorem Misses.of_cut (hfresh : ∀ input, ¬ lost (clean input)) (hf : Settles clean lost f)
    {part cut : List τ} (h : Misses clean lost f (part ++ cut) a) :
    lost (f (clean part)).2 ∨ (f (clean part)).1 ≠ a := by
  rcases hf.settles part with hlost | ⟨a', rest, hread⟩
  · exact .inl hlost
  · have hnow := hread []
    have hall := h []
    rw [List.append_nil] at hnow hall
    rw [hread] at hall
    rw [hnow]
    exact .inr (hall.resolve_left (hfresh _))

/-- What always comes back. -/
theorem Parses.always (hf : Parses clean f w a) : Echoes clean lost f w a True where
  reads _ := hf
  misses hnot := absurd trivial hnot

/-- A field that always comes back, and then the others. -/
theorem Parses.echoes (hf : Parses clean f w a) (hg : Echoes clean lost (g a) w' b P) :
    Echoes clean lost (f >>= g) (w ++ w') b P where
  reads hP := hf.bind (hg.reads hP)
  misses hP := by
    intro suffix
    rw [bind_apply, List.append_assoc, hf]
    exact hg.misses hP suffix

/-- A field that `field` finds in the result, and then the others. -/
theorem Echoes.bind (field : β → α) (hf : Echoes clean lost f w a P)
    (hg : Echoes clean lost (g a) w' b Q) (hkeeps : ∀ x, Keeps lost (g x))
    (hfield : ∀ x s, field (g x s).1 = x) (hb : field b = a) :
    Echoes clean lost (f >>= g) (w ++ w') b (P ∧ Q) where
  reads h := (hf.reads h.1).bind (hg.reads h.2)
  misses h := by
    by_cases hP : P
    · exact ((hf.reads hP).echoes hg).misses (fun hQ => h ⟨hP, hQ⟩)
    · intro suffix
      rw [bind_apply, List.append_assoc]
      rcases hf.misses hP (w' ++ suffix) with hlost | hne
      · exact .inl (hkeeps _ _ hlost)
      · refine .inr fun heq => hne ?_
        rw [← hfield (f (clean (w ++ (w' ++ suffix)))).1 (f (clean (w ++ (w' ++ suffix)))).2, heq, hb]

/-- The last field. -/
theorem Echoes.last (field : β → α) (hf : Echoes clean lost f w a P) (hfield : ∀ x, field (k x) = x) :
    Echoes clean lost (f >>= fun x => pure (k x)) w (k a) P where
  reads hP := (hf.reads hP).last
  misses hP := by
    intro suffix
    rcases hf.misses hP suffix with hlost | hne
    · exact .inl hlost
    · refine .inr fun heq => hne ?_
      rw [← hfield (f (clean (w ++ suffix))).1, ← hfield a]
      exact congrArg field heq

theorem Echoes.of_eq (h : w = w') (hf : Echoes clean lost f w' a P) : Echoes clean lost f w a P := h ▸ hf

/-- Bytes that `f` does not tell apart. -/
theorem Echoes.of_same (h : ∀ suffix, f (clean (w ++ suffix)) = f (clean (w' ++ suffix)))
    (hf : Echoes clean lost f w' a P) : Echoes clean lost f w a P where
  reads hP := by
    intro suffix
    rw [h]
    exact hf.reads hP suffix
  misses hP := by
    intro suffix
    rw [h]
    exact hf.misses hP suffix

/-- What was written is read to its end exactly under the condition. -/
theorem Echoes.read_iff (hfresh : ∀ input, ¬ lost (clean input)) (hf : Echoes clean lost f w a P) :
    f (clean w) = (a, clean []) ↔ P := by
  constructor
  · intro hread
    by_contra hP
    have hmiss := hf.misses hP []
    rw [List.append_nil, hread] at hmiss
    exact hmiss.elim (hfresh _) (fun hne => hne rfl)
  · intro hP
    have hread := hf.reads hP []
    rw [List.append_nil] at hread
    exact hread

theorem Echoes.of_iff (h : P ↔ Q) (hf : Echoes clean lost f w a Q) : Echoes clean lost f w a P where
  reads hP := hf.reads (h.mp hP)
  misses hP := hf.misses (fun hQ => hP (h.mpr hQ))

end NextendoMatchmaking.Parsing
