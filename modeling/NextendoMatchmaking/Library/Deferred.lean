import NextendoMatchmaking.Library.GoMap

/-!
# Stores that are written to a file later

A store lives in memory.  An operation changes it and then sets a flag; a writer looks at the flag from time to
time, takes it down, reads the store and replaces a file by what it has read.  None of this is one step:
operations go on while the writer reads, and the file may refuse to be written.

* `Design` — a store with its operations and the moves of a pass of the writer over it;
* `State`, `Event`, `step` — the store with its flag, its writer and its file; `Stepped` says what a step does;
* `Lawful` — what a design has to satisfy, single step by single step;
* `Settled`, `settled_step` — the invariant: the flag is up, or an operation is about to raise it, or all that
  the pass has read is still in the store, or the file has it all;
* `Settled.agrees` — what the file holds while the writer rests;
* `good_step` — the rule for invariants of the store alone, where passes only read (`ReadsOnly`);
* `Sweep` — a pass that reads a map key by key, at different moments.
-/

namespace NextendoMatchmaking.Deferred

/-! ### Stores with a writer -/

/-- A store of type `σ` with the operations `Op`.  A pass of the writer has read `ρ` so far and goes on by
moves of type `C`; the file decodes to `φ`. -/
structure Design (σ ρ φ Op C : Type) where
  /-- An operation: the new store, and whether the operation goes on to set the flag. -/
  apply : σ → Op → σ × Bool
  start : ρ
  /-- A move of a pass.  A pass may also tidy the store. -/
  read : σ → ρ → C → Option (σ × ρ)
  /-- The pass has come to its end. -/
  complete : σ → ρ → Bool
  output : ρ → φ
  /-- The store of a process that starts again and finds the file, with what the old store knew of the world
  around it. -/
  load : σ → φ → σ

structure State (σ ρ φ : Type) where
  store : σ
  dirty : Bool
  /-- The operations that have changed the store and not yet set the flag. -/
  unflagged : ℕ
  pass : Option ρ
  file : φ
  /-- Ghost: the last pass that came to its end could not replace the file. -/
  failed : Bool

inductive Event (Op C : Type)
  | op (e : Op)
  /-- An operation sets the flag. -/
  | flag
  /-- The writer looks at the flag. -/
  | tick
  | read (c : C)
  /-- The writer replaces the file, or fails to. -/
  | write (ok : Bool)
  | restart

variable {σ ρ φ Op C : Type} (d : Design σ ρ φ Op C)

/-- A process that has just read its file. -/
def begin (s : σ) (file : φ) : State σ ρ φ := ⟨d.load s file, false, 0, none, file, false⟩

def step (s : State σ ρ φ) : Event Op C → Option (State σ ρ φ)
  | .op e =>
    let (store, flags) := d.apply s.store e
    some { s with store, unflagged := if flags then s.unflagged + 1 else s.unflagged }
  | .flag => if s.unflagged = 0 then none else some { s with dirty := true, unflagged := s.unflagged - 1 }
  | .tick =>
    match s.pass with
    | some _ => none
    | none => if s.dirty then some { s with dirty := false, pass := some d.start } else some s
  | .read c =>
    match s.pass with
    | none => none
    | some r => (d.read s.store r c).map (fun (store, r) => { s with store, pass := some r })
  | .write ok =>
    match s.pass with
    | none => none
    | some r =>
      if d.complete s.store r then
        some { s with pass := none, file := if ok then d.output r else s.file, failed := !ok }
      else
        none
  | .restart => some (begin d s.store s.file)

/-- What a step can do. -/
inductive Stepped (s : State σ ρ φ) : Event Op C → State σ ρ φ → Prop
  | op (e : Op) : Stepped s (.op e) { s with
      store := (d.apply s.store e).1
      unflagged := if (d.apply s.store e).2 then s.unflagged + 1 else s.unflagged }
  | flag (h : s.unflagged ≠ 0) : Stepped s .flag { s with dirty := true, unflagged := s.unflagged - 1 }
  | rest (hpass : s.pass = none) (hdirty : s.dirty = false) : Stepped s .tick s
  | start (hpass : s.pass = none) (hdirty : s.dirty = true) :
      Stepped s .tick { s with dirty := false, pass := some d.start }
  | read {c r store r'} (hr : s.pass = some r) (hmove : d.read s.store r c = some (store, r')) :
      Stepped s (.read c) { s with store, pass := some r' }
  | write {r} (ok : Bool) (hr : s.pass = some r) (hcomplete : d.complete s.store r = true) :
      Stepped s (.write ok) { s with pass := none, file := if ok then d.output r else s.file, failed := !ok }
  | restart : Stepped s .restart (begin d s.store s.file)

variable {d} {s s' : State σ ρ φ}

theorem stepped {e : Event Op C} (h : step d s e = some s') : Stepped d s e s' := by
  cases e with
  | op e =>
    cases h
    exact .op e
  | flag =>
    simp only [step] at h
    split at h
    · cases h
    · rename_i hflag
      cases h
      exact .flag hflag
  | tick =>
    simp only [step] at h
    split at h
    · cases h
    · rename_i hpass
      split at h
      · rename_i hdirty
        cases h
        exact .start hpass hdirty
      · rename_i hdirty
        cases h
        exact .rest hpass (Bool.eq_false_of_not_eq_true hdirty)
  | read c =>
    simp only [step] at h
    split at h
    · cases h
    · rename_i r hr
      obtain ⟨⟨store, r'⟩, hmove, rfl⟩ := Option.map_eq_some_iff.mp h
      exact .read hr hmove
  | write ok =>
    simp only [step] at h
    split at h
    · cases h
    · rename_i r hr
      split at h
      · rename_i hcomplete
        cases h
        exact .write ok hr hcomplete
      · cases h
  | restart =>
    cases h
    exact .restart

/-! ### The invariant -/

/-- What the steps of a design have to satisfy.  `Good` is an invariant of the store, `Reads s r` says that
what the pass has read is what `s` holds now, `Agrees f s` that the file holds all of `s`; `Below` bounds what
a pass may have read. -/
structure Lawful (d : Design σ ρ φ Op C) (Good : σ → Prop) (Below : ρ → Prop) (Reads : σ → ρ → Prop)
    (Agrees : φ → σ → Prop) : Prop where
  start : ∀ s, Good s → Reads s d.start
  /-- An operation that does not set the flag has changed nothing that the file or a pass holds. -/
  quiet_agrees : ∀ s e f, Good s → (d.apply s e).2 = false → Agrees f s → Agrees f (d.apply s e).1
  quiet_reads : ∀ s e r, Good s → (d.apply s e).2 = false → Reads s r → Reads (d.apply s e).1 r
  read : ∀ s r c s' r', Good s → Below r → Reads s r → d.read s r c = some (s', r') → Reads s' r'
  complete : ∀ s r, Good s → Reads s r → d.complete s r = true → Agrees (d.output r) s
  load : ∀ s f, Agrees f (d.load s f)

/-- What the writer and the file know, as long as no flag is up. -/
def Current (Reads : σ → ρ → Prop) (Agrees : φ → σ → Prop) (s : State σ ρ φ) : Prop :=
  (s.pass = none → s.failed = false → Agrees s.file s.store) ∧ ∀ r, s.pass = some r → Reads s.store r

/-- A change that the writer may not have seen is flagged, or about to be. -/
def Settled (Reads : σ → ρ → Prop) (Agrees : φ → σ → Prop) (s : State σ ρ φ) : Prop :=
  s.dirty = true ∨ 0 < s.unflagged ∨ Current Reads Agrees s

/-- No change waits for the writer, and the last pass went well. -/
structure Clean (s : State σ ρ φ) : Prop where
  dirty : s.dirty = false
  unflagged : s.unflagged = 0
  pass : s.pass = none
  failed : s.failed = false

variable {Good : σ → Prop} {Below : ρ → Prop} {Reads : σ → ρ → Prop} {Agrees : φ → σ → Prop}

theorem settled_begin (h : Lawful d Good Below Reads Agrees) (store : σ) (file : φ) :
    Settled Reads Agrees (begin d store file) :=
  .inr (.inr ⟨fun _ _ => h.load store file, nofun⟩)

/-- **What the file holds.** -/
theorem Settled.agrees (h : Settled Reads Agrees s) (hclean : Clean s) : Agrees s.file s.store := by
  rcases h with hdirty | hflag | hcurrent
  · exact absurd (hclean.dirty.symm.trans hdirty) Bool.false_ne_true
  · exact absurd hclean.unflagged (Nat.pos_iff_ne_zero.mp hflag)
  · exact hcurrent.1 hclean.pass hclean.failed

/-- Steps that leave the flag and the count alone only have to keep what is current. -/
theorem Settled.of_current (h : Settled Reads Agrees s) (hdirty : s'.dirty = s.dirty)
    (hflag : s'.unflagged = s.unflagged) (hcurrent : Current Reads Agrees s → Current Reads Agrees s') :
    Settled Reads Agrees s' := by
  rcases h with h | h | h
  · exact .inl (hdirty.trans h)
  · exact .inr (.inl (hflag ▸ h))
  · exact .inr (.inr (hcurrent h))

/-- An operation: it is about to set the flag, or it has changed nothing that counts. -/
theorem settled_op (hlaw : Lawful d Good Below Reads Agrees) (hgood : Good s.store)
    (h : Settled Reads Agrees s) (e : Op) : Settled Reads Agrees { s with
      store := (d.apply s.store e).1
      unflagged := if (d.apply s.store e).2 then s.unflagged + 1 else s.unflagged } := by
  by_cases hflags : (d.apply s.store e).2 = true
  · refine .inr (.inl ?_)
    show 0 < if (d.apply s.store e).2 then s.unflagged + 1 else s.unflagged
    rw [if_pos hflags]
    omega
  · have hquiet : (d.apply s.store e).2 = false := Bool.eq_false_of_not_eq_true hflags
    refine h.of_current rfl (if_neg hflags) fun hcurrent => ⟨fun hpass hfailed => ?_, fun r hr => ?_⟩
    · exact hlaw.quiet_agrees _ e _ hgood hquiet (hcurrent.1 hpass hfailed)
    · exact hlaw.quiet_reads _ e r hgood hquiet (hcurrent.2 r hr)

/-- **Step rule.** -/
theorem settled_step (hlaw : Lawful d Good Below Reads Agrees) (hgood : Good s.store)
    (h : Settled Reads Agrees s) {e : Event Op C} (hbelow : ∀ c, e = .read c → ∀ r, s.pass = some r → Below r)
    (hstep : step d s e = some s') : Settled Reads Agrees s' := by
  cases stepped hstep with
  | op e => exact settled_op hlaw hgood h e
  | flag _ => exact .inl rfl
  | rest _ _ => exact h
  | start _ _ =>
    refine .inr (.inr ⟨nofun, fun r hr => ?_⟩)
    cases hr
    exact hlaw.start _ hgood
  | read hr hmove =>
    refine h.of_current rfl rfl fun hcurrent => ⟨nofun, fun r' hr' => ?_⟩
    cases hr'
    exact hlaw.read _ _ _ _ _ hgood (hbelow _ rfl _ hr) (hcurrent.2 _ hr) hmove
  | write ok hr hcomplete =>
    refine h.of_current rfl rfl fun hcurrent => ⟨fun _ hfailed => ?_, nofun⟩
    -- a pass that fails to write leaves nothing to show
    cases ok with
    | false => cases hfailed
    | true => exact hlaw.complete _ _ hgood (hcurrent.2 _ hr) hcomplete
  | restart => exact settled_begin hlaw s.store s.file

/-- The passes leave the store alone. -/
def ReadsOnly (d : Design σ ρ φ Op C) : Prop := ∀ s r c s' r', d.read s r c = some (s', r') → s' = s

/-- An invariant of the store: only operations and restarts write to it. -/
theorem good_step (hread : ReadsOnly d) (hop : ∀ store e, Good store → Good (d.apply store e).1)
    (hload : ∀ store file, Good (d.load store file)) {e : Event Op C} (hgood : Good s.store)
    (hstep : step d s e = some s') : Good s'.store := by
  cases stepped hstep with
  | op e => exact hop _ e hgood
  | flag _ => exact hgood
  | rest _ _ => exact hgood
  | start _ _ => exact hgood
  | read _ hmove =>
    show Good _
    rw [hread _ _ _ _ _ hmove]
    exact hgood
  | write _ _ _ => exact hgood
  | restart => exact hload _ _

/-! ### Passes that read key by key -/

section Sweep

variable {κ ω α : Type} [DecidableEq κ]

/-- An iteration over a map that others change meanwhile: the keys that were looked at, each at a moment of its
own, and what was found. -/
structure Sweep (κ ω : Type) where
  seen : List κ
  out : GoMap κ ω

namespace Sweep

def empty : Sweep κ ω := ⟨[], ∅⟩

/-- The key `k` was looked at, with the result `v`. -/
def record (r : Sweep κ ω) (k : κ) (v : Option ω) : Sweep κ ω := ⟨k :: r.seen, v.elim r.out (r.out.insert k)⟩

/-- Every key of the map was looked at. -/
def covers {β : Type} (r : Sweep κ ω) (m : GoMap κ β) : Bool := decide (∀ k ∈ m.keys, k ∈ r.seen)

/-- What was found is what is there now, as far as `see` distinguishes it. -/
structure Shows (see : Option ω → α) (now : κ → α) (r : Sweep κ ω) : Prop where
  seen : ∀ k ∈ r.seen, see (r.out.lookup k) = now k
  unseen : ∀ k ∉ r.seen, r.out.lookup k = none

variable {see : Option ω → α} {now : κ → α} {r : Sweep κ ω}

theorem lookup_of_covers {β : Type} {m : GoMap κ β} (h : r.covers m = true) {k : κ} (hk : k ∉ r.seen) :
    m.lookup k = none := by
  have hseen : ∀ k ∈ m.keys, k ∈ r.seen := of_decide_eq_true h
  rw [Finmap.lookup_eq_none]
  exact fun hmem => hk (hseen k (Finmap.mem_keys.mpr hmem))

theorem shows_empty : Shows see now (empty : Sweep κ ω) :=
  ⟨fun _ hk => absurd hk List.not_mem_nil, fun _ _ => Finmap.lookup_empty _⟩

theorem lookup_record (r : Sweep κ ω) {k : κ} (hk : r.out.lookup k = none) (v : Option ω) (k' : κ) :
    (r.record k v).out.lookup k' = if k' = k then v else r.out.lookup k' := by
  cases v with
  | none =>
    show r.out.lookup k' = _
    split
    · rename_i heq
      rw [heq, hk]
    · rfl
  | some w => exact GoMap.lookup_insert_eq r.out k k' w

theorem Shows.record (h : Shows see now r) {k : κ} (hk : k ∉ r.seen) {v : Option ω} (hv : see v = now k) :
    Shows see now (r.record k v) := by
  refine ⟨fun k' hk' => ?_, fun k' hk' => ?_⟩
  · rw [lookup_record r (h.unseen k hk)]
    by_cases heq : k' = k
    · rw [if_pos heq, heq, hv]
    · rw [if_neg heq]
      exact h.seen k' ((List.mem_cons.mp hk').resolve_left heq)
  · have hne : k' ≠ k := fun heq => hk' (List.mem_cons.mpr (.inl heq))
    rw [lookup_record r (h.unseen k hk), if_neg hne]
    exact h.unseen k' fun hmem => hk' (List.mem_cons_of_mem _ hmem)

/-- An iteration that has looked at all that is there has found all of it. -/
theorem Shows.all (h : Shows see now r) (hrest : ∀ k ∉ r.seen, now k = see none) (k : κ) :
    see (r.out.lookup k) = now k := by
  by_cases hk : k ∈ r.seen
  · exact h.seen k hk
  · rw [h.unseen k hk, hrest k hk]

end Sweep

end Sweep

end NextendoMatchmaking.Deferred
