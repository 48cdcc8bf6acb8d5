import Mathlib.Data.Finmap

/-!
# Unordered finite maps and loops over them

A map whose iteration order is unspecified is a `Finmap`: two maps are equal when they answer the same
to every lookup.  This file adds what a program with such maps needs beyond Mathlib's `lookup`, `insert`
and `erase`:

* `len` — the number of keys, with its behaviour under insertion and removal;
* `deleteWhere` — the loop that deletes every entry satisfying a test;
* `modify` — a write through a stored pointer: the value under one key is replaced, if there is one;
* `mapValues` — every value is replaced by its image;
* `Enumerates` — an order in which a loop may visit the keys;
* `rangeUpdate` — a loop that visits the keys in a given order and replaces or deletes the entry it is
  at.  `lookup_rangeUpdate` shows that its result does not depend on the order;
* `entriesIn` — the entries as a loop meets them, from which `foldl_insert_entries` rebuilds the map;
* `keysWhere` — the keys whose values satisfy a test, with their number after a write.
-/

namespace NextendoMatchmaking

/-- A map from `κ` to `ν` with unspecified iteration order. -/
abbrev GoMap (κ ν : Type) := Finmap (fun _ : κ => ν)

namespace GoMap

variable {κ ν : Type} [DecidableEq κ]
variable {m : GoMap κ ν} {k : κ} {v : ν} {p : κ → ν → Bool} {order : List κ}

/-! ### Size -/

/-- The number of keys. -/
def len (m : GoMap κ ν) : ℕ := m.keys.card

omit [DecidableEq κ] in
@[simp] theorem len_empty : len (∅ : GoMap κ ν) = 0 := by
  simp [len]

theorem keys_insert (m : GoMap κ ν) (k : κ) (v : ν) : (m.insert k v).keys = Insert.insert k m.keys := by
  ext a
  simp [Finmap.mem_keys, Finmap.mem_insert]

theorem len_insert_of_notMem (v : ν) (h : m.lookup k = none) : len (m.insert k v) = len m + 1 := by
  rw [Finmap.lookup_eq_none, ← Finmap.mem_keys] at h
  rw [len, keys_insert, Finset.card_insert_of_notMem h, len]

theorem len_insert_of_mem {w : ν} (v : ν) (h : m.lookup k = some w) : len (m.insert k v) = len m := by
  have hk : k ∈ m.keys := Finmap.mem_keys.mpr (Finmap.mem_of_lookup_eq_some h)
  rw [len, keys_insert, Finset.insert_eq_of_mem hk, len]

theorem len_insert_le (m : GoMap κ ν) (k : κ) (v : ν) : len (m.insert k v) ≤ len m + 1 := by
  rw [len, keys_insert]
  exact Finset.card_insert_le _ _

theorem len_erase_of_mem {w : ν} (h : m.lookup k = some w) : len (m.erase k) + 1 = len m := by
  have hk : k ∈ m.keys := Finmap.mem_keys.mpr (Finmap.mem_of_lookup_eq_some h)
  rw [len, Finmap.keys_erase, Finset.card_erase_add_one hk, len]

theorem len_erase_le (m : GoMap κ ν) (k : κ) : len (m.erase k) ≤ len m := by
  rw [len, Finmap.keys_erase]
  exact Finset.card_erase_le

/-! ### Lookups after a write -/

theorem lookup_insert_eq (m : GoMap κ ν) (k k' : κ) (v : ν) :
    (m.insert k v).lookup k' = if k' = k then some v else m.lookup k' := by
  split
  · rename_i h
    subst h
    exact Finmap.lookup_insert m
  · rename_i h
    exact Finmap.lookup_insert_of_ne m h

theorem lookup_erase_eq (m : GoMap κ ν) (k k' : κ) :
    (m.erase k).lookup k' = if k' = k then none else m.lookup k' := by
  split
  · rename_i h
    subst h
    exact Finmap.lookup_erase k' m
  · rename_i h
    exact Finmap.lookup_erase_ne h

/-- A write of what is there already changes nothing. -/
theorem insert_eq_self (h : m.lookup k = some v) : m.insert k v = m := by
  apply Finmap.ext_lookup
  intro k'
  rw [lookup_insert_eq]
  split
  · rename_i hk
    rw [hk, h]
  · rfl

theorem erase_eq_self (h : m.lookup k = none) : m.erase k = m := by
  apply Finmap.ext_lookup
  intro k'
  rw [lookup_erase_eq]
  split
  · rename_i hk
    rw [hk, h]
  · rfl

theorem lookup_foldl_erase (ks : List κ) (m : GoMap κ ν) (k : κ) :
    (ks.foldl (fun m k => m.erase k) m).lookup k = if k ∈ ks then none else m.lookup k := by
  induction ks generalizing m with
  | nil => rfl
  | cons k₀ ks ih =>
    rw [List.foldl_cons, ih, lookup_erase_eq]
    by_cases hk : k = k₀
    · simp [hk]
    · simp [hk]

/-! ### Deleting the entries that satisfy a test -/

/-- Delete every entry `(k, v)` with `p k v`. -/
def deleteWhere (p : κ → ν → Bool) (m : GoMap κ ν) : GoMap κ ν where
  entries := m.entries.filter (fun e => p e.1 e.2 = false)
  nodupKeys := by
    rw [← Multiset.nodup_keys]
    exact Multiset.nodup_of_le (Multiset.map_le_map (Multiset.filter_le _ _))
      (Multiset.nodup_keys.mpr m.nodupKeys)

theorem lookup_deleteWhere (p : κ → ν → Bool) (m : GoMap κ ν) (k : κ) :
    (deleteWhere p m).lookup k = (m.lookup k).filter (fun v => !p k v) := by
  ext v
  rw [Finmap.lookup_eq_some_iff, Option.filter_eq_some_iff, Finmap.lookup_eq_some_iff]
  simp [deleteWhere]

theorem lookup_deleteWhere_some (h : (deleteWhere p m).lookup k = some v) : m.lookup k = some v ∧ p k v = false := by
  rw [lookup_deleteWhere, Option.filter_eq_some_iff] at h
  exact ⟨h.1, by simpa using h.2⟩

theorem lookup_deleteWhere_kept (h : m.lookup k = some v) (hp : p k v = false) :
    (deleteWhere p m).lookup k = some v := by
  rw [lookup_deleteWhere, h, Option.filter_some, hp]
  rfl

theorem deleteWhere_eq_self (h : ∀ k v, m.lookup k = some v → p k v = false) : deleteWhere p m = m := by
  apply Finmap.ext_lookup
  intro k
  cases hv : m.lookup k with
  | none => rw [lookup_deleteWhere, hv, Option.filter_none]
  | some v => exact lookup_deleteWhere_kept hv (h k v hv)

theorem keys_deleteWhere_subset (p : κ → ν → Bool) (m : GoMap κ ν) : (deleteWhere p m).keys ⊆ m.keys := by
  intro k hk
  rw [Finmap.mem_keys, ← Finmap.lookup_isSome, Option.isSome_iff_exists] at hk ⊢
  obtain ⟨v, hv⟩ := hk
  exact ⟨v, (lookup_deleteWhere_some hv).1⟩

theorem len_deleteWhere_le (p : κ → ν → Bool) (m : GoMap κ ν) : len (deleteWhere p m) ≤ len m :=
  Finset.card_le_card (keys_deleteWhere_subset p m)

/-! ### Writing through a stored pointer -/

/-- Replace the value under `k` by its image, if `k` is present. -/
def modify (k : κ) (f : ν → ν) (m : GoMap κ ν) : GoMap κ ν :=
  match m.lookup k with
  | some v => m.insert k (f v)
  | none => m

/-! ### Replacing every value -/

/-- Replace every value by its image. -/
def mapValues {ν' : Type} (f : ν → ν') (m : GoMap κ ν) : GoMap κ ν' where
  entries := m.entries.map (fun e => ⟨e.1, f e.2⟩)
  nodupKeys := by
    rw [← Multiset.nodup_keys]
    have hkeys : (m.entries.map (fun e => (⟨e.1, f e.2⟩ : Sigma (fun _ : κ => ν')))).keys =
        m.entries.keys := by
      simp [Multiset.keys]
    rw [hkeys]
    exact Multiset.nodup_keys.mpr m.nodupKeys

theorem lookup_mapValues {ν' : Type} (f : ν → ν') (m : GoMap κ ν) (k : κ) :
    (mapValues f m).lookup k = (m.lookup k).map f := by
  ext v
  rw [Finmap.lookup_eq_some_iff, Option.map_eq_some_iff]
  constructor
  · intro hv
    obtain ⟨⟨k', v'⟩, hmem, heq⟩ := Multiset.mem_map.mp hv
    cases heq
    exact ⟨v', Finmap.lookup_eq_some_iff.mpr hmem, rfl⟩
  · intro hv
    obtain ⟨v', hv', rfl⟩ := hv
    exact Multiset.mem_map.mpr ⟨⟨k, v'⟩, Finmap.lookup_eq_some_iff.mp hv', rfl⟩

/-! ### Loops over the keys -/

/-- `order` lists every key of `m` once: an order in which a loop over `m` may visit it. -/
def Enumerates (order : List κ) (m : GoMap κ ν) : Prop :=
  order.Nodup ∧ ∀ k, k ∈ order ↔ k ∈ m

instance (order : List κ) (m : GoMap κ ν) : Decidable (Enumerates order m) :=
  decidable_of_iff (order.Nodup ∧ order.toFinset = m.keys) <| by
    simp [Enumerates, Finset.ext_iff, Finmap.mem_keys]

omit [DecidableEq κ] in
theorem exists_enumerates (m : GoMap κ ν) : ∃ order, Enumerates order m :=
  ⟨m.keys.toList, m.keys.nodup_toList, fun k => by rw [Finset.mem_toList, Finmap.mem_keys]⟩

omit [DecidableEq κ] in
theorem Enumerates.of_perm {order' : List κ} (h : Enumerates order m) (hperm : order.Perm order') :
    Enumerates order' m :=
  ⟨hperm.nodup h.1, fun k => hperm.mem_iff.symm.trans (h.2 k)⟩

/-- The body of such a loop at `k`: the entry is replaced by `f` or, when `f` answers `none`, deleted. -/
def updateAt (f : κ → ν → Option ν) (k : κ) (m : GoMap κ ν) : GoMap κ ν :=
  match m.lookup k with
  | none => m
  | some v =>
    match f k v with
    | none => m.erase k
    | some v' => m.insert k v'

theorem lookup_updateAt (f : κ → ν → Option ν) (k k' : κ) (m : GoMap κ ν) :
    (updateAt f k m).lookup k' = if k' = k then (m.lookup k').bind (f k') else m.lookup k' := by
  unfold updateAt
  by_cases h : k' = k
  · subst h
    rw [if_pos rfl]
    split
    · rename_i hv
      rw [hv, Option.bind_none]
    · rename_i v hv
      rw [hv, Option.bind_some]
      split
      · rename_i hf
        rw [hf, Finmap.lookup_erase]
      · rename_i v' hf
        rw [hf, Finmap.lookup_insert]
  · rw [if_neg h]
    split
    · rfl
    · split
      · exact Finmap.lookup_erase_ne h
      · exact Finmap.lookup_insert_of_ne m h

/-- Visit the keys of `order` and update the entry at each; keys that are not in the map are skipped. -/
def rangeUpdate (f : κ → ν → Option ν) (order : List κ) (m : GoMap κ ν) : GoMap κ ν :=
  order.foldl (fun m k => updateAt f k m) m

theorem lookup_rangeUpdate_of_nodup (f : κ → ν → Option ν) (order : List κ) (h : order.Nodup) :
    ∀ (m : GoMap κ ν) (k : κ),
      (rangeUpdate f order m).lookup k = if k ∈ order then (m.lookup k).bind (f k) else m.lookup k := by
  induction order with
  | nil => intro m k; simp [rangeUpdate]
  | cons k₀ ks ih =>
    intro m k
    obtain ⟨hk₀, hks⟩ := List.nodup_cons.mp h
    show (rangeUpdate f ks (updateAt f k₀ m)).lookup k = _
    rw [ih hks, lookup_updateAt]
    by_cases hk : k = k₀
    · subst hk
      simp [hk₀]
    · simp [hk]

/-- **The order of the loop does not matter**: whatever order lists the keys, each entry is updated
once. -/
theorem lookup_rangeUpdate {f : κ → ν → Option ν} (h : Enumerates order m) (k : κ) :
    (rangeUpdate f order m).lookup k = (m.lookup k).bind (f k) := by
  rw [lookup_rangeUpdate_of_nodup f order h.1]
  split
  · rfl
  · rename_i hk
    rw [h.2 k, ← Finmap.lookup_eq_none] at hk
    rw [hk, Option.bind_none]

/-- The entries in the order in which a loop visits them. -/
def entriesIn (order : List κ) (m : GoMap κ ν) : List (κ × ν) :=
  order.filterMap (fun k => (m.lookup k).map (fun v => (k, v)))

theorem mem_entriesIn : (k, v) ∈ entriesIn order m ↔ k ∈ order ∧ m.lookup k = some v := by
  unfold entriesIn
  rw [List.mem_filterMap]
  constructor
  · intro h
    obtain ⟨k', hk', hv⟩ := h
    obtain ⟨v', hv', heq⟩ := Option.map_eq_some_iff.mp hv
    cases heq
    exact ⟨hk', hv'⟩
  · intro h
    exact ⟨k, h.1, by rw [h.2]; rfl⟩

theorem len_eq_length (h : Enumerates order m) : len m = order.length := by
  have hkeys : m.keys = order.toFinset := by
    ext k
    rw [Finmap.mem_keys, List.mem_toFinset]
    exact (h.2 k).symm
  rw [len, hkeys, List.toFinset_card_of_nodup h.1]

theorem length_entriesIn (h : Enumerates order m) : (entriesIn order m).length = len m := by
  have hall : ∀ (ks : List κ), (∀ k ∈ ks, k ∈ m) → (entriesIn ks m).length = ks.length := by
    intro ks
    induction ks with
    | nil =>
      intro _
      rfl
    | cons k ks ih =>
      intro hks
      obtain ⟨v, hv⟩ := Option.isSome_iff_exists.mp (Finmap.lookup_isSome.mpr (hks k List.mem_cons_self))
      have hcons : entriesIn (k :: ks) m = (k, v) :: entriesIn ks m :=
        List.filterMap_cons_some (by rw [hv]; rfl)
      rw [hcons, List.length_cons, List.length_cons, ih (fun k' hk' => hks k' (List.mem_cons_of_mem _ hk'))]
  rw [hall order (fun k hk => (h.2 k).mp hk), len_eq_length h]

/-- Inserting entries of `m` one after the other gives nothing but entries of `m`. -/
theorem lookup_foldl_insert (pairs : List (κ × ν)) (m₀ : GoMap κ ν) (h : ∀ p ∈ pairs, m.lookup p.1 = some p.2) (k : κ) :
    (pairs.foldl (fun m p => m.insert p.1 p.2) m₀).lookup k =
      if k ∈ pairs.map Prod.fst then m.lookup k else m₀.lookup k := by
  induction pairs generalizing m₀ with
  | nil => rfl
  | cons p pairs ih =>
    rw [List.foldl_cons, ih _ (fun q hq => h q (List.mem_cons_of_mem _ hq)), lookup_insert_eq]
    by_cases hk : k = p.1
    · subst hk
      simp [h p List.mem_cons_self]
    · rw [if_neg hk]
      simp only [List.map_cons, List.mem_cons, hk, false_or]

/-- A map is rebuilt from its entries. -/
theorem foldl_insert_entries {pairs : List (κ × ν)} (h : ∀ k v, (k, v) ∈ pairs ↔ m.lookup k = some v) :
    pairs.foldl (fun m p => m.insert p.1 p.2) ∅ = m := by
  apply Finmap.ext_lookup
  intro k
  rw [lookup_foldl_insert (m := m) pairs ∅ (fun p hp => (h p.1 p.2).mp hp)]
  split
  · rfl
  · rename_i hk
    cases hv : m.lookup k with
    | none => rfl
    | some v => exact absurd (List.mem_map.mpr ⟨(k, v), (h k v).mpr hv, rfl⟩) hk

theorem keys_foldl_insert (pairs : List (κ × ν)) (m₀ : GoMap κ ν) :
    (pairs.foldl (fun m p => m.insert p.1 p.2) m₀).keys = (pairs.map Prod.fst).toFinset ∪ m₀.keys := by
  induction pairs generalizing m₀ with
  | nil => simp
  | cons p pairs ih =>
    rw [List.foldl_cons, ih, keys_insert]
    ext k
    simp

theorem lookup_foldl_insert_of_notMem (pairs : List (κ × ν)) (m₀ : GoMap κ ν) (h : k ∉ pairs.map Prod.fst) :
    (pairs.foldl (fun m p => m.insert p.1 p.2) m₀).lookup k = m₀.lookup k := by
  induction pairs generalizing m₀ with
  | nil => rfl
  | cons p pairs ih =>
    rw [List.map_cons, List.mem_cons, not_or] at h
    rw [List.foldl_cons, ih _ h.2, lookup_insert_eq, if_neg h.1]

/-- A key that is written once keeps its value. -/
theorem lookup_foldl_insert_of_nodup {p : κ × ν} (pairs : List (κ × ν)) (m₀ : GoMap κ ν)
    (h : (pairs.map Prod.fst).Nodup) (hp : p ∈ pairs) :
    (pairs.foldl (fun m p => m.insert p.1 p.2) m₀).lookup p.1 = some p.2 := by
  induction pairs generalizing m₀ with
  | nil => cases hp
  | cons q pairs ih =>
    obtain ⟨hq, hrest⟩ := List.nodup_cons.mp h
    rw [List.foldl_cons]
    rcases List.mem_cons.mp hp with rfl | htail
    · rw [lookup_foldl_insert_of_notMem pairs _ hq, lookup_insert_eq, if_pos rfl]
    · exact ih _ hrest htail

theorem mem_of_lookup_foldl_insert (pairs : List (κ × ν)) (m₀ : GoMap κ ν)
    (h : (pairs.foldl (fun m p => m.insert p.1 p.2) m₀).lookup k = some v) :
    (k, v) ∈ pairs ∨ m₀.lookup k = some v := by
  induction pairs generalizing m₀ with
  | nil => exact .inr h
  | cons p pairs ih =>
    rw [List.foldl_cons] at h
    rcases ih _ h with hmem | hlookup
    · exact .inl (List.mem_cons_of_mem _ hmem)
    · rw [lookup_insert_eq] at hlookup
      split at hlookup
      · rename_i hk
        rw [hk, ← Option.some.inj hlookup]
        exact .inl List.mem_cons_self
      · exact .inr hlookup

theorem len_foldl_insert_le (pairs : List (κ × ν)) :
    len (pairs.foldl (fun m p => m.insert p.1 p.2) ∅) ≤ pairs.length := by
  rw [len, keys_foldl_insert]
  simp only [Finmap.keys_empty, Finset.union_empty]
  exact (List.toFinset_card_le _).trans (List.length_map _).le

/-- As many pairs as the map they build has keys: no key occurs twice, and every pair is an entry. -/
theorem entries_of_foldl_insert {pairs : List (κ × ν)} (h : pairs.foldl (fun m p => m.insert p.1 p.2) ∅ = m)
    (hlen : pairs.length = len m) :
    (pairs.map Prod.fst).Nodup ∧ ∀ p ∈ pairs, m.lookup p.1 = some p.2 := by
  have hkeys : m.keys = (pairs.map Prod.fst).toFinset := by
    rw [← h, keys_foldl_insert]
    simp
  have hnodup : (pairs.map Prod.fst).Nodup := by
    rw [len, hkeys, List.card_toFinset] at hlen
    rw [← List.dedup_eq_self]
    refine (List.dedup_sublist _).eq_of_length ?_
    rw [← hlen, List.length_map]
  refine ⟨hnodup, fun p hp => ?_⟩
  rw [← h]
  exact lookup_foldl_insert_of_nodup pairs ∅ hnodup hp

/-! ### Counting values -/

/-- The keys whose values satisfy `p`. -/
def keysWhere (p : ν → Bool) (m : GoMap κ ν) : Finset κ := m.keys.filter (fun k => (m.lookup k).any p)

theorem mem_keysWhere {p : ν → Bool} : k ∈ keysWhere p m ↔ (m.lookup k).any p = true := by
  rw [keysWhere, Finset.mem_filter, Finmap.mem_keys, ← Finmap.lookup_isSome]
  constructor
  · exact And.right
  · intro hany
    refine ⟨?_, hany⟩
    cases hk : m.lookup k with
    | none => simp [hk] at hany
    | some v => rfl

theorem keysWhere_insert (p : ν → Bool) (m : GoMap κ ν) (k : κ) (v : ν) :
    keysWhere p (m.insert k v) =
      if p v then Insert.insert k (keysWhere p m) else (keysWhere p m).erase k := by
  ext k'
  rw [mem_keysWhere, lookup_insert_eq]
  by_cases hk : k' = k <;> cases hv : p v <;> simp [hk, hv, mem_keysWhere]

/-- A write changes the number of values that satisfy `p` by what it puts in and what it replaces. -/
theorem card_keysWhere_insert (p : ν → Bool) (m : GoMap κ ν) (k : κ) (v : ν) :
    (keysWhere p (m.insert k v)).card + ((m.lookup k).any p).toNat = (keysWhere p m).card + (p v).toNat := by
  rw [keysWhere_insert]
  cases hbefore : (m.lookup k).any p with
  | false =>
    have hnot : k ∉ keysWhere p m := by simp [mem_keysWhere, hbefore]
    cases hv : p v with
    | false => simp [Finset.erase_eq_of_notMem hnot]
    | true => simp [Finset.card_insert_of_notMem hnot]
  | true =>
    have hmem : k ∈ keysWhere p m := mem_keysWhere.mpr hbefore
    cases hv : p v with
    | false => simpa using Finset.card_erase_add_one hmem
    | true => simp [Finset.insert_eq_of_mem hmem]

end GoMap

end NextendoMatchmaking
