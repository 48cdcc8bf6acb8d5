import Mathlib.Logic.Function.Basic
import NextendoMatchmaking.Library.GoMap

/-!
# An index kept beside the names it inverts

Some objects have a name, given by `name : ι → Option κ`, and a map `index` finds an object by its name.
`Indexes index name` says that the map is exactly the inverse: it has an entry for every name and no other.
The two are written one after the other, and the rules say which pairs of writes keep them in step:

* `Indexes.assign` — an object without a name gets one that nobody has, and the index an entry for it;
* `Indexes.drop` — an object loses its name, and the index the entry;
* `Indexes.rename_same` — a name is written again.
-/

namespace NextendoMatchmaking

variable {κ ι : Type} [DecidableEq κ]

/-- The map finds an object under a name exactly when the object has this name. -/
def Indexes (index : GoMap κ ι) (name : ι → Option κ) : Prop :=
  ∀ k i, index.lookup k = some i ↔ name i = some k

theorem indexes_empty : Indexes (∅ : GoMap κ ι) (fun _ => none) := by
  intro k i
  rw [Finmap.lookup_empty]
  exact ⟨nofun, nofun⟩

variable {index : GoMap κ ι} {name : ι → Option κ} {k : κ} {i : ι}

/-- An index finds at most one object. -/
theorem Indexes.injective (h : Indexes index name) {j : ι} (hi : name i = some k) (hj : name j = some k) :
    i = j :=
  Option.some.inj (((h k i).mpr hi).symm.trans ((h k j).mpr hj))

/-- An entry that is there is written again. -/
theorem Indexes.rename_same (h : Indexes index name) (hi : name i = some k) :
    Indexes (index.insert k i) name := by
  rw [GoMap.insert_eq_self ((h k i).mpr hi)]
  exact h

variable [DecidableEq ι]

theorem Indexes.assign (h : Indexes index name) (hi : name i = none) (hk : index.lookup k = none) :
    Indexes (index.insert k i) (Function.update name i (some k)) := by
  intro k' j
  rw [GoMap.lookup_insert_eq, Function.update_apply]
  by_cases hkk : k' = k
  · subst hkk
    rw [if_pos rfl]
    by_cases hj : j = i
    · subst hj
      rw [if_pos rfl]
      exact ⟨fun _ => rfl, fun _ => rfl⟩
    · rw [if_neg hj]
      constructor
      · intro heq
        exact absurd (Option.some.inj heq).symm hj
      · intro hname
        rw [(h k' j).mpr hname] at hk
        cases hk
  · rw [if_neg hkk, h k' j]
    by_cases hj : j = i
    · subst hj
      rw [if_pos rfl, hi]
      exact ⟨nofun, fun heq => absurd (Option.some.inj heq).symm hkk⟩
    · rw [if_neg hj]

theorem Indexes.drop (h : Indexes index name) (hi : name i = some k) :
    Indexes (index.erase k) (Function.update name i none) := by
  intro k' j
  rw [GoMap.lookup_erase_eq, Function.update_apply]
  by_cases hj : j = i
  · subst hj
    rw [if_pos rfl]
    by_cases hkk : k' = k
    · rw [if_pos hkk]
      exact ⟨nofun, nofun⟩
    · rw [if_neg hkk, h k' j, hi]
      exact ⟨fun heq => absurd (Option.some.inj heq).symm hkk, nofun⟩
  · rw [if_neg hj]
    by_cases hkk : k' = k
    · subst hkk
      rw [if_pos rfl]
      exact ⟨nofun, fun hname => absurd (h.injective hname hi) hj⟩
    · rw [if_neg hkk]
      exact h k' j

end NextendoMatchmaking
