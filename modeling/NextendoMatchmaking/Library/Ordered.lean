import Mathlib.Data.List.Induction
import Mathlib.Data.List.Nodup

/-!
# Maps that keep the order of their keys

A map together with the list of its keys, in the order in which they were first set, is the list of its
entries in that order.

* `put` — set a key: in its place if it is there, and at the end otherwise;
* `collect` — put the elements of a list under their keys, one after the other;
* `collect_snoc_eq_iff` — when collecting a list and one more element gives the list back;
* `find?_collect` — the first key with a property is the first in the list.
-/

namespace NextendoMatchmaking.Ordered

variable {κ ν : Type} [DecidableEq κ]
variable {l : List (κ × ν)} {k : κ} {e : κ × ν}

/-- Set the key `k`. -/
def put (k : κ) (v : ν) : List (κ × ν) → List (κ × ν)
  | [] => [(k, v)]
  | e :: l => if e.1 = k then (k, v) :: l else e :: put k v l

theorem keys_put (k : κ) (v : ν) (l : List (κ × ν)) :
    (put k v l).map Prod.fst = if k ∈ l.map Prod.fst then l.map Prod.fst else l.map Prod.fst ++ [k] := by
  induction l with
  | nil => rfl
  | cons e l ih =>
    unfold put
    by_cases he : e.1 = k
    · rw [if_pos he, List.map_cons, List.map_cons, he, if_pos List.mem_cons_self]
    · rw [if_neg he, List.map_cons, List.map_cons, ih]
      by_cases hk : k ∈ l.map Prod.fst
      · rw [if_pos hk, if_pos (List.mem_cons_of_mem _ hk)]
      · rw [if_neg hk, if_neg (fun hmem => (List.mem_cons.mp hmem).elim (fun heq => he heq.symm) hk)]
        rfl

theorem nodup_put (h : (l.map Prod.fst).Nodup) (k : κ) (v : ν) : ((put k v l).map Prod.fst).Nodup := by
  rw [keys_put]
  split
  · exact h
  · rename_i hk
    rw [← List.concat_eq_append]
    exact List.Nodup.concat hk h

theorem mem_put_self (k : κ) (v : ν) (l : List (κ × ν)) : (k, v) ∈ put k v l := by
  induction l with
  | nil => exact List.mem_singleton_self _
  | cons e l ih =>
    unfold put
    split
    · exact List.mem_cons_self
    · exact List.mem_cons_of_mem _ ih

theorem mem_of_mem_put {v : ν} (h : e ∈ put k v l) : e = (k, v) ∨ e ∈ l := by
  induction l with
  | nil => exact .inl (List.mem_singleton.mp h)
  | cons e' l ih =>
    unfold put at h
    split at h
    · exact (List.mem_cons.mp h).imp id (List.mem_cons_of_mem _)
    · rcases List.mem_cons.mp h with rfl | h
      · exact .inr List.mem_cons_self
      · exact (ih h).imp id (List.mem_cons_of_mem _)

/-- A new key comes to the end. -/
theorem put_of_notMem (h : k ∉ l.map Prod.fst) (v : ν) : put k v l = l ++ [(k, v)] := by
  induction l with
  | nil => rfl
  | cons e l ih =>
    rw [List.map_cons, List.mem_cons, not_or] at h
    unfold put
    rw [if_neg (Ne.symm h.1), ih h.2]
    rfl

/-- Setting a key to the value that it has changes nothing. -/
theorem put_of_mem {v : ν} (hnodup : (l.map Prod.fst).Nodup) (h : (k, v) ∈ l) : put k v l = l := by
  induction l with
  | nil => cases h
  | cons e l ih =>
    rw [List.map_cons, List.nodup_cons] at hnodup
    unfold put
    rcases List.mem_cons.mp h with rfl | h
    · rw [if_pos rfl]
    · have hne : e.1 ≠ k := fun heq => hnodup.1 (heq ▸ List.mem_map_of_mem h)
      rw [if_neg hne, ih hnodup.2 h]

section Lookup

variable [BEq κ] [LawfulBEq κ]

theorem lookup_cons_eq (e : κ × ν) (l : List (κ × ν)) (k : κ) :
    (e :: l).lookup k = if k = e.1 then some e.2 else l.lookup k := by
  obtain ⟨k', v⟩ := e
  by_cases hk : k = k'
  · rw [if_pos hk, hk, List.lookup_cons_self]
  · rw [if_neg hk, List.lookup_cons, beq_false_of_ne hk]

theorem lookup_put_eq (k k' : κ) (v : ν) (l : List (κ × ν)) :
    (put k v l).lookup k' = if k' = k then some v else l.lookup k' := by
  induction l with
  | nil => exact lookup_cons_eq (k, v) [] k'
  | cons e l ih =>
    unfold put
    by_cases he : e.1 = k
    · rw [if_pos he, lookup_cons_eq, lookup_cons_eq, he]
      by_cases hk : k' = k
      · rw [if_pos hk, if_pos hk]
      · rw [if_neg hk, if_neg hk, if_neg hk]
    · rw [if_neg he, lookup_cons_eq, lookup_cons_eq, ih]
      exact ite_ite_comm _ _ _ _ (fun hk heq => he (hk.symm.trans heq))

theorem lookup_filter_ne (k k' : κ) (l : List (κ × ν)) :
    (l.filter (fun e => e.1 ≠ k)).lookup k' = if k' = k then none else l.lookup k' := by
  induction l with
  | nil => simp
  | cons e l ih =>
    by_cases he : e.1 = k
    · rw [List.filter_cons_of_neg (by simpa using he), ih, lookup_cons_eq, he]
      by_cases hk : k' = k
      · rw [if_pos hk, if_pos hk]
      · rw [if_neg hk, if_neg hk, if_neg hk]
    · rw [List.filter_cons_of_pos (by simpa using he), lookup_cons_eq, lookup_cons_eq, ih]
      exact ite_ite_comm _ _ _ _ (fun hk heq => he (hk.symm.trans heq))

theorem lookup_isSome_iff : (l.lookup k).isSome ↔ k ∈ l.map Prod.fst := by
  induction l with
  | nil => simp
  | cons e l ih =>
    rw [lookup_cons_eq, List.map_cons, List.mem_cons]
    by_cases hk : k = e.1
    · simp [hk]
    · simp only [hk, if_false, false_or, ih]

theorem lookup_of_mem (hnodup : (l.map Prod.fst).Nodup) (h : e ∈ l) : l.lookup e.1 = some e.2 := by
  induction l with
  | nil => cases h
  | cons e' l ih =>
    rw [List.map_cons, List.nodup_cons] at hnodup
    rw [lookup_cons_eq]
    rcases List.mem_cons.mp h with rfl | h
    · rw [if_pos rfl]
    · have hne : e.1 ≠ e'.1 := fun heq => hnodup.1 (heq ▸ List.mem_map_of_mem h)
      rw [if_neg hne, ih hnodup.2 h]

end Lookup

/-- Setting the keys of a list one after the other gives the list. -/
theorem foldl_put_of_nodup {acc : List (κ × ν)} (h : ((acc ++ l).map Prod.fst).Nodup) :
    l.foldl (fun m e => put e.1 e.2 m) acc = acc ++ l := by
  induction l generalizing acc with
  | nil => exact (List.append_nil acc).symm
  | cons e l ih =>
    have hnew : e.1 ∉ acc.map Prod.fst := by
      rw [List.map_append, List.map_cons] at h
      exact fun hmem => List.disjoint_of_nodup_append h hmem List.mem_cons_self
    have hassoc : acc ++ [e] ++ l = acc ++ e :: l := List.append_assoc acc [e] l
    rw [List.foldl_cons, put_of_notMem hnew, ih (hassoc ▸ h), hassoc]

/-! ### Collecting -/

/-- Put the elements of a list under their keys. -/
def collect (key : ν → κ) (l : List ν) : List (κ × ν) := l.foldl (fun m v => put (key v) v m) []

theorem collect_snoc (key : ν → κ) (l : List ν) (v : ν) :
    collect key (l ++ [v]) = put (key v) v (collect key l) := by
  unfold collect
  rw [List.foldl_append]
  rfl

theorem nodup_collect (key : ν → κ) (l : List ν) : ((collect key l).map Prod.fst).Nodup := by
  induction l using List.reverseRecOn with
  | nil => exact List.nodup_nil
  | append_singleton l v ih =>
    rw [collect_snoc]
    exact nodup_put ih _ _

theorem key_of_mem_collect (key : ν → κ) (l : List ν) : ∀ e ∈ collect key l, e.1 = key e.2 := by
  induction l using List.reverseRecOn with
  | nil => exact fun e he => absurd he List.not_mem_nil
  | append_singleton l v ih =>
    intro e he
    rw [collect_snoc] at he
    rcases mem_of_mem_put he with rfl | he
    · rfl
    · exact ih e he

/-- Elements with different keys are collected as they are. -/
theorem collect_of_nodup (key : ν → κ) (l : List ν) (h : (l.map key).Nodup) :
    collect key l = l.map (fun v => (key v, v)) := by
  induction l using List.reverseRecOn with
  | nil => rfl
  | append_singleton l v ih =>
    rw [List.map_append, List.nodup_append] at h
    obtain ⟨hl, -, hnew⟩ := h
    have hnotMem : key v ∉ (l.map (fun v => (key v, v))).map Prod.fst := by
      rw [List.map_map]
      exact fun hmem => hnew (key v) hmem (key v) (List.mem_singleton_self _) rfl
    rw [collect_snoc, ih hl, put_of_notMem hnotMem, List.map_append]
    rfl

/-- Collecting a list and one more element gives the list back just when its keys are different and the element
is one of it. -/
theorem collect_snoc_eq_iff (key : ν → κ) (l : List ν) (v : ν) :
    (collect key (l ++ [v])).map Prod.snd = l ↔ (l.map key).Nodup ∧ v ∈ l := by
  constructor
  · intro h
    have hkeys : (collect key (l ++ [v])).map Prod.fst = l.map key := by
      conv_rhs => rw [← h, List.map_map]
      exact List.map_congr_left (key_of_mem_collect key _)
    refine ⟨hkeys ▸ nodup_collect key _, ?_⟩
    have hmem : (key v, v) ∈ collect key (l ++ [v]) := by
      rw [collect_snoc]
      exact mem_put_self _ _ _
    exact h ▸ List.mem_map_of_mem hmem
  · intro h
    obtain ⟨hnodup, hmem⟩ := h
    have hkeys : ((l.map (fun v => (key v, v))).map Prod.fst).Nodup := by
      rw [List.map_map]
      exact hnodup
    rw [collect_snoc, collect_of_nodup key l hnodup, put_of_mem hkeys (List.mem_map_of_mem hmem), List.map_map]
    exact List.map_id l

/-- Collecting what has been collected changes nothing. -/
theorem collect_values (key : ν → κ) (l : List ν) :
    collect key ((collect key l).map Prod.snd) = collect key l := by
  have hkeys : ((collect key l).map Prod.snd).map key = (collect key l).map Prod.fst := by
    rw [List.map_map]
    exact List.map_congr_left (fun e he => (key_of_mem_collect key l e he).symm)
  rw [collect_of_nodup key _ (hkeys ▸ nodup_collect key l), List.map_map]
  refine (List.map_congr_left (fun e he => ?_)).trans (List.map_id _)
  exact Prod.ext (key_of_mem_collect key l e he).symm rfl

theorem find?_keys_collect (key : ν → κ) (p : κ → Bool) (l : List ν) :
    ((collect key l).map Prod.fst).find? p = (l.map key).find? p := by
  induction l using List.reverseRecOn with
  | nil => rfl
  | append_singleton l v ih =>
    rw [collect_snoc, keys_put, List.map_append, List.find?_append, ← ih]
    split
    · rename_i hmem
      cases hfind : ((collect key l).map Prod.fst).find? p with
      | some k => rfl
      | none => simp [List.find?_eq_none.mp hfind _ hmem]
    · exact List.find?_append

/-- The first element whose key has a property stands under the first such key of the list. -/
theorem find?_collect (key : ν → κ) (p : κ → Bool) {l : List ν} (h : (l.map key).find? p = some k) :
    ∃ v, key v = k ∧ ((collect key l).map Prod.snd).find? (fun v => p (key v)) = some v := by
  have hkeys : (collect key l).map Prod.fst = ((collect key l).map Prod.snd).map key := by
    rw [List.map_map]
    exact List.map_congr_left (key_of_mem_collect key l)
  rw [← find?_keys_collect, hkeys, List.find?_map] at h
  obtain ⟨v, hv, hk⟩ := Option.map_eq_some_iff.mp h
  exact ⟨v, hk, hv⟩

/-- The last element of the list is the one that stands under its key. -/
theorem eq_last_of_mem_collect (key : ν → κ) {l : List ν} {v last : ν}
    (h : v ∈ (collect key (l ++ [last])).map Prod.snd) (hkey : key v = key last) : v = last := by
  obtain ⟨e, he, rfl⟩ := List.mem_map.mp h
  have hlast : (key last, last) ∈ collect key (l ++ [last]) := by
    rw [collect_snoc]
    exact mem_put_self _ _ _
  have hfst : e.1 = key last := (key_of_mem_collect key _ e he).trans hkey
  exact congrArg Prod.snd (List.inj_on_of_nodup_map (nodup_collect key _) he hlast hfst)

end NextendoMatchmaking.Ordered
