import Mathlib.Data.List.Sort
import Mathlib.Data.List.Count

/-!
# The first places of a list by keys

A collection is listed by keys in a linear order, and only the first `n` places are shown.  Elements with one
key may stand in any order (`Lists` leaves this open, as an unstable sort does).  So two listings of one
collection can differ, and the questions are when the same elements are shown (`Lists.take_perm`,
`exists_other_take`: unless a group with one key straddles the last place), and when they are shown in the
same order (`Lists.take_eq`, `Lists.swap`: unless a shown element shares its key).
-/

namespace NextendoMatchmaking.TopList

variable {α β κ κ' : Type*} [LinearOrder κ] [LinearOrder κ'] {key : α → κ} {xs l l' : List α} {a b : α}
  {n : ℕ}

/-- `l` lists the elements of `xs` by their keys. -/
structure Lists (key : α → κ) (xs l : List α) : Prop where
  perm : l.Perm xs
  sorted : l.Pairwise (fun a b => key a ≤ key b)

/-! ### Sorting -/

section Sorting

variable {r : α → α → Prop} [DecidableRel r] (hr : ∀ a b, r a b ↔ key a ≤ key b)

include hr

theorem lists_insertionSort (xs : List α) : Lists key xs (xs.insertionSort r) := by
  have htotal : Std.Total r := ⟨fun a b => by rw [hr, hr]; exact le_total _ _⟩
  have htrans : IsTrans α r := ⟨fun a b c hab hbc => by rw [hr] at hab hbc ⊢; exact hab.trans hbc⟩
  refine ⟨List.perm_insertionSort r xs, ?_⟩
  exact (List.pairwise_insertionSort r xs).imp (fun h => (hr _ _).mp h)

/-- A listing is sorted already. -/
theorem insertionSort_of_lists (h : Lists key xs l) : l.insertionSort r = l :=
  List.Pairwise.insertionSort_eq (h.sorted.imp (fun hab => (hr _ _).mpr hab))

end Sorting

theorem Lists.of_perm (h : Lists key xs l) {ys : List α} (hperm : xs.Perm ys) : Lists key ys l :=
  ⟨h.perm.trans hperm, h.sorted⟩

/-- Coarser keys: the listing is still one. -/
theorem Lists.map {f : α → β} {key' : β → κ'} (h : Lists key xs l)
    (hf : ∀ a b, key a ≤ key b → key' (f a) ≤ key' (f b)) : Lists key' (xs.map f) (l.map f) :=
  ⟨h.perm.map f, List.pairwise_map.mpr (h.sorted.imp (fun hab => hf _ _ hab))⟩

/-- Two elements with one key can change places. -/
theorem Lists.swap {front mid back : List α} (h : Lists key xs (front ++ a :: (mid ++ b :: back)))
    (hkey : key a = key b) : Lists key xs (front ++ b :: (mid ++ a :: back)) := by
  constructor
  · have hperm : (b :: (mid ++ a :: back)).Perm (a :: (mid ++ b :: back)) := by
      have hout : (b :: (mid ++ a :: back)).Perm (b :: a :: (mid ++ back)) := List.perm_middle.cons b
      have hin : (a :: b :: (mid ++ back)).Perm (a :: (mid ++ b :: back)) := List.perm_middle.symm.cons a
      exact hout.trans ((List.Perm.swap a b _).trans hin)
    exact (hperm.append_left front).trans h.perm
  · -- The keys are the same list.
    have hkeys : (front ++ b :: (mid ++ a :: back)).map key = (front ++ a :: (mid ++ b :: back)).map key := by
      simp only [List.map_append, List.map_cons, hkey]
    have hsorted := List.pairwise_map.mpr h.sorted
    rw [← hkeys] at hsorted
    exact List.pairwise_map.mp hsorted

/-! ### Counting -/

theorem Lists.key_le (h : Lists key xs l) (ha : a ∈ l.take n) (hb : b ∈ l.drop n) : key a ≤ key b := by
  have hsorted := h.sorted
  rw [← List.take_append_drop n l, List.pairwise_append] at hsorted
  exact hsorted.2.2 a ha b hb

/-- Few elements come before one that is shown. -/
theorem Lists.countP_lt (h : Lists key xs l) (ha : a ∈ l.take n) : xs.countP (fun x => key x < key a) < n := by
  obtain ⟨front, back, hsplit⟩ := List.append_of_mem ha
  have hl : l = front ++ (a :: back ++ l.drop n) := by
    rw [← List.append_assoc, ← hsplit, List.take_append_drop]
  have hlength : front.length < n := by
    have hle := List.length_take_le n l
    rw [hsplit, List.length_append, List.length_cons] at hle
    omega
  -- Nothing behind the front comes before `a`.
  have hzero : (a :: back ++ l.drop n).countP (fun x => key x < key a) = 0 := by
    rw [List.countP_eq_zero]
    intro x hx
    have hsorted := h.sorted
    rw [hl, List.pairwise_append, List.cons_append, List.pairwise_cons] at hsorted
    rw [decide_eq_true_eq, not_lt]
    rcases List.mem_cons.mp hx with rfl | hx
    · exact le_rfl
    · exact hsorted.2.1.1 x hx
  rw [← h.perm.countP_eq, hl, List.countP_append, hzero]
  exact Nat.lt_of_le_of_lt (List.countP_le_length) hlength

/-- An element is shown when it and what does not come behind it fit. -/
theorem Lists.mem_take (h : Lists key xs l) (ha : a ∈ xs)
    (hcount : xs.countP (fun x => key x ≤ key a) ≤ n) : a ∈ l.take n := by
  by_contra hnot
  have hmem : a ∈ l.take n ++ l.drop n := by
    rw [List.take_append_drop]
    exact h.perm.mem_iff.mpr ha
  have hback : a ∈ l.drop n := (List.mem_append.mp hmem).resolve_left hnot
  have hfront : (l.take n).countP (fun x => key x ≤ key a) = (l.take n).length := by
    rw [List.countP_eq_length]
    intro x hx
    exact decide_eq_true (h.key_le hx hback)
  have hone : 0 < (l.drop n).countP (fun x => key x ≤ key a) :=
    List.countP_pos_iff.mpr ⟨a, hback, decide_eq_true le_rfl⟩
  have hlength : (l.take n).length = n := by
    rw [List.length_take]
    have := List.length_pos_of_mem hback
    rw [List.length_drop] at this
    omega
  rw [← h.perm.countP_eq, ← List.take_append_drop n l, List.countP_append, hfront, hlength] at hcount
  omega

/-! ### The same elements -/

/-- The elements with the key of `a` begin before the end of the first `n` places and end behind it. -/
def Straddles (key : α → κ) (xs : List α) (n : ℕ) (a : α) : Prop :=
  xs.countP (fun x => key x < key a) < n ∧ n < xs.countP (fun x => key x ≤ key a)

theorem Lists.mem_take_of_not_straddles (h : Lists key xs l) (h' : Lists key xs l')
    (hno : ∀ a ∈ xs, ¬ Straddles key xs n a) (ha : a ∈ l.take n) : a ∈ l'.take n := by
  have hmem : a ∈ xs := h.perm.mem_iff.mp (List.mem_of_mem_take ha)
  refine h'.mem_take hmem (Nat.not_lt.mp (fun hmany => ?_))
  exact hno a hmem ⟨h.countP_lt ha, hmany⟩

theorem Lists.nodup (h : Lists key xs l) (hnodup : xs.Nodup) : l.Nodup := h.perm.nodup_iff.mpr hnodup

/-- **The same elements are shown**, unless a group straddles the last place. -/
theorem Lists.take_perm (hnodup : xs.Nodup) (h : Lists key xs l) (h' : Lists key xs l')
    (hno : ∀ a ∈ xs, ¬ Straddles key xs n a) : (l'.take n).Perm (l.take n) := by
  rw [List.perm_ext_iff_of_nodup ((List.take_sublist n l').nodup (h'.nodup hnodup))
    ((List.take_sublist n l).nodup (h.nodup hnodup))]
  exact fun a => ⟨h'.mem_take_of_not_straddles h hno, h.mem_take_of_not_straddles h' hno⟩

/-- A group that straddles the last place has elements on both sides. -/
theorem Lists.straddlers (h : Lists key xs l) (hs : Straddles key xs n a) :
    ∃ x y, x ∈ l.take n ∧ y ∈ l.drop n ∧ key x = key y := by
  obtain ⟨hbegin, hend⟩ := hs
  rw [← h.perm.countP_eq, ← List.take_append_drop n l, List.countP_append] at hbegin hend
  have hshort := List.length_take_le n l
  have hfront := List.countP_le_length (p := fun x => decide (key x ≤ key a)) (l := l.take n)
  obtain ⟨y, hy, hya⟩ := List.countP_pos_iff.mp
    (show 0 < (l.drop n).countP (fun x => decide (key x ≤ key a)) by omega)
  have hlong : (l.take n).length = n := by
    rw [List.length_take]
    have := List.length_pos_of_mem hy
    rw [List.length_drop] at this
    omega
  obtain ⟨x, hx, hxa⟩ : ∃ x ∈ l.take n, ¬ key x < key a := by
    by_contra hall
    have hevery : (l.take n).countP (fun x => decide (key x < key a)) = (l.take n).length := by
      rw [List.countP_eq_length]
      intro x hx
      by_contra hxa
      exact hall ⟨x, hx, fun hlt => hxa (decide_eq_true hlt)⟩
    omega
  have hle := h.key_le hx hy
  exact ⟨x, y, hx, hy, le_antisymm hle ((of_decide_eq_true hya).trans (not_lt.mp hxa))⟩

/-- Two elements on both sides of the last place. -/
theorem split_take_drop {x y : α} (hx : x ∈ l.take n) (hy : y ∈ l.drop n) :
    ∃ front mid back, l = front ++ x :: (mid ++ y :: back) ∧ front.length < n ∧
      n ≤ front.length + 1 + mid.length := by
  obtain ⟨front, mid₁, hfront⟩ := List.append_of_mem hx
  obtain ⟨mid₂, back, hback⟩ := List.append_of_mem hy
  have hl : l = front ++ x :: (mid₁ ++ mid₂ ++ y :: back) := by
    conv_lhs => rw [← List.take_append_drop n l, hfront, hback]
    simp only [List.append_assoc, List.cons_append]
  have hlength : (l.take n).length = n := by
    rw [List.length_take]
    have := List.length_pos_of_mem hy
    rw [List.length_drop] at this
    omega
  rw [hfront, List.length_append, List.length_cons] at hlength
  refine ⟨front, mid₁ ++ mid₂, back, hl, by omega, ?_⟩
  rw [List.length_append]
  omega

/-- **Other elements can be shown** where a group straddles the last place. -/
theorem exists_other_take (hnodup : xs.Nodup) (h : Lists key xs l) (hs : Straddles key xs n a) :
    ∃ l' b, Lists key xs l' ∧ b ∈ l'.take n ∧ b ∉ l.take n := by
  obtain ⟨x, y, hx, hy, hkey⟩ := h.straddlers hs
  obtain ⟨front, mid, back, rfl, hbefore, hbehind⟩ := split_take_drop hx hy
  refine ⟨_, y, h.swap hkey, ?_, fun hshown => ?_⟩
  · rw [List.take_append, List.take_cons (by omega)]
    exact List.mem_append_right _ List.mem_cons_self
  · exact List.disjoint_take_drop (h.nodup hnodup) le_rfl hshown hy

/-! ### The same order -/

/-- **The same elements are shown in the same order**, unless a shown element shares its key. -/
theorem Lists.take_eq (h : Lists key xs l) (h' : Lists key xs l')
    (hties : ∀ a ∈ l.take n, ∀ b ∈ xs, key b = key a → b = a) : l'.take n = l.take n := by
  induction l generalizing xs l' n with
  | nil =>
    have hnil : l' = [] := (h'.perm.trans h.perm.symm).eq_nil
    rw [hnil]
  | cons a t ih =>
    have hperm : l'.Perm (a :: t) := h'.perm.trans h.perm.symm
    cases n with
    | zero => rfl
    | succ n =>
      cases l' with
      | nil => exact absurd hperm.symm.eq_nil (List.cons_ne_nil a t)
      | cons b t' =>
        have hmem : b ∈ a :: t := hperm.mem_iff.mp List.mem_cons_self
        have hmem' : a ∈ b :: t' := hperm.mem_iff.mpr List.mem_cons_self
        have hfirst : key a ≤ key b := by
          rcases List.mem_cons.mp hmem with rfl | hb
          · exact le_rfl
          · exact (List.pairwise_cons.mp h.sorted).1 b hb
        have hfirst' : key b ≤ key a := by
          rcases List.mem_cons.mp hmem' with rfl | ha
          · exact le_rfl
          · exact (List.pairwise_cons.mp h'.sorted).1 a ha
        -- Both listings begin with `a`, which shares its key with nobody.
        obtain rfl : b = a := hties a List.mem_cons_self b (h.perm.mem_iff.mp hmem)
          (le_antisymm hfirst' hfirst)
        have hrest : t'.take n = t.take n := by
          have htail : Lists key t t := ⟨.refl t, (List.pairwise_cons.mp h.sorted).2⟩
          have htail' : Lists key t t' :=
            ⟨(List.perm_cons b).mp hperm, (List.pairwise_cons.mp h'.sorted).2⟩
          refine ih htail htail' ?_
          intro x hx y hy
          exact hties x (List.mem_cons_of_mem _ hx) y (h.perm.mem_iff.mp (List.mem_cons_of_mem _ hy))
        rw [List.take_succ_cons, List.take_succ_cons, hrest]

/-- The elements in front of `a` are counted by their keys, when none of them has its key. -/
theorem Lists.length_front_le {front back : List α} (h : Lists key xs (front ++ a :: back))
    (hties : ∀ x ∈ front, key x ≠ key a) : front.length ≤ xs.countP (fun x => key x < key a) := by
  have hfront : front.countP (fun x => key x < key a) = front.length := by
    rw [List.countP_eq_length]
    intro x hx
    have hle := (List.pairwise_append.mp h.sorted).2.2 x hx a List.mem_cons_self
    exact decide_eq_true (lt_of_le_of_ne hle (hties x hx))
  rw [← h.perm.countP_eq, List.countP_append, hfront]
  exact Nat.le_add_right _ _

/-- Two elements of a list, the one in front first. -/
theorem split_pair (ha : a ∈ l) (hb : b ∈ l) (hne : a ≠ b) :
    ∃ front x mid y back, l = front ++ x :: (mid ++ y :: back) ∧ (x = a ∧ y = b ∨ x = b ∧ y = a) := by
  obtain ⟨front, back, rfl⟩ := List.append_of_mem ha
  rcases List.mem_append.mp hb with hfront | hback
  · obtain ⟨front, mid, rfl⟩ := List.append_of_mem hfront
    exact ⟨front, b, mid, a, back, by simp, .inr ⟨rfl, rfl⟩⟩
  · obtain ⟨mid, back, rfl⟩ := List.append_of_mem ((List.mem_cons.mp hback).resolve_left hne.symm)
    exact ⟨front, a, mid, b, back, rfl, .inl ⟨rfl, rfl⟩⟩

/-- **The order can change** under coarser keys: where a shown element shares its coarser key with another, some
listing has the one at the place of the other. -/
theorem Lists.exists_other_order (h : Lists key xs l) (hnodup : xs.Nodup)
    (hinj : ∀ x ∈ xs, ∀ y ∈ xs, key x = key y → x = y) (ha : a ∈ xs) (hb : b ∈ xs) (hne : a ≠ b)
    (hcount : xs.countP (fun x => key x < key a) < n) {f : α → β} {key' : β → κ'}
    (hf : ∀ a b, key a ≤ key b → key' (f a) ≤ key' (f b)) (hkey : key' (f a) = key' (f b)) :
    ∃ (l' : List α) (i : ℕ) (x y : α), Lists key' (xs.map f) (l'.map f) ∧ i < n ∧ l[i]? = some x ∧
      l'[i]? = some y ∧ (x = a ∧ y = b ∨ x = b ∧ y = a) := by
  have hmem : ∀ {x}, x ∈ l ↔ x ∈ xs := h.perm.mem_iff
  obtain ⟨front, x, mid, y, back, rfl, hxy⟩ := split_pair (hmem.mpr ha) (hmem.mpr hb) hne
  have hxl : x ∈ front ++ x :: (mid ++ y :: back) := List.mem_append_right _ List.mem_cons_self
  have hplace : front.length < n := by
    have hties : ∀ z ∈ front, key z ≠ key x := by
      intro z hz heq
      have hzx : z = x := hinj z (hmem.mp (List.mem_append_left _ hz)) x (hmem.mp hxl) heq
      exact (List.nodup_append.mp (h.nodup hnodup)).2.2 z hz x List.mem_cons_self hzx
    have hle : key x ≤ key a := by
      rcases hxy with ⟨rfl, -⟩ | ⟨rfl, rfl⟩
      · exact le_rfl
      · have hsorted := (List.pairwise_append.mp h.sorted).2.1
        exact (List.pairwise_cons.mp hsorted).1 y (List.mem_append_right _ List.mem_cons_self)
    have hmono : xs.countP (fun z => key z < key x) ≤ xs.countP (fun z => key z < key a) :=
      List.countP_mono_left (fun z _ hz => decide_eq_true (lt_of_lt_of_le (of_decide_eq_true hz) hle))
    exact Nat.lt_of_le_of_lt ((h.length_front_le hties).trans hmono) hcount
  have hkeyxy : key' (f x) = key' (f y) := by
    rcases hxy with ⟨rfl, rfl⟩ | ⟨rfl, rfl⟩
    · exact hkey
    · exact hkey.symm
  refine ⟨front ++ y :: (mid ++ x :: back), front.length, x, y, ?_, hplace, by simp, by simp, hxy⟩
  have hcoarse := h.map hf
  simp only [List.map_append, List.map_cons] at hcoarse ⊢
  exact hcoarse.swap hkeyxy

end NextendoMatchmaking.TopList
