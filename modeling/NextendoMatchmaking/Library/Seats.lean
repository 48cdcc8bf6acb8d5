import Mathlib.Data.Finset.Card

/-!
# Rooms with held seats

A room of bounded capacity in which a seat can be held for somebody before they sit down.  `Seats` carries
its well-formedness: nobody is both seated and held for, and seats and holds together fit the capacity.
The operations are the ways in which a room changes, each with what it needs; `Step` is the relation they
generate.  A program that keeps rooms is shown to keep them within capacity by relating each of its moves
to a `Step` or to no change.
-/

namespace NextendoMatchmaking

/-- A room: who is seated, for whom a seat is held, and how many seats there are. -/
structure Seats (α : Type) [DecidableEq α] where
  members : Finset α
  holds : Finset α
  capacity : ℕ
  disjoint : Disjoint members holds
  fits : members.card + holds.card ≤ capacity
  capacity_pos : 0 < capacity

namespace Seats

variable {α : Type} [DecidableEq α]

/-- A new room with one member. -/
def opened (p : α) (capacity : ℕ) (h : 0 < capacity) : Seats α where
  members := {p}
  holds := ∅
  capacity := capacity
  disjoint := Finset.disjoint_empty_right _
  fits := by
    rw [Finset.card_singleton, Finset.card_empty]
    omega
  capacity_pos := h

/-- Hold a seat for somebody who is not seated, if there is a free one or one is held already. -/
def hold (S : Seats α) (p : α) (hp : p ∉ S.members)
    (hroom : p ∈ S.holds ∨ S.members.card + S.holds.card < S.capacity) : Seats α where
  members := S.members
  holds := insert p S.holds
  capacity := S.capacity
  disjoint := Finset.disjoint_insert_right.mpr ⟨hp, S.disjoint⟩
  fits := by
    by_cases hold : p ∈ S.holds
    · rw [Finset.insert_eq_of_mem hold]
      exact S.fits
    · rw [Finset.card_insert_of_notMem hold]
      have hfree := hroom.resolve_left hold
      omega
  capacity_pos := S.capacity_pos

/-- Give up all holds but those in `keep`. -/
def drop (S : Seats α) (keep : Finset α) (h : keep ⊆ S.holds) : Seats α where
  members := S.members
  holds := keep
  capacity := S.capacity
  disjoint := S.disjoint.mono_right h
  fits := le_trans (Nat.add_le_add_left (Finset.card_le_card h) _) S.fits
  capacity_pos := S.capacity_pos

/-- Somebody for whom a seat is held sits down. -/
def seat (S : Seats α) (p : α) (hp : p ∈ S.holds) : Seats α where
  members := insert p S.members
  holds := S.holds.erase p
  capacity := S.capacity
  disjoint := by
    rw [Finset.disjoint_insert_left]
    exact ⟨Finset.notMem_erase p _, S.disjoint.mono_right (Finset.erase_subset p _)⟩
  fits := by
    have hnot : p ∉ S.members := fun h => Finset.disjoint_left.mp S.disjoint h hp
    have hcard := Finset.card_erase_add_one hp
    have hfits := S.fits
    rw [Finset.card_insert_of_notMem hnot]
    omega
  capacity_pos := S.capacity_pos

/-- Somebody leaves, with their seat and their hold. -/
def leave (S : Seats α) (p : α) : Seats α where
  members := S.members.erase p
  holds := S.holds.erase p
  capacity := S.capacity
  disjoint := S.disjoint.mono (Finset.erase_subset p _) (Finset.erase_subset p _)
  fits := le_trans (Nat.add_le_add (Finset.card_erase_le) (Finset.card_erase_le)) S.fits
  capacity_pos := S.capacity_pos

/-- The ways in which a room changes. -/
inductive Step : Seats α → Seats α → Prop
  | hold {S} (p : α) (hp : p ∉ S.members)
      (hroom : p ∈ S.holds ∨ S.members.card + S.holds.card < S.capacity) : Step S (S.hold p hp hroom)
  | drop {S} (keep : Finset α) (h : keep ⊆ S.holds) : Step S (S.drop keep h)
  | seat {S} (p : α) (hp : p ∈ S.holds) : Step S (S.seat p hp)
  | leave {S} (p : α) : Step S (S.leave p)

end Seats

end NextendoMatchmaking
