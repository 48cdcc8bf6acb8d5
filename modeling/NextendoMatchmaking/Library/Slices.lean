import Mathlib.Data.List.GetD

/-!
# Reading slices with bounds checks

A program that reads slices is written in `Checked`: an index or a slice out of range is a fault, and so is a
loop that has not ended in the rounds that it was given.  A program without faults gives `.ok`.

* `index`, `slice`, `assign`, `makeCap` — the operations that can fail, with the condition under which they do;
* `index_of_lt`, `slice_of_le`, `assign_of_lt` — what they give within bounds.
-/

namespace NextendoMatchmaking.Slices

inductive Fault
  /-- An index is negative, or not below the length. -/
  | index
  /-- The bounds of a slice are negative, out of order, or above the length. -/
  | slice
  /-- A slice is made with a negative capacity. -/
  | make
  /-- A loop has not ended. -/
  | rounds
  deriving DecidableEq

abbrev Checked := Except Fault

variable {α β : Type} {b : List α}

/-- `b[i]`. -/
def index (b : List α) (i : Int) : Checked α :=
  if i < 0 then .error .index else b[i.toNat]?.elim (.error .index) .ok

/-- `b[lo:hi]`. -/
def slice (b : List α) (lo hi : Int) : Checked (List α) :=
  if 0 ≤ lo ∧ lo ≤ hi ∧ hi ≤ b.length then .ok ((b.drop lo.toNat).take (hi - lo).toNat) else .error .slice

/-- `b[i] = v`. -/
def assign (b : List α) (i : Int) (v : α) : Checked (List α) :=
  if 0 ≤ i ∧ i < b.length then .ok (b.set i.toNat v) else .error .index

/-- `make([]T, 0, n)`. -/
def makeCap (n : Int) : Checked (List α) := if n < 0 then .error .make else .ok []

/-- What `copy(dst, src)` leaves in `dst`. -/
def copyInto (dst src : List α) : List α := src.take dst.length ++ dst.drop src.length

@[simp] theorem ok_bind (a : α) (f : α → Checked β) : ((Except.ok a : Checked α) >>= f) = f a := rfl

theorem index_of_lt {i : ℕ} (h : i < b.length) (d : α) : index b i = .ok (b.getD i d) := by
  rw [index, if_neg (by omega), Int.toNat_natCast, List.getD_eq_getElem?_getD, List.getElem?_eq_getElem h]
  rfl

theorem slice_of_le {lo hi : ℕ} (h : lo ≤ hi) (h' : hi ≤ b.length) :
    slice b lo hi = .ok ((b.drop lo).take (hi - lo)) := by
  rw [slice, if_pos (by omega), Int.toNat_natCast, ← Int.ofNat_sub h, Int.toNat_natCast]

/-- The slice up to the end. -/
theorem slice_to_end {lo : ℕ} (h : lo ≤ b.length) : slice b lo b.length = .ok (b.drop lo) := by
  rw [slice_of_le h (Nat.le_refl _), List.take_of_length_le (Nat.le_of_eq List.length_drop)]

theorem assign_of_lt {i : ℕ} (h : i < b.length) (v : α) : assign b i v = .ok (b.set i v) := by
  rw [assign, if_pos (by omega), Int.toNat_natCast]

theorem makeCap_of_le {n : Int} (h : 0 ≤ n) : (makeCap n : Checked (List α)) = .ok [] := if_neg (by omega)

/-- A copy over the first `n` values of `rest`. -/
theorem copyInto_append (src rest : List α) {n : ℕ} (h : n ≤ rest.length) :
    copyInto (rest.take n) src ++ rest.drop n = src.take n ++ rest.drop (src.take n).length := by
  have hlength : (rest.take n).length = n := List.length_take_of_le h
  rw [copyInto, hlength, List.append_assoc]
  congr 1
  by_cases hsrc : src.length ≤ n
  · rw [List.take_of_length_le hsrc, ← List.drop_append_of_le_length (by omega), List.take_append_drop]
  · have htake : (src.take n).length = n := List.length_take_of_le (by omega)
    rw [htake, List.drop_of_length_le (by omega), List.nil_append]

end NextendoMatchmaking.Slices
