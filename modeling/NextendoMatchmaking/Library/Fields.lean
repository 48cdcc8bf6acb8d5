import Mathlib.Data.List.Forall2
import Mathlib.Data.Nat.Bitwise

/-!
# Numbers packed from fields

Fields of fixed widths, put side by side into one number, the most significant first.

* `pack` — the number; by shifts and ors it is `pack_cons`;
* `unpack_pack` — the fields come back;
* `pack_lt_pack_iff` — the numbers are ordered like the lists of their fields.
-/

namespace NextendoMatchmaking.Fields

/-- The number with the fields `vs` of the widths `ws`. -/
def pack : List ℕ → List ℕ → ℕ
  | _ :: ws, v :: vs => v * 2 ^ ws.sum + pack ws vs
  | _, _ => 0

/-- The fields of the widths `ws` in a number. -/
def unpack : List ℕ → ℕ → List ℕ
  | [], _ => []
  | w :: ws, n => n / 2 ^ ws.sum % 2 ^ w :: unpack ws n

/-- Every field is smaller than its width allows. -/
def Fits (ws vs : List ℕ) : Prop := List.Forall₂ (fun w v => v < 2 ^ w) ws vs

variable {ws vs us : List ℕ}

theorem pack_lt (h : Fits ws vs) : pack ws vs < 2 ^ ws.sum := by
  induction h with
  | nil => exact Nat.one_pos
  | @cons w v ws vs hv _ ih =>
    have hstep : (v + 1) * 2 ^ ws.sum ≤ 2 ^ w * 2 ^ ws.sum := Nat.mul_le_mul_right _ hv
    show v * 2 ^ ws.sum + pack ws vs < 2 ^ (w :: ws).sum
    rw [List.sum_cons, Nat.pow_add]
    rw [Nat.add_mul, Nat.one_mul] at hstep
    omega

/-- Fields do not overlap, so adding them up is the same as or-ing them. -/
theorem pack_cons {w v : ℕ} (h : Fits ws vs) : pack (w :: ws) (v :: vs) = v <<< ws.sum ||| pack ws vs := by
  rw [← Nat.shiftLeft_add_eq_or_of_lt (pack_lt h), Nat.shiftLeft_eq]
  rfl

/-- Bits above the fields do not change them. -/
theorem unpack_add_mul (ws : List ℕ) (n k : ℕ) : unpack ws (n + k * 2 ^ ws.sum) = unpack ws n := by
  induction ws generalizing k with
  | nil => rfl
  | cons w ws ih =>
    have hhigh : k * 2 ^ (w :: ws).sum = 2 ^ w * k * 2 ^ ws.sum := by
      rw [List.sum_cons, Nat.pow_add, ← Nat.mul_assoc, Nat.mul_comm k]
    show (n + k * 2 ^ (w :: ws).sum) / 2 ^ ws.sum % 2 ^ w :: unpack ws (n + k * 2 ^ (w :: ws).sum) = _
    rw [hhigh, ih, Nat.add_mul_div_right _ _ (Nat.two_pow_pos _), Nat.add_mul_mod_self_left]
    rfl

theorem unpack_pack (h : Fits ws vs) : unpack ws (pack ws vs) = vs := by
  induction h with
  | nil => rfl
  | @cons w v ws vs hv hvs ih =>
    have hlow : pack ws vs < 2 ^ ws.sum := pack_lt hvs
    have hfield : (v * 2 ^ ws.sum + pack ws vs) / 2 ^ ws.sum % 2 ^ w = v := by
      rw [Nat.mul_comm, Nat.mul_add_div (Nat.two_pow_pos _), Nat.div_eq_of_lt hlow, Nat.add_zero,
        Nat.mod_eq_of_lt hv]
    show (v * 2 ^ ws.sum + pack ws vs) / 2 ^ ws.sum % 2 ^ w :: unpack ws (v * 2 ^ ws.sum + pack ws vs) = _
    rw [hfield, Nat.add_comm, unpack_add_mul, ih]

theorem pack_lt_pack_iff (hv : Fits ws vs) (hu : Fits ws us) : pack ws vs < pack ws us ↔ vs < us := by
  induction hv generalizing us with
  | nil =>
    cases hu
    exact iff_of_false (Nat.lt_irrefl 0) (List.not_lt_nil [])
  | @cons w v ws vs _ hvs ih =>
    cases hu with
    | @cons _ u _ us _ hus =>
      have hv := pack_lt hvs
      have hu := pack_lt hus
      rw [List.cons_lt_cons_iff, ← ih hus]
      show v * 2 ^ ws.sum + pack ws vs < u * 2 ^ ws.sum + pack ws us ↔ _
      rcases lt_trichotomy v u with hlt | rfl | hgt
      · -- one more in the higher field outweighs all that is below it
        have hstep : (v + 1) * 2 ^ ws.sum ≤ u * 2 ^ ws.sum := Nat.mul_le_mul_right _ hlt
        rw [Nat.add_mul, Nat.one_mul] at hstep
        exact iff_of_true (by omega) (.inl hlt)
      · rw [Nat.add_lt_add_iff_left]
        simp
      · have hstep : (u + 1) * 2 ^ ws.sum ≤ v * 2 ^ ws.sum := Nat.mul_le_mul_right _ hgt
        rw [Nat.add_mul, Nat.one_mul] at hstep
        exact iff_of_false (by omega) (by omega)

end NextendoMatchmaking.Fields
