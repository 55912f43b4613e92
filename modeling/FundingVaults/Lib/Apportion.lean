import Mathlib.Algebra.Order.Field.Rat
import Mathlib.Algebra.Order.Floor.Semifield
import Mathlib.Data.Nat.Cast.Order.Field
import Mathlib.Data.Rat.Floor
import Mathlib.Data.Nat.Basic
import Mathlib.Tactic.FieldSimp
import Mathlib.Tactic.Ring
import Mathlib.Tactic.Linarith

/-!
# Proportional division of a capacity

`available c f t` units are divided between two claims `f` and `t`: the first receives the floor
of its exact share and the second the rest.  No claim receives more than it asked for, nothing is
lost, and both parts grow with the capacity.
-/

namespace FundingVaults.Apportion

/-- The part of the capacity that the two claims can use. -/
def available (c f t : ℕ) : ℕ := min c (f + t)

/-- The first claim's part, rounded down. -/
def first (c f t : ℕ) : ℕ := available c f t * f / (f + t)

/-- The second claim's part, which takes the rounding remainder. -/
def second (c f t : ℕ) : ℕ := available c f t - first c f t

variable {c c' f t : ℕ}

theorem available_le_sum : available c f t ≤ f + t := min_le_right _ _

theorem available_le_capacity : available c f t ≤ c := min_le_left _ _

theorem first_le_available (c f t : ℕ) : first c f t ≤ available c f t := by
  refine Nat.div_le_of_le_mul ?_
  rw [Nat.mul_comm (f + t)]
  exact Nat.mul_le_mul_left _ (Nat.le_add_right f t)

theorem first_le (c f t : ℕ) : first c f t ≤ f :=
  Nat.div_le_of_le_mul (Nat.mul_le_mul_right f available_le_sum)

/-- Nothing is lost. -/
theorem first_add_second (c f t : ℕ) : first c f t + second c f t = available c f t :=
  Nat.add_sub_of_le (first_le_available c f t)

theorem second_le (c f t : ℕ) : second c f t ≤ t := by
  rcases Nat.eq_zero_or_pos (f + t) with h | h
  · have hz : available c f t = 0 := Nat.le_zero.mp (h ▸ available_le_sum)
    simp [second, hz]
  · have ha : available c f t * t ≤ t * (f + t) := by
      rw [Nat.mul_comm]
      exact Nat.mul_le_mul_left t available_le_sum
    have hq : available c f t - t ≤ first c f t := by
      refine (Nat.le_div_iff_mul_le h).mpr ?_
      rw [Nat.sub_mul]
      have hs : available c f t * (f + t) = available c f t * f + available c f t * t :=
        Nat.mul_add _ _ _
      omega
    unfold second
    omega

theorem first_add_second_le_capacity (c f t : ℕ) : first c f t + second c f t ≤ c :=
  (first_add_second c f t).trans_le available_le_capacity

/-! ## Growing capacity -/

theorem available_mono (h : c ≤ c') : available c f t ≤ available c' f t := min_le_min_right _ h

theorem first_mono (h : c ≤ c') : first c f t ≤ first c' f t :=
  Nat.div_le_div_right (Nat.mul_le_mul_right f (available_mono h))

/-- The first claim's part grows no faster than what is divided. -/
theorem first_le_add (h : c ≤ c') :
    first c' f t ≤ first c f t + (available c' f t - available c f t) := by
  rcases Nat.eq_zero_or_pos (f + t) with h0 | hpos
  · simp [first, h0]
  · have hgrow : available c' f t * f ≤
        available c f t * f + (available c' f t - available c f t) * (f + t) := by
      obtain ⟨x, hx⟩ := Nat.exists_eq_add_of_le (available_mono (f := f) (t := t) h)
      rw [hx, Nat.add_sub_cancel_left, Nat.add_mul]
      exact Nat.add_le_add_left (Nat.mul_le_mul_left x (Nat.le_add_right f t)) _
    calc first c' f t ≤
        (available c f t * f + (available c' f t - available c f t) * (f + t)) / (f + t) :=
          Nat.div_le_div_right hgrow
      _ = first c f t + (available c' f t - available c f t) := Nat.add_mul_div_right _ _ hpos

theorem second_mono (h : c ≤ c') : second c f t ≤ second c' f t := by
  have hgrow := first_le_add (f := f) (t := t) h
  have hmono := available_mono (f := f) (t := t) h
  have hle := first_le_available c f t
  have hle' := first_le_available c' f t
  unfold second
  omega

/-! ## Exact shares -/

/-- The first claim's exact share. -/
def share (c f t : ℕ) : ℚ := available c f t * f / (f + t : ℕ)

theorem first_le_share (c f t : ℕ) : (first c f t : ℚ) ≤ share c f t := by
  rw [share, ← Nat.cast_mul]
  exact Nat.cast_div_le

theorem share_lt (c f t : ℕ) : share c f t < first c f t + 1 := by
  have h := Nat.lt_floor_add_one (share c f t)
  rw [share, ← Nat.cast_mul] at h ⊢
  rwa [Nat.floor_div_eq_div] at h

theorem available_comm (c f t : ℕ) : available c f t = available c t f := by
  rw [available, available, Nat.add_comm]

/-- The exact shares are all that is divided. -/
theorem share_add_share (h : 0 < f + t) : share c f t + share c t f = available c f t := by
  have hne : ((f + t : ℕ) : ℚ) ≠ 0 := Nat.cast_ne_zero.mpr h.ne'
  rw [share, share, available_comm c t f, Nat.add_comm t f, ← add_div, ← mul_add, ← Nat.cast_add,
    mul_div_cancel_right₀ _ hne]

/-- What the first claim loses to rounding, the second one gains. -/
theorem second_sub_share (h : 0 < f + t) :
    second c f t - share c t f = share c f t - first c f t := by
  have hsum : (first c f t + second c f t : ℚ) = available c f t := by
    exact_mod_cast first_add_second c f t
  linarith [share_add_share (c := c) h]

end FundingVaults.Apportion
