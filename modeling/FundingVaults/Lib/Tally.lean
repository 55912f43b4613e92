import Mathlib.Algebra.BigOperators.Group.Finset.Piecewise
import Mathlib.Algebra.BigOperators.Group.List.Basic
import Mathlib.Algebra.Order.BigOperators.Group.List
import Mathlib.Algebra.Order.Group.Nat
import Mathlib.Algebra.Order.Ring.Int
import Mathlib.Order.Defs.LinearOrder
import Mathlib.Order.Lattice
import Mathlib.Tactic.Common

/-!
# Tallies over a history

`tally f c xs` adds up `f` over the events of a history that satisfy `c`.  A program does not
store the history: it stores a counter for the current window and resets it when the window
moves on.  `tally_rollover` says that such a counter is the tally of the current window, provided
no event of the past lies in a later one.
-/

namespace FundingVaults

variable {ε ι : Type*} {f : ε → ℕ} {c c' : ε → Prop} [DecidablePred c] [DecidablePred c']
  {xs : List ε} {e : ε}

def tally (f : ε → ℕ) (c : ε → Prop) [DecidablePred c] (xs : List ε) : ℕ :=
  (xs.map fun e ↦ if c e then f e else 0).sum

@[simp] theorem tally_nil : tally f c [] = 0 := rfl

@[simp] theorem tally_snoc :
    tally f c (xs ++ [e]) = tally f c xs + if c e then f e else 0 := by
  simp [tally]

/-- An event of weight zero does not count. -/
theorem tally_snoc_of_zero (h : f e = 0) : tally f c (xs ++ [e]) = tally f c xs := by
  simp [h]

theorem tally_eq_zero (h : ∀ e ∈ xs, c e → f e = 0) : tally f c xs = 0 := by
  refine List.sum_eq_zero fun x hx ↦ ?_
  obtain ⟨e, he, rfl⟩ := List.mem_map.mp hx
  split
  · next hc => exact h e he hc
  · rfl

theorem tally_append {ys : List ε} : tally f c (xs ++ ys) = tally f c xs + tally f c ys := by
  simp [tally]

/-- The tallies of windows that part the weighty events add up to the tally of everything. -/
theorem sum_tally [Fintype ι] [DecidableEq ι] {w : ι → ε → Prop} [∀ k, DecidablePred (w k)]
    (h : ∀ e ∈ xs, f e ≠ 0 → ∃ k, ∀ j, w j e ↔ j = k) :
    ∑ k, tally f (w k) xs = tally f (fun _ ↦ True) xs := by
  induction xs using List.reverseRecOn with
  | nil => simp
  | append_singleton xs e ih =>
    have hlast : ∑ k, (if w k e then f e else 0) = f e := by
      by_cases hf : f e = 0
      · simp [hf]
      · obtain ⟨k, hk⟩ := h e (by simp) hf
        simp [hk]
    simp only [tally_snoc, Finset.sum_add_distrib, if_true, hlast]
    rw [ih fun e' he' ↦ h e' (List.mem_append_left _ he')]

theorem tally_mono (h : ∀ e, c e → c' e) : tally f c xs ≤ tally f c' xs := by
  refine List.sum_le_sum fun e _ ↦ ?_
  by_cases hc : c e
  · simp [hc, h e hc]
  · simp [hc]

/-- A counter of the window `cur`, read as zero in a later window, is the tally of the window in
which it is read. -/
theorem tally_rollover [LinearOrder ι] {w : ι → ε → Prop} [∀ k, DecidablePred (w k)] {cur k : ι}
    (hpast : ∀ e ∈ xs, f e ≠ 0 → ∀ j, cur < j → ¬ w j e) (hk : cur ≤ k) :
    (if k = cur then tally f (w cur) xs else 0) = tally f (w k) xs := by
  split
  · next h => rw [h]
  · next h =>
    refine (tally_eq_zero fun e he hw ↦ ?_).symm
    by_contra hf
    exact hpast e he hf k (lt_of_le_of_ne hk (Ne.symm h)) hw

end FundingVaults
