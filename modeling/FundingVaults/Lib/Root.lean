import Mathlib.NumberTheory.LegendreSymbol.QuadraticReciprocity

/-!
# Square roots in a prime field

Over a prime that leaves five modulo eight, `-1` is a square and `2` is not.  A power of a square is
then its root up to a root of `-1`, so two candidates decide whether a number is a square.
-/

namespace FundingVaults.Root

variable {p : ℕ} [Fact p.Prime] {a b d : ZMod p}

/-- The inverse is a power. -/
theorem pow_card_sub_two (a : ZMod p) (hp : p ≠ 2) : a ^ (p - 2) = a⁻¹ := by
  have htwo := (Fact.out : p.Prime).two_le
  by_cases ha : a = 0
  · rw [ha, zero_pow (by omega), inv_zero]
  · refine eq_inv_of_mul_eq_one_left ?_
    have hexponent : p - 2 + 1 = p - 1 := by omega
    rw [← pow_succ, hexponent, ZMod.pow_card_sub_one_eq_one ha]

theorem isSquare_div_iff (hb : b ≠ 0) : IsSquare (a / b) ↔ IsSquare (a * b) := by
  constructor
  · rintro ⟨r, hr⟩
    refine ⟨r * b, ?_⟩
    rw [div_eq_iff hb] at hr
    rw [hr]
    ring
  · rintro ⟨r, hr⟩
    refine ⟨r / b, ?_⟩
    rw [div_mul_div_comm, ← hr, mul_div_mul_right _ _ hb]

/-- A denominator that is a non-square multiple of a square never vanishes. -/
theorem mul_sq_add_one_ne_zero (hp : p % 4 ≠ 3) (hd : ¬ IsSquare d) (y : ZMod p) :
    d * y ^ 2 + 1 ≠ 0 := by
  intro h
  obtain ⟨i, hi⟩ := (ZMod.exists_sq_eq_neg_one_iff (p := p)).mpr hp
  have hy : y ≠ 0 := by
    rintro rfl
    simp at h
  refine hd ⟨i / y, ?_⟩
  rw [div_mul_div_comm, ← hi, ← sq, eq_div_iff (pow_ne_zero 2 hy)]
  exact eq_neg_of_add_eq_zero_left h

section FiveModEight

variable (hp : p % 8 = 5)

include hp

theorem two_pow_half : (2 : ZMod p) ^ (p / 2) = -1 := by
  have htwo : ¬ IsSquare (2 : ZMod p) := by
    rw [ZMod.exists_sq_eq_two_iff (by rintro rfl; simp at hp)]
    omega
  have hne : (2 : ZMod p) ≠ 0 := by
    intro h
    rw [h] at htwo
    exact htwo IsSquare.zero
  rw [ZMod.euler_criterion p hne] at htwo
  exact (ZMod.pow_div_two_eq_neg_one_or_one p hne).resolve_left htwo

/-- The power of a square is a root of it or of its negation. -/
theorem pow_sq_eq (ha : IsSquare a) :
    (a ^ ((p + 3) / 8)) ^ 2 = a ∨ (a ^ ((p + 3) / 8)) ^ 2 = -a := by
  rw [← sq_eq_sq_iff_eq_or_eq_neg, ← pow_mul, ← pow_mul]
  by_cases hzero : a = 0
  · have hexponent : (p + 3) / 8 * (2 * 2) ≠ 0 := by omega
    rw [hzero, zero_pow hexponent, zero_pow two_ne_zero]
  · have hexponent : (p + 3) / 8 * (2 * 2) = p / 2 + 2 := by omega
    rw [hexponent, pow_add, (ZMod.euler_criterion p hzero).mp ha, one_mul]

/-- The two candidates decide whether there is a root. -/
theorem isSquare_iff : IsSquare a ↔ (a ^ ((p + 3) / 8)) ^ 2 = a ∨
    (a ^ ((p + 3) / 8) * 2 ^ ((p - 1) / 4)) ^ 2 = a := by
  constructor
  · intro ha
    refine (pow_sq_eq hp ha).imp_right fun hneg ↦ ?_
    have hexponent : (p - 1) / 4 * 2 = p / 2 := by omega
    rw [mul_pow, hneg, ← pow_mul, hexponent, two_pow_half hp, mul_neg_one, neg_neg]
  · rintro (h | h)
    · exact ⟨_, (h.symm.trans (sq _))⟩
    · exact ⟨_, (h.symm.trans (sq _))⟩

end FiveModEight

end FundingVaults.Root
