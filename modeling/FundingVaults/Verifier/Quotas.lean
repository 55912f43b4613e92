import FundingVaults.LaunchV7.Limits
import FundingVaults.Verifier.Codec

/-!
# The split of the capacity

The program divides a capacity between its two roles in `u128` arithmetic and narrows the parts to
`u64`; the verifier divides it in integers.  Both compute the proportional division of `Apportion`:
nothing overflows, nothing is lost when a part is narrowed, and the treasury takes what the founder
loses to rounding.
-/

namespace FundingVaults.Verifier

open LaunchV7

/-! ## The verifier's arithmetic -/

/-- `quotas`. -/
def quotas (capacity founder treasury : ℤ) (eligible : Bool) : Except String (List ℤ) := do
  require (∀ x ∈ [capacity, founder, treasury], 0 ≤ x ∧ x ≤ 2 ^ 64 - 1) "INVALID_U64"
  if !eligible then
    pure [0, min capacity treasury]
  else if founder + treasury = 0 then
    pure [0, 0]
  else
    let total := min capacity (founder + treasury)
    let f := (total * founder).fdiv (founder + treasury)
    pure [f, total - f]

/-- `annual_caps`. -/
def annualCaps (rule : Rule) : List ℤ :=
  [rule.founderBasis, rule.treasuryBasis].map fun basis ↦ (basis * rule.releaseBps).fdiv 10000

/-! ## The program's arithmetic -/

/-- A `u128` value, `none` on overflow. -/
def wide (x : ℕ) : Option ℕ := if x < 2 ^ 128 then some x else none

/-- A `u64` value, `none` when the cast loses something. -/
def narrow (x : ℕ) : Option U64 := if h : x < 2 ^ 64 then some ⟨x, h⟩ else none

/-- A difference of unsigned values, `none` on underflow. -/
def minus (x y : ℕ) : Option ℕ := if y ≤ x then some (x - y) else none

/-- `reserved_quotas` with every operation and every cast checked. -/
def checkedQuotas (capacity founder treasury : U64) (eligible : Bool) : Option (PerRole U64) :=
  if !eligible then
    some ⟨0, min capacity treasury⟩
  else do
    let denominator ← wide (founder.val + treasury.val)
    if denominator = 0 then
      some ⟨0, 0⟩
    else do
      let available := min capacity.val denominator
      let product ← wide (available * founder.val)
      let f := product / denominator
      let rest ← minus available f
      let founderQuota ← narrow f
      let treasuryQuota ← narrow rest
      some ⟨founderQuota, treasuryQuota⟩

theorem wide_eq {x : ℕ} (h : x < 2 ^ 128) : wide x = some x := if_pos h

theorem narrow_eq {x : ℕ} (h : x < 2 ^ 64) : narrow x = some (U64.ofNat x) := by
  rw [narrow, dif_pos h]
  congr
  exact (Nat.mod_eq_of_lt h).symm

theorem checkedQuotas_eq (c f t : U64) (eligible : Bool) :
    checkedQuotas c f t eligible = some (reservedQuotas c f t eligible) := by
  cases eligible with
  | false => rfl
  | true =>
    have hf := f.isLt
    have ht := t.isLt
    have hfirst := Apportion.first_le c.val f.val t.val
    have hsecond := Apportion.second_le c.val f.val t.val
    have hleft := Apportion.first_le_available c.val f.val t.val
    simp only [Apportion.first, Apportion.second, Apportion.available] at hfirst hsecond hleft
    simp only [checkedQuotas, reservedQuotas, Bool.not_true, Bool.false_eq_true, if_false,
      wide_eq (show f.val + t.val < 2 ^ 128 by omega), Option.bind_eq_bind, Option.bind_some]
    split
    · rfl
    · have hproduct : min c.val (f.val + t.val) * f.val < 2 ^ (64 + 64) :=
        mul_lt_two_pow (Nat.lt_of_le_of_lt (Nat.min_le_left _ _) c.isLt) hf
      rw [wide_eq hproduct, Option.bind_some, minus, if_pos hleft, Option.bind_some,
        narrow_eq (hfirst.trans_lt hf), Option.bind_some, narrow_eq (hsecond.trans_lt ht),
        Option.bind_some]

/-- The verifier computes the program's quotas. -/
theorem quotas_eq (c f t : U64) (eligible : Bool) :
    quotas c.val f.val t.val eligible = .ok [(reservedQuotas c f t eligible).founder.val,
      (reservedQuotas c f t eligible).treasury.val] := by
  have hrange : ∀ x ∈ [(c.val : ℤ), (f.val : ℤ), (t.val : ℤ)], 0 ≤ x ∧ x ≤ 2 ^ 64 - 1 := by
    have hc := c.isLt
    have hf := f.isLt
    have ht := t.isLt
    simp only [List.mem_cons, List.not_mem_nil, or_false]
    rintro x (rfl | rfl | rfl) <;> omega
  simp only [quotas, bind_eq_ok, require_eq_ok, exists_const]
  refine ⟨hrange, ?_⟩
  cases eligible with
  | false => simp [reservedQuotas, pure, Except.pure]
  | true =>
    rw [reservedQuotas_founder, reservedQuotas_treasury, if_pos rfl,
      Apportion.second, Nat.cast_sub (Apportion.first_le_available _ _ _), Apportion.first,
      Apportion.available]
    by_cases hzero : f.val + t.val = 0
    · have hzero' : (f.val : ℤ) + t.val = 0 := by omega
      simp [hzero, hzero', pure, Except.pure]
    · have hzero' : ¬ (f.val : ℤ) + t.val = 0 := by omega
      simp only [Bool.not_true, Bool.false_eq_true, if_false, if_neg hzero', pure_eq_ok]
      push_cast
      rw [Int.fdiv_eq_ediv_of_nonneg _ (by omega)]

/-- The verifier computes the program's annual caps. -/
theorem annualCaps_eq {r : AnnualRule} {f t : U64} (hf : annualCap r.founderBasis r.releaseBps = .ok f)
    (ht : annualCap r.treasuryBasis r.releaseBps = .ok t) :
    annualCaps (.of r) = [(f.val : ℤ), (t.val : ℤ)] := by
  obtain ⟨-, hf⟩ := annualCap_eq_ok.mp hf
  obtain ⟨-, ht⟩ := annualCap_eq_ok.mp ht
  rw [hf, ht, annualCaps, Rule.of]
  simp only [List.map_cons, List.map_nil]
  rw [Int.fdiv_eq_ediv_of_nonneg _ (by omega), Int.fdiv_eq_ediv_of_nonneg _ (by omega)]
  push_cast
  rfl

/-! ## Both -/

/-- The quotas of an eligible founder and of the treasury, from caps that are not both zero. -/
structure Apportions (c f t : U64) (q : PerRole U64) : Prop where
  sum : q.founder.val + q.treasury.val = min c.val (f.val + t.val)
  founder_le : q.founder ≤ f
  treasury_le : q.treasury ≤ t
  floor_le : (q.founder.val : ℚ) ≤ (min c.val (f.val + t.val) : ℕ) * f.val / (f.val + t.val : ℕ)
  lt_floor : (min c.val (f.val + t.val) : ℕ) * f.val / (f.val + t.val : ℕ) <
    (q.founder.val + 1 : ℚ)
  /-- The treasury gains what the founder loses. -/
  remainder : (q.treasury.val : ℚ) -
      (min c.val (f.val + t.val) : ℕ) * t.val / (f.val + t.val : ℕ) =
    (min c.val (f.val + t.val) : ℕ) * f.val / (f.val + t.val : ℕ) - q.founder.val

/-- The split, in the program and in the verifier. -/
structure Split (c f t : U64) : Prop where
  eligible : 0 < f.val + t.val → Apportions c f t (reservedQuotas c f t true)
  monotone : ∀ c', c ≤ c' → ∀ r,
    (reservedQuotas c f t true).get r ≤ (reservedQuotas c' f t true).get r
  ineligible : reservedQuotas c f t false = ⟨0, min c t⟩
  empty : f.val + t.val = 0 → ∀ eligible, reservedQuotas c f t eligible = ⟨0, 0⟩
  /-- No operation overflows, and no cast loses anything. -/
  checked : ∀ eligible, checkedQuotas c f t eligible = some (reservedQuotas c f t eligible)
  verifier : ∀ eligible, quotas c.val f.val t.val eligible =
    .ok [(reservedQuotas c f t eligible).founder.val, (reservedQuotas c f t eligible).treasury.val]

theorem reservedQuotas_apportions (c f t : U64) (h : 0 < f.val + t.val) :
    Apportions c f t (reservedQuotas c f t true) := by
  have hfounder : (reservedQuotas c f t true).founder.val = Apportion.first c.val f.val t.val :=
    reservedQuotas_founder
  have htreasury : (reservedQuotas c f t true).treasury.val = Apportion.second c.val f.val t.val :=
    reservedQuotas_treasury
  refine ⟨?_, ?_, ?_, ?_, ?_, ?_⟩
  · rw [hfounder, htreasury]
    exact Apportion.first_add_second _ _ _
  · rw [Fin.le_def, hfounder]
    exact Apportion.first_le _ _ _
  · rw [Fin.le_def, htreasury]
    exact Apportion.second_le _ _ _
  · rw [hfounder]
    exact Apportion.first_le_share _ _ _
  · rw [hfounder]
    exact Apportion.share_lt _ _ _
  · rw [hfounder, htreasury]
    have hremainder := Apportion.second_sub_share (c := c.val) h
    rwa [Apportion.share, Apportion.available_comm _ t.val, Nat.add_comm t.val] at hremainder

theorem quotas_split (c f t : U64) : Split c f t where
  eligible := reservedQuotas_apportions c f t
  monotone c' hc r := by
    cases r with
    | founder =>
      change (reservedQuotas c f t true).founder.val ≤ (reservedQuotas c' f t true).founder.val
      rw [reservedQuotas_founder, reservedQuotas_founder]
      exact Apportion.first_mono hc
    | treasury =>
      change (reservedQuotas c f t true).treasury.val ≤ (reservedQuotas c' f t true).treasury.val
      rw [reservedQuotas_treasury, reservedQuotas_treasury]
      exact Apportion.second_mono hc
  ineligible := rfl
  empty h eligible := by
    cases eligible with
    | false =>
      have ht : t = 0 := Fin.ext (Nat.eq_zero_of_add_eq_zero_left h)
      subst ht
      exact congrArg _ (min_eq_right (Fin.zero_le c))
    | true => simp [reservedQuotas, h]
  checked := checkedQuotas_eq c f t
  verifier := quotas_eq c f t

end FundingVaults.Verifier
