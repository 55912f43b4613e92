import FundingVaults.LaunchV7.State
import FundingVaults.Lib.Apportion

/-!
# Reserved capacity

Transcription of `capacity.rs`.  A release consumes from a quota that is computed from the
counters as they stood at the start of the period, so repeated calls in one period cannot change
the weights of the split.
-/

namespace FundingVaults.LaunchV7

/-! ## Caps and quotas -/

def annualCap (basis : U64) (bps : U16) : Result U64 := do
  require (bps ≤ MAX_RELEASE_BPS) LaunchError.InvalidAnnualRule
  pure (U64.ofNat (basis.val * bps.val / 10000))

def reservedQuotas (capacity founder treasury : U64) (eligible : Bool) : PerRole U64 :=
  if !eligible then
    ⟨0, min capacity treasury⟩
  else
    let denominator := founder.val + treasury.val
    if denominator = 0 then
      ⟨0, 0⟩
    else
      let available := min capacity.val denominator
      -- Both factors are at most `u64::MAX`, hence the product fits a `u128`.
      let f := available * founder.val / denominator
      ⟨U64.ofNat f, U64.ofNat (available - f)⟩

def validateRule (config : LaunchConfig) (rule : AnnualRule) : Result Unit := do
  require (rule.endPeriod > rule.startPeriod ∧ rule.founderBasis ≤ config.founderAmount ∧
    rule.treasuryBasis ≤ config.treasuryAmount ∧ rule.sourceHash ≠ Bytes32.zero)
    LaunchError.InvalidAnnualRule
  let f ← annualCap rule.founderBasis rule.releaseBps
  let t ← annualCap rule.treasuryBasis rule.releaseBps
  require (rule.sharedCap.val ≤ f.val + t.val) LaunchError.InvalidAnnualRule
  let _ ← periodStart config.t0 rule.endPeriod

def validateRules (config : LaunchConfig) : Result Unit := do
  require ((config.rule 0).startPeriod = 0) LaunchError.InvalidAnnualRule
  require ((config.rule 0).endPeriod = (config.rule 1).startPeriod)
    LaunchError.InvalidAnnualRule
  validateRule config (config.rule 0)
  validateRule config (config.rule 1)

/-! ## Window limits -/

structure WindowLimits where
  period : U64
  annualIndex : U8
  periodUsed : PerRole U64
  annualUsed : PerRole U64
  annualCaps : PerRole U64
  caps : PerRole U64
  quotas : PerRole U64
  capacity : U64
  correctionPause : Bool
deriving DecidableEq

def sub (a b : U64) : Result U64 := okOr (a.checkedSub b) LaunchError.InvalidAccounting

def AnnualRule.covers (r : AnnualRule) (period : U64) : Prop :=
  period ≥ r.startPeriod ∧ period < r.endPeriod

instance (r : AnnualRule) (period : U64) : Decidable (r.covers period) :=
  inferInstanceAs (Decidable (_ ∧ _))

/-- `iter().position(..)` over the two rules. -/
def position (rules : Vector AnnualRule 2) (period : U64) : Option (Fin 2) :=
  (List.finRange 2).find? fun i ↦ (rules.get i).covers period

def windowLimits (p : LaunchPolicyV7) (now : I64) : Result WindowLimits := do
  let period ← periodAt p.config.t0 now
  require (period ≥ p.period) LaunchError.ClockRollback
  let index ← okOr (position p.config.annualRules period) LaunchError.InvalidAnnualRule
  require (index.val ≥ p.annualIndex.toNat) LaunchError.ClockRollback
  let stored ← okOr (p.founderPeriodUsed.checkedAdd p.treasuryPeriodUsed)
    LaunchError.InvalidAccounting
  require (p.sharedUsed = stored) LaunchError.InvalidAccounting
  let used : PerRole U64 :=
    if period = p.period then ⟨p.founderPeriodUsed, p.treasuryPeriodUsed⟩ else ⟨0, 0⟩
  let annualUsed : PerRole U64 :=
    if index.val = p.annualIndex.toNat then ⟨p.founderAnnualUsed, p.treasuryAnnualUsed⟩
    else ⟨0, 0⟩
  let rule := (p.config.rule index)
  let annualF ← annualCap rule.founderBasis rule.releaseBps
  let annualT ← annualCap rule.treasuryBasis rule.releaseBps
  let priorF ← sub annualUsed.founder used.founder
  let priorT ← sub annualUsed.treasury used.treasury
  let lifetimeF ← sub p.founderReleasedTotal used.founder
  let lifetimeT ← sub p.treasuryReleasedTotal used.treasury
  let annualLeftF ← sub annualF priorF
  let principalLeftF ← sub p.config.founderAmount lifetimeF
  let capF := min (min (min p.config.founderPeriodCap (annualF / RATE_DIVISOR)) annualLeftF)
    principalLeftF
  let annualLeftT ← sub annualT priorT
  let principalLeftT ← sub p.config.treasuryAmount lifetimeT
  let capT := min (min (min p.config.treasuryPeriodCap (annualT / RATE_DIVISOR)) annualLeftT)
    principalLeftT
  let sharedPrior ← okOr (priorF.checkedAdd priorT) LaunchError.Overflow
  let sharedLeft ← sub rule.sharedCap sharedPrior
  let capacity := min (min p.reportCapacity p.config.sharedHardCap) sharedLeft
  let cliff ← okOr (p.config.t0.checkedAdd CLIFF) LaunchError.Overflow
  let quotas := reservedQuotas capacity capF capT (now ≥ cliff)
  pure {
    period
    annualIndex := UInt8.ofNat index.val
    periodUsed := used
    annualUsed
    annualCaps := ⟨annualF, annualT⟩
    caps := ⟨capF, capT⟩
    quotas
    capacity
    correctionPause := used.founder > quotas.founder ∨ used.treasury > quotas.treasury }

def consume (p : LaunchPolicyV7) (v : LaunchVaultV7) (now : I64) (amount : U64) :
    Result (LaunchPolicyV7 × LaunchVaultV7) := do
  let limits ← windowLimits p now
  require (¬ limits.correctionPause) LaunchError.CapacityCorrectionPause
  let role ← okOr (Role.ofU8 v.role) LaunchError.InvalidConfig
  let total : PerRole U64 := ⟨p.founderReleasedTotal, p.treasuryReleasedTotal⟩
  require (v.releasedTotal = total.get role) LaunchError.InvalidAccounting
  let usedRole ← okOr ((limits.periodUsed.get role).checkedAdd amount) LaunchError.Overflow
  let used := limits.periodUsed.set role usedRole
  let annualRole ← okOr ((limits.annualUsed.get role).checkedAdd amount) LaunchError.Overflow
  let annualUsed := limits.annualUsed.set role annualRole
  let lifetime ← okOr ((total.get role).checkedAdd amount) LaunchError.Overflow
  let shared ← okOr (used.founder.checkedAdd used.treasury) LaunchError.Overflow
  require (usedRole ≤ limits.quotas.get role) LaunchError.ReservedQuotaExceeded
  require (annualRole ≤ limits.annualCaps.get role ∧ lifetime ≤ v.principal ∧
    shared ≤ limits.capacity) LaunchError.CapacityExceeded
  -- No state is committed before all arithmetic and accounting checks pass.
  let p := { p with
    period := limits.period
    annualIndex := limits.annualIndex
    founderPeriodUsed := used.founder
    treasuryPeriodUsed := used.treasury
    founderAnnualUsed := annualUsed.founder
    treasuryAnnualUsed := annualUsed.treasury
    sharedUsed := shared }
  let p := match role with
    | .founder => { p with founderReleasedTotal := lifetime }
    | .treasury => { p with treasuryReleasedTotal := lifetime }
  pure (p, { v with
    period := limits.period
    periodUsed := usedRole
    releasedTotal := lifetime })

end FundingVaults.LaunchV7
