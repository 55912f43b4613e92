import FundingVaults.Lib.Checked
import Mathlib.Data.Rat.Floor

/-!
# The monthly rule of the covenant

Transcription of the data model and the evaluator of `purpose_bound_vault.py`: a request states one
month of two vaults, and the decision lists the reasons that speak against it.

The annotations of a request say `int`, but nothing enforces them, and a request may come from JSON:
its numbers are rationals here, and `//` rounds down.  The amount of an event is always an integer.
-/

namespace FundingVaults.Covenant

/-! ## Requests -/

def BPS_DENOMINATOR : ℚ := 10000
def MONTHS_PER_YEAR : ℚ := 12

inductive EventKind where
  | SALE
  | OTC
  | GRANT
  | FREE_WALLET_TRANSFER
  | COLLATERAL
  | ECONOMIC_RIGHT_TRANSFER
  | EQUAL_OR_STRICTER_LOCK_MIGRATION
deriving DecidableEq, Repr

def EventKind.value : EventKind → String
  | .SALE => "sale"
  | .OTC => "otc"
  | .GRANT => "grant"
  | .FREE_WALLET_TRANSFER => "free_wallet_transfer"
  | .COLLATERAL => "collateral"
  | .ECONOMIC_RIGHT_TRANSFER => "economic_right_transfer"
  | .EQUAL_OR_STRICTER_LOCK_MIGRATION => "equal_or_stricter_lock_migration"

structure ReleaseEvent where
  kind : EventKind
  amount : ℤ
  nonneg : 0 ≤ amount

/-- What a request is built from. -/
structure Fields where
  periodId : String
  beneficiaryLockedBalanceAtYearStart : ℚ
  purposeLockedBalanceAtYearStart : ℚ
  annualReleaseBps : ℚ
  eligibleTrailing30dSpotVolume : ℚ
  marketCapacityBps : ℚ
  beneficiaryMonthsSinceGenesis : ℚ
  beneficiaryCliffMonths : ℚ := 24
  beneficiaryEvents : List ReleaseEvent := []
  purposeEvents : List ReleaseEvent := []
  purposeApprovedNeed : ℚ := 0
  hardCeiling : Option ℚ := none

/-- `[0-9]{4}-(0[1-9]|1[0-2])`. -/
def periodIdMatches (s : String) : Bool :=
  match s.toList with
  | [a, b, c, d, '-', e, f] =>
    a.isDigit && b.isDigit && c.isDigit && d.isDigit &&
      ((e == '0' && f.isDigit && f != '0') || (e == '1' && (f == '0' || f == '1' || f == '2')))
  | _ => false

/-- `__post_init__`. -/
def Fields.postInit (f : Fields) : Except String Unit := do
  require (periodIdMatches f.periodId) "period_id must use YYYY-MM"
  require (∀ value ∈ [f.beneficiaryLockedBalanceAtYearStart, f.purposeLockedBalanceAtYearStart,
      f.eligibleTrailing30dSpotVolume, f.beneficiaryMonthsSinceGenesis, f.beneficiaryCliffMonths,
      f.purposeApprovedNeed], ¬ value < 0)
    "balances, volume, time, cliff, and need must be non-negative"
  require (0 ≤ f.annualReleaseBps ∧ f.annualReleaseBps ≤ 500)
    "annual release rate must be between 0 and 500 bps"
  require (0 ≤ f.marketCapacityBps ∧ f.marketCapacityBps ≤ 500)
    "market capacity rate must be between 0 and 500 bps"
  require (∀ ceiling ∈ f.hardCeiling, ¬ ceiling ≤ 0)
    "hard ceiling must be positive, or None to leave it inert"

/-- A request exists only if its fields pass the checks. -/
structure ReleaseRequest extends Fields where
  valid : toFields.postInit = .ok ()

/-! ## Decisions -/

structure ReleaseDecision where
  allowed : Bool
  reasons : List String
  beneficiaryNetRelease : ℤ
  purposeNetRelease : ℤ
  beneficiaryMonthlyRateCap : ℤ
  purposeMonthlyRateCap : ℤ
  marketAbsorptionCapacity : ℤ
  aggregateMarketCapacity : ℚ

/-- `a // b`. -/
def floorDiv (a b : ℚ) : ℤ := ⌊a / b⌋

/-- Only the migration to an equal or stricter lock is exempt. -/
def netRelease (events : List ReleaseEvent) : ℤ :=
  ((events.filter fun event ↦ event.kind ≠ .EQUAL_OR_STRICTER_LOCK_MIGRATION).map
    ReleaseEvent.amount).sum

def monthlyRateCap (balance annualReleaseBps : ℚ) : ℤ :=
  floorDiv (floorDiv (balance * annualReleaseBps) BPS_DENOMINATOR) MONTHS_PER_YEAR

def evaluateRelease (request : ReleaseRequest) : ReleaseDecision :=
  let beneficiaryRelease := netRelease request.beneficiaryEvents
  let purposeRelease := netRelease request.purposeEvents
  let beneficiaryCap :=
    monthlyRateCap request.beneficiaryLockedBalanceAtYearStart request.annualReleaseBps
  let purposeCap := monthlyRateCap request.purposeLockedBalanceAtYearStart request.annualReleaseBps
  let absorption :=
    floorDiv (request.eligibleTrailing30dSpotVolume * request.marketCapacityBps) BPS_DENOMINATOR
  let marketCap : ℚ :=
    match request.hardCeiling with
    | none => absorption
    | some ceiling => min (absorption : ℚ) ceiling
  let reasons : List String :=
    (if request.beneficiaryMonthsSinceGenesis < request.beneficiaryCliffMonths ∧
        0 < beneficiaryRelease then ["BENEFICIARY_CLIFF"] else []) ++
    (if beneficiaryCap < beneficiaryRelease then ["BENEFICIARY_MONTHLY_RATE_CAP"] else []) ++
    (if purposeCap < purposeRelease then ["PURPOSE_MONTHLY_RATE_CAP"] else []) ++
    (if request.purposeApprovedNeed < purposeRelease then ["PURPOSE_APPROVED_NEED"] else []) ++
    (if marketCap < beneficiaryRelease + purposeRelease then ["AGGREGATE_MARKET_CAPACITY"] else [])
  { allowed := reasons.isEmpty
    reasons
    beneficiaryNetRelease := beneficiaryRelease
    purposeNetRelease := purposeRelease
    beneficiaryMonthlyRateCap := beneficiaryCap
    purposeMonthlyRateCap := purposeCap
    marketAbsorptionCapacity := absorption
    aggregateMarketCapacity := marketCap }

theorem ReleaseRequest.marketRate_le (request : ReleaseRequest) :
    request.marketCapacityBps ≤ 500 := by
  have hvalid := request.valid
  simp only [Fields.postInit, bind_eq_ok, require_eq_ok, exists_const] at hvalid
  exact hvalid.2.2.2.1.2

/-! ## What the rule says -/

theorem floorDiv_natCast (a b : ℕ) : floorDiv a b = (a / b : ℕ) := by
  rw [floorDiv, Rat.floor_natCast_div_natCast]
  rfl

/-- On whole numbers the rate is two floored divisions. -/
theorem monthlyRateCap_natCast (balance bps : ℕ) :
    monthlyRateCap balance bps = (balance * bps / 10000 / 12 : ℕ) := by
  have hinner : floorDiv ((balance : ℚ) * bps) BPS_DENOMINATOR = (balance * bps / 10000 : ℕ) := by
    rw [← floorDiv_natCast]
    push_cast
    rfl
  have houter := floorDiv_natCast (balance * bps / 10000) 12
  rw [monthlyRateCap, hinner, MONTHS_PER_YEAR]
  exact_mod_cast houter

/-- Two pools' releases keep the monthly rule. -/
structure Fields.Allows (f : Fields) (beneficiary purpose : ℚ) : Prop where
  cliff : f.beneficiaryMonthsSinceGenesis < f.beneficiaryCliffMonths → beneficiary ≤ 0
  beneficiaryRate : beneficiary ≤
    monthlyRateCap f.beneficiaryLockedBalanceAtYearStart f.annualReleaseBps
  purposeRate : purpose ≤ monthlyRateCap f.purposeLockedBalanceAtYearStart f.annualReleaseBps
  need : purpose ≤ f.purposeApprovedNeed
  absorption : beneficiary + purpose ≤
    floorDiv (f.eligibleTrailing30dSpotVolume * f.marketCapacityBps) BPS_DENOMINATOR
  ceiling : ∀ ceiling ∈ f.hardCeiling, beneficiary + purpose ≤ ceiling

/-- A month is allowed exactly if its net releases keep the rule. -/
theorem evaluateRelease_allowed {request : ReleaseRequest} :
    (evaluateRelease request).allowed ↔
      request.Allows (netRelease request.beneficiaryEvents) (netRelease request.purposeEvents) := by
  have hmarket : ∀ (absorption : ℤ) (ceiling : Option ℚ) (x : ℚ),
      ¬ (match ceiling with
        | none => (absorption : ℚ)
        | some c => min (absorption : ℚ) c) < x ↔
      x ≤ absorption ∧ ∀ c ∈ ceiling, x ≤ c := by
    intro absorption ceiling x
    cases ceiling with
    | none => simp
    | some c => simp
  simp only [evaluateRelease, List.isEmpty_iff, List.append_eq_nil_iff, ite_eq_right_iff,
    List.cons_ne_self, imp_false, hmarket]
  constructor
  · rintro ⟨⟨⟨⟨hcliff, hb⟩, hp⟩, hneed⟩, habsorption, hceiling⟩
    exact {
      cliff := fun hlt ↦ by exact_mod_cast not_lt.mp fun hpos ↦ hcliff ⟨hlt, hpos⟩
      beneficiaryRate := by exact_mod_cast not_lt.mp hb
      purposeRate := by exact_mod_cast not_lt.mp hp
      need := not_lt.mp hneed
      absorption := habsorption
      ceiling := hceiling }
  · intro h
    refine ⟨⟨⟨⟨?_, ?_⟩, ?_⟩, not_lt.mpr h.need⟩, h.absorption, h.ceiling⟩
    · rintro ⟨hlt, hpos⟩
      exact absurd (h.cliff hlt) (by exact_mod_cast not_le.mpr hpos)
    · exact not_lt.mpr (by exact_mod_cast h.beneficiaryRate)
    · exact not_lt.mpr (by exact_mod_cast h.purposeRate)

end FundingVaults.Covenant
