import FundingVaults.Verifier.Exporter
import FundingVaults.Verifier.Quotas

/-!
# Accounts and limits of a launch graph

Transcription of `verify` of `launch_v7_verifier.py` and of the functions it calls.  The raw
accounts of a snapshot are decoded, and the history of the policy is rebuilt from its proposals and
approvals: who held which key, at which epoch, and when.

What the source keeps in a pair of lists or under the names of the two roles is `PerRole` here, and
what it keeps per kind of change is a pair.  `expected_masks` is only read with a default, so it is
a function.  A loop is a fold over its variables.
-/

namespace FundingVaults.Verifier

open LaunchV7 (PerRole)

def TOKEN : String := "TokenkegQfeZyiNwAJbNbGKPFXCWuBvf9Ss623VQ5DA"
def NOTICE : ℤ := 7776000

/-- `bytes(32)`. -/
def ZEROS : Bytes := List.replicate 32 0

/-! ## Accounts -/

/-- A list of the two roles' values. -/
def both {α : Type} (f : LaunchV7.Role → α) : PerRole α := ⟨f .founder, f .treasury⟩

@[simp] theorem get_both {α : Type} (f : LaunchV7.Role → α) (r : LaunchV7.Role) :
    (both f).get r = f r := by
  cases r <;> rfl

instance (P : LaunchV7.Role → Prop) [DecidablePred P] : Decidable (∀ r, P r) :=
  decidable_of_iff (P .founder ∧ P .treasury) LaunchV7.Role.forall_role.symm

namespace Config

variable (c : Config)

def amount : PerRole ℤ := ⟨c.founderAmount, c.treasuryAmount⟩
def periodCap : PerRole ℤ := ⟨c.founderPeriodCap, c.treasuryPeriodCap⟩
def committee : PerRole (List String) := ⟨c.founderRecoveryKeys, c.treasuryRecoveryKeys⟩

end Config

namespace Policy

variable (p : Policy)

def original : PerRole String := ⟨p.founder, p.treasury⟩
def periodUsed : PerRole ℤ := ⟨p.founderPeriodUsed, p.treasuryPeriodUsed⟩
def annualUsed : PerRole ℤ := ⟨p.founderAnnualUsed, p.treasuryAnnualUsed⟩
def releasedTotal : PerRole ℤ := ⟨p.founderReleasedTotal, p.treasuryReleasedTotal⟩

/-- `p["withdrawal"][i]`, of a list that `read_policy` makes of two elements. -/
def role (r : LaunchV7.Role) : Except String Role :=
  okOr p.withdrawal[r.toU8.toNat]? "list index out of range"

end Policy

structure Token where
  address : String
  mint : String
  owner : String
  amount : ℤ
  delegate : ℤ
  state : ℤ
  native : ℤ
  delegatedAmount : ℤ
  closeAuthority : ℤ
deriving DecidableEq

/-- The fields of a token account. -/
def tokenFields (address : String) : Reader Reason Token := do
  let mint ← key
  let owner ← key
  let amount ← number .Q
  let delegate ← number .I
  let _ ← take 32
  let state ← number .B
  let native ← number .I
  let _ ← take 8
  let delegatedAmount ← number .Q
  let closeAuthority ← number .I
  let _ ← take 32
  finish
  pure { address, mint, owner, amount, delegate, state, native, delegatedAmount, closeAuthority }

section Accounts

variable (chain : Chain) (s : Snapshot)

/-- An account of the program, with its address. -/
def Snapshot.record {α : Type} (name : String) (read : Reader Reason α) :
    Except String (String × α) := do
  let (address, data) ← s.located name PROGRAM
  let a ← (read.all data).mapError Reason.text
  pure (address, a)

/-- `read_token`. -/
def Snapshot.readToken (name : String) : Except String Token := do
  let (address, data) ← s.located name TOKEN
  let t ← ((tokenFields address).all data).mapError Reason.text
  require ((t.delegate = 0 ∨ t.delegate = 1) ∧ (t.closeAuthority = 0 ∨ t.closeAuthority = 1))
    "TOKEN_OPTION"
  require (t.state = 1 ∧ t.native = 0) "TOKEN_STATE"
  pure t

/-- The supply and the decimals of a mint without authorities. -/
def mintFields : Reader String (ℤ × ℤ) := do
  let short := "TRUNCATED_ACCOUNT"
  let authority ← Reader.number short .I
  Reader.check (authority = 0) "MINT_AUTHORITY"
  let _ ← Reader.take short 32
  let supply ← Reader.number short .Q
  let decimals ← Reader.number short .B
  let initialized ← Reader.number short .B
  Reader.check (initialized = 1) "MINT_FREEZE_AUTHORITY"
  let freeze ← Reader.number short .I
  Reader.check (freeze = 0) "MINT_FREEZE_AUTHORITY"
  let _ ← Reader.take short 32
  Reader.finish "TRAILING_ACCOUNT_BYTES"
  pure (supply, decimals)

def Snapshot.readMint (p : Policy) : Except String (ℤ × ℤ) := do
  let (address, data) ← s.located "mint" TOKEN
  require (address = p.mint) "MINT_AUTHORITY"
  mintFields.all data

/-- `find_program_address` of the program, with the address as text. -/
def derived (seeds : List Bytes) : Except String (String × ℤ) := do
  let program ← pubkey PROGRAM
  let (expected, bump) ← findProgramAddress chain.sha256 seeds program
  pure (base58Encode expected, bump)

/-- The names of a kind of account. -/
def Snapshot.named (label : String) : List String :=
  s.accounts.keys.filter (startsWith · label)

/-- Two sets of names are equal. -/
def sameNames (xs ys : List String) : Prop := xs ⊆ ys ∧ ys ⊆ xs

instance (xs ys : List String) : Decidable (sameNames xs ys) :=
  inferInstanceAs (Decidable (_ ∧ _))

/-- Three distinct keys, none of them zero. -/
def registered (keys : List String) : Except String Bool := do
  let decoded ← keys.mapM pubkey
  pure (keys.dedup.length = 3 ∧ ∀ k ∈ decoded, k ≠ ZEROS)

end Accounts

/-! ## Limits -/

def validateConfig (c : Config) (supply : ℤ) : Except String Unit := do
  require (0 < c.founderAmount ∧ 0 < c.treasuryAmount ∧
    c.founderAmount + c.treasuryAmount ≤ supply) "PRINCIPAL_CONFIG"
  require (∀ r, 0 < c.periodCap.get r ∧ c.periodCap.get r ≤ c.amount.get r) "PERIOD_CAP_CONFIG"
  require (0 < c.sharedHardCap ∧ 1 ≤ c.maxReportAge ∧ c.maxReportAge ≤ 7 * 86400)
    "CAPACITY_CONFIG"
  require (c.t0 + CLIFF ≤ 2 ^ 63 - 1) "TIME_OVERFLOW"
  let first ← okOr c.annualRules[0]? "list index out of range"
  let second ← okOr c.annualRules[1]? "list index out of range"
  require (first.startPeriod = 0 ∧ first.endPeriod = second.startPeriod) "ANNUAL_CONTINUITY"
  c.annualRules.forM fun rule ↦ do
    require (rule.startPeriod < rule.endPeriod ∧ rule.releaseBps ≤ 500 ∧
      rule.sourceHash ≠ String.ofList (List.replicate 64 '0')) "ANNUAL_RULE"
    require (rule.founderBasis ≤ c.founderAmount ∧ rule.treasuryBasis ≤ c.treasuryAmount)
      "ANNUAL_BASIS"
    require (rule.sharedCap ≤ (annualCaps rule).sum) "ANNUAL_SHARED_CAP"
    require (c.t0 + rule.endPeriod * PERIOD ≤ 2 ^ 63 - 1) "TIME_OVERFLOW"

/-- The limits of a period that a rule covers. -/
structure Projected where
  period : ℤ
  annualIndex : ℕ
  periodCaps : PerRole ℤ
  quotas : PerRole ℤ
  capacity : ℤ
  periodUsed : PerRole ℤ
  annualUsed : PerRole ℤ
  annualCaps : PerRole ℤ
  freshReport : Bool
  correctionPause : Bool
  available : PerRole ℤ

/-- What `projected_limits` returns: nothing is available when no rule covers the period. -/
inductive Projection where
  | blocked (period : ℤ)
  | limits (l : Projected)

namespace Projection

def period : Projection → ℤ
  | blocked period => period
  | limits l => l.period

def available : Projection → PerRole ℤ
  | blocked _ => ⟨0, 0⟩
  | limits l => l.available

end Projection

/-- A list of two elements. -/
def pairOf (xs : List ℤ) : Except String (PerRole ℤ) :=
  match xs with
  | [f, t] => .ok ⟨f, t⟩
  | _ => .error "list index out of range"

/-- The limits of a period, `rule` being the rule at `index` that covers it. -/
def projectRule (p : Policy) (now period : ℤ) (rule : Rule) (index : ℕ) :
    Except String Projected := do
  let c := p.config
  let used := if period = p.period then p.periodUsed else ⟨0, 0⟩
  let annualUsed := if (index : ℤ) = p.annualIndex then p.annualUsed else ⟨0, 0⟩
  let annual ← pairOf (annualCaps rule)
  let prior := both fun r ↦ annualUsed.get r - used.get r
  let caps := both fun r ↦ min (min (min (c.periodCap.get r) (annual.get r / 12))
    (annual.get r - prior.get r)) (c.amount.get r - (p.releasedTotal.get r - used.get r))
  let capacity := min (min p.reportCapacity c.sharedHardCap)
    (rule.sharedCap - (prior.founder + prior.treasury))
  require ((∀ r, 0 ≤ caps.get r) ∧ 0 ≤ capacity ∧ ∀ r, 0 ≤ prior.get r) "NEGATIVE_ACCOUNTING"
  let q ← quotas capacity caps.founder caps.treasury (decide (c.t0 + CLIFF ≤ now))
  let q ← pairOf q
  let pause := decide (q.founder < used.founder ∨ q.treasury < used.treasury)
  let fresh := p.reportValid && decide (p.reportEpoch = p.oracleEpoch ∧
    p.oracleActivatedAt ≤ p.reportAt ∧ 0 < p.reportSequence ∧ p.reportPeriod = period ∧
    c.t0 + period * PERIOD ≤ p.reportAt ∧ p.reportAt ≤ now ∧ now - p.reportAt ≤ c.maxReportAge)
  pure {
    period
    annualIndex := index
    periodCaps := caps
    quotas := q
    capacity
    periodUsed := used
    annualUsed
    annualCaps := annual
    freshReport := fresh
    correctionPause := pause
    available := if fresh ∧ ¬ pause ∧ c.t0 < now then both fun r ↦ q.get r - used.get r
      else ⟨0, 0⟩ }

def projectedLimits (p : Policy) (now : ℤ) : Except String Projection :=
  let c := p.config
  let period := (now - c.t0) / PERIOD
  match c.annualRules.zipIdx.find? fun x ↦
    decide (x.1.startPeriod ≤ period ∧ period < x.1.endPeriod) with
  | none => .ok (.blocked period)
  | some (rule, index) => .limits <$> projectRule p now period rule index

/-! ## The program's fields -/

section Fields

variable (c : LaunchV7.LaunchConfig) (p : LaunchV7.LaunchPolicyV7) (r : LaunchV7.Role)

@[simp] theorem get_amount : (Config.of c).amount.get r = (c.principal r).val := by cases r <;> rfl

@[simp] theorem get_periodCap : (Config.of c).periodCap.get r = (c.periodCap r).val := by
  cases r <;> rfl

@[simp] theorem get_original : (Policy.of p).original.get r = shown (p.owner r) := by
  cases r <;> rfl

@[simp] theorem get_periodUsed : (Policy.of p).periodUsed.get r = (p.periodUsed r).val := by
  cases r <;> rfl

@[simp] theorem get_annualUsed : (Policy.of p).annualUsed.get r = (p.annualUsed r).val := by
  cases r <;> rfl

@[simp] theorem get_releasedTotal :
    (Policy.of p).releasedTotal.get r = (p.releasedTotal r).val := by
  cases r <;> rfl

theorem role_of : (Policy.of p).role r = .ok (.of (p.withdrawal.get r)) := by cases r <;> rfl

theorem annualRules_of : (Config.of c).annualRules = [.of (c.rule 0), .of (c.rule 1)] := by
  have hlist : ∀ v : Vector LaunchV7.AnnualRule 2, v.toList = [v.get 0, v.get 1] := by
    intro v
    refine List.ext_getElem (by simp) fun i hi _ ↦ ?_
    rw [Vector.length_toList] at hi
    match i, hi with
    | 0, _ => rfl
    | 1, _ => rfl
  rw [Config.of, hlist]
  rfl

end Fields

/-! ## The program's limits -/

section Limits

open LaunchV7 (LaunchPolicyV7 LaunchConfig WindowLimits)

/-- The report of the policy is one that a release of the period `k` may use. -/
def Reportable (p : LaunchPolicyV7) (k : U64) (now : I64) : Prop :=
  p.reportValid = true ∧ p.reportEpoch = p.oracleEpoch ∧ p.oracleActivatedAt ≤ p.reportAt ∧
    0 < p.reportSequence ∧ p.reportPeriod = k ∧
    p.config.t0.val + k.val * 2592000 ≤ p.reportAt.val ∧ p.reportAt ≤ now ∧
    now.val - p.reportAt.val ≤ p.config.maxReportAge.val

instance (p : LaunchPolicyV7) (k : U64) (now : I64) : Decidable (Reportable p k now) :=
  inferInstanceAs (Decidable (_ ∧ _))

/-- What the program's limits are projected as. -/
def Projected.of (p : LaunchPolicyV7) (now : I64) (l : WindowLimits) (i : Fin 2) : Projected where
  period := l.period.val
  annualIndex := i
  periodCaps := both fun r ↦ (l.caps.get r).val
  quotas := both fun r ↦ (l.quotas.get r).val
  capacity := l.capacity.val
  periodUsed := both fun r ↦ (l.periodUsed.get r).val
  annualUsed := both fun r ↦ (l.annualUsed.get r).val
  annualCaps := both fun r ↦ (l.annualCaps.get r).val
  freshReport := decide (Reportable p l.period now)
  correctionPause := l.correctionPause
  available :=
    if Reportable p l.period now ∧ ¬ l.correctionPause ∧ p.config.t0 < now then
      both fun r ↦ ((l.quotas.get r).val : ℤ) - (l.periodUsed.get r).val
    else ⟨0, 0⟩

/-- The two searches for the rule of a period agree. -/
theorem find_rule (c : LaunchConfig) (k : U64) :
    ((Config.of c).annualRules.zipIdx.find? fun x ↦
      decide (x.1.startPeriod ≤ (k.val : ℤ) ∧ (k.val : ℤ) < x.1.endPeriod)) =
      (LaunchV7.position c.annualRules k).map fun i ↦ (Rule.of (c.rule i), i.val) := by
  have hcovers : ∀ i, decide ((Rule.of (c.rule i)).startPeriod ≤ (k.val : ℤ) ∧
      (k.val : ℤ) < (Rule.of (c.rule i)).endPeriod) = decide ((c.rule i).covers k) := by
    intro i
    refine decide_eq_decide.mpr ?_
    simp only [Rule.of, LaunchV7.AnnualRule.covers, Fin.le_def, Fin.lt_def, ge_iff_le]
    norm_cast
  have hrange : List.finRange 2 = [0, 1] := rfl
  change _ = ((List.finRange 2).find? fun i ↦ decide ((c.rule i).covers k)).map _
  rw [annualRules_of, hrange]
  simp only [List.zipIdx_cons, List.zipIdx_nil, List.find?_cons, List.find?_nil, hcovers]
  cases decide ((c.rule 0).covers k) with
  | true => rfl
  | false =>
    cases decide ((c.rule 1).covers k) with
    | true => rfl
    | false => rfl

variable {p : LaunchPolicyV7} {now : I64} {l : WindowLimits} {i : Fin 2} {k : U64}

/-- The verifier projects the rule that the program finds. -/
theorem projectedLimits_eq (hk : LaunchV7.periodAt p.config.t0 now = .ok k) :
    projectedLimits (.of p) now.val =
      (LaunchV7.position p.config.annualRules k).elim (.ok (.blocked k.val)) fun i ↦
        .limits <$> projectRule (.of p) now.val k.val (.of (p.config.rule i)) i := by
  have hperiod : (now.val - (Policy.of p).config.t0) / PERIOD = (k.val : ℤ) :=
    (LaunchV7.periodAt_eq_ok.mp hk).2.2.symm
  have hfind := find_rule p.config k
  simp only [projectedLimits, hperiod]
  rw [show (Policy.of p).config = .of p.config from rfl, hfind]
  cases LaunchV7.position p.config.annualRules k with
  | none => rfl
  | some i => rfl

theorem both_congr {α : Type} {f g : LaunchV7.Role → α} (h : ∀ r, f r = g r) :
    both f = both g := by
  rw [funext h]

variable (hl : LaunchV7.Limits p now l i)
include hl

theorem projected_used : (if (l.period.val : ℤ) = (Policy.of p).period then (Policy.of p).periodUsed
    else ⟨0, 0⟩) = both fun r ↦ ((l.periodUsed.get r).val : ℤ) := by
  have hiff : (l.period.val : ℤ) = (Policy.of p).period ↔ l.period = p.period := by
    rw [Fin.ext_iff]
    exact Nat.cast_inj
  refine PerRole.ext_get fun r ↦ ?_
  rw [get_both, hl.periodUsed, apply_ite PerRole.get, ite_apply, get_periodUsed]
  simp only [hiff]
  split
  · rfl
  · cases r <;> rfl

theorem projected_annualUsed : (if ((i.val : ℕ) : ℤ) = (Policy.of p).annualIndex then
    (Policy.of p).annualUsed else ⟨0, 0⟩) = both fun r ↦ ((l.annualUsed.get r).val : ℤ) := by
  have hiff : ((i.val : ℕ) : ℤ) = (Policy.of p).annualIndex ↔ i.val = p.annualIndex.toNat :=
    Nat.cast_inj
  refine PerRole.ext_get fun r ↦ ?_
  rw [get_both, hl.annualUsed, apply_ite PerRole.get, ite_apply, get_annualUsed]
  simp only [hiff]
  split
  · rfl
  · cases r <;> rfl

theorem projected_annual : pairOf (annualCaps (.of (p.config.rule i))) =
    .ok (both fun r ↦ ((l.annualCaps.get r).val : ℤ)) := by
  have hf := LaunchV7.annualCap_eq_ok.mpr ⟨hl.rate, hl.annualCaps .founder⟩
  have ht := LaunchV7.annualCap_eq_ok.mpr ⟨hl.rate, hl.annualCaps .treasury⟩
  rw [annualCaps_eq hf ht]
  rfl

theorem projected_prior (r : LaunchV7.Role) :
    ((l.annualUsed.get r).val : ℤ) - (l.periodUsed.get r).val =
      (((l.annualUsed.get r).val - (l.periodUsed.get r).val : ℕ) : ℤ) :=
  (Nat.cast_sub (hl.prior r)).symm

theorem projected_caps (r : LaunchV7.Role) :
    min (min (min ((Config.of p.config).periodCap.get r) ((l.annualCaps.get r).val / 12 : ℤ))
      ((l.annualCaps.get r).val - ((l.annualUsed.get r).val - (l.periodUsed.get r).val : ℤ)))
      ((Config.of p.config).amount.get r -
        ((Policy.of p).releasedTotal.get r - (l.periodUsed.get r).val)) =
      ((l.caps.get r).val : ℤ) := by
  have hannual := hl.annualLeft r
  have hprincipal := hl.principalLeft r
  have hreleased := hl.released r
  rw [hl.caps, projected_prior hl, get_periodCap, get_amount, get_releasedTotal]
  push_cast [Nat.cast_sub hannual, Nat.cast_sub hprincipal, Nat.cast_sub hreleased,
    Nat.cast_sub (hl.prior r)]
  rfl

theorem projected_capacity :
    min (min (Policy.of p).reportCapacity (Config.of p.config).sharedHardCap)
    ((Rule.of (p.config.rule i)).sharedCap -
      ((l.annualUsed.founder.val - l.periodUsed.founder.val : ℤ) +
        (l.annualUsed.treasury.val - l.periodUsed.treasury.val))) = (l.capacity.val : ℤ) := by
  have hf : l.periodUsed.founder.val ≤ l.annualUsed.founder.val := hl.prior .founder
  have ht : l.periodUsed.treasury.val ≤ l.annualUsed.treasury.val := hl.prior .treasury
  rw [hl.capacity]
  push_cast [Nat.cast_sub hl.sharedLeft, Nat.cast_sub hf, Nat.cast_sub ht]
  rfl

/-- The verifier projects the program's limits. -/
theorem projectRule_of : projectRule (.of p) now.val l.period.val (.of (p.config.rule i)) i =
    .ok (Projected.of p now l i) := by
  have hquotas : quotas l.capacity.val (l.caps.get .founder).val (l.caps.get .treasury).val
      (decide (p.config.t0.val + CLIFF ≤ now.val)) =
        .ok [(l.quotas.founder.val : ℤ), l.quotas.treasury.val] := by
    rw [hl.quotas]
    exact quotas_eq _ _ _ _
  rw [← projected_capacity hl, ← projected_caps hl, ← projected_caps hl] at hquotas
  have hreport : ((Policy.of p).reportValid && decide ((Policy.of p).reportEpoch =
      (Policy.of p).oracleEpoch ∧ (Policy.of p).oracleActivatedAt ≤ (Policy.of p).reportAt ∧
      0 < (Policy.of p).reportSequence ∧ (Policy.of p).reportPeriod = l.period.val ∧
      (Policy.of p).config.t0 + l.period.val * PERIOD ≤ (Policy.of p).reportAt ∧
      (Policy.of p).reportAt ≤ now.val ∧
      now.val - (Policy.of p).reportAt ≤ (Policy.of p).config.maxReportAge)) =
        decide (Reportable p l.period now) := by
    rw [Bool.eq_iff_iff, Bool.and_eq_true, decide_eq_true_eq, decide_eq_true_eq]
    simp only [Reportable, Policy.of, Config.of, PERIOD, Nat.cast_inj, Nat.cast_pos, Fin.ext_iff,
      Fin.lt_def, I64.le_iff, U64.val_zero]
  have hpause : decide ((l.quotas.founder.val : ℤ) < l.periodUsed.founder.val ∨
      (l.quotas.treasury.val : ℤ) < l.periodUsed.treasury.val) = l.correctionPause := by
    rw [hl.pause]
    simp only [gt_iff_lt, Fin.lt_def, Nat.cast_lt]
  simp only [projectRule, projected_used hl, projected_annualUsed hl, projected_annual hl,
    bind_eq_ok, require_eq_ok, Except.ok.injEq, exists_eq_left', exists_const, get_both,
    pure_eq_ok]
  refine ⟨⟨fun r ↦ ?_, ?_, fun r ↦ ?_⟩, _, hquotas, both fun r ↦ ((l.quotas.get r).val : ℤ), rfl,
    ?_⟩
  · exact (projected_caps hl r).ge.trans' (Int.natCast_nonneg _)
  · exact (projected_capacity hl).ge.trans' (Int.natCast_nonneg _)
  · exact (projected_prior hl r).ge.trans' (Int.natCast_nonneg _)
  · have hcaps := both_congr (projected_caps hl)
    have hcapacity := projected_capacity hl
    simp only [hreport, Projected.of, Projected.mk.injEq, true_and, decide_eq_true_eq]
    refine ⟨hcaps, hcapacity, hpause, ?_⟩
    have hstart : (Policy.of p).config.t0 < now.val ↔ p.config.t0 < now := I64.lt_iff.symm
    have hpaused : ((l.quotas.founder.val : ℤ) < l.periodUsed.founder.val ∨
        (l.quotas.treasury.val : ℤ) < l.periodUsed.treasury.val) ↔ l.correctionPause = true := by
      rw [← hpause, decide_eq_true_iff]
    exact if_congr (and_congr_right' (and_congr (not_congr hpaused) hstart))
      (both_congr fun r ↦ by rw [get_both]) rfl

theorem projectedLimits_of :
    projectedLimits (.of p) now.val = .ok (.limits (Projected.of p now l i)) := by
  rw [projectedLimits_eq hl.period, hl.rule, Option.elim_some, projectRule_of hl]
  rfl

end Limits

end FundingVaults.Verifier
