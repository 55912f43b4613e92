import FundingVaults.LaunchV7.Custody
import FundingVaults.LaunchV7.Pause

/-!
# Releases of one period

Inside a period a release adds its amount to the counters of its role and changes nothing else
that a later release reads.  So the accounts after any number of releases are known from the
accounts before them and from what each role was granted: `spend` gives them in one step, and
`Spent` says that a ledger is what `spend` makes of another one.
-/

namespace FundingVaults.LaunchV7

/-! ## Requests -/

/-- A release somebody asks for. -/
structure Request where
  signers : List Pubkey
  keys : Release.Keys
  amount : U64
  epoch : U64

namespace Request

def tx (q : Request) (now : I64) : Tx := ⟨now, q.signers, .release q.keys q.amount q.epoch⟩

/-- The role whose vault the request names. -/
def role (L : Ledger) (q : Request) : Option Role :=
  ((L.program q.keys.vault).bind ProgramAccount.vault?).bind fun v ↦ Role.ofU8 v.role

/-- What the request, once granted, adds to the balance of an account. -/
def net (q : Request) (key : Pubkey) : ℤ :=
  (if key = q.keys.destination then (q.amount.val : ℤ) else 0) -
    if key = q.keys.vaultToken then (q.amount.val : ℤ) else 0

end Request

/-- The amounts of some requests. -/
def total (qs : List Request) : ℕ := (qs.map fun q ↦ q.amount.val).sum

/-- What they add to the balance of an account. -/
def netOf (qs : List Request) (key : Pubkey) : ℤ := (qs.map fun q ↦ q.net key).sum

@[simp] theorem total_nil : total [] = 0 := rfl

@[simp] theorem total_snoc (qs : List Request) (q : Request) :
    total (qs ++ [q]) = total qs + q.amount.val := by
  simp [total]

@[simp] theorem netOf_nil (key : Pubkey) : netOf [] key = 0 := rfl

@[simp] theorem netOf_snoc (qs : List Request) (q : Request) (key : Pubkey) :
    netOf (qs ++ [q]) key = netOf qs key + q.net key := by
  simp [netOf]

/-! ## Accounts after some releases

`F` is what each role was granted in the period of the limits `l`, `t` the time of the last
release. -/

namespace LaunchPolicyV7

variable (p : LaunchPolicyV7) (l : WindowLimits) (F : Role → ℕ)

/-- The policy turned to the period, with the amounts added. -/
def grow : LaunchPolicyV7 :=
  { p with
    period := l.period
    annualIndex := l.annualIndex
    founderPeriodUsed := U64.ofNat (l.periodUsed.founder.val + F .founder)
    treasuryPeriodUsed := U64.ofNat (l.periodUsed.treasury.val + F .treasury)
    founderAnnualUsed := U64.ofNat (l.annualUsed.founder.val + F .founder)
    treasuryAnnualUsed := U64.ofNat (l.annualUsed.treasury.val + F .treasury)
    sharedUsed := U64.ofNat (l.periodUsed.founder.val + F .founder +
      (l.periodUsed.treasury.val + F .treasury))
    founderReleasedTotal := U64.ofNat (p.founderReleasedTotal.val + F .founder)
    treasuryReleasedTotal := U64.ofNat (p.treasuryReleasedTotal.val + F .treasury) }

/-- The first release of the period turns the policy to it. -/
def spend (t : I64) : LaunchPolicyV7 :=
  { p.withCounters (if F .founder + F .treasury = 0 then p else p.grow l F) with lastActionAt := t }

variable {p l F} {t : I64}

theorem spend_idle (hF : F .founder + F .treasury = 0) :
    p.spend l F t = { p with lastActionAt := t } := by
  rw [spend, if_pos hF]
  rfl

theorem spend_grow (hF : F .founder + F .treasury ≠ 0) :
    p.spend l F t = { p.grow l F with lastActionAt := t } := by
  rw [spend, if_neg hF]
  rfl

end LaunchPolicyV7

def LaunchVaultV7.spend (v : LaunchVaultV7) (P : Pubkey) (l : WindowLimits) (F : Role → ℕ) :
    LaunchVaultV7 :=
  v.withCounters (match Role.ofU8 v.role with
    | some r =>
      if v.policy = P ∧ F r ≠ 0 then
        { v with
          period := l.period
          periodUsed := U64.ofNat ((l.periodUsed.get r).val + F r)
          releasedTotal := U64.ofNat (v.releasedTotal.val + F r) }
      else v
    | none => v)

def TreasuryApprovalV7.spend (a : TreasuryApprovalV7) (P : Pubkey) (l : WindowLimits)
    (F : Role → ℕ) : TreasuryApprovalV7 :=
  { a with
    consumed := if a.policy = P ∧ a.period = l.period then
      U64.ofNat (a.consumed.val + F .treasury) else a.consumed }

def ProgramAccount.spend (P : Pubkey) (l : WindowLimits) (t : I64) (F : Role → ℕ) (key : Pubkey) :
    ProgramAccount → ProgramAccount
  | .policy p => .policy (if key = P then p.spend l F t else p)
  | .vault v => .vault (v.spend P l F)
  | .approval a => .approval (a.spend P l F)
  | a => a

namespace ProgramAccount

variable {P key : Pubkey} {l : WindowLimits} {t : I64} {F : Role → ℕ}

@[simp] theorem spend_policy (p : LaunchPolicyV7) :
    spend P l t F key (.policy p) = .policy (if key = P then p.spend l F t else p) := rfl

@[simp] theorem spend_vault (v : LaunchVaultV7) :
    spend P l t F key (.vault v) = .vault (v.spend P l F) := rfl

@[simp] theorem spend_approval (a : TreasuryApprovalV7) :
    spend P l t F key (.approval a) = .approval (a.spend P l F) := rfl

@[simp] theorem spend_preparation (a : LaunchPreparationV7) :
    spend P l t F key (.preparation a) = .preparation a := rfl

@[simp] theorem spend_change (q : ChangeProposalV7) :
    spend P l t F key (.change q) = .change q := rfl

@[simp] theorem spend_withdrawal (q : WithdrawalProposalV7) :
    spend P l t F key (.withdrawal q) = .withdrawal q := rfl

@[simp] theorem spend_withdrawalKey (k : WithdrawalKeyV7) :
    spend P l t F key (.withdrawalKey k) = .withdrawalKey k := rfl

end ProgramAccount

/-- `L'` is `L` after each role was granted the requests in `A`. -/
structure Spent (P : Pubkey) (l : WindowLimits) (L : Ledger) (t : I64) (A : Role → List Request)
    (L' : Ledger) : Prop where
  program : ∀ key, L'.program key =
    (L.program key).map (ProgramAccount.spend P l t (fun r ↦ total (A r)) key)
  tokens : L.tokens.Moved (fun key ↦ netOf (A .founder) key + netOf (A .treasury) key) L'.tokens

namespace Spent

variable {P : Pubkey} {l : WindowLimits} {L L' : Ledger} {t : I64} {A : Role → List Request}
  {key : Pubkey}

theorem refl {p : LaunchPolicyV7} (hp : L.program P = some (.policy p)) :
    Spent P l L p.lastActionAt (fun _ ↦ []) L where
  program key := by
    cases hk : L.program key with
    | none => rfl
    | some a =>
      cases a with
      | policy p' =>
        by_cases hP : key = P
        · subst hP
          obtain rfl : p' = p := by simpa using hk.symm.trans hp
          simp [LaunchPolicyV7.spend, LaunchPolicyV7.withCounters]
        · simp [hP]
      | vault v =>
        simp only [ProgramAccount.spend_vault, LaunchVaultV7.spend, total_nil, ne_eq, not_true_eq_false,
          and_false, if_false, Option.map_some]
        cases Role.ofU8 v.role <;> rfl
      | approval a =>
        simp only [ProgramAccount.spend_approval, TreasuryApprovalV7.spend, total_nil, Nat.add_zero,
          U64.ofNat_val_self, ite_self, Option.map_some]
      | _ => rfl
  tokens := Tokens.Moved.refl _

variable (h : Spent P l L t A L')
include h

theorem policy {p : LaunchPolicyV7} (hp : L.program P = some (.policy p)) :
    L'.program P = some (.policy (p.spend l (fun r ↦ total (A r)) t)) := by
  simp [h.program, hp]

theorem vault {v : LaunchVaultV7} (hv : L.program key = some (.vault v)) :
    L'.program key = some (.vault (v.spend P l fun r ↦ total (A r))) := by
  simp [h.program, hv]

theorem approval {a : TreasuryApprovalV7} (ha : L.program key = some (.approval a)) :
    L'.program key = some (.approval (a.spend P l fun r ↦ total (A r))) := by
  simp [h.program, ha]

theorem record {k : WithdrawalKeyV7} (hk : L.program key = some (.withdrawalKey k)) :
    L'.program key = some (.withdrawalKey k) := by
  simp [h.program, hk]

theorem of_vault {v : LaunchVaultV7} (hv : L'.program key = some (.vault v)) :
    ∃ u, L.program key = some (.vault u) ∧ v = u.spend P l fun r ↦ total (A r) := by
  rw [h.program, Option.map_eq_some_iff] at hv
  obtain ⟨a, ha, hav⟩ := hv
  cases a <;> simp at hav
  exact ⟨_, ha, hav.symm⟩

theorem of_approval {a : TreasuryApprovalV7} (ha : L'.program key = some (.approval a)) :
    ∃ b, L.program key = some (.approval b) ∧ a = b.spend P l fun r ↦ total (A r) := by
  rw [h.program, Option.map_eq_some_iff] at ha
  obtain ⟨b, hb, hba⟩ := ha
  cases b <;> simp at hba
  exact ⟨_, hb, hba.symm⟩

theorem of_record {k : WithdrawalKeyV7} (hk : L'.program key = some (.withdrawalKey k)) :
    L.program key = some (.withdrawalKey k) := by
  rw [h.program, Option.map_eq_some_iff] at hk
  obtain ⟨b, hb, hbk⟩ := hk
  cases b <;> simp at hbk
  rw [hb, hbk]

/-- Who a request is from does not change. -/
theorem role (q : Request) : q.role L' = q.role L := by
  unfold Request.role
  rw [h.program]
  cases hk : L.program q.keys.vault with
  | none => rfl
  | some a =>
    cases a <;> simp [ProgramAccount.vault?, LaunchVaultV7.spend,
      LaunchVaultV7.withCounters]

omit h in
/-- Two ledgers with the same grants agree but for the time of the policy's last action. -/
theorem unique {L'' : Ledger} {t' : I64} {p : LaunchPolicyV7} (h : Spent P l L t A L')
    (h' : Spent P l L t' A L'') (hp : L.program P = some (.policy p)) :
    L'.tokens = L''.tokens ∧ (∀ key ≠ P, L'.program key = L''.program key) ∧
      ∃ p' : LaunchPolicyV7, L'.program P = some (.policy { p' with lastActionAt := t }) ∧
        L''.program P = some (.policy { p' with lastActionAt := t' }) := by
  refine ⟨h.tokens.unique h'.tokens, fun key hkey ↦ ?_, p.spend l (fun r ↦ total (A r)) t,
    h.policy hp, h'.policy hp⟩
  rw [h.program, h'.program]
  cases L.program key with
  | none => rfl
  | some a => cases a <;> simp [hkey]

end Spent

/-! ## The limits after some releases -/

section Limits

variable {p : LaunchPolicyV7} {l l' : WindowLimits} {t now now' : I64} {i j : Fin 2}
  {F : Role → ℕ}

/-- Nothing was granted, or what was granted is within the quotas. -/
def Room (l : WindowLimits) (F : Role → ℕ) : Prop :=
  F .founder + F .treasury = 0 ∨ ∀ r, (l.periodUsed.get r).val + F r ≤ (l.quotas.get r).val

theorem Room.within (h : Room l F) (hF : F .founder + F .treasury ≠ 0) (r : Role) :
    (l.periodUsed.get r).val + F r ≤ (l.quotas.get r).val := (h.resolve_left hF) r

theorem eq_zero_of_idle (hF : F .founder + F .treasury = 0) (r : Role) : F r = 0 := by
  cases r <;> omega

/-- Within the quotas every sum fits. -/
theorem Limits.fits (hl : Limits p now l i)
    (h : ∀ r, (l.periodUsed.get r).val + F r ≤ (l.quotas.get r).val) (r : Role) :
    (l.annualUsed.get r).val + F r < 2 ^ 64 ∧ (p.releasedTotal r).val + F r < 2 ^ 64 := by
  have hcaps := (h r).trans ((hl.quotas_le r).trans (hl.caps r).le)
  have hannual := (hcaps.trans (min_le_left _ _)).trans (min_le_right _ _)
  have hlife := hcaps.trans (min_le_right _ _)
  have := hl.prior r
  have := hl.released r
  have := hl.annualLeft r
  have := hl.principalLeft r
  have := (l.annualCaps.get r).isLt
  have := (p.config.principal r).isLt
  omega

/-- The counters of a policy that has grown. -/
structure Grown (p : LaunchPolicyV7) (l : WindowLimits) (F : Role → ℕ) (p' : LaunchPolicyV7) :
    Prop where
  period : p'.period = l.period
  annualIndex : p'.annualIndex = l.annualIndex
  periodUsed : ∀ r, (p'.periodUsed r).val = (l.periodUsed.get r).val + F r
  annualUsed : ∀ r, (p'.annualUsed r).val = (l.annualUsed.get r).val + F r
  sharedUsed : p'.sharedUsed.val = p'.founderPeriodUsed.val + p'.treasuryPeriodUsed.val
  releasedTotal : ∀ r, (p'.releasedTotal r).val = (p.releasedTotal r).val + F r

theorem Limits.grow (hl : Limits p now l i)
    (h : ∀ r, (l.periodUsed.get r).val + F r ≤ (l.quotas.get r).val) :
    Grown p l F (p.grow l F) := by
  have hF : l.periodUsed.founder.val + F .founder ≤ l.quotas.founder.val := h .founder
  have hT : l.periodUsed.treasury.val + F .treasury ≤ l.quotas.treasury.val := h .treasury
  have hsum := hl.quotas_sum_le
  have := l.capacity.isLt
  exact {
    period := rfl
    annualIndex := rfl
    periodUsed := Role.forall_role.mpr ⟨U64.ofNat_val (by omega), U64.ofNat_val (by omega)⟩
    annualUsed := Role.forall_role.mpr
      ⟨U64.ofNat_val (hl.fits h .founder).1, U64.ofNat_val (hl.fits h .treasury).1⟩
    sharedUsed := by
      simp only [LaunchPolicyV7.grow]
      rw [U64.ofNat_val (by omega), U64.ofNat_val (by omega), U64.ofNat_val (by omega)]
    releasedTotal := Role.forall_role.mpr
      ⟨U64.ofNat_val (hl.fits h .founder).2, U64.ofNat_val (hl.fits h .treasury).2⟩ }

/-- Growth determines the counters. -/
theorem Grown.withCounters {p' q : LaunchPolicyV7} (h : Grown p l F p') (h' : Grown p l F q) :
    p.withCounters p' = p.withCounters q := by
  have hF : p'.founderPeriodUsed = q.founderPeriodUsed :=
    Fin.ext ((h.periodUsed .founder).trans (h'.periodUsed .founder).symm)
  have hT : p'.treasuryPeriodUsed = q.treasuryPeriodUsed :=
    Fin.ext ((h.periodUsed .treasury).trans (h'.periodUsed .treasury).symm)
  have hAF : p'.founderAnnualUsed = q.founderAnnualUsed :=
    Fin.ext ((h.annualUsed .founder).trans (h'.annualUsed .founder).symm)
  have hAT : p'.treasuryAnnualUsed = q.treasuryAnnualUsed :=
    Fin.ext ((h.annualUsed .treasury).trans (h'.annualUsed .treasury).symm)
  have hRF : p'.founderReleasedTotal = q.founderReleasedTotal :=
    Fin.ext ((h.releasedTotal .founder).trans (h'.releasedTotal .founder).symm)
  have hRT : p'.treasuryReleasedTotal = q.treasuryReleasedTotal :=
    Fin.ext ((h.releasedTotal .treasury).trans (h'.releasedTotal .treasury).symm)
  have hS : p'.sharedUsed = q.sharedUsed :=
    Fin.ext (by rw [h.sharedUsed, h'.sharedUsed, hF, hT])
  simp only [LaunchPolicyV7.withCounters, h.period, h'.period, h.annualIndex, h'.annualIndex, hF,
    hT, hAF, hAT, hRF, hRT, hS]

/-- The limits of a policy after some releases of the period. -/
structure LimitsAfter (l : WindowLimits) (F : Role → ℕ) (l' : WindowLimits) : Prop where
  annualIndex : l'.annualIndex = l.annualIndex
  periodUsed : ∀ r, (l'.periodUsed.get r).val = (l.periodUsed.get r).val + F r
  annualUsed : ∀ r, (l'.annualUsed.get r).val = (l.annualUsed.get r).val + F r
  quotas : ∀ r, (l'.quotas.get r).val = (l.quotas.get r).val

theorem Limits.releasedTotal_spend (hl : Limits p now l i) (hroom : Room l F) (r : Role) :
    ((p.spend l F t).releasedTotal r).val = (p.releasedTotal r).val + F r := by
  by_cases hF : F .founder + F .treasury = 0
  · rw [LaunchPolicyV7.spend_idle hF, eq_zero_of_idle hF r]
    cases r <;> rfl
  · rw [LaunchPolicyV7.spend_grow hF, ← (hl.grow (hroom.within hF)).releasedTotal r]
    cases r <;> rfl

/-- A release does not change a quota of its period. -/
theorem Limits.spent (hl : Limits p now l i) (hroom : Room l F)
    (hl' : Limits (p.spend l F t) now' l' j) (hperiod : l'.period = l.period) :
    LimitsAfter l F l' := by
  obtain rfl := hl.index_unique hl' rfl hperiod
  have hused : ∀ r, (l'.periodUsed.get r).val = (l.periodUsed.get r).val + F r := by
    intro r
    rw [hl'.periodUsed, hperiod]
    by_cases hF : F .founder + F .treasury = 0
    · rw [hl.periodUsed, eq_zero_of_idle hF r, LaunchPolicyV7.spend_idle hF]
      cases r <;> rfl
    · have hp : l.period = (p.spend l F t).period := by rw [LaunchPolicyV7.spend_grow hF]; rfl
      rw [if_pos hp, ← (hl.grow (hroom.within hF)).periodUsed r, LaunchPolicyV7.spend_grow hF]
      cases r <;> rfl
  have hannual : ∀ r, (l'.annualUsed.get r).val = (l.annualUsed.get r).val + F r := by
    intro r
    rw [hl'.annualUsed]
    by_cases hF : F .founder + F .treasury = 0
    · rw [hl.annualUsed, eq_zero_of_idle hF r, LaunchPolicyV7.spend_idle hF]
      cases r <;> rfl
    · have hindex : j.val = (p.spend l F t).annualIndex.toNat := by
        have := j.isLt
        rw [LaunchPolicyV7.spend_grow hF]
        change j.val = l.annualIndex.toNat
        rw [hl.annualIndex]
        simp only [UInt8.toNat_ofNat']
        omega
      rw [if_pos hindex, ← (hl.grow (hroom.within hF)).annualUsed r, LaunchPolicyV7.spend_grow hF]
      cases r <;> rfl
  have hprior : l'.priorAnnual = l.priorAnnual := funext fun r ↦ by
    unfold WindowLimits.priorAnnual
    rw [hused, hannual, Nat.add_sub_add_right]
  have hlifetime : l'.priorLifetime (p.spend l F t) = l.priorLifetime p := funext fun r ↦ by
    unfold WindowLimits.priorLifetime
    rw [hused, hl.releasedTotal_spend hroom, Nat.add_sub_add_right]
  refine ⟨by rw [hl'.annualIndex, hl.annualIndex], hused, hannual, fun r ↦ ?_⟩
  rw [hl'.quota_eq, hl.quota_eq, hprior, hlifetime, hperiod]
  rfl

/-- After a release the accounts are those with its amount added to what its role was granted. -/
theorem Consumed.spend {v v' : LaunchVaultV7} {p' : LaunchPolicyV7} {P : Pubkey} {r : Role}
    {amount : U64} (hl : Limits p now' l i) (hroom : Room l F)
    (hc : Consumed { p.spend l F t with lastActionAt := now } (v.spend P l F) now amount p' v' l' r)
    (hperiod : l'.period = l.period) (hP : v.policy = P)
    (htotal : v.releasedTotal = p.releasedTotal r) (hamount : 0 < amount) :
    Room l (Function.update F r (F r + amount.val)) ∧
      p' = p.spend l (Function.update F r (F r + amount.val)) now ∧
      v' = v.spend P l (Function.update F r (F r + amount.val)) := by
  obtain ⟨j, hl'⟩ := (windowLimits_eq_ok (p := p.spend l F t)).mp hc.limits
  have hafter := hl.spent hroom hl' hperiod
  have hpos : 0 < amount.val := Fin.lt_def.mp hamount
  have hupdate : ∀ s, Function.update F r (F r + amount.val) s =
      F s + if s = r then amount.val else 0 := by
    intro s
    by_cases hs : s = r
    · subst hs
      simp
    · simp [hs]
  have hwithin : ∀ s, (l.periodUsed.get s).val + Function.update F r (F r + amount.val) s ≤
      (l.quotas.get s).val := by
    intro s
    rw [hupdate, ← Nat.add_assoc, ← hafter.periodUsed, ← hafter.quotas]
    split
    · next hs =>
      subst hs
      exact hc.quota
    · exact hl'.within (by simp [hc.unpaused]) s
  have hne : Function.update F r (F r + amount.val) .founder +
      Function.update F r (F r + amount.val) .treasury ≠ 0 := by
    rw [hupdate, hupdate]
    cases r <;> simp <;> omega
  have hgrown : Grown p l (Function.update F r (F r + amount.val)) p' := {
    period := hc.period.trans hperiod
    annualIndex := hc.annualIndex.trans hafter.annualIndex
    periodUsed := fun s ↦ by rw [hc.periodUsed, hafter.periodUsed, hupdate, Nat.add_assoc]
    annualUsed := fun s ↦ by rw [hc.annualUsed, hafter.annualUsed, hupdate, Nat.add_assoc]
    sharedUsed := hc.sharedUsed
    releasedTotal := fun s ↦ by
      have hrel : (p'.releasedTotal s).val = ((p.spend l F t).releasedTotal s).val + _ :=
        hc.releasedTotal s
      rw [hrel, hl.releasedTotal_spend hroom, hupdate, Nat.add_assoc] }
  refine ⟨.inr hwithin, ?_, ?_⟩
  · calc
      p' = { p.withCounters p' with lastActionAt := now } := hc.policy
      _ = { p.withCounters (p.grow l (Function.update F r (F r + amount.val))) with
            lastActionAt := now } := by rw [hgrown.withCounters (hl.grow hwithin)]
      _ = _ := by rw [LaunchPolicyV7.spend, if_neg hne]
  · have hrole : v.role = r.toU8 := hc.role
    have hused : p'.periodUsed r = U64.ofNat ((l.periodUsed.get r).val +
        Function.update F r (F r + amount.val) r) := by
      rw [← hgrown.periodUsed, U64.ofNat_val_self]
    have hreleased : p'.releasedTotal r = U64.ofNat (v.releasedTotal.val +
        Function.update F r (F r + amount.val) r) := by
      rw [htotal, ← hgrown.releasedTotal, U64.ofNat_val_self]
    have hgranted : Function.update F r (F r + amount.val) r ≠ 0 := by
      rw [Function.update_self]
      omega
    rw [hc.vault, hperiod, hused, hreleased]
    simp only [LaunchVaultV7.spend, hrole, Role.ofU8_toU8, hP, true_and, if_pos hgranted]
    rfl

end Limits

end FundingVaults.LaunchV7
