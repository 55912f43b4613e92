import FundingVaults.LaunchV7.Capacity

/-!
# What the capacity functions compute

`window_limits` and `consume` are straight lines of checked arithmetic.  `Limits` and `Consumed`
say what is left of them once the checks have passed: natural-number equations, one per role,
with every subtraction known not to underflow.  The quotas are the proportional division of
`Apportion`, a role that is not yet eligible claiming nothing.
-/

namespace FundingVaults.LaunchV7

theorem annualCap_eq_ok {basis : U64} {bps : U16} {c : U64} :
    annualCap basis bps = .ok c ↔
      bps ≤ MAX_RELEASE_BPS ∧ c.val = basis.val * bps.val / 10000 := by
  simp only [annualCap, bind_eq_ok, require_eq_ok, pure_eq_ok, exists_const]
  refine and_congr_right fun h ↦ ?_
  have hle : basis.val * bps.val ≤ basis.val * 500 := Nat.mul_le_mul_left _ (Fin.le_def.mp h)
  have hlt := basis.isLt
  rw [Fin.ext_iff, U64.ofNat_val (by omega)]
  exact eq_comm

theorem sub_eq_ok {a b c : U64} : sub a b = .ok c ↔ a.val = b.val + c.val := by
  simp [sub, U64.checkedSub_eq_some]

/-! ## Quotas -/

section Quotas

variable {c f t : U64} {eligible : Bool}

/-- The founder's quota is the first part of the division. -/
theorem reservedQuotas_founder :
    (reservedQuotas c f t eligible).founder.val =
      Apportion.first c.val (if eligible then f.val else 0) t.val := by
  have hf := Apportion.first_le c.val f.val t.val
  have := f.isLt
  cases eligible with
  | false => simp [reservedQuotas, Apportion.first]
  | true =>
    by_cases h : f.val + t.val = 0
    · simp [reservedQuotas, h, Apportion.first]
    · simp only [reservedQuotas, Bool.not_true, Bool.false_eq_true, if_false, if_neg h, if_true]
      exact U64.ofNat_val (x := Apportion.first c.val f.val t.val) (by omega)

/-- The treasury's quota is the second part, with the rounding remainder. -/
theorem reservedQuotas_treasury :
    (reservedQuotas c f t eligible).treasury.val =
      Apportion.second c.val (if eligible then f.val else 0) t.val := by
  have ht := Apportion.second_le c.val f.val t.val
  have := t.isLt
  cases eligible with
  | false => simp [reservedQuotas, Apportion.second, Apportion.first, Apportion.available]
  | true =>
    by_cases h : f.val + t.val = 0
    · simp [reservedQuotas, h, Apportion.second, Apportion.first, Apportion.available]
    · simp only [reservedQuotas, Bool.not_true, Bool.false_eq_true, if_false, if_neg h, if_true]
      exact U64.ofNat_val (x := Apportion.second c.val f.val t.val) (by omega)

theorem reservedQuotas_le (r : Role) :
    ((reservedQuotas c f t eligible).get r).val ≤ ((⟨f, t⟩ : PerRole U64).get r).val := by
  cases r with
  | founder =>
    refine reservedQuotas_founder.trans_le ((Apportion.first_le _ _ _).trans ?_)
    cases eligible <;> simp
  | treasury => exact reservedQuotas_treasury.trans_le (Apportion.second_le _ _ _)

theorem reservedQuotas_sum_le :
    (reservedQuotas c f t eligible).founder.val + (reservedQuotas c f t eligible).treasury.val ≤
      c.val := by
  rw [reservedQuotas_founder, reservedQuotas_treasury]
  exact Apportion.first_add_second_le_capacity _ _ _

/-- Before the cliff the founder's quota is zero. -/
theorem reservedQuotas_ineligible : (reservedQuotas c f t false).founder = 0 := rfl

end Quotas

/-! ## Window limits -/

/-- The rule of the period at `now`, and the limits it gives. -/
structure Limits (p : LaunchPolicyV7) (now : I64) (l : WindowLimits) (i : Fin 2) : Prop where
  period : periodAt p.config.t0 now = .ok l.period
  policyPeriod : p.period ≤ l.period
  rule : position p.config.annualRules l.period = some i
  annualIndex : l.annualIndex = UInt8.ofNat i.val
  forward : p.annualIndex.toNat ≤ i.val
  stored : p.founderPeriodUsed.val + p.treasuryPeriodUsed.val = p.sharedUsed.val
  periodUsed : ∀ r, l.periodUsed.get r = if l.period = p.period then p.periodUsed r else 0
  annualUsed : ∀ r, l.annualUsed.get r = if i.val = p.annualIndex.toNat then p.annualUsed r else 0
  rate : (p.config.rule i).releaseBps ≤ MAX_RELEASE_BPS
  annualCaps : ∀ r, (l.annualCaps.get r).val =
    ((p.config.rule i).basis r).val * (p.config.rule i).releaseBps.val / 10000
  prior : ∀ r, (l.periodUsed.get r).val ≤ (l.annualUsed.get r).val
  released : ∀ r, (l.periodUsed.get r).val ≤ (p.releasedTotal r).val
  annualLeft : ∀ r, (l.annualUsed.get r).val - (l.periodUsed.get r).val ≤ (l.annualCaps.get r).val
  principalLeft : ∀ r, (p.releasedTotal r).val - (l.periodUsed.get r).val ≤
    (p.config.principal r).val
  caps : ∀ r, (l.caps.get r).val =
    min (min (min (p.config.periodCap r).val ((l.annualCaps.get r).val / 12))
      ((l.annualCaps.get r).val - ((l.annualUsed.get r).val - (l.periodUsed.get r).val)))
      ((p.config.principal r).val - ((p.releasedTotal r).val - (l.periodUsed.get r).val))
  sharedLeft : (l.annualUsed.founder.val - l.periodUsed.founder.val) +
    (l.annualUsed.treasury.val - l.periodUsed.treasury.val) ≤
      (p.config.rule i).sharedCap.val
  capacity : l.capacity.val = min (min p.reportCapacity.val p.config.sharedHardCap.val)
    ((p.config.rule i).sharedCap.val -
      ((l.annualUsed.founder.val - l.periodUsed.founder.val) +
        (l.annualUsed.treasury.val - l.periodUsed.treasury.val)))
  cliff : p.config.t0.val + 15552000 < 2 ^ 63
  quotas : l.quotas = reservedQuotas l.capacity l.caps.founder l.caps.treasury
    (decide (p.config.t0.val + 15552000 ≤ now.val))
  pause : l.correctionPause = decide (l.periodUsed.founder > l.quotas.founder ∨
    l.periodUsed.treasury > l.quotas.treasury)

variable {p : LaunchPolicyV7} {now : I64} {l l' : WindowLimits} {i j : Fin 2}

theorem windowLimits_ok (h : windowLimits p now = .ok l) : ∃ i, Limits p now l i := by
  simp only [windowLimits, bind_eq_ok, require_eq_ok, okOr_eq_ok, pure_eq_ok, exists_const,
    annualCap_eq_ok, sub_eq_ok, U64.checkedAdd_eq_some, I64.checkedAdd_eq_some, CLIFF_val] at h
  obtain ⟨period, hperiod, hge, i, hi, hfwd, stored, hstored, hshared, aF, ⟨hrate, haF⟩, aT,
    ⟨-, haT⟩, pF, hpF, pT, hpT, lF, hlF, lT, hlT, alF, halF, plF, hplF, alT, halT, plT, hplT, sp,
    hsp, sl, hsl, cliff, hcliff, rfl⟩ := h
  -- The two counters that are reset on a rollover.
  generalize hused : (if period = p.period then
    (⟨p.founderPeriodUsed, p.treasuryPeriodUsed⟩ : PerRole U64) else ⟨0, 0⟩) = used at *
  generalize hannual : (if i.val = p.annualIndex.toNat then
    (⟨p.founderAnnualUsed, p.treasuryAnnualUsed⟩ : PerRole U64) else ⟨0, 0⟩) = annual at *
  have hmin : ∀ {a : U64}, (a / RATE_DIVISOR).val = a.val / 12 := rfl
  have hF : pF.val = annual.founder.val - used.founder.val := U64.val_eq_sub hpF
  have hT : pT.val = annual.treasury.val - used.treasury.val := U64.val_eq_sub hpT
  have hsv : sp.val = annual.founder.val - used.founder.val +
      (annual.treasury.val - used.treasury.val) := by rw [← hsp, hF, hT]
  refine ⟨i, {
    period := hperiod
    policyPeriod := hge
    rule := hi
    annualIndex := rfl
    forward := hfwd
    stored := by rw [hstored, hshared]
    periodUsed := ?_
    annualUsed := ?_
    rate := hrate
    annualCaps := Role.forall_role.mpr ⟨haF, haT⟩
    prior := Role.forall_role.mpr ⟨Nat.le.intro hpF.symm, Nat.le.intro hpT.symm⟩
    released := Role.forall_role.mpr ⟨Nat.le.intro hlF.symm, Nat.le.intro hlT.symm⟩
    annualLeft := Role.forall_role.mpr
      ⟨hF ▸ Nat.le.intro halF.symm, hT ▸ Nat.le.intro halT.symm⟩
    principalLeft := Role.forall_role.mpr ⟨U64.val_eq_sub hlF ▸ Nat.le.intro hplF.symm,
      U64.val_eq_sub hlT ▸ Nat.le.intro hplT.symm⟩
    caps := Role.forall_role.mpr ⟨?_, ?_⟩
    sharedLeft := hsv ▸ Nat.le.intro hsl.symm
    capacity := ?_
    cliff := by have := cliff.lt; omega
    quotas := ?_
    pause := rfl }⟩
  · rintro (_ | _) <;> simp only [← hused] <;> split <;> rfl
  · rintro (_ | _) <;> simp only [← hannual] <;> split <;> rfl
  · simp only [PerRole.get, LaunchConfig.periodCap, LaunchConfig.principal,
      LaunchPolicyV7.releasedTotal, U64.val_min, hmin, U64.val_eq_sub halF, U64.val_eq_sub hplF,
      U64.val_eq_sub hlF, hF]
  · simp only [PerRole.get, LaunchConfig.periodCap, LaunchConfig.principal,
      LaunchPolicyV7.releasedTotal, U64.val_min, hmin, U64.val_eq_sub halT, U64.val_eq_sub hplT,
      U64.val_eq_sub hlT, hT]
  · simp only [U64.val_min, U64.val_eq_sub hsl, hsv]
  · simp only [ge_iff_le, I64.le_iff, hcliff]

theorem Limits.windowLimits (h : Limits p now l i) : windowLimits p now = .ok l := by
  have hused : (if l.period = p.period then
      (⟨p.founderPeriodUsed, p.treasuryPeriodUsed⟩ : PerRole U64) else ⟨0, 0⟩) = l.periodUsed := by
    refine PerRole.ext_get fun r ↦ ?_
    rw [h.periodUsed]
    split <;> cases r <;> rfl
  have hannual : (if i.val = p.annualIndex.toNat then
      (⟨p.founderAnnualUsed, p.treasuryAnnualUsed⟩ : PerRole U64) else ⟨0, 0⟩) = l.annualUsed := by
    refine PerRole.ext_get fun r ↦ ?_
    rw [h.annualUsed]
    split <;> cases r <;> rfl
  have hmin : ∀ {a : U64}, (a / RATE_DIVISOR).val = a.val / 12 := rfl
  obtain ⟨pF, hpF⟩ := U64.exists_sub (h.prior .founder)
  obtain ⟨pT, hpT⟩ := U64.exists_sub (h.prior .treasury)
  obtain ⟨lF, hlF⟩ := U64.exists_sub (h.released .founder)
  obtain ⟨lT, hlT⟩ := U64.exists_sub (h.released .treasury)
  obtain ⟨alF, halF⟩ := U64.exists_sub (a := l.annualCaps.founder) (b := pF)
    (U64.val_eq_sub hpF ▸ h.annualLeft .founder)
  obtain ⟨alT, halT⟩ := U64.exists_sub (a := l.annualCaps.treasury) (b := pT)
    (U64.val_eq_sub hpT ▸ h.annualLeft .treasury)
  obtain ⟨plF, hplF⟩ := U64.exists_sub (a := p.config.founderAmount) (b := lF)
    (U64.val_eq_sub hlF ▸ h.principalLeft .founder)
  obtain ⟨plT, hplT⟩ := U64.exists_sub (a := p.config.treasuryAmount) (b := lT)
    (U64.val_eq_sub hlT ▸ h.principalLeft .treasury)
  have hshared : pF.val + pT.val ≤ (p.config.rule i).sharedCap.val :=
    U64.val_eq_sub hpF ▸ U64.val_eq_sub hpT ▸ h.sharedLeft
  obtain ⟨sp, hsp⟩ := U64.exists_val_eq (hshared.trans_lt (Fin.isLt _))
  obtain ⟨sl, hsl⟩ := U64.exists_sub (a := (p.config.rule i).sharedCap) (b := sp)
    (hsp ▸ hshared)
  obtain ⟨cliff, hcliff⟩ := I64.exists_val_eq (x := p.config.t0.val + 15552000)
    (p.config.t0.ge.trans (le_add_of_nonneg_right (by decide))) h.cliff
  have hcapF : min (min (min p.config.founderPeriodCap (l.annualCaps.founder / RATE_DIVISOR)) alF)
      plF = l.caps.founder := by
    refine Fin.ext (Eq.trans ?_ (h.caps .founder).symm)
    simp only [U64.val_min, hmin, U64.val_eq_sub halF, U64.val_eq_sub hplF, U64.val_eq_sub hlF,
      U64.val_eq_sub hpF]
    rfl
  have hcapT : min (min (min p.config.treasuryPeriodCap (l.annualCaps.treasury / RATE_DIVISOR))
      alT) plT = l.caps.treasury := by
    refine Fin.ext (Eq.trans ?_ (h.caps .treasury).symm)
    simp only [U64.val_min, hmin, U64.val_eq_sub halT, U64.val_eq_sub hplT, U64.val_eq_sub hlT,
      U64.val_eq_sub hpT]
    rfl
  have hcapacity : min (min p.reportCapacity p.config.sharedHardCap) sl = l.capacity := by
    refine Fin.ext ?_
    rw [h.capacity]
    simp only [U64.val_min, U64.val_eq_sub hsl, ← hsp, U64.val_eq_sub hpF, U64.val_eq_sub hpT]
    rfl
  have hquotas : reservedQuotas l.capacity l.caps.founder l.caps.treasury (decide (now ≥ cliff)) =
      l.quotas := by
    rw [h.quotas]
    simp only [ge_iff_le, I64.le_iff, hcliff]
  simp only [FundingVaults.LaunchV7.windowLimits, bind_eq_ok, require_eq_ok, okOr_eq_ok,
    pure_eq_ok, exists_const, annualCap_eq_ok, sub_eq_ok, U64.checkedAdd_eq_some,
    I64.checkedAdd_eq_some, CLIFF_val]
  refine ⟨l.period, h.period, h.policyPeriod, i, h.rule, h.forward, p.sharedUsed, h.stored, rfl,
    l.annualCaps.founder, ⟨h.rate, h.annualCaps .founder⟩, l.annualCaps.treasury,
    ⟨h.rate, h.annualCaps .treasury⟩, ?_⟩
  simp only [hused, hannual]
  refine ⟨pF, hpF, pT, hpT, lF, hlF, lT, hlT, alF, halF, plF, hplF, alT, halT, plT, hplT, sp, hsp,
    sl, hsl, cliff, hcliff, ?_⟩
  rw [hcapF, hcapT, hcapacity, hquotas, ← h.annualIndex, ← h.pause]

theorem windowLimits_eq_ok : windowLimits p now = .ok l ↔ ∃ i, Limits p now l i :=
  ⟨windowLimits_ok, fun ⟨_, h⟩ ↦ h.windowLimits⟩

theorem Limits.quotas_le (h : Limits p now l i) (r : Role) :
    (l.quotas.get r).val ≤ (l.caps.get r).val := by
  rw [h.quotas]
  exact reservedQuotas_le r

theorem Limits.quotas_sum_le (h : Limits p now l i) :
    l.quotas.founder.val + l.quotas.treasury.val ≤ l.capacity.val := by
  rw [h.quotas]
  exact reservedQuotas_sum_le

theorem Limits.covers (h : Limits p now l i) : (p.config.rule i).covers l.period := by
  have := List.find?_some h.rule
  simpa [LaunchConfig.rule] using this

/-! ## Consumption -/

/-- The policy with the release counters of another one. -/
def LaunchPolicyV7.withCounters (p p' : LaunchPolicyV7) : LaunchPolicyV7 :=
  { p with
    period := p'.period
    annualIndex := p'.annualIndex
    founderPeriodUsed := p'.founderPeriodUsed
    treasuryPeriodUsed := p'.treasuryPeriodUsed
    founderAnnualUsed := p'.founderAnnualUsed
    treasuryAnnualUsed := p'.treasuryAnnualUsed
    sharedUsed := p'.sharedUsed
    founderReleasedTotal := p'.founderReleasedTotal
    treasuryReleasedTotal := p'.treasuryReleasedTotal }

/-- The vault with the release counters of another one. -/
def LaunchVaultV7.withCounters (v v' : LaunchVaultV7) : LaunchVaultV7 :=
  { v with period := v'.period, periodUsed := v'.periodUsed, releasedTotal := v'.releasedTotal }

/-- What a successful `consume` of `amount` by `r` checks and changes. -/
structure Consumed (p : LaunchPolicyV7) (v : LaunchVaultV7) (now : I64) (amount : U64)
    (p' : LaunchPolicyV7) (v' : LaunchVaultV7) (l : WindowLimits) (r : Role) : Prop where
  limits : windowLimits p now = .ok l
  unpaused : l.correctionPause = false
  role : v.role = r.toU8
  total : v.releasedTotal = p.releasedTotal r
  quota : (l.periodUsed.get r).val + amount.val ≤ (l.quotas.get r).val
  annual : (l.annualUsed.get r).val + amount.val ≤ (l.annualCaps.get r).val
  lifetime : (p.releasedTotal r).val + amount.val ≤ v.principal.val
  shared : l.periodUsed.founder.val + l.periodUsed.treasury.val + amount.val ≤ l.capacity.val
  policy : p' = p.withCounters p'
  period : p'.period = l.period
  annualIndex : p'.annualIndex = l.annualIndex
  periodUsed : ∀ s, (p'.periodUsed s).val =
    (l.periodUsed.get s).val + if s = r then amount.val else 0
  annualUsed : ∀ s, (p'.annualUsed s).val =
    (l.annualUsed.get s).val + if s = r then amount.val else 0
  releasedTotal : ∀ s, (p'.releasedTotal s).val =
    (p.releasedTotal s).val + if s = r then amount.val else 0
  sharedUsed : p'.sharedUsed.val = p'.founderPeriodUsed.val + p'.treasuryPeriodUsed.val
  vault : v' = { v with
    period := l.period
    periodUsed := p'.periodUsed r
    releasedTotal := p'.releasedTotal r }

theorem consume_eq_ok {v : LaunchVaultV7} {amount : U64} {p' : LaunchPolicyV7}
    {v' : LaunchVaultV7} :
    consume p v now amount = .ok (p', v') ↔ ∃ l r, Consumed p v now amount p' v' l r := by
  simp only [consume, bind_eq_ok, require_eq_ok, okOr_eq_ok, pure_eq_ok, exists_const,
    U64.checkedAdd_eq_some, Role.ofU8_eq_some, Prod.mk.injEq]
  constructor
  · rintro ⟨l, hl, hpause, r, hr, htotal, ur, hur, ar, har, lt, hlt, sh, hsh, hq, ⟨ha, hlf, hs⟩,
      rfl, rfl⟩
    rw [Fin.le_def] at hq ha hlf hs
    refine ⟨l, r, ?_⟩
    cases r <;> simp only [PerRole.get, PerRole.set] at *
    · exact {
        limits := hl
        unpaused := by simpa using hpause
        role := hr
        total := htotal
        quota := hur ▸ hq
        annual := har ▸ ha
        lifetime := hlt ▸ hlf
        shared := by omega
        policy := rfl
        period := rfl
        annualIndex := rfl
        periodUsed := Role.forall_role.mpr ⟨hur.symm, rfl⟩
        annualUsed := Role.forall_role.mpr ⟨har.symm, rfl⟩
        releasedTotal := Role.forall_role.mpr ⟨hlt.symm, rfl⟩
        sharedUsed := hsh.symm
        vault := rfl }
    · exact {
        limits := hl
        unpaused := by simpa using hpause
        role := hr
        total := htotal
        quota := hur ▸ hq
        annual := har ▸ ha
        lifetime := hlt ▸ hlf
        shared := by omega
        policy := rfl
        period := rfl
        annualIndex := rfl
        periodUsed := Role.forall_role.mpr ⟨rfl, hur.symm⟩
        annualUsed := Role.forall_role.mpr ⟨rfl, har.symm⟩
        releasedTotal := Role.forall_role.mpr ⟨rfl, hlt.symm⟩
        sharedUsed := hsh.symm
        vault := rfl }
  · rintro ⟨l, r, h⟩
    have hper := h.periodUsed r
    have hann := h.annualUsed r
    have htot := h.releasedTotal r
    rw [if_pos rfl] at hper hann htot
    -- The other role's counters are unchanged.
    have hused : l.periodUsed.set r (p'.periodUsed r) =
        ⟨p'.founderPeriodUsed, p'.treasuryPeriodUsed⟩ := by
      refine PerRole.ext_get fun s ↦ ?_
      rw [PerRole.get_set]
      split
      · next hs => subst hs; cases s <;> rfl
      · next hs =>
        have hu := h.periodUsed s
        rw [if_neg hs] at hu
        cases s <;> exact Fin.ext hu.symm
    have hannual : l.annualUsed.set r (p'.annualUsed r) =
        ⟨p'.founderAnnualUsed, p'.treasuryAnnualUsed⟩ := by
      refine PerRole.ext_get fun s ↦ ?_
      rw [PerRole.get_set]
      split
      · next hs => subst hs; cases s <;> rfl
      · next hs =>
        have hu := h.annualUsed s
        rw [if_neg hs] at hu
        cases s <;> exact Fin.ext hu.symm
    have hrel : (⟨p.founderReleasedTotal, p.treasuryReleasedTotal⟩ : PerRole U64).get r =
        p.releasedTotal r := by cases r <;> rfl
    have hsum : p'.sharedUsed.val =
        l.periodUsed.founder.val + l.periodUsed.treasury.val + amount.val := by
      have hf := h.periodUsed .founder
      have ht := h.periodUsed .treasury
      rw [h.sharedUsed]
      cases r <;> simp only [PerRole.get, LaunchPolicyV7.periodUsed, if_true, reduceCtorEq,
        if_false] at hf ht <;> omega
    refine ⟨l, h.limits, by simp [h.unpaused], r, h.role, by rw [h.total, hrel], p'.periodUsed r,
      hper.symm, p'.annualUsed r, hann.symm, p'.releasedTotal r, by rw [hrel, htot],
      p'.sharedUsed, by rw [hused, h.sharedUsed], Fin.le_def.mpr (hper ▸ h.quota),
      ⟨Fin.le_def.mpr (hann ▸ h.annual), Fin.le_def.mpr (htot ▸ h.lifetime),
        Fin.le_def.mpr (hsum ▸ h.shared)⟩, ?_, h.vault.symm⟩
    rw [hused, hannual, h.policy, ← h.period, ← h.annualIndex]
    cases r
    · have := Fin.ext (h.releasedTotal .treasury)
      simp_all [LaunchPolicyV7.releasedTotal, LaunchPolicyV7.withCounters]
    · have := Fin.ext (h.releasedTotal .founder)
      simp_all [LaunchPolicyV7.releasedTotal, LaunchPolicyV7.withCounters]

/-- `consume` changes counters only. -/
theorem consume_frame {v : LaunchVaultV7} {amount : U64} {p' : LaunchPolicyV7}
    {v' : LaunchVaultV7} (h : consume p v now amount = .ok (p', v')) :
    p' = p.withCounters p' ∧ v' = v.withCounters v' := by
  obtain ⟨l, r, hc⟩ := consume_eq_ok.mp h
  refine ⟨hc.policy, ?_⟩
  rw [hc.vault]
  rfl

end FundingVaults.LaunchV7
