import FundingVaults.LaunchV7.Caps
import FundingVaults.LaunchV7.Lifecycle

/-!
# The bookkeeping errors are unreachable

`window_limits` subtracts counters that are reset lazily, and `consume` checks four ceilings after
the quota.  In a policy that the program can reach, every subtraction is possible and the other
ceilings follow from the quota: a release is rejected for a correction pause, for its quota, or
because a counter would not fit.
-/

namespace FundingVaults.LaunchV7

/-! ## Consumption in place -/

/-- `consume` as the source has it, on accounts that its caller lends to it. -/
def consumeInPlace (now : I64) (amount : U64) :
    Lent ProgramError (LaunchPolicyV7 × LaunchVaultV7) PUnit := do
  let (p, v) ← get
  let limits ← .check (windowLimits p now)
  .check (require (¬ limits.correctionPause) LaunchError.CapacityCorrectionPause)
  let role ← .check (okOr (Role.ofU8 v.role) LaunchError.InvalidConfig)
  let total : PerRole U64 := ⟨p.founderReleasedTotal, p.treasuryReleasedTotal⟩
  .check (require (v.releasedTotal = total.get role) LaunchError.InvalidAccounting)
  let usedRole ← .check
    (okOr ((limits.periodUsed.get role).checkedAdd amount) LaunchError.Overflow)
  let used := limits.periodUsed.set role usedRole
  let annualRole ← .check
    (okOr ((limits.annualUsed.get role).checkedAdd amount) LaunchError.Overflow)
  let annualUsed := limits.annualUsed.set role annualRole
  let lifetime ← .check (okOr ((total.get role).checkedAdd amount) LaunchError.Overflow)
  let shared ← .check (okOr (used.founder.checkedAdd used.treasury) LaunchError.Overflow)
  .check (require (usedRole ≤ limits.quotas.get role) LaunchError.ReservedQuotaExceeded)
  .check (require (annualRole ≤ limits.annualCaps.get role ∧ lifetime ≤ v.principal ∧
    shared ≤ limits.capacity) LaunchError.CapacityExceeded)
  modify fun (p, v) ↦ ({ p with period := limits.period }, v)
  modify fun (p, v) ↦ ({ p with annualIndex := limits.annualIndex }, v)
  modify fun (p, v) ↦ ({ p with founderPeriodUsed := used.founder }, v)
  modify fun (p, v) ↦ ({ p with treasuryPeriodUsed := used.treasury }, v)
  modify fun (p, v) ↦ ({ p with founderAnnualUsed := annualUsed.founder }, v)
  modify fun (p, v) ↦ ({ p with treasuryAnnualUsed := annualUsed.treasury }, v)
  modify fun (p, v) ↦ ({ p with sharedUsed := shared }, v)
  match role with
  | .founder => modify fun (p, v) ↦ ({ p with founderReleasedTotal := lifetime }, v)
  | .treasury => modify fun (p, v) ↦ ({ p with treasuryReleasedTotal := lifetime }, v)
  modify fun (p, v) ↦ (p, { v with period := limits.period })
  modify fun (p, v) ↦ (p, { v with periodUsed := usedRole })
  modify fun (p, v) ↦ (p, { v with releasedTotal := lifetime })

/-- All checks stand before the first write. -/
theorem consumeInPlace_run (p : LaunchPolicyV7) (v : LaunchVaultV7) (now : I64) (amount : U64) :
    (consumeInPlace now amount).run.run (p, v) = Lent.commit (consume p v now amount) (p, v) := by
  unfold consumeInPlace consume
  rw [Lent.get_bind_run]
  refine Lent.check_bind_run fun limits ↦ ?_
  refine Lent.check_bind_run fun _ ↦ ?_
  refine Lent.check_bind_run fun role ↦ ?_
  refine Lent.check_bind_run fun _ ↦ ?_
  refine Lent.check_bind_run fun usedRole ↦ ?_
  refine Lent.check_bind_run fun annualRole ↦ ?_
  refine Lent.check_bind_run fun lifetime ↦ ?_
  refine Lent.check_bind_run fun shared ↦ ?_
  refine Lent.check_bind_run fun _ ↦ ?_
  refine Lent.check_bind_run fun _ ↦ ?_
  cases role <;> rfl

/-! ## Books -/

variable {P : Pubkey} {V V' : View} {e : Event} {xs : List Event} {chain : Chain}

/-- The books of a policy agree with its clock, with each other and with those of its vaults. -/
structure Booked (V : View) : Prop where
  period : V.policy.period.val = 0 ∨
    (V.policy.period.val : ℤ) ≤ V.policy.config.periodOf V.policy.lastActionAt
  shared : V.policy.founderPeriodUsed.val + V.policy.treasuryPeriodUsed.val =
    V.policy.sharedUsed.val
  untouched : V.policy.state ≠ ACTIVE → ∀ r, V.policy.releasedTotal r = 0
  vault : ∀ r v, V.vault r = some v → v.releasedTotal = V.policy.releasedTotal r

theorem periodOf_mono {c : LaunchConfig} {t t' : I64} (h : t ≤ t') :
    c.periodOf t ≤ c.periodOf t' :=
  Int.ediv_le_ediv (by decide) (Int.sub_le_sub_right h _)

/-- A step that changes neither counters nor vaults, and does not leave the active state. -/
theorem Booked.frame (h : Booked V) (hclock : V.policy.lastActionAt ≤ V'.policy.lastActionAt)
    (hconfig : V'.policy.config = V.policy.config)
    (hperiod : V'.policy.period = V.policy.period)
    (hused : V'.policy.periodUsed = V.policy.periodUsed)
    (hshared : V'.policy.sharedUsed = V.policy.sharedUsed)
    (htotal : V'.policy.releasedTotal = V.policy.releasedTotal)
    (hstate : V'.policy.state ≠ ACTIVE → V.policy.state ≠ ACTIVE)
    (hvault : ∀ r v, V'.vault r = some v → v.releasedTotal = V.policy.releasedTotal r) :
    Booked V' where
  period := by
    rw [hperiod, hconfig]
    exact h.period.imp_right fun hp ↦ hp.trans (periodOf_mono hclock)
  shared := by
    rw [hshared, ← h.shared]
    change (V'.policy.periodUsed .founder).val + (V'.policy.periodUsed .treasury).val = _
    rw [hused]
    rfl
  untouched hn r := htotal ▸ h.untouched (hstate hn) r
  vault r v hv := htotal ▸ hvault r v hv

/-- A release books its amount on the policy and on its vault. -/
theorem Booked.release {now : I64} {r : Role} {amount : U64} {v v' : LaunchVaultV7}
    {p' : LaunchPolicyV7} {l : WindowLimits} (h : Booked V) (hstate : V.policy.state = ACTIVE)
    (hc : Consumed { V.policy with lastActionAt := now } v now amount p' v' l r)
    (hpolicy : V'.policy = { V.policy with lastActionAt := now }.withCounters p')
    (hvault : V'.vault = Function.update V.vault r (some (v.withCounters v'))) : Booked V' where
  period := by
    obtain ⟨i, hl⟩ := windowLimits_eq_ok.mp hc.limits
    have hk := (periodAt_eq_ok.mp hl.period).2.2
    rw [hpolicy]
    exact .inr (by rw [← hc.period] at hk; exact hk.le)
  shared := by
    rw [hpolicy]
    exact hc.sharedUsed.symm
  untouched hn := absurd (by rw [hpolicy]; exact hstate) hn
  vault s u hu := by
    have htotal : V'.policy.releasedTotal s = p'.releasedTotal s := by
      rw [hpolicy]
      cases s <;> rfl
    rw [hvault] at hu
    rw [htotal]
    by_cases hs : s = r
    · subst hs
      rw [Function.update_self] at hu
      obtain rfl := Option.some.inj hu
      rw [hc.vault]
      rfl
    · rw [Function.update_of_ne hs] at hu
      have hrest := hc.releasedTotal s
      rw [if_neg hs, Nat.add_zero] at hrest
      rw [h.vault s u hu]
      exact (Fin.ext hrest).symm

theorem Opened.booked (h : Opened chain e V) : Booked V where
  period := .inl (by rw [h.policy]; rfl)
  shared := by rw [h.policy]; rfl
  untouched _ r := by
    rw [h.policy]
    cases r <;> rfl
  vault := by simp [h.vault]

theorem Step.booked (h : Step P V e V') (hb : Booked V) : Booked V' := by
  have hclock := h.clock_le
  cases h with
  | deposit guard =>
    have hn : V.policy.state ≠ ACTIVE := by
      rw [guard.state]
      decide
    refine hb.frame hclock rfl rfl rfl rfl rfl (fun hn ↦ hn) ?_
    intro r v hv
    simp only [View.put] at hv
    split at hv
    · obtain rfl := Option.some.inj hv
      exact (hb.untouched hn r).symm
    · exact hb.vault r v hv
  | arm tick state =>
    exact hb.frame hclock rfl rfl rfl rfl rfl (fun _ ↦ by rw [state]; decide) hb.vault
  | activate tick state =>
    exact hb.frame hclock rfl rfl rfl rfl rfl (fun _ ↦ by rw [state]; decide) hb.vault
  | cancel tick state =>
    refine hb.frame hclock rfl rfl rfl rfl rfl (fun _ ↦ ?_) hb.vault
    rcases state with state | state
    · rw [state]
      decide
    · rw [state]
      decide
  | expireUnarmed tick state =>
    exact hb.frame hclock rfl rfl rfl rfl rfl (fun _ ↦ by rw [state]; decide) hb.vault
  | @releaseFounder _ _ _ _ _ _ _ v v' p' guard cliff consumed =>
    obtain ⟨l, r, hc⟩ := consume_eq_ok.mp consumed
    obtain rfl : r = .founder := Role.toU8_inj.mp (hc.role.symm.trans guard.role)
    exact hb.release guard.state hc rfl
      (View.put_vault (V := V.put (.policy p')) (v := v.withCounters v') guard.role :)
  | @releaseTreasury _ _ _ _ _ _ _ _ v v' p' k a used guard approved counted consumed =>
    obtain ⟨l, r, hc⟩ := consume_eq_ok.mp consumed
    obtain rfl : r = .treasury := Role.toU8_inj.mp (hc.role.symm.trans guard.role)
    exact hb.release guard.state hc rfl
      (View.put_vault (V := V.put (.policy p')) (v := v.withCounters v') guard.role :)
  | _ => exact hb.frame hclock rfl rfl rfl rfl rfl (fun hn ↦ hn) hb.vault

theorem path_booked (h : (machine chain P).Path xs V) : Booked V :=
  h.always Opened.booked fun hb hs ↦ Step.booked hs hb

/-! ## The limits exist -/

/-- A pair of numbers in range is the value of a pair of `U64`. -/
theorem PerRole.exists_val {f : Role → ℕ} (h : ∀ r, f r < 2 ^ 64) :
    ∃ x : PerRole U64, ∀ r, (x.get r).val = f r :=
  ⟨⟨⟨f .founder, h _⟩, ⟨f .treasury, h _⟩⟩, Role.forall_role.mpr ⟨rfl, rfl⟩⟩

/-- The limits exist where no subtraction of `window_limits` underflows. -/
theorem Limits.exists {p : LaunchPolicyV7} {now : I64} {k : U64} {i : Fin 2}
    {used annual : PerRole U64} (hk : periodAt p.config.t0 now = .ok k) (hper : p.period ≤ k)
    (hi : position p.config.annualRules k = some i) (hidx : p.annualIndex.toNat ≤ i.val)
    (hstored : p.founderPeriodUsed.val + p.treasuryPeriodUsed.val = p.sharedUsed.val)
    (hused : ∀ r, used.get r = if k = p.period then p.periodUsed r else 0)
    (hannual : ∀ r, annual.get r = if i.val = p.annualIndex.toNat then p.annualUsed r else 0)
    (hrate : (p.config.rule i).releaseBps ≤ MAX_RELEASE_BPS)
    (hprior : ∀ r, (used.get r).val ≤ (annual.get r).val)
    (hreleased : ∀ r, (used.get r).val ≤ (p.releasedTotal r).val)
    (hcap : ∀ r, (annual.get r).val - (used.get r).val ≤ (p.config.rule i).annual r)
    (hprincipal : ∀ r, (p.releasedTotal r).val - (used.get r).val ≤ (p.config.principal r).val)
    (hshared : (annual.founder.val - used.founder.val) +
      (annual.treasury.val - used.treasury.val) ≤ (p.config.rule i).sharedCap.val)
    (hcliff : p.config.t0.val + 15552000 < 2 ^ 63) : ∃ l, l.period = k ∧ Limits p now l i := by
  obtain ⟨annualCaps, hannualCaps⟩ := PerRole.exists_val (f := (p.config.rule i).annual) fun r ↦ by
    have hrate : (p.config.rule i).releaseBps.val ≤ 500 := hrate
    have hlt := ((p.config.rule i).basis r).isLt
    have hle := Nat.mul_le_mul_left ((p.config.rule i).basis r).val hrate
    simp only [AnnualRule.annual]
    omega
  obtain ⟨caps, hcaps⟩ := PerRole.exists_val (f := fun r ↦
    min (min (min (p.config.periodCap r).val ((annualCaps.get r).val / 12))
      ((annualCaps.get r).val - ((annual.get r).val - (used.get r).val)))
      ((p.config.principal r).val - ((p.releasedTotal r).val - (used.get r).val)))
    fun r ↦ ((min_le_left _ _).trans ((min_le_left _ _).trans (min_le_left _ _))).trans_lt
      (p.config.periodCap r).isLt
  obtain ⟨capacity, hcapacity⟩ := U64.exists_val_eq
    (x := min (min p.reportCapacity.val p.config.sharedHardCap.val)
      ((p.config.rule i).sharedCap.val -
        ((annual.founder.val - used.founder.val) + (annual.treasury.val - used.treasury.val))))
    (((min_le_left _ _).trans (min_le_left _ _)).trans_lt p.reportCapacity.isLt)
  obtain ⟨quotas, hquotas⟩ : ∃ q, q = reservedQuotas capacity caps.founder caps.treasury
    (decide (p.config.t0.val + 15552000 ≤ now.val)) := ⟨_, rfl⟩
  exact ⟨{
    period := k
    annualIndex := UInt8.ofNat i.val
    periodUsed := used
    annualUsed := annual
    annualCaps
    caps
    quotas
    capacity
    correctionPause := decide (used.founder > quotas.founder ∨ used.treasury > quotas.treasury) },
    rfl, {
    period := hk
    policyPeriod := hper
    rule := hi
    annualIndex := rfl
    forward := hidx
    stored := hstored
    periodUsed := hused
    annualUsed := hannual
    rate := hrate
    annualCaps := hannualCaps
    prior := hprior
    released := hreleased
    annualLeft := fun r ↦ (hcap r).trans (hannualCaps r).ge
    principalLeft := hprincipal
    caps := hcaps
    sharedLeft := hshared
    capacity := hcapacity.symm
    cliff := hcliff
    quotas := hquotas
    pause := rfl }⟩

/-- The first rule that covers a period is the only one. -/
theorem position_of_covers {c : LaunchConfig}
    (hc : (c.rule 0).endPeriod = (c.rule 1).startPeriod) {k : U64} {i : Fin 2}
    (hi : (c.rule i).covers k) : position c.annualRules k = some i := by
  have hcon : ∀ {j}, (c.rule j).covers k → (c.rule j).contains k.val := fun hj ↦
    ⟨by exact_mod_cast hj.1, by exact_mod_cast hj.2⟩
  obtain ⟨j, hj⟩ : ∃ j, position c.annualRules k = some j := by
    rw [← Option.isSome_iff_exists, position, List.find?_isSome]
    exact ⟨i, List.mem_finRange i, decide_eq_true hi⟩
  have hcov : (c.rule j).covers k := by simpa [LaunchConfig.rule] using List.find?_some hj
  rw [hj, contains_unique hc (hcon hcov) (hcon hi)]

section Limits

variable (hc : Counted xs V) (hw : WithinCaps V.policy.config xs) (hb : Booked V)
  (hr : ∀ i, ValidRule V.policy.config (V.policy.config.rule i))
  (hcliff : V.policy.config.t0.val + 15552000 < 2 ^ 63) {now : I64} {k : U64} {i : Fin 2}
  (hnow : V.policy.lastActionAt ≤ now) (hk : periodAt V.policy.config.t0 now = .ok k)
  (hi : (V.policy.config.rule i).covers k)
include hb hnow hk

omit hc hw hr hcliff hi in
/-- The period of the last release is not a later one. -/
theorem Booked.period_le : V.policy.period ≤ k := by
  have hkv := (periodAt_eq_ok.mp hk).2.2
  rcases hb.period with h0 | hle
  · exact Fin.le_def.mpr (h0 ▸ Nat.zero_le _)
  · have hmono := hle.trans (periodOf_mono (c := V.policy.config) hnow)
    rw [LaunchConfig.periodOf, ← hkv] at hmono
    exact Fin.le_def.mpr (by exact_mod_cast hmono)

include hc hi in
omit hw hr hcliff in
/-- Nor is its rule. -/
theorem Booked.index_le : V.policy.annualIndex.toNat ≤ i.val := by
  obtain ⟨j, hj, hcov, -⟩ := hc.annual
  rw [hj]
  by_contra hlt
  have hle : V.policy.period.val ≤ k.val := hb.period_le hnow hk
  exact not_contains_later hc.contiguous (Fin.lt_def.mpr (Nat.lt_of_not_le hlt))
    (k := V.policy.period.val) (m := k.val) (by exact_mod_cast hi.2) (by exact_mod_cast hle)
    ⟨by exact_mod_cast hcov.1, by exact_mod_cast hcov.2⟩

include hc hw hr hcliff hi in
/-- Every subtraction of `window_limits` is possible. -/
theorem Booked.exists_limits : ∃ l, l.period = k ∧ Limits V.policy now l i := by
  have hper := hb.period_le hnow hk
  have hidx := hb.index_le hc hnow hk hi
  have hin : (V.policy.config.rule i).contains k.val :=
    ⟨by exact_mod_cast hi.1, by exact_mod_cast hi.2⟩
  have hroll := hc.rollover hper hidx
  obtain ⟨used, hused⟩ : ∃ x : PerRole U64, ∀ r,
      x.get r = if k = V.policy.period then V.policy.periodUsed r else 0 :=
    ⟨⟨_, _⟩, Role.forall_role.mpr ⟨rfl, rfl⟩⟩
  obtain ⟨annual, hannual⟩ : ∃ x : PerRole U64, ∀ r,
      x.get r = if i.val = V.policy.annualIndex.toNat then V.policy.annualUsed r else 0 :=
    ⟨⟨_, _⟩, Role.forall_role.mpr ⟨rfl, rfl⟩⟩
  have hu : ∀ r, (used.get r).val = released r _ xs := fun r ↦ hused r ▸ (hroll r).1
  have ha : ∀ r, (annual.get r).val = released r _ xs := fun r ↦ hannual r ▸ (hroll r).2
  -- The period lies in the rule, and the rule in the lifetime of the policy.
  have hprior : ∀ r, (used.get r).val ≤ (annual.get r).val := fun r ↦ by
    rw [hu, ha]
    refine tally_mono fun e he ↦ ?_
    change (V.policy.config.rule i).contains (V.policy.config.periodOf e.now)
    rwa [show V.policy.config.periodOf e.now = k.val from he]
  have hreleased : ∀ r, (used.get r).val ≤ (V.policy.releasedTotal r).val := fun r ↦ by
    rw [hu, hc.total]
    exact tally_mono fun _ _ ↦ trivial
  have hcap : ∀ r, (annual.get r).val ≤ (V.policy.config.rule i).annual r := fun r ↦
    (ha r).trans_le (hw.annual r i)
  have hprincipal : ∀ r, (V.policy.releasedTotal r).val ≤ (V.policy.config.principal r).val :=
    fun r ↦ (hc.total r).trans_le (hw.principal r)
  have hshared : (annual.get .founder).val + (annual.get .treasury).val ≤
      (V.policy.config.rule i).sharedCap.val := by
    rw [ha, ha]
    exact hw.annualShared i
  exact Limits.exists hk hper (position_of_covers hc.contiguous hi) hidx hb.shared hused hannual
    (hr i).rate hprior hreleased (fun r ↦ (Nat.sub_le _ _).trans (hcap r))
    (fun r ↦ (Nat.sub_le _ _).trans (hprincipal r))
    ((Nat.add_le_add (Nat.sub_le _ _) (Nat.sub_le _ _)).trans hshared) hcliff

end Limits

/-! ## Exactness -/

/-- Some counter of `r` would not fit after `amount`. -/
def Overflows (p : LaunchPolicyV7) (l : WindowLimits) (r : Role) (amount : U64) : Prop :=
  2 ^ 64 ≤ (l.periodUsed.get r).val + amount.val ∨
    2 ^ 64 ≤ (l.annualUsed.get r).val + amount.val ∨
    2 ^ 64 ≤ (p.releasedTotal r).val + amount.val ∨
    2 ^ 64 ≤ l.periodUsed.founder.val + l.periodUsed.treasury.val + amount.val

section Consume

variable {p : LaunchPolicyV7} {v : LaunchVaultV7} {r : Role} {now : I64} {amount : U64}
  {l : WindowLimits} {i : Fin 2} (hl : Limits p now l i) (hrole : v.role = r.toU8)
  (htotal : v.releasedTotal = p.releasedTotal r)
include hl

/-- Away from a pause the counters are within the quotas, whose sum is within the capacity. -/
theorem Limits.within (h : ¬ l.correctionPause) (s : Role) :
    (l.periodUsed.get s).val ≤ (l.quotas.get s).val := by
  rw [hl.pause, decide_eq_true_eq, not_or] at h
  cases s
  · exact Fin.le_def.mp (not_lt.mp h.1)
  · exact Fin.le_def.mp (not_lt.mp h.2)

/-- Within the quota every sum fits and no other ceiling binds. -/
theorem Limits.ceilings (h : ¬ l.correctionPause)
    (hq : (l.periodUsed.get r).val + amount.val ≤ (l.quotas.get r).val) :
    (l.annualUsed.get r).val + amount.val ≤ (l.annualCaps.get r).val ∧
      (p.releasedTotal r).val + amount.val ≤ (p.config.principal r).val ∧
      l.periodUsed.founder.val + l.periodUsed.treasury.val + amount.val ≤ l.capacity.val := by
  have hcaps := (hl.quotas_le r).trans (hl.caps r).le
  have hannual := (hcaps.trans (min_le_left _ _)).trans (min_le_right _ _)
  have hlife := hcaps.trans (min_le_right _ _)
  have hprior := hl.prior r
  have hreleased := hl.released r
  have hleft := hl.annualLeft r
  have hpleft := hl.principalLeft r
  have hsum := hl.quotas_sum_le
  have hF : l.periodUsed.founder.val ≤ l.quotas.founder.val := hl.within h .founder
  have hT : l.periodUsed.treasury.val ≤ l.quotas.treasury.val := hl.within h .treasury
  refine ⟨by omega, by omega, ?_⟩
  cases r with
  | founder =>
    have hq : l.periodUsed.founder.val + amount.val ≤ l.quotas.founder.val := hq
    omega
  | treasury =>
    have hq : l.periodUsed.treasury.val + amount.val ≤ l.quotas.treasury.val := hq
    omega

theorem Limits.not_overflows (h : ¬ l.correctionPause)
    (hq : (l.periodUsed.get r).val + amount.val ≤ (l.quotas.get r).val) :
    ¬ Overflows p l r amount := by
  obtain ⟨ha, ht, hs⟩ := hl.ceilings h hq
  have := (l.quotas.get r).isLt
  have := (l.annualCaps.get r).isLt
  have := (p.config.principal r).isLt
  have := l.capacity.isLt
  simp only [Overflows]
  omega

variable (hrole : v.role = r.toU8) (htotal : v.releasedTotal = p.releasedTotal r)
  (hprincipal : v.principal = p.config.principal r)
include hrole htotal hprincipal

/-- The failures of `consume`: a pause, a sum that does not fit, the quota. -/
theorem Limits.consume_error {e : ProgramError} (h : consume p v now amount = .error e) :
    (l.correctionPause ∧ e = LaunchError.CapacityCorrectionPause) ∨
      (¬ l.correctionPause ∧ Overflows p l r amount ∧ e = LaunchError.Overflow) ∨
      (¬ l.correctionPause ∧ ¬ Overflows p l r amount ∧
        (l.quotas.get r).val < (l.periodUsed.get r).val + amount.val ∧
        e = LaunchError.ReservedQuotaExceeded) := by
  have htot : (⟨p.founderReleasedTotal, p.treasuryReleasedTotal⟩ : PerRole U64).get r =
      p.releasedTotal r := by cases r <;> rfl
  have hset : ∀ u : U64, (l.periodUsed.get r).val + amount.val = u.val →
      (l.periodUsed.set r u).founder.val + (l.periodUsed.set r u).treasury.val =
        l.periodUsed.founder.val + l.periodUsed.treasury.val + amount.val := by
    intro u hu
    cases r <;> simp only [PerRole.get, PerRole.set] at * <;> omega
  simp only [consume, bind_eq_error, hl.windowLimits, hrole, Role.ofU8_toU8, htot, htotal,
    require_eq_error, okOr_eq_error, okOr_eq_ok, require_eq_ok, reduceCtorEq,
    Except.ok.injEq, Option.some.injEq, false_or, exists_eq_left', exists_const, false_and,
    U64.checkedAdd_eq_none, U64.checkedAdd_eq_some] at h
  rcases h with ⟨hp, rfl⟩ | ⟨hp, ⟨hn, -⟩ | ⟨-, h⟩⟩
  · exact .inl ⟨not_not.mp hp, rfl⟩
  · exact absurd trivial hn
  right
  rcases h with ⟨ho, rfl⟩ | ⟨u, hu, h⟩
  · exact .inl ⟨hp, .inl ho, rfl⟩
  rcases h with ⟨ho, rfl⟩ | ⟨a, ha, h⟩
  · exact .inl ⟨hp, .inr (.inl ho), rfl⟩
  rcases h with ⟨ho, rfl⟩ | ⟨t, ht, h⟩
  · exact .inl ⟨hp, .inr (.inr (.inl ho)), rfl⟩
  rw [hset u hu] at h
  rcases h with ⟨ho, rfl⟩ | ⟨s, hs, h⟩
  · exact .inl ⟨hp, .inr (.inr (.inr ho)), rfl⟩
  have hfit : ¬ Overflows p l r amount := by
    have := u.isLt
    have := a.isLt
    have := t.isLt
    have := s.isLt
    simp only [Overflows]
    omega
  rcases h with ⟨hq, rfl⟩ | ⟨hq, h⟩
  · exact .inr ⟨hp, hfit, by rw [Fin.le_def] at hq; omega, rfl⟩
  -- Nothing is left to fail once the quota is respected.
  rw [Fin.le_def, ← hu] at hq
  obtain ⟨hca, hct, hcs⟩ := hl.ceilings hp hq
  rcases h with ⟨hc, -⟩ | ⟨-, h⟩
  · refine absurd ⟨?_, ?_, ?_⟩ hc
    · exact Fin.le_def.mpr (ha ▸ hca)
    · exact Fin.le_def.mpr (hprincipal ▸ ht ▸ hct)
    · exact Fin.le_def.mpr (hs ▸ hcs)
  · cases h

/-- `consume` accepts exactly what the quota has left. -/
theorem Limits.consume_ok : (∃ s, consume p v now amount = .ok s) ↔
    ¬ l.correctionPause ∧
      (l.periodUsed.get r).val + amount.val ≤ (l.quotas.get r).val := by
  constructor
  · rintro ⟨⟨p', v'⟩, h⟩
    obtain ⟨l', s, hc⟩ := consume_eq_ok.mp h
    obtain rfl : l = l' := by simpa using hl.windowLimits.symm.trans hc.limits
    obtain rfl : r = s := Role.toU8_inj.mp (hrole.symm.trans hc.role)
    exact ⟨by simp [hc.unpaused], hc.quota⟩
  · rintro ⟨hp, hq⟩
    cases h : consume p v now amount with
    | ok s => exact ⟨s, rfl⟩
    | error e =>
      rcases hl.consume_error hrole htotal hprincipal h with ⟨h, -⟩ | ⟨-, h, -⟩ | ⟨-, -, h, -⟩
      · exact absurd h hp
      · exact absurd h (hl.not_overflows hp hq)
      · omega

/-- The three kinds of failure exclude each other. -/
theorem Limits.consume_error_iff {e : ProgramError} : consume p v now amount = .error e ↔
    (l.correctionPause ∧ e = LaunchError.CapacityCorrectionPause) ∨
      (¬ l.correctionPause ∧ Overflows p l r amount ∧ e = LaunchError.Overflow) ∨
      (¬ l.correctionPause ∧ ¬ Overflows p l r amount ∧
        (l.quotas.get r).val < (l.periodUsed.get r).val + amount.val ∧
        e = LaunchError.ReservedQuotaExceeded) := by
  refine ⟨hl.consume_error hrole htotal hprincipal, fun he ↦ ?_⟩
  cases h : consume p v now amount with
  | ok s =>
    obtain ⟨hp, hq⟩ := (hl.consume_ok hrole htotal hprincipal).mp ⟨s, h⟩
    rcases he with ⟨h, -⟩ | ⟨-, h, -⟩ | ⟨-, -, h, -⟩
    · exact absurd h hp
    · exact absurd h (hl.not_overflows hp hq)
    · omega
  | error e' =>
    have he' := hl.consume_error hrole htotal hprincipal h
    congr 1
    rcases he with ⟨h, rfl⟩ | ⟨hp, h, rfl⟩ | ⟨hp, hn, h, rfl⟩
    · simpa [h] using he'
    · simpa [hp, h] using he'
    · simpa [hp, hn, h] using he'

end Consume

/-- In every state that can be reached the limits of a covered period exist. -/
theorem Reachable.exists_limits {d : Deployment} {tr : List Entry} {L : Ledger} {now : I64}
    {k : U64} {i : Fin 2} (h : Reachable d tr L) (hV : L.view d.toChain P = some V)
    (hnow : V.policy.lastActionAt ≤ now) (hk : periodAt V.policy.config.t0 now = .ok k)
    (hi : (V.policy.config.rule i).covers k) : ∃ l, l.period = k ∧ Limits V.policy now l i := by
  have hpath := h.path hV
  obtain ⟨hc, hw⟩ := path_counted hpath
  obtain ⟨_, V₀, -, h₀, hsame⟩ := path_opening hpath
  have hvalid := h₀.valid
  exact (path_booked hpath).exists_limits hc hw (by rw [hsame.config]; exact hvalid.rule)
    (by rw [hsame.config]; exact hvalid.cliff) hnow hk hi

/-- What a release of any amount by `r` may meet, `l` being its limits. -/
structure Exact (p : LaunchPolicyV7) (v : LaunchVaultV7) (r : Role) (now : I64)
    (l : WindowLimits) : Prop where
  /-- The counters are read after the rollover. -/
  used : ∀ s, l.periodUsed.get s = if l.period = p.period then p.periodUsed s else 0
  accepts : ∀ amount, (∃ s, consume p v now amount = .ok s) ↔
    ¬ l.correctionPause ∧ (l.periodUsed.get r).val + amount.val ≤ (l.quotas.get r).val
  rejects : ∀ amount e, consume p v now amount = .error e ↔
    (l.correctionPause ∧ e = LaunchError.CapacityCorrectionPause) ∨
      (¬ l.correctionPause ∧ Overflows p l r amount ∧ e = LaunchError.Overflow) ∨
      (¬ l.correctionPause ∧ ¬ Overflows p l r amount ∧
        (l.quotas.get r).val < (l.periodUsed.get r).val + amount.val ∧
        e = LaunchError.ReservedQuotaExceeded)
  inPlace : ∀ amount s, consume p v now amount = .ok s →
    (consumeInPlace now amount).run.run (p, v) = (.ok ⟨⟩, s)
  unchanged : ∀ amount e s, (consumeInPlace now amount).run.run (p, v) = (.error e, s) →
    consume p v now amount = .error e ∧ s = (p, v)

/-- In every state that can be reached, at every later time inside an annual rule, the limits
exist and a release is accepted exactly if there is no correction pause and its amount is within
what the quota has left.  An active policy is one whose `t0` has passed, which `periodAt` checks
again. -/
theorem Reachable.consume_exact {d : Deployment} {tr : List Entry} {L : Ledger}
    {p : LaunchPolicyV7} {v : LaunchVaultV7} {key : Pubkey} {r : Role} {now : I64} {k : U64}
    {i : Fin 2} (h : Reachable d tr L) (hp : L.policyAt P = some p)
    (hv : L.program key = some (.vault v)) (hP : v.policy = P) (hr : v.role = r.toU8)
    (hnow : p.lastActionAt ≤ now) (hk : periodAt p.config.t0 now = .ok k)
    (hi : (p.config.rule i).covers k) :
    ∃ l, windowLimits p now = .ok l ∧ l.period = k ∧ Exact p v r now l := by
  obtain ⟨V, hV, rfl⟩ := Ledger.exists_view d.toChain (Ledger.policyAt_eq_some.mp hp)
  have hpath := h.path hV
  obtain ⟨l, rfl, hl⟩ := h.exists_limits hV hnow hk hi
  have hvault : V.vault r = some v := by
    rw [View.vault_eq_some hV, ← hP, ← hr]
    exact ⟨(h.sound.canonical hv).address ▸ hv, rfl, rfl⟩
  have htotal := (path_booked hpath).vault r v hvault
  have hprincipal := (path_counted hpath).1.principal r v hvault
  refine ⟨l, hl.windowLimits, rfl, {
    used := hl.periodUsed
    accepts := fun amount ↦ hl.consume_ok hr htotal hprincipal
    rejects := fun amount e ↦ hl.consume_error_iff hr htotal hprincipal
    inPlace := fun amount s hok ↦ by rw [consumeInPlace_run, hok]; rfl
    unchanged := fun amount e s hrun ↦ by
      rw [consumeInPlace_run] at hrun
      exact Lent.commit_error hrun }⟩

/-- The founder's vault of the sample launch, after its last release. -/
theorem consume_exact_sample : ∃ p v l, Sample.run.2.policyAt Sample.policy = some p ∧
    windowLimits p (Sample.seconds 15563200) = .ok l ∧
    Exact p v .founder (Sample.seconds 15563200) l := by
  have hfacts : ((Sample.run.2.policyAt Sample.policy).any fun p ↦
      ((Sample.run.2.program (Sample.vault .founder)).bind ProgramAccount.vault?).any fun v ↦
        decide (v.policy = Sample.policy ∧ v.role = Role.founder.toU8 ∧
          p.lastActionAt ≤ Sample.seconds 15563200 ∧ p.config.t0.val = 10000 ∧
          (p.config.rule 0).covers 6)) = true := by
    decide +kernel
  simp only [Option.any_eq_true, decide_eq_true_eq, bind_vault?] at hfacts
  obtain ⟨p, hp, v, hv, hP, hr, hnow, ht0, hi⟩ := hfacts
  have hk : periodAt p.config.t0 (Sample.seconds 15563200) = .ok 6 :=
    periodAt_eq_ok.mpr (by rw [ht0]; decide)
  obtain ⟨l, hl, -, he⟩ := Sample.run_reachable.consume_exact hp hv hP hr hnow hk hi
  exact ⟨p, v, l, hp, hl, he⟩

end FundingVaults.LaunchV7
