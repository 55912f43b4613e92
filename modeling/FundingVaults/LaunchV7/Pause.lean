import FundingVaults.LaunchV7.Exact

/-!
# What a correction pause comes from

The quotas of a period depend on what was released before it and on the reported capacity, and
they grow with the capacity.  Whatever the program does inside a period leaves what was released
before it alone, so a counter exceeds its quota only after a report below the one under which the
counter was filled.
-/

namespace FundingVaults.LaunchV7

/-! ## Quotas of a period -/

namespace LaunchConfig

variable (c : LaunchConfig) (i : Fin 2) (annual lifetime : Role → ℕ)

/-- What a role may claim in a period of rule `i`, `annual` and `lifetime` having been released
before the period. -/
def share (r : Role) : ℕ :=
  min (min (min (c.periodCap r).val ((c.rule i).annual r / 12)) ((c.rule i).annual r - annual r))
    ((c.principal r).val - lifetime r)

/-- What the roles divide. -/
def capacity (report : ℕ) : ℕ :=
  min (min report c.sharedHardCap.val)
    ((c.rule i).sharedCap.val - (annual .founder + annual .treasury))

/-- The quotas of period `k`.  The founder claims nothing in the first six periods. -/
def quota (k report : ℕ) : Role → ℕ
  | .founder => Apportion.first (c.capacity i annual report)
      (if 6 ≤ k then c.share i annual lifetime .founder else 0) (c.share i annual lifetime .treasury)
  | .treasury => Apportion.second (c.capacity i annual report)
      (if 6 ≤ k then c.share i annual lifetime .founder else 0) (c.share i annual lifetime .treasury)

variable {c i annual lifetime}

theorem capacity_mono {x y : ℕ} (h : x ≤ y) : c.capacity i annual x ≤ c.capacity i annual y :=
  min_le_min_right _ (min_le_min_right _ h)

theorem quota_mono {k x y : ℕ} (h : x ≤ y) (r : Role) :
    c.quota i annual lifetime k x r ≤ c.quota i annual lifetime k y r := by
  cases r with
  | founder => exact Apportion.first_mono (capacity_mono h)
  | treasury => exact Apportion.second_mono (capacity_mono h)

end LaunchConfig

section Quota

variable {p : LaunchPolicyV7} {now now' : I64} {l l' : WindowLimits} {i j : Fin 2}

/-- The cliff falls on the start of a period. -/
theorem eligible_iff {t0 : I64} {k : U64} (h : periodAt t0 now = .ok k) :
    t0.val + 15552000 ≤ now.val ↔ 6 ≤ k.val := by
  obtain ⟨-, -, hk⟩ := periodAt_eq_ok.mp h
  omega

/-- Released in the rule, and in all, before the period of the limits. -/
def WindowLimits.priorAnnual (l : WindowLimits) (r : Role) : ℕ :=
  (l.annualUsed.get r).val - (l.periodUsed.get r).val

def WindowLimits.priorLifetime (l : WindowLimits) (p : LaunchPolicyV7) (r : Role) : ℕ :=
  (p.releasedTotal r).val - (l.periodUsed.get r).val

theorem Limits.capacity_eq (hl : Limits p now l i) :
    l.capacity.val = p.config.capacity i l.priorAnnual p.reportCapacity.val := hl.capacity

theorem Limits.caps_eq (hl : Limits p now l i) (r : Role) :
    (l.caps.get r).val = p.config.share i l.priorAnnual (l.priorLifetime p) r := by
  rw [hl.caps, hl.annualCaps]
  rfl

theorem Limits.quota_eq (hl : Limits p now l i) (r : Role) :
    (l.quotas.get r).val = p.config.quota i l.priorAnnual (l.priorLifetime p) l.period.val
      p.reportCapacity.val r := by
  have hF : l.caps.founder.val = _ := hl.caps_eq .founder
  have hT : l.caps.treasury.val = _ := hl.caps_eq .treasury
  have hel := eligible_iff hl.period
  rw [hl.quotas]
  cases r with
  | founder =>
    refine reservedQuotas_founder.trans ?_
    simp only [LaunchConfig.quota, hl.capacity_eq, hF, hT, decide_eq_true_eq, hel]
  | treasury =>
    refine reservedQuotas_treasury.trans ?_
    simp only [LaunchConfig.quota, hl.capacity_eq, hF, hT, decide_eq_true_eq, hel]

theorem Limits.pause_iff (hl : Limits p now l i) :
    l.correctionPause ↔ ∃ r, (l.quotas.get r).val < (l.periodUsed.get r).val := by
  rw [hl.pause, decide_eq_true_eq]
  constructor
  · rintro (h | h)
    · exact ⟨.founder, h⟩
    · exact ⟨.treasury, h⟩
  · rintro ⟨_ | _, h⟩
    · exact .inl h
    · exact .inr h

/-- The index is determined by the period. -/
theorem Limits.index_unique (hl : Limits p now l i) {p' : LaunchPolicyV7}
    (hl' : Limits p' now' l' j) (hconfig : p'.config = p.config) (hperiod : l'.period = l.period) :
    j = i := by
  have h := hl'.rule
  rw [hconfig, hperiod, hl.rule] at h
  exact (Option.some.inj h).symm

end Quota

/-! ## A larger report -/

/-- The policy with another reported capacity, all else equal. -/
def LaunchPolicyV7.withReport (p : LaunchPolicyV7) (report : U64) : LaunchPolicyV7 :=
  { p with reportCapacity := report }

section Report

variable {p p' : LaunchPolicyV7} {now : I64} {l : WindowLimits} {i : Fin 2} {report : U64}
  (h : p.reportCapacity ≤ report)
include h

/-- A larger report raises the quotas and lifts pauses. -/
theorem Limits.withReport (hl : Limits p now l i) :
    ∃ l', Limits (p.withReport report) now l' i ∧ l'.periodUsed = l.periodUsed ∧
      l'.annualUsed = l.annualUsed ∧ l'.annualCaps = l.annualCaps ∧ l'.period = l.period ∧
      l'.annualIndex = l.annualIndex ∧ l.capacity ≤ l'.capacity ∧
      (∀ r, (l.quotas.get r).val ≤ (l'.quotas.get r).val) ∧
      (l'.correctionPause → l.correctionPause) := by
  obtain ⟨capacity, hcapacity⟩ := U64.exists_val_eq
    (x := p.config.capacity i l.priorAnnual report.val)
    (((min_le_left _ _).trans (min_le_left _ _)).trans_lt report.isLt)
  obtain ⟨quotas, hquotas⟩ : ∃ q, q = reservedQuotas capacity l.caps.founder l.caps.treasury
    (decide (p.config.t0.val + 15552000 ≤ now.val)) := ⟨_, rfl⟩
  have hl' : Limits (p.withReport report) now { l with
      capacity
      quotas
      correctionPause := decide (l.periodUsed.founder > quotas.founder ∨
        l.periodUsed.treasury > quotas.treasury) } i := {
    hl with
    capacity := hcapacity.symm
    quotas := hquotas
    pause := rfl }
  have hmono : ∀ r, (l.quotas.get r).val ≤ (quotas.get r).val := fun r ↦ by
    rw [hl.quota_eq]
    exact (LaunchConfig.quota_mono h r).trans (hl'.quota_eq r).ge
  refine ⟨_, hl', rfl, rfl, rfl, rfl, rfl, ?_, hmono, fun hp ↦ ?_⟩
  · rw [Fin.le_def, hl.capacity_eq, ← hcapacity]
    exact LaunchConfig.capacity_mono h
  · obtain ⟨r, hr⟩ := hl'.pause_iff.mp hp
    exact hl.pause_iff.mpr ⟨r, (hmono r).trans_lt hr⟩

/-- What was accepted stays accepted, with the same effect. -/
theorem consume_withReport {v v' : LaunchVaultV7} {amount : U64}
    (hc : consume p v now amount = .ok (p', v')) :
    consume (p.withReport report) v now amount = .ok (p'.withReport report, v') := by
  obtain ⟨l, r, hc⟩ := consume_eq_ok.mp hc
  obtain ⟨i, hl⟩ := windowLimits_eq_ok.mp hc.limits
  obtain ⟨l', hl', hused, hannual, hcaps, hperiod, hindex, hcap, hquota, hpause⟩ :=
    hl.withReport h
  refine consume_eq_ok.mpr ⟨l', r, {
    limits := hl'.windowLimits
    unpaused := Bool.eq_false_iff.mpr fun hp ↦ by simp [hc.unpaused] at hpause; simp [hpause] at hp
    role := hc.role
    total := hc.total
    quota := by
      rw [hused]
      exact hc.quota.trans (hquota r)
    annual := by
      rw [hannual, hcaps]
      exact hc.annual
    lifetime := hc.lifetime
    shared := by
      rw [hused]
      exact hc.shared.trans hcap
    policy := congrArg (LaunchPolicyV7.withReport · report) hc.policy
    period := hc.period.trans hperiod.symm
    annualIndex := hc.annualIndex.trans hindex.symm
    periodUsed := fun s ↦ by
      rw [hused]
      exact hc.periodUsed s
    annualUsed := fun s ↦ by
      rw [hannual]
      exact hc.annualUsed s
    releasedTotal := hc.releasedTotal
    sharedUsed := hc.sharedUsed
    vault := by
      rw [hperiod]
      exact hc.vault }⟩

/-- The whole instruction accepts what it accepted. -/
theorem release_withReport {chain : Chain} {ctx : Release} {amount epoch : U64}
    {v' : LaunchVaultV7} {a' : Option (Account TreasuryApprovalV7)} {t : TransferChecked}
    (hp : ctx.policy.data = p)
    (hr : release chain now ctx amount epoch = .ok (p', v', a', t)) :
    release chain now { ctx with policy := { ctx.policy with data := p.withReport report } } amount
      epoch = .ok (p'.withReport report, v', a', t) := by
  subst hp
  obtain ⟨tick, state, r, hrole, hauth, ht0, ha, k, hk, hfwd, hrep, hage, howner, hpayee, hcons,
    rfl⟩ := release_eq_ok.mp hr
  refine release_eq_ok.mpr ⟨tick, state, r, hrole, hauth, ht0, ha, k, hk, hfwd, hrep, hage, ?_, ?_,
    consume_withReport (p := { ctx.policy.data with lastActionAt := now }) h hcons, rfl⟩
  · cases r <;> exact howner
  · cases r with
    | founder => exact hpayee
    | treasury =>
      obtain ⟨a, ha, rfl⟩ := hpayee
      exact ⟨a, ha, rfl⟩

end Report

/-! ## Inside a period -/

variable {P : Pubkey} {V V' : View} {e : Event} {xs : List Event} {chain : Chain} {r : Role}

/-- The counters and the configuration are the same. -/
structure SameCounters (p p' : LaunchPolicyV7) : Prop where
  config : p'.config = p.config
  period : p'.period = p.period
  annualIndex : p'.annualIndex = p.annualIndex
  sharedUsed : p'.sharedUsed = p.sharedUsed
  founderPeriodUsed : p'.founderPeriodUsed = p.founderPeriodUsed
  treasuryPeriodUsed : p'.treasuryPeriodUsed = p.treasuryPeriodUsed
  founderAnnualUsed : p'.founderAnnualUsed = p.founderAnnualUsed
  treasuryAnnualUsed : p'.treasuryAnnualUsed = p.treasuryAnnualUsed
  founderReleasedTotal : p'.founderReleasedTotal = p.founderReleasedTotal
  treasuryReleasedTotal : p'.treasuryReleasedTotal = p.treasuryReleasedTotal

namespace SameCounters

variable {p p' : LaunchPolicyV7} (h : SameCounters p p')
include h

theorem windowLimits (hreport : p'.reportCapacity = p.reportCapacity) (now : I64) :
    windowLimits p' now = windowLimits p now := by
  simp only [LaunchV7.windowLimits, h.config, h.period, h.annualIndex, h.sharedUsed,
    h.founderPeriodUsed, h.treasuryPeriodUsed, h.founderAnnualUsed, h.treasuryAnnualUsed,
    h.founderReleasedTotal, h.treasuryReleasedTotal, hreport]

theorem periodUsed : p'.periodUsed = p.periodUsed := by
  funext r
  cases r
  · exact h.founderPeriodUsed
  · exact h.treasuryPeriodUsed

theorem annualUsed : p'.annualUsed = p.annualUsed := by
  funext r
  cases r
  · exact h.founderAnnualUsed
  · exact h.treasuryAnnualUsed

theorem releasedTotal : p'.releasedTotal = p.releasedTotal := by
  funext r
  cases r
  · exact h.founderReleasedTotal
  · exact h.treasuryReleasedTotal

end SameCounters

/-- Every step but a release leaves the counters, and every step but a report the report. -/
theorem Step.counters (h : Step P V e V') :
    e.Releases ∨ SameCounters V.policy V'.policy ∧
      (V'.policy.reportCapacity = V.policy.reportCapacity ∨
        ∃ oracle capacity observedAt sequence epoch,
          e.act = .report oracle capacity observedAt sequence epoch) := by
  cases h with
  | releaseFounder => exact .inl trivial
  | releaseTreasury => exact .inl trivial
  | report => exact .inr ⟨⟨rfl, rfl, rfl, rfl, rfl, rfl, rfl, rfl, rfl, rfl⟩,
      .inr ⟨_, _, _, _, _, rfl⟩⟩
  | _ => exact .inr ⟨⟨rfl, rfl, rfl, rfl, rfl, rfl, rfl, rfl, rfl, rfl⟩, .inl rfl⟩

namespace LaunchPolicyV7

variable (p : LaunchPolicyV7)

/-- Released in the rule, and in all, before the period of the policy. -/
def priorAnnual (r : Role) : ℕ := (p.annualUsed r).val - (p.periodUsed r).val

def priorLifetime (r : Role) : ℕ := (p.releasedTotal r).val - (p.periodUsed r).val

/-- The quotas of the policy's own period, for any report. -/
def standing (i : Fin 2) (report : ℕ) : Role → ℕ :=
  p.config.quota i p.priorAnnual p.priorLifetime p.period.val report

end LaunchPolicyV7

theorem SameCounters.standing {p p' : LaunchPolicyV7} (h : SameCounters p p') :
    p'.standing = p.standing := by
  unfold LaunchPolicyV7.standing LaunchPolicyV7.priorAnnual LaunchPolicyV7.priorLifetime
  rw [h.config, h.period, h.periodUsed, h.annualUsed, h.releasedTotal]

section Limits

variable {p : LaunchPolicyV7} {now now' : I64} {l l' : WindowLimits} {i j : Fin 2}

/-- Limits of one policy at two instants of a period. -/
theorem Limits.same_period (hl : Limits p now l i) (hl' : Limits p now' l' j)
    (hperiod : l'.period = l.period) :
    l'.periodUsed = l.periodUsed ∧ ∀ r, (l'.quotas.get r).val = (l.quotas.get r).val := by
  obtain rfl := hl.index_unique hl' rfl hperiod
  have hused : l'.periodUsed = l.periodUsed := PerRole.ext_get fun r ↦ by
    rw [hl.periodUsed, hl'.periodUsed, hperiod]
  have hannual : l'.annualUsed = l.annualUsed := PerRole.ext_get fun r ↦ by
    rw [hl.annualUsed, hl'.annualUsed]
  refine ⟨hused, fun r ↦ ?_⟩
  rw [hl.quota_eq, hl'.quota_eq, hperiod]
  unfold WindowLimits.priorAnnual WindowLimits.priorLifetime
  rw [hused, hannual]

/-- In the policy's own period the counters are read as they stand. -/
theorem Limits.own_period (hl : Limits p now l i) (hperiod : l.period = p.period)
    (hi : p.annualIndex.toNat = i.val) :
    (∀ r, l.periodUsed.get r = p.periodUsed r) ∧ l.priorAnnual = p.priorAnnual ∧
      l.priorLifetime p = p.priorLifetime := by
  have hused : ∀ r, l.periodUsed.get r = p.periodUsed r := fun r ↦ by
    rw [hl.periodUsed, if_pos hperiod]
  refine ⟨hused, funext fun r ↦ ?_, funext fun r ↦ ?_⟩
  · unfold WindowLimits.priorAnnual LaunchPolicyV7.priorAnnual
    rw [hused, hl.annualUsed, if_pos hi.symm]
  · unfold WindowLimits.priorLifetime LaunchPolicyV7.priorLifetime
    rw [hused]

theorem Limits.standing (hl : Limits p now l i) (hperiod : l.period = p.period)
    (hi : p.annualIndex.toNat = i.val) (r : Role) :
    (l.quotas.get r).val = p.standing i p.reportCapacity.val r := by
  obtain ⟨-, ha, hlt⟩ := hl.own_period hperiod hi
  rw [hl.quota_eq, ha, hlt, hperiod]
  rfl

/-- The rule of the policy's own period is the stored one. -/
theorem Counted.own_index (h : Counted xs V) (hl : Limits V.policy now l i)
    (hperiod : l.period = V.policy.period) : V.policy.annualIndex.toNat = i.val := by
  obtain ⟨j, hj, hcov, -⟩ := h.annual
  have hrule := hl.rule
  rw [hperiod, position_of_covers h.contiguous hcov] at hrule
  rw [hj, Option.some.inj hrule]

variable {v v' : LaunchVaultV7} {amount : U64} {p' : LaunchPolicyV7}
  (hc : Consumed { p with lastActionAt := now } v now amount p' v' l r) (hl : Limits p now l i)
include hc hl

omit hl in
/-- A release leaves what was released before its period. -/
theorem Consumed.priors :
    p'.priorAnnual = l.priorAnnual ∧ p'.priorLifetime = l.priorLifetime p := by
  refine ⟨funext fun s ↦ ?_, funext fun s ↦ ?_⟩
  · unfold LaunchPolicyV7.priorAnnual WindowLimits.priorAnnual
    rw [hc.annualUsed, hc.periodUsed, Nat.add_sub_add_right]
  · have hrel : (p'.releasedTotal s).val = (p.releasedTotal s).val + _ := hc.releasedTotal s
    unfold LaunchPolicyV7.priorLifetime WindowLimits.priorLifetime
    rw [hrel, hc.periodUsed, Nat.add_sub_add_right]

omit hl in
/-- Nor does it change a quota of its period. -/
theorem Consumed.standing (report : ℕ) :
    ({ p with lastActionAt := now }.withCounters p').standing i report =
      p.config.quota i l.priorAnnual (l.priorLifetime p) l.period.val report := by
  obtain ⟨ha, hlt⟩ := hc.priors
  have hperiod := hc.period
  rw [← ha, ← hlt, ← hperiod]
  rfl

theorem Consumed.index : p'.annualIndex.toNat = i.val := by
  have := i.isLt
  rw [hc.annualIndex, hl.annualIndex]
  simp only [UInt8.toNat_ofNat']
  omega

/-- After a release both roles are within their quotas. -/
theorem Consumed.within (s : Role) : (p'.periodUsed s).val ≤ (l.quotas.get s).val := by
  rw [hc.periodUsed]
  split
  · next hs =>
    subst hs
    exact hc.quota
  · exact hl.within (by simp [hc.unpaused]) s

end Limits

/-! ## The cause of a pause -/

/-- A release sets the period, fills the counters within the quotas of the period, and changes
neither the quotas nor the other role's counter. -/
structure Turned (p p' : LaunchPolicyV7) (now : I64) (l : WindowLimits) (i : Fin 2) (s : Role) :
    Prop where
  limits : Limits p now l i
  config : p'.config = p.config
  report : p'.reportCapacity = p.reportCapacity
  period : p'.period = l.period
  index : p'.annualIndex.toNat = i.val
  within : ∀ r, (p'.periodUsed r).val ≤ (l.quotas.get r).val
  other : ∀ r, r ≠ s → p'.periodUsed r = l.periodUsed.get r
  standing : ∀ report, p'.standing i report =
    p.config.quota i l.priorAnnual (l.priorLifetime p) l.period.val report

theorem Consumed.turned {p p' : LaunchPolicyV7} {now : I64} {l : WindowLimits}
    {v v' : LaunchVaultV7} {amount : U64}
    (hc : Consumed { p with lastActionAt := now } v now amount p' v' l r) :
    ∃ i, Turned p ({ p with lastActionAt := now }.withCounters p') now l i r := by
  obtain ⟨i, hl⟩ := (windowLimits_eq_ok (p := p)).mp hc.limits
  have hused : ∀ s, ({ p with lastActionAt := now }.withCounters p').periodUsed s =
      p'.periodUsed s := fun s ↦ by cases s <;> rfl
  exact ⟨i, {
    limits := hl
    config := rfl
    report := rfl
    period := hc.period
    index := hc.index hl
    within := fun s ↦ by
      rw [hused]
      exact hc.within hl s
    other := fun s hs ↦ by
      have hkeep := hc.periodUsed s
      rw [if_neg hs] at hkeep
      rw [hused]
      exact Fin.ext hkeep
    standing := hc.standing }⟩

theorem Step.turned (h : Step P V e V') (he : e.Releases) :
    ∃ l i s, Turned V.policy V'.policy e.now l i s := by
  cases h with
  | releaseFounder guard cliff consumed =>
    obtain ⟨l, s, hc⟩ := consume_eq_ok.mp consumed
    obtain ⟨i, ht⟩ := hc.turned
    exact ⟨l, i, s, ht⟩
  | releaseTreasury guard approved counted consumed =>
    obtain ⟨l, s, hc⟩ := consume_eq_ok.mp consumed
    obtain ⟨i, ht⟩ := hc.turned
    exact ⟨l, i, s, ht⟩
  | _ => exact he.elim

/-- What a role has used in the period was within its quota at some release of the period, under
the report of that moment. -/
def Backed (chain : Chain) (P : Pubkey) (xs : List Event) (V : View) : Prop :=
  ∀ r, V.policy.periodUsed r ≠ 0 → ∃ a e b U, xs = a ++ e :: b ∧ (machine chain P).Path a U ∧
    (machine chain P).Steps U (e :: b) V ∧ e.Releases ∧
    V.policy.config.periodOf e.now = V.policy.period.val ∧
    ∀ i : Fin 2, V.policy.annualIndex.toNat = i.val →
      (V.policy.periodUsed r).val ≤ V.policy.standing i U.policy.reportCapacity.val r

theorem Opened.backed (h : Opened chain e V) : Backed chain P [e] V := by
  intro r hr
  rw [h.policy] at hr
  cases r <;> exact absurd rfl hr

theorem Step.backed (hpath : (machine chain P).Path xs V) (h : Step P V e V')
    (hb : Backed chain P xs V) : Backed chain P (xs ++ [e]) V' := by
  intro r hr
  rcases h.counters with he | ⟨hsame, -⟩
  · obtain ⟨l, i, s, ht⟩ := h.turned he
    have hperiod := (Limits.contains ht.limits).1
    by_cases hs : r = s
    · -- The role's own release backs what it has used.
      refine ⟨xs, e, [], V, rfl, hpath, .single h, he, ?_, fun j hj ↦ ?_⟩
      · rw [ht.config, ht.period]
        exact hperiod
      · obtain rfl : j = i := Fin.ext (hj.symm.trans ht.index)
        rw [ht.standing, ← ht.limits.quota_eq]
        exact ht.within r
    · -- The other role's counter was not reset, so the period is the same.
      have hkeep := ht.other r hs
      rw [ht.limits.periodUsed] at hkeep
      have hown : l.period = V.policy.period := by
        by_contra hn
        rw [if_neg hn] at hkeep
        exact hr hkeep
      rw [if_pos hown] at hkeep
      have hidx := (path_counted hpath).1.own_index ht.limits hown
      obtain ⟨-, ha, hlt⟩ := ht.limits.own_period hown hidx
      obtain ⟨a, f, b, U, rfl, hU, hsteps, hf, hfk, hle⟩ := hb r (hkeep ▸ hr)
      refine ⟨a, f, b ++ [e], U, by simp, hU, hsteps.step h, hf, ?_, fun j hj ↦ ?_⟩
      · rw [ht.config, ht.period, hown]
        exact hfk
      · obtain rfl : j = i := Fin.ext (hj.symm.trans ht.index)
        rw [hkeep, ht.standing, ha, hlt, hown]
        exact hle j hidx
  · rw [hsame.periodUsed] at hr
    obtain ⟨a, f, b, U, rfl, hU, hsteps, hf, hfk, hle⟩ := hb r hr
    refine ⟨a, f, b ++ [e], U, by simp, hU, hsteps.step h, hf, ?_, fun j hj ↦ ?_⟩
    · rw [hsame.config, hsame.period]
      exact hfk
    · rw [hsame.annualIndex] at hj
      rw [hsame.periodUsed, hsame.standing]
      exact hle j hj

theorem path_backed (h : (machine chain P).Path xs V) : Backed chain P xs V :=
  h.invariant (I := Backed chain P) (fun h ↦ Opened.backed h) fun hp hb hs ↦ Step.backed hp hs hb

/-- A counter above its quota belongs to the policy's own period. -/
theorem Limits.own_of_pause {p : LaunchPolicyV7} {now : I64} {l : WindowLimits} {i : Fin 2}
    (hl : Limits p now l i) (hr : (l.quotas.get r).val < (l.periodUsed.get r).val) :
    l.period = p.period ∧ p.periodUsed r ≠ 0 ∧ l.periodUsed.get r = p.periodUsed r := by
  have hused := hl.periodUsed r
  have hpos := (Nat.zero_le _).trans_lt hr
  have hown : l.period = p.period := by
    by_contra hn
    rw [hused, if_neg hn] at hpos
    exact absurd hpos (Nat.lt_irrefl 0)
  rw [if_pos hown] at hused
  refine ⟨hown, fun h0 ↦ ?_, hused⟩
  rw [hused, h0] at hpos
  exact absurd hpos (Nat.lt_irrefl 0)

/-- A pause needs a report below one under which a release of the period was accepted. -/
theorem path_pause (h : (machine chain P).Path xs V) {now : I64} {l : WindowLimits}
    (hl : windowLimits V.policy now = .ok l) (hp : l.correctionPause) :
    ∃ a e b U, xs = a ++ e :: b ∧ (machine chain P).Path a U ∧
      (machine chain P).Steps U (e :: b) V ∧ e.Releases ∧
      V.policy.config.periodOf e.now = V.policy.config.periodOf now ∧
      V.policy.reportCapacity < U.policy.reportCapacity := by
  obtain ⟨i, hl⟩ := windowLimits_eq_ok.mp hl
  obtain ⟨r, hr⟩ := hl.pause_iff.mp hp
  obtain ⟨hown, hpos, hused⟩ := hl.own_of_pause hr
  have hidx := (path_counted h).1.own_index hl hown
  obtain ⟨a, e, b, U, hx, hU, hsteps, he, hk, hle⟩ := path_backed h r hpos
  refine ⟨a, e, b, U, hx, hU, hsteps, he, ?_, ?_⟩
  · rw [hk, (Limits.contains hl).1, hown]
  · by_contra hn
    rw [hused, hl.standing hown hidx] at hr
    exact absurd ((hle i hidx).trans (LaunchConfig.quota_mono (Fin.le_def.mp (not_lt.mp hn)) r))
      (Nat.not_le.mpr hr)

/-- Only a report pauses a period. -/
theorem Step.unpaused (h : Step P V e V')
    (hreport : ∀ oracle capacity observedAt sequence epoch,
      e.act ≠ .report oracle capacity observedAt sequence epoch)
    {now now' : I64} {l l' : WindowLimits} (hl : windowLimits V.policy now = .ok l)
    (hp : ¬ l.correctionPause) (hl' : windowLimits V'.policy now' = .ok l')
    (hperiod : l'.period = l.period) : ¬ l'.correctionPause := by
  obtain ⟨i, hl⟩ := windowLimits_eq_ok.mp hl
  intro hp'
  rcases h.counters with he | ⟨hsame, hrep⟩
  · obtain ⟨j, hl'⟩ := windowLimits_eq_ok.mp hl'
    obtain ⟨r, hr⟩ := hl'.pause_iff.mp hp'
    obtain ⟨hown, -, hused⟩ := hl'.own_of_pause hr
    obtain ⟨m, k, s, ht⟩ := h.turned he
    obtain rfl : j = k := ht.limits.index_unique hl' ht.config (hown.trans ht.period)
    rw [hused, hl'.standing hown ht.index, ht.standing, ht.report, ← ht.limits.quota_eq] at hr
    exact absurd (ht.within r) (Nat.not_le.mpr hr)
  · rw [hsame.windowLimits (hrep.resolve_right fun ⟨o, c, t, n, k, h⟩ ↦ hreport o c t n k h)] at hl'
    obtain ⟨j, hl'⟩ := windowLimits_eq_ok.mp hl'
    obtain ⟨hused, hquota⟩ := hl.same_period hl' hperiod
    obtain ⟨r, hr⟩ := hl'.pause_iff.mp hp'
    rw [hused, hquota] at hr
    exact hp (hl.pause_iff.mpr ⟨r, hr⟩)

/-! ## The law of pauses -/

/-- What is true of correction pauses in a state of the policy at `P`. -/
structure PauseLaw (d : Deployment) (P : Pubkey) (tr : List Entry) (L : Ledger) (V : View) :
    Prop where
  /-- A larger report keeps the quotas, the absence of a pause and every accepted amount. -/
  larger : ∀ now report l, windowLimits V.policy now = .ok l →
    V.policy.reportCapacity ≤ report →
    ∃ l', windowLimits (V.policy.withReport report) now = .ok l' ∧
      (∀ r, l.quotas.get r ≤ l'.quotas.get r) ∧ (l'.correctionPause → l.correctionPause) ∧
      ∀ v amount p' v', consume V.policy v now amount = .ok (p', v') →
        consume (V.policy.withReport report) v now amount = .ok (p'.withReport report, v')
  accepted : ∀ now report ctx amount epoch p' v' a' t, V.policy.reportCapacity ≤ report →
    ctx.policy.data = V.policy →
    release d.toChain now ctx amount epoch = .ok (p', v', a', t) →
    release d.toChain now
      { ctx with policy := { ctx.policy with data := V.policy.withReport report } } amount epoch =
        .ok (p'.withReport report, v', a', t)
  /-- A pause comes from a report below one under which the period has seen a release. -/
  cause : ∀ now l, windowLimits V.policy now = .ok l → l.correctionPause →
    ∃ a e b U, history P tr = a ++ e :: b ∧ (machine d.toChain P).Path a U ∧
      (machine d.toChain P).Steps U (e :: b) V ∧ e.Releases ∧
      V.policy.config.periodOf e.now = V.policy.config.periodOf now ∧
      V.policy.reportCapacity < U.policy.reportCapacity
  /-- The passing of time within a period changes neither eligibility nor quotas nor the pause. -/
  time : ∀ now now' l l', windowLimits V.policy now = .ok l →
    windowLimits V.policy now' = .ok l' → l'.period = l.period →
    (V.policy.config.t0.val + 15552000 ≤ now.val ↔
      V.policy.config.t0.val + 15552000 ≤ now'.val) ∧
      l'.quotas = l.quotas ∧ l'.correctionPause = l.correctionPause
  /-- Nor does any instruction but a report pause a period. -/
  instructions : ∀ tx L' p', process d L tx = .ok L' → L'.policyAt P = some p' →
    (∀ k capacity observedAt sequence epoch,
      tx.instruction ≠ .reportCapacity k capacity observedAt sequence epoch) →
    ∀ now now' l l', windowLimits V.policy now = .ok l → ¬ l.correctionPause →
      windowLimits p' now' = .ok l' → l'.period = l.period → ¬ l'.correctionPause

theorem act_report {tx : Tx} {L : Ledger} {oracle : Pubkey} {capacity sequence epoch : U64}
    {observedAt : I64}
    (h : tx.act L = some (P, .report oracle capacity observedAt sequence epoch)) :
    ∃ k, tx.instruction = .reportCapacity k capacity observedAt sequence epoch := by
  obtain ⟨now, signers, instr⟩ := tx
  cases instr <;> simp [Tx.act, Role.ofU8_eq_some, Option.bind_eq_some_iff] at h
  next k c t s e =>
    obtain ⟨-, -, rfl, rfl, rfl, rfl⟩ := h
    exact ⟨k, rfl⟩

theorem Reachable.pauseLaw {d : Deployment} {tr : List Entry} {L : Ledger}
    (h : Reachable d tr L) (hV : L.view d.toChain P = some V) : PauseLaw d P tr L V where
  larger now report l hl hle := by
    obtain ⟨i, hl⟩ := windowLimits_eq_ok.mp hl
    obtain ⟨l', hl', -, -, -, -, -, -, hquota, hpause⟩ := hl.withReport hle
    exact ⟨l', hl'.windowLimits, hquota, hpause, fun v amount p' v' ↦ consume_withReport hle⟩
  accepted now report ctx amount epoch p' v' a' t hle hp := release_withReport hle hp
  cause now l := path_pause (h.path hV)
  time now now' l l' hl hl' hperiod := by
    obtain ⟨i, hl⟩ := windowLimits_eq_ok.mp hl
    obtain ⟨j, hl'⟩ := windowLimits_eq_ok.mp hl'
    obtain ⟨hused, hquota⟩ := hl.same_period hl' hperiod
    refine ⟨?_, PerRole.ext_get fun r ↦ Fin.ext (hquota r), ?_⟩
    · rw [eligible_iff hl.period, eligible_iff hl'.period, hperiod]
    · rw [Bool.eq_iff_iff, hl'.pause_iff, hl.pause_iff]
      simp only [hused, hquota]
  instructions tx L' p' hp hp' hreport now now' l l' hl hpause hl' hperiod := by
    obtain ⟨V', hV', rfl, rfl | ⟨act, hact, hstep⟩⟩ := h.sound.accepted_to hV hp hp'
    · obtain ⟨i, hl⟩ := windowLimits_eq_ok.mp hl
      obtain ⟨j, hl'⟩ := windowLimits_eq_ok.mp hl'
      obtain ⟨hused, hquota⟩ := hl.same_period hl' hperiod
      rw [hl'.pause_iff]
      rw [hl.pause_iff] at hpause
      simpa only [hused, hquota] using hpause
    · refine hstep.unpaused ?_ hl hpause hl' hperiod
      rintro oracle capacity observedAt sequence epoch rfl
      obtain ⟨k, hk⟩ := act_report hact
      exact hreport _ _ _ _ _ hk

theorem pauseLaw_sample : ∃ V, Sample.run.2.view Sample.chain Sample.policy = some V ∧
    PauseLaw Sample.deployment Sample.policy Sample.run.1 Sample.run.2 V := by
  obtain ⟨p, hp⟩ := Sample.run_policy
  obtain ⟨V, hV, -⟩ := Ledger.exists_view Sample.chain (Ledger.policyAt_eq_some.mp hp)
  exact ⟨V, hV, Sample.run_reachable.pauseLaw hV⟩

end FundingVaults.LaunchV7
