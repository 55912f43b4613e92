import FundingVaults.LaunchV7.Replay
import FundingVaults.Lib.Tally

/-!
# Release caps over whole histories

The counters of a policy are reset lazily, when the first release of a new period or a new rule
arrives, and the budgets of a release are computed from them.  `Counted` links every counter to
the sum of the past releases it stands for; given that, each release keeps the history
`WithinCaps`.
-/

namespace FundingVaults.LaunchV7

/-! ## Releases of a history -/

namespace LaunchConfig

/-- The number of the period at an instant. -/
def periodOf (c : LaunchConfig) (now : I64) : ℤ := (now.val - c.t0.val) / 2592000

end LaunchConfig

namespace AnnualRule

/-- The interval of a rule contains the period. -/
def contains (rule : AnnualRule) (k : ℤ) : Prop :=
  (rule.startPeriod.val : ℤ) ≤ k ∧ k < rule.endPeriod.val

instance (rule : AnnualRule) (k : ℤ) : Decidable (rule.contains k) :=
  inferInstanceAs (Decidable (_ ∧ _))

/-- The annual amount of a role. -/
def annual (rule : AnnualRule) (r : Role) : ℕ :=
  (rule.basis r).val * rule.releaseBps.val / 10000

end AnnualRule

/-- The amount an event releases to `r`. -/
def Event.released (r : Role) (e : Event) : ℕ :=
  match e.act with
  | .release s _ amount _ _ _ => if s = r then amount.val else 0
  | _ => 0

/-- What `r` has released at the instants that satisfy `c`. -/
def released (r : Role) (c : I64 → Prop) [DecidablePred c] (xs : List Event) : ℕ :=
  tally (Event.released r) (fun e ↦ c e.now) xs

/-! ## Counters -/

variable {P : Pubkey} {V V' : View} {e : Event} {xs : List Event}

/-- Every counter is the sum of the releases it stands for. -/
structure Counted (xs : List Event) (V : View) : Prop where
  total : ∀ r, (V.policy.releasedTotal r).val = released r (fun _ ↦ True) xs
  period : ∀ r, (V.policy.periodUsed r).val =
    released r (fun t ↦ V.policy.config.periodOf t = V.policy.period.val) xs
  annual : ∃ i : Fin 2, V.policy.annualIndex.toNat = i.val ∧
    (V.policy.config.rule i).covers V.policy.period ∧
    ∀ r, (V.policy.annualUsed r).val = released r
      (fun t ↦ (V.policy.config.rule i).contains (V.policy.config.periodOf t)) xs
  past : ∀ e ∈ xs, ∀ r, e.released r ≠ 0 →
    V.policy.config.periodOf e.now ≤ V.policy.period.val
  principal : ∀ r v, V.vault r = some v → v.principal = V.policy.config.principal r
  contiguous : (V.policy.config.rule 0).endPeriod =
    (V.policy.config.rule 1).startPeriod

/-- An instruction that is not a release and leaves the counters alone. -/
theorem Counted.frame (h : Counted xs V) (he : ∀ r, e.released r = 0)
    (hconfig : V'.policy.config = V.policy.config) (hperiod : V'.policy.period = V.policy.period)
    (hindex : V'.policy.annualIndex = V.policy.annualIndex)
    (hused : V'.policy.periodUsed = V.policy.periodUsed)
    (hannual : V'.policy.annualUsed = V.policy.annualUsed)
    (htotal : V'.policy.releasedTotal = V.policy.releasedTotal)
    (hvault : ∀ r v, V'.vault r = some v → v.principal = V.policy.config.principal r) :
    Counted (xs ++ [e]) V' := by
  have hsnoc : ∀ r (c : I64 → Prop) [DecidablePred c],
      released r c (xs ++ [e]) = released r c xs := fun r c _ ↦ tally_snoc_of_zero (he r)
  exact {
    total := by simpa only [hsnoc, htotal] using h.total
    period := by simpa only [hsnoc, hconfig, hperiod, hused] using h.period
    annual := by simpa only [hsnoc, hconfig, hperiod, hindex, hannual] using h.annual
    past := by
      intro f hf r hr
      rw [hconfig, hperiod]
      rcases List.mem_append.mp hf with hf | hf
      · exact h.past f hf r hr
      · rw [List.mem_singleton.mp hf, he r] at hr
        exact absurd rfl hr
    principal := by simpa only [hconfig] using hvault
    contiguous := by simpa only [hconfig] using h.contiguous }

/-- The first rule ends where the second begins. -/
theorem not_contains_later {c : LaunchConfig}
    (hc : (c.rule 0).endPeriod = (c.rule 1).startPeriod) {i j : Fin 2} (hij : i < j)
    {k m : ℤ} (hm : m < (c.rule i).endPeriod.val) (hk : k ≤ m) :
    ¬ (c.rule j).contains k := by
  obtain ⟨rfl, rfl⟩ : i = 0 ∧ j = 1 := by omega
  intro hj
  have hs : (((c.rule 1).startPeriod.val : ℕ) : ℤ) ≤ k := hj.1
  have hm : m < (c.rule 0).endPeriod.val := hm
  rw [hc] at hm
  omega

/-- A counter that is reset where the period or the rule has moved on is the sum of the period or
the rule that it is read for. -/
theorem Counted.rollover (h : Counted xs V) {k : U64} {i : Fin 2} (hk : V.policy.period ≤ k)
    (hi : V.policy.annualIndex.toNat ≤ i.val) (r : Role) :
    (if k = V.policy.period then V.policy.periodUsed r else 0).val =
        released r (fun t ↦ V.policy.config.periodOf t = k.val) xs ∧
      (if i.val = V.policy.annualIndex.toNat then V.policy.annualUsed r else 0).val = released r
        (fun t ↦ (V.policy.config.rule i).contains (V.policy.config.periodOf t)) xs := by
  constructor
  · have hroll : (if k = V.policy.period then
        released r (fun t ↦ V.policy.config.periodOf t = V.policy.period.val) xs else 0) =
        released r (fun t ↦ V.policy.config.periodOf t = k.val) xs := by
      refine tally_rollover (w := fun (k : U64) (e : Event) ↦
        V.policy.config.periodOf e.now = k.val) (fun e he hr j hj hw ↦ ?_) hk
      have := h.past e he r hr
      rw [Fin.lt_def] at hj
      omega
    rw [← hroll, ← h.period r]
    split <;> rfl
  · obtain ⟨j, hj, hcov, hused⟩ := h.annual
    have hroll : (if i = j then released r
        (fun t ↦ (V.policy.config.rule j).contains (V.policy.config.periodOf t)) xs else 0) =
        released r
          (fun t ↦ (V.policy.config.rule i).contains (V.policy.config.periodOf t)) xs := by
      refine tally_rollover (w := fun (k : Fin 2) (e : Event) ↦
        (V.policy.config.rule k).contains (V.policy.config.periodOf e.now))
        (fun e he hr k hk hw ↦ ?_) (Fin.le_def.mpr (hj ▸ hi))
      exact not_contains_later h.contiguous hk (m := V.policy.period.val)
        (by exact_mod_cast hcov.2) (h.past e he r hr) hw
    rw [← hroll, ← hused r, hj]
    simp only [Fin.ext_iff]
    split <;> rfl

/-- The counters as a release reads them are the sums of its period and its rule. -/
theorem Counted.limits (h : Counted xs V) {now : I64} {l : WindowLimits} {i : Fin 2}
    (hl : Limits V.policy now l i) (r : Role) :
    (l.periodUsed.get r).val =
        released r (fun t ↦ V.policy.config.periodOf t = l.period.val) xs ∧
      (l.annualUsed.get r).val = released r
        (fun t ↦ (V.policy.config.rule i).contains (V.policy.config.periodOf t)) xs := by
  rw [hl.periodUsed, hl.annualUsed]
  exact h.rollover hl.policyPeriod hl.forward r

/-! ## Caps -/

/-- The caps of a configuration, on everything a history releases. -/
structure WithinCaps (c : LaunchConfig) (xs : List Event) : Prop where
  period : ∀ k r i, (c.rule i).contains k →
    released r (fun t ↦ c.periodOf t = k) xs ≤
      min (c.periodCap r).val ((c.rule i).annual r / 12)
  shared : ∀ k, released .founder (fun t ↦ c.periodOf t = k) xs +
    released .treasury (fun t ↦ c.periodOf t = k) xs ≤ c.sharedHardCap.val
  annual : ∀ r i, released r (fun t ↦ (c.rule i).contains (c.periodOf t)) xs ≤
    (c.rule i).annual r
  annualShared : ∀ i, released .founder
      (fun t ↦ (c.rule i).contains (c.periodOf t)) xs +
    released .treasury (fun t ↦ (c.rule i).contains (c.periodOf t)) xs ≤
      (c.rule i).sharedCap.val
  principal : ∀ r, released r (fun _ ↦ True) xs ≤ (c.principal r).val
  timely : ∀ e ∈ xs, ∀ r, e.released r ≠ 0 → c.t0 < e.now ∧
    (r = .founder → c.t0.val + 15552000 ≤ e.now.val) ∧
    ∃ i : Fin 2, (c.rule i).contains (c.periodOf e.now)

theorem WithinCaps.frame {c : LaunchConfig} (h : WithinCaps c xs)
    (he : ∀ r, e.released r = 0) : WithinCaps c (xs ++ [e]) := by
  have hsnoc : ∀ r (c : I64 → Prop) [DecidablePred c],
      released r c (xs ++ [e]) = released r c xs := fun r c _ ↦ tally_snoc_of_zero (he r)
  exact {
    period := by simpa only [hsnoc] using h.period
    shared := by simpa only [hsnoc] using h.shared
    annual := by simpa only [hsnoc] using h.annual
    annualShared := by simpa only [hsnoc] using h.annualShared
    principal := by simpa only [hsnoc] using h.principal
    timely := by
      intro f hf r hr
      rcases List.mem_append.mp hf with hf | hf
      · exact h.timely f hf r hr
      · rw [List.mem_singleton.mp hf, he r] at hr
        exact absurd rfl hr }

section Release

variable {now : I64} {signers : List Pubkey} {r : Role} {authority destination owner : Pubkey}
  {amount epoch period : U64} {v v' : LaunchVaultV7} {p' : LaunchPolicyV7} {l : WindowLimits}

/-- What one release adds to a sum of releases. -/
theorem released_snoc (s : Role) (c : I64 → Prop) [DecidablePred c] :
    released s c (xs ++ [⟨now, signers, .release r authority amount epoch destination owner⟩]) =
      released s c xs + if c now ∧ s = r then amount.val else 0 := by
  simp only [released, tally_snoc, Event.released, eq_comm (a := s)]
  by_cases hc : c now <;> simp [hc]

/-- The release lies in the period and in the rule that its limits are computed for. -/
theorem Limits.contains {i : Fin 2} (hl : Limits V.policy now l i) :
    V.policy.config.periodOf now = l.period.val ∧
      (V.policy.config.rule i).contains (V.policy.config.periodOf now) := by
  have hk : V.policy.config.periodOf now = l.period.val := (periodAt_eq_ok.mp hl.period).2.2.symm
  refine ⟨hk, ?_⟩
  rw [hk]
  exact ⟨by exact_mod_cast hl.covers.1, by exact_mod_cast hl.covers.2⟩

/-- At most one rule contains a period. -/
theorem contains_unique {c : LaunchConfig}
    (hc : (c.rule 0).endPeriod = (c.rule 1).startPeriod) {i j : Fin 2} {k : ℤ}
    (hi : (c.rule i).contains k) (hj : (c.rule j).contains k) : i = j := by
  rcases lt_trichotomy i j with h | h | h
  · exact absurd hj (not_contains_later hc h hi.2 le_rfl)
  · exact h
  · exact absurd hi (not_contains_later hc h hj.2 le_rfl)

variable (h : Counted xs V)
  (hc : Consumed { V.policy with lastActionAt := now } v now amount p' v' l r)
  {i : Fin 2} (hl : Limits V.policy now l i)
include h hl hc

/-- The counters after a release are the sums over the longer history. -/
theorem Counted.after (s : Role) :
    (p'.releasedTotal s).val = released s (fun _ ↦ True)
        (xs ++ [⟨now, signers, .release r authority amount epoch destination owner⟩]) ∧
      (p'.periodUsed s).val = released s (fun t ↦ V.policy.config.periodOf t = l.period.val)
        (xs ++ [⟨now, signers, .release r authority amount epoch destination owner⟩]) ∧
      (p'.annualUsed s).val = released s
        (fun t ↦ (V.policy.config.rule i).contains (V.policy.config.periodOf t))
        (xs ++ [⟨now, signers, .release r authority amount epoch destination owner⟩]) := by
  obtain ⟨hper, hcon⟩ := Limits.contains hl
  obtain ⟨hp, ha⟩ := h.limits hl s
  refine ⟨?_, ?_, ?_⟩
  · rw [released_snoc, ← h.total s]
    simp only [true_and]
    exact hc.releasedTotal s
  · rw [released_snoc, ← hp]
    simpa only [hper, true_and] using hc.periodUsed s
  · rw [released_snoc, ← ha]
    simpa only [hcon, true_and] using hc.annualUsed s

/-- A release keeps the counters, whose period and rule become those of the release. -/
theorem Counted.release (hconfig : V'.policy.config = V.policy.config)
    (hperiod : V'.policy.period = p'.period) (hindex : V'.policy.annualIndex = p'.annualIndex)
    (hused : V'.policy.periodUsed = p'.periodUsed)
    (hannual : V'.policy.annualUsed = p'.annualUsed)
    (htotal : V'.policy.releasedTotal = p'.releasedTotal)
    (hvault : ∀ s u, V'.vault s = some u → u.principal = V.policy.config.principal s) :
    Counted
      (xs ++ [⟨now, signers, .release r authority amount epoch destination owner⟩]) V' := by
  obtain ⟨hper, -⟩ := Limits.contains hl
  have hpast : V.policy.period.val ≤ l.period.val := hl.policyPeriod
  exact {
    total := fun s ↦ by
      rw [htotal]
      exact (h.after hc hl s).1
    period := fun s ↦ by
      simp only [hused, hconfig, hperiod, hc.period]
      exact (h.after hc hl s).2.1
    annual := by
      refine ⟨i, ?_, ?_, fun s ↦ ?_⟩
      · have := i.isLt
        simp only [hindex, hc.annualIndex, hl.annualIndex, UInt8.toNat_ofNat']
        omega
      · simp only [hconfig, hperiod, hc.period]
        exact hl.covers
      · simp only [hannual, hconfig]
        exact (h.after hc hl s).2.2
    past := by
      intro f hf s hs
      rw [hconfig, hperiod, hc.period]
      rcases List.mem_append.mp hf with hf | hf
      · have := h.past f hf s hs
        omega
      · rw [List.mem_singleton.mp hf]
        exact hper.le
    principal := by simpa only [hconfig] using hvault
    contiguous := by simpa only [hconfig] using h.contiguous }

omit h in
/-- What a release leaves of the budgets it is computed from. -/
theorem Consumed.budgets :
    (p'.periodUsed r).val ≤
        min (V.policy.config.periodCap r).val ((V.policy.config.rule i).annual r / 12) ∧
      p'.founderPeriodUsed.val + p'.treasuryPeriodUsed.val ≤
        V.policy.config.sharedHardCap.val ∧
      (p'.annualUsed r).val ≤ (V.policy.config.rule i).annual r ∧
      p'.founderAnnualUsed.val + p'.treasuryAnnualUsed.val ≤
        (V.policy.config.rule i).sharedCap.val := by
  have hsum : ∀ f : Role → ℕ, (f .founder + if Role.founder = r then amount.val else 0) +
      (f .treasury + if Role.treasury = r then amount.val else 0) =
        f .founder + f .treasury + amount.val := by
    intro f
    cases r <;> simp only [if_true, reduceCtorEq, if_false] <;> omega
  have hpf : p'.founderPeriodUsed.val = _ := hc.periodUsed .founder
  have hpt : p'.treasuryPeriodUsed.val = _ := hc.periodUsed .treasury
  have haf : p'.founderAnnualUsed.val = _ := hc.annualUsed .founder
  have hat : p'.treasuryAnnualUsed.val = _ := hc.annualUsed .treasury
  refine ⟨?_, ?_, ?_, ?_⟩
  · rw [hc.periodUsed r, if_pos rfl]
    refine hc.quota.trans ((hl.quotas_le r).trans ?_)
    rw [hl.caps r, hl.annualCaps r]
    exact (min_le_left _ _).trans (min_le_left _ _)
  · rw [hpf, hpt, hsum fun s ↦ (l.periodUsed.get s).val]
    refine hc.shared.trans (hl.capacity.le.trans ?_)
    exact (min_le_left _ _).trans (min_le_right _ _)
  · rw [hc.annualUsed r, if_pos rfl]
    exact hc.annual.trans (hl.annualCaps r).le
  · -- The capacity of the window is what the earlier periods of the rule have left.
    have hcap : l.capacity.val ≤ _ := hl.capacity.le.trans (min_le_right _ _)
    have hsh : l.periodUsed.founder.val + l.periodUsed.treasury.val + amount.val ≤ _ :=
      hc.shared.trans hcap
    have hprior : l.periodUsed.founder.val ≤ l.annualUsed.founder.val := hl.prior .founder
    have hprior' : l.periodUsed.treasury.val ≤ l.annualUsed.treasury.val := hl.prior .treasury
    have hleft := hl.sharedLeft
    rw [haf, hat, hsum fun s ↦ (l.annualUsed.get s).val]
    simp only [PerRole.get]
    omega

/-- A release keeps the caps. -/
theorem WithinCaps.release (hw : WithinCaps V.policy.config xs)
    (hvault : V.vault r = some v) (ht0 : V.policy.config.t0 < now)
    (hcliff : r = .founder → V.policy.config.t0.val + 15552000 ≤ now.val) :
    WithinCaps V.policy.config
      (xs ++ [⟨now, signers, .release r authority amount epoch destination owner⟩]) := by
  obtain ⟨hper, hcon⟩ := Limits.contains hl
  obtain ⟨hcap, hhard, hannual, hshared⟩ := hc.budgets hl
  have hafter : ∀ s, (p'.releasedTotal s).val = released s (fun _ ↦ True)
      (xs ++ [⟨now, signers, .release r authority amount epoch destination owner⟩]) ∧ _ ∧ _ :=
    fun s ↦ h.after hc hl s
  exact {
    period := fun k s j hj ↦ by
      by_cases hs : V.policy.config.periodOf now = k ∧ s = r
      · obtain ⟨rfl, rfl⟩ := hs
        obtain rfl := contains_unique h.contiguous hcon hj
        rw [hper, ← (hafter s).2.1]
        exact hcap
      · rw [released_snoc, if_neg hs]
        exact hw.period k s j hj
    shared := fun k ↦ by
      by_cases hk : V.policy.config.periodOf now = k
      · rw [← hk, hper, ← (hafter .founder).2.1, ← (hafter .treasury).2.1]
        exact hhard
      · simp only [released_snoc, hk, false_and, if_false]
        exact hw.shared k
    annual := fun s j ↦ by
      by_cases hs : (V.policy.config.rule j).contains (V.policy.config.periodOf now) ∧ s = r
      · obtain ⟨hj, rfl⟩ := hs
        obtain rfl := contains_unique h.contiguous hcon hj
        rw [← (hafter s).2.2]
        exact hannual
      · rw [released_snoc, if_neg hs]
        exact hw.annual s j
    annualShared := fun j ↦ by
      by_cases hj : (V.policy.config.rule j).contains (V.policy.config.periodOf now)
      · obtain rfl := contains_unique h.contiguous hcon hj
        rw [← (hafter .founder).2.2, ← (hafter .treasury).2.2]
        exact hshared
      · simp only [released_snoc, hj, false_and, if_false]
        exact hw.annualShared j
    principal := fun s ↦ by
      by_cases hs : s = r
      · subst hs
        rw [← (hafter s).1, hc.releasedTotal s, if_pos rfl, ← h.principal s v hvault]
        exact hc.lifetime
      · rw [released_snoc, if_neg (by simp [hs])]
        exact hw.principal s
    timely := fun f hf s hs ↦ by
      rcases List.mem_append.mp hf with hf | hf
      · exact hw.timely f hf s hs
      · obtain rfl := List.mem_singleton.mp hf
        obtain rfl : r = s := by
          by_contra hn
          exact hs (if_neg hn)
        exact ⟨ht0, hcliff, i, hcon⟩ }

end Release

/-! ## Every history -/

/-- A vault is stored with the principal of its role. -/
theorem principal_put {f : Role → U64} {v : LaunchVaultV7}
    (h : ∀ r u, V.vault r = some u → u.principal = f r)
    (hv : ∀ r, r.toU8 = v.role → v.principal = f r) (r : Role) (u : LaunchVaultV7)
    (hu : (V.put (.vault v)).vault r = some u) : u.principal = f r := by
  simp only [View.put] at hu
  split at hu
  · next hr =>
    obtain rfl := Option.some.inj hu
    exact hv r hr
  · exact h r u hu

theorem Opened.counted {chain : Chain} (h : Opened chain e V) :
    Counted [e] V ∧ WithinCaps V.policy.config [e] := by
  have he : ∀ r, e.released r = 0 := fun r ↦ by simp [Event.released, h.act]
  have hsum : ∀ r (c : I64 → Prop) [DecidablePred c], released r c [e] = 0 :=
    fun r c _ ↦ by simp [released, tally, he r]
  have hrule : ValidRule V.policy.config (V.policy.config.rule 0) := h.valid.rule 0
  have hnone : ∀ f ∈ [e], ∀ r, f.released r ≠ 0 → False := fun f hf r hr ↦ by
    rw [List.mem_singleton.mp hf] at hr
    exact hr (he r)
  have hp := h.policy
  refine ⟨{
    total := fun r ↦ ?_
    period := fun r ↦ ?_
    annual := ⟨0, ?_, ?_, fun r ↦ ?_⟩
    past := fun f hf r hr ↦ (hnone f hf r hr).elim
    principal := by simp [h.vault]
    contiguous := h.valid.contiguous }, {
    period := by simp [hsum]
    shared := by simp [hsum]
    annual := by simp [hsum]
    annualShared := by simp [hsum]
    principal := by simp [hsum]
    timely := fun f hf r hr ↦ (hnone f hf r hr).elim }⟩
  · rw [hsum, hp]
    cases r <;> rfl
  · rw [hsum, hp]
    cases r <;> rfl
  · rw [hp]
    rfl
  · rw [hp]
    exact ⟨h.valid.start.le, h.valid.start ▸ hrule.nonempty⟩
  · rw [hsum, hp]
    cases r <;> rfl

/-- Every step keeps the counters and the caps. -/
theorem Step.counted (h : Step P V e V') (hc : Counted xs V)
    (hw : WithinCaps V.policy.config xs) :
    Counted (xs ++ [e]) V' ∧ WithinCaps V'.policy.config (xs ++ [e]) := by
  cases h with
  | releaseFounder guard cliff consumed =>
    obtain ⟨l, r, h⟩ := consume_eq_ok.mp consumed
    obtain ⟨i, hl⟩ := (windowLimits_eq_ok (p := V.policy)).mp h.limits
    obtain rfl : r = .founder := Role.toU8_inj.mp (h.role.symm.trans guard.role)
    refine ⟨hc.release h hl rfl rfl rfl rfl rfl rfl (principal_put hc.principal ?_),
      show WithinCaps V.policy.config _ from
        WithinCaps.release hc h hl hw guard.vault guard.t0 fun _ ↦ cliff⟩
    intro s hs
    obtain rfl := Role.toU8_inj.mp (hs.trans guard.role)
    exact (hc.principal _ _ guard.vault :)
  | releaseTreasury guard approved counted consumed =>
    obtain ⟨l, r, h⟩ := consume_eq_ok.mp consumed
    obtain ⟨i, hl⟩ := (windowLimits_eq_ok (p := V.policy)).mp h.limits
    obtain rfl : r = .treasury := Role.toU8_inj.mp (h.role.symm.trans guard.role)
    refine ⟨hc.release h hl rfl rfl rfl rfl rfl rfl (principal_put hc.principal ?_),
      show WithinCaps V.policy.config _ from
        WithinCaps.release hc h hl hw guard.vault guard.t0 (by simp)⟩
    intro s hs
    obtain rfl := Role.toU8_inj.mp (hs.trans guard.role)
    exact (hc.principal _ _ guard.vault :)
  | deposit guard =>
    refine ⟨hc.frame (fun _ ↦ rfl) rfl rfl rfl rfl rfl rfl (principal_put hc.principal ?_),
      hw.frame fun _ ↦ rfl⟩
    intro s hs
    rw [Role.toU8_inj.mp hs]
  | _ =>
    exact ⟨hc.frame (fun _ ↦ rfl) rfl rfl rfl rfl rfl rfl hc.principal, hw.frame fun _ ↦ rfl⟩

/-- The counters and the caps hold along every path. -/
theorem path_counted {chain : Chain} (h : (machine chain P).Path xs V) :
    Counted xs V ∧ WithinCaps V.policy.config xs :=
  h.invariant (I := fun xs V ↦ Counted xs V ∧ WithinCaps V.policy.config xs)
    Opened.counted fun _ ih hs ↦ Step.counted hs ih.1 ih.2

/-- Whatever instructions are executed in whatever order, a policy releases no more than its
configuration allows, in every period, every annual rule and altogether. -/
theorem Reachable.withinCaps {d : Deployment} {tr : List Entry} {L : Ledger}
    {p : LaunchPolicyV7} (h : Reachable d tr L) (hp : L.policyAt P = some p) :
    WithinCaps p.config (history P tr) := by
  obtain ⟨V, hV, rfl⟩ := Ledger.exists_view d.toChain (Ledger.policyAt_eq_some.mp hp)
  exact (path_counted (h.path hV)).2

theorem withinCaps_sample : ∃ p, Sample.run.2.policyAt Sample.policy = some p ∧
    WithinCaps p.config (history Sample.policy Sample.run.1) := by
  obtain ⟨p, hp⟩ := Sample.run_policy
  exact ⟨p, hp, Sample.run_reachable.withinCaps hp⟩

end FundingVaults.LaunchV7
