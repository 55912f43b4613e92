import FundingVaults.PurposeVault.Runs

/-!
# The books of a policy

The invariant of a run: what the counters of policies, vaults and approvals say about the releases
of the history.  One lemma for each kind of write keeps it; a release writes a policy, a vault and,
for a purpose vault, an approval, and is one step.
-/

namespace FundingVaults.PurposeVault

open Anchor

/-- The accounts of the program. -/
abbrev Accounts := Pubkey → Option Stored

/-! ## The books -/

/-- The counters of the policy `p` at `key`. -/
def PolicyBook (tr : List (Event Stored Instruction)) (key : Pubkey) (p : PolicyWindow) : Prop :=
  Meter (Payment.period p.genesisTs) Payment.weight (paymentsOn key tr) p.currentPeriodIndex.val
    p.releasedThisPeriod.val

/-- An approval was written before its period, and counts what its vault released in it. -/
structure ApprovalBook (tr : List (Event Stored Instruction)) (genesis : I64) (key : Pubkey)
    (a : Approval) : Prop where
  written : ∃ e ∈ tr, Writes key a e
  later : periodOf genesis a.createdAt < a.periodIndex.val
  consumed : a.consumed.val = spentIn (Payment.period genesis) Payment.weight a.periodIndex.val
    (paymentsFrom a.vault tr)
  need : a.consumed ≤ a.approvedNeed

/-- The release was approved. -/
structure Noticed (P : Accounts) (genesis : I64) (x : Payment) (a : Approval) : Prop where
  stored : ∃ key, P key = some (.approval a)
  vault : a.vault = x.vault
  period : a.periodIndex.val = x.period genesis
  destination : a.destination = x.destination
  notice : MIN_NOTICE_SECONDS ≤ x.now.val - a.createdAt.val

/-- The counters of the vault `v` at `key`, under the policy at `policy`. -/
structure VaultBook (tr : List (Event Stored Instruction)) (P : Accounts) (key : Pubkey)
    (v : CovenantVault) (policy : Pubkey) (genesis : I64) : Prop where
  home : ∃ p, P policy = some (.policy p) ∧ p.policyHash = v.policyHash ∧ p.genesisTs = genesis
  share : v.monthlyCap.val = monthlyShare v.depositedAmount.val v.annualReleaseBps.val
  meter : Meter (Payment.period genesis) Payment.weight (paymentsFrom key tr)
    v.currentPeriodIndex.val v.releasedThisPeriod.val
  total : v.releasedTotal.val = spent Payment.weight (paymentsFrom key tr)
  capped : ∀ k, spentIn (Payment.period genesis) Payment.weight k (paymentsFrom key tr) ≤
    v.monthlyCap.val
  deposit : v.releasedTotal ≤ v.depositedAmount
  under : ∀ x ∈ paymentsFrom key tr, x.policy = policy
  cliff : v.kind = .Beneficiary → ∀ x ∈ paymentsFrom key tr, v.cliffEndTs ≤ x.now
  noticed : v.kind = .Purpose → ∀ x ∈ paymentsFrom key tr, ∃ a, Noticed P genesis x a
  approval : ∀ {k a}, P k = some (.approval a) → a.vault = key →
    v.kind = .Purpose ∧ ApprovalBook tr genesis k a

/-- What the account at `key` says about the history. -/
def Book (tr : List (Event Stored Instruction)) (P : Accounts) (key : Pubkey) : Stored → Prop
  | .policy p => PolicyBook tr key p
  | .market m => 0 < m.reportCount → ∃ e ∈ tr, Reports key e
  | .vault v => ∃ policy genesis, VaultBook tr P key v policy genesis
  | .approval a => ∃ v, P a.vault = some (.vault v)

/-- The invariant of a run. -/
structure Books (chain : Chain) (tr : List (Event Stored Instruction)) (P : Accounts) : Prop where
  sound : ∀ {key a}, P key = some a → Canonical chain ID key a
  book : ∀ {key a}, P key = some a → Book tr P key a
  paid : ∀ x ∈ payments tr,
    (∃ p, P x.policy = some (.policy p)) ∧ ∃ v, P x.vault = some (.vault v)

/-- Every account is still there, with the same terms. -/
def Grows (P P' : Accounts) : Prop :=
  ∀ key a, P key = some a → ∃ a', P' key = some a' ∧ a'.terms = a.terms

section Growth

variable {tr tr' : List (Event Stored Instruction)} {P P' : Accounts} {key pk : Pubkey}
  {genesis : I64} {v : CovenantVault} {x : Payment} {a b : Stored}

theorem Stored.of_terms_policy {p : PolicyWindow} (h : b.terms = (Stored.policy p).terms) :
    ∃ q, b = .policy q ∧ q.terms = p.terms := by
  cases b with
  | policy q => exact ⟨q, rfl, Stored.policy.inj h⟩
  | _ => exact absurd h (by simp [Stored.terms])

theorem Stored.of_terms_vault (h : b.terms = (Stored.vault v).terms) :
    ∃ w, b = .vault w ∧ w.terms = v.terms := by
  cases b with
  | vault w => exact ⟨w, rfl, Stored.vault.inj h⟩
  | _ => exact absurd h (by simp [Stored.terms])

theorem Stored.of_terms_approval {a : Approval} (h : b.terms = (Stored.approval a).terms) :
    ∃ c, b = .approval c ∧ c.terms = a.terms := by
  cases b with
  | approval c => exact ⟨c, rfl, Stored.approval.inj h⟩
  | _ => exact absurd h (by simp [Stored.terms])

namespace Grows

theorem refl (P : Accounts) : Grows P P := fun _ a ha ↦ ⟨a, ha, rfl⟩

theorem policy (h : Grows P P') {p : PolicyWindow} (hp : P key = some (.policy p)) :
    ∃ q, P' key = some (.policy q) ∧ q.terms = p.terms := by
  obtain ⟨b, hb, ht⟩ := h key _ hp
  obtain ⟨q, rfl, hq⟩ := Stored.of_terms_policy ht
  exact ⟨q, hb, hq⟩

theorem vault (h : Grows P P') (hv : P key = some (.vault v)) :
    ∃ w, P' key = some (.vault w) ∧ w.terms = v.terms := by
  obtain ⟨b, hb, ht⟩ := h key _ hv
  obtain ⟨w, rfl, hw⟩ := Stored.of_terms_vault ht
  exact ⟨w, hb, hw⟩

theorem approval (h : Grows P P') {a : Approval} (ha : P key = some (.approval a)) :
    ∃ c, P' key = some (.approval c) ∧ c.terms = a.terms := by
  obtain ⟨b, hb, ht⟩ := h key _ ha
  obtain ⟨c, rfl, hc⟩ := Stored.of_terms_approval ht
  exact ⟨c, hb, hc⟩

/-- A new account, or one with the terms it had. -/
theorem write (h : ∀ a, P key = some a → b.terms = a.terms) :
    Grows P (Function.update P key (some b)) := by
  intro k a ha
  by_cases hk : k = key
  · subst hk
    exact ⟨b, Function.update_self .., h a ha⟩
  · exact ⟨a, by rwa [Function.update_of_ne hk], rfl⟩

end Grows

theorem Noticed.grows {a : Approval} (h : Noticed P genesis x a) (hg : Grows P P') :
    ∃ c, Noticed P' genesis x c := by
  obtain ⟨key, hk⟩ := h.stored
  obtain ⟨c, hc, ht⟩ := hg.approval hk
  have hvault : c.vault = a.vault := (congrArg Approval.vault ht :)
  have hperiod : c.periodIndex = a.periodIndex := (congrArg Approval.periodIndex ht :)
  have hdestination : c.destination = a.destination := (congrArg Approval.destination ht :)
  have hcreated : c.createdAt = a.createdAt := (congrArg Approval.createdAt ht :)
  exact ⟨c, ⟨key, hc⟩, hvault.trans h.vault, by rw [hperiod, h.period],
    hdestination.trans h.destination, by rw [hcreated]; exact h.notice⟩

/-- A vault that releases nothing. -/
theorem VaultBook.grows (h : VaultBook tr P key v pk genesis)
    (hpay : paymentsFrom key tr' = paymentsFrom key tr) (hg : Grows P P')
    (happroval : ∀ {k a}, P' k = some (.approval a) → a.vault = key →
      v.kind = .Purpose ∧ ApprovalBook tr' genesis k a) :
    VaultBook tr' P' key v pk genesis where
  home := by
    obtain ⟨p, hp, hhash, hgenesis⟩ := h.home
    obtain ⟨q, hq, ht⟩ := hg.policy hp
    have hhash' : q.policyHash = p.policyHash := (congrArg PolicyWindow.policyHash ht :)
    have hgenesis' : q.genesisTs = p.genesisTs := (congrArg PolicyWindow.genesisTs ht :)
    exact ⟨q, hq, hhash'.trans hhash, hgenesis'.trans hgenesis⟩
  share := h.share
  meter := hpay ▸ h.meter
  total := hpay ▸ h.total
  capped := hpay ▸ h.capped
  deposit := h.deposit
  under := hpay ▸ h.under
  cliff := hpay ▸ h.cliff
  noticed hk x hx := by
    obtain ⟨a, ha⟩ := h.noticed hk x (hpay ▸ hx)
    exact ha.grows hg
  approval := happroval

theorem ApprovalBook.grows {a : Approval} (h : ApprovalBook tr genesis key a)
    (hpay : paymentsFrom a.vault tr' = paymentsFrom a.vault tr) (hmem : ∀ e ∈ tr, e ∈ tr') :
    ApprovalBook tr' genesis key a where
  written := by
    obtain ⟨e, he, hw⟩ := h.written
    exact ⟨e, hmem e he, hw⟩
  later := h.later
  consumed := hpay ▸ h.consumed
  need := h.need

/-- Nothing is released, and no approval is written. -/
theorem Book.grows (h : Book tr P key a) (hpay : payments tr' = payments tr)
    (hmem : ∀ e ∈ tr, e ∈ tr') (hg : Grows P P')
    (happroval : ∀ {k c}, P' k = some (.approval c) → P k = some (.approval c)) :
    Book tr' P' key a := by
  have hfrom : ∀ k, paymentsFrom k tr' = paymentsFrom k tr := fun k ↦ by
    rw [paymentsFrom, hpay, paymentsFrom]
  cases a with
  | policy p =>
    have hon : paymentsOn key tr' = paymentsOn key tr := by rw [paymentsOn, hpay, paymentsOn]
    change PolicyBook tr' key p
    rw [PolicyBook, hon]
    exact h
  | market m =>
    intro hm
    obtain ⟨e, he, hr⟩ := h hm
    exact ⟨e, hmem e he, hr⟩
  | vault v =>
    obtain ⟨policy, genesis, hb⟩ := h
    refine ⟨policy, genesis, hb.grows (hfrom key) hg fun hc hk ↦ ?_⟩
    obtain ⟨hkind, hbook⟩ := hb.approval (happroval hc) hk
    exact ⟨hkind, hbook.grows (hfrom _) hmem⟩
  | approval c =>
    obtain ⟨v, hv⟩ := h
    obtain ⟨w, hw, -⟩ := hg.vault hv
    exact ⟨w, hw⟩

theorem paid_grows (h : ∀ x ∈ payments tr,
      (∃ p, P x.policy = some (.policy p)) ∧ ∃ v, P x.vault = some (.vault v)) (hg : Grows P P') :
    ∀ x ∈ payments tr,
      (∃ p, P' x.policy = some (.policy p)) ∧ ∃ v, P' x.vault = some (.vault v) := by
  intro x hx
  obtain ⟨⟨p, hp⟩, v, hv⟩ := h x hx
  obtain ⟨q, hq, -⟩ := hg.policy hp
  obtain ⟨w, hw, -⟩ := hg.vault hv
  exact ⟨⟨q, hq⟩, w, hw⟩

end Growth

/-! ## Steps without a release -/

section Quiet

variable {chain : Chain} {tr : List (Event Stored Instruction)} {e : Event Stored Instruction}
  {P : Accounts} {key : Pubkey} {a b : Stored}

theorem Books.snoc (h : Books chain tr P) (he : payment e = none) :
    Books chain (tr ++ [e]) P where
  sound := h.sound
  book ha := (h.book ha).grows (payments_snoc_of_none he) (fun _ ↦ List.mem_append_left _)
    (.refl P) id
  paid := by
    rw [payments_snoc_of_none he]
    exact h.paid

/-- Where an account comes from after a write. -/
theorem update_cases {k : Pubkey} {c : Stored} (h : Function.update P key (some b) k = some c) :
    (k = key ∧ c = b) ∨ (k ≠ key ∧ P k = some c) := by
  by_cases hk : k = key
  · subst hk
    rw [Function.update_self] at h
    exact .inl ⟨rfl, (Option.some.inj h).symm⟩
  · rw [Function.update_of_ne hk] at h
    exact .inr ⟨hk, h⟩

theorem update_sound (h : ∀ {k c}, P k = some c → Canonical chain ID k c)
    (hb : Canonical chain ID key b) :
    ∀ {k c}, Function.update P key (some b) k = some c → Canonical chain ID k c := by
  intro k c hc
  rcases update_cases hc with ⟨rfl, rfl⟩ | ⟨-, hc⟩
  · exact hb
  · exact h hc

/-- A policy, a market input or a vault is written. -/
theorem Books.write (h : Books chain tr P) (hterms : ∀ a, P key = some a → b.terms = a.terms)
    (hcanonical : Canonical chain ID key b) (hb : ∀ c, b ≠ .approval c)
    (hbook : Book tr (Function.update P key (some b)) key b) :
    Books chain tr (Function.update P key (some b)) where
  sound := update_sound h.sound hcanonical
  paid := paid_grows h.paid (.write hterms)
  book := by
    intro k a ha
    rcases update_cases ha with ⟨rfl, rfl⟩ | ⟨-, ha⟩
    · exact hbook
    · refine (h.book ha).grows rfl (fun _ ↦ id) (.write hterms) fun {j c} hc ↦ ?_
      rcases update_cases hc with ⟨-, hc⟩ | ⟨-, hc⟩
      · exact absurd hc.symm (hb c)
      · exact hc

/-- The approval of a vault for a period has one address. -/
theorem approval_key {k k' : Pubkey} {a c : Approval}
    (h : ∀ {k c}, P k = some c → Canonical chain ID k c) (ha : P k = some (.approval a))
    (hc : Canonical chain ID k' (Stored.approval c)) (hvault : a.vault = c.vault)
    (hperiod : a.periodIndex = c.periodIndex) : k = k' := by
  have hfound : chain.findProgramAddress (approvalSeeds a.vault a.periodIndex) ID = (k, a.bump) :=
    h ha
  rw [hvault, hperiod] at hfound
  exact (Prod.ext_iff.mp (hfound.symm.trans hc)).1

/-- A policy has one address. -/
theorem policy_key {k k' : Pubkey} {p q : PolicyWindow}
    (h : ∀ {k c}, P k = some c → Canonical chain ID k c) (hp : P k = some (.policy p))
    (hq : P k' = some (.policy q)) (hhash : p.policyHash = q.policyHash) : k = k' ∧ p = q := by
  have hfound : chain.findProgramAddress (policySeeds p.policyHash) ID = (k, p.bump) := h hp
  rw [hhash] at hfound
  obtain rfl : k = k' := (Prod.ext_iff.mp (hfound.symm.trans (h hq))).1
  exact ⟨rfl, Stored.policy.inj (Option.some.inj (hp.symm.trans hq))⟩

/-- An approval is written. -/
theorem Books.approve {a : Approval} {v : CovenantVault} (h : Books chain tr P)
    (hnone : P key = none) (hcanonical : Canonical chain ID key (Stored.approval a))
    (hv : P a.vault = some (.vault v)) (hkind : v.kind = .Purpose) (hconsumed : a.consumed = 0)
    (hwritten : ∃ e ∈ tr, Writes key a e)
    (hlater : ∀ {policy genesis}, VaultBook tr P a.vault v policy genesis →
      periodOf genesis a.createdAt < a.periodIndex.val) :
    Books chain tr (Function.update P key (some (.approval a))) := by
  have hgrows : Grows P (Function.update P key (some (.approval a))) :=
    .write fun c hc ↦ by simp [hnone] at hc
  refine ⟨update_sound h.sound hcanonical, ?_, paid_grows h.paid hgrows⟩
  intro k c hc
  rcases update_cases hc with ⟨rfl, rfl⟩ | ⟨-, hold⟩
  · obtain ⟨w, hw, -⟩ := hgrows.vault hv
    exact ⟨w, hw⟩
  clear hc
  cases c with
  | policy p => exact h.book hold
  | market m => exact h.book hold
  | approval c =>
    obtain ⟨w, hw⟩ := h.book hold
    obtain ⟨w', hw', -⟩ := hgrows.vault hw
    exact ⟨w', hw'⟩
  | vault w =>
    obtain ⟨policy, genesis, hb⟩ := h.book hold
    refine ⟨policy, genesis, hb.grows rfl hgrows fun {j c} hj hown ↦ ?_⟩
    rcases update_cases hj with ⟨rfl, heq⟩ | ⟨-, hj⟩
    · -- The new approval: its vault has released nothing in its period.
      obtain rfl := Stored.approval.inj heq
      subst hown
      obtain rfl := Stored.vault.inj (Option.some.inj (hold.symm.trans hv))
      refine ⟨hkind, hwritten, hlater hb, ?_, by simp [hconsumed]⟩
      rw [hconsumed]
      refine (tally_eq_zero fun x hx hperiod ↦ ?_).symm
      obtain ⟨d, hd⟩ := hb.noticed hkind x hx
      obtain ⟨i, hi⟩ := hd.stored
      have hvault : d.vault = c.vault := hd.vault.trans (mem_paymentsFrom.mp hx).2
      have hsame := approval_key h.sound hi hcanonical hvault (Fin.ext (hd.period.trans hperiod))
      rw [hsame, hnone] at hi
      exact absurd hi (by simp)
    · exact hb.approval hj hown

end Quiet

/-! ## A release -/

/-- A release `x` takes the accounts `P` to `P'`. -/
structure Pays (chain : Chain) (P P' : Accounts) (x : Payment) (period : U64) (p p' : PolicyWindow)
    (v v' : CovenantVault) : Prop where
  sound : ∀ {k c}, P' k = some c → Canonical chain ID k c
  grows : Grows P P'
  policyBefore : P x.policy = some (.policy p)
  policy : ∀ {k q}, P' k = some (.policy q) →
    (k = x.policy ∧ q = p') ∨ (k ≠ x.policy ∧ P k = some (.policy q))
  market : ∀ {k m}, P' k = some (.market m) → P k = some (.market m)
  vaultBefore : P x.vault = some (.vault v)
  vault : ∀ {k w}, P' k = some (.vault w) →
    (k = x.vault ∧ w = v') ∨ (k ≠ x.vault ∧ P k = some (.vault w))
  approval : ∀ {k c}, P' k = some (.approval c) →
    (v.kind = .Purpose ∧ ∃ a, P k = some (.approval a) ∧
      Consumed x.now x.vault x.destination period x.amount a c) ∨
    (P k = some (.approval c) ∧ ¬ (v.kind = .Purpose ∧ c.vault = x.vault ∧ c.periodIndex = period))
  drawn : v.kind = .Purpose → ∃ k a c, P' k = some (.approval c) ∧
    Consumed x.now x.vault x.destination period x.amount a c
  home : p.policyHash = v.policyHash
  current : period.val = x.period p.genesisTs
  debited : ∃ m, Debited ⟨p, v, m⟩ x.now period x.amount p' v'
  cliff : v.kind = .Beneficiary → v.cliffEndTs ≤ x.now

theorem exists_mem_snoc {α : Type} {p : α → Prop} {xs : List α} {y : α} (h : ∃ x ∈ xs, p x) :
    ∃ x ∈ xs ++ [y], p x := by
  obtain ⟨x, hx, hp⟩ := h
  exact ⟨x, List.mem_append_left _ hx, hp⟩

section Release

variable {chain : Chain} {tr : List (Event Stored Instruction)} {e : Event Stored Instruction}
  {P P' : Accounts} {x : Payment} {period : U64} {p p' : PolicyWindow} {v v' : CovenantVault}

/-- The rolled policy is in the period of the release. -/
theorem Debited.policyPeriod {gate : ReleaseGate} {now : I64} {amount : U64}
    (h : Debited gate now period amount p' v')
    (hle : gate.policy.currentPeriodIndex.val ≤ period.val) : p'.currentPeriodIndex = period := by
  rw [h.rolledPolicy]
  unfold PolicyWindow.roll
  split
  · rfl
  · next hlt =>
    rw [gt_iff_lt, Fin.lt_def] at hlt
    exact Fin.ext (by dsimp only; omega)

theorem Debited.vaultPeriod {gate : ReleaseGate} {now : I64} {amount : U64}
    (h : Debited gate now period amount p' v')
    (hle : gate.vault.currentPeriodIndex.val ≤ period.val) : v'.currentPeriodIndex = period := by
  rw [h.rolledVault]
  unfold CovenantVault.roll
  split
  · rfl
  · next hlt =>
    rw [gt_iff_lt, Fin.lt_def] at hlt
    exact Fin.ext (by dsimp only; omega)

/-- An earlier release lies in no later period. -/
theorem period_le {genesis : I64} (hclock : ∀ t ∈ times tr, t ≤ x.now) :
    ∀ y ∈ payments tr, y.period genesis ≤ x.period genesis :=
  fun _ hy ↦ periodOf_mono (hclock _ (now_mem_times hy))

theorem PolicyBook.pay (h : PolicyBook tr x.policy p) (hx : payment e = some x)
    (hp : Pays chain P P' x period p p' v v') (hclock : ∀ t ∈ times tr, t ≤ x.now) :
    PolicyBook (tr ++ [e]) x.policy p' := by
  obtain ⟨m, hd⟩ := hp.debited
  have hgenesis : p'.genesisTs = p.genesisTs := (congrArg PolicyWindow.genesisTs hd.terms.1 :)
  have hlast : ∀ y ∈ paymentsOn x.policy tr, y.period p.genesisTs ≤ x.period p.genesisTs :=
    fun y hy ↦ period_le hclock y (mem_paymentsOn.mp hy).1
  have hmeter : Meter _ _ _ _ _ := Meter.snoc h hlast
  have hperiod := hd.policyPeriod (hp.current ▸ Meter.le h hlast)
  have hused := hd.policy
  rw [PolicyWindow.usedIn, hp.current] at hused
  rw [PolicyBook, hgenesis, paymentsOn_snoc hx, if_pos rfl, hperiod, hp.current, hused]
  exact hmeter

theorem PolicyBook.pay_other {key : Pubkey} {q : PolicyWindow} (h : PolicyBook tr key q)
    (hx : payment e = some x) (hkey : key ≠ x.policy) : PolicyBook (tr ++ [e]) key q := by
  rw [PolicyBook, paymentsOn_snoc hx, if_neg (Ne.symm hkey), List.append_nil]
  exact h

/-- A vault that another release leaves alone. -/
theorem VaultBook.pay_other {key pk : Pubkey} {genesis : I64} {w : CovenantVault}
    (h : VaultBook tr P key w pk genesis) (hx : payment e = some x)
    (hp : Pays chain P P' x period p p' v v') (hkey : key ≠ x.vault) :
    VaultBook (tr ++ [e]) P' key w pk genesis := by
  have hpay : ∀ k, k ≠ x.vault → paymentsFrom k (tr ++ [e]) = paymentsFrom k tr := by
    intro k hk
    rw [paymentsFrom_snoc hx, if_neg (Ne.symm hk), List.append_nil]
  refine h.grows (hpay key hkey) hp.grows fun {k c} hc hown ↦ ?_
  rcases hp.approval hc with ⟨-, a, ha, hdraw⟩ | ⟨hc, -⟩
  · have hvault : c.vault = a.vault := (congrArg Approval.vault hdraw.kept :)
    exact absurd (hown.symm.trans (hvault.trans hdraw.vault)) hkey
  · obtain ⟨hkind, hbook⟩ := h.approval hc hown
    exact ⟨hkind, hbook.grows (hpay _ (hown ▸ hkey)) fun _ ↦ List.mem_append_left _⟩

/-- An approval of the vault that releases. -/
theorem ApprovalBook.pay {key : Pubkey} {genesis : I64} {a c : Approval}
    (h : ApprovalBook tr genesis key a) (hx : payment e = some x)
    (hperiod : period.val = x.period genesis)
    (hc : Consumed x.now x.vault x.destination period x.amount a c) :
    ApprovalBook (tr ++ [e]) genesis key c := by
  have hsame : c.terms = a.terms := by
    rw [hc.kept]
    rfl
  have hvault : c.vault = a.vault := (congrArg Approval.vault hsame :)
  have hindex : c.periodIndex = a.periodIndex := (congrArg Approval.periodIndex hsame :)
  have hneed : c.approvedNeed = a.approvedNeed := (congrArg Approval.approvedNeed hsame :)
  have hcreated : c.createdAt = a.createdAt := (congrArg Approval.createdAt hsame :)
  refine ⟨?_, ?_, ?_, ?_⟩
  · obtain ⟨d, hd, hw⟩ := h.written
    refine ⟨d, List.mem_append_left _ hd, ?_⟩
    rw [hc.kept]
    exact hw
  · rw [hcreated, hindex]
    exact h.later
  · have hin : x.period genesis = a.periodIndex.val := by rw [← hperiod, hc.period]
    rw [hvault, hindex, hc.consumed, h.consumed, paymentsFrom_snoc hx, if_pos hc.vault.symm,
      spentIn_snoc, if_pos hin]
    rfl
  · rw [hneed]
    exact hc.need

/-- The vault that releases. -/
theorem VaultBook.pay {pk : Pubkey} {genesis : I64} (h : VaultBook tr P x.vault v pk genesis)
    (hsound : ∀ {k c}, P k = some c → Canonical chain ID k c) (hx : payment e = some x)
    (hp : Pays chain P P' x period p p' v v') (hclock : ∀ t ∈ times tr, t ≤ x.now) :
    VaultBook (tr ++ [e]) P' x.vault v' pk genesis := by
  -- The policy that the release names is the one that the vault belongs to.
  obtain ⟨q, hq, hhash, rfl⟩ := h.home
  obtain ⟨rfl, rfl⟩ := policy_key hsound hq hp.policyBefore (hhash.trans hp.home.symm)
  obtain ⟨m, hd⟩ := hp.debited
  have hterms : v'.terms = v.terms := hd.terms.2
  have hkind : v'.kind = v.kind := (congrArg CovenantVault.kind hterms :)
  have hcap : v'.monthlyCap = v.monthlyCap := (congrArg CovenantVault.monthlyCap hterms :)
  have hdep : v'.depositedAmount = v.depositedAmount :=
    (congrArg CovenantVault.depositedAmount hterms :)
  have hbps : v'.annualReleaseBps = v.annualReleaseBps :=
    (congrArg CovenantVault.annualReleaseBps hterms :)
  have hcliff : v'.cliffEndTs = v.cliffEndTs := (congrArg CovenantVault.cliffEndTs hterms :)
  have hhash' : v'.policyHash = v.policyHash := (congrArg CovenantVault.policyHash hterms :)
  have hlast : ∀ y ∈ paymentsFrom x.vault tr, y.period q.genesisTs ≤ x.period q.genesisTs :=
    fun _ hy ↦ period_le hclock _ (mem_paymentsFrom.mp hy).1
  have hle : v.currentPeriodIndex.val ≤ period.val := hp.current ▸ h.meter.le hlast
  have hpay : paymentsFrom x.vault (tr ++ [e]) = paymentsFrom x.vault tr ++ [x] := by
    rw [paymentsFrom_snoc hx, if_pos rfl]
  have hused := hd.vault
  rw [CovenantVault.usedIn, hp.current] at hused
  have hspent := h.meter.rolled (hp.current ▸ hle)
  obtain ⟨q', hq', ht⟩ := hp.grows.policy hq
  refine {
    home := ⟨q', hq', ?_, (congrArg PolicyWindow.genesisTs ht :)⟩
    share := ?_
    meter := ?_
    total := ?_
    capped := ?_
    deposit := ?_
    under := ?_
    cliff := ?_
    noticed := ?_
    approval := ?_ }
  · rw [hhash', ← hhash]
    exact (congrArg PolicyWindow.policyHash ht :)
  · rw [hcap, hdep, hbps]
    exact h.share
  · rw [hpay, hd.vaultPeriod hle, hp.current, hused]
    exact h.meter.snoc hlast
  · rw [hpay, spent_snoc, ← h.total]
    exact hd.total
  · intro k
    rw [hpay, hcap]
    refine spentIn_le_snoc h.capped ?_ k
    rw [← hspent]
    exact hused.symm.le.trans (Fin.le_def.mp hd.cap)
  · rw [hdep]
    exact hd.deposit
  · intro y hy
    rw [hpay] at hy
    rcases List.mem_append.mp hy with hy | hy
    · exact h.under y hy
    · rw [List.mem_singleton.mp hy]
  · intro hk y hy
    rw [hkind] at hk
    rw [hpay] at hy
    rw [hcliff]
    rcases List.mem_append.mp hy with hy | hy
    · exact h.cliff hk y hy
    · rw [List.mem_singleton.mp hy]
      exact hp.cliff hk
  · intro hk y hy
    rw [hkind] at hk
    rw [hpay] at hy
    rcases List.mem_append.mp hy with hy | hy
    · obtain ⟨a, ha⟩ := h.noticed hk y hy
      exact ha.grows hp.grows
    · rw [List.mem_singleton.mp hy]
      obtain ⟨k, a, c, hc, hdraw⟩ := hp.drawn hk
      have hsame : c.terms = a.terms := by
        rw [hdraw.kept]
        rfl
      have hindex : c.periodIndex = a.periodIndex := (congrArg Approval.periodIndex hsame :)
      have hcreated : c.createdAt = a.createdAt := (congrArg Approval.createdAt hsame :)
      refine ⟨c, ⟨k, hc⟩, (congrArg Approval.vault hsame :).trans hdraw.vault, ?_,
        (congrArg Approval.destination hsame :).trans hdraw.destination, ?_⟩
      · rw [hindex, hdraw.period, hp.current]
      · rw [hcreated]
        exact hdraw.notice
  · intro k c hc hown
    rw [hkind]
    rcases hp.approval hc with ⟨hk, a, ha, hdraw⟩ | ⟨hc, hother⟩
    · exact ⟨hk, (h.approval ha hdraw.vault).2.pay hx hp.current hdraw⟩
    · obtain ⟨hk, hbook⟩ := h.approval hc hown
      -- Another approval of the vault is for another period.
      have hne : x.period q.genesisTs ≠ c.periodIndex.val := fun heq ↦
        hother ⟨hk, hown, Fin.ext (heq.symm.trans hp.current.symm)⟩
      refine ⟨hk, exists_mem_snoc hbook.written, hbook.later, ?_, hbook.need⟩
      rw [hown, hpay, spentIn_snoc, if_neg hne, hbook.consumed, hown, Nat.add_zero]

/-- A release keeps the books. -/
theorem Books.pay (h : Books chain tr P) (hx : payment e = some x)
    (hp : Pays chain P P' x period p p' v v') (hclock : ∀ t ∈ times tr, t ≤ x.now) :
    Books chain (tr ++ [e]) P' where
  sound := hp.sound
  paid := by
    obtain ⟨q, hq, -⟩ := hp.grows.policy hp.policyBefore
    obtain ⟨w, hw, -⟩ := hp.grows.vault hp.vaultBefore
    intro y hy
    rw [payments_snoc, hx] at hy
    rcases List.mem_append.mp hy with hy | hy
    · exact paid_grows h.paid hp.grows y hy
    · rw [List.mem_singleton.mp hy]
      exact ⟨⟨q, hq⟩, w, hw⟩
  book := by
    intro key a ha
    cases a with
    | policy q =>
      rcases hp.policy ha with ⟨rfl, rfl⟩ | ⟨hkey, hq⟩
      · exact PolicyBook.pay (h.book hp.policyBefore) hx hp hclock
      · exact PolicyBook.pay_other (h.book hq) hx hkey
    | market m =>
      intro hm
      exact exists_mem_snoc (h.book (hp.market ha) hm)
    | vault w =>
      rcases hp.vault ha with ⟨rfl, rfl⟩ | ⟨hkey, hw⟩
      · obtain ⟨policy, genesis, hb⟩ := h.book hp.vaultBefore
        exact ⟨policy, genesis, hb.pay h.sound hx hp hclock⟩
      · obtain ⟨policy, genesis, hb⟩ := h.book hw
        exact ⟨policy, genesis, hb.pay_other hx hp hkey⟩
    | approval c =>
      have hkept : ∃ w, P c.vault = some (.vault w) := by
        rcases hp.approval ha with ⟨-, a, ha, hdraw⟩ | ⟨hc, -⟩
        · obtain ⟨w, hw⟩ := h.book ha
          have hvault : c.vault = a.vault := (congrArg Approval.vault hdraw.kept :)
          exact ⟨w, hvault ▸ hw⟩
        · exact h.book hc
      obtain ⟨w, hw⟩ := hkept
      obtain ⟨w', hw', -⟩ := hp.grows.vault hw
      exact ⟨w', hw'⟩

end Release

end FundingVaults.PurposeVault
