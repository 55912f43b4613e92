import FundingVaults.PurposeVault.Books

/-!
# Every run keeps the books

Each kind of accepted transaction keeps the books, and so does a run.  A release loads its policy
by the hash that its vault names, so the books of different policies stay apart as long as no two
of these hashes derive one address.
-/

namespace FundingVaults.PurposeVault

open Anchor

/-! ## One policy for each hash -/

/-- An account names the policy hash. -/
def Names (P : Accounts) (h : Bytes32) : Prop := ∃ key a, P key = some a ∧ a.policyHash? = some h

/-- Address derivation keeps the policies that the accounts name apart. -/
structure Separate (chain : Chain) (P : Accounts) : Prop where
  policy : ∀ {h h' bump key}, Names P h → Names P h' →
    chain.createProgramAddress (policySeeds h ++ [[bump]]) ID = some key →
    chain.createProgramAddress (policySeeds h' ++ [[bump]]) ID = some key → h = h'
  market : ∀ {h h' bump key}, Names P h → Names P h' →
    chain.createProgramAddress (marketSeeds h ++ [[bump]]) ID = some key →
    chain.createProgramAddress (marketSeeds h' ++ [[bump]]) ID = some key → h = h'

section Separate

variable {chain : Chain} {P P' : Accounts} {key : Pubkey} {h : Bytes32}

theorem Names.grows (hn : Names P h) (hg : Grows P P') : Names P' h := by
  have hterms : ∀ a : Stored, a.terms.policyHash? = a.policyHash? := by
    intro a
    cases a <;> rfl
  obtain ⟨key, a, ha, hh⟩ := hn
  obtain ⟨b, hb, ht⟩ := hg key a ha
  exact ⟨key, b, hb, by rw [← hterms, ht, hterms, hh]⟩

theorem Separate.of_grows (hs : Separate chain P') (hg : Grows P P') : Separate chain P where
  policy hn hn' := hs.policy (hn.grows hg) (hn'.grows hg)
  market hn hn' := hs.market (hn.grows hg) (hn'.grows hg)

/-- The policy that a vault's release names is the vault's own. -/
theorem Separate.policy_eq {p : PolicyWindow} (hs : Separate chain P) (hn : Names P h)
    (hp : P key = some (.policy p)) (hcanonical : Canonical chain ID key (Stored.policy p))
    (hseeds : chain.createProgramAddress (policySeeds h ++ [[p.bump]]) ID = some key) :
    p.policyHash = h :=
  hs.policy ⟨key, _, hp, rfl⟩ hn hcanonical.create hseeds

theorem Separate.market_eq {m : MarketInput} (hs : Separate chain P) (hn : Names P h)
    (hm : P key = some (.market m)) (hcanonical : Canonical chain ID key (Stored.market m))
    (hseeds : chain.createProgramAddress (marketSeeds h ++ [[m.bump]]) ID = some key) :
    m.policyHash = h :=
  hs.market ⟨key, _, hm, rfl⟩ hn hcanonical.create hseeds

end Separate

/-! ## Every run keeps the books -/

section Run

variable {chain : Chain} {tr : List (Event Stored Instruction)} {L L' : Ledger Stored}
  {tx : Tx Instruction} {now : I64} {signers : List Pubkey} {amount : U64} {k : Release.Keys}

theorem vacant_terms {key : Pubkey} {b : Stored} (h : L.vacant key) :
    ∀ a, L.program key = some a → b.terms = a.terms := by
  intro a ha
  simp [(Ledger.vacant_iff.mp h).1] at ha

theorem stored_terms {key : Pubkey} {a b : Stored} (h : L.program key = some a)
    (ht : b.terms = a.terms) : ∀ c, L.program key = some c → b.terms = c.terms := by
  intro c hc
  rw [ht, Option.some.inj (h.symm.trans hc)]

theorem Opened.books {k : OpenPolicy.Keys} {args : OpenPolicy.Args} {p : PolicyWindow}
    {m : MarketInput} (ho : Opened chain L now signers k args p m)
    (h : Books chain tr L.program) :
    Books chain tr ((L.write k.policy (.policy p)).write k.market (.market m)).program := by
  have hpaid : paymentsOn k.policy tr = [] := by
    refine List.filter_eq_nil_iff.mpr fun x hx hkey ↦ ?_
    obtain ⟨⟨q, hq⟩, -⟩ := h.paid x hx
    rw [of_decide_eq_true hkey, (Ledger.vacant_iff.mp ho.policyVacant).1] at hq
    exact absurd hq (by simp)
  have hfresh : PolicyBook tr k.policy p := by
    rw [PolicyBook, hpaid, ho.opened]
    exact Meter.nil
  have hcm : Canonical chain ID k.market (Stored.market m) := by
    have hm := ho.market
    rw [ho.input] at hm ⊢
    exact hm
  have hp : Books chain tr (L.write k.policy (.policy p)).program :=
    h.write (vacant_terms ho.policyVacant) ho.policy (by simp) hfresh
  refine hp.write ?_ hcm (by simp) fun hr ↦ ?_
  · intro a ha
    rw [Ledger.write_program_of_ne ho.distinct, (Ledger.vacant_iff.mp ho.marketVacant).1] at ha
    exact absurd ha (by simp)
  · rw [ho.input] at hr
    exact absurd hr (by simp)

/-- A report, a proposal or a rotation writes the market input only. -/
theorem Books.writeMarket {key : Pubkey} {m m' : MarketInput} (h : Books chain tr L.program)
    (hm : L.program key = some (.market m)) (ht : m'.terms = m.terms)
    (hr : 0 < m'.reportCount → ∃ e ∈ tr, Reports key e) :
    Books chain tr (L.write key (.market m')).program :=
  h.write (stored_terms hm (congrArg Stored.market ht))
    (Canonical.of_terms (h.sound hm) (congrArg Stored.market ht)) (by simp) hr

theorem Deposited.books {k : Deposit.Keys} {args : Deposit.Args} {p p' : PolicyWindow}
    {v : CovenantVault} {tokens : Tokens}
    (hd : Deposited chain L now signers k args p p' v tokens) (h : Books chain tr L.program) :
    Books chain tr ((L.write k.policy (.policy p')).write k.vault (.vault v)).program := by
  obtain ⟨n, rfl⟩ := hd.counted
  obtain ⟨cap, cliffEndTs, hcap, -, -, hv⟩ := hd.created
  have hnone := (Ledger.vacant_iff.mp hd.vacant).1
  have hne : k.vault ≠ k.policy := by
    intro heq
    rw [heq, hd.policy] at hnone
    exact absurd hnone (by simp)
  have hp : Books chain tr (L.write k.policy (.policy { p with vaultCount := n })).program :=
    h.write (stored_terms hd.policy rfl) (Canonical.of_terms (h.sound hd.policy) rfl) (by simp)
      (h.book hd.policy)
  have hnone' : (L.write k.policy (.policy { p with vaultCount := n })).program k.vault = none := by
    rw [Ledger.write_program_of_ne hne, hnone]
  have hterms : ∀ a, (L.write k.policy (.policy { p with vaultCount := n })).program k.vault =
      some a → (Stored.vault v).terms = a.terms := fun a ha ↦ by simp [hnone'] at ha
  have hcv : Canonical chain ID k.vault (Stored.vault v) := by
    have hvault := hd.vault
    rw [hv] at hvault ⊢
    exact hvault
  refine hp.write hterms hcv (by simp) ⟨k.policy, p.genesisTs, ?_⟩
  have hpaid : paymentsFrom k.vault tr = [] := by
    refine List.filter_eq_nil_iff.mpr fun x hx hkey ↦ ?_
    obtain ⟨-, w, hw⟩ := h.paid x hx
    rw [of_decide_eq_true hkey, hnone] at hw
    exact absurd hw (by simp)
  have hfields : v.policyHash = p.policyHash ∧ v.releasedTotal = 0 ∧ v.releasedThisPeriod = 0 ∧
      v.currentPeriodIndex = 0 ∧ v.depositedAmount = args.amount ∧ v.monthlyCap = cap ∧
      v.annualReleaseBps = args.annualReleaseBps := by
    rw [hv]
    exact ⟨rfl, rfl, rfl, rfl, rfl, rfl, rfl⟩
  obtain ⟨hhash, htotal, hused, hcur, hdep, hcap', hbps⟩ := hfields
  obtain ⟨q, hq, hqt⟩ := (Grows.write hterms).policy (Ledger.write_program_self)
  refine {
    home := ⟨q, hq, ?_, (congrArg PolicyWindow.genesisTs hqt :)⟩
    share := by rw [hcap', hdep, hbps, hcap]
    meter := ?_
    total := by simp [hpaid, htotal]
    capped := by simp [hpaid]
    deposit := by simp [htotal]
    under := by simp [hpaid]
    cliff := by simp [hpaid]
    noticed := by simp [hpaid]
    approval := fun {j a} ha hown ↦ ?_ }
  · rw [hhash]
    exact (congrArg PolicyWindow.policyHash hqt :)
  · rw [hpaid, hcur, hused]
    exact Meter.nil
  · -- An approval belongs to a vault that exists.
    rcases update_cases ha with ⟨-, ha⟩ | ⟨-, ha⟩
    · exact absurd ha (by simp)
    · obtain ⟨w, hw⟩ := hp.book ha
      rw [hown, hnone'] at hw
      exact absurd hw (by simp)

theorem Approved.books {k : Approve.Keys} {periodIndex approvedNeed : U64} {p : PolicyWindow}
    {v : CovenantVault} {a : Approval}
    (ha : Approved chain L now signers k periodIndex approvedNeed p v a)
    (hs : Separate chain L.program) (h : Books chain tr L.program)
    (hwritten : ∃ e ∈ tr, Writes k.approval a e) :
    Books chain tr (L.write k.approval (.approval a)).program := by
  have hfields : a.vault = k.vault ∧ a.consumed = 0 ∧ a.createdAt = now ∧
      a.periodIndex = periodIndex := by
    rw [ha.approved]
    exact ⟨rfl, rfl, rfl, rfl⟩
  obtain ⟨hvault, hconsumed, hcreated, hindex⟩ := hfields
  have hca : Canonical chain ID k.approval (Stored.approval a) := by
    have hk := ha.approval
    rw [ha.approved] at hk ⊢
    exact hk
  refine h.approve (Ledger.vacant_iff.mp ha.vacant).1 hca (hvault ▸ ha.vault) ha.kind hconsumed
    hwritten fun {pk genesis} hb ↦ ?_
  -- The policy that dates the approval is the vault's own.
  obtain ⟨q, hq, hhash, rfl⟩ := hb.home
  have hown := hs.policy_eq ⟨_, _, ha.vault, rfl⟩ ha.policy (h.sound ha.policy) ha.policySeeds
  obtain ⟨rfl, rfl⟩ := policy_key h.sound hq ha.policy (hhash.trans hown.symm)
  rw [hcreated, hindex]
  exact ha.later

/-- The release of an accepted transaction. -/
def Release.Keys.payment (k : Release.Keys) (now : I64) (amount : U64) : Payment :=
  ⟨k.policy, k.vault, k.market, k.destination, now, amount⟩

/-- The policy and the vault after a release. -/
def debit (P : Accounts) (k : Release.Keys) (p : PolicyWindow) (v : CovenantVault) : Accounts :=
  Function.update (Function.update P k.policy (some (.policy p))) k.vault (some (.vault v))

section Debit

variable {P : Accounts} {p : PolicyWindow} {v : CovenantVault} {key : Pubkey}

theorem debit_policy {q : PolicyWindow} (h : debit P k p v key = some (.policy q)) :
    (key = k.policy ∧ q = p) ∨ (key ≠ k.policy ∧ P key = some (.policy q)) := by
  rcases update_cases h with ⟨-, heq⟩ | ⟨-, h⟩
  · exact absurd heq (by simp)
  · rcases update_cases h with ⟨hk, heq⟩ | ⟨hk, h⟩
    · exact .inl ⟨hk, Stored.policy.inj heq⟩
    · exact .inr ⟨hk, h⟩

theorem debit_vault {w : CovenantVault} (h : debit P k p v key = some (.vault w)) :
    (key = k.vault ∧ w = v) ∨ (key ≠ k.vault ∧ P key = some (.vault w)) := by
  rcases update_cases h with ⟨hk, heq⟩ | ⟨hk, h⟩
  · exact .inl ⟨hk, Stored.vault.inj heq⟩
  · rcases update_cases h with ⟨-, heq⟩ | ⟨-, h⟩
    · exact absurd heq (by simp)
    · exact .inr ⟨hk, h⟩

theorem debit_other {b : Stored} (hp : ∀ q, b ≠ .policy q) (hv : ∀ w, b ≠ .vault w)
    (h : debit P k p v key = some b) : P key = some b := by
  rcases update_cases h with ⟨-, heq⟩ | ⟨-, h⟩
  · exact absurd heq (hv v)
  · rcases update_cases h with ⟨-, heq⟩ | ⟨-, h⟩
    · exact absurd heq (hp p)
    · exact h

end Debit

theorem Released.pays_beneficiary {ctx : Release} {period : U64} {p' : PolicyWindow}
    {v' : CovenantVault} {tokens : Tokens}
    (hr : Released chain L now signers k amount ctx tokens)
    (hkind : ctx.vault.data.kind = .Beneficiary)
    (hperiod : period.val = periodOf ctx.policy.data.genesisTs now)
    (hd : Debited ctx.gate now period amount p' v') (hs : Separate chain L.program)
    (h : Books chain tr L.program)
    (hk : Keeps chain L (({ L with tokens } : Ledger Stored).write k.policy (.policy p')
      |>.write k.vault (.vault v'))) :
    Pays chain L.program (debit L.program k p' v') (k.payment now amount) period
      ctx.policy.data p' ctx.vault.data v' where
  sound := (hk.sound ⟨h.sound⟩).canonical
  grows := hk.persists
  policyBefore := hr.policy
  policy := debit_policy
  market := debit_other (by simp) (by simp)
  vaultBefore := hr.vault
  vault := debit_vault
  approval hc := .inr ⟨debit_other (by simp) (by simp) hc, fun hpurpose ↦
    absurd (hkind.symm.trans hpurpose.1) (by decide)⟩
  drawn hpurpose := absurd (hkind.symm.trans hpurpose) (by decide)
  home := hs.policy_eq ⟨_, _, hr.vault, rfl⟩ hr.policy (h.sound hr.policy) hr.policySeeds
  current := hperiod
  debited := ⟨ctx.market.data, hd⟩
  cliff := hr.cliff

theorem Released.pays_purpose {ctx : Release} {period : U64} {p' : PolicyWindow}
    {v' : CovenantVault} {tokens : Tokens} {key : Pubkey} {a a' : Approval}
    (hr : Released chain L now signers k amount ctx tokens)
    (hkind : ctx.vault.data.kind = .Purpose)
    (hperiod : period.val = periodOf ctx.policy.data.genesisTs now)
    (hd : Debited ctx.gate now period amount p' v')
    (ha : L.program key = some (.approval a))
    (hc : Consumed now k.vault k.destination period amount a a') (hs : Separate chain L.program)
    (h : Books chain tr L.program)
    (hk : Keeps chain L ((({ L with tokens } : Ledger Stored).write k.policy (.policy p')
      |>.write k.vault (.vault v')).write key (.approval a'))) :
    Pays chain L.program
      (Function.update (debit L.program k p' v') key (some (.approval a')))
      (k.payment now amount) period ctx.policy.data p' ctx.vault.data v' where
  sound := (hk.sound ⟨h.sound⟩).canonical
  grows := hk.persists
  policyBefore := hr.policy
  policy hq := by
    rcases update_cases hq with ⟨-, heq⟩ | ⟨-, hq⟩
    · exact absurd heq (by simp)
    · exact debit_policy hq
  market hm := by
    rcases update_cases hm with ⟨-, heq⟩ | ⟨-, hm⟩
    · exact absurd heq (by simp)
    · exact debit_other (by simp) (by simp) hm
  vaultBefore := hr.vault
  vault hw := by
    rcases update_cases hw with ⟨-, heq⟩ | ⟨-, hw⟩
    · exact absurd heq (by simp)
    · exact debit_vault hw
  approval {j c} hj := by
    rcases update_cases hj with ⟨rfl, heq⟩ | ⟨hne, hj⟩
    · obtain rfl := Stored.approval.inj heq
      exact .inl ⟨hkind, a, ha, hc⟩
    · have hj := debit_other (by simp) (by simp) hj
      refine .inr ⟨hj, fun ⟨_, hvault, hindex⟩ ↦ hne ?_⟩
      exact approval_key h.sound hj (h.sound ha) (hvault.trans hc.vault.symm)
        (hindex.trans hc.period.symm)
  drawn _ := ⟨key, a, a', Function.update_self .., hc⟩
  home := hs.policy_eq ⟨_, _, hr.vault, rfl⟩ hr.policy (h.sound hr.policy) hr.policySeeds
  current := hperiod
  debited := ⟨ctx.market.data, hd⟩
  cliff := hr.cliff

/-- An accepted transaction keeps the books. -/
theorem Books.accepted (h : Books chain tr L.program) (hp : process chain L tx = .ok L')
    (hs : Separate chain L'.program) (hclock : ∀ t ∈ times tr, t ≤ tx.now) :
    Books chain (tr ++ [.accepted L tx L']) L'.program := by
  have hk := process_keeps hp
  have hs₀ : Separate chain L.program := hs.of_grows hk.persists
  obtain ⟨now, signers, instr⟩ := tx
  cases instr with
  | openPolicy k args =>
    obtain ⟨p, m, ho, rfl⟩ := process_openPolicy hp
    exact ho.books (h.snoc rfl)
  | reportVolume k eligibleVolume =>
    obtain ⟨m, m', hr, rfl⟩ := process_reportVolume hp
    refine (h.snoc rfl).writeMarket hr.market ?_ fun _ ↦
      ⟨_, List.mem_append_right _ (List.mem_singleton_self _), ?_⟩
    · rw [hr.reported]
      rfl
    · rfl
  | proposeOracle k newOracle =>
    obtain ⟨m, m', hr, rfl⟩ := process_proposeOracle hp
    refine (h.snoc rfl).writeMarket hr.market ?_ ?_
    · rw [hr.proposed]
      rfl
    · rw [hr.proposed]
      exact (h.snoc rfl).book hr.market
  | executeOracleRotation key =>
    obtain ⟨m, m', hr, rfl⟩ := process_executeOracleRotation hp
    refine (h.snoc rfl).writeMarket hr.market ?_ ?_
    · rw [hr.rotated]
      rfl
    · rw [hr.rotated]
      exact (h.snoc rfl).book hr.market
  | deposit k args =>
    obtain ⟨p, p', v, tokens, hd, rfl⟩ := process_deposit hp
    exact hd.books (h.snoc rfl)
  | approve k periodIndex approvedNeed =>
    obtain ⟨p, v, a, ha, rfl⟩ := process_approve hp
    refine ha.books hs₀ (h.snoc rfl) ⟨_, List.mem_append_right _ (List.mem_singleton_self _), ?_⟩
    have happroved := ha.approved
    rw [happroved]
    exact ⟨rfl, rfl, rfl, ha.signed, rfl, rfl, rfl, rfl⟩
  | releaseBeneficiary k amount =>
    obtain ⟨ctx, period, p', v', tokens, hr, hkind, hperiod, hd, rfl⟩ :=
      process_releaseBeneficiary hp
    exact h.pay rfl (hr.pays_beneficiary hkind hperiod hd hs₀ h hk) hclock
  | releasePurpose k key amount =>
    obtain ⟨ctx, period, p', v', a, a', tokens, hr, hkind, hperiod, hd, ha, -, hc, rfl⟩ :=
      process_releasePurpose hp
    exact h.pay rfl (hr.pays_purpose hkind hperiod hd ha hc hs₀ h hk) hclock

end Run

/-- Every account of a run is at home at its address. -/
theorem reachable_sound {chain : Chain} {external : Ledger Stored → Tokens → Prop}
    {tr : List (Event Stored Instruction)} {L : Ledger Stored}
    (h : Reachable (program chain external) tr L) : L.Sound chain ID := by
  obtain ⟨L₀, h₀, hrun⟩ := h
  exact hrun.invariant (I := fun _ L ↦ L.Sound chain ID) (.genesis h₀)
    (fun _ ih hp ↦ (process_keeps hp).sound ih) fun _ ih _ ↦ ih.congr rfl

/-- Every run keeps the books. -/
theorem books {chain : Chain} {external : Ledger Stored → Tokens → Prop}
    {tr : List (Event Stored Instruction)} {L : Ledger Stored}
    (h : Reachable (program chain external) tr L) (hs : Separate chain L.program)
    (hc : (times tr).Pairwise (· ≤ ·)) : Books chain tr L.program := by
  obtain ⟨L₀, h₀, hrun⟩ := h
  induction hrun with
  | refl => exact ⟨by simp [h₀ _], by simp [h₀ _], by simp⟩
  | @accepted L L' tr tx _ hp ih =>
    rw [times_append, List.pairwise_append] at hc
    have hgrows : Grows L.program L'.program := (process_keeps hp).persists
    exact (ih (hs.of_grows hgrows) hc.1).accepted hp hs fun t ht ↦ hc.2.2 t ht tx.now (by simp)
  | rejected _ _ ih => exact ih hs hc
  | external _ _ ih =>
    rw [times_append, List.pairwise_append] at hc
    exact (ih hs hc.1).snoc rfl

/-! ## The moment of a release -/

section Moment

variable {chain : Chain} {external : Ledger Stored → Tokens → Prop}
  {tr pre post : List (Event Stored Instruction)} {L L' before after : Ledger Stored}
  {tx : Tx Instruction} {x : Payment}

/-- What a release finds and leaves. -/
structure Moment (chain : Chain) (before after : Ledger Stored) (x : Payment) (period : U64)
    (p p' : PolicyWindow) (m : MarketInput) (v v' : CovenantVault) : Prop where
  policy : before.program x.policy = some (.policy p)
  market : before.program x.market = some (.market m)
  marketSeeds : chain.createProgramAddress (marketSeeds v.policyHash ++ [[m.bump]]) ID =
    some x.market
  policySeeds : chain.createProgramAddress (policySeeds v.policyHash ++ [[p.bump]]) ID =
    some x.policy
  vault : before.program x.vault = some (.vault v)
  policyAfter : after.program x.policy = some (.policy p')
  vaultAfter : after.program x.vault = some (.vault v')
  current : period.val = x.period p.genesisTs
  debited : Debited ⟨p, v, m⟩ x.now period x.amount p' v'
  transfer : ∃ source, chain.createProgramAddress (tokenSeeds x.vault ++ [[v.tokenVaultBump]]) ID =
      some source ∧
    chain.transferChecked before.tokens {
      source, mint := v.mint, destination := x.destination, authority := x.vault
      amount := x.amount.val, decimals := v.mintDecimals } = some after.tokens

theorem payment_moment (h : process chain L tx = .ok L')
    (hx : payment (.accepted L tx L') = some x) :
    x.now = tx.now ∧ ∃ period p p' m v v', Moment chain L L' x period p p' m v v' := by
  obtain ⟨now, signers, instr⟩ := tx
  cases instr with
  | releaseBeneficiary k amount =>
    obtain rfl := Option.some.inj hx
    obtain ⟨ctx, period, p', v', tokens, hr, -, hperiod, hd, rfl⟩ := process_releaseBeneficiary h
    have hne : k.policy ≠ k.vault := by
      intro heq
      have hvault := hr.vault
      rw [← heq, hr.policy] at hvault
      exact absurd hvault (by simp)
    refine ⟨rfl, period, ctx.policy.data, p', ctx.market.data, ctx.vault.data, v',
      hr.policy, hr.market, hr.marketSeeds, hr.policySeeds, hr.vault, ?_, by simp, hperiod, hd,
      k.vaultToken, hr.sourceSeeds, hr.vaultMint ▸ hr.transfer⟩
    rw [Ledger.write_program_of_ne hne, Ledger.write_program_self]
  | releasePurpose k key amount =>
    obtain rfl := Option.some.inj hx
    obtain ⟨ctx, period, p', v', a, a', tokens, hr, -, hperiod, hd, ha, -, -, rfl⟩ :=
      process_releasePurpose h
    have hne : k.policy ≠ k.vault := by
      intro heq
      have hvault := hr.vault
      rw [← heq, hr.policy] at hvault
      exact absurd hvault (by simp)
    have hne₁ : k.policy ≠ key := by
      rintro rfl
      rw [hr.policy] at ha
      exact absurd ha (by simp)
    have hne₂ : k.vault ≠ key := by
      rintro rfl
      rw [hr.vault] at ha
      exact absurd ha (by simp)
    refine ⟨rfl, period, ctx.policy.data, p', ctx.market.data, ctx.vault.data, v',
      hr.policy, hr.market, hr.marketSeeds, hr.policySeeds, hr.vault, ?_, ?_, hperiod, hd,
      k.vaultToken, hr.sourceSeeds, hr.vaultMint ▸ hr.transfer⟩
    · rw [Ledger.write_program_of_ne hne₁, Ledger.write_program_of_ne hne,
        Ledger.write_program_self]
    · rw [Ledger.write_program_of_ne hne₂, Ledger.write_program_self]
  | _ => exact absurd hx (by simp [payment])

end Moment

end FundingVaults.PurposeVault
