import FundingVaults.LaunchV7.Instructions
import FundingVaults.LaunchV7.Machine

/-!
# Handler specifications

One lemma per handler: it succeeds exactly when the listed conditions hold, and then returns the
listed accounts.  Nothing after this file unfolds a handler.
-/

namespace FundingVaults.LaunchV7

variable {now : I64} {p' : LaunchPolicyV7}

/-! ## Lifecycle and reports -/

theorem arm_eq_ok {ctx : Control} :
    arm now ctx = .ok p' ↔
      ctx.policy.data.lastActionAt ≤ now ∧ ctx.policy.data.state = PREPARED ∧
        now < ctx.policy.data.config.t0 ∧ ctx.policy.data.fundedMask = 3 ∧
        { ctx.policy.data with lastActionAt := now, state := ARMED } = p' := by
  simp [arm, and_assoc]

theorem activate_eq_ok {ctx : PolicyOnly} :
    activate now ctx = .ok p' ↔
      ctx.policy.data.lastActionAt ≤ now ∧ ctx.policy.data.state = ARMED ∧
        ctx.policy.data.config.t0 ≤ now ∧
        { ctx.policy.data with lastActionAt := now, state := ACTIVE } = p' := by
  simp [activate, and_assoc]

theorem cancel_eq_ok {ctx : ConsentControl} :
    cancel now ctx = .ok p' ↔
      ctx.policy.data.lastActionAt ≤ now ∧
        (ctx.policy.data.state = PREPARED ∨ ctx.policy.data.state = ARMED) ∧
        now < ctx.policy.data.config.t0 ∧
        { ctx.policy.data with lastActionAt := now, state := CANCELLED } = p' := by
  simp [cancel, and_assoc]

theorem expireUnarmed_eq_ok {ctx : PolicyOnly} :
    expireUnarmed now ctx = .ok p' ↔
      ctx.policy.data.lastActionAt ≤ now ∧ ctx.policy.data.state = PREPARED ∧
        ctx.policy.data.config.t0 ≤ now ∧
        { ctx.policy.data with lastActionAt := now, state := CANCELLED } = p' := by
  simp [expireUnarmed, and_assoc]

theorem refund_eq_ok {ctx : Refund} {t : TransferChecked} :
    refund now ctx = .ok (p', t) ↔
      ctx.policy.data.lastActionAt ≤ now ∧ ctx.policy.data.state = CANCELLED ∧
        ctx.vault.data.releasedTotal = 0 ∧ 0 < ctx.vaultToken.data.amount ∧
        { ctx.policy.data with lastActionAt := now } = p' ∧
        { source := ctx.vaultToken.key
          mint := ctx.mint.key
          destination := ctx.destination.key
          authority := ctx.vault.key
          amount := ctx.vaultToken.data.amount
          decimals := ctx.mint.data.decimals } = t := by
  simp [refund, and_assoc]

theorem reportCapacity_eq_ok {ctx : Report} {capacity : U64} {observedAt : I64}
    {sequence epoch : U64} :
    reportCapacity now ctx capacity observedAt sequence epoch = .ok p' ↔
      let p := ctx.policy.data
      p.lastActionAt ≤ now ∧ p.state = ACTIVE ∧ ∃ period, periodAt p.config.t0 now = .ok period ∧
        epoch = p.oracleEpoch ∧ p.oracleActivatedAt ≤ observedAt ∧ p.reportSequence < sequence ∧
        p.reportAt ≤ observedAt ∧ p.config.t0.val + period.val * 2592000 ≤ observedAt.val ∧
        observedAt ≤ now ∧ now.val - observedAt.val ≤ p.config.maxReportAge.val ∧
        { p with
          lastActionAt := now
          reportPeriod := period
          reportCapacity := capacity
          reportAt := observedAt
          reportSequence := sequence
          reportEpoch := epoch
          reportValid := true } = p' := by
  simp only [reportCapacity, bind_eq_ok, LaunchPolicyV7.tick_eq_ok, require_eq_ok, okOr_eq_ok,
    pure_eq_ok, periodStart_eq_ok, I64.checkedSub_eq_some, I64.le_iff, ge_iff_le, gt_iff_lt,
    exists_const]
  constructor
  · rintro ⟨p, ⟨ht, rfl⟩, hs, period, hp, ⟨he, ha, hq, hl⟩, start, hst, ⟨h₁, h₂⟩, age, hage, h₃, h₄⟩
    dsimp only at hst h₃
    exact ⟨ht, hs, period, hp, he, ha, hq, hl, by omega, h₂, by omega, h₄⟩
  · rintro ⟨ht, hs, period, hp, he, ha, hq, hl, h₁, h₂, h₃, h₄⟩
    obtain ⟨age, hage⟩ := I64.exists_val_eq (x := now.val - observedAt.val) (by omega)
      (by have := ctx.policy.data.config.maxReportAge.lt; omega)
    obtain ⟨start, hst⟩ := I64.exists_val_eq
      (x := ctx.policy.data.config.t0.val + period.val * 2592000)
      (by have := ctx.policy.data.config.t0.ge; omega) (by have := observedAt.lt; omega)
    have hfresh : age.val ≤ ctx.policy.data.config.maxReportAge.val := by omega
    exact ⟨_, ⟨ht, rfl⟩, hs, period, hp, ⟨he, ha, hq, hl⟩, start, hst, ⟨by omega, h₂⟩, age, hage,
      hfresh, h₄⟩

theorem deposit_eq_ok {ctx : Deposit} {b : U8} {amount : U64} {v' : LaunchVaultV7}
    {t : TransferChecked} :
    deposit now ctx b amount = .ok (p', v', t) ↔
      let p := ctx.policy.data
      p.lastActionAt ≤ now ∧ p.state = PREPARED ∧ now < p.config.t0 ∧ ∃ r : Role, b = r.toU8 ∧
        (p.withdrawal.get r).pending = 0 ∧ (p.withdrawal.get r).current = ctx.authority ∧
        amount = p.config.principal r ∧
        (ctx.mint.data.mintAuthority = none ∧ ctx.mint.data.freezeAuthority = none) ∧
        p.fundedMask &&& r.bit = 0 ∧
        { p with lastActionAt := now, fundedMask := p.fundedMask ||| r.bit } = p' ∧
        { policy := ctx.policy.key
          depositor := ctx.depositor
          authority := p.owner r
          role := r.toU8
          bump := ctx.vault.bump
          principal := amount
          releasedTotal := 0
          period := 0
          periodUsed := 0 } = v' ∧
        { source := ctx.source.key
          mint := ctx.mint.key
          destination := ctx.vaultToken.key
          authority := ctx.depositor
          amount := amount.val
          decimals := ctx.mint.data.decimals } = t := by
  simp only [deposit, bind_eq_ok, LaunchPolicyV7.tick_eq_ok, require_eq_ok, pure_eq_ok,
    LaunchPolicyV7.withdrawalFor_eq_ok, LaunchPolicyV7.authenticateWithdrawal_eq_ok, exists_const,
    Prod.mk.injEq]
  constructor
  · rintro ⟨p, ⟨ht, rfl⟩, hs, h0, w, ⟨r, rfl, rfl⟩, ⟨r', hr', hpend, hcur, -⟩, x, hx, ha, hm, hf,
      o, ho, h₁, h₂, h₃⟩
    obtain rfl := Role.toU8_inj.mp hr'
    rw [LaunchPolicyV7.principalFor_toU8] at hx
    rw [LaunchPolicyV7.ownerFor_toU8] at ho
    cases hx
    cases ho
    exact ⟨ht, hs, h0, r, rfl, hpend, hcur, ha, hm, hf, h₁, h₂, h₃⟩
  · rintro ⟨ht, hs, h0, r, rfl, hpend, hcur, ha, hm, hf, h₁, h₂, h₃⟩
    exact ⟨_, ⟨ht, rfl⟩, hs, h0, _, ⟨r, rfl, rfl⟩, ⟨r, rfl, hpend, hcur, rfl⟩, _,
      LaunchPolicyV7.principalFor_toU8 r, ha, hm, hf, _, LaunchPolicyV7.ownerFor_toU8 r, h₁, h₂, h₃⟩

/-! ## Rotations -/

namespace Withdrawal

variable {k k' : WithdrawalKeyV7} {q q' : WithdrawalProposalV7} {p : LaunchPolicyV7} {r : Role}
  {u : Unit}

theorem prepareKey_eq_ok {ctx : PrepareWithdrawalKey} {subject : Pubkey} :
    prepareKey ctx subject = .ok k' ↔
      subject ≠ Bytes32.zero ∧ ctx.policy.data.state ≠ CANCELLED ∧
        { policy := ctx.policy.key
          subject
          historyMask := 0
          pendingMask := 0
          recipient := false
          bump := ctx.record.bump } = k' := by
  simp [prepareKey]

theorem eligibleRecipient_eq_ok : eligibleRecipient p k = .ok u ↔ EligibleRecipient p k := by
  simp only [eligibleRecipient, require_eq_ok]
  constructor
  · rintro ⟨h₁, h₂, h₃, h₄, h₅, h₆⟩
    exact ⟨fun r ↦ by cases r <;> assumption, fun r ↦ by cases r <;> assumption, h₅, h₆⟩
  · rintro ⟨ho, hc, h₅, h₆⟩
    exact ⟨ho .founder, ho .treasury, hc .founder, hc .treasury, h₅, h₆⟩

theorem eligibleSuccessor_eq_ok :
    eligibleSuccessor p r.toU8 k = .ok u ↔ EligibleSuccessor p r k := by
  simp only [eligibleSuccessor, LaunchPolicyV7.ownerFor_toU8, LaunchPolicyV7.withdrawalKeys_toU8,
    bind_eq_ok, require_eq_ok, Except.ok.injEq, exists_eq_left']
  constructor
  · rintro ⟨h₁, h₂, h₃, h₄, h₅⟩
    exact ⟨h₁, h₂, h₃, by simpa using h₄, h₅⟩
  · rintro ⟨h₁, h₂, h₃, h₄, h₅⟩
    exact ⟨h₁, h₂, h₃, by simpa using h₄, h₅⟩

theorem quorum_eq_ok {a b : Pubkey} {agreed : Bool} :
    quorum p r.toU8 a b = .ok agreed ↔ agreed = decide (TwoOf (p.config.committee r) a b) := by
  simp only [quorum, LaunchPolicyV7.withdrawalKeys_toU8, bind_eq_ok, pure_eq_ok, Except.ok.injEq,
    exists_eq_left']
  exact eq_comm

/-- The three checked sums of the admission are one bound. -/
theorem validateAdmission_eq_ok {validFrom validUntil : I64} :
    validateAdmission validFrom validUntil now = .ok u ↔
      0 ≤ validFrom ∧ validUntil.val - validFrom.val ≤ 300 ∧
        (validFrom ≤ now ∧ now ≤ validUntil) ∧ validUntil.val + 10368000 < 2 ^ 63 := by
  simp only [validateAdmission, bind_eq_ok, require_eq_ok, okOr_eq_ok, pure_eq_ok, exists_const,
    I64.checkedSub_eq_some, Option.bind_eq_some_iff, I64.checkedAdd_eq_some, I64.le_iff,
    I64.val_zero, ge_iff_le, CHANGE_NOTICE_val, WITHDRAWAL_EXECUTION_WINDOW_val,
    MAX_SUBMISSION_WINDOW_val]
  constructor
  · rintro ⟨⟨h₀, h₁⟩, w, hw, ⟨h₂, h₃, h₄⟩, s, ⟨t, ht, hs⟩, -⟩
    have := s.lt
    omega
  · rintro ⟨h₀, h₁, ⟨h₃, h₄⟩, h₅⟩
    have hu := validUntil.lt
    obtain ⟨w, hw⟩ := I64.exists_val_eq (x := validUntil.val - validFrom.val) (by omega) (by omega)
    obtain ⟨t, ht⟩ := I64.exists_val_eq (x := validUntil.val + 7776000) (by omega) (by omega)
    obtain ⟨s, hs⟩ := I64.exists_val_eq (x := t.val + 2592000) (by omega) (by omega)
    exact ⟨⟨h₀, by omega⟩, w, hw, ⟨by omega, h₃, h₄⟩, s, ⟨t, ht, hs⟩, trivial⟩

theorem pending_eq_ok :
    pending p q k = .ok u ↔ ∃ r : Role, q.role = r.toU8 ∧
      q.status = PROPOSAL_PENDING ∧ q.nonce = (p.withdrawal.get r).sequence ∧
        q.nonce = (p.withdrawal.get r).pending ∧ q.epoch = (p.withdrawal.get r).epoch ∧
        q.predecessor = (p.withdrawal.get r).current ∧ q.finishedAt = 0 ∧
        k.pendingMask &&& r.bit ≠ 0 := by
  simp only [pending, bind_eq_ok, LaunchPolicyV7.withdrawalFor_eq_ok, require_eq_ok]
  constructor
  · rintro ⟨w, ⟨r, hr, rfl⟩, h⟩
    rw [hr] at h
    exact ⟨r, hr, h⟩
  · rintro ⟨r, hr, h⟩
    refine ⟨_, ⟨r, hr, rfl⟩, ?_⟩
    rw [hr]
    exact h

/-- What `finish` returns for a proposal of the role `r`. -/
theorem finish_eq (hr : q.role = r.toU8) (status : U8) :
    finish p q k status now =
      ({ p with
          withdrawal := p.withdrawal.set r { p.withdrawal.get r with pending := 0 } },
        { q with status, finishedAt := now },
        { k with pendingMask := k.pendingMask &&& ~~~r.bit }) := by
  simp [finish, hr, Role.one_shiftLeft_toU8]

theorem execute_eq_ok {ctx : ExecuteWithdrawal} (hr : ctx.proposal.data.role = r.toU8) :
    execute now ctx = .ok (p', q', k') ↔
      let p := ctx.policy.data
      let q := ctx.proposal.data
      let k := ctx.successorRecord.data
      p.lastActionAt ≤ now ∧ p.state ≠ CANCELLED ∧ pending p q k = .ok () ∧
        (q.executeAfter ≤ now ∧ now < q.expiresAt) ∧ EligibleSuccessor p r k ∧
        ∃ epoch : U64, (p.withdrawal.get r).epoch.val + 1 = epoch.val ∧
        p.setRole now r { p.withdrawal.get r with current := q.successor, epoch, pending := 0 } = p' ∧
        { q with status := PROPOSAL_EXECUTED, finishedAt := now } = q' ∧
        { k with
          historyMask := k.historyMask ||| r.bit
          pendingMask := k.pendingMask &&& ~~~r.bit } = k' := by
  have hset : ∀ (x : PerRole WithdrawalRole) (w w' : WithdrawalRole),
      (x.set r w).set r w' = x.set r w' := by
    intro x w w'
    cases r <;> rfl
  simp only [execute, bind_eq_ok, LaunchPolicyV7.tick_eq_ok, require_eq_ok, okOr_eq_ok, pure_eq_ok,
    hr, eligibleSuccessor_eq_ok, LaunchPolicyV7.withdrawalFor_toU8, U64.checkedAdd_eq_some,
    U64.val_one, Except.ok.injEq, exists_const, finish_eq hr, PerRole.modify_toU8,
    PerRole.get_set_self, hset, Role.one_shiftLeft_toU8, Prod.mk.injEq, ge_iff_le]
  constructor
  · rintro ⟨p, ⟨ht, rfl⟩, hs, ⟨⟩, hp, hw, he, w, rfl, e, h⟩
    exact ⟨ht, hs, hp, hw, ⟨he.1, he.2, he.3, he.4, he.5⟩, e, h⟩
  · rintro ⟨ht, hs, hp, hw, he, e, h⟩
    exact ⟨_, ⟨ht, rfl⟩, hs, _, hp, hw, ⟨he.1, he.2, he.3, he.4, he.5⟩, _, rfl, e, h⟩

theorem expire_eq_ok {ctx : ExecuteWithdrawal} (hr : ctx.proposal.data.role = r.toU8) :
    expire now ctx = .ok (p', q', k') ↔
      let p := ctx.policy.data
      let q := ctx.proposal.data
      let k := ctx.successorRecord.data
      p.lastActionAt ≤ now ∧ pending p q k = .ok () ∧ q.expiresAt ≤ now ∧
        p.setRole now r { p.withdrawal.get r with pending := 0 } = p' ∧
        { q with status := PROPOSAL_EXPIRED, finishedAt := now } = q' ∧
        { k with pendingMask := k.pendingMask &&& ~~~r.bit } = k' := by
  simp only [expire, bind_eq_ok, LaunchPolicyV7.tick_eq_ok, require_eq_ok, pure_eq_ok,
    exists_const, finish_eq hr, Prod.mk.injEq, ge_iff_le]
  constructor
  · rintro ⟨p, ⟨ht, rfl⟩, ⟨⟩, hp, h⟩
    exact ⟨ht, hp, h⟩
  · rintro ⟨ht, hp, h⟩
    exact ⟨_, ⟨ht, rfl⟩, _, hp, h⟩

theorem cancel_eq_ok {ctx : CancelWithdrawal} (hr : ctx.proposal.data.role = r.toU8) :
    cancel now ctx = .ok (p', q', k') ↔
      let p := ctx.policy.data
      let q := ctx.proposal.data
      let k := ctx.successorRecord.data
      p.lastActionAt ≤ now ∧ pending p q k = .ok () ∧
        (TwoOf (p.config.committee r) ctx.initiator ctx.cosigner ∨
          (ctx.initiator = ctx.cosigner ∧ (ctx.initiator = q.successor ∨
            (¬ q.recovery ∧ ctx.initiator = (p.withdrawal.get r).current)))) ∧
        p.setRole now r { p.withdrawal.get r with pending := 0 } = p' ∧
        { q with status := PROPOSAL_CANCELLED, finishedAt := now } = q' ∧
        { k with pendingMask := k.pendingMask &&& ~~~r.bit } = k' := by
  simp only [cancel, bind_eq_ok, LaunchPolicyV7.tick_eq_ok, require_eq_ok, pure_eq_ok, hr,
    quorum_eq_ok, LaunchPolicyV7.withdrawalFor_toU8, Except.ok.injEq, exists_const, finish_eq hr,
    Prod.mk.injEq]
  constructor
  · rintro ⟨p, ⟨ht, rfl⟩, ⟨⟩, hp, agreed, rfl, w, rfl, ha, h⟩
    exact ⟨ht, hp, by simpa using ha, h⟩
  · rintro ⟨ht, hp, ha, h⟩
    exact ⟨_, ⟨ht, rfl⟩, _, hp, _, rfl, _, rfl, by simpa using ha, h⟩

/-! Each of the three checks `pending` first, hence the role byte of its proposal. -/

section Role

variable {x : LaunchPolicyV7 × WithdrawalProposalV7 × WithdrawalKeyV7}

theorem execute_role {ctx : ExecuteWithdrawal} (h : execute now ctx = .ok x) :
    ∃ r : Role, ctx.proposal.data.role = r.toU8 := by
  simp only [execute, bind_eq_ok, pending_eq_ok] at h
  obtain ⟨-, -, -, -, -, ⟨r, hr, -⟩, -⟩ := h
  exact ⟨r, hr⟩

theorem expire_role {ctx : ExecuteWithdrawal} (h : expire now ctx = .ok x) :
    ∃ r : Role, ctx.proposal.data.role = r.toU8 := by
  simp only [expire, bind_eq_ok, pending_eq_ok] at h
  obtain ⟨-, -, -, ⟨r, hr, -⟩, -⟩ := h
  exact ⟨r, hr⟩

theorem cancel_role {ctx : CancelWithdrawal} (h : cancel now ctx = .ok x) :
    ∃ r : Role, ctx.proposal.data.role = r.toU8 := by
  simp only [cancel, bind_eq_ok, pending_eq_ok] at h
  obtain ⟨-, -, -, ⟨r, hr, -⟩, -⟩ := h
  exact ⟨r, hr⟩

end Role

theorem propose_eq_ok {ctx : ProposeWithdrawal} {b : U8} {recovery : Bool} {nonce epoch : U64}
    {validFrom validUntil : I64} {predecessor : Pubkey} :
    propose now ctx b recovery nonce epoch validFrom validUntil predecessor = .ok (p', q', k') ↔
      let p := ctx.policy.data
      p.lastActionAt ≤ now ∧ p.state ≠ CANCELLED ∧
        validateAdmission validFrom validUntil now = .ok () ∧ ∃ r : Role, b = r.toU8 ∧
        (p.withdrawal.get r).pending = 0 ∧ (p.withdrawal.get r).sequence.val + 1 = nonce.val ∧
        epoch = (p.withdrawal.get r).epoch ∧ predecessor = (p.withdrawal.get r).current ∧
        (p.withdrawal.get r).epoch.val + 1 < 2 ^ 64 ∧
        (if recovery then TwoOf (p.config.committee r) ctx.initiator ctx.cosigner
          else ctx.initiator = (p.withdrawal.get r).current ∧
            ctx.cosigner = (p.withdrawal.get r).current) ∧
        EligibleSuccessor p r ctx.successorRecord.data ∧ ∃ executeAfter expiresAt : I64,
        now.val + 7776000 = executeAfter.val ∧ executeAfter.val + 2592000 = expiresAt.val ∧
        p.setRole now r { p.withdrawal.get r with pending := nonce, sequence := nonce } = p' ∧
        { policy := ctx.policy.key
          role := b
          nonce
          epoch
          predecessor := (p.withdrawal.get r).current
          successor := ctx.successor
          recovery
          validFrom
          validUntil
          createdAt := now
          executeAfter
          expiresAt
          status := PROPOSAL_PENDING
          finishedAt := 0
          bump := ctx.proposal.bump } = q' ∧
        { ctx.successorRecord.data with
          pendingMask := ctx.successorRecord.data.pendingMask ||| r.bit } = k' := by
  have hauth : ∀ {p : LaunchPolicyV7} {r : Role} {w : WithdrawalRole},
      ((if recovery then do
          let agreed ← quorum p r.toU8 ctx.initiator ctx.cosigner
          require agreed LaunchError.RecoveryQuorum
        else
          require (ctx.initiator = w.current ∧ ctx.cosigner = w.current)
            LaunchError.WithdrawalAuthority : Result Unit) = .ok ()) ↔
        if recovery then TwoOf (p.config.committee r) ctx.initiator ctx.cosigner
          else ctx.initiator = w.current ∧ ctx.cosigner = w.current := by
    intro p r w
    cases recovery <;> simp [quorum_eq_ok]
  simp only [propose, bind_eq_ok, LaunchPolicyV7.tick_eq_ok, require_eq_ok, okOr_eq_ok, pure_eq_ok,
    LaunchPolicyV7.withdrawalFor_eq_ok, U64.checkedAdd_eq_some, U64.val_one,
    I64.checkedAdd_eq_some, CHANGE_NOTICE_val, WITHDRAWAL_EXECUTION_WINDOW_val, Prod.mk.injEq]
  constructor
  · rintro ⟨p, ⟨ht, rfl⟩, -, hs, ⟨⟩, hadm, w, ⟨r, rfl, rfl⟩, -, hpend, next, hnext, -,
      ⟨hn, he, hpred⟩, e, hfit, ⟨⟩, ha, ⟨⟩, helig, after, hafter, exp, hexp, h₁, h₂, h₃⟩
    have := e.isLt
    have helig := eligibleSuccessor_eq_ok.mp helig
    refine ⟨ht, hs, hadm, r, rfl, hpend, by rw [hn]; exact hnext, he, hpred,
      by dsimp only at hfit; omega, hauth.mp ha, ⟨helig.1, helig.2, helig.3, helig.4, helig.5⟩,
      after, exp, hafter, hexp, ?_, h₂, ?_⟩
    · rw [← h₁]
      simp [LaunchPolicyV7.setRole]
    · simpa only [Role.one_shiftLeft_toU8] using h₃
  · rintro ⟨ht, hs, hadm, r, rfl, hpend, hn, he, hpred, hfit, ha, helig, after, exp, hafter, hexp,
      h₁, h₂, h₃⟩
    refine ⟨_, ⟨ht, rfl⟩, (), hs, (), hadm, _, ⟨r, rfl, rfl⟩, (), hpend, nonce, hn, (),
      ⟨rfl, he, hpred⟩, ⟨_, hfit⟩, rfl, (), hauth.mpr ha, (), ?_, after, hafter, exp, hexp, ?_, h₂,
      ?_⟩
    · exact eligibleSuccessor_eq_ok.mpr ⟨helig.1, helig.2, helig.3, helig.4, helig.5⟩
    · rw [← h₁]
      simp [LaunchPolicyV7.setRole]
    · simpa only [Role.one_shiftLeft_toU8] using h₃

end Withdrawal

/-! ## Approvals and releases -/

theorem approveTreasury_eq_ok {ctx : ApproveTreasury} {period need epoch : U64}
    {a' : TreasuryApprovalV7} {k' : WithdrawalKeyV7} :
    approveTreasury now ctx period need epoch = .ok (p', a', k') ↔
      let p := ctx.policy.data
      p.lastActionAt ≤ now ∧ p.state ≠ CANCELLED ∧
        ((p.withdrawal.get .treasury).pending = 0 ∧
          (p.withdrawal.get .treasury).current = ctx.treasury ∧
          (p.withdrawal.get .treasury).epoch = epoch) ∧
        EligibleRecipient p ctx.recipientRecord.data ∧ 0 < need ∧
        (p.config.t0 ≤ now → ∃ current, periodAt p.config.t0 now = .ok current ∧
          current < period) ∧ period.val + 1 < 2 ^ 64 ∧
        p.config.t0.val + (period.val + 1) * 2592000 < 2 ^ 63 ∧
        now.val + 2592000 < p.config.t0.val + (period.val + 1) * 2592000 ∧ ∃ count : U64,
        p.approvalCount.val + 1 = count.val ∧
        { p with lastActionAt := now, approvalCount := count } = p' ∧
        { policy := ctx.policy.key
          period
          recipient := ctx.recipient.key
          recipientOwner := ctx.recipient.data.owner
          need
          consumed := 0
          createdAt := now
          bump := ctx.approval.bump
          author := ctx.treasury
          authorEpoch := epoch } = a' ∧
        { ctx.recipientRecord.data with recipient := true } = k' := by
  have hrole : ∀ {r : Role}, TREASURY = r.toU8 ↔ r = .treasury := by
    intro r
    cases r <;> decide
  have hfuture : ∀ {t0 : I64}, ((if now ≥ t0 then do
        let current ← periodAt t0 now
        require (period > current) LaunchError.InvalidApproval
      else pure () : Result Unit) = .ok ()) ↔
      (t0 ≤ now → ∃ current, periodAt t0 now = .ok current ∧ current < period) := by
    intro t0
    by_cases h : t0 ≤ now <;> simp [h]
  simp only [approveTreasury, bind_eq_ok, LaunchPolicyV7.tick_eq_ok, require_eq_ok, okOr_eq_ok,
    pure_eq_ok, LaunchPolicyV7.authenticateWithdrawal_eq_ok, Withdrawal.eligibleRecipient_eq_ok,
    hrole, U64.checkedAdd_eq_some, U64.val_one, periodStart_eq_ok, I64.checkedAdd_eq_some,
    PERIOD_val, exists_eq_left, Prod.mk.injEq, exists_const]
  constructor
  · rintro ⟨p, ⟨ht, rfl⟩, hs, hauth, hel, hneed, ⟨⟩, hfut, next, hnext, finish, hfin, mature, hmat,
      hlt, count, hcount, h⟩
    have := next.isLt
    have := finish.lt
    have hf : ctx.policy.data.config.t0.val + (period.val + 1 : ℕ) * 2592000 = finish.val := by
      rw [hnext]
      exact hfin
    rw [I64.lt_iff] at hlt
    exact ⟨ht, hs, hauth, ⟨hel.1, hel.2, hel.3, hel.4⟩, hneed, hfuture.mp hfut, by omega,
      by push_cast at hf; omega, by push_cast at hf; omega, count, hcount, h⟩
  · rintro ⟨ht, hs, hauth, hel, hneed, hfut, hnext, hfin, hnotice, count, hcount, h⟩
    have := ctx.policy.data.config.t0.ge
    have := now.ge
    obtain ⟨finish, hf⟩ := I64.exists_val_eq
      (x := ctx.policy.data.config.t0.val + (period.val + 1) * 2592000) (by omega) hfin
    obtain ⟨mature, hm⟩ := I64.exists_val_eq (x := now.val + 2592000) (by omega) (by omega)
    refine ⟨_, ⟨ht, rfl⟩, hs, hauth, ⟨hel.1, hel.2, hel.3, hel.4⟩, hneed, (), hfuture.mpr hfut,
      ⟨_, hnext⟩, rfl, finish, ?_, mature, hm, ?_, count, hcount, h⟩
    · push_cast
      exact hf
    · rw [I64.lt_iff]
      omega

/-- The destination conditions of `release`, and the approval it writes back. -/
def ReleasePayee (chain : Chain) (now : I64) (ctx : Release) (period amount : U64) :
    Role → Option (Account TreasuryApprovalV7) → Prop
  | .founder, a' =>
      ctx.policy.data.config.t0.val + 15552000 ≤ now.val ∧
        ctx.destination.data.owner = (ctx.policy.data.withdrawal.get .founder).current ∧
        (ctx.approval = none ∧ ctx.recipientRecord = none) ∧ a' = none
  | .treasury, a' =>
      ∃ a, releaseApproval chain now ctx ctx.policy.data period amount = .ok a ∧ a' = some a

theorem releaseApproval_eq_ok {chain : Chain} {ctx : Release} {p : LaunchPolicyV7}
    {period amount : U64} {a' : Account TreasuryApprovalV7} :
    releaseApproval chain now ctx p period amount = .ok a' ↔
      ∃ k a, ctx.recipientRecord = some k ∧ ctx.approval = some a ∧
        (k.key = (Seeds.key ctx.policy.key ctx.destination.data.owner).address chain ∧
          k.data.bump = (Seeds.key ctx.policy.key ctx.destination.data.owner).bump chain ∧
          k.data.policy = ctx.policy.key ∧ k.data.subject = ctx.destination.data.owner ∧
          k.data.recipient = true) ∧ EligibleRecipient p k.data ∧
        chain.createProgramAddress
          ((Seeds.approval ctx.policy.key period).bytes ++ [[a.data.bump]]) ID = some a.key ∧
        (a.data.policy = ctx.policy.key ∧ a.data.period = period ∧
          a.data.recipient = ctx.destination.key ∧
          a.data.recipientOwner = ctx.destination.data.owner) ∧
        a.data.createdAt.val + 2592000 ≤ now.val ∧ ∃ used : U64,
        a.data.consumed.val + amount.val = used.val ∧ used ≤ a.data.need ∧
        { a with data := { a.data with consumed := used } } = a' := by
  simp only [releaseApproval, bind_eq_ok, okOr_eq_ok, require_eq_ok, pure_eq_ok,
    Withdrawal.eligibleRecipient_eq_ok, U64.checkedAdd_eq_some, I64.checkedAdd_eq_some, PERIOD_val,
    exists_const]
  constructor
  · rintro ⟨k, hk, hrec, hel, a, ha, x, hx, ⟨rfl, hb⟩, mature, hm, hle, used, hu, h⟩
    exact ⟨k, a, hk, ha, hrec, hel, hx, hb, by rw [hm]; exact hle, used, hu, h⟩
  · rintro ⟨k, a, hk, ha, hrec, hel, hx, hb, hle, used, hu, h⟩
    have := a.data.createdAt.ge
    have := now.lt
    obtain ⟨mature, hm⟩ := I64.exists_val_eq (x := a.data.createdAt.val + 2592000) (by omega)
      (by omega)
    refine ⟨k, hk, hrec, hel, a, ha, a.key, hx, ⟨rfl, hb⟩, mature, hm, ?_, used, hu, h⟩
    rw [ge_iff_le, I64.le_iff]
    omega

theorem release_eq_ok {chain : Chain} {ctx : Release} {amount epoch : U64} {v' : LaunchVaultV7}
    {a' : Option (Account TreasuryApprovalV7)} {t : TransferChecked} :
    release chain now ctx amount epoch = .ok (p', v', a', t) ↔
      let p := ctx.policy.data
      let v := ctx.vault.data
      p.lastActionAt ≤ now ∧ p.state = ACTIVE ∧ ∃ r : Role, v.role = r.toU8 ∧
        ((p.withdrawal.get r).pending = 0 ∧ (p.withdrawal.get r).current = ctx.authority ∧
          (p.withdrawal.get r).epoch = epoch) ∧
        p.config.t0 < now ∧ 0 < amount ∧ ∃ period, periodAt p.config.t0 now = .ok period ∧
        (p.period ≤ period ∧ v.period ≤ period) ∧
        (p.reportValid = true ∧ p.reportEpoch = p.oracleEpoch ∧ 0 < p.reportSequence ∧
          p.reportPeriod = period ∧ p.reportAt ≤ now) ∧
        now.val - p.reportAt.val ≤ p.config.maxReportAge.val ∧ v.authority = p.owner r ∧
        ReleasePayee chain now ctx period amount r a' ∧
        consume { p with lastActionAt := now } v now amount = .ok (p', v') ∧
        { source := ctx.vaultToken.key
          mint := ctx.mint.key
          destination := ctx.destination.key
          authority := ctx.vault.key
          amount := amount.val
          decimals := ctx.mint.data.decimals } = t := by
  have hpayee : ∀ {r : Role} {period : U64} {a' : Option (Account TreasuryApprovalV7)},
      ((if r.toU8 = FOUNDER then do
          let cliff ← okOr (ctx.policy.data.config.t0.checkedAdd CLIFF) LaunchError.Overflow
          require (now ≥ cliff) LaunchError.CliffActive
          require (ctx.destination.data.owner = ctx.policy.data.withdrawal.founder.current)
            LaunchError.Unauthorized
          require (ctx.approval.isNone ∧ ctx.recipientRecord.isNone) LaunchError.InvalidApproval
          pure none
        else if r.toU8 = TREASURY then do
          let a ← releaseApproval chain now ctx { ctx.policy.data with lastActionAt := now } period
            amount
          pure (some a)
        else .error LaunchError.InvalidConfig : Result (Option (Account TreasuryApprovalV7))) =
          .ok a') ↔ ReleasePayee chain now ctx period amount r a' := by
    intro r period a'
    cases r with
    | founder =>
      have hcliff : (∃ cliff : I64, ctx.policy.data.config.t0.val + 15552000 = cliff.val ∧
          cliff.val ≤ now.val) ↔ ctx.policy.data.config.t0.val + 15552000 ≤ now.val := by
        constructor
        · rintro ⟨cliff, hc, hle⟩
          omega
        · intro hle
          have := ctx.policy.data.config.t0.ge
          have := now.lt
          obtain ⟨c, hc⟩ := I64.exists_val_eq (x := ctx.policy.data.config.t0.val + 15552000)
            (by omega) (by omega)
          exact ⟨c, hc, by omega⟩
      simp only [Role.toU8, if_true, bind_eq_ok, okOr_eq_ok, require_eq_ok, pure_eq_ok,
        I64.checkedAdd_eq_some, CLIFF_val, ge_iff_le, I64.le_iff, exists_const,
        Option.isNone_iff_eq_none, ReleasePayee, ← hcliff]
      constructor
      · rintro ⟨c, hc, hle, ho, hn, rfl⟩
        exact ⟨⟨c, hc, hle⟩, ho, hn, rfl⟩
      · rintro ⟨⟨c, hc, hle⟩, ho, hn, rfl⟩
        exact ⟨c, hc, hle, ho, hn, rfl⟩
    | treasury =>
      have hne : Role.treasury.toU8 ≠ FOUNDER := by decide
      rw [if_neg hne, if_pos (show Role.treasury.toU8 = TREASURY from rfl)]
      simp only [bind_eq_ok, pure_eq_ok, ReleasePayee]
      constructor
      · rintro ⟨a, ha, rfl⟩
        exact ⟨a, ha, rfl⟩
      · rintro ⟨a, ha, rfl⟩
        exact ⟨a, ha, rfl⟩
  simp only [release, bind_eq_ok, LaunchPolicyV7.tick_eq_ok, require_eq_ok, okOr_eq_ok, pure_eq_ok,
    LaunchPolicyV7.authenticateWithdrawal_eq_ok, I64.checkedSub_eq_some, exists_const,
    Prod.mk.injEq, Prod.exists]
  constructor
  · rintro ⟨p, ⟨ht, rfl⟩, hs, ⟨r, hr, hauth⟩, ht0, ham, period, hp, hper, hrep, age, hage, hle, o,
      ho, hvo, a, ha, p₁, v₁, hc, rfl, rfl, rfl, h⟩
    rw [hr] at ha ho
    rw [LaunchPolicyV7.ownerFor_toU8] at ho
    cases ho
    have hle : age.val ≤ ctx.policy.data.config.maxReportAge.val := hle
    have hage : now.val - ctx.policy.data.reportAt.val = age.val := hage
    exact ⟨ht, hs, r, hr, hauth, ht0, ham, period, hp, hper, hrep, by omega, hvo, hpayee.mp ha, hc,
      h⟩
  · rintro ⟨ht, hs, r, hr, hauth, ht0, ham, period, hp, hper, hrep, hage, hvo, ha, hc, h⟩
    have hat := I64.le_iff.mp hrep.2.2.2.2
    have := ctx.policy.data.config.maxReportAge.lt
    obtain ⟨age, hage'⟩ := I64.exists_val_eq (x := now.val - ctx.policy.data.reportAt.val)
      (by omega) (by omega)
    refine ⟨_, ⟨ht, rfl⟩, hs, ⟨r, hr, hauth⟩, ht0, ham, period, hp, hper, hrep, age, hage', ?_, _,
      ?_, hvo, a', ?_, p', v', hc, rfl, rfl, rfl, h⟩
    · change age.val ≤ ctx.policy.data.config.maxReportAge.val
      omega
    · rw [hr]
      exact LaunchPolicyV7.ownerFor_toU8 r
    · rw [hr]
      exact hpayee.mpr ha

/-! ## Changes -/

namespace Governance

variable {q q' : ChangeProposalV7} {p : LaunchPolicyV7} {u : Unit}

theorem quorum_eq_true {a b : Pubkey} : quorum p a b = true ↔ TwoOf p.config.recoveryKeys a b := by
  simp [quorum, TwoOf]

theorem pending_eq_ok :
    pending p q = .ok u ↔ p.state ≠ CANCELLED ∧ q.status = PROPOSAL_PENDING ∧
      p.pendingChange = q.nonce ∧ p.changeSequence = q.nonce ∧
      p.controllerEpoch = q.controllerEpoch ∧ p.oracleEpoch = q.oracleEpoch := by
  simp [pending]

theorem propose_eq_ok {ctx : ProposeChange} {kind : U8} {recovery : Bool} {nonce : U64} :
    propose now ctx kind recovery nonce = .ok (p', q') ↔
      let p := ctx.policy.data
      p.lastActionAt ≤ now ∧ p.state ≠ CANCELLED ∧ p.pendingChange = 0 ∧
        p.changeSequence.val + 1 = nonce.val ∧
        (if recovery then TwoOf p.config.recoveryKeys ctx.initiator ctx.cosigner
          else ctx.initiator = p.controller ∧ ctx.cosigner = p.controller) ∧
        ctx.successor ≠ Bytes32.zero ∧
        ((kind = CHANGE_ORACLE ∧ ctx.successor ≠ p.oracle) ∨
          (kind = CHANGE_CONTROLLER ∧ ctx.successor ≠ p.controller)) ∧ ∃ executeAfter : I64,
        now.val + 7776000 = executeAfter.val ∧
        { p with lastActionAt := now, changeSequence := nonce, pendingChange := nonce } = p' ∧
        { policy := ctx.policy.key
          nonce
          kind
          recovery
          successor := ctx.successor
          controllerEpoch := p.controllerEpoch
          oracleEpoch := p.oracleEpoch
          createdAt := now
          executeAfter
          status := PROPOSAL_PENDING
          bump := ctx.proposal.bump } = q' := by
  have hauth : ∀ {p : LaunchPolicyV7},
      ((if recovery then
          require (quorum p ctx.initiator ctx.cosigner) LaunchError.RecoveryQuorum
        else
          require (ctx.initiator = p.controller ∧ ctx.cosigner = p.controller)
            LaunchError.Unauthorized : Result Unit) = .ok ()) ↔
        if recovery then TwoOf p.config.recoveryKeys ctx.initiator ctx.cosigner
          else ctx.initiator = p.controller ∧ ctx.cosigner = p.controller := by
    intro p
    cases recovery <;> simp [quorum_eq_true]
  have hkind : ∀ {o c : Pubkey} {P : Pubkey → Prop},
      (∃ current, (if kind = CHANGE_ORACLE then .ok o
        else if kind = CHANGE_CONTROLLER then .ok c
        else .error LaunchError.InvalidChange : Result Pubkey) = .ok current ∧ P current) ↔
      (kind = CHANGE_ORACLE ∧ P o) ∨ (kind = CHANGE_CONTROLLER ∧ P c) := by
    intro o c P
    have hne : CHANGE_CONTROLLER ≠ CHANGE_ORACLE := by decide
    by_cases h₀ : kind = CHANGE_ORACLE
    · simp [h₀, hne.symm]
    · by_cases h₁ : kind = CHANGE_CONTROLLER <;> simp [h₀, h₁, hne]
  simp only [propose, bind_eq_ok, LaunchPolicyV7.tick_eq_ok, require_eq_ok, okOr_eq_ok, pure_eq_ok,
    U64.checkedAdd_eq_some, U64.val_one, I64.checkedAdd_eq_some, CHANGE_NOTICE_val, hkind,
    Prod.mk.injEq, exists_const]
  constructor
  · rintro ⟨p, ⟨ht, rfl⟩, hs, hidle, next, hnext, rfl, ⟨⟩, ha, hk⟩
    rcases hk with ⟨hk, ⟨hz, hne⟩, after, h⟩ | ⟨hk, ⟨hz, hne⟩, after, h⟩
    · exact ⟨ht, hs, hidle, hnext, hauth.mp ha, hz, .inl ⟨hk, hne⟩, after, h⟩
    · exact ⟨ht, hs, hidle, hnext, hauth.mp ha, hz, .inr ⟨hk, hne⟩, after, h⟩
  · rintro ⟨ht, hs, hidle, hnext, ha, hz, ⟨hk, hne⟩ | ⟨hk, hne⟩, after, h⟩
    · exact ⟨_, ⟨ht, rfl⟩, hs, hidle, _, hnext, rfl, (), hauth.mpr ha,
        .inl ⟨hk, ⟨hz, hne⟩, after, h⟩⟩
    · exact ⟨_, ⟨ht, rfl⟩, hs, hidle, _, hnext, rfl, (), hauth.mpr ha,
        .inr ⟨hk, ⟨hz, hne⟩, after, h⟩⟩

theorem cancel_eq_ok {ctx : CancelChange} :
    cancel now ctx = .ok (p', q') ↔
      let p := ctx.policy.data
      let q := ctx.proposal.data
      p.lastActionAt ≤ now ∧ pending p q = .ok () ∧
        (TwoOf p.config.recoveryKeys ctx.initiator ctx.cosigner ∨
          (ctx.initiator = ctx.cosigner ∧ (ctx.initiator = q.successor ∨
            (¬ q.recovery ∧ ctx.initiator = p.controller)))) ∧
        { p with lastActionAt := now, pendingChange := 0 } = p' ∧
        { q with status := PROPOSAL_CANCELLED } = q' := by
  simp only [cancel, bind_eq_ok, LaunchPolicyV7.tick_eq_ok, require_eq_ok, pure_eq_ok,
    quorum_eq_true, exists_const, Prod.mk.injEq]
  constructor
  · rintro ⟨p, ⟨ht, rfl⟩, ⟨⟩, hp, h⟩
    exact ⟨ht, hp, h⟩
  · rintro ⟨ht, hp, h⟩
    exact ⟨_, ⟨ht, rfl⟩, (), hp, h⟩

theorem execute_eq_ok {ctx : ExecuteChange} :
    execute now ctx = .ok (p', q') ↔
      let p := ctx.policy.data
      let q := ctx.proposal.data
      p.lastActionAt ≤ now ∧ pending p q = .ok () ∧ q.executeAfter ≤ now ∧
        ((q.kind = CHANGE_ORACLE ∧ ∃ epoch : U64, p.oracleEpoch.val + 1 = epoch.val ∧
            { p with
              lastActionAt := now
              oracle := q.successor
              oracleEpoch := epoch
              oracleActivatedAt := now
              reportValid := false
              pendingChange := 0 } = p') ∨
          (q.kind = CHANGE_CONTROLLER ∧ ∃ epoch : U64, p.controllerEpoch.val + 1 = epoch.val ∧
            { p with
              lastActionAt := now
              controller := q.successor
              controllerEpoch := epoch
              pendingChange := 0 } = p')) ∧
        { q with status := PROPOSAL_EXECUTED } = q' := by
  have hne : CHANGE_CONTROLLER ≠ CHANGE_ORACLE := by decide
  simp only [execute, bind_eq_ok, LaunchPolicyV7.tick_eq_ok, require_eq_ok, pure_eq_ok,
    exists_const, Prod.mk.injEq, ge_iff_le]
  constructor
  · rintro ⟨p, ⟨ht, rfl⟩, ⟨⟩, hp, hn, p₁, hk, h₁, h₂⟩
    refine ⟨ht, hp, hn, ?_, h₂⟩
    by_cases h₀ : ctx.proposal.data.kind = CHANGE_ORACLE
    · rw [if_pos h₀] at hk
      simp only [bind_eq_ok, okOr_eq_ok, pure_eq_ok, U64.checkedAdd_eq_some, U64.val_one] at hk
      obtain ⟨e, he, rfl⟩ := hk
      exact .inl ⟨h₀, e, he, h₁⟩
    · rw [if_neg h₀] at hk
      by_cases h₃ : ctx.proposal.data.kind = CHANGE_CONTROLLER
      · rw [if_pos h₃] at hk
        simp only [bind_eq_ok, okOr_eq_ok, pure_eq_ok, U64.checkedAdd_eq_some, U64.val_one] at hk
        obtain ⟨e, he, rfl⟩ := hk
        exact .inr ⟨h₃, e, he, h₁⟩
      · rw [if_neg h₃] at hk
        cases hk
  · rintro ⟨ht, hp, hn, ⟨hk, e, he, h₁⟩ | ⟨hk, e, he, h₁⟩, h₂⟩
    · refine ⟨_, ⟨ht, rfl⟩, (), hp, hn, { ctx.policy.data with
        lastActionAt := now
        oracle := ctx.proposal.data.successor
        oracleEpoch := e
        oracleActivatedAt := now
        reportValid := false }, ?_, h₁, h₂⟩
      rw [if_pos hk]
      simp only [bind_eq_ok, okOr_eq_ok, pure_eq_ok, U64.checkedAdd_eq_some, U64.val_one]
      exact ⟨e, he, rfl⟩
    · refine ⟨_, ⟨ht, rfl⟩, (), hp, hn, { ctx.policy.data with
        lastActionAt := now
        controller := ctx.proposal.data.successor
        controllerEpoch := e }, ?_, h₁, h₂⟩
      rw [if_neg (hk ▸ hne), if_pos hk]
      simp only [bind_eq_ok, okOr_eq_ok, pure_eq_ok, U64.checkedAdd_eq_some, U64.val_one]
      exact ⟨e, he, rfl⟩

end Governance

/-! ## Opening -/

theorem validateRule_ok {config : LaunchConfig} {rule : AnnualRule} {u : Unit}
    (h : validateRule config rule = .ok u) : ValidRule config rule := by
  simp only [validateRule, bind_eq_ok, require_eq_ok, annualCap_eq_ok, periodStart_eq_ok,
    exists_const] at h
  obtain ⟨⟨hne, hf, ht, hs⟩, f, ⟨hrate, hfv⟩, t, ⟨-, htv⟩, hshared, finish, hfin, -⟩ := h
  have := finish.lt
  exact {
    nonempty := hne
    basis := fun r ↦ by cases r <;> assumption
    source := hs
    rate := hrate
    shared := by rw [← hfv, ← htv]; exact hshared
    fits := by omega }

theorem Governance.validateRecoveryKeys_ok {keys : Vector Pubkey 3} {u : Unit}
    (h : validateRecoveryKeys keys = .ok u) : ValidKeys keys := by
  obtain ⟨⟨ks⟩, hlen⟩ := keys
  match ks, hlen with
  | [a, b, c], _ =>
    simp only [validateRecoveryKeys, require_eq_ok] at h
    obtain ⟨hz, hab, hac, hbc⟩ := h
    constructor
    · simpa [@eq_comm _ Bytes32.zero] using hz
    · simpa using ⟨⟨hab, hac⟩, hbc⟩

theorem openPreparedPolicy_ok {chain : Chain} {testProfile : Bool} {ctx : OpenPreparedPolicy}
    (h : openPreparedPolicy chain testProfile now ctx = .ok p') :
    ValidPolicy p' now ∧ identity chain p'.creator p'.mint p'.founder p'.treasury p'.oracle
      p'.specHash p'.config = p'.identity ∧ p'.founder = ctx.founder ∧
      p'.treasury = ctx.treasury ∧ p'.identity = ctx.preparation.data.identity ∧
      p'.bump = ctx.policy.bump := by
  simp only [openPreparedPolicy, Bootstrap.validate, bind_eq_ok, require_eq_ok, okOr_eq_ok,
    pure_eq_ok, exists_const, validateRules, I64.checkedAdd_eq_some, CLIFF_val,
    U64.checkedAdd_eq_some] at h
  obtain ⟨⟨htest, ht0, cliff, hcliff, _, ⟨hstart, hcont, _, hr0, hr1⟩, _, hrec, _, hfk, hfo, _, htk,
    hto, total, htotal, hsupply, ⟨hfa, hta, hfp, hfp', htp, htp', hhard, hage, hage', hspec, ho⟩,
    hmint, hid⟩, ⟨hcr, hmt, hfd, htr, hor⟩, hkeys, rfl⟩ := h
  have := cliff.lt
  have := total.isLt
  refine ⟨?_, ?_, rfl, rfl, rfl, rfl⟩
  · exact {
      t0 := ht0
      cliff := by dsimp only; omega
      start := hstart
      contiguous := hcont
      rule := Fin.forall_fin_two.mpr ⟨validateRule_ok hr0, validateRule_ok hr1⟩
      recovery := Governance.validateRecoveryKeys_ok hrec
      committee := fun r ↦ by
        cases r
        · exact Governance.validateRecoveryKeys_ok hfk
        · exact Governance.validateRecoveryKeys_ok htk
      owner := fun r ↦ by
        cases r
        · exact hfd ▸ hfo
        · exact htr ▸ hto
      total := by dsimp only; omega
      principal := fun r ↦ by cases r <;> assumption
      periodCap := fun r ↦ by
        cases r
        · exact ⟨hfp, hfp'⟩
        · exact ⟨htp, htp'⟩
      hardCap := hhard
      reportAge := ⟨hage, by dsimp only; omega⟩
      specHash := hspec
      oracle := hor ▸ ho }
  · dsimp only
    rw [← hcr, ← hmt, ← hfd, ← htr, ← hor]
    exact hid

end FundingVaults.LaunchV7
