import FundingVaults.LaunchV7.Changes
import FundingVaults.LaunchV7.Records
import FundingVaults.LaunchV7.Replay

/-!
# Pending proposals can be executed

Executing a proposal checks again what was checked when it was accepted.  No instruction can undo
any of it: a pending role keeps its key and its epoch, the successor's record keeps its bits, and
the owner of a pending successor cannot be approved as a recipient.
-/

namespace FundingVaults.LaunchV7

variable {P : Pubkey} {V V' : View} {xs : List Event} {r : Role} {chain : Chain}
  {q : WithdrawalProposalV7} {k : WithdrawalKeyV7} {now : I64} {signers : List Pubkey}

/-! ## Invariants -/

/-- The live proposal passes `pending` together with the record of its successor, which is still
an eligible one. -/
theorem live_pending (h : (machine chain P).Path xs V) (hp : (V.role r).pending ≠ 0) :
    ∃ q k, Pending V r q k ∧ EligibleSuccessor V.policy r k ∧ q.epoch.val + 1 < 2 ^ 64 := by
  have hn := path_numbered h r
  have hi := path_indexed h
  have hs := path_separated h
  obtain ⟨q, hl⟩ := hn.live hp
  obtain ⟨hrole, hnonce⟩ := (path_keyed h).proposal _ _ _ hl.stored
  have hnom : V.nominee r = some q.successor := by simp [View.nominee, hp, hl.stored]
  obtain ⟨k, hk⟩ := Option.ne_none_iff_exists'.mp (hi.serving r _ (.inr hnom))
  have hsub := (path_keyed h).record _ _ hk
  obtain ⟨hzero, howner, hcommittee⟩ := hs.eligible r _ (.inr hnom)
  refine ⟨q, k, {
    stored := hnonce ▸ hl.stored
    role := hrole
    status := hl.status
    sequence := hnonce.trans (hn.pending.resolve_left hp)
    nonce := hnonce
    epoch := hl.epoch
    predecessor := hl.predecessor
    unfinished := hl.unfinished
    record := hk
    subject := hsub
    mask := ?_ }, {
    nonzero := hsub ▸ hzero
    owner := hsub ▸ howner
    history := ?_
    recipient := ?_
    committee := hsub ▸ hcommittee }, hl.fits⟩
  · rw [hi.pending _ k hk, Ne, Role.mask_and_bit]
    simp [hnom]
  · rw [hi.history _ k hk, Role.mask_and_bit]
    exact decide_eq_false (hs.fresh r _ hnom)
  · -- A recipient's owner would not be pending.
    rw [Bool.eq_false_iff]
    intro hrec
    obtain ⟨n, hx⟩ := (hi.recipient _ k hk).mp hrec
    exact (hs.payee n _ hx r).2.2 (.inr hnom)

theorem live_pendingChange (h : (machine chain P).Path xs V) (hp : V.policy.pendingChange ≠ 0)
    (hs : V.policy.state ≠ CANCELLED) :
    ∃ q, PendingChange V q ∧ (q.kind = CHANGE_ORACLE ∨ q.kind = CHANGE_CONTROLLER) := by
  obtain ⟨q, hl⟩ := (path_changing h).live hp
  have hnonce := (path_keyed h).change _ _ hl.stored
  exact ⟨q, {
    stored := hnonce ▸ hl.stored
    state := hs
    status := hl.status
    nonce := hnonce.symm
    sequence := hl.sequence.trans hnonce.symm
    controllerEpoch := hl.controllerEpoch.symm
    oracleEpoch := hl.oracleEpoch.symm }, hl.kind⟩

/-! ## Loading -/

/-- The accounts of `execute_withdrawal` and `expire_withdrawal`, at their addresses. -/
def ExecuteWithdrawal.Keys.at (chain : Chain) (P : Pubkey) (r : Role) (nonce : U64)
    (successor : Pubkey) : ExecuteWithdrawal.Keys where
  policy := P
  proposal := Seeds.address chain (.withdrawal P r.toU8 nonce)
  successorRecord := Seeds.address chain (.key P successor)

/-- The accounts of `execute_change`, at their addresses. -/
def ExecuteChange.Keys.at (chain : Chain) (P : Pubkey) (nonce : U64) : ExecuteChange.Keys where
  policy := P
  proposal := Seeds.address chain (.change P nonce)

section Load

variable {L : Ledger} (hL : L.Sound chain) (hV : L.view chain P = some V)
include hL hV

theorem Pending.load (hp : Pending V r q k) :
    ∃ ctx, ExecuteWithdrawal.load chain L (.at chain P r q.nonce q.successor) = .ok ctx ∧
      ctx.policy.data = V.policy ∧ ctx.proposal.data = q ∧ ctx.successorRecord.data = k := by
  obtain ⟨hq, hqP, -, -⟩ := (View.proposal_eq_some hV).mp hp.stored
  obtain ⟨hk, hkP, hsub⟩ := (View.record_eq_some hV).mp hp.record
  simp only [ExecuteWithdrawal.load, bind_eq_ok, pure_eq_ok,
    loadPolicy_eq_ok (fun _ ↦ hL.canonical), loadWithdrawal_eq_ok (fun _ ↦ hL.canonical),
    loadRecord_eq_ok (fun _ ↦ hL.canonical)]
  exact ⟨_, ⟨⟨_, V.policy⟩, ⟨Ledger.view_policy hV, rfl⟩, ⟨_, q⟩, ⟨hq, rfl, hqP⟩, ⟨_, k⟩,
    ⟨hk, rfl, hkP, hsub⟩, rfl⟩, rfl, rfl, rfl⟩

theorem PendingChange.load {q : ChangeProposalV7} (hp : PendingChange V q) :
    ∃ ctx, ExecuteChange.load chain L (.at chain P q.nonce) = .ok ctx ∧
      ctx.policy.data = V.policy ∧ ctx.proposal.data = q := by
  obtain ⟨hq, hqP, -⟩ := (View.change_eq_some hV).mp hp.stored
  simp only [ExecuteChange.load, bind_eq_ok, pure_eq_ok, loadPolicy_eq_ok (fun _ ↦ hL.canonical),
    loadChange_eq_ok (fun _ ↦ hL.canonical)]
  exact ⟨_, ⟨⟨_, V.policy⟩, ⟨Ledger.view_policy hV, rfl⟩, ⟨_, q⟩, ⟨hq, rfl, hqP⟩, rfl⟩, rfl, rfl⟩

end Load

theorem Pending.pending_ok (hp : Pending V r q k) : Withdrawal.pending V.policy q k = .ok () :=
  Withdrawal.pending_eq_ok.mpr ⟨r, hp.role, hp.status, hp.sequence, hp.nonce, hp.epoch,
    hp.predecessor, hp.unfinished, hp.mask⟩

theorem PendingChange.pending_ok {q : ChangeProposalV7} (hp : PendingChange V q) :
    Governance.pending V.policy q = .ok () :=
  Governance.pending_eq_ok.mpr ⟨hp.state, hp.status, hp.nonce, hp.sequence, hp.controllerEpoch,
    hp.oracleEpoch⟩

/-! ## Acceptance -/

/-- The change is made, under the next epoch. -/
structure Changed (p p' : LaunchPolicyV7) (q : ChangeProposalV7) : Prop where
  pending : p'.pendingChange = 0
  key : (q.kind = CHANGE_ORACLE ∧ p'.oracle = q.successor ∧
      p.oracleEpoch.val + 1 = p'.oracleEpoch.val) ∨
    (q.kind = CHANGE_CONTROLLER ∧ p'.controller = q.successor ∧
      p.controllerEpoch.val + 1 = p'.controllerEpoch.val)

section Accepts

variable {d : Deployment} {L : Ledger} (hL : L.Sound d.toChain)
  (hV : L.view d.toChain P = some V)
include hL hV

theorem accepts_executeWithdrawal (tick : V.policy.lastActionAt ≤ now)
    (state : V.policy.state ≠ CANCELLED) (pending : Pending V r q k)
    (window : q.executeAfter ≤ now ∧ now < q.expiresAt)
    (eligible : EligibleSuccessor V.policy r k) (fits : q.epoch.val + 1 < 2 ^ 64) :
    ∃ L' p', process d L ⟨now, signers, .executeWithdrawal
      (.at d.toChain P r q.nonce q.successor)⟩ = .ok L' ∧ L'.policyAt P = some p' ∧
      (p'.withdrawal.get r).current = q.successor ∧
      (p'.withdrawal.get r).epoch.val = (V.role r).epoch.val + 1 ∧
      (p'.withdrawal.get r).pending = 0 := by
  rw [pending.epoch] at fits
  obtain ⟨ctx, hload, hp, rfl, rfl⟩ := pending.load hL hV
  have hexec := (Withdrawal.execute_eq_ok pending.role).mpr
    ⟨hp ▸ tick, hp ▸ state, hp ▸ pending.pending_ok, window, hp ▸ eligible,
      ⟨_, fits⟩, by rw [hp]; rfl, rfl, rfl, rfl⟩
  obtain ⟨L', hx⟩ : ∃ L', process d L ⟨now, signers, .executeWithdrawal (.at d.toChain P r
      ctx.proposal.data.nonce ctx.proposal.data.successor)⟩ = .ok L' := by
    simp only [process, hload, bind_eq_ok, pure_eq_ok, Prod.exists]
    exact ⟨_, _, rfl, _, _, _, hexec, rfl⟩
  -- The proposal that was executed is the one that was loaded.
  obtain ⟨s, u, hu, hs, href⟩ := refines_execute hL hx
  have hq : L.program _ = _ := ((View.proposal_eq_some hV).mp pending.stored).1
  obtain rfl : ctx.proposal.data = u := by simpa using hq.symm.trans hu
  obtain rfl := Role.toU8_inj.mp (pending.role.symm.trans hs)
  obtain ⟨U, V', hU, hV', hstep⟩ := href.step
  obtain rfl := Option.some.inj (hU.symm.trans hV)
  refine ⟨L', V'.policy, hx, Ledger.policyAt_eq_some.mpr (Ledger.view_policy hV'), ?_⟩
  change (V'.role r).current = _ ∧ (V'.role r).epoch.val = _ ∧ (V'.role r).pending = 0
  cases hstep with
  | execute _ _ _ _ _ next => simp [View.settle_role, next]

theorem accepts_expireWithdrawal (tick : V.policy.lastActionAt ≤ now) (pending : Pending V r q k)
    (expired : q.expiresAt ≤ now) :
    ∃ L' p', process d L ⟨now, signers, .expireWithdrawal
      (.at d.toChain P r q.nonce q.successor)⟩ = .ok L' ∧ L'.policyAt P = some p' ∧
      (p'.withdrawal.get r).pending = 0 := by
  obtain ⟨ctx, hload, hp, rfl, rfl⟩ := pending.load hL hV
  have hexec := (Withdrawal.expire_eq_ok pending.role).mpr
    ⟨hp ▸ tick, hp ▸ pending.pending_ok, expired, rfl, rfl, rfl⟩
  obtain ⟨L', hx⟩ : ∃ L', process d L ⟨now, signers, .expireWithdrawal (.at d.toChain P r
      ctx.proposal.data.nonce ctx.proposal.data.successor)⟩ = .ok L' := by
    simp only [process, hload, bind_eq_ok, pure_eq_ok, Prod.exists]
    exact ⟨_, _, rfl, _, _, _, hexec, rfl⟩
  -- The proposal that was expired is the one that was loaded.
  obtain ⟨s, u, hu, hs, href⟩ := refines_expire hL hx
  have hq : L.program _ = _ := ((View.proposal_eq_some hV).mp pending.stored).1
  obtain rfl : ctx.proposal.data = u := by simpa using hq.symm.trans hu
  obtain rfl := Role.toU8_inj.mp (pending.role.symm.trans hs)
  obtain ⟨U, V', -, hV', hstep⟩ := href.step
  refine ⟨L', V'.policy, hx, Ledger.policyAt_eq_some.mpr (Ledger.view_policy hV'), ?_⟩
  change (V'.role r).pending = 0
  cases hstep with
  | expire => simp [View.settle_role]

theorem accepts_executeChange {q : ChangeProposalV7} (tick : V.policy.lastActionAt ≤ now)
    (pending : PendingChange V q) (notice : q.executeAfter ≤ now)
    (kind : q.kind = CHANGE_ORACLE ∨ q.kind = CHANGE_CONTROLLER)
    (ho : V.policy.oracleEpoch.val + 1 < 2 ^ 64)
    (hc : V.policy.controllerEpoch.val + 1 < 2 ^ 64) :
    ∃ L' p', process d L ⟨now, signers, .executeChange (.at d.toChain P q.nonce)⟩ = .ok L' ∧
      L'.policyAt P = some p' ∧ Changed V.policy p' q := by
  obtain ⟨ctx, hload, hp, rfl⟩ := pending.load hL hV
  have hexec : ∃ p' q', Governance.execute now ctx = .ok (p', q') := by
    simp only [Governance.execute_eq_ok, hp]
    rcases kind with kind | kind
    · exact ⟨_, _, tick, pending.pending_ok, notice, .inl ⟨kind, ⟨_, ho⟩, rfl, rfl⟩, rfl⟩
    · exact ⟨_, _, tick, pending.pending_ok, notice, .inr ⟨kind, ⟨_, hc⟩, rfl, rfl⟩, rfl⟩
  obtain ⟨p', q', hexec⟩ := hexec
  obtain ⟨L', hx⟩ : ∃ L', process d L ⟨now, signers, .executeChange (.at d.toChain P
      ctx.proposal.data.nonce)⟩ = .ok L' := by
    simp only [process, hload, bind_eq_ok, pure_eq_ok, Prod.exists]
    exact ⟨_, _, rfl, _, _, hexec, rfl⟩
  obtain ⟨u, hu, href⟩ := refines_executeChange hL hx
  have hq : L.program _ = _ := ((View.change_eq_some hV).mp pending.stored).1
  obtain rfl : ctx.proposal.data = u := by simpa using hq.symm.trans hu
  obtain ⟨U, V', hU, hV', hstep⟩ := href.step
  obtain rfl := Option.some.inj (hU.symm.trans hV)
  refine ⟨L', V'.policy, hx, Ledger.policyAt_eq_some.mpr (Ledger.view_policy hV'), ?_⟩
  cases hstep with
  | changeOracle _ _ _ kind next => exact ⟨rfl, .inl ⟨kind, rfl, next⟩⟩
  | changeController _ _ _ kind next => exact ⟨rfl, .inr ⟨kind, rfl, next⟩⟩

end Accepts

/-! ## Progress -/

/-- Every pending proposal of `L` can be executed by anyone once its notice is over, which makes its
change under the next epoch, and a rotation that has expired can be closed by anyone. -/
structure Executable (d : Deployment) (P : Pubkey) (L : Ledger) (p : LaunchPolicyV7) : Prop where
  rotation : ∀ r, (p.withdrawal.get r).pending ≠ 0 → ∃ q k,
    L.program (Seeds.address d.toChain (.withdrawal P r.toU8 (p.withdrawal.get r).pending)) =
        some (.withdrawal q) ∧
      L.program (Seeds.address d.toChain (.key P q.successor)) = some (.withdrawalKey k) ∧
      q.status = PROPOSAL_PENDING ∧ Withdrawal.pending p q k = .ok () ∧
      (p.state ≠ CANCELLED → ∀ now signers, p.lastActionAt ≤ now → q.executeAfter ≤ now →
        now < q.expiresAt → ∃ L' p', process d L ⟨now, signers, .executeWithdrawal
          (.at d.toChain P r q.nonce q.successor)⟩ = .ok L' ∧ L'.policyAt P = some p' ∧
          (p'.withdrawal.get r).current = q.successor ∧
          (p'.withdrawal.get r).epoch.val = (p.withdrawal.get r).epoch.val + 1 ∧
          (p'.withdrawal.get r).pending = 0) ∧
      ∀ now signers, p.lastActionAt ≤ now → q.expiresAt ≤ now →
        ∃ L' p', process d L ⟨now, signers, .expireWithdrawal
          (.at d.toChain P r q.nonce q.successor)⟩ = .ok L' ∧ L'.policyAt P = some p' ∧
          (p'.withdrawal.get r).pending = 0
  change : p.pendingChange ≠ 0 → p.state ≠ CANCELLED → p.oracleEpoch.val < 2 ^ 64 - 1 →
    p.controllerEpoch.val < 2 ^ 64 - 1 → ∃ q,
    L.program (Seeds.address d.toChain (.change P p.pendingChange)) = some (.change q) ∧
      q.status = PROPOSAL_PENDING ∧
      ∀ now signers, p.lastActionAt ≤ now → q.executeAfter ≤ now →
        ∃ L' p', process d L ⟨now, signers, .executeChange (.at d.toChain P q.nonce)⟩ = .ok L' ∧
          L'.policyAt P = some p' ∧ Changed p p' q

/-- Nothing that happens can take a pending proposal's execution away. -/
theorem Reachable.executable {d : Deployment} {tr : List Entry} {L : Ledger}
    {p : LaunchPolicyV7} (h : Reachable d tr L) (hp : L.policyAt P = some p) :
    Executable d P L p := by
  obtain ⟨V, hV, rfl⟩ := Ledger.exists_view d.toChain (Ledger.policyAt_eq_some.mp hp)
  have hpath := h.path hV
  constructor
  · intro r hpend
    obtain ⟨q, k, hq, hel, hfits⟩ := live_pending hpath hpend
    refine ⟨q, k, ?_, ((View.record_eq_some hV).mp hq.record).1, hq.status, hq.pending_ok,
      fun state now signers tick hafter hbefore ↦
        accepts_executeWithdrawal h.sound hV tick state hq ⟨hafter, hbefore⟩ hel hfits,
      fun now signers tick hexp ↦ accepts_expireWithdrawal h.sound hV tick hq hexp⟩
    change L.program (Seeds.address d.toChain (.withdrawal P r.toU8 (V.role r).pending)) = _
    rw [← hq.nonce]
    exact ((View.proposal_eq_some hV).mp hq.stored).1
  · intro hpend hstate ho hc
    obtain ⟨q, hq, hkind⟩ := live_pendingChange hpath hpend hstate
    refine ⟨q, ?_, hq.status, fun now signers tick hnotice ↦
      accepts_executeChange h.sound hV tick hq hnotice hkind (by omega) (by omega)⟩
    rw [hq.nonce]
    exact ((View.change_eq_some hV).mp hq.stored).1

/-- A rotation and a change are pending in the sample launch. -/
theorem executable_sample : ∃ p, Sample.pendingRun.2.policyAt Sample.policy = some p ∧
    Executable Sample.deployment Sample.policy Sample.pendingRun.2 p := by
  obtain ⟨p, hp⟩ := Sample.pendingRun_policy
  exact ⟨p, hp, Sample.pendingRun_reachable.executable hp⟩

end FundingVaults.LaunchV7
