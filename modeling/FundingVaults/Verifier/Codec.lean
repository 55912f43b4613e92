import FundingVaults.Verifier.Accounts

/-!
# The readers of the verifier read what the program writes

For each kind of account, the record that the verifier makes of a value, and the law of its reader:
it recovers the record from the value's bytes, and what it accepts is the bytes of one value.
-/

namespace FundingVaults.Verifier

open LaunchV7

variable {chain : Chain} {bs rest data : Bytes}

/-! ## Fields -/

theorem reads_key : Reads key Bytes32.bytes shown := by
  refine ⟨@fun bs s rest ↦ ?_⟩
  rw [key, take, reads_take32.bind_eq_ok]
  constructor
  · rintro ⟨k, mid, rfl, h⟩
    obtain ⟨rfl, rfl⟩ := Reader.pure_run.mp h
    exact ⟨k, rfl, rfl⟩
  · rintro ⟨k, rfl, rfl⟩
    exact ⟨k, rest, rfl, rfl⟩

theorem reads_account (typename : String) :
    Reads (account chain typename) (fun _ : Unit ↦ discriminator chain typename) fun _ ↦ () := by
  refine ⟨@fun bs u rest ↦ ?_⟩
  simp only [account, take, Reader.bind_run, Reader.take_run, Reader.check_run]
  constructor
  · rintro ⟨x, mid, ⟨-, rfl⟩, rfl, rfl⟩
    exact ⟨(), trivial, rfl⟩
  · rintro ⟨-, -, rfl⟩
    exact ⟨_, rest, ⟨discriminator_length typename, rfl⟩, rfl, rfl⟩

/-! ## Configurations -/

def Rule.of (r : AnnualRule) : Rule where
  startPeriod := r.startPeriod.val
  endPeriod := r.endPeriod.val
  founderBasis := r.founderBasis.val
  treasuryBasis := r.treasuryBasis.val
  sharedCap := r.sharedCap.val
  releaseBps := r.releaseBps.val
  sourceHash := hexEncode r.sourceHash.bytes

theorem reads_rule : Reads readRule AnnualRule.serialize Rule.of := by
  refine ⟨@fun bs r rest ↦ ?_⟩
  simp only [readRule, number, take, reads_Q.bind_eq_ok, reads_H.bind_eq_ok,
    reads_take32.bind_eq_ok, Reader.pure_run]
  constructor
  · rintro ⟨startPeriod, _, rfl, endPeriod, _, rfl, founderBasis, _, rfl, treasuryBasis, _, rfl,
      sharedCap, _, rfl, releaseBps, _, rfl, sourceHash, _, rfl, rfl, rfl⟩
    refine ⟨{ startPeriod, endPeriod, founderBasis, treasuryBasis, sharedCap, releaseBps
              sourceHash }, rfl, ?_⟩
    simp only [AnnualRule.serialize, List.append_assoc]
  · rintro ⟨r, rfl, rfl⟩
    simp only [AnnualRule.serialize, List.append_assoc]
    exact ⟨_, _, rfl, _, _, rfl, _, _, rfl, _, _, rfl, _, _, rfl, _, _, rfl, _, _, rfl, rfl, rfl⟩

def Config.of (c : LaunchConfig) : Config where
  t0 := c.t0.val
  founderAmount := c.founderAmount.val
  treasuryAmount := c.treasuryAmount.val
  founderPeriodCap := c.founderPeriodCap.val
  treasuryPeriodCap := c.treasuryPeriodCap.val
  sharedHardCap := c.sharedHardCap.val
  maxReportAge := c.maxReportAge.val
  annualRules := c.annualRules.toList.map Rule.of
  recoveryKeys := c.recoveryKeys.toList.map shown
  founderRecoveryKeys := c.founderRecoveryKeys.toList.map shown
  treasuryRecoveryKeys := c.treasuryRecoveryKeys.toList.map shown

theorem reads_config : Reads readConfig LaunchConfig.serialize Config.of := by
  refine ⟨@fun bs c rest ↦ ?_⟩
  simp only [readConfig, number, reads_Q.bind_eq_ok, reads_q.bind_eq_ok,
    (reads_rule.times 2).bind_eq_ok, (reads_key.times 3).bind_eq_ok, Reader.pure_run]
  constructor
  · rintro ⟨t0, _, rfl, founderAmount, _, rfl, treasuryAmount, _, rfl, founderPeriodCap, _, rfl,
      treasuryPeriodCap, _, rfl, sharedHardCap, _, rfl, maxReportAge, _, rfl, annualRules, _, rfl,
      recoveryKeys, _, rfl, founderRecoveryKeys, _, rfl, treasuryRecoveryKeys, _, rfl, rfl, rfl⟩
    refine ⟨{ t0, founderAmount, treasuryAmount, founderPeriodCap, treasuryPeriodCap, sharedHardCap
              maxReportAge, annualRules, recoveryKeys, founderRecoveryKeys
              treasuryRecoveryKeys }, rfl, ?_⟩
    simp only [LaunchConfig.serialize, serializeKeys, List.append_assoc]
  · rintro ⟨c, rfl, rfl⟩
    simp only [LaunchConfig.serialize, serializeKeys, List.append_assoc]
    exact ⟨_, _, rfl, _, _, rfl, _, _, rfl, _, _, rfl, _, _, rfl, _, _, rfl, _, _, rfl, _, _, rfl,
      _, _, rfl, _, _, rfl, _, _, rfl, rfl, rfl⟩

theorem accepts_key : Accepts key 32 := (Accepts.take 32).bind fun _ ↦ .pure _

theorem accepts_rule : Accepts readRule 74 := by
  refine (Accepts.number .Q).bind fun _ ↦ (Accepts.number .Q).bind fun _ ↦
    (Accepts.number .Q).bind fun _ ↦ (Accepts.number .Q).bind fun _ ↦ (Accepts.number .Q).bind fun _ ↦
    (Accepts.number .H).bind fun _ ↦ (Accepts.take 32).bind fun _ ↦ .pure _

theorem accepts_config : Accepts readConfig 492 := by
  refine (Accepts.number .q).bind fun _ ↦ (Accepts.number .Q).bind fun _ ↦
    (Accepts.number .Q).bind fun _ ↦ (Accepts.number .Q).bind fun _ ↦ (Accepts.number .Q).bind fun _ ↦
    (Accepts.number .Q).bind fun _ ↦ (Accepts.number .q).bind fun _ ↦
    (accepts_rule.times 2).bind fun _ ↦ (accepts_key.times 3).bind fun _ ↦
    (accepts_key.times 3).bind fun _ ↦ (accepts_key.times 3).bind fun _ ↦ .pure _

/-- Any bytes of the right number are those of a configuration. -/
theorem exists_config {x : Bytes} (h : x.length = 492) : ∃ c : LaunchConfig, c.serialize = x := by
  obtain ⟨c, hc⟩ := accepts_config x h.ge
  obtain ⟨c, -, hx⟩ := (reads_config).run_eq_ok.mp hc
  rw [List.drop_eq_nil_of_le h.le, List.append_nil] at hx
  exact ⟨c, hx.symm⟩

/-- The verifier keeps the bytes of the configuration too. -/
theorem reads_configBytes :
    Reads readConfigBytes LaunchConfig.serialize fun c ↦ (Config.of c, c.serialize) := by
  refine ⟨@fun bs r rest ↦ ?_⟩
  have slice : ∀ c : LaunchConfig, (c.serialize ++ rest).take
      ((c.serialize ++ rest).length - rest.length) = c.serialize := by
    intro c
    rw [List.length_append, Nat.add_sub_cancel, List.take_left]
  have unfolded : readConfigBytes.run bs = .ok (r, rest) ↔ ∃ c, readConfig.run bs = .ok (c, rest) ∧
      (c, bs.take (bs.length - rest.length)) = r := by
    rw [readConfigBytes, Reader.bind_run]
    constructor
    · rintro ⟨_, _, hget, h⟩
      obtain ⟨rfl, rfl⟩ := Prod.mk.inj (Except.ok.inj hget)
      obtain ⟨c, mid, hc, h⟩ := Reader.bind_run.mp h
      obtain ⟨_, _, hget, h⟩ := Reader.bind_run.mp h
      obtain ⟨rfl, rfl⟩ := Prod.mk.inj (Except.ok.inj hget)
      obtain ⟨rfl, rfl⟩ := Reader.pure_run.mp h
      exact ⟨c, hc, rfl⟩
    · rintro ⟨c, hc, rfl⟩
      exact ⟨bs, bs, rfl, Reader.bind_run.mpr ⟨c, rest, hc, rfl⟩⟩
  rw [unfolded]
  constructor
  · rintro ⟨_, hc, rfl⟩
    obtain ⟨c, rfl, rfl⟩ := (reads_config).run_eq_ok.mp hc
    exact ⟨c, by rw [slice], rfl⟩
  · rintro ⟨c, rfl, rfl⟩
    exact ⟨Config.of c, (reads_config).run c rest, by rw [slice]⟩

/-! ## Policies -/

def Role.of (r : WithdrawalRole) : Role where
  current := shown r.current
  epoch := r.epoch.val
  sequence := r.sequence.val
  pending := r.pending.val

theorem reads_role : Reads readRole WithdrawalRole.serialize Role.of := by
  refine ⟨@fun bs r rest ↦ ?_⟩
  simp only [readRole, number, reads_key.bind_eq_ok, reads_Q.bind_eq_ok, Reader.pure_run]
  constructor
  · rintro ⟨current, _, rfl, epoch, _, rfl, sequence, _, rfl, pending, _, rfl, rfl, rfl⟩
    refine ⟨{ current, epoch, sequence, pending }, rfl, ?_⟩
    simp only [WithdrawalRole.serialize, List.flatten_cons, List.flatten_nil, List.append_assoc,
      List.nil_append]
  · rintro ⟨r, rfl, rfl⟩
    simp only [WithdrawalRole.serialize, List.flatten_cons, List.flatten_nil, List.append_assoc,
      List.nil_append]
    exact ⟨_, _, rfl, _, _, rfl, _, _, rfl, _, _, rfl, rfl, rfl⟩

def Policy.of (p : LaunchPolicyV7) : Policy where
  creator := shown p.creator
  mint := shown p.mint
  founder := shown p.founder
  treasury := shown p.treasury
  oracle := shown p.oracle
  identity := p.identity.bytes
  specHash := p.specHash.bytes
  config := .of p.config
  state := p.state.toNat
  fundedMask := p.fundedMask.toNat
  bump := p.bump.toNat
  lastActionAt := p.lastActionAt.val
  period := p.period.val
  sharedUsed := p.sharedUsed.val
  reportPeriod := p.reportPeriod.val
  reportCapacity := p.reportCapacity.val
  reportAt := p.reportAt.val
  reportSequence := p.reportSequence.val
  founderPeriodUsed := p.founderPeriodUsed.val
  treasuryPeriodUsed := p.treasuryPeriodUsed.val
  founderReleasedTotal := p.founderReleasedTotal.val
  treasuryReleasedTotal := p.treasuryReleasedTotal.val
  annualIndex := p.annualIndex.toNat
  founderAnnualUsed := p.founderAnnualUsed.val
  treasuryAnnualUsed := p.treasuryAnnualUsed.val
  initialOracle := shown p.initialOracle
  controller := shown p.controller
  controllerEpoch := p.controllerEpoch.val
  oracleEpoch := p.oracleEpoch.val
  oracleActivatedAt := p.oracleActivatedAt.val
  reportEpoch := p.reportEpoch.val
  reportValid := p.reportValid
  changeSequence := p.changeSequence.val
  pendingChange := p.pendingChange.val
  withdrawal := [.of p.withdrawal.founder, .of p.withdrawal.treasury]
  approvalCount := p.approvalCount.val

/-- The byte of a boolean. -/
def boolByte (b : Bool) : U8 := if b then 1 else 0

theorem boolToLe_eq (b : Bool) : boolToLe b = U8.toLe (boolByte b) := rfl

theorem boolByte_isFlag (b : Bool) :
    ((boolByte b).toNat : ℤ) = 0 ∨ ((boolByte b).toNat : ℤ) = 1 := by
  cases b <;> decide

theorem boolByte_decide (b : Bool) : decide (((boolByte b).toNat : ℤ) ≠ 0) = b := by
  cases b <;> decide

theorem eq_boolByte {flag : U8} (h : (flag.toNat : ℤ) = 0 ∨ (flag.toNat : ℤ) = 1) :
    flag = boolByte (decide ((flag.toNat : ℤ) ≠ 0)) := by
  rcases h with h | h
  · obtain rfl : flag = 0 := UInt8.toNat_inj.mp (by exact_mod_cast h)
    rfl
  · obtain rfl : flag = 1 := UInt8.toNat_inj.mp (by exact_mod_cast h)
    rfl

theorem readPolicy_of {r : Policy × Bytes} (h : (readPolicy chain).all data = .ok r) :
    ∃ p : LaunchPolicyV7, (Policy.of p, p.config.serialize) = r ∧ data = p.serialize chain := by
  rw [Reader.all_eq_ok] at h
  obtain ⟨_, h⟩ := h
  simp only [readPolicy, number, take, finish, (reads_account _).bind_eq_ok,
    reads_key.bind_eq_ok, reads_take32.bind_eq_ok, (reads_configBytes).bind_eq_ok,
    reads_B.bind_eq_ok, reads_q.bind_eq_ok, reads_Q.bind_eq_ok, (reads_role).twice.bind_eq_ok,
    Reader.check_bind, Reader.finish_bind, Reader.pure_run] at h
  obtain ⟨-, _, rfl, h⟩ := h
  obtain ⟨creator, _, rfl, mint, _, rfl, founder, _, rfl, treasury, _, rfl, h⟩ := h
  obtain ⟨oracle, _, rfl, identity, _, rfl, specHash, _, rfl, config, _, rfl, h⟩ := h
  obtain ⟨state, _, rfl, fundedMask, _, rfl, bump, _, rfl, lastActionAt, _, rfl, h⟩ := h
  obtain ⟨period, _, rfl, sharedUsed, _, rfl, reportPeriod, _, rfl, h⟩ := h
  obtain ⟨reportCapacity, _, rfl, reportAt, _, rfl, reportSequence, _, rfl, h⟩ := h
  obtain ⟨founderPeriodUsed, _, rfl, treasuryPeriodUsed, _, rfl, h⟩ := h
  obtain ⟨founderReleasedTotal, _, rfl, treasuryReleasedTotal, _, rfl, h⟩ := h
  obtain ⟨annualIndex, _, rfl, founderAnnualUsed, _, rfl, treasuryAnnualUsed, _, rfl, h⟩ := h
  obtain ⟨initialOracle, _, rfl, controller, _, rfl, controllerEpoch, _, rfl, h⟩ := h
  obtain ⟨oracleEpoch, _, rfl, oracleActivatedAt, _, rfl, reportEpoch, _, rfl, h⟩ := h
  obtain ⟨flag, _, rfl, hflag, changeSequence, _, rfl, pendingChange, _, rfl, h⟩ := h
  obtain ⟨⟨own, other⟩, _, rfl, approvalCount, _, rfl, rfl, rfl, -⟩ := h
  refine ⟨{ creator, mint, founder, treasury, oracle, identity, specHash, config, state
            fundedMask, bump, lastActionAt, period, sharedUsed, reportPeriod, reportCapacity
            reportAt, reportSequence, founderPeriodUsed, treasuryPeriodUsed
            founderReleasedTotal, treasuryReleasedTotal, annualIndex, founderAnnualUsed
            treasuryAnnualUsed, initialOracle, controller, controllerEpoch, oracleEpoch
            oracleActivatedAt, reportEpoch, reportValid := decide ((flag.toNat : ℤ) ≠ 0)
            changeSequence, pendingChange, withdrawal := ⟨own, other⟩, approvalCount }, rfl, ?_⟩
  rw [eq_boolByte hflag]
  simp only [boolByte_decide]
  rfl

theorem readPolicy_serialize (p : LaunchPolicyV7) :
    (readPolicy chain).all (p.serialize chain) = .ok (Policy.of p, p.config.serialize) := by
  refine Reader.all_eq_ok.mpr ⟨[], ?_⟩
  simp only [readPolicy, number, take, finish, LaunchPolicyV7.serialize, List.flatten_cons,
    List.flatten_nil, boolToLe_eq, (reads_account _).bind_run (), reads_key.bind_run,
    reads_take32.bind_run, (reads_configBytes).bind_run, reads_B.bind_run, reads_q.bind_run,
    reads_Q.bind_run, (reads_role).twice.bind_run (p.withdrawal.founder, p.withdrawal.treasury),
    Reader.check_bind_run (boolByte_isFlag _), Reader.finish_bind_run, boolByte_decide]
  rfl

theorem readPolicy_eq_ok {r : Policy × Bytes} :
    (readPolicy chain).all data = .ok r ↔
      ∃ p : LaunchPolicyV7, (Policy.of p, p.config.serialize) = r ∧ data = p.serialize chain := by
  refine ⟨readPolicy_of, ?_⟩
  rintro ⟨p, rfl, rfl⟩
  exact readPolicy_serialize p

/-! ## Nothing is lost -/

theorem bytes_inj {a b : Bytes32} : a.bytes = b.bytes ↔ a = b := ⟨Bytes32.ext, congrArg _⟩

theorem Rule.of_injective : Function.Injective Rule.of := by
  intro a b h
  cases a
  cases b
  simpa only [Rule.of, Rule.mk.injEq, AnnualRule.mk.injEq, Nat.cast_inj, Fin.val_inj,
    hexEncode_injective.eq_iff, bytes_inj] using h

theorem map_toList_inj {α β : Type} {n : ℕ} {f : α → β} (hf : Function.Injective f)
    {v w : Vector α n} : v.toList.map f = w.toList.map f ↔ v = w := by
  rw [(List.map_injective_iff.mpr hf).eq_iff, Vector.toList_inj]

theorem shown_injective : Function.Injective shown := fun _ _ ↦ shown_inj.mp

theorem I64.val_inj {a b : I64} : a.val = b.val ↔ a = b := I64.ext_iff.symm

theorem Config.of_injective : Function.Injective Config.of := by
  intro a b h
  cases a
  cases b
  simpa only [Config.of, Config.mk.injEq, LaunchConfig.mk.injEq, Nat.cast_inj, Fin.val_inj,
    I64.val_inj, map_toList_inj Rule.of_injective, map_toList_inj shown_injective] using h

theorem Role.of_injective : Function.Injective Role.of := by
  intro a b h
  cases a
  cases b
  simpa only [Role.of, Role.mk.injEq, WithdrawalRole.mk.injEq, Nat.cast_inj, Fin.val_inj,
    shown_inj] using h

theorem Policy.of_injective : Function.Injective Policy.of := by
  intro a b h
  cases a with | mk _ _ _ _ _ _ _ _ _ _ _ _ _ _ _ _ _ _ _ _ _ _ _ _ _ _ _ _ _ _ _ _ _ _ w _ =>
  cases b with | mk _ _ _ _ _ _ _ _ _ _ _ _ _ _ _ _ _ _ _ _ _ _ _ _ _ _ _ _ _ _ _ _ _ _ w' _ =>
  cases w
  cases w'
  simpa only [Policy.of, Policy.mk.injEq, LaunchPolicyV7.mk.injEq, Nat.cast_inj, Fin.val_inj,
    I64.val_inj, UInt8.toNat_inj, shown_inj, bytes_inj, Config.of_injective.eq_iff,
    Role.of_injective.eq_iff, List.cons.injEq, and_true, PerRole.mk.injEq] using h

theorem policy_agrees : Agrees (readPolicy chain).all (LaunchPolicyV7.serialize chain)
    (fun p ↦ (Policy.of p, p.config.serialize)) (fun _ ↦ True) 1065 := by
  refine .of_eq_ok readPolicy_eq_ok ?_ fun p ↦ ?_
  · intro a b h
    exact Policy.of_injective (Prod.mk.inj h).1
  · simp [LaunchPolicyV7.serialize, Bytes32.length_eq]

/-! ## The other accounts -/

theorem boolByte_inj {a b : Bool} : boolByte a = boolByte b ↔ a = b := by
  cases a <;> cases b <;> decide

def Vault.of (v : LaunchVaultV7) : Vault where
  policy := shown v.policy
  depositor := shown v.depositor
  authority := shown v.authority
  role := v.role.toNat
  bump := v.bump.toNat
  principal := v.principal.val
  releasedTotal := v.releasedTotal.val
  period := v.period.val
  periodUsed := v.periodUsed.val

theorem readVault_eq_ok {r : Vault} :
    (readVault chain).all data = .ok r ↔
      ∃ v : LaunchVaultV7, Vault.of v = r ∧ data = v.serialize chain := by
  rw [Reader.all_eq_ok]
  constructor
  · rintro ⟨_, h⟩
    simp only [readVault, number, finish, (reads_account _).bind_eq_ok, reads_key.bind_eq_ok,
      reads_B.bind_eq_ok, reads_Q.bind_eq_ok, Reader.finish_bind, Reader.pure_run] at h
    obtain ⟨-, _, rfl, h⟩ := h
    obtain ⟨policy, _, rfl, depositor, _, rfl, authority, _, rfl, role, _, rfl, h⟩ := h
    obtain ⟨bump, _, rfl, principal, _, rfl, releasedTotal, _, rfl, period, _, rfl, h⟩ := h
    obtain ⟨periodUsed, _, rfl, rfl, rfl, -⟩ := h
    exact ⟨{ policy, depositor, authority, role, bump, principal, releasedTotal, period
             periodUsed }, rfl, rfl⟩
  · rintro ⟨v, rfl, rfl⟩
    refine ⟨[], ?_⟩
    simp only [readVault, number, finish, LaunchVaultV7.serialize, List.flatten_cons,
      List.flatten_nil, (reads_account _).bind_run (), reads_key.bind_run, reads_B.bind_run,
      reads_Q.bind_run, Reader.finish_bind_run]
    rfl

theorem Vault.of_injective : Function.Injective Vault.of := by
  intro a b h
  cases a
  cases b
  simpa only [Vault.of, Vault.mk.injEq, LaunchVaultV7.mk.injEq, Nat.cast_inj, Fin.val_inj,
    UInt8.toNat_inj, shown_inj] using h

theorem vault_agrees : Agrees (readVault chain).all (LaunchVaultV7.serialize chain) Vault.of
    (fun _ ↦ True) 138 := by
  refine .of_eq_ok readVault_eq_ok Vault.of_injective fun v ↦ ?_
  simp [LaunchVaultV7.serialize, Bytes32.length_eq]

def Approval.of (a : TreasuryApprovalV7) : Approval where
  policy := shown a.policy
  period := a.period.val
  recipient := shown a.recipient
  recipientOwner := shown a.recipientOwner
  need := a.need.val
  consumed := a.consumed.val
  createdAt := a.createdAt.val
  bump := a.bump.toNat
  author := shown a.author
  authorEpoch := a.authorEpoch.val

theorem readApproval_eq_ok {r : Approval} :
    (readApproval chain).all data = .ok r ↔
      ∃ a : TreasuryApprovalV7, Approval.of a = r ∧ data = a.serialize chain := by
  rw [Reader.all_eq_ok]
  constructor
  · rintro ⟨_, h⟩
    simp only [readApproval, number, finish, (reads_account _).bind_eq_ok,
      reads_key.bind_eq_ok, reads_B.bind_eq_ok, reads_q.bind_eq_ok, reads_Q.bind_eq_ok,
      Reader.finish_bind, Reader.pure_run] at h
    obtain ⟨-, _, rfl, h⟩ := h
    obtain ⟨policy, _, rfl, period, _, rfl, recipient, _, rfl, recipientOwner, _, rfl, h⟩ := h
    obtain ⟨need, _, rfl, consumed, _, rfl, createdAt, _, rfl, bump, _, rfl, h⟩ := h
    obtain ⟨author, _, rfl, authorEpoch, _, rfl, rfl, rfl, -⟩ := h
    exact ⟨{ policy, period, recipient, recipientOwner, need, consumed, createdAt, bump, author
             authorEpoch }, rfl, rfl⟩
  · rintro ⟨a, rfl, rfl⟩
    refine ⟨[], ?_⟩
    simp only [readApproval, number, finish, TreasuryApprovalV7.serialize, List.flatten_cons,
      List.flatten_nil, (reads_account _).bind_run (), reads_key.bind_run, reads_B.bind_run,
      reads_q.bind_run, reads_Q.bind_run, Reader.finish_bind_run]
    rfl

theorem Approval.of_injective : Function.Injective Approval.of := by
  intro a b h
  cases a
  cases b
  simpa only [Approval.of, Approval.mk.injEq, TreasuryApprovalV7.mk.injEq, Nat.cast_inj,
    Fin.val_inj, I64.val_inj, UInt8.toNat_inj, shown_inj] using h

theorem approval_agrees :
    Agrees (readApproval chain).all (TreasuryApprovalV7.serialize chain) Approval.of
    (fun _ ↦ True) 177 := by
  refine .of_eq_ok readApproval_eq_ok Approval.of_injective fun a ↦ ?_
  simp [TreasuryApprovalV7.serialize, Bytes32.length_eq]

def Change.of (q : ChangeProposalV7) : Change where
  policy := shown q.policy
  nonce := q.nonce.val
  kind := q.kind.toNat
  recovery := (boolByte q.recovery).toNat
  successor := shown q.successor
  controllerEpoch := q.controllerEpoch.val
  oracleEpoch := q.oracleEpoch.val
  createdAt := q.createdAt.val
  executeAfter := q.executeAfter.val
  status := q.status.toNat
  bump := q.bump.toNat

/-- The bytes, with any byte in place of the boolean. -/
def Change.raw (chain : Chain) (d : ChangeProposalV7 × U8) : Bytes :=
  [discriminator chain "ChangeProposalV7", d.1.policy.bytes, U64.toLe d.1.nonce, U8.toLe d.1.kind,
    U8.toLe d.2, d.1.successor.bytes, U64.toLe d.1.controllerEpoch, U64.toLe d.1.oracleEpoch,
    I64.toLe d.1.createdAt, I64.toLe d.1.executeAfter, U8.toLe d.1.status, U8.toLe d.1.bump].flatten

def Change.shows (d : ChangeProposalV7 × U8) : Change :=
  { Change.of d.1 with recovery := d.2.toNat }

theorem readChange_eq_ok {r : Change} :
    (readChange chain).all data = .ok r ↔ ∃ d, Change.shows d = r ∧ data = Change.raw chain d := by
  rw [Reader.all_eq_ok]
  constructor
  · rintro ⟨_, h⟩
    simp only [readChange, number, finish, (reads_account _).bind_eq_ok, reads_key.bind_eq_ok,
      reads_B.bind_eq_ok, reads_q.bind_eq_ok, reads_Q.bind_eq_ok, Reader.finish_bind,
      Reader.pure_run] at h
    obtain ⟨-, _, rfl, h⟩ := h
    obtain ⟨policy, _, rfl, nonce, _, rfl, kind, _, rfl, recovery, _, rfl, h⟩ := h
    obtain ⟨successor, _, rfl, controllerEpoch, _, rfl, oracleEpoch, _, rfl, h⟩ := h
    obtain ⟨createdAt, _, rfl, executeAfter, _, rfl, status, _, rfl, bump, _, rfl, rfl, rfl, -⟩ := h
    exact ⟨({ policy, nonce, kind, recovery := false, successor, controllerEpoch, oracleEpoch
              createdAt, executeAfter, status, bump }, recovery), rfl, rfl⟩
  · rintro ⟨⟨q, flag⟩, rfl, rfl⟩
    refine ⟨[], ?_⟩
    simp only [readChange, number, finish, Change.raw, List.flatten_cons, List.flatten_nil,
      (reads_account _).bind_run (), reads_key.bind_run, reads_B.bind_run, reads_q.bind_run,
      reads_Q.bind_run, Reader.finish_bind_run]
    rfl

theorem Change.of_injective : Function.Injective Change.of := by
  intro a b h
  cases a
  cases b
  simpa only [Change.of, Change.mk.injEq, ChangeProposalV7.mk.injEq, Nat.cast_inj, Fin.val_inj,
    I64.val_inj, UInt8.toNat_inj, shown_inj, boolByte_inj] using h

theorem change_agrees : Agrees (readChange chain).all (ChangeProposalV7.serialize chain) Change.of
    (fun r ↦ r.recovery = 0 ∨ r.recovery = 1) 116 := by
  refine .of_raw (fun q ↦ (q, boolByte q.recovery)) readChange_eq_ok (fun _ ↦ rfl) (fun _ ↦ rfl) ?_
    Change.of_injective fun d ↦ ?_
  · rintro ⟨q, flag⟩ hflag
    refine ⟨{ q with recovery := decide ((flag.toNat : ℤ) ≠ 0) }, ?_⟩
    rw [Change.raw, eq_boolByte hflag]
    rfl
  · simp [Change.raw, Bytes32.length_eq]

def Withdrawal.of (q : WithdrawalProposalV7) : Withdrawal where
  policy := shown q.policy
  role := q.role.toNat
  nonce := q.nonce.val
  epoch := q.epoch.val
  predecessor := shown q.predecessor
  successor := shown q.successor
  recovery := (boolByte q.recovery).toNat
  validFrom := q.validFrom.val
  validUntil := q.validUntil.val
  createdAt := q.createdAt.val
  executeAfter := q.executeAfter.val
  expiresAt := q.expiresAt.val
  status := q.status.toNat
  finishedAt := q.finishedAt.val
  bump := q.bump.toNat

/-- The bytes, with any byte in place of the boolean. -/
def Withdrawal.raw (chain : Chain) (d : WithdrawalProposalV7 × U8) : Bytes :=
  [discriminator chain "WithdrawalProposalV7", d.1.policy.bytes, U8.toLe d.1.role, U64.toLe
    d.1.nonce, U64.toLe d.1.epoch, d.1.predecessor.bytes, d.1.successor.bytes, U8.toLe d.2, I64.toLe
    d.1.validFrom, I64.toLe d.1.validUntil, I64.toLe d.1.createdAt, I64.toLe d.1.executeAfter,
    I64.toLe d.1.expiresAt, U8.toLe d.1.status, I64.toLe d.1.finishedAt, U8.toLe d.1.bump].flatten

def Withdrawal.shows (d : WithdrawalProposalV7 × U8) : Withdrawal :=
  { Withdrawal.of d.1 with recovery := d.2.toNat }

theorem readWithdrawal_eq_ok {r : Withdrawal} :
    (readWithdrawal chain).all data = .ok r ↔
      ∃ d, Withdrawal.shows d = r ∧ data = Withdrawal.raw chain d := by
  rw [Reader.all_eq_ok]
  constructor
  · rintro ⟨_, h⟩
    simp only [readWithdrawal, number, finish, (reads_account _).bind_eq_ok,
      reads_key.bind_eq_ok, reads_B.bind_eq_ok, reads_q.bind_eq_ok, reads_Q.bind_eq_ok,
      Reader.finish_bind, Reader.pure_run] at h
    obtain ⟨-, _, rfl, h⟩ := h
    obtain ⟨policy, _, rfl, role, _, rfl, nonce, _, rfl, epoch, _, rfl, h⟩ := h
    obtain ⟨predecessor, _, rfl, successor, _, rfl, recovery, _, rfl, validFrom, _, rfl, h⟩ := h
    obtain ⟨validUntil, _, rfl, createdAt, _, rfl, executeAfter, _, rfl, h⟩ := h
    obtain ⟨expiresAt, _, rfl, status, _, rfl, finishedAt, _, rfl, bump, _, rfl, rfl, rfl, -⟩ := h
    exact ⟨({ policy, role, nonce, epoch, predecessor, successor, recovery := false, validFrom
              validUntil, createdAt, executeAfter, expiresAt, status, finishedAt
              bump }, recovery), rfl,
      rfl⟩
  · rintro ⟨⟨q, flag⟩, rfl, rfl⟩
    refine ⟨[], ?_⟩
    simp only [readWithdrawal, number, finish, Withdrawal.raw, List.flatten_cons,
      List.flatten_nil, (reads_account _).bind_run (), reads_key.bind_run, reads_B.bind_run,
      reads_q.bind_run, reads_Q.bind_run, Reader.finish_bind_run]
    rfl

theorem Withdrawal.of_injective : Function.Injective Withdrawal.of := by
  intro a b h
  cases a
  cases b
  simpa only [Withdrawal.of, Withdrawal.mk.injEq, WithdrawalProposalV7.mk.injEq, Nat.cast_inj,
    Fin.val_inj, I64.val_inj, UInt8.toNat_inj, shown_inj, boolByte_inj] using h

theorem withdrawal_agrees :
    Agrees (readWithdrawal chain).all (WithdrawalProposalV7.serialize chain) Withdrawal.of
    (fun r ↦ r.recovery = 0 ∨ r.recovery = 1) 172 := by
  refine .of_raw (fun q ↦ (q, boolByte q.recovery)) readWithdrawal_eq_ok (fun _ ↦ rfl) (fun _ ↦ rfl) ?_
    Withdrawal.of_injective fun d ↦ ?_
  · rintro ⟨q, flag⟩ hflag
    refine ⟨{ q with recovery := decide ((flag.toNat : ℤ) ≠ 0) }, ?_⟩
    rw [Withdrawal.raw, eq_boolByte hflag]
    rfl
  · simp [Withdrawal.raw, Bytes32.length_eq]

def KeyRecord.of (k : WithdrawalKeyV7) : KeyRecord where
  policy := shown k.policy
  subject := shown k.subject
  historyMask := k.historyMask.toNat
  pendingMask := k.pendingMask.toNat
  recipient := (boolByte k.recipient).toNat
  bump := k.bump.toNat

/-- The bytes, with any byte in place of the boolean. -/
def KeyRecord.raw (chain : Chain) (d : WithdrawalKeyV7 × U8) : Bytes :=
  [discriminator chain "WithdrawalKeyV7", d.1.policy.bytes, d.1.subject.bytes, U8.toLe
    d.1.historyMask, U8.toLe d.1.pendingMask, U8.toLe d.2, U8.toLe d.1.bump].flatten

def KeyRecord.shows (d : WithdrawalKeyV7 × U8) : KeyRecord :=
  { KeyRecord.of d.1 with recipient := d.2.toNat }

theorem readKey_eq_ok {r : KeyRecord} :
    (readKey chain).all data = .ok r ↔
      ∃ d, KeyRecord.shows d = r ∧ data = KeyRecord.raw chain d := by
  rw [Reader.all_eq_ok]
  constructor
  · rintro ⟨_, h⟩
    simp only [readKey, number, finish, (reads_account _).bind_eq_ok, reads_key.bind_eq_ok,
      reads_B.bind_eq_ok, Reader.finish_bind, Reader.pure_run] at h
    obtain ⟨-, _, rfl, h⟩ := h
    obtain ⟨policy, _, rfl, subject, _, rfl, historyMask, _, rfl, pendingMask, _, rfl, h⟩ := h
    obtain ⟨recipient, _, rfl, bump, _, rfl, rfl, rfl, -⟩ := h
    exact ⟨({ policy, subject, historyMask, pendingMask, recipient := false, bump }, recipient),
      rfl, rfl⟩
  · rintro ⟨⟨k, flag⟩, rfl, rfl⟩
    refine ⟨[], ?_⟩
    simp only [readKey, number, finish, KeyRecord.raw, List.flatten_cons, List.flatten_nil,
      (reads_account _).bind_run (), reads_key.bind_run, reads_B.bind_run, Reader.finish_bind_run]
    rfl

theorem KeyRecord.of_injective : Function.Injective KeyRecord.of := by
  intro a b h
  cases a
  cases b
  simpa only [KeyRecord.of, KeyRecord.mk.injEq, WithdrawalKeyV7.mk.injEq, Nat.cast_inj,
    UInt8.toNat_inj, shown_inj, boolByte_inj] using h

theorem key_agrees : Agrees (readKey chain).all (WithdrawalKeyV7.serialize chain) KeyRecord.of
    (fun r ↦ r.recipient = 0 ∨ r.recipient = 1) 76 := by
  refine .of_raw (fun k ↦ (k, boolByte k.recipient)) readKey_eq_ok (fun _ ↦ rfl) (fun _ ↦ rfl) ?_
    KeyRecord.of_injective fun d ↦ ?_
  · rintro ⟨k, flag⟩ hflag
    refine ⟨{ k with recipient := decide ((flag.toNat : ℤ) ≠ 0) }, ?_⟩
    rw [KeyRecord.raw, eq_boolByte hflag]
    rfl
  · simp [KeyRecord.raw, Bytes32.length_eq]

/-! ## Preparations -/

def Preparation.of (p : LaunchPreparationV7) : Preparation where
  creator := shown p.creator
  mint := shown p.mint
  founder := shown p.founder
  treasury := shown p.treasury
  oracle := shown p.oracle
  identity := p.identity.bytes
  specHash := p.specHash.bytes
  config := p.config.serialize
  bump := p.bump.toNat

theorem serialize_injective : Function.Injective LaunchConfig.serialize := by
  intro c c' h
  have hc := (reads_config).run c []
  rw [h, (reads_config).run] at hc
  exact (Config.of_injective (Prod.mk.inj (Except.ok.inj hc)).1).symm

theorem reads_bytes : Reads (take 32) Bytes32.bytes Bytes32.bytes := reads_take32

/-- The configuration is not decoded, but its bytes are those of one. -/
theorem reads_rawConfig : Reads (take 492) LaunchConfig.serialize LaunchConfig.serialize := by
  refine ⟨@fun bs x rest ↦ ?_⟩
  rw [take, Reader.take_run]
  constructor
  · rintro ⟨hx, rfl⟩
    obtain ⟨c, rfl⟩ := exists_config hx
    exact ⟨c, rfl, rfl⟩
  · rintro ⟨c, rfl, rfl⟩
    exact ⟨c.serialize_length, rfl⟩

theorem preparation_length (p : LaunchPreparationV7) :
    (p.serialize chain).length = 725 := by
  simp [LaunchPreparationV7.serialize, Bytes32.length_eq]

theorem readPreparation_eq_ok {r : Preparation} :
    readPreparation chain data = .ok r ↔
      ∃ p : LaunchPreparationV7, Preparation.of p = r ∧ data = p.serialize chain := by
  rw [readPreparation, Reader.all_eq_ok]
  constructor
  · rintro ⟨_, h⟩
    simp only [number, finish, (reads_account _).bind_eq_ok, reads_key.bind_eq_ok,
      reads_bytes.bind_eq_ok, (reads_rawConfig).bind_eq_ok, reads_B.bind_eq_ok, Reader.check_bind,
      Reader.finish_bind, Reader.pure_run] at h
    obtain ⟨-, _, rfl, -, creator, _, rfl, mint, _, rfl, founder, _, rfl, treasury, _, rfl, h⟩ := h
    obtain ⟨oracle, _, rfl, identity, _, rfl, specHash, _, rfl, config, _, rfl, h⟩ := h
    obtain ⟨bump, _, rfl, rfl, rfl, -⟩ := h
    exact ⟨{ creator, mint, founder, treasury, oracle, identity, specHash, config, bump }, rfl, rfl⟩
  · rintro ⟨p, rfl, rfl⟩
    rw [preparation_length]
    refine ⟨[], ?_⟩
    simp only [number, finish, LaunchPreparationV7.serialize, List.flatten_cons, List.flatten_nil,
      (reads_account _).bind_run (), Reader.check_bind_run (rfl : 725 = 725), reads_key.bind_run,
      reads_bytes.bind_run, (reads_rawConfig).bind_run, reads_B.bind_run, Reader.finish_bind_run]
    rfl

theorem Preparation.of_injective : Function.Injective Preparation.of := by
  intro a b h
  cases a
  cases b
  simpa only [Preparation.of, Preparation.mk.injEq, LaunchPreparationV7.mk.injEq, Nat.cast_inj,
    UInt8.toNat_inj, shown_inj, bytes_inj, serialize_injective.eq_iff] using h

theorem preparation_agrees : Agrees (readPreparation chain) (LaunchPreparationV7.serialize chain)
    Preparation.of (fun _ ↦ True) 725 :=
  .of_eq_ok readPreparation_eq_ok Preparation.of_injective preparation_length

end FundingVaults.Verifier
