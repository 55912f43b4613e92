import FundingVaults.Client.Binding
import FundingVaults.Client.Identity
import FundingVaults.Verifier.Identity

/-!
# One layout for all readers

The readers at fixed offsets find what the sequential readers find, and the three ways to compute the
preimage of an identity give the same bytes.
-/

namespace FundingVaults.Verifier

open LaunchV7 Client

variable {chain : Chain} {data config : Bytes}

/-! ## Policies at fixed offsets -/

def rolePieces (r : WithdrawalRole) : List Bytes :=
  [r.current.bytes, U64.toLe r.epoch, U64.toLe r.sequence, U64.toLe r.pending]

def policyPieces (chain : Chain) (p : LaunchPolicyV7) : List Bytes :=
  [discriminator chain "LaunchPolicyV7", p.creator.bytes, p.mint.bytes, p.founder.bytes,
    p.treasury.bytes, p.oracle.bytes, p.identity.bytes, p.specHash.bytes, p.config.serialize,
    U8.toLe p.state, U8.toLe p.fundedMask, U8.toLe p.bump, I64.toLe p.lastActionAt,
    U64.toLe p.period, U64.toLe p.sharedUsed, U64.toLe p.reportPeriod, U64.toLe p.reportCapacity,
    I64.toLe p.reportAt, U64.toLe p.reportSequence, U64.toLe p.founderPeriodUsed,
    U64.toLe p.treasuryPeriodUsed, U64.toLe p.founderReleasedTotal,
    U64.toLe p.treasuryReleasedTotal, U8.toLe p.annualIndex, U64.toLe p.founderAnnualUsed,
    U64.toLe p.treasuryAnnualUsed, p.initialOracle.bytes, p.controller.bytes,
    U64.toLe p.controllerEpoch, U64.toLe p.oracleEpoch, I64.toLe p.oracleActivatedAt,
    U64.toLe p.reportEpoch, boolToLe p.reportValid, U64.toLe p.changeSequence,
    U64.toLe p.pendingChange] ++ rolePieces p.withdrawal.founder ++
    rolePieces p.withdrawal.treasury ++ [U64.toLe p.approvalCount]

def policyWidths : List ℕ :=
  [8, 32, 32, 32, 32, 32, 32, 32, 492, 1, 1, 1, 8, 8, 8, 8, 8, 8, 8, 8, 8, 8, 8, 1, 8, 8, 32, 32, 8,
    8, 8, 8, 1, 8, 8, 32, 8, 8, 8, 32, 8, 8, 8, 8]

theorem policyPieces_flatten (p : LaunchPolicyV7) :
    (policyPieces chain p).flatten = p.serialize chain := by
  simp [policyPieces, rolePieces, LaunchPolicyV7.serialize, WithdrawalRole.serialize]

theorem policyPieces_widths (p : LaunchPolicyV7) :
    (policyPieces chain p).map List.length = policyWidths := by
  simp [policyPieces, rolePieces, policyWidths, Bytes32.length_eq]

/-- What stands at the place of a piece. -/
theorem slice_policy (p : LaunchPolicyV7) (i : ℕ) {x : Bytes}
    (hx : (policyPieces chain p)[i]? = some x) :
    slice (p.serialize chain) (policyWidths.take i).sum (policyWidths.getD i 0) = x := by
  rw [← policyPieces_flatten]
  exact slice_piece (policyPieces_widths p) i hx

theorem unpack_u64 (x : U64) : Format.Q.unpack (U64.toLe x) = x.val :=
  congrArg Nat.cast (leNat_leBytes x.isLt)

theorem roleAt_eq {offset : ℕ} {r : WithdrawalRole} (hcurrent : slice data offset 32 = r.current.bytes)
    (hepoch : slice data (offset + 32) 8 = U64.toLe r.epoch)
    (hsequence : slice data (offset + 40) 8 = U64.toLe r.sequence)
    (hpending : slice data (offset + 48) 8 = U64.toLe r.pending) : roleAt data offset = .of r := by
  rw [roleAt, hcurrent, hepoch, hsequence, hpending, unpack_u64, unpack_u64, unpack_u64]
  rfl

theorem roles_of (p : LaunchPolicyV7) :
    [945, 1001].map (roleAt (p.serialize chain)) = (Policy.of p).withdrawal := by
  have hfounder : roleAt (p.serialize chain) 945 = .of p.withdrawal.founder :=
    roleAt_eq (slice_policy p 35 rfl) (slice_policy p 36 rfl) (slice_policy p 37 rfl)
      (slice_policy p 38 rfl)
  have htreasury : roleAt (p.serialize chain) 1001 = .of p.withdrawal.treasury :=
    roleAt_eq (slice_policy p 39 rfl) (slice_policy p 40 rfl) (slice_policy p 41 rfl)
      (slice_policy p 42 rfl)
  rw [List.map_cons, List.map_cons, List.map_nil, hfounder, htreasury]
  rfl

/-- A binding names what the verifier reads. -/
structure Names (chain : Chain) (binding : Binding) (p : Policy) : Prop where
  identity : hexEncode p.identity = binding.identityHex
  specHash : hexEncode p.specHash = binding.specHashHex
  policy : shown (chain.findProgramAddress [ascii "launch-v7-policy", p.identity] ID).1 =
    binding.policy
  creator : p.creator = binding.creator
  mint : p.mint = binding.mint
  founder : p.founder = binding.founder
  treasury : p.treasury = binding.treasury
  oracle : p.initialOracle = binding.oracle

/-- The client accepts a policy under the bindings that name it, and finds its roles. -/
theorem readBoundPolicy_eq_ok {p : Policy} {binding : Binding} {roles : List Verifier.Role}
    (h : (readPolicy chain).all data = .ok (p, config)) :
    readBoundPolicy chain binding data = .ok roles ↔
      Names chain binding p ∧ p.withdrawal = roles := by
  obtain ⟨p, hp, rfl⟩ := readPolicy_eq_ok.mp h
  obtain ⟨rfl, -⟩ := Prod.mk.inj hp
  have htag : slice (p.serialize chain) 0 8 = discriminator chain "LaunchPolicyV7" :=
    slice_policy p 0 rfl
  have hcreator : slice (p.serialize chain) 8 32 = p.creator.bytes := slice_policy p 1 rfl
  have hmint : slice (p.serialize chain) 40 32 = p.mint.bytes := slice_policy p 2 rfl
  have hfounder : slice (p.serialize chain) 72 32 = p.founder.bytes := slice_policy p 3 rfl
  have htreasury : slice (p.serialize chain) 104 32 = p.treasury.bytes := slice_policy p 4 rfl
  have hidentity : slice (p.serialize chain) 168 32 = p.identity.bytes := slice_policy p 6 rfl
  have hspec : slice (p.serialize chain) 200 32 = p.specHash.bytes := slice_policy p 7 rfl
  have horacle : slice (p.serialize chain) 832 32 = p.initialOracle.bytes := slice_policy p 26 rfl
  have hlength : (p.serialize chain).length = 1065 := policy_agrees.width p
  simp only [readBoundPolicy, Binding.actors, List.forM_cons, List.forM_nil, bind_eq_ok,
    require_eq_ok, pure_eq_ok, exists_const, htag, hcreator, hmint, hfounder, htreasury, hidentity,
    hspec, horacle, roles_of]
  constructor
  · rintro ⟨-, -, ⟨hid, hsh, haddress⟩, ⟨hcreator, hmint, hfounder, htreasury, horacle, -⟩, h⟩
    exact ⟨⟨hid, hsh, haddress, hcreator, hmint, hfounder, htreasury, horacle⟩, h⟩
  · rintro ⟨h, hroles⟩
    exact ⟨hlength, rfl, ⟨h.identity, h.specHash, h.policy⟩,
      ⟨h.creator, h.mint, h.founder, h.treasury, h.oracle, trivial⟩, hroles⟩

/-! ## The other slices -/

/-- The configuration that the check of a preparation compares. -/
def policyConfig (data : Bytes) : Bytes := slice data 232 492

theorem policyConfig_eq {p : Policy} (h : (readPolicy chain).all data = .ok (p, config)) :
    policyConfig data = config := by
  obtain ⟨p, hp, rfl⟩ := readPolicy_eq_ok.mp h
  obtain ⟨-, rfl⟩ := Prod.mk.inj hp
  exact slice_policy p 8 rfl

def withdrawalWidths : List ℕ := [8, 32, 1, 8, 8, 32, 32, 1, 8, 8, 8, 8, 8, 1, 8, 1]

/-- The exporter finds the successor of a request. -/
theorem subject_withdrawal {s : Snapshot} {name address : String} {q : Withdrawal}
    (haccount : s.account chain name PROGRAM "WithdrawalProposalV7" = .ok (address, data))
    (h : (readWithdrawal chain).all data = .ok q) :
    subject chain s name "WithdrawalProposalV7" "RPC_WITHDRAWAL_LAYOUT" 172 89 =
      .ok (some q.successor) := by
  have hlength := withdrawal_agrees.rejects h
  obtain ⟨d, rfl, rfl⟩ := readWithdrawal_eq_ok.mp h
  have hslice : slice (Withdrawal.raw chain d) 89 32 = d.1.successor.bytes := by
    refine @slice_piece _ withdrawalWidths ?_ 6 _ rfl
    simp [withdrawalWidths, Bytes32.length_eq]
  simp only [subject, haccount, bind_eq_ok, require_eq_ok, pure_eq_ok, Except.ok.injEq,
    exists_const, exists_eq_left']
  exact ⟨hlength, by rw [hslice]; rfl⟩

def approvalWidths : List ℕ := [8, 32, 8, 32, 32, 8, 8, 8, 1, 32, 8]

/-- The exporter finds the owner of an approved recipient. -/
theorem subject_approval {s : Snapshot} {name address : String} {a : Approval}
    (haccount : s.account chain name PROGRAM "TreasuryApprovalV7" = .ok (address, data))
    (h : (readApproval chain).all data = .ok a) :
    subject chain s name "TreasuryApprovalV7" "RPC_APPROVAL_LAYOUT" 177 80 =
      .ok (some a.recipientOwner) := by
  have hlength := approval_agrees.rejects h
  obtain ⟨a, rfl, rfl⟩ := readApproval_eq_ok.mp h
  have hslice : slice (a.serialize chain) 80 32 = a.recipientOwner.bytes := by
    refine @slice_piece _ approvalWidths ?_ 4 _ rfl
    simp [approvalWidths, Bytes32.length_eq]
  simp only [subject, haccount, bind_eq_ok, require_eq_ok, pure_eq_ok, Except.ok.injEq,
    exists_const, exists_eq_left']
  exact ⟨hlength, by rw [hslice]; rfl⟩

/-! ## Preimages -/

/-- `struct.pack` of the constants of a preparation. -/
def preparationConstants : Bytes :=
  pack .q 15552000 ++ pack .q 2592000 ++ pack .Q 12 ++ pack .H 500 ++ pack .q 7776000 ++ pack .B 2 ++
    pack .q 2592000 ++ pack .q 300

/-- What `verify_preparation` takes the identity of. -/
def preparationPreimage (p : Preparation) : Except String Bytes := do
  let program ← pubkey PROGRAM
  let keys ← [p.creator, p.mint, p.founder, p.treasury, p.oracle].mapM pubkey
  pure (ascii "k4v-launch-policy-v7-test-profile-1" ++ program ++ keys.flatten ++
    (p.specHash ++ preparationConstants ++ p.config))

theorem preparationPreimage_eq (p : LaunchPreparationV7) :
    preparationPreimage (.of p) = .ok (preimage p.creator p.mint p.founder p.treasury p.oracle
      p.specHash p.config) := by
  have hkeys := pubkey_keys [p.creator, p.mint, p.founder, p.treasury, p.oracle]
  simp only [preparationPreimage, Preparation.of, pubkey_PROGRAM, bind_eq_ok, pure_eq_ok,
    Except.ok.injEq, exists_eq_left']
  refine ⟨_, hkeys, ?_⟩
  simp only [List.map_cons, List.map_nil, List.flatten_cons, List.flatten_nil, List.append_nil,
    List.append_assoc, preparationConstants, preimage]
  rfl

/-! ## Agreement -/

/-- The sequential readers recover every field of the seven kinds of accounts and refuse every other
length, and what they accept is the bytes of one value, up to the bytes of booleans. -/
structure ReadersAgree (chain : Chain) : Prop where
  policy : Agrees (readPolicy chain).all (LaunchPolicyV7.serialize chain)
    (fun p ↦ (Policy.of p, p.config.serialize)) (fun _ ↦ True) 1065
  vault : Agrees (readVault chain).all (LaunchVaultV7.serialize chain) Vault.of (fun _ ↦ True) 138
  approval : Agrees (readApproval chain).all (TreasuryApprovalV7.serialize chain) Approval.of
    (fun _ ↦ True) 177
  change : Agrees (readChange chain).all (ChangeProposalV7.serialize chain) Change.of
    (fun r ↦ r.recovery = 0 ∨ r.recovery = 1) 116
  withdrawal : Agrees (readWithdrawal chain).all (WithdrawalProposalV7.serialize chain)
    Withdrawal.of (fun r ↦ r.recovery = 0 ∨ r.recovery = 1) 172
  key : Agrees (readKey chain).all (WithdrawalKeyV7.serialize chain) KeyRecord.of
    (fun r ↦ r.recipient = 0 ∨ r.recipient = 1) 76
  preparation : Agrees (readPreparation chain) (LaunchPreparationV7.serialize chain) Preparation.of
    (fun _ ↦ True) 725

/-- The readers at fixed offsets find what the sequential readers find. -/
structure OffsetsAgree (chain : Chain) : Prop where
  successor : ∀ {s : Snapshot} {name address : String} {data : Bytes} {q : Withdrawal},
    s.account chain name PROGRAM "WithdrawalProposalV7" = .ok (address, data) →
    (readWithdrawal chain).all data = .ok q →
    subject chain s name "WithdrawalProposalV7" "RPC_WITHDRAWAL_LAYOUT" 172 89 =
      .ok (some q.successor)
  recipientOwner : ∀ {s : Snapshot} {name address : String} {data : Bytes} {a : Approval},
    s.account chain name PROGRAM "TreasuryApprovalV7" = .ok (address, data) →
    (readApproval chain).all data = .ok a →
    subject chain s name "TreasuryApprovalV7" "RPC_APPROVAL_LAYOUT" 177 80 =
      .ok (some a.recipientOwner)
  config : ∀ {data config : Bytes} {p : Policy}, (readPolicy chain).all data = .ok (p, config) →
    policyConfig data = config
  bound : ∀ {data config : Bytes} {p : Policy} {binding : Binding} {roles : List Verifier.Role},
    (readPolicy chain).all data = .ok (p, config) →
    (readBoundPolicy chain binding data = .ok roles ↔
      Names chain binding p ∧ p.withdrawal = roles)

/-- The configuration and the preimage of an identity have the same bytes in the program, in the two
verifiers and in the client, whatever value states the configuration. -/
structure PreimagesAgree (chain : Chain) : Prop where
  stated : ∀ c : LaunchConfig, ∃ v, StatesConfig v c
  encoded : ∀ {v : Value} {c : LaunchConfig}, StatesConfig v c →
    encodeConfig v = .ok c.serialize ∧ c.serialize.length = 492
  identity : ∀ (creator mint founder treasury oracle : Pubkey) (specHash : Bytes32)
    (c : LaunchConfig), LaunchV7.identity chain creator mint founder treasury oracle specHash c =
      chain.sha256 (preimage creator mint founder treasury oracle specHash c)
  policy : ∀ p : LaunchPolicyV7, identityPreimage (.of p) p.config.serialize =
    .ok (preimage p.creator p.mint p.founder p.treasury p.initialOracle p.specHash p.config)
  preparation : ∀ p : LaunchPreparationV7, preparationPreimage (.of p) =
    .ok (preimage p.creator p.mint p.founder p.treasury p.oracle p.specHash p.config)
  client : ∀ (creator mint founder treasury oracle : Pubkey) (specHash : Bytes32) {v : Value}
    {c : LaunchConfig}, StatesConfig v c →
      boundLaunchPreimage ID.bytes creator.bytes mint.bytes founder.bytes treasury.bytes
        oracle.bytes specHash.bytes v =
          .ok (preimage creator mint founder treasury oracle specHash c)

/-- The hand-written codecs of the program, the verifiers, the exporter and the client agree. -/
theorem codecs_agree (chain : Chain) :
    ReadersAgree chain ∧ OffsetsAgree chain ∧ PreimagesAgree chain := by
  refine ⟨?readers, ?offsets, ?preimages⟩
  case readers =>
    exact ⟨policy_agrees, vault_agrees, approval_agrees, change_agrees, withdrawal_agrees,
      key_agrees, preparation_agrees⟩
  case offsets =>
    exact ⟨subject_withdrawal, subject_approval, policyConfig_eq, readBoundPolicy_eq_ok⟩
  case preimages =>
    exact ⟨fun c ↦ ⟨_, statesConfig_configValue c⟩,
      fun h ↦ ⟨encodeConfig_of h, LaunchConfig.serialize_length _⟩, fun _ _ _ _ _ _ _ ↦ rfl,
      identityPreimage_eq, preparationPreimage_eq, fun creator mint founder treasury oracle specHash
        {_ _} h ↦ boundLaunchPreimage_of creator mint founder treasury oracle specHash h⟩

end FundingVaults.Verifier
