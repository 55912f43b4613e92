import FundingVaults.LaunchV7.Layout
import FundingVaults.LaunchV7.Refine
import FundingVaults.Lib.Platform
import FundingVaults.Lib.Token

/-!
# Executing transactions

`replay` executes a list of transactions as a validator does, skipping those that fail, and keeps
the accepted ones.  What it computes is a run, so every theorem about runs can be read on it.

The second half is one launch: its configuration and keys, the digests and the addresses that the
platform computes for them, and the transactions of its first seven periods.
-/

namespace FundingVaults.LaunchV7

/-! ## Replay -/

section Replay

variable {d : Deployment} {L : Ledger}

/-- The accepted transactions, and the ledger they lead to. -/
def replay (d : Deployment) : Ledger → List Tx → List Entry × Ledger :=
  replayed (process d) Entry.mk

theorem replay_run (d : Deployment) (L : Ledger) (txs : List Tx) :
    Run d L (replay d L txs).1 (replay d L txs).2 :=
  replayed_induction .refl (fun _ hp h ↦ ((Run.refl _).accepted hp).append h) fun hp h ↦
    ((Run.refl _).rejected hp).append h

theorem replay_reachable (h : L.Genesis) (txs : List Tx) :
    Reachable d (replay d L txs).1 (replay d L txs).2 :=
  ⟨L, h, replay_run d L txs⟩

theorem mem_replay {e : Entry} {txs : List Tx} (h : e ∈ (replay d L txs).1) : e.tx ∈ txs := by
  obtain ⟨_, tx, _, htx, rfl⟩ := mem_replayed h
  exact htx

end Replay

/-! ## A launch -/

namespace Sample

open Anchor (Search searchChain unlisted spelled)

def key (n : UInt8) : Pubkey := Anchor.repeated n

def creator : Pubkey := key 1
def mint : Pubkey := key 3
def founder : Pubkey := key 6
def treasury : Pubkey := key 9
def oracle : Pubkey := key 10
/-- The owner of the account that the treasury pays to, and that account. -/
def payee : Pubkey := key 32
def payeeToken : Pubkey := key 34
/-- The second founder key, and its token account. -/
def successor : Pubkey := key 35
def successorToken : Pubkey := key 36
/-- The token account that both vaults are funded from. -/
def source : Pubkey := key 29

def policy : Pubkey := spelled 0xc7b443edcee69674a00ca05864713efe1f0969807f61825a748629febe0c828e

def identity : Bytes32 :=
  spelled 0x3e8f18b7a1172f7c2c18983964240155b65f214001d476d9111b08a20a0b2fca

/-- The identity of the second launch. -/
def rival : Bytes32 :=
  spelled 0x3db76ed492ae4bf917b85994c040eadca706a1bc45b6e217c75e22238f7dc3d4

def vault : Role → Pubkey
  | .founder => spelled 0xcb1785326f10eb34fc4215b40a017ee083161f2913652aa07a873ebf2386931f
  | .treasury => spelled 0x0bb6ec00719950ef2c3d2dfd846adeff7cc1b949168295c9b3be5cfd36f71164

def rule (startPeriod : U64) (source : UInt8) : AnnualRule where
  startPeriod
  endPeriod := startPeriod + 12
  founderBasis := 12000
  treasuryBasis := 24000
  sharedCap := 1800
  releaseBps := 500
  sourceHash := key source

def seconds (x : ℤ) (ge : -2 ^ 63 ≤ x := by decide) (lt : x < 2 ^ 63 := by decide) : I64 :=
  ⟨x, ge, lt⟩

def config : LaunchConfig where
  t0 := seconds 10000
  founderAmount := 12000
  treasuryAmount := 24000
  founderPeriodCap := 1000
  treasuryPeriodCap := 2000
  sharedHardCap := 3000
  maxReportAge := seconds 604800
  annualRules := #v[rule 0 70, rule 12 71]
  recoveryKeys := #v[key 11, key 12, key 16]
  founderRecoveryKeys := #v[key 17, key 19, key 22]
  treasuryRecoveryKeys := #v[key 23, key 25, key 26]

/-- The specification, and that of a second launch with the same terms. -/
def spec : Bytes32 := key 50
def rivalSpec : Bytes32 := key 51

/-- The loader that holds the code of the program. -/
def loader : Pubkey := spelled 0x02a8f6914e88a1b0e210153ef763ae2b00c2b93d16c124d2c0537a1004800000

/-- A search of the program, by its seeds and the points it passes over. -/
def search (s : Seeds) (points : List ℕ) (key : Pubkey) : Search :=
  ⟨s.bytes.flatten, ID, points.map spelled, key⟩

/-- What `find_program_address` does for the accounts of the launch. -/
def searches : List Search := [
  search (.preparation identity) [
    0x3efc3977d5740075bac3ca4456e02d96355eb0ba52daff6f93233536f8d686b8,
    0x349f0880039fa51bc7f52639cb42347d23f418a0e295816496d8f90368779a17]
    (spelled 0xfb0b5a77f8d73aef5505eba508a9305de0c0c5b83d2921569db9668e93bfaa62),
  search (.policy identity) [
    0xdffd3a2e236ff8306e605ed8b27a6837d7e43199f73fa7384ff392a0a3b07543]
    policy,
  search (.vault policy FOUNDER) []
    (vault .founder),
  search (.vault policy TREASURY) [
    0x06b490dd59c5fb64c636fe33260eb2e57507d985ea198f19a624a5d477229ee1]
    (vault .treasury),
  search (.token (vault .founder)) [
    0xa4383598a0a532dd9167e26c8263ef305b3c643cb43f72df3640eeb0b27c9ab6,
    0x848004c18d9f817557028c9d124d5260ef333aadeb494d539dd436de10158691]
    (spelled 0x9290cba75270043f1d214898ee22578b1ca3ecfb712fe0ee10537943b53fbf1b),
  search (.token (vault .treasury)) [
    0xaa33f0fd59168b9bda3b48a6b481da3b5c0c84c1a813f20b27e36f4fc4b0fbaa]
    (spelled 0x985fc3833eeb5e154fdf708e37f4abcafbddf0ad9dc44cc85cce49914f727405),
  search (.approval policy 0) []
    (spelled 0xce779755a27e35c0200009e7c549247aeac7831ddfc3c965b7b9b74b43ab98e7),
  search (.approval policy 6) []
    (spelled 0x7a4fc299b9486f7529e8e2397c1109d8a3fbf88c8fdc8aa9982d2b0c03c30771),
  search (.key policy payee) []
    (spelled 0x8164c85e585871f5baff0844f1de0e05bd33b3b6c3a73ef3cd192802dd1fa14d),
  search (.key policy successor) [
    0x4d5e1576ac0200a3697b6fd184e7b2e8bba05709ab76833e6aebf8e9146588a6,
    0xe03d46c85faa4940186948c6705de6ef02834ba55f858d9fc08339c71fa3886a,
    0xba49a8fc5a5bb9937880f94574f2d8a97feebb41a5b2d52249337275744372ae]
    (spelled 0x4b382faa8dfe7fc76aa0ec667137802d6f6759c668b7268e0a1cee328603225e),
  search (.withdrawal policy FOUNDER 1) [
    0xdca3af25b45af9d81d3e01cfc00e92cc95c5ea01daf36a71c01e765a74abe492]
    (spelled 0xb063f66bad427e5004a046fe25cf1ce2681b05214ffee33e158c922fdc9f5ddb),
  search (.change policy 1) [
    0x4af6985e776762f49697c91ea0b82b2668b0cfac3efa105816b6cc690ca6cc12,
    0x01f9cbe18faa84cb2363d55d1f10de6afc133dcfaca722421fc1458d2cc16f0c,
    0xde85eb5a7293c56ce974fa83c252971001613d5c1a6c661042ced10bfe92dd5e,
    0x78daee71bd46bdf8405afc249c78354e82b30ed493a9f6dfddd6af731eb95359,
    0x86221a1b99060110613feba9e1ee20a95198b610d212f4062894b76b31f86b8c,
    0x7357e62d63be3423e8dbcd407a775e9fb7b1ad389191954b5ae2982303ab2f94,
    0x94e41117f871c96fa105adfd0676b04311ebbcb216e715baf0870a7119bb6c0a,
    0x6ccec9d60fb504eee09cdf9cbd87838b03a733e16c0712220b3f5cf83db1d052,
    0xd235664de9d349405e8449cdcd3267227590f962bfe6605731e9c9b85ccb85d0]
    (spelled 0xe5fdae83ce415f6cfbfcdcfb2364a3e025f45badbd85aa371e077330b428bf38),
  search (.preparation rival) []
    (spelled 0xbcc12d8eb03334854fc409849c5c992f7507b059021627c54443ff9209756b16),
  search (.policy rival) [
    0x52be796addfd3355f1b8a96a495c1503bac74baa3ba4954b562bf42215203cef]
    (spelled 0xb970e27ca5fd1e819d4c8f4a4e26728fd26f6f5a6c8c55875920a2fd03ca0f48),
  ⟨ID.bytes, loader, [],
    spelled 0x828a37efc9d9779346a253564f20dcb8afd767c00e717f010a9141d0d6feb67e⟩]

/-- What else is hashed: the terms of the launches, and the names of the accounts. -/
def digests : List (Bytes × Bytes32) := [
  (preimage creator mint founder treasury oracle spec config, identity),
  (preimage creator mint founder treasury oracle rivalSpec config, rival),
  (ascii "account:LaunchPreparationV7",
    spelled 0xa9c3f66d35d73fdb658e1224c75f9cdf0b42e4977743e7ac5db9bfc1d9fcd0ac),
  (ascii "account:LaunchPolicyV7",
    spelled 0x582a85bca1835b216679dae9b1f1f8c89591fc52d9f67144382efa9bc51c8589),
  (ascii "account:LaunchVaultV7",
    spelled 0x01cda6d3ec6f76e3c0b02ffa35c2f60103e8bc82d841b25416e53e0d74967838),
  (ascii "account:TreasuryApprovalV7",
    spelled 0xca3ec3998acfa437b4af4af763b13c6f36ae66cf90cede010cafdfb369a8e958),
  (ascii "account:ChangeProposalV7",
    spelled 0x0643ebcc39e901babf4f9c9ba2ac6a7905edd84cb1d7d93d3b02de1314868f7f),
  (ascii "account:WithdrawalProposalV7",
    spelled 0x70124d83dd50c9c1dab7dae252cf79fcacbb0d457e7f073978865f24ea042b85),
  (ascii "account:WithdrawalKeyV7",
    spelled 0x10a0c95241bb1464090e5178d1974c1ecb8c43c133c821b72b54c79210949692)]

def chain : Chain := searchChain searches digests

/-- Only the listed addresses are derived. -/
theorem address_mem (s : Seeds) : s.address chain ∈ unlisted :: searches.map Search.key :=
  Anchor.searched_mem _ _

/-- Other programs leave the token accounts alone. -/
def deployment : Deployment where
  toChain := chain
  testProfile := true
  external _ _ := False

def tokenAccount (owner : Pubkey) (amount : ℕ) : TokenAccount where
  mint
  owner
  amount
  delegate := none
  state := .initialized
  isNative := none
  delegatedAmount := 0
  closeAuthority := none

/-- The ledger before the launch. -/
def genesis : Ledger where
  program _ := none
  tokens := {
    account := fun k ↦
      if k = source then some (tokenAccount creator 36000)
      else if k = payeeToken then some (tokenAccount payee 0)
      else if k = successorToken then some (tokenAccount successor 0)
      else none
    mint := fun k ↦ if k = mint then some {
      mintAuthority := none, supply := 36000, decimals := 9, isInitialized := true
      freezeAuthority := none } else none }

def address (s : Seeds) : Pubkey := s.address chain

def deposit (now : ℤ) (r : Role) (authority : Pubkey) (amount : U64)
    (ge : -2 ^ 63 ≤ now := by decide)
    (lt : now < 2 ^ 63 := by decide) : Tx where
  now := seconds now ge lt
  signers := [creator, authority]
  instruction := .deposit {
    creator, depositor := creator, authority, policy, mint, source, vault := vault r
    vaultToken := address (.token (vault r)) } r.toU8 amount

def report (now : ℤ) (oracle : Pubkey) (sequence epoch : U64)
    (ge : -2 ^ 63 ≤ now := by decide)
    (lt : now < 2 ^ 63 := by decide) : Tx where
  now := seconds now ge lt
  signers := [oracle]
  instruction := .reportCapacity { oracle, policy } 900 (seconds now ge lt) sequence epoch

def prepareKey (now : ℤ) (subject : Pubkey)
    (ge : -2 ^ 63 ≤ now := by decide)
    (lt : now < 2 ^ 63 := by decide) : Tx where
  now := seconds now ge lt
  signers := [creator]
  instruction := .prepareWithdrawalKey
    { payer := creator, policy, record := address (.key policy subject) } subject

/-- The launch up to its activation. -/
def launch : List Tx := [
  ⟨seconds 1000, [creator], .preparePolicy
    { creator, founder, treasury, oracle, mint, preparation := address (.preparation identity) }
    config spec identity⟩,
  ⟨seconds 1000, [creator, founder, treasury, key 11, key 12, key 16], .openPreparedPolicy
    { creator, founder, treasury, oracle, mint, policy
      recoveryOne := key 11, recoveryTwo := key 12, recoveryThree := key 16
      preparation := address (.preparation identity) }⟩,
  deposit 1100 .founder founder 12000,
  deposit 1200 .treasury treasury 24000,
  prepareKey 1900 payee,
  ⟨seconds 2000, [treasury], .approveTreasury
    { treasury, policy, mint, recipient := payeeToken, approval := address (.approval policy 0)
      recipientRecord := address (.key policy payee) } 0 70 0⟩,
  ⟨seconds 3000, [creator], .arm { creator, policy }⟩,
  ⟨seconds 10000, [], .activate { policy }⟩]

def treasuryRelease (now : ℤ) (amount : U64)
    (ge : -2 ^ 63 ≤ now := by decide)
    (lt : now < 2 ^ 63 := by decide) : Tx where
  now := seconds now ge lt
  signers := [treasury]
  instruction := .release
    { authority := treasury, policy, vault := vault .treasury, mint
      vaultToken := address (.token (vault .treasury)), destination := payeeToken
      approval := some (address (.approval policy 0))
      recipientRecord := some (address (.key policy payee)) } amount 0

def founderRelease (now : ℤ) (amount : U64)
    (ge : -2 ^ 63 ≤ now := by decide)
    (lt : now < 2 ^ 63 := by decide) : Tx where
  now := seconds now ge lt
  signers := [successor]
  instruction := .release
    { authority := successor, policy, vault := vault .founder, mint
      vaultToken := address (.token (vault .founder)), destination := successorToken
      approval := none, recipientRecord := none } amount 1

/-- A report and a treasury release in the first period, then the proposals of a new founder key
and of a new oracle. -/
def firstPeriod : List Tx := [
  report 2594500 oracle 1 0,
  treasuryRelease 2595000 60,
  prepareKey 2595050 successor,
  ⟨seconds 2595100, [founder, successor], .proposeWithdrawal
    { payer := founder, initiator := founder, cosigner := founder, successor, policy
      proposal := address (.withdrawal policy FOUNDER 1)
      successorRecord := address (.key policy successor) }
    FOUNDER false 1 0 (seconds 2595000) (seconds 2595200) founder⟩,
  ⟨seconds 2595200, [creator, key 37], .proposeChange
    { payer := creator, initiator := creator, cosigner := creator, successor := key 37, policy
      proposal := address (.change policy 1) } CHANGE_ORACLE false 1⟩]

def executeRotation : Tx where
  now := seconds 10371100
  signers := []
  instruction := .executeWithdrawal
    { policy, proposal := address (.withdrawal policy FOUNDER 1)
      successorRecord := address (.key policy successor) }

/-- Both proposals are executed, the new oracle reports and the new founder key withdraws. -/
def seventhPeriod : List Tx := [
  executeRotation,
  ⟨seconds 10371200, [], .executeChange { policy, proposal := address (.change policy 1) }⟩,
  report 15563000 (key 37) 2 1,
  founderRelease 15563100 40]

/-- Everything that happens in the launch. -/
def run : List Entry × Ledger := replay deployment genesis (launch ++ firstPeriod ++ seventhPeriod)

/-- The launch until its proposals are pending. -/
def pendingRun : List Entry × Ledger := replay deployment genesis (launch ++ firstPeriod)

theorem run_reachable : Reachable deployment run.1 run.2 := replay_reachable (fun _ ↦ rfl) _

theorem pendingRun_reachable : Reachable deployment pendingRun.1 pendingRun.2 :=
  replay_reachable (fun _ ↦ rfl) _

theorem run_policy : ∃ p, run.2.policyAt policy = some p :=
  Option.isSome_iff_exists.mp (by decide +kernel)

theorem pendingRun_policy : ∃ p, pendingRun.2.policyAt policy = some p :=
  Option.isSome_iff_exists.mp (by decide +kernel)

/-- The pending rotation is accepted and replaces the founder key. -/
theorem rotated {p : LaunchPolicyV7} (hp : pendingRun.2.policyAt policy = some p) :
    ∃ L' p', process deployment pendingRun.2 executeRotation = .ok L' ∧
      L'.policyAt policy = some p' ∧
      (p'.withdrawal.get .founder).current ≠ (p.withdrawal.get .founder).current := by
  have hbefore : (pendingRun.2.policyAt policy).map (fun p ↦ p.withdrawal.founder.current) =
      some founder := by decide +kernel
  have hafter : ((process deployment pendingRun.2 executeRotation).toOption.bind fun L ↦
      (L.policyAt policy).map fun p ↦ p.withdrawal.founder.current) = some successor := by
    decide +kernel
  simp only [hp, Option.map_some, Option.some.injEq] at hbefore
  simp only [Option.bind_eq_some_iff, Option.map_eq_some_iff] at hafter
  obtain ⟨L', hL', p', hp', hcur⟩ := hafter
  have hok : process deployment pendingRun.2 executeRotation = .ok L' := by
    cases hx : process deployment pendingRun.2 executeRotation <;> simp_all [Except.toOption]
  refine ⟨L', p', hok, hp', ?_⟩
  change p'.withdrawal.founder.current ≠ p.withdrawal.founder.current
  rw [hcur, hbefore]
  decide

end Sample

end FundingVaults.LaunchV7
