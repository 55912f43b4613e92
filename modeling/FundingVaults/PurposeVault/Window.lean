import FundingVaults.PurposeVault.Invariant
import FundingVaults.Lib.Platform

/-!
# The shared window of a policy

The main result: under one policy, whatever its oracle reports, each release fits the window of its
moment, each vault keeps to its own schedule, and a purpose vault to what was approved in advance.
-/

namespace FundingVaults.PurposeVault

open Anchor

/-! ## What a run makes of a policy -/

/-- A release `x` under the policy `p`, after the history `pre`: the policy's counter is what all
its vaults released in the period of `x`, and fits the window of that moment, and the amount goes
from the vault's own token account to the one that `x` names. -/
structure Fits (chain : Chain) (pre : List (Event Stored Instruction))
    (e : Event Stored Instruction) (x : Payment) (p : PolicyWindow) (before after : Ledger Stored) :
    Prop where
  shared : ∃ p' m capacity, after.program x.policy = some (.policy p') ∧
    before.program x.market = some (.market m) ∧ m.policyHash = p.policyHash ∧
    windowCapacity (p.inputs m x.now) = .ok capacity ∧
    p'.releasedThisPeriod.val = spentIn (Payment.period p.genesisTs) Payment.weight
      (x.period p.genesisTs) (paymentsOn x.policy (pre ++ [e])) ∧
    p'.currentPeriodIndex.val = x.period p.genesisTs ∧
    p'.releasedThisPeriod ≤ capacity ∧ capacity ≤ p.hardCeiling
  vault : ∃ v', after.program x.vault = some (.vault v') ∧
    v'.releasedThisPeriod.val = spentIn (Payment.period p.genesisTs) Payment.weight
      (x.period p.genesisTs) (paymentsFrom x.vault (pre ++ [e]))
  reported : ∃ r ∈ pre, Reports x.market r
  moved : ∃ v source, before.program x.vault = some (.vault v) ∧
    chain.createProgramAddress (tokenSeeds x.vault ++ [[v.tokenVaultBump]]) ID = some source ∧
    chain.transferChecked before.tokens {
      source, mint := v.mint, destination := x.destination, authority := x.vault
      amount := x.amount.val, decimals := v.mintDecimals } = some after.tokens

/-- A purpose release `x` was approved in an earlier period, thirty days before at least. -/
structure Backed (tr : List (Event Stored Instruction)) (P : Accounts) (genesis : I64) (x : Payment)
    (a : Approval) : Prop extends Noticed P genesis x a where
  written : ∃ key, ∃ e ∈ tr, Writes key a e
  earlier : periodOf genesis a.createdAt < x.period genesis
  need : spentIn (Payment.period genesis) Payment.weight (x.period genesis)
    (paymentsFrom x.vault tr) ≤ a.approvedNeed.val

/-- The schedule of the vault `v` at `key`. -/
structure Scheduled (tr : List (Event Stored Instruction)) (P : Accounts) (genesis : I64)
    (key : Pubkey) (v : CovenantVault) : Prop where
  counter : v.releasedThisPeriod.val = spentIn (Payment.period genesis) Payment.weight
    v.currentPeriodIndex.val (paymentsFrom key tr)
  capped : ∀ k, spentIn (Payment.period genesis) Payment.weight k (paymentsFrom key tr) ≤
    monthlyShare v.depositedAmount.val v.annualReleaseBps.val
  deposit : spent Payment.weight (paymentsFrom key tr) ≤ v.depositedAmount.val
  cliff : v.kind = .Beneficiary → ∀ x ∈ paymentsFrom key tr, v.cliffEndTs ≤ x.now
  backed : v.kind = .Purpose → ∀ x ∈ paymentsFrom key tr, ∃ a, Backed tr P genesis x a

/-- The instruction concerns the oracle. -/
def Instruction.oracle : Instruction → Bool
  | .reportVolume .. | .proposeOracle .. | .executeOracleRotation .. => true
  | _ => false

/-- What a run makes of the policy `p` at `key`. -/
structure Window (chain : Chain) (tr : List (Event Stored Instruction)) (L : Ledger Stored)
    (key : Pubkey) (p : PolicyWindow) : Prop where
  /-- Its releases are those of the vaults that name its hash. -/
  members : ∀ x ∈ payments tr,
    x.policy = key ↔ ∃ v, L.program x.vault = some (.vault v) ∧ v.policyHash = p.policyHash
  releases : ∀ {pre e post x}, tr = pre ++ e :: post → payment e = some x → x.policy = key →
    ∃ before tx after, e = .accepted before tx after ∧ Fits chain pre e x p before after
  vaults : ∀ {k v}, L.program k = some (.vault v) → v.policyHash = p.policyHash →
    Scheduled tr L.program p.genesisTs k v
  /-- Reports, proposals and rotations move no tokens and change market inputs only. -/
  unmoved : ∀ {tx L'}, process chain L tx = .ok L' → tx.instruction.oracle →
    L'.tokens = L.tokens ∧ ∀ k, (∀ m, L.program k ≠ some (.market m)) → L'.program k = L.program k

section Results

variable {chain : Chain} {external : Ledger Stored → Tokens → Prop}
  {tr pre post : List (Event Stored Instruction)} {e : Event Stored Instruction}
  {L L' : Ledger Stored} {key : Pubkey} {p : PolicyWindow} {x : Payment}

theorem oracle_unmoved {tx : Tx Instruction} (h : process chain L tx = .ok L')
    (ho : tx.instruction.oracle) :
    L'.tokens = L.tokens ∧
      ∀ k, (∀ m, L.program k ≠ some (.market m)) → L'.program k = L.program k := by
  obtain ⟨now, signers, instr⟩ := tx
  have hwrite : ∀ {i m m'}, L.program i = some (.market m) → L.write i (.market m') = L' →
      L'.tokens = L.tokens ∧
        ∀ k, (∀ m, L.program k ≠ some (.market m)) → L'.program k = L.program k := by
    rintro i m m' hm rfl
    exact ⟨rfl, fun k hk ↦ Ledger.write_program_of_ne fun heq ↦ hk m (heq ▸ hm)⟩
  cases instr with
  | reportVolume k eligibleVolume =>
    obtain ⟨m, m', hr, hw⟩ := process_reportVolume h
    exact hwrite hr.market hw
  | proposeOracle k newOracle =>
    obtain ⟨m, m', hr, hw⟩ := process_proposeOracle h
    exact hwrite hr.market hw
  | executeOracleRotation k =>
    obtain ⟨m, m', hr, hw⟩ := process_executeOracleRotation h
    exact hwrite hr.market hw
  | _ => exact absurd ho (by simp [Instruction.oracle])

theorem exists_of_payment (h : payment e = some x) :
    ∃ before tx after, e = .accepted before tx after := by
  cases e with
  | accepted before tx after => exact ⟨before, tx, after, rfl⟩
  | external before tokens => exact absurd h (by simp [payment])

theorem fits (h : Reachable (program chain external) tr L) (hs : Separate chain L.program)
    (hc : (times tr).Pairwise (· ≤ ·)) (hp : L.program key = some (.policy p))
    (htr : tr = pre ++ e :: post) (hx : payment e = some x) (hkey : x.policy = key) :
    ∃ before tx after, e = .accepted before tx after ∧ Fits chain pre e x p before after := by
  obtain ⟨before, tx, after, rfl⟩ := exists_of_payment hx
  obtain ⟨L₀, h₀, hrun⟩ := h
  rw [htr] at hrun
  obtain ⟨hpre, hprocess, hpost⟩ := hrun.split
  have hgrows : Grows after.program L.program := hpost.persists fun hq ↦ (process_keeps hq).persists
  have hs' : Separate chain after.program := hs.of_grows hgrows
  have hgrows₀ : Grows before.program after.program := (process_keeps hprocess).persists
  rw [htr, List.append_cons, times_append, List.pairwise_append, times_append,
    List.pairwise_append] at hc
  obtain ⟨⟨hcpre, -, hcx⟩, -, -⟩ := hc
  obtain ⟨hnow, period, q, q', m, v, v', hm⟩ := payment_moment hprocess hx
  have hclock : ∀ t ∈ times pre, t ≤ x.now := by
    intro t ht
    rw [hnow]
    exact hcx t ht tx.now (by simp)
  have hbook : Books chain pre before.program :=
    books ⟨L₀, h₀, hpre⟩ (hs'.of_grows hgrows₀) hcpre
  have hbook' : Books chain (pre ++ [.accepted before tx after]) after.program :=
    hbook.accepted hprocess hs' fun t ht ↦ hcx t ht tx.now (by simp)
  -- The policy of this moment has the terms it will always have.
  have hterms : q.terms = p.terms := by
    obtain ⟨q₁, hq₁, ht₁⟩ := hgrows₀.policy hm.policy
    obtain ⟨q₂, hq₂, ht₂⟩ := hgrows.policy hq₁
    rw [hkey, hp] at hq₂
    obtain rfl := Stored.policy.inj (Option.some.inj hq₂)
    exact (ht₂.trans ht₁).symm
  have hgenesis : q.genesisTs = p.genesisTs := (congrArg PolicyWindow.genesisTs hterms :)
  have hhash : q.policyHash = p.policyHash := (congrArg PolicyWindow.policyHash hterms :)
  have hinputs : q.inputs m x.now = p.inputs m x.now := by
    have h₁ : q.hardCeiling = p.hardCeiling := (congrArg PolicyWindow.hardCeiling hterms :)
    have h₂ : q.silenceFloor = p.silenceFloor := (congrArg PolicyWindow.silenceFloor hterms :)
    have h₃ : q.silenceGraceSeconds = p.silenceGraceSeconds :=
      (congrArg PolicyWindow.silenceGraceSeconds hterms :)
    rw [PolicyWindow.inputs, h₁, h₂, h₃]
    rfl
  have hbefore : Separate chain before.program := hs'.of_grows hgrows₀
  have hown := hbefore.policy_eq ⟨_, _, hm.vault, rfl⟩ hm.policy (hbook.sound hm.policy)
    hm.policySeeds
  have hmarket := hbefore.market_eq ⟨_, _, hm.vault, rfl⟩ hm.market (hbook.sound hm.market)
    hm.marketSeeds
  obtain ⟨capacity, hcapacity, hfits⟩ := hm.debited.window
  obtain ⟨hcount, -⟩ := windowCapacity_le hcapacity
  have hpolicyBook : PolicyBook pre x.policy q := hbook.book hm.policy
  have hpolicyBook' : PolicyBook (pre ++ [.accepted before tx after]) x.policy q' :=
    hbook'.book hm.policyAfter
  obtain ⟨pk, genesis, hvaultBook⟩ := hbook.book hm.vault
  obtain ⟨pk', genesis', hvaultBook'⟩ := hbook'.book hm.vaultAfter
  refine ⟨before, tx, after, rfl, ?_, ?_, hbook.book hm.market hcount, v, ?_⟩
  · have hcur : q'.currentPeriodIndex = period :=
      hm.debited.policyPeriod (hm.current ▸ Meter.le hpolicyBook fun y hy ↦
        period_le hclock y (mem_paymentsOn.mp hy).1)
    have hgenesis' : q'.genesisTs = q.genesisTs :=
      (congrArg PolicyWindow.genesisTs hm.debited.terms.1 :)
    have hused := hpolicyBook'.used
    rw [hgenesis', hgenesis, hcur, hm.current, hgenesis] at hused
    rw [hinputs] at hcapacity
    exact ⟨q', m, capacity, hm.policyAfter, hm.market, by rw [hmarket, ← hown, hhash], hcapacity,
      hused, by rw [hcur, hm.current, hgenesis], hfits,
      (windowCapacity_le hcapacity).2⟩
  · -- The vault belongs to the policy, before and after.
    obtain ⟨r, hr, hrhash, rfl⟩ := hvaultBook.home
    obtain ⟨-, rfl⟩ := policy_key hbook.sound hr hm.policy (hrhash.trans hown.symm)
    obtain ⟨r', hr', hrhash', rfl⟩ := hvaultBook'.home
    have hvhash : v'.policyHash = v.policyHash :=
      (congrArg CovenantVault.policyHash hm.debited.terms.2 :)
    have hqhash : q'.policyHash = r.policyHash :=
      (congrArg PolicyWindow.policyHash hm.debited.terms.1 :)
    obtain ⟨-, rfl⟩ := policy_key hbook'.sound hr' hm.policyAfter
      (hrhash'.trans (hvhash.trans (hown.symm.trans hqhash.symm)))
    have hcur : v'.currentPeriodIndex = period :=
      hm.debited.vaultPeriod (hm.current ▸ hvaultBook.meter.le fun y hy ↦
        period_le hclock y (mem_paymentsFrom.mp hy).1)
    have hgenesis' : r'.genesisTs = r.genesisTs :=
      (congrArg PolicyWindow.genesisTs hm.debited.terms.1 :)
    have hused := hvaultBook'.meter.used
    rw [hgenesis', hgenesis, hcur, hm.current, hgenesis] at hused
    exact ⟨v', hm.vaultAfter, hused⟩
  · obtain ⟨account, hseeds, htransfer⟩ := hm.transfer
    exact ⟨account, hm.vault, hseeds, htransfer⟩

theorem scheduled (h : Books chain tr L.program) (hp : L.program key = some (.policy p))
    {k : Pubkey} {v : CovenantVault} (hv : L.program k = some (.vault v))
    (hhash : v.policyHash = p.policyHash) : Scheduled tr L.program p.genesisTs k v := by
  obtain ⟨pk, genesis, hb⟩ := h.book hv
  obtain ⟨q, hq, hqhash, rfl⟩ := hb.home
  obtain ⟨rfl, rfl⟩ := policy_key h.sound hq hp (hqhash.trans hhash)
  refine {
    counter := hb.meter.used
    capped := fun j ↦ hb.share ▸ hb.capped j
    deposit := hb.total ▸ hb.deposit
    cliff := hb.cliff
    backed := fun hkind x hx ↦ ?_ }
  obtain ⟨a, ha⟩ := hb.noticed hkind x hx
  obtain ⟨i, hi⟩ := ha.stored
  have hvault : a.vault = k := ha.vault.trans (mem_paymentsFrom.mp hx).2
  obtain ⟨-, hbook⟩ := hb.approval hi hvault
  obtain ⟨e, he, hw⟩ := hbook.written
  refine ⟨a, { ha with written := ⟨i, e, he, hw⟩, earlier := ha.period ▸ hbook.later, need := ?_ }⟩
  rw [← ha.period, ← ha.vault, ← hbook.consumed]
  exact hbook.need

theorem members (h : Books chain tr L.program) (hp : L.program key = some (.policy p))
    (hx : x ∈ payments tr) :
    x.policy = key ↔ ∃ v, L.program x.vault = some (.vault v) ∧ v.policyHash = p.policyHash := by
  obtain ⟨-, v, hv⟩ := h.paid x hx
  obtain ⟨pk, genesis, hb⟩ := h.book hv
  obtain ⟨q, hq, hqhash, rfl⟩ := hb.home
  have hpk : x.policy = pk := hb.under x (mem_paymentsFrom.mpr ⟨hx, rfl⟩)
  constructor
  · rintro rfl
    rw [hpk] at hp
    obtain rfl := Stored.policy.inj (Option.some.inj (hq.symm.trans hp))
    exact ⟨v, hv, hqhash.symm⟩
  · rintro ⟨w, hw, hhash⟩
    obtain rfl := Stored.vault.inj (Option.some.inj (hv.symm.trans hw))
    rw [hpk]
    exact (policy_key h.sound hq hp (hqhash.trans hhash)).1

/-- Every run on a policy keeps within its window, its schedules and its approvals. -/
theorem window (h : Reachable (program chain external) tr L) (hs : Separate chain L.program)
    (hc : (times tr).Pairwise (· ≤ ·)) (hp : L.program key = some (.policy p)) :
    Window chain tr L key p where
  members _ hx := members (books h hs hc) hp hx
  releases htr hx hkey := fits h hs hc hp htr hx hkey
  vaults hv hhash := scheduled (books h hs hc) hp hv hhash
  unmoved := oracle_unmoved

end Results

/-! ## A policy with a vault of each kind -/

namespace Sample

def authority : Pubkey := repeated 1
def mint : Pubkey := repeated 3
def depositor : Pubkey := repeated 6
def oracle : Pubkey := repeated 10
def beneficiary : Pubkey := repeated 32
def approver : Pubkey := repeated 35
def payee : Pubkey := repeated 36
/-- The token accounts of the depositor, the beneficiary and the payee. -/
def source : Pubkey := repeated 29
def beneficiaryToken : Pubkey := repeated 34
def payeeToken : Pubkey := repeated 37
def policySpecHash : Bytes32 := repeated 66

def policyHash : Bytes32 :=
  spelled 0x1844ac52101fe8de3cae38a9f87e7213319264070f4af82c10d1185dac8233ea
def policy : Pubkey := spelled 0x5d3622699e6d92c145aa6bb49ae0e044a4d08513c96c5d3d5ea593e447c93a30
def market : Pubkey := spelled 0xf4f231c8dcbaf4d112a2425678711b50fec75964a1b9f771dd8c9199d522d924
/-- The vaults of the beneficiary and of the purpose, and their token accounts. -/
def personal : Pubkey := spelled 0xef7b227b8b109b81cb47b9894b67ccf4a148dc5c98035b47bc4f225e73619f46
def personalToken : Pubkey :=
  spelled 0xde0ae1bd2a111b93b11cbdc886affa195aa7852f5a87413f27d844d3a7a339c1
def common : Pubkey := spelled 0x2fe1237d0822efaa175fa9624f77e2c2daf6fd8926aa6939ce204c00b6f40c20
def commonToken : Pubkey :=
  spelled 0x16ef8fb3d21fd9d5056889b83936a94450ceafbe7e4b2e7c3faf23672bf83062
def approval : Pubkey := spelled 0x263bdf69cb8c929a40287cac6d592caf52e572516bb5c673c3b82894bed881ba

def searches : List Search := [
  ⟨(policySeeds policyHash).flatten, ID, [
    spelled 0xfdfcd723eebbfed83c13596b6b6883ac0aa44cf1865109a0d668924e10b8568f,
    spelled 0x862e6856480869a8f47defbfae6445b755b9cea682245fefe690fe9bf811e1da],
    policy⟩,
  ⟨(marketSeeds policyHash).flatten, ID, [
    spelled 0x6eb2bf52e3556cee01c8981853ddc3f0e85500e4283f538acab48f021df36df3,
    spelled 0x05ae0a61e58cb2ee2cb76abe372001d55eafafeea966b620ecd4891f45be7a21],
    market⟩,
  ⟨(vaultSeeds policyHash .Beneficiary beneficiary mint).flatten, ID, [
    spelled 0x4f32e9279acec7e8c22ccac9742b1896fde5579c1819cd108aee592e41df6b3f,
    spelled 0xc159d66e4acac80c18f5822ec80316df38e4291a8ff7958dad740acd8c3585e1],
    personal⟩,
  ⟨(tokenSeeds personal).flatten, ID, [
    spelled 0x2fa6c1e08bedbe7fea51337d1900d33c81789c26fde7f7b64f1b7b3cf25ddafe],
    personalToken⟩,
  ⟨(vaultSeeds policyHash .Purpose approver mint).flatten, ID, [
    spelled 0xa0d1397e1719abba8144de89d318f465f0452449aede83ef3d9170d6c6f1ffa4,
    spelled 0x5dbee258fcd7a9eaf64c1d311738d1e5e86e55058abb636e4b33a5449fc586ea],
    common⟩,
  ⟨(tokenSeeds common).flatten, ID, [],
    commonToken⟩,
  ⟨(approvalSeeds common 25).flatten, ID, [],
    approval⟩]

/-- What else is hashed: the terms of the policy. -/
def digests : List (Bytes × Bytes32) := [
  (ascii "k4v-policy-authority-v1" ++ ID.bytes ++ authority.bytes ++ mint.bytes ++
    policySpecHash.bytes, policyHash)]

def chain : Chain := searchChain searches digests

def tokenAccount (owner : Pubkey) (amount : ℕ) : TokenAccount where
  mint
  owner
  amount
  delegate := none
  state := .initialized
  isNative := none
  delegatedAmount := 0
  closeAuthority := none

def genesis : Ledger Stored where
  program _ := none
  tokens := {
    account := fun k ↦
      if k = source then some (tokenAccount depositor 3600000)
      else if k = beneficiaryToken then some (tokenAccount beneficiary 0)
      else if k = payeeToken then some (tokenAccount payee 0)
      else none
    mint := fun k ↦ if k = mint then some {
      mintAuthority := none, supply := 3600000, decimals := 9, isInitialized := true
      freezeAuthority := none } else none }

/-- The policy opens with a silence floor of 3000, after half a year. -/
def opening : Tx Instruction :=
  ⟨clockAt 1000, [authority], .openPolicy { authority, oracle, mint, policy, market } {
    policySpecHash, marketCapacityBps := 250, maxAgeSeconds := clockAt 259200
    hardCeiling := 12000, silenceFloor := 3000, silenceGraceSeconds := clockAt 15552000 }⟩

def report (now : UInt32) (oracle : Pubkey) (eligibleVolume : U64) : Tx Instruction :=
  ⟨clockAt now, [oracle], .reportVolume { oracle, market } eligibleVolume⟩

def deposit (kind : VaultKind) (authority' vault vaultToken : Pubkey) (amount : U64)
    (cliffSeconds : UInt32) : Tx Instruction :=
  ⟨clockAt 1000, [depositor, authority], .deposit {
    depositor, policyAuthority := authority, authority := authority', mint, depositorToken := source
    policy, vault, vaultToken } {
    kind, amount, annualReleaseBps := 500, cliffSeconds := clockAt cliffSeconds }⟩

def approve : Tx Instruction :=
  ⟨clockAt 2000, [approver], .approve {
    approver, mint, vault := common, policy, destination := payeeToken, approval } 25 4000⟩

def releasePersonal (now : UInt32) (amount : U64) : Tx Instruction :=
  ⟨clockAt now, [beneficiary], .releaseBeneficiary {
    authority := beneficiary, mint, vault := personal, policy, market, vaultToken := personalToken
    destination := beneficiaryToken } amount⟩

def releaseCommon (now : UInt32) (amount : U64) : Tx Instruction :=
  ⟨clockAt now, [approver], .releasePurpose {
    authority := approver, mint, vault := common, policy, market, vaultToken := commonToken
    destination := payeeToken } approval amount⟩

/-- Both vaults are funded, and one release is approved for period 25. -/
def funding : List (Tx Instruction) := [
  opening,
  deposit .Beneficiary beneficiary personal personalToken 2400000 63072000,
  deposit .Purpose approver common commonToken 1200000 0,
  approve]

/-- Two releases share the window of period 25; the next period opens a smaller one. -/
def transactions : List (Tx Instruction) := funding ++ [
  report 64801000 oracle 400000,
  releasePersonal 64801000 6000,
  releaseCommon 64801000 4000,
  report 67393000 oracle 360000,
  releasePersonal 67393000 9000]

def run : List (Event Stored Instruction) × Ledger Stored :=
  replay (program chain (Anchor.market chain ID)) genesis transactions

/-- Every account of a run on this platform names the one policy. -/
theorem separate {external : Ledger Stored → Tokens → Prop}
    {tr : List (Event Stored Instruction)} {L : Ledger Stored}
    (h : Reachable (program chain external) tr L)
    (hall : ∀ key ∈ unlisted :: searches.map Search.key,
      ((L.program key).bind Stored.policyHash?).getD policyHash = policyHash) :
    Separate chain L.program := by
  have hone : ∀ {h}, Names L.program h → h = policyHash := by
    rintro h' ⟨key, a, ha, hh⟩
    have hmem := programAddress_mem ((reachable_sound h).canonical ha).programAddress
    have hkey := hall key hmem
    rwa [ha, Option.bind_some, hh, Option.getD_some] at hkey
  exact ⟨fun hn hn' _ _ ↦ (hone hn).trans (hone hn').symm,
    fun hn hn' _ _ ↦ (hone hn).trans (hone hn').symm⟩

end Sample

theorem window_sample : ∃ p, Sample.run.2.program Sample.policy = some (.policy p) ∧
    (paymentsOn Sample.policy Sample.run.1).length = 3 ∧
      Window Sample.chain Sample.run.1 Sample.run.2 Sample.policy p := by
  have hpolicy : ((Sample.run.2.program Sample.policy).bind Stored.policy?).isSome := by
    decide +kernel
  obtain ⟨p, hp⟩ := Option.isSome_iff_exists.mp hpolicy
  obtain ⟨a, ha, hap⟩ := Option.bind_eq_some_iff.mp hp
  obtain rfl := Stored.policy?_eq_some.mp hap
  have hrun : Reachable (program Sample.chain (Anchor.market Sample.chain ID)) Sample.run.1
      Sample.run.2 := ⟨Sample.genesis, fun _ ↦ rfl, replay_run _ _ _⟩
  have hclocked : Clocked Sample.run.1 := replay_clocked (by decide) (by decide)
  exact ⟨p, ha, by decide +kernel,
    window hrun (Sample.separate hrun (by decide +kernel)) hclocked.sorted ha⟩

end FundingVaults.PurposeVault
