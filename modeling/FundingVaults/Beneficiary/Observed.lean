import FundingVaults.Beneficiary.Schedule
import FundingVaults.Beneficiary.Verifier
import FundingVaults.Verifier.Curve

/-!
# Observing a beneficiary vault

The exporter and the verifier against the program: the snapshot of every reachable vault is made
and has no finding, except that the verifier does not support wrapped SOL; the surplus it reports is
what was donated, and what it reports as releasable is exactly what the program still releases.

What the verifier says about the token account needs more than what the program relies on: a
transfer changes nothing of an account without a delegate but its amount, and others do no more
than pay in.
-/

namespace FundingVaults

/-- A transfer changes nothing but the amount of an account without a delegate. -/
theorem Tokens.transferChecked_amount {T T' : Tokens} {t : TransferChecked} {key : Pubkey}
    {a : TokenAccount} (ht : T.transferChecked t = some T') (ha : T.account key = some a)
    (hd : a.delegate = none) : ∃ n, T'.account key = some { a with amount := n } := by
  obtain ⟨s, b, m, x, hs, hb, -, -, hx, rfl⟩ := transferChecked_eq_some.mp ht
  split
  · exact ⟨a.amount, ha⟩
  by_cases hdest : key = t.destination
  · subst hdest
    obtain rfl := Option.some.inj (ha.symm.trans hb)
    exact ⟨a.amount + t.amount, by simp [TokenAccount.credit]⟩
  by_cases hsource : key = t.source
  · subst hsource
    obtain rfl := Option.some.inj (ha.symm.trans hs)
    have hdebit : (if a.owner = t.authority then some { a with amount := a.amount - t.amount }
        else none) = some x := by simpa [TokenAccount.debit, hd] using hx
    obtain ⟨-, hdebit⟩ := Option.ite_none_right_eq_some.mp hdebit
    exact ⟨a.amount - t.amount, by simp [hdest, ← Option.some.inj hdebit]⟩
  · exact ⟨a.amount, by simp [hdest, hsource, ha]⟩

namespace Anchor

variable {α ι ε : Type}

/-- Others do no more to an account in the hands of an address of the program than pay into it. -/
def PaysIn (P : Program α ι ε) (id : Pubkey) : Prop :=
  ∀ {L tokens key mint owner a}, P.external L tokens → ProgramAddress P.toChain id owner →
    L.tokens.Unfreezable mint → L.tokens.account key = some a → a.SoleOwner mint owner →
      ∃ n, tokens.account key = some (a.credit n)

end Anchor

namespace Beneficiary

open Anchor Verifier

/-! ## Token accounts as they were created -/

/-- The token account of every vault is as it was created, up to its amount. -/
structure Pristine (chain : Chain) (L : Ledger BeneficiaryVault) : Prop where
  created : ∀ {key v a}, L.program key = some v →
    L.tokens.account (vaultToken chain key) = some a →
    a.isNative = nativeReserve v.mint ∧ a.delegatedAmount = 0

section Runs

variable {chain : Chain} {external : Ledger BeneficiaryVault → Tokens → Prop}
  {L L' : Ledger BeneficiaryVault} {now : I64} {signers : List Pubkey} {amount : U64}
  {v : BeneficiaryVault} {key : Pubkey} {tr : List (Event BeneficiaryVault Instruction)}
  {tokens : Tokens}

theorem Kept.account (h : Kept chain tr L key v) : ∃ a,
    L.tokens.account (vaultToken chain key) = some a ∧ a.SoleOwner v.mint key := by
  obtain ⟨-, -, -, -, -, -, a, ha, hown, -⟩ := h.born
  exact ⟨a, ha, hown⟩

/-- A transfer keeps the token account of a vault. -/
theorem Pristine.transfer {w : BeneficiaryVault} {t : TransferChecked} {a : TokenAccount}
    (h : Pristine chain L) (hv : L.program key = some v) (hk : Kept chain tr L key v)
    (ht : L.tokens.transferChecked t = some tokens) (hw : w.mint = v.mint)
    (ha : tokens.account (vaultToken chain key) = some a) :
    a.isNative = nativeReserve w.mint ∧ a.delegatedAmount = 0 := by
  obtain ⟨b, hb, hown⟩ := hk.account
  obtain ⟨n, hn⟩ := Tokens.transferChecked_amount ht hb hown.delegate
  obtain rfl := Option.some.inj (ha.symm.trans hn)
  rw [hw]
  exact (h.created hv hb :)

theorem Pristine.accepted {tx : Tx Instruction} (h : Pristine chain L)
    (hd : chain.transferChecked = Tokens.transferChecked) (hacc : Accounted chain tr L)
    (hp : process chain L tx = .ok L') : Pristine chain L' := by
  obtain ⟨now, signers, instr⟩ := tx
  refine ⟨fun {key w a} hw ha ↦ ?_⟩
  cases instr with
  | deposit k amount bps cliffSeconds policyHash =>
    obtain ⟨v, tokens, hdep, rfl⟩ := process_deposit.mp hp
    have ht := hdep.transfer
    rw [hd] at ht
    by_cases hkey : key = k.vaultState
    · subst hkey
      obtain rfl : v = w := by simpa using hw
      have htoken : vaultToken chain k.vaultState = k.vaultToken := by rw [vaultToken, hdep.token]
      obtain ⟨cap, cliffEndTs, -, -, -, hv⟩ := hdep.created
      have hmint : v.mint = k.mint := (congrArg BeneficiaryVault.mint hv :)
      obtain ⟨n, hn⟩ := Tokens.transferChecked_amount ht (Function.update_self ..) rfl
      rw [htoken] at ha
      obtain rfl := Option.some.inj (ha.symm.trans hn)
      rw [hmint]
      exact ⟨rfl, rfl⟩
    · rw [Ledger.write_program_of_ne hkey] at hw
      obtain ⟨b, hb, hown⟩ := (hacc.kept key w hw).account
      have hne : vaultToken chain key ≠ k.vaultToken := by
        intro heq
        rw [heq, (Ledger.vacant_iff.mp hdep.tokenVacant).2.1] at hb
        exact absurd hb (by simp)
      have hb' : (L.createToken k.vaultToken k.mint k.vaultState).tokens.account
          (vaultToken chain key) = some b := (Function.update_of_ne hne _ _).trans hb
      obtain ⟨n, hn⟩ := Tokens.transferChecked_amount ht hb' hown.delegate
      obtain rfl := Option.some.inj (ha.symm.trans hn)
      exact (h.created hw hb :)
  | release k amount =>
    obtain ⟨v, v', tokens, hrel, rfl⟩ := process_release.mp hp
    have ht := hrel.transfer
    rw [hd] at ht
    by_cases hkey : key = k.vaultState
    · subst hkey
      obtain rfl : v' = w := by simpa using hw
      have hmint : v'.mint = v.mint := (congrArg BeneficiaryVault.mint hrel.terms :)
      exact h.transfer hrel.vault (hacc.kept _ _ hrel.vault) ht hmint ha
    · rw [Ledger.write_program_of_ne hkey] at hw
      exact h.transfer hw (hacc.kept _ _ hw) ht rfl ha

theorem pristine (hd : Lawful (program chain external) ID)
    (hp : PaysIn (program chain external) ID) (h : Reachable (program chain external) tr L)
    (hs : Unsigned chain ID tr) (hc : Clocked tr) : Pristine chain L := by
  obtain ⟨L₀, h₀, hrun⟩ := h
  induction hrun with
  | refl =>
    refine ⟨fun {key v a} hv ↦ ?_⟩
    rw [h₀ key] at hv
    exact absurd hv (by simp)
  | accepted hr hproc ih =>
    have hacc := accounted hd ⟨L₀, h₀, hr⟩ hs.of_append hc.of_append
    exact (ih hs.of_append hc.of_append).accepted hd.transfer hacc hproc
  | rejected _ _ ih => exact ih hs hc
  | external hr he ih =>
    have hacc := accounted hd ⟨L₀, h₀, hr⟩ hs.of_append hc.of_append
    refine ⟨fun {key v a} hv ha ↦ ?_⟩
    obtain ⟨b, hb, hown⟩ := (hacc.kept key v hv).account
    obtain ⟨m, hm, hi, hf, -⟩ := (hacc.kept key v hv).mint
    obtain ⟨n, hn⟩ := hp he (hacc.sound.canonical hv).programAddress ⟨m, hm, hi, hf⟩ hb hown
    obtain rfl := Option.some.inj (ha.symm.trans hn)
    exact ((ih hs.of_append hc.of_append).created hv hb :)

/-! ## Reachable vaults are in order -/

/-- The terms of a vault are as its deposit required. -/
theorem Born.order {e : Event BeneficiaryVault Instruction} (h : Born chain key v e) :
    v.policyHash ≠ Bytes32.zero ∧ 0 < v.depositedAmount.val ∧ 1 ≤ v.annualReleaseBps.val ∧
      v.annualReleaseBps.val ≤ MAX_ANNUAL_RELEASE_BPS.val ∧ 0 < v.monthlyCap.val ∧
      MIN_CLIFF_SECONDS ≤ v.cliffEndTs.val - v.genesisTs.val ∧ v.genesisTs ∈ times [e] := by
  obtain ⟨before, now, signers, k, amount, bps, cliffSeconds, policyHash, tokens, after, rfl, rfl,
    h⟩ := h
  obtain ⟨cap, cliffEndTs, -, hcap, hend, hv⟩ := h.created
  have hhash : v.policyHash = policyHash := (congrArg BeneficiaryVault.policyHash hv :)
  have hdep : v.depositedAmount = amount := (congrArg BeneficiaryVault.depositedAmount hv :)
  have hbps : v.annualReleaseBps = bps := (congrArg BeneficiaryVault.annualReleaseBps hv :)
  have hcap' : v.monthlyCap = cap := (congrArg BeneficiaryVault.monthlyCap hv :)
  have hend' : v.cliffEndTs = cliffEndTs := (congrArg BeneficiaryVault.cliffEndTs hv :)
  have hgenesis : v.genesisTs = now := (congrArg BeneficiaryVault.genesisTs hv :)
  have hcliff := h.cliff
  rw [hhash, hdep, hbps, hcap', hend', hgenesis]
  exact ⟨h.hash, h.positive, h.rate.1, h.rate.2, hcap, by omega, by simp⟩

/-- No period of a vault lies in the future. -/
theorem Kept.current_le (h : Kept chain tr L key v) (hclock : ∀ t ∈ times tr, t ≤ now) :
    v.currentPeriodIndex.val ≤ FundingVaults.periodOf v.cliffEndTs now := by
  rcases h.current with h₀ | ⟨x, hx, hcur⟩
  · rw [h₀]
    exact Nat.zero_le _
  · rw [← hcur]
    exact periodOf_mono (hclock _ (now_mem_times hx))

theorem Kept.inOrder {a : TokenAccount} (h : Kept chain tr L key v) (hp : Pristine chain L)
    (hv : L.program key = some v) (hclock : ∀ t ∈ times tr, t ≤ now)
    (ha : L.tokens.account (vaultToken chain key) = some a) (hfits : a.amount < 2 ^ 64) :
    InOrder key v a now := by
  obtain ⟨pre, e, post, rfl, hborn, -, b, hb, hown, hbal⟩ := h.born
  obtain rfl := Option.some.inj (hb.symm.trans ha)
  obtain ⟨hhash, hdeposit, hbps, hbps', hcap, hcliff, hgenesis⟩ := hborn.order
  refine {
    hash := hhash
    deposit := hdeposit
    rate := ⟨hbps, hbps'⟩
    cap := hborn.cap_cliff.1
    positive := hcap
    cliff := hcliff
    period := ?_
    total := h.deposit
    funded := by omega
    fits := hfits
    owned := hown
    undelegated := (hp.created hv hb).2
    genesis := hclock _ ?_
    early := fun hnow ↦ ?_
    current := fun _ ↦ h.current_le hclock }
  · rw [Fin.le_def, h.counts.used]
    exact h.capped _
  · rw [List.append_cons, times_append, times_append]
    exact List.mem_append_left _ (List.mem_append_right _ hgenesis)
  · -- A release before the cliff would be a release in the future.
    have hnone : payments key (pre ++ e :: post) = [] := by
      refine List.eq_nil_iff_forall_not_mem.mpr fun x hx ↦ ?_
      have hle := hclock _ (now_mem_times hx)
      have hge := h.cliff x hx
      rw [I64.le_iff] at hle hge
      rw [I64.lt_iff] at hnow
      omega
    have htotal := h.total
    rw [hnone] at htotal
    exact Fin.ext htotal

/-- What the counters of a vault leave is what its history leaves. -/
theorem Kept.releasable_eq (h : Kept chain tr L key v) (hclock : ∀ t ∈ times tr, t ≤ now)
    (hcliff : v.cliffEndTs ≤ now) : v.releasable now = min
      (v.monthlyCap.val - spentIn v.periodOf Payment.weight
        (FundingVaults.periodOf v.cliffEndTs now) (payments key tr))
      (v.depositedAmount.val - spent Payment.weight (payments key tr)) := by
  rw [BeneficiaryVault.releasable, if_neg (I64.not_lt.mpr hcliff),
    ← h.counts.rolled (h.current_le hclock), ← h.total]

/-! ## The report -/

/-- What the verifier reports about the vault `v` at `key`. -/
structure Reported (chain : Chain) (tr : List (Event BeneficiaryVault Instruction))
    (L : Ledger BeneficiaryVault) (key : Pubkey) (v : BeneficiaryVault) (now : I64)
    (r : Verification) : Prop where
  reasons : r.reasons = if v.mint = NATIVE_MINT then [.NATIVE_TOKEN_ACCOUNT_UNSUPPORTED] else []
  valid : r.valid ↔ v.mint ≠ NATIVE_MINT
  surplus : ∃ pre e post, tr = pre ++ e :: post ∧ Born chain key v e ∧
    (∀ x ∈ pre ++ post, ¬ Creates key x) ∧
    r.tokenSurplusAmount = donations (vaultToken chain key) post
  early : now < v.cliffEndTs → r.currentlyReleasableAmount = 0
  releasable : ∀ (signers : List Pubkey) (destination : Pubkey) (t : TokenAccount) (amount : U64),
    v.beneficiary ∈ signers → L.tokens.account destination = some t → t.state = .initialized →
    t.mint = v.mint → t.owner = v.beneficiary →
    ((∃ L', process chain L ⟨now, signers, .release (.at chain key v destination) amount⟩ =
        .ok L') ↔ 0 < amount.val ∧ (amount.val : ℤ) ≤ r.currentlyReleasableAmount)

theorem nativeReserve_isSome {mint : Pubkey} :
    (nativeReserve mint).isSome ↔ mint = NATIVE_MINT := by
  unfold nativeReserve
  split <;> simp_all

/-- A release is accepted if and only if its amount is at most what the counters leave. -/
theorem Kept.accepts_iff {t : TokenAccount} {destination : Pubkey} (h : Kept chain tr L key v)
    (hd : chain.transferChecked = Tokens.transferChecked)
    (hcanonical : Canonical chain ID key v) (hv : L.program key = some v) (hc : Clocked tr)
    (hclock : ∀ t ∈ times tr, t ≤ now) (hsigned : v.beneficiary ∈ signers)
    (ht : L.tokens.account destination = some t) (hstate : t.state = .initialized)
    (hmint : t.mint = v.mint) (howner : t.owner = v.beneficiary) :
    (∃ L', process chain L ⟨now, signers, .release (.at chain key v destination) amount⟩ = .ok L') ↔
      0 < amount.val ∧ amount.val ≤ v.releasable now := by
  by_cases hcliff : now < v.cliffEndTs
  · rw [BeneficiaryVault.releasable, if_pos hcliff]
    constructor
    · rintro ⟨L', hL'⟩
      obtain ⟨w, w', tokens, hrel, -⟩ := process_release.mp hL'
      obtain rfl := Option.some.inj (hv.symm.trans hrel.vault)
      exact absurd hcliff (I64.not_lt.mpr hrel.cliff)
    · rintro ⟨hpos, hle⟩
      omega
  · have hcliff' := I64.not_lt.mp hcliff
    have hspan : now.val - v.cliffEndTs.val < 2 ^ 63 := by
      obtain ⟨pre, e, post, rfl, hborn, -⟩ := h.born
      obtain ⟨-, t₀, ht₀, hle⟩ := hborn.cap_cliff
      have hmem : t₀ ∈ times (pre ++ e :: post) := by
        rw [List.append_cons, times_append, times_append]
        exact List.mem_append_left _ (List.mem_append_right _ ht₀)
      have hnonneg := hc.nonneg t₀ hmem
      have := now.lt
      rw [I64.le_iff] at hnonneg hle
      simp only [I64.val_zero] at hnonneg
      omega
    rw [h.releasable_eq hclock hcliff']
    exact h.release_iff hd hcanonical hv hclock hspan hcliff' hsigned ht hstate hmint howner

/-- What the verifier makes of a reachable vault in order. -/
theorem Kept.reported {a : TokenAccount} (h : Kept chain tr L key v)
    (hd : chain.transferChecked = Tokens.transferChecked)
    (hshares : ∀ seeds ∈ vaultSeeds key v, Shares chain seeds ID)
    (hp : Pristine chain L) (hcanonical : Canonical chain ID key v) (hv : L.program key = some v)
    (hc : Clocked tr) (hclock : ∀ t ∈ times tr, t ≤ now)
    (ha : L.tokens.account (vaultToken chain key) = some a) (hfits : a.amount < 2 ^ 64) :
    Reported chain tr L key v now
      (verifySnapshot chain.sha256 (.of key (vaultToken chain key) v a now)) := by
  obtain ⟨pre, e, post, htr, hborn, honce, b, hb, -, hbal⟩ := h.born
  obtain rfl := Option.some.inj (hb.symm.trans ha)
  rw [verifySnapshot_of (h.inOrder hp hv hclock hb hfits) (find_state hshares hcanonical)
    (find_token hshares hborn.token), (hp.created hv hb).1]
  refine {
    reasons := if_congr nativeReserve_isSome rfl rfl
    valid := ?_
    surplus := ⟨pre, e, post, htr, hborn, honce, ?_⟩
    early := fun hnow ↦ ?_
    releasable := fun signers destination t amount hsigned ht hstate hmint howner ↦ ?_ }
  · rw [← Option.not_isSome, Bool.not_eq_true', ← Bool.not_eq_true, nativeReserve_isSome]
  · change (b.amount + v.releasedTotal.val - v.depositedAmount.val : ℤ) = _
    omega
  · simp [BeneficiaryVault.releasable, hnow]
  · rw [Nat.cast_le]
    exact h.accepts_iff hd hcanonical hv hc hclock hsigned ht hstate hmint howner

variable {getAccountInfo : String → Except String RawAccount}

/-- The snapshot of a reachable vault. -/
theorem Accounted.exported (h : Accounted chain tr L) (hv : L.program key = some v)
    (hshares : ∀ seeds ∈ vaultSeeds key v, Shares chain seeds ID)
    (hr : Serves chain.sha256 getAccountInfo L key (vaultToken chain key) now) :
    ∃ a, L.tokens.account (vaultToken chain key) = some a ∧ a.amount < 2 ^ 64 ∧
      exportSnapshot chain.sha256 getAccountInfo (shown ID) (shown key) =
        .ok (.of key (vaultToken chain key) v a now) := by
  have hkept := h.kept key v hv
  obtain ⟨a, ha, hown⟩ := hkept.account
  obtain ⟨_, _, _, _, hborn, -⟩ := hkept.born
  obtain ⟨_, _, ⟨hfits, -⟩, -⟩ := hr.token ha
  have hstate : a.state ≠ .uninitialized := by simp [hown.state]
  exact ⟨a, ha, hfits, exportSnapshot_eq_ok hshares hr hv (h.sound.canonical hv) hborn.token ha
    hstate⟩

/-- The verifier is complete and exact but for wrapped SOL: the snapshot of every reachable vault
is made, has no other finding, and reports the donations and what the program still releases.  The
platform searches for addresses as documented, and no hash that it passes over for this vault is one
that the verifier takes for another. -/
theorem snapshot_reported (hl : Lawful (program chain external) ID)
    (hp : PaysIn (program chain external) ID) (hsearch : Searches chain.sha256 (searchOf chain))
    (h : Reachable (program chain external) tr L) (hs : Unsigned chain ID tr) (hc : Clocked tr)
    (hv : L.program key = some v) (hplain : ∀ seeds ∈ vaultSeeds key v, PlainAbove chain seeds ID)
    (hclock : ∀ t ∈ times tr, t ≤ now)
    (hr : Serves chain.sha256 getAccountInfo L key (vaultToken chain key) now) :
    ∃ snapshot, exportSnapshot chain.sha256 getAccountInfo (shown ID) (shown key) = .ok snapshot ∧
      Reported chain tr L key v now (verifySnapshot chain.sha256 snapshot) := by
  have hshares : ∀ seeds ∈ vaultSeeds key v, Shares chain seeds ID := fun seeds hseeds ↦
    (hsearch.shares_iff (vaultSeeds_takes seeds hseeds)).mpr (hplain seeds hseeds)
  have hacc := accounted hl h hs hc
  obtain ⟨a, ha, hfits, hexport⟩ := hacc.exported hv hshares hr
  exact ⟨_, hexport, (hacc.kept key v hv).reported hl.transfer hshares (pristine hl hp h hs hc)
    (hacc.sound.canonical hv) hv hc hclock ha hfits⟩

end Runs

/-! ## A vault with a donation -/

theorem market_paysIn {chain : Chain} {id key mint owner : Pubkey} {L : Ledger BeneficiaryVault}
    {tokens : Tokens} {a : TokenAccount} (h : market chain id L tokens)
    (ho : ProgramAddress chain id owner) (ha : L.tokens.account key = some a)
    (hown : a.SoleOwner mint owner) : ∃ n, tokens.account key = some (a.credit n) := by
  obtain ⟨t, ht, hauth⟩ := h
  have hne : t.authority ≠ owner := fun heq ↦ hauth (heq ▸ ho)
  by_cases hdest : t.destination = key
  · subst hdest
    have hsource : t.source ≠ t.destination := by
      intro heq
      obtain ⟨s, b, m, x, hs, -, -, -, hx, -⟩ := Tokens.transferChecked_eq_some.mp ht
      rw [heq, ha] at hs
      obtain rfl := Option.some.inj hs
      simp [TokenAccount.debit, hown.delegate, hown.owner, Ne.symm hne] at hx
    exact ⟨t.amount, Tokens.transferChecked_credit ht ha hsource⟩
  · exact ⟨0, Tokens.transferChecked_account ht ha hown hne hdest⟩

namespace Sample

theorem tabled : Tabled searches digests :=
  ⟨by decide +kernel, by decide +kernel, by decide +kernel⟩

theorem genuine_searches : ∀ s ∈ searches, genuine s = true := by decide +kernel

theorem searches_chain : Searches chain.sha256 (searchOf chain) :=
  searches_searchChain tabled genuine_searches

theorem plain_above (seeds : List Bytes) : PlainAbove chain seeds ID := by
  intro c hc
  obtain ⟨s, hs, hpoint⟩ := (tabled.found seeds ID rfl).2.2 c hc
  exact ((genuine_eq_true (genuine_searches s hs)).1 _ hpoint).2

def holding (mint owner : Pubkey) (amount : ℕ) : TokenAccount :=
  { tokenAccount owner amount with mint, isNative := nativeReserve mint }

/-- The accounts of the depositor and of the beneficiary in a mint. -/
def funds (mint : Pubkey) : Ledger BeneficiaryVault where
  program _ := none
  tokens := {
    account := fun k ↦
      if k = source then some (holding mint depositor 2400500)
      else if k = destination then some (holding mint beneficiary 0)
      else none
    mint := fun k ↦ if k = mint then some {
      mintAuthority := none, supply := 2400500, decimals := 9, isInitialized := true
      freezeAuthority := none } else none }

/-- A deposit and a release in the first period. -/
def first (mint : Pubkey) : List (Event BeneficiaryVault Instruction) × Ledger BeneficiaryVault :=
  replay (program chain (market chain ID)) (funds mint) [
    ⟨clockAt 1000, [depositor, beneficiary], .deposit {
      depositor, beneficiary, mint, depositorToken := source, vaultState := stateOf mint
      vaultToken := tokenOf mint } 2400000 500 (clockAt 63072000) policyHash⟩,
    ⟨clockAt 63073000, [beneficiary], .release {
      beneficiary, mint, vaultState := stateOf mint, vaultToken := tokenOf mint
      beneficiaryToken := destination } 6000⟩]

/-- What the depositor gives. -/
def present (mint : Pubkey) : TransferChecked :=
  { gift with mint, destination := tokenOf mint }

/-- The ledger after the gift. -/
def tokens (mint : Pubkey) : Tokens :=
  ((first mint).2.tokens.transferChecked (present mint)).getD (first mint).2.tokens

/-- The two instructions, and the gift after them. -/
def observed (mint : Pubkey) :
    List (Event BeneficiaryVault Instruction) × Ledger BeneficiaryVault :=
  ((first mint).1 ++ [.external (first mint).2 (tokens mint)],
    { (first mint).2 with tokens := tokens mint })

/-- A client of the ledger. -/
def serve (v : BeneficiaryVault) (a : TokenAccount) (token : Pubkey) (now : I64) (address : String) :
    Except String RawAccount :=
  if address = CLOCK_SYSVAR_ID then
    .ok ⟨SYSVAR_PROGRAM_ID, List.replicate 32 0 ++ now.toLe, false, 0⟩
  else if address = shown token then
    .ok ⟨TOKEN_PROGRAM_ID, (tokenPieces a (List.replicate 32 0) (List.replicate 8 0)
      (List.replicate 32 0)).flatten, false, 0⟩
  else .ok ⟨shown ID, STATE_DISCRIMINATOR chain.sha256 ++ v.serialize, false, 0⟩

theorem serve_serves {L : Ledger BeneficiaryVault} {key token : Pubkey} {v : BeneficiaryVault}
    {a : TokenAccount} {now : I64} (hv : L.program key = some v)
    (ha : L.tokens.account token = some a)
    (hfits : a.amount < 2 ^ 64 ∧ a.delegatedAmount < 2 ^ 64) (hne : key ≠ token)
    (hkey : shown key ≠ CLOCK_SYSVAR_ID) (htoken : shown token ≠ CLOCK_SYSVAR_ID) :
    Serves chain.sha256 (serve v a token now) L key token now where
  vault {w} hw := by
    obtain rfl := Option.some.inj (hv.symm.trans hw)
    exact ⟨0, by rw [serve, if_neg hkey, if_neg (mt shown_inj.mp hne)]⟩
  token {b} hb := by
    obtain rfl := Option.some.inj (ha.symm.trans hb)
    exact ⟨_, 0, ⟨hfits.1, hfits.2, _, _, _, List.length_replicate, List.length_replicate,
      List.length_replicate, rfl⟩, by rw [serve, if_neg htoken, if_pos rfl]⟩
  clock := by
    refine ⟨List.replicate 32 0 ++ now.toLe, 0, ?_, ?_, by rw [serve, if_pos rfl]⟩
    · simp [CLOCK_ACCOUNT_DATA_LEN]
    · exact List.take_of_length_le (I64.toLe_length now).le

/-- A key is not the clock if the numbers differ. -/
theorem shown_ne_clock {k : Pubkey}
    (h : base58Alphabet.number? CLOCK_SYSVAR_ID.toList ≠ some (beNat k.bytes)) :
    shown k ≠ CLOCK_SYSVAR_ID := by
  intro heq
  rw [← heq, shown, number?_encode] at h
  exact h rfl

/-- The time of the last action. -/
def today : I64 := clockAt 63073000

theorem signers_foreign (mint : Pubkey) : Unsigned chain ID (first mint).1 :=
  replay_unsigned (by
    have hsigners : ∀ k ∈ [depositor, beneficiary], k ∉ unlisted :: searches.map Search.key := by
      decide +kernel
    simpa using hsigners)

theorem observed_unsigned (mint : Pubkey) : Unsigned chain ID (observed mint).1 := by
  intro e he tx htx
  rcases List.mem_append.mp he with he | he
  · exact signers_foreign mint e he tx htx
  · rw [List.mem_singleton.mp he] at htx
    exact absurd htx (by simp [Event.tx?])

theorem observed_times (mint : Pubkey) : times (observed mint).1 = times (first mint).1 := by
  simp [observed]

theorem observed_clocked (mint : Pubkey) : Clocked (observed mint).1 := by
  have hfirst : Clocked (first mint).1 :=
    replay_clocked (show ∀ t ∈ [clockAt 1000, today], (0 : I64) ≤ t by decide)
      (show [clockAt 1000, today].Pairwise (· ≤ ·) by decide)
  exact ⟨observed_times mint ▸ hfirst.nonneg, observed_times mint ▸ hfirst.sorted⟩

theorem observed_past (mint : Pubkey) : ∀ t ∈ times (observed mint).1, t ≤ today := by
  intro t ht
  rw [observed_times] at ht
  have hmem : t ∈ [clockAt 1000, today] := (times_replay _ _ _).subset ht
  exact (show ∀ t ∈ [clockAt 1000, today], t ≤ today by decide) t hmem

theorem observed_reachable (mint : Pubkey)
    (hgift : ((first mint).2.tokens.transferChecked (present mint)).isSome) :
    Reachable (program chain (market chain ID)) (observed mint).1 (observed mint).2 := by
  obtain ⟨T, hT⟩ := Option.isSome_iff_exists.mp hgift
  have hauthority : depositor ∉ unlisted :: searches.map Search.key := by decide +kernel
  refine ⟨funds mint, fun _ ↦ rfl, (replay_run _ _ _).external ⟨present mint, ?_, fun hp ↦ ?_⟩⟩
  · rw [tokens, hT, Option.getD_some]
    exact hT
  · exact hauthority (programAddress_mem hp)

theorem lawful : Lawful (program chain (market chain ID)) ID := ⟨rfl, market_respects⟩

theorem paysIn : PaysIn (program chain (market chain ID)) ID :=
  fun h ho _ ha hown ↦ market_paysIn h ho ha hown

/-- What a client serves of the vault in a mint. -/
theorem served (mint : Pubkey)
    (hvault : ((observed mint).2.program (stateOf mint)).map BeneficiaryVault.mint = some mint)
    (htoken : ((observed mint).2.tokens.account (tokenOf mint)).map
      (fun a ↦ (a.amount, a.delegatedAmount)) = some (2394500, 0))
    (hne : stateOf mint ≠ tokenOf mint)
    (hkey : ∀ k ∈ [stateOf mint, tokenOf mint],
      base58Alphabet.number? CLOCK_SYSVAR_ID.toList ≠ some (beNat k.bytes)) :
    ∃ v getAccountInfo, (observed mint).2.program (stateOf mint) = some v ∧ v.mint = mint ∧
      Serves chain.sha256 getAccountInfo (observed mint).2 (stateOf mint) (tokenOf mint) today := by
  obtain ⟨v, hv, hmint⟩ := Option.map_eq_some_iff.mp hvault
  obtain ⟨a, ha, hfits⟩ := Option.map_eq_some_iff.mp htoken
  obtain ⟨hamount, hdelegated⟩ := Prod.mk.inj hfits
  exact ⟨v, _, hv, hmint, serve_serves hv ha ⟨by omega, by omega⟩ hne
    (shown_ne_clock (hkey _ (by simp))) (shown_ne_clock (hkey _ (by simp)))⟩

end Sample

/-- A vault that was given 500 tokens. -/
theorem snapshot_reported_sample : ∃ v getAccountInfo snapshot,
    (Sample.observed Sample.mint).2.program Sample.vaultState = some v ∧
    donations Sample.vaultToken (Sample.observed Sample.mint).1 = 500 ∧
    exportSnapshot Sample.chain.sha256 getAccountInfo (shown ID) (shown Sample.vaultState) =
      .ok snapshot ∧
    Reported Sample.chain (Sample.observed Sample.mint).1 (Sample.observed Sample.mint).2
      Sample.vaultState v Sample.today (verifySnapshot Sample.chain.sha256 snapshot) := by
  obtain ⟨v, getAccountInfo, hv, -, hserves⟩ := Sample.served Sample.mint (by decide +kernel)
    (by decide +kernel) (by decide +kernel) (by decide +kernel)
  have htoken :
      vaultToken Sample.chain (Sample.stateOf Sample.mint) = Sample.tokenOf Sample.mint := by
    decide +kernel
  rw [← htoken] at hserves
  obtain ⟨snapshot, hexport, hreported⟩ := snapshot_reported Sample.lawful Sample.paysIn
    Sample.searches_chain (Sample.observed_reachable _ (by decide +kernel))
    (Sample.observed_unsigned _) (Sample.observed_clocked _) hv (fun _ _ ↦ Sample.plain_above _)
    (Sample.observed_past _) hserves
  exact ⟨v, getAccountInfo, snapshot, hv, by decide +kernel, hexport, hreported⟩

/-- The verifier refuses a reachable vault of wrapped SOL. -/
theorem native_snapshot_refused : ∃ (chain : Chain)
    (external : Ledger BeneficiaryVault → Tokens → Prop)
    (tr : List (Event BeneficiaryVault Instruction)) (L : Ledger BeneficiaryVault) (key : Pubkey)
    (v : BeneficiaryVault) (now : I64) (getAccountInfo : String → Except String RawAccount)
    (snapshot : Snapshot),
    Lawful (program chain external) ID ∧ PaysIn (program chain external) ID ∧
      Searches chain.sha256 (searchOf chain) ∧
      Reachable (program chain external) tr L ∧ Unsigned chain ID tr ∧ Clocked tr ∧
      L.program key = some v ∧ (∀ seeds ∈ vaultSeeds key v, PlainAbove chain seeds ID) ∧
      (∀ t ∈ times tr, t ≤ now) ∧
      Serves chain.sha256 getAccountInfo L key (vaultToken chain key) now ∧
      exportSnapshot chain.sha256 getAccountInfo (shown ID) (shown key) = .ok snapshot ∧
      ¬ (verifySnapshot chain.sha256 snapshot).valid := by
  obtain ⟨v, getAccountInfo, hv, hmint, hserves⟩ := Sample.served NATIVE_MINT
    (by decide +kernel) (by decide +kernel) (by decide +kernel) (by decide +kernel)
  have htoken :
      vaultToken Sample.chain (Sample.stateOf NATIVE_MINT) = Sample.tokenOf NATIVE_MINT := by
    decide +kernel
  rw [← htoken] at hserves
  have hreach := Sample.observed_reachable NATIVE_MINT (by decide +kernel)
  have hunsigned := Sample.observed_unsigned NATIVE_MINT
  have hclocked := Sample.observed_clocked NATIVE_MINT
  have hpast := Sample.observed_past NATIVE_MINT
  have hshares : ∀ seeds ∈ vaultSeeds (Sample.stateOf NATIVE_MINT) v, Shares Sample.chain seeds ID :=
    fun seeds hseeds ↦ (Sample.searches_chain.shares_iff (vaultSeeds_takes seeds hseeds)).mpr
      (Sample.plain_above seeds)
  have hacc := accounted Sample.lawful hreach hunsigned hclocked
  obtain ⟨a, ha, hfits, hexport⟩ := hacc.exported hv hshares hserves
  have hreported := (hacc.kept _ v hv).reported rfl hshares
    (pristine Sample.lawful Sample.paysIn hreach hunsigned hclocked) (hacc.sound.canonical hv) hv
    hclocked hpast ha hfits
  refine ⟨_, _, _, _, _, v, Sample.today, getAccountInfo, _, Sample.lawful, Sample.paysIn,
    Sample.searches_chain, hreach, hunsigned, hclocked, hv, fun _ _ ↦ Sample.plain_above _, hpast,
    hserves, hexport, fun hvalid ↦ ?_⟩
  exact hreported.valid.mp hvalid hmint

end Beneficiary

end FundingVaults
