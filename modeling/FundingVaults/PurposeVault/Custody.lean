import FundingVaults.PurposeVault.Invariant

/-!
# The vaults hold what they have not released

Under a lawful token program the token account of every vault belongs to the vault alone and holds
the deposit less the releases.
-/

namespace FundingVaults.PurposeVault

open Anchor

/-- The token account of the vault at `key`. -/
def vaultToken (chain : Chain) (key : Pubkey) : Pubkey :=
  (chain.findProgramAddress (tokenSeeds key) ID).1

/-- What the vault `v` at `key` has in custody. -/
structure Custody (chain : Chain) (T : Tokens) (key : Pubkey) (v : CovenantVault) : Prop where
  share : v.monthlyCap.val = monthlyShare v.depositedAmount.val v.annualReleaseBps.val
  token : chain.findProgramAddress (tokenSeeds key) ID = (vaultToken chain key, v.tokenVaultBump)
  mint : ∃ m, T.mint v.mint = some m ∧ m.isInitialized ∧ m.freezeAuthority = none ∧
    m.decimals = v.mintDecimals
  held : T.Held (vaultToken chain key) v.mint key (v.depositedAmount.val - v.releasedTotal.val)

/-- Every account is at home and every vault has in custody what it has not released. -/
structure Custodial (chain : Chain) (L : Ledger Stored) : Prop where
  sound : L.Sound chain ID
  vaults : ∀ {key v}, L.program key = some (.vault v) → Custody chain L.tokens key v

section Custody

variable {chain : Chain} {L L' : Ledger Stored} {T : Tokens} {key : Pubkey} {v v' : CovenantVault}
  {now : I64} {signers : List Pubkey}

/-- The custody of a vault that has released as much as before. -/
theorem Custody.congr (h : Custody chain L.tokens key v)
    (hmint : ∀ {m}, L.tokens.mint v.mint = some m → m.isInitialized → m.freezeAuthority = none →
      ∃ m', T.mint v.mint = some m' ∧ m'.isInitialized ∧ m'.freezeAuthority = none ∧
        m'.decimals = m.decimals)
    (hheld : T.Held (vaultToken chain key) v.mint key
      (v.depositedAmount.val - v.releasedTotal.val)) : Custody chain T key v where
  share := h.share
  token := h.token
  mint := by
    obtain ⟨m, hm, hi, hf, hdec⟩ := h.mint
    obtain ⟨m', hm', hi', hf', hdec'⟩ := hmint hm hi hf
    exact ⟨m', hm', hi', hf', hdec'.trans hdec⟩
  held := hheld

/-- An instruction that moves no tokens and writes no vault. -/
theorem Custodial.write {a : Stored} (h : Custodial chain L) (hs : (L.write key a).Sound chain ID)
    (ha : ∀ w, a ≠ .vault w) : Custodial chain (L.write key a) where
  sound := hs
  vaults hv := by
    rcases update_cases hv with ⟨-, heq⟩ | ⟨-, hv⟩
    · exact absurd heq.symm (ha _)
    · exact h.vaults hv

/-- Address of a vault is a program address. -/
theorem Custodial.derived (h : Custodial chain L) (hv : L.program key = some (.vault v)) :
    ProgramAddress chain ID key := (h.sound.canonical hv).programAddress

/-- Somebody else's transfer leaves a vault its custody. -/
theorem Custody.transfer {t : TransferChecked} (h : Custody chain L.tokens key v)
    (ht : L.tokens.transferChecked t = some T) (hne : t.authority ≠ key) :
    Custody chain T key v := by
  refine h.congr (fun {m} hm hi hf ↦ ?_) (h.held.transfer ht hne)
  rw [Tokens.transferChecked_mint ht]
  exact ⟨m, hm, hi, hf, rfl⟩

/-- A token account of somebody else is created. -/
theorem Custody.createToken {k mint owner : Pubkey} (h : Custody chain L.tokens key v)
    (hk : L.vacant k) : Custody chain (L.createToken k mint owner).tokens key v := by
  obtain ⟨a, ha, hown, hle⟩ := h.held
  have hne : vaultToken chain key ≠ k := by
    rintro rfl
    rw [(Ledger.vacant_iff.mp hk).2.1] at ha
    exact absurd ha (by simp)
  refine h.congr (fun {m} hm hi hf ↦ ⟨m, hm, hi, hf, rfl⟩) ⟨a, ?_, hown, hle⟩
  rw [← ha]
  exact Function.update_of_ne hne _ _

/-- A vault with the terms of another one. -/
theorem Custody.of_terms (h : Custody chain L.tokens key v) (ht : v'.terms = v.terms)
    (hmint : T.mint = L.tokens.mint) (hheld : T.Held (vaultToken chain key) v.mint key
      (v.depositedAmount.val - v'.releasedTotal.val)) : Custody chain T key v' where
  share := by
    have hcap : v'.monthlyCap = v.monthlyCap := (congrArg CovenantVault.monthlyCap ht :)
    have hdep : v'.depositedAmount = v.depositedAmount :=
      (congrArg CovenantVault.depositedAmount ht :)
    have hbps : v'.annualReleaseBps = v.annualReleaseBps :=
      (congrArg CovenantVault.annualReleaseBps ht :)
    rw [hcap, hdep, hbps, h.share]
  token := by
    have hbump : v'.tokenVaultBump = v.tokenVaultBump := (congrArg CovenantVault.tokenVaultBump ht :)
    rw [hbump, h.token]
  mint := by
    have hv : v'.mint = v.mint := (congrArg CovenantVault.mint ht :)
    have hdec : v'.mintDecimals = v.mintDecimals := (congrArg CovenantVault.mintDecimals ht :)
    rw [hv, hdec, hmint]
    exact h.mint
  held := by
    have hv : v'.mint = v.mint := (congrArg CovenantVault.mint ht :)
    have hdep : v'.depositedAmount = v.depositedAmount :=
      (congrArg CovenantVault.depositedAmount ht :)
    rwa [hv, hdep]

/-- The mint of a deposit cannot freeze. -/
theorem process_deposit_mint {k : Deposit.Keys} {args : Deposit.Args}
    (h : process chain L ⟨now, signers, .deposit k args⟩ = .ok L') :
    ∃ m, L.tokens.mint k.mint = some m ∧ m.freezeAuthority = none := by
  simp only [process, Deposit.load, depositHandler, bind_eq_ok, pure_eq_ok, signer_eq_ok,
    loadMint_eq_ok, loadToken_eq_ok, tokenAuthority_eq_ok, hasOne_eq_ok, checkSeeds_eq_ok,
    loadInit_eq_ok, require_eq_ok, exists_const, Prod.exists] at h
  obtain ⟨_, ⟨-, -, ⟨_, m⟩, ⟨hm, -, rfl⟩, _, -, -, _, -, -, -, -, _, -, _, -, rfl⟩, _, _,
    ⟨-, hf, -⟩, -⟩ := h
  exact ⟨m, hm, hf⟩

/-- A deposit funds the vault it creates. -/
theorem Deposited.holds {k : Deposit.Keys} {args : Deposit.Args} {p p' : PolicyWindow} {m : Mint}
    (h : Deposited chain L now signers k args p p' v T)
    (hd : chain.transferChecked = Tokens.transferChecked) (hne : k.depositor ≠ k.vault)
    (hm : L.tokens.mint k.mint = some m) (hf : m.freezeAuthority = none) :
    Custody chain T k.vault v := by
  have ht := h.transfer
  rw [hd] at ht
  obtain ⟨cap, cliffEndTs, hcap, -, -, hv⟩ := h.created
  have hmint : v.mint = k.mint := (congrArg CovenantVault.mint hv :)
  have hdep : v.depositedAmount = args.amount := (congrArg CovenantVault.depositedAmount hv :)
  have hbps : v.annualReleaseBps = args.annualReleaseBps :=
    (congrArg CovenantVault.annualReleaseBps hv :)
  have hcap' : v.monthlyCap = cap := (congrArg CovenantVault.monthlyCap hv :)
  have hrel : v.releasedTotal = 0 := (congrArg CovenantVault.releasedTotal hv :)
  have htoken : vaultToken chain k.vault = k.vaultToken := congrArg Prod.fst h.token
  have hnew : (L.createToken k.vaultToken k.mint k.vault).tokens.Held k.vaultToken k.mint k.vault 0 :=
    ⟨_, Function.update_self .., ⟨rfl, rfl, rfl, rfl, rfl⟩, Nat.zero_le _⟩
  obtain ⟨s, b, m', x, -, -, hm', ⟨-, -, -, -, -, hi, hdec⟩, -, -⟩ :=
    Tokens.transferChecked_eq_some.mp ht
  obtain rfl := Option.some.inj (hm.symm.trans hm')
  exact {
    share := by rw [hcap', hdep, hbps, hcap]
    token := by rw [htoken, h.token]
    mint := ⟨m, by rw [hmint, Tokens.transferChecked_mint ht]; exact hm, hi, hf, hdec⟩
    held := by
      rw [htoken, hmint, hdep, hrel]
      simpa using hnew.receive ht hne rfl }

/-- A release takes its amount out of the custody of its vault. -/
theorem Released.holds {k : Release.Keys} {amount period : U64} {ctx : Release}
    {p' : PolicyWindow} (h : Released chain L now signers k amount ctx T)
    (hc : Custody chain L.tokens k.vault ctx.vault.data)
    (hdeb : Debited ctx.gate now period amount p' v')
    (hd : chain.transferChecked = Tokens.transferChecked) : Custody chain T k.vault v' := by
  have ht := h.transfer
  rw [hd] at ht
  refine hc.of_terms hdeb.terms.2 (Tokens.transferChecked_mint ht) ?_
  have htoken : vaultToken chain k.vault = k.vaultToken := by
    have hsource := h.sourceSeeds
    have hfound := chain.create_find (tokenSeeds k.vault) ID
    rw [hc.token] at hfound
    exact Option.some.inj (hfound.symm.trans hsource)
  have hpaid := hc.held.pay ht h.vaultMint.symm rfl htoken.symm
  have htotal : v'.releasedTotal.val = ctx.vault.data.releasedTotal.val + amount.val := hdeb.total
  rw [htotal, ← Nat.sub_sub]
  exact hpaid

/-- The vault of a release is debited, and every other vault is untouched. -/
theorem Custodial.release {k : Release.Keys} {amount period : U64} {ctx : Release}
    {p' : PolicyWindow} (h : Custodial chain L) (hr : Released chain L now signers k amount ctx T)
    (hdeb : Debited ctx.gate now period amount p' v')
    (hd : chain.transferChecked = Tokens.transferChecked) {w : CovenantVault}
    (hw : debit L.program k p' v' key = some (.vault w)) : Custody chain T key w := by
  rcases debit_vault hw with ⟨rfl, rfl⟩ | ⟨hne, hw⟩
  · exact hr.holds (h.vaults hr.vault) hdeb hd
  · have ht := hr.transfer
    rw [hd] at ht
    exact (h.vaults hw).transfer ht (Ne.symm hne)

/-- An accepted transaction keeps every vault in funds. -/
theorem Custodial.accepted {tx : Tx Instruction} (h : Custodial chain L)
    (hd : chain.transferChecked = Tokens.transferChecked) (hp : process chain L tx = .ok L')
    (hs : ∀ key ∈ tx.signers, ¬ ProgramAddress chain ID key) : Custodial chain L' := by
  have hsound := (process_keeps hp).sound h.sound
  obtain ⟨now, signers, instr⟩ := tx
  cases instr with
  | openPolicy k args =>
    obtain ⟨p, m, ho, rfl⟩ := process_openPolicy hp
    refine ⟨hsound, fun hv ↦ ?_⟩
    rcases update_cases hv with ⟨-, heq⟩ | ⟨-, hv⟩
    · exact absurd heq (by simp)
    · rcases update_cases hv with ⟨-, heq⟩ | ⟨-, hv⟩
      · exact absurd heq (by simp)
      · exact h.vaults hv
  | reportVolume k eligibleVolume =>
    obtain ⟨m, m', -, rfl⟩ := process_reportVolume hp
    exact h.write hsound (by simp)
  | proposeOracle k newOracle =>
    obtain ⟨m, m', -, rfl⟩ := process_proposeOracle hp
    exact h.write hsound (by simp)
  | executeOracleRotation key =>
    obtain ⟨m, m', -, rfl⟩ := process_executeOracleRotation hp
    exact h.write hsound (by simp)
  | deposit k args =>
    obtain ⟨p, p', v, tokens, hdep, rfl⟩ := process_deposit hp
    obtain ⟨m, hm, hf⟩ := process_deposit_mint hp
    -- The depositor has signed, so it is no derived address.
    have hsigned : ∀ {key}, ProgramAddress chain ID key → k.depositor ≠ key := by
      rintro key hkey rfl
      exact hs _ hdep.depositor hkey
    have hvault : ProgramAddress chain ID k.vault :=
      (hsound.canonical Ledger.write_program_self).programAddress
    refine ⟨hsound, fun {key w} hw ↦ ?_⟩
    rcases update_cases hw with ⟨rfl, heq⟩ | ⟨-, hw⟩
    · obtain rfl := Stored.vault.inj heq
      exact hdep.holds hd (hsigned hvault) hm hf
    · rcases update_cases hw with ⟨-, heq⟩ | ⟨-, hw⟩
      · exact absurd heq (by simp)
      · have ht := hdep.transfer
        rw [hd] at ht
        exact ((h.vaults hw).createToken hdep.tokenVacant).transfer ht (hsigned (h.derived hw))
  | approve k periodIndex approvedNeed =>
    obtain ⟨p, v, a, -, rfl⟩ := process_approve hp
    exact h.write hsound (by simp)
  | releaseBeneficiary k amount =>
    obtain ⟨ctx, period, p', v', tokens, hr, -, -, hdeb, rfl⟩ := process_releaseBeneficiary hp
    exact ⟨hsound, h.release hr hdeb hd⟩
  | releasePurpose k key amount =>
    obtain ⟨ctx, period, p', v', a, a', tokens, hr, -, -, hdeb, -, -, -, rfl⟩ :=
      process_releasePurpose hp
    refine ⟨hsound, fun {i w} hw ↦ ?_⟩
    rcases update_cases hw with ⟨-, heq⟩ | ⟨-, hw⟩
    · exact absurd heq (by simp)
    · exact h.release hr hdeb hd hw

/-- Every reachable vault is in funds. -/
theorem custodial {external : Ledger Stored → Tokens → Prop}
    {tr : List (Event Stored Instruction)} (hd : Lawful (program chain external) ID)
    (h : Reachable (program chain external) tr L) (hs : Unsigned chain ID tr) :
    Custodial chain L := by
  obtain ⟨L₀, h₀, hrun⟩ := h
  induction hrun with
  | refl => exact ⟨.genesis h₀, fun {key v} hv ↦ by simp [h₀ key] at hv⟩
  | accepted _ hp ih => exact (ih hs.of_append).accepted hd.transfer hp hs.last
  | rejected _ _ ih => exact ih hs
  | @external L tr tokens _ he ih =>
    have hold := ih hs.of_append
    have hrespects := hd.external he
    refine ⟨hold.sound.congr rfl, fun {key v} hv ↦ ?_⟩
    have hc := hold.vaults hv
    obtain ⟨m, hm, hi, hf, -⟩ := hc.mint
    exact hc.congr hrespects.mint (hrespects.held (hold.derived hv) ⟨m, hm, hi, hf⟩ hc.held)

end Custody

end FundingVaults.PurposeVault
