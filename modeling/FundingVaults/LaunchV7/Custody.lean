import FundingVaults.LaunchV7.Lifecycle
import FundingVaults.LaunchV7.Replay

/-!
# Custody of the vaults

The tokens of a vault sit in an account that the vault's own address owns.  Nobody holds a key
to that address, so the account can only be debited by the transfers that the program makes.

`Lawful` is what this rests on: the token program behaves as documented, and what other programs
do to tokens respects the ownership of accounts.  `Unsigned` says that no derived address signed
a transaction.
-/

namespace FundingVaults.LaunchV7

/-! ## What surrounds the program -/

/-- The token program behaves as documented, and an account in the hands of a derived address is
not debited, closed, frozen or handed over by anyone else. -/
structure Lawful (d : Deployment) : Prop where
  transfer : d.transferChecked = Tokens.transferChecked
  held : ∀ {L : Ledger} {tokens : Tokens} {key mint : Pubkey} {s : Seeds} {n : ℕ},
    d.external L tokens → L.tokens.Unfreezable mint →
      L.tokens.Held key mint (s.address d.toChain) n →
      tokens.Held key mint (s.address d.toChain) n
  mint : ∀ {L : Ledger} {tokens : Tokens} {mint : Pubkey}, d.external L tokens →
    L.tokens.Unfreezable mint → tokens.Unfreezable mint

/-- No derived address signs. -/
def Unsigned (d : Deployment) (tr : List Entry) : Prop :=
  ∀ e ∈ tr, ∀ s : Seeds, s.address d.toChain ∉ e.tx.signers

/-! ## Token effects of an instruction -/

section Effects

variable {d : Deployment} {L L' : Ledger} {now : I64} {signers : List Pubkey} {tx : Tx}

/-- Three instructions move tokens. -/
theorem process_tokens (h : process d L tx = .ok L') : L'.tokens = L.tokens ∨
    (∃ k role amount, tx.instruction = .deposit k role amount) ∨
    (∃ k, tx.instruction = .refund k) ∨
    ∃ k amount epoch, tx.instruction = .release k amount epoch := by
  obtain ⟨now, signers, instr⟩ := tx
  cases instr with
  | deposit k role amount => exact .inr (.inl ⟨k, role, amount, rfl⟩)
  | refund k => exact .inr (.inr (.inl ⟨k, rfl⟩))
  | release k amount epoch => exact .inr (.inr (.inr ⟨k, amount, epoch, rfl⟩))
  | approveTreasury | proposeWithdrawal | executeWithdrawal | cancelWithdrawal
  | expireWithdrawal =>
    simp only [process, bind_eq_ok, pure_eq_ok, Prod.exists] at h
    obtain ⟨_, -, _, _, _, -, rfl⟩ := h
    exact .inl rfl
  | proposeChange | cancelChange | executeChange =>
    simp only [process, bind_eq_ok, pure_eq_ok, Prod.exists] at h
    obtain ⟨_, -, _, _, -, rfl⟩ := h
    exact .inl rfl
  | _ =>
    simp only [process, bind_eq_ok, pure_eq_ok] at h
    obtain ⟨_, -, _, -, rfl⟩ := h
    exact .inl rfl

variable (hL : L.Sound d.toChain)
include hL

theorem deposit_transfer {k : Deposit.Keys} {b : U8} {amount : U64}
    (h : process d L ⟨now, signers, .deposit k b amount⟩ = .ok L') :
    ∃ (p : LaunchPolicyV7) (m : Mint) (r : Role), L.program k.policy = some (.policy p) ∧
      b = r.toU8 ∧ amount = p.config.principal r ∧ p.mint = k.mint ∧
      L.tokens.mint k.mint = some m ∧ m.isInitialized ∧ m.freezeAuthority = none ∧
      k.depositor ∈ signers ∧ Seeds.address d.toChain (.vault k.policy r.toU8) = k.vault ∧
      Seeds.address d.toChain (.token k.vault) = k.vaultToken ∧ L.vacant k.vault ∧
      L.vacant k.vaultToken ∧
      d.transferChecked (L.createToken k.vaultToken k.mint k.vault).tokens
        { source := k.source, mint := k.mint, destination := k.vaultToken
          authority := k.depositor, amount := amount.val, decimals := m.decimals } =
        some L'.tokens := by
  simp only [process, Deposit.load, bind_eq_ok, pure_eq_ok, require_eq_ok, signer_eq_ok,
    hasOne_eq_ok, tokenAuthority_eq_ok, loadPolicy_eq_ok (fun _ ↦ hL.canonical), loadInit_eq_ok,
    loadMint_eq_ok, loadToken_eq_ok, deposit_eq_ok, Ledger.transfer_eq_ok, Prod.exists,
    exists_const] at h
  obtain ⟨_, ⟨-, hsd, -, ⟨_, p⟩, ⟨hp, rfl⟩, -, hmint, ⟨_, m⟩, ⟨hm, hi, rfl⟩, ⟨_, src⟩,
    ⟨-, -, -, rfl⟩, -, vi, ⟨haddr, hvac, rfl⟩, vt, ⟨htaddr, htvac, rfl⟩, -, rfl⟩, p', v', t,
    ⟨-, -, -, r, rfl, -, -, ham, ⟨-, hfreeze⟩, -, -, -, rfl⟩, L₁, ⟨tokens, ht, rfl⟩, rfl⟩ := h
  exact ⟨p, m, r, hp, rfl, ham, hmint, hm, hi, hfreeze, hsd, haddr, htaddr, hvac, htvac, ht⟩

theorem refund_transfer {k : Refund.Keys}
    (h : process d L ⟨now, signers, .refund k⟩ = .ok L') :
    ∃ (p : LaunchPolicyV7) (v : LaunchVaultV7) (m : Mint) (a t : TokenAccount),
      L.program k.policy = some (.policy p) ∧ p.mint = k.mint ∧
      L.program k.vault = some (.vault v) ∧ v.policy = k.policy ∧ v.depositor = k.depositor ∧
      p.state = CANCELLED ∧ Seeds.address d.toChain (.token k.vault) = k.vaultToken ∧
      L.tokens.account k.vaultToken = some a ∧ L.tokens.account k.destination = some t ∧
      t.owner = k.depositor ∧
      d.transferChecked L.tokens
        { source := k.vaultToken, mint := k.mint, destination := k.destination
          authority := k.vault, amount := a.amount, decimals := m.decimals } =
        some L'.tokens := by
  simp only [process, Refund.load, checkFound, bind_eq_ok, pure_eq_ok, signer_eq_ok, hasOne_eq_ok,
    require_eq_ok, tokenAuthority_eq_ok, loadPolicy_eq_ok (fun _ ↦ hL.canonical),
    loadVault_eq_ok (fun _ ↦ hL.canonical), loadMint_eq_ok, loadToken_eq_ok, refund_eq_ok,
    Ledger.transfer_eq_ok, Prod.exists, exists_const] at h
  obtain ⟨_, ⟨-, ⟨_, p⟩, ⟨hp, rfl⟩, hmint, ⟨_, v⟩, ⟨hv, rfl, hvP⟩, hdep, ⟨_, m⟩, ⟨-, -, rfl⟩, htok,
    ⟨_, a⟩, ⟨ha, -, -, rfl⟩, -, ⟨_, t⟩, ⟨ht, -, -, rfl⟩, howner, rfl⟩, p', tr,
    ⟨-, hst, -, -, -, rfl⟩, L₁, ⟨tokens, htr, rfl⟩, rfl⟩ := h
  exact ⟨p, v, m, a, t, hp, hmint, hv, hvP, hdep, hst, htok, ha, ht, howner, htr⟩

theorem release_transfer {k : Release.Keys} {amount epoch : U64}
    (h : process d L ⟨now, signers, .release k amount epoch⟩ = .ok L') :
    ∃ (p : LaunchPolicyV7) (v : LaunchVaultV7) (m : Mint),
      L.program k.policy = some (.policy p) ∧ p.mint = k.mint ∧
      L.program k.vault = some (.vault v) ∧ v.policy = k.policy ∧ p.state = ACTIVE ∧
      Seeds.address d.toChain (.token k.vault) = k.vaultToken ∧
      d.transferChecked L.tokens
        { source := k.vaultToken, mint := k.mint, destination := k.destination
          authority := k.vault, amount := amount.val, decimals := m.decimals } =
        some L'.tokens := by
  simp only [process, Release.load, checkFound, bind_eq_ok, pure_eq_ok, require_eq_ok,
    signer_eq_ok, hasOne_eq_ok, tokenAuthority_eq_ok, loadPolicy_eq_ok (fun _ ↦ hL.canonical),
    loadVault_eq_ok (fun _ ↦ hL.canonical), loadMint_eq_ok, loadToken_eq_ok, release_eq_ok,
    Ledger.transfer_eq_ok, Prod.exists, exists_const] at h
  obtain ⟨_, ⟨-, ⟨_, p⟩, ⟨hp, rfl⟩, hmint, ⟨_, v⟩, ⟨hv, rfl, hvP⟩, ⟨_, m⟩, ⟨-, -, rfl⟩, htok,
    ⟨_, a⟩, ⟨-, -, -, rfl⟩, -, ⟨_, t⟩, ⟨-, -, -, rfl⟩, oa, -, ok, -, rfl⟩, p', v', a', tr,
    ⟨-, hst, r, -, -, -, -, -, -, -, -, -, -, -, -, rfl⟩, L₁, ⟨tokens, htr, rfl⟩, rfl⟩ := h
  have hprog : ∀ x, Ledger.tokens (Ledger.writeApproval x a') = x.tokens := by
    cases a' <;> intro x <;> rfl
  refine ⟨p, v, m, hp, hmint, hv, hvP, hst, htok, ?_⟩
  rw [hprog]
  exact htr

end Effects

/-! ## Vault accounts -/

section Held

variable {d : Deployment} (hd : Lawful d) {L L' : Ledger} {tx : Tx} {key mint : Pubkey} {s : Seeds}
  {n : ℕ} {P : Pubkey}
include hd

/-- The instruction pays out of the vault at `key`. -/
def Tx.PaysFrom (tx : Tx) (key : Pubkey) : Prop :=
  (∃ k, tx.instruction = .refund k ∧ k.vault = key) ∨
    ∃ k amount epoch, tx.instruction = .release k amount epoch ∧ k.vault = key

/-- Only the vault itself pays out of its account. -/
theorem process_held (hL : L.Sound d.toChain) (hp : process d L tx = .ok L')
    (hs : s.address d.toChain ∉ tx.signers)
    (h : L.tokens.Held key mint (s.address d.toChain) n)
    (hother : ¬ tx.PaysFrom (s.address d.toChain)) :
    L'.tokens.Held key mint (s.address d.toChain) n := by
  obtain ⟨now, signers, instr⟩ := tx
  rcases process_tokens hp with he | ⟨k, b, amount, rfl⟩ | ⟨k, rfl⟩ | ⟨k, amount, epoch, rfl⟩
  · rw [he]
    exact h
  · obtain ⟨p, m, r, -, -, -, -, -, -, -, hsigned, -, -, -, hvac, ht⟩ := deposit_transfer hL hp
    rw [hd.transfer] at ht
    refine Tokens.Held.transfer ?_ ht fun ho ↦ hs (ho ▸ hsigned)
    -- The new token account was not there before.
    obtain ⟨a, ha, ho, hle⟩ := h
    have hne : key ≠ k.vaultToken := by
      rintro rfl
      simp [Ledger.vacant, ha] at hvac
    exact ⟨a, by simp [Ledger.createToken, hne, ha], ho, hle⟩
  · obtain ⟨p, v, m, a, t, -, -, -, -, -, -, -, -, -, -, ht⟩ := refund_transfer hL hp
    rw [hd.transfer] at ht
    exact h.transfer ht fun ho ↦ hother (.inl ⟨k, rfl, ho⟩)
  · obtain ⟨p, v, m, -, -, -, -, -, -, ht⟩ := release_transfer hL hp
    rw [hd.transfer] at ht
    exact h.transfer ht fun ho ↦ hother (.inr ⟨k, amount, epoch, rfl, ho⟩)

/-- A release takes its amount out of the vault's account. -/
theorem release_held (hL : L.Sound d.toChain) {now : I64} {signers : List Pubkey}
    {k : Release.Keys} {amount epoch : U64} {p : LaunchPolicyV7}
    (hp : process d L ⟨now, signers, .release k amount epoch⟩ = .ok L')
    (hpol : L.program k.policy = some (.policy p))
    (h : L.tokens.Held (Seeds.address d.toChain (.token k.vault)) p.mint k.vault n) :
    L'.tokens.Held (Seeds.address d.toChain (.token k.vault)) p.mint k.vault (n - amount.val) := by
  obtain ⟨p', v, m, hpol', hmint, -, -, -, htok, ht⟩ := release_transfer hL hp
  obtain rfl : p = p' := by simpa using hpol.symm.trans hpol'
  rw [hd.transfer] at ht
  exact h.pay ht hmint.symm rfl htok.symm

/-- A refund leaves the vault's account in the vault's hands. -/
theorem refund_held (hL : L.Sound d.toChain) {now : I64} {signers : List Pubkey}
    {k : Refund.Keys} {p : LaunchPolicyV7}
    (hp : process d L ⟨now, signers, .refund k⟩ = .ok L')
    (hpol : L.program k.policy = some (.policy p))
    (h : L.tokens.Held (Seeds.address d.toChain (.token k.vault)) p.mint k.vault n) :
    L'.tokens.Held (Seeds.address d.toChain (.token k.vault)) p.mint k.vault 0 := by
  obtain ⟨p', v, m, a, t, hpol', hmint, -, -, -, -, htok, -, -, -, ht⟩ := refund_transfer hL hp
  obtain rfl : p = p' := by simpa using hpol.symm.trans hpol'
  rw [hd.transfer] at ht
  exact (h.pay ht hmint.symm rfl htok.symm).mono (Nat.zero_le _)

/-- A deposit puts the principal into an account of the new vault. -/
theorem deposit_held (hL : L.Sound d.toChain) {now : I64} {signers : List Pubkey}
    {k : Deposit.Keys} {b : U8} {amount : U64} {r : Role} {p : LaunchPolicyV7}
    (hp : process d L ⟨now, signers, .deposit k b amount⟩ = .ok L') (hb : b = r.toU8)
    (hpol : L.program k.policy = some (.policy p))
    (hs : Seeds.address d.toChain (.vault k.policy r.toU8) ∉ signers) :
    L'.tokens.Held
        (Seeds.address d.toChain (.token (Seeds.address d.toChain (.vault k.policy r.toU8))))
        p.mint (Seeds.address d.toChain (.vault k.policy r.toU8)) (p.config.principal r).val ∧
      L'.tokens.Unfreezable p.mint := by
  obtain ⟨p', m, r', hpol', hb', rfl, hmint, hm, hi, hfreeze, hsigned, haddr, htok, -, -, ht⟩ :=
    deposit_transfer hL hp
  obtain rfl : p = p' := by simpa using hpol.symm.trans hpol'
  obtain rfl : r = r' := Role.toU8_inj.mp (hb.symm.trans hb')
  rw [hd.transfer] at ht
  rw [haddr] at hs ⊢
  rw [htok, hmint]
  have hnew : (L.createToken k.vaultToken k.mint k.vault).tokens.Held k.vaultToken k.mint k.vault
      0 := ⟨_, Function.update_self .., ⟨rfl, rfl, rfl, rfl, rfl⟩, le_rfl⟩
  refine ⟨?_, m, ?_, hi, hfreeze⟩
  · simpa using hnew.receive ht (fun ho ↦ hs (ho ▸ hsigned)) rfl
  · rw [Tokens.transferChecked_mint ht]
    exact hm

/-- No instruction changes a mint. -/
theorem process_mint (hL : L.Sound d.toChain) (hp : process d L tx = .ok L') :
    L'.tokens.mint = L.tokens.mint := by
  obtain ⟨now, signers, instr⟩ := tx
  rcases process_tokens hp with he | ⟨k, b, amount, rfl⟩ | ⟨k, rfl⟩ | ⟨k, amount, epoch, rfl⟩
  · rw [he]
  · obtain ⟨p, m, r, -, -, -, -, -, -, -, -, -, -, -, -, ht⟩ := deposit_transfer hL hp
    rw [hd.transfer] at ht
    exact (Tokens.transferChecked_mint ht :)
  · obtain ⟨p, v, m, a, t, -, -, -, -, -, -, -, -, -, -, ht⟩ := refund_transfer hL hp
    rw [hd.transfer] at ht
    exact Tokens.transferChecked_mint ht
  · obtain ⟨p, v, m, -, -, -, -, -, -, ht⟩ := release_transfer hL hp
    rw [hd.transfer] at ht
    exact Tokens.transferChecked_mint ht

end Held

/-! ## The addresses of a vault -/

/-- The address of the vault of a role. -/
def vaultKey (d : Deployment) (P : Pubkey) (r : Role) : Pubkey :=
  Seeds.address d.toChain (.vault P r.toU8)

/-- The address of its token account. -/
def vaultToken (d : Deployment) (P : Pubkey) (r : Role) : Pubkey :=
  Seeds.address d.toChain (.token (vaultKey d P r))

section Acts

variable {d : Deployment} {L L' : Ledger} {tx : Tx} {P : Pubkey} {V : View} {r : Role}
  {v : LaunchVaultV7} {act : Act}

theorem act_deposit {authority depositor : Pubkey} {amount : U64}
    (h : tx.act L = some (P, .deposit r authority depositor amount)) :
    ∃ k, tx.instruction = .deposit k r.toU8 amount ∧ k.policy = P := by
  obtain ⟨now, signers, instr⟩ := tx
  cases instr <;> simp [Tx.act, Role.ofU8_eq_some, Option.bind_eq_some_iff] at h
  next k b x =>
    obtain ⟨rfl, rfl, -, -, rfl⟩ := h
    exact ⟨k, rfl, rfl⟩

theorem act_release {authority destination owner : Pubkey} {amount epoch : U64}
    (h : tx.act L = some (P, .release r authority amount epoch destination owner)) :
    ∃ k u, tx.instruction = .release k amount epoch ∧ k.policy = P ∧
      L.program k.vault = some (.vault u) ∧ u.role = r.toU8 := by
  obtain ⟨now, signers, instr⟩ := tx
  cases instr <;> simp [Tx.act, Role.ofU8_eq_some, Option.bind_eq_some_iff] at h
  next k x e =>
    obtain ⟨u, ⟨w, hw, hu⟩, hr, t, -, rfl, -, rfl, rfl, -, -⟩ := h
    obtain rfl := vault?_eq_some.mp hu
    exact ⟨k, u, rfl, rfl, hw, hr⟩

variable (hL : L.Sound d.toChain) (hV : L.view d.toChain P = some V) (hv : V.vault r = some v)
  (hp : process d L tx = .ok L')
include hL hV hv hp

/-- What pays out of a vault is a refund or a release of its own policy. -/
theorem paysFrom_act (h : tx.PaysFrom (vaultKey d P r)) :
    ∃ act, tx.act L = some (P, act) ∧ (act = .refund ∨ ∃ authority amount epoch destination owner,
      act = .release r authority amount epoch destination owner) := by
  obtain ⟨hprog, hvP, hvr⟩ := (View.vault_eq_some hV).mp hv
  obtain ⟨now, signers, instr⟩ := tx
  rcases h with ⟨k, rfl, hk⟩ | ⟨k, amount, epoch, rfl, hk⟩
  · obtain ⟨p, u, m, a, t, -, -, hu, huP, -⟩ := refund_transfer hL hp
    rw [hk] at hu
    obtain rfl : v = u := by simpa using hprog.symm.trans hu
    exact ⟨_, by rw [← hvP, huP]; rfl, .inl rfl⟩
  · obtain ⟨s, u, t, hu, hur, ht, -⟩ := refines_release hL hp
    obtain ⟨p, w, m, -, -, hw, hwP, -⟩ := release_transfer hL hp
    rw [hk] at hu hw
    obtain rfl : v = u := by simpa using hprog.symm.trans hu
    obtain rfl : v = w := by simpa using hprog.symm.trans hw
    obtain rfl : r = s := Role.toU8_inj.mp (hvr.symm.trans hur)
    refine ⟨_, ?_, .inr ⟨k.authority, amount, epoch, k.destination, t.owner, rfl⟩⟩
    have hP : k.policy = P := hwP.symm.trans hvP
    simp [Tx.act, hk, hu, ProgramAccount.vault?, hvr, ht, hP]

omit hV hv in
/-- The account a release pays from is that of its role. -/
theorem release_vault {k : Release.Keys} {amount epoch : U64} {u : LaunchVaultV7}
    (hi : tx.instruction = .release k amount epoch) (hk : k.policy = P)
    (hu : L.program k.vault = some (.vault u)) (hur : u.role = r.toU8) :
    k.vault = vaultKey d P r := by
  obtain ⟨now, signers, instr⟩ := tx
  subst hi
  obtain ⟨p, w, m, -, -, hw, hwP, -⟩ := release_transfer hL hp
  obtain rfl : u = w := by simpa using hu.symm.trans hw
  rw [← (hL.canonical hu).address, vaultKey]
  simp [ProgramAccount.seeds, hwP, hk, hur]

end Acts

/-! ## The invariant -/

/-- What a vault must still hold: nothing once its policy is cancelled. -/
def View.owed (V : View) (v : LaunchVaultV7) : ℕ :=
  if V.policy.state = CANCELLED then 0 else v.principal.val - v.releasedTotal.val

/-- Every vault holds what it owes, in an account of its own. -/
def Funded (d : Deployment) (L : Ledger) : Prop :=
  ∀ P V r v, L.view d.toChain P = some V → V.vault r = some v →
    L.tokens.Unfreezable V.policy.mint ∧
      L.tokens.Held (vaultToken d P r) V.policy.mint (vaultKey d P r) (V.owed v)

section Funded

variable {d : Deployment} (hd : Lawful d) {L L' : Ledger} {tx : Tx} {P : Pubkey} {V V' : View}
  {r : Role} {v' : LaunchVaultV7} {e : Event}
include hd

/-- A step of the policy keeps its vaults funded. -/
theorem Funded.step (h : Funded d L) (hL : L.Sound d.toChain) (hp : process d L tx = .ok L')
    (hs : ∀ s : Seeds, s.address d.toChain ∉ tx.signers) (hV : L.view d.toChain P = some V)
    {act : Act} (ha : tx.act L = some (P, act)) (hstep : Step P V ⟨tx.now, tx.signers, act⟩ V')
    (hv' : V'.vault r = some v') :
    L'.tokens.Unfreezable V'.policy.mint ∧
      L'.tokens.Held (vaultToken d P r) V'.policy.mint (vaultKey d P r) (V'.owed v') := by
  have hmint := hstep.sameIdentity.mint
  have hpol := Ledger.view_policy hV
  -- A vault that is there already and does not pay keeps what it has.
  have hkeep : ∀ v, V.vault r = some v → ¬ tx.PaysFrom (vaultKey d P r) →
      V'.owed v' ≤ V.owed v → L'.tokens.Unfreezable V'.policy.mint ∧
        L'.tokens.Held (vaultToken d P r) V'.policy.mint (vaultKey d P r) (V'.owed v') := by
    intro v hv hother hle
    obtain ⟨hu, hheld⟩ := h P V r v hV hv
    rw [hmint]
    refine ⟨?_, (process_held hd hL hp (hs _) hheld hother).mono hle⟩
    unfold Tokens.Unfreezable
    rw [process_mint hd hL hp]
    exact hu
  have hnopay : ∀ v, V.vault r = some v → act ≠ .refund →
      (∀ authority amount epoch destination owner,
        act ≠ .release r authority amount epoch destination owner) →
      ¬ tx.PaysFrom (vaultKey d P r) := by
    intro v hv hrefund hrelease hpays
    obtain ⟨act', ha', hact⟩ := paysFrom_act hL hV hv hp hpays
    obtain rfl : act = act' := by simpa using ha.symm.trans ha'
    rcases hact with rfl | ⟨_, _, _, _, _, rfl⟩
    · exact hrefund rfl
    · exact hrelease _ _ _ _ _ rfl
  have hle : ∀ v, v'.principal = v.principal → v'.releasedTotal = v.releasedTotal →
      V'.owed v' ≤ V.owed v := by
    intro v hprin hrel
    unfold View.owed
    split
    · exact Nat.zero_le _
    · next hs' =>
      rw [if_neg fun hc ↦ hs' (hstep.cancelled hc), hprin, hrel]
  -- A release takes its amount from what its vault owes.
  have hrelease : ∀ {s : Role} {authority destination owner : Pubkey} {amount epoch : U64}
      {v w : LaunchVaultV7} {p' : LaunchPolicyV7},
      act = .release s authority amount epoch destination owner → V.vault s = some v →
      v.role = s.toU8 → V.policy.state = ACTIVE → V'.policy.state = V.policy.state →
      V'.vault = Function.update V.vault s (some (v.withCounters w)) →
      consume { V.policy with lastActionAt := tx.now } v tx.now amount = .ok (p', w) →
      L'.tokens.Unfreezable V'.policy.mint ∧
        L'.tokens.Held (vaultToken d P r) V'.policy.mint (vaultKey d P r) (V'.owed v') := by
    intro s authority destination owner amount epoch v w p' hact hv hrole hstate hstate' hvault hc
    rw [hvault] at hv'
    by_cases hrs : r = s
    · subst hrs
      rw [Function.update_self] at hv'
      obtain rfl := Option.some.inj hv'
      subst hact
      obtain ⟨k, u, hi, hk, hu, hur⟩ := act_release ha
      have hkey := release_vault hL hp hi hk hu hur
      obtain ⟨hfree, hheld⟩ := h P V r v hV hv
      obtain ⟨l, t, hcons⟩ := consume_eq_ok.mp hc
      obtain rfl : t = r := Role.toU8_inj.mp (hcons.role.symm.trans hrole)
      have htotal : w.releasedTotal.val = v.releasedTotal.val + amount.val := by
        have hr := hcons.releasedTotal t
        rw [if_pos rfl] at hr
        rw [hcons.vault, hcons.total]
        exact hr
      obtain ⟨now, signers, instr⟩ := tx
      subst hi
      subst hk
      have howed : V'.owed (v.withCounters w) = V.owed v - amount.val := by
        simp only [View.owed, hstate', hstate, LaunchVaultV7.withCounters, htotal]
        rw [if_neg (by decide), if_neg (by decide)]
        omega
      rw [hmint, howed]
      constructor
      · unfold Tokens.Unfreezable
        rw [process_mint hd hL hp]
        exact hfree
      · rw [vaultToken, ← hkey] at hheld ⊢
        exact release_held hd hL hp hpol hheld
    · rw [Function.update_of_ne hrs] at hv'
      refine hkeep v' hv' (hnopay v' hv' (by simp [hact]) fun _ _ _ _ _ ↦ ?_) (hle v' rfl rfl)
      rw [hact]
      simp [Ne.symm hrs]
  cases hstep with
  | @deposit now signers s authority depositor bump guard =>
    by_cases hrs : r = s
    · subst hrs
      obtain ⟨k, hi, rfl⟩ := act_deposit ha
      obtain ⟨now, signers, instr⟩ := tx
      obtain rfl : instr = _ := hi
      obtain ⟨hheld, hfree⟩ := deposit_held hd hL hp rfl hpol (hs _)
      refine ⟨hfree, hheld.mono ?_⟩
      simp only [View.put, if_true, Option.some.injEq] at hv'
      subst hv'
      unfold View.owed
      split
      · exact Nat.zero_le _
      · exact Nat.sub_le _ _
    · have hv : V.vault r = some v' := by simpa [View.put, hrs] using hv'
      exact hkeep v' hv (hnopay v' hv (by simp) (by simp)) (hle v' rfl rfl)
  | refund tick state =>
    by_cases hpays : tx.PaysFrom (vaultKey d P r)
    · have howed : V.owed v' = 0 := by simp [View.owed, state]
      obtain ⟨hfree, hheld⟩ := h P V r v' hV hv'
      obtain ⟨now, signers, instr⟩ := tx
      rcases hpays with ⟨k, rfl, hk⟩ | ⟨k, amount, epoch, rfl, hk⟩
      · obtain rfl : k.policy = P := by
          simp only [Tx.act, Option.some.injEq, Prod.mk.injEq, and_true] at ha
          exact ha
        refine ⟨?_, ?_⟩
        · unfold Tokens.Unfreezable
          rw [process_mint hd hL hp]
          exact hfree
        · change L'.tokens.Held _ V.policy.mint _ (V.owed v')
          rw [howed]
          rw [vaultToken, ← hk] at hheld ⊢
          exact refund_held hd hL hp hpol hheld
      · simp [Tx.act, Option.bind_eq_some_iff] at ha
    · exact hkeep v' hv' hpays (hle v' rfl rfl)
  | @releaseFounder _ _ _ _ _ _ _ v w p' guard cliff consumed =>
    exact hrelease rfl guard.vault guard.role guard.state rfl
      ((View.put_vault (V := V.put (.policy p')) (v := v.withCounters w) guard.role :)) consumed
  | @releaseTreasury _ _ _ _ _ _ _ _ v w p' k a used guard approved counted consumed =>
    exact hrelease rfl guard.vault guard.role guard.state rfl
      ((View.put_vault (V := V.put (.policy p')) (v := v.withCounters w) guard.role :)) consumed
  | _ => exact hkeep v' hv' (hnopay v' hv' (by simp) (by simp)) (hle v' rfl rfl)

omit hd in
/-- A policy that is opened has no vault yet. -/
theorem Ledger.Sound.vault_of_opened (hL : L.Sound d.toChain) (hp : process d L tx = .ok L')
    (hV : L.view d.toChain P = none) (hV' : L'.view d.toChain P = some V') :
    V'.vault r = none := by
  rcases process_cases hL hp with ⟨-, -, hframe⟩ | ⟨Q, -, -, -, ⟨U, hU, hopen⟩, hframe⟩ |
    ⟨Q, act, -, href⟩
  · simp [hframe, hV] at hV'
  · by_cases hQ : Q = P
    · subst hQ
      obtain rfl := Option.some.inj (hV'.symm.trans hU)
      exact hopen.vault r
    · simp [hframe P (Ne.symm hQ), hV] at hV'
  · by_cases hQ : Q = P
    · subst hQ
      obtain ⟨W, W', hW, -⟩ := href.step
      simp [hV] at hW
    · simp [href.frame P (Ne.symm hQ), hV] at hV'

theorem Funded.accepted (h : Funded d L) (hL : L.Sound d.toChain) (hp : process d L tx = .ok L')
    (hs : ∀ s : Seeds, s.address d.toChain ∉ tx.signers) : Funded d L' := by
  intro P V' r v' hV' hv'
  cases hV : L.view d.toChain P with
  | none => simp [hL.vault_of_opened hp hV hV'] at hv'
  | some V =>
    obtain ⟨W, hW, ⟨rfl, hnil⟩ | ⟨act, ha, hstep⟩⟩ := hL.accepted hV hp
    · obtain rfl := Option.some.inj (hV'.symm.trans hW)
      have hother : ¬ tx.PaysFrom (vaultKey d P r) := by
        intro hpays
        obtain ⟨act, ha, -⟩ := paysFrom_act hL hV hv' hp hpays
        simp [history_singleton_of_act ha] at hnil
      obtain ⟨hfree, hheld⟩ := h P V' r v' hV hv'
      refine ⟨?_, process_held hd hL hp (hs _) hheld hother⟩
      unfold Tokens.Unfreezable
      rw [process_mint hd hL hp]
      exact hfree
    · obtain rfl := Option.some.inj (hV'.symm.trans hW)
      exact h.step hd hL hp hs hV ha hstep hv'

end Funded

theorem Unsigned.of_append {d : Deployment} {tr tr' : List Entry} (h : Unsigned d (tr ++ tr')) :
    Unsigned d tr ∧ Unsigned d tr' :=
  ⟨fun e he ↦ h e (List.mem_append_left _ he), fun e he ↦ h e (List.mem_append_right _ he)⟩

theorem Reachable.funded {d : Deployment} {tr : List Entry} {L : Ledger} (hd : Lawful d)
    (h : Reachable d tr L) (hs : Unsigned d tr) : Funded d L := by
  obtain ⟨L₀, h₀, hr⟩ := h
  induction hr with
  | refl =>
    intro P V r v hV
    simp [Ledger.view, Ledger.policyAt, h₀ P] at hV
  | @accepted L L' tr tx hr hp ih =>
    obtain ⟨hs, hlast⟩ := hs.of_append
    exact (ih hs).accepted hd (hr.sound h₀.sound) hp (hlast _ (List.mem_singleton_self _))
  | rejected _ _ ih => exact ih hs
  | external _ he ih =>
    intro P V r v hV hv
    obtain ⟨hfree, hheld⟩ := ih hs P V r v hV hv
    exact ⟨hd.mint he hfree, hd.held he hfree hheld⟩

/-! ## Progress -/

section Accepts

variable {d : Deployment} {L : Ledger} {P : Pubkey} {V : View} {now : I64} {signers : List Pubkey}
  {r : Role} {v : LaunchVaultV7} (hL : L.Sound d.toChain) (hV : L.view d.toChain P = some V)
  (tick : V.policy.lastActionAt ≤ now)
include hL hV tick

theorem accepts_activate (state : V.policy.state = ARMED) (t0 : V.policy.config.t0 ≤ now) :
    ∃ L' V', process d L ⟨now, signers, .activate ⟨P⟩⟩ = .ok L' ∧
      L'.view d.toChain P = some V' ∧ V'.policy.state = ACTIVE := by
  obtain ⟨L', hx⟩ : ∃ L', process d L ⟨now, signers, .activate ⟨P⟩⟩ = .ok L' := by
    simp only [process, PolicyOnly.load, bind_eq_ok, pure_eq_ok,
      loadPolicy_eq_ok (fun _ ↦ hL.canonical), activate_eq_ok]
    exact ⟨_, _, ⟨⟨P, V.policy⟩, ⟨Ledger.view_policy hV, rfl⟩, rfl⟩, _,
      ⟨tick, state, t0, rfl⟩, rfl⟩
  obtain ⟨U, V', -, hV', hstep⟩ := (refines_activate hL hx).step
  refine ⟨L', V', hx, hV', ?_⟩
  cases hstep with
  | activate => rfl

theorem accepts_expireUnarmed (state : V.policy.state = PREPARED)
    (t0 : V.policy.config.t0 ≤ now) :
    ∃ L' V', process d L ⟨now, signers, .expireUnarmed ⟨P⟩⟩ = .ok L' ∧
      L'.view d.toChain P = some V' ∧ V'.policy.state = CANCELLED := by
  obtain ⟨L', hx⟩ : ∃ L', process d L ⟨now, signers, .expireUnarmed ⟨P⟩⟩ = .ok L' := by
    simp only [process, PolicyOnly.load, bind_eq_ok, pure_eq_ok,
      loadPolicy_eq_ok (fun _ ↦ hL.canonical), expireUnarmed_eq_ok]
    exact ⟨_, _, ⟨⟨P, V.policy⟩, ⟨Ledger.view_policy hV, rfl⟩, rfl⟩, _,
      ⟨tick, state, t0, rfl⟩, rfl⟩
  obtain ⟨U, V', -, hV', hstep⟩ := (refines_expireUnarmed hL hx).step
  refine ⟨L', V', hx, hV', ?_⟩
  cases hstep with
  | expireUnarmed => rfl

/-- The accounts of `refund`, at their addresses. -/
def Refund.Keys.at (d : Deployment) (P : Pubkey) (r : Role) (v : LaunchVaultV7) (mint : Pubkey)
    (destination : Pubkey) : Refund.Keys where
  depositor := v.depositor
  policy := P
  vault := vaultKey d P r
  mint
  vaultToken := LaunchV7.vaultToken d P r
  destination

theorem accepts_refund {a t : TokenAccount} {destination : Pubkey} (hd : Lawful d)
    (state : V.policy.state = CANCELLED) (hv : V.vault r = some v) (released : v.releasedTotal = 0)
    (hfree : L.tokens.Unfreezable V.policy.mint)
    (ha : L.tokens.account (vaultToken d P r) = some a)
    (hown : a.SoleOwner V.policy.mint (vaultKey d P r)) (hpos : 0 < a.amount)
    (ht : L.tokens.account destination = some t) (hstate : t.state = .initialized)
    (hmint : t.mint = V.policy.mint) (howner : t.owner = v.depositor)
    (hsigned : v.depositor ∈ signers) :
    ∃ L', process d L ⟨now, signers, .refund (.at d P r v V.policy.mint destination)⟩ = .ok L' ∧
      (destination ≠ vaultToken d P r →
        L'.tokens.account (vaultToken d P r) = some { a with amount := 0 } ∧
          L'.tokens.account destination = some (t.credit a.amount)) := by
  obtain ⟨hprog, hvP, hvr⟩ := (View.vault_eq_some hV).mp hv
  obtain ⟨m, hm, hi, -⟩ := hfree
  obtain ⟨T, hT⟩ : ∃ T, d.transferChecked L.tokens {
      source := vaultToken d P r, mint := V.policy.mint, destination
      authority := vaultKey d P r, amount := a.amount, decimals := m.decimals } = some T := by
    rw [hd.transfer]
    exact ⟨_, (Tokens.transferChecked_of_soleOwner ha hown).mpr
      ⟨t, m, ht, hstate, hmint, hm, hi, rfl, le_rfl, rfl⟩⟩
  obtain ⟨L', hx⟩ : ∃ L', process d L
      ⟨now, signers, .refund (.at d P r v V.policy.mint destination)⟩ = .ok L' := by
    simp only [process, Refund.load, Refund.Keys.at, checkFound, bind_eq_ok, pure_eq_ok,
      signer_eq_ok, hasOne_eq_ok, tokenAuthority_eq_ok, loadPolicy_eq_ok (fun _ ↦ hL.canonical),
      loadVault_eq_ok (fun _ ↦ hL.canonical), loadMint_eq_ok, loadToken_eq_ok, refund_eq_ok,
      Ledger.transfer_eq_ok, Prod.exists, exists_const]
    refine ⟨_, _, ⟨hsigned, ⟨P, V.policy⟩, ⟨Ledger.view_policy hV, rfl⟩, rfl, ⟨_, v⟩,
      ⟨hprog, rfl, hvP⟩, rfl, ⟨_, m⟩, ⟨hm, hi, rfl⟩, (), require_eq_ok.mpr rfl, ⟨_, a⟩,
      ⟨ha, ?_, hown.mint, rfl⟩, hown.owner, ⟨_, t⟩, ⟨ht, ?_, hmint, rfl⟩, howner, rfl⟩, _, _,
      ⟨tick, state, released, hpos, rfl, rfl⟩, _, ⟨T, hT, rfl⟩, rfl⟩
    · rw [hown.state]
      decide
    · rw [hstate]
      decide
  refine ⟨L', hx, fun hne ↦ ?_⟩
  -- The whole balance is paid out.
  obtain ⟨_, _, m', b, _, -, -, -, -, -, -, -, hb, -, -, hpaid⟩ := refund_transfer hL hx
  obtain rfl := Option.some.inj (hb.symm.trans ha)
  rw [hd.transfer] at hpaid
  have hdebit := (Tokens.transferChecked_debit hpaid ha hown hne.symm).2
  rw [Nat.sub_self] at hdebit
  exact ⟨hdebit, Tokens.transferChecked_credit hpaid ht hne.symm⟩

end Accepts

/-! ## Custody over whole runs -/

/-- What a policy's accounts and its history say about its tokens and its state. -/
structure Custody (d : Deployment) (P : Pubkey) (tr : List Entry) (L : Ledger) (V : View) :
    Prop where
  /-- Until the policy is cancelled a vault holds at least what it has not released. -/
  held : V.policy.state ≠ CANCELLED → ∀ r v, V.vault r = some v →
    ∃ a, L.tokens.account (vaultToken d P r) = some a ∧ a.owner = vaultKey d P r ∧
      a.mint = V.policy.mint ∧ v.principal.val ≤ a.amount + v.releasedTotal.val
  /-- Tokens leave a vault by a release while the policy is active, or by a refund to the
  depositor once it is cancelled. -/
  paid : ∀ tx L' r v a, process d L tx = .ok L' →
    (∀ s : Seeds, s.address d.toChain ∉ tx.signers) → V.vault r = some v →
    L.tokens.account (vaultToken d P r) = some a →
    (∃ a', L'.tokens.account (vaultToken d P r) = some a' ∧ a.amount ≤ a'.amount) ∨
      (∃ k amount epoch, tx.instruction = .release k amount epoch ∧ k.vault = vaultKey d P r ∧
        V.policy.state = ACTIVE) ∨
      ∃ k t, tx.instruction = .refund k ∧ k.vault = vaultKey d P r ∧
        V.policy.state = CANCELLED ∧ L.tokens.account k.destination = some t ∧
        t.owner = v.depositor
  /-- Other programs only add tokens. -/
  donated : ∀ tokens r v a, d.external L tokens → V.vault r = some v →
    L.tokens.account (vaultToken d P r) = some a →
    ∃ a', tokens.account (vaultToken d P r) = some a' ∧ a.amount ≤ a'.amount
  exclusive : ¬ ((∃ e ∈ history P tr, e.Releases) ∧ ∃ e ∈ history P tr, e.act = .refund)
  active : V.policy.state = ACTIVE →
    (∀ r, ∃ v, V.vault r = some v ∧ v.principal = V.policy.config.principal r ∧
      ∃ e ∈ history P tr, e.Deposits r v.depositor (V.policy.config.principal r) ∧
        e.now < V.policy.config.t0) ∧
    (∃ e ∈ history P tr, e.act = .arm ∧ e.now < V.policy.config.t0) ∧
    ∃ e ∈ history P tr, e.act = .activate ∧ V.policy.config.t0 ≤ e.now
  /-- Who can change the state of the policy, when and how. -/
  transition : ∀ tx L' V', process d L tx = .ok L' → L'.view d.toChain P = some V' →
    V'.policy.state = V.policy.state ∨
      (V.policy.state = PREPARED ∧ V'.policy.state = ARMED ∧ tx.now < V.policy.config.t0) ∨
      (V.policy.state = ARMED ∧ V'.policy.state = ACTIVE ∧ V.policy.config.t0 ≤ tx.now) ∨
      ((V.policy.state = PREPARED ∨ V.policy.state = ARMED) ∧ V'.policy.state = CANCELLED ∧
        tx.now < V.policy.config.t0 ∧ V.policy.controller ∈ tx.signers ∧
        ∀ r, (V.role r).current ∈ tx.signers) ∨
      (V.policy.state = PREPARED ∧ V'.policy.state = CANCELLED ∧ V.policy.config.t0 ≤ tx.now)
  terminal : V.policy.state = CANCELLED → ∀ tr' L' V', Run d L tr' L' →
    L'.view d.toChain P = some V' → V'.policy.state = CANCELLED
  /-- From T0 on anyone can move a policy that is not armed to `CANCELLED` and an armed one to
  `ACTIVE`. -/
  unstuck : ∀ now signers, V.policy.config.t0 ≤ now → V.policy.lastActionAt ≤ now →
    (V.policy.state = PREPARED → ∃ L' V', process d L ⟨now, signers, .expireUnarmed ⟨P⟩⟩ = .ok L' ∧
      L'.view d.toChain P = some V' ∧ V'.policy.state = CANCELLED) ∧
    (V.policy.state = ARMED → ∃ L' V', process d L ⟨now, signers, .activate ⟨P⟩⟩ = .ok L' ∧
      L'.view d.toChain P = some V' ∧ V'.policy.state = ACTIVE)
  /-- And nothing else can be done to its state. -/
  exactly : ∀ tx L' V', process d L tx = .ok L' → L'.view d.toChain P = some V' →
    V.policy.config.t0 ≤ tx.now → V'.policy.state ≠ V.policy.state →
    (V.policy.state = PREPARED ∧ V'.policy.state = CANCELLED) ∨
      (V.policy.state = ARMED ∧ V'.policy.state = ACTIVE)
  /-- The depositor of a cancelled policy gets back whatever a vault holds, and all of it. -/
  refundable : V.policy.state = CANCELLED → ∀ r v a, V.vault r = some v →
    L.tokens.account (vaultToken d P r) = some a → 0 < a.amount →
    ∀ now signers destination t, V.policy.lastActionAt ≤ now → v.depositor ∈ signers →
    L.tokens.account destination = some t → t.state = .initialized → t.mint = V.policy.mint →
    t.owner = v.depositor → ∃ L', process d L
      ⟨now, signers, .refund (.at d P r v V.policy.mint destination)⟩ = .ok L' ∧
      (destination ≠ vaultToken d P r →
        L'.tokens.account (vaultToken d P r) = some { a with amount := 0 } ∧
          L'.tokens.account destination = some (t.credit a.amount))

/-- The vaults keep their tokens until they are released or refunded, and no state of a policy is a
dead end. -/
theorem Reachable.custody {d : Deployment} {P : Pubkey} {tr : List Entry} {L : Ledger} {V : View}
    (hd : Lawful d) (h : Reachable d tr L) (hs : Unsigned d tr)
    (hV : L.view d.toChain P = some V) : Custody d P tr L V := by
  have hfunded := h.funded hd hs
  have hlife := path_lifecycle (h.path hV)
  have hpol := Ledger.view_policy hV
  have hown : ∀ {r v a}, V.vault r = some v → L.tokens.account (vaultToken d P r) = some a →
      a.SoleOwner V.policy.mint (vaultKey d P r) := by
    intro r v a hv ha
    obtain ⟨-, b, hb, ho, -⟩ := hfunded P V r v hV hv
    obtain rfl := Option.some.inj (ha.symm.trans hb)
    exact ho
  have hedge : ∀ {tx L' V'}, process d L tx = .ok L' → L'.view d.toChain P = some V' →
      V' = V ∨ ∃ act, tx.act L = some (P, act) ∧ Step P V ⟨tx.now, tx.signers, act⟩ V' := by
    intro tx L' V' hx hV'
    obtain ⟨W, hW, hcases⟩ := h.sound.accepted hV hx
    obtain rfl := Option.some.inj (hV'.symm.trans hW)
    exact hcases.imp_left And.left
  have htransition : ∀ tx L' V', process d L tx = .ok L' → L'.view d.toChain P = some V' →
      V'.policy.state = V.policy.state ∨
        (V.policy.state = PREPARED ∧ V'.policy.state = ARMED ∧ tx.now < V.policy.config.t0) ∨
        (V.policy.state = ARMED ∧ V'.policy.state = ACTIVE ∧ V.policy.config.t0 ≤ tx.now) ∨
        ((V.policy.state = PREPARED ∨ V.policy.state = ARMED) ∧ V'.policy.state = CANCELLED ∧
          tx.now < V.policy.config.t0 ∧ V.policy.controller ∈ tx.signers ∧
          ∀ r, (V.role r).current ∈ tx.signers) ∨
        (V.policy.state = PREPARED ∧ V'.policy.state = CANCELLED ∧
          V.policy.config.t0 ≤ tx.now) := by
    intro tx L' V' hx hV'
    rcases hedge hx hV' with rfl | ⟨act, -, hstep⟩
    · exact .inl rfl
    · rcases hstep.state with h | ⟨-, h⟩ | ⟨-, h⟩ | ⟨-, h⟩ | ⟨-, h⟩
      · exact .inl h
      · exact .inr (.inl h)
      · exact .inr (.inr (.inl h))
      · exact .inr (.inr (.inr (.inl h)))
      · exact .inr (.inr (.inr (.inr h)))
  exact {
    held := fun hstate r v hv ↦ by
      obtain ⟨-, a, ha, ho, hle⟩ := hfunded P V r v hV hv
      refine ⟨a, ha, ho.owner, ho.mint, ?_⟩
      rw [View.owed, if_neg hstate] at hle
      omega
    paid := fun tx L' r v a hx hsigned hv ha ↦ by
      by_cases hpays : tx.PaysFrom (vaultKey d P r)
      · obtain ⟨hprog, hvP, -⟩ := (View.vault_eq_some hV).mp hv
        obtain ⟨now, signers, instr⟩ := tx
        rcases hpays with ⟨k, rfl, hk⟩ | ⟨k, amount, epoch, rfl, hk⟩
        · obtain ⟨p, u, m, b, t, hp, -, hu, huP, hdep, hstate, -, -, ht, howner, -⟩ :=
            refund_transfer h.sound hx
          rw [hk] at hu
          obtain rfl : v = u := by simpa using hprog.symm.trans hu
          rw [← huP, hvP] at hp
          obtain rfl : V.policy = p := by simpa using hpol.symm.trans hp
          exact .inr (.inr ⟨k, t, rfl, hk, hstate, ht, howner.trans hdep.symm⟩)
        · obtain ⟨p, u, m, hp, -, hu, huP, hstate, -⟩ := release_transfer h.sound hx
          rw [hk] at hu
          obtain rfl : v = u := by simpa using hprog.symm.trans hu
          rw [← huP, hvP] at hp
          obtain rfl : V.policy = p := by simpa using hpol.symm.trans hp
          exact .inr (.inl ⟨k, amount, epoch, rfl, hk, hstate⟩)
      · obtain ⟨a', ha', -, hle⟩ := process_held hd h.sound hx (hsigned _)
          ⟨a, ha, hown hv ha, le_rfl⟩ hpays
        exact .inl ⟨a', ha', hle⟩
    donated := fun tokens r v a he hv ha ↦ by
      obtain ⟨a', ha', -, hle⟩ := hd.held he (hfunded P V r v hV hv).1 ⟨a, ha, hown hv ha, le_rfl⟩
      exact ⟨a', ha', hle⟩
    exclusive := fun ⟨hrel, href⟩ ↦ by
      have hstate := (hlife.released hrel).symm.trans (hlife.refunded href)
      simp [ACTIVE, CANCELLED] at hstate
    active := fun hstate ↦ by
      obtain ⟨hsome, harm⟩ := hlife.armed (.inr hstate)
      refine ⟨fun r ↦ ?_, harm, hlife.active hstate⟩
      obtain ⟨v, hv⟩ := Option.isSome_iff_exists.mp (hsome r)
      exact ⟨v, hv, hlife.deposited r v hv⟩
    transition := htransition
    terminal := fun hstate tr' L' V' hrun hV' ↦ by
      obtain ⟨W, hW, hsteps⟩ := hrun.steps h.sound hV
      obtain rfl := Option.some.inj (hV'.symm.trans hW)
      exact steps_cancelled hsteps hstate
    unstuck := fun now signers t0 tick ↦
      ⟨fun hstate ↦ accepts_expireUnarmed h.sound hV tick hstate t0,
        fun hstate ↦ accepts_activate h.sound hV tick hstate t0⟩
    exactly := fun tx L' V' hx hV' t0 hne ↦ by
      rcases htransition tx L' V' hx hV' with h | ⟨-, -, h⟩ | ⟨h, h', -⟩ | ⟨-, -, h, -⟩ | ⟨h, h', -⟩
      · exact absurd h hne
      · exact absurd h (I64.not_lt.mpr t0)
      · exact .inr ⟨h, h'⟩
      · exact absurd h (I64.not_lt.mpr t0)
      · exact .inl ⟨h, h'⟩
    refundable := fun hstate r v a hv ha hpos now signers destination t tick hsigned ht hinit
        hmint howner ↦
      accepts_refund h.sound hV tick hd hstate hv
        (hlife.untouched (by simp [hstate, ACTIVE, CANCELLED]) r v hv)
        (hfunded P V r v hV hv).1 ha (hown hv ha) hpos ht hinit hmint howner hsigned }

namespace Sample

/-- Other programs make transfers, none of them for a derived address. -/
def market : Deployment where
  toChain := chain
  testProfile := true
  external L tokens := ∃ t : TransferChecked, L.tokens.transferChecked t = some tokens ∧
    ∀ s, address s ≠ t.authority

theorem market_lawful : Lawful market where
  transfer := rfl
  held := fun ⟨_, ht, hne⟩ _ h ↦ h.transfer ht (hne _).symm
  mint := fun ⟨_, ht, _⟩ h ↦ by
    unfold Tokens.Unfreezable
    rw [Tokens.transferChecked_mint ht]
    exact h

/-- The launch in its first period. -/
def marketRun : List Entry × Ledger := replay market genesis (launch ++ firstPeriod)

/-- The payee of the treasury gives a part back. -/
def donation : TransferChecked where
  source := payeeToken
  mint
  destination := address (.token (vault .treasury))
  authority := payee
  amount := 10
  decimals := 9

theorem market_unsigned : Unsigned market marketRun.1 := by
  have hkeys : ∀ tx ∈ launch ++ firstPeriod, ∀ k ∈ tx.signers,
      k ∉ Anchor.unlisted :: searches.map Anchor.Search.key := by decide +kernel
  intro e he s hs
  exact hkeys e.tx (mem_replay he) _ hs (address_mem s)

/-- The donation reaches the vault. -/
theorem donated : ∃ tokens, marketRun.2.tokens.transferChecked donation = some tokens ∧
    ∃ p, marketRun.2.policyAt policy = some p := by
  have htransfer : (marketRun.2.tokens.transferChecked donation).isSome := by decide +kernel
  have hpolicy : (marketRun.2.policyAt policy).isSome := by decide +kernel
  obtain ⟨tokens, htokens⟩ := Option.isSome_iff_exists.mp htransfer
  exact ⟨tokens, htokens, Option.isSome_iff_exists.mp hpolicy⟩

theorem donation_foreign (s : Seeds) : address s ≠ donation.authority := by
  intro hs
  have hpayee : payee ∉ Anchor.unlisted :: searches.map Anchor.Search.key := by decide +kernel
  rw [show payee = address s from hs.symm] at hpayee
  exact hpayee (address_mem s)

end Sample

theorem custody_sample : ∃ L V, L.view Sample.chain Sample.policy = some V ∧
    Custody Sample.market Sample.policy Sample.marketRun.1 L V := by
  obtain ⟨tokens, htokens, p, hp⟩ := Sample.donated
  obtain ⟨V, hV, -⟩ := Ledger.exists_view Sample.chain (Ledger.policyAt_eq_some.mp hp)
  have hexternal : Sample.market.external Sample.marketRun.2 tokens :=
    ⟨_, htokens, Sample.donation_foreign⟩
  have hrun : Reachable Sample.market (Sample.marketRun.1 ++ [])
      { Sample.marketRun.2 with tokens } :=
    (replay_reachable (fun _ ↦ rfl) _).append ((Run.refl _).external hexternal)
  rw [List.append_nil] at hrun
  have hview := (Ledger.view_tokens tokens).trans hV
  exact ⟨_, V, hview, hrun.custody Sample.market_lawful Sample.market_unsigned hview⟩

end FundingVaults.LaunchV7
