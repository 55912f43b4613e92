import FundingVaults.Covenant.Rule
import FundingVaults.Lib.Platform
import FundingVaults.Lib.Quota
import FundingVaults.PurposeVault.Custody
import FundingVaults.PurposeVault.Window
import Mathlib.Algebra.Order.Pi

/-!
# One month of releases

The program checks its counters one release at a time, the covenant looks at the totals of a month.
Over one period with one fresh report the two agree: the checks of the program are a gate that keeps
a quota on the totals of the two vaults, and the quota is the rule of the covenant.
-/

namespace FundingVaults.PurposeVault

open Anchor

/-! ## The window under a fresh report -/

/-- The share of the reported volume that the market absorbs. -/
def MarketInput.absorption (m : MarketInput) : ℕ :=
  m.eligibleVolume.val * m.marketCapacityBps.val / 10000

theorem marketCapacity_of_le (volume : U64) {bps : U16} (h : bps.val ≤ 10000) :
    ∃ c, marketCapacity volume bps = .ok c ∧ c.val = volume.val * bps.val / 10000 := by
  have hvolume := volume.isLt
  have hproduct : volume.val * bps.val ≤ volume.val * 10000 := Nat.mul_le_mul_left _ h
  obtain ⟨c, hc⟩ := U64.exists_val_eq (x := volume.val * bps.val / 10000) (by omega)
  refine ⟨c, ?_, hc.symm⟩
  simp only [marketCapacity, bind_eq_ok, okOr_eq_ok, checkedMul128_eq_some, U64.tryFrom_eq_some]
  exact ⟨_, ⟨by omega, rfl⟩, congrArg Nat.cast hc⟩

/-- A fresh report opens the absorbed share, up to the hard ceiling. -/
theorem windowCapacity_fresh {p : PolicyWindow} {m : MarketInput} {now : I64}
    (hcount : 0 < m.reportCount) (hfresh : Fresh now m.updatedAt m.maxAgeSeconds)
    (hbps : m.marketCapacityBps.val ≤ 10000) :
    ∃ c, windowCapacity (p.inputs m now) = .ok c ∧ c.val = min m.absorption p.hardCeiling.val := by
  obtain ⟨c, hc, hval⟩ := marketCapacity_of_le m.eligibleVolume hbps
  refine ⟨min c p.hardCeiling, ?_, ?_⟩
  · have hisOk : (assertFresh (p.inputs m now).now (p.inputs m now).updatedAt
        (p.inputs m now).maxAgeSeconds).isOk := assertFresh_isOk.mpr hfresh
    simp only [windowCapacity, bind_eq_ok, require_eq_ok, exists_const]
    refine ⟨hcount, ?_⟩
    rw [if_pos hisOk]
    simp only [effectiveCapacity, bind_eq_ok, pure_eq_ok]
    exact ⟨c, hc, rfl⟩
  · rw [MarketInput.absorption, ← hval]
    exact Fin.coe_min c p.hardCeiling

/-! ## A release within the counters -/

/-- A rolled account counts what it had and the release. -/
theorem Debited.usedIn {gate : ReleaseGate} {now : I64} {period amount : U64} {p' : PolicyWindow}
    {v' : CovenantVault} (h : Debited gate now period amount p' v') :
    p'.usedIn period = gate.policy.usedIn period + amount.val ∧
      v'.usedIn period = gate.vault.usedIn period + amount.val := by
  have hpolicy : ¬ p'.currentPeriodIndex.val < period.val := by
    rw [h.rolledPolicy]
    simp only [PolicyWindow.roll, gt_iff_lt, Fin.lt_def]
    split <;> simp_all
  have hvault : ¬ v'.currentPeriodIndex.val < period.val := by
    rw [h.rolledVault]
    simp only [CovenantVault.roll, gt_iff_lt, Fin.lt_def]
    split <;> simp_all
  rw [PolicyWindow.usedIn, if_neg hpolicy, CovenantVault.usedIn, if_neg hvault]
  exact ⟨h.policy, h.vault⟩

/-- A release passes the gate if the counters have room for it. -/
theorem applyRelease_of {gate : ReleaseGate} {now : I64} {period amount : U64} {p' : PolicyWindow}
    {v' : CovenantVault} (h : Debited gate now period amount p' v') :
    applyRelease gate now period amount = .ok (p', v') := by
  obtain ⟨capacity, hcapacity, hfits⟩ := h.window
  have hterms := roll_vault_terms gate.vault period
  have hcap : (gate.vault.roll period).monthlyCap = gate.vault.monthlyCap :=
    (congrArg CovenantVault.monthlyCap hterms :)
  have hdeposit : (gate.vault.roll period).depositedAmount = gate.vault.depositedAmount :=
    (congrArg CovenantVault.depositedAmount hterms :)
  simp only [applyRelease, bind_eq_ok, require_eq_ok, okOr_eq_ok, pure_eq_ok, exists_const,
    U64.checkedAdd_eq_some, Prod.mk.injEq, gt_iff_lt, roll_policy_used, roll_vault_used,
    roll_vault_total]
  exact ⟨h.positive, capacity, hcapacity, _, h.vault.symm, h.cap.trans_eq hcap.symm, _, h.total.symm,
    h.deposit.trans_eq hdeposit.symm, _, h.policy.symm, hfits, h.rolledPolicy.symm,
    h.rolledVault.symm⟩

/-- The accounts of a release load. -/
theorem Release.load_of {chain : Chain} {L : Ledger Stored} {signers : List Pubkey}
    (k : Release.Keys) {p : PolicyWindow} {m : MarketInput} {v : CovenantVault} {mint : Mint}
    {source destination : TokenAccount} (hsound : L.Sound chain ID) (hsigned : k.authority ∈ signers)
    (hp : L.program k.policy = some (.policy p)) (hm : L.program k.market = some (.market m))
    (hv : L.program k.vault = some (.vault v)) (hauthority : v.authority = k.authority)
    (hvm : v.mint = k.mint) (hph : v.policyHash = p.policyHash) (hmh : m.policyHash = p.policyHash)
    (hmint : L.tokens.mint k.mint = some mint) (hinit : mint.isInitialized)
    (hsource : L.tokens.account k.vaultToken = some source) (hsole : source.SoleOwner k.mint k.vault)
    (htoken : chain.findProgramAddress (tokenSeeds k.vault) ID = (k.vaultToken, v.tokenVaultBump))
    (hdest : L.tokens.account k.destination = some destination)
    (hstate : destination.state = .initialized) (hdm : destination.mint = k.mint) :
    Release.load chain L signers k = .ok {
      authority := k.authority, mint := ⟨k.mint, mint⟩, vault := ⟨k.vault, v⟩
      policy := ⟨k.policy, p⟩, market := ⟨k.market, m⟩, vaultToken := ⟨k.vaultToken, source⟩
      destination := ⟨k.destination, destination⟩ } := by
  have hvs := (hsound.canonical hv).create
  have hps := (hsound.canonical hp).create
  have hms := (hsound.canonical hm).create
  have hts := chain.create_find (tokenSeeds k.vault) ID
  simp only [Derived.seeds, Derived.bump, hauthority, hvm] at hvs hps hms
  rw [htoken] at hts
  have huninit : ∀ {t : TokenAccount}, t.state = .initialized → t.state ≠ .uninitialized := by
    intro t ht
    rw [ht]
    decide
  simp only [Release.load, bind_eq_ok, pure_eq_ok, signer_eq_ok, loadMint_eq_ok, loadAs_eq_ok,
    checkSeeds_eq_ok, hasOne_eq_ok, loadToken_eq_ok, tokenAuthority_eq_ok, exists_const,
    Stored.vault?_eq_some, Stored.policy?_eq_some, Stored.market?_eq_some, exists_eq_right]
  refine ⟨hsigned, ⟨k.mint, mint⟩, ⟨hmint, hinit, rfl⟩, ⟨k.vault, v⟩, ⟨hv, rfl⟩, hvs, hvm,
    ⟨k.policy, p⟩, ⟨hp, rfl⟩, ?_, ⟨k.market, m⟩, ⟨hm, rfl⟩, ?_, ⟨k.vaultToken, source⟩,
    ⟨hsource, huninit hsole.state, hsole.mint, rfl⟩, hts, hsole.owner,
    ⟨k.destination, destination⟩, ⟨hdest, huninit hstate, hdm, rfl⟩, rfl⟩
  · rw [hph]
    exact hps
  · rw [hph, ← hmh]
    exact hms

/-- A transfer changes amounts only. -/
theorem move_account {T : Tokens} {source destination key : Pubkey} {amount : ℕ} {a : TokenAccount}
    (h : T.account key = some a) :
    ∃ n, (T.move source destination amount).account key = some { a with amount := n } := by
  change ∃ n, (T.account key).map _ = _
  rw [h]
  exact ⟨_, rfl⟩

/-! ## A month -/

/-- A release that somebody asks for. -/
structure Request where
  kind : VaultKind
  now : I64
  signers : List Pubkey
  destination : Pubkey
  amount : U64

/-- What a request adds to the totals of the two vaults. -/
def Request.weight (r : Request) : VaultKind → ℕ := Pi.single r.kind r.amount.val

@[simp] theorem Request.weight_self (r : Request) : r.weight r.kind = r.amount.val :=
  Pi.single_eq_same _ _

theorem Request.weight_of_ne {r : Request} {k : VaultKind} (h : k ≠ r.kind) : r.weight k = 0 :=
  Pi.single_eq_of_ne h _

theorem Request.weight_sum (r : Request) :
    r.weight .Beneficiary + r.weight .Purpose = r.amount.val := by
  obtain ⟨kind, now, signers, destination, amount⟩ := r
  cases kind <;> simp [Request.weight]

/-- The totals of a list of requests. -/
def totals (rs : List Request) : VaultKind → ℕ := (rs.map Request.weight).sum

/-- A beneficiary vault and a purpose vault, as a period begins for them. -/
structure Month where
  policyKey : Pubkey
  marketKey : Pubkey
  approvalKey : Pubkey
  vaultKey : VaultKind → Pubkey
  policy : PolicyWindow
  market : MarketInput
  approval : Approval
  vault : VaultKind → CovenantVault
  tokens : Tokens
  period : U64

namespace Month

variable (chain : Chain) (M : Month) (r : Request) (L : Ledger Stored)

/-- The accounts that a request names. -/
def keys : Release.Keys where
  authority := (M.vault r.kind).authority
  mint := (M.vault r.kind).mint
  vault := M.vaultKey r.kind
  policy := M.policyKey
  market := M.marketKey
  vaultToken := PurposeVault.vaultToken chain (M.vaultKey r.kind)
  destination := r.destination

def instruction : Instruction :=
  match r.kind with
  | .Beneficiary => .releaseBeneficiary (M.keys chain r) r.amount
  | .Purpose => .releasePurpose (M.keys chain r) M.approvalKey r.amount

/-- The program's answer to a request. -/
def release : Result CovenantError (Ledger Stored) :=
  process chain L ⟨r.now, r.signers, M.instruction chain r⟩

/-- The two vaults are under one policy, with zero counters for the period and an unconsumed
approval for it. -/
structure Opens : Prop where
  policy : L.program M.policyKey = some (.policy M.policy)
  market : L.program M.marketKey = some (.market M.market)
  approval : L.program M.approvalKey = some (.approval M.approval)
  vault : ∀ k, L.program (M.vaultKey k) = some (.vault (M.vault k))
  tokens : L.tokens = M.tokens
  kind : ∀ k, (M.vault k).kind = k
  policyHash : ∀ k, (M.vault k).policyHash = M.policy.policyHash
  marketHash : M.market.policyHash = M.policy.policyHash
  approved : M.approval.vault = M.vaultKey .Purpose ∧
    M.approval.approver = (M.vault .Purpose).authority ∧ M.approval.periodIndex = M.period
  unconsumed : M.approval.consumed = 0
  unused : M.policy.usedIn M.period = 0 ∧ ∀ k, (M.vault k).usedIn M.period = 0
  reported : 0 < M.market.reportCount

/-- A positive request in the period, while the report is fresh, from past the cliff on and with a
mature approval, to an account that may be paid. -/
structure Admits : Prop where
  positive : 0 < r.amount
  signed : (M.vault r.kind).authority ∈ r.signers
  period : periodIndex r.now M.policy.genesisTs = .ok M.period
  fresh : Fresh r.now M.market.updatedAt M.market.maxAgeSeconds
  cliff : r.kind = .Beneficiary → (M.vault r.kind).cliffEndTs ≤ r.now
  mature : r.kind = .Purpose → ∃ notice, r.now.checkedSub M.approval.createdAt = some notice ∧
    MIN_NOTICE_SECONDS ≤ notice.val
  payee : ∃ d, M.tokens.account r.destination = some d ∧ d.state = .initialized ∧
    d.mint = (M.vault r.kind).mint ∧
    (r.kind = .Beneficiary → d.owner = (M.vault r.kind).authority) ∧
    (r.kind = .Purpose → M.approval.destination = r.destination ∧
      d.owner ≠ (M.vault r.kind).authority)

/-- What the totals of the month have to keep. -/
structure Keeps (t : VaultKind → ℕ) : Prop where
  cap : ∀ k, t k ≤ (M.vault k).monthlyCap.val
  deposit : ∀ k, (M.vault k).releasedTotal.val + t k ≤ (M.vault k).depositedAmount.val
  need : t .Purpose ≤ M.approval.approvedNeed.val
  window : t .Beneficiary + t .Purpose ≤ min M.market.absorption M.policy.hardCeiling.val

theorem isLowerSet_keeps : IsLowerSet {t | M.Keeps t} := by
  intro t t' hle h
  exact {
    cap := fun k ↦ (hle k).trans (h.cap k)
    deposit := fun k ↦ (Nat.add_le_add_left (hle k) _).trans (h.deposit k)
    need := (hle _).trans h.need
    window := (Nat.add_le_add (hle _) (hle _)).trans h.window }

def quota : LowerSet (VaultKind → ℕ) := ⟨{t | M.Keeps t}, M.isLowerSet_keeps⟩

/-- The ledger once `t` has been released in the month. -/
structure Stands (t : VaultKind → ℕ) : Prop where
  custodial : Custodial chain L
  market : L.program M.marketKey = some (.market M.market)
  policy : ∃ p, L.program M.policyKey = some (.policy p) ∧ p.terms = M.policy.terms ∧
    p.usedIn M.period = t .Beneficiary + t .Purpose
  vault : ∀ k, ∃ v, L.program (M.vaultKey k) = some (.vault v) ∧ v.terms = (M.vault k).terms ∧
    v.usedIn M.period = t k ∧ v.releasedTotal.val = (M.vault k).releasedTotal.val + t k
  approval : ∃ a, L.program M.approvalKey = some (.approval a) ∧ a.terms = M.approval.terms ∧
    a.consumed.val = t .Purpose
  accounts : ∀ key a, M.tokens.account key = some a →
    ∃ amount, L.tokens.account key = some { a with amount }

variable {chain M r L} {L₀ L' : Ledger Stored} {t : VaultKind → ℕ} {p' : PolicyWindow}
  {v' : CovenantVault} {T : Tokens} {ctx : Release} {period : U64}

/-- What a request leaves of the policy, of its vault and of the tokens. -/
structure Debit (M : Month) (r : Request) (t : VaultKind → ℕ) (p' : PolicyWindow)
    (v' : CovenantVault) (T : Tokens) : Prop where
  policyTerms : p'.terms = M.policy.terms
  policyUsed : p'.usedIn M.period = t .Beneficiary + t .Purpose
  vaultTerms : v'.terms = (M.vault r.kind).terms
  vaultUsed : v'.usedIn M.period = t r.kind
  vaultTotal : v'.releasedTotal.val = (M.vault r.kind).releasedTotal.val + t r.kind
  cap : t r.kind ≤ (M.vault r.kind).monthlyCap.val
  deposit : v'.releasedTotal.val ≤ (M.vault r.kind).depositedAmount.val
  window : t .Beneficiary + t .Purpose ≤ min M.market.absorption M.policy.hardCeiling.val
  accounts : ∀ key a, M.tokens.account key = some a →
    ∃ amount, T.account key = some { a with amount }

theorem Stands.debit (ho : M.Opens L₀) (hbps : M.market.marketCapacityBps.val ≤ 10000)
    (hd : chain.transferChecked = Tokens.transferChecked) (h : M.Stands chain L t)
    (hr : M.Admits r)
    (hrel : Released chain L r.now r.signers (M.keys chain r) r.amount ctx T)
    (hperiod : period.val = periodOf ctx.policy.data.genesisTs r.now)
    (hdeb : Debited ctx.gate r.now period r.amount p' v') :
    period = M.period ∧ M.Debit r (t + r.weight) p' v' T := by
  obtain ⟨p, hp, hpt, hpu⟩ := h.policy
  obtain ⟨v, hv, hvt, hvu, hvr⟩ := h.vault r.kind
  have hp' : ctx.policy.data = p := Stored.policy.inj (Option.some.inj (hrel.policy.symm.trans hp))
  have hv' : ctx.vault.data = v := Stored.vault.inj (Option.some.inj (hrel.vault.symm.trans hv))
  have hm' : ctx.market.data = M.market :=
    Stored.market.inj (Option.some.inj (hrel.market.symm.trans h.market))
  have hgate : ctx.gate = ⟨p, v, M.market⟩ := by rw [Release.gate, hp', hv', hm']
  have hgenesis : p.genesisTs = M.policy.genesisTs := (congrArg PolicyWindow.genesisTs hpt :)
  have hceiling : p.hardCeiling = M.policy.hardCeiling := (congrArg PolicyWindow.hardCeiling hpt :)
  have hcap : v.monthlyCap = (M.vault r.kind).monthlyCap := (congrArg CovenantVault.monthlyCap hvt :)
  have hdep : v.depositedAmount = (M.vault r.kind).depositedAmount :=
    (congrArg CovenantVault.depositedAmount hvt :)
  obtain rfl : period = M.period := by
    have hcur := (periodIndex_eq_ok.mp hr.period).2.2
    rw [hp', hgenesis, ← hcur] at hperiod
    exact Fin.ext hperiod
  rw [hgate] at hdeb
  obtain ⟨hpused, hvused⟩ := hdeb.usedIn
  have hsum := r.weight_sum
  refine ⟨rfl, {
    policyTerms := hdeb.terms.1.trans hpt
    policyUsed := ?_
    vaultTerms := hdeb.terms.2.trans hvt
    vaultUsed := ?_
    vaultTotal := ?_
    cap := ?_
    deposit := hdep ▸ hdeb.deposit
    window := ?_
    accounts := ?_ }⟩
  · simp only [hpused, hpu, Pi.add_apply]
    omega
  · simp [hvused, hvu]
  · rw [hdeb.total]
    simp [hvr, Nat.add_assoc]
  · have hle := hdeb.cap
    rw [Fin.le_def, hdeb.vault, hcap] at hle
    simpa [hvu] using hle
  · obtain ⟨c, hc, hval⟩ := windowCapacity_fresh (p := p) ho.reported hr.fresh hbps
    obtain ⟨c', hc', hle⟩ := hdeb.window
    obtain rfl := Except.ok.inj (hc'.symm.trans hc)
    rw [Fin.le_def, hdeb.policy, hval, hceiling] at hle
    simp only [hpu, Pi.add_apply] at hle ⊢
    omega
  · have ht := hrel.transfer
    rw [hd] at ht
    intro key a ha
    obtain ⟨n, hn⟩ := h.accounts key a ha
    obtain ⟨s, hs, hsole, -⟩ := (h.custodial.vaults hv).held
    have hvm : v.mint = (M.vault r.kind).mint := (congrArg CovenantVault.mint hvt :)
    rw [hvm] at hsole
    obtain ⟨-, -, -, -, -, -, -, -, -, rfl⟩ :=
      (Tokens.transferChecked_of_soleOwner hs hsole).mp ht
    obtain ⟨n', hn'⟩ := move_account hn
    exact ⟨n', hn'⟩

/-- The totals fit if they did before and the vault of the request has room. -/
theorem Debit.keeps (h : M.Debit r (t + r.weight) p' v' T) (ht : M.Keeps t)
    (hneed : (t + r.weight) .Purpose ≤ M.approval.approvedNeed.val) : M.Keeps (t + r.weight) where
  cap k := by
    by_cases hk : k = r.kind
    · exact hk ▸ h.cap
    · simpa [Request.weight_of_ne hk] using ht.cap k
  deposit k := by
    by_cases hk : k = r.kind
    · rw [hk, ← h.vaultTotal]
      exact h.deposit
    · simpa [Request.weight_of_ne hk] using ht.deposit k
  need := hneed
  window := h.window

/-- The ledger of the month after a request. -/
theorem Debit.stands (h : M.Debit r (t + r.weight) p' v' T) (hs : M.Stands chain L t)
    (hcustodial : Custodial chain L') (htokens : L'.tokens = T)
    (hpolicy : L'.program M.policyKey = some (.policy p'))
    (hmarket : L'.program M.marketKey = some (.market M.market))
    (hvault : L'.program (M.vaultKey r.kind) = some (.vault v'))
    (hother : ∀ k ≠ r.kind, L'.program (M.vaultKey k) = L.program (M.vaultKey k))
    (happroval : ∃ a, L'.program M.approvalKey = some (.approval a) ∧
      a.terms = M.approval.terms ∧ a.consumed.val = (t + r.weight) .Purpose) :
    M.Stands chain L' (t + r.weight) where
  custodial := hcustodial
  market := hmarket
  policy := ⟨p', hpolicy, h.policyTerms, h.policyUsed⟩
  vault k := by
    by_cases hk : k = r.kind
    · exact hk ▸ ⟨v', hvault, h.vaultTerms, h.vaultUsed, h.vaultTotal⟩
    · simpa [hother k hk, Request.weight_of_ne hk] using hs.vault k
  approval := happroval
  accounts := htokens ▸ h.accounts

/-- Vaults of different kinds are different accounts. -/
theorem Stands.vaultKey_inj (ho : M.Opens L₀) (h : M.Stands chain L t) {k k' : VaultKind}
    (hkey : M.vaultKey k = M.vaultKey k') : k = k' := by
  obtain ⟨v, hv, hvt, -⟩ := h.vault k
  obtain ⟨v', hv', hvt', -⟩ := h.vault k'
  rw [hkey, hv'] at hv
  obtain rfl := Stored.vault.inj (Option.some.inj hv)
  have hkind : v'.kind = (M.vault k).kind := (congrArg CovenantVault.kind hvt :)
  have hkind' : v'.kind = (M.vault k').kind := (congrArg CovenantVault.kind hvt' :)
  rw [← ho.kind k, ← hkind, hkind', ho.kind k']

/-- Where the accounts of the month are after the policy and the vault of a request are written. -/
theorem Stands.debit_program (r : Request) (p' : PolicyWindow) (v' : CovenantVault)
    (ho : M.Opens L₀) (h : M.Stands chain L t) :
    PurposeVault.debit L.program (M.keys chain r) p' v' M.policyKey = some (.policy p') ∧
      PurposeVault.debit L.program (M.keys chain r) p' v' M.marketKey = some (.market M.market) ∧
      PurposeVault.debit L.program (M.keys chain r) p' v' (M.vaultKey r.kind) = some (.vault v') ∧
      (∀ k ≠ r.kind, PurposeVault.debit L.program (M.keys chain r) p' v' (M.vaultKey k) =
        L.program (M.vaultKey k)) ∧
      PurposeVault.debit L.program (M.keys chain r) p' v' M.approvalKey = L.program M.approvalKey := by
  obtain ⟨p, hp, -⟩ := h.policy
  obtain ⟨a, ha, -⟩ := h.approval
  obtain ⟨v, hv, -⟩ := h.vault r.kind
  -- Accounts of different kinds have different addresses.
  have hne : ∀ {i j : Pubkey} {b c : Stored}, L.program i = some b → L.program j = some c → b ≠ c →
      i ≠ j := by
    rintro i j b c hb hc hbc rfl
    exact hbc (Option.some.inj (hb.symm.trans hc))
  have hframe : ∀ {i : Pubkey}, i ≠ M.policyKey → i ≠ M.vaultKey r.kind →
      PurposeVault.debit L.program (M.keys chain r) p' v' i = L.program i := fun hi hi' ↦
    (Function.update_of_ne hi' _ _).trans (Function.update_of_ne hi _ _)
  refine ⟨?_, ?_, Function.update_self .., fun k hk ↦ ?_, ?_⟩
  · rw [PurposeVault.debit]
    exact (Function.update_of_ne (hne hp hv (by simp)) _ _).trans (Function.update_self ..)
  · rw [hframe (hne h.market hp (by simp)) (hne h.market hv (by simp)), h.market]
  · obtain ⟨w, hw, -⟩ := h.vault k
    exact hframe (hne hw hp (by simp)) fun heq ↦ hk (h.vaultKey_inj ho heq)
  · exact hframe (hne ha hp (by simp)) (hne ha hv (by simp))

/-- An accepted request keeps the quota, and the ledger stands at the new totals. -/
theorem Stands.step (ho : M.Opens L₀) (hbps : M.market.marketCapacityBps.val ≤ 10000)
    (hd : chain.transferChecked = Tokens.transferChecked) (h : M.Stands chain L t)
    (ht : M.Keeps t) (hr : M.Admits r) (hp : M.release chain r L = .ok L') :
    M.Keeps (t + r.weight) ∧ M.Stands chain L' (t + r.weight) := by
  have hsound := (process_keeps hp).sound h.custodial.sound
  obtain ⟨a, ha, hat, hac⟩ := h.approval
  cases hk : r.kind with
  | Beneficiary =>
    simp only [release, instruction, hk] at hp
    obtain ⟨ctx, period, p', v', T, hrel, -, hperiod, hdeb, rfl⟩ := process_releaseBeneficiary hp
    obtain ⟨rfl, hdebit⟩ := h.debit ho hbps hd hr hrel hperiod hdeb
    have hzero : r.weight .Purpose = 0 := Request.weight_of_ne (by simp [hk])
    obtain ⟨hpol, hmar, hvau, hoth, happ⟩ := h.debit_program r p' v' ho
    refine ⟨hdebit.keeps ht (by simpa [hzero] using ht.need),
      hdebit.stands h ⟨hsound, h.custodial.release hrel hdeb hd⟩ rfl hpol hmar hvau hoth
        ⟨a, happ.trans ha, hat, by simpa [hzero] using hac⟩⟩
  | Purpose =>
    simp only [release, instruction, hk] at hp
    obtain ⟨ctx, period, p', v', b, b', T, hrel, -, hperiod, hdeb, hb, -, hc, rfl⟩ :=
      process_releasePurpose hp
    obtain rfl := Stored.approval.inj (Option.some.inj (ha.symm.trans hb))
    obtain ⟨rfl, hdebit⟩ := h.debit ho hbps hd hr hrel hperiod hdeb
    have hamount : r.weight .Purpose = r.amount.val := hk ▸ r.weight_self
    obtain ⟨hpol, hmar, hvau, hoth, happ⟩ := h.debit_program r p' v' ho
    -- The approval is written last, and is none of the other accounts.
    have hne : ∀ {i : Pubkey} {c : Stored}, PurposeVault.debit L.program (M.keys chain r) p' v' i =
        some c → (∀ x, c ≠ .approval x) → i ≠ M.approvalKey := by
      rintro i c hi hc rfl
      exact hc a (Option.some.inj (hi.symm.trans (happ.trans ha)))
    have hframe : ∀ {i : Pubkey} {c : Stored}, PurposeVault.debit L.program (M.keys chain r) p' v' i =
        some c → (∀ x, c ≠ .approval x) →
        Function.update (PurposeVault.debit L.program (M.keys chain r) p' v') M.approvalKey
          (some (.approval b')) i = some c := fun hi hc ↦
      (Function.update_of_ne (hne hi hc) _ _).trans hi
    have hterms : b'.terms = a.terms := by
      rw [hc.kept]
      rfl
    have hconsumed : b'.consumed.val = (t + r.weight) .Purpose := by
      rw [hc.consumed, hac, Pi.add_apply, hamount]
    have hneed : a.approvedNeed = M.approval.approvedNeed := (congrArg Approval.approvedNeed hat :)
    refine ⟨hdebit.keeps ht ?_, hdebit.stands h ⟨hsound, fun {i w} hw ↦ ?_⟩ rfl
      (hframe hpol (by simp)) (hframe hmar (by simp)) (hframe hvau (by simp)) (fun k hk' ↦ ?_)
      ⟨b', Function.update_self .., hterms.trans hat, hconsumed⟩⟩
    · rw [← hconsumed, ← hneed]
      exact hc.need
    · rcases update_cases hw with ⟨-, heq⟩ | ⟨-, hw⟩
      · exact absurd heq (by simp)
      · exact h.custodial.release hrel hdeb hd hw
    · obtain ⟨w, hw, -⟩ := h.vault k
      rw [hw]
      exact hframe ((hoth k hk').trans hw) (by simp)

/-- The accounts of a request load, its release passes the gate and the tokens move. -/
structure Ready (chain : Chain) (M : Month) (r : Request) (L : Ledger Stored) (ctx : Release)
    (p' : PolicyWindow) (v' : CovenantVault) (T : Tokens) : Prop where
  load : Release.load chain L r.signers (M.keys chain r) = .ok ctx
  kind : ctx.vault.data.kind = r.kind
  genesis : ctx.policy.data.genesisTs = M.policy.genesisTs
  cliff : ctx.vault.data.cliffEndTs = (M.vault r.kind).cliffEndTs
  authority : ctx.authority = (M.vault r.kind).authority
  payee : ctx.destination.key = r.destination ∧
    (r.kind = .Beneficiary → ctx.destination.data.owner = (M.vault r.kind).authority) ∧
    (r.kind = .Purpose → M.approval.destination = r.destination ∧
      ctx.destination.data.owner ≠ (M.vault r.kind).authority)
  gate : applyRelease ⟨ctx.policy.data, ctx.vault.data, ctx.market.data⟩ r.now M.period r.amount =
    .ok (p', v')
  transfer : chain.transferChecked L.tokens (ctx.payout r.amount) = some T

theorem Stands.ready (ho : M.Opens L₀) (hbps : M.market.marketCapacityBps.val ≤ 10000)
    (hd : chain.transferChecked = Tokens.transferChecked) (h : M.Stands chain L t)
    (hr : M.Admits r) (hkeeps : M.Keeps (t + r.weight)) :
    ∃ ctx p' v' T, M.Ready chain r L ctx p' v' T := by
  obtain ⟨p, hp, hpt, hpu⟩ := h.policy
  obtain ⟨v, hv, hvt, hvu, hvr⟩ := h.vault r.kind
  obtain ⟨d, hdest, hstate, hdm, hown⟩ := hr.payee
  obtain ⟨n, hdest⟩ := h.accounts _ _ hdest
  have hc := h.custodial.vaults hv
  obtain ⟨mint, hmint, hinit, -, hdec⟩ := hc.mint
  obtain ⟨source, hsource, hsole, hheld⟩ := hc.held
  have hvm : v.mint = (M.vault r.kind).mint := (congrArg CovenantVault.mint hvt :)
  have hvk : v.kind = (M.vault r.kind).kind := (congrArg CovenantVault.kind hvt :)
  have hva : v.authority = (M.vault r.kind).authority := (congrArg CovenantVault.authority hvt :)
  have hvh : v.policyHash = (M.vault r.kind).policyHash := (congrArg CovenantVault.policyHash hvt :)
  have hph : p.policyHash = M.policy.policyHash := (congrArg PolicyWindow.policyHash hpt :)
  have hcap : v.monthlyCap = (M.vault r.kind).monthlyCap := (congrArg CovenantVault.monthlyCap hvt :)
  have hdep : v.depositedAmount = (M.vault r.kind).depositedAmount :=
    (congrArg CovenantVault.depositedAmount hvt :)
  have hceiling : p.hardCeiling = M.policy.hardCeiling := (congrArg PolicyWindow.hardCeiling hpt :)
  rw [hvm] at hmint hsole
  rw [hdep] at hheld
  have hcapped := hkeeps.cap r.kind
  have hdeposit := hkeeps.deposit r.kind
  have hwindow := hkeeps.window
  have hsum := r.weight_sum
  simp only [Pi.add_apply, Request.weight_self] at hcapped hdeposit hwindow
  -- The new counters are numbers of the program.
  have h₁ := (M.vault r.kind).monthlyCap.isLt
  have h₂ := (M.vault r.kind).depositedAmount.isLt
  have h₃ := M.policy.hardCeiling.isLt
  obtain ⟨used, hused⟩ := U64.exists_val_eq (x := v.usedIn M.period + r.amount.val) (by omega)
  obtain ⟨total, htotal⟩ := U64.exists_val_eq (x := v.releasedTotal.val + r.amount.val) (by omega)
  obtain ⟨window, hwin⟩ := U64.exists_val_eq (x := p.usedIn M.period + r.amount.val) (by omega)
  have hdebited : Debited ⟨p, v, M.market⟩ r.now M.period r.amount
      { p.roll M.period with releasedThisPeriod := window }
      { v.roll M.period with releasedThisPeriod := used, releasedTotal := total } := by
    obtain ⟨c, hc, hval⟩ := windowCapacity_fresh (p := p) ho.reported hr.fresh hbps
    exact {
      positive := hr.positive
      window := ⟨c, hc, by rw [Fin.le_def, hval, hceiling]; dsimp only; omega⟩
      policy := hwin.symm
      vault := hused.symm
      total := htotal.symm
      cap := by rw [Fin.le_def]; dsimp only; rw [hcap]; omega
      deposit := by rw [Fin.le_def]; dsimp only; rw [hdep]; omega
      rolledPolicy := rfl
      rolledVault := rfl }
  have hload := Release.load_of (M.keys chain r) h.custodial.sound hr.signed hp h.market hv hva hvm
    (hvh.trans ((ho.policyHash r.kind).trans hph.symm)) (ho.marketHash.trans hph.symm)
    hmint hinit hsource hsole hc.token hdest hstate hdm
  obtain ⟨T, hT⟩ : ∃ T, chain.transferChecked L.tokens {
      source := vaultToken chain (M.vaultKey r.kind), mint := (M.vault r.kind).mint
      destination := r.destination, authority := M.vaultKey r.kind, amount := r.amount.val
      decimals := v.mintDecimals } = some T := by
    rw [hd]
    exact ⟨_, (Tokens.transferChecked_of_soleOwner hsource hsole).mpr
      ⟨_, mint, hdest, hstate, hdm, hmint, hinit, hdec, by dsimp only; omega, rfl⟩⟩
  exact ⟨_, _, _, T, {
    load := hload
    kind := hvk.trans (ho.kind _)
    genesis := (congrArg PolicyWindow.genesisTs hpt :)
    cliff := (congrArg CovenantVault.cliffEndTs hvt :)
    authority := rfl
    payee := ⟨rfl, hown⟩
    gate := applyRelease_of hdebited
    transfer := hT }⟩

/-- A request that keeps the quota is accepted. -/
theorem Stands.takes (ho : M.Opens L₀) (hbps : M.market.marketCapacityBps.val ≤ 10000)
    (hd : chain.transferChecked = Tokens.transferChecked) (h : M.Stands chain L t)
    (hr : M.Admits r) (hkeeps : M.Keeps (t + r.weight)) : ∃ L', M.release chain r L = .ok L' := by
  obtain ⟨ctx, p', v', T, hready⟩ := h.ready ho hbps hd hr hkeeps
  obtain ⟨hdest, hben, hpur⟩ := hready.payee
  have hperiod : periodIndex r.now ctx.policy.data.genesisTs = .ok M.period := by
    rw [hready.genesis, hr.period]
  have htransfer : (L.transfer chain (ctx.payout r.amount) : Result CovenantError _) =
      .ok { L with tokens := T } := Ledger.transfer_eq_ok.mpr ⟨T, hready.transfer, rfl⟩
  cases hk : r.kind with
  | Beneficiary =>
    have hload : ReleaseBeneficiary.load chain L r.signers (M.keys chain r) = .ok ctx := by
      simp only [ReleaseBeneficiary.load, bind_eq_ok, pure_eq_ok, tokenAuthority_eq_ok,
        exists_const]
      exact ⟨ctx, hready.load, hben hk, rfl⟩
    have hhandler : releaseBeneficiaryHandler r.now ctx r.amount = .ok (p', v') := by
      simp only [releaseBeneficiaryHandler, bind_eq_ok, require_eq_ok, exists_const]
      exact ⟨hready.kind.trans hk, hready.cliff ▸ hr.cliff hk, M.period, hperiod, hready.gate⟩
    refine ⟨({ L with tokens := T }.write M.policyKey (.policy p')).write (M.vaultKey r.kind)
      (.vault v'), ?_⟩
    simp only [release, instruction, hk, process, bind_eq_ok, pure_eq_ok, Prod.exists]
    exact ⟨ctx, hload, p', v', hhandler, _, htransfer, by rw [← hk]; rfl⟩
  | Purpose =>
    obtain ⟨a, ha, hat, hac⟩ := h.approval
    obtain ⟨notice, hnotice, hmature⟩ := hr.mature hk
    obtain ⟨hav, haa, hap⟩ := ho.approved
    have hvault : a.vault = M.approval.vault := (congrArg Approval.vault hat :)
    have hperiodOf : a.periodIndex = M.approval.periodIndex := (congrArg Approval.periodIndex hat :)
    have happrover : a.approver = M.approval.approver := (congrArg Approval.approver hat :)
    have hdestination : a.destination = M.approval.destination :=
      (congrArg Approval.destination hat :)
    have hcreated : a.createdAt = M.approval.createdAt := (congrArg Approval.createdAt hat :)
    have happroved : a.approvedNeed = M.approval.approvedNeed :=
      (congrArg Approval.approvedNeed hat :)
    have hamount : r.weight .Purpose = r.amount.val := hk ▸ r.weight_self
    have hneed := hkeeps.need
    rw [Pi.add_apply, hamount] at hneed
    have hlt := M.approval.approvedNeed.isLt
    obtain ⟨consumed, hconsumed⟩ :=
      U64.exists_val_eq (x := a.consumed.val + r.amount.val) (by omega)
    have hseeds := (h.custodial.sound.canonical ha).create
    have hload : ReleasePurpose.load chain L r.signers (M.keys chain r) M.approvalKey =
        .ok (ctx, ⟨M.approvalKey, a⟩) := by
      simp only [ReleasePurpose.load, bind_eq_ok, pure_eq_ok, loadAs_eq_ok, checkSeeds_eq_ok,
        hasOne_eq_ok, exists_const, Stored.approval?_eq_some, exists_eq_right]
      refine ⟨ctx, hready.load, ⟨M.approvalKey, a⟩, ⟨ha, rfl⟩, ?_, ?_, ?_, rfl⟩
      · change chain.createProgramAddress (approvalSeeds (M.vaultKey r.kind) _ ++ _) ID = _
        rw [hk, ← hav, ← hvault]
        exact hseeds
      · exact (hvault.trans hav).trans (by rw [← hk]; rfl)
      · exact (happrover.trans haa).trans (by rw [← hk]; rfl)
    have hhandler : releasePurposeHandler r.now ctx a r.amount =
        .ok (p', v', { a with consumed }) := by
      simp only [releasePurposeHandler, bind_eq_ok, require_eq_ok, okOr_eq_ok, pure_eq_ok,
        exists_const, U64.checkedAdd_eq_some, Prod.exists]
      refine ⟨hready.kind.trans hk, ?_, ?_, M.period, hperiod, hperiodOf.trans hap, notice, ?_,
        hmature, consumed, hconsumed, ?_, p', v', hready.gate, rfl⟩
      · rw [hdestination, hdest]
        exact (hpur hk).1
      · rw [hready.authority]
        exact (hpur hk).2
      · rw [hcreated, hnotice]
      · rw [Fin.le_def, happroved]
        omega
    refine ⟨(({ L with tokens := T }.write M.policyKey (.policy p')).write (M.vaultKey r.kind)
      (.vault v')).write M.approvalKey (.approval { a with consumed }), ?_⟩
    simp only [release, instruction, hk, process, bind_eq_ok, pure_eq_ok, Prod.exists]
    exact ⟨ctx, _, hload, p', v', _, hhandler, _, htransfer, by rw [← hk]; rfl⟩

/-- The checks of the program are a gate that keeps the quota of the month. -/
theorem gate (ho : M.Opens L₀) (hbps : M.market.marketCapacityBps.val ≤ 10000)
    (hd : chain.transferChecked = Tokens.transferChecked) :
    Gate M.quota (fun L t ↦ M.Stands chain L t ∧ M.Keeps t) Request.weight M.Admits
      (fun L r ↦ M.release chain r L) where
  takes := by
    rintro L t r ⟨h, ht⟩ hr hkeeps
    obtain ⟨L', hL'⟩ := h.takes ho hbps hd hr hkeeps
    obtain ⟨hkeeps', hstands⟩ := h.step ho hbps hd ht hr hL'
    exact ⟨L', hL', hstands, hkeeps'⟩
  fits := by
    rintro L t r L' ⟨h, ht⟩ hr hL'
    exact (h.step ho hbps hd ht hr hL').1

/-! ## The month as the covenant sees it -/

/-- The month with the totals `t` as a request to the covenant.  A ceiling of all ones is none. -/
structure Posed (M : Month) (q : Covenant.ReleaseRequest) (t : VaultKind → ℕ) : Prop where
  beneficiaryBalance :
    q.beneficiaryLockedBalanceAtYearStart = (M.vault .Beneficiary).depositedAmount.val
  purposeBalance : q.purposeLockedBalanceAtYearStart = (M.vault .Purpose).depositedAmount.val
  rate : ∀ k, q.annualReleaseBps = (M.vault k).annualReleaseBps.val
  volume : q.eligibleTrailing30dSpotVolume = M.market.eligibleVolume.val
  marketRate : q.marketCapacityBps = M.market.marketCapacityBps.val
  ceiling : q.hardCeiling = some (M.policy.hardCeiling.val : ℚ) ∨
    q.hardCeiling = none ∧ M.policy.hardCeiling.val = 2 ^ 64 - 1
  months : q.beneficiaryCliffMonths ≤ q.beneficiaryMonthsSinceGenesis
  need : q.purposeApprovedNeed = M.approval.approvedNeed.val
  beneficiary : Covenant.netRelease q.beneficiaryEvents = t .Beneficiary
  purpose : Covenant.netRelease q.purposeEvents = t .Purpose

/-- The deposits have enough left for the totals `t`, or at least for a month. -/
def Room (M : Month) (t : VaultKind → ℕ) : Prop :=
  ∀ k, (M.vault k).releasedTotal.val + min (t k) (M.vault k).monthlyCap.val ≤
    (M.vault k).depositedAmount.val

variable {q : Covenant.ReleaseRequest}

theorem Posed.bps_le (h : M.Posed q t) : M.market.marketCapacityBps.val ≤ 500 := by
  have hle := q.marketRate_le
  rw [h.marketRate] at hle
  exact_mod_cast hle

theorem Posed.absorption (h : M.Posed q t) :
    Covenant.floorDiv (q.eligibleTrailing30dSpotVolume * q.marketCapacityBps)
      Covenant.BPS_DENOMINATOR = M.market.absorption := by
  have hdiv := Covenant.floorDiv_natCast
    (M.market.eligibleVolume.val * M.market.marketCapacityBps.val) 10000
  rw [h.volume, h.marketRate, Covenant.BPS_DENOMINATOR]
  exact_mod_cast hdiv

/-- The covenant allows the month exactly if the totals keep the quota. -/
theorem Posed.allowed_iff (h : M.Posed q t) (hshare : ∀ k, (M.vault k).monthlyCap.val =
      monthlyShare (M.vault k).depositedAmount.val (M.vault k).annualReleaseBps.val)
    (hroom : M.Room t) : (Covenant.evaluateRelease q).allowed ↔ M.Keeps t := by
  have hcap : ∀ k, ((M.vault k).monthlyCap.val : ℤ) = Covenant.monthlyRateCap
      (M.vault k).depositedAmount.val (M.vault k).annualReleaseBps.val := by
    intro k
    rw [Covenant.monthlyRateCap_natCast, hshare k]
    rfl
  have hB := hcap .Beneficiary
  have hP := hcap .Purpose
  rw [← h.rate, ← h.beneficiaryBalance] at hB
  rw [← h.rate, ← h.purposeBalance] at hP
  have habsorbed : M.market.absorption ≤ 2 ^ 64 - 1 := by
    have hbps := h.bps_le
    have hvolume := M.market.eligibleVolume.isLt
    have hproduct : M.market.eligibleVolume.val * M.market.marketCapacityBps.val ≤
        M.market.eligibleVolume.val * 500 := Nat.mul_le_mul_left _ hbps
    unfold MarketInput.absorption
    omega
  rw [Covenant.evaluateRelease_allowed, h.beneficiary, h.purpose]
  constructor
  · intro ha
    have hb : t .Beneficiary ≤ (M.vault .Beneficiary).monthlyCap.val := by
      have hle := ha.beneficiaryRate
      rw [← hB] at hle
      exact_mod_cast hle
    have hp : t .Purpose ≤ (M.vault .Purpose).monthlyCap.val := by
      have hle := ha.purposeRate
      rw [← hP] at hle
      exact_mod_cast hle
    have hle : ∀ k, t k ≤ (M.vault k).monthlyCap.val := fun k ↦ by cases k <;> assumption
    have habs := ha.absorption
    rw [h.absorption] at habs
    norm_cast at habs
    have hneed := ha.need
    rw [h.need] at hneed
    refine ⟨hle, fun k ↦ by have := hroom k; have := hle k; omega, by exact_mod_cast hneed,
      le_min habs ?_⟩
    rcases h.ceiling with hc | ⟨-, hc⟩
    · have hceil := ha.ceiling _ hc
      exact_mod_cast hceil
    · rw [hc]
      exact habs.trans habsorbed
  · intro hk
    have hwindow := hk.window
    exact {
      cliff := fun hlt ↦ absurd h.months (not_le.mpr hlt)
      beneficiaryRate := by
        rw [← hB]
        exact_mod_cast hk.cap .Beneficiary
      purposeRate := by
        rw [← hP]
        exact_mod_cast hk.cap .Purpose
      need := by
        rw [h.need]
        exact_mod_cast hk.need
      absorption := by
        rw [h.absorption]
        exact_mod_cast hwindow.trans (min_le_left _ _)
      ceiling := by
        intro c hc
        rcases h.ceiling with hceil | ⟨hceil, -⟩
        · obtain rfl := Option.some.inj (hceil.symm.trans hc)
          exact_mod_cast hwindow.trans (min_le_right _ _)
        · exact absurd (hceil.symm.trans hc) (by simp) }

/-- The program accepts a month of releases in full exactly if the covenant allows its totals, and
then it accepts every other order and splitting of them. -/
theorem accepts_iff_allowed {external : Ledger Stored → Tokens → Prop}
    {tr : List (Event Stored Instruction)} {rs : List Request}
    (hd : Lawful (program chain external) ID) (h : Reachable (program chain external) tr L)
    (hs : Unsigned chain ID tr) (ho : M.Opens L) (hrs : ∀ r ∈ rs, M.Admits r)
    (hroom : M.Room (totals rs)) (hq : M.Posed q (totals rs)) :
    ((∃ L', rs.foldlM (fun L r ↦ M.release chain r L) L = .ok L') ↔
        (Covenant.evaluateRelease q).allowed) ∧
      ((Covenant.evaluateRelease q).allowed →
        ∀ rs' : List Request, (∀ r ∈ rs', M.Admits r) → totals rs' = totals rs →
          ∃ L', rs'.foldlM (fun L r ↦ M.release chain r L) L = .ok L') := by
  have hcustodial := custodial hd h hs
  have htransfer : chain.transferChecked = Tokens.transferChecked := hd.transfer
  have hgate := gate ho (hq.bps_le.trans (by decide)) htransfer
  have hallowed := hq.allowed_iff (fun k ↦ (hcustodial.vaults (ho.vault k)).share) hroom
  have hzero : (M.Stands chain L 0 ∧ M.Keeps 0) ∧ (0 : VaultKind → ℕ) ∈ M.quota := by
    have hkeeps : M.Keeps 0 := {
      cap := fun k ↦ Nat.zero_le _
      deposit := fun k ↦ le_trans (Nat.add_le_add_left (Nat.zero_le _) _) (hroom k)
      need := Nat.zero_le _
      window := Nat.zero_le _ }
    refine ⟨⟨?_, hkeeps⟩, hkeeps⟩
    exact {
      custodial := hcustodial
      market := ho.market
      policy := ⟨_, ho.policy, rfl, ho.unused.1⟩
      vault := fun k ↦ ⟨_, ho.vault k, rfl, ho.unused.2 k, rfl⟩
      approval := ⟨_, ho.approval, rfl, by rw [ho.unconsumed]; rfl⟩
      accounts := fun key a ha ↦ ⟨a.amount, by rw [ho.tokens, ha]⟩ }
  have haccepts : ∀ xs : List Request, (∀ r ∈ xs, M.Admits r) → totals xs = totals rs →
      ((∃ L', xs.foldlM (fun L r ↦ M.release chain r L) L = .ok L') ↔
        (Covenant.evaluateRelease q).allowed) := by
    intro xs hxs hsum
    rw [hgate.foldlM_iff hzero.1 hzero.2 hxs, zero_add, hallowed]
    exact iff_of_eq (congrArg (· ∈ M.quota) hsum)
  exact ⟨haccepts rs hrs rfl, fun ha rs' hrs' hsum ↦ (haccepts rs' hrs' hsum).mpr ha⟩

end Month

/-! ## A month of two vaults -/

namespace Sample

/-- Both vaults are funded and the oracle has reported for period 25. -/
def funded : List (Event Stored Instruction) × Ledger Stored :=
  replay (program chain (Anchor.market chain ID)) genesis (funding ++ [report 64801000 oracle 400000])

def covenantVault (kind : VaultKind) (authority : Pubkey) (depositedAmount monthlyCap : U64)
    (cliffEnd : UInt32) (tokenVaultBump : U8) : CovenantVault where
  kind
  depositor
  authority
  mint
  policyHash
  depositedAmount
  monthlyCap
  releasedTotal := 0
  releasedThisPeriod := 0
  currentPeriodIndex := 0
  genesisTs := clockAt 1000
  cliffEndTs := clockAt cliffEnd
  annualReleaseBps := 500
  mintDecimals := 9
  stateBump := 253
  tokenVaultBump

def month : Month where
  policyKey := policy
  marketKey := market
  approvalKey := approval
  vaultKey := fun | .Beneficiary => personal | .Purpose => common
  policy := {
    authority, mint, policyHash, genesisTs := clockAt 1000, currentPeriodIndex := 0
    releasedThisPeriod := 0, hardCeiling := 12000, silenceFloor := 3000
    silenceGraceSeconds := clockAt 15552000, vaultCount := 2, bump := 253 }
  market := {
    oracle, policyHash, eligibleVolume := 400000, updatedAt := clockAt 64801000
    maxAgeSeconds := clockAt 259200, reportCount := 1, marketCapacityBps := 250, bump := 253
    pendingOracle := Bytes32.zero, pendingSince := 0 }
  approval := {
    vault := common, approver, destination := payeeToken, periodIndex := 25, approvedNeed := 4000
    consumed := 0, createdAt := clockAt 2000, bump := 255 }
  vault := fun
    | .Beneficiary => covenantVault .Beneficiary beneficiary 2400000 10000 63073000 254
    | .Purpose => covenantVault .Purpose approver 1200000 5000 1000 255
  tokens := funded.2.tokens
  period := 25

def request (kind : VaultKind) (amount : U64) : Request where
  kind
  now := clockAt 64801000
  signers := match kind with | .Beneficiary => [beneficiary] | .Purpose => [approver]
  destination := match kind with | .Beneficiary => beneficiaryToken | .Purpose => payeeToken
  amount

/-- The absorbed volume of 10000 is spent in three releases. -/
def requests : List Request :=
  [request .Beneficiary 4000, request .Purpose 4000, request .Beneficiary 2000]

def covenantFields : Covenant.Fields where
  periodId := "2028-09"
  beneficiaryLockedBalanceAtYearStart := 2400000
  purposeLockedBalanceAtYearStart := 1200000
  annualReleaseBps := 500
  eligibleTrailing30dSpotVolume := 400000
  marketCapacityBps := 250
  beneficiaryMonthsSinceGenesis := 25
  beneficiaryEvents := [⟨.SALE, 6000, by decide⟩]
  purposeEvents := [⟨.GRANT, 4000, by decide⟩]
  purposeApprovedNeed := 4000
  hardCeiling := some 12000

def covenantRequest : Covenant.ReleaseRequest := ⟨covenantFields, by decide +kernel⟩

theorem opens : month.Opens funded.2 where
  policy := by decide +kernel
  market := by decide +kernel
  approval := by decide +kernel
  vault k := by cases k <;> decide +kernel
  tokens := rfl
  kind k := by cases k <;> rfl
  policyHash k := by cases k <;> rfl
  marketHash := rfl
  approved := ⟨rfl, rfl, rfl⟩
  unconsumed := rfl
  unused := ⟨rfl, fun k ↦ by cases k <;> rfl⟩
  reported := by decide

theorem admits_request {kind : VaultKind} {amount : U64} (hpos : 0 < amount) :
    month.Admits (request kind amount) where
  positive := hpos
  signed := by cases kind <;> exact List.mem_singleton_self _
  period := (by decide +kernel : periodIndex (clockAt 64801000) (clockAt 1000) = .ok 25)
  fresh := ⟨(by decide +kernel : 0 ≤ (clockAt 64801000).val - (clockAt 64801000).val),
    (by decide +kernel :
      (clockAt 64801000).val - (clockAt 64801000).val ≤ (clockAt 259200).val)⟩
  cliff := by
    rintro rfl
    exact (by decide +kernel : clockAt 63073000 ≤ clockAt 64801000)
  mature _ := ⟨clockAt 64799000,
    (by decide +kernel : (clockAt 64801000).checkedSub (clockAt 2000) = some (clockAt 64799000)),
    by decide +kernel⟩
  payee := by
    cases kind with
    | Beneficiary =>
      exact ⟨tokenAccount beneficiary 0,
        (by decide +kernel : funded.2.tokens.account beneficiaryToken = _), rfl, rfl, fun _ ↦ rfl,
        nofun⟩
    | Purpose =>
      exact ⟨tokenAccount payee 0, (by decide +kernel : funded.2.tokens.account payeeToken = _), rfl,
        rfl, nofun, fun _ ↦ ⟨rfl, (by decide +kernel : payee ≠ approver)⟩⟩

theorem admits : ∀ r ∈ requests, month.Admits r := by
  intro r hr
  simp only [requests, List.mem_cons, List.not_mem_nil, or_false] at hr
  rcases hr with rfl | rfl | rfl <;> exact admits_request (by decide)

theorem posed : month.Posed covenantRequest (totals requests) where
  beneficiaryBalance := by decide +kernel
  purposeBalance := by decide +kernel
  rate k := by cases k <;> decide +kernel
  volume := by decide +kernel
  marketRate := by decide +kernel
  ceiling := .inl (by decide +kernel)
  months := by decide +kernel
  need := by decide +kernel
  beneficiary := by decide +kernel
  purpose := by decide +kernel

end Sample

theorem accepts_iff_allowed_sample : (Covenant.evaluateRelease Sample.covenantRequest).allowed ∧
    ∃ L', Sample.requests.foldlM (fun L r ↦ Sample.month.release Sample.chain r L)
      Sample.funded.2 = .ok L' := by
  have hallowed : (Covenant.evaluateRelease Sample.covenantRequest).allowed := by decide +kernel
  have hrun : Reachable (program Sample.chain (Anchor.market Sample.chain ID)) Sample.funded.1
      Sample.funded.2 := ⟨Sample.genesis, fun _ ↦ rfl, replay_run _ _ _⟩
  have hlawful : Lawful (program Sample.chain (Anchor.market Sample.chain ID)) ID :=
    ⟨rfl, market_respects⟩
  have hunsigned : Unsigned Sample.chain ID Sample.funded.1 := replay_unsigned (by decide +kernel)
  have hroom : Sample.month.Room (totals Sample.requests) := fun k ↦ by cases k <;> decide +kernel
  exact ⟨hallowed, (Month.accepts_iff_allowed hlawful hrun hunsigned Sample.opens Sample.admits hroom
    Sample.posed).1.mpr hallowed⟩

end FundingVaults.PurposeVault
