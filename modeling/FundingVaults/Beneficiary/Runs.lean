import FundingVaults.Beneficiary.Effects

/-!
# The beneficiary vault over whole runs

A vault stores counters, not its history.  `Kept` says what they mean: the period counter is what
the history released in the period that it names, the total is what the history released, and the
balance of the token account is the deposit and the donations less that total.

The invariant is by induction on the run.  An address that holds no vault has no history, which is
what makes a deposit the first event of the vault it creates.
-/

namespace FundingVaults.Beneficiary

open Anchor

/-! ## Histories of a vault -/

/-- A release of one vault: when, how much, and who owned the account that received it. -/
structure Payment where
  now : I64
  amount : U64
  recipient : Option Pubkey

def payment (key : Pubkey) : Event BeneficiaryVault Instruction → Option Payment
  | .accepted before ⟨now, _, .release k amount⟩ _ =>
    if k.vaultState = key then
      some ⟨now, amount, (before.tokens.account k.beneficiaryToken).map TokenAccount.owner⟩
    else none
  | _ => none

/-- The releases of the vault at `key`. -/
def payments (key : Pubkey) (tr : List (Event BeneficiaryVault Instruction)) : List Payment :=
  tr.filterMap (payment key)

def balance (T : Tokens) (key : Pubkey) : ℕ := ((T.account key).map TokenAccount.amount).getD 0

def donation (key : Pubkey) : Event BeneficiaryVault Instruction → ℕ
  | .external before tokens => balance tokens key - balance before.tokens key
  | _ => 0

/-- What other programs paid into the token account at `key`. -/
def donations (key : Pubkey) (tr : List (Event BeneficiaryVault Instruction)) : ℕ :=
  (tr.map (donation key)).sum

/-- The event creates the vault at `key`. -/
def Creates (key : Pubkey) : Event BeneficiaryVault Instruction → Prop
  | .accepted _ ⟨_, _, .deposit k _ _ _ _⟩ _ => k.vaultState = key
  | _ => False

/-- What a vault is created with and never changes. -/
def BeneficiaryVault.terms (v : BeneficiaryVault) : BeneficiaryVault :=
  { v with releasedTotal := 0, releasedThisPeriod := 0, currentPeriodIndex := 0 }

/-- The event is the deposit that created `v`. -/
def Born (chain : Chain) (key : Pubkey) (v : BeneficiaryVault)
    (e : Event BeneficiaryVault Instruction) : Prop :=
  ∃ before now signers k amount bps cliffSeconds policyHash tokens after,
    e = .accepted before ⟨now, signers, .deposit k amount bps cliffSeconds policyHash⟩ after ∧
      k.vaultState = key ∧
      Deposited chain before now signers k amount bps cliffSeconds policyHash v.terms tokens

/-- The period of a release, counted from the end of the cliff. -/
def BeneficiaryVault.periodOf (v : BeneficiaryVault) (x : Payment) : ℕ :=
  FundingVaults.periodOf v.cliffEndTs x.now

def Payment.weight (x : Payment) : ℕ := x.amount.val

section Histories

variable {key : Pubkey} {tr : List (Event BeneficiaryVault Instruction)}
  {e : Event BeneficiaryVault Instruction}

@[simp] theorem payments_nil : payments key [] = [] := rfl

theorem payments_snoc : payments key (tr ++ [e]) = payments key tr ++ (payment key e).toList := by
  simp only [payments, List.filterMap_append, List.filterMap_cons, List.filterMap_nil]
  cases payment key e <;> rfl

theorem payments_snoc_of_none (h : payment key e = none) :
    payments key (tr ++ [e]) = payments key tr := by
  simp [payments_snoc, h]

@[simp] theorem donations_nil : donations key [] = 0 := rfl

@[simp] theorem donations_snoc : donations key (tr ++ [e]) = donations key tr + donation key e := by
  simp [donations]

/-- A release happens at the time of a transaction. -/
theorem now_mem_times {x : Payment} (hx : x ∈ payments key tr) : x.now ∈ times tr := by
  obtain ⟨e, he, hpay⟩ := List.mem_filterMap.mp hx
  refine List.mem_filterMap.mpr ⟨e, he, ?_⟩
  obtain ⟨before, ⟨now, signers, instr⟩, after⟩ | ⟨before, tokens⟩ := e
  · cases instr with
    | deposit k amount bps cliffSeconds policyHash => simp [payment] at hpay
    | release k amount =>
      simp only [payment, Option.ite_none_right_eq_some, Option.some.injEq] at hpay
      obtain ⟨-, rfl⟩ := hpay
      rfl
  · simp [payment] at hpay

end Histories

/-! ## The invariant -/

/-- What the accounts of a vault say about its history. -/
structure Kept (chain : Chain) (tr : List (Event BeneficiaryVault Instruction))
    (L : Ledger BeneficiaryVault) (key : Pubkey) (v : BeneficiaryVault) : Prop where
  born : ∃ pre e post, tr = pre ++ e :: post ∧ Born chain key v e ∧
    (∀ x ∈ pre ++ post, ¬ Creates key x) ∧ ∃ a,
      L.tokens.account (vaultToken chain key) = some a ∧ a.SoleOwner v.mint key ∧
      a.amount + v.releasedTotal.val =
        v.depositedAmount.val + donations (vaultToken chain key) post
  mint : ∃ m, L.tokens.mint v.mint = some m ∧ m.isInitialized ∧ m.freezeAuthority = none ∧
    m.decimals = v.mintDecimals
  counts : Counts v.periodOf Payment.weight (payments key tr) v.currentPeriodIndex.val
    v.releasedThisPeriod.val
  current : v.currentPeriodIndex.val = 0 ∨
    ∃ x ∈ payments key tr, v.periodOf x = v.currentPeriodIndex.val
  total : v.releasedTotal.val = spent Payment.weight (payments key tr)
  capped : ∀ k, spentIn v.periodOf Payment.weight k (payments key tr) ≤ v.monthlyCap.val
  deposit : v.releasedTotal ≤ v.depositedAmount
  cliff : ∀ x ∈ payments key tr, v.cliffEndTs ≤ x.now
  recipient : ∀ x ∈ payments key tr, x.recipient = some v.beneficiary

/-- An address without a vault has no history. -/
structure Untouched (tr : List (Event BeneficiaryVault Instruction)) (key : Pubkey) : Prop where
  notCreated : ∀ x ∈ tr, ¬ Creates key x
  unpaid : payments key tr = []

/-- The invariant of a run. -/
structure Accounted (chain : Chain) (tr : List (Event BeneficiaryVault Instruction))
    (L : Ledger BeneficiaryVault) : Prop where
  sound : L.Sound chain ID
  kept : ∀ key v, L.program key = some v → Kept chain tr L key v
  untouched : ∀ key, L.program key = none → Untouched tr key

section Invariant

variable {chain : Chain} {L L' : Ledger BeneficiaryVault} {now : I64} {signers : List Pubkey}
  {amount : U64} {v v' : BeneficiaryVault} {tokens : Tokens} {key : Pubkey}
  {tr : List (Event BeneficiaryVault Instruction)} {e : Event BeneficiaryVault Instruction}

@[simp] theorem roll_terms (period : U64) : (v.roll period).terms = v.terms := by
  unfold BeneficiaryVault.roll
  split <;> rfl

theorem Released.terms {k : Release.Keys}
    (h : Released chain L now signers k amount v v' tokens) : v'.terms = v.terms := by
  obtain ⟨period, used, total, -, -, -, -, -, rfl⟩ := h.counters
  exact roll_terms period

theorem roll_congr (v : BeneficiaryVault) (period : U64)
    (h : v.currentPeriodIndex.val ≤ period.val) : (v.roll period).cliffEndTs = v.cliffEndTs ∧
      (v.roll period).monthlyCap = v.monthlyCap ∧
      (v.roll period).depositedAmount = v.depositedAmount ∧ (v.roll period).mint = v.mint ∧
      (v.roll period).mintDecimals = v.mintDecimals ∧
      (v.roll period).beneficiary = v.beneficiary ∧
      (v.roll period).currentPeriodIndex = period := by
  unfold BeneficiaryVault.roll
  split
  · exact ⟨rfl, rfl, rfl, rfl, rfl, rfl, rfl⟩
  · next hlt =>
    rw [gt_iff_lt, Fin.lt_def] at hlt
    exact ⟨rfl, rfl, rfl, rfl, rfl, rfl, Fin.ext (by omega)⟩

theorem Born.congr (h : Born chain key v e) (ht : v'.terms = v.terms) : Born chain key v' e := by
  unfold Born
  rw [ht]
  exact h

theorem Born.token (h : Born chain key v e) :
    chain.findProgramAddress (tokenSeeds key) ID = (vaultToken chain key, v.tokenVaultBump) := by
  obtain ⟨before, now, signers, k, amount, bps, cliffSeconds, policyHash, tokens, after, -, rfl,
    h⟩ := h
  rw [vaultToken, h.token]
  rfl

/-- An event that leaves the vault, its token account and its mint alone keeps all of it. -/
theorem Kept.frame (h : Kept chain tr L key v) (hpay : payment key e = none)
    (hcreate : ¬ Creates key e)
    (haccount : ∀ a, L.tokens.account (vaultToken chain key) = some a → a.SoleOwner v.mint key →
      ∃ a', L'.tokens.account (vaultToken chain key) = some a' ∧ a'.SoleOwner v.mint key ∧
        a'.amount = a.amount + donation (vaultToken chain key) e)
    (hmint : ∀ m, L.tokens.mint v.mint = some m → m.isInitialized → m.freezeAuthority = none →
      ∃ m', L'.tokens.mint v.mint = some m' ∧ m'.isInitialized ∧ m'.freezeAuthority = none ∧
        m'.decimals = m.decimals) : Kept chain (tr ++ [e]) L' key v := by
  have hpayments : payments key (tr ++ [e]) = payments key tr := payments_snoc_of_none hpay
  obtain ⟨pre, d, post, rfl, hborn, honce, a, ha, hown, hbal⟩ := h.born
  obtain ⟨a', ha', hown', hbal'⟩ := haccount a ha hown
  obtain ⟨m, hm, hi, hf, hdec⟩ := h.mint
  obtain ⟨m', hm', hi', hf', hdec'⟩ := hmint m hm hi hf
  refine ⟨⟨pre, d, post ++ [e], by simp, hborn, ?_, a', ha', hown', ?_⟩,
    ⟨m', hm', hi', hf', hdec'.trans hdec⟩, ?_, ?_, ?_, ?_, h.deposit, ?_, ?_⟩
  · intro x hx
    rw [← List.append_assoc] at hx
    rcases List.mem_append.mp hx with hx | hx
    · exact honce x hx
    · rw [List.mem_singleton.mp hx]
      exact hcreate
  · rw [donations_snoc, hbal']
    omega
  all_goals rw [hpayments]
  · exact h.counts
  · exact h.current
  · exact h.total
  · exact h.capped
  · exact h.cliff
  · exact h.recipient

theorem Untouched.snoc (h : Untouched tr key) (hpay : payment key e = none)
    (hcreate : ¬ Creates key e) : Untouched (tr ++ [e]) key where
  notCreated x hx := by
    rcases List.mem_append.mp hx with hx | hx
    · exact h.notCreated x hx
    · rw [List.mem_singleton.mp hx]
      exact hcreate
  unpaid := by rw [payments_snoc_of_none hpay, h.unpaid]

theorem Deposited.canonical {k : Deposit.Keys} {bps : U16} {cliffSeconds : I64}
    {policyHash : Bytes32}
    (h : Deposited chain L now signers k amount bps cliffSeconds policyHash v tokens) :
    Canonical chain ID k.vaultState v := by
  obtain ⟨cap, cliffEndTs, -, -, -, hv⟩ := h.created
  have hstate := h.state
  rw [hv] at hstate ⊢
  exact hstate

theorem Released.canonical {k : Release.Keys}
    (h : Released chain L now signers k amount v v' tokens)
    (hc : Canonical chain ID k.vaultState v) : Canonical chain ID k.vaultState v' := by
  have hs : Derived.seeds v'.terms = Derived.seeds v.terms := by rw [h.terms]
  have hb : Derived.bump v'.terms = Derived.bump v.terms := by rw [h.terms]
  exact hc.congr hs hb

/-! ## Steps -/

section Steps

variable (hd : chain.transferChecked = Tokens.transferChecked)
include hd

/-- A transfer that a signer makes into another account keeps what the vault's address owns. -/
theorem transfer_frame {T T' : Tokens} {t : TransferChecked} (mint : Pubkey)
    (ht : chain.transferChecked T t = some T') (hauth : t.authority ≠ key)
    (hdest : t.destination ≠ vaultToken chain key) :
    (∀ a, T.account (vaultToken chain key) = some a → a.SoleOwner mint key →
      ∃ a', T'.account (vaultToken chain key) = some a' ∧ a'.SoleOwner mint key ∧
        a'.amount = a.amount) ∧ T'.mint = T.mint := by
  rw [hd] at ht
  refine ⟨fun a ha ho ↦ ⟨a, ?_, ho, rfl⟩, Tokens.transferChecked_mint ht⟩
  exact Tokens.transferChecked_account ht ha ho hauth hdest

/-- A deposit creates another vault. -/
theorem Kept.deposit_other {k : Deposit.Keys} {bps : U16} {cliffSeconds : I64}
    {policyHash : Bytes32} {w : BeneficiaryVault} (h : Kept chain tr L key v)
    (hdep : Deposited chain L now signers k amount bps cliffSeconds policyHash w tokens)
    (hkey : key ∉ signers) (hne : k.vaultState ≠ key) :
    Kept chain (tr ++ [.accepted L ⟨now, signers,
      .deposit k amount bps cliffSeconds policyHash⟩ L'])
      (({ L with tokens } : Ledger BeneficiaryVault).write k.vaultState w) key v := by
  have hauth : k.depositor ≠ key := fun heq ↦ hkey (heq ▸ hdep.depositor)
  obtain ⟨-, -, -, -, -, -, a, ha, hown, -⟩ := h.born
  have hfresh : k.vaultToken ≠ vaultToken chain key := by
    intro heq
    have hvac := (Ledger.vacant_iff.mp hdep.tokenVacant).2.1
    rw [heq, ha] at hvac
    exact absurd hvac (Option.some_ne_none a)
  obtain ⟨haccount, hmint⟩ := transfer_frame hd v.mint hdep.transfer hauth hfresh
  refine h.frame rfl hne ?_ ?_
  · intro b hb ho
    refine haccount b ?_ ho
    simpa [Ledger.createToken, Function.update_apply, Ne.symm hfresh] using hb
  · intro m hm hi hf
    refine ⟨m, ?_, hi, hf, rfl⟩
    rw [Ledger.write_tokens, show tokens.mint = _ from hmint]
    exact hm

/-- A release from another vault. -/
theorem Kept.release_other {k : Release.Keys} {w w' : BeneficiaryVault}
    (h : Kept chain tr L key v) (hrel : Released chain L now signers k amount w w' tokens)
    (hkey : key ∉ signers) (hne : k.vaultState ≠ key) :
    Kept chain (tr ++ [.accepted L ⟨now, signers, .release k amount⟩ L'])
      (({ L with tokens } : Ledger BeneficiaryVault).write k.vaultState w') key v := by
  obtain ⟨-, -, -, -, -, -, a, ha, hown, -⟩ := h.born
  have hdest : k.beneficiaryToken ≠ vaultToken chain key := by
    intro heq
    obtain ⟨t, ht, -, -, ho⟩ := hrel.destination
    rw [heq, ha] at ht
    obtain rfl := Option.some.inj ht
    exact hkey (by rw [← hown.owner, ho]; exact hrel.signed)
  obtain ⟨haccount, hmint⟩ := transfer_frame hd v.mint hrel.transfer hne hdest
  refine h.frame (by simp [payment, hne]) id haccount ?_
  intro m hm hi hf
  refine ⟨m, ?_, hi, hf, rfl⟩
  rw [Ledger.write_tokens, show tokens.mint = _ from hmint]
  exact hm

/-- The deposit that creates the vault. -/
theorem Kept.fresh {k : Deposit.Keys} {bps : U16} {cliffSeconds : I64} {policyHash : Bytes32}
    (h : Untouched tr k.vaultState)
    (hdep : Deposited chain L now signers k amount bps cliffSeconds policyHash v tokens) :
    Kept chain (tr ++ [.accepted L ⟨now, signers,
      .deposit k amount bps cliffSeconds policyHash⟩ L'])
      (({ L with tokens } : Ledger BeneficiaryVault).write k.vaultState v) k.vaultState v := by
  obtain ⟨m, hm, hi, -, hf, hdec⟩ := hdep.mint
  obtain ⟨cap, cliffEndTs, hcap, hcap₀, hend, hv⟩ := hdep.created
  have ht := hdep.transfer
  rw [hd] at ht
  have htoken : vaultToken chain k.vaultState = k.vaultToken := by rw [vaultToken, hdep.token]
  have hpay : payments k.vaultState (tr ++ [.accepted L ⟨now, signers,
      .deposit k amount bps cliffSeconds policyHash⟩ L']) = [] := by
    rw [payments_snoc_of_none rfl, h.unpaid]
  have hsource : k.depositorToken ≠ k.vaultToken := by
    intro heq
    obtain ⟨a, ha, -⟩ := hdep.source
    have hvac := (Ledger.vacant_iff.mp hdep.tokenVacant).2.1
    rw [← heq, ha] at hvac
    exact absurd hvac (Option.some_ne_none a)
  obtain ⟨a, ha, hown, hamount⟩ : ∃ a, tokens.account k.vaultToken = some a ∧
      a.SoleOwner k.mint k.vaultState ∧ a.amount = amount.val :=
    ⟨_, Tokens.transferChecked_credit ht (Function.update_self ..) hsource,
      ⟨rfl, rfl, rfl, rfl, rfl⟩, Nat.zero_add _⟩
  have hterms : v.terms = v := by
    rw [hv]
    rfl
  have hcounters : v.releasedTotal = 0 ∧ v.releasedThisPeriod = 0 ∧ v.currentPeriodIndex = 0 ∧
      v.depositedAmount = amount ∧ v.mint = k.mint := by
    rw [hv]
    exact ⟨rfl, rfl, rfl, rfl, rfl⟩
  obtain ⟨h₁, h₂, h₃, h₄, h₅⟩ := hcounters
  refine {
    born := ⟨tr, _, [], rfl, ⟨L, now, signers, k, amount, bps, cliffSeconds, policyHash, tokens, L',
      rfl, rfl, by rw [hterms]; exact hdep⟩, by simpa using h.notCreated, a, ?_, ?_, ?_⟩
    mint := ⟨m, ?_, hi, hf, hdec⟩
    counts := ?_
    current := .inl (by rw [h₃]; rfl)
    total := ?_
    capped := ?_
    deposit := ?_
    cliff := ?_
    recipient := ?_ }
  · rw [htoken]
    exact ha
  · rw [h₅]
    exact hown
  · rw [h₁, h₄, hamount]
    rfl
  · rw [h₅, Ledger.write_tokens, Tokens.transferChecked_mint ht]
    exact hm
  · rw [hpay, h₂, h₃]
    exact .nil
  · rw [hpay, h₁]
    rfl
  · intro j
    rw [hpay]
    exact Nat.zero_le _
  · rw [h₁]
    exact Fin.zero_le _
  · rw [hpay]
    exact fun x hx ↦ absurd hx List.not_mem_nil
  · rw [hpay]
    exact fun x hx ↦ absurd hx List.not_mem_nil

/-- The tokens that a release moves are gone from the vault's account and from nowhere else that
the vault's address owns. -/
theorem Released.pays {k : Release.Keys} {a : TokenAccount}
    (hrel : Released chain L now signers k amount v v' tokens)
    (hfound : chain.findProgramAddress (tokenSeeds k.vaultState) ID =
      (vaultToken chain k.vaultState, v.tokenVaultBump))
    (ha : L.tokens.account (vaultToken chain k.vaultState) = some a)
    (hown : a.SoleOwner v.mint k.vaultState) (hkey : k.vaultState ∉ signers) :
    amount.val ≤ a.amount ∧ tokens.account (vaultToken chain k.vaultState) =
      some { a with amount := a.amount - amount.val } ∧ tokens.mint = L.tokens.mint := by
  have hsource : vaultToken chain k.vaultState = k.vaultToken := by
    have hcreate := chain.create_find (tokenSeeds k.vaultState) ID
    rw [hfound] at hcreate
    exact Option.some.inj (hcreate.symm.trans hrel.sourceSeeds)
  have ht := hrel.transfer
  rw [hd] at ht
  rw [hsource] at ha ⊢
  rw [hrel.vaultMint] at hown
  have hdest : k.vaultToken ≠ k.beneficiaryToken := by
    intro heq
    obtain ⟨t, ht, -, -, ho⟩ := hrel.destination
    rw [← heq, ha] at ht
    obtain rfl := Option.some.inj ht
    exact hkey (by rw [← hown.owner, ho]; exact hrel.signed)
  obtain ⟨hle, haccount⟩ := Tokens.transferChecked_debit ht ha hown hdest
  exact ⟨hle, haccount, Tokens.transferChecked_mint ht⟩

/-- A release from the vault itself. -/
theorem Kept.release_self {k : Release.Keys} (h : Kept chain tr L k.vaultState v)
    (hrel : Released chain L now signers k amount v v' tokens) (hkey : k.vaultState ∉ signers)
    (hclock : ∀ t ∈ times tr, t ≤ now) :
    Kept chain (tr ++ [.accepted L ⟨now, signers, .release k amount⟩ L'])
      (({ L with tokens } : Ledger BeneficiaryVault).write k.vaultState v') k.vaultState v' := by
  obtain ⟨pre, d, post, htr, hborn, honce, a, ha, hown, hbal⟩ := h.born
  obtain ⟨m, hm, hi, hf, hdec⟩ := h.mint
  obtain ⟨hle, haccount, hmints⟩ := hrel.pays hd hborn.token ha hown hkey
  obtain ⟨t, htoken, -, -, howner⟩ := hrel.destination
  have hcounters := hrel.counters
  obtain ⟨period, used, total, hk, hused, hcap, htotal, hdep, rfl⟩ := hcounters
  -- The release lies in the period that the counters are rolled to.
  have hperiod : v.currentPeriodIndex.val ≤ period.val := by
    rcases h.current with h₀ | ⟨x, hx, hcur⟩
    · rw [h₀]
      exact Nat.zero_le _
    · rw [← hcur, hk]
      exact periodOf_mono (hclock _ (now_mem_times hx))
  obtain ⟨x, hx⟩ : ∃ x : Payment, x = ⟨now, amount, some v.beneficiary⟩ := ⟨_, rfl⟩
  have hpay : payments k.vaultState (tr ++ [.accepted L ⟨now, signers, .release k amount⟩ L']) =
      payments k.vaultState tr ++ [x] := by
    rw [payments_snoc, hx]
    simp [payment, htoken, howner, hrel.beneficiary]
  have hxk : v.periodOf x = period.val := by rw [hx, hk]; rfl
  have hw : x.weight = amount.val := by rw [hx]; rfl
  have hcounts := h.counts.snoc (e := x) (by rw [hxk]; exact hperiod)
  have hspent := h.counts.rolled hperiod
  have husedIn : v.usedIn period = spentIn v.periodOf Payment.weight period.val
      (payments k.vaultState tr) := hspent
  obtain ⟨hcliff', hcap', hdep', hmint', hdec', hben', hcur'⟩ := roll_congr v period hperiod
  have hp' : (v.roll period).periodOf = v.periodOf := by
    funext y
    rw [BeneficiaryVault.periodOf, hcliff']
    rfl
  refine {
    born := ⟨pre, d, post ++ [_], by rw [htr, List.append_assoc]; rfl,
      hborn.congr hrel.terms, ?_, _, haccount, ?_, ?_⟩
    mint := ⟨m, ?_, hi, hf, ?_⟩
    counts := ?_
    current := .inr ⟨x, ?_, ?_⟩
    total := ?_
    capped := ?_
    deposit := ?_
    cliff := ?_
    recipient := ?_ }
  · intro y hy
    rw [← List.append_assoc] at hy
    rcases List.mem_append.mp hy with hy | hy
    · exact honce y hy
    · rw [List.mem_singleton.mp hy]
      exact id
  · rw [hmint']
    exact ⟨hown.mint, hown.owner, hown.state, hown.delegate, hown.closeAuthority⟩
  · rw [donations_snoc, hdep', htotal]
    simp only [donation]
    omega
  · rw [hmint', Ledger.write_tokens, hmints]
    exact hm
  · rw [hdec']
    exact hdec
  · change Counts (v.roll period).periodOf _ _ (v.roll period).currentPeriodIndex.val used.val
    rw [hp', hcur', hpay, hused, ← hw, ← hxk]
    unfold BeneficiaryVault.usedIn
    rw [← hxk]
    exact hcounts
  · rw [hpay]
    exact List.mem_append_right _ (List.mem_singleton_self x)
  · change (v.roll period).periodOf x = (v.roll period).currentPeriodIndex.val
    rw [hp', hcur', hxk]
  · change total.val = _
    rw [hpay, spent_snoc, ← h.total, hw, htotal]
  · intro j
    change spentIn (v.roll period).periodOf _ _ _ ≤ (v.roll period).monthlyCap.val
    rw [hp', hcap', hpay]
    refine spentIn_le_snoc h.capped ?_ j
    rw [hxk, hw, ← husedIn, ← hused]
    exact hcap
  · change total ≤ (v.roll period).depositedAmount
    rw [hdep']
    exact hdep
  · intro y hy
    change (v.roll period).cliffEndTs ≤ y.now
    rw [hcliff']
    rw [hpay] at hy
    rcases List.mem_append.mp hy with hy | hy
    · exact h.cliff y hy
    · rw [List.mem_singleton.mp hy, hx]
      exact hrel.cliff
  · intro y hy
    change y.recipient = some (v.roll period).beneficiary
    rw [hben']
    rw [hpay] at hy
    rcases List.mem_append.mp hy with hy | hy
    · exact h.recipient y hy
    · rw [List.mem_singleton.mp hy, hx]

theorem Accounted.accepted {tx : Tx Instruction} (h : Accounted chain tr L)
    (hp : process chain L tx = .ok L')
    (hsigned : ∀ key ∈ tx.signers, ¬ ProgramAddress chain ID key)
    (hclock : ∀ t ∈ times tr, t ≤ tx.now) :
    Accounted chain (tr ++ [.accepted L tx L']) L' := by
  obtain ⟨now, signers, instr⟩ := tx
  have hunsigned : ∀ {key v}, L.program key = some v → key ∉ signers :=
    fun hv hmem ↦ hsigned _ hmem (h.sound.canonical hv).programAddress
  cases instr with
  | deposit k amount bps cliffSeconds policyHash =>
    obtain ⟨v₀, tokens, hdep, rfl⟩ := process_deposit.mp hp
    have hnone := (Ledger.vacant_iff.mp hdep.stateVacant).1
    have hsound : Ledger.Sound chain ID { L with tokens } := h.sound.congr rfl
    refine {
      sound := hsound.write hdep.canonical
      kept := fun key v hv ↦ ?_
      untouched := fun key hv ↦ ?_ }
    · by_cases hkey : key = k.vaultState
      · subst hkey
        rw [Ledger.write_program_self] at hv
        obtain rfl := Option.some.inj hv
        exact .fresh hd (h.untouched _ hnone) hdep
      · rw [Ledger.write_program_of_ne hkey] at hv
        exact (h.kept key v hv).deposit_other hd hdep (hunsigned hv) (Ne.symm hkey)
    · by_cases hkey : key = k.vaultState
      · subst hkey
        simp at hv
      · rw [Ledger.write_program_of_ne hkey] at hv
        exact (h.untouched key hv).snoc rfl (Ne.symm hkey)
  | release k amount =>
    obtain ⟨w, w', tokens, hrel, rfl⟩ := process_release.mp hp
    have hsound : Ledger.Sound chain ID { L with tokens } := h.sound.congr rfl
    refine {
      sound := hsound.write (hrel.canonical (h.sound.canonical hrel.vault))
      kept := fun key v hv ↦ ?_
      untouched := fun key hv ↦ ?_ }
    · by_cases hkey : key = k.vaultState
      · subst hkey
        rw [Ledger.write_program_self] at hv
        obtain rfl := Option.some.inj hv
        exact (h.kept _ w hrel.vault).release_self hd hrel (hunsigned hrel.vault) hclock
      · rw [Ledger.write_program_of_ne hkey] at hv
        exact (h.kept key v hv).release_other hd hrel (hunsigned hv) (Ne.symm hkey)
    · have hkey : key ≠ k.vaultState := by
        rintro rfl
        simp at hv
      rw [Ledger.write_program_of_ne hkey] at hv
      exact (h.untouched key hv).snoc (by simp [payment, Ne.symm hkey]) id

end Steps

theorem Accounted.external (h : Accounted chain tr L)
    (he : Respects (ProgramAddress chain ID) L.tokens tokens) :
    Accounted chain (tr ++ [.external L tokens]) { L with tokens } where
  sound := h.sound.congr rfl
  untouched key hv := (h.untouched key hv).snoc rfl id
  kept key v hv := by
    obtain ⟨m, hm, hi, hf, -⟩ := (h.kept key v hv).mint
    refine (h.kept key v hv).frame rfl id ?_ fun _ ↦ he.mint
    intro a ha ho
    obtain ⟨a', ha', ho', hle⟩ := he.held (h.sound.canonical hv).programAddress ⟨m, hm, hi, hf⟩
      ⟨a, ha, ho, le_rfl⟩
    refine ⟨a', ha', ho', ?_⟩
    simp only [donation, balance, ha, ha', Option.map_some, Option.getD_some]
    omega

end Invariant

/-- Every run keeps the account of every vault. -/
theorem accounted {chain : Chain} {external : Ledger BeneficiaryVault → Tokens → Prop}
    {tr : List (Event BeneficiaryVault Instruction)} {L : Ledger BeneficiaryVault}
    (hd : Lawful (program chain external) ID) (h : Reachable (program chain external) tr L)
    (hs : Unsigned chain ID tr) (hc : Clocked tr) : Accounted chain tr L := by
  obtain ⟨L₀, h₀, hrun⟩ := h
  refine hrun.invariant (I := fun tr L ↦ Unsigned chain ID tr → Clocked tr → Accounted chain tr L)
    (fun _ _ ↦ ?_) (fun _ ih hp hs hc ↦ ?_) (fun _ ih he hs hc ↦ ?_) hs hc
  · exact ⟨.genesis h₀, fun key v hv ↦ by simp [h₀ key] at hv, fun _ _ ↦ ⟨by simp, rfl⟩⟩
  · exact (ih hs.of_append hc.of_append).accepted hd.transfer hp hs.last hc.le
  · exact (ih hs.of_append hc.of_append).external (hd.external he)

end FundingVaults.Beneficiary
