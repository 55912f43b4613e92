import FundingVaults.PurposeVault.Effects

/-!
# The purpose vault over whole runs

A policy and its vaults store counters of the current period.  `Books` says what they mean in terms
of the releases of a history: the policy's counter is what all its vaults released in the period
that it names, a vault's counter is what that vault released in its own, and an approval has
consumed what its vault released in the approved period.

The counters are reset lazily, each account's at its own moment, so the invariant names the period
of each account separately.
-/

namespace FundingVaults.PurposeVault

open Anchor

/-! ## Histories -/

/-- A release: the accounts it names, its time and its amount. -/
structure Payment where
  policy : Pubkey
  vault : Pubkey
  market : Pubkey
  destination : Pubkey
  now : I64
  amount : U64

def payment : Event Stored Instruction → Option Payment
  | .accepted _ ⟨now, _, .releaseBeneficiary k amount⟩ _ =>
    some ⟨k.policy, k.vault, k.market, k.destination, now, amount⟩
  | .accepted _ ⟨now, _, .releasePurpose k _ amount⟩ _ =>
    some ⟨k.policy, k.vault, k.market, k.destination, now, amount⟩
  | _ => none

def payments (tr : List (Event Stored Instruction)) : List Payment := tr.filterMap payment

/-- The releases under the policy at `key`. -/
def paymentsOn (key : Pubkey) (tr : List (Event Stored Instruction)) : List Payment :=
  (payments tr).filter fun x ↦ x.policy = key

/-- The releases from the vault at `key`. -/
def paymentsFrom (key : Pubkey) (tr : List (Event Stored Instruction)) : List Payment :=
  (payments tr).filter fun x ↦ x.vault = key

def Payment.weight (x : Payment) : ℕ := x.amount.val

/-- The period of a release, counted from the genesis of a policy. -/
def Payment.period (genesis : I64) (x : Payment) : ℕ := periodOf genesis x.now

/-- The event is a report to the market input at `key`. -/
def Reports (key : Pubkey) : Event Stored Instruction → Prop
  | .accepted _ ⟨_, _, .reportVolume k _⟩ _ => k.market = key
  | _ => False

/-- The event writes the approval `a` at `key`. -/
def Writes (key : Pubkey) (a : Approval) : Event Stored Instruction → Prop
  | .accepted _ ⟨now, signers, .approve k periodIndex approvedNeed⟩ _ =>
    k.approval = key ∧ k.vault = a.vault ∧ k.approver = a.approver ∧ a.approver ∈ signers ∧
      k.destination = a.destination ∧ periodIndex = a.periodIndex ∧
      approvedNeed = a.approvedNeed ∧ now = a.createdAt
  | _ => False

section Histories

variable {key : Pubkey} {tr : List (Event Stored Instruction)} {e : Event Stored Instruction}
  {x : Payment}

@[simp] theorem payments_nil : payments [] = [] := rfl

theorem payments_snoc : payments (tr ++ [e]) = payments tr ++ (payment e).toList := by
  simp only [payments, List.filterMap_append, List.filterMap_cons, List.filterMap_nil]
  cases payment e <;> rfl

theorem payments_snoc_of_none (h : payment e = none) : payments (tr ++ [e]) = payments tr := by
  simp [payments_snoc, h]

theorem paymentsOn_snoc (h : payment e = some x) :
    paymentsOn key (tr ++ [e]) = paymentsOn key tr ++ if x.policy = key then [x] else [] := by
  rw [paymentsOn, payments_snoc, h, List.filter_append]
  congr 1
  by_cases hk : x.policy = key <;> simp [hk]

theorem paymentsFrom_snoc (h : payment e = some x) :
    paymentsFrom key (tr ++ [e]) = paymentsFrom key tr ++ if x.vault = key then [x] else [] := by
  rw [paymentsFrom, payments_snoc, h, List.filter_append]
  congr 1
  by_cases hk : x.vault = key <;> simp [hk]

theorem mem_paymentsOn : x ∈ paymentsOn key tr ↔ x ∈ payments tr ∧ x.policy = key := by
  simp [paymentsOn]

theorem mem_paymentsFrom : x ∈ paymentsFrom key tr ↔ x ∈ payments tr ∧ x.vault = key := by
  simp [paymentsFrom]

/-- A release happens at the time of a transaction. -/
theorem now_mem_times (hx : x ∈ payments tr) : x.now ∈ times tr := by
  obtain ⟨e, he, hpay⟩ := List.mem_filterMap.mp hx
  refine List.mem_filterMap.mpr ⟨e, he, ?_⟩
  obtain ⟨before, ⟨now, signers, instr⟩, after⟩ | ⟨before, tokens⟩ := e
  · cases instr with
    | releaseBeneficiary k amount =>
      obtain rfl := Option.some.inj hpay
      rfl
    | releasePurpose k key amount =>
      obtain rfl := Option.some.inj hpay
      rfl
    | _ => exact absurd hpay (by simp [payment])
  · exact absurd hpay (by simp [payment])

end Histories

/-! ## Terms -/

/-- What a market input is opened with and no report or rotation changes. -/
def MarketInput.terms (m : MarketInput) : MarketInput :=
  { m with
    oracle := Bytes32.zero, eligibleVolume := 0, updatedAt := 0, reportCount := 0
    pendingOracle := Bytes32.zero, pendingSince := 0 }

/-- What an approval is written with and never changes. -/
def Approval.terms (a : Approval) : Approval := { a with consumed := 0 }

def Stored.terms : Stored → Stored
  | .policy p => .policy p.terms
  | .market m => .market m.terms
  | .vault v => .vault v.terms
  | .approval a => .approval a.terms

/-- The policy that the account names. -/
def Stored.policyHash? : Stored → Option Bytes32
  | .policy p => some p.policyHash
  | .market m => some m.policyHash
  | .vault v => some v.policyHash
  | .approval _ => none

section Terms

variable {chain : Chain} {L L' : Ledger Stored} {now : I64} {signers : List Pubkey}

theorem Canonical.of_terms {key : Pubkey} {a b : Stored} (h : Canonical chain ID key a)
    (ht : b.terms = a.terms) : Canonical chain ID key b := by
  have hseeds : ∀ c : Stored, Derived.seeds c.terms = Derived.seeds c := by
    intro c
    cases c <;> rfl
  have hbump : ∀ c : Stored, Derived.bump c.terms = Derived.bump c := by
    intro c
    cases c <;> rfl
  refine h.congr ?_ ?_
  · rw [← hseeds b, ht, hseeds a]
  · rw [← hbump b, ht, hbump a]

theorem Debited.terms {gate : ReleaseGate} {period amount : U64} {p' : PolicyWindow}
    {v' : CovenantVault} (h : Debited gate now period amount p' v') :
    p'.terms = gate.policy.terms ∧ v'.terms = gate.vault.terms := by
  refine ⟨?_, ?_⟩
  · rw [h.rolledPolicy]
    exact roll_policy_terms gate.policy period
  · rw [h.rolledVault]
    exact roll_vault_terms gate.vault period

/-- Every account keeps its terms, and a new account is at home at its address. -/
structure Keeps (chain : Chain) (L L' : Ledger Stored) : Prop where
  persists : L.Persists Stored.terms L'
  sound : L.Sound chain ID → L'.Sound chain ID

namespace Keeps

theorem refl (tokens : Tokens) : Keeps chain L { L with tokens } :=
  ⟨.tokens tokens, fun h ↦ h.congr rfl⟩

/-- An account that exists is written with its own terms. -/
theorem update {key : Pubkey} {a : Stored} (b : Stored) (h : Keeps chain L L')
    (ha : L.program key = some a)
    (hb : b.terms = a.terms) : Keeps chain L (L'.write key b) where
  persists := h.persists.write fun c hc ↦ by rwa [Option.some.inj (hc.symm.trans ha)]
  sound hs := (h.sound hs).write (Canonical.of_terms (hs.canonical ha) hb)

/-- An account that is new is written at its address. -/
theorem create {key : Pubkey} (b : Stored) (h : Keeps chain L L') (ha : L.vacant key)
    (hb : Canonical chain ID key b) : Keeps chain L (L'.write key b) where
  persists := h.persists.write fun c hc ↦ by simp [(Ledger.vacant_iff.mp ha).1] at hc
  sound hs := (h.sound hs).write hb

end Keeps

/-- An accepted transaction keeps the terms of every account. -/
theorem process_keeps {tx : Tx Instruction} (h : process chain L tx = .ok L') :
    Keeps chain L L' := by
  obtain ⟨now, signers, instr⟩ := tx
  have hrefl : Keeps chain L L := .refl L.tokens
  cases instr with
  | openPolicy k args =>
    obtain ⟨p, m, ho, rfl⟩ := process_openPolicy h
    refine (hrefl.create (.policy p) ho.policyVacant ho.policy).create (.market m) ho.marketVacant ?_
    have hm := ho.market
    rw [ho.input] at hm ⊢
    exact hm
  | reportVolume k eligibleVolume =>
    obtain ⟨m, m', hr, rfl⟩ := process_reportVolume h
    refine hrefl.update (.market m') hr.market ?_
    rw [hr.reported]
    rfl
  | proposeOracle k newOracle =>
    obtain ⟨m, m', hr, rfl⟩ := process_proposeOracle h
    refine hrefl.update (.market m') hr.market ?_
    rw [hr.proposed]
    rfl
  | executeOracleRotation key =>
    obtain ⟨m, m', hr, rfl⟩ := process_executeOracleRotation h
    refine hrefl.update (.market m') hr.market ?_
    rw [hr.rotated]
    rfl
  | deposit k args =>
    obtain ⟨p, p', v, tokens, hd, rfl⟩ := process_deposit h
    obtain ⟨n, hp'⟩ := hd.counted
    refine (Keeps.update (.policy p') (.refl tokens) hd.policy ?_).create (.vault v) hd.vacant ?_
    · rw [hp']
      rfl
    · obtain ⟨cap, cliffEndTs, -, -, -, hv⟩ := hd.created
      have hvault := hd.vault
      rw [hv] at hvault ⊢
      exact hvault
  | approve k periodIndex approvedNeed =>
    obtain ⟨p, v, a, ha, rfl⟩ := process_approve h
    refine hrefl.create (.approval a) ha.vacant ?_
    have hk := ha.approval
    rw [ha.approved] at hk ⊢
    exact hk
  | releaseBeneficiary k amount =>
    obtain ⟨ctx, period, p', v', tokens, hr, -, -, hd, rfl⟩ := process_releaseBeneficiary h
    exact (Keeps.update (.policy p') (.refl tokens) hr.policy
      (congrArg Stored.policy hd.terms.1)).update (.vault v') hr.vault
      (congrArg Stored.vault hd.terms.2)
  | releasePurpose k key amount =>
    obtain ⟨ctx, period, p', v', a, a', tokens, hr, -, -, hd, ha, -, hc, rfl⟩ :=
      process_releasePurpose h
    refine ((Keeps.update (.policy p') (.refl tokens) hr.policy
      (congrArg Stored.policy hd.terms.1)).update (.vault v') hr.vault
      (congrArg Stored.vault hd.terms.2)).update (.approval a') ha ?_
    rw [hc.kept]
    rfl

end Terms

end FundingVaults.PurposeVault
