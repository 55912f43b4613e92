import FundingVaults.LaunchV7.Contexts

/-!
# What the ledger says about one policy

Every account of the program is found at the address derived from its own seeds.  `Ledger.Sound`
states this, and that whatever is bound to a policy key is bound to a policy that exists.

`Ledger.view` reads the accounts of one policy off the ledger, indexed by what their addresses
are derived from: the vault of a role, the approval of a period, the proposal of a role and a
nonce.  Lookups compare the seeds of the account that is found, so nothing here assumes that the
derivation of addresses is injective.
-/

namespace FundingVaults.LaunchV7

/-! ## Seeds of an account -/

namespace ProgramAccount

def seeds : ProgramAccount → Seeds
  | preparation a => .preparation a.identity
  | policy a => .policy a.identity
  | vault a => .vault a.policy a.role
  | approval a => .approval a.policy a.period
  | change a => .change a.policy a.nonce
  | withdrawal a => .withdrawal a.policy a.role a.nonce
  | withdrawalKey a => .key a.policy a.subject

def bump : ProgramAccount → U8
  | preparation a => a.bump
  | policy a => a.bump
  | vault a => a.bump
  | approval a => a.bump
  | change a => a.bump
  | withdrawal a => a.bump
  | withdrawalKey a => a.bump

/-- The policy an account is bound to. -/
def boundTo : ProgramAccount → Option Pubkey
  | preparation _ | policy _ => none
  | vault a => some a.policy
  | approval a => some a.policy
  | change a => some a.policy
  | withdrawal a => some a.policy
  | withdrawalKey a => some a.policy

end ProgramAccount

/-! ## Selectors -/

section Selectors

open ProgramAccount

variable {a : ProgramAccount} {o : Option ProgramAccount}

theorem policy?_eq_some {x : LaunchPolicyV7} : a.policy? = some x ↔ a = .policy x := by
  cases a <;> simp [policy?]

theorem vault?_eq_some {x : LaunchVaultV7} : a.vault? = some x ↔ a = .vault x := by
  cases a <;> simp [vault?]

theorem approval?_eq_some {x : TreasuryApprovalV7} : a.approval? = some x ↔ a = .approval x := by
  cases a <;> simp [approval?]

theorem changeProposal?_eq_some {x : ChangeProposalV7} :
    a.changeProposal? = some x ↔ a = .change x := by
  cases a <;> simp [changeProposal?]

theorem withdrawal?_eq_some {x : WithdrawalProposalV7} :
    a.withdrawal? = some x ↔ a = .withdrawal x := by
  cases a <;> simp [withdrawal?]

theorem withdrawalKey?_eq_some {x : WithdrawalKeyV7} :
    a.withdrawalKey? = some x ↔ a = .withdrawalKey x := by
  cases a <;> simp [withdrawalKey?]

theorem preparation?_eq_some {x : LaunchPreparationV7} :
    a.preparation? = some x ↔ a = .preparation x := by
  cases a <;> simp [preparation?]

@[simp] theorem bind_policy? {x : LaunchPolicyV7} :
    o.bind policy? = some x ↔ o = some (.policy x) := by
  simp [Option.bind_eq_some_iff, policy?_eq_some]

@[simp] theorem bind_vault? {x : LaunchVaultV7} : o.bind vault? = some x ↔ o = some (.vault x) := by
  simp [Option.bind_eq_some_iff, vault?_eq_some]

@[simp] theorem bind_approval? {x : TreasuryApprovalV7} :
    o.bind approval? = some x ↔ o = some (.approval x) := by
  simp [Option.bind_eq_some_iff, approval?_eq_some]

@[simp] theorem bind_change? {x : ChangeProposalV7} :
    o.bind changeProposal? = some x ↔ o = some (.change x) := by
  simp [Option.bind_eq_some_iff, changeProposal?_eq_some]

@[simp] theorem bind_withdrawal? {x : WithdrawalProposalV7} :
    o.bind withdrawal? = some x ↔ o = some (.withdrawal x) := by
  simp [Option.bind_eq_some_iff, withdrawal?_eq_some]

@[simp] theorem bind_withdrawalKey? {x : WithdrawalKeyV7} :
    o.bind withdrawalKey? = some x ↔ o = some (.withdrawalKey x) := by
  simp [Option.bind_eq_some_iff, withdrawalKey?_eq_some]

@[simp] theorem bind_preparation? {x : LaunchPreparationV7} :
    o.bind preparation? = some x ↔ o = some (.preparation x) := by
  simp [Option.bind_eq_some_iff, preparation?_eq_some]

end Selectors

namespace Seeds

variable (chain : Chain)

def address (s : Seeds) : Pubkey := (chain.findProgramAddress s.bytes ID).1

def bump (s : Seeds) : U8 := (chain.findProgramAddress s.bytes ID).2

variable {chain}

/-- `create_program_address` accepts the found bump. -/
theorem create (s : Seeds) :
    chain.createProgramAddress (s.bytes ++ [[s.bump chain]]) ID = some (s.address chain) :=
  chain.create_find _ _

end Seeds

/-- The account sits at the found address of its own seeds and stores the found bump. -/
structure Canonical (chain : Chain) (key : Pubkey) (a : ProgramAccount) : Prop where
  address : a.seeds.address chain = key
  bump : a.seeds.bump chain = a.bump

structure Ledger.Sound (chain : Chain) (L : Ledger) : Prop where
  canonical : ∀ {key a}, L.program key = some a → Canonical chain key a
  bound : ∀ {key a P}, L.program key = some a → a.boundTo = some P →
    ∃ p, L.program P = some (.policy p)

theorem Canonical.create {chain : Chain} {key : Pubkey} {a : ProgramAccount}
    (h : Canonical chain key a) :
    chain.createProgramAddress (a.seeds.bytes ++ [[a.bump]]) ID = some key := by
  rw [← h.bump, Seeds.create, h.address]

/-! ## Lookups -/

namespace Ledger

def policyAt (L : Ledger) (P : Pubkey) : Option LaunchPolicyV7 :=
  (L.program P).bind ProgramAccount.policy?

/-- The account with these seeds, at the address they derive. -/
def find (chain : Chain) (L : Ledger) {α : Type} (as : ProgramAccount → Option α) (s : Seeds) :
    Option α :=
  (L.program (s.address chain)).bind fun a ↦ if a.seeds = s then as a else none

variable {chain : Chain} {L : Ledger} {α : Type} {as : ProgramAccount → Option α}

theorem policyAt_eq_some {P : Pubkey} {p : LaunchPolicyV7} :
    L.policyAt P = some p ↔ L.program P = some (.policy p) := bind_policy?

theorem find_eq_some {s : Seeds} {x : α} :
    L.find chain as s = some x ↔
      ∃ a, L.program (s.address chain) = some a ∧ a.seeds = s ∧ as a = some x := by
  simp only [find, Option.bind_eq_some_iff, Option.ite_none_right_eq_some]

/-- An account is found under its own seeds. -/
theorem find_of_program {key : Pubkey} {a : ProgramAccount} {s : Seeds}
    (ha : L.program key = some a) (hc : Canonical chain key a) (hs : a.seeds = s) :
    L.find chain as s = as a := by
  simp [find, ← hs, hc.address, ha]

theorem find_of_vacant {s : Seeds} (h : L.vacant (s.address chain)) :
    L.find chain as s = none := by
  have hn : L.program (s.address chain) = none := by simp_all [vacant]
  simp [find, hn]

end Ledger

/-! ## Writes -/

/-- `a` may be written at `key`: the address is canonical, and what stood there has the same
seeds. -/
structure Writable (chain : Chain) (L : Ledger) (key : Pubkey) (a : ProgramAccount) : Prop where
  canonical : Canonical chain key a
  same : ∀ b, L.program key = some b → b.seeds = a.seeds

namespace Ledger

variable {chain : Chain} {L : Ledger} {key : Pubkey} {a : ProgramAccount}

theorem write_program (k : Pubkey) :
    (L.write key a).program k = if k = key then some a else L.program k := by
  simp [write, Function.update_apply]

theorem find_write {α : Type} {as : ProgramAccount → Option α} {s : Seeds}
    (h : Writable chain L key a) :
    (L.write key a).find chain as s = if a.seeds = s then as a else L.find chain as s := by
  unfold find
  rw [write_program]
  split
  · next hk =>
    split
    · simp [*]
    · next hne =>
      -- The replaced account has the seeds of `a`, so neither is found under `s`.
      rw [hk]
      cases hb : L.program key with
      | none => simp [hne]
      | some b => simp [h.same b hb, hne]
  · next hk =>
    rw [if_neg]
    rintro rfl
    exact hk h.canonical.address

theorem policyAt_write (P : Pubkey) :
    (L.write key a).policyAt P = if P = key then a.policy? else L.policyAt P := by
  unfold policyAt
  rw [write_program]
  split <;> rfl

/-- A write leaves the other writable accounts writable. -/
theorem writable_write {key' : Pubkey} {a' : ProgramAccount} (h : Writable chain L key' a')
    (hne : key' ≠ key) : Writable chain (L.write key a) key' a' where
  canonical := h.canonical
  same b hb := by
    rw [write_program, if_neg hne] at hb
    exact h.same b hb

theorem Sound.write (hL : L.Sound chain) (h : Writable chain L key a)
    (hb : ∀ P, a.boundTo = some P → ∃ p, L.program P = some (.policy p)) :
    (L.write key a).Sound chain := by
  -- A policy is only ever overwritten by a policy.
  have hpol : ∀ {P p}, L.program P = some (.policy p) →
      ∃ p', (L.write key a).program P = some (.policy p') := by
    intro P p hP
    rw [write_program]
    split
    · next hk =>
      have hs := h.same _ (hk ▸ hP)
      cases a <;> simp_all [ProgramAccount.seeds]
    · exact ⟨p, hP⟩
  constructor
  · intro k b hk
    rw [write_program] at hk
    split at hk
    · next e =>
      cases hk
      exact e ▸ h.canonical
    · exact hL.canonical hk
  · intro k b P hk hbP
    rw [write_program] at hk
    split at hk
    · cases hk
      obtain ⟨p, hp⟩ := hb P hbP
      exact hpol hp
    · obtain ⟨p, hp⟩ := hL.bound hk hbP
      exact hpol hp

end Ledger

/-! ## Views -/

/-- The accounts of one policy. -/
@[ext]
structure View where
  policy : LaunchPolicyV7
  vault : Role → Option LaunchVaultV7
  approval : U64 → Option TreasuryApprovalV7
  change : U64 → Option ChangeProposalV7
  proposal : Role → U64 → Option WithdrawalProposalV7
  record : Pubkey → Option WithdrawalKeyV7

namespace View

/-- The view after one of its accounts is written. -/
def put (V : View) : ProgramAccount → View
  | .preparation _ => V
  | .policy p => { V with policy := p }
  | .vault v => { V with vault := fun r ↦ if r.toU8 = v.role then some v else V.vault r }
  | .approval a => { V with approval := Function.update V.approval a.period (some a) }
  | .change q => { V with change := Function.update V.change q.nonce (some q) }
  | .withdrawal q => { V with
      proposal := fun r n ↦ if r.toU8 = q.role ∧ n = q.nonce then some q else V.proposal r n }
  | .withdrawalKey k => { V with record := Function.update V.record k.subject (some k) }

end View

/-- The account is part of the view of `P`. -/
def OwnedBy (P key : Pubkey) : ProgramAccount → Prop
  | .policy _ => key = P
  | a => a.boundTo = some P

namespace Ledger

variable (chain : Chain) (L : Ledger)

def view (P : Pubkey) : Option View :=
  (L.policyAt P).map fun policy ↦
    { policy
      vault := fun r ↦ L.find chain ProgramAccount.vault? (.vault P r.toU8)
      approval := fun k ↦ L.find chain ProgramAccount.approval? (.approval P k)
      change := fun n ↦ L.find chain ProgramAccount.changeProposal? (.change P n)
      proposal := fun r n ↦ L.find chain ProgramAccount.withdrawal? (.withdrawal P r.toU8 n)
      record := fun k ↦ L.find chain ProgramAccount.withdrawalKey? (.key P k) }

variable {chain L} {P Q key : Pubkey} {a : ProgramAccount} {V : View}

@[simp] theorem view_tokens (tokens : Tokens) :
    view chain { L with tokens } P = view chain L P := rfl

theorem view_isSome (chain : Chain) :
    (L.view chain P).isSome ↔ ∃ p, L.program P = some (.policy p) := by
  simp [view, Option.isSome_map, Option.isSome_iff_exists, policyAt_eq_some]

theorem view_policy (h : L.view chain P = some V) : L.program P = some (.policy V.policy) := by
  simp only [view, Option.map_eq_some_iff, policyAt_eq_some] at h
  obtain ⟨p, hp, rfl⟩ := h
  exact hp

/-- Away from the policy itself, a canonical write at `key` does not touch a policy. -/
theorem policyAt_write_of_ne (h : Writable chain L key a) (ha : ∀ p, a ≠ .policy p) (Q : Pubkey) :
    (L.write key a).policyAt Q = L.policyAt Q := by
  rw [policyAt_write]
  split
  · next hQ =>
    subst hQ
    have hnone : a.policy? = none := by cases a <;> simp_all [ProgramAccount.policy?]
    rw [hnone]
    cases hb : L.program Q with
    | none => simp [policyAt, hb]
    | some b =>
      have hs := h.same b hb
      cases b <;> simp [policyAt, hb, ProgramAccount.policy?]
      cases a <;> simp_all [ProgramAccount.seeds]
  · rfl

/-- What an account of `P` is found under, `as` being the selector of its type. -/
theorem view_write (hV : L.view chain P = some V) (h : Writable chain L key a)
    (ho : OwnedBy P key a) : (L.write key a).view chain P = some (V.put a) := by
  have hpol : (L.write key a).policyAt P = some (V.put a).policy := by
    cases a with
    | policy p => rw [policyAt_write, if_pos (Eq.symm ho)]; rfl
    | _ =>
      rw [policyAt_write_of_ne h (by simp), policyAt_eq_some, view_policy hV]
      rfl
  simp only [view, Option.map_eq_some_iff] at hV ⊢
  obtain ⟨p, hp, rfl⟩ := hV
  refine ⟨_, hpol, ?_⟩
  simp only [find_write h]
  cases a <;>
    simp_all [View.put, OwnedBy, ProgramAccount.boundTo, ProgramAccount.seeds,
      ProgramAccount.vault?, ProgramAccount.approval?, ProgramAccount.changeProposal?,
      ProgramAccount.withdrawal?, ProgramAccount.withdrawalKey?, Function.update_apply, eq_comm,
      funext_iff, View.ext_iff]

/-- The views of the other policies do not see the write. -/
theorem view_write_other (h : Writable chain L key a) (ho : ¬ OwnedBy Q key a) :
    (L.write key a).view chain Q = L.view chain Q := by
  have hpol : (L.write key a).policyAt Q = L.policyAt Q := by
    cases a with
    | policy p => rw [policyAt_write, if_neg (Ne.symm ho)]
    | _ => exact policyAt_write_of_ne h (by simp) Q
  unfold view
  rw [hpol]
  simp only [find_write h]
  cases a <;> simp_all [OwnedBy, ProgramAccount.boundTo, ProgramAccount.seeds]

/-- Nothing is bound to a key at which there is no policy. -/
theorem view_write_policy (hL : L.Sound chain) {p : LaunchPolicyV7}
    (h : Writable chain L P (.policy p)) (hP : L.program P = none) :
    (L.write P (.policy p)).view chain P = some {
      policy := p
      vault := fun _ ↦ none
      approval := fun _ ↦ none
      change := fun _ ↦ none
      proposal := fun _ _ ↦ none
      record := fun _ ↦ none } := by
  have hfind : ∀ {α : Type} {as : ProgramAccount → Option α} {s : Seeds},
      (∀ a : ProgramAccount, a.seeds = s → a.boundTo = some P) → L.find chain as s = none := by
    intro α as s hs
    by_contra hne
    obtain ⟨x, hx⟩ := Option.ne_none_iff_exists'.mp hne
    obtain ⟨a, ha, hseeds, -⟩ := find_eq_some.mp hx
    obtain ⟨q, hq⟩ := hL.bound ha (hs a hseeds)
    simp [hP] at hq
  simp only [view, policyAt_write, if_true, ProgramAccount.policy?, Option.map_some, find_write h,
    ProgramAccount.seeds, reduceCtorEq, if_false]
  congr <;> funext <;> refine hfind ?_ <;> intro a ha <;>
    cases a <;> simp_all [ProgramAccount.seeds, ProgramAccount.boundTo]

end Ledger

/-! ## Reading a view

An account of the ledger that is bound to `P` is in the view of `P` and conversely. -/

section Reading

variable {chain : Chain} {L : Ledger} {P key : Pubkey} {V : View}

theorem Ledger.exists_view (chain : Chain) {p : LaunchPolicyV7} (h : L.program P = some (.policy p)) :
    ∃ V, L.view chain P = some V ∧ V.policy = p := by
  obtain ⟨V, hV⟩ := Option.isSome_iff_exists.mp ((view_isSome chain).mpr ⟨p, h⟩)
  have hp := view_policy hV
  simp only [h, Option.some.injEq, ProgramAccount.policy.injEq] at hp
  exact ⟨V, hV, hp.symm⟩

/-- A lookup for one type of account, `mk` being its constructor. -/
theorem Ledger.find_eq_some_mk {α : Type} {as : ProgramAccount → Option α}
    (mk : α → ProgramAccount) (has : ∀ {a x}, as a = some x ↔ a = mk x) {s : Seeds} {x : α} :
    L.find chain as s = some x ↔
      L.program (s.address chain) = some (mk x) ∧ (mk x).seeds = s := by
  rw [find_eq_some]
  constructor
  · rintro ⟨a, ha, hs, hx⟩
    obtain rfl := has.mp hx
    exact ⟨ha, hs⟩
  · rintro ⟨ha, hs⟩
    exact ⟨_, ha, hs, has.mpr rfl⟩

variable (hV : L.view chain P = some V)
include hV

theorem View.vault_eq (r : Role) :
    V.vault r = L.find chain ProgramAccount.vault? (.vault P r.toU8) := by
  obtain ⟨p, -, rfl⟩ := Option.map_eq_some_iff.mp hV
  rfl

theorem View.approval_eq (k : U64) :
    V.approval k = L.find chain ProgramAccount.approval? (.approval P k) := by
  obtain ⟨p, -, rfl⟩ := Option.map_eq_some_iff.mp hV
  rfl

theorem View.change_eq (n : U64) :
    V.change n = L.find chain ProgramAccount.changeProposal? (.change P n) := by
  obtain ⟨p, -, rfl⟩ := Option.map_eq_some_iff.mp hV
  rfl

theorem View.proposal_eq (r : Role) (n : U64) :
    V.proposal r n = L.find chain ProgramAccount.withdrawal? (.withdrawal P r.toU8 n) := by
  obtain ⟨p, -, rfl⟩ := Option.map_eq_some_iff.mp hV
  rfl

theorem View.record_eq (k : Pubkey) :
    V.record k = L.find chain ProgramAccount.withdrawalKey? (.key P k) := by
  obtain ⟨p, -, rfl⟩ := Option.map_eq_some_iff.mp hV
  rfl

theorem View.vault_eq_some {r : Role} {v : LaunchVaultV7} :
    V.vault r = some v ↔
      L.program (Seeds.address chain (.vault P r.toU8)) = some (.vault v) ∧
        v.policy = P ∧ v.role = r.toU8 := by
  rw [vault_eq hV, Ledger.find_eq_some_mk .vault vault?_eq_some]
  simp [ProgramAccount.seeds]

theorem View.change_eq_some {n : U64} {q : ChangeProposalV7} :
    V.change n = some q ↔
      L.program (Seeds.address chain (.change P n)) = some (.change q) ∧
        q.policy = P ∧ q.nonce = n := by
  rw [change_eq hV, Ledger.find_eq_some_mk .change changeProposal?_eq_some]
  simp [ProgramAccount.seeds]

theorem View.proposal_eq_some {r : Role} {n : U64} {q : WithdrawalProposalV7} :
    V.proposal r n = some q ↔
      L.program (Seeds.address chain (.withdrawal P r.toU8 n)) = some (.withdrawal q) ∧
        q.policy = P ∧ q.role = r.toU8 ∧ q.nonce = n := by
  rw [proposal_eq hV, Ledger.find_eq_some_mk .withdrawal withdrawal?_eq_some]
  simp [ProgramAccount.seeds]

theorem View.record_eq_some {x : Pubkey} {k : WithdrawalKeyV7} :
    V.record x = some k ↔
      L.program (Seeds.address chain (.key P x)) = some (.withdrawalKey k) ∧
        k.policy = P ∧ k.subject = x := by
  rw [record_eq hV, Ledger.find_eq_some_mk .withdrawalKey withdrawalKey?_eq_some]
  simp [ProgramAccount.seeds]

/-! A sound ledger holds an account nowhere else than where the view looks it up. -/

section Sound

variable (hL : L.Sound chain)
include hL

theorem View.vault_of {v : LaunchVaultV7} {r : Role} (h : L.program key = some (.vault v))
    (hP : v.policy = P) (hr : v.role = r.toU8) : V.vault r = some v := by
  rw [vault_eq hV]
  exact Ledger.find_of_program h (hL.canonical h) (by simp [ProgramAccount.seeds, hP, hr])

theorem View.approval_of {a : TreasuryApprovalV7} (h : L.program key = some (.approval a))
    (hP : a.policy = P) : V.approval a.period = some a := by
  rw [approval_eq hV]
  exact Ledger.find_of_program h (hL.canonical h) (by simp [ProgramAccount.seeds, hP])

theorem View.change_of {q : ChangeProposalV7} (h : L.program key = some (.change q))
    (hP : q.policy = P) : V.change q.nonce = some q := by
  rw [change_eq hV]
  exact Ledger.find_of_program h (hL.canonical h) (by simp [ProgramAccount.seeds, hP])

theorem View.proposal_of {q : WithdrawalProposalV7} {r : Role}
    (h : L.program key = some (.withdrawal q)) (hP : q.policy = P) (hr : q.role = r.toU8) :
    V.proposal r q.nonce = some q := by
  rw [proposal_eq hV]
  exact Ledger.find_of_program h (hL.canonical h) (by simp [ProgramAccount.seeds, hP, hr])

theorem View.record_of {k : WithdrawalKeyV7} (h : L.program key = some (.withdrawalKey k))
    (hP : k.policy = P) : V.record k.subject = some k := by
  rw [record_eq hV]
  exact Ledger.find_of_program h (hL.canonical h) (by simp [ProgramAccount.seeds, hP])

end Sound

end Reading

/-! ## Loading

At a canonical address the seeds check of the framework holds of every account of the right
type, so a load succeeds exactly when such an account is there. -/

section Load

variable {chain : Chain} {L : Ledger} {key P subject : Pubkey}

@[simp] theorem signer_eq_ok {signers : List Pubkey} {u : Unit} :
    signer signers key = .ok u ↔ key ∈ signers := by
  simp [signer]

@[simp] theorem hasOne_eq_ok {stored : Pubkey} {u : Unit} :
    hasOne stored key = .ok u ↔ stored = key := by
  simp [hasOne]

@[simp] theorem tokenAuthority_eq_ok {t : Account TokenAccount} {u : Unit} :
    tokenAuthority t key = .ok u ↔ t.data.owner = key := by
  simp [tokenAuthority]

theorem loadAs_eq_ok {α : Type} {as : ProgramAccount → Option α} {acc : Account α} :
    loadAs L as key = .ok acc ↔ (L.program key).bind as = some acc.data ∧ acc.key = key := by
  obtain ⟨k, x⟩ := acc
  simp only [loadAs, bind_eq_ok, okOr_eq_ok, pure_eq_ok, Account.mk.injEq]
  constructor
  · rintro ⟨_, h, rfl, rfl⟩
    exact ⟨h, rfl⟩
  · rintro ⟨h, rfl⟩
    exact ⟨_, h, rfl, rfl⟩

/-- An optional account. -/
theorem mapM_loadAs_eq_ok {α : Type} {as : ProgramAccount → Option α} {o : Option Pubkey}
    {x : Option (Account α)} :
    o.mapM (loadAs L as) = .ok x ↔
      (o = none ∧ x = none) ∨
        ∃ acc, o = some acc.key ∧ x = some acc ∧
          (L.program acc.key).bind as = some acc.data := by
  cases o with
  | none => simp [pure, Except.pure, eq_comm]
  | some k =>
    simp only [Option.mapM_some, map_eq_ok, loadAs_eq_ok, reduceCtorEq, false_and, false_or,
      Option.some.injEq]
    constructor
    · rintro ⟨acc, ⟨h, rfl⟩, rfl⟩
      exact ⟨acc, rfl, rfl, h⟩
    · rintro ⟨acc, rfl, rfl, h⟩
      exact ⟨acc, ⟨h, rfl⟩, rfl⟩

theorem loadInit_eq_ok {s : Seeds} {i : Init} :
    loadInit chain L s key = .ok i ↔
      s.address chain = key ∧ L.vacant key ∧ ⟨key, s.bump chain⟩ = i := by
  simp only [loadInit, checkFound, bind_eq_ok, require_eq_ok, pure_eq_ok, exists_const]
  rfl

theorem loadMint_eq_ok {m : Account Mint} :
    loadMint L key = .ok m ↔
      L.tokens.mint key = some m.data ∧ m.data.isInitialized ∧ m.key = key := by
  obtain ⟨k, x⟩ := m
  simp only [loadMint, bind_eq_ok, okOr_eq_ok, require_eq_ok, pure_eq_ok, Account.mk.injEq,
    exists_const]
  constructor
  · rintro ⟨_, hm, hi, rfl, rfl⟩
    exact ⟨hm, hi, rfl⟩
  · rintro ⟨hm, hi, rfl⟩
    exact ⟨_, hm, hi, rfl, rfl⟩

theorem loadToken_eq_ok {mint : Pubkey} {t : Account TokenAccount} :
    loadToken L key mint = .ok t ↔
      L.tokens.account key = some t.data ∧ t.data.state ≠ .uninitialized ∧ t.data.mint = mint ∧
        t.key = key := by
  obtain ⟨k, x⟩ := t
  simp only [loadToken, bind_eq_ok, okOr_eq_ok, require_eq_ok, pure_eq_ok, Account.mk.injEq,
    exists_const]
  constructor
  · rintro ⟨_, ht, hs, hm, rfl, rfl⟩
    exact ⟨ht, hs, hm, rfl⟩
  · rintro ⟨ht, hs, hm, rfl⟩
    exact ⟨_, ht, hs, hm, rfl, rfl⟩

section Canonical

variable (hc : ∀ a, L.program key = some a → Canonical chain key a)
include hc

theorem checkSeeds_eq_ok {a : ProgramAccount} (ha : L.program key = some a) {u : Unit} :
    checkSeeds chain a.seeds a.bump key = .ok u ↔ True := by
  simp [checkSeeds, (hc a ha).create]

theorem loadPolicy_eq_ok {p : Account LaunchPolicyV7} :
    loadPolicy chain L key = .ok p ↔ L.program key = some (.policy p.data) ∧ p.key = key := by
  simp only [loadPolicy, bind_eq_ok, loadAs_eq_ok, pure_eq_ok, bind_policy?]
  constructor
  · rintro ⟨q, ⟨hq, hk⟩, -, -, rfl⟩
    exact ⟨hq, hk⟩
  · rintro ⟨hp, hk⟩
    exact ⟨p, ⟨hp, hk⟩, (), (checkSeeds_eq_ok hc hp).mpr trivial, rfl⟩

theorem loadVault_eq_ok {v : Account LaunchVaultV7} :
    loadVault chain L key P = .ok v ↔
      L.program key = some (.vault v.data) ∧ v.key = key ∧ v.data.policy = P := by
  simp only [loadVault, bind_eq_ok, loadAs_eq_ok, pure_eq_ok, bind_vault?, hasOne_eq_ok,
    exists_const]
  constructor
  · rintro ⟨q, ⟨hq, hk⟩, -, -, hP, rfl⟩
    exact ⟨hq, hk, hP⟩
  · rintro ⟨hv, hk, rfl⟩
    exact ⟨v, ⟨hv, hk⟩, (), (checkSeeds_eq_ok hc hv).mpr trivial, rfl, rfl⟩

theorem loadRecord_eq_ok {k : Account WithdrawalKeyV7} :
    loadRecord chain L key P subject = .ok k ↔
      L.program key = some (.withdrawalKey k.data) ∧ k.key = key ∧ k.data.policy = P ∧
        k.data.subject = subject := by
  simp only [loadRecord, bind_eq_ok, loadAs_eq_ok, pure_eq_ok, bind_withdrawalKey?, hasOne_eq_ok,
    require_eq_ok, exists_const]
  constructor
  · rintro ⟨q, ⟨hq, hk⟩, -, -, hP, hs, rfl⟩
    exact ⟨hq, hk, hP, hs⟩
  · rintro ⟨hv, hk, rfl, rfl⟩
    exact ⟨k, ⟨hv, hk⟩, (), (checkSeeds_eq_ok hc hv).mpr trivial, rfl, rfl, rfl⟩

theorem loadWithdrawal_eq_ok {q : Account WithdrawalProposalV7} :
    loadWithdrawal chain L key P = .ok q ↔
      L.program key = some (.withdrawal q.data) ∧ q.key = key ∧ q.data.policy = P := by
  simp only [loadWithdrawal, bind_eq_ok, loadAs_eq_ok, pure_eq_ok, bind_withdrawal?, hasOne_eq_ok,
    exists_const]
  constructor
  · rintro ⟨q, ⟨hq, hk⟩, -, -, hP, rfl⟩
    exact ⟨hq, hk, hP⟩
  · rintro ⟨hq, hk, rfl⟩
    exact ⟨q, ⟨hq, hk⟩, (), (checkSeeds_eq_ok hc hq).mpr trivial, rfl, rfl⟩

theorem loadChange_eq_ok {q : Account ChangeProposalV7} :
    loadChange chain L key P = .ok q ↔
      L.program key = some (.change q.data) ∧ q.key = key ∧ q.data.policy = P := by
  simp only [loadChange, bind_eq_ok, loadAs_eq_ok, pure_eq_ok, bind_change?, hasOne_eq_ok,
    exists_const]
  constructor
  · rintro ⟨q, ⟨hq, hk⟩, -, -, hP, rfl⟩
    exact ⟨hq, hk, hP⟩
  · rintro ⟨hq, hk, rfl⟩
    exact ⟨q, ⟨hq, hk⟩, (), (checkSeeds_eq_ok hc hq).mpr trivial, rfl, rfl⟩

end Canonical

end Load

/-! ## Commits -/

/-- The accounts that an instruction on `P` writes. -/
structure Commits (chain : Chain) (L : Ledger) (P : Pubkey)
    (ws : List (Pubkey × ProgramAccount)) : Prop where
  nodup : (ws.map Prod.fst).Nodup
  writable : ∀ w ∈ ws, Writable chain L w.1 w.2
  owned : ∀ w ∈ ws, OwnedBy P w.1 w.2

def Ledger.writes (L : Ledger) (ws : List (Pubkey × ProgramAccount)) : Ledger :=
  ws.foldl (fun L w ↦ L.write w.1 w.2) L

def View.puts (V : View) (ws : List (Pubkey × ProgramAccount)) : View :=
  ws.foldl (fun V w ↦ V.put w.2) V

namespace Commits

variable {chain : Chain} {L : Ledger} {P Q : Pubkey} {V : View}
  {ws : List (Pubkey × ProgramAccount)} {w : Pubkey × ProgramAccount}

theorem tail (h : Commits chain L P (w :: ws)) : Commits chain (L.write w.1 w.2) P ws where
  nodup := (List.nodup_cons.mp h.nodup).2
  writable x hx := by
    refine Ledger.writable_write (h.writable x (List.mem_cons_of_mem _ hx)) ?_
    rintro heq
    exact (List.nodup_cons.mp h.nodup).1 (List.mem_map.mpr ⟨x, hx, heq⟩)
  owned x hx := h.owned x (List.mem_cons_of_mem _ hx)

theorem view (h : Commits chain L P ws) (hV : L.view chain P = some V) :
    (L.writes ws).view chain P = some (V.puts ws) := by
  induction ws generalizing L V with
  | nil => exact hV
  | cons w ws ih =>
    have hw := List.mem_cons_self (a := w) (l := ws)
    exact ih h.tail (Ledger.view_write hV (h.writable w hw) (h.owned w hw))

theorem frame (h : Commits chain L P ws) (hQ : Q ≠ P) :
    (L.writes ws).view chain Q = L.view chain Q := by
  induction ws generalizing L with
  | nil => rfl
  | cons w ws ih =>
    have hw := List.mem_cons_self (a := w) (l := ws)
    refine (ih h.tail).trans (Ledger.view_write_other (h.writable w hw) ?_)
    have ho := h.owned w hw
    cases hc : w.2 <;> simp_all [OwnedBy, ProgramAccount.boundTo, eq_comm]

theorem sound (h : Commits chain L P ws) (hL : L.Sound chain)
    (hP : ∃ p, L.program P = some (.policy p)) : (L.writes ws).Sound chain := by
  induction ws generalizing L with
  | nil => exact hL
  | cons w ws ih =>
    have hw := List.mem_cons_self (a := w) (l := ws)
    obtain ⟨V, hV⟩ := Option.isSome_iff_exists.mp ((Ledger.view_isSome chain).mpr hP)
    refine ih h.tail (hL.write (h.writable w hw) ?_) ⟨_, Ledger.view_policy
      (Ledger.view_write hV (h.writable w hw) (h.owned w hw))⟩
    intro Q hQ
    have ho := h.owned w hw
    cases hc : w.2 <;> simp_all [OwnedBy, ProgramAccount.boundTo]

end Commits

end FundingVaults.LaunchV7
