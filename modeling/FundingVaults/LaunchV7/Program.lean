import FundingVaults.LaunchV7.Instructions

/-!
# The program

`process` is the entry point: it loads the context of an instruction, runs the handler and writes
the committed accounts back.  A failed transaction leaves the ledger as it was.

`Run` is a finite stretch of the chain's history: transactions that were accepted, transactions
that were rejected, and whatever other programs do to token accounts and mints in between.  A
ledger is `Reachable` if a run leads to it from a ledger on which the program has no account yet.
-/

namespace FundingVaults.LaunchV7

/-! ## Transactions -/

inductive Instruction where
  | preparePolicy (keys : PreparePolicy.Keys) (config : LaunchConfig) (specHash identity : Bytes32)
  | openPreparedPolicy (keys : OpenPreparedPolicy.Keys)
  | deposit (keys : Deposit.Keys) (role : U8) (amount : U64)
  | arm (keys : Control.Keys)
  | activate (keys : PolicyOnly.Keys)
  | cancel (keys : ConsentControl.Keys)
  | expireUnarmed (keys : PolicyOnly.Keys)
  | refund (keys : Refund.Keys)
  | reportCapacity (keys : Report.Keys) (capacity : U64) (observedAt : I64) (sequence epoch : U64)
  | approveTreasury (keys : ApproveTreasury.Keys) (period need authorityEpoch : U64)
  | release (keys : Release.Keys) (amount authorityEpoch : U64)
  | prepareWithdrawalKey (keys : PrepareWithdrawalKey.Keys) (subject : Pubkey)
  | proposeWithdrawal (keys : ProposeWithdrawal.Keys) (role : U8) (recovery : Bool)
      (nonce epoch : U64) (validFrom validUntil : I64) (predecessor : Pubkey)
  | executeWithdrawal (keys : ExecuteWithdrawal.Keys)
  | cancelWithdrawal (keys : CancelWithdrawal.Keys)
  | expireWithdrawal (keys : ExecuteWithdrawal.Keys)
  | proposeChange (keys : ProposeChange.Keys) (kind : U8) (recovery : Bool) (nonce : U64)
  | cancelChange (keys : CancelChange.Keys)
  | executeChange (keys : ExecuteChange.Keys)

/-- A transaction of one instruction: the clock it reads, the keys that signed it. -/
structure Tx where
  now : I64
  signers : List Pubkey
  instruction : Instruction

/-- What the program is built with and what surrounds it: the platform, the build feature
`test-profile`, and the token states that other programs can bring about. -/
structure Deployment extends Chain where
  testProfile : Bool
  external : Ledger → Tokens → Prop

/-! ## Execution -/

namespace Ledger

variable (chain : Chain) (L : Ledger)

/-- The token program's transfer. -/
def transfer (t : TransferChecked) : Result Ledger := do
  let tokens ← okOr (chain.transferChecked L.tokens t) ProgramError.token
  pure { L with tokens }

/-- The token account that `init, token::mint, token::authority` creates. -/
def createToken (key mint owner : Pubkey) : Ledger :=
  { L with tokens := { L.tokens with
      account := Function.update L.tokens.account key (some {
        mint, owner, amount := 0, delegate := none, state := .initialized
        isNative := nativeReserve mint, delegatedAmount := 0, closeAuthority := none }) } }

def writeApproval (L : Ledger) : Option (Account TreasuryApprovalV7) → Ledger
  | some a => L.write a.key (.approval a.data)
  | none => L

end Ledger

def process (d : Deployment) (L : Ledger) (tx : Tx) : Result Ledger :=
  match tx.instruction with
  | .preparePolicy keys config specHash identity => do
      let ctx ← PreparePolicy.load d.toChain L tx.signers keys identity
      let a ← preparePolicy d.toChain d.testProfile tx.now ctx config specHash identity
      pure (L.write keys.preparation (.preparation a))
  | .openPreparedPolicy keys => do
      let ctx ← OpenPreparedPolicy.load d.toChain L tx.signers keys
      let p ← openPreparedPolicy d.toChain d.testProfile tx.now ctx
      pure (L.write keys.policy (.policy p))
  | .deposit keys role amount => do
      let ctx ← Deposit.load d.toChain L tx.signers keys role
      let (p, v, t) ← deposit tx.now ctx role amount
      let L ← (L.createToken keys.vaultToken keys.mint keys.vault).transfer d.toChain t
      pure ((L.write keys.policy (.policy p)).write keys.vault (.vault v))
  | .arm keys => do
      let ctx ← Control.load d.toChain L tx.signers keys
      let p ← arm tx.now ctx
      pure (L.write keys.policy (.policy p))
  | .activate keys => do
      let ctx ← PolicyOnly.load d.toChain L keys
      let p ← activate tx.now ctx
      pure (L.write keys.policy (.policy p))
  | .cancel keys => do
      let ctx ← ConsentControl.load d.toChain L tx.signers keys
      let p ← cancel tx.now ctx
      pure (L.write keys.policy (.policy p))
  | .expireUnarmed keys => do
      let ctx ← PolicyOnly.load d.toChain L keys
      let p ← expireUnarmed tx.now ctx
      pure (L.write keys.policy (.policy p))
  | .refund keys => do
      let ctx ← Refund.load d.toChain L tx.signers keys
      let (p, t) ← refund tx.now ctx
      let L ← L.transfer d.toChain t
      pure (L.write keys.policy (.policy p))
  | .reportCapacity keys capacity observedAt sequence epoch => do
      let ctx ← Report.load d.toChain L tx.signers keys
      let p ← reportCapacity tx.now ctx capacity observedAt sequence epoch
      pure (L.write keys.policy (.policy p))
  | .approveTreasury keys period need authorityEpoch => do
      let ctx ← ApproveTreasury.load d.toChain L tx.signers keys period
      let (p, a, k) ← approveTreasury tx.now ctx period need authorityEpoch
      pure (((L.write keys.policy (.policy p)).write keys.approval (.approval a)).write
        keys.recipientRecord (.withdrawalKey k))
  | .release keys amount authorityEpoch => do
      let ctx ← Release.load d.toChain L tx.signers keys
      let (p, v, a, t) ← release d.toChain tx.now ctx amount authorityEpoch
      let L ← L.transfer d.toChain t
      pure (((L.write keys.policy (.policy p)).write keys.vault (.vault v)).writeApproval a)
  | .prepareWithdrawalKey keys subject => do
      let ctx ← PrepareWithdrawalKey.load d.toChain L tx.signers keys subject
      let k ← Withdrawal.prepareKey ctx subject
      pure (L.write keys.record (.withdrawalKey k))
  | .proposeWithdrawal keys role recovery nonce epoch validFrom validUntil predecessor => do
      let ctx ← ProposeWithdrawal.load d.toChain L tx.signers keys role nonce
      let (p, q, k) ← Withdrawal.propose tx.now ctx role recovery nonce epoch validFrom validUntil
        predecessor
      pure (((L.write keys.policy (.policy p)).write keys.proposal (.withdrawal q)).write
        keys.successorRecord (.withdrawalKey k))
  | .executeWithdrawal keys => do
      let ctx ← ExecuteWithdrawal.load d.toChain L keys
      let (p, q, k) ← Withdrawal.execute tx.now ctx
      pure (((L.write keys.policy (.policy p)).write keys.proposal (.withdrawal q)).write
        keys.successorRecord (.withdrawalKey k))
  | .cancelWithdrawal keys => do
      let ctx ← CancelWithdrawal.load d.toChain L tx.signers keys
      let (p, q, k) ← Withdrawal.cancel tx.now ctx
      pure (((L.write keys.policy (.policy p)).write keys.proposal (.withdrawal q)).write
        keys.successorRecord (.withdrawalKey k))
  | .expireWithdrawal keys => do
      let ctx ← ExecuteWithdrawal.load d.toChain L keys
      let (p, q, k) ← Withdrawal.expire tx.now ctx
      pure (((L.write keys.policy (.policy p)).write keys.proposal (.withdrawal q)).write
        keys.successorRecord (.withdrawalKey k))
  | .proposeChange keys kind recovery nonce => do
      let ctx ← ProposeChange.load d.toChain L tx.signers keys nonce
      let (p, q) ← Governance.propose tx.now ctx kind recovery nonce
      pure ((L.write keys.policy (.policy p)).write keys.proposal (.change q))
  | .cancelChange keys => do
      let ctx ← CancelChange.load d.toChain L tx.signers keys
      let (p, q) ← Governance.cancel tx.now ctx
      pure ((L.write keys.policy (.policy p)).write keys.proposal (.change q))
  | .executeChange keys => do
      let ctx ← ExecuteChange.load d.toChain L keys
      let (p, q) ← Governance.execute tx.now ctx
      pure ((L.write keys.policy (.policy p)).write keys.proposal (.change q))

/-! ## Runs -/

/-- One accepted transaction, with the ledger before and after it. -/
structure Entry where
  before : Ledger
  tx : Tx
  after : Ledger

inductive Run (d : Deployment) : Ledger → List Entry → Ledger → Prop where
  | refl (L : Ledger) : Run d L [] L
  | accepted {L₀ L L' : Ledger} {tr : List Entry} {tx : Tx} :
      Run d L₀ tr L → process d L tx = .ok L' → Run d L₀ (tr ++ [⟨L, tx, L'⟩]) L'
  /-- A rejected transaction changes nothing. -/
  | rejected {L₀ L : Ledger} {tr : List Entry} {tx : Tx} {e : ProgramError} :
      Run d L₀ tr L → process d L tx = .error e → Run d L₀ tr L
  /-- Other programs move tokens. -/
  | external {L₀ L : Ledger} {tr : List Entry} {tokens : Tokens} :
      Run d L₀ tr L → d.external L tokens → Run d L₀ tr { L with tokens }

/-- The program has no account yet. -/
def Ledger.Genesis (L : Ledger) : Prop := ∀ key, L.program key = none

/-- A history of the program from its deployment on, and the ledger it leads to. -/
def Reachable (d : Deployment) (tr : List Entry) (L : Ledger) : Prop :=
  ∃ L₀ : Ledger, L₀.Genesis ∧ Run d L₀ tr L

variable {d : Deployment} {L₀ L L' : Ledger} {tr tr' : List Entry} {tx : Tx}

theorem Run.append (h : Run d L₀ tr L) (h' : Run d L tr' L') : Run d L₀ (tr ++ tr') L' := by
  induction h' with
  | refl => simpa using h
  | accepted _ hp ih => simpa using ih.accepted hp
  | rejected _ hp ih => exact ih.rejected hp
  | external _ he ih => exact ih.external he

theorem Reachable.append (h : Reachable d tr L) (h' : Run d L tr' L') :
    Reachable d (tr ++ tr') L' := by
  obtain ⟨L₀, h₀, hr⟩ := h
  exact ⟨L₀, h₀, hr.append h'⟩

theorem Reachable.accepted (h : Reachable d tr L) (hp : process d L tx = .ok L') :
    Reachable d (tr ++ [⟨L, tx, L'⟩]) L' := h.append ((Run.refl L).accepted hp)

end FundingVaults.LaunchV7
