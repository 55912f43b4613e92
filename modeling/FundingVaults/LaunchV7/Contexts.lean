import FundingVaults.LaunchV7.Identity

/-!
# Account contexts

Transcription of `contexts.rs`: for every instruction, the accounts it names and the constraints
the framework checks before the handler runs.  `load` takes the ledger, the transaction's signers
and the addresses that the transaction supplies, and fails or returns the checked accounts.

An account of the program sits at one address and holds one typed value.  An `init` account must
sit at the address that `find_program_address` gives for its seeds and must not exist yet; every
other program account is checked against its stored bump.
-/

namespace FundingVaults.LaunchV7

/-! ## The ledger -/

/-- The typed accounts that the program owns. -/
inductive ProgramAccount where
  | preparation (a : LaunchPreparationV7)
  | policy (a : LaunchPolicyV7)
  | vault (a : LaunchVaultV7)
  | approval (a : TreasuryApprovalV7)
  | change (a : ChangeProposalV7)
  | withdrawal (a : WithdrawalProposalV7)
  | withdrawalKey (a : WithdrawalKeyV7)
deriving DecidableEq

namespace ProgramAccount

def preparation? : ProgramAccount → Option LaunchPreparationV7
  | preparation a => some a
  | _ => none

def policy? : ProgramAccount → Option LaunchPolicyV7
  | policy a => some a
  | _ => none

def vault? : ProgramAccount → Option LaunchVaultV7
  | vault a => some a
  | _ => none

def approval? : ProgramAccount → Option TreasuryApprovalV7
  | approval a => some a
  | _ => none

def changeProposal? : ProgramAccount → Option ChangeProposalV7
  | change a => some a
  | _ => none

def withdrawal? : ProgramAccount → Option WithdrawalProposalV7
  | withdrawal a => some a
  | _ => none

def withdrawalKey? : ProgramAccount → Option WithdrawalKeyV7
  | withdrawalKey a => some a
  | _ => none

end ProgramAccount

structure Ledger where
  program : Pubkey → Option ProgramAccount
  tokens : Tokens

namespace Ledger

/-- No account exists at the address. -/
def vacant (L : Ledger) (key : Pubkey) : Bool :=
  (L.program key).isNone && (L.tokens.account key).isNone && (L.tokens.mint key).isNone

def write (L : Ledger) (key : Pubkey) (a : ProgramAccount) : Ledger :=
  { L with program := Function.update L.program key (some a) }

end Ledger

/-! ## Account checks -/

/-- A loaded account: its address and its data. -/
structure Account (α : Type) where
  key : Pubkey
  data : α

/-- An account the framework has just created. -/
structure Init where
  key : Pubkey
  bump : U8

/-- What a program address is derived from. -/
inductive Seeds where
  | preparation (identity : Bytes32)
  | policy (identity : Bytes32)
  | vault (policy : Pubkey) (role : U8)
  | token (vault : Pubkey)
  | approval (policy : Pubkey) (period : U64)
  | key (policy subject : Pubkey)
  | withdrawal (policy : Pubkey) (role : U8) (nonce : U64)
  | change (policy : Pubkey) (nonce : U64)
deriving DecidableEq

/-- The seed strings of the source. -/
def Seeds.bytes : Seeds → List Bytes
  | .preparation identity => [ascii "launch-v7-preparation", identity.bytes]
  | .policy identity => [ascii "launch-v7-policy", identity.bytes]
  | .vault p role => [ascii "launch-v7-vault", p.bytes, [role]]
  | .token v => [ascii "launch-v7-token", v.bytes]
  | .approval p period => [ascii "launch-v7-approval", p.bytes, U64.toLe period]
  | .key p subject => [ascii "launch-v7-key", p.bytes, subject.bytes]
  | .withdrawal p role nonce => [ascii "launch-v7-withdraw", p.bytes, [role], U64.toLe nonce]
  | .change p nonce => [ascii "launch-v7-change", p.bytes, U64.toLe nonce]

section Checks

variable (chain : Chain) (L : Ledger)

/-- `Signer<'info>`. -/
def signer (signers : List Pubkey) (key : Pubkey) : Result Unit :=
  require (key ∈ signers) ConstraintError.AccountNotSigner

/-- `Account<'info, T>` of a type that the program owns. -/
def loadAs {α : Type} (as : ProgramAccount → Option α) (key : Pubkey) : Result (Account α) := do
  let data ← okOr ((L.program key).bind as) ConstraintError.AccountNotInitialized
  pure ⟨key, data⟩

/-- `seeds = [..], bump = x.bump`. -/
def checkSeeds (seeds : Seeds) (bump : U8) (key : Pubkey) : Result Unit :=
  require (chain.createProgramAddress (seeds.bytes ++ [[bump]]) ID = some key)
    ConstraintError.ConstraintSeeds

/-- `seeds = [..], bump` without a stored bump. -/
def checkFound (seeds : Seeds) (key : Pubkey) : Result Unit :=
  require ((chain.findProgramAddress seeds.bytes ID).1 = key) ConstraintError.ConstraintSeeds

/-- `init, seeds = [..], bump`. -/
def loadInit (seeds : Seeds) (key : Pubkey) : Result Init := do
  checkFound chain seeds key
  require (L.vacant key) ConstraintError.AccountAlreadyInUse
  pure ⟨key, (chain.findProgramAddress seeds.bytes ID).2⟩

/-- `has_one = x`. -/
def hasOne (stored key : Pubkey) : Result Unit :=
  require (stored = key) ConstraintError.ConstraintHasOne

/-- `Account<'info, Mint>`. -/
def loadMint (key : Pubkey) : Result (Account Mint) := do
  let m ← okOr (L.tokens.mint key) ConstraintError.AccountNotInitialized
  require m.isInitialized ConstraintError.AccountNotInitialized
  pure ⟨key, m⟩

/-- `Account<'info, TokenAccount>` with `token::mint = mint`. -/
def loadToken (key mint : Pubkey) : Result (Account TokenAccount) := do
  let t ← okOr (L.tokens.account key) ConstraintError.AccountNotInitialized
  require (t.state ≠ .uninitialized) ConstraintError.AccountNotInitialized
  require (t.mint = mint) ConstraintError.ConstraintTokenMint
  pure ⟨key, t⟩

/-- `token::authority = x`. -/
def tokenAuthority (t : Account TokenAccount) (authority : Pubkey) : Result Unit :=
  require (t.data.owner = authority) ConstraintError.ConstraintTokenOwner

def loadPolicy (key : Pubkey) : Result (Account LaunchPolicyV7) := do
  let p ← loadAs L ProgramAccount.policy? key
  checkSeeds chain (.policy p.data.identity) p.data.bump key
  pure p

def loadVault (key policy : Pubkey) : Result (Account LaunchVaultV7) := do
  let v ← loadAs L ProgramAccount.vault? key
  checkSeeds chain (.vault policy v.data.role) v.data.bump key
  hasOne v.data.policy policy
  pure v

/-- The canonical key record of `subject`. -/
def loadRecord (key policy subject : Pubkey) : Result (Account WithdrawalKeyV7) := do
  let k ← loadAs L ProgramAccount.withdrawalKey? key
  checkSeeds chain (.key policy subject) k.data.bump key
  hasOne k.data.policy policy
  require (k.data.subject = subject) LaunchError.Unauthorized
  pure k

def loadWithdrawal (key policy : Pubkey) : Result (Account WithdrawalProposalV7) := do
  let q ← loadAs L ProgramAccount.withdrawal? key
  checkSeeds chain (.withdrawal policy q.data.role q.data.nonce) q.data.bump key
  hasOne q.data.policy policy
  pure q

def loadChange (key policy : Pubkey) : Result (Account ChangeProposalV7) := do
  let q ← loadAs L ProgramAccount.changeProposal? key
  checkSeeds chain (.change policy q.data.nonce) q.data.bump key
  hasOne q.data.policy policy
  pure q

end Checks

/-! ## Contexts -/

structure PreparePolicy where
  creator : Pubkey
  founder : Pubkey
  treasury : Pubkey
  oracle : Pubkey
  mint : Account Mint
  preparation : Init

structure PreparePolicy.Keys where
  creator : Pubkey
  founder : Pubkey
  treasury : Pubkey
  oracle : Pubkey
  mint : Pubkey
  preparation : Pubkey

def PreparePolicy.load (chain : Chain) (L : Ledger) (signers : List Pubkey) (k : Keys)
    (identity : Bytes32) : Result PreparePolicy := do
  signer signers k.creator
  let mint ← loadMint L k.mint
  let preparation ← loadInit chain L (.preparation identity) k.preparation
  pure { creator := k.creator, founder := k.founder, treasury := k.treasury, oracle := k.oracle,
         mint, preparation }

structure OpenPreparedPolicy where
  creator : Pubkey
  founder : Pubkey
  treasury : Pubkey
  oracle : Pubkey
  recoveryOne : Pubkey
  recoveryTwo : Pubkey
  recoveryThree : Pubkey
  mint : Account Mint
  preparation : Account LaunchPreparationV7
  policy : Init

structure OpenPreparedPolicy.Keys where
  creator : Pubkey
  founder : Pubkey
  treasury : Pubkey
  oracle : Pubkey
  recoveryOne : Pubkey
  recoveryTwo : Pubkey
  recoveryThree : Pubkey
  mint : Pubkey
  preparation : Pubkey
  policy : Pubkey

def OpenPreparedPolicy.load (chain : Chain) (L : Ledger) (signers : List Pubkey) (k : Keys) :
    Result OpenPreparedPolicy := do
  signer signers k.creator
  signer signers k.founder
  signer signers k.treasury
  signer signers k.recoveryOne
  signer signers k.recoveryTwo
  signer signers k.recoveryThree
  let mint ← loadMint L k.mint
  let preparation ← loadAs L ProgramAccount.preparation? k.preparation
  checkSeeds chain (.preparation preparation.data.identity) preparation.data.bump k.preparation
  let policy ← loadInit chain L (.policy preparation.data.identity) k.policy
  pure { creator := k.creator, founder := k.founder, treasury := k.treasury, oracle := k.oracle,
         recoveryOne := k.recoveryOne, recoveryTwo := k.recoveryTwo,
         recoveryThree := k.recoveryThree, mint, preparation, policy }

structure Deposit where
  creator : Pubkey
  depositor : Pubkey
  authority : Pubkey
  policy : Account LaunchPolicyV7
  mint : Account Mint
  source : Account TokenAccount
  vault : Init
  vaultToken : Init

structure Deposit.Keys where
  creator : Pubkey
  depositor : Pubkey
  authority : Pubkey
  policy : Pubkey
  mint : Pubkey
  source : Pubkey
  vault : Pubkey
  vaultToken : Pubkey

def Deposit.load (chain : Chain) (L : Ledger) (signers : List Pubkey) (k : Keys) (role : U8) :
    Result Deposit := do
  signer signers k.creator
  signer signers k.depositor
  signer signers k.authority
  let policy ← loadPolicy chain L k.policy
  require (policy.data.controller = k.creator) LaunchError.Unauthorized
  hasOne policy.data.mint k.mint
  let mint ← loadMint L k.mint
  let source ← loadToken L k.source k.mint
  tokenAuthority source k.depositor
  let vault ← loadInit chain L (.vault k.policy role) k.vault
  let vaultToken ← loadInit chain L (.token k.vault) k.vaultToken
  -- The vault was created first and occupies its address.
  require (k.vaultToken ≠ k.vault) ConstraintError.AccountAlreadyInUse
  pure { creator := k.creator, depositor := k.depositor, authority := k.authority, policy, mint,
         source, vault, vaultToken }

structure Control where
  creator : Pubkey
  policy : Account LaunchPolicyV7

structure Control.Keys where
  creator : Pubkey
  policy : Pubkey

def Control.load (chain : Chain) (L : Ledger) (signers : List Pubkey) (k : Keys) :
    Result Control := do
  signer signers k.creator
  let policy ← loadPolicy chain L k.policy
  require (policy.data.controller = k.creator) LaunchError.Unauthorized
  pure { creator := k.creator, policy }

structure ConsentControl where
  creator : Pubkey
  founder : Pubkey
  treasury : Pubkey
  policy : Account LaunchPolicyV7

structure ConsentControl.Keys where
  creator : Pubkey
  founder : Pubkey
  treasury : Pubkey
  policy : Pubkey

def ConsentControl.load (chain : Chain) (L : Ledger) (signers : List Pubkey) (k : Keys) :
    Result ConsentControl := do
  signer signers k.creator
  signer signers k.founder
  signer signers k.treasury
  let policy ← loadPolicy chain L k.policy
  require (policy.data.controller = k.creator) LaunchError.Unauthorized
  require (policy.data.withdrawal.founder.current = k.founder) LaunchError.Unauthorized
  require (policy.data.withdrawal.treasury.current = k.treasury) LaunchError.Unauthorized
  pure { creator := k.creator, founder := k.founder, treasury := k.treasury, policy }

structure PolicyOnly where
  policy : Account LaunchPolicyV7

structure PolicyOnly.Keys where
  policy : Pubkey

def PolicyOnly.load (chain : Chain) (L : Ledger) (k : Keys) : Result PolicyOnly := do
  let policy ← loadPolicy chain L k.policy
  pure { policy }

structure Refund where
  depositor : Pubkey
  policy : Account LaunchPolicyV7
  vault : Account LaunchVaultV7
  mint : Account Mint
  vaultToken : Account TokenAccount
  destination : Account TokenAccount

structure Refund.Keys where
  depositor : Pubkey
  policy : Pubkey
  vault : Pubkey
  mint : Pubkey
  vaultToken : Pubkey
  destination : Pubkey

def Refund.load (chain : Chain) (L : Ledger) (signers : List Pubkey) (k : Keys) :
    Result Refund := do
  signer signers k.depositor
  let policy ← loadPolicy chain L k.policy
  hasOne policy.data.mint k.mint
  let vault ← loadVault chain L k.vault k.policy
  hasOne vault.data.depositor k.depositor
  let mint ← loadMint L k.mint
  checkFound chain (.token k.vault) k.vaultToken
  let vaultToken ← loadToken L k.vaultToken k.mint
  tokenAuthority vaultToken k.vault
  let destination ← loadToken L k.destination k.mint
  tokenAuthority destination k.depositor
  pure { depositor := k.depositor, policy, vault, mint, vaultToken, destination }

structure Report where
  oracle : Pubkey
  policy : Account LaunchPolicyV7

structure Report.Keys where
  oracle : Pubkey
  policy : Pubkey

def Report.load (chain : Chain) (L : Ledger) (signers : List Pubkey) (k : Keys) :
    Result Report := do
  signer signers k.oracle
  let policy ← loadPolicy chain L k.policy
  hasOne policy.data.oracle k.oracle
  pure { oracle := k.oracle, policy }

structure ApproveTreasury where
  treasury : Pubkey
  policy : Account LaunchPolicyV7
  mint : Account Mint
  recipient : Account TokenAccount
  approval : Init
  recipientRecord : Account WithdrawalKeyV7

structure ApproveTreasury.Keys where
  treasury : Pubkey
  policy : Pubkey
  mint : Pubkey
  recipient : Pubkey
  approval : Pubkey
  recipientRecord : Pubkey

def ApproveTreasury.load (chain : Chain) (L : Ledger) (signers : List Pubkey) (k : Keys)
    (period : U64) : Result ApproveTreasury := do
  signer signers k.treasury
  let policy ← loadPolicy chain L k.policy
  require (policy.data.withdrawal.treasury.current = k.treasury) LaunchError.WithdrawalAuthority
  hasOne policy.data.mint k.mint
  let mint ← loadMint L k.mint
  let recipient ← loadToken L k.recipient k.mint
  let approval ← loadInit chain L (.approval k.policy period) k.approval
  let recipientRecord ← loadRecord chain L k.recipientRecord k.policy recipient.data.owner
  pure { treasury := k.treasury, policy, mint, recipient, approval, recipientRecord }

structure Release where
  authority : Pubkey
  policy : Account LaunchPolicyV7
  vault : Account LaunchVaultV7
  mint : Account Mint
  vaultToken : Account TokenAccount
  destination : Account TokenAccount
  approval : Option (Account TreasuryApprovalV7)
  recipientRecord : Option (Account WithdrawalKeyV7)

structure Release.Keys where
  authority : Pubkey
  policy : Pubkey
  vault : Pubkey
  mint : Pubkey
  vaultToken : Pubkey
  destination : Pubkey
  approval : Option Pubkey
  recipientRecord : Option Pubkey

def Release.load (chain : Chain) (L : Ledger) (signers : List Pubkey) (k : Keys) :
    Result Release := do
  signer signers k.authority
  let policy ← loadPolicy chain L k.policy
  hasOne policy.data.mint k.mint
  let vault ← loadVault chain L k.vault k.policy
  let mint ← loadMint L k.mint
  checkFound chain (.token k.vault) k.vaultToken
  let vaultToken ← loadToken L k.vaultToken k.mint
  tokenAuthority vaultToken k.vault
  let destination ← loadToken L k.destination k.mint
  -- The treasury path of the handler checks these two typed accounts before it uses them.
  let approval ← k.approval.mapM (loadAs L ProgramAccount.approval?)
  let recipientRecord ← k.recipientRecord.mapM (loadAs L ProgramAccount.withdrawalKey?)
  pure { authority := k.authority, policy, vault, mint, vaultToken, destination, approval,
         recipientRecord }

structure PrepareWithdrawalKey where
  payer : Pubkey
  policy : Account LaunchPolicyV7
  record : Init

structure PrepareWithdrawalKey.Keys where
  payer : Pubkey
  policy : Pubkey
  record : Pubkey

def PrepareWithdrawalKey.load (chain : Chain) (L : Ledger) (signers : List Pubkey) (k : Keys)
    (subject : Pubkey) : Result PrepareWithdrawalKey := do
  signer signers k.payer
  let policy ← loadPolicy chain L k.policy
  let record ← loadInit chain L (.key k.policy subject) k.record
  pure { payer := k.payer, policy, record }

structure ProposeWithdrawal where
  payer : Pubkey
  initiator : Pubkey
  cosigner : Pubkey
  successor : Pubkey
  policy : Account LaunchPolicyV7
  proposal : Init
  successorRecord : Account WithdrawalKeyV7

structure ProposeWithdrawal.Keys where
  payer : Pubkey
  initiator : Pubkey
  cosigner : Pubkey
  successor : Pubkey
  policy : Pubkey
  proposal : Pubkey
  successorRecord : Pubkey

def ProposeWithdrawal.load (chain : Chain) (L : Ledger) (signers : List Pubkey) (k : Keys)
    (role : U8) (nonce : U64) : Result ProposeWithdrawal := do
  signer signers k.payer
  signer signers k.initiator
  signer signers k.cosigner
  signer signers k.successor
  let policy ← loadPolicy chain L k.policy
  let proposal ← loadInit chain L (.withdrawal k.policy role nonce) k.proposal
  let successorRecord ← loadRecord chain L k.successorRecord k.policy k.successor
  pure { payer := k.payer, initiator := k.initiator, cosigner := k.cosigner,
         successor := k.successor, policy, proposal, successorRecord }

structure ExecuteWithdrawal where
  policy : Account LaunchPolicyV7
  proposal : Account WithdrawalProposalV7
  successorRecord : Account WithdrawalKeyV7

structure ExecuteWithdrawal.Keys where
  policy : Pubkey
  proposal : Pubkey
  successorRecord : Pubkey

def ExecuteWithdrawal.load (chain : Chain) (L : Ledger) (k : Keys) :
    Result ExecuteWithdrawal := do
  let policy ← loadPolicy chain L k.policy
  let proposal ← loadWithdrawal chain L k.proposal k.policy
  let successorRecord ← loadRecord chain L k.successorRecord k.policy proposal.data.successor
  pure { policy, proposal, successorRecord }

structure CancelWithdrawal where
  initiator : Pubkey
  cosigner : Pubkey
  policy : Account LaunchPolicyV7
  proposal : Account WithdrawalProposalV7
  successorRecord : Account WithdrawalKeyV7

structure CancelWithdrawal.Keys where
  initiator : Pubkey
  cosigner : Pubkey
  policy : Pubkey
  proposal : Pubkey
  successorRecord : Pubkey

def CancelWithdrawal.load (chain : Chain) (L : Ledger) (signers : List Pubkey) (k : Keys) :
    Result CancelWithdrawal := do
  signer signers k.initiator
  signer signers k.cosigner
  let policy ← loadPolicy chain L k.policy
  let proposal ← loadWithdrawal chain L k.proposal k.policy
  let successorRecord ← loadRecord chain L k.successorRecord k.policy proposal.data.successor
  pure { initiator := k.initiator, cosigner := k.cosigner, policy, proposal, successorRecord }

structure ProposeChange where
  payer : Pubkey
  initiator : Pubkey
  cosigner : Pubkey
  successor : Pubkey
  policy : Account LaunchPolicyV7
  proposal : Init

structure ProposeChange.Keys where
  payer : Pubkey
  initiator : Pubkey
  cosigner : Pubkey
  successor : Pubkey
  policy : Pubkey
  proposal : Pubkey

def ProposeChange.load (chain : Chain) (L : Ledger) (signers : List Pubkey) (k : Keys)
    (nonce : U64) : Result ProposeChange := do
  signer signers k.payer
  signer signers k.initiator
  signer signers k.cosigner
  signer signers k.successor
  let policy ← loadPolicy chain L k.policy
  let proposal ← loadInit chain L (.change k.policy nonce) k.proposal
  pure { payer := k.payer, initiator := k.initiator, cosigner := k.cosigner,
         successor := k.successor, policy, proposal }

structure CancelChange where
  initiator : Pubkey
  cosigner : Pubkey
  policy : Account LaunchPolicyV7
  proposal : Account ChangeProposalV7

structure CancelChange.Keys where
  initiator : Pubkey
  cosigner : Pubkey
  policy : Pubkey
  proposal : Pubkey

def CancelChange.load (chain : Chain) (L : Ledger) (signers : List Pubkey) (k : Keys) :
    Result CancelChange := do
  signer signers k.initiator
  signer signers k.cosigner
  let policy ← loadPolicy chain L k.policy
  let proposal ← loadChange chain L k.proposal k.policy
  pure { initiator := k.initiator, cosigner := k.cosigner, policy, proposal }

structure ExecuteChange where
  policy : Account LaunchPolicyV7
  proposal : Account ChangeProposalV7

structure ExecuteChange.Keys where
  policy : Pubkey
  proposal : Pubkey

def ExecuteChange.load (chain : Chain) (L : Ledger) (k : Keys) : Result ExecuteChange := do
  let policy ← loadPolicy chain L k.policy
  let proposal ← loadChange chain L k.proposal k.policy
  pure { policy, proposal }

end FundingVaults.LaunchV7
