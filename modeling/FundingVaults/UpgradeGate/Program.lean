import FundingVaults.Lib.Anchor
import FundingVaults.Lib.Loader

/-!
# The upgrade gate

Transcription of `upgrade-gate-v1`: the gate account, the checks on raw loader accounts, the
contexts and the five instructions.  The gate holds the upgrade authority of one target program; a
queued buffer is installed ninety days after two members of its committee proposed it.
-/

namespace FundingVaults.UpgradeGate

open Anchor

/-! ## Constants, errors and state -/

/-- The address of the program. -/
def ID : Pubkey := ⟨[63, 234, 66, 80, 222, 249, 155, 210, 70, 177, 42, 111, 238, 40, 121, 204, 176,
  8, 19, 146, 166, 15, 71, 98, 101, 251, 53, 20, 206, 202, 217, 129], rfl⟩

def NOTICE : ℤ := 90 * 86400
def EMPTY : U8 := 0
def PENDING : U8 := 1
def EXECUTED : U8 := 2
def CANCELLED : U8 := 3

structure UpgradeGateV1 where
  target : Pubkey
  programdata : Pubkey
  /-- The three keys of the committee. -/
  members : List Pubkey
  nonce : U64
  status : U8
  buffer : Pubkey
  codeHash : Bytes32
  codeLen : U64
  returnAuthority : Pubkey
  createdAt : I64
  executeAfter : I64
  lastActionAt : I64
  bump : U8
deriving DecidableEq

inductive GateError where
  | Disabled
  | InvalidConfig
  | Unauthorized
  | InvalidLoader
  | UnsealedGate
  | InvalidBuffer
  | InvalidProposal
  | Notice
  | ClockRollback
  | Overflow
deriving DecidableEq, Repr

def gateSeeds (target : Pubkey) : List Bytes := [ascii "upgrade-gate-v1", target.bytes]

/-- What the program runs on: the chain, the loader, and the feature it is built with. -/
structure Platform extends Chain, Loader where
  testProfile : Bool

/-- The accounts of the gate program and of the loader. -/
structure World where
  gates : Pubkey → Option UpgradeGateV1
  loader : LoaderAccounts

def World.vacant (w : World) (key : Pubkey) : Bool :=
  (w.gates key).isNone && (w.loader key).isNone

def World.write (w : World) (key : Pubkey) (g : UpgradeGateV1) : World :=
  { w with gates := Function.update w.gates key (some g) }

/-! ## Raw loader accounts -/

def executable (A : LoaderAccounts) (key : Pubkey) : Bool :=
  ((A key).map LoaderAccount.executable).getD false

def loaderState (A : LoaderAccounts) (key : Pubkey) : Result GateError LoaderState :=
  okOr ((A key).map LoaderAccount.state) GateError.InvalidLoader

def targetState (P : Platform) (A : LoaderAccounts) (program data : Pubkey)
    (authority : Option Pubkey) : Result GateError Unit := do
  require (executable A program ∧ ¬ executable A data) GateError.InvalidLoader
  require (P.programDataAddress program = data) GateError.InvalidLoader
  let p ← loaderState A program
  require (p = .program data) GateError.InvalidLoader
  let d ← loaderState A data
  require (d.upgradeAuthority? = some authority) GateError.InvalidLoader

def bufferHash (P : Platform) (A : LoaderAccounts) (key authority : Pubkey) :
    Result GateError (Bytes32 × U64) := do
  require (¬ executable A key) GateError.InvalidBuffer
  let s ← loaderState A key
  let bytes ← okOr (s.bufferOf authority) GateError.InvalidBuffer
  require (bytes ≠ []) GateError.InvalidBuffer
  pure (P.sha256 bytes, U64.ofNat bytes.length)

namespace UpgradeGateV1

def quorum (g : UpgradeGateV1) (a b : Pubkey) : Result GateError Unit :=
  require (a ≠ b ∧ a ∈ g.members ∧ b ∈ g.members) GateError.Unauthorized

def tick (g : UpgradeGateV1) (now : I64) : Result GateError UpgradeGateV1 := do
  require (now ≥ g.lastActionAt) GateError.ClockRollback
  pure { g with lastActionAt := now }

end UpgradeGateV1

/-! ## Instructions -/

structure InitializeGate.Keys where
  payer : Pubkey
  memberOne : Pubkey
  memberTwo : Pubkey
  memberThree : Pubkey
  currentAuthority : Pubkey
  target : Pubkey
  programdata : Pubkey
  gateProgramdata : Pubkey
  gate : Pubkey

def InitializeGate.load (P : Platform) (w : World) (signers : List Pubkey) (k : Keys) :
    Result GateError Init := do
  signer signers k.payer
  signer signers k.memberOne
  signer signers k.memberTwo
  signer signers k.memberThree
  signer signers k.currentAuthority
  loadInit P.toChain ID w.vacant (gateSeeds k.target) k.gate

def initializeGate (P : Platform) (w : World) (now : I64) (signers : List Pubkey)
    (k : InitializeGate.Keys) : Result GateError World := do
  let gate ← InitializeGate.load P w signers k
  require P.testProfile GateError.Disabled
  require (k.memberOne ≠ k.memberTwo ∧ k.memberOne ≠ k.memberThree ∧ k.memberTwo ≠ k.memberThree)
    GateError.InvalidConfig
  require (k.target ≠ ID) GateError.InvalidConfig
  require (k.gateProgramdata = P.programDataAddress ID) GateError.UnsealedGate
  require (¬ executable w.loader k.gateProgramdata) GateError.UnsealedGate
  let sealed ← loaderState w.loader k.gateProgramdata
  require (sealed.upgradeAuthority? = some none) GateError.UnsealedGate
  targetState P w.loader k.target k.programdata (some k.currentAuthority)
  let loader ← okOr
    (P.setUpgradeAuthority w.loader k.target k.currentAuthority (some k.gate)) Failure.call
  pure ({ w with loader }.write k.gate {
    target := k.target
    programdata := k.programdata
    members := [k.memberOne, k.memberTwo, k.memberThree]
    nonce := 0
    status := EMPTY
    buffer := Bytes32.zero
    codeHash := Bytes32.zero
    codeLen := 0
    returnAuthority := Bytes32.zero
    createdAt := 0
    executeAfter := 0
    lastActionAt := now
    bump := gate.bump })

/-- `seeds = [b"upgrade-gate-v1", gate.target], bump = gate.bump`. -/
def loadGate (P : Platform) (w : World) (key : Pubkey) : Result GateError UpgradeGateV1 := do
  let gate ← loadAs w.gates some key
  checkSeeds P.toChain ID (gateSeeds gate.data.target) gate.data.bump key
  pure gate.data

structure ProposeUpgrade.Keys where
  memberOne : Pubkey
  memberTwo : Pubkey
  returnAuthority : Pubkey
  gate : Pubkey
  buffer : Pubkey

def proposeUpgrade (P : Platform) (w : World) (now : I64) (signers : List Pubkey)
    (k : ProposeUpgrade.Keys) (nonce : U64) (codeHash : Bytes32) : Result GateError World := do
  signer signers k.memberOne
  signer signers k.memberTwo
  signer signers k.returnAuthority
  let g ← loadGate P w k.gate
  let g ← g.tick now
  g.quorum k.memberOne k.memberTwo
  require (g.status ≠ PENDING) GateError.InvalidProposal
  let next ← okOr (g.nonce.checkedAdd 1) GateError.Overflow
  require (nonce = next) GateError.InvalidProposal
  let (actual, len) ← bufferHash P w.loader k.buffer k.gate
  require (actual = codeHash) GateError.InvalidBuffer
  let executeAfter ← okOr (I64.ofInt? (now.val + NOTICE)) GateError.Overflow
  pure (w.write k.gate { g with
    nonce
    status := PENDING
    buffer := k.buffer
    codeHash := actual
    codeLen := len
    returnAuthority := k.returnAuthority
    createdAt := now
    executeAfter })

structure ExecuteUpgrade.Keys where
  gate : Pubkey
  target : Pubkey
  programdata : Pubkey
  buffer : Pubkey
  spill : Pubkey

def executeUpgrade (P : Platform) (w : World) (now : I64) (k : ExecuteUpgrade.Keys) (nonce : U64) :
    Result GateError World := do
  let g ← loadGate P w k.gate
  require (k.target = g.target) Check.ConstraintAddress
  require (k.programdata = g.programdata) Check.ConstraintAddress
  let g ← g.tick now
  require (g.status = PENDING ∧ g.nonce = nonce) GateError.InvalidProposal
  require (now ≥ g.executeAfter) GateError.Notice
  require (g.buffer = k.buffer) GateError.InvalidBuffer
  require (g.returnAuthority = k.spill) GateError.InvalidProposal
  targetState P w.loader k.target k.programdata (some k.gate)
  let (hash, len) ← bufferHash P w.loader k.buffer k.gate
  require (hash = g.codeHash ∧ len = g.codeLen) GateError.InvalidBuffer
  let loader ← okOr (P.upgrade w.loader g.target g.buffer k.gate g.returnAuthority) Failure.call
  pure ({ w with loader }.write k.gate { g with status := EXECUTED })

structure ReturnBuffer.Keys where
  memberOne : Pubkey
  memberTwo : Pubkey
  gate : Pubkey
  buffer : Pubkey
  recipient : Pubkey

def ReturnBuffer.load (P : Platform) (w : World) (signers : List Pubkey) (k : Keys) :
    Result GateError UpgradeGateV1 := do
  signer signers k.memberOne
  signer signers k.memberTwo
  loadGate P w k.gate

/-- The gate hands the buffer to the recipient. -/
def returnBuffer (P : Platform) (w : World) (k : ReturnBuffer.Keys) : Result GateError World := do
  let loader ← okOr (P.setBufferAuthority w.loader k.buffer k.gate k.recipient) Failure.call
  pure { w with loader }

def cancelUpgrade (P : Platform) (w : World) (now : I64) (signers : List Pubkey)
    (k : ReturnBuffer.Keys) (nonce : U64) : Result GateError World := do
  let g ← ReturnBuffer.load P w signers k
  let g ← g.tick now
  g.quorum k.memberOne k.memberTwo
  require (g.status = PENDING ∧ g.nonce = nonce) GateError.InvalidProposal
  require (g.buffer = k.buffer) GateError.InvalidBuffer
  require (g.returnAuthority = k.recipient) GateError.InvalidProposal
  let _ ← bufferHash P w.loader k.buffer k.gate
  returnBuffer P (w.write k.gate { g with status := CANCELLED }) k

def returnUnqueuedBuffer (P : Platform) (w : World) (now : I64) (signers : List Pubkey)
    (k : ReturnBuffer.Keys) : Result GateError World := do
  let g ← ReturnBuffer.load P w signers k
  let g ← g.tick now
  g.quorum k.memberOne k.memberTwo
  require (g.status ≠ PENDING ∨ g.buffer ≠ k.buffer) GateError.InvalidProposal
  let _ ← bufferHash P w.loader k.buffer k.gate
  returnBuffer P (w.write k.gate g) k

inductive Instruction where
  | initializeGate (keys : InitializeGate.Keys)
  | proposeUpgrade (keys : ProposeUpgrade.Keys) (nonce : U64) (codeHash : Bytes32)
  | executeUpgrade (keys : ExecuteUpgrade.Keys) (nonce : U64)
  | cancelUpgrade (keys : ReturnBuffer.Keys) (nonce : U64)
  | returnUnqueuedBuffer (keys : ReturnBuffer.Keys)

def process (P : Platform) (w : World) (tx : Tx Instruction) : Result GateError World :=
  match tx.instruction with
  | .initializeGate k => initializeGate P w tx.now tx.signers k
  | .proposeUpgrade k nonce codeHash => proposeUpgrade P w tx.now tx.signers k nonce codeHash
  | .executeUpgrade k nonce => executeUpgrade P w tx.now k nonce
  | .cancelUpgrade k nonce => cancelUpgrade P w tx.now tx.signers k nonce
  | .returnUnqueuedBuffer k => returnUnqueuedBuffer P w tx.now tx.signers k

end FundingVaults.UpgradeGate
