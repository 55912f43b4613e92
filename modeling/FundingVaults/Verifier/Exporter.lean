import FundingVaults.Lib.Dict
import FundingVaults.Lib.Json
import FundingVaults.Verifier.Accounts

/-!
# The exporter of launch graphs

Transcription of `launch_v7_rpc_exporter.py`, and of the snapshot readers of
`launch_v7_verifier.py` that it uses.  The client is any function of the number of the call and of
its request: an exporter that makes its calls in a fixed order sees no more of a server than that,
whatever the server does in between.

The slot, the time and the balances of a snapshot are numbers here, where the source writes them as
decimal text.  A Python set has no order, so only which error is raised first depends on it.
-/

namespace FundingVaults.Verifier

/-! ## Snapshots -/

def PROGRAM : String := "CYFsfATtQB3Excjsm4Cuh8ZWnPE5j6XAU3GS3RKXmUcK"
def LOADER : String := "BPFLoaderUpgradeab1e11111111111111111111111"
def CLOCK : String := "SysvarC1ock11111111111111111111111111111111"
def SYSVAR : String := "Sysvar1111111111111111111111111111111111111"
def PERIOD : ℤ := 2592000
def CLIFF : ℤ := 15552000

/-- An account of a snapshot. -/
structure AccountView where
  address : String
  owner : String
  executable : Bool
  lamports : ℤ
  dataHex : String
deriving DecidableEq

structure Snapshot where
  schema : String
  programId : String
  scope : String
  privateKeysSerialized : Bool
  slot : ℤ
  now : ℤ
  accounts : Dict String AccountView

/-- A policy with its address. -/
structure PolicyView extends Policy where
  address : String

def Reason.text : Reason → String
  | .TRUNCATED_ACCOUNT => "TRUNCATED_ACCOUNT"
  | .TRAILING_ACCOUNT_BYTES => "TRAILING_ACCOUNT_BYTES"
  | .DISCRIMINATOR => "DISCRIMINATOR"
  | .REPORT_BOOL => "REPORT_BOOL"
  | .PREPARATION_SIZE => "PREPARATION_SIZE"
  | .RPC_WITHDRAWAL_LAYOUT => "RPC_WITHDRAWAL_LAYOUT"
  | .RPC_APPROVAL_LAYOUT => "RPC_APPROVAL_LAYOUT"
  | .PREPARATION_CONFIG_CHANGED => "PREPARATION_CONFIG_CHANGED"
  | .PUBKEY => "Solana public key must decode to 32 bytes"
  | .STRUCT => "argument out of range"

/-- `struct.pack` of one number in its range. -/
def pack (f : Format) (x : ℤ) : Bytes := leBytes f.size (x % 256 ^ f.size).toNat

variable (chain : Chain)

/-- The address and the data of an account, before its tag is read. -/
def Snapshot.located (s : Snapshot) (name owner : String) : Except String (String × Bytes) := do
  let a ← okOr (s.accounts.get? name) "KeyError"
  let decoded ← pubkey a.address
  require (base58Encode decoded = a.address) "NONCANONICAL_KEY"
  require (a.owner = owner ∧ a.executable = false) "ACCOUNT_OWNER_OR_EXECUTABLE"
  let data ← okOr (fromHex? a.dataHex.toList) "non-hexadecimal number found"
  pure (a.address, data)

/-- `account`, for an account with a tag. -/
def Snapshot.account (s : Snapshot) (name owner typename : String) :
    Except String (String × Bytes) := do
  let (address, data) ← s.located name owner
  let () ← ((Verifier.account chain typename).all data).mapError Reason.text
  pure (address, data)

/-- What the identity of a policy is the hash of. -/
def identityPreimage (p : Policy) (configBytes : Bytes) : Except String Bytes := do
  let program ← pubkey PROGRAM
  let keys ← [p.creator, p.mint, p.founder, p.treasury, p.initialOracle].mapM pubkey
  pure (ascii "k4v-launch-policy-v7-test-profile-1" ++ program ++ keys.flatten ++ p.specHash ++
    pack .q CLIFF ++ pack .q PERIOD ++ pack .Q 12 ++ pack .H 500 ++ pack .q 7776000 ++ pack .B 2 ++
    pack .q PERIOD ++ pack .q 300 ++ configBytes)

/-- `read_policy`. -/
def Snapshot.readPolicy (s : Snapshot) : Except String PolicyView := do
  let (address, data) ← s.located "policy" PROGRAM
  let (p, configBytes) ← ((Verifier.readPolicy chain).all data).mapError Reason.text
  let preimage ← identityPreimage p configBytes
  require ((chain.sha256 preimage).bytes = p.identity) "POLICY_IDENTITY"
  let program ← pubkey PROGRAM
  let (expected, bump) ←
    findProgramAddress chain.sha256 [ascii "launch-v7-policy", p.identity] program
  require (address = base58Encode expected ∧ p.bump = bump) "POLICY_PDA"
  pure { p with address }

/-! ## Manifests -/

def MAX_ACCOUNTS : ℕ := 100
def MANIFEST_SCHEMA : String := "K4V-V7-RPC-REVIEW-MANIFEST-v1"

def canonical (value : Json) : Except String String := do
  let value ← okOr value.asStr? "RPC_PUBLIC_KEY"
  require (32 ≤ value.length ∧ value.length ≤ 44) "RPC_PUBLIC_KEY"
  let decoded ← pubkey value
  require (base58Encode decoded = value) "RPC_PUBLIC_KEY"
  pure value

def pda (seeds : List Bytes) (program : String) : Except String String := do
  let program ← pubkey program
  let (address, _) ← findProgramAddress chain.sha256 seeds program
  pure (base58Encode address)

/-- `set(members) == names`. -/
def keysAre (members : List (String × Json)) (names : List String) : Bool :=
  decide (members.map Prod.fst ⊆ names) && decide (names ⊆ members.map Prod.fst)

/-- `sorted(set(xs))`. -/
def sortedSet {α : Type} [DecidableEq α] (r : α → α → Prop) [DecidableRel r] (xs : List α) :
    List α := xs.dedup.insertionSort r

def founderDestination (i : ℕ) : String := "founder_destination_" ++ toString i

def EXPECTED_KEYS : List String :=
  ["genesis_hash", "program_id", "policy", "mint", "creator", "founder", "treasury",
    "initial_oracle"]

def EXPECTED_HASHES : List String := ["identity_sha256", "spec_sha256"]

def checkAddresses (addresses : Dict String String) : Except String Unit := do
  require (1 ≤ addresses.length ∧ addresses.length ≤ MAX_ACCOUNTS) "RPC_COMPLETE_GRAPH_EXCEEDS_100"
  require (addresses.values.Nodup ∧ addresses.get? "clock" = some CLOCK)
    "RPC_ACCOUNT_ALIAS_OR_CLOCK"

/-- A lower-case hash of the expected identity. -/
def expectedHash (expected : Json) (key : String) : Except String Bytes := do
  let value ← okOr (expected.get key).asStr? "RPC_EXPECTED_HASH"
  require (value.length = 64 ∧ value.toList.all (hexDigits.contains ·)) "RPC_EXPECTED_HASH"
  okOr (fromHex? value.toList) "non-hexadecimal number found"

/-- The values of `external_accounts`. -/
def externalAccounts (manifest : Json) : Except String (List (String × String)) := do
  let external ← okOr (manifest.get "external_accounts").asObj? "RPC_EXTERNAL_ACCOUNTS"
  let count := external.length - 2
  require (1 ≤ count ∧ count ≤ 8 ∧ keysAre external
    ("source" :: "treasury_destination" :: (List.range count).map founderDestination))
    "RPC_EXTERNAL_ACCOUNTS"
  external.mapM fun (name, value) ↦ do
    let value ← canonical value
    pure (name, value)

def approvalPeriods (manifest : Json) : Except String (List ℤ) := do
  let elements ← okOr (manifest.get "approval_periods").asArr? "RPC_APPROVAL_PERIODS"
  require (elements.length ≤ 64) "RPC_APPROVAL_PERIODS"
  let periods ← elements.mapM fun n ↦ okOr n.asInt? "RPC_APPROVAL_PERIODS"
  require ((∀ n ∈ periods, 0 ≤ n ∧ n < 2 ^ 64) ∧ periods = sortedSet (· ≤ ·) periods)
    "RPC_APPROVAL_PERIODS"
  pure periods

def validateManifest (manifest : Json) : Except String (Dict String String) := do
  let members ← okOr manifest.asObj? "RPC_MANIFEST_FIELDS"
  require (keysAre members ["schema", "expected", "external_accounts", "approval_periods"])
    "RPC_MANIFEST_FIELDS"
  require ((manifest.get "schema").asStr? = some MANIFEST_SCHEMA) "RPC_MANIFEST_SCHEMA"
  let expected := manifest.get "expected"
  let fields ← okOr expected.asObj? "RPC_EXPECTED_FIELDS"
  require (keysAre fields (EXPECTED_KEYS ++ EXPECTED_HASHES)) "RPC_EXPECTED_FIELDS"
  let _ ← EXPECTED_KEYS.mapM fun key ↦ canonical (expected.get key)
  let policy ← canonical (expected.get "policy")
  let mint ← canonical (expected.get "mint")
  require ((expected.get "program_id").asStr? = some PROGRAM) "RPC_EXPECTED_PROGRAM"
  let identity ← expectedHash expected "identity_sha256"
  let _ ← expectedHash expected "spec_sha256"
  let policyAddress ← pda chain [ascii "launch-v7-policy", identity] PROGRAM
  require (policy = policyAddress) "RPC_EXPECTED_POLICY_PDA"
  let external ← externalAccounts manifest
  let _ ← approvalPeriods manifest
  let policyKey ← pubkey policy
  let program ← pubkey PROGRAM
  let programData ← pda chain [program] LOADER
  let founderVault ← pda chain [ascii "launch-v7-vault", policyKey, [0]] PROGRAM
  let founderKey ← pubkey founderVault
  let founderToken ← pda chain [ascii "launch-v7-token", founderKey] PROGRAM
  let treasuryVault ← pda chain [ascii "launch-v7-vault", policyKey, [1]] PROGRAM
  let treasuryKey ← pubkey treasuryVault
  let treasuryToken ← pda chain [ascii "launch-v7-token", treasuryKey] PROGRAM
  let preparation ← pda chain [ascii "launch-v7-preparation", identity] PROGRAM
  let addresses := (Dict.ofList [("policy", policy), ("mint", mint), ("program", PROGRAM),
    ("program_data", programData), ("clock", CLOCK), ("founder_vault", founderVault),
    ("founder_token", founderToken), ("treasury_vault", treasuryVault),
    ("treasury_token", treasuryToken), ("preparation", preparation)]).update external
  checkAddresses addresses
  pure addresses

/-! ## Reads -/

/-- A request for base-64 data at a finalized slot, or for the hash of the first block. -/
inductive Request where
  | getGenesisHash
  | getMultipleAccounts (addresses : List String) (minContextSlot : ℤ)
deriving DecidableEq

/-- `Client.call`: the result, by the number of the call and its request. -/
abbrev Client := ℕ → Request → Except String Json

/-- The base-64 text of `data`. -/
def encodedData? : Json → Option String
  | .arr [.str text, .str encoding] =>
    if encoding = "base64" ∧ text.length ≤ 2666668 then some text else none
  | _ => none

/-- What `read_accounts` makes of one value. -/
def readAccount (address : String) (raw : Json) : Except String AccountView := do
  let _ ← okOr raw.asObj? "RPC_MISSING_ACCOUNT"
  let owner ← canonical (raw.get "owner")
  let executable ← okOr (raw.get "executable").asBool? "RPC_ACCOUNT_ENVELOPE"
  let lamports ← okOr (raw.get "lamports").asInt? "RPC_ACCOUNT_ENVELOPE"
  require (0 < lamports ∧ lamports < 2 ^ 64) "RPC_ACCOUNT_ENVELOPE"
  let encoded ← okOr (encodedData? (raw.get "data")) "RPC_DATA_ENCODING"
  let data ← okOr (base64Decode? encoded) "Only base64 data is allowed"
  require (data.length ≤ 2000000 ∧ base64Encode data = encoded) "RPC_NONCANONICAL_BASE64"
  pure { address, owner, executable, lamports, dataHex := hexEncode data }

/-- One turn of the loop of `read_accounts`. -/
def readEntry (entry : (String × String) × Json) : Except String (String × AccountView) := do
  let account ← readAccount entry.1.2 entry.2
  pure (entry.1.1, account)

def readAccounts (client : Client) (call : ℕ) (addresses : Dict String String) (minimum : ℤ) :
    Except String Snapshot := do
  checkAddresses addresses
  let response ← client call (.getMultipleAccounts addresses.values minimum)
  let _ ← okOr response.asObj? "RPC_CONTEXT"
  let _ ← okOr (response.get "context").asObj? "RPC_CONTEXT"
  let slot ← okOr ((response.get "context").get "slot").asInt? "RPC_CONTEXT_SLOT"
  require (minimum ≤ slot ∧ slot < 2 ^ 64) "RPC_CONTEXT_SLOT"
  let values ← okOr (response.get "value").asArr? "RPC_VALUE_COUNT"
  require (values.length = addresses.length) "RPC_VALUE_COUNT"
  let entries ← (addresses.entries.zip values).mapM readEntry
  let accounts := Dict.ofList entries
  let clock ← okOr (accounts.get? "clock") "KeyError"
  let data ← okOr (fromHex? clock.dataHex.toList) "non-hexadecimal number found"
  require (clock.owner = SYSVAR ∧ clock.executable = false ∧ data.length = 40 ∧
    Format.Q.unpack (slice data 0 8) = slot) "RPC_CLOCK_BANK_MISMATCH"
  pure {
    schema := "K4V-LAUNCH-V7-RAW-SNAPSHOT-v1"
    programId := PROGRAM
    scope := "SUPPLIED_RPC_RESPONSE"
    privateKeysSerialized := false
    slot
    now := Format.q.unpack (slice data 32 8)
    accounts }

/-! ## Discovery -/

def bindIdentity (s : Snapshot) (expected : Json) : Except String PolicyView := do
  let p ← s.readPolicy chain
  let text (key : String) := (expected.get key).asStr?
  require (text "policy" = some p.address ∧ text "identity_sha256" = some (hexEncode p.identity) ∧
    text "spec_sha256" = some (hexEncode p.specHash) ∧ text "mint" = some p.mint ∧
    text "creator" = some p.creator ∧ text "founder" = some p.founder ∧
    text "treasury" = some p.treasury ∧ text "initial_oracle" = some p.initialOracle)
    "RPC_POLICY_IDENTITY_MISMATCH"
  pure p

/-- `range(1, n + 1)`. -/
def upTo (n : ℤ) : List ℤ := (List.range n.toNat).map fun i : ℕ ↦ (i + 1 : ℤ)

/-- The accounts of a numbered kind. -/
def numbered (label : String) (seeds : List Bytes) (ns : List ℤ) :
    Except String (List (String × String)) :=
  ns.mapM fun n ↦ do
    let address ← pda chain (seeds ++ [pack .Q n]) PROGRAM
    pure (label ++ toString n, address)

def historyAddresses (p : PolicyView) (periods : List ℤ) : Except String (Dict String String) := do
  require (p.approvalCount = periods.length) "RPC_COMPLETE_APPROVAL_PERIODS_REQUIRED"
  let sequences := p.changeSequence :: p.withdrawal.map Role.sequence
  require (∀ n ∈ sequences, n ≤ 256) "RPC_HISTORY_PROFILE_LIMIT"
  let key ← pubkey p.address
  let changes ← numbered chain "change_" [ascii "launch-v7-change", key] (upTo (sequences.getD 0 0))
  let founder ← numbered chain "withdrawal_0_" [ascii "launch-v7-withdraw", key, [0]]
    (upTo (sequences.getD 1 0))
  let treasury ← numbered chain "withdrawal_1_" [ascii "launch-v7-withdraw", key, [1]]
    (upTo (sequences.getD 2 0))
  let approvals ← numbered chain "approval_" [ascii "launch-v7-approval", key] periods
  pure ((((Dict.ofList changes).update founder).update treasury).update approvals)

/-- `name.startswith(label)`. -/
def startsWith (name label : String) : Bool := label.toList.isPrefixOf name.toList

/-- The subject at a fixed place of an account. -/
def subject (s : Snapshot) (name typename layout : String) (length offset : ℕ) :
    Except String (Option String) := do
  let (_, data) ← s.account chain name PROGRAM typename
  require (data.length = length) layout
  pure (some (base58Encode (slice data offset 32)))

/-- The subject of a history account, if it has one. -/
def subjectOf (s : Snapshot) (name : String) : Except String (Option String) :=
  if startsWith name "withdrawal_" then
    subject chain s name "WithdrawalProposalV7" "RPC_WITHDRAWAL_LAYOUT" 172 89
  else if startsWith name "approval_" then
    subject chain s name "TreasuryApprovalV7" "RPC_APPROVAL_LAYOUT" 177 80
  else .ok none

def keyAddresses (discovery : Snapshot) (history : Dict String String) (policy : String) :
    Except String (Dict String String) := do
  let subjects ← history.keys.mapM (subjectOf chain discovery)
  let keys ← (sortedSet (· ≤ ·) (subjects.filterMap id)).mapM fun k ↦ do
    let policyKey ← pubkey policy
    let key ← pubkey k
    let address ← pda chain [ascii "launch-v7-key", policyKey, key] PROGRAM
    pure ("key_" ++ k, address)
  pure (Dict.ofList keys)

/-- What has to stay the same of an account: not its balance. -/
def core (s : Snapshot) (name : String) : Except String (String × String × Bool × String) := do
  let a ← okOr (s.accounts.get? name) "KeyError"
  pure (a.address, a.owner, a.executable, a.dataHex)

def unchanged (before after : Snapshot) (names : List String) : Except String Unit := do
  let _ ← names.mapM fun name ↦ do
    let b ← core before name
    let a ← core after name
    require (b = a) "RPC_DISCOVERY_CHANGED_RESTART_REQUIRED"
  pure ()

/-! ## Exports -/

structure Provenance where
  expectedGenesisHash : String
  manifestSha256 : String
  discoverySlots : List ℤ
  contextSlot : ℤ
  requestedCommitment : String
  finalAccountCount : ℕ
  singleFinalResponse : Bool
  discoveryBytesUsedInSnapshot : Bool
  rpcServerTrustRequired : Bool
  chainProofVerified : Bool
  livePublicDeploymentVerified : Bool
  independentHumanAudit : Bool

structure Observation (V : Type) where
  schema : String
  snapshot : Snapshot
  verification : V
  provenance : Provenance

variable {V : Type} (verifyGraph : Snapshot → Except String V) (dumps : Json → Bytes)

/-- `export`, whose calls are numbered from one.  What `verify_graph` accepts and the text of the
manifest, as `dumps` writes it, are left open. -/
def exportGraph (client : Client) (manifest : Json) (minContextSlot : ℤ) :
    Except String (Observation V) := do
  require (0 ≤ minContextSlot ∧ minContextSlot < 2 ^ 64) "RPC_MIN_SLOT"
  let addresses ← validateManifest chain manifest
  let expected := manifest.get "expected"
  let genesisHash ← okOr (expected.get "genesis_hash").asStr? "KeyError"
  let genesis ← client 1 .getGenesisHash
  require (genesis.asStr? = some genesisHash) "RPC_GENESIS_MISMATCH"
  let policy ← okOr (addresses.get? "policy") "KeyError"
  let first ← readAccounts client 2 (Dict.ofList [("policy", policy), ("clock", CLOCK)])
    minContextSlot
  let p ← bindIdentity chain first expected
  let periods ← approvalPeriods manifest
  let history ← historyAddresses chain p periods
  let addresses := addresses.update history.entries
  -- No request is spent on a graph that is over the limit already.
  checkAddresses addresses
  let policy ← okOr (addresses.get? "policy") "KeyError"
  let discovery ← readAccounts client 3
    ((Dict.ofList [("policy", policy), ("clock", CLOCK)]).update history.entries) first.slot
  unchanged first discovery ["policy"]
  let keys ← keyAddresses chain discovery history policy
  let addresses := addresses.update keys.entries
  -- Keys count toward the same limit.
  checkAddresses addresses
  let final ← readAccounts client 4 addresses discovery.slot
  unchanged discovery final ("policy" :: history.keys)
  let _ ← bindIdentity chain final expected
  let verification ← verifyGraph final
  let genesis ← client 5 .getGenesisHash
  require (genesis.asStr? = some genesisHash) "RPC_GENESIS_CHANGED"
  pure {
    schema := "K4V-V7-RPC-OBSERVATION-v1"
    snapshot := final
    verification
    provenance := {
      expectedGenesisHash := genesisHash
      manifestSha256 := hexEncode (chain.sha256 (dumps manifest)).bytes
      discoverySlots := [first.slot, discovery.slot]
      contextSlot := final.slot
      requestedCommitment := "finalized"
      finalAccountCount := addresses.length
      singleFinalResponse := true
      discoveryBytesUsedInSnapshot := false
      rpcServerTrustRequired := true
      chainProofVerified := false
      livePublicDeploymentVerified := false
      independentHumanAudit := false } }

end FundingVaults.Verifier
