import FundingVaults.Lib.Numeral
import FundingVaults.Verifier.Exporter

/-!
# The journal of soak observations

Transcription of the replay of `soak_journal.py`.  A journal is what the lines of its file parse to.
What lies around it is a `Host`: the platform, the hash of the canonical text of a value, the
directory of objects, and the verdicts of `verify_graph` and of the check of the running sources.

Times in seconds are exact here, where the source divides in floating point.
-/

namespace FundingVaults.Soak

open Verifier

/-! ## Runs -/

structure Host where
  chain : Chain
  codeSha256 : String
  runtimeUnchanged : Json → Bool
  digest : Json → String
  /-- What the file of an object holds. -/
  object : String → Option Json
  /-- Whether a graph is valid. -/
  verifyGraph : Snapshot → Except String Bool

def ZERO : String := String.ofList (List.replicate 64 '0')
def ORIGINS : List String := ["signed-bootstrap-declared", "preloaded-fixture", "unknown"]
def RUN_SCHEMA : String := "K4V-SOAK-RUN-v1"
def EVENT_SCHEMA : String := "K4V-SOAK-EVENT-v1"

structure Run where
  hash : String
  initialManifest : Json
  maxGapSeconds : ℤ
  toleranceSeconds : ℤ

/-- What happened that a soak should not see. -/
inductive Anomaly where
  | SLOT_NOT_ADVANCING
  | BANK_TIME_ROLLBACK
  | OBSERVATION_GAP
  | BANK_WALL_TIME_DIVERGENCE
  | HOST_WALL_TIME_ROLLBACK
  | HOST_BOOT_CHANGED
  | HOST_CLOCK_DISCONTINUITY
deriving DecidableEq, Repr

structure Sample where
  slot : ℤ
  bankTime : ℤ
  wallNs : ℤ
deriving DecidableEq, Repr

/-- The clocks of the host at an event. -/
structure Stamp where
  wallNs : ℤ
  monotonicNs : ℤ
  bootId : String

structure Journal where
  run : Run
  head : String := ZERO
  count : ℕ := 0
  samples : ℕ := 0
  errors : ℕ := 0
  sessions : ℕ := 0
  unclosedSessions : ℕ := 0
  anomalies : List Anomaly := []
  activeSession : Option String := none
  seenSessions : List String := []
  lastEvent : Option Stamp := none
  lastSample : Option Sample := none
  lastPolicy : Option PolicyView := none
  firstSample : Option Sample := none
  lastManifest : Json
  maxObservedGapSeconds : ℚ := 0

variable (host : Host)

/-- The checks of a run before its journal is read. -/
def openRun (run : Json) : Except String Journal := do
  require ((run.get "schema").asStr? = some RUN_SCHEMA) "JOURNAL_SCHEMA"
  require ((run.get "program_sha256").asStr? = some host.codeSha256) "JOURNAL_PROGRAM_CHANGED"
  require (host.runtimeUnchanged (run.get "runtime_sha256")) "JOURNAL_RUNTIME_CHANGED"
  let initialManifest := run.get "initial_manifest"
  let _ ← validateManifest host.chain initialManifest
  let origin ← okOr (run.get "declared_origin").asStr? "JOURNAL_ORIGIN"
  require (ORIGINS.contains origin) "JOURNAL_ORIGIN"
  let maxGapSeconds ← okOr (run.get "max_gap_seconds").asInt? "JOURNAL_TIME_POLICY"
  let toleranceSeconds ← okOr (run.get "tolerance_seconds").asInt? "JOURNAL_TIME_POLICY"
  require (1 ≤ maxGapSeconds ∧ 0 ≤ toleranceSeconds) "JOURNAL_TIME_POLICY"
  pure {
    run := { hash := host.digest run, initialManifest, maxGapSeconds, toleranceSeconds }
    lastManifest := initialManifest }

/-! ## Payloads -/

def isDigest (key : String) : Bool :=
  key.length == 64 && key.toList.all (hexDigits.contains ·)

def getObject (key : Json) : Except String Json := do
  let key ← okOr key.asStr? "JOURNAL_OBJECT_KEY"
  require (isDigest key) "JOURNAL_OBJECT_KEY"
  let value ← okOr (host.object key) "FileNotFoundError"
  require (host.digest value = key) "JOURNAL_OBJECT_CHANGED"
  pure value

/-- Nothing of an earlier manifest may change or be removed. -/
def checkManifest (j : Journal) (manifest : Json) : Except String (Dict String String) := do
  let addresses ← validateManifest host.chain manifest
  let expected (m : Json) (key : String) := ((m.get "expected").get key).asStr?
  require ((EXPECTED_KEYS ++ EXPECTED_HASHES).all fun key ↦
    expected manifest key == expected j.run.initialManifest key) "JOURNAL_IDENTITY_CHANGED"
  let old ← externalAccounts j.lastManifest
  require (old.all fun e ↦ ((manifest.get "external_accounts").get e.1).asStr? == some e.2)
    "JOURNAL_EXTERNAL_HISTORY_REMOVED"
  let oldPeriods ← approvalPeriods j.lastManifest
  let periods ← approvalPeriods manifest
  require (oldPeriods.all periods.contains) "JOURNAL_APPROVAL_HISTORY_REMOVED"
  pure addresses

/-- An account as a snapshot holds it.  Its balance is not read. -/
def accountView (value : Json) : Except String AccountView := do
  let address ← okOr (value.get "address").asStr? "TypeError"
  let owner ← okOr (value.get "owner").asStr? "TypeError"
  let executable ← okOr (value.get "executable").asBool? "TypeError"
  let dataHex ← okOr (value.get "data_hex").asStr? "TypeError"
  pure { address, owner, executable, lamports := ((value.get "lamports").asInt?).getD 0, dataHex }

/-- The snapshot of a payload, whose accounts are stored apart. -/
def unpackSnapshot (packed : Json) : Except String Snapshot := do
  let members ← okOr (packed.get "accounts").asObj? "JOURNAL_ACCOUNT_COUNT"
  require (1 ≤ members.length ∧ members.length ≤ 100) "JOURNAL_ACCOUNT_COUNT"
  let accounts ← members.mapM fun m ↦ do
    let value ← getObject host m.2
    let view ← accountView value
    pure (m.1, view)
  let schema ← okOr (packed.get "schema").asStr? "SCHEMA_OR_PROGRAM"
  let programId ← okOr (packed.get "program_id").asStr? "SCHEMA_OR_PROGRAM"
  let scope ← okOr (packed.get "scope").asStr? "SCOPE"
  let privateKeysSerialized ← okOr (packed.get "private_keys_serialized").asBool? "SCOPE"
  let slot ← okOr ((packed.get "slot").asStr?.bind Numeral.int?) "CLOCK_CONTEXT"
  let now ← okOr ((packed.get "now").asStr?.bind Numeral.int?) "CLOCK_TYPE"
  pure { schema, programId, scope, privateKeysSerialized, slot, now, accounts := Dict.ofList accounts }

/-- `unpack`. -/
def unpack (j : Journal) (payload : Json) : Except String (Json × Snapshot) := do
  let manifest ← getObject host (payload.get "manifest")
  let addresses ← checkManifest host j manifest
  let packed := payload.get "snapshot"
  let snapshot ← unpackSnapshot host packed
  let policy ← bindIdentity host.chain snapshot (manifest.get "expected")
  let periods ← approvalPeriods manifest
  let history ← historyAddresses host.chain policy periods
  let keys ← keyAddresses host.chain snapshot history policy.address
  let addresses := (addresses.update history.entries).update keys.entries
  let shown := snapshot.accounts.entries.map fun e ↦ (e.1, e.2.address)
  require (shown.all addresses.entries.contains ∧ addresses.entries.all shown.contains)
    "JOURNAL_COMPLETE_ACCOUNT_GRAPH"
  let valid ← host.verifyGraph snapshot
  require (valid = true) "JOURNAL_RAW_GRAPH"
  let provenance := payload.get "provenance"
  let text (key : String) := (provenance.get key).asStr?
  require (text "expected_genesis_hash" = ((manifest.get "expected").get "genesis_hash").asStr? ∧
    text "manifest_sha256" = some (host.digest manifest) ∧
    text "context_slot" = (packed.get "slot").asStr? ∧
    (provenance.get "final_account_count").asInt? = some (snapshot.accounts.length : ℤ) ∧
    text "requested_commitment" = some "finalized" ∧
    (provenance.get "single_final_response").asBool? = some true ∧
    (provenance.get "discovery_bytes_used_in_snapshot").asBool? = some false) "JOURNAL_PROVENANCE"
  pure (manifest, snapshot)

/-! ## Events -/

/-- Note an anomaly where there is one. -/
def note (happened : Prop) [Decidable happened] (a : Anomaly) (noted : List Anomaly) :
    List Anomaly := if happened then noted.insert a else noted

def seconds (ns : ℤ) : ℚ := ns / 1000000000

/-- What two samples in a row show. -/
def sampleAnomalies (run : Run) (last current : Sample) (noted : List Anomaly) : List Anomaly :=
  let wallDelta := seconds (current.wallNs - last.wallNs)
  let bankDelta := current.bankTime - last.bankTime
  note (|(bankDelta : ℚ) - wallDelta| > run.toleranceSeconds) .BANK_WALL_TIME_DIVERGENCE <|
    note (wallDelta > run.maxGapSeconds) .OBSERVATION_GAP <|
    note (bankDelta < 0) .BANK_TIME_ROLLBACK <|
    note (current.slot ≤ last.slot) .SLOT_NOT_ADVANCING noted

/-- What two events in a row show about the host. -/
def hostAnomalies (run : Run) (old current : Stamp) (noted : List Anomaly) : List Anomaly :=
  let wall := seconds (current.wallNs - old.wallNs)
  let mono := seconds (current.monotonicNs - old.monotonicNs)
  let noted := note (wall < 0) .HOST_WALL_TIME_ROLLBACK noted
  if current.bootId ≠ old.bootId then noted.insert .HOST_BOOT_CHANGED
  else note (mono < 0 ∨ |mono - wall| > run.toleranceSeconds) .HOST_CLOCK_DISCONTINUITY noted

/-- The part of `accept` about a sample. -/
def acceptSample (j : Journal) (wallNs : ℤ) (payload : Json) : Except String Journal := do
  let members ← okOr payload.asObj? "JOURNAL_SAMPLE_FIELDS"
  require (keysAre members ["manifest", "snapshot", "provenance"]) "JOURNAL_SAMPLE_FIELDS"
  let (manifest, snapshot) ← unpack host j payload
  let policy ← snapshot.readPolicy host.chain
  let current : Sample := { slot := snapshot.slot, bankTime := snapshot.now, wallNs }
  let j ← match j.lastSample with
    | none => pure j
    | some last => do
      let lastPolicy ← okOr j.lastPolicy "TypeError"
      require (policy.config = lastPolicy.config) "JOURNAL_CONFIG_CHANGED"
      require (lastPolicy.founderReleasedTotal ≤ policy.founderReleasedTotal ∧
        lastPolicy.treasuryReleasedTotal ≤ policy.treasuryReleasedTotal ∧
        lastPolicy.approvalCount ≤ policy.approvalCount ∧
        lastPolicy.changeSequence ≤ policy.changeSequence) "JOURNAL_COUNTER_ROLLBACK"
      pure { j with
        maxObservedGapSeconds :=
          max j.maxObservedGapSeconds (seconds (current.wallNs - last.wallNs))
        anomalies := sampleAnomalies j.run last current j.anomalies }
  pure { j with
    firstSample := some (j.firstSample.getD current)
    lastSample := some current
    lastPolicy := some policy
    lastManifest := manifest
    samples := j.samples + 1 }

def isReason (reason : String) : Bool :=
  1 ≤ reason.length && reason.length ≤ 100 &&
    reason.toList.all fun c ↦ c.isUpper || c.isDigit || c == '_'

/-- `payload == {}`. -/
def isEmpty : Json → Bool
  | .obj [] => true
  | _ => false

/-- The part of `accept` about the kind of an event. -/
def acceptKind (j : Journal) (kind session : String) (wallNs : ℤ) (payload : Json) :
    Except String Journal :=
  if kind = "START" then do
    require (isEmpty payload ∧ !j.seenSessions.contains session) "JOURNAL_SESSION_REPLAY"
    pure { j with
      seenSessions := session :: j.seenSessions
      unclosedSessions := j.unclosedSessions + if j.activeSession.isSome then 1 else 0
      activeSession := some session
      sessions := j.sessions + 1 }
  else do
    require (some session = j.activeSession) "JOURNAL_SESSION_ORDER"
    if kind = "SAMPLE" then acceptSample host j wallNs payload
    else if kind = "ERROR" then do
      let members ← okOr payload.asObj? "JOURNAL_ERROR_FIELDS"
      let reason ← okOr (payload.get "reason").asStr? "JOURNAL_ERROR_FIELDS"
      require (keysAre members ["reason"] ∧ isReason reason) "JOURNAL_ERROR_FIELDS"
      pure { j with errors := j.errors + 1 }
    else if kind = "STOP" then do
      require (isEmpty payload) "JOURNAL_STOP_FIELDS"
      pure { j with activeSession := none }
    else throw "JOURNAL_EVENT_KIND"

def RECORD_FIELDS : List String := ["schema", "sequence", "previous", "run_sha256", "kind",
  "session", "wall_ns", "monotonic_ns", "boot_id", "payload", "sha256"]

def isSessionId (id : String) : Bool :=
  1 ≤ id.length && id.length ≤ 80 && id.toList.all fun c ↦ c.isAlphanum || c == '-'

/-- What the hash of a record is of. -/
def body (members : List (String × Json)) : Json := .obj (members.filter fun m ↦ m.1 ≠ "sha256")

def accept (j : Journal) (record : Json) : Except String Journal := do
  let members ← okOr record.asObj? "JOURNAL_RECORD_FIELDS"
  require (keysAre members RECORD_FIELDS) "JOURNAL_RECORD_FIELDS"
  let text (key : String) := (record.get key).asStr?
  require (text "schema" = some EVENT_SCHEMA ∧ text "run_sha256" = some j.run.hash)
    "JOURNAL_RUN_BINDING"
  let head := host.digest (body members)
  require (text "sha256" = some head ∧ text "previous" = some j.head ∧
    (record.get "sequence").asInt? = some (j.count : ℤ)) "JOURNAL_CHAIN"
  let wallNs ← okOr (record.get "wall_ns").asInt? "JOURNAL_TIMESTAMP"
  let monotonicNs ← okOr (record.get "monotonic_ns").asInt? "JOURNAL_TIMESTAMP"
  require (0 < wallNs ∧ 0 < monotonicNs) "JOURNAL_TIMESTAMP"
  let session ← okOr (text "session") "JOURNAL_SESSION_ID"
  let bootId ← okOr (text "boot_id") "JOURNAL_SESSION_ID"
  require (isSessionId session ∧ isSessionId bootId) "JOURNAL_SESSION_ID"
  let kind ← okOr (text "kind") "JOURNAL_EVENT_KIND"
  let stamp : Stamp := { wallNs, monotonicNs, bootId }
  let j ← acceptKind host j kind session wallNs (record.get "payload")
  let anomalies := match j.lastEvent with
    | none => j.anomalies
    | some old => hostAnomalies j.run old stamp j.anomalies
  pure { j with anomalies, lastEvent := some stamp, head, count := j.count + 1 }

/-- A journal from its run and its lines. -/
def replay (run : Json) (lines : List Json) : Except String Journal := do
  let j ← openRun host run
  lines.foldlM (accept host) j

end FundingVaults.Soak
