import FundingVaults.LaunchV7.Layout
import FundingVaults.Lib.Buffer
import FundingVaults.Lib.Text
import Mathlib.Data.List.Sort
import Mathlib.Data.String.Basic

/-!
# The identity of a launch, off line

Transcription of `launch_v7_identity.mjs`: the bytes of a configuration and the identity that is bound
to them.  Every integer is a bigint or a text of decimal digits, every hash and key a text of
lower-case hexadecimal digits.
-/

namespace FundingVaults.Client

open LaunchV7 Buffer

/-! ## Values -/

/-- A value, as far as the codec tells values apart: numbers and the rest are all alike. -/
inductive Value where
  | bigint (n : ℤ)
  | string (s : String)
  | array (elements : List Value)
  | object (members : List (String × Value))
  | other

namespace Value

/-- A member of an object, and `undefined` of anything else. -/
def get : Value → String → Value
  | object members, key => (members.lookup key).getD other
  | _, _ => other

end Value

def fields : List String := ["t0", "founder_amount", "treasury_amount", "founder_period_cap",
  "treasury_period_cap", "shared_hard_cap", "max_report_age"]

def annualFields : List String :=
  ["start_period", "end_period", "founder_basis", "treasury_basis", "shared_cap"]

def keyFields : List String := ["recovery_keys", "founder_recovery_keys", "treasury_recovery_keys"]

/-- `keys.sort().join()`. -/
def joined (keys : List String) : String := ",".intercalate (keys.insertionSort (· ≤ ·))

def exact (value : Value) (keys : List String) : Except String Unit :=
  match value with
  | .object members =>
    require (joined (members.map Prod.fst) = joined keys) "Exact frozen fields required"
  | _ => .error "Exact frozen fields required"

def digit? (c : Char) : Option ℕ :=
  if '0' ≤ c ∧ c ≤ '9' then some (c.toNat - '0'.toNat) else none

def digits? (cs : List Char) : Option ℕ :=
  cs.foldlM (fun n c ↦ (digit? c).map (10 * n + ·)) 0

/-- The number of a text that matches `^-?\d+$`. -/
def decimal? (s : String) : Option ℤ :=
  match s.toList with
  | [] => none
  | ['-'] => none
  | '-' :: cs => (digits? cs).map fun n ↦ -(n : ℤ)
  | cs => (digits? cs).map Nat.cast

def integer (value : Value) : Except String ℤ :=
  match value with
  | .bigint n => .ok n
  | .string s => okOr (decimal? s) "Use bigint or a decimal string, never a JavaScript Number"
  | _ => .error "Use bigint or a decimal string, never a JavaScript Number"

/-- The elements of an array of the right length. -/
def arrayOf (value : Value) (length : ℕ) (message : String) : Except String (List Value) :=
  match value with
  | .array elements => do
    require (elements.length = length) message
    pure elements
  | _ => .error message

/-- The bytes of a text that matches `^[0-9a-f]{64}$`. -/
def hex32 (value : Value) (message : String) : Except String Bytes :=
  match value with
  | .string s => do
    require (s.length = 64 ∧ s.toList.all (hexDigits.contains ·)) message
    okOr (hexDecode? s) message
  | _ => .error message

/-! ## Configurations -/

def ERR_OUT_OF_RANGE : String := "ERR_OUT_OF_RANGE"

def writeBigInt64LE : Bytes → ℤ → ℕ → Except String Bytes :=
  write ERR_OUT_OF_RANGE (-2 ^ 63) (2 ^ 63) 8

def writeBigUInt64LE : Bytes → ℤ → ℕ → Except String Bytes :=
  write ERR_OUT_OF_RANGE 0 (2 ^ 64) 8

def writeUInt16LE : Bytes → ℤ → ℕ → Except String Bytes :=
  write ERR_OUT_OF_RANGE 0 (2 ^ 16) 2

def writeField (config : Value) (bytes : Bytes) (key : String) (i : ℕ) : Except String Bytes := do
  let value ← integer (config.get key)
  if key = "t0" ∨ key = "max_report_age" then writeBigInt64LE bytes value (8 * i)
  else writeBigUInt64LE bytes value (8 * i)

def writeAnnualField (rule : Value) (offset : ℕ) (bytes : Bytes) (key : String) (j : ℕ) :
    Except String Bytes := do
  let value ← integer (rule.get key)
  writeBigUInt64LE bytes value (offset + 8 * j)

def writeRule (bytes : Bytes) (rule : Value) (i : ℕ) : Except String Bytes := do
  exact rule (annualFields ++ ["release_bps", "source_hash"])
  let offset := 56 + 74 * i
  let bytes ← forEach (writeAnnualField rule offset) 0 annualFields bytes
  let rate ← integer (rule.get "release_bps")
  require (0 ≤ rate ∧ rate ≤ 65535) "Rate exceeds u16"
  let bytes ← writeUInt16LE bytes rate (offset + 40)
  let hash ← hex32 (rule.get "source_hash") "Source hash must be exactly 32 lower-case hex bytes"
  pure (put bytes (offset + 42) hash)

def writeKey (j : ℕ) (bytes : Bytes) (key : Value) (i : ℕ) : Except String Bytes := do
  let key ← hex32 key "Recovery key must be 32 hex bytes"
  pure (put bytes (204 + 96 * j + 32 * i) key)

def writeKeys (config : Value) (bytes : Bytes) (field : String) (j : ℕ) : Except String Bytes := do
  let keys ← arrayOf (config.get field) 3 "Exactly three recovery keys required"
  forEach (writeKey j) 0 keys bytes

def encodeConfig (config : Value) : Except String Bytes := do
  exact config (fields ++ "annual_rules" :: keyFields)
  let rules ← arrayOf (config.get "annual_rules") 2
    "This TEST_ONLY profile freezes exactly two annual input epochs"
  let bytes ← forEach (writeField config) 0 fields (alloc 492)
  let bytes ← forEach writeRule 0 rules bytes
  forEach (writeKeys config) 0 keyFields bytes

/-! ## Identities -/

/-- The 51 bytes of the compiled constants. -/
def constants : Except String Bytes := do
  let bytes ← writeBigInt64LE (alloc 51) 15552000 0
  let bytes ← writeBigInt64LE bytes 2592000 8
  let bytes ← writeBigUInt64LE bytes 12 16
  let bytes ← writeUInt16LE bytes 500 24
  let bytes ← writeBigInt64LE bytes 7776000 26
  let bytes ← write ERR_OUT_OF_RANGE 0 (2 ^ 8) 1 bytes 2 34
  let bytes ← writeBigInt64LE bytes 2592000 35
  writeBigInt64LE bytes 300 43

/-- What `boundLaunchIdentity` hashes. -/
def boundLaunchPreimage (program creator mint founder treasury oracle specHash : Bytes)
    (config : Value) : Except String Bytes := do
  let keys := [program, creator, mint, founder, treasury, oracle, specHash]
  require (keys.all (·.length == 32)) "Expected seven 32-byte buffers"
  let constants ← constants
  let config ← encodeConfig config
  pure (ascii "k4v-launch-policy-v7-test-profile-1" ++ keys.flatten ++ constants ++ config)

/-! ## What a value states -/

/-- An object that has the fields and no others, in any order. -/
def HasFields (v : Value) (keys : List String) : Prop :=
  ∃ members, v = .object members ∧ (members.map Prod.fst).Perm keys

/-- A bigint, or a text of its digits. -/
inductive StatesNumber : Value → ℤ → Prop
  | bigint (n : ℤ) : StatesNumber (.bigint n) n
  | text {s : String} {n : ℤ} : decimal? s = some n → StatesNumber (.string s) n

/-- The hexadecimal text of a key or a hash. -/
def hexText (k : Bytes32) : Value := .string (hexEncode k.bytes)

structure StatesRule (v : Value) (r : AnnualRule) : Prop where
  fields : HasFields v (annualFields ++ ["release_bps", "source_hash"])
  startPeriod : StatesNumber (v.get "start_period") r.startPeriod.val
  endPeriod : StatesNumber (v.get "end_period") r.endPeriod.val
  founderBasis : StatesNumber (v.get "founder_basis") r.founderBasis.val
  treasuryBasis : StatesNumber (v.get "treasury_basis") r.treasuryBasis.val
  sharedCap : StatesNumber (v.get "shared_cap") r.sharedCap.val
  releaseBps : StatesNumber (v.get "release_bps") r.releaseBps.val
  sourceHash : v.get "source_hash" = hexText r.sourceHash

/-- A configuration in range: every number is that of a field of its width. -/
structure StatesConfig (v : Value) (c : LaunchConfig) : Prop where
  fields : HasFields v (fields ++ "annual_rules" :: keyFields)
  t0 : StatesNumber (v.get "t0") c.t0.val
  founderAmount : StatesNumber (v.get "founder_amount") c.founderAmount.val
  treasuryAmount : StatesNumber (v.get "treasury_amount") c.treasuryAmount.val
  founderPeriodCap : StatesNumber (v.get "founder_period_cap") c.founderPeriodCap.val
  treasuryPeriodCap : StatesNumber (v.get "treasury_period_cap") c.treasuryPeriodCap.val
  sharedHardCap : StatesNumber (v.get "shared_hard_cap") c.sharedHardCap.val
  maxReportAge : StatesNumber (v.get "max_report_age") c.maxReportAge.val
  annualRules : ∃ rules, v.get "annual_rules" = .array rules ∧
    List.Forall₂ StatesRule rules c.annualRules.toList
  recoveryKeys : v.get "recovery_keys" = .array (c.recoveryKeys.toList.map hexText)
  founderRecoveryKeys :
    v.get "founder_recovery_keys" = .array (c.founderRecoveryKeys.toList.map hexText)
  treasuryRecoveryKeys :
    v.get "treasury_recovery_keys" = .array (c.treasuryRecoveryKeys.toList.map hexText)

variable {v : Value} {keys : List String} {r : AnnualRule} {c : LaunchConfig}

theorem joined_perm {xs ys : List String} (h : xs.Perm ys) : joined xs = joined ys := by
  have hperm : (xs.insertionSort (· ≤ ·)).Perm (ys.insertionSort (· ≤ ·)) :=
    (List.perm_insertionSort _ xs).trans (h.trans (List.perm_insertionSort _ ys).symm)
  rw [joined, joined, hperm.eq_of_pairwise' (List.pairwise_insertionSort _ xs)
    (List.pairwise_insertionSort _ ys)]

theorem HasFields.exact (h : HasFields v keys) : exact v keys = .ok () := by
  obtain ⟨members, rfl, hperm⟩ := h
  rw [Client.exact, require_eq_ok]
  exact joined_perm hperm

theorem StatesNumber.integer {n : ℤ} (h : StatesNumber v n) : integer v = .ok n := by
  cases h with
  | bigint => rfl
  | text h =>
    rw [Client.integer, okOr_eq_ok]
    exact h

theorem hex32_hexText (k : Bytes32) (message : String) :
    hex32 (hexText k) message = .ok k.bytes := by
  have hlength : (hexEncode k.bytes).length = 64 := by rw [hexEncode_length, k.length_eq]
  have hdigits : (hexEncode k.bytes).toList.all (hexDigits.contains ·) := by
    rw [List.all_eq_true]
    intro c hc
    simpa using mem_hexDigits hc
  simp only [hexText, hex32, bind_eq_ok, require_eq_ok, okOr_eq_ok, exists_const]
  exact ⟨⟨hlength, hdigits⟩, hexDecode?_eq_some.mpr rfl⟩

/-! ## Encoding -/

theorem writeBigInt64LE_next {init : Bytes} {k offset : ℕ} (x : I64) (h : init.length = offset) :
    writeBigInt64LE (init ++ alloc (8 + k)) x.val offset = .ok (init ++ I64.toLe x ++ alloc k) :=
  write_next ⟨x.ge, x.lt⟩ rfl h

theorem writeBigUInt64LE_next {init : Bytes} {k offset : ℕ} (x : U64) (h : init.length = offset) :
    writeBigUInt64LE (init ++ alloc (8 + k)) x.val offset = .ok (init ++ U64.toLe x ++ alloc k) := by
  have hrange : (0 : ℤ) ≤ (x.val : ℤ) ∧ (x.val : ℤ) < 2 ^ 64 := by
    have hx := x.isLt
    omega
  rw [writeBigUInt64LE]
  exact write_next hrange (leBytes_u64 x) h

theorem writeUInt16LE_next {init : Bytes} {k offset : ℕ} (x : U16) (h : init.length = offset) :
    writeUInt16LE (init ++ alloc (2 + k)) x.val offset = .ok (init ++ U16.toLe x ++ alloc k) := by
  have hrange : (0 : ℤ) ≤ (x.val : ℤ) ∧ (x.val : ℤ) < 2 ^ 16 := by
    have hx := x.isLt
    omega
  rw [writeUInt16LE]
  exact write_next hrange (leBytes_u16 x) h

theorem fills_writeAnnualField {key : String} {x : U64} {offset : ℕ}
    (h : StatesNumber (v.get key) x.val) :
    Fills (writeAnnualField v offset) offset 8 key (U64.toLe x) := by
  refine ⟨U64.toLe_length x, fun {i k init} hinit ↦ ?_⟩
  rw [writeAnnualField, bind_eq_ok]
  exact ⟨_, h.integer, writeBigUInt64LE_next x hinit⟩

theorem fills_writeField {key : String} {x : U64} (h : StatesNumber (v.get key) x.val)
    (hkey : ¬ (key = "t0" ∨ key = "max_report_age")) :
    Fills (writeField v) 0 8 key (U64.toLe x) := by
  refine ⟨U64.toLe_length x, fun {i k init} hinit ↦ ?_⟩
  rw [writeField, bind_eq_ok]
  refine ⟨_, h.integer, ?_⟩
  rw [if_neg hkey]
  exact writeBigUInt64LE_next x (hinit.trans (Nat.zero_add _))

theorem fills_writeField_signed {key : String} {x : I64} (h : StatesNumber (v.get key) x.val)
    (hkey : key = "t0" ∨ key = "max_report_age") :
    Fills (writeField v) 0 8 key (I64.toLe x) := by
  refine ⟨I64.toLe_length x, fun {i k init} hinit ↦ ?_⟩
  rw [writeField, bind_eq_ok]
  refine ⟨_, h.integer, ?_⟩
  rw [if_pos hkey]
  exact writeBigInt64LE_next x (hinit.trans (Nat.zero_add _))

/-- A rule fills its 74 bytes. -/
theorem fills_writeRule (h : StatesRule v r) : Fills writeRule 56 74 v r.serialize := by
  refine ⟨r.serialize_length, fun {i k init} hinit ↦ ?_⟩
  have hfields : List.Forall₂ (Fills (writeAnnualField v (56 + 74 * i)) (56 + 74 * i) 8) annualFields
      [U64.toLe r.startPeriod, U64.toLe r.endPeriod, U64.toLe r.founderBasis,
        U64.toLe r.treasuryBasis, U64.toLe r.sharedCap] :=
    .cons (fills_writeAnnualField h.startPeriod) <| .cons (fills_writeAnnualField h.endPeriod) <|
      .cons (fills_writeAnnualField h.founderBasis) <|
      .cons (fills_writeAnnualField h.treasuryBasis) <|
      .cons (fills_writeAnnualField h.sharedCap) .nil
  have hroom : 74 + k = 8 * annualFields.length + (2 + (32 + k)) := by
    show 74 + k = 8 * 5 + (2 + (32 + k))
    omega
  have hnumbers := forEach_next (k := 2 + (32 + k)) (i := 0) hfields hinit
  have hlength := length_flatten hfields
  generalize hdef : List.flatten _ = numbers at hnumbers hlength
  have hrated : (init ++ numbers).length = 56 + 74 * i + 40 := by
    rw [List.length_append, hinit, hlength]
    rfl
  have hrate := writeUInt16LE_next (k := 32 + k) r.releaseBps hrated
  have hhashed : (init ++ numbers ++ U16.toLe r.releaseBps).length = 56 + 74 * i + 42 := by
    rw [List.length_append, hrated, U16.toLe_length]
  have hhash : put (init ++ numbers ++ U16.toLe r.releaseBps ++ alloc (32 + k)) (56 + 74 * i + 42)
      r.sourceHash.bytes =
        init ++ numbers ++ U16.toLe r.releaseBps ++ r.sourceHash.bytes ++ alloc k := by
    rw [← r.sourceHash.length_eq]
    exact put_next hhashed
  have hrange : (0 : ℤ) ≤ (r.releaseBps.val : ℤ) ∧ (r.releaseBps.val : ℤ) ≤ 65535 := by
    have hlt := r.releaseBps.isLt
    omega
  simp only [writeRule, bind_eq_ok, require_eq_ok, pure_eq_ok, exists_const]
  rw [hroom]
  refine ⟨(), h.fields.exact, _, hnumbers, _, h.releaseBps.integer, hrange, _, hrate, _,
    h.sourceHash ▸ hex32_hexText _ _, hhash.trans ?_⟩
  rw [AnnualRule.serialize, ← hdef]
  simp only [List.flatten_cons, List.flatten_nil, List.append_nil, List.append_assoc]

/-- The three keys of a group fill its 96 bytes. -/
theorem fills_writeKeys {keys : Vector Pubkey 3} {field : String}
    (h : v.get field = .array (keys.toList.map hexText)) :
    Fills (writeKeys v) 204 96 field (serializeKeys keys) := by
  refine ⟨serializeKeys_length keys, fun {j k init} hinit ↦ ?_⟩
  have hkeys : List.Forall₂ (Fills (writeKey j) (204 + 96 * j) 32) (keys.toList.map hexText)
      (keys.toList.map Bytes32.bytes) := by
    rw [List.forall₂_map_left_iff, List.forall₂_map_right_iff, List.forall₂_same]
    intro key _
    refine ⟨key.length_eq, fun {i k init} hinit ↦ ?_⟩
    simp only [writeKey, bind_eq_ok, pure_eq_ok]
    refine ⟨_, hex32_hexText _ _, ?_⟩
    rw [← key.length_eq] at hinit ⊢
    exact put_next hinit
  have hcount : (keys.toList.map hexText).length = 3 := by
    rw [List.length_map, Vector.length_toList]
  have hwritten := forEach_next (k := k) (i := 0) hkeys hinit
  rw [hcount] at hwritten
  simp only [writeKeys, arrayOf, h, bind_eq_ok, require_eq_ok, pure_eq_ok, exists_const]
  refine ⟨_, ⟨hcount, rfl⟩, ?_⟩
  rw [serializeKeys, List.flatMap]
  exact hwritten

/-- The configuration that a value states is encoded as the program serializes it. -/
theorem encodeConfig_of (h : StatesConfig v c) : encodeConfig v = .ok c.serialize := by
  obtain ⟨rules, hrules, hstates⟩ := h.annualRules
  have hfields : List.Forall₂ (Fills (writeField v) 0 8) fields
      [I64.toLe c.t0, U64.toLe c.founderAmount, U64.toLe c.treasuryAmount,
        U64.toLe c.founderPeriodCap, U64.toLe c.treasuryPeriodCap, U64.toLe c.sharedHardCap,
        I64.toLe c.maxReportAge] :=
    .cons (fills_writeField_signed h.t0 (.inl rfl)) <|
      .cons (fills_writeField h.founderAmount (by decide)) <|
      .cons (fills_writeField h.treasuryAmount (by decide)) <|
      .cons (fills_writeField h.founderPeriodCap (by decide)) <|
      .cons (fills_writeField h.treasuryPeriodCap (by decide)) <|
      .cons (fills_writeField h.sharedHardCap (by decide)) <|
      .cons (fills_writeField_signed h.maxReportAge (.inr rfl)) .nil
  have hkeys : List.Forall₂ (Fills (writeKeys v) 204 96) keyFields
      [serializeKeys c.recoveryKeys, serializeKeys c.founderRecoveryKeys,
        serializeKeys c.treasuryRecoveryKeys] :=
    .cons (fills_writeKeys h.recoveryKeys) <| .cons (fills_writeKeys h.founderRecoveryKeys) <|
      .cons (fills_writeKeys h.treasuryRecoveryKeys) .nil
  have hfilled : List.Forall₂ (Fills writeRule 56 74) rules
      (c.annualRules.toList.map AnnualRule.serialize) := by
    rw [List.forall₂_map_right_iff]
    exact hstates.imp fun _ _ ↦ fills_writeRule
  have hcount : rules.length = 2 := hstates.length_eq.trans (Vector.length_toList ..)
  have hinit : ([] : Bytes).length = 0 + 8 * 0 := rfl
  have hcounts : fields.length = 7 ∧ keyFields.length = 3 := ⟨rfl, rfl⟩
  have hnumbers := forEach_next (k := 436) hfields hinit
  have hnumbersLength := length_flatten hfields
  generalize hnumbersDef : List.flatten _ = numbers at hnumbers hnumbersLength
  have hruled : forEach writeRule 0 rules (numbers ++ alloc (74 * rules.length + 288)) =
      .ok (numbers ++ _ ++ alloc 288) := forEach_next hfilled hnumbersLength
  have hruledLength := length_flatten hfilled
  rw [hcount] at hruled hruledLength
  rw [hcounts.1] at hnumbers hnumbersLength
  generalize hruledDef : List.flatten _ = ruled at hruled hruledLength
  have hlength : (numbers ++ ruled).length = 204 + 96 * 0 := by
    rw [List.length_append, hnumbersLength, hruledLength]
  have hkeyed := forEach_next (k := 0) hkeys hlength
  rw [hcounts.2] at hkeyed
  simp only [encodeConfig, arrayOf, hrules, bind_eq_ok, require_eq_ok, pure_eq_ok, exists_const]
  refine ⟨(), h.fields.exact, _, ⟨hcount, rfl⟩, _, hnumbers, _, hruled, hkeyed.trans ?_⟩
  rw [LaunchConfig.serialize, List.flatMap, ← hnumbersDef, ← hruledDef]
  simp only [List.flatten_cons, List.flatten_nil, List.append_nil, List.append_assoc, alloc,
    List.replicate_zero]

/-! ## The values of a configuration -/

def ruleValue (r : AnnualRule) : Value := .object [
  ("start_period", .bigint r.startPeriod.val), ("end_period", .bigint r.endPeriod.val),
  ("founder_basis", .bigint r.founderBasis.val), ("treasury_basis", .bigint r.treasuryBasis.val),
  ("shared_cap", .bigint r.sharedCap.val), ("release_bps", .bigint r.releaseBps.val),
  ("source_hash", hexText r.sourceHash)]

def configValue (c : LaunchConfig) : Value := .object [
  ("t0", .bigint c.t0.val), ("founder_amount", .bigint c.founderAmount.val),
  ("treasury_amount", .bigint c.treasuryAmount.val),
  ("founder_period_cap", .bigint c.founderPeriodCap.val),
  ("treasury_period_cap", .bigint c.treasuryPeriodCap.val),
  ("shared_hard_cap", .bigint c.sharedHardCap.val),
  ("max_report_age", .bigint c.maxReportAge.val),
  ("annual_rules", .array (c.annualRules.toList.map ruleValue)),
  ("recovery_keys", .array (c.recoveryKeys.toList.map hexText)),
  ("founder_recovery_keys", .array (c.founderRecoveryKeys.toList.map hexText)),
  ("treasury_recovery_keys", .array (c.treasuryRecoveryKeys.toList.map hexText))]

theorem statesRule_ruleValue (r : AnnualRule) : StatesRule (ruleValue r) r where
  fields := ⟨_, rfl, .refl _⟩
  startPeriod := .bigint _
  endPeriod := .bigint _
  founderBasis := .bigint _
  treasuryBasis := .bigint _
  sharedCap := .bigint _
  releaseBps := .bigint _
  sourceHash := rfl

/-- Every configuration is stated. -/
theorem statesConfig_configValue (c : LaunchConfig) : StatesConfig (configValue c) c where
  fields := ⟨_, rfl, .refl _⟩
  t0 := .bigint _
  founderAmount := .bigint _
  treasuryAmount := .bigint _
  founderPeriodCap := .bigint _
  treasuryPeriodCap := .bigint _
  sharedHardCap := .bigint _
  maxReportAge := .bigint _
  annualRules := by
    refine ⟨_, rfl, ?_⟩
    rw [List.forall₂_map_left_iff, List.forall₂_same]
    intro r _
    exact statesRule_ruleValue r
  recoveryKeys := rfl
  founderRecoveryKeys := rfl
  treasuryRecoveryKeys := rfl

/-! ## Preimages -/

theorem constants_eq :
    constants = .ok (I64.toLe CLIFF ++ I64.toLe PERIOD ++ U64.toLe RATE_DIVISOR ++
    U16.toLe MAX_RELEASE_BPS ++ I64.toLe CHANGE_NOTICE ++ [2] ++ I64.toLe WITHDRAWAL_EXECUTION_WINDOW ++
    I64.toLe MAX_SUBMISSION_WINDOW) := by
  rfl

/-- The identity that the client binds is the hash of what the program hashes. -/
theorem boundLaunchPreimage_of (creator mint founder treasury oracle : Pubkey) (specHash : Bytes32)
    (h : StatesConfig v c) :
    boundLaunchPreimage ID.bytes creator.bytes mint.bytes founder.bytes treasury.bytes oracle.bytes
      specHash.bytes v = .ok (preimage creator mint founder treasury oracle specHash c) := by
  have hwidths : [ID.bytes, creator.bytes, mint.bytes, founder.bytes, treasury.bytes, oracle.bytes,
      specHash.bytes].all (·.length == 32) := by
    simp [Bytes32.length_eq]
  simp only [boundLaunchPreimage, bind_eq_ok, require_eq_ok, pure_eq_ok, exists_const]
  refine ⟨hwidths, _, constants_eq, _, encodeConfig_of h, ?_⟩
  rw [preimage]
  simp only [List.flatten_cons, List.flatten_nil, List.append_nil, List.append_assoc]

end FundingVaults.Client
