import FundingVaults.Beneficiary.Program
import FundingVaults.Lib.Reader
import FundingVaults.Verifier.Address

/-!
# The exporter of beneficiary vaults

The bytes of the accounts that `beneficiary_vault_rpc_exporter.py` reads, and a transcription of
its readers and of the snapshot that it makes of them.  The client that fetches an account is a
parameter.
-/

namespace FundingVaults.Beneficiary

open Verifier

/-! ## The bytes of accounts -/

def BeneficiaryVault.serialize (v : BeneficiaryVault) : Bytes :=
  v.depositor.bytes ++ v.beneficiary.bytes ++ v.mint.bytes ++ v.policyHash.bytes ++
    U64.toLe v.depositedAmount ++ U64.toLe v.monthlyCap ++ U64.toLe v.releasedTotal ++
    U64.toLe v.releasedThisPeriod ++ v.genesisTs.toLe ++ v.cliffEndTs.toLe ++
    U64.toLe v.currentPeriodIndex ++ U16.toLe v.annualReleaseBps ++ U8.toLe v.mintDecimals ++
    U8.toLe v.stateBump ++ U8.toLe v.tokenVaultBump

/-- The tag of an option of the token program. -/
def optionTag (o : Option Bytes) : Bytes := leBytes 4 (if o.isSome then 1 else 0)

/-- The body of an option of the token program, which `None` leaves as it was. -/
def optionBody (o : Option Bytes) (stale : Bytes) : Bytes := o.getD stale

def stateByte : TokenState → UInt8
  | .uninitialized => 0
  | .initialized => 1
  | .frozen => 2

/-- The fields of a token account in the order of their bytes. -/
def tokenPieces (a : TokenAccount) (delegate native close : Bytes) : List Bytes := [
  a.mint.bytes,
  a.owner.bytes,
  leBytes 8 a.amount,
  optionTag (a.delegate.map Bytes32.bytes),
  optionBody (a.delegate.map Bytes32.bytes) delegate,
  [stateByte a.state],
  optionTag (a.isNative.map U64.toLe),
  optionBody (a.isNative.map U64.toLe) native,
  leBytes 8 a.delegatedAmount,
  optionTag (a.closeAuthority.map Bytes32.bytes),
  optionBody (a.closeAuthority.map Bytes32.bytes) close]

/-- The data of a token account. -/
def PackedToken (a : TokenAccount) (data : Bytes) : Prop :=
  a.amount < 2 ^ 64 ∧ a.delegatedAmount < 2 ^ 64 ∧ ∃ delegate native close : Bytes,
    delegate.length = 32 ∧ native.length = 8 ∧ close.length = 32 ∧
      data = (tokenPieces a delegate native close).flatten

/-! ## Snapshots -/

def SNAPSHOT_SCHEMA : String := "beneficiary-vault-snapshot/v0.1"
def TOKEN_PROGRAM_ID : String := "TokenkegQfeZyiNwAJbNbGKPFXCWuBvf9Ss623VQ5DA"
def CLOCK_SYSVAR_ID : String := "SysvarC1ock11111111111111111111111111111111"
def SYSVAR_PROGRAM_ID : String := "Sysvar1111111111111111111111111111111111111"
def STATE_ACCOUNT_DATA_LEN : ℕ := 197
def TOKEN_ACCOUNT_DATA_LEN : ℕ := 165
def CLOCK_ACCOUNT_DATA_LEN : ℕ := 40

structure RawAccount where
  owner : String
  data : Bytes
  executable : Bool
  lamports : ℕ

structure VaultView where
  depositor : String
  beneficiary : String
  mint : String
  policyHash : String
  depositedAmount : ℤ
  monthlyCap : ℤ
  releasedTotal : ℤ
  releasedThisPeriod : ℤ
  genesisTs : ℤ
  cliffEndTs : ℤ
  currentPeriodIndex : ℤ
  annualReleaseBps : ℤ
  mintDecimals : ℤ
  stateBump : ℤ
  tokenVaultBump : ℤ
deriving DecidableEq

structure TokenView where
  mint : String
  authority : String
  amount : ℤ
  delegate : Option String
  state : String
  isNative : Bool
  delegatedAmount : ℤ
  closeAuthority : Option String
deriving DecidableEq

structure Snapshot where
  schema : String
  programId : String
  vaultState : String
  vaultTokenAccount : String
  observedAtTs : ℤ
  state : VaultView
  tokenAccount : TokenView
deriving DecidableEq

/-! ## Readers -/

def canonicalPubkey (value name : String) : Except String (String × Bytes) := do
  let decoded ← okOr (pubkey value).toOption (name ++ " is not a valid Solana public key")
  let canonical := base58Encode decoded
  require (canonical = value) (name ++ " is not canonically encoded")
  pure (canonical, decoded)

def requireProgramData (account : RawAccount) (owner : String) (length : ℕ) (name : String) :
    Except String Bytes := do
  require (account.owner = owner) (name ++ " owner mismatch")
  require (account.executable = false) (name ++ " must not be executable")
  require (account.data.length = length) (name ++ " data length mismatch")
  pure account.data

def pubkeyAt (data : Bytes) (offset : ℕ) : String := base58Encode (slice data offset 32)

/-- The fields behind the discriminator, each where the last one ends. -/
def vaultFields : Reader String VaultView := do
  let short := "unpack_from requires a larger buffer"
  let depositor ← Reader.take short 32
  let beneficiary ← Reader.take short 32
  let mint ← Reader.take short 32
  let policyHash ← Reader.take short 32
  let depositedAmount ← Reader.number short .Q
  let monthlyCap ← Reader.number short .Q
  let releasedTotal ← Reader.number short .Q
  let releasedThisPeriod ← Reader.number short .Q
  let genesisTs ← Reader.number short .q
  let cliffEndTs ← Reader.number short .q
  let currentPeriodIndex ← Reader.number short .Q
  let annualReleaseBps ← Reader.number short .H
  let mintDecimals ← Reader.number short .B
  let stateBump ← Reader.number short .B
  let tokenVaultBump ← Reader.number short .B
  pure {
    depositor := base58Encode depositor
    beneficiary := base58Encode beneficiary
    mint := base58Encode mint
    policyHash := hexEncode policyHash
    depositedAmount, monthlyCap, releasedTotal, releasedThisPeriod, genesisTs, cliffEndTs
    currentPeriodIndex, annualReleaseBps, mintDecimals, stateBump, tokenVaultBump }

def coptionPubkey (data : Bytes) (offset : ℕ) (name : String) : Except String (Option String) :=
  let option := leNat (slice data offset 4)
  if option = 0 then .ok none
  else if option = 1 then .ok (some (pubkeyAt data (offset + 4)))
  else .error ("token account " ++ name ++ " option was malformed")

def decodeTokenAccount (data : Bytes) : Except String TokenView := do
  require (data.length = TOKEN_ACCOUNT_DATA_LEN) "vault token account data length mismatch"
  let accountState := leNat (slice data 108 1)
  require (accountState = 1 ∨ accountState = 2) "vault token account was not initialized"
  let isNativeOption := leNat (slice data 109 4)
  require (isNativeOption = 0 ∨ isNativeOption = 1) "token account native option was malformed"
  let delegate ← coptionPubkey data 72 "delegate"
  let closeAuthority ← coptionPubkey data 129 "close authority"
  pure {
    mint := pubkeyAt data 0
    authority := pubkeyAt data 32
    amount := Format.Q.unpack (slice data 64 8)
    delegate
    state := if accountState = 1 then "initialized" else "frozen"
    isNative := isNativeOption = 1
    delegatedAmount := Format.Q.unpack (slice data 121 8)
    closeAuthority }

def decodeClockTimestamp (data : Bytes) : Except String ℤ := do
  require (data.length = CLOCK_ACCOUNT_DATA_LEN) "clock sysvar data length mismatch"
  pure (Format.q.unpack (slice data 32 8))

section Export

variable (sha256 : Bytes → Bytes32)

def STATE_DISCRIMINATOR : Bytes := (sha256 (ascii "account:BeneficiaryVault")).bytes.take 8

def decodeVaultState (data : Bytes) : Except String VaultView := do
  require (data.length = STATE_ACCOUNT_DATA_LEN) "vault state data length mismatch"
  require (data.take 8 = STATE_DISCRIMINATOR sha256) "vault state discriminator mismatch"
  vaultFields.all (data.drop 8)

def exportSnapshot (getAccountInfo : String → Except String RawAccount)
    (programId vaultStateAddress : String) : Except String Snapshot := do
  let (canonicalProgram, programBytes) ← canonicalPubkey programId "program id"
  let (canonicalState, stateAddressBytes) ← canonicalPubkey vaultStateAddress "vault state"
  let stateAccount ← getAccountInfo canonicalState
  let stateData ← requireProgramData stateAccount canonicalProgram STATE_ACCOUNT_DATA_LEN
    "vault state"
  let state ← decodeVaultState sha256 stateData
  let beneficiary ← pubkey state.beneficiary
  let mint ← pubkey state.mint
  let policyHash ← okOr (fromHex? state.policyHash.toList) "non-hexadecimal number found"
  let (expectedState, stateBump) ←
    findProgramAddress sha256 [STATE_SEED, beneficiary, mint, policyHash] programBytes
  require (¬ (expectedState ≠ stateAddressBytes ∨ state.stateBump ≠ stateBump))
    "vault state PDA reconciliation failed"
  let (tokenAddressBytes, tokenBump) ←
    findProgramAddress sha256 [TOKEN_VAULT_SEED, stateAddressBytes] programBytes
  require (state.tokenVaultBump = tokenBump) "vault token PDA bump reconciliation failed"
  let tokenAddress := base58Encode tokenAddressBytes
  let tokenAccount ← getAccountInfo tokenAddress
  let tokenData ← requireProgramData tokenAccount TOKEN_PROGRAM_ID TOKEN_ACCOUNT_DATA_LEN
    "vault token account"
  let token ← decodeTokenAccount tokenData
  let clockAccount ← getAccountInfo CLOCK_SYSVAR_ID
  let clockData ← requireProgramData clockAccount SYSVAR_PROGRAM_ID CLOCK_ACCOUNT_DATA_LEN
    "clock sysvar"
  let observedAtTs ← decodeClockTimestamp clockData
  pure {
    schema := SNAPSHOT_SCHEMA
    programId := canonicalProgram
    vaultState := canonicalState
    vaultTokenAccount := tokenAddress
    observedAtTs
    state
    tokenAccount := token }

end Export

/-! ## What the readers make of accounts -/

def VaultView.of (v : BeneficiaryVault) : VaultView where
  depositor := shown v.depositor
  beneficiary := shown v.beneficiary
  mint := shown v.mint
  policyHash := hexEncode v.policyHash.bytes
  depositedAmount := v.depositedAmount.val
  monthlyCap := v.monthlyCap.val
  releasedTotal := v.releasedTotal.val
  releasedThisPeriod := v.releasedThisPeriod.val
  genesisTs := v.genesisTs.val
  cliffEndTs := v.cliffEndTs.val
  currentPeriodIndex := v.currentPeriodIndex.val
  annualReleaseBps := v.annualReleaseBps.val
  mintDecimals := v.mintDecimals.toNat
  stateBump := v.stateBump.toNat
  tokenVaultBump := v.tokenVaultBump.toNat

def TokenView.of (a : TokenAccount) : TokenView where
  mint := shown a.mint
  authority := shown a.owner
  amount := a.amount
  delegate := a.delegate.map shown
  state := if a.state = .initialized then "initialized" else "frozen"
  isNative := a.isNative.isSome
  delegatedAmount := a.delegatedAmount
  closeAuthority := a.closeAuthority.map shown

section Readers

variable {sha256 : Bytes → Bytes32} {v : BeneficiaryVault} {a : TokenAccount} {data : Bytes}

theorem serialize_length (v : BeneficiaryVault) : v.serialize.length = 189 := by
  simp [BeneficiaryVault.serialize, Bytes32.length_eq]

theorem vaultFields_serialize (v : BeneficiaryVault) :
    vaultFields.run v.serialize = .ok (.of v, []) := by
  have hend : BeneficiaryVault.serialize v = BeneficiaryVault.serialize v ++ [] :=
    (List.append_nil _).symm
  rw [hend]
  simp only [vaultFields, BeneficiaryVault.serialize, List.append_assoc, reads_take32.bind_run,
    reads_Q.bind_run, reads_q.bind_run, reads_H.bind_run, reads_B.bind_run]
  rfl

theorem decodeVaultState_serialize (v : BeneficiaryVault) :
    decodeVaultState sha256 (STATE_DISCRIMINATOR sha256 ++ v.serialize) = .ok (.of v) := by
  have htag : (STATE_DISCRIMINATOR sha256).length = 8 := by
    simp [STATE_DISCRIMINATOR, Bytes32.length_eq]
  simp only [decodeVaultState, bind_eq_ok, require_eq_ok, exists_const]
  refine ⟨by simp [htag, serialize_length, STATE_ACCOUNT_DATA_LEN], List.take_left' htag, ?_⟩
  rw [List.drop_left' htag, Reader.all_eq_ok]
  exact ⟨[], vaultFields_serialize v⟩

/-- The widths of the fields of a token account. -/
def tokenWidths : List ℕ := [32, 32, 8, 4, 32, 1, 4, 8, 8, 4, 32]

theorem optionBody_length {o : Option Bytes} {stale : Bytes} {n : ℕ} (hs : stale.length = n)
    (ho : ∀ body, o = some body → body.length = n) : (optionBody o stale).length = n := by
  cases o with
  | none => exact hs
  | some body => exact ho body rfl

theorem optionKey_length {o : Option Pubkey} {stale : Bytes} (hs : stale.length = 32) :
    (optionBody (o.map Bytes32.bytes) stale).length = 32 := by
  refine optionBody_length hs fun body hbody ↦ ?_
  obtain ⟨k, -, rfl⟩ := Option.map_eq_some_iff.mp hbody
  exact k.length_eq

theorem tokenPieces_widths {delegate native close : Bytes} (hd : delegate.length = 32)
    (hn : native.length = 8) (hc : close.length = 32) :
    (tokenPieces a delegate native close).map List.length = tokenWidths := by
  have hnative : (optionBody (a.isNative.map U64.toLe) native).length = 8 := by
    refine optionBody_length hn fun body hbody ↦ ?_
    obtain ⟨x, -, rfl⟩ := Option.map_eq_some_iff.mp hbody
    exact U64.toLe_length x
  simp [tokenPieces, tokenWidths, optionTag, optionKey_length hd, optionKey_length hc, hnative,
    Bytes32.length_eq]

theorem leNat_optionTag (o : Option Bytes) : leNat (optionTag o) = if o.isSome then 1 else 0 := by
  refine leNat_leBytes ?_
  split <;> decide

/-- The option of a key is read where it was packed. -/
theorem coptionPubkey_eq {o : Option Pubkey} {stale : Bytes} {offset : ℕ} {name : String}
    (htag : slice data offset 4 = optionTag (o.map Bytes32.bytes))
    (hbody : slice data (offset + 4) 32 = optionBody (o.map Bytes32.bytes) stale) :
    coptionPubkey data offset name = .ok (o.map shown) := by
  rw [coptionPubkey, htag, leNat_optionTag, pubkeyAt, hbody]
  cases o <;> rfl

theorem decodeTokenAccount_packed (h : PackedToken a data) (hs : a.state ≠ .uninitialized) :
    decodeTokenAccount data = .ok (.of a) := by
  obtain ⟨hamount, hdelegated, delegate, native, close, hd, hn, hc, rfl⟩ := h
  have hw := tokenPieces_widths (a := a) hd hn hc
  have hlength : (tokenPieces a delegate native close).flatten.length = TOKEN_ACCOUNT_DATA_LEN := by
    rw [List.length_flatten, hw]
    rfl
  have hpiece := @slice_piece _ _ hw
  have hstate : slice (tokenPieces a delegate native close).flatten 108 1 = [stateByte a.state] :=
    hpiece 5 rfl
  have hnative : slice (tokenPieces a delegate native close).flatten 109 4 =
      optionTag (a.isNative.map U64.toLe) := hpiece 6 rfl
  have hamount' : slice (tokenPieces a delegate native close).flatten 64 8 = leBytes 8 a.amount :=
    hpiece 2 rfl
  have hdelegated' : slice (tokenPieces a delegate native close).flatten 121 8 =
      leBytes 8 a.delegatedAmount := hpiece 8 rfl
  simp only [decodeTokenAccount, bind_eq_ok, require_eq_ok, exists_const, pure_eq_ok]
  refine ⟨hlength, ?_, ?_, _, coptionPubkey_eq (hpiece 3 rfl) (hpiece 4 rfl), _,
    coptionPubkey_eq (hpiece 9 rfl) (hpiece 10 rfl), ?_⟩
  · rw [hstate]
    cases hstate : a.state with
    | uninitialized => exact absurd hstate hs
    | initialized => exact .inl rfl
    | frozen => exact .inr rfl
  · rw [hnative, leNat_optionTag]
    split <;> simp
  · rw [pubkeyAt, pubkeyAt, hstate, hnative, hamount', hdelegated', leNat_optionTag]
    have hamount : leNat (leBytes 8 a.amount) = a.amount := leNat_leBytes hamount
    have hdelegated : leNat (leBytes 8 a.delegatedAmount) = a.delegatedAmount :=
      leNat_leBytes hdelegated
    have hmint : slice (tokenPieces a delegate native close).flatten 0 32 = a.mint.bytes :=
      hpiece 0 rfl
    have howner : slice (tokenPieces a delegate native close).flatten 32 32 = a.owner.bytes :=
      hpiece 1 rfl
    have hactive : (leNat [stateByte a.state] = 1) = (a.state = .initialized) := by
      cases a.state <;> simp [stateByte, leNat]
    have hflag : decide ((if (a.isNative.map U64.toLe).isSome then 1 else 0) = 1) =
        a.isNative.isSome := by
      cases a.isNative <;> rfl
    simp only [Format.unpack, hamount, hdelegated, hmint, howner, hactive, hflag]
    rfl

end Readers

/-! ## The snapshot of a ledger -/

/-- The client serves the vault at `key`, its token account at `token` and the clock as they are on
the chain at a time. -/
structure Serves (sha256 : Bytes → Bytes32) (getAccountInfo : String → Except String RawAccount)
    (L : Anchor.Ledger BeneficiaryVault) (key token : Pubkey) (now : I64) : Prop where
  vault : ∀ {v}, L.program key = some v → ∃ lamports, getAccountInfo (shown key) =
    .ok ⟨shown ID, STATE_DISCRIMINATOR sha256 ++ v.serialize, false, lamports⟩
  token : ∀ {a}, L.tokens.account token = some a → ∃ data lamports, PackedToken a data ∧
    getAccountInfo (shown token) = .ok ⟨TOKEN_PROGRAM_ID, data, false, lamports⟩
  clock : ∃ data lamports, data.length = CLOCK_ACCOUNT_DATA_LEN ∧ slice data 32 8 = now.toLe ∧
    getAccountInfo CLOCK_SYSVAR_ID = .ok ⟨SYSVAR_PROGRAM_ID, data, false, lamports⟩

/-- The snapshot of the vault `v` at `key` and of its token account `a` at `token`. -/
def Snapshot.of (key token : Pubkey) (v : BeneficiaryVault) (a : TokenAccount) (now : I64) :
    Snapshot where
  schema := SNAPSHOT_SCHEMA
  programId := shown ID
  vaultState := shown key
  vaultTokenAccount := shown token
  observedAtTs := now.val
  state := .of v
  tokenAccount := .of a

section Ledger

variable {chain : Chain} {L : Anchor.Ledger BeneficiaryVault} {now : I64} {key token : Pubkey}
  {v : BeneficiaryVault} {a : TokenAccount}
  {getAccountInfo : String → Except String RawAccount}

theorem canonicalPubkey_shown (k : Pubkey) (name : String) :
    canonicalPubkey (shown k) name = .ok (shown k, k.bytes) := by
  simp only [canonicalPubkey, bind_eq_ok, okOr_eq_ok, require_eq_ok, exists_const, pure_eq_ok,
    pubkey_shown]
  exact ⟨k.bytes, rfl, rfl, rfl⟩

theorem fromHex?_hexEncode (bs : Bytes) : fromHex? (hexEncode bs).toList = some bs := by
  rw [hexEncode, String.toList_ofList, fromHex?_flatMap]

/-- The seeds of the vault `v` at `key` and of its token account. -/
def vaultSeeds (key : Pubkey) (v : BeneficiaryVault) : List (List Bytes) :=
  [stateSeeds v.beneficiary v.mint v.policyHash, tokenSeeds key]

theorem vaultSeeds_takes : ∀ seeds ∈ vaultSeeds key v, Takes seeds := by
  have hstate : STATE_SEED.length ≤ 32 := by decide
  have htoken : TOKEN_VAULT_SEED.length ≤ 32 := by decide
  simp [vaultSeeds, Takes, stateSeeds, tokenSeeds, Bytes32.length_eq, hstate, htoken]

/-- The address of a vault is found again. -/
theorem find_state (hd : ∀ seeds ∈ vaultSeeds key v, Shares chain seeds ID)
    (hc : Anchor.Canonical chain ID key v) :
    findProgramAddress chain.sha256
      [STATE_SEED, v.beneficiary.bytes, v.mint.bytes, v.policyHash.bytes] ID.bytes =
      .ok (key.bytes, (v.stateBump.toNat : ℤ)) := by
  have hfound : chain.findProgramAddress (stateSeeds v.beneficiary v.mint v.policyHash) ID =
    (key, v.stateBump) := hc
  have hshares := hd _ List.mem_cons_self
  rwa [Shares, hfound] at hshares

/-- The address of its token account is found again. -/
theorem find_token (hd : ∀ seeds ∈ vaultSeeds key v, Shares chain seeds ID)
    (ht : chain.findProgramAddress (tokenSeeds key) ID = (token, v.tokenVaultBump)) :
    findProgramAddress chain.sha256 [TOKEN_VAULT_SEED, key.bytes] ID.bytes =
      .ok (token.bytes, (v.tokenVaultBump.toNat : ℤ)) := by
  have hshares := hd (tokenSeeds key) (List.mem_cons_of_mem _ List.mem_cons_self)
  rwa [Shares, ht] at hshares

/-- A vault at home and its token account are exported as they are. -/
theorem exportSnapshot_eq_ok (hd : ∀ seeds ∈ vaultSeeds key v, Shares chain seeds ID)
    (hs : Serves chain.sha256 getAccountInfo L key token now)
    (hv : L.program key = some v) (hc : Anchor.Canonical chain ID key v)
    (ht : chain.findProgramAddress (tokenSeeds key) ID = (token, v.tokenVaultBump))
    (ha : L.tokens.account token = some a) (hstate : a.state ≠ .uninitialized) :
    exportSnapshot chain.sha256 getAccountInfo (shown ID) (shown key) =
      .ok (.of key token v a now) := by
  obtain ⟨_, hvault⟩ := hs.vault hv
  obtain ⟨data, _, hpacked, htoken⟩ := hs.token ha
  obtain ⟨clock, _, hlength, hclock, hsysvar⟩ := hs.clock
  have hwidth : data.length = TOKEN_ACCOUNT_DATA_LEN := by
    have hdecode := decodeTokenAccount_packed hpacked hstate
    simp only [decodeTokenAccount, bind_eq_ok, require_eq_ok, exists_const] at hdecode
    exact hdecode.1
  simp only [exportSnapshot, bind_eq_ok, require_eq_ok, exists_const, pure_eq_ok, okOr_eq_ok,
    requireProgramData, decodeClockTimestamp, Prod.exists]
  refine ⟨_, _, canonicalPubkey_shown ID _, _, _, canonicalPubkey_shown key _, _, hvault, _,
    ⟨rfl, rfl, ?_, rfl⟩, _, decodeVaultState_serialize v, _, pubkey_shown _, _, pubkey_shown _, _,
    fromHex?_hexEncode _, _, _, find_state hd hc, by simp [VaultView.of], _, _, find_token hd ht,
    rfl, _, htoken, _, ⟨rfl, rfl, hwidth, rfl⟩, _, decodeTokenAccount_packed hpacked hstate, _,
    hsysvar, _, ⟨rfl, rfl, hlength, rfl⟩, _, ⟨hlength, rfl⟩, ?_⟩
  · simp [serialize_length, STATE_DISCRIMINATOR, STATE_ACCOUNT_DATA_LEN, Bytes32.length_eq]
  · rw [hclock, I64.unpack_toLe]
    rfl

end Ledger

end FundingVaults.Beneficiary
