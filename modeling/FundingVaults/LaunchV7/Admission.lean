import FundingVaults.LaunchV7.Replay
import FundingVaults.Verifier.Codec

/-!
# Founding a policy

What the accounts of a policy's identity hold while policies are prepared and opened: the intent that
hashes to the identity, signed by its creator, and the policy that everybody named in the intent has
signed.
-/

namespace FundingVaults.LaunchV7

/-! ## Intents -/

/-- What the identity of a policy commits to. -/
@[ext]
structure Intent where
  creator : Pubkey
  mint : Pubkey
  founder : Pubkey
  treasury : Pubkey
  oracle : Pubkey
  specHash : Bytes32
  config : LaunchConfig

namespace Intent

variable (chain : Chain) (t : Intent)

def preimage : Bytes :=
  LaunchV7.preimage t.creator t.mint t.founder t.treasury t.oracle t.specHash t.config

def identity : Bytes32 :=
  LaunchV7.identity chain t.creator t.mint t.founder t.treasury t.oracle t.specHash t.config

/-- The addresses of the preparation and of the policy. -/
def preparationKey : Pubkey := (Seeds.preparation (t.identity chain)).address chain
def policyKey : Pubkey := (Seeds.policy (t.identity chain)).address chain

def preparation : LaunchPreparationV7 where
  creator := t.creator
  mint := t.mint
  founder := t.founder
  treasury := t.treasury
  oracle := t.oracle
  identity := t.identity chain
  specHash := t.specHash
  config := t.config
  bump := (Seeds.preparation (t.identity chain)).bump chain

/-- The policy of the intent as it is opened. -/
def policy (now : I64) : LaunchPolicyV7 where
  creator := t.creator
  mint := t.mint
  founder := t.founder
  treasury := t.treasury
  oracle := t.oracle
  identity := t.identity chain
  specHash := t.specHash
  config := t.config
  state := PREPARED
  fundedMask := 0
  bump := (Seeds.policy (t.identity chain)).bump chain
  lastActionAt := now
  period := 0
  sharedUsed := 0
  reportPeriod := 0
  reportCapacity := 0
  reportAt := 0
  reportSequence := 0
  founderPeriodUsed := 0
  treasuryPeriodUsed := 0
  founderReleasedTotal := 0
  treasuryReleasedTotal := 0
  annualIndex := 0
  founderAnnualUsed := 0
  treasuryAnnualUsed := 0
  initialOracle := t.oracle
  controller := t.creator
  controllerEpoch := 0
  oracleEpoch := 0
  oracleActivatedAt := now
  reportEpoch := 0
  reportValid := false
  changeSequence := 0
  pendingChange := 0
  withdrawal := ⟨initialRole t.founder, initialRole t.treasury⟩
  approvalCount := 0

def recoveryKey (i : ℕ) : Pubkey := t.config.recoveryKeys.toList.getD i Bytes32.zero

/-- The accounts that open the policy: the recovery keys in their order. -/
def openKeys : OpenPreparedPolicy.Keys where
  creator := t.creator
  founder := t.founder
  treasury := t.treasury
  oracle := t.oracle
  recoveryOne := t.recoveryKey 0
  recoveryTwo := t.recoveryKey 1
  recoveryThree := t.recoveryKey 2
  mint := t.mint
  preparation := t.preparationKey chain
  policy := t.policyKey chain

variable {chain}

theorem identity_eq : t.identity chain = chain.sha256 t.preimage := rfl

end Intent

/-- A preparation keeps the whole intent. -/
theorem Intent.preparation_injective {chain : Chain} {s t : Intent}
    (h : s.preparation chain = t.preparation chain) : s = t := by
  simp only [Intent.preparation, LaunchPreparationV7.mk.injEq] at h
  obtain ⟨hcreator, hmint, hfounder, htreasury, horacle, -, hspec, hconfig, -⟩ := h
  exact Intent.ext hcreator hmint hfounder htreasury horacle hspec hconfig

theorem bytes_append_inj {a b : Bytes32} {x y : Bytes} :
    a.bytes ++ x = b.bytes ++ y ↔ a = b ∧ x = y := by
  constructor
  · intro h
    obtain ⟨hkey, hrest⟩ := List.append_inj h (a.length_eq.trans b.length_eq.symm)
    exact ⟨Bytes32.ext hkey, hrest⟩
  · rintro ⟨rfl, rfl⟩
    rfl

/-- The fields stand at fixed places of the preimage. -/
theorem Intent.preimage_injective : Function.Injective Intent.preimage := by
  intro s t h
  simp only [Intent.preimage, LaunchV7.preimage, List.append_assoc, List.append_cancel_left_eq,
    bytes_append_inj] at h
  obtain ⟨hcreator, hmint, hfounder, htreasury, horacle, hspec, hconfig⟩ := h
  exact Intent.ext hcreator hmint hfounder htreasury horacle hspec
    (Verifier.serialize_injective hconfig)

/-! ## Transactions -/

section Steps

variable {d : Deployment} {L L' : Ledger} {now : I64} {signers : List Pubkey} {t : Intent}

/-- The transaction prepares or opens a policy. -/
def Tx.Founds (tx : Tx) : Prop :=
  (∃ keys config specHash identity,
    tx.instruction = .preparePolicy keys config specHash identity) ∨
  ∃ keys, tx.instruction = .openPreparedPolicy keys

/-- The creator has prepared the intent. -/
structure Prepares (d : Deployment) (t : Intent) (e : Entry) : Prop where
  instruction : ∃ keys, e.tx.instruction =
    .preparePolicy keys t.config t.specHash (t.identity d.toChain)
  signed : t.creator ∈ e.tx.signers
  valid : ∃ m, Bootstrap.validate d.toChain d.testProfile (t.preparation d.toChain) m e.tx.now =
    .ok ()
  stored : e.after.program (t.preparationKey d.toChain) =
    some (.preparation (t.preparation d.toChain))

/-- Everybody has opened the prepared policy before it starts. -/
structure Opens (d : Deployment) (t : Intent) (e : Entry) : Prop where
  instruction : e.tx.instruction = .openPreparedPolicy (t.openKeys d.toChain)
  signed : t.creator ∈ e.tx.signers ∧ t.founder ∈ e.tx.signers ∧ t.treasury ∈ e.tx.signers ∧
    ∀ k ∈ t.config.recoveryKeys.toList, k ∈ e.tx.signers
  early : e.tx.now < t.config.t0
  prepared : e.before.program (t.preparationKey d.toChain) =
    some (.preparation (t.preparation d.toChain))

theorem validate_identity {chain : Chain} {testProfile : Bool} {p : LaunchPreparationV7} {m : Mint}
    (h : Bootstrap.validate chain testProfile p m now = .ok ()) :
    identity chain p.creator p.mint p.founder p.treasury p.oracle p.specHash p.config =
      p.identity := by
  simp only [Bootstrap.validate, bind_eq_ok, require_eq_ok, exists_const] at h
  obtain ⟨-, -, -, -, -, -, -, -, -, -, -, -, -, -, -, -, -, -, -, hid⟩ := h
  exact hid

/-- The mint has no authority left and covers the two pools. -/
structure Revoked (t : Intent) (m : Mint) : Prop where
  initialized : m.isInitialized
  mintAuthority : m.mintAuthority = none
  freezeAuthority : m.freezeAuthority = none
  supply : t.config.founderAmount.val + t.config.treasuryAmount.val ≤ m.supply.val

/-- What was admitted once is admitted until it starts. -/
theorem validate_later {m m' : Mint} {now' : I64}
    (h : Bootstrap.validate d.toChain d.testProfile (t.preparation d.toChain) m now = .ok ())
    (hnow : now' < t.config.t0) (hm : Revoked t m') :
    Bootstrap.validate d.toChain d.testProfile (t.preparation d.toChain) m' now' = .ok () := by
  simp only [Bootstrap.validate, bind_eq_ok, require_eq_ok, okOr_eq_ok, exists_const] at h ⊢
  obtain ⟨htest, -, cliff, hcliff, _, hrules, _, hrecovery, _, hfounder, howner, _, htreasury, howner',
    total, htotal, -, hconfig, -, hid⟩ := h
  have hsupply : total ≤ m'.supply := by
    rw [U64.checkedAdd_eq_some] at htotal
    rw [Fin.le_def, ← htotal]
    exact hm.supply
  exact ⟨htest, hnow, cliff, hcliff, _, hrules, _, hrecovery, _, hfounder, howner, _, htreasury,
    howner', total, htotal, hsupply, hconfig, ⟨hm.mintAuthority, hm.freezeAuthority⟩, hid⟩

theorem prepare_eq_ok {k : PreparePolicy.Keys} {config : LaunchConfig} {specHash identity : Bytes32}
    (h : process d L ⟨now, signers, .preparePolicy k config specHash identity⟩ = .ok L') :
    ∃ t, L.program (t.preparationKey d.toChain) = none ∧
      L' = L.write (t.preparationKey d.toChain) (.preparation (t.preparation d.toChain)) ∧
      Prepares d t ⟨L, ⟨now, signers, .preparePolicy k config specHash identity⟩, L'⟩ := by
  simp only [process, PreparePolicy.load, bind_eq_ok, pure_eq_ok, signer_eq_ok, loadInit_eq_ok,
    loadMint_eq_ok, preparePolicy, exists_const] at h
  obtain ⟨_, ⟨hsigned, m, ⟨-, -, hm⟩, i, ⟨haddr, hvac, rfl⟩, rfl⟩, a, ⟨_, hvalid, rfl⟩, rfl⟩ := h
  let t : Intent := ⟨k.creator, m.key, k.founder, k.treasury, k.oracle, specHash, config⟩
  have hvalidated := validate_identity hvalid
  have hid : t.identity d.toChain = identity := hvalidated
  have hkey : t.preparationKey d.toChain = k.preparation := by rw [Intent.preparationKey, hid, haddr]
  have hdata : t.preparation d.toChain = {
      creator := k.creator, mint := m.key, founder := k.founder, treasury := k.treasury
      oracle := k.oracle, identity, specHash, config
      bump := (Seeds.preparation identity).bump d.toChain } := by
    rw [Intent.preparation, hid]
  refine ⟨t, ?_, ?_, ⟨k, ?_⟩, hsigned, ⟨m.data, ?_⟩, ?_⟩
  · rw [hkey, Ledger.program_of_vacant hvac]
  · rw [hkey, hdata]
  · rw [hid]
  · rw [hdata]
    exact hvalid
  · rw [hkey, hdata, Ledger.write_program, if_pos rfl]

theorem eq_openKeys {chain : Chain} {k : OpenPreparedPolicy.Keys} (hcreator : t.creator = k.creator)
    (hmint : t.mint = k.mint) (hfounder : t.founder = k.founder) (htreasury : t.treasury = k.treasury)
    (horacle : t.oracle = k.oracle)
    (hrecovery : t.config.recoveryKeys = #v[k.recoveryOne, k.recoveryTwo, k.recoveryThree])
    (hpreparation : k.preparation = t.preparationKey chain) (hpolicy : t.policyKey chain = k.policy) :
    k = t.openKeys chain := by
  obtain ⟨creator, founder, treasury, oracle, one, two, three, mint, preparation, policy⟩ := k
  simp only [Intent.openKeys, OpenPreparedPolicy.Keys.mk.injEq]
  refine ⟨hcreator.symm, hfounder.symm, htreasury.symm, horacle.symm, ?_, ?_, ?_, hmint.symm,
    hpreparation, hpolicy.symm⟩
  · rw [Intent.recoveryKey, hrecovery]
    rfl
  · rw [Intent.recoveryKey, hrecovery]
    rfl
  · rw [Intent.recoveryKey, hrecovery]
    rfl

/-- An account that exists is not created again. -/
theorem process_kept {tx : Tx} {key : Pubkey} {a : ProgramAccount} (htx : tx.Founds)
    (h : process d L tx = .ok L') (ha : L.program key = some a) : L'.program key = some a := by
  have hwrite : ∀ {key' b}, L.vacant key' → (L.write key' b).program key = some a := by
    intro key' b hvac
    rw [Ledger.write_program, if_neg, ha]
    rintro rfl
    exact absurd ha (by simp [Ledger.program_of_vacant hvac])
  obtain ⟨now, signers, instruction⟩ := tx
  rcases htx with ⟨keys, config, specHash, identity, rfl⟩ | ⟨keys, rfl⟩
  · simp only [process, PreparePolicy.load, bind_eq_ok, pure_eq_ok, loadInit_eq_ok] at h
    obtain ⟨_, ⟨-, -, m, -, i, ⟨-, hvac, -⟩, -⟩, b, -, rfl⟩ := h
    exact hwrite hvac
  · simp only [process, OpenPreparedPolicy.load, bind_eq_ok, pure_eq_ok, loadInit_eq_ok] at h
    obtain ⟨_, ⟨-, -, -, -, -, -, -, -, -, -, -, -, m, -, prep, -, -, -, i, ⟨-, hvac, -⟩, -⟩, b, -,
      rfl⟩ := h
    exact hwrite hvac

/-- Where every preparation is that of an intent, an opened policy is that of an intent. -/
theorem open_eq_ok {k : OpenPreparedPolicy.Keys}
    (hL : ∀ {key a}, L.program key = some (.preparation a) →
      ∃ t : Intent, key = t.preparationKey d.toChain ∧ a = t.preparation d.toChain)
    (h : process d L ⟨now, signers, .openPreparedPolicy k⟩ = .ok L') :
    ∃ t, L.program (t.policyKey d.toChain) = none ∧
      L' = L.write (t.policyKey d.toChain) (.policy (t.policy d.toChain now)) ∧
      Opens d t ⟨L, ⟨now, signers, .openPreparedPolicy k⟩, L'⟩ := by
  simp only [process, OpenPreparedPolicy.load, bind_eq_ok, pure_eq_ok, signer_eq_ok,
    loadInit_eq_ok, loadAs_eq_ok, bind_preparation?, loadMint_eq_ok, openPreparedPolicy,
    require_eq_ok, exists_const] at h
  obtain ⟨_, ⟨hcreator, hfounder, htreasury, hone, htwo, hthree, m, ⟨-, -, hm⟩, prep,
    ⟨hprep, -⟩, -, -, i, ⟨haddr, hvac, rfl⟩, rfl⟩, p, ⟨_, hvalid, hactors, hkeys, rfl⟩, rfl⟩ := h
  obtain ⟨t, hprepKey, hdata⟩ := hL hprep
  obtain ⟨prepKey, data⟩ := prep
  subst hdata
  have hkey : t.policyKey d.toChain = k.policy := haddr
  obtain ⟨hc, hm', hf, ht, ho⟩ : t.creator = k.creator ∧ t.mint = m.key ∧ t.founder = k.founder ∧
      t.treasury = k.treasury ∧ t.oracle = k.oracle := hactors
  have hrecovery : t.config.recoveryKeys = #v[k.recoveryOne, k.recoveryTwo, k.recoveryThree] := hkeys
  have hearly : now < t.config.t0 := by
    simp only [Bootstrap.validate, bind_eq_ok, require_eq_ok, exists_const] at hvalid
    exact hvalid.2.1
  refine ⟨t, ?_, ?_, ?_, ⟨hc ▸ hcreator, hf ▸ hfounder, ht ▸ htreasury, ?_⟩, hearly, ?_⟩
  · rw [hkey, Ledger.program_of_vacant hvac]
  · have hpolicy : LaunchPolicyV7.mk k.creator m.key k.founder k.treasury k.oracle
        (t.identity d.toChain) t.specHash t.config PREPARED 0
        ((Seeds.policy (t.identity d.toChain)).bump d.toChain) now 0 0 0 0 0 0 0 0 0 0 0 0 0
        k.oracle k.creator 0 0 now 0 false 0 0 ⟨initialRole k.founder, initialRole k.treasury⟩ 0 =
          t.policy d.toChain now := by
      rw [Intent.policy, hc, hm', hf, ht, ho]
    rw [hkey, ← hpolicy]
    rfl
  · exact congrArg _ (eq_openKeys hc (hm'.trans hm) hf ht ho hrecovery hprepKey hkey)
  · rw [hrecovery]
    intro key hmem
    have hcases : key ∈ [k.recoveryOne, k.recoveryTwo, k.recoveryThree] := hmem
    simp only [List.mem_cons, List.not_mem_nil, or_false] at hcases
    rcases hcases with rfl | rfl | rfl
    · exact hone
    · exact htwo
    · exact hthree
  · rw [← hprepKey]
    exact hprep

/-- Everybody signs the opening before the start, with the mint still revoked. -/
structure Assents (d : Deployment) (t : Intent) (L : Ledger) (tx : Tx) : Prop where
  instruction : tx.instruction = .openPreparedPolicy (t.openKeys d.toChain)
  signed : t.creator ∈ tx.signers ∧ t.founder ∈ tx.signers ∧ t.treasury ∈ tx.signers ∧
    ∀ k ∈ t.config.recoveryKeys.toList, k ∈ tx.signers
  early : tx.now < t.config.t0
  mint : ∃ m, L.tokens.mint t.mint = some m ∧ Revoked t m
  vacant : L.vacant (t.policyKey d.toChain)

/-- From a preparation that was admitted, the assent of everybody opens the policy. -/
theorem Assents.process {tx : Tx} {m : Mint} (h : Assents d t L tx)
    (hprep : L.program (t.preparationKey d.toChain) = some (.preparation (t.preparation d.toChain)))
    (hvalid : Bootstrap.validate d.toChain d.testProfile (t.preparation d.toChain) m now = .ok ()) :
    process d L tx =
      .ok (L.write (t.policyKey d.toChain) (.policy (t.policy d.toChain tx.now))) := by
  obtain ⟨txNow, signers, instruction⟩ := tx
  obtain ⟨rfl, ⟨hcreator, hfounder, htreasury, hrecovery⟩, hearly, ⟨m', hmint, hrevoked⟩, hvacant⟩ := h
  have hseeds : checkSeeds d.toChain (.preparation (t.identity d.toChain))
      (t.preparation d.toChain).bump (t.preparationKey d.toChain) = .ok () :=
    require_eq_ok.mpr (Seeds.create _)
  have hget : ∀ i (hi : i < 3), t.recoveryKey i = t.config.recoveryKeys[i] := by
    intro i hi
    simp [Intent.recoveryKey, hi]
  have hkey : ∀ i < 3, t.recoveryKey i ∈ signers := by
    intro i hi
    rw [hget i hi]
    exact hrecovery _ (Vector.mem_toList_iff.mpr (Vector.getElem_mem hi))
  have hkeys : t.config.recoveryKeys = #v[t.recoveryKey 0, t.recoveryKey 1, t.recoveryKey 2] := by
    apply Vector.ext
    intro i hi
    rw [← hget i hi]
    match i, hi with
    | 0, _ => rfl
    | 1, _ => rfl
    | 2, _ => rfl
  simp only [LaunchV7.process, OpenPreparedPolicy.load, bind_eq_ok, pure_eq_ok, signer_eq_ok,
    loadInit_eq_ok, loadAs_eq_ok, bind_preparation?, loadMint_eq_ok, openPreparedPolicy,
    require_eq_ok, exists_const, Intent.openKeys]
  exact ⟨_, ⟨hcreator, hfounder, htreasury, hkey 0 (by decide), hkey 1 (by decide),
    hkey 2 (by decide), ⟨t.mint, m'⟩,
    ⟨hmint, hrevoked.initialized, rfl⟩, ⟨_, t.preparation d.toChain⟩, ⟨hprep, rfl⟩, (), hseeds, _,
    ⟨rfl, hvacant, rfl⟩, rfl⟩, _, ⟨(), validate_later hvalid hearly hrevoked,
    ⟨rfl, rfl, rfl, rfl, rfl⟩, hkeys, rfl⟩, rfl⟩

end Steps

/-! ## Runs -/

/-- An account of the program while policies are only prepared and opened. -/
inductive Founded (d : Deployment) (tr : List Entry) (key : Pubkey) : ProgramAccount → Prop where
  | preparation {t : Intent} {e : Entry} : e ∈ tr → Prepares d t e →
      key = t.preparationKey d.toChain → Founded d tr key (.preparation (t.preparation d.toChain))
  | policy {t : Intent} {e e' : Entry} : e' ∈ tr → Prepares d t e' → e ∈ tr → Opens d t e →
      key = t.policyKey d.toChain → Founded d tr key (.policy (t.policy d.toChain e.tx.now))

section Runs

variable {d : Deployment} {L₀ L L' : Ledger} {tr tr' : List Entry} {tx : Tx} {key : Pubkey}
  {a : ProgramAccount}

theorem Founded.mono (h : Founded d tr key a) (hsub : tr ⊆ tr') : Founded d tr' key a := by
  cases h with
  | preparation he hp hkey => exact .preparation (hsub he) hp hkey
  | policy he' hp he ho hkey => exact .policy (hsub he') hp (hsub he) ho hkey

theorem Founded.preparation_inv {b : LaunchPreparationV7} (h : Founded d tr key (.preparation b)) :
    ∃ t e, e ∈ tr ∧ Prepares d t e ∧ key = t.preparationKey d.toChain ∧
      b = t.preparation d.toChain := by
  generalize hx : ProgramAccount.preparation b = x at h
  cases h with
  | preparation he hp hkey => exact ⟨_, _, he, hp, hkey, ProgramAccount.preparation.inj hx⟩
  | policy => cases hx

/-- A transaction adds one account. -/
theorem Founded.step (hL : ∀ {key a}, L.program key = some a → Founded d tr key a)
    (htx : tx.Founds) (h : process d L tx = .ok L') (ha : L'.program key = some a) :
    Founded d (tr ++ [⟨L, tx, L'⟩]) key a := by
  have hkept : ∀ {key a}, L.program key = some a → Founded d (tr ++ [⟨L, tx, L'⟩]) key a :=
    fun h ↦ (hL h).mono (List.subset_append_left ..)
  have hlast : (⟨L, tx, L'⟩ : Entry) ∈ tr ++ [⟨L, tx, L'⟩] := by simp
  obtain ⟨now, signers, instruction⟩ := tx
  rcases htx with ⟨keys, config, specHash, identity, rfl⟩ | ⟨keys, rfl⟩
  · obtain ⟨t, hnone, rfl, hp⟩ := prepare_eq_ok h
    rw [Ledger.write_program] at ha
    split at ha
    · next hkey =>
      obtain rfl := Option.some.inj ha
      exact .preparation hlast hp hkey
    · exact hkept ha
  · have hprepared : ∀ {key b}, L.program key = some (.preparation b) →
        ∃ t : Intent, key = t.preparationKey d.toChain ∧ b = t.preparation d.toChain := by
      intro key b hb
      obtain ⟨t, e, -, -, hkey, hdata⟩ := (hL hb).preparation_inv
      exact ⟨t, hkey, hdata⟩
    obtain ⟨t, hnone, rfl, ho⟩ := open_eq_ok hprepared h
    rw [Ledger.write_program] at ha
    split at ha
    · next hkey =>
      obtain rfl := Option.some.inj ha
      obtain ⟨t', e, he, hp, -, hdata⟩ := (hL ho.prepared).preparation_inv
      obtain rfl := Intent.preparation_injective hdata
      exact .policy (List.mem_append_left _ he) hp hlast ho hkey
    · exact hkept ha

/-- What a run of preparations and openings leaves. -/
theorem Run.founded (h : Run d L₀ tr L) (h₀ : L₀.Genesis) (hf : ∀ e ∈ tr, e.tx.Founds)
    (ha : L.program key = some a) : Founded d tr key a := by
  induction h generalizing key a with
  | refl => exact absurd ha (by simp [h₀ key])
  | accepted _ hp ih =>
    have hpast := fun e he ↦ hf e (List.mem_append_left _ he)
    exact .step (ih hpast) (hf _ (List.mem_append_right _ List.mem_cons_self)) hp ha
  | rejected _ _ ih => exact ih hf ha
  | external _ _ ih => exact ih hf ha

/-- No account changes any more. -/
theorem Run.unchanged (h : Run d L tr L') (hf : ∀ e ∈ tr, e.tx.Founds)
    (ha : L.program key = some a) : L'.program key = some a := by
  induction h with
  | refl => exact ha
  | accepted _ hp ih =>
    have hkept := ih fun e he ↦ hf e (List.mem_append_left _ he)
    exact process_kept (hf _ (List.mem_append_right _ List.mem_cons_self)) hp hkept
  | rejected _ _ ih => exact ih hf
  | external _ _ ih => exact ih hf

end Runs

/-! ## Identities -/

section Identities

variable {d : Deployment} {L : Ledger} {tr : List Entry} {used : Set Intent} {ids : Set Bytes32}
  {I : Bytes32} {t : Intent}

/-- The digest tells the intents in use apart, and the derivation the accounts of their identities. -/
structure Collisionless (chain : Chain) (used : Set Intent) (ids : Set Bytes32) : Prop where
  hashed : ∀ t ∈ used, t.identity chain ∈ ids
  sha256 : Set.InjOn chain.sha256 (Intent.preimage '' used)
  address : Set.InjOn (Seeds.address chain) {s | ∃ I ∈ ids, s = .preparation I ∨ s = .policy I}

/-- The one intent in use that hashes to an identity. -/
structure Pins (chain : Chain) (used : Set Intent) (I : Bytes32) (t : Intent) : Prop where
  mem : t ∈ used
  hash : t.identity chain = I
  unique : ∀ t' ∈ used, t'.identity chain = I → t' = t

/-- What the accounts of an identity hold. -/
structure Unsquatted (d : Deployment) (tr : List Entry) (L : Ledger) (used : Set Intent)
    (I : Bytes32) : Prop where
  /-- A preparation is the one of the pinned intent, and its creator has signed it. -/
  preparation : ∀ {a}, L.program ((Seeds.preparation I).address d.toChain) = some a →
    ∃ t e, Pins d.toChain used I t ∧ e ∈ tr ∧ Prepares d t e ∧
      a = .preparation (t.preparation d.toChain)
  /-- A policy is the one that everybody named in the pinned intent has opened. -/
  policy : ∀ {a}, L.program ((Seeds.policy I).address d.toChain) = some a →
    ∃ t e, Pins d.toChain used I t ∧ e ∈ tr ∧ Opens d t e ∧
      a = .policy (t.policy d.toChain e.tx.now)
  /-- Later preparations and openings change neither. -/
  permanent : ∀ {tr' : List Entry} {L' : Ledger} {key : Pubkey} {a : ProgramAccount},
    Run d L tr' L' → (∀ e ∈ tr', e.tx.Founds) → L.program key = some a → L'.program key = some a
  /-- Nobody else's preparation stands in the way of an intent. -/
  own : ∀ {t a}, t ∈ used → t.identity d.toChain = I →
    L.program (t.preparationKey d.toChain) = some a → a = .preparation (t.preparation d.toChain)
  /-- A preparation that is there can be opened. -/
  opens : ∀ {t a tx}, t ∈ used → t.identity d.toChain = I →
    L.program (t.preparationKey d.toChain) = some a → Assents d t L tx →
    process d L tx =
      .ok (L.write (t.policyKey d.toChain) (.policy (t.policy d.toChain tx.now)))

theorem Collisionless.pins (hc : Collisionless d.toChain used ids) (ht : t ∈ used)
    (hI : t.identity d.toChain = I) : Pins d.toChain used I t := by
  refine ⟨ht, hI, fun t' ht' hI' ↦ Intent.preimage_injective ?_⟩
  exact hc.sha256 (Set.mem_image_of_mem _ ht') (Set.mem_image_of_mem _ ht) (hI'.trans hI.symm)

/-- An account at the address of an identity is founded on it. -/
theorem Founded.preparation_of {a : ProgramAccount} (hc : Collisionless d.toChain used ids)
    (hused : ∀ t, (∃ e ∈ tr, Prepares d t e) → t ∈ used) (hI : I ∈ ids)
    (h : Founded d tr ((Seeds.preparation I).address d.toChain) a) :
    ∃ t e, Pins d.toChain used I t ∧ e ∈ tr ∧ Prepares d t e ∧
      a = .preparation (t.preparation d.toChain) := by
  cases h with
  | @preparation t e he hp hkey =>
    have ht := hused t ⟨e, he, hp⟩
    have hseeds := hc.address ⟨I, hI, .inl rfl⟩ ⟨_, hc.hashed t ht, .inl rfl⟩ hkey
    exact ⟨t, e, hc.pins ht (Seeds.preparation.inj hseeds).symm, he, hp, rfl⟩
  | @policy t e e' he' hp he ho hkey =>
    have ht := hused t ⟨e', he', hp⟩
    have hseeds := hc.address ⟨I, hI, .inl rfl⟩ ⟨_, hc.hashed t ht, .inr rfl⟩ hkey
    cases hseeds

theorem Founded.policy_of {a : ProgramAccount} (hc : Collisionless d.toChain used ids)
    (hused : ∀ t, (∃ e ∈ tr, Prepares d t e) → t ∈ used) (hI : I ∈ ids)
    (h : Founded d tr ((Seeds.policy I).address d.toChain) a) :
    ∃ t e, Pins d.toChain used I t ∧ e ∈ tr ∧ Opens d t e ∧
      a = .policy (t.policy d.toChain e.tx.now) := by
  cases h with
  | @preparation t e he hp hkey =>
    have ht := hused t ⟨e, he, hp⟩
    have hseeds := hc.address ⟨I, hI, .inr rfl⟩ ⟨_, hc.hashed t ht, .inl rfl⟩ hkey
    cases hseeds
  | @policy t e e' he' hp he ho hkey =>
    have ht := hused t ⟨e', he', hp⟩
    have hseeds := hc.address ⟨I, hI, .inr rfl⟩ ⟨_, hc.hashed t ht, .inr rfl⟩ hkey
    exact ⟨t, e, hc.pins ht (Seeds.policy.inj hseeds).symm, he, ho, rfl⟩

/-- The accounts of an identity belong to the intent that hashes to it: nobody else can occupy or
alter them, and whoever is named in the intent can open it. -/
theorem Reachable.unsquatted (h : Reachable d tr L) (hf : ∀ e ∈ tr, e.tx.Founds)
    (hused : ∀ t, (∃ e ∈ tr, Prepares d t e) → t ∈ used) (hc : Collisionless d.toChain used ids)
    (hI : I ∈ ids) : Unsquatted d tr L used I := by
  obtain ⟨L₀, h₀, hrun⟩ := h
  have hprepared : ∀ {t a}, t ∈ used → t.identity d.toChain = I →
      L.program (t.preparationKey d.toChain) = some a →
      ∃ e, Prepares d t e ∧ a = .preparation (t.preparation d.toChain) := by
    intro t a ht hhash ha
    rw [Intent.preparationKey, hhash] at ha
    obtain ⟨t', e, hpins, -, hp, rfl⟩ := (hrun.founded h₀ hf ha).preparation_of hc hused hI
    obtain rfl := hpins.unique t ht hhash
    exact ⟨e, hp, rfl⟩
  constructor
  case preparation => exact fun ha ↦ (hrun.founded h₀ hf ha).preparation_of hc hused hI
  case policy => exact fun ha ↦ (hrun.founded h₀ hf ha).policy_of hc hused hI
  case permanent => exact fun hrun' hf' ha ↦ hrun'.unchanged hf' ha
  case own =>
    intro t a ht hhash ha
    obtain ⟨e, -, rfl⟩ := hprepared ht hhash ha
    rfl
  case opens =>
    intro t a tx ht hhash ha hassents
    obtain ⟨e, hp, rfl⟩ := hprepared ht hhash ha
    obtain ⟨m, hvalid⟩ := hp.valid
    exact hassents.process ha hvalid

end Identities

/-! ## Two launches -/

namespace Sample

/-- The launch, and a second one with the same terms and another specification. -/
def intent : Intent := ⟨creator, mint, founder, treasury, oracle, spec, config⟩
def rivalIntent : Intent := { intent with specHash := rivalSpec }

def prepareRival : Tx where
  now := seconds 1050
  signers := [creator]
  instruction := .preparePolicy
    { creator, founder, treasury, oracle, mint, preparation := address (.preparation rival) }
    config rivalSpec rival

/-- The preparation and the opening of the launch, and the preparation of the second one. -/
def founding : List Tx := launch.take 2 ++ [prepareRival]

def founded : List Entry × Ledger := replay deployment genesis founding

theorem founded_accepted : founded.1.length = 3 ∧ (founded.2.policyAt policy).isSome := by
  decide +kernel

theorem founding_founds : ∀ tx ∈ founding, tx.Founds := by
  simp only [founding, launch, List.take_succ_cons, List.take_zero, List.cons_append,
    List.nil_append, List.forall_mem_cons]
  exact ⟨.inl ⟨_, _, _, _, rfl⟩, .inr ⟨_, rfl⟩, .inl ⟨_, _, _, _, rfl⟩, by simp⟩

/-- Only the two identities are prepared. -/
theorem founding_identity : ∀ tx ∈ founding, ∀ keys config specHash I,
    tx.instruction = .preparePolicy keys config specHash I → I ∈ [identity, rival] := by
  simp only [founding, launch, List.take_succ_cons, List.take_zero, List.cons_append,
    List.nil_append, List.forall_mem_cons]
  refine ⟨fun _ _ _ _ h ↦ ?_, fun _ _ _ _ h ↦ ?_, fun _ _ _ _ h ↦ ?_, by simp⟩
  · cases h
    exact List.mem_cons_self
  · cases h
  · cases h
    exact List.mem_cons_of_mem _ List.mem_cons_self

theorem founded_stored : ∀ e ∈ founded.1, ∀ I ∈ [identity, rival],
    ∀ a ∈ e.after.program (address (.preparation I)),
      a ∈ [intent, rivalIntent].map fun t ↦ .preparation (t.preparation chain) := by
  decide +kernel

theorem founded_used {t : Intent} (h : ∃ e ∈ founded.1, Prepares deployment t e) :
    t ∈ ({intent, rivalIntent} : Set Intent) := by
  obtain ⟨e, he, hp⟩ := h
  obtain ⟨keys, hinstruction⟩ := hp.instruction
  have hidentity := founding_identity e.tx (mem_replay he) _ _ _ _ hinstruction
  obtain ⟨t', ht', heq⟩ := List.mem_map.mp (founded_stored e he _ hidentity _ hp.stored)
  obtain rfl := Intent.preparation_injective (ProgramAccount.preparation.inj heq)
  simpa using ht'

theorem intents_identity :
    intent.identity chain = identity ∧ rivalIntent.identity chain = rival := by
  decide +kernel

theorem addresses_nodup : ([.preparation identity, .policy identity, .preparation rival,
    .policy rival].map (Seeds.address chain)).Nodup := by
  decide +kernel

theorem collisionless : Collisionless chain {intent, rivalIntent} {identity, rival} where
  hashed := by
    rintro t (rfl | rfl)
    · exact .inl intents_identity.1
    · exact .inr intents_identity.2
  sha256 := by
    have hne : intent.identity chain ≠ rivalIntent.identity chain := by
      rw [intents_identity.1, intents_identity.2]
      decide
    rintro _ ⟨t, rfl | rfl, rfl⟩ _ ⟨t', rfl | rfl, rfl⟩ heq
    · rfl
    · exact absurd heq hne
    · exact absurd heq.symm hne
    · rfl
  address := by
    have hmem : ∀ s, (∃ I ∈ ({identity, rival} : Set Bytes32), s = .preparation I ∨ s = .policy I) →
        s ∈ [Seeds.preparation identity, .policy identity, .preparation rival, .policy rival] := by
      rintro s ⟨I, rfl | rfl, rfl | rfl⟩ <;> simp
    exact fun s hs s' hs' heq ↦
      List.inj_on_of_nodup_map addresses_nodup (hmem s hs) (hmem s' hs') heq

end Sample

/-- Each of the two identities belongs to its launch: the first is opened, the second prepared. -/
theorem unsquatted_sample :
    Sample.founded.1.length = 3 ∧ (Sample.founded.2.policyAt Sample.policy).isSome ∧
      ∀ I ∈ ({Sample.identity, Sample.rival} : Set Bytes32), Unsquatted Sample.deployment
        Sample.founded.1 Sample.founded.2 {Sample.intent, Sample.rivalIntent} I :=
  ⟨Sample.founded_accepted.1, Sample.founded_accepted.2, fun _ hI ↦
    (replay_reachable (fun _ ↦ rfl) Sample.founding).unsquatted
      (fun _ he ↦ Sample.founding_founds _ (mem_replay he)) (fun _ ↦ Sample.founded_used)
      Sample.collisionless hI⟩

end FundingVaults.LaunchV7
