import FundingVaults.UpgradeGate.Program

/-!
# What an accepted gate instruction does

One structure for each kind of accepted instruction, with an inversion lemma, and the rule that
they share: an instruction changes a loader account only in the name of the gate that it loads or
of a signer.
-/

namespace FundingVaults.UpgradeGate

open Anchor

variable {P : Platform} {w w' : World} {now : I64} {signers : List Pubkey}

/-! ## Loader checks -/

theorem executable_eq_false {A : LoaderAccounts} {key : Pubkey} {account : LoaderAccount}
    (h : ¬ executable A key) (ha : A key = some account) : account.executable = false := by
  simpa [executable, ha] using h

theorem loaderState_eq_ok {A : LoaderAccounts} {key : Pubkey} {s : LoaderState} :
    loaderState A key = .ok s ↔ ∃ x, A key = some ⟨x, s⟩ := by
  simp only [loaderState, okOr_eq_ok, Option.map_eq_some_iff]
  constructor
  · rintro ⟨⟨x, _⟩, ha, rfl⟩
    exact ⟨x, ha⟩
  · rintro ⟨x, ha⟩
    exact ⟨_, ha, rfl⟩

theorem targetState_eq_ok {A : LoaderAccounts} {program data : Pubkey} {authority : Option Pubkey}
    {u : Unit} (h : targetState P A program data authority = .ok u) :
    P.programDataAddress program = data ∧
      ∃ x code, A data = some ⟨x, .programData authority code⟩ := by
  simp only [targetState, bind_eq_ok, require_eq_ok, exists_const, loaderState_eq_ok,
    LoaderState.upgradeAuthority?_eq_some] at h
  obtain ⟨-, hdata, p, -, -, d, ⟨x, hd⟩, code, rfl⟩ := h
  exact ⟨hdata, x, code, hd⟩

theorem bufferHash_eq_ok {A : LoaderAccounts} {key authority : Pubkey} {hash : Bytes32} {len : U64}
    (h : bufferHash P A key authority = .ok (hash, len)) :
    ∃ bytes, A key = some ⟨false, .buffer (some authority) bytes⟩ ∧ P.sha256 bytes = hash ∧
      U64.ofNat bytes.length = len := by
  simp only [bufferHash, bind_eq_ok, require_eq_ok, okOr_eq_ok, pure_eq_ok, exists_const,
    loaderState_eq_ok, LoaderState.bufferOf_eq_some, Prod.mk.injEq] at h
  obtain ⟨hexec, s, ⟨x, ha⟩, bytes, rfl, -, rfl, rfl⟩ := h
  have hx : x = false := executable_eq_false hexec ha
  exact ⟨bytes, hx ▸ ha, rfl, rfl⟩

theorem loadGate_eq_ok {key : Pubkey} {g : UpgradeGateV1} (h : loadGate P w key = .ok g) :
    w.gates key = some g := by
  simp only [loadGate, bind_eq_ok, loadAs_eq_ok, checkSeeds_eq_ok, exists_const, pure_eq_ok] at h
  obtain ⟨acc, ⟨⟨a, ha, hacc⟩, -⟩, -, rfl⟩ := h
  rw [ha, hacc]

/-! ## Instructions -/

/-- The gate `g` is opened over the target. -/
structure Initialized (P : Platform) (w : World) (now : I64) (signers : List Pubkey)
    (k : InitializeGate.Keys) (g : UpgradeGateV1) (A' : LoaderAccounts) : Prop where
  members : k.memberOne ∈ signers ∧ k.memberTwo ∈ signers ∧ k.memberThree ∈ signers
  authority : k.currentAuthority ∈ signers
  distinct : k.memberOne ≠ k.memberTwo ∧ k.memberOne ≠ k.memberThree ∧ k.memberTwo ≠ k.memberThree
  vacant : w.vacant k.gate
  address : P.findProgramAddress (gateSeeds k.target) ID = (k.gate, g.bump)
  programdata : P.programDataAddress k.target = k.programdata
  transferred : P.setUpgradeAuthority w.loader k.target k.currentAuthority (some k.gate) = some A'
  opened : g = {
    target := k.target, programdata := k.programdata
    members := [k.memberOne, k.memberTwo, k.memberThree], nonce := 0, status := EMPTY
    buffer := Bytes32.zero, codeHash := Bytes32.zero, codeLen := 0
    returnAuthority := Bytes32.zero, createdAt := 0, executeAfter := 0, lastActionAt := now
    bump := g.bump }

theorem process_initializeGate {k : InitializeGate.Keys}
    (h : process P w ⟨now, signers, .initializeGate k⟩ = .ok w') :
    ∃ g A', Initialized P w now signers k g A' ∧
      ({ w with loader := A' } : World).write k.gate g = w' := by
  simp only [process, initializeGate, InitializeGate.load, bind_eq_ok, signer_eq_ok,
    loadInit_eq_ok, require_eq_ok, okOr_eq_ok, pure_eq_ok, exists_const] at h
  obtain ⟨⟨_, bump⟩, ⟨-, h₁, h₂, h₃, hauth, hfind, hvac, rfl⟩, -, hdist, -, -, -, s, -, -, u, htarget,
    A', hset, rfl⟩ := h
  exact ⟨_, A', {
    members := ⟨h₁, h₂, h₃⟩
    authority := hauth
    distinct := hdist
    vacant := hvac
    address := hfind
    programdata := (targetState_eq_ok htarget).1
    transferred := hset
    opened := rfl }, rfl⟩

/-- A proposal takes the gate `g` to `g'`, whose buffer holds `bytes`. -/
structure Proposed (P : Platform) (w : World) (now : I64) (signers : List Pubkey)
    (k : ProposeUpgrade.Keys) (nonce : U64) (codeHash : Bytes32) (bytes : Bytes)
    (g g' : UpgradeGateV1) : Prop where
  gate : w.gates k.gate = some g
  members : k.memberOne ∈ signers ∧ k.memberTwo ∈ signers
  returnAuthority : k.returnAuthority ∈ signers
  quorum : k.memberOne ≠ k.memberTwo ∧ k.memberOne ∈ g.members ∧ k.memberTwo ∈ g.members
  idle : g.status ≠ PENDING
  next : nonce.val = g.nonce.val + 1
  buffer : w.loader k.buffer = some ⟨false, .buffer (some k.gate) bytes⟩
  hash : P.sha256 bytes = codeHash
  notice : g'.executeAfter.val = now.val + NOTICE
  proposed : g' = { g with
    nonce, status := PENDING, buffer := k.buffer, codeHash, codeLen := U64.ofNat bytes.length
    returnAuthority := k.returnAuthority, createdAt := now, executeAfter := g'.executeAfter
    lastActionAt := now }

theorem process_proposeUpgrade {k : ProposeUpgrade.Keys} {nonce : U64} {codeHash : Bytes32}
    (h : process P w ⟨now, signers, .proposeUpgrade k nonce codeHash⟩ = .ok w') :
    ∃ bytes g g', Proposed P w now signers k nonce codeHash bytes g g' ∧
      w.write k.gate g' = w' := by
  simp only [process, proposeUpgrade, UpgradeGateV1.tick, UpgradeGateV1.quorum, bind_eq_ok,
    signer_eq_ok, require_eq_ok, okOr_eq_ok, pure_eq_ok, exists_const, U64.checkedAdd_eq_some,
    I64.ofInt?_eq_some, Prod.exists] at h
  obtain ⟨h₁, h₂, hret, g, hg, _, ⟨-, rfl⟩, hquorum, hidle, next, hnext, rfl, hash, len, hbuf, rfl,
    after, hafter, rfl⟩ := h
  obtain ⟨bytes, hb, rfl, rfl⟩ := bufferHash_eq_ok hbuf
  exact ⟨bytes, g, _, {
    gate := loadGate_eq_ok hg
    members := ⟨h₁, h₂⟩
    returnAuthority := hret
    quorum := hquorum
    idle := hidle
    next := hnext.symm
    buffer := hb
    hash := rfl
    notice := hafter.symm
    proposed := rfl }, rfl⟩

/-- The pending proposal of the gate `g` is executed. -/
structure Executed (P : Platform) (w : World) (now : I64) (k : ExecuteUpgrade.Keys) (nonce : U64)
    (bytes : Bytes) (g g' : UpgradeGateV1) (A' : LoaderAccounts) : Prop where
  gate : w.gates k.gate = some g
  pending : g.status = PENDING
  nonce : g.nonce = nonce
  notice : g.executeAfter ≤ now
  programdata : P.programDataAddress g.target = g.programdata
  buffer : w.loader g.buffer = some ⟨false, .buffer (some k.gate) bytes⟩
  hash : P.sha256 bytes = g.codeHash ∧ U64.ofNat bytes.length = g.codeLen
  upgraded : P.upgrade w.loader g.target g.buffer k.gate g.returnAuthority = some A'
  executed : g' = { g with status := EXECUTED, lastActionAt := now }

theorem process_executeUpgrade {k : ExecuteUpgrade.Keys} {nonce : U64}
    (h : process P w ⟨now, signers, .executeUpgrade k nonce⟩ = .ok w') :
    ∃ bytes g g' A', Executed P w now k nonce bytes g g' A' ∧
      ({ w with loader := A' } : World).write k.gate g' = w' := by
  simp only [process, executeUpgrade, UpgradeGateV1.tick, bind_eq_ok, require_eq_ok, okOr_eq_ok,
    pure_eq_ok, exists_const, Prod.exists] at h
  obtain ⟨g, hg, htarget, hdata, _, ⟨-, rfl⟩, ⟨hpending, hnonce⟩, hnotice, hbuffer, -, u, hstate, hash,
    len, hbuf, ⟨rfl, rfl⟩, A', hup, rfl⟩ := h
  obtain ⟨bytes, hb, hhash, hlen⟩ := bufferHash_eq_ok hbuf
  exact ⟨bytes, g, _, A', {
    gate := loadGate_eq_ok hg
    pending := hpending
    nonce := hnonce
    notice := hnotice
    programdata := by
      rw [← htarget, ← hdata]
      exact (targetState_eq_ok hstate).1
    buffer := hbuffer ▸ hb
    hash := ⟨hhash, hlen⟩
    upgraded := hup
    executed := rfl }, rfl⟩

/-- The gate `g` hands a buffer back. -/
structure Returned (P : Platform) (w : World) (k : ReturnBuffer.Keys) (signers : List Pubkey)
    (g : UpgradeGateV1) (A' : LoaderAccounts) : Prop where
  gate : w.gates k.gate = some g
  members : k.memberOne ∈ signers ∧ k.memberTwo ∈ signers
  quorum : k.memberOne ≠ k.memberTwo ∧ k.memberOne ∈ g.members ∧ k.memberTwo ∈ g.members
  returned : P.setBufferAuthority w.loader k.buffer k.gate k.recipient = some A'

theorem process_cancelUpgrade {k : ReturnBuffer.Keys} {nonce : U64}
    (h : process P w ⟨now, signers, .cancelUpgrade k nonce⟩ = .ok w') :
    ∃ g A', Returned P w k signers g A' ∧ g.status = PENDING ∧ g.nonce = nonce ∧
      ({ w with loader := A' } : World).write k.gate
        { g with status := CANCELLED, lastActionAt := now } = w' := by
  simp only [process, cancelUpgrade, ReturnBuffer.load, returnBuffer, UpgradeGateV1.tick,
    UpgradeGateV1.quorum, bind_eq_ok, signer_eq_ok, require_eq_ok, okOr_eq_ok, pure_eq_ok,
    exists_const] at h
  obtain ⟨g, ⟨h₁, h₂, hg⟩, _, ⟨-, rfl⟩, hquorum, ⟨hpending, hnonce⟩, -, -, _, -, A', hset, rfl⟩ := h
  exact ⟨g, A', ⟨loadGate_eq_ok hg, ⟨h₁, h₂⟩, hquorum, hset⟩, hpending, hnonce, rfl⟩

theorem process_returnUnqueuedBuffer {k : ReturnBuffer.Keys}
    (h : process P w ⟨now, signers, .returnUnqueuedBuffer k⟩ = .ok w') :
    ∃ g A', Returned P w k signers g A' ∧ (g.status ≠ PENDING ∨ g.buffer ≠ k.buffer) ∧
      ({ w with loader := A' } : World).write k.gate { g with lastActionAt := now } = w' := by
  simp only [process, returnUnqueuedBuffer, ReturnBuffer.load, returnBuffer, UpgradeGateV1.tick,
    UpgradeGateV1.quorum, bind_eq_ok, signer_eq_ok, require_eq_ok, okOr_eq_ok, pure_eq_ok,
    exists_const] at h
  obtain ⟨g, ⟨h₁, h₂, hg⟩, _, ⟨-, rfl⟩, hquorum, hidle, _, -, A', hset, rfl⟩ := h
  exact ⟨g, A', ⟨loadGate_eq_ok hg, ⟨h₁, h₂⟩, hquorum, hset⟩, hidle, rfl⟩

/-! ## Whose accounts change -/

/-- The gate account that an instruction loads or creates. -/
def Instruction.gate : Instruction → Pubkey
  | .initializeGate k => k.gate
  | .proposeUpgrade k _ _ => k.gate
  | .executeUpgrade k _ => k.gate
  | .cancelUpgrade k _ => k.gate
  | .returnUnqueuedBuffer k => k.gate

/-- An instruction of another gate changes neither this one nor what is in its hands. -/
theorem process_frame {tx : Tx Instruction} {gate : Pubkey} (hP : P.toLoader.Lawful)
    (h : process P w tx = .ok w') (hgate : tx.instruction.gate ≠ gate) (hs : gate ∉ tx.signers) :
    w'.gates gate = w.gates gate ∧ ∀ key account, w.loader key = some account →
      account.state.authority = some gate → w'.loader key = some account := by
  obtain ⟨now, signers, instr⟩ := tx
  have hreturn : ∀ {k : ReturnBuffer.Keys} {g : UpgradeGateV1} {A' : LoaderAccounts}, k.gate ≠ gate →
      Returned P w k signers g A' → ∀ key account, w.loader key = some account →
        account.state.authority = some gate → A' key = some account := by
    intro k g A' hne hr key account ha hown
    obtain ⟨x, bytes, hb, rfl⟩ := hP.setBufferAuthority hr.returned
    by_cases hkey : key = k.buffer
    · subst hkey
      obtain rfl := Option.some.inj (hb.symm.trans ha)
      exact absurd (Option.some.inj hown) hne
    · rwa [Function.update_of_ne hkey]
  cases instr with
  | initializeGate k =>
    obtain ⟨g, A', hi, rfl⟩ := process_initializeGate h
    refine ⟨Function.update_of_ne (Ne.symm hgate) .., fun key account ha hown ↦ ?_⟩
    obtain ⟨x, code, hd, rfl⟩ := hP.setUpgradeAuthority hi.transferred
    change Function.update _ _ _ key = _
    by_cases hkey : key = P.programDataAddress k.target
    · subst hkey
      obtain rfl := Option.some.inj (hd.symm.trans ha)
      obtain rfl := Option.some.inj hown
      exact absurd hi.authority hs
    · rwa [Function.update_of_ne hkey]
  | proposeUpgrade k nonce codeHash =>
    obtain ⟨bytes, g, g', hp, rfl⟩ := process_proposeUpgrade h
    exact ⟨Function.update_of_ne (Ne.symm hgate) .., fun _ _ ha _ ↦ ha⟩
  | executeUpgrade k nonce =>
    obtain ⟨bytes, g, g', A', he, rfl⟩ := process_executeUpgrade h
    refine ⟨Function.update_of_ne (Ne.symm hgate) .., fun key account ha hown ↦ ?_⟩
    obtain ⟨x, y, old, new, hd, hb, -, hother⟩ := hP.upgrade he.upgraded
    have hne : ∀ {other : LoaderAccount}, other.state.authority = some k.gate →
        w.loader key ≠ some other := by
      intro other hauth heq
      obtain rfl := Option.some.inj (heq.symm.trans ha)
      exact hgate (Option.some.inj (hauth.symm.trans hown))
    change A' key = _
    rw [hother key, ha]
    · rintro rfl
      exact hne rfl hd
    · rintro rfl
      exact hne rfl hb
  | cancelUpgrade k nonce =>
    obtain ⟨g, A', hr, -, -, rfl⟩ := process_cancelUpgrade h
    exact ⟨Function.update_of_ne (Ne.symm hgate) .., hreturn hgate hr⟩
  | returnUnqueuedBuffer k =>
    obtain ⟨g, A', hr, -, rfl⟩ := process_returnUnqueuedBuffer h
    exact ⟨Function.update_of_ne (Ne.symm hgate) .., hreturn hgate hr⟩

end FundingVaults.UpgradeGate
