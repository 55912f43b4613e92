import FundingVaults.UpgradeGate.Machine
import FundingVaults.Lib.Platform

/-!
# The gate cannot be bypassed

The invariant of a gate over its target, and what it gives for every run of gate and loader
instructions: the target stays in the gate's hands, and its code changes by a buffer whose proposal
stood for ninety days.
-/

namespace FundingVaults.UpgradeGate

open Anchor

section Gate

variable {P : Platform} {target gate : Pubkey} {members : List Pubkey} {w w' : World} {e : Event}
  {xs : List Event} {g g' : UpgradeGateV1} {bytes : Bytes}

/-- A proposal of `g` for the bytes, and since then neither a cancellation nor another proposal. -/
def Standing (P : Platform) (gate : Pubkey) (members : List Pubkey) (g : UpgradeGateV1)
    (bytes : Bytes) (xs : List Event) : Prop :=
  Since (fun _ p ↦ p.Records P gate members g bytes) (fun m ↦ (m.deed gate).Keeps) xs

/-- The program is in the hands of the gate. -/
def Held (P : Platform) (target gate : Pubkey) (w : World) : Prop :=
  ∃ x code, w.loader (P.programDataAddress target) = some ⟨x, .programData (some gate) code⟩

/-! ## The nonces of a history -/

/-- The proposals of a history have growing nonces, up to that of the gate, and it settles each one
once. -/
structure Numbered (gate : Pubkey) (g : UpgradeGateV1) (xs : List Event) : Prop where
  increasing : (xs.filterMap fun e ↦ (e.deed gate).proposed?).Pairwise (· < ·)
  proposed : ∀ n ∈ xs.filterMap fun e ↦ (e.deed gate).proposed?, n ≤ g.nonce
  once : (xs.filterMap fun e ↦ (e.deed gate).settled?).Pairwise (· < ·)
  settled : ∀ n ∈ xs.filterMap fun e ↦ (e.deed gate).settled?, n ≤ g.nonce
  unsettled : g.status = PENDING → ∀ n ∈ xs.filterMap fun e ↦ (e.deed gate).settled?, n < g.nonce

namespace Numbered

theorem other (h : Numbered gate g xs) (he : e.deed gate = .other) (hn : g'.nonce = g.nonce)
    (hs : g'.status = g.status) : Numbered gate g' (xs ++ [e]) := by
  have hp : (xs ++ [e]).filterMap (fun e ↦ (e.deed gate).proposed?) =
      xs.filterMap fun e ↦ (e.deed gate).proposed? := by
    simp [he, Deed.proposed?]
  have hd : (xs ++ [e]).filterMap (fun e ↦ (e.deed gate).settled?) =
      xs.filterMap fun e ↦ (e.deed gate).settled? := by
    simp [he, Deed.settled?]
  constructor <;> simp only [hp, hd, hn, hs]
  exacts [h.increasing, h.proposed, h.once, h.settled, h.unsettled]

theorem propose {now : I64} (h : Numbered gate g xs) (he : e.deed gate = .propose now g'.nonce)
    (hn : g'.nonce.val = g.nonce.val + 1) : Numbered gate g' (xs ++ [e]) := by
  have hlt : g.nonce < g'.nonce := by
    rw [Fin.lt_def, hn]
    exact Nat.lt_succ_self _
  have hp : (xs ++ [e]).filterMap (fun e ↦ (e.deed gate).proposed?) =
      (xs.filterMap fun e ↦ (e.deed gate).proposed?) ++ [g'.nonce] := by
    simp [he, Deed.proposed?]
  have hd : (xs ++ [e]).filterMap (fun e ↦ (e.deed gate).settled?) =
      xs.filterMap fun e ↦ (e.deed gate).settled? := by
    simp [he, Deed.settled?]
  constructor <;> simp only [hp, hd]
  case increasing =>
    refine List.pairwise_append.mpr ⟨h.increasing, List.pairwise_singleton .., fun n hn m hm ↦ ?_⟩
    rw [List.mem_singleton.mp hm]
    exact (h.proposed n hn).trans_lt hlt
  case proposed =>
    intro n hn
    rcases List.mem_append.mp hn with hn | hn
    · exact ((h.proposed n hn).trans_lt hlt).le
    · exact (List.mem_singleton.mp hn).le
  case once => exact h.once
  case settled => exact fun n hn ↦ ((h.settled n hn).trans_lt hlt).le
  case unsettled => exact fun _ n hn ↦ (h.settled n hn).trans_lt hlt

theorem settle (h : Numbered gate g xs) (hpending : g.status = PENDING)
    (hp : (e.deed gate).proposed? = none) (hd : (e.deed gate).settled? = some g.nonce)
    (hn : g'.nonce = g.nonce) (hs : g'.status ≠ PENDING) : Numbered gate g' (xs ++ [e]) := by
  have hp' : (xs ++ [e]).filterMap (fun e ↦ (e.deed gate).proposed?) =
      xs.filterMap fun e ↦ (e.deed gate).proposed? := by
    simp [hp]
  have hd' : (xs ++ [e]).filterMap (fun e ↦ (e.deed gate).settled?) =
      (xs.filterMap fun e ↦ (e.deed gate).settled?) ++ [g.nonce] := by
    simp [hd]
  constructor <;> simp only [hp', hd', hn]
  case increasing => exact h.increasing
  case proposed => exact h.proposed
  case once =>
    refine List.pairwise_append.mpr ⟨h.once, List.pairwise_singleton .., fun n hn m hm ↦ ?_⟩
    rw [List.mem_singleton.mp hm]
    exact h.unsettled hpending n hn
  case settled =>
    intro n hn
    rcases List.mem_append.mp hn with hn | hn
    · exact h.settled n hn
    · exact (List.mem_singleton.mp hn).le
  case unsettled => exact fun h ↦ absurd h hs

end Numbered

/-! ## The invariant -/

/-- The gate `g` stands over its target, and a pending proposal over its buffer. -/
structure Sound (P : Platform) (target gate : Pubkey) (members : List Pubkey) (xs : List Event)
    (w : World) (g : UpgradeGateV1) : Prop where
  found : w.gates gate = some g
  program : g.target = target
  committee : g.members = members
  held : Held P target gate w
  pending : g.status = PENDING → g.executeAfter.val = g.createdAt.val + NOTICE ∧ ∃ bytes,
    Standing P gate members g bytes xs ∧
      w.loader g.buffer = some ⟨false, .buffer (some gate) bytes⟩
  numbered : Numbered gate g xs

theorem empty_ne_pending : EMPTY ≠ PENDING := by decide

theorem executed_ne_pending : EXECUTED ≠ PENDING := by decide

theorem cancelled_ne_pending : CANCELLED ≠ PENDING := by decide

theorem write_found (w : World) (key : Pubkey) (g : UpgradeGateV1) :
    (w.write key g).gates key = some g :=
  Function.update_self ..

/-- Handing a buffer over leaves the other accounts. -/
theorem Returned.kept {k : ReturnBuffer.Keys} {signers : List Pubkey} {A' : LoaderAccounts}
    (hP : P.toLoader.Lawful) (h : Returned P w k signers g A') {key : Pubkey}
    {account : LoaderAccount} (ha : w.loader key = some account)
    (hne : ∀ x bytes, key = k.buffer → account ≠ ⟨x, .buffer (some k.gate) bytes⟩) :
    A' key = some account := by
  obtain ⟨x, bytes, hb, rfl⟩ := hP.setBufferAuthority h.returned
  by_cases hkey : key = k.buffer
  · subst hkey
    exact absurd (Option.some.inj (ha.symm.trans hb)) (hne x bytes rfl)
  · rwa [Function.update_of_ne hkey]

theorem Returned.held {k : ReturnBuffer.Keys} {signers : List Pubkey} {A' : LoaderAccounts}
    (hP : P.toLoader.Lawful) (h : Returned P w k signers g A') (hw : Held P target gate w)
    (g' : UpgradeGateV1) (key : Pubkey) :
    Held P target gate (({ w with loader := A' } : World).write key g') := by
  obtain ⟨x, code, hd⟩ := hw
  exact ⟨x, code, h.kept hP hd (by simp)⟩

theorem Executed.held {now : I64} {k : ExecuteUpgrade.Keys} {nonce : U64} {A' : LoaderAccounts}
    (hP : P.toLoader.Lawful) (h : Executed P w now k nonce bytes g g' A') :
    ∃ x old, w.loader (P.programDataAddress g.target) = some ⟨x, .programData (some k.gate) old⟩ ∧
      A' (P.programDataAddress g.target) =
        some ⟨x, .programData (some k.gate) (installed bytes old)⟩ := by
  obtain ⟨x, y, old, bytes', hd, hb, hd', -⟩ := hP.upgrade h.upgraded
  have hbytes : bytes' = bytes := by
    injection Option.some.inj (hb.symm.trans h.buffer) with _ hstate
    injection hstate
  exact ⟨x, old, hd, hbytes ▸ hd'⟩

namespace Sound

theorem step (hP : P.toLoader.Lawful) (hs : Sound P target gate members xs w g)
    (h : (machine P target gate members).step w e w') :
    ∃ g', Sound P target gate members (xs ++ [e]) w' g' := by
  have hbefore : e.before = w := h.1
  have hafter : e.after = w' := h.2.1
  cases move hP hs.found h with
  | framed deed frame =>
    have keeps : (e.deed gate).Keeps := by
      rw [deed]
      trivial
    obtain ⟨x, code, hd⟩ := hs.held
    refine ⟨g, frame.same.trans hs.found, hs.program, hs.committee,
      ⟨x, code, frame.kept _ _ hd rfl⟩, fun hp ↦ ?_, hs.numbered.other deed rfl rfl⟩
    obtain ⟨hnotice, bytes, hstands, hb⟩ := hs.pending hp
    exact ⟨hnotice, bytes, hstands.next keeps, frame.kept _ _ hb rfl⟩
  | @proposed now signers k nonce codeHash bytes g' key signed deed effect after =>
    subst key after
    have hg' : { g' with lastActionAt := g'.createdAt } = g' := by
      rw [effect.proposed]
    have records : e.Records P k.gate members g' bytes := {
      deed := by
        rw [deed, effect.proposed]
      recorded := by
        rw [hafter, write_found, hg']
      hash := by
        rw [effect.proposed, effect.hash]
      length := by
        rw [effect.proposed]
      held := by
        rw [hbefore, effect.proposed]
        exact effect.buffer
      signed := by
        obtain ⟨hne, ha, hb⟩ := effect.quorum
        rw [hs.committee] at ha hb
        refine ⟨k.memberOne, k.memberTwo, hne, ha, hb, ?_⟩
        rw [signed, effect.proposed]
        exact ⟨effect.members.1, effect.members.2, effect.returnAuthority⟩ }
    have deed' : e.deed k.gate = .propose now g'.nonce := by
      rw [deed, effect.proposed]
    refine ⟨g', write_found .., ?_, ?_, hs.held, fun _ ↦ ⟨?_, bytes, .now records, ?_⟩,
      hs.numbered.propose deed' ?_⟩
    · rw [effect.proposed]
      exact hs.program
    · rw [effect.proposed]
      exact hs.committee
    · rw [effect.notice, effect.proposed]
    · rw [effect.proposed]
      exact effect.buffer
    · rw [effect.proposed]
      exact effect.next
  | @executed now k nonce bytes g' A' key deed effect after =>
    subst key after
    obtain ⟨x, old, -, hd'⟩ := effect.held hP
    have idle : g'.status ≠ PENDING := by
      rw [effect.executed]
      exact executed_ne_pending
    refine ⟨g', write_found .., ?_, ?_, ⟨x, installed bytes old, ?_⟩, fun hp ↦ absurd hp idle, ?_⟩
    · rw [effect.executed]
      exact hs.program
    · rw [effect.executed]
      exact hs.committee
    · rw [← hs.program]
      exact hd'
    · refine hs.numbered.settle effect.pending ?_ ?_ ?_ idle
      · rw [deed]
        rfl
      · rw [deed, effect.nonce]
        rfl
      · rw [effect.executed]
  | @cancelled now signers k A' key deed effect pending after =>
    subst key after
    refine ⟨_, write_found .., hs.program, hs.committee, effect.held hP hs.held _ _,
      fun hp ↦ absurd hp cancelled_ne_pending,
      hs.numbered.settle pending ?_ ?_ rfl cancelled_ne_pending⟩
    · rw [deed]
      rfl
    · rw [deed]
      rfl
  | @returned now signers k A' key deed effect idle after =>
    subst key after
    have keeps : (e.deed k.gate).Keeps := by
      rw [deed]
      trivial
    refine ⟨_, write_found .., hs.program, hs.committee, effect.held hP hs.held _ _, fun hp ↦ ?_,
      hs.numbered.other deed rfl rfl⟩
    obtain ⟨hnotice, bytes, hstands, hb⟩ := hs.pending hp
    have hne : g.buffer ≠ k.buffer := idle.resolve_left fun hn ↦ hn hp
    have records : Standing P k.gate members { g with lastActionAt := now } bytes xs :=
      hstands.mono (fun _ _ hr ↦ { hr with }) fun _ hm ↦ hm
    exact ⟨hnotice, bytes, records.next keeps, effect.kept hP hb fun _ _ heq ↦ absurd heq hne⟩

theorem opened (hP : P.toLoader.Lawful) (h : (machine P target gate members).opens e w) :
    ∃ g, Sound P target gate members [e] w g := by
  obtain ⟨before, action, after⟩ := e
  obtain ⟨-, hallowed, -, now, signers, k, rfl, rfl, rfl, rfl⟩ := h
  obtain ⟨g, A', hi, rfl⟩ := process_initializeGate hallowed
  obtain ⟨x, code, -, rfl⟩ := hP.setUpgradeAuthority hi.transferred
  have deed : (Event.mk before (.instruction ⟨now, signers, .initializeGate k⟩) after).deed k.gate =
      .other := by
    simp only [Event.deed, ite_self]
  refine ⟨g, write_found .., by rw [hi.opened], by rw [hi.opened],
    ⟨x, code, Function.update_self ..⟩, fun hp ↦ ?_, ?_⟩
  · rw [hi.opened] at hp
    exact absurd hp empty_ne_pending
  · constructor <;> simp [deed, Deed.proposed?, Deed.settled?]

theorem path (hP : P.toLoader.Lawful) (h : (machine P target gate members).Path xs w) :
    ∃ g, Sound P target gate members xs w g :=
  h.invariant (I := fun xs w ↦ ∃ g, Sound P target gate members xs w g) (opened hP)
    fun _ ⟨_, hs⟩ he ↦ hs.step hP he

end Sound

/-! ## Results -/

/-- The step installs a buffer that the gate's members proposed ninety days ago. -/
structure Installs (P : Platform) (target gate : Pubkey) (members : List Pubkey) (xs : List Event)
    (w : World) (e : Event) (w' : World) (g : UpgradeGateV1) (now : I64) (bytes : Bytes) : Prop where
  deed : e.deed gate = .execute now g.nonce
  notice : g.createdAt.val + 90 * 86400 ≤ now.val
  standing : Standing P gate members g bytes xs
  installed : ∃ x old, w.loader (P.programDataAddress target) =
      some ⟨x, .programData (some gate) old⟩ ∧
    w'.loader (P.programDataAddress target) =
      some ⟨x, .programData (some gate) (installed bytes old)⟩

/-- While the proposal of `g` is pending. -/
structure Pending (P : Platform) (target gate : Pubkey) (members : List Pubkey) (w : World)
    (g : UpgradeGateV1) (bytes : Bytes) : Prop where
  hash : g.codeHash = P.sha256 bytes
  length : g.codeLen = U64.ofNat bytes.length
  buffer : w.loader g.buffer = some ⟨false, .buffer (some gate) bytes⟩
  /-- No other upgrade is proposed. -/
  closed : ∀ {now signers k nonce codeHash w'}, k.gate = gate →
    process P w ⟨now, signers, .proposeUpgrade k nonce codeHash⟩ ≠ .ok w'
  /-- The buffer stays as it is until the proposal is settled. -/
  kept : ∀ {e w'}, (machine P target gate members).step w e w' →
    (e.deed gate).settled? = some g.nonce ∨
      (∃ t, w'.gates gate = some { g with lastActionAt := t }) ∧
        w'.loader g.buffer = w.loader g.buffer

/-- What holds of a target and its gate after the history. -/
structure Guarded (P : Platform) (target gate : Pubkey) (members : List Pubkey) (xs : List Event)
    (w : World) : Prop where
  authority : Held P target gate w
  code : ∀ {e w'}, (machine P target gate members).step w e w' →
    w'.loader (P.programDataAddress target) = w.loader (P.programDataAddress target) ∨
      ∃ g now bytes, Installs P target gate members xs w e w' g now bytes
  execution : ∀ {e w' now nonce}, (machine P target gate members).step w e w' →
    e.deed gate = .execute now nonce →
      ∃ g bytes, Installs P target gate members xs w e w' g now bytes
  pending : ∀ {g}, w.gates gate = some g → g.status = PENDING →
    ∃ bytes, Pending P target gate members w g bytes
  /-- Each proposal waits for ninety days, whatever its buffer waited before. -/
  restarts : ∀ {e w' now nonce}, (machine P target gate members).step w e w' →
    e.deed gate = .propose now nonce → ∃ g, w'.gates gate = some g ∧ g.nonce = nonce ∧
      g.status = PENDING ∧ g.createdAt = now ∧ g.executeAfter.val = now.val + 90 * 86400
  increasing : (xs.filterMap fun e ↦ (e.deed gate).proposed?).Pairwise (· < ·)
  once : (xs.filterMap fun e ↦ (e.deed gate).settled?).Nodup

theorem Sound.installs {now : I64} {k : ExecuteUpgrade.Keys} {nonce : U64} {A' : LoaderAccounts}
    (hP : P.toLoader.Lawful) (hs : Sound P target gate members xs w g) (key : k.gate = gate)
    (deed : e.deed gate = .execute now nonce) (h : Executed P w now k nonce bytes g g' A') :
    Installs P target gate members xs w e (({ w with loader := A' } : World).write gate g') g now
      bytes := by
  obtain ⟨hnotice, bytes', hstands, hb⟩ := hs.pending h.pending
  have hbytes : bytes' = bytes := by
    injection Option.some.inj (hb.symm.trans (key ▸ h.buffer)) with _ hstate
    injection hstate
  subst hbytes
  have hwait : g.executeAfter.val ≤ now.val := h.notice
  rw [hnotice] at hwait
  have hheld := h.held hP
  rw [hs.program, key] at hheld
  exact ⟨h.nonce ▸ deed, hwait, hstands, hheld⟩

theorem Sound.stays (hP : P.toLoader.Lawful) (hs : Sound P target gate members xs w g)
    (hpending : g.status = PENDING) (h : (machine P target gate members).step w e w') :
    (e.deed gate).settled? = some g.nonce ∨
      (∃ t, w'.gates gate = some { g with lastActionAt := t }) ∧
        w'.loader g.buffer = w.loader g.buffer := by
  obtain ⟨-, bytes, -, hb⟩ := hs.pending hpending
  cases move hP hs.found h with
  | framed deed frame =>
    refine .inr ⟨⟨g.lastActionAt, frame.same.trans hs.found⟩, ?_⟩
    rw [frame.kept _ _ hb rfl, hb]
  | proposed key signed deed effect after => exact absurd hpending effect.idle
  | executed key deed effect after =>
    left
    rw [deed, effect.nonce]
    rfl
  | cancelled key deed effect pending after =>
    left
    rw [deed]
    rfl
  | @returned now signers k A' key deed effect idle after =>
    subst key after
    have hne : g.buffer ≠ k.buffer := idle.resolve_left fun hn ↦ hn hpending
    refine .inr ⟨⟨now, write_found ..⟩, ?_⟩
    rw [hb]
    exact effect.kept hP hb fun _ _ heq ↦ absurd heq hne

theorem Sound.isPending (hP : P.toLoader.Lawful) (hs : Sound P target gate members xs w g)
    (hpending : g.status = PENDING) : ∃ bytes, Pending P target gate members w g bytes := by
  obtain ⟨-, bytes, hstands, hb⟩ := hs.pending hpending
  obtain ⟨_, p, _, -, hrec, -⟩ := hstands
  refine ⟨bytes, hrec.hash, hrec.length, hb, ?_, hs.stays hP hpending⟩
  rintro now signers k nonce codeHash w' rfl hp
  obtain ⟨_, g₀, _, heffect, -⟩ := process_proposeUpgrade hp
  obtain rfl : g₀ = g := Option.some.inj (heffect.gate.symm.trans hs.found)
  exact heffect.idle hpending

/-- The gate cannot be bypassed: in every run of gate and loader instructions after its opening the
target's authority is the gate, and its code changes only by the execution of a proposal that two
members signed ninety days before, for the bytes that are installed. -/
theorem guarded (hP : P.toLoader.Lawful) (h : (machine P target gate members).Path xs w) :
    Guarded P target gate members xs w := by
  obtain ⟨g, hs⟩ := Sound.path hP h
  have same : ∀ {g'}, w.gates gate = some g' → g' = g := fun h' ↦
    Option.some.inj (h'.symm.trans hs.found)
  refine {
    authority := hs.held
    code := ?code
    execution := ?execution
    pending := fun h' hp ↦ same h' ▸ hs.isPending hP (same h' ▸ hp)
    restarts := ?restarts
    increasing := hs.numbered.increasing
    once := hs.numbered.once.imp fun h ↦ h.ne }
  case code =>
    intro e w' he
    obtain ⟨x, code, hd⟩ := hs.held
    cases move hP hs.found he with
    | framed deed frame => exact .inl ((frame.kept _ _ hd rfl).trans hd.symm)
    | proposed key signed deed effect after => exact .inl (after ▸ rfl)
    | executed key deed effect after =>
      exact .inr ⟨g, _, _, after ▸ hs.installs hP key deed effect⟩
    | cancelled key deed effect pending after =>
      exact .inl (after ▸ (effect.kept hP hd (by simp)).trans hd.symm)
    | returned key deed effect idle after =>
      exact .inl (after ▸ (effect.kept hP hd (by simp)).trans hd.symm)
  case execution =>
    intro e w' now nonce he hdeed
    cases move hP hs.found he with
    | executed key deed effect after =>
      obtain ⟨rfl, rfl⟩ := Deed.execute.inj (hdeed.symm.trans deed)
      exact ⟨g, _, after ▸ hs.installs hP key deed effect⟩
    | framed deed => exact Deed.noConfusion (hdeed.symm.trans deed)
    | proposed _ _ deed => exact Deed.noConfusion (hdeed.symm.trans deed)
    | cancelled _ deed => exact Deed.noConfusion (hdeed.symm.trans deed)
    | returned _ deed => exact Deed.noConfusion (hdeed.symm.trans deed)
  case restarts =>
    intro e w' now nonce he hdeed
    cases move hP hs.found he with
    | @proposed _ _ _ _ _ _ g' key signed deed effect after =>
      obtain ⟨rfl, rfl⟩ := Deed.propose.inj (hdeed.symm.trans deed)
      subst after
      refine ⟨g', write_found .., ?_, ?_, ?_, effect.notice⟩ <;> rw [effect.proposed]
    | framed deed => exact Deed.noConfusion (hdeed.symm.trans deed)
    | executed _ deed => exact Deed.noConfusion (hdeed.symm.trans deed)
    | cancelled _ deed => exact Deed.noConfusion (hdeed.symm.trans deed)
    | returned _ deed => exact Deed.noConfusion (hdeed.symm.trans deed)

/-! ## A run -/

/-- The accepted instructions, and the world they lead to. -/
def replay (P : Platform) : World → List (Tx Instruction) → List Event × World :=
  replayed (process P) fun w tx w' ↦ ⟨w, .instruction tx, w'⟩

theorem replay_steps {txs : List (Tx Instruction)} (h : ∀ tx ∈ txs, gate ∉ tx.signers) :
    (machine P target gate members).Steps w (replay P w txs).1 (replay P w txs).2 := by
  refine replayed_induction .refl (fun {w tx w' _ _} htx hp hs ↦ ?_) fun _ hs ↦ hs
  have hstep : (machine P target gate members).step w ⟨w, .instruction tx, w'⟩ w' :=
    ⟨rfl, rfl, hp, h tx htx⟩
  exact .cons hstep hs

/-- A replay that starts with the opening of a gate. -/
theorem replay_path {signers : List Pubkey} {now : I64} {k : InitializeGate.Keys}
    {txs : List (Tx Instruction)}
    (hopen : (process P w ⟨now, signers, .initializeGate k⟩).toOption.isSome)
    (hs : k.gate ∉ signers) (h : ∀ tx ∈ txs, k.gate ∉ tx.signers) :
    (machine P k.target k.gate [k.memberOne, k.memberTwo, k.memberThree]).Path
      (replay P w (⟨now, signers, .initializeGate k⟩ :: txs)).1
      (replay P w (⟨now, signers, .initializeGate k⟩ :: txs)).2 := by
  unfold replay replayed
  split
  · next w' hp =>
    have hopened : (machine P k.target k.gate [k.memberOne, k.memberTwo, k.memberThree]).opens
        ⟨w, .instruction ⟨now, signers, .initializeGate k⟩, w'⟩ w' :=
      ⟨rfl, hp, hs, now, signers, k, rfl, rfl, rfl, rfl⟩
    exact (Machine.Path.opened hopened).append (replay_steps h)
  · next hp =>
    rw [hp] at hopen
    exact absurd hopen (by simp [Except.toOption])

end Gate

namespace Sample

def target : Pubkey := repeated 1
def memberOne : Pubkey := repeated 3
def memberTwo : Pubkey := repeated 6
def memberThree : Pubkey := repeated 9
/-- The holder of the target, who writes the buffer and gets it back. -/
def author : Pubkey := repeated 10
def buffer : Pubkey := repeated 11

def programdata : Pubkey :=
  spelled 0x17d6300b8533ab530e11fa088817faa8d7d90e2cca9b8b615710a222de76e8b1
def gateProgramdata : Pubkey :=
  spelled 0xcf27b4a4a47923e046e5314550329458e93c644fff1a22579e0c86a0a0efbfd5
def gate : Pubkey := spelled 0xb021707550664b18a03dc5d0a9dee1df0f063b23e10925f4db3606f65319e028

/-- The bytes of the buffer, and their hash. -/
def code : Bytes := [4, 5, 6]
def codeHash : Bytes32 :=
  spelled 0x787c798e39a5bc1910355bae6d0cd87a36b2e10fd0202a83e3bb6b005da83472

def platform : Platform where
  toChain := searchChain [⟨(gateSeeds target).flatten, ID, [], gate⟩] [(code, codeHash)]
  toLoader := Loader.documented fun key ↦ if key = ID then gateProgramdata else programdata
  testProfile := true

/-- The target in the author's hands, the sealed gate program, and a buffer in the gate's hands. -/
def genesis : World where
  gates _ := none
  loader key :=
    if key = target then some ⟨true, .program programdata⟩
    else if key = programdata then some ⟨false, .programData (some author) [1, 2, 3, 4]⟩
    else if key = gateProgramdata then some ⟨false, .programData none []⟩
    else if key = buffer then some ⟨false, .buffer (some gate) code⟩
    else none

def opening : InitializeGate.Keys where
  payer := author
  memberOne
  memberTwo
  memberThree
  currentAuthority := author
  target
  programdata
  gateProgramdata
  gate

def execution : ExecuteUpgrade.Keys where
  gate
  target
  programdata
  buffer
  spill := author

/-- A proposal, its execution a second early, and its execution. -/
def upgrade : List (Tx Instruction) := [
  ⟨clockAt 200, [memberOne, memberThree, author],
    .proposeUpgrade ⟨memberOne, memberThree, author, gate, buffer⟩ 1 codeHash⟩,
  ⟨clockAt 7776199, [], .executeUpgrade execution 1⟩,
  ⟨clockAt 7776200, [], .executeUpgrade execution 1⟩]

def run : List Event × World :=
  replay platform genesis
    (⟨clockAt 100, [author, memberOne, memberTwo, memberThree], .initializeGate opening⟩ :: upgrade)

end Sample

/-- Ninety days after its proposal the buffer is installed, filled up with a zero. -/
theorem guarded_sample : Sample.run.1.length = 3 ∧
    Sample.run.2.loader Sample.programdata =
      some ⟨false, .programData (some Sample.gate) [4, 5, 6, 0]⟩ ∧
    Guarded Sample.platform Sample.target Sample.gate
      [Sample.memberOne, Sample.memberTwo, Sample.memberThree] Sample.run.1 Sample.run.2 :=
  ⟨by decide +kernel, by decide +kernel, guarded (Loader.documented_lawful _)
    (replay_path (k := Sample.opening) (by decide +kernel) (by decide) (by decide))⟩

end FundingVaults.UpgradeGate
