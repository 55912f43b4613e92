import FundingVaults.LaunchV7.Program
import FundingVaults.LaunchV7.Specs

/-!
# The program refines the machine of every policy

An accepted transaction names one policy and is a step of that policy's machine; the views of all
other policies stay as they are.  A history of the program is then, for every policy, a path of
its machine: `history P tr` are the accepted instructions on `P`.
-/

namespace FundingVaults.LaunchV7

/-! ## Reading transactions -/

/-- The policy a transaction names, and what it does there. -/
def Tx.act (L : Ledger) (tx : Tx) : Option (Pubkey × Act) :=
  match tx.instruction with
  | .preparePolicy .. => none
  | .openPreparedPolicy k => some (k.policy, .openPolicy)
  | .deposit k role amount =>
      (Role.ofU8 role).map fun r ↦ (k.policy, .deposit r k.authority k.depositor amount)
  | .arm k => some (k.policy, .arm)
  | .activate k => some (k.policy, .activate)
  | .cancel k => some (k.policy, .cancel)
  | .expireUnarmed k => some (k.policy, .expireUnarmed)
  | .refund k => some (k.policy, .refund)
  | .reportCapacity k capacity observedAt sequence epoch =>
      some (k.policy, .report k.oracle capacity observedAt sequence epoch)
  | .approveTreasury k period need epoch =>
      (L.tokens.account k.recipient).map fun t ↦
        (k.policy, .approve k.treasury period need epoch k.recipient t.owner)
  | .release k amount epoch => do
      let v ← (L.program k.vault).bind ProgramAccount.vault?
      let r ← Role.ofU8 v.role
      let t ← L.tokens.account k.destination
      some (k.policy, .release r k.authority amount epoch k.destination t.owner)
  | .prepareWithdrawalKey k subject => some (k.policy, .prepareKey subject)
  | .proposeWithdrawal k role recovery nonce epoch validFrom validUntil predecessor =>
      (Role.ofU8 role).map fun r ↦ (k.policy, .propose {
        role := r, recovery, nonce, epoch, validFrom, validUntil, predecessor
        successor := k.successor, initiator := k.initiator, cosigner := k.cosigner })
  | .executeWithdrawal k => do
      let q ← (L.program k.proposal).bind ProgramAccount.withdrawal?
      let r ← Role.ofU8 q.role
      some (k.policy, .execute r q)
  | .cancelWithdrawal k => do
      let q ← (L.program k.proposal).bind ProgramAccount.withdrawal?
      let r ← Role.ofU8 q.role
      some (k.policy, .cancelRotation r q k.initiator k.cosigner)
  | .expireWithdrawal k => do
      let q ← (L.program k.proposal).bind ProgramAccount.withdrawal?
      let r ← Role.ofU8 q.role
      some (k.policy, .expire r q)
  | .proposeChange k kind recovery nonce =>
      some (k.policy, .proposeChange {
        kind, recovery, nonce
        successor := k.successor, initiator := k.initiator, cosigner := k.cosigner })
  | .cancelChange k => do
      let q ← (L.program k.proposal).bind ProgramAccount.changeProposal?
      some (k.policy, .cancelChange q k.initiator k.cosigner)
  | .executeChange k => do
      let q ← (L.program k.proposal).bind ProgramAccount.changeProposal?
      some (k.policy, .executeChange q)

/-- What an accepted transaction did to `P`. -/
def Entry.event (P : Pubkey) (e : Entry) : Option Event :=
  (e.tx.act e.before).bind fun (Q, act) ↦
    if Q = P then some ⟨e.tx.now, e.tx.signers, act⟩ else none

/-- The accepted instructions on `P`, in order. -/
def history (P : Pubkey) (tr : List Entry) : List Event := tr.filterMap (Entry.event P)

@[simp] theorem history_append (P : Pubkey) (tr tr' : List Entry) :
    history P (tr ++ tr') = history P tr ++ history P tr' :=
  List.filterMap_append

/-! ## Refinement of one transaction -/

/-- The transaction from `L` to `L'` is a step of the machine of `P` and touches no other
policy. -/
structure Refines (chain : Chain) (L L' : Ledger) (P : Pubkey) (e : Event) : Prop where
  sound : L'.Sound chain
  step : ∃ V V', L.view chain P = some V ∧ L'.view chain P = some V' ∧ Step P V e V'
  frame : ∀ Q, Q ≠ P → L'.view chain Q = L.view chain Q

section Congr

variable {chain : Chain} {L L' : Ledger}

theorem Ledger.view_congr (h : L'.program = L.program) (P : Pubkey) :
    L'.view chain P = L.view chain P := by
  unfold view policyAt find
  rw [h]

theorem Ledger.Sound.congr (hL : L.Sound chain) (h : L'.program = L.program) :
    L'.Sound chain where
  canonical hk := hL.canonical (h ▸ hk)
  bound hk hP := by
    rw [h] at hk ⊢
    exact hL.bound hk hP

theorem Ledger.transfer_eq_ok {t : TransferChecked} :
    L.transfer chain t = .ok L' ↔
      ∃ tokens, chain.transferChecked L.tokens t = some tokens ∧ { L with tokens } = L' := by
  simp [transfer]

theorem Ledger.program_of_vacant {key : Pubkey} (h : L.vacant key) : L.program key = none := by
  simp_all [vacant]

end Congr

section Refines

variable {chain : Chain} {L L' : Ledger} {P : Pubkey} {V : View} {e : Event}
  {ws : List (Pubkey × ProgramAccount)}

/-- Only the program's accounts matter. -/
theorem Refines.congr {L'' : Ledger} (h : Refines chain L L' P e)
    (hp : L''.program = L'.program) : Refines chain L L'' P e where
  sound := h.sound.congr hp
  step := by
    obtain ⟨V, V', hV, hV', hs⟩ := h.step
    exact ⟨V, V', hV, (Ledger.view_congr hp P).trans hV', hs⟩
  frame Q hQ := (Ledger.view_congr hp Q).trans (h.frame Q hQ)

theorem Refines.of_commits (ws : List (Pubkey × ProgramAccount)) (hL : L.Sound chain)
    (hV : L.view chain P = some V) (hc : Commits chain L P ws) (hs : Step P V e (V.puts ws)) :
    Refines chain L (L.writes ws) P e where
  sound := hc.sound hL ⟨_, Ledger.view_policy hV⟩
  step := ⟨V, _, hV, hc.view hV, hs⟩
  frame _ hQ := hc.frame hQ

/-- A write of an existing account in place. -/
theorem Ledger.Sound.writable (hL : L.Sound chain) {key : Pubkey} {a b : ProgramAccount}
    (hb : L.program key = some b) (hs : a.seeds = b.seeds) (hbump : a.bump = b.bump) :
    Writable chain L key a where
  canonical := {
    address := by rw [hs, (hL.canonical hb).address]
    bump := by rw [hs, hbump, (hL.canonical hb).bump] }
  same c hc := by rw [hs, Option.some.inj (hc.symm.trans hb)]

/-- A write of a new account at a vacant derived address. -/
theorem Writable.vacant {s : Seeds} {a : ProgramAccount} (hv : L.program (s.address chain) = none)
    (hs : a.seeds = s) (hbump : a.bump = s.bump chain) :
    Writable chain L (s.address chain) a where
  canonical := {
    address := by rw [hs]
    bump := by rw [hs, hbump] }
  same c hc := by simp [hv] at hc

theorem Commits.nil : Commits chain L P [] where
  nodup := List.nodup_nil
  writable := by simp
  owned := by simp

theorem Commits.cons {key : Pubkey} {a : ProgramAccount} (hc : Commits chain L P ws)
    (hw : Writable chain L key a) (ho : OwnedBy P key a) (hne : ∀ w ∈ ws, w.1 ≠ key) :
    Commits chain L P ((key, a) :: ws) where
  nodup := by
    refine List.nodup_cons.mpr ⟨?_, hc.nodup⟩
    intro hk
    obtain ⟨w, hw, he⟩ := List.mem_map.mp hk
    exact hne w hw he
  writable := List.forall_mem_cons.mpr ⟨hw, hc.writable⟩
  owned := List.forall_mem_cons.mpr ⟨ho, hc.owned⟩

/-- The policy's own account is committed with the same identity and bump. -/
theorem Commits.policy (hL : L.Sound chain) (hV : L.view chain P = some V) {p : LaunchPolicyV7}
    (hc : Commits chain L P ws) (hid : p.identity = V.policy.identity)
    (hbump : p.bump = V.policy.bump)
    (hws : ∀ w ∈ ws, ∀ q, L.program w.1 ≠ some (.policy q)) :
    Commits chain L P ((P, .policy p) :: ws) := by
  have hP := Ledger.view_policy hV
  refine hc.cons (hL.writable hP (congrArg Seeds.policy hid) hbump) rfl ?_
  rintro w hw rfl
  exact hws w hw _ hP

/-! A transfer changes token accounts before the program's accounts are written, so the writes go
to a ledger `L₁` that agrees with `L` on the latter. -/

variable {L₁ : Ledger} (hL : L.Sound chain) (hV : L.view chain P = some V)
  (h₁ : L₁.program = L.program) {p : LaunchPolicyV7}
  (hid : p.identity = V.policy.identity) (hbump : p.bump = V.policy.bump)
include hL hV h₁ hid hbump

/-- An instruction that commits the policy alone. -/
theorem Refines.policy (hs : Step P V e (V.put (.policy p))) :
    Refines chain L (L₁.write P (.policy p)) P e := by
  refine (Refines.of_commits _ hL hV (.policy hL hV .nil hid hbump (by simp)) hs).congr ?_
  simp [Ledger.write, Ledger.writes, h₁]

variable {key key' : Pubkey} {a a' : ProgramAccount} (hw : Writable chain L key a)
  (ho : OwnedBy P key a) (hne : ∀ q, L.program key ≠ some (.policy q))
include hw ho hne

/-- An instruction that commits the policy and one account of it. -/
theorem Refines.policy_one (hs : Step P V e ((V.put (.policy p)).put a)) :
    Refines chain L ((L₁.write P (.policy p)).write key a) P e := by
  refine (Refines.of_commits _ hL hV
    (.policy hL hV (Commits.nil.cons hw ho (by simp)) hid hbump (by simpa)) hs).congr ?_
  simp [Ledger.write, Ledger.writes, h₁]

/-- An instruction that commits the policy and two accounts of it. -/
theorem Refines.policy_two (hw' : Writable chain L key' a') (ho' : OwnedBy P key' a')
    (hne' : ∀ q, L.program key' ≠ some (.policy q)) (hkeys : L.program key' ≠ L.program key)
    (hs : Step P V e (((V.put (.policy p)).put a).put a')) :
    Refines chain L (((L₁.write P (.policy p)).write key a).write key' a') P e := by
  refine (Refines.of_commits _ hL hV (.policy hL hV
    ((Commits.nil.cons hw' ho' (by simp)).cons hw ho ?_) hid hbump ?_) hs).congr ?_
  · simp only [List.mem_singleton, forall_eq]
    exact fun h ↦ hkeys (congrArg _ h)
  · simpa using ⟨hne, hne'⟩
  · simp [Ledger.write, Ledger.writes, h₁]

end Refines

/-! ## The instructions

Each of the following reads the loads and the handler of one instruction off its success. -/

section Instructions

variable {d : Deployment} {L L' : Ledger} {now : I64} {signers : List Pubkey}
  (hL : L.Sound d.toChain)
include hL

theorem refines_arm {k : Control.Keys} (h : process d L ⟨now, signers, .arm k⟩ = .ok L') :
    Refines d.toChain L L' k.policy ⟨now, signers, .arm⟩ := by
  simp only [process, Control.load, bind_eq_ok, require_eq_ok, pure_eq_ok, signer_eq_ok,
    loadPolicy_eq_ok (fun _ ↦ hL.canonical), arm_eq_ok, exists_const] at h
  obtain ⟨_, ⟨hs, ⟨_, p⟩, ⟨hp, rfl⟩, hc, rfl⟩, _, ⟨htick, hst, ht0, hf, rfl⟩, rfl⟩ := h
  obtain ⟨V, hV, rfl⟩ := Ledger.exists_view d.toChain hp
  exact .policy hL hV (by rfl) (by rfl) (by rfl) (.arm htick hst ht0 hf (hc ▸ hs))

theorem refines_activate {k : PolicyOnly.Keys}
    (h : process d L ⟨now, signers, .activate k⟩ = .ok L') :
    Refines d.toChain L L' k.policy ⟨now, signers, .activate⟩ := by
  simp only [process, PolicyOnly.load, bind_eq_ok, pure_eq_ok,
    loadPolicy_eq_ok (fun _ ↦ hL.canonical), activate_eq_ok] at h
  obtain ⟨_, ⟨⟨_, p⟩, ⟨hp, rfl⟩, rfl⟩, _, ⟨htick, hst, ht0, rfl⟩, rfl⟩ := h
  obtain ⟨V, hV, rfl⟩ := Ledger.exists_view d.toChain hp
  exact .policy hL hV (by rfl) (by rfl) (by rfl) (.activate htick hst ht0)

theorem refines_cancel {k : ConsentControl.Keys}
    (h : process d L ⟨now, signers, .cancel k⟩ = .ok L') :
    Refines d.toChain L L' k.policy ⟨now, signers, .cancel⟩ := by
  simp only [process, ConsentControl.load, bind_eq_ok, require_eq_ok, pure_eq_ok, signer_eq_ok,
    loadPolicy_eq_ok (fun _ ↦ hL.canonical), cancel_eq_ok, exists_const] at h
  obtain ⟨_, ⟨hsc, hsf, hst, ⟨_, p⟩, ⟨hp, rfl⟩, hc, hf, ht, rfl⟩, _, ⟨htick, hstate, ht0, rfl⟩,
    rfl⟩ := h
  obtain ⟨V, hV, rfl⟩ := Ledger.exists_view d.toChain hp
  refine .policy hL hV (by rfl) (by rfl) (by rfl) (.cancel htick hstate ht0 ⟨hc ▸ hsc, ?_⟩)
  rintro (_ | _)
  · exact hf ▸ hsf
  · exact ht ▸ hst

theorem refines_expireUnarmed {k : PolicyOnly.Keys}
    (h : process d L ⟨now, signers, .expireUnarmed k⟩ = .ok L') :
    Refines d.toChain L L' k.policy ⟨now, signers, .expireUnarmed⟩ := by
  simp only [process, PolicyOnly.load, bind_eq_ok, pure_eq_ok,
    loadPolicy_eq_ok (fun _ ↦ hL.canonical), expireUnarmed_eq_ok] at h
  obtain ⟨_, ⟨⟨_, p⟩, ⟨hp, rfl⟩, rfl⟩, _, ⟨htick, hst, ht0, rfl⟩, rfl⟩ := h
  obtain ⟨V, hV, rfl⟩ := Ledger.exists_view d.toChain hp
  exact .policy hL hV (by rfl) (by rfl) (by rfl) (.expireUnarmed htick hst ht0)

theorem refines_refund {k : Refund.Keys} (h : process d L ⟨now, signers, .refund k⟩ = .ok L') :
    Refines d.toChain L L' k.policy ⟨now, signers, .refund⟩ := by
  simp only [process, Refund.load, checkFound, bind_eq_ok, pure_eq_ok, signer_eq_ok, hasOne_eq_ok,
    require_eq_ok, tokenAuthority_eq_ok, loadPolicy_eq_ok (fun _ ↦ hL.canonical), refund_eq_ok,
    Ledger.transfer_eq_ok, Prod.exists, exists_const] at h
  obtain ⟨_, ⟨-, ⟨_, p⟩, ⟨hp, rfl⟩, -, v, -, -, m, -, -, vt, -, -, dest, -, -, rfl⟩, p', t,
    ⟨htick, hst, -, -, rfl, rfl⟩, L₁, ⟨tokens, -, rfl⟩, rfl⟩ := h
  obtain ⟨V, hV, rfl⟩ := Ledger.exists_view d.toChain hp
  exact .policy hL hV (by rfl) (by rfl) (by rfl) (.refund htick hst)

theorem refines_report {k : Report.Keys} {capacity : U64} {observedAt : I64} {sequence epoch : U64}
    (h : process d L ⟨now, signers, .reportCapacity k capacity observedAt sequence epoch⟩ =
      .ok L') :
    Refines d.toChain L L' k.policy
      ⟨now, signers, .report k.oracle capacity observedAt sequence epoch⟩ := by
  simp only [process, Report.load, bind_eq_ok, pure_eq_ok, signer_eq_ok, hasOne_eq_ok,
    loadPolicy_eq_ok (fun _ ↦ hL.canonical), reportCapacity_eq_ok, exists_const] at h
  obtain ⟨_, ⟨hs, ⟨_, p⟩, ⟨hp, rfl⟩, ho, rfl⟩, _, ⟨htick, hst, period, hper, hepoch, hact, hseq,
    hlat, hstart, hobs, hfresh, rfl⟩, rfl⟩ := h
  obtain ⟨V, hV, rfl⟩ := Ledger.exists_view d.toChain hp
  exact .policy hL hV (by rfl) (by rfl) (by rfl)
    (.report ⟨htick, hst, hper, ho, hs, hepoch, hact, hseq, hlat, hstart, hobs, hfresh⟩)

theorem refines_deposit {k : Deposit.Keys} {b : U8} {amount : U64}
    (h : process d L ⟨now, signers, .deposit k b amount⟩ = .ok L') :
    ∃ r : Role, b = r.toU8 ∧ Refines d.toChain L L' k.policy
      ⟨now, signers, .deposit r k.authority k.depositor amount⟩ := by
  simp only [process, Deposit.load, bind_eq_ok, pure_eq_ok, require_eq_ok, signer_eq_ok,
    hasOne_eq_ok, tokenAuthority_eq_ok, loadPolicy_eq_ok (fun _ ↦ hL.canonical), loadInit_eq_ok,
    deposit_eq_ok, Ledger.transfer_eq_ok, Prod.exists, exists_const] at h
  obtain ⟨_, ⟨hsc, hsd, hsa, ⟨_, p⟩, ⟨hp, rfl⟩, hctrl, -, m, -, src, -, -, vi, ⟨haddr, hvac, rfl⟩,
    vt, -, -, rfl⟩, p', v', t, ⟨htick, hst, ht0, r, rfl, hpend, hcur, rfl, -, hmask, rfl, rfl, -⟩,
    L₁, ⟨tokens, -, rfl⟩, rfl⟩ := h
  obtain ⟨V, hV, rfl⟩ := Ledger.exists_view d.toChain hp
  have hnone := Ledger.program_of_vacant hvac
  refine ⟨r, rfl, .policy_one hL hV (by rfl) (by rfl) (by rfl) ?writable ?owned ?fresh
    (.deposit ⟨htick, hst, ht0, hpend, hcur, hmask, ?vacant, hctrl ▸ hsc, hsd, hsa⟩)⟩
  case writable =>
    rw [← haddr] at hnone ⊢
    exact .vacant hnone rfl rfl
  case owned => rfl
  case fresh => simp [hnone]
  case vacant =>
    rw [View.vault_eq hV]
    exact Ledger.find_of_vacant (haddr ▸ hvac)

theorem refines_prepareKey {k : PrepareWithdrawalKey.Keys} {subject : Pubkey}
    (h : process d L ⟨now, signers, .prepareWithdrawalKey k subject⟩ = .ok L') :
    Refines d.toChain L L' k.policy ⟨now, signers, .prepareKey subject⟩ := by
  simp only [process, PrepareWithdrawalKey.load, bind_eq_ok, pure_eq_ok, signer_eq_ok,
    loadPolicy_eq_ok (fun _ ↦ hL.canonical), loadInit_eq_ok, Withdrawal.prepareKey_eq_ok,
    exists_const] at h
  obtain ⟨_, ⟨-, ⟨_, p⟩, ⟨hp, rfl⟩, ki, ⟨haddr, hvac, rfl⟩, rfl⟩, _, ⟨hz, hst, rfl⟩, rfl⟩ := h
  obtain ⟨V, hV, rfl⟩ := Ledger.exists_view d.toChain hp
  have hnone := Ledger.program_of_vacant hvac
  refine .of_commits [(k.record, _)] hL hV (Commits.nil.cons ?writable ?owned (by simp))
    (.prepareKey hz hst ?vacant)
  case writable =>
    rw [← haddr] at hnone ⊢
    exact .vacant hnone rfl rfl
  case owned => rfl
  case vacant =>
    rw [View.record_eq hV]
    exact Ledger.find_of_vacant (haddr ▸ hvac)

theorem refines_approve {k : ApproveTreasury.Keys} {period need epoch : U64}
    (h : process d L ⟨now, signers, .approveTreasury k period need epoch⟩ = .ok L') :
    ∃ t, L.tokens.account k.recipient = some t ∧ Refines d.toChain L L' k.policy
      ⟨now, signers, .approve k.treasury period need epoch k.recipient t.owner⟩ := by
  simp only [process, ApproveTreasury.load, bind_eq_ok, pure_eq_ok, require_eq_ok, signer_eq_ok,
    hasOne_eq_ok, loadPolicy_eq_ok (fun _ ↦ hL.canonical), loadInit_eq_ok, loadToken_eq_ok,
    loadRecord_eq_ok (fun _ ↦ hL.canonical), approveTreasury_eq_ok, Prod.exists, exists_const] at h
  obtain ⟨_, ⟨hs, ⟨_, p⟩, ⟨hp, rfl⟩, hcur, -, m, -, ⟨_, t⟩, ⟨ht, -, -, rfl⟩, ai, ⟨haddr, hvac, rfl⟩,
    ⟨_, x⟩, ⟨hx, rfl, hxP, hsub⟩, rfl⟩, p', a', k', ⟨htick, hst, ⟨hpend, -, hep⟩, hel, hneed, hfut,
    hnext, hfin, hnot, count, hcount, rfl, rfl, rfl⟩, rfl⟩ := h
  obtain ⟨V, hV, rfl⟩ := Ledger.exists_view d.toChain hp
  dsimp only at hx hxP hsub
  have hnone := Ledger.program_of_vacant hvac
  refine ⟨t, ht, .policy_two hL hV (by rfl) (by rfl) (by rfl) ?writable ?owned ?fresh ?record
    ?ownedRecord ?notPolicy ?apart (.approve ⟨htick, hst, ⟨hpend, hcur, hep⟩, hs,
      hsub ▸ View.record_of hV hL hx hxP, hsub, hel, hneed, hfut, hnext, hfin, hnot,
      ?count, ?vacant⟩ hcount)⟩
  case writable =>
    rw [← haddr] at hnone ⊢
    exact .vacant hnone rfl rfl
  case owned => rfl
  case fresh => simp [hnone]
  case record => exact hL.writable hx rfl rfl
  case ownedRecord => exact congrArg some hxP
  case notPolicy => simp [hx]
  case apart => simp [hx, hnone]
  case count =>
    have := count.isLt
    dsimp only at hcount
    omega
  case vacant =>
    rw [View.approval_eq hV]
    exact Ledger.find_of_vacant (haddr ▸ hvac)

theorem refines_propose {k : ProposeWithdrawal.Keys} {b : U8} {recovery : Bool} {nonce epoch : U64}
    {validFrom validUntil : I64} {predecessor : Pubkey}
    (h : process d L ⟨now, signers, .proposeWithdrawal k b recovery nonce epoch validFrom validUntil
      predecessor⟩ = .ok L') :
    ∃ r : Role, b = r.toU8 ∧ Refines d.toChain L L' k.policy ⟨now, signers, .propose {
      role := r, recovery, nonce, epoch, validFrom, validUntil, predecessor
      successor := k.successor, initiator := k.initiator, cosigner := k.cosigner }⟩ := by
  simp only [process, ProposeWithdrawal.load, bind_eq_ok, pure_eq_ok, signer_eq_ok,
    loadPolicy_eq_ok (fun _ ↦ hL.canonical), loadInit_eq_ok,
    loadRecord_eq_ok (fun _ ↦ hL.canonical), Withdrawal.propose_eq_ok,
    Withdrawal.validateAdmission_eq_ok, Prod.exists, exists_const] at h
  obtain ⟨_, ⟨-, hsi, hsc, hss, ⟨_, p⟩, ⟨hp, rfl⟩, qi, ⟨haddr, hvac, rfl⟩, ⟨_, x⟩,
    ⟨hx, rfl, hxP, hsub⟩, rfl⟩, p', q', k', ⟨htick, hst, ⟨hpos, hwidth, hadm, hfits⟩, r, rfl, hidle,
    hnonce, hepoch, hpred, hefits, hauth, hel, after, expiry, hafter, hexp, rfl, rfl, rfl⟩, rfl⟩ := h
  obtain ⟨V, hV, rfl⟩ := Ledger.exists_view d.toChain hp
  dsimp only at hx hxP hsub
  have hnone := Ledger.program_of_vacant hvac
  refine ⟨r, rfl, .policy_two hL hV (by rfl) (by rfl) (by rfl) ?writable ?owned ?fresh ?record
    ?ownedRecord ?notPolicy ?apart (.propose ⟨htick, hst, hpos, hwidth, hadm, hfits, hidle, hnonce,
      hepoch, hpred, hefits, hauth, ⟨hsi, hsc, hss⟩, hsub ▸ View.record_of hV hL hx hxP, hsub, hel,
      ?vacant⟩ hafter hexp)⟩
  case writable =>
    rw [← haddr] at hnone ⊢
    exact .vacant hnone rfl rfl
  case owned => rfl
  case fresh => simp [hnone]
  case record => exact hL.writable hx rfl rfl
  case ownedRecord => exact congrArg some hxP
  case notPolicy => simp [hx]
  case apart => simp [hx, hnone]
  case vacant =>
    rw [View.proposal_eq hV]
    exact Ledger.find_of_vacant (haddr ▸ hvac)

/-- The stored proposal and record of an instruction that settles a rotation. -/
theorem settles {V : View} {P key key' : Pubkey} (hV : L.view d.toChain P = some V)
    {q : WithdrawalProposalV7} (hq : L.program key = some (.withdrawal q)) (hqP : q.policy = P)
    {x : WithdrawalKeyV7} (hx : L.program key' = some (.withdrawalKey x)) (hxP : x.policy = P)
    (hsub : x.subject = q.successor) {r : Role} (hr : q.role = r.toU8) {u : Unit}
    (hpend : Withdrawal.pending V.policy q x = .ok u) : Pending V r q x := by
  obtain ⟨r', hr', hst, hseq, hnonce, hep, hpred, hfin, hmask⟩ := Withdrawal.pending_eq_ok.mp hpend
  obtain rfl := Role.toU8_inj.mp (hr.symm.trans hr')
  exact {
    stored := View.proposal_of hV hL hq hqP hr
    role := hr
    status := hst
    sequence := hseq
    nonce := hnonce
    epoch := hep
    predecessor := hpred
    unfinished := hfin
    record := hsub ▸ View.record_of hV hL hx hxP
    subject := hsub
    mask := hmask }

theorem refines_execute {k : ExecuteWithdrawal.Keys}
    (h : process d L ⟨now, signers, .executeWithdrawal k⟩ = .ok L') :
    ∃ r q, L.program k.proposal = some (.withdrawal q) ∧ q.role = r.toU8 ∧
      Refines d.toChain L L' k.policy ⟨now, signers, .execute r q⟩ := by
  simp only [process, ExecuteWithdrawal.load, bind_eq_ok, pure_eq_ok,
    loadPolicy_eq_ok (fun _ ↦ hL.canonical), loadWithdrawal_eq_ok (fun _ ↦ hL.canonical),
    loadRecord_eq_ok (fun _ ↦ hL.canonical), Prod.exists] at h
  obtain ⟨_, ⟨⟨_, p⟩, ⟨hp, rfl⟩, ⟨_, q⟩, ⟨hq, rfl, hqP⟩, ⟨_, x⟩, ⟨hx, rfl, hxP, hsub⟩, rfl⟩, p', q',
    k', h, rfl⟩ := h
  obtain ⟨V, hV, rfl⟩ := Ledger.exists_view d.toChain hp
  dsimp only at hq hqP hx hxP hsub
  obtain ⟨r, hr⟩ := Withdrawal.execute_role h
  rw [Withdrawal.execute_eq_ok hr] at h
  obtain ⟨htick, hst, hpend, hwin, hel, e, he, rfl, rfl, rfl⟩ := h
  refine ⟨r, q, hq, hr, .policy_two hL hV (by rfl) (by rfl) (by rfl) (hL.writable hq rfl rfl)
    (congrArg some hqP) (by simp [hq]) (hL.writable hx rfl rfl) (congrArg some hxP) (by simp [hx])
    (by simp [hx, hq])
    (.execute htick hst (settles hL hV hq hqP hx hxP hsub hr hpend) hwin hel he)⟩

theorem refines_cancelRotation {k : CancelWithdrawal.Keys}
    (h : process d L ⟨now, signers, .cancelWithdrawal k⟩ = .ok L') :
    ∃ r q, L.program k.proposal = some (.withdrawal q) ∧ q.role = r.toU8 ∧
      Refines d.toChain L L' k.policy
        ⟨now, signers, .cancelRotation r q k.initiator k.cosigner⟩ := by
  simp only [process, CancelWithdrawal.load, bind_eq_ok, pure_eq_ok, signer_eq_ok,
    loadPolicy_eq_ok (fun _ ↦ hL.canonical), loadWithdrawal_eq_ok (fun _ ↦ hL.canonical),
    loadRecord_eq_ok (fun _ ↦ hL.canonical), Prod.exists, exists_const] at h
  obtain ⟨_, ⟨hsi, hsc, ⟨_, p⟩, ⟨hp, rfl⟩, ⟨_, q⟩, ⟨hq, rfl, hqP⟩, ⟨_, x⟩, ⟨hx, rfl, hxP, hsub⟩,
    rfl⟩, p', q', k', h, rfl⟩ := h
  obtain ⟨V, hV, rfl⟩ := Ledger.exists_view d.toChain hp
  dsimp only at hq hqP hx hxP hsub
  obtain ⟨r, hr⟩ := Withdrawal.cancel_role h
  rw [Withdrawal.cancel_eq_ok hr] at h
  obtain ⟨htick, hpend, hauth, rfl, rfl, rfl⟩ := h
  exact ⟨r, q, hq, hr, .policy_two hL hV (by rfl) (by rfl) (by rfl) (hL.writable hq rfl rfl)
    (congrArg some hqP) (by simp [hq]) (hL.writable hx rfl rfl) (congrArg some hxP) (by simp [hx])
    (by simp [hx, hq])
    (.cancelRotation htick (settles hL hV hq hqP hx hxP hsub hr hpend) hauth ⟨hsi, hsc⟩)⟩

theorem refines_expire {k : ExecuteWithdrawal.Keys}
    (h : process d L ⟨now, signers, .expireWithdrawal k⟩ = .ok L') :
    ∃ r q, L.program k.proposal = some (.withdrawal q) ∧ q.role = r.toU8 ∧
      Refines d.toChain L L' k.policy ⟨now, signers, .expire r q⟩ := by
  simp only [process, ExecuteWithdrawal.load, bind_eq_ok, pure_eq_ok,
    loadPolicy_eq_ok (fun _ ↦ hL.canonical), loadWithdrawal_eq_ok (fun _ ↦ hL.canonical),
    loadRecord_eq_ok (fun _ ↦ hL.canonical), Prod.exists] at h
  obtain ⟨_, ⟨⟨_, p⟩, ⟨hp, rfl⟩, ⟨_, q⟩, ⟨hq, rfl, hqP⟩, ⟨_, x⟩, ⟨hx, rfl, hxP, hsub⟩, rfl⟩, p', q',
    k', h, rfl⟩ := h
  obtain ⟨V, hV, rfl⟩ := Ledger.exists_view d.toChain hp
  dsimp only at hq hqP hx hxP hsub
  obtain ⟨r, hr⟩ := Withdrawal.expire_role h
  rw [Withdrawal.expire_eq_ok hr] at h
  obtain ⟨htick, hpend, hexp, rfl, rfl, rfl⟩ := h
  exact ⟨r, q, hq, hr, .policy_two hL hV (by rfl) (by rfl) (by rfl) (hL.writable hq rfl rfl)
    (congrArg some hqP) (by simp [hq]) (hL.writable hx rfl rfl) (congrArg some hxP) (by simp [hx])
    (by simp [hx, hq]) (.expire htick (settles hL hV hq hqP hx hxP hsub hr hpend) hexp)⟩

theorem refines_proposeChange {k : ProposeChange.Keys} {kind : U8} {recovery : Bool} {nonce : U64}
    (h : process d L ⟨now, signers, .proposeChange k kind recovery nonce⟩ = .ok L') :
    Refines d.toChain L L' k.policy ⟨now, signers, .proposeChange {
      kind, recovery, nonce
      successor := k.successor, initiator := k.initiator, cosigner := k.cosigner }⟩ := by
  simp only [process, ProposeChange.load, bind_eq_ok, pure_eq_ok, signer_eq_ok,
    loadPolicy_eq_ok (fun _ ↦ hL.canonical), loadInit_eq_ok, Governance.propose_eq_ok, Prod.exists,
    exists_const] at h
  obtain ⟨_, ⟨-, hsi, hsc, hss, ⟨_, p⟩, ⟨hp, rfl⟩, qi, ⟨haddr, hvac, rfl⟩, rfl⟩, p', q', ⟨htick, hst,
    hidle, hnonce, hauth, hz, hkind, after, hafter, rfl, rfl⟩, rfl⟩ := h
  obtain ⟨V, hV, rfl⟩ := Ledger.exists_view d.toChain hp
  have hnone := Ledger.program_of_vacant hvac
  refine .policy_one hL hV (by rfl) (by rfl) (by rfl) ?writable ?owned ?fresh
    (.proposeChange ⟨htick, hst, hidle, hnonce, hauth, ⟨hsi, hsc, hss⟩, hz, hkind, hafter, ?vacant⟩)
  case writable =>
    rw [← haddr] at hnone ⊢
    exact .vacant hnone rfl rfl
  case owned => rfl
  case fresh => simp [hnone]
  case vacant =>
    rw [View.change_eq hV]
    exact Ledger.find_of_vacant (haddr ▸ hvac)

/-- The stored proposal of an instruction that settles a change. -/
theorem settlesChange {V : View} {P key : Pubkey} (hV : L.view d.toChain P = some V)
    {q : ChangeProposalV7} (hq : L.program key = some (.change q)) (hqP : q.policy = P) {u : Unit}
    (hpend : Governance.pending V.policy q = .ok u) : PendingChange V q := by
  obtain ⟨hst, hstatus, hnonce, hseq, hctrl, horc⟩ := Governance.pending_eq_ok.mp hpend
  exact ⟨View.change_of hV hL hq hqP, hst, hstatus, hnonce, hseq, hctrl, horc⟩

theorem refines_cancelChange {k : CancelChange.Keys}
    (h : process d L ⟨now, signers, .cancelChange k⟩ = .ok L') :
    ∃ q, L.program k.proposal = some (.change q) ∧
      Refines d.toChain L L' k.policy
        ⟨now, signers, .cancelChange q k.initiator k.cosigner⟩ := by
  simp only [process, CancelChange.load, bind_eq_ok, pure_eq_ok, signer_eq_ok,
    loadPolicy_eq_ok (fun _ ↦ hL.canonical), loadChange_eq_ok (fun _ ↦ hL.canonical),
    Governance.cancel_eq_ok, Prod.exists, exists_const] at h
  obtain ⟨_, ⟨hsi, hsc, ⟨_, p⟩, ⟨hp, rfl⟩, ⟨_, q⟩, ⟨hq, rfl, hqP⟩, rfl⟩, p', q',
    ⟨htick, hpend, hauth, rfl, rfl⟩, rfl⟩ := h
  obtain ⟨V, hV, rfl⟩ := Ledger.exists_view d.toChain hp
  dsimp only at hq hqP
  exact ⟨q, hq, .policy_one hL hV (by rfl) (by rfl) (by rfl) (hL.writable hq rfl rfl)
    (congrArg some hqP) (by simp [hq])
    (.cancelChange htick (settlesChange hL hV hq hqP hpend) hauth ⟨hsi, hsc⟩)⟩

theorem refines_executeChange {k : ExecuteChange.Keys}
    (h : process d L ⟨now, signers, .executeChange k⟩ = .ok L') :
    ∃ q, L.program k.proposal = some (.change q) ∧
      Refines d.toChain L L' k.policy ⟨now, signers, .executeChange q⟩ := by
  simp only [process, ExecuteChange.load, bind_eq_ok, pure_eq_ok,
    loadPolicy_eq_ok (fun _ ↦ hL.canonical), loadChange_eq_ok (fun _ ↦ hL.canonical),
    Governance.execute_eq_ok, Prod.exists] at h
  obtain ⟨_, ⟨⟨_, p⟩, ⟨hp, rfl⟩, ⟨_, q⟩, ⟨hq, rfl, hqP⟩, rfl⟩, p', q',
    ⟨htick, hpend, hnotice, hkind, rfl⟩, rfl⟩ := h
  obtain ⟨V, hV, rfl⟩ := Ledger.exists_view d.toChain hp
  dsimp only at hq hqP
  have hp := settlesChange hL hV hq hqP hpend
  refine ⟨q, hq, ?_⟩
  rcases hkind with ⟨hk, e, he, rfl⟩ | ⟨hk, e, he, rfl⟩
  · exact .policy_one hL hV (by rfl) (by rfl) (by rfl) (hL.writable hq rfl rfl)
      (congrArg some hqP) (by simp [hq]) (.changeOracle htick hp hnotice hk he)
  · exact .policy_one hL hV (by rfl) (by rfl) (by rfl) (hL.writable hq rfl rfl)
      (congrArg some hqP) (by simp [hq]) (.changeController htick hp hnotice hk he)

theorem refines_release {k : Release.Keys} {amount epoch : U64}
    (h : process d L ⟨now, signers, .release k amount epoch⟩ = .ok L') :
    ∃ r v t, L.program k.vault = some (.vault v) ∧ v.role = r.toU8 ∧
      L.tokens.account k.destination = some t ∧ Refines d.toChain L L' k.policy
        ⟨now, signers, .release r k.authority amount epoch k.destination t.owner⟩ := by
  simp only [process, Release.load, checkFound, bind_eq_ok, pure_eq_ok, require_eq_ok,
    signer_eq_ok, hasOne_eq_ok, tokenAuthority_eq_ok, loadPolicy_eq_ok (fun _ ↦ hL.canonical),
    loadVault_eq_ok (fun _ ↦ hL.canonical), loadToken_eq_ok, mapM_loadAs_eq_ok, bind_approval?,
    bind_withdrawalKey?, release_eq_ok, Ledger.transfer_eq_ok, Prod.exists, exists_const] at h
  obtain ⟨_, ⟨hs, ⟨_, p⟩, ⟨hp, rfl⟩, -, ⟨_, v⟩, ⟨hv, rfl, hvP⟩, m, -, -, vt, -, -, ⟨_, t⟩,
    ⟨ht, -, -, rfl⟩, oa, hoa, ok, hok, rfl⟩, p', v', a', tr, ⟨htick, hst, r, hr, ⟨hpend, hcur, hep⟩,
    ht0, ham, period, hper, ⟨hpp, hvp⟩, ⟨hrv, hre, hrs, hrp, hra⟩, hage, hown, hpayee, hcons, -⟩, L₁,
    ⟨tokens, -, rfl⟩, rfl⟩ := h
  obtain ⟨V, hV, rfl⟩ := Ledger.exists_view d.toChain hp
  dsimp only at hv hvP ht hr hcur hep hpp hvp hown hcons hoa hok
  obtain ⟨hp', hv'⟩ := consume_frame hcons
  have hguard : ReleaseGuard V now signers r k.authority amount epoch period v :=
    ⟨htick, hst, ⟨hpend, hcur, hep⟩, hs, ht0, ham, hper, hpp, hvp, hrv, hre, hrs, hrp, hra, hage,
      View.vault_of hV hL hv hvP hr, hr, hown⟩
  refine ⟨r, v, t, hv, hr, ht, ?_⟩
  rw [hp', hv']
  cases r with
  | founder =>
    obtain ⟨hcliff, howner, -, rfl⟩ := hpayee
    dsimp only at hcliff howner
    rw [howner]
    exact .policy_one hL hV (by rfl) (by rfl) (by rfl) (hL.writable hv rfl rfl)
      (congrArg some hvP) (by simp [hv])
      (.releaseFounder hguard hcliff hcons)
  | treasury =>
    obtain ⟨a', ha', rfl⟩ := hpayee
    obtain ⟨x, a, hx, ha, ⟨-, -, hxP, hsub, hrec⟩, hel, -, ⟨haP, haper, hdest, haown⟩, hmat, used,
      hused, hneed, rfl⟩ := releaseApproval_eq_ok.mp ha'
    dsimp only at hx ha hxP hsub haP hdest haown
    subst hx ha
    simp only [reduceCtorEq, and_false, false_or, Option.some.injEq] at hoa hok
    obtain ⟨y, -, rfl, hy⟩ := hoa
    obtain ⟨z, -, rfl, hz⟩ := hok
    have haown' : a.data.recipientOwner = t.owner := haown
    exact .policy_two hL hV (by rfl) (by rfl) (by rfl) (hL.writable hv rfl rfl)
      (congrArg some hvP) (by simp [hv]) (hL.writable hy rfl rfl) (congrArg some haP)
      (by simp [hy]) (by simp [hy, hv])
      (.releaseTreasury hguard ⟨hsub ▸ View.record_of hV hL hz hxP, hsub, hrec, hel,
        haper ▸ View.approval_of hV hL hy haP, haper, hdest, haown, hmat, by
          rw [Fin.le_def] at hneed; omega⟩ hused hcons)

/-- A prepared configuration belongs to no policy yet. -/
theorem frame_preparePolicy {k : PreparePolicy.Keys} {config : LaunchConfig}
    {specHash identity : Bytes32}
    (h : process d L ⟨now, signers, .preparePolicy k config specHash identity⟩ = .ok L') :
    L'.Sound d.toChain ∧ ∀ Q, L'.view d.toChain Q = L.view d.toChain Q := by
  simp only [process, PreparePolicy.load, bind_eq_ok, pure_eq_ok, signer_eq_ok, loadInit_eq_ok,
    preparePolicy, exists_const] at h
  obtain ⟨_, ⟨-, m, -, i, ⟨haddr, hvac, rfl⟩, rfl⟩, a, ⟨-, -, rfl⟩, rfl⟩ := h
  have hw : Writable d.toChain L k.preparation (.preparation {
      creator := k.creator, mint := m.key, founder := k.founder, treasury := k.treasury
      oracle := k.oracle, identity, specHash, config
      bump := (Seeds.preparation identity).bump d.toChain }) := by
    have hnone := Ledger.program_of_vacant hvac
    rw [← haddr] at hnone ⊢
    exact .vacant hnone rfl rfl
  exact ⟨hL.write hw (by simp [ProgramAccount.boundTo]),
    fun Q ↦ Ledger.view_write_other hw (by simp [OwnedBy, ProgramAccount.boundTo])⟩

theorem opens_openPreparedPolicy {k : OpenPreparedPolicy.Keys}
    (h : process d L ⟨now, signers, .openPreparedPolicy k⟩ = .ok L') :
    L.view d.toChain k.policy = none ∧ L'.Sound d.toChain ∧
      (∃ V, L'.view d.toChain k.policy = some V ∧
        Opened d.toChain ⟨now, signers, .openPolicy⟩ V) ∧
      ∀ Q, Q ≠ k.policy → L'.view d.toChain Q = L.view d.toChain Q := by
  simp only [process, OpenPreparedPolicy.load, bind_eq_ok, pure_eq_ok, signer_eq_ok,
    loadInit_eq_ok, exists_const] at h
  obtain ⟨_, ⟨-, hsf, hst, -, -, -, m, -, prep, -, -, -, i, ⟨haddr, hvac, rfl⟩, rfl⟩, p, hp, rfl⟩ := h
  obtain ⟨hvalid, hident, hfounder, htreasury, hid, hbump⟩ := openPreparedPolicy_ok hp
  have hfs : p.founder ∈ signers := by rw [hfounder]; exact hsf
  have hts : p.treasury ∈ signers := by rw [htreasury]; exact hst
  have hnone := Ledger.program_of_vacant hvac
  have hw : Writable d.toChain L k.policy (.policy p) := by
    rw [← haddr] at hnone ⊢
    exact .vacant hnone (congrArg Seeds.policy hid) hbump
  refine ⟨?_, hL.write hw (by simp [ProgramAccount.boundTo]), ⟨_,
    Ledger.view_write_policy hL hw hnone, {
      act := rfl
      signed := Role.forall_role.mpr ⟨hfs, hts⟩
      valid := hvalid
      identity := hident
      policy := ?_
      vault := fun _ ↦ rfl
      approval := fun _ ↦ rfl
      change := fun _ ↦ rfl
      proposal := fun _ _ ↦ rfl
      record := fun _ ↦ rfl }⟩, fun Q hQ ↦ Ledger.view_write_other hw (Ne.symm hQ)⟩
  · rw [Ledger.view, Ledger.policyAt, hnone]
    rfl
  · simp only [openPreparedPolicy, bind_eq_ok, require_eq_ok, pure_eq_ok, exists_const] at hp
    obtain ⟨-, -, -, -, rfl⟩ := hp
    rfl

/-- What an accepted transaction is: nothing to any policy, the opening of one, or a step of
one. -/
theorem process_cases {tx : Tx} (h : process d L tx = .ok L') :
    (tx.act L = none ∧ L'.Sound d.toChain ∧ ∀ Q, L'.view d.toChain Q = L.view d.toChain Q) ∨
      (∃ P, tx.act L = some (P, .openPolicy) ∧ L.view d.toChain P = none ∧ L'.Sound d.toChain ∧
        (∃ V, L'.view d.toChain P = some V ∧
          Opened d.toChain ⟨tx.now, tx.signers, .openPolicy⟩ V) ∧
        ∀ Q, Q ≠ P → L'.view d.toChain Q = L.view d.toChain Q) ∨
      ∃ P act, tx.act L = some (P, act) ∧
        Refines d.toChain L L' P ⟨tx.now, tx.signers, act⟩ := by
  obtain ⟨now, signers, instr⟩ := tx
  cases instr with
  | preparePolicy k config specHash identity => exact .inl ⟨rfl, frame_preparePolicy hL h⟩
  | openPreparedPolicy k => exact .inr (.inl ⟨_, rfl, opens_openPreparedPolicy hL h⟩)
  | deposit k b amount =>
    obtain ⟨r, rfl, hr⟩ := refines_deposit hL h
    exact .inr (.inr ⟨_, _, by simp [Tx.act], hr⟩)
  | arm k => exact .inr (.inr ⟨_, _, rfl, refines_arm hL h⟩)
  | activate k => exact .inr (.inr ⟨_, _, rfl, refines_activate hL h⟩)
  | cancel k => exact .inr (.inr ⟨_, _, rfl, refines_cancel hL h⟩)
  | expireUnarmed k => exact .inr (.inr ⟨_, _, rfl, refines_expireUnarmed hL h⟩)
  | refund k => exact .inr (.inr ⟨_, _, rfl, refines_refund hL h⟩)
  | reportCapacity k capacity observedAt sequence epoch =>
    exact .inr (.inr ⟨_, _, rfl, refines_report hL h⟩)
  | approveTreasury k period need epoch =>
    obtain ⟨t, ht, hr⟩ := refines_approve hL h
    exact .inr (.inr ⟨_, _, by simp [Tx.act, ht], hr⟩)
  | release k amount epoch =>
    obtain ⟨r, v, t, hv, hrole, ht, hr⟩ := refines_release hL h
    exact .inr (.inr ⟨_, _, by simp [Tx.act, hv, hrole, ht, ProgramAccount.vault?], hr⟩)
  | prepareWithdrawalKey k subject => exact .inr (.inr ⟨_, _, rfl, refines_prepareKey hL h⟩)
  | proposeWithdrawal k b recovery nonce epoch validFrom validUntil predecessor =>
    obtain ⟨r, rfl, hr⟩ := refines_propose hL h
    exact .inr (.inr ⟨_, _, by simp [Tx.act], hr⟩)
  | executeWithdrawal k =>
    obtain ⟨r, q, hq, hrole, hr⟩ := refines_execute hL h
    exact .inr (.inr ⟨_, _, by simp [Tx.act, hq, hrole, ProgramAccount.withdrawal?], hr⟩)
  | cancelWithdrawal k =>
    obtain ⟨r, q, hq, hrole, hr⟩ := refines_cancelRotation hL h
    exact .inr (.inr ⟨_, _, by simp [Tx.act, hq, hrole, ProgramAccount.withdrawal?], hr⟩)
  | expireWithdrawal k =>
    obtain ⟨r, q, hq, hrole, hr⟩ := refines_expire hL h
    exact .inr (.inr ⟨_, _, by simp [Tx.act, hq, hrole, ProgramAccount.withdrawal?], hr⟩)
  | proposeChange k kind recovery nonce =>
    exact .inr (.inr ⟨_, _, rfl, refines_proposeChange hL h⟩)
  | cancelChange k =>
    obtain ⟨q, hq, hr⟩ := refines_cancelChange hL h
    exact .inr (.inr ⟨_, _, by simp [Tx.act, hq, ProgramAccount.changeProposal?], hr⟩)
  | executeChange k =>
    obtain ⟨q, hq, hr⟩ := refines_executeChange hL h
    exact .inr (.inr ⟨_, _, by simp [Tx.act, hq, ProgramAccount.changeProposal?], hr⟩)

end Instructions

/-! ## Refinement of histories -/

section Histories

variable {d : Deployment} {L₀ L L' : Ledger} {tr : List Entry} {tx : Tx} {P : Pubkey} {V V' : View}

theorem history_singleton_of_act {Q : Pubkey} {act : Act} (h : tx.act L = some (Q, act)) :
    history P [⟨L, tx, L'⟩] = if Q = P then [⟨tx.now, tx.signers, act⟩] else [] := by
  simp only [history, List.filterMap_cons, Entry.event, h, Option.bind_some, List.filterMap_nil]
  split <;> simp_all

theorem history_singleton_of_none (h : tx.act L = none) : history P [⟨L, tx, L'⟩] = [] := by
  simp [history, Entry.event, h]

theorem Run.sound (hL : L₀.Sound d.toChain) (h : Run d L₀ tr L) : L.Sound d.toChain := by
  induction h with
  | refl => exact hL
  | accepted _ hp ih =>
    rcases process_cases ih hp with ⟨-, hs, -⟩ | ⟨P, -, -, hs, -⟩ | ⟨P, act, -, hr⟩
    · exact hs
    · exact hs
    · exact hr.sound
  | rejected _ _ ih => exact ih
  | external _ _ ih => exact ih.congr rfl

/-- An accepted transaction leaves a policy as it is or is a step of its machine. -/
theorem Ledger.Sound.accepted (hL : L.Sound d.toChain) (hV : L.view d.toChain P = some V)
    (hp : process d L tx = .ok L') :
    ∃ V', L'.view d.toChain P = some V' ∧ ((V' = V ∧ history P [⟨L, tx, L'⟩] = []) ∨
      ∃ act, tx.act L = some (P, act) ∧ Step P V ⟨tx.now, tx.signers, act⟩ V') := by
  rcases process_cases hL hp with ⟨ha, -, hframe⟩ | ⟨Q, ha, hnone, -, -, hframe⟩ |
    ⟨Q, act, ha, href⟩
  · exact ⟨V, by rw [hframe, hV], .inl ⟨rfl, history_singleton_of_none ha⟩⟩
  · have hQ : Q ≠ P := by
      rintro rfl
      simp [hV] at hnone
    exact ⟨V, by rw [hframe P hQ.symm, hV], .inl ⟨rfl, by simp [history_singleton_of_act ha, hQ]⟩⟩
  · by_cases hQ : Q = P
    · subst hQ
      obtain ⟨W, W', hW, hW', hstep⟩ := href.step
      obtain rfl := Option.some.inj (hV.symm.trans hW)
      exact ⟨W', hW', .inr ⟨act, ha, hstep⟩⟩
    · exact ⟨V, by rw [href.frame P (Ne.symm hQ), hV],
        .inl ⟨rfl, by simp [history_singleton_of_act ha, hQ]⟩⟩

/-- The same, for a policy that is read afterwards. -/
theorem Ledger.Sound.accepted_to {p' : LaunchPolicyV7} (hL : L.Sound d.toChain)
    (hV : L.view d.toChain P = some V) (hp : process d L tx = .ok L')
    (hp' : L'.policyAt P = some p') :
    ∃ V', L'.view d.toChain P = some V' ∧ V'.policy = p' ∧ (V' = V ∨
      ∃ act, tx.act L = some (P, act) ∧ Step P V ⟨tx.now, tx.signers, act⟩ V') := by
  obtain ⟨V', hV', hcases⟩ := hL.accepted hV hp
  refine ⟨V', hV', ?_, hcases.imp_left And.left⟩
  rw [Ledger.policyAt_eq_some, Ledger.view_policy hV'] at hp'
  simpa using hp'

/-- A run is a stretch of the history of every policy that exists at its start. -/
theorem Run.steps (hL : L₀.Sound d.toChain) (h : Run d L₀ tr L)
    (hV : L₀.view d.toChain P = some V) :
    ∃ V', L.view d.toChain P = some V' ∧ (machine d.toChain P).Steps V (history P tr) V' := by
  induction h with
  | refl => exact ⟨V, hV, .refl V⟩
  | accepted hr hp ih =>
    obtain ⟨U, hU, hs⟩ := ih
    obtain ⟨U', hU', ⟨rfl, hnil⟩ | ⟨act, ha, hstep⟩⟩ := (hr.sound hL).accepted hU hp
    · exact ⟨U', hU', by simpa [hnil] using hs⟩
    · exact ⟨U', hU', by simpa [history_singleton_of_act ha] using hs.step hstep⟩
  | rejected _ _ ih => exact ih
  | external _ _ ih => exact ih

/-- The same, for a policy that is read at the end. -/
theorem Run.steps_to {p : LaunchPolicyV7} (hL : L₀.Sound d.toChain) (h : Run d L₀ tr L)
    (hV : L₀.view d.toChain P = some V) (hp : L.policyAt P = some p) :
    ∃ V', L.view d.toChain P = some V' ∧ V'.policy = p ∧
      (machine d.toChain P).Steps V (history P tr) V' := by
  obtain ⟨V', hV', hs⟩ := h.steps hL hV
  refine ⟨V', hV', ?_, hs⟩
  rw [Ledger.policyAt_eq_some, Ledger.view_policy hV'] at hp
  simpa using hp

theorem Ledger.Genesis.sound (h : L.Genesis) : L.Sound d.toChain where
  canonical hk := by simp [h _] at hk
  bound hk := by simp [h _] at hk

theorem Reachable.sound (h : Reachable d tr L) : L.Sound d.toChain := by
  obtain ⟨L₀, h₀, hr⟩ := h
  exact hr.sound h₀.sound

/-- The history of a reachable policy is a path of its machine. -/
theorem Reachable.path (h : Reachable d tr L) (hV : L.view d.toChain P = some V) :
    (machine d.toChain P).Path (history P tr) V := by
  obtain ⟨L₀, h₀, hr⟩ := h
  -- As long as there is no policy at `P` its history is empty.
  suffices hs : (L.view d.toChain P = none → history P tr = []) ∧
      ∀ V, L.view d.toChain P = some V → (machine d.toChain P).Path (history P tr) V from
    hs.2 V hV
  clear hV
  induction hr with
  | refl =>
    have hnone : L₀.view d.toChain P = none := by
      rw [Ledger.view, Ledger.policyAt, h₀ P]
      rfl
    exact ⟨fun _ ↦ rfl, fun V hV ↦ by simp [hnone] at hV⟩
  | @accepted L₁ L₂ tr tx hr hp ih =>
    have hsound := hr.sound h₀.sound
    rcases process_cases hsound hp with ⟨ha, -, hframe⟩ | ⟨Q, ha, hnone, -, ⟨U, hU, hopen⟩, hframe⟩ |
      ⟨Q, act, ha, href⟩
    · simpa [hframe P, history_singleton_of_none ha] using ih
    · by_cases hQ : Q = P
      · subst hQ
        refine ⟨fun h ↦ by simp [hU] at h, fun V hV ↦ ?_⟩
        obtain rfl := Option.some.inj (hU.symm.trans hV)
        simpa [history_singleton_of_act ha, ih.1 hnone] using
          Machine.Path.opened (M := machine d.toChain Q) hopen
      · simpa [hframe P (Ne.symm hQ), history_singleton_of_act ha, hQ] using ih
    · by_cases hQ : Q = P
      · subst hQ
        obtain ⟨W, W', hW, hW', hstep⟩ := href.step
        refine ⟨fun h ↦ by simp [hW'] at h, fun V hV ↦ ?_⟩
        obtain rfl := Option.some.inj (hW'.symm.trans hV)
        simpa [history_singleton_of_act ha] using (ih.2 W hW).step hstep
      · simpa [href.frame P (Ne.symm hQ), history_singleton_of_act ha, hQ] using ih
  | rejected _ _ ih => exact ih
  | external _ _ ih => exact ih

end Histories

end FundingVaults.LaunchV7
