import FundingVaults.LaunchV7.Custody
import FundingVaults.LaunchV7.Pause

/-!
# Recovery and governance leave the economics alone

Changes of the oracle and the controller, rotations of the withdrawal keys and the preparation of
key records write to the same policy account as releases do.  Whatever sequence of them is tried,
by whomever and with whatever outcome, the configuration, the counters, the report, the vaults,
the approvals and all token accounts stay as they are.
-/

namespace FundingVaults.LaunchV7

/-! ## The instructions -/

/-- Governance, withdrawal rotation and key preparation. -/
def Instruction.Governs : Instruction → Prop
  | .prepareWithdrawalKey .. | .proposeWithdrawal .. | .executeWithdrawal .. | .cancelWithdrawal ..
  | .expireWithdrawal .. | .proposeChange .. | .cancelChange .. | .executeChange .. => True
  | _ => False

def Act.Governs : Act → Prop
  | .prepareKey .. | .propose .. | .execute .. | .cancelRotation .. | .expire ..
  | .proposeChange .. | .cancelChange .. | .executeChange .. => True
  | _ => False

variable {P : Pubkey} {V V' V'' : View} {e : Event} {d : Deployment} {L L' : Ledger} {tx : Tx}

theorem act_governs {act : Act} (h : tx.instruction.Governs) (ha : tx.act L = some (P, act)) :
    act.Governs := by
  obtain ⟨now, signers, instr⟩ := tx
  cases instr <;>
    simp only [Instruction.Governs, Tx.act, Option.bind_eq_bind, Option.bind_eq_some_iff,
      Option.map_eq_some_iff, Option.some.injEq, Prod.mk.injEq] at h ha
  case prepareWithdrawalKey | proposeChange =>
    obtain ⟨-, rfl⟩ := ha
    trivial
  case proposeWithdrawal | cancelChange | executeChange =>
    obtain ⟨_, -, -, rfl⟩ := ha
    trivial
  case executeWithdrawal | cancelWithdrawal | expireWithdrawal =>
    obtain ⟨_, -, _, -, -, rfl⟩ := ha
    trivial

/-! ## What may change -/

/-- An epoch and the key it stands for: both are the same, or the epoch has grown. -/
def Rekeyed (epoch epoch' : U64) (same : Prop) : Prop := epoch < epoch' ∨ (epoch' = epoch ∧ same)

/-- Everything but keys, epochs, pending and sequence numbers, masks, proposals, the clock and,
with the oracle, the validity of the report, is the same. -/
structure Untouched (V V' : View) : Prop where
  policy : V'.policy = { V.policy with
    lastActionAt := V'.policy.lastActionAt
    oracle := V'.policy.oracle
    oracleEpoch := V'.policy.oracleEpoch
    oracleActivatedAt := V'.policy.oracleActivatedAt
    reportValid := V'.policy.reportValid
    controller := V'.policy.controller
    controllerEpoch := V'.policy.controllerEpoch
    changeSequence := V'.policy.changeSequence
    pendingChange := V'.policy.pendingChange
    withdrawal := V'.policy.withdrawal }
  vault : V'.vault = V.vault
  approval : V'.approval = V.approval
  /-- A record changes in its masks; a new one is not that of a recipient. -/
  record : ∀ x k', V'.record x = some k' →
    (∃ k, V.record x = some k ∧
      k' = { k with historyMask := k'.historyMask, pendingMask := k'.pendingMask }) ∨
    (V.record x = none ∧ k'.recipient = false)
  recordKept : ∀ x, (V.record x).isSome → (V'.record x).isSome
  clock : V.policy.lastActionAt ≤ V'.policy.lastActionAt
  oracle : (V.policy.oracleEpoch < V'.policy.oracleEpoch ∧ V'.policy.reportValid = false) ∨
    (V'.policy.oracleEpoch = V.policy.oracleEpoch ∧ V'.policy.oracle = V.policy.oracle ∧
      V'.policy.oracleActivatedAt = V.policy.oracleActivatedAt ∧
      V'.policy.reportValid = V.policy.reportValid)
  controller : Rekeyed V.policy.controllerEpoch V'.policy.controllerEpoch
    (V'.policy.controller = V.policy.controller)
  role : ∀ r, Rekeyed (V.role r).epoch (V'.role r).epoch
    ((V'.role r).current = (V.role r).current)

namespace Rekeyed

variable {a b c : U64} {p q s : Prop}

theorem refl (h : p) : Rekeyed a a p := .inr ⟨rfl, h⟩

theorem next (h : a.val + 1 = b.val) : Rekeyed a b p := .inl (Fin.lt_def.mpr (by omega))

theorem trans (h : Rekeyed a b p) (h' : Rekeyed b c q) (hs : p → q → s) : Rekeyed a c s := by
  rcases h with h | ⟨rfl, hp⟩
  · rcases h' with h' | ⟨rfl, -⟩
    · exact .inl (h.trans h')
    · exact .inl h
  · rcases h' with h' | ⟨rfl, hq⟩
    · exact .inl h'
    · exact .inr ⟨rfl, hs hp hq⟩

end Rekeyed

namespace Untouched

theorem refl (V : View) : Untouched V V where
  policy := rfl
  vault := rfl
  approval := rfl
  record _ k' hk := .inl ⟨k', hk, rfl⟩
  recordKept _ h := h
  clock := le_refl V.policy.lastActionAt.val
  oracle := .inr ⟨rfl, rfl, rfl, rfl⟩
  controller := .refl rfl
  role _ := .refl rfl

theorem trans (h : Untouched V V') (h' : Untouched V' V'') : Untouched V V'' where
  policy := by
    rw [h'.policy, h.policy]
  vault := h'.vault.trans h.vault
  approval := h'.approval.trans h.approval
  record x k'' hk := by
    rcases h'.record x k'' hk with ⟨k', hk', he⟩ | ⟨hn, hrec⟩
    · rcases h.record x k' hk' with ⟨k, hk, hk'e⟩ | ⟨hn, hrec⟩
      · refine .inl ⟨k, hk, ?_⟩
        rw [he, hk'e]
      · exact .inr ⟨hn, by rw [he]; exact hrec⟩
    · refine .inr ⟨?_, hrec⟩
      by_contra hne
      have hsome := h.recordKept x (Option.isSome_iff_ne_none.mpr hne)
      simp [hn] at hsome
  recordKept x hx := h'.recordKept x (h.recordKept x hx)
  clock := le_trans (a := V.policy.lastActionAt.val) h.clock h'.clock
  oracle := by
    rcases h'.oracle with ⟨hlt, hr⟩ | ⟨he, ho, ha, hr⟩
    · rcases h.oracle with ⟨hlt', -⟩ | ⟨he', -⟩
      · exact .inl ⟨hlt'.trans hlt, hr⟩
      · exact .inl ⟨he' ▸ hlt, hr⟩
    · rw [he, ho, ha, hr]
      exact h.oracle
  controller := h.controller.trans h'.controller fun hp hq ↦ hq.trans hp
  role r := (h.role r).trans (h'.role r) fun hp hq ↦ hq.trans hp

theorem counters (h : Untouched V V') : SameCounters V.policy V'.policy := by
  rw [h.policy]
  exact ⟨rfl, rfl, rfl, rfl, rfl, rfl, rfl, rfl, rfl, rfl⟩

/-- A release meets the limits that it would have met. -/
theorem windowLimits (h : Untouched V V') (now : I64) :
    windowLimits V'.policy now = windowLimits V.policy now :=
  h.counters.windowLimits (by rw [h.policy]) now

end Untouched

/-! ## One instruction -/

/-- A step that leaves the records and the roles alone. -/
theorem Untouched.of_rest (hclock : V.policy.lastActionAt ≤ V'.policy.lastActionAt)
    (hpolicy : V'.policy = { V.policy with
      lastActionAt := V'.policy.lastActionAt
      oracle := V'.policy.oracle
      oracleEpoch := V'.policy.oracleEpoch
      oracleActivatedAt := V'.policy.oracleActivatedAt
      reportValid := V'.policy.reportValid
      controller := V'.policy.controller
      controllerEpoch := V'.policy.controllerEpoch
      changeSequence := V'.policy.changeSequence
      pendingChange := V'.policy.pendingChange })
    (hvault : V'.vault = V.vault) (happroval : V'.approval = V.approval)
    (hrecord : V'.record = V.record)
    (horacle : (V.policy.oracleEpoch < V'.policy.oracleEpoch ∧ V'.policy.reportValid = false) ∨
      (V'.policy.oracleEpoch = V.policy.oracleEpoch ∧ V'.policy.oracle = V.policy.oracle ∧
        V'.policy.oracleActivatedAt = V.policy.oracleActivatedAt ∧
        V'.policy.reportValid = V.policy.reportValid))
    (hcontroller : Rekeyed V.policy.controllerEpoch V'.policy.controllerEpoch
      (V'.policy.controller = V.policy.controller)) : Untouched V V' where
  policy := by
    have hw : V'.policy.withdrawal = V.policy.withdrawal := by rw [hpolicy]
    rw [hw]
    exact hpolicy
  vault := hvault
  approval := happroval
  record _ k' hk := .inl ⟨k', hrecord ▸ hk, rfl⟩
  recordKept _ hx := hrecord ▸ hx
  clock := hclock
  oracle := horacle
  controller := hcontroller
  role r := by
    have hr : V'.role r = V.role r := by
      unfold View.role
      rw [hpolicy]
    rw [hr]
    exact .refl rfl

/-- A step that writes the clock, one role and the masks of one record. -/
theorem Untouched.of_rotation {now : I64} {r : Role} {w : WithdrawalRole} {x : Pubkey}
    {k j : WithdrawalKeyV7} (hclock : V.policy.lastActionAt ≤ now)
    (hpolicy : V'.policy = V.policy.setRole now r w) (hvault : V'.vault = V.vault)
    (happroval : V'.approval = V.approval) (hk : V.record x = some k)
    (hj : j = { k with historyMask := j.historyMask, pendingMask := j.pendingMask })
    (hrecord : V'.record = Function.update V.record x (some j))
    (hrole : Rekeyed (V.role r).epoch w.epoch (w.current = (V.role r).current)) :
    Untouched V V' where
  policy := by
    rw [hpolicy]
    rfl
  vault := hvault
  approval := happroval
  record y u hu := by
    rw [hrecord, Function.update_apply] at hu
    split at hu
    · next hy =>
      obtain rfl := Option.some.inj hu
      exact .inl ⟨k, hy ▸ hk, hj⟩
    · exact .inl ⟨u, hu, rfl⟩
  recordKept y hy := by
    rw [hrecord, Function.update_apply]
    split
    · rfl
    · exact hy
  clock := by
    rw [hpolicy]
    exact hclock
  oracle := by
    rw [hpolicy]
    exact .inr ⟨rfl, rfl, rfl, rfl⟩
  controller := by
    rw [hpolicy]
    exact .refl rfl
  role s := by
    have hs : V'.role s = if s = r then w else V.role s := by
      unfold View.role
      rw [hpolicy]
      exact PerRole.get_set _ _ _ _
    rw [hs]
    split
    · next h => exact h ▸ hrole
    · exact .refl rfl

/-- A settlement keeps the epoch of its role or raises it with the key. -/
theorem View.settle_untouched {now : I64} {r : Role} {w : WithdrawalRole}
    {q : WithdrawalProposalV7} {k k' : WithdrawalKeyV7} {status : U8}
    (hclock : V.policy.lastActionAt ≤ now) (hp : Pending V r q k) (hsub : k'.subject = q.successor)
    (hk' : k' = { k with historyMask := k'.historyMask, pendingMask := k'.pendingMask })
    (hrole : Rekeyed (V.role r).epoch w.epoch (w.current = (V.role r).current)) :
    Untouched V (V.settle now r w q k' status) := by
  refine .of_rotation hclock rfl rfl rfl hp.record
    (j := { k' with pendingMask := k'.pendingMask &&& ~~~r.bit }) ?_ ?_ hrole
  · rw [hk']
  · simp only [View.settle, View.put, hsub]

theorem Step.untouched (h : Step P V e V') (he : e.act.Governs) : Untouched V V' := by
  have hclock := h.clock_le
  cases h with
  | prepareKey nonzero state vacant =>
    refine { Untouched.refl V with record := fun x k' hk ↦ ?_, recordKept := fun x hx ↦ ?_ }
    · simp only [View.put, Function.update_apply] at hk
      split at hk
      · next hx =>
        obtain rfl := Option.some.inj hk
        exact .inr ⟨hx ▸ vacant, rfl⟩
      · exact .inl ⟨k', hk, rfl⟩
    · simp only [View.put, Function.update_apply]
      split
      · rfl
      · exact hx
  | @propose now signers req k executeAfter expiresAt bump guard after expiry =>
    exact .of_rotation hclock rfl rfl rfl guard.record
      (j := { k with pendingMask := k.pendingMask ||| req.role.bit }) rfl
      (by rw [← guard.subject]; rfl) (.refl rfl)
  | execute tick state pending window eligible next =>
    exact View.settle_untouched tick pending pending.subject rfl (.next next)
  | cancelRotation tick pending =>
    exact View.settle_untouched tick pending pending.subject rfl (.refl rfl)
  | expire tick pending =>
    exact View.settle_untouched tick pending pending.subject rfl (.refl rfl)
  | proposeChange => exact .of_rest hclock rfl rfl rfl rfl (.inr ⟨rfl, rfl, rfl, rfl⟩) (.refl rfl)
  | cancelChange => exact .of_rest hclock rfl rfl rfl rfl (.inr ⟨rfl, rfl, rfl, rfl⟩) (.refl rfl)
  | changeOracle tick pending notice kind next =>
    exact .of_rest hclock rfl rfl rfl rfl
      (.inl ⟨Fin.lt_def.mpr (Nat.lt_of_lt_of_eq (Nat.lt_succ_self _) next), rfl⟩)
      (.refl rfl)
  | changeController tick pending notice kind next =>
    exact .of_rest hclock rfl rfl rfl rfl (.inr ⟨rfl, rfl, rfl, rfl⟩) (.next next)
  | _ => exact he.elim

/-! ## Any sequence -/

/-- What a sequence of attempts leaves of a ledger: of its tokens and of every policy. -/
structure EconomicsKept (d : Deployment) (L L' : Ledger) : Prop where
  tokens : L'.tokens = L.tokens
  absent : ∀ P, L.view d.toChain P = none → L'.view d.toChain P = none
  policy : ∀ P V, L.view d.toChain P = some V → ∃ V', L'.view d.toChain P = some V' ∧
    Untouched V V' ∧ ∀ now, windowLimits V'.policy now = windowLimits V.policy now

namespace EconomicsKept

theorem refl (d : Deployment) (L : Ledger) : EconomicsKept d L L where
  tokens := rfl
  absent _ h := h
  policy _ V hV := ⟨V, hV, .refl V, fun _ ↦ rfl⟩

theorem trans {L'' : Ledger} (h : EconomicsKept d L L') (h' : EconomicsKept d L' L'') :
    EconomicsKept d L L'' where
  tokens := h'.tokens.trans h.tokens
  absent P hP := h'.absent P (h.absent P hP)
  policy P V hV := by
    obtain ⟨V', hV', hu, hl⟩ := h.policy P V hV
    obtain ⟨V'', hV'', hu', hl'⟩ := h'.policy P V' hV'
    exact ⟨V'', hV'', hu.trans hu', fun now ↦ (hl' now).trans (hl now)⟩

end EconomicsKept

theorem Ledger.Sound.keepsEconomics (hL : L.Sound d.toChain) (hp : process d L tx = .ok L')
    (hg : tx.instruction.Governs) : EconomicsKept d L L' where
  tokens := by
    rcases process_tokens hp with h | ⟨k, b, a, h⟩ | ⟨k, h⟩ | ⟨k, a, e, h⟩
    · exact h
    all_goals
      rw [h] at hg
      exact hg.elim
  absent P hP := by
    rcases process_cases hL hp with ⟨-, -, hframe⟩ | ⟨Q, hact, -⟩ | ⟨Q, act, -, href⟩
    · rw [hframe, hP]
    · exact (act_governs hg hact).elim
    · have hQ : P ≠ Q := by
        rintro rfl
        obtain ⟨V, -, hV, -⟩ := href.step
        simp [hP] at hV
      rw [href.frame P hQ, hP]
  policy P V hV := by
    obtain ⟨V', hV', ⟨rfl, -⟩ | ⟨act, hact, hstep⟩⟩ := hL.accepted hV hp
    · exact ⟨V', hV', .refl V', fun _ ↦ rfl⟩
    · have hu := hstep.untouched (act_governs hg hact)
      exact ⟨V', hV', hu, hu.windowLimits⟩

theorem Run.economicsKept_append {tr : List Entry} {L₀ : Ledger} (h₀ : L₀.Sound d.toChain)
    (h : Run d L₀ tr L) (txs : List Tx) (hg : ∀ tx ∈ txs, tx.instruction.Governs) :
    EconomicsKept d L (replay d L txs).2 := by
  refine replayed_induction (R := fun L _ L' ↦ ∀ {tr}, Run d L₀ tr L → EconomicsKept d L L')
    (fun L _ _ ↦ .refl d L) ?_ (fun _ ih ↦ ih) h
  intro L tx L' _ _ htx hp ih tr h
  exact ((h.sound h₀).keepsEconomics hp (hg tx htx)).trans (ih (h.accepted hp))

/-- From any reachable ledger, whatever governance, rotation and preparation instructions are
tried, in whatever order, by whomever and when. -/
theorem Reachable.economicsKept {tr : List Entry} (h : Reachable d tr L) (txs : List Tx)
    (hg : ∀ tx ∈ txs, tx.instruction.Governs) : EconomicsKept d L (replay d L txs).2 := by
  obtain ⟨L₀, h₀, hr⟩ := h
  exact hr.economicsKept_append h₀.sound txs hg

/-- The founder's rotation and the change of oracle of the sample launch, and an attempt that is
too early. -/
theorem economicsKept_sample : EconomicsKept Sample.deployment Sample.pendingRun.2
    (replay Sample.deployment Sample.pendingRun.2 [
      { Sample.executeRotation with now := Sample.seconds 2595300 },
      Sample.executeRotation,
      ⟨Sample.seconds 10371200, [], .executeChange {
        policy := Sample.policy
        proposal := Sample.address (.change Sample.policy 1) }⟩]).2 :=
  Sample.pendingRun_reachable.economicsKept _ (by simp [Instruction.Governs, Sample.executeRotation])

end FundingVaults.LaunchV7
