import FundingVaults.LaunchV7.Untouched
import Mathlib.Data.Fintype.Basic

/-!
# Treasury approvals account for every treasury token

An approval belongs to one period and is consumed only by the releases of that period, so what it
has consumed is the tally of those releases.  The period's counter, the two totals and the sum of
all approvals are then tallies of one history.
-/

namespace FundingVaults.LaunchV7

variable {P : Pubkey} {V V' : View} {e : Event} {xs ys : List Event} {chain : Chain} {k : U64}
  {a : TreasuryApprovalV7}

/-! ## The invariant -/

/-- What the treasury has released in a period. -/
def spent (c : LaunchConfig) (k : U64) (xs : List Event) : ℕ :=
  released .treasury (fun t ↦ c.periodOf t = k.val) xs

/-- The approval was signed by the treasury key of its moment, and some later second of its period
is past its notice. -/
def Created (chain : Chain) (P : Pubkey) (c : LaunchConfig) (xs : List Event) (k : U64)
    (a : TreasuryApprovalV7) : Prop :=
  ∃ pre e post U, xs = pre ++ e :: post ∧ (machine chain P).Path pre U ∧
    e.act = .approve a.author k a.need a.authorEpoch a.recipient a.recipientOwner ∧
    a.author ∈ e.signers ∧ (U.role .treasury).current = a.author ∧
    (U.role .treasury).epoch = a.authorEpoch ∧ a.createdAt = e.now ∧
    ∃ t : I64, c.t0 < t ∧ c.periodOf t = k.val ∧ a.createdAt.val + 2592000 ≤ t.val

theorem Created.snoc {c : LaunchConfig} (h : Created chain P c xs k a) (e : Event) :
    Created chain P c (xs ++ [e]) k a := by
  obtain ⟨pre, f, post, U, rfl, h⟩ := h
  exact ⟨pre, f, post ++ [e], U, by simp, h⟩

/-- Only the need, the authorship and the payee of an approval matter for how it was created. -/
theorem Created.consume {c : LaunchConfig} (h : Created chain P c xs k a) (used : U64) :
    Created chain P c xs k { a with consumed := used } := h

structure Accounted (chain : Chain) (P : Pubkey) (xs : List Event) (V : View) : Prop where
  created : ∀ k a, V.approval k = some a → Created chain P V.policy.config xs k a
  consumed : ∀ k a, V.approval k = some a → a.consumed.val = spent V.policy.config k xs
  within : ∀ k a, V.approval k = some a → a.consumed ≤ a.need
  absent : ∀ k, V.approval k = none → spent V.policy.config k xs = 0

theorem Opened.accounted (h : Opened chain e V) : Accounted chain P [e] V where
  created := by simp [h.approval]
  consumed := by simp [h.approval]
  within := by simp [h.approval]
  absent k _ := by simp [spent, released, tally, Event.released, h.act]

/-- A step that neither releases to the treasury nor changes an approval. -/
theorem Accounted.frame (h : Accounted chain P xs V) (he : e.released .treasury = 0)
    (hconfig : V'.policy.config = V.policy.config) (happroval : V'.approval = V.approval) :
    Accounted chain P (xs ++ [e]) V' := by
  have hspent : ∀ k, spent V.policy.config k (xs ++ [e]) = spent V.policy.config k xs :=
    fun k ↦ tally_snoc_of_zero he
  exact {
    created := fun k a ha ↦ by
      rw [happroval] at ha
      rw [hconfig]
      exact (h.created k a ha).snoc e
    consumed := fun k a ha ↦ by
      rw [happroval] at ha
      rw [hconfig, hspent]
      exact h.consumed k a ha
    within := fun k a ha ↦ h.within k a (happroval ▸ ha)
    absent := fun k hk ↦ by
      rw [hconfig, hspent]
      exact h.absent k (happroval ▸ hk) }

/-- The last second of the approved period is past the notice. -/
theorem ApproveGuard.mature {now : I64} {signers : List Pubkey} {treasury owner : Pubkey}
    {need epoch : U64} {x : WithdrawalKeyV7}
    (h : ApproveGuard V now signers treasury k need epoch owner x) :
    ∃ t : I64, V.policy.config.t0 < t ∧ V.policy.config.periodOf t = k.val ∧
      now.val + 2592000 ≤ t.val := by
  have hge := V.policy.config.t0.ge
  have hfin := h.finish
  have hnot := h.notice
  obtain ⟨t, ht⟩ := I64.exists_val_eq (x := V.policy.config.t0.val + (k.val + 1) * 2592000 - 1)
    (by omega) (by omega)
  refine ⟨t, ?_, ?_, by omega⟩
  · rw [I64.lt_iff]
    omega
  · rw [LaunchConfig.periodOf]
    omega

theorem Step.accounted (hpath : (machine chain P).Path xs V) (h : Step P V e V')
    (ha : Accounted chain P xs V) : Accounted chain P (xs ++ [e]) V' := by
  cases h with
  | @approve now signers treasury period need epoch recipient owner x count bump guard counted =>
    have hspent : ∀ k, spent V.policy.config k (xs ++ [⟨now, signers,
        .approve treasury period need epoch recipient owner⟩]) = spent V.policy.config k xs :=
      fun k ↦ tally_snoc_of_zero rfl
    have hput : ∀ {k b}, Function.update V.approval period (some {
        policy := P
        period
        recipient
        recipientOwner := owner
        need
        consumed := 0
        createdAt := now
        bump
        author := treasury
        authorEpoch := epoch }) k = some b →
        (k = period ∧ b = {
          policy := P
          period
          recipient
          recipientOwner := owner
          need
          consumed := 0
          createdAt := now
          bump
          author := treasury
          authorEpoch := epoch }) ∨ V.approval k = some b := by
      intro k b hb
      rw [Function.update_apply] at hb
      split at hb
      · next hk => exact .inl ⟨hk, (Option.some.inj hb).symm⟩
      · exact .inr hb
    exact {
      created := fun k b hb ↦ by
        rcases hput hb with ⟨rfl, rfl⟩ | hb
        · exact ⟨xs, _, [], V, rfl, hpath, rfl, guard.signed, guard.authentic.current,
            guard.authentic.epoch, rfl, guard.mature⟩
        · exact (ha.created k b hb).snoc _
      consumed := fun k b hb ↦ by
        refine Eq.trans ?_ (hspent k).symm
        rcases hput hb with ⟨rfl, rfl⟩ | hb
        · exact (ha.absent k guard.vacant).symm
        · exact ha.consumed k b hb
      within := fun k b hb ↦ by
        rcases hput hb with ⟨rfl, rfl⟩ | hb
        · exact Fin.zero_le _
        · exact ha.within k b hb
      absent := fun k hk ↦ by
        refine (hspent k).trans (ha.absent k ?_)
        simp only [View.put, Function.update_apply] at hk
        split at hk
        · cases hk
        · exact hk }
  | @releaseTreasury now signers authority amount epoch period destination owner v v' p' x a used
      guard approved counted consumed =>
    obtain rfl := approved.period
    have hperiod : V.policy.config.periodOf now = a.period.val :=
      (periodAt_eq_ok.mp guard.inPeriod).2.2.symm
    have hspent : ∀ k : U64, spent V.policy.config k (xs ++ [⟨now, signers,
        .release .treasury authority amount epoch destination owner⟩]) =
          spent V.policy.config k xs + if k = a.period then amount.val else 0 := by
      intro k
      have hiff : V.policy.config.periodOf now = k.val ↔ k = a.period := by
        rw [hperiod, Fin.ext_iff]
        omega
      rw [spent, released_snoc]
      simp only [hiff, and_true]
      rfl
    have hput : ∀ {k b}, Function.update V.approval a.period (some { a with consumed := used }) k =
        some b → (k = a.period ∧ b = { a with consumed := used }) ∨
          (k ≠ a.period ∧ V.approval k = some b) := by
      intro k b hb
      rw [Function.update_apply] at hb
      split at hb
      · next hk => exact .inl ⟨hk, (Option.some.inj hb).symm⟩
      · next hk => exact .inr ⟨hk, hb⟩
    exact {
      created := fun k b hb ↦ by
        rcases hput hb with ⟨rfl, rfl⟩ | ⟨-, hb⟩
        · exact ((ha.created _ a approved.approval).snoc _).consume used
        · exact (ha.created k b hb).snoc _
      consumed := fun k b hb ↦ by
        refine Eq.trans ?_ (hspent k).symm
        rcases hput hb with ⟨rfl, rfl⟩ | ⟨hk, hb⟩
        · rw [if_pos rfl, ← ha.consumed _ a approved.approval]
          exact counted.symm
        · rw [if_neg hk]
          exact ha.consumed k b hb
      within := fun k b hb ↦ by
        rcases hput hb with ⟨rfl, rfl⟩ | ⟨-, hb⟩
        · exact Fin.le_def.mpr (counted ▸ approved.need)
        · exact ha.within k b hb
      absent := fun k hk ↦ by
        simp only [View.put, Function.update_apply] at hk
        split at hk
        · cases hk
        · next hne =>
          refine (hspent k).trans ?_
          rw [if_neg hne]
          exact ha.absent k hk }
  | _ => exact ha.frame rfl rfl rfl

theorem path_accounted (h : (machine chain P).Path xs V) : Accounted chain P xs V :=
  h.invariant (I := Accounted chain P) (fun h ↦ Opened.accounted h)
    fun hp ha hs ↦ Step.accounted hp hs ha

/-! ## Totals -/

/-- What the approval of a period has consumed. -/
def View.consumed (V : View) (k : U64) : ℕ := (V.approval k).elim 0 fun a ↦ a.consumed.val

theorem Accounted.consumed_eq (h : Accounted chain P xs V) (k : U64) :
    V.consumed k = spent V.policy.config k xs := by
  unfold View.consumed
  cases ha : V.approval k with
  | none => exact (h.absent k ha).symm
  | some a => exact h.consumed k a ha

/-- Every release lies in the period of exactly one possible approval. -/
theorem WithinCaps.sum_spent {c : LaunchConfig} (h : WithinCaps c xs) :
    ∑ k, spent c k xs = released .treasury (fun _ ↦ True) xs := by
  refine sum_tally (w := fun (k : U64) (e : Event) ↦ c.periodOf e.now = k.val) fun e he hr ↦ ?_
  obtain ⟨-, -, i, hi⟩ := h.timely e he .treasury hr
  obtain ⟨hle, hlt⟩ := hi
  have := ((c.rule i).endPeriod).isLt
  refine ⟨⟨(c.periodOf e.now).toNat, by omega⟩, fun j ↦ ?_⟩
  rw [Fin.ext_iff]
  simp only
  omega

/-! ## Along a run -/

/-- What is stored of an approval apart from its consumption never changes. -/
theorem Step.approval_kept (h : Step P V e V') (ha : V.approval k = some a) :
    ∃ a', V'.approval k = some a' ∧ a' = { a with consumed := a'.consumed } := by
  cases h with
  | approve guard counted =>
    refine ⟨a, ?_, rfl⟩
    simp only [View.put, Function.update_apply]
    rw [if_neg, ha]
    rintro rfl
    simp [guard.vacant] at ha
  | @releaseTreasury now signers authority amount epoch period destination owner v v' p' x b used
      guard approved counted consumed =>
    obtain rfl := approved.period
    simp only [View.put, Function.update_apply]
    split
    · next hk =>
      subst hk
      obtain rfl := Option.some.inj (ha.symm.trans approved.approval)
      exact ⟨_, rfl, rfl⟩
    · exact ⟨a, ha, rfl⟩
  | _ => exact ⟨a, ha, rfl⟩

theorem steps_approval_kept (h : (machine chain P).Steps V xs V') (ha : V.approval k = some a) :
    ∃ a', V'.approval k = some a' ∧ a' = { a with consumed := a'.consumed } := by
  induction h with
  | refl => exact ⟨a, ha, rfl⟩
  | step _ hs ih =>
    obtain ⟨b, hb, he⟩ := ih
    obtain ⟨c, hc, he'⟩ := Step.approval_kept hs hb
    exact ⟨c, hc, by rw [he', he]⟩

/-- It grows by what the treasury releases in its period. -/
theorem approval_grows (h : (machine chain P).Path xs V) (hs : (machine chain P).Steps V ys V')
    (ha : V.approval k = some a) :
    ∃ a', V'.approval k = some a' ∧ a' = { a with consumed := a'.consumed } ∧
      a'.consumed.val = a.consumed.val + spent V.policy.config k ys := by
  obtain ⟨a', ha', he⟩ := steps_approval_kept hs ha
  refine ⟨a', ha', he, ?_⟩
  rw [(path_accounted (h.append hs)).consumed k a' ha', (path_accounted h).consumed k a ha,
    (steps_sameIdentity hs).config]
  exact tally_append

/-! ## The law of approvals -/

/-- What is true of the treasury's approvals in a state of the policy at `P`. -/
structure ApprovalLaw (d : Deployment) (P : Pubkey) (L : Ledger) (V : View) (xs : List Event) :
    Prop where
  /-- There is one approval for a period, at one address. -/
  unique : ∀ key key' a a', L.program key = some (.approval a) →
    L.program key' = some (.approval a') → a.policy = P → a'.policy = P →
    a.period = a'.period → key = key' ∧ a = a'
  stored : ∀ key a, L.program key = some (.approval a) → a.policy = P →
    V.approval a.period = some a
  within : ∀ k a, V.approval k = some a → a.consumed ≤ a.need
  sum : ∑ k, V.consumed k = V.policy.treasuryReleasedTotal.val
  vault : ∀ v, V.vault .treasury = some v → v.releasedTotal = V.policy.treasuryReleasedTotal
  period : V.consumed V.policy.period = V.policy.treasuryPeriodUsed.val
  created : ∀ k a, V.approval k = some a → Created d.toChain P V.policy.config xs k a
  /-- In whatever follows, only the consumption changes, by the releases of the period. -/
  fixed : ∀ tr L' V', Run d L tr L' → L'.view d.toChain P = some V' →
    ∀ k a, V.approval k = some a → ∃ a', V'.approval k = some a' ∧
      a' = { a with consumed := a'.consumed } ∧
      a'.consumed.val = a.consumed.val + spent V.policy.config k (history P tr)
  /-- An accepted treasury release uses the mature approval of its own period and pays the
  account it records, which its recorded owner still owns. -/
  used : ∀ now signers keys amount epoch L' v,
    process d L ⟨now, signers, .release keys amount epoch⟩ = .ok L' → keys.policy = P →
    L.program keys.vault = some (.vault v) → v.role = TREASURY →
    ∃ k a t used V', ∃ m : Mint, periodAt V.policy.config.t0 now = .ok k ∧
      V.approval k = some a ∧ a.createdAt.val + 2592000 ≤ now.val ∧
      L.tokens.account a.recipient = some t ∧ t.owner = a.recipientOwner ∧
      d.transferChecked L.tokens
        { source := keys.vaultToken, mint := keys.mint, destination := a.recipient
          authority := keys.vault, amount := amount.val, decimals := m.decimals } =
        some L'.tokens ∧
      a.consumed.val + amount.val = used.val ∧ L'.view d.toChain P = some V' ∧
      V'.approval = Function.update V.approval k (some { a with consumed := used })

theorem release_uses {d : Deployment} {L L' : Ledger} (hL : L.Sound d.toChain)
    (hV : L.view d.toChain P = some V) {now : I64} {signers : List Pubkey} {keys : Release.Keys}
    {amount epoch : U64} {v : LaunchVaultV7}
    (hp : process d L ⟨now, signers, .release keys amount epoch⟩ = .ok L')
    (hP : keys.policy = P) (hv : L.program keys.vault = some (.vault v)) (hr : v.role = TREASURY) :
    ∃ k a t used V', ∃ m : Mint, periodAt V.policy.config.t0 now = .ok k ∧
      V.approval k = some a ∧ a.createdAt.val + 2592000 ≤ now.val ∧
      L.tokens.account a.recipient = some t ∧ t.owner = a.recipientOwner ∧
      d.transferChecked L.tokens
        { source := keys.vaultToken, mint := keys.mint, destination := a.recipient
          authority := keys.vault, amount := amount.val, decimals := m.decimals } =
        some L'.tokens ∧
      a.consumed.val + amount.val = used.val ∧ L'.view d.toChain P = some V' ∧
      V'.approval = Function.update V.approval k (some { a with consumed := used }) := by
  subst hP
  obtain ⟨r, w, t, hw, hrole, ht, href⟩ := refines_release hL hp
  obtain rfl : v = w := by simpa using hv.symm.trans hw
  obtain rfl : r = .treasury := Role.toU8_inj.mp (hrole.symm.trans hr)
  obtain ⟨-, -, m, -, -, -, -, -, -, htransfer⟩ := release_transfer hL hp
  obtain ⟨U, V', hU, hV', hstep⟩ := href.step
  obtain rfl := Option.some.inj (hV.symm.trans hU)
  cases hstep with
  | @releaseTreasury _ _ _ _ _ period _ _ _ _ _ x a used guard approved counted consumed =>
    obtain rfl := approved.period
    refine ⟨_, a, t, used, _, m, guard.inPeriod, approved.approval, approved.mature, ?_,
      approved.owner.symm, ?_, counted, hV', rfl⟩
    · rw [approved.destination]
      exact ht
    · rw [approved.destination]
      exact htransfer

theorem Reachable.approvalLaw {d : Deployment} {tr : List Entry} {L : Ledger}
    (h : Reachable d tr L) (hV : L.view d.toChain P = some V) :
    ApprovalLaw d P L V (history P tr) := by
  have hpath := h.path hV
  have ha := path_accounted hpath
  obtain ⟨hc, hw⟩ := path_counted hpath
  have hstored : ∀ key a, L.program key = some (.approval a) → a.policy = P →
      V.approval a.period = some a := fun key a hk hP ↦ View.approval_of hV h.sound hk hP
  exact {
    unique := fun key key' a a' hk hk' hP hP' he ↦ by
      have heq := (hstored key a hk hP).symm.trans (he ▸ hstored key' a' hk' hP')
      refine ⟨?_, Option.some.inj heq⟩
      rw [← (h.sound.canonical hk).address, ← (h.sound.canonical hk').address]
      simp only [ProgramAccount.seeds, hP, hP', he]
    stored := hstored
    within := ha.within
    sum := by
      have htotal : V.policy.treasuryReleasedTotal.val = _ := hc.total .treasury
      rw [htotal, ← hw.sum_spent]
      exact Finset.sum_congr rfl fun k _ ↦ ha.consumed_eq k
    vault := fun v hv ↦ (path_booked hpath).vault .treasury v hv
    period := (ha.consumed_eq _).trans (hc.period .treasury).symm
    created := ha.created
    fixed := fun tr' L' V' hrun hV' k a hk ↦ by
      obtain ⟨W, hW, hs⟩ := hrun.steps h.sound hV
      obtain rfl := Option.some.inj (hV'.symm.trans hW)
      exact approval_grows hpath hs hk
    used := fun now signers keys amount epoch L' v hp hP hv hr ↦
      release_uses h.sound hV hp hP hv hr }

theorem approvalLaw_sample : ∃ V, Sample.run.2.view Sample.chain Sample.policy = some V ∧
    ApprovalLaw Sample.deployment Sample.policy Sample.run.2 V
      (history Sample.policy Sample.run.1) := by
  obtain ⟨p, hp⟩ := Sample.run_policy
  obtain ⟨V, hV, -⟩ := Ledger.exists_view Sample.chain (Ledger.policyAt_eq_some.mp hp)
  exact ⟨V, hV, Sample.run_reachable.approvalLaw hV⟩

end FundingVaults.LaunchV7
