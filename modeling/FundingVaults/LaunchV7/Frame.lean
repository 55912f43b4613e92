import FundingVaults.LaunchV7.Machine

/-!
# What a step changes

A step touches few accounts.  This file says once what each step can do to the fixed fields of a
policy, to its clock and to the rotation of one role; the invariants of histories are derived from
these statements and never look at the other constructors.
-/

namespace FundingVaults.LaunchV7

variable {P : Pubkey} {V V' : View} {e : Event} {r : Role}

/-! ## Keys -/

/-- Every account stands under its own key. -/
structure View.Keyed (V : View) : Prop where
  vault : ∀ r v, V.vault r = some v → v.role = r.toU8
  approval : ∀ n a, V.approval n = some a → a.period = n
  change : ∀ n q, V.change n = some q → q.nonce = n
  proposal : ∀ r n q, V.proposal r n = some q → q.role = r.toU8 ∧ q.nonce = n
  record : ∀ x k, V.record x = some k → k.subject = x

theorem View.Keyed.put (h : V.Keyed) (a : ProgramAccount) : (V.put a).Keyed := by
  cases a with
  | preparation a => exact h
  | policy p => exact ⟨h.vault, h.approval, h.change, h.proposal, h.record⟩
  | vault v =>
    refine ⟨fun r u hu ↦ ?_, h.approval, h.change, h.proposal, h.record⟩
    simp only [View.put] at hu
    split at hu
    · next hr => rw [← Option.some.inj hu, hr]
    · exact h.vault r u hu
  | approval a =>
    refine ⟨h.vault, fun n b hb ↦ ?_, h.change, h.proposal, h.record⟩
    simp only [View.put, Function.update_apply] at hb
    split at hb
    · next hn => rw [← Option.some.inj hb, hn]
    · exact h.approval n b hb
  | change q =>
    refine ⟨h.vault, h.approval, fun n b hb ↦ ?_, h.proposal, h.record⟩
    simp only [View.put, Function.update_apply] at hb
    split at hb
    · next hn => rw [← Option.some.inj hb, hn]
    · exact h.change n b hb
  | withdrawal q =>
    refine ⟨h.vault, h.approval, h.change, fun r n b hb ↦ ?_, h.record⟩
    simp only [View.put] at hb
    split at hb
    · next hn => rw [← Option.some.inj hb, hn.1, hn.2]; exact ⟨rfl, rfl⟩
    · exact h.proposal r n b hb
  | withdrawalKey k =>
    refine ⟨h.vault, h.approval, h.change, h.proposal, fun x b hb ↦ ?_⟩
    simp only [View.put, Function.update_apply] at hb
    split at hb
    · next hn => rw [← Option.some.inj hb, hn]
    · exact h.record x b hb

theorem Step.keyed (h : Step P V e V') (hk : V.Keyed) : V'.Keyed := by
  cases h with
  | deposit => exact (hk.put _).put _
  | approve => exact ((hk.put _).put _).put _
  | releaseFounder => exact (hk.put _).put _
  | releaseTreasury => exact ((hk.put _).put _).put _
  | propose => exact ((hk.put _).put _).put _
  | execute => exact ((hk.put _).put _).put _
  | cancelRotation => exact ((hk.put _).put _).put _
  | expire => exact ((hk.put _).put _).put _
  | proposeChange => exact (hk.put _).put _
  | cancelChange => exact (hk.put _).put _
  | changeOracle => exact (hk.put _).put _
  | changeController => exact (hk.put _).put _
  | _ => exact hk.put _

theorem path_keyed {chain : Chain} {xs : List Event} (h : (machine chain P).Path xs V) :
    V.Keyed := by
  refine h.always (I := View.Keyed) (fun h ↦ ?_) fun hk hs ↦ Step.keyed hs hk
  constructor <;> simp [h.vault, h.approval, h.change, h.proposal, h.record]

/-! ## Fixed fields -/

/-- The fields of a policy that no instruction writes. -/
structure SameIdentity (p p' : LaunchPolicyV7) : Prop where
  creator : p'.creator = p.creator
  mint : p'.mint = p.mint
  founder : p'.founder = p.founder
  treasury : p'.treasury = p.treasury
  initialOracle : p'.initialOracle = p.initialOracle
  identity : p'.identity = p.identity
  specHash : p'.specHash = p.specHash
  config : p'.config = p.config
  bump : p'.bump = p.bump

namespace SameIdentity

variable {p p' p'' : LaunchPolicyV7}

theorem refl (p : LaunchPolicyV7) : SameIdentity p p :=
  ⟨rfl, rfl, rfl, rfl, rfl, rfl, rfl, rfl, rfl⟩

theorem trans (h : SameIdentity p p') (h' : SameIdentity p' p'') : SameIdentity p p'' :=
  ⟨h'.creator.trans h.creator, h'.mint.trans h.mint, h'.founder.trans h.founder,
    h'.treasury.trans h.treasury, h'.initialOracle.trans h.initialOracle,
    h'.identity.trans h.identity, h'.specHash.trans h.specHash, h'.config.trans h.config,
    h'.bump.trans h.bump⟩

theorem owner (h : SameIdentity p p') (r : Role) : p'.owner r = p.owner r := by
  cases r
  · exact h.founder
  · exact h.treasury

end SameIdentity

theorem Step.sameIdentity (h : Step P V e V') : SameIdentity V.policy V'.policy := by
  cases h <;> exact ⟨rfl, rfl, rfl, rfl, rfl, rfl, rfl, rfl, rfl⟩

theorem steps_sameIdentity {chain : Chain} {xs : List Event}
    (h : (machine chain P).Steps V xs V') : SameIdentity V.policy V'.policy :=
  h.rel (R := fun V V' ↦ SameIdentity V.policy V'.policy) (fun V ↦ .refl V.policy)
    SameIdentity.trans Step.sameIdentity

/-- A policy still has the identity that was validated at its opening. -/
theorem path_opening {chain : Chain} {xs : List Event} (h : (machine chain P).Path xs V) :
    ∃ e V₀, xs.head? = some e ∧ Opened chain e V₀ ∧ SameIdentity V₀.policy V.policy := by
  obtain ⟨e, ys, V₀, rfl, h₀, hs⟩ := h.exists_steps
  exact ⟨e, V₀, rfl, h₀, steps_sameIdentity hs⟩

/-! ## The clock -/

/-- Only the preparation of a key leaves the clock of a policy alone. -/
theorem Step.clock (h : Step P V e V') :
    (∃ x, e.act = .prepareKey x) ∧ V'.policy.lastActionAt = V.policy.lastActionAt ∨
      V.policy.lastActionAt ≤ e.now ∧ V'.policy.lastActionAt = e.now := by
  cases h with
  | deposit guard => exact .inr ⟨guard.tick, rfl⟩
  | report guard => exact .inr ⟨guard.tick, rfl⟩
  | approve guard => exact .inr ⟨guard.tick, rfl⟩
  | releaseFounder guard => exact .inr ⟨guard.tick, rfl⟩
  | releaseTreasury guard => exact .inr ⟨guard.tick, rfl⟩
  | prepareKey => exact .inl ⟨⟨_, rfl⟩, rfl⟩
  | propose guard => exact .inr ⟨guard.tick, rfl⟩
  | proposeChange guard => exact .inr ⟨guard.tick, rfl⟩
  | _ tick => exact .inr ⟨tick, rfl⟩

theorem Step.ticks (h : Step P V e V') (he : ∀ x, e.act ≠ .prepareKey x) :
    V.policy.lastActionAt ≤ e.now ∧ V'.policy.lastActionAt = e.now :=
  h.clock.resolve_left fun ⟨⟨x, hx⟩, _⟩ ↦ he x hx

theorem Step.clock_le (h : Step P V e V') :
    V.policy.lastActionAt ≤ V'.policy.lastActionAt := by
  rcases h.clock with ⟨-, h⟩ | ⟨hle, h⟩
  · exact h ▸ le_refl V.policy.lastActionAt.val
  · exact h ▸ hle

/-! ## Releases -/

/-- Both roles' releases pass the shared checks. -/
theorem Step.releaseGuard {now : I64} {signers : List Pubkey} {authority destination owner : Pubkey}
    {amount epoch : U64}
    (h : Step P V ⟨now, signers, .release r authority amount epoch destination owner⟩ V') :
    ∃ period v, ReleaseGuard V now signers r authority amount epoch period v := by
  cases h with
  | releaseFounder guard => exact ⟨_, _, guard⟩
  | releaseTreasury guard => exact ⟨_, _, guard⟩

/-! ## Rotations -/

/-- The event belongs to the rotation of `r`. -/
def Event.Rotates (r : Role) (e : Event) : Prop :=
  match e.act with
  | .propose req => req.role = r
  | .execute s _ => s = r
  | .cancelRotation s _ _ _ => s = r
  | .expire s _ => s = r
  | _ => False

/-- The proposal that an accepted request stores. -/
structure Proposed (P : Pubkey) (now : I64) (req : RotationRequest) (predecessor : Pubkey)
    (q : WithdrawalProposalV7) : Prop where
  policy : q.policy = P
  role : q.role = req.role.toU8
  nonce : q.nonce = req.nonce
  epoch : q.epoch = req.epoch
  predecessor : q.predecessor = predecessor
  successor : q.successor = req.successor
  recovery : q.recovery = req.recovery
  validFrom : q.validFrom = req.validFrom
  validUntil : q.validUntil = req.validUntil
  createdAt : q.createdAt = now
  executeAfter : q.executeAfter.val = now.val + 7776000
  expiresAt : q.expiresAt.val = now.val + 10368000
  status : q.status = PROPOSAL_PENDING
  finishedAt : q.finishedAt = 0

/-- How a live proposal `q` of `r` is settled: the authority of the role becomes `w`, the status
of the proposal `status`. -/
inductive Settles (V : View) (r : Role) (q : WithdrawalProposalV7) (k : WithdrawalKeyV7) :
    Event → WithdrawalRole → U8 → Prop where
  | execute {now : I64} {signers : List Pubkey} {epoch : U64}
      (state : V.policy.state ≠ CANCELLED) (window : q.executeAfter ≤ now ∧ now < q.expiresAt)
      (eligible : EligibleSuccessor V.policy r k)
      (next : (V.role r).epoch.val + 1 = epoch.val) :
      Settles V r q k ⟨now, signers, .execute r q⟩
        { V.role r with current := q.successor, epoch } PROPOSAL_EXECUTED
  | cancel {now : I64} {signers : List Pubkey} {initiator cosigner : Pubkey}
      (authority : TwoOf (V.policy.config.committee r) initiator cosigner ∨
        (initiator = cosigner ∧ (initiator = q.successor ∨
          (¬ q.recovery ∧ initiator = (V.role r).current))))
      (signed : initiator ∈ signers ∧ cosigner ∈ signers) :
      Settles V r q k ⟨now, signers, .cancelRotation r q initiator cosigner⟩ (V.role r)
        PROPOSAL_CANCELLED
  | expire {now : I64} {signers : List Pubkey} (expired : q.expiresAt ≤ now) :
      Settles V r q k ⟨now, signers, .expire r q⟩ (V.role r) PROPOSAL_EXPIRED

/-- What a step does to the rotation of `r`. -/
inductive Turn (P : Pubkey) (V : View) (r : Role) (e : Event) (V' : View) : Prop where
  | rest (act : ¬ e.Rotates r) (role : V'.role r = V.role r)
      (proposal : V'.proposal r = V.proposal r)
  | propose {req : RotationRequest} {k : WithdrawalKeyV7} {q : WithdrawalProposalV7}
      (act : e.act = .propose req) (mine : req.role = r)
      (guard : ProposeGuard V e.now e.signers req k)
      (stored : Proposed P e.now req (V.role r).current q)
      (role : V'.role r = { V.role r with pending := req.nonce, sequence := req.nonce })
      (proposal : V'.proposal r = Function.update (V.proposal r) req.nonce (some q))
  | settle {q : WithdrawalProposalV7} {k : WithdrawalKeyV7} {w : WithdrawalRole} {status : U8}
      (pending : Pending V r q k) (settles : Settles V r q k e w status)
      (role : V'.role r = { w with pending := 0 })
      (proposal : V'.proposal r =
        Function.update (V.proposal r) q.nonce (some { q with status, finishedAt := e.now }))

section Settle

variable {now : I64} {s : Role} {w : WithdrawalRole} {q : WithdrawalProposalV7}
  {k : WithdrawalKeyV7} {status : U8}

theorem View.settle_role :
    (V.settle now s w q k status).role r = if r = s then { w with pending := 0 } else V.role r := by
  simp only [View.role, ← PerRole.get_set]
  rfl

theorem View.settle_proposal (hq : q.role = s.toU8) :
    (V.settle now s w q k status).proposal r = if r = s then
      Function.update (V.proposal r) q.nonce (some { q with status, finishedAt := now })
    else V.proposal r := by
  funext n
  simp only [View.settle, View.put, hq, Role.toU8_inj]
  by_cases hr : r = s <;> simp [hr, Function.update_apply]

theorem View.settle_record (hk : k.subject = q.successor) (x : Pubkey) :
    (V.settle now s w q k status).record x = if x = q.successor then
      some { k with pendingMask := k.pendingMask &&& ~~~s.bit }
    else V.record x := by
  simp only [View.settle, View.put, Function.update_apply, hk]

/-- A settlement is a turn of its own role and leaves the other one alone. -/
theorem Pending.turn (hp : Pending V s q k) (hs : Settles V s q k e w status)
    (hr : e.Rotates r → r = s) {k' : WithdrawalKeyV7} :
    Turn P V r e (V.settle e.now s w q k' status) := by
  by_cases h : r = s
  · subst h
    exact .settle hp hs (by simp [View.settle_role]) (by simp [View.settle_proposal hp.role])
  · exact .rest (fun he ↦ h (hr he)) (by simp [View.settle_role, h])
      (by simp [View.settle_proposal hp.role, h])

end Settle

theorem Step.turn (h : Step P V e V') (r : Role) : Turn P V r e V' := by
  cases h with
  | @propose now signers req k executeAfter expiresAt bump guard after expiry =>
    by_cases hr : r = req.role
    · subst hr
      refine .propose (q := {
        policy := P
        role := req.role.toU8
        nonce := req.nonce
        epoch := req.epoch
        predecessor := (V.role req.role).current
        successor := req.successor
        recovery := req.recovery
        validFrom := req.validFrom
        validUntil := req.validUntil
        createdAt := now
        executeAfter
        expiresAt
        status := PROPOSAL_PENDING
        finishedAt := 0
        bump }) rfl rfl guard ?_ ?_ ?_
      · have hexpires : expiresAt.val = now.val + 10368000 := by omega
        exact ⟨rfl, rfl, rfl, rfl, rfl, rfl, rfl, rfl, rfl, rfl, after.symm, hexpires, rfl, rfl⟩
      · simp [View.role, View.put, LaunchPolicyV7.setRole]
      · funext n
        simp [View.put, Function.update_apply]
    · refine .rest (fun he ↦ hr he.symm) ?_ ?_
      · simp [View.role, View.put, LaunchPolicyV7.setRole, PerRole.get_set, hr]
      · funext n
        simp [View.put, hr]
  | execute tick state pending window eligible next =>
    exact pending.turn (.execute state window eligible next) fun he ↦ he.symm
  | cancelRotation tick pending authority signed =>
    exact pending.turn (.cancel authority signed) fun he ↦ he.symm
  | expire tick pending expired => exact pending.turn (.expire expired) fun he ↦ he.symm
  | _ => exact .rest (fun h ↦ h) rfl rfl

/-- The rotation of another role leaves a role alone. -/
theorem Turn.of_not_rotates (h : Turn P V r e V') (hr : ¬ e.Rotates r) :
    V'.role r = V.role r ∧ V'.proposal r = V.proposal r := by
  cases h with
  | rest act role proposal => exact ⟨role, proposal⟩
  | propose act mine => exact absurd (by simp [Event.Rotates, act, mine]) hr
  | settle pending settles => cases settles <;> exact absurd rfl hr

end FundingVaults.LaunchV7
