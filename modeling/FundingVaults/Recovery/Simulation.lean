import FundingVaults.LaunchV7.Separation
import FundingVaults.Recovery.Mirror

/-!
# The program refines the model

Every instruction that the program accepts is accepted by the reference model, which ends in a
state that mirrors the policy again.  So every run of a policy is a run of the model, from the
registration of its two roles on.
-/

namespace FundingVaults.Recovery

open LaunchV7 Verifier

variable {digests : Window.Digests} {P : Pubkey} {V V' : View} {e : Event} {xs : List Event}
  {S S' : Window.State} {r s : Role} {x : Pubkey} {now : I64} {chain : Chain}

/-- A step other than an approval leaves the model's approvals alone. -/
theorem approval_of_step (h : Step P V e V')
    (hact : ∀ treasury period need epoch recipient owner,
      e.act ≠ .approve treasury period need epoch recipient owner) (n : U64) :
    (V'.approval n).map Approval.of = (V.approval n).map Approval.of := by
  cases h with
  | approve => exact absurd rfl (hact _ _ _ _ _ _)
  | @releaseTreasury _ _ _ _ _ _ _ _ _ _ _ _ a _ guard approved counted consumed =>
    have hstored := approved.stored
    by_cases hn : n = a.period
    · subst hn
      simp [View.put, hstored, Approval.of]
    · simp [View.put, hn]
  | _ => rfl

/-! ## Checks -/

section Checks

variable {k : WithdrawalKeyV7} (h : Mirrors digests P xs V S) (hi : Indexed xs V)
  (hk : V.record x = some k) (hx : k.subject = x)
include h hi hk hx

/-- An eligible successor is one of the model. -/
theorem Mirrors.allowed (hel : EligibleSuccessor V.policy r k) :
    Allowed S.core (S.core.roles.get r) (shown x) where
  named := named_shown x
  fresh := by
    have hhistory := hel.history
    rw [hi.history x k hk, Role.mask_and_bit] at hhistory
    rw [(h.role r).history, shown_mem_map, roleKeys, List.mem_cons, not_or]
    exact ⟨hx ▸ hel.owner, of_decide_eq_false hhistory⟩
  outside := by
    rw [(h.role r).committee, shown_mem_map, Vector.mem_toList_iff]
    exact hx ▸ hel.committee
  unpaid a ha howner := by
    obtain ⟨n, hn⟩ := Dict.mem_values.mp ha
    obtain ⟨u, -, hu⟩ := (h.approvals n a).mp hn
    obtain ⟨y, hy, rfl⟩ := Option.map_eq_some_iff.mp hu
    have hpayee : V.payee u = some x := by
      rw [View.payee, hy, Option.map_some, shown_injective howner]
    have hrecipient := (hi.recipient x k hk).mpr ⟨u, hpayee⟩
    simp [hel.recipient] at hrecipient

/-- An eligible recipient is not blocked by the model. -/
theorem Mirrors.unblocked (hel : EligibleRecipient V.policy k) :
    shown x ∉ forbiddenRecipients S.core := by
  have hserves := hi.not_serves hk hel.history hel.pending
  have hrole : ∀ r, shown x ∉ (S.core.roles.get r).blocked := by
    intro r
    have hm := h.role r
    rw [RoleState.blocked, List.mem_append, List.mem_append, not_or, not_or]
    refine ⟨⟨?_, ?_⟩, fun hpending ↦ ?_⟩
    · rw [hm.history, shown_mem_map, roleKeys, List.mem_cons, not_or]
      exact ⟨hx ▸ hel.owner r, fun hmem ↦ hserves r (.inl hmem)⟩
    · rw [hm.committee, shown_mem_map, Vector.mem_toList_iff]
      exact hx ▸ hel.committee r
    · rw [Option.mem_toList, hm.pending] at hpending
      refine hserves r (.inr ?_)
      rw [View.nominee]
      split at hpending
      · cases hpending
      · next hne =>
        rw [if_neg hne]
        cases hq : V.proposal r (V.role r).pending with
        | none => simp [hq] at hpending
        | some q =>
          rw [hq] at hpending
          rw [Option.map_some, shown_injective (Option.some.inj hpending)]
  rw [forbiddenRecipients, List.mem_append, not_or]
  exact ⟨hrole .founder, hrole .treasury⟩

end Checks

/-- The clock of the model accepts a time that the clock of the policy accepts. -/
theorem Mirrors.clock_ok (h : Mirrors digests P xs V S) (tick : V.policy.lastActionAt ≤ now)
    (h₀ : 0 ≤ now.val) : (0 ≤ now.val ∧ now.val ≤ maxI64) ∧ S.core.lastAt ≤ now.val :=
  ⟨⟨h₀, Int.le_sub_one_of_lt now.lt⟩, h.clock.trans tick⟩

theorem Mirrors.authentic {key : Pubkey} {epoch : U64} (h : Mirrors digests P xs V S)
    (tick : V.policy.lastActionAt ≤ now) (h₀ : 0 ≤ now.val) (ha : V.Authentic r key epoch) :
    Authentic S.core r (shown key) epoch.val now.val where
  clock := h.clock_ok tick h₀
  range := ⟨Int.natCast_nonneg _, by have := epoch.isLt; simp only [maxU64]; omega⟩
  idle := by rw [(h.role r).pending, if_pos ha.unpaused]
  current := by rw [(h.role r).current, ha.current]
  epoch := by rw [(h.role r).epoch, ha.epoch]

theorem written_injective : Function.Injective written := fun a b h ↦
  Fin.ext (by simpa [written] using h)

theorem key_injective : Function.Injective (Prod.map (id : Role → Role) written) :=
  Function.injective_id.prodMap written_injective

/-! ## Steps of a role -/

section Roles

variable {w : RoleState}

theorem RoleMirrors.rest (h : RoleMirrors digests P xs V r w)
    (hid : SameIdentity V.policy V'.policy) (act : ¬ e.Rotates r)
    (role : V'.role r = V.role r) (proposal : V'.proposal r = V.proposal r) :
    RoleMirrors digests P (xs ++ [e]) V' r w where
  initial := by rw [hid.owner, h.initial]
  current := by rw [role, h.current]
  committee := by rw [hid.config, h.committee]
  history := by
    rw [roleKeys_congr hid, roleKeys, successors_of_not_rotates act, h.history, roleKeys]
  epoch := by rw [role, h.epoch]
  sequence := by rw [role, h.sequence]
  pending := by rw [role, proposal, h.pending]
  tombstones := h.tombstones.congr fun n ↦ by rw [closedProposal, closedProposal, proposal]

theorem RoleMirrors.propose {req : RotationRequest} {q : WithdrawalProposalV7}
    (h : RoleMirrors digests P xs V r w) (hid : SameIdentity V.policy V'.policy)
    (act : e.act = .propose req) (stored : Proposed P e.now req (V.role r).current q)
    (vacant : V.proposal r req.nonce = none) (positive : req.nonce ≠ 0)
    (role : V'.role r = { V.role r with pending := req.nonce, sequence := req.nonce })
    (proposal : V'.proposal r = Function.update (V.proposal r) req.nonce (some q)) :
    RoleMirrors digests P (xs ++ [e]) V' r
      { w with pending := some (.of P r q), sequence := req.nonce.val } where
  initial := by rw [hid.owner, h.initial]
  current := by rw [role, h.current]
  committee := by rw [hid.config, h.committee]
  history := by
    rw [roleKeys_congr hid, roleKeys, successors_snoc, Event.successor?, act, Option.toList_none,
      List.append_nil, h.history, roleKeys]
  epoch := by rw [role, h.epoch]
  sequence := by rw [role]
  pending := by
    rw [role, if_neg positive, proposal, Function.update_self, Option.map_some]
  tombstones := h.tombstones.congr fun n ↦ by
    simp only [closedProposal, proposal, Function.update_apply]
    split
    · next hn => simp [hn, vacant, stored.status]
    · rfl

theorem RoleMirrors.settle {q : WithdrawalProposalV7} {k : WithdrawalKeyV7} {u : WithdrawalRole}
    {status : U8} {w' : RoleState} (h : RoleMirrors digests P xs V r w)
    (hid : SameIdentity V.policy V'.policy) (settles : Settles V r q k e u status)
    (role : V'.role r = { u with pending := 0 })
    (proposal : V'.proposal r =
      Function.update (V.proposal r) q.nonce (some { q with status, finishedAt := e.now }))
    (hw : w' = { w with
      current := shown u.current
      history := (roleKeys V.policy r (xs ++ [e])).map shown
      epoch := u.epoch.val
      tombstones := w.tombstones.set (written q.nonce)
        (.of digests P r { q with status, finishedAt := e.now })
      pending := none }) : RoleMirrors digests P (xs ++ [e]) V' r w' := by
  subst hw
  exact {
    initial := by rw [hid.owner, h.initial]
    current := by rw [role]
    committee := by rw [hid.config, h.committee]
    history := by rw [roleKeys_congr hid]
    epoch := by rw [role]
    sequence := by rw [role, h.sequence, ← settles.sequence]
    pending := by rw [role, if_pos rfl]
    tombstones := (h.tombstones.set written_injective).congr fun n ↦ by
      simp only [closedProposal, proposal, Function.update_apply]
      split
      · simp [settles.closed]
      · rfl }

end Roles

/-! ## Steps of the model -/

/-- A state of the model that differs from `S` in its roles, approvals, admissions and clock. -/
structure SameModel (S S' : Window.State) : Prop where
  program : S'.program = S.program
  identity : S'.identity = S.identity
  policy : S'.core.policy = S.core.policy
  controller : S'.core.controller = S.core.controller
  t0 : S'.core.t0 = S.core.t0

theorem SameModel.intent (h : SameModel S S') (r : Role) (q : WithdrawalProposalV7) :
    S'.intent r q = S.intent r q := by
  rw [Window.State.intent, h.program, h.policy, h.identity, Window.State.intent]

theorem SameModel.admitted {p : Proposal} {a : Admission} (hm : SameModel S S')
    (h : Window.Admitted digests S p a) : Window.Admitted digests S' p a where
  valid := h.valid
  digest := h.digest
  domain := by rw [hm.program, hm.policy, hm.identity]; exact h.domain
  proposal := h.proposal
  time := h.time
  notice := h.notice

/-- The masks of the records are those of the model's history. -/
theorem RoleMirrors.records {w : RoleState} (h : RoleMirrors digests P xs V r w)
    (hi : Indexed xs V) (s : String) : s ∈ w.history.tail ↔
      ∃ x k, s = shown x ∧ V.record x = some k ∧ k.historyMask &&& r.bit ≠ 0 := by
  rw [h.history, roleKeys, List.map_cons, List.tail_cons, List.mem_map]
  constructor
  · rintro ⟨x, hx, rfl⟩
    obtain ⟨k, hk⟩ := Option.ne_none_iff_exists'.mp (hi.serving r x (.inl hx))
    refine ⟨x, k, rfl, hk, ?_⟩
    rw [hi.history x k hk, Ne, Role.mask_and_bit]
    simp [hx]
  · rintro ⟨x, k, rfl, hk, hbit⟩
    rw [hi.history x k hk, Ne, Role.mask_and_bit] at hbit
    exact ⟨x, by simpa using hbit, rfl⟩

/-- The parts of the relation that a step has to establish anew. -/
theorem Mirrors.next (h : Mirrors digests P xs V S) (hs : Step P V e V')
    (hi' : Indexed (xs ++ [e]) V') (hm : SameModel S S')
    (clock : S'.core.lastAt ≤ V'.policy.lastActionAt.val)
    (role : ∀ r, RoleMirrors digests P (xs ++ [e]) V' r (S'.core.roles.get r))
    (approvals : S'.core.approvals.Lists written fun n ↦ (V'.approval n).map Approval.of)
    (admissions : S'.admissions.Lists (Prod.map id written) (admission digests S V'))
    (admitted : ∀ r q, e.Rotates r → (V'.role r).pending ≠ 0 →
      V'.proposal r (V'.role r).pending = some q →
      Window.Admitted digests S (.of P r q) (.of digests (S.intent r q) q)) :
    Mirrors digests P (xs ++ [e]) V' S' := by
  have hid := hs.sameIdentity
  exact {
    program := hm.program.trans h.program
    policy := hm.policy.trans h.policy
    identity := by rw [hm.identity, h.identity, hid.identity]
    controller := by rw [hm.controller, h.controller, hid.creator]
    t0 := by rw [hm.t0, h.t0, hid.config]
    clock
    role
    records := fun r ↦ (role r).records hi'
    approvals
    admissions := admissions.congr fun x ↦ by
      simp only [admission, hm.intent]
    admitted := fun r q hne hq ↦ by
      rw [hm.intent]
      refine hm.admitted ?_
      by_cases hr : e.Rotates r
      · exact admitted r q hr hne hq
      · obtain ⟨hrole, hproposal⟩ := (hs.turn r).of_not_rotates hr
        rw [hrole] at hne hq
        rw [hproposal] at hq
        exact h.admitted r q hne hq }

/-- An instruction that the model does not have. -/
theorem Mirrors.frame (h : Mirrors digests P xs V S) (hs : Step P V e V')
    (hi' : Indexed (xs ++ [e]) V') (hr : ∀ r, ¬ e.Rotates r)
    (hact : ∀ treasury period need epoch recipient owner,
      e.act ≠ .approve treasury period need epoch recipient owner) :
    Mirrors digests P (xs ++ [e]) V' S := by
  have hturn := fun r ↦ (hs.turn r).of_not_rotates (hr r)
  refine h.next hs hi' ⟨rfl, rfl, rfl, rfl, rfl⟩ (h.clock.trans hs.clock_le) (fun r ↦ ?_)
    (h.approvals.congr fun n ↦ approval_of_step hs hact n) (h.admissions.congr fun x ↦ ?_)
    fun r _ hr' ↦ absurd hr' (hr r)
  · exact (h.role r).rest hs.sameIdentity (hr r) (hturn r).1 (hturn r).2
  · rw [admission, admission, (hturn x.1).2]

/-! ## Proposals -/

/-- The intent of a proposal that is about to be stored is valid. -/
theorem Mirrors.valid {signers : List Pubkey} {req : RotationRequest} {k : WithdrawalKeyV7}
    {q : WithdrawalProposalV7} (h : Mirrors digests P xs V S)
    (guard : ProposeGuard V now signers req k)
    (stored : Proposed P now req (V.role req.role).current q) :
    Window.Valid (S.intent req.role q) where
  named := by
    simp only [Window.State.intent, Intent.of, h.program, h.policy]
    exact ⟨named_shown _, named_shown _, named_shown _, named_shown _⟩
  identity := by
    simp only [Window.State.intent, Intent.of, h.identity]
    exact identityText_hex _
  nonce := ⟨Int.natCast_nonneg _, by
    have := q.nonce.isLt
    simp only [Window.State.intent, Intent.of, maxU64]
    omega⟩
  epoch := ⟨Int.natCast_nonneg _, by
    have := q.epoch.isLt
    simp only [Window.State.intent, Intent.of, maxU64]
    omega⟩
  interval := by
    have hle := I64.le_iff.mp guard.admitted.1
    have hle' := I64.le_iff.mp guard.admitted.2
    simp only [Window.State.intent, Intent.of, stored.validFrom, stored.validUntil]
    exact ⟨guard.positive, by omega, guard.width⟩
  fits := by
    have hfits := guard.fits
    simp only [Window.State.intent, Intent.of, stored.validUntil, maxI64, NOTICE,
      EXECUTION_WINDOW, DAY]
    omega

/-- The proposal that the model stores. -/
theorem Proposal.of_proposed {req : RotationRequest} {predecessor : Pubkey}
    {q : WithdrawalProposalV7} (stored : Proposed P now req predecessor q) :
    Proposal.of P r q = {
      policy := shown P, role := r, nonce := req.nonce.val, epoch := req.epoch.val
      predecessor := shown predecessor, successor := shown req.successor
      mode := .of req.recovery, createdAt := now.val, executeAfter := now.val + NOTICE
      expiresAt := now.val + NOTICE + EXECUTION_WINDOW } := by
  have hafter := stored.executeAfter
  have hexpires := stored.expiresAt
  simp only [Proposal.of, stored.nonce, stored.epoch, stored.predecessor, stored.successor,
    stored.recovery, stored.createdAt, Proposal.mk.injEq, NOTICE, EXECUTION_WINDOW, DAY, true_and]
  omega

theorem Mirrors.proposable {signers : List Pubkey} {req : RotationRequest} {k : WithdrawalKeyV7}
    {attesters : List String} (h : Mirrors digests P xs V S) (hi : Indexed xs V)
    (guard : ProposeGuard V now signers req k)
    (hattest : ∀ key ∈ [req.initiator, req.cosigner, req.successor], shown key ∈ attesters) :
    Proposable S.core req.role (shown req.successor) (.of req.recovery) req.nonce.val
      req.epoch.val attesters now.val := by
  have hm := h.role req.role
  have hfrom := I64.le_iff.mp guard.admitted.1
  have huntil := I64.le_iff.mp guard.admitted.2
  have hpositive := guard.positive
  have hfits := guard.fits
  have hnonce := guard.nonce
  have hlt := req.nonce.isLt
  have hepoch := guard.epochFits
  rw [List.forall_mem_cons, List.forall_mem_cons, List.forall_mem_cons] at hattest
  obtain ⟨hinitiator, hcosigner, hsuccessor, -⟩ := hattest
  exact {
    clock := ⟨hpositive.trans hfrom, h.clock.trans guard.tick⟩
    fits := by
      simp only [maxI64, NOTICE, EXECUTION_WINDOW, DAY]
      omega
    idle := by rw [hm.pending, if_pos guard.idle]
    sequence := by
      rw [hm.sequence]
      simp only [maxU64]
      omega
    nonce := by
      rw [hm.sequence]
      omega
    epoch := by
      rw [hm.epoch, guard.epoch]
      simp only [maxU64]
      exact ⟨trivial, Int.natCast_nonneg _, by omega⟩
    allowed := h.allowed hi guard.record guard.subject guard.eligible
    acceptance := hsuccessor
    authority := by
      have hauthority := guard.authority
      cases hrec : req.recovery with
      | false =>
        rw [hrec, if_neg Bool.false_ne_true] at hauthority
        rw [Mode.of, if_neg Bool.false_ne_true, if_pos rfl, hm.current, ← hauthority.1]
        exact hinitiator
      | true =>
        rw [hrec, if_pos rfl] at hauthority
        rw [Mode.of, if_pos rfl, if_neg (by decide)]
        exact quorum_of_twoOf hm.committee hauthority hinitiator hcosigner }

theorem Mirrors.propose {signers : List Pubkey} {req : RotationRequest}
    (h : Mirrors digests P xs V S) (hi : Indexed xs V)
    (hs : Step P V ⟨now, signers, .propose req⟩ V')
    (hi' : Indexed (xs ++ [⟨now, signers, .propose req⟩]) V') :
    ∃ S', follow digests S ⟨now, signers, .propose req⟩ = .ok S' ∧
      Mirrors digests P (xs ++ [⟨now, signers, .propose req⟩]) V' S' := by
  obtain ⟨k, q, guard, stored, role, proposal⟩ : ∃ k q, ProposeGuard V now signers req k ∧
      Proposed P now req (V.role req.role).current q ∧
      V'.role req.role = { V.role req.role with pending := req.nonce, sequence := req.nonce } ∧
      V'.proposal req.role = Function.update (V.proposal req.role) req.nonce (some q) := by
    cases hs.turn req.role with
    | rest act => exact absurd rfl act
    | propose act mine guard stored role proposal =>
      obtain rfl := Act.propose.inj act
      exact ⟨_, _, guard, stored, role, proposal⟩
    | settle pending settles => cases settles
  have hm := h.role req.role
  have hvalid := h.valid guard stored
  have hnonce := guard.nonce
  have hpositive : req.nonce ≠ 0 := by
    intro hzero
    simp [hzero] at hnonce
  -- The model prepares the intent of the stored proposal.
  have hintent : S.intent req.role q = {
      program := S.program, policy := S.core.policy, identity := S.identity, role := req.role
      predecessor := (S.core.roles.get req.role).current, successor := shown req.successor
      mode := .of req.recovery, nonce := (S.core.roles.get req.role).sequence + 1
      epoch := (S.core.roles.get req.role).epoch, validFrom := req.validFrom.val
      validUntil := req.validUntil.val } := by
    simp only [Window.State.intent, Intent.of, stored.predecessor, stored.successor,
      stored.recovery, stored.nonce, stored.epoch, stored.validFrom, stored.validUntil, hm.current,
      hm.sequence, hm.epoch, guard.epoch, ← hnonce]
    rfl
  have hprepare : Window.prepare S req.role (shown req.successor) (.of req.recovery)
      req.validFrom.val req.validUntil.val = .ok (S.intent req.role q) := by
    rw [hintent] at hvalid
    simp only [Window.prepare, bind_eq_ok, Window.validateIntent_eq_ok, pure_eq_ok, exists_const]
    exact ⟨hvalid, hintent.symm⟩
  obtain ⟨attestations, hattestations⟩ : ∃ d, d = Dict.ofList
      ([req.initiator, req.cosigner, req.successor].map fun k ↦
        (shown k, digests.intent (S.intent req.role q))) := ⟨_, rfl⟩
  have hkeys : ∀ key ∈ [req.initiator, req.cosigner, req.successor],
      shown key ∈ attestations.keys := by
    intro key hkey
    rw [hattestations, Dict.ofList, Dict.mem_keys_update, List.map_map]
    exact .inr (List.mem_map_of_mem (f := shown) hkey)
  have hattested : ∀ a ∈ attestations.entries,
      Named a.1 ∧ a.2 = digests.intent (S.intent req.role q) := by
    intro a ha
    rw [hattestations, Dict.ofList] at ha
    rcases Dict.mem_entries_update ha with ha | ha
    · cases ha
    · obtain ⟨key, -, rfl⟩ := List.mem_map.mp ha
      exact ⟨named_shown key, rfl⟩
  have hproposable := h.proposable hi guard hkeys
  have hunused : (req.role, (req.nonce.val : ℤ)) ∉ S.admissions.keys := by
    rw [← Dict.get?_eq_none]
    refine (h.admissions.get?_key key_injective (i := (req.role, req.nonce))).trans ?_
    rw [admission, guard.vacant, Option.map_none]
  have hsubmittable : Window.Submittable digests S (S.intent req.role q) attestations now.val := {
    valid := hvalid
    domain := ⟨rfl, rfl, rfl⟩
    time := by
      rw [hintent]
      exact guard.admitted
    predecessor := by rw [hintent]
    attested := hattested
    proposable := by
      simpa only [Window.State.intent, Intent.of, stored.successor, stored.recovery,
        stored.nonce, stored.epoch] using hproposable
    unused := by
      simpa only [Window.State.intent, Intent.of, stored.nonce] using hunused }
  have hsubmit := hsubmittable.submit (by
    simp only [Window.State.intent, Intent.of, stored.successor, stored.recovery, stored.nonce,
      stored.epoch]
    exact hproposable.propose)
  have hkey : ((S.intent req.role q).role, (S.intent req.role q).nonce) =
      Prod.map id written (req.role, req.nonce) := by
    rw [hintent, hm.sequence]
    exact Prod.ext rfl (by simp only [Prod.map, written]; omega)
  have hadmission : { intent := S.intent req.role q
                      intentDigest := digests.intent (S.intent req.role q)
                      acceptedAt := now.val } = Admission.of digests (S.intent req.role q) q := by
    rw [Admission.of, stored.createdAt]
  rw [hkey, hadmission] at hsubmit
  have hclock : now.val ≤ V'.policy.lastActionAt.val :=
    (hs.ticks (by simp)).2 ▸ Int.le_refl _
  refine ⟨_, bind_eq_ok.mpr ⟨_, hprepare, hattestations ▸ hsubmit⟩, ?_⟩
  refine h.next hs hi' ⟨rfl, rfl, rfl, rfl, rfl⟩ hclock (fun s ↦ ?_)
    (h.approvals.congr fun n ↦ approval_of_step hs (by simp) n)
    ((h.admissions.set key_injective).congr fun x ↦ ?_) fun s u hsr hne hu ↦ ?_
  · simp only [PerRole.get_set]
    split
    · next hsr =>
      subst hsr
      have hstep := hm.propose (e := ⟨now, signers, .propose req⟩) hs.sameIdentity rfl stored
        guard.vacant hpositive role proposal
      rw [Proposal.of_proposed stored, ← h.policy, ← hm.current] at hstep
      exact hstep
    · next hsr =>
      have hrotates : ¬ Event.Rotates s ⟨now, signers, .propose req⟩ := fun hr ↦ hsr hr.symm
      obtain ⟨hrole, hproposal⟩ := (hs.turn s).of_not_rotates hrotates
      exact (h.role s).rest hs.sameIdentity hrotates hrole hproposal
  · obtain ⟨s, n⟩ := x
    by_cases hsr : s = req.role
    · subst hsr
      by_cases hn : n = req.nonce
      · subst hn
        simp [admission, proposal]
      · simp [admission, proposal, hn]
    · have hrotates : ¬ Event.Rotates s ⟨now, signers, .propose req⟩ := fun hr ↦ hsr hr.symm
      simp [admission, ((hs.turn s).of_not_rotates hrotates).2, hsr]
  · obtain rfl : req.role = s := hsr
    obtain rfl : q = u := by simpa [role, proposal] using hu
    exact {
      valid := hvalid
      digest := rfl
      domain := ⟨rfl, rfl, rfl⟩
      proposal := ⟨h.policy.symm, rfl, rfl, rfl, rfl, rfl, rfl⟩
      time := by
        rw [hintent]
        simp only [Admission.of, stored.createdAt]
        exact guard.admitted
      notice := by
        rw [Proposal.of_proposed stored]
        simp only [Admission.of, stored.createdAt, and_self] }


/-! ## Settlements -/

section Settle

variable {q : WithdrawalProposalV7} {k : WithdrawalKeyV7} {u : WithdrawalRole} {status : U8}

/-- The live proposal, which is the only one that an instruction settles. -/
theorem Pending.live (hp : Pending V r q k) (hn : Numbered P xs V r) :
    (V.role r).pending ≠ 0 ∧ V.proposal r (V.role r).pending = some q := by
  have hpositive := (hn.stored _ _ hp.stored).1
  rw [← hp.nonce]
  exact ⟨hpositive.ne', hp.stored⟩

theorem Mirrors.waiting (h : Mirrors digests P xs V S) (hn : Numbered P xs V r)
    (hp : Pending V r q k) (tick : V.policy.lastActionAt ≤ now) (h₀ : 0 ≤ now.val) :
    Waiting S.core r (.of P r q) now.val := by
  obtain ⟨hne, hq⟩ := Pending.live hp hn
  have hm := h.role r
  exact {
    clock := h.clock_ok tick h₀
    waiting := by rw [hm.pending, if_neg hne, hq, Option.map_some]
    policy := h.policy.symm
    mine := rfl
    epoch := by rw [hm.epoch, ← hp.epoch, Proposal.of]
    predecessor := by rw [hm.current, ← hp.predecessor, Proposal.of]
    nonce := by rw [hm.sequence, ← hp.sequence, Proposal.of] }

/-- The model after the proposal of `r` is settled. -/
def settled (S : Window.State) (now : I64) (r : Role) (w : RoleState) : Window.State :=
  { S with core := { S.core with roles := S.core.roles.set r w, lastAt := now.val } }

theorem Mirrors.settle {w : RoleState} (h : Mirrors digests P xs V S) (hs : Step P V e V')
    (hi' : Indexed (xs ++ [e]) V') (hp : Pending V r q k) (hset : Settles V r q k e u status)
    (role : V'.role r = { u with pending := 0 })
    (proposal : V'.proposal r =
      Function.update (V.proposal r) q.nonce (some { q with status, finishedAt := e.now }))
    (hw : w = { S.core.roles.get r with
      current := shown u.current
      history := (roleKeys V.policy r (xs ++ [e])).map shown
      epoch := u.epoch.val
      tombstones := (S.core.roles.get r).tombstones.set (written q.nonce)
        (.of digests P r { q with status, finishedAt := e.now })
      pending := none }) :
    Mirrors digests P (xs ++ [e]) V' (settled S e.now r w) := by
  have hclock : e.now.val ≤ V'.policy.lastActionAt.val :=
    (hs.ticks (by cases hset <;> simp)).2 ▸ Int.le_refl _
  have hrotates : ∀ s, e.Rotates s ↔ s = r := fun s ↦ by
    cases hset <;> exact eq_comm
  have hact : ∀ treasury period need epoch recipient owner,
      e.act ≠ .approve treasury period need epoch recipient owner := by
    cases hset <;> simp
  refine h.next hs hi' ⟨rfl, rfl, rfl, rfl, rfl⟩ hclock (fun s ↦ ?_)
    (h.approvals.congr fun n ↦ approval_of_step hs hact n)
    (h.admissions.congr fun x ↦ ?_) fun s v hsr hne hv ↦ ?_
  · simp only [settled, PerRole.get_set]
    split
    · next hsr =>
      subst hsr
      exact (h.role s).settle hs.sameIdentity hset role proposal hw
    · next hsr =>
      obtain ⟨hrole, hproposal⟩ := (hs.turn s).of_not_rotates (mt (hrotates s).mp hsr)
      exact (h.role s).rest hs.sameIdentity (mt (hrotates s).mp hsr) hrole hproposal
  · obtain ⟨s, n⟩ := x
    by_cases hsr : s = r
    · subst hsr
      simp only [admission, proposal, Function.update_apply]
      split
      · next hn =>
        subst hn
        rw [hp.stored]
        rfl
      · rfl
    · rw [admission, admission, ((hs.turn s).of_not_rotates (mt (hrotates s).mp hsr)).2]
  · obtain rfl := (hrotates s).mp hsr
    exact absurd (by rw [role]) hne

/-- The digest by which the program's proposal is named is the admitted one. -/
theorem Mirrors.admission_get? (h : Mirrors digests P xs V S) (hp : Pending V r q k) :
    S.admissions.get? (r, (Proposal.of P r q).nonce) = some (.of digests (S.intent r q) q) := by
  refine (h.admissions.get?_key key_injective (i := (r, q.nonce))).trans ?_
  rw [admission, hp.stored, Option.map_some]

variable {signers : List Pubkey}

theorem Mirrors.execute (h : Mirrors digests P xs V S) (hn : Numbered P xs V r)
    (hi : Indexed xs V) (h₀ : 0 ≤ now.val) (hs : Step P V ⟨now, signers, .execute r q⟩ V')
    (hi' : Indexed (xs ++ [⟨now, signers, .execute r q⟩]) V') :
    ∃ S', follow digests S ⟨now, signers, .execute r q⟩ = .ok S' ∧
      Mirrors digests P (xs ++ [⟨now, signers, .execute r q⟩]) V' S' := by
  have hm := h.role r
  cases hs.turn r with
  | rest act => exact absurd rfl act
  | propose act => cases act
  | settle pending settles role proposal =>
    cases settles with
    | execute state window eligible next =>
      obtain ⟨hne, hq⟩ := Pending.live pending hn
      have hwait := h.waiting hn pending (hs.ticks (by simp)).1 h₀
      refine ⟨_, (h.admitted r q hne hq).execute hwait.waiting (h.admission_get? pending)
        (hwait.execute window (h.allowed hi pending.record pending.subject eligible)),
        h.settle hs hi' pending (.execute state window eligible next) role proposal ?_⟩
      have hhistory : (S.core.roles.get r).history ++ [shown q.successor] =
          (roleKeys V.policy r (xs ++ [⟨now, signers, .execute r q⟩])).map shown := by
        simp [hm.history, roleKeys, successors_snoc, Event.successor?]
      have hepoch : (S.core.roles.get r).epoch + 1 = _ :=
        (congrArg (· + 1) hm.epoch).trans (congrArg Nat.cast next)
      rw [← hhistory, ← hepoch]
      rfl

theorem Mirrors.cancel {initiator cosigner : Pubkey} (h : Mirrors digests P xs V S)
    (hn : Numbered P xs V r) (h₀ : 0 ≤ now.val)
    (hs : Step P V ⟨now, signers, .cancelRotation r q initiator cosigner⟩ V')
    (hi' : Indexed (xs ++ [⟨now, signers, .cancelRotation r q initiator cosigner⟩]) V') :
    ∃ S', follow digests S ⟨now, signers, .cancelRotation r q initiator cosigner⟩ = .ok S' ∧
      Mirrors digests P (xs ++ [⟨now, signers, .cancelRotation r q initiator cosigner⟩]) V' S' := by
  have hm := h.role r
  cases hs.turn r with
  | rest act => exact absurd rfl act
  | propose act => cases act
  | settle pending settles role proposal =>
    cases settles with
    | cancel authority signed =>
      obtain ⟨hne, hq⟩ := Pending.live pending hn
      have hwait := h.waiting hn pending (hs.ticks (by simp)).1 h₀
      have hauthority : (Proposal.of P r q).successor ∈ [shown initiator, shown cosigner] ∨
          quorum (S.core.roles.get r) [shown initiator, shown cosigner] ∨
          ((Proposal.of P r q).mode = .normal ∧
            (S.core.roles.get r).current ∈ [shown initiator, shown cosigner]) := by
        rcases authority with htwo | ⟨rfl, rfl | ⟨hrec, rfl⟩⟩
        · exact .inr (.inl (quorum_of_twoOf hm.committee htwo (by simp) (by simp)))
        · exact .inl (by simp [Proposal.of])
        · exact .inr (.inr ⟨by simp [Proposal.of, Mode.of, hrec], by simp [hm.current]⟩)
      refine ⟨_, (h.admitted r q hne hq).cancel hwait.waiting (h.admission_get? pending)
        (hwait.cancel hauthority),
        h.settle hs hi' pending (.cancel authority signed) role proposal ?_⟩
      rw [roleKeys, successors_snoc, Event.successor?, Option.toList_none, List.append_nil,
        ← roleKeys, ← hm.history, ← hm.current, ← hm.epoch]
      rfl

theorem Mirrors.expire (h : Mirrors digests P xs V S) (hn : Numbered P xs V r)
    (h₀ : 0 ≤ now.val) (hs : Step P V ⟨now, signers, .expire r q⟩ V')
    (hi' : Indexed (xs ++ [⟨now, signers, .expire r q⟩]) V') :
    ∃ S', follow digests S ⟨now, signers, .expire r q⟩ = .ok S' ∧
      Mirrors digests P (xs ++ [⟨now, signers, .expire r q⟩]) V' S' := by
  have hm := h.role r
  cases hs.turn r with
  | rest act => exact absurd rfl act
  | propose act => cases act
  | settle pending settles role proposal =>
    cases settles with
    | expire expired =>
      obtain ⟨hne, hq⟩ := Pending.live pending hn
      have hwait := h.waiting hn pending (hs.ticks (by simp)).1 h₀
      refine ⟨_, (h.admitted r q hne hq).expire hwait.waiting (h.admission_get? pending)
        (hwait.expire expired), h.settle hs hi' pending (.expire expired) role proposal ?_⟩
      rw [roleKeys, successors_snoc, Event.successor?, Option.toList_none, List.append_nil,
        ← roleKeys, ← hm.history, ← hm.current, ← hm.epoch]
      rfl

end Settle

/-! ## Approvals and releases -/

theorem Mirrors.approve {signers : List Pubkey} {treasury recipient owner : Pubkey}
    {period need epoch : U64} (h : Mirrors digests P xs V S) (hi : Indexed xs V)
    (h₀ : 0 ≤ now.val)
    (hs : Step P V ⟨now, signers, .approve treasury period need epoch recipient owner⟩ V')
    (hi' : Indexed (xs ++ [⟨now, signers, .approve treasury period need epoch recipient owner⟩])
      V') :
    ∃ S', follow digests S ⟨now, signers, .approve treasury period need epoch recipient owner⟩ =
        .ok S' ∧
      Mirrors digests P
        (xs ++ [⟨now, signers, .approve treasury period need epoch recipient owner⟩])
        V' S' := by
  have hrotates : ∀ r, ¬ Event.Rotates r
      ⟨now, signers, .approve treasury period need epoch recipient owner⟩ := fun _ hr ↦ hr
  have hturn := fun r ↦ (hs.turn r).of_not_rotates (hrotates r)
  have hstep := hs
  cases hs with
  | @approve _ _ _ _ _ _ _ _ k count bump guard counted =>
    have hvacant : (period.val : ℤ) ∉ S.core.approvals.keys := by
      rw [← Dict.get?_eq_none]
      refine (h.approvals.get?_key written_injective (i := period)).trans ?_
      rw [guard.vacant, Option.map_none]
    have hfuture : now.val < S.core.t0 ∨
        (period.val : ℤ) > (now.val - S.core.t0).fdiv PERIOD := by
      rw [h.t0]
      by_cases hbefore : now.val < V.policy.config.t0.val
      · exact .inl hbefore
      · obtain ⟨current, hcurrent, hlt⟩ := guard.future (Int.not_lt.mp hbefore)
        obtain ⟨-, -, hperiod⟩ := periodAt_eq_ok.mp hcurrent
        rw [Int.fdiv_eq_ediv_of_nonneg _ (by decide), show PERIOD = 2592000 from rfl, ← hperiod]
        exact .inr (by exact_mod_cast hlt)
    have hfinish := guard.finish
    have hnotice := guard.notice
    have hneed : 0 < need.val := guard.need
    have hlt := need.isLt
    have hlt' := period.isLt
    have hcore : Recovery.approve S.core (shown treasury) epoch.val period.val (shown recipient)
        (shown owner) need.val now.val = .ok { S.core with
          approvals := S.core.approvals.set (written period) (Approval.of {
            policy := P, period, recipient, recipientOwner := owner, need, consumed := 0
            createdAt := now, bump, author := treasury, authorEpoch := epoch })
          lastAt := now.val } := by
      simp only [Recovery.approve, bind_eq_ok, authenticate_eq_ok, number_eq_ok, key_eq_ok,
        require_eq_ok, pure_eq_ok, exists_const, maxU64, maxI64, h.t0,
        show PERIOD = 2592000 from rfl]
      rw [h.t0] at hfuture
      exact ⟨h.authentic guard.tick h₀ guard.authentic, by omega, by omega, named_shown _,
        named_shown _, by omega, h.unblocked hi guard.record guard.subject guard.eligible, hvacant,
        by omega, hfuture, rfl⟩
    refine ⟨_, bind_eq_ok.mpr ⟨_, hcore, rfl⟩, h.next hstep hi' ⟨rfl, rfl, rfl, rfl, rfl⟩
      (Int.le_refl _) (fun r ↦ ?_) ((h.approvals.set written_injective).congr fun n ↦ ?_)
      (h.admissions.congr fun x ↦ ?_) fun r _ hr ↦ absurd hr (hrotates r)⟩
    · exact (h.role r).rest hstep.sameIdentity (hrotates r) (hturn r).1 (hturn r).2
    · by_cases hn : n = period
      · subst hn
        simp [View.put]
      · simp [View.put, hn]
    · rw [admission, admission, (hturn x.1).2]

/-- The model authorises every release of the program. -/
theorem Mirrors.release {signers : List Pubkey} {authority destination owner : Pubkey}
    {amount epoch : U64} (h : Mirrors digests P xs V S) (hi : Indexed xs V) (h₀ : 0 ≤ now.val)
    (hs : Step P V ⟨now, signers, .release r authority amount epoch destination owner⟩ V')
    (hi' : Indexed
      (xs ++ [⟨now, signers, .release r authority amount epoch destination owner⟩]) V') :
    ∃ S', follow digests S ⟨now, signers, .release r authority amount epoch destination owner⟩ =
        .ok S' ∧
      Mirrors digests P
        (xs ++ [⟨now, signers, .release r authority amount epoch destination owner⟩])
        V' S' := by
  refine ⟨S, ?_, h.frame hs hi' (fun _ hr ↦ hr) (by simp)⟩
  obtain ⟨authorization, hauthorized⟩ : ∃ a, authorizeRelease S.core r (shown authority) epoch.val
      (shown destination) (shown owner) now.val (releasePeriod S r now) = .ok a := by
    simp only [authorizeRelease, bind_eq_ok, authenticate_eq_ok, key_eq_ok, exists_const,
      exists_and_left]
    cases hs with
    | releaseFounder guard cliff consumed =>
      refine ⟨h.authentic guard.tick h₀ guard.authentic, named_shown _, named_shown _, ?_⟩
      simp [releasePeriod, guard.authentic.current]
    | @releaseTreasury _ _ _ _ _ period _ _ _ _ _ k a _ guard approved counted consumed =>
      refine ⟨h.authentic guard.tick h₀ guard.authentic, named_shown _, named_shown _, ?_⟩
      obtain ⟨hle, -, hperiod⟩ := periodAt_eq_ok.mp guard.inPeriod
      have hfdiv : (now.val - S.core.t0).fdiv PERIOD = period.val := by
        rw [h.t0, Int.fdiv_eq_ediv_of_nonneg _ (by decide), show PERIOD = 2592000 from rfl,
          ← hperiod]
      have hstored : S.core.approvals.get? (period.val : ℤ) = some (Approval.of a) := by
        refine (h.approvals.get?_key written_injective (i := period)).trans ?_
        rw [approved.approval, Option.map_some]
      have hblocked := h.unblocked hi approved.record approved.subject approved.eligible
      have hmature := approved.mature
      have hlt := period.isLt
      simp only [bind_eq_ok, okOr_eq_ok, number_eq_ok, require_eq_ok, pure_eq_ok, exists_const]
      refine ⟨_, (now.val - S.core.t0).fdiv PERIOD, rfl, ?_, ⟨?_, rfl⟩, Approval.of a, ?_,
        ⟨?_, ?_⟩, hblocked, ?_, rfl⟩
      · rw [hfdiv]
        simp only [maxU64]
        omega
      · rw [h.t0]
        exact hle
      · rw [hfdiv]
        exact hstored
      · rw [← approved.destination, Approval.of]
      · rw [← approved.owner, Approval.of]
      · simp only [Approval.of, show PERIOD = 2592000 from rfl]
        exact hmature
  exact bind_eq_ok.mpr ⟨_, hauthorized, rfl⟩

/-! ## Runs -/

/-- The model accepts what the program accepts. -/
theorem Mirrors.follow (h : Mirrors digests P xs V S) (hs : Step P V e V')
    (hn : ∀ r, Numbered P xs V r) (hi : Indexed xs V) (h₀ : 0 ≤ e.now.val) :
    ∃ S', follow digests S e = .ok S' ∧ Mirrors digests P (xs ++ [e]) V' S' := by
  have hi' : Indexed (xs ++ [e]) V' := hs.indexed hn hi
  obtain ⟨now, signers, act⟩ := e
  cases act with
  | propose req => exact h.propose hi hs hi'
  | execute r q => exact h.execute (hn r) hi h₀ hs hi'
  | cancelRotation r q initiator cosigner => exact h.cancel (hn r) h₀ hs hi'
  | expire r q => exact h.expire (hn r) h₀ hs hi'
  | approve treasury period need epoch recipient owner => exact h.approve hi h₀ hs hi'
  | release r authority amount epoch destination owner => exact h.release hi h₀ hs hi'
  | _ => exact ⟨S, rfl, h.frame hs hi' (fun _ hr ↦ hr) (by simp)⟩

theorem registerRole_eq_ok {keys : Vector Pubkey 3} {actor : Pubkey} {signers : List String}
    (hkeys : ValidKeys keys) (hactor : actor ∉ keys) (hsigned : shown actor ∈ signers) :
    registerRole (shown actor) (keys.toList.map shown) signers =
      .ok (.first (shown actor) (keys.toList.map shown)) := by
  have hnodup : (keys.toList.map shown).Nodup := hkeys.distinct.map shown_injective
  simp only [registerRole, bind_eq_ok, List.forM_eq_forM, forM_eq_ok, key_eq_ok, require_eq_ok,
    pure_eq_ok, exists_const, hnodup.dedup, true_and]
  refine ⟨named_shown _, fun a ha ↦ ?_, by simp, ?_, hsigned, trivial⟩
  · obtain ⟨k, -, rfl⟩ := List.mem_map.mp ha
    exact named_shown k
  · rw [shown_mem_map, Vector.mem_toList_iff]
    exact hactor

theorem start_congr {p p' : LaunchPolicyV7} (h : SameIdentity p p') : start P p' = start P p := by
  rw [start, start, h.founder, h.treasury, h.creator, h.config, h.identity]

/-- The model of a policy that has just been opened. -/
def fresh (P : Pubkey) (p : LaunchPolicyV7) : Window.State where
  program := shown ID
  identity := hexEncode p.identity.bytes
  core := {
    policy := shown P
    controller := shown p.creator
    t0 := p.config.t0.val
    economics := p.identity.bytes
    roles := ⟨.first (shown p.founder) ((p.config.committee .founder).toList.map shown),
      .first (shown p.treasury) ((p.config.committee .treasury).toList.map shown)⟩
    approvals := .empty
    lastAt := 0 }
  admissions := .empty

theorem Opened.start (h : Opened chain e V) (h₀ : 0 ≤ e.now.val) :
    start P V.policy = .ok (fresh P V.policy) := by
  have hvalid := h.valid
  have ht0 := I64.lt_iff.mp hvalid.t0
  have hlt := V.policy.config.t0.lt
  have hsigned : ∀ s, shown (V.policy.owner s) ∈
      [shown V.policy.founder, shown V.policy.treasury] := by
    intro s
    cases s <;> simp [LaunchPolicyV7.owner]
  have hfounder := registerRole_eq_ok (hvalid.committee .founder) (hvalid.owner .founder)
    (hsigned .founder)
  have htreasury := registerRole_eq_ok (hvalid.committee .treasury) (hvalid.owner .treasury)
    (hsigned .treasury)
  have hrange : 0 ≤ V.policy.config.t0.val ∧ V.policy.config.t0.val ≤ maxI64 := by
    simp only [maxI64]
    omega
  simp only [Recovery.start, register, Window.bind, Window.identityText_eq_ok, bind_eq_ok,
    key_eq_ok, number_eq_ok, require_eq_ok, pure_eq_ok, exists_const]
  exact ⟨_, ⟨named_shown _, named_shown _, hrange, Verifier.Pubkey.bytes_ne_nil _, _, hfounder, _,
    htreasury, rfl⟩, named_shown _, identityText_hex _, ⟨⟨rfl, rfl⟩, rfl, rfl⟩, rfl⟩

theorem Opened.roleMirrors (h : Opened chain e V) (r : Role) :
    RoleMirrors digests P [e] V r ((fresh P V.policy).core.roles.get r) := by
  have hrole : V.role r = initialRole (V.policy.owner r) := by
    rw [View.role, h.policy]
    cases r <;> rfl
  have hfirst : (fresh P V.policy).core.roles.get r = .first (shown (V.policy.owner r))
      ((V.policy.config.committee r).toList.map shown) := by cases r <;> rfl
  rw [hfirst]
  exact {
    initial := rfl
    current := by rw [hrole]; rfl
    committee := rfl
    history := by rw [roleKeys, h.nobody.1 r]; rfl
    epoch := by rw [hrole]; rfl
    sequence := by rw [hrole]; rfl
    pending := by rw [hrole]; rfl
    tombstones := Dict.lists_empty fun n ↦ by rw [closedProposal, h.proposal]; rfl }

theorem Opened.mirrors (h : Opened chain e V) (h₀ : 0 ≤ e.now.val) :
    Mirrors digests P [e] V (fresh P V.policy) := by
  have hrole : ∀ r, RoleMirrors digests P [e] V r ((fresh P V.policy).core.roles.get r) :=
    fun r ↦ Opened.roleMirrors h r
  have hlast : V.policy.lastActionAt = e.now := by rw [h.policy]
  exact {
    program := rfl
    policy := rfl
    identity := rfl
    controller := rfl
    t0 := rfl
    clock := hlast ▸ h₀
    role := hrole
    records := fun r ↦ (hrole r).records h.indexed
    approvals := Dict.lists_empty fun n ↦ by rw [h.approval]; rfl
    admissions := Dict.lists_empty fun x ↦ by rw [admission, h.proposal]; rfl
    admitted := fun r q hne hq ↦ by simp [h.proposal] at hq }

/-- Every run of a policy is a run of the model. -/
theorem path_mirrors (h : (machine chain P).Path xs V) (h₀ : ∀ e ∈ xs, 0 ≤ e.now.val) :
    ∃ S₀ S, start P V.policy = .ok S₀ ∧ xs.foldlM (Recovery.follow digests) S₀ = .ok S ∧
      Mirrors digests P xs V S := by
  induction h with
  | @opened e V ho =>
    have h₀ := h₀ e (by simp)
    refine ⟨_, _, Opened.start ho h₀, ?_, Opened.mirrors ho h₀⟩
    rw [List.foldlM_cons, Recovery.follow, ho.act]
    rfl
  | @step xs V V' e hpath hs ih =>
    obtain ⟨S₀, S, hS₀, hS, hm⟩ := ih fun e he ↦ h₀ e (by simp [he])
    obtain ⟨S', hS', hm'⟩ := hm.follow hs (path_numbered hpath) (path_indexed hpath)
      (h₀ e (by simp))
    refine ⟨S₀, S', (start_congr (Step.sameIdentity hs)).trans hS₀, ?_, hm'⟩
    rw [List.foldlM_append, hS]
    refine bind_eq_ok.mpr ⟨S, rfl, ?_⟩
    rw [List.foldlM_cons, hS']
    rfl

theorem now_of_mem_history {tr : List Entry} (he : e ∈ history P tr) :
    ∃ entry ∈ tr, entry.tx.now = e.now := by
  obtain ⟨entry, hentry, h⟩ := List.mem_filterMap.mp he
  obtain ⟨⟨Q, act⟩, -, h⟩ := Option.bind_eq_some_iff.mp h
  dsimp only at h
  split at h
  · cases h
    exact ⟨entry, hentry, rfl⟩
  · cases h

/-- The reference model accepts every run of the program, from the registration of the roles on,
and ends in a state that mirrors the accounts of the policy. -/
theorem reachable_modelled {d : Deployment} {tr : List Entry} {L : Ledger} {p : LaunchPolicyV7}
    (h : Reachable d tr L) (h₀ : ∀ e ∈ tr, 0 ≤ e.tx.now.val) (hp : L.policyAt P = some p) :
    ∃ V S₀ S, L.view d.toChain P = some V ∧ V.policy = p ∧ start P p = .ok S₀ ∧
      (history P tr).foldlM (follow digests) S₀ = .ok S ∧
      Mirrors digests P (history P tr) V S := by
  obtain ⟨V, hV, rfl⟩ := Ledger.exists_view d.toChain (Ledger.policyAt_eq_some.mp hp)
  obtain ⟨S₀, S, hS₀, hS, hm⟩ : ∃ S₀ S, start P V.policy = .ok S₀ ∧
      (history P tr).foldlM (follow digests) S₀ = .ok S ∧
      Mirrors digests P (history P tr) V S := path_mirrors (h.path hV) fun e he ↦ by
    obtain ⟨entry, hentry, hnow⟩ := now_of_mem_history he
    exact hnow ▸ h₀ entry hentry
  exact ⟨V, S₀, S, hV, rfl, hS₀, hS, hm⟩

namespace Sample

/-- Digests that name the successor. -/
def naming : Window.Digests := ⟨fun p ↦ p.successor, fun i ↦ i.successor⟩

end Sample

/-- The sample launch, in which the founder key is replaced. -/
theorem reachable_modelled_sample : ∃ V S₀ S,
    LaunchV7.Sample.run.2.view LaunchV7.Sample.chain LaunchV7.Sample.policy = some V ∧
      start LaunchV7.Sample.policy V.policy = .ok S₀ ∧
      (history LaunchV7.Sample.policy LaunchV7.Sample.run.1).foldlM (follow Sample.naming) S₀ =
        .ok S ∧
      Mirrors Sample.naming LaunchV7.Sample.policy
        (history LaunchV7.Sample.policy LaunchV7.Sample.run.1) V S := by
  obtain ⟨p, hp⟩ := LaunchV7.Sample.run_policy
  have hnow : ∀ tx ∈ LaunchV7.Sample.launch ++ LaunchV7.Sample.firstPeriod ++
      LaunchV7.Sample.seventhPeriod, 0 ≤ tx.now.val := by decide
  obtain ⟨V, S₀, S, hV, rfl, hstart, hrun, hm⟩ := reachable_modelled
    LaunchV7.Sample.run_reachable (fun e he ↦ hnow e.tx (mem_replay he)) hp
  exact ⟨V, S₀, S, hV, hstart, hrun, hm⟩

end FundingVaults.Recovery
