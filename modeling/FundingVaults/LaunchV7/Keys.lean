import FundingVaults.LaunchV7.Records
import FundingVaults.LaunchV7.Replay

/-!
# No key and no nonce is used twice

The epoch of a role only grows, and the key changes only together with it; hence a credential that
a rotation has replaced is never accepted again.  A proposal that is no longer pending is never
written again.
-/

namespace FundingVaults.LaunchV7

variable {P : Pubkey} {V V' V'' : View} {e : Event} {xs : List Event} {r : Role} {chain : Chain}

/-! ## Epochs -/

/-- The credential of `r` in `V'` is that of `V` or a later one. -/
def Renews (r : Role) (V V' : View) : Prop :=
  (V.role r).epoch ≤ (V'.role r).epoch ∧
    ((V'.role r).epoch = (V.role r).epoch → (V'.role r).current = (V.role r).current)

namespace Renews

theorem refl (V : View) : Renews r V V := ⟨le_rfl, fun _ ↦ rfl⟩

theorem trans (h : Renews r V V') (h' : Renews r V' V'') : Renews r V V'' := by
  refine ⟨h.1.trans h'.1, fun he ↦ ?_⟩
  -- An epoch that comes back has not moved in between.
  have hmid : (V'.role r).epoch = (V.role r).epoch := le_antisymm (he ▸ h'.1) h.1
  rw [h'.2 (he.trans hmid.symm), h.2 hmid]

end Renews

theorem Step.renews (h : Step P V e V') (r : Role) : Renews r V V' := by
  cases h.turn r with
  | rest act role proposal => simp [Renews, role]
  | propose act mine guard stored role proposal => simp [Renews, role]
  | @settle q k w status pending settles role proposal =>
    rw [Renews, role]
    rcases settles.key with ⟨-, -, he⟩ | ⟨-, hc, he⟩
    · refine ⟨Fin.le_def.mpr (by simp only; omega), fun hw ↦ ?_⟩
      simp only at hw
      simp [hw] at he
    · exact ⟨he.ge, fun _ ↦ hc⟩

theorem steps_renews (h : (machine chain P).Steps V xs V') : Renews r V V' :=
  h.rel Renews.refl Renews.trans fun h ↦ Step.renews h r

/-- A credential that has been replaced is not authentic again. -/
theorem Renews.stale (h : Renews r V V') (h' : Renews r V' V'')
    (hne : (V'.role r).current ≠ (V.role r).current ∨ (V'.role r).epoch ≠ (V.role r).epoch) :
    (V''.role r).epoch ≠ (V.role r).epoch := by
  have hlt : (V'.role r).epoch ≠ (V.role r).epoch := fun he ↦
    hne.elim (fun hc ↦ hc (h.2 he)) (fun hn ↦ hn he)
  exact ((lt_of_le_of_ne h.1 hlt.symm).trans_le h'.1).ne'

/-! ## Nonces -/

/-- The nonce of the proposal of `r` that an event settles. -/
def Event.settled? (r : Role) (e : Event) : Option U64 :=
  match e.act with
  | .execute s q => if s = r then some q.nonce else none
  | .cancelRotation s q _ _ => if s = r then some q.nonce else none
  | .expire s q => if s = r then some q.nonce else none
  | _ => none

/-- The nonces of the proposals of `r` that have left the pending status. -/
def settlements (r : Role) (xs : List Event) : List U64 := xs.filterMap (Event.settled? r)

theorem settlements_snoc :
    settlements r (xs ++ [e]) = settlements r xs ++ (e.settled? r).toList := by
  cases h : e.settled? r <;> simp [settlements, h]

theorem Event.settled?_of_not_rotates (h : ¬ e.Rotates r) : e.settled? r = none := by
  unfold Event.settled? Event.Rotates at *
  cases he : e.act <;> simp_all

theorem Settles.settled?_eq {q : WithdrawalProposalV7} {k : WithdrawalKeyV7} {w : WithdrawalRole}
    {status : U8} (h : Settles V r q k e w status) : e.settled? r = some q.nonce := by
  cases h <;> simp [Event.settled?]

/-- A proposal that is not pending is never written again. -/
theorem Step.proposal_closed (h : Step P V e V') {n : U64} {q : WithdrawalProposalV7}
    (hq : V.proposal r n = some q) (hs : q.status ≠ PROPOSAL_PENDING) :
    V'.proposal r n = some q := by
  cases h.turn r with
  | rest act role proposal => rw [proposal, hq]
  | propose act mine guard stored role proposal =>
    have hvacant := guard.vacant
    rw [mine] at hvacant
    rw [proposal, Function.update_apply, if_neg, hq]
    rintro rfl
    simp [hvacant] at hq
  | @settle u k w status pending settles role proposal =>
    rw [proposal, Function.update_apply, if_neg, hq]
    rintro rfl
    rw [pending.stored, Option.some.injEq] at hq
    exact hs (hq ▸ pending.status)

theorem steps_proposal_closed (h : (machine chain P).Steps V xs V') {n : U64}
    {q : WithdrawalProposalV7} (hs : q.status ≠ PROPOSAL_PENDING) :
    V.proposal r n = some q → V'.proposal r n = some q := by
  refine h.rel (R := fun V V' ↦ V.proposal r n = some q → V'.proposal r n = some q) (fun _ ↦ id)
    ?_ fun h hq ↦ Step.proposal_closed h hq hs
  exact fun h h' hq ↦ h' (h hq)

/-- The nonces of a role: accepted ones count up from one, settled ones are closed. -/
structure Nonces (xs : List Event) (V : View) (r : Role) : Prop where
  accepted : (requests r xs).map (fun req ↦ req.nonce.val) = List.range' 1 (requests r xs).length
  settled : (settlements r xs).Nodup
  closed : ∀ n ∈ settlements r xs,
    ∃ q, V.proposal r n = some q ∧ q.status ≠ PROPOSAL_PENDING

theorem Step.nonces (h : Step P V e V') (hn : Numbered P xs V r) (hs : Nonces xs V r) :
    Nonces (xs ++ [e]) V' r := by
  -- What is closed stays closed.
  have hold : ∀ n ∈ settlements r xs,
      ∃ q, V'.proposal r n = some q ∧ q.status ≠ PROPOSAL_PENDING := fun n hm ↦ by
    obtain ⟨q, hq, hst⟩ := hs.closed n hm
    exact ⟨q, h.proposal_closed hq hst, hst⟩
  cases h.turn r with
  | rest act role proposal =>
    have hset : settlements r (xs ++ [e]) = settlements r xs := by
      simp [settlements_snoc, Event.settled?_of_not_rotates act]
    exact {
      accepted := by
        rw [requests_of_not_rotates act]
        exact hs.accepted
      settled := hset ▸ hs.settled
      closed := hset ▸ hold }
  | @propose req k q act mine guard stored role proposal =>
    obtain ⟨now, signers, a⟩ := e
    obtain rfl : a = .propose req := act
    have hset : settlements r (xs ++ [⟨now, signers, .propose req⟩]) = settlements r xs := by
      simp [settlements_snoc, Event.settled?]
    have hreq : requests r (xs ++ [⟨now, signers, .propose req⟩]) = requests r xs ++ [req] := by
      simp [requests_snoc, Event.request?, mine]
    have hnonce := guard.nonce
    rw [mine, hn.sequence] at hnonce
    exact {
      accepted := by
        rw [hreq, List.map_append, hs.accepted, List.length_append, List.map_singleton,
          List.length_singleton, List.range'_concat, ← hnonce]
        simp [Nat.add_comm]
      settled := hset ▸ hs.settled
      closed := hset ▸ hold }
  | @settle q k w status pending settles role proposal =>
    have hset : settlements r (xs ++ [e]) = settlements r xs ++ [q.nonce] := by
      simp [settlements_snoc, settles.settled?_eq]
    have hreq : requests r (xs ++ [e]) = requests r xs := by
      simp [requests_snoc, settles.request?_eq]
    exact {
      accepted := by
        rw [hreq]
        exact hs.accepted
      settled := by
        rw [hset, ← List.concat_eq_append]
        refine List.Nodup.concat (fun hm ↦ ?_) hs.settled
        obtain ⟨u, hu, hst⟩ := hs.closed _ hm
        rw [pending.stored, Option.some.injEq] at hu
        exact hst (hu ▸ pending.status)
      closed := fun n hm ↦ by
        rw [hset, List.mem_append, List.mem_singleton] at hm
        rcases hm with hm | rfl
        · exact hold n hm
        · exact ⟨_, by rw [proposal, Function.update_self], settles.closed⟩ }

theorem path_nonces (h : (machine chain P).Path xs V) (r : Role) : Nonces xs V r := by
  refine h.invariant (I := fun xs V ↦ Nonces xs V r) (fun h ↦ ?_)
    fun hp ih hs ↦ Step.nonces hs (path_numbered hp r) ih
  have hact := Opened.act h
  constructor <;> simp [requests, Event.request?, settlements, Event.settled?, hact]

/-! ## The history of a role -/

/-- What the history of a role says about its keys, and what becomes of its credentials and
proposals in every continuation. -/
structure RoleHistory (d : Deployment) (P : Pubkey) (r : Role) (tr : List Entry) (L : Ledger)
    (p : LaunchPolicyV7) : Prop where
  epoch : (p.withdrawal.get r).epoch.val = (successors r (history P tr)).length
  sequence : (p.withdrawal.get r).sequence.val = (requests r (history P tr)).length
  pending : (p.withdrawal.get r).pending = 0 ∨
    (p.withdrawal.get r).pending = (p.withdrawal.get r).sequence
  distinct : (roleKeys p r (history P tr)).Nodup
  current : (roleKeys p r (history P tr)).getLast? = some (p.withdrawal.get r).current
  committee : ∀ x ∈ roleKeys p r (history P tr), x ∉ p.config.committee r
  nonzero : ∀ x ∈ successors r (history P tr), x ≠ Bytes32.zero
  accepted : ((requests r (history P tr)).map RotationRequest.nonce).Nodup
  settled : (settlements r (history P tr)).Nodup
  /-- A credential that a rotation has replaced is rejected ever after. -/
  stale : ∀ tr' L' p', Run d L tr' L' → L'.policyAt P = some p' →
    ((p'.withdrawal.get r).current ≠ (p.withdrawal.get r).current ∨
      (p'.withdrawal.get r).epoch ≠ (p.withdrawal.get r).epoch) →
    ∀ tr'' L'' p'', Run d L' tr'' L'' → L''.policyAt P = some p'' →
      ∀ u, p''.authenticateWithdrawal r.toU8 (p.withdrawal.get r).current
        (p.withdrawal.get r).epoch ≠ .ok u
  /-- A proposal that is not pending stays as it is. -/
  closed : ∀ key q, L.program key = some (.withdrawal q) → q.policy = P → q.role = r.toU8 →
    q.status ≠ PROPOSAL_PENDING →
    ∀ tr' L', Run d L tr' L' → L'.program key = some (.withdrawal q)

/-- Every role history starts with its initial key, and no key or nonce comes twice. -/
theorem Reachable.roleHistory {d : Deployment} {tr : List Entry} {L : Ledger}
    {p : LaunchPolicyV7} (h : Reachable d tr L) (hp : L.policyAt P = some p) (r : Role) :
    RoleHistory d P r tr L p := by
  obtain ⟨V, hV, rfl⟩ := Ledger.exists_view d.toChain (Ledger.policyAt_eq_some.mp hp)
  have hpath := h.path hV
  have hn := path_numbered hpath r
  have hnonces := path_nonces hpath r
  have hs := path_separated hpath
  have hel := fun x (hx : x ∈ successors r (history P tr)) ↦ hs.eligible r x (.inl hx)
  exact {
    epoch := hn.epoch
    sequence := hn.sequence
    pending := hn.pending
    distinct := List.nodup_cons.mpr ⟨fun ho ↦ (hel _ ho).2.1 rfl, hs.nodup r⟩
    current := hn.current
    committee := fun x hx ↦ by
      rcases List.mem_cons.mp hx with rfl | hx
      · obtain ⟨e, V₀, -, h₀, hid⟩ := path_opening hpath
        rw [hid.owner, hid.config]
        exact h₀.valid.owner r
      · exact (hel x hx).2.2
    nonzero := fun x hx ↦ (hel x hx).1
    accepted := by
      refine List.Nodup.of_map Fin.val ?_
      rw [List.map_map, Function.comp_def, hnonces.accepted]
      exact List.nodup_range'
    settled := hnonces.settled
    stale := fun tr' L' p' hrun hp' hne tr'' L'' p'' hrun' hp'' u hu ↦ by
      obtain ⟨V', hV', rfl, hsteps⟩ := hrun.steps_to h.sound hV hp'
      obtain ⟨V'', -, rfl, hsteps'⟩ := hrun'.steps_to (hrun.sound h.sound) hV' hp''
      obtain ⟨s, hs, -, -, he⟩ := LaunchPolicyV7.authenticateWithdrawal_eq_ok.mp hu
      obtain rfl := Role.toU8_inj.mp hs
      exact (steps_renews hsteps).stale (steps_renews hsteps') hne he
    closed := fun key q hq hP hrole hst tr' L' hrun ↦ by
      obtain ⟨V', hV', hsteps⟩ := hrun.steps h.sound hV
      have hq' := steps_proposal_closed hsteps hst (View.proposal_of hV h.sound hq hP hrole)
      have haddr := (h.sound.canonical hq).address
      rw [View.proposal_eq_some hV', ← hP, ← hrole] at hq'
      rw [← haddr]
      exact hq'.1 }

theorem roleHistory_sample : ∃ p, Sample.run.2.policyAt Sample.policy = some p ∧
    RoleHistory Sample.deployment Sample.policy .founder Sample.run.1 Sample.run.2 p := by
  obtain ⟨p, hp⟩ := Sample.run_policy
  exact ⟨p, hp, Sample.run_reachable.roleHistory hp .founder⟩

end FundingVaults.LaunchV7
