import FundingVaults.LaunchV7.Records
import FundingVaults.LaunchV7.Replay

/-!
# Recipients are not beneficiaries

A treasury approval is never deleted and never changes whom it pays.  Since no owner it pays ever
serves a role, an owner that is paid at any time of a run is never a key of a role at any other
time of it, whichever comes first.
-/

namespace FundingVaults.LaunchV7

variable {P : Pubkey} {V V' : View} {e : Event} {xs ys : List Event} {r : Role} {x : Pubkey}
  {n : U64} {chain : Chain}

/-! ## Payees -/

/-- An approval keeps its payee. -/
theorem Step.payee_mono (h : Step P V e V') (hn : V.payee n = some x) : V'.payee n = some x := by
  cases h with
  | @approve now signers treasury period need epoch recipient owner k count bump guard counted =>
    have hne : n ≠ period := by
      rintro rfl
      simp [View.payee, guard.vacant] at hn
    simpa [View.payee, View.put, hne] using hn
  | releaseTreasury guard approved counted consumed =>
    exact (congrFun (payee_consumed approved.stored) n).trans hn
  | _ => exact hn

theorem steps_payee_mono (h : (machine chain P).Steps V xs V') :
    V.payee n = some x → V'.payee n = some x := by
  refine h.rel (R := fun V V' ↦ V.payee n = some x → V'.payee n = some x) (fun _ ↦ id) ?_
    fun h ↦ Step.payee_mono h
  exact fun h h' hn ↦ h' (h hn)

/-- The current key of a role is its initial key or a successor. -/
theorem Numbered.current_mem (h : Numbered P xs V r) :
    (V.role r).current = V.policy.owner r ∨ (V.role r).current ∈ successors r xs :=
  List.mem_cons.mp (List.mem_of_getLast? h.current)

theorem Separated.payee_ne_current (h : Separated xs V) (hn : Numbered P xs V r)
    (hx : V.payee n = some x) : x ≠ (V.role r).current := by
  obtain ⟨ho, -, hs⟩ := h.payee n x hx r
  rintro rfl
  exact hn.current_mem.elim ho fun hm ↦ hs (.inl hm)

/-! ## Exclusion -/

/-- The owners that approvals pay are apart from the keys of the roles, in the ledger `L` of the
run `tr` and in every continuation of it. -/
structure PayeesExcluded (d : Deployment) (P : Pubkey) (tr : List Entry) (L : Ledger)
    (p : LaunchPolicyV7) : Prop where
  /-- Whether the approval comes before the key or the key before the approval. -/
  current : ∀ tr' L' p', Run d L tr' L' → L'.policyAt P = some p' → ∀ key a,
    (L.program key = some (.approval a) ∨ L'.program key = some (.approval a)) → a.policy = P →
    ∀ r, a.recipientOwner ≠ p.owner r ∧ a.recipientOwner ∉ p.config.committee r ∧
      a.recipientOwner ≠ (p.withdrawal.get r).current ∧
      a.recipientOwner ≠ (p'.withdrawal.get r).current
  pending : ∀ (r : Role) key a key' q, L.program key = some (.approval a) → a.policy = P →
    L.program key' = some (.withdrawal q) → q.policy = P → q.role = r.toU8 →
    q.status = PROPOSAL_PENDING → a.recipientOwner ≠ q.successor
  recipient : ∀ key k, L.program key = some (.withdrawalKey k) → k.policy = P →
    k.recipient = true → k.historyMask = 0 ∧ k.pendingMask = 0
  historyBit : ∀ r, (p.withdrawal.get r).current ≠ p.owner r → ∃ key k,
    L.program key = some (.withdrawalKey k) ∧ k.policy = P ∧
      k.subject = (p.withdrawal.get r).current ∧ k.historyMask &&& r.bit ≠ 0
  pendingBit : ∀ (r : Role) key q, L.program key = some (.withdrawal q) → q.policy = P →
    q.role = r.toU8 → q.status = PROPOSAL_PENDING → ∃ key k,
    L.program key = some (.withdrawalKey k) ∧ k.policy = P ∧ k.subject = q.successor ∧
      k.pendingMask &&& r.bit ≠ 0
  /-- No treasury release pays a token account whose owner is a key of a role. -/
  release : ∀ now signers keys amount epoch L' v t,
    process d L ⟨now, signers, .release keys amount epoch⟩ = .ok L' → keys.policy = P →
    L.program keys.vault = some (.vault v) → v.role = TREASURY →
    L.tokens.account keys.destination = some t →
    ∀ r, t.owner ≠ p.owner r ∧ t.owner ∉ p.config.committee r ∧
      t.owner ∉ successors r (history P tr) ∧
      ∀ key q, L.program key = some (.withdrawal q) → q.policy = P → q.role = r.toU8 →
        q.status = PROPOSAL_PENDING → t.owner ≠ q.successor

section Reachable

variable {d : Deployment} {tr : List Entry} {L : Ledger}

/-- The successor of a pending proposal of the ledger is the nominee of its role. -/
theorem nominee_of_pending (h : Reachable d tr L) (hV : L.view d.toChain P = some V)
    {key : Pubkey} {q : WithdrawalProposalV7} (hq : L.program key = some (.withdrawal q))
    (hP : q.policy = P) (hr : q.role = r.toU8) (hs : q.status = PROPOSAL_PENDING) :
    V.nominee r = some q.successor := by
  have hn := path_numbered (h.path hV) r
  have hstored := View.proposal_of hV h.sound hq hP hr
  have hpos := (hn.stored _ _ hstored).1
  rw [hn.closed _ _ hstored hs] at hpos hstored
  simp [View.nominee, hpos.ne', hstored]

theorem Reachable.payeesExcluded {p : LaunchPolicyV7} (h : Reachable d tr L)
    (hp : L.policyAt P = some p) : PayeesExcluded d P tr L p := by
  obtain ⟨V, hV, rfl⟩ := Ledger.exists_view d.toChain (Ledger.policyAt_eq_some.mp hp)
  have hpath := h.path hV
  have hn := path_numbered hpath
  have hi := path_indexed hpath
  have hs := path_separated hpath
  have hpayee : ∀ key a, L.program key = some (.approval a) → a.policy = P →
      V.payee a.period = some a.recipientOwner := fun key a ha hP ↦ by
    simp [View.payee, View.approval_of hV h.sound ha hP]
  exact {
    current := fun tr' L' p' hrun hp' key a ha hP r ↦ by
      obtain ⟨V', hV', rfl, hsteps⟩ := hrun.steps_to h.sound hV hp'
      have hpath' := hpath.append hsteps
      have hs' := path_separated hpath'
      have hid := steps_sameIdentity hsteps
      have hx : V'.payee a.period = some a.recipientOwner := by
        rcases ha with ha | ha
        · exact steps_payee_mono hsteps (hpayee key a ha hP)
        · simp [View.payee, View.approval_of hV' (hrun.sound h.sound) ha hP]
      obtain ⟨ho, hc, hserves⟩ := hs'.payee _ _ hx r
      rw [hid.owner] at ho
      rw [hid.config] at hc
      refine ⟨ho, hc, fun he ↦ ?_, hs'.payee_ne_current (path_numbered hpath' r) hx⟩
      -- A key that was current before is in the longer history.
      rcases (hn r).current_mem with hm | hm
      · exact ho (he.trans hm)
      · refine hserves (.inl ?_)
        rw [he, successors, List.filterMap_append]
        exact List.mem_append_left _ hm
    pending := fun r key a key' q ha hP hq hqP hr hst he ↦ by
      refine (hs.payee _ _ (hpayee key a ha hP) r).2.2 (.inr ?_)
      rw [he]
      exact nominee_of_pending h hV hq hqP hr hst
    recipient := fun key k hk hP hrec ↦ by
      have hk' := View.record_of hV h.sound hk hP
      obtain ⟨n, hx⟩ := (hi.recipient _ k hk').mp hrec
      have hserves := fun r ↦ (hs.payee n _ hx r).2.2
      rw [hi.history _ k hk', hi.pending _ k hk', Role.mask_eq_zero, Role.mask_eq_zero]
      exact ⟨fun r ↦ decide_eq_false fun hm ↦ hserves r (.inl hm),
        fun r ↦ decide_eq_false fun hm ↦ hserves r (.inr hm)⟩
    historyBit := fun r hne ↦ by
      have hm := (hn r).current_mem.resolve_left hne
      obtain ⟨k, hk⟩ := Option.ne_none_iff_exists'.mp (hi.serving r _ (.inl hm))
      have hk' := (View.record_eq_some hV).mp hk
      refine ⟨_, k, hk'.1, hk'.2.1, hk'.2.2, ?_⟩
      rw [hi.history _ k hk, Ne, Role.mask_and_bit]
      simp [hm]
    pendingBit := fun r key q hq hP hr hst ↦ by
      have hm := nominee_of_pending h hV hq hP hr hst
      obtain ⟨k, hk⟩ := Option.ne_none_iff_exists'.mp (hi.serving r _ (.inr hm))
      have hk' := (View.record_eq_some hV).mp hk
      refine ⟨_, k, hk'.1, hk'.2.1, hk'.2.2, ?_⟩
      rw [hi.pending _ k hk, Ne, Role.mask_and_bit]
      simp [hm]
    release := fun now signers keys amount epoch L' v t hx hP hv hrole ht r ↦ by
      subst hP
      obtain ⟨s, u, w, hu, hus, hw, href⟩ := refines_release h.sound hx
      obtain rfl : v = u := by simpa [hv] using hu
      obtain rfl : t = w := by simpa [ht] using hw
      obtain rfl : s = .treasury := Role.toU8_inj.mp (hus.symm.trans hrole)
      obtain ⟨U, U', hU, -, hstep⟩ := href.step
      obtain rfl := Option.some.inj (hV.symm.trans hU)
      cases hstep with
      | @releaseTreasury _ _ _ _ _ period _ _ _ _ _ _ _ _ guard approved counted consumed =>
        have hx : V.payee period = some t.owner := by
          simp [View.payee, approved.approval, approved.owner]
        obtain ⟨ho, hc, hserves⟩ := hs.payee _ _ hx r
        refine ⟨ho, hc, fun hm ↦ hserves (.inl hm), fun key q hq hP hr hst he ↦ ?_⟩
        exact hserves (.inr (he ▸ nominee_of_pending h hV hq hP hr hst)) }

end Reachable

theorem payeesExcluded_sample : ∃ p, Sample.run.2.policyAt Sample.policy = some p ∧
    PayeesExcluded Sample.deployment Sample.policy Sample.run.1 Sample.run.2 p := by
  obtain ⟨p, hp⟩ := Sample.run_policy
  exact ⟨p, hp, Sample.run_reachable.payeesExcluded hp⟩

end FundingVaults.LaunchV7
