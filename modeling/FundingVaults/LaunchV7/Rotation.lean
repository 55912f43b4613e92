import FundingVaults.LaunchV7.Frame
import FundingVaults.LaunchV7.Replay

/-!
# Rotation of withdrawal keys

The chain stores no list of former keys and no list of proposals: a role has its current key and
three counters, and each key has a record with two bit masks.  `Numbered` reads the counters of a
role as lengths of lists of the history, and the live proposal as a proposal that some earlier
event accepted and nothing has disturbed since.  `Indexed` reads the masks of a record as
membership in those lists.
-/

namespace FundingVaults.LaunchV7

variable {P : Pubkey} {V V' : View} {e : Event} {xs : List Event} {r s : Role}

/-! ## Lists of a history -/

/-- The key that an event gives to `r`. -/
def Event.successor? (r : Role) (e : Event) : Option Pubkey :=
  match e.act with
  | .execute s q => if s = r then some q.successor else none
  | _ => none

/-- The proposal that an event has accepted for `r`. -/
def Event.request? (r : Role) (e : Event) : Option RotationRequest :=
  match e.act with
  | .propose req => if req.role = r then some req else none
  | _ => none

/-- The keys that `r` has taken on, oldest first. -/
def successors (r : Role) (xs : List Event) : List Pubkey := xs.filterMap (Event.successor? r)

/-- The proposals accepted for `r`, oldest first. -/
def requests (r : Role) (xs : List Event) : List RotationRequest :=
  xs.filterMap (Event.request? r)

theorem Event.successor?_of_not_rotates (h : ¬ e.Rotates r) : e.successor? r = none := by
  unfold Event.successor? Event.Rotates at *
  cases he : e.act <;> simp_all

theorem Event.request?_of_not_rotates (h : ¬ e.Rotates r) : e.request? r = none := by
  unfold Event.request? Event.Rotates at *
  cases he : e.act <;> simp_all

theorem successors_snoc :
    successors r (xs ++ [e]) = successors r xs ++ (e.successor? r).toList := by
  cases h : e.successor? r <;> simp [successors, h]

theorem requests_snoc : requests r (xs ++ [e]) = requests r xs ++ (e.request? r).toList := by
  cases h : e.request? r <;> simp [requests, h]

theorem successors_of_not_rotates (h : ¬ e.Rotates r) :
    successors r (xs ++ [e]) = successors r xs := by
  simp [successors_snoc, Event.successor?_of_not_rotates h]

theorem requests_of_not_rotates (h : ¬ e.Rotates r) :
    requests r (xs ++ [e]) = requests r xs := by
  simp [requests_snoc, Event.request?_of_not_rotates h]

/-- The keys of `r` from its initial key on. -/
def roleKeys (p : LaunchPolicyV7) (r : Role) (xs : List Event) : List Pubkey :=
  p.owner r :: successors r xs

/-! ## Acceptance -/

/-- The event `c` has accepted the request `req` for `r`: within the signed interval, and with the
signatures of the successor and of the predecessor or two members of the role's committee. -/
structure Admits (committee : Vector Pubkey 3) (r : Role) (req : RotationRequest) (c : Event) :
    Prop where
  act : c.act = .propose req
  role : req.role = r
  interval : 0 ≤ req.validFrom ∧ req.validFrom ≤ c.now ∧ c.now ≤ req.validUntil ∧
    req.validUntil.val - req.validFrom.val ≤ 300
  successor : req.successor ∈ c.signers
  authority : req.predecessor ∈ c.signers ∨
    ∃ a b, TwoOf committee a b ∧ a ∈ c.signers ∧ b ∈ c.signers

theorem ProposeGuard.admits {now : I64} {signers : List Pubkey} {req : RotationRequest}
    {k : WithdrawalKeyV7} (h : ProposeGuard V now signers req k) :
    Admits (V.policy.config.committee req.role) req.role req ⟨now, signers, .propose req⟩ where
  act := rfl
  role := rfl
  interval := ⟨h.positive, h.admitted.1, h.admitted.2, h.width⟩
  successor := h.signed.2.2
  authority := by
    have ha := h.authority
    split at ha
    · exact .inr ⟨_, _, ha, h.signed.1, h.signed.2.1⟩
    · exact .inl (h.predecessor.trans ha.1.symm ▸ h.signed.1)

/-- The event is nothing that a paused role `r` rules out. -/
def Event.Quiet (r : Role) (e : Event) : Prop :=
  match e.act with
  | .release s _ _ _ _ _ => s ≠ r
  | .deposit s _ _ _ => s ≠ r
  | .approve _ _ _ _ _ _ => r ≠ .treasury
  | .propose req => req.role ≠ r
  | .execute s _ => s ≠ r
  | .cancelRotation s _ _ _ => s ≠ r
  | .expire s _ => s ≠ r
  | _ => True

/-- While a proposal is pending, its role neither releases nor deposits nor approves. -/
theorem Step.quiet (h : Step P V e V') (hp : (V.role r).pending ≠ 0) (hr : ¬ e.Rotates r) :
    e.Quiet r := by
  cases h with
  | deposit guard => exact fun hs ↦ hp (hs ▸ guard.unpaused)
  | approve guard => exact fun hs ↦ hp (hs ▸ guard.authentic.unpaused)
  | releaseFounder guard => exact fun hs ↦ hp (hs ▸ guard.authentic.unpaused)
  | releaseTreasury guard => exact fun hs ↦ hp (hs ▸ guard.authentic.unpaused)
  | propose | execute | cancelRotation | expire => exact hr
  | _ => trivial

/-! ## Numbers -/

/-- The stored proposal `q` is the live one of `r`, and was accepted by an event after which
nothing has disturbed it. -/
structure Live (P : Pubkey) (xs : List Event) (V : View) (r : Role)
    (q : WithdrawalProposalV7) : Prop where
  stored : V.proposal r (V.role r).pending = some q
  status : q.status = PROPOSAL_PENDING
  epoch : q.epoch = (V.role r).epoch
  predecessor : q.predecessor = (V.role r).current
  unfinished : q.finishedAt = 0
  fits : q.epoch.val + 1 < 2 ^ 64
  accepted : Since (fun _ c ↦ ∃ req, Admits (V.policy.config.committee r) r req c ∧
      Proposed P c.now req q.predecessor q ∧ req.predecessor = q.predecessor)
    (Event.Quiet r) xs

/-- The counters of a role are lengths of lists of its history. -/
structure Numbered (P : Pubkey) (xs : List Event) (V : View) (r : Role) : Prop where
  epoch : (V.role r).epoch.val = (successors r xs).length
  sequence : (V.role r).sequence.val = (requests r xs).length
  pending : (V.role r).pending = 0 ∨ (V.role r).pending = (V.role r).sequence
  current : (roleKeys V.policy r xs).getLast? = some (V.role r).current
  stored : ∀ n q, V.proposal r n = some q → 0 < n ∧ n ≤ (V.role r).sequence
  closed : ∀ n q, V.proposal r n = some q → q.status = PROPOSAL_PENDING → n = (V.role r).pending
  live : (V.role r).pending ≠ 0 → ∃ q, Live P xs V r q

theorem Opened.numbered {chain : Chain} (h : Opened chain e V) (r : Role) :
    Numbered P [e] V r := by
  have hact := h.act
  have hs : successors r [e] = [] := by simp [successors, Event.successor?, hact]
  have hq : requests r [e] = [] := by simp [requests, Event.request?, hact]
  have hrole : V.role r = initialRole (V.policy.owner r) := by
    rw [View.role, h.policy]
    cases r <;> rfl
  exact {
    epoch := by simp [hrole, hs, initialRole]
    sequence := by simp [hrole, hq, initialRole]
    pending := .inl (by simp [hrole, initialRole])
    current := by simp [roleKeys, hs, hrole, initialRole]
    stored := by simp [h.proposal]
    closed := by simp [h.proposal]
    live := by simp [hrole, initialRole] }

section Settles

variable {q : WithdrawalProposalV7} {k : WithdrawalKeyV7} {w : WithdrawalRole} {status : U8}

theorem Settles.sequence (h : Settles V r q k e w status) :
    w.sequence = (V.role r).sequence := by
  cases h <;> rfl

theorem Settles.closed (h : Settles V r q k e w status) : status ≠ PROPOSAL_PENDING := by
  cases h <;> decide

theorem Settles.request?_eq (h : Settles V r q k e w status) : e.request? r = none := by
  cases h <;> rfl

/-- Only an execution changes the key and the epoch of the role. -/
theorem Settles.key (h : Settles V r q k e w status) :
    (e.successor? r = some q.successor ∧ w.current = q.successor ∧
        (V.role r).epoch.val + 1 = w.epoch.val) ∨
      (e.successor? r = none ∧ w.current = (V.role r).current ∧ w.epoch = (V.role r).epoch) := by
  cases h with
  | execute state window eligible next => exact .inl ⟨by simp [Event.successor?], rfl, next⟩
  | cancel => exact .inr ⟨rfl, rfl, rfl⟩
  | expire => exact .inr ⟨rfl, rfl, rfl⟩

end Settles

theorem roleKeys_congr {p p' : LaunchPolicyV7} (h : SameIdentity p p') :
    roleKeys p' r xs = roleKeys p r xs := by
  rw [roleKeys, roleKeys, h.owner]

/-- A step of the machine keeps the numbers of a role. -/
theorem Step.numbered (h : Step P V e V') (hn : Numbered P xs V r) :
    Numbered P (xs ++ [e]) V' r := by
  have hid := h.sameIdentity
  cases h.turn r with
  | rest act role proposal =>
    have hs : roleKeys V'.policy r (xs ++ [e]) = roleKeys V.policy r xs := by
      rw [roleKeys_congr hid, roleKeys, roleKeys, successors_of_not_rotates act]
    exact {
      epoch := by rw [role, successors_of_not_rotates act, hn.epoch]
      sequence := by rw [role, requests_of_not_rotates act, hn.sequence]
      pending := by rw [role]; exact hn.pending
      current := by rw [role, hs, hn.current]
      stored := by rw [role, proposal]; exact hn.stored
      closed := by rw [role, proposal]; exact hn.closed
      live := fun hp ↦ by
        rw [role] at hp
        obtain ⟨q, hq⟩ := hn.live hp
        exact ⟨q, {
          stored := by rw [role, proposal, hq.stored]
          status := hq.status
          epoch := by rw [role, hq.epoch]
          predecessor := by rw [role, hq.predecessor]
          unfinished := hq.unfinished
          fits := hq.fits
          accepted := by
            rw [hid.config]
            exact hq.accepted.next (h.quiet hp act) }⟩ }
  | @propose req k q act mine guard stored role proposal =>
    obtain ⟨now, signers, a⟩ := e
    obtain rfl : a = .propose req := act
    subst mine
    have hs : successors req.role (xs ++ [⟨now, signers, .propose req⟩]) =
        successors req.role xs := by simp [successors_snoc, Event.successor?]
    have hnonce := guard.nonce
    exact {
      epoch := by rw [role, hs, ← hn.epoch]
      sequence := by simp [role, requests_snoc, Event.request?, ← hn.sequence, hnonce]
      pending := by simp [role]
      current := by rw [role, roleKeys_congr hid, roleKeys, hs, ← roleKeys, hn.current]
      stored := fun n u hu ↦ by
        rw [proposal, Function.update_apply] at hu
        rw [role]
        split at hu
        · next hn => exact ⟨Fin.lt_def.mpr (by simp only [hn, U64.val_zero]; omega), hn.le⟩
        · have := hn.stored n u hu
          exact ⟨this.1, this.2.trans (Fin.le_def.mpr (by simp only; omega))⟩
      closed := fun n u hu hstatus ↦ by
        rw [proposal, Function.update_apply] at hu
        rw [role]
        split at hu
        · assumption
        · have := (hn.stored n u hu).1
          rw [hn.closed n u hu hstatus, guard.idle] at this
          exact absurd this (lt_irrefl _)
      live := fun _ ↦ ⟨q, {
        stored := by simp [role, proposal]
        status := stored.status
        epoch := by rw [role, stored.epoch, guard.epoch]
        predecessor := by rw [role, stored.predecessor]
        unfinished := stored.finishedAt
        fits := by
          rw [stored.epoch, guard.epoch]
          exact guard.epochFits
        accepted := by
          rw [hid.config]
          refine .now ⟨req, guard.admits, ?_, ?_⟩
          · exact stored.predecessor.symm ▸ stored
          · rw [guard.predecessor, stored.predecessor] }⟩ }
  | @settle q k w status pending settles role proposal =>
    have hstored := hn.stored _ _ pending.stored
    have hr : requests r (xs ++ [e]) = requests r xs := by
      simp [requests_snoc, settles.request?_eq]
    have hkey : w.epoch.val = (successors r (xs ++ [e])).length ∧
        (roleKeys V.policy r (xs ++ [e])).getLast? = some w.current := by
      simp only [roleKeys, successors_snoc]
      rcases settles.key with ⟨hs, hc, he⟩ | ⟨hs, hc, he⟩
      · refine ⟨by simp [hs, ← he, hn.epoch], ?_⟩
        rw [hs, hc, Option.toList_some, ← List.cons_append, List.getLast?_concat]
      · simpa [hs, hc, he, hn.epoch, roleKeys] using hn.current
    exact {
      epoch := by rw [role]; exact hkey.1
      sequence := by rw [role, hr, ← hn.sequence, ← settles.sequence]
      pending := by simp [role]
      current := by rw [role, roleKeys_congr hid]; exact hkey.2
      stored := fun n u hu ↦ by
        rw [proposal, Function.update_apply] at hu
        simp only [role, settles.sequence]
        split at hu
        · next hn => exact hn ▸ hstored
        · exact hn.stored n u hu
      closed := fun n u hu hstatus ↦ by
        rw [proposal, Function.update_apply] at hu
        split at hu
        · obtain rfl := Option.some.inj hu
          exact absurd hstatus settles.closed
        · next hne => exact absurd (hn.closed n u hu hstatus) (pending.nonce ▸ hne)
      live := fun hp ↦ absurd (by rw [role]) hp }

theorem path_numbered {chain : Chain} (h : (machine chain P).Path xs V) (r : Role) :
    Numbered P xs V r :=
  h.invariant (I := fun xs V ↦ Numbered P xs V r) (fun h ↦ Opened.numbered h r)
    fun _ ih hs ↦ Step.numbered hs ih

/-! ## Changes of a withdrawal key -/

theorem Tx.act_eq_execute {L : Ledger} {tx : Tx} {q : WithdrawalProposalV7}
    (h : tx.act L = some (P, .execute r q)) : ∃ keys, tx.instruction = .executeWithdrawal keys := by
  unfold Tx.act at h
  cases hi : tx.instruction <;> simp [hi, Option.bind_eq_some_iff] at h
  exact ⟨_, rfl⟩

/-- The key or the epoch of a role changes only when a proposal is executed that was accepted
between 90 and 120 days before, with the signatures of the successor and of the predecessor or
two members of the role's committee, and that nothing has disturbed since. -/
theorem Reachable.rotation {d : Deployment} {tr : List Entry} {L L' : Ledger} {tx : Tx}
    {p p' : LaunchPolicyV7} (h : Reachable d tr L) (hx : process d L tx = .ok L')
    (hp : L.policyAt P = some p) (hp' : L'.policyAt P = some p')
    (hne : (p'.withdrawal.get r).current ≠ (p.withdrawal.get r).current ∨
      (p'.withdrawal.get r).epoch ≠ (p.withdrawal.get r).epoch) :
    (∃ keys, tx.instruction = .executeWithdrawal keys) ∧
      Since (fun _ c ↦ ∃ req, Admits (p.config.committee r) r req c ∧
          req.predecessor = (p.withdrawal.get r).current ∧
          req.successor = (p'.withdrawal.get r).current ∧
          c.now.val + 90 * 86400 ≤ tx.now.val ∧ tx.now.val < c.now.val + 120 * 86400)
        (Event.Quiet r) (history P tr) := by
  obtain ⟨V, hV, rfl⟩ := Ledger.exists_view d.toChain (Ledger.policyAt_eq_some.mp hp)
  obtain ⟨V', hV', rfl, hcases⟩ := h.sound.accepted_to hV hx hp'
  change (V'.role r).current ≠ (V.role r).current ∨ (V'.role r).epoch ≠ (V.role r).epoch at hne
  have hn := path_numbered (h.path hV) r
  rcases hcases with rfl | ⟨act, hact, hstep⟩
  · simp at hne
  cases hstep.turn r with
  | rest _ role _ => simp [role] at hne
  | propose _ _ _ _ role _ => simp [role] at hne
  | @settle q k w status pending settles role proposal =>
    cases settles with
    | cancel => simp [role] at hne
    | expire => simp [role] at hne
    | execute state window eligible next =>
      refine ⟨Tx.act_eq_execute hact, ?_⟩
      -- The executed proposal is the live one.
      have hpos := (hn.stored _ _ pending.stored).1
      have hnz : (V.role r).pending ≠ 0 := by
        rw [← pending.nonce]
        exact hpos.ne'
      obtain ⟨u, hu⟩ := hn.live hnz
      obtain rfl : u = q := by
        have := hu.stored
        rw [← pending.nonce, pending.stored] at this
        exact (Option.some.inj this).symm
      refine hu.accepted.mono ?_ fun _ ↦ id
      rintro _ c ⟨req, hadmits, hstored, hpred⟩
      refine ⟨req, hadmits, hpred.trans hu.predecessor, ?_, ?_, ?_⟩
      · change _ = (V'.role r).current
        rw [role, hstored.successor]
      · have := hstored.executeAfter ▸ I64.le_iff.mp window.1
        omega
      · have := hstored.expiresAt ▸ I64.lt_iff.mp window.2
        omega

/-- The founder key of the sample launch is replaced. -/
theorem rotation_sample : ∃ (L' : Ledger) (p p' : LaunchPolicyV7),
    process Sample.deployment Sample.pendingRun.2 Sample.executeRotation = .ok L' ∧
      Sample.pendingRun.2.policyAt Sample.policy = some p ∧
      L'.policyAt Sample.policy = some p' ∧
      (∃ keys, Sample.executeRotation.instruction = .executeWithdrawal keys) ∧
      Since (fun _ c ↦ ∃ req, Admits (p.config.committee .founder) .founder req c ∧
          req.predecessor = (p.withdrawal.get .founder).current ∧
          req.successor = (p'.withdrawal.get .founder).current ∧
          c.now.val + 90 * 86400 ≤ Sample.executeRotation.now.val ∧
          Sample.executeRotation.now.val < c.now.val + 120 * 86400)
        (Event.Quiet .founder) (history Sample.policy Sample.pendingRun.1) := by
  obtain ⟨p, hp⟩ := Sample.pendingRun_policy
  obtain ⟨L', p', hx, hp', hne⟩ := Sample.rotated hp
  exact ⟨L', p, p', hx, hp, hp', Sample.pendingRun_reachable.rotation hx hp hp' (.inl hne)⟩

end FundingVaults.LaunchV7
