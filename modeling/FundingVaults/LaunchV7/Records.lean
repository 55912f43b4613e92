import FundingVaults.LaunchV7.Rotation
import Mathlib.Data.List.Nodup

/-!
# Key records

Every key that is ever named as a successor or as the owner of a recipient has a record, which is
never deleted.  `Indexed` says what its bits mean: the history mask names the roles that the key
has served, the pending mask the roles it is nominated for, and the recipient flag is set when
some approval pays it.
-/

namespace FundingVaults.LaunchV7

variable {P : Pubkey} {V V' : View} {e : Event} {xs : List Event} {r s : Role} {x : Pubkey}

/-! ## Nominees -/

/-- The successor that the live proposal of `r` names. -/
def View.nominee (V : View) (r : Role) : Option Pubkey :=
  if (V.role r).pending = 0 then none
  else (V.proposal r (V.role r).pending).map WithdrawalProposalV7.successor

theorem Pending.nominee {q : WithdrawalProposalV7} {k : WithdrawalKeyV7} (h : Pending V r q k)
    (hn : Numbered P xs V r) : V.nominee r = some q.successor := by
  have hpos := (hn.stored _ _ h.stored).1
  have hs := h.stored
  rw [h.nonce] at hpos hs
  simp [View.nominee, hpos.ne', hs]

/-- How a step changes the nominee and the keys of a role. -/
inductive Named (V : View) (r : Role) (xs : List Event) (e : Event) (V' : View) : Prop where
  | rest (act : ¬ e.Rotates r) (nominee : V'.nominee r = V.nominee r)
      (keys : successors r (xs ++ [e]) = successors r xs)
  | propose {req : RotationRequest} (act : e.act = .propose req) (mine : req.role = r)
      (idle : V.nominee r = none) (nominee : V'.nominee r = some req.successor)
      (keys : successors r (xs ++ [e]) = successors r xs)
  | execute {q : WithdrawalProposalV7} (act : e.act = .execute r q)
      (was : V.nominee r = some q.successor) (nominee : V'.nominee r = none)
      (keys : successors r (xs ++ [e]) = successors r xs ++ [q.successor])
  | withdraw {q : WithdrawalProposalV7}
      (act : e.act = .expire r q ∨ ∃ a b, e.act = .cancelRotation r q a b)
      (was : V.nominee r = some q.successor) (nominee : V'.nominee r = none)
      (keys : successors r (xs ++ [e]) = successors r xs)

theorem Step.named (h : Step P V e V') (hn : Numbered P xs V r) : Named V r xs e V' := by
  cases h.turn r with
  | rest act role proposal =>
    exact .rest act (by rw [View.nominee, role, proposal, View.nominee])
      (successors_of_not_rotates act)
  | propose act mine guard stored role proposal =>
    have hnonce := guard.nonce
    have hne : (V'.role r).pending ≠ 0 := by
      subst mine
      simp only [role]
      intro h
      simp [h] at hnonce
    refine .propose act mine ?_ ?_ ?_
    · rw [View.nominee, if_pos (mine ▸ guard.idle)]
    · rw [View.nominee, if_neg hne]
      simp [role, proposal, stored.successor]
    · simp [successors_snoc, Event.successor?, act]
  | @settle q k w status pending settles role proposal =>
    have was := pending.nominee hn
    have hnone : V'.nominee r = none := by simp [View.nominee, role]
    cases settles with
    | execute => exact .execute rfl was hnone (by simp [successors_snoc, Event.successor?])
    | cancel => exact .withdraw (.inr ⟨_, _, rfl⟩) was hnone (by simp [successors_snoc, Event.successor?])
    | expire => exact .withdraw (.inl rfl) was hnone (by simp [successors_snoc, Event.successor?])

theorem Named.of_propose {req : RotationRequest} (h : Named V r xs e V')
    (he : e.act = .propose req) :
    successors r (xs ++ [e]) = successors r xs ∧
      V'.nominee r = if r = req.role then some req.successor else V.nominee r := by
  cases h with
  | rest act nominee keys =>
    have hr : r ≠ req.role := by
      rintro rfl
      exact act (by simp [Event.Rotates, he])
    exact ⟨keys, by rw [nominee, if_neg hr]⟩
  | propose act mine idle nominee keys =>
    obtain rfl := Act.propose.inj (he.symm.trans act)
    exact ⟨keys, by rw [nominee, if_pos mine.symm]⟩
  | execute act => simp [he] at act
  | withdraw act => simp [he] at act

/-- The instructions that settle the proposal `q` of `s`, by executing it or otherwise. -/
inductive Act.Settles (s : Role) (q : WithdrawalProposalV7) : Bool → Act → Prop where
  | execute : Act.Settles s q true (.execute s q)
  | expire : Act.Settles s q false (.expire s q)
  | cancel {i c : Pubkey} : Act.Settles s q false (.cancelRotation s q i c)

theorem Named.of_settles {q : WithdrawalProposalV7} {done : Bool} (h : Named V r xs e V')
    (he : e.act.Settles s q done) :
    (r = s → V.nominee r = some q.successor) ∧
      (V'.nominee r = if r = s then none else V.nominee r) ∧
      successors r (xs ++ [e]) =
        successors r xs ++ if r = s ∧ done then [q.successor] else [] := by
  obtain ⟨now, signers, a⟩ := e
  simp only at he
  cases h with
  | rest act nominee keys =>
    have hr : r ≠ s := by
      rintro rfl
      cases he <;> exact act rfl
    simp [hr, nominee, keys]
  | propose act => cases he <;> cases act
  | execute act was nominee keys =>
    cases he <;> cases act
    simp [was, nominee, keys]
  | withdraw act was nominee keys =>
    rcases act with act | ⟨a, b, act⟩ <;> cases he <;> cases act <;> simp [was, nominee, keys]

/-- The key serves `r`, has served it or is nominated for it. -/
def Serves (xs : List Event) (V : View) (r : Role) (x : Pubkey) : Prop :=
  x ∈ successors r xs ∨ V.nominee r = some x

/-- The owner of the recipient that the approval of a period pays. -/
def View.payee (V : View) (n : U64) : Option Pubkey :=
  (V.approval n).map TreasuryApprovalV7.recipientOwner

/-- The count of what an approval has paid does not change whom it pays. -/
theorem payee_consumed {a : TreasuryApprovalV7} {used : U64}
    (h : V.approval a.period = some a) :
    (V.put (.approval { a with consumed := used })).payee = V.payee := by
  funext n
  by_cases hn : n = a.period
  · subst hn
    simp [View.payee, View.put, h]
  · simp [View.payee, View.put, hn]

theorem ApprovalGuard.stored {now : I64} {amount period : U64} {destination owner : Pubkey}
    {k : WithdrawalKeyV7} {a : TreasuryApprovalV7}
    (h : ApprovalGuard V now amount period destination owner k a) :
    V.approval a.period = some a := by
  rw [h.period, h.approval]

/-! ## Masks -/

/-- The bits of a record. -/
structure Indexed (xs : List Event) (V : View) : Prop where
  history : ∀ x k, V.record x = some k →
    k.historyMask = Role.mask fun r ↦ decide (x ∈ successors r xs)
  pending : ∀ x k, V.record x = some k →
    k.pendingMask = Role.mask fun r ↦ decide (V.nominee r = some x)
  recipient : ∀ x k, V.record x = some k → (k.recipient = true ↔ ∃ n, V.payee n = some x)
  serving : ∀ r x, Serves xs V r x → V.record x ≠ none
  approved : ∀ n x, V.payee n = some x → V.record x ≠ none

theorem Indexed.frame (h : Indexed xs V) (hr : ∀ r, ¬ e.Rotates r)
    (hn : V'.nominee = V.nominee) (hp : V'.payee = V.payee) (hk : V'.record = V.record) :
    Indexed (xs ++ [e]) V' := by
  have hs : ∀ r, successors r (xs ++ [e]) = successors r xs := fun r ↦
    successors_of_not_rotates (hr r)
  exact {
    history := by simpa only [hs, hk] using h.history
    pending := by simpa only [hn, hk] using h.pending
    recipient := by simpa only [hp, hk] using h.recipient
    serving := by simpa only [Serves, hs, hn, hk] using h.serving
    approved := by simpa only [hp, hk] using h.approved }

/-- A step that rewrites the record of one key and concerns no other key. -/
theorem Indexed.update {y : Pubkey} {u : WithdrawalKeyV7} (h : Indexed xs V)
    (hrec : ∀ x, V'.record x = if x = y then some u else V.record x)
    (hkeys : ∀ x, x ≠ y → ∀ r, x ∈ successors r (xs ++ [e]) ↔ x ∈ successors r xs)
    (hnom : ∀ x, x ≠ y → ∀ r, V'.nominee r = some x ↔ V.nominee r = some x)
    (hpay : ∀ x, x ≠ y → ∀ n, V'.payee n = some x ↔ V.payee n = some x)
    (hh : u.historyMask = Role.mask fun r ↦ decide (y ∈ successors r (xs ++ [e])))
    (hp : u.pendingMask = Role.mask fun r ↦ decide (V'.nominee r = some y))
    (hk : u.recipient = true ↔ ∃ n, V'.payee n = some y) : Indexed (xs ++ [e]) V' where
  history x k hx := by
    rw [hrec] at hx
    split at hx
    · next hy => rw [← Option.some.inj hx, hh, hy]
    · next hy =>
      simp only [hkeys x hy]
      exact h.history x k hx
  pending x k hx := by
    rw [hrec] at hx
    split at hx
    · next hy => rw [← Option.some.inj hx, hp, hy]
    · next hy =>
      simp only [hnom x hy]
      exact h.pending x k hx
  recipient x k hx := by
    rw [hrec] at hx
    split at hx
    · next hy => rw [← Option.some.inj hx, hk, hy]
    · next hy =>
      simp only [hpay x hy]
      exact h.recipient x k hx
  serving r x hx := by
    rw [hrec]
    split
    · simp
    · next hy => exact h.serving r x (by simpa only [Serves, hkeys x hy, hnom x hy] using hx)
  approved n x hx := by
    rw [hrec]
    split
    · simp
    · next hy => exact h.approved n x ((hpay x hy n).mp hx)

/-- A settlement clears the pending bit of the successor, and an execution sets its history
bit. -/
theorem Indexed.settle {q : WithdrawalProposalV7} {k u : WithdrawalKeyV7} {done : Bool}
    (h : Indexed xs V) (hN : ∀ r, Named V r xs e V') (he : e.act.Settles s q done)
    (hk : V.record q.successor = some k) (hp : V'.payee = V.payee)
    (hrec : ∀ x, V'.record x = if x = q.successor then some u else V.record x)
    (hh : u.historyMask = if done then k.historyMask ||| s.bit else k.historyMask)
    (hm : u.pendingMask = k.pendingMask &&& ~~~s.bit) (hr : u.recipient = k.recipient) :
    Indexed (xs ++ [e]) V' := by
  have hkeys := fun r ↦ ((hN r).of_settles he).2.2
  have hnom := fun r ↦ ((hN r).of_settles he).2.1
  have hwas : V.nominee s = some q.successor := ((hN s).of_settles he).1 rfl
  refine h.update hrec (fun x hx r ↦ ?_) (fun x hx r ↦ ?_) (by simp [hp]) ?_ ?_ ?_
  · by_cases hd : r = s ∧ done <;> simp [hkeys, hd, hx]
  · by_cases hrs : r = s
    · subst hrs
      simp [hnom, hwas, Ne.symm hx]
    · simp [hnom, hrs]
  · rw [hh, h.history _ _ hk]
    cases done with
    | false => simp [hkeys]
    | true =>
      rw [if_pos rfl, Role.mask_or_bit]
      refine Role.mask_congr fun r ↦ ?_
      by_cases hrs : r = s <;> simp [hkeys, hrs]
  · rw [hm, h.pending _ _ hk, Role.mask_and_not_bit]
    refine Role.mask_congr fun r ↦ ?_
    by_cases hrs : r = s <;> simp [hnom, hrs]
  · rw [hr, hp]
    exact h.recipient _ _ hk

theorem Step.indexed (h : Step P V e V') (hn : ∀ r, Numbered P xs V r) (hi : Indexed xs V) :
    Indexed (xs ++ [e]) V' := by
  have hN : ∀ r, Named V r xs e V' := fun r ↦ h.named (hn r)
  cases h with
  | @approve now signers treasury period need epoch recipient owner k count bump guard counted =>
    have hkeys : ∀ r, successors r (xs ++
        [⟨now, signers, .approve treasury period need epoch recipient owner⟩]) = successors r xs :=
      fun r ↦ successors_of_not_rotates fun h ↦ h
    refine hi.update (y := owner) (u := { k with recipient := true })
      (fun x ↦ ?_) (by simp [hkeys]) (fun _ _ _ ↦ Iff.rfl) (fun x hx n ↦ ?_) ?_ ?_ ?_
    · simp [View.put, Function.update_apply, guard.subject]
    · by_cases hn : n = period
      · subst hn
        simp [View.payee, View.put, guard.vacant, Ne.symm hx]
      · simp [View.payee, View.put, hn]
    · simpa only [hkeys] using hi.history owner k guard.record
    · exact hi.pending owner k guard.record
    · exact ⟨fun _ ↦ ⟨period, by simp [View.payee, View.put]⟩, fun _ ↦ rfl⟩
  | releaseTreasury guard approved counted consumed =>
    exact hi.frame (fun _ h ↦ h) rfl (payee_consumed approved.stored) rfl
  | @prepareKey now signers subject bump nonzero state vacant =>
    have hkeys : ∀ r, successors r (xs ++ [⟨now, signers, .prepareKey subject⟩]) =
        successors r xs := fun r ↦ successors_of_not_rotates fun h ↦ h
    -- A key without a record has not been named anywhere.
    have hnot : ∀ r, ¬ Serves xs V r subject := fun r hx ↦ hi.serving r _ hx vacant
    refine hi.update (fun x ↦ Function.update_apply ..) (by simp [hkeys]) (fun _ _ _ ↦ Iff.rfl)
      (fun _ _ _ ↦ Iff.rfl) ?_ ?_ ?_
    · rw [eq_comm, Role.mask_eq_zero]
      exact fun r ↦ by simpa [hkeys] using fun hx ↦ hnot r (.inl hx)
    · rw [eq_comm, Role.mask_eq_zero]
      exact fun r ↦ decide_eq_false fun hx ↦ hnot r (.inr hx)
    · constructor
      · intro hf
        simp at hf
      · rintro ⟨n, hn⟩
        exact absurd vacant (hi.approved n _ hn)
  | @propose now signers req k executeAfter expiresAt bump guard after expiry =>
    have hkeys := fun r ↦ ((hN r).of_propose rfl).1
    have hnom := fun r ↦ ((hN r).of_propose rfl).2
    have hidle : V.nominee req.role = none := by rw [View.nominee, if_pos guard.idle]
    refine hi.update (y := req.successor) (u := { k with
        pendingMask := k.pendingMask ||| req.role.bit }) (fun x ↦ ?_) (by simp [hkeys])
      (fun x hx r ↦ ?_) (fun _ _ _ ↦ Iff.rfl) ?_ ?_ ?_
    · simp only [View.put, Function.update_apply, guard.subject]
    · by_cases hr : r = req.role <;> simp [hnom, hr, hidle, Ne.symm hx]
    · simpa only [hkeys] using hi.history _ k guard.record
    · have hmask := hi.pending _ k guard.record
      refine ((congrArg (· ||| req.role.bit) hmask).trans Role.mask_or_bit).trans ?_
      refine Role.mask_congr fun r ↦ ?_
      by_cases hr : r = req.role <;> simp [hnom, hr]
    · exact hi.recipient _ k guard.record
  | execute tick state pending window eligible next =>
    exact hi.settle hN .execute pending.record rfl
      (View.settle_record pending.subject) rfl rfl rfl
  | cancelRotation tick pending authority signed =>
    exact hi.settle hN .cancel pending.record rfl
      (View.settle_record pending.subject) rfl rfl rfl
  | expire tick pending expired =>
    exact hi.settle hN .expire pending.record rfl
      (View.settle_record pending.subject) rfl rfl rfl
  | _ => exact hi.frame (fun _ h ↦ h) rfl rfl rfl

/-- At the opening no key serves a role and no approval pays one. -/
theorem Opened.nobody {chain : Chain} (h : Opened chain e V) :
    (∀ r, successors r [e] = []) ∧ (∀ r, V.nominee r = none) ∧ ∀ n, V.payee n = none := by
  refine ⟨fun r ↦ ?_, fun r ↦ ?_, fun n ↦ ?_⟩
  · simp [successors, Event.successor?, h.act]
  · have hrole : V.role r = initialRole (V.policy.owner r) := by
      rw [View.role, h.policy]
      cases r <;> rfl
    simp [View.nominee, hrole, initialRole]
  · simp [View.payee, h.approval]

theorem Opened.indexed {chain : Chain} (h : Opened chain e V) : Indexed [e] V := by
  obtain ⟨hs, hn, hp⟩ := h.nobody
  constructor <;> simp [h.record, hp, Serves, hs, hn]

theorem path_indexed {chain : Chain} (h : (machine chain P).Path xs V) : Indexed xs V :=
  h.invariant Opened.indexed fun hp ih hs ↦ Step.indexed hs (path_numbered hp) ih

/-! ## Separation -/

/-- The successors of a role are distinct from each other, from its initial key and from its
committee, and from every owner that an approval pays. -/
structure Separated (xs : List Event) (V : View) : Prop where
  nodup : ∀ r, (successors r xs).Nodup
  fresh : ∀ r x, V.nominee r = some x → x ∉ successors r xs
  eligible : ∀ r x, Serves xs V r x →
    x ≠ Bytes32.zero ∧ x ≠ V.policy.owner r ∧ x ∉ V.policy.config.committee r
  payee : ∀ n x, V.payee n = some x → ∀ r,
    x ≠ V.policy.owner r ∧ x ∉ V.policy.config.committee r ∧ ¬ Serves xs V r x

/-- A step that nominates nobody and approves nothing. -/
theorem Separated.mono (h : Separated xs V) (hid : SameIdentity V.policy V'.policy)
    (hserves : ∀ r x, Serves (xs ++ [e]) V' r x → Serves xs V r x)
    (hnodup : ∀ r, (successors r (xs ++ [e])).Nodup)
    (hfresh : ∀ r x, V'.nominee r = some x → x ∉ successors r (xs ++ [e]))
    (hp : V'.payee = V.payee) : Separated (xs ++ [e]) V' where
  nodup := hnodup
  fresh := hfresh
  eligible r x hx := by
    rw [hid.owner, hid.config]
    exact h.eligible r x (hserves r x hx)
  payee n x hx r := by
    rw [hp] at hx
    rw [hid.owner, hid.config]
    obtain ⟨ho, hc, hs⟩ := h.payee n x hx r
    exact ⟨ho, hc, fun hx ↦ hs (hserves r x hx)⟩

theorem Separated.frame (h : Separated xs V) (hid : SameIdentity V.policy V'.policy)
    (hr : ∀ r, ¬ e.Rotates r) (hn : V'.nominee = V.nominee) (hp : V'.payee = V.payee) :
    Separated (xs ++ [e]) V' := by
  have hs : ∀ r, successors r (xs ++ [e]) = successors r xs := fun r ↦
    successors_of_not_rotates (hr r)
  refine h.mono hid (fun r x hx ↦ ?_) (fun r ↦ ?_) (fun r x hx ↦ ?_) hp
  · simpa only [Serves, hs, hn] using hx
  · simpa only [hs] using h.nodup r
  · rw [hs]
    exact h.fresh r x (hn ▸ hx)

/-- An approval of an owner that serves no role. -/
theorem Separated.approve {y : Pubkey} (h : Separated xs V)
    (hid : SameIdentity V.policy V'.policy) (hr : ∀ r, ¬ e.Rotates r)
    (hn : V'.nominee = V.nominee) (hp : ∀ n x, V'.payee n = some x → x = y ∨ V.payee n = some x)
    (hy : ∀ r, y ≠ V.policy.owner r ∧ y ∉ V.policy.config.committee r ∧ ¬ Serves xs V r y) :
    Separated (xs ++ [e]) V' := by
  have hs : ∀ r x, Serves (xs ++ [e]) V' r x ↔ Serves xs V r x := fun r x ↦ by
    rw [Serves, successors_of_not_rotates (hr r), hn, Serves]
  exact {
    nodup := fun r ↦ by
      rw [successors_of_not_rotates (hr r)]
      exact h.nodup r
    fresh := fun r x hx ↦ by
      rw [successors_of_not_rotates (hr r)]
      exact h.fresh r x (hn ▸ hx)
    eligible := fun r x hx ↦ by
      rw [hid.owner, hid.config]
      exact h.eligible r x ((hs r x).mp hx)
    payee := fun n x hx r ↦ by
      rw [hid.owner, hid.config, hs]
      rcases hp n x hx with rfl | hx
      · exact hy r
      · exact h.payee n x hx r }

/-- A nomination of an eligible successor. -/
theorem Separated.propose {req : RotationRequest} (h : Separated xs V)
    (hid : SameIdentity V.policy V'.policy) (hN : ∀ r, Named V r xs e V')
    (he : e.act = .propose req) (hp : V'.payee = V.payee)
    (hnew : req.successor ≠ Bytes32.zero ∧ req.successor ≠ V.policy.owner req.role ∧
      req.successor ∉ V.policy.config.committee req.role)
    (hfresh : req.successor ∉ successors req.role xs)
    (hpay : ∀ n, V.payee n ≠ some req.successor) : Separated (xs ++ [e]) V' := by
  have hkeys := fun r ↦ ((hN r).of_propose he).1
  have hnom := fun r ↦ ((hN r).of_propose he).2
  have hs : ∀ r x, Serves (xs ++ [e]) V' r x →
      Serves xs V r x ∨ (r = req.role ∧ x = req.successor) := fun r x hx ↦ by
    rw [Serves, hkeys, hnom] at hx
    rcases hx with hx | hx
    · exact .inl (.inl hx)
    · split at hx
      · next hr => exact .inr ⟨hr, (Option.some.inj hx).symm⟩
      · exact .inl (.inr hx)
  exact {
    nodup := fun r ↦ by
      rw [hkeys]
      exact h.nodup r
    fresh := fun r x hx ↦ by
      rw [hnom] at hx
      rw [hkeys]
      split at hx
      · next hr =>
        obtain rfl := Option.some.inj hx
        exact hr ▸ hfresh
      · exact h.fresh r x hx
    eligible := fun r x hx ↦ by
      rw [hid.owner, hid.config]
      rcases hs r x hx with hx | ⟨rfl, rfl⟩
      · exact h.eligible r x hx
      · exact hnew
    payee := fun n x hx r ↦ by
      rw [hp] at hx
      rw [hid.owner, hid.config]
      obtain ⟨ho, hc, hn⟩ := h.payee n x hx r
      refine ⟨ho, hc, fun hx' ↦ ?_⟩
      rcases hs r x hx' with hx' | ⟨-, rfl⟩
      · exact hn hx'
      · exact hpay n hx }

theorem Separated.settle {q : WithdrawalProposalV7} {done : Bool} (h : Separated xs V)
    (hid : SameIdentity V.policy V'.policy) (hN : ∀ r, Named V r xs e V')
    (he : e.act.Settles s q done) (hp : V'.payee = V.payee) : Separated (xs ++ [e]) V' := by
  have hkeys := fun r ↦ ((hN r).of_settles he).2.2
  have hnom := fun r ↦ ((hN r).of_settles he).2.1
  have hwas : V.nominee s = some q.successor := ((hN s).of_settles he).1 rfl
  refine h.mono hid (fun r x hx ↦ ?_) (fun r ↦ ?_) (fun r x hx ↦ ?_) hp
  · rw [Serves, hkeys, hnom] at hx
    by_cases hr : r = s
    · subst hr
      cases done <;> simp at hx
      · exact .inl hx
      · rcases hx with hx | rfl
        · exact .inl hx
        · exact .inr hwas
    · simpa [hr, Serves] using hx
  · rw [hkeys]
    split
    · next hr =>
      rw [← List.concat_eq_append]
      exact List.Nodup.concat (h.fresh r _ (hr.1 ▸ hwas)) (h.nodup r)
    · simpa using h.nodup r
  · rw [hnom] at hx
    split at hx
    · cases hx
    · next hr =>
      rw [hkeys, if_neg (fun h ↦ hr h.1), List.append_nil]
      exact h.fresh r x hx

/-- A key whose record has no bits serves no role. -/
theorem Indexed.not_serves {k : WithdrawalKeyV7} (hi : Indexed xs V) (hk : V.record x = some k)
    (hh : k.historyMask = 0) (hp : k.pendingMask = 0) (r : Role) : ¬ Serves xs V r x := by
  rw [hi.history x k hk, Role.mask_eq_zero] at hh
  rw [hi.pending x k hk, Role.mask_eq_zero] at hp
  rintro (hx | hx)
  · exact of_decide_eq_false (hh r) hx
  · exact of_decide_eq_false (hp r) hx

theorem Step.separated (h : Step P V e V') (hn : ∀ r, Numbered P xs V r) (hi : Indexed xs V)
    (hs : Separated xs V) : Separated (xs ++ [e]) V' := by
  have hN : ∀ r, Named V r xs e V' := fun r ↦ h.named (hn r)
  have hid := h.sameIdentity
  cases h with
  | @approve now signers treasury period need epoch recipient owner k count bump guard counted =>
    have hel := guard.eligible
    refine hs.approve (y := owner) hid (fun _ h ↦ h) rfl (fun n x hx ↦ ?_) fun r ↦ ?_
    · by_cases hn : n = period
      · subst hn
        exact .inl (by simpa [View.payee, View.put, eq_comm] using hx)
      · exact .inr (by simpa [View.payee, View.put, hn] using hx)
    · exact guard.subject ▸ ⟨hel.owner r, hel.committee r,
        guard.subject ▸ hi.not_serves guard.record hel.history hel.pending r⟩
  | releaseTreasury guard approved counted consumed =>
    exact hs.frame hid (fun _ h ↦ h) rfl (payee_consumed approved.stored)
  | @propose now signers req k executeAfter expiresAt bump guard after expiry =>
    have hel := guard.eligible
    refine hs.propose hid hN rfl rfl (guard.subject ▸ ⟨hel.nonzero, hel.owner, hel.committee⟩) ?_ ?_
    · have hh := hel.history
      rw [hi.history _ k guard.record, Role.mask_and_bit] at hh
      exact of_decide_eq_false hh
    · intro n hpay
      have hk := (hi.recipient _ k guard.record).mpr ⟨n, hpay⟩
      simp [hel.recipient] at hk
  | execute => exact hs.settle hid hN .execute rfl
  | cancelRotation => exact hs.settle hid hN .cancel rfl
  | expire => exact hs.settle hid hN .expire rfl
  | _ => exact hs.frame hid (fun _ h ↦ h) rfl rfl

theorem path_separated {chain : Chain} (h : (machine chain P).Path xs V) : Separated xs V := by
  refine h.invariant (fun h ↦ ?_)
    fun hp ih hs ↦ Step.separated hs (path_numbered hp) (path_indexed hp) ih
  obtain ⟨hs, hn, hp⟩ := Opened.nobody h
  constructor <;> simp [hp, Serves, hs, hn]

end FundingVaults.LaunchV7
