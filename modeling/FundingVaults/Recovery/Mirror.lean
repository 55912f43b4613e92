import FundingVaults.LaunchV7.Records
import FundingVaults.Lib.Base58
import FundingVaults.Recovery.Window
import FundingVaults.Verifier.Address
import Mathlib.Data.List.Perm.Subperm

/-!
# The program mirrors the model

The reference model keeps lists of keys and dictionaries of proposals where the program has bit
masks and accounts.  `Mirrors` relates the accounts of a policy to a state of the model, reading
the lists off the history of the policy.  `follow` is what the model does when the program accepts
an instruction; a release has to be authorised and changes nothing.
-/

namespace FundingVaults.Recovery

open LaunchV7 Verifier

/-! ## Records -/

def Mode.of (recovery : Bool) : Mode := if recovery then .recovery else .normal

def Proposal.of (P : Pubkey) (r : Role) (q : WithdrawalProposalV7) : Proposal where
  policy := shown P
  role := r
  nonce := q.nonce.val
  epoch := q.epoch.val
  predecessor := shown q.predecessor
  successor := shown q.successor
  mode := .of q.recovery
  createdAt := q.createdAt.val
  executeAfter := q.executeAfter.val
  expiresAt := q.expiresAt.val

/-- The status of a proposal that is closed. -/
def Status.of (status : U8) : Status :=
  if status = PROPOSAL_EXECUTED then .executed
  else if status = PROPOSAL_EXPIRED then .expired
  else .cancelled

/-- The approval, of which the model does not count what is consumed. -/
def Approval.of (a : TreasuryApprovalV7) : Approval where
  period := a.period.val
  recipient := shown a.recipient
  owner := shown a.recipientOwner
  need := a.need.val
  consumed := 0
  createdAt := a.createdAt.val
  author := shown a.author
  authorEpoch := a.authorEpoch.val

/-- The intent under which a proposal is admitted. -/
def Intent.of (program policy identity : String) (r : Role) (q : WithdrawalProposalV7) :
    Intent where
  program
  policy
  identity
  role := r
  predecessor := shown q.predecessor
  successor := shown q.successor
  mode := .of q.recovery
  nonce := q.nonce.val
  epoch := q.epoch.val
  validFrom := q.validFrom.val
  validUntil := q.validUntil.val

section Digests

variable (digests : Window.Digests)

def Tombstone.of (P : Pubkey) (r : Role) (q : WithdrawalProposalV7) : Tombstone where
  proposal := .of P r q
  digest := digests.proposal (.of P r q)
  status := .of q.status
  finishedAt := q.finishedAt.val

def Admission.of (intent : Intent) (q : WithdrawalProposalV7) : Admission where
  intent
  intentDigest := digests.intent intent
  acceptedAt := q.createdAt.val

/-! ## What the model does -/

/-- The model of a policy as it is opened, its two roles consenting. -/
def start (P : Pubkey) (p : LaunchPolicyV7) : Result Window.State := do
  let actors : PerRole String := ⟨shown p.founder, shown p.treasury⟩
  let core ← register (shown P) (shown p.creator) p.config.t0.val p.identity.bytes actors
    ⟨(p.config.committee .founder).toList.map shown,
      (p.config.committee .treasury).toList.map shown⟩ [actors.founder, actors.treasury]
  Window.bind core (shown ID) (hexEncode p.identity.bytes)

/-- The intent of a proposal of the program at `S`. -/
def Window.State.intent (S : Window.State) (r : Role) (q : WithdrawalProposalV7) : Intent :=
  .of S.program S.core.policy S.identity r q

/-- The period of a release, which only the treasury states. -/
def releasePeriod (S : Window.State) (r : Role) (now : I64) : Option ℤ :=
  match r with
  | .founder => none
  | .treasury => some ((now.val - S.core.t0).fdiv PERIOD)

/-- What the model does at an accepted instruction. -/
def follow (S : Window.State) (e : Event) : Result Window.State :=
  match e.act with
  | .propose req => do
    let intent ← Window.prepare S req.role (shown req.successor) (.of req.recovery)
      req.validFrom.val req.validUntil.val
    let attestations := Dict.ofList ([req.initiator, req.cosigner, req.successor].map fun k ↦
      (shown k, digests.intent intent))
    Window.submit digests S intent attestations e.now.val
  | .execute r q => Window.execute digests S r (digests.intent (S.intent r q)) e.now.val
  | .cancelRotation r q initiator cosigner =>
    Window.cancel digests S r (digests.intent (S.intent r q)) [shown initiator, shown cosigner]
      e.now.val
  | .expire r q => Window.expire digests S r (digests.intent (S.intent r q)) e.now.val
  | .approve treasury period need epoch recipient owner => do
    let core ← approve S.core (shown treasury) epoch.val period.val (shown recipient)
      (shown owner) need.val e.now.val
    pure { S with core }
  | .release r authority _ epoch destination owner => do
    let _ ← authorizeRelease S.core r (shown authority) epoch.val (shown destination)
      (shown owner) e.now.val (releasePeriod S r e.now)
    pure S
  | _ => pure S

/-! ## The relation -/

variable (P : Pubkey)

/-- The closed proposals of a role. -/
def closedProposal (V : View) (r : Role) (n : U64) : Option Tombstone :=
  ((V.proposal r n).filter (·.status ≠ PROPOSAL_PENDING)).map (Tombstone.of digests P r)

/-- The admissions of all proposals. -/
def admission (S : Window.State) (V : View) (x : Role × U64) : Option Admission :=
  (V.proposal x.1 x.2).map fun q ↦ .of digests (S.intent x.1 q) q

/-- A number of the program in the model. -/
def written (n : U64) : ℤ := n.val

/-- The model's role `w` is the role `r` of the view, after the history `xs`. -/
structure RoleMirrors (xs : List Event) (V : View) (r : Role) (w : RoleState) : Prop where
  initial : w.initial = shown (V.policy.owner r)
  current : w.current = shown (V.role r).current
  committee : w.committee = (V.policy.config.committee r).toList.map shown
  history : w.history = (roleKeys V.policy r xs).map shown
  epoch : w.epoch = (V.role r).epoch.val
  sequence : w.sequence = (V.role r).sequence.val
  pending : w.pending = if (V.role r).pending = 0 then none
    else (V.proposal r (V.role r).pending).map (Proposal.of P r)
  tombstones : w.tombstones.Lists written (closedProposal digests P V r)

structure Mirrors (xs : List Event) (V : View) (S : Window.State) : Prop where
  program : S.program = shown ID
  policy : S.core.policy = shown P
  identity : S.identity = hexEncode V.policy.identity.bytes
  controller : S.core.controller = shown V.policy.creator
  t0 : S.core.t0 = V.policy.config.t0.val
  clock : S.core.lastAt ≤ V.policy.lastActionAt.val
  role : ∀ r, RoleMirrors digests P xs V r (S.core.roles.get r)
  /-- The keys that followed the first have records, which alone bear the mark of the role. -/
  records : ∀ r s, s ∈ (S.core.roles.get r).history.tail ↔
    ∃ x k, s = shown x ∧ V.record x = some k ∧ k.historyMask &&& r.bit ≠ 0
  approvals : S.core.approvals.Lists written fun n ↦ (V.approval n).map Approval.of
  admissions : S.admissions.Lists (Prod.map id written) (admission digests S V)
  /-- The checks of `pending` hold of every live proposal. -/
  admitted : ∀ r q, (V.role r).pending ≠ 0 → V.proposal r (V.role r).pending = some q →
    Window.Admitted digests S (.of P r q) (.of digests (S.intent r q) q)

end Digests

/-! ## Texts -/

theorem named_shown (k : Pubkey) : Named (shown k) := by
  have hdecode : base58Decode? (shown k) = some k.bytes :=
    base58Decode?_encode (Verifier.Pubkey.bytes_ne_nil k)
  unfold base58Decode? at hdecode
  split at hdecode
  · cases hdecode
  · next hne =>
    obtain ⟨n, hn, -⟩ := Option.map_eq_some_iff.mp hdecode
    obtain ⟨c, cs, hcs⟩ := List.exists_cons_of_ne_nil hne
    have hmem : c ∈ (shown k).toList := by simp [hcs]
    have hdigit := (Alphabet.number?_isSome base58Alphabet).mp (Option.isSome_of_eq_some hn) c hmem
    have hspace : (base58Digits.all fun c ↦ !isSpace c) = true := by rfl
    exact ⟨c, hmem, by simpa using List.all_eq_true.mp hspace c hdigit⟩

theorem identityText_hex (k : Bytes32) :
    (hexEncode k.bytes).length = 64 ∧ ∀ c ∈ (hexEncode k.bytes).toList, c ∈ hexDigits :=
  ⟨by rw [hexEncode_length, k.length_eq], fun _ ↦ mem_hexDigits⟩

theorem shown_injective : Function.Injective shown := fun _ _ ↦ shown_inj.mp

@[simp] theorem shown_mem_map {k : Pubkey} {ks : List Pubkey} :
    shown k ∈ ks.map shown ↔ k ∈ ks := List.mem_map_of_injective shown_injective

/-- Two members of a committee are a quorum of its model. -/
theorem quorum_of_twoOf {keys : Vector Pubkey 3} {a b : Pubkey} {w : RoleState}
    {signers : List String} (hw : w.committee = keys.toList.map shown) (h : TwoOf keys a b)
    (ha : shown a ∈ signers) (hb : shown b ∈ signers) : quorum w signers := by
  obtain ⟨hne, hma, hmb⟩ := h
  have hnodup : [shown a, shown b].Nodup := by simpa using hne
  have hsub : [shown a, shown b] ⊆ w.committee.dedup.filter (· ∈ signers) := by
    have hmem : ∀ {k}, k ∈ keys → shown k ∈ w.committee := fun hk ↦ by
      rw [hw, shown_mem_map]
      exact Vector.mem_toList_iff.mpr hk
    intro x hx
    simp only [List.mem_cons, List.not_mem_nil, or_false] at hx
    rcases hx with rfl | rfl
    · simp [hmem hma, ha]
    · simp [hmem hmb, hb]
  exact (List.subperm_of_subset hnodup hsub).length_le

end FundingVaults.Recovery
