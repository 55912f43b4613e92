import FundingVaults.Recovery.Authority
import FundingVaults.Lib.Text

/-!
# The submission window model

Transcription of `submission_window_model.py`, which wraps the authority model: a proposal is
admitted under an intent that every signer attests, inside an interval that the intent states, and
everything that settles the proposal later checks it again against the admitted intent.
-/

namespace FundingVaults.Recovery

open LaunchV7 (Role)

def MAX_SUBMISSION_WINDOW : ℤ := 300

structure Intent where
  program : String
  policy : String
  identity : String
  role : Role
  predecessor : String
  successor : String
  mode : Mode
  nonce : ℤ
  epoch : ℤ
  validFrom : ℤ
  validUntil : ℤ
deriving DecidableEq

structure Admission where
  intent : Intent
  intentDigest : String
  acceptedAt : ℤ
deriving DecidableEq

namespace Window

structure State where
  program : String
  identity : String
  core : Recovery.State
  admissions : Dict (Role × ℤ) Admission

/-- Sixty-four lower-case hexadecimal digits. -/
def identityText (identity : String) : Result Unit :=
  require (identity.length = 64 ∧ identity.toList.all (hexDigits.contains ·)) "IDENTITY"

@[simp] theorem identityText_eq_ok {identity : String} {u : Unit} :
    identityText identity = .ok u ↔
      identity.length = 64 ∧ ∀ c ∈ identity.toList, c ∈ hexDigits := by
  simp only [identityText, require_eq_ok, List.all_eq_true, List.contains_iff_mem]

def bind (core : Recovery.State) (program identity : String) : Result State := do
  key program
  identityText identity
  require ((core.roles.founder.sequence = 0 ∧ core.roles.founder.pending = none) ∧
    core.roles.treasury.sequence = 0 ∧ core.roles.treasury.pending = none) "FRESH_MODEL_ONLY"
  pure { program, identity, core, admissions := .empty }

def validateIntent (intent : Intent) : Result Unit := do
  [intent.program, intent.policy, intent.predecessor, intent.successor].forM key
  identityText intent.identity
  number intent.nonce maxU64
  number intent.epoch maxU64
  number intent.validFrom maxI64
  number intent.validUntil maxI64
  require (0 ≤ intent.validUntil - intent.validFrom ∧
    intent.validUntil - intent.validFrom ≤ MAX_SUBMISSION_WINDOW) "SUBMISSION_WINDOW_WIDTH"
  require (intent.validUntil ≤ maxI64 - NOTICE - EXECUTION_WINDOW) "TIME_OVERFLOW"

/-- What `validate_intent` requires. -/
structure Valid (intent : Intent) : Prop where
  named : Named intent.program ∧ Named intent.policy ∧ Named intent.predecessor ∧
    Named intent.successor
  identity : intent.identity.length = 64 ∧ ∀ c ∈ intent.identity.toList, c ∈ hexDigits
  nonce : 0 ≤ intent.nonce ∧ intent.nonce ≤ maxU64
  epoch : 0 ≤ intent.epoch ∧ intent.epoch ≤ maxU64
  interval : 0 ≤ intent.validFrom ∧ intent.validFrom ≤ intent.validUntil ∧
    intent.validUntil - intent.validFrom ≤ 300
  fits : intent.validUntil ≤ maxI64 - NOTICE - EXECUTION_WINDOW

@[simp] theorem validateIntent_eq_ok {intent : Intent} {u : Unit} :
    validateIntent intent = .ok u ↔ Valid intent := by
  simp only [validateIntent, identityText_eq_ok, List.forM_eq_forM, bind_eq_ok, forM_eq_ok,
    List.forall_mem_cons, key_eq_ok, number_eq_ok, require_eq_ok, exists_const]
  constructor
  · rintro ⟨⟨h₁, h₂, h₃, h₄, -⟩, hid, hnonce, hepoch, hfrom, -, ⟨hle, hwidth⟩, hfits⟩
    exact ⟨⟨h₁, h₂, h₃, h₄⟩, hid, hnonce, hepoch, ⟨hfrom.1, by omega, hwidth⟩, hfits⟩
  · intro h
    have hfits := h.fits
    obtain ⟨hfrom, hle, hwidth⟩ := h.interval
    simp only [NOTICE, EXECUTION_WINDOW, DAY] at hfits
    refine ⟨⟨h.named.1, h.named.2.1, h.named.2.2.1, h.named.2.2.2, by simp⟩, h.identity, h.nonce,
      h.epoch, ⟨hfrom, ?_⟩, ⟨?_, ?_⟩, ⟨?_, hwidth⟩, h.fits⟩ <;> omega

def prepare (state : State) (role : Role) (successor : String) (mode : Mode)
    (validFrom validUntil : ℤ) : Result Intent := do
  let r := state.core.roles.get role
  let intent : Intent := {
    program := state.program, policy := state.core.policy, identity := state.identity, role
    predecessor := r.current, successor, mode, nonce := r.sequence + 1, epoch := r.epoch
    validFrom, validUntil }
  validateIntent intent
  pure intent

/-- The digests of the two kinds of records. -/
structure Digests where
  proposal : Proposal → String
  intent : Intent → String

variable (digests : Digests)

def submit (state : State) (intent : Intent) (attestations : Dict String String) (now : ℤ) :
    Result State := do
  validateIntent intent
  number now maxI64
  require ((intent.program, intent.policy, intent.identity) =
    (state.program, state.core.policy, state.identity)) "INTENT_DOMAIN"
  require (intent.validFrom ≤ now ∧ now ≤ intent.validUntil) "SUBMISSION_TIME"
  require (intent.predecessor = (state.core.roles.get intent.role).current) "PREDECESSOR"
  attestations.entries.forM fun attestation ↦ do
    key attestation.1
    require (attestation.2 = digests.intent intent) "SIGNED_INTENT_CHANGED"
  let core ← propose state.core intent.role intent.successor intent.mode intent.nonce intent.epoch
    attestations.keys now
  require ((intent.role, intent.nonce) ∉ state.admissions.keys) "ADMISSION_ALREADY_USED"
  pure { state with
    core
    admissions := state.admissions.set (intent.role, intent.nonce)
      { intent, intentDigest := digests.intent intent, acceptedAt := now } }

/-- What `submit` requires. -/
structure Submittable (state : State) (intent : Intent) (attestations : Dict String String)
    (now : ℤ) : Prop where
  valid : Valid intent
  domain : intent.program = state.program ∧ intent.policy = state.core.policy ∧
    intent.identity = state.identity
  time : intent.validFrom ≤ now ∧ now ≤ intent.validUntil
  predecessor : intent.predecessor = (state.core.roles.get intent.role).current
  attested : ∀ a ∈ attestations.entries, Named a.1 ∧ a.2 = digests.intent intent
  proposable : Proposable state.core intent.role intent.successor intent.mode intent.nonce
    intent.epoch attestations.keys now
  unused : (intent.role, intent.nonce) ∉ state.admissions.keys

variable {digests} in
theorem Submittable.submit {state : State} {intent : Intent} {attestations : Dict String String}
    {now : ℤ} {core : Recovery.State} (h : Submittable digests state intent attestations now)
    (hcore : propose state.core intent.role intent.successor intent.mode intent.nonce intent.epoch
      attestations.keys now = .ok core) :
    submit digests state intent attestations now = .ok { state with
      core
      admissions := state.admissions.set (intent.role, intent.nonce)
        { intent, intentDigest := digests.intent intent, acceptedAt := now } } := by
  have hfits := h.proposable.fits
  simp only [NOTICE, EXECUTION_WINDOW, DAY] at hfits
  simp only [Window.submit, List.forM_eq_forM, bind_eq_ok, validateIntent_eq_ok, number_eq_ok,
    require_eq_ok, forM_eq_ok, key_eq_ok, hcore, pure_eq_ok, Except.ok.injEq, Prod.mk.injEq,
    exists_const, exists_eq_left']
  exact ⟨h.valid, ⟨h.proposable.clock.1, by omega⟩, h.domain, h.time, h.predecessor, h.attested,
    h.unused, trivial⟩

/-- The checks of `pending` on an admitted intent and the proposal that it admits. -/
def admitted (state : State) (p : Proposal) (a : Admission) (intentDigest : String) :
    Result Unit := do
  validateIntent a.intent
  require (a.intentDigest = digests.intent a.intent ∧ digests.intent a.intent = intentDigest)
    "ADMISSION_DIGEST"
  require ((a.intent.program, a.intent.policy, a.intent.identity) =
    (state.program, state.core.policy, state.identity)) "INTENT_DOMAIN"
  require ((p.policy, p.role, p.nonce, p.epoch, p.predecessor, p.successor, p.mode) =
    (a.intent.policy, a.intent.role, a.intent.nonce, a.intent.epoch, a.intent.predecessor,
      a.intent.successor, a.intent.mode)) "ADMISSION_PROPOSAL"
  require ((a.intent.validFrom ≤ a.acceptedAt ∧ a.acceptedAt ≤ a.intent.validUntil) ∧
    p.createdAt = a.acceptedAt ∧ p.executeAfter = a.acceptedAt + NOTICE ∧
    p.expiresAt = a.acceptedAt + NOTICE + EXECUTION_WINDOW) "FULL_NOTICE_FROM_ADMISSION"

def pending (state : State) (role : Role) (intentDigest : String) : Result Proposal := do
  let p ← okOr (state.core.roles.get role).pending "NO_PENDING"
  let a ← okOr (state.admissions.get? (role, p.nonce)) "ADMISSION_MISSING"
  admitted digests state p a intentDigest
  pure p

/-- What `pending` requires of the proposal `p` and the admission `a`. -/
structure Admitted (state : State) (p : Proposal) (a : Admission) : Prop where
  valid : Valid a.intent
  digest : a.intentDigest = digests.intent a.intent
  domain : a.intent.program = state.program ∧ a.intent.policy = state.core.policy ∧
    a.intent.identity = state.identity
  proposal : p.policy = a.intent.policy ∧ p.role = a.intent.role ∧ p.nonce = a.intent.nonce ∧
    p.epoch = a.intent.epoch ∧ p.predecessor = a.intent.predecessor ∧
    p.successor = a.intent.successor ∧ p.mode = a.intent.mode
  time : a.intent.validFrom ≤ a.acceptedAt ∧ a.acceptedAt ≤ a.intent.validUntil
  notice : p.createdAt = a.acceptedAt ∧ p.executeAfter = a.acceptedAt + NOTICE ∧
    p.expiresAt = a.acceptedAt + NOTICE + EXECUTION_WINDOW

variable {digests} in
/-- The proposal of a role passes the checks against its admission. -/
theorem Admitted.pending_eq_ok {state : State} {role : Role} {p q : Proposal} {a : Admission}
    (h : Admitted digests state p a) (hp : (state.core.roles.get role).pending = some p)
    (ha : state.admissions.get? (role, p.nonce) = some a) :
    pending digests state role a.intentDigest = .ok q ↔ p = q := by
  simp only [pending, admitted, bind_eq_ok, okOr_eq_ok, validateIntent_eq_ok, require_eq_ok,
    pure_eq_ok, Prod.mk.injEq, exists_const]
  constructor
  · rintro ⟨p', hp', a', ha', -, rfl⟩
    exact Option.some.inj (hp.symm.trans hp')
  · rintro rfl
    exact ⟨p, hp, a, ha, ⟨h.valid, ⟨h.digest, h.digest.symm⟩, h.domain, h.proposal, h.time,
      h.notice⟩, rfl⟩

def execute (state : State) (role : Role) (intentDigest : String) (now : ℤ) : Result State := do
  let p ← pending digests state role intentDigest
  let core ← Recovery.execute digests.proposal state.core role (digests.proposal p) now
  pure { state with core }

def cancel (state : State) (role : Role) (intentDigest : String) (signers : List String)
    (now : ℤ) : Result State := do
  let p ← pending digests state role intentDigest
  let core ← Recovery.cancel digests.proposal state.core role (digests.proposal p) signers now
  pure { state with core }

def expire (state : State) (role : Role) (intentDigest : String) (now : ℤ) : Result State := do
  let p ← pending digests state role intentDigest
  let core ← Recovery.expire digests.proposal state.core role (digests.proposal p) now
  pure { state with core }

section Settle

variable {digests} {state : State} {role : Role} {p : Proposal} {a : Admission} {now : ℤ}
  {core : Recovery.State}

theorem Admitted.execute (h : Admitted digests state p a)
    (hp : (state.core.roles.get role).pending = some p)
    (ha : state.admissions.get? (role, p.nonce) = some a)
    (hcore : Recovery.execute digests.proposal state.core role (digests.proposal p) now =
      .ok core) :
    Window.execute digests state role a.intentDigest now = .ok { state with core } := by
  simp only [Window.execute, bind_eq_ok, h.pending_eq_ok hp ha, exists_eq_left', hcore, pure_eq_ok,
    Except.ok.injEq]

theorem Admitted.cancel {signers : List String} (h : Admitted digests state p a)
    (hp : (state.core.roles.get role).pending = some p)
    (ha : state.admissions.get? (role, p.nonce) = some a)
    (hcore : Recovery.cancel digests.proposal state.core role (digests.proposal p) signers now =
      .ok core) :
    Window.cancel digests state role a.intentDigest signers now = .ok { state with core } := by
  simp only [Window.cancel, bind_eq_ok, h.pending_eq_ok hp ha, exists_eq_left', hcore, pure_eq_ok,
    Except.ok.injEq]

theorem Admitted.expire (h : Admitted digests state p a)
    (hp : (state.core.roles.get role).pending = some p)
    (ha : state.admissions.get? (role, p.nonce) = some a)
    (hcore : Recovery.expire digests.proposal state.core role (digests.proposal p) now =
      .ok core) :
    Window.expire digests state role a.intentDigest now = .ok { state with core } := by
  simp only [Window.expire, bind_eq_ok, h.pending_eq_ok hp ha, exists_eq_left', hcore, pure_eq_ok,
    Except.ok.injEq]

end Settle

end Window

end FundingVaults.Recovery
