import FundingVaults.LaunchV7.State
import FundingVaults.Lib.Dict

/-!
# The authority model

Transcription of `withdrawal_recovery_model.py`, the reference model of the recovery of withdrawal
keys.  It has no accounts and no bit masks: a role keeps the list of its keys and a dictionary of
its closed proposals.  Integers are unbounded and range checks are explicit, keys are texts, and
the sets of signers are lists.  The digest of a proposal is a parameter.
-/

namespace FundingVaults.Recovery

open LaunchV7 (Role PerRole)

/-! ## Constants and checks -/

def DAY : ℤ := 86400
def NOTICE : ℤ := 90 * DAY
def EXECUTION_WINDOW : ℤ := 30 * DAY
def PERIOD : ℤ := 30 * DAY

/-- The source's `U64` and `I64`. -/
def maxU64 : ℤ := 2 ^ 64 - 1
def maxI64 : ℤ := 2 ^ 63 - 1

abbrev Result := Except String

def number (value : ℤ) (upper : ℤ) : Result Unit :=
  require (0 ≤ value ∧ value ≤ upper) "INTEGER_RANGE"

/-- A character that `strip` removes. -/
def isSpace (c : Char) : Bool :=
  c.toNat ∈ [9, 10, 11, 12, 13, 28, 29, 30, 31, 32, 133, 160, 5760, 8192, 8193, 8194, 8195, 8196,
    8197, 8198, 8199, 8200, 8201, 8202, 8232, 8233, 8239, 8287, 12288]

def key (value : String) : Result Unit :=
  require (¬ value.toList.all isSpace) "KEY"

@[simp] theorem number_eq_ok {value upper : ℤ} {u : Unit} :
    number value upper = .ok u ↔ 0 ≤ value ∧ value ≤ upper := require_eq_ok

/-- The text is a key. -/
def Named (value : String) : Prop := ∃ c ∈ value.toList, isSpace c = false

@[simp] theorem key_eq_ok {value : String} {u : Unit} : key value = .ok u ↔ Named value := by
  simp [key, Named]

/-! ## States -/

structure Approval where
  period : ℤ
  recipient : String
  owner : String
  need : ℤ
  consumed : ℤ
  createdAt : ℤ
  author : String
  authorEpoch : ℤ
deriving DecidableEq

inductive Mode where
  | normal
  | recovery
deriving DecidableEq, Repr

structure Proposal where
  policy : String
  role : Role
  nonce : ℤ
  epoch : ℤ
  predecessor : String
  successor : String
  mode : Mode
  createdAt : ℤ
  executeAfter : ℤ
  expiresAt : ℤ
deriving DecidableEq

inductive Status where
  | cancelled
  | expired
  | executed
deriving DecidableEq, Repr

structure Tombstone where
  proposal : Proposal
  digest : String
  status : Status
  finishedAt : ℤ
deriving DecidableEq

structure RoleState where
  initial : String
  current : String
  committee : List String
  history : List String
  epoch : ℤ
  sequence : ℤ
  pending : Option Proposal
  tombstones : Dict ℤ Tombstone

structure State where
  policy : String
  controller : String
  t0 : ℤ
  /-- A witness of the financial state, which nothing reads. -/
  economics : Bytes
  roles : PerRole RoleState
  approvals : Dict ℤ Approval
  lastAt : ℤ

/-- A role as it is registered. -/
def RoleState.first (actor : String) (committee : List String) : RoleState where
  initial := actor
  current := actor
  committee
  history := [actor]
  epoch := 0
  sequence := 0
  pending := none
  tombstones := .empty

def registerRole (actor : String) (members signers : List String) : Result RoleState := do
  key actor
  members.forM key
  require (members.length = members.dedup.length ∧ members.dedup.length = 3) "COMMITTEE"
  require (actor ∉ members) "ACTOR_IS_GUARDIAN"
  require (actor ∈ signers) "REGISTRATION_CONSENT"
  pure (.first actor members)

def register (policy controller : String) (t0 : ℤ) (economics : Bytes) (actors : PerRole String)
    (committees : PerRole (List String)) (signers : List String) : Result State := do
  key policy
  key controller
  number t0 maxI64
  require (economics ≠ []) "ECONOMIC_WITNESS"
  let founder ← registerRole actors.founder committees.founder signers
  let treasury ← registerRole actors.treasury committees.treasury signers
  pure { policy, controller, t0, economics, roles := ⟨founder, treasury⟩, approvals := .empty
         lastAt := 0 }

def context (state : State) (role : Role) (now : ℤ) : Result RoleState := do
  number now maxI64
  require (now ≥ state.lastAt) "CLOCK_BACKWARDS"
  pure (state.roles.get role)

/-- The role, at a time that is not before the last action. -/
@[simp] theorem context_eq_ok {state : State} {role : Role} {now : ℤ} {r : RoleState} :
    context state role now = .ok r ↔
      (0 ≤ now ∧ now ≤ maxI64) ∧ state.lastAt ≤ now ∧ state.roles.get role = r := by
  simp [context]

/-! ## Keys -/

/-- At least two members of the committee have signed. -/
def quorum (role : RoleState) (signers : List String) : Prop :=
  (role.committee.dedup.filter (· ∈ signers)).length ≥ 2

instance (role : RoleState) (signers : List String) : Decidable (quorum role signers) :=
  inferInstanceAs (Decidable (_ ≥ _))

/-- What a role blocks: its keys, its committee and the successor it waits for. -/
def RoleState.blocked (role : RoleState) : List String :=
  role.history ++ role.committee ++ (role.pending.map Proposal.successor).toList

def forbiddenRecipients (state : State) : List String :=
  state.roles.founder.blocked ++ state.roles.treasury.blocked

def successorAllowed (state : State) (role : RoleState) (successor : String) : Result Unit := do
  key successor
  require (successor ∉ role.history) "REUSED_WITHDRAWAL_KEY"
  require (successor ∉ role.committee) "ACTOR_IS_GUARDIAN"
  require (∀ a ∈ state.approvals.values, a.owner ≠ successor) "SUCCESSOR_IS_APPROVED_RECIPIENT"

/-- What `successor_allowed` requires. -/
structure Allowed (state : State) (role : RoleState) (successor : String) : Prop where
  named : Named successor
  fresh : successor ∉ role.history
  outside : successor ∉ role.committee
  unpaid : ∀ a ∈ state.approvals.values, a.owner ≠ successor

@[simp] theorem successorAllowed_eq_ok {state : State} {role : RoleState} {successor : String}
    {u : Unit} : successorAllowed state role successor = .ok u ↔ Allowed state role successor := by
  simp only [successorAllowed, bind_eq_ok, key_eq_ok, require_eq_ok, exists_const]
  constructor
  · rintro ⟨hnamed, hfresh, houtside, hunpaid⟩
    exact ⟨hnamed, hfresh, houtside, hunpaid⟩
  · intro h
    exact ⟨h.named, h.fresh, h.outside, h.unpaid⟩

/-! ## Rotations -/

def propose (state : State) (role : Role) (successor : String) (mode : Mode) (nonce epoch : ℤ)
    (signers : List String) (now : ℤ) : Result State := do
  let r ← context state role now
  number nonce maxU64
  number epoch maxU64
  require (r.pending = none) "PENDING"
  require (r.sequence < maxU64 ∧ nonce = r.sequence + 1) "NONCE"
  require (epoch = r.epoch ∧ epoch < maxU64) "EPOCH"
  successorAllowed state r successor
  require (successor ∈ signers) "SUCCESSOR_ACCEPTANCE"
  require (if mode = .normal then r.current ∈ signers else quorum r signers) "PROPOSAL_AUTHORITY"
  require (now ≤ maxI64 - NOTICE - EXECUTION_WINDOW) "TIME_OVERFLOW"
  pure { state with
    roles := state.roles.set role { r with
      pending := some {
        policy := state.policy, role, nonce, epoch, predecessor := r.current, successor, mode
        createdAt := now, executeAfter := now + NOTICE
        expiresAt := now + NOTICE + EXECUTION_WINDOW }
      sequence := nonce }
    lastAt := now }

/-- What `propose` requires of a role. -/
structure Proposable (state : State) (role : Role) (successor : String) (mode : Mode)
    (nonce epoch : ℤ) (signers : List String) (now : ℤ) : Prop where
  clock : 0 ≤ now ∧ state.lastAt ≤ now
  fits : now ≤ maxI64 - NOTICE - EXECUTION_WINDOW
  idle : (state.roles.get role).pending = none
  sequence : 0 ≤ (state.roles.get role).sequence ∧ (state.roles.get role).sequence < maxU64
  nonce : nonce = (state.roles.get role).sequence + 1
  epoch : epoch = (state.roles.get role).epoch ∧ 0 ≤ epoch ∧ epoch < maxU64
  allowed : Allowed state (state.roles.get role) successor
  acceptance : successor ∈ signers
  authority : if mode = .normal then (state.roles.get role).current ∈ signers
    else quorum (state.roles.get role) signers

theorem Proposable.propose {state : State} {role : Role} {successor : String} {mode : Mode}
    {nonce epoch : ℤ} {signers : List String} {now : ℤ}
    (h : Proposable state role successor mode nonce epoch signers now) :
    Recovery.propose state role successor mode nonce epoch signers now = .ok { state with
      roles := state.roles.set role { state.roles.get role with
        pending := some {
          policy := state.policy, role, nonce, epoch
          predecessor := (state.roles.get role).current, successor, mode
          createdAt := now, executeAfter := now + NOTICE
          expiresAt := now + NOTICE + EXECUTION_WINDOW }
        sequence := nonce }
      lastAt := now } := by
  have hfits := h.fits
  have hsequence := h.sequence
  have hnonce := h.nonce
  have hepoch := h.epoch
  simp only [Recovery.propose, bind_eq_ok, context_eq_ok, number_eq_ok, require_eq_ok,
    successorAllowed_eq_ok, pure_eq_ok, exists_const]
  refine ⟨_, ⟨⟨h.clock.1, ?_⟩, h.clock.2, rfl⟩, ⟨?_, ?_⟩, ⟨h.epoch.2.1, ?_⟩, h.idle,
    ⟨hsequence.2, hnonce⟩, ⟨hepoch.1, hepoch.2.2⟩, h.allowed, h.acceptance, h.authority, h.fits,
    rfl⟩
  · simp only [NOTICE, EXECUTION_WINDOW, DAY] at hfits
    omega
  · omega
  · omega
  · omega

section Digest

variable (digest : Proposal → String)

def pending (state : State) (role : Role) (claimed : String) (now : ℤ) :
    Result (RoleState × Proposal) := do
  let r ← context state role now
  let p ← okOr r.pending "NO_PENDING"
  require (digest p = claimed) "PROPOSAL_BINDING"
  require (p.policy = state.policy ∧ p.role = role ∧ p.epoch = r.epoch ∧
    p.predecessor = r.current ∧ p.nonce = r.sequence) "STALE_PROPOSAL"
  pure (r, p)

def finish (state : State) (role : Role) (p : Proposal) (status : Status) (now : ℤ) : State :=
  let r := state.roles.get role
  { state with
    roles := state.roles.set role { r with
      tombstones := r.tombstones.set p.nonce
        { proposal := p, digest := digest p, status, finishedAt := now }
      pending := none }
    lastAt := now }

def cancel (state : State) (role : Role) (claimed : String) (signers : List String) (now : ℤ) :
    Result State := do
  let (r, p) ← pending digest state role claimed now
  require (p.successor ∈ signers ∨ quorum r signers ∨ (p.mode = .normal ∧ r.current ∈ signers))
    "CANCEL_AUTHORITY"
  pure (finish digest state role p .cancelled now)

def expire (state : State) (role : Role) (claimed : String) (now : ℤ) : Result State := do
  let (_, p) ← pending digest state role claimed now
  require (now ≥ p.expiresAt) "NOT_EXPIRED"
  pure (finish digest state role p .expired now)

def execute (state : State) (role : Role) (claimed : String) (now : ℤ) : Result State := do
  let (r, p) ← pending digest state role claimed now
  require (p.executeAfter ≤ now ∧ now < p.expiresAt) "EXECUTION_WINDOW"
  successorAllowed state r p.successor
  let result := finish digest state role p .executed now
  let target := result.roles.get role
  pure { result with
    roles := result.roles.set role { target with
      current := p.successor
      history := target.history ++ [p.successor]
      epoch := target.epoch + 1 } }

variable {digest : Proposal → String} {state : State} {role : Role} {p : Proposal} {now : ℤ}

/-- The role waits for the proposal `p`, which is not stale. -/
structure Waiting (state : State) (role : Role) (p : Proposal) (now : ℤ) : Prop where
  clock : (0 ≤ now ∧ now ≤ maxI64) ∧ state.lastAt ≤ now
  waiting : (state.roles.get role).pending = some p
  policy : p.policy = state.policy
  mine : p.role = role
  epoch : p.epoch = (state.roles.get role).epoch
  predecessor : p.predecessor = (state.roles.get role).current
  nonce : p.nonce = (state.roles.get role).sequence

theorem Waiting.pending_eq_ok (h : Waiting state role p now) {x : RoleState × Proposal} :
    Recovery.pending digest state role (digest p) now = .ok x ↔ (state.roles.get role, p) = x := by
  simp only [Recovery.pending, bind_eq_ok, context_eq_ok, okOr_eq_ok, require_eq_ok, pure_eq_ok,
    exists_const]
  constructor
  · rintro ⟨r, ⟨-, -, rfl⟩, q, hq, -, -, rfl⟩
    rw [Option.some.inj (h.waiting.symm.trans hq)]
  · rintro rfl
    exact ⟨_, ⟨h.clock.1, h.clock.2, rfl⟩, p, h.waiting, rfl,
      ⟨h.policy, h.mine, h.epoch, h.predecessor, h.nonce⟩, rfl⟩

theorem Waiting.cancel {signers : List String} (h : Waiting state role p now)
    (authority : p.successor ∈ signers ∨ quorum (state.roles.get role) signers ∨
      (p.mode = .normal ∧ (state.roles.get role).current ∈ signers)) :
    Recovery.cancel digest state role (digest p) signers now =
      .ok (finish digest state role p .cancelled now) := by
  simp only [Recovery.cancel, bind_eq_ok, h.pending_eq_ok, require_eq_ok, pure_eq_ok,
    exists_const]
  exact ⟨_, rfl, authority, rfl⟩

theorem Waiting.expire (h : Waiting state role p now) (expired : p.expiresAt ≤ now) :
    Recovery.expire digest state role (digest p) now =
      .ok (finish digest state role p .expired now) := by
  simp only [Recovery.expire, bind_eq_ok, h.pending_eq_ok, require_eq_ok, pure_eq_ok,
    exists_const]
  exact ⟨_, rfl, expired, rfl⟩

/-- The role after its proposal is settled. -/
def RoleState.closed (r : RoleState) (t : Tombstone) : RoleState :=
  { r with tombstones := r.tombstones.set t.proposal.nonce t, pending := none }

theorem finish_eq {status : Status} : finish digest state role p status now = { state with
    roles := state.roles.set role ((state.roles.get role).closed
      { proposal := p, digest := digest p, status, finishedAt := now })
    lastAt := now } := rfl

theorem Waiting.execute (h : Waiting state role p now)
    (window : p.executeAfter ≤ now ∧ now < p.expiresAt)
    (allowed : Allowed state (state.roles.get role) p.successor) :
    Recovery.execute digest state role (digest p) now = .ok { state with
      roles := state.roles.set role { (state.roles.get role).closed
        { proposal := p, digest := digest p, status := .executed, finishedAt := now } with
        current := p.successor
        history := (state.roles.get role).history ++ [p.successor]
        epoch := (state.roles.get role).epoch + 1 }
      lastAt := now } := by
  simp only [Recovery.execute, bind_eq_ok, h.pending_eq_ok, require_eq_ok,
    successorAllowed_eq_ok, pure_eq_ok, exists_const]
  refine ⟨_, rfl, window, allowed, ?_⟩
  simp only [finish_eq, PerRole.get_set_self, RoleState.closed]
  congr 1
  cases role <;> rfl

end Digest

/-! ## Approvals and releases -/

def authenticate (state : State) (role : Role) (signer : String) (epoch now : ℤ) :
    Result Unit := do
  let r ← context state role now
  number epoch maxU64
  require (r.pending = none) "ROLE_PAUSED"
  require (signer = r.current ∧ epoch = r.epoch) "WITHDRAWAL_AUTHORITY"

/-- The key and the epoch are those of a role that waits for no proposal. -/
structure Authentic (state : State) (role : Role) (signer : String) (epoch now : ℤ) : Prop where
  clock : (0 ≤ now ∧ now ≤ maxI64) ∧ state.lastAt ≤ now
  range : 0 ≤ epoch ∧ epoch ≤ maxU64
  idle : (state.roles.get role).pending = none
  current : signer = (state.roles.get role).current
  epoch : epoch = (state.roles.get role).epoch

@[simp] theorem authenticate_eq_ok {state : State} {role : Role} {signer : String}
    {epoch now : ℤ} {u : Unit} :
    authenticate state role signer epoch now = .ok u ↔
      Authentic state role signer epoch now := by
  simp only [authenticate, bind_eq_ok, context_eq_ok, number_eq_ok, require_eq_ok, exists_const]
  constructor
  · rintro ⟨r, ⟨hnow, hclock, rfl⟩, hrange, hidle, hcurrent, hepoch⟩
    exact ⟨⟨hnow, hclock⟩, hrange, hidle, hcurrent, hepoch⟩
  · rintro ⟨⟨hnow, hclock⟩, hrange, hidle, hcurrent, hepoch⟩
    exact ⟨_, ⟨hnow, hclock, rfl⟩, hrange, hidle, hcurrent, hepoch⟩

def approve (state : State) (signer : String) (epoch period : ℤ) (recipient owner : String)
    (need now : ℤ) : Result State := do
  authenticate state .treasury signer epoch now
  number period maxU64
  number need maxU64
  key recipient
  key owner
  require (need > 0) "NEED"
  require (owner ∉ forbiddenRecipients state) "KNOWN_SELF_PAYMENT"
  require (period ∉ state.approvals.keys) "APPROVAL_IMMUTABLE"
  let last := state.t0 + (period + 1) * PERIOD
  require (last ≤ maxI64 ∧ now + PERIOD < last) "APPROVAL_NOTICE"
  require (now < state.t0 ∨ period > (now - state.t0).fdiv PERIOD) "FUTURE_PERIOD"
  pure { state with
    approvals := state.approvals.set period {
      period, recipient, owner, need, consumed := 0, createdAt := now, author := signer
      authorEpoch := epoch }
    lastAt := now }

structure Authorization where
  policy : String
  role : Role
  authorityEpoch : ℤ
  recipient : String
  financialKernelRequired : Bool
  transferExecuted : Bool
deriving DecidableEq

def authorizeRelease (state : State) (role : Role) (signer : String) (epoch : ℤ)
    (recipient owner : String) (now : ℤ) (period : Option ℤ) : Result Authorization := do
  authenticate state role signer epoch now
  key recipient
  key owner
  match role with
  | .founder => require (owner = signer ∧ period = none) "FOUNDER_DESTINATION"
  | .treasury =>
    -- `number` refuses `None`.
    let k ← okOr period "INTEGER_RANGE"
    number k maxU64
    require (now ≥ state.t0 ∧ k = (now - state.t0).fdiv PERIOD) "APPROVAL_PERIOD"
    let a ← okOr (state.approvals.get? k) "APPROVAL_REQUIRED"
    require (recipient = a.recipient ∧ owner = a.owner) "APPROVAL_DESTINATION"
    require (owner ∉ forbiddenRecipients state) "KNOWN_SELF_PAYMENT"
    require (now ≥ a.createdAt + PERIOD) "APPROVAL_NOTICE"
  pure { policy := state.policy, role, authorityEpoch := epoch, recipient
         financialKernelRequired := true, transferExecuted := false }

end FundingVaults.Recovery
