import FundingVaults.UpgradeGate.Effects
import FundingVaults.Lib.Trace

/-!
# The gate and the loader as a machine

One gate after its opening: accepted instructions of the program, on this gate or another, and
everything else that can happen to the loader's accounts, in any order.  The gate signs only inside
the program.

`Move` is what one step does to a gate that stands over its target.  Every invariant is a case
analysis of it.
-/

namespace FundingVaults.UpgradeGate

open Anchor

/-! ## Events -/

inductive Action where
  | instruction (tx : Tx Instruction)
  | outside (signers : List Pubkey)

def Action.signers : Action → List Pubkey
  | .instruction tx => tx.signers
  | .outside signers => signers

/-- Something happens between two worlds. -/
structure Event where
  before : World
  action : Action
  after : World

/-- The program accepts the instruction, or the loader allows the rest. -/
def Allowed (P : Platform) (w : World) : Action → World → Prop
  | .instruction tx, w' => process P w tx = .ok w'
  | .outside signers, w' => w'.gates = w.gates ∧ P.outside w.loader signers w'.loader

/-- What follows an accepted opening of the gate over the target by the members. -/
def machine (P : Platform) (target gate : Pubkey) (members : List Pubkey) :
    Machine World Event where
  opens e w := e.after = w ∧ Allowed P e.before e.action w ∧ gate ∉ e.action.signers ∧
    ∃ now signers k, e.action = .instruction ⟨now, signers, .initializeGate k⟩ ∧
      k.target = target ∧ k.gate = gate ∧ [k.memberOne, k.memberTwo, k.memberThree] = members
  step w e w' := e.before = w ∧ e.after = w' ∧ Allowed P w e.action w' ∧ gate ∉ e.action.signers

/-! ## Deeds -/

/-- What an event does about the proposals of a gate. -/
inductive Deed where
  | propose (now : I64) (nonce : U64)
  | execute (now : I64) (nonce : U64)
  | cancel (nonce : U64)
  | other

namespace Deed

def proposed? : Deed → Option U64
  | propose _ nonce => some nonce
  | _ => none

def settled? : Deed → Option U64
  | execute _ nonce => some nonce
  | cancel nonce => some nonce
  | _ => none

/-- The pending proposal is neither withdrawn nor replaced. -/
def Keeps : Deed → Prop
  | propose .. => False
  | cancel .. => False
  | _ => True

end Deed

namespace Event

def deed (gate : Pubkey) (e : Event) : Deed :=
  match e.action with
  | .instruction tx =>
    if tx.instruction.gate = gate then
      match tx.instruction with
      | .proposeUpgrade _ nonce _ => .propose tx.now nonce
      | .executeUpgrade _ nonce => .execute tx.now nonce
      | .cancelUpgrade _ nonce => .cancel nonce
      | _ => .other
    else .other
  | .outside _ => .other

/-- The event records the proposal of `g`, for a buffer with these bytes, on the word of two members
and of the key that gets the buffer back. -/
structure Records (P : Platform) (gate : Pubkey) (members : List Pubkey) (g : UpgradeGateV1)
    (bytes : Bytes) (e : Event) : Prop where
  deed : e.deed gate = .propose g.createdAt g.nonce
  recorded : e.after.gates gate = some { g with lastActionAt := g.createdAt }
  hash : g.codeHash = P.sha256 bytes
  length : g.codeLen = U64.ofNat bytes.length
  held : e.before.loader g.buffer = some ⟨false, .buffer (some gate) bytes⟩
  signed : ∃ a b, a ≠ b ∧ a ∈ members ∧ b ∈ members ∧ a ∈ e.action.signers ∧
    b ∈ e.action.signers ∧ g.returnAuthority ∈ e.action.signers

end Event

/-! ## One step -/

section Move

variable {P : Platform} {target gate : Pubkey} {members : List Pubkey} {w w' : World} {e : Event}
  {g : UpgradeGateV1}

/-- The gate and the accounts in its hands are as before. -/
structure Framed (gate : Pubkey) (w w' : World) : Prop where
  same : w'.gates gate = w.gates gate
  kept : ∀ key account, w.loader key = some account → account.state.authority = some gate →
    w'.loader key = some account

/-- What one step does to the gate `g`. -/
inductive Move (P : Platform) (gate : Pubkey) (g : UpgradeGateV1) (w : World) (e : Event)
    (w' : World) : Prop
  | framed (deed : e.deed gate = .other) (frame : Framed gate w w')
  | proposed {now : I64} {signers : List Pubkey} {k : ProposeUpgrade.Keys} {nonce : U64}
      {codeHash : Bytes32} {bytes : Bytes} {g' : UpgradeGateV1} (key : k.gate = gate)
      (signed : e.action.signers = signers) (deed : e.deed gate = .propose now nonce)
      (effect : Proposed P w now signers k nonce codeHash bytes g g')
      (after : w' = w.write gate g')
  | executed {now : I64} {k : ExecuteUpgrade.Keys} {nonce : U64} {bytes : Bytes}
      {g' : UpgradeGateV1} {A' : LoaderAccounts} (key : k.gate = gate)
      (deed : e.deed gate = .execute now nonce) (effect : Executed P w now k nonce bytes g g' A')
      (after : w' = ({ w with loader := A' } : World).write gate g')
  | cancelled {now : I64} {signers : List Pubkey} {k : ReturnBuffer.Keys} {A' : LoaderAccounts}
      (key : k.gate = gate) (deed : e.deed gate = .cancel g.nonce)
      (effect : Returned P w k signers g A') (pending : g.status = PENDING)
      (after : w' = ({ w with loader := A' } : World).write gate
        { g with status := CANCELLED, lastActionAt := now })
  | returned {now : I64} {signers : List Pubkey} {k : ReturnBuffer.Keys} {A' : LoaderAccounts}
      (key : k.gate = gate) (deed : e.deed gate = .other) (effect : Returned P w k signers g A')
      (idle : g.status ≠ PENDING ∨ g.buffer ≠ k.buffer)
      (after : w' = ({ w with loader := A' } : World).write gate { g with lastActionAt := now })

theorem move (hP : P.toLoader.Lawful) (hg : w.gates gate = some g)
    (h : (machine P target gate members).step w e w') : Move P gate g w e w' := by
  obtain ⟨before, action, after⟩ := e
  obtain ⟨-, -, hallowed, hgate⟩ := h
  cases action with
  | outside signers =>
    refine .framed rfl ⟨congrFun hallowed.1 gate, fun key account ha hown ↦ ?_⟩
    exact hP.outside hallowed.2 key account gate ha hown hgate
  | instruction tx =>
    by_cases hon : tx.instruction.gate = gate
    case neg =>
      obtain ⟨hsame, hkept⟩ := process_frame hP hallowed hon hgate
      exact .framed (by simp only [Event.deed, if_neg hon]) ⟨hsame, hkept⟩
    obtain ⟨now, signers, instr⟩ := tx
    change process P w _ = .ok w' at hallowed
    subst hon
    have same : ∀ {g' : UpgradeGateV1}, w.gates instr.gate = some g' → g' = g := fun h' ↦
      Option.some.inj (h'.symm.trans hg)
    cases instr with
    | initializeGate k =>
      obtain ⟨_, _, hi, -⟩ := process_initializeGate hallowed
      have hvac : (w.gates k.gate).isNone = true := (Bool.and_eq_true_iff.mp hi.vacant).1
      rw [show w.gates k.gate = some g from hg] at hvac
      exact absurd hvac (by simp)
    | proposeUpgrade k nonce codeHash =>
      obtain ⟨bytes, g₀, g', hp, rfl⟩ := process_proposeUpgrade hallowed
      obtain rfl := same hp.gate
      exact .proposed rfl rfl (by simp only [Event.deed, if_true]) hp rfl
    | executeUpgrade k nonce =>
      obtain ⟨bytes, g₀, g', A', he, rfl⟩ := process_executeUpgrade hallowed
      obtain rfl := same he.gate
      exact .executed rfl (by simp only [Event.deed, if_true]) he rfl
    | cancelUpgrade k nonce =>
      obtain ⟨g₀, A', hr, hpending, rfl, rfl⟩ := process_cancelUpgrade hallowed
      obtain rfl := same hr.gate
      exact .cancelled rfl (by simp only [Event.deed, if_true]) hr hpending rfl
    | returnUnqueuedBuffer k =>
      obtain ⟨g₀, A', hr, hidle, rfl⟩ := process_returnUnqueuedBuffer hallowed
      obtain rfl := same hr.gate
      exact .returned rfl (by simp only [Event.deed, if_true]) hr hidle rfl

end Move

end FundingVaults.UpgradeGate
