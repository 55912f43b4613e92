import FundingVaults.Lib.Solana

/-!
# The upgradeable loader

The accounts of the upgradeable loader and the three calls that change a program or a buffer on the
word of its authority.  `Loader` leaves the calls open; `Loader.Lawful` is what the loader
documents about them: they need the current authority, an upgrade keeps it and copies the buffer
into the program, filled up with zeros, and nothing else changes.

`Loader.documented` is a loader that does exactly this.
-/

namespace FundingVaults

/-! ## Accounts -/

inductive LoaderState where
  | uninitialized
  | buffer (authority : Option Pubkey) (bytes : Bytes)
  | program (programdata : Pubkey)
  | programData (authority : Option Pubkey) (code : Bytes)
deriving DecidableEq

structure LoaderAccount where
  executable : Bool
  state : LoaderState
deriving DecidableEq

/-- The accounts that the loader owns. -/
abbrev LoaderAccounts := Pubkey → Option LoaderAccount

namespace LoaderState

/-- The key whose signature changes the account. -/
def authority : LoaderState → Option Pubkey
  | .buffer a _ => a
  | .programData a _ => a
  | _ => none

/-- The upgrade authority of a program. -/
def upgradeAuthority? : LoaderState → Option (Option Pubkey)
  | .programData a _ => some a
  | _ => none

/-- The bytes of a buffer in the hands of the key. -/
def bufferOf (s : LoaderState) (key : Pubkey) : Option Bytes :=
  match s with
  | .buffer (some a) bytes => if a = key then some bytes else none
  | _ => none

theorem upgradeAuthority?_eq_some {s : LoaderState} {a : Option Pubkey} :
    s.upgradeAuthority? = some a ↔ ∃ code, s = .programData a code := by
  cases s <;> simp [upgradeAuthority?, eq_comm]

theorem bufferOf_eq_some {s : LoaderState} {key : Pubkey} {bytes : Bytes} :
    s.bufferOf key = some bytes ↔ s = .buffer (some key) bytes := by
  unfold bufferOf
  split
  · next a b =>
    simp only [Option.ite_none_right_eq_some, Option.some.injEq, buffer.injEq]
  · next h =>
    simp only [reduceCtorEq, false_iff]
    exact h key bytes

end LoaderState

/-! ## Calls -/

structure Loader where
  programDataAddress : Pubkey → Pubkey
  /-- The accounts, the program, its current and its new authority. -/
  setUpgradeAuthority : LoaderAccounts → Pubkey → Pubkey → Option Pubkey → Option LoaderAccounts
  /-- The accounts, the program, the buffer, their authority and the receiver of the lamports. -/
  upgrade : LoaderAccounts → Pubkey → Pubkey → Pubkey → Pubkey → Option LoaderAccounts
  /-- The accounts, the buffer, its current and its new authority. -/
  setBufferAuthority : LoaderAccounts → Pubkey → Pubkey → Pubkey → Option LoaderAccounts
  /-- What transactions with the given signers can do to the accounts besides. -/
  outside : LoaderAccounts → List Pubkey → LoaderAccounts → Prop

/-- A program's memory after the code is installed. -/
def installed (bytes old : Bytes) : Bytes := bytes ++ List.replicate (old.length - bytes.length) 0

namespace Loader

/-- The calls behave as documented. -/
structure Lawful (P : Loader) : Prop where
  setUpgradeAuthority : ∀ {A A' program current new},
    P.setUpgradeAuthority A program current new = some A' → ∃ x code,
      A (P.programDataAddress program) = some ⟨x, .programData (some current) code⟩ ∧
        A' = Function.update A (P.programDataAddress program) (some ⟨x, .programData new code⟩)
  upgrade : ∀ {A A' program buffer authority spill},
    P.upgrade A program buffer authority spill = some A' → ∃ x y old bytes,
      A (P.programDataAddress program) = some ⟨x, .programData (some authority) old⟩ ∧
        A buffer = some ⟨y, .buffer (some authority) bytes⟩ ∧
        A' (P.programDataAddress program) =
          some ⟨x, .programData (some authority) (installed bytes old)⟩ ∧
        ∀ key, key ≠ P.programDataAddress program → key ≠ buffer → A' key = A key
  setBufferAuthority : ∀ {A A' buffer current new},
    P.setBufferAuthority A buffer current new = some A' → ∃ x bytes,
      A buffer = some ⟨x, .buffer (some current) bytes⟩ ∧
        A' = Function.update A buffer (some ⟨x, .buffer (some new) bytes⟩)
  outside : ∀ {A signers A'}, P.outside A signers A' → ∀ key account a, A key = some account →
    account.state.authority = some a → a ∉ signers → A' key = some account

/-! ## A loader -/

/-- A loader that does what the laws say and nothing else. -/
def documented (programDataAddress : Pubkey → Pubkey) : Loader where
  programDataAddress
  setUpgradeAuthority A program current new :=
    match A (programDataAddress program) with
    | some ⟨x, .programData (some a) code⟩ =>
      if a = current then
        some (Function.update A (programDataAddress program) (some ⟨x, .programData new code⟩))
      else none
    | _ => none
  upgrade A program buffer authority _ :=
    match A (programDataAddress program), A buffer with
    | some ⟨x, .programData (some a) old⟩, some ⟨_, .buffer (some b) bytes⟩ =>
      if a = authority ∧ b = authority ∧ bytes.length ≤ old.length then
        some (Function.update (Function.update A buffer none) (programDataAddress program)
          (some ⟨x, .programData (some a) (installed bytes old)⟩))
      else none
    | _, _ => none
  setBufferAuthority A buffer current new :=
    match A buffer with
    | some ⟨x, .buffer (some a) bytes⟩ =>
      if a = current then
        some (Function.update A buffer (some ⟨x, .buffer (some new) bytes⟩))
      else none
    | _ => none
  outside A signers A' := ∀ key account a, A key = some account →
    account.state.authority = some a → a ∉ signers → A' key = some account

theorem documented_lawful (programDataAddress : Pubkey → Pubkey) :
    (documented programDataAddress).Lawful where
  setUpgradeAuthority {A A' program current new} h := by
    simp only [documented] at h
    split at h
    · next x a code hA =>
      split at h
      · next ha => exact ⟨x, code, ha ▸ hA, (Option.some.inj h).symm⟩
      · exact absurd h (by simp)
    · exact absurd h (by simp)
  upgrade {A A' program buffer authority spill} h := by
    simp only [documented] at h
    split at h
    · next x a old y b bytes hA hB =>
      split at h
      · next hc =>
        obtain ⟨rfl, rfl, -⟩ := hc
        obtain rfl := Option.some.inj h
        refine ⟨x, y, old, bytes, hA, hB, Function.update_self .., fun key hp hb ↦ ?_⟩
        exact (Function.update_of_ne hp ..).trans (Function.update_of_ne hb ..)
      · exact absurd h (by simp)
    · exact absurd h (by simp)
  setBufferAuthority {A A' buffer current new} h := by
    simp only [documented] at h
    split at h
    · next x a bytes hA =>
      split at h
      · next ha => exact ⟨x, bytes, ha ▸ hA, (Option.some.inj h).symm⟩
      · exact absurd h (by simp)
    · exact absurd h (by simp)
  outside h := h

end Loader

end FundingVaults
