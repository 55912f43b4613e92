import FundingVaults.Lib.Checked
import Mathlib.Logic.Function.Basic

/-!
# The chain a program runs on

Byte strings, addresses, token accounts and mints, and the parts of the platform that a program
calls but does not contain: the hash, the derivation of program addresses and the token
program's checked transfer.  These three are fields of `Chain`, so a model built on it holds for
every implementation of them.

The only law every `Chain` carries is the documented relation between the two derivation calls:
the address `find_program_address` returns is the one `create_program_address` computes from the
same seeds and the returned bump.
-/

namespace FundingVaults

abbrev Bytes := List UInt8

/-- The bytes of an ASCII literal. -/
def ascii (s : String) : Bytes := s.toList.map fun c ↦ c.toNat.toUInt8

/-- Thirty-two bytes: an address or a digest. -/
structure Bytes32 where
  /-- The bytes themselves. -/
  bytes : Bytes
  length_eq : bytes.length = 32
deriving DecidableEq

abbrev Pubkey := Bytes32

namespace Bytes32

@[ext] theorem ext {a b : Bytes32} (h : a.bytes = b.bytes) : a = b := by
  cases a
  cases b
  simp_all

/-- The all-zero value, `Pubkey::default()`. -/
def zero : Bytes32 := ⟨List.replicate 32 0, rfl⟩

end Bytes32

/-! ## Tokens -/

inductive TokenState where
  | uninitialized
  | initialized
  | frozen
deriving DecidableEq, Repr

/-- A token account.  The balances of one mint sum to its 64-bit supply, so a balance is an
unbounded natural number that never overflows. -/
structure TokenAccount where
  mint : Pubkey
  owner : Pubkey
  amount : ℕ
  delegate : Option Pubkey
  state : TokenState
  isNative : Option U64
  delegatedAmount : ℕ
  closeAuthority : Option Pubkey
deriving DecidableEq

/-- The mint of wrapped SOL. -/
def NATIVE_MINT : Pubkey :=
  ⟨[6, 155, 136, 87, 254, 171, 129, 132, 251, 104, 127, 99, 70, 24, 192, 53,
    218, 196, 57, 220, 26, 235, 59, 85, 152, 160, 240, 0, 0, 0, 0, 1], rfl⟩

/-- What a new token account records as `is_native`: one of wrapped SOL its rent reserve. -/
def nativeReserve (mint : Pubkey) : Option U64 := if mint = NATIVE_MINT then some 2039280 else none

structure Mint where
  mintAuthority : Option Pubkey
  supply : U64
  decimals : U8
  isInitialized : Bool
  freezeAuthority : Option Pubkey
deriving DecidableEq

/-- The accounts the token program owns. -/
structure Tokens where
  account : Pubkey → Option TokenAccount
  mint : Pubkey → Option Mint

/-- The accounts and arguments of a `transfer_checked` call. -/
structure TransferChecked where
  source : Pubkey
  mint : Pubkey
  destination : Pubkey
  authority : Pubkey
  amount : ℕ
  decimals : U8

/-! ## The platform -/

/-- What a program calls and does not contain. -/
structure Chain where
  sha256 : Bytes → Bytes32
  /-- `create_program_address`, the bump being the last seed. -/
  createProgramAddress : List Bytes → Pubkey → Option Pubkey
  findProgramAddress : List Bytes → Pubkey → Pubkey × U8
  create_find : ∀ seeds program,
    createProgramAddress (seeds ++ [[(findProgramAddress seeds program).2]]) program =
      some (findProgramAddress seeds program).1
  /-- The token program's transfer, `none` when it fails. -/
  transferChecked : Tokens → TransferChecked → Option Tokens

end FundingVaults
