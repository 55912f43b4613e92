import FundingVaults.Lib.Solana

/-!
# Fixed-width little-endian fields

The bytes of an `n`-byte unsigned field, the number an `n`-byte field holds, and the two
round trips between them.  Signed fields are two's complement.
-/

namespace FundingVaults

/-! ## Unsigned fields -/

/-- The `n` low bytes of `x`, least significant first. -/
def leBytes : ℕ → ℕ → Bytes
  | 0, _ => []
  | n + 1, x => UInt8.ofNat (x % 256) :: leBytes n (x / 256)

/-- The number whose little-endian bytes are given. -/
def leNat : Bytes → ℕ
  | [] => 0
  | b :: bs => b.toNat + 256 * leNat bs

@[simp] theorem leBytes_length (n x : ℕ) : (leBytes n x).length = n := by
  induction n generalizing x with
  | zero => rfl
  | succ n ih => simp [leBytes, ih]

theorem leNat_lt (bs : Bytes) : leNat bs < 256 ^ bs.length := by
  induction bs with
  | nil => simp [leNat]
  | cons b bs ih =>
      have hb := b.toNat_lt
      simp only [leNat, List.length_cons, Nat.pow_succ]
      omega

theorem leNat_leBytes {n x : ℕ} (h : x < 256 ^ n) : leNat (leBytes n x) = x := by
  induction n generalizing x with
  | zero => simp [leBytes, leNat] at *; omega
  | succ n ih =>
      rw [Nat.pow_succ] at h
      simp only [leBytes, leNat, ih (show x / 256 < 256 ^ n by omega), UInt8.toNat_ofNat']
      omega

theorem leBytes_leNat (bs : Bytes) : leBytes bs.length (leNat bs) = bs := by
  induction bs with
  | nil => rfl
  | cons b bs ih =>
      have hb := b.toNat_lt
      have hmod : (b.toNat + 256 * leNat bs) % 256 = b.toNat := by omega
      have hdiv : (b.toNat + 256 * leNat bs) / 256 = leNat bs := by omega
      simp [leBytes, leNat, hmod, hdiv, ih]

/-! ## The widths in use -/

def U8.toLe (x : U8) : Bytes := [x]
def U16.toLe (x : U16) : Bytes := leBytes 2 x.val
def U64.toLe (x : U64) : Bytes := leBytes 8 x.val
def I64.toLe (x : I64) : Bytes := leBytes 8 (x.val % 2 ^ 64).toNat

/-- A `bool` is one byte. -/
def boolToLe (b : Bool) : Bytes := [if b then 1 else 0]

@[simp] theorem U8.toLe_length (x : U8) : (U8.toLe x).length = 1 := rfl
@[simp] theorem U16.toLe_length (x : U16) : (U16.toLe x).length = 2 := leBytes_length _ _
@[simp] theorem U64.toLe_length (x : U64) : (U64.toLe x).length = 8 := leBytes_length _ _
@[simp] theorem I64.toLe_length (x : I64) : (I64.toLe x).length = 8 := leBytes_length _ _
@[simp] theorem boolToLe_length (b : Bool) : (boolToLe b).length = 1 := rfl

end FundingVaults
