import Mathlib.Algebra.Order.Ring.Int

/-!
# Whole numbers in text

`int` of a text: blanks around an optional sign and decimal digits of any script, between which
single underscores may stand.
-/

namespace FundingVaults.Numeral

/-- The digit zero of every script that has decimal digits, as of Unicode 15. -/
def zeros : List ℕ := [48, 1632, 1776, 1984, 2406, 2534, 2662, 2790, 2918, 3046, 3174, 3302, 3430,
  3558, 3664, 3792, 3872, 4160, 4240, 6112, 6160, 6470, 6608, 6784, 6800, 6992, 7088, 7232, 7248,
  42528, 43216, 43264, 43472, 43504, 43600, 44016, 65296, 66720, 68912, 69734, 69872, 69942, 70096,
  70384, 70736, 70864, 71248, 71360, 71472, 71904, 72016, 72784, 73040, 73120, 73552, 92768, 92864,
  93008, 120782, 120792, 120802, 120812, 120822, 123200, 123632, 124144, 125264, 130032]

def blanks : List ℕ := [9, 10, 11, 12, 13, 28, 29, 30, 31, 32, 133, 160, 5760, 8192, 8193, 8194,
  8195, 8196, 8197, 8198, 8199, 8200, 8201, 8202, 8232, 8233, 8239, 8287, 12288]

def isBlank (c : Char) : Bool := blanks.contains c.toNat

def decimal? (c : Char) : Option ℕ :=
  (zeros.find? fun z ↦ z ≤ c.toNat && c.toNat < z + 10).map (c.toNat - ·)

/-- The digits that follow those of `n`. -/
def more : ℕ → List Char → Option ℕ
  | n, [] => some n
  | n, '_' :: c :: cs => (decimal? c).bind fun d ↦ more (10 * n + d) cs
  | n, c :: cs => (decimal? c).bind fun d ↦ more (10 * n + d) cs

def unsigned? : List Char → Option ℕ
  | [] => none
  | c :: cs => (decimal? c).bind fun d ↦ more d cs

def signed? : List Char → Option ℤ
  | '+' :: cs => (unsigned? cs).map Nat.cast
  | '-' :: cs => (unsigned? cs).map fun n ↦ -(n : ℤ)
  | cs => (unsigned? cs).map Nat.cast

/-- `int` of a text. -/
def int? (text : String) : Option ℤ :=
  signed? (((text.toList.dropWhile isBlank).reverse.dropWhile isBlank).reverse)

example : (signed? ['-', '1', '_', '0', '٣'], signed? ['1', '_', '_', '0'], signed? ['1', '.', '9']) =
    (some (-103), none, none) := by decide

end FundingVaults.Numeral
