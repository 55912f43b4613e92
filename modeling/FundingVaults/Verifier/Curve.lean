import FundingVaults.Lib.Platform
import FundingVaults.Lib.Pratt
import FundingVaults.Lib.Root
import FundingVaults.Verifier.Address
import Mathlib.Tactic.NormNum.LegendreSymbol
import Mathlib.Tactic.NormNum.Prime

/-!
# Points of the curve

`_is_ed25519_point` against the decompression of points that the platform uses to reject a hash as a
derived address.
-/

namespace FundingVaults.Verifier

/-! ## The field -/

/-- Certificates of the order of the field and of the primes on the way to it. -/
def certificate : List Pratt.Step := [
  ⟨2773320623, 5, [2, 2437, 569003]⟩,
  ⟨72106336199, 7, [2, 13, 2773320623]⟩,
  ⟨8574133, 2, [2, 2, 3, 7, 103, 991]⟩,
  ⟨1919519569386763, 2, [2, 3, 7, 19, 47, 47, 127, 8574133]⟩,
  ⟨75445702479781427272750846543864801, 7,
    [2, 2, 2, 2, 2, 3, 3, 5, 5, 75707, 72106336199, 1919519569386763]⟩,
  ⟨31757755568855353, 10, [2, 2, 2, 3, 31, 107, 223, 4153, 430751]⟩,
  ⟨1923133, 2, [2, 2, 3, 43, 3727]⟩,
  ⟨74058212732561358302231226437062788676166966415465897661863160754340907, 2,
    [2, 3, 353, 57467, 132049, 1923133, 31757755568855353, 75445702479781427272750846543864801]⟩,
  ⟨fieldOrder, 2,
    [2, 2, 3, 65147, 74058212732561358302231226437062788676166966415465897661863160754340907]⟩]

def smallPrimes : List ℕ := [2, 3, 5, 7, 13, 19, 31, 43, 47, 103, 107, 127, 223, 353, 991, 2437,
  3727, 4153, 57467, 65147, 75707, 132049, 430751, 569003]

theorem smallPrimes_prime : ∀ q ∈ smallPrimes, q.Prime := by
  simp only [smallPrimes, List.forall_mem_cons]
  norm_num

theorem certificate_passes : Pratt.passes 256 smallPrimes certificate := by decide +kernel

instance fieldOrder_prime : Fact fieldOrder.Prime :=
  ⟨Pratt.passes_prime smallPrimes_prime certificate_passes ⟨fieldOrder, 2, _⟩
    (List.getLast_mem (List.cons_ne_nil _ _))⟩

/-! ## The platform's test -/

abbrev Field := ZMod fieldOrder

/-- The coefficient of the curve. -/
def curveD : Field := -121665 / 121666

/-- The coordinate that an encoding names. -/
def coordinate (k : Bytes32) : ℕ := leNat k.bytes % 2 ^ 255

/-- The sign of the other coordinate. -/
def sign (k : Bytes32) : UInt8 := k.bytes.getD 31 0 >>> 7

/-- What is documented about the decompression of a point: the coordinate counts modulo the order of
the field, the square of the other coordinate must have a root, and the sign picks one without a
further test. -/
def OnCurve (k : Bytes32) : Prop :=
  IsSquare (((coordinate k : Field) ^ 2 - 1) / (curveD * (coordinate k : Field) ^ 2 + 1))

/-- `121666` is not zero, and `curveD` has no root. -/
theorem ne_zero_121666 : (121666 : Field) ≠ 0 := by
  intro h
  have hdvd := (ZMod.natCast_eq_zero_iff 121666 fieldOrder).mp (by exact_mod_cast h)
  exact absurd (Nat.le_of_dvd (by decide) hdvd) (by decide)

theorem not_isSquare_curveD : ¬ IsSquare curveD := by
  have hsymbol : legendreSym fieldOrder (-121665 * 121666) = -1 := by
    norm_num [fieldOrder]
  rw [legendreSym.eq_neg_one_iff] at hsymbol
  rw [curveD, Root.isSquare_div_iff ne_zero_121666]
  exact_mod_cast hsymbol

theorem denominator_ne_zero (y : Field) : curveD * y ^ 2 + 1 ≠ 0 :=
  Root.mul_sq_add_one_ne_zero (by decide) not_isSquare_curveD y

/-- Whether a coordinate belongs to a point is a symbol of small numbers. -/
theorem isSquare_ratio_iff (y : ℤ) :
    IsSquare (((y : Field) ^ 2 - 1) / (curveD * (y : Field) ^ 2 + 1)) ↔
      legendreSym fieldOrder ((y ^ 2 - 1) * ((121666 - 121665 * y ^ 2) * 121666)) ≠ -1 := by
  have hscale : curveD * (y : Field) ^ 2 + 1 = (121666 - 121665 * (y : Field) ^ 2) / 121666 := by
    rw [curveD, eq_div_iff ne_zero_121666, add_mul, mul_right_comm, div_mul_cancel₀ _ ne_zero_121666]
    ring
  have hne : (121666 - 121665 * (y : Field) ^ 2) ≠ 0 := by
    have hden := denominator_ne_zero y
    rw [hscale] at hden
    exact fun h ↦ hden (by rw [h, zero_div])
  rw [Ne, legendreSym.eq_neg_one_iff, not_not, hscale, div_div_eq_mul_div,
    Root.isSquare_div_iff hne]
  push_cast
  ring_nf

/-- The coordinates of points among the numbers that have a second encoding. -/
def wrapped : List ℕ := [0, 1, 3, 4, 5, 6, 9, 10, 14, 15, 16, 18]

theorem isSquare_ratio_small {r : ℕ} (hr : r < 19) :
    IsSquare (((r : Field) ^ 2 - 1) / (curveD * (r : Field) ^ 2 + 1)) ↔ r ∈ wrapped := by
  have hcast : ((r : ℤ) : Field) = (r : Field) := Int.cast_natCast r
  rw [← hcast, isSquare_ratio_iff]
  unfold wrapped
  interval_cases r <;> norm_num [fieldOrder]

/-! ## The verifier's test -/

theorem cast_powMod (b : ℤ) (e : ℕ) : ((powMod b e fieldOrder : ℤ) : Field) = (b : Field) ^ e := by
  rw [powMod_eq, ZMod.intCast_mod, Int.cast_pow]

/-- Reduced numbers are told apart by their residues. -/
theorem emod_eq_iff {a b : ℤ} (hb : b % fieldOrder = b) :
    a % fieldOrder = b ↔ (a : Field) = (b : Field) := by
  rw [ZMod.intCast_eq_intCast_iff', hb]

theorem powMod_emod (b : ℤ) (e : ℕ) :
    powMod b e fieldOrder % fieldOrder = powMod b e fieldOrder := by
  rw [powMod_eq, Int.emod_emod]

/-- The root that the test computes, corrected by a root of `-1`. -/
def root (a : ℤ) : ℤ :=
  let x := powMod a ((fieldOrder + 3) / 8) fieldOrder
  if x * x % fieldOrder ≠ a then x * powMod 2 ((fieldOrder - 1) / 4) fieldOrder % fieldOrder else x

theorem root_emod (a : ℤ) : root a % fieldOrder = root a := by
  unfold root
  dsimp only
  split
  · rw [Int.emod_emod]
  · rw [powMod_emod]

theorem root_mul_root {a : ℤ} (ha : a % fieldOrder = a) :
    root a * root a % fieldOrder = a ↔ IsSquare (a : Field) := by
  rw [emod_eq_iff ha, Int.cast_mul, ← sq, Root.isSquare_iff (by decide)]
  have hx : powMod a ((fieldOrder + 3) / 8) fieldOrder * powMod a ((fieldOrder + 3) / 8) fieldOrder %
      fieldOrder = a ↔ ((a : Field) ^ ((fieldOrder + 3) / 8)) ^ 2 = a := by
    rw [emod_eq_iff ha, Int.cast_mul, cast_powMod, sq]
  unfold root
  dsimp only
  split
  next hne =>
    rw [Ne, hx] at hne
    rw [ZMod.intCast_mod, Int.cast_mul, cast_powMod, cast_powMod, or_iff_right hne, Int.cast_ofNat]
  next heq =>
    rw [not_not, hx] at heq
    rw [cast_powMod, iff_true_left heq, or_iff_left_of_imp fun _ ↦ heq]
    exact heq

theorem root_eq_zero {a : ℤ} (ha : a % fieldOrder = a) (h : root a * root a % fieldOrder = a) :
    root a = 0 ↔ a = 0 := by
  constructor
  · intro hzero
    rw [← h, hzero, mul_zero, Int.zero_emod]
  · rintro rfl
    rw [emod_eq_iff ha, Int.cast_mul, Int.cast_zero, mul_self_eq_zero] at h
    have hroot := (emod_eq_iff ha).mpr (h.trans Int.cast_zero.symm)
    rwa [root_emod] at hroot

/-- The coefficient of the curve, as the test computes it. -/
def coefficient : ℤ := -121665 * powMod 121666 (fieldOrder - 2) fieldOrder % fieldOrder

def denominator (y : ℕ) : ℤ := (coefficient * ((y * y : ℤ) % fieldOrder) + 1) % fieldOrder

/-- The square of the other coordinate. -/
def xSquared (y : ℕ) : ℤ :=
  ((y * y : ℤ) % fieldOrder - 1) * powMod (denominator y) (fieldOrder - 2) fieldOrder % fieldOrder

theorem cast_coefficient : (coefficient : Field) = curveD := by
  rw [coefficient, ZMod.intCast_mod, Int.cast_mul, cast_powMod,
    Root.pow_card_sub_two _ (by decide), curveD, div_eq_mul_inv]
  norm_num

theorem cast_denominator (y : ℕ) : (denominator y : Field) = curveD * (y : Field) ^ 2 + 1 := by
  rw [denominator, ZMod.intCast_mod, Int.cast_add, Int.cast_mul, ZMod.intCast_mod, Int.cast_mul,
    Int.cast_natCast, Int.cast_one, cast_coefficient, sq]

theorem cast_xSquared (y : ℕ) :
    (xSquared y : Field) = ((y : Field) ^ 2 - 1) / (curveD * (y : Field) ^ 2 + 1) := by
  rw [xSquared, ZMod.intCast_mod, Int.cast_mul, cast_powMod, cast_denominator,
    Root.pow_card_sub_two _ (by decide), Int.cast_sub, ZMod.intCast_mod, Int.cast_mul,
    Int.cast_natCast, Int.cast_one, ← sq, div_eq_mul_inv]

theorem xSquared_emod (y : ℕ) : xSquared y % fieldOrder = xSquared y := Int.emod_emod _ _

/-- The test is that the computed root is one, with the two rejections before it and the one
after. -/
theorem isEd25519Point_eq (k : Bytes32) : isEd25519Point k.bytes =
    if coordinate k ≥ fieldOrder then false
    else if denominator (coordinate k) = 0 then false
    else if root (xSquared (coordinate k)) * root (xSquared (coordinate k)) % fieldOrder ≠
        xSquared (coordinate k) then false
    else !(root (xSquared (coordinate k)) == 0 && sign k == 1) := by
  rw [isEd25519Point, if_neg (not_not.mpr k.length_eq)]
  rfl

/-- A coordinate within the field has the square `1` at its two ends only. -/
theorem sq_sub_one_eq_zero {y : ℕ} (hy : y < fieldOrder) :
    (y : Field) ^ 2 - 1 = 0 ↔ y = 1 ∨ y = fieldOrder - 1 := by
  have hone : (1 : ℕ) % fieldOrder = 1 := by decide
  have hlast : (fieldOrder - 1) % fieldOrder = fieldOrder - 1 := by decide
  have hneg : ((fieldOrder - 1 : ℕ) : Field) = -1 := by
    rw [Nat.cast_sub (by decide), ZMod.natCast_self, zero_sub, Nat.cast_one]
  rw [sub_eq_zero, sq, mul_self_eq_one_iff, ← hneg, ← Nat.cast_one (R := Field),
    ZMod.natCast_eq_natCast_iff', ZMod.natCast_eq_natCast_iff', Nat.mod_eq_of_lt hy, hone, hlast]

theorem xSquared_eq_zero {y : ℕ} (hy : y < fieldOrder) :
    xSquared y = 0 ↔ y = 1 ∨ y = fieldOrder - 1 := by
  have hzero := emod_eq_iff (a := 0) (xSquared_emod y)
  rw [Int.zero_emod, Int.cast_zero, cast_xSquared] at hzero
  rw [eq_comm, hzero, eq_comm, div_eq_zero_iff, or_iff_left (denominator_ne_zero _),
    sq_sub_one_eq_zero hy]

/-- Within the field, the test differs from the platform's in the sign of zero only. -/
theorem isEd25519Point_canonical {k : Bytes32} (hy : coordinate k < fieldOrder) :
    isEd25519Point k.bytes ↔ OnCurve k ∧
      ¬ ((coordinate k = 1 ∨ coordinate k = fieldOrder - 1) ∧ sign k = 1) := by
  have hden : denominator (coordinate k) ≠ 0 := by
    intro h
    have hcast := cast_denominator (coordinate k)
    rw [h, Int.cast_zero] at hcast
    exact denominator_ne_zero _ hcast.symm
  have hsquare : root (xSquared (coordinate k)) * root (xSquared (coordinate k)) % fieldOrder =
      xSquared (coordinate k) ↔ OnCurve k := by
    rw [root_mul_root (xSquared_emod _), cast_xSquared, OnCurve]
  rw [isEd25519Point_eq, if_neg (not_le.mpr hy), if_neg hden]
  split
  next hne =>
    rw [Ne, hsquare] at hne
    simp [hne]
  next heq =>
    rw [not_not] at heq
    rw [Bool.not_eq_true', Bool.and_eq_false_imp, beq_iff_eq, root_eq_zero (xSquared_emod _) heq,
      xSquared_eq_zero hy, and_iff_right (hsquare.mp heq), not_and, beq_eq_false_iff_ne]

/-! ## Where the two agree -/

/-- An encoding that the platform reads as no other does: neither the coordinate of a point past the
field, nor the negative sign of a zero. -/
def Plain (k : Bytes32) : Prop :=
  ¬ (fieldOrder ≤ coordinate k ∧ coordinate k - fieldOrder ∈ wrapped) ∧
    ¬ ((coordinate k = 1 ∨ coordinate k = fieldOrder - 1) ∧ sign k = 1)

instance : DecidablePred Plain := fun _ ↦ inferInstanceAs (Decidable (_ ∧ _))

/-- A coordinate past the field names the residue of a small number. -/
theorem onCurve_wrapped {k : Bytes32} (hy : fieldOrder ≤ coordinate k) :
    OnCurve k ↔ coordinate k - fieldOrder ∈ wrapped := by
  have hlt : coordinate k < 2 ^ 255 := Nat.mod_lt _ (by decide)
  have hcast : (coordinate k : Field) = ((coordinate k - fieldOrder : ℕ) : Field) := by
    rw [Nat.cast_sub hy, ZMod.natCast_self, sub_zero]
  rw [OnCurve, hcast]
  refine isSquare_ratio_small ?_
  unfold fieldOrder at hy ⊢
  omega

/-- A zero has a sign on the curve all the same. -/
theorem onCurve_ends {k : Bytes32} (hy : coordinate k < fieldOrder)
    (h : coordinate k = 1 ∨ coordinate k = fieldOrder - 1) : OnCurve k := by
  rw [OnCurve, (sq_sub_one_eq_zero hy).mpr h, zero_div]
  exact IsSquare.zero

theorem isEd25519Point_agrees (k : Bytes32) : (isEd25519Point k.bytes ↔ OnCurve k) ↔ Plain k := by
  by_cases hy : coordinate k < fieldOrder
  · rw [isEd25519Point_canonical hy, Plain, and_iff_right fun h ↦ absurd hy (not_lt.mpr h.1),
      and_iff_left_iff_imp]
    exact ⟨fun h hends ↦ h (onCurve_ends hy hends.1) hends, fun h _ ↦ h⟩
  · have hle := not_lt.mp hy
    have hreject : isEd25519Point k.bytes = false := by rw [isEd25519Point_eq, if_pos hle]
    have hends : ¬ ((coordinate k = 1 ∨ coordinate k = fieldOrder - 1) ∧ sign k = 1) := by
      rintro ⟨h | h, -⟩
      · exact absurd (hle.trans_eq h) (by decide)
      · exact absurd (hle.trans_eq h) (by decide)
    rw [hreject, onCurve_wrapped hle, Plain, and_iff_left hends, and_iff_right hle]
    simp

theorem OnCurve.of_isEd25519Point {k : Bytes32} (h : isEd25519Point k.bytes) : OnCurve k := by
  by_cases hy : coordinate k < fieldOrder
  · exact ((isEd25519Point_canonical hy).mp h).1
  · rw [isEd25519Point_eq, if_pos (not_lt.mp hy)] at h
    exact absurd h (by simp)

/-- What is documented about the addresses that the platform finds: the seeds leave room for the
bump, and the bump is the highest whose hash is not on the curve. -/
structure Searches (sha256 : Bytes → Bytes32)
    (find : List Bytes → Pubkey → Option (Pubkey × UInt8)) : Prop where
  count : ∀ {seeds program key bump}, find seeds program = some (key, bump) → seeds.length < 16
  width : ∀ {seeds program key bump}, find seeds program = some (key, bump) →
    ∀ seed ∈ seeds, seed.length ≤ 32
  hash : ∀ {seeds program key bump}, find seeds program = some (key, bump) →
    candidate sha256 seeds bump program.bytes = key
  off : ∀ {seeds program key bump}, find seeds program = some (key, bump) → ¬ OnCurve key
  highest : ∀ {seeds program key bump}, find seeds program = some (key, bump) →
    ∀ c, bump < c → OnCurve (candidate sha256 seeds c program.bytes)

section Search

variable {sha256 : Bytes → Bytes32} {seeds : List Bytes} {program key : Pubkey} {bump : UInt8}

/-- The search of the verifier ends at the highest bump that its own test rejects. -/
theorem findProgramAddress_eq_ok (hcount : seeds.length < 16)
    (hwidth : ∀ seed ∈ seeds, seed.length ≤ 32)
    (hkey : candidate sha256 seeds bump program.bytes = key) :
    findProgramAddress sha256 seeds program.bytes = .ok (key.bytes, bump.toNat) ↔
      isEd25519Point key.bytes = false ∧
        ∀ c, bump < c → isEd25519Point (candidate sha256 seeds c program.bytes).bytes := by
  have hseeds : ¬ (seeds.length ≥ 16 ∨ ∃ seed ∈ seeds, seed.length > 32) := by
    rintro (hge | ⟨seed, hseed, hlong⟩)
    · omega
    · exact absurd (hwidth seed hseed) (by omega)
  simp only [findProgramAddress, bind_eq_ok, require_eq_ok, okOr_eq_ok, pure_eq_ok, exists_const]
  constructor
  · rintro ⟨-, -, b, hfind, hpair⟩
    have hnat : (b.toNat : ℤ) = bump.toNat := congrArg Prod.snd hpair
    have hb : b = bump := UInt8.toNat_inj.mp (Int.ofNat_inj.mp hnat)
    rw [hb] at hfind
    refine ⟨?_, fun c hc ↦ ?_⟩
    · simpa [hkey] using List.find?_some hfind
    · simpa using not_of_find?_bumps hfind hc
  · rintro ⟨hoff, hhigh⟩
    refine ⟨program.length_eq, hseeds, bump, ?_, by rw [hkey]⟩
    exact find?_bumps (by simp [hkey, hoff]) fun c hc ↦ by simp [hhigh c hc]

variable {find : List Bytes → Pubkey → Option (Pubkey × UInt8)}

/-- The two searches end at the same bump when all hashes above it are plain. -/
theorem Searches.find_iff (h : Searches sha256 find) (hfind : find seeds program = some (key, bump)) :
    findProgramAddress sha256 seeds program.bytes = .ok (key.bytes, bump.toNat) ↔
      ∀ c, bump < c → Plain (candidate sha256 seeds c program.bytes) := by
  rw [findProgramAddress_eq_ok (h.count hfind) (h.width hfind) (h.hash hfind)]
  have hoff : isEd25519Point key.bytes = false :=
    Bool.eq_false_iff.mpr fun hpoint ↦ h.off hfind (.of_isEd25519Point hpoint)
  rw [and_iff_right hoff]
  refine forall₂_congr fun c hc ↦ ?_
  rw [← isEd25519Point_agrees, iff_true_right (h.highest hfind c hc)]

/-- The test agrees with the platform's on the plain encodings, and the search on the seeds whose
hashes above the bump are plain. -/
theorem curveTest_exact (h : Searches sha256 find) :
    (∀ k : Bytes32, (isEd25519Point k.bytes ↔ OnCurve k) ↔ Plain k) ∧
      ∀ seeds program key bump, find seeds program = some (key, bump) →
        (findProgramAddress sha256 seeds program.bytes = .ok (key.bytes, bump.toNat) ↔
          ∀ c, bump < c → Plain (candidate sha256 seeds c program.bytes)) :=
  ⟨isEd25519Point_agrees, fun _ _ _ _ hfind ↦ h.find_iff hfind⟩

end Search

/-! ## Platforms -/

section Platforms

variable {chain : Chain} {seeds : List Bytes} {program : Pubkey}

/-- The search of a platform, for the seeds that it takes. -/
def searchOf (chain : Chain) (seeds : List Bytes) (program : Pubkey) : Option (Pubkey × UInt8) :=
  if Takes seeds then some (chain.findProgramAddress seeds program) else none

theorem searchOf_eq_some {key : Pubkey} {bump : UInt8} :
    searchOf chain seeds program = some (key, bump) ↔
      Takes seeds ∧ chain.findProgramAddress seeds program = (key, bump) := by
  rw [searchOf, Option.ite_none_right_eq_some, Option.some.injEq]

/-- All hashes above the bump that is found are plain. -/
def PlainAbove (chain : Chain) (seeds : List Bytes) (program : Pubkey) : Prop :=
  ∀ c, (chain.findProgramAddress seeds program).2 < c →
    Plain (candidate chain.sha256 seeds c program.bytes)

/-- Of a platform that searches as documented, the verifier finds the address exactly if the hashes
above it are plain. -/
theorem Searches.shares_iff (h : Searches chain.sha256 (searchOf chain)) (htakes : Takes seeds) :
    Shares chain seeds program ↔ PlainAbove chain seeds program :=
  h.find_iff (if_pos htakes)

/-- When all hashes are plain, the derivation is shared. -/
theorem Derives.of_plain (h : Searches chain.sha256 (searchOf chain))
    (hplain : ∀ data, Plain (chain.sha256 data)) : Derives chain :=
  ⟨fun htakes ↦ (h.shares_iff htakes).mpr fun _ _ ↦ hplain _⟩

/-- The points of a search are points and its key is none, for the platform and the verifier. -/
def genuine (s : Anchor.Search) : Bool :=
  s.points.all (fun k ↦ isEd25519Point k.bytes && decide (Plain k)) &&
    !isEd25519Point s.key.bytes && decide (Plain s.key)

variable {searches : List Anchor.Search} {digests : List (Bytes × Bytes32)}

theorem genuine_eq_true {s : Anchor.Search} (h : genuine s = true) :
    (∀ k ∈ s.points, OnCurve k ∧ Plain k) ∧ ¬ OnCurve s.key ∧ Plain s.key := by
  simp only [genuine, Bool.and_eq_true, List.all_eq_true, decide_eq_true_eq, Bool.not_eq_true'] at h
  obtain ⟨⟨hpoints, hkey⟩, hplain⟩ := h
  refine ⟨fun k hk ↦ ?_, fun hon ↦ ?_, hplain⟩
  · exact ⟨.of_isEd25519Point (hpoints k hk).1, (hpoints k hk).2⟩
  · rw [← (isEd25519Point_agrees _).mpr hplain, hkey] at hon
    exact absurd hon (by simp)

theorem unlisted_genuine : genuine ⟨[], Bytes32.zero, [], Anchor.unlisted⟩ = true := by
  decide +kernel

/-- A platform whose tables are those of searches searches as documented. -/
theorem searches_searchChain (h : Anchor.Tabled searches digests)
    (hgenuine : ∀ s ∈ searches, genuine s = true) :
    Searches (Anchor.searchChain searches digests).sha256
      (searchOf (Anchor.searchChain searches digests)) := by
  refine {
    count := fun hfind ↦ (searchOf_eq_some.mp hfind).1.1
    width := fun hfind ↦ (searchOf_eq_some.mp hfind).1.2
    hash := fun hfind ↦ (h.found _ _ (searchOf_eq_some.mp hfind).2).2.1
    off := fun hfind ↦ ?_
    highest := fun hfind c hc ↦ ?_ }
  · rcases List.mem_cons.mp (h.found _ _ (searchOf_eq_some.mp hfind).2).1 with rfl | hmem
    · exact (genuine_eq_true unlisted_genuine).2.1
    · obtain ⟨s, hs, rfl⟩ := List.mem_map.mp hmem
      exact (genuine_eq_true (hgenuine s hs)).2.1
  · obtain ⟨s, hs, hmem⟩ := (h.found _ _ (searchOf_eq_some.mp hfind).2).2.2 c hc
    exact ((genuine_eq_true (hgenuine s hs)).1 _ hmem).1

/-- And it shares its derivation with the verifier. -/
theorem derives_searchChain (h : Anchor.Tabled searches digests)
    (hgenuine : ∀ s ∈ searches, genuine s = true) (hdigests : ∀ e ∈ digests, Plain e.2) :
    Derives (Anchor.searchChain searches digests) := by
  refine .of_plain (searches_searchChain h hgenuine) fun data ↦ ?_
  change Plain (Anchor.tableHash _ data)
  rcases List.mem_cons.mp
    (Anchor.tableHash_mem (searches.flatMap Anchor.Search.hashes ++ digests) data) with heq | hmem
  · rw [heq]
    exact (genuine_eq_true unlisted_genuine).2.2
  · obtain ⟨e, he, heq⟩ := List.mem_map.mp hmem
    rw [← heq]
    rcases List.mem_append.mp he with he | he
    · obtain ⟨s, hs, he⟩ := List.mem_flatMap.mp he
      obtain ⟨i, hi, -⟩ := Anchor.Search.mem_hashes.mp he
      rcases List.mem_append.mp (List.mem_of_getElem? hi) with hpoint | hkey
      · exact ((genuine_eq_true (hgenuine s hs)).1 _ hpoint).2
      · rw [List.mem_singleton.mp hkey]
        exact (genuine_eq_true (hgenuine s hs)).2.2
    · exact hdigests e he

end Platforms

/-! ## Encodings that tell the tests apart -/

namespace Sample

open Anchor

/-- The coordinate `1` with the negative sign of its zero. -/
def negativeZero : Bytes32 := ⟨1 :: (List.replicate 30 0 ++ [128]), rfl⟩

/-- The order of the field, in place of zero. -/
def pastField : Bytes32 := ⟨237 :: (List.replicate 30 255 ++ [127]), rfl⟩

/-- The program that holds the code of programs. -/
def loader : Pubkey := spelled 0x02a8f6914e88a1b0e210153ef763ae2b00c2b93d16c124d2c0537a1004800000

def program : Pubkey := repeated 1

/-- The search for the account with the code of a program: two hashes are points. -/
def codeSearch : Search where
  seeds := program.bytes
  program := loader
  points := [
    spelled 0x6bf4d31f2514193d5b50586b26153aca0e6db877657cf70bd0df1f87ab459626,
    spelled 0x22352b16ade8e21bd3c61a59996128ac23cce05215293ebd42df6a460ef0c904]
  key := spelled 0x17d6300b8533ab530e11fa088817faa8d7d90e2cca9b8b615710a222de76e8b1

theorem codeSearch_tabled : Tabled [codeSearch] [] :=
  ⟨by decide +kernel, by simp, by decide +kernel⟩

theorem codeSearch_genuine : ∀ s ∈ [codeSearch], genuine s = true := by decide +kernel

end Sample

/-- The verifier passes over the two points and finds what the platform finds. -/
theorem curveTest_sample :
    findProgramAddress (Anchor.searchChain [Sample.codeSearch] []).sha256 [Sample.program.bytes]
      Sample.loader.bytes = .ok (Sample.codeSearch.key.bytes, 253) := by
  have hsearches := searches_searchChain Sample.codeSearch_tabled Sample.codeSearch_genuine
  have hfound : (Anchor.searchChain [Sample.codeSearch] []).findProgramAddress
      [Sample.program.bytes] Sample.loader = (Sample.codeSearch.key, 253) := by decide +kernel
  have htakes : Takes [Sample.program.bytes] := by decide
  have hfind := searchOf_eq_some.mpr ⟨htakes, hfound⟩
  refine ((curveTest_exact hsearches).2 _ _ _ _ hfind).mpr fun c hc ↦ ?_
  obtain ⟨s, hs, hpoint⟩ := (Sample.codeSearch_tabled.found _ _ hfound).2.2 c hc
  exact ((genuine_eq_true (Sample.codeSearch_genuine s hs)).1 _ hpoint).2

theorem curveTest_differs :
    ¬ (isEd25519Point Sample.negativeZero.bytes ↔ OnCurve Sample.negativeZero) ∧
      ¬ (isEd25519Point Sample.pastField.bytes ↔ OnCurve Sample.pastField) := by
  rw [isEd25519Point_agrees, isEd25519Point_agrees]
  decide

end FundingVaults.Verifier
