import Mathlib.Data.List.Prime
import Mathlib.NumberTheory.LucasPrimality

/-!
# Certified primes

A number is prime when some residue has the order of the whole group of units, which takes the
prime factors of its predecessor to check.  These factors have certificates of their own, so a
certificate is a sequence of numbers, each with its residue and its factors from before.
-/

namespace FundingVaults.Pratt

/-- `a ^ e` modulo `m`, by squaring, for an exponent of at most so many bits. -/
def power (m a : ℕ) : ℕ → ℕ → ℕ
  | 0, _ => 1 % m
  | bits + 1, e =>
    let root := power m a bits (e / 2)
    if e % 2 = 0 then root * root % m else root * root % m * a % m

theorem power_eq {m a bits e : ℕ} (h : e < 2 ^ bits) : power m a bits e = a ^ e % m := by
  induction bits generalizing e with
  | zero =>
    obtain rfl : e = 0 := by simpa using h
    rfl
  | succ bits ih =>
    have hhalf : e / 2 < 2 ^ bits := by
      rw [pow_succ] at h
      omega
    have hsquare : a ^ (e / 2) % m * (a ^ (e / 2) % m) % m = a ^ (e / 2 * 2) % m := by
      rw [← Nat.mul_mod, mul_two, pow_add]
    rw [power, ih hhalf]
    split
    next heven =>
      rw [hsquare, Nat.div_mul_cancel (Nat.dvd_of_mod_eq_zero heven)]
    next hodd =>
      have he : e / 2 * 2 + 1 = e := by omega
      rw [hsquare, Nat.mod_mul_mod, ← pow_succ, he]

/-- A number, a residue, and the prime factors of the number before it, with repetition. -/
structure Step where
  prime : ℕ
  residue : ℕ
  factors : List ℕ
deriving DecidableEq, Repr

/-- The test of a number whose factors are among the known primes. -/
def Step.passes (bits : ℕ) (known : List ℕ) (s : Step) : Bool :=
  let order := s.prime - 1
  1 < s.prime && s.prime < 2 ^ bits && s.factors.prod == order &&
    power s.prime s.residue bits order == 1 &&
    s.factors.all fun q ↦ known.contains q && power s.prime s.residue bits (order / q) != 1

/-- Every number of a certificate becomes known to the ones after it. -/
def passes (bits : ℕ) : List ℕ → List Step → Bool
  | _, [] => true
  | known, s :: steps => s.passes bits known && passes bits (s.prime :: known) steps

section Soundness

variable {bits : ℕ} {known : List ℕ}

theorem cast_pow_eq_one {p a e : ℕ} (hp : 1 < p) : (a : ZMod p) ^ e = 1 ↔ a ^ e % p = 1 := by
  rw [← Nat.cast_pow, ← Nat.cast_one (R := ZMod p), ZMod.natCast_eq_natCast_iff',
    Nat.mod_eq_of_lt hp]

theorem Step.passes_prime {s : Step} (hknown : ∀ q ∈ known, q.Prime)
    (h : s.passes bits known) : s.prime.Prime := by
  simp only [Step.passes, Bool.and_eq_true, decide_eq_true_eq, beq_iff_eq, List.all_eq_true,
    List.contains_iff_mem, bne_iff_ne] at h
  obtain ⟨⟨⟨⟨hone, hbits⟩, hprod⟩, hfull⟩, hproper⟩ := h
  refine lucas_primality s.prime (s.residue : ZMod s.prime) ?_ fun q hq hdvd ↦ ?_
  · have hlt : s.prime - 1 < 2 ^ bits := by omega
    rwa [cast_pow_eq_one hone, ← power_eq hlt]
  · rw [← hprod] at hdvd
    obtain ⟨r, hr, hqr⟩ := (Prime.dvd_prod_iff hq.prime).mp hdvd
    obtain ⟨hmem, horder⟩ := hproper r hr
    obtain rfl := (Nat.prime_dvd_prime_iff_eq hq (hknown r hmem)).mp hqr
    have hlt : (s.prime - 1) / q < 2 ^ bits := (Nat.div_le_self _ _).trans_lt (by omega)
    rwa [Ne, cast_pow_eq_one hone, ← power_eq hlt]

theorem passes_prime {steps : List Step} (hknown : ∀ q ∈ known, q.Prime)
    (h : passes bits known steps) : ∀ s ∈ steps, s.prime.Prime := by
  induction steps generalizing known with
  | nil => simp
  | cons s steps ih =>
    rw [passes, Bool.and_eq_true] at h
    obtain ⟨hs, hsteps⟩ := h
    have hprime := s.passes_prime hknown hs
    refine List.forall_mem_cons.mpr ⟨hprime, ih ?_ hsteps⟩
    exact List.forall_mem_cons.mpr ⟨hprime, hknown⟩

end Soundness

end FundingVaults.Pratt
