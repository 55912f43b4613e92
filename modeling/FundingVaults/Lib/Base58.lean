import FundingVaults.Lib.Text
import Mathlib.Data.Nat.Size

/-!
# Base 58 is a bijection

Every text over the alphabet is the encoding of the bytes that it denotes, so bytes have one text
only.  A text splits into its leading ones and digits that do not start with a zero, bytes into
their leading zeros and the shortest bytes of a number.
-/

namespace FundingVaults

/-! ## Numbers in a notation -/

namespace Alphabet

variable (A : Alphabet) {cs : List Char} {n m : ℕ}

theorem exists_digits (h : cs.foldlM
    (fun n c ↦ (A.value? c).map fun d ↦ n * A.digits.length + d) m = some n) :
    ∃ ds : List ℕ, (∀ d ∈ ds, d < A.digits.length) ∧ cs = ds.map A.digit := by
  induction cs generalizing m with
  | nil => exact ⟨[], by simp, rfl⟩
  | cons c cs ih =>
    rw [List.foldlM_cons, Option.bind_eq_bind, Option.bind_eq_some_iff] at h
    obtain ⟨m', hm', h⟩ := h
    obtain ⟨d, hd, -⟩ := Option.map_eq_some_iff.mp hm'
    obtain ⟨hlt, rfl⟩ := (value?_eq_some A).mp hd
    obtain ⟨ds, hds, rfl⟩ := ih h
    refine ⟨d :: ds, fun x hx ↦ ?_, rfl⟩
    rcases List.mem_cons.mp hx with rfl | hx
    · exact hlt
    · exact hds x hx

/-- A text is a number when it is the digits of one, least significant last. -/
theorem number?_eq_some : A.number? cs = some n ↔ ∃ ds : List ℕ,
    (∀ d ∈ ds, d < A.digits.length) ∧ cs = ds.reverse.map A.digit ∧
      n = Nat.ofDigits A.digits.length ds := by
  constructor
  · intro h
    obtain ⟨ds, hds, rfl⟩ := exists_digits A h
    have hrev : ∀ d ∈ ds.reverse, d < A.digits.length := fun d hd ↦ hds d (List.mem_reverse.mp hd)
    refine ⟨ds.reverse, hrev, by rw [List.reverse_reverse], ?_⟩
    have hnumber := number?_digits A hrev
    rw [List.reverse_reverse, h] at hnumber
    exact Option.some.inj hnumber
  · rintro ⟨ds, hds, rfl, rfl⟩
    exact number?_digits A hds

/-- Every text over the alphabet is a number. -/
theorem number?_isSome : (A.number? cs).isSome ↔ ∀ c ∈ cs, c ∈ A.digits := by
  rw [Option.isSome_iff_exists]
  constructor
  · rintro ⟨n, h⟩ c hc
    obtain ⟨ds, hds, rfl, -⟩ := (number?_eq_some A).mp h
    obtain ⟨d, hd, rfl⟩ := List.mem_map.mp hc
    rw [digit_eq A (hds d (List.mem_reverse.mp hd))]
    exact List.getElem_mem _
  · intro h
    have hsome : ∀ m, ∃ n, cs.foldlM
        (fun n c ↦ (A.value? c).map fun d ↦ n * A.digits.length + d) m = some n := by
      induction cs with
      | nil => exact fun m ↦ ⟨m, rfl⟩
      | cons c cs ih =>
        intro m
        obtain ⟨i, hi, hc⟩ := List.getElem_of_mem (h c List.mem_cons_self)
        have hd : A.value? c = some i := by
          rw [value?_eq_some, digit_eq A hi]
          exact ⟨hi, hc⟩
        rw [List.foldlM_cons, hd]
        exact ih (fun c' hc' ↦ h c' (List.mem_cons_of_mem c hc')) _
    exact hsome 0

end Alphabet

/-! ## The shortest bytes of a number -/

/-- A number of bytes, most significant first. -/
def beFixed (count n : ℕ) : Bytes := (leBytes count n).reverse

theorem leBytes_eq_digits {count n : ℕ} (h : (Nat.digits 256 n).length = count) :
    leBytes count n = (Nat.digits 256 n).map UInt8.ofNat := by
  induction count generalizing n with
  | zero => rw [List.eq_nil_of_length_eq_zero h]; rfl
  | succ count ih =>
    have hn : n ≠ 0 := by
      rintro rfl
      simp at h
    rw [Nat.digits_def' (by decide) (Nat.pos_of_ne_zero hn)] at h ⊢
    rw [leBytes, List.map_cons, ih (by simpa using h)]

/-- The bytes that hold the bits of a number are its digits. -/
theorem length_digits_256 (n : ℕ) : (Nat.digits 256 n).length = (n.size + 7) / 8 := by
  refine le_antisymm ?_ ?_
  · rw [Nat.digits_length_le_iff (by decide)]
    have hsize := Nat.lt_size_self n
    calc n < 2 ^ n.size := hsize
      _ ≤ 2 ^ (8 * ((n.size + 7) / 8)) := Nat.pow_le_pow_right (by decide) (by omega)
      _ = 256 ^ ((n.size + 7) / 8) := by rw [Nat.pow_mul]
  · have hlt : n < 256 ^ (Nat.digits 256 n).length := Nat.lt_base_pow_length_digits (by decide)
    have hsize : n.size ≤ 8 * (Nat.digits 256 n).length := by
      rw [Nat.size_le, Nat.pow_mul]
      exact hlt
    omega

theorem beFixed_size (n : ℕ) : beFixed ((n.size + 7) / 8) n = beBytes n := by
  rw [beFixed, leBytes_eq_digits (length_digits_256 n), beBytes, List.map_reverse]

theorem beNat_beBytes (n : ℕ) : beNat (beBytes n) = n := by
  have hdigits : (Nat.digits 256 n).map (UInt8.toNat ∘ UInt8.ofNat) = Nat.digits 256 n := by
    refine (List.map_congr_left fun d hd ↦ ?_).trans (List.map_id _)
    have hlt : d < 256 := Nat.digits_lt_base (by decide) hd
    rw [Function.comp_apply, UInt8.toNat_ofNat', Nat.mod_eq_of_lt hlt, id]
  rw [beNat, beBytes, ← List.map_reverse, List.reverse_reverse, List.map_map, hdigits,
    Nat.ofDigits_digits]

/-- They do not start with a zero. -/
theorem takeWhile_beBytes (n : ℕ) : (beBytes n).takeWhile (· == 0) = [] := by
  have hdrop := beBytes_beNat (beBytes n)
  rw [beNat_beBytes] at hdrop
  have hsplit := List.takeWhile_append_dropWhile (p := (· == 0)) (l := beBytes n)
  rw [← hdrop] at hsplit
  exact List.append_left_eq_self.mp hsplit

/-! ## Texts -/

/-- A text that does not start with a one is the digits of its number. -/
theorem digits_of_number? {cs : List Char} {n : ℕ} (h : base58Alphabet.number? cs = some n)
    (hhead : ∀ hne : cs ≠ [], cs.head hne ≠ '1') :
    (Nat.digits 58 n).reverse.map base58Alphabet.digit = cs := by
  obtain ⟨ds, hds, rfl, rfl⟩ := (Alphabet.number?_eq_some base58Alphabet).mp h
  rw [base58_length] at hds ⊢
  rw [Nat.digits_ofDigits 58 (by decide) ds hds]
  intro hne hzero
  refine hhead (by simpa using hne) ?_
  rw [List.head_map, List.head_reverse, hzero]
  rfl

theorem takeWhile_ones (cs : List Char) :
    cs.takeWhile (· == '1') = List.replicate (cs.takeWhile (· == '1')).length '1' := by
  refine List.eq_replicate_iff.mpr ⟨rfl, fun c hc ↦ ?_⟩
  have hc' := List.mem_takeWhile_imp hc
  exact beq_iff_eq.mp hc'

/-- A text is the encoding of what it denotes. -/
theorem base58Encode_decode {s : String} {bs : Bytes} (h : base58Decode? s = some bs) :
    base58Encode bs = s := by
  rw [base58Decode?] at h
  split at h
  · exact absurd h (by simp)
  obtain ⟨n, hn, rfl⟩ := Option.map_eq_some_iff.mp h
  have hsplit := List.takeWhile_append_dropWhile (p := (· == '1')) (l := s.toList)
  rw [takeWhile_ones] at hsplit
  generalize (s.toList.takeWhile (· == '1')).length = z at hsplit ⊢
  generalize hrest : s.toList.dropWhile (· == '1') = rest at hsplit
  have hhead : ∀ hne : rest ≠ [], rest.head hne ≠ '1' := by
    subst hrest
    intro hne
    simpa using List.head_dropWhile_not (fun c : Char ↦ c == '1') hne
  have hzeros : (List.replicate z (0 : UInt8) ++ beBytes n).takeWhile (· == 0) =
      List.replicate z 0 := by
    rw [List.takeWhile_append_of_pos (by simp), takeWhile_beBytes, List.append_nil]
  have hnumber : beNat (List.replicate z (0 : UInt8) ++ beBytes n) = n := by
    rw [← beNat_dropWhile, List.dropWhile_append_of_pos (by simp), beNat_dropWhile, beNat_beBytes]
  rw [← hsplit, number?_ones] at hn
  rw [base58Encode, hzeros, hnumber, List.length_replicate, digits_of_number? hn hhead, hsplit,
    String.ofList_toList]

/-- What is a text over the alphabet denotes bytes. -/
theorem exists_base58Decode? {s : String} :
    (∃ bs, base58Decode? s = some bs) ↔ s ≠ "" ∧ ∀ c ∈ s.toList, c ∈ base58Digits := by
  have hempty : s.toList = [] ↔ s = "" := String.toList_eq_nil_iff
  rw [base58Decode?]
  split
  · next h => simp [hempty.mp h]
  · next h =>
    rw [← Option.isSome_iff_exists, Option.isSome_map, Alphabet.number?_isSome]
    exact (and_iff_right (mt hempty.mpr h)).symm

end FundingVaults
