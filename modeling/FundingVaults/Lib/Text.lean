import FundingVaults.Lib.Codec
import Mathlib.Data.List.TakeWhile
import Mathlib.Data.Nat.Digits.Lemmas

/-!
# Bytes as text

Hexadecimal, base 58 and base 64.  All are written over an alphabet whose characters are distinct,
so that a digit can be read back; a leading zero byte is a leading `1` in base 58.
-/

namespace FundingVaults

/-! ## Alphabets -/

/-- The digits of a notation. -/
structure Alphabet where
  digits : List Char
  nodup : digits.Nodup

namespace Alphabet

variable (A : Alphabet) {i j : ℕ} {c : Char}

def digit (i : ℕ) : Char := A.digits.getD i ' '

def value? (c : Char) : Option ℕ := A.digits.findIdx? (· == c)

theorem digit_eq (h : i < A.digits.length) : A.digit i = A.digits[i] := by
  simp [digit, h]

theorem value?_digit (h : i < A.digits.length) : A.value? (A.digit i) = some i := by
  rw [digit_eq A h, value?, List.findIdx?_eq_some_iff_getElem]
  refine ⟨h, beq_self_eq_true _, fun j hj ↦ ?_⟩
  have hne : A.digits[j] ≠ A.digits[i] := fun heq ↦
    hj.ne ((A.nodup.getElem_inj_iff).mp heq)
  simpa using hne

theorem value?_eq_some : A.value? c = some i ↔ i < A.digits.length ∧ A.digit i = c := by
  constructor
  · intro h
    obtain ⟨hi, hc, -⟩ := List.findIdx?_eq_some_iff_getElem.mp h
    exact ⟨hi, (digit_eq A hi).trans (beq_iff_eq.mp hc)⟩
  · rintro ⟨hi, rfl⟩
    exact value?_digit A hi

theorem digit_inj (hi : i < A.digits.length) (hj : j < A.digits.length) :
    A.digit i = A.digit j ↔ i = j := by
  constructor
  · intro h
    have hv := value?_digit A hi
    rw [h, value?_digit A hj] at hv
    exact (Option.some.inj hv).symm
  · rintro rfl
    rfl

/-- The value of the digits, most significant first, `none` when one is no digit. -/
def number? (cs : List Char) : Option ℕ :=
  cs.foldlM (fun n c ↦ (A.value? c).map fun d ↦ n * A.digits.length + d) 0

theorem foldlM_digits {ds : List ℕ} (h : ∀ d ∈ ds, d < A.digits.length) (n : ℕ) :
    (ds.map A.digit).foldlM
      (fun n c ↦ (A.value? c).map fun d ↦ n * A.digits.length + d) n =
      some (ds.foldl (fun n d ↦ n * A.digits.length + d) n) := by
  induction ds generalizing n with
  | nil => rfl
  | cons d ds ih =>
    have hd := value?_digit A (h d List.mem_cons_self)
    simp only [List.map_cons, List.foldlM_cons, hd, Option.map_some, List.foldl_cons,
      Option.bind_eq_bind, Option.bind_some]
    exact ih (fun d' hd' ↦ h d' (List.mem_cons_of_mem _ hd')) _

/-- Digits, least significant first, are read backwards. -/
theorem number?_digits {ds : List ℕ} (h : ∀ d ∈ ds, d < A.digits.length) :
    A.number? (ds.reverse.map A.digit) = some (Nat.ofDigits A.digits.length ds) := by
  unfold number?
  rw [foldlM_digits A (fun d hd ↦ h d (List.mem_reverse.mp hd)), List.foldl_reverse,
    Nat.ofDigits_eq_foldr]
  congr 2
  funext x y
  simp only [Nat.cast_id]
  ring

end Alphabet

/-! ## Hexadecimal -/

def hexDigits : List Char := "0123456789abcdef".toList

theorem hexDigits_nodup : hexDigits.Nodup := by decide

def hexAlphabet : Alphabet := ⟨hexDigits, hexDigits_nodup⟩

def hexPair (b : UInt8) : List Char :=
  [hexAlphabet.digit (b.toNat / 16), hexAlphabet.digit (b.toNat % 16)]

def hexEncode (bs : Bytes) : String := String.ofList (bs.flatMap hexPair)

def hexBytes? : List Char → Option Bytes
  | [] => some []
  | [_] => none
  | a :: b :: cs => do
    let high ← hexAlphabet.value? a
    let low ← hexAlphabet.value? b
    let bs ← hexBytes? cs
    some (UInt8.ofNat (16 * high + low) :: bs)

/-- The bytes of lower-case digits. -/
def hexDecode? (s : String) : Option Bytes := hexBytes? s.toList

theorem hexBytes?_eq_some {cs : List Char} {bs : Bytes} :
    hexBytes? cs = some bs ↔ cs = bs.flatMap hexPair := by
  constructor
  · intro h
    induction cs using hexBytes?.induct generalizing bs with
    | case1 =>
      obtain rfl := Option.some.inj h
      rfl
    | case2 c => exact absurd h (by simp [hexBytes?])
    | case3 a b cs ih =>
      simp only [hexBytes?, Option.bind_eq_bind, Option.bind_eq_some_iff, Option.some.injEq,
        Alphabet.value?_eq_some] at h
      obtain ⟨high, ⟨hh, rfl⟩, low, ⟨hl, rfl⟩, bs', hbs, rfl⟩ := h
      have hh' : high < 16 := hh
      have hl' : low < 16 := hl
      have hbyte : (UInt8.ofNat (16 * high + low)).toNat = 16 * high + low := by
        rw [UInt8.toNat_ofNat', Nat.mod_eq_of_lt (by omega)]
      have hdiv : (16 * high + low) / 16 = high := by omega
      have hmod : (16 * high + low) % 16 = low := by omega
      rw [List.flatMap_cons, hexPair, hbyte, hdiv, hmod, ← ih hbs]
      rfl
  · rintro rfl
    induction bs with
    | nil => rfl
    | cons b bs ih =>
      have hb := b.toNat_lt
      have high : hexAlphabet.value? (hexAlphabet.digit (b.toNat / 16)) = some (b.toNat / 16) :=
        Alphabet.value?_digit _ (show b.toNat / 16 < 16 by omega)
      have low : hexAlphabet.value? (hexAlphabet.digit (b.toNat % 16)) = some (b.toNat % 16) :=
        Alphabet.value?_digit _ (show b.toNat % 16 < 16 by omega)
      have hbyte : 16 * (b.toNat / 16) + b.toNat % 16 = b.toNat := by omega
      simp only [List.flatMap_cons, hexPair, List.cons_append, List.nil_append, hexBytes?, high,
        low, ih, hbyte, Option.bind_eq_bind, Option.bind_some, UInt8.ofNat_toNat]

/-- A text denotes bytes when it is their encoding. -/
theorem hexDecode?_eq_some {s : String} {bs : Bytes} :
    hexDecode? s = some bs ↔ s = hexEncode bs := by
  unfold hexDecode? hexEncode
  rw [hexBytes?_eq_some]
  constructor
  · intro h
    rw [← h, String.ofList_toList]
  · rintro rfl
    rw [String.toList_ofList]

theorem hexEncode_injective : Function.Injective hexEncode := by
  intro a b h
  exact Option.some.inj ((hexDecode?_eq_some.mpr rfl).symm.trans (hexDecode?_eq_some.mpr h))

theorem hexEncode_length (bs : Bytes) : (hexEncode bs).length = 2 * bs.length := by
  rw [hexEncode, String.length_ofList]
  induction bs with
  | nil => rfl
  | cons b bs ih =>
    rw [List.flatMap_cons, List.length_append, ih, List.length_cons, hexPair]
    simp only [List.length_cons, List.length_nil]
    omega

theorem mem_hexDigits {bs : Bytes} {c : Char} (h : c ∈ (hexEncode bs).toList) : c ∈ hexDigits := by
  rw [hexEncode, String.toList_ofList, List.mem_flatMap] at h
  obtain ⟨b, -, hc⟩ := h
  have hb := b.toNat_lt
  have hdigit : ∀ i < 16, hexAlphabet.digit i ∈ hexDigits := by decide
  simp only [hexPair, List.mem_cons, List.not_mem_nil, or_false] at hc
  rcases hc with rfl | rfl
  · exact hdigit _ (by omega)
  · exact hdigit _ (by omega)

/-! ## Base 58 -/

def base58Digits : List Char :=
  "123456789ABCDEFGHJKLMNPQRSTUVWXYZabcdefghijkmnopqrstuvwxyz".toList

theorem base58Digits_nodup : base58Digits.Nodup := by decide

def base58Alphabet : Alphabet := ⟨base58Digits, base58Digits_nodup⟩

/-- The number that the bytes spell, most significant first. -/
def beNat (bs : Bytes) : ℕ := Nat.ofDigits 256 (bs.reverse.map UInt8.toNat)

/-- The bytes of a number, most significant first, without leading zeros. -/
def beBytes (n : ℕ) : Bytes := (Nat.digits 256 n).reverse.map UInt8.ofNat

def base58Encode (bs : Bytes) : String :=
  String.ofList (List.replicate (bs.takeWhile (· == 0)).length '1' ++
    (Nat.digits 58 (beNat bs)).reverse.map base58Alphabet.digit)

def base58Decode? (s : String) : Option Bytes :=
  if s.toList = [] then none
  else (base58Alphabet.number? s.toList).map fun n ↦
    List.replicate (s.toList.takeWhile (· == '1')).length 0 ++ beBytes n

theorem base58_length : base58Alphabet.digits.length = 58 := by decide

theorem takeWhile_eq_replicate (bs : Bytes) :
    bs.takeWhile (· == 0) = List.replicate (bs.takeWhile (· == 0)).length 0 := by
  refine List.eq_replicate_iff.mpr ⟨rfl, fun b hb ↦ ?_⟩
  have hb' := List.mem_takeWhile_imp hb
  exact beq_iff_eq.mp hb'

/-- Leading zeros do not count. -/
theorem beNat_dropWhile (bs : Bytes) : beNat (bs.dropWhile (· == 0)) = beNat bs := by
  conv_rhs => rw [← List.takeWhile_append_dropWhile (p := (· == 0)) (l := bs),
    takeWhile_eq_replicate bs]
  unfold beNat
  rw [List.reverse_append, List.map_append, List.reverse_replicate, List.map_replicate]
  exact (Nat.ofDigits_append_replicate_zero _).symm

theorem beBytes_beNat (bs : Bytes) : beBytes (beNat bs) = bs.dropWhile (· == 0) := by
  rw [← beNat_dropWhile]
  unfold beBytes beNat
  rw [Nat.digits_ofDigits 256 (by decide)]
  · rw [← List.map_reverse, List.reverse_reverse, List.map_map]
    have hid : UInt8.ofNat ∘ UInt8.toNat = id := by
      funext b
      exact UInt8.ofNat_toNat
    rw [hid, List.map_id]
  · intro d hd
    obtain ⟨b, -, rfl⟩ := List.mem_map.mp hd
    exact b.toNat_lt
  · intro hne
    have hne' : bs.dropWhile (· == 0) ≠ [] := by
      rintro h
      exact hne (by rw [h]; rfl)
    rw [List.getLast_map, List.getLast_reverse]
    intro hzero
    have hhead := List.head_dropWhile_not (fun b : UInt8 ↦ b == 0) hne'
    rw [UInt8.toNat_inj.mp (hzero.trans UInt8.toNat_zero.symm)] at hhead
    exact absurd hhead (by decide)

/-- The digits of a number do not start with a `1`. -/
theorem takeWhile_digits (n : ℕ) :
    ((Nat.digits 58 n).reverse.map base58Alphabet.digit).takeWhile (· == '1') = [] := by
  rcases h : (Nat.digits 58 n).reverse with - | ⟨d, ds⟩
  · rfl
  · have hmem : d ∈ Nat.digits 58 n := by
      rw [← List.mem_reverse, h]
      exact List.mem_cons_self
    have hn : n ≠ 0 := by
      rintro rfl
      exact absurd hmem (by simp)
    have hlast := Nat.getLast_digit_ne_zero 58 hn
    have hd : d ≠ 0 := by
      rw [← List.head_reverse (by simpa using Nat.digits_ne_nil_iff_ne_zero.mpr hn)] at hlast
      simpa only [h, List.head_cons] using hlast
    have hlt : d < 58 := Nat.digits_lt_base (by decide) hmem
    have hone : base58Alphabet.digit d ≠ '1' := fun heq ↦
      hd ((Alphabet.digit_inj base58Alphabet hlt (show 0 < 58 by decide)).mp heq)
    rw [List.map_cons, List.takeWhile_cons_of_neg]
    simpa using hone

theorem number?_ones (k : ℕ) (cs : List Char) :
    base58Alphabet.number? (List.replicate k '1' ++ cs) = base58Alphabet.number? cs := by
  induction k with
  | zero => rfl
  | succ k ih => exact ih

theorem number?_encode (bs : Bytes) :
    base58Alphabet.number? (base58Encode bs).toList = some (beNat bs) := by
  have hdigits : ∀ d ∈ Nat.digits 58 (beNat bs), d < base58Alphabet.digits.length := by
    intro d hd
    rw [base58_length]
    exact Nat.digits_lt_base (by decide) hd
  rw [base58Encode, String.toList_ofList, number?_ones, Alphabet.number?_digits _ hdigits,
    base58_length, Nat.ofDigits_digits]

theorem base58Decode?_encode {bs : Bytes} (h : bs ≠ []) :
    base58Decode? (base58Encode bs) = some bs := by
  have hnumber := number?_encode bs
  have hones : ((base58Encode bs).toList.takeWhile (· == '1')).length =
      (bs.takeWhile (· == 0)).length := by
    rw [base58Encode, String.toList_ofList, List.takeWhile_append, takeWhile_digits]
    simp
  have hne : (base58Encode bs).toList ≠ [] := by
    intro hnil
    rw [hnil] at hones hnumber
    have hzero : beNat bs = 0 := (Option.some.inj hnumber).symm
    have hdrop := beBytes_beNat bs
    rw [hzero] at hdrop
    have htake := List.takeWhile_append_dropWhile (p := (· == 0)) (l := bs)
    rw [← hdrop, List.eq_nil_of_length_eq_zero hones.symm] at htake
    exact h htake.symm
  rw [base58Decode?, if_neg hne, hnumber, Option.map_some, hones, beBytes_beNat,
    ← takeWhile_eq_replicate, List.takeWhile_append_dropWhile]

theorem base58Encode_inj {a b : Bytes} (ha : a ≠ []) (hb : b ≠ []) :
    base58Encode a = base58Encode b ↔ a = b := by
  constructor
  · intro h
    exact Option.some.inj
      ((base58Decode?_encode ha).symm.trans (h ▸ base58Decode?_encode hb))
  · rintro rfl
    rfl

/-! ## Base 64 -/

def base64Digits : List Char :=
  "ABCDEFGHIJKLMNOPQRSTUVWXYZabcdefghijklmnopqrstuvwxyz0123456789+/".toList

theorem base64Digits_nodup : base64Digits.Nodup := by decide

def base64Alphabet : Alphabet := ⟨base64Digits, base64Digits_nodup⟩

/-- Three bytes are four digits; a shorter end is padded. -/
def base64Chars : Bytes → List Char
  | [] => []
  | [a] => [base64Alphabet.digit (a.toNat / 4), base64Alphabet.digit (a.toNat % 4 * 16), '=', '=']
  | [a, b] => [base64Alphabet.digit (a.toNat / 4),
      base64Alphabet.digit (a.toNat % 4 * 16 + b.toNat / 16),
      base64Alphabet.digit (b.toNat % 16 * 4), '=']
  | a :: b :: c :: bs => base64Alphabet.digit (a.toNat / 4) ::
      base64Alphabet.digit (a.toNat % 4 * 16 + b.toNat / 16) ::
      base64Alphabet.digit (b.toNat % 16 * 4 + c.toNat / 64) ::
      base64Alphabet.digit (c.toNat % 64) :: base64Chars bs

def base64Encode (bs : Bytes) : String := String.ofList (base64Chars bs)

/-- The bits that a padded end leaves over are dropped. -/
def base64Bytes? : List Char → Option Bytes
  | [] => some []
  | p :: q :: r :: s :: cs =>
    if s = '=' ∧ cs = [] then
      if r = '=' then do
        let p ← base64Alphabet.value? p
        let q ← base64Alphabet.value? q
        some [UInt8.ofNat (p * 4 + q / 16)]
      else do
        let p ← base64Alphabet.value? p
        let q ← base64Alphabet.value? q
        let r ← base64Alphabet.value? r
        some [UInt8.ofNat (p * 4 + q / 16), UInt8.ofNat (q % 16 * 16 + r / 4)]
    else do
      let p ← base64Alphabet.value? p
      let q ← base64Alphabet.value? q
      let r ← base64Alphabet.value? r
      let s ← base64Alphabet.value? s
      let bs ← base64Bytes? cs
      some (UInt8.ofNat (p * 4 + q / 16) :: UInt8.ofNat (q % 16 * 16 + r / 4) ::
        UInt8.ofNat (r % 4 * 64 + s) :: bs)
  | _ => none

/-- The bytes of a text of digits, padded to a multiple of four characters. -/
def base64Decode? (s : String) : Option Bytes := base64Bytes? s.toList

/-- A digit is no padding. -/
theorem base64_digit {i : ℕ} (h : i < 64) :
    base64Alphabet.value? (base64Alphabet.digit i) = some i ∧ base64Alphabet.digit i ≠ '=' := by
  refine ⟨Alphabet.value?_digit _ h, ?_⟩
  have hall : ∀ j < 64, base64Alphabet.digit j ≠ '=' := by decide
  exact hall i h

theorem base64Bytes?_chars (bs : Bytes) : base64Bytes? (base64Chars bs) = some bs := by
  have hbyte : ∀ (n : ℕ) (b : UInt8), n = b.toNat → UInt8.ofNat n = b := by
    rintro _ b rfl
    exact UInt8.ofNat_toNat
  induction bs using base64Chars.induct with
  | case1 => rfl
  | case2 a =>
    have ha := a.toNat_lt
    obtain ⟨hp, -⟩ := base64_digit (i := a.toNat / 4) (by omega)
    obtain ⟨hq, -⟩ := base64_digit (i := a.toNat % 4 * 16) (by omega)
    rw [base64Chars, base64Bytes?, if_pos ⟨rfl, rfl⟩, if_pos rfl, hp, hq]
    simp only [Option.bind_eq_bind, Option.bind_some]
    rw [hbyte _ a (by omega)]
  | case3 a b =>
    have ha := a.toNat_lt
    have hb := b.toNat_lt
    obtain ⟨hp, -⟩ := base64_digit (i := a.toNat / 4) (by omega)
    obtain ⟨hq, -⟩ := base64_digit (i := a.toNat % 4 * 16 + b.toNat / 16) (by omega)
    obtain ⟨hr, hpad⟩ := base64_digit (i := b.toNat % 16 * 4) (by omega)
    rw [base64Chars, base64Bytes?, if_pos ⟨rfl, rfl⟩, if_neg hpad, hp, hq, hr]
    simp only [Option.bind_eq_bind, Option.bind_some]
    rw [hbyte _ a (by omega), hbyte _ b (by omega)]
  | case4 a b c bs ih =>
    have ha := a.toNat_lt
    have hb := b.toNat_lt
    have hc := c.toNat_lt
    obtain ⟨hp, -⟩ := base64_digit (i := a.toNat / 4) (by omega)
    obtain ⟨hq, -⟩ := base64_digit (i := a.toNat % 4 * 16 + b.toNat / 16) (by omega)
    obtain ⟨hr, -⟩ := base64_digit (i := b.toNat % 16 * 4 + c.toNat / 64) (by omega)
    obtain ⟨hs, hpad⟩ := base64_digit (i := c.toNat % 64) (by omega)
    rw [base64Chars, base64Bytes?, if_neg (fun h ↦ hpad h.1), hp, hq, hr, hs, ih]
    simp only [Option.bind_eq_bind, Option.bind_some]
    rw [hbyte _ a (by omega), hbyte _ b (by omega), hbyte _ c (by omega)]

theorem base64Decode?_encode (bs : Bytes) : base64Decode? (base64Encode bs) = some bs := by
  rw [base64Decode?, base64Encode, String.toList_ofList, base64Bytes?_chars]

theorem base64Encode_length (bs : Bytes) :
    (base64Encode bs).length = 4 * ((bs.length + 2) / 3) := by
  rw [base64Encode, String.length_ofList]
  induction bs using base64Chars.induct with
  | case1 => rfl
  | case2 a => simp [base64Chars]
  | case3 a b => simp [base64Chars]
  | case4 a b c bs ih =>
    simp only [base64Chars, List.length_cons, ih]
    omega

end FundingVaults
