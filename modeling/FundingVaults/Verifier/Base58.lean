import FundingVaults.Lib.Base58
import FundingVaults.Verifier.Identity

/-!
# Key texts

Transcription of the base-58 loops of the verifiers and of the local client.  Both encoders compute
the encoding of `Text`, and the decoder is its inverse, so a key has exactly one text and no check
for a canonical text refuses one that denotes a key.
-/

namespace FundingVaults

/-! ## The loops of the verifiers -/

namespace Base58

/-- `while number: number, remainder = divmod(number, 58)`. -/
def encodeLoop (number : ℕ) (encoded : List Char) : List Char :=
  if h : number = 0 then encoded
  else encodeLoop (number / 58) (base58Alphabet.digit (number % 58) :: encoded)
termination_by number
decreasing_by exact Nat.div_lt_self (Nat.pos_of_ne_zero h) (Nat.lt_of_sub_eq_succ rfl)

/-- `_base58_encode`. -/
def encode (value : Bytes) : String :=
  let number := beNat value
  let zeros := value.length - (value.dropWhile (· == 0)).length
  String.ofList (List.replicate zeros '1' ++ encodeLoop number [])

/-- `_base58_decode`. -/
def decode (value : String) : Except String Bytes := do
  require (value ≠ "") "base58 value must be a non-empty string"
  let number ← okOr (base58Alphabet.number? value.toList) "invalid base58 character"
  let payload := if number = 0 then [] else beFixed ((number.size + 7) / 8) number
  let ones := value.toList.length - (value.toList.dropWhile (· == '1')).length
  pure (List.replicate ones 0 ++ payload)

theorem encodeLoop_eq (number : ℕ) (encoded : List Char) : encodeLoop number encoded =
    (Nat.digits 58 number).reverse.map base58Alphabet.digit ++ encoded := by
  induction number using Nat.strong_induction_on generalizing encoded with
  | _ number ih =>
    rw [encodeLoop]
    split
    · next h => simp [h]
    · next h =>
      have hpos := Nat.pos_of_ne_zero h
      rw [ih _ (Nat.div_lt_self hpos (by decide)), Nat.digits_def' (by decide) hpos,
        List.reverse_cons, List.map_append, List.append_assoc]
      rfl

/-- What `strip` leaves tells how long the stripped front is. -/
theorem length_sub_dropWhile {α : Type} (p : α → Bool) (xs : List α) :
    xs.length - (xs.dropWhile p).length = (xs.takeWhile p).length := by
  have h := congrArg List.length (List.takeWhile_append_dropWhile (p := p) (l := xs))
  rw [List.length_append] at h
  omega

theorem encode_eq (value : Bytes) : encode value = base58Encode value := by
  rw [encode, base58Encode, length_sub_dropWhile, encodeLoop_eq, List.append_nil]

theorem decode_eq_ok {value : String} {bs : Bytes} :
    decode value = .ok bs ↔ base58Decode? value = some bs := by
  have hempty : value.toList = [] ↔ value = "" := String.toList_eq_nil_iff
  simp only [decode, bind_eq_ok, require_eq_ok, okOr_eq_ok, pure_eq_ok, exists_const]
  rw [base58Decode?, length_sub_dropWhile]
  split
  · next h => simp [hempty.mp h]
  · next h =>
    rw [Option.map_eq_some_iff]
    refine (and_iff_right (mt hempty.mpr h)).trans ?_
    refine exists_congr fun n ↦ and_congr_right fun _ ↦ ?_
    rw [beFixed_size]
    by_cases hn : n = 0
    · subst hn
      rfl
    · rw [if_neg hn]

end Base58

/-! ## The loops of the local client -/

namespace Client

/-- `for (const b of bytes) { if (b !== 0) break; result = '1' + result; }`. -/
def leadingOnes : Bytes → List Char → List Char
  | [], result => result
  | b :: bs, result => if b ≠ 0 then result else leadingOnes bs ('1' :: result)

/-- `base58`.  The number is read from hexadecimal digits, and written by the same loop. -/
def base58 (bytes : Bytes) : Option String := do
  let hex := hexEncode bytes
  let n ← hexAlphabet.number? (if hex = "" then ['0'] else hex.toList)
  some (String.ofList (leadingOnes bytes (Base58.encodeLoop n [])))

theorem leadingOnes_eq (bytes : Bytes) (result : List Char) : leadingOnes bytes result =
    List.replicate (bytes.takeWhile (· == 0)).length '1' ++ result := by
  induction bytes generalizing result with
  | nil => rfl
  | cons b bs ih =>
    rw [leadingOnes]
    by_cases hb : b = 0
    · rw [if_neg (not_not.mpr hb), ih, List.takeWhile_cons_of_pos (by simpa using hb),
        List.length_cons, List.replicate_succ', List.append_assoc]
      rfl
    · rw [if_pos hb, List.takeWhile_cons_of_neg (by simpa using hb)]
      rfl

theorem beNat_eq_foldl (bs : Bytes) : beNat bs = bs.foldl (fun n b ↦ n * 256 + b.toNat) 0 := by
  rw [beNat, Nat.ofDigits_eq_foldr, List.foldr_map, List.foldr_reverse]
  congr 1
  funext n b
  simp only [Nat.cast_id]
  ring

/-- Two hexadecimal digits are one byte. -/
theorem number?_hexPairs (bs : Bytes) :
    hexAlphabet.number? (bs.flatMap hexPair) = some (beNat bs) := by
  have hlength : hexAlphabet.digits.length = 16 := rfl
  have hfold : ∀ m : ℕ, (bs.flatMap hexPair).foldlM
      (fun n c ↦ (hexAlphabet.value? c).map fun d ↦ n * hexAlphabet.digits.length + d) m =
        some (bs.foldl (fun n b ↦ n * 256 + b.toNat) m) := by
    induction bs with
    | nil => exact fun m ↦ rfl
    | cons b bs ih =>
      intro m
      have hb := b.toNat_lt
      have hhigh := Alphabet.value?_digit hexAlphabet (show b.toNat / 16 < 16 by omega)
      have hlow := Alphabet.value?_digit hexAlphabet (show b.toNat % 16 < 16 by omega)
      have hstep : (m * 16 + b.toNat / 16) * 16 + b.toNat % 16 = m * 256 + b.toNat := by omega
      rw [List.flatMap_cons, hexPair, List.cons_append, List.cons_append, List.nil_append,
        List.foldlM_cons, hhigh, Option.map_some, Option.bind_eq_bind, Option.bind_some,
        List.foldlM_cons, hlow, Option.map_some, Option.bind_eq_bind, Option.bind_some, hlength,
        hstep, List.foldl_cons]
      exact ih _
  rw [beNat_eq_foldl]
  exact hfold 0

/-- The client writes what the verifiers write. -/
theorem base58_eq (bytes : Bytes) : base58 bytes = some (Base58.encode bytes) := by
  have hnumber : hexAlphabet.number? (if hexEncode bytes = "" then ['0'] else
      (hexEncode bytes).toList) = some (beNat bytes) := by
    rw [hexEncode, String.toList_ofList]
    cases bytes with
    | nil => rfl
    | cons b bs =>
      rw [if_neg]
      · exact number?_hexPairs (b :: bs)
      · intro h
        have hlist := congrArg String.toList h
        rw [String.toList_ofList] at hlist
        exact absurd hlist (by simp [hexPair])
  simp only [base58, hnumber, Option.bind_eq_bind, Option.bind_some]
  rw [Base58.encode_eq, base58Encode, leadingOnes_eq, Base58.encodeLoop_eq, List.append_nil]

end Client

/-! ## Keys have one text -/

namespace Verifier

/-- `_pubkey` decodes and checks the length. -/
theorem pubkey_eq_ok {s : String} {k : Bytes} :
    pubkey s = .ok k ↔ Base58.decode s = .ok k ∧ k.length = 32 := by
  rw [Base58.decode_eq_ok]
  simp only [pubkey, bind_eq_ok, require_eq_ok, okOr_eq_ok, pure_eq_ok, exists_const]
  constructor
  · rintro ⟨-, k, hk, hlen, rfl⟩
    exact ⟨hk, hlen⟩
  · rintro ⟨hk, hlen⟩
    refine ⟨fun hnil ↦ ?_, k, hk, hlen, rfl⟩
    rw [base58Decode?, if_pos hnil] at hk
    exact absurd hk (by simp)

/-- The text of a key is its encoding. -/
theorem encode_of_pubkey {s : String} {k : Bytes} (h : pubkey s = .ok k) : base58Encode k = s :=
  base58Encode_decode (Base58.decode_eq_ok.mp (pubkey_eq_ok.mp h).1)

theorem pubkey_encode {k : Bytes} (h : k.length = 32) : pubkey (base58Encode k) = .ok k :=
  pubkey_shown ⟨k, h⟩

/-- Texts and keys correspond. -/
structure KeyTexts : Prop where
  decode_encode : ∀ b : Bytes, b ≠ [] → Base58.decode (Base58.encode b) = .ok b
  encode_decode : ∀ s : String, s ≠ "" → (∀ c ∈ s.toList, c ∈ base58Digits) →
    ∃ b, Base58.decode s = .ok b ∧ Base58.encode b = s
  unique : ∀ k : Bytes, k.length = 32 → ∃! s, pubkey s = .ok k
  distinct : ∀ s s' k, pubkey s = .ok k → pubkey s' = .ok k → s = s'
  /-- The exporter takes every text of a key. -/
  canonical : ∀ s k, pubkey s = .ok k → Verifier.canonical (.str s) = .ok s
  /-- The verifier never finds the text of an account's key not to be canonical. -/
  account : ∀ (chain : Chain) (s : Snapshot) (name owner typename : String),
    s.located name owner ≠ .error "NONCANONICAL_KEY" ∧
      s.account chain name owner typename ≠ .error "NONCANONICAL_KEY"
  javascript : ∀ b : Bytes, Client.base58 b = some (Base58.encode b)

theorem pubkey_canonical (s : String) : pubkey s ≠ .error "NONCANONICAL_KEY" := by
  intro h
  simp [pubkey, bind_eq_error, okOr_eq_error, require_eq_error, pure, Except.pure] at h

theorem located_canonical (s : Snapshot) (name owner : String) :
    s.located name owner ≠ .error "NONCANONICAL_KEY" := by
  intro h
  simp only [Snapshot.located, bind_eq_error, okOr_eq_ok, okOr_eq_error, require_eq_ok,
    require_eq_error, pure, Except.pure, reduceCtorEq, and_false, or_false, exists_const,
    String.reduceEq, and_true, false_or] at h
  obtain ⟨a, -, h | ⟨k, hk, hne⟩⟩ := h
  · exact pubkey_canonical a.address h
  · exact hne (encode_of_pubkey hk)

theorem account_canonical (chain : Chain) (s : Snapshot) (name owner typename : String) :
    s.account chain name owner typename ≠ .error "NONCANONICAL_KEY" := by
  intro h
  rw [Snapshot.account, bind_eq_error] at h
  obtain h | ⟨⟨address, data⟩, -, h⟩ := h
  · exact located_canonical s name owner h
  · have htext : ∀ r : Reason, r.text ≠ "NONCANONICAL_KEY" := by
      intro r
      cases r <;> simp [Reason.text]
    dsimp only at h
    rcases hread : (Verifier.account chain typename).all data with r | u
    · rw [hread] at h
      exact htext r (Except.error.inj h)
    · rw [hread] at h
      exact absurd h (by simp [Except.mapError, bind, Except.bind, pure, Except.pure])

theorem base58_bijective : KeyTexts where
  decode_encode b hb := by
    rw [Base58.decode_eq_ok, Base58.encode_eq]
    exact base58Decode?_encode hb
  encode_decode s hs hall := by
    obtain ⟨b, hb⟩ := exists_base58Decode?.mpr ⟨hs, hall⟩
    exact ⟨b, Base58.decode_eq_ok.mpr hb, (Base58.encode_eq b).trans (base58Encode_decode hb)⟩
  unique k hk := ⟨base58Encode k, pubkey_encode hk, fun _ hs ↦ (encode_of_pubkey hs).symm⟩
  distinct _ _ _ hs hs' := (encode_of_pubkey hs).symm.trans (encode_of_pubkey hs')
  canonical s k h := by
    have hkey := canonical_shown ⟨k, (pubkey_eq_ok.mp h).2⟩
    rwa [shown, encode_of_pubkey h] at hkey
  account chain s name owner typename :=
    ⟨located_canonical s name owner, account_canonical chain s name owner typename⟩
  javascript := Client.base58_eq

end Verifier

end FundingVaults
