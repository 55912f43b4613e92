import FundingVaults.Lib.Checked
import FundingVaults.Lib.Text
import Mathlib.Data.Int.ModEq
import Mathlib.Data.Nat.Bits
import Mathlib.Tactic.Ring

/-!
# Keys and derived addresses in the verifiers

Transcription of the helpers of `beneficiary_vault_verifier.py` that the verifiers and exporters
share: keys as base-58 text, and the recomputation of a program-derived address.

The platform derives addresses itself.  `Derives` says that it finds what the verifier finds.
-/

namespace FundingVaults.Verifier

/-! ## Keys -/

/-- A key as the verifier shows it. -/
def shown (k : Pubkey) : String := base58Encode k.bytes

theorem Pubkey.bytes_ne_nil (k : Pubkey) : k.bytes ≠ [] := fun h ↦
  absurd k.length_eq (by simp [h])

@[simp] theorem shown_inj {a b : Pubkey} : shown a = shown b ↔ a = b := by
  rw [shown, shown, base58Encode_inj (Pubkey.bytes_ne_nil a) (Pubkey.bytes_ne_nil b)]
  exact ⟨Bytes32.ext, congrArg _⟩

/-- `_pubkey`. -/
def pubkey (value : String) : Except String Bytes := do
  require (value.toList ≠ []) "base58 value must be a non-empty string"
  let decoded ← okOr (base58Decode? value) "invalid base58 character"
  require (decoded.length = 32) "Solana public key must decode to 32 bytes"
  pure decoded

theorem pubkey_shown (k : Pubkey) : pubkey (shown k) = .ok k.bytes := by
  have hdecode : base58Decode? (shown k) = some k.bytes :=
    base58Decode?_encode (Pubkey.bytes_ne_nil k)
  have hne : (shown k).toList ≠ [] := by
    intro h
    rw [base58Decode?, if_pos h] at hdecode
    exact absurd hdecode (by simp)
  simp only [pubkey, bind_eq_ok, require_eq_ok, okOr_eq_ok, pure_eq_ok, exists_const]
  exact ⟨hne, k.bytes, hdecode, k.length_eq, rfl⟩

/-! ## Hexadecimal text -/

/-- The value of a hexadecimal digit of either case. -/
def hexValue? (c : Char) : Option ℕ := hexAlphabet.value? c.toLower

/-- White space of ASCII. -/
def isSpace (c : Char) : Bool := c == ' ' || (9 ≤ c.toNat && c.toNat ≤ 13)

/-- `bytes.fromhex`, which skips white space between the bytes. -/
def fromHex? : List Char → Option Bytes
  | [] => some []
  | [c] => if isSpace c then some [] else none
  | c :: d :: cs =>
    if isSpace c then fromHex? (d :: cs)
    else do
      let high ← hexValue? c
      let low ← hexValue? d
      let bs ← fromHex? cs
      some (UInt8.ofNat (16 * high + low) :: bs)

theorem hexValue?_digit {i : ℕ} (h : i < 16) :
    hexValue? (hexAlphabet.digit i) = some i ∧ isSpace (hexAlphabet.digit i) = false := by
  have hall : ∀ j < 16, (hexAlphabet.digit j).toLower = hexAlphabet.digit j ∧
      isSpace (hexAlphabet.digit j) = false := by decide
  obtain ⟨hlower, hspace⟩ := hall i h
  rw [hexValue?, hlower]
  exact ⟨Alphabet.value?_digit _ h, hspace⟩

/-- The digits of bytes are read back. -/
theorem fromHex?_flatMap (bs : Bytes) : fromHex? (bs.flatMap hexPair) = some bs := by
  induction bs with
  | nil => rfl
  | cons b bs ih =>
    have hb := b.toNat_lt
    obtain ⟨hhigh, hspace⟩ := hexValue?_digit (i := b.toNat / 16) (by omega)
    obtain ⟨hlow, -⟩ := hexValue?_digit (i := b.toNat % 16) (by omega)
    have hbyte : UInt8.ofNat (16 * (b.toNat / 16) + b.toNat % 16) = b := by
      rw [Nat.div_add_mod, UInt8.ofNat_toNat]
    rw [List.flatMap_cons, hexPair, List.cons_append, List.cons_append, List.nil_append, fromHex?,
      if_neg (by simp [hspace]), hhigh, hlow, ih]
    simp only [Option.bind_eq_bind, Option.bind_some, hbyte]

/-! ## Points of the curve -/

/-- The order of the field. -/
def fieldOrder : ℕ := 2 ^ 255 - 19

/-- `pow(b, e, m)`, by squaring. -/
def powMod (b : ℤ) (e : ℕ) (m : ℤ) : ℤ :=
  (Nat.bits e).foldr (fun bit x ↦ if bit then x * x * b % m else x * x % m) (1 % m)

theorem powMod_eq (b m : ℤ) (e : ℕ) : powMod b e m = b ^ e % m := by
  induction e using Nat.binaryRec' with
  | zero => simp [powMod]
  | bit bit n hn ih =>
    have hstep : powMod b (Nat.bit bit n) m =
        if bit then powMod b n m * powMod b n m * b % m else powMod b n m * powMod b n m % m := by
      rw [powMod, Nat.bits_append_bit n bit hn]
      rfl
    rw [hstep, ih]
    cases bit with
    | false =>
      rw [if_neg (by simp), ← Int.mul_emod, ← pow_add, Nat.bit_false_apply, two_mul]
    | true =>
      have hsquare : b ^ n % m * (b ^ n % m) * b ≡ b ^ n * b ^ n * b [ZMOD m] :=
        ((Int.mod_modEq _ _).mul (Int.mod_modEq _ _)).mul_right _
      rw [if_pos rfl, hsquare, ← pow_add, ← pow_succ, Nat.bit_true_apply, two_mul]

/-- `_is_ed25519_point`. -/
def isEd25519Point (compressed : Bytes) : Bool :=
  if compressed.length ≠ 32 then false
  else
    let y := leNat compressed % 2 ^ 255
    let sign := compressed.getD 31 0 >>> 7
    if y ≥ fieldOrder then false
    else
      let field : ℤ := fieldOrder
      let d := (-121665 * powMod 121666 (fieldOrder - 2) field) % field
      let ySquared := (y * y : ℤ) % field
      let denominator := (d * ySquared + 1) % field
      if denominator = 0 then false
      else
        let xSquared := (ySquared - 1) * powMod denominator (fieldOrder - 2) field % field
        let x := powMod xSquared ((fieldOrder + 3) / 8) field
        let x := if x * x % field ≠ xSquared then x * powMod 2 ((fieldOrder - 1) / 4) field % field
          else x
        if x * x % field ≠ xSquared then false else !(x == 0 && sign == 1)

/-! ## Derived addresses -/

def PDA_MARKER : Bytes := ascii "ProgramDerivedAddress"

section Derivation

variable (sha256 : Bytes → Bytes32)

/-- The hash that is the address if it is no point of the curve. -/
def candidate (seeds : List Bytes) (bump : UInt8) (programId : Bytes) : Bytes32 :=
  sha256 (seeds.flatten ++ [bump] ++ programId ++ PDA_MARKER)

/-- `range(255, -1, -1)`. -/
def bumps : List UInt8 := (List.range 256).reverse.map UInt8.ofNat

def findProgramAddress (seeds : List Bytes) (programId : Bytes) : Except String (Bytes × ℤ) := do
  require (programId.length = 32) "program id must be 32 bytes"
  require (¬ (seeds.length ≥ 16 ∨ ∃ seed ∈ seeds, seed.length > 32)) "invalid PDA seed dimensions"
  let bump ← okOr
    (bumps.find? fun bump ↦ !isEd25519Point (candidate sha256 seeds bump programId).bytes)
    "no viable PDA bump"
  pure ((candidate sha256 seeds bump programId).bytes, bump.toNat)

end Derivation

theorem mem_bumps (b : UInt8) : b ∈ bumps := by
  refine List.mem_map.mpr ⟨b.toNat, ?_, UInt8.ofNat_toNat⟩
  rw [List.mem_reverse, List.mem_range]
  exact b.toNat_lt

theorem bumps_sorted : bumps.Pairwise (· > ·) := by
  rw [bumps, List.pairwise_map, List.pairwise_reverse]
  refine List.pairwise_lt_range.imp_of_mem fun {i j} hi hj hlt ↦ ?_
  rw [List.mem_range] at hi hj
  rw [gt_iff_lt, UInt8.lt_iff_toNat_lt, UInt8.toNat_ofNat', UInt8.toNat_ofNat']
  omega

/-- The first hit of a descending search is the highest one. -/
theorem find?_bumps {p : UInt8 → Bool} {b : UInt8} (hb : p b) (hhigh : ∀ c, b < c → ¬ p c) :
    bumps.find? p = some b := by
  obtain ⟨as, bs, hsplit⟩ := List.append_of_mem (mem_bumps b)
  have hsorted := bumps_sorted
  rw [hsplit, List.pairwise_append] at hsorted
  rw [List.find?_eq_some_iff_append]
  refine ⟨hb, as, bs, hsplit, fun a ha ↦ ?_⟩
  simpa using hhigh a (hsorted.2.2 a ha b List.mem_cons_self)

/-- And nothing above the first hit is one. -/
theorem not_of_find?_bumps {p : UInt8 → Bool} {b c : UInt8} (h : bumps.find? p = some b)
    (hc : b < c) : ¬ p c := by
  obtain ⟨-, as, bs, hsplit, has⟩ := List.find?_eq_some_iff_append.mp h
  have hsorted := bumps_sorted
  have hmem := mem_bumps c
  rw [hsplit] at hsorted hmem
  rw [List.pairwise_append, List.pairwise_cons] at hsorted
  rcases List.mem_append.mp hmem with hleft | hright
  · simpa using has c hleft
  · rcases List.mem_cons.mp hright with rfl | hbelow
    · exact absurd hc (UInt8.lt_irrefl c)
    · exact absurd hc (UInt8.lt_asymm (hsorted.2.1.1 c hbelow))

/-! ## Shared derivation -/

/-- The verifier finds the address and the bump that the platform finds for the seeds. -/
def Shares (chain : Chain) (seeds : List Bytes) (program : Pubkey) : Prop :=
  findProgramAddress chain.sha256 seeds program.bytes =
    .ok ((chain.findProgramAddress seeds program).1.bytes,
      ((chain.findProgramAddress seeds program).2.toNat : ℤ))

/-- The platform takes the seeds: they leave room for the bump, and none is too long. -/
def Takes (seeds : List Bytes) : Prop := seeds.length < 16 ∧ ∀ seed ∈ seeds, seed.length ≤ 32

instance : DecidablePred Takes := fun _ ↦ inferInstanceAs (Decidable (_ ∧ _))

/-- The verifier and the platform share one derivation of addresses.  This is an assumption about
the hashes that occur, and not a documented one. -/
structure Derives (chain : Chain) : Prop where
  shares : ∀ {seeds program}, Takes seeds → Shares chain seeds program

theorem Derives.find {chain : Chain} {seeds : List Bytes} {program key : Pubkey} {bump : U8}
    (h : Derives chain) (hfound : chain.findProgramAddress seeds program = (key, bump))
    (htakes : Takes seeds) :
    findProgramAddress chain.sha256 seeds program.bytes = .ok (key.bytes, bump.toNat) := by
  have hshares : Shares chain seeds program := h.shares htakes
  rwa [Shares, hfound] at hshares

end FundingVaults.Verifier
