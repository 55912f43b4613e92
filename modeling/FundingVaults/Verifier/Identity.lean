import FundingVaults.Verifier.Codec
import FundingVaults.Verifier.Exporter

/-!
# Policies in the verifier

The verifier recomputes the identity of a policy and its address from the bytes of the account.  It
reads every policy whose identity and address the program would compute, and the texts that it makes
of keys and hashes are those that the exporter demands.
-/

namespace FundingVaults.Verifier

open LaunchV7

variable {chain : Chain}

/-! ## Texts of keys and hashes -/

theorem beNat_lt (bs : Bytes) : beNat bs < 256 ^ bs.length := by
  have h := Nat.ofDigits_lt_base_pow_length' (b := 254) (l := bs.reverse.map UInt8.toNat) ?_
  · simpa [beNat] using h
  · intro d hd
    obtain ⟨b, -, rfl⟩ := List.mem_map.mp hd
    exact b.toNat_lt

theorem beNat_cons (b : UInt8) (bs : Bytes) :
    beNat (b :: bs) = beNat bs + 256 ^ bs.length * b.toNat := by
  simp [beNat, Nat.ofDigits_append]

/-- A leading zero is one digit, and every other byte is more than one. -/
theorem base58Encode_length (bs : Bytes) (h : bs.length ≤ 32) :
    bs.length ≤ (base58Encode bs).length ∧ (base58Encode bs).length ≤ bs.length + 12 := by
  have hsplit := congrArg List.length (List.takeWhile_append_dropWhile (p := (· == 0)) (l := bs))
  rw [List.length_append] at hsplit
  rw [base58Encode, String.length_ofList, List.length_append, List.length_replicate,
    List.length_map, List.length_reverse, ← beNat_dropWhile]
  have hlower : (bs.dropWhile (· == 0)).length ≤
      (Nat.digits 58 (beNat (bs.dropWhile (· == 0)))).length := by
    cases hrest : bs.dropWhile (· == 0) with
    | nil => exact Nat.zero_le _
    | cons b rest =>
      have hhead := List.head_dropWhile_not (fun b : UInt8 ↦ b == 0) (l := bs) (by simp [hrest])
      have hb : 1 ≤ b.toNat := by
        simp only [hrest, List.head_cons] at hhead
        have hne : b.toNat ≠ 0 := fun hzero ↦
          absurd hhead (by simp [UInt8.toNat_inj.mp (hzero.trans UInt8.toNat_zero.symm)])
        omega
      rw [List.length_cons, Nat.succ_le_iff, Nat.lt_digits_length_iff (by decide), beNat_cons]
      calc 58 ^ rest.length ≤ 256 ^ rest.length := Nat.pow_le_pow_left (by decide) _
        _ ≤ 256 ^ rest.length * b.toNat := Nat.le_mul_of_pos_right _ hb
        _ ≤ _ := Nat.le_add_left _ _
  have hupper : (Nat.digits 58 (beNat (bs.dropWhile (· == 0)))).length ≤
      (bs.dropWhile (· == 0)).length + 12 := by
    rw [Nat.digits_length_le_iff (by decide)]
    have hpow : ∀ n ≤ 32, 256 ^ n ≤ 58 ^ (n + 12) := by decide
    exact (beNat_lt _).trans_le (hpow _ (by omega))
  omega

theorem shown_length (k : Pubkey) : 32 ≤ (shown k).length ∧ (shown k).length ≤ 44 := by
  have h := base58Encode_length k.bytes k.length_eq.le
  rwa [k.length_eq] at h

theorem canonical_shown (k : Pubkey) : canonical (.str (shown k)) = .ok (shown k) := by
  simp only [canonical, bind_eq_ok, okOr_eq_ok, require_eq_ok, pure_eq_ok, exists_const]
  exact ⟨shown k, rfl, shown_length k, k.bytes, pubkey_shown k, rfl, rfl⟩

theorem fromHex?_hexEncode (bs : Bytes) : fromHex? (hexEncode bs).toList = some bs := by
  rw [hexEncode, String.toList_ofList, fromHex?_flatMap]

theorem expectedHash_hexEncode {expected : Json} {key : String} {b : Bytes32}
    (h : expected.get key = .str (hexEncode b.bytes)) : expectedHash expected key = .ok b.bytes := by
  simp only [expectedHash, bind_eq_ok, okOr_eq_ok, require_eq_ok, exists_const, h]
  refine ⟨hexEncode b.bytes, rfl, ⟨by rw [hexEncode_length, b.length_eq], ?_⟩,
    fromHex?_hexEncode _⟩
  rw [List.all_eq_true]
  intro c hc
  simpa using mem_hexDigits hc

/-! ## Identities and addresses -/

theorem PROGRAM_eq : PROGRAM = shown ID := by rfl

theorem pubkey_PROGRAM : pubkey PROGRAM = .ok ID.bytes := by
  rw [PROGRAM_eq, pubkey_shown]

theorem pubkey_keys (keys : List Pubkey) :
    (keys.map shown).mapM pubkey = .ok (keys.map Bytes32.bytes) := by
  induction keys with
  | nil => rfl
  | cons k keys ih =>
    rw [List.map_cons, List.mapM_cons, pubkey_shown, ih]
    rfl

/-- The verifier hashes what the program hashes. -/
theorem identityPreimage_eq (p : LaunchPolicyV7) :
    identityPreimage (.of p) p.config.serialize = .ok (preimage p.creator p.mint p.founder p.treasury
      p.initialOracle p.specHash p.config) := by
  have hkeys := pubkey_keys [p.creator, p.mint, p.founder, p.treasury, p.initialOracle]
  simp only [identityPreimage, Policy.of, pubkey_PROGRAM, bind_eq_ok, pure_eq_ok, Except.ok.injEq,
    exists_eq_left']
  refine ⟨_, hkeys, ?_⟩
  simp only [List.map_cons, List.map_nil, List.flatten_cons, List.flatten_nil, List.append_nil,
    List.append_assoc, preimage]
  rfl

theorem identityPreimage_of (chain : Chain) (p : LaunchPolicyV7) :
    ∃ preimage, identityPreimage (.of p) p.config.serialize = .ok preimage ∧
      chain.sha256 preimage = LaunchV7.identity chain p.creator p.mint p.founder p.treasury
        p.initialOracle p.specHash p.config :=
  ⟨_, identityPreimage_eq p, rfl⟩

theorem Derives.pda {seeds : List Bytes} {program key : Pubkey} {bump : U8} (h : Derives chain)
    (hfound : chain.findProgramAddress seeds program = (key, bump)) (htakes : Takes seeds) :
    Verifier.pda chain seeds (shown program) = .ok (shown key) := by
  simp only [Verifier.pda, pubkey_shown, h.find hfound htakes, bind_eq_ok, pure_eq_ok,
    Except.ok.injEq, exists_eq_left']
  rfl

end FundingVaults.Verifier
