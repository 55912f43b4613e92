import FundingVaults.Beneficiary.Exporter
import FundingVaults.LaunchV7.View
import FundingVaults.Verifier.Base58
import FundingVaults.Verifier.Graph
import FundingVaults.Verifier.Identity

/-!
# The accounts of a snapshot

A snapshot shows a ledger if the ledger has every account that the snapshot lists, decoded.  What
the readers of the verifier accept are the bytes of one account, so each account that they return
is one that the ledger has.
-/

namespace FundingVaults.LaunchV7

/-- The data of an account of the program. -/
def ProgramAccount.serialize (chain : Chain) : ProgramAccount → Bytes
  | preparation a => a.serialize chain
  | policy a => a.serialize chain
  | vault a => a.serialize chain
  | approval a => a.serialize chain
  | change a => a.serialize chain
  | withdrawal a => a.serialize chain
  | withdrawalKey a => a.serialize chain

/-- The length of the data. -/
def ProgramAccount.width : ProgramAccount → ℕ
  | preparation _ => 725
  | policy _ => 1065
  | vault _ => 138
  | approval _ => 177
  | change _ => 116
  | withdrawal _ => 172
  | withdrawalKey _ => 76

end FundingVaults.LaunchV7

namespace FundingVaults.Verifier

open LaunchV7 (LaunchPolicyV7 LaunchVaultV7 TreasuryApprovalV7 WithdrawalKeyV7 Ledger
  ProgramAccount Seeds ID)
open Beneficiary (PackedToken optionTag optionBody tokenPieces stateByte)

/-! ## Shown accounts -/

/-- The fields of a mint in the order of their bytes. -/
def mintPieces (m : Mint) (authority freeze : Bytes) : List Bytes := [
  optionTag (m.mintAuthority.map Bytes32.bytes),
  optionBody (m.mintAuthority.map Bytes32.bytes) authority,
  U64.toLe m.supply,
  U8.toLe m.decimals,
  boolToLe m.isInitialized,
  optionTag (m.freezeAuthority.map Bytes32.bytes),
  optionBody (m.freezeAuthority.map Bytes32.bytes) freeze]

/-- The data of a mint. -/
def PackedMint (m : Mint) (data : Bytes) : Prop :=
  ∃ authority freeze : Bytes, authority.length = 32 ∧ freeze.length = 32 ∧
    data = (mintPieces m authority freeze).flatten

/-- An entry of a snapshot. -/
structure Snapshot.Lists (s : Snapshot) (name : String) (key : Pubkey) (owner : String)
    (data : Bytes) : Prop where
  entry : ∃ a, s.accounts.get? name = some a ∧ a.address = shown key ∧ a.owner = owner ∧
    a.executable = false ∧ fromHex? a.dataHex.toList = some data

/-- The ledger has the accounts that the snapshot lists, and no approval of the policy at `P` that
it does not list under its period. -/
structure Snapshot.Shows (chain : Chain) (s : Snapshot) (L : Ledger) (P : Pubkey) : Prop where
  program : ∀ {name key x}, s.Lists name key PROGRAM (ProgramAccount.serialize chain x) →
    L.program key = some x
  token : ∀ {name key a data}, s.Lists name key TOKEN data → PackedToken a data →
    L.tokens.account key = some a
  mint : ∀ {name key m data}, s.Lists name key TOKEN data → PackedMint m data →
    L.tokens.mint key = some m
  approvals : ∀ {key} {a : TreasuryApprovalV7}, L.program key = some (.approval a) →
    a.policy = P → ∃ data, s.Lists ("approval_" ++ toString (a.period.val : ℤ)) key PROGRAM data

/-! ## Located accounts -/

theorem exists_shown {text : String} {bs : Bytes} (h : pubkey text = .ok bs) :
    ∃ k : Pubkey, text = shown k ∧ bs = k.bytes := by
  obtain ⟨-, hlength⟩ := pubkey_eq_ok.mp h
  exact ⟨⟨bs, hlength⟩, (encode_of_pubkey h).symm, rfl⟩

variable {chain : Chain} {s : Snapshot} {L : Ledger} {P : Pubkey} {name owner text : String}
  {data : Bytes}

theorem located_eq_ok : s.located name owner = .ok (text, data) ↔ ∃ key, text = shown key ∧
    s.Lists name key owner data := by
  simp only [Snapshot.located, bind_eq_ok, okOr_eq_ok, require_eq_ok, pure_eq_ok, exists_const,
    Prod.mk.injEq]
  constructor
  · rintro ⟨a, ha, _, hdecoded, -, ⟨howner, hexec⟩, _, hdata, rfl, rfl⟩
    obtain ⟨key, hkey, -⟩ := exists_shown hdecoded
    exact ⟨key, hkey, a, ha, hkey, howner, hexec, hdata⟩
  · rintro ⟨key, rfl, a, ha, haddress, howner, hexec, hdata⟩
    exact ⟨a, ha, key.bytes, haddress ▸ pubkey_shown key, haddress.symm, ⟨howner, hexec⟩, data,
      hdata, haddress, rfl⟩

theorem mapError_eq_ok {α : Type} {x : Except Reason α} {a : α} :
    x.mapError Reason.text = .ok a ↔ x = .ok a := by
  cases x <;> simp [Except.mapError]

/-- The verifier derives the addresses of the program. -/
theorem Derives.derived (hd : Derives chain) (x : Seeds) : Verifier.derived chain x.bytes =
    .ok (shown (x.address chain), ((x.bump chain).toNat : ℤ)) := by
  have hcount : x.bytes.length < 16 := by cases x <;> simp [Seeds.bytes]
  have hwidth : ∀ seed ∈ x.bytes, seed.length ≤ 32 := by
    cases x <;> simp [Seeds.bytes, ascii, Bytes32.length_eq]
  have hfind : findProgramAddress chain.sha256 x.bytes ID.bytes = _ := hd.find rfl ⟨hcount, hwidth⟩
  simp only [Verifier.derived, pubkey_PROGRAM, hfind, bind_eq_ok, pure_eq_ok, Except.ok.injEq,
    exists_eq_left']
  rfl

theorem pack_Q (k : U64) : pack .Q k.val = U64.toLe k := by
  have hk := k.isLt
  have hmod : ((k.val : ℤ) % 256 ^ Format.Q.size).toNat = k.val := by
    simp only [Format.size]
    omega
  rw [pack, hmod]
  rfl

/-- A record that is read is the one that the ledger has. -/
theorem Snapshot.Shows.record {α β : Type} {read : Reader Reason β} {write : α → Bytes}
    {view : α → β} {plain : β → Prop} {n : ℕ} {b : β} (h : s.Shows chain L P)
    (hread : Agrees read.all write view plain n) (wrap : α → ProgramAccount)
    (hwrap : ∀ a, (wrap a).serialize chain = write a) (hr : s.record name read = .ok (text, b))
    (hb : plain b) : ∃ key a, text = shown key ∧ view a = b ∧ L.program key = some (wrap a) := by
  simp only [Snapshot.record, bind_eq_ok, pure_eq_ok, Prod.exists, Prod.mk.injEq,
    mapError_eq_ok] at hr
  obtain ⟨_, data, hlocated, c, hc, rfl, rfl⟩ := hr
  obtain ⟨key, rfl, hlists⟩ := located_eq_ok.mp hlocated
  obtain ⟨a, rfl, -⟩ := hread.unique hc hb
  rw [← hwrap] at hlists
  refine ⟨key, a, rfl, ?_, h.program hlists⟩
  rw [hread.recovers] at hc
  exact Except.ok.inj hc

/-- The policy at `P`, as it is read. -/
def PolicyView.of (P : Pubkey) (q : LaunchPolicyV7) : PolicyView where
  toPolicy := .of q
  address := shown P

/-- The policy that is read is the one that the ledger has, at its address. -/
theorem Snapshot.Shows.policy {p : PolicyView} (h : s.Shows chain L P) (hd : Derives chain)
    (hr : s.readPolicy chain = .ok p)
    (hP : (s.accounts.get? "policy").map AccountView.address = some (shown P)) :
    ∃ q : LaunchPolicyV7, p = .of P q ∧ L.program P = some (.policy q) ∧
      LaunchV7.Canonical chain P (.policy q) := by
  simp only [Snapshot.readPolicy, bind_eq_ok, require_eq_ok, pure_eq_ok, exists_const,
    Prod.exists, mapError_eq_ok] at hr
  obtain ⟨_, data, hlocated, q, config, hq, preimage, -, -, program, hprogram, expected, bump,
    hfound, ⟨rfl, hbump⟩, rfl⟩ := hr
  obtain ⟨key, hkey, hlists⟩ := located_eq_ok.mp hlocated
  obtain rfl : key = P := by
    obtain ⟨a, ha, haddress, -⟩ := hlists
    rw [ha, Option.map_some, Option.some.injEq, haddress] at hP
    exact shown_inj.mp hP
  obtain ⟨p, hview, rfl⟩ := readPolicy_eq_ok.mp hq
  obtain ⟨rfl, -⟩ := Prod.mk.inj hview
  have hderived : derived chain (Seeds.policy p.identity).bytes =
      .ok (base58Encode expected, bump) := by
    simp only [derived, bind_eq_ok, pure_eq_ok, Prod.exists, Prod.mk.injEq]
    exact ⟨program, hprogram, expected, bump, hfound, rfl, rfl⟩
  rw [hd.derived, Except.ok.injEq, Prod.mk.injEq] at hderived
  refine ⟨p, by rw [hkey]; rfl, h.program hlists, ?_, ?_⟩
  · exact shown_inj.mp (hderived.1.trans hkey)
  · rw [← hderived.2] at hbump
    exact (UInt8.toNat_inj.mp (Nat.cast_inj.mp hbump)).symm

/-! ## Tokens -/

theorem reads_I {ε : Type} {short : ε} :
    Reads (Reader.number short .I) (fun x : U32 ↦ leBytes 4 x.val) fun x ↦ (x.val : ℤ) := by
  refine reads_number (leBytes_length 4 ·.val) (fun a ↦ ?_) fun x hx ↦ ?_
  · exact congrArg Nat.cast (leNat_leBytes a.isLt)
  · obtain ⟨k, hk, rfl⟩ := exists_leBytes hx
    exact ⟨⟨k, hk⟩, rfl⟩

theorem reads_take {ε : Type} {short : ε} (n : ℕ) :
    Reads (Reader.take short n) (fun x : { bs : Bytes // bs.length = n } ↦ x.val) Subtype.val := by
  refine ⟨@fun bs x rest ↦ ?_⟩
  rw [Reader.take_run]
  constructor
  · rintro ⟨hx, rfl⟩
    exact ⟨⟨x, hx⟩, rfl, rfl⟩
  · rintro ⟨a, rfl, rfl⟩
    exact ⟨a.property, rfl⟩

/-- An optional key is packed by its tag and its body. -/
theorem exists_option {tag : U32} {body : Bytes} (htag : (tag.val : ℤ) = 0 ∨ (tag.val : ℤ) = 1)
    (hbody : body.length = 32) : ∃ o : Option Pubkey,
      optionTag (o.map Bytes32.bytes) = leBytes 4 tag.val ∧
        optionBody (o.map Bytes32.bytes) body = body ∧ (o = none ↔ (tag.val : ℤ) = 0) := by
  rcases htag with h | h
  · refine ⟨none, ?_, rfl, by simp [h]⟩
    rw [Int.natCast_eq_zero.mp h]
    rfl
  · refine ⟨some ⟨body, hbody⟩, ?_, rfl, by simp [h]⟩
    rw [Int.ofNat_inj.mp h]
    rfl

/-- The token account that is read is the one that the ledger has. -/
theorem Snapshot.Shows.token_of {t : Token} (h : s.Shows chain L P)
    (hr : s.readToken name = .ok t) : ∃ key a, t.address = shown key ∧
      L.tokens.account key = some a ∧ t.mint = shown a.mint ∧ t.owner = shown a.owner ∧
        t.amount = a.amount ∧ a.state = .initialized ∧ a.isNative = none ∧
          (t.delegate = 0 → a.delegate = none) ∧
            (t.closeAuthority = 0 → a.closeAuthority = none) := by
  simp only [Snapshot.readToken, bind_eq_ok, require_eq_ok, pure_eq_ok, exists_const,
    Prod.exists, mapError_eq_ok] at hr
  obtain ⟨_, data, hlocated, u, hu, ⟨hdelegate, hclose⟩, ⟨hstate, hnative⟩, rfl⟩ := hr
  obtain ⟨key, rfl, hlists⟩ := located_eq_ok.mp hlocated
  rw [Reader.all_eq_ok] at hu
  obtain ⟨_, hu⟩ := hu
  simp only [tokenFields, number, take, finish, reads_key.bind_eq_ok, reads_B.bind_eq_ok,
    reads_I.bind_eq_ok, reads_Q.bind_eq_ok, (reads_take _).bind_eq_ok, Reader.finish_bind,
    Reader.pure_run] at hu
  obtain ⟨mint, _, rfl, owner, _, rfl, amount, _, rfl, delegate, _, rfl, hu⟩ := hu
  obtain ⟨⟨agent, hagent⟩, _, rfl, state, _, rfl, native, _, rfl, ⟨reserve, hreserve⟩, _, rfl,
    hu⟩ := hu
  obtain ⟨delegated, _, rfl, close, _, rfl, ⟨closer, hcloser⟩, _, rfl, rfl, rfl, -⟩ := hu
  simp only at hdelegate hclose hstate hnative
  obtain ⟨agent?, htag, hbody, hagent?⟩ := exists_option hdelegate hagent
  obtain ⟨closer?, htag', hbody', hcloser?⟩ := exists_option hclose hcloser
  obtain rfl : state = 1 := UInt8.toNat_inj.mp (Nat.cast_inj.mp (hstate.trans rfl))
  obtain rfl : native = 0 := Fin.ext (Int.natCast_eq_zero.mp hnative)
  refine ⟨key, {
    mint, owner, amount := amount.val, delegate := agent?, state := .initialized, isNative := none
    delegatedAmount := delegated.val, closeAuthority := closer? }, rfl, h.token hlists ?_, rfl, rfl,
    rfl, rfl, rfl, hagent?.mpr, hcloser?.mpr⟩
  refine ⟨amount.isLt, delegated.isLt, agent, reserve, closer, hagent, hreserve, hcloser, ?_⟩
  simp only [tokenPieces, htag, hbody, htag', hbody', List.flatten_cons, List.flatten_nil,
    List.append_nil]
  rfl

/-- The mint that is read is the one that the ledger has. -/
theorem Snapshot.Shows.mint_of {p : LaunchPolicyV7} {q : Policy} {supply decimals : ℤ}
    (h : s.Shows chain L P) (hq : q.mint = shown p.mint)
    (hr : s.readMint q = .ok (supply, decimals)) :
    ∃ m, L.tokens.mint p.mint = some m ∧ m.isInitialized = true := by
  simp only [Snapshot.readMint, bind_eq_ok, require_eq_ok, exists_const, Prod.exists] at hr
  obtain ⟨_, data, hlocated, haddress, hu⟩ := hr
  obtain ⟨key, rfl, hlists⟩ := located_eq_ok.mp hlocated
  obtain rfl : key = p.mint := shown_inj.mp (haddress.trans hq)
  rw [Reader.all_eq_ok] at hu
  obtain ⟨_, hu⟩ := hu
  simp only [mintFields, reads_B.bind_eq_ok, reads_I.bind_eq_ok, reads_Q.bind_eq_ok,
    (reads_take _).bind_eq_ok, Reader.check_bind, Reader.finish_bind, Reader.pure_run] at hu
  obtain ⟨authority, _, rfl, hauthority, ⟨issuer, hissuer⟩, _, rfl, supply, _, rfl, hu⟩ := hu
  obtain ⟨decimals, _, rfl, initialized, _, rfl, hinit, freeze, _, rfl, hfreeze, hu⟩ := hu
  obtain ⟨⟨freezer, hfreezer⟩, _, rfl, rfl, -⟩ := hu
  obtain rfl : authority = 0 := Fin.ext (Int.natCast_eq_zero.mp hauthority)
  obtain rfl : initialized = 1 := UInt8.toNat_inj.mp (Nat.cast_inj.mp (hinit.trans rfl))
  obtain rfl : freeze = 0 := Fin.ext (Int.natCast_eq_zero.mp hfreeze)
  refine ⟨{
    mintAuthority := none, supply, decimals, isInitialized := true, freezeAuthority := none },
    h.mint hlists ⟨issuer, freezer, hissuer, hfreezer, ?_⟩, rfl⟩
  simp only [mintPieces, List.flatten_cons, List.flatten_nil, List.append_nil]
  rfl

end FundingVaults.Verifier
