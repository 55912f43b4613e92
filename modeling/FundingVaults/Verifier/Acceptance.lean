import FundingVaults.Verifier.Picture

/-!
# What the readers accept

An account that a snapshot lists is read as what the ledger has there, if its bytes are the ones
that the program or the token program stores.
-/

namespace FundingVaults.Verifier

open LaunchV7 (LaunchPolicyV7 TreasuryApprovalV7 Ledger ProgramAccount Seeds)
open Beneficiary (PackedToken optionTag optionBody optionKey_length tokenPieces stateByte)

variable {chain : Chain} {s : Snapshot} {P key : Pubkey} {name owner : String} {data : Bytes}

/-! ## Accounts of the program -/

theorem Snapshot.Lists.located (h : s.Lists name key owner data) :
    s.located name owner = .ok (shown key, data) :=
  located_eq_ok.mpr ⟨key, rfl, h⟩

theorem Snapshot.Lists.record {α β : Type} {read : Reader Reason β} {write : α → Bytes}
    {view : α → β} {plain : β → Prop} {n : ℕ} {a : α} (h : s.Lists name key PROGRAM (write a))
    (hread : Agrees read.all write view plain n) :
    s.record name read = .ok (shown key, view a) := by
  simp only [Snapshot.record, bind_eq_ok, pure_eq_ok, Prod.exists, Prod.mk.injEq, mapError_eq_ok]
  exact ⟨_, _, h.located, view a, hread.recovers a, rfl, rfl⟩

/-- The policy is read if its identity is the one that its registration has. -/
theorem Snapshot.Lists.policy {q : LaunchPolicyV7}
    (h : s.Lists "policy" P PROGRAM (q.serialize chain)) (hd : Derives chain)
    (hq : LaunchV7.Canonical chain P (.policy q))
    (hidentity : q.identity = LaunchV7.identity chain q.creator q.mint q.founder q.treasury
      q.initialOracle q.specHash q.config) : s.readPolicy chain = .ok (.of P q) := by
  obtain ⟨preimage, hpreimage, hhash⟩ := identityPreimage_of chain q
  have hread : ((Verifier.readPolicy chain).all (q.serialize chain)).mapError Reason.text =
      .ok (.of q, q.config.serialize) := mapError_eq_ok.mpr (readPolicy_eq_ok.mpr ⟨q, rfl, rfl⟩)
  obtain ⟨haddress, hbump⟩ := hq
  have hderived := hd.derived (Seeds.policy q.identity)
  simp only [derived, bind_eq_ok, pure_eq_ok, Prod.exists, Prod.mk.injEq] at hderived
  obtain ⟨program, hprogram, expected, bump, hfind, hexpected, hfound⟩ := hderived
  simp only [Snapshot.readPolicy, bind_eq_ok, require_eq_ok, pure_eq_ok, exists_const, Prod.exists]
  refine ⟨_, _, h.located, _, _, hread, preimage, hpreimage, ?_, program, hprogram, expected, bump,
    hfind, ⟨?_, ?_⟩, rfl⟩
  · exact congrArg Bytes32.bytes (hhash.trans hidentity.symm)
  · exact (congrArg shown haddress).symm.trans hexpected.symm
  · rw [hfound]
    exact congrArg (fun b : UInt8 ↦ ((b.toNat : ℕ) : ℤ)) hbump.symm

/-! ## Tokens -/

/-- How a tag of an option is read. -/
def tagOf {α : Type} (o : Option α) : ℤ := if o.isSome then 1 else 0

/-- A token account, as it is read. -/
def Token.of (key : Pubkey) (a : TokenAccount) : Token where
  address := shown key
  mint := shown a.mint
  owner := shown a.owner
  amount := a.amount
  delegate := tagOf a.delegate
  state := (stateByte a.state).toNat
  native := tagOf a.isNative
  delegatedAmount := a.delegatedAmount
  closeAuthority := tagOf a.closeAuthority

theorem exists_tag {α : Type} (o : Option α) (f : α → Bytes) :
    ∃ tag : U32, optionTag (o.map f) = leBytes 4 tag.val ∧ (tag.val : ℤ) = tagOf o := by
  cases o with
  | none => exact ⟨0, rfl, rfl⟩
  | some a => exact ⟨1, rfl, rfl⟩

/-- A token account that is initialized and holds no native tokens is read. -/
theorem Snapshot.Lists.token {a : TokenAccount} (h : s.Lists name key TOKEN data)
    (ha : PackedToken a data) (hstate : a.state = .initialized) (hnative : a.isNative = none) :
    s.readToken name = .ok (.of key a) := by
  obtain ⟨hamount, hdelegated, agent, reserve, closer, hagent, hreserve, hcloser, rfl⟩ := ha
  obtain ⟨delegate, hdelegate, hdelegate'⟩ := exists_tag a.delegate Bytes32.bytes
  obtain ⟨native, hnat, hnat'⟩ := exists_tag a.isNative U64.toLe
  obtain ⟨close, hclose, hclose'⟩ := exists_tag a.closeAuthority Bytes32.bytes
  have hreserve' : (optionBody (a.isNative.map U64.toLe) reserve).length = 8 := by
    rw [hnative]
    exact hreserve
  have hread : (tokenFields (shown key)).all (tokenPieces a agent reserve closer).flatten =
      .ok (.of key a) := by
    rw [Reader.all_eq_ok]
    simp only [tokenFields, number, take, finish, reads_key.bind_eq_ok, reads_B.bind_eq_ok,
      reads_I.bind_eq_ok, reads_Q.bind_eq_ok, (reads_take _).bind_eq_ok, Reader.finish_bind,
      Reader.pure_run]
    simp only [tokenPieces, hdelegate, hnat, hclose, List.flatten_cons, List.flatten_nil]
    refine ⟨_, a.mint, _, rfl, a.owner, _, rfl, ⟨a.amount, hamount⟩, _, rfl, delegate, _, rfl,
      ⟨_, optionKey_length hagent⟩, _, rfl, stateByte a.state, _, rfl, native, _, rfl,
      ⟨_, hreserve'⟩, _, rfl,
      ⟨a.delegatedAmount, hdelegated⟩, _, rfl, close, _, rfl,
      ⟨_, optionKey_length hcloser⟩, _, rfl, rfl, ?_, rfl⟩
    simp only [Token.of, hdelegate', hnat', hclose']
  have htag : ∀ {α : Type} (o : Option α), tagOf o = 0 ∨ tagOf o = 1 := fun o ↦ by
    cases o with
    | none => exact .inl rfl
    | some a => exact .inr rfl
  simp only [Snapshot.readToken, bind_eq_ok, require_eq_ok, pure_eq_ok, exists_const, Prod.exists]
  refine ⟨_, _, h.located, _, mapError_eq_ok.mpr hread, ⟨htag _, htag _⟩, ⟨?_, ?_⟩, rfl⟩
  · rw [Token.of, hstate]
    rfl
  · rw [Token.of, hnative]
    rfl

/-- A mint without authorities is read. -/
theorem Snapshot.Lists.mint {m : Mint} {q : Policy} (h : s.Lists "mint" key TOKEN data)
    (hm : PackedMint m data) (hq : q.mint = shown key) (hauthority : m.mintAuthority = none)
    (hinitialized : m.isInitialized = true) (hfreeze : m.freezeAuthority = none) :
    s.readMint q = .ok ((m.supply.val : ℤ), (m.decimals.toNat : ℤ)) := by
  obtain ⟨issuer, freezer, hissuer, hfreezer, rfl⟩ := hm
  simp only [Snapshot.readMint, bind_eq_ok, require_eq_ok, exists_const, Prod.exists]
  refine ⟨_, _, h.located, hq.symm, ?_⟩
  rw [Reader.all_eq_ok]
  simp only [mintFields, reads_B.bind_eq_ok, reads_I.bind_eq_ok, reads_Q.bind_eq_ok,
    (reads_take _).bind_eq_ok, Reader.check_bind, Reader.finish_bind, Reader.pure_run]
  simp only [mintPieces, hauthority, hinitialized, hfreeze, List.flatten_cons, List.flatten_nil]
  exact ⟨_, (0 : U32), _, rfl, rfl, ⟨issuer, hissuer⟩, _, rfl, m.supply, _, rfl, m.decimals, _, rfl,
    1, _, rfl, rfl, (0 : U32), _, rfl, rfl, ⟨freezer, hfreezer⟩, _, rfl, rfl, rfl, rfl⟩

/-! ## Registered keys -/

theorem registered_keys {keys : List Pubkey} (hlength : keys.length = 3) (hnodup : keys.Nodup)
    (hzero : ∀ k ∈ keys, k.bytes ≠ ZEROS) : registered (keys.map shown) = .ok true := by
  have hdistinct := hnodup.map shown_injective
  simp only [registered, pubkey_keys, bind_eq_ok, pure_eq_ok, Except.ok.injEq, exists_eq_left',
    decide_eq_true_eq, hdistinct.dedup, List.length_map, hlength, true_and]
  simpa using hzero

theorem not_mem_shown {k : Pubkey} {keys : List Pubkey} (h : k ∉ keys) : shown k ∉ keys.map shown :=
  fun hmem ↦ h ((List.mem_map_of_injective shown_injective).mp hmem)

/-! ## Pictures -/

/-- What a snapshot lists an account as. -/
inductive Content where
  | program (x : ProgramAccount)
  | token (a : TokenAccount)
  | mint (m : Mint)

def Content.holder : Content → String
  | program _ => PROGRAM
  | token _ => TOKEN
  | mint _ => TOKEN

/-- The data of an account, what an option left unused being zero. -/
def Content.bytes (chain : Chain) : Content → Bytes
  | program x => x.serialize chain
  | token a => (tokenPieces a ZEROS (List.replicate 8 0) ZEROS).flatten
  | mint m => (mintPieces m ZEROS ZEROS).flatten

/-- The ledger has the account at the key. -/
def Content.At (L : Ledger) (key : Pubkey) : Content → Prop
  | program x => L.program key = some x
  | token a => L.tokens.account key = some a ∧ a.amount < 2 ^ 64 ∧ a.delegatedAmount < 2 ^ 64
  | mint m => L.tokens.mint key = some m

structure Item where
  name : String
  key : Pubkey
  content : Content

def Item.view (chain : Chain) (e : Item) : AccountView where
  address := shown e.key
  owner := e.content.holder
  executable := false
  lamports := 1
  dataHex := hexEncode (e.content.bytes chain)

/-- A snapshot of some accounts. -/
def picture (chain : Chain) (items : List Item) (now : ℤ) : Snapshot where
  schema := SNAPSHOT_SCHEMA
  programId := PROGRAM
  scope := "SUPPLIED_RPC_RESPONSE"
  privateKeysSerialized := false
  slot := 0
  now
  accounts := Dict.ofList (items.map fun e ↦ (e.name, e.view chain))

section Pictures

variable {items : List Item} {now : ℤ} {L : Ledger}

theorem picture_entries (hnames : (items.map Item.name).Nodup) :
    (picture chain items now).accounts.entries = items.map fun e ↦ (e.name, e.view chain) := by
  refine Dict.ofList_entries ?_
  rwa [List.map_map]

theorem picture_lists (hnames : (items.map Item.name).Nodup) :
    (picture chain items now).Lists name key owner data ↔ ∃ c : Content,
      ⟨name, key, c⟩ ∈ items ∧ c.holder = owner ∧ c.bytes chain = data := by
  constructor
  · rintro ⟨a, ha, haddress, howner, -, hdata⟩
    rw [Dict.get?_eq_some, picture_entries hnames, List.mem_map] at ha
    obtain ⟨⟨_, key', c⟩, hmem, heq⟩ := ha
    obtain ⟨rfl, rfl⟩ := Prod.mk.inj heq
    obtain rfl : key' = key := shown_inj.mp haddress
    have hhex : fromHex? (hexEncode (c.bytes chain)).toList = some data := hdata
    rw [fromHex?_hexEncode] at hhex
    exact ⟨c, hmem, howner, Option.some.inj hhex⟩
  · rintro ⟨c, hmem, rfl, rfl⟩
    refine ⟨⟨Item.view chain ⟨name, key, c⟩, ?_, rfl, rfl, rfl, fromHex?_hexEncode _⟩⟩
    rw [Dict.get?_eq_some, picture_entries hnames, List.mem_map]
    exact ⟨_, hmem, rfl⟩

theorem serialize_length (x : ProgramAccount) : (x.serialize chain).length = x.width := by
  cases x with
  | preparation a => exact preparation_agrees.width a
  | policy a => exact policy_agrees.width a
  | vault a => exact vault_agrees.width a
  | approval a => exact approval_agrees.width a
  | change a => exact change_agrees.width a
  | withdrawal a => exact withdrawal_agrees.width a
  | withdrawalKey a => exact key_agrees.width a

/-- Accounts of the program are told apart by their data. -/
theorem ProgramAccount.serialize_injective :
    Function.Injective (ProgramAccount.serialize chain) := by
  intro x y h
  have hwidth := congrArg List.length h
  rw [serialize_length, serialize_length] at hwidth
  cases x <;> cases y <;> cases hwidth
  · exact congrArg _ (preparation_agrees.injective h)
  · exact congrArg _ (policy_agrees.injective h)
  · exact congrArg _ (vault_agrees.injective h)
  · exact congrArg _ (approval_agrees.injective h)
  · exact congrArg _ (change_agrees.injective h)
  · exact congrArg _ (withdrawal_agrees.injective h)
  · exact congrArg _ (key_agrees.injective h)

theorem optionTag_ne {α : Type} (a : α) (f : α → Bytes) :
    optionTag ((some a).map f) ≠ optionTag ((none : Option α).map f) := by
  change leBytes 4 1 ≠ leBytes 4 0
  decide

theorem option_inj {α : Type} {o o' : Option α} {f : α → Bytes} {x y : Bytes}
    (hf : Function.Injective f) (htag : optionTag (o.map f) = optionTag (o'.map f))
    (hbody : optionBody (o.map f) x = optionBody (o'.map f) y) : o = o' := by
  cases o with
  | none =>
    cases o' with
    | none => rfl
    | some b => exact absurd htag.symm (optionTag_ne b f)
  | some a =>
    cases o' with
    | none => exact absurd htag (optionTag_ne a f)
    | some b => exact congrArg some (hf hbody)

theorem bytes_injective : Function.Injective Bytes32.bytes := fun _ _ ↦ Bytes32.ext

theorem toLe_injective : Function.Injective U64.toLe := by
  intro a b h
  have hval := congrArg leNat h
  rw [U64.toLe, U64.toLe, leNat_leBytes a.isLt, leNat_leBytes b.isLt] at hval
  exact Fin.ext hval

/-- Token accounts are told apart by their data. -/
theorem packedToken_unique {a b : TokenAccount} (ha : PackedToken a data)
    (hb : PackedToken b data) : a = b := by
  obtain ⟨hamount, hdelegated, x, y, z, hx, hy, hz, rfl⟩ := ha
  obtain ⟨hamount', hdelegated', x', y', z', hx', hy', hz', heq⟩ := hb
  have hpieces : tokenPieces a x y z = tokenPieces b x' y' z' := List.eq_iff_flatten_eq.mpr
    ⟨heq, (Beneficiary.tokenPieces_widths hx hy hz).trans
      (Beneficiary.tokenPieces_widths hx' hy' hz').symm⟩
  simp only [tokenPieces, List.cons.injEq, and_true] at hpieces
  obtain ⟨hmint, howner, hbalance, htag, hbody, hstate, hnative, hreserve, hagent, hclose,
    hcloser⟩ := hpieces
  have hbalance := congrArg leNat hbalance
  have hagent := congrArg leNat hagent
  rw [leNat_leBytes hamount, leNat_leBytes hamount'] at hbalance
  rw [leNat_leBytes hdelegated, leNat_leBytes hdelegated'] at hagent
  have hstate : a.state = b.state := by
    cases ha : a.state <;> cases hb : b.state <;> simp [ha, hb, stateByte] at hstate ⊢
  have hdelegate := option_inj bytes_injective htag hbody
  have hnative := option_inj toLe_injective hnative hreserve
  have hclose := option_inj bytes_injective hclose hcloser
  have hmint := Bytes32.ext hmint
  have howner := Bytes32.ext howner
  cases a
  cases b
  simp_all

theorem mintPieces_widths {m : Mint} {x y : Bytes} (hx : x.length = 32) (hy : y.length = 32) :
    (mintPieces m x y).map List.length = [4, 32, 8, 1, 1, 4, 32] := by
  simp [mintPieces, optionTag, optionKey_length hx, optionKey_length hy, boolToLe]

/-- Mints are told apart by their data. -/
theorem packedMint_unique {a b : Mint} (ha : PackedMint a data) (hb : PackedMint b data) :
    a = b := by
  obtain ⟨x, y, hx, hy, rfl⟩ := ha
  obtain ⟨x', y', hx', hy', heq⟩ := hb
  have hpieces : mintPieces a x y = mintPieces b x' y' := List.eq_iff_flatten_eq.mpr
    ⟨heq, (mintPieces_widths hx hy).trans (mintPieces_widths hx' hy').symm⟩
  simp only [mintPieces, List.cons.injEq, and_true] at hpieces
  obtain ⟨htag, hissuer, hsupply, hdecimals, hinit, hfreeze, hfreezer⟩ := hpieces
  have hauthority := option_inj bytes_injective htag hissuer
  have hfreeze := option_inj bytes_injective hfreeze hfreezer
  have hsupply := toLe_injective hsupply
  have hdecimals : a.decimals = b.decimals := by simpa [U8.toLe] using hdecimals
  have hinit : a.isInitialized = b.isInitialized := by
    cases ha : a.isInitialized <;> cases hb : b.isInitialized <;>
      simp [ha, hb, boolToLe] at hinit ⊢
  cases a
  cases b
  simp_all

theorem packedToken_length {a : TokenAccount} (h : PackedToken a data) : data.length = 165 := by
  obtain ⟨-, -, x, y, z, hx, hy, hz, rfl⟩ := h
  rw [List.length_flatten, Beneficiary.tokenPieces_widths hx hy hz]
  rfl

theorem packedMint_length {m : Mint} (h : PackedMint m data) : data.length = 82 := by
  obtain ⟨x, y, hx, hy, rfl⟩ := h
  rw [List.length_flatten, mintPieces_widths hx hy]
  rfl

theorem Content.token_packed {a : TokenAccount} (hamount : a.amount < 2 ^ 64)
    (hdelegated : a.delegatedAmount < 2 ^ 64) :
    PackedToken a ((Content.token a).bytes chain) :=
  ⟨hamount, hdelegated, ZEROS, _, ZEROS, rfl, rfl, rfl, rfl⟩

theorem Content.mint_packed (m : Mint) : PackedMint m ((Content.mint m).bytes chain) :=
  ⟨ZEROS, ZEROS, rfl, rfl, rfl⟩

theorem PROGRAM_ne_TOKEN : PROGRAM ≠ TOKEN := by decide

/-- What is in a picture of a ledger is in the ledger. -/
theorem picture_shows (hnames : (items.map Item.name).Nodup)
    (hitems : ∀ e ∈ items, e.content.At L e.key)
    (happrovals : ∀ {key} {a : TreasuryApprovalV7}, L.program key = some (.approval a) →
      a.policy = P →
        ⟨"approval_" ++ toString (a.period.val : ℤ), key, .program (.approval a)⟩ ∈ items) :
    (picture chain items now).Shows chain L P where
  program h := by
    obtain ⟨c, hmem, howner, hdata⟩ := (picture_lists hnames).mp h
    have hat := hitems _ hmem
    cases c with
    | program y => rwa [← ProgramAccount.serialize_injective hdata]
    | token a => exact absurd howner.symm PROGRAM_ne_TOKEN
    | mint m => exact absurd howner.symm PROGRAM_ne_TOKEN
  token {_ key a _} h ha := by
    obtain ⟨c, hmem, howner, rfl⟩ := (picture_lists hnames).mp h
    have hat := hitems _ hmem
    cases c with
    | program y => exact absurd howner PROGRAM_ne_TOKEN
    | token b =>
      obtain ⟨hb, hamount, hdelegated⟩ := hat
      rwa [packedToken_unique ha (Content.token_packed hamount hdelegated)]
    | mint m =>
      have hlength := packedToken_length ha
      rw [packedMint_length (Content.mint_packed m)] at hlength
      exact absurd hlength (by decide)
  mint {_ key m _} h hm := by
    obtain ⟨c, hmem, howner, rfl⟩ := (picture_lists hnames).mp h
    have hat := hitems _ hmem
    cases c with
    | program y => exact absurd howner PROGRAM_ne_TOKEN
    | token b =>
      have hlength := packedMint_length hm
      rw [packedToken_length (Content.token_packed hat.2.1 hat.2.2)] at hlength
      exact absurd hlength (by decide)
    | mint m' => rwa [packedMint_unique hm (Content.mint_packed m')]
  approvals hstored hpolicy :=
    ⟨_, (picture_lists hnames).mpr ⟨_, happrovals hstored hpolicy, rfl, rfl⟩⟩

end Pictures

end FundingVaults.Verifier
