import FundingVaults.Lib.Anchor
import FundingVaults.Lib.Codec
import FundingVaults.Lib.Trace

/-!
# Platforms to execute on

A platform given by tables: the searches for its addresses, with the hashes that they pass over, and
the token program's transfer.  Other programs make transfers, none of them for a derived address.
`replay` executes transactions as a validator does, so that theorems about runs can be read on what
it computes.
-/

namespace FundingVaults.Anchor

variable {α ι ε : Type}

/-! ## Literals -/

theorem repeated_length (n : UInt8) : (List.replicate 32 n).length = 32 := List.length_replicate

/-- An address of thirty-two equal bytes. -/
def repeated (n : UInt8) : Pubkey := ⟨List.replicate 32 n, repeated_length n⟩

theorem spelled_length (n : ℕ) : (leBytes 32 n).reverse.length = 32 := by simp

/-- The address that a big-endian number spells. -/
def spelled (n : ℕ) : Pubkey := ⟨(leBytes 32 n).reverse, spelled_length n⟩

theorem clockAt_ge (x : UInt32) : -2 ^ 63 ≤ (x.toNat : ℤ) := by omega

theorem clockAt_lt (x : UInt32) : (x.toNat : ℤ) < 2 ^ 63 := by
  have := x.toNat_lt
  omega

/-- A time. -/
def clockAt (x : UInt32) : I64 := ⟨x.toNat, clockAt_ge x, clockAt_lt x⟩

/-! ## Searches for addresses -/

/-- A search for a derived address: the seeds it joins, the hashes of its bumps from `255` down that
are points of the curve, and the first that is none. -/
structure Search where
  seeds : Bytes
  program : Pubkey
  points : List Bytes32
  key : Pubkey

namespace Search

/-- What is hashed for a bump. -/
def preimage (seeds : Bytes) (bump : U8) (program : Pubkey) : Bytes :=
  seeds ++ [bump] ++ program.bytes ++ ascii "ProgramDerivedAddress"

theorem preimage_inj {seeds seeds' : Bytes} {bump bump' : U8} {program program' : Pubkey} :
    preimage seeds bump program = preimage seeds' bump' program' ↔
      seeds = seeds' ∧ bump = bump' ∧ program = program' := by
  refine ⟨fun h ↦ ?_, by rintro ⟨rfl, rfl, rfl⟩; rfl⟩
  have hprogram := List.append_inj_left' h rfl
  obtain ⟨hbump, hbytes⟩ := List.append_inj' hprogram (by rw [program.length_eq, program'.length_eq])
  obtain ⟨hseeds, hlast⟩ := List.append_inj' hbump rfl
  exact ⟨hseeds, (List.cons.inj hlast).1, Bytes32.ext hbytes⟩

variable (s : Search)

/-- The bump that is found. -/
def bump : U8 := .ofNat (255 - s.points.length)

/-- The hashes with what they are the hashes of. -/
def hashes : List (Bytes × Bytes32) :=
  (s.points ++ [s.key]).mapIdx fun i hash ↦ (preimage s.seeds (.ofNat (255 - i)) s.program, hash)

end Search

/-- The digest of nothing, which stands for what no table lists. -/
def unlisted : Bytes32 := spelled 0xe3b0c44298fc1c149afbf4c8996fb92427ae41e4649b934ca495991b7852b855

/-- A digest that is given by a table. -/
def tableHash (table : List (Bytes × Bytes32)) (data : Bytes) : Bytes32 :=
  (table.lookup data).getD unlisted

/-- The address and the bump that are found for seeds. -/
def searched (searches : List Search) (seeds : List Bytes) (program : Pubkey) :
    Pubkey × U8 :=
  ((searches.find? fun s ↦ s.seeds = seeds.flatten ∧ s.program = program).map fun s ↦
    (s.key, s.bump)).getD (unlisted, 255)

/-- The platform whose searches are listed, with further digests.  The search for seeds that are not
listed ends at its first hash. -/
def searchChain (searches : List Search) (digests : List (Bytes × Bytes32)) : Chain where
  sha256 := tableHash (searches.flatMap Search.hashes ++ digests)
  findProgramAddress := searched searches
  createProgramAddress seeds program :=
    match seeds.getLast? with
    | some [bump] =>
      if (searched searches seeds.dropLast program).2 = bump then
        some (searched searches seeds.dropLast program).1
      else none
    | _ => none
  create_find seeds program := by simp
  transferChecked := Tokens.transferChecked

theorem tableHash_of_mem {table : List (Bytes × Bytes32)} {hash : Bytes32} {data : Bytes}
    (hn : (table.map Prod.fst).Nodup) (h : (data, hash) ∈ table) :
    tableHash table data = hash := by
  obtain ⟨front, back, rfl⟩ := List.append_of_mem h
  rw [List.map_append, List.map_cons, List.nodup_append] at hn
  have hlookup : (front ++ (data, hash) :: back).lookup data = some hash := by
    refine List.lookup_eq_some_iff.mpr ⟨front, back, rfl, fun e he ↦ ?_⟩
    exact bne_iff_ne.mpr
      (hn.2.2 e.1 (List.mem_map_of_mem he) data List.mem_cons_self).symm
  rw [tableHash, hlookup, Option.getD_some]

theorem tableHash_of_not_mem {table : List (Bytes × Bytes32)} {data : Bytes}
    (h : data ∉ table.map Prod.fst) : tableHash table data = unlisted := by
  have hlookup : table.lookup data = none := by
    refine List.lookup_eq_none_iff.mpr fun e he ↦ bne_iff_ne.mpr fun heq ↦ ?_
    exact h (heq ▸ List.mem_map_of_mem he)
  rw [tableHash, hlookup, Option.getD_none]

theorem tableHash_mem (table : List (Bytes × Bytes32)) (data : Bytes) :
    tableHash table data ∈ unlisted :: table.map Prod.snd := by
  unfold tableHash
  cases h : table.lookup data with
  | none => exact List.mem_cons_self
  | some hash =>
    obtain ⟨front, back, rfl, -⟩ := List.lookup_eq_some_iff.mp h
    simp

/-- No preimage is listed twice, and the further digests are of nothing that a search hashes. -/
structure Tabled (searches : List Search) (digests : List (Bytes × Bytes32)) : Prop where
  unique : ((searches.flatMap Search.hashes ++ digests).map Prod.fst).Nodup
  apart : ∀ e ∈ digests, ¬ ascii "ProgramDerivedAddress" <:+ e.1
  short : ∀ s ∈ searches, s.points.length < 256

section Searches

variable {searches : List Search} {digests : List (Bytes × Bytes32)} {id key : Pubkey}
  {s : Search}

theorem Search.mem_hashes {e : Bytes × Bytes32} : e ∈ s.hashes ↔ ∃ i,
    (s.points ++ [s.key])[i]? = some e.2 ∧ e.1 = preimage s.seeds (.ofNat (255 - i)) s.program := by
  rw [hashes, List.mem_mapIdx]
  constructor
  · rintro ⟨i, hi, rfl⟩
    exact ⟨i, List.getElem?_eq_getElem hi, rfl⟩
  · rintro ⟨i, hi, he⟩
    obtain ⟨hlt, hi⟩ := List.getElem?_eq_some_iff.mp hi
    exact ⟨i, hlt, Prod.ext he.symm hi⟩

/-- The hash of a listed bump. -/
theorem Tabled.hash (h : Tabled searches digests) (hs : s ∈ searches) {i : ℕ} {hash : Bytes32}
    (hi : (s.points ++ [s.key])[i]? = some hash) :
    (searchChain searches digests).sha256
      (Search.preimage s.seeds (.ofNat (255 - i)) s.program) = hash :=
  tableHash_of_mem h.unique (List.mem_append_left _
    (List.mem_flatMap.mpr ⟨s, hs, Search.mem_hashes.mpr ⟨i, hi, rfl⟩⟩))

/-- What the platform finds is the hash of the bump, and the hashes above it are listed points. -/
theorem Tabled.found (h : Tabled searches digests) (seeds : List Bytes) (program : Pubkey)
    {key : Pubkey} {bump : U8}
    (hfound : (searchChain searches digests).findProgramAddress seeds program = (key, bump)) :
    key ∈ unlisted :: searches.map Search.key ∧
      (searchChain searches digests).sha256
        (Search.preimage seeds.flatten bump program) = key ∧
      ∀ c, bump < c → ∃ s ∈ searches, (searchChain searches digests).sha256
        (Search.preimage seeds.flatten c program) ∈ s.points := by
  change searched searches seeds program = _ at hfound
  unfold searched at hfound
  cases hfind : searches.find? fun s ↦ s.seeds = seeds.flatten ∧ s.program = program with
  | none =>
    rw [hfind] at hfound
    obtain ⟨rfl, rfl⟩ := Prod.mk.inj hfound
    refine ⟨List.mem_cons_self, tableHash_of_not_mem fun hmem ↦ ?_, fun c hc ↦ ?_⟩
    · -- A listed preimage is that of a listed search, or is no preimage of a search.
      obtain ⟨e, he, hpre⟩ := List.mem_map.mp hmem
      rcases List.mem_append.mp he with he | he
      · obtain ⟨s, hs, he⟩ := List.mem_flatMap.mp he
        obtain ⟨i, -, he⟩ := Search.mem_hashes.mp he
        obtain ⟨hseeds, -, hprogram⟩ := Search.preimage_inj.mp (he.symm.trans hpre)
        simpa [hseeds, hprogram] using List.find?_eq_none.mp hfind s hs
      · refine h.apart e he ?_
        rw [hpre]
        exact List.suffix_append _ _
    · have hlt : 255 < c.toNat := UInt8.lt_iff_toNat_lt.mp hc
      exact absurd c.toNat_lt (by omega)
  | some s =>
    rw [hfind] at hfound
    obtain ⟨rfl, rfl⟩ := Prod.mk.inj hfound
    have hs := List.mem_of_find?_eq_some hfind
    have hkey := List.find?_some hfind
    simp only [decide_eq_true_eq] at hkey
    obtain ⟨hseeds, rfl⟩ := hkey
    rw [← hseeds]
    refine ⟨List.mem_cons_of_mem _ (List.mem_map_of_mem hs), h.hash hs (by simp), fun c hc ↦ ?_⟩
    have hshort := h.short s hs
    have hbump : 255 - s.points.length < c.toNat := by
      have hlt : s.bump.toNat < c.toNat := UInt8.lt_iff_toNat_lt.mp hc
      rwa [Search.bump, UInt8.toNat_ofNat', Nat.mod_eq_of_lt (by omega)] at hlt
    have hc' := c.toNat_lt
    have hi : 255 - c.toNat < s.points.length := by omega
    have hc : c = .ofNat (255 - (255 - c.toNat)) := by
      rw [Nat.sub_sub_self (by omega), UInt8.ofNat_toNat]
    refine ⟨s, hs, ?_⟩
    have hpoint : (s.points ++ [s.key])[255 - c.toNat]? = some s.points[255 - c.toNat] := by
      rw [List.getElem?_append_left hi, List.getElem?_eq_getElem hi]
    rw [hc, h.hash hs hpoint]
    exact List.getElem_mem _

theorem searched_mem (seeds : List Bytes) (program : Pubkey) :
    (searched searches seeds program).1 ∈ unlisted :: searches.map Search.key := by
  unfold searched
  cases h : searches.find? fun s ↦ s.seeds = seeds.flatten ∧ s.program = program with
  | none => exact List.mem_cons_self
  | some s => exact List.mem_cons_of_mem _ (List.mem_map_of_mem (List.mem_of_find?_eq_some h))

/-- Only the listed keys are derived. -/
theorem programAddress_mem (h : ProgramAddress (searchChain searches digests) id key) :
    key ∈ unlisted :: searches.map Search.key := by
  obtain ⟨seeds, h⟩ := h
  simp only [searchChain] at h
  split at h
  · simp only [Option.ite_none_right_eq_some, Option.some.injEq] at h
    rw [← h.2]
    exact searched_mem _ _
  · exact absurd h (by simp)

end Searches

/-! ## Other programs -/

/-- Other programs make transfers that a derived address has not authorized. -/
def market (chain : Chain) (id : Pubkey) (L : Ledger α) (tokens : Tokens) : Prop :=
  ∃ t : TransferChecked, L.tokens.transferChecked t = some tokens ∧
    ¬ ProgramAddress chain id t.authority

theorem market_respects {chain : Chain} {id : Pubkey} {L : Ledger α} {tokens : Tokens}
    (h : market chain id L tokens) : Respects (ProgramAddress chain id) L.tokens tokens := by
  obtain ⟨t, ht, hauth⟩ := h
  refine ⟨fun hown _ hheld ↦ hheld.transfer ht fun heq ↦ hauth (heq ▸ hown), ?_⟩
  intro mint m hm hi hf
  rw [Tokens.transferChecked_mint ht]
  exact ⟨m, hm, hi, hf, rfl⟩

/-! ## Replay -/

/-- The accepted transactions, and the ledger they lead to. -/
def replay (P : Program α ι ε) : Ledger α → List (Tx ι) → List (Event α ι) × Ledger α :=
  replayed P.process .accepted

variable {P : Program α ι ε} {searches : List Search} {digests : List (Bytes × Bytes32)}
  {id : Pubkey}

theorem replay_run (P : Program α ι ε) (L : Ledger α) (txs : List (Tx ι)) :
    Run P L (replay P L txs).1 (replay P L txs).2 :=
  replayed_induction .refl (fun _ hp h ↦ ((Run.refl _).accepted hp).append h) fun hp h ↦
    ((Run.refl _).rejected hp).append h

/-- Every transaction of a replay is one of the list. -/
theorem tx_of_replay {e : Event α ι} {L : Ledger α} {txs : List (Tx ι)}
    (h : e ∈ (replay P L txs).1) : ∃ tx ∈ txs, e.tx? = some tx := by
  obtain ⟨_, tx, _, hmem, rfl⟩ := mem_replayed h
  exact ⟨tx, hmem, rfl⟩

/-- The signers of a replay are no derived addresses if those of the list are none. -/
theorem replay_unsigned {L : Ledger α} {txs : List (Tx ι)}
    (h : ∀ tx ∈ txs, ∀ k ∈ tx.signers, k ∉ unlisted :: searches.map Search.key) :
    Unsigned (searchChain searches digests) id (replay P L txs).1 := by
  intro e he tx htx k hk hp
  obtain ⟨tx', hmem, htx'⟩ := tx_of_replay he
  obtain rfl := Option.some.inj (htx.symm.trans htx')
  exact h tx hmem k hk (programAddress_mem hp)

/-- The times of a replay are among those of the list, in its order. -/
theorem times_replay (P : Program α ι ε) (L : Ledger α) (txs : List (Tx ι)) :
    (times (replay P L txs).1).Sublist (txs.map Tx.now) := by
  induction txs generalizing L with
  | nil => exact List.Sublist.slnil
  | cons tx txs ih =>
    unfold replay replayed
    split
    · next L' hp => exact (ih L').cons_cons tx.now
    · exact (ih L).cons _

theorem replay_clocked {L : Ledger α} {txs : List (Tx ι)} (h₀ : ∀ t ∈ txs.map Tx.now, (0 : I64) ≤ t)
    (hs : (txs.map Tx.now).Pairwise (· ≤ ·)) : Clocked (replay P L txs).1 where
  nonneg t ht := h₀ t ((times_replay P L txs).subset ht)
  sorted := hs.sublist (times_replay P L txs)

end FundingVaults.Anchor
