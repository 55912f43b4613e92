import FundingVaults.LaunchV7.Replay
import FundingVaults.Verifier.Acceptance
import FundingVaults.Verifier.Curve
import FundingVaults.Verifier.Discovery

/-!
# What an export shows

An export that ends is one consistent state with all the accounts that this very state calls for.
The accounts of the snapshot are those of one response whose clock has the slot of its context; the
accounts that were read earlier only selected what to read, and nothing that was derived from them
has changed.
-/

namespace FundingVaults.Verifier

variable {chain : Chain}

/-! ## Reads -/

/-- The account is what a response says of its address. -/
structure Served (address : String) (raw : Json) (a : AccountView) : Prop where
  address : a.address = address
  owner : raw.get "owner" = .str a.owner
  canonical : Verifier.canonical (.str a.owner) = .ok a.owner
  executable : raw.get "executable" = .bool a.executable
  lamports : raw.get "lamports" = .int a.lamports
  positive : 0 < a.lamports
  fits : a.lamports < 2 ^ 64
  data : ∃ data, raw.get "data" = .arr [.str (base64Encode data), .str "base64"] ∧
    data.length ≤ 2000000 ∧ a.dataHex = hexEncode data

/-- The clock of a response has the slot of its context. -/
def Clocked (s : Snapshot) : Prop :=
  ∃ c data, s.accounts.get? "clock" = some c ∧ c.owner = SYSVAR ∧ c.executable = false ∧
    c.dataHex = hexEncode data ∧ data.length = 40 ∧ s.slot = leNat (data.take 8) ∧
      s.now = Format.q.unpack (data.drop 32)

/-- The snapshot is what a response says of the addresses. -/
structure Answer (addresses : Dict String String) (minimum : ℤ) (response : Json)
    (s : Snapshot) : Prop where
  slot : (response.get "context").get "slot" = .int s.slot
  minimum_le : minimum ≤ s.slot
  slot_lt : s.slot < 2 ^ 64
  clock : Clocked s
  accounts : ∃ values, response.get "value" = .arr values ∧
    List.Forall₂ (fun (x : (String × String) × Json) a ↦ x.1.1 = a.1 ∧ Served x.1.2 x.2 a.2)
      (addresses.entries.zip values) s.accounts.entries
  names : s.accounts.keys = addresses.keys

/-- The snapshot is what one call returned. -/
def Read (client : Client) (call : ℕ) (minimum : ℤ) (s : Snapshot) : Prop :=
  ∃ addresses response, client call (.getMultipleAccounts addresses.values minimum) = .ok response ∧
    Answer addresses minimum response s

/-- The names and addresses of a snapshot. -/
def Snapshot.listed (s : Snapshot) : List (String × String) :=
  s.accounts.entries.map fun e ↦ (e.1, e.2.address)

section Json

variable {j : Json} {key : String}

theorem asStr?_eq_some {s : String} : j.asStr? = some s ↔ j = .str s := by
  cases j <;> simp [Json.asStr?]

theorem asBool?_eq_some {b : Bool} : j.asBool? = some b ↔ j = .bool b := by
  cases j <;> simp [Json.asBool?]

theorem asInt?_eq_some {n : ℤ} : j.asInt? = some n ↔ j = .int n := by
  cases j <;> simp [Json.asInt?]

theorem asArr?_eq_some {xs : List Json} : j.asArr? = some xs ↔ j = .arr xs := by
  cases j <;> simp [Json.asArr?]

/-- Only an object has members. -/
theorem exists_asObj? (key : String) (h : j.get key ≠ .null) : ∃ ms, j.asObj? = some ms := by
  cases j with
  | obj ms => exact ⟨ms, rfl⟩
  | _ => exact absurd rfl h

end Json

theorem asStr?_of_canonical {j : Json} {s : String} (h : canonical j = .ok s) :
    j.asStr? = some s := by
  simp only [canonical, bind_eq_ok, okOr_eq_ok, require_eq_ok, pure_eq_ok, exists_const] at h
  obtain ⟨text, htext, -, -, -, -, rfl⟩ := h
  exact htext

theorem encodedData?_eq_some {j : Json} {text : String} :
    encodedData? j = some text ↔ j = .arr [.str text, .str "base64"] ∧ text.length ≤ 2666668 := by
  constructor
  · intro h
    unfold encodedData? at h
    split at h
    · next text' encoding =>
      rw [Option.ite_none_right_eq_some, Option.some.injEq] at h
      obtain ⟨⟨rfl, hlen⟩, rfl⟩ := h
      exact ⟨rfl, hlen⟩
    · exact absurd h (by simp)
  · rintro ⟨rfl, hlen⟩
    exact if_pos ⟨rfl, hlen⟩

/-- The text of an account is canonical, and an account of at most this size fits the text. -/
theorem readAccount_eq_ok {address : String} {raw : Json} {a : AccountView} :
    readAccount address raw = .ok a ↔ Served address raw a := by
  simp only [readAccount, bind_eq_ok, okOr_eq_ok, require_eq_ok, pure_eq_ok, exists_const,
    asBool?_eq_some, asInt?_eq_some, encodedData?_eq_some]
  constructor
  · rintro ⟨_, hobj, owner, howner, executable, hexec, lamports, hlamports, ⟨hpos, hfits⟩, text,
      ⟨hdata, -⟩, data, -, ⟨hlen, rfl⟩, rfl⟩
    have hstr := asStr?_eq_some.mp (asStr?_of_canonical howner)
    exact ⟨rfl, hstr, hstr ▸ howner, hexec, hlamports, hpos, hfits, data, hdata, hlen, rfl⟩
  · rintro ⟨rfl, howner, hcanonical, hexec, hlamports, hpos, hfits, data, hdata, hlen, hhex⟩
    obtain ⟨ms, hobj⟩ := exists_asObj? (j := raw) "owner" (by simp [howner])
    refine ⟨ms, hobj, a.owner, howner ▸ hcanonical, _, hexec, _, hlamports, ⟨hpos, hfits⟩, _,
      ⟨hdata, ?_⟩, data, base64Decode?_encode data, ⟨hlen, rfl⟩, ?_⟩
    · rw [base64Encode_length]
      omega
    · rw [← hhex]

theorem checkAddresses_eq_ok {addresses : Dict String String} {u : Unit} :
    checkAddresses addresses = .ok u ↔ (1 ≤ addresses.length ∧ addresses.length ≤ MAX_ACCOUNTS) ∧
      addresses.values.Nodup ∧ addresses.get? "clock" = some CLOCK := by
  simp only [checkAddresses, bind_eq_ok, require_eq_ok, exists_const]

theorem readEntry_eq_ok {x : (String × String) × Json} {e : String × AccountView} :
    readEntry x = .ok e ↔ x.1.1 = e.1 ∧ Served x.1.2 x.2 e.2 := by
  simp only [readEntry, bind_eq_ok, readAccount_eq_ok, pure_eq_ok]
  constructor
  · rintro ⟨a, ha, rfl⟩
    exact ⟨rfl, ha⟩
  · rintro ⟨hname, ha⟩
    exact ⟨e.2, ha, Prod.ext hname rfl⟩

theorem readEntry_listed {x : (String × String) × Json} {e : String × AccountView}
    (h : readEntry x = .ok e) : (e.1, e.2.address) = x.1 := by
  obtain ⟨hname, hserved⟩ := readEntry_eq_ok.mp h
  rw [← hname, hserved.address]

theorem readAccounts_spec {client : Client} {call : ℕ} {addresses : Dict String String} {minimum : ℤ}
    {s : Snapshot} (h : readAccounts client call addresses minimum = .ok s) :
    ∃ response, client call (.getMultipleAccounts addresses.values minimum) = .ok response ∧
      Answer addresses minimum response s ∧ s.listed = addresses.entries := by
  simp only [readAccounts, bind_eq_ok, okOr_eq_ok, require_eq_ok, pure_eq_ok, exists_const,
    asInt?_eq_some, asArr?_eq_some] at h
  obtain ⟨_, -, response, hresponse, _, -, _, -, slot, hslot, ⟨hmin, hlt⟩, values, hvalues, hlen,
    entries, hentries, clock, hclock, data, hdata, ⟨howner, hexec, hwidth, htime⟩, rfl⟩ := h
  have hread : List.Forall₂ (fun x e ↦ x.1.1 = e.1 ∧ Served x.1.2 x.2 e.2)
      (addresses.entries.zip values) entries :=
    (mapM_eq_ok.mp hentries).imp fun _ _ ↦ readEntry_eq_ok.mp
  have hpairs : entries.map (fun e ↦ (e.1, e.2.address)) = addresses.entries :=
    (map_of_mapM hentries readEntry_listed).trans (List.map_fst_zip hlen.ge)
  have hkeys : entries.map Prod.fst = addresses.keys := by
    rw [Dict.keys, ← hpairs, List.map_map]
    rfl
  have hdict : (Dict.ofList entries).entries = entries :=
    Dict.ofList_entries (by rw [hkeys]; exact addresses.nodup)
  refine ⟨response, hresponse, ⟨hslot, hmin, hlt, ?_, ⟨values, hvalues, ?_⟩, ?_⟩, ?_⟩
  · -- The clock is one of the accounts, so its digits are those of its bytes.
    have hmem := Dict.get?_eq_some.mp hclock
    rw [hdict] at hmem
    obtain ⟨x, -, hx⟩ := exists_of_mapM hentries hmem
    obtain ⟨bytes, -, -, hbytes⟩ := (readEntry_eq_ok.mp hx).2.data
    dsimp only at hbytes
    rw [hbytes, fromHex?_hexEncode] at hdata
    obtain rfl := Option.some.inj hdata
    refine ⟨clock, bytes, hclock, howner, hexec, hbytes, hwidth, htime.symm, ?_⟩
    rw [slice, List.take_of_length_le (by simp [hwidth])]
  · rwa [hdict]
  · rw [Dict.keys, hdict, hkeys]
  · rw [Snapshot.listed, hdict, hpairs]

/-! ## Names -/

/-- The names that every manifest gives. -/
def fixedNames : List String :=
  ["policy", "mint", "program", "program_data", "clock", "founder_vault", "founder_token",
    "treasury_vault", "treasury_token", "preparation"]

/-- The names of the external accounts, when there are some number of founder destinations. -/
def externalNames (count : ℕ) : List String :=
  "source" :: "treasury_destination" :: (List.range count).map founderDestination

/-- The names that a manifest can give. -/
def manifestNames : List String := fixedNames ++ externalNames 8

theorem externalNames_subset : ∀ count ≤ 8, externalNames count ⊆ externalNames 8 := by
  decide

theorem manifestNames_nodup : manifestNames.Nodup := by decide

/-- The labels of the accounts that the history lists. -/
def historyLabels : List String := ["change_", "withdrawal_", "approval_"]

theorem manifest_not_discovered : ∀ name ∈ manifestNames, ∀ label ∈ "key_" :: historyLabels,
    startsWith name label = false := by
  decide

theorem history_not_key {name label : String} (hl : label ∈ historyLabels)
    (h : startsWith name label) : startsWith name "key_" = false := by
  have hall : ∀ l ∈ historyLabels, Apart l "key_" := by decide
  by_contra hkey
  exact hall label hl (startsWith_agree h (by simpa using hkey))

theorem keysAre_eq_true {members : List (String × Json)} {names : List String} :
    keysAre members names = true ↔
      members.map Prod.fst ⊆ names ∧ names ⊆ members.map Prod.fst := by
  rw [keysAre, Bool.and_eq_true, decide_eq_true_iff, decide_eq_true_iff]

theorem externalNames_nodup {count : ℕ} (h : count ≤ 8) : (externalNames count).Nodup := by
  have hall : (externalNames 8).Nodup := (List.nodup_append.mp manifestNames_nodup).2.1
  refine hall.sublist ?_
  exact (((List.range_sublist.mpr h).map founderDestination).cons_cons _).cons_cons _

theorem externalAccounts_names {manifest : Json} {external : List (String × String)}
    (h : externalAccounts manifest = .ok external) :
    (external.map Prod.fst).Nodup ∧ external.map Prod.fst ⊆ externalNames 8 := by
  simp only [externalAccounts, bind_eq_ok, okOr_eq_ok, require_eq_ok, exists_const,
    keysAre_eq_true] at h
  obtain ⟨members, -, ⟨-, hle, hsub, hsup⟩, hmap⟩ := h
  have hkeys : external.map Prod.fst = members.map Prod.fst := by
    refine map_of_mapM hmap fun hx ↦ ?_
    simp only [bind_eq_ok, pure_eq_ok] at hx
    obtain ⟨_, -, rfl⟩ := hx
    rfl
  rw [hkeys]
  have hnodup := externalNames_nodup hle
  have hperm : (externalNames (members.length - 2)).Perm (members.map Prod.fst) := by
    refine (List.subperm_of_subset hnodup hsup).perm_of_length_le ?_
    simp only [externalNames, List.length_cons, List.length_map, List.length_range]
    omega
  exact ⟨hperm.nodup hnodup, List.Subset.trans hsub (externalNames_subset _ hle)⟩

/-- The addresses of a manifest are the fixed ones and the external ones. -/
theorem manifest_entries {fixed external : List (String × String)}
    (hf : fixed.map Prod.fst = fixedNames) (hn : (external.map Prod.fst).Nodup)
    (hs : external.map Prod.fst ⊆ externalNames 8) :
    ((Dict.ofList fixed).update external).entries = fixed ++ external := by
  obtain ⟨hfixed, -, hdisjoint⟩ := List.nodup_append.mp manifestNames_nodup
  have hbase : (Dict.ofList fixed).entries = fixed := Dict.ofList_entries (hf ▸ hfixed)
  rw [Dict.update_entries, hbase]
  rw [Dict.keys, hbase, hf, List.nodup_append]
  exact ⟨hfixed, hn, fun name hname name' hname' ↦ hdisjoint name hname name' (hs hname')⟩

/-- The addresses of a manifest: those that it expects or gives, and those that are derived from
them. -/
structure Fixed (chain : Chain) (manifest : Json) (addresses : Dict String String) : Prop where
  entries : ∃ policy mint programData founderVault founderToken treasuryVault treasuryToken
      preparation external, addresses.entries = [("policy", policy), ("mint", mint),
        ("program", PROGRAM), ("program_data", programData), ("clock", CLOCK),
        ("founder_vault", founderVault), ("founder_token", founderToken),
        ("treasury_vault", treasuryVault), ("treasury_token", treasuryToken),
        ("preparation", preparation)] ++ external ∧
      ((manifest.get "expected").get "policy").asStr? = some policy ∧
      ((manifest.get "expected").get "mint").asStr? = some mint ∧
      (∃ members, (manifest.get "external_accounts").asObj? = some members ∧
        members.map (fun m ↦ (m.1, m.2.asStr?)) = external.map fun e ↦ (e.1, some e.2)) ∧
      ∃ program key identity founderKey treasuryKey, pubkey PROGRAM = .ok program ∧
        pubkey policy = .ok key ∧
        expectedHash (manifest.get "expected") "identity_sha256" = .ok identity ∧
        pubkey founderVault = .ok founderKey ∧ pubkey treasuryVault = .ok treasuryKey ∧
        pda chain [ascii "launch-v7-policy", identity] PROGRAM = .ok policy ∧
        pda chain [program] LOADER = .ok programData ∧
        pda chain [ascii "launch-v7-vault", key, [0]] PROGRAM = .ok founderVault ∧
        pda chain [ascii "launch-v7-token", founderKey] PROGRAM = .ok founderToken ∧
        pda chain [ascii "launch-v7-vault", key, [1]] PROGRAM = .ok treasuryVault ∧
        pda chain [ascii "launch-v7-token", treasuryKey] PROGRAM = .ok treasuryToken ∧
        pda chain [ascii "launch-v7-preparation", identity] PROGRAM = .ok preparation

theorem externalAccounts_members {manifest : Json} {external : List (String × String)}
    (h : externalAccounts manifest = .ok external) :
    ∃ members, (manifest.get "external_accounts").asObj? = some members ∧
      members.map (fun m ↦ (m.1, m.2.asStr?)) = external.map fun e ↦ (e.1, some e.2) := by
  simp only [externalAccounts, bind_eq_ok, okOr_eq_ok, require_eq_ok, exists_const] at h
  obtain ⟨members, hmembers, -, hmap⟩ := h
  refine ⟨members, hmembers, (map_of_mapM hmap fun hx ↦ ?_).symm⟩
  simp only [bind_eq_ok, pure_eq_ok] at hx
  obtain ⟨value, hvalue, rfl⟩ := hx
  rw [asStr?_of_canonical hvalue]

theorem validateManifest_spec {manifest : Json} {addresses : Dict String String}
    (h : validateManifest chain manifest = .ok addresses) :
    addresses.keys ⊆ manifestNames ∧
      addresses.get? "policy" = ((manifest.get "expected").get "policy").asStr? ∧
      Fixed chain manifest addresses := by
  simp only [validateManifest, bind_eq_ok, okOr_eq_ok, require_eq_ok, exists_const, pure_eq_ok] at h
  obtain ⟨_, -, -, -, _, -, -, _, -, policy, hpolicy, mint, hmint, -, identity, hidentity, _, -,
    _, hderived, rfl, external, hexternal, _, -, policyKey, hkey, program, hprogram, programData,
    hdata, founderVault, hfounder, founderKey, hfounderKey, founderToken, hfounderToken,
    treasuryVault, htreasury, treasuryKey, htreasuryKey, treasuryToken, htreasuryToken,
    preparation, hpreparation, _, -, rfl⟩ := h
  obtain ⟨hnodup, hsub⟩ := externalAccounts_names hexternal
  have hentries : ∀ fixed : List (String × String), fixed.map Prod.fst = fixedNames →
      ((Dict.ofList fixed).update external).entries = fixed ++ external :=
    fun _ hf ↦ manifest_entries hf hnodup hsub
  have hexpected := asStr?_of_canonical hpolicy
  refine ⟨?_, ?_, ⟨policy, mint, programData, founderVault, founderToken, treasuryVault,
    treasuryToken, preparation, external, hentries _ rfl, hexpected, asStr?_of_canonical hmint,
    externalAccounts_members hexternal, program, policyKey, identity, founderKey, treasuryKey,
    hprogram, hkey, hidentity, hfounderKey, htreasuryKey, hderived, hdata, hfounder, hfounderToken,
    htreasury, htreasuryToken, hpreparation⟩⟩
  · rw [Dict.keys, hentries _ rfl, List.map_append]
    exact List.append_subset.mpr
      ⟨List.subset_append_left _ _, List.Subset.trans hsub (List.subset_append_right _ _)⟩
  · rw [hexpected, Dict.get?_eq_some, hentries _ rfl]
    exact List.mem_append_left _ List.mem_cons_self

/-! ## Histories and keys -/

theorem HistorySeeds.label {p : PolicyView} {periods : List ℤ} {key : Bytes} {name : String}
    {seeds : List Bytes} (h : HistorySeeds p periods key name seeds) :
    ∃ label ∈ historyLabels, startsWith name label := by
  cases h with
  | change => exact ⟨_, by simp [historyLabels], startsWith_append "change_" _⟩
  | withdrawal =>
    refine ⟨"withdrawal_", by simp [historyLabels], ?_⟩
    rw [String.append_assoc, String.append_assoc]
    exact startsWith_append _ _
  | approval => exact ⟨_, by simp [historyLabels], startsWith_append "approval_" _⟩

theorem approvalPeriods_spec {manifest : Json} {periods : List ℤ}
    (h : approvalPeriods manifest = .ok periods) : periods.Nodup ∧ ∀ n ∈ periods, 0 ≤ n := by
  simp only [approvalPeriods, bind_eq_ok, okOr_eq_ok, require_eq_ok, pure_eq_ok, exists_const] at h
  obtain ⟨_, -, -, _, -, ⟨hrange, hsorted⟩, rfl⟩ := h
  exact ⟨hsorted ▸ sortedSet_nodup _, fun n hn ↦ (hrange n hn).1⟩

/-! ## What has not changed -/

section Unchanged

variable {s s' : Snapshot} {name : String}

theorem unchanged_core {names : List String} (h : unchanged s s' names = .ok ()) :
    ∀ name ∈ names, core s name = core s' name := by
  simp only [unchanged, bind_eq_ok, pure_eq_ok] at h
  obtain ⟨us, hus, -⟩ := h
  intro name hname
  obtain ⟨u, -, hu⟩ := ok_of_mapM hus hname
  simp only [bind_eq_ok, require_eq_ok] at hu
  obtain ⟨b, hb, a, ha, rfl⟩ := hu
  rw [hb, ha]

/-- An account is read by its address, its owner and its data. -/
theorem located_eq (s : Snapshot) (name owner : String) :
    s.located name owner = (do
      let c ← core s name
      let decoded ← pubkey c.1
      require (base58Encode decoded = c.1) "NONCANONICAL_KEY"
      require (c.2.1 = owner ∧ c.2.2.1 = false) "ACCOUNT_OWNER_OR_EXECUTABLE"
      let data ← okOr (fromHex? c.2.2.2.toList) "non-hexadecimal number found"
      pure (c.1, data)) := by
  unfold Snapshot.located core
  cases s.accounts.get? name <;> rfl

theorem located_congr (h : core s name = core s' name) (owner : String) :
    s.located name owner = s'.located name owner := by
  rw [located_eq, located_eq, h]

theorem account_congr (h : core s name = core s' name) (owner typename : String) :
    s.account chain name owner typename = s'.account chain name owner typename := by
  rw [Snapshot.account, Snapshot.account, located_congr h]

theorem readPolicy_congr (h : core s "policy" = core s' "policy") :
    s.readPolicy chain = s'.readPolicy chain := by
  rw [Snapshot.readPolicy, Snapshot.readPolicy, located_congr h]

theorem subjectOf_congr (h : core s name = core s' name) :
    subjectOf chain s name = subjectOf chain s' name := by
  simp only [subjectOf, subject, account_congr h]

theorem keyAddresses_congr {history : Dict String String} {policy : String}
    (h : ∀ name ∈ history.keys, core s name = core s' name) :
    keyAddresses chain s history policy = keyAddresses chain s' history policy := by
  rw [keyAddresses, keyAddresses, mapM_congr fun name hname ↦ subjectOf_congr (h name hname)]

end Unchanged

/-! ## Exports -/

section Export

variable {V : Type} {verifyGraph : Snapshot → Except String V} {dumps : Json → Bytes}
  {client : Client} {manifest : Json} {minContextSlot : ℤ} {r : Observation V}

/-- What the snapshot calls for: the addresses of the manifest, the history of its own policy, whose
key is `key`, and the records of the keys of its own proposals and approvals. -/
structure Calls (chain : Chain) (manifest : Json) (s : Snapshot) (p : PolicyView)
    (periods : List ℤ) (key : Bytes) (addresses history keys : Dict String String) : Prop where
  validated : validateManifest chain manifest = .ok addresses
  fixed : Fixed chain manifest addresses
  policy : s.readPolicy chain = .ok p
  key_eq : pubkey p.address = .ok key
  approved : approvalPeriods manifest = .ok periods
  discovered : historyAddresses chain p periods = .ok history
  histories : Addressed chain (HistorySeeds p periods key) history.entries
  named : keyAddresses chain s history p.address = .ok keys
  records : Keyed chain s p periods key keys.entries

/-- The snapshot lists the accounts that it calls for itself, and no others. -/
structure Closed (chain : Chain) (manifest : Json) (s : Snapshot) : Prop where
  calls : ∃ p periods key addresses history keys,
    Calls chain manifest s p periods key addresses history keys ∧
      ∀ e, e ∈ s.listed ↔ e ∈ addresses.entries ∨ e ∈ history.entries ∨ e ∈ keys.entries
  names : (s.listed.map Prod.fst).Nodup
  addresses : (s.listed.map Prod.snd).Nodup
  count : s.listed.length ≤ 100

/-- The snapshot is one of three reads in the order of their slots. -/
structure Consistent (chain : Chain) (client : Client) (manifest : Json) (minContextSlot : ℤ)
    (r : Observation V) : Prop where
  reads : ∃ first discovery, Read client 2 minContextSlot first ∧
    Read client 3 first.slot discovery ∧ Read client 4 discovery.slot r.snapshot ∧
    minContextSlot ≤ first.slot ∧ first.slot ≤ discovery.slot ∧
    discovery.slot ≤ r.snapshot.slot ∧
    r.provenance.discoverySlots = [first.slot, discovery.slot] ∧
    r.provenance.contextSlot = r.snapshot.slot
  closed : Closed chain manifest r.snapshot

theorem bindIdentity_spec {s : Snapshot} {expected : Json} {p : PolicyView}
    (h : bindIdentity chain s expected = .ok p) :
    s.readPolicy chain = .ok p ∧ (expected.get "policy").asStr? = some p.address := by
  simp only [bindIdentity, bind_eq_ok, require_eq_ok, exists_const, pure_eq_ok] at h
  obtain ⟨p, hp, ⟨haddress, -⟩, rfl⟩ := h
  exact ⟨hp, haddress⟩

/-- Names of different kinds are different. -/
theorem history_nodup {p : PolicyView} {periods : List ℤ} {key : Bytes}
    {addresses history : Dict String String} (ha : addresses.keys ⊆ manifestNames)
    (hh : Addressed chain (HistorySeeds p periods key) history.entries) :
    (addresses.keys ++ history.keys).Nodup ∧
      ∀ name ∈ addresses.keys ++ history.keys, startsWith name "key_" = false := by
  have hlabels : ∀ name ∈ history.keys, ∃ label ∈ historyLabels, startsWith name label := by
    intro name hname
    obtain ⟨e, he, rfl⟩ := List.mem_map.mp hname
    obtain ⟨seeds, hseeds, -⟩ := hh.sound e he
    exact hseeds.label
  refine ⟨List.nodup_append.mpr ⟨addresses.nodup, history.nodup, ?_⟩, fun name hname ↦ ?_⟩
  · rintro name hname _ hname' rfl
    obtain ⟨label, hlabel, hstarts⟩ := hlabels name hname'
    rw [manifest_not_discovered name (ha hname) label (List.mem_cons_of_mem _ hlabel)] at hstarts
    exact absurd hstarts (by simp)
  · rcases List.mem_append.mp hname with hname | hname
    · exact manifest_not_discovered name (ha hname) _ List.mem_cons_self
    · obtain ⟨label, hlabel, hstarts⟩ := hlabels name hname
      exact history_not_key hlabel hstarts

theorem keys_nodup {p : PolicyView} {periods : List ℤ} {s : Snapshot} {key : Bytes}
    {addresses history keys : Dict String String} (ha : addresses.keys ⊆ manifestNames)
    (hh : Addressed chain (HistorySeeds p periods key) history.entries)
    (hk : Keyed chain s p periods key keys.entries) :
    ((addresses.keys ++ history.keys) ++ keys.keys).Nodup := by
  obtain ⟨hnodup, hnot⟩ := history_nodup ha hh
  refine List.nodup_append.mpr ⟨hnodup, keys.nodup, ?_⟩
  rintro name hname _ hname' rfl
  obtain ⟨e, he, rfl⟩ := List.mem_map.mp hname'
  obtain ⟨_, _, _, _, k, -, -, heq, -⟩ := hk.sound e he
  have hstarts : startsWith e.1 "key_" := by
    rw [heq]
    exact startsWith_append "key_" _
  rw [hnot e.1 hname] at hstarts
  exact absurd hstarts (by simp)

/-- An export that ends is consistent and closed, whatever the server answers. -/
theorem exportGraph_consistent
    (h : exportGraph chain verifyGraph dumps client manifest minContextSlot = .ok r) :
    Consistent chain client manifest minContextSlot r := by
  simp only [exportGraph, bind_eq_ok, okOr_eq_ok, require_eq_ok, exists_const, pure_eq_ok] at h
  obtain ⟨-, addresses, haddresses, _, -, _, -, -, policy, hpolicy, first, hfirst, p, hp, periods,
    hperiods, history, hhistory, _, -, policy', hpolicy', discovery, hdiscovery, _, hsame, keys,
    hkeys, _, hcheck, final, hfinal, _, hsame', p', hp', verification, -, _, -, -, rfl⟩ := h
  obtain ⟨hnames, hexpected, hfixed⟩ := validateManifest_spec haddresses
  obtain ⟨hread, hbound⟩ := bindIdentity_spec hp
  obtain ⟨hread', -⟩ := bindIdentity_spec hp'
  have hcore := unchanged_core hsame
  have hlater := unchanged_core hsame'
  -- The policy is the one that was read first, so the history is the one that it calls for.
  obtain rfl : p' = p := by
    have hpolicies : first.readPolicy chain = final.readPolicy chain :=
      (readPolicy_congr (hcore "policy" (by simp))).trans
        (readPolicy_congr (hlater "policy" (by simp)))
    rw [hread, hread'] at hpolicies
    exact (Except.ok.inj hpolicies).symm
  obtain ⟨key, hkey, haddressed⟩ := historyAddresses_spec hhistory (approvalPeriods_spec hperiods)
  have hentries : (addresses.update history.entries).entries =
      addresses.entries ++ history.entries :=
    Dict.update_entries (history_nodup hnames haddressed).1
  have hpolicy : policy' = p'.address := by
    have hmem := Dict.get?_eq_some.mp (hexpected.trans hbound)
    have hget : (addresses.update history.entries).get? "policy" = some p'.address := by
      rw [Dict.get?_eq_some, hentries]
      exact List.mem_append_left _ hmem
    exact Option.some.inj (hpolicy'.symm.trans hget)
  subst hpolicy
  -- The accounts of the history are the same in the last response, so it calls for the same keys.
  have hnamed : keyAddresses chain final history p'.address = .ok keys := by
    rw [← hkeys]
    exact (keyAddresses_congr fun name hname ↦ hlater name (List.mem_cons_of_mem _ hname)).symm
  have hrecords := keyAddresses_spec hnamed hkey haddressed
  have hentries' : ((addresses.update history.entries).update keys.entries).entries =
      addresses.entries ++ history.entries ++ keys.entries := by
    rw [Dict.update_entries, hentries]
    rw [Dict.keys, hentries, List.map_append]
    exact keys_nodup hnames haddressed hrecords
  obtain ⟨response, hresponse, hfirst, -⟩ := readAccounts_spec hfirst
  obtain ⟨response', hresponse', hdiscovery, -⟩ := readAccounts_spec hdiscovery
  obtain ⟨response₃, hresponse₃, hfinal, hlisted⟩ := readAccounts_spec hfinal
  obtain ⟨⟨-, hcount⟩, hvalues, -⟩ := checkAddresses_eq_ok.mp hcheck
  refine {
    reads := ⟨first, discovery, ⟨_, response, hresponse, hfirst⟩, ⟨_, response', hresponse',
      hdiscovery⟩, ⟨_, response₃, hresponse₃, hfinal⟩, hfirst.minimum_le, hdiscovery.minimum_le,
      hfinal.minimum_le, rfl, rfl⟩
    closed := {
      calls := ⟨p', periods, key, addresses, history, keys, ⟨haddresses, hfixed, hread', hkey,
        hperiods, hhistory, haddressed, hnamed, hrecords⟩, fun e ↦ ?_⟩
      names := by rw [hlisted]; exact Dict.nodup _
      addresses := by rw [hlisted]; exact hvalues
      count := by rw [hlisted]; exact hcount } }
  rw [hlisted, hentries', List.mem_append, List.mem_append, or_assoc]

end Export

/-! ## A server whose slot moves on -/

namespace Sample

open LaunchV7 (LaunchPolicyV7 Ledger ProgramAccount ID)
open LaunchV7.Sample (creator mint founder treasury oracle payee payeeToken successor
  successorToken source identity spec)

def platform : Chain := LaunchV7.Sample.chain

theorem derives : Derives platform :=
  derives_searchChain ⟨.of_map leNat (by decide +kernel), by decide +kernel, by decide +kernel⟩
    (by decide +kernel) (by decide +kernel)

/-! ### The graph -/

def policyKey : Pubkey := LaunchV7.Sample.policy

/-- The address of some seeds. -/
@[irreducible] def derived (seeds : List Bytes) (program : Pubkey) : Pubkey :=
  (platform.findProgramAddress seeds program).1

def vault (role : UInt8) : Pubkey := derived [ascii "launch-v7-vault", policyKey.bytes, [role]] ID

def token (role : UInt8) : Pubkey := derived [ascii "launch-v7-token", (vault role).bytes] ID

def clockKey : Pubkey := ⟨[6, 167, 213, 23, 24, 199, 116, 201, 40, 86, 99, 152, 105, 29, 94, 182,
  139, 94, 184, 163, 155, 75, 109, 92, 115, 85, 91, 33, 0, 0, 0, 0], rfl⟩

def sysvarKey : Pubkey := ⟨[6, 167, 213, 23, 24, 117, 247, 41, 199, 61, 147, 64, 143, 33, 97, 32, 6,
  126, 216, 140, 118, 224, 140, 40, 127, 193, 148, 96, 0, 0, 0, 0], rfl⟩

theorem CLOCK_eq : CLOCK = shown clockKey := by rfl

theorem SYSVAR_eq : SYSVAR = shown sysvarKey := by rfl

theorem LOADER_eq : LOADER = shown LaunchV7.Sample.loader := by rfl

/-- The accounts that the manifest calls for, except those that it gives. -/
def fixed : List (String × Pubkey) :=
  [("policy", policyKey), ("mint", mint), ("program", ID),
    ("program_data", derived [ID.bytes] LaunchV7.Sample.loader), ("clock", clockKey),
    ("founder_vault", vault 0), ("founder_token", token 0), ("treasury_vault", vault 1),
    ("treasury_token", token 1),
    ("preparation", derived [ascii "launch-v7-preparation", identity.bytes] ID)]

def external : List (String × Pubkey) :=
  [("source", source), ("treasury_destination", payeeToken),
    ("founder_destination_0", successorToken)]

def changeKey : Pubkey := derived [ascii "launch-v7-change", policyKey.bytes, pack .Q 1] ID

def proposalKey : Pubkey :=
  derived [ascii "launch-v7-withdraw", policyKey.bytes, [0], pack .Q 1] ID

def approvalKey : Pubkey := derived [ascii "launch-v7-approval", policyKey.bytes, pack .Q 0] ID

def histories : List (String × Pubkey) :=
  [("change_1", changeKey), ("withdrawal_0_1", proposalKey), ("approval_0", approvalKey)]

/-- The record of a key. -/
def keyEntry (k : Pubkey) : String × Pubkey :=
  ("key_" ++ shown k, derived [ascii "launch-v7-key", policyKey.bytes, k.bytes] ID)

def keyRecords : List (String × Pubkey) := [payee, successor].map keyEntry

/-- All accounts that are exported. -/
def graph : List (String × Pubkey) := fixed ++ external ++ histories ++ keyRecords

def showEntry (e : String × Pubkey) : String × String := (e.1, shown e.2)

/-! ### The ledger -/

/-- The accounts at the end of the launch. -/
@[irreducible] def ledger : Ledger := LaunchV7.Sample.run.2

/-- The policy after a change, a rotation of the founder and an approval. -/
def policy : LaunchPolicyV7 where
  creator
  mint
  founder
  treasury
  oracle := LaunchV7.Sample.key 37
  identity
  specHash := spec
  config := LaunchV7.Sample.config
  state := 2
  fundedMask := 3
  bump := 254
  lastActionAt := Anchor.clockAt 15563100
  period := 6
  sharedUsed := 40
  reportPeriod := 6
  reportCapacity := 900
  reportAt := Anchor.clockAt 15563000
  reportSequence := 2
  founderPeriodUsed := 40
  treasuryPeriodUsed := 0
  founderReleasedTotal := 40
  treasuryReleasedTotal := 60
  annualIndex := 0
  founderAnnualUsed := 40
  treasuryAnnualUsed := 60
  initialOracle := oracle
  controller := creator
  controllerEpoch := 0
  oracleEpoch := 1
  oracleActivatedAt := Anchor.clockAt 10371200
  reportEpoch := 1
  reportValid := true
  changeSequence := 1
  pendingChange := 0
  withdrawal := ⟨⟨successor, 1, 1, 0⟩, ⟨treasury, 0, 0, 0⟩⟩
  approvalCount := 1

/-- The rotation of the founder, and the approval. -/
def proposal : LaunchV7.WithdrawalProposalV7 where
  policy := policyKey
  role := 0
  nonce := 1
  epoch := 0
  predecessor := founder
  successor
  recovery := false
  validFrom := Anchor.clockAt 2595000
  validUntil := Anchor.clockAt 2595200
  createdAt := Anchor.clockAt 2595100
  executeAfter := Anchor.clockAt 10371100
  expiresAt := Anchor.clockAt 12963100
  status := 1
  finishedAt := Anchor.clockAt 10371100
  bump := 254

def approval : LaunchV7.TreasuryApprovalV7 where
  policy := policyKey
  period := 0
  recipient := payeeToken
  recipientOwner := payee
  need := 70
  consumed := 60
  createdAt := Anchor.clockAt 2000
  bump := 255
  author := treasury
  authorEpoch := 0

/-- What the addresses and the ledger come to. -/
structure Computed : Prop where
  apart : (graph.map Prod.snd).Nodup
  key : policyKey = derived [ascii "launch-v7-policy", identity.bytes] ID
  accounts : ledger.program policyKey = some (.policy policy) ∧
    ledger.program proposalKey = some (.withdrawal proposal) ∧
    ledger.program approvalKey = some (.approval approval) ∧
    ∀ e ∈ ("policy", policyKey) :: histories, e.2 ≠ clockKey ∧ (ledger.program e.2).isSome
  address : (ProgramAccount.policy policy).seeds.address platform = policyKey
  bump : (ProgramAccount.policy policy).seeds.bump platform = policy.bump
  bound : policy.identity = LaunchV7.identity platform policy.creator policy.mint policy.founder
    policy.treasury policy.initialOracle policy.specHash policy.config
  /-- The keys that the proposal and the approval name. -/
  nominee : slice (ProgramAccount.serialize platform (.withdrawal proposal)) 89 32 =
    successor.bytes
  recipient : slice (ProgramAccount.serialize platform (.approval approval)) 80 32 = payee.bytes

theorem computed : Computed := by
  constructor <;> decide +kernel

example : derived [ascii "launch-v7-change", policyKey.bytes, pack .Q 1] ID ≠ clockKey := by
  decide +kernel

theorem stored : ∀ e ∈ ("policy", policyKey) :: histories,
    e.2 ≠ clockKey ∧ (ledger.program e.2).isSome :=
  computed.accounts.2.2.2

theorem shown_nodup {es : List (String × Pubkey)} (h : es.Sublist graph) :
    ((es.map showEntry).map Prod.snd).Nodup := by
  rw [List.map_map]
  have hshown : Prod.snd ∘ showEntry = shown ∘ Prod.snd := rfl
  rw [hshown, ← List.map_map]
  exact (computed.apart.sublist (h.map _)).map fun _ _ ↦ shown_inj.mp

theorem policyKey_ne : policyKey ≠ clockKey := (stored _ List.mem_cons_self).1

theorem proposalKey_ne : proposalKey ≠ clockKey :=
  (stored ("withdrawal_0_1", proposalKey) (by simp [histories])).1

theorem approvalKey_ne : approvalKey ≠ clockKey :=
  (stored ("approval_0", approvalKey) (by simp [histories])).1

theorem policy_bound : LaunchV7.Canonical platform policyKey (.policy policy) ∧ policy.identity =
    LaunchV7.identity platform policy.creator policy.mint policy.founder policy.treasury
      policy.initialOracle policy.specHash policy.config :=
  ⟨⟨computed.address, computed.bump⟩, computed.bound⟩

/-! ### The server -/

/-- The key that a text spells. -/
def keyOf (text : String) : Option Pubkey :=
  (base58Decode? text).bind fun bs ↦ if h : bs.length = 32 then some ⟨bs, h⟩ else none

@[simp] theorem keyOf_shown (k : Pubkey) : keyOf (shown k) = some k := by
  simp [keyOf, shown, base58Decode?_encode (Pubkey.bytes_ne_nil k), k.length_eq]

/-- The owner and the data that the server has at a key when it is called.  Only the clock and the
accounts of the program have data. -/
@[irreducible] def account (call : ℕ) (k : Pubkey) : String × Bytes :=
  if k = clockKey then (SYSVAR, leBytes 8 (100 + call) ++ List.replicate 32 0)
  else (PROGRAM, ((ledger.program k).map (ProgramAccount.serialize platform)).getD [])

/-- What the server has at an address. -/
@[irreducible] def content (call : ℕ) (address : String) : String × Bytes :=
  ((keyOf address).map (account call)).getD (PROGRAM, [])

theorem content_shown (call : ℕ) (k : Pubkey) : content call (shown k) = account call k := by
  unfold content
  simp

theorem account_clock (call : ℕ) :
    account call clockKey = (SYSVAR, leBytes 8 (100 + call) ++ List.replicate 32 0) := by
  unfold account
  exact if_pos rfl

theorem account_program {k : Pubkey} {x : ProgramAccount} (hk : k ≠ clockKey)
    (h : ledger.program k = some x) (call : ℕ) :
    account call k = (PROGRAM, x.serialize platform) := by
  unfold account
  rw [if_neg hk, h]
  rfl

theorem content_clock (call : ℕ) :
    content call CLOCK = (SYSVAR, leBytes 8 (100 + call) ++ List.replicate 32 0) := by
  rw [CLOCK_eq, content_shown, account_clock]

theorem content_owner (call : ℕ) (address : String) :
    canonical (.str (content call address).1) = .ok (content call address).1 := by
  have hprogram : canonical (.str PROGRAM) = .ok PROGRAM := PROGRAM_eq ▸ canonical_shown ID
  unfold content
  cases keyOf address with
  | none => exact hprogram
  | some k =>
    rw [Option.map_some, Option.getD_some, account]
    split
    · exact SYSVAR_eq ▸ canonical_shown sysvarKey
    · exact hprogram

theorem serialize_length_le (x : ProgramAccount) :
    (x.serialize platform).length ≤ 2000000 := by
  rw [serialize_length]
  cases x <;> simp [ProgramAccount.width]

theorem content_length (call : ℕ) (address : String) :
    (content call address).2.length ≤ 2000000 := by
  unfold content
  cases keyOf address with
  | none => simp
  | some k =>
    rw [Option.map_some, Option.getD_some, account]
    split
    · simp
    · cases ledger.program k with
      | none => simp
      | some x => exact serialize_length_le x

def raw (call : ℕ) (address : String) : Json := .obj [
  ("owner", .str (content call address).1), ("executable", .bool false), ("lamports", .int 1),
  ("data", .arr [.str (base64Encode (content call address).2), .str "base64"])]

def genesisHash : Pubkey := LaunchV7.Sample.key 60

/-- The slot moves from one call to the next. -/
def client : Client
  | _, .getGenesisHash => .ok (.str (shown genesisHash))
  | call, .getMultipleAccounts addresses _ => .ok (.obj [
      ("context", .obj [("slot", .int (100 + call))]), ("value", .arr (addresses.map (raw call)))])

def view (call : ℕ) (address : String) : AccountView where
  address := address
  owner := (content call address).1
  executable := false
  lamports := 1
  dataHex := hexEncode (content call address).2

def snapshot (call : ℕ) (addresses : Dict String String) : Snapshot where
  schema := "K4V-LAUNCH-V7-RAW-SNAPSHOT-v1"
  programId := PROGRAM
  scope := "SUPPLIED_RPC_RESPONSE"
  privateKeysSerialized := false
  slot := 100 + call
  now := 0
  accounts := Dict.ofList (addresses.entries.map fun e ↦ (e.1, view call e.2))

theorem raw_served (call : ℕ) (address : String) :
    Served address (raw call address) (view call address) where
  address := rfl
  owner := by simp [raw, view, Json.get, Json.get?]
  canonical := content_owner call address
  executable := by simp [raw, view, Json.get, Json.get?, List.lookup_cons]
  lamports := by simp [raw, view, Json.get, Json.get?, List.lookup_cons]
  positive := by simp [view]
  fits := by simp [view]
  data := ⟨(content call address).2, by simp [raw, Json.get, Json.get?, List.lookup_cons],
    content_length call address, rfl⟩

theorem readEntry_raw (call : ℕ) (e : String × String) :
    readEntry (e, raw call e.2) = .ok (e.1, view call e.2) := by
  rw [readEntry_eq_ok]
  exact ⟨rfl, raw_served call e.2⟩

theorem readEntries_raw (call : ℕ) (entries : List (String × String)) :
    (entries.zip (entries.map fun e ↦ raw call e.2)).mapM readEntry =
      .ok (entries.map fun e ↦ (e.1, view call e.2)) := by
  rw [mapM_eq_ok]
  induction entries with
  | nil => exact .nil
  | cons e es ih => exact .cons (readEntry_raw call e) ih

theorem snapshot_entries (call : ℕ) (addresses : Dict String String) :
    (snapshot call addresses).accounts.entries =
      addresses.entries.map fun e ↦ (e.1, view call e.2) := by
  refine Dict.ofList_entries ?_
  rw [List.map_map]
  exact addresses.nodup

theorem snapshot_listed (call : ℕ) (addresses : Dict String String) :
    (snapshot call addresses).listed = addresses.entries := by
  rw [Snapshot.listed, snapshot_entries, List.map_map]
  exact List.map_id _

theorem get?_snapshot (call : ℕ) {addresses : Dict String String} {name address : String}
    (h : addresses.get? name = some address) :
    (snapshot call addresses).accounts.get? name = some (view call address) := by
  rw [Dict.get?_eq_some, snapshot_entries]
  exact List.mem_map_of_mem (f := fun e ↦ (e.1, view call e.2)) (Dict.get?_eq_some.mp h)

/-- The accounts of the program are listed with their data. -/
theorem snapshot_lists (call : ℕ) {addresses : Dict String String} {name : String} {k : Pubkey}
    {x : ProgramAccount} (h : addresses.get? name = some (shown k)) (hk : k ≠ clockKey)
    (hx : ledger.program k = some x) :
    (snapshot call addresses).Lists name k PROGRAM (x.serialize platform) := by
  have hcontent := (content_shown call k).trans (account_program hk hx call)
  refine ⟨_, get?_snapshot call h, rfl, congrArg Prod.fst hcontent, rfl, ?_⟩
  rw [view, hcontent]
  exact fromHex?_hexEncode _

theorem readAccounts_client {call : ℕ} {addresses : Dict String String} {minimum : ℤ}
    (hcheck : checkAddresses addresses = .ok ()) (hmin : minimum ≤ 100 + call) (hcall : call < 10) :
    readAccounts client call addresses minimum = .ok (snapshot call addresses) := by
  have hclock := get?_snapshot call (checkAddresses_eq_ok.mp hcheck).2.2
  have hcontent := content_clock call
  have hslot : Format.Q.unpack (slice (leBytes 8 (100 + call) ++ List.replicate 32 0) 0 8) =
      (100 + call : ℕ) := by
    rw [slice, List.drop_zero, List.take_left' (leBytes_length 8 _)]
    exact congrArg Nat.cast (leNat_leBytes (by omega))
  have hnow : Format.q.unpack (slice (leBytes 8 (100 + call) ++ List.replicate 32 0) 32 8) = 0 := by
    rw [slice, List.drop_append, List.drop_eq_nil_of_le (by simp), leBytes_length]
    decide
  simp only [readAccounts, bind_eq_ok, okOr_eq_ok, require_eq_ok, pure_eq_ok, exists_const]
  refine ⟨(), hcheck, _, rfl, _, rfl, _, rfl, (100 + call : ℤ), rfl, ⟨hmin, by omega⟩, _, rfl, ?_, _,
    ?_, _, hclock, _, fromHex?_hexEncode _, ?_⟩
  · simp [Dict.values, Dict.length]
  · rw [Dict.values, List.map_map]
    exact readEntries_raw call addresses.entries
  · rw [hcontent]
    refine ⟨⟨congrArg Prod.fst hcontent, rfl, by simp, ?_⟩, ?_⟩
    · rw [hslot, Nat.cast_add]
      rfl
    · rw [hnow]
      rfl

/-! ### The manifest -/

def expected : Json := .obj [
  ("genesis_hash", .str (shown genesisHash)), ("program_id", .str PROGRAM),
  ("policy", .str (shown policyKey)), ("mint", .str (shown mint)),
  ("creator", .str (shown creator)), ("founder", .str (shown founder)),
  ("treasury", .str (shown treasury)), ("initial_oracle", .str (shown oracle)),
  ("identity_sha256", .str (hexEncode identity.bytes)),
  ("spec_sha256", .str (hexEncode spec.bytes))]

def manifest : Json := .obj [
  ("schema", .str MANIFEST_SCHEMA), ("expected", expected),
  ("external_accounts", .obj (external.map fun e ↦ (e.1, .str (shown e.2)))),
  ("approval_periods", .arr [.int 0])]

def addresses : Dict String String :=
  (Dict.ofList (fixed.map showEntry)).update (external.map showEntry)

theorem addresses_entries : addresses.entries = (fixed ++ external).map showEntry := by
  have hnames : (external.map showEntry).map Prod.fst = externalNames 1 := rfl
  rw [addresses, manifest_entries rfl, List.map_append]
  · rw [hnames]
    exact externalNames_nodup (by decide)
  · rw [hnames]
    exact externalNames_subset 1 (by decide)

/-- A part of the graph with the policy and the clock can be read. -/
theorem checkAddresses_graph {d : Dict String String} {es : List (String × Pubkey)}
    (hd : d.entries = es.map showEntry) (hsub : es.Sublist graph) (hclock : ("clock", clockKey) ∈ es) :
    checkAddresses d = .ok () := by
  have hlength : es.length ≤ graph.length := hsub.length_le
  rw [checkAddresses_eq_ok, Dict.length, Dict.values, Dict.get?_eq_some, hd, CLOCK_eq,
    List.length_map]
  exact ⟨⟨List.length_pos_of_mem hclock, hlength.trans (by decide)⟩, shown_nodup hsub,
    List.mem_map_of_mem (f := showEntry) hclock⟩

theorem checkAddresses_addresses : checkAddresses addresses = .ok () := by
  refine checkAddresses_graph addresses_entries ?_ (by simp [fixed])
  rw [graph, List.append_assoc]
  exact List.sublist_append_left _ _

theorem pda_derived {seeds : List Bytes} (program : Pubkey) (h : Takes seeds) :
    pda platform seeds (shown program) = .ok (shown (derived seeds program)) := by
  unfold derived
  exact derives.pda rfl h

theorem keysAre_of_eq {members : List (String × Json)} {names : List String}
    (h : members.map Prod.fst = names) : keysAre members names = true := by
  rw [keysAre_eq_true, h]
  exact ⟨List.Subset.refl names, List.Subset.refl names⟩

theorem expected_get : manifest.get "expected" = expected := by
  simp [manifest, Json.get, Json.get?, List.lookup_cons]

theorem externalAccounts_manifest : externalAccounts manifest = .ok (external.map showEntry) := by
  have hget : manifest.get "external_accounts" =
      .obj (external.map fun e ↦ (e.1, .str (shown e.2))) := by
    simp [manifest, Json.get, Json.get?, List.lookup_cons]
  simp only [externalAccounts, hget, bind_eq_ok, okOr_eq_ok, require_eq_ok, exists_const]
  refine ⟨_, rfl, ⟨by simp [external], by simp [external], keysAre_of_eq rfl⟩, ?_⟩
  generalize external = es
  induction es with
  | nil => rfl
  | cons e es ih =>
    rw [List.map_cons, List.mapM_cons, ih, canonical_shown]
    rfl

theorem approvalPeriods_manifest : approvalPeriods manifest = .ok [0] := by
  have hget : manifest.get "approval_periods" = .arr [.int 0] := by
    simp [manifest, Json.get, Json.get?, List.lookup_cons]
  simp only [approvalPeriods, hget]
  decide

/-- The keys that the manifest expects. -/
def expectedKeys : List (String × Pubkey) :=
  [("genesis_hash", genesisHash), ("program_id", ID), ("policy", policyKey), ("mint", mint),
    ("creator", creator), ("founder", founder), ("treasury", treasury), ("initial_oracle", oracle)]

theorem expected_key : ∀ e ∈ expectedKeys, expected.get e.1 = .str (shown e.2) := by
  simp [expectedKeys, expected, Json.get, Json.get?, List.lookup_cons, PROGRAM_eq]

theorem canonical_expected : EXPECTED_KEYS.mapM (fun key ↦ canonical (expected.get key)) =
    .ok (expectedKeys.map fun e ↦ shown e.2) := by
  have hnames : EXPECTED_KEYS = expectedKeys.map Prod.fst := rfl
  have hall := expected_key
  rw [hnames]
  generalize expectedKeys = es at hall
  induction es with
  | nil => rfl
  | cons e es ih =>
    rw [List.map_cons, List.mapM_cons, ih fun e' he' ↦ hall e' (List.mem_cons_of_mem _ he'),
      hall e List.mem_cons_self, canonical_shown]
    rfl

theorem validateManifest_manifest : validateManifest platform manifest = .ok addresses := by
  have hidentity : expectedHash expected "identity_sha256" = .ok identity.bytes := by
    refine expectedHash_hexEncode ?_
    simp [expected, Json.get, Json.get?, List.lookup_cons]
  have hspec : expectedHash expected "spec_sha256" = .ok spec.bytes := by
    refine expectedHash_hexEncode ?_
    simp [expected, Json.get, Json.get?, List.lookup_cons]
  have hpolicy : expected.get "policy" = .str (shown policyKey) :=
    expected_key ("policy", policyKey) (by simp [expectedKeys])
  have hmint : expected.get "mint" = .str (shown mint) :=
    expected_key ("mint", mint) (by simp [expectedKeys])
  have hprogram : expected.get "program_id" = .str (shown ID) :=
    expected_key ("program_id", ID) (by simp [expectedKeys])
  have hschema : manifest.get "schema" = .str MANIFEST_SCHEMA := by
    simp [manifest, Json.get, Json.get?]
  simp only [validateManifest, expected_get, bind_eq_ok, okOr_eq_ok, require_eq_ok, pure_eq_ok,
    exists_const, hpolicy, hmint, hprogram, hschema, PROGRAM_eq, Sample.LOADER_eq]
  refine ⟨_, rfl, keysAre_of_eq rfl, rfl, _, rfl, keysAre_of_eq rfl, _, canonical_expected,
    _, canonical_shown policyKey, _, canonical_shown mint, rfl, _, hidentity, _, hspec,
    _, pda_derived ID ?_, congrArg shown computed.key, _, externalAccounts_manifest,
    _, approvalPeriods_manifest, _, pubkey_shown policyKey, _, pubkey_shown ID,
    _, pda_derived LaunchV7.Sample.loader ?_, _, pda_derived ID ?_, _, pubkey_shown (vault 0),
    _, pda_derived ID ?_, _, pda_derived ID ?_, _, pubkey_shown (vault 1), _, pda_derived ID ?_,
    _, pda_derived ID ?_, (), ?_, ?_⟩
  all_goals try simp [Takes, ascii, Bytes32.length_eq]
  · rw [CLOCK_eq]
    exact checkAddresses_addresses
  · rw [CLOCK_eq]
    rfl

/-! ### The history -/

/-- The policy that the server shows. -/
def policyView : PolicyView := .of policyKey policy

theorem snapshot_policy {call : ℕ} {d : Dict String String}
    (h : d.get? "policy" = some (shown policyKey)) : (snapshot call d).Lists "policy" policyKey
      PROGRAM (ProgramAccount.serialize platform (.policy policy)) :=
  snapshot_lists call h policyKey_ne computed.accounts.1

theorem bindIdentity_snapshot {call : ℕ} {d : Dict String String}
    (h : d.get? "policy" = some (shown policyKey)) :
    bindIdentity platform (snapshot call d) expected = .ok policyView := by
  have hread : (snapshot call d).readPolicy platform = .ok policyView :=
    (snapshot_policy h).policy derives policy_bound.1 policy_bound.2
  have hkey : ∀ {name : String} {k : Pubkey}, (name, k) ∈ expectedKeys →
      (expected.get name).asStr? = some (shown k) := by
    intro name k hmem
    rw [expected_key (name, k) hmem]
    rfl
  have hhash : ∀ {name text : String}, expected.get name = .str text →
      (expected.get name).asStr? = some text := by
    intro name text h
    rw [h]
    rfl
  simp only [bindIdentity, hread, bind_eq_ok, require_eq_ok, pure_eq_ok, exists_const]
  refine ⟨policyView, rfl, ⟨hkey (k := policyKey) ?_, hhash ?_, hhash ?_, hkey (k := mint) ?_,
    hkey (k := creator) ?_, hkey (k := founder) ?_, hkey (k := treasury) ?_, hkey (k := oracle) ?_⟩,
    rfl⟩
  · simp [expectedKeys]
  · simp [expected, Json.get, Json.get?, List.lookup_cons, policyView, PolicyView.of, Policy.of,
      policy]
  · simp [expected, Json.get, Json.get?, List.lookup_cons, policyView, PolicyView.of, Policy.of,
      policy]
  all_goals simp [expectedKeys]

theorem numbered_derived (label : String) {seeds : List Bytes} {n : ℤ}
    (h : Takes (seeds ++ [pack .Q n])) : numbered platform label seeds [n] =
      .ok [showEntry (label ++ toString n, derived (seeds ++ [pack .Q n]) ID)] := by
  simp only [numbered, List.mapM_cons, List.mapM_nil, PROGRAM_eq, pda_derived ID h]
  rfl

def history : Dict String String := Dict.ofList (histories.map showEntry)

theorem history_entries : history.entries = histories.map showEntry :=
  Dict.ofList_entries (by rw [List.map_map]; decide)

theorem history_policyView : historyAddresses platform policyView [0] = .ok history := by
  have hsequences : policyView.changeSequence :: policyView.withdrawal.map Role.sequence =
      [1, 1, 0] := rfl
  simp only [historyAddresses, hsequences, bind_eq_ok, require_eq_ok, exists_const]
  refine ⟨rfl, by decide, policyKey.bytes, pubkey_shown policyKey,
    _, numbered_derived "change_" ?_, _, numbered_derived "withdrawal_0_" ?_, [], rfl,
    _, numbered_derived "approval_" ?_, rfl⟩
  all_goals simp [Takes, pack, Format.size, ascii, Bytes32.length_eq]

/-! ### The keys -/

/-- An account of the program starts with its tag. -/
theorem account_tagged (typename : String) (rest : Bytes) :
    (Verifier.account platform typename).all (LaunchV7.discriminator platform typename ++ rest) =
      .ok () :=
  Reader.all_eq_ok.mpr ⟨rest, (reads_account typename).run_eq_ok.mpr ⟨(), rfl, rfl⟩⟩

/-- An account of the history names a key. -/
theorem names_snapshot {call length offset : ℕ} {d : Dict String String} {name typename : String}
    {k subject : Pubkey} {x : ProgramAccount} {rest : Bytes} (h : d.get? name = some (shown k))
    (hk : k ≠ clockKey) (hx : ledger.program k = some x)
    (hdata : x.serialize platform = LaunchV7.discriminator platform typename ++ rest)
    (hlength : x.width = length)
    (hsubject : slice (x.serialize platform) offset 32 = subject.bytes) :
    NamesKey platform (snapshot call d) name typename length offset subject.bytes := by
  refine ⟨shown k, _, ?_, (serialize_length x).trans hlength, hsubject⟩
  simp only [Snapshot.account, (snapshot_lists call h hk hx).located, bind_eq_ok, pure_eq_ok]
  exact ⟨_, rfl, (), by rw [hdata, account_tagged]; rfl, rfl⟩

theorem record_withdrawal : Record policyView [0] "withdrawal_0_1" "WithdrawalProposalV7" 172 89 :=
  .withdrawal (r := 0) (n := 1) (by decide) rfl ⟨le_rfl, le_rfl⟩

theorem record_approval : Record policyView [0] "approval_0" "TreasuryApprovalV7" 177 80 :=
  .approval (n := 0) (by simp)

theorem subjectOf_withdrawal {call : ℕ} {d : Dict String String}
    (h : d.get? "withdrawal_0_1" = some (shown proposalKey)) :
    subjectOf platform (snapshot call d) "withdrawal_0_1" = .ok (some (shown successor)) :=
  record_withdrawal.subjectOf.mpr ⟨_, names_snapshot h proposalKey_ne computed.accounts.2.1
    (by rw [ProgramAccount.serialize, LaunchV7.WithdrawalProposalV7.serialize, List.flatten_cons]) rfl
    computed.nominee, rfl⟩

theorem subjectOf_approval {call : ℕ} {d : Dict String String}
    (h : d.get? "approval_0" = some (shown approvalKey)) :
    subjectOf platform (snapshot call d) "approval_0" = .ok (some (shown payee)) :=
  record_approval.subjectOf.mpr ⟨_, names_snapshot h approvalKey_ne computed.accounts.2.2.1
    (by rw [ProgramAccount.serialize, LaunchV7.TreasuryApprovalV7.serialize, List.flatten_cons]) rfl
    computed.recipient, rfl⟩

theorem shown_lt : shown payee < shown successor := by
  change (shown payee).toList < (shown successor).toList
  rw [shown, shown, base58Encode, base58Encode, String.toList_ofList, String.toList_ofList]
  decide +kernel

theorem sortedSet_subjects : sortedSet (· ≤ ·) [shown successor, shown payee] =
    [shown payee, shown successor] := by
  have hnot : ¬ shown successor ≤ shown payee := String.not_le.mpr shown_lt
  have hne : shown successor ≠ shown payee := fun h ↦ hnot (h ▸ String.le_refl _)
  simp [sortedSet, List.dedup_cons_of_notMem, hne, hnot]

def keys : Dict String String := Dict.ofList (keyRecords.map showEntry)

theorem keys_entries : keys.entries = keyRecords.map showEntry := by
  refine Dict.ofList_entries ?_
  have hnames : (keyRecords.map showEntry).map Prod.fst =
      ([payee, successor].map shown).map ("key_" ++ ·) := by
    simp only [keyRecords, List.map_map]
    rfl
  rw [hnames]
  have hnodup : [payee, successor].Nodup := by decide
  exact (hnodup.map shown_injective).map fun _ _ ↦ append_left_inj

theorem keyAddresses_snapshot {call : ℕ} {d : Dict String String}
    (h : d.get? "withdrawal_0_1" = some (shown proposalKey))
    (h' : d.get? "approval_0" = some (shown approvalKey)) :
    keyAddresses platform (snapshot call d) history (shown policyKey) = .ok keys := by
  have hnames : history.keys = ["change_1", "withdrawal_0_1", "approval_0"] := by
    rw [Dict.keys, history_entries, List.map_map]
    rfl
  have hchange : subjectOf platform (snapshot call d) "change_1" = .ok none := by
    unfold subjectOf
    rw [if_neg (by decide), if_neg (by decide)]
  have hsubjects : history.keys.mapM (subjectOf platform (snapshot call d)) =
      .ok [none, some (shown successor), some (shown payee)] := by
    rw [hnames, mapM_eq_ok]
    exact .cons hchange (.cons (subjectOf_withdrawal h) (.cons (subjectOf_approval h') .nil))
  have hentry (k : Pubkey) : pda platform [ascii "launch-v7-key", policyKey.bytes, k.bytes] PROGRAM =
      .ok (showEntry (keyEntry k)).2 := by
    rw [PROGRAM_eq]
    exact pda_derived ID (by simp [Takes, ascii, Bytes32.length_eq])
  have hsorted : sortedSet (· ≤ ·)
      ([none, some (shown successor), some (shown payee)].filterMap id) =
        [payee, successor].map shown := sortedSet_subjects
  simp only [keyAddresses, hsubjects, bind_eq_ok, pure_eq_ok, Except.ok.injEq, exists_eq_left',
    hsorted]
  refine ⟨keyRecords.map showEntry, ?_, rfl⟩
  rw [mapM_eq_ok, keyRecords, List.map_map, List.forall₂_map_left_iff, List.forall₂_map_right_iff,
    List.forall₂_same]
  intro k _
  simp only [pubkey_shown, hentry, bind_eq_ok, pure_eq_ok, Except.ok.injEq, exists_eq_left']
  rfl

/-! ### The export -/

/-- What is read to discover the history, and then the keys. -/
def start : Dict String String := Dict.ofList [("policy", shown policyKey), ("clock", CLOCK)]

theorem start_entries :
    start.entries = [("policy", policyKey), ("clock", clockKey)].map showEntry := by
  rw [start, Dict.ofList_entries (by simp), CLOCK_eq]
  rfl

def discovery : Dict String String := start.update history.entries

theorem discovery_entries : discovery.entries =
    ([("policy", policyKey), ("clock", clockKey)] ++ histories).map showEntry := by
  rw [discovery, Dict.update_entries, start_entries, history_entries, List.map_append]
  rw [Dict.keys, start_entries, history_entries, ← List.map_append, ← List.map_append, List.map_map]
  decide

def known : Dict String String := addresses.update history.entries

theorem known_entries : known.entries = (fixed ++ external ++ histories).map showEntry := by
  rw [known, Dict.update_entries, addresses_entries, history_entries, ← List.map_append]
  rw [Dict.keys, addresses_entries, history_entries, ← List.map_append, ← List.map_append,
    List.map_map]
  decide

def total : Dict String String := known.update keys.entries

theorem get?_of_mem {d : Dict String String} {es : List (String × Pubkey)} {name : String}
    {k : Pubkey} (hd : d.entries = es.map showEntry) (h : (name, k) ∈ es) :
    d.get? name = some (shown k) := by
  rw [Dict.get?_eq_some, hd]
  exact List.mem_map_of_mem (f := showEntry) h

theorem discovery_keys (call : ℕ) :
    keyAddresses platform (snapshot call discovery) history (shown policyKey) = .ok keys :=
  keyAddresses_snapshot (get?_of_mem discovery_entries (by simp [histories]))
    (get?_of_mem discovery_entries (by simp [histories]))

theorem total_entries : total.entries = graph.map showEntry := by
  obtain ⟨key, hkey, hhistory⟩ :=
    historyAddresses_spec history_policyView (approvalPeriods_spec approvalPeriods_manifest)
  have hrecords := keyAddresses_spec (discovery_keys 3) hkey hhistory
  have hnodup := keys_nodup (validateManifest_spec validateManifest_manifest).1 hhistory hrecords
  rw [total, Dict.update_entries, known_entries, keys_entries, ← List.map_append]
  · rfl
  · rw [Dict.keys, known_entries, List.map_append, ← addresses_entries, ← history_entries,
      List.map_append]
    exact hnodup

theorem checkAddresses_known : checkAddresses known = .ok () := by
  refine checkAddresses_graph known_entries ?_ (by simp [fixed])
  exact List.sublist_append_left _ _

theorem checkAddresses_total : checkAddresses total = .ok () :=
  checkAddresses_graph total_entries (.refl _) (by simp [graph, fixed])

theorem start_sublist : [("policy", policyKey), ("clock", clockKey)].Sublist fixed :=
  .cons_cons _ (.cons _ (.cons _ (.cons _ (.cons_cons _ (List.nil_sublist _)))))

theorem checkAddresses_discovery : checkAddresses discovery = .ok () := by
  refine checkAddresses_graph discovery_entries ?_ (by simp)
  rw [graph]
  exact ((start_sublist.trans (List.sublist_append_left _ _)).append_right _).trans
    (List.sublist_append_left _ _)

theorem checkAddresses_start : checkAddresses start = .ok () := by
  refine checkAddresses_graph start_entries ?_ (by simp)
  rw [graph, List.append_assoc, List.append_assoc]
  exact start_sublist.trans (List.sublist_append_left _ _)

/-- What the server has of the program is the same at each call. -/
theorem core_snapshot {call : ℕ} {d : Dict String String} {name : String} {k : Pubkey}
    {x : ProgramAccount} (h : d.get? name = some (shown k)) (hk : k ≠ clockKey)
    (hx : ledger.program k = some x) : core (snapshot call d) name =
      .ok (shown k, PROGRAM, false, hexEncode (x.serialize platform)) := by
  have hcontent := (content_shown call k).trans (account_program hk hx call)
  simp only [core, get?_snapshot call h, bind_eq_ok, okOr_eq_ok, pure_eq_ok, Option.some.injEq,
    exists_eq_left', view, hcontent]

theorem unchanged_snapshot {call call' : ℕ} {d d' : Dict String String}
    {es : List (String × Pubkey)} (hes : ∀ e ∈ es, d.get? e.1 = some (shown e.2) ∧
      d'.get? e.1 = some (shown e.2) ∧ e.2 ≠ clockKey ∧ (ledger.program e.2).isSome) :
    unchanged (snapshot call d) (snapshot call' d') (es.map Prod.fst) = .ok () := by
  simp only [unchanged, bind_eq_ok, pure_eq_ok]
  refine ⟨es.map fun _ ↦ (), ?_, trivial⟩
  rw [mapM_eq_ok, List.forall₂_map_left_iff, List.forall₂_map_right_iff, List.forall₂_same]
  intro e he
  obtain ⟨h, h', hk, hsome⟩ := hes e he
  obtain ⟨x, hx⟩ := Option.isSome_iff_exists.mp hsome
  simp only [bind_eq_ok, require_eq_ok]
  exact ⟨_, core_snapshot h hk hx, _, core_snapshot h' hk hx, rfl⟩

theorem start_policy : start.get? "policy" = some (shown policyKey) :=
  get?_of_mem start_entries List.mem_cons_self

theorem discovery_policy : discovery.get? "policy" = some (shown policyKey) :=
  get?_of_mem discovery_entries List.mem_cons_self

theorem addresses_policy : addresses.get? "policy" = some (shown policyKey) :=
  get?_of_mem addresses_entries (by simp [fixed])

theorem known_policy : known.get? "policy" = some (shown policyKey) :=
  get?_of_mem known_entries (by simp [fixed])

theorem total_policy : total.get? "policy" = some (shown policyKey) :=
  get?_of_mem total_entries (by simp [graph, fixed])

theorem unchanged_policy :
    unchanged (snapshot 2 start) (snapshot 3 discovery) ["policy"] = .ok () := by
  have hsame : ∀ e ∈ [("policy", policyKey)], start.get? e.1 = some (shown e.2) ∧
      discovery.get? e.1 = some (shown e.2) ∧ e.2 ≠ clockKey ∧ (ledger.program e.2).isSome := by
    intro e he
    obtain rfl := List.mem_singleton.mp he
    exact ⟨start_policy, discovery_policy, stored _ List.mem_cons_self⟩
  exact unchanged_snapshot hsame

theorem unchanged_history : unchanged (snapshot 3 discovery) (snapshot 4 total)
    ("policy" :: history.keys) = .ok () := by
  have hnames : "policy" :: history.keys =
      (("policy", policyKey) :: histories).map Prod.fst := by
    rw [Dict.keys, history_entries, List.map_map]
    rfl
  rw [hnames]
  refine unchanged_snapshot fun e he ↦ ⟨get?_of_mem discovery_entries ?_,
    get?_of_mem total_entries ?_, stored e he⟩
  · rcases List.mem_cons.mp he with rfl | he
    · exact List.mem_cons_self
    · exact List.mem_append_right _ he
  · rcases List.mem_cons.mp he with rfl | he
    · simp [graph, fixed]
    · simp [graph, he]

theorem exportGraph_manifest : ∃ r : Observation Unit,
    exportGraph platform (fun _ ↦ .ok ()) (fun _ ↦ []) client manifest 100 = .ok r ∧
      r.snapshot = snapshot 4 total := by
  apply Exists.intro
  apply And.intro
  · simp only [exportGraph, bind_eq_ok, okOr_eq_ok, require_eq_ok, pure_eq_ok, exists_const,
      expected_get]
    refine ⟨by simp, addresses, validateManifest_manifest, shown genesisHash, ?_,
      .str (shown genesisHash), rfl, rfl, _, addresses_policy, _,
      readAccounts_client checkAddresses_start ?_ (by omega), _, bindIdentity_snapshot start_policy,
      [0], approvalPeriods_manifest, _, history_policyView, (), checkAddresses_known, _,
      known_policy, _, readAccounts_client checkAddresses_discovery ?_ (by omega), (),
      unchanged_policy, _, discovery_keys 3, (), checkAddresses_total, _,
      readAccounts_client checkAddresses_total ?_ (by omega), (), unchanged_history, _,
      bindIdentity_snapshot total_policy, (), trivial, .str (shown genesisHash), rfl, rfl, rfl⟩
    · rw [expected_key ("genesis_hash", genesisHash) (by simp [expectedKeys])]
      rfl
    all_goals simp [snapshot]
  · rfl

end Sample

/-- The server shows a policy with a change, a rotation and an approval, and all of them are listed
with the records of the keys. -/
theorem exportGraph_sample : ∃ r : Observation Unit,
    exportGraph Sample.platform (fun _ ↦ .ok ()) (fun _ ↦ []) Sample.client Sample.manifest 100 =
      .ok r ∧ Consistent Sample.platform Sample.client Sample.manifest 100 r ∧
        r.snapshot.listed = Sample.graph.map Sample.showEntry := by
  obtain ⟨r, h, hr⟩ := Sample.exportGraph_manifest
  refine ⟨r, h, exportGraph_consistent h, ?_⟩
  rw [hr, Sample.snapshot_listed, Sample.total_entries]

end FundingVaults.Verifier
