import FundingVaults.Lib.Drift
import FundingVaults.Soak.Journal
import FundingVaults.Verifier.Closure

/-!
# What a journal without anomalies says

Anomalies are found between samples in a row, and nothing takes a noted one back.  So a journal
without anomalies is a chain of samples each close to the one before, and the two clocks may drift
apart by the tolerance at every step.
-/

namespace FundingVaults.Soak

open Verifier

/-! ## Anomalies -/

@[simp] theorem note_eq_nil {happened : Prop} [Decidable happened] {a : Anomaly}
    {noted : List Anomaly} : note happened a noted = [] ↔ ¬ happened ∧ noted = [] := by
  unfold note
  split
  next h => simp [h, List.ne_nil_of_mem (List.mem_insert_self (a := a) (l := noted))]
  next h => simp [h]

/-- A sample that shows no anomaly after the one before. -/
structure Close (run : Run) (last current : Sample) : Prop where
  slot : last.slot < current.slot
  bankTime : last.bankTime ≤ current.bankTime
  gap : seconds (current.wallNs - last.wallNs) ≤ run.maxGapSeconds
  drift : |((current.bankTime - last.bankTime : ℤ) : ℚ) - seconds (current.wallNs - last.wallNs)| ≤
    run.toleranceSeconds

theorem sampleAnomalies_eq_nil {run : Run} {last current : Sample} {noted : List Anomaly} :
    sampleAnomalies run last current noted = [] ↔ Close run last current ∧ noted = [] := by
  simp only [sampleAnomalies, note_eq_nil, gt_iff_lt, not_lt, not_le]
  constructor
  · rintro ⟨hdrift, hgap, hbank, hslot, hnil⟩
    exact ⟨⟨hslot, by omega, hgap, hdrift⟩, hnil⟩
  · rintro ⟨h, hnil⟩
    have hbank := h.bankTime
    exact ⟨h.drift, h.gap, by omega, h.slot, hnil⟩

theorem eq_nil_of_hostAnomalies {run : Run} {old current : Stamp} {noted : List Anomaly}
    (h : hostAnomalies run old current noted = []) : noted = [] := by
  unfold hostAnomalies at h
  dsimp only at h
  split at h
  next => exact absurd h (List.ne_nil_of_mem (List.mem_insert_self))
  next => exact (note_eq_nil.mp (note_eq_nil.mp h).2).2

/-! ## Samples -/

section Replay

variable (host : Host)

/-- The sample of a line, if it is one. -/
def sampleOf (record : Json) : Option Sample :=
  if (record.get "kind").asStr? = some "SAMPLE" then do
    let wallNs ← (record.get "wall_ns").asInt?
    let snapshot ← (unpackSnapshot host ((record.get "payload").get "snapshot")).toOption
    some { slot := snapshot.slot, bankTime := snapshot.now, wallNs }
  else none

/-- The samples of a journal, in order. -/
def observed (lines : List Json) : List Sample := lines.filterMap (sampleOf host)

variable {host}

/-- The journal has seen these samples, and found each close to the one before if it has no
anomalies. -/
structure Sees (j : Journal) (ss : List Sample) : Prop where
  samples : j.samples = ss.length
  firstSample : j.firstSample = ss.head?
  lastSample : j.lastSample = ss.getLast?
  close : j.anomalies = [] → ss.IsChain (Close j.run)

theorem unpack_snapshot {j : Journal} {payload manifest : Json} {snapshot : Snapshot}
    (h : unpack host j payload = .ok (manifest, snapshot)) :
    unpackSnapshot host (payload.get "snapshot") = .ok snapshot := by
  simp only [unpack, bind_eq_ok, require_eq_ok, pure_eq_ok, exists_const] at h
  obtain ⟨_, _, _, _, s, hs, _, _, _, _, _, _, _, _, _, _, _, _, _, hpair⟩ := h
  have hsnapshot : s = snapshot := congrArg Prod.snd hpair
  rw [hs, hsnapshot]

/-- One more sample, close to the one before. -/
theorem Sees.push {j j' : Journal} {ss : List Sample} {current : Sample} (hj : Sees j ss)
    (hrun : j'.run = j.run) (hsamples : j'.samples = j.samples + 1)
    (hfirst : j'.firstSample = some (j.firstSample.getD current))
    (hlast : j'.lastSample = some current)
    (hclose : j'.anomalies = [] →
      j.anomalies = [] ∧ ∀ last ∈ j.lastSample, Close j.run last current) :
    Sees j' (ss ++ [current]) where
  samples := by rw [hsamples, hj.samples, List.length_append, List.length_singleton]
  firstSample := by
    rw [hfirst, hj.firstSample]
    cases ss with
    | nil => rfl
    | cons s ss => rfl
  lastSample := by rw [hlast, List.getLast?_append_of_ne_nil _ (by simp), List.getLast?_singleton]
  close h := by
    obtain ⟨hnil, hnext⟩ := hclose h
    rw [hrun, List.isChain_append]
    refine ⟨hj.close hnil, .singleton _, fun last hmem current' hcurrent ↦ ?_⟩
    rw [← hj.lastSample] at hmem
    obtain rfl : current = current' := by simpa using hcurrent
    exact hnext last hmem

/-- What a sample does to the journal. -/
theorem Sees.sample {j j' : Journal} {ss : List Sample} {wallNs : ℤ} {payload : Json}
    (hj : Sees j ss) (h : acceptSample host j wallNs payload = .ok j') :
    ∃ snapshot, unpackSnapshot host (payload.get "snapshot") = .ok snapshot ∧ j'.run = j.run ∧
      Sees j' (ss ++ [{ slot := snapshot.slot, bankTime := snapshot.now, wallNs }]) := by
  simp only [acceptSample, bind_eq_ok, require_eq_ok, okOr_eq_ok, exists_const] at h
  obtain ⟨-, -, -, ⟨manifest, snapshot⟩, hunpack, policy, -, h⟩ := h
  refine ⟨snapshot, unpack_snapshot hunpack, ?_⟩
  split at h
  next hnone =>
    simp only [bind_eq_ok, pure_eq_ok, exists_eq_left'] at h
    obtain rfl := h
    refine ⟨rfl, hj.push rfl rfl rfl rfl fun hnil ↦ ⟨hnil, ?_⟩⟩
    simp [hnone]
  next last hsome =>
    simp only [bind_eq_ok, require_eq_ok, okOr_eq_ok, pure_eq_ok, exists_const,
      exists_eq_left'] at h
    obtain ⟨-, -, -, -, rfl⟩ := h
    refine ⟨rfl, hj.push rfl rfl rfl rfl fun hnil ↦ ?_⟩
    obtain ⟨hclose, hnil⟩ := sampleAnomalies_eq_nil.mp hnil
    refine ⟨hnil, fun last' hlast' ↦ ?_⟩
    obtain rfl : last = last' := by simpa [hsome] using hlast'
    exact hclose

/-- An event of another kind is no sample. -/
theorem Sees.other {j j' : Journal} {ss : List Sample} (hj : Sees j ss) (hrun : j'.run = j.run)
    (hsamples : j'.samples = j.samples) (hfirst : j'.firstSample = j.firstSample)
    (hlast : j'.lastSample = j.lastSample) (hcalm : j'.anomalies = [] → j.anomalies = []) :
    Sees j' ss where
  samples := hsamples.trans hj.samples
  firstSample := hfirst.trans hj.firstSample
  lastSample := hlast.trans hj.lastSample
  close h := by
    rw [hrun]
    exact hj.close (hcalm h)

theorem acceptKind_other {j j' : Journal} {kind session : String} {wallNs : ℤ} {payload : Json}
    (hkind : kind ≠ "SAMPLE") (h : acceptKind host j kind session wallNs payload = .ok j') :
    j'.run = j.run ∧ j'.samples = j.samples ∧ j'.firstSample = j.firstSample ∧
      j'.lastSample = j.lastSample ∧ j'.anomalies = j.anomalies := by
  unfold acceptKind at h
  rw [if_neg hkind] at h
  by_cases hstart : kind = "START"
  · rw [if_pos hstart] at h
    simp only [bind_eq_ok, pure_eq_ok] at h
    obtain ⟨-, -, rfl⟩ := h
    exact ⟨rfl, rfl, rfl, rfl, rfl⟩
  rw [if_neg hstart, bind_eq_ok] at h
  obtain ⟨-, -, h⟩ := h
  by_cases herror : kind = "ERROR"
  · rw [if_pos herror] at h
    simp only [bind_eq_ok, pure_eq_ok] at h
    obtain ⟨-, -, -, -, -, -, rfl⟩ := h
    exact ⟨rfl, rfl, rfl, rfl, rfl⟩
  rw [if_neg herror] at h
  by_cases hstop : kind = "STOP"
  · rw [if_pos hstop] at h
    simp only [bind_eq_ok, pure_eq_ok] at h
    obtain ⟨-, -, rfl⟩ := h
    exact ⟨rfl, rfl, rfl, rfl, rfl⟩
  · rw [if_neg hstop] at h
    exact absurd h (by simp)

theorem acceptKind_sample {j j' : Journal} {session : String} {wallNs : ℤ} {payload : Json}
    (h : acceptKind host j "SAMPLE" session wallNs payload = .ok j') :
    acceptSample host j wallNs payload = .ok j' := by
  unfold acceptKind at h
  rw [if_neg (by decide), if_pos rfl, bind_eq_ok] at h
  obtain ⟨-, -, h⟩ := h
  exact h

/-- One event of the journal. -/
theorem Sees.accept {j j' : Journal} {ss : List Sample} {record : Json} (hj : Sees j ss)
    (h : accept host j record = .ok j') :
    j'.run = j.run ∧ Sees j' (ss ++ (sampleOf host record).toList) := by
  simp only [Soak.accept, bind_eq_ok, require_eq_ok, okOr_eq_ok, exists_const] at h
  obtain ⟨members, -, -, -, -, wallNs, hwall, monotonicNs, -, -, session, -, bootId, -, -, kind,
    hkind, k, hk, h⟩ := h
  -- The clocks of the host add anomalies and take none away.
  have hhost : ∀ {ks : List Sample}, Sees k ks → j'.run = k.run ∧ Sees j' ks := by
    intro ks hks
    split at h
    next =>
      obtain rfl := pure_eq_ok.mp h
      exact ⟨rfl, hks.other rfl rfl rfl rfl id⟩
    next =>
      obtain rfl := pure_eq_ok.mp h
      exact ⟨rfl, hks.other rfl rfl rfl rfl eq_nil_of_hostAnomalies⟩
  unfold sampleOf
  rw [hkind]
  by_cases hsample : kind = "SAMPLE"
  · subst hsample
    obtain ⟨snapshot, hsnapshot, hrun, hks⟩ := hj.sample (acceptKind_sample hk)
    obtain ⟨hrun', hsees⟩ := hhost hks
    rw [if_pos rfl, hwall, hsnapshot]
    exact ⟨hrun'.trans hrun, hsees⟩
  · obtain ⟨hrun, hsamples, hfirst, hlast, hanomalies⟩ := acceptKind_other hsample hk
    obtain ⟨hrun', hsees⟩ := hhost (hj.other hrun hsamples hfirst hlast fun hnil ↦ hanomalies ▸ hnil)
    rw [if_neg (by simpa using hsample), Option.toList_none, List.append_nil]
    exact ⟨hrun'.trans hrun, hsees⟩

/-- All events of the journal. -/
theorem Sees.lines {j j' : Journal} {ss : List Sample} {lines : List Json} (hj : Sees j ss)
    (h : lines.foldlM (Soak.accept host) j = .ok j') :
    j'.run = j.run ∧ Sees j' (ss ++ observed host lines) := by
  induction lines generalizing j ss with
  | nil =>
    obtain rfl := pure_eq_ok.mp h
    exact ⟨rfl, by simpa [observed] using hj⟩
  | cons record lines ih =>
    rw [List.foldlM_cons, bind_eq_ok] at h
    obtain ⟨k, hk, h⟩ := h
    obtain ⟨hrun, hks⟩ := hj.accept hk
    obtain ⟨hrun', hsees⟩ := ih hks h
    refine ⟨hrun'.trans hrun, ?_⟩
    rw [List.append_assoc] at hsees
    have hcons :
        (sampleOf host record).toList ++ observed host lines = observed host (record :: lines) := by
      unfold observed
      cases hsample : sampleOf host record with
      | none => simp [hsample]
      | some s => simp [hsample]
    rwa [hcons] at hsees

theorem sees_openRun {run : Json} {j : Journal} (h : openRun host run = .ok j) : Sees j [] := by
  simp only [openRun, bind_eq_ok, require_eq_ok, okOr_eq_ok, pure_eq_ok, exists_const] at h
  obtain ⟨-, -, -, -, -, -, -, -, -, -, -, -, -, rfl⟩ := h
  exact ⟨rfl, rfl, rfl, fun _ ↦ .nil⟩

theorem Sees.replay {run : Json} {lines : List Json} {j : Journal}
    (h : replay host run lines = .ok j) : Sees j (observed host lines) := by
  rw [Soak.replay, bind_eq_ok] at h
  obtain ⟨k, hk, h⟩ := h
  exact ((sees_openRun hk).lines h).2

/-! ## The whole observation -/

end Replay

/-! ## A bank clock that stands still -/

namespace Drifting

open Verifier.Sample

/-- The manifest is stored under a digest that is no key of an account. -/
def manifestKey : Pubkey := LaunchV7.Sample.key 0

/-- An account as the journal stores it. -/
def stored (k : Pubkey) : Json := .obj [
  ("address", .str (shown k)), ("owner", .str (content 4 (shown k)).1), ("executable", .bool false),
  ("lamports", .int 1), ("data_hex", .str (hexEncode (content 4 (shown k)).2))]

/-- A digest that tells accounts apart by their address, and records by their sequence. -/
def digest (value : Json) : String :=
  match (value.get "address").asStr?.bind base58Decode? with
  | some address => hexEncode address
  | none => hexEncode (leBytes 32 (((value.get "sequence").asInt?.getD (-1)) + 1).toNat)

@[irreducible] def objects : Dict String Json := Dict.ofList
  ((hexEncode manifestKey.bytes, manifest) :: graph.map fun e ↦ (hexEncode e.2.bytes, stored e.2))

def host : Host where
  chain := platform
  codeSha256 := ""
  runtimeUnchanged _ := true
  digest := digest
  object := objects.get?
  verifyGraph _ := .ok true

theorem digest_stored (k : Pubkey) : digest (stored k) = hexEncode k.bytes := by
  have hdecode : base58Decode? (shown k) = some k.bytes :=
    base58Decode?_encode (Verifier.Pubkey.bytes_ne_nil k)
  simp [digest, stored, Json.get, Json.get?, Json.asStr?, hdecode]

theorem digest_manifest : digest manifest = hexEncode manifestKey.bytes := by
  simp [digest, manifest, Json.get, Json.get?, List.lookup_cons, Json.asStr?, Json.asInt?]
  rfl

theorem key_not_mem : manifestKey ∉ graph.map Prod.snd := by decide +kernel

theorem objects_entries : objects.entries =
    (hexEncode manifestKey.bytes, manifest) :: graph.map fun e ↦ (hexEncode e.2.bytes, stored e.2) := by
  unfold objects
  refine Dict.ofList_entries ?_
  have hnames : (graph.map fun e ↦ (hexEncode e.2.bytes, stored e.2)).map Prod.fst =
      (graph.map Prod.snd).map fun k ↦ hexEncode k.bytes := by
    simp [List.map_map, Function.comp_def]
  have hinj : Function.Injective fun k : Pubkey ↦ hexEncode k.bytes := fun a b h ↦
    Bytes32.ext (hexEncode_injective h)
  rw [List.map_cons, hnames, List.nodup_cons]
  refine ⟨fun hmem ↦ ?_, computed.apart.map hinj⟩
  exact key_not_mem ((List.mem_map_of_injective hinj).mp hmem)

theorem isDigest_hexEncode (k : Pubkey) : isDigest (hexEncode k.bytes) = true := by
  have hlength : (hexEncode k.bytes).length = 64 := by rw [hexEncode_length, k.length_eq]
  rw [isDigest, hlength, Bool.and_eq_true, List.all_eq_true]
  exact ⟨rfl, fun c hc ↦ List.contains_iff_mem.mpr (mem_hexDigits hc)⟩

theorem getObject_eq {k : Pubkey} {value : Json} (hmem : (hexEncode k.bytes, value) ∈ objects.entries)
    (hdigest : digest value = hexEncode k.bytes) :
    getObject host (.str (hexEncode k.bytes)) = .ok value := by
  simp only [getObject, bind_eq_ok, okOr_eq_ok, require_eq_ok, pure_eq_ok, exists_const]
  exact ⟨_, rfl, isDigest_hexEncode k, value, Dict.get?_eq_some.mpr hmem, hdigest, rfl⟩

theorem getObject_stored {e : String × Pubkey} (he : e ∈ graph) :
    getObject host (.str (hexEncode e.2.bytes)) = .ok (stored e.2) := by
  refine getObject_eq ?_ (digest_stored e.2)
  rw [objects_entries]
  exact List.mem_cons_of_mem _ (List.mem_map_of_mem (f := fun e ↦ (hexEncode e.2.bytes, stored e.2)) he)

theorem getObject_manifest :
    getObject host (.str (hexEncode manifestKey.bytes)) = .ok manifest := by
  refine getObject_eq ?_ digest_manifest
  rw [objects_entries]
  exact List.mem_cons_self

theorem accountView_stored (k : Pubkey) : accountView (stored k) = .ok (view 4 (shown k)) := by
  simp only [accountView, bind_eq_ok, okOr_eq_ok, pure_eq_ok]
  simp [stored, Json.get, Json.get?, List.lookup_cons, Json.asStr?, Json.asBool?, Json.asInt?, view]

/-- The snapshot that is stored at a slot. -/
def observation (slot : ℤ) : Snapshot := { snapshot 4 total with slot := slot }

def packed (slot : String) : Json := .obj [
  ("schema", .str "K4V-LAUNCH-V7-RAW-SNAPSHOT-v1"), ("program_id", .str PROGRAM),
  ("scope", .str "SUPPLIED_RPC_RESPONSE"), ("private_keys_serialized", .bool false),
  ("slot", .str slot), ("now", .str "0"),
  ("accounts", .obj (graph.map fun e ↦ (e.1, .str (hexEncode e.2.bytes))))]

theorem observation_accounts (slot : ℤ) : (observation slot).accounts =
    Dict.ofList (graph.map fun e ↦ (e.1, view 4 (shown e.2))) := by
  have hentries : total.entries.map (fun e ↦ (e.1, view 4 e.2)) =
      graph.map fun e ↦ (e.1, view 4 (shown e.2)) := by
    rw [total_entries, List.map_map]
    rfl
  rw [← hentries]
  rfl

theorem unpackSnapshot_packed {slot : String} {n : ℤ} (hslot : Numeral.int? slot = some n) :
    unpackSnapshot host (packed slot) = .ok (observation n) := by
  have haccounts : ((graph.map fun e ↦ (e.1, Json.str (hexEncode e.2.bytes))).mapM fun m ↦ do
      let value ← getObject host m.2
      let view ← accountView value
      pure (m.1, view)) = .ok (graph.map fun e ↦ (e.1, view 4 (shown e.2))) := by
    rw [mapM_eq_ok, List.forall₂_map_left_iff, List.forall₂_map_right_iff, List.forall₂_same]
    intro e he
    rw [getObject_stored he]
    simp only [bind_eq_ok, Except.ok.injEq, exists_eq_left', accountView_stored, pure_eq_ok]
  have hnow : Numeral.int? "0" = some 0 := by rfl
  have hslot' : ((packed slot).get "slot").asStr?.bind Numeral.int? = some n := hslot
  have hnow' : ((packed slot).get "now").asStr?.bind Numeral.int? = some 0 := hnow
  simp only [unpackSnapshot, bind_eq_ok, okOr_eq_ok, require_eq_ok, pure_eq_ok, exists_const]
  refine ⟨_, rfl, by simp [graph, fixed, external, histories, keyRecords], _, haccounts, _, rfl, _,
    rfl, _, rfl, _, rfl, n,
    hslot', 0, hnow', ?_⟩
  rw [← observation_accounts n]
  rfl

def payload (slot : String) : Json := .obj [
  ("manifest", .str (hexEncode manifestKey.bytes)), ("snapshot", packed slot),
  ("provenance", .obj [("expected_genesis_hash", .str (shown genesisHash)),
    ("manifest_sha256", .str (hexEncode manifestKey.bytes)), ("context_slot", .str slot),
    ("final_account_count", .int 18), ("requested_commitment", .str "finalized"),
    ("single_final_response", .bool true), ("discovery_bytes_used_in_snapshot", .bool false)])]

theorem checkManifest_manifest {j : Journal} (hinitial : j.run.initialManifest = manifest)
    (hlast : j.lastManifest = manifest) : checkManifest host j manifest = .ok addresses := by
  have hexternal : (external.map showEntry).all fun e ↦
      ((manifest.get "external_accounts").get e.1).asStr? == some e.2 := by
    simp [external, showEntry, manifest, Json.get, Json.get?, List.lookup_cons, Json.asStr?]
  simp only [checkManifest, hinitial, hlast, externalAccounts_manifest, approvalPeriods_manifest,
    bind_eq_ok, require_eq_ok, pure_eq_ok, exists_const, Except.ok.injEq, exists_eq_left']
  exact ⟨addresses, validateManifest_manifest, by simp, hexternal, rfl, rfl⟩

theorem observation_entries (n : ℤ) : (observation n).accounts.entries =
    graph.map fun e ↦ (e.1, view 4 (shown e.2)) := by
  have hnames : (graph.map fun e ↦ (e.1, view 4 (shown e.2))).map Prod.fst =
      total.entries.map Prod.fst := by
    rw [total_entries, List.map_map, List.map_map]
    rfl
  rw [observation_accounts, Dict.ofList_entries]
  rw [hnames]
  exact total.nodup

theorem all_contains {α : Type} [BEq α] [LawfulBEq α] (xs : List α) : xs.all xs.contains = true :=
  List.all_eq_true.mpr fun _ hx ↦ List.contains_iff_mem.mpr hx

theorem bindIdentity_observation (n : ℤ) :
    bindIdentity platform (observation n) expected = .ok policyView := by
  -- The slot is not read.
  have hsame : bindIdentity platform (observation n) expected =
      bindIdentity platform (snapshot 4 total) expected := rfl
  rw [hsame]
  exact bindIdentity_snapshot total_policy

theorem readPolicy_observation (n : ℤ) : (observation n).readPolicy platform = .ok policyView := by
  have hbind := bindIdentity_observation n
  simp only [bindIdentity, bind_eq_ok, pure_eq_ok] at hbind
  obtain ⟨p, hp, -, -, rfl⟩ := hbind
  exact hp

theorem unpack_payload {j : Journal} {slot : String} {n : ℤ}
    (hinitial : j.run.initialManifest = manifest) (hlast : j.lastManifest = manifest)
    (hslot : Numeral.int? slot = some n) :
    unpack host j (payload slot) = .ok (manifest, observation n) := by
  have hshown : (observation n).accounts.entries.map (fun e ↦ (e.1, e.2.address)) =
      total.entries := by
    rw [observation_entries, List.map_map, total_entries]
    rfl
  have hkeys : keyAddresses platform (snapshot 4 total) history (shown policyKey) = .ok keys :=
    keyAddresses_snapshot (get?_of_mem total_entries (by simp [graph, histories]))
      (get?_of_mem total_entries (by simp [graph, histories]))
  have hlength : (observation n).accounts.length = 18 := by
    rw [Dict.length, observation_entries, List.length_map]
    rfl
  simp only [unpack, bind_eq_ok, require_eq_ok, pure_eq_ok, exists_const]
  refine ⟨manifest, getObject_manifest, addresses, checkManifest_manifest hinitial hlast,
    observation n, unpackSnapshot_packed hslot, policyView, ?_, [0], approvalPeriods_manifest,
    history, history_policyView, keys, hkeys, ?_, true, rfl, rfl, ?_, rfl⟩
  · rw [expected_get]
    exact bindIdentity_observation n
  · rw [hshown]
    exact ⟨all_contains _, all_contains _⟩
  · rw [hlength, expected_get, expected_key ("genesis_hash", genesisHash) (by simp [expectedKeys])]
    exact ⟨rfl, congrArg some digest_manifest.symm, rfl, rfl, rfl, rfl, rfl⟩

def run : Json := .obj [
  ("schema", .str RUN_SCHEMA), ("program_sha256", .str ""), ("runtime_sha256", .obj []),
  ("initial_manifest", manifest), ("declared_origin", .str "unknown"),
  ("max_gap_seconds", .int 900), ("tolerance_seconds", .int 30)]

/-- The digest of the record before a sequence number, and of the run before all of them. -/
def hash (sequence : ℕ) : String := hexEncode (leBytes 32 sequence)

def fields (sequence : ℕ) (kind : String) (wallNs : ℤ) (payload : Json) : List (String × Json) := [
  ("schema", .str EVENT_SCHEMA), ("sequence", .int sequence), ("previous", .str (hash sequence)),
  ("run_sha256", .str (hash 0)), ("kind", .str kind), ("session", .str "observer"),
  ("wall_ns", .int wallNs), ("monotonic_ns", .int wallNs), ("boot_id", .str "boot"),
  ("payload", payload)]

def line (sequence : ℕ) (kind : String) (wallNs : ℤ) (payload : Json) : Json :=
  .obj (fields sequence kind wallNs payload ++ [("sha256", .str (hash (sequence + 1)))])

theorem digest_fields (sequence : ℕ) (kind : String) (wallNs : ℤ) (payload : Json) :
    digest (.obj (fields sequence kind wallNs payload)) = hash (sequence + 1) := by
  have hnat : ((sequence : ℤ) + 1).toNat = sequence + 1 := by omega
  simp [digest, fields, Json.get, Json.get?, List.lookup_cons, Json.asStr?, Json.asInt?, hnat, hash]

theorem accept_line {j k : Journal} {kind : String} {wallNs : ℤ} {payload : Json}
    (hrun : j.run.hash = hash 0) (hhead : j.head = hash j.count) (hwall : 0 < wallNs)
    (hk : acceptKind host j kind "observer" wallNs payload = .ok k) :
    accept host j (line j.count kind wallNs payload) = .ok { k with
      anomalies := match k.lastEvent with
        | none => k.anomalies
        | some old => hostAnomalies k.run old ⟨wallNs, wallNs, "boot"⟩ k.anomalies
      lastEvent := some ⟨wallNs, wallNs, "boot"⟩
      head := hash (j.count + 1)
      count := k.count + 1 } := by
  have hbody : digest (body (fields j.count kind wallNs payload ++
      [("sha256", .str (hash (j.count + 1)))])) = hash (j.count + 1) := by
    rw [← digest_fields j.count kind wallNs payload]
    simp [body, fields]
  simp only [accept, bind_eq_ok, require_eq_ok, okOr_eq_ok, pure_eq_ok, exists_const]
  refine ⟨_, rfl, ?_, ?_, ?_, wallNs, rfl, wallNs, rfl, ⟨hwall, hwall⟩, "observer", rfl, "boot", rfl,
    by decide, kind, rfl, k, hk, ?_⟩
  · exact keysAre_of_eq rfl
  · exact ⟨rfl, congrArg some hrun.symm⟩
  · exact ⟨congrArg some hbody.symm, congrArg some hhead.symm, rfl⟩
  · have hdigest : host.digest (body (fields j.count kind wallNs payload ++
        [("sha256", .str (hash (j.count + 1)))])) = hash (j.count + 1) := hbody
    exact hdigest ▸ rfl

theorem hostAnomalies_eq_nil {r : Run} {a b : ℤ} (hle : a ≤ b) (htolerance : 0 ≤ r.toleranceSeconds) :
    hostAnomalies r ⟨a, a, "boot"⟩ ⟨b, b, "boot"⟩ [] = [] := by
  have hseconds : 0 ≤ seconds (b - a) := by
    have hsub : (0 : ℚ) ≤ (b - a : ℤ) := by exact_mod_cast Int.sub_nonneg_of_le hle
    exact div_nonneg hsub (by norm_num)
  simp only [hostAnomalies, ne_eq, not_true_eq_false, if_false, note_eq_nil, sub_self, abs_zero,
    not_lt, not_or, gt_iff_lt, and_true]
  exact ⟨⟨hseconds, by exact_mod_cast htolerance⟩, hseconds⟩

/-- The time of the first event and then of the samples, one every 30 seconds. -/
def wallAt : ℕ → ℤ
  | 0 => 1
  | n + 1 => 1000000000 + 30000000000 * n

theorem wallAt_pos (n : ℕ) : 0 < wallAt n := by
  cases n with
  | zero => decide
  | succ n =>
    unfold wallAt
    positivity

theorem wallAt_le (n : ℕ) : wallAt n ≤ wallAt (n + 1) := by
  cases n with
  | zero => decide
  | succ n =>
    unfold wallAt
    push_cast
    omega

def sampleAt (n : ℕ) : Sample := ⟨100 + n, 0, wallAt n⟩

/-- The bank clock lags just by the tolerance. -/
theorem close_sampleAt {r : Run} (n : ℕ) (hgap : r.maxGapSeconds = 900)
    (htolerance : r.toleranceSeconds = 30) : Close r (sampleAt (n + 1)) (sampleAt (n + 2)) := by
  have hdelta : seconds (wallAt (n + 2) - wallAt (n + 1)) = 30 := by
    have hsub : wallAt (n + 2) - wallAt (n + 1) = 30000000000 := by
      unfold wallAt
      push_cast
      ring
    rw [hsub]
    norm_num [seconds]
  refine ⟨?_, le_rfl, ?_, ?_⟩
  · simp [sampleAt]
  · rw [sampleAt, sampleAt, hdelta, hgap]
    norm_num
  · rw [sampleAt, sampleAt, hdelta, htolerance]
    norm_num

/-- A journal after so many samples. -/
structure Drifts (j : Journal) (n : ℕ) : Prop where
  run : j.run = ⟨hash 0, manifest, 900, 30⟩
  head : j.head = hash j.count
  count : j.count = n + 1
  lastManifest : j.lastManifest = manifest
  activeSession : j.activeSession = some "observer"
  anomalies : j.anomalies = []
  samples : j.samples = n
  lastEvent : j.lastEvent = some ⟨wallAt n, wallAt n, "boot"⟩
  lastSample : j.lastSample = if n = 0 then none else some (sampleAt n)
  firstSample : j.firstSample = if n = 0 then none else some (sampleAt 1)
  lastPolicy : n ≠ 0 → j.lastPolicy = some policyView

theorem Drifts.acceptSample {j : Journal} {n : ℕ} {slot : String} (hj : Drifts j n)
    (hslot : Numeral.int? slot = some (sampleAt (n + 1)).slot) :
    ∃ k, acceptSample host j (wallAt (n + 1)) (payload slot) = .ok k ∧ k.run = j.run ∧
      k.count = j.count ∧ k.lastManifest = manifest ∧ k.activeSession = j.activeSession ∧
      k.anomalies = [] ∧ k.samples = n + 1 ∧ k.lastEvent = j.lastEvent ∧
      k.lastSample = some (sampleAt (n + 1)) ∧ k.firstSample = some (sampleAt 1) ∧
      k.lastPolicy = some policyView := by
  have hunpack := unpack_payload (congrArg Run.initialManifest hj.run) hj.lastManifest hslot
  have hread : (observation (sampleAt (n + 1)).slot).readPolicy host.chain = .ok policyView :=
    readPolicy_observation _
  have hkeys : keysAre [("manifest", Json.str (hexEncode manifestKey.bytes)), ("snapshot", packed slot),
      ("provenance", (payload slot).get "provenance")] ["manifest", "snapshot", "provenance"] :=
    keysAre_of_eq rfl
  cases n with
  | zero =>
    have hlast : j.lastSample = none := hj.lastSample
    have hfirst : j.firstSample = none := hj.firstSample
    refine ⟨{ j with
      firstSample := some (sampleAt 1)
      lastSample := some (sampleAt 1)
      lastPolicy := some policyView
      lastManifest := manifest
      samples := j.samples + 1 }, ?_, rfl, rfl, rfl, rfl, hj.anomalies, ?_, rfl, rfl, rfl, rfl⟩
    · simp only [Soak.acceptSample, bind_eq_ok, require_eq_ok, okOr_eq_ok, exists_const]
      refine ⟨_, rfl, hkeys, _, hunpack, _, hread, ?_⟩
      rw [hlast]
      simp only [bind_eq_ok, pure_eq_ok, exists_eq_left', hfirst]
      rfl
    · rw [hj.samples]
  | succ n =>
    have hlast : j.lastSample = some (sampleAt (n + 1)) := hj.lastSample
    have hfirst : j.firstSample = some (sampleAt 1) := hj.firstSample
    have hpolicy := hj.lastPolicy (by omega)
    refine ⟨{ j with
      maxObservedGapSeconds :=
        max j.maxObservedGapSeconds (seconds (wallAt (n + 2) - wallAt (n + 1)))
      anomalies := sampleAnomalies j.run (sampleAt (n + 1)) (sampleAt (n + 2)) j.anomalies
      firstSample := some (sampleAt 1)
      lastSample := some (sampleAt (n + 2))
      lastPolicy := some policyView
      lastManifest := manifest
      samples := j.samples + 1 }, ?_, rfl, rfl, rfl, rfl, ?_, ?_, rfl, rfl, rfl, rfl⟩
    · simp only [Soak.acceptSample, bind_eq_ok, require_eq_ok, okOr_eq_ok, exists_const]
      refine ⟨_, rfl, hkeys, _, hunpack, _, hread, ?_⟩
      rw [hlast]
      simp only [bind_eq_ok, require_eq_ok, okOr_eq_ok, exists_const, pure_eq_ok, exists_eq_left',
        hfirst]
      exact ⟨_, hpolicy, rfl, ⟨le_rfl, le_rfl, le_rfl, le_rfl⟩, rfl⟩
    · refine sampleAnomalies_eq_nil.mpr ⟨close_sampleAt n ?_ ?_, hj.anomalies⟩
      · rw [hj.run]
      · rw [hj.run]
    · rw [hj.samples]

theorem Drifts.sample {j : Journal} {n : ℕ} {slot : String} (hj : Drifts j n)
    (hslot : Numeral.int? slot = some (sampleAt (n + 1)).slot) :
    ∃ j', accept host j (line (n + 1) "SAMPLE" (wallAt (n + 1)) (payload slot)) = .ok j' ∧
      Drifts j' (n + 1) := by
  obtain ⟨k, hk, hrun, hcount, hmanifest, hsession, hcalm, hsamples, hevent, hlast, hfirst, hpolicy⟩ :=
    hj.acceptSample hslot
  have hkind : acceptKind host j "SAMPLE" "observer" (wallAt (n + 1)) (payload slot) = .ok k := by
    unfold acceptKind
    rw [if_neg (by decide), hj.activeSession, if_pos rfl, bind_eq_ok]
    exact ⟨(), by simp, hk⟩
  have haccept := accept_line (congrArg Run.hash hj.run) hj.head (wallAt_pos (n + 1)) hkind
  rw [hj.count] at haccept
  refine ⟨_, haccept, ?_⟩
  exact {
    run := hrun.trans hj.run
    head := by rw [hcount, hj.count]
    count := by rw [hcount, hj.count]
    lastManifest := hmanifest
    activeSession := hsession.trans hj.activeSession
    anomalies := by
      rw [hevent, hj.lastEvent, hrun, hcalm]
      exact hostAnomalies_eq_nil (wallAt_le n) (by rw [hj.run]; decide)
    samples := hsamples
    lastEvent := rfl
    lastSample := hlast
    firstSample := hfirst
    lastPolicy := fun _ ↦ hpolicy }

def opened : Journal where
  run := ⟨hash 0, manifest, 900, 30⟩
  lastManifest := manifest

/-- A session of three samples. -/
def lines : List Json := [
  line 0 "START" (wallAt 0) (.obj []),
  line 1 "SAMPLE" (wallAt 1) (payload "101"),
  line 2 "SAMPLE" (wallAt 2) (payload "102"),
  line 3 "SAMPLE" (wallAt 3) (payload "103")]

end Drifting

end FundingVaults.Soak
