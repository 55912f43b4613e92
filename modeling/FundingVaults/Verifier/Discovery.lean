import FundingVaults.Verifier.Base58
import FundingVaults.Verifier.Identity
import Mathlib.Data.List.Nodup

/-!
# What a snapshot calls for

The accounts that the exporter discovers, by their names and the seeds of their addresses: the
history that the counters of a policy call for, and the records of the keys that the proposals and
approvals of the history name.
-/

namespace FundingVaults.Verifier

variable {chain : Chain}

/-- The entries are the names, each at the address that is derived from its seeds. -/
structure Addressed (chain : Chain) (names : String → List Bytes → Prop)
    (entries : List (String × String)) : Prop where
  sound : ∀ e ∈ entries, ∃ seeds, names e.1 seeds ∧ pda chain seeds PROGRAM = .ok e.2
  complete : ∀ {name seeds}, names name seeds → ∃ address, pda chain seeds PROGRAM = .ok address ∧
    (name, address) ∈ entries

theorem Addressed.append {names names' : String → List Bytes → Prop}
    {es es' : List (String × String)} (h : Addressed chain names es)
    (h' : Addressed chain names' es') :
    Addressed chain (fun name seeds ↦ names name seeds ∨ names' name seeds) (es ++ es') where
  sound e he := by
    rcases List.mem_append.mp he with he | he
    · obtain ⟨seeds, hname, haddress⟩ := h.sound e he
      exact ⟨seeds, .inl hname, haddress⟩
    · obtain ⟨seeds, hname, haddress⟩ := h'.sound e he
      exact ⟨seeds, .inr hname, haddress⟩
  complete hname := by
    rcases hname with hname | hname
    · obtain ⟨address, haddress, hmem⟩ := h.complete hname
      exact ⟨address, haddress, List.mem_append_left _ hmem⟩
    · obtain ⟨address, haddress, hmem⟩ := h'.complete hname
      exact ⟨address, haddress, List.mem_append_right _ hmem⟩

theorem Addressed.congr {names names' : String → List Bytes → Prop} {es : List (String × String)}
    (h : Addressed chain names es) (hnames : ∀ name seeds, names name seeds ↔ names' name seeds) :
    Addressed chain names' es := by
  have heq : names = names' := funext fun name ↦ funext fun seeds ↦ propext (hnames name seeds)
  rwa [← heq]

/-! ## Labels -/

theorem startsWith_append (label rest : String) : startsWith (label ++ rest) label := by
  rw [startsWith, String.toList_append, List.isPrefixOf_iff_prefix]
  exact List.prefix_append _ _

/-- Two labels of one name agree as far as they go. -/
theorem startsWith_agree {name l l' : String} (h : startsWith name l) (h' : startsWith name l') :
    l.toList.isPrefixOf l'.toList ∨ l'.toList.isPrefixOf l.toList := by
  rw [startsWith, List.isPrefixOf_iff_prefix] at h h'
  rw [List.isPrefixOf_iff_prefix, List.isPrefixOf_iff_prefix]
  exact List.prefix_or_prefix_of_prefix h h'

/-- Neither label is the start of the other. -/
def Apart (l l' : String) : Prop :=
  ¬ (l.toList.isPrefixOf l'.toList ∨ l'.toList.isPrefixOf l.toList)

instance : DecidableRel Apart := fun _ _ ↦ inferInstanceAs (Decidable (¬ _))

theorem Apart.startsWith {l l' : String} (h : Apart l l') (rest : String) :
    startsWith (l ++ rest) l' = false :=
  Bool.eq_false_iff.mpr fun hstarts ↦ h (startsWith_agree (startsWith_append l rest) hstarts)

theorem toString_nat_inj {m n : ℕ} (h : toString m = toString n) : m = n := by
  have hdigits := congrArg (fun s : String ↦ Nat.ofDigitChars 10 s.toList 0) h
  simpa using hdigits

theorem toString_inj {m n : ℤ} (hm : 0 ≤ m) (hn : 0 ≤ n) (h : toString m = toString n) : m = n := by
  obtain ⟨m, rfl⟩ := Int.eq_ofNat_of_zero_le hm
  obtain ⟨n, rfl⟩ := Int.eq_ofNat_of_zero_le hn
  exact congrArg _ (toString_nat_inj h)

theorem append_left_inj {label s s' : String} (h : label ++ s = label ++ s') : s = s' := by
  have hlist := congrArg String.toList h
  rw [String.toList_append, String.toList_append] at hlist
  exact String.toList_injective (List.append_cancel_left hlist)

/-- The names of a label with a number after it. -/
def numberedNames (label : String) (ns : List ℤ) : List String := ns.map (label ++ toString ·)

theorem numberedNames_nodup {label : String} {ns : List ℤ} (hn : ns.Nodup) (h₀ : ∀ n ∈ ns, 0 ≤ n) :
    (numberedNames label ns).Nodup :=
  hn.map_on fun m hm n hn' h ↦ toString_inj (h₀ m hm) (h₀ n hn') (append_left_inj h)

theorem numberedNames_disjoint {l l' : String} (h : Apart l l') (ns ns' : List ℤ) :
    (numberedNames l ns).Disjoint (numberedNames l' ns') := by
  intro name hname hname'
  obtain ⟨m, -, rfl⟩ := List.mem_map.mp hname
  obtain ⟨n, -, heq⟩ := List.mem_map.mp hname'
  exact h (startsWith_agree (startsWith_append l _) (heq ▸ startsWith_append l' (toString n)))

/-! ## Histories -/

theorem mem_upTo {m n : ℤ} : m ∈ upTo n ↔ 1 ≤ m ∧ m ≤ n := by
  rw [upTo, List.mem_map]
  constructor
  · rintro ⟨i, hi, rfl⟩
    rw [List.mem_range] at hi
    omega
  · rintro ⟨hpos, hle⟩
    exact ⟨(m - 1).toNat, List.mem_range.mpr (by omega), by omega⟩

theorem upTo_nodup (n : ℤ) : (upTo n).Nodup :=
  List.nodup_range.map fun i j h ↦ by simpa using h

theorem numbered_spec {label : String} {seeds : List Bytes} {ns : List ℤ}
    {es : List (String × String)} (h : numbered chain label seeds ns = .ok es) :
    es.map Prod.fst = numberedNames label ns ∧
      Addressed chain (fun name s ↦ ∃ n ∈ ns, name = label ++ toString n ∧ s = seeds ++ [pack .Q n])
        es := by
  have hturn : ∀ {n : ℤ} {e : String × String}, (do
      let address ← pda chain (seeds ++ [pack .Q n]) PROGRAM
      pure (label ++ toString n, address)) = Except.ok e ↔
        e.1 = label ++ toString n ∧ pda chain (seeds ++ [pack .Q n]) PROGRAM = .ok e.2 := by
    intro n e
    rw [bind_eq_ok]
    constructor
    · rintro ⟨address, haddress, he⟩
      obtain rfl := Except.ok.inj he
      exact ⟨rfl, haddress⟩
    · rintro ⟨hname, haddress⟩
      exact ⟨e.2, haddress, congrArg Except.ok (Prod.ext hname.symm rfl)⟩
  refine ⟨?_, fun e he ↦ ?_, fun {name s} hn ↦ ?_⟩
  · exact map_of_mapM h fun hx ↦ (hturn.mp hx).1
  · obtain ⟨n, hn, hx⟩ := exists_of_mapM h he
    exact ⟨_, ⟨n, hn, (hturn.mp hx).1, rfl⟩, (hturn.mp hx).2⟩
  · obtain ⟨n, hn, rfl, rfl⟩ := hn
    obtain ⟨e, he, hx⟩ := ok_of_mapM h hn
    obtain ⟨hname, haddress⟩ := hturn.mp hx
    exact ⟨e.2, haddress, hname ▸ he⟩

/-- A role that is missing has no withdrawals. -/
theorem mem_upTo_getD {roles : List Role} {first n : ℤ} {r : ℕ} :
    n ∈ upTo ((first :: roles.map Role.sequence).getD (r + 1) 0) ↔
      ∃ role, roles[r]? = some role ∧ 1 ≤ n ∧ n ≤ role.sequence := by
  rw [mem_upTo, List.getD_cons_succ, List.getD_eq_getElem?_getD, List.getElem?_map]
  cases roles[r]? with
  | none =>
    simp only [Option.map_none, Option.getD_none, reduceCtorEq, false_and, exists_false, iff_false]
    omega
  | some role => simp

/-- The accounts of the history of a policy with the key `key`: its changes, the withdrawals of each
role, and the approvals of the periods. -/
inductive HistorySeeds (p : PolicyView) (periods : List ℤ) (key : Bytes) :
    String → List Bytes → Prop where
  | change {n : ℤ} (hn : 1 ≤ n ∧ n ≤ p.changeSequence) :
      HistorySeeds p periods key ("change_" ++ toString n)
        [ascii "launch-v7-change", key, pack .Q n]
  | withdrawal {r : ℕ} {role : Role} {n : ℤ} (hr : r < 2) (hrole : p.withdrawal[r]? = some role)
      (hn : 1 ≤ n ∧ n ≤ role.sequence) :
      HistorySeeds p periods key ("withdrawal_" ++ toString r ++ "_" ++ toString n)
        [ascii "launch-v7-withdraw", key, [.ofNat r], pack .Q n]
  | approval {n : ℤ} (hn : n ∈ periods) :
      HistorySeeds p periods key ("approval_" ++ toString n)
        [ascii "launch-v7-approval", key, pack .Q n]

/-- The history that is exported has the accounts that the counters of the policy and the periods
call for, and no others. -/
theorem historyAddresses_spec {p : PolicyView} {periods : List ℤ} {history : Dict String String}
    (h : historyAddresses chain p periods = .ok history)
    (hperiods : periods.Nodup ∧ ∀ n ∈ periods, 0 ≤ n) : ∃ key, pubkey p.address = .ok key ∧
      Addressed chain (HistorySeeds p periods key) history.entries := by
  simp only [historyAddresses, bind_eq_ok, require_eq_ok, exists_const, pure_eq_ok] at h
  obtain ⟨-, -, key, hkey, changes, hchanges, founder, hfounder, treasury, htreasury, approvals,
    happrovals, rfl⟩ := h
  obtain ⟨hnames, hchanges⟩ := numbered_spec hchanges
  obtain ⟨hnames', hfounder⟩ := numbered_spec hfounder
  obtain ⟨hnames₂, htreasury⟩ := numbered_spec htreasury
  obtain ⟨hnames₃, happrovals⟩ := numbered_spec happrovals
  have hpositive : ∀ n : ℤ, ∀ m ∈ upTo n, 0 ≤ m := fun n m hm ↦ by
    have := (mem_upTo.mp hm).1
    omega
  have hnodup : ((changes ++ founder ++ treasury ++ approvals).map Prod.fst).Nodup := by
    rw [List.map_append, List.map_append, List.map_append, hnames, hnames', hnames₂, hnames₃]
    refine ((List.Nodup.append ?_ ?_ ?_).append ?_ ?_).append ?_ ?_
    · exact numberedNames_nodup (upTo_nodup _) (hpositive _)
    · exact numberedNames_nodup (upTo_nodup _) (hpositive _)
    · exact numberedNames_disjoint (by decide) _ _
    · exact numberedNames_nodup (upTo_nodup _) (hpositive _)
    · exact List.disjoint_append_left.mpr ⟨numberedNames_disjoint (by decide) _ _,
        numberedNames_disjoint (by decide) _ _⟩
    · exact numberedNames_nodup hperiods.1 hperiods.2
    · exact List.disjoint_append_left.mpr ⟨List.disjoint_append_left.mpr
        ⟨numberedNames_disjoint (by decide) _ _, numberedNames_disjoint (by decide) _ _⟩,
        numberedNames_disjoint (by decide) _ _⟩
  have hentries :
      ((((Dict.ofList changes).update founder).update treasury).update approvals).entries =
        changes ++ founder ++ treasury ++ approvals := by
    have hjoined : (((Dict.ofList changes).update founder).update treasury).update approvals =
        Dict.ofList (changes ++ founder ++ treasury ++ approvals) := by
      simp only [Dict.ofList, Dict.update, List.foldl_append]
    rw [hjoined, Dict.ofList_entries hnodup]
  refine ⟨key, hkey, ?_⟩
  rw [hentries]
  refine (((hchanges.append hfounder).append htreasury).append happrovals).congr fun name seeds ↦ ?_
  constructor
  · rintro (((⟨n, hn, rfl, rfl⟩ | ⟨n, hn, rfl, rfl⟩) | ⟨n, hn, rfl, rfl⟩) | ⟨n, hn, rfl, rfl⟩)
    · exact .change (mem_upTo.mp hn)
    · obtain ⟨role, hrole, hn⟩ := mem_upTo_getD.mp hn
      exact .withdrawal (by decide) hrole hn
    · obtain ⟨role, hrole, hn⟩ := mem_upTo_getD.mp hn
      exact .withdrawal (by decide) hrole hn
    · exact .approval hn
  · intro hname
    cases hname with
    | change hn => exact .inl (.inl (.inl ⟨_, mem_upTo.mpr hn, rfl, rfl⟩))
    | @withdrawal r role n hr hrole hn =>
      interval_cases r
      · exact .inl (.inl (.inr ⟨n, mem_upTo_getD.mpr ⟨role, hrole, hn⟩, rfl, rfl⟩))
      · exact .inl (.inr ⟨n, mem_upTo_getD.mpr ⟨role, hrole, hn⟩, rfl, rfl⟩)
    | approval hn => exact .inr ⟨_, hn, rfl, rfl⟩

/-! ## Keys -/

/-- The accounts of a history that name a key: by their name, their type, and the length of their
data and the place of the key in it. -/
inductive Record (p : PolicyView) (periods : List ℤ) : String → String → ℕ → ℕ → Prop where
  | withdrawal {r : ℕ} {role : Role} {n : ℤ} (hr : r < 2) (hrole : p.withdrawal[r]? = some role)
      (hn : 1 ≤ n ∧ n ≤ role.sequence) :
      Record p periods ("withdrawal_" ++ toString r ++ "_" ++ toString n) "WithdrawalProposalV7"
        172 89
  | approval {n : ℤ} (hn : n ∈ periods) :
      Record p periods ("approval_" ++ toString n) "TreasuryApprovalV7" 177 80

/-- The account of the snapshot names the key `k`. -/
def NamesKey (chain : Chain) (s : Snapshot) (name typename : String) (length offset : ℕ)
    (k : Bytes) : Prop :=
  ∃ address data, s.account chain name PROGRAM typename = .ok (address, data) ∧
    data.length = length ∧ slice data offset 32 = k

/-- The entries are the records of the keys that the accounts of the history name, and each of these
accounts names one. -/
structure Keyed (chain : Chain) (s : Snapshot) (p : PolicyView) (periods : List ℤ) (key : Bytes)
    (entries : List (String × String)) : Prop where
  sound : ∀ e ∈ entries, ∃ name typename length offset k,
    Record p periods name typename length offset ∧ NamesKey chain s name typename length offset k ∧
      e.1 = "key_" ++ base58Encode k ∧
        pda chain [ascii "launch-v7-key", key, k] PROGRAM = .ok e.2
  complete : ∀ {name typename length offset}, Record p periods name typename length offset →
    ∃ k address, NamesKey chain s name typename length offset k ∧
      pda chain [ascii "launch-v7-key", key, k] PROGRAM = .ok address ∧
        ("key_" ++ base58Encode k, address) ∈ entries

section Keys

variable {s : Snapshot} {p : PolicyView} {periods : List ℤ} {key : Bytes}
  {name typename policy : String} {length offset : ℕ} {history keys : Dict String String}

theorem subject_eq_ok {o : Option String} :
    subject chain s name typename policy length offset = .ok o ↔
    ∃ k, NamesKey chain s name typename length offset k ∧ o = some (base58Encode k) := by
  simp only [subject, bind_eq_ok, require_eq_ok, pure_eq_ok, exists_const, Prod.exists, NamesKey]
  constructor
  · rintro ⟨address, data, haccount, hlength, rfl⟩
    exact ⟨_, ⟨address, data, haccount, hlength, rfl⟩, rfl⟩
  · rintro ⟨_, ⟨address, data, haccount, hlength, rfl⟩, rfl⟩
    exact ⟨address, data, haccount, hlength, rfl⟩

/-- An account that names a key is read for it. -/
theorem Record.subjectOf (h : Record p periods name typename length offset) {o : Option String} :
    subjectOf chain s name = .ok o ↔
      ∃ k, NamesKey chain s name typename length offset k ∧ o = some (base58Encode k) := by
  cases h with
  | @withdrawal r role n hr hrole hn =>
    have hstarts : startsWith ("withdrawal_" ++ toString r ++ "_" ++ toString n) "withdrawal_" := by
      rw [String.append_assoc, String.append_assoc]
      exact startsWith_append _ _
    rw [Verifier.subjectOf, if_pos hstarts, subject_eq_ok]
  | @approval n hn =>
    have hnot : startsWith ("approval_" ++ toString n) "withdrawal_" = false :=
      Apart.startsWith (by decide) _
    have hstarts : startsWith ("approval_" ++ toString n) "approval_" := startsWith_append _ _
    rw [Verifier.subjectOf, if_neg (Bool.eq_false_iff.mp hnot), if_pos hstarts, subject_eq_ok]

theorem Record.width {k : Bytes} (h : Record p periods name typename length offset)
    (hk : NamesKey chain s name typename length offset k) : k.length = 32 := by
  obtain ⟨_, data, -, hlength, rfl⟩ := hk
  cases h with
  | withdrawal => simp [slice, hlength]
  | approval => simp [slice, hlength]

/-- Every name of a history is that of a record, or of a change, which names no key. -/
theorem HistorySeeds.record {seeds : List Bytes} (h : HistorySeeds p periods key name seeds) :
    (∃ typename length offset, Record p periods name typename length offset) ∨
      subjectOf chain s name = .ok none := by
  cases h with
  | @change n hn =>
    have hnot : startsWith ("change_" ++ toString n) "withdrawal_" = false :=
      Apart.startsWith (by decide) _
    have hnot' : startsWith ("change_" ++ toString n) "approval_" = false :=
      Apart.startsWith (by decide) _
    right
    rw [Verifier.subjectOf, if_neg (Bool.eq_false_iff.mp hnot), if_neg (Bool.eq_false_iff.mp hnot')]
  | withdrawal hr hrole hn => exact .inl ⟨_, _, _, .withdrawal hr hrole hn⟩
  | approval hn => exact .inl ⟨_, _, _, .approval hn⟩

theorem Record.mem_keys (h : Record p periods name typename length offset)
    (hhistory : Addressed chain (HistorySeeds p periods key) history.entries) :
    name ∈ history.keys := by
  have hname : ∃ seeds, HistorySeeds p periods key name seeds := by
    cases h with
    | withdrawal hr hrole hn => exact ⟨_, .withdrawal hr hrole hn⟩
    | approval hn => exact ⟨_, .approval hn⟩
  obtain ⟨seeds, hseeds⟩ := hname
  obtain ⟨address, -, hmem⟩ := hhistory.complete hseeds
  exact List.mem_map_of_mem hmem

theorem mem_sortedSet {α : Type} [DecidableEq α] {r : α → α → Prop} [DecidableRel r] {xs : List α}
    {a : α} : a ∈ sortedSet r xs ↔ a ∈ xs := by
  rw [sortedSet, List.mem_insertionSort, List.mem_dedup]

theorem sortedSet_nodup {α : Type} [DecidableEq α] {r : α → α → Prop} [DecidableRel r]
    (xs : List α) : (sortedSet r xs).Nodup :=
  (List.perm_insertionSort r xs.dedup).nodup_iff.mpr xs.nodup_dedup

theorem keyAddresses_spec (h : keyAddresses chain s history policy = .ok keys)
    (hkey : pubkey policy = .ok key)
    (hhistory : Addressed chain (HistorySeeds p periods key) history.entries) :
    Keyed chain s p periods key keys.entries := by
  simp only [keyAddresses, bind_eq_ok, pure_eq_ok] at h
  obtain ⟨subjects, hsubjects, es, hes, rfl⟩ := h
  have hturn : ∀ {text : String} {e : String × String}, (do
      let policyKey ← pubkey policy
      let key ← pubkey text
      let address ← pda chain [ascii "launch-v7-key", policyKey, key] PROGRAM
      pure ("key_" ++ text, address)) = Except.ok e ↔ e.1 = "key_" ++ text ∧ ∃ k,
        pubkey text = .ok k ∧ pda chain [ascii "launch-v7-key", key, k] PROGRAM = .ok e.2 := by
    intro text e
    simp only [hkey, bind_eq_ok, pure_eq_ok, Except.ok.injEq, exists_eq_left']
    constructor
    · rintro ⟨k, hk, address, haddress, rfl⟩
      exact ⟨rfl, k, hk, haddress⟩
    · rintro ⟨hname, k, hk, haddress⟩
      exact ⟨k, hk, e.2, haddress, Prod.ext hname.symm rfl⟩
  have hnames : es.map Prod.fst = (sortedSet (· ≤ ·) (subjects.filterMap id)).map ("key_" ++ ·) :=
    map_of_mapM hes fun hx ↦ (hturn.mp hx).1
  have hentries : (Dict.ofList es).entries = es := by
    refine Dict.ofList_entries ?_
    rw [hnames]
    exact (sortedSet_nodup _).map fun _ _ ↦ append_left_inj
  rw [hentries]
  constructor
  · intro e he
    obtain ⟨text, htext, hx⟩ := exists_of_mapM hes he
    obtain ⟨hname, k, hk, haddress⟩ := hturn.mp hx
    obtain ⟨o, ho, hsome⟩ := List.mem_filterMap.mp (mem_sortedSet.mp htext)
    obtain rfl : o = some text := hsome
    obtain ⟨name, hmem, hsubject⟩ := exists_of_mapM hsubjects ho
    obtain ⟨entry, hentry, rfl⟩ := List.mem_map.mp hmem
    obtain ⟨seeds, hseeds, -⟩ := hhistory.sound entry hentry
    rcases hseeds.record with ⟨typename, length, offset, hrecord⟩ | hnone
    · obtain ⟨k', hnames, heq⟩ := hrecord.subjectOf.mp hsubject
      obtain rfl := Option.some.inj heq
      obtain rfl := Except.ok.inj ((pubkey_encode (hrecord.width hnames)).symm.trans hk)
      exact ⟨_, _, _, _, k', hrecord, hnames, hname, haddress⟩
    · exact absurd (hnone.symm.trans hsubject) (by simp)
  · intro name typename length offset hrecord
    obtain ⟨o, ho, hsubject⟩ := ok_of_mapM hsubjects (hrecord.mem_keys hhistory)
    obtain ⟨k, hnames, rfl⟩ := hrecord.subjectOf.mp hsubject
    obtain ⟨e, he, hx⟩ := ok_of_mapM hes (mem_sortedSet.mpr (List.mem_filterMap.mpr ⟨_, ho, rfl⟩))
    obtain ⟨hname, k', hk', haddress⟩ := hturn.mp hx
    obtain rfl := Except.ok.inj ((pubkey_encode (hrecord.width hnames)).symm.trans hk')
    exact ⟨k, e.2, hnames, haddress, hname ▸ he⟩

end Keys

end FundingVaults.Verifier
