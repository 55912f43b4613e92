import FundingVaults.LaunchV7.Changes
import FundingVaults.LaunchV7.Order
import FundingVaults.Verifier.Acceptance
import FundingVaults.Verifier.Closure

/-!
# The ceilings of an accepted graph

What the verifier accepts says enough of the accounts that it was shown to decide every release:
the ceilings that it reports are the amounts up to which the program releases.
-/

namespace FundingVaults.Verifier

open LaunchV7 (Deployment LaunchPolicyV7 LaunchVaultV7 TreasuryApprovalV7 WithdrawalKeyV7 Ledger
  Limits PerRole ProgramAccount Seeds EligibleRecipient Canonical)

variable {chain : Chain} {s : Snapshot} {L : Ledger} {P : Pubkey} {p : PolicyView} {now : ℤ}

/-! ## Approvals -/

/-- An approval of the policy as the program keeps it. -/
structure Approves (chain : Chain) (L : Ledger) (P : Pubkey) (a : TreasuryApprovalV7) : Prop where
  stored : L.program ((Seeds.approval P a.period).address chain) = some (.approval a)
  bump : (Seeds.approval P a.period).bump chain = a.bump
  policy : a.policy = P
  counted : a.consumed ≤ a.need

theorem record_address {α : Type} {read : Reader Reason α} {name text owner : String} {b : α}
    {key : Pubkey} {data : Bytes} (h : s.record name read = .ok (text, b))
    (hlists : s.Lists name key owner data) : text = shown key := by
  simp only [Snapshot.record, Snapshot.located, bind_eq_ok, okOr_eq_ok, pure_eq_ok, Prod.exists,
    Prod.mk.injEq] at h
  obtain ⟨_, _, ⟨a, ha, _, -, _, -, _, -, _, -, rfl, rfl⟩, _, -, rfl, -⟩ := h
  obtain ⟨a', ha', haddress, -⟩ := hlists
  rw [ha] at ha'
  rw [Option.some.inj ha', haddress]

theorem approvalTurn_of {name : String} {b : Approval} (h : s.Shows chain L P) (hd : Derives chain)
    (hp : p.address = shown P) (hr : approvalTurn chain s p now name = .ok b) : ∃ a,
      Approval.of a = b ∧ Approves chain L P a ∧ ∀ {key data}, s.Lists name key PROGRAM data →
        L.program key = some (.approval a) := by
  simp only [approvalTurn, bind_eq_ok, require_eq_ok, pure_eq_ok, exists_const, Prod.exists, hp,
    pubkey_shown, Except.ok.injEq, exists_eq_left'] at hr
  obtain ⟨text, b, hrecord, expected, bump, hderived, ⟨-, rfl, rfl, hpolicy⟩, ⟨-, hcounted, -⟩, -,
    rfl⟩ := hr
  obtain ⟨key, a, rfl, rfl, hstored⟩ :=
    h.record approval_agrees .approval (fun _ ↦ rfl) hrecord trivial
  have hseeds : [ascii "launch-v7-approval", P.bytes, pack .Q (Approval.of a).period] =
      (Seeds.approval P a.period).bytes := by
    rw [show (Approval.of a).period = (a.period.val : ℤ) from rfl, pack_Q]
    rfl
  rw [hseeds, hd.derived, Except.ok.injEq, Prod.mk.injEq, shown_inj] at hderived
  obtain ⟨rfl, hbump⟩ := hderived
  refine ⟨a, rfl, {
    stored := hstored
    bump := UInt8.toNat_inj.mp (Nat.cast_inj.mp hbump)
    policy := shown_inj.mp hpolicy
    counted := Fin.le_def.mpr (Nat.cast_le.mp hcounted) }, fun hlists ↦ ?_⟩
  rwa [← shown_inj.mp (record_address hrecord hlists)]

theorem mem_named {label name : String} : name ∈ s.named label ↔
    startsWith name label = true ∧ ∃ a, s.accounts.get? name = some a := by
  have hkeys : name ∈ s.accounts.keys ↔ ∃ a, s.accounts.get? name = some a := by
    rw [← not_iff_not, ← Dict.get?_eq_none]
    simp [Option.eq_none_iff_forall_not_mem]
  rw [Snapshot.named, List.mem_filter, hkeys]
  exact and_comm

/-- The approvals that are read are those of the policy. -/
theorem readApprovals_of {approvals : List Approval} (h : s.Shows chain L P) (hd : Derives chain)
    (hp : p.address = shown P) (hr : readApprovals chain s p now = .ok approvals) :
    (∀ b ∈ approvals, ∃ a, Approval.of a = b ∧ Approves chain L P a) ∧
      ∀ {key a}, L.program key = some (.approval a) → a.policy = P → Approval.of a ∈ approvals := by
  simp only [readApprovals, bind_eq_ok, require_eq_ok, exists_const] at hr
  obtain ⟨-, hr⟩ := hr
  constructor
  · intro b hb
    obtain ⟨name, -, hturn⟩ := exists_of_mapM hr hb
    obtain ⟨a, ha, happroves, -⟩ := approvalTurn_of h hd hp hturn
    exact ⟨a, ha, happroves⟩
  · intro key a hstored hpolicy
    obtain ⟨data, hlists⟩ := h.approvals hstored hpolicy
    obtain ⟨view, hview, -⟩ := hlists.entry
    have hname := mem_named.mpr
      ⟨startsWith_append "approval_" (toString (a.period.val : ℤ)), view, hview⟩
    obtain ⟨b, hb, hturn⟩ :=
      ok_of_mapM hr ((List.perm_insertionSort (· ≤ ·) _).mem_iff.mpr hname)
    obtain ⟨a', rfl, -, hlisted⟩ := approvalTurn_of h hd hp hturn
    have heq := hstored.symm.trans (hlisted hlists)
    rwa [ProgramAccount.approval.inj (Option.some.inj heq)]

/-! ## Key records -/

/-- The record of a key that approvals pay. -/
structure Recorded (chain : Chain) (L : Ledger) (P : Pubkey) (k : WithdrawalKeyV7) : Prop where
  stored : L.program ((Seeds.key P k.subject).address chain) = some (.withdrawalKey k)
  bump : (Seeds.key P k.subject).bump chain = k.bump
  policy : k.policy = P

theorem keyTurn_of {approvals : List Approval} {masks : String → ℕ × ℕ}
    {records records' : List KeyRecord} {name : String} (h : s.Shows chain L P)
    (hd : Derives chain) (hp : p.address = shown P)
    (hr : keyTurn chain s p approvals masks records name = .ok records') : ∃ k : WithdrawalKeyV7,
      records' = records ++ [KeyRecord.of k] ∧ Recorded chain L P k ∧
        (k.recipient = true ↔ ∃ a ∈ approvals, a.recipientOwner = shown k.subject) := by
  simp only [keyTurn, bind_eq_ok, require_eq_ok, pure_eq_ok, exists_const, Prod.exists, hp,
    pubkey_shown, Except.ok.injEq, exists_eq_left'] at hr
  obtain ⟨text, b, hrecord, subject, hsubject, expected, bump, hderived, ⟨-, rfl, rfl, hpolicy⟩,
    ⟨hplain, -⟩, -, hrecipient, rfl⟩ := hr
  obtain ⟨key, k, rfl, rfl, hstored⟩ :=
    h.record key_agrees .withdrawalKey (fun _ ↦ rfl) hrecord hplain
  have hsubject' : pubkey (KeyRecord.of k).subject = .ok k.subject.bytes := pubkey_shown _
  obtain rfl : subject = k.subject.bytes := by simpa [hsubject'] using hsubject.symm
  have hseeds : [ascii "launch-v7-key", P.bytes, k.subject.bytes] =
      (Seeds.key P k.subject).bytes := rfl
  rw [hseeds, hd.derived, Except.ok.injEq, Prod.mk.injEq, shown_inj] at hderived
  obtain ⟨rfl, hbump⟩ := hderived
  refine ⟨k, rfl, {
    stored := hstored
    bump := UInt8.toNat_inj.mp (Nat.cast_inj.mp hbump)
    policy := shown_inj.mp hpolicy }, ?_⟩
  refine Iff.trans ?_ hrecipient
  cases hk : k.recipient <;> simp [KeyRecord.of, hk, boolByte]

/-- Every record that is read is one of the ledger. -/
theorem foldlM_keyTurn {approvals : List Approval} {masks : String → ℕ × ℕ} {names : List String}
    {records records' : List KeyRecord} (h : s.Shows chain L P) (hd : Derives chain)
    (hp : p.address = shown P)
    (hr : names.foldlM (keyTurn chain s p approvals masks) records = .ok records') {r : KeyRecord}
    (hmem : r ∈ records') : r ∈ records ∨ ∃ k : WithdrawalKeyV7, KeyRecord.of k = r ∧
      Recorded chain L P k ∧
        (k.recipient = true ↔ ∃ a ∈ approvals, a.recipientOwner = shown k.subject) := by
  induction names generalizing records with
  | nil =>
    obtain rfl := (pure_eq_ok.mp hr :)
    exact .inl hmem
  | cons name names ih =>
    rw [List.foldlM_cons, bind_eq_ok] at hr
    obtain ⟨mid, hturn, hrest⟩ := hr
    obtain ⟨k, rfl, hk⟩ := keyTurn_of h hd hp hturn
    rcases ih hrest with hmid | hlater
    · rcases List.mem_append.mp hmid with hold | hnew
      · exact .inl hold
      · exact .inr ⟨k, (List.mem_singleton.mp hnew).symm, hk⟩
    · exact .inr hlater

/-- Whoever an accepted approval pays is one that the program lets it pay. -/
theorem verifyWithdrawal_of {q : LaunchPolicyV7} {approvals : List Approval} {view : WithdrawalView}
    (h : s.Shows chain L P) (hd : Derives chain) (hp : p = .of P q)
    (hr : verifyWithdrawal chain s p approvals now = .ok view) {a : TreasuryApprovalV7}
    (ha : Approval.of a ∈ approvals) : ∃ k : WithdrawalKeyV7, Recorded chain L P k ∧
      k.subject = a.recipientOwner ∧ k.recipient = true ∧ EligibleRecipient q k := by
  have haddress : p.address = shown P := by rw [hp]; rfl
  simp only [verifyWithdrawal, bind_eq_ok, require_eq_ok, pure_eq_ok, exists_const, Prod.exists,
    List.forM_eq_forM, forM_eq_ok] at hr
  obtain ⟨-, -, -, -, -, -, -, g, treasury, -, -, -, -, -, -, records, hrecords, -, happrovals,
    -⟩ := hr
  have hcheck := happrovals _ ha
  simp only [checkApproval, bind_eq_ok, okOr_eq_ok, require_eq_ok, exists_const] at hcheck
  obtain ⟨r, hfind, ⟨hkeys, hhistory, hpending⟩, -⟩ := hcheck
  have hmem := List.mem_of_find?_eq_some hfind
  have hsubject : r.subject = shown a.recipientOwner := by
    have hdecide := List.find?_some hfind
    rwa [decide_eq_true_eq] at hdecide
  rcases foldlM_keyTurn h hd haddress hrecords hmem with hnil | ⟨k, rfl, hk, hrecipient⟩
  · exact absurd hnil (by simp)
  obtain hsub : k.subject = a.recipientOwner := shown_inj.mp hsubject
  refine ⟨k, hk, hsub, hrecipient.mpr ⟨_, ha, by rw [hsub]; rfl⟩, ?_⟩
  rw [hp] at hkeys
  simp only [PolicyView.of, Approval.of, Policy.of, Config.of, List.mem_append, List.mem_cons,
    List.not_mem_nil, shown_inj, or_false, not_or, List.mem_map, not_exists, not_and,
    Vector.mem_toList_iff] at hkeys
  obtain ⟨⟨⟨hfounder, htreasury⟩, hguardians⟩, hguardians'⟩ := hkeys
  refine {
    owner := LaunchV7.Role.forall_role.mpr ⟨hsub ▸ hfounder, hsub ▸ htreasury⟩
    committee := LaunchV7.Role.forall_role.mpr
      ⟨fun hmem ↦ hguardians _ hmem hsub, fun hmem ↦ hguardians' _ hmem hsub⟩
    history := UInt8.toNat_inj.mp (Nat.cast_inj.mp (hhistory.trans rfl))
    pending := UInt8.toNat_inj.mp (Nat.cast_inj.mp (hpending.trans rfl)) }

/-! ## Vaults -/

/-- The vault of a role, and the tokens that it holds. -/
structure Vaulted (chain : Chain) (L : Ledger) (P : Pubkey) (q : LaunchPolicyV7) (r : LaunchV7.Role)
    (key : Pubkey) (v : LaunchVaultV7) (b : TokenAccount) : Prop where
  address : (Seeds.vault P r.toU8).address chain = key
  stored : L.program key = some (.vault v)
  canonical : Canonical chain key (.vault v)
  policy : v.policy = P
  role : v.role = r.toU8
  authority : v.authority = q.owner r
  principal : v.principal = q.config.principal r
  total : v.releasedTotal = q.releasedTotal r
  period : v.period ≤ q.period
  used : (q.periodUsed r).val ≤ (q.releasedTotal r).val
  token : L.tokens.account ((Seeds.token key).address chain) = some b
  sole : b.SoleOwner q.mint key
  backed : (q.config.principal r).val ≤ (q.releasedTotal r).val + b.amount

theorem checkVault_of {q : LaunchPolicyV7} {r : LaunchV7.Role} {annual : PerRole ℤ}
    {source t : Token} {name : String} {excess : ℤ} (h : s.Shows chain L P) (hd : Derives chain)
    (hp : p = .of P q) (ht : s.readToken name = .ok t)
    (hmint : t.mint = p.mint) (hr : checkVault chain s p annual source t r = .ok excess) :
    ∃ key v b, Vaulted chain L P q r key v b := by
  obtain ⟨tokenKey, b, htokenKey, hb, hbmint, hbowner, hbamount, hbstate, -, hbdelegate, hbclose⟩ :=
    h.token_of ht
  have hP : p.address = shown P := by rw [hp]; rfl
  simp only [checkVault, bind_eq_ok, require_eq_ok, pure_eq_ok, exists_const, Prod.exists, hP,
    pubkey_shown, Except.ok.injEq, exists_eq_left'] at hr
  obtain ⟨text, u, hrecord, expected, bump, hderived, ⟨rfl, hbump, hrole⟩,
    ⟨hpolicy, hauthority, -⟩, ⟨hprincipal, htotal⟩, ⟨-, hperiod⟩, ⟨hperiodUsed, hused⟩, -, -, -,
    vault, hvault, token, _, htoken, ⟨hat, howned⟩, ⟨hdelegate, -, hclose⟩, hexcess, -⟩ := hr
  subst hp
  obtain ⟨key, v, rfl, rfl, hstored⟩ :=
    h.record vault_agrees .vault (fun _ ↦ rfl) hrecord trivial
  have hseeds : [ascii "launch-v7-vault", P.bytes, [r.toU8]] = (Seeds.vault P r.toU8).bytes := rfl
  rw [hseeds, hd.derived, Except.ok.injEq, Prod.mk.injEq, shown_inj] at hderived
  obtain ⟨haddress, rfl⟩ := hderived
  obtain rfl : vault = key.bytes := by simpa [pubkey_shown] using hvault.symm
  have hseeds : [ascii "launch-v7-token", key.bytes] = (Seeds.token key).bytes := rfl
  rw [hseeds, hd.derived, Except.ok.injEq, Prod.mk.injEq] at htoken
  obtain ⟨rfl, -⟩ := htoken
  obtain rfl := shown_inj.mp (htokenKey.symm.trans hat)
  obtain hpolicy : v.policy = P := shown_inj.mp hpolicy
  obtain hrole : v.role = r.toU8 := UInt8.toNat_inj.mp (Nat.cast_inj.mp hrole)
  have hauthority : v.authority = q.owner r := by
    rw [show (PolicyView.of P q).toPolicy = .of q from rfl, get_original] at hauthority
    exact shown_inj.mp hauthority
  have hprincipal : v.principal = q.config.principal r := by
    rw [show (PolicyView.of P q).config = .of q.config from rfl, get_amount] at hprincipal
    exact Fin.ext (Nat.cast_inj.mp hprincipal)
  have htotal : v.releasedTotal = q.releasedTotal r := by
    rw [show (PolicyView.of P q).toPolicy = .of q from rfl, get_releasedTotal] at htotal
    exact Fin.ext (Nat.cast_inj.mp htotal)
  have hused : v.periodUsed.val ≤ v.releasedTotal.val := Nat.cast_le.mp hused
  refine ⟨key, v, b, {
    address := haddress
    stored := hstored
    canonical := ⟨by rw [← haddress, ← hpolicy, ← hrole]; rfl, ?_⟩
    policy := hpolicy
    role := hrole
    authority := hauthority
    principal := hprincipal
    total := htotal
    period := Fin.le_def.mpr (Nat.cast_le.mp hperiod)
    used := ?_
    token := hb
    sole := {
      mint := shown_inj.mp (hbmint.symm.trans hmint)
      owner := shown_inj.mp (hbowner.symm.trans howned)
      state := hbstate
      delegate := hbdelegate hdelegate
      closeAuthority := hbclose hclose }
    backed := ?_ }⟩
  · rw [show (ProgramAccount.vault v).seeds = .vault v.policy v.role from rfl, hpolicy, hrole]
    exact (UInt8.toNat_inj.mp (Nat.cast_inj.mp hbump)).symm
  · rw [show (PolicyView.of P q).toPolicy = .of q from rfl, get_periodUsed] at hperiodUsed
    rw [← htotal]
    split at hperiodUsed
    · exact Nat.cast_le.mp (hperiodUsed.ge.trans (Nat.cast_le.mpr hused))
    · exact (Int.natCast_eq_zero.mp hperiodUsed.symm).le.trans (Nat.zero_le _)
  · rw [← hprincipal, ← htotal]
    rw [hbamount] at hexcess
    have hexcess : 0 ≤ (b.amount : ℤ) - ((v.principal.val : ℤ) - v.releasedTotal.val) := hexcess
    omega

/-! ## Limits -/

theorem get_ite {c c' : Prop} [Decidable c] [Decidable c'] (hc : c ↔ c') {x : PerRole ℤ} {y : U64}
    {r : LaunchV7.Role} (h : x.get r = y.val) :
    (if c then x else ⟨0, 0⟩).get r = ((if c' then y else 0).val : ℤ) := by
  by_cases hc' : c'
  · rw [if_pos (hc.mpr hc'), if_pos hc', h]
  · rw [if_neg (mt hc.mp hc'), if_neg hc']
    cases r <;> rfl

theorem pairOf_annualCaps {rule : LaunchV7.AnnualRule} {annual : PerRole ℤ}
    (h : pairOf (annualCaps (.of rule)) = .ok annual) (r : LaunchV7.Role) :
    annual.get r = (rule.annual r : ℤ) := by
  have hdiv : ∀ basis : U64, ((basis.val : ℤ) * (rule.releaseBps.val : ℤ)).fdiv 10000 =
      ((basis.val * rule.releaseBps.val / 10000 : ℕ) : ℤ) := fun basis ↦ by
    rw [Int.fdiv_eq_ediv_of_nonneg _ (by decide)]
    norm_cast
  obtain rfl := Except.ok.inj h
  cases r
  · exact hdiv rule.founderBasis
  · exact hdiv rule.treasuryBasis

/-- Where the verifier finds no negative number, the program finds none. -/
theorem exists_limits_of_projectRule {q : LaunchPolicyV7} {now : I64} {k : U64} {i : Fin 2}
    {l : Projected} (hk : LaunchV7.periodAt q.config.t0 now = .ok k) (hper : q.period ≤ k)
    (hi : LaunchV7.position q.config.annualRules k = some i) (hidx : q.annualIndex.toNat ≤ i.val)
    (hstored : q.founderPeriodUsed.val + q.treasuryPeriodUsed.val = q.sharedUsed.val)
    (hrate : (q.config.rule i).releaseBps ≤ LaunchV7.MAX_RELEASE_BPS)
    (hused : ∀ r, (q.periodUsed r).val ≤ (q.releasedTotal r).val)
    (hcliff : q.config.t0.val + 15552000 < 2 ^ 63)
    (hr : projectRule (.of q) now.val k.val (.of (q.config.rule i)) i = .ok l) :
    ∃ w, w.period = k ∧ Limits q now w i ∧ l = .of q now w i := by
  have hrule := hr
  simp only [projectRule, bind_eq_ok, require_eq_ok, exists_const, get_both] at hr
  obtain ⟨annual, hannual, ⟨hcaps, hcapacity, hprior⟩, -⟩ := hr
  have hannual := pairOf_annualCaps hannual
  -- The counters after a rollover.
  have hperiod : (k.val : ℤ) = (Policy.of q).period ↔ k = q.period := by
    rw [Fin.ext_iff]
    exact Nat.cast_inj
  have hindex : ((i.val : ℕ) : ℤ) = (Policy.of q).annualIndex ↔ i.val = q.annualIndex.toNat :=
    Nat.cast_inj
  simp only [hannual, get_ite hperiod (get_periodUsed q _), get_ite hindex (get_annualUsed q _),
    get_releasedTotal, show (Policy.of q).config = .of q.config from rfl, get_amount,
    le_min_iff, sub_nonneg, Nat.cast_le] at hcaps hcapacity hprior
  obtain ⟨used, hu⟩ : ∃ x : PerRole U64, ∀ r,
      x.get r = if k = q.period then q.periodUsed r else 0 := ⟨both _, get_both _⟩
  obtain ⟨annualUsed, ha⟩ : ∃ x : PerRole U64, ∀ r,
      x.get r = if i.val = q.annualIndex.toNat then q.annualUsed r else 0 := ⟨both _, get_both _⟩
  simp only [← hu, ← ha] at hcaps hprior
  have hreleased : ∀ r, (used.get r).val ≤ (q.releasedTotal r).val := by
    intro r
    rw [hu]
    split
    · exact hused r
    · exact Nat.zero_le _
  have hannualLeft : ∀ r, (annualUsed.get r).val - (used.get r).val ≤
      (q.config.rule i).annual r := by
    intro r
    rw [← Nat.cast_le (α := ℤ), Nat.cast_sub (hprior r)]
    exact (hcaps r).1.2
  have hprincipalLeft : ∀ r, (q.releasedTotal r).val - (used.get r).val ≤
      (q.config.principal r).val := by
    intro r
    rw [← Nat.cast_le (α := ℤ), Nat.cast_sub (hreleased r)]
    exact (hcaps r).2
  have hshared : (annualUsed.founder.val - used.founder.val) +
      (annualUsed.treasury.val - used.treasury.val) ≤ (q.config.rule i).sharedCap.val := by
    rw [← Nat.cast_le (α := ℤ), Nat.cast_add]
    refine Eq.trans_le ?_ hcapacity.2
    simp only [← hu, ← ha]
    exact congrArg₂ (· + ·) (Nat.cast_sub (hprior .founder)) (Nat.cast_sub (hprior .treasury))
  obtain ⟨w, rfl, hw⟩ := Limits.exists hk hper hi hidx hstored hu ha hrate hprior hreleased
    hannualLeft hprincipalLeft hshared hcliff
  rw [projectRule_of hw] at hrule
  exact ⟨w, rfl, hw, (Except.ok.inj hrule).symm⟩

/-! ## Accepted graphs -/

/-- What an accepted graph says of the accounts of its policy. -/
structure Sane (chain : Chain) (L : Ledger) (P : Pubkey) (now : I64) (q : LaunchPolicyV7) :
    Prop where
  policy : L.program P = some (.policy q)
  canonical : Canonical chain P (.policy q)
  state : q.state = LaunchV7.ACTIVE
  tick : q.config.t0 ≤ q.lastActionAt ∧ q.lastActionAt ≤ now
  period : (q.period.val : ℤ) ≤ (now.val - q.config.t0.val) / 2592000
  cliff : q.config.t0.val + 15552000 < 2 ^ 63
  contiguous : (q.config.rule 0).endPeriod = (q.config.rule 1).startPeriod
  rate : ∀ i, (q.config.rule i).releaseBps ≤ LaunchV7.MAX_RELEASE_BPS
  index : ∃ i : Fin 2, q.annualIndex.toNat = i.val ∧ (q.config.rule i).contains q.period.val
  stored : q.founderPeriodUsed.val + q.treasuryPeriodUsed.val = q.sharedUsed.val
  generation : q.reportValid = true → q.oracleActivatedAt ≤ q.reportAt
  observed : 0 < q.reportSequence → q.config.t0.val + q.reportPeriod.val * 2592000 ≤ q.reportAt.val
  mint : ∃ m, L.tokens.mint q.mint = some m ∧ m.isInitialized = true
  vault : ∀ r, ∃ key v b, Vaulted chain L P q r key v b

theorem validateConfig_of {c : LaunchV7.LaunchConfig} {supply : ℤ} {u : Unit}
    (h : validateConfig (.of c) supply = .ok u) : c.t0.val + 15552000 < 2 ^ 63 ∧
      (c.rule 0).endPeriod = (c.rule 1).startPeriod ∧
        ∀ i, (c.rule i).releaseBps ≤ LaunchV7.MAX_RELEASE_BPS := by
  simp only [validateConfig, annualRules_of, bind_eq_ok, require_eq_ok, okOr_eq_ok, exists_const,
    List.forM_eq_forM, forM_eq_ok, List.forall_mem_cons, List.getElem?_cons_zero,
    List.getElem?_cons_succ, Option.some.injEq, exists_eq_left'] at h
  obtain ⟨-, -, -, hcliff, ⟨-, hcontiguous⟩, ⟨⟨-, hfirst, -⟩, -⟩, ⟨⟨-, hsecond, -⟩, -⟩, -⟩ := h
  have hcliff : c.t0.val + 15552000 ≤ 2 ^ 63 - 1 := hcliff
  refine ⟨by omega, Fin.ext (Nat.cast_inj.mp hcontiguous), Fin.forall_fin_two.mpr ⟨?_, ?_⟩⟩
  · exact Fin.le_def.mpr (Nat.cast_le.mp hfirst)
  · exact Fin.le_def.mpr (Nat.cast_le.mp hsecond)

theorem verifyGovernance_report {g : Governance} (h : verifyGovernance chain s p now = .ok g)
    (hvalid : p.reportValid = true) : p.oracleActivatedAt ≤ p.reportAt := by
  simp only [verifyGovernance, bind_eq_ok, require_eq_ok, exists_const, hvalid, if_true] at h
  obtain ⟨-, -, -, -, -, ⟨-, -, hreport⟩, -⟩ := h
  exact hreport

theorem checkReport_of {u : Unit} (h : checkReport p now = .ok u) (hreport : p.reportSequence ≠ 0) :
    p.config.t0 + p.reportPeriod * PERIOD ≤ p.reportAt := by
  simp only [checkReport, bind_eq_ok, require_eq_ok, exists_const, if_pos hreport] at h
  exact h.2.1

/-- What an accepted graph says of the approvals of its policy. -/
structure Audited (chain : Chain) (L : Ledger) (P : Pubkey) (q : LaunchPolicyV7)
    (approvals : List Approval) : Prop where
  sound : ∀ b ∈ approvals, ∃ a, Approval.of a = b ∧ Approves chain L P a
  complete : ∀ {key a}, L.program key = some (.approval a) → a.policy = P →
    Approval.of a ∈ approvals
  payee : ∀ {a : TreasuryApprovalV7}, Approval.of a ∈ approvals → ∃ k : WithdrawalKeyV7,
    Recorded chain L P k ∧ k.subject = a.recipientOwner ∧ k.recipient = true ∧ EligibleRecipient q k
  destination : ∀ {a : TreasuryApprovalV7}, Approval.of a ∈ approvals → ∃ t,
    L.tokens.account a.recipient = some t ∧ t.state = .initialized ∧ t.mint = q.mint ∧
      t.owner = a.recipientOwner

theorem verify_of {g : Verification} {now : I64} (h : s.Shows chain L P) (hd : Derives chain)
    (hP : (s.accounts.get? "policy").map AccountView.address = some (shown P))
    (hnow : s.now = now.val) (hr : verify chain s = .ok g) :
    ∃ q approvals, Sane chain L P now q ∧ Audited chain L P q approvals ∧
      projectedLimits (.of q) now.val = .ok g.limits ∧
        ceilings (.of P q) g.limits
          (approvals.find? fun a ↦ a.period = g.limits.period)
          ((approvals.find? fun a ↦ a.period = g.limits.period).any fun a ↦
            decide (a.createdAt + PERIOD ≤ now.val)) = .ok g.amountCeilings := by
  rw [verify, hnow] at hr
  simp only [bind_eq_ok, require_eq_ok, okOr_eq_ok, pure_eq_ok, exists_const, Prod.exists] at hr
  obtain ⟨-, -, -, -, p, hp, governance, hgovernance, hactive, _, -, -, hclock, hperiod, supply, _,
    hmint, hr⟩ := hr
  obtain ⟨_, hconfig, hindex, rule, hrule, hcovers, annual, -, -, source, -, founder, hfounder,
    treasury, htreasury, destination, hdestination, founders, -, hmints, hr⟩ := hr
  obtain ⟨_, hfounderVault, _, htreasuryVault, hshared, -, -, -, approvals, happrovals, withdrawal,
    hwithdrawal, hr⟩ := hr
  obtain ⟨-, -, hrecipients, -, _, -, _, hreport, limits, hlimits, amountCeilings, hceilings,
    rfl⟩ := hr
  -- The policy that was read is the one of the ledger.
  obtain ⟨q, rfl, hpolicy, hcanonical⟩ := h.policy hd hp hP
  obtain ⟨hcliff, hcontiguous, hrate⟩ := validateConfig_of (c := q.config) hconfig
  obtain ⟨hsound, hcomplete⟩ := readApprovals_of h hd rfl happrovals
  have hmintOf : ∀ t ∈ source :: founder :: treasury :: destination :: founders,
    t.mint = (PolicyView.of P q).mint := hmints
  refine ⟨q, approvals, {
    policy := hpolicy
    canonical := hcanonical
    state := UInt8.toNat_inj.mp (Nat.cast_inj.mp (hactive.1.trans rfl))
    tick := hclock
    period := hperiod.2
    cliff := hcliff
    contiguous := hcontiguous
    rate := hrate
    index := ?_
    stored := ?_
    generation := verifyGovernance_report hgovernance
    observed := fun hpos ↦ checkReport_of hreport ?_
    mint := h.mint_of rfl hmint
    vault := LaunchV7.Role.forall_role.mpr
      ⟨checkVault_of h hd rfl hfounder (hmintOf _ (by simp)) hfounderVault,
        checkVault_of h hd rfl htreasury (hmintOf _ (by simp)) htreasuryVault⟩ }, {
    sound := hsound
    complete := hcomplete
    payee := verifyWithdrawal_of h hd rfl hwithdrawal
    destination := fun ha ↦ ?_ }, hlimits, hceilings⟩
  · rw [show (PolicyView.of P q).config = .of q.config from rfl, annualRules_of] at hrule
    have hcovers : rule.startPeriod ≤ (q.period.val : ℤ) ∧ (q.period.val : ℤ) < rule.endPeriod :=
      hcovers
    rcases hindex with hindex | hindex
    · rw [hindex] at hrule
      obtain rfl := Option.some.inj hrule
      exact ⟨0, Int.natCast_eq_zero.mp hindex, hcovers⟩
    · rw [hindex] at hrule
      obtain rfl := Option.some.inj hrule
      exact ⟨1, Nat.cast_inj.mp (hindex.trans rfl), hcovers⟩
  · exact Nat.cast_inj.mp ((Nat.cast_add _ _).trans hshared.symm)
  · exact Nat.cast_ne_zero.mpr (Fin.lt_def.mp hpos).ne'
  · obtain ⟨key, t, hkey, ht, hmint, howner, -, hstate, -⟩ := h.token_of hdestination
    obtain ⟨hrecipient, hrecipientOwner⟩ := hrecipients _ ha
    obtain rfl := shown_inj.mp (hrecipient.trans hkey)
    exact ⟨t, ht, hstate, shown_inj.mp (hmint.symm.trans (hmintOf _ (by simp))),
      shown_inj.mp (howner.symm.trans hrecipientOwner.symm)⟩

/-- What a release in the period `k` demands of the report. -/
def ReportAdmits (q : LaunchPolicyV7) (k : U64) (now : I64) : Prop :=
  q.reportValid = true ∧ q.reportEpoch = q.oracleEpoch ∧ 0 < q.reportSequence ∧
    q.reportPeriod = k ∧ q.reportAt ≤ now ∧
      now.val - q.reportAt.val ≤ q.config.maxReportAge.val

/-- What the program checks of the report implies the rest of what the verifier checks. -/
theorem reportable_iff_of {q : LaunchPolicyV7} {k : U64} {now : I64}
    (hgeneration : q.reportValid = true → q.oracleActivatedAt ≤ q.reportAt)
    (hobserved : q.reportValid = true → 0 < q.reportSequence →
      q.config.t0.val + q.reportPeriod.val * 2592000 ≤ q.reportAt.val) :
    Reportable q k now ↔ ReportAdmits q k now := by
  constructor
  · rintro ⟨hvalid, hepoch, -, hsequence, hperiod, -, hat, hfresh⟩
    exact ⟨hvalid, hepoch, hsequence, hperiod, hat, hfresh⟩
  · rintro ⟨hvalid, hepoch, hsequence, rfl, hat, hfresh⟩
    exact ⟨hvalid, hepoch, hgeneration hvalid, hsequence, rfl, hobserved hvalid hsequence, hat,
      hfresh⟩

namespace Sane

variable {q : LaunchPolicyV7} {now : I64} (h : Sane chain L P now q)
include h

theorem used (r : LaunchV7.Role) : (q.periodUsed r).val ≤ (q.releasedTotal r).val := by
  obtain ⟨key, v, b, hv⟩ := h.vault r
  exact hv.used

theorem exists_period (ht0 : 0 ≤ q.config.t0.val) :
    ∃ k, LaunchV7.periodAt q.config.t0 now = .ok k := by
  have htick : q.config.t0.val ≤ now.val := h.tick.1.trans h.tick.2
  have hnow := now.lt
  have hpos : 0 ≤ (now.val - q.config.t0.val) / 2592000 :=
    Int.ediv_nonneg (sub_nonneg.mpr htick) (by decide)
  obtain ⟨k, hk⟩ := U64.exists_val_eq (x := ((now.val - q.config.t0.val) / 2592000).toNat)
    (by omega)
  exact ⟨k, LaunchV7.periodAt_eq_ok.mpr ⟨htick, by omega, by rw [← hk, Int.toNat_of_nonneg hpos]⟩⟩

/-- The verifier finds no rule, or projects the limits of the program. -/
theorem limits {k : U64} {l : Projection} (hk : LaunchV7.periodAt q.config.t0 now = .ok k)
    (hr : projectedLimits (.of q) now.val = .ok l) :
    (LaunchV7.position q.config.annualRules k = none ∧ l = .blocked k.val) ∨
      ∃ i w, w.period = k ∧ Limits q now w i ∧ l = .limits (.of q now w i) := by
  rw [projectedLimits_eq hk] at hr
  cases hi : LaunchV7.position q.config.annualRules k with
  | none =>
    rw [hi] at hr
    exact .inl ⟨rfl, (Except.ok.inj hr).symm⟩
  | some i =>
    right
    rw [hi, Option.elim_some, map_eq_ok] at hr
    obtain ⟨l, hl, rfl⟩ := hr
    have hper : q.period ≤ k := by
      have hle := h.period
      rw [← (LaunchV7.periodAt_eq_ok.mp hk).2.2] at hle
      exact Fin.le_def.mpr (Nat.cast_le.mp hle)
    have hcovers : (q.config.rule i).covers k := by
      have hfind := List.find?_some hi
      simpa [LaunchV7.LaunchConfig.rule] using hfind
    have hidx : q.annualIndex.toNat ≤ i.val := by
      obtain ⟨j, hj, hcontains⟩ := h.index
      rw [hj]
      by_contra hlt
      exact LaunchV7.not_contains_later h.contiguous (Fin.lt_def.mpr (Nat.lt_of_not_le hlt))
        (k := q.period.val) (m := k.val) (by exact_mod_cast hcovers.2) (by exact_mod_cast hper)
        hcontains
    obtain ⟨w, hperiod, hw, rfl⟩ := exists_limits_of_projectRule hk hper hi hidx h.stored
      (h.rate i) h.used h.cliff hl
    exact ⟨i, w, hperiod, hw, rfl⟩

theorem reportable_iff {k : U64} : Reportable q k now ↔ ReportAdmits q k now :=
  reportable_iff_of h.generation fun _ ↦ h.observed

end Sane

/-! ## Releases -/

section Release

variable (d : Deployment) (L : Ledger) (P : Pubkey) (q : LaunchPolicyV7) (k : U64)

/-- What a release in the period `k` names as its destination: an account of the current founder,
or the approval of the period, the account that it pays and the record of that account's owner. -/
inductive Destined (x : LaunchV7.Release.Keys) : LaunchV7.Role → Prop where
  | founder {t : TokenAccount} (account : L.tokens.account x.destination = some t)
      (initialized : t.state = .initialized) (mint : t.mint = q.mint)
      (owner : t.owner = (q.withdrawal.get .founder).current)
      (bare : x.approval = none ∧ x.recipientRecord = none) : Destined x .founder
  | treasury (approval : x.approval = some ((Seeds.approval P k).address d.toChain))
      (recipient : ∀ a, L.program ((Seeds.approval P k).address d.toChain) = some (.approval a) →
        x.destination = a.recipient ∧
          x.recipientRecord = some ((Seeds.key P a.recipientOwner).address d.toChain)) :
      Destined x .treasury

/-- A release that the current key of a role asks for, with the accounts of its vault. -/
structure Directed (r : LaunchV7.Role) (x : LaunchV7.Request) : Prop where
  signed : x.keys.authority ∈ x.signers
  authority : x.keys.authority = (q.withdrawal.get r).current
  epoch : x.epoch = (q.withdrawal.get r).epoch
  policy : x.keys.policy = P
  mint : x.keys.mint = q.mint
  vault : x.keys.vault = (Seeds.vault P r.toU8).address d.toChain
  vaultToken : x.keys.vaultToken = (Seeds.token x.keys.vault).address d.toChain
  destination : Destined d L P q k x.keys r

end Release

section Accepts

variable {d : Deployment} {q : LaunchPolicyV7} {now : I64} {w : LaunchV7.WindowLimits} {i : Fin 2}
  {r : LaunchV7.Role} {x : LaunchV7.Request} {approvals : List Approval}

/-- The approval of a period has room for an amount, and its notice is over. -/
def Granted (chain : Chain) (L : Ledger) (P : Pubkey) (k : U64) (now : I64) (amount : U64) : Prop :=
  ∃ a, Approves chain L P a ∧ a.period = k ∧ a.createdAt.val + 2592000 ≤ now.val ∧
    a.consumed.val + amount.val ≤ a.need.val

/-- The founder's quota is empty before the cliff. -/
theorem founder_eligible (hw : Limits q now w i) (hpos : 0 < w.quotas.founder.val) :
    q.config.t0.val + 15552000 ≤ now.val := by
  by_contra hearly
  rw [hw.quotas, decide_eq_false hearly, LaunchV7.reservedQuotas_ineligible] at hpos
  exact absurd hpos (by decide)

theorem exists_payee (ha : Audited d.toChain L P q approvals) (hw : Limits q now w i)
    (hx : Directed d L P q w.period r x) (hamount : 0 < x.amount)
    (hquota : (w.periodUsed.get r).val + x.amount.val ≤ (w.quotas.get r).val)
    (happroved : r = .treasury → Granted d.toChain L P w.period now x.amount) :
    ∃ t, L.tokens.account x.keys.destination = some t ∧ t.state = .initialized ∧
      t.mint = q.mint ∧ ∃ a, LaunchV7.Payee d L now x q w.period t.owner r a := by
  cases hx.destination with
  | @founder t account initialized mint owner bare =>
    have hpos : 0 < w.quotas.founder.val :=
      (Nat.lt_of_lt_of_le (Fin.lt_def.mp hamount) (Nat.le_add_left _ _)).trans_le hquota
    exact ⟨t, account, initialized, mint, none, .founder (founder_eligible hw hpos) owner bare⟩
  | treasury approval recipient =>
    obtain ⟨a, happroves, hperiod, hmature, hneed⟩ := happroved rfl
    have hstored := happroves.stored
    rw [hperiod] at hstored
    obtain ⟨hdestination, hrecord⟩ := recipient a hstored
    have hlisted := ha.complete hstored happroves.policy
    obtain ⟨t, ht, hstate, hmint, howner⟩ := ha.destination hlisted
    obtain ⟨k, hk, hsubject, hrecipient, heligible⟩ := ha.payee hlisted
    obtain ⟨used, hused⟩ := U64.exists_val_eq (hneed.trans_lt a.need.isLt)
    have hcreate := @Seeds.create d.toChain (Seeds.approval P w.period)
    have hbump := happroves.bump
    rw [hperiod] at hbump
    rw [hbump] at hcreate
    refine ⟨t, hdestination ▸ ht, hstate, hmint, _, @LaunchV7.Payee.treasury d L now x q w.period
      t.owner ⟨(Seeds.key P k.subject).address d.toChain, k⟩
      ⟨(Seeds.approval P w.period).address d.toChain, a⟩ used ⟨?_, approval⟩ hk.stored hstored
      ⟨?_, ?_, ?_, ?_, hrecipient⟩ heligible ?_ ⟨?_, hperiod, hdestination.symm, howner.symm⟩
      hmature hused ?_⟩
    · rw [hrecord, hsubject]
    · rw [hx.policy, howner, ← hsubject]
    · rw [hx.policy, howner, ← hsubject]
      exact hk.bump.symm
    · rw [hx.policy]
      exact hk.policy
    · rw [howner]
      exact hsubject
    · rw [hx.policy]
      exact hcreate
    · rw [hx.policy]
      exact happroves.policy
    · rw [Fin.le_def, ← hused]
      exact hneed

theorem granted_of_payee {k : U64} {owner : Pubkey}
    {o : Option (LaunchV7.Account TreasuryApprovalV7)} (ha : Audited d.toChain L P q approvals)
    (hx : Directed d L P q k .treasury x) (h : LaunchV7.Payee d L now x q k owner .treasury o) :
    Granted d.toChain L P k now x.amount := by
  obtain _ | @⟨record, approval, used, ⟨-, hnamed⟩, -, hstored, -, -, -, ⟨hpolicy, hperiod, -⟩,
    hmature, hused, hneed⟩ := h
  rw [hx.policy] at hpolicy
  obtain ⟨a, heq, happroves⟩ := ha.sound _ (ha.complete hstored hpolicy)
  obtain rfl := Approval.of_injective heq
  refine ⟨_, happroves, hperiod, hmature, ?_⟩
  rw [hused]
  exact hneed

/-- The release of a vault is what the program grants. -/
theorem Sane.process_release (h : Sane d.toChain L P now q) {k : U64} {L' : Ledger}
    (hx : Directed d L P q k r x) : LaunchV7.process d L (x.tx now) = .ok L' ↔
      ∃ p k s v a p' v' m b t tokens, LaunchV7.Grant d L now x p k s v a p' v' m b t tokens ∧
        x.commit L p' v' a tokens = L' := by
  obtain ⟨key, v, b, hv⟩ := h.vault r
  have hkey : x.keys.vault = key := hx.vault.trans hv.address
  refine LaunchV7.process_release_canonical (fun a hstored ↦ ?_) fun a hstored ↦ ?_
  · rw [hx.policy, h.policy] at hstored
    rw [hx.policy, ← Option.some.inj hstored]
    exact h.canonical
  · rw [hkey, hv.stored] at hstored
    rw [hkey, ← Option.some.inj hstored]
    exact hv.canonical

/-- What decides a release in a period that a rule covers. -/
theorem Sane.release_iff (h : Sane d.toChain L P now q) (ha : Audited d.toChain L P q approvals)
    (ht : d.transferChecked = Tokens.transferChecked) (hw : Limits q now w i)
    (hx : Directed d L P q w.period r x) (hamount : 0 < x.amount) :
    (∃ L', LaunchV7.process d L (x.tx now) = .ok L') ↔ (q.withdrawal.get r).pending = 0 ∧
      Reportable q w.period now ∧ ¬ w.correctionPause ∧ q.config.t0 < now ∧
        (w.periodUsed.get r).val + x.amount.val ≤ (w.quotas.get r).val ∧
          (r = .treasury → Granted d.toChain L P w.period now x.amount) := by
  obtain ⟨key, v, b, hv⟩ := h.vault r
  have hkey : x.keys.vault = key := hx.vault.trans hv.address
  have hwindow : Limits { q with lastActionAt := now } now w i := { hw with }
  have hconsume :
      (∃ c, LaunchV7.consume { q with lastActionAt := now } v now x.amount = .ok c) ↔ _ :=
    hwindow.consume_ok hv.role hv.total hv.principal
  constructor
  · rintro ⟨L', hL'⟩
    obtain ⟨p, k, s, u, a, p', v', m, c, t, tokens, g, -⟩ := (h.process_release hx).mp hL'
    have hpolicy := g.policy
    rw [hx.policy, h.policy] at hpolicy
    obtain rfl := ProgramAccount.policy.inj (Option.some.inj hpolicy)
    have hvault := g.vault
    rw [hkey, hv.stored] at hvault
    obtain rfl := ProgramAccount.vault.inj (Option.some.inj hvault)
    obtain rfl : s = r := LaunchV7.Role.toU8_inj.mp (g.role.symm.trans hv.role)
    obtain rfl : k = w.period := by simpa using g.inPeriod.symm.trans hw.period
    obtain ⟨hunpaused, hquota⟩ := hconsume.mp ⟨_, g.consumed⟩
    refine ⟨g.authentic.1, h.reportable_iff.mpr ⟨g.report.1, g.report.2.1, g.report.2.2.1,
      g.report.2.2.2.1, g.report.2.2.2.2, g.fresh⟩, hunpaused, g.t0, hquota, fun hr ↦ ?_⟩
    subst hr
    exact granted_of_payee ha hx g.payee
  · rintro ⟨hpending, hreport, hunpaused, ht0, hquota, happroved⟩
    obtain ⟨⟨p', v'⟩, hconsumed⟩ := hconsume.mpr ⟨hunpaused, hquota⟩
    obtain ⟨t, hdestination, hstate, hmint, a, hpayee⟩ :=
      exists_payee ha hw hx hamount hquota happroved
    obtain ⟨m, hm, hinit⟩ := h.mint
    obtain ⟨hvalid, hepoch, hsequence, hperiod, hat, hfresh⟩ := h.reportable_iff.mp hreport
    have hsource : L.tokens.account x.keys.vaultToken = some b := by
      rw [hx.vaultToken, hkey]
      exact hv.token
    -- The vault covers what its quota allows.
    have hbalance : x.amount.val ≤ b.amount := by
      have hlife := (hwindow.ceilings hunpaused hquota).2.1
      have hbacked := hv.backed
      have htotal : (({ q with lastActionAt := now } : LaunchPolicyV7).releasedTotal r).val =
        (q.releasedTotal r).val := by cases r <;> rfl
      rw [htotal] at hlife
      have hlife : (q.releasedTotal r).val + x.amount.val ≤ (q.config.principal r).val := hlife
      omega
    have hsole : b.SoleOwner x.keys.mint x.keys.vault := by
      rw [hx.mint, hkey]
      exact hv.sole
    obtain ⟨tokens, htransfer⟩ : ∃ tokens, d.transferChecked L.tokens {
        source := x.keys.vaultToken
        mint := x.keys.mint
        destination := x.keys.destination
        authority := x.keys.vault
        amount := x.amount.val
        decimals := m.decimals } = some tokens := by
      rw [ht]
      exact ⟨_, (Tokens.transferChecked_of_soleOwner hsource hsole).mpr ⟨t, m, hdestination, hstate,
        hmint.trans hx.mint.symm, hx.mint ▸ hm, hinit, rfl, hbalance, rfl⟩⟩
    exact ⟨_, (h.process_release hx).mpr ⟨q, w.period, r, v, a, p', v', m, b, t, tokens, {
      signed := hx.signed
      policy := hx.policy ▸ h.policy
      mint := hx.mint.symm
      vault := hkey ▸ hv.stored
      vaultPolicy := hv.policy.trans hx.policy.symm
      role := hv.role
      vaultToken := hx.vaultToken.symm
      mintAccount := ⟨hx.mint ▸ hm, hinit⟩
      source := ⟨hsource, by rw [hv.sole.state]; simp, hv.sole.mint.trans hx.mint.symm,
        hv.sole.owner.trans hkey.symm⟩
      destination := ⟨hdestination, by rw [hstate]; simp, hmint.trans hx.mint.symm⟩
      tick := h.tick.2
      state := h.state
      authentic := ⟨hpending, hx.authority.symm, hx.epoch.symm⟩
      t0 := ht0
      amount := hamount
      inPeriod := hw.period
      period := ⟨hw.policyPeriod, hv.period.trans hw.policyPeriod⟩
      report := ⟨hvalid, hepoch, hsequence, hperiod, hat⟩
      fresh := hfresh
      owner := hv.authority
      payee := hpayee
      consumed := hconsumed
      transfer := htransfer }, rfl⟩⟩

end Accepts

/-! ## Ceilings -/

section Ceilings

variable {d : Deployment} {q : LaunchPolicyV7} {now : I64} {r : LaunchV7.Role}
  {approvals : List Approval}

/-- A positive number is within a ceiling if it is within all that the ceiling is made of. -/
theorem le_ceilings_iff {l : Projection} {current : Option Approval} {noticeOk : Bool}
    {c : PerRole ℤ} {n : ℤ} (hc : ceilings (.of P q) l current noticeOk = .ok c) (hn : 0 < n) :
    n ≤ c.get r ↔ (q.withdrawal.get r).pending = 0 ∧ n ≤ l.available.get r ∧
      (r = .treasury → noticeOk = true ∧ ∃ a, current = some a ∧ n ≤ a.need - a.consumed) := by
  have hrole : ∀ r, (PolicyView.of P q).role r = .ok (.of (q.withdrawal.get r)) := role_of q
  have hpending : ∀ r, (Role.of (q.withdrawal.get r)).pending ≠ 0 ↔
      (q.withdrawal.get r).pending ≠ 0 := fun r ↦
    not_congr (Int.natCast_eq_zero.trans Fin.val_eq_zero_iff)
  simp only [ceilings, bind_eq_ok, pure_eq_ok, hrole, Except.ok.injEq, exists_eq_left',
    hpending] at hc
  subst hc
  by_cases hp : (q.withdrawal.get r).pending = 0
  · cases r with
    | founder =>
      have hp : q.withdrawal.founder.pending = 0 := hp
      simp [PerRole.get, hp]
    | treasury =>
      have hp : q.withdrawal.treasury.pending = 0 := hp
      cases current with
      | none => simp [PerRole.get, hp, hn]
      | some a => cases noticeOk <;> simp [PerRole.get, hp, hn]
  · refine iff_of_false ?_ fun h ↦ hp h.1
    cases r with
    | founder =>
      have hp : q.withdrawal.founder.pending ≠ 0 := hp
      simp [PerRole.get, hp, hn]
    | treasury =>
      have hp : q.withdrawal.treasury.pending ≠ 0 := hp
      simp [PerRole.get, hp, hn]

/-- The approval that the verifier finds for a period is the one of the program. -/
theorem granted_iff {k amount : U64} (ha : Audited d.toChain L P q approvals) :
    Granted d.toChain L P k now amount ↔
      ((approvals.find? fun a ↦ a.period = (k.val : ℤ)).any fun a ↦
        decide (a.createdAt + PERIOD ≤ now.val)) = true ∧
      ∃ a, (approvals.find? fun a ↦ a.period = (k.val : ℤ)) = some a ∧
        (amount.val : ℤ) ≤ a.need - a.consumed := by
  constructor
  · rintro ⟨a, happroves, rfl, hmature, hneed⟩
    have hlisted := ha.complete happroves.stored happroves.policy
    obtain ⟨b, hb⟩ : ∃ b, (approvals.find? fun x ↦ x.period = (a.period.val : ℤ)) = some b := by
      rw [← Option.isSome_iff_exists, List.find?_isSome]
      exact ⟨_, hlisted, decide_eq_true rfl⟩
    obtain ⟨a', rfl, happroves'⟩ := ha.sound b (List.mem_of_find?_eq_some hb)
    have hperiod : a'.period = a.period := by
      have hfind := List.find?_some hb
      rw [decide_eq_true_eq] at hfind
      exact Fin.ext (Nat.cast_inj.mp hfind)
    -- Both are stored at the address of the period.
    obtain rfl : a' = a := by
      have hstored := happroves'.stored
      rw [hperiod, happroves.stored] at hstored
      exact (ProgramAccount.approval.inj (Option.some.inj hstored)).symm
    rw [hb]
    refine ⟨decide_eq_true hmature, _, rfl, ?_⟩
    change (amount.val : ℤ) ≤ (a'.need.val : ℤ) - a'.consumed.val
    omega
  · rintro ⟨hnotice, b, hb, hle⟩
    rw [hb, Option.any_some, decide_eq_true_eq] at hnotice
    obtain ⟨a, rfl, happroves⟩ := ha.sound b (List.mem_of_find?_eq_some hb)
    have hfind := List.find?_some hb
    rw [decide_eq_true_eq] at hfind
    have hle : (amount.val : ℤ) ≤ (a.need.val : ℤ) - a.consumed.val := hle
    exact ⟨a, happroves, Fin.ext (Nat.cast_inj.mp hfind), hnotice, by omega⟩

/-- What is available of projected limits. -/
theorem le_available_iff {w : LaunchV7.WindowLimits} {i : Fin 2} {n : U64} (hpos : 0 < n) :
    (n.val : ℤ) ≤ (Projected.of q now w i).available.get r ↔ Reportable q w.period now ∧
      ¬ w.correctionPause ∧ q.config.t0 < now ∧
        (w.periodUsed.get r).val + n.val ≤ (w.quotas.get r).val := by
  have hn : 0 < (n.val : ℤ) := Nat.cast_pos.mpr (Fin.lt_def.mp hpos)
  simp only [Projected.of]
  split
  · next h =>
    rw [get_both]
    refine ⟨fun hle ↦ ⟨h.1, h.2.1, h.2.2, by omega⟩, fun hle ↦ ?_⟩
    have := hle.2.2.2
    omega
  · next h =>
    refine iff_of_false ?_ fun hall ↦ h ⟨hall.1, hall.2.1, hall.2.2.1⟩
    cases r
    · exact not_le.mpr hn
    · exact not_le.mpr hn

/-- What an accepted graph reports decides every release of the period `k`. -/
structure Decides (d : Deployment) (L : Ledger) (P : Pubkey) (q : LaunchPolicyV7) (now : I64)
    (g : Verification) (k : U64) : Prop where
  period : LaunchV7.periodAt q.config.t0 now = .ok k ∧ g.limits.period = k.val
  covered : ∀ i, (q.config.rule i).covers k → ∃ w, LaunchV7.windowLimits q now = .ok w ∧
    g.limits = .limits (.of q now w i)
  uncovered : (∀ i, ¬ (q.config.rule i).covers k) → g.limits = .blocked k.val ∧
    ∀ w, LaunchV7.windowLimits q now ≠ .ok w
  release : ∀ r x, Directed d L P q k r x → 0 < x.amount →
    ((∃ L', LaunchV7.process d L (x.tx now) = .ok L') ↔
      (x.amount.val : ℤ) ≤ g.amountCeilings.get r)

/-- Without a rule there are no limits. -/
theorem not_windowLimits {k : U64} (hk : LaunchV7.periodAt q.config.t0 now = .ok k)
    (hnone : LaunchV7.position q.config.annualRules k = none) (w : LaunchV7.WindowLimits) :
    LaunchV7.windowLimits q now ≠ .ok w := by
  intro hw
  obtain ⟨i, hl⟩ := LaunchV7.windowLimits_eq_ok.mp hw
  have hi := hl.rule
  obtain rfl : w.period = k := by simpa using hl.period.symm.trans hk
  simp [hnone] at hi

/-- Of every graph that the verifier accepts, the program releases an amount exactly if it is
within the ceiling that the verifier reports. -/
theorem verify_decides {g : Verification} (hd : Derives d.toChain)
    (ht : d.transferChecked = Tokens.transferChecked) (h : s.Shows d.toChain L P)
    (hP : (s.accounts.get? "policy").map AccountView.address = some (shown P))
    (hnow : s.now = now.val) (hr : verify d.toChain s = .ok g) (hq : L.policyAt P = some q)
    (ht0 : 0 ≤ q.config.t0.val) : ∃ k, Decides d L P q now g k := by
  obtain ⟨q', approvals, hsane, haudited, hlimits, hceilings⟩ := verify_of h hd hP hnow hr
  obtain rfl : q' = q := by
    rw [LaunchV7.Ledger.policyAt_eq_some, hsane.policy] at hq
    exact ProgramAccount.policy.inj (Option.some.inj hq)
  obtain ⟨k, hk⟩ := hsane.exists_period ht0
  refine ⟨k, ?_⟩
  rcases hsane.limits hk hlimits with ⟨hnone, hblocked⟩ | ⟨i, w, rfl, hw, hl⟩
  · have hposition : ∀ i, ¬ (q'.config.rule i).covers k := fun i hi ↦ by
      rw [LaunchV7.position_of_covers hsane.contiguous hi] at hnone
      exact absurd hnone (by simp)
    refine ⟨⟨hk, by rw [hblocked]; rfl⟩, fun i hi ↦ absurd hi (hposition i),
      fun _ ↦ ⟨hblocked, not_windowLimits hk hnone⟩, fun r x hx hamount ↦ ?_⟩
    refine iff_of_false (fun ⟨L', hL'⟩ ↦ ?_) fun hle ↦ ?_
    · obtain ⟨p, k, s, u, a, p', v', m, c, t, tokens, g, -⟩ := (hsane.process_release hx).mp hL'
      obtain rfl : p = q' := by
        have hpolicy := g.policy
        rw [hx.policy, hsane.policy] at hpolicy
        exact (ProgramAccount.policy.inj (Option.some.inj hpolicy)).symm
      obtain ⟨w, _, hconsumed⟩ := LaunchV7.consume_eq_ok.mp g.consumed
      exact not_windowLimits hk hnone w hconsumed.limits
    · have hpos : 0 < (x.amount.val : ℤ) := Nat.cast_pos.mpr (Fin.lt_def.mp hamount)
      have havailable := ((le_ceilings_iff hceilings hpos).mp hle).2.1
      rw [hblocked] at havailable
      cases r
      · exact absurd havailable (not_le.mpr hpos)
      · exact absurd havailable (not_le.mpr hpos)
  · have hcovers := hw.covers
    refine ⟨⟨hk, by rw [hl]; rfl⟩, fun j hj ↦ ?_, fun hnone ↦ absurd hcovers (hnone i),
      fun r x hx hamount ↦ ?_⟩
    · obtain rfl : j = i := Option.some.inj
        ((LaunchV7.position_of_covers hsane.contiguous hj).symm.trans hw.rule)
      exact ⟨w, hw.windowLimits, hl⟩
    · have hpos : 0 < (x.amount.val : ℤ) := Nat.cast_pos.mpr (Fin.lt_def.mp hamount)
      have hperiod : g.limits.period = w.period.val := by
        rw [hl]
        rfl
      rw [hsane.release_iff haudited ht hw hx hamount, le_ceilings_iff hceilings hpos, hperiod, hl,
        granted_iff haudited]
      refine and_congr_right fun _ ↦ ?_
      rw [show (Projection.limits (.of q' now w i)).available =
        (Projected.of q' now w i).available from rfl, le_available_iff hamount]
      tauto

end Ceilings

/-! ## Reachable policies -/

/-- What the verifier projects of a policy in the period `k` is what the program computes, and what
is available is what the program lets a vault release. -/
structure Foretold (L : Ledger) (P : Pubkey) (q : LaunchPolicyV7) (now : I64) (k : U64) : Prop where
  covered : ∀ i, (q.config.rule i).covers k → ∃ w, LaunchV7.windowLimits q now = .ok w ∧
    projectedLimits (.of q) now.val = .ok (.limits (.of q now w i)) ∧
      ∀ {key v r} {amount : U64}, L.program key = some (.vault v) → v.policy = P →
        v.role = LaunchV7.Role.toU8 r → 0 < amount →
          ((amount.val : ℤ) ≤ (Projected.of q now w i).available.get r ↔ ReportAdmits q k now ∧
            q.config.t0 < now ∧ ∃ x, LaunchV7.consume q v now amount = .ok x)
  uncovered : (∀ i, ¬ (q.config.rule i).covers k) →
    projectedLimits (.of q) now.val = .ok (.blocked k.val) ∧
      ∀ w, LaunchV7.windowLimits q now ≠ .ok w

/-- In every state that can be reached, at every later time, the verifier projects the limits of
the program. -/
theorem reachable_foretold {d : Deployment} {tr : List LaunchV7.Entry} {q : LaunchPolicyV7}
    {now : I64} {k : U64} (h : LaunchV7.Reachable d tr L) (hq : L.policyAt P = some q)
    (hnow : q.lastActionAt ≤ now) (hk : LaunchV7.periodAt q.config.t0 now = .ok k) :
    Foretold L P q now k := by
  obtain ⟨V, hV, rfl⟩ :=
    LaunchV7.Ledger.exists_view d.toChain (LaunchV7.Ledger.policyAt_eq_some.mp hq)
  have hpath := h.path hV
  have hreport : Reportable V.policy k now ↔ ReportAdmits V.policy k now := by
    refine reportable_iff_of (fun hvalid ↦ ?_) fun hvalid _ ↦ ?_
    · obtain ⟨_, _, _, -, hsubmits, -⟩ := (LaunchV7.path_reported hpath).valid hvalid
      exact hsubmits.notBefore
    · obtain ⟨_, _, _, -, hsubmits, -⟩ := (LaunchV7.path_reported hpath).valid hvalid
      obtain ⟨hle, -, hperiod⟩ := LaunchV7.periodAt_eq_ok.mp hsubmits.period
      have hfloor := Int.ediv_mul_le (V.policy.reportAt.val - V.policy.config.t0.val)
        (show (2592000 : ℤ) ≠ 0 by decide)
      rw [← hperiod] at hfloor
      omega
  constructor
  · intro i hi
    obtain ⟨w, rfl, hw⟩ := h.exists_limits hV hnow hk hi
    refine ⟨w, hw.windowLimits, projectedLimits_of hw, ?_⟩
    intro key v r amount hv hP hr hpos
    have hvault : V.vault r = some v := by
      rw [LaunchV7.View.vault_eq_some hV, ← hP, ← hr]
      exact ⟨(h.sound.canonical hv).address ▸ hv, rfl, rfl⟩
    have hconsume : (∃ x, LaunchV7.consume V.policy v now amount = .ok x) ↔ _ :=
      hw.consume_ok hr ((LaunchV7.path_booked hpath).vault r v hvault)
        ((LaunchV7.path_counted hpath).1.principal r v hvault)
    rw [le_available_iff hpos, hreport, hconsume]
    tauto
  · intro hnone
    have hposition : LaunchV7.position V.policy.config.annualRules k = none := by
      cases hi : LaunchV7.position V.policy.config.annualRules k with
      | none => rfl
      | some i =>
        have hcovers := List.find?_some hi
        exact absurd (by simpa [LaunchV7.LaunchConfig.rule] using hcovers) (hnone i)
    refine ⟨?_, not_windowLimits hk hposition⟩
    rw [projectedLimits_eq hk, hposition]
    rfl

/-- The sample launch in its seventh period. -/
theorem reachable_foretold_sample : ∃ q,
    LaunchV7.Sample.run.2.policyAt LaunchV7.Sample.policy = some q ∧
      (q.config.rule 0).covers 6 ∧
        Foretold LaunchV7.Sample.run.2 LaunchV7.Sample.policy q
          (LaunchV7.Sample.seconds 15563200) 6 := by
  have hfacts : ((LaunchV7.Sample.run.2.policyAt LaunchV7.Sample.policy).any fun q ↦
      decide (q.lastActionAt ≤ LaunchV7.Sample.seconds 15563200 ∧ q.config.t0.val = 10000 ∧
        (q.config.rule 0).covers 6)) = true := by
    decide +kernel
  simp only [Option.any_eq_true, decide_eq_true_eq] at hfacts
  obtain ⟨q, hq, hnow, ht0, hi⟩ := hfacts
  have hk : LaunchV7.periodAt q.config.t0 (LaunchV7.Sample.seconds 15563200) = .ok 6 :=
    LaunchV7.periodAt_eq_ok.mpr (by rw [ht0]; decide)
  exact ⟨q, hq, hi, reachable_foretold LaunchV7.Sample.run_reachable hq hnow hk⟩

/-! ## A vested founder and a paid treasury -/

namespace Vested

open LaunchV7.Sample (creator mint founder treasury oracle payee payeeToken successorToken source
  identity spec config)

def deployment : Deployment := LaunchV7.Sample.deployment

theorem derives : Derives deployment.toChain := Sample.derives

@[irreducible] def address (x : Seeds) : Pubkey := x.address deployment.toChain

def policyKey : Pubkey := LaunchV7.Sample.policy

def vaultKey (r : LaunchV7.Role) : Pubkey := address (.vault policyKey r.toU8)

def tokenKey (r : LaunchV7.Role) : Pubkey := address (.token (vaultKey r))

/-- A policy whose founder took 20 tokens out in the seventh period, and whose treasury paid 60. -/
def policy : LaunchPolicyV7 where
  creator
  mint
  founder
  treasury
  oracle
  identity
  specHash := spec
  config
  state := 2
  fundedMask := 3
  bump := 254
  lastActionAt := Anchor.clockAt 15562050
  period := 6
  sharedUsed := 80
  reportPeriod := 6
  reportCapacity := 900
  reportAt := Anchor.clockAt 15562010
  reportSequence := 1
  founderPeriodUsed := 20
  treasuryPeriodUsed := 60
  founderReleasedTotal := 20
  treasuryReleasedTotal := 60
  annualIndex := 0
  founderAnnualUsed := 20
  treasuryAnnualUsed := 60
  initialOracle := oracle
  controller := creator
  controllerEpoch := 0
  oracleEpoch := 0
  oracleActivatedAt := Anchor.clockAt 1000
  reportEpoch := 0
  reportValid := true
  changeSequence := 0
  pendingChange := 0
  withdrawal := ⟨⟨founder, 0, 0, 0⟩, ⟨treasury, 0, 0, 0⟩⟩
  approvalCount := 1

def vaultBump : LaunchV7.Role → U8
  | .founder => 255
  | .treasury => 254

def vault (r : LaunchV7.Role) : LaunchVaultV7 where
  policy := policyKey
  depositor := creator
  authority := policy.owner r
  role := r.toU8
  bump := vaultBump r
  principal := config.principal r
  releasedTotal := policy.releasedTotal r
  period := 6
  periodUsed := policy.periodUsed r

/-- The approval of the period, of which 10 tokens are left. -/
def approval : TreasuryApprovalV7 where
  policy := policyKey
  period := 6
  recipient := payeeToken
  recipientOwner := payee
  need := 70
  consumed := 60
  createdAt := Anchor.clockAt 2000000
  bump := 255
  author := treasury
  authorEpoch := 0

def record : WithdrawalKeyV7 where
  policy := policyKey
  subject := payee
  historyMask := 0
  pendingMask := 0
  recipient := true
  bump := 255

def holding (owner : Pubkey) (amount : ℕ) : TokenAccount :=
  LaunchV7.Sample.tokenAccount owner amount

def clock : I64 := Anchor.clockAt 15562100

def recordName : String := "key_" ++ shown payee

def programs : List (String × Pubkey × ProgramAccount) := [
  ("policy", policyKey, .policy policy),
  (roleName .founder ++ "_vault", vaultKey .founder, .vault (vault .founder)),
  (roleName .treasury ++ "_vault", vaultKey .treasury, .vault (vault .treasury)),
  ("approval_6", address (.approval policyKey 6), .approval approval),
  (recordName, address (.key policyKey payee), .withdrawalKey record)]

def balance : LaunchV7.Role → ℕ
  | .founder => 11980
  | .treasury => 23940

def holdings : List (String × Pubkey × TokenAccount) := [
  ("founder_token", tokenKey .founder, holding (vaultKey .founder) (balance .founder)),
  ("treasury_token", tokenKey .treasury, holding (vaultKey .treasury) (balance .treasury)),
  ("source", source, holding creator 0),
  ("treasury_destination", payeeToken, holding payee 60),
  ("founder_destination_0", successorToken, holding founder 20)]

def supply : Mint := ⟨none, 36000, 9, true, none⟩

def items : List Item :=
  ⟨"mint", mint, .mint supply⟩ :: (programs.map fun e ↦ ⟨e.1, e.2.1, .program e.2.2⟩) ++
    holdings.map fun e ↦ ⟨e.1, e.2.1, .token e.2.2⟩

def ledger : Ledger where
  program := (Dict.ofList (programs.map Prod.snd)).get?
  tokens := {
    account := (Dict.ofList (holdings.map Prod.snd)).get?
    mint k := if k = mint then some supply else none }

def snapshot : Snapshot := picture deployment.toChain items clock.val

/-! ### Names -/

def names : List String := ["mint", "policy", "founder_vault", "treasury_vault", "approval_6"]

def tokenNames : List String :=
  ["founder_token", "treasury_token", "source", "treasury_destination", "founder_destination_0"]

theorem items_names : items.map Item.name = names ++ recordName :: tokenNames := rfl

theorem recordName_starts : startsWith recordName "key_" := startsWith_append "key_" _

theorem recordName_apart {label : String} (h : Apart "key_" label) :
    startsWith recordName label = false :=
  h.startsWith _

theorem names_nodup : (items.map Item.name).Nodup := by
  have hnodup : (names ++ tokenNames).Nodup := by decide
  have hkey : ∀ name ∈ names ++ tokenNames, startsWith name "key_" = false := by decide
  rw [items_names, List.nodup_middle, List.nodup_cons]
  refine ⟨fun hmem ↦ ?_, hnodup⟩
  have hnot := hkey _ hmem
  rw [recordName_starts] at hnot
  exact absurd hnot (by simp)

/-- What the addresses and the projection come to. -/
structure Computed : Prop where
  apart : (items.map Item.key).Nodup
  vaults : ∀ r ∈ [LaunchV7.Role.founder, .treasury],
    (Seeds.vault policyKey r.toU8).bump deployment.toChain = vaultBump r
  approvalBump : (Seeds.approval policyKey 6).bump deployment.toChain = 255
  recordBump : (Seeds.key policyKey payee).bump deployment.toChain = 255
  address : (ProgramAccount.policy policy).seeds.address deployment.toChain = policyKey
  bump : (ProgramAccount.policy policy).seeds.bump deployment.toChain = policy.bump
  bound : policy.identity = LaunchV7.identity deployment.toChain creator mint founder treasury
    oracle spec config
  limits : (projectedLimits (.of policy) clock.val).toOption.map
    (fun l ↦ (l.available, l.period)) = some (⟨30, 40⟩, 6)

theorem computed : Computed := by
  constructor <;> decide +kernel

example : tokenKey .founder ≠ tokenKey .treasury := by decide +kernel

theorem programs_nodup : ((programs.map Prod.snd).map Prod.fst).Nodup := by
  have hsub : ((programs.map Prod.snd).map Prod.fst).Sublist (items.map Item.key) := by
    rw [items, List.map_append, List.map_cons, List.map_map, List.map_map]
    exact (List.sublist_cons_self _ _).trans (List.sublist_append_left _ _)
  exact computed.apart.sublist hsub

theorem holdings_nodup : ((holdings.map Prod.snd).map Prod.fst).Nodup := by
  have hsub : ((holdings.map Prod.snd).map Prod.fst).Sublist (items.map Item.key) := by
    rw [items, List.map_append, List.map_map, List.map_map]
    exact List.sublist_append_right _ _
  exact computed.apart.sublist hsub

theorem holdings_plain : ∀ e ∈ holdings, e.2.2.amount < 2 ^ 64 ∧ e.2.2.delegatedAmount < 2 ^ 64 ∧
    e.2.2.state = .initialized ∧ e.2.2.isNative = none := by decide

theorem mem_programs {e : String × Pubkey × ProgramAccount} (he : e ∈ programs) :
    (⟨e.1, e.2.1, .program e.2.2⟩ : Item) ∈ items :=
  List.mem_append_left _ (List.mem_cons_of_mem _ (List.mem_map.mpr ⟨e, he, rfl⟩))

theorem mem_holdings {e : String × Pubkey × TokenAccount} (he : e ∈ holdings) :
    (⟨e.1, e.2.1, .token e.2.2⟩ : Item) ∈ items :=
  List.mem_append_right _ (List.mem_map.mpr ⟨e, he, rfl⟩)

theorem mem_policy : ("policy", policyKey, ProgramAccount.policy policy) ∈ programs :=
  List.mem_cons_self

theorem mem_vault (r : LaunchV7.Role) :
    (roleName r ++ "_vault", vaultKey r, ProgramAccount.vault (vault r)) ∈ programs := by
  cases r <;> simp [programs]

theorem mem_approval : ("approval_6", address (.approval policyKey 6),
    ProgramAccount.approval approval) ∈ programs := by
  simp [programs]

theorem mem_record : (recordName, address (.key policyKey payee),
    ProgramAccount.withdrawalKey record) ∈ programs := by
  simp [programs]

/-- The ledger has an account of the program at its key. -/
theorem program_ledger {e : String × Pubkey × ProgramAccount} (he : e ∈ programs) :
    ledger.program e.2.1 = some e.2.2 := by
  refine Dict.get?_eq_some.mpr ?_
  rw [Dict.ofList_entries programs_nodup]
  exact List.mem_map_of_mem he

theorem shows : snapshot.Shows deployment.toChain ledger policyKey := by
  refine picture_shows names_nodup (fun e he ↦ ?_) fun hstored _ ↦ ?_
  · rcases List.mem_append.mp he with hfront | hback
    · rcases List.mem_cons.mp hfront with rfl | hprogram
      · change (if mint = mint then some supply else none) = some supply
        exact if_pos rfl
      · obtain ⟨x, hx, rfl⟩ := List.mem_map.mp hprogram
        exact program_ledger hx
    · obtain ⟨x, hx, rfl⟩ := List.mem_map.mp hback
      obtain ⟨hamount, hdelegated, -⟩ := holdings_plain x hx
      refine ⟨Dict.get?_eq_some.mpr ?_, hamount, hdelegated⟩
      rw [Dict.ofList_entries holdings_nodup]
      exact List.mem_map_of_mem hx
  · have hmem := Dict.get?_eq_some.mp hstored
    rw [Dict.ofList_entries programs_nodup] at hmem
    simp only [programs, List.map_cons, List.map_nil, List.mem_cons, Prod.mk.injEq, reduceCtorEq,
      and_false, false_or, or_false, List.not_mem_nil, ProgramAccount.approval.injEq] at hmem
    obtain ⟨rfl, rfl⟩ := hmem
    exact mem_programs mem_approval

theorem lists {e : Item} (he : e ∈ items) : snapshot.Lists e.name e.key e.content.holder
    (e.content.bytes deployment.toChain) :=
  (picture_lists names_nodup).mpr ⟨e.content, he, rfl, rfl⟩

/-- The record of the key is named apart. -/
theorem named (label : String) (h : Apart "key_" label) :
    snapshot.named label = (names ++ tokenNames).filter (startsWith · label) := by
  have hkeys : snapshot.accounts.keys = items.map Item.name := by
    rw [Dict.keys, snapshot, picture_entries names_nodup, List.map_map]
    rfl
  rw [Snapshot.named, hkeys, items_names, List.filter_append, List.filter_cons,
    recordName_apart h, if_neg (by simp), List.filter_append]

theorem named_key : snapshot.named "key_" = [recordName] := by
  have hkeys : snapshot.accounts.keys = items.map Item.name := by
    rw [Dict.keys, snapshot, picture_entries names_nodup, List.map_map]
    rfl
  have hnames : names.filter (startsWith · "key_") = [] := by decide
  have htokens : tokenNames.filter (startsWith · "key_") = [] := by decide
  rw [Snapshot.named, hkeys, items_names, List.filter_append, List.filter_cons, recordName_starts,
    if_pos rfl, hnames, htokens, List.nil_append]

/-! ### Addresses -/

theorem derived_address (x : Seeds) : derived deployment.toChain x.bytes =
    .ok (shown (address x), ((x.bump deployment.toChain).toNat : ℤ)) := by
  rw [derives.derived, address]

theorem vault_bump (r : LaunchV7.Role) :
    (Seeds.vault policyKey r.toU8).bump deployment.toChain = vaultBump r :=
  computed.vaults r (by cases r <;> simp)

theorem policy_bound : LaunchV7.Canonical deployment.toChain policyKey (.policy policy) ∧
    policy.identity = LaunchV7.identity deployment.toChain creator mint founder treasury oracle spec
      config :=
  ⟨⟨computed.address, computed.bump⟩, computed.bound⟩

theorem policy_read : snapshot.readPolicy deployment.toChain = .ok (.of policyKey policy) :=
  (lists (mem_programs mem_policy)).policy derives policy_bound.1 policy_bound.2

theorem token_read {e : String × Pubkey × TokenAccount} (he : e ∈ holdings) :
    snapshot.readToken e.1 = .ok (.of e.2.1 e.2.2) := by
  obtain ⟨hamount, hdelegated, hstate, hnative⟩ := holdings_plain e he
  exact (lists (mem_holdings he)).token (Content.token_packed hamount hdelegated) hstate hnative

theorem policy_role (r : LaunchV7.Role) :
    (PolicyView.of policyKey policy).role r = .ok (.of (policy.withdrawal.get r)) :=
  role_of policy r

theorem upTo_zero : upTo 0 = [] := rfl

/-! ### Checks -/

theorem governance_verified :
    ∃ g, verifyGovernance deployment.toChain snapshot (.of policyKey policy) clock.val = .ok g := by
  have hvalid : (PolicyView.of policyKey policy).reportValid = true := rfl
  have hsequence : (PolicyView.of policyKey policy).changeSequence = 0 := rfl
  have hkeys : registered (PolicyView.of policyKey policy).config.recoveryKeys = .ok true :=
    registered_keys rfl (by decide) (by decide)
  have hnamed := named "change_" (by decide)
  simp only [verifyGovernance, bind_eq_ok, require_eq_ok, pure_eq_ok, exists_const, hnamed, hkeys,
    hvalid, if_true, hsequence, upTo_zero, List.foldlM_nil, List.map_nil, policy_role,
    Except.ok.injEq, exists_eq_left', exists_and_left, exists_eq', and_true]
  exact ⟨trivial, by decide, by decide, ⟨by decide, rfl, by decide⟩, by decide, by decide, rfl,
    ⟨rfl, rfl⟩, by decide⟩

def sourceToken : Token := .of source (holding creator 0)

theorem vault_checked (r : LaunchV7.Role) : checkVault deployment.toChain snapshot
    (.of policyKey policy) ⟨600, 1200⟩ sourceToken
    (.of (tokenKey r) (holding (vaultKey r) (balance r))) r = .ok 0 := by
  have hlists : snapshot.Lists _ _ PROGRAM ((vault r).serialize deployment.toChain) :=
    lists (mem_programs (mem_vault r))
  have hvault := derived_address (.vault policyKey r.toU8)
  have htoken := derived_address (.token (vaultKey r))
  rw [vault_bump] at hvault
  simp only [checkVault, bind_eq_ok, require_eq_ok, pure_eq_ok, exists_const, Prod.exists]
  refine ⟨_, _, hlists.record vault_agrees, policyKey.bytes, pubkey_shown policyKey, _, _, hvault,
    ⟨rfl, rfl, rfl⟩, ⟨rfl, (get_original policy r).symm, rfl⟩,
    ⟨(get_amount config r).symm, (get_releasedTotal policy r).symm⟩, ?_⟩
  refine ⟨by cases r <;> decide, by cases r <;> decide, by cases r <;> decide,
    by cases r <;> decide, by cases r <;> decide, (vaultKey r).bytes, pubkey_shown _, _, _, htoken,
    ⟨rfl, rfl⟩, ⟨rfl, rfl, rfl⟩, by cases r <;> decide, by cases r <;> decide⟩

theorem approval_turn : approvalTurn deployment.toChain snapshot (.of policyKey policy) clock.val
    "approval_6" = .ok (.of approval) := by
  have hlists : snapshot.Lists "approval_6" _ PROGRAM (approval.serialize deployment.toChain) :=
    lists (mem_programs mem_approval)
  have haddress := derived_address (.approval policyKey 6)
  rw [computed.approvalBump] at haddress
  simp only [approvalTurn, bind_eq_ok, require_eq_ok, pure_eq_ok, exists_const, Prod.exists]
  exact ⟨_, _, hlists.record approval_agrees, policyKey.bytes, pubkey_shown policyKey, _, _, haddress,
    ⟨rfl, rfl, rfl, rfl⟩, by decide, by decide, rfl⟩

theorem approvals_read :
    readApprovals deployment.toChain snapshot (.of policyKey policy) clock.val =
    .ok [.of approval] := by
  have hnames : ((names ++ tokenNames).filter (startsWith · "approval_")).insertionSort (· ≤ ·) =
      ["approval_6"] := by decide
  simp only [readApprovals, named "approval_" (by decide), hnames, bind_eq_ok,
    require_eq_ok, exists_const]
  refine ⟨⟨rfl, by decide⟩, ?_⟩
  rw [List.mapM_cons, approval_turn]
  rfl

theorem key_turn : keyTurn deployment.toChain snapshot (.of policyKey policy) [.of approval]
    (fun _ ↦ (0, 0)) [] recordName = .ok [.of record] := by
  have hlists : snapshot.Lists recordName _ PROGRAM (record.serialize deployment.toChain) :=
    lists (mem_programs mem_record)
  have haddress := derived_address (.key policyKey payee)
  rw [computed.recordBump] at haddress
  simp only [keyTurn, bind_eq_ok, require_eq_ok, pure_eq_ok, exists_const, Prod.exists]
  exact ⟨_, _, hlists.record key_agrees, policyKey.bytes, pubkey_shown policyKey, payee.bytes,
    pubkey_shown payee, _, _, haddress, ⟨rfl, rfl, rfl, rfl⟩, ⟨.inr rfl, by simp⟩, ⟨rfl, rfl⟩,
    ⟨fun _ ↦ ⟨_, List.mem_singleton_self _, rfl⟩, fun _ ↦ by decide⟩, rfl⟩

/-- The approval is that of the first treasury key, and nobody of the launch is paid. -/
theorem approval_checked : checkApproval (.of policyKey policy) clock.val
    { current := shown treasury, history := [shown treasury] } [] [.of record] (.of approval) =
      .ok () := by
  have hrecipient : shown payee ∉ ([founder, treasury] ++ config.founderRecoveryKeys.toList ++
      config.treasuryRecoveryKeys.toList).map shown := not_mem_shown (by decide)
  rw [List.map_append, List.map_append] at hrecipient
  simp only [checkApproval, bind_eq_ok, okOr_eq_ok, require_eq_ok, exists_const]
  exact ⟨.of record, by simp [Approval.of, KeyRecord.of, approval, record],
    ⟨hrecipient, rfl, rfl⟩, rfl, .inl rfl, .inl rfl, rfl⟩

theorem withdrawal_verified : ∃ view, verifyWithdrawal deployment.toChain snapshot
    (.of policyKey policy) [.of approval] clock.val = .ok view ∧
      view.history.founder = [shown founder] := by
  have hsequence : ∀ r, (Role.of (policy.withdrawal.get r)).sequence = 0 := by
    intro r
    cases r <;> rfl
  have hkeys (r : LaunchV7.Role) :
      registered ((PolicyView.of policyKey policy).config.committee.get r) = .ok true := by
    cases r
    · exact registered_keys rfl (by decide) (by decide)
    · exact registered_keys rfl (by decide) (by decide)
  have hrecords : [recordName].foldlM (keyTurn deployment.toChain snapshot (.of policyKey policy)
      [.of approval] fun _ ↦ (0, 0)) [] = .ok [.of record] := by
    rw [List.foldlM_cons, key_turn]
    rfl
  simp only [verifyWithdrawal, checkRegistration, roleTurn, bind_eq_ok, require_eq_ok, pure_eq_ok,
    exists_const, named "withdrawal_" (by decide), named_key, Prod.exists, policy_role,
    hkeys, hsequence, upTo_zero, List.foldlM_nil, Except.ok.injEq, exists_eq_left', Prod.mk.injEq]
  refine ⟨_, ⟨⟨trivial, not_mem_shown (by decide)⟩, ⟨trivial, not_mem_shown (by decide)⟩, _, _,
    ⟨by decide, _, _, ⟨rfl, rfl⟩, ⟨rfl, rfl, rfl⟩, rfl, rfl⟩, _, _,
    ⟨by decide, _, _, ⟨rfl, rfl⟩, ⟨rfl, rfl, rfl⟩, rfl, rfl⟩, by decide, _, hrecords, ?_, (), ?_,
    rfl⟩, rfl⟩
  · exact List.Subset.refl _
  · rw [List.forM_eq_forM, forM_eq_ok, List.forall_mem_singleton]
    exact approval_checked

theorem config_valid : validateConfig (.of config) 36000 = .ok () := by
  have hbound : ∀ i : Fin 2, (Rule.of (config.rule i)).sourceHash ≠
      String.ofList (List.replicate 64 '0') := by decide
  simp only [validateConfig, annualRules_of, bind_eq_ok, require_eq_ok, okOr_eq_ok, exists_const,
    List.forM_eq_forM, forM_eq_ok, List.forall_mem_cons, List.getElem?_cons_zero,
    List.getElem?_cons_succ, Option.some.injEq, exists_eq_left']
  exact ⟨by decide, by decide, by decide, by decide, by decide,
    ⟨⟨by decide, by decide, hbound 0⟩, by decide, by decide, by decide⟩,
    ⟨⟨by decide, by decide, hbound 1⟩, by decide, by decide, by decide⟩, by simp⟩

theorem limits_projected : ∃ l, projectedLimits (.of policy) clock.val = .ok l ∧
    l.available = ⟨30, 40⟩ ∧ l.period = 6 := by
  obtain ⟨l, hl, havailable⟩ := Option.map_eq_some_iff.mp computed.limits
  refine ⟨l, ?_, Prod.mk.inj havailable⟩
  cases h : projectedLimits (.of policy) clock.val with
  | error e => simp [h, Except.toOption] at hl
  | ok l' =>
    rw [h] at hl
    exact congrArg Except.ok (Option.some.inj hl)

theorem verify_snapshot :
    ∃ g, verify deployment.toChain snapshot = .ok g ∧ g.amountCeilings = ⟨30, 10⟩ := by
  obtain ⟨governance, hgovernance⟩ := governance_verified
  obtain ⟨withdrawal, hwithdrawal, hhistory⟩ := withdrawal_verified
  obtain ⟨l, hlimits, havailable, hperiod⟩ := limits_projected
  have hmint : snapshot.readMint (PolicyView.of policyKey policy).toPolicy = .ok (36000, 9) := by
    have hmem : (⟨"mint", mint, .mint supply⟩ : Item) ∈ items := List.mem_cons_self
    exact (lists hmem).mint (Content.mint_packed supply) rfl rfl rfl rfl
  have htokens : ∀ e ∈ holdings, snapshot.readToken e.1 = .ok (.of e.2.1 e.2.2) :=
    fun e ↦ token_read
  simp only [holdings, List.forall_mem_cons] at htokens
  obtain ⟨hfounder, htreasury, hsource, hdestination, hdrawn, -⟩ := htokens
  have hnames : (snapshot.named "founder_destination_").insertionSort (· ≤ ·) =
      ["founder_destination_0"] := by
    rw [named "founder_destination_" (by decide)]
    decide
  have halias : (snapshot.accounts.values.map AccountView.address).Nodup := by
    rw [Dict.values, snapshot, picture_entries names_nodup, List.map_map, List.map_map]
    have h := computed.apart.map shown_injective
    rwa [List.map_map] at h
  have hfounders : ["founder_destination_0"].mapM snapshot.readToken =
      .ok [.of successorToken (holding founder 20)] := by
    rw [List.mapM_cons, hdrawn]
    rfl
  have hrule : (PolicyView.of policyKey policy).config.annualRules =
      [.of (config.rule 0), .of (config.rule 1)] := annualRules_of config
  have hl : projectedLimits (PolicyView.of policyKey policy).toPolicy clock.val = .ok l := hlimits
  have hcurrent : [Approval.of approval].find? (fun a ↦ a.period = l.period) =
      some (.of approval) := by
    rw [hperiod]
    rfl
  have hceilings : ceilings (.of policyKey policy) l (some (.of approval)) true = .ok ⟨30, 10⟩ := by
    simp only [ceilings, policy_role, havailable]
    rfl
  have hreport : checkReport (PolicyView.of policyKey policy) clock.val = .ok () := by rfl
  have hnow : snapshot.now = clock.val := rfl
  have horacle : pubkey (PolicyView.of policyKey policy).oracle = .ok oracle.bytes := pubkey_shown _
  apply Exists.intro
  apply And.intro
  · simp only [verify, hnow, policy_read, hgovernance, hmint, hnames, hsource, hfounder, htreasury,
      hdestination, hfounders, approvals_read, hwithdrawal, hrule, hl, horacle, hcurrent, bind_eq_ok,
      require_eq_ok, okOr_eq_ok, pure_eq_ok, exists_const, Prod.exists, Except.ok.injEq,
      exists_eq_left', Prod.mk.injEq]
    refine ⟨⟨rfl, rfl⟩, ⟨.inr rfl, rfl⟩, ⟨by decide, by decide⟩, halias, ⟨rfl, rfl⟩,
      ⟨by decide, by decide⟩, ⟨by decide, by decide⟩, ⟨by decide, by decide⟩, 36000, 9,
      ⟨rfl, rfl⟩, (), config_valid, .inl rfl, _, rfl, ⟨by decide, by decide⟩, ⟨600, 1200⟩, rfl,
      ⟨by decide, by decide, rfl⟩, ?_, 0, vault_checked .founder, 0, vault_checked .treasury, rfl,
      by decide, by decide, by decide, ?_, rfl, ?_, ⟨rfl, rfl⟩, (), ?_, (), hreport, _,
      hceilings, rfl⟩
    · simp only [List.forall_mem_cons]
      exact ⟨rfl, rfl, rfl, rfl, rfl, by simp⟩
    · simp only [List.forall_mem_cons, hhistory]
      exact ⟨.inr (List.mem_singleton.mpr rfl), by simp⟩
    · simp only [List.forall_mem_cons]
      exact ⟨⟨rfl, rfl⟩, by simp⟩
    · simp only [List.forM_eq_forM, forM_eq_ok, List.forall_mem_singleton, bind_eq_ok, require_eq_ok]
      exact ⟨(), fun _ ↦ by decide, fun _ ↦ rfl⟩
  · rfl

theorem policyAt_ledger : ledger.policyAt policyKey = some policy :=
  LaunchV7.Ledger.policyAt_eq_some.mpr (program_ledger mem_policy)

theorem policy_address :
    (snapshot.accounts.get? "policy").map AccountView.address = some (shown policyKey) := by
  obtain ⟨a, ha, haddress, -⟩ := (lists (mem_programs mem_policy)).entry
  rw [ha, Option.map_some, haddress]

end Vested

/-- A graph is accepted whose founder may still take out a part of the quota, and whose treasury may
pay the rest of its approval. -/
theorem verify_decides_sample : ∃ g k, verify Vested.deployment.toChain Vested.snapshot = .ok g ∧
    g.amountCeilings = ⟨30, 10⟩ ∧
    Decides Vested.deployment Vested.ledger Vested.policyKey Vested.policy Vested.clock g k := by
  obtain ⟨g, hg, hceilings⟩ := Vested.verify_snapshot
  obtain ⟨k, hk⟩ := verify_decides Vested.derives rfl Vested.shows Vested.policy_address rfl hg
    Vested.policyAt_ledger (by decide)
  exact ⟨g, k, hg, hceilings, hk⟩

end FundingVaults.Verifier
