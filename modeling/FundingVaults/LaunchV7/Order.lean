import FundingVaults.Lib.Clients
import FundingVaults.LaunchV7.Spending

/-!
# The shares do not depend on the order

Both roles release from one policy record, yet neither can be in the other's way: inside a period
a request of a role is granted or refused whatever the other role was granted before it.

`Grant` lists what a granted release checks and does.  A request that is granted on one ledger is
granted on every ledger that differs from it by other releases of the period, if its own role has
the room left, so the two roles are independent clients of the program.
-/

namespace FundingVaults.LaunchV7

/-! ## A granted release -/

section Grant

variable (d : Deployment) (L : Ledger) (now : I64) (q : Request) (p : LaunchPolicyV7) (k : U64)

/-- The checks on the destination of a release, which `owner` owns, and the approval that is
written back. -/
inductive Payee (owner : Pubkey) : Role → Option (Account TreasuryApprovalV7) → Prop where
  | founder (cliff : p.config.t0.val + 15552000 ≤ now.val)
      (current : owner = (p.withdrawal.get .founder).current)
      (bare : q.keys.approval = none ∧ q.keys.recipientRecord = none) : Payee owner .founder none
  | treasury {record : Account WithdrawalKeyV7} {approval : Account TreasuryApprovalV7}
      {used : U64} (named : q.keys.recipientRecord = some record.key ∧
        q.keys.approval = some approval.key)
      (record_stored : L.program record.key = some (.withdrawalKey record.data))
      (approval_stored : L.program approval.key = some (.approval approval.data))
      (canonical : record.key = (Seeds.key q.keys.policy owner).address d.toChain ∧
        record.data.bump = (Seeds.key q.keys.policy owner).bump d.toChain ∧
        record.data.policy = q.keys.policy ∧ record.data.subject = owner ∧
        record.data.recipient = true)
      (eligible : EligibleRecipient p record.data)
      (derived : d.createProgramAddress
        ((Seeds.approval q.keys.policy k).bytes ++ [[approval.data.bump]]) ID = some approval.key)
      (approves : approval.data.policy = q.keys.policy ∧ approval.data.period = k ∧
        approval.data.recipient = q.keys.destination ∧ approval.data.recipientOwner = owner)
      (mature : approval.data.createdAt.val + 2592000 ≤ now.val)
      (counted : approval.data.consumed.val + q.amount.val = used.val)
      (need : used ≤ approval.data.need) :
      Payee owner .treasury
        (some { approval with data := { approval.data with consumed := used } })

/-- What a granted release checks, and what it leaves. -/
structure Grant (r : Role) (v : LaunchVaultV7) (a : Option (Account TreasuryApprovalV7))
    (p' : LaunchPolicyV7) (v' : LaunchVaultV7) (m : Mint) (b t : TokenAccount) (tokens : Tokens) :
    Prop where
  signed : q.keys.authority ∈ q.signers
  policy : L.program q.keys.policy = some (.policy p)
  mint : p.mint = q.keys.mint
  vault : L.program q.keys.vault = some (.vault v)
  vaultPolicy : v.policy = q.keys.policy
  role : v.role = r.toU8
  vaultToken : (Seeds.token q.keys.vault).address d.toChain = q.keys.vaultToken
  mintAccount : L.tokens.mint q.keys.mint = some m ∧ m.isInitialized
  source : L.tokens.account q.keys.vaultToken = some b ∧ b.state ≠ .uninitialized ∧
    b.mint = q.keys.mint ∧ b.owner = q.keys.vault
  destination : L.tokens.account q.keys.destination = some t ∧ t.state ≠ .uninitialized ∧
    t.mint = q.keys.mint
  tick : p.lastActionAt ≤ now
  state : p.state = ACTIVE
  authentic : (p.withdrawal.get r).pending = 0 ∧ (p.withdrawal.get r).current = q.keys.authority ∧
    (p.withdrawal.get r).epoch = q.epoch
  t0 : p.config.t0 < now
  amount : 0 < q.amount
  inPeriod : periodAt p.config.t0 now = .ok k
  period : p.period ≤ k ∧ v.period ≤ k
  report : p.reportValid = true ∧ p.reportEpoch = p.oracleEpoch ∧ 0 < p.reportSequence ∧
    p.reportPeriod = k ∧ p.reportAt ≤ now
  fresh : now.val - p.reportAt.val ≤ p.config.maxReportAge.val
  owner : v.authority = p.owner r
  payee : Payee d L now q p k t.owner r a
  consumed : consume { p with lastActionAt := now } v now q.amount = .ok (p', v')
  transfer : d.transferChecked L.tokens {
    source := q.keys.vaultToken
    mint := q.keys.mint
    destination := q.keys.destination
    authority := q.keys.vault
    amount := q.amount.val
    decimals := m.decimals } = some tokens

/-- The ledger a granted release leaves. -/
def Request.commit (p' : LaunchPolicyV7) (v' : LaunchVaultV7)
    (a : Option (Account TreasuryApprovalV7)) (tokens : Tokens) : Ledger :=
  ((({ L with tokens }).write q.keys.policy (.policy p')).write q.keys.vault
    (.vault v')).writeApproval a

variable {d L now q p k} {L' : Ledger}

theorem Payee.of_releasePayee {owner : Pubkey} {ctx : Release} {r : Role}
    {a : Option (Account TreasuryApprovalV7)} (hpolicy : ctx.policy = ⟨q.keys.policy, p⟩)
    (hdest : ctx.destination.key = q.keys.destination ∧ ctx.destination.data.owner = owner)
    (ha : (q.keys.approval = none ∧ ctx.approval = none) ∨
      ∃ acc, q.keys.approval = some acc.key ∧ ctx.approval = some acc ∧
        L.program acc.key = some (.approval acc.data))
    (hk : (q.keys.recipientRecord = none ∧ ctx.recipientRecord = none) ∨
      ∃ acc, q.keys.recipientRecord = some acc.key ∧ ctx.recipientRecord = some acc ∧
        L.program acc.key = some (.withdrawalKey acc.data)) :
    ReleasePayee d.toChain now ctx k q.amount r a ↔ Payee d L now q p k owner r a := by
  obtain ⟨hkey, rfl⟩ := hdest
  constructor
  · intro h
    cases r with
    | founder =>
      obtain ⟨hcliff, howner, ⟨hna, hnk⟩, rfl⟩ := h
      rw [hpolicy] at hcliff howner
      refine .founder hcliff howner ⟨?_, ?_⟩
      · rcases ha with ⟨h, -⟩ | ⟨_, -, h, -⟩
        · exact h
        · simp [hna] at h
      · rcases hk with ⟨h, -⟩ | ⟨_, -, h, -⟩
        · exact h
        · simp [hnk] at h
    | treasury =>
      obtain ⟨a', ha', rfl⟩ := h
      obtain ⟨x, y, hx, hy, hcanon, hel, hderived, happroves, hmature, used, hused, hneed, rfl⟩ :=
        releaseApproval_eq_ok.mp ha'
      rw [hx] at hk
      rw [hy] at ha
      simp only [reduceCtorEq, and_false, false_or, Option.some.injEq] at ha hk
      obtain ⟨_, hnamed, rfl, hstored⟩ := ha
      obtain ⟨_, hnamed', rfl, hstored'⟩ := hk
      rw [hpolicy] at hcanon hel hderived happroves
      rw [hkey] at happroves
      exact .treasury ⟨hnamed', hnamed⟩ hstored' hstored hcanon hel hderived happroves hmature
        hused hneed
  · intro h
    cases h with
    | founder cliff current bare =>
      refine ⟨by rw [hpolicy]; exact cliff, by rw [hpolicy]; exact current, ⟨?_, ?_⟩, rfl⟩
      · rcases ha with ⟨-, h⟩ | ⟨_, h, -⟩
        · exact h
        · simp [bare.1] at h
      · rcases hk with ⟨-, h⟩ | ⟨_, h, -⟩
        · exact h
        · simp [bare.2] at h
    | @treasury x y used named hx hy hcanon hel hderived happroves hmature hused hneed =>
      rw [named.1] at hk
      rw [named.2] at ha
      simp only [reduceCtorEq, false_and, false_or, Option.some.injEq] at ha hk
      obtain ⟨y', hyk, hy', hys⟩ := ha
      obtain ⟨x', hxk, hx', hxs⟩ := hk
      obtain rfl : y = y' := by
        rw [← hyk, hy] at hys
        cases y
        cases y'
        simp_all
      obtain rfl : x = x' := by
        rw [← hxk, hx] at hxs
        cases x
        cases x'
        simp_all
      refine ⟨_, releaseApproval_eq_ok.mpr ⟨x, y, hx', hy', ?_, ?_, ?_, ?_, hmature, used, hused,
        hneed, rfl⟩, rfl⟩
      · rw [hpolicy]
        exact hcanon
      · rw [hpolicy]
        exact hel
      · rw [hpolicy]
        exact hderived
      · rw [hpolicy, hkey]
        exact happroves

theorem process_release_canonical (hP : ∀ a, L.program q.keys.policy = some a →
    Canonical d.toChain q.keys.policy a) (hv : ∀ a, L.program q.keys.vault = some a →
    Canonical d.toChain q.keys.vault a) :
    process d L (q.tx now) = .ok L' ↔ ∃ p k r v a p' v' m b t tokens,
      Grant d L now q p k r v a p' v' m b t tokens ∧ q.commit L p' v' a tokens = L' := by
  simp only [Request.tx, process, Release.load, checkFound, bind_eq_ok, pure_eq_ok, require_eq_ok,
    signer_eq_ok, hasOne_eq_ok, tokenAuthority_eq_ok, loadPolicy_eq_ok hP,
    loadVault_eq_ok hv, loadMint_eq_ok, loadToken_eq_ok, mapM_loadAs_eq_ok,
    bind_approval?, bind_withdrawalKey?, release_eq_ok, Ledger.transfer_eq_ok, Prod.exists,
    exists_const]
  constructor
  · rintro ⟨_, ⟨hs, ⟨_, p⟩, ⟨hp, rfl⟩, hmint, ⟨_, v⟩, ⟨hv, rfl, hvP⟩, ⟨_, m⟩, ⟨hm, hmi, rfl⟩, hvt,
      ⟨_, b⟩, ⟨hb, hbs, hbm, rfl⟩, hbo, ⟨_, t⟩, ⟨ht, hts, htm, rfl⟩, oa, hoa, ok, hok, rfl⟩, p', v',
      a, _, ⟨htick, hst, r, hr, hauth, ht0, ham, k, hper, hle, hrep, hfresh, hown, hpayee, hcons,
      rfl⟩, _, ⟨tokens, htr, rfl⟩, rfl⟩
    exact ⟨p, k, r, v, a, p', v', m, b, t, tokens, {
      signed := hs
      policy := hp
      mint := hmint
      vault := hv
      vaultPolicy := hvP
      role := hr
      vaultToken := hvt
      mintAccount := ⟨hm, hmi⟩
      source := ⟨hb, hbs, hbm, hbo⟩
      destination := ⟨ht, hts, htm⟩
      tick := htick
      state := hst
      authentic := hauth
      t0 := ht0
      amount := ham
      inPeriod := hper
      period := hle
      report := hrep
      fresh := hfresh
      owner := hown
      payee := (Payee.of_releasePayee rfl ⟨rfl, rfl⟩ hoa hok).mp hpayee
      consumed := hcons
      transfer := htr }, rfl⟩
  · rintro ⟨p, k, r, v, a, p', v', m, b, t, tokens, g, rfl⟩
    obtain ⟨oa, hoa⟩ : ∃ oa : Option (Account TreasuryApprovalV7),
        (q.keys.approval = none ∧ oa = none) ∨ ∃ acc, q.keys.approval = some acc.key ∧
          oa = some acc ∧ L.program acc.key = some (.approval acc.data) := by
      cases g.payee with
      | founder _ _ bare => exact ⟨none, .inl ⟨bare.1, rfl⟩⟩
      | treasury named _ stored => exact ⟨_, .inr ⟨_, named.2, rfl, stored⟩⟩
    obtain ⟨ok, hok⟩ : ∃ ok : Option (Account WithdrawalKeyV7),
        (q.keys.recipientRecord = none ∧ ok = none) ∨ ∃ acc,
          q.keys.recipientRecord = some acc.key ∧ ok = some acc ∧
            L.program acc.key = some (.withdrawalKey acc.data) := by
      cases g.payee with
      | founder _ _ bare => exact ⟨none, .inl ⟨bare.2, rfl⟩⟩
      | treasury named stored => exact ⟨_, .inr ⟨_, named.1, rfl, stored⟩⟩
    refine ⟨_, ⟨g.signed, ⟨_, p⟩, ⟨g.policy, rfl⟩, g.mint, ⟨_, v⟩, ⟨g.vault, rfl, g.vaultPolicy⟩,
      ⟨_, m⟩, ⟨g.mintAccount.1, g.mintAccount.2, rfl⟩, g.vaultToken, ⟨_, b⟩,
      ⟨g.source.1, g.source.2.1, g.source.2.2.1, rfl⟩, g.source.2.2.2, ⟨_, t⟩,
      ⟨g.destination.1, g.destination.2.1, g.destination.2.2, rfl⟩, oa, hoa, ok, hok, rfl⟩, p', v',
      a, _, ⟨g.tick, g.state, r, g.role, g.authentic, g.t0, g.amount, k, g.inPeriod, g.period,
      g.report, g.fresh, g.owner, ?_, g.consumed, rfl⟩, _, ⟨tokens, g.transfer, rfl⟩, rfl⟩
    exact (Payee.of_releasePayee rfl ⟨rfl, rfl⟩ hoa hok).mpr g.payee

theorem process_release (hL : L.Sound d.toChain) :
    process d L (q.tx now) = .ok L' ↔ ∃ p k r v a p' v' m b t tokens,
      Grant d L now q p k r v a p' v' m b t tokens ∧ q.commit L p' v' a tokens = L' :=
  process_release_canonical (fun _ ↦ hL.canonical) fun _ ↦ hL.canonical

end Grant

/-! ## Granted here, granted there -/

/-- A time of the period `k` at which the report of the policy is fresh. -/
structure Timely (p : LaunchPolicyV7) (k : U64) (t : I64) : Prop where
  tick : p.lastActionAt ≤ t
  t0 : p.config.t0 < t
  inPeriod : periodAt p.config.t0 t = .ok k
  reported : p.reportAt ≤ t
  fresh : t.val - p.reportAt.val ≤ p.config.maxReportAge.val

/-- A request on the policy at `P` that may be made at `t`: the approval it names, if there is
one, is mature. -/
structure Fits (d : Deployment) (L : Ledger) (P : Pubkey) (p : LaunchPolicyV7) (k : U64) (t : I64)
    (q : Request) : Prop where
  policy : q.keys.policy = P
  unsigned : ∀ s : Seeds, s.address d.toChain ∉ q.signers
  timely : Timely p k t
  mature : ∀ key a, q.keys.approval = some key → L.program key = some (.approval a) →
    a.createdAt.val + 2592000 ≤ t.val

/-- The approval of the period covers `n` more. -/
def Approved (P : Pubkey) (l : WindowLimits) (L : Ledger) (n : ℕ) : Prop :=
  ∀ key a, L.program key = some (.approval a) → a.policy = P → a.period = l.period →
    a.consumed.val + n ≤ a.need.val

/-- No vault is ahead of its policy. -/
def Dated (V : View) : Prop := ∀ r v, V.vault r = some v → v.period ≤ V.policy.period

section Transfer

variable {d : Deployment} {P : Pubkey} {V V' : View} {e : Event} {xs : List Event} {chain : Chain}

theorem Step.dated (h : Step P V e V') (hd : Dated V) : Dated V' := by
  -- A release brings its vault to the period it turns the policy to.
  have hrelease : ∀ {now : I64} {r : Role} {amount : U64} {v v' : LaunchVaultV7}
      {p' : LaunchPolicyV7}, consume { V.policy with lastActionAt := now } v now amount =
        .ok (p', v') → V'.policy.period = p'.period →
      V'.vault = Function.update V.vault r (some (v.withCounters v')) → Dated V' := by
    intro now r amount v v' p' hc hperiod hvault s u hu
    obtain ⟨l, r', hc⟩ := consume_eq_ok.mp hc
    obtain ⟨i, hl⟩ := windowLimits_eq_ok.mp hc.limits
    have hle : V.policy.period ≤ l.period := hl.policyPeriod
    rw [hperiod, hc.period]
    rw [hvault, Function.update_apply] at hu
    split at hu
    · obtain rfl := Option.some.inj hu
      rw [hc.vault]
      exact le_rfl
    · exact (hd s u hu).trans hle
  cases h with
  | deposit guard =>
    intro r v hv
    simp only [View.put] at hv
    split at hv
    · obtain rfl := Option.some.inj hv
      exact Fin.zero_le _
    · exact hd r v hv
  | @releaseFounder _ _ _ _ _ _ _ v v' p' guard cliff consumed =>
    exact hrelease consumed rfl
      (View.put_vault (V := V.put (.policy p')) (v := v.withCounters v') guard.role :)
  | @releaseTreasury _ _ _ _ _ _ _ _ v v' p' k a used guard approved counted consumed =>
    exact hrelease consumed rfl
      (View.put_vault (V := V.put (.policy p')) (v := v.withCounters v') guard.role :)
  | _ => exact hd

theorem path_dated (h : (machine chain P).Path xs V) : Dated V :=
  h.always (fun ho r v hv ↦ by simp [ho.vault] at hv) fun hd hs ↦ Step.dated hs hd

variable {L X Y : Ledger} {p : LaunchPolicyV7} {l : WindowLimits} {i : Fin 2}
  {t₀ tX tY now now' : I64} {A B : Role → List Request} {q : Request} {r : Role}

/-- The destination that is accepted on one ledger is accepted on another one, if the approval
has the room. -/
theorem Payee.elsewhere {pX pY : LaunchPolicyV7} {owner : Pubkey}
    {a : Option (Account TreasuryApprovalV7)} (h : Payee d Y now q pY l.period owner r a)
    (hY : Spent P l L tY A Y) (hX : Spent P l L tX B X)
    (hpY : pY = p.spend l (fun r ↦ total (A r)) tY)
    (hpX : pX = p.spend l (fun r ↦ total (B r)) tX) (hfits : Fits d L P p l.period now q)
    (hfits' : Fits d L P p l.period now' q)
    (hneed : r = .treasury → Approved P l L (total (B .treasury) + q.amount.val)) :
    ∃ a', Payee d X now' q pX l.period owner r a' := by
  subst hpX hpY
  cases h with
  | founder cliff current bare =>
    exact ⟨none, .founder ((eligible_iff hfits'.timely.inPeriod).mpr
      ((eligible_iff hfits.timely.inPeriod).mp cliff)) current bare⟩
  | @treasury x y used named hx hy hcanon hel hderived happroves hmature hused hneedY =>
    obtain ⟨a, ha, hya⟩ := hY.of_approval hy
    rw [hya] at hderived happroves
    have hcond : a.policy = P ∧ a.period = l.period :=
      ⟨happroves.1.trans hfits.policy, happroves.2.1⟩
    have hroom := hneed rfl _ a ha hcond.1 hcond.2
    have hlt := a.need.isLt
    have hconsumed : (a.spend P l fun r ↦ total (B r)).consumed.val =
        a.consumed.val + total (B .treasury) := by
      simp only [TreasuryApprovalV7.spend, if_pos hcond]
      exact U64.ofNat_val (by omega)
    obtain ⟨used', hused'⟩ := U64.exists_val_eq
      (x := a.consumed.val + (total (B .treasury) + q.amount.val)) (by omega)
    refine ⟨_, @Payee.treasury d X now' q _ l.period owner x
      ⟨y.key, a.spend P l fun r ↦ total (B r)⟩ used' named (hX.record (hY.of_record hx))
      (hX.approval ha) hcanon
      ⟨hel.owner, hel.committee, hel.history, hel.pending⟩ hderived happroves
      (hfits'.mature _ a named.2 ha) ?_ ?_⟩
    · rw [hconsumed, Nat.add_assoc, hused']
    · rw [Fin.le_def, ← hused']
      exact hroom

/-- An accepted release is within the approval of its period. -/
theorem Payee.approved {pX : LaunchPolicyV7} {owner : Pubkey}
    {a : Option (Account TreasuryApprovalV7)}
    (h : Payee d X now q pX l.period owner .treasury a) (hX : Spent P l L tX A X)
    (hL : L.Sound d.toChain) (hpolicy : q.keys.policy = P)
    (hfit : total (A .treasury) = 0 ∨ Approved P l L (total (A .treasury))) :
    Approved P l L (total (A .treasury) + q.amount.val) := by
  intro key z hz hzP hzk
  obtain @⟨_, _, _⟩ | @⟨x, y, used, named, hx, hy, hcanon, hel, hderived, happroves, hmature, hused,
    hneed⟩ := h
  obtain ⟨w, hw, hyw⟩ := hX.of_approval hy
  rw [hyw] at happroves
  have hcond : w.policy = P ∧ w.period = l.period := ⟨happroves.1.trans hpolicy, happroves.2.1⟩
  -- There is one approval of the period.
  obtain rfl : z = w := by
    have hseeds : (ProgramAccount.approval z).seeds = (ProgramAccount.approval w).seeds := by
      simp [ProgramAccount.seeds, hzP, hzk, hcond]
    have hkey : key = y.key :=
      (hL.canonical hz).address.symm.trans (hseeds ▸ (hL.canonical hw).address)
    exact ProgramAccount.approval.inj (Option.some.inj (hz.symm.trans (hkey ▸ hw)))
  have hlt : z.consumed.val + total (A .treasury) < 2 ^ 64 := by
    have := z.consumed.isLt
    have := z.need.isLt
    rcases hfit with h0 | hfit
    · omega
    · have := hfit key z hz hzP hzk
      omega
  have hneed' : used ≤ z.need := by
    rw [hyw] at hneed
    exact hneed
  have hconsumed : y.data.consumed.val = z.consumed.val + total (A .treasury) := by
    rw [hyw, TreasuryApprovalV7.spend, if_pos hcond]
    exact U64.ofNat_val hlt
  rw [Fin.le_def, ← hused, hconsumed] at hneed'
  omega

/-- A request that is granted on one ledger is granted on another one, if there is the room. -/
theorem Grant.elsewhere {pY pY' : LaunchPolicyV7} {vY vY' : LaunchVaultV7} {k : U64}
    {a : Option (Account TreasuryApprovalV7)} {m : Mint} {b t : TokenAccount} {tokens : Tokens}
    (g : Grant d Y now q pY k r vY a pY' vY' m b t tokens)
    (hd : d.transferChecked = Tokens.transferChecked) (hY : Spent P l L tY A Y)
    (hX : Spent P l L tX B X) (hsound : X.Sound d.toChain)
    (hp : L.program P = some (.policy p)) (hl : Limits p t₀ l i)
    (hfits : Fits d L P p l.period now q) (hfits' : Fits d L P p l.period now' q)
    (hclock : tX ≤ now')
    (hdated : ∀ v, L.program q.keys.vault = some (.vault v) → v.period ≤ l.period)
    (hconsume : ∀ v, L.program q.keys.vault = some (.vault v) → ∃ s,
      consume (p.spend l (fun r ↦ total (B r)) now') (v.spend P l fun r ↦ total (B r)) now'
        q.amount = .ok s)
    (hneed : r = .treasury → Approved P l L (total (B .treasury) + q.amount.val))
    (hbalance : ∀ c, X.tokens.account q.keys.vaultToken = some c →
      c.SoleOwner q.keys.mint q.keys.vault ∧ q.amount.val ≤ c.amount) :
    ∃ X', process d X (q.tx now') = .ok X' := by
  obtain rfl : pY = p.spend l (fun r ↦ total (A r)) tY := ProgramAccount.policy.inj
    (Option.some.inj (g.policy.symm.trans (hfits.policy ▸ hY.policy hp)))
  obtain rfl : k = l.period := by simpa using g.inPeriod.symm.trans hfits.timely.inPeriod
  obtain ⟨v, hv, rfl⟩ := hY.of_vault g.vault
  obtain ⟨⟨pX', vX'⟩, hcons⟩ := hconsume v hv
  obtain ⟨a', hpayee⟩ := g.payee.elsewhere hY hX rfl rfl hfits hfits' hneed
  -- The token accounts are the same but for their balances.
  obtain ⟨b₀, hb₀, hb⟩ := hY.tokens.exists_account g.source.1
  obtain ⟨n, hbX, -⟩ := hX.tokens.of_account hb₀
  obtain ⟨t₁, ht₁, ht⟩ := hY.tokens.exists_account g.destination.1
  obtain ⟨n', htX, -⟩ := hX.tokens.of_account ht₁
  obtain ⟨hsole, hle⟩ := hbalance _ hbX
  have hmint : X.tokens.mint = Y.tokens.mint := hX.tokens.mint.trans hY.tokens.mint.symm
  have htransfer := g.transfer
  rw [hd, Tokens.transferChecked_eq_some] at htransfer
  obtain ⟨_, t₂, _, _, -, ht₂, -, ⟨-, hinit, -⟩, -⟩ := htransfer
  obtain rfl : t = t₂ := by simpa using g.destination.1.symm.trans ht₂
  have hsource := g.source
  have hdest := g.destination
  rw [hb] at hsource
  rw [ht] at hdest hinit
  have hperiod : (p.spend l (fun r ↦ total (B r)) tX).period ≤ l.period := by
    by_cases hB : total (B .founder) + total (B .treasury) = 0
    · rw [LaunchPolicyV7.spend_idle hB]
      exact hl.policyPeriod
    · rw [LaunchPolicyV7.spend_grow hB]
      exact le_rfl
  have hvperiod : (v.spend P l fun r ↦ total (B r)).period ≤ l.period := by
    simp only [LaunchVaultV7.spend, LaunchVaultV7.withCounters]
    split
    · split
      · exact le_rfl
      · exact hdated v hv
    · exact hdated v hv
  exact ⟨_, (process_release hsound).mpr ⟨p.spend l (fun r ↦ total (B r)) tX, l.period, r, _, a',
    pX', vX', m, _, _, _, {
    signed := g.signed
    policy := hfits.policy ▸ hX.policy hp
    mint := g.mint
    vault := hX.vault hv
    vaultPolicy := g.vaultPolicy
    role := g.role
    vaultToken := g.vaultToken
    mintAccount := hmint ▸ g.mintAccount
    source := ⟨hbX, hsource.2⟩
    destination := ⟨htX, hdest.2⟩
    tick := hclock
    state := g.state
    authentic := g.authentic
    t0 := hfits'.timely.t0
    amount := g.amount
    inPeriod := hfits'.timely.inPeriod
    period := ⟨hperiod, hvperiod⟩
    report := ⟨g.report.1, g.report.2.1, g.report.2.2.1, g.report.2.2.2.1,
      hfits'.timely.reported⟩
    fresh := hfits'.timely.fresh
    owner := g.owner
    payee := by
      have howner : t.owner = t₁.owner := by rw [ht]
      exact howner ▸ hpayee
    consumed := hcons
    transfer := by
      rw [hd]
      exact (Tokens.transferChecked_of_soleOwner hbX hsole).mpr ⟨_, m, htX, hinit, hdest.2.2,
        hmint ▸ g.mintAccount.1, g.mintAccount.2, rfl, hle, rfl⟩ }, rfl⟩⟩

/-- The grants after one more. -/
def granted (A : Role → List Request) (r : Role) (q : Request) : Role → List Request :=
  Function.update A r (A r ++ [q])

theorem total_granted : (fun s ↦ total (granted A r q s)) =
    Function.update (fun s ↦ total (A s)) r (total (A r) + q.amount.val) := by
  funext s
  by_cases hs : s = r
  · subst hs
    simp [granted]
  · simp [granted, hs]

/-- An account that the release does not write is not concerned by the grant. -/
theorem spend_of_other {key : Pubkey} {x : ProgramAccount} {v : LaunchVaultV7}
    (hL : L.Sound d.toChain) (hx : L.program key = some x) (hkey : key ≠ P)
    (hv : L.program q.keys.vault = some (.vault v)) (hP : v.policy = P) (hr : v.role = r.toU8)
    (hvault : key ≠ q.keys.vault)
    (happroval : r = .treasury → ∀ b : TreasuryApprovalV7, x = .approval b →
      ¬ (b.policy = P ∧ b.period = l.period)) :
    x.spend P l now (fun s ↦ total (granted A r q s)) key =
      x.spend P l tX (fun s ↦ total (A s)) key := by
  rw [total_granted]
  cases x with
  | policy p => simp [hkey]
  | vault u =>
    simp only [ProgramAccount.spend_vault, ProgramAccount.vault.injEq, LaunchVaultV7.spend]
    cases hs : Role.ofU8 u.role with
    | none => rfl
    | some s =>
      by_cases hsr : s = r
      · subst hsr
        have hne : u.policy ≠ P := by
          intro huP
          have hseeds : (ProgramAccount.vault u).seeds = (ProgramAccount.vault v).seeds := by
            simp [ProgramAccount.seeds, huP, hP, Role.ofU8_eq_some.mp hs, hr]
          exact hvault ((hL.canonical hx).address.symm.trans
            (hseeds ▸ (hL.canonical hv).address))
        simp [hne]
      · simp [hsr]
  | approval b =>
    simp only [ProgramAccount.spend_approval, ProgramAccount.approval.injEq, TreasuryApprovalV7.spend]
    cases r with
    | founder => simp
    | treasury => simp [happroval rfl b rfl]
  | _ => rfl

theorem commit_program {a : Option (Account TreasuryApprovalV7)} {p' : LaunchPolicyV7}
    {v' : LaunchVaultV7} {tokens : Tokens} (key : Pubkey) :
    (q.commit X p' v' a tokens).program key =
      if a.any fun a ↦ key = a.key then a.map fun a ↦ .approval a.data
      else if key = q.keys.vault then some (.vault v')
      else if key = q.keys.policy then some (.policy p') else X.program key := by
  cases a with
  | none => simp [Request.commit, Ledger.writeApproval, Ledger.write_program]
  | some a => simp [Request.commit, Ledger.writeApproval, Ledger.write_program]

/-- A granted release is one more grant. -/
theorem Grant.spent {pX pX' : LaunchPolicyV7} {vX vX' : LaunchVaultV7} {k : U64}
    {a : Option (Account TreasuryApprovalV7)} {m : Mint} {b t : TokenAccount} {tokens : Tokens}
    (g : Grant d X now q pX k r vX a pX' vX' m b t tokens)
    (hd : d.transferChecked = Tokens.transferChecked) (hX : Spent P l L tX A X)
    (hL : L.Sound d.toChain) (hp : L.program P = some (.policy p)) (hl : Limits p t₀ l i)
    (hroom : Room l fun s ↦ total (A s)) (hfits : Fits d L P p l.period now q)
    (htotal : ∀ v, L.program q.keys.vault = some (.vault v) → v.releasedTotal = p.releasedTotal r)
    (hsole : b.SoleOwner q.keys.mint q.keys.vault) :
    (Room l fun s ↦ total (granted A r q s)) ∧
      Spent P l L now (granted A r q) (q.commit X pX' vX' a tokens) := by
  obtain rfl : pX = p.spend l (fun r ↦ total (A r)) tX := ProgramAccount.policy.inj
    (Option.some.inj (g.policy.symm.trans (hfits.policy ▸ hX.policy hp)))
  obtain rfl : k = l.period := by simpa using g.inPeriod.symm.trans hfits.timely.inPeriod
  obtain ⟨v, hv, rfl⟩ := hX.of_vault g.vault
  have hP : v.policy = P := g.vaultPolicy.trans hfits.policy
  have hr : v.role = r.toU8 := g.role
  obtain ⟨l', r', hc⟩ := consume_eq_ok.mp g.consumed
  obtain rfl : r' = r := Role.toU8_inj.mp (hc.role.symm.trans g.role)
  obtain ⟨_, hl'⟩ := windowLimits_eq_ok.mp hc.limits
  have hperiod : l'.period = l.period := by simpa using hl'.period.symm.trans g.inPeriod
  obtain ⟨hroom', hpolicy, hvault⟩ := hc.spend hl hroom hperiod hP (htotal v hv) g.amount
  rw [total_granted]
  refine ⟨hroom', fun key ↦ ?_, ?_⟩
  · rw [commit_program, hfits.policy]
    -- The approval is written by a release of the treasury only.
    have happroval : (a = none ∧ r' = .founder) ∨ ∃ x y, a = some y ∧ r' = .treasury ∧
        L.program y.key = some (.approval x) ∧ x.policy = P ∧ x.period = l.period ∧
        y.data = x.spend P l fun s ↦ total (granted A r' q s) := by
      cases g.payee with
      | founder => exact .inl ⟨rfl, rfl⟩
      | @treasury x y used named hx hy hcanon hel hderived happroves hmature hused hneed =>
        obtain ⟨z, hz, hyz⟩ := hX.of_approval hy
        rw [hyz] at happroves
        have hcond : z.policy = P ∧ z.period = l.period :=
          ⟨happroves.1.trans hfits.policy, happroves.2.1⟩
        refine .inr ⟨z, _, rfl, rfl, hz, hcond.1, hcond.2, ?_⟩
        have hbefore : y.data.consumed = U64.ofNat (z.consumed.val + total (A .treasury)) := by
          rw [hyz, TreasuryApprovalV7.spend, if_pos hcond]
        have hafter :
            used = U64.ofNat (z.consumed.val + total (granted A .treasury q .treasury)) := by
          have hval :
              (z.consumed.val + total (A .treasury)) % 2 ^ 64 + q.amount.val = used.val := by
            rw [← hused, hbefore]
            rfl
          have hlt := used.isLt
          apply Fin.ext
          simp only [granted, Function.update_self, total_snoc, U64.ofNat]
          omega
        simp only [TreasuryApprovalV7.spend, if_pos hcond, ← hafter, hyz]
    by_cases hkP : key = P
    · subst hkP
      have hne : key ≠ q.keys.vault := by
        rintro rfl
        simp [hp] at hv
      have hna : ¬ (a.any fun a ↦ key = a.key) := by
        rcases happroval with ⟨rfl, -⟩ | ⟨x, y, rfl, -, hx, -⟩
        · simp
        · simp only [Option.any_some, decide_eq_true_eq]
          rintro rfl
          simp [hp] at hx
      simp [hna, hne, hp, hpolicy, total_granted]
    by_cases hkv : key = q.keys.vault
    · subst hkv
      have hna : ¬ (a.any fun a ↦ q.keys.vault = a.key) := by
        rcases happroval with ⟨rfl, -⟩ | ⟨x, y, rfl, -, hx, -⟩
        · simp
        · simp only [Option.any_some, decide_eq_true_eq]
          intro h
          simp [← h, hv] at hx
      simp [hna, hv, hvault, total_granted]
    rcases happroval with ⟨rfl, hfounder⟩ | ⟨x, y, rfl, htreasury, hx, hxP, hxk, hxy⟩
    · simp only [Option.any_none, Bool.false_eq_true, if_false, if_neg hkv, if_neg hkP, hX.program]
      cases hkey : L.program key with
      | none => rfl
      | some z =>
        rw [Option.map_some, Option.map_some, spend_of_other hL hkey hkP hv hP hr hkv
          fun h ↦ by simp [hfounder] at h]
    · by_cases hky : key = y.key
      · subst hky
        simp [hx, hxy]
      · simp only [Option.any_some, decide_eq_true_eq, if_neg hky, if_neg hkv, if_neg hkP,
          hX.program]
        cases hkey : L.program key with
        | none => rfl
        | some z =>
          rw [Option.map_some, Option.map_some, spend_of_other hL hkey hkP hv hP hr hkv]
          rintro - w rfl ⟨hwP, hwk⟩
          have hseeds : (ProgramAccount.approval w).seeds = (ProgramAccount.approval x).seeds := by
            simp [ProgramAccount.seeds, hwP, hwk, hxP, hxk]
          exact hky ((hL.canonical hkey).address.symm.trans
            (hseeds ▸ (hL.canonical hx).address))
  · have htransfer := g.transfer
    rw [hd, Tokens.transferChecked_of_soleOwner g.source.1 hsole] at htransfer
    obtain ⟨_, _, -, -, -, -, -, -, hle, rfl⟩ := htransfer
    have htokens : (q.commit X pX' vX' a (X.tokens.move q.keys.vaultToken q.keys.destination
        q.amount.val)).tokens =
          X.tokens.move q.keys.vaultToken q.keys.destination q.amount.val := by
      cases a <;> rfl
    rw [htokens]
    convert hX.tokens.move g.source.1 hle using 2 with key
    cases r' <;> simp [granted, Request.net] <;> omega

end Transfer

/-! ## States of a schedule -/

/-- A state that the requests in `A` lead to, which were granted within the quotas. -/
structure Standing (d : Deployment) (P : Pubkey) (l : WindowLimits) (L : Ledger) (t : I64)
    (A : Role → List Request) (tr : List Entry) (X : Ledger) : Prop where
  reachable : Reachable d tr X
  unsigned : Unsigned d tr
  spent : Spent P l L t A X
  room : Room l fun r ↦ total (A r)
  approved : total (A .treasury) = 0 ∨ Approved P l L (total (A .treasury))

section Standing

variable {d : Deployment} {P key : Pubkey} {l : WindowLimits} {L X : Ledger} {t t₀ now : I64}
  {A : Role → List Request} {tr : List Entry} {p : LaunchPolicyV7} {i : Fin 2} {r : Role}
  {v : LaunchVaultV7} {amount : U64}

theorem Standing.refl (h : Reachable d tr L) (hu : Unsigned d tr)
    (hp : L.program P = some (.policy p)) :
    Standing d P l L p.lastActionAt (fun _ ↦ []) tr L where
  reachable := h
  unsigned := hu
  spent := .refl hp
  room := .inl rfl
  approved := .inl rfl

variable (h : Standing d P l L t A tr X) (hp : L.program P = some (.policy p))
  (hl : Limits p t₀ l i) (hclock : t ≤ now) (hk : periodAt p.config.t0 now = .ok l.period)
include h hp hl hclock hk

theorem Standing.exists_limits : ∃ l' j, l'.period = l.period ∧
    Limits (p.spend l (fun r ↦ total (A r)) now) now l' j ∧
      LimitsAfter l (fun r ↦ total (A r)) l' := by
  obtain ⟨V, hV, hVp⟩ := Ledger.exists_view d.toChain (h.spent.policy hp)
  obtain ⟨l', hperiod, hl'⟩ := h.reachable.exists_limits hV (by rw [hVp]; exact hclock)
    (by rw [hVp]; exact hk) (by rw [hVp]; exact hl.covers)
  have hlimits : windowLimits (p.spend l (fun r ↦ total (A r)) now) now = .ok l' := by
    rw [← hl'.windowLimits, hVp]
    rfl
  obtain ⟨j, hj⟩ := windowLimits_eq_ok.mp hlimits
  exact ⟨l', j, hperiod, hj, hl.spent h.room hj hperiod⟩

variable (hv : L.program key = some (.vault v)) (hP : v.policy = P) (hr : v.role = r.toU8)
include hv hP hr

omit hl hclock hk in
/-- The vault's counters agree with the policy's. -/
theorem Standing.books :
    (v.spend P l fun r ↦ total (A r)).releasedTotal =
        (p.spend l (fun r ↦ total (A r)) now).releasedTotal r ∧
      (v.spend P l fun r ↦ total (A r)).principal = p.config.principal r := by
  obtain ⟨V, hV, hVp⟩ := Ledger.exists_view d.toChain (h.spent.policy hp)
  have hpath := h.reachable.path hV
  have hvault : V.vault r = some (v.spend P l fun r ↦ total (A r)) :=
    View.vault_of hV h.reachable.sound (h.spent.vault hv) hP hr
  refine ⟨((path_booked hpath).vault r _ hvault).trans ?_,
    ((path_counted hpath).1.principal r _ hvault).trans ?_⟩
  · rw [hVp]
    cases r <;> rfl
  · rw [hVp]
    rfl

/-- The counters are accepted while both roles are within their quotas. -/
theorem Standing.consume_ok :
    (∃ s, consume (p.spend l (fun r ↦ total (A r)) now) (v.spend P l fun r ↦ total (A r)) now
      amount = .ok s) ↔
      (∀ s, (l.periodUsed.get s).val + total (A s) ≤ (l.quotas.get s).val) ∧
        (l.periodUsed.get r).val + total (A r) + amount.val ≤ (l.quotas.get r).val := by
  obtain ⟨l', j, hperiod, hl', hafter⟩ := h.exists_limits hp hl hclock hk
  obtain ⟨htotal, hprincipal⟩ := h.books hp hv hP hr
  have hpause : ¬ l'.correctionPause ↔
      ∀ s, (l.periodUsed.get s).val + total (A s) ≤ (l.quotas.get s).val := by
    rw [hl'.pause_iff]
    simp only [not_exists, Nat.not_lt, hafter.quotas, hafter.periodUsed]
  have hrole : (v.spend P l fun r ↦ total (A r)).role = r.toU8 := hr
  rw [hl'.consume_ok hrole htotal hprincipal, hpause, hafter.periodUsed, hafter.quotas]

/-- The vault holds what a release within the quota takes. -/
theorem Standing.balance (hd : Lawful d) (hstate : p.state = ACTIVE)
    (hwithin : ∀ s, (l.periodUsed.get s).val + total (A s) ≤ (l.quotas.get s).val)
    (hquota : (l.periodUsed.get r).val + total (A r) + amount.val ≤ (l.quotas.get r).val) :
    ∃ c, X.tokens.account (vaultToken d P r) = some c ∧
      c.SoleOwner p.mint (vaultKey d P r) ∧ amount.val ≤ c.amount := by
  obtain ⟨l', j, hperiod, hl', hafter⟩ := h.exists_limits hp hl hclock hk
  obtain ⟨V, hV, hVp⟩ := Ledger.exists_view d.toChain (h.spent.policy hp)
  have hvault : V.vault r = some (v.spend P l fun r ↦ total (A r)) :=
    View.vault_of hV h.reachable.sound (h.spent.vault hv) hP hr
  obtain ⟨htotal, hprincipal⟩ := h.books hp hv hP hr
  have htotal : _ = (p.spend l (fun r ↦ total (A r)) now).releasedTotal r := htotal
  have hpause : ¬ l'.correctionPause := by
    rw [hl'.pause_iff]
    simpa only [not_exists, Nat.not_lt, hafter.quotas, hafter.periodUsed] using hwithin
  have hquota' : (l'.periodUsed.get r).val + amount.val ≤ (l'.quotas.get r).val := by
    rw [hafter.periodUsed, hafter.quotas]
    exact hquota
  obtain ⟨-, hlife, -⟩ := hl'.ceilings hpause hquota'
  obtain ⟨-, c, hc, hsole, howed⟩ := h.reachable.funded hd h.unsigned P V r _ hV hvault
  have hmint : V.policy.mint = p.mint := by rw [hVp]; rfl
  refine ⟨c, hc, hmint ▸ hsole, ?_⟩
  have hstate' : V.policy.state ≠ CANCELLED := by
    rw [hVp]
    change p.state ≠ CANCELLED
    rw [hstate]
    decide
  have hlife : ((p.spend l (fun r ↦ total (A r)) now).releasedTotal r).val + amount.val ≤
      (p.config.principal r).val := hlife
  rw [View.owed, if_neg hstate', htotal, hprincipal] at howed
  omega

end Standing

/-! ## Independent roles -/

/-- The program as a server of requests. -/
def attempt (d : Deployment) (L : Ledger) (t : I64) (q : Request) : Option Ledger :=
  (process d L (q.tx t)).toOption

theorem attempt_eq_some {d : Deployment} {L L' : Ledger} {t : I64} {q : Request} :
    attempt d L t q = some L' ↔ process d L (q.tx t) = .ok L' := by
  unfold attempt
  cases process d L (q.tx t) <;> simp [Except.toOption]

/-- What decides on a request of a role that was granted `done` before: whether the program grants
it at first, and what is left of the quota and of the approval. -/
structure Passes (d : Deployment) (P : Pubkey) (p : LaunchPolicyV7) (l : WindowLimits) (L : Ledger)
    (r : Role) (done : List Request) (q : Request) : Prop where
  first : ∃ t L', Fits d L P p l.period t q ∧ process d L (q.tx t) = .ok L'
  quota : (l.periodUsed.get r).val + total done + q.amount.val ≤ (l.quotas.get r).val
  need : r = .treasury → Approved P l L (total done + q.amount.val)

section Verdict

variable {d : Deployment} {P : Pubkey} {l : WindowLimits} {L X X' : Ledger} {t t₀ now : I64}
  {A : Role → List Request} {tr tr₀ : List Entry} {p : LaunchPolicyV7} {i : Fin 2} {r : Role}
  {q : Request} (hd : Lawful d)
  (h₀ : Standing d P l L p.lastActionAt (fun _ ↦ []) tr₀ L) (h : Standing d P l L t A tr X)
  (hp : L.program P = some (.policy p)) (hl : Limits p t₀ l i) (hclock : t ≤ now)
  (hfits : Fits d L P p l.period now q)
include h hp hl hclock hfits

omit hl hclock in
/-- A granted request names the vault of its role. -/
theorem Standing.named {p' pX : LaunchPolicyV7} {v' vX : LaunchVaultV7} {k : U64}
    {a : Option (Account TreasuryApprovalV7)} {m : Mint} {b c : TokenAccount} {tokens : Tokens}
    (g : Grant d X now q pX k r vX a p' v' m b c tokens) :
    ∃ v, L.program q.keys.vault = some (.vault v) ∧ vX = v.spend P l (fun r ↦ total (A r)) ∧
      v.policy = P ∧ v.role = r.toU8 ∧ q.role L = some r ∧
      pX = p.spend l (fun r ↦ total (A r)) t ∧ q.keys.vault = vaultKey d P r ∧
      q.keys.vaultToken = vaultToken d P r := by
  obtain ⟨v, hv, rfl⟩ := h.spent.of_vault g.vault
  have hP : v.policy = P := g.vaultPolicy.trans hfits.policy
  have hr : v.role = r.toU8 := g.role
  have hkey : q.keys.vault = vaultKey d P r := by
    rw [← (h.reachable.sound.canonical (h.spent.vault hv)).address, vaultKey]
    change Seeds.address d.toChain (.vault v.policy v.role) = _
    rw [hP, hr]
  refine ⟨v, hv, rfl, hP, hr, ?_, ?_, hkey, ?_⟩
  · simp [Request.role, hv, ProgramAccount.vault?, hr]
  · exact ProgramAccount.policy.inj
      (Option.some.inj (g.policy.symm.trans (hfits.policy ▸ h.spent.policy hp)))
  · rw [← g.vaultToken, hkey, vaultToken]

/-- The limits of the period are in force for every request that is granted. -/
theorem Standing.grant_room {p' pX : LaunchPolicyV7} {v' vX : LaunchVaultV7} {k : U64}
    {a : Option (Account TreasuryApprovalV7)} {m : Mint} {b c : TokenAccount} {tokens : Tokens}
    (g : Grant d X now q pX k r vX a p' v' m b c tokens) :
    (∀ s, (l.periodUsed.get s).val + total (A s) ≤ (l.quotas.get s).val) ∧
      (l.periodUsed.get r).val + total (A r) + q.amount.val ≤ (l.quotas.get r).val := by
  obtain ⟨v, hv, rfl, hP, hr, -, rfl, -⟩ := h.named hp hfits g
  exact (h.consume_ok hp hl hclock hfits.timely.inPeriod hv hP hr).mp ⟨_, g.consumed⟩

include hd h₀

/-- A request that is granted on one state of a schedule is granted on another one, if its role
has the room there. -/
theorem Standing.grants {Y : Ledger} {tY now' : I64} {B : Role → List Request}
    {trY : List Entry} (hY : Standing d P l L tY B trY Y) (hok : process d X (q.tx now) = .ok X')
    (hrole : q.role L = some r) (hclock' : tY ≤ now') (hfits' : Fits d L P p l.period now' q)
    (hquota : (l.periodUsed.get r).val + total (B r) + q.amount.val ≤ (l.quotas.get r).val)
    (hneed : r = .treasury → Approved P l L (total (B .treasury) + q.amount.val)) :
    ∃ Y', process d Y (q.tx now') = .ok Y' := by
  obtain ⟨pX, k, r', vX, a, p', v', m, b, c, tokens, g, rfl⟩ :=
    (process_release h.reachable.sound).mp hok
  obtain ⟨hwithin, -⟩ := h.grant_room hp hl hclock hfits g
  obtain ⟨v, hv, -, hP, hr, hrole', rfl, hkey, htok⟩ := h.named hp hfits g
  obtain rfl : r' = r := Option.some.inj (hrole'.symm.trans hrole)
  have hwithin' : ∀ s, (l.periodUsed.get s).val + total (B s) ≤ (l.quotas.get s).val := by
    intro s
    rcases hY.room with hB | hB
    · have hzero : total (B s) = 0 := eq_zero_of_idle (F := fun r ↦ total (B r)) hB s
      rw [hzero]
      exact (Nat.add_le_add_left (Nat.zero_le _) _).trans (hwithin s)
    · exact hB s
  refine g.elsewhere hd.transfer h.spent hY.spent hY.reachable.sound hp hl hfits hfits' hclock'
    ?_ ?_ hneed ?_
  · intro u hu
    obtain rfl : v = u := by simpa using hv.symm.trans hu
    obtain ⟨V, hV, rfl⟩ := Ledger.exists_view d.toChain hp
    have hvault := View.vault_of hV h₀.reachable.sound hv hP hr
    exact (path_dated (h₀.reachable.path hV) r' v hvault).trans hl.policyPeriod
  · intro u hu
    obtain rfl : v = u := by simpa using hv.symm.trans hu
    exact (hY.consume_ok hp hl hclock' hfits'.timely.inPeriod hv hP hr).mpr ⟨hwithin', hquota⟩
  · intro u hu
    obtain ⟨w, hw, hsole, hle⟩ := hY.balance hp hl hclock' hfits'.timely.inPeriod hv hP hr hd
      g.state hwithin' hquota
    rw [htok, hw] at hu
    obtain rfl := Option.some.inj hu
    exact ⟨by rw [← g.mint, hkey]; exact hsole, hle⟩

theorem Standing.passes_iff (hrole : q.role L = some r) :
    (∃ X', process d X (q.tx now) = .ok X') ↔ Passes d P p l L r (A r) q := by
  constructor
  · rintro ⟨X', hok⟩
    obtain ⟨pX, k, r', vX, a, p', v', m, b, c, tokens, g, rfl⟩ :=
      (process_release h.reachable.sound).mp hok
    obtain ⟨hwithin, hquota⟩ := h.grant_room hp hl hclock hfits g
    obtain ⟨v, hv, -, hP, hr, hrole', rfl, -⟩ := h.named hp hfits g
    obtain rfl : r' = r := Option.some.inj (hrole'.symm.trans hrole)
    obtain rfl : k = l.period := by simpa using g.inPeriod.symm.trans hfits.timely.inPeriod
    have hneed : r' = .treasury → Approved P l L (total (A .treasury) + q.amount.val) := by
      rintro rfl
      exact g.payee.approved h.spent h₀.reachable.sound hfits.policy h.approved
    obtain ⟨L', hL'⟩ := Standing.grants hd h₀ h hp hl hclock hfits h₀ hok hrole
      hfits.timely.tick hfits
      (by simpa using (Nat.add_le_add_right (Nat.le_add_right _ _) _).trans hquota)
      (fun hr key a ha haP hak ↦ by
        have := hneed hr key a ha haP hak
        simp only [total_nil, Nat.zero_add]
        omega)
    exact ⟨⟨now, L', hfits, hL'⟩, hquota, fun hr ↦ hr ▸ hneed hr⟩
  · rintro ⟨⟨t', L', hfits', hok⟩, hquota, hneed⟩
    exact Standing.grants hd h₀ h₀ hp hl hfits'.timely.tick hfits' h hok hrole hclock hfits
      hquota fun hr ↦ hr ▸ hneed hr

end Verdict

/-- The two roles are independent clients. -/
theorem independent {d : Deployment} {P : Pubkey} {l : WindowLimits} {L : Ledger} {t₀ : I64}
    {tr : List Entry} {p : LaunchPolicyV7} {i : Fin 2} (hd : Lawful d) (h : Reachable d tr L)
    (hu : Unsigned d tr) (hp : L.program P = some (.policy p)) (hl : Limits p t₀ l i) :
    Independent (attempt d) (Request.role L) (Passes d P p l L) (Fits d L P p l.period)
      (fun now A X ↦ ∃ t tr, t ≤ now ∧ Standing d P l L t A tr X) where
  waits := by
    rintro now t' A X ⟨t, tr, hle, hs⟩ hnow
    exact ⟨t, tr, Int.le_trans hle hnow, hs⟩
  nobody := by
    rintro now A X q ⟨t, tr, hle, hs⟩ hfits hrole
    cases hstep : attempt d X now q with
    | none => rfl
    | some X' =>
      obtain ⟨pX, k, r, vX, a, p', v', m, b, c, tokens, g, -⟩ :=
        (process_release hs.reachable.sound).mp (attempt_eq_some.mp hstep)
      obtain ⟨v, -, -, -, -, hrole', -⟩ := hs.named hp hfits g
      simp [hrole] at hrole'
  verdict := by
    rintro now A X q r ⟨t, tr, hle, hs⟩ hfits hrole
    simp only [attempt_eq_some]
    exact Standing.passes_iff hd (.refl h hu hp) hs hp hl hle hfits hrole
  grant := by
    rintro now A X X' q r ⟨t, tr, hle, hs⟩ hfits hrole hok
    rw [attempt_eq_some] at hok
    obtain ⟨pX, k, r', vX, a, p', v', m, b, c, tokens, g, rfl⟩ :=
      (process_release hs.reachable.sound).mp hok
    obtain ⟨hwithin, hquota⟩ := hs.grant_room hp hl hle hfits g
    obtain ⟨v, hv, -, hP, hr, hrole', rfl, hkey, htok⟩ := hs.named hp hfits g
    obtain rfl : r' = r := Option.some.inj (hrole'.symm.trans hrole)
    obtain rfl : k = l.period := by simpa using g.inPeriod.symm.trans hfits.timely.inPeriod
    obtain ⟨V, hV, hVp⟩ := Ledger.exists_view d.toChain hp
    obtain ⟨w, hw, hsole, -⟩ := hs.balance hp hl hle hfits.timely.inPeriod hv hP hr hd g.state
      hwithin hquota
    obtain rfl : b = w := Option.some.inj (g.source.1.symm.trans (htok ▸ hw))
    obtain ⟨hroom, hspent⟩ := g.spent hd.transfer hs.spent h.sound hp hl hs.room hfits
      (fun u hu' ↦ by
        obtain rfl : v = u := by simpa using hv.symm.trans hu'
        rw [← hVp]
        exact (path_booked (h.path hV)).vault r' v (View.vault_of hV h.sound hv hP hr))
      (by rw [← g.mint, hkey]; exact hsole)
    refine ⟨now, _, Int.le_refl _, hs.reachable.accepted hok, ?_, hspent, hroom, ?_⟩
    · intro e he
      rcases List.mem_append.mp he with he | he
      · exact hs.unsigned e he
      · rw [List.mem_singleton.mp he]
        exact hfits.unsigned
    · cases r' with
      | founder => exact hs.approved
      | treasury =>
        right
        simpa [granted] using g.payee.approved hs.spent h.sound hfits.policy hs.approved

/-! ## Schedules -/

/-- A schedule of requests on the policy at `P`, inside the period `k`. -/
structure Scheduled (d : Deployment) (L : Ledger) (P : Pubkey) (p : LaunchPolicyV7) (k : U64)
    (xs : List (I64 × Request)) : Prop where
  fits : ∀ x ∈ xs, Fits d L P p k x.1 x.2
  sorted : (xs.map Prod.fst).Pairwise (· ≤ ·)

/-- The ledgers agree but for the time of the last action of the policy at `P`. -/
structure Agree (P : Pubkey) (X Y : Ledger) : Prop where
  tokens : X.tokens = Y.tokens
  program : ∀ key ≠ P, X.program key = Y.program key
  policy : ∃ (p : LaunchPolicyV7) (t t' : I64),
    X.program P = some (.policy { p with lastActionAt := t }) ∧
      Y.program P = some (.policy { p with lastActionAt := t' })

/-- What two schedules of the same requests have in common. -/
structure OrderFree (d : Deployment) (L : Ledger) (P : Pubkey) (xs ys : List (I64 × Request)) :
    Prop where
  verdicts : ∀ r : Role, ((serve (attempt d) L xs).2.filter fun o ↦ o.1.role L = some r) =
    (serve (attempt d) L ys).2.filter fun o ↦ o.1.role L = some r
  strangers : ∀ o ∈ (serve (attempt d) L xs).2, o.1.role L = none → o.2 = false
  /-- A role gets the verdicts it gets when the other one asks for nothing. -/
  alone : ∀ r : Role, ((serve (attempt d) L xs).2.filter fun o ↦ o.1.role L = some r) =
    (serve (attempt d) L (xs.filter fun x ↦ x.2.role L = some r)).2
  agree : Agree P (serve (attempt d) L xs).1 (serve (attempt d) L ys).1

section Schedules

variable {d : Deployment} {P : Pubkey} {L : Ledger} {tr : List Entry} {p : LaunchPolicyV7} {k : U64}
  {xs ys : List (I64 × Request)}

theorem OrderFree.of_independent {passes : Role → List Request → Request → Prop}
    {inv : I64 → (Role → List Request) → Ledger → Prop}
    (h : Independent (attempt d) (Request.role L) passes (Fits d L P p k) inv)
    (hstart : inv p.lastActionAt (fun _ ↦ []) L)
    (hagree : ∀ {t t' A X Y}, inv t A X → inv t' A Y → Agree P X Y)
    (hx : Scheduled d L P p k xs) (hy : Scheduled d L P p k ys)
    (hown : ∀ r : Role, ((xs.map Prod.snd).filter fun q ↦ q.role L = some r) =
      (ys.map Prod.snd).filter fun q ↦ q.role L = some r) : OrderFree d L P xs ys := by
  have htimes : ∀ {zs}, Scheduled d L P p k zs →
      (p.lastActionAt :: zs.map Prod.fst).Pairwise (· ≤ ·) := by
    intro zs hz
    refine List.pairwise_cons.mpr ⟨fun t ht ↦ ?_, hz.sorted⟩
    obtain ⟨z, hz', rfl⟩ := List.mem_map.mp ht
    exact (hz.fits z hz').timely.tick
  obtain ⟨hverdicts, t, t', A, hX, hY⟩ :=
    h.reorder hstart hx.fits (htimes hx) hy.fits (htimes hy) hown
  exact {
    verdicts := hverdicts
    strangers := (h.serve_spec hstart hx.fits (htimes hx)).2.1
    alone := h.alone hstart hx.fits (htimes hx)
    agree := hagree hX hY }

/-- Outside the annual rules nothing is granted. -/
theorem independent_of_uncovered (hL : L.Sound d.toChain) (hp : L.program P = some (.policy p))
    (hk : ∀ i, ¬ (p.config.rule i).covers k) :
    Independent (attempt d) (Request.role L) (fun _ _ _ ↦ False) (Fits d L P p k)
      (fun _ _ X ↦ X = L) := by
  have hnone : ∀ {t q}, Fits d L P p k t q → attempt d L t q = none := by
    intro t q hfits
    cases hstep : attempt d L t q with
    | none => rfl
    | some X =>
      obtain ⟨p', k', r, v, a, p'', v', m, b, c, tokens, g, -⟩ :=
        (process_release hL).mp (attempt_eq_some.mp hstep)
      obtain rfl : p = p' := ProgramAccount.policy.inj
        (Option.some.inj (hp.symm.trans (hfits.policy ▸ g.policy)))
      obtain ⟨l, r', hc⟩ := consume_eq_ok.mp g.consumed
      obtain ⟨i, hl⟩ := windowLimits_eq_ok.mp hc.limits
      have hperiod : l.period = k := by simpa using hl.period.symm.trans hfits.timely.inPeriod
      exact absurd (hperiod ▸ hl.covers) (hk i)
  exact {
    waits := fun h _ ↦ h
    nobody := by
      rintro t A X q rfl hfits -
      exact hnone hfits
    verdict := by
      rintro t A X q r rfl hfits -
      simp [hnone hfits]
    grant := by
      rintro t A X X' q r rfl hfits - hstep
      simp [hnone hfits] at hstep }

/-- Inside a period the roles are granted or refused the same releases in every order of their
requests, whatever lies between them, and the accounts and balances come out the same. -/
theorem Reachable.orderFree (hd : Lawful d) (h : Reachable d tr L) (hu : Unsigned d tr)
    (hp : L.policyAt P = some p) (hx : Scheduled d L P p k xs) (hy : Scheduled d L P p k ys)
    (hown : ∀ r : Role, ((xs.map Prod.snd).filter fun q ↦ q.role L = some r) =
      (ys.map Prod.snd).filter fun q ↦ q.role L = some r) : OrderFree d L P xs ys := by
  have hprog := Ledger.policyAt_eq_some.mp hp
  have hself : Agree P L L := ⟨rfl, fun _ _ ↦ rfl, p, p.lastActionAt, p.lastActionAt, hprog, hprog⟩
  by_cases hk : ∃ i, (p.config.rule i).covers k
  · obtain ⟨i, hi⟩ := hk
    cases hz : xs ++ ys with
    | nil =>
      obtain ⟨rfl, rfl⟩ := List.append_eq_nil_iff.mp hz
      exact ⟨fun _ ↦ rfl, by simp, fun _ ↦ rfl, hself⟩
    | cons z zs =>
      have hz' : z ∈ xs ++ ys := by simp [hz]
      have htimely : Timely p k z.1 := (List.mem_append.mp hz').elim
        (fun hz ↦ (hx.fits z hz).timely) fun hz ↦ (hy.fits z hz).timely
      obtain ⟨V, hV, rfl⟩ := Ledger.exists_view d.toChain hprog
      obtain ⟨l, rfl, hl⟩ := h.exists_limits hV htimely.tick htimely.inPeriod hi
      refine .of_independent (independent hd h hu hprog hl)
        ⟨_, tr, Int.le_refl _, .refl h hu hprog⟩ ?_ hx hy hown
      rintro t t' A X Y ⟨s, _, -, hX⟩ ⟨s', _, -, hY⟩
      obtain ⟨htokens, hprogram, p', hpX, hpY⟩ := hX.spent.unique hY.spent hprog
      exact ⟨htokens, hprogram, p', s, s', hpX, hpY⟩
  · refine .of_independent (independent_of_uncovered h.sound hprog (not_exists.mp hk)) rfl ?_ hx hy
      hown
    rintro t t' A X Y rfl rfl
    exact hself

end Schedules

namespace Sample

/-- The founder asks before the cliff. -/
def early : Request where
  signers := [founder]
  keys := {
    authority := founder, policy, vault := vault .founder, mint
    vaultToken := address (.token (vault .founder)), destination := payeeToken
    approval := none, recipientRecord := none }
  amount := 40
  epoch := 0

/-- The treasury asks for a part of what the approval has left. -/
def payout (amount : U64) : Request where
  signers := [treasury]
  keys := {
    authority := treasury, policy, vault := vault .treasury, mint
    vaultToken := address (.token (vault .treasury)), destination := payeeToken
    approval := some (address (.approval policy 0))
    recipientRecord := some (address (.key policy payee)) }
  amount
  epoch := 0

theorem early_role : early.role marketRun.2 = some .founder := by decide +kernel

theorem payout_role (amount : U64) : (payout amount).role marketRun.2 = some .treasury := by
  change (payout 0).role marketRun.2 = some .treasury
  decide +kernel

/-- The time `t` after the releases of the first period is one for every request by a key that is
no derived address. -/
theorem market_fits {p : LaunchPolicyV7} {q : Request} {t : I64}
    (hp : marketRun.2.policyAt policy = some p) (hq : q.keys.policy = policy)
    (hsigned : ∀ k ∈ q.signers, k ∉ Anchor.unlisted :: searches.map Anchor.Search.key)
    (happroval : q.keys.approval = none ∨
      q.keys.approval = some (address (.approval policy 0)))
    (ht : 2596000 ≤ t.val) (ht' : t.val < 2602000) : Fits market marketRun.2 policy p 0 t q := by
  have hpolicy : ((marketRun.2.policyAt policy).all fun p ↦ decide (p.lastActionAt.val ≤ 2596000 ∧
      p.config.t0.val = 10000 ∧ p.reportAt.val = 2594500 ∧
      p.config.maxReportAge.val = 604800)) = true := by decide +kernel
  have hmature : ((marketRun.2.program (address (.approval policy 0))).bind
      ProgramAccount.approval?).all (fun a ↦ decide (a.createdAt.val = 2000)) = true := by
    decide +kernel
  simp only [hp, Option.all_some, decide_eq_true_eq] at hpolicy
  obtain ⟨hlast, ht0, hreport, hage⟩ := hpolicy
  exact {
    policy := hq
    unsigned := fun s hs ↦ hsigned _ hs (address_mem s)
    timely := {
      tick := Int.le_trans hlast ht
      t0 := by
        change p.config.t0.val < t.val
        omega
      inPeriod := periodAt_eq_ok.mpr (by
        rw [ht0]
        change 10000 ≤ t.val ∧ _ ∧ (0 : ℤ) = _
        omega)
      reported := by
        change p.reportAt.val ≤ t.val
        omega
      fresh := by omega }
    mature := by
      intro key a hkey ha
      rcases happroval with h | h
      · simp [h] at hkey
      · obtain rfl := Option.some.inj (h.symm.trans hkey)
        rw [ha] at hmature
        have hcreated : a.createdAt.val = 2000 := by
          simpa [ProgramAccount.approval?] using hmature
        omega }

end Sample

/-- The founder, who is refused, asks before or between the two payouts of the treasury. -/
theorem orderFree_sample : OrderFree Sample.market Sample.marketRun.2 Sample.policy
    [(Sample.seconds 2596000, Sample.early), (Sample.seconds 2596100, Sample.payout 5),
      (Sample.seconds 2596200, Sample.payout 3)]
    [(Sample.seconds 2596000, Sample.payout 5), (Sample.seconds 2597100, Sample.early),
      (Sample.seconds 2597200, Sample.payout 3)] := by
  obtain ⟨p, hp⟩ : ∃ p, Sample.marketRun.2.policyAt Sample.policy = some p :=
    Option.isSome_iff_exists.mp (by decide +kernel)
  have hfounder : ∀ t : I64, 2596000 ≤ t.val → t.val < 2602000 →
      Fits Sample.market Sample.marketRun.2 Sample.policy p 0 t Sample.early := fun t ↦
    Sample.market_fits hp rfl (by decide +kernel) (.inl rfl)
  have htreasury : ∀ (t : I64) (n : U64), 2596000 ≤ t.val → t.val < 2602000 →
      Fits Sample.market Sample.marketRun.2 Sample.policy p 0 t (Sample.payout n) := fun t n ↦
    Sample.market_fits hp rfl (show ∀ k ∈ [Sample.treasury], _ by decide +kernel) (.inr rfl)
  refine (replay_reachable (fun _ ↦ rfl) _).orderFree Sample.market_lawful Sample.market_unsigned hp
    (k := 0) ⟨?_, by decide⟩ ⟨?_, by decide⟩ fun r ↦ ?_
  · simp only [List.forall_mem_cons, List.not_mem_nil, false_imp_iff, implies_true, and_true]
    exact ⟨hfounder _ (by decide) (by decide), htreasury _ _ (by decide) (by decide),
      htreasury _ _ (by decide) (by decide)⟩
  · simp only [List.forall_mem_cons, List.not_mem_nil, false_imp_iff, implies_true, and_true]
    exact ⟨htreasury _ _ (by decide) (by decide), hfounder _ (by decide) (by decide),
      htreasury _ _ (by decide) (by decide)⟩
  · cases r <;> simp [Sample.early_role, Sample.payout_role]

end FundingVaults.LaunchV7
