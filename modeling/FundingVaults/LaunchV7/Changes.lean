import FundingVaults.LaunchV7.Frame
import FundingVaults.LaunchV7.Replay

/-!
# Controller, oracle and reports

The controller and the oracle change only through a change proposal with 90 days of notice, and
one proposal at a time.  A release reads a flag, an epoch and a period of the stored report;
`Reported` says where they come from: the flag is set by a report of the current oracle and
cleared when the oracle changes, so a valid report was submitted after the latest activation.
-/

namespace FundingVaults.LaunchV7

variable {P : Pubkey} {V V' : View} {e : Event} {xs : List Event} {chain : Chain}

/-! ## Changes -/

/-- The key that an event installs by executing a change of a kind. -/
def Event.installs? (kind : U8) (e : Event) : Option Pubkey :=
  match e.act with
  | .executeChange q => if q.kind = kind then some q.successor else none
  | _ => none

/-- The key of a kind after a history, `first` being the key at the opening. -/
def keyAfter (kind : U8) (first : Pubkey) (xs : List Event) : Pubkey :=
  ((xs.filterMap (Event.installs? kind)).getLast?).getD first

theorem keyAfter_snoc {kind : U8} {first : Pubkey} :
    keyAfter kind first (xs ++ [e]) = (e.installs? kind).getD (keyAfter kind first xs) := by
  cases h : e.installs? kind <;> simp [keyAfter, h]

/-- The event is no accepted change proposal. -/
def Event.NoChange (e : Event) : Prop := ∀ req, e.act ≠ .proposeChange req

/-- The event `c`, after the history `a`, has accepted a change of `kind` to `S`: with the
signatures of the successor and of the controller of that time or two recovery keys. -/
structure AdmitsChange (p : LaunchPolicyV7) (kind : U8) (S : Pubkey) (a : List Event) (c : Event) :
    Prop where
  act : ∃ req, c.act = .proposeChange req ∧ req.kind = kind ∧ req.successor = S
  successor : S ∈ c.signers
  authority : keyAfter CHANGE_CONTROLLER p.creator a ∈ c.signers ∨
    ∃ x y, TwoOf p.config.recoveryKeys x y ∧ x ∈ c.signers ∧ y ∈ c.signers

/-- The stored change proposal `q` is the live one, and was accepted by an event after which no
other was. -/
structure LiveChange (xs : List Event) (V : View) (q : ChangeProposalV7) : Prop where
  stored : V.change V.policy.pendingChange = some q
  status : q.status = PROPOSAL_PENDING
  sequence : V.policy.changeSequence = V.policy.pendingChange
  controllerEpoch : q.controllerEpoch = V.policy.controllerEpoch
  oracleEpoch : q.oracleEpoch = V.policy.oracleEpoch
  kind : q.kind = CHANGE_ORACLE ∨ q.kind = CHANGE_CONTROLLER
  accepted : Since (fun a c ↦ AdmitsChange V.policy q.kind q.successor a c ∧
    q.executeAfter.val = c.now.val + 7776000) Event.NoChange xs

/-- The numbers of the change proposals. -/
structure Changing (xs : List Event) (V : View) : Prop where
  controller : V.policy.controller = keyAfter CHANGE_CONTROLLER V.policy.creator xs
  stored : ∀ n q, V.change n = some q → 0 < n ∧ n ≤ V.policy.changeSequence
  closed : ∀ n q, V.change n = some q → q.status = PROPOSAL_PENDING → n = V.policy.pendingChange
  live : V.policy.pendingChange ≠ 0 → ∃ q, LiveChange xs V q

/-- A step that concerns no change proposal. -/
theorem Changing.frame (h : Changing xs V) (hid : SameIdentity V.policy V'.policy)
    (he : e.NoChange) (hk : e.installs? CHANGE_CONTROLLER = none)
    (hc : V'.policy.controller = V.policy.controller)
    (hce : V'.policy.controllerEpoch = V.policy.controllerEpoch)
    (hoe : V'.policy.oracleEpoch = V.policy.oracleEpoch)
    (hs : V'.policy.changeSequence = V.policy.changeSequence)
    (hp : V'.policy.pendingChange = V.policy.pendingChange) (hq : V'.change = V.change) :
    Changing (xs ++ [e]) V' where
  controller := by rw [hc, h.controller, hid.creator, keyAfter_snoc, hk, Option.getD_none]
  stored := by
    rw [hq, hs]
    exact h.stored
  closed := by
    rw [hq, hp]
    exact h.closed
  live hne := by
    rw [hp] at hne
    obtain ⟨q, hl⟩ := h.live hne
    exact ⟨q, {
      stored := by rw [hp, hq, hl.stored]
      status := hl.status
      sequence := by rw [hs, hp, hl.sequence]
      controllerEpoch := by rw [hce, hl.controllerEpoch]
      oracleEpoch := by rw [hoe, hl.oracleEpoch]
      kind := hl.kind
      accepted := (hl.accepted.next he).mono (fun a c ⟨ha, ht⟩ ↦
        ⟨⟨ha.act, ha.successor, by rw [hid.creator, hid.config]; exact ha.authority⟩, ht⟩)
        fun _ ↦ id }⟩

/-- The end of a change proposal, executed or cancelled. -/
theorem Changing.settle {q : ChangeProposalV7} {status : U8} (h : Changing xs V)
    (hid : SameIdentity V.policy V'.policy) (hpend : PendingChange V q)
    (hst : status ≠ PROPOSAL_PENDING)
    (hc : V'.policy.controller = (e.installs? CHANGE_CONTROLLER).getD V.policy.controller)
    (hs : V'.policy.changeSequence = V.policy.changeSequence) (hp : V'.policy.pendingChange = 0)
    (hq : V'.change = Function.update V.change q.nonce (some { q with status })) :
    Changing (xs ++ [e]) V' where
  controller := by rw [hc, h.controller, hid.creator, keyAfter_snoc]
  stored n u hu := by
    rw [hq, Function.update_apply] at hu
    rw [hs]
    split at hu
    · next hn => exact hn ▸ h.stored _ _ hpend.stored
    · exact h.stored n u hu
  closed n u hu hstatus := by
    rw [hq, Function.update_apply] at hu
    split at hu
    · obtain rfl := Option.some.inj hu
      exact absurd hstatus hst
    · next hne => exact absurd (h.closed n u hu hstatus) (hpend.nonce ▸ hne)
  live hne := absurd hp hne

/-- A new change proposal. -/
theorem Changing.propose {now : I64} {signers : List Pubkey} {req : ChangeRequest}
    {executeAfter : I64} {q : ChangeProposalV7} (h : Changing xs V)
    (hid : SameIdentity V.policy V'.policy)
    (guard : ProposeChangeGuard V now signers req executeAfter)
    (hc : V'.policy.controller = V.policy.controller)
    (hce : q.controllerEpoch = V'.policy.controllerEpoch)
    (hoe : q.oracleEpoch = V'.policy.oracleEpoch) (hs : V'.policy.changeSequence = req.nonce)
    (hp : V'.policy.pendingChange = req.nonce)
    (hq : V'.change = Function.update V.change req.nonce (some q))
    (hnew : q.status = PROPOSAL_PENDING ∧ q.kind = req.kind ∧ q.successor = req.successor ∧
      q.executeAfter = executeAfter) :
    Changing (xs ++ [⟨now, signers, .proposeChange req⟩]) V' where
  controller := by
    rw [hc, h.controller, hid.creator, keyAfter_snoc]
    rfl
  stored n u hu := by
    have hnonce := guard.nonce
    rw [hq, Function.update_apply] at hu
    rw [hs]
    split at hu
    · next hn => exact ⟨Fin.lt_def.mpr (by simp only [hn, U64.val_zero]; omega), hn.le⟩
    · have := h.stored n u hu
      exact ⟨this.1, this.2.trans (Fin.le_def.mpr (by omega))⟩
  closed n u hu hstatus := by
    rw [hq, Function.update_apply] at hu
    rw [hp]
    split at hu
    · assumption
    · have := (h.stored n u hu).1
      rw [h.closed n u hu hstatus, guard.idle] at this
      exact absurd this (lt_irrefl _)
  live _ := by
    obtain ⟨hstatus, hkind, hsucc, hafter⟩ := hnew
    refine ⟨q, {
      stored := by rw [hq, hp, Function.update_self]
      status := hstatus
      sequence := hs.trans hp.symm
      controllerEpoch := hce
      oracleEpoch := hoe
      kind := hkind ▸ guard.kind.imp And.left And.left
      accepted := .now ⟨{
        act := ⟨req, rfl, hkind.symm, hsucc.symm⟩
        successor := hsucc ▸ guard.signed.2.2
        authority := ?_ }, by rw [hafter, ← guard.executeAfter]⟩ }⟩
    rw [hid.creator, hid.config, ← h.controller]
    have ha := guard.authority
    split at ha
    · exact .inr ⟨_, _, ha, guard.signed.1, guard.signed.2.1⟩
    · exact .inl (ha.1 ▸ guard.signed.1)

theorem Step.changing (h : Step P V e V') (hc : Changing xs V) : Changing (xs ++ [e]) V' := by
  have hid := h.sameIdentity
  cases h with
  | proposeChange guard =>
    exact hc.propose hid guard rfl rfl rfl rfl rfl rfl ⟨rfl, rfl, rfl, rfl⟩
  | cancelChange tick pending authority signed =>
    exact hc.settle hid pending (by decide) rfl rfl rfl rfl
  | changeOracle tick pending notice kind next =>
    exact hc.settle hid pending (by decide) (by simp [Event.installs?, kind]; rfl) rfl rfl rfl
  | changeController tick pending notice kind next =>
    exact hc.settle hid pending (by decide) (by simp [Event.installs?, kind]; rfl) rfl rfl rfl
  | _ => exact hc.frame hid (fun _ h ↦ by cases h) rfl rfl rfl rfl rfl rfl rfl

theorem path_changing (h : (machine chain P).Path xs V) : Changing xs V := by
  refine h.invariant (fun h ↦ ?_) fun _ ih hs ↦ Step.changing hs ih
  have hact := Opened.act h
  have hp := Opened.policy h
  have hpend := congrArg LaunchPolicyV7.pendingChange hp
  have hctrl := congrArg LaunchPolicyV7.controller hp
  constructor
  · simpa [keyAfter, Event.installs?, hact] using hctrl
  · simp [h.change]
  · simp [h.change]
  · exact fun hne ↦ absurd hpend hne

/-! ## Reports -/

/-- The observation time and the sequence number of the report that an event submits. -/
def Event.report? (e : Event) : Option (I64 × U64) :=
  match e.act with
  | .report _ _ observedAt sequence _ => some (observedAt, sequence)
  | _ => none

/-- The reports of a history, oldest first. -/
def reports (xs : List Event) : List (I64 × U64) := xs.filterMap Event.report?

/-- The event makes `oracle` the oracle: by a change, or because it is the first one. -/
def Event.Activates (initial oracle : Pubkey) (e : Event) : Prop :=
  (e.act = .openPolicy ∧ oracle = initial) ∨ e.installs? CHANGE_ORACLE = some oracle

/-- The event installs no oracle. -/
def Event.NoActivation (e : Event) : Prop :=
  e.act ≠ .openPolicy ∧ e.installs? CHANGE_ORACLE = none

/-- The latest activation of an oracle in a history is that of the policy's oracle. -/
def Activated (p : LaunchPolicyV7) (xs : List Event) : Prop :=
  Since (fun _ o ↦ o.Activates p.initialOracle p.oracle ∧ o.now = p.oracleActivatedAt)
    Event.NoActivation xs

/-- The event `c`, after the history `a`, has submitted the report that `p` stores, signed by the
oracle of `p` since its latest activation. -/
structure Submits (p : LaunchPolicyV7) (a : List Event) (c : Event) : Prop where
  act : c.act = .report p.oracle p.reportCapacity p.reportAt p.reportSequence p.reportEpoch
  signed : p.oracle ∈ c.signers
  epoch : p.reportEpoch = p.oracleEpoch
  activated : Activated p a
  notBefore : p.oracleActivatedAt ≤ p.reportAt
  period : periodAt p.config.t0 p.reportAt = .ok p.reportPeriod

structure Reported (xs : List Event) (V : View) : Prop where
  activated : Activated V.policy xs
  valid : V.policy.reportValid = true →
    Since (Submits V.policy) (fun m ↦ m.report? = none ∧ m.NoActivation) xs
  bound : ∀ x ∈ reports xs, x.1 ≤ V.policy.reportAt ∧ x.2 ≤ V.policy.reportSequence
  increasing : (reports xs).Pairwise fun x y ↦ x.1 ≤ y.1 ∧ x.2 < y.2

theorem reports_snoc_of_none (h : e.report? = none) : reports (xs ++ [e]) = reports xs := by
  simp [reports, h]

/-- A step that neither reports nor installs an oracle. -/
theorem Reported.frame (h : Reported xs V) (hid : SameIdentity V.policy V'.policy)
    (hr : e.report? = none) (ha : e.NoActivation) (ho : V'.policy.oracle = V.policy.oracle)
    (hoe : V'.policy.oracleEpoch = V.policy.oracleEpoch)
    (hoa : V'.policy.oracleActivatedAt = V.policy.oracleActivatedAt)
    (hrv : V'.policy.reportValid = V.policy.reportValid)
    (hrp : V'.policy.reportPeriod = V.policy.reportPeriod)
    (hrc : V'.policy.reportCapacity = V.policy.reportCapacity)
    (hra : V'.policy.reportAt = V.policy.reportAt)
    (hrs : V'.policy.reportSequence = V.policy.reportSequence)
    (hre : V'.policy.reportEpoch = V.policy.reportEpoch) : Reported (xs ++ [e]) V' := by
  have hact : ∀ a, Activated V.policy a → Activated V'.policy a := fun a h ↦ by
    rw [Activated, hid.initialOracle, ho, hoa]
    exact h
  have hreports : reports (xs ++ [e]) = reports xs := reports_snoc_of_none hr
  exact {
    activated := hact _ (h.activated.next ha)
    valid := fun hv ↦ by
      rw [hrv] at hv
      refine ((h.valid hv).next ⟨hr, ha⟩).mono (fun a c hs ↦ ?_) fun _ ↦ id
      exact {
        act := by rw [ho, hrc, hra, hrs, hre, hs.act]
        signed := by rw [ho]; exact hs.signed
        epoch := by rw [hre, hoe, hs.epoch]
        activated := hact a hs.activated
        notBefore := by rw [hoa, hra]; exact hs.notBefore
        period := by rw [hid.config, hra, hrp, hs.period] }
    bound := by
      rw [hreports, hra, hrs]
      exact h.bound
    increasing := hreports ▸ h.increasing }

/-- An instant between the start of a period and an instant of it lies in the period. -/
theorem periodAt_of_between {t0 t now : I64} {k : U64} (hnow : periodAt t0 now = .ok k)
    (hs : t0.val + k.val * 2592000 ≤ t.val) (ht : t ≤ now) : periodAt t0 t = .ok k := by
  obtain ⟨h₀, hlt, hk⟩ := periodAt_eq_ok.mp hnow
  have hle := I64.le_iff.mp ht
  exact periodAt_eq_ok.mpr ⟨by omega, by omega, by omega⟩

/-- A report, which is the latest of the longer history. -/
theorem Reported.report {now : I64} {signers : List Pubkey} {oracle : Pubkey} {capacity : U64}
    {observedAt : I64} {sequence epoch period : U64} (h : Reported xs V)
    (guard : ReportGuard V now signers oracle observedAt sequence epoch period) :
    Reported (xs ++ [⟨now, signers, .report oracle capacity observedAt sequence epoch⟩])
      (V.put (.policy { V.policy with
        lastActionAt := now
        reportPeriod := period
        reportCapacity := capacity
        reportAt := observedAt
        reportSequence := sequence
        reportEpoch := epoch
        reportValid := true })) := by
  have hreports : reports (xs ++ [⟨now, signers, .report oracle capacity observedAt sequence
      epoch⟩]) = reports xs ++ [(observedAt, sequence)] := by
    simp [reports, Event.report?]
  exact {
    activated := h.activated.next ⟨by simp, rfl⟩
    valid := fun _ ↦ .now {
      act := by rw [← guard.current]; rfl
      signed := guard.current ▸ guard.signed
      epoch := guard.epoch
      activated := h.activated
      notBefore := guard.activated
      period := periodAt_of_between guard.inPeriod guard.start guard.observed }
    bound := fun x hx ↦ by
      rw [hreports, List.mem_append, List.mem_singleton] at hx
      rcases hx with hx | rfl
      · obtain ⟨hat, hseq⟩ := h.bound x hx
        exact ⟨le_trans (I64.le_iff.mp hat) guard.latest, (hseq.trans_lt guard.sequence).le⟩
      · exact ⟨le_refl observedAt.val, le_rfl⟩
    increasing := by
      rw [hreports, List.pairwise_append]
      refine ⟨h.increasing, List.pairwise_singleton _ _, fun x hx y hy ↦ ?_⟩
      obtain rfl := List.mem_singleton.mp hy
      obtain ⟨hat, hseq⟩ := h.bound x hx
      exact ⟨le_trans (I64.le_iff.mp hat) guard.latest, hseq.trans_lt guard.sequence⟩ }

theorem Step.reported (h : Step P V e V') (hr : Reported xs V) : Reported (xs ++ [e]) V' := by
  have hid := h.sameIdentity
  cases h with
  | report guard => exact hr.report guard
  | changeOracle tick pending notice kind next =>
    -- The new oracle has not reported yet.
    exact {
      activated := .now ⟨.inr (by simp [Event.installs?, kind]; rfl), rfl⟩
      valid := fun hv ↦ by simp [View.put] at hv
      bound := by
        rw [reports_snoc_of_none rfl]
        exact hr.bound
      increasing := by
        rw [reports_snoc_of_none rfl]
        exact hr.increasing }
  | changeController tick pending notice kind next =>
    exact hr.frame hid rfl ⟨by simp, by simp [Event.installs?, kind]; decide⟩ rfl rfl rfl rfl rfl
      rfl rfl rfl rfl
  | _ => exact hr.frame hid rfl ⟨by simp, rfl⟩ rfl rfl rfl rfl rfl rfl rfl rfl rfl

theorem path_reported (h : (machine chain P).Path xs V) : Reported xs V := by
  refine h.invariant (fun {e V} h ↦ ?_) fun _ ih hs ↦ Step.reported hs ih
  have hact := Opened.act h
  have hp := Opened.policy h
  have hreports : reports [e] = [] := by simp [reports, Event.report?, hact]
  exact {
    activated := ⟨[], e, [], rfl, ⟨.inl ⟨hact, (congrArg LaunchPolicyV7.initialOracle hp).symm⟩,
      (congrArg LaunchPolicyV7.oracleActivatedAt hp).symm⟩, by simp⟩
    valid := fun hv ↦ by
      have hf := congrArg LaunchPolicyV7.reportValid hp
      simp [hv] at hf
    bound := by simp [hreports]
    increasing := by simp [hreports] }

/-! ## Provenance -/

/-- Where the controller, the oracle and the report of a release come from. -/
structure Provenance (d : Deployment) (P : Pubkey) (tr : List Entry) (L : Ledger)
    (p : LaunchPolicyV7) : Prop where
  oracle : ∀ tx L' p', process d L tx = .ok L' → L'.policyAt P = some p' →
    p'.oracle ≠ p.oracle →
    Since (fun a c ↦ AdmitsChange p CHANGE_ORACLE p'.oracle a c ∧
      c.now.val + 90 * 86400 ≤ tx.now.val) Event.NoChange (history P tr)
  controller : ∀ tx L' p', process d L tx = .ok L' → L'.policyAt P = some p' →
    p'.controller ≠ p.controller →
    Since (fun a c ↦ AdmitsChange p CHANGE_CONTROLLER p'.controller a c ∧
      c.now.val + 90 * 86400 ≤ tx.now.val) Event.NoChange (history P tr)
  /-- A release uses the latest report, which the current oracle has submitted and signed since
  its activation, for the period of the release. -/
  release : ∀ now signers keys amount epoch L',
    process d L ⟨now, signers, .release keys amount epoch⟩ = .ok L' → keys.policy = P →
    Since (Submits p) (fun m ↦ m.report? = none ∧ m.NoActivation) (history P tr) ∧
      (∃ k, periodAt p.config.t0 p.reportAt = .ok k ∧ periodAt p.config.t0 now = .ok k) ∧
      p.reportAt ≤ now ∧ now.val - p.reportAt.val ≤ p.config.maxReportAge.val
  reports : (reports (history P tr)).Pairwise fun x y ↦ x.1 ≤ y.1 ∧ x.2 < y.2

/-- The executed change proposal is the live one. -/
theorem Changing.executed {q : ChangeProposalV7} (h : Changing xs V) (hq : PendingChange V q)
    {now : I64} (hnow : q.executeAfter ≤ now) :
    Since (fun a c ↦ AdmitsChange V.policy q.kind q.successor a c ∧
      c.now.val + 90 * 86400 ≤ now.val) Event.NoChange xs := by
  have hpos := (h.stored _ _ hq.stored).1
  obtain ⟨u, hu⟩ := h.live (by rw [hq.nonce]; exact hpos.ne')
  obtain rfl : u = q := by
    have := hu.stored
    rw [hq.nonce, hq.stored] at this
    exact (Option.some.inj this).symm
  refine hu.accepted.mono (fun a c ⟨ha, ht⟩ ↦ ⟨ha, ?_⟩) fun _ ↦ id
  have := I64.le_iff.mp hnow
  omega

theorem Reachable.provenance {d : Deployment} {tr : List Entry} {L : Ledger}
    {p : LaunchPolicyV7} (h : Reachable d tr L) (hp : L.policyAt P = some p) :
    Provenance d P tr L p := by
  obtain ⟨V, hV, rfl⟩ := Ledger.exists_view d.toChain (Ledger.policyAt_eq_some.mp hp)
  have hc := path_changing (h.path hV)
  have hr := path_reported (h.path hV)
  exact {
    oracle := fun tx L' p' hx hp' hne ↦ by
      obtain ⟨V', hV', rfl, hstep⟩ := h.sound.accepted_to hV hx hp'
      rcases hstep with rfl | ⟨act, -, hstep⟩
      · exact absurd rfl hne
      cases hstep with
      | changeOracle tick pending notice kind next => exact kind ▸ hc.executed pending notice
      | _ => exact absurd rfl hne
    controller := fun tx L' p' hx hp' hne ↦ by
      obtain ⟨V', hV', rfl, hstep⟩ := h.sound.accepted_to hV hx hp'
      rcases hstep with rfl | ⟨act, -, hstep⟩
      · exact absurd rfl hne
      cases hstep with
      | changeController tick pending notice kind next => exact kind ▸ hc.executed pending notice
      | _ => exact absurd rfl hne
    release := fun now signers keys amount epoch L' hx hP ↦ by
      subst hP
      obtain ⟨s, v, t, -, -, -, href⟩ := refines_release h.sound hx
      obtain ⟨U, U', hU, -, hstep⟩ := href.step
      obtain rfl := Option.some.inj (hV.symm.trans hU)
      obtain ⟨period, v, guard⟩ := hstep.releaseGuard
      obtain ⟨a, c, b, -, hsub, -⟩ := hr.valid guard.reportValid
      exact ⟨hr.valid guard.reportValid, ⟨period, guard.reportPeriod ▸ hsub.period, guard.inPeriod⟩,
        guard.reportAt, guard.fresh⟩
    reports := hr.increasing }

theorem provenance_sample : ∃ p, Sample.run.2.policyAt Sample.policy = some p ∧
    Provenance Sample.deployment Sample.policy Sample.run.1 Sample.run.2 p := by
  obtain ⟨p, hp⟩ := Sample.run_policy
  exact ⟨p, hp, Sample.run_reachable.provenance hp⟩

end FundingVaults.LaunchV7
