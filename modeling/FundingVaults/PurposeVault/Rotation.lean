import FundingVaults.PurposeVault.Window

/-!
# Rotating the oracle of a policy

A rotation leaves the last report and its time as they are, so that a stale input stays stale until
the new oracle reports.  That holds the releases back only where the input is stale at the
rotation, and only until the policy's silence floor engages; a report by a third oracle ends it as
well.  The main results: where the input is stale at each rotation and no third oracle reports, what
is released while a new oracle is awaited is released on the silence floor; and where that floor
does not engage either, nothing is.
-/

namespace FundingVaults.PurposeVault

open Anchor

/-! ## Oracles that have not spoken -/

def policyAt (L : Ledger Stored) (key : Pubkey) : Option PolicyWindow :=
  (L.program key).bind Stored.policy?

def marketAt (L : Ledger Stored) (key : Pubkey) : Option MarketInput :=
  (L.program key).bind Stored.market?

/-- The oracles that are awaited after an event: a rotation to another key adds the new oracle, and
a report takes out the one who makes it. -/
def await (market : Pubkey) (waiting : List Pubkey) : Event Stored Instruction → List Pubkey
  | .accepted before ⟨_, _, .executeOracleRotation key⟩ after =>
    if key = market ∧ (marketAt before market).map MarketInput.oracle ≠
        (marketAt after market).map MarketInput.oracle then
      ((marketAt after market).map MarketInput.oracle).toList ++ waiting
    else waiting
  | .accepted _ ⟨_, _, .reportVolume k _⟩ _ =>
    if k.market = market then waiting.filter (· ≠ k.oracle) else waiting
  | _ => waiting

/-- The oracles that have replaced another and not reported since. -/
def awaited (market : Pubkey) (tr : List (Event Stored Instruction)) : List Pubkey :=
  tr.foldl (await market) []

/-- Nothing is released under the policy while a new oracle of its market input is awaited. -/
def Silent (policy market : Pubkey) (tr : List (Event Stored Instruction)) : Prop :=
  ∀ pre e post x, tr = pre ++ e :: post → awaited market pre ≠ [] → payment e = some x →
    x.policy ≠ policy

/-! ## The condition -/

/-- The step is neither a rotation to another key while the last report is fresh, nor a report by an
oracle other than those awaited. -/
def Hands (market : Pubkey) (waiting : List Pubkey) : Event Stored Instruction → Prop
  | .accepted before ⟨now, _, .executeOracleRotation key⟩ _ =>
    key = market → ∀ m ∈ marketAt before market, m.pendingOracle ≠ m.oracle →
      0 < m.reportCount → ¬ Fresh now m.updatedAt m.maxAgeSeconds
  | .accepted _ ⟨_, _, .reportVolume k _⟩ _ =>
    k.market = market → ∀ b ∈ waiting, k.oracle = b
  | _ => True

def Handed (market : Pubkey) (tr : List (Event Stored Instruction)) : Prop :=
  ∀ pre e post, tr = pre ++ e :: post → Hands market (awaited market pre) e

/-- The step, after a history that awaits the oracles `waiting`, is none of these: a rotation to
another key while the last report is fresh; a report by an oracle other than those awaited; a
release when the silence has lasted long enough for the policy's floor. -/
def Meets (policy market : Pubkey) (waiting : List Pubkey) : Event Stored Instruction → Prop
  | .accepted before ⟨now, _, .executeOracleRotation key⟩ _ =>
    key = market → ∀ m ∈ marketAt before market, m.pendingOracle ≠ m.oracle →
      0 < m.reportCount → ¬ Fresh now m.updatedAt m.maxAgeSeconds
  | .accepted _ ⟨_, _, .reportVolume k _⟩ _ =>
    k.market = market → ∀ b ∈ waiting, k.oracle = b
  | .accepted before ⟨now, _, .releaseBeneficiary k _⟩ _
  | .accepted before ⟨now, _, .releasePurpose k _ _⟩ _ =>
    k.policy = policy → waiting ≠ [] → ∀ p ∈ policyAt before policy,
      ∀ m ∈ marketAt before market, 0 < p.silenceFloor →
        now.val - m.updatedAt.val < p.silenceGraceSeconds.val
  | _ => True

/-- Every step of the history meets the condition. -/
def Orderly (policy market : Pubkey) (tr : List (Event Stored Instruction)) : Prop :=
  ∀ pre e post, tr = pre ++ e :: post → Meets policy market (awaited market pre) e

/-- The condition can be computed. -/
instance Meets.decidable (policy market : Pubkey) (waiting : List Pubkey) :
    DecidablePred (Meets policy market waiting) := fun e ↦
  match e with
  | .accepted before ⟨now, _, .executeOracleRotation key⟩ _ =>
    inferInstanceAs (Decidable (key = market → ∀ m ∈ marketAt before market,
      m.pendingOracle ≠ m.oracle → 0 < m.reportCount →
        ¬ (0 ≤ now.val - m.updatedAt.val ∧ now.val - m.updatedAt.val ≤ m.maxAgeSeconds.val)))
  | .accepted _ ⟨_, _, .reportVolume k _⟩ _ =>
    inferInstanceAs (Decidable (k.market = market → ∀ b ∈ waiting, k.oracle = b))
  | .accepted before ⟨now, _, .releaseBeneficiary k _⟩ _
  | .accepted before ⟨now, _, .releasePurpose k _ _⟩ _ =>
    inferInstanceAs (Decidable (k.policy = policy → waiting ≠ [] → ∀ p ∈ policyAt before policy,
      ∀ m ∈ marketAt before market, 0 < p.silenceFloor →
        now.val - m.updatedAt.val < p.silenceGraceSeconds.val))
  | .accepted _ ⟨_, _, .openPolicy ..⟩ _ | .accepted _ ⟨_, _, .proposeOracle ..⟩ _
  | .accepted _ ⟨_, _, .deposit ..⟩ _ | .accepted _ ⟨_, _, .approve ..⟩ _
  | .external .. => inferInstanceAs (Decidable True)

section Results

variable {chain : Chain} {external : Ledger Stored → Tokens → Prop}
  {tr : List (Event Stored Instruction)} {e : Event Stored Instruction} {L L' : Ledger Stored}
  {policy market : Pubkey} {p : PolicyWindow} {m : MarketInput} {x : Payment}

theorem awaited_snoc : awaited market (tr ++ [e]) = await market (awaited market tr) e :=
  List.foldl_concat ..

theorem marketAt_eq_some : marketAt L market = some m ↔ L.program market = some (.market m) := by
  simp [marketAt, Option.bind_eq_some_iff]

theorem Handed.of_append {tr' : List (Event Stored Instruction)}
    (h : Handed market (tr ++ tr')) : Handed market tr := by
  refine fun pre d post htr ↦ h pre d (post ++ tr') ?_
  rw [htr, List.append_assoc, List.cons_append]

theorem Handed.last (h : Handed market (tr ++ [e])) : Hands market (awaited market tr) e :=
  h tr e [] rfl

theorem Meets.hands {waiting : List Pubkey} (h : Meets policy market waiting e) :
    Hands market waiting e := by
  cases e with
  | accepted before tx after =>
    obtain ⟨now, signers, instr⟩ := tx
    cases instr with
    | executeOracleRotation key => exact h
    | reportVolume k eligibleVolume => exact h
    | _ => exact trivial
  | external => exact trivial

theorem Orderly.handed (h : Orderly policy market tr) : Handed market tr :=
  fun pre e post htr ↦ (h pre e post htr).hands

/-! ## The input stays stale -/

/-- A report is no later than the history, and while a new oracle is awaited the last report has
been stale at some time of it. -/
structure Held (tr : List (Event Stored Instruction)) (L : Ledger Stored) (market : Pubkey) :
    Prop where
  dated : ∀ {m}, L.program market = some (.market m) → 0 < m.reportCount → m.updatedAt ∈ times tr
  stale : ∀ {m}, L.program market = some (.market m) → awaited market tr ≠ [] →
    0 < m.reportCount → ∃ t ∈ times tr, m.maxAgeSeconds.val < t.val - m.updatedAt.val

/-- The market input keeps its report and nobody new is awaited. -/
theorem Held.keep (h : Held tr L market) (hwait : awaited market (tr ++ [e]) ≠ [] →
      awaited market tr ≠ [])
    (hm : ∀ {m'}, L'.program market = some (.market m') → 0 < m'.reportCount →
      ∃ m, L.program market = some (.market m) ∧ m.reportCount = m'.reportCount ∧
        m.updatedAt = m'.updatedAt ∧ m.maxAgeSeconds = m'.maxAgeSeconds) :
    Held (tr ++ [e]) L' market where
  dated hm' hr := by
    obtain ⟨m, hm, hcount, hat, -⟩ := hm hm' hr
    rw [times_append, ← hat]
    exact List.mem_append_left _ (h.dated hm (hcount ▸ hr))
  stale hm' hw hr := by
    obtain ⟨m, hm, hcount, hat, hage⟩ := hm hm' hr
    obtain ⟨t, ht, hlt⟩ := h.stale hm (hwait hw) (hcount ▸ hr)
    rw [hage, hat] at hlt
    exact ⟨t, by rw [times_append]; exact List.mem_append_left _ ht, hlt⟩

theorem write_market {key : Pubkey} {b : Stored} (hb : ∀ m, b ≠ .market m)
    (h : (L.write key b).program market = some (.market m)) : L.program market = some (.market m) := by
  rcases update_cases h with ⟨-, heq⟩ | ⟨-, h⟩
  · exact absurd heq.symm (hb m)
  · exact h

/-- No instruction but those of the oracle changes a market input. -/
theorem market_frame {tx : Tx Instruction} (h : process chain L tx = .ok L')
    (ho : ¬ tx.instruction.oracle) (hm : L'.program market = some (.market m))
    (hr : 0 < m.reportCount) : L.program market = some (.market m) := by
  obtain ⟨now, signers, instr⟩ := tx
  cases instr with
  | openPolicy k args =>
    obtain ⟨p, m', hopen, rfl⟩ := process_openPolicy h
    rcases update_cases hm with ⟨-, heq⟩ | ⟨-, hm⟩
    · obtain rfl := Stored.market.inj heq
      rw [hopen.input] at hr
      exact absurd hr (lt_irrefl _)
    · exact write_market (by simp) hm
  | deposit k args =>
    obtain ⟨p, p', v, tokens, hd, rfl⟩ := process_deposit h
    exact write_market (by simp) (write_market (by simp) hm)
  | approve k periodIndex approvedNeed =>
    obtain ⟨p, v, a, ha, rfl⟩ := process_approve h
    exact write_market (by simp) hm
  | releaseBeneficiary k amount =>
    obtain ⟨ctx, period, p', v', tokens, -, -, -, -, rfl⟩ := process_releaseBeneficiary h
    exact write_market (by simp) (write_market (by simp) hm)
  | releasePurpose k key amount =>
    obtain ⟨ctx, period, p', v', a, a', tokens, -, -, -, -, -, -, -, rfl⟩ := process_releasePurpose h
    exact write_market (by simp) (write_market (by simp) (write_market (by simp) hm))
  | _ => exact absurd rfl ho

/-- A market input is rewritten with its report. -/
theorem Held.rewrite {key : Pubkey} {m m' : MarketInput} (h : Held tr L market)
    (hwait : awaited market (tr ++ [e]) ≠ [] → awaited market tr ≠ [])
    (hm : L.program key = some (.market m)) (hcount : m.reportCount = m'.reportCount)
    (hat : m.updatedAt = m'.updatedAt) (hage : m.maxAgeSeconds = m'.maxAgeSeconds) :
    Held (tr ++ [e]) (L.write key (.market m')) market := by
  refine h.keep hwait fun hw _ ↦ ?_
  rcases update_cases hw with ⟨rfl, heq⟩ | ⟨-, hw⟩
  · obtain rfl := Stored.market.inj heq
    exact ⟨m, hm, hcount, hat, hage⟩
  · exact ⟨_, hw, rfl, rfl, rfl⟩

theorem Held.accepted {tx : Tx Instruction} (h : Held tr L market)
    (hp : process chain L tx = .ok L')
    (hhands : Hands market (awaited market tr) (.accepted L tx L'))
    (hclock : ∀ t ∈ times tr, t ≤ tx.now) :
    Held (tr ++ [.accepted L tx L']) L' market := by
  obtain ⟨now, signers, instr⟩ := tx
  have hframe : ¬ instr.oracle → (awaited market (tr ++ [.accepted L ⟨now, signers, instr⟩ L']) =
      awaited market tr) → Held (tr ++ [.accepted L ⟨now, signers, instr⟩ L']) L' market := by
    intro ho hsame
    refine h.keep (fun hw ↦ hsame ▸ hw) fun hm hr ↦ ⟨_, market_frame hp ho hm hr, rfl, rfl, rfl⟩
  cases instr with
  | reportVolume k eligibleVolume =>
    obtain ⟨m, m', hr, rfl⟩ := process_reportVolume hp
    by_cases hkey : k.market = market
    · subst hkey
      -- The report ends the waiting, and dates itself.
      have hnone : awaited k.market (tr ++ [.accepted L ⟨now, signers,
          .reportVolume k eligibleVolume⟩ (L.write k.market (.market m'))]) = [] := by
        rw [awaited_snoc]
        simp only [await, ↓reduceIte]
        refine List.filter_eq_nil_iff.mpr fun b hb ↦ ?_
        simp [hhands rfl b hb]
      refine ⟨fun {m₁} hm₁ _ ↦ ?_, fun _ hw ↦ absurd hnone hw⟩
      obtain rfl := Stored.market.inj (Option.some.inj (Ledger.write_program_self.symm.trans hm₁))
      rw [hr.reported, times_append]
      exact List.mem_append_right _ (List.mem_singleton_self now)
    · refine h.keep (fun hw ↦ ?_) fun {m₁} hm₁ _ ↦ ⟨m₁, ?_, rfl, rfl, rfl⟩
      · rwa [awaited_snoc, await, if_neg hkey] at hw
      · rwa [Ledger.write_program_of_ne (Ne.symm hkey)] at hm₁
  | proposeOracle k newOracle =>
    obtain ⟨m, m', hr, rfl⟩ := process_proposeOracle hp
    refine h.rewrite (fun hw ↦ ?_) hr.market ?_ ?_ ?_
    · rwa [awaited_snoc] at hw
    all_goals rw [hr.proposed]
  | executeOracleRotation key =>
    obtain ⟨m, m', hr, rfl⟩ := process_executeOracleRotation hp
    have hsame : m.reportCount = m'.reportCount ∧ m.updatedAt = m'.updatedAt ∧
        m.maxAgeSeconds = m'.maxAgeSeconds ∧ m.pendingOracle = m'.oracle := by
      rw [hr.rotated]
      exact ⟨rfl, rfl, rfl, rfl⟩
    obtain ⟨hcount, hat, hage, horacle⟩ := hsame
    by_cases hnew : key = market ∧ m.oracle ≠ m'.oracle
    · obtain ⟨rfl, hne⟩ := hnew
      refine ⟨fun {m₁} hm₁ hpos ↦ ?_, fun {m₁} hm₁ _ hpos ↦ ?_⟩
      all_goals
        obtain rfl := Stored.market.inj (Option.some.inj (Ledger.write_program_self.symm.trans hm₁))
        have hdated := h.dated hr.market (hcount ▸ hpos)
      · rw [times_append, ← hat]
        exact List.mem_append_left _ hdated
      · have hstale := hhands rfl m (marketAt_eq_some.mpr hr.market)
          (fun heq ↦ hne (heq.symm.trans horacle)) (hcount ▸ hpos)
        have hle := hclock _ hdated
        rw [Fresh] at hstale
        rw [I64.le_iff] at hle
        refine ⟨now, by simp, ?_⟩
        rw [← hage, ← hat]
        dsimp only at hle
        omega
    · refine h.rewrite (fun hw ↦ ?_) hr.market hcount hat hage
      rwa [awaited_snoc, await, if_neg] at hw
      rintro ⟨rfl, hne⟩
      refine hnew ⟨rfl, fun heq ↦ hne ?_⟩
      rw [marketAt_eq_some.mpr hr.market, marketAt_eq_some.mpr Ledger.write_program_self,
        Option.map_some, Option.map_some, heq]
  | _ => exact hframe (by simp [Instruction.oracle]) (by rw [awaited_snoc]; rfl)

theorem held (h : Reachable (program chain external) tr L) (hc : (times tr).Pairwise (· ≤ ·))
    (ho : Handed market tr) : Held tr L market := by
  obtain ⟨L₀, h₀, hrun⟩ := h
  induction hrun with
  | refl => exact ⟨fun hm ↦ by simp [h₀ market] at hm, fun hm ↦ by simp [h₀ market] at hm⟩
  | @accepted L L' tr tx _ hp ih =>
    rw [times_append, List.pairwise_append] at hc
    exact (ih hc.1 ho.of_append).accepted hp ho.last fun t ht ↦ hc.2.2 t ht tx.now (by simp)
  | rejected _ _ ih => exact ih hc ho
  | external _ _ ih =>
    rw [times_append, List.pairwise_append] at hc
    refine (ih hc.1 ho.of_append).keep (fun hw ↦ ?_) fun hm _ ↦ ⟨_, hm, rfl, rfl, rfl⟩
    rwa [awaited_snoc] at hw

/-- What the condition says of a release. -/
theorem Meets.release {waiting : List Pubkey} {before after : Ledger Stored} {tx : Tx Instruction}
    (h : Meets policy market waiting (.accepted before tx after))
    (hx : payment (.accepted before tx after) = some x) (hpolicy : x.policy = policy)
    (hwait : waiting ≠ []) (hp : before.program policy = some (.policy p))
    (hm : before.program market = some (.market m)) (hfloor : 0 < p.silenceFloor) :
    x.now.val - m.updatedAt.val < p.silenceGraceSeconds.val := by
  have hp' : p ∈ policyAt before policy := by simp [policyAt, hp]
  have hm' : m ∈ marketAt before market := marketAt_eq_some.mpr hm
  obtain ⟨now, signers, instr⟩ := tx
  cases instr with
  | releaseBeneficiary k amount =>
    obtain rfl := Option.some.inj hx
    exact h hpolicy hwait p hp' m hm' hfloor
  | releasePurpose k key amount =>
    obtain rfl := Option.some.inj hx
    exact h hpolicy hwait p hp' m hm' hfloor
  | _ => exact absurd hx (by simp [payment])

/-- Where the input is stale at each rotation and no third oracle reports, a release while a new
oracle is awaited draws on the silence floor. -/
theorem floored (h : Reachable (program chain external) tr L) (hs : Separate chain L.program)
    (hc : (times tr).Pairwise (· ≤ ·)) (hp : L.program policy = some (.policy p))
    (hm : L.program market = some (.market m)) (hhash : m.policyHash = p.policyHash)
    (ho : Handed market tr) {pre post : List (Event Stored Instruction)}
    (htr : tr = pre ++ e :: post) (hwait : awaited market pre ≠ []) (hx : payment e = some x)
    (hpolicy : x.policy = policy) : ∃ before tx after q n, e = .accepted before tx after ∧
      before.program policy = some (.policy q) ∧ before.program market = some (.market n) ∧
        0 < q.silenceFloor ∧ q.silenceGraceSeconds.val ≤ x.now.val - n.updatedAt.val := by
  subst htr hpolicy
  obtain ⟨before, tx, after, rfl⟩ := exists_of_payment hx
  have hsound : L.Sound chain ID := reachable_sound h
  obtain ⟨L₀, h₀, hrun⟩ := h
  obtain ⟨hpre, hprocess, hpost⟩ := hrun.split
  have hgrows : Grows before.program L.program :=
    (process_keeps hprocess).persists.trans (hpost.persists fun hq ↦ (process_keeps hq).persists)
  have hs₀ : Separate chain before.program := hs.of_grows hgrows
  have hsound₀ : before.Sound chain ID := reachable_sound ⟨L₀, h₀, hpre⟩
  obtain ⟨hnow, period, q, q', m₀, v, v', hat⟩ := payment_moment hprocess hx
  -- The market input that the release reads is the policy's.
  have hmarket : x.market = market := by
    obtain ⟨q₁, hq₁, ht⟩ := hgrows.policy hat.policy
    obtain rfl := Stored.policy.inj (Option.some.inj (hp.symm.trans hq₁))
    obtain ⟨b, hb, hbt⟩ := hgrows x.market _ hat.market
    have hown : q.policyHash = v.policyHash :=
      hs₀.policy_eq ⟨_, _, hat.vault, rfl⟩ hat.policy (hsound₀.canonical hat.policy) hat.policySeeds
    have hown' : m₀.policyHash = v.policyHash :=
      hs₀.market_eq ⟨_, _, hat.vault, rfl⟩ hat.market (hsound₀.canonical hat.market) hat.marketSeeds
    have hterm : p.policyHash = q.policyHash := (congrArg PolicyWindow.policyHash ht :)
    have hfound : chain.findProgramAddress (marketSeeds m.policyHash) ID = (market, m.bump) :=
      hsound.canonical hm
    rw [hhash, hterm, hown, ← hown'] at hfound
    exact (Prod.ext_iff.mp ((hsound₀.canonical hat.market).symm.trans hfound)).1
  subst hmarket
  rw [List.append_cons, times_append, List.pairwise_append, times_append,
    List.pairwise_append] at hc
  obtain ⟨⟨hcpre, -, hcx⟩, -, -⟩ := hc
  have hheld : Held pre before x.market := held ⟨L₀, h₀, hpre⟩ hcpre ho.of_append
  obtain ⟨capacity, hcapacity, -⟩ := hat.debited.window
  obtain ⟨t, ht, hage⟩ := hheld.stale hat.market hwait (windowCapacity_le hcapacity).1
  have hle := hcx t ht tx.now (by simp)
  rw [← hnow, I64.le_iff] at hle
  obtain ⟨hfloor, hgrace⟩ := windowCapacity_stale hcapacity fun hfresh ↦ by
    have hold : x.now.val - m₀.updatedAt.val ≤ m₀.maxAgeSeconds.val := hfresh.2
    omega
  exact ⟨before, tx, after, q, m₀, rfl, hat.policy, hat.market, hfloor, hgrace⟩

/-- In an orderly run nothing is released while a new oracle is awaited. -/
theorem silent (h : Reachable (program chain external) tr L) (hs : Separate chain L.program)
    (hc : (times tr).Pairwise (· ≤ ·)) (hp : L.program policy = some (.policy p))
    (hm : L.program market = some (.market m)) (hhash : m.policyHash = p.policyHash)
    (ho : Orderly policy market tr) : Silent policy market tr := by
  intro pre e post x htr hwait hx hpolicy
  obtain ⟨before, tx, after, q, n, rfl, hq, hn, hfloor, hgrace⟩ :=
    floored h hs hc hp hm hhash ho.handed htr hwait hx hpolicy
  have hshort := (ho pre _ post htr).release hx hpolicy hwait hq hn hfloor
  omega

end Results

/-! ## A rotation in time, and one too early -/

namespace Sample

def successor : Pubkey := repeated 11

def propose (now : UInt32) : Tx Instruction :=
  ⟨clockAt now, [authority], .proposeOracle { policyAuthority := authority, policy, market } successor⟩

def rotate (now : UInt32) : Tx Instruction := ⟨clockAt now, [], .executeOracleRotation market⟩

def rotating (report₁ : Tx Instruction) (others : List (Tx Instruction)) :
    List (Event Stored Instruction) × Ledger Stored :=
  replay (program chain (Anchor.market chain ID)) genesis
    (funding ++ [propose 2000, report₁, rotate 64801000] ++ others)

/-- The oracle falls silent, and its successor reports before the next release. -/
def repaired : List (Event Stored Instruction) × Ledger Stored :=
  rotating (report 2000 oracle 400000)
    [report 64801000 successor 400000, releasePersonal 64801000 6000]

/-- The oracle reports just before it is replaced. -/
def early : List (Event Stored Instruction) × Ledger Stored :=
  rotating (report 64800000 oracle 400000) [releasePersonal 64801000 6000]

end Sample

theorem orderly_of_take {policy market : Pubkey} {tr : List (Event Stored Instruction)}
    (h : ∀ i (hi : i < tr.length), Meets policy market (awaited market (tr.take i)) (tr.get ⟨i, hi⟩)) :
    Orderly policy market tr := by
  rintro pre e post rfl
  have hget := h pre.length (by simp)
  simpa using hget

/-- The policy and its market input, once both are there. -/
theorem exists_policy_market {L : Ledger Stored} {policy market : Pubkey} (hash : Bytes32)
    (hp : (policyAt L policy).map PolicyWindow.policyHash = some hash)
    (hm : (marketAt L market).map MarketInput.policyHash = some hash) :
    ∃ p m, L.program policy = some (.policy p) ∧ L.program market = some (.market m) ∧
      m.policyHash = p.policyHash := by
  obtain ⟨p, hp, hph⟩ := Option.map_eq_some_iff.mp hp
  obtain ⟨m, hm, hmh⟩ := Option.map_eq_some_iff.mp hm
  obtain ⟨a, ha, hap⟩ := Option.bind_eq_some_iff.mp hp
  obtain rfl := Stored.policy?_eq_some.mp hap
  exact ⟨p, m, ha, marketAt_eq_some.mp hm, hmh.trans hph.symm⟩

theorem silent_sample : ∃ tr L, (paymentsOn Sample.policy tr).length = 1 ∧
    Reachable (program Sample.chain (Anchor.market Sample.chain ID)) tr L ∧
      Silent Sample.policy Sample.market tr := by
  obtain ⟨p, m, hp, hm, hhash⟩ : ∃ p m,
      Sample.repaired.2.program Sample.policy = some (.policy p) ∧
        Sample.repaired.2.program Sample.market = some (.market m) ∧ m.policyHash = p.policyHash :=
    exists_policy_market Sample.policyHash (by decide +kernel) (by decide +kernel)
  have hrun : Reachable (program Sample.chain (Anchor.market Sample.chain ID)) Sample.repaired.1
      Sample.repaired.2 := ⟨Sample.genesis, fun _ ↦ rfl, replay_run _ _ _⟩
  have hclocked : Clocked Sample.repaired.1 := replay_clocked (by decide) (by decide)
  exact ⟨Sample.repaired.1, Sample.repaired.2, by decide +kernel, hrun,
    silent hrun (Sample.separate hrun (by decide +kernel)) hclocked.sorted hp hm hhash
      (orderly_of_take (by decide +kernel))⟩

/-- A release follows a rotation at which the last report was fresh. -/
theorem silent_early : ∃ tr L p m,
    Reachable (program Sample.chain (Anchor.market Sample.chain ID)) tr L ∧
      Separate Sample.chain L.program ∧ Clocked tr ∧
      L.program Sample.policy = some (.policy p) ∧ L.program Sample.market = some (.market m) ∧
      m.policyHash = p.policyHash ∧ ¬ Silent Sample.policy Sample.market tr := by
  obtain ⟨p, m, hp, hm, hhash⟩ : ∃ p m,
      Sample.early.2.program Sample.policy = some (.policy p) ∧
        Sample.early.2.program Sample.market = some (.market m) ∧ m.policyHash = p.policyHash :=
    exists_policy_market Sample.policyHash (by decide +kernel) (by decide +kernel)
  have hrun : Reachable (program Sample.chain (Anchor.market Sample.chain ID)) Sample.early.1
      Sample.early.2 := ⟨Sample.genesis, fun _ ↦ rfl, replay_run _ _ _⟩
  have hclocked : Clocked Sample.early.1 := replay_clocked (by decide) (by decide)
  refine ⟨Sample.early.1, Sample.early.2, p, m, hrun, Sample.separate hrun (by decide +kernel),
    hclocked, hp, hm, hhash, fun hsilent ↦ ?_⟩
  -- The release is the last event of the run.
  have hlast : (Sample.early.1.getLast?.bind payment).map Payment.policy = some Sample.policy := by
    decide +kernel
  have hwait : awaited Sample.market Sample.early.1.dropLast ≠ [] := by decide +kernel
  obtain ⟨x, hx, hpx⟩ := Option.map_eq_some_iff.mp hlast
  obtain ⟨e, he, hpay⟩ := Option.bind_eq_some_iff.mp hx
  obtain ⟨pre, htr⟩ := List.getLast?_eq_some_iff.mp he
  rw [htr, List.dropLast_concat] at hwait
  exact hsilent pre e [] x htr hwait hpay hpx

end FundingVaults.PurposeVault
