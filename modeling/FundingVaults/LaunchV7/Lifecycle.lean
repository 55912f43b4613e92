import FundingVaults.LaunchV7.Frame
import FundingVaults.LaunchV7.Refine

/-!
# The lifecycle of a policy

A policy is prepared, then armed and activated, or it is cancelled.  `Lifecycle` says what its
history must contain for the state it is in: who funded it and when, and that nothing was ever
released unless it is active.
-/

namespace FundingVaults.LaunchV7

variable {P : Pubkey} {V V' : View} {e : Event} {xs : List Event} {r : Role}

/-! ## Events -/

/-- A deposit of `amount` by `depositor` into the vault of `r`. -/
def Event.Deposits (r : Role) (depositor : Pubkey) (amount : U64) (e : Event) : Prop :=
  ∃ authority, e.act = .deposit r authority depositor amount

/-- A release from either vault. -/
def Event.Releases (e : Event) : Prop :=
  match e.act with
  | .release .. => True
  | _ => False

theorem Role.mask_eq_full {f : Role → Bool} : mask f = 3 ↔ ∀ r, f r = true := by
  rw [forall_role]
  unfold mask
  cases f founder <;> cases f treasury <;> decide

/-! ## The invariant -/

structure Lifecycle (xs : List Event) (V : View) : Prop where
  state : V.policy.state = PREPARED ∨ V.policy.state = ARMED ∨ V.policy.state = ACTIVE ∨
    V.policy.state = CANCELLED
  funded : V.policy.fundedMask = Role.mask fun r ↦ (V.vault r).isSome
  deposited : ∀ r v, V.vault r = some v → v.principal = V.policy.config.principal r ∧
    ∃ e ∈ xs, e.Deposits r v.depositor (V.policy.config.principal r) ∧
      e.now < V.policy.config.t0
  armed : V.policy.state = ARMED ∨ V.policy.state = ACTIVE →
    (∀ r, (V.vault r).isSome) ∧ ∃ e ∈ xs, e.act = .arm ∧ e.now < V.policy.config.t0
  active : V.policy.state = ACTIVE → ∃ e ∈ xs, e.act = .activate ∧ V.policy.config.t0 ≤ e.now
  untouched : V.policy.state ≠ ACTIVE → ∀ r v, V.vault r = some v → v.releasedTotal = 0
  released : (∃ e ∈ xs, e.Releases) → V.policy.state = ACTIVE
  refunded : (∃ e ∈ xs, e.act = .refund) → V.policy.state = CANCELLED

namespace Lifecycle

theorem mem_snoc {p : Event → Prop} (h : ∃ f ∈ xs, p f) : ∃ f ∈ xs ++ [e], p f := by
  obtain ⟨f, hf, hp⟩ := h
  exact ⟨f, List.mem_append_left _ hf, hp⟩

theorem of_mem_snoc {p : Event → Prop} (h : ∃ f ∈ xs ++ [e], p f) (he : ¬ p e) :
    ∃ f ∈ xs, p f := by
  obtain ⟨f, hf, hp⟩ := h
  rcases List.mem_append.mp hf with hf | hf
  · exact ⟨f, hf, hp⟩
  · rw [List.mem_singleton.mp hf] at hp
    exact absurd hp he

/-- A step that changes neither the state of the policy nor its vaults, and is neither a release
nor a refund. -/
theorem frame (h : Lifecycle xs V) (hrel : ¬ e.Releases) (href : e.act ≠ .refund)
    (hconfig : V'.policy.config = V.policy.config) (hstate : V'.policy.state = V.policy.state)
    (hmask : V'.policy.fundedMask = V.policy.fundedMask) (hvault : V'.vault = V.vault) :
    Lifecycle (xs ++ [e]) V' where
  state := by rw [hstate]; exact h.state
  funded := by rw [hmask, hvault]; exact h.funded
  deposited r v hv := by
    rw [hvault] at hv
    rw [hconfig]
    exact ⟨(h.deposited r v hv).1, mem_snoc (h.deposited r v hv).2⟩
  armed hs := by
    rw [hstate] at hs
    rw [hvault, hconfig]
    exact ⟨(h.armed hs).1, mem_snoc (h.armed hs).2⟩
  active hs := by
    rw [hstate] at hs
    rw [hconfig]
    exact mem_snoc (h.active hs)
  untouched hs := by
    rw [hstate] at hs
    rw [hvault]
    exact h.untouched hs
  released hx := by
    rw [hstate]
    exact h.released (of_mem_snoc hx hrel)
  refunded hx := by
    rw [hstate]
    exact h.refunded (of_mem_snoc hx href)

/-- A change of state alone, by an event that is neither a release nor a refund. -/
theorem advance (h : Lifecycle xs V) (hrel : ¬ e.Releases) (href : e.act ≠ .refund)
    (hconfig : V'.policy.config = V.policy.config)
    (hmask : V'.policy.fundedMask = V.policy.fundedMask) (hvault : V'.vault = V.vault)
    (hbefore : V.policy.state = PREPARED ∨ V.policy.state = ARMED)
    (hstate : V'.policy.state = ARMED ∨ V'.policy.state = ACTIVE ∨ V'.policy.state = CANCELLED)
    (harmed : V'.policy.state = ARMED ∨ V'.policy.state = ACTIVE →
      (∀ r, (V.vault r).isSome) ∧ ∃ f ∈ xs ++ [e], f.act = .arm ∧ f.now < V.policy.config.t0)
    (hactive : V'.policy.state = ACTIVE →
      ∃ f ∈ xs ++ [e], f.act = .activate ∧ V.policy.config.t0 ≤ f.now) :
    Lifecycle (xs ++ [e]) V' where
  state := .inr hstate
  funded := by rw [hmask, hvault]; exact h.funded
  deposited r v hv := by
    rw [hvault] at hv
    rw [hconfig]
    exact ⟨(h.deposited r v hv).1, mem_snoc (h.deposited r v hv).2⟩
  armed hs := by
    rw [hvault, hconfig]
    exact harmed hs
  active hs := by
    rw [hconfig]
    exact hactive hs
  untouched _ := by
    rw [hvault]
    exact h.untouched (by rcases hbefore with hb | hb <;> simp [hb, PREPARED, ARMED, ACTIVE])
  released hx := by
    have hs := h.released (of_mem_snoc hx hrel)
    rcases hbefore with hb | hb <;> simp [hb, PREPARED, ARMED, ACTIVE] at hs
  refunded hx := by
    have hs := h.refunded (of_mem_snoc hx href)
    rcases hbefore with hb | hb <;> simp [hb, PREPARED, ARMED, CANCELLED] at hs

/-- A release changes the counters of one vault. -/
theorem release {v w : LaunchVaultV7} (h : Lifecycle xs V) (hstate : V.policy.state = ACTIVE)
    (href : e.act ≠ .refund) (hconfig : V'.policy.config = V.policy.config)
    (hstate' : V'.policy.state = V.policy.state)
    (hmask : V'.policy.fundedMask = V.policy.fundedMask) (hv : V.vault r = some v)
    (hw : w.principal = v.principal ∧ w.depositor = v.depositor)
    (hvault : V'.vault = Function.update V.vault r (some w)) :
    Lifecycle (xs ++ [e]) V' where
  state := by rw [hstate']; exact h.state
  funded := by
    rw [hmask, h.funded]
    refine Role.mask_congr fun s ↦ ?_
    by_cases hs : s = r
    · subst hs
      simp [hvault, hv]
    · simp [hvault, hs]
  deposited s u hu := by
    rw [hconfig]
    by_cases hs : s = r
    · subst hs
      rw [hvault, Function.update_self] at hu
      obtain rfl := Option.some.inj hu
      rw [hw.1, hw.2]
      exact ⟨(h.deposited s v hv).1, mem_snoc (h.deposited s v hv).2⟩
    · rw [hvault, Function.update_of_ne hs] at hu
      exact ⟨(h.deposited s u hu).1, mem_snoc (h.deposited s u hu).2⟩
  armed _ := by
    rw [hconfig]
    obtain ⟨hsome, harm⟩ := h.armed (.inr hstate)
    refine ⟨fun s ↦ ?_, mem_snoc harm⟩
    by_cases hs : s = r
    · subst hs
      simp [hvault]
    · simp [hvault, hs, hsome s]
  active _ := by
    rw [hconfig]
    exact mem_snoc (h.active hstate)
  untouched hs := absurd (hstate'.trans hstate) hs
  released _ := hstate'.trans hstate
  refunded hx := by
    have hs := h.refunded (of_mem_snoc hx href)
    rw [hstate', hs]

end Lifecycle

theorem View.put_vault {v : LaunchVaultV7} (hv : v.role = r.toU8) :
    (V.put (.vault v)).vault = Function.update V.vault r (some v) := by
  funext s
  simp [View.put, Function.update_apply, hv]

theorem Opened.lifecycle {chain : Chain} (h : Opened chain e V) : Lifecycle [e] V := by
  have hstate : V.policy.state = PREPARED := by
    rw [h.policy]
  refine {
    state := .inl hstate
    funded := ?_
    deposited := by simp [h.vault]
    armed := by simp [hstate, PREPARED, ARMED, ACTIVE]
    active := by simp [hstate, PREPARED, ACTIVE]
    untouched := by simp [h.vault]
    released := by simp [Event.Releases, h.act]
    refunded := by simp [h.act] }
  rw [h.policy, eq_comm, Role.mask_eq_zero]
  simp [h.vault]

theorem Step.lifecycle (h : Step P V e V') (hl : Lifecycle xs V) : Lifecycle (xs ++ [e]) V' := by
  cases h with
  | @deposit now signers s authority depositor bump guard =>
    have hvault := View.put_vault (r := s) (V := V.put (.policy { V.policy with
      lastActionAt := now, fundedMask := V.policy.fundedMask ||| s.bit })) (v := {
        policy := P
        depositor
        authority := V.policy.owner s
        role := s.toU8
        bump
        principal := V.policy.config.principal s
        releasedTotal := 0
        period := 0
        periodUsed := 0 }) rfl
    have hstate : V.policy.state = PREPARED := guard.state
    exact {
      state := hl.state
      funded := by
        rw [hvault]
        change V.policy.fundedMask ||| s.bit = _
        rw [hl.funded, Role.mask_or_bit]
        refine Role.mask_congr fun t ↦ ?_
        by_cases ht : t = s
        · subst ht
          simp
        · simp only [Function.update_of_ne ht]
          rfl
      deposited := fun t v hv ↦ by
        rw [hvault] at hv
        by_cases ht : t = s
        · subst ht
          rw [Function.update_self] at hv
          obtain rfl := Option.some.inj hv
          exact ⟨rfl, _, List.mem_append_right _ (List.mem_singleton_self _),
            ⟨authority, rfl⟩, guard.t0⟩
        · rw [Function.update_of_ne ht] at hv
          exact ⟨(hl.deposited t v hv).1, Lifecycle.mem_snoc (hl.deposited t v hv).2⟩
      armed := fun hs ↦ by
        change V.policy.state = ARMED ∨ V.policy.state = ACTIVE at hs
        simp [hstate, PREPARED, ARMED, ACTIVE] at hs
      active := fun hs ↦ by
        change V.policy.state = ACTIVE at hs
        simp [hstate, PREPARED, ACTIVE] at hs
      untouched := fun hs t v hv ↦ by
        rw [hvault] at hv
        by_cases ht : t = s
        · subst ht
          rw [Function.update_self] at hv
          obtain rfl := Option.some.inj hv
          rfl
        · rw [Function.update_of_ne ht] at hv
          exact hl.untouched hs t v hv
      released := fun hx ↦ hl.released (Lifecycle.of_mem_snoc hx (by simp [Event.Releases]))
      refunded := fun hx ↦ hl.refunded (Lifecycle.of_mem_snoc hx (by simp)) }
  | arm tick state t0 funded signed =>
    have hsome : ∀ r, (V.vault r).isSome = true := Role.mask_eq_full.mp (hl.funded ▸ funded)
    exact hl.advance (by simp [Event.Releases]) (by simp) rfl rfl rfl (.inl state) (.inl rfl)
      (fun _ ↦ ⟨hsome, _, List.mem_append_right _ (List.mem_singleton_self _), rfl, t0⟩)
      (fun hs ↦ by simp [View.put, ARMED, ACTIVE] at hs)
  | activate tick state t0 =>
    obtain ⟨hsome, harm⟩ := hl.armed (.inl state)
    exact hl.advance (by simp [Event.Releases]) (by simp) rfl rfl rfl (.inr state) (.inr (.inl rfl))
      (fun _ ↦ ⟨hsome, Lifecycle.mem_snoc harm⟩)
      (fun _ ↦ ⟨_, List.mem_append_right _ (List.mem_singleton_self _), rfl, t0⟩)
  | cancel tick state t0 signed =>
    exact hl.advance (by simp [Event.Releases]) (by simp) rfl rfl rfl state (.inr (.inr rfl))
      (fun hs ↦ by simp [View.put, ARMED, ACTIVE, CANCELLED] at hs)
      (fun hs ↦ by simp [View.put, ACTIVE, CANCELLED] at hs)
  | expireUnarmed tick state t0 =>
    exact hl.advance (by simp [Event.Releases]) (by simp) rfl rfl rfl (.inl state)
      (.inr (.inr rfl)) (fun hs ↦ by simp [View.put, ARMED, ACTIVE, CANCELLED] at hs)
      (fun hs ↦ by simp [View.put, ACTIVE, CANCELLED] at hs)
  | refund tick state =>
    refine { hl with
      deposited := fun r v hv ↦
        ⟨(hl.deposited r v hv).1, Lifecycle.mem_snoc (hl.deposited r v hv).2⟩
      armed := fun hs ↦ ⟨(hl.armed hs).1, Lifecycle.mem_snoc (hl.armed hs).2⟩
      active := fun hs ↦ Lifecycle.mem_snoc (hl.active hs)
      released := fun hx ↦ hl.released (Lifecycle.of_mem_snoc hx (by simp [Event.Releases]))
      refunded := fun _ ↦ state }
  | @releaseFounder _ _ _ _ _ _ _ v v' p' guard cliff consumed =>
    exact hl.release (w := v.withCounters v') guard.state (by simp) rfl rfl rfl guard.vault ⟨rfl, rfl⟩
      ((View.put_vault (V := V.put (.policy p')) (v := v.withCounters v') guard.role :))
  | @releaseTreasury _ _ _ _ _ _ _ _ v v' p' k a used guard approved counted consumed =>
    exact hl.release (w := v.withCounters v') guard.state (by simp) rfl rfl rfl guard.vault ⟨rfl, rfl⟩
      ((View.put_vault (V := V.put (.policy p')) (v := v.withCounters v') guard.role :))
  | _ => exact hl.frame (by simp [Event.Releases]) (by simp) rfl rfl rfl rfl

theorem path_lifecycle {chain : Chain} (h : (machine chain P).Path xs V) : Lifecycle xs V :=
  h.invariant (I := Lifecycle) (fun h ↦ Opened.lifecycle h) fun _ hl hs ↦ Step.lifecycle hs hl

/-! ## Transitions -/

/-- The state changes along the edges of the lifecycle, and who is needed for each. -/
theorem Step.state (h : Step P V e V') : V'.policy.state = V.policy.state ∨
    (e.act = .arm ∧ V.policy.state = PREPARED ∧ V'.policy.state = ARMED ∧
      e.now < V.policy.config.t0) ∨
    (e.act = .activate ∧ V.policy.state = ARMED ∧ V'.policy.state = ACTIVE ∧
      V.policy.config.t0 ≤ e.now) ∨
    (e.act = .cancel ∧ (V.policy.state = PREPARED ∨ V.policy.state = ARMED) ∧
      V'.policy.state = CANCELLED ∧ e.now < V.policy.config.t0 ∧
      V.policy.controller ∈ e.signers ∧ ∀ r, (V.role r).current ∈ e.signers) ∨
    (e.act = .expireUnarmed ∧ V.policy.state = PREPARED ∧ V'.policy.state = CANCELLED ∧
      V.policy.config.t0 ≤ e.now) := by
  cases h with
  | arm tick state t0 => exact .inr (.inl ⟨rfl, state, rfl, t0⟩)
  | activate tick state t0 => exact .inr (.inr (.inl ⟨rfl, state, rfl, t0⟩))
  | cancel tick state t0 signed =>
    exact .inr (.inr (.inr (.inl ⟨rfl, state, rfl, t0, signed⟩)))
  | expireUnarmed tick state t0 => exact .inr (.inr (.inr (.inr ⟨rfl, state, rfl, t0⟩)))
  | _ => exact .inl rfl

/-- A cancelled policy stays cancelled. -/
theorem Step.cancelled (h : Step P V e V') (hc : V.policy.state = CANCELLED) :
    V'.policy.state = CANCELLED := by
  rcases h.state with h | ⟨-, h, -⟩ | ⟨-, h, -⟩ | ⟨-, h, -⟩ | ⟨-, h, -⟩
  · exact h.trans hc
  all_goals simp [hc, PREPARED, ARMED, CANCELLED] at h

theorem steps_cancelled {chain : Chain} (h : (machine chain P).Steps V xs V')
    (hc : V.policy.state = CANCELLED) : V'.policy.state = CANCELLED := by
  induction h with
  | refl => exact hc
  | step _ hs ih => exact Step.cancelled hs ih

end FundingVaults.LaunchV7
