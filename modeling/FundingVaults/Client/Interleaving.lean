import FundingVaults.Client.Submission

/-!
# Interleaved submissions

What one call reads from the set of attempted signatures before its first `await` may be out of date
when it acts on it.  `Phase.Stale` is a call that has found the signature unattempted and may still
act on that.  Only a stale call sends, and only a stale call tells its caller to sign again.

So the transaction is sent at most once, and nobody is told to sign again after that, as long as no
other call is stale when one sends; and from every step where another call is stale, the calls can go
on so that its caller is told to sign what has been sent.
-/

namespace FundingVaults.Client

def Effect.Sends (effect : Effect) : Prop := effect.request = some .sendTransaction

instance Effect.decidableSends (effect : Effect) : Decidable effect.Sends :=
  inferInstanceAs (Decidable (effect.request = some .sendTransaction))

/-- The entry returns an outcome that tells the caller to sign again. -/
def Effect.Resigns (effect : Effect) : Prop := ∃ o, effect.phase = .returned o ∧ o.Resign

/-- How often the transaction was sent. -/
def sends (xs : List Entry) : ℕ := xs.countP fun x ↦ decide x.2.Sends

/-- The transaction is sent at most once, and after that nobody is told to sign again. -/
structure Safe (xs : List Entry) : Prop where
  once : sends xs ≤ 1
  never : ∀ pre x post, xs = pre ++ x :: post → x.2.Sends → ∀ y ∈ post, ¬ y.2.Resigns

/-! ## Stale calls -/

/-- The call has found the signature unattempted, and may still act on it. -/
def Phase.Stale : Phase → Prop
  | .status possiblySent => possiblySent = false
  | .guard => True
  | .validity => True
  | .height answer => ((answer.get? "value").bind Json.asBool?).isSome
  | .simulation => True
  | .lastGuard => True
  | _ => False

/-- No call but the one that sends is stale. -/
def Exclusive (s : State) (x : Entry) : Prop :=
  x.2.Sends → ∀ index now reply, x.1 = .resume index now reply → ∀ (j : ℕ) (call : Call),
    s.calls[j]? = some call → j ≠ index → ¬ call.phase.Stale

section Steps

variable {envelope : Envelope} {s s' : State} {x : Entry} {effect : Effect} {phase : Phase}
  {reply : Reply} {timeoutMs now : ℤ}

/-- The effect is one that only a stale call has. -/
def Effect.Rash (effect : Effect) : Prop := effect.phase.Stale ∨ effect.Sends ∨ effect.Resigns

theorem reconcile_not_rash : ¬ (reconcile now timeoutMs).Rash := by
  rintro (h | h | ⟨o, h, -⟩) <;> cases h

theorem thrown_not_rash {code : String} : ¬ (finish (.thrown code)).Rash := by
  rintro (h | h | ⟨o, h, ho⟩) <;> cases h
  cases ho

theorem unknown_not_rash : ¬ (finish .UNKNOWN).Rash := by
  rintro (h | h | ⟨o, h, ho⟩) <;> cases h
  cases ho

theorem poll_not_rash {deadline : ℤ} : ¬ (wait (.poll deadline) .getSignatureStatuses).Rash := by
  rintro (h | h | ⟨o, h, -⟩) <;> cases h

theorem sleep_not_rash {deadline : ℤ} : ¬ (wait (.sleep deadline) .sleep).Rash := by
  rintro (h | h | ⟨o, h, -⟩) <;> cases h

/-- What a status settles is final. -/
theorem existing_not_rash {status : Option Status} {existing : Outcome}
    (h : resultForStatus status = some existing) : ¬ (finish existing).Rash := by
  unfold resultForStatus at h
  rcases status with - | status
  · exact absurd h (by simp)
  · simp only [Option.ite_none_right_eq_some, Option.some.injEq] at h
    obtain ⟨-, rfl⟩ := h
    split <;> simp [finish, Effect.Rash, Phase.Stale, Effect.Sends, Effect.Resigns, Outcome.Resign]

/-- Only a stale call stays stale, sends or tells its caller to sign again. -/
theorem stale_of_rash (h : resume envelope timeoutMs now phase reply = some effect)
    (hr : effect.Rash) : phase.Stale := by
  cases phase with
  | status possiblySent =>
    cases reply with
    | rpc answer =>
      obtain rfl := Option.some.inj h
      cases possiblySent with
      | false => rfl
      | true =>
        exfalso
        revert hr
        rcases hstatus : signatureStatus answer with code | old
        · exact thrown_not_rash
        · simp only [attempt, Bool.true_or, if_true]
          split
          · next existing hexisting => exact existing_not_rash hexisting
          · exact reconcile_not_rash
    | guard answer => exact absurd h (by simp [resume])
    | slept => exact absurd h (by simp [resume])
  | guard => trivial
  | validity => trivial
  | height validity =>
    cases reply with
    | rpc answer =>
      obtain rfl := Option.some.inj h
      by_contra hnone
      have hvalid : (validity.get? "value").bind Json.asBool? = none := by
        simpa [Phase.Stale] using hnone
      revert hr
      rcases answer with code | height
      · exact thrown_not_rash
      · simp only [Except.bind, blockhashStatus, hvalid]
        exact thrown_not_rash
    | guard answer => exact absurd h (by simp [resume])
    | slept => exact absurd h (by simp [resume])
  | simulation => trivial
  | lastGuard => trivial
  | send =>
    cases reply with
    | rpc answer =>
      obtain rfl := Option.some.inj h
      exact absurd hr reconcile_not_rash
    | guard answer => exact absurd h (by simp [resume])
    | slept => exact absurd h (by simp [resume])
  | poll deadline =>
    cases reply with
    | rpc answer =>
      obtain rfl := Option.some.inj h
      exfalso
      revert hr
      have hwait : ¬ (if now ≥ deadline then finish .UNKNOWN
          else wait (.sleep deadline) .sleep).Rash := by
        split
        · exact unknown_not_rash
        · exact sleep_not_rash
      rcases hstatus : signatureStatus answer with code | status
      · exact hwait
      · dsimp only
        split
        · next outcome houtcome => exact existing_not_rash houtcome
        · exact hwait
    | guard answer => exact absurd h (by simp [resume])
    | slept => exact absurd h (by simp [resume])
  | sleep deadline =>
    cases reply with
    | slept =>
      obtain rfl := Option.some.inj h
      exfalso
      revert hr
      split
      · exact poll_not_rash
      · exact unknown_not_rash
    | rpc answer => exact absurd h (by simp [resume])
    | guard answer => exact absurd h (by simp [resume])
  | returned outcome => cases reply <;> exact absurd h (by simp [resume])

/-- A call that begins is stale only if the signature is unattempted. -/
theorem unattempted_of_rash {attempted : List String} {inspected : Answer Unit}
    (hr : (begin envelope attempted inspected).Rash) : envelope.signature ∉ attempted := by
  rcases inspected with code | u
  · exact absurd hr thrown_not_rash
  · simpa [begin, attempt, wait, Effect.Rash, Phase.Stale, Effect.Sends, Effect.Resigns] using hr

theorem finish_not_sends {outcome : Outcome} : ¬ (finish outcome).Sends := by
  simp [finish, Effect.Sends]

theorem attempt_sends {α : Type} {answer : Answer α} {go : α → Effect}
    (h : (attempt answer go).Sends) : ∃ a, answer = .ok a ∧ (go a).Sends := by
  rcases answer with code | a
  · exact absurd h finish_not_sends
  · exact ⟨a, rfl, h⟩

/-- What sends has passed the last guard: it inserts the signature, and waits for the response. -/
theorem resume_sends (h : resume envelope timeoutMs now phase reply = some effect)
    (hs : effect.Sends) : phase = .lastGuard ∧ effect = ⟨.send, true, some .sendTransaction⟩ := by
  unfold resume at h
  split at h
  all_goals try obtain rfl := Option.some.inj h
  · obtain ⟨old, -, hs⟩ := attempt_sends hs
    split at hs
    · exact absurd hs finish_not_sends
    · split at hs <;> exact absurd hs (by simp [reconcile, wait, Effect.Sends])
  · obtain ⟨reason, -, hs⟩ := attempt_sends hs
    split at hs <;> exact absurd hs (by simp [finish, wait, Effect.Sends])
  · obtain ⟨validity, -, hs⟩ := attempt_sends hs
    exact absurd hs (by simp [wait, Effect.Sends])
  · obtain ⟨⟨valid, height⟩, -, hs⟩ := attempt_sends hs
    dsimp only at hs
    split at hs <;> exact absurd hs (by simp [finish, wait, Effect.Sends])
  · obtain ⟨⟨err, logs⟩, -, hs⟩ := attempt_sends hs
    dsimp only at hs
    split at hs <;> exact absurd hs (by simp [finish, wait, Effect.Sends])
  · refine ⟨rfl, ?_⟩
    obtain ⟨reason, rfl, hsend⟩ := attempt_sends hs
    simp only [attempt]
    split at hsend
    · exact absurd hsend finish_not_sends
    · rfl
  · exact absurd hs (by simp [reconcile, wait, Effect.Sends])
  · have hquiet : ∀ deadline : ℤ, ¬ (if now ≥ deadline then finish .UNKNOWN
        else wait (.sleep deadline) .sleep).Sends := by
      intro deadline
      split <;> simp [finish, wait, Effect.Sends]
    split at hs
    · split at hs
      · exact absurd hs finish_not_sends
      · exact absurd hs (hquiet _)
    · exact absurd hs (hquiet _)
  · split at hs <;> exact absurd hs (by simp [finish, wait, Effect.Sends])
  · exact absurd h (by simp)

/-! ## One step -/

/-- A step either begins a call or resumes one. -/
theorem State.Step.cases (h : s.Step envelope x s') :
    (∃ inspected t, x = (.call inspected t, begin envelope s.attempted inspected) ∧
      s'.calls = s.calls ++ [⟨t, x.2.phase⟩] ∧ s'.attempted = s.attempted) ∨
    ∃ index now reply call, x.1 = .resume index now reply ∧ s.calls[index]? = some call ∧
      resume envelope call.timeoutMs now call.phase reply = some x.2 ∧
      s'.calls = s.calls.modify index (fun call ↦ { call with phase := x.2.phase }) ∧
      s'.attempted = if x.2.inserts then envelope.signature :: s.attempted else s.attempted := by
  obtain ⟨e, effect⟩ := x
  obtain ⟨heffect, hstep⟩ := h
  simp only [State.step?, heffect] at hstep
  obtain rfl := Option.some.inj hstep
  cases e with
  | call inspected t =>
    obtain rfl := Option.some.inj heffect
    refine .inl ⟨inspected, t, rfl, rfl, ?_⟩
    rcases inspected with code | u <;> rfl
  | resume index now reply =>
    simp only [State.effect?, Option.bind_eq_bind, Option.bind_eq_some_iff] at heffect
    obtain ⟨call, hcall, hresume⟩ := heffect
    exact .inr ⟨index, now, reply, call, rfl, hcall, hresume, rfl, rfl⟩

/-- The signature has been attempted, and no call is stale. -/
structure Settled (envelope : Envelope) (s : State) : Prop where
  attempted : envelope.signature ∈ s.attempted
  fresh : ∀ (j : ℕ) (call : Call), s.calls[j]? = some call → ¬ call.phase.Stale

/-- A settled connection stays settled, and nothing rash happens on it. -/
theorem Settled.step (h : Settled envelope s) (hstep : s.Step envelope x s') :
    Settled envelope s' ∧ ¬ x.2.Rash := by
  rcases hstep.cases with ⟨inspected, t, rfl, hcalls, hattempted⟩ |
    ⟨index, now, reply, call, -, hcall, hresume, hcalls, hattempted⟩
  · have hquiet : ¬ (begin envelope s.attempted inspected).Rash := fun hr ↦
      unattempted_of_rash hr h.attempted
    refine ⟨⟨hattempted ▸ h.attempted, fun j call hcall ↦ ?_⟩, hquiet⟩
    rw [hcalls, List.getElem?_append] at hcall
    split at hcall
    · exact h.fresh j call hcall
    · obtain rfl := List.mem_singleton.mp (List.mem_of_getElem? hcall)
      exact fun hs ↦ hquiet (.inl hs)
  · have hquiet : ¬ x.2.Rash := fun hr ↦ h.fresh index call hcall (stale_of_rash hresume hr)
    refine ⟨⟨?_, fun j call' hcall' ↦ ?_⟩, hquiet⟩
    · rw [hattempted]
      split
      · exact List.mem_cons_of_mem _ h.attempted
      · exact h.attempted
    · rw [hcalls, List.getElem?_modify] at hcall'
      obtain ⟨old, hold, rfl⟩ := Option.map_eq_some_iff.mp hcall'
      split
      · exact fun hs ↦ hquiet (.inl hs)
      · exact h.fresh j old hold

/-- What sends while no other call is stale leaves the connection settled. -/
theorem settled_of_sends (hstep : s.Step envelope x s') (hs : x.2.Sends)
    (hexclusive : Exclusive s x) : Settled envelope s' := by
  rcases hstep.cases with ⟨inspected, t, rfl, -, -⟩ |
    ⟨index, now, reply, call, hx, hcall, hresume, hcalls, hattempted⟩
  · refine absurd hs ?_
    rcases inspected with code | u
    · exact finish_not_sends
    · simp [begin, attempt, wait, Effect.Sends]
  · obtain ⟨-, heffect⟩ := resume_sends hresume hs
    refine ⟨?_, fun j call' hcall' ↦ ?_⟩
    · rw [hattempted, heffect]
      exact List.mem_cons_self
    · rw [hcalls, List.getElem?_modify] at hcall'
      obtain ⟨old, hold, rfl⟩ := Option.map_eq_some_iff.mp hcall'
      by_cases hj : index = j
      · simp [hj, heffect, Phase.Stale]
      · simpa [hj] using hexclusive hs index now reply hx j old hold (Ne.symm hj)

end Steps

/-! ## Runs without overlap -/

section Runs

variable {envelope : Envelope} {s s' : State} {x : Entry} {xs : List Entry}

theorem sends_append (xs ys : List Entry) : sends (xs ++ ys) = sends xs + sends ys :=
  List.countP_append

theorem sends_singleton_of_not (h : ¬ x.2.Sends) : sends [x] = 0 := by
  simp [sends, h]

/-- Where nobody resigned after a send, nobody does if the new entry does not. -/
theorem never_snoc (h : ∀ pre y post, xs = pre ++ y :: post → y.2.Sends → ∀ z ∈ post, ¬ z.2.Resigns)
    (hx : sends xs ≠ 0 → ¬ x.2.Resigns) :
    ∀ pre y post, xs ++ [x] = pre ++ y :: post → y.2.Sends → ∀ z ∈ post, ¬ z.2.Resigns := by
  intro pre y post heq hy z hz
  rcases List.eq_nil_or_concat post with rfl | ⟨post, w, rfl⟩
  · exact absurd hz List.not_mem_nil
  · rw [List.concat_eq_append, ← List.cons_append, ← List.append_assoc] at heq
    obtain ⟨rfl, hw⟩ := List.append_inj' heq rfl
    obtain rfl := List.singleton_inj.mp hw
    rw [List.concat_eq_append] at hz
    rcases List.mem_append.mp hz with hz | hz
    · exact h pre y post rfl hy z hz
    · rw [List.mem_singleton.mp hz]
      refine hx ?_
      rw [sends, Ne, List.countP_eq_zero]
      exact fun hnone ↦ absurd hy (by simpa using hnone y (by simp))

/-- What holds along every run on which no other call is stale when one sends. -/
structure Kept (envelope : Envelope) (xs : List Entry) (s : State) : Prop where
  safe : Safe xs
  settled : sends xs ≠ 0 → Settled envelope s

theorem Kept.step (h : Kept envelope xs s) (hstep : s.Step envelope x s')
    (hexclusive : Exclusive s x) : Kept envelope (xs ++ [x]) s' := by
  by_cases hsent : sends xs = 0
  · by_cases hx : x.2.Sends
    · have hone : sends [x] = 1 := by simp [sends, hx]
      refine ⟨⟨by rw [sends_append, hsent, hone], never_snoc h.safe.never fun hne ↦ ?_⟩,
        fun _ ↦ settled_of_sends hstep hx hexclusive⟩
      exact absurd hsent hne
    · have hnone : sends (xs ++ [x]) = 0 := by
        rw [sends_append, hsent, sends_singleton_of_not hx]
      refine ⟨⟨hnone ▸ Nat.zero_le 1, never_snoc h.safe.never fun hne ↦ absurd hsent hne⟩,
        fun hne ↦ ?_⟩
      exact absurd hnone hne
  · obtain ⟨hsettled, hquiet⟩ := (h.settled hsent).step hstep
    have hx : ¬ x.2.Sends := fun hs ↦ hquiet (.inr (.inl hs))
    refine ⟨⟨?_, never_snoc h.safe.never fun _ hr ↦ hquiet (.inr (.inr hr))⟩, fun _ ↦ hsettled⟩
    rw [sends_append, sends_singleton_of_not hx]
    exact h.safe.once

theorem kept_nil : Kept envelope [] ⟨[], []⟩ :=
  ⟨⟨Nat.zero_le 1, by simp⟩, fun h ↦ absurd rfl h⟩

theorem kept_of_path (h : (machine envelope Exclusive).Path xs s) : Kept envelope xs s := by
  induction h with
  | opened ho => exact kept_nil.step ho.2 ho.1
  | step _ hs ih => exact ih.step hs.2 hs.1

end Runs

/-! ## Overlapping calls -/

section Overlap

variable {envelope : Envelope} {s s' : State} {x : Entry} {j : ℕ} {timeoutMs : ℤ} {phase : Phase}

/-- The steps of the machine without a condition. -/
abbrev free (envelope : Envelope) : Machine State Entry := machine envelope fun _ _ ↦ True

/-- A call resumes. -/
theorem State.Step.of_resume {reply : Reply} {effect : Effect}
    (hcall : s.calls[j]? = some ⟨timeoutMs, phase⟩)
    (h : resume envelope timeoutMs 0 phase reply = some effect) :
    ∃ s', (free envelope).step s (.resume j 0 reply, effect) s' ∧
      s'.calls[j]? = some ⟨timeoutMs, effect.phase⟩ := by
  have heffect : s.effect? envelope (.resume j 0 reply) = some effect := by
    simp [State.effect?, hcall, h]
  refine ⟨_, ⟨trivial, heffect, by rw [State.step?, heffect]; rfl⟩, ?_⟩
  simp [State.place, hcall]

/-- The call can go on until it tells its caller to sign again. -/
def Doomed (envelope : Envelope) (s : State) : Prop :=
  ∃ ys s', (free envelope).Steps s ys s' ∧ ∃ y ∈ ys, y.2.Resigns

theorem Doomed.of_step (hstep : (free envelope).step s x s') (h : Doomed envelope s') :
    Doomed envelope s := by
  obtain ⟨ys, s'', hys, y, hy, hr⟩ := h
  exact ⟨x :: ys, s'', hys.cons hstep, y, List.mem_cons_of_mem _ hy, hr⟩

theorem Doomed.now (hstep : (free envelope).step s x s') (h : x.2.Resigns) : Doomed envelope s :=
  ⟨[x], s', .single hstep, x, List.mem_singleton_self x, h⟩

/-- One more reply to the call. -/
theorem Doomed.next {effect : Effect} (hcall : s.calls[j]? = some ⟨timeoutMs, phase⟩)
    (reply : Reply) (h : resume envelope timeoutMs 0 phase reply = some effect)
    (hr : ∀ s' : State, s'.calls[j]? = some ⟨timeoutMs, effect.phase⟩ → Doomed envelope s') :
    Doomed envelope s := by
  obtain ⟨s', hstep, hcall'⟩ := State.Step.of_resume hcall h
  exact (hr s' hcall').of_step hstep

theorem Doomed.last {effect : Effect} (hcall : s.calls[j]? = some ⟨timeoutMs, phase⟩)
    (reply : Reply) (h : resume envelope timeoutMs 0 phase reply = some effect)
    (hr : effect.Resigns) : Doomed envelope s := by
  obtain ⟨s', hstep, -⟩ := State.Step.of_resume hcall h
  exact .now hstep hr

/-- An object with one member. -/
def single (key : String) (value : Json) : Json := .obj [(key, value)]

theorem doomed_of_simulation (hcall : s.calls[j]? = some ⟨timeoutMs, .simulation⟩) :
    Doomed envelope s :=
  .last hcall (.rpc (.ok (single "value" (single "err" (.str "InstructionError"))))) rfl
    ⟨_, rfl, trivial⟩

theorem doomed_of_height {validity : Json}
    (hvalid : ((validity.get? "value").bind Json.asBool?).isSome)
    (hcall : s.calls[j]? = some ⟨timeoutMs, .height validity⟩) : Doomed envelope s := by
  obtain ⟨valid, hvalid⟩ := Option.isSome_iff_exists.mp hvalid
  have hstatus : blockhashStatus validity (.int 0) = .ok (valid, 0) := by
    rw [blockhashStatus, hvalid]
    rfl
  have hresume : resume envelope timeoutMs 0 (.height validity) (.rpc (.ok (.int 0))) =
      some (if !valid || (0 : ℤ) > envelope.lastValidBlockHeight then
        finish (.REBUILD_AND_RESIGN "BLOCKHASH_EXPIRED")
        else wait .simulation .simulateTransaction) := by
    simp only [resume, Except.bind, hstatus, attempt]
  by_cases hold : !valid || (0 : ℤ) > envelope.lastValidBlockHeight
  · rw [if_pos hold] at hresume
    exact .last hcall _ hresume ⟨_, rfl, trivial⟩
  · rw [if_neg hold] at hresume
    exact .next hcall _ hresume fun s' hs' ↦ doomed_of_simulation hs'

/-- A stale call can go on until it tells its caller to sign again. -/
theorem doomed_of_stale (hstale : phase.Stale) (hcall : s.calls[j]? = some ⟨timeoutMs, phase⟩) :
    Doomed envelope s := by
  have hguard : ∀ s' : State, s'.calls[j]? = some ⟨timeoutMs, .guard⟩ → Doomed envelope s' :=
    fun s' hs' ↦ .last hs' (.guard (.ok (some "POLICY_CHANGED"))) rfl ⟨_, rfl, trivial⟩
  cases phase with
  | status possiblySent =>
    obtain rfl : possiblySent = false := hstale
    exact .next hcall (.rpc (.ok (single "value" (.arr [.null])))) rfl hguard
  | guard => exact hguard s hcall
  | validity =>
    exact .next hcall (.rpc (.ok (single "value" (.bool false)))) rfl fun s' hs' ↦
      doomed_of_height rfl hs'
  | height validity => exact doomed_of_height hstale hcall
  | simulation => exact doomed_of_simulation hcall
  | lastGuard => exact .last hcall (.guard (.ok (some "POLICY_CHANGED"))) rfl ⟨_, rfl, trivial⟩
  | send => exact absurd hstale id
  | poll deadline => exact absurd hstale id
  | sleep deadline => exact absurd hstale id
  | returned outcome => exact absurd hstale id

/-- Where another call is stale, sending leaves it stale. -/
theorem stale_of_not_exclusive (hstep : s.Step envelope x s') (h : ¬ Exclusive s x) :
    x.2.Sends ∧ ∃ (j : ℕ) (call : Call), s'.calls[j]? = some call ∧ call.phase.Stale := by
  unfold Exclusive at h
  push Not at h
  obtain ⟨hs, index, now, reply, hx, j, call, hcall, hne, hstale⟩ := h
  refine ⟨hs, j, call, ?_, hstale⟩
  rcases hstep.cases with ⟨inspected, t, rfl, -, -⟩ |
    ⟨index', now', reply', call', hx', -, -, hcalls, -⟩
  · exact absurd hx (by simp)
  · obtain ⟨rfl, rfl, rfl⟩ := Event.resume.inj (hx.symm.trans hx')
    simp [hcalls, Ne.symm hne, hcall]

end Overlap

/-! ## The result -/

/-- As long as no other call is stale when one sends, the transaction is sent at most once and
nobody is told to sign it again after that; and any interleaving up to a step that sends while
another call is stale can go on so that its caller is told to sign again what has been sent. -/
theorem submitSigned_safe_of_exclusive (envelope : Envelope) :
    (∀ xs s, (machine envelope Exclusive).Path xs s → Safe xs) ∧
      ∀ xs s x s', (free envelope).Path xs s → (free envelope).step s x s' → ¬ Exclusive s x →
        ∃ ys s'', (free envelope).Path (xs ++ x :: ys) s'' ∧ ¬ Safe (xs ++ x :: ys) := by
  refine ⟨fun xs s h ↦ (kept_of_path h).safe, fun xs s x s' hxs hstep hexclusive ↦ ?_⟩
  obtain ⟨hs, j, call, hcall, hstale⟩ := stale_of_not_exclusive hstep.2 hexclusive
  have hdoomed : Doomed envelope s' := doomed_of_stale hstale hcall
  obtain ⟨ys, s'', hys, y, hy, hr⟩ := hdoomed
  refine ⟨ys, s'', ?_, fun hsafe ↦ hsafe.never xs x ys rfl hs y hy hr⟩
  have hpath := (hxs.step hstep).append hys
  rwa [List.append_assoc] at hpath

/-! ## Several calls -/

instance Phase.decidableStale : DecidablePred Phase.Stale
  | .status possiblySent => inferInstanceAs (Decidable (possiblySent = false))
  | .height answer =>
    inferInstanceAs (Decidable (((answer.get? "value").bind Json.asBool?).isSome = true))
  | .guard | .validity | .simulation | .lastGuard => .isTrue trivial
  | .send | .poll _ | .sleep _ | .returned _ => .isFalse id

theorem exclusive_call {s : State} {inspected : Answer Unit} {timeoutMs : ℤ} {effect : Effect} :
    Exclusive s (.call inspected timeoutMs, effect) :=
  fun _ _ _ _ h ↦ Event.noConfusion h

theorem exclusive_resume {s : State} {index : ℕ} {now : ℤ} {reply : Reply} {effect : Effect} :
    Exclusive s (.resume index now reply, effect) ↔ (effect.Sends →
      ∀ j < s.calls.length, j ≠ index → ∀ call ∈ s.calls[j]?, ¬ call.phase.Stale) := by
  constructor
  · exact fun h hs j _ hne call hcall ↦ h hs index now reply rfl j call hcall hne
  · rintro h hs _ _ _ ⟨⟩ j call hcall hne
    obtain ⟨hj, -⟩ := List.getElem?_eq_some_iff.mp hcall
    exact h hs j hj hne call hcall

instance Exclusive.decidable (s : State) : DecidablePred (Exclusive s) := fun x ↦
  match x with
  | (.call .., _) => .isTrue exclusive_call
  | (.resume .., _) => decidable_of_iff _ exclusive_resume.symm

instance Outcome.decidableResign : DecidablePred Outcome.Resign
  | .FINALIZED _ => .isFalse id
  | .ONCHAIN_FAILED _ _ => .isFalse id
  | .REBUILD_AND_RESIGN _ => .isTrue trivial
  | .SIMULATION_REJECTED _ _ => .isTrue trivial
  | .UNKNOWN => .isFalse id
  | .thrown _ => .isFalse id

/-- The outcome of an effect. -/
def Effect.outcome? (effect : Effect) : Option Outcome :=
  match effect.phase with
  | .returned o => some o
  | _ => none

theorem resigns_of_outcome {effect : Effect} {o : Outcome} (h : effect.outcome? = some o)
    (hr : o.Resign) : effect.Resigns := by
  unfold Effect.outcome? at h
  split at h
  · next o' hphase =>
    obtain rfl := Option.some.inj h
    exact ⟨_, hphase, hr⟩
  · exact absurd h (by simp)

/-- The entries of a list of events, if each call waits for what it receives and each step is as
`ok` says. -/
def State.run? (envelope : Envelope) (ok : State → Entry → Prop) [∀ s, DecidablePred (ok s)]
    (s : State) : List Event → Option (List Entry × State)
  | [] => some ([], s)
  | e :: es => do
    let effect ← (s.effect? envelope e).filter fun effect ↦ ok s (e, effect)
    let s' ← s.step? envelope e
    let (xs, s'') ← s'.run? envelope ok es
    pure ((e, effect) :: xs, s'')

section Run

variable {envelope : Envelope} {ok : State → Entry → Prop} [∀ s, DecidablePred (ok s)]
  {s s' : State} {e : Event} {es : List Event} {xs : List Entry}

theorem State.run?_cons (h : s.run? envelope ok (e :: es) = some (xs, s')) :
    ∃ effect s₁ ys, (machine envelope ok).step s (e, effect) s₁ ∧
      s₁.run? envelope ok es = some (ys, s') ∧ xs = (e, effect) :: ys := by
  simp only [State.run?, Option.bind_eq_bind, Option.bind_eq_some_iff, Option.pure_def,
    Option.some.injEq, Prod.exists, Prod.mk.injEq, Option.filter_eq_some_iff,
    decide_eq_true_eq] at h
  obtain ⟨effect, ⟨heffect, hok⟩, s₁, hstep, ys, s₂, hrun, rfl, rfl⟩ := h
  exact ⟨effect, s₁, ys, ⟨hok, heffect, hstep⟩, hrun, rfl⟩

theorem State.steps_of_run? (h : s.run? envelope ok es = some (xs, s')) :
    (machine envelope ok).Steps s xs s' := by
  induction es generalizing s xs with
  | nil =>
    obtain ⟨rfl, rfl⟩ := Prod.mk.inj (Option.some.inj h)
    exact .refl s
  | cons e es ih =>
    obtain ⟨effect, s₁, ys, hstep, hrun, rfl⟩ := State.run?_cons h
    exact (ih hrun).cons hstep

theorem State.path_of_run? (h : State.run? envelope ok ⟨[], []⟩ (e :: es) = some (xs, s')) :
    (machine envelope ok).Path xs s' := by
  obtain ⟨effect, s₁, ys, hstep, hrun, rfl⟩ := State.run?_cons h
  exact (Machine.Path.opened hstep).append (steps_of_run? hrun)

end Run

/-- Some entry after the first that sends tells its caller to sign again. -/
def resignsAfterSend (xs : List Entry) : Bool :=
  match xs.dropWhile fun x ↦ !decide x.2.Sends with
  | [] => false
  | _ :: post => post.any fun y ↦ y.2.outcome?.any fun o ↦ decide o.Resign

theorem exists_of_resignsAfterSend {xs : List Entry} (h : resignsAfterSend xs) :
    ∃ pre x post, xs = pre ++ x :: post ∧ x.2.Sends ∧ ∃ y ∈ post, y.2.Resigns := by
  unfold resignsAfterSend at h
  split at h
  · exact absurd h (by simp)
  · next x post hdrop =>
    refine ⟨xs.takeWhile fun x ↦ !decide x.2.Sends, x, post, ?_, ?_, ?_⟩
    · rw [← hdrop, List.takeWhile_append_dropWhile]
    · have hhead := List.head_dropWhile_not (fun x : Entry ↦ !decide x.2.Sends) (l := xs)
        (by rw [hdrop]; exact List.cons_ne_nil _ _)
      simpa [hdrop] using hhead
    · obtain ⟨y, hy, hany⟩ := List.any_eq_true.mp h
      refine ⟨y, hy, ?_⟩
      cases ho : y.2.outcome? with
      | none => simp [ho] at hany
      | some o => exact resigns_of_outcome ho (by simpa [ho] using hany)

namespace Sample

def envelope : Envelope where
  bytes := "AQ=="
  messageHash := "6b"
  signature := "5h"
  blockhash := "9z"
  lastValidBlockHeight := 100

def made : Event := .call (.ok ()) 90000
def status (i : ℕ) : Event := .resume i 0 (.rpc (.ok (single "value" (.arr [.null]))))
def guard (i : ℕ) : Event := .resume i 0 (.guard (.ok none))
def validity (i : ℕ) (valid : Bool) : Event :=
  .resume i 0 (.rpc (.ok (single "value" (.bool valid))))
def height (i : ℕ) : Event := .resume i 0 (.rpc (.ok (.int 7)))
def simulation (i : ℕ) : Event := .resume i 0 (.rpc (.ok (single "value" (single "err" .null))))

/-- A call after its first status, up to what it sends. -/
def sent (i : ℕ) : List Event := [guard i, validity i true, height i, simulation i, guard i]

/-- Two calls read the status, and the first one sends. -/
def overlap : List Event := made :: made :: status 0 :: status 1 :: sent 0

/-- Two calls read the status; the guard turns the second one away before the first one sends.  A
third call finds the signature attempted, and reconciles it until its time is up. -/
def apart : List Event :=
  [made, made, status 0, status 1, .resume 1 0 (.guard (.ok (some "STALE")))] ++ sent 0 ++
    [made, status 2, .resume 2 90000 (.rpc (.ok (single "value" (.arr [.null]))))]

end Sample

theorem submitSigned_safe_sample : ∃ xs s, (machine Sample.envelope Exclusive).Path xs s ∧
    sends xs = 1 ∧ s.calls.length = 3 ∧ Safe xs := by
  obtain ⟨hsafe, -⟩ := submitSigned_safe_of_exclusive Sample.envelope
  have hapart : ((State.run? Sample.envelope Exclusive ⟨[], []⟩ Sample.apart).map
      fun r ↦ (sends r.1, r.2.calls.length)) = some (1, 3) := by decide
  obtain ⟨⟨xs, s⟩, hrun, hcounts⟩ := Option.map_eq_some_iff.mp hapart
  obtain ⟨hsends, hcalls⟩ := Prod.mk.inj hcounts
  have hpath := State.path_of_run? hrun
  exact ⟨xs, s, hpath, hsends, hcalls, hsafe _ _ hpath⟩

/-- Two calls send the transaction twice, or one is told to sign it again after the other sent it. -/
theorem submitSigned_overlap :
    (∃ xs s, (free Sample.envelope).Path xs s ∧ sends xs = 2) ∧
      ∃ xs s, (free Sample.envelope).Path xs s ∧
        ∃ pre x post, xs = pre ++ x :: post ∧ x.2.Sends ∧ ∃ y ∈ post, y.2.Resigns := by
  have htwice : ((State.run? Sample.envelope (fun _ _ ↦ True) ⟨[], []⟩
      (Sample.overlap ++ Sample.sent 1)).map fun r ↦ sends r.1) = some 2 := by decide
  have hexpired : ((State.run? Sample.envelope (fun _ _ ↦ True) ⟨[], []⟩ (Sample.overlap ++
      [Sample.guard 1, Sample.validity 1 false, Sample.height 1])).map
      fun r ↦ resignsAfterSend r.1) = some true := by decide
  obtain ⟨⟨xs, s⟩, hrun, hsends⟩ := Option.map_eq_some_iff.mp htwice
  obtain ⟨⟨ys, s'⟩, hrun', hresigns⟩ := Option.map_eq_some_iff.mp hexpired
  exact ⟨⟨xs, s, State.path_of_run? hrun, hsends⟩,
    ⟨ys, s', State.path_of_run? hrun', exists_of_resignsAfterSend hresigns⟩⟩

end FundingVaults.Client
