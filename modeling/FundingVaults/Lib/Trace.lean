import Mathlib.Data.List.Basic
import Mathlib.Order.Defs.Unbundled

/-!
# Histories of a machine

A machine opens with one event and then takes steps, each labelled by an event.  `Path` is a
history together with the state it ends in; `Steps` is a stretch of a history between two states.
Both grow at the end, so that an invariant of histories is an induction whose step adds the last
event.

`Since start ok` is the past-time operator *since*: some event of the history, admitted by
`start` on what came before it, was followed only by events that satisfy `ok`.

`replayed` computes the history that a list of inputs leaves, the rejected ones skipped.
-/

namespace FundingVaults

universe u v

variable {σ : Type u} {ε : Type v}

structure Machine (σ : Type u) (ε : Type v) where
  opens : ε → σ → Prop
  step : σ → ε → σ → Prop

namespace Machine

variable (M : Machine σ ε)

inductive Path : List ε → σ → Prop where
  | opened {e : ε} {s : σ} : M.opens e s → Path [e] s
  | step {xs : List ε} {s s' : σ} {e : ε} : Path xs s → M.step s e s' → Path (xs ++ [e]) s'

inductive Steps : σ → List ε → σ → Prop where
  | refl (s : σ) : Steps s [] s
  | step {s s' s'' : σ} {xs : List ε} {e : ε} :
      Steps s xs s' → M.step s' e s'' → Steps s (xs ++ [e]) s''

variable {M} {xs ys : List ε} {s s' : σ}

namespace Steps

theorem single {e : ε} (h : M.step s e s') : M.Steps s [e] s' := (refl s).step h

theorem cons {e : ε} (he : M.step s e s') {s'' : σ} (h : M.Steps s' xs s'') :
    M.Steps s (e :: xs) s'' := by
  induction h with
  | refl => exact single he
  | step _ hs ih => exact ih.step hs

/-- A reflexive and transitive relation that every step respects relates the two ends. -/
theorem rel {R : σ → σ → Prop} (hrefl : ∀ s, R s s) (htrans : ∀ {a b c}, R a b → R b c → R a c)
    (hstep : ∀ {s e s'}, M.step s e s' → R s s') (h : M.Steps s xs s') : R s s' := by
  induction h with
  | refl => exact hrefl _
  | step _ hs ih => exact htrans ih (hstep hs)

end Steps

namespace Path

theorem append (h : M.Path xs s) (hs : M.Steps s ys s') : M.Path (xs ++ ys) s' := by
  induction hs with
  | refl => simpa using h
  | step _ he ih => simpa using ih.step he

/-- A path is an opening and a stretch of steps. -/
theorem exists_steps (h : M.Path xs s) :
    ∃ e ys s₀, xs = e :: ys ∧ M.opens e s₀ ∧ M.Steps s₀ ys s := by
  induction h with
  | @opened e s he => exact ⟨e, [], s, rfl, he, .refl s⟩
  | @step xs s s' e _ he ih =>
    obtain ⟨e₀, ys, s₀, rfl, h₀, hs⟩ := ih
    exact ⟨e₀, ys ++ [e], s₀, rfl, h₀, hs.step he⟩

/-- A property of the history and the state that holds at the opening and that every step keeps
holds of every path. -/
theorem invariant {I : List ε → σ → Prop} (hopen : ∀ {e s}, M.opens e s → I [e] s)
    (hstep : ∀ {xs s e s'}, M.Path xs s → I xs s → M.step s e s' → I (xs ++ [e]) s')
    (h : M.Path xs s) : I xs s := by
  induction h with
  | opened he => exact hopen he
  | step hp he ih => exact hstep hp ih he

/-- The rule for a property of the state alone. -/
theorem always {I : σ → Prop} (hopen : ∀ {e s}, M.opens e s → I s)
    (hstep : ∀ {s e s'}, I s → M.step s e s' → I s') (h : M.Path xs s) : I s :=
  h.invariant (I := fun _ s ↦ I s) hopen fun _ ↦ hstep

end Path

end Machine

/-! ## Since -/

/-- An event that `start` admits, and only `ok` events after it. -/
def Since (start : List ε → ε → Prop) (ok : ε → Prop) (xs : List ε) : Prop :=
  ∃ a c b, xs = a ++ c :: b ∧ start a c ∧ ∀ m ∈ b, ok m

namespace Since

variable {start start' : List ε → ε → Prop} {ok ok' : ε → Prop} {xs : List ε} {e : ε}

theorem now (h : start xs e) : Since start ok (xs ++ [e]) :=
  ⟨xs, e, [], rfl, h, by simp⟩

theorem next (h : Since start ok xs) (he : ok e) : Since start ok (xs ++ [e]) := by
  obtain ⟨a, c, b, rfl, hc, hb⟩ := h
  refine ⟨a, c, b ++ [e], by simp, hc, ?_⟩
  intro m hm
  rcases List.mem_append.mp hm with hm | hm
  · exact hb m hm
  · rw [List.mem_singleton.mp hm]
    exact he

theorem mono (h : Since start ok xs) (hs : ∀ a c, start a c → start' a c)
    (ho : ∀ m, ok m → ok' m) : Since start' ok' xs := by
  obtain ⟨a, c, b, hx, hc, hb⟩ := h
  exact ⟨a, c, b, hx, hs a c hc, fun m hm ↦ ho m (hb m hm)⟩

end Since

/-! ## Replay -/

section Replay

universe w

variable {ι : Type w} {χ : Type*} (process : σ → ι → Except χ σ) (event : σ → ι → σ → ε)

/-- The events of the accepted inputs, and the state they lead to. -/
def replayed : σ → List ι → List ε × σ
  | s, [] => ([], s)
  | s, x :: xs =>
    match process s x with
    | .ok s' => (event s x s' :: (replayed s' xs).1, (replayed s' xs).2)
    | .error _ => replayed s xs

variable {process event}

/-- A relation that accepted inputs extend and rejected ones do not touch holds of what is
replayed. -/
theorem replayed_induction {R : σ → List ε → σ → Prop} {s : σ} {xs : List ι} (refl : ∀ s, R s [] s)
    (accepted : ∀ {s x s' es s''}, x ∈ xs → process s x = .ok s' → R s' es s'' →
      R s (event s x s' :: es) s'')
    (rejected : ∀ {s x c es s''}, process s x = .error c → R s es s'' → R s es s'') :
    R s (replayed process event s xs).1 (replayed process event s xs).2 := by
  induction xs generalizing s with
  | nil => exact refl s
  | cons x xs ih =>
    have htail : ∀ s, R s (replayed process event s xs).1 (replayed process event s xs).2 := fun s ↦
      ih fun hx ↦ accepted (List.mem_cons_of_mem _ hx)
    unfold replayed
    split
    · next s' hp => exact accepted List.mem_cons_self hp (htail s')
    · next c hp => exact rejected hp (htail s)

/-- Every event is that of an input. -/
theorem mem_replayed {e : ε} {s : σ} {xs : List ι} (h : e ∈ (replayed process event s xs).1) :
    ∃ s x s', x ∈ xs ∧ e = event s x s' := by
  refine @replayed_induction _ _ _ _ process event
    (fun _ es _ ↦ ∀ e ∈ es, ∃ s x s', x ∈ xs ∧ e = event s x s') s xs
    (fun _ e he ↦ absurd he List.not_mem_nil) ?_ (fun _ h ↦ h) e h
  intro s x s' es s'' hx hp ih e he
  rcases List.mem_cons.mp he with rfl | he
  · exact ⟨s, x, s', hx, rfl⟩
  · exact ih e he

end Replay

end FundingVaults
