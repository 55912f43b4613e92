import Mathlib.Data.List.Basic
import Mathlib.Data.List.Perm.Basic
import Mathlib.Logic.Function.Basic

/-!
# Clients that do not disturb each other

A server handles requests one after the other, each at its own time.  A request either moves the
server to a new state or is refused and changes nothing.

Clients are *independent* if whether a request is granted depends on nothing but what its own
client was granted before: the state of the server is then known from the requests that each
client was granted, whatever their order between clients.  So the answers a client gets in a
schedule are those it gets alone, and two schedules in which every client makes the same requests
in the same order give the same answers and lead to states that are known from the same grants.
-/

namespace FundingVaults

universe u v w x

variable {σ : Type u} {τ : Type v} {α : Type w} {ι : Type x}

/-! ## Serving a schedule -/

/-- The state after a schedule, and every request of the schedule with its answer. -/
def serve (step : σ → τ → α → Option σ) : σ → List (τ × α) → σ × List (α × Bool)
  | s, [] => (s, [])
  | s, (t, a) :: xs =>
    match step s t a with
    | some s' => ((serve step s' xs).1, (a, true) :: (serve step s' xs).2)
    | none => ((serve step s xs).1, (a, false) :: (serve step s xs).2)

/-- The requests that were granted. -/
def grants (answers : List (α × Bool)) : List α := (answers.filter Prod.snd).map Prod.fst

open Classical in
/-- The answers to one client who was granted `done` before, `passes` being the rule. -/
noncomputable def judge (passes : List α → α → Prop) : List α → List α → List (α × Bool)
  | _, [] => []
  | done, a :: as =>
    if passes done a then (a, true) :: judge passes (done ++ [a]) as
    else (a, false) :: judge passes done as

section Serve

variable {step : σ → τ → α → Option σ} {s s' : σ} {t : τ} {a : α} {xs : List (τ × α)}

@[simp] theorem serve_nil : serve step s [] = (s, []) := rfl

theorem serve_granted (h : step s t a = some s') :
    serve step s ((t, a) :: xs) = ((serve step s' xs).1, (a, true) :: (serve step s' xs).2) := by
  rw [serve, h]

theorem serve_refused (h : step s t a = none) :
    serve step s ((t, a) :: xs) = ((serve step s xs).1, (a, false) :: (serve step s xs).2) := by
  rw [serve, h]

/-- Every request is answered, in its turn. -/
theorem serve_requests : (serve step s xs).2.map Prod.fst = xs.map Prod.snd := by
  induction xs generalizing s with
  | nil => rfl
  | cons x xs ih =>
    obtain ⟨t, a⟩ := x
    cases h : step s t a with
    | some s' => simp [serve_granted h, ih]
    | none => simp [serve_refused h, ih]

end Serve

/-! ## Independence -/

/-- `inv now granted s`: at the time `now` the server is in the state `s`, and the requests each
client was granted are `granted`. -/
structure Independent [LE τ] [DecidableEq ι] (step : σ → τ → α → Option σ)
    (client : α → Option ι) (passes : ι → List α → α → Prop) (fits : τ → α → Prop)
    (inv : τ → (ι → List α) → σ → Prop) : Prop where
  waits : ∀ {now t granted s}, inv now granted s → now ≤ t → inv t granted s
  nobody : ∀ {t granted s a}, inv t granted s → fits t a → client a = none → step s t a = none
  verdict : ∀ {t granted s a c}, inv t granted s → fits t a → client a = some c →
    ((∃ s', step s t a = some s') ↔ passes c (granted c) a)
  grant : ∀ {t granted s s' a c}, inv t granted s → fits t a → client a = some c →
    step s t a = some s' → inv t (Function.update granted c (granted c ++ [a])) s'

namespace Independent

variable [LE τ] [DecidableEq ι] {step : σ → τ → α → Option σ} {client : α → Option ι}
  {passes : ι → List α → α → Prop} {fits : τ → α → Prop} {inv : τ → (ι → List α) → σ → Prop}
  {s : σ} {now : τ} {granted : ι → List α} {xs ys : List (τ × α)}

/-- One request: its answer is the verdict on its own client, and nothing changes for another. -/
theorem serve_cons {t : τ} {a : α} (h : Independent step client passes fits inv)
    (hs : inv t granted s) (hfit : fits t a) : ∃ b s' granted', inv t granted' s' ∧
      (∀ xs, serve step s ((t, a) :: xs) =
        ((serve step s' xs).1, (a, b) :: (serve step s' xs).2)) ∧
      (client a = none → b = false) ∧
      (∀ c, granted' c = granted c ++ grants (if client a = some c then [(a, b)] else [])) ∧
      ∀ c as, judge (passes c) (granted c) ((a :: as).filter fun a ↦ client a = some c) =
        (if client a = some c then [(a, b)] else []) ++
          judge (passes c) (granted' c) (as.filter fun a ↦ client a = some c) := by
  cases hc : client a with
  | none =>
    refine ⟨false, s, granted, hs, fun xs ↦ serve_refused (h.nobody hs hfit hc), fun _ ↦ rfl,
      ?_, ?_⟩
    · simp [grants]
    · simp [hc]
  | some c =>
    have hverdict := h.verdict hs hfit hc
    cases hstep : step s t a with
    | some s' =>
      have hpass : passes c (granted c) a := hverdict.mp ⟨s', hstep⟩
      refine ⟨true, s', _, h.grant hs hfit hc hstep, fun xs ↦ serve_granted hstep, by simp, ?_, ?_⟩
      · intro c'
        by_cases hcc : c' = c
        · subst hcc
          simp [grants]
        · simp [hcc, Ne.symm hcc, grants]
      · intro c' as
        by_cases hcc : c' = c
        · subst hcc
          simp [hc, judge, hpass]
        · simp [hc, hcc, Ne.symm hcc]
    | none =>
      have hpass : ¬ passes c (granted c) a := by
        intro hp
        obtain ⟨s', hs'⟩ := hverdict.mpr hp
        simp [hstep] at hs'
      refine ⟨false, s, granted, hs, fun xs ↦ serve_refused hstep, by simp, ?_, ?_⟩
      · intro c'
        split <;> simp [grants]
      · intro c' as
        by_cases hcc : c' = c
        · subst hcc
          simp [hc, judge, hpass]
        · simp [hc, Ne.symm hcc]

/-- What a schedule does, client by client. -/
theorem serve_spec (h : Independent step client passes fits inv) (hs : inv now granted s)
    (hfits : ∀ x ∈ xs, fits x.1 x.2) (htimes : (now :: xs.map Prod.fst).Pairwise (· ≤ ·)) :
    (∀ c, (serve step s xs).2.filter (fun o ↦ client o.1 = some c) =
      judge (passes c) (granted c) ((xs.map Prod.snd).filter fun a ↦ client a = some c)) ∧
      (∀ o ∈ (serve step s xs).2, client o.1 = none → o.2 = false) ∧
      ∃ t, inv t (fun c ↦ granted c ++ grants (judge (passes c) (granted c)
        ((xs.map Prod.snd).filter fun a ↦ client a = some c))) (serve step s xs).1 := by
  induction xs generalizing s now granted with
  | nil =>
    refine ⟨fun c ↦ rfl, by simp, now, ?_⟩
    simpa [grants, judge] using hs
  | cons x xs ih =>
    obtain ⟨t, a⟩ := x
    obtain ⟨hnow, htail⟩ := List.pairwise_cons.mp htimes
    obtain ⟨b, s', granted', hs', hserve, hnobody, hgranted, hjudge⟩ :=
      h.serve_cons (h.waits hs (hnow t (by simp))) (hfits (t, a) (by simp))
    obtain ⟨hown, hnone, last, hlast⟩ :=
      ih hs' (fun x hx ↦ hfits x (List.mem_cons_of_mem _ hx)) htail
    rw [hserve]
    refine ⟨?_, ?_, last, ?_⟩
    · intro c
      rw [List.map_cons, hjudge, ← hown]
      split
      · next hc => simp [hc]
      · next hc => simp [hc]
    · intro o ho
      rcases List.mem_cons.mp ho with rfl | ho
      · exact hnobody
      · exact hnone o ho
    · convert hlast using 2 with c
      rw [List.map_cons, hjudge, hgranted]
      simp only [grants, List.filter_append, List.map_append, List.append_assoc]

/-- Two schedules with the same requests of every client, in the same order. -/
theorem reorder (h : Independent step client passes fits inv) (hs : inv now granted s)
    (hx : ∀ x ∈ xs, fits x.1 x.2) (htx : (now :: xs.map Prod.fst).Pairwise (· ≤ ·))
    (hy : ∀ y ∈ ys, fits y.1 y.2) (hty : (now :: ys.map Prod.fst).Pairwise (· ≤ ·))
    (hown : ∀ c, ((xs.map Prod.snd).filter fun a ↦ client a = some c) =
      (ys.map Prod.snd).filter fun a ↦ client a = some c) :
    (∀ c, ((serve step s xs).2.filter fun o ↦ client o.1 = some c) =
      (serve step s ys).2.filter fun o ↦ client o.1 = some c) ∧
      ∃ t t' granted',
        inv t granted' (serve step s xs).1 ∧ inv t' granted' (serve step s ys).1 := by
  obtain ⟨hax, -, t, hix⟩ := h.serve_spec hs hx htx
  obtain ⟨hay, -, t', hiy⟩ := h.serve_spec hs hy hty
  refine ⟨fun c ↦ ?_, t, t', _, hix, ?_⟩
  · rw [hax, hay, hown]
  · simpa only [hown] using hiy

/-- A client gets the answers it gets alone. -/
theorem alone (h : Independent step client passes fits inv) (hs : inv now granted s)
    (hx : ∀ x ∈ xs, fits x.1 x.2) (htx : (now :: xs.map Prod.fst).Pairwise (· ≤ ·)) (c : ι) :
    ((serve step s xs).2.filter fun o ↦ client o.1 = some c) =
      (serve step s (xs.filter fun x ↦ client x.2 = some c)).2 := by
  have hsub := List.filter_sublist (p := fun x : τ × α ↦ client x.2 = some c) (l := xs)
  obtain ⟨hax, -⟩ := h.serve_spec hs hx htx
  obtain ⟨hay, -⟩ := h.serve_spec hs (fun x hx' ↦ hx x (hsub.subset hx'))
    (htx.sublist ((hsub.map Prod.fst).cons_cons now))
  have hall : ∀ o ∈ (serve step s (xs.filter fun x ↦ client x.2 = some c)).2,
      client o.1 = some c := by
    intro o ho
    have hmem := List.mem_map_of_mem (f := Prod.fst) ho
    rw [serve_requests] at hmem
    obtain ⟨x, hx', hxo⟩ := List.mem_map.mp hmem
    rw [← hxo]
    simpa using (List.mem_filter.mp hx').2
  have hself : ((serve step s (xs.filter fun x ↦ client x.2 = some c)).2.filter
      fun o ↦ client o.1 = some c) = (serve step s (xs.filter fun x ↦ client x.2 = some c)).2 := by
    rw [List.filter_eq_self]
    intro o ho
    simpa using hall o ho
  rw [← hself, hax, hay]
  congr 1
  simp [List.filter_map, List.filter_filter, Function.comp_def]

end Independent

end FundingVaults
