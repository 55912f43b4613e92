import Mathlib.Algebra.BigOperators.Group.List.Basic
import Mathlib.Algebra.Order.Monoid.Canonical.Defs
import Mathlib.Order.UpperLower.CompleteLattice

/-!
# Gates that keep a quota

A gate answers requests one at a time.  It keeps a quota when, standing at what it has taken so far,
it takes a request exactly if the sum stays in the quota.  A quota is closed downwards, so such a
gate takes a whole list of requests exactly if their total fits: neither the order of the requests
nor how a total is split among them makes a difference.
-/

namespace FundingVaults

variable {M σ β ε : Type} [AddCommMonoid M] [PartialOrder M]

/-- From a state that stands at `t`, the gate takes an admissible request exactly if it fits. -/
structure Gate (quota : LowerSet M) (stands : σ → M → Prop) (weight : β → M) (admissible : β → Prop)
    (step : σ → β → Except ε σ) : Prop where
  takes : ∀ {s t b}, stands s t → admissible b → t + weight b ∈ quota →
    ∃ s', step s b = .ok s' ∧ stands s' (t + weight b)
  fits : ∀ {s t b s'}, stands s t → admissible b → step s b = .ok s' → t + weight b ∈ quota

variable [CanonicallyOrderedAdd M] {quota : LowerSet M} {stands : σ → M → Prop} {weight : β → M}
  {admissible : β → Prop} {step : σ → β → Except ε σ} {s : σ} {t : M} {bs bs' : List β}

namespace Gate

/-- A list of requests is taken exactly if its total fits. -/
theorem foldlM_iff (h : Gate quota stands weight admissible step) (hs : stands s t)
    (ht : t ∈ quota) (hbs : ∀ b ∈ bs, admissible b) :
    (∃ s', bs.foldlM step s = .ok s') ↔ t + (bs.map weight).sum ∈ quota := by
  induction bs generalizing s t with
  | nil => simpa [pure, Except.pure] using ht
  | cons b bs ih =>
    have hb := hbs b List.mem_cons_self
    have hrest : ∀ c ∈ bs, admissible c := fun c hc ↦ hbs c (List.mem_cons_of_mem _ hc)
    rw [List.foldlM_cons, List.map_cons, List.sum_cons, ← add_assoc]
    constructor
    · rintro ⟨s', hs'⟩
      cases hstep : step s b with
      | error e => simp [hstep, bind, Except.bind] at hs'
      | ok s₁ =>
        have hfits := h.fits hs hb hstep
        obtain ⟨s₂, hs₂, hstands⟩ := h.takes hs hb hfits
        obtain rfl := Except.ok.inj (hstep.symm.trans hs₂)
        rw [hstep] at hs'
        exact (ih hstands hfits hrest).mp ⟨s', hs'⟩
    · intro hsum
      -- What fits with the rest fits without it.
      have hfits : t + weight b ∈ quota := quota.lower le_self_add hsum
      obtain ⟨s₁, hstep, hstands⟩ := h.takes hs hb hfits
      rw [hstep]
      exact (ih hstands hfits hrest).mpr hsum

end Gate

end FundingVaults
