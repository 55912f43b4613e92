import FundingVaults.Lib.Checked
import FundingVaults.Lib.Tally

/-!
# Release schedules

A schedule releases at most a monthly share of a deposit in each thirty-day period, counted from
an anchor; what a period leaves unused is gone.

A program keeps the period of its last release and what was released in it, and starts from zero
when a later period comes.  `Counts` is what such a pair of counters means: the second is the
total of the history over the period that the first names, and no event lies in a later one.
-/

namespace FundingVaults

/-! ## Caps and periods -/

/-- The monthly share of a deposit: the annual share first, a twelfth of it second, both rounded
down. -/
def monthlyShare (deposit bps : ℕ) : ℕ := deposit * bps / 10000 / 12

/-- Seconds in a period. -/
def periodSeconds : ℤ := 2592000

/-- The period of a time that is not before the anchor. -/
def periodOf (anchor now : I64) : ℕ := ((now.val - anchor.val) / periodSeconds).toNat

section Source

variable {ε : Type} (overflow clock early : ε)

def monthlyCap (deposit : U64) (annualReleaseBps : U16) : Except ε U64 := do
  let product ← okOr (checkedMul128 deposit.val annualReleaseBps.val) overflow
  let annual := product / 10000
  let monthly := annual / 12
  okOr (U64.tryFrom monthly) overflow

def periodIndex (now anchor : I64) : Except ε U64 := do
  let elapsed ← okOr (now.checkedSub anchor) clock
  require (0 ≤ elapsed) early
  okOr (U64.tryFrom (elapsed.val / periodSeconds)) overflow

variable {overflow clock early}

/-- The cap never overflows. -/
theorem monthlyCap_eq_ok {deposit : U64} {bps : U16} {c : U64} :
    monthlyCap overflow deposit bps = .ok c ↔ c.val = monthlyShare deposit.val bps.val := by
  have hfits := mul_lt_two_pow deposit.isLt bps.isLt
  have hwide : deposit.val * bps.val < 2 ^ 128 := hfits.trans (by decide)
  simp only [monthlyCap, bind_eq_ok, okOr_eq_ok, checkedMul128_eq_some, hwide, true_and,
    exists_eq_left', U64.tryFrom_eq_some, monthlyShare]
  constructor
  · intro h
    exact_mod_cast h.symm
  · intro h
    exact_mod_cast h.symm

theorem periodIndex_eq_ok {now anchor : I64} {k : U64} :
    periodIndex overflow clock early now anchor = .ok k ↔
      anchor ≤ now ∧ now.val - anchor.val < 2 ^ 63 ∧ k.val = periodOf anchor now := by
  simp only [periodIndex, bind_eq_ok, okOr_eq_ok, require_eq_ok, exists_const, I64.le_iff,
    I64.val_zero, I64.checkedSub_eq_some, U64.tryFrom_eq_some, periodOf, periodSeconds]
  constructor
  · rintro ⟨e, he, h₀, hk⟩
    have := e.lt
    rw [he]
    exact ⟨by omega, by omega, by omega⟩
  · rintro ⟨hle, hlt, hk⟩
    exact ⟨⟨now.val - anchor.val, by omega, hlt⟩, rfl, by dsimp only; omega, by dsimp only; omega⟩

theorem periodOf_mono {anchor t now : I64} (h : t ≤ now) :
    periodOf anchor t ≤ periodOf anchor now := by
  rw [I64.le_iff] at h
  unfold periodOf periodSeconds
  omega

end Source

/-! ## Counters of the current period -/

section Counters

variable {ε : Type} (p f : ε → ℕ)

/-- What the events of a history weigh in period `k`. -/
def spentIn (k : ℕ) (xs : List ε) : ℕ := tally f (fun e ↦ p e = k) xs

/-- What the events of a history weigh together. -/
def spent (xs : List ε) : ℕ := (xs.map f).sum

/-- `used` is the total of the period `cur`, and no event lies in a later period. -/
structure Counts (xs : List ε) (cur used : ℕ) : Prop where
  used : used = spentIn p f cur xs
  latest : ∀ e ∈ xs, p e ≤ cur

variable {p f} {xs : List ε} {e : ε} {cur used k cap : ℕ}

@[simp] theorem spentIn_nil : spentIn p f k [] = 0 := rfl

@[simp] theorem spentIn_snoc :
    spentIn p f k (xs ++ [e]) = spentIn p f k xs + if p e = k then f e else 0 := tally_snoc

@[simp] theorem spent_nil : spent f [] = 0 := rfl

@[simp] theorem spent_snoc : spent f (xs ++ [e]) = spent f xs + f e := by simp [spent]

namespace Counts

theorem nil : Counts p f [] 0 0 := ⟨rfl, by simp⟩

/-- Nothing is spent yet in a later period. -/
theorem spentIn_of_lt (h : Counts p f xs cur used) (hk : cur < k) : spentIn p f k xs = 0 := by
  refine tally_eq_zero fun e he hp ↦ ?_
  have hle := h.latest e he
  omega

/-- The counter, read as zero in a later period, is what the period has spent. -/
theorem rolled (h : Counts p f xs cur used) (hk : cur ≤ k) :
    (if cur < k then 0 else used) = spentIn p f k xs := by
  split
  · next hlt => exact (h.spentIn_of_lt hlt).symm
  · next hlt =>
    obtain rfl : cur = k := by omega
    exact h.used

/-- The counters after an event in the current or a later period. -/
theorem snoc (h : Counts p f xs cur used) (hk : cur ≤ p e) :
    Counts p f (xs ++ [e]) (p e) ((if cur < p e then 0 else used) + f e) where
  used := by simp [h.rolled hk]
  latest x hx := by
    rcases List.mem_append.mp hx with hx | hx
    · exact (h.latest x hx).trans hk
    · rw [List.mem_singleton.mp hx]

end Counts

/-- Counters of the period of the last event. -/
structure Meter (p f : ε → ℕ) (xs : List ε) (cur used : ℕ) : Prop
    extends Counts p f xs cur used where
  reached : cur = 0 ∨ ∃ e ∈ xs, p e = cur

namespace Meter

theorem nil : Meter p f [] 0 0 := ⟨Counts.nil, .inl rfl⟩

/-- No period before that of the last event is current. -/
theorem le (h : Meter p f xs cur used) (hlast : ∀ x ∈ xs, p x ≤ k) : cur ≤ k := by
  rcases h.reached with rfl | ⟨x, hx, rfl⟩
  · exact Nat.zero_le k
  · exact hlast x hx

theorem snoc (h : Meter p f xs cur used) (hlast : ∀ x ∈ xs, p x ≤ p e) :
    Meter p f (xs ++ [e]) (p e) ((if cur < p e then 0 else used) + f e) where
  toCounts := h.toCounts.snoc (h.le hlast)
  reached := .inr ⟨e, List.mem_append_right _ (List.mem_singleton_self e), rfl⟩

end Meter

/-- A bound on every period is kept by an event that keeps it in its own. -/
theorem spentIn_le_snoc (h : ∀ k, spentIn p f k xs ≤ cap)
    (he : spentIn p f (p e) xs + f e ≤ cap) (k : ℕ) : spentIn p f k (xs ++ [e]) ≤ cap := by
  rw [spentIn_snoc]
  split
  · next hk =>
    subst hk
    exact he
  · exact h k

end Counters

end FundingVaults
