import Mathlib.Algebra.Order.Ring.Int
import Mathlib.Data.Int.Order.Basic
import Mathlib.Data.List.Forall2
import Mathlib.Order.Fin.Basic
import Mathlib.Order.Lattice
import Mathlib.Tactic.Common

/-!
# Fallible programs over machine integers

A handler that checks a list of conditions, does a few overflow-checked additions and then
commits is an `Except` program built from three pieces: `require`, `okOr` and `checkedAdd` /
`checkedSub`.  This file gives each piece one inversion lemma of the shape `… = .ok r ↔ …`.
All of them are simp lemmas, so `simp` turns the success of a straight-line handler into the
conjunction of its guards and an equation for its result, and back.

Unsigned integers are `Fin (2 ^ w)`, whose bound `omega` knows.  Signed 64-bit integers are a
structure over `ℤ` that carries its range.
-/

namespace FundingVaults

universe u v w

/-! ## Guards and binds -/

section Except

variable {ε : Type u} {α β : Type v}

/-- Fail with `e` unless `c` holds. -/
def require {ε : Type u} (c : Prop) [Decidable c] (e : ε) : Except ε Unit :=
  if c then .ok () else .error e

/-- The value of an option, or the failure `e`. -/
def okOr (o : Option α) (e : ε) : Except ε α :=
  match o with
  | some a => .ok a
  | none => .error e

@[simp] theorem require_eq_ok {c : Prop} [Decidable c] {e : ε} {u : Unit} :
    require c e = .ok u ↔ c := by
  unfold require
  split <;> simp_all

@[simp] theorem okOr_eq_ok {o : Option α} {e : ε} {a : α} : okOr o e = .ok a ↔ o = some a := by
  cases o <;> simp [okOr]

@[simp] theorem bind_eq_ok {x : Except ε α} {f : α → Except ε β} {b : β} :
    (x >>= f) = .ok b ↔ ∃ a, x = .ok a ∧ f a = .ok b := by
  cases x <;> simp [bind, Except.bind]

@[simp] theorem pure_eq_ok {a b : α} : (pure a : Except ε α) = .ok b ↔ a = b := by
  simp [pure, Except.pure]

@[simp] theorem throw_eq_ok {e : ε} {b : α} : (throw e : Except ε α) = .ok b ↔ False := by
  simp [throw, throwThe, MonadExceptOf.throw]

@[simp] theorem map_eq_ok {f : α → β} {x : Except ε α} {b : β} :
    (f <$> x) = .ok b ↔ ∃ a, x = .ok a ∧ f a = b := by
  cases x <;> simp [Functor.map, Except.map]

theorem require_eq_error {c : Prop} [Decidable c] {e e' : ε} :
    require c e = .error e' ↔ ¬ c ∧ e = e' := by
  unfold require
  split <;> simp_all

theorem okOr_eq_error {o : Option α} {e e' : ε} :
    okOr o e = .error e' ↔ o = none ∧ e = e' := by
  cases o <;> simp [okOr]

/-- A failure of a sequence is the failure of one of its parts, after which nothing runs. -/
theorem bind_eq_error {x : Except ε α} {f : α → Except ε β} {e : ε} :
    (x >>= f) = .error e ↔ x = .error e ∨ ∃ a, x = .ok a ∧ f a = .error e := by
  cases x <;> simp [bind, Except.bind]

/-- A loop succeeds when it does at each element. -/
theorem mapM_eq_ok {f : α → Except ε β} {as : List α} {bs : List β} :
    as.mapM f = .ok bs ↔ List.Forall₂ (fun a b ↦ f a = .ok b) as bs := by
  induction as generalizing bs with
  | nil =>
    rw [List.mapM_nil, pure_eq_ok, List.forall₂_nil_left_iff]
    exact eq_comm
  | cons a as ih =>
    simp only [List.mapM_cons, bind_eq_ok, pure_eq_ok, ih, List.forall₂_cons_left_iff]
    constructor
    · rintro ⟨b, hb, bs', hbs, rfl⟩
      exact ⟨b, bs', hb, hbs, rfl⟩
    · rintro ⟨b, bs', hb, hbs, rfl⟩
      exact ⟨b, hb, bs', hbs, rfl⟩

theorem ok_of_mapM {f : α → Except ε β} {as : List α} {bs : List β} (h : as.mapM f = .ok bs)
    {a : α} (ha : a ∈ as) : ∃ b ∈ bs, f a = .ok b := by
  have hrel := mapM_eq_ok.mp h
  clear h
  induction hrel with
  | nil => exact absurd ha (by simp)
  | cons hf _ ih =>
    rcases List.mem_cons.mp ha with rfl | ha
    · exact ⟨_, List.mem_cons_self, hf⟩
    · obtain ⟨b, hb, hfa⟩ := ih ha
      exact ⟨b, List.mem_cons_of_mem _ hb, hfa⟩

theorem exists_of_mapM {f : α → Except ε β} {as : List α} {bs : List β} (h : as.mapM f = .ok bs)
    {b : β} (hb : b ∈ bs) : ∃ a ∈ as, f a = .ok b := by
  have hrel := mapM_eq_ok.mp h
  clear h
  induction hrel with
  | nil => exact absurd hb (by simp)
  | cons hf _ ih =>
    rcases List.mem_cons.mp hb with rfl | hb
    · exact ⟨_, List.mem_cons_self, hf⟩
    · obtain ⟨a, ha, hfa⟩ := ih hb
      exact ⟨a, List.mem_cons_of_mem _ ha, hfa⟩

/-- What every turn of a loop keeps of its element, the loop keeps of its list. -/
theorem map_of_mapM {γ : Type w} {f : α → Except ε β} {g : β → γ} {k : α → γ} {as : List α}
    {bs : List β} (h : as.mapM f = .ok bs) (hf : ∀ {a b}, f a = .ok b → g b = k a) :
    bs.map g = as.map k := by
  have hrel := mapM_eq_ok.mp h
  clear h
  induction hrel with
  | nil => rfl
  | cons hx _ ih => rw [List.map_cons, List.map_cons, ih, hf hx]

theorem mapM_congr {f g : α → Except ε β} {as : List α} (h : ∀ a ∈ as, f a = g a) :
    as.mapM f = as.mapM g := by
  induction as with
  | nil => rfl
  | cons a as ih =>
    rw [List.mapM_cons, List.mapM_cons, h a List.mem_cons_self,
      ih fun a' ha' ↦ h a' (List.mem_cons_of_mem a ha')]

theorem forM_eq_ok {f : α → Except ε PUnit} {as : List α} {u : PUnit} :
    forM as f = .ok u ↔ ∀ a ∈ as, f a = .ok ⟨⟩ := by
  induction as with
  | nil => simp
  | cons a as ih =>
    rw [List.forM_cons, List.forall_mem_cons, bind_eq_ok, ← ih]
    exact ⟨fun ⟨_, h⟩ ↦ h, fun h ↦ ⟨_, h⟩⟩

end Except

/-! ## Lent state

A function with `&mut` parameters writes to what its caller lends it, and a failure does not undo
what is already written.  If every check stands before the first write, the function is the pure
one that returns the new state. -/

/-- A fallible computation on lent state. -/
abbrev Lent (ε σ : Type u) := ExceptT ε (StateM σ)

namespace Lent

variable {ε σ α : Type u} {s : σ}

/-- A computation that does not write. -/
def check (x : Except ε α) : Lent ε σ α := ExceptT.mk (pure x)

/-- What a function leaves of `s` if it writes only once it can no longer fail. -/
def commit (x : Except ε σ) (s : σ) : Except ε PUnit × σ :=
  match x with
  | .ok s' => (.ok ⟨⟩, s')
  | .error e => (.error e, s)

theorem get_bind_run {f : σ → Lent ε σ PUnit} : (get >>= f).run.run s = (f s).run.run s := rfl

/-- The rule for a check at the head. -/
theorem check_bind_run {x : Except ε α} {f : α → Lent ε σ PUnit} {g : α → Except ε σ}
    (h : ∀ a, (f a).run.run s = commit (g a) s) :
    (check x >>= f).run.run s = commit (x >>= g) s := by
  cases x with
  | error e => rfl
  | ok a => exact h a

/-- A failure has written nothing. -/
theorem commit_error {x : Except ε σ} {e : ε} {s' : σ} (h : commit x s = (.error e, s')) :
    x = .error e ∧ s' = s := by
  cases x with
  | error e' =>
    simp only [commit, Prod.mk.injEq, Except.error.injEq] at h
    exact ⟨by rw [h.1], h.2.symm⟩
  | ok a => simp [commit] at h

end Lent

/-! ## Unsigned integers -/

abbrev U8 := UInt8
abbrev U16 := Fin (2 ^ 16)
abbrev U32 := Fin (2 ^ 32)
abbrev U64 := Fin (2 ^ 64)

instance U16.neZero : NeZero (2 ^ 16) := ⟨by decide⟩
instance U32.neZero : NeZero (2 ^ 32) := ⟨by decide⟩
instance U64.neZero : NeZero (2 ^ 64) := ⟨by decide⟩

/-- Addition, `none` on overflow. -/
def U32.checkedAdd (a b : U32) : Option U32 :=
  if h : a.val + b.val < 2 ^ 32 then some ⟨a.val + b.val, h⟩ else none

namespace U64

/-- The wrapping cast `as u64` of a signed integer. -/
def ofInt (x : ℤ) : U64 := ⟨(x % 2 ^ 64).toNat, by omega⟩

/-- The wrapping cast `as u64` of a wider unsigned integer. -/
def ofNat (x : ℕ) : U64 := ⟨x % 2 ^ 64, by omega⟩

/-- The checked conversion `u64::try_from`. -/
def tryFrom (x : ℤ) : Option U64 :=
  if h : 0 ≤ x ∧ x < 2 ^ 64 then some ⟨x.toNat, by omega⟩ else none

/-- Addition, `none` on overflow. -/
def checkedAdd (a b : U64) : Option U64 :=
  if h : a.val + b.val < 2 ^ 64 then some ⟨a.val + b.val, h⟩ else none

/-- Subtraction, `none` on underflow. -/
def checkedSub (a b : U64) : Option U64 :=
  if b.val ≤ a.val then some ⟨a.val - b.val, by omega⟩ else none

@[simp] theorem val_zero : (0 : U64).val = 0 := rfl
@[simp] theorem val_one : (1 : U64).val = 1 := rfl

theorem ofInt_val {x : ℤ} (h₀ : 0 ≤ x) (h₁ : x < 2 ^ 64) : ((ofInt x).val : ℤ) = x := by
  simp only [ofInt]
  omega

theorem ofNat_val {x : ℕ} (h : x < 2 ^ 64) : (ofNat x).val = x := Nat.mod_eq_of_lt h

theorem tryFrom_eq_some {x : ℤ} {a : U64} : tryFrom x = some a ↔ x = a.val := by
  have := a.isLt
  unfold tryFrom
  split
  · simp only [Option.some.injEq, Fin.ext_iff]
    omega
  · simp only [reduceCtorEq, false_iff]
    omega

theorem ofNat_val_self (a : U64) : ofNat a.val = a := Fin.ext (ofNat_val a.isLt)

@[simp] theorem val_min (a b : U64) : (min a b).val = min a.val b.val := by
  rcases le_total a b with h | h
  · rw [min_eq_left h, min_eq_left (Fin.le_def.mp h)]
  · rw [min_eq_right h, min_eq_right (Fin.le_def.mp h)]

theorem checkedAdd_eq_some {a b c : U64} :
    checkedAdd a b = some c ↔ a.val + b.val = c.val := by
  unfold checkedAdd
  split
  · simp [Fin.ext_iff]
  · have := c.isLt
    simp only [reduceCtorEq, false_iff]
    omega

theorem checkedSub_eq_some {a b c : U64} :
    checkedSub a b = some c ↔ a.val = b.val + c.val := by
  unfold checkedSub
  split
  · simp only [Option.some.injEq, Fin.ext_iff]
    omega
  · simp only [reduceCtorEq, false_iff]
    omega

theorem checkedAdd_eq_none {a b : U64} : checkedAdd a b = none ↔ 2 ^ 64 ≤ a.val + b.val := by
  simp [checkedAdd]

/-- A difference that does not underflow is the value of some `U64`. -/
theorem exists_sub {a b : U64} (h : b.val ≤ a.val) : ∃ c : U64, a.val = b.val + c.val :=
  ⟨⟨a.val - b.val, by omega⟩, by simp only; omega⟩

theorem val_eq_sub {a b c : U64} (h : a.val = b.val + c.val) : c.val = a.val - b.val := by
  omega

/-- A number in range is the value of some `U64`. -/
theorem exists_val_eq {x : ℕ} (h : x < 2 ^ 64) : ∃ a : U64, x = a.val := ⟨⟨x, h⟩, rfl⟩

end U64

/-! ## Wide products -/

/-- A product of `u128` values, `none` on overflow. -/
def checkedMul128 (a b : ℕ) : Option ℕ := if a * b < 2 ^ 128 then some (a * b) else none

theorem checkedMul128_eq_some {a b c : ℕ} :
    checkedMul128 a b = some c ↔ a * b < 2 ^ 128 ∧ a * b = c := by
  simp [checkedMul128, Option.ite_none_right_eq_some]

/-- Factors of `i` and `j` bits fit. -/
theorem mul_lt_two_pow {a b i j : ℕ} (ha : a < 2 ^ i) (hb : b < 2 ^ j) : a * b < 2 ^ (i + j) := by
  rw [Nat.pow_add]
  exact Nat.mul_lt_mul'' ha hb

/-! ## Signed integers -/

/-- A signed 64-bit integer. -/
@[ext]
structure I64 where
  /-- The integer itself. -/
  val : ℤ
  ge : -2 ^ 63 ≤ val
  lt : val < 2 ^ 63
deriving DecidableEq

namespace I64

instance : LE I64 := ⟨fun a b ↦ a.val ≤ b.val⟩
instance : LT I64 := ⟨fun a b ↦ a.val < b.val⟩
instance : Zero I64 := ⟨⟨0, by decide, by decide⟩⟩

instance (a b : I64) : Decidable (a ≤ b) := inferInstanceAs (Decidable (a.val ≤ b.val))
instance (a b : I64) : Decidable (a < b) := inferInstanceAs (Decidable (a.val < b.val))

theorem le_iff {a b : I64} : a ≤ b ↔ a.val ≤ b.val := Iff.rfl
theorem lt_iff {a b : I64} : a < b ↔ a.val < b.val := Iff.rfl

theorem not_lt {a b : I64} : ¬ a < b ↔ b ≤ a := by
  rw [lt_iff, le_iff]
  omega

@[simp] theorem val_zero : (0 : I64).val = 0 := rfl

/-- The integer `x` if it is in range. -/
def ofInt? (x : ℤ) : Option I64 :=
  if h : -2 ^ 63 ≤ x ∧ x < 2 ^ 63 then some ⟨x, h.1, h.2⟩ else none

/-- Addition, `none` on overflow. -/
def checkedAdd (a b : I64) : Option I64 := ofInt? (a.val + b.val)

/-- Subtraction, `none` on overflow. -/
def checkedSub (a b : I64) : Option I64 := ofInt? (a.val - b.val)

theorem ofInt?_eq_some {x : ℤ} {a : I64} : ofInt? x = some a ↔ x = a.val := by
  unfold ofInt?
  split
  · simp [I64.ext_iff]
  · have := a.ge
    have := a.lt
    simp only [reduceCtorEq, false_iff]
    omega

theorem checkedAdd_eq_some {a b c : I64} :
    checkedAdd a b = some c ↔ a.val + b.val = c.val := ofInt?_eq_some

theorem checkedSub_eq_some {a b c : I64} :
    checkedSub a b = some c ↔ a.val - b.val = c.val := ofInt?_eq_some

/-- A value in range is the value of some `I64`. -/
theorem exists_val_eq {x : ℤ} (h₀ : -2 ^ 63 ≤ x) (h₁ : x < 2 ^ 63) : ∃ a : I64, x = a.val :=
  ⟨⟨x, h₀, h₁⟩, rfl⟩

end I64

end FundingVaults
