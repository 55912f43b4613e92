import FundingVaults.Lib.Checked
import FundingVaults.Lib.Solana
import Mathlib.Data.Nat.Basic

/-!
# The token program's checked transfer

`Tokens.transferChecked` is the documented behaviour of the token program's `TransferChecked`:
both accounts initialized and of the named mint, the decimals of the mint, an authority that is
the delegate of the source or its owner, and enough tokens.  A transfer of an account to itself
checks all of this and moves nothing.

An account that has one owner and no delegate is in the hands of that owner alone.  `Held` is a
lower bound on its balance, which a transfer by anyone else can only raise.
-/

namespace FundingVaults

namespace TokenAccount

variable (a : TokenAccount)

/-- What is left when `authority` takes `amount` out. -/
def debit (authority : Pubkey) (amount : ℕ) : Option TokenAccount :=
  if a.delegate = some authority then
    if amount ≤ a.delegatedAmount then
      some { a with
        amount := a.amount - amount
        delegatedAmount := a.delegatedAmount - amount
        delegate := if a.delegatedAmount = amount then none else a.delegate }
    else none
  else if a.owner = authority then some { a with amount := a.amount - amount }
  else none

def credit (amount : ℕ) : TokenAccount := { a with amount := a.amount + amount }

/-- The account is in the hands of `owner` alone. -/
structure SoleOwner (mint owner : Pubkey) : Prop where
  mint : a.mint = mint
  owner : a.owner = owner
  state : a.state = .initialized
  delegate : a.delegate = none
  closeAuthority : a.closeAuthority = none

end TokenAccount

namespace Tokens

variable (T : Tokens)

def transferChecked (t : TransferChecked) : Option Tokens := do
  let source ← T.account t.source
  let destination ← T.account t.destination
  let mint ← T.mint t.mint
  if source.state = .initialized ∧ destination.state = .initialized ∧ t.amount ≤ source.amount ∧
      source.mint = t.mint ∧ destination.mint = t.mint ∧ mint.isInitialized ∧
      mint.decimals = t.decimals then
    let debited ← source.debit t.authority t.amount
    if t.source = t.destination then some T
    else some { T with
      account := Function.update (Function.update T.account t.source (some debited))
        t.destination (some (destination.credit t.amount)) }
  else none

/-- The tokens after `amount` is moved between two accounts. -/
def move (source destination : Pubkey) (amount : ℕ) : Tokens :=
  { T with account := fun key ↦ (T.account key).map fun a ↦ { a with
      amount := a.amount + (if key = destination then amount else 0) -
        if key = source then amount else 0 } }

/-- The mint is initialized and nobody can freeze its accounts. -/
def Unfreezable (mint : Pubkey) : Prop :=
  ∃ m, T.mint mint = some m ∧ m.isInitialized ∧ m.freezeAuthority = none

/-- The account at `key` is in the hands of `owner` alone and holds at least `amount`. -/
def Held (key mint owner : Pubkey) (amount : ℕ) : Prop :=
  ∃ a, T.account key = some a ∧ a.SoleOwner mint owner ∧ amount ≤ a.amount

variable {T} {T' : Tokens} {t : TransferChecked} {key mint owner : Pubkey} {n : ℕ}

theorem transferChecked_eq_some :
    T.transferChecked t = some T' ↔ ∃ source destination mint debited,
      T.account t.source = some source ∧ T.account t.destination = some destination ∧
        T.mint t.mint = some mint ∧ (source.state = .initialized ∧
          destination.state = .initialized ∧ t.amount ≤ source.amount ∧ source.mint = t.mint ∧
          destination.mint = t.mint ∧ mint.isInitialized ∧ mint.decimals = t.decimals) ∧
        source.debit t.authority t.amount = some debited ∧
        (if t.source = t.destination then T
          else { T with
            account := Function.update (Function.update T.account t.source (some debited))
              t.destination (some (destination.credit t.amount)) }) = T' := by
  simp only [transferChecked, bind, Option.bind_eq_some_iff, Option.ite_none_right_eq_some]
  constructor
  · rintro ⟨a, ha, b, hb, m, hm, hc, x, hx, h⟩
    refine ⟨a, b, m, x, ha, hb, hm, hc, hx, ?_⟩
    split at h <;> simp_all
  · rintro ⟨a, b, m, x, ha, hb, hm, hc, hx, h⟩
    refine ⟨a, ha, b, hb, m, hm, hc, x, hx, ?_⟩
    split <;> simp_all

/-- The owner of an account without a delegate moves what is there. -/
theorem transferChecked_of_soleOwner {a : TokenAccount} (ha : T.account t.source = some a)
    (ho : a.SoleOwner t.mint t.authority) :
    T.transferChecked t = some T' ↔ ∃ b m, T.account t.destination = some b ∧
      b.state = .initialized ∧ b.mint = t.mint ∧ T.mint t.mint = some m ∧ m.isInitialized ∧
      m.decimals = t.decimals ∧ t.amount ≤ a.amount ∧
      T.move t.source t.destination t.amount = T' := by
  have hdebit : a.debit t.authority t.amount = some { a with amount := a.amount - t.amount } := by
    simp [TokenAccount.debit, ho.delegate, ho.owner]
  have hmove : ∀ b, T.account t.destination = some b → t.amount ≤ a.amount →
      (if t.source = t.destination then T
        else { T with
          account := Function.update (Function.update T.account t.source
            (some { a with amount := a.amount - t.amount }))
            t.destination (some (b.credit t.amount)) }) =
        T.move t.source t.destination t.amount := by
    intro b hb hle
    unfold move
    split
    · next heq =>
      cases T
      congr
      funext k
      by_cases hk : k = t.destination
      · subst hk
        simp only at hb
        simp [hb, heq]
      · simp [hk, heq]
    · next hne =>
      congr
      funext k
      by_cases hd : k = t.destination
      · subst hd
        simp [hb, Ne.symm hne, TokenAccount.credit]
      · by_cases hs : k = t.source
        · subst hs
          simp [ha, hd]
        · simp [hd, hs]
  rw [transferChecked_eq_some]
  constructor
  · rintro ⟨a', b, m, x, ha', hb, hm, ⟨-, hbs, hle, -, hbm, hi, hdec⟩, hx, h⟩
    obtain rfl := Option.some.inj (ha.symm.trans ha')
    obtain rfl := Option.some.inj (hdebit.symm.trans hx)
    exact ⟨b, m, hb, hbs, hbm, hm, hi, hdec, hle, (hmove b hb hle).symm.trans h⟩
  · rintro ⟨b, m, hb, hbs, hbm, hm, hi, hdec, hle, h⟩
    exact ⟨a, b, m, _, ha, hb, hm, ⟨ho.state, hbs, hle, ho.mint, hbm, hi, hdec⟩, hdebit,
      (hmove b hb hle).trans h⟩

/-- Nobody else's transfer to another account touches an account that has one owner. -/
theorem transferChecked_account {a : TokenAccount} (ht : T.transferChecked t = some T')
    (ha : T.account key = some a) (ho : a.SoleOwner mint owner) (hne : t.authority ≠ owner)
    (hd : t.destination ≠ key) : T'.account key = some a := by
  rw [transferChecked_eq_some] at ht
  obtain ⟨s, b, m, x, hs, hb, -, -, hx, rfl⟩ := ht
  have hsource : key ≠ t.source := by
    rintro rfl
    obtain rfl := Option.some.inj (ha.symm.trans hs)
    simp [TokenAccount.debit, ho.delegate, ho.owner, Ne.symm hne] at hx
  split
  · exact ha
  · simp [Ne.symm hd, hsource, ha]

/-- What the receiver has after a transfer. -/
theorem transferChecked_credit {b : TokenAccount} (ht : T.transferChecked t = some T')
    (hb : T.account t.destination = some b) (hne : t.source ≠ t.destination) :
    T'.account t.destination = some (b.credit t.amount) := by
  rw [transferChecked_eq_some] at ht
  obtain ⟨s, b', m, x, hs, hb', -, -, hx, rfl⟩ := ht
  obtain rfl := Option.some.inj (hb.symm.trans hb')
  simp [hne]

/-- What the owner has after a transfer. -/
theorem transferChecked_debit {a : TokenAccount} (ht : T.transferChecked t = some T')
    (ha : T.account t.source = some a) (ho : a.SoleOwner t.mint t.authority)
    (hne : t.source ≠ t.destination) :
    t.amount ≤ a.amount ∧ T'.account t.source = some { a with amount := a.amount - t.amount } := by
  obtain ⟨b, m, -, -, -, -, -, -, hle, rfl⟩ := (transferChecked_of_soleOwner ha ho).mp ht
  exact ⟨hle, by simp [move, ha, hne]⟩

/-! ## Balances in custody -/

namespace Held

/-- Nobody else's transfer takes anything out. -/
theorem transfer (h : T.Held key mint owner n) (ht : T.transferChecked t = some T')
    (hne : t.authority ≠ owner) : T'.Held key mint owner n := by
  obtain ⟨a, ha, ho, hle⟩ := h
  rw [transferChecked_eq_some] at ht
  obtain ⟨s, b, m, x, hs, hb, -, -, hx, rfl⟩ := ht
  have hsource : key ≠ t.source := by
    rintro rfl
    obtain rfl := Option.some.inj (ha.symm.trans hs)
    simp [TokenAccount.debit, ho.delegate, ho.owner, Ne.symm hne] at hx
  split
  · exact ⟨a, ha, ho, hle⟩
  · by_cases hd : key = t.destination
    · subst hd
      obtain rfl := Option.some.inj (ha.symm.trans hb)
      exact ⟨a.credit t.amount, by simp,
        ⟨ho.mint, ho.owner, ho.state, ho.delegate, ho.closeAuthority⟩,
        hle.trans (Nat.le_add_right _ _)⟩
    · exact ⟨a, by simp [hd, hsource, ha], ho, hle⟩

/-- What anyone else pays in is there. -/
theorem receive (h : T.Held key mint owner n) (ht : T.transferChecked t = some T')
    (hne : t.authority ≠ owner) (hd : t.destination = key) :
    T'.Held key mint owner (n + t.amount) := by
  obtain ⟨a, ha, ho, hle⟩ := h
  rw [transferChecked_eq_some] at ht
  obtain ⟨s, b, m, x, hs, hb, -, -, hx, rfl⟩ := ht
  subst hd
  obtain rfl := Option.some.inj (ha.symm.trans hb)
  have hsource : t.source ≠ t.destination := by
    intro heq
    rw [heq] at hs
    obtain rfl := Option.some.inj (hs.symm.trans ha)
    simp [TokenAccount.debit, ho.delegate, ho.owner, Ne.symm hne] at hx
  rw [if_neg hsource]
  exact ⟨a.credit t.amount, by simp,
    ⟨ho.mint, ho.owner, ho.state, ho.delegate, ho.closeAuthority⟩, Nat.add_le_add_right hle _⟩

/-- The owner takes out no more than the amount of the transfer. -/
theorem pay (h : T.Held key mint owner n) (ht : T.transferChecked t = some T')
    (hm : t.mint = mint) (ho : t.authority = owner) (hs : t.source = key) :
    T'.Held key mint owner (n - t.amount) := by
  obtain ⟨a, ha, hown, hle⟩ := h
  subst hm ho hs
  obtain ⟨b, m, -, -, -, -, -, -, hle', rfl⟩ := (transferChecked_of_soleOwner ha hown).mp ht
  have hleft : n - t.amount ≤
      a.amount + (if t.source = t.destination then t.amount else 0) - t.amount := by
    split <;> omega
  exact ⟨{ a with
      amount := a.amount + (if t.source = t.destination then t.amount else 0) - t.amount },
    by simp [move, ha],
    ⟨hown.mint, hown.owner, hown.state, hown.delegate, hown.closeAuthority⟩, hleft⟩

theorem mono {n' : ℕ} (h : T.Held key mint owner n) (hle : n' ≤ n) : T.Held key mint owner n' := by
  obtain ⟨a, ha, ho, hn⟩ := h
  exact ⟨a, ha, ho, hle.trans hn⟩

end Held

/-- A transfer changes no mint. -/
theorem transferChecked_mint (ht : T.transferChecked t = some T') : T'.mint = T.mint := by
  rw [transferChecked_eq_some] at ht
  obtain ⟨s, b, m, x, -, -, -, -, -, rfl⟩ := ht
  split <;> rfl

/-! ## Balances after several transfers -/

/-- `T'` is `T` with every balance changed by `net`. -/
structure Moved (T : Tokens) (net : Pubkey → ℤ) (T' : Tokens) : Prop where
  mint : T'.mint = T.mint
  account : ∀ key, T'.account key = (T.account key).map fun a ↦
    { a with amount := (a.amount + net key).toNat }
  solvent : ∀ key a, T.account key = some a → 0 ≤ a.amount + net key

namespace Moved

variable {net : Pubkey → ℤ}

theorem refl (T : Tokens) : T.Moved (fun _ ↦ 0) T where
  mint := rfl
  account key := by cases h : T.account key <;> simp
  solvent key a _ := by omega

theorem of_account {a : TokenAccount} (h : T.Moved net T') (ha : T.account key = some a) :
    ∃ n : ℕ, T'.account key = some { a with amount := n } ∧ (n : ℤ) = a.amount + net key :=
  ⟨_, by rw [h.account, ha]; rfl, Int.toNat_of_nonneg (h.solvent key a ha)⟩

theorem exists_account {b : TokenAccount} (h : T.Moved net T') (hb : T'.account key = some b) :
    ∃ a, T.account key = some a ∧ b = { a with amount := b.amount } := by
  rw [h.account, Option.map_eq_some_iff] at hb
  obtain ⟨a, ha, rfl⟩ := hb
  exact ⟨a, ha, rfl⟩

/-- The balances are determined. -/
theorem unique {T'' : Tokens} (h : T.Moved net T') (h' : T.Moved net T'') : T' = T'' := by
  have haccount : T'.account = T''.account := funext fun key ↦ by rw [h.account, h'.account]
  have hmint := h.mint.trans h'.mint.symm
  cases T'
  cases T''
  cases haccount
  cases hmint
  rfl

/-- One more transfer, of what is there. -/
theorem move {a : TokenAccount} {source destination : Pubkey} (h : T.Moved net T')
    (ha : T'.account source = some a) (hn : n ≤ a.amount) :
    T.Moved (fun key ↦ net key +
      ((if key = destination then (n : ℤ) else 0) - if key = source then (n : ℤ) else 0))
      (T'.move source destination n) where
  mint := h.mint
  account key := by
    cases hb : T.account key with
    | none => simp [Tokens.move, h.account, hb]
    | some b =>
      obtain ⟨m, hm, hval⟩ := h.of_account hb
      simp only [Tokens.move, hm, Option.map_some, Option.some.injEq, TokenAccount.mk.injEq,
        true_and, and_true]
      split <;> split <;> omega
  solvent key b hb := by
    obtain ⟨m, hm, hval⟩ := h.of_account hb
    by_cases hs : key = source
    · subst hs
      obtain rfl : a = { b with amount := m } := Option.some.inj (ha.symm.trans hm)
      have hn : n ≤ m := hn
      split <;> omega
    · rw [if_neg hs]
      split <;> omega

end Moved

end Tokens

end FundingVaults
