import FundingVaults.Lib.Token

/-!
# Programs of the Anchor framework

A program owns typed accounts at addresses that it derives from seeds, and answers instructions.
Before a handler runs, the framework checks the accounts that a transaction names: here each
check is a function that fails or returns the loaded account, with a lemma that says when it
succeeds.

The value `α` of an account, the instructions `ι` and the error codes `ε` are parameters.  `Run`
is what a program goes through among other programs: transactions it accepts, transactions it
rejects, and token movements that are none of its own.
-/

namespace FundingVaults.Anchor

variable {α β ι ε : Type}

/-! ## Failures -/

/-- The checks that the framework makes. -/
inductive Check where
  | AccountNotSigner
  | AccountNotInitialized
  | AccountAlreadyInUse
  | ConstraintSeeds
  | ConstraintHasOne
  | ConstraintTokenMint
  | ConstraintTokenOwner
  | ConstraintAddress
deriving DecidableEq, Repr

/-- Why a transaction fails: a check of the framework, an error code of the program, or a call to
another program. -/
inductive Failure (ε : Type) where
  | check (c : Check)
  | program (e : ε)
  | call
deriving DecidableEq, Repr

instance Failure.coeCheck : Coe Check (Failure ε) := ⟨.check⟩
instance Failure.coeProgram : Coe ε (Failure ε) := ⟨.program⟩

abbrev Result (ε : Type) := Except (Failure ε)

/-! ## Accounts -/

/-- The seeds an account's address is derived from, and the bump it stores. -/
class Derived (α : Type) where
  seeds : α → List Bytes
  bump : α → U8

/-- The accounts of a program, and the tokens. -/
structure Ledger (α : Type) where
  program : Pubkey → Option α
  tokens : Tokens

/-- A loaded account: its address and its data. -/
structure Account (β : Type) where
  key : Pubkey
  data : β

/-- An account the framework has just created. -/
structure Init where
  key : Pubkey
  bump : U8

namespace Ledger

variable (L : Ledger α) (key : Pubkey)

/-- No account exists at the address. -/
def vacant : Bool :=
  (L.program key).isNone && (L.tokens.account key).isNone && (L.tokens.mint key).isNone

def write (a : α) : Ledger α :=
  { L with program := Function.update L.program key (some a) }

/-- The token account that `init, token::mint, token::authority` creates. -/
def createToken (mint owner : Pubkey) : Ledger α :=
  { L with tokens := { L.tokens with
      account := Function.update L.tokens.account key (some {
        mint, owner, amount := 0, delegate := none, state := .initialized
        isNative := nativeReserve mint, delegatedAmount := 0, closeAuthority := none }) } }

/-- The token program's transfer. -/
def transfer (chain : Chain) (t : TransferChecked) : Result ε (Ledger α) := do
  let tokens ← okOr (chain.transferChecked L.tokens t) Failure.call
  pure { L with tokens }

variable {L key} {L' : Ledger α} {a : α} {k : Pubkey}

theorem write_program :
    (L.write key a).program k = if k = key then some a else L.program k := by
  simp [write, Function.update_apply]

@[simp] theorem write_program_self : (L.write key a).program key = some a := by
  simp [write_program]

theorem write_program_of_ne (h : k ≠ key) : (L.write key a).program k = L.program k := by
  simp [write_program, h]

@[simp] theorem write_tokens : (L.write key a).tokens = L.tokens := rfl

@[simp] theorem createToken_program {mint owner : Pubkey} :
    (L.createToken key mint owner).program = L.program := rfl

theorem vacant_iff : L.vacant key ↔
    L.program key = none ∧ L.tokens.account key = none ∧ L.tokens.mint key = none := by
  simp [vacant, and_assoc]

theorem transfer_eq_ok {chain : Chain} {t : TransferChecked} :
    (L.transfer chain t : Result ε (Ledger α)) = .ok L' ↔
      ∃ tokens, chain.transferChecked L.tokens t = some tokens ∧ { L with tokens } = L' := by
  simp [transfer]

end Ledger

/-! ## Checks -/

section Checks

variable (chain : Chain) (id : Pubkey)

/-- `Signer<'info>`. -/
def signer (signers : List Pubkey) (key : Pubkey) : Result ε Unit :=
  require (key ∈ signers) Check.AccountNotSigner

/-- `Account<'info, T>` of a type that the program owns. -/
def loadAs (accounts : Pubkey → Option α) (as : α → Option β) (key : Pubkey) :
    Result ε (Account β) := do
  let data ← okOr ((accounts key).bind as) Check.AccountNotInitialized
  pure ⟨key, data⟩

/-- `seeds = [..], bump = b`. -/
def checkSeeds (seeds : List Bytes) (bump : U8) (key : Pubkey) : Result ε Unit :=
  require (chain.createProgramAddress (seeds ++ [[bump]]) id = some key) Check.ConstraintSeeds

/-- `init, seeds = [..], bump`. -/
def loadInit (vacant : Pubkey → Bool) (seeds : List Bytes) (key : Pubkey) : Result ε Init := do
  require ((chain.findProgramAddress seeds id).1 = key) Check.ConstraintSeeds
  require (vacant key) Check.AccountAlreadyInUse
  pure ⟨key, (chain.findProgramAddress seeds id).2⟩

/-- `has_one = x`. -/
def hasOne (stored key : Pubkey) : Result ε Unit :=
  require (stored = key) Check.ConstraintHasOne

/-- `Account<'info, Mint>`. -/
def loadMint (T : Tokens) (key : Pubkey) : Result ε (Account Mint) := do
  let m ← okOr (T.mint key) Check.AccountNotInitialized
  require m.isInitialized Check.AccountNotInitialized
  pure ⟨key, m⟩

/-- `Account<'info, TokenAccount>` with `token::mint = mint`. -/
def loadToken (T : Tokens) (key mint : Pubkey) : Result ε (Account TokenAccount) := do
  let t ← okOr (T.account key) Check.AccountNotInitialized
  require (t.state ≠ .uninitialized) Check.AccountNotInitialized
  require (t.mint = mint) Check.ConstraintTokenMint
  pure ⟨key, t⟩

/-- `token::authority = x`. -/
def tokenAuthority (t : Account TokenAccount) (authority : Pubkey) : Result ε Unit :=
  require (t.data.owner = authority) Check.ConstraintTokenOwner

variable {chain id} {signers : List Pubkey} {key : Pubkey} {seeds : List Bytes} {u : Unit}

theorem signer_eq_ok : (signer signers key : Result ε Unit) = .ok u ↔ key ∈ signers := require_eq_ok

theorem loadAs_eq_ok {accounts : Pubkey → Option α} {as : α → Option β} {acc : Account β} :
    (loadAs accounts as key : Result ε (Account β)) = .ok acc ↔
      (∃ a, accounts key = some a ∧ as a = some acc.data) ∧ acc.key = key := by
  obtain ⟨k, x⟩ := acc
  simp only [loadAs, bind_eq_ok, okOr_eq_ok, pure_eq_ok, Option.bind_eq_some_iff,
    Account.mk.injEq]
  constructor
  · rintro ⟨y, ha, rfl, rfl⟩
    exact ⟨ha, rfl⟩
  · rintro ⟨ha, rfl⟩
    exact ⟨x, ha, rfl, rfl⟩

theorem checkSeeds_eq_ok {bump : U8} :
    (checkSeeds chain id seeds bump key : Result ε Unit) = .ok u ↔
      chain.createProgramAddress (seeds ++ [[bump]]) id = some key := require_eq_ok

theorem loadInit_eq_ok {vacant : Pubkey → Bool} {i : Init} :
    (loadInit chain id vacant seeds key : Result ε Init) = .ok i ↔
      chain.findProgramAddress seeds id = (i.key, i.bump) ∧ vacant key ∧ i.key = key := by
  obtain ⟨k, b⟩ := i
  simp only [loadInit, bind_eq_ok, require_eq_ok, pure_eq_ok, exists_const, Init.mk.injEq,
    Prod.ext_iff]
  constructor
  · rintro ⟨hk, hv, rfl, rfl⟩
    exact ⟨⟨hk, rfl⟩, hv, rfl⟩
  · rintro ⟨⟨hk, rfl⟩, hv, rfl⟩
    exact ⟨hk, hv, rfl, rfl⟩

theorem hasOne_eq_ok {stored : Pubkey} :
    (hasOne stored key : Result ε Unit) = .ok u ↔ stored = key :=
  require_eq_ok

theorem loadMint_eq_ok {T : Tokens} {m : Account Mint} :
    (loadMint T key : Result ε (Account Mint)) = .ok m ↔
      T.mint key = some m.data ∧ m.data.isInitialized ∧ m.key = key := by
  obtain ⟨k, x⟩ := m
  simp only [loadMint, bind_eq_ok, okOr_eq_ok, require_eq_ok, pure_eq_ok, Account.mk.injEq,
    exists_const]
  constructor
  · rintro ⟨_, hm, hi, rfl, rfl⟩
    exact ⟨hm, hi, rfl⟩
  · rintro ⟨hm, hi, rfl⟩
    exact ⟨x, hm, hi, rfl, rfl⟩

theorem loadToken_eq_ok {T : Tokens} {mint : Pubkey} {t : Account TokenAccount} :
    (loadToken T key mint : Result ε (Account TokenAccount)) = .ok t ↔
      T.account key = some t.data ∧ t.data.state ≠ .uninitialized ∧ t.data.mint = mint ∧
        t.key = key := by
  obtain ⟨k, x⟩ := t
  simp only [loadToken, bind_eq_ok, okOr_eq_ok, require_eq_ok, pure_eq_ok, Account.mk.injEq,
    exists_const]
  constructor
  · rintro ⟨_, ht, hs, hm, rfl, rfl⟩
    exact ⟨ht, hs, hm, rfl⟩
  · rintro ⟨ht, hs, hm, rfl⟩
    exact ⟨x, ht, hs, hm, rfl, rfl⟩

theorem tokenAuthority_eq_ok {t : Account TokenAccount} {authority : Pubkey} :
    (tokenAuthority t authority : Result ε Unit) = .ok u ↔ t.data.owner = authority := require_eq_ok

end Checks

/-! ## Canonical accounts -/

section Canonical

variable [Derived α] (chain : Chain) (id : Pubkey)

/-- The account sits at the address found from its own seeds and stores the bump found with
it. -/
def Canonical (key : Pubkey) (a : α) : Prop :=
  chain.findProgramAddress (Derived.seeds a) id = (key, Derived.bump a)

/-- Every account of the program is canonical. -/
structure Ledger.Sound (L : Ledger α) : Prop where
  canonical : ∀ {key a}, L.program key = some a → Canonical chain id key a

variable {chain id} {L : Ledger α} {key : Pubkey} {a b : α}

/-- `create_program_address` accepts the stored bump. -/
theorem Canonical.create (h : Canonical chain id key a) :
    chain.createProgramAddress (Derived.seeds a ++ [[Derived.bump a]]) id = some key := by
  have hfound := chain.create_find (Derived.seeds a) id
  rwa [show chain.findProgramAddress (Derived.seeds a) id = (key, Derived.bump a) from h] at hfound

/-- A value with the same seeds and the same bump is at home at the same address. -/
theorem Canonical.congr (h : Canonical chain id key a) (hs : Derived.seeds b = Derived.seeds a)
    (hb : Derived.bump b = Derived.bump a) : Canonical chain id key b := by
  unfold Canonical
  rw [hs, hb]
  exact h

namespace Ledger.Sound

theorem write (hL : L.Sound chain id) (hc : Canonical chain id key a) :
    (L.write key a).Sound chain id where
  canonical := by
    intro k x hx
    rw [write_program] at hx
    split at hx
    · next h =>
      obtain rfl := Option.some.inj hx
      rw [h]
      exact hc
    · exact hL.canonical hx

theorem congr {L' : Ledger α} (hL : L.Sound chain id) (h : L'.program = L.program) :
    L'.Sound chain id where
  canonical hx := hL.canonical (by rwa [h] at hx)

theorem genesis (h : ∀ key, L.program key = none) : L.Sound chain id where
  canonical hx := by simp [h] at hx

end Ledger.Sound

end Canonical

/-! ## Runs -/

structure Tx (ι : Type) where
  now : I64
  signers : List Pubkey
  instruction : ι

/-- A program on its platform, and what others may do to the tokens meanwhile. -/
structure Program (α ι ε : Type) extends Chain where
  process : Ledger α → Tx ι → Result ε (Ledger α)
  external : Ledger α → Tokens → Prop

/-- What changed the ledger. -/
inductive Event (α ι : Type) where
  | accepted (before : Ledger α) (tx : Tx ι) (after : Ledger α)
  | external (before : Ledger α) (tokens : Tokens)

/-- The transaction of an event, if it is one. -/
def Event.tx? : Event α ι → Option (Tx ι)
  | .accepted _ tx _ => some tx
  | .external _ _ => none

variable {P : Program α ι ε}

inductive Run (P : Program α ι ε) : Ledger α → List (Event α ι) → Ledger α → Prop where
  | refl (L : Ledger α) : Run P L [] L
  | accepted {L₀ L L' : Ledger α} {tr : List (Event α ι)} {tx : Tx ι} :
      Run P L₀ tr L → P.process L tx = .ok L' → Run P L₀ (tr ++ [.accepted L tx L']) L'
  /-- A rejected transaction changes nothing. -/
  | rejected {L₀ L : Ledger α} {tr : List (Event α ι)} {tx : Tx ι} {e : Failure ε} :
      Run P L₀ tr L → P.process L tx = .error e → Run P L₀ tr L
  | external {L₀ L : Ledger α} {tr : List (Event α ι)} {tokens : Tokens} :
      Run P L₀ tr L → P.external L tokens →
        Run P L₀ (tr ++ [.external L tokens]) { L with tokens }

/-- The program has no account yet. -/
def Ledger.Genesis (L : Ledger α) : Prop := ∀ key, L.program key = none

/-- A history of the program from its deployment on, and the ledger it leads to. -/
def Reachable (P : Program α ι ε) (tr : List (Event α ι)) (L : Ledger α) : Prop :=
  ∃ L₀ : Ledger α, L₀.Genesis ∧ Run P L₀ tr L

section Runs

variable {L₀ L L' : Ledger α} {tr tr' : List (Event α ι)} {tx : Tx ι}

theorem Run.append (h : Run P L₀ tr L) (h' : Run P L tr' L') : Run P L₀ (tr ++ tr') L' := by
  induction h' with
  | refl => simpa using h
  | accepted _ hp ih => simpa using ih.accepted hp
  | rejected _ hp ih => exact ih.rejected hp
  | external _ he ih => simpa using ih.external he

/-- A property of the history and the ledger that holds at the start and that every event keeps
holds after every run. -/
theorem Run.invariant {I : List (Event α ι) → Ledger α → Prop} (h : Run P L₀ tr L)
    (start : I [] L₀)
    (accepted : ∀ {tr L tx L'}, Run P L₀ tr L → I tr L → P.process L tx = .ok L' →
      I (tr ++ [.accepted L tx L']) L')
    (external : ∀ {tr L tokens}, Run P L₀ tr L → I tr L → P.external L tokens →
      I (tr ++ [.external L tokens]) { L with tokens }) : I tr L := by
  induction h with
  | refl => exact start
  | accepted hr hp ih => exact accepted hr ih hp
  | rejected _ _ ih => exact ih
  | external hr he ih => exact external hr ih he

/-- Where an entry of a history stands with respect to the last one. -/
theorem eq_snoc {γ : Type} {xs pre post : List γ} {x y : γ} (h : pre ++ y :: post = xs ++ [x]) :
    (pre = xs ∧ y = x ∧ post = []) ∨ ∃ post', post = post' ++ [x] ∧ pre ++ y :: post' = xs := by
  rcases List.eq_nil_or_concat post with rfl | ⟨post, z, rfl⟩
  · obtain ⟨hpre, hy⟩ := List.append_inj' h rfl
    exact .inl ⟨hpre, List.singleton_inj.mp hy, rfl⟩
  · rw [List.concat_eq_append, ← List.cons_append, ← List.append_assoc] at h
    obtain ⟨hxs, hz⟩ := List.append_inj' h rfl
    exact .inr ⟨post, by rw [List.concat_eq_append, List.singleton_inj.mp hz], hxs⟩

/-- What a run did before, at and after one of its transactions. -/
theorem Run.split {pre post : List (Event α ι)} {before after : Ledger α}
    (h : Run P L₀ (pre ++ .accepted before tx after :: post) L) :
    Run P L₀ pre before ∧ P.process before tx = .ok after ∧ Run P after post L := by
  generalize htr : pre ++ .accepted before tx after :: post = tr at h
  induction h generalizing post with
  | refl => simp at htr
  | rejected _ hp ih =>
    obtain ⟨h₁, h₂, h₃⟩ := ih htr
    exact ⟨h₁, h₂, h₃.rejected hp⟩
  | accepted hr hp ih =>
    rcases eq_snoc htr with ⟨rfl, he, rfl⟩ | ⟨rest, rfl, hrest⟩
    · obtain ⟨rfl, rfl, rfl⟩ := Event.accepted.inj he
      exact ⟨hr, hp, .refl _⟩
    · obtain ⟨h₁, h₂, h₃⟩ := ih hrest
      exact ⟨h₁, h₂, h₃.accepted hp⟩
  | external hr he ih =>
    rcases eq_snoc htr with ⟨-, heq, -⟩ | ⟨rest, rfl, hrest⟩
    · exact absurd heq (by simp)
    · obtain ⟨h₁, h₂, h₃⟩ := ih hrest
      exact ⟨h₁, h₂, h₃.external he⟩

end Runs

/-! ## Terms -/

section Terms

variable (terms : α → β)

/-- Every account of `L` is still there in `L'`, with the same terms. -/
def Ledger.Persists (L L' : Ledger α) : Prop :=
  ∀ key a, L.program key = some a → ∃ a', L'.program key = some a' ∧ terms a' = terms a

variable {terms} {L L₀ L₁ L' : Ledger α} {key : Pubkey} {a b : α} {tr : List (Event α ι)}

namespace Ledger.Persists

theorem refl (L : Ledger α) : L.Persists terms L := fun _ a ha ↦ ⟨a, ha, rfl⟩

theorem trans (h : L.Persists terms L₁) (h' : L₁.Persists terms L') : L.Persists terms L' := by
  intro key a ha
  obtain ⟨b, hb, hba⟩ := h key a ha
  obtain ⟨c, hc, hcb⟩ := h' key b hb
  exact ⟨c, hc, hcb.trans hba⟩

theorem tokens (tokens : Tokens) : L.Persists terms { L with tokens } := fun _ a ha ↦ ⟨a, ha, rfl⟩

/-- An account that is written has been vacant or keeps its terms. -/
theorem write (h : L.Persists terms L₁) (hb : ∀ a, L.program key = some a → terms b = terms a) :
    L.Persists terms (L₁.write key b) := by
  intro k a ha
  by_cases hk : k = key
  · subst hk
    exact ⟨b, write_program_self, hb a ha⟩
  · rw [write_program_of_ne hk]
    exact h k a ha

end Ledger.Persists

/-- What every accepted transaction keeps, a run keeps. -/
theorem Run.persists (hstep : ∀ {L tx L'}, P.process L tx = .ok L' → L.Persists terms L')
    (h : Run P L₀ tr L) : L₀.Persists terms L := by
  induction h with
  | refl => exact .refl _
  | accepted _ hp ih => exact ih.trans (hstep hp)
  | rejected _ _ ih => exact ih
  | external _ _ ih => exact ih.trans (.tokens _)

end Terms

/-! ## Clocks and signatures -/

/-- The times of the transactions of a history. -/
def times (tr : List (Event α ι)) : List I64 := tr.filterMap fun e ↦ e.tx?.map Tx.now

/-- The clock of a history neither starts before zero nor runs backwards. -/
structure Clocked (tr : List (Event α ι)) : Prop where
  nonneg : ∀ t ∈ times tr, (0 : I64) ≤ t
  sorted : (times tr).Pairwise (· ≤ ·)

/-- The key is an address of the program. -/
def ProgramAddress (chain : Chain) (id key : Pubkey) : Prop :=
  ∃ seeds, chain.createProgramAddress seeds id = some key

/-- No address of the program signs a transaction: only the program itself signs for them. -/
def Unsigned (chain : Chain) (id : Pubkey) (tr : List (Event α ι)) : Prop :=
  ∀ e ∈ tr, ∀ tx, e.tx? = some tx → ∀ key ∈ tx.signers, ¬ ProgramAddress chain id key

/-- What others can do to the tokens of the addresses in `own`: nothing but add to them.  A mint
whose freeze authority is gone stays as it is. -/
structure Respects (own : Pubkey → Prop) (T T' : Tokens) : Prop where
  held : ∀ {key mint owner n}, own owner → T.Unfreezable mint → T.Held key mint owner n →
    T'.Held key mint owner n
  mint : ∀ {mint m}, T.mint mint = some m → m.isInitialized → m.freezeAuthority = none →
    ∃ m', T'.mint mint = some m' ∧ m'.isInitialized ∧ m'.freezeAuthority = none ∧
      m'.decimals = m.decimals

/-- The token program behaves as documented, and other programs respect what the program's
addresses own. -/
structure Lawful (P : Program α ι ε) (id : Pubkey) : Prop where
  transfer : P.transferChecked = Tokens.transferChecked
  external : ∀ {L tokens}, P.external L tokens →
    Respects (ProgramAddress P.toChain id) L.tokens tokens

section Clocks

variable {tr tr' : List (Event α ι)} {L L' : Ledger α} {tx : Tx ι} {tokens : Tokens}

@[simp] theorem times_append : times (tr ++ tr') = times tr ++ times tr' := by
  simp [times]

@[simp] theorem times_accepted : times [Event.accepted L tx L'] = [tx.now] := rfl

@[simp] theorem times_external : times [(Event.external L tokens : Event α ι)] = [] := rfl

theorem Clocked.of_append (h : Clocked (tr ++ tr')) : Clocked tr where
  nonneg t ht := h.nonneg t (by simp [ht])
  sorted := by
    have hs := h.sorted
    rw [times_append, List.pairwise_append] at hs
    exact hs.1

/-- A transaction is no earlier than what came before it. -/
theorem Clocked.le (h : Clocked (tr ++ [.accepted L tx L'])) : ∀ t ∈ times tr, t ≤ tx.now := by
  have hs := h.sorted
  rw [times_append, List.pairwise_append] at hs
  intro t ht
  exact hs.2.2 t ht tx.now (by simp)

theorem Unsigned.of_append {chain : Chain} {id : Pubkey} (h : Unsigned chain id (tr ++ tr')) :
    Unsigned chain id tr :=
  fun e he ↦ h e (List.mem_append_left _ he)

theorem Unsigned.last {chain : Chain} {id : Pubkey}
    (h : Unsigned chain id (tr ++ [.accepted L tx L'])) :
    ∀ key ∈ tx.signers, ¬ ProgramAddress chain id key :=
  h _ (List.mem_append_right _ (List.mem_singleton_self _)) tx rfl

theorem Canonical.programAddress [Derived α] {chain : Chain} {id key : Pubkey} {a : α}
    (h : Canonical chain id key a) : ProgramAddress chain id key := ⟨_, h.create⟩

end Clocks

end FundingVaults.Anchor
