import FundingVaults.Lib.Codec
import Mathlib.Data.Vector.Basic

/-!
# Sequential readers

A reader takes fields off the front of a byte string, one after the other.  `Reads p write view`
says that `p` reads exactly what `write` writes: from the bytes of a value it recovers the value, as
`view` shows it, and leaves the rest; and whatever it accepts starts with the bytes of a value.

The law of a reader is read off its fields with `Reads.bind_eq_ok`, one field at a time.
-/

namespace FundingVaults

/-- A reader consumes a front of the unread bytes. -/
abbrev Reader (ε : Type) := StateT Bytes (Except ε)

variable {ε α β γ : Type} {p : Reader ε β} {write : α → Bytes} {view : α → β} {bs rest : Bytes}

namespace Reader

/-! ## Primitives -/

/-- The next bytes. -/
def take (short : ε) (count : ℕ) : Reader ε Bytes := fun bs ↦
  if count ≤ bs.length then .ok (bs.take count, bs.drop count) else .error short

/-- Nothing is left. -/
def finish (trailing : ε) : Reader ε Unit := fun bs ↦
  if bs = [] then .ok ((), bs) else .error trailing

/-- A condition on what was read. -/
def check (c : Prop) [Decidable c] (e : ε) : Reader ε Unit := fun bs ↦
  if c then .ok ((), bs) else .error e

/-- The reader, a number of times. -/
def times (p : Reader ε β) : ℕ → Reader ε (List β)
  | 0 => pure []
  | n + 1 => do
    let b ← p
    let bs ← times p n
    pure (b :: bs)

/-- What the reader makes of the whole byte string. -/
def all (p : Reader ε β) (data : Bytes) : Except ε β := Prod.fst <$> p.run data

theorem take_run {short : ε} {count : ℕ} {x : Bytes} :
    (take short count).run bs = .ok (x, rest) ↔ x.length = count ∧ bs = x ++ rest := by
  change (if count ≤ bs.length then Except.ok (bs.take count, bs.drop count) else .error short) =
    .ok (x, rest) ↔ _
  split
  · next h =>
    simp only [Except.ok.injEq, Prod.mk.injEq]
    constructor
    · rintro ⟨rfl, rfl⟩
      exact ⟨List.length_take_of_le h, (List.take_append_drop count bs).symm⟩
    · rintro ⟨rfl, rfl⟩
      exact ⟨List.take_left, List.drop_left⟩
  · next h =>
    simp only [reduceCtorEq, false_iff]
    rintro ⟨rfl, rfl⟩
    exact h (by simp)

@[simp] theorem finish_run {trailing : ε} {u : Unit} :
    (finish trailing).run bs = .ok (u, rest) ↔ bs = [] ∧ rest = [] := by
  change (if bs = [] then Except.ok ((), bs) else .error trailing) = .ok (u, rest) ↔ _
  split
  · next h =>
    subst h
    simp [eq_comm]
  · next h => simp [h]

@[simp] theorem check_run {c : Prop} [Decidable c] {e : ε} {u : Unit} :
    (check c e).run bs = .ok (u, rest) ↔ c ∧ bs = rest := by
  change (if c then Except.ok ((), bs) else .error e) = .ok (u, rest) ↔ _
  split
  · next h => simp [h]
  · next h => simp [h]

@[simp] theorem pure_run {a b : β} :
    (pure a : Reader ε β).run bs = .ok (b, rest) ↔ a = b ∧ bs = rest := by
  change Except.ok (a, bs) = .ok (b, rest) ↔ _
  simp

theorem bind_run {f : β → Reader ε γ} {r : γ × Bytes} :
    (p >>= f).run bs = .ok r ↔ ∃ b mid, p.run bs = .ok (b, mid) ∧ (f b).run mid = .ok r := by
  rw [StateT.run_bind, bind_eq_ok]
  constructor
  · rintro ⟨⟨b, mid⟩, hp, hf⟩
    exact ⟨b, mid, hp, hf⟩
  · rintro ⟨b, mid, hp, hf⟩
    exact ⟨(b, mid), hp, hf⟩

theorem check_bind {c : Prop} [Decidable c] {e : ε} {f : Unit → Reader ε γ} {r : γ × Bytes} :
    (check c e >>= f).run bs = .ok r ↔ c ∧ (f ()).run bs = .ok r := by
  rw [bind_run]
  constructor
  · rintro ⟨_, mid, h, hf⟩
    obtain ⟨hc, rfl⟩ := check_run.mp h
    exact ⟨hc, hf⟩
  · rintro ⟨hc, hf⟩
    exact ⟨(), bs, check_run.mpr ⟨hc, rfl⟩, hf⟩

theorem check_bind_run {c : Prop} [Decidable c] {e : ε} (h : c) (f : Unit → Reader ε γ) :
    (check c e >>= f).run bs = (f ()).run bs := by
  rw [StateT.run_bind, check_run.mpr ⟨h, rfl⟩]
  rfl

theorem finish_bind_run {trailing : ε} (f : Unit → Reader ε γ) :
    (finish trailing >>= f).run [] = (f ()).run [] := by
  rw [StateT.run_bind, finish_run.mpr ⟨rfl, rfl⟩]
  rfl

theorem finish_bind {trailing : ε} {f : Unit → Reader ε γ} {r : γ × Bytes} :
    (finish trailing >>= f).run bs = .ok r ↔ bs = [] ∧ (f ()).run [] = .ok r := by
  rw [bind_run]
  constructor
  · rintro ⟨_, mid, h, hf⟩
    obtain ⟨rfl, rfl⟩ := finish_run.mp h
    exact ⟨rfl, hf⟩
  · rintro ⟨rfl, hf⟩
    exact ⟨(), [], finish_run.mpr ⟨rfl, rfl⟩, hf⟩

theorem all_eq_ok {data : Bytes} {b : β} :
    p.all data = .ok b ↔ ∃ rest, p.run data = .ok (b, rest) := by
  unfold all
  rw [map_eq_ok]
  constructor
  · rintro ⟨⟨b, rest⟩, h, rfl⟩
    exact ⟨rest, h⟩
  · rintro ⟨rest, h⟩
    exact ⟨(b, rest), h, rfl⟩

end Reader

/-! ## Readers of what is written -/

/-- The reader accepts exactly the bytes of a value, and shows the value. -/
structure Reads (p : Reader ε β) (write : α → Bytes) (view : α → β) : Prop where
  run_eq_ok : ∀ {bs b rest}, p.run bs = .ok (b, rest) ↔ ∃ a, view a = b ∧ bs = write a ++ rest

namespace Reads

theorem run (h : Reads p write view) (a : α) (rest : Bytes) :
    p.run (write a ++ rest) = .ok (view a, rest) :=
  h.run_eq_ok.mpr ⟨a, rfl, rfl⟩

/-- The next field. -/
theorem bind_eq_ok (h : Reads p write view) {f : β → Reader ε γ} {r : γ × Bytes} :
    (p >>= f).run bs = .ok r ↔ ∃ a rest, bs = write a ++ rest ∧ (f (view a)).run rest = .ok r := by
  rw [Reader.bind_run]
  constructor
  · rintro ⟨b, mid, hp, hf⟩
    obtain ⟨a, rfl, rfl⟩ := h.run_eq_ok.mp hp
    exact ⟨a, mid, rfl, hf⟩
  · rintro ⟨a, mid, rfl, hf⟩
    exact ⟨view a, mid, h.run a mid, hf⟩

theorem bind_run (h : Reads p write view) (a : α) (f : β → Reader ε γ) (rest : Bytes) :
    (p >>= f).run (write a ++ rest) = (f (view a)).run rest := by
  rw [StateT.run_bind, h.run]
  rfl

theorem times_run (h : Reads p write view) {n : ℕ} {ys : List β} :
    (p.times n).run bs = .ok (ys, rest) ↔
      ∃ xs : List α, xs.length = n ∧ xs.map view = ys ∧ bs = xs.flatMap write ++ rest := by
  induction n generalizing bs ys with
  | zero =>
    rw [Reader.times, Reader.pure_run]
    constructor
    · rintro ⟨rfl, rfl⟩
      exact ⟨[], rfl, rfl, rfl⟩
    · rintro ⟨xs, hxs, rfl, rfl⟩
      obtain rfl := List.eq_nil_of_length_eq_zero hxs
      exact ⟨rfl, rfl⟩
  | succ n ih =>
    rw [Reader.times, h.bind_eq_ok]
    constructor
    · rintro ⟨a, mid, rfl, hrest⟩
      obtain ⟨ys', mid', hys, hpure⟩ := Reader.bind_run.mp hrest
      obtain ⟨rfl, rfl⟩ := Reader.pure_run.mp hpure
      obtain ⟨xs, hxs, rfl, rfl⟩ := ih.mp hys
      exact ⟨a :: xs, congrArg Nat.succ hxs, rfl, by simp⟩
    · rintro ⟨xs, hxs, rfl, rfl⟩
      rcases xs with - | ⟨a, xs⟩
      · exact absurd hxs (by simp)
      · refine ⟨a, xs.flatMap write ++ rest, by simp, Reader.bind_run.mpr ⟨xs.map view, rest, ?_, rfl⟩⟩
        exact ih.mpr ⟨xs, Nat.succ.inj hxs, rfl, rfl⟩

/-- A field that is repeated. -/
theorem times (h : Reads p write view) (n : ℕ) :
    Reads (p.times n) (fun v : Vector α n ↦ v.toList.flatMap write)
      fun v ↦ v.toList.map view := by
  refine ⟨@fun bs ys rest ↦ ?_⟩
  rw [h.times_run]
  constructor
  · rintro ⟨xs, rfl, rfl, rfl⟩
    exact ⟨⟨xs.toArray, List.size_toArray⟩, rfl, rfl⟩
  · rintro ⟨v, rfl, rfl⟩
    exact ⟨v.toList, v.length_toList, rfl, rfl⟩

/-- A field twice. -/
theorem twice (h : Reads p write view) :
    Reads (p.times 2) (fun x : α × α ↦ write x.1 ++ write x.2) fun x ↦ [view x.1, view x.2] := by
  refine ⟨@fun bs ys rest ↦ ?_⟩
  rw [h.times_run]
  constructor
  · rintro ⟨xs, hxs, rfl, rfl⟩
    obtain ⟨a, b, rfl⟩ := List.length_eq_two.mp hxs
    exact ⟨(a, b), rfl, by simp⟩
  · rintro ⟨⟨a, b⟩, rfl, rfl⟩
    exact ⟨[a, b], rfl, rfl, by simp⟩

end Reads

/-! ## Readers without checks -/

/-- The reader accepts all bytes that are long enough, and takes `n` of them. -/
def Accepts (p : Reader ε β) (n : ℕ) : Prop :=
  ∀ bs : Bytes, n ≤ bs.length → ∃ b, p.run bs = .ok (b, bs.drop n)

namespace Accepts

variable {n m : ℕ}

theorem pure (b : β) : Accepts (pure b : Reader ε β) 0 := fun _ _ ↦ ⟨b, rfl⟩

theorem take {short : ε} (count : ℕ) : Accepts (Reader.take short count) count := fun bs h ↦
  ⟨bs.take count, Reader.take_run.mpr ⟨List.length_take_of_le h, (List.take_append_drop ..).symm⟩⟩

theorem bind {f : β → Reader ε γ} (hp : Accepts p n) (hf : ∀ b, Accepts (f b) m) :
    Accepts (p >>= f) (n + m) := by
  intro bs h
  obtain ⟨b, hb⟩ := hp bs (by omega)
  obtain ⟨c, hc⟩ := hf b (bs.drop n) (by rw [List.length_drop]; omega)
  rw [List.drop_drop] at hc
  exact ⟨c, Reader.bind_run.mpr ⟨b, bs.drop n, hb, hc⟩⟩

theorem times (hp : Accepts p n) (k : ℕ) : Accepts (p.times k) (k * n) := by
  induction k with
  | zero =>
    rw [Nat.zero_mul]
    exact pure []
  | succ k ih =>
    rw [Nat.succ_mul, Nat.add_comm (k * n)]
    exact hp.bind fun b ↦ ih.bind fun bs ↦ pure (b :: bs)

end Accepts

/-! ## Fixed offsets -/

/-- The bytes at an offset. -/
def slice (data : Bytes) (offset count : ℕ) : Bytes := (data.drop offset).take count

/-- A piece of a layout starts where the widths before it end. -/
theorem slice_piece {ps : List Bytes} {widths : List ℕ} (hw : ps.map List.length = widths) (i : ℕ)
    {x : Bytes} (hx : ps[i]? = some x) :
    slice ps.flatten (widths.take i).sum (widths.getD i 0) = x := by
  subst hw
  induction ps generalizing i with
  | nil => exact absurd hx (by simp)
  | cons p ps ih =>
    cases i with
    | zero =>
      obtain rfl := Option.some.inj hx
      simp [slice]
    | succ i =>
      have hrest := ih i (by simpa using hx)
      have hskip : p.drop (p.length + ((ps.map List.length).take i).sum) = [] :=
        List.drop_eq_nil_of_le (Nat.le_add_right _ _)
      simpa [slice, List.drop_append, hskip] using hrest

/-! ## Agreement -/

/-- A reader of whole byte strings agrees with a writer of `n` bytes: it recovers a value from its
bytes, accepts no other length, and what it accepts are the bytes of exactly one value, provided
that it is `plain`. -/
structure Agrees (read : Bytes → Except ε β) (write : α → Bytes) (view : α → β) (plain : β → Prop)
    (n : ℕ) : Prop where
  recovers : ∀ a, read (write a) = .ok (view a)
  distinct : Function.Injective view
  width : ∀ a, (write a).length = n
  rejects : ∀ {data b}, read data = .ok b → data.length = n
  unique : ∀ {data b}, read data = .ok b → plain b → ∃! a, write a = data

namespace Agrees

variable {read : Bytes → Except ε β} {plain : β → Prop} {n : ℕ} {δ : Type}

/-- A reader that accepts the bytes of raw values, the plain ones of which are values. -/
theorem of_raw {raw : δ → Bytes} {shows : δ → β} (embed : α → δ)
    (law : ∀ {data b}, read data = .ok b ↔ ∃ d, shows d = b ∧ data = raw d)
    (hwrite : ∀ a, raw (embed a) = write a) (hview : ∀ a, shows (embed a) = view a)
    (hplain : ∀ d, plain (shows d) → ∃ a, write a = raw d) (hinj : Function.Injective view)
    (hwidth : ∀ d, (raw d).length = n) : Agrees read write view plain n := by
  have recovers : ∀ a, read (write a) = .ok (view a) := fun a ↦
    law.mpr ⟨embed a, hview a, (hwrite a).symm⟩
  refine ⟨recovers, hinj, fun a ↦ hwrite a ▸ hwidth _, fun h ↦ ?_, fun h hp ↦ ?_⟩
  · obtain ⟨d, -, rfl⟩ := law.mp h
    exact hwidth d
  · obtain ⟨d, rfl, rfl⟩ := law.mp h
    obtain ⟨a, ha⟩ := hplain d hp
    refine ⟨a, ha, fun a' ha' ↦ hinj ?_⟩
    have heq := recovers a'
    rw [ha', ← ha, recovers a] at heq
    exact (Except.ok.inj heq).symm

/-- A reader that accepts the bytes of values only. -/
theorem of_eq_ok (law : ∀ {data b}, read data = .ok b ↔ ∃ a, view a = b ∧ data = write a)
    (hinj : Function.Injective view) (hwidth : ∀ a, (write a).length = n) :
    Agrees read write view (fun _ ↦ True) n :=
  of_raw id law (fun _ ↦ rfl) (fun _ ↦ rfl) (fun a _ ↦ ⟨a, rfl⟩) hinj hwidth

/-- Values are told apart by their bytes. -/
theorem injective (h : Agrees read write view plain n) : Function.Injective write := by
  intro a b hab
  have heq := h.recovers a
  rw [hab, h.recovers b] at heq
  exact (h.distinct (Except.ok.inj heq)).symm

end Agrees

/-! ## Numbers -/

/-- The number formats of `struct`, little-endian. -/
inductive Format where
  | B
  | H
  | I
  | Q
  | q
deriving DecidableEq, Repr

namespace Format

def size : Format → ℕ
  | B => 1
  | H => 2
  | I => 4
  | Q => 8
  | q => 8

def unpack (f : Format) (bs : Bytes) : ℤ :=
  match f with
  | q => if leNat bs < 2 ^ 63 then leNat bs else leNat bs - 2 ^ 64
  | _ => leNat bs

end Format

/-- A number field. -/
def Reader.number (short : ε) (f : Format) : Reader ε ℤ := do
  let bs ← take short f.size
  pure (f.unpack bs)

variable {short : ε}

theorem Accepts.number (f : Format) : Accepts (Reader.number short f) f.size :=
  (Accepts.take f.size).bind fun bs ↦ .pure (f.unpack bs)

/-- A field of fixed width holds the bytes of a value when each byte string of that width does. -/
theorem reads_number {f : Format} {write : α → Bytes} {view : α → ℤ}
    (hsize : ∀ a, (write a).length = f.size) (hview : ∀ a, f.unpack (write a) = view a)
    (hall : ∀ x : Bytes, x.length = f.size → ∃ a, x = write a) :
    Reads (Reader.number short f) write view := by
  refine ⟨@fun bs v rest ↦ ?_⟩
  simp only [Reader.number, Reader.bind_run, Reader.take_run, Reader.pure_run]
  constructor
  · rintro ⟨x, mid, ⟨hx, rfl⟩, rfl, rfl⟩
    obtain ⟨a, rfl⟩ := hall x hx
    exact ⟨a, (hview a).symm, rfl⟩
  · rintro ⟨a, rfl, rfl⟩
    exact ⟨write a, rest, ⟨hsize a, rfl⟩, hview a, rfl⟩

theorem exists_leBytes {n : ℕ} {x : Bytes} (h : x.length = n) : ∃ k < 256 ^ n, x = leBytes n k := by
  refine ⟨leNat x, h ▸ leNat_lt x, ?_⟩
  rw [← h, leBytes_leNat]

theorem reads_B : Reads (Reader.number short .B) U8.toLe fun x ↦ (x.toNat : ℤ) := by
  refine reads_number (fun _ ↦ rfl) (fun a ↦ by simp [Format.unpack, U8.toLe, leNat]) fun x hx ↦ ?_
  obtain ⟨b, rfl⟩ := List.length_eq_one_iff.mp hx
  exact ⟨b, rfl⟩

theorem reads_H : Reads (Reader.number short .H) U16.toLe fun x ↦ (x.val : ℤ) := by
  refine reads_number (leBytes_length 2 ·.val) (fun a ↦ ?_) fun x hx ↦ ?_
  · exact congrArg Nat.cast (leNat_leBytes a.isLt)
  · obtain ⟨k, hk, rfl⟩ := exists_leBytes hx
    exact ⟨⟨k, hk⟩, rfl⟩

theorem reads_Q : Reads (Reader.number short .Q) U64.toLe fun x ↦ (x.val : ℤ) := by
  refine reads_number (leBytes_length 8 ·.val) (fun a ↦ ?_) fun x hx ↦ ?_
  · exact congrArg Nat.cast (leNat_leBytes a.isLt)
  · obtain ⟨k, hk, rfl⟩ := exists_leBytes hx
    exact ⟨⟨k, hk⟩, rfl⟩

theorem I64.leNat_toLe (x : I64) : (leNat x.toLe : ℤ) = x.val % 2 ^ 64 := by
  have h : (x.val % 2 ^ 64).toNat < 256 ^ 8 := by omega
  rw [I64.toLe, leNat_leBytes h]
  omega

theorem I64.unpack_toLe (x : I64) : Format.q.unpack x.toLe = x.val := by
  have h := x.leNat_toLe
  have hge := x.ge
  have hlt := x.lt
  simp only [Format.unpack]
  split <;> omega

theorem reads_q : Reads (Reader.number short .q) I64.toLe I64.val := by
  refine reads_number (fun _ ↦ leBytes_length 8 _) I64.unpack_toLe fun x hx ↦ ?_
  obtain ⟨k, hk, rfl⟩ := exists_leBytes hx
  have hk' : k < 2 ^ 64 := hk
  by_cases hneg : k < 2 ^ 63
  · refine ⟨⟨k, by omega, by omega⟩, ?_⟩
    rw [I64.toLe]
    congr 1
    simp only
    omega
  · refine ⟨⟨k - 2 ^ 64, by omega, by omega⟩, ?_⟩
    rw [I64.toLe]
    congr 1
    simp only
    omega

theorem reads_take32 : Reads (Reader.take short 32) Bytes32.bytes Bytes32.bytes := by
  refine ⟨@fun bs x rest ↦ ?_⟩
  rw [Reader.take_run]
  constructor
  · rintro ⟨hx, rfl⟩
    exact ⟨⟨x, hx⟩, rfl, rfl⟩
  · rintro ⟨a, rfl, rfl⟩
    exact ⟨a.length_eq, rfl⟩

end FundingVaults
