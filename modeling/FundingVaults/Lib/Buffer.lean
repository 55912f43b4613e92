import FundingVaults.Lib.Codec
import Mathlib.Tactic.Ring

/-!
# Byte buffers

A buffer of zeros that fields are written into, each at its offset.  Fields that are written one
after the other leave their bytes in that order.
-/

namespace FundingVaults.Buffer

universe u v

variable {ε : Type u} {α : Type v}

def alloc (n : ℕ) : Bytes := List.replicate n 0

/-- The bytes from an offset on are replaced, and none past the end. -/
def put (buffer : Bytes) (offset : ℕ) (bs : Bytes) : Bytes :=
  buffer.take offset ++ bs.take (buffer.length - offset) ++ buffer.drop (offset + bs.length)

/-- A number from `low` to below `high` is written in `width` bytes of the buffer. -/
def write (e : ε) (low high : ℤ) (width : ℕ) (buffer : Bytes) (value : ℤ) (offset : ℕ) :
    Except ε Bytes := do
  require (low ≤ value ∧ value < high ∧ offset + width ≤ buffer.length) e
  pure (put buffer offset (leBytes width (value % 256 ^ width).toNat))

/-- Every element takes its turn, with its index. -/
def forEach (f : Bytes → α → ℕ → Except ε Bytes) : ℕ → List α → Bytes → Except ε Bytes
  | _, [], buffer => .ok buffer
  | i, x :: xs, buffer => f buffer x i >>= forEach f (i + 1) xs

/-! ## Fields in order -/

variable {e : ε} {init bs : Bytes} {i k offset base width : ℕ} {low high value : ℤ}

theorem alloc_length (n : ℕ) : (alloc n).length = n := List.length_replicate

/-- What is put behind the bytes already written. -/
theorem put_next (h : init.length = offset) :
    put (init ++ alloc (bs.length + k)) offset bs = init ++ bs ++ alloc k := by
  subst h
  have htake : (init ++ alloc (bs.length + k)).take init.length = init := List.take_left
  have hdrop : (init ++ alloc (bs.length + k)).drop (init.length + bs.length) = alloc k := by
    rw [List.drop_append, List.drop_eq_nil_of_le (Nat.le_add_right _ _), List.nil_append, alloc,
      List.drop_replicate, alloc]
    congr 1
    omega
  have hfits : bs.take ((init ++ alloc (bs.length + k)).length - init.length) = bs := by
    refine List.take_of_length_le ?_
    rw [List.length_append, alloc_length]
    omega
  rw [put, htake, hdrop, hfits]

theorem write_next (hrange : low ≤ value ∧ value < high)
    (hbytes : leBytes width (value % 256 ^ width).toNat = bs) (h : init.length = offset) :
    write e low high width (init ++ alloc (width + k)) value offset =
      .ok (init ++ bs ++ alloc k) := by
  have hroom : offset + width ≤ (init ++ alloc (width + k)).length := by
    rw [List.length_append, alloc_length]
    omega
  have hwidth : bs.length = width := by rw [← hbytes, leBytes_length]
  simp only [write, bind_eq_ok, require_eq_ok, pure_eq_ok, exists_const]
  refine ⟨⟨hrange.1, hrange.2, hroom⟩, ?_⟩
  rw [hbytes, ← hwidth, put_next h]

/-- A turn that writes `bs` at the place of its index. -/
def Fills (f : Bytes → α → ℕ → Except ε Bytes) (base width : ℕ) (x : α) (bs : Bytes) : Prop :=
  bs.length = width ∧ ∀ {i k : ℕ} {init : Bytes}, init.length = base + width * i →
    f (init ++ alloc (width + k)) x i = .ok (init ++ bs ++ alloc k)

variable {f : Bytes → α → ℕ → Except ε Bytes} {xs : List α} {pieces : List Bytes}

theorem length_flatten (h : List.Forall₂ (Fills f base width) xs pieces) :
    pieces.flatten.length = width * xs.length := by
  induction h with
  | nil => rfl
  | cons hx _ ih =>
    rw [List.flatten_cons, List.length_append, hx.1, ih, List.length_cons]
    ring

/-- The turns fill the buffer in order. -/
theorem forEach_next (h : List.Forall₂ (Fills f base width) xs pieces)
    (hinit : init.length = base + width * i) :
    forEach f i xs (init ++ alloc (width * xs.length + k)) =
      .ok (init ++ pieces.flatten ++ alloc k) := by
  induction h generalizing i init with
  | nil => simp [forEach]
  | @cons x bs xs pieces hx _ ih =>
    have hroom : width * (x :: xs).length + k = width + (width * xs.length + k) := by
      rw [List.length_cons]
      ring
    have hnext : (init ++ bs).length = base + width * (i + 1) := by
      rw [List.length_append, hinit, hx.1]
      ring
    rw [forEach, hroom, hx.2 hinit]
    show forEach f (i + 1) xs (init ++ bs ++ alloc (width * xs.length + k)) = _
    rw [ih hnext, List.flatten_cons, List.append_assoc init bs]

/-! ## The numbers of a layout -/

theorem leBytes_u64 (x : U64) : leBytes 8 ((x.val : ℤ) % 256 ^ 8).toNat = U64.toLe x := by
  have hx := x.isLt
  rw [U64.toLe]
  congr 1
  omega

theorem leBytes_u16 (x : U16) : leBytes 2 ((x.val : ℤ) % 256 ^ 2).toNat = U16.toLe x := by
  have hx := x.isLt
  rw [U16.toLe]
  congr 1
  omega

end FundingVaults.Buffer
