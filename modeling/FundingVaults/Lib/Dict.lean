import Mathlib.Data.List.Nodup
import Mathlib.Tactic.Common

/-!
# Dictionaries

A dictionary lists its entries in the order in which their keys were first set.  Setting a key
again changes its value in place, so no key is listed twice.
-/

namespace FundingVaults

/-- Entries with distinct keys. -/
structure Dict (κ β : Type) where
  entries : List (κ × β)
  nodup : (entries.map Prod.fst).Nodup

namespace Dict

variable {κ β : Type}

def keys (d : Dict κ β) : List κ := d.entries.map Prod.fst

def values (d : Dict κ β) : List β := d.entries.map Prod.snd

def length (d : Dict κ β) : ℕ := d.entries.length

def empty : Dict κ β := ⟨[], .nil⟩

section Lookup

variable [DecidableEq κ]

def get? (d : Dict κ β) (k : κ) : Option β := (d.entries.find? fun e ↦ e.1 = k).map Prod.snd

/-- The entries after a key is set. -/
def setEntries (k : κ) (b : β) (entries : List (κ × β)) : List (κ × β) :=
  if k ∈ entries.map Prod.fst then entries.map fun e ↦ if e.1 = k then (k, b) else e
  else entries ++ [(k, b)]

theorem replace_keys (entries : List (κ × β)) (k : κ) (b : β) :
    (entries.map fun e ↦ if e.1 = k then (k, b) else e).map Prod.fst = entries.map Prod.fst := by
  rw [List.map_map]
  refine List.map_congr_left fun e _ ↦ ?_
  by_cases he : e.1 = k
  · simp [he]
  · simp [he]

theorem setEntries_nodup {entries : List (κ × β)} (h : (entries.map Prod.fst).Nodup) (k : κ)
    (b : β) : ((setEntries k b entries).map Prod.fst).Nodup := by
  unfold setEntries
  split
  · rwa [replace_keys]
  · next hk =>
    rw [List.map_append, List.nodup_append]
    refine ⟨h, List.nodup_singleton k, fun a ha a' ha' ↦ ?_⟩
    rw [List.map_cons, List.map_nil, List.mem_singleton] at ha'
    subst ha'
    exact fun heq ↦ hk (heq ▸ ha)

def set (d : Dict κ β) (k : κ) (b : β) : Dict κ β :=
  ⟨setEntries k b d.entries, setEntries_nodup d.nodup k b⟩

def update (d : Dict κ β) (es : List (κ × β)) : Dict κ β :=
  es.foldl (fun d e ↦ d.set e.1 e.2) d

def ofList (es : List (κ × β)) : Dict κ β := empty.update es

theorem get?_eq_some {d : Dict κ β} {k : κ} {b : β} :
    d.get? k = some b ↔ (k, b) ∈ d.entries := by
  rcases d with ⟨entries, h⟩
  unfold get?
  induction entries with
  | nil => simp
  | cons e es ih =>
    rw [List.map_cons, List.nodup_cons] at h
    rw [List.find?_cons, List.mem_cons]
    by_cases he : e.1 = k
    · have hfresh : (k, b) ∉ es := fun hmem ↦ h.1 (he ▸ List.mem_map_of_mem hmem)
      simp only [he, decide_true, Option.map_some, Option.some.injEq, hfresh, or_false]
      constructor
      · rintro rfl
        rw [← he]
      · rintro rfl
        rfl
    · have hne : (k, b) ≠ e := fun heq ↦ he (heq ▸ rfl)
      simp only [he, decide_false, hne, false_or]
      exact ih h.2

/-- A key that is not there is appended. -/
theorem set_entries {d : Dict κ β} {k : κ} (h : k ∉ d.keys) (b : β) :
    (d.set k b).entries = d.entries ++ [(k, b)] := if_neg h

/-- New keys are appended in their order. -/
theorem update_entries {d : Dict κ β} {es : List (κ × β)}
    (h : (d.keys ++ es.map Prod.fst).Nodup) : (d.update es).entries = d.entries ++ es := by
  induction es generalizing d with
  | nil => exact (List.append_nil _).symm
  | cons e es ih =>
    rw [List.map_cons] at h
    have hkey : e.1 ∉ d.keys := fun hmem ↦
      (List.nodup_append.mp h).2.2 e.1 hmem e.1 List.mem_cons_self rfl
    have hset := set_entries hkey e.2
    have hkeys : (d.set e.1 e.2).keys = d.keys ++ [e.1] := by
      rw [keys, hset, List.map_append, List.map_cons, List.map_nil, keys]
    rw [update, List.foldl_cons]
    refine (ih ?_).trans ?_
    · rwa [hkeys, List.append_assoc]
    · rw [hset, List.append_assoc]
      rfl

theorem ofList_entries {es : List (κ × β)} (h : (es.map Prod.fst).Nodup) :
    (ofList es).entries = es := update_entries h

/-- The keys are the old and the new ones. -/
theorem mem_keys_update {d : Dict κ β} {es : List (κ × β)} {k : κ} :
    k ∈ (d.update es).keys ↔ k ∈ d.keys ∨ k ∈ es.map Prod.fst := by
  induction es generalizing d with
  | nil => simp [update]
  | cons e es ih =>
    have hset : k ∈ (d.set e.1 e.2).keys ↔ k ∈ d.keys ∨ k = e.1 := by
      by_cases hmem : e.1 ∈ d.keys
      · have hkeys : (d.set e.1 e.2).keys = d.keys :=
          (congrArg _ (if_pos hmem)).trans (replace_keys d.entries e.1 e.2)
        rw [hkeys]
        exact ⟨.inl, fun h ↦ h.elim id fun h ↦ h ▸ hmem⟩
      · rw [keys, set_entries hmem, List.map_append, List.mem_append, List.map_cons,
          List.map_nil, List.mem_singleton, keys]
    rw [update, List.foldl_cons]
    refine (ih (d := d.set e.1 e.2)).trans ?_
    rw [hset, List.map_cons, List.mem_cons, or_assoc]

/-- An entry of the new dictionary is the new one or an old one. -/
theorem mem_entries_set {d : Dict κ β} {k : κ} {b : β} {e : κ × β} :
    e ∈ (d.set k b).entries ↔ e = (k, b) ∨ e.1 ≠ k ∧ e ∈ d.entries := by
  unfold set setEntries
  split
  · next hk =>
    obtain ⟨e₀, he₀, rfl⟩ := List.mem_map.mp hk
    rw [List.mem_map]
    constructor
    · rintro ⟨x, hx, rfl⟩
      by_cases hxk : x.1 = e₀.1
      · exact .inl (if_pos hxk)
      · rw [if_neg hxk]
        exact .inr ⟨hxk, hx⟩
    · rintro (rfl | ⟨hne, he⟩)
      · exact ⟨e₀, he₀, if_pos rfl⟩
      · exact ⟨e, he, if_neg hne⟩
  · next hk =>
    rw [List.mem_append, List.mem_singleton, or_comm]
    refine or_congr_right ⟨fun he ↦ ⟨?_, he⟩, And.right⟩
    rintro rfl
    exact hk (List.mem_map_of_mem he)

theorem get?_set {d : Dict κ β} {k k' : κ} {b : β} :
    (d.set k b).get? k' = if k' = k then some b else d.get? k' := by
  ext c
  rw [get?_eq_some, mem_entries_set]
  split
  · next hk => simp [hk, eq_comm]
  · next hk => simp [hk, get?_eq_some]

theorem get?_eq_none {d : Dict κ β} {k : κ} : d.get? k = none ↔ k ∉ d.keys := by
  simp only [get?, keys, Option.map_eq_none_iff, List.find?_eq_none, decide_eq_true_eq,
    List.mem_map, not_exists, not_and]

theorem mem_values {d : Dict κ β} {b : β} : b ∈ d.values ↔ ∃ k, d.get? k = some b := by
  simp [values, get?_eq_some]

theorem mem_entries_update {d : Dict κ β} {es : List (κ × β)} {e : κ × β}
    (h : e ∈ (d.update es).entries) : e ∈ d.entries ∨ e ∈ es := by
  induction es generalizing d with
  | nil => exact .inl h
  | cons x xs ih =>
    rw [List.mem_cons]
    rcases ih h with h | h
    · rcases mem_entries_set.mp h with rfl | ⟨-, h⟩
      · exact .inr (.inl rfl)
      · exact .inl h
    · exact .inr (.inr h)

/-! ## Listed functions -/

/-- The dictionary lists a partial function, whose arguments are written as keys. -/
def Lists {ι : Type} (key : ι → κ) (d : Dict κ β) (f : ι → Option β) : Prop :=
  ∀ k b, d.get? k = some b ↔ ∃ i, key i = k ∧ f i = some b

theorem lists_empty {ι : Type} {key : ι → κ} {f : ι → Option β} (h : ∀ i, f i = none) :
    Lists key empty f := fun k b ↦ by simp [h, get?, empty]

namespace Lists

variable {ι : Type} {key : ι → κ} {d : Dict κ β} {f g : ι → Option β} {i : ι} {b : β}

theorem get?_key (h : Lists key d f) (hkey : Function.Injective key) : d.get? (key i) = f i := by
  ext b
  rw [h]
  exact ⟨fun ⟨_, hj, hb⟩ ↦ hkey hj ▸ hb, fun hb ↦ ⟨i, rfl, hb⟩⟩

theorem congr (h : Lists key d f) (hg : ∀ i, g i = f i) : Lists key d g := by
  rwa [funext hg]

/-- Setting a key sets the value of the function. -/
theorem set [DecidableEq ι] (h : Lists key d f) (hkey : Function.Injective key) :
    Lists key (d.set (key i) b) (Function.update f i (some b)) := by
  intro k c
  rw [get?_set]
  split
  · next hk =>
    subst hk
    constructor
    · rintro hc
      exact ⟨i, rfl, by rwa [Function.update_self]⟩
    · rintro ⟨j, hj, hc⟩
      rwa [hkey hj, Function.update_self] at hc
  · next hk =>
    rw [h]
    refine exists_congr fun j ↦ and_congr_right ?_
    rintro rfl
    have hji : j ≠ i := fun hji ↦ hk (congrArg key hji)
    rw [Function.update_of_ne hji]

end Lists

end Lookup

end Dict

end FundingVaults
