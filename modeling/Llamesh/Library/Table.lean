import Mathlib.Algebra.GroupWithZero.Nat
import Mathlib.Algebra.Order.BigOperators.Group.List
import Mathlib.Algebra.Order.Group.Nat
import Mathlib.Data.List.AList

/-!
# Finite tables

General support: finite maps as association lists without duplicate keys, with
the update of one entry and what it does to the other entries, and sums of a
weight over the entries.
-/

universe u v

/-- A finite map from `κ` to `α`. -/
abbrev Table (κ : Type u) (α : Type v) := AList fun _ : κ => α

namespace Table

variable {κ : Type u} {α : Type v} [DecidableEq κ]

/-- Replace the entry of `k`, when there is one. -/
def modify (t : Table κ α) (k : κ) (f : α → α) : Table κ α :=
  match t.lookup k with
  | none => t
  | some a => t.insert k (f a)

/-- The entry of `k` after an insertion at `j`. -/
theorem lookup_insert_eq (t : Table κ α) (j k : κ) (a : α) :
    (t.insert j a).lookup k = if k = j then some a else t.lookup k := by
  by_cases h : k = j
  · subst h
    rw [if_pos rfl, AList.lookup_insert]
  · rw [if_neg h, AList.lookup_insert_ne h]

/-- The entry of `k` after removing `j`. -/
theorem lookup_erase_eq (t : Table κ α) (j k : κ) :
    (t.erase j).lookup k = if k = j then none else t.lookup k := by
  by_cases h : k = j
  · subst h
    rw [if_pos rfl, AList.lookup_erase]
  · rw [if_neg h, AList.lookup_erase_ne h]

/-- The entry of `k` after changing the entry of `j`. -/
theorem lookup_modify (t : Table κ α) (j k : κ) (f : α → α) :
    (t.modify j f).lookup k = if k = j then (t.lookup k).map f else t.lookup k := by
  unfold modify
  cases hj : t.lookup j with
  | none =>
    by_cases h : k = j
    · subst h
      simp [hj]
    · simp [h]
  | some a =>
    rw [lookup_insert_eq]
    by_cases h : k = j
    · subst h
      simp [hj]
    · simp [h]

/-- An entry after an insertion is the inserted one or an entry of another key. -/
theorem lookup_insert_eq_some {t : Table κ α} {j k : κ} {a b : α} :
    (t.insert j a).lookup k = some b ↔ k = j ∧ a = b ∨ k ≠ j ∧ t.lookup k = some b := by
  rw [lookup_insert_eq]
  by_cases h : k = j <;> simp [h]

/-- An entry that is left after removing `j`. -/
theorem lookup_erase_eq_some {t : Table κ α} {j k : κ} {b : α} :
    (t.erase j).lookup k = some b ↔ k ≠ j ∧ t.lookup k = some b := by
  rw [lookup_erase_eq]
  by_cases h : k = j <;> simp [h]

/-- A key with an entry is a key. -/
theorem mem_keys_of_lookup {t : Table κ α} {k : κ} {a : α} (h : t.lookup k = some a) :
    k ∈ t.keys := by
  rw [← AList.mem_keys, ← AList.lookup_isSome, h]
  rfl

/-- `HashMap::retain` by key: remove the entries of every other key. -/
def retain (t : Table κ α) (live : List κ) : Table κ α :=
  (t.keys.filter fun k => decide (k ∉ live)).foldl (fun t k => t.erase k) t

/-- What is left after removing a list of keys. -/
theorem lookup_foldl_erase (keys : List κ) (t : Table κ α) (k : κ) :
    (keys.foldl (fun t k => t.erase k) t).lookup k = if k ∈ keys then none else t.lookup k := by
  induction keys generalizing t with
  | nil => simp
  | cons j keys ih =>
    rw [List.foldl_cons, ih, lookup_erase_eq]
    by_cases hk : k ∈ keys
    · simp [hk]
    · by_cases hj : k = j <;> simp [hk, hj]

/-- What is retained. -/
theorem lookup_retain (t : Table κ α) (live : List κ) (k : κ) :
    (t.retain live).lookup k = if k ∈ live then t.lookup k else none := by
  rw [retain, lookup_foldl_erase]
  by_cases hk : k ∈ live
  · simp [hk]
  · by_cases hm : k ∈ t.keys
    · simp [hk, hm]
    · simp [hk, hm, AList.lookup_eq_none.mpr hm]

/-- Insert a value, when there is one. -/
def insertSome (t : Table κ α) (k : κ) : Option α → Table κ α
  | some a => t.insert k a
  | none => t

/-- The entry of `k` after what `f` makes of the entries of `t` is inserted one by one. -/
theorem lookup_foldl_insertSome {β : Type v} (t : Table κ α) (u : Table κ β)
    (f : κ → α → Option β) (k : κ) :
    (t.entries.foldl (fun u e => insertSome u e.1 (f e.1 e.2)) u).lookup k =
      ((t.lookup k).bind (f k)).or (u.lookup k) := by
  induction t using AList.insertRec generalizing u with
  | H0 => rfl
  | IH j a t hj ih =>
    rw [AList.entries_insert_of_notMem hj, List.foldl_cons, ih, lookup_insert_eq]
    have hnone : t.lookup j = none := AList.lookup_eq_none.mpr hj
    by_cases hk : k = j
    · subst hk
      cases hf : f k a <;> simp [insertSome, hnone, hf]
    · cases hf : f j a <;> simp [insertSome, hk, AList.lookup_insert_ne hk]

/-! ### Sums over the entries -/

/-- The sum of a weight over the entries. -/
def sum (t : Table κ α) (f : κ → α → Nat) : Nat := (t.entries.map fun e => f e.1 e.2).sum

omit [DecidableEq κ] in
/-- The sum over no entries is zero. -/
@[simp] theorem sum_empty (f : κ → α → Nat) : sum (∅ : Table κ α) f = 0 := rfl

/-- Inserting under a new key adds its weight. -/
theorem sum_insert_of_notMem {t : Table κ α} {k : κ} (h : k ∉ t) (a : α) (f : κ → α → Nat) :
    sum (t.insert k a) f = f k a + sum t f := by
  simp only [sum, AList.entries_insert_of_notMem h, List.map_cons, List.sum_cons]

/-- An entry's weight is part of the sum. -/
theorem sum_erase_add {t : Table κ α} {k : κ} {a : α} (h : t.lookup k = some a)
    (f : κ → α → Nat) : sum (t.erase k) f + f k a = sum t f := by
  have hk : k ∈ t.entries.keys := mem_keys_of_lookup h
  obtain ⟨b, l₁, l₂, hk₁, hl, he⟩ := List.exists_of_kerase hk
  have hb : b = a := by
    have hm : (⟨k, b⟩ : Sigma fun _ : κ => α) ∈ t.entries := by simp [hl]
    have hlook := AList.mem_lookup_iff.mpr hm
    rw [h] at hlook
    exact (Option.some.inj hlook).symm
  subst hb
  have hentries : (t.erase k).entries = t.entries.kerase k := rfl
  simp only [sum, hentries, he]
  rw [hl]
  simp only [List.map_append, List.map_cons, List.sum_append, List.sum_cons]
  omega

/-- Replacing an entry replaces its weight. -/
theorem sum_insert_add {t : Table κ α} {k : κ} {b : α} (h : t.lookup k = some b) (a : α)
    (f : κ → α → Nat) : sum (t.insert k a) f + f k b = sum t f + f k a := by
  have hsum : sum (t.insert k a) f = f k a + sum (t.erase k) f := by
    simp only [sum, AList.entries_insert, List.map_cons, List.sum_cons]
    rfl
  have herase := sum_erase_add h f
  omega

/-- Changing an entry adds no more than what the change adds to its weight. -/
theorem sum_modify_le {t : Table κ α} {k : κ} {f : α → α} {w : κ → α → Nat} {c : Nat}
    (h : ∀ a, w k (f a) ≤ w k a + c) : sum (t.modify k f) w ≤ sum t w + c := by
  unfold modify
  cases hk : t.lookup k with
  | none =>
    dsimp only
    omega
  | some a =>
    have hsum := sum_insert_add hk (f a) w
    have hle := h a
    dsimp only
    omega

/-- Removing an absent key changes nothing. -/
theorem erase_of_notMem {t : Table κ α} {k : κ} (h : k ∉ t) : t.erase k = t := by
  apply AList.ext
  exact List.kerase_of_notMem_keys h

/-- A table whose entries each weigh no more than an entry of another table weighs no more. -/
theorem sum_le_sum_of_lookup {β : Type v} {t : Table κ α} {u : Table κ β} {f : κ → α → Nat}
    {g : κ → β → Nat}
    (h : ∀ k a, t.lookup k = some a → ∃ b, u.lookup k = some b ∧ f k a ≤ g k b) :
    sum t f ≤ sum u g := by
  -- Induction on the entries of `t`, taking the matching entry away from `u`.
  induction t using AList.insertRec generalizing u with
  | H0 => simp
  | IH k a t hk ih =>
    obtain ⟨b, hb, hle⟩ := h k a (by rw [AList.lookup_insert])
    have hrest : sum t f ≤ sum (u.erase k) g := by
      apply ih
      intro j c hj
      have hne : j ≠ k := by
        rintro rfl
        exact hk (AList.lookup_isSome.mp (by rw [hj]; rfl))
      obtain ⟨d, hd, hle⟩ := h j c (by rw [AList.lookup_insert_ne hne, hj])
      exact ⟨d, by rw [AList.lookup_erase_ne hne, hd], hle⟩
    have herase := sum_erase_add hb g
    rw [sum_insert_of_notMem hk]
    omega

/-- An entry weighs no more than the sum. -/
theorem le_sum {t : Table κ α} {k : κ} {a : α} (h : t.lookup k = some a) (f : κ → α → Nat) :
    f k a ≤ sum t f := by
  have herase := sum_erase_add h f
  omega

/-- Entries without weight have no sum. -/
theorem sum_eq_zero {t : Table κ α} {f : κ → α → Nat}
    (h : ∀ k a, t.lookup k = some a → f k a = 0) : sum t f = 0 := by
  apply List.sum_eq_zero
  intro n hn
  obtain ⟨e, he, rfl⟩ := List.mem_map.mp hn
  exact h e.1 e.2 (AList.mem_lookup_iff.mpr he)

/-! ### Counting the entries -/

/-- The number of entries that meet a condition. -/
def count (t : Table κ α) (p : α → Bool) : Nat := (t.entries.filter fun e => p e.2).length

/-- The number of entries. -/
def size (t : Table κ α) : Nat := t.entries.length

omit [DecidableEq κ] in
/-- Counting is summing the truth values. -/
theorem count_eq_sum (t : Table κ α) (p : α → Bool) : count t p = sum t fun _ a => (p a).toNat := by
  unfold count sum
  induction t.entries with
  | nil => rfl
  | cons e l ih =>
    rw [List.filter_cons, List.map_cons, List.sum_cons]
    cases hp : p e.2 with
    | false => simpa [hp] using ih
    | true => simpa [hp, Nat.add_comm] using ih

omit [DecidableEq κ] in
/-- The size counts every entry. -/
theorem size_eq_count (t : Table κ α) : size t = count t fun _ => true := by
  simp [size, count]

/-- Inserting under a new key counts the inserted entry. -/
theorem count_insert_of_notMem {t : Table κ α} {k : κ} (h : k ∉ t) (a : α) (p : α → Bool) :
    count (t.insert k a) p = (p a).toNat + count t p := by
  simp only [count_eq_sum, sum_insert_of_notMem h]

/-- Replacing an entry replaces what it counts. -/
theorem count_insert_add {t : Table κ α} {k : κ} {b : α} (h : t.lookup k = some b) (a : α)
    (p : α → Bool) : count (t.insert k a) p + (p b).toNat = count t p + (p a).toNat := by
  simp only [count_eq_sum]
  exact sum_insert_add h a fun _ a => (p a).toNat

/-- An entry is part of the count. -/
theorem count_erase_add {t : Table κ α} {k : κ} {a : α} (h : t.lookup k = some a) (p : α → Bool) :
    count (t.erase k) p + (p a).toNat = count t p := by
  simp only [count_eq_sum]
  exact sum_erase_add h fun _ a => (p a).toNat

/-- A counted entry makes the count positive. -/
theorem count_pos {t : Table κ α} {k : κ} {a : α} (h : t.lookup k = some a) {p : α → Bool}
    (ha : p a = true) : 0 < count t p := by
  have hle := le_sum h fun _ a => (p a).toNat
  rw [count_eq_sum]
  simp only [ha, Bool.toNat_true] at hle
  omega

/-- Where no entry meets the condition, none is counted. -/
theorem count_eq_zero {t : Table κ α} {p : α → Bool}
    (h : ∀ k a, t.lookup k = some a → p a = false) : count t p = 0 := by
  rw [count_eq_sum]
  apply sum_eq_zero
  intro k a ha
  rw [h k a ha, Bool.toNat_false]

/-- Entries that each match a counted entry of another table count no more. -/
theorem count_le_count_of_lookup {β : Type v} {t : Table κ α} {u : Table κ β} {p : α → Bool}
    {q : β → Bool}
    (h : ∀ k a, t.lookup k = some a → ∃ b, u.lookup k = some b ∧ (p a = true → q b = true)) :
    count t p ≤ count u q := by
  rw [count_eq_sum, count_eq_sum]
  apply sum_le_sum_of_lookup
  intro k a ha
  obtain ⟨b, hb, hpq⟩ := h k a ha
  refine ⟨b, hb, ?_⟩
  cases hp : p a with
  | false => simp
  | true => simp [hpq hp]

end Table
