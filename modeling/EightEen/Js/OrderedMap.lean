import Mathlib.Data.List.Nodup

/-!
# The Map Object

A `Map` is a list of entries with distinct keys in the order in which the keys came in:
setting a key that is there keeps its place, and a new one goes to the end. The two
equations that programs rely on are `get_set` and `get_retain`; both rest on the keys being
distinct, which the structure carries. The sizes of the results are bounded beside them.
-/

namespace Js

/-- A `Map`, with its entries in insertion order. -/
structure OrderedMap (κ ν : Type) where
  entries : List (κ × ν)
  nodup : (entries.map Prod.fst).Nodup

namespace OrderedMap

variable {κ ν : Type} [DecidableEq κ]

/-- `new Map()`. -/
def empty : OrderedMap κ ν := ⟨[], List.nodup_nil⟩

/-- The value of the first entry with the key. -/
def find (k : κ) : List (κ × ν) → Option ν
  | [] => none
  | (k', v) :: entries => if k' = k then some v else find k entries

/-- `map.get(k)`, with `none` for `undefined`. -/
def get (m : OrderedMap κ ν) (k : κ) : Option ν :=
  find k m.entries

/-- `map.size`. -/
def size (m : OrderedMap κ ν) : ℕ :=
  m.entries.length

/-- The entries with the value of `k` replaced, or with a new entry at the end. -/
def put (k : κ) (v : ν) : List (κ × ν) → List (κ × ν)
  | [] => [(k, v)]
  | (k', v') :: entries => if k' = k then (k, v) :: entries else (k', v') :: put k v entries

/-- Putting a value keeps the keys in their order, and adds a new one at the end. -/
theorem map_fst_put (k : κ) (v : ν) (entries : List (κ × ν)) :
    (put k v entries).map Prod.fst =
      if k ∈ entries.map Prod.fst then entries.map Prod.fst
      else entries.map Prod.fst ++ [k] := by
  induction entries with
  | nil => simp [put]
  | cons e entries ih =>
      obtain ⟨k', v'⟩ := e
      rw [put]
      by_cases h : k' = k
      · simp [h]
      · have h' : k ≠ k' := Ne.symm h
        rw [if_neg h, List.map_cons, List.map_cons, ih]
        by_cases hmem : k ∈ entries.map Prod.fst
        · rw [if_pos hmem, if_pos (List.mem_cons_of_mem _ hmem)]
        · rw [if_neg hmem, if_neg (by simp [h', hmem]), List.cons_append]

/-- `map.set(k, v)`. -/
def set (m : OrderedMap κ ν) (k : κ) (v : ν) : OrderedMap κ ν where
  entries := put k v m.entries
  nodup := by
    rw [map_fst_put]
    split
    · exact m.nodup
    · next h => exact List.nodup_append.mpr ⟨m.nodup, List.nodup_singleton k, by
        intro a ha b hb hab
        rw [List.mem_singleton] at hb
        exact h (hb ▸ hab ▸ ha)⟩

/-- A loop over the map that deletes the entries `keep` refuses. -/
def retain (keep : κ → ν → Bool) (m : OrderedMap κ ν) : OrderedMap κ ν where
  entries := m.entries.filter fun e => keep e.1 e.2
  nodup := m.nodup.sublist (List.filter_sublist.map _)

/-- A loop over the map that deletes its first `n` entries. -/
def dropFirst (n : ℕ) (m : OrderedMap κ ν) : OrderedMap κ ν where
  entries := m.entries.drop n
  nodup := m.nodup.sublist ((List.drop_sublist n m.entries).map _)

/-- A `set` adds at most one entry. -/
theorem size_set_le (m : OrderedMap κ ν) (k : κ) (v : ν) : (m.set k v).size ≤ m.size + 1 := by
  have hkeys := congrArg List.length (map_fst_put k v m.entries)
  rw [List.length_map] at hkeys
  rw [size, set, hkeys, size]
  split <;> simp

omit [DecidableEq κ] in
/-- A loop that deletes leaves no more entries than there were. -/
theorem size_retain_le (keep : κ → ν → Bool) (m : OrderedMap κ ν) :
    (m.retain keep).size ≤ m.size :=
  List.length_filter_le _ _

omit [DecidableEq κ] in
/-- Dropping the first entries leaves those behind them. -/
theorem entries_dropFirst (n : ℕ) (m : OrderedMap κ ν) :
    (m.dropFirst n).entries = m.entries.drop n := rfl

omit [DecidableEq κ] in
/-- And so many fewer of them. -/
theorem size_dropFirst (n : ℕ) (m : OrderedMap κ ν) : (m.dropFirst n).size = m.size - n :=
  List.length_drop

/-- An empty map has no keys. -/
@[simp] theorem get_empty (k : κ) : (empty : OrderedMap κ ν).get k = none := rfl

/-- **What is found after a put** is the value that was put, or what was found before. -/
theorem find_put (k k' : κ) (v : ν) (entries : List (κ × ν)) :
    find k' (put k v entries) = if k = k' then some v else find k' entries := by
  induction entries with
  | nil => rfl
  | cons e entries ih =>
      obtain ⟨a, b⟩ := e
      rw [put]
      by_cases hak : a = k
      · subst hak
        rw [if_pos rfl, find, find]
        split <;> rfl
      · rw [if_neg hak, find, find, ih]
        by_cases hak' : a = k'
        · subst hak'
          rw [if_pos rfl, if_pos rfl, if_neg (Ne.symm hak)]
        · rw [if_neg hak', if_neg hak']

/-- **A map after a `set`.** -/
theorem get_set (m : OrderedMap κ ν) (k k' : κ) (v : ν) :
    (m.set k v).get k' = if k = k' then some v else m.get k' :=
  find_put k k' v m.entries

/-- A key that no entry has is not found. -/
theorem find_eq_none_of_not_mem {k : κ} {entries : List (κ × ν)}
    (h : k ∉ entries.map Prod.fst) : find k entries = none := by
  induction entries with
  | nil => rfl
  | cons e entries ih =>
      rw [List.map_cons, List.mem_cons, not_or] at h
      rw [find, if_neg (Ne.symm h.1), ih h.2]

/-- What is found in the entries that are kept is what was found, if it is kept; keys are
distinct, so nothing comes to light behind it. -/
theorem find_filter {k : κ} {entries : List (κ × ν)} (keep : κ → ν → Bool)
    (hnodup : (entries.map Prod.fst).Nodup) :
    find k (entries.filter fun e => keep e.1 e.2) = (find k entries).filter (keep k) := by
  induction entries with
  | nil => rfl
  | cons e entries ih =>
      obtain ⟨a, b⟩ := e
      rw [List.map_cons, List.nodup_cons] at hnodup
      obtain ⟨hnew, hnodup⟩ := hnodup
      rw [find]
      by_cases hak : a = k
      · subst hak
        rw [if_pos rfl]
        cases hkeep : keep a b with
        | true =>
            rw [List.filter_cons_of_pos (by exact hkeep), find, if_pos rfl, Option.filter_some,
              hkeep, if_pos rfl]
        | false =>
            -- No later entry has the same key.
            have hnone : find a (entries.filter fun e => keep e.1 e.2) = none :=
              find_eq_none_of_not_mem fun hmem =>
                hnew ((List.filter_sublist.map Prod.fst).subset hmem)
            rw [List.filter_cons_of_neg (by simp [hkeep]), hnone, Option.filter_some, hkeep]
            rfl
      · rw [if_neg hak, ← ih hnodup]
        cases hkeep : keep a b with
        | true => rw [List.filter_cons_of_pos (by exact hkeep), find, if_neg hak]
        | false => rw [List.filter_cons_of_neg (by simp [hkeep])]

/-- **A map after a deleting loop**: a key is there exactly if it was and its entry was
kept. -/
theorem get_retain (m : OrderedMap κ ν) (keep : κ → ν → Bool) (k : κ) :
    (m.retain keep).get k = (m.get k).filter (keep k) :=
  find_filter keep m.nodup

/-- The entries of a map are what it gives for their keys. -/
theorem find_eq_some_iff {k : κ} {v : ν} {entries : List (κ × ν)}
    (hnodup : (entries.map Prod.fst).Nodup) : find k entries = some v ↔ (k, v) ∈ entries := by
  induction entries with
  | nil => simp [find]
  | cons e entries ih =>
      obtain ⟨a, b⟩ := e
      rw [List.map_cons, List.nodup_cons] at hnodup
      rw [find, List.mem_cons]
      by_cases hak : a = k
      · subst hak
        have hnew : (a, v) ∉ entries := fun hmem => hnodup.1 (List.mem_map.mpr ⟨_, hmem, rfl⟩)
        simp [hnew, eq_comm]
      · rw [if_neg hak, ih hnodup.2]
        simp [Ne.symm hak]

/-- A lookup finds exactly the entries of the map. -/
theorem get_eq_some_iff {m : OrderedMap κ ν} {k : κ} {v : ν} :
    m.get k = some v ↔ (k, v) ∈ m.entries :=
  find_eq_some_iff m.nodup

/-- A lookup finds nothing exactly where no entry has the key. -/
theorem get_eq_none_iff {m : OrderedMap κ ν} {k : κ} :
    m.get k = none ↔ k ∉ m.entries.map Prod.fst := by
  refine ⟨fun h hmem => ?_, find_eq_none_of_not_mem⟩
  obtain ⟨⟨k, v⟩, he, rfl⟩ := List.mem_map.mp hmem
  rw [get_eq_some_iff.mpr he] at h
  cases h

/-- An entry after a `set` is the new one, or an old one of another key. -/
theorem mem_put {k : κ} {v : ν} {entries : List (κ × ν)}
    (hnodup : (entries.map Prod.fst).Nodup) {e : κ × ν} :
    e ∈ put k v entries ↔ e = (k, v) ∨ (e ∈ entries ∧ e.1 ≠ k) := by
  induction entries with
  | nil => simp [put]
  | cons e' entries ih =>
      obtain ⟨a, b⟩ := e'
      rw [List.map_cons, List.nodup_cons] at hnodup
      rw [put]
      by_cases hak : a = k
      · subst hak
        have hother : ∀ e ∈ entries, e.1 ≠ a := by
          rintro e he rfl
          exact hnodup.1 (List.mem_map.mpr ⟨e, he, rfl⟩)
        rw [if_pos rfl, List.mem_cons, List.mem_cons]
        constructor
        · rintro (rfl | he)
          · exact Or.inl rfl
          · exact Or.inr ⟨Or.inr he, hother e he⟩
        · rintro (rfl | ⟨rfl | he, hne⟩)
          · exact Or.inl rfl
          · exact absurd rfl hne
          · exact Or.inr he
      · rw [if_neg hak, List.mem_cons, List.mem_cons, ih hnodup.2]
        constructor
        · rintro (rfl | rfl | ⟨he, hne⟩)
          · exact Or.inr ⟨Or.inl rfl, hak⟩
          · exact Or.inl rfl
          · exact Or.inr ⟨Or.inr he, hne⟩
        · rintro (rfl | ⟨rfl | he, hne⟩)
          · exact Or.inr (Or.inl rfl)
          · exact Or.inl rfl
          · exact Or.inr (Or.inr ⟨he, hne⟩)

/-- After a `set` the entries are the new one and those of the other keys. -/
theorem mem_set_iff {m : OrderedMap κ ν} {k : κ} {v : ν} {e : κ × ν} :
    e ∈ (m.set k v).entries ↔ e = (k, v) ∨ (e ∈ m.entries ∧ e.1 ≠ k) :=
  mem_put m.nodup

/-- A new key goes to the end. -/
theorem put_of_not_mem {k : κ} (v : ν) {entries : List (κ × ν)}
    (h : k ∉ entries.map Prod.fst) : put k v entries = entries ++ [(k, v)] := by
  induction entries with
  | nil => rfl
  | cons e entries ih =>
      rw [List.map_cons, List.mem_cons, not_or] at h
      rw [put, if_neg (Ne.symm h.1), ih h.2, List.cons_append]

end OrderedMap

end Js
