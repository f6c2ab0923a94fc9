import Mathlib.Data.List.Nodup

/-!
# Insertion-ordered dictionaries

A Python `dict` keeps its keys in the order of their first insertion, and assigning to a present key
replaces the value in place.  `Dict` is that object: an association list that carries the proof that
no key occurs twice, so a lookup never has to choose between two entries and `items` is a faithful
iteration order.

The interface is `get?`, `set`, `keys` and `ofList` (repeated assignment); the lemmas say what each
of them does to a lookup and to the key list, which is all that later proofs use.
-/

namespace FavoniusBackend.Lib

/-- An insertion-ordered dictionary: entries in order of first insertion, every key once. -/
structure Dict (κ ν : Type) where
  items : List (κ × ν)
  nodup_keys : (items.map Prod.fst).Nodup
  deriving DecidableEq

namespace Dict

variable {κ ν : Type}

def empty : Dict κ ν := ⟨[], List.nodup_nil⟩

def keys (d : Dict κ ν) : List κ := d.items.map Prod.fst

def values (d : Dict κ ν) : List ν := d.items.map Prod.snd

/-- `k in d`. -/
instance : Membership κ (Dict κ ν) := ⟨fun d k => k ∈ d.keys⟩

theorem mem_iff_mem_keys {d : Dict κ ν} {k : κ} : k ∈ d ↔ k ∈ d.keys := Iff.rfl

@[simp] theorem keys_empty : (empty : Dict κ ν).keys = [] := rfl

@[simp] theorem not_mem_empty (k : κ) : ¬ k ∈ (empty : Dict κ ν) := by
  rw [mem_iff_mem_keys, keys_empty]
  exact List.not_mem_nil

variable [DecidableEq κ]

instance (d : Dict κ ν) (k : κ) : Decidable (k ∈ d) := inferInstanceAs (Decidable (k ∈ d.keys))

def lookup : List (κ × ν) → κ → Option ν
  | [], _ => none
  | (k', v) :: rest, k => if k' = k then some v else lookup rest k

def get? (d : Dict κ ν) (k : κ) : Option ν := lookup d.items k

/-- `d.get(k, default)`. -/
def getD (d : Dict κ ν) (k : κ) (default : ν) : ν := (d.get? k).getD default

/-- Assignment in an association list: replace in place, or append a fresh key. -/
def assign : List (κ × ν) → κ → ν → List (κ × ν)
  | [], k, v => [(k, v)]
  | (k', v') :: rest, k, v => if k' = k then (k', v) :: rest else (k', v') :: assign rest k v

theorem assign_keys (l : List (κ × ν)) (k : κ) (v : ν) :
    (assign l k v).map Prod.fst =
      if k ∈ l.map Prod.fst then l.map Prod.fst else l.map Prod.fst ++ [k] := by
  induction l with
  | nil => simp [assign]
  | cons p rest ih =>
    obtain ⟨k', v'⟩ := p
    by_cases hk : k' = k
    · simp [assign, hk]
    · have hk' : ¬ k = k' := fun h => hk h.symm
      simp only [assign, if_neg hk, List.map_cons, ih, List.mem_cons, hk', false_or]
      split <;> simp

theorem assign_nodup (l : List (κ × ν)) (k : κ) (v : ν) (h : (l.map Prod.fst).Nodup) :
    ((assign l k v).map Prod.fst).Nodup := by
  rw [assign_keys]
  split
  · exact h
  · rename_i hk
    exact List.Nodup.append h (List.nodup_singleton k) (by simpa using hk)

/-- `d[k] = v`. -/
def set (d : Dict κ ν) (k : κ) (v : ν) : Dict κ ν :=
  ⟨assign d.items k v, assign_nodup d.items k v d.nodup_keys⟩

/-- Repeated assignment, left to right: the dictionary a comprehension over `l` builds. -/
def ofList (l : List (κ × ν)) : Dict κ ν := l.foldl (fun d p => d.set p.1 p.2) empty

/-! ### Lookups -/

@[simp] theorem get?_empty (k : κ) : (empty : Dict κ ν).get? k = none := rfl

theorem lookup_assign (l : List (κ × ν)) (k k' : κ) (v : ν) :
    lookup (assign l k v) k' = if k' = k then some v else lookup l k' := by
  induction l with
  | nil =>
    by_cases h : k = k'
    · simp [assign, lookup, h]
    · simp [assign, lookup, h, Ne.symm h]
  | cons p rest ih =>
    obtain ⟨k₀, v₀⟩ := p
    by_cases hk : k₀ = k
    · subst hk
      by_cases h : k₀ = k'
      · simp [assign, lookup, h]
      · simp [assign, lookup, h, Ne.symm h]
    · by_cases h : k₀ = k'
      · subst h
        simp [assign, lookup, hk]
      · simp [assign, lookup, hk, h, ih]

theorem get?_set (d : Dict κ ν) (k k' : κ) (v : ν) :
    (d.set k v).get? k' = if k' = k then some v else d.get? k' :=
  lookup_assign d.items k k' v

@[simp] theorem get?_set_self (d : Dict κ ν) (k : κ) (v : ν) : (d.set k v).get? k = some v := by
  simp [get?_set]

theorem get?_set_ne (d : Dict κ ν) {k k' : κ} (v : ν) (h : k' ≠ k) :
    (d.set k v).get? k' = d.get? k' := by
  simp [get?_set, h]

theorem keys_set (d : Dict κ ν) (k : κ) (v : ν) :
    (d.set k v).keys = if k ∈ d.keys then d.keys else d.keys ++ [k] :=
  assign_keys d.items k v

@[simp] theorem mem_set {d : Dict κ ν} {k k' : κ} {v : ν} : k' ∈ d.set k v ↔ k' = k ∨ k' ∈ d := by
  simp only [mem_iff_mem_keys, keys_set]
  split
  · rename_i hk
    constructor
    · exact Or.inr
    · rintro (rfl | h)
      · exact hk
      · exact h
  · rw [List.mem_append, List.mem_singleton, or_comm]

theorem lookup_isSome_iff (l : List (κ × ν)) (k : κ) :
    (lookup l k).isSome ↔ k ∈ l.map Prod.fst := by
  induction l with
  | nil => simp [lookup]
  | cons p rest ih =>
    obtain ⟨k', v⟩ := p
    by_cases h : k' = k
    · simp [lookup, h]
    · simp [lookup, h, Ne.symm h, ih]

theorem mem_iff_isSome {d : Dict κ ν} {k : κ} : k ∈ d ↔ (d.get? k).isSome :=
  (lookup_isSome_iff d.items k).symm

theorem mem_of_get? {d : Dict κ ν} {k : κ} {v : ν} (h : d.get? k = some v) : k ∈ d := by
  rw [mem_iff_isSome, h]
  rfl

theorem lookup_eq_some_iff (l : List (κ × ν)) (hl : (l.map Prod.fst).Nodup) (k : κ) (v : ν) :
    lookup l k = some v ↔ (k, v) ∈ l := by
  induction l with
  | nil => simp [lookup]
  | cons p rest ih =>
    obtain ⟨k', v'⟩ := p
    rw [List.map_cons, List.nodup_cons] at hl
    by_cases h : k' = k
    · subst h
      have hnot : (k', v) ∉ rest := fun hm => hl.1 (List.mem_map.mpr ⟨(k', v), hm, rfl⟩)
      simp [lookup, hnot, eq_comm]
    · simp [lookup, h, Ne.symm h, ih hl.2]

theorem mem_items_iff {d : Dict κ ν} {k : κ} {v : ν} : (k, v) ∈ d.items ↔ d.get? k = some v :=
  (lookup_eq_some_iff d.items d.nodup_keys k v).symm

theorem filter_lookup (l : List (κ × ν)) (hl : (l.map Prod.fst).Nodup) (k : κ) :
    (l.filter fun p => p.1 = k) = ((lookup l k).map fun v => (k, v)).toList := by
  induction l with
  | nil => rfl
  | cons p rest ih =>
    obtain ⟨k', v'⟩ := p
    rw [List.map_cons, List.nodup_cons] at hl
    by_cases h : k' = k
    · subst h
      have hnone : lookup rest k' = none := by
        rw [← Option.not_isSome_iff_eq_none, lookup_isSome_iff]
        exact hl.1
      rw [List.filter_cons_of_pos (by simp), ih hl.2, hnone]
      simp [lookup]
    · rw [List.filter_cons_of_neg (by simpa using h), ih hl.2]
      simp [lookup, h]

theorem filter_items (d : Dict κ ν) (k : κ) :
    (d.items.filter fun p => p.1 = k) = ((d.get? k).map fun v => (k, v)).toList :=
  filter_lookup d.items d.nodup_keys k

/-! ### All entries at once -/

/-- Every value is replaced. -/
def mapValues {ν' : Type} (f : ν → ν') (d : Dict κ ν) : Dict κ ν' where
  items := d.items.map fun p => (p.1, f p.2)
  nodup_keys := by
    rw [List.map_map]
    exact d.nodup_keys

theorem lookup_map {ν' : Type} (f : ν → ν') (l : List (κ × ν)) (k : κ) :
    lookup (l.map fun p => (p.1, f p.2)) k = (lookup l k).map f := by
  induction l with
  | nil => rfl
  | cons p rest ih =>
    obtain ⟨k', v⟩ := p
    rw [List.map_cons, lookup, lookup]
    split
    · rfl
    · exact ih

@[simp] theorem get?_mapValues {ν' : Type} (f : ν → ν') (d : Dict κ ν) (k : κ) :
    (d.mapValues f).get? k = (d.get? k).map f := lookup_map f d.items k

def mapWithKey {ν' : Type} (f : κ → ν → ν') (d : Dict κ ν) : Dict κ ν' where
  items := d.items.map fun p => (p.1, f p.1 p.2)
  nodup_keys := by
    rw [List.map_map]
    exact d.nodup_keys

theorem lookup_mapWithKey {ν' : Type} (f : κ → ν → ν') (l : List (κ × ν)) (k : κ) :
    lookup (l.map fun p => (p.1, f p.1 p.2)) k = (lookup l k).map (f k) := by
  induction l with
  | nil => rfl
  | cons p rest ih =>
    obtain ⟨k', v⟩ := p
    rw [List.map_cons, lookup, lookup]
    split
    · rename_i hk
      rw [hk]
      rfl
    · exact ih

@[simp] theorem get?_mapWithKey {ν' : Type} (f : κ → ν → ν') (d : Dict κ ν) (k : κ) :
    (d.mapWithKey f).get? k = (d.get? k).map (f k) := lookup_mapWithKey f d.items k

/-- The entries that satisfy a condition. -/
def filter (p : κ → ν → Bool) (d : Dict κ ν) : Dict κ ν where
  items := d.items.filter fun e => p e.1 e.2
  nodup_keys := d.nodup_keys.sublist (List.filter_sublist.map Prod.fst)

theorem get?_filter (p : κ → ν → Bool) (d : Dict κ ν) (k : κ) :
    (d.filter p).get? k = (d.get? k).filter fun v => p k v := by
  ext v
  rw [← mem_items_iff, Option.filter_eq_some_iff, ← mem_items_iff]
  exact List.mem_filter

/-- `d.pop(k, None)`. -/
def erase (d : Dict κ ν) (k : κ) : Dict κ ν := d.filter fun k' _ => decide (k' ≠ k)

theorem get?_erase (d : Dict κ ν) (k k' : κ) :
    (d.erase k).get? k' = if k' = k then none else d.get? k' := by
  rw [erase, get?_filter]
  by_cases hk : k' = k
  · rw [if_pos hk, Option.filter_eq_none_iff]
    intro v _
    simp [hk]
  · rw [if_neg hk]
    cases d.get? k' with
    | none => rfl
    | some v => exact Option.filter_some_pos (decide_eq_true hk)

/-! ### Repeated assignment -/

theorem mem_foldl_set (l : List (κ × ν)) (d : Dict κ ν) (k : κ) :
    k ∈ l.foldl (fun d p => d.set p.1 p.2) d ↔ k ∈ d ∨ k ∈ l.map Prod.fst := by
  induction l generalizing d with
  | nil => simp
  | cons p rest ih =>
    rw [List.foldl_cons, ih, mem_set, List.map_cons, List.mem_cons]
    tauto

theorem mem_ofList {l : List (κ × ν)} {k : κ} : k ∈ ofList l ↔ k ∈ l.map Prod.fst := by
  rw [ofList, mem_foldl_set]
  simp

theorem get?_foldl_set (l : List (κ × ν)) (d : Dict κ ν) (k : κ) :
    (l.foldl (fun d p => d.set p.1 p.2) d).get? k =
      ((l.filter (fun p => p.1 = k)).getLast?.map Prod.snd).or (d.get? k) := by
  induction l generalizing d with
  | nil => simp
  | cons p rest ih =>
    rw [List.foldl_cons, ih, get?_set]
    by_cases h : p.1 = k
    · subst h
      rw [List.filter_cons_of_pos (by simp), List.getLast?_cons]
      cases hr : (rest.filter (fun q => q.1 = p.1)).getLast? <;> simp
    · rw [List.filter_cons_of_neg (by simpa using h), if_neg (Ne.symm h)]

theorem get?_ofList (l : List (κ × ν)) (k : κ) :
    (ofList l).get? k = (l.filter (fun p => p.1 = k)).getLast?.map Prod.snd := by
  rw [ofList, get?_foldl_set]
  simp

theorem get?_ofList_of_nodup {l : List (κ × ν)} (hl : (l.map Prod.fst).Nodup) {k : κ} {v : ν} :
    (ofList l).get? k = some v ↔ (k, v) ∈ l := by
  rw [get?_ofList]
  induction l with
  | nil => simp
  | cons p rest ih =>
    obtain ⟨k', v'⟩ := p
    rw [List.map_cons, List.nodup_cons] at hl
    by_cases h : k' = k
    · subst h
      have hnil : (rest.filter fun p => p.1 = k') = [] := by
        rw [List.filter_eq_nil_iff]
        intro q hq
        have hne : q.1 ≠ k' := fun he => hl.1 (List.mem_map.mpr ⟨q, hq, he⟩)
        simpa using hne
      have hnot : (k', v) ∉ rest := fun hm => hl.1 (List.mem_map.mpr ⟨(k', v), hm, rfl⟩)
      rw [List.filter_cons_of_pos (by simp), hnil]
      simp [hnot, eq_comm]
    · rw [List.filter_cons_of_neg (by simpa using h), ih hl.2]
      simp [Ne.symm h]

/-- **A grouping loop.**  When each row updates the entry of its own key, the entry of a key is what the
rows of that key make of it. -/
theorem getD_foldl_group {α : Type} (key : α → κ) (update : ν → α → ν) (initial : ν) (rows : List α)
    (d : Dict κ ν) (k : κ) :
    (rows.foldl (fun d row => d.set (key row) (update (d.getD (key row) initial) row)) d).getD k
        initial = (rows.filter fun row => key row = k).foldl update (d.getD k initial) := by
  induction rows generalizing d with
  | nil => rfl
  | cons row rest ih =>
    rw [List.foldl_cons, ih]
    by_cases hk : key row = k
    · subst hk
      rw [List.filter_cons_of_pos (by simp), List.foldl_cons]
      simp [getD]
    · rw [List.filter_cons_of_neg (by simpa using hk)]
      congr 1
      show ((d.set (key row) _).get? k).getD initial = (d.get? k).getD initial
      rw [get?_set_ne d _ (Ne.symm hk)]

end Dict

end FavoniusBackend.Lib
