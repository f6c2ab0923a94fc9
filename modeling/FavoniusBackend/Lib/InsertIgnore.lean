import Mathlib.Data.List.Nodup

/-!
# Inserts that ignore conflicts

A table with a partial unique index, and `INSERT … ON CONFLICT DO NOTHING` on it: `key` is the indexed
value of a row, `none` for a row that the index leaves out.  What a sequence of such inserts does to the
rows that satisfy a predicate is what its own row does, where only one of them satisfies it.
-/

namespace FavoniusBackend.Lib.InsertIgnore

variable {ρ κ : Type} [DecidableEq κ] (key : ρ → Option κ)

def Taken (rows : List ρ) (k : Option κ) : Prop := k.isSome = true ∧ ∃ row ∈ rows, key row = k

instance (rows : List ρ) (k : Option κ) : Decidable (Taken key rows k) := inferInstanceAs (Decidable (_ ∧ _))

/-- `INSERT … ON CONFLICT DO NOTHING`. -/
def insert (rows : List ρ) (row : ρ) : List ρ := if Taken key rows (key row) then rows else rows ++ [row]

def insertAll (rows : List ρ) (new : List ρ) : List ρ := new.foldl (insert key) rows

variable {key} {rows : List ρ}

theorem insert_taken {row : ρ} (h : Taken key rows (key row)) : insert key rows row = rows := if_pos h

theorem insert_free {row : ρ} (h : ¬Taken key rows (key row)) : insert key rows row = rows ++ [row] := if_neg h

theorem insertAll_cons (row : ρ) (new : List ρ) :
    insertAll key rows (row :: new) = insertAll key (insert key rows row) new := rfl

theorem insertAll_append (new new' : List ρ) :
    insertAll key rows (new ++ new') = insertAll key (insertAll key rows new) new' := List.foldl_append

omit [DecidableEq κ] in
theorem Taken.append {k : Option κ} (h : Taken key rows k) (new : List ρ) : Taken key (rows ++ new) k := by
  obtain ⟨hsome, row, hrow, heq⟩ := h
  exact ⟨hsome, row, List.mem_append_left new hrow, heq⟩

theorem taken_insert_iff (row : ρ) (k : Option κ) :
    Taken key (insert key rows row) k ↔ Taken key rows k ∨ (k.isSome = true ∧ key row = k) := by
  by_cases htaken : Taken key rows (key row)
  · rw [insert_taken htaken]
    constructor
    · exact fun h => .inl h
    · rintro (h | ⟨-, rfl⟩)
      · exact h
      · exact htaken
  · rw [insert_free htaken]
    unfold Taken
    simp only [List.mem_append, List.mem_singleton, or_and_right, exists_or, exists_eq_left]
    exact and_or_left

theorem taken_insertAll_iff (new : List ρ) (k : Option κ) :
    Taken key (insertAll key rows new) k ↔ Taken key rows k ∨ (k.isSome = true ∧ ∃ row ∈ new, key row = k) := by
  induction new generalizing rows with
  | nil => simp [insertAll]
  | cons row new ih =>
    rw [insertAll_cons, ih, taken_insert_iff]
    simp only [List.mem_cons, exists_eq_or_imp, and_or_left]
    exact or_assoc

/-! ### The rows of one kind -/

variable (p : ρ → Bool)

theorem filter_insert_of_neg {row : ρ} (h : p row = false) : (insert key rows row).filter p = rows.filter p := by
  unfold insert
  split
  · rfl
  · rw [List.filter_append, List.filter_cons_of_neg (by simp [h]), List.filter_nil, List.append_nil]

theorem filter_insertAll_of_neg {new : List ρ} (h : ∀ row ∈ new, p row = false) :
    (insertAll key rows new).filter p = rows.filter p := by
  induction new generalizing rows with
  | nil => rfl
  | cons row new ih =>
    rw [insertAll_cons, ih fun row' hrow' => h row' (List.mem_cons_of_mem row hrow'),
      filter_insert_of_neg p (h row List.mem_cons_self)]

/-- **The rows of one kind after the inserts**, where only one of the new rows is of that kind: one more
than before if its value was free when its turn came. -/
theorem filter_insertAll {before after : List ρ} {row : ρ} (hrow : p row = true)
    (hbefore : ∀ row' ∈ before, p row' = false) (hafter : ∀ row' ∈ after, p row' = false) :
    (insertAll key rows (before ++ row :: after)).filter p =
      if Taken key (insertAll key rows before) (key row) then rows.filter p else rows.filter p ++ [row] := by
  rw [insertAll_append, insertAll_cons, filter_insertAll_of_neg p hafter]
  split
  · rename_i htaken
    rw [insert_taken htaken, filter_insertAll_of_neg p hbefore]
  · rename_i hfree
    rw [insert_free hfree, List.filter_append, filter_insertAll_of_neg p hbefore,
      List.filter_cons_of_pos hrow, List.filter_nil]

/-! ### The index -/

def Unique (key : ρ → Option κ) (rows : List ρ) : Prop := (rows.filterMap key).Nodup

instance : Decidable (Unique key rows) := inferInstanceAs (Decidable (List.Nodup _))

theorem unique_insert (h : Unique key rows) (row : ρ) : Unique key (insert key rows row) := by
  unfold insert
  split
  · exact h
  · rename_i hfree
    unfold Unique
    rw [List.filterMap_append]
    refine List.Nodup.append h ?_ ?_
    · cases hkey : key row with
      | none => simp [hkey]
      | some k => simp [hkey]
    · intro k hk hnew
      obtain ⟨row', hrow', hkey'⟩ := List.mem_filterMap.mp hk
      obtain ⟨row'', hrow'', hkey''⟩ := List.mem_filterMap.mp hnew
      obtain rfl := List.mem_singleton.mp hrow''
      exact hfree ⟨by rw [hkey'']; rfl, row', hrow', by rw [hkey', hkey'']⟩

theorem unique_insertAll (h : Unique key rows) (new : List ρ) : Unique key (insertAll key rows new) := by
  induction new generalizing rows with
  | nil => exact h
  | cons row new ih => exact ih (unique_insert h row)

theorem insertAll_taken {new : List ρ} (h : ∀ row ∈ new, Taken key rows (key row)) : insertAll key rows new = rows := by
  induction new with
  | nil => rfl
  | cons row new ih =>
    rw [insertAll_cons, insert_taken (h row List.mem_cons_self)]
    exact ih fun row' hrow' => h row' (List.mem_cons_of_mem row hrow')

/-- **The same inserts again** change nothing. -/
theorem insertAll_again {new : List ρ} (hindexed : ∀ row ∈ new, (key row).isSome = true) :
    insertAll key (insertAll key rows new) new = insertAll key rows new := by
  refine insertAll_taken fun row hrow => (taken_insertAll_iff new (key row)).mpr (.inr ?_)
  exact ⟨hindexed row hrow, row, hrow, rfl⟩

end FavoniusBackend.Lib.InsertIgnore
