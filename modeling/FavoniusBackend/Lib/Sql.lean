import Mathlib.Tactic

/-!
# The relational operators of the queries

`ORDER BY`, `LEAD`, `DISTINCT ON`, `GROUP BY` and `UPDATE` over lists of rows.  Sorting is insertion sort, which is
stable and runs in the kernel; rows that compare equal keep the order in which they were read, one of
the orders PostgreSQL may choose.

For each operator there is one specification: `DISTINCT ON` after `ORDER BY` keeps a least row of each
key, and a sum over the groups of a `GROUP BY` is the sum over the rows.
-/

namespace FavoniusBackend.Lib.Sql

variable {α κ : Type}

/-- `ORDER BY`: stable sort by a decidable relation. -/
def orderBy (le : α → α → Prop) [DecidableRel le] (rows : List α) : List α := rows.insertionSort le

theorem mem_orderBy {le : α → α → Prop} [DecidableRel le] {rows : List α} {a : α} :
    a ∈ orderBy le rows ↔ a ∈ rows := List.mem_insertionSort le

theorem orderBy_pairwise (le : α → α → Prop) [DecidableRel le] [Std.Total le] [IsTrans α le]
    (rows : List α) : (orderBy le rows).Pairwise le := List.pairwise_insertionSort le rows

theorem sum_map_filterMap {β : Type} (f : α → Option β) (g : β → ℚ) (rows : List α) :
    ((rows.filterMap f).map g).sum = (rows.map fun a => ((f a).map g).getD 0).sum := by
  induction rows with
  | nil => rfl
  | cons a rows ih =>
    rw [List.filterMap_cons, List.map_cons, List.sum_cons, ← ih]
    cases f a with
    | none => simp
    | some b => simp

theorem sum_map_filter (p : α → Bool) (g : α → ℚ) (rows : List α) :
    ((rows.filter p).map g).sum = (rows.map fun a => if p a then g a else 0).sum := by
  induction rows with
  | nil => rfl
  | cons a rows ih =>
    rw [List.filter_cons, List.map_cons, List.sum_cons, ← ih]
    split
    · rw [List.map_cons, List.sum_cons]
    · rw [zero_add]

theorem filter_orderedInsert_neg (le : α → α → Prop) [DecidableRel le] (p : α → Bool) (a : α)
    (ha : p a = false) (l : List α) : (l.orderedInsert le a).filter p = l.filter p := by
  induction l with
  | nil => simp [ha]
  | cons b l ih =>
    rw [List.orderedInsert_cons]
    split
    · rw [List.filter_cons_of_neg (by simp [ha])]
    · rw [List.filter_cons, List.filter_cons, ih]

theorem filter_orderedInsert_pos (le : α → α → Prop) [DecidableRel le] [IsTrans α le]
    (p : α → Bool) (a : α) (ha : p a = true) (l : List α) (hl : l.Pairwise le) :
    (l.orderedInsert le a).filter p = (l.filter p).orderedInsert le a := by
  induction l with
  | nil => simp [ha]
  | cons b l ih =>
    rw [List.pairwise_cons] at hl
    rw [List.orderedInsert_cons]
    split
    · rename_i hab
      -- everything after `b` is also above `a`, so `a` goes to the front of what is kept
      have hall : ∀ c ∈ (b :: l).filter p, le a c := by
        intro c hc
        rcases List.mem_cons.mp (List.mem_filter.mp hc).1 with rfl | hcl
        · exact hab
        · exact IsTrans.trans a b c hab (hl.1 c hcl)
      rw [List.filter_cons_of_pos ha]
      cases hf : (b :: l).filter p with
      | nil => rfl
      | cons c rest =>
        rw [List.orderedInsert_cons_of_le le rest (hall c (by rw [hf]; exact List.mem_cons_self))]
    · rename_i hab
      by_cases hb : p b = true
      · rw [List.filter_cons_of_pos hb, List.filter_cons_of_pos hb, ih hl.2,
          List.orderedInsert_of_not_le le _ hab]
      · rw [List.filter_cons_of_neg hb, List.filter_cons_of_neg hb, ih hl.2]

/-- **Selection and sorting commute.**  A `WHERE` condition may be applied before or after the
`ORDER BY`. -/
theorem orderBy_filter (le : α → α → Prop) [DecidableRel le] [Std.Total le] [IsTrans α le]
    (p : α → Bool) (rows : List α) : orderBy le (rows.filter p) = (orderBy le rows).filter p := by
  induction rows with
  | nil => rfl
  | cons a rows ih =>
    have hcons : orderBy le (a :: rows) = (orderBy le rows).orderedInsert le a := rfl
    by_cases ha : p a = true
    · rw [hcons, filter_orderedInsert_pos le p a ha _ (orderBy_pairwise le rows), ← ih,
        List.filter_cons_of_pos ha]
      rfl
    · rw [hcons, filter_orderedInsert_neg le p a (by simpa using ha), ← ih,
        List.filter_cons_of_neg ha]

section Lead

/-- `LEAD(..) OVER (ORDER BY ..)` on rows already in order: each row with its successor. -/
def lead : List α → List (α × Option α)
  | [] => []
  | [a] => [(a, none)]
  | a :: b :: rest => (a, some b) :: lead (b :: rest)

theorem lead_cons_cons (a b : α) (rest : List α) :
    lead (a :: b :: rest) = (a, some b) :: lead (b :: rest) := rfl

theorem mem_lead {le : α → α → Prop} {rows : List α} (hrows : rows.Pairwise le) {a : α}
    {next : Option α} (h : (a, next) ∈ lead rows) :
    a ∈ rows ∧ ∀ b, next = some b → b ∈ rows ∧ le a b := by
  induction rows with
  | nil => simp [lead] at h
  | cons c rows ih =>
    rw [List.pairwise_cons] at hrows
    cases rows with
    | nil =>
      simp only [lead, List.mem_singleton, Prod.mk.injEq] at h
      obtain ⟨rfl, rfl⟩ := h
      exact ⟨List.mem_cons_self, by intro b hb; cases hb⟩
    | cons d rest =>
      rw [lead_cons_cons] at h
      rcases List.mem_cons.mp h with heq | hrest
      · obtain ⟨rfl, rfl⟩ := Prod.mk.inj heq
        refine ⟨List.mem_cons_self, ?_⟩
        intro b hb
        obtain rfl := Option.some.inj hb
        exact ⟨List.mem_cons_of_mem _ List.mem_cons_self, hrows.1 _ List.mem_cons_self⟩
      · obtain ⟨ha, hnext⟩ := ih hrows.2 hrest
        refine ⟨List.mem_cons_of_mem _ ha, ?_⟩
        intro b hb
        obtain ⟨hmem, hle⟩ := hnext b hb
        exact ⟨List.mem_cons_of_mem _ hmem, hle⟩

theorem getLast?_of_mem_lead {rows : List α} {a : α} (h : (a, none) ∈ lead rows) :
    rows.getLast? = some a := by
  induction rows with
  | nil => simp [lead] at h
  | cons c rows ih =>
    cases rows with
    | nil =>
      simp only [lead, List.mem_singleton, Prod.mk.injEq, and_true] at h
      rw [h, List.getLast?_singleton]
    | cons d rest =>
      rw [lead_cons_cons] at h
      rcases List.mem_cons.mp h with heq | hrest
      · cases heq
      · rw [List.getLast?_cons_cons]
        exact ih hrest

end Lead

section DistinctOn

variable [DecidableEq κ]

/-- `DISTINCT ON (key)` on rows already in order: keep a row when its key is not among those seen. -/
def distinctOn (key : α → κ) : List κ → List α → List α
  | _, [] => []
  | seen, a :: rest =>
    if key a ∈ seen then distinctOn key seen rest else a :: distinctOn key (key a :: seen) rest

theorem mem_distinctOn (key : α → κ) (a : α) :
    ∀ (rows : List α) (seen : List κ), a ∈ distinctOn key seen rows →
      a ∈ rows ∧ key a ∉ seen := by
  intro rows
  induction rows with
  | nil => intro seen h; simp [distinctOn] at h
  | cons b rest ih =>
    intro seen h
    rw [distinctOn] at h
    split at h
    · obtain ⟨hmem, hseen⟩ := ih seen h
      exact ⟨List.mem_cons_of_mem _ hmem, hseen⟩
    · rename_i hb
      rcases List.mem_cons.mp h with rfl | h
      · exact ⟨List.mem_cons_self, hb⟩
      · obtain ⟨hmem, hseen⟩ := ih (key b :: seen) h
        exact ⟨List.mem_cons_of_mem _ hmem, fun hs => hseen (List.mem_cons_of_mem _ hs)⟩

theorem exists_mem_distinctOn (key : α → κ) (a : α) :
    ∀ (rows : List α) (seen : List κ), a ∈ rows → key a ∉ seen →
      ∃ b ∈ distinctOn key seen rows, key b = key a := by
  intro rows
  induction rows with
  | nil => intro seen h; simp at h
  | cons c rest ih =>
    intro seen h hseen
    rw [distinctOn]
    split
    · rename_i hc
      rcases List.mem_cons.mp h with rfl | h
      · exact absurd hc hseen
      · exact ih seen h hseen
    · rename_i hc
      by_cases hkey : key a = key c
      · exact ⟨c, List.mem_cons_self, hkey.symm⟩
      · have ha : a ∈ rest := by
          rcases List.mem_cons.mp h with rfl | h
          · exact absurd rfl hkey
          · exact h
        obtain ⟨b, hb, hbk⟩ := ih (key c :: seen) ha (by simp [hkey, hseen])
        exact ⟨b, List.mem_cons_of_mem _ hb, hbk⟩

theorem distinctOn_le (le : α → α → Prop) (hrefl : ∀ a, le a a) (key : α → κ) :
    ∀ (rows : List α) (seen : List κ), rows.Pairwise le →
      ∀ a ∈ distinctOn key seen rows, ∀ b ∈ rows, key b = key a → le a b := by
  intro rows
  induction rows with
  | nil => intro seen _ a ha; simp [distinctOn] at ha
  | cons c rest ih =>
    intro seen hsorted a ha b hb hkey
    rw [List.pairwise_cons] at hsorted
    rw [distinctOn] at ha
    split at ha
    · rename_i hc
      rcases List.mem_cons.mp hb with rfl | hb
      · -- the head's key was seen, so it is not the key of a kept row
        exact absurd (hkey ▸ hc) (mem_distinctOn key a rest seen ha).2
      · exact ih seen hsorted.2 a ha b hb hkey
    · rcases List.mem_cons.mp ha with rfl | ha
      · rcases List.mem_cons.mp hb with rfl | hb
        · exact hrefl _
        · exact hsorted.1 b hb
      · rcases List.mem_cons.mp hb with rfl | hb
        · have hnot := (mem_distinctOn key a rest (key b :: seen) ha).2
          exact absurd (by rw [hkey]; exact List.mem_cons_self) hnot
        · exact ih (key c :: seen) hsorted.2 a ha b hb hkey

theorem distinctOn_sublist (key : α → κ) :
    ∀ (rows : List α) (seen : List κ), (distinctOn key seen rows).Sublist rows := by
  intro rows
  induction rows with
  | nil => exact fun _ => List.Sublist.slnil
  | cons c rest ih =>
    intro seen
    rw [distinctOn]
    split
    · exact (ih seen).cons c
    · exact (ih (key c :: seen)).cons_cons c

theorem distinctOn_keys_nodup (key : α → κ) :
    ∀ (rows : List α) (seen : List κ), ((distinctOn key seen rows).map key).Nodup := by
  intro rows
  induction rows with
  | nil => intro seen; simp [distinctOn]
  | cons c rest ih =>
    intro seen
    rw [distinctOn]
    split
    · exact ih seen
    · rw [List.map_cons, List.nodup_cons]
      refine ⟨?_, ih (key c :: seen)⟩
      intro h
      obtain ⟨b, hb, hbk⟩ := List.mem_map.mp h
      have hnot := (mem_distinctOn key b rest (key c :: seen) hb).2
      rw [hbk] at hnot
      exact hnot List.mem_cons_self

/-! ### DISTINCT ON with ORDER BY -/

section FirstOf

variable (le : α → α → Prop) [DecidableRel le] (key : α → κ)

/-- `DISTINCT ON (key) .. ORDER BY ..`: of each key, the first row in order. -/
def firstOf (rows : List α) : List α := distinctOn key [] (orderBy le rows)

variable {le key}

theorem mem_of_mem_firstOf {rows : List α} {a : α} (h : a ∈ firstOf le key rows) : a ∈ rows :=
  mem_orderBy.mp (mem_distinctOn key a _ _ h).1

theorem le_of_mem_firstOf [Std.Total le] [IsTrans α le] {rows : List α} {a b : α} (h : a ∈ firstOf le key rows)
    (hb : b ∈ rows) (hkey : key b = key a) : le a b :=
  distinctOn_le le (fun c => (Std.Total.total c c).elim id id) key _ [] (orderBy_pairwise le rows) a h b
    (mem_orderBy.mpr hb) hkey

theorem exists_mem_firstOf {rows : List α} {a : α} (h : a ∈ rows) : ∃ b ∈ firstOf le key rows, key b = key a :=
  exists_mem_distinctOn key a _ [] (mem_orderBy.mpr h) List.not_mem_nil

theorem firstOf_keys_nodup (rows : List α) : ((firstOf le key rows).map key).Nodup :=
  distinctOn_keys_nodup key _ []

theorem firstOf_pairwise [Std.Total le] [IsTrans α le] (rows : List α) : (firstOf le key rows).Pairwise le :=
  (orderBy_pairwise le rows).sublist (distinctOn_sublist key _ [])

theorem mem_distinctOn_orderedInsert {a : α} :
    ∀ (rows : List α) (seen : List κ), key a ∉ seen → (∀ b ∈ rows, key b = key a → le a b) →
      a ∈ distinctOn key seen (rows.orderedInsert le a) := by
  intro rows
  induction rows with
  | nil =>
    intro seen hseen _
    rw [List.orderedInsert_nil, distinctOn, if_neg hseen]
    exact List.mem_cons_self
  | cons c rest ih =>
    intro seen hseen hfirst
    have hrest : ∀ b ∈ rest, key b = key a → le a b := fun b hb => hfirst b (List.mem_cons_of_mem _ hb)
    rw [List.orderedInsert_cons]
    split
    · rw [distinctOn, if_neg hseen]
      exact List.mem_cons_self
    · rename_i hle
      have hne : key a ≠ key c := fun heq => hle (hfirst c List.mem_cons_self heq.symm)
      rw [distinctOn]
      split
      · exact ih seen hseen hrest
      · refine List.mem_cons_of_mem _ (ih (key c :: seen) ?_ hrest)
        rw [List.mem_cons]
        rintro (heq | hmem)
        · exact hne heq
        · exact hseen hmem

theorem mem_firstOf_cons {rows : List α} {a : α} (h : ∀ b ∈ rows, key b = key a → le a b) :
    a ∈ firstOf le key (a :: rows) :=
  mem_distinctOn_orderedInsert _ [] List.not_mem_nil fun b hb => h b (mem_orderBy.mp hb)

end FirstOf

end DistinctOn

/-! ### FULL OUTER JOIN -/

section Join

variable {β : Type} [DecidableEq κ] (keyA : α → κ) (keyB : β → κ)

/-- `FULL OUTER JOIN .. USING (key)`: every pair of rows with the same key, and the rows that have no partner. -/
def fullOuterJoin (as : List α) (bs : List β) : List (Option α × Option β) :=
  (as.flatMap fun a =>
    match bs.filter fun b => decide (keyB b = keyA a) with
    | [] => [(some a, none)]
    | partners => partners.map fun b => (some a, some b)) ++
  (bs.filter fun b => as.all fun a => decide (keyB b ≠ keyA a)).map fun b => (none, some b)

variable {keyA keyB} {as : List α} {bs : List β}

theorem mem_fullOuterJoin {row : Option α × Option β} :
    row ∈ fullOuterJoin keyA keyB as bs ↔
      (∃ a ∈ as, ∃ b ∈ bs, keyB b = keyA a ∧ row = (some a, some b)) ∨
      (∃ a ∈ as, (∀ b ∈ bs, keyB b ≠ keyA a) ∧ row = (some a, none)) ∨
      ∃ b ∈ bs, (∀ a ∈ as, keyB b ≠ keyA a) ∧ row = (none, some b) := by
  have hleft : ∀ a, row ∈ (match bs.filter fun b => decide (keyB b = keyA a) with
      | [] => [(some a, none)]
      | partners => partners.map fun b => (some a, some b)) ↔
      (∃ b ∈ bs, keyB b = keyA a ∧ row = (some a, some b)) ∨
        (∀ b ∈ bs, keyB b ≠ keyA a) ∧ row = (some a, none) := by
    intro a
    split
    · rename_i hnil
      have hnone : ∀ b ∈ bs, keyB b ≠ keyA a := by simpa [List.filter_eq_nil_iff] using hnil
      rw [List.mem_singleton]
      constructor
      · exact fun h => .inr ⟨hnone, h⟩
      · rintro (⟨b, hb, hkey, -⟩ | ⟨-, h⟩)
        · exact absurd hkey (hnone b hb)
        · exact h
    · rename_i hne
      obtain ⟨b₀, hb₀⟩ := List.exists_mem_of_ne_nil _ hne
      rw [List.mem_filter, decide_eq_true_eq] at hb₀
      simp only [List.mem_map, List.mem_filter, decide_eq_true_eq]
      constructor
      · rintro ⟨b, ⟨hb, hkey⟩, rfl⟩
        exact .inl ⟨b, hb, hkey, rfl⟩
      · rintro (⟨b, hb, hkey, rfl⟩ | ⟨hnone, -⟩)
        · exact ⟨b, ⟨hb, hkey⟩, rfl⟩
        · exact absurd hb₀.2 (hnone b₀ hb₀.1)
  simp only [fullOuterJoin, List.mem_append, List.mem_flatMap, hleft, List.mem_map, List.mem_filter, List.all_eq_true,
    decide_eq_true_eq]
  constructor
  · rintro (⟨a, ha, ⟨b, hb, hkey, hrow⟩ | ⟨hnone, hrow⟩⟩ | ⟨b, ⟨hb, hnone⟩, hrow⟩)
    · exact .inl ⟨a, ha, b, hb, hkey, hrow⟩
    · exact .inr (.inl ⟨a, ha, hnone, hrow⟩)
    · exact .inr (.inr ⟨b, hb, hnone, hrow.symm⟩)
  · rintro (⟨a, ha, b, hb, hkey, hrow⟩ | ⟨a, ha, hnone, hrow⟩ | ⟨b, hb, hnone, hrow⟩)
    · exact .inl ⟨a, ha, .inl ⟨b, hb, hkey, hrow⟩⟩
    · exact .inl ⟨a, ha, .inr ⟨hnone, hrow⟩⟩
    · exact .inr ⟨b, ⟨hb, hnone⟩, hrow.symm⟩

end Join

section ByKeys

variable [DecidableEq κ]

theorem sum_map_ite_eq_of_nodup (ks : List κ) (hks : ks.Nodup) (k₀ : κ) (hk₀ : k₀ ∈ ks)
    (g : κ → ℚ) : (ks.map fun k => if k₀ = k then g k else 0).sum = g k₀ := by
  induction ks with
  | nil => simp at hk₀
  | cons k ks ih =>
    rw [List.nodup_cons] at hks
    rw [List.map_cons, List.sum_cons]
    by_cases h : k₀ = k
    · subst h
      have hzero : (ks.map fun k => if k₀ = k then g k else 0).sum = 0 := by
        apply List.sum_eq_zero
        intro x hx
        obtain ⟨k, hk, rfl⟩ := List.mem_map.mp hx
        have hne : k₀ ≠ k := fun he => hks.1 (he ▸ hk)
        rw [if_neg hne]
      rw [if_pos rfl, hzero, add_zero]
    · rw [if_neg h, zero_add]
      exact ih hks.2 (by simpa [h] using hk₀)

theorem sum_by_keys (key : α → κ) (ks : List κ) (hks : ks.Nodup) (w : κ → ℚ) (f : α → ℚ)
    (rows : List α) (hcover : ∀ a ∈ rows, key a ∈ ks) :
    (ks.map fun k => w k * ((rows.filter fun a => key a = k).map f).sum).sum =
      (rows.map fun a => w (key a) * f a).sum := by
  induction rows with
  | nil => simp
  | cons a rows ih =>
    have hstep : ∀ k, w k * (((a :: rows).filter fun b => key b = k).map f).sum =
        (if key a = k then w k * f a else 0) +
          w k * ((rows.filter fun b => key b = k).map f).sum := by
      intro k
      by_cases h : key a = k
      · rw [List.filter_cons_of_pos (by simpa using h), if_pos h, List.map_cons, List.sum_cons]
        ring
      · rw [List.filter_cons_of_neg (by simpa using h), if_neg h, zero_add]
    have ih' := ih (fun b hb => hcover b (List.mem_cons_of_mem _ hb))
    simp only [hstep]
    rw [List.sum_map_add, ih', List.map_cons, List.sum_cons,
      sum_map_ite_eq_of_nodup ks hks (key a) (hcover a List.mem_cons_self) (fun k => w k * f a)]

end ByKeys

section GroupBy

variable [LinearOrder κ]

/-- `GROUP BY key ORDER BY key`: the keys that occur, in order, each with its rows. -/
def groupBy (key : α → κ) (rows : List α) : List (κ × List α) :=
  (((rows.map key).dedup).insertionSort (· ≤ ·)).map fun k => (k, rows.filter fun a => key a = k)

/-- **Summing over groups.**  A sum over the groups, each weighted by its key, is the same sum taken
row by row. -/
theorem sum_groupBy (key : α → κ) (rows : List α) (w : κ → ℚ) (f : α → ℚ) :
    ((groupBy key rows).map fun g => w g.1 * (g.2.map f).sum).sum =
      (rows.map fun a => w (key a) * f a).sum := by
  rw [groupBy, List.map_map]
  apply sum_by_keys key _ _ w f rows
  · intro a ha
    rw [List.mem_insertionSort, List.mem_dedup]
    exact List.mem_map_of_mem ha
  · exact (List.perm_insertionSort (· ≤ ·) _).nodup_iff.mpr (List.nodup_dedup _)

theorem mem_groupBy_keys (key : α → κ) (rows : List α) (k : κ) :
    k ∈ (groupBy key rows).map Prod.fst ↔ ∃ a ∈ rows, key a = k := by
  rw [groupBy, List.map_map]
  simp [Function.comp_def]

end GroupBy

/-! ### UPDATE -/

/-- An `UPDATE` succeeds if its expressions do on each row of its `WHERE` clause; `set` is `none` where one
raises. -/
def updates (p : α → Bool) (set : α → Option α) (rows : List α) : Bool :=
  rows.all fun a => !p a || (set a).isSome

/-- `UPDATE`: all rows of the `WHERE` clause change, or none does. -/
def update (p : α → Bool) (set : α → Option α) (rows : List α) : List α :=
  if updates p set rows then rows.map fun a => if p a then (set a).getD a else a else rows

theorem getElem?_update (p : α → Bool) (set : α → Option α) (rows : List α) (i : ℕ) :
    (update p set rows)[i]? =
      rows[i]?.map fun a => if updates p set rows ∧ p a then (set a).getD a else a := by
  unfold update
  split
  · rename_i h
    simp [h]
  · rename_i h
    simp [h]

theorem isSome_of_updates {p : α → Bool} {set : α → Option α} {rows : List α} (h : updates p set rows)
    {i : ℕ} {a : α} (ha : rows[i]? = some a) (hp : p a) : (set a).isSome := by
  have := List.all_eq_true.mp h a (List.mem_of_getElem? ha)
  simpa [hp] using this

theorem exists_getElem?_update {rows : List α} {i : ℕ} {a : α} (ha : rows[i]? = some a) (p : α → Bool)
    (set : α → Option α) :
    ∃ a', (update p set rows)[i]? = some a' ∧ (a' = a ∨ p a ∧ set a = some a') := by
  rw [getElem?_update, ha, Option.map_some]
  split
  · rename_i h
    obtain ⟨a', ha'⟩ := Option.isSome_iff_exists.mp (isSome_of_updates h.1 ha h.2)
    exact ⟨a', by rw [ha', Option.getD_some], .inr ⟨h.2, ha'⟩⟩
  · exact ⟨a, rfl, .inl rfl⟩

/-! ### INSERT ... ON CONFLICT DO UPDATE -/

section Upsert

variable [DecidableEq κ] (key : α → κ) (a : α)

/-- An upsert: the row with the key of `a` becomes `a`, or `a` is appended. -/
def upsert (rows : List α) : List α :=
  if rows.any fun b => key b = key a then rows.map fun b => if key b = key a then a else b else rows ++ [a]

theorem upsert_of_fresh {rows : List α} (h : ∀ b ∈ rows, key b ≠ key a) : upsert key a rows = rows ++ [a] := by
  rw [upsert, if_neg]
  simpa using h

theorem upsert_cons (b : α) (rows : List α) (hb : key b ∉ rows.map key) :
    upsert key a (b :: rows) = if key b = key a then a :: rows else b :: upsert key a rows := by
  by_cases h : key b = key a
  · have hrest : (rows.map fun c => if key c = key a then a else c) = rows := by
      refine (List.map_congr_left fun c hc => ?_).trans (List.map_id rows)
      rw [if_neg fun hca => hb (List.mem_map.mpr ⟨c, hc, hca.trans h.symm⟩)]
      rfl
    simp [upsert, h, hrest]
  · by_cases hany : rows.any fun c => key c = key a
    · simp [upsert, h, hany]
    · simp [upsert, h, hany]

theorem upsert_keys_nodup {rows : List α} (h : (rows.map key).Nodup) : ((upsert key a rows).map key).Nodup := by
  unfold upsert
  split
  · have : (rows.map fun b => if key b = key a then a else b).map key = rows.map key := by
      rw [List.map_map]
      refine List.map_congr_left fun b _ => ?_
      show key (if key b = key a then a else b) = key b
      split
      · rename_i hb
        exact hb.symm
      · rfl
    rw [this]
    exact h
  · rename_i hany
    rw [List.map_append, List.nodup_append]
    refine ⟨h, List.nodup_singleton _, ?_⟩
    intro k hk k' hk' heq
    obtain ⟨b, hb, rfl⟩ := List.mem_map.mp hk
    obtain rfl := List.mem_singleton.mp hk'
    exact hany (List.any_eq_true.mpr ⟨b, hb, by simpa using heq⟩)

theorem countP_upsert (f : α → Bool) {rows : List α} (h : (rows.map key).Nodup) :
    (upsert key a rows).countP f =
      (rows.countP fun b => f b && decide (key b ≠ key a)) + if f a then 1 else 0 := by
  induction rows with
  | nil => simp [upsert, List.countP_cons]
  | cons b rows ih =>
    rw [List.map_cons, List.nodup_cons] at h
    rw [upsert_cons key a b rows h.1]
    split
    · rename_i hb
      have hrest : (rows.countP fun c => f c && decide (key c ≠ key a)) = rows.countP f := by
        refine List.countP_congr fun c hc => ?_
        have : key c ≠ key a := fun hca => h.1 (List.mem_map.mpr ⟨c, hc, hca.trans hb.symm⟩)
        simp [this]
      rw [List.countP_cons, List.countP_cons, hrest]
      simp [hb]
    · rename_i hb
      rw [List.countP_cons, ih h.2, List.countP_cons]
      simp only [hb, ne_eq, not_false_eq_true, decide_true, Bool.and_true]
      omega

theorem eq_or_mem_of_mem_upsert {rows : List α} {b : α} (h : b ∈ upsert key a rows) : b = a ∨ b ∈ rows := by
  unfold upsert at h
  split at h
  · obtain ⟨c, hc, rfl⟩ := List.mem_map.mp h
    split
    · exact .inl rfl
    · exact .inr hc
  · rcases List.mem_append.mp h with h | h
    · exact .inr h
    · exact .inl (List.mem_singleton.mp h)

end Upsert

end FavoniusBackend.Lib.Sql
