import Mathlib.Tactic

/-!
# Set operations over branches

A query combines the rows of its branches by `UNION`, `INTERSECT` and `EXCEPT`, each with or without `ALL`, and
may order and limit the result.  Rows are multisets.  A limit takes as many rows as it says, any of them, or
the first ones by the key of an `ORDER BY`.

Every row is counted for itself: how often it is in the result depends on how often it is in the branches
(`count_rows`).  A branch that delivers fewer rows leaves fewer rows in the result, unless it is subtracted.
-/

namespace FavoniusBackend.Lib.SetOperations

variable {ρ K β γ : Type} [DecidableEq ρ] [LinearOrder K]

/-! ### Operations -/

inductive SetOp
  | union | intersect | except
  deriving DecidableEq, Repr

/-- The rows of an operation, with or without `ALL`. -/
def SetOp.rows (op : SetOp) (all : Bool) (l r : Multiset ρ) : Multiset ρ :=
  match op, all with
  | .union, true => l + r
  | .union, false => (l + r).dedup
  | .intersect, true => l ∩ r
  | .intersect, false => (l ∩ r).dedup
  | .except, true => l - r
  | .except, false => l.dedup.filter fun x => x ∉ r

/-- How often a row is in the result, when it is `a` times on the left and `b` times on the right. -/
def SetOp.count (op : SetOp) (all : Bool) (a b : ℕ) : ℕ :=
  match op, all with
  | .union, true => a + b
  | .union, false => min 1 (a + b)
  | .intersect, true => min a b
  | .intersect, false => min 1 (min a b)
  | .except, true => a - b
  | .except, false => if b = 0 then min 1 a else 0

theorem count_dedup_eq (x : ρ) (m : Multiset ρ) : m.dedup.count x = min 1 (m.count x) := by
  rw [Multiset.count_dedup]
  have hmem := Multiset.count_pos (a := x) (s := m)
  split
  · have hpos := hmem.2 ‹_›
    omega
  · have hzero := Multiset.count_eq_zero.2 ‹_›
    omega

theorem count_rows (op : SetOp) (all : Bool) (l r : Multiset ρ) (x : ρ) :
    (op.rows all l r).count x = op.count all (l.count x) (r.count x) := by
  cases op with
  | union =>
    cases all with
    | true => exact Multiset.count_add x l r
    | false =>
      show (l + r).dedup.count x = _
      rw [count_dedup_eq, Multiset.count_add]
      rfl
  | intersect =>
    cases all with
    | true => exact Multiset.count_inter x l r
    | false =>
      show (l ∩ r).dedup.count x = _
      rw [count_dedup_eq, Multiset.count_inter]
      rfl
  | except =>
    cases all with
    | true => exact Multiset.count_sub x l r
    | false =>
      show (l.dedup.filter fun x => x ∉ r).count x = if r.count x = 0 then min 1 (l.count x) else 0
      rw [Multiset.count_filter, count_dedup_eq]
      simp only [Multiset.count_eq_zero]

theorem count_mono_left (op : SetOp) (all : Bool) {a a' b : ℕ} (h : a ≤ a') :
    op.count all a b ≤ op.count all a' b := by
  cases op <;> cases all <;> simp only [SetOp.count] <;> first | omega | (split <;> omega)

/-- More rows on the right, more rows in the result, unless they are subtracted. -/
theorem count_mono_right {op : SetOp} (hop : op ≠ .except) (all : Bool) {a b b' : ℕ} (h : b ≤ b') :
    op.count all a b ≤ op.count all a b' := by
  cases op with
  | except => exact absurd rfl hop
  | union => cases all <;> simp only [SetOp.count] <;> omega
  | intersect => cases all <;> simp only [SetOp.count] <;> omega

/-! ### Trees of operations -/

inductive SetTree (β : Type)
  | branch (b : β)
  | combine (op : SetOp) (all : Bool) (left right : SetTree β)

namespace SetTree

def eval : SetTree β → (List Bool → Multiset ρ) → Multiset ρ
  | .branch _, rows => rows []
  | .combine op all l r, rows =>
    op.rows all (l.eval fun p => rows (false :: p)) (r.eval fun p => rows (true :: p))

def map (f : β → γ) : SetTree β → SetTree γ
  | .branch b => .branch (f b)
  | .combine op all l r => .combine op all (l.map f) (r.map f)

theorem eval_map (f : β → γ) (t : SetTree β) (rows : List Bool → Multiset ρ) :
    (t.map f).eval rows = t.eval rows := by
  induction t generalizing rows with
  | branch b => rfl
  | combine op all l r ihl ihr =>
    show op.rows all ((l.map f).eval _) ((r.map f).eval _) = _
    rw [ihl, ihr]
    rfl

def Without (kind : β → Bool) : SetTree β → Prop
  | .branch b => kind b = false
  | .combine _ _ l r => l.Without kind ∧ r.Without kind

def Kept (kind : β → Bool) : SetTree β → Prop
  | .branch _ => True
  | .combine .except _ l r => l.Kept kind ∧ r.Without kind
  | .combine _ _ l r => l.Kept kind ∧ r.Kept kind

/-- Nothing is subtracted. -/
def Additive : SetTree β → Prop
  | .branch _ => True
  | .combine op _ l r => op ≠ .except ∧ l.Additive ∧ r.Additive

/-- What is subtracted has nothing subtracted itself. -/
def Flat : SetTree β → Prop
  | .branch _ => True
  | .combine .except _ l r => l.Flat ∧ r.Additive
  | .combine _ _ l r => l.Flat ∧ r.Flat

theorem Kept.left {kind : β → Bool} {op : SetOp} {all : Bool} {l r : SetTree β}
    (h : (SetTree.combine op all l r).Kept kind) : l.Kept kind := by
  cases op with
  | union => exact h.1
  | intersect => exact h.1
  | except => exact h.1

theorem kept_combine_iff {kind : β → Bool} {op : SetOp} (hop : op ≠ .except) (all : Bool) (l r : SetTree β) :
    (SetTree.combine op all l r).Kept kind ↔ l.Kept kind ∧ r.Kept kind := by
  cases op with
  | union => exact Iff.rfl
  | intersect => exact Iff.rfl
  | except => exact absurd rfl hop

theorem Flat.left {op : SetOp} {all : Bool} {l r : SetTree β} (h : (SetTree.combine op all l r).Flat) : l.Flat := by
  cases op with
  | union => exact h.1
  | intersect => exact h.1
  | except => exact h.1

theorem Flat.right {op : SetOp} (hop : op ≠ .except) {all : Bool} {l r : SetTree β}
    (h : (SetTree.combine op all l r).Flat) : r.Flat := by
  cases op with
  | union => exact h.2
  | intersect => exact h.2
  | except => exact absurd rfl hop

instance decidableAdditive : ∀ t : SetTree β, Decidable t.Additive
  | .branch _ => isTrue trivial
  | .combine op _ l r =>
    have := decidableAdditive l
    have := decidableAdditive r
    inferInstanceAs (Decidable (op ≠ .except ∧ l.Additive ∧ r.Additive))

instance decidableFlat : ∀ t : SetTree β, Decidable t.Flat
  | .branch _ => isTrue trivial
  | .combine .except _ l r =>
    have := decidableFlat l
    inferInstanceAs (Decidable (l.Flat ∧ r.Additive))
  | .combine .union _ l r =>
    have := decidableFlat l
    have := decidableFlat r
    inferInstanceAs (Decidable (l.Flat ∧ r.Flat))
  | .combine .intersect _ l r =>
    have := decidableFlat l
    have := decidableFlat r
    inferInstanceAs (Decidable (l.Flat ∧ r.Flat))

end SetTree

/-! ### Limits -/

/-- How many of `n` rows a limit takes. -/
def taken (limit : Option ℕ) (n : ℕ) : ℕ :=
  match limit with
  | none => n
  | some k => min k n

/-- The rows that an `ORDER BY` and a limit take. -/
def Taken (key : ρ → K) (ordered : Bool) (limit : Option ℕ) (rows answer : Multiset ρ) : Prop :=
  answer ≤ rows ∧ answer.card = taken limit rows.card ∧
    (ordered = true → ∀ x ∈ answer, ∀ y ∈ rows - answer, key x ≤ key y)

def Delivers (limit : β → Option ℕ) : SetTree β → (List Bool → Multiset ρ) → (List Bool → Multiset ρ) → Prop
  | .branch b, rows, delivered => delivered [] ≤ rows [] ∧ (delivered []).card = taken (limit b) (rows []).card
  | .combine _ _ l r, rows, delivered =>
    Delivers limit l (fun p => rows (false :: p)) (fun p => delivered (false :: p)) ∧
      Delivers limit r (fun p => rows (true :: p)) fun p => delivered (true :: p)

structure Query (β : Type) where
  tree : SetTree β
  ordered : Bool
  limit : Option ℕ

def Returns (limit : β → Option ℕ) (key : ρ → K) (q : Query β) (rows : List Bool → Multiset ρ)
    (answer : Multiset ρ) : Prop :=
  ∃ delivered, Delivers limit q.tree rows delivered ∧
    Taken key q.ordered q.limit (q.tree.eval delivered) answer

/-! ### Rows that are taken -/

theorem exists_taken (key : ρ → K) (ordered : Bool) (limit : Option ℕ) {rows cut : Multiset ρ}
    (hle : cut ≤ rows) (hcard : cut.card ≤ taken limit rows.card)
    (hfirst : ordered = true → ∀ x ∈ cut, ∀ y ∈ rows - cut, key x ≤ key y) :
    ∃ answer, Taken key ordered limit rows answer ∧ cut ≤ answer := by
  have htaken : taken limit rows.card ≤ rows.card := by
    cases limit with
    | none => exact le_refl _
    | some k => exact min_le_right k _
  induction hn : taken limit rows.card - cut.card generalizing cut with
  | zero => exact ⟨cut, ⟨hle, by omega, hfirst⟩, le_refl _⟩
  | succ n ih =>
    have hleft : (rows - cut).card = rows.card - cut.card := Multiset.card_sub hle
    have hnonempty : (rows - cut).toFinset.Nonempty := by
      rw [Multiset.toFinset_nonempty, ← Multiset.card_pos]
      omega
    obtain ⟨y, hy, hmin⟩ := Finset.exists_min_image _ key hnonempty
    rw [Multiset.mem_toFinset] at hy
    have hnext : y ::ₘ cut ≤ rows := by
      rw [← Multiset.singleton_add, ← tsub_add_cancel_of_le hle]
      exact add_le_add_left (Multiset.singleton_le.2 hy) cut
    have hsmaller : rows - (y ::ₘ cut) ≤ rows - cut := tsub_le_tsub_left (Multiset.le_cons_self cut y) rows
    have hcons : (y ::ₘ cut).card = cut.card + 1 := Multiset.card_cons y cut
    obtain ⟨answer, hanswer, hin⟩ := ih hnext (by omega) (by
      intro hordered x hx z hz
      have hz' := Multiset.mem_of_le hsmaller hz
      rcases Multiset.mem_cons.1 hx with rfl | hold
      · exact hmin z (Multiset.mem_toFinset.2 hz')
      · exact hfirst hordered x hold z hz') (by omega)
    exact ⟨answer, hanswer, (Multiset.le_cons_self cut y).trans hin⟩

/-! ### Branches that deliver fewer rows -/

/-- The branches of a kind deliver at most `k` rows, the others all of them. -/
def Cuts (kind : β → Bool) (k : ℕ) : SetTree β → (List Bool → Multiset ρ) → (List Bool → Multiset ρ) → Prop
  | .branch b, rows, cut =>
    cut [] ≤ rows [] ∧ (cut []).card = if kind b = true then min k (rows []).card else (rows []).card
  | .combine _ _ l r, rows, cut =>
    Cuts kind k l (fun p => rows (false :: p)) (fun p => cut (false :: p)) ∧
      Cuts kind k r (fun p => rows (true :: p)) fun p => cut (true :: p)

omit [DecidableEq ρ] in
theorem delivers_map_iff {kind : β → Bool} {k : ℕ} {limit : γ → Option ℕ} {f : β → γ}
    (hlimit : ∀ b, limit (f b) = if kind b = true then some k else none) (t : SetTree β)
    (rows cut : List Bool → Multiset ρ) : Delivers limit (t.map f) rows cut ↔ Cuts kind k t rows cut := by
  induction t generalizing rows cut with
  | branch b =>
    show cut [] ≤ rows [] ∧ _ = taken (limit (f b)) _ ↔ cut [] ≤ rows [] ∧ _
    rw [hlimit]
    cases kind b with
    | true => exact Iff.rfl
    | false => exact Iff.rfl
  | combine op all l r ihl ihr => exact and_congr (ihl _ _) (ihr _ _)

theorem eval_of_without {kind : β → Bool} {k : ℕ} {t : SetTree β} {rows cut : List Bool → Multiset ρ}
    (hnone : t.Without kind) (h : Cuts kind k t rows cut) : t.eval cut = t.eval rows := by
  induction t generalizing rows cut with
  | branch b =>
    obtain ⟨hle, hcard⟩ := h
    rw [if_neg (by rw [hnone]; decide)] at hcard
    exact Multiset.eq_of_le_of_card_le hle hcard.ge
  | combine op all l r ihl ihr =>
    show op.rows all (l.eval _) (r.eval _) = op.rows all (l.eval _) (r.eval _)
    rw [ihl hnone.1 h.1, ihr hnone.2 h.2]

/-- **Fewer rows in the branches leave fewer rows in the result**, if no branch that delivers fewer is
subtracted. -/
theorem eval_le_of_kept {kind : β → Bool} {k : ℕ} {t : SetTree β} {rows cut : List Bool → Multiset ρ}
    (hkept : t.Kept kind) (h : Cuts kind k t rows cut) : t.eval cut ≤ t.eval rows := by
  induction t generalizing rows cut with
  | branch b => exact h.1
  | combine op all l r ihl ihr =>
    obtain ⟨hl, hr⟩ := h
    rw [Multiset.le_iff_count]
    intro x
    show (op.rows all (l.eval _) (r.eval _)).count x ≤ (op.rows all (l.eval _) (r.eval _)).count x
    rw [count_rows, count_rows]
    by_cases hop : op = .except
    · subst hop
      obtain ⟨hleft, hright⟩ := hkept
      rw [eval_of_without hright hr]
      exact count_mono_left _ _ (Multiset.le_iff_count.1 (ihl hleft hl) x)
    · have hboth := (SetTree.kept_combine_iff hop all l r).1 hkept
      exact (count_mono_left _ _ (Multiset.le_iff_count.1 (ihl hboth.1 hl) x)).trans
        (count_mono_right hop _ (Multiset.le_iff_count.1 (ihr hboth.2 hr) x))

/-! ### Contents that show a cut -/

/-- The rows of the branches on the left and on the right. -/
def beside (l r : List Bool → Multiset ρ) : List Bool → Multiset ρ
  | [] => 0
  | false :: p => l p
  | true :: p => r p

theorem eval_beside (op : SetOp) (all : Bool) (l r : SetTree β) (rows rows' : List Bool → Multiset ρ) :
    (SetTree.combine op all l r).eval (beside rows rows') = op.rows all (l.eval rows) (r.eval rows') := rfl

omit [DecidableEq ρ] in
theorem cuts_beside {kind : β → Bool} {k : ℕ} {l r : SetTree β} {rows rows' cut cut' : List Bool → Multiset ρ}
    (op : SetOp) (all : Bool) (hl : Cuts kind k l rows cut) (hr : Cuts kind k r rows' cut') :
    Cuts kind k (.combine op all l r) (beside rows rows') (beside cut cut') := ⟨hl, hr⟩

theorem mem_rows {op : SetOp} {all : Bool} {l r : Multiset ρ} {x : ρ} :
    x ∈ op.rows all l r ↔ match op with
      | .union => x ∈ l ∨ x ∈ r
      | .intersect => x ∈ l ∧ x ∈ r
      | .except => if all = true then r.count x < l.count x else x ∈ l ∧ x ∉ r := by
  cases op with
  | union => cases all <;> simp [SetOp.rows]
  | intersect => cases all <;> simp [SetOp.rows]
  | except =>
    cases all with
    | true => rw [if_pos rfl, SetOp.rows, Multiset.mem_sub]
    | false => simp [SetOp.rows]

omit [DecidableEq ρ] in
theorem cuts_nothing (kind : β → Bool) (k : ℕ) (t : SetTree β) :
    Cuts kind k t (fun _ => (0 : Multiset ρ)) fun _ => 0 := by
  induction t with
  | branch b => exact ⟨le_refl _, by simp⟩
  | combine op all l r ihl ihr => exact ⟨ihl, ihr⟩

theorem eval_nothing (t : SetTree β) : (t.eval fun _ => (0 : Multiset ρ)) = 0 := by
  induction t with
  | branch b => rfl
  | combine op all l r ihl ihr =>
    show op.rows all (l.eval _) (r.eval _) = 0
    rw [ihl, ihr]
    cases op <;> cases all <;> rfl

theorem rows_nothing {op : SetOp} (hop : op ≠ .intersect) (all : Bool) {u : Multiset ρ} (hu : u.Nodup) :
    op.rows all u 0 = u := by
  ext x
  have hone := Multiset.nodup_iff_count_le_one.1 hu x
  rw [count_rows, Multiset.count_zero]
  cases op with
  | intersect => exact absurd rfl hop
  | union => cases all <;> simp only [SetOp.count] <;> omega
  | except => cases all <;> simp only [SetOp.count, if_true] <;> omega

theorem rows_intersect_self (all : Bool) {u : Multiset ρ} (hu : u.Nodup) :
    SetOp.intersect.rows all u u = u := by
  ext x
  have hone := Multiset.nodup_iff_count_le_one.1 hu x
  rw [count_rows]
  cases all <;> simp only [SetOp.count] <;> omega

variable {kind : β → Bool} {k : ℕ}

theorem exists_fill (kind : β → Bool) (hk : 1 ≤ k) {u : Multiset ρ} (hu : u.Nodup) {y : ρ} (hy : y ∈ u) (t : SetTree β) :
    ∃ rows cut, Cuts kind k t rows cut ∧ t.eval rows = u ∧ y ∈ t.eval cut := by
  have hone : 1 ≤ u.card := Multiset.card_pos.2 fun h => by rw [h] at hy; exact Multiset.notMem_zero y hy
  induction t with
  | branch b =>
    cases hb : kind b with
    | true =>
      obtain ⟨cut, ⟨hle, hcard, -⟩, hin⟩ := exists_taken (fun _ : ρ => 0) false (some k)
        (Multiset.singleton_le.2 hy) (by rw [Multiset.card_singleton]; exact le_min hk hone)
        fun h => by cases h
      exact ⟨fun _ => u, fun _ => cut, ⟨hle, by rw [if_pos hb]; exact hcard⟩, rfl,
        Multiset.mem_of_le hin (Multiset.mem_singleton_self y)⟩
    | false => exact ⟨fun _ => u, fun _ => u, ⟨le_refl u, by rw [hb]; rfl⟩, rfl, hy⟩
  | combine op all l r ihl ihr =>
    obtain ⟨rows, cut, hcuts, hrows, hcut⟩ := ihl
    by_cases hop : op = .intersect
    · subst hop
      obtain ⟨rows', cut', hcuts', hrows', hcut'⟩ := ihr
      refine ⟨beside rows rows', beside cut cut', cuts_beside _ _ hcuts hcuts', ?_, ?_⟩
      · rw [eval_beside, hrows, hrows', rows_intersect_self all hu]
      · rw [eval_beside]
        exact mem_rows.2 ⟨hcut, hcut'⟩
    · refine ⟨beside rows fun _ => 0, beside cut fun _ => 0,
        cuts_beside _ _ hcuts (cuts_nothing kind k r), ?_, ?_⟩
      · rw [eval_beside, hrows, eval_nothing, rows_nothing hop all hu]
      · rw [eval_beside, eval_nothing, mem_rows]
        cases op with
        | intersect => exact absurd rfl hop
        | union => exact Or.inl hcut
        | except =>
          cases all with
          | true =>
            show (if true = true then _ else _ : Prop)
            rw [if_pos rfl, Multiset.count_zero]
            exact Multiset.count_pos.2 hcut
          | false => simpa using hcut

/-- The other operand leaves a row alone: it has the row where the operation asks for it, and is empty
elsewhere. -/
def Passes (op : SetOp) (other : Multiset ρ) (z : ρ) : Prop :=
  (op = .intersect → z ∈ other) ∧ (op ≠ .intersect → other = 0)

theorem Passes.mem_left {op : SetOp} {other : Multiset ρ} {z : ρ} (h : Passes op other z) (all : Bool)
    (l : Multiset ρ) : z ∈ op.rows all l other ↔ z ∈ l := by
  cases op with
  | intersect => exact mem_rows.trans (and_iff_left (h.1 rfl))
  | union =>
    rw [h.2 (by decide), mem_rows]
    simp
  | except =>
    rw [h.2 (by decide), mem_rows]
    cases all with
    | true =>
      show (if true = true then _ else _ : Prop) ↔ _
      rw [if_pos rfl, Multiset.count_zero, Multiset.count_pos]
    | false => simp

theorem Passes.mem_right {op : SetOp} {other : Multiset ρ} {z : ρ} (h : Passes op other z) (hop : op ≠ .except)
    (all : Bool) (r : Multiset ρ) : z ∈ op.rows all other r ↔ z ∈ r := by
  cases op with
  | intersect => exact mem_rows.trans (and_iff_right (h.1 rfl))
  | union =>
    rw [h.2 (by decide), mem_rows]
    simp
  | except => exact absurd rfl hop

theorem mem_left_of_mem {op : SetOp} {all : Bool} {l other : Multiset ρ} {z : ρ}
    (hother : op ≠ .intersect → other = 0) (h : z ∈ op.rows all l other) : z ∈ l := by
  by_cases hop : op = .intersect
  · subst hop
    exact (mem_rows.1 h).1
  · have hpasses : Passes op other z := ⟨fun heq => absurd heq hop, hother⟩
    exact (hpasses.mem_left all l).1 h

theorem mem_right_of_mem {op : SetOp} {all : Bool} {r other : Multiset ρ} {z : ρ} (hop : op ≠ .except)
    (hother : op ≠ .intersect → other = 0) (h : z ∈ op.rows all other r) : z ∈ r := by
  by_cases hintersect : op = .intersect
  · subst hintersect
    exact (mem_rows.1 h).2
  · have hpasses : Passes op other z := ⟨fun heq => absurd heq hintersect, hother⟩
    exact (hpasses.mem_right hop all r).1 h

/-- The other operand can leave given rows alone, and one of them where its branches are cut. -/
theorem exists_passes (kind : β → Bool) (hk : 1 ≤ k) {u : Multiset ρ} (hu : u.Nodup) {y : ρ} (hy : y ∈ u) (op : SetOp)
    (t : SetTree β) :
    ∃ rows cut, Cuts kind k t rows cut ∧ (∀ z ∈ u, Passes op (t.eval rows) z) ∧ Passes op (t.eval cut) y := by
  by_cases hop : op = .intersect
  · obtain ⟨rows, cut, hcuts, hrows, hcut⟩ := exists_fill kind hk hu hy t
    refine ⟨rows, cut, hcuts, fun z hz => ⟨fun _ => ?_, fun hne => absurd hop hne⟩,
      fun _ => hcut, fun hne => absurd hop hne⟩
    rw [hrows]
    exact hz
  · exact ⟨fun _ => 0, fun _ => 0, cuts_nothing kind k t,
      fun z _ => ⟨fun heq => absurd heq hop, fun _ => eval_nothing t⟩,
      fun heq => absurd heq hop, fun _ => eval_nothing t⟩

theorem SetTree.kept_of_additive {t : SetTree β} (h : t.Additive) : t.Kept kind := by
  induction t with
  | branch b => trivial
  | combine op all l r ihl ihr =>
    obtain ⟨hop, hl, hr⟩ := h
    exact (SetTree.kept_combine_iff hop all l r).2 ⟨ihl hl, ihr hr⟩

theorem exists_through (hk : 1 ≤ k) {u : Multiset ρ} (hu : u.Nodup) {y : ρ} (hy : y ∈ u) {a a' : Multiset ρ}
    (hle : a' ≤ a) (hcard : a'.card = min k a.card) {t : SetTree β} (hkept : t.Kept kind)
    (hkind : ¬ t.Without kind) :
    ∃ rows cut, Cuts kind k t rows cut ∧ (∀ z ∈ u, z ∈ t.eval rows ↔ z ∈ a) ∧
      (y ∈ t.eval cut ↔ y ∈ a') ∧ ∀ z ∈ t.eval cut, z ∈ a' := by
  induction t with
  | branch b =>
    have hb : kind b = true := by simpa [SetTree.Without] using hkind
    refine ⟨fun _ => a, fun _ => a', ⟨hle, ?_⟩, fun z _ => Iff.rfl, Iff.rfl, fun z hz => hz⟩
    rw [if_pos hb]
    exact hcard
  | combine op all l r ihl ihr =>
    by_cases hleft : l.Without kind
    · have hright : ¬ r.Without kind := fun h => hkind ⟨hleft, h⟩
      have hop : op ≠ .except := by
        rintro rfl
        exact hright hkept.2
      have hr : r.Kept kind := ((SetTree.kept_combine_iff hop all l r).1 hkept).2
      obtain ⟨rows, cut, hcuts, hrows, hcut, honly⟩ := ihr hr hright
      obtain ⟨rows', cut', hcuts', hpass, hpass'⟩ := exists_passes kind hk hu hy op l
      refine ⟨beside rows' rows, beside cut' cut, cuts_beside _ _ hcuts' hcuts, ?_, ?_, ?_⟩
      · intro z hz
        rw [eval_beside, (hpass z hz).mem_right hop, hrows z hz]
      · rw [eval_beside, hpass'.mem_right hop, hcut]
      · intro z hz
        rw [eval_beside] at hz
        exact honly z (mem_right_of_mem hop hpass'.2 hz)
    · obtain ⟨rows, cut, hcuts, hrows, hcut, honly⟩ := ihl hkept.left hleft
      obtain ⟨rows', cut', hcuts', hpass, hpass'⟩ := exists_passes kind hk hu hy op r
      refine ⟨beside rows rows', beside cut cut', cuts_beside _ _ hcuts hcuts', ?_, ?_, ?_⟩
      · intro z hz
        rw [eval_beside, (hpass z hz).mem_left, hrows z hz]
      · rw [eval_beside, hpass'.mem_left, hcut]
      · intro z hz
        rw [eval_beside] at hz
        exact honly z (mem_left_of_mem hpass'.2 hz)

theorem exists_regained {x y : ρ} (hne : x ≠ y) (hk : 1 ≤ k) (all : Bool) (l : SetTree β) {r : SetTree β}
    (hadditive : r.Additive) (hkind : ¬ r.Without kind) :
    ∃ rows cut, Cuts kind k (.combine .except all l r) rows cut ∧
      x ∉ (SetTree.combine .except all l r).eval rows ∧ x ∈ (SetTree.combine .except all l r).eval cut := by
  have hx : x ∈ ({x} : Multiset ρ) := Multiset.mem_singleton_self x
  obtain ⟨rows, cut, hcuts, hrows, -, honly⟩ := exists_through hk (Multiset.nodup_singleton x) hx
    (Multiset.le_cons_self (Multiset.replicate k y) x)
    (by rw [Multiset.card_cons, Multiset.card_replicate]; omega) (SetTree.kept_of_additive hadditive) hkind
  obtain ⟨rows', cut', hcuts', hrows', hcut'⟩ := exists_fill kind hk (Multiset.nodup_singleton x) hx l
  have hin : x ∈ r.eval rows := (hrows x hx).2 (Multiset.mem_cons_self x _)
  have hout : x ∉ r.eval cut := fun h => hne (Multiset.eq_of_mem_replicate (honly x h))
  refine ⟨beside rows' rows, beside cut' cut, cuts_beside _ _ hcuts' hcuts, ?_, ?_⟩
  · rw [eval_beside, hrows', ← Multiset.count_eq_zero, count_rows, Multiset.count_singleton_self]
    have hpos := Multiset.count_pos.2 hin
    cases all with
    | true => exact Nat.sub_eq_zero_of_le hpos
    | false => exact if_neg (by omega)
  · rw [eval_beside, ← Multiset.count_pos, count_rows, Multiset.count_eq_zero.2 hout]
    have hpos := Multiset.count_pos.2 hcut'
    cases all with
    | true => exact hpos
    | false =>
      show 0 < if 0 = 0 then min 1 _ else 0
      rw [if_pos rfl]
      omega

theorem exists_gain {x y : ρ} (hne : x ≠ y) (hk : 1 ≤ k) {t : SetTree β} (hflat : t.Flat)
    (hkept : ¬ t.Kept kind) : ∃ rows cut, Cuts kind k t rows cut ∧ x ∉ t.eval rows ∧ x ∈ t.eval cut := by
  have hx : x ∈ ({x} : Multiset ρ) := Multiset.mem_singleton_self x
  induction t with
  | branch b => exact absurd trivial hkept
  | combine op all l r ihl ihr =>
    by_cases hleft : l.Kept kind
    · by_cases hop : op = .except
      · subst hop
        exact exists_regained hne hk all l hflat.2 fun h => hkept ⟨hleft, h⟩
      · have hright : ¬ r.Kept kind := fun h => hkept ((SetTree.kept_combine_iff hop all l r).2 ⟨hleft, h⟩)
        obtain ⟨rows, cut, hcuts, hrows, hcut⟩ := ihr (hflat.right hop) hright
        obtain ⟨rows', cut', hcuts', hpass, hpass'⟩ :=
          exists_passes kind hk (Multiset.nodup_singleton x) hx op l
        refine ⟨beside rows' rows, beside cut' cut, cuts_beside _ _ hcuts' hcuts, ?_, ?_⟩
        · rw [eval_beside, (hpass x hx).mem_right hop]
          exact hrows
        · rw [eval_beside, hpass'.mem_right hop]
          exact hcut
    · obtain ⟨rows, cut, hcuts, hrows, hcut⟩ := ihl hflat.left hleft
      obtain ⟨rows', cut', hcuts', hpass, hpass'⟩ :=
        exists_passes kind hk (Multiset.nodup_singleton x) hx op r
      refine ⟨beside rows rows', beside cut cut', cuts_beside _ _ hcuts hcuts', ?_, ?_⟩
      · rw [eval_beside, (hpass x hx).mem_left]
        exact hrows
      · rw [eval_beside, hpass'.mem_left]
        exact hcut

/-! ### Queries that are limited -/

/-- Whatever the branches hold and whatever the rows are ordered by, what the rewritten query returns is part
of what the original one returns. -/
def OnlyTruncates (limit : β → Option ℕ) (original rewritten : Query β) : Prop :=
  ∀ (ρ K : Type) [DecidableEq ρ] [LinearOrder K] (key : ρ → K) (rows : List Bool → Multiset ρ)
    (answer' : Multiset ρ), Returns limit key rewritten rows answer' →
      ∃ answer, Returns limit key original rows answer ∧ answer' ≤ answer

omit [DecidableEq ρ] in
theorem cuts_of_delivers {limit : β → Option ℕ} {t : SetTree β} (hnone : t.Without fun b => (limit b).isSome)
    (rows delivered : List Bool → Multiset ρ) :
    Delivers limit t rows delivered ↔ Cuts (fun _ => false) 0 t rows delivered := by
  induction t generalizing rows delivered with
  | branch b =>
    have hb : limit b = none := by simpa [SetTree.Without] using hnone
    show delivered [] ≤ rows [] ∧ _ = taken (limit b) _ ↔ delivered [] ≤ rows [] ∧ _
    rw [hb]
    exact Iff.rfl
  | combine op all l r ihl ihr => exact and_congr (ihl hnone.1 _ _) (ihr hnone.2 _ _)

theorem without_nothing (t : SetTree β) : t.Without fun _ => false := by
  induction t with
  | branch b => rfl
  | combine op all l r ihl ihr => exact ⟨ihl, ihr⟩

omit [DecidableEq ρ] in
theorem cuts_self (t : SetTree β) (rows : List Bool → Multiset ρ) : Cuts (fun _ => false) 0 t rows rows := by
  induction t generalizing rows with
  | branch b => exact ⟨le_refl _, rfl⟩
  | combine op all l r ihl ihr => exact ⟨ihl _, ihr _⟩

theorem returns_iff {limit : β → Option ℕ} {t : SetTree β} (hnone : t.Without fun b => (limit b).isSome)
    (key : ρ → K) (ordered : Bool) (before : Option ℕ) (rows : List Bool → Multiset ρ) (answer : Multiset ρ) :
    Returns limit key ⟨t, ordered, before⟩ rows answer ↔ Taken key ordered before (t.eval rows) answer := by
  constructor
  · rintro ⟨delivered, hdelivers, htaken⟩
    rwa [show t.eval delivered = t.eval rows from
      eval_of_without (without_nothing t) ((cuts_of_delivers hnone rows delivered).1 hdelivers)] at htaken
  · exact fun htaken => ⟨rows, (cuts_of_delivers hnone rows rows).2 (cuts_self t rows), htaken⟩

section Limited

variable {limit : β → Option ℕ} {f : β → β} {t : SetTree β} {ordered : Bool} {before : Option ℕ} {after : ℕ}

theorem returns_first (ordered : Bool) (hlimit : ∀ b, limit (f b) = if kind b = true then some k else none)
    (hafter : after ≠ 0) (key : ρ → K) {rows cut : List Bool → Multiset ρ} (hcuts : Cuts kind k t rows cut) {x : ρ}
    (hx : x ∈ t.eval cut) (hfirst : ∀ y ∈ t.eval cut, key x ≤ key y) :
    ∃ answer', Returns limit key ⟨t.map f, ordered, some after⟩ rows answer' ∧ x ∈ answer' := by
  have hle : {x} ≤ t.eval cut := Multiset.singleton_le.2 hx
  have hcard := Multiset.card_le_card hle
  rw [Multiset.card_singleton] at hcard
  obtain ⟨answer', htaken, hin⟩ := exists_taken key ordered (some after) hle
    (by rw [Multiset.card_singleton]; exact le_min (by omega) hcard) fun _ x' hx' y hy => by
      rw [Multiset.mem_singleton.1 hx']
      exact hfirst y (Multiset.mem_of_le tsub_le_self hy)
  refine ⟨answer', ⟨cut, (delivers_map_iff hlimit t rows cut).2 hcuts, ?_⟩,
    Multiset.mem_of_le hin (Multiset.mem_singleton_self x)⟩
  show Taken key ordered (some after) ((t.map f).eval cut) answer'
  rw [SetTree.eval_map]
  exact htaken

theorem truncates_of_kept (hnone : t.Without fun b => (limit b).isSome)
    (hlimit : ∀ b, limit (f b) = if kind b = true then some k else none)
    (hafter : ∀ n, before = some n → n ≠ 0 → after ≤ n) (hkept : t.Kept kind)
    (hbefore : ∀ n, before = some n → n ≠ 0 ∧ (ordered = true → t.Without kind)) :
    OnlyTruncates limit ⟨t, ordered, before⟩ ⟨t.map f, ordered, some after⟩ := by
  rintro ρ K _ _ key rows answer' ⟨delivered, hdelivers, htaken⟩
  simp only [SetTree.eval_map] at htaken
  obtain ⟨hle, hcard, hfirst⟩ := htaken
  have hcuts := (delivers_map_iff hlimit t rows delivered).1 hdelivers
  have hfewer := eval_le_of_kept hkept hcuts
  simp only [returns_iff hnone]
  cases before with
  | none =>
    refine ⟨t.eval rows, ⟨le_refl _, rfl, fun _ x _ y hy => ?_⟩, hle.trans hfewer⟩
    rw [tsub_self] at hy
    exact absurd hy (Multiset.notMem_zero y)
  | some n =>
    obtain ⟨hn, hwithout⟩ := hbefore n rfl
    have hcards := Multiset.card_le_card hfewer
    have hsmall := hafter n rfl hn
    refine exists_taken key ordered (some n) (hle.trans hfewer) ?_ fun hordered x hx y hy => ?_
    · rw [hcard]
      exact min_le_min hsmall hcards
    · rw [← eval_of_without (hwithout hordered) hcuts] at hy
      exact hfirst hordered x hx y hy

theorem truncates_of_zero (hnone : t.Without fun b => (limit b).isSome) (hafter : after = 0) :
    OnlyTruncates limit ⟨t, ordered, before⟩ ⟨t.map f, ordered, some after⟩ := by
  rintro ρ K _ _ key rows answer' ⟨delivered, -, -, hcard, -⟩
  have hzero : answer' = 0 := by
    rw [← Multiset.card_eq_zero, hcard, hafter]
    exact Nat.zero_min _
  subst hzero
  simp only [returns_iff hnone]
  exact exists_taken key ordered before (Multiset.zero_le _) (by simp)
    fun _ x hx => absurd hx (Multiset.notMem_zero x)

/-- An order and a limit of the original query: a cut branch that comes through lets a later row in. -/
theorem without_of_truncates (hnone : t.Without fun b => (limit b).isSome)
    (hlimit : ∀ b, limit (f b) = if kind b = true then some k else none) (hk : 1 ≤ k) (hafter : after ≠ 0)
    (hkept : t.Kept kind) {n : ℕ}
    (h : OnlyTruncates limit ⟨t, true, some n⟩ ⟨t.map f, true, some after⟩) : t.Without kind := by
  by_contra hkind
  have hy : n ∈ Multiset.range (n + 1) := Multiset.mem_range.2 (Nat.lt_succ_self n)
  obtain ⟨rows, cut, hcuts, hrows, hcut, honly⟩ := exists_through hk (Multiset.nodup_range (n + 1))
    hy (Multiset.le_add_left (Multiset.replicate k n) (Multiset.range n))
    (by rw [Multiset.card_add, Multiset.card_replicate]; omega) hkept hkind
  have hlast : n ∈ t.eval cut := hcut.2 (Multiset.mem_replicate.2 ⟨by omega, rfl⟩)
  have hall : Multiset.range (n + 1) ≤ t.eval rows := by
    rw [Multiset.le_iff_subset (Multiset.nodup_range (n + 1))]
    intro z hz
    rw [hrows z hz, Multiset.mem_add, Multiset.mem_range, Multiset.mem_replicate]
    have hlt := Multiset.mem_range.1 hz
    omega
  obtain ⟨answer', hreturns, hin⟩ := returns_first true hlimit hafter id hcuts hlast
    fun y hy => (Multiset.eq_of_mem_replicate (honly y hy)).ge
  obtain ⟨answer, horiginal, hle⟩ := h ℕ ℕ id rows answer' hreturns
  obtain ⟨hanswer, hcard, hfirst⟩ := (returns_iff hnone _ _ _ _ _).1 horiginal
  -- every earlier row is in the answer, and so is `n`: one row too many
  have hfull : Multiset.range (n + 1) ≤ answer := by
    rw [Multiset.le_iff_subset (Multiset.nodup_range (n + 1))]
    intro z hz
    by_contra hout
    have hleft : z ∈ t.eval rows - answer := by
      rw [Multiset.mem_sub, Multiset.count_eq_zero.2 hout]
      exact Multiset.count_pos.2 (Multiset.mem_of_le hall hz)
    have hbefore : n ≤ z := hfirst rfl n (Multiset.mem_of_le hle hin) z hleft
    have hlt := Multiset.mem_range.1 hz
    obtain rfl : z = n := by omega
    exact hout (Multiset.mem_of_le hle hin)
  have hcards := Multiset.card_le_card hfull
  rw [Multiset.card_range, hcard] at hcards
  have hmin : taken (some n) (t.eval rows).card ≤ n := min_le_left n _
  omega

/-- **Whether a limit only truncates.**  A query whose branches of a kind are limited, and which is limited
itself, returns part of what it returned before, whatever the branches hold: if it returns nothing, or no
branch that is cut is subtracted and the original query had no limit, or a positive one, with an order only
where no branch is cut. -/
theorem onlyTruncates_iff (hnone : t.Without fun b => (limit b).isSome)
    (hlimit : ∀ b, limit (f b) = if kind b = true then some k else none) (hk : 1 ≤ k) (hflat : t.Flat)
    (hafter : ∀ n, before = some n → n ≠ 0 → after ≤ n) :
    OnlyTruncates limit ⟨t, ordered, before⟩ ⟨t.map f, ordered, some after⟩ ↔
      after = 0 ∨ t.Kept kind ∧ ∀ n, before = some n → n ≠ 0 ∧ (ordered = true → t.Without kind) := by
  constructor
  · intro h
    by_cases hzero : after = 0
    · exact Or.inl hzero
    right
    have hkept : t.Kept kind := by
      by_contra hkept
      obtain ⟨rows, cut, hcuts, hrows, hcut⟩ := exists_gain (Nat.zero_ne_one) hk hflat hkept
      obtain ⟨answer', hreturns, hin⟩ := returns_first ordered hlimit hzero id hcuts hcut
        fun y _ => Nat.zero_le y
      obtain ⟨answer, horiginal, hle⟩ := h ℕ ℕ id rows answer' hreturns
      have hsub := ((returns_iff hnone _ _ _ _ _).1 horiginal).1
      exact hrows (Multiset.mem_of_le (hle.trans hsub) hin)
    refine ⟨hkept, fun n hn => ⟨?_, ?_⟩⟩
    · rintro rfl
      obtain ⟨rows, cut, hcuts, -, hcut⟩ := exists_fill kind hk (Multiset.nodup_singleton 0)
        (Multiset.mem_singleton_self 0) t
      obtain ⟨answer', hreturns, hin⟩ := returns_first ordered hlimit hzero id hcuts hcut
        fun y _ => Nat.zero_le y
      obtain ⟨answer, horiginal, hle⟩ := h ℕ ℕ id rows answer' hreturns
      obtain ⟨-, hcard, -⟩ := (returns_iff hnone _ _ _ _ _).1 horiginal
      rw [hn, show taken (some 0) (t.eval rows).card = 0 from Nat.zero_min _, Multiset.card_eq_zero] at hcard
      rw [hcard] at hle
      exact Multiset.notMem_zero 0 (Multiset.mem_of_le hle hin)
    · rintro rfl
      subst hn
      exact without_of_truncates hnone hlimit hk hzero hkept h
  · rintro (hzero | ⟨hkept, hbefore⟩)
    · exact truncates_of_zero hnone hzero
    · exact truncates_of_kept hnone hlimit hafter hkept hbefore

end Limited

end FavoniusBackend.Lib.SetOperations
