import Mathlib.Tactic

/-!
# Mixed-integer linear models

A model is data: declared variables with a domain, bounds and possibly a fixed value, linear
constraints under a name, and a linear objective.  An assignment is feasible when every declared
variable takes an admissible value and every constraint holds.  A fixed variable has to take its value
and still obeys its domain and bounds.

Dropping constraints and fixings is a relaxation (`relax`).  If every feasible assignment of the
relaxation can be changed into a feasible one of the model without touching the variables the
objective sees, the two models have the same objective values (`objectiveValues_relax`).
-/

namespace FavoniusBackend.Lib.Milp

variable {V C : Type}

/-- A linear expression: weighted variables and a constant. -/
structure LinExpr (V : Type) where
  terms : List (ℚ × V)
  const : ℚ
  deriving DecidableEq, Repr

namespace LinExpr

def eval (x : V → ℚ) (e : LinExpr V) : ℚ := (e.terms.map fun t => t.1 * x t.2).sum + e.const

def constant (c : ℚ) : LinExpr V := ⟨[], c⟩

def var (v : V) : LinExpr V := ⟨[(1, v)], 0⟩

def sum (terms : List (ℚ × V)) : LinExpr V := ⟨terms, 0⟩

def add (e f : LinExpr V) : LinExpr V := ⟨e.terms ++ f.terms, e.const + f.const⟩

def scale (c : ℚ) (e : LinExpr V) : LinExpr V := ⟨e.terms.map fun t => (c * t.1, t.2), c * e.const⟩

instance : Add (LinExpr V) := ⟨add⟩

instance : Sub (LinExpr V) := ⟨fun e f => add e (scale (-1) f)⟩

instance : HMul ℚ (LinExpr V) (LinExpr V) := ⟨scale⟩

@[simp] theorem eval_constant (x : V → ℚ) (c : ℚ) : (constant c : LinExpr V).eval x = c := by
  simp [eval, constant]

@[simp] theorem eval_var (x : V → ℚ) (v : V) : (var v).eval x = x v := by
  simp [eval, var]

@[simp] theorem eval_sum (x : V → ℚ) (terms : List (ℚ × V)) :
    (sum terms).eval x = (terms.map fun t => t.1 * x t.2).sum := by
  simp [eval, sum]

@[simp] theorem eval_add (x : V → ℚ) (e f : LinExpr V) : (e + f).eval x = e.eval x + f.eval x := by
  show (add e f).eval x = _
  simp only [eval, add, List.map_append, List.sum_append]
  ring

@[simp] theorem eval_scale (x : V → ℚ) (c : ℚ) (e : LinExpr V) : (c * e).eval x = c * e.eval x := by
  show (scale c e).eval x = _
  have hterms : (e.terms.map ((fun t => t.1 * x t.2) ∘ fun t => (c * t.1, t.2))).sum =
      c * (e.terms.map fun t => t.1 * x t.2).sum := by
    rw [← List.sum_map_mul_left]
    congr 1
    apply List.map_congr_left
    intro t _
    show c * t.1 * x t.2 = _
    ring
  simp only [eval, scale, List.map_map, hterms]
  ring

@[simp] theorem eval_sub (x : V → ℚ) (e f : LinExpr V) : (e - f).eval x = e.eval x - f.eval x := by
  show (add e (scale (-1) f)).eval x = _
  have hadd := eval_add x e (scale (-1) f)
  have hneg := eval_scale x (-1) f
  show (e + scale (-1) f).eval x = _
  rw [hadd]
  show e.eval x + ((-1 : ℚ) * f).eval x = _
  rw [hneg]
  ring

/-- Every variable of the expression satisfies `p`. -/
def Within (p : V → Prop) (e : LinExpr V) : Prop := ∀ t ∈ e.terms, p t.2

/-- Expressions see an assignment only through their variables. -/
theorem eval_congr {p : V → Prop} {e : LinExpr V} (he : e.Within p) {x y : V → ℚ}
    (hxy : ∀ v, p v → x v = y v) : e.eval x = e.eval y := by
  rw [eval, eval]
  congr 2
  apply List.map_congr_left
  intro t ht
  rw [hxy t.2 (he t ht)]

@[simp] theorem within_constant (p : V → Prop) (c : ℚ) : (constant c).Within p := by
  intro t ht
  cases ht

@[simp] theorem within_sum (p : V → Prop) (terms : List (ℚ × V)) :
    (sum terms).Within p ↔ ∀ t ∈ terms, p t.2 :=
  Iff.rfl

@[simp] theorem within_var (p : V → Prop) (v : V) : (var v).Within p ↔ p v := by
  show (∀ t ∈ [((1 : ℚ), v)], p t.2) ↔ p v
  rw [List.forall_mem_singleton]

@[simp] theorem within_add (p : V → Prop) (e f : LinExpr V) :
    (e + f).Within p ↔ e.Within p ∧ f.Within p := by
  show (∀ t ∈ e.terms ++ f.terms, p t.2) ↔ _
  rw [List.forall_mem_append]
  rfl

@[simp] theorem within_scale (p : V → Prop) (c : ℚ) (e : LinExpr V) :
    (c * e).Within p ↔ e.Within p := by
  show (∀ t ∈ e.terms.map fun t => (c * t.1, t.2), p t.2) ↔ _
  rw [List.forall_mem_map]
  rfl

@[simp] theorem within_sub (p : V → Prop) (e f : LinExpr V) :
    (e - f).Within p ↔ e.Within p ∧ f.Within p :=
  (within_add p e (scale (-1) f)).trans (and_congr_right' (within_scale p (-1) f))

end LinExpr

/-! ### Constraints and variables -/

inductive Rel
  | le
  | eq
  | ge
  deriving DecidableEq, Repr

structure Constraint (V : Type) where
  lhs : LinExpr V
  rel : Rel
  rhs : LinExpr V
  deriving DecidableEq, Repr

def Constraint.Holds (c : Constraint V) (x : V → ℚ) : Prop :=
  match c.rel with
  | .le => c.lhs.eval x ≤ c.rhs.eval x
  | .eq => c.lhs.eval x = c.rhs.eval x
  | .ge => c.rhs.eval x ≤ c.lhs.eval x

instance (c : Constraint V) (x : V → ℚ) : Decidable (c.Holds x) := by
  unfold Constraint.Holds
  split <;> infer_instance

/-- Both sides have their variables in `p`. -/
def Constraint.Within (p : V → Prop) (c : Constraint V) : Prop := c.lhs.Within p ∧ c.rhs.Within p

theorem Constraint.holds_congr {p : V → Prop} {c : Constraint V} (hc : c.Within p) {x y : V → ℚ}
    (hxy : ∀ v, p v → x v = y v) (h : c.Holds x) : c.Holds y := by
  have hl := LinExpr.eval_congr hc.1 hxy
  have hr := LinExpr.eval_congr hc.2 hxy
  unfold Constraint.Holds at h ⊢
  rw [← hl, ← hr]
  exact h

inductive Domain
  | reals
  | nonNegativeReals
  | binary
  deriving DecidableEq, Repr

def Domain.Contains : Domain → ℚ → Prop
  | .reals, _ => True
  | .nonNegativeReals, q => 0 ≤ q
  | .binary, q => q = 0 ∨ q = 1

instance (d : Domain) (q : ℚ) : Decidable (d.Contains q) := by
  cases d <;> unfold Domain.Contains <;> infer_instance

structure VarDecl where
  domain : Domain
  lb : Option ℚ
  ub : Option ℚ
  fixed : Option ℚ
  deriving DecidableEq, Repr

/-- A bound or a fixing that is absent demands nothing. -/
def OptionHolds (o : Option ℚ) (p : ℚ → Prop) : Prop :=
  match o with
  | none => True
  | some q => p q

instance (o : Option ℚ) (p : ℚ → Prop) [DecidablePred p] : Decidable (OptionHolds o p) := by
  unfold OptionHolds
  split <;> infer_instance

structure VarDecl.Admits (d : VarDecl) (q : ℚ) : Prop where
  domain : d.domain.Contains q
  lb : OptionHolds d.lb (· ≤ q)
  ub : OptionHolds d.ub (q ≤ ·)
  fixed : OptionHolds d.fixed (q = ·)

instance (d : VarDecl) (q : ℚ) : Decidable (d.Admits q) :=
  decidable_of_iff (d.domain.Contains q ∧ OptionHolds d.lb (· ≤ q) ∧ OptionHolds d.ub (q ≤ ·) ∧
    OptionHolds d.fixed (q = ·))
    ⟨fun h => ⟨h.1, h.2.1, h.2.2.1, h.2.2.2⟩, fun h => ⟨h.domain, h.lb, h.ub, h.fixed⟩⟩

/-! ### Models -/

structure Model (V C : Type) where
  vars : List (V × VarDecl)
  constraints : List (C × Constraint V)
  objective : LinExpr V
  deriving DecidableEq

/-- Admissible values and all constraints. -/
structure Model.Feasible (m : Model V C) (x : V → ℚ) : Prop where
  admits : ∀ v ∈ m.vars, v.2.Admits (x v.1)
  holds : ∀ c ∈ m.constraints, c.2.Holds x

instance (m : Model V C) (x : V → ℚ) : Decidable (m.Feasible x) :=
  decidable_of_iff ((∀ v ∈ m.vars, v.2.Admits (x v.1)) ∧ ∀ c ∈ m.constraints, c.2.Holds x)
    ⟨fun h => ⟨h.1, h.2⟩, fun h => ⟨h.admits, h.holds⟩⟩

def Model.objectiveValues (m : Model V C) : Set ℚ := {q | ∃ x, m.Feasible x ∧ m.objective.eval x = q}

/-- No feasible assignment costs less. -/
structure Model.Optimal (m : Model V C) (x : V → ℚ) : Prop where
  feasible : m.Feasible x
  least : ∀ y, m.Feasible y → m.objective.eval x ≤ m.objective.eval y

/-- What the feasible assignments look like on the variables in `p`. -/
def Model.projection (m : Model V C) (p : V → Prop) : Set ({v // p v} → ℚ) :=
  {z | ∃ x, m.Feasible x ∧ ∀ v : {v // p v}, x v.1 = z v}

def Model.relax (keep : C → Bool) (m : Model V C) : Model V C where
  vars := m.vars.map fun v => (v.1, { v.2 with fixed := none })
  constraints := m.constraints.filter fun c => keep c.1
  objective := m.objective

theorem Model.Feasible.relax {m : Model V C} {x : V → ℚ} (keep : C → Bool) (h : m.Feasible x) :
    (m.relax keep).Feasible x := by
  refine ⟨?_, ?_⟩
  · intro v hv
    obtain ⟨w, hw, rfl⟩ := List.mem_map.mp hv
    have hadm := h.admits w hw
    exact ⟨hadm.domain, hadm.lb, hadm.ub, trivial⟩
  · intro c hc
    exact h.holds c (List.mem_filter.mp hc).1

/-! ### The same model -/

/-- The same relation between the same sides, up to moving terms across and reordering sums. -/
structure Constraint.Same (c d : Constraint V) : Prop where
  rel : c.rel = d.rel
  difference : ∀ x, c.lhs.eval x - c.rhs.eval x = d.lhs.eval x - d.rhs.eval x

theorem Constraint.Same.refl (c : Constraint V) : c.Same c := ⟨rfl, fun _ => rfl⟩

def SameRow : Option (Constraint V) → Option (Constraint V) → Prop
  | none, none => True
  | some c, some d => c.Same d
  | _, _ => False

theorem sameRow_of_eq {r s : Option (Constraint V)} (h : r = s) : SameRow r s := by
  subst h
  cases r with
  | none => trivial
  | some c => exact Constraint.Same.refl c

/-- The same declared variables, the same rows under every name, the same objective; the order in which
they were added does not count. -/
structure Model.Same (m n : Model V C) : Prop where
  vars : ∀ v, v ∈ m.vars ↔ v ∈ n.vars
  constraints : ∀ name c, (name, c) ∈ m.constraints → ∃ d, (name, d) ∈ n.constraints ∧ c.Same d
  constraints_of : ∀ name d, (name, d) ∈ n.constraints → ∃ c, (name, c) ∈ m.constraints ∧ c.Same d
  objective : ∀ x, m.objective.eval x = n.objective.eval x

/-- **Models with one declaration and one row under each name** are the same when these are. -/
theorem Model.same_iff {m n : Model V C} {declOf declOf' : V → Option VarDecl}
    {rowOf rowOf' : C → Option (Constraint V)}
    (hm : ∀ v d, (v, d) ∈ m.vars ↔ declOf v = some d)
    (hn : ∀ v d, (v, d) ∈ n.vars ↔ declOf' v = some d)
    (hm' : ∀ name c, (name, c) ∈ m.constraints ↔ rowOf name = some c)
    (hn' : ∀ name c, (name, c) ∈ n.constraints ↔ rowOf' name = some c) :
    m.Same n ↔ (∀ v, declOf v = declOf' v) ∧ (∀ name, SameRow (rowOf name) (rowOf' name)) ∧
      ∀ x, m.objective.eval x = n.objective.eval x := by
  refine ⟨?_, ?_⟩
  · intro h
    refine ⟨?_, ?_, h.objective⟩
    · intro v
      apply Option.ext
      intro d
      rw [← hm, ← hn]
      exact h.vars (v, d)
    · intro name
      cases hrow : rowOf name with
      | some c =>
        obtain ⟨d, hd, hsame⟩ := h.constraints name c ((hm' name c).mpr hrow)
        rw [(hn' name d).mp hd]
        exact hsame
      | none =>
        cases hrow' : rowOf' name with
        | none => trivial
        | some d =>
          obtain ⟨c, hc, _⟩ := h.constraints_of name d ((hn' name d).mpr hrow')
          rw [hm', hrow] at hc
          cases hc
  · intro ⟨hdecl, hrows, hobj⟩
    refine ⟨?_, ?_, ?_, hobj⟩
    · intro ⟨v, d⟩
      rw [hm, hn, hdecl]
    · intro name c hc
      have hsame := hrows name
      rw [(hm' name c).mp hc] at hsame
      cases hrow' : rowOf' name with
      | none =>
        rw [hrow'] at hsame
        cases hsame
      | some d =>
        rw [hrow'] at hsame
        exact ⟨d, (hn' name d).mpr hrow', hsame⟩
    · intro name d hd
      have hsame := hrows name
      rw [(hn' name d).mp hd] at hsame
      cases hrow : rowOf name with
      | none =>
        rw [hrow] at hsame
        cases hsame
      | some c =>
        rw [hrow] at hsame
        exact ⟨c, (hm' name c).mpr hrow, hsame⟩

section Repair

variable {m : Model V C} {keep : C → Bool} {p : V → Prop}

/-- **Same projection.**  A relaxation loses nothing on `p` when its feasible assignments can be
repaired without changing `p`. -/
theorem projection_relax
    (hrepair : ∀ x, (m.relax keep).Feasible x → ∃ y, m.Feasible y ∧ ∀ v, p v → y v = x v) :
    m.projection p = (m.relax keep).projection p := by
  apply Set.Subset.antisymm
  · rintro z ⟨x, hx, hz⟩
    exact ⟨x, hx.relax keep, hz⟩
  · rintro z ⟨x, hx, hz⟩
    obtain ⟨y, hy, hyx⟩ := hrepair x hx
    exact ⟨y, hy, fun v => (hyx v.1 v.2).trans (hz v)⟩

/-- **Same optimum.**  If moreover the objective only sees `p`, the objective values agree. -/
theorem objectiveValues_relax (hobj : m.objective.Within p)
    (hrepair : ∀ x, (m.relax keep).Feasible x → ∃ y, m.Feasible y ∧ ∀ v, p v → y v = x v) :
    m.objectiveValues = (m.relax keep).objectiveValues := by
  apply Set.Subset.antisymm
  · rintro q ⟨x, hx, hq⟩
    exact ⟨x, hx.relax keep, hq⟩
  · rintro q ⟨x, hx, hq⟩
    obtain ⟨y, hy, hyx⟩ := hrepair x hx
    exact ⟨y, hy, (LinExpr.eval_congr hobj hyx).trans hq⟩

end Repair

end FavoniusBackend.Lib.Milp
