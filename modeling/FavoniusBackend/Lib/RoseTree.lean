import Mathlib.Data.List.Basic

/-!
# Syntax trees

A syntax tree has a label at every node and any number of children.  A node of a tree is known by its path,
the positions of the children one descends into from the root: two nodes may look alike and still be
different nodes.  `walk` visits the nodes level by level, as a queue does; it visits exactly the nodes that
have a path (`mem_walk_iff`).

A function on trees is a `para`: it sees the label of a node and its children, each with its own result.
-/

namespace FavoniusBackend.Lib

inductive RoseTree (α : Type) where
  | node (label : α) (children : List (RoseTree α))

namespace RoseTree

variable {α R : Type}

def label : RoseTree α → α
  | .node l _ => l

def children : RoseTree α → List (RoseTree α)
  | .node _ cs => cs

/-! ### Recursion and induction -/

mutual

def para (f : α → List (RoseTree α × R) → R) : RoseTree α → R
  | .node l cs => f l (paraList f cs)

def paraList (f : α → List (RoseTree α × R) → R) : List (RoseTree α) → List (RoseTree α × R)
  | [] => []
  | c :: cs => (c, para f c) :: paraList f cs

end

theorem paraList_eq (f : α → List (RoseTree α × R) → R) (cs : List (RoseTree α)) :
    paraList f cs = cs.map fun c => (c, para f c) := by
  induction cs with
  | nil => rfl
  | cons c cs ih => rw [paraList, ih, List.map_cons]

theorem para_eq (f : α → List (RoseTree α × R) → R) (t : RoseTree α) :
    para f t = f t.label (t.children.map fun c => (c, para f c)) := by
  obtain ⟨l, cs⟩ := t
  rw [para, paraList_eq]
  rfl

mutual

theorem induct {P : RoseTree α → Prop} (h : ∀ t, (∀ c ∈ t.children, P c) → P t) : ∀ t, P t
  | .node l cs => h (.node l cs) (inductList h cs)

theorem inductList {P : RoseTree α → Prop} (h : ∀ t, (∀ c ∈ t.children, P c) → P t) :
    ∀ cs : List (RoseTree α), ∀ c ∈ cs, P c
  | [], c, hc => by cases hc
  | c :: cs, x, hx => by
    rcases List.mem_cons.1 hx with heq | hmem
    · rw [heq]
      exact induct h c
    · exact inductList h cs x hmem

end

/-! ### Nodes and their paths -/

def at? (t : RoseTree α) : List ℕ → Option (RoseTree α)
  | [] => some t
  | i :: path => t.children[i]?.bind fun c => c.at? path

theorem at?_append (t : RoseTree α) (p q : List ℕ) : t.at? (p ++ q) = (t.at? p).bind fun c => c.at? q := by
  induction p generalizing t with
  | nil => rfl
  | cons i p ih =>
    simp only [List.cons_append, at?]
    cases t.children[i]? with
    | none => rfl
    | some c => exact ih c

/-- The nodes `k` levels below a node at the path `p`, from left to right. -/
def level : ℕ → List ℕ → RoseTree α → List (List ℕ × RoseTree α)
  | 0, p, t => [(p, t)]
  | k + 1, p, t => t.children.zipIdx.flatMap fun c => level k (p ++ [c.2]) c.1

theorem mem_level_iff (k : ℕ) (p q : List ℕ) (t n : RoseTree α) :
    (q, n) ∈ level k p t ↔ ∃ r, q = p ++ r ∧ r.length = k ∧ t.at? r = some n := by
  induction k generalizing p t with
  | zero =>
    constructor
    · intro h
      obtain ⟨rfl, rfl⟩ : q = p ∧ n = t := by simpa [level] using h
      exact ⟨[], (List.append_nil q).symm, rfl, rfl⟩
    · intro ⟨r, hq, hr, hn⟩
      obtain rfl : r = [] := List.eq_nil_of_length_eq_zero hr
      obtain rfl : t = n := by simpa [at?] using hn
      simp [level, hq]
  | succ k ih =>
    simp only [level, List.mem_flatMap]
    constructor
    · intro ⟨c, hc, hmem⟩
      obtain ⟨r, hq, hr, hn⟩ := (ih _ _).1 hmem
      have hi : t.children[c.2]? = some c.1 := List.mem_zipIdx_iff_getElem?.1 hc
      refine ⟨c.2 :: r, by simp [hq], by simp [hr], ?_⟩
      rw [at?, hi]
      exact hn
    · intro ⟨r, hq, hr, hn⟩
      cases r with
      | nil => cases hr
      | cons i r =>
        rw [at?, Option.bind_eq_some_iff] at hn
        obtain ⟨c, hi, hn⟩ := hn
        refine ⟨(c, i), List.mem_zipIdx_iff_getElem?.2 hi, (ih _ _).2 ⟨r, ?_, ?_, hn⟩⟩
        · simp [hq]
        · simpa using hr

/-- The number of levels. -/
def depth : RoseTree α → ℕ := para fun _ cs => (cs.map Prod.snd).foldr max 0 + 1

theorem le_foldr_max {l : List ℕ} {n : ℕ} (h : n ∈ l) : n ≤ l.foldr max 0 := by
  induction l with
  | nil => cases h
  | cons m l ih =>
    rw [List.foldr_cons]
    rcases List.mem_cons.1 h with rfl | hmem
    · omega
    · have hrest := ih hmem
      omega

theorem depth_child {t c : RoseTree α} (h : c ∈ t.children) : c.depth + 1 ≤ t.depth := by
  have hdepth : t.depth = (t.children.map depth).foldr max 0 + 1 := by
    rw [depth, para_eq]
    simp [Function.comp_def]
  rw [hdepth]
  exact Nat.succ_le_succ (le_foldr_max (List.mem_map_of_mem h))

theorem length_lt_depth {t n : RoseTree α} {p : List ℕ} (h : t.at? p = some n) : p.length < t.depth := by
  induction p generalizing t with
  | nil =>
    rw [depth, para_eq]
    exact Nat.succ_pos _
  | cons i p ih =>
    rw [at?, Option.bind_eq_some_iff] at h
    obtain ⟨c, hi, hn⟩ := h
    have hchild := depth_child (List.mem_of_getElem? hi)
    have hrest := ih hn
    rw [List.length_cons]
    omega

/-- The nodes below a node at the path `p`, itself included, level by level. -/
def walkFrom (p : List ℕ) (t : RoseTree α) : List (List ℕ × RoseTree α) :=
  (List.range t.depth).flatMap fun k => level k p t

def walk (t : RoseTree α) : List (List ℕ × RoseTree α) := walkFrom [] t

theorem mem_walkFrom_iff (p q : List ℕ) (t n : RoseTree α) :
    (q, n) ∈ walkFrom p t ↔ ∃ r, q = p ++ r ∧ t.at? r = some n := by
  simp only [walkFrom, List.mem_flatMap, List.mem_range, mem_level_iff]
  constructor
  · intro ⟨_, _, r, hq, _, hn⟩
    exact ⟨r, hq, hn⟩
  · intro ⟨r, hq, hn⟩
    exact ⟨r.length, length_lt_depth hn, r, hq, rfl, hn⟩

/-- **A walk visits every node of the tree**, and nothing else. -/
theorem mem_walk_iff (q : List ℕ) (t n : RoseTree α) : (q, n) ∈ walk t ↔ t.at? q = some n := by
  rw [walk, mem_walkFrom_iff]
  constructor
  · intro ⟨r, hq, hn⟩
    rw [hq]
    exact hn
  · intro hn
    exact ⟨q, rfl, hn⟩

/-- A function that gives the same result on the children of every node with the same label and the same
results below is determined node by node. -/
theorem para_congr {f g : α → List (RoseTree α × R) → R} {t : RoseTree α}
    (h : ∀ p n, t.at? p = some n → ∀ rs : List (RoseTree α × R), rs.map Prod.fst = n.children →
      f n.label rs = g n.label rs) : para f t = para g t := by
  induction t using induct with
  | h t ih =>
    have hchildren : (t.children.map fun c => (c, para f c)) = t.children.map fun c => (c, para g c) := by
      refine List.map_congr_left ?_
      intro c hc
      obtain ⟨i, hi⟩ := List.getElem?_of_mem hc
      rw [ih c hc]
      intro p n hn
      refine h (i :: p) n ?_
      rw [at?, hi]
      exact hn
    rw [para_eq, para_eq, hchildren]
    refine h [] t rfl _ ?_
    simp [Function.comp_def]

end RoseTree

end FavoniusBackend.Lib
