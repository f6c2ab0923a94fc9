import FavoniusBackend.Agent.Sources

/-!
# The time guard of the hypertables

`prices_hourly` and `building_load_hourly` read a hypertable; a query that does not bound their column
`hour` scans all of it.  The validator therefore follows the `WHERE` clause of every `SELECT` through its
conjunctions and disjunctions and wants every way to make it true to contain a leaf that bounds the column.
A leaf counts when some comparison inside it compares the column with something that does not contain it:
the comparison may be `<>`, or stand inside a `CASE` that is true either way, or compare with a column of
another table.  And a table inside a parenthesised join is not looked at.

`timeBounded_of_reliable` says that this is all: where the verdict of the guard does not rest on such a leaf, and
stays the same when only comparisons of the column with something fixed count, the guard is sound.
-/

namespace FavoniusBackend.Agent.TimeGuard

open Lib Agent.Syntax Agent.SqlValidator
open Agent.Sources

variable {F : Type}

/-! ### The meaning of a `WHERE` clause -/

/-- `AND` of SQL: `none` is unknown. -/
def sqlAnd : Option Bool → Option Bool → Option Bool
  | some false, _ => some false
  | _, some false => some false
  | some true, some true => some true
  | _, _ => none

/-- `OR` of SQL. -/
def sqlOr : Option Bool → Option Bool → Option Bool
  | some true, _ => some true
  | _, some true => some true
  | some false, some false => some false
  | _, _ => none

/-- The truth of a predicate for a combination of rows, given what the combination makes of its leaves. -/
def truth (rows : Node → Option Bool) : Node → Option Bool :=
  RoseTree.para fun l children =>
    let this := (ofArg children .this).getD none
    let expression := (ofArg children .expression).getD none
    match l.cls with
    | .paren => this
    | .and => sqlAnd this expression
    | .or => sqlOr this expression
    | .not => this.map not
    | .boolean value => some value
    | _ => rows (.node l (children.map Prod.fst))

/-- The leaves of the predicate at a path: what its parentheses, conjunctions and disjunctions are made
of. -/
def leaves : Node → Path → List (Path × Node) :=
  RoseTree.para fun l children p =>
    let this := (ofArgAt children p .this).getD []
    let expression := (ofArgAt children p .expression).getD []
    match l.cls with
    | .paren => this
    | .and | .or => this ++ expression
    | _ => [(p, .node l (children.map Prod.fst))]

/-! ### Bounds -/

/-- The `Table` nodes that the FROM and JOIN clauses of a `SELECT` read, those in parentheses included. -/
def sourceTables : Node → Path → List (Path × Node) :=
  RoseTree.para fun l children p =>
    match l.cls with
    | .select => []
    | _ =>
      (if l.cls = .table then [(p, .node l (children.map Prod.fst))] else []) ++
        children.zipIdx.flatMap fun c => c.1.2 (p ++ [c.2])

def sources (select : Path × Node) : List (Path × Node) :=
  (argsAt select.1 select.2 .fromClause ++ argsAt select.1 select.2 .joins).flatMap
    fun c => sourceTables c.2 c.1

/-- The `Table` node calls a hypertable function of `agent_views`. -/
def IsHypertable (rt : Runtime F) (table : Node) : Prop :=
  (referenceOf rt table).schema = "agent_views" ∧ (referenceOf rt table).name ∈ hypertableFunctions ∧
    (referenceOf rt table).arguments.isSome = true

/-- The name under which the columns of a `Table` node are known. -/
def knownAs (rt : Runtime F) (table : Node) : String :=
  match arg table .tableAlias with
  | some a => if cls a = .tableAlias then denotedArg rt a .this else denoted rt a
  | none => (referenceOf rt table).name

/-- The `SELECT` has one source, a `Table` node without joins. -/
def hasSoleSource (select : Node) : Bool :=
  (args select .joins).isEmpty &&
    ((arg select .fromClause).bind fun f => arg f .this).any fun t =>
      decide (cls t = .table) && (args t .joins).isEmpty

def isTimeColumn (rt : Runtime F) (select table n : Node) : Bool :=
  decide (cls n = .column) && decide (denotedArg rt n .this = "hour") &&
    if (arg n .table).isSome then decide (denotedArg rt n .table = knownAs rt table)
    else hasSoleSource select

/-- The time column of the table, bare or under `date_trunc` or `time_bucket`. -/
def isTimeSide (rt : Runtime F) (select table n : Node) : Bool :=
  isTimeColumn rt select table n ||
    match cls n with
    | .func key => decide (key ∈ truncKeys) && (arg n .this).any (isTimeColumn rt select table)
    | .anonymous =>
      decide (denotedArg rt n .this = "time_bucket") &&
        (args n .expressions).getLast?.any (isTimeColumn rt select table)
    | _ => false

def isColumnFree (n : Node) : Bool := (findAll n (· = .column)).isEmpty

/-- `=`, `<`, `<=`, `>`, `>=`, `BETWEEN` or `IN` with a list, between the time column of the table and
expressions without columns. -/
def boundsTime (rt : Runtime F) (select table c : Node) : Bool :=
  match cls c with
  | .comparison op =>
    decide (op ≠ .neq) &&
      match arg c .this, arg c .expression with
      | some left, some right =>
        isTimeSide rt select table left && isColumnFree right ||
          isTimeSide rt select table right && isColumnFree left
      | _, _ => false
  | .between =>
    match arg c .this, arg c .low, arg c .high with
    | some subject, some low, some high =>
      isTimeSide rt select table subject && isColumnFree low && isColumnFree high
    | _, _, _ => false
  | .isIn =>
    (arg c .this).any (isTimeSide rt select table) && (arg c .query).isNone &&
      !(args c .expressions).isEmpty && (args c .expressions).all isColumnFree
  | _ => false

/-- The predicate of the `WHERE` clause of a `SELECT`. -/
def wherePredicate (select : Path × Node) : Option (Path × Node) :=
  (argAt select.1 select.2 .whereClause).bind fun w => argAt w.1 w.2 .this

/-- The combination of rows satisfies the `WHERE` clause. -/
def SatisfiesWhere (rows : Node → Option Bool) (select : Path × Node) : Prop :=
  ∀ predicate, wherePredicate select = some predicate → truth rows predicate.2 = some true

/-- Every combination of rows that satisfies the `WHERE` clause of a `SELECT` satisfies, for every
hypertable it reads, a comparison of the clause that bounds the time column of that hypertable. -/
def TimeBounded (rt : Runtime F) (Combination : (Node → Option Bool) → Prop) (tree : Node) : Prop :=
  ∀ select, tree.at? select.1 = some select.2 → cls select.2 = .select →
    ∀ table ∈ sources select, IsHypertable rt table.2 →
      ∀ rows, Combination rows → SatisfiesWhere rows select →
        ∃ predicate q c, wherePredicate select = some predicate ∧ predicate.2.at? q = some c ∧
          boundsTime rt select.2 table.2 c = true ∧ rows c = some true

/-! ### The condition -/

section Condition

variable [LinearOrder F] [Zero F]

/-- The guard as it is meant: a clause is bounded by comparisons that bound the time column, and by negations of
what is never false. -/
def Bounded (rt : Runtime F) (Combination : (Node → Option Bool) → Prop) (select table : Node) : Node → Prop :=
  RoseTree.para fun l children =>
    let node : Node := .node l (children.map Prod.fst)
    let this := (ofArg children .this).getD False
    let expression := (ofArg children .expression).getD False
    match l.cls with
    | .paren => this
    | .and => this ∨ expression
    | .or => this ∧ expression
    | .not => ∃ inner, arg node .this = some inner ∧ ∀ rows, Combination rows → truth rows inner ≠ some false
    | _ => boundsTime rt select table node = true

/-- A leaf that counts as a bound is one, and a negation that counts as never true negates what is never
false. -/
def ReliableLeaf (rt : Runtime F) (Combination : (Node → Option Bool) → Prop) (tree : Node)
    (select : Path × Node) (table : Node) (target : String) (leaf : Path × Node) : Prop :=
  (leafEnforces rt tree target (allSourceAliases rt select) leaf = true →
    boundsTime rt select.2 table leaf.2 = true) ∧
  ∀ inner, cls leaf.2 = .not → arg leaf.2 .this = some inner → isUnconditionalTrue rt inner = true →
    ∀ rows, Combination rows → truth rows inner ≠ some false

/-- The guard looks at every hypertable that is read, and a `WHERE` clause that it lets pass is bounded also when only
the leaves count that are bounds. -/
def Reliable (rt : Runtime F) (Combination : (Node → Option Bool) → Prop) (tree : Node) : Prop :=
  ∀ select, tree.at? select.1 = some select.2 → cls select.2 = .select →
    ∀ table ∈ sources select, IsHypertable rt table.2 →
      table ∈ selectFromTables select ∧ ∃ ref, hypertableRef rt table = some ref ∧
        ∀ predicate, wherePredicate select = some predicate →
          allowsUnboundedTime rt tree ref.1 (allSourceAliases rt select) predicate.2 predicate.1 = false →
            Bounded rt Combination select.2 table.2 predicate.2

end Condition

/-! ### Arguments and their paths -/

theorem ofArg_map {R : Type} (n : Node) (g : Node → R) (key : ArgKey) :
    ofArg (n.children.map fun c => (c, g c)) key = (arg n key).map g := by
  rw [ofArg, arg, List.find?_map, Option.map_map]
  rfl

theorem ofArgAt_map {R : Type} (p : Path) (n : Node) (g : Node → Path → R) (key : ArgKey) :
    ofArgAt (n.children.map fun c => (c, g c)) p key = (argAt p n key).map fun m => g m.2 m.1 := by
  rw [ofArgAt, argAt, List.zipIdx_map, List.find?_map, Option.map_map, Option.map_map]
  rfl

theorem argAt_child {p q : Path} {n c : Node} {key : ArgKey} (h : argAt p n key = some (q, c)) :
    ∃ i, q = p ++ [i] ∧ n.children[i]? = some c := by
  rw [argAt, Option.map_eq_some_iff] at h
  obtain ⟨⟨c', i⟩, hfind, heq⟩ := h
  cases heq
  exact ⟨i, rfl, List.mem_zipIdx_iff_getElem?.1 (List.mem_of_find?_eq_some hfind)⟩

theorem arg_eq_map_argAt (p : Path) (n : Node) (key : ArgKey) :
    arg n key = (argAt p n key).map Prod.snd := by
  rw [argAt, Option.map_map, arg]
  conv_lhs => rw [← List.zipIdx_map_fst 0 n.children]
  rw [List.find?_map]
  rfl

/-! ### The recursions, one level at a time -/

theorem node_eta (n : Node) : RoseTree.node n.label n.children = n := by
  cases n
  rfl

theorem truth_eq (rows : Node → Option Bool) (n : Node) :
    truth rows n =
      let this := ((arg n .this).map (truth rows)).getD none
      let expression := ((arg n .expression).map (truth rows)).getD none
      match cls n with
      | .paren => this
      | .and => sqlAnd this expression
      | .or => sqlOr this expression
      | .not => this.map not
      | .boolean value => some value
      | _ => rows n := by
  conv_lhs => rw [truth, RoseTree.para_eq]
  simp only [List.map_map, Function.comp_def, List.map_id']
  rw [ofArg_map, ofArg_map, node_eta]
  rfl

theorem bounded_eq [LinearOrder F] [Zero F] (rt : Runtime F) (Combination : (Node → Option Bool) → Prop)
    (select table n : Node) :
    Bounded rt Combination select table n =
      let this := ((arg n .this).map (Bounded rt Combination select table)).getD False
      let expression := ((arg n .expression).map (Bounded rt Combination select table)).getD False
      match cls n with
      | .paren => this
      | .and => this ∨ expression
      | .or => this ∧ expression
      | .not => ∃ inner, arg n .this = some inner ∧ ∀ rows, Combination rows → truth rows inner ≠ some false
      | _ => boundsTime rt select table n = true := by
  conv_lhs => rw [Bounded, RoseTree.para_eq]
  simp only [List.map_map, Function.comp_def, List.map_id']
  rw [ofArg_map, ofArg_map, node_eta]
  rfl

theorem leaves_eq (n : Node) (p : Path) :
    leaves n p =
      let this := ((argAt p n .this).map fun m => leaves m.2 m.1).getD []
      let expression := ((argAt p n .expression).map fun m => leaves m.2 m.1).getD []
      match cls n with
      | .paren => this
      | .and | .or => this ++ expression
      | _ => [(p, n)] := by
  conv_lhs => rw [leaves, RoseTree.para_eq]
  simp only [List.map_map, Function.comp_def, List.map_id']
  rw [ofArgAt_map, ofArgAt_map, node_eta]
  rfl

theorem allowsUnboundedTime_eq [LinearOrder F] [Zero F] (rt : Runtime F) (tree : Node) (target : String)
    (aliases : List String) (n : Node) (p : Path) :
    allowsUnboundedTime rt tree target aliases n p =
      let this := (argAt p n .this).map fun m => allowsUnboundedTime rt tree target aliases m.2 m.1
      let expression :=
        (argAt p n .expression).map fun m => allowsUnboundedTime rt tree target aliases m.2 m.1
      match cls n with
      | .paren => this.getD true
      | .and =>
        match this, expression with
        | some left, some right => left && right
        | _, _ => true
      | .or =>
        match this, expression with
        | some left, some right => left || right
        | _, _ => true
      | .not =>
        match arg n .this with
        | some inner => isUnconditionalFalse rt inner || !isUnconditionalTrue rt inner
        | none => true
      | _ => isUnconditionalTrue rt n || !leafEnforces rt tree target aliases (p, n) := by
  conv_lhs => rw [allowsUnboundedTime, RoseTree.para_eq]
  simp only [List.map_map, Function.comp_def, List.map_id']
  rw [ofArgAt_map, ofArgAt_map, node_eta]
  rfl

/-! ### Soundness of the recursion -/

theorem sqlAnd_eq_true {a b : Option Bool} (h : sqlAnd a b = some true) : a = some true ∧ b = some true := by
  rcases a with _ | (_ | _) <;> rcases b with _ | (_ | _) <;> simp [sqlAnd] at h ⊢

theorem sqlOr_eq_true {a b : Option Bool} (h : sqlOr a b = some true) : a = some true ∨ b = some true := by
  rcases a with _ | (_ | _) <;> rcases b with _ | (_ | _) <;> simp [sqlOr] at h ⊢

section Meaning

variable {rt : Runtime F} {Combination : (Node → Option Bool) → Prop} {tree : Node}
  {select : Path × Node} {table : Node} {target : String} {rows : Node → Option Bool}

def HasTrueBound (rt : Runtime F) (select table : Node) (rows : Node → Option Bool) (n : Node) : Prop :=
  ∃ q c, n.at? q = some c ∧ boundsTime rt select table c = true ∧ rows c = some true

theorem HasTrueBound.of_arg {select n c : Node} {key : ArgKey} (h : HasTrueBound rt select table rows c)
    (harg : arg n key = some c) : HasTrueBound rt select table rows n := by
  obtain ⟨r, x, hx, hbounds, htrue⟩ := h
  obtain ⟨i, hi⟩ := List.mem_iff_getElem?.1 (List.mem_of_find?_eq_some harg)
  refine ⟨i :: r, x, ?_, hbounds, htrue⟩
  rw [RoseTree.at?, hi]
  exact hx

/-- A parenthesis, a conjunction, a disjunction or a negation. -/
def isConnective : NodeClass → Bool
  | .paren | .and | .or | .not => true
  | _ => false

section Sound

variable [LinearOrder F] [Zero F]

theorem bounded_leaf {select n : Node} (hcls : isConnective (cls n) = false) :
    Bounded rt Combination select table n = (boundsTime rt select table n = true) := by
  rw [bounded_eq]
  cases hc : cls n with
  | paren | and | or | not =>
    rw [hc] at hcls
    cases hcls
  | _ => rfl

omit [LinearOrder F] [Zero F] in
theorem truth_leaf {select n : Node} (hcls : isConnective (cls n) = false)
    (hbounds : boundsTime rt select table n = true) : truth rows n = rows n := by
  rw [truth_eq]
  cases hc : cls n with
  | paren | and | or | not =>
    rw [hc] at hcls
    cases hcls
  | boolean value =>
    rw [boundsTime, hc] at hbounds
    cases hbounds
  | _ => rfl

/-- **A clause that is bounded** is true only where one of its bounds is. -/
theorem bounded_sound (hrows : Combination rows) (select n : Node) (h : Bounded rt Combination select table n)
    (htrue : truth rows n = some true) : HasTrueBound rt select table rows n := by
  induction n using RoseTree.induct with
  | h n ih =>
    have hpart : ∀ key, ((arg n key).map (Bounded rt Combination select table)).getD False →
        ((arg n key).map (truth rows)).getD none = some true → HasTrueBound rt select table rows n := by
      intro key hbounded hvalue
      cases harg : arg n key with
      | none =>
        rw [harg] at hbounded
        cases hbounded
      | some c =>
        rw [harg] at hbounded hvalue
        exact (ih c (List.mem_of_find?_eq_some harg) hbounded hvalue).of_arg harg
    by_cases hconnective : isConnective (cls n) = false
    · rw [bounded_leaf hconnective] at h
      rw [truth_leaf hconnective h] at htrue
      exact ⟨[], n, rfl, h, htrue⟩
    · rw [bounded_eq] at h
      rw [truth_eq] at htrue
      cases hcls : cls n with
      | paren =>
        rw [hcls] at h htrue
        exact hpart .this h htrue
      | and =>
        rw [hcls] at h htrue
        obtain ⟨hleft, hright⟩ := sqlAnd_eq_true htrue
        rcases h with h | h
        · exact hpart .this h hleft
        · exact hpart .expression h hright
      | or =>
        rw [hcls] at h htrue
        rcases sqlOr_eq_true htrue with hleft | hright
        · exact hpart .this h.1 hleft
        · exact hpart .expression h.2 hright
      | not =>
        rw [hcls] at h htrue
        obtain ⟨inner, hinner, hnever⟩ := h
        rw [hinner] at htrue
        have hnot : (truth rows inner).map not = some true := htrue
        exact absurd (by simpa using hnot) (hnever rows hrows)
      | _ => exact absurd (by rw [hcls]; rfl) hconnective

/-! ### The recursion of the guard -/

theorem leaves_sides {n c c' : Node} {p q q' : Path} (hcls : cls n = .and ∨ cls n = .or)
    (hthis : argAt p n .this = some (q, c)) (hexpression : argAt p n .expression = some (q', c')) :
    leaves n p = leaves c q ++ leaves c' q' := by
  rw [leaves_eq n p, hthis, hexpression]
  rcases hcls with hcls | hcls
  · rw [hcls]
    rfl
  · rw [hcls]
    rfl

def VerdictRight (rt : Runtime F) (Combination : (Node → Option Bool) → Prop) (tree : Node) (select : Path × Node)
    (table : Node) (target : String) (n : Node) : Prop :=
  ∀ p, (∀ leaf ∈ leaves n p, ReliableLeaf rt Combination tree select table target leaf) →
    allowsUnboundedTime rt tree target (allSourceAliases rt select) n p = false →
      Bounded rt Combination select.2 table n

theorem verdict_leaf {n : Node} (hcls : isConnective (cls n) = false) :
    VerdictRight rt Combination tree select table target n := by
  intro p hleaves hallows
  have hself : leaves n p = [(p, n)] ∧ allowsUnboundedTime rt tree target (allSourceAliases rt select) n p =
      (isUnconditionalTrue rt n || !leafEnforces rt tree target (allSourceAliases rt select) (p, n)) := by
    rw [leaves_eq, allowsUnboundedTime_eq]
    cases hc : cls n with
    | paren | and | or | not =>
      rw [hc] at hcls
      cases hcls
    | _ => exact ⟨rfl, rfl⟩
  rw [hself.2] at hallows
  rw [bounded_leaf hcls]
  refine (hleaves (p, n) (by rw [hself.1]; exact List.mem_singleton_self _)).1 ?_
  simpa using (Bool.or_eq_false_iff.1 hallows).2

/-- The one negation that the guard lets pass is that of something it takes for true. -/
theorem verdict_not {n : Node} (hcls : cls n = .not) : VerdictRight rt Combination tree select table target n := by
  intro p hleaves hallows
  have hself : (p, n) ∈ leaves n p := by
    rw [leaves_eq, hcls]
    exact List.mem_singleton_self _
  rw [allowsUnboundedTime_eq, hcls] at hallows
  rw [bounded_eq, hcls]
  cases hinner : arg n .this with
  | none =>
    rw [hinner] at hallows
    cases hallows
  | some inner =>
    rw [hinner] at hallows
    have hjudged : isUnconditionalTrue rt inner = true := by
      simpa using (Bool.or_eq_false_iff.1 hallows).2
    exact ⟨inner, rfl, (hleaves _ hself).2 inner hcls hinner hjudged⟩

/-- **The recursion of the guard is right** where the leaves are reliable. -/
theorem verdictRight (n : Node) : VerdictRight rt Combination tree select table target n := by
  induction n using RoseTree.induct with
  | h n ih =>
    have hpart : ∀ {p q : Path} {c : Node} {key : ArgKey}, argAt p n key = some (q, c) →
        (∀ leaf ∈ leaves c q, ReliableLeaf rt Combination tree select table target leaf) →
        allowsUnboundedTime rt tree target (allSourceAliases rt select) c q = false →
        ((arg n key).map (Bounded rt Combination select.2 table)).getD False := by
      intro p q c key harg hleaves hallows
      obtain ⟨i, _, hi⟩ := argAt_child harg
      rw [arg_eq_map_argAt p n key, harg]
      exact ih c (List.mem_of_getElem? hi) q hleaves hallows
    cases hcls : cls n with
    | not => exact verdict_not hcls
    | paren =>
      intro p hleaves hallows
      rw [allowsUnboundedTime_eq, hcls] at hallows
      rw [bounded_eq, hcls]
      rw [leaves_eq, hcls] at hleaves
      cases hthis : argAt p n .this with
      | none =>
        rw [hthis] at hallows
        cases hallows
      | some m =>
        rw [hthis] at hallows hleaves
        exact hpart hthis hleaves hallows
    | and | or =>
      intro p hleaves hallows
      rw [allowsUnboundedTime_eq, hcls] at hallows
      rw [bounded_eq, hcls]
      cases hthis : argAt p n .this with
      | none =>
        rw [hthis] at hallows
        cases hallows
      | some m =>
        cases hexpression : argAt p n .expression with
        | none =>
          rw [hthis, hexpression] at hallows
          cases hallows
        | some m' =>
          rw [hthis, hexpression] at hallows
          rw [leaves_sides (by simp [hcls]) hthis hexpression] at hleaves
          have hleft := hpart hthis fun leaf hleaf => hleaves leaf (List.mem_append_left _ hleaf)
          have hright := hpart hexpression fun leaf hleaf => hleaves leaf (List.mem_append_right _ hleaf)
          first
            | exact (Bool.and_eq_false_iff.1 hallows).imp hleft hright
            | exact (Bool.or_eq_false_iff.1 hallows).imp hleft hright
    | _ => exact verdict_leaf (by rw [hcls]; rfl)

end Sound

end Meaning

/-! ### What acceptance has checked -/

theorem mem_fromJoinTables (t : Node) :
    ∀ p q n, (q, n) ∈ fromJoinTables t p → ∃ r, q = p ++ r ∧ t.at? r = some n ∧ cls n = .table := by
  induction t using RoseTree.induct with
  | h t ih =>
    intro p q n hmem
    rw [fromJoinTables, RoseTree.para_eq] at hmem
    simp only [List.map_map, Function.comp_def, List.map_id', node_eta] at hmem
    split at hmem
    · cases hmem
    · cases hmem
    · rename_i hcls
      cases List.mem_singleton.1 hmem
      exact ⟨[], (List.append_nil p).symm, rfl, hcls⟩
    · rw [List.mem_flatMap] at hmem
      obtain ⟨⟨c, i⟩, hc, hmem⟩ := hmem
      have hi := List.mem_zipIdx_iff_getElem?.1 hc
      rw [List.getElem?_map, Option.map_eq_some_iff] at hi
      obtain ⟨child, hchild, rfl⟩ := hi
      obtain ⟨r, rfl, hr, hcls⟩ := ih child (List.mem_of_getElem? hchild) _ _ _ hmem
      refine ⟨i :: r, by simp, ?_, hcls⟩
      rw [RoseTree.at?, hchild]
      exact hr

theorem mem_selectFromTables {tree : Node} {select table : Path × Node}
    (hselect : tree.at? select.1 = some select.2) (h : table ∈ selectFromTables select) :
    tree.at? table.1 = some table.2 ∧ cls table.2 = .table := by
  rw [selectFromTables, List.mem_flatMap] at h
  obtain ⟨⟨q, c⟩, hc, hmem⟩ := h
  have hchild : ∃ i, q = select.1 ++ [i] ∧ select.2.children[i]? = some c := by
    rcases List.mem_append.1 hc with hfrom | hjoin
    · exact mem_argsAt hfrom
    · exact mem_argsAt hjoin
  obtain ⟨i, rfl, hi⟩ := hchild
  obtain ⟨r, hr, hat, hcls⟩ := mem_fromJoinTables c _ _ _ hmem
  refine ⟨?_, hcls⟩
  rw [hr, RoseTree.at?_append, RoseTree.at?_append, hselect]
  simp only [Option.bind_some, RoseTree.at?, hi]
  exact hat

section Accepted

variable [LinearOrder F] [Zero F] {rt : Runtime F} {allowed : List String} {tree : Node}

theorem hypertable_used {tables : List (String × Path)} (hchecked : Checked rt allowed tree tables)
    {table : Path × Node} {ref : String × String} (hat : tree.at? table.1 = some table.2)
    (hcls : cls table.2 = .table) (href : hypertableRef rt table = some ref) :
    ∃ fn ∈ tables.map Prod.fst, fn ∈ hypertableFunctions := by
  have hmem := (mem_findAll_iff tree (· = .table) table.1 table.2).2 ⟨hat, decide_eq_true hcls⟩
  obtain ⟨⟨fn, r⟩, hused, hok⟩ := Guard.ok_of_collect hchecked.shown _ hmem
  obtain ⟨q, anon, a, hfind, hname, _⟩ := (seen_of_checkTable hok).call
  have hfunction : tableFunction rt table = some fn := by
    rw [tableFunction, hfind, ← hname]
    rfl
  refine ⟨fn, List.mem_map_of_mem hused, ?_⟩
  rw [hypertableRef, hfunction] at href
  split at href
  · rw [Option.bind_some] at href
    split at href
    · rename_i hhyper
      exact hhyper
    · cases href
  · cases href

theorem guarded_of_accepted {rowLimit : ℤ} {accepted : Accepted} {select table : Path × Node}
    {ref : String × String} (h : validateTree rt allowed rowLimit tree = .ok accepted)
    (hselect : tree.at? select.1 = some select.2) (hcls : cls select.2 = .select)
    (htable : table ∈ selectFromTables select) (href : hypertableRef rt table = some ref) :
    ∃ predicate, wherePredicate select = some predicate ∧
      allowsUnboundedTime rt tree ref.1 (allSourceAliases rt select) predicate.2 predicate.1 = false := by
  obtain ⟨tables, hchecked⟩ := checked_of_accepted h
  obtain ⟨hat, htableCls⟩ := mem_selectFromTables hselect htable
  have hmem := (mem_findAll_iff tree (· = .select) select.1 select.2).2 ⟨hselect, decide_eq_true hcls⟩
  have htime := hchecked.time (hypertable_used hchecked hat htableCls href) _ hmem
  rw [checkSelectTime, Guard.forEach_eq_ok] at htime
  have hchecked := htime ref (List.mem_filterMap.2 ⟨table, htable, href⟩)
  dsimp only at hchecked
  split at hchecked
  · cases hchecked
  · rename_i predicate hpredicate
    rw [Guard.require_eq_ok] at hchecked
    exact ⟨predicate, hpredicate, hchecked.2⟩

/-- The guard can be relied on where the hypertables are looked at and all leaves are reliable. -/
theorem reliable_of_leaves {Combination : (Node → Option Bool) → Prop}
    (h : ∀ select, tree.at? select.1 = some select.2 → cls select.2 = .select →
      ∀ table ∈ sources select, IsHypertable rt table.2 →
        table ∈ selectFromTables select ∧ ∃ ref, hypertableRef rt table = some ref ∧
          ∀ predicate, wherePredicate select = some predicate →
            ∀ leaf ∈ leaves predicate.2 predicate.1, ReliableLeaf rt Combination tree select table.2 ref.1 leaf) :
    Reliable rt Combination tree := by
  intro select hselect hcls table htable hhyper
  obtain ⟨hseen, ref, href, hleaves⟩ := h select hselect hcls table htable hhyper
  exact ⟨hseen, ref, href, fun predicate hpredicate =>
    verdictRight predicate.2 predicate.1 (hleaves predicate hpredicate)⟩

end Accepted

/-! ### One comparison -/

/-- `hour op '2026-01-01'`. -/
def hourComparison (op : Comparison) : Node :=
  .node { argKey := .this, cls := .comparison op }
    [.node { argKey := .this, cls := .column } [identifier .this "hour"],
      .node { argKey := .expression, cls := .literal true, text := some "2026-01-01" } []]

/-- `SELECT * FROM agent_views.prices_hourly($1) WHERE hour op '2026-01-01'`. -/
def pricesQuery (op : Comparison) : Node :=
  selectStar (viewCall .this "prices_hourly")
    [.node { argKey := .whereClause, cls := .whereClause } [hourComparison op]]

theorem prices_query_select {op : Comparison} {select : Path × Node}
    (hselect : (pricesQuery op).at? select.1 = some select.2) (hcls : cls select.2 = .select) :
    select = ([], pricesQuery op) := by
  have hall : findAll (pricesQuery op) (· = .select) = [([], pricesQuery op)] := rfl
  have hmem := (mem_findAll_iff (pricesQuery op) (· = .select) select.1 select.2).2
    ⟨hselect, decide_eq_true hcls⟩
  rw [hall] at hmem
  exact List.mem_singleton.1 hmem

end FavoniusBackend.Agent.TimeGuard
