import Mathlib.Data.Int.Basic
import Mathlib.Data.String.Basic
import FavoniusBackend.Lib.Guard
import FavoniusBackend.Agent.Syntax

/-!
# The SQL validator

`validate_sql` stands between the SQL that the language model writes and the database: it parses the text,
looks at the tree and either rejects it or returns it with its row limits set.  The checks come one after
another, each of them a walk over the whole tree, and the first one that fails decides the error.

What the validator takes from Python and from `sqlglot` on strings and trees is the record `Runtime`.  The
messages of the errors, which quote the rejected node in SQL, are left out.
-/

namespace FavoniusBackend.Agent.SqlValidator

open Lib Agent.Syntax

/-- `str.lower`, `float` and `int` of a literal's text (`none` for a `ValueError`), and the SQL text of a
node. -/
structure Runtime (F : Type) where
  lower : String → String
  float : String → Option F
  int : String → Option ℤ
  sql : Node → String

variable {F : Type} [LinearOrder F] [Zero F]

/-! ### Allow and deny lists -/

def hypertableFunctions : List String := ["prices_hourly", "building_load_hourly"]

def hypertableTimeColumns : List String := ["hour"]

def forbiddenSchemas : List String :=
  ["public", "pg_catalog", "pg_temp", "pg_toast", "information_schema", "auth", "storage", "vault",
    "supabase_functions", "supabase_migrations"]

/-- `TYPED_FUNC_KEYS`. -/
def typedFuncName (key : String) : String := if key = "currentversion" then "version" else key

def dangerousFunctions : List String :=
  ["pg_read_file", "pg_read_binary_file", "pg_ls_dir", "pg_stat_file", "lo_import", "lo_export", "dblink",
    "dblink_exec", "dblink_connect", "dblink_disconnect", "copy", "current_setting", "set_config",
    "pg_sleep", "pg_sleep_for", "pg_sleep_until", "txid_current", "pg_current_xact_id",
    "pg_terminate_backend", "pg_cancel_backend", "pg_reload_conf", "version", "pg_backend_pid",
    "pg_export_snapshot", "pg_advisory_lock", "pg_advisory_xact_lock"]

def allowedAnonymousFunctions : List String :=
  ["time_bucket", "time_bucket_gapfill", "locf", "interpolate", "first", "last", "jsonb_object_keys",
    "jsonb_each", "jsonb_each_text", "jsonb_array_elements", "jsonb_array_elements_text",
    "generate_series", "greatest", "least", "nullif", "coalesce", "abs", "sign", "mod", "round", "ceil",
    "ceiling", "floor", "trunc", "length", "char_length", "lower", "upper", "initcap", "trim", "btrim",
    "ltrim", "rtrim", "replace", "regexp_replace", "substring", "substr", "left", "right", "concat",
    "concat_ws", "format", "to_char", "to_number", "to_date", "to_timestamp"]

def maxRowLimit : ℤ := 500

inductive ErrorKind
  | emptySql | tooLong | parseError | multiStatement | nonSelect | lockClauseNotAllowed
  | forbiddenSchema | tableNotAllowed | missingArgument | badFunctionArgument | noDataSource
  | badPlaceholder | dangerousFn | functionNotAllowed | missingTimeFilter | offsetNotAllowed
  | nonLiteralLimit
  deriving DecidableEq, Repr

/-! ### Statements -/

def isSetOperation : NodeClass → Bool
  | .union | .intersect | .except => true
  | _ => false

/-- The root is a `SELECT` or a set operation. -/
def checkRoot (tree : Node) : Except ErrorKind Unit :=
  Guard.require (cls tree = .select ∨ isSetOperation (cls tree) = true) .nonSelect

def checkStatement (m : Path × Node) : Except ErrorKind Unit :=
  match cls m.2 with
  | .dml _ => .error .nonSelect
  | .lock => .error .lockClauseNotAllowed
  | _ => .ok ()

/-! ### Sources -/

/-- The argument is the placeholder `$1`. -/
def isPlaceholderOne (n : Node) : Bool :=
  decide (cls n = .parameter) &&
    match arg n .this with
    | some l =>
      match cls l with
      | .literal _ => decide (name l = "1")
      | _ => false
    | none => false

/-- A `Table` node: the function it calls, and where its placeholder stands. -/
def checkTable (rt : Runtime F) (allowed : List String) (m : Path × Node) :
    Except ErrorKind (String × Path) := do
  let db := rt.lower (text m.2 .db)
  let tableName := rt.lower (name m.2)
  Guard.require (db ∉ forbiddenSchemas) .forbiddenSchema
  Guard.require (¬ (tableName ≠ "" ∧ tableName ∈ forbiddenSchemas)) .forbiddenSchema
  Guard.require (db = "agent_views") .tableNotAllowed
  match find m.1 m.2 (· = .anonymous) with
  | none => .error .missingArgument
  | some (q, anon) =>
    let fnName := rt.lower (name anon)
    Guard.require (fnName ∈ allowed) .tableNotAllowed
    match argsAt q anon .expressions with
    | [(r, a)] =>
      Guard.require (isPlaceholderOne a = true) .badFunctionArgument
      .ok (fnName, r)
    | _ => .error .badFunctionArgument

/-- A placeholder stands where a `Table` node has its argument. -/
def checkParameter (placeholders : List Path) (m : Path × Node) : Except ErrorKind Unit :=
  Guard.require (m.1 ∈ placeholders) .badPlaceholder

def checkDot (rt : Runtime F) (m : Path × Node) : Except ErrorKind Unit :=
  match arg m.2 .this with
  | some left =>
    match cls left with
    | .identifier _ => Guard.require (rt.lower (name left) ∉ forbiddenSchemas) .forbiddenSchema
    | _ => .ok ()
  | none => .ok ()

/-- The node is the child of a `Table` node. -/
def inTable (tree : Node) (p : Path) : Bool := (parent tree p).any fun n => decide (cls n = .table)

/-- A call of a function that the parser does not know. -/
def checkAnonymous (rt : Runtime F) (tree : Node) (m : Path × Node) : Except ErrorKind Unit :=
  if inTable tree m.1 then .ok ()
  else do
    let fname := rt.lower (name m.2)
    Guard.require (fname ∉ dangerousFunctions) .dangerousFn
    Guard.require (¬ "pg_".toList <+: fname.toList) .dangerousFn
    Guard.require (fname ∈ allowedAnonymousFunctions) .functionNotAllowed

def checkFunc (rt : Runtime F) (tree : Node) (m : Path × Node) : Except ErrorKind Unit :=
  match cls m.2 with
  | .func key =>
    if inTable tree m.1 then .ok ()
    else Guard.require (typedFuncName (rt.lower key) ∉ dangerousFunctions) .dangerousFn
  | _ => .ok ()

/-! ### The sources of a `SELECT` -/

/-- `_iter_from_join_tables`, of the node at a path. -/
def fromJoinTables : Node → Path → List (Path × Node) :=
  RoseTree.para fun l children p =>
    match l.cls with
    | .subquery | .select => []
    | .table => [(p, .node l (children.map Prod.fst))]
    | _ => children.zipIdx.flatMap fun c => c.1.2 (p ++ [c.2])

/-- `_iter_select_from_tables`. -/
def selectFromTables (m : Path × Node) : List (Path × Node) :=
  (argsAt m.1 m.2 .fromClause ++ argsAt m.1 m.2 .joins).flatMap fun c => fromJoinTables c.2 c.1

/-- The function that the first call below a `Table` node names. -/
def tableFunction (rt : Runtime F) (m : Path × Node) : Option String :=
  (find m.1 m.2 (· = .anonymous)).map fun anon => rt.lower (name anon.2)

/-- `a or b`, of strings. -/
def orElse (a b : String) : String := if a = "" then b else a

/-- `_hypertable_refs_in_select`, one table. -/
def hypertableRef (rt : Runtime F) (m : Path × Node) : Option (String × String) :=
  if rt.lower (text m.2 .db) = "agent_views" then
    (tableFunction rt m).bind fun fname =>
      if fname ∈ hypertableFunctions then some (rt.lower (orElse (aliasName m.2) fname), fname) else none
  else none

/-- `_hypertable_refs_in_select`. -/
def hypertableRefs (rt : Runtime F) (select : Path × Node) : List (String × String) :=
  (selectFromTables select).filterMap (hypertableRef rt)

def allSourceAliases (rt : Runtime F) (select : Path × Node) : List String :=
  (selectFromTables select).map fun m =>
    rt.lower (orElse (aliasName m.2) (orElse ((tableFunction rt m).getD "") (name m.2)))

/-! ### Bounds on the time column -/

/-- `_iter_where_columns`, of the node at a path. -/
def whereColumns : Node → Path → List (Path × Node) :=
  RoseTree.para fun l children p =>
    match l.cls with
    | .subquery | .select | .exists => []
    | _ =>
      (if l.cls = .column then [(p, .node l (children.map Prod.fst))] else []) ++
        children.zipIdx.flatMap fun c => c.1.2 (p ++ [c.2])

/-- `_columns_matching` finds a column. -/
def hasColumn (rt : Runtime F) (n : Node) (column : String) : Bool :=
  (findAll n (· = .column)).any fun c => decide (rt.lower (name c.2) = column)

def truncKeys : List String := ["timestamptrunc", "datetrunc", "datetimetrunc"]

def isColumn (rt : Runtime F) (n : Node) (column : String) : Bool :=
  decide (cls n = .column) && decide (rt.lower (name n) = column)

def sideIsOrderPreserving (rt : Runtime F) (n : Node) (column : String) : Bool :=
  isColumn rt n column ||
    match cls n with
    | .func key => decide (key ∈ truncKeys) && (arg n .this).any fun inner => isColumn rt inner column
    | .anonymous =>
      decide (rt.lower (name n) = "time_bucket") &&
        (args n .expressions).getLast?.any fun last => isColumn rt last column
    | _ => false

/-- The last part of `_is_genuine_bound`. -/
def genuineComparison (rt : Runtime F) (comparison : Node) (column : String) : Bool :=
  match arg comparison .this, arg comparison .expression with
  | some left, some right =>
    let onLeft := hasColumn rt left column
    let onRight := hasColumn rt right column
    if onLeft == onRight then false
    else sideIsOrderPreserving rt (if onLeft then left else right) column
  | _, _ => false

def isGenuineBound (rt : Runtime F) (comparison : Node) (column : String) : Bool :=
  match cls comparison with
  | .between =>
    match arg comparison .this, arg comparison .low, arg comparison .high with
    | some subject, some low, some high =>
      hasColumn rt subject column && !(hasColumn rt low column || hasColumn rt high column)
    | _, _, _ => false
  | .isIn =>
    match arg comparison .this with
    | some subject =>
      let values := args comparison .expressions
      !(values.any fun v => hasColumn rt v column) && (arg comparison .query).isNone &&
        hasColumn rt subject column && !values.isEmpty
    | none => false
  | _ => genuineComparison rt comparison column

def isComparison : NodeClass → Bool
  | .comparison _ | .between | .isIn => true
  | _ => false

/-- The paths of the nodes above a node, the nearest one first. -/
def ancestors (p : Path) : List Path := p.inits.reverse.tail

def ancestorComparison (tree : Node) (p : Path) : Option (Path × Node) :=
  (((ancestors p).filterMap fun q => (tree.at? q).map fun n => (q, n)).takeWhile
    fun m => decide (cls m.2 ≠ .whereClause)).find? fun m => isComparison (cls m.2)

def refersToTarget (rt : Runtime F) (target : String) (aliases : List String) (col : Node) : Bool :=
  let qualifier := rt.lower (text col .table)
  decide (rt.lower (name col) ∈ hypertableTimeColumns) &&
    if qualifier = "" then decide (aliases = [target]) else decide (qualifier = target)

def boundAround (rt : Runtime F) (tree : Node) (target : String) (aliases : List String)
    (col : Path × Node) : Option (Path × Node) :=
  if refersToTarget rt target aliases col.2 then
    (ancestorComparison tree col.1).filter fun c => isGenuineBound rt c.2 (rt.lower (name col.2))
  else none

/-- `_has_bounding_time_predicate_for`, of the predicate at a path. -/
def hasBoundingTimePredicate (rt : Runtime F) (tree : Node) (target : String) (aliases : List String)
    (predicate : Path × Node) : Bool :=
  (whereColumns predicate.2 predicate.1).any fun col =>
    (boundAround rt tree target aliases col).isSome

/-- `_leaf_enforces_hypertable_time_bound`. -/
def leafEnforces (rt : Runtime F) (tree : Node) (target : String) (aliases : List String)
    (leaf : Path × Node) : Bool :=
  (whereColumns leaf.2 leaf.1).any fun col =>
    (boundAround rt tree target aliases col).any fun c => leaf.1.isPrefixOf c.1

/-! ### Predicates that hold without a bound -/

def compareBy {V : Type} [LinearOrder V] (op : Comparison) (l r : V) : Bool :=
  match op with
  | .eq => decide (l = r)
  | .neq => decide (l ≠ r)
  | .gt => decide (r < l)
  | .gte => decide (r ≤ l)
  | .lt => decide (l < r)
  | .lte => decide (l ≤ r)

def isLiteral (n : Node) : Bool :=
  match cls n with
  | .literal _ => true
  | _ => false

def isNumber (n : Node) : Bool := decide (cls n = .literal false)

def literalComparisonHolds (rt : Runtime F) (op : Comparison) (left right : Node) : Bool :=
  if isNumber left && isNumber right then
    match rt.float (name left), rt.float (name right) with
    | some l, some r => compareBy op l r
    | _, _ => false
  else compareBy op (name left) (name right)

def ofArg {R : Type} (children : List (Node × R)) (key : ArgKey) : Option R :=
  (children.find? fun c => c.1.label.argKey = key).map Prod.snd

/-- A column equals itself, and is neither above nor below itself. -/
def sameColumn (rt : Runtime F) (op : Comparison) (left right : Node) : Option Bool :=
  if (op = .eq ∨ op = .gte ∨ op = .lte) ∧ cls left = .column ∧ cls right = .column then
    some (decide (rt.lower (rt.sql left) = rt.lower (rt.sql right)))
  else none

def isUnconditionalTrue (rt : Runtime F) : Node → Bool :=
  RoseTree.para fun l children =>
    let node : Node := .node l (children.map Prod.fst)
    match l.cls with
    | .paren => (ofArg children .this).getD false
    | .boolean value => value
    | .literal false => (rt.float (name node)).any fun x => decide (x ≠ 0)
    | .comparison op =>
      match arg node .this, arg node .expression with
      | some left, some right =>
        (sameColumn rt op left right).getD
          (isLiteral left && isLiteral right && literalComparisonHolds rt op left right)
      | _, _ => false
    | _ => false

def isUnconditionalFalse (rt : Runtime F) : Node → Bool :=
  RoseTree.para fun l children =>
    let node : Node := .node l (children.map Prod.fst)
    match l.cls with
    | .paren => (ofArg children .this).getD false
    | .boolean value => !value
    | .literal false => (rt.float (name node)).any fun x => decide (x = 0)
    | .comparison op =>
      match arg node .this, arg node .expression with
      | some left, some right =>
        isLiteral left && isLiteral right && !literalComparisonHolds rt op left right
      | _, _ => false
    | _ => false

/-- The result for an argument of the node at the path `p`, which depends on its own path. -/
def ofArgAt {R : Type} (children : List (Node × (Path → R))) (p : Path) (key : ArgKey) : Option R :=
  (children.zipIdx.find? fun c => c.1.1.label.argKey = key).map fun c => c.1.2 (p ++ [c.2])

/-- `_predicate_allows_unbounded_time`, of the predicate at a path. -/
def allowsUnboundedTime (rt : Runtime F) (tree : Node) (target : String) (aliases : List String) :
    Node → Path → Bool :=
  RoseTree.para fun l children p =>
    let node : Node := .node l (children.map Prod.fst)
    match l.cls with
    | .paren => (ofArgAt children p .this).getD true
    | .and =>
      match ofArgAt children p .this, ofArgAt children p .expression with
      | some left, some right => left && right
      | _, _ => true
    | .or =>
      match ofArgAt children p .this, ofArgAt children p .expression with
      | some left, some right => left || right
      | _, _ => true
    | .not =>
      match arg node .this with
      | some inner => isUnconditionalFalse rt inner || !isUnconditionalTrue rt inner
      | none => true
    | _ => isUnconditionalTrue rt node || !leafEnforces rt tree target aliases (p, node)

/-- The hypertable functions of one `SELECT`. -/
def checkSelectTime (rt : Runtime F) (tree : Node) (select : Path × Node) : Except ErrorKind Unit :=
  Guard.forEach (fun ref : String × String =>
    let aliases := allSourceAliases rt select
    match (argAt select.1 select.2 .whereClause).bind fun w => argAt w.1 w.2 .this with
    | none => .error .missingTimeFilter
    | some predicate =>
      Guard.require (hasBoundingTimePredicate rt tree ref.1 aliases predicate = true ∧
        allowsUnboundedTime rt tree ref.1 aliases predicate.2 predicate.1 = false) .missingTimeFilter)
    (hypertableRefs rt select)

/-! ### Limits -/

/-- `_is_zero_literal`, of the expression of an `OFFSET`. -/
def isZeroOffset (n : Node) : Bool :=
  (arg n .offset).all fun o => (arg o .expression).any fun e => isNumber e && decide (name e = "0")

def checkOffset (m : Path × Node) : Except ErrorKind Unit :=
  Guard.require (isZeroOffset m.2 = true) .offsetNotAllowed

def numberLiteral (n : ℤ) : Node :=
  .node { argKey := .expression, cls := .literal false, text := some (toString n) } []

/-- `node.set(key, child)`. -/
def setArg (n : Node) (key : ArgKey) (child : Node) : Node :=
  if (arg n key).isSome then
    .node n.label (n.children.map fun c => if c.label.argKey = key then child else c)
  else .node n.label (n.children ++ [child])

/-- `_apply_row_limit_on_node`. -/
def applyRowLimit (rt : Runtime F) (rowLimit : ℤ) (n : Node) : Except ErrorKind Node :=
  match arg n .limit with
  | none =>
    .ok (setArg n .limit (.node { argKey := .limit, cls := .limit } [numberLiteral rowLimit]))
  | some limit =>
    match arg limit .expression with
    | some e =>
      if isNumber e then
        let userN := (rt.int (name e)).getD rowLimit
        if rowLimit < userN ∨ userN < 1 then
          .ok (setArg n .limit (setArg limit .expression (numberLiteral rowLimit)))
        else .ok n
      else .error .nonLiteralLimit
    | none => .error .nonLiteralLimit

/-- The branches of `_iter_top_level_branches`, each with its limit set. -/
def capBranches (rt : Runtime F) (rowLimit : ℤ) : Node → Except ErrorKind Node :=
  RoseTree.para fun l children =>
    let node : Node := .node l (children.map Prod.fst)
    if isSetOperation l.cls then do
      let capped ← Guard.collect (fun c : Node × Except ErrorKind Node =>
        if c.1.label.argKey = .this ∨ c.1.label.argKey = .expression then c.2 else .ok c.1) children
      .ok (.node l capped)
    else if l.cls = .select then applyRowLimit rt rowLimit node
    else .ok node

/-! ### The validator -/

structure Accepted where
  tree : Node
  functionsUsed : List String

/-- The checks of `validate_sql` on the parsed statement. -/
def checkTree (rt : Runtime F) (allowed : List String) (tree : Node) : Except ErrorKind (List String) := do
  checkRoot tree
  Guard.forEach checkStatement tree.walk
  let tables ← Guard.collect (checkTable rt allowed) (findAll tree (· = .table))
  let functionsUsed := (tables.map Prod.fst).eraseDups
  Guard.require (functionsUsed ≠ []) .noDataSource
  Guard.forEach (checkParameter (tables.map Prod.snd)) (findAll tree (· = .parameter))
  Guard.forEach (checkDot rt) (findAll tree (· = .dot))
  Guard.forEach (checkAnonymous rt tree) (findAll tree (· = .anonymous))
  Guard.forEach (checkFunc rt tree) tree.walk
  if functionsUsed.any (fun fn => decide (fn ∈ hypertableFunctions)) then
    Guard.forEach (checkSelectTime rt tree) (findAll tree (· = .select))
  Guard.forEach checkOffset (findAll tree (· = .select))
  if cls tree ≠ .select then checkOffset ([], tree)
  .ok functionsUsed

/-- The row limits of `validate_sql`. -/
def limitRows (rt : Runtime F) (rowLimit : ℤ) (tree : Node) : Except ErrorKind Node := do
  let capped ← capBranches rt rowLimit tree
  if cls tree = .select then .ok capped else applyRowLimit rt rowLimit capped

/-- `validate_sql`, of a statement. -/
def validateTree (rt : Runtime F) (allowed : List String) (rowLimit : ℤ) (tree : Node) :
    Except ErrorKind Accepted := do
  let functionsUsed ← checkTree rt allowed tree
  let limited ← limitRows rt (min (max 1 rowLimit) maxRowLimit) tree
  .ok { tree := limited, functionsUsed := functionsUsed }

/-- The characters that `str.strip` removes. -/
def isSpace (c : Char) : Bool :=
  decide (c.toNat ∈ [133, 160, 5760, 8232, 8233, 8239, 8287, 12288] ∨ 9 ≤ c.toNat ∧ c.toNat ≤ 13 ∨
    28 ≤ c.toNat ∧ c.toNat ≤ 32 ∨ 8192 ≤ c.toNat ∧ c.toNat ≤ 8202)

/-- `validate_sql`; `parse` is `sqlglot.parse`, `none` where it raises. -/
def validateSql (rt : Runtime F) (parse : String → Option (List (Option Node))) (sql : String)
    (allowed : List String) (rowLimit : ℤ) : Except ErrorKind Accepted := do
  Guard.require (¬ sql.toList.all isSpace = true) .emptySql
  Guard.require (sql.length ≤ 8000) .tooLong
  match parse sql with
  | none => .error .parseError
  | some trees =>
    match trees.filterMap id with
    | [] => .error .emptySql
    | [tree] => validateTree rt allowed rowLimit tree
    | _ => .error .multiStatement

/-! ### What acceptance means -/

/-- The `Table` nodes have shown their calls, every placeholder belongs to one of them, and with a
hypertable function among them every `SELECT` has passed the time guard. -/
structure Checked (rt : Runtime F) (allowed : List String) (tree : Node) (tables : List (String × Path)) :
    Prop where
  shown : Guard.collect (checkTable rt allowed) (findAll tree (· = .table)) = .ok tables
  parameters : ∀ m ∈ findAll tree (· = .parameter), m.1 ∈ tables.map Prod.snd
  time : (∃ fn ∈ tables.map Prod.fst, fn ∈ hypertableFunctions) →
    ∀ m ∈ findAll tree (· = .select), checkSelectTime rt tree m = .ok ()

theorem checked_of_accepted {rt : Runtime F} {allowed : List String} {rowLimit : ℤ} {tree : Node}
    {accepted : Accepted} (h : validateTree rt allowed rowLimit tree = .ok accepted) :
    ∃ tables, Checked rt allowed tree tables := by
  rw [validateTree, Guard.bind_eq_ok] at h
  obtain ⟨functionsUsed, hcheck, _⟩ := h
  rw [checkTree, Guard.seq_eq_ok, Guard.seq_eq_ok, Guard.bind_eq_ok] at hcheck
  obtain ⟨_, _, tables, htables, hcheck⟩ := hcheck
  dsimp only at hcheck
  rw [Guard.seq_eq_ok, Guard.seq_eq_ok, Guard.seq_eq_ok, Guard.seq_eq_ok, Guard.seq_eq_ok,
    Guard.forEach_eq_ok] at hcheck
  obtain ⟨_, hparameters, _, _, _, hrest⟩ := hcheck
  refine ⟨tables, htables, ?_, ?_⟩
  · intro m hm
    have hplaceholder := hparameters m hm
    rwa [checkParameter, Guard.require_eq_ok] at hplaceholder
  · intro ⟨fn, hfn, hhyper⟩
    have hany : (tables.map Prod.fst).eraseDups.any (fun fn => decide (fn ∈ hypertableFunctions)) = true :=
      List.any_eq_true.2 ⟨fn, List.mem_eraseDups.2 hfn, decide_eq_true hhyper⟩
    rw [if_pos hany, Guard.seq_eq_ok, Guard.forEach_eq_ok] at hrest
    exact hrest.1

end FavoniusBackend.Agent.SqlValidator
