import FavoniusBackend.Lib.RoseTree

/-!
# SQL syntax trees

The SQL agent's queries are parsed by `sqlglot`, whose trees are uniform: a node has a class and named
arguments, an argument is a string, a node or a list of nodes.  The model keeps the string of `this` in the
label of the node, and in the label of every child the name of the argument it belongs to (`arg_key`); the
children stand in the order of the arguments, the elements of a list one after another.

The classes are those the validator distinguishes, and lateral sources.  Everything else, common table expressions,
samples, `CASE`, arithmetic, is `other`.
-/

namespace FavoniusBackend.Agent.Syntax

open Lib

/-- The arguments the validator reads. -/
inductive ArgKey
  | this | expression | expressions | db | catalog | tableAlias | joins | sample | fromClause
  | whereClause | limit | offset | low | high | query | table
  | other (name : String)
  deriving DecidableEq, Repr

inductive Comparison
  | eq | neq | gt | gte | lt | lte
  deriving DecidableEq, Repr

/-- The classes of nodes.  `func` is a function that the parser knows, `anonymous` a call of any other one,
`dml` a statement that writes or a command. -/
inductive NodeClass
  | select | union | intersect | except | subquery
  | table | tableAlias | join | lateral | fromClause | whereClause | limit | offset | lock
  | identifier (quoted : Bool) | var | literal (isString : Bool) | boolean (value : Bool) | star | null
  | parameter | column | dot | anonymous
  | func (key : String)
  | paren | and | or | not
  | comparison (op : Comparison)
  | between | isIn | exists
  | dml (name : String)
  | other (name : String)
  deriving DecidableEq, Repr

structure Label where
  argKey : ArgKey
  cls : NodeClass
  /-- The argument `this`, where it is a string. -/
  text : Option String := none
  deriving DecidableEq, Repr

abbrev Node := RoseTree Label

abbrev Path := List ℕ

/-! ### Reading a node -/

def cls (n : Node) : NodeClass := n.label.cls

/-- `node.args.get(key)`, for an argument that is a node. -/
def arg (n : Node) (key : ArgKey) : Option Node := n.children.find? fun c => c.label.argKey = key

/-- `node.args.get(key) or []`, for an argument that is a list. -/
def args (n : Node) (key : ArgKey) : List Node := n.children.filter fun c => c.label.argKey = key

/-- The string that an argument of the classes `Identifier`, `Literal`, `Var`, `Star` or `Null` stands for. -/
def atomText (n : Node) : String :=
  match cls n with
  | .identifier _ | .literal _ | .var => n.label.text.getD ""
  | .star => "*"
  | .null => "NULL"
  | _ => ""

def text (n : Node) (key : ArgKey) : String :=
  match key, n.label.text with
  | .this, some s => s
  | _, _ => ((arg n key).map atomText).getD ""

def name (n : Node) : String := text n .this

/-- `node.alias`. -/
def aliasName (n : Node) : String :=
  match arg n .tableAlias with
  | some a => if cls a = .tableAlias then name a else atomText a
  | none => ""

def find (p : Path) (n : Node) (wanted : NodeClass → Bool) : Option (Path × Node) :=
  (RoseTree.walkFrom p n).find? fun m => wanted (cls m.2)

def findAll (tree : Node) (wanted : NodeClass → Bool) : List (Path × Node) :=
  tree.walk.filter fun m => wanted (cls m.2)

def parent (tree : Node) (p : Path) : Option Node := if p = [] then none else tree.at? p.dropLast

/-- `node.args.get(key)` of the node at the path `p`, with its own path. -/
def argAt (p : Path) (n : Node) (key : ArgKey) : Option (Path × Node) :=
  (n.children.zipIdx.find? fun c => c.1.label.argKey = key).map fun c => (p ++ [c.2], c.1)

/-- `node.args.get(key) or []` of the node at the path `p`, with their own paths. -/
def argsAt (p : Path) (n : Node) (key : ArgKey) : List (Path × Node) :=
  (n.children.zipIdx.filter fun c => c.1.label.argKey = key).map fun c => (p ++ [c.2], c.1)

theorem mem_findAll_iff (tree : Node) (wanted : NodeClass → Bool) (p : Path) (n : Node) :
    (p, n) ∈ findAll tree wanted ↔ tree.at? p = some n ∧ wanted (cls n) = true := by
  rw [findAll, List.mem_filter, RoseTree.mem_walk_iff]

/-! ### Building trees -/

def identifier (key : ArgKey) (s : String) : Node :=
  .node { argKey := key, cls := .identifier false, text := some s } []

/-- The placeholder `$1`, as an argument of a call. -/
def dollarOne : Node :=
  .node { argKey := .expressions, cls := .parameter }
    [.node { argKey := .this, cls := .literal false, text := some "1" } []]

/-- The `Table` node of `agent_views.fn($1)`. -/
def viewCall (key : ArgKey) (fn : String) : Node :=
  .node { argKey := key, cls := .table }
    [.node { argKey := .this, cls := .anonymous, text := some fn } [dollarOne],
      identifier .db "agent_views"]

/-- `SELECT * FROM source`, with further clauses. -/
def selectStar (source : Node) (clauses : List Node) : Node :=
  .node { argKey := .this, cls := .select }
    (.node { argKey := .expressions, cls := .star } [] ::
      .node { argKey := .fromClause, cls := .fromClause } [source] :: clauses)

end FavoniusBackend.Agent.Syntax
