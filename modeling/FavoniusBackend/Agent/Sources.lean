import FavoniusBackend.Agent.SqlValidator
import Mathlib.Algebra.Order.Ring.Int

/-!
# What an accepted query reads

The relations of a query are its `Table` nodes, wherever they stand, and whatever else `FROM`, `JOIN` and
`LATERAL` hold.  The validator wants each `Table` node to be a call `agent_views.f($1)`, which reads the rows of
the depots the caller may see.  It looks for the call with `node.find(exp.Anonymous)`, the first call anywhere
below the `Table` node.  A parenthesised join is a `Table` node that carries the joined tables as its own joins,
so a plain relation passes with the call of the table it is joined to; a quoted name passes under the name it has
in lower case; and `LATERAL private.locf(1)` is no `Table` node and is not looked at.

`readsOnlyVisible_iff_ownCalls` says that nothing else goes wrong: for an accepted tree, the relations are
the allowed calls, and its result depends on the visible rows alone, if and only if every `Table` node has
a call of its own, in lower case, and there are no other sources than `Table` nodes and queries.
-/

namespace FavoniusBackend.Agent.Sources

open Lib Agent.Syntax Agent.SqlValidator

variable {F : Type}

/-! ### The relations of a query -/

/-- The name an identifier denotes: a quoted one is taken as it is written. -/
def denoted (rt : Runtime F) (n : Node) : String :=
  match cls n with
  | .identifier true => atomText n
  | _ => rt.lower (atomText n)

def denotedArg (rt : Runtime F) (n : Node) (key : ArgKey) : String :=
  match key, n.label.text with
  | .this, some s => rt.lower s
  | _, _ => ((arg n key).map (denoted rt)).getD (rt.lower "")

/-- What a `Table` node reads: a relation, or the result of a call. -/
structure Reference where
  schema : String
  name : String
  arguments : Option (List Node)

def referenceOf (rt : Runtime F) (table : Node) : Reference :=
  let schema := denotedArg rt table .db
  match arg table .this with
  | none => { schema := schema, name := "", arguments := none }
  | some f =>
    match cls f with
    | .anonymous =>
      { schema := schema, name := denotedArg rt f .this, arguments := some (args f .expressions) }
    | .func key => { schema := schema, name := key, arguments := some f.children }
    | _ => { schema := schema, name := denoted rt f, arguments := none }

/-- The nodes that hold a source as their `this`. -/
def holdsSource : NodeClass → Bool
  | .fromClause | .join | .subquery | .lateral => true
  | _ => false

/-- A table, or a query or something in parentheses, whose own sources count. -/
def isPlainSource (c : NodeClass) : Bool :=
  decide (c = .table ∨ c = .select) || isSetOperation c || holdsSource c

/-- Sources are `Table` nodes and queries.  A lateral call `agent_views.f($1)` would be as good, but its placeholder
stands in no `Table` node, and the validator rejects it. -/
def PlainSources (tree : Node) : Prop :=
  ∀ p n, tree.at? p = some n → holdsSource (cls n) = true → ∀ source, arg n .this = some source →
    isPlainSource (cls source) = true

def lateralReference (rt : Runtime F) (source : Node) : Reference :=
  let f := if cls source = .dot then (arg source .expression).getD source else source
  { schema := if cls source = .dot then denotedArg rt source .this else ""
    name := match cls f with
      | .func key => key
      | _ => denotedArg rt f .this
    arguments := match cls f with
      | .anonymous => some (args f .expressions)
      | .func _ => some f.children
      | _ => none }

/-- A call of an allowed function of `agent_views` with the one argument `$1`. -/
def Reference.Admitted (allowed : List String) (r : Reference) : Prop :=
  r.schema = "agent_views" ∧ r.name ∈ allowed ∧
    ∃ a, r.arguments = some [a] ∧ isPlaceholderOne a = true

/-- The path is that of an argument of the call that a `Table` node has for its own. -/
def ArgumentOfCall (tree : Node) (p : Path) : Prop :=
  ∃ t table q f, tree.at? t = some table ∧ cls table = .table ∧ argAt t table .this = some (q, f) ∧
    cls f = .anonymous ∧ p ∈ (argsAt q f .expressions).map Prod.fst

/-- Every relation read anywhere is an admitted call, and `$1` stands nowhere else. -/
def ReadsOnlyViews (rt : Runtime F) (allowed : List String) (tree : Node) : Prop :=
  (∀ p n, tree.at? p = some n → cls n = .table → (referenceOf rt n).Admitted allowed) ∧ PlainSources tree ∧
    ∀ p n, tree.at? p = some n → cls n = .parameter → ArgumentOfCall tree p

/-! ### The result of a query -/

/-- The rows behind the functions of `agent_views`, each with its depot, and whatever any other reference
reads. -/
structure Database (Depot Row : Type) where
  views : String → List (Depot × Row)
  others : Reference → List Row

section Meaning

variable {Depot Row Result : Type} [DecidableEq Depot]

/-- The rows of a function of `agent_views` that the visible depots admit. -/
def visibleRows (db : Database Depot Row) (visible : List Depot) (fn : String) : List Row :=
  ((db.views fn).filter fun row => decide (row.1 ∈ visible)).map Prod.snd

/-- The reference is a call `agent_views.f($1)`. -/
def Reference.isViewCall (r : Reference) : Bool :=
  decide (r.schema = "agent_views") &&
    match r.arguments with
    | some [a] => isPlaceholderOne a
    | _ => false

def rowsRead (db : Database Depot Row) (visible : List Depot) (r : Reference) : List Row :=
  if r.isViewCall then visibleRows db visible r.name else db.others r

/-- The rows that a node reads itself: a `Table` node, or the call of a lateral source. -/
def rowsAt (rt : Runtime F) (db : Database Depot Row) (visible : List Depot) (n : Node) : Option (List Row) :=
  match cls n with
  | .table => some (rowsRead db visible (referenceOf rt n))
  | .lateral =>
    match arg n .this with
    | some source =>
      if isPlainSource (cls source) then none else some (rowsRead db visible (lateralReference rt source))
    | none => none
  | _ => none

/-- The result of a query, for any meaning of the constructs: what a node gives is made of its label, the
results of its parts and the rows that it reads itself. -/
def result (rt : Runtime F) (meaning : Label → Option (List Row) → List Result → Result)
    (db : Database Depot Row) (visible : List Depot) : Node → Result :=
  RoseTree.para fun l children =>
    meaning l (rowsAt rt db visible (.node l (children.map Prod.fst))) (children.map Prod.snd)

end Meaning

/-- Databases with the same visible rows give the same result. -/
def DependsOnVisibleRows (rt : Runtime F) (allowed : List String) (tree : Node) : Prop :=
  ∀ (Depot Row Result : Type) (_ : DecidableEq Depot)
    (meaning : Label → Option (List Row) → List Result → Result) (visible : List Depot)
    (db db' : Database Depot Row),
    (∀ fn ∈ allowed, visibleRows db visible fn = visibleRows db' visible fn) →
      result rt meaning db visible tree = result rt meaning db' visible tree

/-- **Admitted calls leak nothing**: what is not visible cannot change the result. -/
theorem dependsOnVisibleRows_of_reads {rt : Runtime F} {allowed : List String} {tree : Node}
    (h : ∀ p n, tree.at? p = some n → cls n = .table → (referenceOf rt n).Admitted allowed)
    (hplain : PlainSources tree) : DependsOnVisibleRows rt allowed tree := by
  intro Depot Row Result _ meaning visible db db' hsame
  refine RoseTree.para_congr ?_
  intro p n hn rs hrs
  have hnode : RoseTree.node n.label (rs.map Prod.fst) = n := by
    rw [hrs]
    cases n
    rfl
  rw [hnode]
  have hrows : rowsAt rt db visible n = rowsAt rt db' visible n := by
    unfold rowsAt
    split
    · rename_i htable
      obtain ⟨hschema, hname, a, harguments, ha⟩ := h p n hn htable
      have hcall : (referenceOf rt n).isViewCall = true := by
        simp [Reference.isViewCall, hschema, harguments, ha]
      rw [rowsRead, rowsRead, if_pos hcall, if_pos hcall, hsame _ hname]
    · rename_i hlateral
      split
      · rename_i source hsource
        have hsources := hplain p n hn (by rw [hlateral]; rfl) source hsource
        rw [if_pos hsources, if_pos hsources]
      · rfl
    · rfl
  rw [hrows]

/-! ### The condition -/

/-- The `Table` node is itself a call, and its names, where they are quoted, are the right ones as they are
written. -/
def OwnCall (allowed : List String) (table : Node) : Prop :=
  (∀ d, arg table .db = some d → cls d = .identifier true → atomText d = "agent_views") ∧
    ∃ f, arg table .this = some f ∧ cls f = .anonymous ∧
      (f.label.text = none → ∀ d, arg f .this = some d → cls d = .identifier true →
        atomText d ∈ allowed)

def OwnCalls (allowed : List String) (tree : Node) : Prop :=
  ∀ p n, tree.at? p = some n → cls n = .table → OwnCall allowed n

/-- The shape of the parser's `Table` nodes: `this` is their first argument. -/
def Shaped (tree : Node) : Prop :=
  ∀ p n, tree.at? p = some n → cls n = .table → ∃ f rest, n.children = f :: rest ∧ f.label.argKey = .this

/-! ### What the checks have seen -/

theorem denotedArg_of_text {rt : Runtime F} {n : Node} {s : String} (h : n.label.text = some s) :
    denotedArg rt n .this = rt.lower (name n) := by
  simp [denotedArg, name, text, h]

theorem denotedArg_eq_lower {rt : Runtime F} {n : Node} {key : ArgKey} {d : Node}
    (htext : key = .this → n.label.text = none) (hd : arg n key = some d)
    (hquoted : cls d ≠ .identifier true) : denotedArg rt n key = rt.lower (text n key) := by
  have hdenoted : denoted rt d = rt.lower (atomText d) := by
    unfold denoted
    split
    · rename_i h
      exact absurd h hquoted
    · rfl
  cases key with
  | this => simp [denotedArg, text, htext rfl, hd, hdenoted]
  | _ => simp [denotedArg, text, hd, hdenoted]

theorem denotedArg_quoted {rt : Runtime F} {n : Node} {key : ArgKey} {d : Node}
    (htext : key = .this → n.label.text = none) (hd : arg n key = some d)
    (hquoted : cls d = .identifier true) : denotedArg rt n key = atomText d := by
  have hdenoted : denoted rt d = atomText d := by
    unfold denoted
    rw [hquoted]
  cases key with
  | this => simp [denotedArg, htext rfl, hd, hdenoted]
  | _ => simp [denotedArg, hd, hdenoted]

theorem args_eq_map_argsAt (p : Path) (n : Node) (key : ArgKey) :
    args n key = (argsAt p n key).map Prod.snd := by
  rw [args, argsAt, List.map_map]
  conv_lhs => rw [← List.zipIdx_map_fst 0 n.children]
  rw [List.filter_map, ← List.map_map]
  simp [Function.comp_def]

theorem mem_argsAt {p r : Path} {n a : Node} {key : ArgKey} (h : (r, a) ∈ argsAt p n key) :
    ∃ i, r = p ++ [i] ∧ n.children[i]? = some a := by
  rw [argsAt, List.mem_map] at h
  obtain ⟨⟨c, i⟩, hc, heq⟩ := h
  cases heq
  exact ⟨i, rfl, List.mem_zipIdx_iff_getElem?.1 (List.mem_of_mem_filter hc)⟩

theorem arg_of_first {n f : Node} {rest : List Node} (h : n.children = f :: rest)
    (hkey : f.label.argKey = .this) : arg n .this = some f := by
  rw [arg, h, List.find?_cons_of_pos]
  exact decide_eq_true hkey

theorem argAt_of_first {p : Path} {n f : Node} {rest : List Node} (h : n.children = f :: rest)
    (hkey : f.label.argKey = .this) : argAt p n .this = some (p ++ [0], f) := by
  rw [argAt, h, List.zipIdx_cons, List.find?_cons_of_pos]
  · rfl
  · exact decide_eq_true hkey

theorem find_of_first {p : Path} {n f : Node} {rest : List Node} (h : n.children = f :: rest)
    (hn : cls n ≠ .anonymous) (hf : cls f = .anonymous) :
    find p n (· = .anonymous) = some (p ++ [0], f) := by
  have hdepth : ∃ d, n.depth = d + 2 := by
    have hchild : f.depth + 1 ≤ n.depth := RoseTree.depth_child (by rw [h]; exact List.mem_cons_self)
    have hpos : 0 < f.depth := RoseTree.length_lt_depth (rfl : f.at? [] = some f)
    exact ⟨n.depth - 2, by omega⟩
  obtain ⟨d, hd⟩ := hdepth
  have hrange : List.range (d + 2) = 0 :: 1 :: (List.range d).map (· + 2) := by
    rw [List.range_succ_eq_map, List.range_succ_eq_map]
    simp [Function.comp_def]
  rw [find, RoseTree.walkFrom, hd, hrange, List.flatMap_cons, List.flatMap_cons]
  have hzero : RoseTree.level 0 p n = [(p, n)] := rfl
  have hone : ∃ others, RoseTree.level 1 p n = (p ++ [0], f) :: others := by
    refine ⟨(rest.zipIdx 1).flatMap fun c => RoseTree.level 0 (p ++ [c.2]) c.1, ?_⟩
    rw [RoseTree.level, h, List.zipIdx_cons, List.flatMap_cons]
    rfl
  obtain ⟨others, hothers⟩ := hone
  rw [hzero, hothers, List.cons_append, List.find?_cons_of_neg, List.nil_append, List.cons_append,
    List.find?_cons_of_pos]
  · simpa using hf
  · simpa using hn

/-- What a `Table` node has shown. -/
structure Seen (rt : Runtime F) (allowed : List String) (p : Path) (n : Node) (fn : String) (r : Path) :
    Prop where
  schema : rt.lower (text n .db) = "agent_views"
  call : ∃ q anon a, find p n (· = .anonymous) = some (q, anon) ∧ rt.lower (name anon) = fn ∧
    fn ∈ allowed ∧ argsAt q anon .expressions = [(r, a)] ∧ isPlaceholderOne a = true

theorem seen_of_checkTable {rt : Runtime F} {allowed : List String} {p r : Path} {n : Node} {fn : String}
    (h : checkTable rt allowed (p, n) = .ok (fn, r)) : Seen rt allowed p n fn r := by
  simp only [checkTable] at h
  rw [Guard.seq_eq_ok, Guard.seq_eq_ok, Guard.seq_eq_ok] at h
  obtain ⟨_, _, hschema, h⟩ := h
  rw [Guard.require_eq_ok] at hschema
  refine ⟨hschema, ?_⟩
  cases hfind : find p n (· = .anonymous) with
  | none =>
    rw [hfind] at h
    cases h
  | some found =>
    obtain ⟨q, anon⟩ := found
    rw [hfind] at h
    dsimp only at h
    rw [Guard.seq_eq_ok, Guard.require_eq_ok] at h
    obtain ⟨hallowed, h⟩ := h
    split at h
    · rename_i r' a hargs
      rw [Guard.seq_eq_ok, Guard.require_eq_ok] at h
      obtain ⟨hplaceholder, h⟩ := h
      cases h
      exact ⟨q, anon, a, rfl, rfl, hallowed, hargs, hplaceholder⟩
    · cases h

section Accepted

variable {rt : Runtime F} {allowed : List String} {tree : Node}

theorem seen_of_accepted [LinearOrder F] [Zero F] {rowLimit : ℤ} {accepted : Accepted}
    (h : validateTree rt allowed rowLimit tree = .ok accepted) :
    (∀ p n, tree.at? p = some n → cls n = .table → ∃ fn r, Seen rt allowed p n fn r) ∧
      ∀ p n, tree.at? p = some n → cls n = .parameter →
        ∃ t table fn, tree.at? t = some table ∧ cls table = .table ∧ Seen rt allowed t table fn p := by
  obtain ⟨tables, hchecked⟩ := checked_of_accepted h
  constructor
  · intro p n hn htable
    have hmem := (mem_findAll_iff tree (· = .table) p n).2 ⟨hn, decide_eq_true htable⟩
    obtain ⟨⟨fn, r⟩, _, hok⟩ := Guard.ok_of_collect hchecked.shown _ hmem
    exact ⟨fn, r, seen_of_checkTable hok⟩
  · intro p n hn hparameter
    have hmem := (mem_findAll_iff tree (· = .parameter) p n).2 ⟨hn, decide_eq_true hparameter⟩
    obtain ⟨⟨fn, r⟩, hr, heq⟩ := List.mem_map.1 (hchecked.parameters _ hmem)
    obtain ⟨⟨t, table⟩, ht, hok⟩ := Guard.mem_of_collect hchecked.shown _ hr
    obtain ⟨htable, hcls⟩ := (mem_findAll_iff tree (· = .table) t table).1 ht
    refine ⟨t, table, fn, htable, of_decide_eq_true hcls, ?_⟩
    obtain rfl : r = p := heq
    exact seen_of_checkTable hok

theorem found_at {p q : Path} {n anon : Node} (hn : tree.at? p = some n)
    (h : find p n (· = .anonymous) = some (q, anon)) :
    tree.at? q = some anon ∧ cls anon = .anonymous := by
  have hmem := List.mem_of_find?_eq_some h
  obtain ⟨r, rfl, hr⟩ := (RoseTree.mem_walkFrom_iff _ _ _ _).1 hmem
  refine ⟨?_, ?_⟩
  · rw [RoseTree.at?_append, hn]
    exact hr
  · simpa using List.find?_some h

theorem Seen.own {p r : Path} {n f : Node} {rest : List Node} {fn : String}
    (h : Seen rt allowed p n fn r) (htable : cls n = .table) (hchildren : n.children = f :: rest)
    (hf : cls f = .anonymous) :
    rt.lower (name f) ∈ allowed ∧
      ∃ a, argsAt (p ++ [0]) f .expressions = [(r, a)] ∧ isPlaceholderOne a = true := by
  obtain ⟨q, anon, a, hfind, hname, hallowed, hargs, ha⟩ := h.call
  have hn : cls n ≠ .anonymous := by
    rw [htable]
    simp
  rw [find_of_first hchildren hn hf] at hfind
  cases hfind
  refine ⟨?_, a, hargs, ha⟩
  rw [hname]
  exact hallowed

theorem denotedArg_db {n : Node} (hseen : rt.lower (text n .db) = "agent_views")
    (hquoted : ∀ d, arg n .db = some d → cls d = .identifier true → atomText d = "agent_views") :
    denotedArg rt n .db = "agent_views" := by
  cases hd : arg n .db with
  | none => simpa [denotedArg, text, hd] using hseen
  | some d =>
    by_cases hq : cls d = .identifier true
    · rw [denotedArg_quoted (fun h => by cases h) hd hq]
      exact hquoted d hd hq
    · rw [denotedArg_eq_lower (fun h => by cases h) hd hq]
      exact hseen

theorem denotedArg_call {f : Node} (hseen : rt.lower (name f) ∈ allowed)
    (hquoted : f.label.text = none → ∀ d, arg f .this = some d → cls d = .identifier true →
      atomText d ∈ allowed) :
    denotedArg rt f .this ∈ allowed := by
  cases htext : f.label.text with
  | some s =>
    rw [denotedArg_of_text htext]
    exact hseen
  | none =>
    cases hd : arg f .this with
    | none => simpa [denotedArg, name, text, htext, hd] using hseen
    | some d =>
      by_cases hq : cls d = .identifier true
      · rw [denotedArg_quoted (fun _ => htext) hd hq]
        exact hquoted htext d hd hq
      · rw [denotedArg_eq_lower (fun _ => htext) hd hq]
        exact hseen

theorem no_placeholder_of_func {p : Path} {f a : Node} {key : String} {rest : List Node}
    (hparameters : ∀ p n, tree.at? p = some n → cls n = .parameter →
      ∃ t table fn, tree.at? t = some table ∧ cls table = .table ∧ Seen rt allowed t table fn p)
    (hf : tree.at? p = some f) (hkey : cls f = .func key) (hchildren : f.children = a :: rest)
    (ha : cls a = .parameter) : False := by
  have hat : tree.at? (p ++ [0]) = some a := by
    rw [RoseTree.at?_append, hf]
    simp [RoseTree.at?, hchildren]
  obtain ⟨t, table, fn, htable, _, hseen⟩ := hparameters _ a hat ha
  obtain ⟨q, anon, a', hfind, _, _, hargs, _⟩ := hseen.call
  obtain ⟨hanon, hcls⟩ := found_at htable hfind
  have hmem : (p ++ [0], a') ∈ argsAt q anon .expressions := by
    rw [hargs]
    exact List.mem_singleton_self _
  obtain ⟨i, hpath, _⟩ := mem_argsAt hmem
  obtain rfl : p = q := (List.append_inj' hpath rfl).1
  rw [hf] at hanon
  cases hanon
  rw [hkey] at hcls
  cases hcls

theorem anonymous_of_admitted
    (hparameters : ∀ p n, tree.at? p = some n → cls n = .parameter →
      ∃ t table fn, tree.at? t = some table ∧ cls table = .table ∧ Seen rt allowed t table fn p)
    {p : Path} {n f : Node} {rest : List Node} (hn : tree.at? p = some n) (hchildren : n.children = f :: rest)
    (hkey : f.label.argKey = .this) (h : (referenceOf rt n).Admitted allowed) : cls f = .anonymous := by
  obtain ⟨-, -, a, harguments, ha⟩ := h
  have hfat : tree.at? (p ++ [0]) = some f := by
    rw [RoseTree.at?_append, hn]
    simp [RoseTree.at?, hchildren]
  simp only [referenceOf, arg_of_first hchildren hkey] at harguments
  split at harguments
  · rename_i hcls
    exact hcls
  · rename_i key hcls
    have hparameter : cls a = .parameter := by
      simp only [isPlaceholderOne, Bool.and_eq_true, decide_eq_true_eq] at ha
      exact ha.1
    exact (no_placeholder_of_func hparameters hfat hcls (Option.some.inj harguments) hparameter).elim
  · cases harguments

theorem ownCall_of_admitted {n f : Node} (harg : arg n .this = some f) (hf : cls f = .anonymous)
    (h : (referenceOf rt n).Admitted allowed) : OwnCall allowed n := by
  obtain ⟨hschema, hname, -⟩ := h
  simp only [referenceOf, harg, hf] at hschema hname
  refine ⟨?_, f, harg, hf, ?_⟩
  · intro d hd hq
    have hquoted : denotedArg rt n .db = atomText d := denotedArg_quoted (fun h => by cases h) hd hq
    rw [← hquoted]
    exact hschema
  · intro htext d hd hq
    have hquoted : denotedArg rt f .this = atomText d := denotedArg_quoted (fun _ => htext) hd hq
    rw [← hquoted]
    exact hname

theorem admitted_of_ownCall {p r : Path} {n f : Node} {rest : List Node} {fn : String} (htable : cls n = .table)
    (hchildren : n.children = f :: rest) (hkey : f.label.argKey = .this) (hseen : Seen rt allowed p n fn r)
    (h : OwnCall allowed n) : (referenceOf rt n).Admitted allowed := by
  obtain ⟨hdb, f', harg, hf, hfn⟩ := h
  obtain rfl : f = f' := Option.some.inj ((arg_of_first hchildren hkey).symm.trans harg)
  obtain ⟨hallowed, a, hargs, ha⟩ := hseen.own htable hchildren hf
  have hargs' : args f .expressions = [a] := by
    rw [args_eq_map_argsAt (p ++ [0]) f, hargs]
    rfl
  simp only [Reference.Admitted, referenceOf, harg, hf]
  exact ⟨denotedArg_db hseen.schema hdb, denotedArg_call hallowed hfn, a, by rw [hargs'], ha⟩

/-- **What an accepted query reads.**  The relations it reads are calls `agent_views.f($1)` of allowed
functions, `$1` stands nowhere else, and its result depends on the visible rows alone, if and only if every
`Table` node has a call of its own under names that are right as they are written, and every other source is a
query. -/
theorem readsOnlyVisible_iff_ownCalls [LinearOrder F] [Zero F] {rowLimit : ℤ} {accepted : Accepted}
    (h : validateTree rt allowed rowLimit tree = .ok accepted) (hshape : Shaped tree) :
    ReadsOnlyViews rt allowed tree ∧ DependsOnVisibleRows rt allowed tree ↔
      OwnCalls allowed tree ∧ PlainSources tree := by
  obtain ⟨htables, hparameters⟩ := seen_of_accepted h
  constructor
  · intro hreads
    have hadmitted := hreads.1.1
    refine ⟨fun p n hn htable => ?_, hreads.1.2.1⟩
    obtain ⟨f, rest, hchildren, hkey⟩ := hshape p n hn htable
    have hf := anonymous_of_admitted hparameters hn hchildren hkey (hadmitted p n hn htable)
    exact ownCall_of_admitted (arg_of_first hchildren hkey) hf (hadmitted p n hn htable)
  · intro hboth
    obtain ⟨hown, hplain⟩ := hboth
    have hadmitted : ∀ p n, tree.at? p = some n → cls n = .table →
        (referenceOf rt n).Admitted allowed := by
      intro p n hn htable
      obtain ⟨f, rest, hchildren, hkey⟩ := hshape p n hn htable
      obtain ⟨fn, r, hseen⟩ := htables p n hn htable
      exact admitted_of_ownCall htable hchildren hkey hseen (hown p n hn htable)
    refine ⟨⟨hadmitted, hplain, ?_⟩, dependsOnVisibleRows_of_reads hadmitted hplain⟩
    intro p n hn hparameter
    obtain ⟨t, table, fn, hat, htable, hseen⟩ := hparameters p n hn hparameter
    obtain ⟨f, rest, hchildren, hkey⟩ := hshape t table hat htable
    obtain ⟨_, f', harg, hf, _⟩ := hown t table hat htable
    obtain rfl : f = f' := Option.some.inj ((arg_of_first hchildren hkey).symm.trans harg)
    obtain ⟨_, a, hargs, _⟩ := hseen.own htable hchildren hf
    refine ⟨t, table, t ++ [0], f, hat, htable, argAt_of_first hchildren hkey, hf, ?_⟩
    rw [hargs]
    exact List.mem_singleton_self _

end Accepted

/-! ### A plain relation in a parenthesised join -/

def plainRuntime : Runtime ℤ where
  lower := id
  float := String.toInt?
  int := String.toInt?
  sql := name

/-- `SELECT * FROM agent_views.sessions($1)`. -/
def sessionsQuery : Node := selectStar (viewCall .this "sessions") []

theorem sessions_query_tables {p : Path} {n : Node} (hn : sessionsQuery.at? p = some n)
    (htable : cls n = .table) : n = viewCall .this "sessions" := by
  have hall : findAll sessionsQuery (· = .table) = [([1, 0], viewCall .this "sessions")] := rfl
  have hmem := (mem_findAll_iff sessionsQuery (· = .table) p n).2 ⟨hn, decide_eq_true htable⟩
  rw [hall] at hmem
  cases List.mem_singleton.1 hmem
  rfl

theorem sessions_query_sources : PlainSources sessionsQuery := by
  intro p n hn hholds source hsource
  have hmem := (mem_findAll_iff sessionsQuery holdsSource p n).2 ⟨hn, hholds⟩
  have hall : (findAll sessionsQuery holdsSource).all fun m =>
      (arg m.2 .this).all fun source => isPlainSource (cls source) := rfl
  have hthis := List.all_eq_true.1 hall _ hmem
  rw [hsource] at hthis
  exact hthis

theorem sessions_query_reads_only_visible :
    ReadsOnlyViews plainRuntime ["sessions"] sessionsQuery ∧
      DependsOnVisibleRows plainRuntime ["sessions"] sessionsQuery := by
  have haccepted : ∃ accepted, validateTree plainRuntime ["sessions"] 500 sessionsQuery = .ok accepted :=
    ⟨_, rfl⟩
  obtain ⟨accepted, haccepted⟩ := haccepted
  refine (readsOnlyVisible_iff_ownCalls haccepted ?_).2 ⟨?_, sessions_query_sources⟩
  · intro p n hn htable
    rw [sessions_query_tables hn htable]
    exact ⟨_, _, rfl, rfl⟩
  · intro p n hn htable
    rw [sessions_query_tables hn htable]
    refine ⟨?_, _, rfl, rfl, ?_⟩
    · intro d hd hq
      cases hd
      cases hq
    · intro htext
      cases htext

/-- `SELECT * FROM (agent_views.secret JOIN agent_views.sessions($1) ON TRUE)`: the parenthesis is a
subquery of the `Table` node of the plain relation, which carries the join. -/
def joinedQuery : Node :=
  selectStar (.node { argKey := .this, cls := .subquery }
    [.node { argKey := .this, cls := .table }
      [identifier .this "secret", identifier .db "agent_views",
        .node { argKey := .joins, cls := .join }
          [viewCall .this "sessions",
            .node { argKey := .other "on", cls := .boolean true } []]]]) []

theorem joined_query_shaped : Shaped joinedQuery := by
  intro p n hn htable
  have hmem := (mem_findAll_iff joinedQuery (· = .table) p n).2 ⟨hn, decide_eq_true htable⟩
  have hall : (findAll joinedQuery (· = .table)).all fun m =>
      (m.2.children.head?.map fun f => f.label.argKey) == some .this := rfl
  have hfirst := List.all_eq_true.1 hall _ hmem
  cases hchildren : n.children with
  | nil => simp [hchildren] at hfirst
  | cons f rest => exact ⟨f, rest, rfl, by simpa [hchildren] using hfirst⟩

/-- The query is accepted.  It reads `agent_views.secret`, and two databases that differ in nothing else
give different results. -/
theorem joined_query_reads_relation :
    ∃ accepted, validateTree plainRuntime ["sessions"] 500 joinedQuery = .ok accepted ∧
      Shaped joinedQuery ∧ ¬ ReadsOnlyViews plainRuntime ["sessions"] joinedQuery ∧
      ¬ DependsOnVisibleRows plainRuntime ["sessions"] joinedQuery := by
  refine ⟨_, rfl, joined_query_shaped, ?_, ?_⟩
  · intro hreads
    obtain ⟨_, _, a, harguments, _⟩ := hreads.1 [1, 0, 0] _ rfl rfl
    cases harguments
  · intro hdepends
    have hsame := hdepends Unit Unit (List Unit) inferInstance
      (fun _ rows parts => rows.getD [] ++ parts.flatten) []
      { views := fun _ => [], others := fun _ => [] } { views := fun _ => [], others := fun _ => [()] }
      (fun _ _ => rfl)
    revert hsame
    decide

/-- `SELECT * FROM agent_views.sessions($1) CROSS JOIN LATERAL private.locf(1)`. -/
def lateralQuery : Node :=
  selectStar (viewCall .this "sessions")
    [.node { argKey := .joins, cls := .join }
      [.node { argKey := .this, cls := .lateral }
        [.node { argKey := .this, cls := .dot }
          [identifier .this "private",
            .node { argKey := .expression, cls := .anonymous, text := some "locf" }
              [.node { argKey := .expressions, cls := .literal false, text := some "1" } []]]]]]

-- It is accepted, too, and its lateral call is no source that the validator knows.
example : ∃ accepted, validateTree plainRuntime ["sessions"] 500 lateralQuery = .ok accepted ∧
    isPlainSource .dot = false := ⟨_, rfl, rfl⟩

end FavoniusBackend.Agent.Sources
