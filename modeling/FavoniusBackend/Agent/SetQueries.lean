import FavoniusBackend.Lib.SetOperations
import FavoniusBackend.Agent.RowLimits

/-!
# Limits under set operations

The validator limits every `SELECT` that is a branch of a set operation, and the set operation itself, to
truncate what the user sees.  A branch that is combined by `UNION` or `INTERSECT` can only add to the result,
and with fewer rows it adds less.  A branch that is subtracted by `EXCEPT` takes rows away: truncated it lets
rows in that the query does not return.  So does a truncated branch of a query that has an order and a limit
of its own, whose first rows are then others.

A `SELECT` returns any rows its limit allows.  An operand in parentheses is a `Subquery` node, which the
validator leaves alone; what it returns is not looked into.
-/

namespace FavoniusBackend.Agent.SetQueries

open Lib Lib.SetOperations Agent.Syntax
  Agent.SqlValidator Agent.RowLimits

/-! ### Reading a set operation -/

/-- An operand of a set operation that is none itself: a `SELECT` with its limit, or one in parentheses. -/
inductive Branch
  | select (limit : Option ℕ)
  | closed
  deriving DecidableEq, Repr

def Branch.limit : Branch → Option ℕ
  | .select limit => limit
  | .closed => none

def Branch.isSelect : Branch → Bool
  | .select _ => true
  | .closed => false

def setOp : NodeClass → Option SetOp
  | .union => some .union
  | .intersect => some .intersect
  | .except => some .except
  | _ => none

/-- How many rows the limit of a query lets through; `value` is the number that the database reads in the
text of a literal. -/
def limitOf (value : String → ℕ) (n : Node) : Option ℕ := (limitText n).map value

def isLimitedOperation (n : Node) : Bool := (setOp (cls n)).isSome && (arg n .limit).isSome

def operand (children : List (Node × ((List Bool → Bool) → Option (SetTree Branch)))) (key : ArgKey)
    (all : List Bool → Bool) : Option (SetTree Branch) :=
  (children.find? fun c => c.1.label.argKey = key).bind fun c =>
    if isLimitedOperation c.1 = true then none else c.2 all

/-- The tree of a set operation; `all` says at which positions an operation is one with `ALL`. -/
def operands (value : String → ℕ) : Node → (List Bool → Bool) → Option (SetTree Branch) :=
  RoseTree.para fun l children all =>
    match setOp l.cls with
    | some op =>
      (operand children .this fun p => all (false :: p)).bind fun left =>
        (operand children .expression fun p => all (true :: p)).map fun right =>
          .combine op (all []) left right
    | none =>
      if l.cls = .select then
        some (.branch (.select (limitOf value (.node l (children.map Prod.fst)))))
      else some (.branch .closed)

def setQuery (value : String → ℕ) (all : List Bool → Bool) (n : Node) : Option (Query Branch) :=
  (operands value n all).map fun tree =>
    { tree := tree, ordered := (arg n (.other "order")).isSome, limit := limitOf value n }

/-- The tree of a statement as it is written: an operand with a limit of its own stands in parentheses, and
so does an `EXCEPT` on the right of another one. -/
structure Written (t : SetTree Branch) : Prop where
  bare : t.Without fun b => b.limit.isSome
  flat : t.Flat

/-! ### What the validator does to it -/

def operandOf (value : String → ℕ) (n : Node) (key : ArgKey) (all : List Bool → Bool) :
    Option (SetTree Branch) :=
  (arg n key).bind fun c => if isLimitedOperation c = true then none else operands value c all

theorem operands_eq (value : String → ℕ) (n : Node) (all : List Bool → Bool) :
    operands value n all =
      match setOp (cls n) with
      | some op =>
        (operandOf value n .this fun p => all (false :: p)).bind fun left =>
          (operandOf value n .expression fun p => all (true :: p)).map fun right =>
            .combine op (all []) left right
      | none =>
        if cls n = .select then some (.branch (.select (limitOf value n))) else some (.branch .closed) := by
  have hoperand : ∀ key (f : List Bool → Bool),
      operand (n.children.map fun c => (c, operands value c)) key f = operandOf value n key f := by
    intro key f
    rw [operand, operandOf, List.find?_map, Option.bind_map]
    rfl
  have hnode : (n.children.map fun c => (c, operands value c)).map Prod.fst = n.children := by
    simp [Function.comp_def]
  have hpara : operands value n all =
      match setOp (cls n) with
      | some op =>
        (operand (n.children.map fun c => (c, operands value c)) .this fun p => all (false :: p)).bind fun left =>
          (operand (n.children.map fun c => (c, operands value c)) .expression fun p => all (true :: p)).map
            fun right => SetTree.combine op (all []) left right
      | none =>
        if cls n = .select then
          some (SetTree.branch (Branch.select (limitOf value
            (.node n.label ((n.children.map fun c => (c, operands value c)).map Prod.fst)))))
        else some (SetTree.branch Branch.closed) := by
    rw [operands, RoseTree.para_eq]
    rfl
  rw [hpara, hoperand, hoperand, hnode]
  obtain ⟨l, cs⟩ := n
  rfl

theorem isSetOperation_iff (c : NodeClass) : isSetOperation c = true ↔ (setOp c).isSome = true := by
  cases c <;> simp [isSetOperation, setOp]

def Branch.cap (k : ℕ) : Branch → Branch
  | .select _ => .select (some k)
  | .closed => .closed

variable {F : Type} {rt : Runtime F} {rowLimit : ℤ} {value : String → ℕ}

theorem operands_congr {n m : Node} (hcls : cls m = cls n) (hset : isSetOperation (cls n) = true)
    (hthis : arg m .this = arg n .this) (hexpression : arg m .expression = arg n .expression)
    (all : List Bool → Bool) : operands value m all = operands value n all := by
  obtain ⟨op, hop⟩ := Option.isSome_iff_exists.1 ((isSetOperation_iff _).1 hset)
  rw [operands_eq, operands_eq, hcls, hop]
  simp only [operandOf, hthis, hexpression]

theorem isLimitedOperation_capBranches {n m : Node} (h : capBranches rt rowLimit n = .ok m) :
    isLimitedOperation m = isLimitedOperation n := by
  have hcls : cls m = cls n := congrArg Label.cls (capBranches_label h)
  rw [isLimitedOperation, isLimitedOperation, hcls]
  cases hop : setOp (cls n) with
  | none => rfl
  | some op =>
    have hset : isSetOperation (cls n) = true := (isSetOperation_iff _).2 (by rw [hop]; rfl)
    rcases capBranches_operands h hset .limit with ⟨hnone, hnone'⟩ | ⟨c, c', hc, hc', -⟩
    · rw [hnone, hnone']
    · rw [hc, hc']
      rfl

theorem operandOf_capBranches {n m : Node} (hcap : capBranches rt rowLimit n = .ok m)
    (hset : isSetOperation (cls n) = true) {key : ArgKey} (hkey : key = .this ∨ key = .expression)
    {all : List Bool → Bool} {t t' : SetTree Branch}
    (hchild : ∀ c c', arg n key = some c → capBranches rt rowLimit c = .ok c' → operands value c all = some t →
      operands value c' all = some t')
    (hread : operandOf value n key all = some t) : operandOf value m key all = some t' := by
  rcases capBranches_operands hcap hset key with ⟨hnone, -⟩ | ⟨c, c', hc, hc', hcapped⟩
  · rw [operandOf, hnone] at hread
    cases hread
  · rw [if_pos hkey] at hcapped
    rw [operandOf, hc, Option.bind_some] at hread
    rw [operandOf, hc', Option.bind_some, isLimitedOperation_capBranches hcapped]
    by_cases hlimited : isLimitedOperation c = true
    · rw [if_pos hlimited] at hread
      cases hread
    · rw [if_neg hlimited] at hread ⊢
      exact hchild c c' hc hcapped hread

/-- **The branches are limited**, and the rest of the tree stays. -/
theorem operands_capBranches (n : Node) : ∀ {m : Node} {all : List Bool → Bool} {t : SetTree Branch},
    capBranches rt rowLimit n = .ok m → operands value n all = some t →
      (t.Without fun b => b.limit.isSome) →
        operands value m all = some (t.map (Branch.cap (value (toString rowLimit)))) := by
  induction n using RoseTree.induct with
  | h n ih =>
    intro m all t hcap hread hbare
    have hcls : cls m = cls n := congrArg Label.cls (capBranches_label hcap)
    rw [operands_eq] at hread ⊢
    rw [hcls]
    cases hop : setOp (cls n) with
    | some op =>
      have hset : isSetOperation (cls n) = true := (isSetOperation_iff _).2 (by rw [hop]; rfl)
      have hoperand : ∀ key, key = .this ∨ key = .expression → ∀ (f : List Bool → Bool) (u : SetTree Branch),
          (u.Without fun b => b.limit.isSome) → operandOf value n key f = some u →
            operandOf value m key f = some (u.map (Branch.cap (value (toString rowLimit)))) := by
        intro key hkey f u hu hsome
        refine operandOf_capBranches hcap hset hkey ?_ hsome
        intro c c' hc hcapped hchild
        exact ih c (List.mem_of_find?_eq_some hc) hcapped hchild hu
      simp only [hop, Option.bind_eq_some_iff, Option.map_eq_some_iff] at hread
      obtain ⟨left, hleft, right, hright, rfl⟩ := hread
      simp only [hoperand .this (Or.inl rfl) _ left hbare.1 hleft,
        hoperand .expression (Or.inr rfl) _ right hbare.2 hright]
      rfl
    | none =>
      have hset : ¬ isSetOperation (cls n) = true := by
        rw [isSetOperation_iff, hop]
        decide
      simp only [hop] at hread ⊢
      rw [capBranches_eq, if_neg hset] at hcap
      by_cases hselect : cls n = .select
      · rw [if_pos hselect] at hread hcap ⊢
        obtain rfl := Option.some.inj hread
        have hnone : limitText n = none := by simpa [SetTree.Without, Branch.limit, limitOf] using hbare
        have htext := (applyRowLimit_spec hcap).2.2.2
        rw [hnone] at htext
        rw [limitOf, htext]
        rfl
      · rw [if_neg hselect] at hread hcap ⊢
        obtain rfl := Option.some.inj hread
        rfl

theorem setQuery_limitRows {tree limited : Node} {all : List Bool → Bool} {q : Query Branch}
    (hset : isSetOperation (cls tree) = true) (hread : setQuery value all tree = some q)
    (hbare : q.tree.Without fun b => b.limit.isSome) (h : limitRows rt rowLimit tree = .ok limited) :
    setQuery value all limited = some
      { tree := q.tree.map (Branch.cap (value (toString rowLimit)))
        ordered := q.ordered
        limit := some (value (cappedText rt rowLimit (limitText tree))) } := by
  rw [setQuery, Option.map_eq_some_iff] at hread
  obtain ⟨t, ht, rfl⟩ := hread
  have hselect : cls tree ≠ .select := fun heq => by rw [heq] at hset; cases hset
  have htext := limitRows_text (Or.inr hset) h
  obtain ⟨capped, hcapped, hlimited⟩ := (Guard.bind_eq_ok _ _ _).1 h
  rw [if_neg hselect] at hlimited
  obtain ⟨hlabel, hargs, -, -⟩ := applyRowLimit_spec hlimited
  have hcls : cls capped = cls tree := congrArg Label.cls (capBranches_label hcapped)
  have hread' : operands value limited all = some (t.map (Branch.cap (value (toString rowLimit)))) := by
    rw [operands_congr (congrArg Label.cls hlabel) (by rw [hcls]; exact hset) (hargs .this (by decide))
      (hargs .expression (by decide))]
    exact operands_capBranches tree hcapped ht hbare
  have hordered : (arg limited (.other "order")).isSome = (arg tree (.other "order")).isSome := by
    rw [hargs (.other "order") (by simp)]
    rcases capBranches_operands hcapped hset (.other "order") with ⟨hnone, hnone'⟩ | ⟨c, c', hc, hc', -⟩
    · rw [hnone, hnone']
    · rw [hc, hc']
      rfl
  rw [setQuery, hread', hordered, limitOf, htext]
  rfl

/-! ### Whether the limits only truncate -/

/-- The query returns nothing, by a zero that `int` does not read; or no `SELECT` is subtracted, and a limit
of its own is positive and orders no `SELECT`. -/
def TruncatesSafely (rt : Runtime F) (value : String → ℕ) (tree : Node) (q : Query Branch) : Prop :=
  (∃ t, limitText tree = some t ∧ rt.int t = none ∧ value t = 0) ∨
    q.tree.Kept Branch.isSelect ∧ ∀ t, limitText tree = some t →
      value t ≠ 0 ∧ (q.ordered = true → q.tree.Without Branch.isSelect)

theorem limit_cap (k : ℕ) (b : Branch) :
    (b.cap k).limit = if b.isSelect = true then some k else none := by
  cases b with
  | select limit => rfl
  | closed => rfl

/-- What becomes of a number: it is the row limit, or it stays, unread or in range. -/
theorem value_cappedText {limit : ℤ} {text : Option String} (hlimit : 1 ≤ limit)
    (hint : ∀ t n, text = some t → rt.int t = some n → value t = n.toNat)
    (hnumeral : value (toString limit) = limit.toNat) :
    (value (cappedText rt limit text) = 0 ↔ ∃ t, text = some t ∧ rt.int t = none ∧ value t = 0) ∧
      ∀ t, text = some t → value t ≠ 0 → value (cappedText rt limit text) ≤ value t := by
  cases text with
  | none =>
    rw [cappedText, hnumeral]
    refine ⟨⟨fun h => by omega, ?_⟩, fun t ht => by cases ht⟩
    rintro ⟨t, ht, -⟩
    cases ht
  | some s =>
    rw [cappedText]
    cases hread : rt.int s with
    | none =>
      rw [Option.getD_none, if_neg (by omega)]
      refine ⟨⟨fun h => ⟨s, rfl, hread, h⟩, ?_⟩, ?_⟩
      · rintro ⟨t, ht, -, hzero⟩
        cases ht
        exact hzero
      · rintro t ht -
        cases ht
        exact le_refl _
    | some n =>
      have hvalue := hint s n rfl hread
      rw [Option.getD_some]
      have hread' : ¬ ∃ t, some s = some t ∧ rt.int t = none ∧ value t = 0 := by
        rintro ⟨t, ht, hnone, -⟩
        cases ht
        rw [hread] at hnone
        cases hnone
      refine ⟨iff_of_false ?_ hread', ?_⟩
      · split
        · omega
        · omega
      · rintro t ht hne
        cases ht
        split
        · omega
        · exact le_refl _

variable [LinearOrder F] [Zero F] {allowed : List String} {tree : Node} {accepted : Accepted}

/-- **Whether limits only truncate.**  Of an accepted set operation, whatever its branches hold, the rewritten
query returns part of what the query returns, exactly if no `SELECT` is subtracted and a limit of the query
itself is positive and, with an `ORDER BY`, over no `SELECT` that gets a limit (or the query returns nothing
by a zero that `int` does not read). -/
theorem only_truncates_iff (h : validateTree rt allowed rowLimit tree = .ok accepted)
    (hset : isSetOperation (cls tree) = true) {all : List Bool → Bool} {q : Query Branch}
    (hread : setQuery value all tree = some q) (hwritten : Written q.tree)
    (hint : ∀ t n, limitText tree = some t → rt.int t = some n → value t = n.toNat)
    (hnumeral : value (toString (min (max 1 rowLimit) maxRowLimit)) = (min (max 1 rowLimit) maxRowLimit).toNat) :
    ∃ q', setQuery value all accepted.tree = some q' ∧
      (OnlyTruncates Branch.limit q q' ↔ TruncatesSafely rt value tree q) := by
  obtain ⟨functionsUsed, -, hlimit⟩ := (Guard.bind_eq_ok _ _ _).1 h
  obtain ⟨limited, hlimited, hok⟩ := (Guard.bind_eq_ok _ _ _).1 hlimit
  obtain rfl := Except.ok.inj hok
  have hmax : maxRowLimit = 500 := rfl
  have hone : 1 ≤ min (max 1 rowLimit) maxRowLimit := by omega
  set cap := min (max 1 rowLimit) maxRowLimit with hcap
  obtain ⟨hzero, hsmaller⟩ := value_cappedText hone hint hnumeral
  refine ⟨_, setQuery_limitRows hset hread hwritten.bare hlimited, ?_⟩
  have hq : q.limit = (limitText tree).map value := by
    rw [setQuery, Option.map_eq_some_iff] at hread
    obtain ⟨t, -, rfl⟩ := hread
    rfl
  obtain ⟨t, ordered, before⟩ := q
  rw [onlyTruncates_iff hwritten.bare (limit_cap (value (toString cap))) (by omega) hwritten.flat, hzero,
    TruncatesSafely]
  · refine or_congr Iff.rfl (and_congr Iff.rfl ?_)
    change before = _ at hq
    rw [hq]
    simp only [Option.map_eq_some_iff]
    constructor
    · exact fun hall s hs => hall (value s) ⟨s, hs, rfl⟩
    · rintro hall n ⟨s, hs, rfl⟩
      exact hall s hs
  · intro n hn hne
    change before = _ at hq
    rw [hq, Option.map_eq_some_iff] at hn
    obtain ⟨s, hs, rfl⟩ := hn
    exact hsmaller s hs hne

/-! ### A branch that is subtracted -/

/-- The rows that a `LIMIT` with the number lets through, rounded as the database does it. -/
def rowCount (t : String) : ℕ := ⌊(numeral t).getD 0 + 1 / 2⌋.toNat

/-- `SELECT * FROM agent_views.sessions($1) op SELECT * FROM agent_views.drivers($1)`. -/
def sessionsAndDrivers (op : NodeClass) : Node :=
  .node { argKey := .this, cls := op }
    [selectStar (viewCall .this "sessions") [],
      .node { argKey := .expression, cls := .select } (selectStar (viewCall .this "drivers") []).children]

theorem union_read : setQuery rowCount (fun _ => false) (sessionsAndDrivers .union) =
    some ⟨.combine .union false (.branch (.select none)) (.branch (.select none)), false, none⟩ := rfl

theorem union_truncates_iff :
    ∃ accepted, validateTree pyRuntime ["sessions", "drivers"] 500 (sessionsAndDrivers .union) = .ok accepted ∧
      ∃ q q', setQuery rowCount (fun _ => false) (sessionsAndDrivers .union) = some q ∧
        setQuery rowCount (fun _ => false) accepted.tree = some q' ∧
          (OnlyTruncates Branch.limit q q' ↔ TruncatesSafely pyRuntime rowCount (sessionsAndDrivers .union) q) := by
  obtain ⟨accepted, haccepted⟩ : ∃ accepted,
      validateTree pyRuntime ["sessions", "drivers"] 500 (sessionsAndDrivers .union) = .ok accepted := ⟨_, rfl⟩
  obtain ⟨q', hq', hiff⟩ := only_truncates_iff haccepted rfl union_read ⟨⟨rfl, rfl⟩, trivial, trivial⟩
    (fun t n ht => by cases ht) (by decide +kernel)
  exact ⟨accepted, haccepted, _, q', union_read, hq', hiff⟩

/-- One row is a session and a driver, and there are 500 drivers more: with a limit of 500 the row may be
missing among the drivers. -/
def sessionIsDriver : List Bool → Multiset ℕ
  | [false] => {0}
  | _ => 0 ::ₘ Multiset.replicate 500 1

def driversCut : List Bool → Multiset ℕ
  | [false] => {0}
  | _ => Multiset.replicate 500 1

/-- The row is no session that is not a driver, and the rewritten query returns it. -/
theorem except_returns_more :
    ∃ accepted q q', validateTree pyRuntime ["sessions", "drivers"] 500 (sessionsAndDrivers .except) = .ok accepted ∧
      setQuery rowCount (fun _ => false) (sessionsAndDrivers .except) = some q ∧
      setQuery rowCount (fun _ => false) accepted.tree = some q' ∧
      (∃ answer', Returns Branch.limit id q' sessionIsDriver answer' ∧ 0 ∈ answer') ∧
      ∀ answer, Returns Branch.limit id q sessionIsDriver answer → 0 ∉ answer := by
  have hcount : rowCount "500" = 500 := by decide +kernel
  have hcut : (0 : ℕ) ∉ Multiset.replicate 500 1 := fun h => absurd (Multiset.eq_of_mem_replicate h) (by decide)
  have hmore : ({0} : Multiset ℕ).dedup.filter (fun x => x ∉ Multiset.replicate 500 1) = {0} := by
    rw [Multiset.dedup_singleton, Multiset.filter_singleton, if_pos hcut]
  refine ⟨_, ⟨.combine .except false (.branch (.select none)) (.branch (.select none)), false, none⟩,
    ⟨.combine .except false (.branch (.select (some (rowCount "500")))) (.branch (.select (some (rowCount "500")))),
      false, some (rowCount "500")⟩, rfl, rfl, rfl, ⟨{0}, ⟨driversCut, ⟨⟨le_refl _, ?_⟩, ?_, ?_⟩, ?_⟩,
        Multiset.mem_singleton_self 0⟩, ?_⟩
  · show 1 = min (rowCount "500") 1
    rw [hcount]
    rfl
  · exact Multiset.le_cons_self _ 0
  · show (Multiset.replicate 500 1).card = min (rowCount "500") (0 ::ₘ Multiset.replicate 500 1).card
    rw [Multiset.card_cons, Multiset.card_replicate, hcount]
    rfl
  · show Taken id false (some (rowCount "500")) (({0} : Multiset ℕ).dedup.filter fun x =>
      x ∉ Multiset.replicate 500 1) {0}
    rw [hmore, hcount]
    exact ⟨le_refl _, rfl, fun h => by cases h⟩
  · intro answer hreturns hin
    have hbare : (SetTree.combine .except false (.branch (.select none)) (.branch (.select none))).Without
        fun b : Branch => b.limit.isSome := ⟨rfl, rfl⟩
    have htaken := (returns_iff hbare _ _ _ _ _).1 hreturns
    have hmem : (0 : ℕ) ∈ ({0} : Multiset ℕ).dedup.filter fun x => x ∉ 0 ::ₘ Multiset.replicate 500 1 :=
      Multiset.mem_of_le htaken.1 hin
    exact (Multiset.mem_filter.1 hmem).2 (Multiset.mem_cons_self 0 _)

end FavoniusBackend.Agent.SetQueries
