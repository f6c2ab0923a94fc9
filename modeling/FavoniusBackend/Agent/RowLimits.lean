import FavoniusBackend.Lib.JsonText
import FavoniusBackend.Lib.Text
import FavoniusBackend.Agent.Sources

/-!
# The outermost limit

An accepted query leaves the validator with a `LIMIT` at its root.  Where it had none, or one whose number is
out of range, the row limit is set; where `int` reads its number and finds it in range, it stays.  A text that
`int` does not read, `1e9` or `10.5`, stays as well, whatever its value.

What the database makes of the text of a literal is a parameter.
-/

namespace FavoniusBackend.Agent.RowLimits

open Lib Agent.Syntax Agent.SqlValidator

variable {F : Type} {rt : Runtime F} {rowLimit : ℤ}

/-! ### Arguments of a rewritten node -/

theorem arg_setArg {key : ArgKey} {child : Node} (n : Node) (hchild : child.label.argKey = key) :
    arg (setArg n key child) key = some child := by
  obtain ⟨l, cs⟩ := n
  rw [setArg]
  by_cases hhas : (arg (.node l cs : Node) key).isSome = true
  · rw [if_pos hhas]
    show (cs.map fun c => if c.label.argKey = key then child else c).find? (fun c => c.label.argKey = key) = _
    change (cs.find? fun c => c.label.argKey = key).isSome = true at hhas
    induction cs with
    | nil => cases hhas
    | cons c cs ih =>
      rw [List.map_cons]
      by_cases hc : c.label.argKey = key
      · rw [if_pos hc, List.find?_cons_of_pos (by simpa using hchild)]
      · rw [if_neg hc, List.find?_cons_of_neg (by simpa using hc)]
        rw [List.find?_cons_of_neg (by simpa using hc)] at hhas
        exact ih hhas
  · rw [if_neg hhas]
    show (cs ++ [child]).find? (fun c => c.label.argKey = key) = some child
    have hnone : cs.find? (fun c => c.label.argKey = key) = none := by
      change ¬ (cs.find? fun c => c.label.argKey = key).isSome = true at hhas
      simpa using hhas
    rw [List.find?_append, hnone]
    simp [hchild]

theorem label_setArg (n : Node) (key : ArgKey) (child : Node) : (setArg n key child).label = n.label := by
  rw [setArg]
  split
  · rfl
  · rfl

theorem argKey_of_arg {n c : Node} {key : ArgKey} (h : arg n key = some c) : c.label.argKey = key := by
  simpa using List.find?_some h

theorem arg_setArg_of_ne {key other : ArgKey} {child : Node} (n : Node) (hchild : child.label.argKey = key)
    (hne : other ≠ key) : arg (setArg n key child) other = arg n other := by
  obtain ⟨l, cs⟩ := n
  have hother : child.label.argKey ≠ other := fun h => hne (h.symm.trans hchild)
  rw [setArg]
  split
  · show (cs.map fun c => if c.label.argKey = key then child else c).find? (fun c => c.label.argKey = other) =
      cs.find? fun c => c.label.argKey = other
    clear * - hother hne
    induction cs with
    | nil => rfl
    | cons c cs ih =>
      rw [List.map_cons]
      by_cases hc : c.label.argKey = key
      · have hc' : c.label.argKey ≠ other := fun h => hne (h.symm.trans hc)
        rw [if_pos hc, List.find?_cons_of_neg (by simpa using hother),
          List.find?_cons_of_neg (by simpa using hc'), ih]
      · rw [if_neg hc]
        by_cases hc' : c.label.argKey = other
        · rw [List.find?_cons_of_pos (by simpa using hc'), List.find?_cons_of_pos (by simpa using hc')]
        · rw [List.find?_cons_of_neg (by simpa using hc'), List.find?_cons_of_neg (by simpa using hc'), ih]
  · show (cs ++ [child]).find? (fun c => c.label.argKey = other) = cs.find? fun c => c.label.argKey = other
    rw [List.find?_append, List.find?_cons_of_neg (by simpa using hother)]
    simp

/-! ### The literal of a limit -/

/-- The text of the number in the `LIMIT` of a query. -/
def limitText (n : Node) : Option String :=
  (arg n .limit).bind fun l => (arg l .expression).bind fun e => if isNumber e = true then some (name e) else none

def cappedText (rt : Runtime F) (rowLimit : ℤ) : Option String → String
  | none => toString rowLimit
  | some t =>
    if rowLimit < (rt.int t).getD rowLimit ∨ (rt.int t).getD rowLimit < 1 then toString rowLimit else t

theorem limitText_of_arg {n l e : Node} (hl : arg n .limit = some l) (he : arg l .expression = some e)
    (hnumber : isNumber e = true) : limitText n = some (name e) := by
  rw [limitText, hl, Option.bind_some, he, Option.bind_some, if_pos hnumber]

theorem applyRowLimit_spec {n m : Node} (h : applyRowLimit rt rowLimit n = .ok m) :
    m.label = n.label ∧ (∀ key, key ≠ .limit → arg m key = arg n key) ∧
      (arg n .limit = none ∨ ∃ t, limitText n = some t) ∧
      limitText m = some (cappedText rt rowLimit (limitText n)) := by
  rw [applyRowLimit] at h
  cases hl : arg n .limit with
  | none =>
    rw [hl] at h
    obtain rfl := Except.ok.inj h
    refine ⟨label_setArg _ _ _, fun key hkey => arg_setArg_of_ne n rfl hkey, Or.inl rfl, ?_⟩
    rw [limitText_of_arg (arg_setArg n rfl) rfl rfl, limitText, hl]
    rfl
  | some l =>
    rw [hl] at h
    cases he : arg l .expression with
    | none =>
      simp only [he] at h
      cases h
    | some e =>
      simp only [he] at h
      by_cases hnumber : isNumber e = true
      · have htext := limitText_of_arg hl he hnumber
        rw [if_pos hnumber] at h
        rw [htext, cappedText]
        by_cases hout : rowLimit < (rt.int (name e)).getD rowLimit ∨ (rt.int (name e)).getD rowLimit < 1
        · rw [if_pos hout] at h ⊢
          obtain rfl := Except.ok.inj h
          have hkey : (setArg l .expression (numberLiteral rowLimit)).label.argKey = .limit := by
            rw [label_setArg]
            exact argKey_of_arg hl
          refine ⟨label_setArg _ _ _, fun key hne => arg_setArg_of_ne n hkey hne, Or.inr ⟨_, rfl⟩, ?_⟩
          exact limitText_of_arg (arg_setArg n hkey) (arg_setArg l rfl) rfl
        · rw [if_neg hout] at h ⊢
          obtain rfl := Except.ok.inj h
          exact ⟨rfl, fun _ _ => rfl, Or.inr ⟨_, rfl⟩, htext⟩
      · rw [if_neg hnumber] at h
        cases h

/-! ### The branches -/

theorem capBranches_eq (rt : Runtime F) (rowLimit : ℤ) (n : Node) :
    capBranches rt rowLimit n =
      if isSetOperation (cls n) then
        Guard.collect (fun c : Node × Except ErrorKind Node =>
          if c.1.label.argKey = .this ∨ c.1.label.argKey = .expression then c.2 else .ok c.1)
          (n.children.map fun c => (c, capBranches rt rowLimit c)) >>= fun capped => .ok (.node n.label capped)
      else if cls n = .select then applyRowLimit rt rowLimit n
      else .ok n := by
  rw [capBranches, RoseTree.para_eq]
  show (if isSetOperation n.label.cls = true then _ else if n.label.cls = .select then
    applyRowLimit rt rowLimit (.node n.label _) else .ok (.node n.label _)) = _
  rw [show (List.map Prod.fst (List.map (fun c => (c, RoseTree.para _ c)) n.children)) = n.children by
    simp [Function.comp_def]]
  obtain ⟨l, cs⟩ := n
  rfl

theorem capBranches_label {n m : Node} (h : capBranches rt rowLimit n = .ok m) : m.label = n.label := by
  rw [capBranches_eq] at h
  split at h
  · obtain ⟨capped, -, hm⟩ := (Guard.bind_eq_ok _ _ _).1 h
    obtain rfl := Except.ok.inj hm
    rfl
  · split at h
    · exact (applyRowLimit_spec h).1
    · obtain rfl := Except.ok.inj h
      rfl

theorem capBranches_operands {n m : Node} (h : capBranches rt rowLimit n = .ok m)
    (hset : isSetOperation (cls n) = true) (key : ArgKey) :
    arg n key = none ∧ arg m key = none ∨ ∃ c c', arg n key = some c ∧ arg m key = some c' ∧
      if key = .this ∨ key = .expression then capBranches rt rowLimit c = .ok c' else c' = c := by
  rw [capBranches_eq, if_pos hset] at h
  obtain ⟨capped, hcollect, hm⟩ := (Guard.bind_eq_ok _ _ _).1 h
  obtain rfl := Except.ok.inj hm
  have hkind : ∀ a ∈ n.children.map (fun c => (c, capBranches rt rowLimit c)), ∀ b : Node,
      (if a.1.label.argKey = .this ∨ a.1.label.argKey = .expression then a.2 else .ok a.1) = .ok b →
        decide (b.label.argKey = key) = decide (a.1.label.argKey = key) := by
    intro a ha b hb
    obtain ⟨c, -, rfl⟩ := List.mem_map.1 ha
    split at hb
    · rw [capBranches_label hb]
    · rw [← Except.ok.inj hb]
  rcases Guard.find?_of_collect hkind hcollect with ⟨hnone, hnone'⟩ | ⟨a, b, ha, hab, hb⟩
  · left
    rw [List.find?_map, Option.map_eq_none_iff] at hnone
    exact ⟨hnone, hnone'⟩
  · right
    rw [List.find?_map, Option.map_eq_some_iff] at ha
    obtain ⟨c, hc, rfl⟩ := ha
    have hkey : c.label.argKey = key := by simpa using List.find?_some hc
    refine ⟨c, b, hc, hb, ?_⟩
    simp only [hkey] at hab
    split at hab
    · rwa [if_pos ‹_›]
    · rw [if_neg ‹_›]
      exact (Except.ok.inj hab).symm

/-! ### The root -/

/-- The number at the root of the query that leaves the validator. -/
theorem limitRows_text {tree limited : Node} (hroot : cls tree = .select ∨ isSetOperation (cls tree) = true)
    (h : limitRows rt rowLimit tree = .ok limited) :
    limitText limited = some (cappedText rt rowLimit (limitText tree)) := by
  obtain ⟨capped, hcapped, hlimited⟩ := (Guard.bind_eq_ok _ _ _).1 h
  by_cases hselect : cls tree = .select
  · rw [if_pos hselect] at hlimited
    obtain rfl := Except.ok.inj hlimited
    rw [capBranches_eq, if_neg (by rw [hselect]; decide), if_pos hselect] at hcapped
    exact (applyRowLimit_spec hcapped).2.2.2
  · have hset := hroot.resolve_left hselect
    rw [if_neg hselect] at hlimited
    have hlimit : limitText capped = limitText tree := by
      rw [limitText, limitText]
      rcases capBranches_operands hcapped hset .limit with ⟨hnone, hnone'⟩ | ⟨c, c', hc, hc', hsame⟩
      · rw [hnone, hnone']
      · rw [if_neg (by decide)] at hsame
        rw [hc, hc', hsame]
    rw [← hlimit]
    exact (applyRowLimit_spec hlimited).2.2.2

/-- The number at the root of a query is the integer `k`. -/
def LimitIs (value : String → Option ℚ) (n : Node) (k : ℤ) : Prop :=
  ∃ t, limitText n = some t ∧ value t = some (k : ℚ)

/-- The rewritten query has an integer between 1 and the row limit, and a query that came with one keeps
it. -/
def LimitWithin (value : String → Option ℚ) (rowLimit : ℤ) (tree limited : Node) : Prop :=
  (∃ k, LimitIs value limited k ∧ 1 ≤ k ∧ k ≤ min rowLimit maxRowLimit) ∧
    ∀ k, LimitIs value tree k → 1 ≤ k → k ≤ min rowLimit maxRowLimit → LimitIs value limited k

/-- The query has no limit, or one that `int` reads or that is in range. -/
def LimitReadable (rt : Runtime F) (value : String → Option ℚ) (rowLimit : ℤ) (tree : Node) : Prop :=
  ∀ t, limitText tree = some t →
    (rt.int t).isSome = true ∨ ∃ k : ℤ, value t = some (k : ℚ) ∧ 1 ≤ k ∧ k ≤ min rowLimit maxRowLimit

/-- A number that the validator leaves in place is in range if `int` reads it. -/
theorem cappedText_cases (rt : Runtime F) (limit : ℤ) (t : Option String) :
    cappedText rt limit t = toString limit ∨
      ∃ s, t = some s ∧ cappedText rt limit t = s ∧
        (rt.int s = none ∨ ∃ k, rt.int s = some k ∧ 1 ≤ k ∧ k ≤ limit) := by
  cases t with
  | none => exact Or.inl rfl
  | some s =>
    rw [cappedText]
    by_cases hout : limit < (rt.int s).getD limit ∨ (rt.int s).getD limit < 1
    · exact Or.inl (if_pos hout)
    · refine Or.inr ⟨s, rfl, if_neg hout, ?_⟩
      cases hint : rt.int s with
      | none => exact Or.inl rfl
      | some k =>
        rw [hint, Option.getD_some] at hout
        exact Or.inr ⟨k, rfl, by omega, by omega⟩

theorem cappedText_of_within {value : String → Option ℚ} {limit k : ℤ} {t : String}
    (hint : ∀ n, rt.int t = some n → value t = some (n : ℚ)) (hlimit : 1 ≤ limit) (hk : value t = some (k : ℚ))
    (hlow : 1 ≤ k) (hhigh : k ≤ limit) : cappedText rt limit (some t) = t := by
  rw [cappedText, if_neg]
  cases hread : rt.int t with
  | none =>
    rw [Option.getD_none]
    omega
  | some n =>
    have hn : (n : ℚ) = k := Option.some.inj ((hint n hread).symm.trans hk)
    have hnk : n = k := by exact_mod_cast hn
    rw [Option.getD_some]
    omega

section Limits

variable [LinearOrder F] [Zero F] {value : String → Option ℚ} {allowed : List String} {tree : Node}
  {accepted : Accepted}

theorem limitText_accepted (h : validateTree rt allowed rowLimit tree = .ok accepted) :
    limitText accepted.tree = some (cappedText rt (min (max 1 rowLimit) maxRowLimit) (limitText tree)) := by
  obtain ⟨functionsUsed, hcheck, hlimit⟩ := (Guard.bind_eq_ok _ _ _).1 h
  obtain ⟨limited, hlimited, hok⟩ := (Guard.bind_eq_ok _ _ _).1 hlimit
  obtain rfl := Except.ok.inj hok
  refine limitRows_text ?_ hlimited
  rw [checkTree, Guard.seq_eq_ok] at hcheck
  exact (Guard.require_eq_ok _ _).1 hcheck.1

/-- **The outermost limit.**  An accepted query leaves the validator with a limit in range, its own one if it
is in range, exactly if the row limit is positive and the text of its own limit is one that `int` reads or a
number in range. -/
theorem limit_within_iff (h : validateTree rt allowed rowLimit tree = .ok accepted)
    (hint : ∀ t n, limitText tree = some t → rt.int t = some n → value t = some (n : ℚ))
    (hnumeral : value (toString (min (max 1 rowLimit) maxRowLimit)) =
      some ((min (max 1 rowLimit) maxRowLimit : ℤ) : ℚ)) :
    LimitWithin value rowLimit tree accepted.tree ↔ 1 ≤ rowLimit ∧ LimitReadable rt value rowLimit tree := by
  have htext := limitText_accepted h
  have hmax : maxRowLimit = 500 := rfl
  constructor
  · rintro ⟨⟨k, ⟨t, ht, hk⟩, hlow, hhigh⟩, -⟩
    have hpositive : 1 ≤ rowLimit := by omega
    refine ⟨hpositive, fun s hs => ?_⟩
    rw [htext, hs, Option.some.injEq] at ht
    by_cases hread : (rt.int s).isSome = true
    · exact Or.inl hread
    · have hnone : rt.int s = none := by simpa using hread
      have hkept : cappedText rt (min (max 1 rowLimit) maxRowLimit) (some s) = s := by
        rw [cappedText, if_neg]
        rw [hnone, Option.getD_none]
        omega
      rw [hkept] at ht
      subst ht
      exact Or.inr ⟨k, hk, hlow, hhigh⟩
  · rintro ⟨hpositive, hreadable⟩
    have heq : min (max 1 rowLimit) maxRowLimit = min rowLimit maxRowLimit := by rw [max_eq_right hpositive]
    rw [heq] at htext hnumeral
    have hone : 1 ≤ min rowLimit maxRowLimit := by omega
    constructor
    · rcases cappedText_cases rt (min rowLimit maxRowLimit) (limitText tree) with hset | ⟨s, hs, hkept, hread⟩
      · rw [hset] at htext
        exact ⟨_, ⟨_, htext, hnumeral⟩, hone, le_refl _⟩
      · rw [hkept] at htext
        rcases hread with hnone | ⟨k, hk, hlow, hhigh⟩
        · rcases hreadable s hs with hsome | ⟨k, hk, hlow, hhigh⟩
          · rw [hnone] at hsome
            cases hsome
          · exact ⟨k, ⟨s, htext, hk⟩, hlow, hhigh⟩
        · exact ⟨k, ⟨s, htext, hint s k hs hk⟩, hlow, hhigh⟩
    · rintro k ⟨t, ht, hk⟩ hlow hhigh
      rw [ht, cappedText_of_within (fun n => hint t n ht) hone hk hlow hhigh] at htext
      exact ⟨t, htext, hk⟩

end Limits

/-! ### A number in scientific notation -/

/-- `int` of a text, and names in lower case. -/
def pyRuntime : Runtime ℤ where
  lower := id
  float := fun t => Text.int t.toList
  int := fun t => Text.int t.toList
  sql := name

/-- An integer, or a decimal number with or without an exponent. -/
def numeral (t : String) : Option ℚ :=
  match Text.int t.toList with
  | some n => some n
  | none =>
    let (whole, cs) := JsonText.takeDigits t.toList
    let (fraction, cs) := JsonText.scanFraction cs
    let (exponent, cs) := JsonText.scanExponent cs
    if cs = [] ∧ whole ≠ [] then
      some (JsonText.digitsValue (whole ++ fraction) * 10 ^ (exponent.getD 0 - (fraction.length : ℤ)))
    else none

/-- `SELECT * FROM agent_views.sessions($1) LIMIT t`. -/
def limitedQuery (t : String) : Node :=
  selectStar (viewCall .this "sessions")
    [.node { argKey := .limit, cls := .limit }
      [.node { argKey := .expression, cls := .literal false, text := some t } []]]

theorem forty_within :
    ∃ accepted, validateTree pyRuntime ["sessions"] 50 (limitedQuery "40") = .ok accepted ∧
      (LimitWithin numeral 50 (limitedQuery "40") accepted.tree ↔
        1 ≤ (50 : ℤ) ∧ LimitReadable pyRuntime numeral 50 (limitedQuery "40")) := by
  obtain ⟨accepted, haccepted⟩ : ∃ accepted,
      validateTree pyRuntime ["sessions"] 50 (limitedQuery "40") = .ok accepted := ⟨_, rfl⟩
  refine ⟨accepted, haccepted, limit_within_iff haccepted ?_ (by decide +kernel)⟩
  intro t n _ hn
  rw [numeral, show Text.int t.toList = some n from hn]

/-- `LIMIT 1e9` stays. -/
theorem exponent_kept :
    ∃ accepted, validateTree pyRuntime ["sessions"] 500 (limitedQuery "1e9") = .ok accepted ∧
      ¬ LimitWithin numeral 500 (limitedQuery "1e9") accepted.tree := by
  refine ⟨_, rfl, ?_⟩
  rintro ⟨⟨k, ⟨t, ht, hk⟩, -, hhigh⟩, -⟩
  obtain rfl : t = "1e9" := by
    have htext : limitText (limitedQuery "1e9") = some "1e9" := rfl
    exact (Option.some.inj (htext.symm.trans ht)).symm
  have hvalue : numeral "1e9" = some 1000000000 := by decide +kernel
  have hlarge : (1000000000 : ℚ) = k := Option.some.inj (hvalue.symm.trans hk)
  have hk : k = 1000000000 := by exact_mod_cast hlarge.symm
  rw [hk] at hhigh
  exact absurd hhigh (by decide)

end FavoniusBackend.Agent.RowLimits
