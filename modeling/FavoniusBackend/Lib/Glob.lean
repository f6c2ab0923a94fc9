import FavoniusBackend.Lib.Text
import Mathlib.Data.List.Infix

/-!
# Glob patterns

Python's `fnmatch` on a system that tells the case of letters apart.  A star matches any text, a question mark any
character, brackets a character of a sequence or, with an exclamation mark, any other one.  A text without these
characters matches itself only, and a pattern that starts with it matches what goes on with the rest (`fnmatch_append`).
-/

namespace FavoniusBackend.Lib.Glob

/-- A part of a pattern: any text, or one character that passes. -/
inductive Piece where
  | star
  | one (passes : Char → Bool)

/-- The sequence between brackets has the character; a hyphen between two characters makes a range. -/
def seqHas : List Char → Char → Bool
  | c :: '-' :: d :: rest, x => decide (c ≤ x ∧ x ≤ d) || seqHas rest x
  | c :: rest, x => x == c || seqHas rest x
  | [], _ => false

/-- The brackets that start before the text, and what follows them, if they are closed. -/
def brackets (cs : List Char) : Option (Piece × List Char) :=
  let negated := cs.head? = some '!'
  let body := if negated then cs.tail else cs
  -- a closing bracket that comes first is one of the sequence
  let first := body.head? = some ']'
  match Text.partition ']' (if first then body.tail else body) with
  | (_, none) => none
  | (sequence, some rest) =>
    some (.one fun x => seqHas (if first then ']' :: sequence else sequence) x != decide negated, rest)

theorem length_of_brackets {cs rest : List Char} {piece : Piece} (h : brackets cs = some (piece, rest)) :
    rest.length ≤ cs.length := by
  unfold brackets at h
  dsimp only at h
  split at h
  · cases h
  · rename_i sequence rest' hpartition
    obtain ⟨-, rfl⟩ := Prod.mk.inj (Option.some.inj h)
    have hparts := congrArg List.length (Text.eq_of_partition hpartition)
    have htail : ∀ (b : Prop) [Decidable b] (l : List Char), (if b then l.tail else l).length ≤ l.length := by
      intro b _ l
      split
      · rw [List.length_tail]
        omega
      · exact le_refl _
    have hfirst := htail ((if cs.head? = some '!' then cs.tail else cs).head? = some ']')
      (if cs.head? = some '!' then cs.tail else cs)
    have hnegated := htail (cs.head? = some '!') cs
    rw [List.length_append, List.length_cons] at hparts
    omega

def translate : List Char → List Piece
  | [] => []
  | c :: cs =>
    if c = '*' then .star :: translate cs
    else if c = '?' then .one (fun _ => true) :: translate cs
    else if c = '[' then
      match _h : brackets cs with
      | some (piece, rest) => piece :: translate rest
      | none => .one (· == '[') :: translate cs
    else .one (· == c) :: translate cs
termination_by cs => cs.length
decreasing_by
  · simp
  · simp
  · have hlength := length_of_brackets _h
    simp only [List.length_cons]
    omega
  · simp
  · simp

def accepts : List Piece → List Char → Bool
  | [], cs => cs.isEmpty
  | .star :: pieces, cs => cs.tails.any (accepts pieces)
  | .one passes :: pieces, cs =>
    match cs with
    | [] => false
    | c :: cs => passes c && accepts pieces cs

def fnmatch (name pat : List Char) : Bool := accepts (translate pat) name

/-! ## Literal texts -/

/-- A character that stands for itself. -/
def IsLiteral (c : Char) : Prop := c ≠ '*' ∧ c ≠ '?' ∧ c ≠ '['

instance (c : Char) : Decidable (IsLiteral c) := inferInstanceAs (Decidable (_ ∧ _))

/-- The parts of a text that stands for itself. -/
def literal (cs : List Char) : List Piece := cs.map fun c => .one (· == c)

theorem translate_append {cs : List Char} (h : ∀ c ∈ cs, IsLiteral c) (pat : List Char) :
    translate (cs ++ pat) = literal cs ++ translate pat := by
  induction cs with
  | nil => rfl
  | cons c cs ih =>
    obtain ⟨hstar, hmark, hbracket⟩ := h c List.mem_cons_self
    rw [List.cons_append, translate, if_neg hstar, if_neg hmark, if_neg hbracket,
      ih fun d hd => h d (List.mem_cons_of_mem c hd)]
    rfl

theorem translate_nil : translate [] = [] := by rw [translate]

theorem translate_star (pat : List Char) : translate ('*' :: pat) = .star :: translate pat := by
  rw [translate, if_pos rfl]

theorem accepts_literal (cs : List Char) (pieces : List Piece) (name : List Char) :
    accepts (literal cs ++ pieces) name = true ↔ ∃ rest, name = cs ++ rest ∧ accepts pieces rest = true := by
  induction cs generalizing name with
  | nil => simp [literal]
  | cons c cs ih =>
    cases name with
    | nil => simp [literal, accepts]
    | cons d name =>
      show ((d == c) && accepts (literal cs ++ pieces) name) = true ↔ _
      rw [Bool.and_eq_true, beq_iff_eq, ih]
      constructor
      · rintro ⟨rfl, rest, rfl, hrest⟩
        exact ⟨rest, rfl, hrest⟩
      · rintro ⟨rest, heq, hrest⟩
        obtain ⟨rfl, rfl⟩ := List.cons.inj heq
        exact ⟨rfl, rest, rfl, hrest⟩

theorem accepts_star (name : List Char) : accepts [.star] name = true :=
  List.any_eq_true.mpr ⟨[], (List.mem_tails _ _).mpr List.nil_suffix, rfl⟩

/-- A pattern that starts with a literal text matches what starts with it and goes on as the rest of the pattern does. -/
theorem fnmatch_append {cs : List Char} (h : ∀ c ∈ cs, IsLiteral c) (name pat : List Char) :
    fnmatch name (cs ++ pat) = true ↔ ∃ rest, name = cs ++ rest ∧ fnmatch rest pat = true := by
  rw [fnmatch, translate_append h, accepts_literal]
  rfl

theorem fnmatch_append_append {cs : List Char} (h : ∀ c ∈ cs, IsLiteral c) (name pat : List Char) :
    fnmatch (cs ++ name) (cs ++ pat) = fnmatch name pat := by
  rw [Bool.eq_iff_iff, fnmatch_append h]
  constructor
  · rintro ⟨rest, heq, hrest⟩
    rw [List.append_cancel_left heq]
    exact hrest
  · intro hname
    exact ⟨name, rfl, hname⟩

theorem fnmatch_star_iff {cs : List Char} (h : ∀ c ∈ cs, IsLiteral c) (name : List Char) :
    fnmatch name (cs ++ ['*']) = true ↔ cs <+: name := by
  rw [fnmatch_append h]
  constructor
  · rintro ⟨rest, rfl, -⟩
    exact ⟨rest, rfl⟩
  · rintro ⟨rest, rfl⟩
    refine ⟨rest, rfl, ?_⟩
    rw [fnmatch, translate_star, translate_nil]
    exact accepts_star rest

end FavoniusBackend.Lib.Glob
