import Mathlib.Data.List.DropRight
import Mathlib.Data.Nat.Digits.Defs

/-!
# Python's text methods

A text is the list of its characters.
-/

namespace FavoniusBackend.Lib.Text

/-- The characters that `str.strip()` removes. -/
def isSpace (c : Char) : Bool :=
  decide (c.toNat ∈ [133, 160, 5760, 8232, 8233, 8239, 8287, 12288] ∨ 9 ≤ c.toNat ∧ c.toNat ≤ 13 ∨
    28 ≤ c.toNat ∧ c.toNat ≤ 32 ∨ 8192 ≤ c.toNat ∧ c.toNat ≤ 8202)

/-- `str.strip`, of the characters that meet `drop`. -/
def stripWhere (drop : Char → Bool) (cs : List Char) : List Char :=
  ((cs.dropWhile drop).reverse.dropWhile drop).reverse

def strip (cs : List Char) : List Char := stripWhere isSpace cs

theorem stripWhere_eq_self {drop : Char → Bool} {cs : List Char} (h : ∀ c ∈ cs, drop c = false) :
    stripWhere drop cs = cs := by
  have hfront : ∀ ds : List Char, (∀ c ∈ ds, drop c = false) → ds.dropWhile drop = ds := by
    intro ds hds
    cases ds with
    | nil => rfl
    | cons d ds => exact List.dropWhile_cons_of_neg (by simp [hds d List.mem_cons_self])
  rw [stripWhere, hfront cs h, hfront cs.reverse fun c hc => h c (List.mem_reverse.mp hc), List.reverse_reverse]

theorem stripWhere_stripWhere (drop : Char → Bool) (cs : List Char) :
    stripWhere drop (stripWhere drop cs) = stripWhere drop cs := by
  unfold stripWhere
  have hinit : ((cs.dropWhile drop).reverse.dropWhile drop).reverse <+: cs.dropWhile drop := by
    have hsuffix := List.dropWhile_suffix (l := (cs.dropWhile drop).reverse) drop
    simpa using List.reverse_prefix.mpr hsuffix
  -- what is left is empty or starts as the text did after its first characters were dropped
  have hfront : (((cs.dropWhile drop).reverse.dropWhile drop).reverse).dropWhile drop =
      ((cs.dropWhile drop).reverse.dropWhile drop).reverse := by
    obtain ⟨rest, hrest⟩ := hinit
    cases hleft : ((cs.dropWhile drop).reverse.dropWhile drop).reverse with
    | nil => rfl
    | cons c left =>
      rw [hleft] at hrest
      have hc : drop c = false := by
        have hidem := List.dropWhile_idempotent (p := drop) (l := cs)
        rw [← hrest] at hidem
        by_contra hc
        rw [Bool.not_eq_false] at hc
        rw [List.cons_append, List.dropWhile_cons_of_pos hc] at hidem
        have hlen := congrArg List.length hidem
        have hle := (List.dropWhile_suffix (l := left ++ rest) drop).length_le
        simp only [List.length_cons] at hlen
        omega
      exact List.dropWhile_cons_of_neg (by simp [hc])
  rw [hfront, List.reverse_reverse, List.dropWhile_idempotent]

theorem strip_strip (cs : List Char) : strip (strip cs) = strip cs := stripWhere_stripWhere isSpace cs

/-- `str.partition`: the text before the first separator, and the one after it, if there is one. -/
def partition (sep : Char) (cs : List Char) : List Char × Option (List Char) :=
  (cs.takeWhile (· != sep), if sep ∈ cs then some (cs.dropWhile (· != sep)).tail else none)

theorem partition_of_not_mem {sep : Char} {cs : List Char} (h : sep ∉ cs) : partition sep cs = (cs, none) := by
  have hall : ∀ c ∈ cs, (c != sep) = true := by
    intro c hc
    simpa using fun heq : c = sep => h (heq ▸ hc)
  rw [partition, if_neg h, List.takeWhile_eq_self_iff.mpr hall]

theorem partition_append {sep : Char} {before : List Char} (h : sep ∉ before) (rest : List Char) :
    partition sep (before ++ sep :: rest) = (before, some rest) := by
  have hall : ∀ c ∈ before, (c != sep) = true := by
    intro c hc
    simpa using fun heq : c = sep => h (heq ▸ hc)
  rw [partition, if_pos (List.mem_append_right _ List.mem_cons_self), List.takeWhile_append_of_pos hall,
    List.dropWhile_append_of_pos hall]
  simp

theorem eq_of_partition {sep : Char} {cs before rest : List Char} (h : partition sep cs = (before, some rest)) :
    before ++ sep :: rest = cs := by
  rw [partition] at h
  split at h
  · rename_i hsep
    obtain ⟨rfl, hrest⟩ := Prod.mk.inj h
    obtain rfl := Option.some.inj hrest
    have hdrop : cs.dropWhile (· != sep) ≠ [] := by
      intro hnil
      have hall := List.dropWhile_eq_nil_iff.mp hnil sep hsep
      simp at hall
    have hhead : (cs.dropWhile (· != sep)).head hdrop = sep := by
      have hnot := List.head_dropWhile_not (· != sep) hdrop
      simpa using hnot
    have hcons := List.cons_head_tail hdrop
    rw [hhead] at hcons
    rw [hcons, List.takeWhile_append_dropWhile]
  · cases (Prod.mk.inj h).2

/-- `str.lower`, up to the letters outside ASCII that stay outside: the Kelvin sign becomes a letter of ASCII, and the
dotted capital I becomes one and a combining dot. -/
def lower (cs : List Char) : List Char :=
  cs.flatMap fun c =>
    if c.toNat = 0x212A then ['k'] else if c.toNat = 0x130 then ['i', Char.ofNat 0x307] else [c.toLower]

def decimalZeros : List ℕ :=
  [48, 1632, 1776, 1984, 2406, 2534, 2662, 2790, 2918, 3046, 3174, 3302, 3430, 3558, 3664, 3792, 3872, 4160, 4240, 6112,
    6160, 6470, 6608, 6784, 6800, 6992, 7088, 7232, 7248, 42528, 43216, 43264, 43472, 43504, 43600, 44016, 65296,
    66720, 68912, 69734, 69872, 69942, 70096, 70384, 70736, 70864, 71248, 71360, 71472, 71904, 72016, 72784, 73040,
    73120, 73552, 92768, 92864, 93008, 120782, 120792, 120802, 120812, 120822, 123200, 123632, 124144, 125264, 130032]

def decimal (c : Char) : Option ℕ :=
  (decimalZeros.find? fun z => decide (z ≤ c.toNat ∧ c.toNat < z + 10)).map (c.toNat - ·)

/-- The digits of a number, with single underscores between them. -/
def digits : List Char → Option (List ℕ)
  | [] => none
  | [c] => (decimal c).map fun d => [d]
  | c :: '_' :: cs => (decimal c).bind fun d => (digits cs).map (d :: ·)
  | c :: cs => (decimal c).bind fun d => (digits cs).map (d :: ·)

/-- `int` of a text, with `none` for its `ValueError`: four of the control characters that `str.strip` removes are no
spaces here, and a number has at most 4300 digits. -/
def int (cs : List Char) : Option ℤ :=
  let cs := stripWhere (fun c => isSpace c && !decide (28 ≤ c.toNat ∧ c.toNat ≤ 31)) cs
  let number (ds : Option (List ℕ)) : Option ℤ :=
    (ds.filter fun ds => decide (ds.length ≤ 4300)).map fun ds => (Nat.ofDigits 10 ds.reverse : ℤ)
  match cs with
  | '-' :: cs => (number (digits cs)).map (- ·)
  | '+' :: cs => number (digits cs)
  | cs => number (digits cs)

end FavoniusBackend.Lib.Text
