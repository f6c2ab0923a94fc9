import Mathlib
import FavoniusBackend.Lib.PyJson
import FavoniusBackend.Lib.Text

/-!
# Text methods on code points

The methods of `str` that `Lib.Text` has for texts of characters, for texts that may hold half of a surrogate pair.
-/

namespace FavoniusBackend.Lib.PyText

open Lib.PyJson

/-- The code points that `str.strip()` removes. -/
def isSpace (c : ℕ) : Bool :=
  decide (c ∈ [133, 160, 5760, 8232, 8233, 8239, 8287, 12288] ∨ 9 ≤ c ∧ c ≤ 13 ∨ 28 ≤ c ∧ c ≤ 32 ∨
    8192 ≤ c ∧ c ≤ 8202)

def strip (s : PyStr) : PyStr := (s.dropWhile isSpace).rdropWhile isSpace

def rstrip (c : ℕ) (s : PyStr) : PyStr := s.rdropWhile (· == c)

/-- `s.rsplit(sep, 1)[-1]`. -/
def afterLast (sep : ℕ) (s : PyStr) : PyStr := s.rtakeWhile (· != sep)

/-! ## Digits -/

/-- The value of a decimal digit; half of a surrogate pair is none. -/
def decimal (c : ℕ) : Option ℕ := Text.decimal (Char.ofNat c)

/-- The digits that are not decimal, such as those in a superscript or in a circle: first and last of each range. -/
def digitRanges : List (ℕ × ℕ) :=
  [(178, 179), (185, 185), (4969, 4977), (6618, 6618), (8304, 8304), (8308, 8313), (8320, 8329), (9312, 9320),
    (9332, 9340), (9352, 9360), (9450, 9450), (9461, 9469), (9471, 9471), (10102, 10110), (10112, 10120),
    (10122, 10130), (68160, 68163), (69216, 69224), (69714, 69722), (127232, 127242)]

/-- What `str.isdigit` takes for a digit. -/
def isDigitChar (c : ℕ) : Bool :=
  (decimal c).isSome || digitRanges.any fun r => decide (r.1 ≤ c) && decide (c ≤ r.2)

def isDigit (s : PyStr) : Bool := !s.isEmpty && s.all isDigitChar

def int (s : PyStr) : Except PyError ℤ :=
  match Text.int (s.map Char.ofNat) with
  | some n => .ok n
  | none => .error .valueError

/-- The characters that `int` takes for something else than a digit of a number. -/
def specials : List ℕ :=
  [9, 10, 11, 12, 13, 28, 29, 30, 31, 32, 43, 45, 95, 133, 160, 5760, 8192, 8193, 8194, 8195, 8196, 8197, 8198, 8199,
    8200, 8201, 8202, 8232, 8233, 8239, 8287, 12288]

theorem toNat_ofNat (c : ℕ) : (Char.ofNat c).toNat = c ∨ (Char.ofNat c).toNat = 0 := by
  unfold Char.ofNat
  split
  · exact .inl rfl
  · exact .inr rfl

theorem decimal_not_special {c : Char} (h : (Text.decimal c).isSome) : c.toNat ∉ specials := by
  rw [Text.decimal, Option.isSome_map] at h
  obtain ⟨z, hz⟩ := Option.isSome_iff_exists.mp h
  have hrange : z ≤ c.toNat ∧ c.toNat < z + 10 := of_decide_eq_true (List.find?_some hz :)
  have hapart : (Text.decimalZeros.all fun z => specials.all fun n => Nat.blt n z || Nat.ble (z + 10) n) = true := by
    decide +kernel
  intro hspecial
  have hout := List.all_eq_true.mp (List.all_eq_true.mp hapart z (List.mem_of_find?_eq_some hz)) _ hspecial
  rw [Bool.or_eq_true, Nat.blt_eq, Nat.ble_eq] at hout
  omega

theorem isDigitChar_not_special {c : ℕ} (h : isDigitChar c) : (Char.ofNat c).toNat ∉ specials := by
  rw [isDigitChar, Bool.or_eq_true, List.any_eq_true] at h
  rcases h with h | ⟨r, hr, h⟩
  · exact decimal_not_special h
  · rw [Bool.and_eq_true, decide_eq_true_eq, decide_eq_true_eq] at h
    have hapart : ∀ r ∈ digitRanges, ∀ n ∈ specials, ¬ (r.1 ≤ n ∧ n ≤ r.2) := by decide +kernel
    rcases toNat_ofNat c with hc | hc
    · rw [hc]
      exact fun hspecial => hapart r hr _ hspecial h
    · rw [hc]
      decide

theorem mem_specials_of_isSpace {c : Char} (h : Text.isSpace c) : c.toNat ∈ specials := by
  have hspaces : ∀ n ∈ [133, 160, 5760, 8232, 8233, 8239, 8287, 12288] ++ List.range' 9 5 ++ List.range' 28 5 ++
      List.range' 8192 11, n ∈ specials := by decide +kernel
  refine hspaces _ ?_
  simp only [List.mem_append, List.mem_range'_1]
  rcases of_decide_eq_true h with hlisted | hcontrol | hseparator | hquad
  · exact .inl (.inl (.inl hlisted))
  · exact .inl (.inl (.inr (by omega)))
  · exact .inl (.inr (by omega))
  · exact .inr (by omega)

theorem int_pair {c d : ℕ} (hc : isDigitChar c) (hd : isDigitChar d) :
    int [c, d] = match decimal c, decimal d with
      | some x, some y => .ok (10 * x + y)
      | _, _ => .error .valueError := by
  have hc' := isDigitChar_not_special hc
  have hd' := isDigitChar_not_special hd
  have hspace : ∀ ch ∈ [Char.ofNat c, Char.ofNat d],
      (Text.isSpace ch && !decide (28 ≤ ch.toNat ∧ ch.toNat ≤ 31)) = false := by
    intro ch hch
    have hnot : ch.toNat ∉ specials := by
      rcases List.mem_pair.mp hch with rfl | rfl
      · exact hc'
      · exact hd'
    rw [Bool.and_eq_false_iff]
    exact .inl (Bool.eq_false_iff.mpr fun h => hnot (mem_specials_of_isSpace h))
  have hminus : Char.ofNat c ≠ '-' := fun h => hc' (h ▸ by decide)
  have hplus : Char.ofNat c ≠ '+' := fun h => hc' (h ▸ by decide)
  have hunder : Char.ofNat d ≠ '_' := fun h => hd' (h ▸ by decide)
  have hdigits : Text.digits [Char.ofNat c, Char.ofNat d] =
      (decimal c).bind fun x => (decimal d).map fun y => [x, y] := by
    unfold Text.digits
    split
    · rename_i heq
      cases heq
    · rename_i heq
      cases heq
    · rename_i heq
      exact absurd (List.cons.inj (List.cons.inj heq).2).1 hunder
    · rename_i heq
      obtain ⟨rfl, rfl⟩ := List.cons.inj heq
      unfold Text.digits decimal
      cases Text.decimal (Char.ofNat d) <;> rfl
  have hint : Text.int [Char.ofNat c, Char.ofNat d] =
      ((Text.digits [Char.ofNat c, Char.ofNat d]).filter fun ds => decide (ds.length ≤ 4300)).map fun ds =>
        (Nat.ofDigits 10 ds.reverse : ℤ) := by
    unfold Text.int
    rw [Text.stripWhere_eq_self hspace]
    dsimp only
    split
    · rename_i heq
      exact absurd (List.cons.inj heq).1 hminus
    · rename_i heq
      exact absurd (List.cons.inj heq).1 hplus
    · rfl
  rw [int, List.map_cons, List.map_cons, List.map_nil, hint, hdigits]
  cases decimal c with
  | none => rfl
  | some x =>
    cases decimal d with
    | none => rfl
    | some y =>
      show Except.ok ((y : ℤ) + 10 * (x + 10 * 0)) = Except.ok (10 * (x : ℤ) + y)
      exact congrArg Except.ok (by omega)

end FavoniusBackend.Lib.PyText
