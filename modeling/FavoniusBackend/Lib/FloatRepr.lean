import FavoniusBackend.Lib.Numeric
import FavoniusBackend.Lib.PyJson
import Mathlib.Data.List.DropRight

/-!
# `repr` of a float

The text of a double is its shortest decimal: of the decimals that read as the double, one with the fewest digits and,
among these, the nearest.  Large and small numbers are written with an exponent.
-/

namespace FavoniusBackend.Lib.PyJson

open Lib.Numeric

/-- The number `digits * 10 ^ exponent`. -/
structure Decimal where
  digits : ℕ
  exponent : ℤ
  deriving DecidableEq, Repr

def Decimal.value (d : Decimal) : ℚ := d.digits * 10 ^ d.exponent

/-- The two decimals around a positive number, to the given power of ten, the nearer one first. -/
def Decimal.around (q : ℚ) (exponent : ℤ) : List Decimal :=
  let m := q / 10 ^ exponent
  let below : Decimal := ⟨⌊m⌋.toNat, exponent⟩
  let above : Decimal := ⟨⌈m⌉.toNat, exponent⟩
  if m - ⌊m⌋ ≤ ⌈m⌉ - m then [below, above] else [above, below]

/-- The shortest decimal of the double next to a positive number; seventeen digits are always enough. -/
def Decimal.shortest (q : ℚ) : Option Decimal :=
  ((List.range 17).flatMap fun k => around (roundDouble q) (Int.log 10 (roundDouble q) - k)).find? fun d =>
    decide (roundDouble d.value = roundDouble q)

theorem Decimal.roundDouble_value {q : ℚ} {d : Decimal} (h : shortest q = some d) :
    roundDouble d.value = roundDouble q := by
  unfold shortest at h
  simpa using List.find?_some h

def exponentText (e : ℤ) : List Char :=
  (if e < 0 then '-' else '+') :: (if e.natAbs < 10 then ['0'] else []) ++ Nat.toDigits 10 e.natAbs

def Decimal.text (d : Decimal) : List Char :=
  let written := Nat.toDigits 10 d.digits
  let digits := written.rdropWhile (· == '0')
  let point : ℤ := written.length + d.exponent
  if point ≤ -4 ∨ 16 < point then
    digits.take 1 ++ (if digits.length = 1 then [] else '.' :: digits.drop 1) ++ 'e' :: exponentText (point - 1)
  else if point ≤ 0 then ['0', '.'] ++ List.replicate point.natAbs '0' ++ digits
  else if (digits.length : ℤ) ≤ point then digits ++ List.replicate (point.toNat - digits.length) '0' ++ ['.', '0']
  else digits.take point.toNat ++ '.' :: digits.drop point.toNat

/-- `repr(x)`; a zero has no sign here. -/
def PyFloat.repr : PyFloat → String
  | .finite q =>
    if q = 0 then "0.0"
    else String.ofList ((if q < 0 then ['-'] else []) ++ ((Decimal.shortest |q|).map Decimal.text).getD [])
  | .inf => "inf"
  | .negInf => "-inf"
  | .nan => "nan"

/-- `f"{x:.3f}"` and the like, of the double next to a number. -/
def fixedText (decimals : ℕ) (q : ℚ) : String :=
  let n := (roundHalfEven (|roundDouble q| * 10 ^ decimals)).natAbs
  let after := Nat.toDigits 10 (n % 10 ^ decimals)
  String.ofList ((if q < 0 then ['-'] else []) ++ Nat.toDigits 10 (n / 10 ^ decimals) ++
    '.' :: List.replicate (decimals - after.length) '0' ++ after)

/-- `f"{x:.3f}"` and the like. -/
def PyFloat.fixed (decimals : ℕ) : PyFloat → String
  | .finite q => fixedText decimals q
  | x => x.repr

example : ["0.1", "1e-05", "1e+16", "1000000000000000.0", "123.456", "5e-324", "-2.5"] =
    [1 / 10, 1 / 100000, 10 ^ 16, 10 ^ 15, 123456 / 1000, 1 / 2 ^ 1074, -5 / 2].map fun q =>
      (PyFloat.finite q).repr := by
  decide +kernel

example : fixedText 3 (9825 / 10000) = "0.983" ∧ fixedText 3 (1 / 16) = "0.062" := by decide +kernel

end FavoniusBackend.Lib.PyJson
