import FavoniusBackend.Lib.PyJson
import FavoniusBackend.Lib.Text

/-!
# `float` of a text

Spaces around the number, a sign, digits of any script with single underscores between them, a point, an exponent, and the
names of the infinities and of NaN.  Four of the control characters that `str.strip` removes are no spaces here.
-/

namespace FavoniusBackend.Lib.PyJson

open Lib.Text

/-- The double next to a number, without its rounding. -/
def PyFloat.ofRat (q : ℚ) : PyFloat :=
  if (PyFloat.overflow : ℚ) ≤ |q| then (if 0 < q then .inf else .negInf) else .finite q

def PyFloat.neg : PyFloat → PyFloat
  | .finite q => .finite (-q)
  | .inf => .negInf
  | .negInf => .inf
  | .nan => .nan

def PyFloat.isFinite : PyFloat → Bool
  | .finite _ => true
  | _ => false

/-- The digits before and after the point; one of the two may be missing. -/
def mantissa (cs : List Char) : Option (List ℕ × List ℕ) :=
  match partition '.' cs with
  | (before, none) => (digits before).map fun ds => (ds, [])
  | (before, some []) => (digits before).map fun ds => (ds, [])
  | ([], some after) => (digits after).map fun ds => ([], ds)
  | (before, some after) => (digits before).bind fun ds => (digits after).map fun ds' => (ds, ds')

def exponent : List Char → Option ℤ
  | '-' :: cs => (digits cs).map fun ds => -(Nat.ofDigits 10 ds.reverse : ℤ)
  | '+' :: cs => (digits cs).map fun ds => (Nat.ofDigits 10 ds.reverse : ℤ)
  | cs => (digits cs).map fun ds => (Nat.ofDigits 10 ds.reverse : ℤ)

/-- A number without a sign. -/
def unsignedFloat (cs : List Char) : Option PyFloat :=
  let name := cs.map Char.toLower
  if name = "inf".toList ∨ name = "infinity".toList then some .inf
  else if name = "nan".toList then some .nan
  else
    let isE (c : Char) : Bool := c == 'e' || c == 'E'
    let power := match cs.dropWhile fun c => !isE c with
      | [] => some 0
      | _ :: rest => exponent rest
    (mantissa (cs.takeWhile fun c => !isE c)).bind fun ds => power.map fun (e : ℤ) =>
      let shift : ℤ := e - ds.2.length
      PyFloat.ofRat ((Nat.ofDigits 10 (ds.1 ++ ds.2).reverse : ℕ) * 10 ^ shift.toNat / 10 ^ (-shift).toNat)

/-- `float(s)`, with `none` for its `ValueError`. -/
def floatOfText (cs : List Char) : Option PyFloat :=
  match stripWhere (fun c => isSpace c && !decide (28 ≤ c.toNat ∧ c.toNat ≤ 31)) cs with
  | '-' :: rest => (unsignedFloat rest).map PyFloat.neg
  | '+' :: rest => unsignedFloat rest
  | rest => unsignedFloat rest

example : floatOfText " 1_0.5e-1".toList = some (.finite (21 / 20)) := by decide +kernel

example : floatOfText "-Infinity".toList = some .negInf := by decide +kernel

/-- `float(s)` of a text that may hold half of a surrogate pair, which is no number. -/
def floatOfStr (s : PyStr) : Option PyFloat :=
  if ∀ c ∈ s, Nat.isValidChar c then floatOfText (s.map Char.ofNat) else none

end FavoniusBackend.Lib.PyJson
