import Mathlib.Tactic

/-!
# JSON values under the operators of Python

A decoded JSON text is a tree of `None`, booleans, integers of any size, floats, strings, lists and dictionaries.  Code
that handles such a tree without a type check may raise at every operator: `.get` on what is no dictionary, `for` over
what is not iterable, `>` between values of different types, `in` a set for what has no hash, a float of an integer that
is too large.  Each operator is a function here that returns the value or the exception.

A string is its list of code points, since an escape may stand for half of a surrogate pair.
-/

namespace FavoniusBackend.Lib.PyJson

/-! ## Values -/

/-- A `str`: code points. -/
abbrev PyStr := List ℕ

def py (s : String) : PyStr := s.toList.map Char.toNat

theorem py_ofList (cs : List Char) : py (String.ofList cs) = cs.map Char.toNat := by rw [py, String.toList_ofList]

/-- A `float`; rounding is left out. -/
inductive PyFloat where
  | finite (q : ℚ)
  | inf
  | negInf
  | nan
  deriving DecidableEq, Repr

inductive Json where
  | null
  | bool (b : Bool)
  | int (n : ℤ)
  | float (x : PyFloat)
  | str (s : PyStr)
  | arr (items : List Json)
  | obj (fields : List (PyStr × Json))
  deriving Repr

/-- The exceptions of the operators. -/
inductive PyError where
  | typeError
  | attributeError
  | keyError
  | indexError
  | overflowError
  | valueError
  | jsonDecodeError
  | recursionError
  deriving DecidableEq, Repr

namespace Json

mutual

/-- Equality of trees. -/
protected def decEq : (a b : Json) → Decidable (a = b)
  | .null, b => match b with
    | .null => isTrue rfl
    | .bool _ | .int _ | .float _ | .str _ | .arr _ | .obj _ => isFalse nofun
  | .bool x, b => match b with
    | .bool y => decidable_of_iff (x = y) ⟨congrArg _, Json.bool.inj⟩
    | .null | .int _ | .float _ | .str _ | .arr _ | .obj _ => isFalse nofun
  | .int x, b => match b with
    | .int y => decidable_of_iff (x = y) ⟨congrArg _, Json.int.inj⟩
    | .null | .bool _ | .float _ | .str _ | .arr _ | .obj _ => isFalse nofun
  | .float x, b => match b with
    | .float y => decidable_of_iff (x = y) ⟨congrArg _, Json.float.inj⟩
    | .null | .bool _ | .int _ | .str _ | .arr _ | .obj _ => isFalse nofun
  | .str x, b => match b with
    | .str y => decidable_of_iff (x = y) ⟨congrArg _, Json.str.inj⟩
    | .null | .bool _ | .int _ | .float _ | .arr _ | .obj _ => isFalse nofun
  | .arr xs, b => match b with
    | .arr ys => match Json.decEqItems xs ys with
      | isTrue h => isTrue (congrArg _ h)
      | isFalse h => isFalse fun he => h (Json.arr.inj he)
    | .null | .bool _ | .int _ | .float _ | .str _ | .obj _ => isFalse nofun
  | .obj xs, b => match b with
    | .obj ys => match Json.decEqFields xs ys with
      | isTrue h => isTrue (congrArg _ h)
      | isFalse h => isFalse fun he => h (Json.obj.inj he)
    | .null | .bool _ | .int _ | .float _ | .str _ | .arr _ => isFalse nofun

protected def decEqItems : (as bs : List Json) → Decidable (as = bs)
  | [], [] => isTrue rfl
  | [], _ :: _ => isFalse nofun
  | _ :: _, [] => isFalse nofun
  | a :: as, b :: bs => match Json.decEq a b, Json.decEqItems as bs with
    | isTrue h, isTrue h' => isTrue (h ▸ h' ▸ rfl)
    | isFalse h, _ => isFalse fun he => h (List.cons.inj he).1
    | _, isFalse h => isFalse fun he => h (List.cons.inj he).2

protected def decEqFields : (as bs : List (PyStr × Json)) → Decidable (as = bs)
  | [], [] => isTrue rfl
  | [], _ :: _ => isFalse nofun
  | _ :: _, [] => isFalse nofun
  | (k, a) :: as, (k', b) :: bs => match decEq k k', Json.decEq a b, Json.decEqFields as bs with
    | isTrue h, isTrue h', isTrue h'' => isTrue (h ▸ h' ▸ h'' ▸ rfl)
    | isFalse h, _, _ => isFalse fun he => h (Prod.mk.inj (List.cons.inj he).1).1
    | _, isFalse h, _ => isFalse fun he => h (Prod.mk.inj (List.cons.inj he).1).2
    | _, _, isFalse h => isFalse fun he => h (List.cons.inj he).2

end

instance : DecidableEq Json := Json.decEq

mutual

/-- The number of values that are inside one another, keys included. -/
def height : Json → ℕ
  | .arr items => heightItems items + 1
  | .obj fields => heightFields fields + 1
  | _ => 1

def heightItems : List Json → ℕ
  | [] => 0
  | v :: vs => max v.height (heightItems vs)

def heightFields : List (PyStr × Json) → ℕ
  | [] => 0
  | (_, v) :: fields => max (max 1 v.height) (heightFields fields)

end

/-! ## Truth, dictionaries, iteration -/

/-- `bool(v)`. -/
def truthy : Json → Bool
  | .null => false
  | .bool b => b
  | .int n => decide (n ≠ 0)
  | .float x => decide (x ≠ .finite 0)
  | .str s => !s.isEmpty
  | .arr items => !items.isEmpty
  | .obj fields => !fields.isEmpty

/-- `a or b`. -/
def orElse (a b : Json) : Json := if a.truthy then a else b

/-- The value under a key. -/
def lookup : List (PyStr × Json) → PyStr → Option Json
  | [], _ => none
  | (k', v) :: rest, k => if k' = k then some v else lookup rest k

/-- `v.get(key, default)`: only a dictionary has the method. -/
def get (v : Json) (key : String) (default : Json) : Except PyError Json :=
  match v with
  | .obj fields => .ok ((lookup fields (py key)).getD default)
  | _ => .error .attributeError

/-- `for x in v`. -/
def iter : Json → Except PyError (List Json)
  | .arr items => .ok items
  | .str s => .ok (s.map fun c => .str [c])
  | .obj fields => .ok (fields.map fun p => .str p.1)
  | _ => .error .typeError

def len : Json → Except PyError ℕ
  | .arr items => .ok items.length
  | .str s => .ok s.length
  | .obj fields => .ok fields.length
  | _ => .error .typeError

/-- `v[i]` for an index; the keys of a dictionary are strings. -/
def item (v : Json) (i : ℕ) : Except PyError Json :=
  match v with
  | .arr items => match items[i]? with
    | some x => .ok x
    | none => .error .indexError
  | .str s => match s[i]? with
    | some c => .ok (.str [c])
    | none => .error .indexError
  | .obj _ => .error .keyError
  | _ => .error .typeError

/-! ## Numbers -/

/-- The number that a value is; `True` is 1. -/
def number : Json → Option PyFloat
  | .bool b => some (.finite (if b then 1 else 0))
  | .int n => some (.finite n)
  | .float x => some x
  | _ => none

end Json

namespace PyFloat

/-- `a >= b`; a NaN compares with nothing. -/
def ge : PyFloat → PyFloat → Bool
  | .nan, _ | _, .nan => false
  | .inf, _ | _, .negInf => true
  | .negInf, _ | _, .inf => false
  | .finite p, .finite q => decide (q ≤ p)

/-- `a > b`. -/
def gt : PyFloat → PyFloat → Bool
  | .nan, _ | _, .nan => false
  | .negInf, _ | _, .inf => false
  | .inf, _ | _, .negInf => true
  | .finite p, .finite q => decide (q < p)

/-- `a / 100.0`. -/
def percent : PyFloat → PyFloat
  | .finite q => .finite (q / 100)
  | x => x

/-- The least integer that rounds to no double. -/
def overflow : ℤ := 2 ^ 1024 - 2 ^ 970

/-- The double of an integer. -/
def ofInt (n : ℤ) : Except PyError PyFloat :=
  if overflow ≤ |n| then .error .overflowError else .ok (.finite n)

end PyFloat

namespace Json

/-- `v > 1`. -/
def gtOne (v : Json) : Except PyError Bool :=
  match v.number with
  | some x => .ok (x.gt (.finite 1))
  | none => .error .typeError

/-- `float(v)` of a number. -/
def toFloat : Json → Except PyError PyFloat
  | .bool b => .ok (.finite (if b then 1 else 0))
  | .int n => PyFloat.ofInt n
  | .float x => .ok x
  | _ => .error .typeError

/-- `v / 100.0`. -/
def percent (v : Json) : Except PyError Json := do
  let x ← v.toFloat
  return .float x.percent

/-! ## Equality and order -/

mutual

/-- Equality of the members of a container, which takes one and the same object as equal: the decoder's NaN is one
object. -/
def same : Json → Json → Bool
  | .str s, w => decide (w = .str s)
  | .null, w => decide (w = .null)
  | .arr xs, w => match w with
    | .arr ys => sameItems xs ys
    | _ => false
  | .obj xs, w => match w with
    | .obj ys => decide (xs.length = ys.length) && sameFields xs ys
    | _ => false
  | .bool b, w => decide (w.number = some (.finite (if b then 1 else 0)))
  | .int n, w => decide (w.number = some (.finite n))
  | .float x, w => decide (w.number = some x)

def sameItems : List Json → List Json → Bool
  | [], [] => true
  | x :: xs, y :: ys => same x y && sameItems xs ys
  | _, _ => false

def sameFields : List (PyStr × Json) → List (PyStr × Json) → Bool
  | [], _ => true
  | (k, x) :: xs, ys => match lookup ys k with
    | some y => same x y && sameFields xs ys
    | none => false

end

/-- A list or a dictionary has no hash. -/
def hashable : Json → Bool
  | .arr _ | .obj _ => false
  | _ => true

/-- `v in seen` for a set. -/
def memSet (v : Json) (seen : List Json) : Except PyError Bool :=
  if v.hashable then .ok (seen.any (same v)) else .error .typeError

/-- `v >= w`: numbers, strings, and lists at their first difference. -/
def ge : Json → Json → Except PyError Bool
  | .str s, w => match w with
    | .str t => .ok (decide (t ≤ s))
    | _ => .error .typeError
  | .arr xs, w => match w with
    | .arr ys => geItems xs ys
    | _ => .error .typeError
  | .bool b, w => geNumber (.finite (if b then 1 else 0)) w
  | .int n, w => geNumber (.finite n) w
  | .float x, w => geNumber x w
  | .null, _ | .obj _, _ => .error .typeError
where
  geNumber (x : PyFloat) (w : Json) : Except PyError Bool :=
    match w.number with
    | some y => .ok (x.ge y)
    | none => .error .typeError
  geItems : List Json → List Json → Except PyError Bool
    | _, [] => .ok true
    | [], _ :: _ => .ok false
    | x :: xs, y :: ys => if same x y then geItems xs ys else ge x y

end Json

end FavoniusBackend.Lib.PyJson
