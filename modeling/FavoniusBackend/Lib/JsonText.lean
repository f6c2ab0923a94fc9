import FavoniusBackend.Lib.Dict
import FavoniusBackend.Lib.PyJson

/-!
# Decoding a JSON text

`loads` cuts a text into tokens and feeds them to a parser that keeps its open lists and dictionaries on a stack, so the
first thing wrong with the text is the exception that it raises.  The decoder takes `NaN` and the infinities for floats,
refuses an integer of more than 4300 digits with a `ValueError` of its own kind, and joins two escapes that are a
surrogate pair.

`tokens` counts down; `tokens_eq` is its equation without the count.
-/

namespace FavoniusBackend.Lib.JsonText

open Lib.PyJson

/-! ## Tokens -/

inductive Token where
  | lbrace
  | rbrace
  | lbracket
  | rbracket
  | colon
  | comma
  | str (s : PyStr)
  | scalar (v : Except PyError Json)
  | bad

def isSpace (c : Char) : Bool := c == ' ' || c == '\t' || c == '\n' || c == '\r'

def hexDigit (c : Char) : Option ℕ :=
  if '0' ≤ c ∧ c ≤ '9' then some (c.toNat - '0'.toNat)
  else if 'a' ≤ c ∧ c ≤ 'f' then some (c.toNat - 'a'.toNat + 10)
  else if 'A' ≤ c ∧ c ≤ 'F' then some (c.toNat - 'A'.toNat + 10)
  else none

def hex4 (a b c d : Char) : Option ℕ := do
  let a ← hexDigit a
  let b ← hexDigit b
  let c ← hexDigit c
  let d ← hexDigit d
  return ((a * 16 + b) * 16 + c) * 16 + d

def escape : Char → Option ℕ
  | '"' => some 34
  | '\\' => some 92
  | '/' => some 47
  | 'b' => some 8
  | 'f' => some 12
  | 'n' => some 10
  | 'r' => some 13
  | 't' => some 9
  | _ => none

/-- Put a code point in front of what was scanned. -/
def cons (c : Option ℕ) (scanned : Option (PyStr × List Char)) : Option (PyStr × List Char) := do
  let c ← c
  let (s, rest) ← scanned
  return (c :: s, rest)

def scanString : List Char → Option (PyStr × List Char)
  | [] => none
  | '"' :: rest => some ([], rest)
  | '\\' :: 'u' :: a :: b :: c :: d :: rest => cons (hex4 a b c d) (scanString rest)
  | '\\' :: e :: rest => cons (escape e) (scanString rest)
  | c :: rest => cons (if c.toNat < 32 then none else some c.toNat) (scanString rest)

def joinSurrogates : PyStr → PyStr
  | high :: low :: rest =>
    if 0xD800 ≤ high ∧ high ≤ 0xDBFF ∧ 0xDC00 ≤ low ∧ low ≤ 0xDFFF then
      (0x10000 + (high - 0xD800) * 0x400 + (low - 0xDC00)) :: joinSurrogates rest
    else high :: joinSurrogates (low :: rest)
  | s => s

def takeDigits : List Char → List ℕ × List Char
  | [] => ([], [])
  | c :: rest =>
    if '0' ≤ c ∧ c ≤ '9' then
      let (ds, rest') := takeDigits rest
      ((c.toNat - '0'.toNat) :: ds, rest')
    else ([], c :: rest)

def digitsValue (ds : List ℕ) : ℕ := ds.foldl (fun n d => 10 * n + d) 0

/-- The digits before the point: a zero stands alone. -/
def scanInt : List Char → List ℕ × List Char
  | '0' :: rest => ([0], rest)
  | cs => takeDigits cs

def scanFraction (cs : List Char) : List ℕ × List Char :=
  match cs with
  | '.' :: rest =>
    match takeDigits rest with
    | ([], _) => ([], cs)
    | (ds, rest') => (ds, rest')
  | _ => ([], cs)

def scanMinus : List Char → ℤ × List Char
  | '-' :: rest => (-1, rest)
  | cs => (1, cs)

def scanSign : List Char → ℤ × List Char
  | '-' :: rest => (-1, rest)
  | '+' :: rest => (1, rest)
  | cs => (1, cs)

def scanExponent (cs : List Char) : Option ℤ × List Char :=
  match cs with
  | c :: rest =>
    if c = 'e' ∨ c = 'E' then
      match takeDigits (scanSign rest).2 with
      | ([], _) => (none, cs)
      | (ds, rest') => (some ((scanSign rest).1 * digitsValue ds), rest')
    else (none, cs)
  | [] => (none, cs)

/-- The float nearest to a decimal number; rounding is left out. -/
def floatOf (q : ℚ) : PyFloat :=
  if (PyFloat.overflow : ℚ) ≤ q then .inf else if q ≤ -(PyFloat.overflow : ℚ) then .negInf else .finite q

def maxStrDigits : ℕ := 4300

/-- The number of the digits before and after the point: an integer unless there is a fraction or an exponent. -/
def numberValue (sign : ℤ) (ds fs : List ℕ) (exponent : Option ℤ) : Except PyError Json :=
  match fs, exponent with
  | [], none => if maxStrDigits < ds.length then .error .valueError else .ok (.int (sign * digitsValue ds))
  | _, _ =>
    .ok (.float (floatOf ((sign * digitsValue (ds ++ fs) : ℤ) * 10 ^ (exponent.getD 0 - (fs.length : ℤ)))))

def scanNumber (cs : List Char) : Option (Except PyError Json × List Char) :=
  let (sign, cs) := scanMinus cs
  let (ds, cs) := scanInt cs
  let (fs, cs) := scanFraction cs
  let (exponent, cs) := scanExponent cs
  if ds = [] then none else some (numberValue sign ds fs exponent, cs)

/-- The token at the head of a text that starts with no space. -/
def next : List Char → Token × List Char
  | '{' :: rest => (.lbrace, rest)
  | '}' :: rest => (.rbrace, rest)
  | '[' :: rest => (.lbracket, rest)
  | ']' :: rest => (.rbracket, rest)
  | ':' :: rest => (.colon, rest)
  | ',' :: rest => (.comma, rest)
  | '"' :: rest =>
    match scanString rest with
    | some (s, rest') => (.str (joinSurrogates s), rest')
    | none => (.bad, [])
  | 'n' :: 'u' :: 'l' :: 'l' :: rest => (.scalar (.ok .null), rest)
  | 't' :: 'r' :: 'u' :: 'e' :: rest => (.scalar (.ok (.bool true)), rest)
  | 'f' :: 'a' :: 'l' :: 's' :: 'e' :: rest => (.scalar (.ok (.bool false)), rest)
  | 'N' :: 'a' :: 'N' :: rest => (.scalar (.ok (.float .nan)), rest)
  | 'I' :: 'n' :: 'f' :: 'i' :: 'n' :: 'i' :: 't' :: 'y' :: rest => (.scalar (.ok (.float .inf)), rest)
  | '-' :: 'I' :: 'n' :: 'f' :: 'i' :: 'n' :: 'i' :: 't' :: 'y' :: rest => (.scalar (.ok (.float .negInf)), rest)
  | cs =>
    match scanNumber cs with
    | some (v, rest) => (.scalar v, rest)
    | none => (.bad, [])

def tokensFuel : ℕ → List Char → List Token
  | 0, _ => []
  | n + 1, cs =>
    match cs.dropWhile isSpace with
    | [] => []
    | c :: rest => (next (c :: rest)).1 :: tokensFuel n (next (c :: rest)).2

def tokens (cs : List Char) : List Token := tokensFuel cs.length cs

/-! ## The parser -/

/-- A list or a dictionary that is still open. -/
inductive Frame where
  | items (xs : List Json)
  | fields (fs : List (PyStr × Json)) (key : PyStr)

inductive Expect where
  | value
  | firstItem
  | firstKey
  | key
  | colon
  | delimiter
  | finished
  deriving DecidableEq

structure Parser where
  stack : List Frame
  expect : Expect
  result : Json := .null

/-- A value is complete: it goes into what is open around it. -/
def deliver (v : Json) : List Frame → Parser
  | [] => { stack := [], expect := .finished, result := v }
  | .items xs :: stack => { stack := .items (xs ++ [v]) :: stack, expect := .delimiter }
  | .fields fs key :: stack => { stack := .fields (Dict.assign fs key v) key :: stack, expect := .delimiter }

def step (p : Parser) (t : Token) : Except PyError Parser :=
  match p.expect, t, p.stack with
  | .value, .scalar v, stack | .firstItem, .scalar v, stack => v.map fun v => deliver v stack
  | .value, .str s, stack | .firstItem, .str s, stack => .ok (deliver (.str s) stack)
  | .value, .lbracket, stack | .firstItem, .lbracket, stack =>
    .ok { stack := .items [] :: stack, expect := .firstItem }
  | .value, .lbrace, stack | .firstItem, .lbrace, stack =>
    .ok { stack := .fields [] [] :: stack, expect := .firstKey }
  | .firstItem, .rbracket, .items xs :: stack | .delimiter, .rbracket, .items xs :: stack =>
    .ok (deliver (.arr xs) stack)
  | .firstKey, .rbrace, .fields fs _ :: stack | .delimiter, .rbrace, .fields fs _ :: stack =>
    .ok (deliver (.obj fs) stack)
  | .firstKey, .str s, .fields fs _ :: stack | .key, .str s, .fields fs _ :: stack =>
    .ok { stack := .fields fs s :: stack, expect := .colon }
  | .colon, .colon, stack => .ok { stack, expect := .value }
  | .delimiter, .comma, .items xs :: stack => .ok { stack := .items xs :: stack, expect := .value }
  | .delimiter, .comma, .fields fs key :: stack => .ok { stack := .fields fs key :: stack, expect := .key }
  | _, _, _ => .error .jsonDecodeError

/-- A step where no more than `depth` lists and dictionaries may be open; one more exceeds the recursion limit. -/
def stepWithin (depth : ℕ) (p : Parser) (t : Token) : Except PyError Parser :=
  match t, p.expect with
  | .lbracket, .value | .lbracket, .firstItem | .lbrace, .value | .lbrace, .firstItem =>
    if p.stack.length < depth then step p t else .error .recursionError
  | _, _ => step p t

def decodeWith (step : Parser → Token → Except PyError Parser) (text : String) : Except PyError Json := do
  match text.toList with
  | '\uFEFF' :: _ => .error .jsonDecodeError
  | cs =>
    let p ← (tokens cs).foldlM step { stack := [], expect := .value }
    if p.expect = .finished then .ok p.result else .error .jsonDecodeError

def loads (text : String) : Except PyError Json := decodeWith step text

/-- `json.loads(text)`, where the recursion limit leaves room for `depth` lists and dictionaries inside one another. -/
def loadsWithin (depth : ℕ) (text : String) : Except PyError Json := decodeWith (stepWithin depth) text

theorem decodeWith_of_toList {step : Parser → Token → Except PyError Parser} {text : String} {cs : List Char}
    (h : text.toList = cs) (hmark : cs.head? ≠ some '\uFEFF') :
    decodeWith step text = (tokens cs).foldlM step { stack := [], expect := .value } >>= fun p =>
      if p.expect = .finished then .ok p.result else .error .jsonDecodeError := by
  unfold decodeWith
  rw [h]
  split
  · exact absurd rfl hmark
  · rfl

/-! ## The count of the tokens -/

theorem cons_eq_some {c : Option ℕ} {scanned : Option (PyStr × List Char)} {s : PyStr} {rest : List Char}
    (h : cons c scanned = some (s, rest)) : ∃ s', scanned = some (s', rest) := by
  obtain ⟨c', -, h⟩ := Option.bind_eq_some_iff.mp h
  obtain ⟨⟨s', rest'⟩, hscanned, h⟩ := Option.bind_eq_some_iff.mp h
  cases h
  exact ⟨s', hscanned⟩

theorem scanString_length (cs : List Char) {s : PyStr} {rest : List Char} (h : scanString cs = some (s, rest)) :
    rest.length ≤ cs.length := by
  fun_induction scanString cs generalizing s with
  | case1 => exact nomatch h
  | case2 rest' =>
    cases h
    simp
  | case3 a b c d rest' ih =>
    obtain ⟨s', hs'⟩ := cons_eq_some h
    have hle := ih hs'
    simp only [List.length_cons]
    omega
  | case4 e rest' hu ih =>
    obtain ⟨s', hs'⟩ := cons_eq_some h
    have hle := ih hs'
    simp only [List.length_cons]
    omega
  | case5 c rest' hq hu he ih =>
    obtain ⟨s', hs'⟩ := cons_eq_some h
    exact (ih hs').trans (by simp)

theorem takeDigits_length (cs : List Char) : (takeDigits cs).2.length ≤ cs.length := by
  induction cs with
  | nil => exact le_rfl
  | cons c rest ih =>
    rw [takeDigits]
    split
    · exact ih.trans (by simp)
    · exact le_rfl

theorem scanInt_length_lt {cs : List Char} (h : (scanInt cs).1 ≠ []) : (scanInt cs).2.length < cs.length := by
  unfold scanInt at h ⊢
  split at h
  · simp
  · cases cs with
    | nil => exact absurd rfl h
    | cons c rest =>
      rw [takeDigits] at h ⊢
      split
      · exact Nat.lt_succ_of_le (takeDigits_length rest)
      · rename_i hc
        rw [if_neg hc] at h
        exact absurd rfl h

theorem scanFraction_length (cs : List Char) : (scanFraction cs).2.length ≤ cs.length := by
  unfold scanFraction
  split
  · rename_i rest
    have hle := takeDigits_length rest
    split
    · exact le_rfl
    · rename_i ds rest' heq
      rw [heq] at hle
      exact hle.trans (by simp)
  · exact le_rfl

theorem scanMinus_length (cs : List Char) : (scanMinus cs).2.length ≤ cs.length := by
  unfold scanMinus
  split
  · simp
  · exact le_rfl

theorem scanSign_length (cs : List Char) : (scanSign cs).2.length ≤ cs.length := by
  unfold scanSign
  split
  · simp
  · simp
  · exact le_rfl

theorem scanExponent_length (cs : List Char) : (scanExponent cs).2.length ≤ cs.length := by
  unfold scanExponent
  split
  · rename_i c rest
    split
    · have hle := (takeDigits_length (scanSign rest).2).trans (scanSign_length rest)
      split
      · exact le_rfl
      · rename_i ds rest' heq
        rw [heq] at hle
        exact hle.trans (by simp)
    · exact le_rfl
  · exact le_rfl

theorem scanNumber_length {cs : List Char} {v : Except PyError Json} {rest : List Char}
    (h : scanNumber cs = some (v, rest)) : rest.length < cs.length := by
  have hminus := scanMinus_length cs
  have hfraction := scanFraction_length (scanInt (scanMinus cs).2).2
  have hexponent := scanExponent_length (scanFraction (scanInt (scanMinus cs).2).2).2
  unfold scanNumber at h
  simp only at h
  split at h
  · exact nomatch h
  · rename_i hds
    have hint := scanInt_length_lt hds
    obtain ⟨-, rfl⟩ := Prod.mk.inj (Option.some.inj h)
    omega

theorem next_length (c : Char) (cs : List Char) : (next (c :: cs)).2.length ≤ cs.length := by
  unfold next
  split
  case h_7 rest heq =>
    obtain ⟨-, rfl⟩ := List.cons.inj heq
    split
    · rename_i s rest' hscan
      exact scanString_length _ hscan
    · exact Nat.zero_le _
  case h_14 =>
    split
    · rename_i v rest hscan
      exact Nat.le_of_lt_succ (scanNumber_length hscan)
    · exact Nat.zero_le _
  all_goals
    rename_i heq
    obtain ⟨-, rfl⟩ := List.cons.inj heq
    simp only [List.length_cons]
    omega

example : (next ['[', '1', ']']).2 = ['1', ']'] := by decide +kernel

theorem tokensFuel_eq {n m : ℕ} {cs : List Char} (hn : cs.length ≤ n) (hm : cs.length ≤ m) :
    tokensFuel n cs = tokensFuel m cs := by
  induction n generalizing m cs with
  | zero =>
    obtain rfl := List.length_eq_zero_iff.mp (Nat.le_zero.mp hn)
    cases m <;> rfl
  | succ n ih =>
    cases m with
    | zero =>
      obtain rfl := List.length_eq_zero_iff.mp (Nat.le_zero.mp hm)
      rfl
    | succ m =>
      have hspace := (List.dropWhile_suffix (p := isSpace) (l := cs)).length_le
      rw [tokensFuel, tokensFuel]
      split
      · rfl
      · rename_i c rest heq
        have hle := next_length c rest
        rw [heq, List.length_cons] at hspace
        rw [@ih m _ (by omega) (by omega)]

theorem tokens_eq (cs : List Char) :
    tokens cs =
      match cs.dropWhile isSpace with
      | [] => []
      | c :: rest => (next (c :: rest)).1 :: tokens (next (c :: rest)).2 := by
  have hspace := (List.dropWhile_suffix (p := isSpace) (l := cs)).length_le
  rw [tokens, tokensFuel_eq le_rfl (Nat.le_succ cs.length), tokensFuel]
  split
  · rfl
  · rename_i c rest heq
    have hle := next_length c rest
    rw [heq, List.length_cons] at hspace
    rw [tokens, tokensFuel_eq (Nat.le_of_lt_succ (by omega)) le_rfl]

end FavoniusBackend.Lib.JsonText
