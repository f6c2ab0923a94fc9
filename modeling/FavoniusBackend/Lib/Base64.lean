import Mathlib.Tactic.NormNum

/-!
# Python's base64

`urlsafe_b64encode` and `urlsafe_b64decode`.  The decoder skips what is not in the alphabet, takes both alphabets, and stops
at padding that completes a group.  Decoding what was encoded gives the bytes back (`decode_encode`).
-/

namespace FavoniusBackend.Lib.Base64

/-- The character of six bits. -/
def digit (d : ℕ) : Char :=
  if d < 26 then Char.ofNat (65 + d)
  else if d < 52 then Char.ofNat (97 + (d - 26))
  else if d < 62 then Char.ofNat (48 + (d - 52))
  else if d = 62 then '-'
  else '_'

/-- The six bits of a character. -/
def sextet (c : Char) : Option ℕ :=
  if 'A' ≤ c ∧ c ≤ 'Z' then some (c.toNat - 65)
  else if 'a' ≤ c ∧ c ≤ 'z' then some (c.toNat - 97 + 26)
  else if '0' ≤ c ∧ c ≤ '9' then some (c.toNat - 48 + 52)
  else if c = '-' ∨ c = '+' then some 62
  else if c = '_' ∨ c = '/' then some 63
  else none

/-- `base64.urlsafe_b64encode(bytes)`. -/
def encode : List UInt8 → List Char
  | a :: b :: c :: rest =>
    digit (a.toNat / 4) :: digit (a.toNat % 4 * 16 + b.toNat / 16) :: digit (b.toNat % 16 * 4 + c.toNat / 64) ::
      digit (c.toNat % 64) :: encode rest
  | [a, b] => [digit (a.toNat / 4), digit (a.toNat % 4 * 16 + b.toNat / 16), digit (b.toNat % 16 * 4), '=']
  | [a] => [digit (a.toNat / 4), digit (a.toNat % 4 * 16), '=', '=']
  | [] => []

/-- The decoder, with its place in the group, the bits that are left over and the padding seen. -/
def scan : ℕ → ℕ → ℕ → List Char → Option (List UInt8)
  | place, _, _, [] => if place = 0 then some [] else none
  | place, left, pads, c :: cs =>
    if c = '=' then
      (if place < 2 then scan place left pads cs
      else if 4 ≤ place + (pads + 1) then some []
      else scan place left (pads + 1) cs)
    else
      match sextet c with
      | none => scan place left pads cs
      | some d =>
        match place with
        | 0 => scan 1 d 0 cs
        | 1 => (scan 2 (d % 16) 0 cs).map (UInt8.ofNat (left * 4 + d / 16) :: ·)
        | 2 => (scan 3 (d % 4) 0 cs).map (UInt8.ofNat (left * 16 + d / 4) :: ·)
        | _ => (scan 0 0 0 cs).map (UInt8.ofNat (left * 64 + d) :: ·)

/-- `base64.urlsafe_b64decode(text)`, with `none` for its `binascii.Error`. -/
def decode (cs : List Char) : Option (List UInt8) := scan 0 0 0 cs

example : decode [] = some [] := by simp only [decode, scan, if_true]

theorem sextet_digit {d : ℕ} (hd : d < 64) : sextet (digit d) = some d := by
  have hall : ∀ d < 64, sextet (digit d) = some d := by decide
  exact hall d hd

theorem digit_ne_pad {d : ℕ} (hd : d < 64) : digit d ≠ '=' := by
  have hall : ∀ d < 64, digit d ≠ '=' := by decide
  exact hall d hd

theorem ofNat_eq {n : ℕ} {a : UInt8} (h : n = a.toNat) : UInt8.ofNat n = a := by
  rw [h, UInt8.ofNat_toNat]

section Scan

variable {d : ℕ} (hd : d < 64) (left pads : ℕ) (cs : List Char)
include hd

theorem scan_first : scan 0 left pads (digit d :: cs) = scan 1 d 0 cs := by
  simp only [scan, if_neg (digit_ne_pad hd), sextet_digit hd]

theorem scan_second : scan 1 left pads (digit d :: cs) =
    (scan 2 (d % 16) 0 cs).map (UInt8.ofNat (left * 4 + d / 16) :: ·) := by
  simp only [scan, if_neg (digit_ne_pad hd), sextet_digit hd]

theorem scan_third : scan 2 left pads (digit d :: cs) =
    (scan 3 (d % 4) 0 cs).map (UInt8.ofNat (left * 16 + d / 4) :: ·) := by
  simp only [scan, if_neg (digit_ne_pad hd), sextet_digit hd]

theorem scan_fourth : scan 3 left pads (digit d :: cs) = (scan 0 0 0 cs).map (UInt8.ofNat (left * 64 + d) :: ·) := by
  simp only [scan, if_neg (digit_ne_pad hd), sextet_digit hd]

end Scan

theorem decode_encode (bytes : List UInt8) : decode (encode bytes) = some bytes := by
  unfold decode
  induction bytes using encode.induct with
  | case1 a b c rest ih =>
    have ha := a.toNat_lt
    have hb := b.toNat_lt
    have hc := c.toNat_lt
    rw [encode, scan_first (by omega), scan_second (by omega), scan_third (by omega), scan_fourth (by omega), ih,
      ofNat_eq (a := a) (by omega), ofNat_eq (a := b) (by omega), ofNat_eq (a := c) (by omega)]
    rfl
  | case2 a b =>
    have ha := a.toNat_lt
    have hb := b.toNat_lt
    rw [encode, scan_first (by omega), scan_second (by omega), scan_third (by omega),
      ofNat_eq (a := a) (by omega), ofNat_eq (a := b) (by omega)]
    rfl
  | case3 a =>
    have ha := a.toNat_lt
    rw [encode, scan_first (by omega), scan_second (by omega), ofNat_eq (a := a) (by omega)]
    rfl
  | case4 => rfl

theorem encode_ne_nil {bytes : List UInt8} (h : bytes ≠ []) : encode bytes ≠ [] := by
  intro hnil
  have hdecode := decode_encode bytes
  rw [hnil] at hdecode
  exact h (Option.some.inj hdecode).symm

/-- What holds of the digits and of the padding holds of what was encoded. -/
theorem forall_mem_encode {P : Char → Prop} (hdigit : ∀ d < 64, P (digit d)) (hpad : P '=') (bytes : List UInt8) :
    ∀ c ∈ encode bytes, P c := by
  induction bytes using encode.induct with
  | case1 a b c rest ih =>
    have ha := a.toNat_lt
    have hb := b.toNat_lt
    have hc := c.toNat_lt
    rw [encode]
    simp only [List.forall_mem_cons]
    exact ⟨hdigit _ (by omega), hdigit _ (by omega), hdigit _ (by omega), hdigit _ (by omega), ih⟩
  | case2 a b =>
    have ha := a.toNat_lt
    have hb := b.toNat_lt
    rw [encode]
    simp only [List.forall_mem_cons]
    exact ⟨hdigit _ (by omega), hdigit _ (by omega), hdigit _ (by omega), hpad, nofun⟩
  | case3 a =>
    have ha := a.toNat_lt
    rw [encode]
    simp only [List.forall_mem_cons]
    exact ⟨hdigit _ (by omega), hdigit _ (by omega), hpad, hpad, nofun⟩
  | case4 => exact fun c hc => absurd hc List.not_mem_nil

theorem encode_ascii (bytes : List UInt8) : ∀ c ∈ encode bytes, c.toNat < 128 :=
  forall_mem_encode (by decide) (by decide) bytes

end FavoniusBackend.Lib.Base64
