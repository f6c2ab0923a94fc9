import FavoniusBackend.Lib.PyText

/-!
# UTF-8 of code points

`str.encode()`, for texts that may hold half of a surrogate pair: that half has no encoding.  Words and their parts, for
the headers that are made of them.
-/

namespace FavoniusBackend.Lib.PyText

open Lib.PyJson

/-! ## Encoding -/

def IsSurrogate (c : ℕ) : Prop := 0xD800 ≤ c ∧ c ≤ 0xDFFF

instance (c : ℕ) : Decidable (IsSurrogate c) := inferInstanceAs (Decidable (_ ∧ _))

def utf8Bytes (c : ℕ) : List UInt8 :=
  if c < 0x80 then [UInt8.ofNat c]
  else if c < 0x800 then [UInt8.ofNat (0xC0 + c / 64), UInt8.ofNat (0x80 + c % 64)]
  else if c < 0x10000 then
    [UInt8.ofNat (0xE0 + c / 4096), UInt8.ofNat (0x80 + c / 64 % 64), UInt8.ofNat (0x80 + c % 64)]
  else
    [UInt8.ofNat (0xF0 + c / 262144), UInt8.ofNat (0x80 + c / 4096 % 64), UInt8.ofNat (0x80 + c / 64 % 64),
      UInt8.ofNat (0x80 + c % 64)]

/-- `s.encode()`; a `UnicodeEncodeError` is a `ValueError`. -/
def utf8 : PyStr → Except PyError (List UInt8)
  | [] => .ok []
  | c :: s => if IsSurrogate c then .error .valueError else (utf8 s).map (utf8Bytes c ++ ·)

/-- The text has an encoding. -/
def Encodable (s : PyStr) : Prop := ∀ c ∈ s, ¬ IsSurrogate c

theorem utf8_of_encodable {s : PyStr} (h : Encodable s) : utf8 s = .ok (s.flatMap utf8Bytes) := by
  induction s with
  | nil => rfl
  | cons c s ih =>
    have hrest := ih fun d hd => h d (List.mem_cons_of_mem c hd)
    rw [utf8, if_neg (h c List.mem_cons_self), hrest, List.flatMap_cons]
    rfl

theorem utf8_of_not_encodable {s : PyStr} (h : ¬ Encodable s) : utf8 s = .error .valueError := by
  induction s with
  | nil => exact absurd (fun c hc => absurd hc List.not_mem_nil) h
  | cons c s ih =>
    rw [utf8]
    split
    · rfl
    · rename_i hc
      have hrest : ¬ Encodable s := fun hs => h (List.forall_mem_cons.mpr ⟨hc, hs⟩)
      rw [ih hrest]
      rfl

theorem encodable_append {s t : PyStr} : Encodable (s ++ t) ↔ Encodable s ∧ Encodable t := List.forall_mem_append

/-- A text of characters has no half of a surrogate pair. -/
theorem encodable_py (s : String) : Encodable (py s) := by
  intro c hc hsurrogate
  obtain ⟨ch, -, rfl⟩ := List.mem_map.mp hc
  have hvalid : ch.toNat < 0xD800 ∨ 0xDFFF < ch.toNat ∧ ch.toNat < 0x110000 := ch.valid
  have hrange : 0xD800 ≤ ch.toNat ∧ ch.toNat ≤ 0xDFFF := hsurrogate
  omega

/-! ## ASCII -/

def IsAscii (s : PyStr) : Prop := ∀ c ∈ s, c < 128

instance (s : PyStr) : Decidable (IsAscii s) := inferInstanceAs (Decidable (∀ c ∈ s, c < 128))

/-! ## Words -/

def split (s : PyStr) : List PyStr := (s.splitOnP isSpace).filter (· ≠ [])

/-- `s.partition(sep)`: the text before the first separator, and the one after it, if there is one. -/
def partition (sep : ℕ) (s : PyStr) : PyStr × Option PyStr :=
  (s.takeWhile (· != sep), if sep ∈ s then some (s.dropWhile (· != sep)).tail else none)

theorem split_of_forall {w : PyStr} (hw : ∀ c ∈ w, isSpace c = false) (hne : w ≠ []) : split w = [w] := by
  rw [split, List.splitOnP_eq_singleton hw]
  exact List.filter_cons_of_pos (decide_eq_true hne)

theorem split_append_cons {w : PyStr} (hw : ∀ c ∈ w, isSpace c = false) (hne : w ≠ []) {sep : ℕ}
    (hsep : isSpace sep = true) (s : PyStr) : split (w ++ sep :: s) = w :: split s := by
  rw [split, List.splitOnP_append_cons_of_forall_mem hw sep hsep]
  exact List.filter_cons_of_pos (decide_eq_true hne)

theorem partition_append {sep : ℕ} {before : PyStr} (h : sep ∉ before) (rest : PyStr) :
    partition sep (before ++ sep :: rest) = (before, some rest) := by
  have hall : ∀ c ∈ before, (c != sep) = true := by
    intro c hc
    rw [bne_iff_ne]
    exact fun heq => h (heq ▸ hc)
  rw [partition, if_pos (List.mem_append_right _ List.mem_cons_self), List.takeWhile_append_of_pos hall,
    List.dropWhile_append_of_pos hall]
  simp

end FavoniusBackend.Lib.PyText
