import FavoniusBackend.Lib.IpAddress

/-!
# UUIDs

A UUID is a number of 128 bits; its text has five groups of digits of base 16.  `parse` is `uuid.UUID(text)`, which
removes `urn:` and `uuid:`, then braces at the ends, then every hyphen, and reads what is left with `int`,
which takes a sign, a prefix `0x` and single underscores as well.
-/

namespace FavoniusBackend.Lib

open Lib.Text
open Lib.IpAddress (hexValue)

abbrev Uuid := Fin (2 ^ 128)

namespace Uuid

def padded (base : ℕ) : ℕ → ℕ → List Char
  | 0, _ => []
  | width + 1, n => padded base width (n / base) ++ [Nat.digitChar (n % base)]

@[simp] theorem length_padded (base width n : ℕ) : (padded base width n).length = width := by
  induction width generalizing n with
  | zero => rfl
  | succ width ih => rw [padded, List.length_append, ih, List.length_singleton]

theorem exists_digits {base : ℕ} (hpos : 0 < base) (width n : ℕ) :
    ∃ ds : List ℕ, (∀ d ∈ ds, d < base) ∧ padded base width n = ds.map Nat.digitChar ∧
      Nat.ofDigits base ds.reverse = n % base ^ width := by
  induction width generalizing n with
  | zero =>
    refine ⟨[], nofun, rfl, ?_⟩
    rw [pow_zero, Nat.mod_one]
    rfl
  | succ width ih =>
    obtain ⟨ds, hds, htext, hvalue⟩ := ih (n / base)
    refine ⟨ds ++ [n % base], fun d hd => ?_, ?_, ?_⟩
    · rcases List.mem_append.mp hd with hfirst | hlast
      · exact hds d hfirst
      · rw [List.mem_singleton.mp hlast]
        exact Nat.mod_lt n hpos
    · rw [padded, htext, List.map_append]
      rfl
    · rw [List.reverse_append, List.reverse_singleton, List.singleton_append, Nat.ofDigits_cons, hvalue, pow_succ',
        Nat.mod_mul]

theorem mem_padded {base : ℕ} (hpos : 0 < base) {width n : ℕ} {c : Char} (hc : c ∈ padded base width n) :
    ∃ d < base, c = Nat.digitChar d := by
  induction width generalizing n with
  | zero => exact nomatch hc
  | succ width ih =>
    rcases List.mem_append.mp hc with hfirst | hlast
    · exact ih hfirst
    · exact ⟨n % base, Nat.mod_lt n hpos, List.mem_singleton.mp hlast⟩

def text (u : Uuid) : List Char :=
  let digits := padded 16 32 u
  digits.take 8 ++ '-' :: (digits.drop 8).take 4 ++ '-' :: (digits.drop 12).take 4 ++ '-' :: (digits.drop 16).take 4 ++
    '-' :: digits.drop 20

/-- `str.replace(pattern, "")`, with the number of characters that are still to be skipped. -/
def remove (pattern : List Char) : List Char → ℕ → List Char
  | [], _ => []
  | _ :: cs, skip + 1 => remove pattern cs skip
  | c :: cs, 0 =>
    if pattern.isPrefixOf (c :: cs) then remove pattern cs (pattern.length - 1) else c :: remove pattern cs 0

/-- The value of a digit for `int(text, 16)`. -/
def hexDigit (c : Char) : Option ℕ := (hexValue c).orElse fun _ => decimal c

def hexDigits : List Char → Option (List ℕ)
  | [] => none
  | [c] => (hexDigit c).map fun d => [d]
  | c :: '_' :: cs => (hexDigit c).bind fun d => (hexDigits cs).map (d :: ·)
  | c :: cs => (hexDigit c).bind fun d => (hexDigits cs).map (d :: ·)

def hexNumber : List Char → Option ℕ
  | '0' :: x :: cs =>
    (hexDigits (if x = 'x' ∨ x = 'X' then (if cs.head? = some '_' then cs.tail else cs) else '0' :: x :: cs)).map
      fun ds => Nat.ofDigits 16 ds.reverse
  | cs => (hexDigits cs).map fun ds => Nat.ofDigits 16 ds.reverse

/-- `int(text, 16)`, with `none` for its `ValueError`. -/
def hexInt (cs : List Char) : Option ℤ :=
  match stripWhere (fun c => isSpace c && !decide (28 ≤ c.toNat ∧ c.toNat ≤ 31)) cs with
  | '-' :: cs => (hexNumber cs).map fun n => -Int.ofNat n
  | '+' :: cs => (hexNumber cs).map Int.ofNat
  | cs => (hexNumber cs).map Int.ofNat

/-- What is left for `int`. -/
def hexOf (cs : List Char) : List Char :=
  (stripWhere (fun c => c = '{' || c = '}') (remove ['u', 'u', 'i', 'd', ':'] (remove ['u', 'r', 'n', ':'] cs 0) 0)).filter
    (· ≠ '-')

/-- `UUID(text)`, with `none` for its `ValueError`. -/
def parse (cs : List Char) : Option Uuid :=
  if (hexOf cs).length = 32 then
    (hexInt (hexOf cs)).bind fun n => if h : 0 ≤ n ∧ n < 2 ^ 128 then some ⟨n.toNat, by omega⟩ else none
  else none

/-! ## The text of a UUID -/

/-- A digit of base 16 is none of the characters that the check treats in a way of its own. -/
theorem digitChar_plain {d : ℕ} (hd : d < 16) : hexDigit (Nat.digitChar d) = some d ∧ isSpace (Nat.digitChar d) = false ∧
    Nat.digitChar d ∉ ['u', '{', '}', '-', '+', '_', 'x', 'X'] := by
  have hall : ∀ d < 16, hexDigit (Nat.digitChar d) = some d ∧ isSpace (Nat.digitChar d) = false ∧
    Nat.digitChar d ∉ ['u', '{', '}', '-', '+', '_', 'x', 'X'] := by decide
  exact hall d hd

theorem remove_of_not_mem {p : Char} (ps : List Char) {cs : List Char} (h : p ∉ cs) : remove (p :: ps) cs 0 = cs := by
  induction cs with
  | nil => rfl
  | cons c cs ih =>
    have hne : (p == c) = false := beq_eq_false_iff_ne.mpr fun heq => h (heq ▸ List.mem_cons_self)
    rw [remove, List.isPrefixOf, hne, Bool.false_and, if_neg (by decide), ih fun hmem => h (List.mem_cons_of_mem _ hmem)]

theorem hexDigits_map {ds : List ℕ} (hds : ∀ d ∈ ds, d < 16) (hne : ds ≠ []) :
    hexDigits (ds.map Nat.digitChar) = some ds := by
  induction ds with
  | nil => exact absurd rfl hne
  | cons d ds ih =>
    have hd := (digitChar_plain (hds d List.mem_cons_self)).1
    cases ds with
    | nil => rw [List.map_singleton, hexDigits, hd, Option.map_some]
    | cons d' ds =>
      have hplain := (digitChar_plain (hds d' (by simp))).2.2
      have hnot : Nat.digitChar d' ≠ '_' := fun h => hplain (by rw [h]; decide)
      have hrest := ih (fun d hd => hds d (List.mem_cons_of_mem _ hd)) (List.cons_ne_nil _ _)
      rw [List.map_cons, hexDigits, hd, Option.bind_some, hrest, Option.map_some]
      · exact fun h => List.cons_ne_nil _ _ h
      · rintro cs heq
        exact hnot (List.cons.inj heq).1

theorem hexNumber_map {ds : List ℕ} (hds : ∀ d ∈ ds, d < 16) (hne : ds ≠ []) :
    hexNumber (ds.map Nat.digitChar) = some (Nat.ofDigits 16 ds.reverse) := by
  have hdigits := hexDigits_map hds hne
  unfold hexNumber
  split
  · rename_i x cs heq
    have hx : x ∈ ds.map Nat.digitChar := heq ▸ List.mem_cons_of_mem _ List.mem_cons_self
    obtain ⟨d, hd, rfl⟩ := List.mem_map.mp hx
    have hplain := (digitChar_plain (hds d hd)).2.2
    rw [if_neg, ← heq, hdigits, Option.map_some]
    rintro (h | h)
    · exact hplain (by rw [h]; decide)
    · exact hplain (by rw [h]; decide)
  · rw [hdigits, Option.map_some]

theorem hexInt_map {ds : List ℕ} (hds : ∀ d ∈ ds, d < 16) (hne : ds ≠ []) :
    hexInt (ds.map Nat.digitChar) = some (Int.ofNat (Nat.ofDigits 16 ds.reverse)) := by
  have hnumber := hexNumber_map hds hne
  have hplain : ∀ c ∈ ds.map Nat.digitChar, isSpace c = false ∧ c ∉ ['u', '{', '}', '-', '+', '_', 'x', 'X'] := by
    intro c hc
    obtain ⟨d, hd, rfl⟩ := List.mem_map.mp hc
    exact (digitChar_plain (hds d hd)).2
  unfold hexInt
  rw [stripWhere_eq_self fun c hc => by rw [(hplain c hc).1, Bool.false_and]]
  split
  · rename_i cs heq
    exact absurd (by decide) ((hplain '-' (heq ▸ List.mem_cons_self)).2)
  · rename_i cs heq
    exact absurd (by decide) ((hplain '+' (heq ▸ List.mem_cons_self)).2)
  · rw [hnumber, Option.map_some]

theorem groups_append (ds : List Char) : ds.take 8 ++ (ds.drop 8).take 4 ++ (ds.drop 12).take 4 ++ (ds.drop 16).take 4 ++
    ds.drop 20 = ds := by
  have hgroup : ∀ n, (ds.drop n).take 4 ++ ds.drop (n + 4) = ds.drop n := by
    intro n
    rw [← List.drop_drop, List.take_append_drop]
  rw [List.append_assoc _ _ (ds.drop 20), hgroup 16, List.append_assoc _ _ (ds.drop 16), hgroup 12,
    List.append_assoc _ _ (ds.drop 12), hgroup 8, List.take_append_drop]

theorem mem_text {u : Uuid} {c : Char} (hc : c ∈ text u) : c = '-' ∨ c ∈ padded 16 32 (u : ℕ) := by
  simp only [text, List.mem_append, List.mem_cons] at hc
  rcases hc with (((hc | hc | hc) | hc | hc) | hc | hc) | hc | hc
  · exact .inr (List.mem_of_mem_take hc)
  · exact .inl hc
  · exact .inr (List.mem_of_mem_drop (List.mem_of_mem_take hc))
  · exact .inl hc
  · exact .inr (List.mem_of_mem_drop (List.mem_of_mem_take hc))
  · exact .inl hc
  · exact .inr (List.mem_of_mem_drop (List.mem_of_mem_take hc))
  · exact .inl hc
  · exact .inr (List.mem_of_mem_drop hc)

theorem hexOf_text (u : Uuid) : hexOf (text u) = padded 16 32 (u : ℕ) := by
  have hplain : ∀ c ∈ padded 16 32 (u : ℕ), c ∉ ['u', '{', '}', '-', '+', '_', 'x', 'X'] := by
    intro c hc
    obtain ⟨d, hd, rfl⟩ := mem_padded (by decide) hc
    exact (digitChar_plain hd).2.2
  have hkeep : ∀ cs : List Char, cs.Sublist (padded 16 32 (u : ℕ)) → cs.filter (· ≠ '-') = cs := by
    intro cs hcs
    refine List.filter_eq_self.mpr fun c hc => decide_eq_true ?_
    rintro rfl
    exact hplain _ (hcs.subset hc) (by decide)
  have hnot : ∀ c, c ∈ ['u', '{', '}'] → c ∉ text u := by
    intro c hc hin
    rcases mem_text hin with rfl | hdigit
    · exact absurd hc (by decide)
    · exact hplain c hdigit (List.mem_append_left ['-', '+', '_', 'x', 'X'] hc)
  have hfilter : (text u).filter (· ≠ '-') = padded 16 32 (u : ℕ) := by
    simp only [text, List.filter_append, List.filter_cons, decide_eq_true_eq, ne_eq, not_true_eq_false, if_false]
    have hgroup : ∀ n, (((padded 16 32 (u : ℕ)).drop n).take 4).filter (· ≠ '-') = ((padded 16 32 (u : ℕ)).drop n).take 4 :=
      fun n => hkeep _ ((List.take_sublist _ _).trans (List.drop_sublist _ _))
    rw [hkeep _ (List.take_sublist _ _), hgroup 8, hgroup 12, hgroup 16, hkeep _ (List.drop_sublist _ _)]
    exact groups_append _
  unfold hexOf
  rw [remove_of_not_mem _ (hnot 'u' (by decide)), remove_of_not_mem _ (hnot 'u' (by decide)), stripWhere_eq_self, hfilter]
  intro c hc
  have hopen : c ≠ '{' := fun h => hnot c (by rw [h]; decide) hc
  have hclose : c ≠ '}' := fun h => hnot c (by rw [h]; decide) hc
  simp [hopen, hclose]

theorem parse_text (u : Uuid) : parse (text u) = some u := by
  obtain ⟨ds, hds, hdigits, hvalue⟩ := @exists_digits 16 (by decide) 32 u
  have hlength : (padded 16 32 (u : ℕ)).length = 32 := length_padded _ _ _
  have hne : ds ≠ [] := by
    rintro rfl
    rw [hdigits] at hlength
    exact nomatch hlength
  have hu : (u : ℕ) < 16 ^ 32 := u.isLt
  have hrange : (0 : ℤ) ≤ Int.ofNat (u : ℕ) ∧ Int.ofNat (u : ℕ) < 2 ^ 128 := by
    refine ⟨Int.natCast_nonneg (u : ℕ), ?_⟩
    show ((u : ℕ) : ℤ) < 2 ^ 128
    exact_mod_cast u.isLt
  unfold parse
  rw [hexOf_text, if_pos hlength, hdigits, hexInt_map hds hne, hvalue, Nat.mod_eq_of_lt hu, Option.bind_some,
    dif_pos hrange]
  rfl

end Uuid

end FavoniusBackend.Lib
