import Mathlib.Tactic
import FavoniusBackend.Lib.Text

/-!
# Python's IP addresses

`ip_address` reads an address of version 4 or 6 from a text, `str` writes its canonical text.  A text is the list of
its characters.  Reading what was written gives the address back (`parse_str`).
-/

namespace FavoniusBackend.Lib.IpAddress

/-! ## Numerals -/

def hexValue (c : Char) : Option ℕ :=
  if '0' ≤ c ∧ c ≤ '9' then some (c.toNat - 48)
  else if 'a' ≤ c ∧ c ≤ 'f' then some (c.toNat - 87)
  else if 'A' ≤ c ∧ c ≤ 'F' then some (c.toNat - 55)
  else none

def digit (base : ℕ) (c : Char) : Option ℕ := (hexValue c).filter fun d => decide (d < base)

def numeral (base : ℕ) : ℕ → List Char → Option ℕ
  | n, [] => some n
  | n, c :: cs => (digit base c).bind fun d => numeral base (base * n + d) cs

theorem numeral_append (base n : ℕ) (cs ds : List Char) :
    numeral base n (cs ++ ds) = (numeral base n cs).bind fun m => numeral base m ds := by
  induction cs generalizing n with
  | nil => rfl
  | cons c cs ih =>
    show ((digit base c).bind fun d => numeral base (base * n + d) (cs ++ ds)) =
      ((digit base c).bind fun d => numeral base (base * n + d) cs).bind fun m => numeral base m ds
    cases digit base c with
    | none => rfl
    | some d => exact ih (base * n + d)

theorem digit_digitChar {base d : ℕ} (hbase : base ≤ 16) (hd : d < base) :
    digit base (Nat.digitChar d) = some d := by
  have hvalue : ∀ d < 16, hexValue (Nat.digitChar d) = some d := by decide
  rw [digit, hvalue d (hd.trans_le hbase)]
  simpa using hd

theorem numeral_toDigits {base : ℕ} (hone : 1 < base) (hbase : base ≤ 16) (n : ℕ) :
    numeral base 0 (Nat.toDigits base n) = some n := by
  induction n using Nat.strong_induction_on with
  | _ n ih =>
    rw [Nat.toDigits_eq_if hone]
    split
    · rename_i hlt
      show (digit base (Nat.digitChar n)).bind (fun d => some (base * 0 + d)) = some n
      rw [digit_digitChar hbase hlt]
      simp
    · rename_i hge
      have hpos : 0 < n := by omega
      rw [numeral_append, ih (n / base) (Nat.div_lt_self hpos hone)]
      show (digit base (Nat.digitChar (n % base))).bind (fun d => some (base * (n / base) + d)) = some n
      rw [digit_digitChar hbase (Nat.mod_lt n (by omega))]
      exact congrArg some (Nat.div_add_mod n base)

theorem hexValue_of_numeral {base n m : ℕ} {cs : List Char} (h : numeral base n cs = some m) {c : Char}
    (hc : c ∈ cs) : hexValue c ≠ none := by
  induction cs generalizing n with
  | nil => cases hc
  | cons c' cs ih =>
    obtain ⟨d, hd, hrest⟩ := Option.bind_eq_some_iff.mp h
    rcases List.mem_cons.mp hc with rfl | hmem
    · intro hnone
      rw [digit, hnone] at hd
      cases hd
    · exact ih hrest hmem

/-! ## Version 4 -/

def parseOctet (cs : List Char) : Option (Fin 256) :=
  if cs = [] ∨ 3 < cs.length ∨ cs ≠ ['0'] ∧ cs.head? = some '0' then none
  else (numeral 10 0 cs).bind fun n => if h : n < 256 then some ⟨n, h⟩ else none

def octetText (o : Fin 256) : List Char := Nat.toDigits 10 o

theorem parseOctet_octetText (o : Fin 256) : parseOctet (octetText o) = some o := by
  have hshape : ∀ o, ¬ (octetText o = [] ∨ 3 < (octetText o).length ∨
      octetText o ≠ ['0'] ∧ (octetText o).head? = some '0') := by decide +kernel
  rw [parseOctet, if_neg (hshape o), octetText, numeral_toDigits (by decide) (by decide)]
  exact dif_pos o.isLt

example : parseOctet ['2', '5', '6'] = none := by decide +kernel

theorem hexValue_of_parseOctet {cs : List Char} {o : Fin 256} (h : parseOctet cs = some o) {c : Char} (hc : c ∈ cs) :
    hexValue c ≠ none := by
  unfold parseOctet at h
  split at h
  · cases h
  · obtain ⟨n, hn, -⟩ := Option.bind_eq_some_iff.mp h
    exact hexValue_of_numeral hn hc

theorem hexValue_of_mem_octetText {o : Fin 256} {c : Char} (hc : c ∈ octetText o) : hexValue c ≠ none :=
  hexValue_of_parseOctet (parseOctet_octetText o) hc

/-- An `IPv4Address`, by its octets. -/
structure V4 where
  a : Fin 256
  b : Fin 256
  c : Fin 256
  d : Fin 256
  deriving DecidableEq, Repr

/-- The address as an integer. -/
def V4.value (x : V4) : ℕ := ((x.a * 256 + x.b) * 256 + x.c) * 256 + x.d

def V4.parse (cs : List Char) : Option V4 :=
  match cs.splitOn '.' with
  | [a, b, c, d] =>
    (parseOctet a).bind fun a => (parseOctet b).bind fun b => (parseOctet c).bind fun c =>
      (parseOctet d).map fun d => ⟨a, b, c, d⟩
  | _ => none

def V4.str (x : V4) : List Char := ['.'].intercalate [octetText x.a, octetText x.b, octetText x.c, octetText x.d]

theorem V4.parse_str (x : V4) : V4.parse x.str = some x := by
  have hdot : ∀ part ∈ [octetText x.a, octetText x.b, octetText x.c, octetText x.d], '.' ∉ part := by
    intro part hpart hmem
    simp only [List.mem_cons, List.not_mem_nil, or_false] at hpart
    rcases hpart with rfl | rfl | rfl | rfl
    all_goals exact absurd rfl (hexValue_of_mem_octetText hmem)
  unfold V4.parse V4.str
  rw [List.splitOn_intercalate '.' hdot (by simp)]
  simp [parseOctet_octetText]

theorem mem_of_mem_intercalate {c sep : Char} {parts : List (List Char)} (h : c ∈ [sep].intercalate parts) :
    c = sep ∨ ∃ part ∈ parts, c ∈ part := by
  induction parts with
  | nil => simp at h
  | cons part parts ih =>
    cases parts with
    | nil => exact .inr ⟨part, List.mem_cons_self, by simpa using h⟩
    | cons next rest =>
      rw [List.intercalate_cons_cons] at h
      rcases List.mem_append.mp h with hleft | hright
      · rcases List.mem_append.mp hleft with hmem | hmem
        · exact .inr ⟨part, List.mem_cons_self, hmem⟩
        · exact .inl (by simpa using hmem)
      · rcases ih hright with heq | ⟨part', hpart', hmem⟩
        · exact .inl heq
        · exact .inr ⟨part', List.mem_cons_of_mem _ hpart', hmem⟩

/-- An address of version 4 has only digits and dots. -/
theorem V4.mem_of_parse {cs : List Char} {x : V4} (h : V4.parse cs = some x) {c : Char} (hc : c ∈ cs) :
    c = '.' ∨ hexValue c ≠ none := by
  have hcs : ['.'].intercalate (cs.splitOn '.') = cs := List.intercalate_splitOn '.'
  rw [← hcs] at hc
  rcases mem_of_mem_intercalate hc with heq | ⟨part, hpart, hmem⟩
  · exact .inl heq
  · right
    unfold V4.parse at h
    split at h
    · rename_i p q r s hparts
      rw [hparts] at hpart
      obtain ⟨a, ha, h⟩ := Option.bind_eq_some_iff.mp h
      obtain ⟨b, hb, h⟩ := Option.bind_eq_some_iff.mp h
      obtain ⟨c, hc, h⟩ := Option.bind_eq_some_iff.mp h
      obtain ⟨d, hd, -⟩ := Option.map_eq_some_iff.mp h
      simp only [List.mem_cons, List.not_mem_nil, or_false] at hpart
      rcases hpart with rfl | rfl | rfl | rfl
      · exact hexValue_of_parseOctet ha hmem
      · exact hexValue_of_parseOctet hb hmem
      · exact hexValue_of_parseOctet hc hmem
      · exact hexValue_of_parseOctet hd hmem
    · cases h

/-! ## Version 6 -/

abbrev Hextet := Fin 65536

def parseHextet (cs : List Char) : Option Hextet :=
  if cs = [] ∨ 4 < cs.length then none
  else (numeral 16 0 cs).bind fun n => if h : n < 65536 then some ⟨n, h⟩ else none

def hextetText (h : Hextet) : List Char := Nat.toDigits 16 h

theorem parseHextet_hextetText (h : Hextet) : parseHextet (hextetText h) = some h := by
  have hlength : (Nat.toDigits 16 h).length ≤ 4 := (Nat.length_toDigits_le_iff (by decide) (by decide)).mpr h.isLt
  unfold parseHextet hextetText
  rw [if_neg (by simp [hlength]), numeral_toDigits (by decide) (by decide)]
  simp

theorem hextetText_ne_nil (h : Hextet) : hextetText h ≠ [] := Nat.toDigits_ne_nil

theorem hexValue_of_mem_hextetText {h : Hextet} {c : Char} (hc : c ∈ hextetText h) : hexValue c ≠ none :=
  hexValue_of_numeral (numeral_toDigits (by decide) (by decide) _) hc

abbrev Hextets := { hs : List Hextet // hs.length = 8 }

abbrev Scope := { s : List Char // s ≠ [] ∧ '%' ∉ s ∧ '/' ∉ s }

/-- An `IPv6Address`. -/
structure V6 where
  hextets : Hextets
  scope : Option Scope := none
  deriving DecidableEq, Repr

/-- The address as an integer. -/
def V6.value (x : V6) : ℕ := x.hextets.val.foldl (fun n h => n * 65536 + h) 0

/-- The hextets of the parts before and after the zeros that were left out. -/
def build (hi : List (List Char)) (skipped : ℕ) (lo : List (List Char)) : Option Hextets :=
  (hi.mapM parseHextet).bind fun hi => (lo.mapM parseHextet).bind fun lo =>
    if h : (hi ++ List.replicate skipped 0 ++ lo).length = 8 then some ⟨_, h⟩ else none

/-- The parts of a text between its colons, put together.  An empty part that is neither the first nor the last one is
a double colon; the first or the last one may be empty only beside it. -/
def assemble (parts : List (List Char)) : Option Hextets :=
  let first := parts.headD []
  let last := parts.getLastD []
  match parts.tail.dropLast.splitOnP List.isEmpty with
  | [_] => if parts.length = 8 ∧ first ≠ [] ∧ last ≠ [] then build parts 0 [] else none
  | [before, after] =>
    if first = [] ∧ before ≠ [] ∨ last = [] ∧ after ≠ [] then none
    else
      let hi := if first = [] then [] else first :: before
      let lo := if last = [] then [] else after ++ [last]
      if 8 ≤ hi.length + lo.length then none else build hi (8 - (hi.length + lo.length)) lo
  | _ => none

def expandV4 (parts : List (List Char)) : Option (List (List Char)) :=
  if '.' ∈ parts.getLastD [] then
    (V4.parse (parts.getLastD [])).map fun x =>
      parts.dropLast ++ [Nat.toDigits 16 (x.value / 65536), Nat.toDigits 16 (x.value % 65536)]
  else some parts

/-- `_ip_int_from_string`, with `none` for its `AddressValueError`. -/
def parseHextets (cs : List Char) : Option Hextets :=
  let parts := cs.splitOn ':'
  if parts.length < 3 then none
  else (expandV4 parts).bind fun parts => if 9 < parts.length then none else assemble parts

def V6.parse (cs : List Char) : Option V6 :=
  if '/' ∈ cs then none
  else
    match Text.partition '%' cs with
    | (address, none) => (parseHextets address).map fun hs => ⟨hs, none⟩
    | (address, some scope) =>
      if h : scope ≠ [] ∧ '%' ∉ scope ∧ '/' ∉ scope then
        (parseHextets address).map fun hs => ⟨hs, some ⟨scope, h⟩⟩
      else none

/-- The start and the length of the first longest run of zeros, from the `index`-th hextet on: `run` zeros come right
before it, and `best` is the longest run so far. -/
def longestRun : ℕ → ℕ → ℕ × ℕ → List Hextet → ℕ × ℕ
  | _, _, best, [] => best
  | index, run, best, h :: hs =>
    if h = 0 then
      longestRun (index + 1) (run + 1) (if best.2 < run + 1 then (index - run, run + 1) else best) hs
    else longestRun (index + 1) 0 best hs

/-- `_compress_hextets`. -/
def compress (hs : List Hextet) : List (List Char) :=
  let best := longestRun 0 0 (0, 0) hs
  let texts := hs.map hextetText
  if 1 < best.2 then
    (if best.1 = 0 then [[]] else texts.take best.1) ++
      [] :: (if best.1 + best.2 = hs.length then [[]] else texts.drop (best.1 + best.2))
  else texts

def V6.str (x : V6) : List Char :=
  [':'].intercalate (compress x.hextets.val) ++
    match x.scope with
    | none => []
    | some scope => '%' :: scope.val

/-! ### Reading what was written -/

theorem mapM_parseHextet (hs : List Hextet) : (hs.map hextetText).mapM parseHextet = some hs := by
  induction hs with
  | nil => rfl
  | cons h hs ih => simp [List.mapM_cons, parseHextet_hextetText, ih]

theorem build_hextetText {hi lo : List Hextet} {skipped : ℕ}
    (h : (hi ++ List.replicate skipped 0 ++ lo).length = 8) :
    build (hi.map hextetText) skipped (lo.map hextetText) = some ⟨_, h⟩ := by
  unfold build
  rw [mapM_parseHextet, mapM_parseHextet]
  exact dif_pos h

def ZeroRun (run : ℕ × ℕ) (hs : List Hextet) : Prop :=
  ∃ before after, hs = before ++ List.replicate run.2 0 ++ after ∧ before.length = run.1

theorem zeroRun_longestRun (seen hs : List Hextet) {run : ℕ} {best : ℕ × ℕ}
    (hrun : ∃ before, seen = before ++ List.replicate run 0) (hbest : ZeroRun best seen) :
    ZeroRun (longestRun seen.length run best hs) (seen ++ hs) := by
  induction hs generalizing seen run best with
  | nil =>
    rw [List.append_nil]
    exact hbest
  | cons h hs ih =>
    have hseen : seen.length + 1 = (seen ++ [h]).length := by simp
    have happend : seen ++ h :: hs = (seen ++ [h]) ++ hs := by simp
    have hlonger : ZeroRun best (seen ++ [h]) := by
      obtain ⟨before, after, heq, hlength⟩ := hbest
      exact ⟨before, after ++ [h], by rw [heq]; simp, hlength⟩
    unfold longestRun
    rw [hseen, happend]
    split
    · rename_i hzero
      subst hzero
      obtain ⟨before, hbefore⟩ := hrun
      have hnext : seen ++ [0] = before ++ List.replicate (run + 1) 0 := by
        rw [hbefore, List.replicate_succ', List.append_assoc]
      refine ih (seen ++ [0]) ⟨before, hnext⟩ ?_
      split
      · refine ⟨before, [], by simpa using hnext, ?_⟩
        rw [hbefore]
        simp
      · exact hlonger
    · exact ih (seen ++ [h]) ⟨seen ++ [h], by simp⟩ hlonger

def ends (hs : List Hextet) : List (List Char) := if hs = [] then [[]] else hs.map hextetText

theorem compress_cases (hs : List Hextet) :
    compress hs = hs.map hextetText ∨
      ∃ before k after, hs = before ++ List.replicate k 0 ++ after ∧ 1 < k ∧
        compress hs = ends before ++ [] :: ends after := by
  have hrun : ZeroRun (longestRun 0 0 (0, 0) hs) hs :=
    zeroRun_longestRun [] hs ⟨[], rfl⟩ ⟨[], [], rfl, rfl⟩
  unfold compress
  generalize longestRun 0 0 (0, 0) hs = best at hrun
  obtain ⟨start, k⟩ := best
  obtain ⟨before, after, rfl, rfl⟩ := hrun
  dsimp only
  split
  · rename_i hk
    refine .inr ⟨before, k, after, rfl, hk, ?_⟩
    have hhead : (if before.length = 0 then [[]]
        else ((before ++ List.replicate k 0 ++ after).map hextetText).take before.length) = ends before := by
      cases before with
      | nil => rfl
      | cons h before => simp [ends]
    have hlast : (if before.length + k = (before ++ List.replicate k 0 ++ after).length then [[]]
        else ((before ++ List.replicate k 0 ++ after).map hextetText).drop (before.length + k)) = ends after := by
      have hlength : (before.map hextetText ++ (List.replicate k 0).map hextetText).length = before.length + k := by
        simp
      cases after with
      | nil => simp [ends]
      | cons h after =>
        rw [if_neg (by simp), ends, if_neg (by simp), List.map_append, List.map_append,
          List.drop_left' hlength]
    rw [hhead, hlast]
  · exact .inl rfl

theorem assemble_skip {first last : List Char} {before after : List (List Char)} (hbefore : ∀ p ∈ before, p ≠ [])
    (hafter : ∀ p ∈ after, p ≠ []) :
    assemble (first :: before ++ [] :: (after ++ [last])) =
      if first = [] ∧ before ≠ [] ∨ last = [] ∧ after ≠ [] then none
      else
        let hi := if first = [] then [] else first :: before
        let lo := if last = [] then [] else after ++ [last]
        if 8 ≤ hi.length + lo.length then none else build hi (8 - (hi.length + lo.length)) lo := by
  have hne : ∀ ps : List (List Char), (∀ p ∈ ps, p ≠ []) → ∀ p ∈ ps, List.isEmpty p = false := by
    intro ps hps p hp
    simpa using hps p hp
  have hinner : (first :: before ++ [] :: (after ++ [last])).tail.dropLast = before ++ [] :: after := by
    have heq : (first :: before ++ [] :: (after ++ [last])).tail = (before ++ [] :: after) ++ [last] := by simp
    rw [heq, List.dropLast_concat]
  have hsplit : (before ++ [] :: after).splitOnP List.isEmpty = [before, after] := by
    rw [List.splitOnP_append_cons_of_forall_mem (hne before hbefore) [] rfl, List.splitOnP_eq_singleton (hne after hafter)]
  have hlast : (first :: before ++ [] :: (after ++ [last])).getLastD [] = last := by
    have heq : first :: before ++ [] :: (after ++ [last]) = (first :: before ++ [] :: after) ++ [last] := by simp
    rw [heq, List.getLastD_concat]
  unfold assemble
  rw [hinner, hsplit, hlast]
  rfl

theorem ends_eq_cons (hs : List Hextet) :
    ∃ first inner, ends hs = first :: inner ∧ (∀ p ∈ inner, p ≠ []) ∧ ¬ (first = [] ∧ inner ≠ []) ∧
      (if first = [] then [] else first :: inner) = hs.map hextetText := by
  cases hs with
  | nil => exact ⟨[], [], rfl, by simp, by simp, rfl⟩
  | cons h hs =>
    refine ⟨hextetText h, hs.map hextetText, rfl, ?_, fun hfirst => hextetText_ne_nil h hfirst.1,
      if_neg (hextetText_ne_nil h)⟩
    intro p hp
    obtain ⟨h', -, rfl⟩ := List.mem_map.mp hp
    exact hextetText_ne_nil h'

theorem ends_eq_concat (hs : List Hextet) :
    ∃ inner last, ends hs = inner ++ [last] ∧ (∀ p ∈ inner, p ≠ []) ∧ ¬ (last = [] ∧ inner ≠ []) ∧
      (if last = [] then [] else inner ++ [last]) = hs.map hextetText := by
  rcases List.eq_nil_or_concat hs with rfl | ⟨init, h, rfl⟩
  · exact ⟨[], [], rfl, by simp, by simp, rfl⟩
  · refine ⟨init.map hextetText, hextetText h, by simp [ends], ?_, fun hlast => hextetText_ne_nil h hlast.1, ?_⟩
    · intro p hp
      obtain ⟨h', -, rfl⟩ := List.mem_map.mp hp
      exact hextetText_ne_nil h'
    · rw [if_neg (hextetText_ne_nil h)]
      simp

theorem assemble_ends {before after : List Hextet} {k : ℕ} (hk : 0 < k)
    (hlength : (before ++ List.replicate k 0 ++ after).length = 8) :
    assemble (ends before ++ [] :: ends after) = some ⟨_, hlength⟩ := by
  obtain ⟨first, inner, hbefore, hinner, hfirst, hhi⟩ := ends_eq_cons before
  obtain ⟨inner', last, hafter, hinner', hlast, hlo⟩ := ends_eq_concat after
  have hsum : before.length + k + after.length = 8 := by simpa [add_assoc] using hlength
  have hmissing : 8 - ((before.map hextetText).length + (after.map hextetText).length) = k := by
    rw [List.length_map, List.length_map]
    omega
  rw [hbefore, hafter, assemble_skip hinner hinner', if_neg (not_or.mpr ⟨hfirst, hlast⟩)]
  dsimp only
  rw [hhi, hlo, hmissing, if_neg (by rw [List.length_map, List.length_map]; omega)]
  exact build_hextetText hlength

theorem assemble_map {hs : List Hextet} (hlength : hs.length = 8) :
    assemble (hs.map hextetText) = some ⟨hs, hlength⟩ := by
  have hne : ∀ p ∈ hs.map hextetText, p ≠ [] := by
    intro p hp
    obtain ⟨h, -, rfl⟩ := List.mem_map.mp hp
    exact hextetText_ne_nil h
  have hmap : hs.map hextetText ≠ [] := by
    intro hnil
    simp [List.map_eq_nil_iff.mp hnil] at hlength
  have hsplit : (hs.map hextetText).tail.dropLast.splitOnP List.isEmpty = [(hs.map hextetText).tail.dropLast] := by
    refine List.splitOnP_eq_singleton fun p hp => ?_
    simpa using hne p (List.mem_of_mem_tail (List.dropLast_subset _ hp))
  have hfirst : (hs.map hextetText).headD [] ≠ [] := by
    rw [List.headD_eq_head?_getD, List.head?_eq_some_head hmap]
    exact hne _ (List.head_mem hmap)
  have hlast : (hs.map hextetText).getLastD [] ≠ [] := by
    rw [List.getLastD_eq_getLast?, List.getLast?_eq_some_getLast hmap]
    exact hne _ (List.getLast_mem hmap)
  unfold assemble
  dsimp only
  rw [hsplit]
  dsimp only
  rw [if_pos ⟨by simpa using hlength, hfirst, hlast⟩]
  unfold build
  rw [mapM_parseHextet]
  simp [hlength]

theorem hexValue_of_mem_compress {hs : List Hextet} {part : List Char} (hpart : part ∈ compress hs) {c : Char}
    (hc : c ∈ part) : hexValue c ≠ none := by
  have htexts : ∀ hs' : List Hextet, part ∈ hs'.map hextetText → hexValue c ≠ none := by
    intro hs' hmem
    obtain ⟨h, -, rfl⟩ := List.mem_map.mp hmem
    exact hexValue_of_mem_hextetText hc
  have hends : ∀ hs', part ∈ ends hs' → hexValue c ≠ none := by
    intro hs' hmem
    unfold ends at hmem
    split at hmem
    · rw [List.mem_singleton.mp hmem] at hc
      cases hc
    · exact htexts hs' hmem
  rcases compress_cases hs with heq | ⟨before, k, after, -, -, heq⟩
  · exact htexts hs (heq ▸ hpart)
  · rw [heq] at hpart
    rcases List.mem_append.mp hpart with hbefore | hrest
    · exact hends before hbefore
    · rcases List.mem_cons.mp hrest with rfl | hafter
      · cases hc
      · exact hends after hafter

/-- A character of a compressed address is a colon or a digit. -/
theorem mem_intercalate_compress {hs : List Hextet} {c : Char} (hc : c ∈ [':'].intercalate (compress hs)) :
    c = ':' ∨ hexValue c ≠ none := by
  rcases mem_of_mem_intercalate hc with heq | ⟨part, hpart, hmem⟩
  · exact .inl heq
  · exact .inr (hexValue_of_mem_compress hpart hmem)

theorem length_compress (hs : Hextets) : 3 ≤ (compress hs.val).length ∧ (compress hs.val).length ≤ 9 := by
  have hends : ∀ hs' : List Hextet, 1 ≤ (ends hs').length ∧ (ends hs').length ≤ hs'.length + 1 := by
    intro hs'
    unfold ends
    split
    · simp
    · rename_i hne
      have hpos : 0 < hs'.length := List.length_pos_iff.mpr hne
      rw [List.length_map]
      omega
  rcases compress_cases hs.val with heq | ⟨before, k, after, hval, hk, heq⟩
  · rw [heq, List.length_map, hs.property]
    omega
  · have hlength := hs.property
    rw [hval] at hlength
    simp only [List.length_append, List.length_replicate] at hlength
    have hbefore := hends before
    have hafter := hends after
    rw [heq, List.length_append, List.length_cons]
    omega

theorem splitOn_intercalate_compress (hs : Hextets) :
    ([':'].intercalate (compress hs.val)).splitOn ':' = compress hs.val := by
  refine List.splitOn_intercalate ':' ?_ ?_
  · intro part hpart hmem
    exact hexValue_of_mem_compress hpart hmem rfl
  · intro hnil
    have hlength := (length_compress hs).1
    rw [hnil] at hlength
    simp at hlength

theorem assemble_compress (hs : Hextets) : assemble (compress hs.val) = some hs := by
  obtain ⟨hs, hlength⟩ := hs
  rcases compress_cases hs with heq | ⟨before, k, after, rfl, hk, heq⟩
  · rw [heq]
    exact assemble_map hlength
  · rw [heq]
    exact assemble_ends (by omega) hlength

theorem parseHextets_compress (hs : Hextets) : parseHextets ([':'].intercalate (compress hs.val)) = some hs := by
  obtain ⟨hthree, hnine⟩ := length_compress hs
  have hne : compress hs.val ≠ [] := by
    intro hnil
    simp [hnil] at hthree
  have hdot : '.' ∉ (compress hs.val).getLastD [] := by
    rw [List.getLastD_eq_getLast?, List.getLast?_eq_some_getLast hne]
    intro hmem
    exact hexValue_of_mem_compress (List.getLast_mem hne) hmem rfl
  unfold parseHextets
  dsimp only
  rw [splitOn_intercalate_compress, if_neg (not_lt.mpr hthree), expandV4, if_neg hdot, Option.bind_some,
    if_neg (not_lt.mpr hnine)]
  exact assemble_compress hs

theorem V6.parse_str (x : V6) : V6.parse x.str = some x := by
  obtain ⟨hs, scope⟩ := x
  have hchar : ∀ c, c ≠ ':' → hexValue c = none → c ∉ [':'].intercalate (compress hs.val) := by
    intro c hcolon hvalue hmem
    rcases mem_intercalate_compress hmem with heq | hdigit
    · exact hcolon heq
    · exact hdigit hvalue
  have hslash := hchar '/' (by decide) rfl
  have hpercent := hchar '%' (by decide) rfl
  unfold V6.parse V6.str
  cases scope with
  | none =>
    dsimp only
    rw [List.append_nil, if_neg hslash, Text.partition_of_not_mem hpercent]
    dsimp only
    rw [parseHextets_compress]
    rfl
  | some scope =>
    obtain ⟨s, hs'⟩ := scope
    dsimp only
    have hmem : '/' ∉ [':'].intercalate (compress hs.val) ++ '%' :: s := by
      simp [hslash, hs'.2.2]
    rw [if_neg hmem, Text.partition_append hpercent]
    dsimp only
    rw [dif_pos hs', parseHextets_compress]
    rfl

/-! ## Both versions -/

inductive Address
  | v4 (x : V4)
  | v6 (x : V6)
  deriving DecidableEq, Repr

/-- `ip_address`, with `none` for its `ValueError`. -/
def parse (cs : List Char) : Option Address :=
  match V4.parse cs with
  | some x => some (.v4 x)
  | none => (V6.parse cs).map .v6

def str : Address → List Char
  | .v4 x => x.str
  | .v6 x => x.str

theorem V6.colon_mem_str (x : V6) : ':' ∈ x.str := by
  by_contra hnot
  have haddress : ':' ∉ [':'].intercalate (compress x.hextets.val) := fun hmem => hnot (List.mem_append_left _ hmem)
  have hlength := (length_compress x.hextets).1
  rw [← splitOn_intercalate_compress, List.splitOn_eq_singleton haddress] at hlength
  simp at hlength

/-- **Reading what was written** gives the address. -/
theorem parse_str (x : Address) : parse (str x) = some x := by
  cases x with
  | v4 x =>
    show (match V4.parse x.str with | some x => some (Address.v4 x) | none => _) = _
    rw [V4.parse_str]
  | v6 x =>
    have hnone : V4.parse x.str = none := by
      rw [Option.eq_none_iff_forall_not_mem]
      intro y hy
      rcases V4.mem_of_parse hy x.colon_mem_str with heq | hdigit
      · cases heq
      · exact hdigit rfl
    show (match V4.parse x.str with | some x => some (Address.v4 x) | none => (V6.parse x.str).map .v6) = _
    rw [hnone, V6.parse_str]
    rfl

theorem length_splitOn (sep : Char) (cs : List Char) : (cs.splitOn sep).length = cs.count sep + 1 := by
  induction cs with
  | nil => rfl
  | cons c cs ih =>
    rw [List.splitOn_cons_eq_if_modifyHead, List.count_cons]
    split
    · simp [ih]
    · simp [ih]

theorem count_colon_of_parse {cs : List Char} {x : Address} (h : parse cs = some x) : cs.count ':' ≠ 1 := by
  unfold parse at h
  split at h
  · rename_i y hy
    have hnot : ':' ∉ cs := by
      intro hmem
      rcases V4.mem_of_parse hy hmem with heq | hdigit
      · cases heq
      · exact hdigit rfl
    rw [List.count_eq_zero_of_not_mem hnot]
    decide
  · obtain ⟨y, hy, -⟩ := Option.map_eq_some_iff.mp h
    have hhextets : parseHextets (Text.partition '%' cs).1 ≠ none := by
      intro hnone
      unfold V6.parse at hy
      split at hy
      · cases hy
      · split at hy
        · rename_i address hpartition
          rw [hpartition] at hnone
          rw [hnone] at hy
          cases hy
        · rename_i address scope hpartition
          rw [hpartition] at hnone
          split at hy
          · rw [hnone] at hy
            cases hy
          · cases hy
    -- the part before the scope has three parts, so two colons
    have hthree : 3 ≤ ((Text.partition '%' cs).1.splitOn ':').length := by
      by_contra hlt
      exact hhextets (if_pos (not_le.mp hlt))
    have hle : (Text.partition '%' cs).1.count ':' ≤ cs.count ':' :=
      (List.takeWhile_sublist (fun c => c != '%')).count_le ':'
    rw [length_splitOn] at hthree
    omega

/-! ## Networks -/

/-- A network: its address and the length of its mask. -/
inductive Network
  | v4 (network : V4) (prefixlen : Fin 33)
  | v6 (network : V6) (prefixlen : Fin 129)
  deriving DecidableEq, Repr

def Network.contains : Network → Address → Bool
  | .v4 network prefixlen, .v4 x => decide (x.value / 2 ^ (32 - prefixlen.val) = network.value / 2 ^ (32 - prefixlen.val))
  | .v6 network prefixlen, .v6 x =>
    decide (x.value / 2 ^ (128 - prefixlen.val) = network.value / 2 ^ (128 - prefixlen.val))
  | _, _ => false

def V6.ipv4Mapped (x : V6) : Option V4 :=
  match x.hextets.val with
  | [0, 0, 0, 0, 0, 65535, h, l] =>
    some ⟨Fin.ofNat 256 (h / 256), Fin.ofNat 256 h, Fin.ofNat 256 (l / 256), Fin.ofNat 256 l⟩
  | _ => none

def netV6 (hextets : Hextets) (prefixlen : Fin 129) : Network := .v6 ⟨hextets, none⟩ prefixlen

def privateNetworks : List Network :=
  [.v4 ⟨0, 0, 0, 0⟩ 8, .v4 ⟨10, 0, 0, 0⟩ 8, .v4 ⟨127, 0, 0, 0⟩ 8, .v4 ⟨169, 254, 0, 0⟩ 16, .v4 ⟨172, 16, 0, 0⟩ 12,
    .v4 ⟨192, 0, 0, 0⟩ 24, .v4 ⟨192, 0, 0, 170⟩ 31, .v4 ⟨192, 0, 2, 0⟩ 24, .v4 ⟨192, 168, 0, 0⟩ 16,
    .v4 ⟨198, 18, 0, 0⟩ 15, .v4 ⟨198, 51, 100, 0⟩ 24, .v4 ⟨203, 0, 113, 0⟩ 24, .v4 ⟨240, 0, 0, 0⟩ 4,
    .v4 ⟨255, 255, 255, 255⟩ 32,
    netV6 ⟨[0, 0, 0, 0, 0, 0, 0, 1], rfl⟩ 128, netV6 ⟨[0, 0, 0, 0, 0, 0, 0, 0], rfl⟩ 128,
    netV6 ⟨[0, 0, 0, 0, 0, 0xffff, 0, 0], rfl⟩ 96, netV6 ⟨[0x64, 0xff9b, 1, 0, 0, 0, 0, 0], rfl⟩ 48,
    netV6 ⟨[0x100, 0, 0, 0, 0, 0, 0, 0], rfl⟩ 64, netV6 ⟨[0x2001, 0, 0, 0, 0, 0, 0, 0], rfl⟩ 23,
    netV6 ⟨[0x2001, 0xdb8, 0, 0, 0, 0, 0, 0], rfl⟩ 32, netV6 ⟨[0x2002, 0, 0, 0, 0, 0, 0, 0], rfl⟩ 16,
    netV6 ⟨[0xfc00, 0, 0, 0, 0, 0, 0, 0], rfl⟩ 7, netV6 ⟨[0xfe80, 0, 0, 0, 0, 0, 0, 0], rfl⟩ 10]

def privateNetworksExceptions : List Network :=
  [.v4 ⟨192, 0, 0, 9⟩ 32, .v4 ⟨192, 0, 0, 10⟩ 32,
    netV6 ⟨[0x2001, 1, 0, 0, 0, 0, 0, 1], rfl⟩ 128, netV6 ⟨[0x2001, 1, 0, 0, 0, 0, 0, 2], rfl⟩ 128,
    netV6 ⟨[0x2001, 3, 0, 0, 0, 0, 0, 0], rfl⟩ 32, netV6 ⟨[0x2001, 4, 0x112, 0, 0, 0, 0, 0], rfl⟩ 48,
    netV6 ⟨[0x2001, 0x20, 0, 0, 0, 0, 0, 0], rfl⟩ 28, netV6 ⟨[0x2001, 0x30, 0, 0, 0, 0, 0, 0], rfl⟩ 28]

def unmapped : Address → Address
  | .v4 x => .v4 x
  | .v6 x => (x.ipv4Mapped.map Address.v4).getD (.v6 x)

def isPrivate (x : Address) : Bool :=
  privateNetworks.any (·.contains (unmapped x)) && privateNetworksExceptions.all fun net => !net.contains (unmapped x)

def isLoopback : Address → Bool
  | .v4 x => (Network.v4 ⟨127, 0, 0, 0⟩ 8).contains (.v4 x)
  | .v6 x => decide (x.value = 1)

def isLinkLocal : Address → Bool
  | .v4 x => (Network.v4 ⟨169, 254, 0, 0⟩ 16).contains (.v4 x)
  | .v6 x => (netV6 ⟨[0xfe80, 0, 0, 0, 0, 0, 0, 0], rfl⟩ 10).contains (.v6 x)

/-! ## The ranges of octets, hextets and prefixes -/

scoped instance octet_neZero : NeZero 256 := inferInstance

scoped instance hextet_neZero : NeZero 65536 := inferInstance

scoped instance prefixV4_neZero : NeZero 33 := inferInstance

scoped instance prefixV6_neZero : NeZero 129 := inferInstance

end FavoniusBackend.Lib.IpAddress
