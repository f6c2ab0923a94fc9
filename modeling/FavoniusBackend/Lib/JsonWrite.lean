import FavoniusBackend.Lib.JsonText
import FavoniusBackend.Lib.Uuid

/-!
# Encoding an object of texts as JSON

`json.dumps` of a dictionary of texts, without spaces: what is outside ASCII or has a meaning in a string is escaped.
Decoding gives the dictionary back where nothing has to be escaped (`loads_dumps`).
-/

namespace FavoniusBackend.Lib.JsonText

open Lib.PyJson
open Lib.Uuid (padded)

/-- `\uXXXX`. -/
def unicodeEscape (n : ℕ) : List Char := '\\' :: 'u' :: padded 16 4 n

/-- A character in a string. -/
def escaped (c : Char) : List Char :=
  if c = '"' then ['\\', '"']
  else if c = '\\' then ['\\', '\\']
  else if c = '\n' then ['\\', 'n']
  else if c = '\r' then ['\\', 'r']
  else if c = '\t' then ['\\', 't']
  else if c.toNat = 8 then ['\\', 'b']
  else if c.toNat = 12 then ['\\', 'f']
  else if 32 ≤ c.toNat ∧ c.toNat < 127 then [c]
  else if c.toNat < 0x10000 then unicodeEscape c.toNat
  else unicodeEscape (0xD800 + (c.toNat - 0x10000) / 0x400) ++ unicodeEscape (0xDC00 + (c.toNat - 0x10000) % 0x400)

def quote (cs : List Char) : List Char := '"' :: cs.flatMap escaped ++ ['"']

def writeField (f : List Char × List Char) : List Char := quote f.1 ++ ':' :: quote f.2

def dumps : List (List Char × List Char) → List Char
  | [] => ['{', '}']
  | f :: fields => '{' :: (writeField f ++ (fields.flatMap (fun f => ',' :: writeField f) ++ ['}']))

/-! ## Tokens -/

/-- The character stands for itself. -/
def Plain (c : Char) : Prop := 32 ≤ c.toNat ∧ c.toNat < 127 ∧ c ≠ '"' ∧ c ≠ '\\'

instance : DecidablePred Plain := fun _ => inferInstanceAs (Decidable (_ ∧ _))

theorem plain_of_all {cs : List Char} (h : (cs.all fun c => decide (Plain c)) = true) : ∀ c ∈ cs, Plain c :=
  fun c hc => of_decide_eq_true (List.all_eq_true.mp h c hc)

theorem escaped_of_plain {c : Char} (h : Plain c) : escaped c = [c] := by
  obtain ⟨hlo, hhi, hquote, hslash⟩ := h
  have hne : ∀ {d : Char}, d.toNat < 32 → c ≠ d := by
    rintro d hd rfl
    omega
  unfold escaped
  rw [if_neg hquote, if_neg hslash, if_neg (hne (by decide)), if_neg (hne (by decide)), if_neg (hne (by decide)),
    if_neg (by omega), if_neg (by omega), if_pos ⟨hlo, hhi⟩]

theorem quote_of_plain {cs : List Char} (h : ∀ c ∈ cs, Plain c) : quote cs = '"' :: cs ++ ['"'] := by
  have hsame : cs.flatMap escaped = cs := by
    induction cs with
    | nil => rfl
    | cons c cs ih =>
      rw [List.flatMap_cons, escaped_of_plain (h c List.mem_cons_self), ih fun c hc => h c (List.mem_cons_of_mem _ hc)]
      rfl
  rw [quote, hsame]

theorem scanString_of_plain {cs : List Char} (h : ∀ c ∈ cs, Plain c) (rest : List Char) :
    scanString (cs ++ '"' :: rest) = some (cs.map Char.toNat, rest) := by
  induction cs with
  | nil => rfl
  | cons c cs ih =>
    obtain ⟨hlo, -, hquote, hslash⟩ := h c List.mem_cons_self
    have hcons : scanString (c :: (cs ++ '"' :: rest)) =
        cons (if c.toNat < 32 then none else some c.toNat) (scanString (cs ++ '"' :: rest)) := by
      rw [scanString]
      · exact hquote
      · exact fun _ _ _ _ _ heq _ => hslash heq
      · exact fun _ _ heq _ => hslash heq
    rw [List.cons_append, hcons, if_neg (by omega), ih fun c hc => h c (List.mem_cons_of_mem _ hc)]
    rfl

theorem joinSurrogates_of_lt {s : PyStr} (h : ∀ n ∈ s, n < 0xD800) : joinSurrogates s = s := by
  induction s using joinSurrogates.induct with
  | case1 high low rest hpair => exact absurd (h high List.mem_cons_self) (by omega)
  | case2 high low rest hpair ih =>
    rw [joinSurrogates, if_neg hpair, ih fun n hn => h n (List.mem_cons_of_mem _ hn)]
  | case3 s hs =>
    rw [joinSurrogates]
    exact hs

theorem next_quote (cs : List Char) : next ('"' :: cs) =
    match scanString cs with
    | some (s, rest) => (.str (joinSurrogates s), rest)
    | none => (.bad, []) := rfl

theorem tokens_quote {cs : List Char} (h : ∀ c ∈ cs, Plain c) (rest : List Char) :
    tokens (quote cs ++ rest) = .str (cs.map Char.toNat) :: tokens rest := by
  have hjoin : joinSurrogates (cs.map Char.toNat) = cs.map Char.toNat := by
    refine joinSurrogates_of_lt fun n hn => ?_
    obtain ⟨c, hc, rfl⟩ := List.mem_map.mp hn
    have := (h c hc).2.1
    omega
  have hnext : next ('"' :: (cs ++ '"' :: rest)) = (.str (cs.map Char.toNat), rest) := by
    rw [next_quote, scanString_of_plain h]
    dsimp only
    rw [hjoin]
  rw [quote_of_plain h, show '"' :: cs ++ ['"'] ++ rest = '"' :: (cs ++ '"' :: rest) by simp, tokens_eq]
  show (next ('"' :: (cs ++ '"' :: rest))).1 :: tokens (next ('"' :: (cs ++ '"' :: rest))).2 = _
  rw [hnext]

theorem tokens_mark {c : Char} {t : Token} (hspace : isSpace c = false) (hnext : ∀ rest, next (c :: rest) = (t, rest))
    (rest : List Char) : tokens (c :: rest) = t :: tokens rest := by
  rw [tokens_eq, List.dropWhile_cons_of_neg (by rw [hspace]; decide)]
  show (next (c :: rest)).1 :: tokens (next (c :: rest)).2 = _
  rw [hnext]

/-! ## Decoding what was encoded -/

def PlainField (f : List Char × List Char) : Prop := (∀ c ∈ f.1, Plain c) ∧ ∀ c ∈ f.2, Plain c

def fieldTokens (f : List Char × List Char) : List Token := [.str (f.1.map Char.toNat), .colon, .str (f.2.map Char.toNat)]

def fieldValue (f : List Char × List Char) : PyStr × Json := (f.1.map Char.toNat, .str (f.2.map Char.toNat))

theorem tokens_writeField {f : List Char × List Char} (h : PlainField f) (rest : List Char) :
    tokens (writeField f ++ rest) = fieldTokens f ++ tokens rest := by
  rw [writeField, List.append_assoc, tokens_quote h.1, List.cons_append,
    tokens_mark (by decide) (fun _ => rfl : ∀ rest, next (':' :: rest) = (.colon, rest)), tokens_quote h.2]
  rfl

theorem tokens_writeFields {fields : List (List Char × List Char)} (h : ∀ f ∈ fields, PlainField f) (rest : List Char) :
    tokens (fields.flatMap (fun f => ',' :: writeField f) ++ rest) =
      fields.flatMap (fun f => .comma :: fieldTokens f) ++ tokens rest := by
  induction fields with
  | nil => rfl
  | cons f fields ih =>
    rw [List.flatMap_cons, List.flatMap_cons, List.append_assoc, List.cons_append,
      tokens_mark (by decide) (fun _ => rfl : ∀ rest, next (',' :: rest) = (.comma, rest)),
      tokens_writeField (h f List.mem_cons_self), ih fun f hf => h f (List.mem_cons_of_mem _ hf), List.append_assoc]
    rfl

theorem assign_of_not_mem {fs : List (PyStr × Json)} {k : PyStr} (h : k ∉ fs.map Prod.fst) (v : Json) :
    Dict.assign fs k v = fs ++ [(k, v)] := by
  induction fs with
  | nil => rfl
  | cons f fs ih =>
    have hne : f.1 ≠ k := fun heq => h (heq ▸ List.mem_cons_self)
    rw [Dict.assign, if_neg hne, ih fun hmem => h (List.mem_cons_of_mem _ hmem)]
    rfl

theorem foldlM_field {expect : Expect} (hexpect : expect = .firstKey ∨ expect = .key) {fs : List (PyStr × Json)} {key : PyStr}
    {f : List Char × List Char} (hnew : (fieldValue f).1 ∉ fs.map Prod.fst) :
    (fieldTokens f).foldlM step ⟨[.fields fs key], expect, .null⟩ =
      .ok ⟨[.fields (fs ++ [fieldValue f]) (fieldValue f).1], .delimiter, .null⟩ := by
  have hassign := assign_of_not_mem hnew (fieldValue f).2
  rcases hexpect with rfl | rfl
  · show Except.ok (deliver (.str (f.2.map Char.toNat)) [.fields fs (fieldValue f).1]) = _
    rw [deliver, ← hassign]
    rfl
  · show Except.ok (deliver (.str (f.2.map Char.toNat)) [.fields fs (fieldValue f).1]) = _
    rw [deliver, ← hassign]
    rfl

theorem foldlM_fields {fields : List (List Char × List Char)} {fs : List (PyStr × Json)} {key : PyStr}
    (hnew : ((fs ++ fields.map fieldValue).map Prod.fst).Nodup) :
    ∃ key', (fields.flatMap fun f => .comma :: fieldTokens f).foldlM step ⟨[.fields fs key], .delimiter, .null⟩ =
      .ok ⟨[.fields (fs ++ fields.map fieldValue) key'], .delimiter, .null⟩ := by
  induction fields generalizing fs key with
  | nil =>
    refine ⟨key, ?_⟩
    rw [List.map_nil, List.append_nil]
    rfl
  | cons f fields ih =>
    rw [List.map_cons, List.append_cons] at hnew
    obtain ⟨key', hrest⟩ := @ih (fs ++ [fieldValue f]) (fieldValue f).1 hnew
    have hfresh : (fieldValue f).1 ∉ fs.map Prod.fst := by
      rw [List.map_append, List.map_append] at hnew
      have hdisjoint := (List.nodup_append.mp (List.nodup_append.mp hnew).1).2.2
      exact fun hmem => hdisjoint _ hmem _ List.mem_cons_self rfl
    refine ⟨key', ?_⟩
    rw [List.flatMap_cons, List.map_cons, List.append_cons, ← hrest]
    show ((fieldTokens f).append _).foldlM step ⟨[.fields fs key], .key, .null⟩ = _
    rw [List.append_eq, List.foldlM_append, foldlM_field (.inr rfl) hfresh]
    rfl

theorem loads_dumps {f : List Char × List Char} {fields : List (List Char × List Char)} (h : ∀ g ∈ f :: fields, PlainField g)
    (hnew : (((f :: fields).map fieldValue).map Prod.fst).Nodup) :
    loads (String.ofList (dumps (f :: fields))) = .ok (.obj ((f :: fields).map fieldValue)) := by
  obtain ⟨key, hfields⟩ := @foldlM_fields fields [fieldValue f] (fieldValue f).1 hnew
  have htokens : tokens (dumps (f :: fields)) = .lbrace :: (fieldTokens f ++
      ((fields.flatMap fun f => .comma :: fieldTokens f) ++ [.rbrace])) := by
    rw [dumps, tokens_mark (by decide) (fun _ => rfl : ∀ rest, next ('{' :: rest) = (.lbrace, rest)),
      tokens_writeField (h f List.mem_cons_self), tokens_writeFields fun g hg => h g (List.mem_cons_of_mem _ hg)]
    rfl
  have hparse : (tokens (dumps (f :: fields))).foldlM step { stack := [], expect := .value } =
      .ok ⟨[], .finished, .obj ((f :: fields).map fieldValue)⟩ := by
    rw [htokens]
    show (fieldTokens f ++ _).foldlM step ⟨[.fields [] []], .firstKey, .null⟩ = _
    rw [List.foldlM_append, foldlM_field (.inl rfl) List.not_mem_nil]
    show (((fields.flatMap fun f => Token.comma :: fieldTokens f) ++ [Token.rbrace]).foldlM step _) = _
    rw [List.foldlM_append, List.nil_append, hfields]
    rfl
  unfold loads decodeWith
  rw [String.toList_ofList]
  show ((tokens (dumps (f :: fields))).foldlM step { stack := [], expect := .value } >>= _) = _
  rw [hparse]
  rfl

end FavoniusBackend.Lib.JsonText
