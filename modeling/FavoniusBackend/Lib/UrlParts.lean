import FavoniusBackend.Lib.Guard
import FavoniusBackend.Lib.IpAddress
import FavoniusBackend.Lib.PyJson

/-!
# The parts of a URL

`urllib.parse.urlsplit` and `urlunsplit`.  A text is the list of its characters.  What needs the tables of Unicode is
given: `lower`, the normal form NFKC and the `repr` of a text.
-/

namespace FavoniusBackend.Lib.UrlParts

open Lib.PyJson (PyError)

/-- The functions that go by the tables of Unicode. -/
structure Unicode where
  /-- `unicodedata.normalize('NFKC', s)`. -/
  nfkc : List Char → List Char
  /-- `s.lower()`. -/
  lower : List Char → List Char
  /-- `repr(s)`. -/
  repr : List Char → List Char

structure SplitResult where
  scheme : List Char
  netloc : List Char
  path : List Char
  query : List Char
  fragment : List Char
  deriving DecidableEq, Repr

/-! ## Splitting -/

/-- `s.split(sep, 1)`, with an empty text for a part that is missing. -/
def cut (sep : Char) (cs : List Char) : List Char × List Char :=
  match Text.partition sep cs with
  | (before, some rest) => (before, rest)
  | (before, none) => (before, [])

/-- The text after the last separator, or all of it: `s.rpartition(sep)[2]`. -/
def afterLast (sep : Char) (cs : List Char) : List Char := cs.rtakeWhile (· != sep)

/-- `_WHATWG_C0_CONTROL_OR_SPACE`. -/
def isControlOrSpace (c : Char) : Bool := decide (c.toNat ≤ 32)

/-- `scheme_chars`. -/
def isSchemeChar (c : Char) : Bool := c.isAlpha || c.isDigit || c == '+' || c == '-' || c == '.'

/-- The text without the spaces before it and without `_UNSAFE_URL_BYTES_TO_REMOVE`. -/
def clean (url : List Char) : List Char :=
  (url.dropWhile isControlOrSpace).filter fun c => !(c == '\t' || c == '\r' || c == '\n')

/-- The scheme in small letters, and what follows its colon. -/
def splitScheme (url : List Char) : List Char × List Char :=
  match Text.partition ':' url with
  | (c :: cs, some rest) =>
    if c.isAlpha && (c :: cs).all isSchemeChar then ((c :: cs).map Char.toLower, rest) else ([], url)
  | _ => ([], url)

/-- A character that ends the netloc. -/
def isDelimiter (c : Char) : Bool := c == '/' || c == '?' || c == '#'

def splitNetloc : List Char → List Char × List Char
  | '/' :: '/' :: rest => (rest.takeWhile fun c => !isDelimiter c, rest.dropWhile fun c => !isDelimiter c)
  | url => ([], url)

def checkBracketedHost (hostname : List Char) : Except PyError Unit :=
  match hostname with
  | 'v' :: rest =>
    -- the regular expression `\Av[a-fA-F0-9]+\..+\Z`
    match rest.dropWhile fun c => (IpAddress.hexValue c).isSome with
    | '.' :: c :: after =>
      if (IpAddress.hexValue (rest.headD '.')).isSome && (c :: after).all (· != '\n') then .ok ()
      else .error .valueError
    | _ => .error .valueError
  | _ =>
    match IpAddress.parse hostname with
    | some (.v6 _) => .ok ()
    | _ => .error .valueError

def checkBracketedNetloc (netloc : List Char) : Except PyError Unit :=
  match Text.partition '[' (afterLast '@' netloc) with
  | (beforeBracket, some bracketed) =>
    if beforeBracket ≠ [] then .error .valueError
    else
      let hostname := cut ']' bracketed
      if hostname.2 ≠ [] ∧ hostname.2.head? ≠ some ':' then .error .valueError
      else checkBracketedHost hostname.1
  | (hostnameAndPort, none) => checkBracketedHost (cut ':' hostnameAndPort).1

def checkNetloc (unicode : Unicode) (netloc : List Char) : Except PyError Unit :=
  if netloc.all (·.toNat < 128) then .ok ()
  else
    let n := netloc.filter fun c => !(c == '@' || c == ':' || c == '#' || c == '?')
    if unicode.nfkc n = n then .ok ()
    else if (unicode.nfkc n).any fun c => c == '/' || c == '?' || c == '#' || c == '@' || c == ':' then
      .error .valueError
    else .ok ()

def checkBrackets (netloc : List Char) : Except PyError Unit :=
  if ('[' ∈ netloc ∧ ']' ∉ netloc) ∨ (']' ∈ netloc ∧ '[' ∉ netloc) then .error .valueError
  else if '[' ∈ netloc ∧ ']' ∈ netloc then checkBracketedNetloc netloc
  else .ok ()

def urlsplit (unicode : Unicode) (url : List Char) : Except PyError SplitResult := do
  let (scheme, url) := splitScheme (clean url)
  let (netloc, url) := splitNetloc url
  checkBrackets netloc
  let (url, fragment) := cut '#' url
  let (path, query) := cut '?' url
  checkNetloc unicode netloc
  return ⟨scheme, netloc, path, query, fragment⟩

theorem urlsplit_eq_ok {unicode : Unicode} {url : List Char} {parts : SplitResult}
    (h : urlsplit unicode url = .ok parts) : ∃ rest,
      splitNetloc (splitScheme (clean url)).2 = (parts.netloc, rest) ∧ parts.path = (cut '?' (cut '#' rest).1).1 := by
  unfold urlsplit at h
  obtain ⟨-, -, h⟩ := (Guard.bind_eq_ok _ _ _).mp h
  obtain ⟨-, -, h⟩ := (Guard.bind_eq_ok _ _ _).mp h
  obtain rfl := Except.ok.inj h
  exact ⟨_, rfl, rfl⟩

theorem cut_fst (sep : Char) (cs : List Char) : (cut sep cs).1 = cs.takeWhile (· != sep) := by
  unfold cut Text.partition
  split
  · rename_i heq
    exact (Prod.mk.inj heq).1.symm
  · rename_i heq
    exact (Prod.mk.inj heq).1.symm

theorem splitNetloc_rest {url netloc rest : List Char} (h : splitNetloc url = (netloc, rest)) (hne : netloc ≠ []) :
    rest = [] ∨ ∃ c tail, rest = c :: tail ∧ isDelimiter c = true := by
  unfold splitNetloc at h
  split at h
  · obtain ⟨-, rfl⟩ := Prod.mk.inj h
    rename_i after
    cases hrest : after.dropWhile fun c => !isDelimiter c with
    | nil => exact .inl rfl
    | cons c tail =>
      have hsome : after.dropWhile (fun c => !isDelimiter c) ≠ [] := by
        rw [hrest]
        exact List.cons_ne_nil c tail
      have hhead := List.head_dropWhile_not (fun c => !isDelimiter c) hsome
      simp only [hrest, List.head_cons, Bool.not_eq_false'] at hhead
      exact .inr ⟨c, tail, rfl, hhead⟩
  · obtain ⟨rfl, -⟩ := Prod.mk.inj h
    exact absurd rfl hne

theorem path_of_netloc {unicode : Unicode} {url : List Char} {parts : SplitResult}
    (h : urlsplit unicode url = .ok parts) (hne : parts.netloc ≠ []) :
    ¬ (parts.path ≠ [] ∧ parts.path.head? ≠ some '/') := by
  obtain ⟨rest, hrest, hpath⟩ := urlsplit_eq_ok h
  rw [hpath, cut_fst, cut_fst]
  rcases splitNetloc_rest hrest hne with rfl | ⟨c, tail, rfl, hc⟩
  · simp
  · simp only [isDelimiter, Bool.or_eq_true, beq_iff_eq] at hc
    rcases hc with (rfl | rfl) | rfl
    · simp
    · simp
    · simp

/-! ## Host and port -/

def SplitResult.hostinfo (parts : SplitResult) : List Char × List Char :=
  match Text.partition '[' (afterLast '@' parts.netloc) with
  | (_, some bracketed) => ((cut ']' bracketed).1, (cut ':' (cut ']' bracketed).2).2)
  | (hostinfo, none) => cut ':' hostinfo

/-- `hostname`: the zone of an address keeps its capitals. -/
def SplitResult.hostname (unicode : Unicode) (parts : SplitResult) : Option (List Char) :=
  match parts.hostinfo.1 with
  | [] => none
  | host =>
    match Text.partition '%' host with
    | (hostname, some zone) => some (unicode.lower hostname ++ '%' :: zone)
    | (hostname, none) => some (unicode.lower hostname)

def SplitResult.port (parts : SplitResult) : Except PyError (Option ℕ) :=
  match parts.hostinfo.2 with
  | [] => .ok none
  | port =>
    if port.all Char.isDigit then
      match Text.int port with
      | none => .error .valueError
      | some n => if 0 ≤ n ∧ n ≤ 65535 then .ok (some n.toNat) else .error .valueError
    else .error .valueError

theorem netloc_ne_nil {unicode : Unicode} {parts : SplitResult} {host : List Char}
    (h : parts.hostname unicode = some host) : parts.netloc ≠ [] := by
  intro hnil
  have hnone : parts.hostname unicode = none := by
    rw [SplitResult.hostname, SplitResult.hostinfo, hnil]
    rfl
  rw [hnone] at h
  cases h

/-! ## Putting together -/

def urlunsplit (parts : SplitResult) : List Char :=
  let url := if parts.path ≠ [] ∧ parts.path.head? ≠ some '/' then '/' :: parts.path else parts.path
  let url := '/' :: '/' :: (parts.netloc ++ url)
  let url := if parts.scheme ≠ [] then parts.scheme ++ ':' :: url else url
  let url := if parts.query ≠ [] then url ++ '?' :: parts.query else url
  if parts.fragment ≠ [] then url ++ '#' :: parts.fragment else url

theorem urlunsplit_eq {parts : SplitResult} (hscheme : parts.scheme ≠ [])
    (hpath : ¬ (parts.path ≠ [] ∧ parts.path.head? ≠ some '/')) :
    urlunsplit parts = parts.scheme ++ "://".toList ++ parts.netloc ++ parts.path ++
      (if parts.query ≠ [] then '?' :: parts.query else []) ++
      (if parts.fragment ≠ [] then '#' :: parts.fragment else []) := by
  unfold urlunsplit
  rw [if_neg hpath]
  dsimp only
  rw [if_pos hscheme]
  have hcolon : "://".toList = [':', '/', '/'] := rfl
  by_cases hquery : parts.query = []
  · by_cases hfragment : parts.fragment = []
    · simp [hquery, hfragment, hcolon]
    · simp [hquery, hfragment, hcolon]
  · by_cases hfragment : parts.fragment = []
    · simp [hquery, hfragment, hcolon]
    · simp [hquery, hfragment, hcolon]

end FavoniusBackend.Lib.UrlParts
