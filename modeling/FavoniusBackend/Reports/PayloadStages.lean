import FavoniusBackend.Lib.Checks
import FavoniusBackend.Reports.Payloads

/-!
# The checks of a payload, as stages

Each check accepts some values, and copes with all but a few (`Lib.Checks`): a check against a set of texts does not
cope with a list or a dictionary, and the time of day not with digits that are not decimal.
-/

namespace FavoniusBackend.Reports.Payloads

open Lib Lib.PyJson Lib.PyText Lib.Checks

def Error.IsValidation : Error → Prop
  | .scheduleValidationError _ => True
  | .other _ => False

/-! ## Stages -/

def IsOneOf {α : Type} (all : List α) (text : α → String) (value : Json) : Prop :=
  ∃ a ∈ all, value = .str (py (text a))

/-- Two digits of any kind, a colon and two more. -/
def Shaped (s : PyStr) : Prop :=
  ∃ c d e f, s = [c, d, ':'.toNat, e, f] ∧ isDigitChar c ∧ isDigitChar d ∧ isDigitChar e ∧ isDigitChar f

def Decimals (s : PyStr) : Prop := ∀ c ∈ s, c ≠ ':'.toNat → (decimal c).isSome

/-- The number that two digits are. -/
def pair (c d : ℕ) : Option ℕ := (decimal c).bind fun x => (decimal d).map fun y => 10 * x + y

def IsClock (s : PyStr) : Prop :=
  ∃ c d e f, s = [c, d, ':'.toNat, e, f] ∧ ∃ hour ≤ 23, ∃ minute ≤ 59, pair c d = some hour ∧ pair e f = some minute

/-- `HH:mm` in ASCII. -/
def IsAscii (s : PyStr) : Prop :=
  ∃ c d e f, s = [c, d, ':'.toNat, e, f] ∧ ∀ digit ∈ [c, d, e, f], '0'.toNat ≤ digit ∧ digit ≤ '9'.toNat

/-- An address that passes. -/
def IsEmail (s : PyStr) : Prop :=
  '@'.toNat ∈ s ∧ s.takeWhile (· != '@'.toNat) ≠ [] ∧ '.'.toNat ∈ (s.dropWhile (· != '@'.toNat)).tail ∧
    (s.dropWhile (· != '@'.toNat)).tail.getLast? ≠ some '.'.toNat

def oneOfStage {α : Type} (all : List α) (text : α → String) (value : Json) : Stage :=
  ⟨value.hashable, IsOneOf all text value⟩

def nameStage (value : Json) : Stage := ⟨True, ∃ s, value = .str s ∧ strip s ≠ []⟩

def groupByStage (value : Json) : Stage := ⟨value.hashable, value = .null ∨ IsOneOf GroupBy.all GroupBy.text value⟩

def groupByRequiredStage (kind groupBy : Json) : Stage :=
  ⟨True, kind = .str (py Kind.monthlyConsumption.text) → groupBy ≠ .null⟩

/-- A weekly schedule has a day of the week and none of the month, the others the other way round. -/
def cadenceStage (frequency dayOfMonth dayOfWeek : Json) : Stage :=
  ⟨True, if frequency = .str (py Frequency.weekly.text) then
      (∃ n, dayOfWeek = .int n ∧ 0 ≤ n ∧ n ≤ 6) ∧ dayOfMonth = .null
    else (∃ n, dayOfMonth = .int n ∧ 1 ≤ n ∧ n ≤ 28) ∧ dayOfWeek = .null⟩

def timeOfDayStage (value : Json) : Stage :=
  ⟨∀ s, value = .str s → Shaped s → Decimals s, ∃ s, value = .str s ∧ IsClock s⟩

def isActiveStage (value : Json) : Stage := ⟨True, ∃ active, value = .bool active⟩

section

variable (b : Builtins)

def members : Json → JsonObject
  | .obj fields => fields
  | _ => []

def emailOf (item : Json) : Json := ((members item).get "emailAddress").orElse ((members item).get "email_address")

def formatOf (item : Json) : Json := (members item).get "format"

def recipientKey (item : Json) : Option (PyStr × Format) :=
  match emailOf item with
  | .str email =>
    (Format.all.find? fun format => decide (formatOf item = .str (py format.text))).map fun format =>
      (b.lower email, format)
  | _ => none

def recipientStages (seen : List (PyStr × Format)) (item : Json) : List Stage :=
  [⟨True, ∃ fields, item = .obj fields⟩, ⟨True, ∃ s, emailOf item = .str s ∧ IsEmail s⟩,
    oneOfStage Format.all Format.text (formatOf item), ⟨True, ∀ key ∈ recipientKey b item, key ∉ seen⟩]

def itemsStages (seen : List (PyStr × Format)) : List Json → List Stage
  | [] => []
  | item :: rest => recipientStages b seen item ++ itemsStages ((recipientKey b item).toList ++ seen) rest

def recipientsStages : Json → List Stage
  | .null => []
  | .arr items => itemsStages b [] items
  | _ => [⟨True, False⟩]

def fieldStages (payload : JsonObject) : List Stage :=
  [nameStage (payload.get "name"), oneOfStage frequencies Frequency.text (payload.get "frequency"),
    oneOfStage Kind.all Kind.text (payload.get "kind"), groupByStage (payload.get "groupBy"),
    groupByRequiredStage (payload.get "kind") (payload.get "groupBy"),
    cadenceStage (payload.get "frequency") (payload.get "dayOfMonth") (payload.get "dayOfWeek"),
    ⟨True, payload.get "timeOfDay" ≠ .null⟩, timeOfDayStage (payload.get "timeOfDay"),
    oneOfStage AutonomyMode.all AutonomyMode.text (payload.get "autonomyMode"),
    isActiveStage ((Dict.lookup payload (py "isActive")).getD (.bool true))] ++
  recipientsStages b (payload.get "recipients")

def asciiStage (value : Json) : Stage := ⟨∃ s, value = .str s ∧ IsAscii s, True⟩

def payloadStages : Json → List Stage
  | .obj fields => fieldStages b fields ++ [asciiStage (JsonObject.get fields "timeOfDay")]
  | _ => []

/-! ## One check -/

abbrev FollowsStages {α : Type} (stages : List Stage) (x : Except Error α) : Prop :=
  Follows Error.IsValidation stages x

theorem isValidation_of_invalid {α : Type} {message : PyStr} {e : Error}
    (h : (invalid message : Except Error α) = .error e) : e.IsValidation := by
  cases h
  trivial

theorem member_eq {α : Type} (all : List α) (text : α → String) {value : Json} (h : value.hashable) :
    member all text value = .ok (all.find? fun a => decide (value = .str (py (text a)))) := if_pos h

theorem oneOf_eq_ok {α : Type} {all : List α} {text : α → String} {message : String} {value : Json} {a : α}
    (h : oneOf b all text message value = .ok a) :
    (all.find? fun a => decide (value = .str (py (text a)))) = some a := by
  obtain ⟨found, hfound, h⟩ := (Guard.bind_eq_ok _ _ _).mp h
  unfold member at hfound
  split at hfound
  · cases hfound
    cases hfind : all.find? fun a => decide (value = .str (py (text a))) with
    | none =>
      rw [hfind] at h
      cases h
    | some a' =>
      rw [hfind] at h
      cases h
      rfl
  · cases hfound

theorem text_of_find {α : Type} {all : List α} {text : α → String} {value : Json} {a : α}
    (h : (all.find? fun a => decide (value = .str (py (text a)))) = some a) : value = .str (py (text a)) :=
  of_decide_eq_true (List.find?_some h :)

theorem follows_oneOf {α : Type} (all : List α) (text : α → String) (message : String) (value : Json) :
    FollowsStages [oneOfStage all text value] (oneOf b all text message value) := by
  refine .single ?_ ?_
  · constructor
    · intro h
      by_contra hnot
      have hhash : ¬ value.hashable = true := hnot
      exact h (.other .typeError) (by rw [oneOf, member, if_neg hhash]; rfl)
    · intro hhash e he
      rw [oneOf, member_eq all text hhash] at he
      cases hfind : all.find? fun a => decide (value = .str (py (text a))) with
      | none =>
        rw [hfind] at he
        exact isValidation_of_invalid (α := α) he
      | some a =>
        rw [hfind] at he
        cases he
  · constructor
    · intro ⟨a, ha⟩
      have hfind := oneOf_eq_ok b ha
      exact ⟨a, List.mem_of_find?_eq_some hfind, text_of_find hfind⟩
    · intro ⟨a, ha, hvalue⟩
      have hhash : value.hashable := by
        rw [hvalue]
        rfl
      have hsome : (all.find? fun a => decide (value = .str (py (text a)))).isSome :=
        List.find?_isSome.mpr ⟨a, ha, decide_eq_true hvalue⟩
      obtain ⟨a', ha'⟩ := Option.isSome_iff_exists.mp hsome
      refine ⟨a', ?_⟩
      rw [oneOf, member_eq all text hhash, ha']
      rfl

theorem follows_validateName (value : Json) : FollowsStages [nameStage value] (validateName value) := by
  refine .of_expected ?_ ?_
  · intro e he
    unfold validateName at he
    split at he
    · split at he
      · exact isValidation_of_invalid he
      · cases he
    · exact isValidation_of_invalid he
  · unfold validateName
    split
    · rename_i s
      split
      · rename_i hstrip
        exact iff_of_false nofun fun ⟨s', hs, hne⟩ => hne (Json.str.inj hs ▸ hstrip)
      · rename_i hstrip
        exact iff_of_true ⟨s, rfl⟩ ⟨s, rfl, hstrip⟩
    · rename_i hnot
      exact iff_of_false nofun fun ⟨s, hs, _⟩ => hnot s hs

theorem follows_validateIsActive (value : Json) : FollowsStages [isActiveStage value] (validateIsActive value) := by
  refine .of_expected ?_ ?_
  · intro e he
    unfold validateIsActive at he
    split at he
    · cases he
    · exact isValidation_of_invalid he
  · unfold validateIsActive
    split
    · exact iff_of_true ⟨_, rfl⟩ ⟨_, rfl⟩
    · rename_i hnot
      exact iff_of_false nofun fun ⟨active, h⟩ => hnot active h

theorem follows_boundedInt (lo hi : ℤ) (message : String) (value : Json) :
    FollowsStages [⟨True, ∃ n, value = .int n ∧ lo ≤ n ∧ n ≤ hi⟩] (boundedInt lo hi message value) := by
  refine .of_expected ?_ ?_
  · intro e he
    unfold boundedInt at he
    split at he
    · split at he
      · cases he
      · exact isValidation_of_invalid he
    · exact isValidation_of_invalid he
  · unfold boundedInt
    split
    · rename_i n
      split
      · rename_i hbounds
        exact iff_of_true ⟨_, rfl⟩ ⟨n, rfl, hbounds⟩
      · rename_i hbounds
        exact iff_of_false nofun fun ⟨n', hn, h⟩ => hbounds (Json.int.inj hn ▸ h)
    · rename_i hnot
      exact iff_of_false nofun fun ⟨n, hn, _⟩ => hnot n hn

/-! ## The time of day -/

theorem isDigitChar_ne_colon {c : ℕ} (h : isDigitChar c) : c ≠ ':'.toNat := by
  rintro rfl
  exact absurd h (by decide)

theorem splitOn_clock {c d e f : ℕ} (hc : c ≠ ':'.toNat) (hd : d ≠ ':'.toNat) (he : e ≠ ':'.toNat)
    (hf : f ≠ ':'.toNat) : [c, d, ':'.toNat, e, f].splitOn ':'.toNat = [[c, d], [e, f]] := by
  show (List.intercalate [':'.toNat] [[c, d], [e, f]]).splitOn ':'.toNat = _
  refine List.splitOn_intercalate ':'.toNat ?_ (List.cons_ne_nil _ _)
  intro part hpart
  rcases List.mem_pair.mp hpart with rfl | rfl
  · rw [List.mem_pair]
    rintro (h | h)
    · exact hc h.symm
    · exact hd h.symm
  · rw [List.mem_pair]
    rintro (h | h)
    · exact he h.symm
    · exact hf h.symm

theorem eq_of_splitOn {s hours minutes : PyStr} (h : s.splitOn ':'.toNat = [hours, minutes]) :
    s = hours ++ ':'.toNat :: minutes := by
  have hjoin : List.intercalate [':'.toNat] (s.splitOn ':'.toNat) = s := List.intercalate_splitOn ':'.toNat
  rw [h] at hjoin
  exact hjoin.symm.trans (by simp [List.intercalate])

theorem int_eq_pair {c d : ℕ} (hc : isDigitChar c) (hd : isDigitChar d) :
    int [c, d] = match pair c d with
      | some n => .ok (n : ℤ)
      | none => .error .valueError := by
  rw [int_pair hc hd, pair]
  cases decimal c with
  | none => rfl
  | some x =>
    cases decimal d with
    | none => rfl
    | some y =>
      show Except.ok (10 * (x : ℤ) + y) = Except.ok ((10 * x + y : ℕ) : ℤ)
      push_cast
      rfl

theorem parseHhMm_shaped {c d e f : ℕ} (hc : isDigitChar c) (hd : isDigitChar d) (he : isDigitChar e)
    (hf : isDigitChar f) : parseHhMm b (.str [c, d, ':'.toNat, e, f]) =
      match int [c, d], int [e, f] with
        | .ok hour, .ok minute =>
          if h : (0 ≤ hour ∧ hour ≤ 23) ∧ 0 ≤ minute ∧ minute ≤ 59 then .ok ⟨hour, minute, h.1, h.2⟩
          else invalid (py "timeOfDay " ++ b.repr (.str [c, d, ':'.toNat, e, f]) ++ py " is out of range")
        | .error err, _ => .error (.other err)
        | _, .error err => .error (.other err) := by
  have hdigits : isDigit [c, d] && isDigit [e, f] := by simp [isDigit, hc, hd, he, hf]
  unfold parseHhMm
  dsimp only
  rw [splitOn_clock (isDigitChar_ne_colon hc) (isDigitChar_ne_colon hd) (isDigitChar_ne_colon he)
    (isDigitChar_ne_colon hf)]
  dsimp only
  rw [if_neg (by simp), hdigits]
  rfl

theorem parseHhMm_of_not_shaped {s : PyStr} (h : ¬ Shaped s) : ∃ message, parseHhMm b (.str s) = invalid message := by
  unfold parseHhMm
  dsimp only
  split
  · rename_i hours minutes hsplit
    split
    · exact ⟨_, rfl⟩
    · rename_i hlength
      rw [not_or, not_ne_iff, not_ne_iff] at hlength
      split
      · exact ⟨_, rfl⟩
      · rename_i hdigits
        refine absurd ?_ h
        obtain ⟨c, d, rfl⟩ := List.length_eq_two.mp hlength.1
        obtain ⟨e, f, rfl⟩ := List.length_eq_two.mp hlength.2
        simp only [isDigit, List.isEmpty_cons, Bool.not_false, Bool.true_and, List.all_cons, List.all_nil,
          Bool.and_true, Bool.not_eq_true', Bool.not_eq_false, Bool.and_eq_true] at hdigits
        exact ⟨c, d, e, f, eq_of_splitOn hsplit, hdigits.1.1, hdigits.1.2, hdigits.2.1, hdigits.2.2⟩
  · exact ⟨_, rfl⟩

theorem decimals_iff {c d e f : ℕ} (hc : isDigitChar c) (hd : isDigitChar d) (he : isDigitChar e)
    (hf : isDigitChar f) : Decimals [c, d, ':'.toNat, e, f] ↔ (pair c d).isSome ∧ (pair e f).isSome := by
  have hpair : ∀ c d, (pair c d).isSome ↔ (decimal c).isSome ∧ (decimal d).isSome := by
    intro c d
    rw [pair]
    cases decimal c <;> cases decimal d <;> simp
  rw [hpair, hpair]
  constructor
  · intro h
    exact ⟨⟨h c (by simp) (isDigitChar_ne_colon hc), h d (by simp) (isDigitChar_ne_colon hd)⟩,
      h e (by simp) (isDigitChar_ne_colon he), h f (by simp) (isDigitChar_ne_colon hf)⟩
  · rintro ⟨⟨hc', hd'⟩, he', hf'⟩ x hx hcolon
    simp only [List.mem_cons, List.not_mem_nil, or_false] at hx
    rcases hx with rfl | rfl | rfl | rfl | rfl
    · exact hc'
    · exact hd'
    · exact absurd rfl hcolon
    · exact he'
    · exact hf'

theorem isDigitChar_of_pair {c d n : ℕ} (h : pair c d = some n) : isDigitChar c ∧ isDigitChar d := by
  obtain ⟨x, hx, h⟩ := Option.bind_eq_some_iff.mp h
  obtain ⟨y, hy, -⟩ := Option.map_eq_some_iff.mp h
  rw [isDigitChar, hx, isDigitChar, hy]
  exact ⟨rfl, rfl⟩

theorem IsClock.shaped {s : PyStr} (h : IsClock s) : Shaped s := by
  obtain ⟨c, d, e, f, rfl, hour, -, minute, -, hhour, hminute⟩ := h
  obtain ⟨hc, hd⟩ := isDigitChar_of_pair hhour
  obtain ⟨he, hf⟩ := isDigitChar_of_pair hminute
  exact ⟨c, d, e, f, rfl, hc, hd, he, hf⟩

theorem parseHhMm_pairs {c d e f hour minute : ℕ} (hhour : pair c d = some hour) (hminute : pair e f = some minute) :
    parseHhMm b (.str [c, d, ':'.toNat, e, f]) =
      if h : (0 ≤ (hour : ℤ) ∧ (hour : ℤ) ≤ 23) ∧ 0 ≤ (minute : ℤ) ∧ (minute : ℤ) ≤ 59 then
        .ok ⟨hour, minute, h.1, h.2⟩
      else invalid (py "timeOfDay " ++ b.repr (.str [c, d, ':'.toNat, e, f]) ++ py " is out of range") := by
  obtain ⟨hc, hd⟩ := isDigitChar_of_pair hhour
  obtain ⟨he, hf⟩ := isDigitChar_of_pair hminute
  rw [parseHhMm_shaped b hc hd he hf, int_eq_pair hc hd, int_eq_pair he hf, hhour, hminute]

theorem parseHhMm_not_decimal {c d e f : ℕ} (hc : isDigitChar c) (hd : isDigitChar d) (he : isDigitChar e)
    (hf : isDigitChar f) (h : pair c d = none ∨ pair e f = none) :
    parseHhMm b (.str [c, d, ':'.toNat, e, f]) = .error (.other .valueError) := by
  rw [parseHhMm_shaped b hc hd he hf, int_eq_pair hc hd, int_eq_pair he hf]
  rcases h with h | h
  · rw [h]
  · rw [h]
    cases pair c d with
    | none => rfl
    | some hour => rfl

section Shape

variable {c d e f : ℕ} (hc : isDigitChar c) (hd : isDigitChar d) (he : isDigitChar e) (hf : isDigitChar f)

include hc hd he hf

theorem timeOfDay_copes_iff :
    (timeOfDayStage (.str [c, d, ':'.toNat, e, f])).copes ↔ (pair c d).isSome ∧ (pair e f).isSome := by
  rw [← decimals_iff hc hd he hf]
  constructor
  · intro h
    exact h _ rfl ⟨c, d, e, f, rfl, hc, hd, he, hf⟩
  · rintro h s hs -
    exact Json.str.inj hs ▸ h

omit hc hd he hf in
theorem timeOfDay_accepts_iff : (timeOfDayStage (.str [c, d, ':'.toNat, e, f])).accepts ↔
    ∃ hour ≤ 23, ∃ minute ≤ 59, pair c d = some hour ∧ pair e f = some minute := by
  constructor
  · rintro ⟨s, hs, c', d', e', f', hs', h⟩
    obtain ⟨rfl, rfl, -, rfl, rfl, -⟩ : c' = c ∧ d' = d ∧ True ∧ e' = e ∧ f' = f ∧ True := by
      rw [← Json.str.inj hs] at hs'
      simpa [eq_comm] using hs'
    exact h
  · intro h
    exact ⟨_, rfl, c, d, e, f, rfl, h⟩

theorem follows_not_decimal (h : pair c d = none ∨ pair e f = none) :
    FollowsStages [timeOfDayStage (.str [c, d, ':'.toNat, e, f])] (parseHhMm b (.str [c, d, ':'.toNat, e, f])) := by
  rw [parseHhMm_not_decimal b hc hd he hf h]
  refine .single ?_ ?_
  · rw [timeOfDay_copes_iff hc hd he hf]
    refine iff_of_false (fun hall => hall (.other .valueError) rfl) ?_
    rintro ⟨hhour, hminute⟩
    rcases h with hnone | hnone
    · rw [hnone] at hhour
      cases hhour
    · rw [hnone] at hminute
      cases hminute
  · rw [timeOfDay_accepts_iff]
    refine iff_of_false nofun ?_
    rintro ⟨hour, -, minute, -, hhour, hminute⟩
    rcases h with hnone | hnone
    · cases hnone.symm.trans hhour
    · cases hnone.symm.trans hminute

theorem follows_pairs {hour minute : ℕ} (hhour : pair c d = some hour) (hminute : pair e f = some minute) :
    FollowsStages [timeOfDayStage (.str [c, d, ':'.toNat, e, f])] (parseHhMm b (.str [c, d, ':'.toNat, e, f])) := by
  rw [parseHhMm_pairs b hhour hminute]
  refine .single ?_ ?_
  · rw [timeOfDay_copes_iff hc hd he hf, hhour, hminute]
    refine iff_of_true ?_ ⟨rfl, rfl⟩
    intro err herr
    split at herr
    · cases herr
    · exact isValidation_of_invalid herr
  · rw [timeOfDay_accepts_iff]
    split
    · rename_i hrange
      exact iff_of_true ⟨_, rfl⟩ ⟨hour, by omega, minute, by omega, hhour, hminute⟩
    · rename_i hrange
      refine iff_of_false nofun ?_
      rintro ⟨hour', hle, minute', hle', hhour', hminute'⟩
      obtain rfl := Option.some.inj (hhour.symm.trans hhour')
      obtain rfl := Option.some.inj (hminute.symm.trans hminute')
      exact hrange (by omega)

end Shape

theorem follows_parseHhMm (value : Json) : FollowsStages [timeOfDayStage value] (parseHhMm b value) := by
  by_cases hstr : ∃ s, value = .str s
  · obtain ⟨s, rfl⟩ := hstr
    by_cases hshaped : Shaped s
    · obtain ⟨c, d, e, f, rfl, hc, hd, he, hf⟩ := hshaped
      by_cases hnone : pair c d = none ∨ pair e f = none
      · exact follows_not_decimal b hc hd he hf hnone
      · rw [not_or] at hnone
        obtain ⟨hour, hhour⟩ := Option.ne_none_iff_exists'.mp hnone.1
        obtain ⟨minute, hminute⟩ := Option.ne_none_iff_exists'.mp hnone.2
        exact follows_pairs b hc hd he hf hhour hminute
    · obtain ⟨message, hparse⟩ := parseHhMm_of_not_shaped b hshaped
      rw [hparse]
      refine .single (iff_of_true (fun e => isValidation_of_invalid) ?_) (iff_of_false nofun ?_)
      · intro s' hs' h
        exact absurd (Json.str.inj hs' ▸ h) hshaped
      · rintro ⟨s', hs', h⟩
        exact hshaped (Json.str.inj hs' ▸ h.shaped)
  · have hparse : parseHhMm b value = invalid (py "timeOfDay must be a 'HH:mm' string") := by
      unfold parseHhMm
      split
      · exact absurd ⟨_, rfl⟩ hstr
      · rfl
    rw [hparse]
    refine .single (iff_of_true (fun e => isValidation_of_invalid) ?_) (iff_of_false nofun ?_)
    · intro s hs
      exact absurd ⟨s, hs⟩ hstr
    · rintro ⟨s, hs, -⟩
      exact hstr ⟨s, hs⟩

end

end FavoniusBackend.Reports.Payloads
