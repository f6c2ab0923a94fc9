import FavoniusBackend.Lib.Calendar
import FavoniusBackend.Lib.Uuid

/-!
# Python's datetimes

A datetime is a wall time, counted in microseconds from the beginning of the year 1, and the offset of its zone if it has
one.  `strftime` writes the year through the C library, of which some pad it to four digits and some do not; `strptime`
matches a text against the regular expression of its format.  What was written to the second is read as the second that the
time lies in (`strptime_seconds`).
-/

namespace FavoniusBackend.Lib

open Lib.Calendar
open Lib.Uuid (padded length_padded mem_padded)

namespace DateTime

def dayLength : ℤ := 86400000000

/-- A wall time that a `datetime` can have: the years 1 to 9999. -/
abbrev Wall := { w : ℤ // 0 ≤ w ∧ w < 3652059 * dayLength }

end DateTime

structure DateTime where
  wall : DateTime.Wall
  offset : Option ℤ

namespace DateTime

/-- The time in UTC of an aware datetime; a naive one counts as UTC. -/
def instant (t : DateTime) : ℤ := t.wall.val - t.offset.getD 0

def utc (w : Wall) : DateTime := ⟨w, some 0⟩

/-- `astimezone(timezone.utc)`, with `none` for its `OverflowError`. -/
def toUtc (t : DateTime) : Option Wall :=
  if h : 0 ≤ t.instant ∧ t.instant < 3652059 * dayLength then some ⟨t.instant, h⟩ else none

/-! ## Fields -/

def date (w : Wall) : Date := Date.ofOrdinal (w.val / dayLength + 1)

def hour (w : Wall) : ℕ := (w.val % dayLength / 3600000000).toNat

def minute (w : Wall) : ℕ := (w.val % 3600000000 / 60000000).toNat

def second (w : Wall) : ℕ := (w.val % 60000000 / 1000000).toNat

def year (w : Wall) : ℕ := (date w).year.toNat

/-- `datetime(year, month, …)`, with `none` for its `ValueError`. -/
def ofFields (year month day hour minute second micros : ℕ) : Option Wall :=
  if 1 ≤ month ∧ month ≤ 12 ∧ 1 ≤ day ∧ (day : ℤ) ≤ daysInMonth year month ∧ hour < 24 ∧ minute < 60 ∧ second < 60 then
    let w : ℤ := (ordinal year month day - 1) * dayLength + hour * 3600000000 + minute * 60000000 + second * 1000000 + micros
    if h : 0 ≤ w ∧ w < 3652059 * dayLength then some ⟨w, h⟩ else none
  else none

/-! ## Formats -/

inductive Directive where
  | year
  | month
  | day
  | hour
  | minute
  | second
  | micros
  | lit (c : Char)
  deriving DecidableEq

/-- `%Y-%m-%dT%H:%M:%SZ`. -/
def secondsFormat : List Directive :=
  [.year, .lit '-', .month, .lit '-', .day, .lit 'T', .hour, .lit ':', .minute, .lit ':', .second, .lit 'Z']

/-- `%Y-%m-%dT%H:%M:%S.%fZ`. -/
def microsFormat : List Directive :=
  [.year, .lit '-', .month, .lit '-', .day, .lit 'T', .hour, .lit ':', .minute, .lit ':', .second, .lit '.', .micros,
    .lit 'Z']

def yearText (padsYear : Bool) (y : ℕ) : List Char :=
  padded 10 (if padsYear ∨ 1000 ≤ y then 4 else if 100 ≤ y then 3 else if 10 ≤ y then 2 else 1) y

example : yearText false 970 = ['9', '7', '0'] := by decide +kernel

def Directive.text (padsYear : Bool) (w : Wall) : Directive → List Char
  | .year => yearText padsYear (DateTime.year w)
  | .month => padded 10 2 (date w).month.toNat
  | .day => padded 10 2 (date w).day.toNat
  | .hour => padded 10 2 (DateTime.hour w)
  | .minute => padded 10 2 (DateTime.minute w)
  | .second => padded 10 2 (DateTime.second w)
  | .micros => padded 10 6 (w.val % 1000000).toNat
  | .lit c => [c]

/-- `strftime(format)`; `padsYear` says whether the C library pads the year. -/
def strftime (padsYear : Bool) (format : List Directive) (w : Wall) : List Char :=
  format.flatMap (Directive.text padsYear w)

/-! ## Matching -/

abbrev CharClass := Char → Option ℕ

/-- `[lo-hi]`. -/
def range (lo hi : Char) : CharClass := fun c => if lo ≤ c ∧ c ≤ hi then some (c.toNat - 48) else none

def letter (c : Char) : CharClass := fun c' => if c'.toLower = c.toLower then some 0 else none

/-- The alternatives of a directive, in the order of its regular expression; `\d` is any decimal digit. -/
def Directive.alternatives : Directive → List (List CharClass)
  | .year => [[Text.decimal, Text.decimal, Text.decimal, Text.decimal]]
  | .month => [[range '1' '1', range '0' '2'], [range '0' '0', range '1' '9'], [range '1' '9']]
  | .day => [[range '3' '3', range '0' '1'], [range '1' '2', Text.decimal], [range '0' '0', range '1' '9'],
      [range '1' '9'], [letter ' ', range '1' '9']]
  | .hour => [[range '2' '2', range '0' '3'], [range '0' '1', Text.decimal], [Text.decimal]]
  | .minute => [[range '0' '5', Text.decimal], [Text.decimal]]
  | .second => [[range '6' '6', range '0' '1'], [range '0' '5', Text.decimal], [Text.decimal]]
  | .micros => [6, 5, 4, 3, 2, 1].map fun n => List.replicate n (range '0' '9')
  | .lit c => [[letter c]]

def matchClasses : List CharClass → ℕ → List Char → Option (ℕ × List Char)
  | [], n, cs => some (n, cs)
  | _ :: _, _, [] => none
  | p :: ps, n, c :: cs => (p c).bind fun d => matchClasses ps (10 * n + d) cs

/-- The value of a directive; the digits of `%f` are filled up to six. -/
def Directive.value (d : Directive) (width n : ℕ) : ℕ := if d = .micros then n * 10 ^ (6 - width) else n

/-- The first way to match a format, in the order in which the regular expression tries them: the values, and what is
left. -/
def matchFormat : List Directive → List Char → Option (List (Directive × ℕ) × List Char)
  | [], cs => some ([], cs)
  | d :: ds, cs => d.alternatives.findSome? fun classes =>
    (matchClasses classes 0 cs).bind fun (n, rest) =>
      (matchFormat ds rest).map fun (values, rest) => ((d, d.value classes.length n) :: values, rest)

def field (values : List (Directive × ℕ)) (d : Directive) (default : ℕ) : ℕ := (values.lookup d).getD default

def strptime (format : List Directive) (cs : List Char) : Option Wall :=
  match matchFormat format cs with
  | some (values, []) =>
    ofFields (field values .year 1900) (field values .month 1) (field values .day 1) (field values .hour 0)
      (field values .minute 0) (field values .second 0) (field values .micros 0)
  | _ => none

/-! ## Fields of a wall time -/

theorem year_bounds (w : Wall) : 1 ≤ (date w).year ∧ (date w).year ≤ 9999 := by
  obtain ⟨hlo, hhi⟩ := w.property
  unfold dayLength at hhi
  have hyear : (date w).year = yearOf (w.val / dayLength + 1) := rfl
  obtain ⟨hbefore, hafter⟩ := yearOf_spec (w.val / dayLength + 1)
  rw [← hyear] at hbefore hafter
  unfold dayLength at hbefore hafter
  constructor
  · by_contra hlow
    have hle := @daysBeforeYear_le ((date w).year + 1) 1 (by omega)
    have hone : daysBeforeYear 1 = 0 := rfl
    omega
  · by_contra hhigh
    have hle := @daysBeforeYear_le 10000 (date w).year (by omega)
    have hlast : daysBeforeYear 10000 = 3652059 := rfl
    omega

theorem year_lt (w : Wall) : year w < 10000 := by
  have := year_bounds w
  unfold year
  omega

theorem month_bounds (w : Wall) : 1 ≤ (date w).month.toNat ∧ (date w).month.toNat ≤ 12 := by
  have := (date w).month_valid
  omega

theorem day_bounds (w : Wall) : 1 ≤ (date w).day.toNat ∧ (date w).day.toNat ≤ 31 := by
  have hvalid := (date w).day_valid
  have hbounds := daysInMonth_bounds (date w).year (date w).month
  omega

theorem time_bounds (w : Wall) : hour w < 24 ∧ minute w < 60 ∧ second w < 60 := by
  unfold hour minute second dayLength
  omega

def wholeSecond (w : Wall) : Wall := ⟨w.val - w.val % 1000000, by
  have := w.property
  omega⟩

theorem ofFields_fields (w : Wall) : ofFields (year w) (date w).month.toNat (date w).day.toNat (hour w) (minute w)
    (second w) 0 = some (wholeSecond w) := by
  have hyear : ((year w : ℕ) : ℤ) = (date w).year := Int.toNat_of_nonneg (by have := year_bounds w; omega)
  have hmonth : (((date w).month.toNat : ℕ) : ℤ) = (date w).month :=
    Int.toNat_of_nonneg (by have := (date w).month_valid; omega)
  have hday : (((date w).day.toNat : ℕ) : ℤ) = (date w).day :=
    Int.toNat_of_nonneg (by have := (date w).day_valid; omega)
  have hordinal : ordinal (date w).year (date w).month (date w).day = w.val / dayLength + 1 :=
    Date.toOrdinal_ofOrdinal _
  have hvalid := (date w).day_valid.2
  have hwall : (w.val / dayLength + 1 - 1) * dayLength + hour w * 3600000000 + minute w * 60000000 +
      second w * 1000000 + (0 : ℕ) = (wholeSecond w).val := by
    have hlo := w.property.1
    show _ = w.val - w.val % 1000000
    unfold hour minute second dayLength
    omega
  unfold ofFields
  rw [hyear, hmonth, hday, if_pos ⟨(month_bounds w).1, (month_bounds w).2, (day_bounds w).1, hvalid, time_bounds w⟩,
    hordinal]
  simp only [hwall, (wholeSecond w).property, and_self, dite_true]

/-! ## What is written to the second -/

theorem matchClasses_append {ps : List CharClass} {n m : ℕ} {xs : List Char} (h : matchClasses ps n xs = some (m, []))
    (ys : List Char) : matchClasses ps n (xs ++ ys) = some (m, ys) := by
  induction ps generalizing n xs with
  | nil =>
    obtain ⟨rfl, rfl⟩ := Prod.mk.inj (Option.some.inj h)
    rfl
  | cons p ps ih =>
    cases xs with
    | nil => exact nomatch h
    | cons c xs =>
      obtain ⟨d, hd, hrest⟩ := Option.bind_eq_some_iff.mp h
      show ((p c).bind fun d => matchClasses ps (10 * n + d) (xs ++ ys)) = some (m, ys)
      rw [hd, Option.bind_some]
      exact ih hrest

theorem matchClasses_stop {ps : List CharClass} {n : ℕ} {xs : List Char} {c : Char} (h : xs.length < ps.length)
    (hstop : ∀ p ∈ ps, p c = none) (ys : List Char) : matchClasses ps n (xs ++ c :: ys) = none := by
  induction ps generalizing n xs with
  | nil => exact absurd h (Nat.not_lt_zero _)
  | cons p ps ih =>
    cases xs with
    | nil =>
      show ((p c).bind fun d => matchClasses ps (10 * n + d) ys) = none
      rw [hstop p List.mem_cons_self, Option.bind_none]
    | cons x xs =>
      show ((p x).bind fun d => matchClasses ps (10 * n + d) (xs ++ c :: ys)) = none
      cases p x with
      | none => rfl
      | some d => exact ih (Nat.lt_of_succ_lt_succ h) fun q hq => hstop q (List.mem_cons_of_mem _ hq)

theorem matchClasses_subset {ps : List CharClass} {n m : ℕ} {xs rest : List Char}
    (h : matchClasses ps n xs = some (m, rest)) : rest ⊆ xs := by
  induction ps generalizing n xs with
  | nil =>
    obtain ⟨-, rfl⟩ := Prod.mk.inj (Option.some.inj h)
    exact List.Subset.refl _
  | cons p ps ih =>
    cases xs with
    | nil => exact nomatch h
    | cons c xs =>
      obtain ⟨d, -, hrest⟩ := Option.bind_eq_some_iff.mp h
      exact List.subset_cons_of_subset c (ih hrest)

def firstValue : List (List CharClass) → List Char → Option ℕ
  | [], _ => none
  | ps :: alternatives, xs =>
    if ps.length = xs.length then
      match matchClasses ps 0 xs with
      | some (n, []) => some n
      | _ => firstValue alternatives xs
    else none

theorem matchClasses_rest {ps : List CharClass} {n m : ℕ} {xs rest : List Char}
    (h : matchClasses ps n xs = some (m, rest)) : xs.length = ps.length + rest.length := by
  induction ps generalizing n xs with
  | nil =>
    obtain ⟨-, rfl⟩ := Prod.mk.inj (Option.some.inj h)
    exact (Nat.zero_add _).symm
  | cons p ps ih =>
    cases xs with
    | nil => exact nomatch h
    | cons c xs =>
      obtain ⟨d, -, hrest⟩ := Option.bind_eq_some_iff.mp h
      have := ih hrest
      simp only [List.length_cons]
      omega

theorem matchClasses_append_none {ps : List CharClass} {n : ℕ} {xs : List Char} (hlength : ps.length = xs.length)
    (h : matchClasses ps n xs = none) (ys : List Char) : matchClasses ps n (xs ++ ys) = none := by
  induction ps generalizing n xs with
  | nil => exact nomatch h
  | cons p ps ih =>
    cases xs with
    | nil => exact nomatch hlength
    | cons c xs =>
      have h : ((p c).bind fun d => matchClasses ps (10 * n + d) xs) = none := h
      show ((p c).bind fun d => matchClasses ps (10 * n + d) (xs ++ ys)) = none
      cases hc : p c with
      | none => rfl
      | some d =>
        rw [hc] at h
        exact ih (Nat.succ.inj hlength) h

/-- A directive takes the text of its first alternative where the rest of the format matches what is after it. -/
theorem findSome?_firstValue {β : Type} {alternatives : List (List CharClass)} {xs ys : List Char} {n : ℕ}
    (h : firstValue alternatives xs = some n) (k : ℕ → ℕ × List Char → Option β) {b : β}
    (hk : k xs.length (n, ys) = some b) :
    (alternatives.findSome? fun classes => (matchClasses classes 0 (xs ++ ys)).bind (k classes.length)) = some b := by
  induction alternatives with
  | nil => exact nomatch h
  | cons ps alternatives ih =>
    unfold firstValue at h
    split at h
    · rename_i hlength
      split at h
      · rename_i m hmatch
        obtain rfl := Option.some.inj h
        rw [List.findSome?_cons, matchClasses_append hmatch, Option.bind_some, hlength, hk]
      · rename_i hnot
        have hnone : matchClasses ps 0 xs = none := by
          cases hmatch : matchClasses ps 0 xs with
          | none => rfl
          | some result =>
            obtain ⟨m, rest⟩ := result
            have hrest := matchClasses_rest hmatch
            obtain rfl := List.length_eq_zero_iff.mp (show rest.length = 0 by omega)
            exact absurd hmatch (hnot m)
        rw [List.findSome?_cons, matchClasses_append_none hlength hnone, Option.bind_none]
        exact ih h
    · exact nomatch h

def Reads (d : Directive) (width n : ℕ) : Prop := firstValue d.alternatives (padded 10 width n) = some n

instance (d : Directive) (width n : ℕ) : Decidable (Reads d width n) := inferInstanceAs (Decidable (_ = _))

theorem matchFormat_read {d : Directive} {ds : List Directive} {width n : ℕ} (hmicros : d ≠ .micros)
    (hreads : Reads d width n) {cs : List Char} {values : List (Directive × ℕ)}
    (h : matchFormat ds cs = some (values, [])) :
    matchFormat (d :: ds) (padded 10 width n ++ cs) = some ((d, n) :: values, []) := by
  refine findSome?_firstValue hreads (fun width (n, rest) =>
    (matchFormat ds rest).map fun (values, rest) => ((d, d.value width n) :: values, rest)) ?_
  simp only [h, Option.map_some, Directive.value, if_neg hmicros]

theorem matchFormat_lit {c : Char} {ds : List Directive} {cs : List Char} {values : List (Directive × ℕ)}
    (h : matchFormat ds cs = some (values, [])) :
    matchFormat (.lit c :: ds) (c :: cs) = some ((.lit c, 0) :: values, []) := by
  simp [matchFormat, Directive.alternatives, matchClasses, letter, Directive.value, h]

theorem reads_month {n : ℕ} (h : 1 ≤ n ∧ n ≤ 12) : Reads .month 2 n := by
  have hall : ∀ n ≤ 12, 1 ≤ n → Reads .month 2 n := by decide
  exact hall n h.2 h.1

theorem reads_day {n : ℕ} (h : 1 ≤ n ∧ n ≤ 31) : Reads .day 2 n := by
  have hall : ∀ n ≤ 31, 1 ≤ n → Reads .day 2 n := by decide
  exact hall n h.2 h.1

theorem reads_hour {n : ℕ} (h : n < 24) : Reads .hour 2 n := by
  have hall : ∀ n < 24, Reads .hour 2 n := by decide
  exact hall n h

theorem reads_minute {n : ℕ} (h : n < 60) : Reads .minute 2 n := by
  have hall : ∀ n < 60, Reads .minute 2 n := by decide
  exact hall n h

theorem reads_second {n : ℕ} (h : n < 60) : Reads .second 2 n := by
  have hall : ∀ n < 60, Reads .second 2 n := by decide
  exact hall n h

theorem decimal_digitChar {d : ℕ} (h : d < 10) : Text.decimal (Nat.digitChar d) = some d := by
  have hall : ∀ d < 10, Text.decimal (Nat.digitChar d) = some d := by decide
  exact hall d h

theorem reads_year {n : ℕ} (h : n < 10000) : Reads .year 4 n := by
  have hdigits : padded 10 4 n = [Nat.digitChar (n / 10 / 10 / 10 % 10), Nat.digitChar (n / 10 / 10 % 10),
    Nat.digitChar (n / 10 % 10), Nat.digitChar (n % 10)] := rfl
  have hvalue : 10 * (10 * (10 * (10 * 0 + n / 10 / 10 / 10 % 10) + n / 10 / 10 % 10) + n / 10 % 10) + n % 10 = n := by
    omega
  unfold Reads
  rw [hdigits]
  simp only [firstValue, Directive.alternatives, List.length_cons, List.length_nil, if_true, matchClasses,
    decimal_digitChar (Nat.mod_lt _ (show 0 < 10 by decide)), Option.bind_some, hvalue]

theorem strptime_seconds {padsYear : Bool} {w : Wall} (hyear : padsYear = true ∨ 1000 ≤ year w) :
    strptime secondsFormat (strftime padsYear secondsFormat w) = some (wholeSecond w) := by
  have htext : yearText padsYear (year w) = padded 10 4 (year w) := by
    unfold yearText
    rw [if_pos hyear]
  obtain ⟨hhour, hminute, hsecond⟩ := time_bounds w
  have hmatch : matchFormat secondsFormat (strftime padsYear secondsFormat w) =
      some ([(.year, year w), (.lit '-', 0), (.month, (date w).month.toNat), (.lit '-', 0), (.day, (date w).day.toNat),
        (.lit 'T', 0), (.hour, hour w), (.lit ':', 0), (.minute, minute w), (.lit ':', 0), (.second, second w),
        (.lit 'Z', 0)], []) := by
    unfold strftime secondsFormat
    simp only [List.flatMap_cons, List.flatMap_nil, Directive.text, htext, List.append_nil, List.singleton_append]
    refine matchFormat_read (by decide) (reads_year (year_lt w)) (matchFormat_lit ?_)
    refine matchFormat_read (by decide) (reads_month (month_bounds w)) (matchFormat_lit ?_)
    refine matchFormat_read (by decide) (reads_day (day_bounds w)) (matchFormat_lit ?_)
    refine matchFormat_read (by decide) (reads_hour hhour) (matchFormat_lit ?_)
    refine matchFormat_read (by decide) (reads_minute hminute) (matchFormat_lit ?_)
    exact matchFormat_read (by decide) (reads_second hsecond) (matchFormat_lit rfl)
  unfold strptime
  rw [hmatch]
  exact ofFields_fields w

theorem strptime_unpadded {padsYear : Bool} {w : Wall} (hyear : ¬(padsYear = true ∨ 1000 ≤ year w)) :
    strptime secondsFormat (strftime padsYear secondsFormat w) = none := by
  have hshort : (yearText padsYear (year w)).length < 4 := by
    unfold yearText
    rw [length_padded, if_neg hyear]
    split
    · decide
    · split
      · decide
      · decide
  have hnone : matchFormat secondsFormat (strftime padsYear secondsFormat w) = none := by
    unfold strftime secondsFormat
    rw [List.flatMap_cons, List.flatMap_cons, matchFormat]
    simp only [Directive.text, Directive.alternatives, List.findSome?_cons, List.findSome?_nil]
    rw [List.singleton_append, matchClasses_stop hshort (by decide), Option.bind_none]
  unfold strptime
  rw [hnone]

theorem matchFormat_none {c : Char} {ds : List Directive} (hc : .lit c ∈ ds) {cs : List Char}
    (h : ∀ c' ∈ cs, c'.toLower ≠ c.toLower) : matchFormat ds cs = none := by
  induction ds generalizing cs with
  | nil => exact nomatch hc
  | cons d ds ih =>
    refine List.findSome?_eq_none_iff.mpr fun classes hclasses => ?_
    rcases List.mem_cons.mp hc with rfl | hrest
    · obtain rfl := List.mem_singleton.mp hclasses
      cases cs with
      | nil => rfl
      | cons c' cs =>
        have hnot : letter c c' = none := if_neg (h c' List.mem_cons_self)
        rw [matchClasses, hnot, Option.bind_none, Option.bind_none]
    · cases hmatch : matchClasses classes 0 cs with
      | none => rfl
      | some result =>
        obtain ⟨n, rest⟩ := result
        have hnone := ih hrest fun c' hc' => h c' (matchClasses_subset hmatch hc')
        show Option.map _ (matchFormat ds rest) = none
        rw [hnone, Option.map_none]

theorem mem_strftime {padsYear : Bool} {w : Wall} {c : Char} (hc : c ∈ strftime padsYear secondsFormat w) :
    (∃ d < 10, c = Nat.digitChar d) ∨ c ∈ ['-', 'T', ':', 'Z'] := by
  obtain ⟨d, hd, hc⟩ := List.mem_flatMap.mp hc
  cases d with
  | lit c' =>
    obtain rfl := List.mem_singleton.mp hc
    have hall : ∀ d ∈ secondsFormat, ∀ c, d = .lit c → c ∈ ['-', 'T', ':', 'Z'] := by simp [secondsFormat]
    exact .inr (hall _ hd c rfl)
  | year => exact .inl (mem_padded (by decide) hc)
  | month => exact .inl (mem_padded (by decide) hc)
  | day => exact .inl (mem_padded (by decide) hc)
  | hour => exact .inl (mem_padded (by decide) hc)
  | minute => exact .inl (mem_padded (by decide) hc)
  | second => exact .inl (mem_padded (by decide) hc)
  | micros => exact .inl (mem_padded (by decide) hc)

theorem strptime_micros (padsYear : Bool) (w : Wall) :
    strptime microsFormat (strftime padsYear secondsFormat w) = none := by
  have hnone : matchFormat microsFormat (strftime padsYear secondsFormat w) = none := by
    refine @matchFormat_none '.' microsFormat (by decide) _ fun c hc => ?_
    rcases mem_strftime hc with ⟨d, hd, rfl⟩ | hlit
    · have hall : ∀ d < 10, (Nat.digitChar d).toLower ≠ '.'.toLower := by decide
      exact hall d hd
    · have hall : (['-', 'T', ':', 'Z'].all fun c => decide (c.toLower ≠ '.'.toLower)) = true := by decide
      exact of_decide_eq_true (List.all_eq_true.mp hall c hlit)
  unfold strptime
  rw [hnone]

end DateTime

end FavoniusBackend.Lib
