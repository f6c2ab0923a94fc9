import FavoniusBackend.Lib.DateTime
import FavoniusBackend.Lib.Dict
import FavoniusBackend.Lib.FloatText
import FavoniusBackend.Lib.Guard
import FavoniusBackend.Lib.RoseTree
import FavoniusBackend.Lib.Sql

/-!
# Day-ahead price documents

`_parse_price_document` of `adapters/entsoe/prices.py` turns a `Publication_MarketDocument` into prices.  A Period of the
document states an interval, a resolution and some points; the price at a step is that of the last point given not after
it.  The parser steps through each Period up to its greatest position, by a quarter of an hour for `PT15M` and by an hour
for any other resolution.

The parser of XML and `datetime.fromisoformat` are given.
-/

namespace FavoniusBackend.Adapters.PriceDocument

open Lib
open Lib.PyJson (PyFloat PyError floatOfText)
open Lib.DateTime (Wall Directive strftime strptime dayLength utc)
open Lib.Uuid (mem_padded)

/-! ## Elements -/

structure Tagged where
  tag : String
  text : Option String

abbrev Element := RoseTree Tagged

/-- A tag in the namespace of the document. -/
def qualified (name : String) : String :=
  "\x7burn:iec62325.351:tc57wg16:451-3:publicationdocument:7:3\x7d" ++ name

/-- `find`: the first child with the tag. -/
def find (name : String) (e : Element) : Option Element :=
  e.children.find? fun c => decide (c.label.tag = qualified name)

/-- `iter`: the element and what is below it, in document order. -/
def iter (name : String) : Element → List Element :=
  RoseTree.para fun label cs =>
    (if label.tag = qualified name then [.node label (cs.map Prod.fst)] else []) ++ cs.flatMap Prod.snd

/-! ## The parser -/

structure ENTSOEPrice where
  timestamp : DateTime
  priceEurMwh : PyFloat
  biddingZone : String
  currency : Option String
  resolution : Option String

inductive ParseFailure where
  | parseError
  | raised (e : PyError)

def utcSuffix : List Char := ['+', '0', '0', ':', '0', '0']

def parseUtcTime (fromisoformat : String → Option DateTime) (timeStr : String) : Except ParseFailure DateTime :=
  let cs := Text.strip timeStr.toList
  match fromisoformat (String.ofList (if cs.getLast? = some 'Z' then cs.dropLast ++ utcSuffix else cs)) with
  | some t => .ok t
  | none => .error (.raised .valueError)

/-- `t + timedelta(minutes=minutes)`. -/
def plusMinutes (t : DateTime) (minutes : ℤ) : Except ParseFailure DateTime :=
  if h : 0 ≤ t.wall.val + minutes * 60000000 ∧ t.wall.val + minutes * 60000000 < 3652059 * dayLength then
    .ok ⟨⟨_, h⟩, t.offset⟩
  else .error (.raised .overflowError)

/-- The position and the amount of a `Point`; one that lacks either, or is no number, is skipped. -/
def readPoint (point : Element) : Option (ℤ × PyFloat) := do
  let posEl ← find "position" point
  let priceEl ← find "price.amount" point
  let position ← posEl.label.text.bind fun text => Text.int text.toList
  let priceAmount ← priceEl.label.text.bind fun text => floatOfText text.toList
  return (position, priceAmount)

def pointMap (period : Element) : Dict ℤ PyFloat := Dict.ofList ((iter "Point" period).filterMap readPoint)

def series (points : Dict ℤ PyFloat) (periodStart : DateTime) (stepMinutes : ℤ) (price : DateTime → PyFloat → ENTSOEPrice) :
    ℕ → ℤ → PyFloat → Except ParseFailure (List ENTSOEPrice)
  | 0, _, _ => .ok []
  | n + 1, pos, lastPrice => do
    let lastPrice := points.getD pos lastPrice
    let tsTime ← plusMinutes periodStart ((pos - 1) * stepMinutes)
    let rest ← series points periodStart stepMinutes price n (pos + 1) lastPrice
    return price tsTime lastPrice :: rest

def stepMinutes (resolution : Option String) : ℤ := if resolution = some "PT15M" then 15 else 60

def periodPrices (fromisoformat : String → Option DateTime) (biddingZone : String) (currency : Option String)
    (period : Element) : Except ParseFailure (List ENTSOEPrice) :=
  match (find "timeInterval" period).bind fun interval => (find "start" interval).bind fun start => start.label.text with
  | none => .ok []
  | some startText => do
    let periodStart ← parseUtcTime fromisoformat startText
    let resolution := ((find "resolution" period).map fun e => e.label.text).getD (some "PT60M")
    let points := pointMap period
    match points.keys.max? with
    | none => return []
    | some maxPos =>
      series points periodStart (stepMinutes resolution)
        (fun timestamp lastPrice => ⟨timestamp, lastPrice, biddingZone, currency, resolution⟩) maxPos.toNat 1 (.finite 0)

def seriesPrices (fromisoformat : String → Option DateTime) (biddingZone : String) (ts : Element) :
    Except ParseFailure (List ENTSOEPrice) := do
  let currency := ((find "currency_Unit.name" ts).map fun e => e.label.text).getD (some "EUR")
  let prices ← Guard.collect (periodPrices fromisoformat biddingZone currency) (iter "Period" ts)
  return prices.flatten

/-- Sorting by timestamp, which cannot compare a datetime that has a zone with one that has none, and dropping a price
whose timestamp was seen. -/
def sortUnique (prices : List ENTSOEPrice) : Except ParseFailure (List ENTSOEPrice) :=
  if (∀ p ∈ prices, p.timestamp.offset.isSome) ∨ ∀ p ∈ prices, p.timestamp.offset.isNone then
    .ok (Sql.firstOf (fun p q => p.timestamp.instant ≤ q.timestamp.instant) (fun p => p.timestamp.instant) prices)
  else .error (.raised .typeError)

def parsePriceDocument (fromstring : String → Option Element) (fromisoformat : String → Option DateTime)
    (xmlText biddingZone : String) : Except ParseFailure (List ENTSOEPrice) :=
  match fromstring xmlText with
  | none => .error .parseError
  | some root => do
    let prices ← Guard.collect (seriesPrices fromisoformat biddingZone) (iter "TimeSeries" root)
    sortUnique prices.flatten

/-! ## Documents -/

inductive Resolution where
  | quarter
  | half
  | hour
  deriving DecidableEq, Repr

def Resolution.text : Resolution → String
  | .quarter => "PT15M"
  | .half => "PT30M"
  | .hour => "PT60M"

def Resolution.minutes : Resolution → ℤ
  | .quarter => 15
  | .half => 30
  | .hour => 60

structure Point where
  position : ℕ
  amount : PyFloat

/-- A Period: its interval is cut into steps, and it gives a price for some of them, for the first in any case. -/
structure Period where
  start : Wall
  stop : Wall
  resolution : Resolution
  steps : ℕ
  stop_eq : stop.val = start.val + steps * (resolution.minutes * 60000000)
  points : List Point
  placed : ∀ q ∈ points, 1 ≤ q.position ∧ q.position ≤ steps
  apart : (points.map Point.position).Nodup
  first : ∃ q ∈ points, q.position = 1

structure Document where
  series : List (List Period)
  disjoint : series.flatten.Pairwise fun p q => p.stop.val ≤ q.start.val ∨ q.stop.val ≤ p.start.val

def Document.periods (d : Document) : List Period := d.series.flatten

def Period.time (p : Period) (k : ℕ) : ℤ := p.start.val + k * (p.resolution.minutes * 60000000)

def Period.InForce (p : Period) (k : ℕ) (amount : PyFloat) : Prop :=
  ∃ q ∈ p.points, q.position ≤ k + 1 ∧ q.amount = amount ∧ ∀ q' ∈ p.points, q'.position ≤ k + 1 → q'.position ≤ q.position

def Document.Step (d : Document) (t : ℤ) (amount : PyFloat) : Prop :=
  ∃ p ∈ d.periods, ∃ k < p.steps, t = p.time k ∧ p.InForce k amount

structure Document.ReadAs (d : Document) (prices : List ENTSOEPrice) : Prop where
  increasing : prices.Pairwise fun p q => p.timestamp.instant < q.timestamp.instant
  steps : ∀ t amount, (∃ p ∈ prices, p.timestamp.instant = t ∧ p.priceEurMwh = amount) ↔ d.Step t amount

/-! ## Documents as text -/

/-- `%Y-%m-%dT%H:%M`. -/
def minuteFormat : List Directive :=
  [.year, .lit '-', .month, .lit '-', .day, .lit 'T', .hour, .lit ':', .minute]

def minuteText (w : Wall) : List Char := strftime true minuteFormat w

def WholeMinute (w : Wall) : Prop := w.val % 60000000 = 0

instance (w : Wall) : Decidable (WholeMinute w) := inferInstanceAs (Decidable (_ = _))

/-- `datetime.fromisoformat`, which reads a time to the minute in UTC. -/
structure IsoReader where
  read : String → Option DateTime
  read_minute : ∀ w : Wall, WholeMinute w → read (String.ofList (minuteText w ++ utcSuffix)) = some (utc w)

def Holds (name : String) (e : Element) (text : String) : Prop := ∃ c, find name e = some c ∧ c.label.text = some text

structure Point.WrittenAs (e : Element) (q : Point) : Prop where
  position : ∃ text, Holds "position" e text ∧ Text.int text.toList = some (q.position : ℤ)
  amount : ∃ text, Holds "price.amount" e text ∧ floatOfText text.toList = some q.amount

structure Period.WrittenAs (e : Element) (p : Period) : Prop where
  minutes : WholeMinute p.start
  interval : ∃ i, find "timeInterval" e = some i ∧ Holds "start" i (String.ofList (minuteText p.start ++ ['Z'])) ∧
    Holds "end" i (String.ofList (minuteText p.stop ++ ['Z']))
  resolution : Holds "resolution" e p.resolution.text
  points : List.Forall₂ Point.WrittenAs (iter "Point" e) p.points

def Document.WrittenAs (root : Element) (d : Document) : Prop :=
  List.Forall₂ (fun ts periods => List.Forall₂ Period.WrittenAs (iter "Period" ts) periods) (iter "TimeSeries" root) d.series

/-! ## Times in text -/

theorem strptime_minutes {w : Wall} (hw : WholeMinute w) :
    strptime (minuteFormat ++ utcSuffix.map Directive.lit) (minuteText w ++ utcSuffix) = some w := by
  have hwhole : DateTime.wholeSecond w = w := by
    apply Subtype.ext
    unfold WholeMinute at hw
    show w.val - w.val % 1000000 = w.val
    omega
  have hsecond : DateTime.second w = 0 := by
    unfold WholeMinute at hw
    unfold DateTime.second
    omega
  obtain ⟨hhour, hminute, -⟩ := DateTime.time_bounds w
  have hzone : DateTime.matchFormat (utcSuffix.map Directive.lit) utcSuffix =
      some (utcSuffix.map fun c => (Directive.lit c, 0), []) := by decide
  have hmatch : DateTime.matchFormat (minuteFormat ++ utcSuffix.map Directive.lit)
      (minuteText w ++ utcSuffix) =
      some ([(.year, DateTime.year w), (.lit '-', 0), (.month, (DateTime.date w).month.toNat), (.lit '-', 0),
        (.day, (DateTime.date w).day.toNat), (.lit 'T', 0), (.hour, DateTime.hour w), (.lit ':', 0),
        (.minute, DateTime.minute w)] ++ utcSuffix.map fun c => (Directive.lit c, 0), []) := by
    simp only [minuteText, strftime, minuteFormat, List.flatMap_cons, List.flatMap_nil, Directive.text, DateTime.yearText,
      true_or, if_true, List.append_nil, List.append_assoc, List.cons_append]
    refine DateTime.matchFormat_read (by decide) (DateTime.reads_year (DateTime.year_lt w)) (DateTime.matchFormat_lit ?_)
    refine DateTime.matchFormat_read (by decide) (DateTime.reads_month (DateTime.month_bounds w))
      (DateTime.matchFormat_lit ?_)
    refine DateTime.matchFormat_read (by decide) (DateTime.reads_day (DateTime.day_bounds w)) (DateTime.matchFormat_lit ?_)
    refine DateTime.matchFormat_read (by decide) (DateTime.reads_hour hhour) (DateTime.matchFormat_lit ?_)
    exact DateTime.matchFormat_read (by decide) (DateTime.reads_minute hminute) hzone
  have hfields := DateTime.ofFields_fields w
  rw [hsecond, hwhole] at hfields
  rw [strptime, hmatch]
  exact hfields

def minuteReader : IsoReader where
  read s := (strptime (minuteFormat ++ utcSuffix.map Directive.lit) s.toList).map utc
  read_minute w hw := by
    rw [String.toList_ofList, strptime_minutes hw]
    rfl

theorem digit_not_space {c : Char} (h : ∃ d < 10, c = Nat.digitChar d) : Text.isSpace c = false := by
  obtain ⟨d, hd, rfl⟩ := h
  have hall : ∀ d < 10, Text.isSpace (Nat.digitChar d) = false := by decide
  exact hall d hd

theorem parseUtcTime_minuteText (reader : IsoReader) {w : Wall} (hw : WholeMinute w) :
    parseUtcTime reader.read (String.ofList (minuteText w ++ ['Z'])) = .ok (utc w) := by
  have hspace : ∀ c ∈ minuteText w ++ ['Z'], Text.isSpace c = false := by
    intro c hc
    rcases List.mem_append.mp hc with hc | hc
    · obtain ⟨d, hd, hc⟩ := List.mem_flatMap.mp hc
      cases d with
      | lit c' =>
        obtain rfl := List.mem_singleton.mp hc
        have hall : ∀ d ∈ minuteFormat, ∀ c, d = .lit c → Text.isSpace c = false := by
          simp [minuteFormat, Text.isSpace]
        exact hall _ hd c rfl
      | year => exact digit_not_space (mem_padded (by decide) hc)
      | month => exact digit_not_space (mem_padded (by decide) hc)
      | day => exact digit_not_space (mem_padded (by decide) hc)
      | hour => exact digit_not_space (mem_padded (by decide) hc)
      | minute => exact digit_not_space (mem_padded (by decide) hc)
      | second => exact digit_not_space (mem_padded (by decide) hc)
      | micros => exact digit_not_space (mem_padded (by decide) hc)
    · obtain rfl := List.mem_singleton.mp hc
      decide
  rw [parseUtcTime, String.toList_ofList, Text.strip, Text.stripWhere_eq_self hspace, List.getLast?_concat,
    List.dropLast_concat, if_pos rfl, reader.read_minute w hw]

/-! ## The loop over the positions -/

section Series

variable {points : Dict ℤ PyFloat} {periodStart : DateTime} {minutes : ℤ} {price : DateTime → PyFloat → ENTSOEPrice}

/-- The last price at the position `pos + i`. -/
def carried (points : Dict ℤ PyFloat) (lastPrice : PyFloat) (pos : ℤ) : ℕ → PyFloat
  | 0 => points.getD pos lastPrice
  | i + 1 => points.getD (pos + (i + 1)) (carried points lastPrice pos i)

theorem carried_succ (lastPrice : PyFloat) (pos : ℤ) (i : ℕ) :
    carried points lastPrice pos (i + 1) = carried points (points.getD pos lastPrice) (pos + 1) i := by
  induction i with
  | zero => rfl
  | succ i ih =>
    have hpos : pos + ((i + 1 : ℕ) + 1) = pos + 1 + ((i : ℤ) + 1) := by push_cast; omega
    rw [carried, ih, hpos]
    rfl

theorem mem_series {n : ℕ} {pos : ℤ} {lastPrice : PyFloat} {prices : List ENTSOEPrice}
    (h : series points periodStart minutes price n pos lastPrice = .ok prices) (x : ENTSOEPrice) :
    x ∈ prices ↔ ∃ i < n, ∃ t, plusMinutes periodStart ((pos - 1 + i) * minutes) = .ok t ∧
      x = price t (carried points lastPrice pos i) := by
  induction n generalizing pos lastPrice prices with
  | zero =>
    cases h
    constructor
    · exact nofun
    · rintro ⟨i, hi, -⟩
      omega
  | succ n ih =>
    rw [series, Guard.bind_eq_ok] at h
    obtain ⟨t, ht, h⟩ := h
    rw [Guard.bind_eq_ok] at h
    obtain ⟨rest, hrest, h⟩ := h
    cases h
    rw [List.mem_cons, ih hrest]
    constructor
    · rintro (rfl | ⟨i, hi, t', ht', rfl⟩)
      · refine ⟨0, by omega, t, ?_, rfl⟩
        rw [Nat.cast_zero, add_zero]
        exact ht
      · refine ⟨i + 1, by omega, t', ?_, ?_⟩
        · rw [← ht']
          congr 2
          push_cast
          omega
        · rw [carried_succ]
    · rintro ⟨i, hi, t', ht', rfl⟩
      cases i with
      | zero =>
        left
        rw [Nat.cast_zero, add_zero, ht] at ht'
        cases ht'
        rfl
      | succ i =>
        right
        refine ⟨i, by omega, t', ?_, ?_⟩
        · rw [← ht']
          congr 2
          push_cast
          omega
        · rw [carried_succ]

theorem exists_series {n : ℕ} {pos : ℤ} {lastPrice : PyFloat} :
    (∃ prices, series points periodStart minutes price n pos lastPrice = .ok prices) ↔
      ∀ i < n, ∃ t, plusMinutes periodStart ((pos - 1 + i) * minutes) = .ok t := by
  induction n generalizing pos lastPrice with
  | zero =>
    constructor
    · intro _ i hi
      omega
    · intro _
      exact ⟨[], rfl⟩
  | succ n ih =>
    have hpos : ∀ i : ℕ, pos - 1 + ((i + 1 : ℕ) : ℤ) = pos + 1 - 1 + i := by
      intro i
      push_cast
      omega
    constructor
    · rintro ⟨prices, h⟩
      rw [series, Guard.bind_eq_ok] at h
      obtain ⟨t, ht, h⟩ := h
      rw [Guard.bind_eq_ok] at h
      obtain ⟨rest, hrest, -⟩ := h
      intro i hi
      cases i with
      | zero =>
        rw [Nat.cast_zero, add_zero]
        exact ⟨t, ht⟩
      | succ i =>
        rw [hpos]
        exact ih.mp ⟨rest, hrest⟩ i (by omega)
    · intro h
      obtain ⟨t, ht⟩ := h 0 (by omega)
      rw [Nat.cast_zero, add_zero] at ht
      have hlater : ∀ i < n, ∃ t, plusMinutes periodStart ((pos + 1 - 1 + i) * minutes) = .ok t := by
        intro i hi
        rw [← hpos]
        exact h (i + 1) (by omega)
      obtain ⟨rest, hrest⟩ := ih.mpr hlater
      refine ⟨price t (points.getD pos lastPrice) :: rest, ?_⟩
      rw [series, ht, Guard.bind_eq_ok]
      refine ⟨t, rfl, ?_⟩
      rw [hrest]
      rfl

end Series

/-! ## One Period -/

def Period.last (p : Period) : ℕ := (p.points.map Point.position).foldr max 0

theorem Period.le_last (p : Period) {q : Point} (hq : q ∈ p.points) : q.position ≤ p.last := by
  have hle : ∀ points : List Point, q ∈ points → q.position ≤ (points.map Point.position).foldr max 0 := by
    intro points
    induction points with
    | nil => exact fun h => absurd h List.not_mem_nil
    | cons q' points ih =>
      intro h
      rw [List.map_cons, List.foldr_cons]
      rcases List.mem_cons.mp h with rfl | h
      · exact le_max_left _ _
      · exact (ih h).trans (le_max_right _ _)
  exact hle p.points hq

theorem Period.exists_last (p : Period) : ∃ q ∈ p.points, q.position = p.last := by
  have hmem : ∀ points : List Point, points ≠ [] →
      ∃ q ∈ points, q.position = (points.map Point.position).foldr max 0 := by
    intro points
    induction points with
    | nil => exact fun h => absurd rfl h
    | cons q points ih =>
      intro _
      rw [List.map_cons, List.foldr_cons]
      by_cases hnil : points = []
      · subst hnil
        exact ⟨q, List.mem_cons_self, (max_eq_left (Nat.zero_le _)).symm⟩
      · obtain ⟨q', hq', hmax⟩ := ih hnil
        rcases max_choice q.position ((points.map Point.position).foldr max 0) with h | h
        · exact ⟨q, List.mem_cons_self, h.symm⟩
        · exact ⟨q', List.mem_cons_of_mem _ hq', hmax.trans h.symm⟩
  obtain ⟨q, hq, -⟩ := p.first
  exact hmem p.points (List.ne_nil_of_mem hq)

theorem Period.last_le (p : Period) : p.last ≤ p.steps := by
  obtain ⟨q, hq, hlast⟩ := p.exists_last
  rw [← hlast]
  exact (p.placed q hq).2

theorem Period.InForce.unique {p : Period} {k : ℕ} {amount amount' : PyFloat} (h : p.InForce k amount)
    (h' : p.InForce k amount') : amount = amount' := by
  obtain ⟨q, hq, hle, rfl, hmax⟩ := h
  obtain ⟨q', hq', hle', rfl, hmax'⟩ := h'
  have hposition : q.position = q'.position := le_antisymm (hmax' q hq hle) (hmax q' hq' hle')
  rw [List.inj_on_of_nodup_map p.apart hq hq' hposition]

section Written

variable {e : Element} {p : Period}

theorem Point.WrittenAs.readPoint_eq {e : Element} {q : Point} (h : q.WrittenAs e) :
    readPoint e = some ((q.position : ℤ), q.amount) := by
  obtain ⟨_, ⟨c, hc, hctext⟩, hposition⟩ := h.position
  obtain ⟨_, ⟨c', hc', hctext'⟩, hamount⟩ := h.amount
  simp only [readPoint, hc, hc', hctext, hctext', hposition, hamount, Option.bind_eq_bind, Option.bind_some, Option.pure_def]

theorem filterMap_readPoint {es : List Element} {qs : List Point} (h : List.Forall₂ Point.WrittenAs es qs) :
    es.filterMap readPoint = qs.map fun q => ((q.position : ℤ), q.amount) := by
  induction h with
  | nil => rfl
  | cons hq _ ih => rw [List.filterMap_cons, hq.readPoint_eq, ih, List.map_cons]

theorem Period.WrittenAs.get?_pointMap (h : p.WrittenAs e) {k : ℤ} {v : PyFloat} :
    (pointMap e).get? k = some v ↔ ∃ q ∈ p.points, (q.position : ℤ) = k ∧ q.amount = v := by
  have hnodup : ((p.points.map fun q => ((q.position : ℤ), q.amount)).map Prod.fst).Nodup := by
    rw [List.map_map]
    have hcast := p.apart.map (f := ((↑) : ℕ → ℤ)) Nat.cast_injective
    rwa [List.map_map] at hcast
  rw [pointMap, filterMap_readPoint h.points, Dict.get?_ofList_of_nodup hnodup, List.mem_map]
  apply exists_congr
  intro q
  rw [Prod.mk.injEq]

theorem Period.WrittenAs.max_keys (h : p.WrittenAs e) : (pointMap e).keys.max? = some (p.last : ℤ) := by
  have hkeys : ∀ k : ℤ, k ∈ (pointMap e).keys ↔ ∃ q ∈ p.points, (q.position : ℤ) = k := by
    intro k
    rw [← Dict.mem_iff_mem_keys, Dict.mem_iff_isSome, Option.isSome_iff_exists]
    constructor
    · rintro ⟨v, hv⟩
      obtain ⟨q, hq, hk, -⟩ := h.get?_pointMap.mp hv
      exact ⟨q, hq, hk⟩
    · rintro ⟨q, hq, hk⟩
      exact ⟨q.amount, h.get?_pointMap.mpr ⟨q, hq, hk, rfl⟩⟩
  rw [List.max?_eq_some_iff]
  constructor
  · obtain ⟨q, hq, hlast⟩ := p.exists_last
    exact (hkeys _).mpr ⟨q, hq, by rw [hlast]⟩
  · intro k hk
    obtain ⟨q, hq, rfl⟩ := (hkeys k).mp hk
    exact_mod_cast p.le_last hq

theorem Period.WrittenAs.inForce_carried (h : p.WrittenAs e) (lastPrice : PyFloat) (i : ℕ) :
    p.InForce i (carried (pointMap e) lastPrice 1 i) := by
  induction i with
  | zero =>
    obtain ⟨q, hq, hone⟩ := p.first
    have hget : (pointMap e).get? 1 = some q.amount := h.get?_pointMap.mpr ⟨q, hq, by rw [hone]; rfl, rfl⟩
    refine ⟨q, hq, by omega, ?_, fun q' _ hle => by omega⟩
    rw [carried, Dict.getD, hget, Option.getD_some]
  | succ i ih =>
    rw [carried, Dict.getD]
    cases hget : (pointMap e).get? (1 + ((i : ℤ) + 1)) with
    | some v =>
      obtain ⟨q, hq, hposition, rfl⟩ := h.get?_pointMap.mp hget
      exact ⟨q, hq, by omega, rfl, fun q' _ hle => by omega⟩
    | none =>
      obtain ⟨q, hq, hle, hamount, hmax⟩ := ih
      refine ⟨q, hq, by omega, hamount, ?_⟩
      intro q' hq' hle'
      have hne : (q'.position : ℤ) ≠ 1 + ((i : ℤ) + 1) := by
        intro heq
        rw [h.get?_pointMap.mpr ⟨q', hq', heq, rfl⟩] at hget
        cases hget
      exact hmax q' hq' (by omega)

def Period.stride (p : Period) : ℤ := stepMinutes (some p.resolution.text)

theorem Period.stride_eq (p : Period) (h : p.resolution ≠ .half) : p.stride = p.resolution.minutes := by
  unfold Period.stride
  cases hres : p.resolution with
  | quarter => rfl
  | half => exact absurd hres h
  | hour => rfl

theorem Period.stride_half (p : Period) (h : p.resolution = .half) : p.stride = 60 := by
  rw [Period.stride, h]
  rfl

def Period.Emits (p : Period) (t : ℤ) (amount : PyFloat) : Prop :=
  ∃ i < p.last, t = p.start.val + i * (p.stride * 60000000) ∧ p.InForce i amount

theorem Period.WrittenAs.periodPrices_eq (h : p.WrittenAs e) (reader : IsoReader) (biddingZone : String)
    (currency : Option String) :
    periodPrices reader.read biddingZone currency e = series (pointMap e) (utc p.start) p.stride
      (fun timestamp lastPrice => ⟨timestamp, lastPrice, biddingZone, currency, some p.resolution.text⟩) p.last 1
      (.finite 0) := by
  obtain ⟨i, hi, ⟨c, hc, hctext⟩, -⟩ := h.interval
  obtain ⟨r, hr, hrtext⟩ := h.resolution
  simp only [periodPrices, hi, hc, hctext, hr, hrtext, Option.bind_some, Option.map_some, Option.getD_some,
    parseUtcTime_minuteText reader h.minutes, h.max_keys, Int.toNat_natCast]
  rfl

theorem plusMinutes_eq_ok {t t' : DateTime} {minutes : ℤ} : plusMinutes t minutes = .ok t' ↔
    t'.wall.val = t.wall.val + minutes * 60000000 ∧ t'.offset = t.offset := by
  obtain ⟨⟨w', hw'⟩, o'⟩ := t'
  unfold plusMinutes
  split
  · constructor
    · intro h
      cases h
      exact ⟨rfl, rfl⟩
    · rintro ⟨rfl, rfl⟩
      rfl
  · rename_i hrange
    constructor
    · exact nofun
    · rintro ⟨rfl, -⟩
      exact absurd hw' hrange

def Says (prices : List ENTSOEPrice) (S : ℤ → PyFloat → Prop) : Prop :=
  (∀ x ∈ prices, x.timestamp.offset = some 0) ∧
    ∀ t amount, (∃ x ∈ prices, x.timestamp.instant = t ∧ x.priceEurMwh = amount) ↔ S t amount

theorem Period.WrittenAs.emitted (h : p.WrittenAs e) {reader : IsoReader} {biddingZone : String}
    {currency : Option String} {prices : List ENTSOEPrice}
    (hprices : periodPrices reader.read biddingZone currency e = .ok prices) : Says prices p.Emits := by
  rw [h.periodPrices_eq] at hprices
  have hmem := mem_series hprices
  have hinstant : ∀ {i : ℕ} (t : DateTime), plusMinutes (utc p.start) ((1 - 1 + (i : ℤ)) * p.stride) = .ok t →
      t.instant = p.start.val + i * (p.stride * 60000000) := by
    intro i t ht
    obtain ⟨hwall, hoffset⟩ := plusMinutes_eq_ok.mp ht
    show t.wall.val - t.offset.getD 0 = _
    rw [hwall, hoffset]
    show p.start.val + (1 - 1 + (i : ℤ)) * p.stride * 60000000 - 0 = _
    ring
  refine ⟨?_, ?_⟩
  · intro x hx
    obtain ⟨i, -, t, ht, rfl⟩ := (hmem x).mp hx
    exact (plusMinutes_eq_ok.mp ht).2
  · intro t amount
    constructor
    · rintro ⟨x, hx, rfl, rfl⟩
      obtain ⟨i, hi, t, ht, rfl⟩ := (hmem x).mp hx
      exact ⟨i, hi, hinstant t ht, h.inForce_carried _ i⟩
    · rintro ⟨i, hi, rfl, hforce⟩
      obtain ⟨t, ht⟩ := exists_series.mp ⟨prices, hprices⟩ i hi
      refine ⟨_, (hmem _).mpr ⟨i, hi, t, ht, rfl⟩, ?_, (h.inForce_carried _ i).unique hforce⟩
      rw [hinstant t ht]

theorem Period.WrittenAs.exists_periodPrices (h : p.WrittenAs e)
    (hinside : ∀ i < p.last, p.start.val + i * (p.stride * 60000000) < p.stop.val) (reader : IsoReader)
    (biddingZone : String) (currency : Option String) :
    ∃ prices, periodPrices reader.read biddingZone currency e = .ok prices := by
  rw [h.periodPrices_eq, exists_series]
  intro i hi
  have hstride : 0 ≤ p.stride := by
    unfold Period.stride stepMinutes
    split
    · decide
    · decide
  have htime : (utc p.start).wall.val + (1 - 1 + (i : ℤ)) * p.stride * 60000000 =
      p.start.val + i * (p.stride * 60000000) := by
    show p.start.val + _ = _
    ring
  have hnonneg : 0 ≤ (i : ℤ) * (p.stride * 60000000) := by positivity
  have hstart := p.start.property.1
  have hstop := p.stop.property.2
  have hi' := hinside i hi
  have hrange : 0 ≤ p.start.val + i * (p.stride * 60000000) ∧
      p.start.val + i * (p.stride * 60000000) < 3652059 * dayLength := ⟨by omega, by omega⟩
  exact ⟨⟨⟨_, hrange⟩, some 0⟩, plusMinutes_eq_ok.mpr ⟨htime.symm, rfl⟩⟩

end Written

/-! ## All Periods -/

section Collected

variable {α γ : Type} {f : α → Except ParseFailure (List ENTSOEPrice)} {R : α → γ → Prop}

theorem emitted_collect {S : γ → ℤ → PyFloat → Prop} (hf : ∀ a c prices, R a c → f a = .ok prices → Says prices (S c))
    {as : List α} {cs : List γ} (hR : List.Forall₂ R as cs) {all : List (List ENTSOEPrice)}
    (h : Guard.collect f as = .ok all) : Says all.flatten fun t amount => ∃ c ∈ cs, S c t amount := by
  induction hR generalizing all with
  | nil =>
    cases h
    refine ⟨fun x hx => absurd hx List.not_mem_nil, fun t amount => ⟨?_, ?_⟩⟩
    · rintro ⟨x, hx, -⟩
      exact absurd hx List.not_mem_nil
    · rintro ⟨c, hc, -⟩
      exact absurd hc List.not_mem_nil
  | cons hac _ ih =>
    rw [Guard.collect, Guard.bind_eq_ok] at h
    obtain ⟨prices, hprices, h⟩ := h
    rw [Guard.bind_eq_ok] at h
    obtain ⟨rest, hrest, h⟩ := h
    cases h
    obtain ⟨hzone, hemitted⟩ := hf _ _ _ hac hprices
    obtain ⟨hzone', hemitted'⟩ := ih hrest
    refine ⟨?_, ?_⟩
    · intro x hx
      rw [List.flatten_cons] at hx
      exact (List.mem_append.mp hx).elim (hzone x) (hzone' x)
    · intro t amount
      simp only [List.flatten_cons, List.mem_append, or_and_right, exists_or, hemitted, hemitted', List.mem_cons,
        exists_eq_left]

theorem exists_of_forall₂ {as : List α} {cs : List γ} (h : List.Forall₂ R as cs) :
    ∀ a ∈ as, ∃ c ∈ cs, R a c := by
  induction h with
  | nil => exact nofun
  | cons hac _ ih =>
    intro a ha
    rcases List.mem_cons.mp ha with rfl | ha
    · exact ⟨_, List.mem_cons_self, hac⟩
    · obtain ⟨c, hc, hRac⟩ := ih a ha
      exact ⟨c, List.mem_cons_of_mem _ hc, hRac⟩

end Collected

section Document

variable {d : Document} {root : Element} {reader : IsoReader} {biddingZone : String}

def Document.Emits (d : Document) (t : ℤ) (amount : PyFloat) : Prop := ∃ p ∈ d.periods, p.Emits t amount

theorem Document.WrittenAs.emitted (h : d.WrittenAs root) {all : List (List ENTSOEPrice)}
    (hall : Guard.collect (seriesPrices reader.read biddingZone) (iter "TimeSeries" root) = .ok all) :
    Says all.flatten d.Emits := by
  have hseries : ∀ ts periods prices, List.Forall₂ Period.WrittenAs (iter "Period" ts) periods →
      seriesPrices reader.read biddingZone ts = .ok prices →
      Says prices fun t amount => ∃ p ∈ periods, p.Emits t amount := by
    intro ts periods prices hperiods hprices
    rw [seriesPrices, Guard.bind_eq_ok] at hprices
    obtain ⟨parts, hparts, hprices⟩ := hprices
    cases hprices
    refine emitted_collect ?_ hperiods hparts
    intro e p prices he hp
    exact he.emitted hp
  obtain ⟨hzone, hemitted⟩ := emitted_collect hseries h hall
  refine ⟨hzone, fun t amount => (hemitted t amount).trans ?_⟩
  rw [Document.Emits, Document.periods]
  constructor
  · rintro ⟨periods, hperiods, p, hp, hemits⟩
    exact ⟨p, List.mem_flatten.mpr ⟨periods, hperiods, hp⟩, hemits⟩
  · rintro ⟨p, hp, hemits⟩
    obtain ⟨periods, hperiods, hp⟩ := List.mem_flatten.mp hp
    exact ⟨periods, hperiods, p, hp, hemits⟩

theorem firstOf_increasing (prices : List ENTSOEPrice) :
    (Sql.firstOf (fun p q : ENTSOEPrice => p.timestamp.instant ≤ q.timestamp.instant) (fun p => p.timestamp.instant)
      prices).Pairwise fun x y => x.timestamp.instant < y.timestamp.instant := by
  have : Std.Total fun p q : ENTSOEPrice => p.timestamp.instant ≤ q.timestamp.instant := ⟨fun p q => le_total _ _⟩
  have : IsTrans ENTSOEPrice fun p q => p.timestamp.instant ≤ q.timestamp.instant := ⟨fun p q r => le_trans⟩
  have hsorted := @Sql.firstOf_pairwise ENTSOEPrice _ _ (fun p q => p.timestamp.instant ≤ q.timestamp.instant) _
    (fun p => p.timestamp.instant) _ _ prices
  have hdistinct := List.pairwise_map.mp
    (@Sql.firstOf_keys_nodup ENTSOEPrice _ _ (fun p q => p.timestamp.instant ≤ q.timestamp.instant) _
      (fun p => p.timestamp.instant) prices)
  exact (hsorted.and hdistinct).imp fun h => lt_of_le_of_ne h.1 h.2

/-- What is returned: the times that the parser finds, each once and in order, with one of their amounts. -/
theorem Document.WrittenAs.parse_eq_ok (h : d.WrittenAs root) {fromstring : String → Option Element} {xmlText : String}
    (hxml : fromstring xmlText = some root) {prices : List ENTSOEPrice}
    (hprices : parsePriceDocument fromstring reader.read xmlText biddingZone = .ok prices) :
    prices.Pairwise (fun x y => x.timestamp.instant < y.timestamp.instant) ∧
      (∀ x ∈ prices, d.Emits x.timestamp.instant x.priceEurMwh) ∧
      ∀ t amount, d.Emits t amount → ∃ x ∈ prices, x.timestamp.instant = t := by
  rw [parsePriceDocument, hxml] at hprices
  obtain ⟨all, hall, hsorted⟩ := (Guard.bind_eq_ok _ _ _).mp hprices
  obtain ⟨hzone, hemitted⟩ := h.emitted hall
  have hutc : ∀ x ∈ all.flatten, x.timestamp.offset.isSome := by
    intro x hx
    rw [hzone x hx]
    rfl
  rw [sortUnique, if_pos (.inl hutc)] at hsorted
  cases hsorted
  refine ⟨?_, ?_, ?_⟩
  · exact firstOf_increasing all.flatten
  · intro x hx
    exact (hemitted _ _).mp ⟨x, Sql.mem_of_mem_firstOf hx, rfl, rfl⟩
  · intro t amount hemits
    obtain ⟨x, hx, rfl, -⟩ := (hemitted t amount).mpr hemits
    exact Sql.exists_mem_firstOf hx

theorem Document.WrittenAs.exists_parse (h : d.WrittenAs root)
    (hinside : ∀ p ∈ d.periods, ∀ i < p.last, p.start.val + i * (p.stride * 60000000) < p.stop.val)
    {fromstring : String → Option Element} {xmlText : String} (hxml : fromstring xmlText = some root) :
    ∃ prices, parsePriceDocument fromstring reader.read xmlText biddingZone = .ok prices := by
  have hseries : ∀ ts ∈ iter "TimeSeries" root, ∃ prices, seriesPrices reader.read biddingZone ts = .ok prices := by
    intro ts hts
    obtain ⟨periods, hperiods, hwritten⟩ := exists_of_forall₂ h ts hts
    obtain ⟨parts, hparts⟩ := Guard.exists_collect fun e he => by
      obtain ⟨p, hp, hpe⟩ := exists_of_forall₂ hwritten e he
      exact hpe.exists_periodPrices (hinside p (List.mem_flatten.mpr ⟨periods, hperiods, hp⟩)) reader biddingZone
        (((find "currency_Unit.name" ts).map fun e => e.label.text).getD (some "EUR"))
    refine ⟨parts.flatten, ?_⟩
    rw [seriesPrices, hparts]
    rfl
  obtain ⟨all, hall⟩ := Guard.exists_collect hseries
  have hutc : ∀ x ∈ all.flatten, x.timestamp.offset.isSome := by
    intro x hx
    rw [(h.emitted hall).1 x hx]
    rfl
  have hsorted : ∃ prices, sortUnique all.flatten = .ok prices := ⟨_, if_pos (.inl hutc)⟩
  obtain ⟨prices, hprices⟩ := hsorted
  refine ⟨prices, ?_⟩
  rw [parsePriceDocument, hxml]
  exact (Guard.bind_eq_ok _ _ _).mpr ⟨all, hall, hprices⟩

end Document

/-! ## When the steps are read -/

theorem Resolution.minutes_pos (r : Resolution) : 0 < r.minutes := by
  cases r <;> decide

theorem Period.steps_pos (p : Period) : 0 < p.steps := by
  obtain ⟨q, hq, -⟩ := p.first
  have := p.placed q hq
  omega

theorem Period.start_le_time (p : Period) (k : ℕ) : p.start.val ≤ p.time k := by
  have hminutes := p.resolution.minutes_pos
  have : 0 ≤ (k : ℤ) * (p.resolution.minutes * 60000000) := by positivity
  unfold Period.time
  omega

theorem Period.time_lt_stop (p : Period) {k : ℕ} (hk : k < p.steps) : p.time k < p.stop.val := by
  have hminutes := p.resolution.minutes_pos
  have hlt : (k : ℤ) * (p.resolution.minutes * 60000000) < p.steps * (p.resolution.minutes * 60000000) :=
    mul_lt_mul_of_pos_right (by exact_mod_cast hk) (by omega)
  have hstop := p.stop_eq
  unfold Period.time
  omega

theorem Period.time_inj (p : Period) {k k' : ℕ} (h : p.time k = p.time k') : k = k' := by
  have hminutes := p.resolution.minutes_pos
  have hsame : (k : ℤ) * (p.resolution.minutes * 60000000) = k' * (p.resolution.minutes * 60000000) := by
    unfold Period.time at h
    omega
  exact_mod_cast mul_right_cancel₀ (by omega) hsame

theorem Period.exists_inForce (p : Period) (k : ℕ) : ∃ amount, p.InForce k amount := by
  induction k with
  | zero =>
    obtain ⟨q, hq, hone⟩ := p.first
    exact ⟨q.amount, q, hq, by omega, rfl, fun q' _ hle => by omega⟩
  | succ k ih =>
    by_cases hgiven : ∃ q ∈ p.points, q.position = k + 1 + 1
    · obtain ⟨q, hq, hposition⟩ := hgiven
      exact ⟨q.amount, q, hq, by omega, rfl, fun q' _ hle => by omega⟩
    · obtain ⟨amount, q, hq, hle, hamount, hmax⟩ := ih
      refine ⟨amount, q, hq, by omega, hamount, ?_⟩
      intro q' hq' hle'
      have hne : q'.position ≠ k + 1 + 1 := fun heq => hgiven ⟨q', hq', heq⟩
      exact hmax q' hq' (by omega)

def Period.Even (p : Period) : Prop := p.resolution = .half → p.steps = 1

/-- The position of the last step is given, and a Period in half hours has a single step. -/
def Period.Regular (p : Period) : Prop := (∃ q ∈ p.points, q.position = p.steps) ∧ p.Even

theorem Period.last_eq_iff (p : Period) : p.last = p.steps ↔ ∃ q ∈ p.points, q.position = p.steps := by
  constructor
  · intro h
    obtain ⟨q, hq, hlast⟩ := p.exists_last
    exact ⟨q, hq, hlast.trans h⟩
  · rintro ⟨q, hq, hposition⟩
    exact le_antisymm p.last_le (hposition ▸ p.le_last hq)

theorem Period.Even.time_eq {p : Period} (h : p.Even) {i : ℕ} (hi : i < p.last) :
    p.start.val + i * (p.stride * 60000000) = p.time i := by
  unfold Period.time
  by_cases hhalf : p.resolution = .half
  · have hone := h hhalf
    have hlast := p.last_le
    obtain rfl : i = 0 := by omega
    simp
  · rw [p.stride_eq hhalf]

theorem Period.Emits.start_le {p : Period} {t : ℤ} {amount : PyFloat} (h : p.Emits t amount) : p.start.val ≤ t := by
  obtain ⟨i, -, rfl, -⟩ := h
  have hstride : 0 ≤ p.stride := by
    unfold Period.stride stepMinutes
    split
    · decide
    · decide
  have : 0 ≤ (i : ℤ) * (p.stride * 60000000) := by positivity
  omega

theorem Period.Emits.lt_stop {p : Period} (hp : p.Even) {t : ℤ} {amount : PyFloat} (h : p.Emits t amount) :
    t < p.stop.val := by
  obtain ⟨i, hi, rfl, -⟩ := h
  rw [hp.time_eq hi]
  exact p.time_lt_stop (hi.trans_le p.last_le)

theorem Period.Regular.emits_iff {p : Period} (h : p.Regular) {t : ℤ} {amount : PyFloat} :
    p.Emits t amount ↔ ∃ k < p.steps, t = p.time k ∧ p.InForce k amount := by
  have hlast := p.last_eq_iff.mpr h.1
  constructor
  · rintro ⟨i, hi, rfl, hforce⟩
    exact ⟨i, hi.trans_le p.last_le, h.2.time_eq hi, hforce⟩
  · rintro ⟨k, hk, rfl, hforce⟩
    exact ⟨k, by omega, (h.2.time_eq (by omega)).symm, hforce⟩

namespace Document

variable {d : Document}

theorem apart {p q : Period} (hp : p ∈ d.periods) (hq : q ∈ d.periods) (hne : p ≠ q) :
    p.stop.val ≤ q.start.val ∨ q.stop.val ≤ p.start.val :=
  have : Std.Symm fun p q : Period => p.stop.val ≤ q.start.val ∨ q.stop.val ≤ p.start.val := ⟨fun _ _ h => h.symm⟩
  d.disjoint.forall hp hq hne

theorem Step.unique {t : ℤ} {amount amount' : PyFloat} (h : d.Step t amount) (h' : d.Step t amount') :
    amount = amount' := by
  obtain ⟨p, hp, k, hk, rfl, hforce⟩ := h
  obtain ⟨p', hp', k', hk', htime, hforce'⟩ := h'
  have hsame : p = p' := by
    by_contra hne
    have hstart := p.start_le_time k
    have hstop := p.time_lt_stop hk
    have hstart' := p'.start_le_time k'
    have hstop' := p'.time_lt_stop hk'
    rcases apart hp hp' hne with h | h
    · omega
    · omega
  subst hsame
  obtain rfl := p.time_inj htime
  exact hforce.unique hforce'

/-- If no step is missed, then no Period in half hours has two steps.  By induction on the start: a Period that starts
later emits nothing before its start, and one that starts earlier nothing after its end. -/
theorem even_of_complete (h : ∀ t amount, d.Step t amount → ∃ amount', d.Emits t amount') :
    ∀ n : ℕ, ∀ p ∈ d.periods, p.start.val.toNat = n → p.Even := by
  intro n
  induction n using Nat.strong_induction_on with
  | _ n ih =>
    intro p hp hn hhalf
    by_contra hmany
    have hpos := p.steps_pos
    have hminutes : p.resolution.minutes = 30 := by rw [hhalf]; rfl
    have htime : p.time 1 = p.start.val + 1800000000 := by
      unfold Period.time
      rw [hminutes]
      omega
    have hstop : p.start.val + 3600000000 ≤ p.stop.val := by
      rw [p.stop_eq, hminutes]
      omega
    obtain ⟨amount, hforce⟩ := p.exists_inForce 1
    obtain ⟨amount', q, hq, hemits⟩ := h _ _ ⟨p, hp, 1, by omega, rfl, hforce⟩
    rw [htime] at hemits
    by_cases hpq : p = q
    · subst hpq
      obtain ⟨i, -, hi, -⟩ := hemits
      rw [p.stride_half hhalf] at hi
      omega
    · rcases apart hp hq hpq with hlater | hearlier
      · have := hemits.start_le
        omega
      · have hlt : q.start.val < q.stop.val := lt_of_le_of_lt (q.start_le_time 0) (q.time_lt_stop q.steps_pos)
        have hnonneg := q.start.property.1
        have heven : q.Even := ih q.start.val.toNat (by omega) q hq rfl
        have := hemits.lt_stop heven
        omega

theorem regular_of_complete (h : ∀ t amount, d.Step t amount → ∃ amount', d.Emits t amount') :
    ∀ p ∈ d.periods, p.Regular := by
  intro p hp
  have heven : ∀ q ∈ d.periods, q.Even := fun q hq => even_of_complete h _ q hq rfl
  refine ⟨p.last_eq_iff.mp ?_, heven p hp⟩
  have hpos := p.steps_pos
  have hstart := p.start_le_time (p.steps - 1)
  have hstop := p.time_lt_stop (show p.steps - 1 < p.steps by omega)
  obtain ⟨amount, hforce⟩ := p.exists_inForce (p.steps - 1)
  obtain ⟨amount', q, hq, hemits⟩ := h _ _ ⟨p, hp, p.steps - 1, by omega, rfl, hforce⟩
  by_cases hpq : p = q
  · subst hpq
    obtain ⟨i, hi, htime, -⟩ := hemits
    rw [(heven p hp).time_eq hi] at htime
    have hlast := p.time_inj htime
    have hle := p.last_le
    omega
  · have hqstart := hemits.start_le
    have hqstop := hemits.lt_stop (heven q hq)
    rcases apart hp hq hpq with hlater | hearlier
    · omega
    · omega

end Document

theorem regular_of_readAs {d : Document} {root : Element} (hdoc : d.WrittenAs root) {reader : IsoReader}
    {fromstring : String → Option Element} {xmlText : String} (hxml : fromstring xmlText = some root)
    {biddingZone : String} {prices : List ENTSOEPrice}
    (hprices : parsePriceDocument fromstring reader.read xmlText biddingZone = .ok prices) (hread : d.ReadAs prices) :
    ∀ p ∈ d.periods, p.Regular := by
  obtain ⟨-, hemitted, -⟩ := hdoc.parse_eq_ok hxml hprices
  apply Document.regular_of_complete
  intro t amount hstep
  obtain ⟨x, hx, rfl, -⟩ := (hread.steps t amount).mpr hstep
  exact ⟨x.priceEurMwh, hemitted x hx⟩

/-- The steps of a document are read precisely when each Period gives the position of its last step and none in half hours
has two steps. -/
theorem readAs_iff {d : Document} {root : Element} (hdoc : d.WrittenAs root) (reader : IsoReader)
    {fromstring : String → Option Element} {xmlText : String} (hxml : fromstring xmlText = some root)
    (biddingZone : String) :
    (∃ prices, parsePriceDocument fromstring reader.read xmlText biddingZone = .ok prices ∧ d.ReadAs prices) ↔
      ∀ p ∈ d.periods, p.Regular := by
  constructor
  · rintro ⟨prices, hprices, hread⟩
    exact regular_of_readAs hdoc hxml hprices hread
  · intro hregular
    have hemits : ∀ t amount, d.Emits t amount ↔ d.Step t amount := by
      intro t amount
      exact exists_congr fun p => and_congr_right fun hp => (hregular p hp).emits_iff
    have hinside : ∀ p ∈ d.periods, ∀ i < p.last, p.start.val + i * (p.stride * 60000000) < p.stop.val := by
      intro p hp i hi
      rw [(hregular p hp).2.time_eq hi]
      exact p.time_lt_stop (hi.trans_le p.last_le)
    obtain ⟨prices, hprices⟩ : ∃ prices, parsePriceDocument fromstring reader.read xmlText biddingZone = .ok prices :=
      hdoc.exists_parse hinside hxml
    obtain ⟨hincreasing, hemitted, hfound⟩ := hdoc.parse_eq_ok hxml hprices
    refine ⟨prices, hprices, hincreasing, fun t amount => ⟨?_, ?_⟩⟩
    · rintro ⟨x, hx, rfl, rfl⟩
      exact (hemits _ _).mp (hemitted x hx)
    · intro hstep
      obtain ⟨x, hx, rfl⟩ := hfound t amount ((hemits t amount).mpr hstep)
      exact ⟨x, hx, rfl, ((hemits _ _).mp (hemitted x hx)).unique hstep⟩

/-! ## Two hours -/

theorem qualified_inj {name name' : String} : qualified name = qualified name' ↔ name = name' :=
  String.append_right_inj _

def leaf (name text : String) : Element := .node ⟨qualified name, some text⟩ []

def branch (name : String) (children : List Element) : Element := .node ⟨qualified name, none⟩ children

theorem iter_branch (name name' : String) (children : List Element) : iter name (branch name' children) =
    (if name' = name then [branch name' children] else []) ++ children.flatMap (iter name) := by
  rw [iter, branch, RoseTree.para_eq]
  simp only [RoseTree.label, RoseTree.children, List.map_map, Function.comp_def, List.map_id', List.flatMap_map,
    qualified_inj]

theorem iter_leaf (name name' text : String) :
    iter name (leaf name' text) = if name' = name then [leaf name' text] else [] := by
  rw [iter, leaf, RoseTree.para_eq]
  simp only [RoseTree.label, RoseTree.children, List.map_nil, List.flatMap_nil, List.append_nil, qualified_inj]

def pointElement (position amount : String) : Element :=
  branch "Point" [leaf "position" position, leaf "price.amount" amount]

/-- From 23:00 to 01:00, in hours. -/
def periodElement (points : List (String × String)) : Element :=
  branch "Period" (branch "timeInterval" [leaf "start" "2026-02-09T23:00Z", leaf "end" "2026-02-10T01:00Z"] ::
    leaf "resolution" "PT60M" :: points.map fun q => pointElement q.1 q.2)

def marketDocument (points : List (String × String)) : Element :=
  branch "Publication_MarketDocument" [branch "TimeSeries" [leaf "currency_Unit.name" "EUR", periodElement points]]

theorem iter_pointElements {name : String} (h : name ∉ ["Point", "position", "price.amount"])
    (points : List (String × String)) : (points.map fun q => pointElement q.1 q.2).flatMap (iter name) = [] := by
  simp only [List.mem_cons, List.not_mem_nil, or_false, not_or] at h
  rw [List.flatMap_map, List.flatMap_eq_nil_iff]
  intro q _
  simp only [pointElement, iter_branch, iter_leaf, List.flatMap_cons, List.flatMap_nil, List.append_nil,
    if_neg (Ne.symm h.1), if_neg (Ne.symm h.2.1), if_neg (Ne.symm h.2.2)]

theorem iter_point (points : List (String × String)) :
    (points.map fun q => pointElement q.1 q.2).flatMap (iter "Point") = points.map fun q => pointElement q.1 q.2 := by
  rw [List.flatMap_map]
  induction points with
  | nil => rfl
  | cons q points ih =>
    rw [List.flatMap_cons, ih, List.map_cons]
    simp [pointElement, iter_branch, iter_leaf]

def twoHours (points : List Point) (placed : ∀ q ∈ points, 1 ≤ q.position ∧ q.position ≤ 2)
    (apart : (points.map Point.position).Nodup) (first : ∃ q ∈ points, q.position = 1) : Period where
  start := ⟨63906274800000000, by decide +kernel⟩
  stop := ⟨63906282000000000, by decide +kernel⟩
  resolution := .hour
  steps := 2
  stop_eq := rfl
  points := points
  placed := placed
  apart := apart
  first := first

theorem pointElement_written {position amount : String} {q : Point} (hposition : Text.int position.toList = some (q.position : ℤ))
    (hamount : floatOfText amount.toList = some q.amount) : q.WrittenAs (pointElement position amount) := by
  refine ⟨⟨position, ⟨leaf "position" position, ?_, rfl⟩, hposition⟩,
    ⟨amount, ⟨leaf "price.amount" amount, ?_, rfl⟩, hamount⟩⟩
  · simp [find, pointElement, branch, leaf, RoseTree.children, RoseTree.label]
  · simp [find, pointElement, branch, leaf, RoseTree.children, RoseTree.label, qualified_inj]

theorem twoHours_written {points : List Point} {placed apart first} {texts : List (String × String)}
    (h : List.Forall₂ (fun q p => Text.int q.1.toList = some (p.position : ℤ) ∧ floatOfText q.2.toList = some p.amount)
      texts points) : (twoHours points placed apart first).WrittenAs (periodElement texts) := by
  have hstart : String.ofList (minuteText ⟨63906274800000000, by decide⟩ ++ ['Z']) = "2026-02-09T23:00Z" := by
    decide +kernel
  have hstop : String.ofList (minuteText ⟨63906282000000000, by decide⟩ ++ ['Z']) = "2026-02-10T01:00Z" := by
    decide +kernel
  refine ⟨rfl, ⟨branch "timeInterval" [leaf "start" "2026-02-09T23:00Z", leaf "end" "2026-02-10T01:00Z"], ?_, ?_, ?_⟩,
    ?_, ?_⟩
  · simp [find, periodElement, branch, RoseTree.children, RoseTree.label]
  · refine ⟨leaf "start" "2026-02-09T23:00Z", ?_, congrArg some hstart.symm⟩
    simp [find, branch, leaf, RoseTree.children, RoseTree.label]
  · refine ⟨leaf "end" "2026-02-10T01:00Z", ?_, congrArg some hstop.symm⟩
    simp [find, branch, leaf, RoseTree.children, RoseTree.label, qualified_inj]
  · refine ⟨leaf "resolution" "PT60M", ?_, rfl⟩
    simp [find, periodElement, branch, leaf, RoseTree.children, RoseTree.label, qualified_inj]
  · have hiter : iter "Point" (periodElement texts) = texts.map fun q => pointElement q.1 q.2 := by
      simp [periodElement, iter_branch, iter_leaf, iter_point]
    rw [hiter, List.forall₂_map_left_iff]
    exact h.imp fun q p hqp => pointElement_written hqp.1 hqp.2

def twoHoursDocument (p : Period) : Document := ⟨[[p]], List.pairwise_singleton _ _⟩

theorem twoHoursDocument_written {p : Period} {texts : List (String × String)} (h : p.WrittenAs (periodElement texts)) :
    (twoHoursDocument p).WrittenAs (marketDocument texts) := by
  have hseries : iter "TimeSeries" (marketDocument texts) =
      [branch "TimeSeries" [leaf "currency_Unit.name" "EUR", periodElement texts]] := by
    simp [marketDocument, periodElement, iter_branch, iter_leaf, iter_pointElements]
  have hperiods : iter "Period" (branch "TimeSeries" [leaf "currency_Unit.name" "EUR", periodElement texts]) =
      [periodElement texts] := by
    simp [periodElement, iter_branch, iter_leaf, iter_pointElements]
  unfold Document.WrittenAs
  rw [hseries]
  refine .cons ?_ .nil
  rw [hperiods]
  exact .cons h .nil

def marketText (points : List (String × String)) : String :=
  "<Publication_MarketDocument xmlns=\"urn:iec62325.351:tc57wg16:451-3:publicationdocument:7:3\"><TimeSeries>" ++
    "<currency_Unit.name>EUR</currency_Unit.name><Period><timeInterval><start>2026-02-09T23:00Z</start>" ++
    "<end>2026-02-10T01:00Z</end></timeInterval><resolution>PT60M</resolution>" ++
    String.join (points.map fun q =>
      "<Point><position>" ++ q.1 ++ "</position><price.amount>" ++ q.2 ++ "</price.amount></Point>") ++
    "</Period></TimeSeries></Publication_MarketDocument>"

def bothHours : Period := twoHours [⟨2, .finite 38⟩, ⟨1, .finite (83 / 2)⟩] (by decide +kernel) (by decide +kernel) (by decide +kernel)

def firstHour : Period := twoHours [⟨1, .finite (83 / 2)⟩] (by decide +kernel) (by decide +kernel) (by decide +kernel)

theorem bothHours_written : (twoHoursDocument bothHours).WrittenAs (marketDocument [("2", "38"), ("1", "41.5")]) :=
  twoHoursDocument_written (twoHours_written (.cons ⟨by decide +kernel, by decide +kernel⟩
    (.cons ⟨by decide +kernel, by decide +kernel⟩ .nil)))

theorem firstHour_written : (twoHoursDocument firstHour).WrittenAs (marketDocument [("1", "41.5")]) :=
  twoHoursDocument_written (twoHours_written (.cons ⟨by decide +kernel, by decide +kernel⟩ .nil))

theorem both_hours_read : ∃ prices,
    parsePriceDocument (fun _ => some (marketDocument [("2", "38"), ("1", "41.5")])) minuteReader.read
      (marketText [("2", "38"), ("1", "41.5")]) "10Y1001A1001A82H" = .ok prices ∧
    (twoHoursDocument bothHours).ReadAs prices := by
  refine (readAs_iff bothHours_written minuteReader rfl "10Y1001A1001A82H").mpr ?_
  intro p hp
  obtain rfl := List.mem_singleton.mp hp
  exact ⟨⟨_, List.mem_cons_self, rfl⟩, fun hhalf => nomatch hhalf⟩

/-- An hour that is left out at the end gets no price. -/
theorem last_hour_missed : ¬ ∀ (d : Document) (root : Element), d.WrittenAs root →
    ∀ (fromstring : String → Option Element) (xmlText biddingZone : String), fromstring xmlText = some root →
      ∃ prices, parsePriceDocument fromstring minuteReader.read xmlText biddingZone = .ok prices ∧ d.ReadAs prices := by
  intro h
  obtain ⟨prices, hprices, hread⟩ := h _ _ firstHour_written (fun _ => some (marketDocument [("1", "41.5")]))
    (marketText [("1", "41.5")]) "10Y1001A1001A82H" rfl
  obtain ⟨⟨q, hq, hlast⟩, -⟩ :=
    regular_of_readAs firstHour_written (rfl : some (marketDocument [("1", "41.5")]) = _) hprices hread firstHour
      List.mem_cons_self
  obtain rfl := List.mem_singleton.mp hq
  exact absurd hlast (by decide)

end FavoniusBackend.Adapters.PriceDocument
