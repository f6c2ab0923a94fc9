import FavoniusBackend.State.Assembler
import FavoniusBackend.Vdv463.ItemReading

/-!
# Percentages and fractions of a charge

A presystem gives the state of charge of a battery in percent, the optimizer takes it as a fraction.  The parser of an
item divides by 100 what is greater than one, and so does the assembler with what the parser has stored.  A percentage of
one or less passes for a fraction at both places.
-/

namespace FavoniusBackend.Vdv463.SocUnits

open Lib
open Lib.PyJson
open State.Assembler State.Database

/-! ## The guess of the unit -/

def stored (p : ℚ) : ℚ := if 1 < p then p / 100 else p

example : stored 1 = 1 := by decide +kernel

/-- The guess of the unit is right. -/
def Unmistaken (p : ℚ) : Prop := p = 0 ∨ 1 < p

theorem stored_eq_iff (p : ℚ) : stored p = p / 100 ↔ Unmistaken p := by
  unfold stored Unmistaken
  split
  · rename_i hp
    exact iff_of_true rfl (.inr hp)
  · rename_i hp
    constructor
    · intro h
      exact .inl (by linarith)
    · rintro (rfl | hgt)
      · norm_num
      · exact absurd hgt hp

theorem stored_le_one {p : ℚ} (hp : p ≤ 100) : stored p ≤ 1 := by
  unfold stored
  split
  · linarith
  · rename_i hone
    exact not_lt.mp hone

theorem normalizeSoc_stored {p : ℚ} (hp : p ≤ 100) : State.Assembler.normalizeSoc (stored p) = stored p :=
  if_pos (stored_le_one hp)

/-! ## The parser -/

structure IsPercentage (v : Json) (p : ℚ) : Prop where
  number : v.number = some (.finite p)
  nonneg : 0 ≤ p
  le_hundred : p ≤ 100

theorem ofInt_of_percentage {n : ℤ} (hnonneg : 0 ≤ n) (hn : n ≤ 100) : PyFloat.ofInt n = .ok (.finite n) := by
  have hlarge : (100 : ℤ) < PyFloat.overflow := by decide +kernel
  rw [PyFloat.ofInt, if_neg]
  rw [abs_of_nonneg hnonneg]
  omega

theorem IsPercentage.reads {v : Json} {p : ℚ} (h : IsPercentage v p) :
    ∃ v', normalizeSoc v = .ok v' ∧
      ∀ (α : Type) (f : PyFloat → α) (d : α), socFloat v' f d = .ok (f (.finite (stored p))) := by
  obtain ⟨hnumber, hnonneg, hle⟩ := h
  cases v with
  | bool b =>
    have hp : p = if b then 1 else 0 := (PyFloat.finite.inj (Option.some.inj hnumber)).symm
    have hstored : stored p = if b then 1 else 0 := by
      rw [stored, if_neg, hp]
      rw [hp, not_lt]
      split
      · exact le_rfl
      · exact zero_le_one
    rw [hstored]
    cases b with
    | true => exact ⟨_, rfl, fun _ _ _ => rfl⟩
    | false => exact ⟨_, rfl, fun _ _ _ => rfl⟩
  | float x =>
    obtain rfl : x = .finite p := Option.some.inj hnumber
    have hsoc : normalizeSoc (.float (.finite p)) = .ok (.float (.finite (stored p))) := by
      rw [normalizeSoc, if_neg (by simp)]
      show (if decide (1 < p) then (Json.float (.finite p)).percent else .ok (.float (.finite p))) = _
      by_cases hp : 1 < p
      · rw [if_pos (by simpa using hp), stored, if_pos hp]
        rfl
      · rw [if_neg (by simpa using hp), stored, if_neg hp]
    exact ⟨_, hsoc, fun _ _ _ => rfl⟩
  | int n =>
    obtain rfl : (n : ℚ) = p := PyFloat.finite.inj (Option.some.inj hnumber)
    have hint : PyFloat.ofInt n = .ok (.finite n) :=
      ofInt_of_percentage (by exact_mod_cast hnonneg) (by exact_mod_cast hle)
    by_cases hp : (1 : ℚ) < n
    · have hsoc : normalizeSoc (.int n) = .ok (.float (.finite (stored n))) := by
        rw [normalizeSoc, if_neg (by simp)]
        show (if decide ((1 : ℚ) < n) then (Json.int n).percent else .ok (.int n)) = _
        rw [if_pos (by simpa using hp), Json.percent, Json.toFloat, hint, stored, if_pos hp]
        rfl
      exact ⟨_, hsoc, fun _ _ _ => rfl⟩
    · have hsoc : normalizeSoc (.int n) = .ok (.int n) := by
        rw [normalizeSoc, if_neg (by simp)]
        show (if decide ((1 : ℚ) < n) then (Json.int n).percent else .ok (.int n)) = _
        rw [if_neg (by simpa using hp)]
      refine ⟨_, hsoc, fun α f d => ?_⟩
      rw [socFloat, if_neg (by simp), Json.toFloat, hint, stored, if_neg hp]
      rfl
  | null => cases hnumber
  | str s => cases hnumber
  | arr items => cases hnumber
  | obj fields => cases hnumber

/-- An item that gives its states of charge in percent; the one at the arrival may be left out. -/
structure GivesSocs (fields data : List (PyStr × Json)) (p q : ℚ) (e : Option ℚ) : Prop where
  holds : dataOf fields = .obj data
  minTargetSoc : IsPercentage (fieldOr data "minTargetSoc" (.int 0)) p
  maxTargetSoc : IsPercentage (fieldOr data "maxTargetSoc" (.int 1)) q
  expectedSoc : match e with
    | some e => IsPercentage (fieldOr data "expectedSocAtArrival" .null) e
    | none => fieldOr data "expectedSocAtArrival" .null = .null

variable {fields data : List (PyStr × Json)} {p q : ℚ} {e : Option ℚ}

theorem GivesSocs.parse (h : GivesSocs fields data p q e) (validationStatus : String) :
    parseChargingRequestItem (.obj fields) validationStatus =
      .ok (requestOf fields data validationStatus
        (.finite (stored p), .finite (stored q), e.map fun e => .finite (stored e))) := by
  obtain ⟨hdata, hmin, hmax, hexpected⟩ := h
  obtain ⟨a, hnorma, hreada⟩ := hmin.reads
  obtain ⟨b, hnormb, hreadb⟩ := hmax.reads
  rw [parse_of_data hdata, socsOf, readSocs, hnorma, hnormb]
  cases e with
  | none =>
    dsimp only at hexpected
    rw [hexpected]
    simp only [ok_bind, hreada, hreadb]
    rfl
  | some e =>
    obtain ⟨c, hnormc, hreadc⟩ := IsPercentage.reads hexpected
    rw [hnormc]
    simp only [ok_bind, hreada, hreadb, hreadc]
    rfl

/-! ## The row and the bounds of the assembler -/

theorem requestRow_socs {fromisoformat : PyStr → Option ℚ} {req : ChargingRequest} {vehicleId : PyStr}
    {chargingPointId : Option PyStr} {messageId : Json} {row : RequestRow}
    (h : requestRow fromisoformat req vehicleId chargingPointId messageId = .ok row) :
    row.minTargetSoc = req.minTargetSoc ∧ row.maxTargetSoc = req.maxTargetSoc := by
  unfold requestRow at h
  iterate 11
    obtain ⟨_, -, h⟩ := (Guard.bind_eq_ok _ _ _).mp h
  cases h
  exact ⟨rfl, rfl⟩

/-- A row as the assembler reads it: its columns are numbers, and it has both times. -/
structure ReadBack (row : RequestRow) (r : Vdv463Row) : Prop where
  minTargetSoc : r.minTargetSoc.map PyFloat.finite = some row.minTargetSoc
  maxTargetSoc : r.maxTargetSoc.map PyFloat.finite = some row.maxTargetSoc
  times : r.expectedArrival.isSome ∧ r.requestedDeparture.isSome

theorem ReadBack.bounds {row : RequestRow} {r : Vdv463Row} (h : ReadBack row r) {x y : ℚ}
    (hx : row.minTargetSoc = .finite x) (hy : row.maxTargetSoc = .finite y) (m : Merged) :
    (mergeRequest m r).departureSocMin.get? r.vehicleId = some (State.Assembler.normalizeSoc x) ∧
      (mergeRequest m r).departureSocMax.get? r.vehicleId = some (State.Assembler.normalizeSoc y) := by
  obtain ⟨hmin, hmax, harrival, hdeparture⟩ := h
  obtain ⟨arrival, harrival⟩ := Option.isSome_iff_exists.mp harrival
  obtain ⟨departure, hdeparture⟩ := Option.isSome_iff_exists.mp hdeparture
  rw [hx, Option.map_eq_some_iff] at hmin
  rw [hy, Option.map_eq_some_iff] at hmax
  obtain ⟨x', hminr, hx'⟩ := hmin
  obtain ⟨y', hmaxr, hy'⟩ := hmax
  cases hx'
  cases hy'
  unfold mergeRequest
  rw [harrival, hdeparture, hminr, hmaxr]
  exact ⟨Dict.get?_set_self _ _ _, Dict.get?_set_self _ _ _⟩

/-- What the message says is what is stored and what the assembler makes of the row, over 100, and in the same order. -/
def Faithful (fields : List (PyStr × Json)) (validationStatus : String) (p q : ℚ) (e : Option ℚ) : Prop :=
  ∃ req, parseChargingRequestItem (.obj fields) validationStatus = .ok req ∧
    (req.minTargetSoc = .finite (p / 100) ∧ req.maxTargetSoc = .finite (q / 100) ∧
      req.expectedSocAtArrival = e.map fun e => .finite (e / 100)) ∧
    (p ≤ q → req.maxTargetSoc.ge req.minTargetSoc) ∧
    ∀ (fromisoformat : PyStr → Option ℚ) (vehicleId : PyStr) (chargingPointId : Option PyStr) (messageId : Json)
      (row : RequestRow) (r : Vdv463Row) (m : Merged),
      requestRow fromisoformat req vehicleId chargingPointId messageId = .ok row → ReadBack row r →
      ∃ lo hi, (mergeRequest m r).departureSocMin.get? r.vehicleId = some lo ∧
        (mergeRequest m r).departureSocMax.get? r.vehicleId = some hi ∧
        lo = p / 100 ∧ hi = q / 100 ∧ (p ≤ q → lo ≤ hi)

theorem GivesSocs.bounds (h : GivesSocs fields data p q e) {validationStatus : String}
    {fromisoformat : PyStr → Option ℚ} {vehicleId : PyStr} {chargingPointId : Option PyStr} {messageId : Json}
    {row : RequestRow} {r : Vdv463Row}
    (hrow : requestRow fromisoformat (requestOf fields data validationStatus
      (.finite (stored p), .finite (stored q), e.map fun e => .finite (stored e))) vehicleId chargingPointId messageId =
        .ok row) (hread : ReadBack row r) (m : Merged) :
    (mergeRequest m r).departureSocMin.get? r.vehicleId = some (stored p) ∧
      (mergeRequest m r).departureSocMax.get? r.vehicleId = some (stored q) := by
  obtain ⟨hmin, hmax⟩ := requestRow_socs hrow
  have hbounds := hread.bounds hmin hmax m
  rwa [normalizeSoc_stored h.minTargetSoc.le_hundred, normalizeSoc_stored h.maxTargetSoc.le_hundred] at hbounds

/-- A percentage that is zero or more than one is converted as it should be, and no other. -/
theorem faithful_iff (h : GivesSocs fields data p q e) (validationStatus : String) :
    Faithful fields validationStatus p q e ↔ Unmistaken p ∧ Unmistaken q ∧ ∀ x ∈ e, Unmistaken x := by
  constructor
  · rintro ⟨req, hparse, ⟨hmin, hmax, hexpected⟩, -, -⟩
    rw [h.parse, Except.ok.injEq] at hparse
    subst hparse
    refine ⟨(stored_eq_iff p).mp (PyFloat.finite.inj hmin), (stored_eq_iff q).mp (PyFloat.finite.inj hmax), ?_⟩
    intro x hx
    rw [Option.mem_def] at hx
    subst hx
    exact (stored_eq_iff x).mp (PyFloat.finite.inj (Option.some.inj hexpected))
  · rintro ⟨hp, hq, he⟩
    have hmin := (stored_eq_iff p).mpr hp
    have hmax := (stored_eq_iff q).mpr hq
    refine ⟨_, h.parse validationStatus, ⟨congrArg _ hmin, congrArg _ hmax, ?_⟩, ?_, ?_⟩
    · cases e with
      | none => rfl
      | some x => exact congrArg (fun y => some (PyFloat.finite y)) ((stored_eq_iff x).mpr (he x rfl))
    · intro hle
      show decide (stored p ≤ stored q) = true
      rw [decide_eq_true_eq, hmin, hmax]
      linarith
    · intro fromisoformat vehicleId chargingPointId messageId row r m hrow hread
      obtain ⟨hlo, hhi⟩ := h.bounds hrow hread m
      refine ⟨stored p, stored q, hlo, hhi, hmin, hmax, fun hle => ?_⟩
      rw [hmin, hmax]
      linarith

/-! ## One per cent -/

def itemOf (minTargetSoc maxTargetSoc : ℤ) : List (PyStr × Json) :=
  [(py "chargingRequestData",
    .obj [(py "minTargetSoc", .int minTargetSoc), (py "maxTargetSoc", .int maxTargetSoc)])]

theorem givesSocs_itemOf {lo hi : ℤ} (hlo : 0 ≤ lo ∧ lo ≤ 100) (hhi : 0 ≤ hi ∧ hi ≤ 100) :
    GivesSocs (itemOf lo hi) [(py "minTargetSoc", .int lo), (py "maxTargetSoc", .int hi)] lo hi none where
  holds := rfl
  minTargetSoc := ⟨rfl, by exact_mod_cast hlo.1, by exact_mod_cast hlo.2⟩
  maxTargetSoc := ⟨rfl, by exact_mod_cast hhi.1, by exact_mod_cast hhi.2⟩
  expectedSoc := rfl

theorem faithful_twenty_eighty : GivesSocs (itemOf 20 80) [(py "minTargetSoc", .int 20), (py "maxTargetSoc", .int 80)]
    (20 : ℤ) (80 : ℤ) none ∧ Faithful (itemOf 20 80) "ok" (20 : ℤ) (80 : ℤ) none := by
  have hgives := @givesSocs_itemOf 20 80 (by decide) (by decide)
  refine ⟨hgives, (faithful_iff hgives "ok").mpr ⟨.inr (by norm_num), .inr (by norm_num), nofun⟩⟩

/-- One per cent is stored as a full battery. -/
theorem one_percent_full : ¬ ∀ (fields data : List (PyStr × Json)) (p q : ℚ) (e : Option ℚ) (validationStatus : String),
    GivesSocs fields data p q e → Faithful fields validationStatus p q e := by
  intro h
  have hgives := @givesSocs_itemOf 1 50 (by decide) (by decide)
  obtain ⟨req, hparse, ⟨hmin, -, -⟩, -, -⟩ := h _ _ _ _ _ "ok" hgives
  rw [hgives.parse, Except.ok.injEq] at hparse
  subst hparse
  have hvalue : stored ((1 : ℤ) : ℚ) = ((1 : ℤ) : ℚ) / 100 := PyFloat.finite.inj hmin
  norm_num [stored] at hvalue

end FavoniusBackend.Vdv463.SocUnits
