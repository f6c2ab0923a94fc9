import FavoniusBackend.Vdv463.Turns

/-!
# Which items can be read

`parse_charging_request_item` works on whatever the list of a message holds.  Where it raises a `KeyError` or a
`TypeError` the item is passed over; any other exception leaves the loop.  `verdict_raises_iff` says on the item itself
when that happens: its data is no dictionary, a state of charge is an integer that no float can hold, or its two times do
not compare.
-/

namespace FavoniusBackend.Vdv463

open Lib
open Lib.PyJson

/-! ## States of charge -/

/-- `None` or a number. -/
def IsNumber (v : Json) : Prop := v = .null ∨ v.number.isSome

def TooLarge (v : Json) : Prop := ∃ n : ℤ, v = .int n ∧ PyFloat.overflow ≤ n

def TooSmall (v : Json) : Prop := ∃ n : ℤ, v = .int n ∧ n ≤ -PyFloat.overflow

/-- The division by 100 goes through, or is not made. -/
def Normalizes (v : Json) : Prop := IsNumber v ∧ ¬ TooLarge v

theorem overflow_pos : 1 < PyFloat.overflow := by decide +kernel

theorem normalizeSoc_of_not_isNumber {v : Json} (h : ¬ IsNumber v) : normalizeSoc v = .error .typeError := by
  cases v with
  | null => exact absurd (.inl rfl) h
  | bool b => exact absurd (.inr rfl) h
  | int n => exact absurd (.inr rfl) h
  | float x => exact absurd (.inr rfl) h
  | str s => rfl
  | arr items => rfl
  | obj fields => rfl

theorem normalizeSoc_of_tooLarge {v : Json} (h : TooLarge v) : normalizeSoc v = .error .overflowError := by
  obtain ⟨n, rfl, hn⟩ := h
  have hone := overflow_pos
  have hgt : (Json.int n).gtOne = .ok true := by
    have : (1 : ℚ) < n := by exact_mod_cast hone.trans_le hn
    simp [Json.gtOne, Json.number, PyFloat.gt, this]
  have hfloat : (Json.int n).toFloat = .error .overflowError := by
    rw [Json.toFloat, PyFloat.ofInt, if_pos (hn.trans (le_abs_self n))]
  rw [normalizeSoc, if_neg (by simp), hgt]
  show (Json.int n).percent = _
  rw [Json.percent, hfloat]
  rfl

def FloatOverflows (v : Json) : Prop :=
  ∀ (α : Type) (f : PyFloat → α) (d : α), socFloat v f d = .error .overflowError

def FloatReads (v : Json) : Prop := ∀ (α : Type) (f : PyFloat → α) (d : α), ∃ a, socFloat v f d = .ok a

/-- A state of charge that is divided or left, and the float of what comes out. -/
theorem normalizeSoc_of_normalizes {v : Json} (h : Normalizes v) :
    ∃ v', normalizeSoc v = .ok v' ∧ (TooSmall v → FloatOverflows v') ∧ (¬ TooSmall v → FloatReads v') := by
  obtain ⟨hnumber, hlarge⟩ := h
  have hint : (∀ n, v ≠ .int n) → ¬ TooSmall v := fun hne ⟨n, hn, _⟩ => hne n hn
  cases v with
  | null => exact ⟨.null, rfl, fun h => absurd h (hint nofun), fun _ _ _ d => ⟨d, rfl⟩⟩
  | bool b =>
    cases b with
    | true => exact ⟨_, rfl, fun h => absurd h (hint nofun), fun _ _ f _ => ⟨_, rfl⟩⟩
    | false => exact ⟨_, rfl, fun h => absurd h (hint nofun), fun _ _ f _ => ⟨_, rfl⟩⟩
  | float x =>
    have hok : ∃ y, normalizeSoc (.float x) = .ok (.float y) := by
      rw [normalizeSoc, if_neg (by simp)]
      show ∃ y, (if x.gt (.finite 1) then (Json.float x).percent else .ok (.float x)) = _
      split
      · exact ⟨_, rfl⟩
      · exact ⟨_, rfl⟩
    obtain ⟨y, hy⟩ := hok
    exact ⟨.float y, hy, fun h => absurd h (hint nofun), fun _ _ f _ => ⟨_, rfl⟩⟩
  | int n =>
    have hn : n < PyFloat.overflow := lt_of_not_ge fun hge => hlarge ⟨n, rfl, hge⟩
    by_cases hgt : (1 : ℚ) < n
    · -- the quotient is a float already
      have hone : 1 < n := by exact_mod_cast hgt
      have habs : ¬ PyFloat.overflow ≤ |n| := by rw [abs_of_pos (by omega)]; omega
      refine ⟨.float (.finite (n / 100)), ?_, ?_, fun _ _ f _ => ⟨_, rfl⟩⟩
      · rw [normalizeSoc, if_neg (by simp)]
        show (if decide ((1 : ℚ) < n) then (Json.int n).percent else .ok (.int n)) = _
        rw [if_pos (by simpa using hgt), Json.percent, Json.toFloat, PyFloat.ofInt, if_neg habs]
        rfl
      · rintro ⟨m, hm, hsmall⟩
        obtain rfl := Json.int.inj hm
        have := overflow_pos
        omega
    · have hone : n ≤ 1 := by
        have : (n : ℚ) ≤ 1 := not_lt.mp hgt
        exact_mod_cast this
      have hone' := overflow_pos
      refine ⟨.int n, ?_, ?_, ?_⟩
      · rw [normalizeSoc, if_neg (by simp)]
        show (if decide ((1 : ℚ) < n) then (Json.int n).percent else .ok (.int n)) = _
        rw [if_neg (by simpa using hgt)]
      · rintro ⟨m, hm, hsmall⟩ _ f d
        obtain rfl := Json.int.inj hm
        have habs : PyFloat.overflow ≤ |n| := le_abs.mpr (.inr (by omega))
        rw [socFloat, if_neg (by simp), Json.toFloat, PyFloat.ofInt, if_pos habs]
        rfl
      · intro hsmall _ f d
        have habs : ¬ PyFloat.overflow ≤ |n| := by
          rw [le_abs]
          rintro (h | h)
          · omega
          · exact hsmall ⟨n, rfl, by omega⟩
        exact ⟨f (.finite n), by rw [socFloat, if_neg (by simp), Json.toFloat, PyFloat.ofInt, if_neg habs]; rfl⟩
  | str s => exact absurd hnumber (by simp [IsNumber, Json.number])
  | arr items => exact absurd hnumber (by simp [IsNumber, Json.number])
  | obj fields => exact absurd hnumber (by simp [IsNumber, Json.number])

/-! ## The three states of charge of an item -/

/-- The middle of `parse_charging_request_item`. -/
def readSocs (minSoc maxSoc expectedSoc : Json) : Except PyError (PyFloat × PyFloat × Option PyFloat) := do
  let minSoc ← normalizeSoc minSoc
  let maxSoc ← normalizeSoc maxSoc
  let expectedSoc ← normalizeSoc expectedSoc
  return (← socFloat minSoc id (.finite 0), ← socFloat maxSoc id (.finite 1), ← socFloat expectedSoc some none)

def SocOverflows (minSoc maxSoc expectedSoc : Json) : Prop :=
  TooLarge minSoc ∨ Normalizes minSoc ∧ TooLarge maxSoc ∨
    Normalizes minSoc ∧ Normalizes maxSoc ∧ TooLarge expectedSoc ∨
    Normalizes minSoc ∧ Normalizes maxSoc ∧ Normalizes expectedSoc ∧
      (TooSmall minSoc ∨ TooSmall maxSoc ∨ TooSmall expectedSoc)

/-- All three are numbers that a float can hold, or `None`. -/
def SocsRead (minSoc maxSoc expectedSoc : Json) : Prop :=
  (Normalizes minSoc ∧ Normalizes maxSoc ∧ Normalizes expectedSoc) ∧
    ¬ TooSmall minSoc ∧ ¬ TooSmall maxSoc ∧ ¬ TooSmall expectedSoc

theorem SocsRead.not_overflows {minSoc maxSoc expectedSoc : Json} (h : SocsRead minSoc maxSoc expectedSoc) :
    ¬ SocOverflows minSoc maxSoc expectedSoc := by
  obtain ⟨⟨hmin, hmax, hexpected⟩, hsmall⟩ := h
  rintro (h | h | h | ⟨-, -, -, h | h | h⟩)
  · exact hmin.2 h
  · exact hmax.2 h.2
  · exact hexpected.2 h.2.2
  · exact hsmall.1 h
  · exact hsmall.2.1 h
  · exact hsmall.2.2 h

/-- The division of one state of charge ends in one of three ways. -/
theorem normalizeSoc_cases (v : Json) :
    (¬ IsNumber v ∧ ¬ TooLarge v) ∧ normalizeSoc v = .error .typeError ∨
    TooLarge v ∧ normalizeSoc v = .error .overflowError ∨
    Normalizes v ∧ ∃ v', normalizeSoc v = .ok v' ∧ (TooSmall v → FloatOverflows v') ∧ (¬ TooSmall v → FloatReads v') := by
  by_cases hlarge : TooLarge v
  · exact .inr (.inl ⟨hlarge, normalizeSoc_of_tooLarge hlarge⟩)
  · by_cases hnumber : IsNumber v
    · exact .inr (.inr ⟨⟨hnumber, hlarge⟩, normalizeSoc_of_normalizes ⟨hnumber, hlarge⟩⟩)
    · exact .inl ⟨⟨hnumber, hlarge⟩, normalizeSoc_of_not_isNumber hnumber⟩

/-- The conversions after the divisions. -/
def readFloats (minSoc maxSoc expectedSoc : Json) : Except PyError (PyFloat × PyFloat × Option PyFloat) := do
  return (← socFloat minSoc id (.finite 0), ← socFloat maxSoc id (.finite 1), ← socFloat expectedSoc some none)

theorem readFloats_cases {p q r : Prop} {a b e : Json} (ha : (p → FloatOverflows a) ∧ (¬ p → FloatReads a))
    (hb : (q → FloatOverflows b) ∧ (¬ q → FloatReads b)) (he : (r → FloatOverflows e) ∧ (¬ r → FloatReads e)) :
    (¬ p ∧ ¬ q ∧ ¬ r) ∧ (∃ socs, readFloats a b e = .ok socs) ∨
      (p ∨ q ∨ r) ∧ readFloats a b e = .error .overflowError := by
  by_cases hp : p
  · refine .inr ⟨.inl hp, ?_⟩
    rw [readFloats, ha.1 hp]
    rfl
  obtain ⟨fa, hfa⟩ := ha.2 hp _ id (.finite 0)
  by_cases hq : q
  · refine .inr ⟨.inr (.inl hq), ?_⟩
    rw [readFloats, hfa, hb.1 hq]
    rfl
  obtain ⟨fb, hfb⟩ := hb.2 hq _ id (.finite 1)
  by_cases hr : r
  · refine .inr ⟨.inr (.inr hr), ?_⟩
    rw [readFloats, hfa, hfb, he.1 hr]
    rfl
  obtain ⟨fe, hfe⟩ := he.2 hr _ some none
  refine .inl ⟨⟨hp, hq, hr⟩, (fa, fb, fe), ?_⟩
  rw [readFloats, hfa, hfb, hfe]
  rfl

theorem readSocs_cases (minSoc maxSoc expectedSoc : Json) :
    SocsRead minSoc maxSoc expectedSoc ∧ (∃ socs, readSocs minSoc maxSoc expectedSoc = .ok socs) ∨
    SocOverflows minSoc maxSoc expectedSoc ∧ readSocs minSoc maxSoc expectedSoc = .error .overflowError ∨
    (¬ SocsRead minSoc maxSoc expectedSoc ∧ ¬ SocOverflows minSoc maxSoc expectedSoc) ∧
      readSocs minSoc maxSoc expectedSoc = .error .typeError := by
  rcases normalizeSoc_cases minSoc with ⟨⟨hnumber, hlarge⟩, hmin⟩ | ⟨hlarge, hmin⟩ | ⟨ha, a, hmin, hreada⟩
  · refine .inr (.inr ⟨⟨fun h => hnumber h.1.1.1, ?_⟩, by rw [readSocs, hmin]; rfl⟩)
    rintro (h | h | h | h)
    · exact hlarge h
    · exact hnumber h.1.1
    · exact hnumber h.1.1
    · exact hnumber h.1.1
  · exact .inr (.inl ⟨.inl hlarge, by rw [readSocs, hmin]; rfl⟩)
  rcases normalizeSoc_cases maxSoc with ⟨⟨hnumber, hlarge⟩, hmax⟩ | ⟨hlarge, hmax⟩ | ⟨hb, b, hmax, hreadb⟩
  · refine .inr (.inr ⟨⟨fun h => hnumber h.1.2.1.1, ?_⟩, by rw [readSocs, hmin, hmax]; rfl⟩)
    rintro (h | h | h | h)
    · exact ha.2 h
    · exact hlarge h.2
    · exact hnumber h.2.1.1
    · exact hnumber h.2.1.1
  · exact .inr (.inl ⟨.inr (.inl ⟨ha, hlarge⟩), by rw [readSocs, hmin, hmax]; rfl⟩)
  rcases normalizeSoc_cases expectedSoc with ⟨⟨hnumber, hlarge⟩, hexpected⟩ | ⟨hlarge, hexpected⟩ |
    ⟨he, e, hexpected, hreade⟩
  · refine .inr (.inr ⟨⟨fun h => hnumber h.1.2.2.1, ?_⟩, by rw [readSocs, hmin, hmax, hexpected]; rfl⟩)
    rintro (h | h | h | h)
    · exact ha.2 h
    · exact hb.2 h.2
    · exact hlarge h.2.2
    · exact hnumber h.2.2.1.1
  · exact .inr (.inl ⟨.inr (.inr (.inl ⟨ha, hb, hlarge⟩)), by rw [readSocs, hmin, hmax, hexpected]; rfl⟩)
  -- all three normalize, and the conversions run in their order
  have hread : readSocs minSoc maxSoc expectedSoc = readFloats a b e := by
    rw [readSocs, hmin, hmax, hexpected]
    rfl
  rw [hread]
  rcases readFloats_cases hreada hreadb hreade with ⟨hsmall, hfloats⟩ | ⟨hsmall, hfloats⟩
  · exact .inl ⟨⟨⟨ha, hb, he⟩, hsmall⟩, hfloats⟩
  · exact .inr (.inl ⟨.inr (.inr (.inr ⟨ha, hb, he, hsmall⟩)), hfloats⟩)

/-! ## An item -/

/-- `fields.get(key, default)`. -/
def fieldOr (fields : List (PyStr × Json)) (key : String) (default : Json) : Json :=
  (Json.lookup fields (py key)).getD default

theorem ok_bind {α β : Type} (a : α) (f : α → Except PyError β) : (Except.ok a >>= f) = f a := rfl

theorem get_obj (fields : List (PyStr × Json)) (key : String) (default : Json) :
    (Json.obj fields).get key default = .ok (fieldOr fields key default) := rfl

/-- `req_data.get("chargingRequestData") or {}`. -/
def dataOf (fields : List (PyStr × Json)) : Json := (fieldOr fields "chargingRequestData" .null).orElse (.obj [])

/-- The two times of an item. -/
def arrivalOf (data : List (PyStr × Json)) : Json :=
  (fieldOr data "expectedArrivalTimeAtChargingPoint" .null).orElse (.str [])

def departureOf (data : List (PyStr × Json)) : Json :=
  (fieldOr data "requestedTimeForDeparture" .null).orElse (.str [])

/-- The request of an item whose states of charge were read. -/
def requestOf (fields data : List (PyStr × Json)) (validationStatus : String)
    (socs : PyFloat × PyFloat × Option PyFloat) : ChargingRequest where
  chargingRequestId := fieldOr fields "chargingRequestId" (.str [])
  vehicleExternalId := fieldOr fields "vehicleId" (.str [])
  arrivalTime := arrivalOf data
  departureTime := departureOf data
  minTargetSoc := socs.1
  maxTargetSoc := socs.2.1
  chargingPointId := fieldOr fields "chargingPointId" .null
  expectedSocAtArrival := socs.2.2
  priority := (fieldOr fields "priority" .null).orElse (fieldOr fields "chargingPriority" .null)
  chargingInstruction := fieldOr fields "chargingInstruction" (.str (py "Normal"))
  manualPreconditioning := fieldOr fields "manualPreconditioning" .null
  automaticPreconditioning := fieldOr fields "automaticPreconditioning" .null
  validationStatus := validationStatus

def socsOf (data : List (PyStr × Json)) : Except PyError (PyFloat × PyFloat × Option PyFloat) :=
  readSocs (fieldOr data "minTargetSoc" (.int 0)) (fieldOr data "maxTargetSoc" (.int 1))
    (fieldOr data "expectedSocAtArrival" .null)

theorem parse_of_data {fields data : List (PyStr × Json)} (h : dataOf fields = .obj data) (validationStatus : String) :
    parseChargingRequestItem (.obj fields) validationStatus =
      (socsOf data).map (requestOf fields data validationStatus) := by
  unfold dataOf at h
  unfold parseChargingRequestItem socsOf readSocs
  simp only [get_obj, ok_bind, h]
  rcases normalizeSoc (fieldOr data "minTargetSoc" (.int 0)) with e | a
  · rfl
  rcases normalizeSoc (fieldOr data "maxTargetSoc" (.int 1)) with e | b
  · rfl
  rcases normalizeSoc (fieldOr data "expectedSocAtArrival" .null) with e | c
  · rfl
  simp only [ok_bind]
  rcases socFloat a id (.finite 0) with e | fa
  · rfl
  rcases socFloat b id (.finite 1) with e | fb
  · rfl
  rcases socFloat c some none with e | fc
  · rfl
  rfl

theorem parse_of_no_data {fields : List (PyStr × Json)} (h : ∀ data, dataOf fields ≠ .obj data)
    (validationStatus : String) :
    parseChargingRequestItem (.obj fields) validationStatus = .error .attributeError := by
  have hget : (dataOf fields).get "minTargetSoc" (.int 0) = .error .attributeError := by
    cases hdata : dataOf fields with
    | obj data => exact absurd hdata (h data)
    | null => rfl
    | bool b => rfl
    | int n => rfl
    | float x => rfl
    | str s => rfl
    | arr items => rfl
  unfold dataOf at hget
  unfold parseChargingRequestItem
  simp only [get_obj, ok_bind, hget]
  rfl

/-! ## Items that raise -/

def TimesClash (data : List (PyStr × Json)) : Prop :=
  (arrivalOf data).truthy ∧ (departureOf data).truthy ∧ ∃ e, (arrivalOf data).ge (departureOf data) = .error e

/-- A dictionary of the list whose turn raises: its data is no dictionary, a state of charge overflows, or all three are
read and the times do not compare. -/
def RaisesInTurn (fields : List (PyStr × Json)) : Prop :=
  (∀ data, dataOf fields ≠ .obj data) ∨
    ∃ data, dataOf fields = .obj data ∧
      (SocOverflows (fieldOr data "minTargetSoc" (.int 0)) (fieldOr data "maxTargetSoc" (.int 1))
          (fieldOr data "expectedSocAtArrival" .null) ∨
        SocsRead (fieldOr data "minTargetSoc" (.int 0)) (fieldOr data "maxTargetSoc" (.int 1))
          (fieldOr data "expectedSocAtArrival" .null) ∧ TimesClash data)

variable {setting : Setting} {self : VDV463Handler} {c : Circumstances} {envelope : VDVMessageEnvelope}

theorem resolveVerdict_not_raises {i : ℕ} {req : ChargingRequest} {e : PyException} :
    resolveVerdict setting self c i req ≠ .raises e := by
  unfold resolveVerdict
  split
  · exact nofun
  · split
    · split
      · exact nofun
      · exact nofun
    · exact nofun

theorem invalidTimeWindow_error {fields data : List (PyStr × Json)} {validationStatus : String}
    {socs : PyFloat × PyFloat × Option PyFloat} :
    (∃ e, invalidTimeWindow (requestOf fields data validationStatus socs) = .error e) ↔ TimesClash data := by
  unfold invalidTimeWindow TimesClash
  show (∃ e, (if (arrivalOf data).truthy && (departureOf data).truthy then (arrivalOf data).ge (departureOf data)
    else .ok false) = .error e) ↔ _
  by_cases ha : (arrivalOf data).truthy
  · by_cases hd : (departureOf data).truthy
    · simp [ha, hd]
    · simp [hd]
  · simp [ha]

/-- **The items that leave the loop.** -/
theorem verdict_raises_iff {i : ℕ} {fields : List (PyStr × Json)} :
    (∃ e, verdict setting self c envelope i (.obj fields) = .raises e) ↔ RaisesInTurn fields := by
  unfold verdict RaisesInTurn
  generalize (if envelope.validationStatus = "" then "ok" else envelope.validationStatus) = validationStatus
  by_cases hdata : ∃ data, dataOf fields = .obj data
  · obtain ⟨data, hdata⟩ := hdata
    have hdata' : (∀ data', dataOf fields ≠ .obj data') ↔ False := iff_false_intro fun h => h data hdata
    have huniq : ∀ data', dataOf fields = .obj data' ↔ data' = data := fun data' => by
      rw [hdata]
      exact ⟨fun h => (Json.obj.inj h).symm, fun h => h ▸ rfl⟩
    simp only [hdata', false_or, huniq, exists_eq_left]
    rw [parse_of_data hdata, socsOf]
    rcases readSocs_cases (fieldOr data "minTargetSoc" (.int 0)) (fieldOr data "maxTargetSoc" (.int 1))
      (fieldOr data "expectedSocAtArrival" .null) with ⟨hread, socs, hsocs⟩ | ⟨hover, hsocs⟩ | ⟨⟨hread, hover⟩, hsocs⟩
    · rw [hsocs]
      have hclash := @invalidTimeWindow_error fields data validationStatus socs
      simp only [Except.map]
      rcases hwindow : invalidTimeWindow (requestOf fields data validationStatus socs) with e | b
      · exact iff_of_true ⟨_, rfl⟩ (.inr ⟨hread, hclash.mp ⟨e, hwindow⟩⟩)
      · have hnot : ¬ TimesClash data := fun h => by
          obtain ⟨e, he⟩ := hclash.mpr h
          rw [hwindow] at he
          exact nomatch he
        refine iff_of_false ?_ fun h => h.elim hread.not_overflows fun h => hnot h.2
        rintro ⟨e, he⟩
        cases b with
        | true => exact nomatch he
        | false => exact resolveVerdict_not_raises he
    · rw [hsocs]
      exact iff_of_true ⟨_, rfl⟩ (.inl hover)
    · rw [hsocs]
      exact iff_of_false (fun ⟨_, h⟩ => nomatch h) fun h => h.elim hover fun h => hread h.1
  · rw [parse_of_no_data fun data h => hdata ⟨data, h⟩]
    exact iff_of_true ⟨_, rfl⟩ (.inl fun data h => hdata ⟨data, h⟩)

end FavoniusBackend.Vdv463
