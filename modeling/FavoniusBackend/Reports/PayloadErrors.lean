import FavoniusBackend.Reports.PayloadStages

/-!
# Which payloads are rejected as they should be

A payload is normalized, or rejected by a `ScheduleValidationError`, exactly where every check that is reached copes
with its value; and the time of one that is accepted is written in ASCII only where it was read from ASCII.
-/

namespace FavoniusBackend.Reports.Payloads

open Lib Lib.PyJson Lib.PyText Lib.Checks

section

variable (b : Builtins)

/-! ## Recipients -/

theorem follows_validateEmail (value : Json) :
    FollowsStages [⟨True, ∃ s, value = .str s ∧ IsEmail s⟩] (validateEmail b value) := by
  refine .of_expected ?_ ?_
  · intro e he
    unfold validateEmail at he
    dsimp only at he
    split at he
    · split at he
      · exact isValidation_of_invalid he
      · split at he
        · exact isValidation_of_invalid he
        · cases he
    · exact isValidation_of_invalid he
  · unfold validateEmail
    dsimp only
    split
    · rename_i s
      have hiff : (∃ s', Json.str s = .str s' ∧ IsEmail s') ↔ IsEmail s :=
        ⟨fun ⟨s', hs, h⟩ => Json.str.inj hs ▸ h, fun h => ⟨s, rfl, h⟩⟩
      rw [hiff]
      split
      · rename_i hat
        exact iff_of_false nofun fun h => hat h.1
      · rename_i hat
        split
        · rename_i hparts
          refine iff_of_false nofun fun h => ?_
          rcases hparts with hlocal | hdot | hlast
          · exact h.2.1 hlocal
          · exact hdot h.2.2.1
          · exact h.2.2.2 hlast
        · rename_i hparts
          simp only [not_or, not_not] at hparts hat
          exact iff_of_true ⟨s, rfl⟩ ⟨hat, hparts⟩
    · rename_i hnot
      exact iff_of_false nofun fun ⟨s, hs, _⟩ => hnot s hs

theorem validateEmail_eq_ok {value : Json} {email : PyStr} (h : validateEmail b value = .ok email) :
    value = .str email := by
  unfold validateEmail at h
  dsimp only at h
  split at h
  · split at h
    · cases h
    · split at h
      · cases h
      · cases h
        rfl
  · cases h

theorem recipientKey_eq {item : Json} {email : PyStr} {format : Format} (hemail : emailOf item = .str email)
    (hformat : (Format.all.find? fun f => decide (formatOf item = .str (py f.text))) = some format) :
    recipientKey b item = some (b.lower email, format) := by
  rw [recipientKey, hemail]
  dsimp only
  rw [hformat]
  rfl

theorem follows_validateRecipient (seen : List (PyStr × Format)) (position : ℕ) (item : Json) :
    FollowsStages (recipientStages b seen item) (validateRecipient b seen position item) := by
  by_cases hobj : ∃ fields, item = .obj fields
  · obtain ⟨fields, rfl⟩ := hobj
    refine .skip trivial ⟨fields, rfl⟩ ?_
    refine (follows_validateEmail b (emailOf (.obj fields))).bind fun email hemail => ?_
    refine (follows_oneOf b Format.all Format.text _ (formatOf (.obj fields))).bind fun format hformat => ?_
    have hkey := recipientKey_eq b (validateEmail_eq_ok b hemail) (oneOf_eq_ok b hformat)
    have hfresh : (∀ key ∈ recipientKey b (.obj fields), key ∉ seen) = ((b.lower email, format) ∉ seen) := by
      rw [hkey]
      exact propext ⟨fun h => h _ rfl, fun h key hmem => Option.some.inj hmem ▸ h⟩
    rw [hfresh]
    exact (Follows.require _ trivial).map
  · have hrejected : validateRecipient b seen position item = invalid (py "each recipient must be an object") := by
      unfold validateRecipient
      split
      · exact absurd ⟨_, rfl⟩ hobj
      · rfl
    rw [hrejected]
    exact .reject trivial hobj trivial _

theorem validateRecipient_eq_ok {seen : List (PyStr × Format)} {position : ℕ} {item : Json}
    {recipient : NormalizedRecipient} (h : validateRecipient b seen position item = .ok recipient) :
    recipientKey b item = some (b.lower recipient.emailAddress, recipient.format) := by
  unfold validateRecipient at h
  split at h
  · obtain ⟨email, hemail, h⟩ := (Guard.bind_eq_ok _ _ _).mp h
    obtain ⟨format, hformat, h⟩ := (Guard.bind_eq_ok _ _ _).mp h
    obtain ⟨-, -, h⟩ := (Guard.bind_eq_ok _ _ _).mp h
    cases h
    exact recipientKey_eq b (validateEmail_eq_ok b hemail) (oneOf_eq_ok b hformat)
  · cases h

theorem follows_validateItems (items : List Json) : ∀ (seen : List (PyStr × Format)) (position : ℕ),
    FollowsStages (itemsStages b seen items) (validateItems b seen position items) := by
  induction items with
  | nil =>
    intro seen position
    exact .pure []
  | cons item rest ih =>
    intro seen position
    refine (follows_validateRecipient b seen position item).bind fun recipient hrecipient => ?_
    rw [validateRecipient_eq_ok b hrecipient]
    exact (ih _ (position + 1)).map

theorem follows_validateRecipients (value : Json) :
    FollowsStages (recipientsStages b value) (validateRecipients b value) := by
  cases value with
  | null => exact .pure []
  | arr items => exact follows_validateItems b items [] 0
  | bool _ => exact .reject trivial id trivial []
  | int _ => exact .reject trivial id trivial []
  | float _ => exact .reject trivial id trivial []
  | str _ => exact .reject trivial id trivial []
  | obj _ => exact .reject trivial id trivial []

/-! ## Kinds and cadences -/

theorem follows_validateKindAndGroupBy (kind groupBy : Json) :
    FollowsStages [oneOfStage Kind.all Kind.text kind, groupByStage groupBy, groupByRequiredStage kind groupBy]
      (validateKindAndGroupBy b kind groupBy) := by
  refine (follows_oneOf b Kind.all Kind.text _ kind).bind fun k hk => ?_
  have hkind := text_of_find (oneOf_eq_ok b hk)
  have hconsumption : (kind = .str (py Kind.monthlyConsumption.text)) = (k = .monthlyConsumption) := by
    rw [hkind]
    cases k <;> decide
  by_cases hnull : groupBy = .null
  · subst hnull
    refine .skip rfl (.inl rfl) ?_
    rw [if_pos rfl]
    have hrequired : groupByRequiredStage kind .null =
        ⟨True, ¬ (k = .monthlyConsumption ∧ (none : Option GroupBy) = none)⟩ := by
      rw [groupByRequiredStage, hconsumption]
      simp
    rw [hrequired]
    exact (Follows.require _ trivial).map
  · rw [if_neg hnull]
    have hstage : groupByStage groupBy = oneOfStage GroupBy.all GroupBy.text groupBy := by
      simp [groupByStage, oneOfStage, hnull]
    rw [hstage]
    refine ((follows_oneOf b GroupBy.all GroupBy.text _ groupBy).map).bind fun group hgroup => ?_
    obtain ⟨g, -, hg⟩ := (Guard.bind_eq_ok _ _ _).mp hgroup
    cases hg
    have hrequired : groupByRequiredStage kind groupBy =
        ⟨True, ¬ (k = .monthlyConsumption ∧ some g = none)⟩ := by
      simp [groupByRequiredStage, hnull]
    rw [hrequired]
    exact (Follows.require _ trivial).map

/-- The three checks of a cadence: the day that it needs is there, it is an integer between the bounds, and the other is
not there. -/
theorem follows_day {lo hi : ℤ} {α : Type} (day other : Json) (required forbidden : PyStr) (message : String)
    (f : Between lo hi → α) :
    FollowsStages [⟨True, (∃ n, day = .int n ∧ lo ≤ n ∧ n ≤ hi) ∧ other = .null⟩]
      (do
        Guard.require (day ≠ .null) (Error.scheduleValidationError required)
        let found ← boundedInt lo hi message day
        Guard.require (other = .null) (Error.scheduleValidationError forbidden)
        return f found) := by
  have hchecks : FollowsStages
      [⟨True, day ≠ .null⟩, ⟨True, ∃ n, day = .int n ∧ lo ≤ n ∧ n ≤ hi⟩, ⟨True, other = .null⟩]
      (do
        Guard.require (day ≠ .null) (Error.scheduleValidationError required)
        let found ← boundedInt lo hi message day
        Guard.require (other = .null) (Error.scheduleValidationError forbidden)
        return f found) := by
    refine (Follows.require _ trivial).bind fun _ _ => ?_
    refine (follows_boundedInt lo hi message day).bind fun found _ => ?_
    exact (Follows.require _ trivial).map
  refine hchecks.merge (by simp) ?_
  simp only [accepted_cons, accepted_nil, and_true]
  constructor
  · exact And.right
  · rintro ⟨⟨n, rfl, hn⟩, hother⟩
    exact ⟨by rintro ⟨⟩, ⟨n, rfl, hn⟩, hother⟩

theorem follows_validateCadence {frequency : Frequency} {value : Json} (hvalue : value = .str (py frequency.text))
    (dayOfMonth dayOfWeek : Json) : FollowsStages [cadenceStage value dayOfMonth dayOfWeek]
      (validateCadence frequency dayOfMonth dayOfWeek) := by
  subst hvalue
  cases frequency with
  | weekly => exact follows_day dayOfWeek dayOfMonth _ _ _ fun day => (none, some day)
  | monthly => exact follows_day dayOfMonth dayOfWeek _ _ _ fun day => (some day, none)
  | quarterly => exact follows_day dayOfMonth dayOfWeek _ _ _ fun day => (some day, none)

/-! ## Payloads -/

theorem follows_normalizeFields (payload : JsonObject) :
    FollowsStages (fieldStages b payload) (normalizeFields b payload) := by
  refine (follows_validateName _).bind fun name _ => ?_
  refine (follows_oneOf b frequencies Frequency.text _ _).bind fun frequency hfrequency => ?_
  refine (follows_validateKindAndGroupBy b _ _).bind fun kind _ => ?_
  refine (follows_validateCadence (text_of_find (oneOf_eq_ok b hfrequency)) _ _).bind fun day _ => ?_
  refine (Follows.require _ trivial).bind fun _ _ => ?_
  refine (follows_parseHhMm b _).bind fun timeOfDay _ => ?_
  refine (follows_oneOf b AutonomyMode.all AutonomyMode.text _ _).bind fun autonomyMode _ => ?_
  refine (follows_validateIsActive _).bind fun isActive _ => ?_
  exact (follows_validateRecipients b _).map

theorem timeOfDay_of_normalizeFields {payload : JsonObject} {input : NormalizedScheduleInput}
    (h : normalizeFields b payload = .ok input) : parseHhMm b (payload.get "timeOfDay") = .ok input.timeOfDay := by
  obtain ⟨name, -, h⟩ := (Guard.bind_eq_ok _ _ _).mp h
  obtain ⟨frequency, -, h⟩ := (Guard.bind_eq_ok _ _ _).mp h
  obtain ⟨kind, -, h⟩ := (Guard.bind_eq_ok _ _ _).mp h
  obtain ⟨day, -, h⟩ := (Guard.bind_eq_ok _ _ _).mp h
  obtain ⟨-, -, h⟩ := (Guard.bind_eq_ok _ _ _).mp h
  obtain ⟨timeOfDay, htime, h⟩ := (Guard.bind_eq_ok _ _ _).mp h
  obtain ⟨autonomyMode, -, h⟩ := (Guard.bind_eq_ok _ _ _).mp h
  obtain ⟨isActive, -, h⟩ := (Guard.bind_eq_ok _ _ _).mp h
  obtain ⟨recipients, -, h⟩ := (Guard.bind_eq_ok _ _ _).mp h
  cases h
  exact htime

theorem decimal_ascii {c : ℕ} (h : '0'.toNat ≤ c ∧ c ≤ '9'.toNat) : decimal c = some (c - '0'.toNat) := by
  have hall : ∀ k : Fin 10, decimal ('0'.toNat + k) = some k := by decide +kernel
  have hk := hall ⟨c - '0'.toNat, by have := h.2; have : '9'.toNat = '0'.toNat + 9 := rfl; omega⟩
  rwa [Nat.add_sub_cancel' h.1] at hk

theorem twoDigits_pair {c d : ℕ} (hc : '0'.toNat ≤ c ∧ c ≤ '9'.toNat) (hd : '0'.toNat ≤ d ∧ d ≤ '9'.toNat) {n : ℕ}
    (h : pair c d = some n) : twoDigits n = [c, d] := by
  rw [pair, decimal_ascii hc, decimal_ascii hd] at h
  have hn : 10 * (c - '0'.toNat) + (d - '0'.toNat) = n := Option.some.inj h
  have hzero : '0'.toNat = 48 := rfl
  have hnine : '9'.toNat = 57 := rfl
  rw [hzero, hnine] at hc hd
  rw [hzero] at hn
  have htens : ((n : ℤ) / 10).toNat = c - 48 := by omega
  have hunits : ((n : ℤ) % 10).toNat = d - 48 := by omega
  rw [twoDigits, htens, hunits, hzero, Nat.add_sub_cancel' hc.1, Nat.add_sub_cancel' hd.1]

theorem formatHhMm_parseHhMm {s : PyStr} {t : TimeOfDay} (hascii : IsAscii s) (h : parseHhMm b (.str s) = .ok t) :
    formatHhMm t = s := by
  obtain ⟨c, d, e, f, rfl, hdigits⟩ := hascii
  have hc := hdigits c (by simp)
  have hd := hdigits d (by simp)
  have he := hdigits e (by simp)
  have hf := hdigits f (by simp)
  have hhour : pair c d = some (10 * (c - '0'.toNat) + (d - '0'.toNat)) := by
    rw [pair, decimal_ascii hc, decimal_ascii hd]
    rfl
  have hminute : pair e f = some (10 * (e - '0'.toNat) + (f - '0'.toNat)) := by
    rw [pair, decimal_ascii he, decimal_ascii hf]
    rfl
  rw [parseHhMm_pairs b hhour hminute] at h
  split at h
  · cases h
    rw [formatHhMm]
    dsimp only
    rw [twoDigits_pair hc hd hhour, twoDigits_pair he hf hminute]
    rfl
  · cases h

/-! ## The claim of the docstrings -/

/-- A payload is normalized, its time being five characters in ASCII that are what the time is written as, or it is
rejected by a `ScheduleValidationError`. -/
def Settles (timeOfDay : Json) : Except Error NormalizedScheduleInput → Prop
  | .ok input => ∃ s, timeOfDay = .str s ∧ IsAscii s ∧ parseHhMm b (.str s) = .ok input.timeOfDay ∧
      formatHhMm input.timeOfDay = s
  | .error e => e.IsValidation

theorem settles_fields_iff (payload : JsonObject) :
    Settles b (payload.get "timeOfDay") (normalizeFields b payload) ↔
      Orderly (fieldStages b payload ++ [asciiStage (payload.get "timeOfDay")]) := by
  have hfollows := follows_normalizeFields b payload
  rw [orderly_append, ← hfollows.errors, ← hfollows.succeeds]
  cases hresult : normalizeFields b payload with
  | error e =>
    constructor
    · intro h
      refine ⟨fun e' he => Except.error.inj he ▸ h, ?_⟩
      rintro ⟨_, hok⟩
      cases hok
    · intro h
      exact h.1 e rfl
  | ok input =>
    have htime := timeOfDay_of_normalizeFields b hresult
    constructor
    · rintro ⟨s, hs, hascii, -⟩
      exact ⟨nofun, fun _ => ⟨⟨s, hs, hascii⟩, fun _ => trivial⟩⟩
    · rintro ⟨-, h⟩
      obtain ⟨⟨s, hs, hascii⟩, -⟩ := h ⟨input, rfl⟩
      rw [hs] at htime
      exact ⟨s, hs, hascii, htime, formatHhMm_parseHhMm b hascii htime⟩

def timeOfDayOf (payload : Json) : Json := (members payload).get "timeOfDay"

/-- What a patch makes of a row; a patch that is no object is checked as it is. -/
def overlaid (c : Current) : Json → Json
  | .obj patch => .obj (merged patch c)
  | patch => patch

theorem settles_create_iff (payload : Json) :
    Settles b (timeOfDayOf payload) (normalizeCreatePayload b payload) ↔ Orderly (payloadStages b payload) := by
  cases payload with
  | obj fields => exact settles_fields_iff b fields
  | null => exact iff_of_true trivial trivial
  | bool _ => exact iff_of_true trivial trivial
  | int _ => exact iff_of_true trivial trivial
  | float _ => exact iff_of_true trivial trivial
  | str _ => exact iff_of_true trivial trivial
  | arr _ => exact iff_of_true trivial trivial

theorem settles_patch_iff (patch : Json) (c : Current) :
    Settles b (timeOfDayOf (overlaid c patch)) (normalizePatchPayload b patch c) ↔
      Orderly (payloadStages b (overlaid c patch)) := by
  cases patch with
  | obj fields => exact settles_create_iff b (.obj (merged fields c))
  | null => exact iff_of_true trivial trivial
  | bool _ => exact iff_of_true trivial trivial
  | int _ => exact iff_of_true trivial trivial
  | float _ => exact iff_of_true trivial trivial
  | str _ => exact iff_of_true trivial trivial
  | arr _ => exact iff_of_true trivial trivial

/-- A payload, and the row under a patch, is normalized or rejected as it should be exactly where every check that is
reached copes with its value. -/
theorem settles_iff (payload : Json) :
    (Settles b (timeOfDayOf payload) (normalizeCreatePayload b payload) ↔ Orderly (payloadStages b payload)) ∧
      ∀ c : Current, Settles b (timeOfDayOf (overlaid c payload)) (normalizePatchPayload b payload c) ↔
        Orderly (payloadStages b (overlaid c payload)) :=
  ⟨settles_create_iff b payload, settles_patch_iff b payload⟩

/-- A list as the frequency: the set of the frequencies is asked for a value without a hash. -/
theorem frequency_list_raises : ¬ ∀ payload : Json,
    Settles ⟨fun _ => [], id⟩ (timeOfDayOf payload) (normalizeCreatePayload ⟨fun _ => [], id⟩ payload) := by
  intro h
  have hraises : normalizeCreatePayload ⟨fun _ => [], id⟩
      (.obj [(py "name", .str (py "Weekly report")), (py "frequency", .arr [])]) = .error (.other .typeError) := by
    rfl
  have hsettles := h (.obj [(py "name", .str (py "Weekly report")), (py "frequency", .arr [])])
  rw [hraises] at hsettles
  exact hsettles

end

end FavoniusBackend.Reports.Payloads
