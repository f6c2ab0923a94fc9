import FavoniusBackend.Lib.Run
import FavoniusBackend.Ocpp.LocalAuthSync

/-!
# The record of local-list support

The row of a station records whether a firmware supports local lists.  A negative record lets the next sync on that
firmware end before it talks to the charger.

A run is a sequence of syncs, in which the firmware may change between two of them, the charger replies as it likes,
any write may fail and a sync may be cancelled.  A negative record always rests on an answer of the charger.  A
positive record of an old firmware, however, is taken for evidence about the new one.  Where it does not come to that,
and where the record of a refusal is written and kept, the record is one of its firmware (`perFirmware_along`).
-/

namespace FavoniusBackend.Ocpp.SupportCache

open Lib
open Ocpp.LocalAuthSync

/-! ## Negative records rest on answers -/

/-- The charger itself answers that it does not support lists, or does not take this one. -/
def Refuses : Action → Prop
  | .getConfiguration (some entries) => probeLocalAuthSupport (some entries) = some false
  | .changeConfiguration (some (some status)) => status = .rejected ∨ status = .notSupported
  | .sendLocalList _ _ (some status) => status = .failed ∨ status = .notSupported
  | _ => False

/-- Every record is for the firmware, and a negative one comes after such an answer. -/
def Backed (currentFw : Option String) (actions : List Action) : Prop :=
  ∀ (i : ℕ) (supported : Bool) (firmware : Option String) (lastStatus : Option SyncStatus),
    actions[i]? = some (.execute (.recordProbeOutcome supported firmware lastStatus)) →
      firmware = currentFw ∧
        (supported = false → currentFw.isSome ∧ ∃ j < i, ∃ a, actions[j]? = some a ∧ Refuses a)

theorem Backed.take {currentFw : Option String} {actions : List Action} (h : Backed currentFw actions) (n : ℕ) :
    Backed currentFw (actions.take n) := by
  intro i supported firmware lastStatus hi
  rw [List.getElem?_take] at hi
  split at hi
  · rename_i hlt
    obtain ⟨hfirmware, hanswer⟩ := h i supported firmware lastStatus hi
    refine ⟨hfirmware, fun hsupported => ?_⟩
    obtain ⟨hsome, j, hj, a, ha, hrefuses⟩ := hanswer hsupported
    refine ⟨hsome, j, hj, a, ?_, hrefuses⟩
    rw [List.getElem?_take_of_lt (hj.trans hlt)]
    exact ha
  · cases hi

theorem backed_nil (currentFw : Option String) : Backed currentFw [] := by
  intro i supported firmware lastStatus hi
  simp at hi

theorem Backed.cons {currentFw : Option String} {actions : List Action} (h : Backed currentFw actions) {a : Action}
    (ha : ∀ supported firmware lastStatus, a = .execute (.recordProbeOutcome supported firmware lastStatus) →
      supported = true ∧ firmware = currentFw) :
    Backed currentFw (a :: actions) := by
  intro i supported firmware lastStatus hi
  cases i with
  | zero =>
    obtain ⟨rfl, hfirmware⟩ := ha supported firmware lastStatus (Option.some.inj hi)
    exact ⟨hfirmware, by simp⟩
  | succ i =>
    obtain ⟨hfirmware, hanswer⟩ := h i supported firmware lastStatus hi
    refine ⟨hfirmware, fun hsupported => ?_⟩
    obtain ⟨hsome, j, hj, b, hb, hrefuses⟩ := hanswer hsupported
    exact ⟨hsome, j + 1, Nat.succ_lt_succ hj, b, hb, hrefuses⟩

theorem backed_pair {currentFw : Option String} (hsome : currentFw.isSome) {a : Action} (ha : Refuses a)
    (lastStatus : Option SyncStatus) :
    Backed currentFw [a, .execute (.recordProbeOutcome false currentFw lastStatus)] := by
  intro i supported firmware lastStatus' hi
  match i with
  | 0 =>
    obtain rfl := Option.some.inj hi
    exact absurd ha id
  | 1 =>
    have heq := Option.some.inj hi
    injection heq with heq
    injection heq with _ hfirmware _
    exact ⟨hfirmware.symm, fun _ => ⟨hsome, 0, one_pos, a, rfl, ha⟩⟩
  | i + 2 => simp at hi

section Parts

variable {inputs : Inputs} {snap : Snapshot} {currentFw : Option String} {probePositive : Bool}
  {bootstrap : Option BootstrapOutcome} {entries : List AuthorizationData}

theorem backed_sendPlan (hdisabled : inputs.disabled = false) :
    Backed currentFw (sendPlan inputs snap currentFw probePositive bootstrap entries).actions := by
  rw [sendPlan_actions, resultWrite]
  generalize hcall : sendLocalListWithError inputs.disabled inputs.vendor entries inputs.sendLocalList = call
  by_cases hcache : cacheNegative snap currentFw probePositive bootstrap entries call = true
  · rw [if_pos hcache]
    rw [← hcall] at hcache
    obtain ⟨hlocal, hsome, hreply⟩ := cacheNegative_sendLocalList hdisabled hcache
    rw [hlocal]
    refine backed_pair hsome ?_ _
    rcases hreply with hreply | hreply
    · rw [hreply]
      exact .inl rfl
    · rw [hreply]
      exact .inr rfl
  · have hlast : ∀ w : Write, (∀ supported firmware lastStatus, w ≠ .recordProbeOutcome supported firmware lastStatus) →
        Backed currentFw ((if refusesLocally inputs.disabled inputs.vendor entries then []
          else [Action.sendLocalList (snap.version + 1) entries inputs.sendLocalList]) ++ [Action.execute w]) := by
      intro w hw
      have hlast : Backed currentFw [Action.execute w] := (backed_nil currentFw).cons (by simp [hw])
      split
      · exact hlast
      · exact hlast.cons (by simp)
    rw [if_neg hcache]
    refine hlast _ ?_
    intro supported firmware lastStatus
    split
    · simp
    · simp

theorem backed_bootstrapPlan (hdisabled : inputs.disabled = false) :
    Backed currentFw (bootstrapPlan inputs snap currentFw probePositive entries).actions := by
  have hstamp : ∀ status, Backed currentFw [Action.execute (.stampStatus status)] := fun status =>
    (backed_nil currentFw).cons (by simp)
  unfold bootstrapPlan
  split
  · dsimp only
    split
    · exact (backed_sendPlan hdisabled).cons (by simp)
    · rename_i houtcome
      unfold bootstrapWrite
      dsimp only
      split
      · rename_i hrecord
        refine backed_pair hrecord.2.2.2 ?_ _
        -- the outcome is `unsupported` only where the charger has answered
        cases hreply : inputs.localAuthListEnabled with
        | none => simp [hreply, bootstrapLocalAuthConfig] at houtcome
        | some answer =>
          cases answer with
          | none => simp [hreply, bootstrapLocalAuthConfig, changeConfigurationWithError] at houtcome
          | some status =>
            cases status with
            | rejected => exact .inl rfl
            | notSupported => exact .inr rfl
            | accepted => simp [hreply, bootstrapLocalAuthConfig, changeConfigurationWithError] at houtcome
            | rebootRequired => simp [hreply, bootstrapLocalAuthConfig, changeConfigurationWithError] at houtcome
      · split
        · exact (hstamp _).cons (by simp)
        · exact (backed_nil currentFw).cons (by simp)
    · rename_i houtcome
      rw [houtcome, bootstrapWrite, if_neg (by simp)]
      split
      · exact (hstamp _).cons (by simp)
      · exact (backed_nil currentFw).cons (by simp)
  · exact backed_sendPlan hdisabled

theorem backed_listPlan (hdisabled : inputs.disabled = false) :
    Backed currentFw (listPlan inputs snap currentFw probePositive).actions := by
  unfold listPlan
  split
  · exact backed_nil currentFw
  · exact backed_bootstrapPlan hdisabled

theorem backed_probePlan (hdisabled : inputs.disabled = false) :
    Backed currentFw (probePlan inputs snap currentFw).actions := by
  have hlist : ∀ probePositive, Backed currentFw (listPlan inputs snap currentFw probePositive).actions := fun _ =>
    backed_listPlan hdisabled
  unfold probePlan
  dsimp only
  split
  · split
    · rename_i hprobe
      split
      · rename_i hsome
        refine backed_pair hsome ?_ _
        cases hreply : inputs.configuration with
        | none => simp [hreply, probeLocalAuthSupport, lastEntry] at hprobe
        | some answer =>
          rw [hreply] at hprobe
          exact hprobe
      · exact (backed_nil currentFw).cons (by simp)
    · split
      · exact ((hlist true).cons (by simp)).cons (by simp)
      · exact (hlist _).cons (by simp)
    · exact (hlist _).cons (by simp)
  · exact hlist _

end Parts

/-- A negative record is for the firmware that the charger runs and rests on an answer that it has given. -/
theorem backed_syncCharger (inputs : Inputs) (row : Station) :
    Backed (normalizeFirmware inputs.firmwareVersion) (syncCharger inputs row).actions := by
  unfold syncCharger
  split
  · exact backed_nil _
  · rename_i hdisabled
    split
    · exact backed_nil _
    · dsimp only
      split
      · exact backed_nil _
      · exact backed_probePlan (by simpa using hdisabled)

/-! ## Records of other firmwares -/

def forget (row : Station) : Station := { row with localListSupported := none, localListProbedFirmware := none }

/-- Unless it is a positive one, the record of another firmware makes no difference. -/
theorem syncCharger_forget {inputs : Inputs} {row : Station} {firmware : String}
    (hfw : normalizeFirmware inputs.firmwareVersion = some firmware)
    (hother : normalizeFirmware row.localListProbedFirmware ≠ some firmware)
    (hpositive : inputs.disabled = false → inputs.read = .current → row.localListSupported ≠ some true) :
    syncCharger inputs row = syncCharger inputs (forget row) := by
  unfold syncCharger
  cases hdisabled : inputs.disabled with
  | true => rfl
  | false =>
    cases hread : inputs.read with
    | legacy => rfl
    | failed => rfl
    | missing => rfl
    | current =>
      have hsupported := hpositive hdisabled hread
      have hknown : (Snapshot.mk false row.localListVersion row.localListSupported
          (normalizeFirmware row.localListProbedFirmware)).knownUnsupported (some firmware) = false :=
        decide_eq_false fun h => hother h.2
      have hneeds : (Snapshot.mk false row.localListVersion row.localListSupported
          (normalizeFirmware row.localListProbedFirmware)).needsProbe (some firmware) = true := by
        simp [Snapshot.needsProbe, hother]
      simp only [Bool.false_eq_true, if_false, fetchStation, hfw, hknown]
      show probePlan inputs _ (some firmware) = probePlan inputs ⟨false, row.localListVersion, none, none⟩ _
      unfold probePlan
      dsimp only
      rw [if_pos hneeds, if_pos (show Snapshot.needsProbe _ _ = true from rfl), decide_eq_false hsupported,
        if_pos hsupported]
      rfl

/-! ## Refusals -/

def ambiguousProbe : Action → Bool
  | .getConfiguration reply => decide (probeLocalAuthSupport reply = none)
  | _ => false

def refusedList : Action → Bool
  | .sendLocalList _ entries (some status) =>
    decide (entries.length ≤ localListMaxEntries ∧ (status = .failed ∨ status = .notSupported))
  | _ => false

def Refused (actions : List Action) : Prop := actions.any ambiguousProbe ∧ actions.any refusedList

instance (actions : List Action) : Decidable (Refused actions) :=
  inferInstanceAs (Decidable (actions.any ambiguousProbe = true ∧ actions.any refusedList = true))

/-- When that happens, by what the sync reads and is answered. -/
structure RefusedBy (inputs : Inputs) (row : Station) : Prop where
  enabled : inputs.disabled = false
  read : inputs.read = .current
  unknown : ¬ (row.localListSupported = some false ∧
    normalizeFirmware row.localListProbedFirmware = normalizeFirmware inputs.firmwareVersion)
  unproven : row.localListSupported = none ∨
    normalizeFirmware row.localListProbedFirmware ≠ normalizeFirmware inputs.firmwareVersion
  ambiguous : probeLocalAuthSupport inputs.configuration = none
  idTags : ∃ rows, inputs.idTags = some rows ∧ rows.length ≤ localListMaxEntries
  bootstrap : row.localListVersion = 0 →
    bootstrapLocalAuthConfig (inputs.localAuthListEnabled.map changeConfigurationWithError) = .success
  answer : inputs.sendLocalList = some .failed ∨ inputs.sendLocalList = some .notSupported

section Parts

variable {inputs : Inputs} {snap : Snapshot} {currentFw : Option String} {probePositive : Bool}
  {bootstrap : Option BootstrapOutcome} {entries : List AuthorizationData}

theorem any_refusedList_sendPlan
    (h : (sendPlan inputs snap currentFw probePositive bootstrap entries).actions.any refusedList = true) :
    entries.length ≤ localListMaxEntries ∧
      (inputs.sendLocalList = some .failed ∨ inputs.sendLocalList = some .notSupported) := by
  rw [sendPlan_actions, List.any_append] at h
  split at h
  · simp [refusedList] at h
  · cases hreply : inputs.sendLocalList with
    | none => simp [hreply, refusedList] at h
    | some status => simpa [hreply, refusedList] using h

theorem any_ambiguousProbe_listPlan :
    (listPlan inputs snap currentFw probePositive).actions.any ambiguousProbe = false := by
  have hsend : ∀ bootstrap entries,
      (sendPlan inputs snap currentFw probePositive bootstrap entries).actions.any ambiguousProbe = false := by
    intro bootstrap entries
    rw [sendPlan_actions]
    split
    · rfl
    · rfl
  have hwrite : ∀ outcome status,
      (bootstrapWrite snap currentFw probePositive outcome status).any ambiguousProbe = false := by
    intro outcome status
    unfold bootstrapWrite
    split
    · rfl
    · split
      · rfl
      · rfl
  unfold listPlan
  split
  · rfl
  · unfold bootstrapPlan
    dsimp only
    split
    · split
      · exact hsend _ _
      · exact hwrite _ _
      · exact hwrite _ _
    · exact hsend _ _

theorem any_refusedList_bootstrapPlan
    (h : (bootstrapPlan inputs snap currentFw probePositive entries).actions.any refusedList = true) :
    (snap.version = 0 →
        bootstrapLocalAuthConfig (inputs.localAuthListEnabled.map changeConfigurationWithError) = .success) ∧
      entries.length ≤ localListMaxEntries ∧
      (inputs.sendLocalList = some .failed ∨ inputs.sendLocalList = some .notSupported) := by
  have hwrite : ∀ outcome status,
      (bootstrapWrite snap currentFw probePositive outcome status).any refusedList = false := by
    intro outcome status
    unfold bootstrapWrite
    split
    · rfl
    · split
      · rfl
      · rfl
  unfold bootstrapPlan at h
  dsimp only at h
  split at h
  · split at h
    · rename_i houtcome
      exact ⟨fun _ => houtcome, any_refusedList_sendPlan h⟩
    · rw [List.any_cons, hwrite] at h
      cases h
    · rw [List.any_cons, hwrite] at h
      cases h
  · rename_i hversion
    exact ⟨fun hzero => absurd hzero hversion, any_refusedList_sendPlan h⟩

theorem any_refusedList_listPlan
    (h : (listPlan inputs snap currentFw probePositive).actions.any refusedList = true) :
    (snap.version = 0 →
        bootstrapLocalAuthConfig (inputs.localAuthListEnabled.map changeConfigurationWithError) = .success) ∧
      (∃ rows, inputs.idTags = some rows ∧ rows.length ≤ localListMaxEntries) ∧
      (inputs.sendLocalList = some .failed ∨ inputs.sendLocalList = some .notSupported) := by
  unfold listPlan at h
  split at h
  · cases h
  · rename_i rows hrows
    obtain ⟨hbootstrap, hlength, hanswer⟩ := any_refusedList_bootstrapPlan h
    exact ⟨hbootstrap, ⟨rows, hrows, by simpa [formatEntries] using hlength⟩, hanswer⟩

/-- Where the sync has probed and the probe was ambiguous, it goes on to the list with what it knew before. -/
theorem refused_probePlan (h : Refused (probePlan inputs snap currentFw).actions) :
    snap.needsProbe currentFw = true ∧ probeLocalAuthSupport inputs.configuration = none ∧
      (listPlan inputs snap currentFw (decide (snap.supported = some true))).actions.any refusedList = true := by
  obtain ⟨hambiguous, hlist⟩ := h
  unfold probePlan at hambiguous hlist
  dsimp only at hambiguous hlist
  split at hambiguous
  · rename_i hneeds
    rw [if_pos hneeds] at hlist
    split at hambiguous
    · rename_i hprobe
      exfalso
      split at hambiguous
      · simp [ambiguousProbe, hprobe] at hambiguous
      · simp [ambiguousProbe, hprobe] at hambiguous
    · rename_i hprobe
      exfalso
      split at hambiguous
      · simp [Plan.after, ambiguousProbe, hprobe, any_ambiguousProbe_listPlan] at hambiguous
      · simp [Plan.after, ambiguousProbe, hprobe, any_ambiguousProbe_listPlan] at hambiguous
    · rename_i hprobe
      rw [hprobe] at hlist
      exact ⟨hneeds, hprobe, hlist⟩
  · rw [any_ambiguousProbe_listPlan] at hambiguous
    cases hambiguous

end Parts

theorem refusedBy_of_refused {inputs : Inputs} {row : Station} (h : Refused (syncCharger inputs row).actions) :
    RefusedBy inputs row := by
  have hskip : ∀ version reason, ¬ Refused (Plan.skip version reason).actions := by
    intro version reason hrefused
    exact absurd hrefused.1 (by simp [Plan.skip])
  unfold syncCharger at h
  split at h
  · exact absurd h (hskip _ _)
  · rename_i hdisabled
    cases hread : inputs.read with
    | legacy =>
      rw [hread] at h
      dsimp only [fetchStation] at h
      split at h
      · exact absurd h (hskip _ _)
      · exact absurd (refused_probePlan h).1 (by simp [Snapshot.needsProbe])
    | failed =>
      rw [hread] at h
      exact absurd h (hskip _ _)
    | missing =>
      rw [hread] at h
      exact absurd h (hskip _ _)
    | current =>
      rw [hread] at h
      dsimp only [fetchStation] at h
      split at h
      · exact absurd h (hskip _ _)
      · rename_i hknown
        obtain ⟨hneeds, hambiguous, hlist⟩ := refused_probePlan h
        obtain ⟨hbootstrap, hrows, hanswer⟩ := any_refusedList_listPlan hlist
        exact
          { enabled := by simpa using hdisabled
            read := hread
            unknown := fun hrecord => hknown (decide_eq_true hrecord)
            unproven := by simpa [Snapshot.needsProbe] using hneeds
            ambiguous := hambiguous
            idTags := hrows
            bootstrap := hbootstrap
            answer := hanswer }

def writes (actions : List Action) : List Write :=
  actions.filterMap fun
    | .execute write => some write
    | _ => none

section Parts

variable {inputs : Inputs} {snap : Snapshot} {firmware : String} {status : LocalListStatus}

theorem writes_sendPlan {bootstrap : Option BootstrapOutcome} {entries : List AuthorizationData}
    (hdisabled : inputs.disabled = false) (hlegacy : snap.legacySchema = false) (hbootstrap : bootstrap ≠ some .unknown)
    (hentries : entries.length ≤ localListMaxEntries) (hanswer : inputs.sendLocalList = some status)
    (hstatus : status = .failed ∨ status = .notSupported) :
    writes (sendPlan inputs snap (some firmware) false bootstrap entries).actions =
      [.recordProbeOutcome false (some firmware) (some (.answered status))] := by
  have hlocal := refusesLocally_eq_false hdisabled inputs.vendor hentries
  have hcall : sendLocalListWithError inputs.disabled inputs.vendor entries inputs.sendLocalList =
      .returned status false := by
    unfold sendLocalListWithError
    rw [hlocal, hanswer]
    rfl
  have hcache : cacheNegative snap (some firmware) false bootstrap entries (.returned status false) = true := by
    rcases hstatus with rfl | rfl
    · simp [cacheNegative, hlegacy, hentries, hbootstrap, Call.status, Call.faulty]
    · simp [cacheNegative, hlegacy, hentries, Call.status]
  rw [sendPlan_actions, hlocal, hcall, resultWrite, if_pos hcache]
  rfl

theorem writes_listPlan {rows : List String} (hdisabled : inputs.disabled = false) (hlegacy : snap.legacySchema = false)
    (hrows : inputs.idTags = some rows) (hlength : rows.length ≤ localListMaxEntries)
    (hbootstrap : snap.version = 0 →
      bootstrapLocalAuthConfig (inputs.localAuthListEnabled.map changeConfigurationWithError) = .success)
    (hanswer : inputs.sendLocalList = some status) (hstatus : status = .failed ∨ status = .notSupported) :
    writes (listPlan inputs snap (some firmware) false).actions =
      [.recordProbeOutcome false (some firmware) (some (.answered status))] := by
  have hentries : (formatEntries rows).length ≤ localListMaxEntries := by simpa [formatEntries] using hlength
  unfold listPlan
  rw [hrows]
  unfold bootstrapPlan
  dsimp only
  split
  · rename_i hzero
    rw [hbootstrap hzero]
    exact writes_sendPlan hdisabled hlegacy (by simp) hentries hanswer hstatus
  · exact writes_sendPlan hdisabled hlegacy (by simp) hentries hanswer hstatus

end Parts

/-- **A refusal is recorded** as one of the firmware, unless the row holds a positive record. -/
theorem writes_of_refusedBy {inputs : Inputs} {row : Station} {firmware : String} (h : RefusedBy inputs row)
    (hfw : normalizeFirmware inputs.firmwareVersion = some firmware) (hpositive : row.localListSupported ≠ some true) :
    ∃ lastStatus, writes (syncCharger inputs row).actions =
      [.recordProbeOutcome false (some firmware) lastStatus] := by
  obtain ⟨rows, hrows, hlength⟩ := h.idTags
  have hknown : (Snapshot.mk false row.localListVersion row.localListSupported
      (normalizeFirmware row.localListProbedFirmware)).knownUnsupported (some firmware) = false := by
    refine decide_eq_false ?_
    rw [← hfw]
    exact h.unknown
  have hneeds : (Snapshot.mk false row.localListVersion row.localListSupported
      (normalizeFirmware row.localListProbedFirmware)).needsProbe (some firmware) = true := by
    have hunproven := h.unproven
    rw [hfw] at hunproven
    simpa [Snapshot.needsProbe] using hunproven
  simp only [syncCharger, h.enabled, h.read, fetchStation, hfw, hknown, Bool.false_eq_true, if_false]
  unfold probePlan
  dsimp only
  rw [if_pos hneeds, h.ambiguous, decide_eq_false hpositive]
  rcases h.answer with hanswer | hanswer
  · exact ⟨_, writes_listPlan h.enabled rfl hrows hlength h.bootstrap hanswer (.inl rfl)⟩
  · exact ⟨_, writes_listPlan h.enabled rfl hrows hlength h.bootstrap hanswer (.inr rfl)⟩

/-! ## Runs -/

/-- A run of the sync: what it reads and is answered, which of its writes fail (by their place among its actions), and
after how many actions it is cancelled, if it is. -/
structure Sync where
  inputs : Inputs
  fails : ℕ → Bool := fun _ => false
  cancelledAfter : Option ℕ := none

def Sync.performed (sync : Sync) (row : Station) : List Action :=
  match sync.cancelledAfter with
  | none => (syncCharger sync.inputs row).actions
  | some n => (syncCharger sync.inputs row).actions.take n

def perform (fails : ℕ → Bool) : ℕ → Station → List Action → Station
  | _, row, [] => row
  | i, row, .execute write :: actions => perform fails (i + 1) (if fails i then row else row.write write) actions
  | i, row, _ :: actions => perform fails (i + 1) row actions

/-- The station, with the firmwares on which the charger refused the list at the last sync after an ambiguous probe. -/
structure State where
  row : Station := {}
  refused : List String := []

def step (s : State) (sync : Sync) : State where
  row := perform sync.fails 0 s.row (sync.performed s.row)
  refused :=
    match normalizeFirmware sync.inputs.firmwareVersion with
    | none => s.refused
    | some firmware =>
      let others := s.refused.filter fun f => decide (f ≠ firmware)
      if Refused (sync.performed s.row) then firmware :: others else others

/-- **The record is one of its firmware**: a negative record is written for the firmware that the charger runs, after
an answer that it has given; on a firmware the sync goes as if there were no record of another one; and where the
charger has refused the list after an ambiguous probe, the next sync on that firmware ends before a request. -/
structure PerFirmware (s : State) (sync : Sync) : Prop where
  backed : Backed (normalizeFirmware sync.inputs.firmwareVersion) (sync.performed s.row)
  independent : ∀ firmware, normalizeFirmware sync.inputs.firmwareVersion = some firmware →
    normalizeFirmware s.row.localListProbedFirmware ≠ some firmware →
      syncCharger sync.inputs s.row = syncCharger sync.inputs (forget s.row)
  shortCircuited : ∀ firmware ∈ s.refused, normalizeFirmware sync.inputs.firmwareVersion = some firmware →
    (syncCharger sync.inputs s.row).actions = [] ∧ (syncCharger sync.inputs s.row).result.status = .skipped

def Reads (inputs : Inputs) : Prop := inputs.disabled = false ∧ (inputs.read = .current ∨ inputs.read = .legacy)

instance (inputs : Inputs) : Decidable (Reads inputs) :=
  inferInstanceAs (Decidable (inputs.disabled = false ∧ (inputs.read = .current ∨ inputs.read = .legacy)))

/-- Where that is so.  A positive record that is read is one of the firmware that the charger runs; a refusal is
recorded; and when its firmware is next synced, the row has the columns of the record and still holds a record of that
firmware. -/
structure MeetsRecord (s : State) (sync : Sync) : Prop where
  positive : sync.inputs.disabled = false → sync.inputs.read = .current → s.row.localListSupported = some true →
    ∀ firmware, normalizeFirmware sync.inputs.firmwareVersion = some firmware →
      normalizeFirmware s.row.localListProbedFirmware = some firmware
  recorded : ∀ firmware, normalizeFirmware sync.inputs.firmwareVersion = some firmware →
    RefusedBy sync.inputs s.row → sync.cancelledAfter = none ∧ ∀ i, sync.fails i = false
  kept : ∀ firmware ∈ s.refused, normalizeFirmware sync.inputs.firmwareVersion = some firmware → Reads sync.inputs →
    sync.inputs.read = .current ∧ normalizeFirmware s.row.localListProbedFirmware = some firmware

theorem perform_induction {P : Station → Prop} {fails : ℕ → Bool} {actions : List Action}
    (hwrite : ∀ w ∈ writes actions, ∀ row, P row → P (row.write w)) {i : ℕ} {row : Station} (hrow : P row) :
    P (perform fails i row actions) := by
  induction actions generalizing i row with
  | nil => exact hrow
  | cons a actions ih =>
    cases a with
    | execute w =>
      have hrest : ∀ w' ∈ writes actions, ∀ row, P row → P (row.write w') := fun w' hw' =>
        hwrite w' (List.mem_cons_of_mem w hw')
      refine ih hrest ?_
      split
      · exact hrow
      · exact hwrite w List.mem_cons_self row hrow
    | getConfiguration reply => exact ih hwrite hrow
    | changeConfiguration reply => exact ih hwrite hrow
    | sendLocalList version entries reply => exact ih hwrite hrow

theorem perform_of_works {fails : ℕ → Bool} (hworks : ∀ i, fails i = false) (actions : List Action) (i : ℕ)
    (row : Station) : perform fails i row actions = (writes actions).foldl Station.write row := by
  induction actions generalizing i row with
  | nil => rfl
  | cons a actions ih =>
    cases a with
    | execute w =>
      show perform fails (i + 1) (if fails i then row else row.write w) actions = _
      rw [hworks i, ih]
      rfl
    | getConfiguration reply => exact ih (i + 1) row
    | changeConfiguration reply => exact ih (i + 1) row
    | sendLocalList version entries reply => exact ih (i + 1) row

theorem mem_of_mem_writes {w : Write} {actions : List Action} (h : w ∈ writes actions) :
    Action.execute w ∈ actions := by
  obtain ⟨a, ha, haw⟩ := List.mem_filterMap.mp h
  cases a with
  | execute w' =>
    obtain rfl : w' = w := Option.some.inj haw
    exact ha
  | getConfiguration reply => cases haw
  | changeConfiguration reply => cases haw
  | sendLocalList version entries reply => cases haw

theorem backed_performed (sync : Sync) (row : Station) :
    Backed (normalizeFirmware sync.inputs.firmwareVersion) (sync.performed row) := by
  unfold Sync.performed
  split
  · exact backed_syncCharger sync.inputs row
  · exact (backed_syncCharger sync.inputs row).take _

theorem record_perform (fails : ℕ → Bool) (sync : Sync) (row : Station) :
    (perform fails 0 row (sync.performed row)).localListProbedFirmware =
        normalizeFirmware sync.inputs.firmwareVersion ∨
      (perform fails 0 row (sync.performed row)).localListProbedFirmware = row.localListProbedFirmware ∧
        (perform fails 0 row (sync.performed row)).localListSupported = row.localListSupported := by
  refine perform_induction (P := fun row' : Station =>
    row'.localListProbedFirmware = normalizeFirmware sync.inputs.firmwareVersion ∨
      row'.localListProbedFirmware = row.localListProbedFirmware ∧
        row'.localListSupported = row.localListSupported) ?_ (.inr ⟨rfl, rfl⟩)
  intro w hw row' hrow'
  cases w with
  | recordProbeOutcome supported firmware lastStatus =>
    obtain ⟨i, hi⟩ := List.mem_iff_getElem?.mp (mem_of_mem_writes hw)
    exact .inl (backed_performed sync row i supported firmware lastStatus hi).1
  | stampStatus status => exact hrow'
  | storeVersion version status => exact hrow'

theorem Refused.of_performed {sync : Sync} {row : Station} (h : Refused (sync.performed row)) :
    Refused (syncCharger sync.inputs row).actions := by
  unfold Sync.performed at h
  split at h
  · exact h
  · rename_i n _
    have hany : ∀ p : Action → Bool, ((syncCharger sync.inputs row).actions.take n).any p = true →
        (syncCharger sync.inputs row).actions.any p = true := by
      intro p hp
      obtain ⟨a, ha, hpa⟩ := List.any_eq_true.mp hp
      exact List.any_eq_true.mpr ⟨a, List.mem_of_mem_take ha, hpa⟩
    exact ⟨hany _ h.1, hany _ h.2⟩

/-! ## Along every run -/

def Remembers (s : State) : Prop :=
  ∀ firmware ∈ s.refused, normalizeFirmware s.row.localListProbedFirmware = some firmware →
    s.row.localListSupported = some false

theorem row_of_refused {s : State} {sync : Sync} {firmware : String} (hmeets : MeetsRecord s sync)
    (hfw : normalizeFirmware sync.inputs.firmwareVersion = some firmware) (h : Refused (sync.performed s.row)) :
    (step s sync).row.localListSupported = some false := by
  have hby := refusedBy_of_refused h.of_performed
  obtain ⟨hcancelled, hworks⟩ := hmeets.recorded firmware hfw hby
  have hpositive : s.row.localListSupported ≠ some true := by
    intro htrue
    rcases hby.unproven with hnone | hother
    · rw [hnone] at htrue
      cases htrue
    · rw [hfw] at hother
      exact hother (hmeets.positive hby.enabled hby.read htrue firmware hfw)
  obtain ⟨lastStatus, hwrites⟩ := writes_of_refusedBy hby hfw hpositive
  show (perform sync.fails 0 s.row (sync.performed s.row)).localListSupported = some false
  rw [Sync.performed, hcancelled, perform_of_works hworks, hwrites]
  rfl

theorem remembers_step {s : State} {sync : Sync} (hmeets : MeetsRecord s sync) (h : Remembers s) :
    Remembers (step s sync) := by
  intro firmware hfirmware hprobed
  cases hfw : normalizeFirmware sync.inputs.firmwareVersion with
  | none =>
    have hold : firmware ∈ s.refused := by
      simpa [step, hfw] using hfirmware
    rcases record_perform sync.fails sync s.row with hown | ⟨hsame, hsupported⟩
    · rw [step, hown, hfw] at hprobed
      cases hprobed
    · exact hsupported.trans (h firmware hold (hsame ▸ hprobed))
  | some current =>
    by_cases hcurrent : firmware = current
    · subst hcurrent
      refine row_of_refused hmeets hfw ?_
      by_contra hnot
      simp [step, hfw, hnot] at hfirmware
    · have hold : firmware ∈ s.refused := by
        simp only [step, hfw] at hfirmware
        split at hfirmware
        · rcases List.mem_cons.mp hfirmware with heq | hmem
          · exact absurd heq hcurrent
          · exact (List.mem_filter.mp hmem).1
        · exact (List.mem_filter.mp hfirmware).1
      rcases record_perform sync.fails sync s.row with hown | ⟨hsame, hsupported⟩
      · have hprobed' := hprobed
        rw [step, hown, normalizeFirmware_normalizeFirmware, hfw] at hprobed'
        exact absurd (Option.some.inj hprobed').symm hcurrent
      · exact hsupported.trans (h firmware hold (hsame ▸ hprobed))

theorem skipped_of_record {inputs : Inputs} {row : Station} {firmware : String}
    (hfw : normalizeFirmware inputs.firmwareVersion = some firmware)
    (hrecord : Reads inputs → inputs.read = .current ∧ row.localListSupported = some false ∧
      normalizeFirmware row.localListProbedFirmware = some firmware) :
    (syncCharger inputs row).actions = [] ∧ (syncCharger inputs row).result.status = .skipped := by
  unfold syncCharger
  cases hdisabled : inputs.disabled with
  | true => exact ⟨rfl, rfl⟩
  | false =>
    cases hread : inputs.read with
    | failed => exact ⟨rfl, rfl⟩
    | missing => exact ⟨rfl, rfl⟩
    | legacy =>
      have hcurrent := (hrecord ⟨hdisabled, .inr hread⟩).1
      rw [hread] at hcurrent
      cases hcurrent
    | current =>
      obtain ⟨-, hsupported, hprobed⟩ := hrecord ⟨hdisabled, .inl hread⟩
      simp [fetchStation, Snapshot.knownUnsupported, hsupported, hprobed, hfw, Plan.skip]

theorem perFirmware_of_meetsRecord {s : State} {sync : Sync} (hmeets : MeetsRecord s sync) (h : Remembers s) :
    PerFirmware s sync := by
  refine ⟨backed_performed sync s.row, ?_, ?_⟩
  · intro firmware hfw hother
    refine syncCharger_forget hfw hother ?_
    intro hdisabled hread htrue
    exact hother (hmeets.positive hdisabled hread htrue firmware hfw)
  · intro firmware hrefused hfw
    refine skipped_of_record hfw fun hreads => ?_
    obtain ⟨hcurrent, hprobed⟩ := hmeets.kept firmware hrefused hfw hreads
    exact ⟨hcurrent, h firmware hrefused hprobed, hprobed⟩

/-- **Every run.**  Where no positive record of another firmware is read, and the record of a refusal is written and
kept, the record is one of its firmware at every sync. -/
theorem perFirmware_along (row : Station) (syncs : List Sync)
    (h : Run.Along step MeetsRecord { row := row } syncs) : Run.Along step PerFirmware { row := row } syncs := by
  have hstep : ∀ s sync, MeetsRecord s sync → Remembers s → PerFirmware s sync ∧ Remembers (step s sync) :=
    fun _ _ hmeets hs => ⟨perFirmware_of_meetsRecord hmeets hs, remembers_step hmeets hs⟩
  exact h.imp hstep (by simp [Remembers])

/-- The list is refused on one firmware, and after an upgrade on the next one, whose next sync is skipped. -/
theorem perFirmware_along_upgrade :
    Run.Along step MeetsRecord {}
        [⟨{ firmwareVersion := some "V1.8.32", sendLocalList := some .failed }, fun _ => false, none⟩,
          ⟨{ firmwareVersion := some "V1.8.36 ", sendLocalList := some .notSupported }, fun _ => false, none⟩,
          ⟨{ firmwareVersion := some "V1.8.36" }, fun _ => false, none⟩] ∧
      Run.Along step PerFirmware {}
        [⟨{ firmwareVersion := some "V1.8.32", sendLocalList := some .failed }, fun _ => false, none⟩,
          ⟨{ firmwareVersion := some "V1.8.36 ", sendLocalList := some .notSupported }, fun _ => false, none⟩,
          ⟨{ firmwareVersion := some "V1.8.36" }, fun _ => false, none⟩] := by
  have hmeets : Run.Along step MeetsRecord {}
      [⟨{ firmwareVersion := some "V1.8.32", sendLocalList := some .failed }, fun _ => false, none⟩,
        ⟨{ firmwareVersion := some "V1.8.36 ", sendLocalList := some .notSupported }, fun _ => false, none⟩,
        ⟨{ firmwareVersion := some "V1.8.36" }, fun _ => false, none⟩] := by
    refine ⟨⟨?_, fun _ _ _ => ⟨rfl, fun _ => rfl⟩, ?_⟩, ⟨?_, fun _ _ _ => ⟨rfl, fun _ => rfl⟩, ?_⟩,
      ⟨?_, fun _ _ _ => ⟨rfl, fun _ => rfl⟩, ?_⟩, trivial⟩
    · exact fun _ _ h => absurd h (by decide +kernel)
    · decide +kernel
    · exact fun _ _ h => absurd h (by decide +kernel)
    · decide +kernel
    · exact fun _ _ h => absurd h (by decide +kernel)
    · decide +kernel
  exact ⟨hmeets, perFirmware_along {} _ hmeets⟩

/-- Support is recorded for the firmware A.  On B the probe is ambiguous and the charger answers Failed, which is not
recorded: the record of A counts as evidence of support.  The next sync on B talks to the charger again. -/
theorem not_perFirmware_after_positive_record :
    ¬ Run.Along step PerFirmware {}
      ([⟨{ firmwareVersion := some "A"
           configuration := some [⟨some "SupportedFeatureProfiles", some "Core,LocalAuthListManagement"⟩] },
          fun _ => false, none⟩,
        ⟨{ firmwareVersion := some "B", configuration := some [], sendLocalList := some .failed },
          fun _ => false, none⟩] ++
        [⟨{ firmwareVersion := some "B", configuration := some [], sendLocalList := some .failed },
          fun _ => false, none⟩]) := by
  intro h
  have hskipped := h.last.shortCircuited "B" (by decide +kernel) (by decide +kernel)
  revert hskipped
  decide +kernel

end FavoniusBackend.Ocpp.SupportCache
