import FavoniusBackend.Lib.Text

/-!
# The sync of the local authorization list

`sync_charger` reads the station's row once and then talks to the charger: it may ask whether the charger supports
local lists (`_probe_local_auth_support`), on the first sync it sets `LocalAuthListEnabled`
(`_bootstrap_local_auth_config`), and it sends the list.  What it learns it writes to the row.  The writes may fail,
and the sync goes on as if they had not.

What a sync does is therefore a function of the row it has read and of the charger's replies: the list of its
requests and writes in their order, and its result (`syncCharger`).
-/

namespace FavoniusBackend.Ocpp.LocalAuthSync

open Lib

inductive LocalListStatus
  | accepted
  | failed
  | notSupported
  | versionMismatch
  deriving DecidableEq, Repr

inductive ConfigurationStatus
  | accepted
  | rejected
  | rebootRequired
  | notSupported
  deriving DecidableEq, Repr

/-- `SyncResult.status`, which is also what `local_list_last_status` holds. -/
inductive SyncStatus
  | skipped
  | unsupportedFeatureProfile
  | unsupportedFromBootstrap
  | unknownFromBootstrap
  | answered (status : LocalListStatus)
  deriving DecidableEq, Repr

/-- `SyncResult.reason`. -/
inductive SyncReason
  | envDisabled
  | dbError
  | unknownStation
  | unsupportedCached
  | probeNegative
  | bootstrapUnsupported
  | bootstrapUnknown
  deriving DecidableEq, Repr

structure SyncResult where
  status : SyncStatus
  version : ℕ
  entries : ℕ
  reason : Option SyncReason := none
  deriving DecidableEq, Repr

/-! ### The station's row -/

/-- The columns of `charging_stations` that the sync reads and writes. -/
structure Station where
  localListVersion : ℕ := 0
  localListSupported : Option Bool := none
  localListProbedFirmware : Option String := none
  localListLastStatus : Option SyncStatus := none
  deriving DecidableEq, Repr

/-- The statements with which the sync writes to the row. -/
inductive Write
  | recordProbeOutcome (supported : Bool) (firmware : Option String) (lastStatus : Option SyncStatus)
  | stampStatus (status : SyncStatus)
  | storeVersion (version : ℕ) (status : SyncStatus)
  deriving DecidableEq, Repr

def Station.write (row : Station) : Write → Station
  | .recordProbeOutcome supported firmware lastStatus =>
    { row with
      localListSupported := some supported
      localListProbedFirmware := firmware
      localListLastStatus := lastStatus.or row.localListLastStatus }
  | .stampStatus status => { row with localListLastStatus := some status }
  | .storeVersion version status => { row with localListVersion := version, localListLastStatus := some status }

def normalizeFirmware (firmware : Option String) : Option String :=
  firmware.bind fun text =>
    let stripped := Text.strip text.toList
    if stripped = [] then none else some (String.ofList stripped)

/-- What the sync has read. -/
structure Snapshot where
  legacySchema : Bool
  version : ℕ
  supported : Option Bool
  probedFirmware : Option String
  deriving DecidableEq, Repr

/-- How the database answers the query for the row: with the columns of the probe, with an error that says that it has
none of them, with another error (or one in the second query), or that there is no such station. -/
inductive StationRead
  | current
  | legacy
  | failed
  | missing
  deriving DecidableEq, Repr

def fetchStation (row : Station) : StationRead → Except SyncReason Snapshot
  | .current => .ok ⟨false, row.localListVersion, row.localListSupported, normalizeFirmware row.localListProbedFirmware⟩
  | .legacy => .ok ⟨true, row.localListVersion, none, none⟩
  | .failed => .error .dbError
  | .missing => .error .unknownStation

/-! ### The probe -/

/-- An entry of the answer to GetConfiguration. -/
structure ConfigurationKey where
  key : Option String
  value : Option String := none
  deriving DecidableEq, Repr

def lastEntry (name : String) (entries : List ConfigurationKey) : Option ConfigurationKey :=
  (entries.filter fun entry => decide (Text.lower (entry.key.getD "").toList = name.toList)).getLast?

/-- `_probe_local_auth_support`.  `FleetChargePoint.get_configuration` gives an empty answer on an error. -/
def probeLocalAuthSupport (reply : Option (List ConfigurationKey)) : Option Bool :=
  let configurationKey := reply.getD []
  match lastEntry "supportedfeatureprofiles" configurationKey with
  | some entry =>
    let profiles := (((entry.value.getD "").toList.splitOn ',').map Text.strip).filter fun p => !p.isEmpty
    some (decide ("localauthlistmanagement".toList ∈ profiles.map Text.lower))
  | none =>
    match lastEntry "localauthlistmaxlength" configurationKey with
    | some entry => (Text.int (entry.value.getD "").toList).map fun maxLength => decide (0 < maxLength)
    | none => none

/-! ### The charge point -/

/-- A call of the charge point returns a status, with a flag for a transport error, or raises. -/
inductive Call (σ : Type)
  | returned (status : σ) (transportError : Bool)
  | raised
  deriving DecidableEq, Repr

def changeConfigurationWithError : Option ConfigurationStatus → Call ConfigurationStatus
  | some status => .returned status false
  | none => .returned .rejected true

/-- An entry of the list that is sent. -/
structure AuthorizationData where
  idTag : String
  status : String
  deriving DecidableEq, Repr

def formatEntries (rows : List String) : List AuthorizationData := rows.map fun idTag => ⟨idTag, "Accepted"⟩

def localListMaxEntries : ℕ := 16

def isAbbVendor (vendor : String) : Bool :=
  let stripped := Text.strip vendor.toList
  if stripped = [] then false
  else
    decide (['a', 'b', 'b'] ∈ (Text.lower stripped).splitOnP fun c =>
      !decide ('a' ≤ c ∧ c ≤ 'z' ∨ '0' ≤ c ∧ c ≤ '9'))

def isAbbOrUnknownVendor (vendor : Option String) : Bool :=
  match vendor with
  | none => true
  | some text => if Text.strip text.toList = [] then true else isAbbVendor text

/-- `FleetChargePoint.send_local_list_with_error` answers without the charger. -/
def refusesLocally (disabled : Bool) (vendor : Option String) (entries : List AuthorizationData) : Bool :=
  disabled || isAbbOrUnknownVendor vendor && decide (localListMaxEntries < entries.length)

def sendLocalListWithError (disabled : Bool) (vendor : Option String) (entries : List AuthorizationData)
    (reply : Option LocalListStatus) : Call LocalListStatus :=
  if refusesLocally disabled vendor entries then .returned .notSupported false
  else
    match reply with
    | some status => .returned status false
    | none => .returned .failed true

/-! ### The parts of the sync -/

inductive BootstrapOutcome
  | success
  | unsupported
  | unknown
  deriving DecidableEq, Repr

/-- `_bootstrap_local_auth_config`: what the call for `LocalAuthListEnabled` gives, `none` if it takes more than ten
seconds.  The answers for the other keys are only logged. -/
def bootstrapLocalAuthConfig : Option (Call ConfigurationStatus) → BootstrapOutcome
  | none => .unknown
  | some .raised => .unsupported
  | some (.returned status transportError) =>
    if status = .accepted ∨ status = .rebootRequired then .success
    else if transportError then .unknown
    else .unsupported

/-- What happens in a sync: a request to the charger with its reply (`none` for an error, and for LocalAuthListEnabled
an outer `none` for no answer in time), or a write. -/
inductive Action
  | getConfiguration (reply : Option (List ConfigurationKey))
  | changeConfiguration (reply : Option (Option ConfigurationStatus))
  | sendLocalList (version : ℕ) (entries : List AuthorizationData) (reply : Option LocalListStatus)
  | execute (write : Write)
  deriving DecidableEq, Repr

structure Plan where
  actions : List Action
  result : SyncResult
  deriving DecidableEq, Repr

def Plan.after (first : List Action) (p : Plan) : Plan := { p with actions := first ++ p.actions }

/-- A sync that ends without a request to the charger. -/
def Plan.skip (version : ℕ) (reason : SyncReason) : Plan := ⟨[], ⟨.skipped, version, 0, some reason⟩⟩

/-- What a sync depends on, apart from the row: the setting, the answers of the database, the vendor and the firmware
that the charger has named, and its replies. -/
structure Inputs where
  disabled : Bool := false
  read : StationRead := .current
  vendor : Option String := some "ABB"
  firmwareVersion : Option String
  configuration : Option (List ConfigurationKey) := none
  idTags : Option (List String) := some []
  localAuthListEnabled : Option (Option ConfigurationStatus) := some (some .accepted)
  sendLocalList : Option LocalListStatus := some .accepted
  deriving DecidableEq, Repr

def Call.status : Call LocalListStatus → LocalListStatus
  | .returned status _ => status
  | .raised => .failed

def Call.faulty : Call LocalListStatus → Bool
  | .returned _ transportError => transportError
  | .raised => true

def cacheNegative (snap : Snapshot) (currentFw : Option String) (probePositive : Bool)
    (bootstrap : Option BootstrapOutcome) (entries : List AuthorizationData) (call : Call LocalListStatus) : Bool :=
  !snap.legacySchema && currentFw.isSome && decide (entries.length ≤ localListMaxEntries) &&
    (decide (call.status = .notSupported) ||
      decide (call.status = .failed) && decide (bootstrap ≠ some .unknown) && !probePositive && !call.faulty)

def resultWrite (snap : Snapshot) (currentFw : Option String) (probePositive : Bool)
    (bootstrap : Option BootstrapOutcome) (entries : List AuthorizationData) (call : Call LocalListStatus) : Write :=
  if cacheNegative snap currentFw probePositive bootstrap entries call then
    .recordProbeOutcome false currentFw (some (.answered call.status))
  else if call.status = .accepted then .storeVersion (snap.version + 1) (.answered call.status)
  else .stampStatus (.answered call.status)

def sendPlan (inputs : Inputs) (snap : Snapshot) (currentFw : Option String) (probePositive : Bool)
    (bootstrap : Option BootstrapOutcome) (entries : List AuthorizationData) : Plan :=
  let newVersion := snap.version + 1
  let call := sendLocalListWithError inputs.disabled inputs.vendor entries inputs.sendLocalList
  let sent :=
    if refusesLocally inputs.disabled inputs.vendor entries then []
    else [Action.sendLocalList newVersion entries inputs.sendLocalList]
  { actions := sent ++ [Action.execute (resultWrite snap currentFw probePositive bootstrap entries call)]
    result :=
      { status := .answered call.status
        version := if call.status = .accepted then newVersion else snap.version
        entries := entries.length } }

def bootstrapWrite (snap : Snapshot) (currentFw : Option String) (probePositive : Bool) (outcome : BootstrapOutcome)
    (status : SyncStatus) : List Action :=
  if outcome = .unsupported ∧ !probePositive ∧ !snap.legacySchema ∧ currentFw.isSome then
    [Action.execute (.recordProbeOutcome false currentFw (some status))]
  else if !probePositive then [Action.execute (.stampStatus status)]
  else []

def bootstrapPlan (inputs : Inputs) (snap : Snapshot) (currentFw : Option String) (probePositive : Bool)
    (entries : List AuthorizationData) : Plan :=
  if snap.version = 0 then
    let asked := Action.changeConfiguration inputs.localAuthListEnabled
    let outcome := bootstrapLocalAuthConfig (inputs.localAuthListEnabled.map changeConfigurationWithError)
    match outcome with
    | .success => (sendPlan inputs snap currentFw probePositive (some outcome) entries).after [asked]
    | .unsupported =>
      ⟨asked :: bootstrapWrite snap currentFw probePositive outcome .unsupportedFromBootstrap,
        ⟨.unsupportedFromBootstrap, snap.version, entries.length, some .bootstrapUnsupported⟩⟩
    | .unknown =>
      ⟨asked :: bootstrapWrite snap currentFw probePositive outcome .unknownFromBootstrap,
        ⟨.unknownFromBootstrap, snap.version, entries.length, some .bootstrapUnknown⟩⟩
  else sendPlan inputs snap currentFw probePositive none entries

def listPlan (inputs : Inputs) (snap : Snapshot) (currentFw : Option String) (probePositive : Bool) : Plan :=
  match inputs.idTags with
  | none => Plan.skip snap.version .dbError
  | some rows => bootstrapPlan inputs snap currentFw probePositive (formatEntries rows)

def Snapshot.needsProbe (snap : Snapshot) (currentFw : Option String) : Bool :=
  !snap.legacySchema && (decide (snap.supported = none) || decide (snap.probedFirmware ≠ currentFw))

/-- The sync from the probe on.  A positive record counts as evidence of support whichever firmware it is for. -/
def probePlan (inputs : Inputs) (snap : Snapshot) (currentFw : Option String) : Plan :=
  let probePositive := decide (snap.supported = some true)
  if snap.needsProbe currentFw then
    let asked := Action.getConfiguration inputs.configuration
    match probeLocalAuthSupport inputs.configuration with
    | some false =>
      { actions := asked ::
          if currentFw.isSome then
            [Action.execute (.recordProbeOutcome false currentFw (some .unsupportedFeatureProfile))]
          else []
        result := ⟨.unsupportedFeatureProfile, snap.version, 0, some .probeNegative⟩ }
    | some true =>
      if snap.supported ≠ some true then
        (listPlan inputs snap currentFw true).after
          [asked, Action.execute (.recordProbeOutcome true currentFw none)]
      else (listPlan inputs snap currentFw probePositive).after [asked]
    | none => (listPlan inputs snap currentFw probePositive).after [asked]
  else listPlan inputs snap currentFw probePositive

def Snapshot.knownUnsupported (snap : Snapshot) (currentFw : Option String) : Bool :=
  decide (snap.supported = some false ∧ snap.probedFirmware = currentFw)

def syncCharger (inputs : Inputs) (row : Station) : Plan :=
  if inputs.disabled then Plan.skip 0 .envDisabled
  else
    match fetchStation row inputs.read with
    | .error reason => Plan.skip 0 reason
    | .ok snap =>
      let currentFw := normalizeFirmware inputs.firmwareVersion
      if snap.knownUnsupported currentFw then Plan.skip snap.version .unsupportedCached
      else probePlan inputs snap currentFw

/-! ## What holds of the parts -/

theorem normalizeFirmware_some (text : String) :
    normalizeFirmware (some text) =
      if Text.strip text.toList = [] then none else some (String.ofList (Text.strip text.toList)) := rfl

theorem normalizeFirmware_normalizeFirmware (firmware : Option String) :
    normalizeFirmware (normalizeFirmware firmware) = normalizeFirmware firmware := by
  cases firmware with
  | none => rfl
  | some text =>
    rw [normalizeFirmware_some]
    split
    · rfl
    · rename_i hne
      rw [normalizeFirmware_some, String.toList_ofList, Text.strip_strip, if_neg hne]

theorem sendPlan_actions (inputs : Inputs) (snap : Snapshot) (currentFw : Option String) (probePositive : Bool)
    (bootstrap : Option BootstrapOutcome) (entries : List AuthorizationData) :
    (sendPlan inputs snap currentFw probePositive bootstrap entries).actions =
      (if refusesLocally inputs.disabled inputs.vendor entries then []
        else [Action.sendLocalList (snap.version + 1) entries inputs.sendLocalList]) ++
        [Action.execute (resultWrite snap currentFw probePositive bootstrap entries
          (sendLocalListWithError inputs.disabled inputs.vendor entries inputs.sendLocalList))] := rfl

theorem refusesLocally_eq_false {disabled : Bool} (hdisabled : disabled = false) (vendor : Option String)
    {entries : List AuthorizationData} (hentries : entries.length ≤ localListMaxEntries) :
    refusesLocally disabled vendor entries = false := by
  have hcap : decide (localListMaxEntries < entries.length) = false := decide_eq_false (not_lt.mpr hentries)
  rw [refusesLocally, hdisabled, hcap, Bool.and_false, Bool.false_or]

theorem resultWrite_eq_storeVersion {snap : Snapshot} {currentFw : Option String} {probePositive : Bool}
    {bootstrap : Option BootstrapOutcome} {entries : List AuthorizationData} {call : Call LocalListStatus} {version : ℕ}
    {status : SyncStatus}
    (h : resultWrite snap currentFw probePositive bootstrap entries call = .storeVersion version status) :
    version = snap.version + 1 ∧ call.status = .accepted := by
  unfold resultWrite at h
  split at h
  · cases h
  · split at h
    · rename_i haccepted
      injection h with hversion _
      exact ⟨hversion.symm, haccepted⟩
    · cases h

theorem sendLocalListWithError_accepted {disabled : Bool} {vendor : Option String} {entries : List AuthorizationData}
    {reply : Option LocalListStatus} (h : (sendLocalListWithError disabled vendor entries reply).status = .accepted) :
    refusesLocally disabled vendor entries = false ∧ reply = some .accepted := by
  unfold sendLocalListWithError at h
  split at h
  · cases h
  · rename_i hlocal
    refine ⟨by simpa using hlocal, ?_⟩
    cases reply with
    | none => cases h
    | some status => exact congrArg some h

/-- **When a negative record is made of the answer to the list**: it is the charger's own answer, to a list within the
cap, on a known firmware. -/
theorem cacheNegative_sendLocalList {snap : Snapshot} {currentFw : Option String} {probePositive : Bool}
    {bootstrap : Option BootstrapOutcome} {entries : List AuthorizationData} {disabled : Bool} {vendor : Option String}
    {reply : Option LocalListStatus} (hdisabled : disabled = false)
    (h : cacheNegative snap currentFw probePositive bootstrap entries
      (sendLocalListWithError disabled vendor entries reply) = true) :
    refusesLocally disabled vendor entries = false ∧ currentFw.isSome ∧
      (reply = some .failed ∨ reply = some .notSupported) := by
  rw [cacheNegative, Bool.and_eq_true, Bool.and_eq_true, Bool.and_eq_true, decide_eq_true_eq] at h
  obtain ⟨⟨⟨-, hfw⟩, hentries⟩, hstatus⟩ := h
  have hlocal := refusesLocally_eq_false hdisabled vendor hentries
  refine ⟨hlocal, hfw, ?_⟩
  unfold sendLocalListWithError at hstatus
  rw [hlocal] at hstatus
  cases reply with
  | none => simp [Call.status, Call.faulty] at hstatus
  | some status =>
    cases status with
    | failed => exact .inl rfl
    | notSupported => exact .inr rfl
    | accepted => simp [Call.status] at hstatus
    | versionMismatch => simp [Call.status] at hstatus

end FavoniusBackend.Ocpp.LocalAuthSync
