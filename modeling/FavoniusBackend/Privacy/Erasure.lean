import FavoniusBackend.Lib.DictViews
import FavoniusBackend.Lib.Sql
import FavoniusBackend.Lib.Statements

/-!
# Erasure of a customer's data

`handle_delete_customer_information_request` of `websocket_handler/privacy_manager.py` and the statements of
`websocket_handler/timescale_client.py` that it sends, each of which commits by itself and may raise.

The statements name a column `customer_id` of `transactions` and a column `id_token` of `transaction_events`.  The tables
of `ocpp_schema.py` have neither of the two; where a column is missing, a statement that names it raises.
-/

namespace FavoniusBackend.Privacy

open Lib
open Lib.Stateful
open Lib.Statements

/-! ## Tables -/

inductive DbError where
  | undefinedColumn (column : String)
  | uniqueViolation (constraint : String)
  | other (text : String)
  deriving DecidableEq, Repr

structure Transaction where
  stationId : String
  transactionId : String
  idToken : String
  customerId : Option String
  deriving DecidableEq

structure TransactionEvent where
  stationId : String
  transactionId : String
  idToken : Option String
  deriving DecidableEq

structure RetentionPolicy where
  policyId : String
  dataType : String
  deletionMethod : Option String

structure Consent where
  customerIdentifier : String
  consentType : String
  consentStatus : String
  consentDate : Option ℤ
  revocationDate : Option ℤ
  expiryDate : Option ℤ
  consentMethod : Option String
  consentSource : Option String
  legalBasis : Option String
  deriving DecidableEq

structure CustomerInformation where
  stationId : String
  customerCertificateId : Option String
  idToken : Option String
  customerIdentifier : Option String
  requestType : String
  status : String
  errorMessage : Option DbError

structure AnonymizationLog where
  customerIdentifier : String
  dataType : String
  anonymizationMethod : String
  retentionPolicyId : String

/-- The tables by their primary keys; the policies are in the order in which the database finds them. -/
structure Database where
  /-- Whether `transactions` has a column `customer_id`. -/
  hasCustomerId : Bool
  /-- Whether `transaction_events` has a column `id_token`. -/
  hasEventToken : Bool
  transactions : Dict ℕ Transaction
  transactionEvents : Dict ℕ TransactionEvent
  policies : List RetentionPolicy
  consents : Dict String Consent
  requests : Dict String CustomerInformation
  log : Dict String AnonymizationLog

/-- What the world does at each statement: whether it raises, the time and the ids that are drawn. -/
structure Env where
  raises : ℕ → Option DbError
  now : ℕ → ℤ
  uuid : ℕ → String

abbrev Query := Method (Session Database) DbError

/-! ## Statements -/

section Statements

variable (env : Env)

def read {α : Type} (f : Database → α) : Query α := statement env.raises fun _ db => .ok (f db, db)

def write (f : ℕ → Database → Except DbError Database) : Query Unit :=
  statement env.raises fun k db => (f k db).map fun db' => ((), db')

def storeCustomerInformationRequest (requestId : String) (request : CustomerInformation) : Query Unit :=
  write env fun _ db =>
    if requestId ∈ db.requests then .error (.uniqueViolation "customer_information_pkey")
    else .ok { db with requests := db.requests.set requestId request }

def updateCustomerInformationStatus (requestId status : String) (errorMessage : Option DbError) : Query Unit :=
  write env fun _ db => .ok { db with
    requests := db.requests.mapWithKey fun id request =>
      if id = requestId then { request with status := status, errorMessage := errorMessage } else request }

/-- `ORDER BY consent_date DESC`: what has no date comes first. -/
def latestFirst (a b : String × Consent) : Prop :=
  a.2.consentDate = none ∨ ∃ x ∈ a.2.consentDate, ∃ y ∈ b.2.consentDate, y ≤ x

instance : DecidableRel latestFirst := fun _ _ => inferInstanceAs (Decidable (_ ∨ _))

/-- `get_consent_records` for one type. -/
def getConsentRecords (customerIdentifier consentType : String) : Query (List (String × Consent)) :=
  read env fun db =>
    Sql.orderBy latestFirst
      (db.consents.items.filter fun p => p.2.customerIdentifier = customerIdentifier ∧ p.2.consentType = consentType)

/-- `store_consent_record`: an id that is taken keeps its row but for four columns. -/
def storeConsentRecord (consentId : String) (consent : Consent) : Query Unit :=
  write env fun _ db =>
    let row := match db.consents.get? consentId with
      | some old =>
        { old with
          consentStatus := consent.consentStatus
          revocationDate := consent.revocationDate
          expiryDate := consent.expiryDate }
      | none => consent
    .ok { db with consents := db.consents.set consentId row }

def storePiiAnonymizationLog (row : AnonymizationLog) : Query Unit :=
  write env fun k db =>
    if env.uuid k ∈ db.log then .error (.uniqueViolation "pii_anonymization_log_pkey")
    else .ok { db with log := db.log.set (env.uuid k) row }

def anonymized : String := "ANONYMIZED"

/-- `UPDATE transactions`: the token and the customer are overwritten. -/
def anonymizeTransaction (customerIdentifier : String) (t : Transaction) : Transaction :=
  if t.customerId = some customerIdentifier then { t with idToken := anonymized, customerId := some anonymized } else t

/-- `UPDATE transaction_events`: the token is compared with the customer. -/
def anonymizeEvent (customerIdentifier : String) (e : TransactionEvent) : TransactionEvent :=
  if e.idToken = some customerIdentifier then { e with idToken := some anonymized } else e

/-- A statement on `transactions` that names `customer_id`. -/
def onTransactions (f : Dict ℕ Transaction → Dict ℕ Transaction) : Query Unit :=
  write env fun _ db =>
    if db.hasCustomerId then .ok { db with transactions := f db.transactions }
    else .error (.undefinedColumn "customer_id")

/-- A statement on `transaction_events` that names `id_token`. -/
def onEvents (f : Dict ℕ TransactionEvent → Dict ℕ TransactionEvent) : Query Unit :=
  write env fun _ db =>
    if db.hasEventToken then .ok { db with transactionEvents := f db.transactionEvents }
    else .error (.undefinedColumn "id_token")

/-- The policy that `fetchrow` finds: the first of its data type. -/
def policyFor (db : Database) (dataType : String) : Option RetentionPolicy :=
  db.policies.find? fun p => p.dataType = dataType

def anonymizeCustomerData (customerIdentifier dataType : String) : Query Unit := do
  let policy ← read env fun db => policyFor db dataType
  match policy with
  | none => return ()
  | some policy =>
    if policy.deletionMethod = some "anonymize" then
      onTransactions env fun rows => rows.mapValues (anonymizeTransaction customerIdentifier)
      onEvents env fun rows => rows.mapValues (anonymizeEvent customerIdentifier)
      storePiiAnonymizationLog env ⟨customerIdentifier, dataType, "anonymize", policy.policyId⟩
    else if policy.deletionMethod = some "hard" then
      onTransactions env fun rows => rows.filter fun _ t => t.customerId ≠ some customerIdentifier
      onEvents env fun rows => rows.filter fun _ e => e.idToken ≠ some customerIdentifier
      storePiiAnonymizationLog env ⟨customerIdentifier, dataType, "delete", policy.policyId⟩
    else return ()

/-! ## Requests -/

/-- `ConsentType`. -/
def consentTypes : List String := ["data_processing", "marketing", "analytics", "third_party"]

def revokeConsent (customerIdentifier consentType : String) : Query Unit := do
  let records ← getConsentRecords env customerIdentifier consentType
  records.forM fun record =>
    if record.2.consentStatus = "granted" then do
      let revocationDate ← field fun s => env.now s.sent
      storeConsentRecord env record.1
        { customerIdentifier := customerIdentifier
          consentType := consentType
          consentStatus := "revoked"
          consentDate := record.2.consentDate
          revocationDate := some revocationDate
          expiryDate := record.2.expiryDate
          consentMethod := record.2.consentMethod
          consentSource := record.2.consentSource
          legalBasis := record.2.legalBasis }
    else return ()

/-- `_process_delete_customer_information_request`; an identifier that is empty is none. -/
def processDeleteCustomerInformationRequest (customerIdentifier : Option String) : Query Unit :=
  match customerIdentifier with
  | none => return ()
  | some customer =>
    if customer = "" then return ()
    else do
      anonymizeCustomerData env customer "transaction_data"
      consentTypes.forM fun consentType => revokeConsent env customer consentType

inductive Answer where
  | accepted
  | rejected (reasonCode : String) (additionalInfo : DbError)
  deriving DecidableEq

def handleDeleteCustomerInformationRequest (stationId : String) (requestId : ℤ)
    (customerCertificateId idToken customerIdentifier : Option String) : Query Answer :=
  recover
    (do
      storeCustomerInformationRequest env (toString requestId)
        { stationId := stationId
          customerCertificateId := customerCertificateId
          idToken := idToken
          customerIdentifier := customerIdentifier
          requestType := "DeleteCustomerInformation"
          status := "processing"
          errorMessage := none }
      processDeleteCustomerInformationRequest env customerIdentifier
      updateCustomerInformationStatus env (toString requestId) "completed" none
      return .accepted)
    fun e => do
      updateCustomerInformationStatus env (toString requestId) "failed" (some e)
      return .rejected "InternalError" e

end Statements

end FavoniusBackend.Privacy
