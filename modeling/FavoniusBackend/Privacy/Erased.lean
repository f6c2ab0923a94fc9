import FavoniusBackend.Privacy.Erasure

/-!
# What an accepted request erases

Each method has one lemma that says what it leaves when it returns.  What is left of the transactions and of their events
depends on the policy for `transaction_data`; of the consents, those that were granted for one of the four types are
revoked and no other row is touched (`Revokes`).

`erased_iff` then says when this is what the customer may expect (`Erased`): a condition on the rows and on the policy
(`Erasable`).
-/

namespace FavoniusBackend.Privacy

open Lib
open Lib.Stateful
open Lib.Statements

/-! ## What is meant -/

def TransactionEvent.BelongsTo (e : TransactionEvent) (t : Transaction) : Prop :=
  e.stationId = t.stationId ∧ e.transactionId = t.transactionId

/-- The identity of the customer is gone: no transaction carries it, no row of one of the customer's transactions carries
the token that it had, and what was granted is revoked. -/
structure Erased (customer : String) (before after : Database) : Prop where
  unnamed : ∀ id t, after.transactions.get? id = some t → t.customerId ≠ some customer
  transactions : ∀ id t t', before.transactions.get? id = some t → t.customerId = some customer →
    after.transactions.get? id = some t' → t'.idToken ≠ t.idToken
  events : ∀ id t, before.transactions.get? id = some t → t.customerId = some customer →
    ∀ eventId e e' token, before.transactionEvents.get? eventId = some e → e.BelongsTo t → e.idToken = some token →
      after.transactionEvents.get? eventId = some e' → e'.idToken ≠ some token
  consents : ∀ id r, before.consents.get? id = some r → r.customerIdentifier = customer → r.consentStatus = "granted" →
    ∃ r', after.consents.get? id = some r' ∧ r'.consentStatus = "revoked"

/-- How transactions are to be deleted, if there is a policy for them and it says so. -/
def deletionMethod (db : Database) : Option String :=
  (policyFor db "transaction_data").bind RetentionPolicy.deletionMethod

/-- What the code needs in order to erase: there is an identifier; where the customer has a transaction, the policy
deletes transactions or anonymizes them, and then neither the identifier nor the token is the placeholder already; every
token on an event of such a transaction is the identifier; what is granted is of one of the four types. -/
structure Erasable (customer : String) (db : Database) : Prop where
  transactions : ∀ id t, db.transactions.get? id = some t → t.customerId = some customer → customer ≠ "" ∧
    (deletionMethod db = some "hard" ∨
      deletionMethod db = some "anonymize" ∧ customer ≠ anonymized ∧ t.idToken ≠ anonymized)
  events : ∀ id t, db.transactions.get? id = some t → t.customerId = some customer →
    ∀ eventId e token, db.transactionEvents.get? eventId = some e → e.BelongsTo t → e.idToken = some token →
      token = customer
  consents : ∀ id r, db.consents.get? id = some r → r.customerIdentifier = customer → r.consentStatus = "granted" →
    customer ≠ "" ∧ r.consentType ∈ consentTypes

/-! ## What the statements leave -/

variable {env : Env}

theorem returns_read {α : Type} (f : Database → α) :
    Returns (read env f) fun db a db' => a = f db ∧ db' = db := by
  refine returns_statement fun k db a db' h => ?_
  cases h
  exact ⟨rfl, rfl⟩

theorem returns_write {f : ℕ → Database → Except DbError Database} {R : Database → Database → Prop}
    (h : ∀ k db db', f k db = .ok db' → R db db') : Returns (write env f) fun db _ db' => R db db' := by
  refine returns_statement fun k db a db' hrun => ?_
  cases hf : f k db with
  | ok db₁ =>
    rw [hf] at hrun
    obtain ⟨-, rfl⟩ := Prod.mk.inj (Except.ok.inj hrun)
    exact h k db _ hf
  | error e =>
    rw [hf] at hrun
    cases hrun

/-- The tables that hold what is erased are the same. -/
structure SameRows (db db' : Database) : Prop where
  transactions : db'.transactions = db.transactions
  events : db'.transactionEvents = db.transactionEvents
  consents : db'.consents = db.consents
  policies : db'.policies = db.policies
  customerId : db'.hasCustomerId = db.hasCustomerId
  eventToken : db'.hasEventToken = db.hasEventToken

theorem storeCustomerInformationRequest_returns (requestId : String) (request : CustomerInformation) :
    Returns (storeCustomerInformationRequest env requestId request) fun db _ db' => SameRows db db' := by
  refine returns_write fun k db db' h => ?_
  split at h
  · cases h
  · cases h
    exact ⟨rfl, rfl, rfl, rfl, rfl, rfl⟩

theorem updateCustomerInformationStatus_returns (requestId status : String) (errorMessage : Option DbError) :
    Returns (updateCustomerInformationStatus env requestId status errorMessage) fun db _ db' => SameRows db db' := by
  refine returns_write fun k db db' h => ?_
  cases h
  exact ⟨rfl, rfl, rfl, rfl, rfl, rfl⟩

theorem storePiiAnonymizationLog_returns (row : AnonymizationLog) :
    Returns (storePiiAnonymizationLog env row) fun db _ db' => SameRows db db' := by
  refine returns_write fun k db db' h => ?_
  split at h
  · cases h
  · cases h
    exact ⟨rfl, rfl, rfl, rfl, rfl, rfl⟩

/-! ## Transactions and their events -/

/-- A way of deleting that touches the rows of transactions. -/
def Erases (method : Option String) : Prop := method = some "anonymize" ∨ method = some "hard"

def erasedBy {α : Type} (method : Option String) (anonymize : α → α) (keeps : α → Bool) (rows : Dict ℕ α) : Dict ℕ α :=
  if method = some "anonymize" then rows.mapValues anonymize
  else if method = some "hard" then rows.filter fun _ a => keeps a
  else rows

def erasedTransactions (method : Option String) (customer : String) : Dict ℕ Transaction → Dict ℕ Transaction :=
  erasedBy method (anonymizeTransaction customer) fun t => t.customerId ≠ some customer

def erasedEvents (method : Option String) (customer : String) : Dict ℕ TransactionEvent → Dict ℕ TransactionEvent :=
  erasedBy method (anonymizeEvent customer) fun e => e.idToken ≠ some customer

/-- What becomes of a row that is still there. -/
inductive ErasedRow {α : Type} (method : Option String) (anonymize : α → α) (keeps : α → Bool) (a : α) : α → Prop where
  | anonymized (hmethod : method = some "anonymize") : ErasedRow method anonymize keeps a (anonymize a)
  | kept (hmethod : method = some "hard") (hkeeps : keeps a = true) : ErasedRow method anonymize keeps a a
  | untouched (hanonymize : method ≠ some "anonymize") (hhard : method ≠ some "hard") :
      ErasedRow method anonymize keeps a a

theorem get?_erasedBy {α : Type} {method : Option String} {anonymize : α → α} {keeps : α → Bool} {rows : Dict ℕ α}
    {id : ℕ} {a' : α} : (erasedBy method anonymize keeps rows).get? id = some a' ↔
      ∃ a, rows.get? id = some a ∧ ErasedRow method anonymize keeps a a' := by
  unfold erasedBy
  split
  · rename_i hmethod
    rw [Dict.get?_mapValues, Option.map_eq_some_iff]
    refine ⟨?_, ?_⟩
    · rintro ⟨a, ha, rfl⟩
      exact ⟨a, ha, .anonymized hmethod⟩
    · rintro ⟨a, ha, hrow⟩
      cases hrow with
      | anonymized => exact ⟨a, ha, rfl⟩
      | kept hhard => exact absurd (hmethod.symm.trans hhard) (by decide)
      | untouched hanonymize => exact absurd hmethod hanonymize
  · rename_i hanonymize
    split
    · rename_i hmethod
      rw [Dict.get?_filter, Option.filter_eq_some_iff]
      refine ⟨fun h => ⟨a', h.1, .kept hmethod h.2⟩, ?_⟩
      rintro ⟨a, ha, hrow⟩
      cases hrow with
      | anonymized hmethod' => exact absurd hmethod' hanonymize
      | kept _ hkeeps => exact ⟨ha, hkeeps⟩
      | untouched _ hhard => exact absurd hmethod hhard
    · rename_i hhard
      refine ⟨fun h => ⟨a', h, .untouched hanonymize hhard⟩, ?_⟩
      rintro ⟨a, ha, hrow⟩
      cases hrow with
      | anonymized hmethod => exact absurd hmethod hanonymize
      | kept hmethod => exact ha
      | untouched => exact ha

theorem eraseStatements_return (f : Dict ℕ Transaction → Dict ℕ Transaction)
    (g : Dict ℕ TransactionEvent → Dict ℕ TransactionEvent) (row : AnonymizationLog) :
    Returns (do onTransactions env f; onEvents env g; storePiiAnonymizationLog env row)
      fun db _ db' => db'.transactions = f db.transactions ∧ db'.transactionEvents = g db.transactionEvents ∧
        db'.consents = db.consents ∧ db.hasCustomerId = true ∧ db.hasEventToken = true := by
  have hf : Returns (onTransactions env f) fun db _ db' =>
      db' = { db with transactions := f db.transactions } ∧ db.hasCustomerId = true := by
    refine returns_write fun k db db' h => ?_
    split at h
    · rename_i hcolumn
      exact ⟨(Except.ok.inj h).symm, hcolumn⟩
    · cases h
  have hg : Returns (onEvents env g) fun db _ db' =>
      db' = { db with transactionEvents := g db.transactionEvents } ∧ db.hasEventToken = true := by
    refine returns_write fun k db db' h => ?_
    split at h
    · rename_i hcolumn
      exact ⟨(Except.ok.inj h).symm, hcolumn⟩
    · cases h
  refine returns_bind hf fun db _ db₁ h₁ => returns_bind hg fun db₁' _ db₂ h₂ => ?_
  refine (storePiiAnonymizationLog_returns row).imp fun _ _ db' hsame heq heq' => ?_
  subst heq
  subst heq'
  obtain ⟨rfl, htoken⟩ := h₂
  obtain ⟨rfl, hcustomer⟩ := h₁
  exact ⟨hsame.transactions, hsame.events, hsame.consents, hcustomer, htoken⟩

theorem anonymizeCustomerData_returns (customer : String) :
    Returns (anonymizeCustomerData env customer "transaction_data") fun db _ db' =>
      db'.transactions = erasedTransactions (deletionMethod db) customer db.transactions ∧
        db'.transactionEvents = erasedEvents (deletionMethod db) customer db.transactionEvents ∧
          db'.consents = db.consents ∧
            (Erases (deletionMethod db) → db.hasCustomerId = true ∧ db.hasEventToken = true) := by
  refine returns_bind (returns_read _) fun db policy db₁ h => ?_
  obtain ⟨hpolicy, rfl⟩ := h
  have hnothing : ∀ {m : Option String}, m ≠ some "anonymize" → m ≠ some "hard" →
      ∀ db' : Database, db' = db₁ → db'.transactions = erasedTransactions m customer db₁.transactions ∧
        db'.transactionEvents = erasedEvents m customer db₁.transactionEvents ∧ db'.consents = db₁.consents ∧
          (Erases m → db₁.hasCustomerId = true ∧ db₁.hasEventToken = true) := by
    rintro m hanonymize hhard db' rfl
    unfold erasedTransactions erasedEvents erasedBy
    rw [if_neg hanonymize, if_neg hhard, if_neg hanonymize, if_neg hhard]
    exact ⟨rfl, rfl, rfl, fun h => absurd h (not_or.mpr ⟨hanonymize, hhard⟩)⟩
  unfold deletionMethod
  rw [← hpolicy]
  cases policy with
  | none =>
    have hnone : Erases (none.bind RetentionPolicy.deletionMethod) → False := fun h => h.elim nofun nofun
    refine (returns_pure ()).imp fun _ _ db' h heq => hnothing (fun h => hnone (.inl h)) (fun h => hnone (.inr h)) db' ?_
    exact h.2.trans heq
  | some policy =>
    simp only [Option.bind_some]
    split
    · rename_i hmethod
      refine (eraseStatements_return _ _ _).imp fun _ _ db' h heq => ?_
      subst heq
      unfold erasedTransactions erasedEvents erasedBy
      rw [if_pos hmethod, if_pos hmethod]
      exact ⟨h.1, h.2.1, h.2.2.1, fun _ => h.2.2.2⟩
    · rename_i hanonymize
      split
      · rename_i hmethod
        refine (eraseStatements_return _ _ _).imp fun _ _ db' h heq => ?_
        subst heq
        unfold erasedTransactions erasedEvents erasedBy
        rw [if_neg hanonymize, if_pos hmethod, if_neg hanonymize, if_pos hmethod]
        exact ⟨h.1, h.2.1, h.2.2.1, fun _ => h.2.2.2⟩
      · rename_i hhard
        exact (returns_pure ()).imp fun _ _ db' h heq => hnothing hanonymize hhard db' (h.2.trans heq)

/-! ## Consents -/

/-- The rows of these ids are revoked, and the others are the same. -/
structure Revokes (p : String → Prop) (before after : Dict String Consent) : Prop where
  revoked : ∀ id, p id → ∃ r, after.get? id = some r ∧ r.consentStatus = "revoked"
  others : ∀ id, ¬ p id → after.get? id = before.get? id

theorem Revokes.refl (rows : Dict String Consent) : Revokes (fun _ => False) rows rows :=
  ⟨fun _ h => absurd h not_false, fun _ _ => rfl⟩

theorem Revokes.congr {p q : String → Prop} {before after : Dict String Consent} (h : Revokes p before after)
    (hiff : ∀ id, p id ↔ q id) : Revokes q before after :=
  ⟨fun id hq => h.revoked id ((hiff id).mpr hq), fun id hq => h.others id fun hp => hq ((hiff id).mp hp)⟩

theorem Revokes.trans {p q : String → Prop} {before mid after : Dict String Consent} (h : Revokes p before mid)
    (h' : Revokes q mid after) : Revokes (fun id => p id ∨ q id) before after where
  revoked := by
    intro id hid
    by_cases hq : q id
    · exact h'.revoked id hq
    · rw [h'.others id hq]
      exact h.revoked id (hid.resolve_right hq)
  others := by
    intro id hid
    rw [h'.others id fun hq => hid (.inr hq), h.others id fun hp => hid (.inl hp)]

def GrantedOf (customer : String) (types : List String) (rows : Dict String Consent) (id : String) : Prop :=
  ∃ r, rows.get? id = some r ∧ r.customerIdentifier = customer ∧ r.consentType ∈ types ∧ r.consentStatus = "granted"

theorem Revokes.append {customer : String} {types types' : List String} {before mid after : Dict String Consent}
    (h : Revokes (GrantedOf customer types before) before mid)
    (h' : Revokes (GrantedOf customer types' mid) mid after) :
    Revokes (GrantedOf customer (types ++ types') before) before after := by
  refine (h.trans h').congr fun id => ⟨?_, ?_⟩
  · rintro (⟨r, hr, hcustomer, htype, hgranted⟩ | ⟨r, hr, hcustomer, htype, hgranted⟩)
    · exact ⟨r, hr, hcustomer, List.mem_append_left _ htype, hgranted⟩
    · by_cases hid : GrantedOf customer types before id
      · obtain ⟨r', hr', hrevoked⟩ := h.revoked id hid
        obtain rfl := Option.some.inj (hr.symm.trans hr')
        exact absurd (hgranted.symm.trans hrevoked) (by decide)
      · rw [h.others id hid] at hr
        exact ⟨r, hr, hcustomer, List.mem_append_right _ htype, hgranted⟩
  · rintro ⟨r, hr, hcustomer, htype, hgranted⟩
    by_cases hid : GrantedOf customer types before id
    · exact .inl hid
    · refine .inr ⟨r, ?_, hcustomer, ?_, hgranted⟩
      · rw [h.others id hid]
        exact hr
      · exact (List.mem_append.mp htype).resolve_left fun hleft => hid ⟨r, hr, hcustomer, hleft, hgranted⟩

structure OnlyConsents (p : String → Prop) (db db' : Database) : Prop where
  transactions : db'.transactions = db.transactions
  events : db'.transactionEvents = db.transactionEvents
  consents : Revokes p db.consents db'.consents

theorem storeConsentRecord_returns (id : String) (consent : Consent) (hrevoked : consent.consentStatus = "revoked") :
    Returns (storeConsentRecord env id consent) fun db _ db' => OnlyConsents (· = id) db db' := by
  refine returns_write fun k db db' h => ?_
  cases h
  refine ⟨rfl, rfl, ?_, fun id' hid' => ?_⟩
  · rintro id' rfl
    rw [Dict.get?_set, if_pos rfl]
    refine ⟨_, rfl, ?_⟩
    split
    · exact hrevoked
    · exact hrevoked
  · rw [Dict.get?_set_ne _ _ hid']

def grantedIds (records : List (String × Consent)) (id : String) : Prop :=
  ∃ r, (id, r) ∈ records ∧ r.consentStatus = "granted"

theorem revokeRecords_return (customer consentType : String) (records : List (String × Consent)) :
    Returns (records.forM fun record =>
      if record.2.consentStatus = "granted" then do
        let revocationDate ← field fun s => env.now s.sent
        storeConsentRecord env record.1
          { customerIdentifier := customer
            consentType := consentType
            consentStatus := "revoked"
            consentDate := record.2.consentDate
            revocationDate := some revocationDate
            expiryDate := record.2.expiryDate
            consentMethod := record.2.consentMethod
            consentSource := record.2.consentSource
            legalBasis := record.2.legalBasis }
      else return ()) fun db _ db' => OnlyConsents (grantedIds records) db db' := by
  refine returns_forM (R := fun records db db' => OnlyConsents (grantedIds records) db db') ?_ ?_ ?_ records
  · intro db
    exact ⟨rfl, rfl, (Revokes.refl _).congr fun id => ⟨False.elim, fun h => absurd h.choose_spec.1 List.not_mem_nil⟩⟩
  · intro record rest db db₁ db' h h'
    refine ⟨h'.transactions.trans h.transactions, h'.events.trans h.events, (h.consents.trans h'.consents).congr ?_⟩
    intro id
    refine ⟨?_, ?_⟩
    · rintro (⟨r, hr, hgranted⟩ | ⟨r, hr, hgranted⟩)
      · exact ⟨r, List.mem_cons.mpr (.inl (List.mem_singleton.mp hr)), hgranted⟩
      · exact ⟨r, List.mem_cons_of_mem _ hr, hgranted⟩
    · rintro ⟨r, hr, hgranted⟩
      rcases List.mem_cons.mp hr with heq | hrest
      · exact .inl ⟨r, List.mem_singleton.mpr heq, hgranted⟩
      · exact .inr ⟨r, hrest, hgranted⟩
  · intro record
    by_cases hgranted : record.2.consentStatus = "granted"
    · rw [if_pos hgranted]
      intro s a s' hexec
      rw [exec_field_bind] at hexec
      have hstore := storeConsentRecord_returns record.1 _ rfl s a s' hexec
      refine ⟨hstore.transactions, hstore.events, hstore.consents.congr fun id => ⟨?_, ?_⟩⟩
      · rintro rfl
        exact ⟨record.2, List.mem_singleton.mpr rfl, hgranted⟩
      · rintro ⟨r, hr, _⟩
        exact congrArg Prod.fst (List.mem_singleton.mp hr)
    · rw [if_neg hgranted]
      refine (returns_pure ()).imp fun db _ db' h => ?_
      rw [h.2]
      refine ⟨rfl, rfl, (Revokes.refl _).congr fun id => ⟨False.elim, ?_⟩⟩
      rintro ⟨r, hr, hgranted'⟩
      obtain rfl := List.mem_singleton.mp hr
      exact hgranted hgranted'

theorem revokeConsent_returns (customer consentType : String) :
    Returns (revokeConsent env customer consentType) fun db _ db' =>
      OnlyConsents (GrantedOf customer [consentType] db.consents) db db' := by
  refine returns_bind (returns_read _) fun db records db₁ h => ?_
  obtain ⟨hrecords, rfl⟩ := h
  refine (revokeRecords_return customer consentType records).imp fun _ _ db' h heq => ?_
  subst heq
  refine ⟨h.transactions, h.events, h.consents.congr fun id => ?_⟩
  subst hrecords
  refine ⟨?_, ?_⟩
  · rintro ⟨r, hr, hgranted⟩
    obtain ⟨hitem, howner⟩ := List.mem_filter.mp (Sql.mem_orderBy.mp hr)
    obtain ⟨hcustomer, htype⟩ := of_decide_eq_true howner
    exact ⟨r, Dict.mem_items_iff.mp hitem, hcustomer, List.mem_singleton.mpr htype, hgranted⟩
  · rintro ⟨r, hr, hcustomer, htype, hgranted⟩
    refine ⟨r, Sql.mem_orderBy.mpr (List.mem_filter.mpr ⟨Dict.mem_items_iff.mpr hr, ?_⟩), hgranted⟩
    exact decide_eq_true ⟨hcustomer, List.mem_singleton.mp htype⟩

theorem revokeConsents_return (customer : String) (types : List String) :
    Returns (types.forM fun consentType => revokeConsent env customer consentType) fun db _ db' =>
      OnlyConsents (GrantedOf customer types db.consents) db db' := by
  refine returns_forM (R := fun types db db' => OnlyConsents (GrantedOf customer types db.consents) db db') ?_ ?_
    (revokeConsent_returns customer) types
  · intro db
    refine ⟨rfl, rfl, (Revokes.refl _).congr fun id => ⟨False.elim, ?_⟩⟩
    rintro ⟨r, _, _, htype, _⟩
    exact absurd htype List.not_mem_nil
  · intro consentType rest db db₁ db' h h'
    exact ⟨h'.transactions.trans h.transactions, h'.events.trans h.events, h.consents.append h'.consents⟩

/-! ## An accepted request -/

/-- What an accepted request leaves. -/
structure Leaves (customer : String) (before after : Database) : Prop where
  transactions : after.transactions = erasedTransactions (deletionMethod before) customer before.transactions
  events : after.transactionEvents = erasedEvents (deletionMethod before) customer before.transactionEvents
  consents : Revokes (GrantedOf customer consentTypes before.consents) before.consents after.consents
  columns : Erases (deletionMethod before) → before.hasCustomerId = true ∧ before.hasEventToken = true

theorem processDelete_returns (customer : String) :
    Returns (processDeleteCustomerInformationRequest env (some customer)) fun db _ db' =>
      if customer = "" then db' = db else Leaves customer db db' := by
  unfold processDeleteCustomerInformationRequest
  simp only
  split
  · exact (returns_pure ()).imp fun _ _ _ h => h.2
  · refine returns_bind (anonymizeCustomerData_returns customer) fun db _ db₁ h => ?_
    refine (revokeConsents_return customer consentTypes).imp fun _ _ db' h' heq => ?_
    subst heq
    refine ⟨h'.transactions.trans h.1, h'.events.trans h.2.1, ?_, h.2.2.2⟩
    rw [← h.2.2.1]
    exact h'.consents

theorem handleDelete_returns (stationId : String) (requestId : ℤ) (customerCertificateId idToken : Option String)
    (customer : String) :
    Returns (handleDeleteCustomerInformationRequest env stationId requestId customerCertificateId idToken (some customer))
      fun db answer db' => answer = .accepted →
        customer = "" ∧ SameRows db db' ∨ customer ≠ "" ∧ Leaves customer db db' := by
  refine returns_recover ?_ ?_
  · refine returns_bind (storeCustomerInformationRequest_returns _ _) fun db _ db₁ hstore => ?_
    refine returns_bind (processDelete_returns customer) fun db₁' _ db₂ hprocess => ?_
    refine returns_bind (updateCustomerInformationStatus_returns _ _ _) fun db₂' _ db₃ hupdate => ?_
    refine (returns_pure Answer.accepted).imp fun db₃' answer db' h heq heq' heq'' _ => ?_
    subst heq
    subst heq'
    subst heq''
    rw [h.2]
    split at hprocess
    · rename_i hempty
      subst hprocess
      exact .inl ⟨hempty, hupdate.transactions.trans hstore.transactions, hupdate.events.trans hstore.events,
        hupdate.consents.trans hstore.consents, hupdate.policies.trans hstore.policies,
        hupdate.customerId.trans hstore.customerId, hupdate.eventToken.trans hstore.eventToken⟩
    · rename_i hempty
      have hmethod : deletionMethod db₁' = deletionMethod db := by
        unfold deletionMethod policyFor
        rw [hstore.policies]
      refine .inr ⟨hempty, ?_, ?_, ?_, ?_⟩
      · rw [hupdate.transactions, hprocess.transactions, hmethod, hstore.transactions]
      · rw [hupdate.events, hprocess.events, hmethod, hstore.events]
      · rw [hupdate.consents, ← hstore.consents]
        exact hprocess.consents
      · rw [← hstore.customerId, ← hstore.eventToken, ← hmethod]
        exact hprocess.columns
  · intro e db
    refine returns_bind (updateCustomerInformationStatus_returns _ _ _) fun _ _ _ _ => ?_
    refine (returns_pure (Answer.rejected "InternalError" e)).imp fun _ answer _ h _ haccepted => ?_
    exact nomatch h.1.symm.trans haccepted

/-! ## When the customer is erased -/

section Leaves

variable {customer : String} {before after : Database}

theorem anonymizeTransaction_of_customer {t : Transaction} (h : t.customerId = some customer) :
    anonymizeTransaction customer t = { t with idToken := anonymized, customerId := some anonymized } := if_pos h

theorem Leaves.method_of_erased (h : Leaves customer before after) (herased : Erased customer before after) {id : ℕ}
    {t : Transaction} (ht : before.transactions.get? id = some t) (hcustomer : t.customerId = some customer) :
    deletionMethod before = some "hard" ∨
      deletionMethod before = some "anonymize" ∧ customer ≠ anonymized ∧ t.idToken ≠ anonymized := by
  by_cases hhard : deletionMethod before = some "hard"
  · exact .inl hhard
  · have hget : ∀ t', ErasedRow (deletionMethod before) (anonymizeTransaction customer)
        (fun t => t.customerId ≠ some customer) t t' → after.transactions.get? id = some t' := by
      intro t' hrow
      rw [h.transactions]
      exact get?_erasedBy.mpr ⟨t, ht, hrow⟩
    by_cases hanonymize : deletionMethod before = some "anonymize"
    · have hafter := hget _ (.anonymized hanonymize)
      have hunnamed := herased.unnamed id _ hafter
      have htoken := herased.transactions id t _ ht hcustomer hafter
      rw [anonymizeTransaction_of_customer hcustomer] at hunnamed htoken
      exact .inr ⟨hanonymize, fun heq => hunnamed (congrArg some heq.symm), htoken.symm⟩
    · exact absurd hcustomer (herased.unnamed id t (hget t (.untouched hanonymize hhard)))

theorem Leaves.erasable (h : Leaves customer before after) (hne : customer ≠ "")
    (herased : Erased customer before after) : Erasable customer before where
  transactions := fun _ _ ht hcustomer => ⟨hne, h.method_of_erased herased ht hcustomer⟩
  events := by
    intro id t ht hcustomer eventId e token he hbelongs htoken
    by_contra hother
    have hkeeps : e.idToken ≠ some customer := by
      rw [htoken]
      exact fun heq => hother (Option.some.inj heq)
    have hafter : after.transactionEvents.get? eventId = some e := by
      rw [h.events]
      refine get?_erasedBy.mpr ⟨e, he, ?_⟩
      rcases h.method_of_erased herased ht hcustomer with hhard | ⟨hanonymize, -⟩
      · exact .kept hhard (decide_eq_true hkeeps)
      · have hrow := @ErasedRow.anonymized _ _ (anonymizeEvent customer) (fun e => e.idToken ≠ some customer) e hanonymize
        rw [show anonymizeEvent customer e = e from if_neg hkeeps] at hrow
        exact hrow
    exact herased.events id t ht hcustomer eventId e e token he hbelongs htoken hafter htoken
  consents := by
    intro id r hr hcustomer hgranted
    refine ⟨hne, ?_⟩
    by_contra htype
    have hnot : ¬ GrantedOf customer consentTypes before.consents id := by
      rintro ⟨r', hr', -, htype', -⟩
      obtain rfl := Option.some.inj (hr.symm.trans hr')
      exact htype htype'
    obtain ⟨r', hr', hrevoked⟩ := herased.consents id r hr hcustomer hgranted
    rw [h.consents.others id hnot, hr] at hr'
    obtain rfl := Option.some.inj hr'
    exact absurd (hgranted.symm.trans hrevoked) (by decide)

theorem Leaves.erased (h : Leaves customer before after) (herasable : Erasable customer before) :
    Erased customer before after where
  unnamed := by
    intro id t' ht' hcustomer'
    rw [h.transactions] at ht'
    obtain ⟨t, ht, hrow⟩ := get?_erasedBy.mp ht'
    cases hrow with
    | anonymized hanonymize =>
      by_cases hcustomer : t.customerId = some customer
      · rw [anonymizeTransaction_of_customer hcustomer] at hcustomer'
        rcases (herasable.transactions id t ht hcustomer).2 with hhard | ⟨-, hname, -⟩
        · exact absurd (hanonymize.symm.trans hhard) (by decide)
        · exact hname (Option.some.inj hcustomer').symm
      · rw [anonymizeTransaction, if_neg hcustomer] at hcustomer'
        exact hcustomer hcustomer'
    | kept _ hkeeps => exact of_decide_eq_true hkeeps hcustomer'
    | untouched hanonymize hhard =>
      rcases (herasable.transactions id t' ht hcustomer').2 with hmethod | ⟨hmethod, -⟩
      · exact hhard hmethod
      · exact hanonymize hmethod
  transactions := by
    intro id t t' ht hcustomer ht' htoken
    rw [h.transactions] at ht'
    obtain ⟨t₁, ht₁, hrow⟩ := get?_erasedBy.mp ht'
    obtain rfl := Option.some.inj (ht.symm.trans ht₁)
    cases hrow with
    | anonymized hanonymize =>
      rw [anonymizeTransaction_of_customer hcustomer] at htoken
      rcases (herasable.transactions id t ht hcustomer).2 with hhard | ⟨-, -, hname⟩
      · exact absurd (hanonymize.symm.trans hhard) (by decide)
      · exact hname htoken.symm
    | kept _ hkeeps => exact of_decide_eq_true hkeeps hcustomer
    | untouched hanonymize hhard =>
      rcases (herasable.transactions id t ht hcustomer).2 with hmethod | ⟨hmethod, -⟩
      · exact hhard hmethod
      · exact hanonymize hmethod
  events := by
    intro id t ht hcustomer eventId e e' token he hbelongs htoken he' htoken'
    obtain rfl := herasable.events id t ht hcustomer eventId e token he hbelongs htoken
    rw [h.events] at he'
    obtain ⟨e₁, he₁, hrow⟩ := get?_erasedBy.mp he'
    obtain rfl := Option.some.inj (he.symm.trans he₁)
    cases hrow with
    | anonymized hanonymize =>
      rw [anonymizeEvent, if_pos htoken] at htoken'
      rcases (herasable.transactions id t ht hcustomer).2 with hhard | ⟨-, hname, -⟩
      · exact absurd (hanonymize.symm.trans hhard) (by decide)
      · exact hname (Option.some.inj htoken').symm
    | kept _ hkeeps => exact of_decide_eq_true hkeeps htoken
    | untouched hanonymize hhard =>
      rcases (herasable.transactions id t ht hcustomer).2 with hmethod | ⟨hmethod, -⟩
      · exact hhard hmethod
      · exact hanonymize hmethod
  consents := by
    intro id r hr hcustomer hgranted
    exact h.consents.revoked id ⟨r, hr, hcustomer, (herasable.consents id r hr hcustomer hgranted).2, hgranted⟩

end Leaves

theorem erased_iff_of_sameRows {before after : Database} (h : SameRows before after) :
    Erased "" before after ↔ Erasable "" before := by
  refine ⟨fun herased => ?_, fun herasable => ?_⟩
  · have hnone : ∀ id t, before.transactions.get? id = some t → t.customerId ≠ some "" := by
      intro id t ht
      rw [← h.transactions] at ht
      exact herased.unnamed id t ht
    refine ⟨fun id t ht hcustomer => absurd hcustomer (hnone id t ht),
      fun id t ht hcustomer => absurd hcustomer (hnone id t ht), fun id r hr hcustomer hgranted => ?_⟩
    obtain ⟨r', hr', hrevoked⟩ := herased.consents id r hr hcustomer hgranted
    rw [h.consents, hr] at hr'
    obtain rfl := Option.some.inj hr'
    exact absurd (hgranted.symm.trans hrevoked) (by decide)
  · have hnone : ∀ id t, before.transactions.get? id = some t → t.customerId ≠ some "" :=
      fun id t ht hcustomer => (herasable.transactions id t ht hcustomer).1 rfl
    refine ⟨fun id t ht => ?_, fun id t t' ht hcustomer => absurd hcustomer (hnone id t ht),
      fun id t ht hcustomer => absurd hcustomer (hnone id t ht),
      fun id r hr hcustomer hgranted => absurd rfl (herasable.consents id r hr hcustomer hgranted).1⟩
    rw [h.transactions] at ht
    exact hnone id t ht

section Request

variable (env : Env) (stationId : String) (requestId : ℤ) (customerCertificateId idToken : Option String)
  (customer : String) (s s' : Session Database)
  (h : exec (handleDeleteCustomerInformationRequest env stationId requestId customerCertificateId idToken (some customer))
    s = (.ok .accepted, s'))

include h

/-- With the tables of `ocpp_schema.py` no request is accepted whose policy erases transactions. -/
theorem columns_of_accepted (hne : customer ≠ "") (hmethod : Erases (deletionMethod s.db)) :
    s.db.hasCustomerId = true ∧ s.db.hasEventToken = true := by
  rcases handleDelete_returns stationId requestId customerCertificateId idToken customer s .accepted s' h rfl with
    ⟨hempty, -⟩ | ⟨-, hleaves⟩
  · exact absurd hempty hne
  · exact hleaves.columns hmethod

/-- **When an accepted request erases the customer**: the code finds the events by the customer where it needs the
tokens, and does nothing where no policy tells it to. -/
theorem erased_iff : Erased customer s.db s'.db ↔ Erasable customer s.db := by
  rcases handleDelete_returns stationId requestId customerCertificateId idToken customer s .accepted s' h rfl with
    ⟨rfl, hsame⟩ | ⟨hne, hleaves⟩
  · exact erased_iff_of_sameRows hsame
  · exact ⟨hleaves.erasable hne, hleaves.erased⟩

end Request

def oneTransaction (token : String) : Session Database where
  db :=
    { hasCustomerId := true
      hasEventToken := true
      transactions := Dict.empty.set 1 ⟨"CS1", "T1", token, some "CUSTOMER123"⟩
      transactionEvents := Dict.empty.set 1 ⟨"CS1", "T1", some token⟩
      policies := [⟨"P1", "transaction_data", some "anonymize"⟩]
      consents := Dict.empty
      requests := Dict.empty
      log := Dict.empty }
  sent := 0

/-- Nothing raises. -/
def undisturbed : Env := ⟨fun _ => none, fun _ => 0, fun _ => "L1"⟩

def erasureRequest : Query Answer :=
  handleDeleteCustomerInformationRequest undisturbed "CS1" 7 none none (some "CUSTOMER123")

theorem accepted_of_fst {token : String}
    (h : (exec erasureRequest (oneTransaction token)).1.toOption = some Answer.accepted) :
    exec erasureRequest (oneTransaction token) = (.ok .accepted, (exec erasureRequest (oneTransaction token)).2) := by
  generalize exec erasureRequest (oneTransaction token) = outcome at h ⊢
  obtain ⟨answer, s'⟩ := outcome
  cases answer with
  | ok answer => rw [Option.some.inj h]
  | error e => exact nomatch h

/-- Where the token is the customer's identifier, the customer is erased. -/
theorem customer_token_erased : Erased "CUSTOMER123" (oneTransaction "CUSTOMER123").db
    (exec erasureRequest (oneTransaction "CUSTOMER123")).2.db := by
  have haccepted : exec erasureRequest (oneTransaction "CUSTOMER123") =
      (.ok .accepted, (exec erasureRequest (oneTransaction "CUSTOMER123")).2) := accepted_of_fst (by decide +kernel)
  have hiff := erased_iff undisturbed "CS1" 7 none none "CUSTOMER123" (oneTransaction "CUSTOMER123")
    (exec erasureRequest (oneTransaction "CUSTOMER123")).2 haccepted
  refine hiff.mpr ⟨?_, ?_, ?_⟩
  · intro id t ht _
    rw [oneTransaction, Dict.get?_set] at ht
    split at ht
    · obtain rfl := Option.some.inj ht
      exact ⟨by decide, .inr ⟨rfl, by decide, by decide⟩⟩
    · exact nomatch ht
  · intro _ _ _ _ eventId e token he _ htoken
    rw [oneTransaction, Dict.get?_set] at he
    split at he
    · obtain rfl := Option.some.inj he
      exact (Option.some.inj htoken).symm
    · exact nomatch he
  · intro id r hr
    exact nomatch hr

/-- The event keeps the card's number. -/
theorem card_number_kept : ¬ ∀ env stationId requestId customerCertificateId idToken customer s s',
    exec (handleDeleteCustomerInformationRequest env stationId requestId customerCertificateId idToken (some customer))
      s = (.ok .accepted, s') → Erased customer s.db s'.db := by
  intro hall
  have herased := hall undisturbed "CS1" 7 none none "CUSTOMER123" (oneTransaction "RFID-1") _
    (accepted_of_fst (by decide +kernel))
  have hafter : (exec erasureRequest (oneTransaction "RFID-1")).2.db.transactionEvents.get? 1 =
      some ⟨"CS1", "T1", some "RFID-1"⟩ := by decide +kernel
  exact herased.events 1 ⟨"CS1", "T1", "RFID-1", some "CUSTOMER123"⟩ (by decide +kernel) rfl 1
    ⟨"CS1", "T1", some "RFID-1"⟩ _ "RFID-1" (by decide +kernel) ⟨rfl, rfl⟩ rfl hafter rfl

end FavoniusBackend.Privacy
