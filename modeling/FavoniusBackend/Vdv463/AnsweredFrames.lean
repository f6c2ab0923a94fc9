import FavoniusBackend.Vdv463.Answers

/-!
# The answered frames are the answerable ones

The loop over the items first, then the two layers above it: with a socket and a database that work, a turn raises where
its verdict does and sends where it refuses, so what a message sends and takes up can be read off its items.
-/

namespace FavoniusBackend.Vdv463

open Lib
open Lib.PyJson
open Lib.JsonText
open Lib.Stateful

variable {setting : Setting} {self : VDV463Handler} {c : Circumstances} {envelope : VDVMessageEnvelope}

def Circumstances.Works (c : Circumstances) : Prop := ∀ op, c.fails op = false

/-! ## Without failures -/

theorem exec_send_works (h : c.Works) (op : Operation) (reply : Reply) (w : World) :
    exec (send c op reply) w = (.ok (), { w with sent := w.sent ++ [reply] }) := by
  rw [exec_send, if_neg (by simp [h op])]

theorem logFails_works (h : c.Works) (item : Option ℕ) : logFails self c item = false := by
  simp [logFails, h (.log item)]

theorem exec_logError_works (h : c.Works) (item : Option ℕ) (w : World) :
    exec (logError self c item) w = (.ok (), w) := by
  rw [exec_logError, logFails_works h, if_neg (by simp)]

/-! ## A turn -/

def Verdict.isRaise : Verdict → Bool
  | .raises _ => true
  | _ => false

def Verdict.isReject : Verdict → Bool
  | .rejected _ _ _ => true
  | _ => false

theorem isRaise_iff {i : ℕ} {fields : List (PyStr × Json)} :
    (verdict setting self c envelope i (.obj fields)).isRaise ↔ RaisesInTurn fields := by
  rw [← @verdict_raises_iff setting self c envelope i]
  cases verdict setting self c envelope i (.obj fields) with
  | raises e => exact iff_of_true rfl ⟨e, rfl⟩
  | skipped => exact iff_of_false nofun nofun
  | rejected req code description => exact iff_of_false nofun nofun
  | accepted req vehicleId point => exact iff_of_false nofun nofun

theorem resolveVerdict_isReject {i : ℕ} {req : ChargingRequest} :
    (resolveVerdict setting self c i req).isReject ↔
      c.vehicle i = none ∨ (req.chargingPointId.truthy ∧ self.depot.isSome) ∧ c.chargingPoint i = none := by
  unfold resolveVerdict
  cases c.vehicle i with
  | none => exact iff_of_true rfl (.inl rfl)
  | some vehicleId =>
    simp only [reduceCtorEq, false_or, Bool.and_eq_true]
    by_cases hpoint : req.chargingPointId.truthy ∧ self.depot.isSome
    · rw [if_pos hpoint]
      cases c.chargingPoint i with
      | none => exact iff_of_true rfl ⟨hpoint, rfl⟩
      | some point => exact iff_of_false nofun nofun
    · rw [if_neg hpoint]
      exact iff_of_false nofun fun h => hpoint h.1

theorem data_of_parse {item : Json} {status : String} {req : ChargingRequest}
    (h : parseChargingRequestItem item status = .ok req) :
    ∃ fields data socs, item = .obj fields ∧ dataOf fields = .obj data ∧ socsOf data = .ok socs ∧
      req = requestOf fields data status socs := by
  cases item with
  | obj fields =>
    by_cases hdata : ∃ data, dataOf fields = .obj data
    · obtain ⟨data, hdata⟩ := hdata
      rw [parse_of_data hdata] at h
      rcases hsocs : socsOf data with e | socs
      · rw [hsocs] at h
        exact nomatch h
      · rw [hsocs] at h
        exact ⟨fields, data, socs, rfl, hdata, hsocs, (Except.ok.inj h).symm⟩
    · rw [parse_of_no_data fun data h => hdata ⟨data, h⟩] at h
      exact nomatch h
  | null => exact nomatch h
  | bool b => exact nomatch h
  | int n => exact nomatch h
  | float x => exact nomatch h
  | str s => exact nomatch h
  | arr items => exact nomatch h

theorem isReject_iff {i : ℕ} {item : Json} :
    (verdict setting self c envelope i item).isReject ↔ IsRefused self c i item := by
  unfold verdict IsRefused
  generalize (if envelope.validationStatus = "" then "ok" else envelope.validationStatus) = status
  constructor
  · intro h
    rcases hparse : parseChargingRequestItem item status with e | req
    · rw [hparse] at h
      cases e <;> exact nomatch h
    · rw [hparse] at h
      refine ⟨status, req, hparse, ?_⟩
      rcases hwindow : invalidTimeWindow req with e | b
      · simp only [hwindow] at h
        exact nomatch h
      · cases b with
        | true => exact .inl rfl
        | false =>
          simp only [hwindow] at h
          exact .inr ⟨rfl, resolveVerdict_isReject.mp h⟩
  · rintro ⟨status', req', hparse', hrefused⟩
    obtain ⟨fields, data, socs, rfl, hdata, hsocs, rfl⟩ := data_of_parse hparse'
    have hparse : parseChargingRequestItem (.obj fields) status = .ok (requestOf fields data status socs) := by
      rw [parse_of_data hdata, hsocs]
      rfl
    rw [hparse]
    rcases hrefused with hwindow | ⟨hwindow, hresolve⟩
    · have hwindow' : invalidTimeWindow (requestOf fields data status socs) = .ok true := hwindow
      simp only [hwindow']
      rfl
    · have hwindow' : invalidTimeWindow (requestOf fields data status socs) = .ok false := hwindow
      simp only [hwindow']
      exact resolveVerdict_isReject.mpr hresolve

theorem turn_raises {i : ℕ} {item : Json} (h : (verdict setting self c envelope i item).isRaise) (w : World) :
    ∃ e, exec (processRequest setting self c envelope i item) w = (.error e, w) := by
  rw [exec_processRequest_eq]
  cases hverdict : verdict setting self c envelope i item with
  | raises e => exact ⟨e, rfl⟩
  | skipped => exact absurd h (by simp [hverdict, Verdict.isRaise])
  | rejected req code description => exact absurd h (by simp [hverdict, Verdict.isRaise])
  | accepted req vehicleId point => exact absurd h (by simp [hverdict, Verdict.isRaise])

theorem turn_returns (hworks : c.Works) {i : ℕ} {item : Json}
    (h : (verdict setting self c envelope i item).isRaise = false) (w : World) :
    ∃ kept w', exec (processRequest setting self c envelope i item) w = (.ok kept, w') ∧ w'.begun = w.begun ∧
      w'.sent.length = w.sent.length + if (verdict setting self c envelope i item).isReject then 1 else 0 := by
  rw [exec_processRequest_eq]
  cases hverdict : verdict setting self c envelope i item with
  | raises e => exact absurd h (by simp [hverdict, Verdict.isRaise])
  | skipped => exact ⟨none, w, rfl, rfl, rfl⟩
  | rejected req code description =>
    rw [settle, exec_reject, if_neg (by simp [hworks (.send (some i))]), logFails_works hworks, if_neg (by simp)]
    exact ⟨none, _, rfl, rfl, List.length_append⟩
  | accepted req vehicleId point =>
    rw [settle]
    cases hstored : self.stored with
    | none =>
      rw [persist, hstored]
      exact ⟨_, _, rfl, rfl, rfl⟩
    | some depotId =>
      rw [exec_persist_stored setting self c envelope hstored]
      cases persistEffect setting self c envelope depotId i req vehicleId point with
      | some effect => exact ⟨_, _, rfl, rfl, rfl⟩
      | none =>
        refine ⟨none, w, ?_, rfl, rfl⟩
        rw [logFails_works hworks, if_neg (by simp)]

/-! ## The loop -/

def SomeRejected (setting : Setting) (self : VDV463Handler) (c : Circumstances) (envelope : VDVMessageEnvelope) (n : ℕ)
    (items : List Json) : Prop :=
  ∃ i item, items[i]? = some item ∧ (verdict setting self c envelope (n + i) item).isReject

theorem someRejected_cons {n : ℕ} {item : Json} {rest : List Json} :
    SomeRejected setting self c envelope n (item :: rest) ↔
      (verdict setting self c envelope n item).isReject ∨ SomeRejected setting self c envelope (n + 1) rest := by
  constructor
  · rintro ⟨i, item', hi, hreject⟩
    cases i with
    | zero =>
      cases hi
      exact .inl hreject
    | succ i => exact .inr ⟨i, item', hi, by rwa [Nat.add_right_comm]⟩
  · rintro (hreject | ⟨i, item', hi, hreject⟩)
    · exact ⟨0, item, rfl, hreject⟩
    · exact ⟨i + 1, item', hi, by rwa [Nat.add_right_comm] at hreject⟩

theorem loop_returns (hworks : c.Works) {items : List Json} {n : ℕ}
    (h : ∀ i item, items[i]? = some item → (verdict setting self c envelope (n + i) item).isRaise = false) (w : World) :
    ∃ ids w', exec (processRequests setting self c envelope n items) w = (.ok ids, w') ∧
      w'.begun = w.begun ++ items ∧ w.sent.length ≤ w'.sent.length := by
  induction items generalizing n w with
  | nil => exact ⟨[], w, rfl, (List.append_nil _).symm, le_rfl⟩
  | cons item rest ih =>
    have hhead : (verdict setting self c envelope n item).isRaise = false := h 0 item rfl
    obtain ⟨kept, w₁, hturn, hbegun, hsent⟩ := turn_returns hworks hhead { w with begun := w.begun ++ [item] }
    have hrest : ∀ i item', rest[i]? = some item' →
        (verdict setting self c envelope (n + 1 + i) item').isRaise = false := fun i item' hi => by
      have := h (i + 1) item' hi
      rwa [← Nat.add_assoc, Nat.add_right_comm] at this
    obtain ⟨ids, w₂, hloop, hbegun', hsent'⟩ := ih hrest w₁
    refine ⟨kept.toList ++ ids, w₂, ?_, ?_, ?_⟩
    · rw [processRequests, exec_modify_bind, exec_bind_ok hturn, exec_bind_ok hloop]
      rfl
    · rw [hbegun', hbegun, List.append_assoc]
      rfl
    · refine le_trans ?_ hsent'
      rw [hsent]
      exact Nat.le_add_right _ _

theorem loop_raises (hworks : c.Works) {before : List Json} {item : Json} {n : ℕ}
    (h : ∀ i x, before[i]? = some x → (verdict setting self c envelope (n + i) x).isRaise = false)
    (hraise : (verdict setting self c envelope (n + before.length) item).isRaise) (after : List Json) (w : World) :
    ∃ e w', exec (processRequests setting self c envelope n (before ++ item :: after)) w = (.error e, w') ∧
      w'.begun = w.begun ++ (before ++ [item]) ∧ w.sent.length ≤ w'.sent.length ∧
      (w.sent.length < w'.sent.length ↔ SomeRejected setting self c envelope n before) := by
  induction before generalizing n w with
  | nil =>
    obtain ⟨e, hturn⟩ := turn_raises hraise { w with begun := w.begun ++ [item] }
    refine ⟨e, { w with begun := w.begun ++ [item] }, ?_, rfl, le_rfl, ?_⟩
    · rw [List.nil_append, processRequests, exec_modify_bind]
      exact exec_bind_error hturn
    · exact iff_of_false (lt_irrefl _) fun ⟨_, _, hi, _⟩ => nomatch hi
  | cons x before ih =>
    have hhead : (verdict setting self c envelope n x).isRaise = false := h 0 x rfl
    obtain ⟨kept, w₁, hturn, hbegun, hsent⟩ := turn_returns hworks hhead { w with begun := w.begun ++ [x] }
    have hrest : ∀ i x', before[i]? = some x' →
        (verdict setting self c envelope (n + 1 + i) x').isRaise = false := fun i x' hi => by
      have := h (i + 1) x' hi
      rwa [← Nat.add_assoc, Nat.add_right_comm] at this
    have hraise' : (verdict setting self c envelope (n + 1 + before.length) item).isRaise := by
      rwa [List.length_cons, ← Nat.add_assoc, Nat.add_right_comm] at hraise
    obtain ⟨e, w₂, hloop, hbegun', hle, hsent'⟩ := ih hrest hraise' w₁
    refine ⟨e, w₂, ?_, ?_, ?_, ?_⟩
    · rw [List.cons_append, processRequests, exec_modify_bind, exec_bind_ok hturn]
      exact exec_bind_error hloop
    · rw [hbegun', hbegun, List.append_assoc]
      rfl
    · refine le_trans ?_ hle
      rw [hsent]
      exact Nat.le_add_right _ _
    · rw [someRejected_cons, ← hsent']
      have hsent₁ : w₁.sent.length = w.sent.length +
          if (verdict setting self c envelope n x).isReject then 1 else 0 := hsent
      by_cases hreject : (verdict setting self c envelope n x).isReject
      · rw [if_pos hreject] at hsent₁
        exact iff_of_true (by omega) (.inl hreject)
      · rw [if_neg hreject] at hsent₁
        rw [hsent₁]
        simp [hreject]

/-! ## A message -/

theorem exists_first {α : Type} {p : α → Prop} {xs : List α} (h : ∃ x ∈ xs, p x) :
    ∃ before x after, xs = before ++ x :: after ∧ (∀ y ∈ before, ¬ p y) ∧ p x := by
  induction xs with
  | nil =>
    obtain ⟨x, hx, -⟩ := h
    exact absurd hx List.not_mem_nil
  | cons a xs ih =>
    by_cases ha : p a
    · exact ⟨[], a, xs, rfl, by simp, ha⟩
    · obtain ⟨x, hx, hpx⟩ := h
      have hmem : x ∈ xs := (List.mem_cons.mp hx).resolve_left fun heq => ha (heq ▸ hpx)
      obtain ⟨before, x', after, rfl, hbefore, hx'⟩ := ih ⟨x, hmem, hpx⟩
      exact ⟨a :: before, x', after, rfl, List.forall_mem_cons.mpr ⟨ha, hbefore⟩, hx'⟩

def Raises (item : Json) : Prop := ∃ fields, item = .obj fields ∧ RaisesInTurn fields

theorem isRaise_iff_raises {i : ℕ} {item : Json} (h : IdReads item) :
    (verdict setting self c envelope i item).isRaise ↔ Raises item := by
  obtain ⟨fields, rfl, -⟩ := h
  rw [isRaise_iff]
  exact ⟨fun h => ⟨fields, rfl, h⟩, fun ⟨fields', heq, h⟩ => Json.obj.inj heq ▸ h⟩

theorem isRaise_eq_false {i : ℕ} {item : Json} (hreads : IdReads item) (h : ¬ Raises item) :
    (verdict setting self c envelope i item).isRaise = false :=
  Bool.eq_false_iff.mpr fun hraise => h ((isRaise_iff_raises hreads).mp hraise)

theorem turnsAnswered_iff {items : List Json} :
    TurnsAnswered self c items ↔ (∀ x ∈ items, ¬ Raises x) ∨
      ∃ before item, items = before ++ [item] ∧ (∃ fields, item = .obj fields) ∧ (∀ x ∈ before, ¬ Raises x) ∧
        ∃ i x, before[i]? = some x ∧ IsRefused self c i x := by
  have hnot : ∀ xs : List Json, (∀ fields, .obj fields ∈ xs → ¬ RaisesInTurn fields) ↔ ∀ x ∈ xs, ¬ Raises x := by
    intro xs
    constructor
    · rintro h x hx ⟨fields, rfl, hraises⟩
      exact h fields hx hraises
    · exact fun h fields hmem hraises => h _ hmem ⟨fields, rfl, hraises⟩
  unfold TurnsAnswered
  rw [hnot]
  refine or_congr_right ⟨?_, ?_⟩
  · rintro ⟨before, fields, rfl, hbefore, hrefused⟩
    exact ⟨before, .obj fields, rfl, ⟨fields, rfl⟩, (hnot _).mp hbefore, hrefused⟩
  · rintro ⟨before, item, rfl, ⟨fields, rfl⟩, hbefore, hrefused⟩
    exact ⟨before, fields, rfl, (hnot _).mpr hbefore, hrefused⟩

theorem someRejected_zero_iff {items : List Json} :
    SomeRejected setting self c envelope 0 items ↔ ∃ i x, items[i]? = some x ∧ IsRefused self c i x := by
  unfold SomeRejected
  simp only [Nat.zero_add, isReject_iff]

/-- The terminating statement sends nothing and takes up nothing. -/
theorem terminateAbsent_works (hworks : c.Works) (ids : List Json) (w : World) :
    ∃ w', exec (terminateAbsent self c ids) w = (.ok (), w') ∧ w'.sent = w.sent ∧ w'.begun = w.begun := by
  rw [terminateAbsent]
  cases self.stored with
  | none => exact ⟨w, rfl, rfl, rfl⟩
  | some depotId =>
    have hexecute := exec_execute c .terminate (terminateRequestsNotInList depotId self.presystemId ids) w
    rw [if_neg (by simp [hworks .terminate])] at hexecute
    have hperform : ∀ w', exec (perform c .timestamp .database) w' = (.ok (), w') := fun w' => by
      rw [exec_perform, if_neg (by simp [hworks .timestamp])]
    exact ⟨_, exec_recover_ok ((exec_bind_ok hexecute).trans (hperform _)), rfl, rfl⟩

theorem processMessage_iff (hworks : c.Works) {items : List Json} (hreads : ∀ x ∈ items, IdReads x) (w : World) :
    (w.sent.length < (exec (processMessage setting self c envelope items) w).2.sent.length ∧
      (exec (processMessage setting self c envelope items) w).2.begun = w.begun ++ items) ↔
    TurnsAnswered self c items := by
  rw [turnsAnswered_iff]
  by_cases hraise : ∃ x ∈ items, Raises x
  · obtain ⟨before, item, after, rfl, hbefore, hitem⟩ := exists_first hraise
    have hreturn : ∀ i x, before[i]? = some x → (verdict setting self c envelope (0 + i) x).isRaise = false := by
      intro i x hi
      have hmem := List.mem_of_getElem? hi
      exact isRaise_eq_false (hreads x (List.mem_append_left _ hmem)) (hbefore x hmem)
    have hraises : (verdict setting self c envelope (0 + before.length) item).isRaise :=
      (isRaise_iff_raises (hreads item (by simp))).mpr hitem
    obtain ⟨e, w', hloop, hbegun, -, hsent⟩ := loop_raises hworks hreturn hraises after w
    rw [processMessage, exec_bind_error hloop, hbegun, hsent, someRejected_zero_iff]
    constructor
    · rintro ⟨hrefused, heq⟩
      obtain ⟨fields, hobj, -⟩ := hitem
      exact .inr ⟨before, item, (List.append_cancel_left heq).symm, ⟨fields, hobj⟩, hbefore, hrefused⟩
    · rintro (hnone | ⟨before', last, heq, -, hbefore', hrefused⟩)
      · exact absurd hitem (hnone item (by simp))
      · -- the item that raises is the last one
        rcases after.eq_nil_or_concat with rfl | ⟨after, z, rfl⟩
        · obtain ⟨rfl, -⟩ := List.append_inj' heq rfl
          exact ⟨hrefused, rfl⟩
        · have hsplit : (before ++ item :: after) ++ [z] = before' ++ [last] := by rw [← heq]; simp
          obtain ⟨rfl, -⟩ := List.append_inj' hsplit rfl
          exact absurd hitem (hbefore' item (by simp))
  · have hnone : ∀ x ∈ items, ¬ Raises x := fun x hx h => hraise ⟨x, hx, h⟩
    have hreturn : ∀ i x, items[i]? = some x → (verdict setting self c envelope (0 + i) x).isRaise = false := by
      intro i x hi
      have hmem := List.mem_of_getElem? hi
      exact isRaise_eq_false (hreads x hmem) (hnone x hmem)
    obtain ⟨ids, w₁, hloop, hbegun, hsent⟩ := loop_returns hworks hreturn w
    obtain ⟨w₂, hterminate, hsent', hbegun'⟩ := @terminateAbsent_works self c hworks ids w₁
    rw [processMessage, exec_bind_ok hloop, exec_bind_ok hterminate, exec_send_works hworks]
    refine iff_of_true ⟨?_, hbegun'.trans hbegun⟩ (.inl hnone)
    rw [List.length_append, hsent']
    exact Nat.lt_succ_of_le hsent

/-- The whole handler of a message: something goes out and every item is taken up, if the list can be read and its items
are answered. -/
theorem handleProvideChargingRequests_iff (hworks : c.Works) (w : World) :
    (w.sent.length < (exec (handleProvideChargingRequests setting self c envelope) w).2.sent.length ∧
      ∀ items, chargingRequestList envelope.payload = .ok items →
        (∀ crid, duplicateRequestId [] items ≠ .ok (some crid)) →
        (exec (handleProvideChargingRequests setting self c envelope) w).2.begun = w.begun ++ items) ↔
    ∃ items, chargingRequestList envelope.payload = .ok items ∧ ItemsAnswered self c items := by
  rcases hlist : chargingRequestList envelope.payload with e | items
  · have hworld : (exec (handleProvideChargingRequests setting self c envelope) w).2 = w := by
      rw [handleProvideChargingRequests, exec_bind, exec_attempt, hlist]
      rfl
    rw [hworld]
    exact iff_of_false (fun h => lt_irrefl _ h.1) (by rintro ⟨_, ⟨⟩, _⟩)
  · have hworld := @world_handleProvideChargingRequests setting self c envelope items hlist w
    simp only [Except.ok.injEq, forall_eq', exists_eq_left', ItemsAnswered]
    rcases duplicateRequestId_cases [] items with ⟨⟨crid, hdup⟩, hrepeats⟩ | ⟨⟨hdup, hreads⟩, hrepeats⟩ |
      ⟨⟨⟨e, hdup⟩, hreads⟩, hrepeats⟩ <;> rw [repeatsFrom_nil_iff] at hrepeats
    · refine iff_of_true ⟨?_, fun h => absurd hdup (h crid)⟩ (.inl hrepeats)
      rw [hworld, hdup]
      simp only [refuseDuplicate]
      rw [exec_bind_ok (exec_send_works hworks _ _ w), exec_logError_works hworks]
      simp
    · rw [or_iff_right hrepeats, and_iff_right hreads, hworld, hdup]
      have hmessage := @processMessage_iff setting self c envelope hworks items hreads w
      simpa using hmessage
    · rw [hworld, hdup]
      exact iff_of_false (fun h => lt_irrefl _ h.1) fun h => h.elim hrepeats fun h => hreads h.1

/-! ## Decoding -/

/-- Holding a value against a schema: it is accepted, or it breaks the schema, in a way that can be printed or not. -/
theorem validate_cases (hvalid : setting.OnlyValidationErrors) (v s : Json) :
    setting.validate v s = .ok () ∧ ¬ Breaks setting v s ∧ Prints setting v s ∨
      (∃ e text, setting.validate v s = .error (.validationError e) ∧ e.text = some text) ∧ Breaks setting v s ∧
        Prints setting v s ∨
      (∃ e, setting.validate v s = .error (.validationError e) ∧ e.text = none) ∧ ¬ Breaks setting v s ∧
        ¬ Prints setting v s := by
  unfold Breaks Prints
  rcases hvalidate : setting.validate v s with e | u
  · cases e with
    | other => exact absurd hvalidate (hvalid _ _)
    | validationError e =>
      simp only [Except.error.injEq, SchemaException.validationError.injEq, exists_eq_left', forall_eq']
      cases htext : e.text with
      | none => simp [htext]
      | some text => simp [htext]
  · exact .inl ⟨rfl, by simp, by simp⟩

theorem violated_of_text {title : String} {e : SchemaViolation} {text : PyStr} (h : e.text = some text) :
    ∃ v, violated title e = .validation v := by
  rw [violated, h]
  exact ⟨_, rfl⟩

theorem violated_of_none {title : String} {e : SchemaViolation} (h : e.text = none) :
    violated title e = .builtin .recursionError := by
  rw [violated, h]

def StructurePrints (setting : Setting) (items : List Json) : Prop :=
  ∀ s, setting.schema (py "MessageStructure") = some s → Prints setting (.arr items) s

theorem validateMessageStructure_cases (hvalid : setting.OnlyValidationErrors) (items : List Json) :
    ¬ RejectedByStructure setting items ∧ StructurePrints setting items ∧
        validateMessageStructure setting (.arr items) = .ok () ∨
      RejectedByStructure setting items ∧ StructurePrints setting items ∧
        (∃ v, validateMessageStructure setting (.arr items) = .error (.validation v)) ∨
      ¬ StructurePrints setting items ∧
        validateMessageStructure setting (.arr items) = .error (.builtin .recursionError) := by
  unfold validateMessageStructure RejectedByStructure StructurePrints
  cases hschema : setting.schema (py "MessageStructure") with
  | none => exact .inr (.inl ⟨by simp, by simp, _, rfl⟩)
  | some s =>
    simp only [Option.some.injEq, forall_eq']
    rcases validate_cases hvalid (.arr items) s with ⟨hok, hbreaks, hprints⟩ |
      ⟨⟨e, text, herror, htext⟩, hbreaks, hprints⟩ | ⟨⟨e, herror, htext⟩, -, hprints⟩
    · rw [hok]
      exact .inl ⟨hbreaks, hprints, rfl⟩
    · rw [herror]
      obtain ⟨v, hv⟩ := @violated_of_text "Message structure validation failed: " e text htext
      exact .inr (.inl ⟨hbreaks, hprints, v, congrArg _ hv⟩)
    · rw [herror]
      exact .inr (.inr ⟨hprints, congrArg _ (violated_of_none htext)⟩)

/-- The payload gets as far as its schema, and what the hard mode has to print of it can be printed. -/
def PayloadReads (setting : Setting) (mode : ValidationMode) (payload action : Json) : Prop :=
  PayloadLoops setting payload action ∧ PayloadPrints setting mode payload action

theorem validatePayload_cases (hvalid : setting.OnlyValidationErrors) (payload action : Json)
    (mode : ValidationMode) :
    (mode = .hard ∧ RejectedByPayload setting payload action) ∧
        (∃ v, validatePayload setting payload action mode = .error (.validation v)) ∨
      ¬ (mode = .hard ∧ RejectedByPayload setting payload action) ∧ PayloadReads setting mode payload action ∧
        (∃ warnings, validatePayload setting payload action mode = .ok warnings) ∨
      ¬ (mode = .hard ∧ RejectedByPayload setting payload action) ∧ ¬ PayloadReads setting mode payload action ∧
        ∃ e, validatePayload setting payload action mode = .error (.builtin e) := by
  unfold validatePayload RejectedByPayload PayloadReads PayloadLoops PayloadPrints
  cases hschema : setting.schema (setting.str action ++ py "Request") with
  | none =>
    cases mode with
    | hard => exact .inl ⟨⟨rfl, by simp⟩, _, rfl⟩
    | soft => exact .inr (.inl ⟨by simp, ⟨by simp, by simp⟩, _, rfl⟩)
  | some s =>
    simp only [Option.some.injEq, forall_eq', Option.isSome_some, forall_const]
    rcases hchecked : checkedPayload setting payload action with e | v
    · have hloops : ¬ (action = .str (py "ProvideChargingRequests") →
          payload.height ≤ setting.copyDepth ∧ ListReads payload) := by
        intro h
        unfold checkedPayload at hchecked
        split at hchecked
        · rename_i haction
          obtain ⟨v, hv⟩ := normalizePayload_iff.mpr (h haction)
          rw [hv] at hchecked
          cases hchecked
        · cases hchecked
      exact .inr (.inr ⟨by simp, fun h => hloops h.1, e, rfl⟩)
    · have hloops : action = .str (py "ProvideChargingRequests") →
          payload.height ≤ setting.copyDepth ∧ ListReads payload := by
        intro haction
        rw [checkedPayload, if_pos haction] at hchecked
        exact normalizePayload_iff.mp ⟨v, hchecked⟩
      simp only [Except.ok.injEq, exists_eq_left']
      rcases validate_cases hvalid v s with ⟨hok, hbreaks, hprints⟩ | ⟨⟨e, text, herror, htext⟩, hbreaks, hprints⟩ |
        ⟨⟨e, herror, htext⟩, hbreaks, hprints⟩
      · rw [hok]
        exact .inr (.inl ⟨fun h => hbreaks h.2, ⟨hloops, fun _ _ _ hs hv => hs ▸ hv ▸ hprints⟩, _, rfl⟩)
      · rw [herror]
        cases mode with
        | hard =>
          obtain ⟨violation, hv⟩ := @violated_of_text "Payload validation failed: " e text htext
          exact .inl ⟨⟨rfl, hbreaks⟩, violation, congrArg _ hv⟩
        | soft => exact .inr (.inl ⟨by simp, ⟨hloops, fun _ _ _ hs hv => hs ▸ hv ▸ hprints⟩, _, rfl⟩)
      · rw [herror]
        cases mode with
        | hard =>
          exact .inr (.inr ⟨fun h => hbreaks h.2, fun h => hprints (h.2 rfl s v rfl rfl), _,
            congrArg _ (violated_of_none htext)⟩)
        | soft => exact .inr (.inl ⟨by simp, ⟨hloops, by simp⟩, _, rfl⟩)

/-- What decoding may make of an array of seven elements or more whose structure can be printed. -/
inductive ParseOutcome (setting : Setting) (items : List Json) (mode : ValidationMode) : Prop where
  | rejected (h : RejectedArray setting mode items) (v : VDV463ValidationError)
      (hparse : parseFull setting items mode = .error (.validation v))
  | parsed (h : ¬ RejectedArray setting mode items)
      (hreads : PayloadReads setting mode (items.getD 6 .null) (items.getD 5 .null)) (envelope : VDVMessageEnvelope)
      (hparse : parseFull setting items mode = .ok envelope) (htype : envelope.messageType = items.getD 0 .null)
      (haction : envelope.messageAction = items.getD 5 .null) (hpayload : envelope.payload = items.getD 6 .null)
  | raises (h : ¬ RejectedArray setting mode items)
      (hreads : ¬ PayloadReads setting mode (items.getD 6 .null) (items.getD 5 .null)) (e : PyError)
      (hparse : parseFull setting items mode = .error (.builtin e))

theorem parseOutcome_of_structure (hvalid : setting.OnlyValidationErrors) {items : List Json} {mode : ValidationMode}
    (henforced : enforced mode (validateMessageStructure setting (.arr items)) = .ok ())
    (hstructure : ¬ (mode = .hard ∧ RejectedByStructure setting items)) : ParseOutcome setting items mode := by
  have hparse : parseFull setting items mode = (do
      let warnings ← validatePayload setting (items.getD 6 .null) (items.getD 5 .null) mode
      return if warnings = [] then fullEnvelope items
        else { fullEnvelope items with validationStatus := "warning", validationWarnings := warnings }) := by
    rw [parseFull, henforced]
    rfl
  have hrejected : RejectedArray setting mode items ↔
      mode = .hard ∧ RejectedByPayload setting (items.getD 6 .null) (items.getD 5 .null) := by
    rw [RejectedArray, and_or_left, or_iff_right hstructure]
  rcases validatePayload_cases hvalid (items.getD 6 .null) (items.getD 5 .null) mode with
    ⟨hpayload, v, h⟩ | ⟨hpayload, hreads, warnings, h⟩ | ⟨hpayload, hreads, e, h⟩
  · exact .rejected (hrejected.mpr hpayload) v (by rw [hparse, h]; rfl)
  · have hok : parseFull setting items mode = .ok (if warnings = [] then fullEnvelope items
        else { fullEnvelope items with validationStatus := "warning", validationWarnings := warnings }) := by
      rw [hparse, h]
      rfl
    refine .parsed (hrejected.not.mpr hpayload) hreads _ hok ?_ ?_ ?_
    · split <;> rfl
    · split <;> rfl
    · split <;> rfl
  · exact .raises (hrejected.not.mpr hpayload) hreads e (by rw [hparse, h]; rfl)

theorem parseOutcome (hvalid : setting.OnlyValidationErrors) {items : List Json} (mode : ValidationMode)
    (hprints : StructurePrints setting items) : ParseOutcome setting items mode := by
  rcases validateMessageStructure_cases hvalid items with ⟨hstructure, -, h⟩ | ⟨hstructure, -, v, h⟩ | ⟨hnot, -⟩
  · refine parseOutcome_of_structure hvalid ?_ fun hhard => hstructure hhard.2
    rw [h]
    cases mode <;> rfl
  · cases mode with
    | soft => exact parseOutcome_of_structure hvalid (by rw [h]; rfl) (by simp)
    | hard =>
      refine .rejected ⟨rfl, .inl hstructure⟩ v ?_
      rw [parseFull, h]
      rfl
  · exact absurd hprints hnot

theorem parseFull_of_not_prints (hvalid : setting.OnlyValidationErrors) {items : List Json} (mode : ValidationMode)
    (hprints : ¬ StructurePrints setting items) : parseFull setting items mode = .error (.builtin .recursionError) := by
  rcases validateMessageStructure_cases hvalid items with ⟨-, h, -⟩ | ⟨-, h, -⟩ | ⟨-, h⟩
  · exact absurd h hprints
  · exact absurd h hprints
  · rw [parseFull, h]
    cases mode <;> rfl

theorem itemOr_eq {v : Json} (h : (∃ items, v = .arr items ∧ items.length < 7) ∨ (∃ s, v = .str s) ∨ v = .obj []) :
    ∃ items : List Json, (∀ i default, itemOr v i default = .ok (items.getD i default)) ∧
      (items.length < 7 ∨ ∃ s, items.head? = some (.str s)) := by
  rcases h with ⟨items, rfl, hshort⟩ | ⟨s, rfl⟩ | rfl
  · refine ⟨items, fun i default => ?_, .inl hshort⟩
    have hitem : itemOr (.arr items) i default = if i < items.length then (Json.arr items).item i else .ok default := rfl
    rw [hitem]
    by_cases hi : i < items.length
    · rw [if_pos hi, Json.item, List.getD_eq_getElem?_getD, List.getElem?_eq_getElem hi]
      rfl
    · rw [if_neg hi, List.getD_eq_getElem?_getD, List.getElem?_eq_none (Nat.le_of_not_lt hi)]
      rfl
  · refine ⟨s.map fun c => .str [c], fun i default => ?_, ?_⟩
    · have hitem : itemOr (.str s) i default = if i < s.length then (Json.str s).item i else .ok default := rfl
      rw [hitem]
      by_cases hi : i < s.length
      · rw [if_pos hi, Json.item, List.getD_eq_getElem?_getD, List.getElem?_map, List.getElem?_eq_getElem hi]
        rfl
      · rw [if_neg hi, List.getD_eq_getElem?_getD, List.getElem?_map, List.getElem?_eq_none (Nat.le_of_not_lt hi)]
        rfl
    · cases s with
      | nil => exact .inl (by simp)
      | cons c s => exact .inr ⟨[c], rfl⟩
  · refine ⟨[], fun i default => ?_, .inl (by simp)⟩
    have hitem : itemOr (.obj []) i default = if i < 0 then (Json.obj []).item i else .ok default := rfl
    rw [hitem, if_neg (Nat.not_lt_zero i)]
    rfl

/-- What can be indexed, and is no array of seven elements, is an envelope; if it is one of a request, it has no
payload. -/
theorem parseShort_soft {v : Json} (h : (∃ items, v = .arr items ∧ items.length < 7) ∨ (∃ s, v = .str s) ∨ v = .obj []) :
    ∃ envelope, parseShort v .soft = .ok envelope ∧
      (envelope.messageType.same (.int 1) = true → envelope.payload = .obj []) := by
  obtain ⟨items, hitems, hlength⟩ := itemOr_eq h
  have hparse : parseShort v .soft = .ok {
      messageType := items.getD 0 (.int 1)
      source := items.getD 1 (.str [])
      presystemId := items.getD 2 (.str [])
      timestamp := items.getD 3 (.str [])
      messageId := items.getD 4 (.str [])
      messageAction := items.getD 5 (.str [])
      payload := items.getD 6 (.obj [])
      validationStatus := "warning"
      validationWarnings := [py "Message must be an array with at least 7 elements"] } := by
    rw [parseShort, shortEnvelope]
    simp only [hitems]
    rfl
  refine ⟨_, hparse, fun htype => ?_⟩
  rcases hlength with hshort | ⟨s, hhead⟩
  · have hnone : items[6]? = none := List.getElem?_eq_none (Nat.le_of_lt_succ hshort)
    have hpayload : items.getD 6 (.obj []) = .obj [] := by
      rw [List.getD_eq_getElem?_getD, hnone]
      rfl
    exact hpayload
  · -- the type of a string is a string
    obtain ⟨rest, rfl⟩ := List.head?_eq_some_iff.mp hhead
    exact absurd htype (by simp [Json.same])

theorem parseShort_soft_error {v : Json} (harr : ∀ items, v ≠ .arr items) (hstr : ∀ s, v ≠ .str s) (hobj : v ≠ .obj []) :
    ∃ e, parseShort v .soft = .error (.builtin e) := by
  cases v with
  | arr items => exact absurd rfl (harr items)
  | str s => exact absurd rfl (hstr s)
  | obj fields =>
    cases fields with
    | nil => exact absurd rfl hobj
    | cons p fields => exact ⟨.keyError, rfl⟩
  | null => exact ⟨.typeError, rfl⟩
  | bool b => exact ⟨.typeError, rfl⟩
  | int n => exact ⟨.typeError, rfl⟩
  | float x => exact ⟨.typeError, rfl⟩

/-! ## A frame -/

variable {rawMessage : String}

theorem world_handleMessage (hworks : c.Works) (w : World) :
    (exec (handleMessage setting self c rawMessage) w).2 = (exec (messageBody setting self c rawMessage) w).2 := by
  rw [handleMessage]
  rcases hbody : exec (messageBody setting self c rawMessage) w with ⟨e | u, w'⟩
  · rw [exec_recover_error hbody]
    split
    · rw [exec_logError_works hworks]
    · rfl
  · rw [exec_recover_ok hbody]

theorem world_of_tooLarge (hworks : c.Works) (h : self.maxMessageSize < rawMessage.utf8ByteSize) (w : World) :
    w.sent.length < (exec (handleMessage setting self c rawMessage) w).2.sent.length := by
  rw [world_handleMessage hworks, messageBody, if_pos h, exec_bind_ok (exec_send_works hworks _ _ w),
    exec_logError_works hworks]
  simp

theorem world_of_admitted (hadmitted : c.refusal = none) (hworks : c.Works)
    (h : rawMessage.utf8ByteSize ≤ self.maxMessageSize) (w : World) :
    (exec (handleMessage setting self c rawMessage) w).2 = (exec (handleAdmitted setting self c rawMessage) w).2 := by
  rw [world_handleMessage hworks, messageBody, if_neg (Nat.not_lt.mpr h), hadmitted]

theorem exec_replyInvalid_works (hworks : c.Works) (v : VDV463ValidationError) (w : World) :
    ∃ reply, exec (replyInvalid setting self c rawMessage v) w = (.ok (), { w with sent := w.sent ++ [reply] }) := by
  rw [replyInvalid, exec_bind_ok (exec_logError_works hworks none w)]
  rcases hparse : parseMessage setting rawMessage (some .soft) with e | envelope
  · exact ⟨_, (exec_recover_error (exec_bind_error (exec_attempt _ w))).trans (exec_send_works hworks _ _ w)⟩
  · exact ⟨_, exec_recover_ok ((exec_bind_ok (exec_attempt _ w)).trans (exec_send_works hworks _ _ w))⟩

theorem answered_of_validation (hadmitted : c.refusal = none) (hworks : c.Works)
    (hsize : rawMessage.utf8ByteSize ≤ self.maxMessageSize) {v : VDV463ValidationError}
    (hparse : parseMessage setting rawMessage (some self.validationMode) = .error (.validation v)) (w : World) :
    Answered setting self c rawMessage w where
  reply := by
    obtain ⟨reply, hreply⟩ := @exec_replyInvalid_works setting self c rawMessage hworks v w
    refine .inl ?_
    rw [world_of_admitted hadmitted hworks hsize, handleAdmitted, hparse]
    simp only [hreply]
    simp
  parse := fun _ e he => ⟨v, by rw [hparse] at he; exact (Except.error.inj he).symm⟩
  items := fun _ envelope _ he => by
    rw [hparse] at he
    exact nomatch he

theorem not_answered_of_builtin (hsize : rawMessage.utf8ByteSize ≤ self.maxMessageSize) {e : PyError}
    (hparse : parseMessage setting rawMessage (some self.validationMode) = .error (.builtin e)) (w : World) :
    ¬ Answered setting self c rawMessage w := by
  rintro ⟨-, h, -⟩
  obtain ⟨v, hv⟩ := h hsize _ hparse
  exact nomatch hv

theorem exec_handleRequest_other (hworks : c.Works)
    (haction : envelope.messageAction ≠ .str (py "ProvideChargingRequests")) (w : World) :
    ∃ reply, (exec (handleRequest setting self c envelope) w).2 = { w with sent := w.sent ++ [reply] } := by
  rw [handleRequest, if_neg haction]
  by_cases hboot : envelope.messageAction = .str (py "BootNotification")
  · rw [if_pos hboot, handleBootNotification]
    have hlogged : exec (recover (perform c .logConnection .database) fun _ => pure ()) w = (.ok (), w) :=
      exec_recover_ok (by rw [exec_perform, if_neg (by simp [hworks .logConnection])])
    split
    · exact ⟨_, by rw [exec_bind_ok hlogged, exec_send_works hworks]⟩
    · exact ⟨_, by rw [exec_send_works hworks]⟩
  · rw [if_neg hboot, exec_bind_ok (exec_send_works hworks _ _ w), exec_logError_works hworks]
    exact ⟨_, rfl⟩

theorem answered_iff_of_parsed (hadmitted : c.refusal = none) (hworks : c.Works)
    (hsize : rawMessage.utf8ByteSize ≤ self.maxMessageSize)
    (hparse : parseMessage setting rawMessage (some self.validationMode) = .ok envelope) (w : World) :
    Answered setting self c rawMessage w ↔
      (envelope.messageType.same (.int 1) = true → envelope.messageAction = .str (py "ProvideChargingRequests") →
        ∃ items, chargingRequestList envelope.payload = .ok items ∧ ItemsAnswered self c items) := by
  have hworld : (exec (handleMessage setting self c rawMessage) w).2 = (exec (route setting self c envelope) w).2 := by
    rw [world_of_admitted hadmitted hworks hsize, handleAdmitted, hparse]
  have henvelope : ∀ envelope', parseMessage setting rawMessage (some self.validationMode) = .ok envelope' →
      envelope' = envelope := fun envelope' h => (Except.ok.inj (hparse.symm.trans h)).symm
  have hraised : ∀ e, parseMessage setting rawMessage (some self.validationMode) ≠ .error e := fun e h =>
    nomatch hparse.symm.trans h
  by_cases htype : envelope.messageType.same (.int 1) = true
  · rw [route, if_pos htype] at hworld
    by_cases haction : envelope.messageAction = .str (py "ProvideChargingRequests")
    · rw [handleRequest, if_pos haction] at hworld
      rw [forall_prop_of_true htype, forall_prop_of_true haction, ← handleProvideChargingRequests_iff hworks w, ← hworld]
      constructor
      · rintro ⟨hreply, -, hitems⟩
        refine ⟨?_, fun items hlist hunique => hitems hsize envelope items hparse htype haction hlist hunique⟩
        rcases hreply with hsent | ⟨envelope', hparse', hother⟩
        · exact hsent
        · rw [henvelope _ hparse', htype] at hother
          exact nomatch hother
      · rintro ⟨hsent, hitems⟩
        refine ⟨.inl hsent, fun _ e he => absurd he (hraised e), ?_⟩
        intro _ envelope' items hparse' _ _ hlist hunique
        rw [henvelope _ hparse'] at hlist
        exact hitems items hlist hunique
    · obtain ⟨reply, hreply⟩ := @exec_handleRequest_other setting self c envelope hworks haction w
      refine iff_of_true ⟨.inl ?_, fun _ e he => absurd he (hraised e), ?_⟩ fun _ h => absurd h haction
      · rw [hworld, hreply]
        simp
      · intro _ envelope' items hparse' _ haction'
        rw [henvelope _ hparse'] at haction'
        exact absurd haction' haction
  · refine iff_of_true ⟨.inr ⟨envelope, hparse, Bool.eq_false_iff.mpr htype⟩, fun _ e he => absurd he (hraised e), ?_⟩
      fun h => absurd h htype
    intro _ envelope' items hparse' htype'
    rw [henvelope _ hparse'] at htype'
    exact absurd htype' htype

theorem answered_of_short (hadmitted : c.refusal = none) (hworks : c.Works)
    (hsize : rawMessage.utf8ByteSize ≤ self.maxMessageSize) {v : Json}
    (h : (∃ items, v = .arr items ∧ items.length < 7) ∨ (∃ s, v = .str s) ∨ v = .obj [])
    (hparse : parseMessage setting rawMessage (some self.validationMode) =
      parseShort v (setting.mode (some self.validationMode))) (w : World) :
    Answered setting self c rawMessage w := by
  cases hmode : setting.mode (some self.validationMode) with
  | hard =>
    rw [hmode] at hparse
    exact answered_of_validation hadmitted hworks hsize hparse w
  | soft =>
    obtain ⟨envelope, hsoft, hpayload⟩ := parseShort_soft h
    rw [hmode, hsoft] at hparse
    refine (answered_iff_of_parsed hadmitted hworks hsize hparse w).mpr fun htype _ => ⟨[], ?_, ?_⟩
    · rw [hpayload htype]
      rfl
    · exact .inr ⟨nofun, .inl nofun⟩

theorem answered_iff_of_unindexed (hadmitted : c.refusal = none) (hworks : c.Works)
    (hsize : rawMessage.utf8ByteSize ≤ self.maxMessageSize) {v : Json} (harr : ∀ items, v ≠ .arr items)
    (hstr : ∀ s, v ≠ .str s) (hobj : v ≠ .obj [])
    (hparse : parseMessage setting rawMessage (some self.validationMode) =
      parseShort v (setting.mode (some self.validationMode))) (w : World) :
    Answered setting self c rawMessage w ↔ setting.mode (some self.validationMode) = .hard := by
  cases hmode : setting.mode (some self.validationMode) with
  | hard =>
    rw [hmode] at hparse
    exact iff_of_true (answered_of_validation hadmitted hworks hsize hparse w) rfl
  | soft =>
    obtain ⟨e, hsoft⟩ := parseShort_soft_error harr hstr hobj
    rw [hmode, hsoft] at hparse
    exact iff_of_false (not_answered_of_builtin hsize hparse w) nofun

theorem answered_iff_of_array (hvalid : setting.OnlyValidationErrors) (hadmitted : c.refusal = none)
    (hworks : c.Works) (hsize : rawMessage.utf8ByteSize ≤ self.maxMessageSize) {items : List Json}
    (hparse : parseMessage setting rawMessage (some self.validationMode) =
      parseFull setting items (setting.mode (some self.validationMode))) (w : World) :
    Answered setting self c rawMessage w ↔
      ArrayAnswerable setting self c (setting.mode (some self.validationMode)) items := by
  unfold ArrayAnswerable
  by_cases hprints : StructurePrints setting items
  · rw [← StructurePrints, and_iff_right hprints]
    rcases parseOutcome hvalid (setting.mode (some self.validationMode)) hprints with
      ⟨hrejected, v, hfull⟩ | ⟨hrejected, hreads, envelope, hfull, htype, haction, hpayload⟩ |
        ⟨hrejected, hreads, e, hfull⟩
    · exact iff_of_true (answered_of_validation hadmitted hworks hsize (hparse.trans hfull) w) (.inl hrejected)
    · rw [answered_iff_of_parsed hadmitted hworks hsize (hparse.trans hfull) w, htype, haction, hpayload,
        or_iff_right hrejected, and_iff_right hreads.1, and_iff_right hreads.2]
    · exact iff_of_false (not_answered_of_builtin hsize (hparse.trans hfull) w)
        fun h => h.elim hrejected fun h => hreads ⟨h.1, h.2.1⟩
  · exact iff_of_false
      (not_answered_of_builtin hsize (hparse.trans (parseFull_of_not_prints hvalid _ hprints)) w) fun h => hprints h.1

/-- A text that cannot be decoded, for another reason than its syntax. -/
theorem parseMessage_of_error {e : PyError} (hloads : loadsWithin setting.decodeDepth rawMessage = .error e)
    (hne : e ≠ .jsonDecodeError) (mode : Option ValidationMode) : parseMessage setting rawMessage mode = .error (.builtin e) := by
  rw [parseMessage, hloads]
  cases e with
  | jsonDecodeError => exact absurd rfl hne
  | typeError => rfl
  | attributeError => rfl
  | keyError => rfl
  | indexError => rfl
  | overflowError => rfl
  | valueError => rfl
  | recursionError => rfl

/-- A value that is no list has no seven elements. -/
theorem parseMessage_of_not_arr {v : Json} (hloads : loadsWithin setting.decodeDepth rawMessage = .ok v)
    (harr : ∀ items, v ≠ .arr items) (mode : Option ValidationMode) : parseMessage setting rawMessage mode = parseShort v (setting.mode mode) := by
  rw [parseMessage, hloads]
  cases v with
  | arr items => exact absurd rfl (harr items)
  | null => rfl
  | bool b => rfl
  | int n => rfl
  | float x => rfl
  | str s => rfl
  | obj fields => rfl

theorem answered_iff_of_value (hvalid : setting.OnlyValidationErrors) (hadmitted : c.refusal = none)
    (hworks : c.Works) (hsize : rawMessage.utf8ByteSize ≤ self.maxMessageSize) {v : Json}
    (hloads : loadsWithin setting.decodeDepth rawMessage = .ok v) (w : World) :
    Answered setting self c rawMessage w ↔
      ValueAnswerable setting self c (setting.mode (some self.validationMode)) v := by
  have hshort : (∀ items, v ≠ .arr items) → parseMessage setting rawMessage (some self.validationMode) =
      parseShort v (setting.mode (some self.validationMode)) := fun harr =>
    parseMessage_of_not_arr hloads harr (some self.validationMode)
  cases v with
  | arr items =>
    by_cases hlength : items.length < 7
    · refine iff_of_true (answered_of_short hadmitted hworks hsize (.inl ⟨items, rfl, hlength⟩) ?_ w) (.inl hlength)
      rw [parseMessage, hloads]
      exact if_pos hlength
    · have hparse : parseMessage setting rawMessage (some self.validationMode) =
          parseFull setting items (setting.mode (some self.validationMode)) := by
        rw [parseMessage, hloads]
        exact if_neg hlength
      rw [answered_iff_of_array hvalid hadmitted hworks hsize hparse]
      exact (or_iff_right hlength).symm
  | str s =>
    exact iff_of_true (answered_of_short hadmitted hworks hsize (.inr (.inl ⟨s, rfl⟩)) (hshort nofun) w) trivial
  | obj fields =>
    cases fields with
    | nil => exact iff_of_true (answered_of_short hadmitted hworks hsize (.inr (.inr rfl)) (hshort nofun) w) trivial
    | cons p fields =>
      exact answered_iff_of_unindexed (v := .obj (p :: fields)) hadmitted hworks hsize nofun nofun nofun
        (hshort nofun) w
  | null => exact answered_iff_of_unindexed (v := .null) hadmitted hworks hsize nofun nofun nofun (hshort nofun) w
  | bool b => exact answered_iff_of_unindexed (v := .bool b) hadmitted hworks hsize nofun nofun nofun (hshort nofun) w
  | int n => exact answered_iff_of_unindexed (v := .int n) hadmitted hworks hsize nofun nofun nofun (hshort nofun) w
  | float x => exact answered_iff_of_unindexed (v := .float x) hadmitted hworks hsize nofun nofun nofun (hshort nofun) w

def softSetting : Setting where
  production := false
  defaultMode := .soft
  decodeDepth := 9000
  copyDepth := 490
  schemas := Dict.empty
  validate := fun _ _ => .ok ()
  str := fun v => match v with
    | .str s => s
    | _ => []
  decodeErrorText := fun _ => []
  fromisoformat := fun _ => none

def softHandler : VDV463Handler where
  presystemId := py "bms-1"
  depotId := none
  dbPool := false
  validationMode := .soft
  maxMessageSize := 1048576

/-- Every frame is admitted, every id resolves and every call succeeds. -/
def allSucceeds : Circumstances where
  refusal := none
  vehicle := fun _ => some (py "vehicle-7")
  chargingPoint := fun _ => none
  fails := fun _ => false

theorem softSetting_onlyValidationErrors : softSetting.OnlyValidationErrors := fun _ _ => nofun

def messageText (items : String) : String :=
  "[1, \"BMS\", \"bms-1\", \"2025-03-01T04:00:00Z\", \"m1\", \"ProvideChargingRequests\", " ++
    "\x7b\"chargingRequestList\": [" ++ items ++ "]\x7d]"

def messageArray (items : List Json) : List Json :=
  [.int 1, .str (py "BMS"), .str (py "bms-1"), .str (py "2025-03-01T04:00:00Z"), .str (py "m1"),
    .str (py "ProvideChargingRequests"), .obj [(py "chargingRequestList", .arr items)]]

theorem toList_messageText (items : String) : (messageText items).toList =
    "[1, \"BMS\", \"bms-1\", \"2025-03-01T04:00:00Z\", \"m1\", \"ProvideChargingRequests\", ".toList ++
      "\x7b\"chargingRequestList\": [".toList ++ items.toList ++ "]\x7d]".toList := by
  unfold messageText
  exact String.toList_append.trans (congrArg (· ++ _) (String.toList_append.trans (congrArg (· ++ _) String.toList_append)))

end FavoniusBackend.Vdv463
