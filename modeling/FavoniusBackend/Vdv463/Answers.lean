import FavoniusBackend.Vdv463.ItemReading

/-!
# Which frames are answered

A frame that the rate limiter admits gets a reply unless an exception reaches `_handle_message`, which only logs it.  The
hard mode protects the first layer alone; in the soft mode any value gets as far as the loops over the list.

`answered_iff` says on the decoded frame when it is answered, while the socket and the database work: `Answerable` goes
through the places where something is indexed, iterated, hashed, compared or converted without a check.
-/

namespace FavoniusBackend.Vdv463

open Lib
open Lib.PyJson
open Lib.JsonText
open Lib.Stateful

variable (setting : Setting) (self : VDV463Handler) (c : Circumstances)

/-! ## The property -/

/-- A frame is answered: a reply goes out, unless it is a confirmation, an error or of no known type; decoding raises
nothing but a validation error; and every item of the list is taken up, unless a request id comes twice. -/
structure Answered (rawMessage : String) (w : World) : Prop where
  reply : w.sent.length < (exec (handleMessage setting self c rawMessage) w).2.sent.length ∨
    ∃ envelope, parseMessage setting rawMessage (some self.validationMode) = .ok envelope ∧
      envelope.messageType.same (.int 1) = false
  parse : rawMessage.utf8ByteSize ≤ self.maxMessageSize →
    ∀ e, parseMessage setting rawMessage (some self.validationMode) = .error e → ∃ v, e = .validation v
  items : rawMessage.utf8ByteSize ≤ self.maxMessageSize → ∀ envelope items,
    parseMessage setting rawMessage (some self.validationMode) = .ok envelope →
    envelope.messageType.same (.int 1) = true → envelope.messageAction = .str (py "ProvideChargingRequests") →
    chargingRequestList envelope.payload = .ok items → (∀ crid, duplicateRequestId [] items ≠ .ok (some crid)) →
    (exec (handleMessage setting self c rawMessage) w).2.begun = w.begun ++ items

/-! ## The condition -/

def ListReads (payload : Json) : Prop :=
  ∃ fields items, payload = .obj fields ∧ (fieldOr fields "chargingRequestList" (.arr [])).iter = .ok items

def idOf (fields : List (PyStr × Json)) : Json := fieldOr fields "chargingRequestId" .null

def IdReads (item : Json) : Prop := ∃ fields, item = .obj fields ∧ ((idOf fields).truthy → (idOf fields).hashable)

def trueId : Json → Option Json
  | .obj fields => if (idOf fields).truthy then some (idOf fields) else none
  | _ => none

def seenIds (items : List Json) : List Json := items.filterMap trueId

def RepeatsId (items : List Json) : Prop :=
  ∃ before fields after, items = before ++ .obj fields :: after ∧ (∀ x ∈ before, IdReads x) ∧
    (idOf fields).truthy ∧ (idOf fields).hashable ∧ ∃ id ∈ seenIds before, (idOf fields).same id

/-- An error goes out for an item: its times are out of order, or its vehicle or charging point does not resolve. -/
def IsRefused (i : ℕ) (item : Json) : Prop :=
  ∃ validationStatus req, parseChargingRequestItem item validationStatus = .ok req ∧
    (invalidTimeWindow req = .ok true ∨ invalidTimeWindow req = .ok false ∧
      (c.vehicle i = none ∨ (req.chargingPointId.truthy ∧ self.depot.isSome) ∧ c.chargingPoint i = none))

def TurnsAnswered (items : List Json) : Prop :=
  (∀ fields, .obj fields ∈ items → ¬ RaisesInTurn fields) ∨
    ∃ before fields, items = before ++ [.obj fields] ∧ (∀ fields', .obj fields' ∈ before → ¬ RaisesInTurn fields') ∧
      ∃ i item, before[i]? = some item ∧ IsRefused self c i item

def ItemsAnswered (items : List Json) : Prop :=
  RepeatsId items ∨ (∀ x ∈ items, IdReads x) ∧ TurnsAnswered self c items

/-- The value breaks the schema, and what is broken can be printed. -/
def Breaks (v s : Json) : Prop :=
  ∃ e, setting.validate v s = .error (.validationError e) ∧ e.text.isSome

/-- What the value breaks of the schema, if anything, can be printed. -/
def Prints (v s : Json) : Prop :=
  ∀ e, setting.validate v s = .error (.validationError e) → e.text.isSome

/-- The schema of the array does not accept it, or is not loaded. -/
def RejectedByStructure (items : List Json) : Prop :=
  ∀ s, setting.schema (py "MessageStructure") = some s → Breaks setting (.arr items) s

def RejectedByPayload (payload action : Json) : Prop :=
  ∀ s, setting.schema (setting.str action ++ py "Request") = some s →
    ∃ v, checkedPayload setting payload action = .ok v ∧ Breaks setting v s

/-- The copy of the payload for its schema is made and the loop over it goes through, or they are not come to. -/
def PayloadLoops (payload action : Json) : Prop :=
  action = .str (py "ProvideChargingRequests") →
    (setting.schema (setting.str action ++ py "Request")).isSome →
    payload.height ≤ setting.copyDepth ∧ ListReads payload

def PayloadPrints (mode : ValidationMode) (payload action : Json) : Prop :=
  mode = .hard → ∀ s v, setting.schema (setting.str action ++ py "Request") = some s →
    checkedPayload setting payload action = .ok v → Prints setting v s

def RejectedArray (mode : ValidationMode) (message : List Json) : Prop :=
  mode = .hard ∧ (RejectedByStructure setting message ∨
    RejectedByPayload setting (message.getD 6 .null) (message.getD 5 .null))

/-- An array of seven elements or more: what is wrong with it can be printed, and the hard mode rejects it; or its
payload can be prepared, and if it is a request with charging requests, its list can be read and its items are
answered. -/
def ArrayAnswerable (mode : ValidationMode) (message : List Json) : Prop :=
  (∀ s, setting.schema (py "MessageStructure") = some s → Prints setting (.arr message) s) ∧
    (RejectedArray setting mode message ∨
      PayloadLoops setting (message.getD 6 .null) (message.getD 5 .null) ∧
        PayloadPrints setting mode (message.getD 6 .null) (message.getD 5 .null) ∧
        ((message.getD 0 .null).same (.int 1) = true →
          message.getD 5 .null = .str (py "ProvideChargingRequests") →
          ∃ items, chargingRequestList (message.getD 6 .null) = .ok items ∧ ItemsAnswered self c items))

/-- A decoded frame. -/
def ValueAnswerable (mode : ValidationMode) : Json → Prop
  | .arr message => message.length < 7 ∨ ArrayAnswerable setting self c mode message
  | .str _ | .obj [] => True
  | _ => mode = .hard

/-- A frame: too large, no JSON, or answerable as the value that it decodes to. -/
def Answerable (rawMessage : String) : Prop :=
  self.maxMessageSize < rawMessage.utf8ByteSize ∨
    match loadsWithin setting.decodeDepth rawMessage with
    | .error e => e = .jsonDecodeError
    | .ok v => ValueAnswerable setting self c (setting.mode (some self.validationMode)) v

/-! ## The list and its ids -/

section Lists

theorem normalizePayload_iff {copyDepth : ℕ} {payload : Json} :
    (∃ v, normalizePayload copyDepth payload = .ok v) ↔ payload.height ≤ copyDepth ∧ ListReads payload := by
  unfold normalizePayload deepcopy
  by_cases hheight : payload.height ≤ copyDepth
  · rw [if_pos hheight, ok_bind, and_iff_right hheight]
    constructor
    · rintro ⟨v, h⟩
      cases payload with
      | obj fields =>
        rw [get_obj, ok_bind] at h
        rcases hiter : (fieldOr fields "chargingRequestList" (.arr [])).iter with e | items
        · rw [hiter] at h
          cases h
        · exact ⟨fields, items, rfl, hiter⟩
      | null => cases h
      | bool b => cases h
      | int n => cases h
      | float x => cases h
      | str s => cases h
      | arr items => cases h
    · rintro ⟨fields, items, rfl, h⟩
      rw [get_obj, ok_bind, h]
      exact ⟨_, rfl⟩
  · rw [if_neg hheight]
    refine iff_of_false ?_ fun h => hheight h.1
    rintro ⟨v, h⟩
    cases h

/-- `RepeatsId`, when some ids were seen already. -/
def RepeatsFrom (seen items : List Json) : Prop :=
  ∃ before fields after, items = before ++ .obj fields :: after ∧ (∀ x ∈ before, IdReads x) ∧
    (idOf fields).truthy ∧ (idOf fields).hashable ∧
      ((∃ id ∈ seenIds before, (idOf fields).same id) ∨ ∃ id ∈ seen, (idOf fields).same id)

theorem repeatsFrom_nil_iff {items : List Json} : RepeatsFrom [] items ↔ RepeatsId items := by
  simp [RepeatsFrom, RepeatsId]

theorem seenIds_cons_of_false {fields : List (PyStr × Json)} (h : ¬ (idOf fields).truthy) (items : List Json) :
    seenIds (.obj fields :: items) = seenIds items := by
  have hnone : trueId (.obj fields) = none := if_neg h
  rw [seenIds, List.filterMap_cons_none hnone]
  rfl

theorem seenIds_cons_of_true {fields : List (PyStr × Json)} (h : (idOf fields).truthy) (items : List Json) :
    seenIds (.obj fields :: items) = idOf fields :: seenIds items := by
  have hsome : trueId (.obj fields) = some (idOf fields) := if_pos h
  rw [seenIds, List.filterMap_cons_some hsome]
  rfl

/-- One step of the loop: the item comes a second time, or it is seen and the loop goes on. -/
theorem repeatsFrom_cons {seen rest : List Json} {fields : List (PyStr × Json)} :
    RepeatsFrom seen (.obj fields :: rest) ↔
      (idOf fields).truthy ∧ (idOf fields).hashable ∧ (∃ id ∈ seen, (idOf fields).same id) ∨
      IdReads (.obj fields) ∧
        RepeatsFrom (if (idOf fields).truthy then idOf fields :: seen else seen) rest := by
  constructor
  · rintro ⟨before, fields', after, heq, hbefore, htrue, hhash, hrepeat⟩
    cases before with
    | nil =>
      obtain rfl := Json.obj.inj (List.cons.inj heq).1
      rcases hrepeat with ⟨id, hid, -⟩ | hseen
      · exact absurd hid List.not_mem_nil
      · exact .inl ⟨htrue, hhash, hseen⟩
    | cons x before =>
      obtain ⟨rfl, rfl⟩ := List.cons.inj heq
      refine .inr ⟨hbefore _ List.mem_cons_self, before, fields', after, rfl,
        fun x hx => hbefore x (List.mem_cons_of_mem _ hx), htrue, hhash, ?_⟩
      by_cases hid : (idOf fields).truthy
      · rw [seenIds_cons_of_true hid] at hrepeat
        rw [if_pos hid]
        rcases hrepeat with ⟨id, hmem, hsame⟩ | ⟨id, hmem, hsame⟩
        · rcases List.mem_cons.mp hmem with rfl | hmem
          · exact .inr ⟨_, List.mem_cons_self, hsame⟩
          · exact .inl ⟨id, hmem, hsame⟩
        · exact .inr ⟨id, List.mem_cons_of_mem _ hmem, hsame⟩
      · rw [seenIds_cons_of_false hid] at hrepeat
        rw [if_neg hid]
        exact hrepeat
  · rintro (⟨htrue, hhash, hseen⟩ | ⟨hreads, before, fields', after, rfl, hbefore, htrue, hhash, hrepeat⟩)
    · exact ⟨[], fields, rest, rfl, by simp, htrue, hhash, .inr hseen⟩
    · refine ⟨.obj fields :: before, fields', after, rfl, ?_, htrue, hhash, ?_⟩
      · intro x hx
        rcases List.mem_cons.mp hx with rfl | hx
        · exact hreads
        · exact hbefore x hx
      · by_cases hid : (idOf fields).truthy
        · rw [if_pos hid] at hrepeat
          rw [seenIds_cons_of_true hid]
          rcases hrepeat with ⟨id, hmem, hsame⟩ | ⟨id, hmem, hsame⟩
          · exact .inl ⟨id, List.mem_cons_of_mem _ hmem, hsame⟩
          · rcases List.mem_cons.mp hmem with rfl | hmem
            · exact .inl ⟨_, List.mem_cons_self, hsame⟩
            · exact .inr ⟨id, hmem, hsame⟩
        · rw [if_neg hid] at hrepeat
          rw [seenIds_cons_of_false hid]
          exact hrepeat

theorem duplicateRequestId_cons (seen rest : List Json) (fields : List (PyStr × Json)) :
    duplicateRequestId seen (.obj fields :: rest) =
      if (idOf fields).truthy then do
        if ← (idOf fields).memSet seen then return some (idOf fields) else duplicateRequestId (idOf fields :: seen) rest
      else duplicateRequestId seen rest := rfl

theorem duplicateRequestId_cons_of_not_obj {item : Json} (h : ∀ fields, item ≠ .obj fields) (seen rest : List Json) :
    duplicateRequestId seen (item :: rest) = .error .attributeError := by
  cases item with
  | obj fields => exact absurd rfl (h fields)
  | null => rfl
  | bool b => rfl
  | int n => rfl
  | float x => rfl
  | str s => rfl
  | arr items => rfl

theorem memSet_of_hashable {id : Json} (h : id.hashable) (seen : List Json) :
    id.memSet seen = .ok (seen.any (id.same)) := if_pos h

theorem duplicateRequestId_cases (seen items : List Json) :
    (∃ crid, duplicateRequestId seen items = .ok (some crid)) ∧ RepeatsFrom seen items ∨
      (duplicateRequestId seen items = .ok none ∧ ∀ x ∈ items, IdReads x) ∧ ¬ RepeatsFrom seen items ∨
      ((∃ e, duplicateRequestId seen items = .error e) ∧ ¬ ∀ x ∈ items, IdReads x) ∧ ¬ RepeatsFrom seen items := by
  induction items generalizing seen with
  | nil =>
    refine .inr (.inl ⟨⟨rfl, by simp⟩, ?_⟩)
    rintro ⟨before, fields, after, heq, -⟩
    exact absurd heq (by simp)
  | cons item rest ih =>
    by_cases hreads : IdReads item
    · obtain ⟨fields, rfl, hhash⟩ := hreads
      have hreads : IdReads (.obj fields) := ⟨fields, rfl, hhash⟩
      -- the rest of the loop, with what is seen after this item
      have hrest : ∀ seen', duplicateRequestId seen (.obj fields :: rest) = duplicateRequestId seen' rest →
          (RepeatsFrom seen (.obj fields :: rest) ↔ RepeatsFrom seen' rest) →
          (∃ crid, duplicateRequestId seen (.obj fields :: rest) = .ok (some crid)) ∧
              RepeatsFrom seen (.obj fields :: rest) ∨
            (duplicateRequestId seen (.obj fields :: rest) = .ok none ∧ ∀ x ∈ Json.obj fields :: rest, IdReads x) ∧
              ¬ RepeatsFrom seen (.obj fields :: rest) ∨
            ((∃ e, duplicateRequestId seen (.obj fields :: rest) = .error e) ∧
              ¬ ∀ x ∈ Json.obj fields :: rest, IdReads x) ∧ ¬ RepeatsFrom seen (.obj fields :: rest) := by
        intro seen' hdup hrepeats
        rw [hdup, hrepeats, List.forall_mem_cons, and_iff_right hreads]
        exact ih seen'
      by_cases hid : (idOf fields).truthy
      · have hstep : duplicateRequestId seen (.obj fields :: rest) =
            if seen.any (idOf fields).same then .ok (some (idOf fields))
            else duplicateRequestId (idOf fields :: seen) rest := by
          rw [duplicateRequestId_cons, if_pos hid, memSet_of_hashable (hhash hid)]
          rfl
        by_cases hseen : ∃ id ∈ seen, (idOf fields).same id
        · refine .inl ⟨⟨idOf fields, ?_⟩, repeatsFrom_cons.mpr (.inl ⟨hid, hhash hid, hseen⟩)⟩
          rw [hstep, if_pos (List.any_eq_true.mpr hseen)]
        · refine hrest (idOf fields :: seen) ?_ ?_
          · rw [hstep, if_neg fun h => hseen (List.any_eq_true.mp h)]
          · rw [repeatsFrom_cons, if_pos hid]
            simp [hreads, hseen]
      · refine hrest seen ?_ ?_
        · rw [duplicateRequestId_cons, if_neg hid]
        · rw [repeatsFrom_cons, if_neg hid]
          simp [hreads, hid]
    · refine .inr (.inr ⟨⟨?_, fun h => hreads (h item List.mem_cons_self)⟩, ?_⟩)
      · by_cases hobj : ∃ fields, item = .obj fields
        · obtain ⟨fields, rfl⟩ := hobj
          have hid : (idOf fields).truthy := by
            by_contra h
            exact hreads ⟨fields, rfl, fun htrue => absurd htrue h⟩
          have hhash : ¬ (idOf fields).hashable := fun h => hreads ⟨fields, rfl, fun _ => h⟩
          refine ⟨.typeError, ?_⟩
          rw [duplicateRequestId_cons, if_pos hid, Json.memSet, if_neg hhash]
          rfl
        · exact ⟨_, duplicateRequestId_cons_of_not_obj (fun fields h => hobj ⟨fields, h⟩) seen rest⟩
      · rintro ⟨before, fields, after, heq, hbefore, htrue, hhash, -⟩
        cases before with
        | nil => exact hreads ((List.cons.inj heq).1 ▸ ⟨fields, rfl, fun _ => hhash⟩)
        | cons x before => exact hreads ((List.cons.inj heq).1 ▸ hbefore x List.mem_cons_self)

end Lists

end FavoniusBackend.Vdv463
