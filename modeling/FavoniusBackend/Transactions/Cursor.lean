import FavoniusBackend.Lib.Base64
import FavoniusBackend.Lib.DateTime
import FavoniusBackend.Lib.JsonWrite

/-!
# The cursor of the transactions

`_encode_transaction_cursor` and `_decode_transaction_cursor` of `api/main.py`.  The decoder reads microseconds as well, but
the encoder writes the start time to the second: a cursor gives back the second that its row starts in
(`decode_cursorText`).
-/

namespace FavoniusBackend.Transactions

open Lib
open Lib.PyJson
open Lib.DateTime

/-- What a request for transactions fails with. -/
inductive Failure where
  /-- Status 400. -/
  | badRequest (detail : String)
  /-- An exception that is not caught. -/
  | unhandled (e : PyError)
  deriving DecidableEq

/-- `str.encode("utf-8")`. -/
def utf8 (cs : List Char) : List UInt8 := (String.ofList cs).toByteArray.data.toList

def cursorText (padsYear : Bool) (startedAtUtc : Wall) (sessionId : List Char) : List Char :=
  Base64.encode (utf8 (JsonText.dumps
    [("startedAt".toList, strftime padsYear secondsFormat startedAtUtc), ("sessionId".toList, sessionId)]))

/-- `_encode_transaction_cursor`; `astimezone` may raise. -/
def encodeTransactionCursor (padsYear : Bool) (startedAt : DateTime) (sessionId : List Char) : Except PyError (List Char) :=
  match startedAt.toUtc with
  | some startedAtUtc => .ok (cursorText padsYear startedAtUtc sessionId)
  | none => .error .overflowError

def cursorPayload (value : List Char) : Except PyError Json :=
  if value.all fun c => decide (c.toNat < 128) then
    match (Base64.decode value).bind fun bytes => String.fromUTF8? ⟨bytes.toArray⟩ with
    | some decoded => JsonText.loads decoded
    | none => .error .valueError
  else .error .valueError

/-- `payload[key]`. -/
def subscript (payload : Json) (key : String) : Except PyError Json :=
  match payload with
  | .obj fields =>
    match Json.lookup fields (py key) with
    | some v => .ok v
    | none => .error .keyError
  | _ => .error .typeError

/-- The characters of a `str`, unless it has a lone surrogate. -/
def chars (s : PyStr) : Option (List Char) := s.mapM fun n => if n.isValidChar then some (Char.ofNat n) else none

/-- The two calls of `strptime`. -/
def parseStartedAt : Json → Except PyError Wall
  | .str s =>
    match (chars s).bind fun cs => (strptime microsFormat cs).orElse fun _ => strptime secondsFormat cs with
    | some w => .ok w
    | none => .error .valueError
  | _ => .error .typeError

/-- `UUID(session_id)`, with the text that is returned afterwards. -/
def parseSessionId : Json → Except PyError (List Char)
  | .str s =>
    match (chars s).filter fun cs => (Uuid.parse cs).isSome with
    | some cs => .ok cs
    | none => .error .valueError
  | .null => .error .typeError
  | _ => .error .attributeError

/-- The body of the `try`. -/
def readCursor (value : List Char) : Except PyError (DateTime × List Char) := do
  let payload ← cursorPayload value
  let startedAt ← subscript payload "startedAt"
  let sessionId ← subscript payload "sessionId"
  let startedAt ← parseStartedAt startedAt
  let sessionId ← parseSessionId sessionId
  return (utc startedAt, sessionId)

def decodeTransactionCursor (value : List Char) : Except Failure (DateTime × List Char) :=
  match readCursor value with
  | .ok result => .ok result
  | .error e =>
    if e ∈ [PyError.keyError, .typeError, .valueError, .jsonDecodeError] then .error (.badRequest "Invalid cursor")
    else .error (.unhandled e)

/-! ## Reading what was written -/

theorem chars_map (cs : List Char) : chars (cs.map Char.toNat) = some cs := by
  unfold chars
  induction cs with
  | nil => rfl
  | cons c cs ih =>
    have hvalid : c.toNat.isValidChar := c.valid
    rw [List.map_cons, List.mapM_cons, if_pos hvalid, Char.ofNat_toNat, ih]
    rfl

theorem fromUTF8?_utf8 (cs : List Char) : String.fromUTF8? ⟨(utf8 cs).toArray⟩ = some (String.ofList cs) := by
  have hbytes : (⟨(utf8 cs).toArray⟩ : ByteArray) = (String.ofList cs).toByteArray := by
    unfold utf8
    rw [Array.toArray_toList]
  unfold String.fromUTF8?
  rw [hbytes, dif_pos (String.ofList cs).isValidUTF8]
  rfl

theorem cursorText_ne_nil (padsYear : Bool) (w : Wall) (id : List Char) : cursorText padsYear w id ≠ [] := by
  refine Base64.encode_ne_nil fun hnil => ?_
  have hempty : some (String.ofList []) = some (String.ofList (JsonText.dumps _)) :=
    (fromUTF8?_utf8 []).symm.trans ((congrArg (fun bytes : List UInt8 => String.fromUTF8? ⟨bytes.toArray⟩)
      hnil.symm).trans (fromUTF8?_utf8 _))
  exact List.cons_ne_nil _ _ (String.ofList_injective (Option.some.inj hempty)).symm

theorem plain_digitChar {d : ℕ} (h : d < 16) : JsonText.Plain (Nat.digitChar d) := by
  have hall : ∀ d < 16, JsonText.Plain (Nat.digitChar d) := by decide
  exact hall d h

theorem plain_strftime {padsYear : Bool} {w : Wall} {c : Char} (hc : c ∈ strftime padsYear secondsFormat w) :
    JsonText.Plain c := by
  rcases mem_strftime hc with ⟨d, hd, rfl⟩ | hlit
  · exact plain_digitChar (hd.trans (by decide))
  · exact JsonText.plain_of_all (show (['-', 'T', ':', 'Z'].all fun c => decide (JsonText.Plain c)) = true by decide) c hlit

theorem plain_uuid {u : Uuid} {c : Char} (hc : c ∈ u.text) : JsonText.Plain c := by
  rcases Uuid.mem_text hc with rfl | hdigit
  · decide
  · obtain ⟨d, hd, rfl⟩ := Uuid.mem_padded (by decide) hdigit
    exact plain_digitChar hd

theorem cursorPayload_cursorText (padsYear : Bool) (w : Wall) (u : Uuid) :
    cursorPayload (cursorText padsYear w u.text) = .ok (.obj [(py "startedAt",
      .str ((strftime padsYear secondsFormat w).map Char.toNat)), (py "sessionId", .str (u.text.map Char.toNat))]) := by
  unfold cursorPayload cursorText
  rw [if_pos (List.all_eq_true.mpr fun c hc => decide_eq_true (Base64.encode_ascii _ c hc)), Base64.decode_encode, Option.bind_some, fromUTF8?_utf8]
  refine JsonText.loads_dumps ?_ ?_
  · simp only [List.forall_mem_cons, JsonText.PlainField]
    refine ⟨⟨JsonText.plain_of_all (by decide), fun c hc => plain_strftime hc⟩,
      ⟨JsonText.plain_of_all (by decide), fun c hc => plain_uuid hc⟩, nofun⟩
  · show [py "startedAt", py "sessionId"].Nodup
    decide

/-- A cursor gives the second of its time and the session back, unless the year is written in fewer than four digits. -/
theorem decode_cursorText (padsYear : Bool) (w : Wall) (u : Uuid) :
    decodeTransactionCursor (cursorText padsYear w u.text) =
      if padsYear = true ∨ 1000 ≤ year w then .ok (utc (wholeSecond w), u.text)
      else .error (.badRequest "Invalid cursor") := by
  have hsession : parseSessionId (.str (u.text.map Char.toNat)) = .ok u.text := by
    rw [parseSessionId, chars_map, Option.filter_some_pos (by rw [Uuid.parse_text]; rfl)]
  have hread : readCursor (cursorText padsYear w u.text) =
      (parseStartedAt (.str ((strftime padsYear secondsFormat w).map Char.toNat)) >>= fun startedAt =>
        .ok (utc startedAt, u.text)) := by
    unfold readCursor
    rw [cursorPayload_cursorText]
    show (parseStartedAt (.str ((strftime padsYear secondsFormat w).map Char.toNat)) >>= fun startedAt =>
      parseSessionId (.str (u.text.map Char.toNat)) >>= fun sessionId => .ok (utc startedAt, sessionId)) = _
    rw [hsession]
    rfl
  unfold decodeTransactionCursor
  rw [hread, parseStartedAt, chars_map, Option.bind_some, strptime_micros]
  by_cases hyear : padsYear = true ∨ 1000 ≤ year w
  · rw [if_pos hyear]
    simp only [Option.orElse, strptime_seconds hyear]
    rfl
  · rw [if_neg hyear]
    simp only [Option.orElse, strptime_unpadded hyear]
    rfl

end FavoniusBackend.Transactions
