import FavoniusBackend.Lib.Base64
import FavoniusBackend.Lib.Utf8

/-!
# Signatures of the mail provider's webhooks

A webhook comes with an id, a Unix time and a list of versioned signatures.  `verify_signature` recomputes the signature
of the id, the time and the body with the shared secret.  While the provider changes its secret it signs with both the
old and the new one and sends two signatures; the code compares the first one only.
-/

namespace FavoniusBackend.Notifications.WebhookSignature

open Lib
open Lib.PyJson Lib.PyText

/-! ## The code -/

/-- The functions of the libraries. -/
structure Crypto where
  /-- `b64decode(value, validate=True)`, with `none` for its `ValueError` and `binascii.Error`. -/
  b64decode : PyStr → Option (List UInt8)
  /-- `hmac.new(key, message, sha256).digest()`. -/
  hmacSha256 : List UInt8 → List UInt8 → List UInt8
  /-- `b64encode(data).decode()`. -/
  b64encode : List UInt8 → PyStr
  digest_length : ∀ key message, (hmacSha256 key message).length = 32
  encode_visible : ∀ data, ∀ c ∈ b64encode data, 33 ≤ c ∧ c < 127
  encode_ne_nil : ∀ data, data ≠ [] → b64encode data ≠ []

/-- The arguments of `verify_signature`, apart from the clock. -/
structure Request where
  secret : PyStr
  body : List UInt8
  signatureHeader : Option PyStr
  messageId : Option PyStr
  timestampHeader : Option PyStr

def defaultToleranceS : ℤ := 300

def given (argument : Option PyStr) : Option PyStr := argument.filter fun s => decide (s ≠ [])

def decodeSecret (crypto : Crypto) (secret : PyStr) : Option (List UInt8) :=
  crypto.b64decode (if (py "whsec_").isPrefixOf secret then secret.drop 6 else secret)

def takenSignature (token : PyStr) : Option PyStr :=
  match partition 44 token with
  | (version, some signature) => if version = py "v1" ∧ signature ≠ [] then some signature else none
  | (_, none) => none

def extractV1Signature (signatureHeader : PyStr) : Option PyStr := (split signatureHeader).findSome? takenSignature

def compareDigest (a b : PyStr) : Except PyError Bool :=
  if IsAscii a ∧ IsAscii b then .ok (decide (a = b)) else .error .typeError

def signedText (messageId : PyStr) (ts : ℤ) : PyStr := messageId ++ py "." ++ py (toString ts) ++ py "."

/-- `expected`, with the text in bytes. -/
def signatureOf (crypto : Crypto) (signingSecret text body : List UInt8) : PyStr :=
  crypto.b64encode (crypto.hmacSha256 signingSecret (text ++ body))

def verifySignature (crypto : Crypto) (request : Request) (toleranceS : ℤ) (now : ℚ) : Except PyError Bool :=
  if request.secret = [] then .ok false
  else match given request.signatureHeader with
    | none => .ok false
    | some signatureHeader =>
      match given request.messageId with
      | none => .ok false
      | some messageId =>
        match PyText.int (request.timestampHeader.getD []) with
        | .error _ => .ok false
        | .ok ts =>
          -- the subtraction takes the timestamp to a double first
          match PyFloat.ofInt ts with
          | .error e => .error e
          | .ok _ =>
            if (toleranceS : ℚ) < |now - ts| then .ok false
            else match decodeSecret crypto request.secret with
              | none => .ok false
              | some signingSecret =>
                match extractV1Signature signatureHeader with
                | none => .ok false
                | some signature =>
                  match utf8 (signedText messageId ts) with
                  | .error e => .error e
                  | .ok text => compareDigest (signatureOf crypto signingSecret text request.body) signature

/-! ## The header -/

def v1Signature (token : PyStr) : Option PyStr :=
  match partition 44 token with
  | (version, some signature) => if version = py "v1" then some signature else none
  | (_, none) => none

def v1Signatures (signatureHeader : PyStr) : List PyStr := (split signatureHeader).filterMap v1Signature

theorem takenSignature_eq (token : PyStr) :
    takenSignature token = (v1Signature token).filter fun signature => decide (signature ≠ []) := by
  unfold takenSignature v1Signature
  split
  · rename_i version signature _
    by_cases hv : version = py "v1"
    · simp only [hv, true_and, if_true, Option.filter_some, decide_eq_true_eq]
    · rw [if_neg hv, if_neg fun h => hv h.1]
      rfl
  · rfl

theorem extractV1Signature_eq (signatureHeader : PyStr) :
    extractV1Signature signatureHeader =
      (v1Signatures signatureHeader).find? fun signature => decide (signature ≠ []) := by
  unfold extractV1Signature v1Signatures
  induction split signatureHeader with
  | nil => rfl
  | cons token tokens ih =>
    rw [List.findSome?_cons, takenSignature_eq, List.filterMap_cons]
    cases hentry : v1Signature token with
    | none => exact ih
    | some signature =>
      rw [List.find?_cons]
      cases hs : decide (signature ≠ []) with
      | true => simp only [Option.filter_some, hs, if_true]
      | false => simpa only [Option.filter_some, hs, Bool.false_eq_true, if_false] using ih

theorem extractV1Signature_mem {signatureHeader signature : PyStr}
    (h : extractV1Signature signatureHeader = some signature) : signature ∈ v1Signatures signatureHeader := by
  rw [extractV1Signature_eq] at h
  exact List.mem_of_find?_eq_some h

theorem eq_nil_of_extractV1Signature {signatureHeader : PyStr} (h : extractV1Signature signatureHeader = none) :
    ∀ signature ∈ v1Signatures signatureHeader, signature = [] := by
  intro signature hmem
  rw [extractV1Signature_eq] at h
  have hnone := List.find?_eq_none.mp h signature hmem
  rw [decide_eq_true_eq, not_not] at hnone
  exact hnone

/-! ## The signature -/

variable (crypto : Crypto)

theorem signatureOf_ascii (key text body : List UInt8) : IsAscii (signatureOf crypto key text body) := by
  intro c hc
  have hvisible := crypto.encode_visible _ c hc
  omega

theorem signatureOf_ne_nil (key text body : List UInt8) : signatureOf crypto key text body ≠ [] := by
  refine crypto.encode_ne_nil _ fun hnil => ?_
  have hlength := crypto.digest_length key (text ++ body)
  rw [hnil, List.length_nil] at hlength
  omega

theorem compareDigest_signatureOf (key text body : List UInt8) (signature : PyStr) :
    compareDigest (signatureOf crypto key text body) signature =
      if IsAscii signature then .ok (decide (signatureOf crypto key text body = signature)) else .error .typeError := by
  by_cases hascii : IsAscii signature
  · rw [compareDigest, if_pos ⟨signatureOf_ascii crypto key text body, hascii⟩, if_pos hascii]
  · rw [compareDigest, if_neg (fun h => hascii h.2), if_neg hascii]

/-! ## Genuine requests -/

/-- Resend has signed the request with the secret, at a time near the clock: secret, header and id are given, and one of
the signatures of version 1 is the signature of the id, the time and the body. -/
def Genuine (request : Request) (toleranceS : ℤ) (now : ℚ) : Prop :=
  request.secret ≠ [] ∧ ∃ signatureHeader messageId ts signingSecret text,
    given request.signatureHeader = some signatureHeader ∧ given request.messageId = some messageId ∧
      PyText.int (request.timestampHeader.getD []) = .ok ts ∧ |now - ts| ≤ toleranceS ∧
      decodeSecret crypto request.secret = some signingSecret ∧ utf8 (signedText messageId ts) = .ok text ∧
      signatureOf crypto signingSecret text request.body ∈ v1Signatures signatureHeader

/-- The verification ends with an answer, and it is the right one. -/
def Exact (request : Request) (toleranceS : ℤ) (now : ℚ) : Prop :=
  ∃ answer, verifySignature crypto request toleranceS now = .ok answer ∧
    (answer = true ↔ Genuine crypto request toleranceS now)

/-- The first signature of the header can be compared with the right one, and is the right one where any is. -/
structure Decisive (request : Request) (signatureHeader messageId signature : PyStr) (ts : ℤ)
    (signingSecret : List UInt8) : Prop where
  id_encodable : Encodable messageId
  signature_ascii : IsAscii signature
  first : ∀ text, utf8 (signedText messageId ts) = .ok text →
    signatureOf crypto signingSecret text request.body ∈ v1Signatures signatureHeader →
      signature = signatureOf crypto signingSecret text request.body

/-- A timestamp is no larger than a double, and the first signature of a request that passes the checks before is
decisive. -/
def Verifiable (request : Request) (toleranceS : ℤ) (now : ℚ) : Prop :=
  request.secret ≠ [] → ∀ signatureHeader messageId ts, given request.signatureHeader = some signatureHeader →
    given request.messageId = some messageId → PyText.int (request.timestampHeader.getD []) = .ok ts →
      |ts| < PyFloat.overflow ∧ (|now - ts| ≤ toleranceS → ∀ signingSecret signature,
        decodeSecret crypto request.secret = some signingSecret → extractV1Signature signatureHeader = some signature →
          Decisive crypto request signatureHeader messageId signature ts signingSecret)

/-! ## The request as the checks leave it -/

/-- The secret, the header, the id and the time of a request that passes the first checks. -/
structure Presented (request : Request) (signatureHeader messageId : PyStr) (ts : ℤ) : Prop where
  secret_ne : request.secret ≠ []
  header_eq : given request.signatureHeader = some signatureHeader
  id_eq : given request.messageId = some messageId
  time_eq : PyText.int (request.timestampHeader.getD []) = .ok ts

variable {crypto} {request : Request} {toleranceS : ℤ} {now : ℚ} {signatureHeader messageId : PyStr} {ts : ℤ}

theorem Genuine.presented (h : Genuine crypto request toleranceS now) :
    ∃ signatureHeader messageId ts, Presented request signatureHeader messageId ts := by
  obtain ⟨hsecret, signatureHeader, messageId, ts, -, -, hheader, hid, htime, -⟩ := h
  exact ⟨signatureHeader, messageId, ts, hsecret, hheader, hid, htime⟩

theorem verifySignature_of_not_presented
    (h : ¬ ∃ signatureHeader messageId ts, Presented request signatureHeader messageId ts) :
    verifySignature crypto request toleranceS now = .ok false := by
  unfold verifySignature
  split
  · rfl
  · rename_i hsecret
    split
    · rfl
    · rename_i signatureHeader hheader
      split
      · rfl
      · rename_i messageId hid
        split
        · rfl
        · rename_i ts htime
          exact absurd ⟨signatureHeader, messageId, ts, hsecret, hheader, hid, htime⟩ h

/-- What is left of the verification after the first checks. -/
theorem verifySignature_of_presented (h : Presented request signatureHeader messageId ts) :
    verifySignature crypto request toleranceS now =
      if PyFloat.overflow ≤ |ts| then .error .overflowError
      else if (toleranceS : ℚ) < |now - ts| then .ok false
      else match decodeSecret crypto request.secret with
        | none => .ok false
        | some signingSecret =>
          match extractV1Signature signatureHeader with
          | none => .ok false
          | some signature =>
            match utf8 (signedText messageId ts) with
            | .error e => .error e
            | .ok text => compareDigest (signatureOf crypto signingSecret text request.body) signature := by
  rw [verifySignature, if_neg h.secret_ne, h.header_eq, h.id_eq, h.time_eq]
  by_cases hlarge : PyFloat.overflow ≤ |ts|
  · simp only [PyFloat.ofInt, if_pos hlarge]
  · simp only [PyFloat.ofInt, if_neg hlarge]

theorem genuine_iff_of_presented (h : Presented request signatureHeader messageId ts) :
    Genuine crypto request toleranceS now ↔ |now - ts| ≤ toleranceS ∧ ∃ signingSecret text,
      decodeSecret crypto request.secret = some signingSecret ∧ utf8 (signedText messageId ts) = .ok text ∧
        signatureOf crypto signingSecret text request.body ∈ v1Signatures signatureHeader := by
  constructor
  · rintro ⟨-, header, id, time, signingSecret, text, hheader, hid, htime, hnear, hdecode, htext, hmem⟩
    obtain rfl := Option.some.inj (h.header_eq.symm.trans hheader)
    obtain rfl := Option.some.inj (h.id_eq.symm.trans hid)
    obtain rfl := Except.ok.inj (h.time_eq.symm.trans htime)
    exact ⟨hnear, signingSecret, text, hdecode, htext, hmem⟩
  · rintro ⟨hnear, signingSecret, text, hdecode, htext, hmem⟩
    exact ⟨h.secret_ne, signatureHeader, messageId, ts, signingSecret, text, h.header_eq, h.id_eq, h.time_eq, hnear,
      hdecode, htext, hmem⟩

theorem verifiable_iff_of_presented (h : Presented request signatureHeader messageId ts) :
    Verifiable crypto request toleranceS now ↔
      |ts| < PyFloat.overflow ∧ (|now - ts| ≤ toleranceS → ∀ signingSecret signature,
        decodeSecret crypto request.secret = some signingSecret → extractV1Signature signatureHeader = some signature →
          Decisive crypto request signatureHeader messageId signature ts signingSecret) := by
  constructor
  · intro hverifiable
    exact hverifiable h.secret_ne signatureHeader messageId ts h.header_eq h.id_eq h.time_eq
  · intro hrest _ header id time hheader hid htime
    obtain rfl := Option.some.inj (h.header_eq.symm.trans hheader)
    obtain rfl := Option.some.inj (h.id_eq.symm.trans hid)
    obtain rfl := Except.ok.inj (h.time_eq.symm.trans htime)
    exact hrest

/-! ## The answer -/

theorem exact_of_false (h : verifySignature crypto request toleranceS now = .ok false)
    (hnot : ¬ Genuine crypto request toleranceS now) : Exact crypto request toleranceS now :=
  ⟨false, h, iff_of_false Bool.false_ne_true hnot⟩

theorem not_exact_of_error {e : PyError} (h : verifySignature crypto request toleranceS now = .error e) :
    ¬ Exact crypto request toleranceS now := by
  rintro ⟨answer, hanswer, -⟩
  rw [h] at hanswer
  cases hanswer

theorem exact_iff_of_answer {answer : Bool} (h : verifySignature crypto request toleranceS now = .ok answer) :
    Exact crypto request toleranceS now ↔ (answer = true ↔ Genuine crypto request toleranceS now) := by
  constructor
  · rintro ⟨other, hother, hright⟩
    obtain rfl := Except.ok.inj (h.symm.trans hother)
    exact hright
  · intro hright
    exact ⟨answer, h, hright⟩

theorem encodable_signedText_iff : Encodable (signedText messageId ts) ↔ Encodable messageId := by
  rw [signedText, encodable_append, encodable_append, encodable_append]
  constructor
  · intro h
    exact h.1.1.1
  · intro h
    exact ⟨⟨⟨h, encodable_py "."⟩, encodable_py (toString ts)⟩, encodable_py "."⟩

theorem genuine_iff_mem (h : Presented request signatureHeader messageId ts) (hnear : |now - ts| ≤ (toleranceS : ℚ))
    {signingSecret text : List UInt8} (hdecode : decodeSecret crypto request.secret = some signingSecret)
    (htext : utf8 (signedText messageId ts) = .ok text) :
    Genuine crypto request toleranceS now ↔
      signatureOf crypto signingSecret text request.body ∈ v1Signatures signatureHeader := by
  rw [genuine_iff_of_presented h]
  constructor
  · rintro ⟨-, key, text', hkey, htext', hmem⟩
    obtain rfl := Option.some.inj (hdecode.symm.trans hkey)
    obtain rfl := Except.ok.inj (htext.symm.trans htext')
    exact hmem
  · intro hmem
    exact ⟨hnear, signingSecret, text, hdecode, htext, hmem⟩

theorem exact_iff_decisive (h : Presented request signatureHeader messageId ts) (hsmall : ¬ PyFloat.overflow ≤ |ts|)
    (hnear : ¬ (toleranceS : ℚ) < |now - ts|) {signingSecret : List UInt8}
    (hdecode : decodeSecret crypto request.secret = some signingSecret) {signature : PyStr}
    (hextract : extractV1Signature signatureHeader = some signature) :
    Exact crypto request toleranceS now ↔
      Decisive crypto request signatureHeader messageId signature ts signingSecret := by
  have hrun := @verifySignature_of_presented crypto request toleranceS now _ _ _ h
  simp only [if_neg hsmall, if_neg hnear, hdecode, hextract] at hrun
  by_cases hid : Encodable messageId
  swap
  · rw [utf8_of_not_encodable fun hs => hid (encodable_signedText_iff.mp hs)] at hrun
    exact iff_of_false (not_exact_of_error hrun) fun hd => hid hd.id_encodable
  have htext := utf8_of_encodable ((@encodable_signedText_iff messageId ts).mpr hid)
  generalize (signedText messageId ts).flatMap utf8Bytes = text at htext
  simp only [htext, compareDigest_signatureOf] at hrun
  by_cases hascii : IsAscii signature
  swap
  · rw [if_neg hascii] at hrun
    exact iff_of_false (not_exact_of_error hrun) fun hd => hascii hd.signature_ascii
  rw [if_pos hascii] at hrun
  rw [exact_iff_of_answer hrun, genuine_iff_mem h (not_lt.mp hnear) hdecode htext, decide_eq_true_eq]
  constructor
  · intro hright
    refine ⟨hid, hascii, fun text' htext' hmem => ?_⟩
    obtain rfl := Except.ok.inj (htext.symm.trans htext')
    exact (hright.mpr hmem).symm
  · intro hd
    constructor
    · intro heq
      rw [heq]
      exact extractV1Signature_mem hextract
    · intro hmem
      exact (hd.first text htext hmem).symm

theorem not_genuine_of_extract (h : Presented request signatureHeader messageId ts)
    (hextract : extractV1Signature signatureHeader = none) : ¬ Genuine crypto request toleranceS now := by
  intro hgenuine
  obtain ⟨-, signingSecret, text, -, -, hmem⟩ := (genuine_iff_of_presented h).mp hgenuine
  exact signatureOf_ne_nil crypto signingSecret text request.body (eq_nil_of_extractV1Signature hextract _ hmem)

/-- **The verification ends with the right answer exactly for the verifiable requests**: the timestamp is no larger than
a double, and once secret, time and header are accepted the id has an encoding and the first signature of version 1 is
ASCII, and is the right one if any of them is. -/
theorem exact_iff_verifiable (crypto : Crypto) (request : Request) (toleranceS : ℤ) (now : ℚ) :
    Exact crypto request toleranceS now ↔ Verifiable crypto request toleranceS now := by
  by_cases hpresented : ∃ signatureHeader messageId ts, Presented request signatureHeader messageId ts
  swap
  · refine iff_of_true (exact_of_false (verifySignature_of_not_presented hpresented)
      fun hgenuine => hpresented hgenuine.presented) ?_
    intro hsecret signatureHeader messageId ts hheader hid htime
    exact absurd ⟨signatureHeader, messageId, ts, hsecret, hheader, hid, htime⟩ hpresented
  obtain ⟨signatureHeader, messageId, ts, h⟩ := hpresented
  have hrun := @verifySignature_of_presented crypto request toleranceS now _ _ _ h
  rw [verifiable_iff_of_presented h]
  by_cases hlarge : PyFloat.overflow ≤ |ts|
  · rw [if_pos hlarge] at hrun
    exact iff_of_false (not_exact_of_error hrun) fun hv => absurd hv.1 (not_lt.mpr hlarge)
  rw [if_neg hlarge] at hrun
  by_cases hfar : (toleranceS : ℚ) < |now - ts|
  · rw [if_pos hfar] at hrun
    refine iff_of_true (exact_of_false hrun fun hgenuine => ?_) ⟨not_le.mp hlarge, fun hnear => ?_⟩
    · exact absurd ((genuine_iff_of_presented h).mp hgenuine).1 (not_le.mpr hfar)
    · exact absurd hnear (not_le.mpr hfar)
  rw [if_neg hfar] at hrun
  cases hdecode : decodeSecret crypto request.secret with
  | none =>
    rw [hdecode] at hrun
    refine iff_of_true (exact_of_false hrun fun hgenuine => ?_) ⟨not_le.mp hlarge, fun _ _ _ hsome => nomatch hsome⟩
    obtain ⟨-, signingSecret, text, hsome, -⟩ := (genuine_iff_of_presented h).mp hgenuine
    rw [hdecode] at hsome
    cases hsome
  | some signingSecret =>
    cases hextract : extractV1Signature signatureHeader with
    | none =>
      simp only [hdecode, hextract] at hrun
      exact iff_of_true (exact_of_false hrun (not_genuine_of_extract h hextract))
        ⟨not_le.mp hlarge, fun _ _ _ _ hsome => nomatch hsome⟩
    | some signature =>
      rw [exact_iff_decisive h hlarge hfar hdecode hextract]
      constructor
      · intro hd
        refine ⟨not_le.mp hlarge, fun _ key other hkey hother => ?_⟩
        obtain rfl := Option.some.inj hkey
        obtain rfl := Option.some.inj hother
        exact hd
      · intro hv
        exact hv.2 (not_lt.mp hfar) signingSecret signature rfl rfl

/-! ## A change of secrets -/

theorem not_isSpace_of_visible {c : ℕ} (h : 33 ≤ c ∧ c < 127) : isSpace c = false := by
  refine decide_eq_false fun hspace => ?_
  simp only [List.mem_cons, List.not_mem_nil, or_false] at hspace
  omega

/-- The header of a request that is signed with two secrets. -/
def rotated (first second : PyStr) : PyStr := (py "v1," ++ first) ++ 32 :: (py "v1," ++ second)

theorem v1Signature_entry (signature : PyStr) : v1Signature (py "v1," ++ signature) = some signature := by
  have hparts := @partition_append 44 (py "v1") (by decide) signature
  have hentry : py "v1," ++ signature = py "v1" ++ 44 :: signature := rfl
  rw [v1Signature, hentry, hparts]
  exact if_pos rfl

theorem v1Signatures_rotated {first second : PyStr} (hfirst : ∀ c ∈ first, 33 ≤ c ∧ c < 127)
    (hsecond : ∀ c ∈ second, 33 ≤ c ∧ c < 127) : v1Signatures (rotated first second) = [first, second] := by
  have hword : ∀ s : PyStr, (∀ c ∈ s, 33 ≤ c ∧ c < 127) → ∀ c ∈ py "v1," ++ s, isSpace c = false := by
    intro s hs
    rw [List.forall_mem_append]
    exact ⟨by decide, fun c hc => not_isSpace_of_visible (hs c hc)⟩
  rw [v1Signatures, rotated, split_append_cons (hword first hfirst) (by simp [py]) (by decide),
    split_of_forall (hword second hsecond) (by simp [py])]
  simp only [List.filterMap_cons, List.filterMap_nil, v1Signature_entry]

/-- The second signature of the header is not looked at, though it is the right one. -/
theorem rotated_rejected {text signingSecret : List UInt8} {other : PyStr}
    (h : Presented request (rotated other (signatureOf crypto signingSecret text request.body)) messageId ts)
    (hsmall : |ts| < PyFloat.overflow) (hnear : |now - ts| ≤ (toleranceS : ℚ))
    (hdecode : decodeSecret crypto request.secret = some signingSecret)
    (htext : utf8 (signedText messageId ts) = .ok text) (hvisible : ∀ c ∈ other, 33 ≤ c ∧ c < 127) (hne : other ≠ [])
    (hother : other ≠ signatureOf crypto signingSecret text request.body) :
    Genuine crypto request toleranceS now ∧ verifySignature crypto request toleranceS now = .ok false := by
  have hright : ∀ c ∈ signatureOf crypto signingSecret text request.body, 33 ≤ c ∧ c < 127 := crypto.encode_visible _
  generalize hsignature : signatureOf crypto signingSecret text request.body = signature at h hright hother
  have hlist := v1Signatures_rotated hvisible hright
  have hextract : extractV1Signature (rotated other signature) = some other := by
    rw [extractV1Signature_eq, hlist]
    exact List.find?_cons_of_pos (decide_eq_true hne)
  have hascii : IsAscii other := fun c hc => (hvisible c hc).2.trans (by decide)
  constructor
  · rw [genuine_iff_mem h hnear hdecode htext, hsignature, hlist]
    exact List.mem_cons_of_mem _ List.mem_cons_self
  · rw [verifySignature_of_presented h, if_neg (not_le.mpr hsmall), if_neg (not_lt.mpr hnear)]
    simp only [hdecode, hextract, htext]
    rw [compareDigest_signatureOf, if_pos hascii, hsignature, decide_eq_false hother.symm]

/-- `b"test-signing-key"`. -/
def sampleSecret : List UInt8 := [116, 101, 115, 116, 45, 115, 105, 103, 110, 105, 110, 103, 45, 107, 101, 121]

/-- `b"msg_1.1700000000."`. -/
def sampleText : List UInt8 := [109, 115, 103, 95, 49, 46, 49, 55, 48, 48, 48, 48, 48, 48, 48, 48, 46]

def sampleDigest : List UInt8 :=
  [225, 178, 24, 60, 176, 149, 216, 234, 200, 42, 181, 132, 111, 161, 74, 188, 76, 115, 146, 51, 136, 114, 107, 3, 81,
    22, 233, 94, 253, 206, 167, 63]

def sampleCrypto : Crypto where
  b64decode s := if s = py "dGVzdC1zaWduaW5nLWtleQ==" then some sampleSecret else none
  hmacSha256 key message :=
    if key = sampleSecret ∧ message = sampleText ++ [123, 125] then sampleDigest else List.replicate 32 0
  b64encode data := (Base64.encode data).map fun c => if c = '-' then 43 else if c = '_' then 47 else c.toNat
  digest_length key message := by
    split <;> rfl
  encode_visible data c hc := by
    obtain ⟨d, hd, rfl⟩ := List.mem_map.mp hc
    exact Base64.forall_mem_encode (P := fun d => 33 ≤ (if d = '-' then 43 else if d = '_' then 47 else d.toNat) ∧
      (if d = '-' then 43 else if d = '_' then 47 else d.toNat) < 127) (by decide +kernel) (by decide +kernel) data d hd
  encode_ne_nil data hdata := fun hnil => Base64.encode_ne_nil hdata (List.map_eq_nil_iff.mp hnil)

/-- The request in the days of a change: the other secret has signed it first. -/
def sampleRequest : Request where
  secret := py "whsec_dGVzdC1zaWduaW5nLWtleQ=="
  body := [123, 125]
  signatureHeader := some (py "v1,tDfbwxzSfQRzAQExHWJMBaRmTyk5lxk0NdjCcDMvaKg= " ++
    py "v1,4bIYPLCV2OrIKrWEb6FKvExzkjOIcmsDURbpXv3Opz8=")
  messageId := some (py "msg_1")
  timestampHeader := some (py "1700000000")

theorem right_signature_rejected :
    ¬ ∀ (crypto : Crypto) (request : Request) (toleranceS : ℤ) (now : ℚ), Exact crypto request toleranceS now := by
  intro hexact
  have hpresented : Presented sampleRequest (rotated (py "tDfbwxzSfQRzAQExHWJMBaRmTyk5lxk0NdjCcDMvaKg=")
      (signatureOf sampleCrypto sampleSecret sampleText [123, 125])) (py "msg_1") 1700000000 :=
    ⟨by decide +kernel, by decide +kernel, by decide +kernel, by decide +kernel⟩
  obtain ⟨hgenuine, hrejected⟩ := @rotated_rejected sampleCrypto sampleRequest defaultToleranceS 1700000001 _ _ _ _ _
    hpresented (by decide +kernel) (by norm_num [defaultToleranceS]) (by decide +kernel) (by decide +kernel) (by decide +kernel) (by decide +kernel) (by decide +kernel)
  obtain ⟨answer, hanswer, hright⟩ := hexact sampleCrypto sampleRequest defaultToleranceS 1700000001
  rw [hrejected] at hanswer
  cases hanswer
  exact absurd (hright.mpr hgenuine) Bool.false_ne_true

end FavoniusBackend.Notifications.WebhookSignature
