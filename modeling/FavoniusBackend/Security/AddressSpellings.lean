import FavoniusBackend.Lib.MappedAddress
import FavoniusBackend.Security.GeoBlock

/-!
# Addresses of version 4 in either form

A request may spell an address of version 4 in its form of version 6.  The hops of a chain are trusted in both forms or
in neither, and so are internal addresses told; the trust of the peer and the allowlist go by the form.
-/

namespace FavoniusBackend.Security.GeoBlock

open Lib
open Lib.IpAddress (Address Network V4 V6 mapped plain isInternal)
open Security.ForwardedIp

/-! ## Spellings -/

/-- A text, or the other form of the address of version 4 that it is. -/
def Respelled (t t' : List Char) : Prop :=
  t' = t ∨ ∃ x : V4, IpAddress.parse t = some (.v4 x) ∧ IpAddress.parse t' = some (.v6 (mapped x))

/-- What two forms of an address share; a text that is no address stands for itself. -/
def identity (t : List Char) : Address ⊕ List Char :=
  match IpAddress.parse t with
  | some ip => .inl (plain ip)
  | none => .inr t

/-- The addresses of `Forwarded`, of `X-Forwarded-For` and of `X-Real-IP`. -/
def forwardedChain (r : Request) : List (List Char) :=
  parseForwardedHeaderChain (collectHeaderValues r.headers .forwarded)

def xffChain (r : Request) : List (List Char) := parseXffChain (collectHeaderValues r.headers .xForwardedFor)

def realIp (r : Request) : Option (List Char) :=
  let xRealIp := (getlist r.headers .xRealIp).headD []
  if xRealIp = [] then none else normalizeForwardedIp xRealIp

/-- Some addresses of a request, its peer or entries of its chains, are spelled in their other form. -/
structure Request.Respells (r r' : Request) : Prop where
  peer : Option.Rel Respelled r.peer r'.peer
  forwarded : List.Forall₂ Respelled (forwardedChain r) (forwardedChain r')
  xff : List.Forall₂ Respelled (xffChain r) (xffChain r')
  realIp : Option.Rel Respelled (realIp r) (realIp r')

/-- The reader answers alike for both forms of an address. -/
def AnswersAlike (g : GeoBlockChecker) : Prop :=
  ∀ country ∈ g.reader, ∀ t t', identity t = identity t' → country t = country t'

def Request.named (trust : Trust) (r : Request) : Option (List Char) := extractForwardedIp trust r.headers

/-- The address that a request is judged by: the peer, or, behind a peer that is a trusted proxy, the one that the
headers name. -/
inductive Judged (trust : Trust) (r : Request) : List Char → Prop
  | peer (p : List Char) (hpeer : r.peer = some p) (hne : p ≠ [])
      (h : isTrustedProxy trust p = false ∨ r.named trust = none) : Judged trust r p
  | named (p e : List Char) (hpeer : r.peer = some p) (hne : p ≠ []) (htrusted : isTrustedProxy trust p = true)
      (h : r.named trust = some e) : Judged trust r e

/-- Two spellings of a request have the same client, and are blocked alike. -/
structure SpellingFree (g : GeoBlockChecker) (trust : Trust) (r r' : Request) : Prop where
  client : (r.client trust).map identity = (r'.client trust).map identity
  blocked : blocks g trust r = blocks g trust r'

/-- The peer is trusted in both spellings or in neither, or the headers name no other address; and the address that is
judged is in the allowlist in both spellings or in neither, or it is not blocked anyway. -/
structure SpelledAlike (g : GeoBlockChecker) (trust : Trust) (r r' : Request) : Prop where
  peer : ∀ p ∈ r.peer, ∀ p' ∈ r'.peer,
    isTrustedProxy trust p = isTrustedProxy trust p' ∨ ∀ e ∈ r.named trust, identity e = identity p
  judged : ∀ c, Judged trust r c → ∀ c', Judged trust r' c' →
    g.isAllowlisted c = g.isAllowlisted c' ∨ g.unlisted c = false

/-! ## The named address -/

theorem Respelled.identity_eq {t t' : List Char} (h : Respelled t t') : identity t = identity t' := by
  rcases h with rfl | ⟨x, hx, hx'⟩
  · rfl
  · rw [identity, identity, hx, hx']
    dsimp only
    rw [IpAddress.plain_mapped]
    rfl

theorem Respelled.nil_iff {t t' : List Char} (h : Respelled t t') : t = [] ↔ t' = [] := by
  rcases h with rfl | ⟨x, hx, hx'⟩
  · exact Iff.rfl
  · have hnil : IpAddress.parse [] = none := by decide
    constructor
    · rintro rfl
      cases hnil.symm.trans hx
    · rintro rfl
      cases hnil.symm.trans hx'

theorem isTrustedProxyEntry_respelled (trust : Trust) {t t' : List Char} (h : Respelled t t') :
    isTrustedProxyEntry trust t = isTrustedProxyEntry trust t' := by
  rcases h with rfl | ⟨x, hx, hx'⟩
  · rfl
  · rw [isTrustedProxyEntry, isTrustedProxyEntry, hx, hx']
    show trust.hop (.v4 x) = trust.hop (.v6 (mapped x))
    rw [Trust.hop, Trust.hop, IpAddress.unmapped_mapped]
    rfl

theorem rel_find? {α : Type} {R : α → α → Prop} {p : α → Bool} (hp : ∀ a b, R a b → p a = p b) {l l' : List α}
    (h : List.Forall₂ R l l') : Option.Rel R (l.find? p) (l'.find? p) := by
  induction h with
  | nil => exact .none
  | @cons a b l l' hab _ ih =>
    rw [List.find?_cons, List.find?_cons, ← hp a b hab]
    cases p a with
    | true => exact .some hab
    | false => exact ih

theorem rel_or {α : Type} {R : α → α → Prop} {a a' b b' : Option α} (ha : Option.Rel R a a') (hb : Option.Rel R b b') :
    Option.Rel R (a.or b) (a'.or b') := by
  cases ha with
  | none => exact hb
  | some h => exact .some h

theorem rel_getD {α : Type} {R : α → α → Prop} {a a' : Option α} {b b' : α} (ha : Option.Rel R a a') (hb : R b b') :
    R (a.getD b) (a'.getD b') := by
  cases ha with
  | none => exact hb
  | some h => exact h

theorem rel_selectClientIp (trust : Trust) {chain chain' : List (List Char)} (h : List.Forall₂ Respelled chain chain') :
    Option.Rel Respelled (selectClientIp trust chain) (selectClientIp trust chain') := by
  cases h with
  | nil => exact .none
  | @cons first first' rest rest' hfirst hrest =>
    have hfind : Option.Rel Respelled
        ((first :: rest).reverse.find? fun entry => !isTrustedProxyEntry trust entry)
        ((first' :: rest').reverse.find? fun entry => !isTrustedProxyEntry trust entry) := by
      refine rel_find? ?_ (List.rel_reverse (.cons hfirst hrest))
      intro t t' ht
      rw [isTrustedProxyEntry_respelled trust ht]
    show Option.Rel Respelled
      (if !trust.given then some first
        else some (((first :: rest).reverse.find? fun entry => !isTrustedProxyEntry trust entry).getD first))
      (if !trust.given then some first'
        else some (((first' :: rest').reverse.find? fun entry => !isTrustedProxyEntry trust entry).getD first'))
    split
    · exact .some hfirst
    · refine .some ?_
      exact rel_getD hfind hfirst

theorem named_eq (trust : Trust) (r : Request) : r.named trust =
    (selectClientIp trust (forwardedChain r)).or ((selectClientIp trust (xffChain r)).or (realIp r)) := by
  unfold Request.named extractForwardedIp forwardedChain xffChain realIp
  cases selectClientIp trust (parseForwardedHeaderChain (collectHeaderValues r.headers .forwarded)) with
  | some chosen => rfl
  | none =>
    cases selectClientIp trust (parseXffChain (collectHeaderValues r.headers .xForwardedFor)) with
    | some chosen => rfl
    | none => rfl

/-- The headers name an address in both spellings or in neither. -/
theorem rel_named (trust : Trust) {r r' : Request} (h : r.Respells r') :
    Option.Rel Respelled (r.named trust) (r'.named trust) := by
  rw [named_eq, named_eq]
  exact rel_or (rel_selectClientIp trust h.forwarded) (rel_or (rel_selectClientIp trust h.xff) h.realIp)

/-! ## The client -/

theorem client_of_no_peer (trust : Trust) {r : Request} (h : r.peer = none ∨ r.peer = some []) :
    r.client trust = none := by
  unfold Request.client resolveClientIp
  rcases h with h | h
  · rw [h]
  · rw [h]
    rfl

theorem client_of_peer (trust : Trust) {r : Request} {p : List Char} (hpeer : r.peer = some p) (hne : p ≠ []) :
    r.client trust = some (if isTrustedProxy trust p then (r.named trust).getD p else p) := by
  unfold Request.client resolveClientIp
  rw [hpeer]
  dsimp only
  rw [if_neg hne]
  cases isTrustedProxy trust p with
  | true => rfl
  | false => rfl

theorem client_eq_some_iff (trust : Trust) (r : Request) (c : List Char) :
    r.client trust = some c ↔ Judged trust r c := by
  constructor
  · intro h
    by_cases hnone : r.peer = none ∨ r.peer = some []
    · rw [client_of_no_peer trust hnone] at h
      cases h
    · rw [not_or] at hnone
      obtain ⟨p, hpeer⟩ := Option.ne_none_iff_exists'.mp hnone.1
      have hne : p ≠ [] := fun hnil => hnone.2 (hnil ▸ hpeer)
      rw [client_of_peer trust hpeer hne] at h
      obtain rfl := Option.some.inj h
      by_cases htrusted : isTrustedProxy trust p = true
      · rw [if_pos htrusted]
        cases hnamed : r.named trust with
        | none => exact .peer p hpeer hne (.inr hnamed)
        | some e => exact .named p e hpeer hne htrusted hnamed
      · rw [if_neg htrusted]
        exact .peer p hpeer hne (.inl (Bool.eq_false_iff.mpr htrusted))
  · intro h
    cases h with
    | peer _ hpeer hne h =>
      rw [client_of_peer trust hpeer hne]
      rcases h with h | h
      · rw [if_neg (by simp [h])]
      · rw [h, Option.getD_none, ite_self]
    | named p _ hpeer hne htrusted h => rw [client_of_peer trust hpeer hne, if_pos htrusted, h, Option.getD_some]

theorem client_identity_of_peer (trust : Trust) {r r' : Request} (h : r.Respells r') {p p' : List Char}
    (hpeer : r.peer = some p) (hpeer' : r'.peer = some p') (hp : Respelled p p') (hne : p ≠ []) :
    (r.client trust).map identity = (r'.client trust).map identity ↔
      isTrustedProxy trust p = isTrustedProxy trust p' ∨ ∀ e ∈ r.named trust, identity e = identity p := by
  have hidentity : identity p = identity p' := hp.identity_eq
  have hnamed := rel_named trust h
  rw [client_of_peer trust hpeer hne, client_of_peer trust hpeer' (fun hnil => hne (hp.nil_iff.mpr hnil)),
    Option.map_some, Option.map_some, Option.some.injEq]
  generalize r.named trust = named, r'.named trust = named' at hnamed ⊢
  cases htrust : isTrustedProxy trust p with
  | true =>
    cases htrust' : isTrustedProxy trust p' with
    | true => exact iff_of_true (rel_getD hnamed hp).identity_eq (.inl rfl)
    | false =>
      cases hnamed with
      | none => exact iff_of_true hidentity (.inr fun _ he => nomatch he)
      | @some e e' he =>
        show identity e = identity p' ↔ _
        rw [← hidentity]
        simp
  | false =>
    cases htrust' : isTrustedProxy trust p' with
    | true =>
      cases hnamed with
      | none => exact iff_of_true hidentity (.inr fun _ he => nomatch he)
      | @some e e' he =>
        show identity p = identity e' ↔ _
        rw [← he.identity_eq]
        simp [eq_comm]
    | false => exact iff_of_true hidentity (.inl rfl)

theorem client_identity_iff (trust : Trust) {r r' : Request} (h : r.Respells r') :
    (r.client trust).map identity = (r'.client trust).map identity ↔
      ∀ p ∈ r.peer, ∀ p' ∈ r'.peer,
        isTrustedProxy trust p = isTrustedProxy trust p' ∨ ∀ e ∈ r.named trust, identity e = identity p := by
  have hrel := h.peer
  rcases hpeer : r.peer with _ | p
  · rcases hpeer' : r'.peer with _ | p'
    · rw [client_of_no_peer trust (.inl hpeer), client_of_no_peer trust (.inl hpeer')]
      exact iff_of_true rfl fun _ hp => nomatch hp
    · rw [hpeer, hpeer'] at hrel
      cases hrel
  · rcases hpeer' : r'.peer with _ | p'
    · rw [hpeer, hpeer'] at hrel
      cases hrel
    · rw [hpeer, hpeer'] at hrel
      obtain hp : Respelled p p' := by
        cases hrel with
        | some h => exact h
      by_cases hne : p = []
      · have hne' := hp.nil_iff.mp hne
        rw [client_of_no_peer trust (.inr (hne ▸ hpeer)), client_of_no_peer trust (.inr (hne' ▸ hpeer'))]
        refine iff_of_true rfl fun q hq q' hq' => .inl ?_
        rw [← Option.some.inj hq, ← Option.some.inj hq', hne, hne']
      · rw [client_identity_of_peer trust h hpeer hpeer' hp hne]
        simp

/-- Two texts of one address are both internal, or neither is. -/
theorem isPrivateOrLoopback_of_identity {t t' : List Char} (h : identity t = identity t') :
    isPrivateOrLoopback t = isPrivateOrLoopback t' := by
  have hany : ∀ t, isPrivateOrLoopback t = match identity t with
      | .inl ip => isInternal ip
      | .inr _ => false := by
    intro t
    rw [isPrivateOrLoopback, identity]
    cases IpAddress.parse t with
    | none => rfl
    | some ip => exact (IpAddress.isInternal_plain ip).symm
  rw [hany, hany, h]

theorem unlisted_of_identity {g : GeoBlockChecker} (hgeo : AnswersAlike g) {t t' : List Char}
    (h : identity t = identity t') : g.unlisted t = g.unlisted t' := by
  have hjudge : (g.judge t).blocked = (g.judge t').blocked := by
    unfold GeoBlockChecker.judge
    cases hreader : g.reader with
    | none => cases g.failClosed <;> rfl
    | some country =>
      dsimp only
      rw [hgeo country hreader t t' h]
      cases country t' with
      | notFound => cases g.failClosed <;> rfl
      | error => cases g.failClosed <;> rfl
      | found countryCode =>
        dsimp only
        split
        · rfl
        · rfl
  rw [GeoBlockChecker.unlisted_eq, GeoBlockChecker.unlisted_eq, isPrivateOrLoopback_of_identity h, hjudge]

theorem blocks_eq (g : GeoBlockChecker) {trust : Trust} {r : Request} {c : List Char} (h : r.client trust = some c) :
    blocks g trust r = (g.unlisted c && !g.isAllowlisted c) := by
  rw [blocks, h]
  exact g.blocked_checkIp c

/-- Two spellings of a request have the same client and are blocked alike exactly where the trust of the peer and the
allowlist tell them alike, or do not matter. -/
theorem spellingFree_iff (g : GeoBlockChecker) (trust : Trust) (hgeo : AnswersAlike g) {r r' : Request}
    (h : r.Respells r') : SpellingFree g trust r r' ↔ SpelledAlike g trust r r' := by
  have hiff := client_identity_iff trust h
  have hblocked : ∀ {c c'}, r.client trust = some c → r'.client trust = some c' → identity c = identity c' →
      (blocks g trust r = blocks g trust r' ↔ g.isAllowlisted c = g.isAllowlisted c' ∨ g.unlisted c = false) := by
    intro c c' hc hc' hidentity
    rw [blocks_eq g hc, blocks_eq g hc', ← unlisted_of_identity hgeo hidentity]
    cases g.unlisted c <;> cases g.isAllowlisted c <;> cases g.isAllowlisted c' <;> decide
  constructor
  · intro hfree
    refine ⟨hiff.mp hfree.client, fun c hc c' hc' => ?_⟩
    rw [← client_eq_some_iff] at hc hc'
    have hclient := hfree.client
    rw [hc, hc'] at hclient
    exact (hblocked hc hc' (Option.some.inj hclient)).mp hfree.blocked
  · intro halike
    have hclient := hiff.mpr halike.peer
    refine ⟨hclient, ?_⟩
    rcases hc : r.client trust with _ | c
    · have hc' : r'.client trust = none := by
        rw [hc] at hclient
        exact Option.map_eq_none_iff.mp hclient.symm
      rw [blocks, blocks, hc, hc']
    · rcases hc' : r'.client trust with _ | c'
      · rw [hc, hc'] at hclient
        cases hclient
      · rw [hc, hc'] at hclient
        refine (hblocked hc hc' (Option.some.inj hclient)).mpr ?_
        exact halike.judged c ((client_eq_some_iff trust r c).mp hc) c' ((client_eq_some_iff trust r' c').mp hc')

/-! ## Two requests -/

theorem Request.Respells.of_peer {p p' : List Char} (h : Respelled p p') (headers : Headers) :
    Request.Respells ⟨p, headers⟩ ⟨p', headers⟩ where
  peer := .some h
  forwarded := List.forall₂_same.mpr fun _ _ => .inl rfl
  xff := List.forall₂_same.mpr fun _ _ => .inl rfl
  realIp := by
    show Option.Rel Respelled (GeoBlock.realIp ⟨p, headers⟩) (GeoBlock.realIp ⟨p, headers⟩)
    cases GeoBlock.realIp ⟨p, headers⟩ with
    | none => exact .none
    | some t => exact .some (.inl rfl)

def blocksOne : GeoBlockChecker where
  blockedCountries := [['R', 'U']]
  reader := some fun _ => .found (some ['U', 'S'])

theorem blocksOne_answersAlike : AnswersAlike blocksOne := by
  intro country hcountry t t' _
  obtain rfl := Option.some.inj hcountry
  rfl

/-- The edge of the platform, in the shared address space, forwards a request of a client. -/
def forwardedBy (peer xff : String) : Request := ⟨some peer.toList, [(.xForwardedFor, xff.toList)]⟩

/-- The edge is a trusted proxy in one form only, and the other one is taken for the client. -/
theorem edge_taken_for_client : ¬ ∀ r r' : Request, r.Respells r' → SpellingFree blocksOne {} r r' := by
  intro h
  have hrespells : (forwardedBy "100.64.0.2" "8.8.8.8").Respells (forwardedBy "::ffff:100.64.0.2" "8.8.8.8") :=
    .of_peer (.inr ⟨⟨100, 64, 0, 2⟩, by decide +kernel, by decide +kernel⟩) _
  have hclient := (h _ _ hrespells).client
  have hdiffers : ((forwardedBy "100.64.0.2" "8.8.8.8").client {}).map identity ≠
      ((forwardedBy "::ffff:100.64.0.2" "8.8.8.8").client {}).map identity := by
    decide +kernel
  exact hdiffers hclient

/-- Behind a private proxy and the edge, a client is the same whether both are spelled in one form or in the other. -/
theorem spellingFree_behind_proxy : SpellingFree blocksOne {} (forwardedBy "10.0.0.1" "8.8.8.8, 100.64.0.7")
    (forwardedBy "::ffff:10.0.0.1" "8.8.8.8, ::ffff:100.64.0.7") := by
  refine (spellingFree_iff blocksOne {} blocksOne_answersAlike ?_).mpr ⟨?_, ?_⟩
  · have hchain : xffChain (forwardedBy "10.0.0.1" "8.8.8.8, 100.64.0.7") =
        ["8.8.8.8".toList, "100.64.0.7".toList] := by
      decide +kernel
    have hchain' : xffChain (forwardedBy "::ffff:10.0.0.1" "8.8.8.8, ::ffff:100.64.0.7") =
        ["8.8.8.8".toList, "::ffff:6440:7".toList] := by
      decide +kernel
    have hedge : Respelled "100.64.0.7".toList "::ffff:6440:7".toList :=
      .inr ⟨⟨100, 64, 0, 7⟩, by decide +kernel, by decide +kernel⟩
    refine ⟨.some (.inr ⟨⟨10, 0, 0, 1⟩, by decide +kernel, by decide +kernel⟩), .nil, ?_, .none⟩
    rw [hchain, hchain']
    exact .cons (.inl rfl) (.cons hedge .nil)
  · intro p hp p' hp'
    obtain rfl := Option.some.inj hp
    obtain rfl := Option.some.inj hp'
    exact .inl (by decide +kernel)
  · intro c _ c' _
    have hempty : ∀ t, blocksOne.isAllowlisted t = false := by
      intro t
      unfold GeoBlockChecker.isAllowlisted
      cases IpAddress.parse t with
      | none => rfl
      | some ip => rfl
    exact .inl ((hempty c).trans (hempty c').symm)

end FavoniusBackend.Security.GeoBlock
