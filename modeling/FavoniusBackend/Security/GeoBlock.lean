import FavoniusBackend.Security.ForwardedIp

/-!
# Geo-blocking

A request is judged by the country of its client, except that private addresses and those of the allowlist pass.  The
reader of the GeoIP database is given: it takes the text of an address, and may have no answer for it.
-/

namespace FavoniusBackend.Security.GeoBlock

open Lib
open Lib.IpAddress (Address Network)
open Security.ForwardedIp

local instance lawfulBEq_text : LawfulBEq (List Char) := inferInstance

/-- What the reader makes of a text: the code of a country, where the entry has one, `AddressNotFoundError` or another
exception. -/
inductive Answer where
  | found (countryCode : Option (List Char))
  | notFound
  | error
  deriving DecidableEq, Repr

structure GeoBlockResult where
  blocked : Bool
  reason : String
  ip : Option (List Char) := none
  countryCode : Option (List Char) := none
  deriving DecidableEq, Repr

/-- `GeoBlockChecker`; it has no reader where the package or the database is missing. -/
structure GeoBlockChecker where
  enabled : Bool := true
  failClosed : Bool := true
  blockedCountries : List (List Char) := []
  allowedNetworks : List Network := []
  reader : Option (List Char → Answer) := none

def isPrivateOrLoopback (ipStr : List Char) : Bool :=
  (IpAddress.parse ipStr).any fun ip => IpAddress.isPrivate ip || IpAddress.isLoopback ip || IpAddress.isLinkLocal ip

namespace GeoBlockChecker

def isAllowlisted (g : GeoBlockChecker) (ipStr : List Char) : Bool :=
  (IpAddress.parse ipStr).any fun ip => g.allowedNetworks.any (·.contains ip)

/-- The end of `check_ip`, where the country decides; the codes of countries are in ASCII. -/
def judge (g : GeoBlockChecker) (ipStr : List Char) : GeoBlockResult :=
  match g.reader with
  | none =>
    if g.failClosed then { blocked := true, reason := "geoip_unavailable_fail_closed", ip := ipStr }
    else { blocked := false, reason := "geoip_unavailable_fail_open" }
  | some country =>
    match country ipStr with
    | .notFound =>
      if g.failClosed then { blocked := true, reason := "country_unknown_fail_closed", ip := ipStr }
      else { blocked := false, reason := "country_unknown_fail_open", ip := ipStr }
    | .error =>
      if g.failClosed then { blocked := true, reason := "geoip_error_fail_closed", ip := ipStr }
      else { blocked := false, reason := "geoip_error_fail_open", ip := ipStr }
    | .found countryCode =>
      if countryCode.any fun code => !code.isEmpty && decide (code.map Char.toUpper ∈ g.blockedCountries) then
        { blocked := true, reason := "blocked_country", ip := ipStr, countryCode := countryCode }
      else { blocked := false, reason := "allowed_country", ip := ipStr, countryCode := countryCode }

def checkIp (g : GeoBlockChecker) (ipStr : List Char) : GeoBlockResult :=
  if !g.enabled then { blocked := false, reason := "geo_blocking_disabled" }
  else if isPrivateOrLoopback ipStr then { blocked := false, reason := "private_ip" }
  else if g.isAllowlisted ipStr then { blocked := false, reason := "allowlisted", ip := ipStr }
  else g.judge ipStr

end GeoBlockChecker

/-- A request: the host of its peer, if it has one, and its headers. -/
structure Request where
  peer : Option (List Char)
  headers : Headers
  deriving DecidableEq, Repr

/-- The client that `dispatch` judges. -/
def Request.client (trust : Trust) (r : Request) : Option (List Char) := resolveClientIp trust r.peer r.headers

/-- `dispatch` answers with a 403. -/
def blocks (g : GeoBlockChecker) (trust : Trust) (r : Request) : Bool :=
  (r.client trust).any fun clientIp => (g.checkIp clientIp).blocked

/-! ## When an address is blocked -/

namespace GeoBlockChecker

variable (g : GeoBlockChecker)

theorem blocked_eq (ipStr : List Char) : (g.checkIp ipStr).blocked =
    (g.enabled && !isPrivateOrLoopback ipStr && !g.isAllowlisted ipStr && (g.judge ipStr).blocked) := by
  unfold checkIp
  cases g.enabled with
  | false => rfl
  | true =>
    cases isPrivateOrLoopback ipStr with
    | true => rfl
    | false =>
      cases g.isAllowlisted ipStr with
      | true => rfl
      | false => rfl

def unlisted (ipStr : List Char) : Bool := (checkIp { g with allowedNetworks := [] } ipStr).blocked

theorem unlisted_eq (ipStr : List Char) :
    g.unlisted ipStr = (g.enabled && !isPrivateOrLoopback ipStr && (g.judge ipStr).blocked) := by
  have hlisted : isAllowlisted { g with allowedNetworks := [] } ipStr = false := by
    unfold isAllowlisted
    cases IpAddress.parse ipStr with
    | none => rfl
    | some ip => rfl
  rw [unlisted, blocked_eq, hlisted, Bool.not_false, Bool.and_true]
  rfl

theorem blocked_checkIp (ipStr : List Char) :
    (g.checkIp ipStr).blocked = (g.unlisted ipStr && !g.isAllowlisted ipStr) := by
  rw [blocked_eq, unlisted_eq]
  cases g.isAllowlisted ipStr with
  | true => simp
  | false => simp

end GeoBlockChecker

end FavoniusBackend.Security.GeoBlock
