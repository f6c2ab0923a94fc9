import FavoniusBackend.Lib.IpAddress

/-!
# Forwarded client addresses

Behind a reverse proxy the peer of a connection is the proxy.  The address of the client is taken from the headers that
proxies write: the `for=` items of `Forwarded`, else the entries of `X-Forwarded-For`, else `X-Real-IP`.  Of a chain of
addresses the rightmost one is taken that is not a trusted proxy.
-/

namespace FavoniusBackend.Security.ForwardedIp

open Lib
open Lib.IpAddress (Address Network)
open scoped Lib.IpAddress

/-! ### One entry -/

def stripPort (value : List Char) : List Char :=
  match value with
  | '[' :: rest =>
    match Text.partition ']' rest with
    | (host, some _) => host
    | (_, none) => value
  | _ => if value.count ':' = 1 ∧ '.' ∈ value then (Text.partition ':' value).1 else value

def readAddress (rawIp : List Char) : Option Address :=
  let value := Text.stripWhere (· == '"') (Text.strip rawIp)
  if value = [] then none else IpAddress.parse (stripPort value)

def normalizeForwardedIp (rawIp : List Char) : Option (List Char) := (readAddress rawIp).map IpAddress.str

/-! ### Trust -/

/-- Whom a deployment trusts: the networks that are configured, and whether addresses of the shared address space count
as proxies too. -/
structure Trust where
  trustedNetworks : List Network := []
  trustImplicitPrivate : Bool := true
  deriving DecidableEq, Repr

def cgnatNetwork : Network := .v4 ⟨100, 64, 0, 0⟩ 10

/-- `_is_trusted_proxy_entry` for an address. -/
def Trust.hop (trust : Trust) (ip : Address) : Bool :=
  let ip := IpAddress.unmapped ip
  trust.trustedNetworks.any (·.contains ip) || trust.trustImplicitPrivate && cgnatNetwork.contains ip

def isTrustedProxyEntry (trust : Trust) (ipStr : List Char) : Bool := (IpAddress.parse ipStr).any trust.hop

def Trust.given (trust : Trust) : Bool := !trust.trustedNetworks.isEmpty || trust.trustImplicitPrivate

def selectClientIp (trust : Trust) : List (List Char) → Option (List Char)
  | [] => none
  | first :: rest =>
    if !trust.given then some first
    else some (((first :: rest).reverse.find? fun entry => !isTrustedProxyEntry trust entry).getD first)

/-! ### Headers -/

inductive HeaderName
  | forwarded
  | xForwardedFor
  | xRealIp
  | other (name : String)
  deriving DecidableEq, Repr

/-- The lines of a request, under their names. -/
abbrev Headers := List (HeaderName × List Char)

def getlist (headers : Headers) (name : HeaderName) : List (List Char) :=
  (headers.filter fun line => decide (line.1 = name)).map Prod.snd

def join (values : List (List Char)) : List Char := [',', ' '].intercalate values

def collectHeaderValues (headers : Headers) (name : HeaderName) : List Char :=
  let joined := join ((getlist headers name).filter fun value => !value.isEmpty)
  if joined ≠ [] then joined else (getlist headers name).headD []

/-- The value of an item whose key is `for`. -/
def forValue (item : List Char) : Option (List Char) :=
  match Text.partition '=' (Text.strip item) with
  | (key, some value) => if Text.lower key = ['f', 'o', 'r'] then some value else none
  | (_, none) => none

/-- The first `for` of a hop. -/
def forItem (proxyHop : List Char) : Option (List Char) := (proxyHop.splitOn ';').findSome? forValue

def parseForwardedHeaderChain (forwarded : List Char) : List (List Char) :=
  (forwarded.splitOn ',').filterMap fun proxyHop => (forItem proxyHop).bind normalizeForwardedIp

def parseXffChain (xff : List Char) : List (List Char) := (xff.splitOn ',').filterMap normalizeForwardedIp

def extractForwardedIp (trust : Trust) (headers : Headers) : Option (List Char) :=
  match selectClientIp trust (parseForwardedHeaderChain (collectHeaderValues headers .forwarded)) with
  | some chosen => some chosen
  | none =>
    match selectClientIp trust (parseXffChain (collectHeaderValues headers .xForwardedFor)) with
    | some chosen => some chosen
    | none =>
      let xRealIp := (getlist headers .xRealIp).headD []
      if xRealIp = [] then none else normalizeForwardedIp xRealIp

/-! ### The middleware -/

def isImplicitlyTrustedProxy (ipStr : List Char) : Bool :=
  (IpAddress.parse ipStr).any fun ip =>
    IpAddress.isPrivate ip || IpAddress.isLoopback ip || IpAddress.isLinkLocal ip || cgnatNetwork.contains ip

def isTrustedProxy (trust : Trust) (peerIp : List Char) : Bool :=
  trust.trustImplicitPrivate && isImplicitlyTrustedProxy peerIp ||
    (IpAddress.parse peerIp).any fun ip => trust.trustedNetworks.any (·.contains ip)

def resolveClientIp (trust : Trust) (peerIp : Option (List Char)) (headers : Headers) : Option (List Char) :=
  match peerIp with
  | none => none
  | some peerIp =>
    if peerIp = [] then none
    else if !isTrustedProxy trust peerIp then some peerIp
    else some ((extractForwardedIp trust headers).getD peerIp)

/-! ## Chains of entries -/

theorem isTrustedProxyEntry_str (trust : Trust) (ip : Address) :
    isTrustedProxyEntry trust (IpAddress.str ip) = trust.hop ip := by
  rw [isTrustedProxyEntry, IpAddress.parse_str]
  rfl

/-- The address that a chain gives: the rightmost one that is not a trusted hop, or else the leftmost one. -/
def origin (trust : Trust) (chain : List Address) : Option Address :=
  (chain.reverse.find? fun ip => !trust.hop ip).or chain.head?

theorem selectClientIp_map_str {trust : Trust} (hgiven : trust.given = true) (chain : List Address) :
    selectClientIp trust (chain.map IpAddress.str) = (origin trust chain).map IpAddress.str := by
  have hpred : (fun entry => !isTrustedProxyEntry trust entry) ∘ IpAddress.str = fun ip => !trust.hop ip := by
    funext ip
    show (!isTrustedProxyEntry trust (IpAddress.str ip)) = _
    rw [isTrustedProxyEntry_str]
  cases chain with
  | nil => rfl
  | cons first rest =>
    show (if !trust.given then _ else some (((IpAddress.str first :: rest.map IpAddress.str).reverse.find? _).getD _)) =
      _
    have hmap : IpAddress.str first :: rest.map IpAddress.str = (first :: rest).map IpAddress.str := rfl
    rw [hgiven, if_neg (by simp), hmap, ← List.map_reverse, List.find?_map, hpred]
    unfold origin
    cases (first :: rest).reverse.find? fun ip => !trust.hop ip with
    | none => rfl
    | some ip => rfl

theorem origin_append {trust : Trust} (before : List Address) {client : Address} {hops : List Address}
    (hclient : trust.hop client = false) (hhops : ∀ ip ∈ hops, trust.hop ip = true) :
    origin trust (before ++ client :: hops) = some client := by
  have hnone : hops.reverse.find? (fun ip => !trust.hop ip) = none := by
    rw [List.find?_eq_none]
    intro ip hip
    simp [hhops ip (List.mem_reverse.mp hip)]
  have hreverse : (before ++ client :: hops).reverse = hops.reverse ++ client :: before.reverse := by simp
  unfold origin
  rw [hreverse, List.find?_append, hnone, Option.none_or, List.find?_cons_of_pos (by simp [hclient]), Option.some_or]

end FavoniusBackend.Security.ForwardedIp
