import FavoniusBackend.Lib.JsonObject
import FavoniusBackend.Lib.PyText

/-!
# Repair of the tenancy claims of a token

A verified token that has no organization, or an organization and no role, is repaired from `user_organizations`: the
claims that the rows give are sent to Supabase, and, where it takes them, written to the token of the request.
-/

namespace FavoniusBackend.Security.TenantMirror

open Lib Lib.PyJson Lib.PyText

local instance lawfulBEq_codePoints : LawfulBEq (List ℕ) := inferInstance

/-! ## Claims -/

/-- The token, its `app_metadata`, a payload. -/
abbrev Claims := JsonObject

/-- What the process is configured with, and the methods of `str`: what `str` makes of a value that is no string, and
`str.lower`. -/
structure Settings where
  repr : Json → PyStr
  lower : PyStr → PyStr
  adminDomains : List PyStr
  supabaseUrl : PyStr
  serviceKey : PyStr
  ttl : ℚ

namespace Settings

variable (s : Settings)

def str : Json → PyStr
  | .str text => text
  | value => s.repr value

end Settings

def getAppMetadata (token : Claims) : Claims :=
  match token.get "app_metadata" with
  | .obj fields => fields
  | _ => []

def getUserOrganizationId (s : Settings) (token : Claims) : Option PyStr :=
  let org := (getAppMetadata token).get "organization_id"
  if org = .null ∨ org = .str [] then none else some (s.str org)

def providerName (s : Settings) : Json → Option PyStr
  | .str name => if strip name ≠ [] then some (s.lower (strip name)) else none
  | _ => none

def appMetadataIndicatesConfirmedEmailIdentity (s : Settings) (app : Claims) : Bool :=
  let listed := match app.get "providers" with
    | .arr items => items
    | _ => []
  let names := (app.get "provider" :: listed).filterMap (providerName s)
  !names.isEmpty && !names.all (· == py "phone")

def jwtEmailConfirmationPresent (s : Settings) (token : Claims) : Bool :=
  let unverified : Bool := match token.get "user_metadata" with
    | .obj fields => decide (JsonObject.get fields "email_verified" = .bool false)
    | _ => false
  if unverified then false
  else
    match token.get "email_confirmed_at" with
    | .str val => if strip val ≠ [] then true else confirmed
    | _ => confirmed
where
  confirmed : Bool :=
    match token.get "app_metadata" with
    | .obj fields => appMetadataIndicatesConfirmedEmailIdentity s fields
    | _ => false

def emailIndicatesFavoniusAdmin (s : Settings) (token : Claims) : Bool :=
  match token.get "email" with
  | .str email =>
    decide ('@'.toNat ∈ email) && jwtEmailConfirmationPresent s token &&
      decide (s.lower (strip (afterLast '@'.toNat email)) ∈ s.adminDomains)
  | _ => false

def favoniusAdmin : PyStr := py "favonius_admin"

def getUserRole (s : Settings) (token : Claims) : Json :=
  if emailIndicatesFavoniusAdmin s token then .str favoniusAdmin
  else
    let role := (getAppMetadata token).get "favonius_role"
    if role.truthy then .str (s.str role)
    else (Dict.lookup token (py "role")).getD (.str (py "authenticated"))

/-! ## Memberships -/

/-- The roles of `user_organizations` that a role of a token is derived from; `admin` and `viewer` are none. -/
inductive RepairableRole where
  | owner
  | operator
  deriving DecidableEq, Repr

def RepairableRole.ofText (role : PyStr) : Option RepairableRole :=
  if role = py "owner" then some .owner else if role = py "operator" then some .operator else none

def supabaseToFavoniusRole : RepairableRole → PyStr
  | .owner => py "customer_admin"
  | .operator => py "customer_operator"

/-- A row of `user_organizations`. -/
structure UserOrganization (U : Type) where
  userId : U
  organizationId : U
  role : Option PyStr
  deriving DecidableEq

/-- The two tables: a user and an organization have at most one row, and an organization may have no name. -/
structure Tables (U : Type) where
  userOrganizations : List (UserOrganization U)
  primaryKey : (userOrganizations.map fun row => (row.userId, row.organizationId)).Nodup
  organizationName : U → Option PyStr

/-- The pool of connections: none, one whose queries raise, or one over the tables. -/
inductive Pool (U : Type) where
  | absent
  | failing
  | serving (tables : Tables U)

/-- What the driver makes of an argument for `$n::uuid`, where it takes it, and `::text` of a key. -/
structure Driver (U : Type) where
  uuid : Json → Option U
  text : U → PyStr

inductive DatabaseError where
  | raised
  deriving DecidableEq, Repr

section

variable {U : Type} [DecidableEq U]

def Pool.fetch (driver : Driver U) (userId : Json) :
    Pool U → Except DatabaseError (Tables U × List (UserOrganization U))
  | .serving tables => match driver.uuid userId with
    | some user => .ok (tables, tables.userOrganizations.filter fun row => row.userId = user)
    | none => .error .raised
  | _ => .error .raised

def nameOf (tables : Tables U) (organization : U) : Option PyStr :=
  (tables.organizationName organization).filter fun name => decide (strip name ≠ [])

/-- What a lookup gives the repair. -/
structure Membership where
  orgId : PyStr
  role : RepairableRole
  name : Option PyStr
  deriving DecidableEq, Repr

def membershipOf (driver : Driver U) (tables : Tables U) (row : UserOrganization U) : Option Membership :=
  (row.role.bind RepairableRole.ofText).map fun role =>
    { orgId := driver.text row.organizationId, role := role, name := nameOf tables row.organizationId }

def fetchSingleUserOrgMembership (driver : Driver U) (pool : Pool U) (userId : Json) :
    Except DatabaseError (Option Membership) := do
  let (tables, rows) ← pool.fetch driver userId
  match rows with
  | [row] => return membershipOf driver tables row
  | _ => return none

def fetchRoleForOrg (driver : Driver U) (pool : Pool U) (userId : Json) (orgId : PyStr) :
    Except DatabaseError (Option Membership) := do
  let (tables, rows) ← pool.fetch driver userId
  match driver.uuid (.str orgId) with
  | none => throw .raised
  | some organization =>
    return (rows.filter fun row => row.organizationId = organization).head?.bind (membershipOf driver tables)

/-! ## The repair -/

/-- A call: the token, the pool, and the repairs that were made, each with the time it is kept until. -/
structure Call (U : Type) where
  user : Claims
  pool : Pool U
  cache : Dict PyStr ℚ
  now : ℚ

/-- After a call: the token, the `app_metadata` that was sent, and the repairs that were made. -/
structure Outcome where
  user : Claims
  sent : Option Claims := none
  cache : Dict PyStr ℚ

def hasFavoniusRole (token : Claims) : Bool := ((getAppMetadata token).get "favonius_role").truthy

/-- Nothing stands in the way of a lookup. -/
def Call.attempts (s : Settings) (c : Call U) : Bool :=
  (c.user.get "sub").truthy && decide (getUserRole s c.user ≠ .str favoniusAdmin) &&
    (match c.pool with
      | .absent => false
      | _ => true) &&
    !((getUserOrganizationId s c.user).isSome && hasFavoniusRole c.user) &&
    !(match c.cache.get? (s.str (c.user.get "sub")) with
      | some cachedUntil => decide (c.now < cachedUntil)
      | none => false) &&
    decide (rstrip '/'.toNat s.supabaseUrl ≠ []) && decide (s.serviceKey ≠ [])

def derivedClaims (m : Membership) : Claims :=
  [(py "favonius_role", .str (supabaseToFavoniusRole m.role)), (py "organization_id", .str m.orgId),
    (py "organization_name", .str (m.name.getD (py "org-" ++ m.orgId.take 8)))]

def roleClaims (app : Claims) (m : Membership) : Claims :=
  (py "favonius_role", .str (supabaseToFavoniusRole m.role)) ::
    if (app.get "organization_name").truthy then []
    else m.name.toList.map fun name => (py "organization_name", .str name)

/-- What there is to send, after the lookup. -/
def Call.payload (s : Settings) (driver : Driver U) (c : Call U) : Except DatabaseError (Option Claims) :=
  match getUserOrganizationId s c.user with
  | none => do
    let membership ← fetchSingleUserOrgMembership driver c.pool (c.user.get "sub")
    return membership.map derivedClaims
  | some orgId => do
    let membership ← fetchRoleForOrg driver c.pool (c.user.get "sub") orgId
    return membership.map (roleClaims (getAppMetadata c.user))

/-- What is written to the token: a role that it has is kept. -/
def inFlight (user payload : Claims) : Claims :=
  if hasFavoniusRole user then payload.filter fun p => decide (p.1 ≠ py "favonius_role") else payload

def patchUser (user claims : Claims) : Claims :=
  match user.get "app_metadata" with
  | .obj fields => user.set "app_metadata" (.obj (JsonObject.update fields claims))
  | _ => user.set "app_metadata" (.obj claims)

/-- `adminCall` says whether Supabase takes a payload for a user. -/
def repairUserTenantMetadata (s : Settings) (driver : Driver U) (adminCall : Json → Claims → Bool) (c : Call U) :
    Outcome :=
  let cached := c.cache.set (s.str (c.user.get "sub")) (c.now + s.ttl)
  if c.attempts s then
    match c.payload s driver with
    | .error _ => { user := c.user, cache := c.cache }
    | .ok none => { user := c.user, cache := cached }
    | .ok (some payload) =>
      if adminCall (c.user.get "sub") payload then
        { user := patchUser c.user (inFlight c.user payload), sent := payload, cache := cached }
      else { user := c.user, sent := payload, cache := c.cache }
  else { user := c.user, cache := c.cache }

end

end FavoniusBackend.Security.TenantMirror
