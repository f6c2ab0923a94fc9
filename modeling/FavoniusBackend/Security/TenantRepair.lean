import FavoniusBackend.Security.TenantMirror

/-!
# What a repair leaves of the claims

A token keeps the organization and the role that it has, and its user becomes no administrator.  In what is sent to
Supabase the role is kept too, except where the token has no organization: the claims that are derived for it then
carry the role of the membership.
-/

namespace FavoniusBackend.Security.TenantMirror

open Lib Lib.PyJson Lib.PyText

section

variable {U : Type} [DecidableEq U]

/-! ## What a repair must not do -/

/-- The role and the organization that a token has stay, in the token and in what is sent; neither makes an
administrator of its user; and the token is left alone where Supabase does not take what is sent. -/
structure KeepsClaims (s : Settings) (adminCall : Json → Claims → Bool) (c : Call U) (o : Outcome) : Prop where
  role : hasFavoniusRole c.user →
    (getAppMetadata o.user).get "favonius_role" = (getAppMetadata c.user).get "favonius_role"
  roleSent : hasFavoniusRole c.user → ∀ sent ∈ o.sent, ∀ role,
    Dict.lookup sent (py "favonius_role") = some role → role = (getAppMetadata c.user).get "favonius_role"
  organization : (getUserOrganizationId s c.user).isSome →
    (getAppMetadata o.user).get "organization_id" = (getAppMetadata c.user).get "organization_id"
  organizationSent : (getUserOrganizationId s c.user).isSome → ∀ sent ∈ o.sent, ∀ org,
    Dict.lookup sent (py "organization_id") = some org → org = (getAppMetadata c.user).get "organization_id"
  adminSent : ∀ sent ∈ o.sent, Dict.lookup sent (py "favonius_role") ≠ some (.str favoniusAdmin)
  admin : getUserRole s o.user = .str favoniusAdmin → getUserRole s c.user = .str favoniusAdmin
  refused : ∀ sent ∈ o.sent, adminCall (c.user.get "sub") sent = false → o.user = c.user

def Overwrites (s : Settings) (driver : Driver U) (c : Call U) : Prop :=
  c.attempts s ∧ getUserOrganizationId s c.user = none ∧ hasFavoniusRole c.user ∧
    ∃ m, fetchSingleUserOrgMembership driver c.pool (c.user.get "sub") = .ok (some m) ∧
      .str (supabaseToFavoniusRole m.role) ≠ (getAppMetadata c.user).get "favonius_role"

/-! ## Claims under updates -/

theorem lookup_patchUser (user : Claims) {claims : Claims} (hnodup : (claims.map Prod.fst).Nodup) (k : PyStr) :
    Dict.lookup (getAppMetadata (patchUser user claims)) k =
      (Dict.lookup claims k).or (Dict.lookup (getAppMetadata user) k) := by
  unfold patchUser
  split
  · rename_i fields hfields
    have hold : getAppMetadata user = fields := by rw [getAppMetadata, hfields]
    have hnew : getAppMetadata (user.set "app_metadata" (.obj (JsonObject.update fields claims))) =
        JsonObject.update fields claims := by
      rw [getAppMetadata, JsonObject.get_set, if_pos rfl]
    rw [hnew, hold, JsonObject.lookup_update hnodup]
  · rename_i hfields
    have hold : getAppMetadata user = [] := by
      unfold getAppMetadata
      split
      · rename_i fields h
        exact absurd h (hfields fields)
      · rfl
    have hnew : getAppMetadata (user.set "app_metadata" (.obj claims)) = claims := by
      rw [getAppMetadata, JsonObject.get_set, if_pos rfl]
    rw [hnew, hold]
    exact (Option.or_none).symm

theorem lookup_patchUser_of_ne (user claims : Claims) {k : PyStr} (hk : k ≠ py "app_metadata") :
    Dict.lookup (patchUser user claims) k = Dict.lookup user k := by
  unfold patchUser
  split
  · rw [JsonObject.set, Dict.lookup_assign, if_neg hk]
  · rw [JsonObject.set, Dict.lookup_assign, if_neg hk]

theorem get_patchUser_of_ne (user claims : Claims) {key : String} (hk : py key ≠ py "app_metadata") :
    (patchUser user claims).get key = user.get key := by
  rw [JsonObject.get, lookup_patchUser_of_ne user claims hk, JsonObject.get]

/-! ## Administrators -/

theorem confirmed_eq (s : Settings) (token : Claims) : jwtEmailConfirmationPresent.confirmed s token =
    appMetadataIndicatesConfirmedEmailIdentity s (getAppMetadata token) := by
  unfold jwtEmailConfirmationPresent.confirmed getAppMetadata
  split
  · rfl
  · rfl

theorem emailIndicatesFavoniusAdmin_patchUser (s : Settings) (user : Claims) {claims : Claims}
    (hnodup : (claims.map Prod.fst).Nodup) (hprovider : Dict.lookup claims (py "provider") = none)
    (hproviders : Dict.lookup claims (py "providers") = none) :
    emailIndicatesFavoniusAdmin s (patchUser user claims) = emailIndicatesFavoniusAdmin s user := by
  have hidentity : appMetadataIndicatesConfirmedEmailIdentity s (getAppMetadata (patchUser user claims)) =
      appMetadataIndicatesConfirmedEmailIdentity s (getAppMetadata user) := by
    have hget : (getAppMetadata (patchUser user claims)).get "provider" = (getAppMetadata user).get "provider" := by
      rw [JsonObject.get, lookup_patchUser user hnodup, hprovider, Option.none_or, JsonObject.get]
    have hgets : (getAppMetadata (patchUser user claims)).get "providers" = (getAppMetadata user).get "providers" := by
      rw [JsonObject.get, lookup_patchUser user hnodup, hproviders, Option.none_or, JsonObject.get]
    rw [appMetadataIndicatesConfirmedEmailIdentity, hget, hgets, appMetadataIndicatesConfirmedEmailIdentity]
  have hconfirmed : jwtEmailConfirmationPresent s (patchUser user claims) = jwtEmailConfirmationPresent s user := by
    rw [jwtEmailConfirmationPresent, jwtEmailConfirmationPresent, confirmed_eq, confirmed_eq, hidentity,
      get_patchUser_of_ne user claims (by decide), get_patchUser_of_ne user claims (by decide)]
  rw [emailIndicatesFavoniusAdmin, get_patchUser_of_ne user claims (by decide), hconfirmed, emailIndicatesFavoniusAdmin]

/-! ## One repair -/

theorem derivedClaims_keys (m : Membership) : (derivedClaims m).map Prod.fst =
    [py "favonius_role", py "organization_id", py "organization_name"] := rfl

theorem roleClaims_keys (app : Claims) (m : Membership) :
    (roleClaims app m).map Prod.fst = [py "favonius_role"] ∨
      (roleClaims app m).map Prod.fst = [py "favonius_role", py "organization_name"] := by
  unfold roleClaims
  split
  · exact .inl rfl
  · cases m.name with
    | none => exact .inl rfl
    | some name => exact .inr rfl

/-- What there is to send: the claims of the one membership of a user whose token has no organization, or the role of
the membership in the organization that it has. -/
theorem payload_cases {s : Settings} {driver : Driver U} {c : Call U} {payload : Claims}
    (h : c.payload s driver = .ok (some payload)) :
    (getUserOrganizationId s c.user = none ∧
      ∃ m, fetchSingleUserOrgMembership driver c.pool (c.user.get "sub") = .ok (some m) ∧
        payload = derivedClaims m) ∨
    ((getUserOrganizationId s c.user).isSome ∧ ∃ m, payload = roleClaims (getAppMetadata c.user) m) := by
  unfold Call.payload at h
  split at h
  · rename_i horg
    cases hfetch : fetchSingleUserOrgMembership driver c.pool (c.user.get "sub") with
    | error e =>
      rw [hfetch] at h
      cases h
    | ok membership =>
      rw [hfetch] at h
      obtain ⟨m, rfl, rfl⟩ := Option.map_eq_some_iff.mp (Except.ok.inj h)
      exact .inl ⟨horg, m, rfl, rfl⟩
  · rename_i orgId horg
    cases hfetch : fetchRoleForOrg driver c.pool (c.user.get "sub") orgId with
    | error e =>
      rw [hfetch] at h
      cases h
    | ok membership =>
      rw [hfetch] at h
      obtain ⟨m, -, rfl⟩ := Option.map_eq_some_iff.mp (Except.ok.inj h)
      exact .inr ⟨by rw [horg]; rfl, m, rfl⟩

/-- A repair leaves the token alone and sends nothing, or sends what there is to send. -/
theorem repair_cases (s : Settings) (driver : Driver U) (adminCall : Json → Claims → Bool) (c : Call U) :
    ((repairUserTenantMetadata s driver adminCall c).user = c.user ∧
      (repairUserTenantMetadata s driver adminCall c).sent = none) ∨
    ∃ payload, c.attempts s ∧ c.payload s driver = .ok (some payload) ∧
      (repairUserTenantMetadata s driver adminCall c).sent = some payload ∧
      (repairUserTenantMetadata s driver adminCall c).user =
        if adminCall (c.user.get "sub") payload then patchUser c.user (inFlight c.user payload) else c.user := by
  unfold repairUserTenantMetadata
  dsimp only
  by_cases hattempts : c.attempts s
  · rw [if_pos hattempts]
    rcases hpayload : c.payload s driver with e | _ | payload
    · exact .inl ⟨rfl, rfl⟩
    · exact .inl ⟨rfl, rfl⟩
    · refine .inr ⟨payload, hattempts, rfl, ?_⟩
      dsimp only
      split
      · exact ⟨rfl, rfl⟩
      · exact ⟨rfl, rfl⟩
  · rw [if_neg hattempts]
    exact .inl ⟨rfl, rfl⟩

/-! ## What is sent -/

/-- Claims that may be sent: a role that a membership gives, and otherwise of the organization only. -/
structure Sendable (payload : Claims) : Prop where
  nodup : (payload.map Prod.fst).Nodup
  keys : payload.map Prod.fst ⊆ [py "favonius_role", py "organization_id", py "organization_name"]
  role : ∃ r, Dict.lookup payload (py "favonius_role") = some (.str (supabaseToFavoniusRole r))

theorem sendable_derivedClaims (m : Membership) : Sendable (derivedClaims m) where
  nodup := by
    rw [derivedClaims_keys]
    decide +kernel
  keys := by
    rw [derivedClaims_keys]
    exact List.Subset.refl _
  role := ⟨m.role, rfl⟩

theorem sendable_roleClaims (app : Claims) (m : Membership) : Sendable (roleClaims app m) where
  nodup := by
    rcases roleClaims_keys app m with hkeys | hkeys
    · rw [hkeys]
      decide
    · rw [hkeys]
      decide
  keys := by
    rcases roleClaims_keys app m with hkeys | hkeys
    · rw [hkeys]
      simp
    · rw [hkeys]
      simp
  role := ⟨m.role, rfl⟩

theorem Sendable.of_payload {s : Settings} {driver : Driver U} {c : Call U} {payload : Claims}
    (h : c.payload s driver = .ok (some payload)) : Sendable payload := by
  rcases payload_cases h with ⟨-, m, -, rfl⟩ | ⟨-, m, rfl⟩
  · exact sendable_derivedClaims m
  · exact sendable_roleClaims _ m

theorem organization_not_sent {s : Settings} {driver : Driver U} {c : Call U} {payload : Claims}
    (h : c.payload s driver = .ok (some payload)) (horg : (getUserOrganizationId s c.user).isSome) :
    Dict.lookup payload (py "organization_id") = none := by
  rcases payload_cases h with ⟨hnone, -⟩ | ⟨-, m, rfl⟩
  · rw [hnone] at horg
    cases horg
  · rw [← Option.not_isSome_iff_eq_none, Dict.lookup_isSome_iff]
    rcases roleClaims_keys (getAppMetadata c.user) m with hkeys | hkeys
    · rw [hkeys]
      decide
    · rw [hkeys]
      decide

omit [DecidableEq U] in
theorem Call.attempts_missing {s : Settings} {c : Call U} (h : c.attempts s) (hrole : hasFavoniusRole c.user) :
    getUserOrganizationId s c.user = none := by
  rw [Call.attempts] at h
  simp only [Bool.and_eq_true, Bool.not_eq_true', Bool.and_eq_false_iff, hrole] at h
  obtain ⟨⟨⟨⟨-, horg | hfalse⟩, -⟩, -⟩, -⟩ := h
  · exact Option.not_isSome_iff_eq_none.mp (by simp [horg])
  · cases hfalse

theorem supabaseToFavoniusRole_ne (r : RepairableRole) : supabaseToFavoniusRole r ≠ favoniusAdmin := by
  cases r with
  | owner => decide +kernel
  | operator => decide +kernel

theorem truthy_supabaseToFavoniusRole (r : RepairableRole) : (Json.str (supabaseToFavoniusRole r)).truthy := by
  cases r with
  | owner => rfl
  | operator => rfl

/-! ## What is written -/

theorem inFlight_sublist (user payload : Claims) : (inFlight user payload).Sublist payload := by
  unfold inFlight
  split
  · exact List.filter_sublist
  · exact List.Sublist.refl _

variable {user payload : Claims}

theorem Sendable.inFlight_nodup (h : Sendable payload) : ((inFlight user payload).map Prod.fst).Nodup :=
  h.nodup.sublist ((inFlight_sublist user payload).map Prod.fst)

theorem lookup_inFlight_eq_none {k : PyStr} (h : Dict.lookup payload k = none) :
    Dict.lookup (inFlight user payload) k = none := by
  rw [← Option.not_isSome_iff_eq_none, Dict.lookup_isSome_iff] at h ⊢
  exact fun hmem => h (((inFlight_sublist user payload).map Prod.fst).subset hmem)

theorem lookup_inFlight_role (h : hasFavoniusRole user) :
    Dict.lookup (inFlight user payload) (py "favonius_role") = none := by
  rw [inFlight, if_pos h, ← Option.not_isSome_iff_eq_none, Dict.lookup_isSome_iff]
  intro hmem
  obtain ⟨p, hp, hkey⟩ := List.mem_map.mp hmem
  exact of_decide_eq_true (List.mem_filter.mp hp).2 hkey

theorem role_patchUser (h : Sendable payload) (hrole : hasFavoniusRole user) :
    (getAppMetadata (patchUser user (inFlight user payload))).get "favonius_role" =
      (getAppMetadata user).get "favonius_role" := by
  rw [JsonObject.get, lookup_patchUser user h.inFlight_nodup, lookup_inFlight_role hrole, Option.none_or,
    JsonObject.get]

theorem admin_patchUser (s : Settings) (h : Sendable payload)
    (hadmin : getUserRole s (patchUser user (inFlight user payload)) = .str favoniusAdmin) :
    getUserRole s user = .str favoniusAdmin := by
  have hemail := emailIndicatesFavoniusAdmin_patchUser s user (@Sendable.inFlight_nodup user payload h)
    (lookup_inFlight_eq_none (JsonObject.lookup_eq_none_of_keys h.keys (by decide)))
    (lookup_inFlight_eq_none (JsonObject.lookup_eq_none_of_keys h.keys (by decide)))
  rw [getUserRole, hemail] at hadmin
  rw [getUserRole]
  by_cases hstaff : emailIndicatesFavoniusAdmin s user
  · rw [if_pos hstaff]
  · rw [if_neg hstaff] at hadmin ⊢
    dsimp only at hadmin ⊢
    by_cases hrole : hasFavoniusRole user
    · have htruthy : ((getAppMetadata user).get "favonius_role").truthy := hrole
      rw [role_patchUser h hrole, if_pos htruthy] at hadmin
      rw [if_pos htruthy]
      exact hadmin
    · -- without a role, the token takes the one of the membership
      obtain ⟨r, hr⟩ := h.role
      have hget : (getAppMetadata (patchUser user (inFlight user payload))).get "favonius_role" =
          .str (supabaseToFavoniusRole r) := by
        rw [JsonObject.get, lookup_patchUser user h.inFlight_nodup, inFlight, if_neg hrole, hr]
        rfl
      rw [hget, if_pos (truthy_supabaseToFavoniusRole r)] at hadmin
      exact absurd (Json.str.inj hadmin) (supabaseToFavoniusRole_ne r)

/-! ## Which repairs keep the claims -/

omit [DecidableEq U] in
theorem keepsClaims_of_user {s : Settings} {adminCall : Json → Claims → Bool} {c : Call U} {o : Outcome}
    (huser : o.user = c.user) (hsent : o.sent = none) : KeepsClaims s adminCall c o where
  role := fun _ => by rw [huser]
  roleSent := fun _ sent h => by
    rw [hsent] at h
    cases h
  organization := fun _ => by rw [huser]
  organizationSent := fun _ sent h => by
    rw [hsent] at h
    cases h
  adminSent := fun sent h => by
    rw [hsent] at h
    cases h
  admin := fun h => huser ▸ h
  refused := fun _ _ _ => huser

theorem keepsClaims_of_sent {s : Settings} {driver : Driver U} {adminCall : Json → Claims → Bool} {c : Call U}
    {o : Outcome} {payload : Claims} (hpayload : c.payload s driver = .ok (some payload))
    (hsent : o.sent = some payload)
    (huser : o.user = if adminCall (c.user.get "sub") payload then patchUser c.user (inFlight c.user payload)
      else c.user)
    (hrole : hasFavoniusRole c.user →
      Dict.lookup payload (py "favonius_role") = some ((getAppMetadata c.user).get "favonius_role")) :
    KeepsClaims s adminCall c o where
  role := fun hhas => by
    rw [huser]
    split
    · exact role_patchUser (.of_payload hpayload) hhas
    · rfl
  roleSent := fun hhas sent hmem role hlookup => by
    obtain rfl := Option.some.inj (hsent.symm.trans hmem)
    exact Option.some.inj (hlookup.symm.trans (hrole hhas))
  organization := fun horg => by
    rw [huser]
    split
    · rw [JsonObject.get, lookup_patchUser _ (Sendable.of_payload hpayload).inFlight_nodup,
        lookup_inFlight_eq_none (organization_not_sent hpayload horg), Option.none_or, JsonObject.get]
    · rfl
  organizationSent := fun horg sent hmem org hlookup => by
    obtain rfl := Option.some.inj (hsent.symm.trans hmem)
    rw [organization_not_sent hpayload horg] at hlookup
    cases hlookup
  adminSent := fun sent hmem hlookup => by
    obtain rfl := Option.some.inj (hsent.symm.trans hmem)
    obtain ⟨r, hr⟩ := (Sendable.of_payload hpayload).role
    exact supabaseToFavoniusRole_ne r (Json.str.inj (Option.some.inj (hr.symm.trans hlookup)))
  admin := fun hadmin => by
    rw [huser] at hadmin
    split at hadmin
    · exact admin_patchUser s (.of_payload hpayload) hadmin
    · exact hadmin
  refused := fun sent hmem hrefused => by
    obtain rfl := Option.some.inj (hsent.symm.trans hmem)
    rw [huser, hrefused]
    rfl

/-- A repair keeps the claims of the token exactly where it does not derive a role for one that has another. -/
theorem keepsClaims_iff (s : Settings) (driver : Driver U) (adminCall : Json → Claims → Bool) (c : Call U) :
    KeepsClaims s adminCall c (repairUserTenantMetadata s driver adminCall c) ↔ ¬ Overwrites s driver c := by
  constructor
  · rintro h ⟨hattempts, horg, hrole, m, hfetch, hne⟩
    have hpayload : c.payload s driver = .ok (some (derivedClaims m)) := by
      rw [Call.payload, horg, hfetch]
      rfl
    rcases repair_cases s driver adminCall c with ⟨-, hsent⟩ | ⟨payload, -, hpayload', hsent, -⟩
    · rw [repairUserTenantMetadata, if_pos hattempts, hpayload] at hsent
      dsimp only at hsent
      split at hsent
      · cases hsent
      · cases hsent
    · obtain rfl := Option.some.inj (Except.ok.inj (hpayload.symm.trans hpayload'))
      exact hne (h.roleSent hrole _ hsent _ rfl)
  · intro h
    rcases repair_cases s driver adminCall c with ⟨huser, hsent⟩ | ⟨payload, hattempts, hpayload, hsent, huser⟩
    · exact keepsClaims_of_user huser hsent
    · refine keepsClaims_of_sent hpayload hsent huser fun hrole => ?_
      rcases payload_cases hpayload with ⟨horg, m, hfetch, rfl⟩ | ⟨horg, -⟩
      · rw [← show Json.str (supabaseToFavoniusRole m.role) = (getAppMetadata c.user).get "favonius_role" by
          by_contra hne
          exact h ⟨hattempts, horg, hrole, m, hfetch, hne⟩]
        rfl
      · rw [Call.attempts_missing hattempts hrole] at horg
        cases horg

end

def textDriver : Driver PyStr where
  uuid := fun
    | .str text => some text
    | _ => none
  text := id

def exampleSettings : Settings where
  repr := fun _ => []
  lower := id
  adminDomains := [py "favoniusenergy.com"]
  supabaseUrl := py "https://test.supabase.co"
  serviceKey := py "test-service-key"
  ttl := 300

def operatorCall : Call PyStr where
  user := [(py "sub", .str (py "11111111-1111-4111-8111-111111111111")), (py "role", .str (py "authenticated")),
    (py "app_metadata", .obj [(py "provider", .str (py "email")), (py "favonius_role", .str (py "customer_operator"))])]
  pool := .serving {
    userOrganizations := [⟨py "11111111-1111-4111-8111-111111111111", py "22222222-2222-4222-8222-222222222222",
      some (py "owner")⟩]
    primaryKey := List.nodup_singleton _
    organizationName := fun _ => some (py "Pilot Operator") }
  cache := .empty
  now := 0

/-- Supabase is told that the operator is an administrator of the organization. -/
theorem operator_promoted : ¬ KeepsClaims exampleSettings (fun _ _ => true) operatorCall
    (repairUserTenantMetadata exampleSettings textDriver (fun _ _ => true) operatorCall) := by
  intro h
  have hsent : (repairUserTenantMetadata exampleSettings textDriver (fun _ _ => true) operatorCall).sent =
      some (derivedClaims ⟨py "22222222-2222-4222-8222-222222222222", .owner, some (py "Pilot Operator")⟩) := by
    decide +kernel
  have hrole := h.roleSent (by decide +kernel) _ hsent (.str (py "customer_admin")) rfl
  exact absurd hrole (by decide +kernel)

end FavoniusBackend.Security.TenantMirror
