import FavoniusBackend.Lib.AddressClasses
import FavoniusBackend.Lib.UrlParts

/-!
# The guard of outbound handoffs

A depot names the host that a handoff is sent to.  The guard resolves the host once, refuses it where one of its
addresses is internal, and pins the request to the first address.  It does not know the shared address space of the
providers, and lets through what the libraries raise on a URL that they cannot read.
-/

namespace FavoniusBackend.Security.HandoffTarget

open Lib
open Lib.IpAddress Lib.UrlParts
open Lib.PyJson (PyError)

local instance lawfulBEq_text : LawfulBEq (List Char) := inferInstance

/-! ## The code -/

/-- What the code asks of the machine it runs on. -/
structure Machine where
  unicode : Unicode
  /-- The host has an encoding for the resolver: `getaddrinfo` raises a `UnicodeError` for one that has none. -/
  encodes : List Char → Bool
  /-- The addresses that `getaddrinfo` lists for a host, with `none` for its `gaierror`. -/
  lookup : List Char → Option (List (List Char))
  /-- The variable `HANDOFF_ALLOW_PRIVATE_HOSTS`. -/
  allowPrivateHosts : Option (List Char) := none
  /-- The release of Python tests an IPv4-mapped address as the one of version 4, for more than `is_private`. -/
  mappedAsV4 : Bool := true

/-- What is raised: an answer of the API, or an exception of a library. -/
inductive Raised
  | httpException (status : ℕ) (detail : List Char)
  | builtin (e : PyError)

def badRequest (detail : List Char) : Raised := .httpException 400 detail

def devEnvironments : List (List Char) := ["development".toList, "test".toList]

/-- The loop over the answers of `getaddrinfo`. -/
def collectAddresses : List (List Char) → List (List Char) → List Address
  | _, [] => []
  | seen, ipStr :: infos =>
    if ipStr ∈ seen then collectAddresses seen infos
    else match IpAddress.parse ipStr with
      | some address => address :: collectAddresses (ipStr :: seen) infos
      | none => collectAddresses (ipStr :: seen) infos

def resolveAddresses (m : Machine) (host : List Char) : Except PyError (List Address) :=
  match IpAddress.parse host with
  | some address => .ok [address]
  | none =>
    if m.encodes host then .ok (collectAddresses [] ((m.lookup host).getD []))
    else .error .valueError

def isBlockedAddress (m : Machine) (addr : Address) : Bool :=
  let viewed := if m.mappedAsV4 then unmapped addr else addr
  isPrivate addr || isLoopback addr || isLinkLocal viewed || isMulticast viewed || isReserved viewed ||
    isUnspecified viewed

def allowPrivateHosts (m : Machine) (env : List Char) : Bool :=
  if env ∈ devEnvironments then decide (m.unicode.lower (m.allowPrivateHosts.getD "false".toList) = "true".toList)
  else false

def portText (port : ℕ) : List Char := ':' :: Nat.toDigits 10 port

def hostHeaderValue (hostname : List Char) (port : Option ℕ) (scheme : List Char) : List Char :=
  let h := if ':' ∈ hostname then '[' :: (hostname ++ [']']) else hostname
  let default := if scheme = "https".toList then 443 else 80
  match port with
  | none => h
  | some port => if port = default then h else h ++ portText port

def ipLiteralForUrl : Address → List Char
  | .v4 x => x.str
  | .v6 x => '[' :: (x.str ++ [']'])

/-- The URL, the Host header and the extension `sni_hostname` of the request. -/
structure Pinned where
  requestUrl : List Char
  hostHeader : List Char
  sniHostname : Option (List Char)

def pin (parts : SplitResult) (host : List Char) (port : Option ℕ) (pinAddr : Address) : Pinned where
  requestUrl := urlunsplit { parts with netloc := ipLiteralForUrl pinAddr ++ (port.map portText).getD [] }
  hostHeader := hostHeaderValue host port parts.scheme
  sniHostname := if parts.scheme = "https".toList then some host else none

def pinnedHandoffRequestParts (m : Machine) (url env : List Char) : Except Raised Pinned :=
  match urlsplit m.unicode url with
  | .error e => .error (.builtin e)
  | .ok parts =>
    if parts.scheme ∉ ["http".toList, "https".toList] then
      .error (badRequest ("Invalid handoff scheme: ".toList ++ m.unicode.repr parts.scheme ++
        "; only http/https allowed".toList))
    else if parts.scheme = "http".toList ∧ env ∉ devEnvironments then
      .error (badRequest "Inter-depot handoff requires HTTPS outside development".toList)
    else match parts.hostname m.unicode with
      | none => .error (badRequest "Handoff URL is missing a hostname".toList)
      | some host =>
        match resolveAddresses m host with
        | .error e => .error (.builtin e)
        | .ok [] => .error (badRequest ("Could not resolve handoff host: ".toList ++ host))
        | .ok (pinAddr :: rest) =>
          match (pinAddr :: rest).filter (isBlockedAddress m), allowPrivateHosts m env with
          | first :: _, false =>
            .error (badRequest ("Handoff host ".toList ++ m.unicode.repr host ++
              " resolves to a disallowed address (".toList ++ IpAddress.str first ++ "); refusing to send".toList))
          | _, _ =>
            match parts.port with
            | .error e => .error (.builtin e)
            | .ok port => .ok (pin parts host port pinAddr)

/-! ## What the guard is for -/

def urlOn (parts : SplitResult) (port : Option ℕ) (addr : Address) : List Char :=
  "https://".toList ++ ipLiteralForUrl addr ++ (port.map portText).getD [] ++ parts.path ++
    (if parts.query ≠ [] then '?' :: parts.query else []) ++
    (if parts.fragment ≠ [] then '#' :: parts.fragment else [])

/-- The request goes to an address of the host that the URL names, in the name of that host, and all the addresses of
the host are reachable ones of the internet. -/
def Guarded (m : Machine) (url : List Char) (p : Pinned) : Prop :=
  ∃ parts host port addresses addr, urlsplit m.unicode url = .ok parts ∧ parts.scheme = "https".toList ∧
    parts.hostname m.unicode = some host ∧ parts.port = .ok port ∧ resolveAddresses m host = .ok addresses ∧
    addr ∈ addresses ∧ p.requestUrl = urlOn parts port addr ∧
    p.hostHeader = hostHeaderValue host port "https".toList ∧ p.sniHostname = some host ∧
    ∀ a ∈ addresses, ¬ Unreachable a

/-- The guard refuses the URL with an answer of the API, or lets a guarded request through. -/
def Sound (m : Machine) (url env : List Char) : Prop :=
  match pinnedHandoffRequestParts m url env with
  | .ok p => Guarded m url p
  | .error (.httpException status _) => status = 400
  | .error (.builtin _) => False

/-- The libraries read the URL and the name of its host; and a host that has addresses, all of which pass, comes with a
port that reads, and has no shared address and no address of a site. -/
def Readable (m : Machine) (url : List Char) : Prop :=
  ∃ parts, urlsplit m.unicode url = .ok parts ∧ (parts.scheme = "https".toList → ∀ host,
    parts.hostname m.unicode = some host → ∃ addresses, resolveAddresses m host = .ok addresses ∧
      (addresses ≠ [] → (∀ a ∈ addresses, isBlockedAddress m a = false) →
        (∃ port, parts.port = .ok port) ∧
          ∀ a ∈ addresses, isShared (unmapped a) = false ∧ isSiteLocal (unmapped a) = false))

/-! ## The tests of the guard -/

variable {m : Machine}

theorem isBlockedAddress_eq_false {addr : Address} (h : isBlockedAddress m addr = false) :
    let viewed := if m.mappedAsV4 then unmapped addr else addr
    isPrivate addr = false ∧ isLoopback addr = false ∧ isLinkLocal viewed = false ∧ isMulticast viewed = false ∧
      isReserved viewed = false ∧ isUnspecified viewed = false := by
  simpa only [isBlockedAddress, Bool.or_eq_false_iff, and_assoc] using h

theorem shared_of_special {addr : Address} {y : V4} (hblocked : isBlockedAddress m addr = false)
    (hview : unmapped addr = .v4 y) (h : Special (.v4 y)) : isShared (.v4 y) = true := by
  obtain ⟨hprivate, -, -, hmulticast, hreserved, -⟩ := isBlockedAddress_eq_false hblocked
  have hsame : isPrivate (.v4 y) = isPrivate addr := by
    cases addr with
    | v4 x =>
      obtain rfl := Address.v4.inj hview
      rfl
    | v6 x => exact (isPrivate_of_unmapped hview).symm
  rcases special_v4 h with hspecial | hshared | hspecial
  · rw [hsame, hprivate] at hspecial
    cases hspecial
  · exact hshared
  · exfalso
    cases hrelease : m.mappedAsV4 with
    | true =>
      rw [hrelease, if_pos rfl, hview, hspecial] at hmulticast
      cases hmulticast
    | false =>
      rw [hrelease, if_neg Bool.false_ne_true] at hmulticast hreserved
      cases addr with
      | v4 x =>
        obtain rfl := Address.v4.inj hview
        rw [hspecial] at hmulticast
        cases hmulticast
      | v6 x =>
        -- an older release takes every mapped address for a reserved one
        rcases unmapped_v6 x with ⟨hsame, -⟩ | ⟨z, -, hmapped⟩
        · rw [hsame] at hview
          cases hview
        · rw [isReserved_of_mapped hmapped] at hreserved
          cases hreserved

theorem siteLocal_of_unreachable {x : V6} (hblocked : isBlockedAddress m (.v6 x) = false)
    (hmapped : x.ipv4Mapped = none) (hview : unmapped (.v6 x) = .v6 x)
    (h : Special (.v6 x) ∨ ∃ z ∈ x.embedded, Special (.v4 z)) : isSiteLocal (.v6 x) = true := by
  have htests := isBlockedAddress_eq_false hblocked
  simp only [hview, ite_self] at htests
  obtain ⟨hprivate, hloopback, hlocal, hmulticast, hreserved, hunspecified⟩ := htests
  rcases h with hspecial | ⟨z, hz, -⟩
  · rcases hspecial with h | h | h | h | h | h | h | h
    · rw [hprivate] at h
      cases h
    · rw [hloopback] at h
      cases h
    · rw [hlocal] at h
      cases h
    · exact h
    · cases h
    · rw [hreserved] at h
      cases h
    · rw [hmulticast] at h
      cases h
    · rw [hunspecified] at h
      cases h
  · rcases reserved_or_private_of_embedded hmapped hz with h | h
    · rw [hreserved] at h
      cases h
    · rw [hprivate] at h
      cases h

/-- **The tests miss the shared addresses and those of a site**, and nothing else. -/
theorem unreachable_iff {addr : Address} (hblocked : isBlockedAddress m addr = false) :
    Unreachable addr ↔ isShared (unmapped addr) = true ∨ isSiteLocal (unmapped addr) = true := by
  cases hview : unmapped addr with
  | v4 y =>
    rw [Unreachable, hview]
    constructor
    · intro h
      exact .inl (shared_of_special hblocked hview h)
    · rintro (h | h)
      · exact .inr (.inr (.inr (.inr (.inl h))))
      · cases h
  | v6 y =>
    obtain ⟨hmapped, hself⟩ : y.ipv4Mapped = none ∧ addr = .v6 y := by
      cases addr with
      | v4 x => cases hview
      | v6 x =>
        rcases unmapped_v6 x with ⟨hsame, hmapped⟩ | ⟨z, hv4, -⟩
        · obtain rfl := Address.v6.inj (hsame.symm.trans hview)
          exact ⟨hmapped, rfl⟩
        · rw [hv4] at hview
          cases hview
    subst hself
    rw [Unreachable, hview]
    constructor
    · intro h
      exact .inr (siteLocal_of_unreachable hblocked hmapped hview h)
    · rintro (h | h)
      · cases h
      · exact .inl (.inr (.inr (.inr (.inl h))))

/-! ## The answer of the guard -/

variable {url env : List Char} {parts : SplitResult} {host : List Char}

structure Names (m : Machine) (url : List Char) (parts : SplitResult) (host : List Char) : Prop where
  split_eq : urlsplit m.unicode url = .ok parts
  scheme_eq : parts.scheme = "https".toList
  host_eq : parts.hostname m.unicode = some host

theorem refused_of_not_names (henv : env ∉ devEnvironments) (hsplit : urlsplit m.unicode url = .ok parts)
    (h : ¬ ∃ host, Names m url parts host) :
    ∃ detail, pinnedHandoffRequestParts m url env = .error (badRequest detail) := by
  unfold pinnedHandoffRequestParts
  simp only [hsplit]
  split
  · exact ⟨_, rfl⟩
  · rename_i hscheme
    split
    · exact ⟨_, rfl⟩
    · rename_i hhttp
      split
      · exact ⟨_, rfl⟩
      · rename_i host hhost
        rw [not_not, List.mem_pair] at hscheme
        have hhttps : parts.scheme = "https".toList := hscheme.resolve_left fun heq => hhttp ⟨heq, henv⟩
        exact absurd ⟨host, hsplit, hhttps, hhost⟩ h

theorem pinnedHandoffRequestParts_of_names (henv : env ∉ devEnvironments) (h : Names m url parts host) :
    pinnedHandoffRequestParts m url env =
      match resolveAddresses m host with
      | .error e => .error (.builtin e)
      | .ok [] => .error (badRequest ("Could not resolve handoff host: ".toList ++ host))
      | .ok (pinAddr :: rest) =>
        match (pinAddr :: rest).filter (isBlockedAddress m) with
        | first :: _ =>
          .error (badRequest ("Handoff host ".toList ++ m.unicode.repr host ++
            " resolves to a disallowed address (".toList ++ IpAddress.str first ++ "); refusing to send".toList))
        | [] =>
          match parts.port with
          | .error e => .error (.builtin e)
          | .ok port => .ok (pin parts host port pinAddr) := by
  have hscheme : ¬ parts.scheme ∉ ["http".toList, "https".toList] := by
    rw [not_not, h.scheme_eq]
    decide
  have hhttp : ¬ (parts.scheme = "http".toList ∧ env ∉ devEnvironments) := by
    rw [h.scheme_eq]
    exact fun hboth => absurd hboth.1 (by decide)
  have hallow : allowPrivateHosts m env = false := if_neg henv
  unfold pinnedHandoffRequestParts
  simp only [h.split_eq, if_neg hscheme, if_neg hhttp, h.host_eq, hallow]
  cases resolveAddresses m host with
  | error e => rfl
  | ok addresses =>
    cases addresses with
    | nil => rfl
    | cons pinAddr rest =>
      cases hblocked : (pinAddr :: rest).filter (isBlockedAddress m) with
      | nil => simp only [hblocked]
      | cons first others => simp only [hblocked]

theorem pin_eq (h : Names m url parts host) (port : Option ℕ) (pinAddr : Address) :
    (pin parts host port pinAddr).requestUrl = urlOn parts port pinAddr ∧
      (pin parts host port pinAddr).hostHeader = hostHeaderValue host port "https".toList ∧
      (pin parts host port pinAddr).sniHostname = some host := by
  refine ⟨?_, ?_, ?_⟩
  · have hpath := path_of_netloc h.split_eq (netloc_ne_nil h.host_eq)
    have hscheme : parts.scheme ≠ [] := by
      rw [h.scheme_eq]
      decide
    have hprefix : "https".toList ++ "://".toList = "https://".toList := by decide
    have hurl := @urlunsplit_eq { parts with netloc := ipLiteralForUrl pinAddr ++ (port.map portText).getD [] }
      hscheme hpath
    dsimp only at hurl
    rw [h.scheme_eq, hprefix] at hurl
    rw [← List.append_assoc] at hurl
    unfold pin urlOn
    dsimp only
    rw [h.scheme_eq]
    exact hurl
  · show hostHeaderValue host port parts.scheme = _
    rw [h.scheme_eq]
  · exact if_pos h.scheme_eq

/-! ## Soundness -/

theorem sound_of_badRequest {detail : List Char}
    (h : pinnedHandoffRequestParts m url env = .error (badRequest detail)) : Sound m url env := by
  rw [Sound, h]
  rfl

theorem not_sound_of_builtin {e : PyError} (h : pinnedHandoffRequestParts m url env = .error (.builtin e)) :
    ¬ Sound m url env := by
  rw [Sound, h]
  exact id

theorem readable_iff_of_names (h : Names m url parts host) :
    Readable m url ↔ ∃ addresses, resolveAddresses m host = .ok addresses ∧
      (addresses ≠ [] → (∀ a ∈ addresses, isBlockedAddress m a = false) →
        (∃ port, parts.port = .ok port) ∧
          ∀ a ∈ addresses, isShared (unmapped a) = false ∧ isSiteLocal (unmapped a) = false) := by
  constructor
  · rintro ⟨parts', hsplit, hrest⟩
    obtain rfl := Except.ok.inj (h.split_eq.symm.trans hsplit)
    exact hrest h.scheme_eq host h.host_eq
  · intro hrest
    refine ⟨parts, h.split_eq, fun _ host' hhost => ?_⟩
    obtain rfl := Option.some.inj (h.host_eq.symm.trans hhost)
    exact hrest

theorem guarded_iff (h : Names m url parts host) {addresses : List Address} {port : Option ℕ} {pinAddr : Address}
    (hresolve : resolveAddresses m host = .ok addresses) (hmem : pinAddr ∈ addresses) (hport : parts.port = .ok port)
    (hpass : ∀ a ∈ addresses, isBlockedAddress m a = false) :
    Guarded m url (pin parts host port pinAddr) ↔
      ∀ a ∈ addresses, isShared (unmapped a) = false ∧ isSiteLocal (unmapped a) = false := by
  have hreach : ∀ a ∈ addresses,
      (¬ Unreachable a ↔ isShared (unmapped a) = false ∧ isSiteLocal (unmapped a) = false) := by
    intro a ha
    rw [unreachable_iff (hpass a ha), not_or, Bool.not_eq_true, Bool.not_eq_true]
  constructor
  · rintro ⟨parts', host', port', addresses', addr, hsplit, -, hhost, -, hresolve', -, -, -, -, hall⟩
    obtain rfl := Except.ok.inj (h.split_eq.symm.trans hsplit)
    obtain rfl := Option.some.inj (h.host_eq.symm.trans hhost)
    obtain rfl := Except.ok.inj (hresolve.symm.trans hresolve')
    intro a ha
    exact (hreach a ha).mp (hall a ha)
  · intro hall
    obtain ⟨hurl, hheader, hsni⟩ := pin_eq h port pinAddr
    exact ⟨parts, host, port, addresses, pinAddr, h.split_eq, h.scheme_eq, h.host_eq, hport, hresolve, hmem, hurl,
      hheader, hsni, fun a ha => (hreach a ha).mpr (hall a ha)⟩

theorem sound_iff_of_addresses (henv : env ∉ devEnvironments) (h : Names m url parts host) {pinAddr : Address}
    {rest : List Address} (hresolve : resolveAddresses m host = .ok (pinAddr :: rest)) :
    Sound m url env ↔ ((∀ a ∈ pinAddr :: rest, isBlockedAddress m a = false) → (∃ port, parts.port = .ok port) ∧
      ∀ a ∈ pinAddr :: rest, isShared (unmapped a) = false ∧ isSiteLocal (unmapped a) = false) := by
  have hrun := pinnedHandoffRequestParts_of_names henv h
  simp only [hresolve] at hrun
  cases hfilter : (pinAddr :: rest).filter (isBlockedAddress m) with
  | cons first others =>
    simp only [hfilter] at hrun
    refine iff_of_true (sound_of_badRequest hrun) fun hpass => ?_
    have hfirst := List.mem_filter.mp (hfilter ▸ List.mem_cons_self : first ∈ _)
    rw [hpass first hfirst.1] at hfirst
    exact absurd hfirst.2 Bool.false_ne_true
  | nil =>
    simp only [hfilter] at hrun
    have hpass : ∀ a ∈ pinAddr :: rest, isBlockedAddress m a = false := by
      intro a ha
      exact Bool.eq_false_iff.mpr (List.filter_eq_nil_iff.mp hfilter a ha)
    cases hport : parts.port with
    | error e =>
      simp only [hport] at hrun
      refine iff_of_false (not_sound_of_builtin hrun) fun hcond => ?_
      obtain ⟨⟨port, hok⟩, -⟩ := hcond hpass
      cases hok
    | ok port =>
      simp only [hport] at hrun
      have hguarded := guarded_iff h hresolve List.mem_cons_self hport hpass
      rw [Sound, hrun]
      dsimp only
      rw [hguarded]
      constructor
      · intro hall _
        exact ⟨⟨port, rfl⟩, hall⟩
      · intro hcond
        exact (hcond hpass).2

/-- **The guard is sound exactly on the readable URLs**: no library fails on the text of the URL or on its host, and no
address that passes the tests is a shared one or one of a site. -/
theorem sound_iff_readable (m : Machine) (url : List Char) {env : List Char} (henv : env ∉ devEnvironments) :
    Sound m url env ↔ Readable m url := by
  cases hsplit : urlsplit m.unicode url with
  | error e =>
    have hrun : pinnedHandoffRequestParts m url env = .error (.builtin e) := by
      rw [pinnedHandoffRequestParts, hsplit]
    refine iff_of_false (not_sound_of_builtin hrun) ?_
    rintro ⟨parts, hok, -⟩
    rw [hsplit] at hok
    cases hok
  | ok parts =>
    by_cases hnames : ∃ host, Names m url parts host
    swap
    · obtain ⟨detail, hrun⟩ := refused_of_not_names henv hsplit hnames
      refine iff_of_true (sound_of_badRequest hrun) ⟨parts, hsplit, fun hscheme host hhost => ?_⟩
      exact absurd ⟨host, hsplit, hscheme, hhost⟩ hnames
    obtain ⟨host, h⟩ := hnames
    have hrun := pinnedHandoffRequestParts_of_names henv h
    rw [readable_iff_of_names h]
    cases hresolve : resolveAddresses m host with
    | error e =>
      rw [hresolve] at hrun
      refine iff_of_false (not_sound_of_builtin hrun) ?_
      rintro ⟨addresses, hok, -⟩
      cases hok
    | ok addresses =>
      cases addresses with
      | nil =>
        rw [hresolve] at hrun
        exact iff_of_true (sound_of_badRequest hrun) ⟨[], rfl, fun hne => absurd rfl hne⟩
      | cons pinAddr rest =>
        rw [sound_iff_of_addresses henv h hresolve]
        constructor
        · intro hcond
          exact ⟨pinAddr :: rest, rfl, fun _ => hcond⟩
        · rintro ⟨addresses, hok, hcond⟩
          obtain rfl := Except.ok.inj hok
          exact hcond (List.cons_ne_nil pinAddr rest)

def sampleMachine : Machine where
  unicode := { nfkc := id, lower := fun s => s.map Char.toLower, repr := fun s => '\'' :: (s ++ ['\'']) }
  encodes host := host.all (·.toNat < 128)
  lookup _ := none

theorem sound_public_address :
    Sound sampleMachine "https://8.8.8.8:8443/handoff?x=1".toList "production".toList := by
  refine (sound_iff_readable sampleMachine "https://8.8.8.8:8443/handoff?x=1".toList (by decide +kernel)).mpr ?_
  refine ⟨⟨"https".toList, "8.8.8.8:8443".toList, "/handoff".toList, "x=1".toList, []⟩, rfl, fun _ host hhost => ?_⟩
  obtain rfl : "8.8.8.8".toList = host := Option.some.inj hhost
  refine ⟨[.v4 ⟨8, 8, 8, 8⟩], rfl, fun _ _ => ⟨⟨some 8443, rfl⟩, fun a ha => ?_⟩⟩
  obtain rfl := List.mem_singleton.mp ha
  exact ⟨by decide +kernel, by decide +kernel⟩

/-- A host of the shared address space is sent the request. -/
theorem shared_address_pinned : ¬ ∀ (m : Machine) (url env : List Char), env ∉ devEnvironments → Sound m url env := by
  intro hsound
  have hpin : pinnedHandoffRequestParts sampleMachine "https://100.64.0.1/handoff".toList "production".toList =
      .ok ⟨"https://100.64.0.1/handoff".toList, "100.64.0.1".toList, some "100.64.0.1".toList⟩ := rfl
  have hsample := hsound sampleMachine "https://100.64.0.1/handoff".toList "production".toList (by decide +kernel)
  rw [Sound, hpin] at hsample
  obtain ⟨parts, host, -, addresses, -, hsplit, -, hhost, -, hresolve, -, -, -, -, hall⟩ := hsample
  obtain rfl : ⟨"https".toList, "100.64.0.1".toList, "/handoff".toList, [], []⟩ = parts := Except.ok.inj hsplit
  obtain rfl : "100.64.0.1".toList = host := Option.some.inj hhost
  obtain rfl : [.v4 ⟨100, 64, 0, 1⟩] = addresses := Except.ok.inj hresolve
  have hshared : isShared (.v4 ⟨100, 64, 0, 1⟩) = true := by decide +kernel
  exact hall _ List.mem_cons_self (.inr (.inr (.inr (.inr (.inl hshared)))))

end FavoniusBackend.Security.HandoffTarget
