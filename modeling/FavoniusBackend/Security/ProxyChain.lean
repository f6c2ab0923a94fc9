import FavoniusBackend.Security.ForwardedIp

/-!
# A request through a chain of proxies

A client sends any headers.  Every proxy on the way appends the address that it saw to `X-Forwarded-For` and passes the
other headers on; the server sees the last proxy as its peer.

Whatever the client puts in `X-Forwarded-For` and `X-Real-IP`, the chain that the server reads ends with the client's
address and trusted hops.  `Forwarded` is read first, though, and no proxy touches it: the client's address is resolved
just where there is no proxy or the addresses in the client's own `Forwarded` lines do not give another one
(`resolves_client_iff`).
-/

namespace FavoniusBackend.Security.ProxyChain

open Lib
open Lib.IpAddress (Address)
open scoped Lib.IpAddress
open Security.ForwardedIp

/-! ## Proxies -/

/-- A text of an address: it reads as the address and has no separator, quote, bracket or space. -/
structure AddressText where
  text : List Char
  address : Address
  parses : IpAddress.parse text = some address
  plain : ∀ c ∈ text, c ≠ ',' ∧ c ≠ '"' ∧ c ≠ '[' ∧ Text.isSpace c = false

/-- How a proxy appends: as a line of its own, to the last line, or to one line that joins all of them. -/
inductive Append
  | ownLine
  | lastLine
  | oneLine
  deriving DecidableEq, Repr

/-- The lines of `X-Forwarded-For` with the text appended. -/
def Append.lines (append : Append) (values : List (List Char)) (text : List Char) : List (List Char) :=
  match append with
  | .ownLine => values ++ [text]
  | .lastLine =>
    match values.getLast? with
    | none => [text]
    | some last => values.dropLast ++ [join [last, text]]
  | .oneLine => [join (values ++ [text])]

def appendForwardedFor (append : Append) (text : List Char) (headers : Headers) : Headers :=
  headers.filter (fun line => decide (line.1 ≠ .xForwardedFor)) ++
    (append.lines (getlist headers .xForwardedFor) text).map fun value => (HeaderName.xForwardedFor, value)

/-- A proxy: the text under which the next party sees its address, and how it appends. -/
structure Proxy where
  seenAs : AddressText
  append : Append := .ownLine

def forward : AddressText → List Proxy → Headers → AddressText × Headers
  | sender, [], headers => (sender, headers)
  | sender, proxy :: proxies, headers =>
    forward proxy.seenAs proxies (appendForwardedFor proxy.append sender.text headers)

/-! ## What the headers give -/

theorem parseXffChain_append (values rest : List Char) :
    parseXffChain (values ++ ',' :: rest) = parseXffChain values ++ parseXffChain rest := by
  unfold parseXffChain
  rw [List.splitOn_append_cons_self, List.filterMap_append]

theorem normalizeForwardedIp_space (rawIp : List Char) :
    normalizeForwardedIp (' ' :: rawIp) = normalizeForwardedIp rawIp := by
  have hstrip : Text.strip (' ' :: rawIp) = Text.strip rawIp := by
    unfold Text.strip Text.stripWhere
    rw [List.dropWhile_cons_of_pos (by decide)]
  unfold normalizeForwardedIp readAddress
  rw [hstrip]

theorem parseXffChain_space (values : List Char) : parseXffChain (' ' :: values) = parseXffChain values := by
  unfold parseXffChain
  rw [List.splitOn_cons_eq_if_modifyHead, if_neg (by decide)]
  cases values.splitOn ',' with
  | nil => rfl
  | cons first rest => simp [List.filterMap_cons, normalizeForwardedIp_space]

theorem parseXffChain_join (values : List (List Char)) :
    parseXffChain (join values) = values.flatMap parseXffChain := by
  induction values with
  | nil => rfl
  | cons value values ih =>
    cases values with
    | nil => simp [join]
    | cons next rest =>
      have hjoin : join (value :: next :: rest) = value ++ ',' :: ' ' :: join (next :: rest) := by
        simp [join, List.intercalate_cons_cons]
      rw [hjoin, parseXffChain_append, parseXffChain_space, ih]
      rfl

theorem flatMap_filter_nonempty (values : List (List Char)) :
    (values.filter fun value => !value.isEmpty).flatMap parseXffChain = values.flatMap parseXffChain := by
  induction values with
  | nil => rfl
  | cons value values ih =>
    cases value with
    | nil =>
      have hnil : parseXffChain [] = [] := rfl
      simp [hnil, ih]
    | cons c cs => simp [ih]

theorem parseXffChain_collect (headers : Headers) (name : HeaderName) :
    parseXffChain (collectHeaderValues headers name) = (getlist headers name).flatMap parseXffChain := by
  unfold collectHeaderValues
  dsimp only
  split
  · rw [parseXffChain_join, flatMap_filter_nonempty]
  · rename_i hempty
    rw [not_ne_iff] at hempty
    have hnone : (getlist headers name).flatMap parseXffChain = [] := by
      rw [← flatMap_filter_nonempty, ← parseXffChain_join, hempty]
      rfl
    rw [hnone]
    cases hlines : getlist headers name with
    | nil => rfl
    | cons first rest =>
      rw [hlines, List.flatMap_cons] at hnone
      exact (List.append_eq_nil_iff.mp hnone).1

theorem AddressText.text_ne_nil (x : AddressText) : x.text ≠ [] := by
  intro hnil
  have hnone : IpAddress.parse [] = none := by decide
  have hparses := x.parses
  rw [hnil, hnone] at hparses
  cases hparses

theorem AddressText.readAddress (x : AddressText) : ForwardedIp.readAddress x.text = some x.address := by
  have hspace : Text.strip x.text = x.text := Text.stripWhere_eq_self fun c hc => (x.plain c hc).2.2.2
  have hquote : Text.stripWhere (· == '"') x.text = x.text :=
    Text.stripWhere_eq_self fun c hc => by simpa using (x.plain c hc).2.1
  have hport : stripPort x.text = x.text := by
    unfold stripPort
    split
    · rename_i rest heq
      exact absurd rfl (x.plain '[' (heq ▸ List.mem_cons_self)).2.2.1
    · exact if_neg fun hone => IpAddress.count_colon_of_parse x.parses hone.1
  unfold ForwardedIp.readAddress
  dsimp only
  rw [hspace, hquote, if_neg x.text_ne_nil, hport, x.parses]

theorem AddressText.parseXffChain (x : AddressText) :
    ForwardedIp.parseXffChain x.text = [IpAddress.str x.address] := by
  have hcomma : ',' ∉ x.text := fun hmem => (x.plain ',' hmem).1 rfl
  unfold ForwardedIp.parseXffChain
  rw [List.splitOn_eq_singleton hcomma]
  simp [normalizeForwardedIp, x.readAddress]

theorem flatMap_lines (append : Append) (values : List (List Char)) (x : AddressText) :
    (append.lines values x.text).flatMap parseXffChain =
      values.flatMap parseXffChain ++ [IpAddress.str x.address] := by
  cases append with
  | ownLine => simp [Append.lines, List.flatMap_append, x.parseXffChain]
  | oneLine => simp [Append.lines, parseXffChain_join, List.flatMap_append, x.parseXffChain]
  | lastLine =>
    rcases List.eq_nil_or_concat values with rfl | ⟨init, last, rfl⟩
    · simp [Append.lines, x.parseXffChain]
    · simp [Append.lines, parseXffChain_join, List.flatMap_append, x.parseXffChain]

theorem getlist_append_map (headers : Headers) (lines : List (List Char)) :
    getlist (headers.filter (fun line => decide (line.1 ≠ .xForwardedFor)) ++
      lines.map fun value => (HeaderName.xForwardedFor, value)) .xForwardedFor = lines := by
  have hnone : (headers.filter fun line => decide (line.1 ≠ .xForwardedFor)).filter
      (fun line => decide (line.1 = .xForwardedFor)) = [] := by
    rw [List.filter_eq_nil_iff]
    intro line hline
    simpa using (List.mem_filter.mp hline).2
  unfold getlist
  rw [List.filter_append, hnone, List.nil_append, List.filter_eq_self.mpr (by simp)]
  simp

theorem xffChain_appendForwardedFor (append : Append) (x : AddressText) (headers : Headers) :
    parseXffChain (collectHeaderValues (appendForwardedFor append x.text headers) .xForwardedFor) =
      parseXffChain (collectHeaderValues headers .xForwardedFor) ++ [IpAddress.str x.address] := by
  rw [parseXffChain_collect, parseXffChain_collect, appendForwardedFor, getlist_append_map, flatMap_lines]

theorem getlist_appendForwardedFor (append : Append) (text : List Char) (headers : Headers) {name : HeaderName}
    (hname : name ≠ .xForwardedFor) :
    getlist (appendForwardedFor append text headers) name = getlist headers name := by
  have hnew : ∀ lines : List (List Char), ((lines.map fun value =>
      (HeaderName.xForwardedFor, value)).filter fun line => decide (line.1 = name)) = [] := by
    intro lines
    rw [List.filter_eq_nil_iff]
    intro line hline
    obtain ⟨value, -, rfl⟩ := List.mem_map.mp hline
    simpa using fun heq => hname heq.symm
  have hold : (headers.filter fun line => decide (line.1 ≠ .xForwardedFor)).filter
      (fun line => decide (line.1 = name)) = headers.filter fun line => decide (line.1 = name) := by
    rw [List.filter_filter]
    refine List.filter_congr fun line _ => ?_
    by_cases heq : line.1 = name
    · simp [heq, hname]
    · simp [heq]
  unfold appendForwardedFor getlist
  rw [List.filter_append, hold, hnew, List.append_nil]

/-! ## The request that arrives -/

/-- The parties whose addresses are appended on the way. -/
def senders : AddressText → List Proxy → List AddressText
  | _, [] => []
  | sender, proxy :: proxies => sender :: senders proxy.seenAs proxies

theorem xffChain_forward (sender : AddressText) (proxies : List Proxy) (headers : Headers) :
    parseXffChain (collectHeaderValues (forward sender proxies headers).2 .xForwardedFor) =
      parseXffChain (collectHeaderValues headers .xForwardedFor) ++
        (senders sender proxies).map fun x => IpAddress.str x.address := by
  induction proxies generalizing sender headers with
  | nil =>
    show _ = _ ++ []
    rw [List.append_nil]
    rfl
  | cons proxy proxies ih =>
    rw [forward, ih, xffChain_appendForwardedFor, List.append_assoc]
    rfl

theorem getlist_forward (sender : AddressText) (proxies : List Proxy) (headers : Headers) {name : HeaderName}
    (hname : name ≠ .xForwardedFor) : getlist (forward sender proxies headers).2 name = getlist headers name := by
  induction proxies generalizing sender headers with
  | nil => rfl
  | cons proxy proxies ih => rw [forward, ih, getlist_appendForwardedFor _ _ _ hname]

theorem peer_forward (sender : AddressText) (proxies : List Proxy) (headers : Headers) :
    (forward sender proxies headers).1 = (proxies.getLast?.map Proxy.seenAs).getD sender := by
  induction proxies generalizing sender headers with
  | nil => rfl
  | cons proxy proxies ih =>
    rw [forward, ih]
    cases proxies with
    | nil => rfl
    | cons next rest =>
      obtain ⟨last, hlast⟩ : ∃ last, (next :: rest).getLast? = some last :=
        ⟨_, List.getLast?_eq_some_getLast (by simp)⟩
      rw [List.getLast?_cons_cons, hlast]
      rfl

theorem senders_eq (sender : AddressText) {proxies : List Proxy} (hproxies : proxies ≠ []) :
    senders sender proxies = sender :: proxies.dropLast.map Proxy.seenAs := by
  induction proxies generalizing sender with
  | nil => exact absurd rfl hproxies
  | cons proxy proxies ih =>
    cases proxies with
    | nil => rfl
    | cons next rest => rw [senders, ih proxy.seenAs (by simp), List.dropLast_cons_cons, List.map_cons]

/-- The addresses that the `Forwarded` lines name. -/
def claimed (headers : Headers) : List Address :=
  ((collectHeaderValues headers .forwarded).splitOn ',').filterMap fun proxyHop => (forItem proxyHop).bind readAddress

theorem parseForwardedHeaderChain_eq (headers : Headers) :
    parseForwardedHeaderChain (collectHeaderValues headers .forwarded) = (claimed headers).map IpAddress.str := by
  unfold parseForwardedHeaderChain claimed
  rw [List.map_filterMap]
  refine List.filterMap_congr fun proxyHop _ => ?_
  show (forItem proxyHop).bind normalizeForwardedIp = ((forItem proxyHop).bind readAddress).map IpAddress.str
  cases forItem proxyHop with
  | none => rfl
  | some value => rfl

theorem parseXffChain_eq (xff : List Char) :
    ∃ chain : List Address, parseXffChain xff = chain.map IpAddress.str := by
  refine ⟨(xff.splitOn ',').filterMap readAddress, ?_⟩
  rw [List.map_filterMap]
  rfl

theorem given_of_isTrustedProxy {trust : Trust} {peerIp : List Char} (h : isTrustedProxy trust peerIp = true) :
    trust.given = true := by
  rw [isTrustedProxy, Bool.or_eq_true, Bool.and_eq_true] at h
  rw [Trust.given, Bool.or_eq_true]
  rcases h with ⟨hprivate, -⟩ | hnetwork
  · exact .inr hprivate
  · left
    obtain ⟨ip, -, hany⟩ := (Option.any_eq_true _ _).mp hnetwork
    obtain ⟨net, hnet, -⟩ := List.any_eq_true.mp hany
    cases hnetworks : trust.trustedNetworks with
    | nil => simp [hnetworks] at hnet
    | cons first rest => rfl

section Client

variable {trust : Trust} {client : AddressText} {proxies : List Proxy} {headers : Headers}

/-- **What the headers give** behind proxies: the address that the `Forwarded` lines of the client give, and the client's
own if they give none. -/
theorem extractForwardedIp_forward (hgiven : trust.given = true) (hproxies : proxies ≠ [])
    (hhops : ∀ proxy ∈ proxies.dropLast, trust.hop proxy.seenAs.address = true)
    (hclient : trust.hop client.address = false) :
    extractForwardedIp trust (forward client proxies headers).2 =
      some (IpAddress.str ((origin trust (claimed headers)).getD client.address)) := by
  have hforwarded : collectHeaderValues (forward client proxies headers).2 .forwarded =
      collectHeaderValues headers .forwarded := by
    unfold collectHeaderValues
    rw [getlist_forward client proxies headers (by simp)]
  obtain ⟨before, hbefore⟩ := parseXffChain_eq (collectHeaderValues headers .xForwardedFor)
  have hxff : parseXffChain (collectHeaderValues (forward client proxies headers).2 .xForwardedFor) =
      (before ++ client.address :: proxies.dropLast.map fun proxy => proxy.seenAs.address).map IpAddress.str := by
    rw [xffChain_forward, hbefore, senders_eq client hproxies, List.map_append, List.map_cons, List.map_cons,
      List.map_map, List.map_map]
    rfl
  have horigin : origin trust (before ++ client.address :: proxies.dropLast.map fun proxy => proxy.seenAs.address) =
      some client.address := by
    refine origin_append before hclient ?_
    intro ip hip
    obtain ⟨proxy, hproxy, rfl⟩ := List.mem_map.mp hip
    exact hhops proxy hproxy
  unfold extractForwardedIp
  rw [hforwarded, parseForwardedHeaderChain_eq, selectClientIp_map_str hgiven, hxff, selectClientIp_map_str hgiven,
    horigin]
  cases origin trust (claimed headers) with
  | none => rfl
  | some ip => rfl

/-- **When the client is resolved.**  The client's address is in no trusted range; the proxies are trusted, the last one
as a peer and the others as hops.  The middleware, and behind a proxy the extraction itself, give the address of the
client if and only if there is no proxy, or the client's `Forwarded` lines name no address or give the client's own:
the rightmost one that is not a trusted hop, or else the leftmost one. -/
theorem resolves_client_iff (hhops : ∀ proxy ∈ proxies.dropLast, trust.hop proxy.seenAs.address = true)
    (hpeer : ∀ proxy ∈ proxies.getLast?, isTrustedProxy trust proxy.seenAs.text = true)
    (hclient : trust.hop client.address = false ∧ isTrustedProxy trust client.text = false) :
    ((resolveClientIp trust (some (forward client proxies headers).1.text) (forward client proxies headers).2).bind
        IpAddress.parse = some client.address ↔
      proxies = [] ∨ ∀ ip, origin trust (claimed headers) = some ip → ip = client.address) ∧
    (proxies ≠ [] →
      ((extractForwardedIp trust (forward client proxies headers).2).bind IpAddress.parse = some client.address ↔
        ∀ ip, origin trust (claimed headers) = some ip → ip = client.address)) := by
  by_cases hproxies : proxies = []
  · subst hproxies
    refine ⟨?_, fun hne => absurd rfl hne⟩
    have hresolve : resolveClientIp trust (some client.text) headers = some client.text := by
      unfold resolveClientIp
      dsimp only
      rw [if_neg client.text_ne_nil, hclient.2]
      rfl
    show (resolveClientIp trust (some client.text) headers).bind IpAddress.parse = some client.address ↔ _
    rw [hresolve]
    simp [client.parses]
  · obtain ⟨last, hlast⟩ := Option.ne_none_iff_exists'.mp
      (fun hnone => hproxies (List.getLast?_eq_none_iff.mp hnone))
    have htrusted := hpeer last hlast
    have hextract : extractForwardedIp trust (forward client proxies headers).2 =
        some (IpAddress.str ((origin trust (claimed headers)).getD client.address)) :=
      extractForwardedIp_forward (given_of_isTrustedProxy htrusted) hproxies hhops hclient.1
    have hresolve : resolveClientIp trust (some (forward client proxies headers).1.text)
        (forward client proxies headers).2 = extractForwardedIp trust (forward client proxies headers).2 := by
      rw [peer_forward, hlast]
      show (if last.seenAs.text = [] then none
        else if !isTrustedProxy trust last.seenAs.text then some last.seenAs.text
        else some ((extractForwardedIp trust (forward client proxies headers).2).getD last.seenAs.text)) = _
      rw [if_neg last.seenAs.text_ne_nil, htrusted, hextract]
      rfl
    have hparse : (extractForwardedIp trust (forward client proxies headers).2).bind IpAddress.parse =
        some client.address ↔ ∀ ip, origin trust (claimed headers) = some ip → ip = client.address := by
      rw [hextract, Option.bind_some, IpAddress.parse_str, Option.some_inj]
      cases origin trust (claimed headers) with
      | none => simp
      | some ip => simp
    rw [hresolve, hparse]
    exact ⟨by simp [hproxies], fun _ => Iff.rfl⟩

end Client

theorem plain_of_all {text : List Char}
    (h : text.all (fun c => decide (c ≠ ',' ∧ c ≠ '"' ∧ c ≠ '[' ∧ Text.isSpace c = false)) = true) :
    ∀ c ∈ text, c ≠ ',' ∧ c ≠ '"' ∧ c ≠ '[' ∧ Text.isSpace c = false :=
  fun c hc => of_decide_eq_true (List.all_eq_true.mp h c hc)

/-- The text `198.41.0.4`. -/
def root4 : AddressText :=
  ⟨"198.41.0.4".toList, .v4 ⟨198, 41, 0, 4⟩, by decide +kernel, plain_of_all (by decide +kernel)⟩

/-- The text `100.64.0.2`, of an edge proxy. -/
def edge : AddressText :=
  ⟨"100.64.0.2".toList, .v4 ⟨100, 64, 0, 2⟩, by decide +kernel, plain_of_all (by decide +kernel)⟩

/-- The text `::ffff:100.64.0.3`, of another one. -/
def mappedEdge : AddressText :=
  ⟨"::ffff:100.64.0.3".toList, .v6 ⟨⟨[0, 0, 0, 0, 0, 65535, 25664, 3], rfl⟩, none⟩, by decide +kernel,
    plain_of_all (by decide +kernel)⟩

/-- Two edge proxies, and a client that writes another address into both headers that the proxies do not overrule. -/
theorem resolves_client_behind_two_edges :
    (resolveClientIp {} (some (forward root4 [⟨mappedEdge, .lastLine⟩, ⟨edge, .ownLine⟩]
          [(.xForwardedFor, "8.8.8.8".toList), (.xRealIp, "8.8.8.8".toList)]).1.text)
        (forward root4 [⟨mappedEdge, .lastLine⟩, ⟨edge, .ownLine⟩]
          [(.xForwardedFor, "8.8.8.8".toList), (.xRealIp, "8.8.8.8".toList)]).2).bind IpAddress.parse =
      some root4.address := by
  refine (resolves_client_iff ?_ ?_ ?_).1.mpr (.inr ?_)
  · decide +kernel
  · decide +kernel
  · decide +kernel
  · decide +kernel

/-- One trusted edge proxy, and a client outside the trusted ranges that sends `Forwarded: for=8.8.8.8`: that address is
resolved. -/
theorem resolves_forwarded_of_client :
    (isTrustedProxy {} edge.text = true ∧ Trust.hop {} root4.address = false ∧ isTrustedProxy {} root4.text = false) ∧
      ¬ (resolveClientIp {} (some (forward root4 [⟨edge, .ownLine⟩] [(.forwarded, "for=8.8.8.8".toList)]).1.text)
          (forward root4 [⟨edge, .ownLine⟩] [(.forwarded, "for=8.8.8.8".toList)]).2).bind IpAddress.parse =
        some root4.address := by
  decide +kernel

end FavoniusBackend.Security.ProxyChain
