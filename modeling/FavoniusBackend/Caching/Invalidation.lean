import FavoniusBackend.Lib.Dict
import FavoniusBackend.Lib.Glob
import FavoniusBackend.Lib.Run

/-!
# Invalidation of cached results

One cache manager holds the results of queries, the variables of stations and their prices, under keys that are texts.
An invalidation removes the keys that match a glob pattern.  The key of a query is a digest, in which no table is named;
the other keys are names joined by colons, so that a colon or a character of a pattern in a name leads the pattern astray.
-/

namespace FavoniusBackend.Caching.Invalidation

open Lib
open Lib.Glob Lib.Run

abbrev Text := List Char

variable {α P : Type}

/-! ## The manager -/

structure CacheEntry (α : Type) where
  value : α
  createdAt : ℤ
  lastAccessed : ℤ
  accessCount : ℕ
  ttl : ℤ

structure Stats where
  hits : ℕ := 0
  misses : ℕ := 0
  evictions : ℕ := 0
  size : ℕ := 0

structure CacheManager (α : Type) where
  maxSize : ℕ := 10000
  defaultTtl : ℤ := 300000000
  cache : Dict Text (CacheEntry α) := Dict.empty
  accessOrder : List Text := []
  stats : Stats := {}

/-- `_evict_unlocked`. -/
def CacheManager.evict (m : CacheManager α) (key : Text) : CacheManager α :=
  if key ∈ m.cache then
    { m with
      cache := m.cache.erase key
      accessOrder := m.accessOrder.erase key
      stats := { m.stats with evictions := m.stats.evictions + 1, size := (m.cache.erase key).items.length } }
  else m

/-- `_evict_lru_unlocked`. -/
def CacheManager.evictLru (m : CacheManager α) : CacheManager α :=
  match m.accessOrder with
  | [] => m
  | lruKey :: _ => m.evict lruKey

def CacheEntry.expired (entry : CacheEntry α) (now : ℤ) : Prop := entry.ttl ≠ 0 ∧ entry.ttl < now - entry.createdAt

instance (entry : CacheEntry α) (now : ℤ) : Decidable (entry.expired now) := inferInstanceAs (Decidable (_ ∧ _))

def CacheManager.get (m : CacheManager α) (now : ℤ) (key : Text) : Option α × CacheManager α :=
  match m.cache.get? key with
  | none => (none, { m with stats := { m.stats with misses := m.stats.misses + 1 } })
  | some entry =>
    if entry.expired now then
      (none, { m.evict key with stats := { (m.evict key).stats with misses := m.stats.misses + 1 } })
    else
      (some entry.value,
        { m with
          cache := m.cache.set key { entry with lastAccessed := now, accessCount := entry.accessCount + 1 }
          accessOrder := m.accessOrder.erase key ++ [key]
          stats := { m.stats with hits := m.stats.hits + 1 } })

def CacheManager.set (m : CacheManager α) (now : ℤ) (key : Text) (value : α) (ttl : ℤ) : CacheManager α :=
  let m := if m.maxSize ≤ m.cache.items.length ∧ key ∉ m.cache then m.evictLru else m
  let cache := m.cache.set key ⟨value, now, now, 0, if ttl = 0 then m.defaultTtl else ttl⟩
  { m with
    cache := cache
    accessOrder := m.accessOrder.erase key ++ [key]
    stats := { m.stats with size := cache.items.length } }

def CacheManager.invalidatePattern (m : CacheManager α) (pattern : Text) : CacheManager α :=
  (m.cache.keys.filter fun key => fnmatch key pattern).foldl CacheManager.evict m

/-! ## The caches -/

structure Variable where
  stationId : Text
  componentName : Text
  componentInstance : Text
  variableName : Text
  variableInstance : Text
  deriving DecidableEq

/-- What is cached: the result of a query, a variable, and the prices of a station, at a node if one is given. -/
inductive Item (P : Type) where
  | query (text : Text) (params : P)
  | deviceVar (x : Variable)
  | prices (stationId : Text) (nodeId : Option Text)

/-- The functions that are given: the text of a tuple, the hex digest of a text, and the tables that a query reads. -/
structure World (P : Type) where
  str : P → Text
  md5 : Text → Text
  reads : Text → Text → Prop

def Variable.names (x : Variable) : Text :=
  x.stationId ++ ':' :: (x.componentName ++ ':' :: (x.componentInstance ++ ':' :: (x.variableName ++ ':' ::
    x.variableInstance)))

def getVariableKey (x : Variable) : Text := "device_var:".toList ++ x.names

/-- `node_id or 'default'`. -/
def nodeText (nodeId : Option Text) : Text := if nodeId.getD [] = [] then "default".toList else nodeId.getD []

def pricesNames (stationId : Text) (nodeId : Option Text) : Text := stationId ++ ':' :: nodeText nodeId

/-- The digest in `_hash_query`. -/
def digest (w : World P) (text : Text) (params : P) : Text := w.md5 (text ++ ':' :: w.str params)

/-- The key of an item: `_hash_query`, `_get_variable_key` and the key of the prices. -/
def Item.key (w : World P) : Item P → Text
  | .query text params => "query:".toList ++ digest w text params
  | .deviceVar x => getVariableKey x
  | .prices stationId nodeId => "prices:".toList ++ pricesNames stationId nodeId

/-- The pattern of `invalidate_table`. -/
def tablePattern (tableName : Text) : Text := "query:".toList ++ ('*' :: (tableName ++ ['*']))

/-- The pattern of `invalidate_station`. -/
def stationPattern (stationId : Text) : Text := "device_var:".toList ++ (stationId ++ [':', '*'])

/-- The pattern of `invalidate_prices`. -/
def pricesPattern (stationId : Option Text) : Text :=
  if stationId.getD [] = [] then "prices:".toList ++ ['*']
  else "prices:".toList ++ (stationId.getD [] ++ [':', '*'])

/-! ## Runs -/

inductive Call (P α : Type) where
  | set (item : Item P) (value : α) (ttl : ℤ)
  | get (item : Item P)
  | invalidateTable (tableName : Text)
  | invalidateStation (stationId : Text)
  | invalidatePrices (stationId : Option Text)

/-- The manager, and the items that were set so far. -/
structure State (P α : Type) where
  manager : CacheManager α
  items : List (Item P) := []

def step (w : World P) (s : State P α) (call : ℤ × Call P α) : State P α :=
  match call with
  | (now, .set item value ttl) => ⟨s.manager.set now (item.key w) value ttl, item :: s.items⟩
  | (now, .get item) => { s with manager := (s.manager.get now (item.key w)).2 }
  | (_, .invalidateTable tableName) => { s with manager := s.manager.invalidatePattern (tablePattern tableName) }
  | (_, .invalidateStation stationId) => { s with manager := s.manager.invalidatePattern (stationPattern stationId) }
  | (_, .invalidatePrices stationId) => { s with manager := s.manager.invalidatePattern (pricesPattern stationId) }

/-- What a `get` returns. -/
def returned (w : World P) (s : State P α) (now : ℤ) (item : Item P) : Option α := (s.manager.get now (item.key w)).1

/-! ## Exactness -/

def Gone (w : World P) (s : State P α) (item : Item P) : Prop :=
  ∀ calls : List (ℤ × Call P α), (∀ call ∈ calls, ∀ other value ttl, call.2 = .set other value ttl →
    other.key w ≠ item.key w) → ∀ now, returned w (run (step w) s calls) now item = none

def Kept (w : World P) (s s' : State P α) (item : Item P) : Prop := ∀ now, returned w s' now item = returned w s now item

def Item.station : Item P → Option Text
  | .query _ _ => none
  | .deviceVar x => some x.stationId
  | .prices stationId _ => some stationId

def Item.IsPrices : Item P → Prop
  | .prices _ _ => True
  | _ => False

def Item.IsVariable : Item P → Prop
  | .deviceVar _ => True
  | _ => False

/-- No other variable has the key of a variable that is set or asked for.  After an invalidation, the items that were
set before and belong to the table or the station are gone, and those of other stations are kept. -/
def Exact (w : World P) (s : State P α) (call : ℤ × Call P α) : Prop :=
  match call.2 with
  | .set item _ _ | .get item => ∀ x, item = .deviceVar x → ∀ y, getVariableKey y = getVariableKey x → y = x
  | .invalidateTable tableName => ∀ text params, .query text params ∈ s.items → w.reads text tableName →
      Gone w (step w s call) (.query text params)
  | .invalidateStation stationId => ∀ item ∈ s.items,
      (item.IsVariable → item.station = some stationId → Gone w (step w s call) item) ∧
      (∀ other ∈ item.station, other ≠ stationId → Kept w s (step w s call) item)
  | .invalidatePrices none => True
  | .invalidatePrices (some stationId) => ∀ item ∈ s.items,
      (item.IsPrices → item.station = some stationId → Gone w (step w s call) item) ∧
      (∀ other ∈ item.station, other ≠ stationId → Kept w s (step w s call) item)

/-- The names of a variable without colons. -/
structure Variable.Plain (x : Variable) : Prop where
  station : ':' ∉ x.stationId
  component : ':' ∉ x.componentName
  componentInstance : ':' ∉ x.componentInstance
  variableName : ':' ∉ x.variableName
  variableInstance : ':' ∉ x.variableInstance

/-- The names of a variable have no colon.  The digest of a cached query has the name of an invalidated table that it
reads.  The id of an invalidated station, as a pattern, goes with the names of its own cached items and with no others. -/
def WellNamed (w : World P) (s : State P α) (call : ℤ × Call P α) : Prop :=
  match call.2 with
  | .set item _ _ | .get item => ∀ x, item = .deviceVar x → x.Plain
  | .invalidateTable tableName => ∀ text params, .query text params ∈ s.items → w.reads text tableName →
      fnmatch (digest w text params) ('*' :: (tableName ++ ['*'])) = true
  | .invalidateStation stationId => ∀ x, .deviceVar x ∈ s.items →
      (fnmatch x.names (stationId ++ [':', '*']) = true ↔ x.stationId = stationId)
  | .invalidatePrices none => True
  | .invalidatePrices (some stationId) => ∀ station nodeId, .prices station nodeId ∈ s.items →
      (stationId = [] ∨ fnmatch (pricesNames station nodeId) (stationId ++ [':', '*']) = true ↔ station = stationId)

/-! ## The manager and its keys -/

theorem get?_evict (m : CacheManager α) (key k : Text) :
    (m.evict key).cache.get? k = if k = key then none else m.cache.get? k := by
  unfold CacheManager.evict
  split
  · exact Dict.get?_erase m.cache key k
  · rename_i hnot
    split
    · rename_i heq
      rw [heq]
      exact Option.eq_none_iff_forall_not_mem.mpr fun entry hentry => hnot (Dict.mem_of_get? hentry)
    · rfl

theorem get?_foldl_evict (keys : List Text) (m : CacheManager α) (k : Text) :
    (keys.foldl CacheManager.evict m).cache.get? k = if k ∈ keys then none else m.cache.get? k := by
  induction keys generalizing m with
  | nil => rfl
  | cons key keys ih =>
    rw [List.foldl_cons, ih, get?_evict]
    by_cases hmem : k ∈ keys
    · rw [if_pos hmem, if_pos (List.mem_cons_of_mem key hmem)]
    · rw [if_neg hmem]
      by_cases hk : k = key
      · rw [if_pos hk, if_pos (hk ▸ List.mem_cons_self)]
      · rw [if_neg hk, if_neg (List.not_mem_cons_of_ne_of_not_mem hk hmem)]

/-- An invalidation removes the keys that match, and no others. -/
theorem get?_invalidatePattern (m : CacheManager α) (pattern k : Text) :
    (m.invalidatePattern pattern).cache.get? k = if fnmatch k pattern = true then none else m.cache.get? k := by
  unfold CacheManager.invalidatePattern
  rw [get?_foldl_evict]
  split
  · rename_i hmem
    rw [if_pos (List.mem_filter.mp hmem).2]
  · rename_i hmem
    split
    · rename_i hmatch
      refine Option.eq_none_iff_forall_not_mem.mpr fun entry hentry => hmem ?_
      exact List.mem_filter.mpr ⟨Dict.mem_of_get? hentry, hmatch⟩
    · rfl

theorem get_fst (m : CacheManager α) (now : ℤ) (key : Text) :
    (m.get now key).1 = (m.cache.get? key).bind fun entry => if entry.expired now then none else some entry.value := by
  unfold CacheManager.get
  cases m.cache.get? key with
  | none => rfl
  | some entry =>
    dsimp only [Option.bind_some]
    split
    · rfl
    · rfl

theorem get?_set_self (m : CacheManager α) (now : ℤ) (key : Text) (value : α) {ttl : ℤ} (httl : ttl ≠ 0) :
    (m.set now key value ttl).cache.get? key = some ⟨value, now, now, 0, ttl⟩ := by
  unfold CacheManager.set
  dsimp only
  rw [Dict.get?_set_self, if_neg httl]

theorem get?_get_snd (m : CacheManager α) (now : ℤ) (key : Text) {k : Text} (h : m.cache.get? k = none) :
    (m.get now key).2.cache.get? k = none := by
  unfold CacheManager.get
  split
  · exact h
  · rename_i entry hentry
    split
    · show (m.evict key).cache.get? k = none
      rw [get?_evict, h, ite_self]
    · have hne : k ≠ key := by
        rintro rfl
        rw [h] at hentry
        cases hentry
      show (m.cache.set key _).get? k = none
      rw [Dict.get?_set_ne _ _ hne, h]

theorem get?_set_ne (m : CacheManager α) (now : ℤ) {key k : Text} (value : α) (ttl : ℤ) (hne : k ≠ key)
    (h : m.cache.get? k = none) : (m.set now key value ttl).cache.get? k = none := by
  unfold CacheManager.set
  dsimp only
  rw [Dict.get?_set_ne _ _ hne]
  split
  · unfold CacheManager.evictLru
    split
    · exact h
    · rw [get?_evict, h, ite_self]
  · exact h

/-! ## Items -/

variable {w : World P} {s : State P α} {item : Item P}

theorem returned_eq (now : ℤ) : returned w s now item =
    (s.manager.cache.get? (item.key w)).bind fun entry => if entry.expired now then none else some entry.value :=
  get_fst s.manager now (item.key w)

theorem get?_step {call : ℤ × Call P α} {k : Text} (h : s.manager.cache.get? k = none)
    (hcall : ∀ other value ttl, call.2 = .set other value ttl → other.key w ≠ k) :
    (step w s call).manager.cache.get? k = none := by
  obtain ⟨now, call⟩ := call
  cases call with
  | set other value ttl => exact get?_set_ne s.manager now value ttl (hcall other value ttl rfl).symm h
  | get other => exact get?_get_snd s.manager now (other.key w) h
  | invalidateTable tableName => exact (get?_invalidatePattern _ _ _).trans (by rw [h, ite_self])
  | invalidateStation stationId => exact (get?_invalidatePattern _ _ _).trans (by rw [h, ite_self])
  | invalidatePrices stationId => exact (get?_invalidatePattern _ _ _).trans (by rw [h, ite_self])

theorem gone_of_get? (h : s.manager.cache.get? (item.key w) = none) : Gone w s item := by
  intro calls hcalls now
  have hrun : (run (step w) s calls).manager.cache.get? (item.key w) = none :=
    run_invariant (step w) (fun s' => s'.manager.cache.get? (item.key w) = none) calls
      (fun _ call hcall hnone => get?_step hnone (hcalls call hcall)) s h
  rw [returned_eq, hrun]
  rfl

theorem gone_of_fnmatch {s' : State P α} {pattern : Text} (hs : s'.manager = s.manager.invalidatePattern pattern)
    (h : fnmatch (item.key w) pattern = true) : Gone w s' item := by
  apply gone_of_get?
  rw [hs, get?_invalidatePattern, if_pos h]

theorem kept_of_fnmatch {s' : State P α} {pattern : Text} (hs : s'.manager = s.manager.invalidatePattern pattern)
    (h : ¬ fnmatch (item.key w) pattern = true) : Kept w s s' item := by
  intro now
  rw [returned_eq, returned_eq, hs, get?_invalidatePattern, if_neg h]

/-! ## Names and keys -/

theorem cons_inj_of_not_mem {c : Char} {t t' u u' : Text} (h : c ∉ t) (h' : c ∉ t')
    (heq : t ++ c :: u = t' ++ c :: u') : t = t' ∧ u = u' := by
  have hparts := (Text.partition_append h u).symm.trans ((congrArg (Text.partition c) heq).trans
    (Text.partition_append h' u'))
  obtain ⟨hfirst, hrest⟩ := Prod.mk.inj hparts
  exact ⟨hfirst, Option.some.inj hrest⟩

theorem Variable.Plain.eq_of_key_eq {x y : Variable} (hx : x.Plain) (h : getVariableKey y = getVariableKey x) : y = x := by
  have hnames : y.names = x.names := List.append_cancel_left h
  have hcount := congrArg (List.count ':') hnames
  simp only [Variable.names, List.count_append, List.count_cons_self,
    List.count_eq_zero_of_not_mem hx.station, List.count_eq_zero_of_not_mem hx.component,
    List.count_eq_zero_of_not_mem hx.componentInstance, List.count_eq_zero_of_not_mem hx.variableName,
    List.count_eq_zero_of_not_mem hx.variableInstance] at hcount
  have hnot : ∀ t : Text, t.count ':' = 0 → ':' ∉ t := fun t ht => List.count_eq_zero.mp ht
  obtain ⟨a, b, c, d, e⟩ := y
  obtain ⟨a', b', c', d', e'⟩ := x
  dsimp only at hcount
  obtain ⟨rfl, h1⟩ := cons_inj_of_not_mem (hnot a (by omega)) hx.station hnames
  obtain ⟨rfl, h2⟩ := cons_inj_of_not_mem (hnot b (by omega)) hx.component h1
  obtain ⟨rfl, h3⟩ := cons_inj_of_not_mem (hnot c (by omega)) hx.componentInstance h2
  obtain ⟨rfl, rfl⟩ := cons_inj_of_not_mem (hnot d (by omega)) hx.variableName h3
  rfl

theorem literal_of_all {t : Text} (h : t.all (fun c => c != '*' && c != '?' && c != '[') = true) :
    ∀ c ∈ t, IsLiteral c := by
  intro c hc
  have hboth := List.all_eq_true.mp h c hc
  simp only [Bool.and_eq_true, bne_iff_ne] at hboth
  exact ⟨hboth.1.1, hboth.1.2, hboth.2⟩

theorem literal_prefix : (∀ c ∈ "query:".toList, IsLiteral c) ∧ (∀ c ∈ "device_var:".toList, IsLiteral c) ∧
    ∀ c ∈ "prices:".toList, IsLiteral c :=
  ⟨literal_of_all rfl, literal_of_all rfl, literal_of_all rfl⟩

theorem not_fnmatch_of_prefix {t t' : Text} (ht : ∀ c ∈ t, IsLiteral c) (hhead : t.head? ≠ t'.head?) (hne : t ≠ [])
    (hne' : t' ≠ []) (u pat : Text) : ¬ fnmatch (t' ++ u) (t ++ pat) = true := by
  intro hmatch
  obtain ⟨rest, heq, -⟩ := (fnmatch_append ht _ _).mp hmatch
  have hfirst := congrArg List.head? heq
  rw [List.head?_append_of_ne_nil _ hne', List.head?_append_of_ne_nil _ hne] at hfirst
  exact hhead hfirst.symm

theorem fnmatch_stationPattern (x : Variable) (stationId : Text) :
    fnmatch (getVariableKey x) (stationPattern stationId) = fnmatch x.names (stationId ++ [':', '*']) :=
  fnmatch_append_append literal_prefix.2.1 x.names _

theorem fnmatch_pricesPattern (station : Text) (nodeId : Option Text) (stationId : Text) :
    fnmatch ("prices:".toList ++ pricesNames station nodeId) (pricesPattern (some stationId)) = true ↔
      stationId = [] ∨ fnmatch (pricesNames station nodeId) (stationId ++ [':', '*']) = true := by
  unfold pricesPattern
  dsimp only [Option.getD_some]
  split
  · rename_i hnil
    refine iff_of_true ?_ (.inl hnil)
    rw [fnmatch_star_iff literal_prefix.2.2]
    exact List.prefix_append _ _
  · rename_i hne
    rw [fnmatch_append_append literal_prefix.2.2, or_iff_right hne]

/-- The id of a station without colons and without the characters of a pattern. -/
def PlainId (stationId : Text) : Prop := ':' ∉ stationId ∧ ∀ c ∈ stationId, IsLiteral c

theorem fnmatch_names_iff {stationId station rest : Text} (h : PlainId stationId) (hstation : ':' ∉ station) :
    fnmatch (station ++ ':' :: rest) (stationId ++ [':', '*']) = true ↔ station = stationId := by
  have hcolon : ∀ c ∈ stationId ++ [':'], IsLiteral c := by
    rw [List.forall_mem_append, List.forall_mem_singleton]
    exact ⟨h.2, by decide⟩
  have happend : stationId ++ [':', '*'] = (stationId ++ [':']) ++ ['*'] := by
    rw [List.append_assoc]
    rfl
  rw [happend, fnmatch_star_iff hcolon]
  constructor
  · rintro ⟨more, heq⟩
    rw [List.append_assoc] at heq
    exact (cons_inj_of_not_mem h.1 hstation heq).1.symm
  · rintro rfl
    exact ⟨rest, by rw [List.append_assoc]; rfl⟩

/-! ## Steps and runs -/

theorem exact_of_wellNamed {call : ℤ × Call P α} (h : WellNamed w s call) : Exact w s call := by
  obtain ⟨now, call⟩ := call
  cases call with
  | set item value ttl => exact fun x hx y hkey => (h x hx).eq_of_key_eq hkey
  | get item => exact fun x hx y hkey => (h x hx).eq_of_key_eq hkey
  | invalidateTable tableName =>
    intro text params hmem hreads
    refine gone_of_fnmatch rfl ?_
    exact (fnmatch_append_append literal_prefix.1 _ _).trans (h text params hmem hreads)
  | invalidateStation stationId =>
    intro item hmem
    cases item with
    | query text params => exact ⟨fun hnot => False.elim hnot, fun _ hother => nomatch hother⟩
    | deviceVar x =>
      have hiff := h x hmem
      refine ⟨fun _ hstation => ?_, fun other hother hne => ?_⟩
      · refine gone_of_fnmatch rfl ((fnmatch_stationPattern x stationId).trans ?_)
        exact hiff.mpr (Option.some.inj hstation)
      · obtain rfl := Option.some.inj hother
        exact kept_of_fnmatch rfl fun hmatch => hne (hiff.mp ((fnmatch_stationPattern x stationId).symm.trans hmatch))
    | prices station nodeId =>
      refine ⟨fun hnot => False.elim hnot, fun _ _ _ => kept_of_fnmatch rfl ?_⟩
      exact not_fnmatch_of_prefix literal_prefix.2.1 (by decide) (by decide) (by decide) _ _
  | invalidatePrices stationId =>
    cases stationId with
    | none => trivial
    | some stationId =>
      intro item hmem
      cases item with
      | query text params => exact ⟨fun hnot => False.elim hnot, fun _ hother => nomatch hother⟩
      | deviceVar x =>
        refine ⟨fun hnot => False.elim hnot, fun _ _ _ => kept_of_fnmatch rfl ?_⟩
        unfold pricesPattern
        split
        · exact not_fnmatch_of_prefix literal_prefix.2.2 (by decide) (by decide) (by decide) _ _
        · exact not_fnmatch_of_prefix literal_prefix.2.2 (by decide) (by decide) (by decide) _ _
      | prices station nodeId =>
        have hiff := (fnmatch_pricesPattern station nodeId stationId).trans (h station nodeId hmem)
        refine ⟨fun _ hstation => gone_of_fnmatch rfl (hiff.mpr (Option.some.inj hstation)), ?_⟩
        intro other hother hne
        obtain rfl := Option.some.inj hother
        exact kept_of_fnmatch rfl fun hmatch => hne (hiff.mp hmatch)

/-- **In a run whose calls are well named, every invalidation is exact**: what was cached for the table or the station is
gone until it is set again, what was cached for another station is kept, and no variable shares its key. -/
theorem along_exact (w : World P) (maxSize : ℕ) (defaultTtl : ℤ) (calls : List (ℤ × Call P α))
    (h : Along (step w) (WellNamed w) ⟨{ maxSize := maxSize, defaultTtl := defaultTtl }, []⟩ calls) :
    Along (step w) (Exact w) ⟨{ maxSize := maxSize, defaultTtl := defaultTtl }, []⟩ calls :=
  @Along.imp _ _ (step w) (Exact w) (WellNamed w) (fun _ => True) (fun _ _ hcall _ => ⟨exact_of_wellNamed hcall, trivial⟩)
    _ _ trivial h

/-! ### Two runs -/

def sampleWorld : World Unit where
  str _ := "()".toList
  md5 _ := "f49979c0651c7e98ea66a5cc514fe452".toList
  reads text tableName := tableName <:+: text

def sampleQuery : Item Unit := .query "SELECT * FROM sessions".toList ()

/-- The table of a cached query is invalidated, and its result is returned as before. -/
theorem cached_query_stays : ¬ ∀ (w : World Unit) (maxSize : ℕ) (defaultTtl : ℤ) (calls : List (ℤ × Call Unit ℕ)),
    Along (step w) (Exact w) ⟨{ maxSize := maxSize, defaultTtl := defaultTtl }, []⟩ calls := by
  intro h
  have hrun := h sampleWorld 10000 300000000
    [(0, .set sampleQuery 1 300000000), (1, .invalidateTable "sessions".toList)]
  have hreads : sampleWorld.reads "SELECT * FROM sessions".toList "sessions".toList :=
    ⟨"SELECT * FROM ".toList, [], rfl⟩
  have hgone := hrun.2.1 "SELECT * FROM sessions".toList () List.mem_cons_self hreads [] nofun 1
  have hmatch : ¬ fnmatch (sampleQuery.key sampleWorld) (tablePattern "sessions".toList) = true := by
    have hpattern : translate ('*' :: ("sessions".toList ++ ['*'])) =
        .star :: (literal "sessions".toList ++ [.star]) := by
      rw [translate_star, translate_append (literal_of_all rfl), translate_star, translate_nil]
    refine ne_of_eq_of_ne ((fnmatch_append_append literal_prefix.1 _ _).trans ?_) Bool.false_ne_true
    rw [fnmatch, hpattern]
    decide +kernel
  rw [returned_eq] at hgone
  change (((CacheManager.set _ 0 (sampleQuery.key sampleWorld) 1 300000000).invalidatePattern _).cache.get?
    (sampleQuery.key sampleWorld)).bind _ = none at hgone
  rw [get?_invalidatePattern, if_neg hmatch, get?_set_self _ _ _ _ (by decide +kernel)] at hgone
  exact absurd hgone (by decide +kernel)

def powerOf (stationId : String) : Variable := ⟨stationId.toList, "EVSE".toList, "1".toList, "Power".toList, []⟩

theorem plain_powerOf {stationId : String} (h : ':' ∉ stationId.toList) : (powerOf stationId).Plain where
  station := h
  component := (by decide : ':' ∉ "EVSE".toList)
  componentInstance := (by decide : ':' ∉ "1".toList)
  variableName := (by decide : ':' ∉ "Power".toList)
  variableInstance := List.not_mem_nil

theorem plain_stations_exact : Along (step sampleWorld) (Exact sampleWorld)
    (⟨{ maxSize := 2, defaultTtl := 0 }, []⟩ : State Unit ℕ)
    [(0, .set (.deviceVar (powerOf "CP1")) 7 0), (1, .set (.deviceVar (powerOf "CP2")) 8 0),
      (2, .invalidateStation "CP1".toList), (3, .get (.deviceVar (powerOf "CP2")))] := by
  have hplain : ∀ x ∈ [powerOf "CP2", powerOf "CP1"], x.Plain := by
    intro x hx
    rcases List.mem_pair.mp hx with rfl | rfl
    · exact plain_powerOf (by decide)
    · exact plain_powerOf (by decide)
  refine along_exact sampleWorld 2 0 _ ⟨?_, ?_, ?_, ?_, trivial⟩
  · rintro x ⟨⟩
    exact hplain _ (by simp)
  · rintro x ⟨⟩
    exact hplain _ (by simp)
  · intro x hx
    have hmem : x ∈ [powerOf "CP2", powerOf "CP1"] := by simpa [step] using hx
    exact fnmatch_names_iff ⟨by decide, literal_of_all rfl⟩ (hplain x hmem).station
  · rintro x ⟨⟩
    exact hplain _ (by simp)

end FavoniusBackend.Caching.Invalidation
