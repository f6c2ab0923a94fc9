import FavoniusBackend.Lib.Dict
import Mathlib.Data.List.Induction
import Mathlib.Data.Prod.Basic

/-!
# Views of a dictionary under writes

How an assignment commutes with selecting entries, with replacing every value and with renaming the keys, and what a batch
of assignments leaves: its keys come after those that were there, so a dictionary whose keys the batch sets again first
ends as the batch alone would make it.
-/

namespace FavoniusBackend.Lib.Dict

variable {κ ν : Type} [DecidableEq κ]

/-! ## Equality -/

/-- Two dictionaries with the same keys, in the same order, and the same values are one. -/
theorem ext_of_keys {d e : Dict κ ν} (hkeys : d.keys = e.keys) (hget : ∀ k ∈ d.keys, d.get? k = e.get? k) : d = e := by
  have hitems : ∀ c : Dict κ ν, c.items.map (Prod.map id some) = c.keys.map fun k => (k, c.get? k) := by
    intro c
    rw [keys, List.map_map]
    refine List.map_congr_left fun p hp => ?_
    have hget : c.get? p.1 = some p.2 := mem_items_iff.mp hp
    rw [Function.comp, hget]
    rfl
  have hmap : d.items.map (Prod.map id some) = e.items.map (Prod.map id some) := by
    rw [hitems, hitems, ← hkeys]
    exact List.map_congr_left fun k hk => by rw [hget k hk]
  have hinj : Function.Injective (Prod.map id some : κ × ν → κ × Option ν) :=
    Function.Injective.prodMap Function.injective_id fun _ _ h => Option.some.inj h
  have hlist := hinj.list_map hmap
  cases d
  cases e
  congr

/-! ## Selecting and replacing -/

theorem assign_filter_pos {p : κ → ν → Bool} {k : κ} {v : ν} (hnew : p k v = true) (l : List (κ × ν))
    (hold : ∀ v', (k, v') ∈ l → p k v' = true) :
    (assign l k v).filter (fun e => p e.1 e.2) = assign (l.filter fun e => p e.1 e.2) k v := by
  induction l with
  | nil => simp [assign, hnew]
  | cons e rest ih =>
    obtain ⟨k', v'⟩ := e
    have hrest := ih fun v'' h => hold v'' (List.mem_cons_of_mem _ h)
    by_cases hk : k' = k
    · subst hk
      have hv' : p k' v' = true := hold v' List.mem_cons_self
      simp [assign, hnew, hv']
    · rw [assign, if_neg hk]
      by_cases hp : p k' v' = true
      · simp only [List.filter_cons, hp, if_true, hrest, assign, if_neg hk]
      · simp only [List.filter_cons, hp, hrest]
        rfl

theorem assign_filter_neg {p : κ → ν → Bool} {k : κ} {v : ν} (hnew : p k v = false) (l : List (κ × ν))
    (hold : ∀ v', (k, v') ∈ l → p k v' = false) :
    (assign l k v).filter (fun e => p e.1 e.2) = l.filter fun e => p e.1 e.2 := by
  induction l with
  | nil => simp [assign, hnew]
  | cons e rest ih =>
    obtain ⟨k', v'⟩ := e
    have hrest := ih fun v'' h => hold v'' (List.mem_cons_of_mem _ h)
    by_cases hk : k' = k
    · subst hk
      have hv' : p k' v' = false := hold v' List.mem_cons_self
      simp [assign, hnew, hv']
    · rw [assign, if_neg hk, List.filter_cons, List.filter_cons, hrest]

/-- A selected entry is written in the selection. -/
theorem filter_set_pos {d : Dict κ ν} {p : κ → ν → Bool} {k : κ} {v : ν} (hnew : p k v = true)
    (hold : ∀ v', d.get? k = some v' → p k v' = true) : (d.set k v).filter p = (d.filter p).set k v := by
  have hitems := assign_filter_pos hnew d.items fun v' h => hold v' (mem_items_iff.mp h)
  unfold filter set
  congr

/-- An entry that is not selected is written beside the selection. -/
theorem filter_set_neg {d : Dict κ ν} {p : κ → ν → Bool} {k : κ} {v : ν} (hnew : p k v = false)
    (hold : ∀ v', d.get? k = some v' → p k v' = false) : (d.set k v).filter p = d.filter p := by
  have hitems := assign_filter_neg hnew d.items fun v' h => hold v' (mem_items_iff.mp h)
  unfold filter set
  congr

theorem assign_map {κ' ν' : Type} [DecidableEq κ'] {f : κ → κ'} {g : ν → ν'} {k : κ} {v : ν} (l : List (κ × ν))
    (hf : ∀ k' ∈ l.map Prod.fst, f k' = f k → k' = k) :
    assign (l.map (Prod.map f g)) (f k) (g v) = (assign l k v).map (Prod.map f g) := by
  induction l with
  | nil => rfl
  | cons e rest ih =>
    obtain ⟨k', v'⟩ := e
    have hrest := ih fun k'' h => hf k'' (List.mem_cons_of_mem _ h)
    by_cases hk : k' = k
    · subst hk
      simp [assign]
    · have hfk : f k' ≠ f k := fun h => hk (hf k' List.mem_cons_self h)
      simp [assign, hk, hfk, hrest]

@[simp] theorem mapValues_set {ν' : Type} (g : ν → ν') (d : Dict κ ν) (k : κ) (v : ν) :
    (d.set k v).mapValues g = (d.mapValues g).set k (g v) := by
  have hitems : assign (d.items.map (Prod.map id g)) k (g v) = (assign d.items k v).map (Prod.map id g) :=
    assign_map d.items fun k' _ h => h
  unfold mapValues set
  congr
  exact hitems.symm

omit [DecidableEq κ] in
theorem values_mapValues {ν' : Type} (g : ν → ν') (d : Dict κ ν) : (d.mapValues g).values = d.values.map g := by
  unfold values mapValues
  rw [List.map_map, List.map_map]
  rfl

theorem mem_values_iff {d : Dict κ ν} {v : ν} : v ∈ d.values ↔ ∃ k, d.get? k = some v := by
  unfold values
  rw [List.mem_map]
  constructor
  · rintro ⟨p, hp, rfl⟩
    exact ⟨p.1, mem_items_iff.mp hp⟩
  · rintro ⟨k, hk⟩
    exact ⟨(k, v), mem_items_iff.mpr hk, rfl⟩

theorem map_values_set {ν' : Type} {g : ν → ν'} {d : Dict κ ν} {k : κ} {v v' : ν} (h : d.get? k = some v')
    (hg : g v = g v') : (d.set k v).values.map g = d.values.map g := by
  have hset : (d.mapValues g).set k (g v') = d.mapValues g := by
    refine ext_of_keys ?_ fun k' _ => ?_
    · have hmem : k ∈ (d.mapValues g).keys := by
        refine mem_iff_isSome.mpr ?_
        rw [get?_mapValues, h]
        rfl
      rw [keys_set, if_pos hmem]
    · rw [get?_set]
      split
      · rename_i hk
        rw [hk, get?_mapValues, h]
        rfl
      · rfl
  rw [← values_mapValues, mapValues_set, hg, hset, values_mapValues]

theorem values_set_of_none {d : Dict κ ν} {k : κ} (v : ν) (h : d.get? k = none) :
    (d.set k v).values = d.values ++ [v] := by
  have hassign : ∀ l : List (κ × ν), lookup l k = none → assign l k v = l ++ [(k, v)] := by
    intro l hl
    induction l with
    | nil => rfl
    | cons p rest ih =>
      obtain ⟨k', v'⟩ := p
      rw [lookup] at hl
      split at hl
      · cases hl
      · rename_i hk
        rw [assign, if_neg hk, ih hl, List.cons_append]
  have hitems : (d.set k v).items = d.items ++ [(k, v)] := hassign d.items h
  unfold values
  rw [hitems, List.map_append]
  rfl

/-! ## Batches -/

theorem ofList_concat (l : List (κ × ν)) (p : κ × ν) : ofList (l ++ [p]) = (ofList l).set p.1 p.2 := by
  rw [ofList, List.foldl_append]
  rfl

theorem keys_foldl_set (l : List (κ × ν)) (d : Dict κ ν) :
    (l.foldl (fun d p => d.set p.1 p.2) d).keys = d.keys ++ (ofList l).keys.filter fun k => k ∉ d.keys := by
  induction l using List.reverseRecOn with
  | nil => simp [ofList]
  | append_singleton l p ih =>
    rw [List.foldl_append, List.foldl_cons, List.foldl_nil, keys_set, ih, ofList_concat, keys_set]
    by_cases hd : p.1 ∈ d.keys
    · rw [if_pos (List.mem_append_left _ hd)]
      split
      · rfl
      · rw [List.filter_append, List.filter_cons_of_neg (by simpa using hd), List.filter_nil, List.append_nil]
    · by_cases hl : p.1 ∈ (ofList l).keys
      · rw [if_pos (List.mem_append_right _ (List.mem_filter.mpr ⟨hl, by simpa using hd⟩)), if_pos hl]
      · have hnot : p.1 ∉ d.keys ++ (ofList l).keys.filter fun k => k ∉ d.keys := by
          rw [List.mem_append, List.mem_filter]
          tauto
        rw [if_neg hnot, if_neg hl, List.filter_append, List.filter_cons_of_pos (by simpa using hd), List.filter_nil,
          List.append_assoc]

/-- **A batch that sets all keys again, in their order and first, leaves nothing of what was there.** -/
theorem foldl_set_eq_ofList {l : List (κ × ν)} {d : Dict κ ν} (h : d.keys <+: (ofList l).keys) :
    l.foldl (fun d p => d.set p.1 p.2) d = ofList l := by
  obtain ⟨rest, hrest⟩ := h
  have hnodup : (d.keys ++ rest).Nodup := by
    rw [hrest]
    exact (ofList l).nodup_keys
  have hfilter : (ofList l).keys.filter (fun k => k ∉ d.keys) = rest := by
    rw [← hrest, List.filter_append]
    have hold : d.keys.filter (fun k => k ∉ d.keys) = [] := by
      rw [List.filter_eq_nil_iff]
      intro k hk
      simpa using hk
    have hnew : rest.filter (fun k => k ∉ d.keys) = rest := by
      rw [List.filter_eq_self]
      intro k hk
      simpa using fun hd => (List.nodup_append.mp hnodup).2.2 k hd k hk rfl
    rw [hold, hnew, List.nil_append]
  have hkeys : (l.foldl (fun d p => d.set p.1 p.2) d).keys = (ofList l).keys := by
    rw [keys_foldl_set, hfilter, hrest]
  refine ext_of_keys hkeys fun k hk => ?_
  rw [hkeys] at hk
  rw [get?_foldl_set, get?_ofList]
  obtain ⟨p, hp, rfl⟩ := List.mem_map.mp (mem_ofList.mp hk)
  have hne : l.filter (fun q => q.1 = p.1) ≠ [] :=
    List.ne_nil_of_mem (List.mem_filter.mpr ⟨hp, decide_eq_true rfl⟩)
  rw [List.getLast?_eq_some_getLast hne]
  rfl

theorem values_ofList_of_nodup {l : List (κ × ν)} (h : (l.map Prod.fst).Nodup) :
    (ofList l).values = l.map Prod.snd := by
  have hkeys : (ofList l).keys = l.map Prod.fst ∧ (ofList l).values = l.map Prod.snd := by
    induction l using List.reverseRecOn with
    | nil => exact ⟨rfl, rfl⟩
    | append_singleton l p ih =>
      rw [List.map_append, List.nodup_append] at h
      obtain ⟨hl, -, hne⟩ := h
      obtain ⟨hkeys, hvalues⟩ := ih hl
      have hnot : p.1 ∉ (ofList l).keys := by
        rw [hkeys]
        exact fun hmem => hne p.1 hmem p.1 (by simp) rfl
      have hnone : (ofList l).get? p.1 = none := by
        rw [← Option.not_isSome_iff_eq_none, ← mem_iff_isSome]
        exact hnot
      rw [ofList_concat, keys_set, if_neg hnot, hkeys, values_set_of_none _ hnone, hvalues, List.map_append, List.map_append]
      exact ⟨rfl, rfl⟩
  exact hkeys.2

theorem values_ofList_map_keys {κ' : Type} [DecidableEq κ'] {f : κ → κ'} (l : List (κ × ν))
    (hf : ∀ k ∈ l.map Prod.fst, ∀ k' ∈ l.map Prod.fst, f k = f k' → k = k') :
    (ofList (l.map fun p => (f p.1, p.2))).values = (ofList l).values := by
  have hitems : (ofList (l.map fun p => (f p.1, p.2))).items = (ofList l).items.map (Prod.map f id) := by
    induction l using List.reverseRecOn with
    | nil => rfl
    | append_singleton l p ih =>
      have hsub : ∀ k ∈ l.map Prod.fst, k ∈ (l ++ [p]).map Prod.fst := by
        intro k hk
        rw [List.map_append]
        exact List.mem_append_left _ hk
      have hp : p.1 ∈ (l ++ [p]).map Prod.fst := by simp
      have hprev := ih fun k hk k' hk' => hf k (hsub k hk) k' (hsub k' hk')
      have hmap : ofList ((l ++ [p]).map fun p => (f p.1, p.2)) =
          (ofList (l.map fun p => (f p.1, p.2))).set (f p.1) p.2 := by
        rw [ofList, List.map_append, List.foldl_append]
        rfl
      rw [ofList_concat, hmap, set, set]
      simp only [hprev]
      refine assign_map (ofList l).items fun k hk h => hf k (hsub k ?_) p.1 hp h
      exact mem_ofList.mp hk
  unfold values
  rw [hitems, List.map_map]
  rfl

theorem get?_ofList_eq_some_iff {l : List (κ × ν)} {k : κ} {v : ν} :
    (ofList l).get? k = some v ↔ ∃ i : ℕ, l[i]? = some (k, v) ∧ ∀ (j : ℕ) (w : ν), i < j → l[j]? ≠ some (k, w) := by
  induction l using List.reverseRecOn with
  | nil => simp [ofList]
  | append_singleton l p ih =>
    obtain ⟨k', v'⟩ := p
    have hlast : (l ++ [(k', v')])[l.length]? = some (k', v') := by simp
    rw [ofList_concat, get?_set]
    split
    · rename_i hkey
      subst hkey
      constructor
      · intro h
        obtain rfl := Option.some.inj h
        refine ⟨l.length, hlast, ?_⟩
        intro j w hj hget
        have := (List.getElem?_eq_some_iff.mp hget).1
        simp only [List.length_append, List.length_singleton] at this
        omega
      · rintro ⟨i, hi, hafter⟩
        rcases Nat.lt_trichotomy i l.length with hlt | rfl | hgt
        · exact absurd hlast (hafter l.length v' hlt)
        · rw [hlast] at hi
          rw [(Prod.mk.inj (Option.some.inj hi)).2]
        · have := (List.getElem?_eq_some_iff.mp hi).1
          simp only [List.length_append, List.length_singleton] at this
          omega
    · rename_i hkey
      have hold (j : ℕ) (w : ν) : (l ++ [(k', v')])[j]? = some (k, w) ↔ l[j]? = some (k, w) := by
        rw [List.getElem?_append]
        split
        · rfl
        · rename_i hge
          rw [List.getElem?_eq_none (Nat.not_lt.mp hge)]
          cases hj : j - l.length with
          | zero => simp [Ne.symm hkey]
          | succ m => simp
      simp only [ih, ne_eq, hold]

end FavoniusBackend.Lib.Dict
