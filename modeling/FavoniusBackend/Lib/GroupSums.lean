import FavoniusBackend.Lib.DictViews
import FavoniusBackend.Lib.Sql

/-!
# Sums over groups

A `GROUP BY` keeps every row in one group, so a weight that is constant on the groups sums to the same over the rows and
over the groups with their counts (`sum_distinctOn`).  Writing groups into a dictionary keeps the sum of positive counts
only when no two groups have one key (`sum_values_ofList_eq_iff`).
-/

namespace FavoniusBackend.Lib

/-! ### Groups of rows -/

namespace Sql

variable {α κ R : Type} [DecidableEq κ] [Semiring R]

theorem sum_filter_not_mem_cons (key : α → κ) (weight : κ → R) {k : κ} {seen : List κ} (hk : k ∉ seen) (rows : List α) :
    ((rows.filter fun a => key a ∉ seen).map fun a => weight (key a)).sum =
      weight k * (rows.countP fun a => key a = k : ℕ) +
        ((rows.filter fun a => key a ∉ k :: seen).map fun a => weight (key a)).sum := by
  induction rows with
  | nil => simp
  | cons a rest ih =>
    by_cases ha : key a = k
    · subst ha
      rw [List.filter_cons_of_pos (by simpa using hk), List.filter_cons_of_neg (by simp),
        List.countP_cons_of_pos (by simp), List.map_cons, List.sum_cons, ih]
      push_cast
      rw [mul_add, mul_one, ← add_assoc, add_comm (weight (key a)) (weight (key a) * _)]
    · rw [List.countP_cons_of_neg (by simpa using ha)]
      by_cases hseen : key a ∈ seen
      · rw [List.filter_cons_of_neg (by simpa using hseen), List.filter_cons_of_neg (by simp [hseen]), ih]
      · rw [List.filter_cons_of_pos (by simpa using hseen), List.filter_cons_of_pos (by simp [ha, hseen]),
          List.map_cons, List.sum_cons, List.map_cons, List.sum_cons, ih, add_left_comm]

/-- **Sum by groups**: over the rows whose keys have not been seen. -/
theorem sum_distinctOn_seen (key : α → κ) (weight : κ → R) (rows : List α) (seen : List κ) :
    ((distinctOn key seen rows).map fun c => weight (key c) * (rows.countP fun a => key a = key c : ℕ)).sum =
      ((rows.filter fun a => key a ∉ seen).map fun a => weight (key a)).sum := by
  induction rows generalizing seen with
  | nil => simp [distinctOn]
  | cons a rest ih =>
    -- a representative with another key does not count the first row
    have hskip : ∀ (seen' : List κ), key a ∈ seen' →
        ((distinctOn key seen' rest).map fun c => weight (key c) * ((a :: rest).countP fun b => key b = key c : ℕ)) =
          (distinctOn key seen' rest).map fun c => weight (key c) * (rest.countP fun b => key b = key c : ℕ) := by
      intro seen' hseen
      apply List.map_congr_left
      intro c hc
      have hne : key a ≠ key c := fun heq => (mem_distinctOn key c rest seen' hc).2 (heq ▸ hseen)
      simp [hne]
    by_cases ha : key a ∈ seen
    · rw [distinctOn, if_pos ha, hskip seen ha, ih seen]
      simp [ha]
    · rw [distinctOn, if_neg ha, List.map_cons, List.sum_cons, hskip (key a :: seen) List.mem_cons_self,
        ih (key a :: seen)]
      have hrest := sum_filter_not_mem_cons key weight ha rest
      simp only [List.filter_cons, ha, not_false_eq_true, decide_true, if_true, List.map_cons, List.sum_cons,
        List.countP_cons, hrest]
      push_cast
      rw [mul_add, mul_one, add_assoc, add_left_comm]

/-- **Sum by groups.** -/
theorem sum_distinctOn (key : α → κ) (weight : κ → R) (rows : List α) :
    ((distinctOn key [] rows).map fun c => weight (key c) * (rows.countP fun a => key a = key c : ℕ)).sum =
      (rows.map fun a => weight (key a)).sum := by
  rw [sum_distinctOn_seen]
  simp

end Sql

/-! ### Groups in a dictionary -/

namespace Dict

variable {κ ν : Type} [DecidableEq κ]

theorem items_ofList_of_nodup {l : List (κ × ν)} (h : (l.map Prod.fst).Nodup) : (ofList l).items = l := by
  have hassign : ∀ (entries : List (κ × ν)) (p : κ × ν), p.1 ∉ entries.map Prod.fst →
      assign entries p.1 p.2 = entries ++ [p] := by
    intro entries p hp
    induction entries with
    | nil => rfl
    | cons q rest ih =>
      rw [List.map_cons, List.mem_cons, not_or] at hp
      rw [assign, if_neg fun heq => hp.1 heq.symm, ih hp.2]
      rfl
  induction l using List.reverseRecOn with
  | nil => rfl
  | append_singleton l p ih =>
    rw [List.map_append, List.nodup_append] at h
    have hp : p.1 ∉ l.map Prod.fst := fun hmem => h.2.2 p.1 hmem p.1 (by simp) rfl
    rw [ofList_concat]
    show assign (ofList l).items p.1 p.2 = l ++ [p]
    rw [ih h.1]
    exact hassign l p hp

theorem sum_values_set {M : Type} [AddCommMonoid M] (d : Dict κ M) (k : κ) (v : M) :
    (d.set k v).values.sum + d.getD k 0 = d.values.sum + v := by
  have hassign : ∀ entries : List (κ × M),
      ((assign entries k v).map Prod.snd).sum + (lookup entries k).getD 0 = (entries.map Prod.snd).sum + v := by
    intro entries
    induction entries with
    | nil => simp [assign, lookup]
    | cons p rest ih =>
      obtain ⟨k', v'⟩ := p
      by_cases hk : k' = k
      · simp only [assign, lookup, if_pos hk, List.map_cons, List.sum_cons, Option.getD_some]
        abel
      · simp only [assign, lookup, if_neg hk, List.map_cons, List.sum_cons]
        rw [add_assoc, ih, add_assoc]
  exact hassign d.items

/-- **Positive values survive a batch together** only when no key is set twice. -/
theorem sum_values_ofList_eq_iff {l : List (κ × ℤ)} (hpos : ∀ p ∈ l, 0 < p.2) :
    (ofList l).values.sum = (l.map Prod.snd).sum ↔ (l.map Prod.fst).Nodup := by
  have hsum : (ofList l).values.sum ≤ (l.map Prod.snd).sum ∧
      ((ofList l).values.sum = (l.map Prod.snd).sum → (l.map Prod.fst).Nodup) := by
    induction l using List.reverseRecOn with
    | nil => simp [ofList, values, empty]
    | append_singleton l p ih =>
      obtain ⟨hle, hnodup⟩ := ih fun q hq => hpos q (List.mem_append_left _ hq)
      have hset := sum_values_set (ofList l) p.1 p.2
      have hold : 0 ≤ (ofList l).getD p.1 0 ∧ (p.1 ∈ l.map Prod.fst → 0 < (ofList l).getD p.1 0) := by
        rw [getD]
        cases hget : (ofList l).get? p.1 with
        | none =>
          refine ⟨le_refl _, ?_⟩
          intro hmem
          rw [← mem_ofList, mem_iff_isSome, hget] at hmem
          cases hmem
        | some v =>
          rw [get?_ofList, Option.map_eq_some_iff] at hget
          obtain ⟨q, hq, rfl⟩ := hget
          have hq : 0 < q.2 := by
            apply hpos q
            exact List.mem_append_left _ (List.mem_of_mem_filter (List.mem_of_getLast? hq))
          exact ⟨hq.le, fun _ => hq⟩
      rw [ofList_concat, List.map_append, List.map_append, List.sum_append]
      simp only [List.map_cons, List.map_nil, List.sum_cons, List.sum_nil, add_zero]
      refine ⟨by omega, ?_⟩
      intro heq
      rw [List.nodup_append]
      refine ⟨hnodup (by omega), List.nodup_singleton _, ?_⟩
      intro k hk k' hk' hkk
      obtain rfl := List.mem_singleton.mp hk'
      have hlost := hold.2 (hkk ▸ hk)
      omega
  refine ⟨hsum.2, ?_⟩
  intro hnodup
  rw [values_ofList_of_nodup hnodup]

end Dict

end FavoniusBackend.Lib
