import Mathlib.Data.List.Basic
import Mathlib.Tactic.Ring

/-!
# Keyset paging

Rows lie in descending order of a key.  A page has the first rows below a cursor, and the cursor of the page after it is cut
from its last row.  A cut may keep less than the key and so lie below it; the rows between the two are then skipped.  The
pages together have every row exactly where no page ends right before a row that its cut skips (`follow_eq_iff`).
-/

namespace FavoniusBackend.Lib.Keyset

variable {α κ : Type} [LinearOrder κ] (key : α → κ) (cut : α → Option κ) (limit : ℕ)

def below (c : κ) (rows : List α) : List α := rows.filter fun a => decide (key a < c)

/-- The rows of all the pages one after another; nothing where a cursor cannot be used or the count is too small. -/
def follow : ℕ → List α → Option (List α)
  | 0, _ => none
  | n + 1, rows =>
    if rows.length ≤ limit then some rows
    else ((rows.take limit).getLast?.bind cut).bind fun c =>
      (follow n (below key c rows)).map (rows.take limit ++ ·)

def Descending (rows : List α) : Prop := rows.Pairwise fun a b => key b < key a

def Unskipped (rows : List α) : Prop :=
  ∀ k a b, rows[(k + 1) * limit - 1]? = some a → rows[(k + 1) * limit]? = some b → ∃ c, cut a = some c ∧ key b < c

variable {key cut limit}

theorem below_below {c c' : κ} (h : c' ≤ c) (rows : List α) : below key c' (below key c rows) = below key c' rows := by
  unfold below
  rw [List.filter_filter]
  refine List.filter_congr fun a _ => ?_
  by_cases hlt : key a < c'
  · simp [hlt, hlt.trans_le h]
  · simp [hlt]

theorem Descending.below {rows : List α} (h : Descending key rows) (c : κ) : Descending key (below key c rows) :=
  h.sublist List.filter_sublist

theorem Descending.drop {rows : List α} (h : Descending key rows) (n : ℕ) : Descending key (rows.drop n) :=
  h.sublist (List.drop_sublist n rows)

theorem below_eq_drop {rows : List α} (hdesc : Descending key rows) {last : α} {c : κ}
    (hlast : (rows.take limit).getLast? = some last) (hc : c ≤ key last) :
    below key c rows = below key c (rows.drop limit) := by
  have hpage : below key c (rows.take limit) = [] := by
    refine List.filter_eq_nil_iff.mpr fun a ha => ?_
    have hle : key last ≤ key a := by
      obtain ⟨before, hbefore⟩ := List.getLast?_eq_some_iff.mp hlast
      have hpage : Descending key (before ++ [last]) := hbefore ▸ hdesc.sublist (List.take_sublist limit rows)
      rw [hbefore] at ha
      rcases List.mem_append.mp ha with hin | hin
      · exact ((List.pairwise_append.mp hpage).2.2 a hin last List.mem_cons_self).le
      · rw [List.mem_singleton.mp hin]
    simpa using hc.trans hle
  calc below key c rows = below key c (rows.take limit ++ rows.drop limit) := by rw [List.take_append_drop]
    _ = below key c (rows.take limit) ++ below key c (rows.drop limit) := List.filter_append _ _
    _ = below key c (rows.drop limit) := by rw [hpage, List.nil_append]

theorem below_eq_self_iff {rows : List α} (hdesc : Descending key rows) (c : κ) :
    below key c rows = rows ↔ ∀ b, rows.head? = some b → key b < c := by
  unfold below
  rw [List.filter_eq_self]
  constructor
  · intro h b hb
    exact of_decide_eq_true (h b (List.mem_of_mem_head? hb))
  · intro h a ha
    refine decide_eq_true ?_
    cases rows with
    | nil => exact nomatch ha
    | cons b rest =>
      have hb := h b rfl
      rcases List.mem_cons.mp ha with rfl | hrest
      · exact hb
      · exact ((List.pairwise_cons.mp hdesc).1 a hrest).trans hb

theorem follow_mono {n m : ℕ} {rows out : List α} (h : follow key cut limit n rows = some out) (hm : n ≤ m) :
    follow key cut limit m rows = some out := by
  induction n generalizing m rows out with
  | zero => exact nomatch h
  | succ n ih =>
    obtain ⟨m, rfl⟩ := Nat.exists_eq_succ_of_ne_zero (show m ≠ 0 by omega)
    unfold follow at h ⊢
    split at h
    · rename_i hshort
      rw [if_pos hshort]
      exact h
    · rename_i hlong
      obtain ⟨c, hc, h⟩ := Option.bind_eq_some_iff.mp h
      obtain ⟨rest, hrest, rfl⟩ := Option.map_eq_some_iff.mp h
      rw [if_neg hlong, hc, Option.bind_some, ih hrest (by omega), Option.map_some]

section Cut

variable (hcut : ∀ a c, cut a = some c → c ≤ key a)
include hcut

theorem follow_sublist {n : ℕ} {rows out : List α} (hdesc : Descending key rows)
    (h : follow key cut limit n rows = some out) : out.Sublist rows := by
  induction n generalizing rows out with
  | zero => exact nomatch h
  | succ n ih =>
    unfold follow at h
    split at h
    · obtain rfl := Option.some.inj h
      exact List.Sublist.refl _
    · obtain ⟨c, hc, h⟩ := Option.bind_eq_some_iff.mp h
      obtain ⟨last, hlast, hc⟩ := Option.bind_eq_some_iff.mp hc
      obtain ⟨rest, hrest, rfl⟩ := Option.map_eq_some_iff.mp h
      have hsub := ih (hdesc.below c) hrest
      rw [below_eq_drop hdesc hlast (hcut last c hc)] at hsub
      have hpages := (hsub.trans List.filter_sublist).append_left (rows.take limit)
      rwa [List.take_append_drop] at hpages

theorem follow_succ_iff {n : ℕ} {rows : List α} (hdesc : Descending key rows) (hlong : limit < rows.length) {last : α}
    (hlast : (rows.take limit).getLast? = some last) :
    follow key cut limit (n + 1) rows = some rows ↔
      (∃ c, cut last = some c ∧ ∀ b, (rows.drop limit).head? = some b → key b < c) ∧
        follow key cut limit n (rows.drop limit) = some (rows.drop limit) := by
  have hstep : ∀ {c}, cut last = some c → (follow key cut limit (n + 1) rows = some rows ↔
      follow key cut limit n (below key c (rows.drop limit)) = some (rows.drop limit)) := by
    intro c hc
    rw [follow, if_neg (by omega), hlast, Option.bind_some, hc, Option.bind_some,
      below_eq_drop hdesc hlast (hcut last c hc)]
    constructor
    · intro h
      obtain ⟨rest, hrest, heq⟩ := Option.map_eq_some_iff.mp h
      have hdrop : rest = rows.drop limit :=
        List.append_cancel_left (heq.trans (List.take_append_drop limit rows).symm)
      rw [hrest, hdrop]
    · intro h
      rw [h, Option.map_some, List.take_append_drop]
  constructor
  · intro h
    cases hc : cut last with
    | none =>
      rw [follow, if_neg (by omega), hlast, Option.bind_some, hc] at h
      exact nomatch h
    | some c =>
      have hrest := (hstep hc).mp h
      -- the pages after the first have all the rows, so none was skipped
      have hall : below key c (rows.drop limit) = rows.drop limit :=
        List.filter_sublist.antisymm (follow_sublist hcut ((hdesc.drop limit).below c) hrest)
      refine ⟨⟨c, rfl, (below_eq_self_iff (hdesc.drop limit) c).mp hall⟩, ?_⟩
      rwa [hall] at hrest
  · rintro ⟨⟨c, hc, hhead⟩, hrest⟩
    rw [hstep hc, (below_eq_self_iff (hdesc.drop limit) c).mpr hhead]
    exact hrest

end Cut

theorem unskipped_of_short {rows : List α} (h : rows.length ≤ limit) : Unskipped key cut limit rows := by
  intro k a b _ hb
  have hlt := (List.getElem?_eq_some_iff.mp hb).1
  have hle : limit ≤ (k + 1) * limit := Nat.le_mul_of_pos_left limit k.succ_pos
  omega

theorem unskipped_iff {rows : List α} (hlimit : 0 < limit) (hlong : limit < rows.length) {last : α}
    (hlast : (rows.take limit).getLast? = some last) :
    Unskipped key cut limit rows ↔
      (∃ c, cut last = some c ∧ ∀ b, (rows.drop limit).head? = some b → key b < c) ∧
        Unskipped key cut limit (rows.drop limit) := by
  have hlast' : rows[limit - 1]? = some last := by
    rw [List.getLast?_eq_getElem?, List.length_take, Nat.min_eq_left hlong.le, List.getElem?_take,
      if_pos (by omega)] at hlast
    exact hlast
  have hhead : (rows.drop limit).head? = rows[limit]? := by
    rw [List.head?_drop]
  have hindex : ∀ k, (k + 1 + 1) * limit = limit + (k + 1) * limit := by
    intro k
    ring
  have hpos : ∀ k, limit ≤ (k + 1) * limit := fun k => Nat.le_mul_of_pos_left limit k.succ_pos
  constructor
  · intro h
    refine ⟨?_, fun k a b ha hb => h (k + 1) a b ?_ ?_⟩
    · obtain ⟨c, hc, hlt⟩ := h 0 last rows[limit] (by simpa using hlast') (by simp)
      refine ⟨c, hc, fun b hb => ?_⟩
      rw [hhead, List.getElem?_eq_getElem hlong] at hb
      exact Option.some.inj hb ▸ hlt
    · rw [List.getElem?_drop] at ha
      rw [hindex, show limit + (k + 1) * limit - 1 = limit + ((k + 1) * limit - 1) by have := hpos k; omega]
      exact ha
    · rw [List.getElem?_drop] at hb
      rw [hindex]
      exact hb
  · rintro ⟨⟨c, hc, hbelow⟩, hrest⟩ k a b ha hb
    cases k with
    | zero =>
      rw [Nat.zero_add, Nat.one_mul] at ha hb
      obtain rfl := Option.some.inj (hlast'.symm.trans ha)
      exact ⟨c, hc, hbelow b (hhead.trans hb)⟩
    | succ k =>
      refine hrest k a b ?_ ?_
      · rw [hindex, show limit + (k + 1) * limit - 1 = limit + ((k + 1) * limit - 1) by have := hpos k; omega] at ha
        rw [List.getElem?_drop]
        exact ha
      · rw [hindex] at hb
        rw [List.getElem?_drop]
        exact hb

/-- **Paging is complete** exactly where no page ends right before a row that its cut skips. -/
theorem follow_eq_iff (hcut : ∀ a c, cut a = some c → c ≤ key a) (hlimit : 0 < limit) {n : ℕ} {rows : List α}
    (hn : rows.length < n) (hdesc : Descending key rows) :
    follow key cut limit n rows = some rows ↔ Unskipped key cut limit rows := by
  induction n generalizing rows with
  | zero => exact absurd hn (Nat.not_lt_zero _)
  | succ n ih =>
    by_cases hlong : limit < rows.length
    · obtain ⟨last, hlast⟩ : ∃ last, (rows.take limit).getLast? = some last := by
        refine Option.isSome_iff_exists.mp ?_
        rw [List.getLast?_isSome]
        intro hnil
        have := congrArg List.length hnil
        rw [List.length_take, List.length_nil] at this
        omega
      rw [follow_succ_iff hcut hdesc hlong hlast, unskipped_iff hlimit hlong hlast,
        ih (by rw [List.length_drop]; omega) (hdesc.drop limit)]
    · refine iff_of_true ?_ (unskipped_of_short (by omega))
      rw [follow, if_pos (by omega)]

theorem exists_follow_iff (hcut : ∀ a c, cut a = some c → c ≤ key a) (hlimit : 0 < limit) {rows : List α}
    (hdesc : Descending key rows) : (∃ n, follow key cut limit n rows = some rows) ↔ Unskipped key cut limit rows := by
  constructor
  · rintro ⟨n, hn⟩
    exact (follow_eq_iff hcut hlimit (by omega : rows.length < n + rows.length + 1) hdesc).mp
      (follow_mono hn (by omega))
  · intro h
    exact ⟨rows.length + 1, (follow_eq_iff hcut hlimit (Nat.lt_succ_self _) hdesc).mpr h⟩

end FavoniusBackend.Lib.Keyset
