import Mathlib.Tactic

/-!
# Times that are paced by a sliding window

A time is added to a list only where fewer than a limit lie after a cut-off of at least one window before it.  Then of
any set of times that lie less than one window apart, at most the limit are in the list: those of a half-open interval,
wherever it begins (`Paced.ico`, `Paced.ioc`).
-/

namespace FavoniusBackend.Lib.SlidingWindow

variable {α : Type} [LinearOrder α]

def after (cutoff : α) (times : List α) : List α := times.filter fun t => cutoff < t

@[simp] theorem after_nil (cutoff : α) : after cutoff [] = [] := rfl

@[simp] theorem after_append (cutoff : α) (times times' : List α) :
    after cutoff (times ++ times') = after cutoff times ++ after cutoff times' := List.filter_append ..

/-- A later cut-off takes what an earlier one has left. -/
theorem after_after {cutoff cutoff' : α} (h : cutoff ≤ cutoff') (times : List α) :
    after cutoff' (after cutoff times) = after cutoff' times := by
  rw [after, after, after, List.filter_filter]
  apply List.filter_congr
  intro t _
  rw [← Bool.decide_and, decide_eq_decide]
  exact and_iff_left_of_imp fun hlt => lt_of_le_of_lt h hlt

variable [AddCommGroup α] [IsOrderedAddMonoid α]

/-- Of the times that lie less than one window apart, at most `limit` are in the list. -/
def Paced (limit : ℕ) (window : α) (times : List α) : Prop :=
  ∀ p : α → Bool, (∀ s t, p s → p t → s - t < window) → (times.filter p).length ≤ limit

variable {limit : ℕ} {window : α} {times : List α}

omit [IsOrderedAddMonoid α] in
theorem paced_nil (limit : ℕ) (window : α) : Paced limit window [] := fun _ _ => Nat.zero_le _

theorem Paced.append (h : Paced limit window times) {cutoff stamp : α} (hcutoff : cutoff ≤ stamp - window)
    (hroom : (after cutoff times).length < limit) : Paced limit window (times ++ [stamp]) := by
  intro p hp
  rw [List.filter_append, List.length_append]
  by_cases hstamp : p stamp
  · -- what is near the new time lies after the cut-off
    have hsub : times.filter p |>.Sublist (after cutoff times) := by
      apply List.monotone_filter_right
      intro t ht
      have hlt : stamp - window < t := sub_lt_comm.mp (hp stamp t hstamp ht)
      exact decide_eq_true (lt_of_le_of_lt hcutoff hlt)
    have hle := hsub.length_le
    have hone : ([stamp].filter p).length ≤ 1 := List.length_filter_le _ _
    omega
  · have hnone : ([stamp].filter p).length = 0 := by simp [hstamp]
    have hle := h p hp
    omega

theorem Paced.ico (h : Paced limit window times) (t : α) :
    (times.filter fun s => t ≤ s ∧ s < t + window).length ≤ limit := by
  apply h
  intro s s' hs hs'
  have hs := (of_decide_eq_true hs).2
  have hs' := (of_decide_eq_true hs').1
  rw [sub_lt_iff_lt_add']
  exact lt_of_lt_of_le hs (by gcongr)

theorem Paced.ioc (h : Paced limit window times) (t : α) :
    (times.filter fun s => t < s ∧ s ≤ t + window).length ≤ limit := by
  apply h
  intro s s' hs hs'
  have hs := (of_decide_eq_true hs).2
  have hs' := (of_decide_eq_true hs').1
  rw [sub_lt_iff_lt_add']
  exact lt_of_le_of_lt hs (by gcongr)

end FavoniusBackend.Lib.SlidingWindow
