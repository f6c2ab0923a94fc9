import Mathlib.Algebra.BigOperators.Group.List.Basic
import Mathlib.Tactic.Abel

/-!
# The tasks of a service

The coroutines of a service are a list of tasks.  A task is replaced by what it goes on as, new tasks are
added at the end.  An account of the service, a sum over its tasks, changes by what the task contributed
before and contributes now; a property of every task is kept where the new task has it.
-/

namespace FavoniusBackend.Lib.Tasks

variable {τ : Type} {M : Type} [AddCommMonoid M]

def total (share : τ → M) (tasks : List τ) : M := (tasks.map share).sum

@[simp] theorem total_nil (share : τ → M) : total share [] = 0 := rfl

@[simp] theorem total_cons (share : τ → M) (t : τ) (tasks : List τ) :
    total share (t :: tasks) = share t + total share tasks := by
  rw [total, List.map_cons, List.sum_cons]
  rfl

@[simp] theorem total_concat (share : τ → M) (tasks : List τ) (t : τ) :
    total share (tasks ++ [t]) = total share tasks + share t := by
  rw [total, List.map_append, List.sum_append]
  simp [total]

theorem total_set (share : τ → M) {tasks : List τ} {i : ℕ} {t : τ} (h : tasks[i]? = some t) (t' : τ) :
    total share (tasks.set i t') + share t = total share tasks + share t' := by
  induction tasks generalizing i with
  | nil => simp at h
  | cons head rest ih =>
    cases i with
    | zero =>
      obtain rfl : head = t := by simpa using h
      rw [List.set_cons_zero, total_cons, total_cons]
      abel
    | succ i =>
      have hrest := ih (by simpa using h)
      rw [List.set_cons_succ, total_cons, total_cons, add_assoc, hrest, add_assoc]

theorem total_eraseIdx (share : τ → M) {tasks : List τ} {i : ℕ} {t : τ} (h : tasks[i]? = some t) :
    total share (tasks.eraseIdx i) + share t = total share tasks := by
  induction tasks generalizing i with
  | nil => simp at h
  | cons head rest ih =>
    cases i with
    | zero =>
      obtain rfl : head = t := by simpa using h
      rw [List.eraseIdx_cons_zero, total_cons, add_comm]
    | succ i =>
      have hrest := ih (by simpa using h)
      rw [List.eraseIdx_cons_succ, total_cons, total_cons, add_assoc, hrest]

theorem total_add (share share' : τ → M) (tasks : List τ) :
    total (fun t => share t + share' t) tasks = total share tasks + total share' tasks := by
  induction tasks with
  | nil => simp
  | cons t rest ih =>
    rw [total_cons, total_cons, total_cons, ih]
    abel

theorem total_eq_zero {share : τ → M} {tasks : List τ} (h : ∀ t ∈ tasks, share t = 0) :
    total share tasks = 0 := by
  induction tasks with
  | nil => rfl
  | cons t rest ih =>
    rw [total_cons, h t List.mem_cons_self, ih fun t' ht' => h t' (List.mem_cons_of_mem t ht'),
      add_zero]

theorem total_nonneg {share : τ → ℤ} {tasks : List τ} (h : ∀ t ∈ tasks, 0 ≤ share t) :
    0 ≤ total share tasks := by
  induction tasks with
  | nil => exact Int.le_refl 0
  | cons t rest ih =>
    have hhead := h t List.mem_cons_self
    have hrest := ih fun t' ht' => h t' (List.mem_cons_of_mem t ht')
    rw [total_cons]
    omega

theorem forall_concat {P : τ → Prop} {tasks : List τ} {t : τ} (h : ∀ x ∈ tasks, P x) (ht : P t) :
    ∀ x ∈ tasks ++ [t], P x := by
  intro x hx
  rcases List.mem_append.1 hx with hold | hnew
  · exact h x hold
  · rw [List.mem_singleton.1 hnew]
    exact ht

theorem forall_set {P : τ → Prop} {tasks : List τ} {i : ℕ} {t : τ} (h : ∀ x ∈ tasks, P x) (ht : P t) :
    ∀ x ∈ tasks.set i t, P x := by
  intro x hx
  rcases List.mem_or_eq_of_mem_set hx with hold | hnew
  · exact h x hold
  · rw [hnew]
    exact ht

section Picked

variable {tasks : List τ} {i : ℕ} {t : τ}

theorem perm_cons_eraseIdx (h : tasks[i]? = some t) : tasks.Perm (t :: tasks.eraseIdx i) := by
  obtain ⟨hi, rfl⟩ := List.getElem?_eq_some_iff.mp h
  exact (List.getElem_cons_eraseIdx_perm hi).symm

theorem set_perm_cons_eraseIdx (h : tasks[i]? = some t) (t' : τ) :
    (tasks.set i t').Perm (t' :: tasks.eraseIdx i) := by
  obtain ⟨hi, -⟩ := List.getElem?_eq_some_iff.mp h
  exact List.set_perm_cons_eraseIdx hi t'

end Picked

end FavoniusBackend.Lib.Tasks
