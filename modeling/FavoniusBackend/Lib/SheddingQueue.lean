import Mathlib.Data.List.DropRight

/-!
# Queues that shed their oldest entry

A bounded queue that makes room for a new entry by dropping the oldest one it holds.  With what was pushed and what was
taken kept beside it, four facts hold after any pushes and pops (`Sound`): the queue stays within its capacity, it is the
end of what was pushed, what was taken comes in order from what was pushed, and of the newest entries, as many as fit,
none is lost.

Where entries have keys, the last entry of each key is not lost as long as what is dropped is superseded
(`latest_push_iff`).
-/

namespace FavoniusBackend.Lib

/-- A queue with its history: all entries pushed, the entries taken, and the number of those shed. -/
structure SheddingQueue (α : Type) where
  buffer : List α := []
  pushed : List α := []
  taken : List α := []
  shed : ℕ := 0

namespace SheddingQueue

variable {α : Type} {capacity : ℕ}

def push (capacity : ℕ) (q : SheddingQueue α) (a : α) : SheddingQueue α :=
  if capacity ≤ q.buffer.length then
    { buffer := q.buffer.tail ++ [a], pushed := q.pushed ++ [a], taken := q.taken, shed := q.shed + 1 }
  else { buffer := q.buffer ++ [a], pushed := q.pushed ++ [a], taken := q.taken, shed := q.shed }

def pop (q : SheddingQueue α) : SheddingQueue α :=
  match q.buffer with
  | [] => q
  | a :: rest => { q with buffer := rest, taken := q.taken ++ [a] }

/-- What holds of a queue and its history. -/
structure Sound (capacity : ℕ) (q : SheddingQueue α) : Prop where
  length_le : q.buffer.length ≤ capacity
  suffix : q.buffer <:+ q.pushed
  sublist : (q.taken ++ q.buffer).Sublist q.pushed
  newest : q.pushed.rtake capacity <:+ q.taken ++ q.buffer
  count : q.pushed.length = q.taken.length + q.shed + q.buffer.length

theorem sound_empty : Sound capacity ({} : SheddingQueue α) where
  length_le := Nat.zero_le _
  suffix := List.suffix_refl _
  sublist := List.Sublist.refl _
  newest := by simp [List.rtake]
  count := rfl

theorem suffix_concat_concat {l l' : List α} (h : l <:+ l') (a : α) : l ++ [a] <:+ l' ++ [a] := by
  obtain ⟨front, rfl⟩ := h
  exact ⟨front, by rw [List.append_assoc]⟩

theorem rtake_length_of_suffix {l l' : List α} (h : l <:+ l') : l'.rtake l.length = l := by
  obtain ⟨front, rfl⟩ := h
  simp [List.rtake]

theorem rtake_concat_suffix {l l' : List α} (h : l.rtake capacity <:+ l') (a : α) :
    (l ++ [a]).rtake capacity <:+ l' ++ [a] := by
  cases capacity with
  | zero => simp
  | succ n =>
    rw [List.rtake_concat_succ]
    apply suffix_concat_concat
    have hfewer : l.rtake n <:+ l.rtake (n + 1) := by
      apply List.suffix_of_suffix_length_le (List.drop_suffix _ l) (List.drop_suffix _ l)
      simp only [List.length_drop]
      omega
    exact hfewer.trans h

/-- **A push keeps the newest entries**, whether or not it drops the oldest one. -/
theorem sound_push (hcapacity : 0 < capacity) {q : SheddingQueue α} (h : Sound capacity q) (a : α) :
    Sound capacity (q.push capacity a) := by
  unfold push
  split
  next hfull =>
    have hlength : q.buffer.length = capacity := Nat.le_antisymm h.length_le hfull
    cases hbuffer : q.buffer with
    | nil =>
      rw [hbuffer, List.length_nil] at hlength
      omega
    | cons oldest rest =>
      have hrest : rest.length + 1 = capacity := by rw [← hlength, hbuffer, List.length_cons]
      have hsuffix : rest <:+ q.pushed := (List.suffix_cons oldest rest).trans (hbuffer ▸ h.suffix)
      have hcount := h.count
      rw [hbuffer, List.length_cons] at hcount
      refine ⟨?_, ?_, ?_, ?_, ?_⟩
      · simp only [List.tail_cons, List.length_append, List.length_singleton]
        omega
      · exact suffix_concat_concat hsuffix a
      · show (q.taken ++ (rest ++ [a])).Sublist (q.pushed ++ [a])
        rw [← List.append_assoc]
        apply List.Sublist.append _ (List.Sublist.refl [a])
        have hdrop : (q.taken ++ rest).Sublist (q.taken ++ q.buffer) := by
          rw [hbuffer]
          exact (List.sublist_cons_self oldest rest).append_left _
        exact hdrop.trans h.sublist
      · show (q.pushed ++ [a]).rtake capacity <:+ q.taken ++ (rest ++ [a])
        rw [← hrest, List.rtake_concat_succ, rtake_length_of_suffix hsuffix]
        exact List.suffix_append _ _
      · simp only [List.tail_cons, List.length_append, List.length_singleton]
        omega
  next hroom =>
    refine ⟨?_, ?_, ?_, ?_, ?_⟩
    · simp only [List.length_append, List.length_singleton]
      omega
    · exact suffix_concat_concat h.suffix a
    · show (q.taken ++ (q.buffer ++ [a])).Sublist (q.pushed ++ [a])
      rw [← List.append_assoc]
      exact h.sublist.append (List.Sublist.refl [a])
    · show (q.pushed ++ [a]).rtake capacity <:+ q.taken ++ (q.buffer ++ [a])
      rw [← List.append_assoc]
      exact rtake_concat_suffix h.newest a
    · have hcount := h.count
      simp only [List.length_append, List.length_singleton]
      omega

theorem sound_pop {q : SheddingQueue α} (h : Sound capacity q) : Sound capacity q.pop := by
  cases hbuffer : q.buffer with
  | nil =>
    have hstay : q.pop = q := by rw [pop, hbuffer]
    rw [hstay]
    exact h
  | cons a rest =>
    have hpop : q.pop = { q with buffer := rest, taken := q.taken ++ [a] } := by rw [pop, hbuffer]
    rw [hpop]
    have hmove : q.taken ++ [a] ++ rest = q.taken ++ q.buffer := by rw [hbuffer, List.append_assoc]; rfl
    have hlength := h.length_le
    have hcount := h.count
    rw [hbuffer, List.length_cons] at hlength hcount
    refine ⟨?_, (List.suffix_cons a rest).trans (hbuffer ▸ h.suffix), ?_, ?_, ?_⟩
    · show rest.length ≤ capacity
      omega
    · show (q.taken ++ [a] ++ rest).Sublist q.pushed
      rw [hmove]
      exact h.sublist
    · show q.pushed.rtake capacity <:+ q.taken ++ [a] ++ rest
      rw [hmove]
      exact h.newest
    · simp only [List.length_append, List.length_singleton]
      omega

/-! ### The last entry of a key -/

section LastOf

variable {κ : Type} [DecidableEq κ] (key : α → κ)

def lastOf (k : κ) (l : List α) : Option α := (l.filter fun a => key a = k).getLast?

@[simp] theorem lastOf_nil (k : κ) : lastOf key k [] = none := rfl

theorem lastOf_append (k : κ) (l l' : List α) :
    lastOf key k (l ++ l') = (lastOf key k l').or (lastOf key k l) := by
  rw [lastOf, List.filter_append, List.getLast?_append]
  rfl

theorem lastOf_singleton (k : κ) (a : α) : lastOf key k [a] = if key a = k then some a else none := by
  by_cases h : key a = k
  · simp [lastOf, h]
  · simp [lastOf, h]

theorem lastOf_concat (k : κ) (l : List α) (a : α) :
    lastOf key k (l ++ [a]) = if key a = k then some a else lastOf key k l := by
  rw [lastOf_append, lastOf_singleton]
  split <;> rfl

theorem lastOf_isSome_iff {k : κ} {l : List α} : (lastOf key k l).isSome ↔ ∃ a ∈ l, key a = k := by
  rw [lastOf, List.getLast?_isSome, ne_eq, List.filter_eq_nil_iff]
  simp

/-- What is lost when one entry is dropped: nothing, when it has another key, when a later entry has its key, or when the
last earlier entry of its key is the same. -/
theorem lastOf_drop_iff (k : κ) (front : List α) (a : α) (rest : List α) :
    lastOf key k (front ++ rest) = lastOf key k (front ++ a :: rest) ↔
      key a ≠ k ∨ (∃ later ∈ rest, key later = k) ∨ lastOf key k front = some a := by
  rw [← List.singleton_append, lastOf_append, lastOf_append, lastOf_append, lastOf_singleton, ← lastOf_isSome_iff key]
  by_cases hk : key a = k
  · cases lastOf key k rest with
    | none => simp [hk]
    | some later => simp
  · cases lastOf key k rest with
    | none => simp [hk]
    | some later => simp

def Latest (q : SheddingQueue α) : Prop := ∀ k, lastOf key k (q.taken ++ q.buffer) = lastOf key k q.pushed

def Superseded (capacity : ℕ) (q : SheddingQueue α) (a : α) : Prop :=
  ∀ oldest rest, q.buffer = oldest :: rest → capacity ≤ q.buffer.length →
    key oldest = key a ∨ (∃ later ∈ rest, key later = key oldest) ∨ lastOf key (key oldest) q.taken = some oldest

theorem latest_empty : Latest key ({} : SheddingQueue α) := fun _ => rfl

theorem latest_pop {q : SheddingQueue α} (h : Latest key q) : Latest key q.pop := by
  unfold pop
  split
  · exact h
  · rename_i a rest hbuffer
    intro k
    rw [← h k, hbuffer, List.append_assoc]
    rfl

/-- **A push keeps the last entry of each key** exactly when what it drops is superseded. -/
theorem latest_push_iff {q : SheddingQueue α} (h : Latest key q) (a : α) :
    Latest key (q.push capacity a) ↔ Superseded key capacity q a := by
  have hconcat : ∀ (k : κ) (l : List α), lastOf key k (l ++ [a]) = lastOf key k (q.pushed ++ [a]) ↔
      key a = k ∨ lastOf key k l = lastOf key k (q.taken ++ q.buffer) := by
    intro k l
    rw [lastOf_concat, lastOf_concat, h k]
    split <;> simp [*]
  by_cases hfull : capacity ≤ q.buffer.length
  · have hpush : q.push capacity a = ⟨q.buffer.tail ++ [a], q.pushed ++ [a], q.taken, q.shed + 1⟩ := if_pos hfull
    have hlatest : Latest key (q.push capacity a) ↔
        ∀ k, key a = k ∨ lastOf key k (q.taken ++ q.buffer.tail) = lastOf key k (q.taken ++ q.buffer) := by
      rw [hpush]
      apply forall_congr'
      intro k
      rw [← hconcat, List.append_assoc]
    rw [hlatest]
    cases hbuffer : q.buffer with
    | nil =>
      constructor
      · intro _ oldest rest hcons
        rw [hbuffer] at hcons
        cases hcons
      · intro _ k
        exact Or.inr rfl
    | cons oldest rest =>
      rw [List.tail_cons]
      constructor
      · rintro hkeep _ _ hcons -
        rw [hbuffer] at hcons
        obtain ⟨rfl, rfl⟩ := List.cons.inj hcons
        rcases hkeep (key oldest) with hsame | hlast
        · exact Or.inl hsame.symm
        · exact Or.inr (((lastOf_drop_iff key _ _ _ _).mp hlast).resolve_left fun hne => hne rfl)
      · intro hsuperseded k
        by_cases hk : key oldest = k
        · subst hk
          rcases hsuperseded oldest rest hbuffer hfull with hsame | hlater
          · exact Or.inl hsame.symm
          · exact Or.inr ((lastOf_drop_iff key _ _ _ _).mpr (Or.inr hlater))
        · exact Or.inr ((lastOf_drop_iff key _ _ _ _).mpr (Or.inl hk))
  · have hpush : q.push capacity a = ⟨q.buffer ++ [a], q.pushed ++ [a], q.taken, q.shed⟩ := if_neg hfull
    have hlatest : Latest key (q.push capacity a) := by
      rw [hpush]
      intro k
      rw [← List.append_assoc]
      exact (hconcat k _).mpr (Or.inr rfl)
    exact iff_of_true hlatest fun _ _ _ hlong => absurd hlong hfull

end LastOf

end SheddingQueue

end FavoniusBackend.Lib
