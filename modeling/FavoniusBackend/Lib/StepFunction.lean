import Mathlib.Tactic

/-!
# Step functions given by breakpoints

A list of breakpoints `(start, value)` is read as a step function: a value is in force from its start
until the start of the next breakpoint, the last one for ever.  Before the first start nothing is in
force.

Two facts carry the proofs about encodings of sampled plans: whatever is in force is one of the listed
values, and the value that a start belongs to is in force until the next start.  A plan that is sampled
every `k` units of time is read back when its starts are the samples' own, or are off by less than a cell
where the value does not change (`inForce_displaced_iff`).
-/

namespace FavoniusBackend.Lib.StepFunction

/-- The value in force at `t`: that of the breakpoint whose start is reached and whose successor's is
not. -/
def inForce {α : Type} : List (ℚ × α) → ℚ → Option α
  | [], _ => none
  | [(s, v)], t => if s ≤ t then some v else none
  | (s, v) :: (s', v') :: rest, t =>
    if s ≤ t ∧ t < s' then some v else inForce ((s', v') :: rest) t

theorem inForce_mem {α : Type} (ps : List (ℚ × α)) (t : ℚ) (v : α) (h : inForce ps t = some v) :
    v ∈ ps.map Prod.snd := by
  induction ps with
  | nil => simp [inForce] at h
  | cons p rest ih =>
    obtain ⟨s, w⟩ := p
    cases rest with
    | nil =>
      rw [inForce] at h
      split at h
      · simp only [Option.some.injEq] at h
        simp [h]
      · exact absurd h (by simp)
    | cons p' rest' =>
      obtain ⟨s', w'⟩ := p'
      rw [inForce] at h
      split at h
      · simp only [Option.some.injEq] at h
        simp [h]
      · exact List.mem_cons_of_mem _ (ih h)

/-- Values that are read through a function are the ones in force, read through it. -/
theorem inForce_map {α β : Type} (f : α → β) (ps : List (ℚ × α)) (t : ℚ) :
    inForce (ps.map (Prod.map id f)) t = (inForce ps t).map f := by
  induction ps with
  | nil => rfl
  | cons p rest ih =>
    cases rest with
    | nil =>
      show (if p.1 ≤ t then some (f p.2) else none) = (if p.1 ≤ t then some p.2 else none).map f
      split <;> rfl
    | cons p' rest =>
      rw [List.map_cons, List.map_cons, inForce, inForce]
      show (if p.1 ≤ t ∧ t < p'.1 then some (f p.2) else _) = _
      split
      · rfl
      · exact ih

/-- Breakpoints with the starts `s i`, `s (i + 1)` and so on. -/
def starting {α : Type} (s : ℕ → ℚ) : ℕ → List α → List (ℚ × α)
  | _, [] => []
  | i, v :: vs => (s i, v) :: starting s (i + 1) vs

theorem inForce_starting {α : Type} (s : ℕ → ℚ) (vs : List α) (i j : ℕ) (hj : j < vs.length) (t : ℚ)
    (hlo : ∀ m ≤ j, s (i + m) ≤ t) (hhi : j + 1 < vs.length → t < s (i + j + 1)) :
    inForce (starting s i vs) t = some (vs.get ⟨j, hj⟩) := by
  induction vs generalizing i j with
  | nil => simp at hj
  | cons v vs ih =>
    have hfirst : s i ≤ t := hlo 0 (Nat.zero_le j)
    cases vs with
    | nil =>
      have hj0 : j = 0 := by simpa using hj
      subst hj0
      simp [starting, inForce, hfirst]
    | cons v' vs' =>
      rw [starting, starting, inForce]
      cases j with
      | zero =>
        rw [if_pos ⟨hfirst, hhi (by simp)⟩]
        rfl
      | succ j' =>
        -- a later value: the next breakpoint has already been reached
        have hge : s (i + 1) ≤ t := hlo 1 (by omega)
        rw [if_neg (fun h => absurd h.2 (not_lt.mpr hge))]
        have hrec := ih (i + 1) j' (by simpa using hj)
          (fun m hm => by rw [show i + 1 + m = i + (m + 1) by omega]; exact hlo (m + 1) (by omega))
          (fun hlt => by rw [show i + 1 + j' + 1 = i + (j' + 1) + 1 by omega]; exact hhi (by simpa using hlt))
        rw [starting] at hrec
        simpa using hrec

/-- Starts in order, each of them off by less than a cell from its sample's. -/
structure Displaced (k : ℚ) (s : ℕ → ℚ) (n : ℕ) : Prop where
  zero : s 0 = 0
  mono : ∀ i, i + 1 < n → s i ≤ s (i + 1)
  lower : ∀ i, i + 1 < n → (i : ℚ) * k ≤ s (i + 1)
  upper : ∀ i < n, s i < ((i + 1 : ℕ) : ℚ) * k

theorem Displaced.le {k : ℚ} {s : ℕ → ℚ} {n m j : ℕ} (h : Displaced k s n) (hmj : m ≤ j) (hj : j < n) :
    s m ≤ s j := by
  induction j, hmj using Nat.le_induction with
  | base => exact le_rfl
  | succ j _ ih => exact (ih (by omega)).trans (h.mono j hj)

theorem displaced_of_exact {k : ℚ} (hk : 0 < k) {s : ℕ → ℚ} {n : ℕ} (hs : ∀ i < n, s i = (i : ℚ) * k)
    (hn : 0 < n) : Displaced k s n := by
  refine ⟨by simpa using hs 0 hn, ?_, ?_, ?_⟩
  · intro i hi
    rw [hs i (by omega), hs (i + 1) hi]
    push_cast
    linarith
  · intro i hi
    rw [hs (i + 1) hi]
    push_cast
    linarith
  · intro i hi
    rw [hs i hi]
    push_cast
    linarith

/-- **Displaced starts.**  Every sample is in force during its own cell if and only if each start is its
sample's own, or the two values that it separates are equal. -/
theorem inForce_displaced_iff {α : Type} {k : ℚ} {s : ℕ → ℚ} {vs : List α} (h : Displaced k s vs.length) :
    (∀ (j : ℕ) (hj : j < vs.length) (t : ℚ), (j : ℚ) * k ≤ t → t < ((j + 1 : ℕ) : ℚ) * k →
        inForce (starting s 0 vs) t = some (vs.get ⟨j, hj⟩)) ↔
      ∀ (i : ℕ) (hi : i + 1 < vs.length), s (i + 1) = ((i + 1 : ℕ) : ℚ) * k ∨
        vs.get ⟨i, by omega⟩ = vs.get ⟨i + 1, hi⟩ := by
  have hread : ∀ (j : ℕ) (hj : j < vs.length) (t : ℚ), s j ≤ t → (j + 1 < vs.length → t < s (j + 1)) →
      inForce (starting s 0 vs) t = some (vs.get ⟨j, hj⟩) := by
    intro j hj t hlo hhi
    refine inForce_starting s vs 0 j hj t ?_ (by simpa using hhi)
    intro m hm
    rw [Nat.zero_add]
    exact (h.le hm hj).trans hlo
  constructor
  · intro hcells i hi
    rcases lt_trichotomy (s (i + 1)) (((i + 1 : ℕ) : ℚ) * k) with hearly | heq | hlate
    · -- just before the cell of the next sample, the next value is already in force
      have hnext := hread (i + 1) hi (s (i + 1)) le_rfl fun hi' => hearly.trans_le (h.lower (i + 1) hi')
      rw [hcells i (by omega) _ (h.lower i hi) hearly] at hnext
      exact .inr (Option.some.inj hnext)
    · exact .inl heq
    · have hlast := hread i (by omega) (((i + 1 : ℕ) : ℚ) * k) (h.upper i (by omega)).le fun _ => hlate
      have hpos : (((i + 1 : ℕ) : ℚ)) * k < ((i + 1 + 1 : ℕ) : ℚ) * k := hlate.trans (h.upper (i + 1) hi)
      rw [hcells (i + 1) hi _ le_rfl hpos] at hlast
      exact .inr (Option.some.inj hlast).symm
  · intro hstarts j hj t hlo hhi
    by_cases hnext : j + 1 < vs.length ∧ s (j + 1) ≤ t
    · obtain ⟨hj', hreached⟩ := hnext
      rw [hread (j + 1) hj' t hreached fun hj'' => hhi.trans_le (h.lower (j + 1) hj'')]
      rcases hstarts j hj' with heq | hsame
      · exact absurd (heq ▸ hreached) (not_le.mpr hhi)
      · rw [hsame]
    · by_cases hown : s j ≤ t
      · exact hread j hj t hown fun hj' => not_le.mp fun hle => hnext ⟨hj', hle⟩
      · -- the sample's own start is late
        cases j with
        | zero =>
          rw [h.zero] at hown
          exact absurd (by simpa using hlo) hown
        | succ i =>
          rw [hread i (by omega) t ((h.upper i (by omega)).le.trans hlo) fun _ => not_le.mp hown]
          rcases hstarts i hj with heq | hsame
          · exact absurd (heq ▸ hlo) hown
          · rw [hsame]

end FavoniusBackend.Lib.StepFunction
