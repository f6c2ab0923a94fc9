import FavoniusBackend.Lib.StepFunction

/-!
# Run-length compression of samples

A list of samples in the order of their times is compressed to the first sample of each run of samples with one key.
Read as a step function, what remains has at the time of every sample a value with the key of that sample
(`inForce_runs`).
-/

namespace FavoniusBackend.Lib.RunLength

open Lib

variable {τ τ' α κ : Type} [DecidableEq κ] (key : α → κ)

def runs : Option (τ × α) → List (τ × α) → List (τ × α)
  | none, [] => []
  | some first, [] => [first]
  | none, sample :: samples => runs (some sample) samples
  | some first, sample :: samples =>
    if key first.2 = key sample.2 then runs (some first) samples else first :: runs (some sample) samples

theorem runs_map (f : τ → τ') (first : Option (τ × α)) (samples : List (τ × α)) :
    runs key (first.map (Prod.map f id)) (samples.map (Prod.map f id)) =
      (runs key first samples).map (Prod.map f id) := by
  induction samples generalizing first with
  | nil => cases first <;> rfl
  | cons sample samples ih =>
    cases first with
    | none => exact ih (some sample)
    | some first =>
      rw [List.map_cons, Option.map_some, runs, runs]
      show (if key first.2 = key sample.2 then _ else _) = _
      split
      · exact ih (some first)
      · exact congrArg _ (ih (some sample))

theorem runs_some (first : τ × α) (samples : List (τ × α)) :
    runs key (some first) samples = [first] ∨
      ∃ next ∈ samples, ∃ rest, runs key (some first) samples = first :: next :: rest := by
  induction samples generalizing first with
  | nil => exact .inl rfl
  | cons sample samples ih =>
    rw [runs]
    split
    · obtain h | ⟨next, hnext, h⟩ := ih first
      · exact .inl h
      · exact .inr ⟨next, List.mem_cons_of_mem _ hnext, h⟩
    · obtain h | ⟨next, -, rest, h⟩ := ih sample
      · exact .inr ⟨sample, List.mem_cons_self, [], by rw [h]⟩
      · exact .inr ⟨sample, List.mem_cons_self, next :: rest, by rw [h]⟩

theorem inForce_runs_first {first : ℚ × α} {samples : List (ℚ × α)} {t : ℚ} (hfirst : first.1 ≤ t)
    (hsamples : ∀ sample ∈ samples, t < sample.1) :
    StepFunction.inForce (runs key (some first) samples) t = some first.2 := by
  obtain h | ⟨next, hnext, rest, h⟩ := runs_some key first samples
  · rw [h, StepFunction.inForce, if_pos hfirst]
  · rw [h, StepFunction.inForce, if_pos ⟨hfirst, hsamples next hnext⟩]

theorem inForce_runs_some {first : ℚ × α} {samples : List (ℚ × α)}
    (hsorted : (first :: samples).Pairwise fun a b => a.1 < b.1) {sample : ℚ × α} (hmem : sample ∈ samples) :
    ∃ v, StepFunction.inForce (runs key (some first) samples) sample.1 = some v ∧ key v = key sample.2 := by
  induction samples generalizing first with
  | nil => cases hmem
  | cons next samples ih =>
    obtain ⟨hfirst, hrest⟩ := List.pairwise_cons.mp hsorted
    obtain ⟨hnext, hsamples⟩ := List.pairwise_cons.mp hrest
    have hlt := hfirst next List.mem_cons_self
    rw [runs]
    split
    · rename_i hsame
      obtain rfl | hmem := List.mem_cons.mp hmem
      · exact ⟨first.2, inForce_runs_first key hlt.le hnext, hsame⟩
      · refine ih (List.pairwise_cons.mpr ⟨?_, hsamples⟩) hmem
        exact fun a ha => hfirst a (List.mem_cons_of_mem _ ha)
    · -- the run of the next sample is in force from its time on
      have hskip : ∀ t, next.1 ≤ t → StepFunction.inForce (first :: runs key (some next) samples) t =
          StepFunction.inForce (runs key (some next) samples) t := by
        intro t ht
        have hhead : ∃ rest, runs key (some next) samples = next :: rest := by
          obtain h | ⟨later, -, rest, h⟩ := runs_some key next samples
          · exact ⟨[], h⟩
          · exact ⟨later :: rest, h⟩
        obtain ⟨rest, hhead⟩ := hhead
        rw [hhead]
        exact if_neg fun hin => absurd hin.2 (not_lt.mpr ht)
      obtain rfl | hmem := List.mem_cons.mp hmem
      · rw [hskip _ le_rfl]
        exact ⟨sample.2, inForce_runs_first key le_rfl hnext, rfl⟩
      · rw [hskip _ (hnext sample hmem).le]
        exact ih hrest hmem

/-- **A compressed list is read back.**  At the time of a sample a value with its key is in force. -/
theorem inForce_runs {samples : List (ℚ × α)} (hsorted : samples.Pairwise fun a b => a.1 < b.1) {sample : ℚ × α}
    (hmem : sample ∈ samples) :
    ∃ v, StepFunction.inForce (runs key none samples) sample.1 = some v ∧ key v = key sample.2 := by
  cases samples with
  | nil => cases hmem
  | cons first samples =>
    rw [runs]
    obtain rfl | hmem := List.mem_cons.mp hmem
    · exact ⟨sample.2, inForce_runs_first key le_rfl (List.pairwise_cons.mp hsorted).1, rfl⟩
    · exact inForce_runs_some key hsorted hmem

end FavoniusBackend.Lib.RunLength
