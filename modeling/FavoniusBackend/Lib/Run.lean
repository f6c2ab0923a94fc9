/-!
# Runs and invariants

A run is a list of operations applied one after another.  An invariant that every operation preserves
holds after every run; a property that holds of every operation's effect under an invariant holds at
every point of a run.
-/

namespace FavoniusBackend.Lib.Run

variable {σ ι : Type}

def run (step : σ → ι → σ) (s : σ) (ops : List ι) : σ := ops.foldl step s

theorem run_cons (step : σ → ι → σ) (s : σ) (op : ι) (ops : List ι) :
    run step s (op :: ops) = run step (step s op) ops := rfl

theorem run_append (step : σ → ι → σ) (s : σ) (ops ops' : List ι) :
    run step s (ops ++ ops') = run step (run step s ops) ops' := List.foldl_append

/-- **The invariant rule.**  Preserved by every operation of the run, hence true at its end. -/
theorem run_invariant (step : σ → ι → σ) (Inv : σ → Prop) (ops : List ι)
    (hstep : ∀ s, ∀ op ∈ ops, Inv s → Inv (step s op)) (s : σ) (hs : Inv s) :
    Inv (run step s ops) := by
  induction ops generalizing s with
  | nil => exact hs
  | cons op ops ih =>
    rw [run_cons]
    exact ih (fun s' op' hop' => hstep s' op' (List.mem_cons_of_mem _ hop')) (step s op)
      (hstep s op List.mem_cons_self hs)

/-- A condition on the state before an operation and the operation, at every point of a run. -/
def Along (step : σ → ι → σ) (P : σ → ι → Prop) : σ → List ι → Prop
  | _, [] => True
  | s, op :: ops => P s op ∧ Along step P (step s op) ops

instance decidableAlong (step : σ → ι → σ) (P : σ → ι → Prop) [∀ s op, Decidable (P s op)] :
    ∀ (s : σ) (ops : List ι), Decidable (Along step P s ops)
  | _, [] => inferInstanceAs (Decidable True)
  | s, op :: ops =>
    have := decidableAlong step P (step s op) ops
    inferInstanceAs (Decidable (P s op ∧ Along step P (step s op) ops))

theorem Along.of_append {step : σ → ι → σ} {P : σ → ι → Prop} {s : σ} {ops ops' : List ι}
    (h : Along step P s (ops ++ ops')) : Along step P s ops := by
  induction ops generalizing s with
  | nil => trivial
  | cons op ops ih => exact ⟨h.1, ih h.2⟩

theorem Along.last {step : σ → ι → σ} {P : σ → ι → Prop} {s : σ} {ops : List ι} {op : ι}
    (h : Along step P s (ops ++ [op])) : P (run step s ops) op := by
  induction ops generalizing s with
  | nil => exact h.1
  | cons op' ops ih => exact ih h.2

theorem Along.of_forall {step : σ → ι → σ} {P : σ → ι → Prop} (h : ∀ s op, P s op) {s : σ} {ops : List ι} :
    Along step P s ops := by
  induction ops generalizing s with
  | nil => trivial
  | cons op ops ih => exact ⟨h s op, ih⟩

/-- **The conditional invariant rule.**  An invariant that every operation preserves where the condition
is met holds at the end of every run along which it is met. -/
theorem run_invariant_along {step : σ → ι → σ} {P : σ → ι → Prop} {Inv : σ → Prop}
    (hstep : ∀ s op, P s op → Inv s → Inv (step s op)) {s : σ} {ops : List ι} (hs : Inv s)
    (h : Along step P s ops) : Inv (run step s ops) := by
  induction ops generalizing s with
  | nil => exact hs
  | cons op ops ih =>
    rw [run_cons]
    exact ih (hstep s op h.1 hs) h.2

/-- A condition that follows from another one under an invariant, which the other one preserves, is met
along every run along which the other one is. -/
theorem Along.imp {step : σ → ι → σ} {P Q : σ → ι → Prop} {Inv : σ → Prop}
    (hstep : ∀ s op, Q s op → Inv s → P s op ∧ Inv (step s op)) {s : σ} {ops : List ι} (hs : Inv s)
    (h : Along step Q s ops) : Along step P s ops := by
  induction ops generalizing s with
  | nil => trivial
  | cons op ops ih =>
    obtain ⟨hop, hinv⟩ := hstep s op h.1 hs
    exact ⟨hop, ih hinv h.2⟩

/-- Two conditions that say the same under an invariant, which the first of them preserves, are met along
the same runs. -/
theorem along_iff_along {step : σ → ι → σ} {P Q : σ → ι → Prop} {Inv : σ → Prop}
    (hiff : ∀ s op, Inv s → (P s op ↔ Q s op)) (hstep : ∀ s op, P s op → Inv s → Inv (step s op))
    {s : σ} {ops : List ι} (hs : Inv s) : Along step P s ops ↔ Along step Q s ops := by
  induction ops generalizing s with
  | nil => exact Iff.rfl
  | cons op ops ih =>
    constructor
    · intro h
      exact ⟨(hiff s op hs).1 h.1, (ih (hstep s op h.1 hs)).1 h.2⟩
    · intro h
      have hop := (hiff s op hs).2 h.1
      exact ⟨hop, (ih (hstep s op hop hs)).2 h.2⟩

end FavoniusBackend.Lib.Run
