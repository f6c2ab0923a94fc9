import FavoniusBackend.Lib.Run

/-!
# Runs that answer

A component answers every operation and goes on in a new state.  The answers of a run are listed with their operations,
so that a property of an answer can refer to what came before it.

Two rules carry the proofs.  `answers_rule` gives a property of every answer from an invariant on the answers so far and
the state.  `answers_filter` says that the answers to the operations of one kind are those of a simpler component that is
given no others.
-/

namespace FavoniusBackend.Lib.Answers

open Lib

variable {σ τ ι ο : Type}

def answers (step : σ → ι → σ × ο) : σ → List ι → List (ι × ο)
  | _, [] => []
  | s, op :: ops => (op, (step s op).2) :: answers step (step s op).1 ops

/-- The state after an operation. -/
def next (step : σ → ι → σ × ο) (s : σ) (op : ι) : σ := (step s op).1

theorem answers_cons (step : σ → ι → σ × ο) (s : σ) (op : ι) (ops : List ι) :
    answers step s (op :: ops) = (op, (step s op).2) :: answers step (next step s op) ops := rfl

/-- **The rule for answers.**  Where an operation that is in order keeps an invariant on the log of answers and the
state, and its answer fits the log, every answer of a run fits the ones before it. -/
theorem answers_rule {step : σ → ι → σ × ο} {ok : σ → ι → Prop} {Inv : List (ι × ο) → σ → Prop}
    {Fits : List (ι × ο) → ι × ο → Prop}
    (hstep : ∀ log s op, ok s op → Inv log s →
      Fits log (op, (step s op).2) ∧ Inv (log ++ [(op, (step s op).2)]) (next step s op))
    {s : σ} {ops : List ι} {log : List (ι × ο)} (hok : Run.Along (next step) ok s ops) (hinv : Inv log s) :
    (∀ past e rest, answers step s ops = past ++ e :: rest → Fits (log ++ past) e) ∧
      Inv (log ++ answers step s ops) (Run.run (next step) s ops) := by
  induction ops generalizing s log with
  | nil =>
    refine ⟨?_, by rw [answers, List.append_nil]; exact hinv⟩
    intro past e rest heq
    cases past <;> cases heq
  | cons op ops ih =>
    obtain ⟨hfits, hnext⟩ := hstep log s op hok.1 hinv
    have hrest := ih hok.2 hnext
    rw [List.append_assoc] at hrest
    refine ⟨?_, hrest.2⟩
    intro past e rest heq
    cases past with
    | nil =>
      obtain ⟨rfl, -⟩ := List.cons.inj heq
      rw [List.append_nil]
      exact hfits
    | cons e' past =>
      obtain ⟨rfl, htail⟩ := List.cons.inj heq
      have := hrest.1 past e rest htail
      rwa [List.append_assoc] at this

/-- **The rule for one kind of operation.**  Where the operations of a kind are answered as a second component answers
them, and the others do not touch the relation between the two, the answers to that kind are the second component's. -/
theorem answers_filter {step : σ → ι → σ × ο} {step' : τ → ι → τ × ο} {ok : σ → ι → Prop} {mine : ι → Bool}
    {R : σ → τ → Prop}
    (hmine : ∀ s t op, ok s op → R s t → mine op →
      (step s op).2 = (step' t op).2 ∧ R (next step s op) (next step' t op))
    (hother : ∀ s t op, ok s op → R s t → mine op = false → R (next step s op) t)
    {s : σ} {t : τ} {ops : List ι} (hok : Run.Along (next step) ok s ops) (hR : R s t) :
    ((answers step s ops).filter fun e => mine e.1) = answers step' t (ops.filter mine) := by
  induction ops generalizing s t with
  | nil => rfl
  | cons op ops ih =>
    rw [answers_cons, List.filter_cons, List.filter_cons]
    cases hop : mine op with
    | true =>
      obtain ⟨hanswer, hnext⟩ := hmine s t op hok.1 hR hop
      rw [if_pos rfl, if_pos rfl, answers_cons, hanswer, ih hok.2 hnext]
    | false =>
      have hnext := hother s t op hok.1 hR hop
      rw [if_neg Bool.false_ne_true, if_neg Bool.false_ne_true, ih hok.2 hnext]

end FavoniusBackend.Lib.Answers
