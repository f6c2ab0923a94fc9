import FavoniusBackend.Lib.Guard
import Mathlib.Tactic.Tauto

/-!
# Checks that meet unexpected values

A sequence of checks rejects a subject with errors of an expected kind, but a check may be handed a value that it cannot
deal with, and then it fails in another way.  A *stage* says of a check what it copes with and what it accepts; the
sequence fails as expected exactly where every check that is reached copes, which is what `Orderly` says of the stages.
-/

namespace FavoniusBackend.Lib.Checks

variable {ε α β : Type}

/-- What a check copes with, and what it accepts. -/
structure Stage where
  copes : Prop
  accepts : Prop

/-- Every check that is reached copes: those before it accept. -/
def Orderly : List Stage → Prop
  | [] => True
  | stage :: rest => stage.copes ∧ (stage.accepts → Orderly rest)

def Accepted (stages : List Stage) : Prop := ∀ stage ∈ stages, stage.accepts

@[simp] theorem accepted_nil : Accepted [] := fun _ h => nomatch h

@[simp] theorem accepted_cons (stage : Stage) (rest : List Stage) :
    Accepted (stage :: rest) ↔ stage.accepts ∧ Accepted rest := List.forall_mem_cons

@[simp] theorem accepted_append (stages rest : List Stage) :
    Accepted (stages ++ rest) ↔ Accepted stages ∧ Accepted rest := List.forall_mem_append

theorem orderly_append (stages rest : List Stage) :
    Orderly (stages ++ rest) ↔ Orderly stages ∧ (Accepted stages → Orderly rest) := by
  induction stages with
  | nil => simp [Orderly]
  | cons stage stages ih =>
    show stage.copes ∧ (stage.accepts → Orderly (stages ++ rest)) ↔
      (stage.copes ∧ (stage.accepts → Orderly stages)) ∧ (Accepted (stage :: stages) → Orderly rest)
    rw [ih, accepted_cons]
    tauto

variable {expected : ε → Prop}

/-- A computation is the sequence of the checks: it succeeds where they accept, and fails as expected otherwise, as long
as those that are reached cope. -/
structure Follows (expected : ε → Prop) (stages : List Stage) (x : Except ε α) : Prop where
  errors : (∀ e, x = .error e → expected e) ↔ Orderly stages
  succeeds : (∃ a, x = .ok a) ↔ Accepted stages

namespace Follows

theorem pure (a : α) : Follows expected [] (.ok a) where
  errors := iff_of_true (fun _ h => nomatch h) trivial
  succeeds := iff_of_true ⟨a, rfl⟩ accepted_nil

theorem single {x : Except ε α} {stage : Stage} (herrors : (∀ e, x = .error e → expected e) ↔ stage.copes)
    (hsucceeds : (∃ a, x = .ok a) ↔ stage.accepts) : Follows expected [stage] x where
  errors := by
    rw [herrors]
    exact ⟨fun h => ⟨h, fun _ => trivial⟩, And.left⟩
  succeeds := by
    rw [hsucceeds]
    simp

theorem of_expected {x : Except ε α} {accepts : Prop} (h : ∀ e, x = .error e → expected e)
    (haccepts : (∃ a, x = .ok a) ↔ accepts) : Follows expected [⟨True, accepts⟩] x :=
  single (iff_of_true h trivial) haccepts

theorem require (p : Prop) [Decidable p] {e : ε} (he : expected e) :
    Follows expected [⟨True, p⟩] (Guard.require p e) := by
  refine of_expected ?_ ?_
  · intro e' h
    rw [Guard.require] at h
    split at h
    · cases h
    · cases h
      exact he
  · exact ⟨fun ⟨_, h⟩ => (Guard.require_eq_ok p e).mp h, fun h => ⟨_, (Guard.require_eq_ok p e).mpr h⟩⟩

theorem bind {stages rest : List Stage} {x : Except ε α} {f : α → Except ε β} (hx : Follows expected stages x)
    (hf : ∀ a, x = .ok a → Follows expected rest (f a)) : Follows expected (stages ++ rest) (x >>= f) where
  errors := by
    rw [orderly_append, ← hx.errors, ← hx.succeeds]
    constructor
    · intro h
      refine ⟨fun e he => h e ((Guard.bind_eq_error x f e).mpr (.inl he)), fun ⟨a, ha⟩ => (hf a ha).errors.mp ?_⟩
      intro e he
      exact h e ((Guard.bind_eq_error x f e).mpr (.inr ⟨a, ha, he⟩))
    · intro ⟨hfirst, hrest⟩ e he
      rcases (Guard.bind_eq_error x f e).mp he with he | ⟨a, ha, he⟩
      · exact hfirst e he
      · exact (hf a ha).errors.mpr (hrest ⟨a, ha⟩) e he
  succeeds := by
    rw [accepted_append, ← hx.succeeds]
    constructor
    · intro ⟨b, hb⟩
      obtain ⟨a, ha, hfa⟩ := (Guard.bind_eq_ok x f b).mp hb
      exact ⟨⟨a, ha⟩, (hf a ha).succeeds.mp ⟨b, hfa⟩⟩
    · intro ⟨⟨a, ha⟩, hrest⟩
      obtain ⟨b, hb⟩ := (hf a ha).succeeds.mpr hrest
      exact ⟨b, (Guard.bind_eq_ok x f b).mpr ⟨a, ha, hb⟩⟩

theorem merge {stages : List Stage} {x : Except ε α} {accepts : Prop} (hx : Follows expected stages x)
    (hcopes : ∀ stage ∈ stages, stage.copes) (haccepts : Accepted stages ↔ accepts) :
    Follows expected [⟨True, accepts⟩] x := by
  refine of_expected (hx.errors.mpr ?_) (hx.succeeds.trans haccepts)
  clear hx haccepts
  induction stages with
  | nil => exact trivial
  | cons stage rest ih =>
    exact ⟨hcopes stage List.mem_cons_self, fun _ => ih fun s hs => hcopes s (List.mem_cons_of_mem _ hs)⟩

theorem skip {stage : Stage} {rest : List Stage} {x : Except ε α} (hcopes : stage.copes) (haccepts : stage.accepts)
    (hx : Follows expected rest x) : Follows expected (stage :: rest) x where
  errors := by
    rw [hx.errors]
    exact ⟨fun h => ⟨hcopes, fun _ => h⟩, fun h => h.2 haccepts⟩
  succeeds := by
    rw [hx.succeeds, accepted_cons]
    exact ⟨fun h => ⟨haccepts, h⟩, And.right⟩

theorem reject {stage : Stage} {e : ε} (hcopes : stage.copes) (hrejects : ¬ stage.accepts) (he : expected e)
    (rest : List Stage) : Follows expected (stage :: rest) (.error e : Except ε α) where
  errors := iff_of_true (fun _ h => Except.error.inj h ▸ he) ⟨hcopes, fun h => absurd h hrejects⟩
  succeeds := by
    rw [accepted_cons]
    exact iff_of_false nofun fun h => hrejects h.1

theorem map {stages : List Stage} {x : Except ε α} {f : α → β} (hx : Follows expected stages x) :
    Follows expected stages (x >>= fun a => .ok (f a)) := by
  have h := hx.bind fun a _ => Follows.pure (f a)
  rwa [List.append_nil] at h

end Follows

end FavoniusBackend.Lib.Checks
