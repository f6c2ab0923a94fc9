import FavoniusBackend.Lib.Stateful
import Mathlib.Data.Nat.Notation

/-!
# Statements on a database

A method that works on a database sends it one statement after another.  Any of them may raise, whatever it would have
done; one that raised has changed nothing, and what the statements before it did stays.

`Returns` is the rule of postconditions: what holds of the database before and after a method that returned.
-/

namespace FavoniusBackend.Lib.Statements

open Lib.Stateful

variable {δ ε α β : Type}

/-- A database and the number of statements that were sent to it. -/
structure Session (δ : Type) where
  db : δ
  sent : ℕ

/-- Send a statement: what it does depends on its number, and it may raise instead. -/
def statement (raises : ℕ → Option ε) (run : ℕ → δ → Except ε (α × δ)) : Method (Session δ) ε α :=
  ExceptT.mk fun s => pure <|
    match raises s.sent with
    | some e => (.error e, ⟨s.db, s.sent + 1⟩)
    | none =>
      match run s.sent s.db with
      | .ok (a, db) => (.ok a, ⟨db, s.sent + 1⟩)
      | .error e => (.error e, ⟨s.db, s.sent + 1⟩)

theorem exec_statement (raises : ℕ → Option ε) (run : ℕ → δ → Except ε (α × δ)) (s : Session δ) :
    exec (statement raises run) s =
      match raises s.sent with
      | some e => (.error e, ⟨s.db, s.sent + 1⟩)
      | none =>
        match run s.sent s.db with
        | .ok (a, db) => (.ok a, ⟨db, s.sent + 1⟩)
        | .error e => (.error e, ⟨s.db, s.sent + 1⟩) := rfl

/-- Where the method returns, this holds of the database before, of what it returns and of the database after. -/
def Returns (x : Method (Session δ) ε α) (post : δ → α → δ → Prop) : Prop :=
  ∀ s a s', exec x s = (.ok a, s') → post s.db a s'.db

theorem Returns.imp {x : Method (Session δ) ε α} {post post' : δ → α → δ → Prop} (h : Returns x post)
    (himp : ∀ db a db', post db a db' → post' db a db') : Returns x post' := by
  intro s a s' hx
  exact himp s.db a s'.db (h s a s' hx)

theorem returns_pure (a : α) : Returns (pure a : Method (Session δ) ε α) fun db a' db' => a' = a ∧ db' = db := by
  intro s a' s' h
  rw [exec_pure] at h
  cases h
  exact ⟨rfl, rfl⟩

theorem returns_statement {raises : ℕ → Option ε} {run : ℕ → δ → Except ε (α × δ)} {post : δ → α → δ → Prop}
    (h : ∀ k db a db', run k db = .ok (a, db') → post db a db') : Returns (statement raises run) post := by
  intro s a s' hx
  rw [exec_statement] at hx
  split at hx
  · cases hx
  · split at hx
    · rename_i hrun
      cases hx
      exact h _ _ _ _ hrun
    · cases hx

theorem returns_bind {x : Method (Session δ) ε α} {f : α → Method (Session δ) ε β} {mid : δ → α → δ → Prop}
    {post : δ → β → δ → Prop} (hx : Returns x mid)
    (hf : ∀ db a db₁, mid db a db₁ → Returns (f a) fun db₁' b db' => db₁' = db₁ → post db b db') :
    Returns (x >>= f) post := by
  intro s b s' h
  obtain ⟨a, s₁, hxa, hfb⟩ := (exec_bind_eq_ok x f s s' b).mp h
  exact hf s.db a s₁.db (hx s a s₁ hxa) s₁ b s' hfb rfl

/-- The handler runs on whatever the method left, so what it leads to holds from every database. -/
theorem returns_recover {x : Method (Session δ) ε α} {f : ε → Method (Session δ) ε α} {post : δ → α → δ → Prop}
    (hx : Returns x post) (hf : ∀ e db, Returns (f e) fun _ a db' => post db a db') : Returns (recover x f) post := by
  intro s a s' h
  rw [exec_recover] at h
  split at h
  · rename_i hok
    cases h
    exact hx s a s' hok
  · rename_i e s₁ _
    exact hf e s.db s₁ a s' h

/-- A loop, by a relation between the elements that were gone through and the databases before and after. -/
theorem returns_forM {R : List α → δ → δ → Prop} (hnil : ∀ db, R [] db db)
    (hcons : ∀ {a rest db db₁ db'}, R [a] db db₁ → R rest db₁ db' → R (a :: rest) db db')
    {f : α → Method (Session δ) ε Unit} (hf : ∀ a, Returns (f a) fun db _ db' => R [a] db db') (l : List α) :
    Returns (l.forM f) fun db _ db' => R l db db' := by
  induction l with
  | nil =>
    refine (returns_pure ()).imp fun db _ db' h => ?_
    rw [h.2]
    exact hnil db
  | cons a rest ih =>
    show Returns (f a >>= fun _ => rest.forM f) _
    refine returns_bind (hf a) fun db _ db₁ hstep => ih.imp fun _ _ db' hrest heq => ?_
    subst heq
    exact hcons hstep hrest

end FavoniusBackend.Lib.Statements
