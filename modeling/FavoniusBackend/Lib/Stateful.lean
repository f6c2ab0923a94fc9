/-!
# Methods of an object

A method reads and writes the fields of its object and may raise.  What it wrote before it raised
stays written, so a call on an object gives a result or an error together with the object it leaves
behind (`exec`).

Two rules carry the proofs.  `exec_bind_eq_ok` takes a call that returned apart into its parts.
`Agrees R` says that a method cannot tell two related objects apart: it gives the same result on both
and leaves related objects; it is closed under sequencing.
-/

namespace FavoniusBackend.Lib.Stateful

variable {σ ε α β : Type}

/-- A method of an object of type `σ` that returns an `α` or raises an `ε`. -/
abbrev Method (σ ε α : Type) := ExceptT ε (StateM σ) α

def exec (x : Method σ ε α) (s : σ) : Except ε α × σ := StateT.run (ExceptT.run x) s

/-- A computation that does not touch the object. -/
def attempt (x : Except ε α) : Method σ ε α := ExceptT.mk (pure x)

def field (f : σ → α) : Method σ ε α := ExceptT.mk fun s => pure (Except.ok (f s), s)

/-- Run the handler on the object that the method left when it raised. -/
def recover (x : Method σ ε α) (f : ε → Method σ ε α) : Method σ ε α :=
  ExceptT.mk fun s =>
    match exec x s with
    | (.ok a, s') => pure (.ok a, s')
    | (.error e, s') => exec (f e) s'

@[simp] theorem exec_pure (a : α) (s : σ) : exec (pure a : Method σ ε α) s = (.ok a, s) := rfl

theorem exec_recover (x : Method σ ε α) (f : ε → Method σ ε α) (s : σ) :
    exec (recover x f) s =
      match exec x s with
      | (.ok a, s') => (.ok a, s')
      | (.error e, s') => exec (f e) s' := by
  unfold recover exec
  rfl

@[simp] theorem exec_field (f : σ → α) (s : σ) : exec (field f : Method σ ε α) s = (.ok (f s), s) := rfl

@[simp] theorem exec_modify (f : σ → σ) (s : σ) : exec (modify f : Method σ ε Unit) s = (.ok (), f s) :=
  rfl

@[simp] theorem exec_attempt (x : Except ε α) (s : σ) : exec (attempt x : Method σ ε α) s = (x, s) :=
  rfl

/-- Sequencing: the second method runs on the object the first one left, unless it raised. -/
theorem exec_bind (x : Method σ ε α) (f : α → Method σ ε β) (s : σ) :
    exec (x >>= f) s =
      match exec x s with
      | (.ok a, s') => exec (f a) s'
      | (.error e, s') => (.error e, s') := by
  unfold exec
  rw [ExceptT.run_bind, StateT.run_bind]
  rcases StateT.run (ExceptT.run x) s with ⟨r, s'⟩
  cases r with
  | ok a => rfl
  | error e => rfl

theorem exec_bind_ok {x : Method σ ε α} {f : α → Method σ ε β} {s s' : σ} {a : α} (h : exec x s = (.ok a, s')) :
    exec (x >>= f) s = exec (f a) s' := by
  rw [exec_bind, h]

theorem exec_bind_error {x : Method σ ε α} {f : α → Method σ ε β} {s s' : σ} {e : ε}
    (h : exec x s = (.error e, s')) : exec (x >>= f) s = (.error e, s') := by
  rw [exec_bind, h]

theorem exec_recover_ok {x : Method σ ε α} {f : ε → Method σ ε α} {s s' : σ} {a : α}
    (h : exec x s = (.ok a, s')) : exec (recover x f) s = (.ok a, s') := by
  rw [exec_recover, h]

theorem exec_recover_error {x : Method σ ε α} {f : ε → Method σ ε α} {s s' : σ} {e : ε}
    (h : exec x s = (.error e, s')) : exec (recover x f) s = exec (f e) s' := by
  rw [exec_recover, h]

/-- **Taking a call apart.** -/
theorem exec_bind_eq_ok (x : Method σ ε α) (f : α → Method σ ε β) (s s' : σ) (b : β) :
    exec (x >>= f) s = (.ok b, s') ↔
      ∃ a s₁, exec x s = (.ok a, s₁) ∧ exec (f a) s₁ = (.ok b, s') := by
  rw [exec_bind]
  rcases hx : exec x s with ⟨r, s₁⟩
  cases r with
  | ok a =>
    refine ⟨fun h => ⟨a, s₁, rfl, h⟩, ?_⟩
    intro ⟨a', s₂, ha, hf⟩
    cases ha
    exact hf
  | error e =>
    refine ⟨fun h => ?_, ?_⟩
    · cases h
    · intro ⟨a', s₂, ha, _⟩
      cases ha

theorem exec_field_bind (f : σ → α) (g : α → Method σ ε β) (s : σ) :
    exec ((field f : Method σ ε α) >>= g) s = exec (g (f s)) s := by
  rw [exec_bind, exec_field]

theorem exec_modify_bind (f : σ → σ) (g : Unit → Method σ ε β) (s : σ) :
    exec ((modify f : Method σ ε Unit) >>= g) s = exec (g ()) (f s) := by
  rw [exec_bind, exec_modify]

/-- Taking apart a call that starts with a computation beside the object. -/
theorem exec_attempt_bind_eq_ok (x : Except ε α) (f : α → Method σ ε β) (s s' : σ) (b : β) :
    exec ((attempt x : Method σ ε α) >>= f) s = (.ok b, s') ↔
      ∃ a, x = .ok a ∧ exec (f a) s = (.ok b, s') := by
  rw [exec_bind, exec_attempt]
  cases x with
  | ok a =>
    refine ⟨fun h => ⟨a, rfl, h⟩, ?_⟩
    intro ⟨a', ha, hf⟩
    cases ha
    exact hf
  | error e =>
    refine ⟨fun h => ?_, ?_⟩
    · cases h
    · intro ⟨a', ha, _⟩
      cases ha

section Agrees

variable {R : σ → σ → Prop}

/-- On related objects the method gives the same result and leaves related objects. -/
def Agrees (R : σ → σ → Prop) (x : Method σ ε α) : Prop :=
  ∀ s t, R s t → (exec x s).1 = (exec x t).1 ∧ R (exec x s).2 (exec x t).2

theorem agrees_pure (a : α) : Agrees R (pure a : Method σ ε α) := by
  intro s t hst
  exact ⟨rfl, hst⟩

theorem agrees_attempt (x : Except ε α) : Agrees R (attempt x : Method σ ε α) := by
  intro s t hst
  exact ⟨rfl, hst⟩

/-- Writing fields in a way that keeps the relation. -/
theorem agrees_modify {f : σ → σ} (hf : ∀ s t, R s t → R (f s) (f t)) :
    Agrees R (modify f : Method σ ε Unit) := by
  intro s t hst
  exact ⟨rfl, hf s t hst⟩

theorem agrees_bind {x : Method σ ε α} {f : α → Method σ ε β} (hx : Agrees R x)
    (hf : ∀ a, Agrees R (f a)) : Agrees R (x >>= f) := by
  intro s t hst
  have hval := (hx s t hst).1
  have hrel := (hx s t hst).2
  rw [exec_bind, exec_bind]
  rcases hs : exec x s with ⟨r, s'⟩
  rcases ht : exec x t with ⟨r', t'⟩
  rw [hs, ht] at hval hrel
  have hr : r = r' := hval
  subst hr
  cases r with
  | ok a => exact hf a s' t' hrel
  | error e => exact ⟨rfl, hrel⟩

theorem agrees_field_bind {f : σ → α} {g : α → Method σ ε β} (v : α)
    (hf : ∀ s t, R s t → f s = v ∧ f t = v) (hg : Agrees R (g v)) :
    Agrees R ((field f : Method σ ε α) >>= g) := by
  intro s t hst
  obtain ⟨hs, ht⟩ := hf s t hst
  rw [exec_field_bind, exec_field_bind, hs, ht]
  exact hg s t hst

theorem agrees_of_invariant {Inv : σ → Prop} {x : Method σ ε α} (r : Except ε α)
    (h : ∀ s, Inv s → (exec x s).1 = r ∧ Inv (exec x s).2) :
    Agrees (fun s t => Inv s ∧ Inv t) x := by
  intro s t hst
  obtain ⟨hs, hs'⟩ := h s hst.1
  obtain ⟨ht, ht'⟩ := h t hst.2
  exact ⟨hs.trans ht.symm, hs', ht'⟩

theorem agrees_ite {q : Prop} [Decidable q] {x y : Method σ ε α} (hx : Agrees R x) (hy : Agrees R y) :
    Agrees R (if q then x else y) := by
  split
  · exact hx
  · exact hy

end Agrees

end FavoniusBackend.Lib.Stateful
