/-!
# Guarded computations

Validation code is a sequence of checks, some of them inside loops, each of which raises an error when
it fails.  `require` is one check, `forEach` a loop of checks, `collect` a loop that gathers results.
A sequence succeeds exactly when every part of it does.
-/

namespace FavoniusBackend.Lib.Guard

variable {ε α β : Type}

/-- Raise the error unless the condition holds. -/
def require (p : Prop) [Decidable p] (e : ε) : Except ε Unit := if p then .ok () else .error e

theorem require_eq_ok (p : Prop) [Decidable p] (e : ε) : require p e = .ok () ↔ p := by
  unfold require
  split
  · rename_i h
    exact ⟨fun _ => h, fun _ => rfl⟩
  · rename_i h
    refine ⟨?_, fun hp => absurd hp h⟩
    intro hok
    cases hok

/-- Run a check on every element, in order. -/
def forEach (f : α → Except ε Unit) : List α → Except ε Unit
  | [] => .ok ()
  | a :: rest => f a >>= fun _ => forEach f rest

/-- Gather the results of a fallible function, in order. -/
def collect (f : α → Except ε β) : List α → Except ε (List β)
  | [] => .ok []
  | a :: rest => f a >>= fun b => collect f rest >>= fun bs => .ok (b :: bs)

theorem bind_eq_ok (x : Except ε α) (f : α → Except ε β) (b : β) :
    (x >>= f) = .ok b ↔ ∃ a, x = .ok a ∧ f a = .ok b := by
  cases x with
  | error e =>
    refine ⟨?_, ?_⟩
    · intro h
      cases h
    · intro ⟨a, h, _⟩
      cases h
  | ok a =>
    refine ⟨fun h => ⟨a, rfl, h⟩, ?_⟩
    intro ⟨a', ha, hf⟩
    cases ha
    exact hf

/-- A sequence raises what its first part raises, or what the rest raises after it. -/
theorem bind_eq_error (x : Except ε α) (f : α → Except ε β) (e : ε) :
    (x >>= f) = .error e ↔ x = .error e ∨ ∃ a, x = .ok a ∧ f a = .error e := by
  cases x with
  | error e' =>
    refine ⟨?_, ?_⟩
    · intro h
      cases h
      exact Or.inl rfl
    · intro h
      rcases h with h | ⟨a, h, _⟩
      · cases h
        rfl
      · cases h
  | ok a =>
    refine ⟨fun h => Or.inr ⟨a, rfl, h⟩, ?_⟩
    intro h
    rcases h with h | ⟨a', ha, hf⟩
    · cases h
    · cases ha
      exact hf

theorem require_eq_error (p : Prop) [Decidable p] (e e' : ε) :
    require p e = .error e' ↔ ¬ p ∧ e = e' := by
  unfold require
  split
  · rename_i h
    refine ⟨?_, fun hn => absurd h hn.1⟩
    intro hok
    cases hok
  · rename_i h
    exact ⟨fun herr => ⟨h, Except.error.inj herr⟩, fun hn => hn.2 ▸ rfl⟩

theorem seq_eq_ok (x : Except ε Unit) (y : Except ε β) (b : β) :
    (x >>= fun _ => y) = .ok b ↔ x = .ok () ∧ y = .ok b := by
  rw [bind_eq_ok]
  exact ⟨fun ⟨_, hx, hy⟩ => ⟨hx, hy⟩, fun ⟨hx, hy⟩ => ⟨(), hx, hy⟩⟩

theorem forEach_eq_ok (f : α → Except ε Unit) (l : List α) :
    forEach f l = .ok () ↔ ∀ a ∈ l, f a = .ok () := by
  induction l with
  | nil =>
    refine ⟨?_, fun _ => rfl⟩
    intro _ a ha
    cases ha
  | cons a rest ih =>
    rw [forEach, seq_eq_ok, ih]
    refine ⟨?_, fun h => ⟨h a List.mem_cons_self, fun b hb => h b (List.mem_cons_of_mem _ hb)⟩⟩
    intro ⟨ha, hrest⟩ b hb
    rcases List.mem_cons.mp hb with rfl | hb
    · exact ha
    · exact hrest b hb

theorem foldlM_eq_ok {σ : Type} {f : σ → α → Except ε σ} {P : α → Prop} {g : σ → α → σ}
    (h : ∀ s a s', f s a = .ok s' ↔ P a ∧ s' = g s a) (l : List α) (s s' : σ) :
    l.foldlM f s = .ok s' ↔ (∀ a ∈ l, P a) ∧ s' = l.foldl g s := by
  induction l generalizing s with
  | nil =>
    constructor
    · intro hs
      cases hs
      exact ⟨nofun, rfl⟩
    · rintro ⟨-, rfl⟩
      rfl
  | cons a rest ih =>
    rw [List.foldlM_cons, bind_eq_ok, List.foldl_cons, List.forall_mem_cons]
    constructor
    · rintro ⟨t, ht, hrest⟩
      obtain ⟨ha, rfl⟩ := (h s a t).mp ht
      obtain ⟨hall, hs⟩ := (ih _).mp hrest
      exact ⟨⟨ha, hall⟩, hs⟩
    · rintro ⟨⟨ha, hall⟩, hs⟩
      exact ⟨g s a, (h s a _).mpr ⟨ha, rfl⟩, (ih _).mpr ⟨hall, hs⟩⟩

/-- When the function succeeds with `g` on every element, so does the loop. -/
theorem collect_eq_map (f : α → Except ε β) (g : α → β) (l : List α)
    (h : ∀ a ∈ l, f a = .ok (g a)) : collect f l = .ok (l.map g) := by
  induction l with
  | nil => rfl
  | cons a rest ih =>
    rw [collect, h a List.mem_cons_self, ih (fun b hb => h b (List.mem_cons_of_mem _ hb))]
    rfl

theorem exists_collect {f : α → Except ε β} {l : List α} (h : ∀ a ∈ l, ∃ b, f a = .ok b) :
    ∃ bs, collect f l = .ok bs := by
  induction l with
  | nil => exact ⟨[], rfl⟩
  | cons a rest ih =>
    obtain ⟨b, hb⟩ := h a List.mem_cons_self
    obtain ⟨bs, hbs⟩ := ih fun c hc => h c (List.mem_cons_of_mem _ hc)
    refine ⟨b :: bs, ?_⟩
    rw [collect, hb, hbs]
    rfl

/-- A loop that succeeds has succeeded on every element, and holds its result. -/
theorem ok_of_collect {f : α → Except ε β} {l : List α} {bs : List β} (h : collect f l = .ok bs) :
    ∀ a ∈ l, ∃ b ∈ bs, f a = .ok b := by
  induction l generalizing bs with
  | nil => intro a ha; cases ha
  | cons c rest ih =>
    rw [collect, bind_eq_ok] at h
    obtain ⟨b, hb, h⟩ := h
    rw [bind_eq_ok] at h
    obtain ⟨bs', hbs, h⟩ := h
    cases h
    intro a ha
    rcases List.mem_cons.mp ha with rfl | ha
    · exact ⟨b, List.mem_cons_self, hb⟩
    · obtain ⟨b', hmem, hb'⟩ := ih hbs a ha
      exact ⟨b', List.mem_cons_of_mem b hmem, hb'⟩

/-- Every result of a loop is that of one of its elements. -/
theorem mem_of_collect {f : α → Except ε β} {l : List α} {bs : List β} (h : collect f l = .ok bs) :
    ∀ b ∈ bs, ∃ a ∈ l, f a = .ok b := by
  induction l generalizing bs with
  | nil =>
    cases h
    intro b hb
    cases hb
  | cons c rest ih =>
    rw [collect, bind_eq_ok] at h
    obtain ⟨d, hd, h⟩ := h
    rw [bind_eq_ok] at h
    obtain ⟨ds, hds, h⟩ := h
    cases h
    intro b hb
    rcases List.mem_cons.mp hb with rfl | hmem
    · exact ⟨c, List.mem_cons_self, hd⟩
    · obtain ⟨a, ha, hfa⟩ := ih hds b hmem
      exact ⟨a, List.mem_cons_of_mem c ha, hfa⟩

/-- The first element of a kind, and the first result of that kind, where every result is of the kind of its
element. -/
theorem find?_of_collect {f : α → Except ε β} {p : α → Bool} {q : β → Bool} {l : List α} {bs : List β}
    (hkind : ∀ a ∈ l, ∀ b, f a = .ok b → q b = p a) (h : collect f l = .ok bs) :
    l.find? p = none ∧ bs.find? q = none ∨
      ∃ a b, l.find? p = some a ∧ f a = .ok b ∧ bs.find? q = some b := by
  induction l generalizing bs with
  | nil =>
    cases h
    exact Or.inl ⟨rfl, rfl⟩
  | cons c rest ih =>
    rw [collect, bind_eq_ok] at h
    obtain ⟨d, hd, h⟩ := h
    rw [bind_eq_ok] at h
    obtain ⟨ds, hds, h⟩ := h
    cases h
    have hsame := hkind c List.mem_cons_self d hd
    cases hp : p c with
    | true =>
      rw [hp] at hsame
      exact Or.inr ⟨c, d, List.find?_cons_of_pos hp, hd, List.find?_cons_of_pos hsame⟩
    | false =>
      rw [hp] at hsame
      rw [List.find?_cons_of_neg (by rw [hp]; decide), List.find?_cons_of_neg (by rw [hsame]; decide)]
      exact ih (fun a ha => hkind a (List.mem_cons_of_mem c ha)) hds

end FavoniusBackend.Lib.Guard
