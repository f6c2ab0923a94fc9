import FavoniusBackend.Lib.IpAddress

/-!
# IPv4-mapped addresses

An address of version 4 has a form of version 6.  The two are one address in other words: `plain` takes both to the
former.  Membership in a network does not go by it, as a network has addresses of one version only; the tests for
private, loopback and link-local addresses, taken together, do.
-/

namespace FavoniusBackend.Lib.IpAddress

/-- The form of version 6 of an address of version 4. -/
def mapped (x : V4) : V6 where
  hextets := ⟨[0, 0, 0, 0, 0, 65535, ⟨x.a * 256 + x.b, by omega⟩, ⟨x.c * 256 + x.d, by omega⟩], rfl⟩
  scope := none

theorem ipv4Mapped_mapped (x : V4) : (mapped x).ipv4Mapped = some x := by
  have hpair : ∀ p q : Fin 256, Fin.ofNat 256 ((p * 256 + q : ℕ) / 256) = p ∧ Fin.ofNat 256 (p * 256 + q : ℕ) = q := by
    intro p q
    constructor
    · apply Fin.ext
      show (p * 256 + q : ℕ) / 256 % 256 = p
      omega
    · apply Fin.ext
      show (p * 256 + q : ℕ) % 256 = q
      omega
  show some (V4.mk _ _ _ _) = some x
  rw [(hpair x.a x.b).1, (hpair x.a x.b).2, (hpair x.c x.d).1, (hpair x.c x.d).2]

@[simp] theorem unmapped_mapped (x : V4) : unmapped (.v6 (mapped x)) = .v4 x := by
  rw [unmapped, ipv4Mapped_mapped]
  rfl

/-- The address of version 4 that an address is the form of, or the address itself; one with a scope is no such form. -/
def plain : Address → Address
  | .v4 x => .v4 x
  | .v6 y => if y.scope = none then unmapped (.v6 y) else .v6 y

@[simp] theorem plain_mapped (x : V4) : plain (.v6 (mapped x)) = .v4 x := unmapped_mapped x

theorem eq_mapped {y : V6} {x : V4} (h : y.ipv4Mapped = some x) (hscope : y.scope = none) : y = mapped x := by
  obtain ⟨hextets, scope⟩ := y
  obtain rfl : scope = none := hscope
  unfold V6.ipv4Mapped at h
  dsimp only at h
  split at h
  · rename_i high low heq
    obtain rfl := Option.some.inj h
    have hhextet : ∀ k : Hextet,
        k = ⟨(Fin.ofNat 256 ((k : ℕ) / 256) : ℕ) * 256 + (Fin.ofNat 256 (k : ℕ) : ℕ), by omega⟩ := by
      intro k
      apply Fin.ext
      show (k : ℕ) = (k : ℕ) / 256 % 256 * 256 + (k : ℕ) % 256
      omega
    have hval : hextets.val = (mapped ⟨Fin.ofNat 256 (high / 256), Fin.ofNat 256 high, Fin.ofNat 256 (low / 256),
        Fin.ofNat 256 low⟩).hextets.val := by
      rw [heq]
      show [0, 0, 0, 0, 0, 65535, high, low] = [0, 0, 0, 0, 0, 65535, _, _]
      rw [← hhextet high, ← hhextet low]
    rw [mapped, V6.mk.injEq]
    exact ⟨Subtype.ext hval, rfl⟩
  · cases h

theorem plain_cases (ip : Address) : plain ip = ip ∨ ∃ x, ip = .v6 (mapped x) := by
  cases ip with
  | v4 x => exact .inl rfl
  | v6 y =>
    by_cases hscope : y.scope = none
    · cases hmapped : y.ipv4Mapped with
      | none =>
        left
        show (if y.scope = none then unmapped (.v6 y) else .v6 y) = .v6 y
        rw [if_pos hscope, unmapped, hmapped]
        rfl
      | some x => exact .inr ⟨x, by rw [eq_mapped hmapped hscope]⟩
    · exact .inl (if_neg hscope)

/-! ## Internal addresses -/

def isInternal (ip : Address) : Bool := isPrivate ip || isLoopback ip || isLinkLocal ip

theorem isPrivate_of_contains {x network : V4} {prefixlen : Fin 33} (hmem : .v4 network prefixlen ∈ privateNetworks)
    (hcontains : (Network.v4 network prefixlen).contains (.v4 x) = true)
    (hexcepted : x.value ≠ V4.value ⟨192, 0, 0, 9⟩ ∧ x.value ≠ V4.value ⟨192, 0, 0, 10⟩) :
    isPrivate (.v4 x) = true := by
  have hout : (privateNetworksExceptions.all fun net => !net.contains (.v4 x)) = true := by
    have hone : ∀ y : V4, x.value ≠ y.value → (Network.v4 y 32).contains (.v4 x) = false := by
      intro y hy
      refine decide_eq_false ?_
      show ¬ x.value / 2 ^ (32 - 32) = y.value / 2 ^ (32 - 32)
      simpa using hy
    simp only [privateNetworksExceptions, netV6, List.all_cons, List.all_nil, hone _ hexcepted.1, hone _ hexcepted.2]
    rfl
  rw [isPrivate, Bool.and_eq_true]
  exact ⟨List.any_eq_true.mpr ⟨_, hmem, hcontains⟩, hout⟩

theorem isInternal_v4 (x : V4) : isInternal (.v4 x) = isPrivate (.v4 x) := by
  have hloopback : isLoopback (.v4 x) = true → isPrivate (.v4 x) = true := by
    intro h
    have hvalue : x.value / 16777216 = 127 := of_decide_eq_true h
    refine @isPrivate_of_contains x ⟨127, 0, 0, 0⟩ 8 (by decide) h ⟨?_, ?_⟩
    · show x.value ≠ 3221225481
      omega
    · show x.value ≠ 3221225482
      omega
  have hlocal : isLinkLocal (.v4 x) = true → isPrivate (.v4 x) = true := by
    intro h
    have hvalue : x.value / 65536 = 43518 := of_decide_eq_true h
    refine @isPrivate_of_contains x ⟨169, 254, 0, 0⟩ 16 (by decide) h ⟨?_, ?_⟩
    · show x.value ≠ 3221225481
      omega
    · show x.value ≠ 3221225482
      omega
  rw [isInternal]
  cases hprivate : isPrivate (.v4 x) with
  | true => rfl
  | false =>
    rw [hprivate] at hloopback hlocal
    rw [Bool.false_or, Bool.eq_false_iff.mpr fun h => Bool.noConfusion (hloopback h),
      Bool.eq_false_iff.mpr fun h => Bool.noConfusion (hlocal h)]
    rfl

theorem isInternal_mapped (x : V4) : isInternal (.v6 (mapped x)) = isPrivate (.v4 x) := by
  have hprivate : isPrivate (.v6 (mapped x)) = isPrivate (.v4 x) := by
    rw [isPrivate, unmapped_mapped]
    rfl
  have hvalue : 65535 * 2 ^ 32 ≤ (mapped x).value ∧ (mapped x).value < 65536 * 2 ^ 32 := by
    have hsum : (mapped x).value = (65535 * 65536 + (x.a * 256 + x.b)) * 65536 + (x.c * 256 + x.d) := by
      simp [V6.value, mapped]
    omega
  have hloopback : isLoopback (.v6 (mapped x)) = false := by
    refine decide_eq_false ?_
    omega
  have hlocal : isLinkLocal (.v6 (mapped x)) = false := by
    refine decide_eq_false ?_
    show ¬ (mapped x).value / 2 ^ (128 - 10) = 1018
    omega
  rw [isInternal, hprivate, hloopback, hlocal, Bool.or_false, Bool.or_false]

theorem isInternal_plain (ip : Address) : isInternal (plain ip) = isInternal ip := by
  rcases plain_cases ip with h | ⟨x, rfl⟩
  · rw [h]
  · rw [plain_mapped, isInternal_v4, isInternal_mapped]

end FavoniusBackend.Lib.IpAddress
