import FavoniusBackend.Lib.MappedAddress

/-!
# Classes of addresses

The other tests of an `ip_address`, and the addresses that no host of the internet has: those of the special networks,
and the forms of version 6 that such an address of version 4 is embedded in.
-/

namespace FavoniusBackend.Lib.IpAddress

/-! ## The tests -/

def isMulticast : Address → Bool
  | .v4 x => (Network.v4 ⟨224, 0, 0, 0⟩ 4).contains (.v4 x)
  | .v6 x => (netV6 ⟨[0xff00, 0, 0, 0, 0, 0, 0, 0], rfl⟩ 8).contains (.v6 x)

/-- `_reserved_network` and `_reserved_networks`. -/
def reservedNetworks : List Network :=
  [.v4 ⟨240, 0, 0, 0⟩ 4,
    netV6 ⟨[0, 0, 0, 0, 0, 0, 0, 0], rfl⟩ 8, netV6 ⟨[0x100, 0, 0, 0, 0, 0, 0, 0], rfl⟩ 8,
    netV6 ⟨[0x200, 0, 0, 0, 0, 0, 0, 0], rfl⟩ 7, netV6 ⟨[0x400, 0, 0, 0, 0, 0, 0, 0], rfl⟩ 6,
    netV6 ⟨[0x800, 0, 0, 0, 0, 0, 0, 0], rfl⟩ 5, netV6 ⟨[0x1000, 0, 0, 0, 0, 0, 0, 0], rfl⟩ 4,
    netV6 ⟨[0x4000, 0, 0, 0, 0, 0, 0, 0], rfl⟩ 3, netV6 ⟨[0x6000, 0, 0, 0, 0, 0, 0, 0], rfl⟩ 3,
    netV6 ⟨[0x8000, 0, 0, 0, 0, 0, 0, 0], rfl⟩ 3, netV6 ⟨[0xa000, 0, 0, 0, 0, 0, 0, 0], rfl⟩ 3,
    netV6 ⟨[0xc000, 0, 0, 0, 0, 0, 0, 0], rfl⟩ 3, netV6 ⟨[0xe000, 0, 0, 0, 0, 0, 0, 0], rfl⟩ 4,
    netV6 ⟨[0xf000, 0, 0, 0, 0, 0, 0, 0], rfl⟩ 5, netV6 ⟨[0xf800, 0, 0, 0, 0, 0, 0, 0], rfl⟩ 6,
    netV6 ⟨[0xfe00, 0, 0, 0, 0, 0, 0, 0], rfl⟩ 9]

def isReserved (x : Address) : Bool := reservedNetworks.any (·.contains x)

def isUnspecified : Address → Bool
  | .v4 x => decide (x.value = 0)
  | .v6 x => decide (x.value = 0)

/-- The shared address space of the providers, which `is_private` leaves out. -/
def isShared : Address → Bool
  | .v4 x => (Network.v4 ⟨100, 64, 0, 0⟩ 10).contains (.v4 x)
  | .v6 _ => false

def isSiteLocal : Address → Bool
  | .v4 _ => false
  | .v6 x => (netV6 ⟨[0xfec0, 0, 0, 0, 0, 0, 0, 0], rfl⟩ 10).contains (.v6 x)

/-! ## Internal addresses -/

def pairV4 (high low : Hextet) : V4 :=
  ⟨Fin.ofNat 256 (high / 256), Fin.ofNat 256 high, Fin.ofNat 256 (low / 256), Fin.ofNat 256 low⟩

/-- The addresses of version 4 that an address is made of: the last hextets of an IPv4-compatible address and of one of
NAT64, the relay's in 6to4, the server's and the client's in Teredo. -/
def V6.embedded (x : V6) : List V4 :=
  match x.hextets.val with
  | [0, 0, 0, 0, 0, 0, high, low] => [pairV4 high low]
  | [0x64, 0xff9b, 0, 0, 0, 0, high, low] => [pairV4 high low]
  | [0x2002, high, low, _, _, _, _, _] => [pairV4 high low]
  | [0x2001, 0, high, low, _, _, high', low'] => [pairV4 high low, pairV4 (65535 - high') (65535 - low')]
  | _ => []

/-- No host of the internet has the address: it is private, loopback, link-local, of a site, shared, reserved, multicast
or unspecified. -/
def Special (x : Address) : Prop :=
  isPrivate x = true ∨ isLoopback x = true ∨ isLinkLocal x = true ∨ isSiteLocal x = true ∨ isShared x = true ∨
    isReserved x = true ∨ isMulticast x = true ∨ isUnspecified x = true

def Unreachable (x : Address) : Prop :=
  match unmapped x with
  | .v4 y => Special (.v4 y)
  | .v6 y => Special (.v6 y) ∨ ∃ z ∈ y.embedded, Special (.v4 z)

/-! ## The networks of the embedding forms -/

theorem V6.value_eq {x : V6} {a b c d e f g h : Hextet} (hx : x.hextets.val = [a, b, c, d, e, f, g, h]) :
    x.value = ((((((a * 65536 + b) * 65536 + c) * 65536 + d) * 65536 + e) * 65536 + f) * 65536 + g) * 65536 + h := by
  rw [V6.value, hx]
  simp

theorem isReserved_of_low {x : V6} (h : x.value < 2 ^ 120) : isReserved (.v6 x) = true := by
  refine List.any_eq_true.mpr ⟨netV6 ⟨[0, 0, 0, 0, 0, 0, 0, 0], rfl⟩ 8, by decide, decide_eq_true ?_⟩
  show x.value / 2 ^ 120 = 0
  omega

theorem not_excepted {x : V6} (h : x.value / 2 ^ 96 < 0x20010001 ∨ 0x2001003f < x.value / 2 ^ 96) :
    (privateNetworksExceptions.all fun net => !net.contains (.v6 x)) = true := by
  rw [List.all_eq_true]
  intro net hnet
  rw [Bool.not_eq_true']
  simp only [privateNetworksExceptions, List.mem_cons, List.not_mem_nil, or_false] at hnet
  rcases hnet with rfl | rfl | rfl | rfl | rfl | rfl | rfl | rfl
  · rfl
  · rfl
  · refine decide_eq_false ?_
    show ¬ x.value / 2 ^ 0 = 0x20010001000000000000000000000001
    omega
  · refine decide_eq_false ?_
    show ¬ x.value / 2 ^ 0 = 0x20010001000000000000000000000002
    omega
  · refine decide_eq_false ?_
    show ¬ x.value / 2 ^ 96 = 0x20010003
    omega
  · refine decide_eq_false ?_
    show ¬ x.value / 2 ^ 80 = 0x200100040112
    omega
  · refine decide_eq_false ?_
    show ¬ x.value / 2 ^ 100 = 0x2001002
    omega
  · refine decide_eq_false ?_
    show ¬ x.value / 2 ^ 100 = 0x2001003
    omega

theorem isPrivate_of_net {x : V6} (hmapped : x.ipv4Mapped = none) {net : Network} (hnet : net ∈ privateNetworks)
    (hcontains : net.contains (.v6 x) = true)
    (hout : x.value / 2 ^ 96 < 0x20010001 ∨ 0x2001003f < x.value / 2 ^ 96) : isPrivate (.v6 x) = true := by
  have hunmapped : unmapped (.v6 x) = .v6 x := by
    rw [unmapped, hmapped]
    rfl
  rw [isPrivate, hunmapped, Bool.and_eq_true]
  exact ⟨List.any_eq_true.mpr ⟨net, hnet, hcontains⟩, not_excepted hout⟩

theorem reserved_or_private_of_embedded {x : V6} (hmapped : x.ipv4Mapped = none) {y : V4} (hy : y ∈ x.embedded) :
    isReserved (.v6 x) = true ∨ isPrivate (.v6 x) = true := by
  unfold V6.embedded at hy
  split at hy
  · rename_i high low hx
    left
    refine isReserved_of_low ?_
    rw [V6.value_eq hx, show ((0 : Hextet) : ℕ) = 0 from rfl]
    omega
  · rename_i high low hx
    left
    refine isReserved_of_low ?_
    rw [V6.value_eq hx, show ((0 : Hextet) : ℕ) = 0 from rfl, show ((0x64 : Hextet) : ℕ) = 0x64 from rfl]
    omega
  · rename_i b c d e f g h hx
    right
    have hfirst : ((0x2002 : Hextet) : ℕ) = 0x2002 := rfl
    have hvalue := V6.value_eq hx
    rw [hfirst] at hvalue
    refine @isPrivate_of_net x hmapped (netV6 ⟨[0x2002, 0, 0, 0, 0, 0, 0, 0], rfl⟩ 16) (by decide)
      (decide_eq_true ?_) (.inr ?_)
    · show x.value / 2 ^ 112 = 0x2002
      omega
    · omega
  · rename_i c d e f g h hx
    right
    have hfirst : ((0x2001 : Hextet) : ℕ) = 0x2001 := rfl
    have hsecond : ((0 : Hextet) : ℕ) = 0 := rfl
    have hvalue := V6.value_eq hx
    rw [hfirst, hsecond] at hvalue
    refine @isPrivate_of_net x hmapped (netV6 ⟨[0x2001, 0, 0, 0, 0, 0, 0, 0], rfl⟩ 23) (by decide)
      (decide_eq_true ?_) (.inl ?_)
    · show x.value / 2 ^ 105 = 0x2001 * 2 ^ 7
      omega
    · omega
  · cases hy

/-! ## What the tests miss -/

theorem unmapped_v6 (x : V6) : unmapped (.v6 x) = .v6 x ∧ x.ipv4Mapped = none ∨ ∃ y, unmapped (.v6 x) = .v4 y ∧
    x.ipv4Mapped = some y := by
  cases h : x.ipv4Mapped with
  | none =>
    left
    rw [unmapped, h]
    exact ⟨rfl, rfl⟩
  | some y =>
    right
    refine ⟨y, ?_, rfl⟩
    rw [unmapped, h]
    rfl

theorem isReserved_of_mapped {x : V6} {y : V4} (h : x.ipv4Mapped = some y) : isReserved (.v6 x) = true := by
  refine isReserved_of_low ?_
  unfold V6.ipv4Mapped at h
  split at h
  · rename_i high low hx
    rw [V6.value_eq hx, show ((0 : Hextet) : ℕ) = 0 from rfl]
    omega
  · cases h

theorem isPrivate_of_unmapped {x : V6} {y : V4} (h : unmapped (.v6 x) = .v4 y) :
    isPrivate (.v6 x) = isPrivate (.v4 y) := by
  rw [isPrivate, h]
  rfl

theorem special_v4 {x : V4} (h : Special (.v4 x)) :
    isPrivate (.v4 x) = true ∨ isShared (.v4 x) = true ∨ isMulticast (.v4 x) = true := by
  have hinternal := isInternal_v4 x
  rw [isInternal] at hinternal
  rcases h with h | h | h | h | h | h | h | h
  · exact .inl h
  · rw [h, Bool.or_true, Bool.true_or] at hinternal
    exact .inl hinternal.symm
  · rw [h, Bool.or_true] at hinternal
    exact .inl hinternal.symm
  · exact absurd h Bool.false_ne_true
  · exact .inr (.inl h)
  · obtain ⟨net, hnet, hcontains⟩ := List.any_eq_true.mp h
    simp only [reservedNetworks, List.mem_cons, List.not_mem_nil, or_false] at hnet
    rcases hnet with rfl | hnet
    · have hvalue : x.value / 268435456 = 15 := of_decide_eq_true hcontains
      refine .inl (@isPrivate_of_contains x ⟨240, 0, 0, 0⟩ 4 (by decide) hcontains ⟨?_, ?_⟩)
      · show x.value ≠ 3221225481
        omega
      · show x.value ≠ 3221225482
        omega
    · exfalso
      rcases hnet with rfl | rfl | rfl | rfl | rfl | rfl | rfl | rfl | rfl | rfl | rfl | rfl | rfl | rfl | rfl
      all_goals exact absurd hcontains Bool.false_ne_true
  · exact .inr (.inr h)
  · have hvalue : x.value = 0 := of_decide_eq_true h
    refine .inl (@isPrivate_of_contains x ⟨0, 0, 0, 0⟩ 8 (by decide) (decide_eq_true ?_) ⟨?_, ?_⟩)
    · rw [hvalue]
      rfl
    · rw [hvalue]
      decide
    · rw [hvalue]
      decide

end FavoniusBackend.Lib.IpAddress
