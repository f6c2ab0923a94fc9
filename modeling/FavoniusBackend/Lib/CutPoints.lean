import Mathlib.Tactic

/-!
# Cutting a line into blocks

Every instant of a finite set has a label, and every label a cut.  Where the cuts separate the labels, the instants
between two cuts are those with a label between theirs, and they are as many as the blocks of these labels together
(`sum_card_block`).  `separates_of_blocks` goes back: blocks that lie between their cuts and are as long as these are apart
make every cut separate.
-/

namespace FavoniusBackend.Lib.CutPoints

variable {instants : Finset ℤ} {label cut : ℤ → ℤ}

def block (instants : Finset ℤ) (label : ℤ → ℤ) (d : ℤ) : Finset ℤ := instants.filter fun u => label u = d

def Separates (instants : Finset ℤ) (label cut : ℤ → ℤ) (b : ℤ) : Prop := ∀ u ∈ instants, u < cut b ↔ label u < b

theorem mem_block {d u : ℤ} : u ∈ block instants label d ↔ u ∈ instants ∧ label u = d := Finset.mem_filter

/-! ## From cuts to blocks -/

theorem between_iff {a b u : ℤ} (ha : Separates instants label cut a) (hb : Separates instants label cut b)
    (hu : u ∈ instants) : cut a ≤ u ∧ u < cut b ↔ a ≤ label u ∧ label u < b := by
  rw [← not_lt, ha u hu, hb u hu, not_lt]

/-- **The blocks between two cuts fill the space between them.** -/
theorem sum_card_block {a b : ℤ} (ha : Separates instants label cut a) (hb : Separates instants label cut b)
    (hsub : Finset.Ico (cut a) (cut b) ⊆ instants) :
    ∑ d ∈ Finset.Ico a b, (block instants label d).card = (Finset.Ico (cut a) (cut b)).card := by
  have hmaps : ∀ u ∈ Finset.Ico (cut a) (cut b), label u ∈ Finset.Ico a b := by
    intro u hu
    exact Finset.mem_Ico.mpr ((between_iff ha hb (hsub hu)).mp (Finset.mem_Ico.mp hu))
  rw [Finset.card_eq_sum_card_fiberwise hmaps]
  refine Finset.sum_congr rfl fun d hd => congrArg Finset.card ?_
  ext u
  rw [mem_block, Finset.mem_filter]
  constructor
  · rintro ⟨hu, rfl⟩
    exact ⟨Finset.mem_Ico.mpr ((between_iff ha hb hu).mpr (Finset.mem_Ico.mp hd)), rfl⟩
  · rintro ⟨hu, hlabel⟩
    exact ⟨hsub hu, hlabel⟩

theorem cut_lt_cut {a b u : ℤ} (ha : Separates instants label cut a) (hb : Separates instants label cut b)
    (hu : u ∈ instants) (hlabel : a ≤ label u ∧ label u < b) : cut a < cut b := by
  obtain ⟨hlo, hhi⟩ := (between_iff ha hb hu).mpr hlabel
  exact hlo.trans_lt hhi

/-! ## From blocks to cuts -/

theorem cut_le_cut {lo hi a b : ℤ} (hstep : ∀ d, lo ≤ d → d < hi → cut d < cut (d + 1)) (ha : lo ≤ a) (hab : a ≤ b)
    (hb : b ≤ hi) : cut a ≤ cut b := by
  induction b, hab using Int.leInduction with
  | base => exact le_rfl
  | succ b hab ih => exact (ih (by omega)).trans (hstep b (by omega) (by omega)).le

theorem exists_step {lo hi u : ℤ} (hle : lo ≤ hi) (hlo : cut lo ≤ u) (hhi : u < cut hi) :
    ∃ d, (lo ≤ d ∧ d < hi) ∧ cut d ≤ u ∧ u < cut (d + 1) := by
  induction hi, hle using Int.leInduction with
  | base => exact absurd hhi (not_lt.mpr hlo)
  | succ hi hle ih =>
    by_cases hbefore : u < cut hi
    · obtain ⟨d, hd, hbetween⟩ := ih hbefore
      exact ⟨d, ⟨hd.1, by omega⟩, hbetween⟩
    · exact ⟨hi, ⟨hle, by omega⟩, not_lt.mp hbefore, hhi⟩

/-- **Blocks that lie between their cuts and fill the space there make every cut separate.**  What has a label outside
`lo` to `hi` is not in the middle of it. -/
theorem separates_of_blocks {lo hi : ℤ} (hle : lo ≤ hi)
    (hstep : ∀ d, lo ≤ d → d < hi → cut d < cut (d + 1))
    (hbetween : ∀ u ∈ instants, lo ≤ label u → label u < hi → cut (label u) ≤ u ∧ u < cut (label u + 1))
    (hcard : ∀ d, lo ≤ d → d < hi → (block instants label d).card = (Finset.Ico (cut d) (cut (d + 1))).card)
    (hlow : ∀ u ∈ instants, label u < lo → u < cut hi) (hhigh : ∀ u ∈ instants, hi ≤ label u → cut lo ≤ u)
    {b : ℤ} (hb : lo ≤ b ∧ b ≤ hi) : Separates instants label cut b := by
  have hmono : ∀ {a c : ℤ}, lo ≤ a → a ≤ c → c ≤ hi → cut a ≤ cut c := fun ha hac hc => cut_le_cut hstep ha hac hc
  have hfill : ∀ d, lo ≤ d → d < hi → block instants label d = Finset.Ico (cut d) (cut (d + 1)) := by
    intro d hlo hhi
    refine Finset.eq_of_subset_of_card_le ?_ (hcard d hlo hhi).ge
    intro u hu
    obtain ⟨hmem, rfl⟩ := mem_block.mp hu
    exact Finset.mem_Ico.mpr (hbetween u hmem hlo hhi)
  intro u hu
  rcases lt_or_ge (label u) lo with hout | hlo
  · refine iff_of_true ?_ (by omega)
    by_contra hge
    -- an instant between the outer cuts would be in a block
    obtain ⟨d, hd, hstepd⟩ := exists_step hle ((hmono le_rfl hb.1 hb.2).trans (not_lt.mp hge)) (hlow u hu hout)
    have hmem : u ∈ block instants label d := by
      rw [hfill d hd.1 hd.2]
      exact Finset.mem_Ico.mpr hstepd
    have := (mem_block.mp hmem).2
    omega
  · rcases lt_or_ge (label u) hi with hhi | hout
    · obtain ⟨hfrom, hto⟩ := hbetween u hu hlo hhi
      constructor
      · intro hlt
        by_contra hge
        have := hmono hb.1 (not_lt.mp hge) hhi.le
        omega
      · intro hlt
        exact hto.trans_le (hmono (by omega) (by omega) hb.2)
    · refine iff_of_false ?_ (by omega)
      intro hlt
      obtain ⟨d, hd, hstepd⟩ := exists_step hle (hhigh u hu hout) (hlt.trans_le (hmono hb.1 hb.2 le_rfl))
      have hmem : u ∈ block instants label d := by
        rw [hfill d hd.1 hd.2]
        exact Finset.mem_Ico.mpr hstepd
      have := (mem_block.mp hmem).2
      omega

end FavoniusBackend.Lib.CutPoints
