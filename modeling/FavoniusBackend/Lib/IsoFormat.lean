import FavoniusBackend.Lib.DateTime

/-!
# `isoformat`

The text of a time in UTC: the date and the time to the second, a fraction where there is one, and the offset.
-/

namespace FavoniusBackend.Lib.DateTime

open Lib.Uuid (padded)

def secondsText (w : Wall) : List Char :=
  strftime true [.year, .lit '-', .month, .lit '-', .day, .lit 'T', .hour, .lit ':', .minute, .lit ':', .second] w

def fractionText (w : Wall) : List Char :=
  if w.val % 1000000 = 0 then [] else '.' :: padded 10 6 (w.val % 1000000).toNat

def isoformat (w : Wall) : List Char := secondsText w ++ fractionText w ++ ['+', '0', '0', ':', '0', '0']

theorem padded_inj {width n m : ℕ} (hn : n < 10 ^ width) (hm : m < 10 ^ width)
    (h : padded 10 width n = padded 10 width m) : n = m := by
  induction width generalizing n m with
  | zero => omega
  | succ width ih =>
    rw [padded, padded] at h
    obtain ⟨hinit, hlast⟩ := List.append_inj' h rfl
    have hchar := congrArg Text.decimal (List.singleton_inj.mp hlast)
    rw [decimal_digitChar (Nat.mod_lt n (by decide)), decimal_digitChar (Nat.mod_lt m (by decide))] at hchar
    have hmod := Option.some.inj hchar
    rw [Nat.pow_succ'] at hn hm
    have hdiv := ih (Nat.div_lt_of_lt_mul hn) (Nat.div_lt_of_lt_mul hm) hinit
    omega

end FavoniusBackend.Lib.DateTime
