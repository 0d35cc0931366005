import Mathlib.Algebra.Order.Field.Power
import Mathlib.Tactic.NormNum
import Mathlib.Tactic.Positivity
import Mathlib.Tactic.Ring
import Provision.Decimal.Binary64

/-!
# The range of binary64

A quotient has a nearest number of the format exactly if it is below the point halfway from the
largest one to the next power of two. There the tie goes to the power, which is no number of the
format any more.
-/

namespace Provision.Decimal.Binary64

variable {negative : Bool} {num den n d : Nat} {e : Int}

/-- Halfway from the largest number to the power of two after it. -/
def halfway : ℚ := 2 ^ 1024 - 2 ^ 970

theorem halfway_eq : halfway = (2 ^ 54 - 1) * 2 ^ (970 : Int) := by
  have hsplit : (2 : ℚ) ^ 1024 = 2 ^ 54 * 2 ^ 970 := by rw [← pow_add]
  have hcast : (2 : ℚ) ^ (970 : Int) = 2 ^ 970 := by rw [← zpow_natCast]; rfl
  rw [halfway, hsplit, hcast, sub_mul, one_mul]

theorem two_zpow_pos (e : Int) : (0 : ℚ) < 2 ^ e := zpow_pos (by norm_num) e

theorem two_zpow_le_halfway (h : e ≤ 1023) : (2 : ℚ) ^ e ≤ halfway := by
  have hle : (2 : ℚ) ^ e ≤ 2 ^ (53 + 970 : Int) := zpow_le_zpow_right₀ (by norm_num) (by omega)
  rw [zpow_add₀ (by norm_num)] at hle
  rw [halfway_eq]
  refine hle.trans (mul_le_mul_of_nonneg_right ?_ (two_zpow_pos _).le)
  norm_num

theorem halfway_le_two_zpow (h : 1024 ≤ e) : halfway ≤ 2 ^ e := by
  have hle : (2 : ℚ) ^ (54 + 970 : Int) ≤ 2 ^ e := zpow_le_zpow_right₀ (by norm_num) (by omega)
  rw [zpow_add₀ (by norm_num)] at hle
  rw [halfway_eq]
  refine (mul_le_mul_of_nonneg_right ?_ (two_zpow_pos _).le).trans hle
  norm_num

theorem belowPow_iff (hden : 0 < den) : belowPow num den e = true ↔ (num : ℚ) / den < 2 ^ e := by
  have hden' : (0 : ℚ) < den := Nat.cast_pos.2 hden
  unfold belowPow
  split
  · next h =>
    lift e to ℕ using h
    rw [decide_eq_true_eq, zpow_natCast, div_lt_iff₀ hden', Int.toNat_natCast, mul_comm]
    exact_mod_cast Iff.rfl
  · next h =>
    obtain ⟨k, rfl⟩ : ∃ k : ℕ, e = -k := ⟨(-e).toNat, by omega⟩
    rw [decide_eq_true_eq, zpow_neg, zpow_natCast, div_lt_iff₀ hden', neg_neg, Int.toNat_natCast,
      inv_mul_eq_div, lt_div_iff₀ (by positivity)]
    exact_mod_cast Iff.rfl

def unitOf (num den : Nat) : Int :=
  let guess : Int := (num.log2 : Int) - (den.log2 : Int) - 52
  if belowPow num den (guess + 52) then guess - 1 else guess

theorem log2_bounds (h : 0 < n) :
    (2 : ℚ) ^ (n.log2 : Int) ≤ n ∧ (n : ℚ) < 2 ^ (n.log2 + 1 : Int) := by
  constructor
  · rw [zpow_natCast]
    exact_mod_cast Nat.log2_self_le h.ne'
  · have hlt : n < 2 ^ (n.log2 + 1) := Nat.lt_log2_self
    exact_mod_cast hlt

theorem quotient_bounds (hnum : 0 < num) (hden : 0 < den) :
    (2 : ℚ) ^ (num.log2 - den.log2 - 1 : Int) ≤ num / den ∧
      (num : ℚ) / den < 2 ^ (num.log2 - den.log2 + 1 : Int) := by
  have hden' : (0 : ℚ) < den := Nat.cast_pos.2 hden
  obtain ⟨hlow, hhigh⟩ := log2_bounds hnum
  obtain ⟨hlow', hhigh'⟩ := log2_bounds hden
  rw [le_div_iff₀ hden', div_lt_iff₀ hden']
  constructor
  · calc (2 : ℚ) ^ (num.log2 - den.log2 - 1 : Int) * den
        ≤ 2 ^ (num.log2 - den.log2 - 1 : Int) * 2 ^ (den.log2 + 1 : Int) :=
          mul_le_mul_of_nonneg_left hhigh'.le (two_zpow_pos _).le
      _ = 2 ^ (num.log2 : Int) := by
          rw [← zpow_add₀ two_ne_zero]
          congr 1
          omega
      _ ≤ num := hlow
  · calc (num : ℚ) < 2 ^ (num.log2 + 1 : Int) := hhigh
      _ = 2 ^ (num.log2 - den.log2 + 1 : Int) * 2 ^ (den.log2 : Int) := by
          rw [← zpow_add₀ two_ne_zero]
          congr 1
          omega
      _ ≤ 2 ^ (num.log2 - den.log2 + 1 : Int) * den :=
          mul_le_mul_of_nonneg_left hlow' (two_zpow_pos _).le

theorem unitOf_bounds (hnum : 0 < num) (hden : 0 < den) :
    (2 : ℚ) ^ (unitOf num den + 52) ≤ num / den ∧
      (num : ℚ) / den < 2 ^ (unitOf num den + 53) := by
  obtain ⟨hlow, hhigh⟩ := quotient_bounds hnum hden
  have hguess : (num.log2 - den.log2 - 52 + 52 : Int) = num.log2 - den.log2 := by omega
  unfold unitOf
  dsimp only
  split
  · next h =>
    have hunit : (num.log2 - den.log2 - 52 - 1 + 52 : Int) = num.log2 - den.log2 - 1 := by omega
    have hunit' : (num.log2 - den.log2 - 52 - 1 + 53 : Int) = num.log2 - den.log2 := by omega
    rw [belowPow_iff hden, hguess] at h
    rw [hunit, hunit']
    exact ⟨hlow, h⟩
  · next h =>
    have hunit : (num.log2 - den.log2 - 52 + 53 : Int) = num.log2 - den.log2 + 1 := by omega
    rw [belowPow_iff hden, hguess, not_lt] at h
    rw [hguess, hunit]
    exact ⟨h, hhigh⟩

theorem roundDiv_eq_iff (hn : n % 2 = 0) (h : num < d * n) (hd : 0 < d) :
    roundDiv num d = n ↔ d * (2 * n - 1) ≤ 2 * num := by
  have hdivision := Nat.div_add_mod num d
  have hmod := Nat.mod_lt num hd
  have hlt : num / d < n := Nat.div_lt_of_lt_mul h
  unfold roundDiv
  dsimp only
  generalize num / d = q at *
  generalize num % d = r at *
  by_cases hq : q + 1 = n
  · have hbound : d * (2 * n - 1) = 2 * (d * q) + d := by
      rw [← hq, show 2 * (q + 1) - 1 = 2 * q + 1 by omega, Nat.mul_add, Nat.mul_left_comm,
        Nat.mul_one]
    rw [hbound]
    generalize d * q = p at *
    split
    · omega
    · split <;> omega
  · have hbound : d * (2 * q + 3) ≤ d * (2 * n - 1) := Nat.mul_le_mul_left d (by omega)
    rw [Nat.mul_add, Nat.mul_left_comm] at hbound
    generalize d * q = p at *
    split
    · omega
    · split <;> omega

theorem ofRatio_eq_carried (negative : Bool) (num den : Nat) :
    ofRatio negative num den = carried negative
      (inUnits num den (max (unitOf num den) minExponent)) (max (unitOf num den) minExponent) :=
  rfl

theorem isSome_carried {m : Nat} :
    (carried negative m e).isSome = true ↔
      e < maxExponent ∨ e = maxExponent ∧ m ≠ Nat.pow 2 53 := by
  unfold carried
  dsimp only
  rw [Option.isSome_ite', Int.not_lt]
  by_cases hm : m = Nat.pow 2 53
  · rw [if_pos hm, Int.add_one_le_iff]
    exact ⟨.inl, fun h => h.resolve_right fun hlast => hlast.2 hm⟩
  · rw [if_neg hm, Int.le_iff_lt_or_eq]
    exact or_congr_right ⟨fun h => ⟨h, hm⟩, And.left⟩

theorem isSome_ofRatio_iff :
    (ofRatio negative num den).isSome = true ↔
      max (unitOf num den) minExponent < maxExponent ∨
      max (unitOf num den) minExponent = maxExponent ∧
        inUnits num den maxExponent ≠ Nat.pow 2 53 := by
  rw [ofRatio_eq_carried, isSome_carried]
  exact or_congr_right (and_congr_right fun h => by rw [h])

theorem inUnits_natCast (k : Nat) : inUnits num den k = roundDiv num (den * 2 ^ k) := by
  rw [inUnits, if_pos (Int.natCast_nonneg k), Int.toNat_natCast]
  rfl

theorem inUnits_eq_iff (k : Nat) (hden : 0 < den) (h : (num : ℚ) / den < 2 ^ (k + 54 : Int)) :
    inUnits num den (k + 1 : Nat) = Nat.pow 2 53 ↔
      (2 ^ 54 - 1) * 2 ^ (k : Int) ≤ (num : ℚ) / den := by
  have hden' : (0 : ℚ) < den := Nat.cast_pos.2 hden
  have hlt : num < den * 2 ^ (k + 1) * Nat.pow 2 53 := by
    rw [div_lt_iff₀ hden', mul_comm] at h
    have hnat : num < den * 2 ^ (k + 54) := by exact_mod_cast h
    rwa [Nat.mul_assoc, show Nat.pow 2 53 = 2 ^ 53 from rfl, ← Nat.pow_add]
  have hdouble : den * 2 ^ (k + 1) * (2 * Nat.pow 2 53 - 1) = 2 * ((2 ^ 54 - 1) * 2 ^ k * den) := by
    rw [Nat.pow_succ, show 2 * Nat.pow 2 53 - 1 = 2 ^ 54 - 1 from rfl]
    ring
  rw [inUnits_natCast, roundDiv_eq_iff (by decide) hlt (Nat.mul_pos hden (Nat.two_pow_pos _)),
    hdouble, Nat.mul_le_mul_left_iff (by decide), le_div_iff₀ hden', zpow_natCast]
  have hcast : ((2 ^ 54 - 1 : ℕ) : ℚ) = 2 ^ 54 - 1 := by norm_num
  rw [← hcast]
  exact_mod_cast Iff.rfl

theorem isSome_ofRatio (hnum : 0 < num) (hden : 0 < den) :
    (ofRatio negative num den).isSome = true ↔ (num : ℚ) / den < halfway := by
  obtain ⟨hlow, hhigh⟩ := unitOf_bounds hnum hden
  rw [isSome_ofRatio_iff]
  rcases lt_trichotomy (unitOf num den) maxExponent with hunit | hunit | hunit
  · have hle : unitOf num den + 53 ≤ 1023 := by
      rw [maxExponent] at hunit
      omega
    exact iff_of_true (.inl (max_lt hunit (by decide)))
      (hhigh.trans_le (two_zpow_le_halfway hle))
  · rw [hunit] at hhigh
    have hlast : inUnits num den maxExponent = Nat.pow 2 53 ↔
        (2 ^ 54 - 1) * 2 ^ (970 : Int) ≤ (num : ℚ) / den := inUnits_eq_iff 970 hden hhigh
    rw [hunit, max_eq_left (by decide), halfway_eq]
    constructor
    · intro h
      obtain ⟨-, hm⟩ := h.resolve_left (Int.lt_irrefl _)
      exact not_le.1 fun hle => hm (hlast.2 hle)
    · exact fun h => .inr ⟨rfl, fun hm => not_le.2 h (hlast.1 hm)⟩
  · have hle : 1024 ≤ unitOf num den + 52 := by
      rw [maxExponent] at hunit
      omega
    have hmax := lt_of_lt_of_le hunit (le_max_left (unitOf num den) minExponent)
    refine iff_of_false ?_ (not_lt.2 ((halfway_le_two_zpow hle).trans hlow))
    rintro (h | ⟨h, -⟩)
    · exact lt_asymm hmax h
    · exact hmax.ne' h

theorem halfway_pos : 0 < halfway :=
  (two_zpow_pos 0).trans_le (two_zpow_le_halfway (by decide))

end Provision.Decimal.Binary64
