import Mathlib.Data.Int.Log
import Mathlib.Data.Rat.Floor
import Provision.Proofs.Decimal.Range

/-!
# Rounding to binary64

A positive rational is rounded to a multiple of the unit of its last place, of two that are equally
near to the even one. Quotients of natural numbers are rounded so, and products and quotients of
numbers of the format as the exact ones are. Powers of two bound what is rounded as they bound the
rational.
-/

namespace Provision.Decimal.Binary64

variable {negative : Bool} {num den : Nat} {e k : Int} {q : ℚ} {x y : Binary64}

def roundEven (q : ℚ) : Int :=
  if q - ⌊q⌋ < 1 / 2 then ⌊q⌋
  else if 1 / 2 < q - ⌊q⌋ then ⌊q⌋ + 1
  else ⌊q⌋ + ⌊q⌋ % 2

def lastPlace (q : ℚ) : Int := max (Int.log 2 q - 52) minExponent

/-- The number nearest to a rational, as if there were no largest one. -/
def nearest (q : ℚ) : ℚ := roundEven (q / 2 ^ lastPlace q) * 2 ^ lastPlace q

def size (x : Binary64) : ℚ := x.mantissa * 2 ^ x.exponent

theorem roundEven_natCast_div (hden : 0 < den) :
    roundEven (num / den) = (roundDiv num den : ℕ) := by
  have hden' : (0 : ℚ) < den := Nat.cast_pos.2 hden
  have hfloor : ⌊(num / den : ℚ)⌋ = ((num / den : ℕ) : ℤ) := Rat.floor_natCast_div_natCast num den
  have hrest : (num / den : ℚ) - ((num / den : ℕ) : ℚ) = (num % den : ℕ) / den := by
    rw [eq_div_iff hden'.ne', sub_mul, div_mul_cancel₀ _ hden'.ne', sub_eq_iff_eq_add]
    exact_mod_cast (Nat.mod_add_div' num den).symm
  have hbelow : ((num % den : ℕ) : ℚ) / den < 1 / 2 ↔ 2 * (num % den) < den := by
    rw [div_lt_div_iff₀ hden' two_pos, one_mul, mul_comm]
    exact_mod_cast Iff.rfl
  have habove : (1 / 2 : ℚ) < (num % den : ℕ) / den ↔ den < 2 * (num % den) := by
    rw [div_lt_div_iff₀ two_pos hden', one_mul, mul_comm]
    exact_mod_cast Iff.rfl
  unfold roundEven roundDiv
  dsimp only
  rw [hfloor, Int.cast_natCast, hrest]
  simp only [hbelow, habove]
  split
  · rfl
  · split
    · push_cast
      rfl
    · push_cast
      rfl

theorem roundEven_inUnits (hden : 0 < den) (e : Int) :
    roundEven (num / den / 2 ^ e) = (inUnits num den e : ℕ) := by
  unfold inUnits
  split
  · next h =>
    lift e to ℕ using h
    have hpow : 0 < Nat.pow 2 e := Nat.pow_pos two_pos
    rw [Int.toNat_natCast, ← roundEven_natCast_div (Nat.mul_pos hden hpow),
      show Nat.pow 2 e = 2 ^ e from rfl, zpow_natCast, div_div]
    push_cast
    rfl
  · next h =>
    obtain ⟨n, rfl⟩ : ∃ n : ℕ, e = -n := ⟨(-e).toNat, by omega⟩
    rw [neg_neg, Int.toNat_natCast, ← roundEven_natCast_div hden,
      show Nat.pow 2 n = 2 ^ n from rfl, zpow_neg, zpow_natCast, div_inv_eq_mul, div_mul_eq_mul_div]
    push_cast
    rfl

theorem unitOf_eq_log (hnum : 0 < num) (hden : 0 < den) :
    unitOf num den = Int.log 2 (num / den : ℚ) - 52 := by
  have hpos : (0 : ℚ) < num / den := div_pos (Nat.cast_pos.2 hnum) (Nat.cast_pos.2 hden)
  obtain ⟨hlow, hhigh⟩ := unitOf_bounds hnum hden
  have hle := (Int.zpow_le_iff_le_log (b := 2) one_lt_two hpos).1 (by exact_mod_cast hlow)
  have hlt := (Int.lt_zpow_iff_log_lt (b := 2) one_lt_two hpos).1 (by exact_mod_cast hhigh)
  omega

theorem size_carried {m : Nat} (h : carried negative m e = some x) : x.size = m * 2 ^ e := by
  unfold carried at h
  dsimp only at h
  obtain ⟨-, h⟩ := Option.ite_none_left_eq_some.1 h
  rw [← Option.some.inj h]
  by_cases hm : m = Nat.pow 2 53
  · rw [if_pos hm, size, hm, zpow_add_one₀ two_ne_zero]
    norm_num
    ring
  · rw [if_neg hm, size]

theorem size_ofRatio (hnum : 0 < num) (hden : 0 < den) (h : ofRatio negative num den = some x) :
    x.size = nearest (num / den) := by
  have hplace : lastPlace (num / den) = max (unitOf num den) minExponent := by
    rw [lastPlace, unitOf_eq_log hnum hden]
  rw [ofRatio_eq_carried] at h
  rw [nearest, hplace, roundEven_inUnits hden, Int.cast_natCast, size_carried h]

theorem roundEven_le {n : Int} (h : q ≤ n) : roundEven q ≤ n := by
  have hfloor : ⌊q⌋ ≤ n := Int.floor_le_iff.2 (h.trans_lt (lt_add_one _))
  unfold roundEven
  rcases hfloor.eq_or_lt with hn | hn
  · have hrest : q - ⌊q⌋ < 1 / 2 := by
      rw [hn]
      exact (sub_nonpos.2 h).trans_lt one_half_pos
    rw [if_pos hrest]
    exact hfloor
  · split
    · exact hfloor
    · split <;> omega

theorem le_roundEven {n : Int} (h : n ≤ q) : n ≤ roundEven q := by
  have hfloor : n ≤ ⌊q⌋ := Int.le_floor.2 h
  unfold roundEven
  split
  · exact hfloor
  · split <;> omega

theorem roundEven_intCast (n : Int) : roundEven n = n :=
  le_antisymm (roundEven_le le_rfl) (le_roundEven le_rfl)

theorem nearest_zero : nearest 0 = 0 := by
  have hzero : roundEven 0 = 0 := roundEven_intCast 0
  rw [nearest, zero_div, hzero, Int.cast_zero, zero_mul]

theorem two_zpow_div (h : e ≤ k) : (2 : ℚ) ^ k / 2 ^ e = ((2 ^ (k - e).toNat : ℤ) : ℚ) := by
  obtain ⟨n, rfl⟩ := Int.le.dest h
  rw [add_sub_cancel_left, Int.toNat_natCast, zpow_add₀ two_ne_zero, zpow_natCast,
    mul_div_cancel_left₀ _ (two_zpow_pos e).ne']
  push_cast
  rfl

theorem nearest_le_two_zpow (hq : 0 ≤ q) (hk : minExponent ≤ k) (h : q ≤ 2 ^ k) :
    nearest q ≤ 2 ^ k := by
  rcases hq.eq_or_lt with rfl | hpos
  · rw [nearest_zero]
    exact (two_zpow_pos k).le
  have hlog : Int.log 2 q ≤ k := by
    have hle : (2 : ℚ) ^ Int.log 2 q ≤ q := by
      exact_mod_cast Int.zpow_log_le_self (b := 2) one_lt_two hpos
    exact (zpow_le_zpow_iff_right₀ one_lt_two).1 (hle.trans h)
  have hplace : lastPlace q ≤ k := max_le (by omega) hk
  have hunit := two_zpow_pos (lastPlace q)
  have hround : roundEven (q / 2 ^ lastPlace q) ≤ 2 ^ (k - lastPlace q).toNat := by
    refine roundEven_le ?_
    rw [← two_zpow_div hplace]
    exact div_le_div_of_nonneg_right h hunit.le
  rw [nearest, ← le_div_iff₀ hunit, two_zpow_div hplace]
  exact_mod_cast hround

theorem two_zpow_le_nearest (hk : minExponent ≤ k) (h : 2 ^ k ≤ q) : 2 ^ k ≤ nearest q := by
  have hpos : 0 < q := (two_zpow_pos k).trans_le h
  have hlog : k ≤ Int.log 2 q :=
    (Int.zpow_le_iff_le_log (b := 2) one_lt_two hpos).1 (by exact_mod_cast h)
  have hplace : lastPlace q ≤ Int.log 2 q := max_le (by omega) (hk.trans hlog)
  have hunit := two_zpow_pos (lastPlace q)
  have hself : (2 : ℚ) ^ Int.log 2 q ≤ q := by
    exact_mod_cast Int.zpow_log_le_self (b := 2) one_lt_two hpos
  have hround : 2 ^ (Int.log 2 q - lastPlace q).toNat ≤ roundEven (q / 2 ^ lastPlace q) := by
    refine le_roundEven ?_
    rw [← two_zpow_div hplace]
    exact div_le_div_of_nonneg_right hself hunit.le
  refine (zpow_le_zpow_right₀ one_le_two hlog).trans ?_
  rw [nearest, ← div_le_iff₀ hunit, two_zpow_div hplace]
  exact_mod_cast hround

theorem nearest_one : nearest 1 = 1 :=
  le_antisymm (nearest_le_two_zpow (k := 0) zero_le_one (by decide) le_rfl)
    (two_zpow_le_nearest (k := 0) (by decide) le_rfl)

theorem nearest_natCast (n : Nat) : nearest n = 0 ∨ 1 ≤ nearest n := by
  rcases Nat.eq_zero_or_pos n with rfl | hpos
  · exact .inl (by rw [Nat.cast_zero, nearest_zero])
  · have hone : (2 : ℚ) ^ (0 : Int) ≤ n := by exact_mod_cast hpos
    exact .inr (two_zpow_le_nearest (by decide) hone)

theorem size_nonneg (x : Binary64) : 0 ≤ x.size :=
  mul_nonneg x.mantissa.cast_nonneg (two_zpow_pos x.exponent).le

theorem size_eq_zero_iff : x.size = 0 ↔ x.mantissa = 0 := by
  rw [size, mul_eq_zero, or_iff_left (two_zpow_pos x.exponent).ne', Nat.cast_eq_zero]

theorem den_pos (x : Binary64) : 0 < x.den := Nat.pow_pos two_pos

theorem num_div_den (x : Binary64) : (x.num : ℚ) / x.den = x.size := by
  rw [num, den, size, show Nat.pow 2 x.exponent.toNat = 2 ^ x.exponent.toNat from rfl,
    show Nat.pow 2 (-x.exponent).toNat = 2 ^ (-x.exponent).toNat from rfl]
  push_cast
  rcases le_total 0 x.exponent with h | h
  · obtain ⟨n, hn⟩ := Int.eq_ofNat_of_zero_le h
    rw [hn, Int.toNat_natCast, Int.toNat_neg_natCast, pow_zero, div_one, zpow_natCast]
  · obtain ⟨n, hn⟩ := Int.exists_eq_neg_ofNat h
    rw [hn, neg_neg, Int.toNat_neg_natCast, Int.toNat_natCast, pow_zero, mul_one, zpow_neg,
      zpow_natCast, div_eq_mul_inv]

theorem isSome_quotient (hden : 0 < den) :
    (quotient negative num den).isSome = true ↔ (num : ℚ) / den < halfway := by
  unfold quotient
  split
  · next h =>
    rw [h, Nat.cast_zero, zero_div]
    exact iff_of_true rfl halfway_pos
  · next h => exact isSome_ofRatio (Nat.pos_of_ne_zero h) hden

theorem size_quotient (hden : 0 < den) (h : quotient negative num den = some x) :
    x.size = nearest (num / den) := by
  unfold quotient at h
  split at h
  · next hnum =>
    cases h
    rw [hnum, Nat.cast_zero, zero_div, nearest_zero, size, zero, Nat.cast_zero, zero_mul]
  · next hnum => exact size_ofRatio (Nat.pos_of_ne_zero hnum) hden h

theorem isSome_mul : (x.mul y).isSome = true ↔ x.size * y.size < halfway := by
  rw [mul, isSome_quotient (Nat.mul_pos x.den_pos y.den_pos), ← num_div_den, ← num_div_den,
    div_mul_div_comm]
  push_cast
  rfl

theorem mul_num_pos (hy : 0 < y.size) : 0 < x.den * y.num := by
  refine Nat.mul_pos x.den_pos (Nat.pos_of_ne_zero fun hzero => hy.ne' ?_)
  rw [← num_div_den, hzero, Nat.cast_zero, zero_div]

theorem isSome_div (hy : 0 < y.size) :
    (x.div y).isSome = true ↔ x.size / y.size < halfway := by
  rw [div, isSome_quotient (mul_num_pos hy), ← num_div_den, ← num_div_den, div_div_div_eq]
  push_cast
  rfl

theorem size_div {z : Binary64} (hy : 0 < y.size) (h : x.div y = some z) :
    z.size = nearest (x.size / y.size) := by
  rw [size_quotient (mul_num_pos hy) h, ← num_div_den, ← num_div_den, div_div_div_eq]
  push_cast
  rfl

end Provision.Decimal.Binary64
