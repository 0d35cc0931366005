import Provision.Proofs.Json.Grammar
import Provision.Proofs.Lifecycle.Serial

/-!
# Numbers in range

What is kept of the digits of a literal is a word, and all of it if the digits are no more than
that. Powers of ten of the table are in range, so a word divided by them stays in range, and
multiplied by them does as long as the product of what is rounded is below the point of overflow.
So a literal has a number exactly if it is in range.
-/

namespace Provision.Json

open Decimal (Binary64)
open Decimal.Binary64

namespace Number

variable {n k : Nat} {x y : Binary64}

def appended (n : Nat) (cs : List Char) : Nat := cs.foldl (fun n c => n * 10 + digitValue c) n

theorem le_appended (n : Nat) (cs : List Char) : n ≤ appended n cs := by
  induction cs generalizing n with
  | nil => exact Nat.le_refl n
  | cons c cs ih => exact Nat.le_trans (by omega) (ih (n * 10 + digitValue c))

theorem appendDigits_of_lt {cs : List Char} (h : appended n cs < wordLimit) :
    appendDigits n cs = (appended n cs, []) := by
  induction cs generalizing n with
  | nil => rfl
  | cons c cs ih =>
    have hword : n * 10 + digitValue c < wordLimit := Nat.lt_of_le_of_lt (le_appended _ cs) h
    rw [appendDigits, if_pos hword]
    exact ih h

theorem appendDigits_lt (h : n < wordLimit) (cs : List Char) :
    (appendDigits n cs).1 < wordLimit := by
  induction cs generalizing n with
  | nil => exact h
  | cons c cs ih =>
    rw [appendDigits]
    split
    · next hword => exact ih hword
    · exact h

theorem lt_of_ofInteger {minus : Bool} {m : Number} (h : ofInteger minus n = some m) :
    n < wordLimit := by
  unfold ofInteger at h
  split at h
  · split at h
    · next hle => exact Nat.lt_of_le_of_lt hle.2 (by decide)
    · cases h
  · split at h
    · next hlt => exact hlt
    · cases h

theorem nearest_word_le (h : n < wordLimit) : nearest n ≤ 2 ^ (64 : Int) := by
  have hle : (n : ℚ) ≤ 2 ^ (64 : Int) := by exact_mod_cast h.le
  exact nearest_le_two_zpow n.cast_nonneg (by decide) hle

theorem word_limit_lt_halfway : (2 : ℚ) ^ (64 : Int) < halfway :=
  (zpow_lt_zpow_right₀ one_lt_two (by decide)).trans_le (two_zpow_le_halfway (e := 65) (by decide))

theorem ten_pow_lt_halfway (h : k ≤ tableEnd) : (10 : ℚ) ^ k < halfway := by
  have hnat : 10 ^ 308 + 2 ^ 970 < 2 ^ 1024 := by decide +kernel
  have hend : (10 : ℚ) ^ 308 < halfway := by
    rw [halfway, lt_sub_iff_add_lt]
    exact_mod_cast hnat
  exact (pow_le_pow_right₀ (by norm_num) h).trans_lt hend

theorem halfway_le_nearest_ten_pow (h : tableEnd < k) : halfway ≤ nearest (10 ^ k) := by
  have hnat : 2 ^ 1024 ≤ 10 ^ 309 := by decide +kernel
  have hend : (2 : ℚ) ^ (1024 : Int) ≤ 10 ^ 309 := by exact_mod_cast hnat
  exact (halfway_le_two_zpow le_rfl).trans
    (two_zpow_le_nearest (by decide) (hend.trans (pow_le_pow_right₀ (by norm_num) h)))

theorem one_le_nearest_ten_pow (k : Nat) : 1 ≤ nearest (10 ^ k) := by
  have hten : (2 : ℚ) ^ (0 : Int) ≤ 10 ^ k := one_le_pow₀ (by norm_num)
  exact two_zpow_le_nearest (by decide) hten

theorem exists_tenPow (h : k ≤ tableEnd) : ∃ y, tenPow k = some y ∧ y.size = nearest (10 ^ k) := by
  have hratio : ((Nat.pow 10 k : ℕ) : ℚ) / (1 : ℕ) = 10 ^ k := by
    rw [Nat.cast_one, div_one, show Nat.pow 10 k = 10 ^ k from rfl]
    push_cast
    rfl
  have hsome : (tenPow k).isSome = true :=
    (isSome_quotient Nat.one_pos).2 (hratio.trans_lt (ten_pow_lt_halfway h))
  obtain ⟨y, hy⟩ := Option.isSome_iff_exists.1 hsome
  exact ⟨y, hy, hratio ▸ size_quotient Nat.one_pos hy⟩

theorem exists_div_tenPow (hk : k ≤ tableEnd) (hx : x.size ≤ 2 ^ (64 : Int)) :
    ∃ z, (tenPow k).bind x.div = some z ∧ z.size ≤ 2 ^ (64 : Int) := by
  obtain ⟨y, hy, hsize⟩ := exists_tenPow hk
  have hone : 1 ≤ y.size := hsize ▸ one_le_nearest_ten_pow k
  have hpos : 0 < y.size := one_pos.trans_le hone
  have hle : x.size / y.size ≤ 2 ^ (64 : Int) := (div_le_self x.size_nonneg hone).trans hx
  obtain ⟨z, hz⟩ := Option.isSome_iff_exists.1
    ((isSome_div hpos).2 (hle.trans_lt word_limit_lt_halfway))
  refine ⟨z, by rw [hy, Option.bind_some, hz], ?_⟩
  rw [size_div hpos hz]
  exact nearest_le_two_zpow (div_nonneg x.size_nonneg hpos.le) (by decide) hle

theorem isSome_scaleDown (k : Nat) (hx : x.size ≤ 2 ^ (64 : Int)) :
    (scaleDown x k).isSome = true := by
  induction x, k using scaleDown.induct with
  | case1 x k hk =>
    obtain ⟨z, hz, -⟩ := exists_div_tenPow hk hx
    rw [scaleDown, if_pos hk, hz]
    rfl
  | case2 x k hk hzero =>
    rw [scaleDown, if_neg hk, if_pos hzero]
    rfl
  | case3 x k hk hzero ih =>
    obtain ⟨z, hz, hsize⟩ := exists_div_tenPow le_rfl hx
    rw [scaleDown, if_neg hk, if_neg hzero, hz]
    exact ih z hsize

theorem isSome_scaleUp (k : Nat) (hx : x.size = 0 ∨ 1 ≤ x.size) :
    (scaleUp x k).isSome = true ↔ x.size * nearest (10 ^ k) < halfway := by
  unfold scaleUp
  split
  · next hk =>
    obtain ⟨y, hy, hsize⟩ := exists_tenPow hk
    rw [hy, Option.bind_some, isSome_mul, hsize]
  · next hk =>
    rcases hx with hzero | hone
    · rw [if_pos (size_eq_zero_iff.1 hzero), hzero, zero_mul]
      exact iff_of_true rfl halfway_pos
    · have hpow := halfway_le_nearest_ten_pow (not_le.1 hk)
      have hproduct := le_mul_of_one_le_left (halfway_pos.le.trans hpow) hone
      have hne : x.mantissa ≠ 0 := fun h => (one_pos.trans_le hone).ne' (size_eq_zero_iff.2 h)
      rw [if_neg hne]
      exact iff_of_false nofun (not_lt.2 (hpow.trans hproduct))

end Number

namespace Literal

open Number

variable {l : Literal}

theorem significand_lt (l : Literal) : l.significand < wordLimit :=
  appendDigits_lt (appendDigits_lt (by decide) l.whole) l.tail

theorem kept_of_lt (h : digitsValue (l.whole ++ l.tail) < wordLimit) :
    l.significand = digitsValue (l.whole ++ l.tail) ∧
      l.power = l.exponent.getD 0 - l.tail.length := by
  have happend : digitsValue (l.whole ++ l.tail) = appended (digitsValue l.whole) l.tail :=
    List.foldl_append
  rw [happend] at h ⊢
  have hwhole : l.wholeKept = (digitsValue l.whole, []) :=
    appendDigits_of_lt (Nat.lt_of_le_of_lt (le_appended _ l.tail) h)
  have hkept : l.kept = (appended (digitsValue l.whole) l.tail, []) := by
    rw [kept, hwhole, appendDigits_of_lt h]
  rw [significand, power, hkept, hwhole]
  refine ⟨rfl, ?_⟩
  rw [List.length_nil, Nat.cast_zero, add_zero, sub_zero]

theorem isSome_magnitude? : l.magnitude?.isSome = true ↔ l.InRange := by
  have hratio : (l.significand : ℚ) / (1 : ℕ) = l.significand := by rw [Nat.cast_one, div_one]
  have hword := nearest_word_le l.significand_lt
  have hlt : (l.significand : ℚ) < halfway := by
    have hlt : (l.significand : ℚ) < 2 ^ (64 : Int) := by exact_mod_cast l.significand_lt
    exact hlt.trans word_limit_lt_halfway
  have hsome : (quotient false l.significand 1).isSome = true :=
    (isSome_quotient Nat.one_pos).2 (hratio.trans_lt hlt)
  obtain ⟨x, hx⟩ := Option.isSome_iff_exists.1 hsome
  have hsize : x.size = nearest l.significand := hratio ▸ size_quotient Nat.one_pos hx
  rw [magnitude?, hx, Option.bind_some]
  split
  · next hpower =>
    obtain ⟨k, hk⟩ := Int.eq_ofNat_of_zero_le hpower
    have hrange : x.size = 0 ∨ 1 ≤ x.size := hsize ▸ nearest_natCast l.significand
    rw [hk, Int.toNat_natCast, isSome_scaleUp k hrange, hsize, InRange, hk, zpow_natCast]
    exact ⟨.inr, fun h => h.resolve_left (Int.natCast_nonneg k).not_gt⟩
  · next hpower =>
    exact iff_of_true (isSome_scaleDown _ (hsize ▸ hword)) (.inl (not_le.1 hpower))

theorem inRange_of_integer? {n : Number} (h : l.integer? = some n) : l.InRange := by
  unfold integer? at h
  split at h
  · next hfraction hexponent =>
    have htail : l.tail = [] := by rw [tail, hfraction, Option.getD_none]
    have hlt := lt_of_ofInteger h
    obtain ⟨hkept, hpower⟩ := kept_of_lt (l := l) (by rwa [htail, List.append_nil])
    rw [htail, hexponent] at hpower
    refine .inr ?_
    rw [hpower, Option.getD_none, List.length_nil, Nat.cast_zero, sub_zero, zpow_zero, nearest_one,
      mul_one]
    exact (nearest_word_le l.significand_lt).trans_lt word_limit_lt_halfway
  · cases h

end Literal

/-- A literal has a number exactly if it is in range. -/
theorem Number.isSome_ofLiteral {l : Literal} : (ofLiteral l).isSome = true ↔ l.InRange := by
  unfold ofLiteral
  cases hinteger : l.integer? with
  | some n => exact iff_of_true rfl (Literal.inRange_of_integer? hinteger)
  | none =>
    dsimp only
    rw [Literal.float?, Option.isSome_map, Option.isSome_map, Literal.isSome_magnitude?]

-- Of these two numbers the lesser one is out of range: only its product overflows.
example :
    Number.ofLiteral ⟨false, ['1'], some "7976931348623158".toList, some 308⟩ = none ∧
      (Number.ofLiteral ⟨false, ['1'], some "79769313486231581".toList, some 308⟩).isSome =
        true := by
  decide +kernel

end Provision.Json
