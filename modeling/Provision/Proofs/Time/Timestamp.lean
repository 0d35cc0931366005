import Mathlib.Algebra.Group.Nat.Defs
import Provision.Proofs.Codec

/-!
# Times read back

The written form of a valid time has fixed widths everywhere but in the year and the fraction,
and a mark after each part. Every reader takes exactly the digits of its part. What is read from
any text is a valid time.
-/

namespace Provision.Timestamp

open Provision.Text Provision.Json

theorem isBlank_of_isDigit {c : Char} (h : isDigit c = true) : isBlank c = false := by
  simp only [isDigit, Bool.and_eq_true, decide_eq_true_eq, Char.le_def] at h
  have hlow : 48 ≤ c.toNat := h.1
  have hhigh : c.toNat ≤ 57 := h.2
  simp only [isBlank, Bool.or_eq_false_iff, Bool.and_eq_false_imp, decide_eq_true_eq,
    decide_eq_false_iff_not, beq_eq_false_iff_ne]
  omega

theorem skipBlanks_of_not_blank {c : Char} {cs : List Char} (h : isBlank c = false) :
    skipBlanks (c :: cs) = c :: cs := by
  simp [skipBlanks, h]

theorem mark_cons {c : Char} {cs : List Char} (h : isBlank c = false) :
    mark c (c :: cs) = some ((), cs) := by
  simp [mark, skipBlanks_of_not_blank h]

variable {width n : Nat} {rest : List Char}

theorem isDigit_of_mem_padded {c : Char} (h : c ∈ padded width n) : isDigit c = true := by
  rcases List.mem_append.1 h with h | h
  · obtain rfl := List.eq_of_mem_replicate h
    rfl
  · exact isDigit_toDigits h

theorem length_padded (hwidth : 0 < width) (h : n < 10 ^ width) :
    (padded width n).length = width := by
  have hdigits : (natDigits n).length ≤ width :=
    (Nat.length_toDigits_le_iff (by decide) hwidth).2 h
  rw [padded, List.length_append, List.length_replicate]
  omega

theorem padded_ne_nil (width n : Nat) : padded width n ≠ [] := by
  intro h
  exact Nat.toDigits_ne_nil (List.append_eq_nil_iff.1 h).2

theorem digitsValue_padded : digitsValue (padded width n) = n := by
  have hzeros (k : Nat) (cs : List Char) :
      digitsValue (List.replicate k '0' ++ cs) = digitsValue cs := by
    induction k with
    | zero => rfl
    | succ k ih => rw [List.replicate_succ, List.cons_append, ← ih]; rfl
  rw [padded, hzeros]
  exact digitsValue_toDigits n

theorem skipBlanks_padded : skipBlanks (padded width n ++ rest) = padded width n ++ rest := by
  obtain ⟨c, cs, heq⟩ := List.exists_cons_of_ne_nil (padded_ne_nil width n)
  rw [heq, List.cons_append]
  exact skipBlanks_of_not_blank
    (isBlank_of_isDigit (isDigit_of_mem_padded (heq ▸ List.mem_cons_self)))

theorem takeWhile_padded {most : Nat} (hmost : (padded width n).length ≤ most)
    (hstop : (padded width n).length = most ∨ ∀ c, rest.head? = some c → isDigit c = false) :
    ((padded width n ++ rest).take most).takeWhile isDigit = padded width n := by
  have hall : ∀ c ∈ padded width n, isDigit c = true := fun c hc => isDigit_of_mem_padded hc
  rw [List.take_append, List.take_of_length_le hmost, List.takeWhile_append_of_pos hall]
  rcases hstop with hlength | hrest
  · rw [hlength, Nat.sub_self, List.take_zero, List.takeWhile_nil, List.append_nil]
  · cases rest with
    | nil => rw [List.take_nil, List.takeWhile_nil, List.append_nil]
    | cons c cs =>
      cases most - (padded width n).length with
      | zero => rw [List.take_zero, List.takeWhile_nil, List.append_nil]
      | succ k =>
        rw [List.take_succ_cons, List.takeWhile_cons_of_neg (by simp [hrest c rfl]),
          List.append_nil]

theorem number_padded {most : Nat} (hmost : (padded width n).length ≤ most)
    (hstop : (padded width n).length = most ∨ ∀ c, rest.head? = some c → isDigit c = false) :
    number most (padded width n ++ rest) = some (n, rest) := by
  have hempty : (padded width n).isEmpty = false :=
    List.isEmpty_eq_false_iff.2 (padded_ne_nil _ _)
  simp only [number, takeWhile_padded hmost hstop, hempty, Bool.false_eq_true, if_false,
    digitsValue_padded, List.drop_left]

theorem field_padded {low high : Nat} (hlow : low ≤ n) (hhigh : n ≤ high) (h : n < 100) :
    field low high (padded 2 n ++ rest) = some (n, rest) := by
  have hlength : (padded 2 n).length = 2 := length_padded (by decide) h
  have hread : number 2 (padded 2 n ++ rest) = some (n, rest) :=
    number_padded (Nat.le_of_eq hlength) (.inl hlength)
  simp only [field, skipBlanks_padded, hread]
  exact if_pos ⟨hlow, hhigh⟩

theorem readYear_writeYear (y : Int) :
    readYear (writeYear y ++ '-' :: rest) = some (y, '-' :: rest) := by
  have hdash : ∀ c, ('-' :: rest).head? = some c → isDigit c = false := by
    intro c hc
    cases hc
    rfl
  have hsigned : number (padded 4 y.natAbs ++ '-' :: rest).length
      (padded 4 y.natAbs ++ '-' :: rest) = some (y.natAbs, '-' :: rest) :=
    number_padded (by simp) (.inr hdash)
  unfold writeYear
  split
  · next hplain =>
    have hlength : (padded 4 y.toNat).length = 4 := length_padded (by decide) (by omega)
    have hread : number 4 (padded 4 y.toNat ++ '-' :: rest) = some (y.toNat, '-' :: rest) :=
      number_padded (Nat.le_of_eq hlength) (.inl hlength)
    have hyear : ((y.toNat : Nat) : Int) = y := Int.toNat_of_nonneg hplain.1
    obtain ⟨c, cs, heq⟩ :=
      List.exists_cons_of_ne_nil (padded_ne_nil 4 y.toNat)
    have hc : isDigit c = true := isDigit_of_mem_padded (heq ▸ List.mem_cons_self)
    simp only [readYear, skipBlanks_padded]
    split
    · next hsign =>
      rw [heq, List.cons_append] at hsign
      cases hsign
      exact absurd hc (by decide)
    · next hsign =>
      rw [heq, List.cons_append] at hsign
      cases hsign
      exact absurd hc (by decide)
    · rw [hread, Option.map_some, hyear]
  · by_cases hneg : y < 0
    · rw [if_pos hneg, List.cons_append]
      simp only [readYear, skipBlanks_of_not_blank (show isBlank '-' = false by decide), hsigned,
        Option.map_some]
      rw [show -(y.natAbs : Int) = y by omega]
    · rw [if_neg hneg, List.cons_append]
      simp only [readYear, skipBlanks_of_not_blank (show isBlank '+' = false by decide), hsigned,
        Option.map_some]
      rw [show (y.natAbs : Int) = y by omega]

theorem readFraction_padded {k : Nat} (hk : 0 < k) (hk' : k ≤ 9) (h : n < 10 ^ k)
    (hrest : ∀ c, rest.head? = some c → isDigit c = false) :
    readFraction ('.' :: padded k n ++ rest) = some (n * 10 ^ (9 - k), rest) := by
  have hlength := length_padded hk h
  have htake : ((padded k n ++ rest).take 9).takeWhile isDigit = padded k n :=
    takeWhile_padded (by omega) (.inr hrest)
  have hempty : (padded k n).isEmpty = false := List.isEmpty_eq_false_iff.2 (padded_ne_nil _ _)
  have hdrop : (padded k n ++ rest).dropWhile isDigit = rest := by
    rw [List.dropWhile_append_of_pos fun c hc => isDigit_of_mem_padded hc]
    cases rest with
    | nil => rfl
    | cons c cs => exact List.dropWhile_cons_of_neg (by simp [hrest c rfl])
  simp only [List.cons_append, readFraction, htake, hempty, Bool.false_eq_true, if_false,
    digitsValue_padded, hlength, hdrop]
  rfl

theorem readFraction_writeFraction (h : n < 1000000000)
    (hrest : ∀ c, rest.head? = some c → isDigit c = false) (hdot : rest.head? ≠ some '.') :
    readFraction (writeFraction n ++ rest) = some (n, rest) := by
  unfold writeFraction
  split
  · next hzero =>
    subst hzero
    unfold readFraction
    split
    · next cs heq =>
      rw [List.nil_append] at heq
      rw [heq] at hdot
      exact absurd rfl hdot
    · rfl
  · split
    · next hmillis =>
      rw [readFraction_padded (by decide) (by decide) (by omega) hrest]
      rw [show n / 1000000 * 10 ^ (9 - 3) = n by omega]
    · split
      · next hmicros =>
        rw [readFraction_padded (by decide) (by decide) (by omega) hrest]
        rw [show n / 1000 * 10 ^ (9 - 6) = n by omega]
      · rw [readFraction_padded (by decide) (by decide) (by omega) hrest]
        rw [show n * 10 ^ (9 - 9) = n by omega]

theorem atOffset_zero {t : Timestamp} (h : t.Valid) : t.atOffset 0 = t := by
  obtain ⟨-, -, -, -, -, -, hhour, hminute, -, -⟩ := h
  have hlow : ¬ ((t.hour : Int) * 60 + t.minute - 0 < 0) := by omega
  have hhigh : ¬ (1440 ≤ (t.hour : Int) * 60 + t.minute - 0) := by omega
  have hminutes : (((t.hour : Int) * 60 + t.minute - 0) % 1440).toNat =
      t.hour * 60 + t.minute := by omega
  simp only [atOffset, hlow, hhigh, if_false, hminutes]
  rw [show (t.hour * 60 + t.minute) / 60 = t.hour by omega,
    show (t.hour * 60 + t.minute) % 60 = t.minute by omega]

theorem day_le {y : Int} {m : Nat} : daysInMonth y m ≤ 31 := by
  unfold daysInMonth
  split <;> split <;> omega

theorem read_bind {α β : Type} {r : Reader α} {cs rest : List Char} {x : α}
    {next : α × List Char → Option β} {y : Option β} (h : r cs = some (x, rest))
    (hnext : next (x, rest) = y) : (r cs >>= next) = y := by
  rw [h]
  exact hnext

theorem guard_bind {c : Prop} [Decidable c] {β : Type} {next : Unit → Option β} {y : Option β}
    (h : c) (hnext : next () = y) : (guard c >>= next) = y := by
  have hguard : (guard c : Option Unit) = some () := if_pos h
  rw [hguard]
  exact hnext

theorem ofText?_text {t : Timestamp} (h : t.Valid) : ofText? t.text = some t := by
  obtain ⟨-, -, hmonth, hmonth', hday, hday', hhour, hminute, hsecond, hnanos⟩ := id h
  have hend : t.day ≤ 31 := Nat.le_trans hday' day_le
  have hdash : isBlank '-' = false := by decide
  have hcolon : isBlank ':' = false := by decide
  have hfraction : readFraction (writeFraction t.nanos ++ ['Z']) = some (t.nanos, ['Z']) := by
    refine readFraction_writeFraction hnanos (fun c hc => ?_) (by decide)
    cases hc
    rfl
  have hoffset : readOffset (skipBlanks ['Z']) = some (0, []) := by decide
  have hcivil : (⟨t.year, t.month, t.day, t.hour, t.minute, t.second, t.nanos⟩ : Timestamp) = t :=
    rfl
  rw [ofText?, text, String.toList_ofList, write, writeCivil]
  simp only [List.append_assoc, List.cons_append]
  rw [read?]
  refine read_bind (readYear_writeYear _) ?_
  refine read_bind (mark_cons hdash) (read_bind (field_padded hmonth hmonth' (by omega)) ?_)
  refine read_bind (mark_cons hdash) (read_bind (field_padded hday hend (by omega)) ?_)
  refine read_bind (r := readSeparator) rfl ?_
  refine read_bind (field_padded (Nat.zero_le _) (Nat.le_of_lt_succ hhour) (by omega)) ?_
  refine read_bind (mark_cons hcolon) (read_bind (field_padded (Nat.zero_le _)
    (Nat.le_of_lt_succ hminute) (by omega)) ?_)
  refine read_bind (mark_cons hcolon) (read_bind (field_padded (Nat.zero_le _) hsecond
    (by omega)) ?_)
  refine read_bind hfraction (read_bind hoffset (guard_bind rfl ?_))
  refine guard_bind h ?_
  rw [hcivil, atOffset_zero h]
  exact guard_bind h rfl

theorem forall_mem_bind {α β : Type} {P : β → Prop} {o : Option α} {next : α → Option β}
    (h : ∀ x, ∀ y ∈ next x, P y) : ∀ y ∈ o >>= next, P y := by
  intro y hy
  obtain ⟨x, -, hx⟩ := Option.bind_eq_some_iff.1 hy
  exact h x y hx

theorem of_guard {c : Prop} [Decidable c] {u : Unit} (h : (guard c : Option Unit) = some u) :
    c := by
  unfold guard at h
  split at h
  · assumption
  · cases h

theorem valid_of_ofText? {s : String} : ∀ t ∈ ofText? s, t.Valid := by
  unfold ofText? read?
  -- The parts may be anything: the time that they make up is checked last.
  iterate 15 refine forall_mem_bind fun _ => ?_
  intro t ht
  obtain ⟨_, hguard, ht⟩ := Option.bind_eq_some_iff.1 ht
  cases ht
  exact of_guard hguard

end Provision.Timestamp
