import Provision.Proofs.Json.Integers

/-!
# Serials in documents

A serial is written as a word or as one of the decimal texts of a word. Null and the empty text
stand for no serial, and nothing else is read as one, so a serial is never another number than the
one that was written.
-/

namespace Provision.Version

open Provision.Json

variable {s : String} {n : Nat} {serial : Option Nat}

/-- The decimal texts of a word: a plus sign or none, any number of zeros, and the numeral. -/
def SpellsWord (s : String) (n : Nat) : Prop :=
  n < Number.wordLimit ∧ ∃ sign zeros, (sign = [] ∨ sign = ['+']) ∧
    s.toList = sign ++ (List.replicate zeros '0' ++ Nat.toDigits 10 n)

theorem isDigit_numeral (n zeros : Nat) :
    ∀ c ∈ List.replicate zeros '0' ++ Nat.toDigits 10 n, Timestamp.isDigit c = true := by
  intro c hc
  rcases List.mem_append.1 hc with hc | hc
  · rw [List.eq_of_mem_replicate hc]
    rfl
  · exact isDigit_toDigits hc

theorem SpellsWord.ne_empty (h : SpellsWord s n) : s ≠ "" := by
  rintro rfl
  obtain ⟨-, sign, zeros, -, hlist⟩ := h
  have hnone : Nat.toDigits 10 n = [] :=
    (List.append_eq_nil_iff.1 (List.append_eq_nil_iff.1 hlist.symm).2).2
  exact Nat.toDigits_ne_nil hnone

theorem word_of_digits {ds : List Char} :
    (if !ds.isEmpty && ds.all Timestamp.isDigit then
        if digitsValue ds < Number.wordLimit then some (digitsValue ds) else none
      else none) = some n ↔
      n < Number.wordLimit ∧ ∃ zeros, ds = List.replicate zeros '0' ++ Nat.toDigits 10 n := by
  constructor
  · intro h
    split at h
    · next hdigits =>
      split at h
      · next hlimit =>
        obtain rfl := Option.some.inj h
        rw [Bool.and_eq_true, Bool.not_eq_true', List.isEmpty_eq_false_iff, List.all_eq_true]
          at hdigits
        exact ⟨hlimit, exists_zeros hdigits.1 hdigits.2⟩
      · cases h
    · cases h
  · rintro ⟨hlimit, zeros, rfl⟩
    have hne : List.replicate zeros '0' ++ Nat.toDigits 10 n ≠ [] :=
      List.append_ne_nil_of_right_ne_nil _ Nat.toDigits_ne_nil
    have hempty := List.isEmpty_eq_false_iff.2 hne
    have hall := List.all_eq_true.2 (isDigit_numeral n zeros)
    simp only [hempty, hall, Bool.not_false, Bool.and_self, if_true, digitsValue_zeros,
      digitsValue_toDigits, hlimit]

theorem wordOfText?_eq_some : wordOfText? s = some n ↔ SpellsWord s n := by
  unfold wordOfText? SpellsWord
  split
  · next rest hs =>
    refine word_of_digits.trans (and_congr_right fun _ => ?_)
    constructor
    · rintro ⟨zeros, rfl⟩
      exact ⟨['+'], zeros, .inr rfl, hs⟩
    · rintro ⟨_, zeros, rfl | rfl, hlist⟩
      · -- A plus sign is no digit.
        have hplus : '+' ∈ List.replicate zeros '0' ++ Nat.toDigits 10 n := by
          rw [← List.nil_append (_ ++ _), ← hlist, hs]
          exact List.mem_cons_self
        exact absurd (isDigit_numeral n zeros _ hplus) (by decide)
      · exact ⟨zeros, (List.cons.inj (hs.symm.trans hlist)).2⟩
  · next hplain =>
    refine word_of_digits.trans (and_congr_right fun _ => ?_)
    constructor
    · rintro ⟨zeros, hlist⟩
      exact ⟨[], zeros, .inl rfl, hlist⟩
    · rintro ⟨_, zeros, rfl | rfl, hlist⟩
      · exact ⟨zeros, hlist⟩
      · exact absurd hlist (hplain _)

/-- What a serial may be written as. -/
inductive Writes : Document → Option Nat → Prop
  | null : Writes .null none
  | blank : Writes (.string (some "")) none
  | number (n : Nat) : Writes (.number (some (.natural n))) (some n)
  | text {s : String} {n : Nat} (h : SpellsWord s n) : Writes (.string (some s)) (some n)

theorem serialDecoder_text (room : Nat) (s : String) :
    serialDecoder room (.string (some s)) =
      if s.isEmpty then .ok none
      else match wordOfText? s with
        | some n => .ok (some n)
        | none => .error (.notSerial s) := by
  have hscalar : scalarDecoder.optional room (.string (some s)) = .ok (some (.text s)) := rfl
  rw [serialDecoder, hscalar]
  change (if s.isEmpty then _ else _) = _
  split
  · rfl
  · cases wordOfText? s <;> rfl

theorem serialDecoder_spelled (room : Nat) (h : SpellsWord s n) :
    serialDecoder room (.string (some s)) = .ok (some n) := by
  rw [serialDecoder_text, if_neg fun hempty => h.ne_empty (String.isEmpty_iff.1 hempty),
    wordOfText?_eq_some.2 h]

theorem serialDecoder_unspelled (room : Nat) (hne : s ≠ "") (h : ∀ n, ¬ SpellsWord s n) :
    serialDecoder room (.string (some s)) = .error (.notSerial s) := by
  have hnone : wordOfText? s = none := by
    rw [Option.eq_none_iff_forall_not_mem]
    exact fun n hn => h n (wordOfText?_eq_some.1 hn)
  rw [serialDecoder_text, if_neg fun hempty => hne (String.isEmpty_iff.1 hempty), hnone]

def Scalar.document : Scalar → Document
  | .number n => .number (some (.natural n))
  | .bool b => .bool b
  | .text s => .string (some s)

theorem scalarDecoder_eq_ok {room : Nat} {doc : Document} {scalar : Scalar}
    (h : scalarDecoder room doc = .ok scalar) : doc = scalar.document := by
  obtain ⟨v, hv, hscalar⟩ := Result.bind_eq_ok.1 h
  cases v with
  | null => cases hscalar
  | bool b =>
    cases hscalar
    exact Document.leaf_of_toValue (v := .bool b) trivial hv
  | number m =>
    cases m with
    | natural n =>
      cases hscalar
      exact Document.leaf_of_toValue (v := .number (.natural n)) trivial hv
    | negative n => cases hscalar
    | float x => cases hscalar
  | string s =>
    cases hscalar
    exact Document.leaf_of_toValue (v := .string s) trivial hv
  | array items => cases hscalar
  | object members => cases hscalar

/-- A serial is read from what it may be written as, and from nothing else. -/
theorem serialDecoder_eq_ok {room : Nat} {doc : Document} :
    serialDecoder room doc = .ok serial ↔ Writes doc serial := by
  constructor
  · intro h
    obtain ⟨scalar, hscalar, hserial⟩ := Result.bind_eq_ok.1 h
    unfold Decoder.optional at hscalar
    split at hscalar
    · cases hscalar
      cases hserial
      exact .null
    · obtain ⟨value, hvalue, rfl⟩ := Result.map_eq_ok.1 hscalar
      obtain rfl := scalarDecoder_eq_ok hvalue
      cases value with
      | number n =>
        cases hserial
        exact .number n
      | bool b => cases hserial
      | text s =>
        rw [Scalar.document, serialDecoder_text] at h
        split at h
        · next hempty =>
          cases h
          rw [String.isEmpty_iff.1 hempty]
          exact .blank
        · split at h
          · next n hword =>
            cases h
            exact .text (wordOfText?_eq_some.1 hword)
          · cases h
  · intro h
    cases h with
    | null => rfl
    | blank => rfl
    | number n => rfl
    | text h => exact serialDecoder_spelled room h

theorem serialDecoder_number (room : Nat) {m : Option Number}
    (h : ∀ n, m ≠ some (.natural n)) : ∃ e, serialDecoder room (.number m) = .error e := by
  cases hread : serialDecoder room (.number m) with
  | error e => exact ⟨e, rfl⟩
  | ok serial =>
    have hwrites := serialDecoder_eq_ok.1 hread
    cases hwrites
    exact absurd rfl (h _)

end Provision.Version
