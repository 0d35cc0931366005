import Provision.Proofs.Json.Grammar
import Provision.Proofs.Json.Integers

/-!
# Numbers and strings are read exactly

The reader takes a number or a string off the front of its input exactly if that is written there
as the grammar has it. A number is read as far as it goes, so what follows it must not go on with
it; a string ends at its closing quote, whatever follows.
-/

namespace Provision.Json

namespace Document

open Phrase (IsDigits IsWhole FractionWrittenAs ExponentWrittenAs SizeWrittenAs TextWrittenAs)

def NoDigit (l : List Symbol) : Prop := ∀ s ∈ l.head?, isDigit s = false

theorem digits_spelled {ds : List Char} (h : ∀ c ∈ ds, Timestamp.isDigit c = true)
    {rest : List Symbol} (hstop : NoDigit rest) : digits (ds.map some ++ rest) = (ds, rest) := by
  have hall : ∀ s ∈ ds.map some, isDigit s = true := by
    intro s hs
    obtain ⟨c, hc, rfl⟩ := List.mem_map.1 hs
    exact h c hc
  have htake : rest.takeWhile isDigit = [] := by
    cases rest with
    | nil => rfl
    | cons s l => exact List.takeWhile_cons_of_neg (by simp [hstop s rfl])
  have hdrop : rest.dropWhile isDigit = rest := by
    cases rest with
    | nil => rfl
    | cons s l => exact List.dropWhile_cons_of_neg (by simp [hstop s rfl])
  rw [digits, List.takeWhile_append_of_pos hall, List.dropWhile_append_of_pos hall, htake, hdrop,
    List.append_nil, List.filterMap_map]
  exact congrArg (·, _) List.filterMap_some

theorem map_filterMap_digits {l : List Symbol} (h : ∀ s ∈ l, isDigit s = true) :
    (l.filterMap id).map some = l := by
  induction l with
  | nil => rfl
  | cons s l ih =>
    have hrest := ih fun s hs => h s (List.mem_cons_of_mem _ hs)
    cases s with
    | none => exact absurd (h none List.mem_cons_self) (by decide)
    | some c => exact congrArg (some c :: ·) hrest

theorem eq_of_digits {l rest : List Symbol} {ds : List Char} (h : digits l = (ds, rest)) :
    l = ds.map some ++ rest ∧ ∀ c ∈ ds, Timestamp.isDigit c = true := by
  have hall : ∀ s ∈ l.takeWhile isDigit, isDigit s = true := fun s hs =>
    List.all_eq_true.1 List.all_takeWhile s hs
  have hmap := map_filterMap_digits hall
  obtain ⟨rfl, rfl⟩ := Prod.mk.inj h
  refine ⟨?_, fun c hc => ?_⟩
  · rw [hmap, List.takeWhile_append_dropWhile]
  · exact hall (some c) (hmap ▸ List.mem_map_of_mem hc)

variable {l rest : List Symbol} {ds cs : List Char}

theorem whole_of_wholePart (h : wholePart l = some (ds, rest)) :
    IsWhole ds ∧ l = ds.map some ++ rest := by
  unfold wholePart at h
  split at h
  · cases h
  · cases h
  · next ds' rest' hempty hzero heq =>
    cases h
    obtain ⟨hl, hall⟩ := eq_of_digits heq
    refine ⟨⟨⟨hempty, hall⟩, fun hhead => ?_⟩, hl⟩
    cases ds with
    | nil => cases hhead
    | cons c tail =>
      obtain rfl := Option.some.inj hhead
      cases tail with
      | nil => rfl
      | cons d tail => exact (hzero d tail rfl).elim

theorem fraction_of_fractionPart {fraction : Option (List Char)}
    (h : fractionPart l = some (fraction, rest)) :
    ∃ cs, FractionWrittenAs fraction cs ∧ l = cs.map some ++ rest := by
  unfold fractionPart at h
  split at h
  · split at h
    · cases h
    · next hne heq =>
      cases h
      obtain ⟨rfl, hall⟩ := eq_of_digits heq
      exact ⟨_, .some ⟨hne, hall⟩, rfl⟩
  · cases h
    exact ⟨[], .none, rfl⟩

theorem digits_of_exponentDigits {minus : Bool} {exponent : Option Int}
    (h : exponentDigits minus l = some (exponent, rest)) :
    ∃ ds, IsDigits ds ∧ l = ds.map some ++ rest ∧
      exponent = some (if minus then -(digitsValue ds : Int) else digitsValue ds) := by
  unfold exponentDigits at h
  split at h
  · cases h
  · next ds _ hne heq =>
    cases h
    obtain ⟨hl, hall⟩ := eq_of_digits heq
    exact ⟨ds, ⟨hne, hall⟩, hl, rfl⟩

theorem exponent_of_exponentPart {exponent : Option Int}
    (h : exponentPart l = some (exponent, rest)) :
    ∃ cs, ExponentWrittenAs exponent cs ∧ l = cs.map some ++ rest := by
  unfold exponentPart at h
  split at h
  · obtain ⟨ds, hds, rfl, rfl⟩ := digits_of_exponentDigits h
    exact ⟨_, .minus (.inl rfl) hds, rfl⟩
  · obtain ⟨ds, hds, rfl, rfl⟩ := digits_of_exponentDigits h
    exact ⟨_, .plus (.inl rfl) hds, rfl⟩
  · obtain ⟨ds, hds, rfl, rfl⟩ := digits_of_exponentDigits h
    exact ⟨_, .plain (.inl rfl) hds, rfl⟩
  · obtain ⟨ds, hds, rfl, rfl⟩ := digits_of_exponentDigits h
    exact ⟨_, .minus (.inr rfl) hds, rfl⟩
  · obtain ⟨ds, hds, rfl, rfl⟩ := digits_of_exponentDigits h
    exact ⟨_, .plus (.inr rfl) hds, rfl⟩
  · obtain ⟨ds, hds, rfl, rfl⟩ := digits_of_exponentDigits h
    exact ⟨_, .plain (.inr rfl) hds, rfl⟩
  · cases h
    exact ⟨[], .none, rfl⟩

theorem size_of_literal {minus : Bool} {lit : Literal}
    (h : literal minus l = some (lit, rest)) :
    lit.minus = minus ∧ ∃ cs, SizeWrittenAs lit cs ∧ l = cs.map some ++ rest := by
  unfold literal at h
  obtain ⟨⟨whole, l₁⟩, hwhole, h⟩ := Option.bind_eq_some_iff.1 h
  obtain ⟨⟨fraction, l₂⟩, hfraction, h⟩ := Option.bind_eq_some_iff.1 h
  obtain ⟨⟨exponent, l₃⟩, hexponent, h⟩ := Option.bind_eq_some_iff.1 h
  cases h
  obtain ⟨hds, rfl⟩ := whole_of_wholePart hwhole
  obtain ⟨fs, hfs, rfl⟩ := fraction_of_fractionPart hfraction
  obtain ⟨es, hes, rfl⟩ := exponent_of_exponentPart hexponent
  refine ⟨rfl, _, ⟨hds, fs, es, hfs, hes, rfl⟩, ?_⟩
  simp only [List.map_append, List.append_assoc]

def EndsNumber (l : List Symbol) : Prop :=
  ∀ s ∈ l.head?, isDigit s = false ∧ s ≠ some '.' ∧ s ≠ some 'e' ∧ s ≠ some 'E'

theorem EndsNumber.noDigit (h : EndsNumber l) : NoDigit l := fun s hs => (h s hs).1

theorem wholePart_spelled (h : IsWhole ds) (hstop : NoDigit rest) :
    wholePart (ds.map some ++ rest) = some (ds, rest) := by
  obtain ⟨⟨hne, hall⟩, hzero⟩ := h
  rw [wholePart, digits_spelled hall hstop]
  split
  · next heq => exact absurd (congrArg Prod.fst heq) hne
  · next c tail _ heq =>
    have hds : ds = '0' :: c :: tail := congrArg Prod.fst heq
    have halone := hzero (hds ▸ rfl)
    rw [hds] at halone
    cases halone
  · next heq =>
    cases heq
    rfl

theorem exponentDigits_spelled (minus : Bool) (h : IsDigits ds) (hstop : NoDigit rest) :
    exponentDigits minus (ds.map some ++ rest) =
      some (some (if minus then -(digitsValue ds : Int) else digitsValue ds), rest) := by
  rw [exponentDigits, digits_spelled h.2 hstop]
  split
  · next heq => exact absurd (congrArg Prod.fst heq) h.1
  · next heq =>
    cases heq
    rfl

theorem fractionPart_spelled {fraction : Option (List Char)} (h : FractionWrittenAs fraction cs)
    (hstop : NoDigit rest) (hpoint : ∀ s ∈ rest.head?, s ≠ some '.') :
    fractionPart (cs.map some ++ rest) = some (fraction, rest) := by
  cases h with
  | none =>
    rw [List.map_nil, List.nil_append]
    unfold fractionPart
    split
    · exact absurd rfl (hpoint _ rfl)
    · rfl
  | some hds =>
    rw [List.map_cons, List.cons_append, fractionPart, digits_spelled hds.2 hstop]
    split
    · next heq => exact absurd (congrArg Prod.fst heq) hds.1
    · next heq =>
      cases heq
      rfl

theorem exists_digit (h : IsDigits ds) :
    ∃ c tail, ds = c :: tail ∧ Timestamp.isDigit c = true := by
  obtain ⟨c, tail, rfl⟩ := List.exists_cons_of_ne_nil h.1
  exact ⟨c, tail, rfl, h.2 c List.mem_cons_self⟩

theorem exponentPart_none (h : ∀ s ∈ rest.head?, s ≠ some 'e' ∧ s ≠ some 'E') :
    exponentPart rest = some (none, rest) := by
  unfold exponentPart
  split
  · exact absurd rfl (h _ rfl).1
  · exact absurd rfl (h _ rfl).1
  · exact absurd rfl (h _ rfl).1
  · exact absurd rfl (h _ rfl).2
  · exact absurd rfl (h _ rfl).2
  · exact absurd rfl (h _ rfl).2
  · rfl

theorem exponentPart_plain {e : Char} (he : e = 'e' ∨ e = 'E') (h : IsDigits ds) :
    exponentPart (some e :: (ds.map some ++ rest)) =
      exponentDigits false (ds.map some ++ rest) := by
  obtain ⟨c, tail, rfl, hc⟩ := exists_digit h
  have hminus : c ≠ '-' := by
    rintro rfl
    cases hc
  have hplus : c ≠ '+' := by
    rintro rfl
    cases hc
  rw [List.map_cons, List.cons_append]
  rcases he with rfl | rfl
  · rw [exponentPart.eq_3 _ (by simp [hminus]) (by simp [hplus])]
  · rw [exponentPart.eq_6 _ (by simp [hminus]) (by simp [hplus])]

theorem exponentPart_spelled {exponent : Option Int} (h : ExponentWrittenAs exponent cs)
    (hstop : NoDigit rest) (hletter : ∀ s ∈ rest.head?, s ≠ some 'e' ∧ s ≠ some 'E') :
    exponentPart (cs.map some ++ rest) = some (exponent, rest) := by
  cases h with
  | none => exact exponentPart_none hletter
  | plain he hds =>
    rw [List.map_cons, List.cons_append, exponentPart_plain he hds]
    exact exponentDigits_spelled false hds hstop
  | plus he hds =>
    rcases he with rfl | rfl
    · exact exponentDigits_spelled false hds hstop
    · exact exponentDigits_spelled false hds hstop
  | minus he hds =>
    rcases he with rfl | rfl
    · exact exponentDigits_spelled true hds hstop
    · exact exponentDigits_spelled true hds hstop

theorem head_exponent {exponent : Option Int} (h : ExponentWrittenAs exponent cs)
    (hends : EndsNumber rest) :
    ∀ s ∈ (cs.map some ++ rest).head?, isDigit s = false ∧ s ≠ some '.' := by
  have hletter : ∀ {e : Char} {l : List Symbol}, e = 'e' ∨ e = 'E' →
      ∀ s ∈ (some e :: l).head?, isDigit s = false ∧ s ≠ some '.' := by
    rintro e l (rfl | rfl) s hs
    · cases hs
      decide
    · cases hs
      decide
  cases h with
  | none => exact fun s hs => ⟨(hends s hs).1, (hends s hs).2.1⟩
  | plain he _ => exact hletter he
  | plus he _ => exact hletter he
  | minus he _ => exact hletter he

theorem head_fraction {fraction : Option (List Char)} (h : FractionWrittenAs fraction cs)
    (hrest : NoDigit rest) : NoDigit (cs.map some ++ rest) := by
  cases h with
  | none => exact hrest
  | some _ =>
    intro s hs
    cases hs
    rfl

theorem literal_spelled {lit : Literal} (h : SizeWrittenAs lit cs) (hends : EndsNumber rest) :
    literal lit.minus (cs.map some ++ rest) = some (lit, rest) := by
  obtain ⟨hwhole, fs, es, hfs, hes, rfl⟩ := h
  have hhead := head_exponent hes hends
  have hstop : NoDigit (es.map some ++ rest) := fun s hs => (hhead s hs).1
  have hexponent := exponentPart_spelled hes hends.noDigit fun s hs => (hends s hs).2.2
  have hfraction := fractionPart_spelled hfs hstop fun s hs => (hhead s hs).2
  have hwhole := wholePart_spelled hwhole (head_fraction hfs hstop)
  rw [List.map_append, List.map_append, List.append_assoc, List.append_assoc, literal, hwhole]
  change (fractionPart _ >>= _) = _
  rw [hfraction]
  change (exponentPart _ >>= _) = _
  rw [hexponent]
  rfl

inductive GivesPieces : List Piece → List Symbol → Prop
  | nil : GivesPieces [] []
  | plain {s : Symbol} {ps : List Piece} {l : List Symbol} (quote : s ≠ some '"')
    (slash : s ≠ some '\\') (control : isControl s = false) (rest : GivesPieces ps l) :
    GivesPieces (.symbol s :: ps) (s :: l)
  | escape {s : Symbol} {c : Char} {ps : List Piece} {l : List Symbol}
    (names : escaped s = some c) (rest : GivesPieces ps l) :
    GivesPieces (.symbol (some c) :: ps) (some '\\' :: s :: l)
  | unit {a b c d : Symbol} {n : Nat} {ps : List Piece} {l : List Symbol}
    (hex : hexUnit a b c d = some n) (rest : GivesPieces ps l) :
    GivesPieces (.unit n :: ps) (some '\\' :: some 'u' :: a :: b :: c :: d :: l)

theorem gives_of_pieces {l rest : List Symbol} {ps : List Piece}
    (h : pieces l = some (ps, rest)) :
    ∃ l', GivesPieces ps l' ∧ l = l' ++ some '"' :: rest := by
  fun_induction pieces l generalizing ps with
  | case1 => cases h
  | case2 l =>
    cases h
    exact ⟨[], .nil, rfl⟩
  | case3 a b c d l ih =>
    obtain ⟨n, hn, h⟩ := Option.bind_eq_some_iff.1 h
    obtain ⟨⟨ps, rest⟩, hps, h⟩ := Option.bind_eq_some_iff.1 h
    cases h
    obtain ⟨l', hl', rfl⟩ := ih hps
    exact ⟨_, .unit hn hl', rfl⟩
  | case4 s l _ ih =>
    obtain ⟨c, hc, h⟩ := Option.bind_eq_some_iff.1 h
    obtain ⟨⟨ps, rest⟩, hps, h⟩ := Option.bind_eq_some_iff.1 h
    cases h
    obtain ⟨l', hl', rfl⟩ := ih hps
    exact ⟨_, .escape hc hl', rfl⟩
  | case5 => cases h
  | case6 s l hquote _ _ hplain ih =>
    obtain ⟨⟨ps, rest⟩, hps, h⟩ := Option.bind_eq_some_iff.1 h
    cases h
    obtain ⟨l', hl', rfl⟩ := ih hps
    rw [Bool.or_eq_true, not_or, decide_eq_true_eq, Bool.not_eq_true] at hplain
    exact ⟨_, .plain hquote hplain.2 hplain.1 hl', rfl⟩

theorem pieces_of_gives {l rest : List Symbol} {ps : List Piece} (h : GivesPieces ps l) :
    pieces (l ++ some '"' :: rest) = some (ps, rest) := by
  induction h with
  | nil => rfl
  | plain hquote hslash hcontrol _ ih =>
    rw [List.cons_append, pieces.eq_5 _ _ hquote (fun _ _ _ _ _ h => absurd h hslash)
      fun _ _ h => absurd h hslash, ih]
    simp only [hcontrol, hslash, decide_false, Bool.or_self, Bool.false_eq_true, if_false]
    rfl
  | @escape s c _ _ hc _ ih =>
    have hu : s ≠ some 'u' := by
      rintro rfl
      cases hc
    rw [List.cons_append, List.cons_append, pieces_escape _ hu hc, ih]
    rfl
  | unit hn _ ih =>
    simp only [List.cons_append]
    rw [pieces.eq_3, hn, ih]
    rfl

theorem exists_hex {a b c d : Symbol} {n : Nat} (h : hexUnit a b c d = some n) :
    ∃ a' b' c' d', a = some a' ∧ b = some b' ∧ c = some c' ∧ d = some d' := by
  have hsome {s : Symbol} {n : Nat} (h : hexValue s = some n) : ∃ c, s = some c := by
    cases s with
    | none => cases h
    | some c => exact ⟨c, rfl⟩
  unfold hexUnit at h
  obtain ⟨_, ha, h⟩ := Option.bind_eq_some_iff.1 h
  obtain ⟨_, hb, h⟩ := Option.bind_eq_some_iff.1 h
  obtain ⟨_, hc, h⟩ := Option.bind_eq_some_iff.1 h
  obtain ⟨_, hd, -⟩ := Option.bind_eq_some_iff.1 h
  obtain ⟨a', rfl⟩ := hsome ha
  obtain ⟨b', rfl⟩ := hsome hb
  obtain ⟨c', rfl⟩ := hsome hc
  obtain ⟨d', rfl⟩ := hsome hd
  exact ⟨a', b', c', d', rfl, rfl, rfl, rfl⟩

theorem spell_unit {n : Nat} {ps : List Piece} (hleading : isLeading n = false)
    (htrailing : isTrailing n = false) :
    spell (.unit n :: ps) = (spell ps).map (Char.ofNat n :: ·) := by
  match ps with
  | [] => simp [spell, hleading, htrailing]
  | .unit m :: ps => simp [spell, hleading, htrailing]
  | .symbol s :: ps => simp [spell, hleading, htrailing]

theorem pair_of_spell {n : Nat} {ps : List Piece} {s : List Char} (hleading : isLeading n = true)
    (h : spell (.unit n :: ps) = some s) :
    ∃ m tail s', ps = .unit m :: tail ∧ isTrailing m = true ∧ spell tail = some s' ∧
      s = Char.ofNat (0x10000 + (n - 0xD800) * 0x400 + (m - 0xDC00)) :: s' := by
  match ps with
  | [] => simp [spell, hleading] at h
  | .symbol s :: ps => simp [spell, hleading] at h
  | .unit m :: ps =>
    rw [spell, if_pos hleading] at h
    split at h
    · next htrailing =>
      obtain ⟨s', hs', rfl⟩ := Option.map_eq_some_iff.1 h
      exact ⟨m, ps, s', rfl, htrailing, hs', rfl⟩
    · cases h

theorem not_trailing_of_spell {n : Nat} {ps : List Piece} {s : List Char}
    (hleading : isLeading n = false) (h : spell (.unit n :: ps) = some s) :
    isTrailing n = false := by
  match ps with
  | [] => cases htrailing : isTrailing n <;> simp [spell, htrailing] at h ⊢
  | .unit m :: ps => cases htrailing : isTrailing n <;> simp [spell, hleading, htrailing] at h ⊢
  | .symbol s :: ps => cases htrailing : isTrailing n <;> simp [spell, htrailing] at h ⊢

theorem text_of_gives {ps : List Piece} {l : List Symbol} {s : List Char}
    (hgives : GivesPieces ps l) (hspell : spell ps = some s) :
    ∃ cs, l = cs.map some ∧ TextWrittenAs s cs := by
  -- A pair of surrogates takes two pieces at once, so the induction is on their number.
  induction hlength : ps.length using Nat.strongRecOn generalizing ps l s with
  | ind count ih =>
    subst hlength
    cases hgives with
    | nil =>
      cases hspell
      exact ⟨[], rfl, .nil⟩
    | @plain symbol ps l hquote hslash hcontrol hrest =>
      cases symbol with
      | none => cases hspell
      | some c =>
        rw [spell] at hspell
        obtain ⟨s', hs', rfl⟩ := Option.map_eq_some_iff.1 hspell
        obtain ⟨cs, rfl, htext⟩ := ih ps.length (Nat.lt_succ_self _) hrest hs' rfl
        exact ⟨c :: cs, rfl, .plain (fun h => hquote (congrArg some h))
          (fun h => hslash (congrArg some h)) (of_decide_eq_false hcontrol) htext⟩
    | @escape symbol c ps l hnames hrest =>
      rw [spell] at hspell
      obtain ⟨s', hs', rfl⟩ := Option.map_eq_some_iff.1 hspell
      obtain ⟨cs, rfl, htext⟩ := ih ps.length (Nat.lt_succ_self _) hrest hs' rfl
      cases symbol with
      | none => cases hnames
      | some e => exact ⟨'\\' :: e :: cs, rfl, .escape hnames htext⟩
    | @unit a b c d n ps l hhex hrest =>
      obtain ⟨a, b, c, d, rfl, rfl, rfl, rfl⟩ := exists_hex hhex
      cases hleading : isLeading n with
      | false =>
        have htrailing := not_trailing_of_spell hleading hspell
        rw [spell_unit hleading htrailing] at hspell
        obtain ⟨s', hs', rfl⟩ := Option.map_eq_some_iff.1 hspell
        obtain ⟨cs, rfl, htext⟩ := ih ps.length (Nat.lt_succ_self _) hrest hs' rfl
        exact ⟨_, rfl, .unit hhex hleading htrailing htext⟩
      | true =>
        obtain ⟨m, tail, s', rfl, htrailing, hs', rfl⟩ := pair_of_spell hleading hspell
        cases hrest with
        | unit hhex' hrest =>
          obtain ⟨a', b', c', d', rfl, rfl, rfl, rfl⟩ := exists_hex hhex'
          have hlt : tail.length < (Piece.unit n :: Piece.unit m :: tail).length :=
            Nat.lt_succ_of_lt (Nat.lt_succ_self _)
          obtain ⟨cs, rfl, htext⟩ := ih tail.length hlt hrest hs' rfl
          exact ⟨_, rfl, .pair hhex hhex' hleading htrailing htext⟩

theorem gives_of_text {s cs : List Char} (h : TextWrittenAs s cs) :
    ∃ ps, GivesPieces ps (cs.map some) ∧ spell ps = some s := by
  induction h with
  | nil => exact ⟨[], .nil, rfl⟩
  | @plain c s cs hquote hslash hcontrol _ ih =>
    obtain ⟨ps, hps, hspell⟩ := ih
    refine ⟨.symbol (some c) :: ps, .plain (fun h => hquote (Option.some.inj h))
      (fun h => hslash (Option.some.inj h)) (decide_eq_false hcontrol) hps, ?_⟩
    rw [spell, hspell, Option.map_some]
  | escape hnames _ ih =>
    obtain ⟨ps, hps, hspell⟩ := ih
    refine ⟨_, .escape hnames hps, ?_⟩
    rw [spell, hspell, Option.map_some]
  | unit hhex hleading htrailing _ ih =>
    obtain ⟨ps, hps, hspell⟩ := ih
    refine ⟨_, .unit hhex hps, ?_⟩
    rw [spell_unit hleading htrailing, hspell, Option.map_some]
  | pair hhex hhex' hleading htrailing _ ih =>
    obtain ⟨ps, hps, hspell⟩ := ih
    refine ⟨_, .unit hhex (.unit hhex' hps), ?_⟩
    rw [spell, if_pos hleading, if_pos htrailing, hspell, Option.map_some]

theorem text_of_readString {l rest : List Symbol} {s : String}
    (h : readString l = some (some s, rest)) :
    ∃ cs, l = cs.map some ++ some '"' :: rest ∧ TextWrittenAs s.toList cs := by
  obtain ⟨⟨ps, rest'⟩, hpieces, heq⟩ := Option.map_eq_some_iff.1 h
  obtain ⟨hspell, rfl⟩ := Prod.mk.inj heq
  obtain ⟨text, htext, rfl⟩ := Option.map_eq_some_iff.1 hspell
  obtain ⟨l', hl', rfl⟩ := gives_of_pieces hpieces
  obtain ⟨cs, rfl, hcs⟩ := text_of_gives hl' htext
  exact ⟨cs, rfl, by rwa [String.toList_ofList]⟩

theorem readString_text {s : String} {cs : List Char} (h : TextWrittenAs s.toList cs)
    (rest : List Symbol) : readString (cs.map some ++ some '"' :: rest) = some (some s, rest) := by
  obtain ⟨ps, hps, hspell⟩ := gives_of_text h
  simp only [readString, pieces_of_gives hps, Option.map_some, hspell, String.ofList_toList]

end Document

end Provision.Json
