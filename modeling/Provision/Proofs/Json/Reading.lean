import Provision.Proofs.Json.Literals

/-!
# Documents are read exactly

The reader takes a value off the front of its input exactly if one is written there, and makes the
document of it. Both halves are inductions on the fuel, which follow the reader from a value to its
items and members and back: enough fuel reads whatever is written, and what is read with any fuel
is written, if a value can be made of it.
-/

namespace Provision.Json

namespace Phrase

mutual

def document : Phrase → Document
  | null => .null
  | bool b => .bool b
  | number l => .number (Number.ofLiteral l)
  | string s => .string (some s)
  | array items => .array (documents items) true
  | object members => .object (memberDocuments members) true

def documents : List Phrase → List Document
  | [] => []
  | p :: ps => document p :: documents ps

def memberDocuments : List (String × Phrase) → List (Key × Document)
  | [] => []
  | (k, p) :: rest => (.text k, document p) :: memberDocuments rest

end

end Phrase

namespace Document

open Phrase (SizeWrittenAs WrittenAs PaddedWrittenAs ItemsWrittenAs MembersWrittenAs)

theorem exists_blank (l : List Symbol) :
    ∃ blank, IsBlank blank ∧ l = blank.map some ++ skipSpace l := by
  induction l with
  | nil => exact ⟨[], isBlank_nil, rfl⟩
  | cons s l ih =>
    cases hs : isSpace s with
    | false =>
      refine ⟨[], isBlank_nil, ?_⟩
      rw [skipSpace, List.dropWhile_cons_of_neg (by simp [hs])]
      rfl
    | true =>
      obtain ⟨blank, hblank, hl⟩ := ih
      cases s with
      | none => cases hs
      | some c =>
        refine ⟨c :: blank, List.forall_mem_cons.2 ⟨hs, hblank⟩, ?_⟩
        rw [skipSpace, List.dropWhile_cons_of_pos hs]
        exact congrArg (some c :: ·) hl

theorem skipSpace_skipSpace (l : List Symbol) : skipSpace (skipSpace l) = skipSpace l := by
  obtain ⟨blank, hblank, hl⟩ := exists_blank l
  have hskip := skipSpace_blank hblank (skipSpace l)
  rw [← hl] at hskip
  exact hskip.symm

theorem readValue_skipSpace (fuel : Nat) (l : List Symbol) :
    readValue fuel (skipSpace l) = readValue fuel l := by
  cases fuel with
  | zero => rfl
  | succ fuel => rw [readValue, skipSpace_skipSpace, readValue]

theorem readItems_skipSpace (fuel : Nat) (l : List Symbol) :
    readItems fuel (skipSpace l) = readItems fuel l := by
  cases fuel with
  | zero => rfl
  | succ fuel => rw [readItems, readValue_skipSpace, readItems]

theorem readMembers_skipSpace (fuel : Nat) (l : List Symbol) :
    readMembers fuel (skipSpace l) = readMembers fuel l := by
  cases fuel with
  | zero => rfl
  | succ fuel => rw [readMembers, skipSpace_skipSpace, readMembers]

theorem endsNumber_blank {blank : List Char} (h : IsBlank blank) {l : List Symbol}
    (hl : EndsNumber l) : EndsNumber (blank.map some ++ l) := by
  cases blank with
  | nil => exact hl
  | cons c cs =>
    intro s hs
    cases hs
    have hc := h c List.mem_cons_self
    simp only [isSpace, Bool.or_eq_true, decide_eq_true_eq, Option.some.injEq] at hc
    rcases hc with ((rfl | rfl) | rfl) | rfl <;> decide

theorem endsNumber_cons {c : Char} (h : c = ',' ∨ c = ']' ∨ c = '\x7d') (l : List Symbol) :
    EndsNumber (some c :: l) := by
  intro s hs
  cases hs
  rcases h with rfl | rfl | rfl <;> decide

theorem readNumber_written {lit : Literal} {cs : List Char} {rest : List Symbol}
    (h : SizeWrittenAs lit cs) (hends : EndsNumber rest) :
    readNumber lit.minus (cs.map some ++ rest) = (number (Number.ofLiteral lit), rest) := by
  rw [readNumber, literal_spelled h hends]

theorem head_size {lit : Literal} {cs : List Char} (h : SizeWrittenAs lit cs) :
    ∃ c tail, cs = c :: tail ∧ Timestamp.isDigit c = true := by
  obtain ⟨⟨hds, -⟩, fs, es, -, -, rfl⟩ := h
  obtain ⟨c, tail, hwhole, hc⟩ := exists_digit hds
  exact ⟨c, _, by rw [hwhole]; rfl, hc⟩

theorem head_written {p : Phrase} {item : List Char} (h : WrittenAs p item) :
    ∃ c cs, item = c :: cs ∧ isSpace (some c) = false ∧ c ≠ ']' := by
  cases h with
  | null => exact ⟨_, _, rfl, rfl, by decide⟩
  | true => exact ⟨_, _, rfl, rfl, by decide⟩
  | false => exact ⟨_, _, rfl, rfl, by decide⟩
  | number h =>
    cases h with
    | plain _ hsize =>
      obtain ⟨c, tail, rfl, hc⟩ := head_size hsize
      have hne : ∀ d, Timestamp.isDigit d = false → c ≠ d := by
        rintro d hd rfl
        exact Bool.false_ne_true (hd.symm.trans hc)
      refine ⟨c, tail, rfl, ?_, hne ']' rfl⟩
      simp only [isSpace, Option.some.injEq, hne ' ' rfl, hne '\n' rfl, hne '\t' rfl,
        hne '\r' rfl, decide_false, Bool.or_self]
    | minus _ _ => exact ⟨_, _, rfl, rfl, by decide⟩
  | string h =>
    cases h
    exact ⟨_, _, rfl, rfl, by decide⟩
  | emptyArray _ => exact ⟨_, _, rfl, rfl, by decide⟩
  | array _ => exact ⟨_, _, rfl, rfl, by decide⟩
  | emptyObject _ => exact ⟨_, _, rfl, rfl, by decide⟩
  | object _ => exact ⟨_, _, rfl, rfl, by decide⟩

/-- With this fuel the reader reads what is written, whatever follows it. -/
structure ReadsWritten (fuel : Nat) : Prop where
  value : ∀ {p item rest}, WrittenAs p item → EndsNumber rest → item.length < fuel →
    readValue fuel (item.map some ++ rest) = (p.document, rest)
  items : ∀ {ps cs}, ItemsWrittenAs ps cs → cs.length < fuel → ∀ rest,
    readItems fuel (cs.map some ++ rest) = (Phrase.documents ps, true, rest)
  members : ∀ {ms cs}, MembersWrittenAs ms cs → cs.length < fuel → ∀ rest,
    readMembers fuel (cs.map some ++ rest) = (Phrase.memberDocuments ms, true, rest)

theorem ReadsWritten.padded {fuel : Nat} (h : ReadsWritten fuel) {p : Phrase} {cs : List Char}
    (hp : PaddedWrittenAs p cs) {rest : List Symbol} (hends : EndsNumber rest)
    (hfuel : cs.length < fuel) :
    ∃ rest', readValue fuel (cs.map some ++ rest) = (p.document, rest') ∧
      skipSpace rest' = skipSpace rest := by
  obtain ⟨hbefore, hitem, hafter⟩ := hp
  rename_i before item after
  refine ⟨after.map some ++ rest, ?_, skipSpace_blank hafter rest⟩
  have hlength : item.length < fuel := by
    simp only [List.length_append] at hfuel
    omega
  rw [← readValue_skipSpace, List.map_append, List.map_append, List.append_assoc,
    List.append_assoc, skipSpace_blank hbefore, readValue_skipSpace]
  exact h.value hitem (endsNumber_blank hafter hends) hlength

theorem ReadsWritten.nextItems {fuel : Nat} (h : ReadsWritten fuel) {ps : List Phrase}
    {cs : List Char} (hps : ItemsWrittenAs ps cs) (hfuel : cs.length < fuel + 1)
    (rest : List Symbol) :
    readItems (fuel + 1) (cs.map some ++ rest) = (Phrase.documents ps, true, rest) := by
  cases hps with
  | @last p item hp =>
    rw [List.length_append, List.length_singleton] at hfuel
    obtain ⟨rest', hread, hskip⟩ :=
      h.padded hp (endsNumber_cons (.inr (.inl rfl)) rest) (by omega)
    rw [List.map_append, List.append_assoc, List.map_singleton, List.singleton_append, readItems,
      hread]
    simp only [hskip, skipSpace_cons (show isSpace (some ']') = false by decide)]
    rfl
  | @more p ps item tail hp htail =>
    rw [List.length_append, List.length_cons] at hfuel
    obtain ⟨rest', hread, hskip⟩ :=
      h.padded hp (endsNumber_cons (.inl rfl) (tail.map some ++ rest)) (by omega)
    rw [List.map_append, List.append_assoc, List.map_cons, List.cons_append, readItems, hread]
    simp only [hskip, skipSpace_cons (show isSpace (some ',') = false by decide),
      h.items htail (by omega) rest]
    rfl

theorem ReadsWritten.nextMembers {fuel : Nat} (h : ReadsWritten fuel)
    {ms : List (String × Phrase)} {cs : List Char} (hms : MembersWrittenAs ms cs)
    (hfuel : cs.length < fuel + 1) (rest : List Symbol) :
    readMembers (fuel + 1) (cs.map some ++ rest) = (Phrase.memberDocuments ms, true, rest) := by
  cases hms with
  | @last k p before key gap item hbefore hkey hgap hp =>
    obtain ⟨htext⟩ := hkey
    rename_i cs
    simp only [List.length_append, List.length_cons, List.length_nil] at hfuel
    obtain ⟨rest', hread, hskip⟩ :=
      h.padded hp (endsNumber_cons (.inr (.inr rfl)) rest) (by omega)
    have hstring := readString_text htext
      (gap.map some ++ some ':' :: (item.map some ++ some '\x7d' :: rest))
    simp only [List.map_append, List.map_cons, List.map_nil, List.append_assoc, List.cons_append,
      List.nil_append]
    rw [readMembers, skipSpace_blank hbefore, skipSpace_cons (by decide)]
    simp only [hstring, skipSpace_blank hgap, hread, hskip,
      skipSpace_cons (show isSpace (some ':') = false by decide),
      skipSpace_cons (show isSpace (some '\x7d') = false by decide)]
    rfl
  | @more k p ms before key gap item tail hbefore hkey hgap hp htail =>
    obtain ⟨htext⟩ := hkey
    rename_i cs
    simp only [List.length_append, List.length_cons, List.length_nil] at hfuel
    obtain ⟨rest', hread, hskip⟩ :=
      h.padded hp (endsNumber_cons (.inl rfl) (tail.map some ++ rest)) (by omega)
    have hstring := readString_text htext
      (gap.map some ++ some ':' :: (item.map some ++ some ',' :: (tail.map some ++ rest)))
    simp only [List.map_append, List.map_cons, List.append_assoc, List.cons_append,
      List.nil_append]
    rw [readMembers, skipSpace_blank hbefore, skipSpace_cons (by decide)]
    simp only [hstring, skipSpace_blank hgap, hread, hskip, h.members htail (by omega) rest,
      skipSpace_cons (show isSpace (some ':') = false by decide),
      skipSpace_cons (show isSpace (some ',') = false by decide)]
    rfl

theorem head_padded {p : Phrase} {cs : List Char} (h : PaddedWrittenAs p cs) (rest : List Symbol) :
    ∃ c l, skipSpace (cs.map some ++ rest) = some c :: l ∧ c ≠ ']' := by
  obtain ⟨hbefore, hitem, -⟩ := h
  obtain ⟨c, tail, rfl, hspace, hc⟩ := head_written hitem
  rw [List.map_append, List.append_assoc, skipSpace_blank hbefore]
  exact ⟨c, _, skipSpace_cons hspace _, hc⟩

theorem head_items {ps : List Phrase} {cs : List Char} (h : ItemsWrittenAs ps cs)
    (rest : List Symbol) : ∃ c l, skipSpace (cs.map some ++ rest) = some c :: l ∧ c ≠ ']' := by
  cases h with
  | last hp =>
    rw [List.map_append, List.append_assoc]
    exact head_padded hp _
  | more hp _ =>
    rw [List.map_append, List.append_assoc]
    exact head_padded hp _

theorem head_members {ms : List (String × Phrase)} {cs : List Char} (h : MembersWrittenAs ms cs)
    (rest : List Symbol) : ∃ l, skipSpace (cs.map some ++ rest) = some '"' :: l := by
  cases h with
  | last hbefore hkey _ _ =>
    cases hkey
    rw [List.map_append, List.append_assoc, skipSpace_blank hbefore]
    exact ⟨_, skipSpace_cons (by decide) _⟩
  | more hbefore hkey _ _ _ =>
    cases hkey
    rw [List.map_append, List.append_assoc, skipSpace_blank hbefore]
    exact ⟨_, skipSpace_cons (by decide) _⟩

theorem readValue_word {c : Char} {cs : List Char} {d : Document} (fuel : Nat) (rest : List Symbol)
    (h : ∀ l, readValue (fuel + 1) (some c :: l) = readWord cs d l) :
    readValue (fuel + 1) ((c :: cs).map some ++ rest) = (d, rest) := by
  rw [List.map_cons, List.cons_append, h, readWord_written]

theorem readValue_digits {c : Char} (h : Timestamp.isDigit c = true) (fuel : Nat)
    (l : List Symbol) : readValue (fuel + 1) (some c :: l) = readNumber false (some c :: l) := by
  have hother : ∀ d, Timestamp.isDigit d = false → c ≠ d := by
    rintro d hd rfl
    exact Bool.false_ne_true (hd.symm.trans h)
  have hspace : isSpace (some c) = false := by
    simp only [isSpace, Option.some.injEq, hother ' ' rfl, hother '\n' rfl, hother '\t' rfl,
      hother '\r' rfl, decide_false, Bool.or_self]
  have hhead {d : Char} {l' : List Symbol} (hd : Timestamp.isDigit d = false)
      (heq : some c :: l = some d :: l') : False :=
    hother d hd (Option.some.inj (List.cons.inj heq).1)
  rw [readValue, skipSpace_cons hspace]
  split
  · next heq => exact (hhead rfl heq).elim
  · next heq => exact (hhead rfl heq).elim
  · next heq => exact (hhead rfl heq).elim
  · next heq => exact (hhead rfl heq).elim
  · next heq => exact (hhead rfl heq).elim
  · next heq => exact (hhead rfl heq).elim
  · next heq => exact (hhead rfl heq).elim
  · next heq =>
    obtain ⟨rfl, rfl⟩ := List.cons.inj heq
    exact if_pos h
  · next heq => cases heq

theorem ReadsWritten.nextValue {fuel : Nat} (h : ReadsWritten fuel) {p : Phrase} {item : List Char}
    (hp : WrittenAs p item) {rest : List Symbol} (hends : EndsNumber rest)
    (hfuel : item.length < fuel + 1) :
    readValue (fuel + 1) (item.map some ++ rest) = (p.document, rest) := by
  cases hp with
  | null =>
    refine readValue_word fuel rest fun l => ?_
    rw [readValue, skipSpace_cons (by decide)]
    rfl
  | true =>
    refine readValue_word fuel rest fun l => ?_
    rw [readValue, skipSpace_cons (by decide)]
    rfl
  | false =>
    refine readValue_word fuel rest fun l => ?_
    rw [readValue, skipSpace_cons (by decide)]
    rfl
  | @number lit _ hnumber =>
    cases hnumber with
    | plain hsign hsize =>
      have hread := readNumber_written hsize hends
      obtain ⟨c, tail, rfl, hc⟩ := head_size hsize
      rw [hsign] at hread
      exact (readValue_digits hc fuel _).trans hread
    | minus hsign hsize =>
      have hread := readNumber_written hsize hends
      rw [hsign] at hread
      rw [List.map_cons, List.cons_append, readValue, skipSpace_cons (by decide)]
      exact hread
  | string hs =>
    obtain ⟨htext⟩ := hs
    rename_i cs
    have hstring := readString_text htext rest
    rw [List.map_cons, List.cons_append, readValue, skipSpace_cons (by decide), List.map_append,
      List.append_assoc]
    simp only [List.map_cons, List.map_nil, List.cons_append, List.nil_append, hstring]
    rfl
  | @emptyArray gap hgap =>
    rw [List.map_cons, List.cons_append, readValue, skipSpace_cons (by decide), List.map_append,
      List.append_assoc]
    simp only [skipSpace_blank hgap, List.map_cons, List.map_nil, List.cons_append,
      List.nil_append, skipSpace_cons (show isSpace (some ']') = false by decide)]
    rfl
  | @array ps cs hitems =>
    obtain ⟨c, l, hskip, hc⟩ := head_items hitems rest
    have hread := h.items hitems (Nat.lt_of_succ_lt_succ hfuel) rest
    rw [← readItems_skipSpace, hskip] at hread
    rw [List.map_cons, List.cons_append, readValue, skipSpace_cons (by decide)]
    simp only [hskip]
    split
    · next heq => exact absurd (Option.some.inj (List.cons.inj heq).1) hc
    · rw [hread]
      rfl
  | @emptyObject gap hgap =>
    rw [List.map_cons, List.cons_append, readValue, skipSpace_cons (by decide), List.map_append,
      List.append_assoc]
    simp only [skipSpace_blank hgap, List.map_cons, List.map_nil, List.cons_append,
      List.nil_append, skipSpace_cons (show isSpace (some '\x7d') = false by decide)]
    rfl
  | @object ms cs hmembers =>
    obtain ⟨l, hskip⟩ := head_members hmembers rest
    have hread := h.members hmembers (Nat.lt_of_succ_lt_succ hfuel) rest
    rw [← readMembers_skipSpace, hskip] at hread
    rw [List.map_cons, List.cons_append, readValue, skipSpace_cons (by decide)]
    simp only [hskip]
    split
    · next heq => exact absurd (List.cons.inj heq).1 (by decide)
    · rw [hread]
      rfl

theorem readsWritten (fuel : Nat) : ReadsWritten fuel := by
  induction fuel with
  | zero =>
    exact ⟨fun _ _ h => absurd h (Nat.not_lt_zero _), fun _ h => absurd h (Nat.not_lt_zero _),
      fun _ h => absurd h (Nat.not_lt_zero _)⟩
  | succ fuel ih =>
    exact ⟨fun hp hends hfuel => ih.nextValue hp hends hfuel, ih.nextItems, ih.nextMembers⟩

theorem eq_of_readWord {expected : List Char} {d e : Document} {l rest : List Symbol} {room : Nat}
    {v : Value} (h : readWord expected d l = (e, rest)) (hv : e.toValue room = .ok v) :
    e = d ∧ l = expected.map some ++ rest := by
  unfold readWord word at h
  split at h
  · next rest' heq =>
    cases h
    split at heq
    · next hprefix =>
      obtain ⟨tail, rfl⟩ := List.isPrefixOf_iff_prefix.1 hprefix
      have htail := Option.some.inj heq
      rw [← List.length_map some, List.drop_left] at htail
      exact ⟨rfl, by rw [htail]⟩
    · cases heq
  · cases h
    cases hv

theorem size_of_readNumber {minus : Bool} {d : Document} {l rest : List Symbol} {room : Nat}
    {v : Value} (h : readNumber minus l = (d, rest)) (hv : d.toValue room = .ok v) :
    ∃ lit cs, lit.minus = minus ∧ SizeWrittenAs lit cs ∧ l = cs.map some ++ rest ∧
      d = number (Number.ofLiteral lit) := by
  unfold readNumber at h
  split at h
  · next lit _ hliteral =>
    cases h
    obtain ⟨hminus, cs, hsize, hl⟩ := size_of_literal hliteral
    exact ⟨lit, cs, hminus, hsize, hl, rfl⟩
  · cases h
    cases hv

/-- With this fuel the reader reads nothing that makes a value but what is written. -/
structure ReadsOnlyWritten (fuel : Nat) : Prop where
  value : ∀ {l d rest room v}, readValue fuel l = (d, rest) → d.toValue room = .ok v →
    ∃ p item, skipSpace l = item.map some ++ rest ∧ WrittenAs p item ∧ d = p.document
  items : ∀ {l ds closed rest room vs}, readItems fuel l = (ds, closed, rest) →
    itemValues room ds closed = .ok vs →
    ∃ ps cs, l = cs.map some ++ rest ∧ ItemsWrittenAs ps cs ∧ closed = true ∧
      ds = Phrase.documents ps
  members : ∀ {l ms closed rest room acc dict}, readMembers fuel l = (ms, closed, rest) →
    memberValues room acc ms closed = .ok dict →
    ∃ ps cs, l = cs.map some ++ rest ∧ MembersWrittenAs ps cs ∧ closed = true ∧
      ms = Phrase.memberDocuments ps

namespace ReadsOnlyWritten

variable {fuel room : Nat} {l rest : List Symbol}

theorem padded (h : ReadsOnlyWritten fuel) {d : Document} {v : Value}
    (hread : readValue fuel l = (d, rest)) (hv : d.toValue room = .ok v) :
    ∃ p cs, l = cs.map some ++ skipSpace rest ∧ PaddedWrittenAs p cs ∧ d = p.document := by
  obtain ⟨p, item, hl, hitem, hd⟩ := h.value hread hv
  obtain ⟨before, hbefore, hbegin⟩ := exists_blank l
  obtain ⟨after, hafter, hrest⟩ := exists_blank rest
  refine ⟨p, _, ?_, .mk hbefore hitem hafter, hd⟩
  rw [hbegin, hl, List.map_append, List.map_append, List.append_assoc, List.append_assoc, ← hrest]

theorem nextItems (h : ReadsOnlyWritten fuel) {ds : List Document} {closed : Bool}
    {vs : List Value} (hread : readItems (fuel + 1) l = (ds, closed, rest))
    (hvs : itemValues room ds closed = .ok vs) :
    ∃ ps cs, l = cs.map some ++ rest ∧ ItemsWrittenAs ps cs ∧ closed = true ∧
      ds = Phrase.documents ps := by
  rw [readItems] at hread
  split at hread
  next item rest' hvalue =>
    split at hread
    · next tail hskip =>
      split at hread
      next items closed' rest'' hitems =>
        cases hread
        obtain ⟨v, hv, htail⟩ := Result.bind_eq_ok.1 hvs
        obtain ⟨vs, hvalues, -⟩ := Result.bind_eq_ok.1 htail
        obtain ⟨p, cs, hl, hp, rfl⟩ := h.padded hvalue hv
        obtain ⟨ps, cs', rfl, hps, hclosed, rfl⟩ := h.items hitems hvalues
        refine ⟨p :: ps, _, ?_, .more hp hps, hclosed, rfl⟩
        rw [hl, hskip, List.map_append, List.map_cons, List.append_assoc, List.cons_append]
    · next tail hskip =>
      cases hread
      obtain ⟨v, hv, -⟩ := Result.bind_eq_ok.1 hvs
      obtain ⟨p, cs, hl, hp, rfl⟩ := h.padded hvalue hv
      refine ⟨[p], _, ?_, .last hp, rfl, rfl⟩
      rw [hl, hskip, List.map_append, List.append_assoc]
      rfl
    · cases hread
      obtain ⟨_, -, hvs⟩ := Result.bind_eq_ok.1 hvs
      obtain ⟨_, hvs, -⟩ := Result.bind_eq_ok.1 hvs
      cases hvs

theorem nextMembers (h : ReadsOnlyWritten fuel) {ms : List (Key × Document)} {closed : Bool}
    {acc dict : Dict Value} (hread : readMembers (fuel + 1) l = (ms, closed, rest))
    (hdict : memberValues room acc ms closed = .ok dict) :
    ∃ ps cs, l = cs.map some ++ rest ∧ MembersWrittenAs ps cs ∧ closed = true ∧
      ms = Phrase.memberDocuments ps := by
  obtain ⟨before, hbefore, hl⟩ := exists_blank l
  rw [readMembers] at hread
  split at hread
  · next l₁ hquote =>
    split at hread
    · cases hread
      cases hdict
    · next s rest₁ hstring =>
      obtain ⟨gap, hgap, hrest₁⟩ := exists_blank rest₁
      cases s with
      | none =>
        split at hread
        · split at hread
          split at hread
          · split at hread
            cases hread
            cases hdict
          · cases hread
            cases hdict
          · cases hread
            cases hdict
        · cases hread
          cases hdict
      | some k =>
        obtain ⟨name, rfl, htext⟩ := text_of_readString hstring
        split at hread
        · next l₂ hcolon =>
          rw [hquote, hrest₁, hcolon] at hl
          split at hread
          next item rest₂ hvalue =>
            split at hread
            · next l₃ hskip =>
              split at hread
              next members closed' rest₃ hmembers =>
                cases hread
                obtain ⟨v, hv, htail⟩ := Result.bind_eq_ok.1 hdict
                obtain ⟨p, cs, rfl, hp, rfl⟩ := h.padded hvalue hv
                obtain ⟨ps, cs', rfl, hps, hclosed, rfl⟩ := h.members hmembers htail
                refine ⟨(k, p) :: ps, _, ?_, .more hbefore ⟨htext⟩ hgap hp hps, hclosed, rfl⟩
                rw [hl, hskip]
                simp only [List.map_append, List.map_cons, List.append_assoc, List.cons_append,
                  List.nil_append]
            · next l₃ hskip =>
              cases hread
              obtain ⟨v, hv, -⟩ := Result.bind_eq_ok.1 hdict
              obtain ⟨p, cs, rfl, hp, rfl⟩ := h.padded hvalue hv
              refine ⟨[(k, p)], _, ?_, .last hbefore ⟨htext⟩ hgap hp, rfl, rfl⟩
              rw [hl, hskip]
              simp only [List.map_append, List.map_cons, List.map_nil, List.append_assoc,
                List.cons_append, List.nil_append]
            · cases hread
              obtain ⟨_, -, hdict⟩ := Result.bind_eq_ok.1 hdict
              cases hdict
        · cases hread
          obtain ⟨_, hv, -⟩ := Result.bind_eq_ok.1 hdict
          cases hv
  · cases hread
    cases hdict

theorem nextValue (h : ReadsOnlyWritten fuel) {d : Document} {v : Value}
    (hread : readValue (fuel + 1) l = (d, rest)) (hv : d.toValue room = .ok v) :
    ∃ p item, skipSpace l = item.map some ++ rest ∧ WrittenAs p item ∧ d = p.document := by
  rw [readValue] at hread
  split at hread
  · next l' hl =>
    obtain ⟨rfl, rfl⟩ := eq_of_readWord hread hv
    exact ⟨_, ['n', 'u', 'l', 'l'], hl, .null, rfl⟩
  · next l' hl =>
    obtain ⟨rfl, rfl⟩ := eq_of_readWord hread hv
    exact ⟨_, ['t', 'r', 'u', 'e'], hl, .true, rfl⟩
  · next l' hl =>
    obtain ⟨rfl, rfl⟩ := eq_of_readWord hread hv
    exact ⟨_, ['f', 'a', 'l', 's', 'e'], hl, .false, rfl⟩
  · next l' hl =>
    split at hread
    · next s rest' hstring =>
      cases hread
      cases s with
      | none => cases hv
      | some s =>
        obtain ⟨cs, rfl, htext⟩ := text_of_readString hstring
        refine ⟨.string s, _, ?_, .string ⟨htext⟩, rfl⟩
        rw [hl, List.map_cons, List.map_append, List.cons_append, List.append_assoc]
        rfl
    · cases hread
      cases hv
  · next l' hl =>
    obtain ⟨gap, hgap, hgapped⟩ := exists_blank l'
    split at hread
    · next rest' hskip =>
      cases hread
      refine ⟨.array [], _, ?_, .emptyArray hgap, rfl⟩
      rw [hl, hgapped, hskip, List.map_cons, List.map_append, List.cons_append, List.append_assoc]
      rfl
    · split at hread
      next items closed rest' hitems =>
        cases hread
        rw [readItems_skipSpace] at hitems
        cases room with
        | zero => cases hv
        | succ room =>
          obtain ⟨vs, hvs, -⟩ := Result.bind_eq_ok.1 hv
          obtain ⟨ps, cs, rfl, hps, rfl, rfl⟩ := h.items hitems hvs
          exact ⟨.array ps, '[' :: cs, hl, .array hps, rfl⟩
  · next l' hl =>
    obtain ⟨gap, hgap, hgapped⟩ := exists_blank l'
    split at hread
    · next rest' hskip =>
      cases hread
      refine ⟨.object [], _, ?_, .emptyObject hgap, rfl⟩
      rw [hl, hgapped, hskip, List.map_cons, List.map_append, List.cons_append, List.append_assoc]
      rfl
    · split at hread
      next members closed rest' hmembers =>
        cases hread
        rw [readMembers_skipSpace] at hmembers
        cases room with
        | zero => cases hv
        | succ room =>
          obtain ⟨dict, hdict, -⟩ := Result.bind_eq_ok.1 hv
          obtain ⟨ps, cs, rfl, hps, rfl, rfl⟩ := h.members hmembers hdict
          exact ⟨.object ps, '\x7b' :: cs, hl, .object hps, rfl⟩
  · next l' hl =>
    obtain ⟨lit, cs, hsign, hsize, rfl, rfl⟩ := size_of_readNumber hread hv
    exact ⟨.number lit, '-' :: cs, hl, .number (.minus hsign hsize), rfl⟩
  · next s l' _ _ _ _ _ _ _ hl =>
    split at hread
    · obtain ⟨lit, cs, hsign, hsize, hcs, rfl⟩ := size_of_readNumber hread hv
      exact ⟨.number lit, cs, hl.trans hcs, .number (.plain hsign hsize), rfl⟩
    · cases hread
      cases hv
  · cases hread
    cases hv

end ReadsOnlyWritten

theorem readsOnlyWritten (fuel : Nat) : ReadsOnlyWritten fuel := by
  induction fuel with
  | zero =>
    refine ⟨fun hread hv => ?_, fun hread hvs => ?_, fun hread hdict => ?_⟩
    · cases hread
      cases hv
    · cases hread
      cases hvs
    · cases hread
      cases hdict
  | succ fuel ih => exact ⟨ih.nextValue, ih.nextItems, ih.nextMembers⟩

end Document

end Provision.Json
