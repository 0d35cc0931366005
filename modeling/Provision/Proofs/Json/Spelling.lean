import Mathlib.Tactic.SplitIfs
import Provision.Json.Decode
import Provision.Proofs.Text.Utf8

/-!
# Written values read back

A value without numbers that is written in compact or in pretty form reads back as the document
of the value, whatever follows it. Both forms are spellings of the value: they differ only in
the blanks between its parts, so the reader is taken through the spellings once.
-/

namespace Provision.Json

namespace Document

def pieceOf (c : Char) : Piece :=
  if c = '\n' ∨ c = '\r' ∨ c = '\t' ∨ c = '\x08' ∨ c = '\x0c' then .symbol (some c)
  else if c.toNat < 0x20 then .unit c.toNat
  else .symbol (some c)

theorem hexUnit_control {n : Nat} (h : n < 0x20) :
    hexUnit (some '0') (some '0') (some (hexDigit (n / 16))) (some (hexDigit (n % 16))) =
      some n := by
  have hall : ∀ n < 0x20, hexUnit (some '0') (some '0') (some (hexDigit (n / 16)))
      (some (hexDigit (n % 16))) = some n := by decide
  exact hall n h

theorem pieces_escape {s : Symbol} {c : Char} (l : List Symbol) (hu : s ≠ some 'u')
    (h : escaped s = some c) :
    pieces (some '\\' :: s :: l) =
      (pieces l).map fun (ps, rest) => (.symbol (some c) :: ps, rest) := by
  rw [pieces.eq_4 _ _ fun a b c d l' hs => absurd hs hu, h]
  cases pieces l <;> rfl

theorem pieces_plain {c : Char} (l : List Symbol) (hquote : c ≠ '"') (hslash : c ≠ '\\')
    (hcontrol : ¬ c.toNat < 0x20) :
    pieces (some c :: l) = (pieces l).map fun (ps, rest) => (.symbol (some c) :: ps, rest) := by
  have hne : some c ≠ some '\\' := fun h => hslash (Option.some.inj h)
  rw [pieces.eq_5 _ _ (fun h => hquote (Option.some.inj h)) (fun _ _ _ _ _ h => absurd h hne)
    fun _ _ h => absurd h hne]
  simp only [isControl, hcontrol, decide_false, hne, Bool.or_self, Bool.false_eq_true, if_false]
  cases pieces l <;> rfl

theorem pieces_writeChar (c : Char) (l : List Symbol) :
    pieces ((writeChar c).map some ++ l) =
      (pieces l).map fun (ps, rest) => (pieceOf c :: ps, rest) := by
  by_cases hquote : c = '"'
  · subst hquote
    exact pieces_escape l (by decide) rfl
  by_cases hslash : c = '\\'
  · subst hslash
    exact pieces_escape l (by decide) rfl
  by_cases hnamed : c = '\n' ∨ c = '\r' ∨ c = '\t' ∨ c = '\x08' ∨ c = '\x0c'
  · rw [pieceOf, if_pos hnamed]
    rcases hnamed with rfl | rfl | rfl | rfl | rfl
    · exact pieces_escape l (by decide) rfl
    · exact pieces_escape l (by decide) rfl
    · exact pieces_escape l (by decide) rfl
    · exact pieces_escape l (by decide) rfl
    · exact pieces_escape l (by decide) rfl
  rw [pieceOf, if_neg hnamed]
  simp only [not_or] at hnamed
  simp only [writeChar, hquote, hslash, hnamed, if_false]
  split
  · next hcontrol =>
    simp only [List.map_cons, List.map_nil, List.cons_append, List.nil_append]
    rw [pieces.eq_3, hexUnit_control hcontrol]
    cases pieces l <;> rfl
  · next hcontrol => exact pieces_plain l hquote hslash hcontrol

theorem pieces_written (cs : List Char) (rest : List Symbol) :
    pieces ((cs.flatMap writeChar).map some ++ some '"' :: rest) =
      some (cs.map pieceOf, rest) := by
  induction cs with
  | nil => rfl
  | cons c cs ih =>
    rw [List.flatMap_cons, List.map_append, List.append_assoc, pieces_writeChar, ih]
    rfl

theorem spell_cons (c : Char) (ps : List Piece) :
    spell (pieceOf c :: ps) = (spell ps).map (c :: ·) := by
  unfold pieceOf
  split
  · rw [spell]
  · split
    · next hcontrol =>
      -- Control characters are no surrogates, so they pair up with nothing.
      have hleading : isLeading c.toNat = false := by
        simp only [isLeading, Bool.and_eq_false_imp, decide_eq_true_eq, decide_eq_false_iff_not]
        omega
      have htrailing : isTrailing c.toNat = false := by
        simp only [isTrailing, Bool.and_eq_false_imp, decide_eq_true_eq, decide_eq_false_iff_not]
        omega
      match ps with
      | [] => simp [spell, hleading, htrailing]
      | .unit m :: ps => simp [spell, hleading, htrailing]
      | .symbol s :: ps => simp [spell, hleading, htrailing]
    · rw [spell]

theorem spell_pieces (cs : List Char) : spell (cs.map pieceOf) = some cs := by
  induction cs with
  | nil => rfl
  | cons c cs ih => rw [List.map_cons, spell_cons, ih, Option.map_some]

theorem readString_written (s : String) (rest : List Symbol) :
    readString ((s.toList.flatMap writeChar ++ ['"']).map some ++ rest) =
      some (some s, rest) := by
  rw [List.map_append, List.append_assoc]
  change readString (_ ++ some '"' :: rest) = _
  simp only [readString, pieces_written, Option.map_some, spell_pieces, String.ofList_toList]

mutual

def ofValue : Value → Document
  | .null => null
  | .bool b => bool b
  | .number n => number (some n)
  | .string s => string (some s)
  | .array items => array (ofItems items) true
  | .object members => object (ofMembers members) true

def ofItems : List Value → List Document
  | [] => []
  | v :: vs => ofValue v :: ofItems vs

def ofMembers : List (String × Value) → List (Key × Document)
  | [] => []
  | (k, v) :: rest => (.text k, ofValue v) :: ofMembers rest

end

def IsBlank (l : List Char) : Prop := ∀ c ∈ l, isSpace (some c) = true

theorem isBlank_nil : IsBlank [] := fun _ h => absurd h List.not_mem_nil

mutual

/-- The characters spell the value. Numbers are left out. -/
def Spells : Value → List Char → Prop
  | .null, l => l = writeNull
  | .bool b, l => l = writeBool b
  | .number _, _ => False
  | .string s, l => l = writeString s
  | .array [], l => l = ['[', ']']
  | .array (v :: vs), l =>
    ∃ blank item tail close, IsBlank blank ∧ Spells v item ∧ SpellsItems vs tail ∧
      IsBlank close ∧ l = '[' :: (blank ++ item ++ tail ++ close ++ [']'])
  | .object [], l => l = ['\x7b', '\x7d']
  | .object ((k, v) :: rest), l =>
    ∃ blank gap item tail close, IsBlank blank ∧ IsBlank gap ∧ Spells v item ∧
      SpellsMembers rest tail ∧ IsBlank close ∧
      l = '\x7b' :: (blank ++ writeString k ++ ':' :: (gap ++ item ++ tail ++ close ++ ['\x7d']))

def SpellsItems : List Value → List Char → Prop
  | [], l => l = []
  | v :: vs, l =>
    ∃ blank item tail, IsBlank blank ∧ Spells v item ∧ SpellsItems vs tail ∧
      l = ',' :: (blank ++ item ++ tail)

def SpellsMembers : List (String × Value) → List Char → Prop
  | [], l => l = []
  | (k, v) :: rest, l =>
    ∃ blank gap item tail, IsBlank blank ∧ IsBlank gap ∧ Spells v item ∧
      SpellsMembers rest tail ∧ l = ',' :: (blank ++ writeString k ++ ':' :: (gap ++ item ++ tail))

end

theorem skipSpace_blank {blank : List Char} (h : IsBlank blank) (l : List Symbol) :
    skipSpace (blank.map some ++ l) = skipSpace l := by
  induction blank with
  | nil => rfl
  | cons c cs ih =>
    have hc := h c List.mem_cons_self
    rw [List.map_cons, List.cons_append, skipSpace, List.dropWhile_cons_of_pos hc]
    exact ih fun d hd => h d (List.mem_cons_of_mem _ hd)

theorem skipSpace_cons {c : Char} (h : isSpace (some c) = false) (l : List Symbol) :
    skipSpace (some c :: l) = some c :: l :=
  List.dropWhile_cons_of_neg (by simp [h])

theorem spells_head {v : Value} {item : List Char} (h : Spells v item) :
    ∃ c cs, item = c :: cs ∧ isSpace (some c) = false ∧ c ≠ ']' := by
  match v with
  | .null => exact ⟨_, _, h, by decide, by decide⟩
  | .bool true => exact ⟨_, _, h, by decide, by decide⟩
  | .bool false => exact ⟨_, _, h, by decide, by decide⟩
  | .number _ => exact h.elim
  | .string s => exact ⟨_, _, h, by decide, by decide⟩
  | .array [] => exact ⟨_, _, h, by decide, by decide⟩
  | .array (v :: vs) =>
    obtain ⟨blank, item, tail, close, -, -, -, -, rfl⟩ := h
    exact ⟨_, _, rfl, by decide, by decide⟩
  | .object [] => exact ⟨_, _, h, by decide, by decide⟩
  | .object ((k, v) :: rest) =>
    obtain ⟨blank, gap, item, tail, close, -, -, -, -, -, rfl⟩ := h
    exact ⟨_, _, rfl, by decide, by decide⟩

theorem readWord_written (expected : List Char) (d : Document) (rest : List Symbol) :
    readWord expected d (expected.map some ++ rest) = (d, rest) := by
  have hprefix : (expected.map some).isPrefixOf (expected.map some ++ rest) = true := by
    rw [List.isPrefixOf_iff_prefix]
    exact List.prefix_append _ _
  have hdrop : (expected.map some ++ rest).drop expected.length = rest :=
    List.drop_left' (List.length_map _)
  simp only [readWord, word, hprefix, if_true, hdrop]

theorem readValue_blank {blank : List Char} (h : IsBlank blank) (fuel : Nat) (l : List Symbol) :
    readValue (fuel + 1) (blank.map some ++ l) = readValue (fuel + 1) l := by
  rw [readValue, skipSpace_blank h, readValue]

def Reads (v : Value) (item : List Char) : Prop :=
  ∀ (fuel : Nat) (blank : List Char) (rest : List Symbol), IsBlank blank → item.length < fuel →
    readValue fuel ((blank ++ item).map some ++ rest) = (ofValue v, rest)

theorem reads_of_head {v : Value} {c : Char} {cs : List Char}
    (h : ∀ (fuel : Nat) (rest : List Symbol), cs.length < fuel →
      readValue (fuel + 1) (some c :: (cs.map some ++ rest)) = (ofValue v, rest)) :
    Reads v (c :: cs) := by
  intro fuel blank rest hblank hfuel
  cases fuel with
  | zero => exact absurd hfuel (Nat.not_lt_zero _)
  | succ fuel =>
    rw [List.map_append, List.append_assoc, List.map_cons, List.cons_append,
      readValue_blank hblank fuel]
    exact h fuel rest (Nat.lt_of_succ_lt_succ hfuel)

theorem reads_word {c : Char} {cs : List Char} {v : Value}
    (h : ∀ fuel l, readValue (fuel + 1) (some c :: l) = readWord cs (ofValue v) l) :
    Reads v (c :: cs) := by
  refine reads_of_head fun fuel rest _ => ?_
  rw [h, readWord_written]

theorem reads_string (s : String) : Reads (.string s) (writeString s) := by
  refine reads_of_head fun fuel rest _ => ?_
  rw [readValue, skipSpace_cons (by decide)]
  simp only [readString_written]
  rfl

mutual

theorem reads_of_spells : ∀ (v : Value) {item : List Char}, Spells v item → Reads v item
  | .null, item, h => by
    obtain rfl := h
    exact reads_word fun fuel l => by rw [readValue, skipSpace_cons (by decide)]; rfl
  | .bool true, item, h => by
    obtain rfl := h
    exact reads_word fun fuel l => by rw [readValue, skipSpace_cons (by decide)]; rfl
  | .bool false, item, h => by
    obtain rfl := h
    exact reads_word fun fuel l => by rw [readValue, skipSpace_cons (by decide)]; rfl
  | .number n, item, h => h.elim
  | .string s, item, h => by
    obtain rfl := h
    exact reads_string s
  | .array [], item, h => by
    obtain rfl := h
    refine reads_of_head fun fuel rest _ => ?_
    rw [readValue, skipSpace_cons (by decide)]
    rfl
  | .array (v :: vs), item, h => by
    obtain ⟨blank, item, tail, close, hblank, hitem, htail, hclose, rfl⟩ := h
    refine reads_of_head fun fuel rest hfuel => ?_
    -- The fuel counts the characters that are left, brackets included.
    have hlength : item.length + tail.length + 1 < fuel := by
      simp only [List.length_append, List.length_singleton] at hfuel
      omega
    have hitems := readItems_of_spells vs (reads_of_spells v hitem) htail hclose
      isBlank_nil hlength rest
    obtain ⟨c, cs, rfl, hspace, hbracket⟩ := spells_head hitem
    simp only [List.map_append, List.map_cons, List.map_nil, List.append_assoc, List.cons_append,
      List.nil_append] at hitems ⊢
    rw [readValue, skipSpace_cons (by decide)]
    simp only [skipSpace_blank hblank, skipSpace_cons hspace]
    split
    · next heq => exact absurd (Option.some.inj (List.cons.inj heq).1) hbracket
    · rw [hitems]
      rfl
  | .object [], item, h => by
    obtain rfl := h
    refine reads_of_head fun fuel rest _ => ?_
    rw [readValue, skipSpace_cons (by decide)]
    rfl
  | .object ((k, v) :: members), item, h => by
    obtain ⟨blank, gap, item, tail, close, hblank, hgap, hitem, htail, hclose, rfl⟩ := h
    refine reads_of_head fun fuel rest hfuel => ?_
    have hlength : item.length + tail.length + 1 < fuel := by
      simp only [List.length_append, List.length_cons, List.length_nil] at hfuel
      omega
    have hmembers := readMembers_of_spells members k (reads_of_spells v hitem) htail hclose
      isBlank_nil hgap hlength rest
    simp only [List.map_append, List.map_cons, List.map_nil, List.append_assoc, List.cons_append,
      List.nil_append] at hmembers ⊢
    rw [readValue, skipSpace_cons (by decide)]
    simp only [writeString, List.map_cons, List.cons_append] at hmembers ⊢
    simp only [skipSpace_blank hblank, skipSpace_cons (show isSpace (some '"') = false by decide)]
    split
    · next heq => exact absurd (List.cons.inj heq).1 (by decide)
    · rw [hmembers]
      rfl

theorem readItems_of_spells : ∀ (vs : List Value) {v : Value} {item tail close : List Char},
    Reads v item → SpellsItems vs tail → IsBlank close →
    ∀ {fuel : Nat} {blank : List Char}, IsBlank blank → item.length + tail.length + 1 < fuel →
    ∀ (rest : List Symbol),
      readItems fuel ((blank ++ item ++ tail ++ close).map some ++ some ']' :: rest) =
        (ofValue v :: ofItems vs, true, rest)
  | vs, v, item, tail, close, hv, htail, hclose, 0, blank, hblank, hfuel, rest =>
    absurd hfuel (Nat.not_lt_zero _)
  | [], v, item, tail, close, hv, htail, hclose, fuel + 1, blank, hblank, hfuel, rest => by
    obtain rfl := htail
    have hfirst := hv fuel blank (close.map some ++ some ']' :: rest) hblank (by omega)
    simp only [List.map_append, List.append_assoc, List.append_nil] at hfirst ⊢
    rw [readItems, hfirst]
    simp only [skipSpace_blank hclose, skipSpace_cons (show isSpace (some ']') = false by decide)]
    rfl
  | w :: ws, v, item, tail, close, hv, htail, hclose, fuel + 1, blank, hblank, hfuel, rest => by
    obtain ⟨blank', item', tail', hblank', hitem', htail', rfl⟩ := htail
    have hlength : item'.length + tail'.length + 1 < fuel := by
      simp only [List.length_cons, List.length_append] at hfuel
      omega
    have hfirst := hv fuel blank
      (some ',' :: ((blank' ++ item' ++ tail' ++ close).map some ++ some ']' :: rest)) hblank
      (by omega)
    have hnext := readItems_of_spells ws (reads_of_spells w hitem') htail' hclose hblank' hlength
      rest
    simp only [List.map_append, List.map_cons, List.append_assoc, List.cons_append]
      at hfirst hnext ⊢
    rw [readItems, hfirst]
    simp only [skipSpace_cons (show isSpace (some ',') = false by decide)]
    rw [hnext]
    rfl

theorem readMembers_of_spells : ∀ (members : List (String × Value)) (k : String) {v : Value}
    {item tail close : List Char},
    Reads v item → SpellsMembers members tail → IsBlank close →
    ∀ {fuel : Nat} {blank gap : List Char}, IsBlank blank → IsBlank gap →
    item.length + tail.length + 1 < fuel →
    ∀ (rest : List Symbol),
      readMembers fuel ((blank ++ writeString k ++ ':' :: (gap ++ item ++ tail ++ close)).map some ++
          some '\x7d' :: rest) =
        ((.text k, ofValue v) :: ofMembers members, true, rest)
  | members, k, v, item, tail, close, hv, htail, hclose, 0, blank, gap, hblank, hgap, hfuel, rest =>
    absurd hfuel (Nat.not_lt_zero _)
  | [], k, v, item, tail, close, hv, htail, hclose, fuel + 1, blank, gap, hblank, hgap, hfuel,
      rest => by
    obtain rfl := htail
    have hfirst := hv fuel gap (close.map some ++ some '\x7d' :: rest) hgap (by omega)
    have hkey := readString_written k
      (some ':' :: ((gap ++ item ++ close).map some ++ some '\x7d' :: rest))
    simp only [writeString, List.map_append, List.map_cons, List.map_nil, List.append_assoc,
      List.cons_append, List.nil_append, List.append_nil] at hfirst hkey ⊢
    rw [readMembers, skipSpace_blank hblank, skipSpace_cons (by decide)]
    simp only [hkey, skipSpace_cons (show isSpace (some ':') = false by decide)]
    rw [hfirst]
    simp only [skipSpace_blank hclose,
      skipSpace_cons (show isSpace (some '\x7d') = false by decide)]
    rfl
  | (k', w) :: members, k, v, item, tail, close, hv, htail, hclose, fuel + 1, blank, gap, hblank,
      hgap, hfuel, rest => by
    obtain ⟨blank', gap', item', tail', hblank', hgap', hitem', htail', rfl⟩ := htail
    have hlength : item'.length + tail'.length + 1 < fuel := by
      simp only [List.length_cons, List.length_append] at hfuel
      omega
    have hfirst := hv fuel gap
      (some ',' :: ((blank' ++ writeString k' ++ ':' :: (gap' ++ item' ++ tail' ++ close)).map some ++
        some '\x7d' :: rest)) hgap (by omega)
    have hnext := readMembers_of_spells members k' (reads_of_spells w hitem') htail' hclose hblank'
      hgap' hlength rest
    have hkey := readString_written k
      (some ':' :: ((gap ++ item).map some ++ some ',' ::
        ((blank' ++ writeString k' ++ ':' :: (gap' ++ item' ++ tail' ++ close)).map some ++
          some '\x7d' :: rest)))
    simp only [writeString, List.map_append, List.map_cons, List.map_nil, List.append_assoc,
      List.cons_append, List.nil_append] at hfirst hkey hnext ⊢
    rw [readMembers, skipSpace_blank hblank, skipSpace_cons (by decide)]
    simp only [hkey, skipSpace_cons (show isSpace (some ':') = false by decide)]
    rw [hfirst]
    simp only [skipSpace_cons (show isSpace (some ',') = false by decide)]
    rw [hnext]
    rfl

end

theorem read_of_spells {v : Value} {item : List Char} (h : Spells v item) (rest : List Symbol) :
    read (item.map some ++ rest) = (ofValue v, rest) := by
  have hlength : item.length < (item.map some ++ rest).length + 1 := by
    rw [List.length_append, List.length_map]
    omega
  exact reads_of_spells v h _ [] rest isBlank_nil hlength

end Document

theorem decodeBytes_encode {α : Type} (decoder : Decoder α) (text : String) :
    decodeBytes decoder (Text.Utf8.encode text) = decodeText decoder text := by
  rw [decodeBytes, Text.Utf8.decode_encode, decodeText]

theorem decode_of_spells {α : Type} (decoder : Decoder α) {v : Value} {item blank : List Char}
    (h : Document.Spells v item) (hblank : Document.IsBlank blank) :
    decode decoder ((item ++ blank).map some) = decoder maxDepth (Document.ofValue v) := by
  have hrest : Document.skipSpace (blank.map some) = [] := by
    have hskip := Document.skipSpace_blank hblank []
    rwa [List.append_nil] at hskip
  simp only [decode, List.map_append, Document.read_of_spells h, hrest, List.isEmpty_nil, if_true]
  cases decoder maxDepth (Document.ofValue v) <;> rfl

mutual

def Value.Wordy : Value → Prop
  | .null => True
  | .bool _ => True
  | .number _ => False
  | .string _ => True
  | .array items => WordyItems items
  | .object members => WordyMembers members

def WordyItems : List Value → Prop
  | [] => True
  | v :: vs => v.Wordy ∧ WordyItems vs

def WordyMembers : List (String × Value) → Prop
  | [] => True
  | (_, v) :: rest => v.Wordy ∧ WordyMembers rest

end

namespace Document

mutual

theorem spells_write : ∀ (v : Value), v.Wordy → Spells v v.write
  | .null, _ => rfl
  | .bool _, _ => rfl
  | .number _, h => h.elim
  | .string _, _ => rfl
  | .array [], _ => rfl
  | .array (v :: vs), h => by
    obtain ⟨tail, htail, hwrite⟩ := spells_writeItems v vs h.2
    refine ⟨[], v.write, tail, [], isBlank_nil, spells_write v h.1, htail, isBlank_nil, ?_⟩
    simp only [Value.write, hwrite, List.nil_append, List.append_nil, List.append_assoc]
  | .object [], _ => rfl
  | .object ((k, v) :: rest), h => by
    obtain ⟨tail, htail, hwrite⟩ := spells_writeMembers k v rest h.2
    refine ⟨[], [], v.write, tail, [], isBlank_nil, isBlank_nil, spells_write v h.1, htail,
      isBlank_nil, ?_⟩
    simp only [Value.write, hwrite, List.nil_append, List.append_nil, List.append_assoc,
      List.cons_append]

theorem spells_writeItems : ∀ (v : Value) (vs : List Value), WordyItems vs →
    ∃ tail, SpellsItems vs tail ∧ writeItems (v :: vs) = v.write ++ tail
  | v, [], _ => ⟨[], rfl, by simp only [writeItems, List.append_nil]⟩
  | v, w :: ws, h => by
    obtain ⟨tail, htail, hwrite⟩ := spells_writeItems w ws h.2
    refine ⟨',' :: (w.write ++ tail), ⟨[], w.write, tail, isBlank_nil, spells_write w h.1, htail,
      rfl⟩, ?_⟩
    rw [writeItems, hwrite]
    exact List.cons_ne_nil _ _

theorem spells_writeMembers : ∀ (k : String) (v : Value) (members : List (String × Value)),
    WordyMembers members →
    ∃ tail, SpellsMembers members tail ∧
      writeMembers ((k, v) :: members) = writeString k ++ ':' :: (v.write ++ tail)
  | k, v, [], _ => ⟨[], rfl, by simp only [writeMembers, List.append_nil]⟩
  | k, v, (k', w) :: members, h => by
    obtain ⟨tail, htail, hwrite⟩ := spells_writeMembers k' w members h.2
    refine ⟨',' :: (writeString k' ++ ':' :: (w.write ++ tail)), ⟨[], [], w.write, tail,
      isBlank_nil, isBlank_nil, spells_write w h.1, htail, rfl⟩, ?_⟩
    rw [writeMembers, hwrite]
    exact List.cons_ne_nil _ _

end

theorem isBlank_newline (depth : Nat) : IsBlank (newline depth) := by
  intro c hc
  rcases List.mem_cons.1 hc with rfl | hc
  · rfl
  · rw [List.eq_of_mem_replicate hc]
    rfl

theorem isBlank_space : IsBlank [' '] := by
  intro c hc
  rw [List.mem_singleton.1 hc]
  rfl

mutual

theorem spells_writePretty : ∀ (v : Value) (depth : Nat), v.Wordy →
    Spells v (v.writePretty depth)
  | .null, _, _ => rfl
  | .bool _, _, _ => rfl
  | .number _, _, h => h.elim
  | .string _, _, _ => rfl
  | .array [], _, _ => rfl
  | .array (v :: vs), depth, h => by
    refine ⟨newline (depth + 1), v.writePretty (depth + 1), prettyItems (depth + 1) vs,
      newline depth, isBlank_newline _, spells_writePretty v _ h.1, spells_prettyItems vs _ h.2,
      isBlank_newline _, ?_⟩
    simp only [Value.writePretty, List.cons_append]
  | .object [], _, _ => rfl
  | .object ((k, v) :: rest), depth, h => by
    refine ⟨newline (depth + 1), [' '], v.writePretty (depth + 1), prettyMembers (depth + 1) rest,
      newline depth, isBlank_newline _, isBlank_space, spells_writePretty v _ h.1,
      spells_prettyMembers rest _ h.2, isBlank_newline _, ?_⟩
    simp only [Value.writePretty, List.cons_append, List.append_assoc, List.nil_append]

theorem spells_prettyItems : ∀ (vs : List Value) (depth : Nat), WordyItems vs →
    SpellsItems vs (prettyItems depth vs)
  | [], _, _ => rfl
  | v :: vs, depth, h => by
    refine ⟨newline depth, v.writePretty depth, prettyItems depth vs, isBlank_newline _,
      spells_writePretty v _ h.1, spells_prettyItems vs _ h.2, ?_⟩
    simp only [prettyItems, List.cons_append]

theorem spells_prettyMembers : ∀ (members : List (String × Value)) (depth : Nat),
    WordyMembers members → SpellsMembers members (prettyMembers depth members)
  | [], _, _ => rfl
  | (k, v) :: members, depth, h => by
    refine ⟨newline depth, [' '], v.writePretty depth, prettyMembers depth members,
      isBlank_newline _, isBlank_space, spells_writePretty v _ h.1,
      spells_prettyMembers members _ h.2, ?_⟩
    simp only [prettyMembers, List.cons_append, List.append_assoc, List.nil_append]

end

end Document

theorem decodeText_compact {α : Type} (decoder : Decoder α) {v : Value} (h : v.Wordy)
    {blank : String} (hblank : Document.IsBlank blank.toList) :
    decodeText decoder (v.compact ++ blank) = decoder maxDepth (Document.ofValue v) := by
  rw [decodeText, String.toList_append, Value.compact, String.toList_ofList]
  exact decode_of_spells decoder (Document.spells_write v h) hblank

theorem decodeText_pretty {α : Type} (decoder : Decoder α) {v : Value} (h : v.Wordy) :
    decodeText decoder v.pretty = decoder maxDepth (Document.ofValue v) := by
  rw [decodeText, Value.pretty, String.toList_ofList]
  have hdecode := decode_of_spells decoder (Document.spells_writePretty v 0 h) Document.isBlank_nil
  rwa [List.append_nil] at hdecode

theorem lineEnd_notMem_writeChar (c : Char) : '\n' ∉ writeChar c := by
  have hdigit : ∀ n < 0x20, '\n' ∉
      ['\\', 'u', '0', '0', hexDigit (n / 16), hexDigit (n % 16)] := by decide
  unfold writeChar
  split_ifs with _ _ hend _ _ _ _ hcontrol
  any_goals decide
  · exact hdigit _ hcontrol
  · exact fun h => hend (List.mem_singleton.1 h).symm

theorem lineEnd_notMem_writeString (s : String) : '\n' ∉ writeString s := by
  simp only [writeString, List.mem_cons, List.mem_append, List.mem_flatMap, List.not_mem_nil,
    or_false, not_or, not_exists, not_and]
  exact ⟨by decide, fun c _ => lineEnd_notMem_writeChar c, by decide⟩

mutual

theorem lineEnd_notMem_write : ∀ v : Value, v.Wordy → '\n' ∉ v.write
  | .null, _ => by decide
  | .bool b, _ => by cases b <;> decide
  | .number _, h => h.elim
  | .string s, _ => lineEnd_notMem_writeString s
  | .array items, h => by
    simp [Value.write, lineEnd_notMem_writeItems items h]
  | .object members, h => by
    simp [Value.write, lineEnd_notMem_writeMembers members h]

theorem lineEnd_notMem_writeItems : ∀ vs : List Value, WordyItems vs → '\n' ∉ writeItems vs
  | [], _ => List.not_mem_nil
  | [v], h => by
    rw [writeItems]
    exact lineEnd_notMem_write v h.1
  | v :: w :: vs, h => by
    simp [writeItems, lineEnd_notMem_write v h.1, lineEnd_notMem_writeItems (w :: vs) h.2]

theorem lineEnd_notMem_writeMembers : ∀ members : List (String × Value), WordyMembers members →
    '\n' ∉ writeMembers members
  | [], _ => List.not_mem_nil
  | [(k, v)], h => by
    simp [writeMembers, lineEnd_notMem_writeString k, lineEnd_notMem_write v h.1]
  | (k, v) :: m :: rest, h => by
    simp [writeMembers, lineEnd_notMem_writeString k, lineEnd_notMem_write v h.1,
      lineEnd_notMem_writeMembers (m :: rest) h.2]

end

end Provision.Json
