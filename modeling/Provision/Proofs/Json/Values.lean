import Provision.Proofs.Json.Numbers
import Provision.Proofs.Json.Reading

/-!
# The values of phrases

A phrase has a value exactly if it fits. Of members with one name the last counts, and the value of
a member is a natural number exactly if the member is the numeral of a word. So bytes decode to a
value exactly if they are the text of a document that fits, and the value is that of its phrase.
What stands last in an object reads as it does alone.
-/

namespace Provision.Json

def Literal.numeral (n : Nat) : Literal := ⟨false, Nat.toDigits 10 n, none, none⟩

theorem Number.ofLiteral_numeral {n m : Nat} :
    ofLiteral (.numeral n) = some (.natural m) ↔ n = m ∧ m < wordLimit := by
  rw [ofLiteral_eq_natural, Literal.numeral, digitsValue_toDigits]
  exact ⟨fun h => h.2.2.2, fun h => ⟨rfl, rfl, rfl, h⟩⟩

namespace Phrase

theorem IsWhole.eq_toDigits {ds : List Char} (h : IsWhole ds) :
    ds = Nat.toDigits 10 (digitsValue ds) := by
  obtain ⟨⟨hne, hall⟩, hzero⟩ := h
  obtain ⟨zeros, hds⟩ := exists_zeros hne hall
  cases zeros with
  | zero => exact hds
  | succ zeros =>
    have halone := hzero (by rw [hds]; rfl)
    rw [halone]
    rfl

theorem isWhole_toDigits (n : Nat) : IsWhole (Nat.toDigits 10 n) := by
  refine ⟨⟨Nat.toDigits_ne_nil, fun c hc => isDigit_toDigits hc⟩, fun hhead => ?_⟩
  by_cases hn : n = 0
  · rw [hn]
    rfl
  · exact absurd hhead (head_toDigits hn)

theorem size_toDigits (minus : Bool) (n : Nat) :
    SizeWrittenAs ⟨minus, Nat.toDigits 10 n, none, none⟩ (Nat.toDigits 10 n) :=
  ⟨isWhole_toDigits n, [], [], .none, .none, (List.append_nil _).symm⟩

theorem numeral_written (n : Nat) : WrittenAs (.number (.numeral n)) (Nat.toDigits 10 n) :=
  .number (.plain rfl (size_toDigits false n))

theorem fits_numeral {n : Nat} (h : n < Number.wordLimit) (room : Nat) :
    (number (.numeral n)).Fits room := by
  rw [Fits, ← Number.isSome_ofLiteral, Number.ofLiteral_numeral.2 ⟨rfl, h⟩]
  rfl

theorem ofLiteral_natural_iff {l : Literal} {cs : List Char} {n : Nat}
    (h : NumberWrittenAs l cs) :
    Number.ofLiteral l = some (.natural n) ↔ l = .numeral n ∧ n < Number.wordLimit := by
  have hwhole : IsWhole l.whole := by
    cases h with
    | plain _ hsize => exact hsize.1
    | minus _ hsize => exact hsize.1
  constructor
  · intro hnatural
    obtain ⟨hminus, hfraction, hexponent, hsize, hlt⟩ := Number.ofLiteral_eq_natural.1 hnatural
    refine ⟨?_, hlt⟩
    have hdigits := hwhole.eq_toDigits
    rw [hsize] at hdigits
    cases l
    cases hminus
    cases hfraction
    cases hexponent
    exact congrArg (Literal.mk false · none none) hdigits
  · rintro ⟨rfl, hlt⟩
    exact Number.ofLiteral_numeral.2 ⟨rfl, hlt⟩

mutual

theorem exists_value : ∀ (p : Phrase) (room : Nat),
    (∃ v, p.document.toValue room = .ok v) ↔ p.Fits room
  | null, _ => ⟨fun _ => trivial, fun _ => ⟨.null, rfl⟩⟩
  | bool b, _ => ⟨fun _ => trivial, fun _ => ⟨.bool b, rfl⟩⟩
  | number l, _ => by
    rw [document, Fits, ← Number.isSome_ofLiteral]
    cases Number.ofLiteral l with
    | none => exact ⟨fun ⟨_, h⟩ => (nomatch h), fun h => (nomatch h)⟩
    | some n => exact ⟨fun _ => rfl, fun _ => ⟨.number n, rfl⟩⟩
  | string s, _ => ⟨fun _ => trivial, fun _ => ⟨.string s, rfl⟩⟩
  | array items, 0 => ⟨fun ⟨_, h⟩ => (nomatch h), False.elim⟩
  | array items, room + 1 => by
    refine Iff.trans ?_ (exists_itemValues items room)
    constructor
    · rintro ⟨_, h⟩
      obtain ⟨vs, hvs, -⟩ := Result.bind_eq_ok.1 h
      exact ⟨vs, hvs⟩
    · rintro ⟨vs, hvs⟩
      exact ⟨.array vs, Result.bind_eq_ok.2 ⟨vs, hvs, rfl⟩⟩
  | object members, 0 => ⟨fun ⟨_, h⟩ => (nomatch h), False.elim⟩
  | object members, room + 1 => by
    refine Iff.trans ?_ (exists_memberValues members room {})
    constructor
    · rintro ⟨_, h⟩
      obtain ⟨d, hd, -⟩ := Result.bind_eq_ok.1 h
      exact ⟨d, hd⟩
    · rintro ⟨d, hd⟩
      exact ⟨.ofDict d, Result.bind_eq_ok.2 ⟨d, hd, rfl⟩⟩

theorem exists_itemValues : ∀ (ps : List Phrase) (room : Nat),
    (∃ vs, Document.itemValues room (documents ps) true = .ok vs) ↔ FitItems room ps
  | [], _ => ⟨fun _ => trivial, fun _ => ⟨[], rfl⟩⟩
  | p :: ps, room => by
    refine Iff.trans ?_ (and_congr (exists_value p room) (exists_itemValues ps room))
    constructor
    · rintro ⟨_, h⟩
      obtain ⟨v, hv, h⟩ := Result.bind_eq_ok.1 h
      obtain ⟨vs, hvs, -⟩ := Result.bind_eq_ok.1 h
      exact ⟨⟨v, hv⟩, ⟨vs, hvs⟩⟩
    · rintro ⟨⟨v, hv⟩, ⟨vs, hvs⟩⟩
      exact ⟨v :: vs, Result.bind_eq_ok.2 ⟨v, hv, Result.bind_eq_ok.2 ⟨vs, hvs, rfl⟩⟩⟩

theorem exists_memberValues : ∀ (ms : List (String × Phrase)) (room : Nat) (acc : Dict Value),
    (∃ d, Document.memberValues room acc (memberDocuments ms) true = .ok d) ↔ FitMembers room ms
  | [], _, acc => ⟨fun _ => trivial, fun _ => ⟨acc, rfl⟩⟩
  | (k, p) :: ms, room, acc => by
    constructor
    · rintro ⟨d, h⟩
      obtain ⟨v, hv, h⟩ := Result.bind_eq_ok.1 h
      exact ⟨(exists_value p room).1 ⟨v, hv⟩, (exists_memberValues ms room _).1 ⟨d, h⟩⟩
    · rintro ⟨hp, hms⟩
      obtain ⟨v, hv⟩ := (exists_value p room).2 hp
      obtain ⟨d, hd⟩ := (exists_memberValues ms room (acc.insert k v)).2 hms
      exact ⟨d, Result.bind_eq_ok.2 ⟨v, hv, hd⟩⟩

end

variable {k : String} {ms : List (String × Phrase)} {p : Phrase} {cs : List Char}

theorem lastNamed_cons (k : String) (m : String × Phrase) (ms : List (String × Phrase)) :
    lastNamed k (m :: ms) = (lastNamed k ms).or (if m.1 = k then some m.2 else none) := by
  unfold lastNamed
  rw [List.reverse_cons, List.find?_append]
  cases ms.reverse.find? (·.1 = k) with
  | some e => rfl
  | none =>
    by_cases hk : m.1 = k
    · simp [hk]
    · simp [hk]

theorem get?_memberValues {room : Nat} {acc d : Dict Value}
    (h : Document.memberValues room acc (memberDocuments ms) true = .ok d) :
    match lastNamed k ms with
    | some p => ∃ v, p.document.toValue room = .ok v ∧ d.get? k = some v
    | none => d.get? k = acc.get? k := by
  induction ms generalizing acc with
  | nil =>
    cases h
    rfl
  | cons m ms ih =>
    obtain ⟨k', p⟩ := m
    obtain ⟨v, hv, hrest⟩ := Result.bind_eq_ok.1 h
    have hlast := ih hrest
    rw [lastNamed_cons]
    cases hk : lastNamed k ms with
    | some q =>
      rw [hk] at hlast
      exact hlast
    | none =>
      rw [hk] at hlast
      rw [Dict.get?_insert] at hlast
      by_cases heq : k' = k
      · rw [if_pos heq] at hlast
        simp only [Option.none_or, heq, if_true]
        exact ⟨v, hv, hlast⟩
      · rw [if_neg heq] at hlast
        simp only [Option.none_or, heq, if_false]
        exact hlast

theorem exists_written (h : MembersWrittenAs ms cs) :
    ∀ m ∈ ms, ∃ item, WrittenAs m.2 item := by
  induction ms generalizing cs with
  | nil => exact fun _ hm => absurd hm List.not_mem_nil
  | cons m ms ih =>
    have hpadded {p : Phrase} {cs : List Char} (hp : PaddedWrittenAs p cs) :
        ∃ item, WrittenAs p item := by
      obtain ⟨-, hitem, -⟩ := hp
      exact ⟨_, hitem⟩
    rw [List.forall_mem_cons]
    cases h with
    | last _ _ _ hp => exact ⟨hpadded hp, fun _ hm => absurd hm List.not_mem_nil⟩
    | more _ _ _ hp htail => exact ⟨hpadded hp, ih htail⟩

theorem mem_of_lastNamed (h : lastNamed k ms = some p) : (k, p) ∈ ms := by
  obtain ⟨⟨k', p'⟩, hfind, rfl⟩ := Option.map_eq_some_iff.1 h
  have hk : k' = k := by simpa using List.find?_some hfind
  rw [← hk]
  exact List.mem_reverse.1 (List.mem_of_find?_eq_some hfind)

/-- Only the numeral of a word has a natural number for a value. -/
theorem toValue_natural_iff {room n : Nat} (h : WrittenAs p cs) :
    p.document.toValue room = .ok (.number (.natural n)) ↔
      p = .number (.numeral n) ∧ n < Number.wordLimit := by
  constructor
  · intro hv
    have hleaf := Document.leaf_of_toValue (v := .number (.natural n)) trivial hv
    cases p with
    | number l =>
      cases h with
      | number hl =>
        obtain ⟨rfl, hlt⟩ := (ofLiteral_natural_iff hl).1 (Document.number.inj hleaf)
        exact ⟨rfl, hlt⟩
    | _ => cases hleaf
  · rintro ⟨rfl, hlt⟩
    cases h with
    | number hl =>
      have hnatural := (ofLiteral_natural_iff hl).2 ⟨rfl, hlt⟩
      rw [document, hnatural]
      rfl

end Phrase

namespace Document

def EndsIn (item : List Char) (d : Document) : Prop :=
  ∀ fuel l, item.length < fuel →
    readValue fuel (item.map some ++ some '\x7d' :: l) = (d, some '\x7d' :: l)

theorem endsIn_write {v : Value} (h : v.Wordy) : EndsIn v.write (ofValue v) := by
  intro fuel l hfuel
  exact reads_of_spells v (spells_write v h) fuel [] (some '\x7d' :: l) isBlank_nil hfuel

theorem endsIn_written {p : Phrase} {item : List Char} (h : Phrase.WrittenAs p item) :
    EndsIn item p.document := fun fuel l hfuel =>
  (readsWritten fuel).value h (endsNumber_cons (.inr (.inr rfl)) l) hfuel

theorem endsIn_numeral (n : Nat) :
    EndsIn (Nat.toDigits 10 n) (number (Number.ofLiteral (.numeral n))) :=
  endsIn_written (Phrase.numeral_written n)

theorem endsIn_minus (n : Nat) :
    EndsIn ('-' :: Nat.toDigits 10 n)
      (number (Number.ofLiteral ⟨true, Nat.toDigits 10 n, none, none⟩)) :=
  endsIn_written (.number (.minus rfl (Phrase.size_toDigits true n)))

theorem readMembers_last (key : String) {item : List Char} {d : Document} (h : EndsIn item d)
    {fuel : Nat} (hfuel : item.length < fuel) (l : List Symbol) :
    readMembers (fuel + 1) ((writeString key ++ ':' :: item).map some ++ some '\x7d' :: l) =
      ([(.text key, d)], true, l) := by
  have hkey := readString_written key (some ':' :: (item.map some ++ some '\x7d' :: l))
  simp only [writeString, List.map_append, List.map_cons, List.map_nil, List.append_assoc,
    List.cons_append, List.nil_append] at hkey ⊢
  rw [readMembers, skipSpace_cons (by decide)]
  simp only [hkey, skipSpace_cons (show isSpace (some ':') = false by decide)]
  rw [h fuel l hfuel]
  simp only [skipSpace_cons (show isSpace (some '\x7d') = false by decide)]
  rfl

theorem readMembers_string (key : String) {s : String} {members : List (Key × Document)}
    {closed : Bool} {fuel : Nat} (hfuel : (writeString s).length < fuel) {tail l : List Symbol}
    (h : readMembers fuel tail = (members, closed, l)) :
    readMembers (fuel + 1)
        ((writeString key ++ ':' :: writeString s).map some ++ some ',' :: tail) =
      ((.text key, string (some s)) :: members, closed, l) := by
  have hvalue := reads_string s fuel [] (some ',' :: tail) isBlank_nil hfuel
  have hkey := readString_written key (some ':' :: ((writeString s).map some ++ some ',' :: tail))
  simp only [writeString, List.map_append, List.map_cons, List.map_nil, List.append_assoc,
    List.cons_append, List.nil_append] at hvalue hkey ⊢
  rw [readMembers, skipSpace_cons (by decide)]
  simp only [hkey, skipSpace_cons (show isSpace (some ':') = false by decide)]
  rw [hvalue]
  simp only [skipSpace_cons (show isSpace (some ',') = false by decide), h]
  rfl

end Document

theorem decode_value_iff {l : List Symbol} {v : Value} :
    decode Decoder.value l = .ok v ↔
      ∃ (p : Phrase) (cs : List Char), Phrase.PaddedWrittenAs p cs ∧ l = cs.map some ∧
        p.document.toValue maxDepth = .ok v := by
  constructor
  · intro h
    cases hread : Document.read l with | mk d rest
    rw [decode, hread] at h
    obtain ⟨v', hv, h⟩ := Result.bind_eq_ok.1 h
    split at h
    · next hend =>
      cases h
      obtain ⟨p, cs, hl, hp, rfl⟩ := (Document.readsOnlyWritten _).padded hread hv
      rw [List.isEmpty_iff.1 hend, List.append_nil] at hl
      exact ⟨p, cs, hp, hl, hv⟩
    · cases h
  · rintro ⟨p, cs, hp, rfl, hv⟩
    have hends : Document.EndsNumber [] := by
      intro s hs
      cases hs
    have hlength : cs.length < (cs.map some).length + 1 := by
      rw [List.length_map]
      exact Nat.lt_succ_self _
    obtain ⟨rest, hread, hskip⟩ := (Document.readsWritten _).padded hp hends hlength
    rw [List.append_nil] at hread
    have hend : (Document.skipSpace rest).isEmpty = true := by rw [hskip]; rfl
    rw [decode, Document.read, hread]
    refine Result.bind_eq_ok.2 ⟨v, hv, ?_⟩
    rw [if_pos hend]
    rfl

/-- Bytes decode to a value exactly if they are the text of one document that has it. -/
theorem decodeBytes_value {raw : Bytes} {v : Value} :
    decodeBytes Decoder.value raw = .ok v ↔
      ∃ p : Phrase, p.IsWrittenIn raw ∧ p.document.toValue maxDepth = .ok v := by
  rw [decodeBytes, decode_value_iff]
  constructor
  · rintro ⟨p, cs, hp, hraw, hv⟩
    exact ⟨p, ⟨(Phrase.exists_value p maxDepth).1 ⟨v, hv⟩, cs, hp,
      Text.Utf8.decode_eq_iff.1 hraw⟩, hv⟩
  · rintro ⟨p, ⟨-, cs, hp, hraw⟩, hv⟩
    exact ⟨p, cs, hp, Text.Utf8.decode_eq_iff.2 hraw, hv⟩

end Provision.Json
