import Provision.Proofs.Json.Values
import Provision.Proofs.Lifecycle.Refusal

/-!
# Which state documents have a serial

Bytes have a serial exactly if they are the text of an object whose last `serial` at the top level
is the numeral of a word, and that word is the serial. Bytes that are no document, documents without
the member and documents whose member is anything else are told apart by the text of the error,
which is always that of a malformed state.
-/

namespace Provision.Lifecycle

open Provision.Json (Literal Number Phrase Value decodeBytes digitsValue maxDepth)
open Provision.Json.Number (wordLimit)

/-- What the document states as its serial: the last member of the name, at the top level only. -/
def stated : Phrase → Option Phrase
  | .object members => Phrase.lastNamed "serial" members
  | _ => none

/-- The phrases that are no serial. A sign, a point or an exponent disqualifies also a number that
is equal to a word, and so do quotes around one. -/
inductive Unusable : Phrase → Prop
  | null : Unusable .null
  | bool (b : Bool) : Unusable (.bool b)
  | string (s : String) : Unusable (.string s)
  | array (items : List Phrase) : Unusable (.array items)
  | object (members : List (String × Phrase)) : Unusable (.object members)
  | minus {l : Literal} (sign : l.minus = true) : Unusable (.number l)
  | fraction {l : Literal} (point : l.fraction ≠ none) : Unusable (.number l)
  | exponent {l : Literal} (letter : l.exponent ≠ none) : Unusable (.number l)
  | large {l : Literal} (size : wordLimit ≤ digitsValue l.whole) : Unusable (.number l)

variable {raw : Bytes} {p q : Phrase} {v : Value} {n room : Nat}

theorem Unusable.ne_numeral (h : Unusable p) (hn : n < wordLimit) : p ≠ .number (.numeral n) := by
  rintro rfl
  cases h with
  | minus sign => cases sign
  | fraction point => exact point rfl
  | exponent letter => exact letter rfl
  | large size =>
    rw [Literal.numeral, digitsValue_toDigits] at size
    exact Nat.not_lt.2 size hn

theorem numeral_or_unusable {cs : List Char} (h : Phrase.WrittenAs p cs) :
    (∃ n, p = .number (.numeral n) ∧ n < wordLimit) ∨ Unusable p := by
  cases p with
  | null => exact .inr .null
  | bool b => exact .inr (.bool b)
  | string s => exact .inr (.string s)
  | array items => exact .inr (.array items)
  | object members => exact .inr (.object members)
  | number l =>
    by_cases hminus : l.minus = true
    · exact .inr (.minus hminus)
    by_cases hfraction : l.fraction = none
    · by_cases hexponent : l.exponent = none
      · by_cases hsize : wordLimit ≤ digitsValue l.whole
        · exact .inr (.large hsize)
        · cases h with
          | number hwritten =>
            have hnatural := Number.ofLiteral_eq_natural.2 ⟨Bool.not_eq_true _ ▸ hminus,
              hfraction, hexponent, rfl, Nat.not_le.1 hsize⟩
            obtain ⟨hl, hn⟩ := (Phrase.ofLiteral_natural_iff hwritten).1 hnatural
            exact .inl ⟨_, congrArg Phrase.number hl, hn⟩
      · exact .inr (.exponent hexponent)
    · exact .inr (.fraction hfraction)

theorem serialMember_ofDict (d : Dict Value) : serialMember (.ofDict d) = d.get? "serial" := by
  rw [Value.ofDict, serialMember, Dict.get?]
  induction d.entries with
  | nil => rfl
  | cons e rest ih =>
    obtain ⟨k, value⟩ := e
    by_cases hk : k = "serial"
    · simp [Dict.find, hk]
    · simp [Dict.find, hk, ih]

theorem serialMember_toValue (h : p.document.toValue (room + 1) = .ok v) :
    match stated p with
    | some q => ∃ value, q.document.toValue room = .ok value ∧ serialMember v = some value
    | none => serialMember v = none := by
  cases p with
  | number l =>
    cases hl : Number.ofLiteral l with
    | none =>
      rw [Phrase.document, hl] at h
      cases h
    | some x =>
      rw [Phrase.document, hl] at h
      cases h
      rfl
  | array items =>
    obtain ⟨values, -, h⟩ := Json.Result.bind_eq_ok.1 h
    cases h
    rfl
  | object members =>
    obtain ⟨d, hd, h⟩ := Json.Result.bind_eq_ok.1 h
    cases h
    rw [serialMember_ofDict, stated]
    exact Phrase.get?_memberValues hd
  | _ =>
    cases h
    rfl

theorem exists_written_stated (h : p.IsWrittenIn raw) (hq : stated p = some q) :
    ∃ cs, Phrase.WrittenAs q cs := by
  cases p with
  | object members =>
    have hmem := Phrase.mem_of_lastNamed hq
    obtain ⟨-, -, ⟨-, hwritten, -⟩, -⟩ := h
    cases hwritten with
    | emptyObject => exact absurd hmem List.not_mem_nil
    | object hmembers => exact Phrase.exists_written hmembers _ hmem
  | _ => cases hq

theorem parseSerial_unreadable (h : ∀ p : Phrase, ¬ p.IsWrittenIn raw) :
    parseSerial raw = .error (unreadable raw) := by
  unfold parseSerial
  cases hdecoded : decodeBytes Json.Decoder.value raw with
  | error e => rfl
  | ok v =>
    obtain ⟨p, hp, -⟩ := Json.decodeBytes_value.1 hdecoded
    exact absurd hp (h p)

theorem exists_decoded (h : p.IsWrittenIn raw) :
    ∃ v, p.document.toValue maxDepth = .ok v ∧
      decodeBytes Json.Decoder.value raw = .ok v := by
  obtain ⟨v, hv⟩ := (Phrase.exists_value p maxDepth).2 h.1
  exact ⟨v, hv, Json.decodeBytes_value.2 ⟨p, h, hv⟩⟩

theorem parseSerial_of_none (h : p.IsWrittenIn raw) (hp : stated p = none) :
    parseSerial raw = .error (.malformedState "State has no 'serial' field") := by
  obtain ⟨v, hv, hdecoded⟩ := exists_decoded h
  have hmember := serialMember_toValue hv
  rw [hp] at hmember
  simp only [parseSerial, hdecoded, hmember]

theorem exists_member (h : p.IsWrittenIn raw) (hp : stated p = some q) :
    ∃ v value, decodeBytes Json.Decoder.value raw = .ok v ∧ serialMember v = some value ∧
      q.document.toValue (maxDepth - 1) = .ok value := by
  obtain ⟨v, hv, hdecoded⟩ := exists_decoded h
  have hmember := serialMember_toValue hv
  rw [hp] at hmember
  obtain ⟨value, hvalue, hmember⟩ := hmember
  exact ⟨v, value, hdecoded, hmember, hvalue⟩

theorem parseSerial_of_numeral (h : p.IsWrittenIn raw)
    (hp : stated p = some (.number (.numeral n))) (hn : n < wordLimit) :
    parseSerial raw = .ok n := by
  obtain ⟨v, value, hdecoded, hmember, hvalue⟩ := exists_member h hp
  obtain ⟨cs, hwritten⟩ := exists_written_stated h hp
  rw [(Phrase.toValue_natural_iff hwritten).2 ⟨rfl, hn⟩] at hvalue
  cases hvalue
  simp only [parseSerial, hdecoded, hmember]

theorem exists_parseSerial_of_unusable (h : p.IsWrittenIn raw) (hp : stated p = some q)
    (hq : Unusable q) :
    ∃ value, q.document.toValue (maxDepth - 1) = .ok value ∧ parseSerial raw =
      .error (.malformedState
        ("Expected number value for 'serial' but got '" ++ value.compact ++ "'")) := by
  obtain ⟨v, value, hdecoded, hmember, hvalue⟩ := exists_member h hp
  obtain ⟨cs, hwritten⟩ := exists_written_stated h hp
  refine ⟨value, hvalue, ?_⟩
  simp only [parseSerial, hdecoded, hmember]
  split
  · next heq => cases heq
  · next n heq =>
    cases heq
    obtain ⟨hnumeral, hn⟩ := (Phrase.toValue_natural_iff hwritten).1 hvalue
    exact absurd hnumeral (hq.ne_numeral hn)
  · next heq =>
    cases heq
    rfl

theorem exists_numeral (h : parseSerial raw = .ok n) :
    ∃ p : Phrase, p.IsWrittenIn raw ∧ stated p = some (.number (.numeral n)) ∧ n < wordLimit := by
  by_cases hraw : ∃ p : Phrase, p.IsWrittenIn raw
  · obtain ⟨p, hp⟩ := hraw
    cases hstated : stated p with
    | none =>
      rw [parseSerial_of_none hp hstated] at h
      cases h
    | some q =>
      obtain ⟨cs, hwritten⟩ := exists_written_stated hp hstated
      rcases numeral_or_unusable hwritten with ⟨m, rfl, hm⟩ | hunusable
      · rw [parseSerial_of_numeral hp hstated hm] at h
        cases h
        exact ⟨p, hp, hstated, hm⟩
      · obtain ⟨value, -, herror⟩ := exists_parseSerial_of_unusable hp hstated hunusable
        rw [herror] at h
        cases h
  · rw [parseSerial_unreadable (not_exists.1 hraw)] at h
    cases h

/-- Exactly the objects whose last `serial` is the numeral of a word have a serial, which is that
word. A document without the member has none, be it an object or not, and neither has one whose
member is unusable, which the error shows. Everything else is no document; what is refused is
always a malformed state. -/
theorem parseSerial_exact :
    (∀ (raw : Bytes) (n : Nat), parseSerial raw = .ok n ↔
      ∃ members, (Phrase.object members).IsWrittenIn raw ∧
        Phrase.lastNamed "serial" members = some (.number (.numeral n)) ∧ n < wordLimit) ∧
    (∀ (raw : Bytes) (p : Phrase), p.IsWrittenIn raw → stated p = none →
      parseSerial raw = .error (.malformedState "State has no 'serial' field")) ∧
    (∀ (raw : Bytes) (p q : Phrase), p.IsWrittenIn raw → stated p = some q → Unusable q →
      ∃ value, q.document.toValue (maxDepth - 1) = .ok value ∧ parseSerial raw =
        .error (.malformedState
          ("Expected number value for 'serial' but got '" ++ value.compact ++ "'"))) ∧
    (∀ raw : Bytes, (∀ p : Phrase, ¬ p.IsWrittenIn raw) →
      parseSerial raw = .error (unreadable raw)) ∧
    ∀ (raw : Bytes) (e : Error), parseSerial raw = .error e → ∃ text, e = .malformedState text := by
  refine ⟨fun raw n => ⟨fun h => ?_, ?_⟩, fun raw p => parseSerial_of_none,
    fun raw p q => exists_parseSerial_of_unusable, fun raw => parseSerial_unreadable,
    fun raw e => malformed_of_parseSerial⟩
  · obtain ⟨p, hp, hstated, hn⟩ := exists_numeral h
    cases p with
    | object members => exact ⟨members, hp, hstated, hn⟩
    | _ => cases hstated
  · rintro ⟨members, hp, hlast, hn⟩
    exact parseSerial_of_numeral hp hlast hn

-- Of two members `serial` the last is the one that is stated.
namespace Twice

open Json.Phrase (MembersWrittenAs PaddedWrittenAs StringWrittenAs TextWrittenAs WrittenAs)

def name : List Char := '"' :: ("serial".toList ++ ['"'])

def document (first last : List Char) : Bytes :=
  Text.Utf8.encode (String.ofList
    ('\x7b' :: (name ++ ':' :: (first ++ ',' :: (name ++ ':' :: (last ++ ['\x7d']))))))

def isPlain (c : Char) : Bool := c ≠ '"' && c ≠ '\\' && !decide (c.toNat < 0x20)

theorem text_written {cs : List Char} (h : cs.all isPlain = true) : TextWrittenAs cs cs := by
  induction cs with
  | nil => exact .nil
  | cons c cs ih =>
    obtain ⟨hc, hcs⟩ := Bool.and_eq_true_iff.1 h
    simp only [isPlain, ne_eq, Bool.and_eq_true, decide_eq_true_eq, Bool.not_eq_true',
      decide_eq_false_iff_not] at hc
    exact .plain hc.1.1 hc.1.2 hc.2 (ih hcs)

theorem string_written {s : String} (h : s.toList.all isPlain = true) :
    StringWrittenAs s ('"' :: (s.toList ++ ['"'])) :=
  .mk (text_written h)

theorem padded {p : Phrase} {cs : List Char} (h : WrittenAs p cs) : PaddedWrittenAs p cs := by
  have hpadded := PaddedWrittenAs.mk Json.Document.isBlank_nil h Json.Document.isBlank_nil
  rwa [List.append_nil] at hpadded

theorem isWrittenIn_document {p q : Phrase} {first last : List Char} (hp : WrittenAs p first)
    (hq : WrittenAs q last) (hfits : p.Fits (maxDepth - 1)) (hfits' : q.Fits (maxDepth - 1)) :
    (Phrase.object [("serial", p), ("serial", q)]).IsWrittenIn (document first last) := by
  have hname : StringWrittenAs "serial" name := string_written (by decide)
  have hblank := Json.Document.isBlank_nil
  have hlast := MembersWrittenAs.last hblank hname hblank (padded hq)
  have hmembers := MembersWrittenAs.more hblank hname hblank (padded hp) hlast
  exact ⟨⟨hfits, hfits', trivial⟩, _, padded (.object hmembers), rfl⟩

theorem not_written_tag (p : Phrase) : ¬ p.IsWrittenIn (Text.Utf8.encode "<html>") := by
  intro h
  obtain ⟨v, -, hdecoded⟩ := exists_decoded h
  have hnone : (decodeBytes Json.Decoder.value (Text.Utf8.encode "<html>")).isOk = false := by
    decide +kernel
  rw [hdecoded] at hnone
  cases hnone

theorem parseSerial_exact_twice :
    parseSerial (document "null".toList (Nat.toDigits 10 12)) = .ok 12 ∧
    parseSerial (document (Nat.toDigits 10 12) ('"' :: ("12".toList ++ ['"']))) =
      .error (.malformedState "Expected number value for 'serial' but got '\"12\"'") ∧
    parseSerial (Text.Utf8.encode (String.ofList ['[', ']'])) =
      .error (.malformedState "State has no 'serial' field") ∧
    parseSerial (Text.Utf8.encode "<html>") = .error (unreadable (Text.Utf8.encode "<html>")) ∧
    ∃ text, unreadable (Text.Utf8.encode "<html>") = .malformedState text := by
  obtain ⟨hserial, hnone, hunusable, hunreadable, hmalformed⟩ := parseSerial_exact
  have hnumeral := Phrase.numeral_written 12
  have hfits : (Phrase.number (.numeral 12)).Fits (maxDepth - 1) :=
    Phrase.fits_numeral (by decide) _
  have hstring : WrittenAs (.string "12") ('"' :: ("12".toList ++ ['"'])) :=
    .string (string_written (by decide))
  have htag := hunreadable _ not_written_tag
  refine ⟨?_, ?_, ?_, htag, hmalformed _ _ htag⟩
  · have hwritten := isWrittenIn_document .null hnumeral trivial hfits
    exact (hserial _ 12).2 ⟨_, hwritten, rfl, by decide⟩
  · have hwritten := isWrittenIn_document hnumeral hstring hfits trivial
    obtain ⟨value, hvalue, hparsed⟩ := hunusable _ _ (.string "12") hwritten rfl (.string "12")
    cases hvalue
    rw [hparsed]
    rfl
  · have hwritten : Phrase.IsWrittenIn (.array []) (Text.Utf8.encode (String.ofList ['[', ']'])) :=
      ⟨trivial, _, padded (.emptyArray Json.Document.isBlank_nil), rfl⟩
    exact hnone _ _ hwritten rfl

end Twice

end Provision.Lifecycle
