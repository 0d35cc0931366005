import Provision.Lifecycle.Serial

/-!
# Serials are words

Every integer without a sign that the reader makes of a literal is a 64-bit word, so the serial
of a state document is one.
-/

namespace Provision

open Provision.Json

namespace Json

def Document.IsWord (d : Document) : Prop :=
  ∀ n, d = .number (some (.natural n)) → n < Number.wordLimit

theorem Number.ofInteger_eq_natural {minus : Bool} {size n : Nat} :
    ofInteger minus size = some (.natural n) ↔ minus = false ∧ size = n ∧ n < wordLimit := by
  unfold ofInteger
  cases minus with
  | true =>
    rw [if_pos rfl]
    refine ⟨fun h => ?_, fun h => nomatch h.1⟩
    split at h
    · cases h
    · cases h
  | false =>
    rw [if_neg Bool.false_ne_true]
    split
    · next hlt =>
      refine ⟨fun h => ?_, fun ⟨_, h, _⟩ => by rw [h]⟩
      cases h
      exact ⟨rfl, rfl, hlt⟩
    · next hge => exact ⟨fun h => (nomatch h), fun ⟨_, h, hlt⟩ => absurd (h ▸ hlt) hge⟩

theorem Literal.integer?_eq_natural {l : Literal} {n : Nat} :
    l.integer? = some (.natural n) ↔
      l.minus = false ∧ l.fraction = none ∧ l.exponent = none ∧ digitsValue l.whole = n ∧
        n < Number.wordLimit := by
  unfold integer?
  split
  · next hfraction hexponent =>
    rw [Number.ofInteger_eq_natural]
    exact ⟨fun ⟨h, hsize⟩ => ⟨h, hfraction, hexponent, hsize⟩, fun ⟨h, _, _, hsize⟩ => ⟨h, hsize⟩⟩
  · next hother =>
    exact ⟨fun h => (nomatch h), fun ⟨_, hfraction, hexponent, _⟩ =>
      (hother hfraction hexponent).elim⟩

theorem Number.ofLiteral_eq_natural {l : Literal} {n : Nat} :
    ofLiteral l = some (.natural n) ↔
      l.minus = false ∧ l.fraction = none ∧ l.exponent = none ∧ digitsValue l.whole = n ∧
        n < wordLimit := by
  rw [← Literal.integer?_eq_natural, ofLiteral]
  cases l.integer? with
  | some m => rfl
  | none =>
    refine ⟨fun h => ?_, nofun⟩
    obtain ⟨x, -, hx⟩ := Option.map_eq_some_iff.1 h
    cases hx

namespace Document

theorem isWord_readWord (expected : List Char) {d : Document} (hd : d.IsWord) (l : List Symbol) :
    (readWord expected d l).1.IsWord := by
  unfold readWord
  split
  · exact hd
  · exact fun _ h => by cases h

theorem isWord_readNumber (minus : Bool) (l : List Symbol) : (readNumber minus l).1.IsWord := by
  unfold readNumber
  split
  · intro n h
    exact (Number.ofLiteral_eq_natural.1 (Document.number.inj h)).2.2.2.2
  · exact fun _ h => by cases h

theorem isWord_readValue (fuel : Nat) (l : List Symbol) : (readValue fuel l).1.IsWord := by
  cases fuel with
  | zero => exact fun _ h => by cases h
  | succ fuel =>
    rw [readValue]
    split
    · exact isWord_readWord (d := .null) _ (fun _ h => by cases h) _
    · exact isWord_readWord (d := .bool true) _ (fun _ h => by cases h) _
    · exact isWord_readWord (d := .bool false) _ (fun _ h => by cases h) _
    · split
      · exact fun _ h => by cases h
      · exact fun _ h => by cases h
    · split
      · exact fun _ h => by cases h
      · exact fun _ h => by cases h
    · split
      · exact fun _ h => by cases h
      · exact fun _ h => by cases h
    · exact isWord_readNumber _ _
    · split
      · exact isWord_readNumber _ _
      · exact fun _ h => by cases h
    · exact fun _ h => by cases h

theorem of_readValue {Q : Document → Prop} (hread : ∀ fuel l, Q (readValue fuel l).1) {fuel : Nat}
    {l rest : List Symbol} {d : Document} (h : readValue fuel l = (d, rest)) : Q d := by
  have hd := hread fuel l
  rwa [h] at hd

theorem forall_readMembers {Q : Document → Prop} (hbroken : Q broken)
    (hread : ∀ fuel l, Q (readValue fuel l).1) (fuel : Nat) (l : List Symbol) :
    ∀ member ∈ (readMembers fuel l).1, Q member.2 := by
  induction fuel generalizing l with
  | zero => exact fun _ h => absurd h List.not_mem_nil
  | succ fuel ih =>
    rw [readMembers]
    split
    · split
      · exact fun _ h => absurd h List.not_mem_nil
      · split
        · split
          next item rest hvalue =>
            have hitem : Q item := of_readValue hread hvalue
            split
            · simp only [List.mem_cons]
              rintro member (rfl | hmember)
              · exact hitem
              · exact ih _ member hmember
            · simp only [List.mem_singleton]
              rintro member rfl
              exact hitem
            · simp only [List.mem_singleton]
              rintro member rfl
              exact hitem
        · simp only [List.mem_singleton]
          rintro member rfl
          exact hbroken
    · simp only [List.mem_singleton]
      rintro member rfl
      exact hbroken

theorem isWord_broken : broken.IsWord := fun _ h => by cases h

theorem isWord_readMembers (fuel : Nat) (l : List Symbol) :
    ∀ member ∈ (readMembers fuel l).1, member.2.IsWord :=
  forall_readMembers isWord_broken isWord_readValue fuel l

theorem readWord_ne_object {expected : List Char} {d : Document} {l : List Symbol}
    {members : List (Key × Document)} {closed : Bool} (hd : d ≠ .object members closed) :
    (readWord expected d l).1 ≠ .object members closed := by
  unfold readWord
  split
  · exact hd
  · exact fun h => by cases h

theorem readNumber_ne_object (minus : Bool) (l : List Symbol) {members : List (Key × Document)}
    {closed : Bool} : (readNumber minus l).1 ≠ .object members closed := by
  unfold readNumber
  split
  · exact fun h => by cases h
  · exact fun h => by cases h

theorem isWord_of_readObject {fuel : Nat} {l : List Symbol} {members : List (Key × Document)}
    {closed : Bool} (h : (readValue fuel l).1 = .object members closed) :
    ∀ member ∈ members, member.2.IsWord := by
  cases fuel with
  | zero => cases h
  | succ fuel =>
    rw [readValue] at h
    split at h
    · exact absurd h (readWord_ne_object (d := .null) fun hd => by cases hd)
    · exact absurd h (readWord_ne_object (d := .bool true) fun hd => by cases hd)
    · exact absurd h (readWord_ne_object (d := .bool false) fun hd => by cases hd)
    · split at h <;> cases h
    · split at h <;> cases h
    · split at h
      · cases h
        exact fun _ h => absurd h List.not_mem_nil
      · cases h
        exact isWord_readMembers fuel _
    · exact absurd h (readNumber_ne_object _ _)
    · split at h
      · exact absurd h (readNumber_ne_object _ _)
      · cases h
    · cases h

theorem word_of_toValue {room : Nat} {d : Document} (hd : d.IsWord) {n : Nat}
    (h : d.toValue room = .ok (.number (.natural n))) : n < Number.wordLimit := by
  cases d with
  | number m =>
    cases m with
    | none => cases h
    | some m =>
      cases h
      exact hd n rfl
  | string s => cases s <;> cases h
  | array items closed =>
    cases room with
    | zero => cases h
    | succ room =>
      rw [toValue] at h
      cases hv : itemValues room items closed <;> rw [hv] at h <;> cases h
  | object members closed =>
    cases room with
    | zero => cases h
    | succ room =>
      rw [toValue] at h
      cases hv : memberValues room {} members closed <;> rw [hv] at h <;> cases h
  | null => cases h
  | bool b => cases h
  | broken => cases h

theorem object_of_toValue {room : Nat} {d : Document} {members : List (String × Value)}
    (h : d.toValue room = .ok (.object members)) :
    ∃ room docs closed dict, d = .object docs closed ∧
      memberValues room {} docs closed = .ok dict ∧ members = dict.entries := by
  cases d with
  | object docs closed =>
    cases room with
    | zero => cases h
    | succ room =>
      rw [toValue] at h
      cases hv : memberValues room {} docs closed with
      | error e =>
        rw [hv] at h
        cases h
      | ok dict =>
        rw [hv] at h
        cases h
        exact ⟨room, docs, closed, dict, rfl, hv, rfl⟩
  | array items closed =>
    cases room with
    | zero => cases h
    | succ room =>
      rw [toValue] at h
      cases hv : itemValues room items closed <;> rw [hv] at h <;> cases h
  | string s => cases s <;> cases h
  | number m => cases m <;> cases h
  | null => cases h
  | bool b => cases h
  | broken => cases h

theorem word_of_memberValues {room : Nat} {members : List (Key × Document)} {closed : Bool}
    {acc d : Dict Value} (hmembers : ∀ member ∈ members, member.2.IsWord)
    (hacc : ∀ e ∈ acc.entries, ∀ n, e.2 = .number (.natural n) → n < Number.wordLimit)
    (h : memberValues room acc members closed = .ok d) :
    ∀ e ∈ d.entries, ∀ n, e.2 = .number (.natural n) → n < Number.wordLimit := by
  induction members generalizing acc with
  | nil =>
    rw [memberValues] at h
    split at h
    · cases h
      exact hacc
    · cases h
  | cons member rest ih =>
    obtain ⟨key, doc⟩ := member
    cases key with
    | unspellable => cases h
    | other found => cases h
    | text key =>
      rw [memberValues] at h
      cases hv : doc.toValue room with
      | error e =>
        rw [hv] at h
        cases h
      | ok v =>
        rw [hv] at h
        refine ih (fun m hm => hmembers m (List.mem_cons_of_mem _ hm)) ?_ h
        intro e he n hn
        rcases Dict.mem_place he with rfl | he
        · have hword := hmembers (.text key, doc) List.mem_cons_self
          exact word_of_toValue hword (hv.trans (congrArg _ hn))
        · exact hacc e he n hn

end Document

end Json

theorem Json.decode_ok {α : Type} {decoder : Decoder α} {l : List Symbol} {a : α}
    (h : decode decoder l = .ok a) : decoder maxDepth (Document.read l).1 = .ok a := by
  simp only [decode] at h
  cases hd : decoder maxDepth (Document.read l).1 with
  | error e =>
    rw [hd] at h
    cases h
  | ok b =>
    rw [hd] at h
    simp only [bind, Except.bind] at h
    split at h
    · exact h
    · cases h

theorem Json.word_of_decoded {l : List Symbol} {members : List (String × Value)}
    (h : decode Decoder.value l = .ok (.object members)) :
    ∀ e ∈ members, ∀ n, e.2 = .number (.natural n) → n < Number.wordLimit := by
  obtain ⟨room, docs, closed, dict, hd, hm, rfl⟩ := Document.object_of_toValue (decode_ok h)
  exact Document.word_of_memberValues (Document.isWord_of_readObject hd)
    (fun e he => absurd he List.not_mem_nil) hm

namespace Lifecycle

/-- The document is an object with the serial `n` at its top level. -/
def Shows (raw : Bytes) (n : Nat) : Prop :=
  ∃ members, decodeBytes Decoder.value raw = .ok (.object members) ∧
    members.lookup "serial" = some (.number (.natural n))

theorem serialMember_object (members : List (String × Value)) :
    serialMember (.object members) = members.lookup "serial" := by
  induction members with
  | nil => rfl
  | cons entry rest ih =>
    obtain ⟨name, value⟩ := entry
    simp only [serialMember] at ih
    by_cases hname : name = "serial"
    · subst hname
      simp [serialMember]
    · have hne : ("serial" == name) = false := beq_false_of_ne fun h => hname h.symm
      simp [serialMember, hname, List.lookup_cons, hne, ih]

theorem parseSerial_eq_ok {raw : Bytes} {n : Nat} : parseSerial raw = .ok n ↔ Shows raw n := by
  constructor
  · intro h
    unfold parseSerial at h
    split at h
    · cases h
    · next document hdecoded =>
      split at h
      · cases h
      · next k hserial =>
        cases h
        -- Only an object has a member.
        cases document with
        | object members => exact ⟨members, hdecoded, serialMember_object members ▸ hserial⟩
        | _ => cases hserial
      · cases h
  · rintro ⟨members, hdecoded, hserial⟩
    simp only [parseSerial, hdecoded, serialMember_object, hserial]

theorem parseSerial_lt {raw : Bytes} {n : Nat} (h : parseSerial raw = .ok n) :
    n < Number.wordLimit := by
  unfold parseSerial at h
  split at h
  · cases h
  · next document hdocument =>
    split at h
    · cases h
    · next m hmember =>
      cases h
      cases document with
      | object members =>
        obtain ⟨e, he, hn⟩ := Option.map_eq_some_iff.1 hmember
        exact word_of_decoded hdocument e (List.mem_of_find?_eq_some he) n hn
      | _ => cases hmember
    · cases h

end Lifecycle

end Provision
