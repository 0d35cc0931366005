import Mathlib.Data.List.Induction
import Provision.Proofs.Codec
import Provision.Proofs.Lifecycle.Serial

/-!
# Integers in documents

A row of digits is the decimal numeral of its value after some zeros. Whatever is read, the items
and members of an array or object are words where they are natural numbers, so a record keeps what
the decoders of its fields establish for words.
-/

namespace Provision.Json

theorem digitsValue_concat (ds : List Char) (c : Char) :
    digitsValue (ds ++ [c]) = digitsValue ds * 10 + digitValue c := by
  rw [digitsValue, List.foldl_append]
  rfl

theorem digitsValue_zeros (k : Nat) (ds : List Char) :
    digitsValue (List.replicate k '0' ++ ds) = digitsValue ds := by
  induction k with
  | zero => rfl
  | succ k ih => exact ih

theorem digitValue_lt {c : Char} (h : Timestamp.isDigit c = true) : digitValue c < 10 := by
  have hbounds : '0'.toNat ≤ c.toNat ∧ c.toNat ≤ '9'.toNat := by
    simpa [Timestamp.isDigit, Char.le_def, UInt32.le_iff_toNat_le] using h
  have hnine : '9'.toNat = '0'.toNat + 9 := rfl
  rw [digitValue]
  omega

theorem digitChar_digitValue {c : Char} (h : Timestamp.isDigit c = true) :
    (digitValue c).digitChar = c := by
  have hlow : '0'.toNat ≤ c.toNat := by
    have hbounds : '0'.toNat ≤ c.toNat ∧ c.toNat ≤ '9'.toNat := by
      simpa [Timestamp.isDigit, Char.le_def, UInt32.le_iff_toNat_le] using h
    exact hbounds.1
  have hall : ∀ n < 10, n.digitChar = Char.ofNat (n + '0'.toNat) := by decide
  rw [hall _ (digitValue_lt h), digitValue, Nat.sub_add_cancel hlow, Char.ofNat_toNat]

theorem exists_zeros {ds : List Char} (hne : ds ≠ []) (h : ∀ c ∈ ds, Timestamp.isDigit c = true) :
    ∃ k, ds = List.replicate k '0' ++ Nat.toDigits 10 (digitsValue ds) := by
  induction ds using List.reverseRecOn with
  | nil => exact absurd rfl hne
  | append_singleton ds c ih =>
    have hc : Timestamp.isDigit c = true := h c (List.mem_append_right _ List.mem_cons_self)
    have hlast : Nat.toDigits 10 (digitValue c) = [c] := by
      rw [Nat.toDigits_of_lt_base (digitValue_lt hc), digitChar_digitValue hc]
    rw [digitsValue_concat]
    rcases eq_or_ne ds [] with rfl | hds
    · refine ⟨0, ?_⟩
      rw [digitsValue, List.foldl_nil, Nat.zero_mul, Nat.zero_add, hlast]
      rfl
    obtain ⟨k, hk⟩ := ih hds fun d hd => h d (List.mem_append_left _ hd)
    -- Zeros before the last digit are all there is before it, or the numeral goes on.
    rcases Nat.eq_zero_or_pos (digitsValue ds) with hzero | hpos
    · refine ⟨k + 1, ?_⟩
      rw [hzero, Nat.zero_mul, Nat.zero_add, hlast, List.replicate_succ']
      rw [hzero] at hk
      exact congrArg (· ++ [c]) hk
    · refine ⟨k, ?_⟩
      have hlt := digitValue_lt hc
      rw [Nat.toDigits_of_base_le (by decide) (by omega), ← List.append_assoc]
      have hdiv : (digitsValue ds * 10 + digitValue c) / 10 = digitsValue ds := by omega
      have hmod : (digitsValue ds * 10 + digitValue c) % 10 = digitValue c := by omega
      rw [hdiv, hmod, digitChar_digitValue hc, ← hk]

theorem head_toDigits {n : Nat} (h : n ≠ 0) : (Nat.toDigits 10 n).head? ≠ some '0' := by
  induction n using Nat.strongRecOn with
  | ind n ih =>
    rcases Nat.lt_or_ge n 10 with hlt | hge
    · rw [Nat.toDigits_of_lt_base hlt]
      have hall : ∀ n < 10, n ≠ 0 → [n.digitChar].head? ≠ some '0' := by decide
      exact hall n hlt h
    · rw [Nat.toDigits_of_base_le (by decide) hge, List.head?_append]
      have hne : Nat.toDigits 10 (n / 10) ≠ [] := Nat.toDigits_ne_nil
      obtain ⟨c, cs, hcs⟩ := List.exists_cons_of_ne_nil hne
      have hhead := ih (n / 10) (by omega) (by omega)
      rw [hcs] at hhead ⊢
      exact hhead

theorem Result.bind_eq_ok {α β : Type} {x : Result α} {f : α → Result β} {b : β} :
    x >>= f = .ok b ↔ ∃ a, x = .ok a ∧ f a = .ok b := by
  cases x with
  | error e =>
    constructor
    · exact fun h => nomatch h
    · rintro ⟨_, ha, -⟩
      cases ha
  | ok a =>
    constructor
    · exact fun h => ⟨a, rfl, h⟩
    · rintro ⟨_, ha, hf⟩
      cases ha
      exact hf

theorem Result.map_eq_ok {α β : Type} {x : Result α} {f : α → β} {b : β} :
    x.map f = .ok b ↔ ∃ a, x = .ok a ∧ f a = b := by
  cases x with
  | error e =>
    constructor
    · exact fun h => nomatch h
    · rintro ⟨_, ha, -⟩
      cases ha
  | ok a =>
    constructor
    · exact fun h => ⟨a, rfl, Except.ok.inj h⟩
    · rintro ⟨_, ha, rfl⟩
      cases ha
      rfl

theorem Decoder.mismatch_ne_ok {α : Type} {expected : String} {d : Document} {a : α} :
    Decoder.mismatch expected d ≠ .ok a := by
  intro h
  obtain ⟨_, -, hthrow⟩ := Result.bind_eq_ok.1 h
  cases hthrow

namespace Document

def IsLeaf : Value → Prop
  | .array _ => False
  | .object _ => False
  | _ => True

theorem leaf_of_toValue {room : Nat} {d : Document} {v : Value} (hv : IsLeaf v)
    (h : d.toValue room = .ok v) : d = ofValue v := by
  cases d with
  | null =>
    cases h
    rfl
  | bool b =>
    cases h
    rfl
  | number m =>
    cases m <;> cases h
    rfl
  | string s =>
    cases s <;> cases h
    rfl
  | array items closed =>
    cases room with
    | zero => cases h
    | succ room =>
      obtain ⟨values, -, hvalues⟩ := Result.bind_eq_ok.1 h
      cases hvalues
      exact hv.elim
  | object members closed =>
    cases room with
    | zero => cases h
    | succ room =>
      obtain ⟨dict, -, hdict⟩ := Result.bind_eq_ok.1 h
      cases hdict
      exact hv.elim
  | broken => cases h

def children : Document → List Document
  | array items _ => items
  | object members _ => members.map (·.2)
  | _ => []

theorem forall_readItems {Q : Document → Prop} (hread : ∀ fuel l, Q (readValue fuel l).1)
    (fuel : Nat) (l : List Symbol) : ∀ item ∈ (readItems fuel l).1, Q item := by
  induction fuel generalizing l with
  | zero => exact fun _ h => absurd h List.not_mem_nil
  | succ fuel ih =>
    rw [readItems]
    split
    next item rest hvalue =>
      have hitem : Q item := of_readValue hread hvalue
      split
      · simp only [List.mem_cons]
        rintro d (rfl | hd)
        · exact hitem
        · exact ih _ d hd
      · simp only [List.mem_singleton]
        rintro d rfl
        exact hitem
      · simp only [List.mem_singleton]
        rintro d rfl
        exact hitem

theorem children_readWord {expected : List Char} {d : Document} (hd : d.children = [])
    (l : List Symbol) : (readWord expected d l).1.children = [] := by
  unfold readWord
  split
  · exact hd
  · rfl

theorem children_readNumber (minus : Bool) (l : List Symbol) :
    (readNumber minus l).1.children = [] := by
  unfold readNumber
  split <;> rfl

theorem forall_children {Q : Document → Prop} (hbroken : Q broken)
    (hread : ∀ fuel l, Q (readValue fuel l).1) (fuel : Nat) (l : List Symbol) :
    ∀ d ∈ (readValue fuel l).1.children, Q d := by
  have hnone : ∀ {ds : List Document}, ds = [] → ∀ d ∈ ds, Q d := by
    rintro _ rfl d hd
    exact absurd hd List.not_mem_nil
  cases fuel with
  | zero => exact hnone rfl
  | succ fuel =>
    rw [readValue]
    split
    · exact hnone (children_readWord rfl _)
    · exact hnone (children_readWord rfl _)
    · exact hnone (children_readWord rfl _)
    · split <;> exact hnone rfl
    · split
      · exact hnone rfl
      · exact forall_readItems hread fuel _
    · split
      · exact hnone rfl
      · intro d hd
        obtain ⟨member, hmember, rfl⟩ := List.mem_map.1 hd
        exact forall_readMembers hbroken hread fuel _ member hmember
    · exact hnone (children_readNumber _ _)
    · split
      · exact hnone (children_readNumber _ _)
      · exact hnone rfl
    · exact hnone rfl

theorem isWord_children (fuel : Nat) (l : List Symbol) :
    ∀ d ∈ (readValue fuel l).1.children, d.IsWord :=
  forall_children isWord_broken isWord_readValue fuel l

def IsWordly (d : Document) : Prop := d.IsWord ∧ ∀ child ∈ d.children, child.IsWord

theorem isWordly_children (fuel : Nat) (l : List Symbol) :
    ∀ d ∈ (readValue fuel l).1.children, d.IsWordly :=
  forall_children ⟨isWord_broken, fun _ h => absurd h List.not_mem_nil⟩
    (fun fuel l => ⟨isWord_readValue fuel l, isWord_children fuel l⟩) fuel l

end Document

namespace Record

variable {δ : Type} {r : Record δ} {P : δ → Prop}

theorem foldMembers_last {field : Field δ} {room : Nat} {draft : δ} {key : String} {doc : Document}
    (hfield : r.fields.find? (·.name = key) = some field) (hset : field.isSet draft = false) :
    Document.foldMembers (r.readMember room) draft [(.text key, doc)] true =
      field.read draft room doc := by
  simp only [Document.foldMembers, readMember, hfield, hset, Bool.false_eq_true, if_false, if_true]
  cases field.read draft room doc <;> rfl

variable {D : Document → Prop}

def Preserves (r : Record δ) (D : Document → Prop) (P : δ → Prop) : Prop :=
  ∀ field ∈ r.fields, ∀ (draft next : δ) (room : Nat) (doc : Document), D doc → P draft →
    field.read draft room doc = .ok next → P next

theorem Preserves.readMember (hkeeps : r.Preserves D P) {room : Nat} {draft next : δ} {key : String}
    {doc : Document} (hdoc : D doc) (hdraft : P draft)
    (h : r.readMember room draft key doc = .ok next) : P next := by
  unfold Record.readMember at h
  split at h
  · obtain ⟨_, -, rfl⟩ := Result.map_eq_ok.1 h
    exact hdraft
  · next field hfield =>
    split at h
    · cases h
    · exact hkeeps field (List.mem_of_find?_eq_some hfield) draft next room doc hdoc hdraft h

theorem Preserves.foldMembers (hkeeps : r.Preserves D P) {room : Nat}
    {members : List (Key × Document)} {closed : Bool}
    (hmembers : ∀ d ∈ members.map (·.2), D d) {draft next : δ} (hdraft : P draft)
    (h : Document.foldMembers (r.readMember room) draft members closed = .ok next) : P next := by
  induction members generalizing draft with
  | nil =>
    rw [Document.foldMembers] at h
    split at h
    · cases h
      exact hdraft
    · cases h
  | cons member rest ih =>
    obtain ⟨key, doc⟩ := member
    rw [List.map_cons, List.forall_mem_cons] at hmembers
    cases key with
    | unspellable => cases h
    | other found => cases h
    | text key =>
      rw [Document.foldMembers] at h
      obtain ⟨mid, hmid, hrest⟩ := Result.bind_eq_ok.1 h
      exact ih hmembers.2 (hkeeps.readMember hmembers.1 hdraft hmid) hrest

theorem Preserves.readItems (hkeeps : r.Preserves D P) {room : Nat} {fields : List (Field δ)}
    (hfields : ∀ field ∈ fields, field ∈ r.fields) {items : List Document} {closed : Bool}
    (hitems : ∀ d ∈ items, D d) {index : Nat} {draft next : δ} (hdraft : P draft)
    (h : r.readItems room index fields items closed draft = .ok next) : P next := by
  induction fields generalizing items index draft with
  | nil =>
    cases items with
    | cons d ds => cases h
    | nil =>
      rw [Record.readItems] at h
      split at h
      · cases h
        exact hdraft
      · cases h
  | cons field fields ih =>
    have htail := fun f hf => hfields f (List.mem_cons_of_mem _ hf)
    cases items with
    | nil =>
      rw [Record.readItems] at h
      split at h
      · cases h
      · split at h
        · cases h
        · exact ih htail hitems hdraft h
    | cons d ds =>
      rw [List.forall_mem_cons] at hitems
      rw [Record.readItems] at h
      obtain ⟨mid, hmid, hrest⟩ := Result.bind_eq_ok.1 h
      have hfield := hfields field List.mem_cons_self
      exact ih htail hitems.2 (hkeeps field hfield draft mid room d hitems.1 hdraft hmid) hrest

theorem Preserves.decoder (hkeeps : r.Preserves D P) (hstart : P r.start) {room : Nat}
    {doc : Document}
    (hdoc : ∀ d ∈ doc.children, D d) {draft : δ} (h : r.decoder room doc = .ok draft) :
    P draft := by
  unfold Record.decoder at h
  split at h
  · next members closed =>
    cases room with
    | zero => cases h
    | succ room =>
      obtain ⟨mid, hmid, hcheck⟩ := Result.bind_eq_ok.1 h
      unfold Record.checkRequired at hcheck
      split at hcheck
      · cases hcheck
        exact hkeeps.foldMembers hdoc hstart hmid
      · cases hcheck
  · next items closed =>
    cases room with
    | zero => cases h
    | succ room => exact hkeeps.readItems (fun _ hf => hf) hdoc hstart h
  · exact absurd h Decoder.mismatch_ne_ok

def Keeps (r : Record δ) (P : δ → Prop) : Prop :=
  ∀ field ∈ r.fields, ∀ (draft next : δ) (room : Nat) (doc : Document), doc.IsWord → P draft →
    field.read draft room doc = .ok next → P next

theorem Keeps.decoder (hkeeps : r.Keeps P) (hstart : P r.start) {room : Nat} {doc : Document}
    (hdoc : ∀ d ∈ doc.children, d.IsWord) {draft : δ} (h : r.decoder room doc = .ok draft) :
    P draft :=
  Preserves.decoder hkeeps hstart hdoc h

end Record

end Provision.Json
