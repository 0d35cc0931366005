import Provision.Proofs.Json.Values
import Provision.Proofs.Time.Timestamp
import Provision.Proofs.Version.Serials

/-!
# Versions on the wire

Whatever text a version is read from, its serial is a word, its token is not empty and its time
lies in the calendar; so it is for every version that is built. Such a version is written as an
object of strings, and reads back from it as it is. The serial that an object gives is the number
that it spells there, or the object is refused.
-/

namespace Provision.Version

open Provision.Json

variable {room : Nat} {doc : Document}

structure Draft.Sound (d : Draft) : Prop where
  serial : ∀ n, d.serial = some (some n) → n < Number.wordLimit
  token : d.storageVersion ≠ some (some "")
  time : ∀ t, d.lastModified = some (some t) → t.Valid

theorem word_of_serialDecoder {n : Nat} (hdoc : doc.IsWord)
    (h : serialDecoder room doc = .ok (some n)) : n < Number.wordLimit := by
  cases serialDecoder_eq_ok.1 h with
  | number n => exact hdoc n rfl
  | text h => exact h.1

theorem nonEmptyDecoder_ne {token : Option String} (h : nonEmptyDecoder room doc = .ok token) :
    token ≠ some "" := by
  obtain ⟨text, -, htoken⟩ := Result.bind_eq_ok.1 h
  rintro rfl
  cases text with
  | none => cases htoken
  | some s =>
    have hs : (if s.isEmpty then none else some s) = some "" := Except.ok.inj htoken
    split at hs
    · cases hs
    · next hempty =>
      obtain rfl := Option.some.inj hs
      exact hempty rfl

theorem valid_of_timestamp {t : Timestamp} (h : Decoder.timestamp room doc = .ok t) : t.Valid := by
  unfold Decoder.timestamp at h
  split at h
  · split at h
    · next htext =>
      cases h
      exact Timestamp.valid_of_ofText? _ htext
    · cases h
  · exact absurd h Decoder.mismatch_ne_ok

theorem valid_of_optional {t : Timestamp}
    (h : Decoder.timestamp.optional room doc = .ok (some t)) : t.Valid := by
  unfold Decoder.optional at h
  split at h
  · cases h
  · obtain ⟨u, hread, hu⟩ := Result.map_eq_ok.1 h
    obtain rfl := Option.some.inj hu
    exact valid_of_timestamp hread

theorem record_keeps : record.Keeps Draft.Sound := by
  intro field hfield draft next room doc hdoc hdraft hread
  simp only [record, List.mem_cons, List.not_mem_nil, or_false] at hfield
  rcases hfield with rfl | rfl | rfl | rfl | rfl
  all_goals
    obtain ⟨value, hvalue, hnext⟩ := Result.bind_eq_ok.1 hread
    obtain rfl := Except.ok.inj hnext
  · exact ⟨hdraft.serial, hdraft.token, hdraft.time⟩
  · refine ⟨fun n hn => ?_, hdraft.token, hdraft.time⟩
    exact word_of_serialDecoder hdoc (hvalue.trans (congrArg _ (Option.some.inj hn)))
  · refine ⟨hdraft.serial, fun htoken => ?_, hdraft.time⟩
    exact nonEmptyDecoder_ne hvalue (Option.some.inj htoken)
  · refine ⟨hdraft.serial, hdraft.token, fun t ht => ?_⟩
    exact valid_of_optional (hvalue.trans (congrArg _ (Option.some.inj ht)))
  · exact ⟨hdraft.serial, hdraft.token, hdraft.time⟩

theorem Draft.Sound.writable {d : Draft} (h : d.Sound) : d.finish.Writable where
  serial n hn := by
    refine h.serial n ?_
    cases hserial : d.serial with
    | none =>
      rw [finish, hserial] at hn
      cases hn
    | some serial =>
      rw [finish, hserial] at hn
      exact congrArg some hn
  token htoken := by
    refine h.token ?_
    cases hstorage : d.storageVersion with
    | none =>
      rw [finish, hstorage] at htoken
      cases htoken
    | some token =>
      rw [finish, hstorage] at htoken
      exact congrArg some htoken
  time t ht := by
    refine Timestamp.ofText?_text (h.time t ?_)
    cases hmodified : d.lastModified with
    | none =>
      rw [finish, hmodified] at ht
      cases ht
    | some time =>
      rw [finish, hmodified] at ht
      exact congrArg some ht

theorem writable_of_decoder {v : Version} (hdoc : ∀ d ∈ doc.children, d.IsWord)
    (h : decoder room doc = .ok v) : v.Writable := by
  obtain ⟨draft, hdraft, hv⟩ := Result.bind_eq_ok.1 h
  obtain rfl := Except.ok.inj hv
  have hstart : record.start.Sound := ⟨nofun, nofun, nofun⟩
  exact (record_keeps.decoder hstart hdoc hdraft).writable

theorem writable_of_decodeBytes {raw : Bytes} {v : Version}
    (h : decodeBytes decoder raw = .ok v) : v.Writable :=
  writable_of_decoder (Document.isWord_children _ _) (decode_ok h)

/-- The versions that are made, with the plan flag set later or not. -/
inductive Built : Version → Prop
  | empty (envName : String) : Built (.empty envName)
  | plan (envName : String) : Built (.plan envName)
  | ofSerial (envName : String) {n : Nat} (h : n < Number.wordLimit) : Built (.ofSerial envName n)
  | ofStorage (envName : String) {v : Storage.ObjectVersion}
      (h : ∀ t, v.lastModified = some t → t.Valid) : Built (.ofStorage envName v)
  | flagged {v : Version} (planOnly : Bool) (h : Built v) : Built { v with planOnly := planOnly }

theorem Built.writable {v : Version} (h : Built v) : v.Writable := by
  induction h with
  | empty envName => exact writable_empty envName
  | plan envName =>
    have hempty := writable_empty envName
    exact ⟨hempty.serial, hempty.token, hempty.time⟩
  | ofSerial envName h => exact writable_ofSerial h
  | ofStorage envName h => exact writable_ofStorage fun t ht => Timestamp.ofText?_text (h t ht)
  | flagged planOnly h ih => exact ⟨ih.serial, ih.token, ih.time⟩

/-- The version is written as an object of strings, which reads back as the version. -/
def ReadsBack (v : Version) : Prop :=
  (∃ members : List (String × String),
    v.toJson = .object (members.map fun m => (m.1, .string m.2))) ∧
  decodeBytes decoder (Text.Utf8.encode v.toJson.compact) = .ok v

theorem member_map (name : String) (value : Option String) :
    member name value =
      ((value.map fun s => (name, s)).toList.map fun m => (m.1, Value.string m.2)) := by
  cases value <;> rfl

theorem Writable.readsBack {v : Version} (h : v.Writable) : v.ReadsBack := by
  refine ⟨⟨("env_name", v.envName) ::
    (((v.serial.map toString).map fun s => ("serial", s)).toList ++
      (v.storageVersion.map fun s => ("storage_version", s)).toList ++
      ((v.lastModified.map (·.text)).map fun s => ("last_modified", s)).toList ++
      ((if v.planOnly then some "true" else none).map fun s => ("plan_only", s)).toList), ?_⟩, ?_⟩
  · simp only [toJson, List.map_cons, List.map_append, member_map]
  · have hdecode : decodeText decoder (v.toJson.compact ++ "") = _ :=
      decodeText_compact decoder v.wordy_toJson Document.isBlank_nil
    rw [String.append_empty] at hdecode
    rw [decodeBytes_encode, hdecode]
    exact decoder_toJson h _

def giving (envName : String) (item : List Char) : String :=
  String.ofList ('\x7b' :: (writeString "env_name" ++ ':' :: (writeString envName ++ ',' ::
    (writeString "serial" ++ ':' :: (item ++ ['\x7d'])))))

theorem read_giving {envName : String} {item : List Char} (h : Document.EndsIn item doc) :
    Document.read ((giving envName item).toList.map some) =
      (.object [(.text "env_name", .string (some envName)), (.text "serial", doc)] true, []) := by
  let l : List Symbol := (giving envName item).toList.map some
  have hlength : (writeString envName).length + item.length + 2 < l.length := by
    simp only [l, giving, String.toList_ofList, List.length_map, List.length_cons,
      List.length_append]
    omega
  obtain ⟨fuel, hfuel⟩ : ∃ fuel, l.length = fuel + 2 := ⟨l.length - 2, by omega⟩
  have hitem : item.length < fuel := by omega
  have hname : (writeString envName).length < fuel + 1 := by omega
  have hmembers := Document.readMembers_string "env_name" hname
    (Document.readMembers_last "serial" h hitem [])
  change Document.readValue (l.length + 1) l = _
  rw [hfuel]
  simp only [l, giving, String.toList_ofList, List.map_append, List.map_cons, List.map_nil,
    List.append_assoc, List.cons_append] at hmembers ⊢
  rw [Document.readValue, Document.skipSpace_cons (by decide)]
  simp only [writeString, List.map_cons, List.cons_append] at hmembers ⊢
  simp only [Document.skipSpace_cons (show Document.isSpace (some '"') = false by decide)]
  split
  · next heq => exact absurd (List.cons.inj heq).1 (by decide)
  · rw [hmembers]

theorem decodeBytes_giving (envName : String) {item : List Char}
    (h : Document.EndsIn item doc) :
    decodeBytes decoder (Text.Utf8.encode (giving envName item)) =
      (serialDecoder (maxDepth - 1) doc).map fun serial =>
        { empty envName with serial := serial } := by
  have hfold : Document.foldMembers (record.readMember (maxDepth - 1)) record.start
      [(.text "env_name", .string (some envName)), (.text "serial", doc)] true =
      (serialDecoder (maxDepth - 1) doc).map fun serial =>
        ⟨some envName, some serial, none, none, none⟩ := by
    rw [foldMembers_field (e := ⟨some envName, none, none, none, none⟩) rfl rfl rfl]
    refine (Record.foldMembers_last (r := record) rfl rfl).trans ?_
    change (serialDecoder (maxDepth - 1) doc >>= fun serial =>
      .ok (⟨some envName, some serial, none, none, none⟩ : Draft)) = _
    cases serialDecoder (maxDepth - 1) doc <;> rfl
  have hrecord : record.decoder maxDepth
      (.object [(.text "env_name", .string (some envName)), (.text "serial", doc)] true) =
      (serialDecoder (maxDepth - 1) doc).map fun serial =>
        ⟨some envName, some serial, none, none, none⟩ := by
    simp only [Record.decoder, maxDepth, Decoder.enter] at hfold ⊢
    rw [hfold]
    cases serialDecoder 126 doc <;> rfl
  rw [decodeBytes_encode, decodeText, decode, read_giving h]
  simp only [decoder, hrecord]
  cases serialDecoder (maxDepth - 1) doc <;> rfl

theorem not_natural_of_large {n : Nat} (h : Number.wordLimit ≤ n) (m : Nat) :
    Number.ofLiteral (.numeral n) ≠ some (.natural m) := by
  intro heq
  obtain ⟨rfl, hlt⟩ := Number.ofLiteral_numeral.1 heq
  exact Nat.not_lt.2 h hlt

theorem not_natural_of_minus (n m : Nat) :
    Number.ofLiteral ⟨true, Nat.toDigits 10 n, none, none⟩ ≠ some (.natural m) := by
  intro heq
  obtain ⟨hminus, -⟩ := Number.ofLiteral_eq_natural.1 heq
  cases hminus

variable {item : List Char}

theorem decode_giving_ok (envName : String) {serial : Option Nat} (h : Document.EndsIn item doc)
    (hwrites : Writes doc serial) :
    decodeBytes decoder (Text.Utf8.encode (giving envName item)) =
      .ok { empty envName with serial := serial } := by
  rw [decodeBytes_giving envName h, serialDecoder_eq_ok.2 hwrites]
  rfl

theorem decode_giving_number (envName : String) {m : Option Number}
    (h : Document.EndsIn item (.number m)) (hm : ∀ n, m ≠ some (.natural n)) :
    ∃ e, decodeBytes decoder (Text.Utf8.encode (giving envName item)) = .error e := by
  obtain ⟨e, he⟩ := serialDecoder_number (maxDepth - 1) hm
  refine ⟨e, ?_⟩
  rw [decodeBytes_giving envName h, he]
  rfl

theorem decode_giving_word (envName : String) {n : Nat} (h : n < Number.wordLimit) :
    decodeBytes decoder (Text.Utf8.encode (giving envName (Nat.toDigits 10 n))) =
      .ok (ofSerial envName n) := by
  have hends := Document.endsIn_numeral n
  rw [Number.ofLiteral_numeral.2 ⟨rfl, h⟩] at hends
  exact decode_giving_ok envName hends (.number n)

/-- Versions survive their wire format, and serials mean the words that they spell. -/
theorem reads_back :
    (∀ raw v, decodeBytes decoder raw = .ok v → v.ReadsBack) ∧
    (∀ v, Built v → v.ReadsBack) ∧
    (∀ envName n, n < Number.wordLimit →
      decodeBytes decoder (Text.Utf8.encode (giving envName (Nat.toDigits 10 n))) =
        .ok (ofSerial envName n) ∧
      (∀ s, SpellsWord s n →
        decodeBytes decoder (Text.Utf8.encode (giving envName (writeString s))) =
          .ok (ofSerial envName n)) ∧
      (ofSerial envName n).toJson =
        .object [("env_name", .string envName), ("serial", .string (toString n))]) ∧
    (∀ envName,
      decodeBytes decoder (Text.Utf8.encode (giving envName (writeString ""))) =
        .ok (empty envName) ∧
      decodeBytes decoder (Text.Utf8.encode (giving envName writeNull)) = .ok (empty envName)) ∧
    (∀ envName s, s ≠ "" → (∀ n, ¬ SpellsWord s n) →
      decodeBytes decoder (Text.Utf8.encode (giving envName (writeString s))) =
        .error (.notSerial s)) ∧
    (∀ envName n, Number.wordLimit ≤ n →
      ∃ e, decodeBytes decoder (Text.Utf8.encode (giving envName (Nat.toDigits 10 n))) =
        .error e) ∧
    (∀ envName n,
      ∃ e, decodeBytes decoder (Text.Utf8.encode (giving envName ('-' :: Nat.toDigits 10 n))) =
        .error e) ∧
    ∀ room doc serial, serialDecoder room doc = .ok serial ↔ Writes doc serial := by
  have hstring : ∀ s, Document.EndsIn (writeString s) (.string (some s)) := fun s =>
    Document.endsIn_write (v := .string s) trivial
  refine ⟨fun raw v h => (writable_of_decodeBytes h).readsBack, fun v h => h.writable.readsBack,
    fun envName n h => ⟨decode_giving_word envName h, fun s hs => ?_, rfl⟩,
    fun envName => ⟨?_, ?_⟩, fun envName s hne hs => ?_, fun envName n h => ?_,
    fun envName n => ?_, fun room doc serial => serialDecoder_eq_ok⟩
  · exact decode_giving_ok envName (hstring s) (.text hs)
  · exact decode_giving_ok envName (hstring "") .blank
  · exact decode_giving_ok envName (Document.endsIn_write (v := .null) trivial) .null
  · rw [decodeBytes_giving envName (hstring s), serialDecoder_unspelled _ hne hs]
    rfl
  · exact decode_giving_number envName (Document.endsIn_numeral n) (not_natural_of_large h)
  · exact decode_giving_number envName (Document.endsIn_minus n) (not_natural_of_minus n)

theorem reads_back_padded :
    decodeBytes decoder (Text.Utf8.encode (giving "prod" (writeString "+007"))) =
        .ok (ofSerial "prod" 7) ∧
      (ofSerial "prod" 7).ReadsBack ∧
      { ofSerial "prod" 7 with planOnly := true }.ReadsBack ∧
      decodeBytes decoder (Text.Utf8.encode (giving "prod" (writeString "18446744073709551616"))) =
        .error (.notSerial "18446744073709551616") ∧
      ∃ e, decodeBytes decoder (Text.Utf8.encode (giving "prod"
        (Nat.toDigits 10 18446744073709551616))) = .error e := by
  obtain ⟨hread, hbuilt, hword, -, hrefused, hlarge, -, -⟩ := reads_back
  have hseven : 7 < Number.wordLimit := by decide
  have hspells : SpellsWord "+007" 7 := ⟨hseven, ['+'], 2, .inr rfl, by decide⟩
  have hdecoded := (hword "prod" 7 hseven).2.1 "+007" hspells
  have hnone : ∀ n, ¬ SpellsWord "18446744073709551616" n := by
    intro n h
    have hsome := wordOfText?_eq_some.2 h
    have hword : wordOfText? "18446744073709551616" = none := by decide
    rw [hword] at hsome
    cases hsome
  exact ⟨hdecoded, hread _ _ hdecoded, hbuilt _ (.flagged true (.ofSerial "prod" hseven)),
    hrefused "prod" _ (by decide) hnone, hlarge "prod" _ (by decide)⟩

end Provision.Version
