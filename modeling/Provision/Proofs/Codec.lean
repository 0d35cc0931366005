import Provision.Pipeline.Request
import Provision.Pipeline.Response
import Provision.Proofs.Json.Spelling

/-!
# Versions and responses read back

A version that is written reads back unchanged if its serial is a 64-bit word, its token is not
empty and its time reads back. All versions of a run are of that kind. A response reads back if
its version does.
-/

namespace Provision

open Provision.Json

theorem digitsValue_toDigits (n : Nat) : digitsValue (Nat.toDigits 10 n) = n := by
  have hfold : digitsValue = fun cs => Nat.ofDigitChars 10 cs 0 := by
    funext cs
    simp only [digitsValue, digitValue, Nat.ofDigitChars_eq_foldl, Nat.mul_comm]
  rw [hfold]
  exact Nat.ofDigitChars_ten_toDigits

theorem isDigit_toDigits {n : Nat} {c : Char} (h : c ∈ Nat.toDigits 10 n) :
    Timestamp.isDigit c = true := by
  have hdigit := Nat.isDigit_of_mem_toDigits (by decide) (by decide) h
  simpa [Char.isDigit, Timestamp.isDigit, Char.le_def] using hdigit

namespace Version

theorem wordOfText?_toString {n : Nat} (h : n < Number.wordLimit) :
    wordOfText? (toString n) = some n := by
  have hlist : (toString n).toList = Nat.toDigits 10 n := Nat.toList_repr
  have hall : (Nat.toDigits 10 n).all Timestamp.isDigit = true :=
    List.all_eq_true.2 fun c hc => isDigit_toDigits hc
  have hempty : (Nat.toDigits 10 n).isEmpty = false :=
    List.isEmpty_eq_false_iff.2 Nat.toDigits_ne_nil
  unfold wordOfText?
  rw [hlist]
  split
  · next rest heq =>
    have hdigit := isDigit_toDigits (heq ▸ List.mem_cons_self)
    exact absurd hdigit (by decide)
  · simp only [hempty, hall, Bool.not_false, Bool.and_self, if_true, digitsValue_toDigits, h]

structure Writable (v : Version) : Prop where
  serial : ∀ n, v.serial = some n → n < Number.wordLimit
  token : v.storageVersion ≠ some ""
  time : ∀ t, v.lastModified = some t → Timestamp.ofText? t.text = some t

theorem writable_ofSerial {envName : String} {n : Nat} (h : n < Number.wordLimit) :
    (ofSerial envName n).Writable where
  serial _ hm := Option.some.inj hm ▸ h
  token h := by cases h
  time _ h := by cases h

theorem writable_empty (envName : String) : (empty envName).Writable where
  serial _ h := by cases h
  token h := by cases h
  time _ h := by cases h

theorem writable_ofStorage {envName : String} {v : Storage.ObjectVersion}
    (h : ∀ t, v.lastModified = some t → Timestamp.ofText? t.text = some t) :
    (ofStorage envName v).Writable := by
  unfold ofStorage
  split
  · exact writable_empty envName
  · next hzero =>
    refine ⟨(writable_empty envName).serial, fun htoken => hzero ?_, h⟩
    rw [Storage.ObjectVersion.isZero, String.isEmpty_iff]
    exact Option.some.inj htoken

theorem validate_ofSerial {envName : String} {n : Nat} (h : Text.isAllBlank envName = false) :
    (ofSerial envName n).validate = .ok () := by
  simp only [validate, ofSerial, empty, h, Bool.false_eq_true, if_false, Option.isSome_none,
    Bool.and_false]

theorem validate_ofStorage {envName : String} {v : Storage.ObjectVersion}
    (h : Text.isAllBlank envName = false) : (ofStorage envName v).validate = .ok () := by
  unfold ofStorage
  split <;> simp only [validate, empty, h, Bool.false_eq_true, if_false, Option.isSome_none,
    Bool.false_and]

theorem serialDecoder_string {n : Nat} (h : n < Number.wordLimit) (room : Nat) :
    serialDecoder room (.string (some (toString n))) = .ok (some n) := by
  have hempty : (toString n).isEmpty = false := by
    rw [← Bool.not_eq_true, String.isEmpty_iff]
    intro heq
    have hlist : Nat.toDigits 10 n = [] := Nat.toList_repr.symm.trans (congrArg String.toList heq)
    exact Nat.toDigits_ne_nil hlist
  have hscalar : scalarDecoder.optional room (.string (some (toString n))) =
      .ok (some (.text (toString n))) := rfl
  rw [serialDecoder, hscalar]
  simp only [bind, Except.bind, hempty, wordOfText?_toString h]
  rfl

theorem nonEmptyDecoder_string {token : String} (h : token ≠ "") (room : Nat) :
    nonEmptyDecoder room (.string (some token)) = .ok (some token) := by
  have hempty : token.isEmpty = false := by
    rw [← Bool.not_eq_true, String.isEmpty_iff]
    exact h
  change (Except.ok (if token.isEmpty then none else some token) : Json.Result _) = _
  rw [hempty]
  rfl

end Version

theorem foldMembers_field {δ : Type} {r : Json.Record δ} {field : Json.Field δ} {room : Nat}
    {d e : δ} {key : String} {doc : Document} {rest : List (Key × Document)} {closed : Bool}
    (hfield : r.fields.find? (·.name = key) = some field) (hset : field.isSet d = false)
    (hread : field.read d room doc = .ok e) :
    Document.foldMembers (r.readMember room) d ((.text key, doc) :: rest) closed =
      Document.foldMembers (r.readMember room) e rest closed := by
  simp only [Document.foldMembers, Record.readMember, hfield, hset, Bool.false_eq_true, if_false,
    hread]
  rfl

namespace Version

variable {room : Nat} {envName : String} {rest : List (String × Value)}

theorem fold_serial {serial : Option Nat} (h : ∀ n, serial = some n → n < Number.wordLimit) :
    Document.foldMembers (record.readMember room) ⟨some envName, none, none, none, none⟩
        (Document.ofMembers (member "serial" (serial.map toString) ++ rest)) true =
      Document.foldMembers (record.readMember room)
        ⟨some envName, serial.map some, none, none, none⟩ (Document.ofMembers rest) true := by
  cases serial with
  | none => rfl
  | some n =>
    refine foldMembers_field rfl rfl ?_
    simp only [Document.ofValue, serialDecoder_string (h n rfl)]
    rfl

theorem fold_token {serial : Option (Option Nat)} {token : Option String} (h : token ≠ some "") :
    Document.foldMembers (record.readMember room) ⟨some envName, serial, none, none, none⟩
        (Document.ofMembers (member "storage_version" token ++ rest)) true =
      Document.foldMembers (record.readMember room)
        ⟨some envName, serial, token.map some, none, none⟩ (Document.ofMembers rest) true := by
  cases token with
  | none => rfl
  | some s =>
    refine foldMembers_field rfl rfl ?_
    simp only [Document.ofValue, nonEmptyDecoder_string (fun hs => h (congrArg some hs))]
    rfl

theorem fold_time {serial : Option (Option Nat)} {token : Option (Option String)}
    {time : Option Timestamp} (h : ∀ t, time = some t → Timestamp.ofText? t.text = some t) :
    Document.foldMembers (record.readMember room) ⟨some envName, serial, token, none, none⟩
        (Document.ofMembers (member "last_modified" (time.map (·.text)) ++ rest)) true =
      Document.foldMembers (record.readMember room)
        ⟨some envName, serial, token, time.map some, none⟩ (Document.ofMembers rest) true := by
  cases time with
  | none => rfl
  | some t =>
    refine foldMembers_field rfl rfl ?_
    simp only [Document.ofValue, Decoder.optional, Decoder.timestamp, h t rfl]
    rfl

theorem fold_planOnly {serial : Option (Option Nat)} {token : Option (Option String)}
    {time : Option (Option Timestamp)} (planOnly : Bool) :
    Document.foldMembers (record.readMember room) ⟨some envName, serial, token, time, none⟩
        (Document.ofMembers (member "plan_only" (if planOnly then some "true" else none))) true =
      .ok ⟨some envName, serial, token, time, if planOnly then some true else none⟩ := by
  cases planOnly <;> rfl

theorem decoder_toJson {v : Version} (h : v.Writable) (room : Nat) :
    decoder (room + 1) (Document.ofValue v.toJson) = .ok v := by
  -- The draft is filled in the order in which the members are written.
  obtain ⟨envName, serial, token, time, planOnly⟩ := v
  have hfold : Document.foldMembers (record.readMember room) record.start
      (Document.ofMembers (("env_name", .string envName) ::
        (member "serial" (serial.map toString) ++ member "storage_version" token ++
          member "last_modified" (time.map (·.text)) ++
          member "plan_only" (if planOnly then some "true" else none)))) true =
      .ok ⟨some envName, serial.map some, token.map some, time.map some,
        if planOnly then some true else none⟩ := by
    rw [Document.ofMembers, foldMembers_field (e := ⟨some envName, none, none, none, none⟩) rfl rfl
      rfl, List.append_assoc, List.append_assoc, fold_serial h.serial, fold_token h.token,
      fold_time h.time, fold_planOnly]
  have hrecord : record.decoder (room + 1) (Document.ofValue (toJson ⟨envName, serial, token, time,
      planOnly⟩)) = .ok ⟨some envName, serial.map some, token.map some, time.map some,
        if planOnly then some true else none⟩ := by
    simp only [Record.decoder, toJson, Document.ofValue, Decoder.enter, hfold]
    rfl
  simp only [decoder, hrecord]
  cases serial <;> cases token <;> cases time <;> cases planOnly <;> rfl

theorem wordyMembers_append {l₁ l₂ : List (String × Value)} (h₁ : WordyMembers l₁)
    (h₂ : WordyMembers l₂) : WordyMembers (l₁ ++ l₂) := by
  induction l₁ with
  | nil => exact h₂
  | cons e rest ih => exact ⟨h₁.1, ih h₁.2⟩

theorem wordyMembers_member (name : String) (value : Option String) :
    WordyMembers (member name value) := by
  cases value with
  | none => trivial
  | some s => exact ⟨trivial, trivial⟩

theorem wordy_toJson (v : Version) : v.toJson.Wordy := by
  refine ⟨trivial, ?_⟩
  refine wordyMembers_append (wordyMembers_append (wordyMembers_append ?_ ?_) ?_) ?_
  · exact wordyMembers_member _ _
  · exact wordyMembers_member _ _
  · exact wordyMembers_member _ _
  · exact wordyMembers_member _ _

end Version

theorem isBlank_lineEnd : Document.IsBlank "\n".toList := by
  intro c hc
  rw [List.mem_singleton.1 hc]
  rfl

namespace MetadataField

theorem decoder_toJson (f : MetadataField) (room : Nat) :
    decoder (room + 1) (Document.ofValue f.toJson) = .ok f := by
  have hfold : Document.foldMembers (record.readMember room) record.start
      (Document.ofMembers [("name", .string f.name), ("value", .string f.value)]) true =
      .ok ⟨some f.name, some f.value⟩ := by
    rw [Document.ofMembers, foldMembers_field (e := ⟨some f.name, none⟩) rfl rfl rfl,
      Document.ofMembers, foldMembers_field (e := ⟨some f.name, some f.value⟩) rfl rfl rfl]
    rfl
  simp only [decoder, Record.decoder, toJson, Document.ofValue, Decoder.enter, hfold]
  rfl

theorem decoder_list (fields : List MetadataField) (room : Nat) :
    Document.mapItems (decoder (room + 1)) (Document.ofItems (fields.map toJson)) true =
      .ok fields := by
  induction fields with
  | nil => rfl
  | cons f fs ih =>
    rw [List.map_cons, Document.ofItems, Document.mapItems, decoder_toJson, ih]
    rfl

theorem wordyItems (fields : List MetadataField) : WordyItems (fields.map toJson) := by
  induction fields with
  | nil => trivial
  | cons f fs ih => exact ⟨⟨trivial, trivial, trivial⟩, ih⟩

end MetadataField

namespace Response

theorem decoder_toJson {r : Response} (h : r.version.Writable) (room : Nat) :
    decoder (room + 3) (Document.ofValue r.toJson) = .ok r := by
  obtain ⟨version, metadata⟩ := r
  have hversion : Version.decoder (room + 2) (Document.ofValue version.toJson) = .ok version :=
    Version.decoder_toJson h _
  cases metadata with
  | nil =>
    have hfold : Document.foldMembers (record.readMember (room + 2)) record.start
        (Document.ofMembers [("version", version.toJson)]) true = .ok ⟨some version, none⟩ := by
      rw [Document.ofMembers, foldMembers_field (e := ⟨some version, none⟩) rfl rfl
        (by simp only [hversion]; rfl)]
      rfl
    simp only [decoder, Record.decoder, toJson, Document.ofValue, Decoder.enter, List.isEmpty_nil,
      if_true, hfold]
    rfl
  | cons f fs =>
    have hlist : MetadataField.decoder.list (room + 2)
        (Document.ofValue (.array ((f :: fs).map MetadataField.toJson))) = .ok (f :: fs) := by
      simp only [Decoder.list, Document.ofValue, Decoder.enter, MetadataField.decoder_list]
    have hfold : Document.foldMembers (record.readMember (room + 2)) record.start
        (Document.ofMembers [("version", version.toJson),
          ("metadata", .array ((f :: fs).map MetadataField.toJson))]) true =
        .ok ⟨some version, some (f :: fs)⟩ := by
      rw [Document.ofMembers, foldMembers_field (e := ⟨some version, none⟩) rfl rfl
        (by simp only [hversion]; rfl), Document.ofMembers,
        foldMembers_field (e := ⟨some version, some (f :: fs)⟩) rfl rfl
        (by simp only [hlist]; rfl)]
      rfl
    simp only [decoder, Record.decoder, toJson, Document.ofValue, Decoder.enter,
      List.isEmpty_cons, Bool.false_eq_true, if_false, hfold]
    rfl

theorem wordy_toJson (r : Response) : r.toJson.Wordy := by
  refine ⟨r.version.wordy_toJson, ?_⟩
  split
  · trivial
  · exact ⟨MetadataField.wordyItems _, trivial⟩

def line (r : Response) : String := r.toJson.compact ++ "\n"

def ofLine (text : String) : Json.Result Response :=
  decodeBytes decoder (Text.Utf8.encode text)

theorem ofLine_line {r : Response} (h : r.version.Writable) : ofLine r.line = .ok r := by
  rw [ofLine, line, decodeBytes_encode, decodeText_compact decoder r.wordy_toJson isBlank_lineEnd]
  exact decoder_toJson h _

end Response

namespace Pipeline.Request

def document (source : Value) (version : Option Version) : Value :=
  .object (("source", source) :: (version.map fun v => ("version", v.toJson)).toList)

def record : Json.Record (Progress Request) where
  name := "Request"
  fields := [
    Progress.field "source" Source.decoder fun r v => { r with source := v },
    Progress.field "version" Version.decoder.optional fun r v => { r with version := v },
    Progress.field "params" Params.decoder fun r v => { r with params := v }]
  start := ⟨{}, []⟩

theorem optional_toJson {v : Version} (h : v.Writable) (room : Nat) :
    Version.decoder.optional (room + 1) (Document.ofValue v.toJson) = .ok (some v) := by
  have hdecoder := Version.decoder_toJson h room
  change (Version.decoder (room + 1) (Document.ofValue v.toJson)).map some = _
  rw [hdecoder]
  rfl

theorem fold_document {description : Value} {source : Source} {version : Option Version}
    {room : Nat} (hsource : Source.decoder (room + 1) (Document.ofValue description) = .ok source)
    (hversion : ∀ v, version = some v → v.Writable) :
    ∃ seen, Document.foldMembers (record.readMember (room + 1)) record.start (Document.ofMembers
        (("source", description) :: (version.map fun v => ("version", v.toJson)).toList)) true =
      .ok ⟨⟨source, version, {}⟩, seen⟩ := by
  let start : Progress Request := ⟨⟨source, none, {}⟩, ["source"]⟩
  cases version with
  | none =>
    exact ⟨_, foldMembers_field (e := start) rfl rfl (by simp only [Progress.field, hsource]; rfl)⟩
  | some v =>
    let last : Progress Request := ⟨⟨source, some v, {}⟩, ["version", "source"]⟩
    refine ⟨last.seen, ?_⟩
    refine (foldMembers_field (e := start) rfl rfl
      (by simp only [Progress.field, hsource]; rfl)).trans ?_
    exact foldMembers_field (e := last) rfl rfl
      (by simp only [Progress.field, optional_toJson (hversion v rfl)]; rfl)

theorem ofBytes_document {description : Value} {source : Source} {version : Option Version}
    (hwordy : description.Wordy)
    (hsource : Source.decoder (maxDepth - 1) (Document.ofValue description) = .ok source)
    (hversion : ∀ v, version = some v → v.Writable) :
    ofBytes (Text.Utf8.encode ((document description version).compact ++ "\n")) =
      .ok ⟨source, version, {}⟩ := by
  have hdocument : (document description version).Wordy := by
    cases version with
    | none => exact ⟨hwordy, trivial⟩
    | some v => exact ⟨hwordy, v.wordy_toJson, trivial⟩
  have hdecoder : decoder maxDepth (Document.ofValue (document description version)) =
      .ok ⟨source, version, {}⟩ := by
    obtain ⟨seen, hfold⟩ := fold_document hsource hversion
    have hrecord : record.decoder maxDepth (Document.ofValue (document description version)) =
        .ok ⟨⟨source, version, {}⟩, seen⟩ := by
      simp only [Record.decoder, document, Document.ofValue, maxDepth, Decoder.enter, hfold]
      rfl
    change (do return (← record.decoder maxDepth _).value) = _
    rw [hrecord]
    rfl
  rw [ofBytes, decodeBytes_encode, decodeText_compact decoder hdocument isBlank_lineEnd, hdecoder]

end Pipeline.Request

end Provision
