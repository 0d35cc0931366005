import Provision.Json.Document
import Provision.Json.Value
import Provision.Time.Timestamp

/-!
# Decoding documents

A decoder turns a document into a value of some type, or says what is wrong with it. It goes
through the document in the order of the text, so the first fault met is the one reported. At
most 127 arrays and objects may be nested where a decoder looks into them.
-/

namespace Provision.Json

inductive DecodeError where
  /-- The text breaks off or is not JSON. -/
  | malformed
  | wrongType (found : Shape) (expected : String)
  | missingField (name : String)
  | duplicateField (name : String)
  | unknownVariant (name : String) (variants : List String)
  | tooFewItems (count : Nat) (expected : String)
  | notSerial (text : String)
  | noScalar
  | badTimestamp

def listVariants (names : List String) : String :=
  " or ".intercalate (names.map fun n => "`" ++ n ++ "`")

namespace DecodeError

def message : DecodeError → String
  | malformed => "<json syntax error>"
  | wrongType found expected => "invalid type: " ++ found.describe ++ ", expected " ++ expected
  | missingField name => "missing field `" ++ name ++ "`"
  | duplicateField name => "duplicate field `" ++ name ++ "`"
  | unknownVariant name variants =>
    "unknown variant `" ++ name ++ "`, expected " ++ listVariants variants
  | tooFewItems count expected =>
    "invalid length " ++ toString count ++ ", expected " ++ expected
  | notSerial text => "invalid serial '" ++ text ++ "'"
  | noScalar => "data did not match any variant of untagged enum Scalar"
  | badTimestamp => "<timestamp error>"

end DecodeError

abbrev Result (α : Type) : Type := Except DecodeError α

/-- Decodes a document, given how many more levels it may be nested. -/
abbrev Decoder (α : Type) : Type := Nat → Document → Result α

def maxDepth : Nat := 127

namespace Document

def shape (d : Document) : Result Shape :=
  match d.shape? with
  | some s => .ok s
  | none => .error .malformed

mutual

/-- Is the text of the value well formed? All that is asked of a value nobody reads. -/
def wellFormed : Document → Bool
  | array items closed => closed && itemsWellFormed items
  | object members closed => closed && membersWellFormed members
  | broken => false
  | _ => true

def itemsWellFormed : List Document → Bool
  | [] => true
  | d :: ds => d.wellFormed && itemsWellFormed ds

def membersWellFormed : List (Key × Document) → Bool
  | [] => true
  | (_, d) :: ds => d.wellFormed && membersWellFormed ds

end

def skip (d : Document) : Result Unit :=
  if d.wellFormed then .ok () else .error .malformed

mutual

def toValue (room : Nat) : Document → Result Value
  | null => .ok .null
  | bool b => .ok (.bool b)
  | number (some n) => .ok (.number n)
  | string (some s) => .ok (.string s)
  | array items closed =>
    match room with
    | 0 => .error .malformed
    | room + 1 => do
      let values ← itemValues room items closed
      return .array values
  | object members closed =>
    match room with
    | 0 => .error .malformed
    | room + 1 => do
      let d ← memberValues room {} members closed
      return .ofDict d
  | _ => .error .malformed

def itemValues (room : Nat) : List Document → Bool → Result (List Value)
  | [], closed => if closed then .ok [] else .error .malformed
  | d :: ds, closed => do
    let v ← toValue room d
    let vs ← itemValues room ds closed
    return v :: vs

def memberValues (room : Nat) (acc : Dict Value) :
    List (Key × Document) → Bool → Result (Dict Value)
  | [], closed => if closed then .ok acc else .error .malformed
  | (.text key, d) :: rest, closed => do
    let v ← toValue room d
    memberValues room (acc.insert key v) rest closed
  | _ :: _, _ => .error .malformed

end

def foldMembers {σ : Type} (f : σ → String → Document → Result σ) (acc : σ) :
    List (Key × Document) → Bool → Result σ
  | [], closed => if closed then .ok acc else .error .malformed
  | (.text key, d) :: rest, closed => do
    let acc ← f acc key d
    foldMembers f acc rest closed
  | _ :: _, _ => .error .malformed

def mapItems {α : Type} (f : Document → Result α) : List Document → Bool → Result (List α)
  | [], closed => if closed then .ok [] else .error .malformed
  | d :: ds, closed => do
    let a ← f d
    let as ← mapItems f ds closed
    return a :: as

end Document

namespace Decoder

variable {α : Type}

def mismatch (expected : String) (d : Document) : Result α := do
  let found ← d.shape
  throw (.wrongType found expected)

def enter (room : Nat) (inner : Nat → Result α) : Result α :=
  match room with
  | 0 => .error .malformed
  | room + 1 => inner room

def string : Decoder String := fun _ d =>
  match d with
  | .string (some s) => .ok s
  | d => mismatch "a string" d

def bool : Decoder Bool := fun _ d =>
  match d with
  | .bool b => .ok b
  | d => mismatch "a boolean" d

def value : Decoder Value := fun room d => d.toValue room

def optional (decoder : Decoder α) : Decoder (Option α) := fun room d =>
  match d with
  | .null => .ok none
  | d => (decoder room d).map some

def list (decoder : Decoder α) : Decoder (List α) := fun room d =>
  match d with
  | .array items closed => enter room fun room => Document.mapItems (decoder room) items closed
  | d => mismatch "a sequence" d

def dict (decoder : Decoder α) : Decoder (Dict α) := fun room d =>
  match d with
  | .object members closed =>
    enter room fun room =>
      Document.foldMembers (fun acc key d => (decoder room d).map (acc.insert key)) {} members closed
  | d => mismatch "a map" d

def timestamp : Decoder Timestamp := fun _ d =>
  match d with
  | .string (some s) =>
    match Timestamp.ofText? s with
    | some t => .ok t
    | none => .error .badTimestamp
  | d => mismatch "an RFC 3339 formatted date and time string" d

end Decoder

structure Field (δ : Type) where
  name : String
  required : Bool
  isSet : δ → Bool
  read : δ → Decoder δ

/-- A record as documents write it: an object, or an array of its fields in order. -/
structure Record (δ : Type) where
  /-- The name that error messages use. -/
  name : String
  fields : List (Field δ)
  start : δ

namespace Record

variable {δ : Type}

def title (r : Record δ) : String := "struct " ++ r.name

def titleWithSize (r : Record δ) : String :=
  r.title ++ " with " ++ toString r.fields.length ++
    (if r.fields.length = 1 then " element" else " elements")

def readMember (r : Record δ) (room : Nat) (draft : δ) (key : String) (d : Document) :
    Result δ :=
  match r.fields.find? (·.name = key) with
  | none => d.skip.map fun _ => draft
  | some field =>
    if field.isSet draft then .error (.duplicateField key)
    else field.read draft room d

def checkRequired (fields : List (Field δ)) (draft : δ) : Result δ :=
  match fields.find? fun f => f.required && !f.isSet draft with
  | none => .ok draft
  | some field => .error (.missingField field.name)

def readItems (r : Record δ) (room : Nat) :
    Nat → List (Field δ) → List Document → Bool → δ → Result δ
  | _, [], [], closed, draft => if closed then .ok draft else .error .malformed
  | _, [], _ :: _, _, _ => .error .malformed
  | index, field :: fields, [], closed, draft =>
    if !closed then .error .malformed
    else if field.required then .error (.tooFewItems index r.titleWithSize)
    else readItems r room (index + 1) fields [] closed draft
  | index, field :: fields, d :: ds, closed, draft => do
    let draft ← field.read draft room d
    readItems r room (index + 1) fields ds closed draft

def decoder (r : Record δ) : Decoder δ := fun room d =>
  match d with
  | .object members closed =>
    Decoder.enter room fun room => do
      let draft ← Document.foldMembers (r.readMember room) r.start members closed
      checkRequired r.fields draft
  | .array items closed =>
    Decoder.enter room fun room => r.readItems room 0 r.fields items closed r.start
  | d => Decoder.mismatch r.title d

end Record

def decode {α : Type} (decoder : Decoder α) (l : List Symbol) : Result α := do
  let (d, rest) := Document.read l
  let a ← decoder maxDepth d
  if (Document.skipSpace rest).isEmpty then return a else throw .malformed

def decodeBytes {α : Type} (decoder : Decoder α) (bytes : Bytes) : Result α :=
  decode decoder (Text.Utf8.decode bytes)

def decodeText {α : Type} (decoder : Decoder α) (text : String) : Result α :=
  decode decoder (text.toList.map some)

end Provision.Json
