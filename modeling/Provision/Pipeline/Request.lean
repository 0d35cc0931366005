import Provision.Storage.Config
import Provision.Version

/-!
# Requests

A request carries the configuration of a resource, the version that a step is about, and the
parameters of the step. Every field may be missing; unknown fields are passed over.
-/

namespace Provision.Pipeline

inductive ActionKind where
  | create
  | destroy
deriving DecidableEq, Inhabited

namespace ActionKind

def variants : List String := ["create", "destroy"]

def ofName (name : String) : Json.Result ActionKind :=
  if name = "create" then .ok create
  else if name = "destroy" then .ok destroy
  else .error (.unknownVariant name variants)

def decoder : Json.Decoder ActionKind := fun room doc =>
  match doc with
  | .string (some name) => ofName name
  | .object ((.text name, value) :: others) closed =>
    Json.Decoder.enter room fun _ => do
      let kind ← ofName name
      match ← value.shape with
      | .null => if others.isEmpty && closed then return kind else throw .malformed
      | found => throw (.wrongType found "unit")
  | .object ((.other (some found), _) :: _) _ =>
    Json.Decoder.enter room fun _ => throw (.wrongType found "variant identifier")
  | _ => .error .malformed

end ActionKind

structure Source where
  envName : Option String := none
  backendType : Option String := none
  backendConfig : Dict Json.Value := {}
  storage : Option Storage.Config := none
  terraformSource : Option String := none
  vars : Dict Json.Value := {}
  env : Dict String := {}
  deleteOnFailure : Bool := false
  imports : Dict String := {}
  privateKey : Option String := none

/-- The parameters of one step. A get step reads `action`, `outputModule` and
`outputStatefile` only. -/
structure Params where
  action : ActionKind := .create
  envName : Option String := none
  envNameFile : Option String := none
  generateRandomName : Bool := false
  terraformSource : Option String := none
  vars : Dict Json.Value := {}
  varFiles : List String := []
  env : Dict String := {}
  deleteOnFailure : Bool := false
  imports : Dict String := {}
  importFiles : List String := []
  outputModule : Option String := none
  outputStatefile : Bool := false
  /-- Only tell the current version. -/
  planOnly : Bool := false

structure Request where
  source : Source := {}
  version : Option Version := none
  params : Params := {}

structure Progress (α : Type) where
  value : α
  seen : List String

namespace Progress

variable {α β : Type}

def field (name : String) (decoder : Json.Decoder β) (set : α → β → α) :
    Json.Field (Progress α) where
  name
  required := false
  isSet p := p.seen.contains name
  read p room doc := do
    let b ← decoder room doc
    return ⟨set p.value b, name :: p.seen⟩

def decoder (name : String) (start : α) (fields : List (Json.Field (Progress α))) :
    Json.Decoder α := fun room doc => do
  let record : Json.Record (Progress α) := ⟨name, fields, ⟨start, []⟩⟩
  return (← record.decoder room doc).value

end Progress

open Progress (field)
open Json.Decoder (string bool value optional list dict)

def Source.decoder : Json.Decoder Source :=
  Progress.decoder "Source" {} [
    field "env_name" string.optional fun s v => { s with envName := v },
    field "backend_type" string.optional fun s v => { s with backendType := v },
    field "backend_config" value.dict fun s v => { s with backendConfig := v },
    field "storage" Storage.Config.decoder.optional fun s v => { s with storage := v },
    field "terraform_source" string.optional fun s v => { s with terraformSource := v },
    field "vars" value.dict fun s v => { s with vars := v },
    field "env" string.dict fun s v => { s with env := v },
    field "delete_on_failure" bool fun s v => { s with deleteOnFailure := v },
    field "imports" string.dict fun s v => { s with imports := v },
    field "private_key" string.optional fun s v => { s with privateKey := v }]

def Params.decoder : Json.Decoder Params :=
  Progress.decoder "Params" {} [
    field "action" ActionKind.decoder fun p v => { p with action := v },
    field "env_name" string.optional fun p v => { p with envName := v },
    field "env_name_file" string.optional fun p v => { p with envNameFile := v },
    field "generate_random_name" bool fun p v => { p with generateRandomName := v },
    field "terraform_source" string.optional fun p v => { p with terraformSource := v },
    field "vars" value.dict fun p v => { p with vars := v },
    field "var_files" string.list fun p v => { p with varFiles := v },
    field "env" string.dict fun p v => { p with env := v },
    field "delete_on_failure" bool fun p v => { p with deleteOnFailure := v },
    field "imports" string.dict fun p v => { p with imports := v },
    field "import_files" string.list fun p v => { p with importFiles := v },
    field "output_module" string.optional fun p v => { p with outputModule := v },
    field "output_statefile" bool fun p v => { p with outputStatefile := v },
    field "plan_only" bool fun p v => { p with planOnly := v }]

namespace Request

def decoder : Json.Decoder Request :=
  Progress.decoder "Request" {} [
    field "source" Source.decoder fun r v => { r with source := v },
    field "version" Version.decoder.optional fun r v => { r with version := v },
    field "params" Params.decoder fun r v => { r with params := v }]

def ofBytes (raw : Bytes) : Except Lifecycle.Error Request :=
  match Json.decodeBytes decoder raw with
  | .ok r => .ok r
  | .error e => .error (.validation ("Failed to parse request: " ++ e.message))

end Request

end Provision.Pipeline
