import Provision.Storage.Error

/-!
# Errors of a run

What can go wrong while an environment is applied, destroyed or read. Failures after the
infrastructure may have changed wrap the failure that caused them.
-/

namespace Provision.Lifecycle

inductive Error where
  | validation (text : String)
  | storageNotFound (text : String)
  | storageRead (text : String)
  | storageWrite (text : String)
  /-- The engine failed, or printed what cannot be used. -/
  | engine (command : String) (text : String) (output : String)
  /-- The workspace appeared between listing and creation. -/
  | workspaceRace (workspace : String) (output : String)
  | malformedState (text : String)
  /-- The infrastructure was changed, but could not be read back. -/
  | postApply (source : Error)
  | applyFailed (source : Error)
  /-- The apply failed, and so did the destroy that was to make up for it. -/
  | rollbackFailed (apply : Error) (destroy : Error)
deriving DecidableEq, Inhabited

namespace Error

def message : Error → String
  | validation text => "Invalid configuration: " ++ text
  | storageNotFound text => text
  | storageRead text => "Storage read error: " ++ text
  | storageWrite text => "Storage write error: " ++ text
  | engine command text output =>
    "`" ++ command ++ "` failed: " ++ text ++ "\nOutput:\n" ++ output
  | workspaceRace workspace output =>
    "Workspace '" ++ workspace ++ "' was created concurrently by another run; " ++
      "operations on one environment must be serialized.\nOutput:\n" ++ output
  | malformedState text => "Malformed state: " ++ text
  | postApply source =>
    "Apply succeeded but its result could not be read back; infrastructure may be live.\n" ++
      source.message
  | applyFailed source => "Apply Error: " ++ source.message
  | rollbackFailed apply destroy =>
    "Apply Error: " ++ apply.message ++ "\nDestroy Error: " ++ destroy.message

def chain : Error → List String
  | postApply source => (postApply source).message :: source.chain
  | applyFailed source => (applyFailed source).message :: source.chain
  | e => [e.message]

def rollback (apply destroy : Error) : Error :=
  match apply with
  | applyFailed source => rollbackFailed source destroy
  | apply => rollbackFailed apply destroy

def isNotFound : Error → Bool
  | storageNotFound _ => true
  | _ => false

def isApplyFailed : Error → Bool
  | applyFailed _ => true
  | _ => false

/-- Did the failure come after infrastructure may have changed? -/
def infrastructureMayBeLive : Error → Bool
  | postApply _ => true
  | applyFailed _ => true
  | rollbackFailed _ _ => true
  | _ => false

def ofStorage (e : Storage.Error) : Error :=
  match e with
  | .notFound _ => storageNotFound e.message
  | .write _ _ => storageWrite e.message
  | .configuration _ => validation e.message
  | .unsupportedDriver _ => validation e.message
  | .read _ _ => storageRead e.message
  | .io _ => storageRead e.message

end Error

end Provision.Lifecycle
