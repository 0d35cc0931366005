/-!
# Errors of storage

Why a storage driver could not be built or could not do what it was asked. The direction of
the failed transfer is part of the error.
-/

namespace Provision.Storage

inductive Error where
  | notFound (key : String)
  | unsupportedDriver (name : String)
  | configuration (text : String)
  | read (key : String) (cause : String)
  | write (key : String) (cause : String)
  /-- A file of the run itself could not be used. -/
  | io (text : String)
deriving DecidableEq, Inhabited

namespace Error

def message : Error → String
  | notFound key => "Key not found in storage: " ++ key
  | unsupportedDriver name => "Unsupported storage driver: " ++ name
  | configuration text => "Storage configuration error: " ++ text
  | read key cause => "Failed to read '" ++ key ++ "' from storage: " ++ cause
  | write key cause => "Failed to write '" ++ key ++ "' to storage: " ++ cause
  | io text => "I/O error: " ++ text

def isNotFound : Error → Bool
  | notFound _ => true
  | _ => false

end Error

end Provision.Storage
