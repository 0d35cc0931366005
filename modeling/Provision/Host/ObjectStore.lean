import Provision.Text.Utf8

/-!
# Requests to an object store

One request names an object in a bucket and carries what its method needs; the reply carries
the headers that identify a version of the object.
-/

namespace Provision.Host

inductive Method where
  | put
  | head
  | get
  | delete
deriving DecidableEq

def Method.text : Method → String
  | put => "PUT"
  | head => "HEAD"
  | get => "GET"
  | delete => "DELETE"

structure Credentials where
  accessKey : String
  secretKey : String
  sessionToken : Option String
deriving DecidableEq

/-- Where the store is and how to address it; no endpoint stands for the provider's own. -/
structure Endpoint where
  region : String
  url : Option String
  pathStyle : Bool
  credentials : Option Credentials
deriving DecidableEq

structure ObjectRequest where
  method : Method
  endpoint : Endpoint
  bucket : String
  key : String
  contentType : Option String
  encryption : Option String
  body : Bytes

structure ObjectReply where
  status : Nat
  versionId : Option String
  entityTag : Option String
  lastModified : Option String
  body : Bytes
  complete : Bool

inductive NoReply where
  | unreachable
deriving DecidableEq

end Provision.Host
