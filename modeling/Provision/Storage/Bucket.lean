import Provision.Storage.Config
import Provision.Storage.Driver
import Provision.Time.HttpDate

/-!
# Objects in a bucket

Every operation is one request, and an upload is followed by a probe, so that its version is
the one later probes tell. The version of an object comes from the first usable header of
version id, entity tag and modification time. Only a reply with status 404 means absence.
-/

namespace Provision.Storage

structure Bucket where
  name : String
  /-- What every key is put below. -/
  folder : String
  encryption : Option String
  endpoint : Host.Endpoint

namespace Bucket

open Provision.Host

def defaultRegion : String := "us-east-1"

def endpointUrl (endpoint : String) : String :=
  if endpoint.startsWith "http://" || endpoint.startsWith "https://" then endpoint
  else "https://" ++ endpoint

/-- A folder and a key with exactly one slash between them; no folder leaves the key alone. -/
def joinKey (folder key : String) : String :=
  let folder := Text.trimChar '/' folder
  if folder.isEmpty then key else folder ++ "/" ++ Text.trimCharStart '/' key

def credentialsOf (c : Config) : Except Error (Option Credentials) :=
  match c.string? "access_key_id", c.string? "secret_access_key" with
  | some accessKey, some secretKey =>
    .ok (some ⟨accessKey, secretKey, c.string? "session_token"⟩)
  | none, none => .ok none
  | _, _ =>
    .error (.configuration "access_key_id and secret_access_key must be set together")

def ofConfig (c : Config) : Except Error Bucket := do
  let name ← c.requireString "bucket"
  let url := (c.string? "endpoint").map endpointUrl
  let credentials ← credentialsOf c
  return {
    name
    folder := (c.string? "bucket_path").getD ""
    encryption := c.string? "server_side_encryption"
    endpoint := {
      region := (c.string? "region").getD defaultRegion
      url
      pathStyle := url.isSome && c.boolOr "use_path_style" true
      credentials } }

def objectKey (b : Bucket) (key : String) : String := joinKey b.folder key

inductive Failure where
  | unsendable
  | unreachable
  | refused (status : Nat)
  | brokenOff
deriving DecidableEq

def Failure.message : Failure → String
  | unsendable => "failed to construct request"
  | unreachable => "dispatch failure"
  | refused _ => "service error"
  | brokenOff => "streaming error"

def Failure.meansAbsent (f : Failure) : Bool := f = .refused 404

def isSuccess (status : Nat) : Bool := 200 ≤ status && status < 300

def modified (reply : ObjectReply) : Option (Option Timestamp) :=
  match reply.lastModified with
  | none => some none
  | some text => (HttpDate.ofText? text).map some

/-- The version that the headers tell. A bucket that keeps no versions tells the id `null`. -/
def versionOf (versionId entityTag : Option String) (lastModified : Option Timestamp) :
    ObjectVersion :=
  let fallback :=
    match entityTag with
    | some tag =>
      if tag.isEmpty then (lastModified.map (·.offsetText)).getD "" else Text.trimChar '"' tag
    | none => (lastModified.map (·.offsetText)).getD ""
  let token :=
    match versionId with
    | some id => if id.isEmpty || id = "null" then fallback else id
    | none => fallback
  ⟨token, lastModified⟩

def request (b : Bucket) (method : Method) (key : String) : ObjectRequest where
  method
  endpoint := b.endpoint
  bucket := b.name
  key := b.objectKey key
  contentType := none
  encryption := none
  body := []

def exchange (r : ObjectRequest) : HostProgram (Except Failure ObjectReply) := do
  if r.key.isEmpty then return .error .unsendable
  match ← send r with
  | .error .unreachable => return .error .unreachable
  | .ok reply =>
    if isSuccess reply.status then return .ok reply else return .error (.refused reply.status)

/-- The reply's version, where a reply with an unreadable date is no good reply. -/
def replyVersion (reply : ObjectReply) : Except Failure ObjectVersion :=
  match modified reply with
  | none => .error (.refused reply.status)
  | some lastModified => .ok (versionOf reply.versionId reply.entityTag lastModified)

def version (b : Bucket) (key : String) : Work ObjectVersion := do
  let answer ← Task.lift (exchange (b.request .head key))
  match answer.bind replyVersion with
  | .ok v => return v
  | .error failure =>
    if failure.meansAbsent then return .zero
    else throw (.read (b.objectKey key) failure.message)

def upload (b : Bucket) (key : String) (content : Bytes) : Work ObjectVersion := do
  let objectKey := b.objectKey key
  let put := { b.request .put key with
    contentType := some "application/json"
    encryption := b.encryption
    body := content }
  match ← Task.lift (exchange put) with
  | .error failure => throw (.write objectKey failure.message)
  | .ok _ =>
    Task.lift (log .debug ("Uploaded s3://" ++ b.name ++ "/" ++ objectKey))
    let v ← b.version key
    if v.isZero then throw (.write objectKey "object missing immediately after upload")
    return v

def download (b : Bucket) (key : String) : Work (Bytes × ObjectVersion) := do
  let objectKey := b.objectKey key
  let answer ← Task.lift (exchange (b.request .get key))
  match answer.bind fun reply => (replyVersion reply).map (reply, ·) with
  | .error failure =>
    if failure.meansAbsent then throw (.notFound objectKey)
    else throw (.read objectKey failure.message)
  | .ok (reply, v) =>
    if reply.complete then return (reply.body, v)
    else throw (.read objectKey Failure.brokenOff.message)

def delete (b : Bucket) (key : String) : Work Unit := do
  match ← Task.lift (exchange (b.request .delete key)) with
  | .error failure => throw (.write (b.objectKey key) failure.message)
  | .ok _ => return ()

def driver (b : Bucket) : Driver where
  name := "s3"
  answer
    | .upload key content => (b.upload key content).run
    | .download key => (b.download key).run
    | .version key => (b.version key).run
    | .delete key => (b.delete key).run

end Bucket

end Provision.Storage
