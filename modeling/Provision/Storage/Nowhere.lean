import Provision.Storage.Driver

/-!
# Objects that are forgotten

Every upload succeeds with a fresh version and nothing is kept.
-/

namespace Provision.Storage.Nowhere

open Provision.Host

def upload : Work ObjectVersion := do
  let token ← Task.lift freshUuid
  let time ← Task.lift now
  return ⟨token.text, some time⟩

def driver : Driver where
  name := "null"
  answer
    | .upload _ _ => upload.run
    | .download key => pure (.error (.notFound key))
    | .version _ => pure (.ok .zero)
    | .delete _ => pure (.ok ())

end Provision.Storage.Nowhere
