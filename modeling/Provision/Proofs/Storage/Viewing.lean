import Provision.Proofs.Host.Serving
import Provision.Proofs.Lifecycle.Looking
import Provision.Proofs.Storage.LocalDirectory
import Provision.Storage.Build

/-!
# Probes and downloads

A probe and a download leave a store as it is: a local directory is only read, and a bucket is
only sent requests whose method reads.
-/

namespace Provision

open Provision.Host
open Provision.Task (only_bind only_lift only_pure only_throw)

theorem Host.Disk.Serves.unchanged {current : Location} {d d' : Disk} {e : Event effects}
    (h : Serves current d e d') (he : e.op.IsViewing) : d' = d := by
  obtain ⟨op, reply⟩ := e
  cases op with
  | readFile path => exact h.2
  | isFile path => exact h.2
  | isDirectory path => exact h.2
  | pathExists path => exact h.2
  | now => exact h.2
  | freshUuid => exact h
  | log line => exact h
  | readInput => exact h
  | send q => exact h
  | _ => exact he.elim

theorem unchanged_of_viewing {current : Location} {d d' : Disk} {u : Journal}
    (h : Passes (Disk.Serves current) d u d') (hu : ∀ e ∈ u, e.op.IsViewing) : d' = d :=
  h.preserves (I := (· = d)) (fun _ e _ he hserves heq => (hserves.unchanged (hu e he)).trans heq)
    rfl

namespace Storage

def Driver.Views (driver : Driver) : Prop :=
  ∀ c : Call, c.Looks → (driver.answer c).Only Request.IsViewing

namespace Bucket

variable {b : Bucket} {key : String} {K : Request → Prop}

-- What a request asks for does not depend on the key, which is never computed here.
attribute [local irreducible] joinKey

theorem only_exchange {r : ObjectRequest} (h : K (.send r)) : (exchange r).Only K := by
  unfold exchange
  split
  · trivial
  · refine Program.only_bind ⟨h, fun _ => trivial⟩ fun reply => ?_
    cases reply with
    | error e => trivial
    | ok reply =>
      dsimp only
      split <;> trivial

theorem only_version (h : K (.send (b.request .head key))) : (b.version key).run.Only K := by
  refine only_bind (only_lift (only_exchange h)) fun answer => ?_
  cases answer.bind replyVersion with
  | ok v => exact only_pure
  | error failure =>
    dsimp only
    split
    · exact only_pure
    · exact only_throw

theorem only_download (h : K (.send (b.request .get key))) : (b.download key).run.Only K := by
  refine only_bind (only_lift (only_exchange h)) fun answer => ?_
  cases answer.bind fun reply => (replyVersion reply).map (reply, ·) with
  | error failure =>
    dsimp only
    split <;> exact only_throw
  | ok found =>
    dsimp only
    split
    · exact only_pure
    · exact only_throw

theorem inner_driver (b : Bucket) (c : Call) : ((driver b).answer c).Only Request.IsInner := by
  cases c with
  | version key => exact only_version trivial
  | download key => exact only_download trivial
  | delete key =>
    refine only_bind (only_lift (only_exchange trivial)) fun answer => ?_
    cases answer with
    | error failure => exact only_throw
    | ok _ => exact only_pure
  | upload key content =>
    refine only_bind (only_lift (only_exchange trivial)) fun answer => ?_
    cases answer with
    | error failure => exact only_throw
    | ok _ =>
      refine only_bind (only_lift ⟨trivial, fun _ => trivial⟩) fun _ =>
        only_bind (only_version trivial) fun v => ?_
      dsimp only
      split
      · exact only_bind only_throw fun _ => only_pure
      · exact only_pure

theorem views (b : Bucket) : (driver b).Views := by
  intro c hc
  cases c with
  | version key => exact only_version (.inl rfl)
  | download key => exact only_download (.inr rfl)
  | _ => exact hc.elim

end Bucket

namespace LocalDirectory

theorem reading_of_looks {root : String} {c : Call} (hc : c.Looks) :
    ((driver root).answer c).Only Request.IsReading := by
  cases c with
  | version key => exact reading_version
  | download key => exact reading_download
  | _ => exact hc.elim

theorem views (root : String) : (driver root).Views := fun _ hc =>
  (reading_of_looks hc).mono fun _ => Request.IsReading.isViewing

end LocalDirectory

theorem Nowhere.reading_driver (c : Call) : (driver.answer c).Only Request.IsReading := by
  cases c with
  | upload key content =>
    exact only_bind (only_lift ⟨trivial, fun _ => trivial⟩) fun _ =>
      only_bind (only_lift ⟨trivial, fun _ => trivial⟩) fun _ => only_pure
  | _ => trivial

theorem Nowhere.local_driver (c : Call) : (driver.answer c).Only Request.IsLocal :=
  (reading_driver c).mono fun _ => Request.IsReading.isLocal

theorem Nowhere.mute_driver (c : Call) : (driver.answer c).Only Request.IsMute :=
  (local_driver c).mono fun _ => Request.IsLocal.isMute

theorem Nowhere.views : driver.Views := by
  intro c hc
  cases c with
  | version key => trivial
  | download key => trivial
  | _ => exact hc.elim

theorem Driver.inner_ofConfig {c : Config} {driver : Driver} (h : Driver.ofConfig c = .ok driver)
    (call : Call) : (driver.answer call).Only Request.IsInner := by
  rcases ofConfig_cases h with ⟨b, rfl⟩ | ⟨root, rfl⟩ | rfl
  · exact Bucket.inner_driver b call
  · exact (LocalDirectory.filing_driver root call).mono fun _ => Request.Touches.isInner
  · exact (Nowhere.reading_driver call).mono fun _ => Request.IsReading.isInner

theorem Driver.views_ofConfig {c : Config} {driver : Driver}
    (h : Driver.ofConfig c = .ok driver) : driver.Views := by
  rcases ofConfig_cases h with ⟨b, rfl⟩ | ⟨root, rfl⟩ | rfl
  · exact Bucket.views b
  · exact LocalDirectory.views root
  · exact Nowhere.views

end Storage

end Provision
