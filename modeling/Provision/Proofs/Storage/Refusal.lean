import Provision.Proofs.Failing
import Provision.Proofs.Lifecycle.Record
import Provision.Proofs.Storage.LocalDirectory
import Provision.Storage.Build

/-!
# Keys that a driver refuses

Once a driver is built, the only configuration error left is a key that a local directory has no
path for. Such a key is refused at every call, before the host is asked for anything.
-/

namespace Provision.Storage

open Provision.Host
open Provision.Task (fails_bind fails_lift fails_mapError fails_pure fails_throw)

def Error.IsTransfer : Error → Prop
  | .unsupportedDriver _ => False
  | .configuration _ => False
  | _ => True

def Error.OfLook : Error → Prop
  | .read _ _ => True
  | .notFound _ => True
  | _ => False

def Error.OfWrite : Error → Prop
  | .write _ _ => True
  | _ => False

theorem Error.OfLook.isTransfer {e : Error} (h : e.OfLook) : e.IsTransfer := by
  cases e with
  | read key cause => trivial
  | notFound key => trivial
  | _ => exact h.elim

theorem Error.OfWrite.isTransfer {e : Error} (h : e.OfWrite) : e.IsTransfer := by
  cases e with
  | write key cause => trivial
  | _ => exact h.elim

def invalidKey (key : String) : Error := .configuration ("Invalid storage key: '" ++ key ++ "'")

def Driver.Rejects (driver : Driver) (key : String) : Prop :=
  ∀ (c : Call) u reply, c.key = key → (driver.answer c).Executes u reply →
    u = [] ∧ Lifecycle.Record.storageError c reply = some (invalidKey key)

def Driver.RefusesKeys (driver : Driver) : Prop :=
  ∀ (c : Call) u reply e, (driver.answer c).Executes u reply →
    Lifecycle.Record.storageError c reply = some e →
    e.IsTransfer ∨ LocalDirectory.isValidKey c.key = false ∧ driver.Rejects c.key

namespace Bucket

variable {b : Bucket} {key : String}

theorem fails_version : (b.version key).Fails fun _ e => e.OfLook := by
  refine fails_bind fails_lift fun _ answer _ => ?_
  cases answer.bind replyVersion with
  | ok v => exact fails_pure
  | error failure =>
    dsimp only
    split
    · exact fails_pure
    · exact fails_throw trivial

theorem fails_upload (content : Bytes) : (b.upload key content).Fails fun _ e => e.IsTransfer := by
  refine fails_bind fails_lift fun _ answer _ => ?_
  cases answer with
  | error failure => exact fails_throw trivial
  | ok reply =>
    refine fails_bind fails_lift fun _ _ _ =>
      fails_bind (fails_version.mono fun _ _ he => he.isTransfer) fun _ v _ => ?_
    dsimp only
    split
    · exact fails_bind (fails_throw trivial) fun _ _ _ => fails_pure
    · exact fails_pure

theorem fails_download : (b.download key).Fails fun _ e => e.OfLook := by
  refine fails_bind fails_lift fun _ answer _ => ?_
  cases answer.bind fun reply => (replyVersion reply).map (reply, ·) with
  | error failure =>
    dsimp only
    split <;> exact fails_throw trivial
  | ok found =>
    dsimp only
    split
    · exact fails_pure
    · exact fails_throw trivial

theorem fails_delete : (b.delete key).Fails fun _ e => e.OfWrite := by
  refine fails_bind fails_lift fun _ answer _ => ?_
  cases answer with
  | error failure => exact fails_throw trivial
  | ok reply => exact fails_pure

theorem refusesKeys (b : Bucket) : (driver b).RefusesKeys := by
  intro c u reply e h he
  left
  cases c with
  | upload key content => exact fails_upload content u e (Lifecycle.eq_error he ▸ h)
  | download key => exact (fails_download u e (Lifecycle.eq_error he ▸ h)).isTransfer
  | version key => exact (fails_version u e (Lifecycle.eq_error he ▸ h)).isTransfer
  | delete key => exact (fails_delete u e (Lifecycle.eq_error he ▸ h)).isTransfer

end Bucket

theorem Nowhere.fails_upload {E : Journal → Error → Prop} : upload.Fails E :=
  fails_bind fails_lift fun _ _ _ => fails_bind fails_lift fun _ _ _ => fails_pure

theorem Nowhere.refusesKeys : Nowhere.driver.RefusesKeys := by
  intro c u reply e h he
  left
  cases c with
  | upload key content =>
    have hfails : upload.Fails fun _ e => e.IsTransfer := fails_upload
    exact hfails u e (Lifecycle.eq_error he ▸ h)
  | download key =>
    obtain ⟨-, rfl⟩ := Program.executes_done.1 h
    cases he
    trivial
  | version key =>
    obtain ⟨-, rfl⟩ := Program.executes_done.1 h
    cases he
  | delete key =>
    obtain ⟨-, rfl⟩ := Program.executes_done.1 h
    cases he

namespace LocalDirectory

variable {root key path : String}

theorem fails_readVersion : (readVersion key path).Fails fun _ e => e.OfLook := by
  refine fails_bind fails_lift fun _ reply _ => ?_
  cases reply with
  | error fault =>
    cases fault with
    | notFound => exact fails_pure
    | _ => exact fails_throw trivial
  | ok bytes =>
    dsimp only
    cases VersionRecord.decode? bytes with
    | none => exact fails_throw trivial
    | some r => exact fails_pure

theorem fails_removeIfPresent : (removeIfPresent key path).Fails fun _ e => e.OfWrite := by
  refine fails_bind fails_lift fun _ reply _ => ?_
  cases reply with
  | ok _ => exact fails_pure
  | error fault =>
    cases fault with
    | notFound => exact fails_pure
    | _ => exact fails_throw trivial

section Valid

variable (hkey : isValidKey key = true)

include hkey

theorem fails_upload (content : Bytes) :
    (upload root key content).Fails fun _ e => e.OfWrite := by
  have hattempt (p : HostProgram (Except Fault Unit)) :
      (attempt p fun fault => .write key fault.message).Fails fun _ e => e.OfWrite :=
    fails_mapError fun _ _ _ => trivial
  have hstore (path : String) : (store key path content).Fails fun _ e => e.OfWrite :=
    fails_bind (hattempt _) fun _ _ _ => fails_bind fails_lift fun _ _ _ =>
      fails_bind fails_lift fun _ _ _ => fails_bind (hattempt _) fun _ _ _ => fails_pure
  rw [upload, objectPath_bind hkey]
  cases Path.parent? (Path.join root key) with
  | none => exact hstore _
  | some directory => exact fails_bind (hattempt _) fun _ _ _ => hstore _

theorem fails_download : (download root key).Fails fun _ e => e.OfLook := by
  rw [download, objectPath_bind hkey]
  refine fails_bind fails_readVersion fun _ version _ => ?_
  dsimp only
  split
  · exact fails_throw trivial
  · refine fails_bind fails_lift fun _ reply _ => ?_
    cases reply with
    | ok content => exact fails_pure
    | error fault =>
      cases fault with
      | notFound => exact fails_throw trivial
      | _ => exact fails_throw trivial

theorem fails_version : (version root key).Fails fun _ e => e.OfLook := by
  rw [version, objectPath_bind hkey]
  refine fails_bind fails_lift fun _ found _ => ?_
  cases found with
  | true => exact fails_readVersion
  | false => exact fails_pure

theorem fails_delete : (delete root key).Fails fun _ e => e.OfWrite := by
  rw [delete, objectPath_bind hkey]
  exact fails_bind fails_removeIfPresent fun _ _ _ => fails_removeIfPresent

end Valid

theorem rejects (root : String) (hkey : isValidKey key = false) : (driver root).Rejects key := by
  have hpath {α : Type} {f : String → Work α} {u : Journal} {r : Except Error α}
      (h : (ExceptT.mk (pure (objectPath root key)) >>= f : Work α).run.Executes u r) :
      u = [] ∧ r = .error (invalidKey key) := by
    rw [objectPath, hkey] at h
    exact Task.executes_throw.1 h
  intro c u reply hc h
  cases c with
  | upload _ content =>
    cases hc
    obtain ⟨rfl, rfl⟩ := hpath h
    exact ⟨rfl, rfl⟩
  | download _ =>
    cases hc
    obtain ⟨rfl, rfl⟩ := hpath h
    exact ⟨rfl, rfl⟩
  | version _ =>
    cases hc
    obtain ⟨rfl, rfl⟩ := hpath h
    exact ⟨rfl, rfl⟩
  | delete _ =>
    cases hc
    obtain ⟨rfl, rfl⟩ := hpath h
    exact ⟨rfl, rfl⟩

theorem refusesKeys (root : String) : (driver root).RefusesKeys := by
  intro c u reply e h he
  cases hkey : isValidKey c.key with
  | false => exact .inr ⟨rfl, rejects root hkey⟩
  | true =>
    left
    cases c with
    | upload key content =>
      exact (fails_upload hkey content u e (Lifecycle.eq_error he ▸ h)).isTransfer
    | download key => exact (fails_download hkey u e (Lifecycle.eq_error he ▸ h)).isTransfer
    | version key => exact (fails_version hkey u e (Lifecycle.eq_error he ▸ h)).isTransfer
    | delete key => exact (fails_delete hkey u e (Lifecycle.eq_error he ▸ h)).isTransfer

end LocalDirectory

theorem Driver.refusesKeys_ofConfig {c : Config} {driver : Driver}
    (h : Driver.ofConfig c = .ok driver) : driver.RefusesKeys := by
  rcases ofConfig_cases h with ⟨b, rfl⟩ | ⟨root, rfl⟩ | rfl
  · exact Bucket.refusesKeys b
  · exact LocalDirectory.refusesKeys root
  · exact Nowhere.refusesKeys

end Provision.Storage
