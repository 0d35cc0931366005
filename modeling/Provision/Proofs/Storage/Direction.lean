import Provision.Proofs.Storage.BucketKeeping
import Provision.Proofs.Storage.Refusal

/-!
# Errors and what was to be done

A call that looks at an object fails with a read error or for want of the object, and one that
writes or removes it with a write error, unless its key is refused; a run reports them as what they
are. There is one exception: a bucket has accepted the content of an upload, and the probe for its
version fails. The upload then fails with the read error of the probe.
-/

namespace Provision.Storage

open Provision.Host
open Provision.Lifecycle.Record (storageError)

namespace Bucket

variable {b : Bucket} {key : String} {content : Bytes} {u : Journal} {e : Error}

/-- The bucket has accepted the content, and then the probe fails. -/
inductive Unprobed (b : Bucket) (key : String) (content : Bytes) : Journal → String → Prop where
  | mk {t t' : Journal} {line : LogLine} {reply : ObjectReply} {cause : String} :
      (exchange (b.putRequest key content)).Executes t (.ok reply) →
      b.Probed key t' (.error (.read (b.objectKey key) cause)) →
      Unprobed b key content (t ++ ⟨.log line, ()⟩ :: t') cause

theorem eq_read_of_probed (h : b.Probed key u (.error e)) :
    ∃ cause, e = .read (b.objectKey key) cause := by
  rcases h with ⟨-, -, hunsent⟩ | ⟨-, answer, -, hsettles⟩
  · exact ⟨_, Except.error.inj hunsent⟩
  · cases hsettles <;> exact ⟨_, rfl⟩

theorem error_of_uploaded (h : b.Uploaded key content u (.error e)) :
    e.OfWrite ∨ ∃ cause, e = .read (b.objectKey key) cause ∧ b.Unprobed key content u cause := by
  cases h with
  | refused _ => exact .inl trivial
  | missing _ _ _ => exact .inl trivial
  | unprobed hput hprobed =>
    obtain ⟨cause, rfl⟩ := eq_read_of_probed hprobed
    exact .inr ⟨cause, rfl, .mk hput hprobed⟩

end Bucket

/-- With which error a call fails, and what a run reports then. -/
inductive FailsAs (driver : Driver) (c : Call) (u : Journal) : Error → Lifecycle.Error → Prop where
  | write {key cause : String} : ¬ c.Looks →
      FailsAs driver c u (.write key cause) (.storageWrite (Error.write key cause).message)
  | read {key cause : String} : c.Looks →
      FailsAs driver c u (.read key cause) (.storageRead (Error.read key cause).message)
  | absent {key : String} : c.Looks →
      FailsAs driver c u (.notFound key) (.storageNotFound (Error.notFound key).message)
  | refused : driver.Rejects c.key →
      FailsAs driver c u (invalidKey c.key) (.validation (invalidKey c.key).message)
  | unprobed {b : Bucket} {key : String} {content : Bytes} {cause : String} :
      driver = b.driver → c = .upload key content → b.Unprobed key content u cause →
      FailsAs driver c u (.read (b.objectKey key) cause)
        (.storageRead (Error.read (b.objectKey key) cause).message)

section

variable {driver : Driver} {c : Call} {u : Journal} {e : Error} {reply : c.Reply}

theorem FailsAs.of_look (hlooks : c.Looks) (he : e.OfLook) :
    FailsAs driver c u e (.ofStorage e) := by
  cases e with
  | read key cause => exact .read hlooks
  | notFound key => exact .absent hlooks
  | _ => exact he.elim

theorem FailsAs.of_write (hwrites : ¬ c.Looks) (he : e.OfWrite) :
    FailsAs driver c u e (.ofStorage e) := by
  cases e with
  | write key cause => exact .write hwrites
  | _ => exact he.elim

theorem Bucket.failsAs {b : Bucket} (h : (b.driver.answer c).Executes u reply)
    (he : storageError c reply = some e) : FailsAs b.driver c u e (.ofStorage e) := by
  cases c with
  | upload key content =>
    have hrun : (b.upload key content).run.Executes u (.error e) := Lifecycle.eq_error he ▸ h
    rcases error_of_uploaded (uploaded_of_executes hrun) with hwrite | ⟨cause, rfl, hunprobed⟩
    · exact .of_write id hwrite
    · exact .unprobed rfl rfl hunprobed
  | download key => exact .of_look trivial (fails_download u e (Lifecycle.eq_error he ▸ h))
  | version key => exact .of_look trivial (fails_version u e (Lifecycle.eq_error he ▸ h))
  | delete key => exact .of_write id (fails_delete u e (Lifecycle.eq_error he ▸ h))

theorem LocalDirectory.failsAs {root : String}
    (h : ((LocalDirectory.driver root).answer c).Executes u reply)
    (he : storageError c reply = some e) :
    FailsAs (LocalDirectory.driver root) c u e (.ofStorage e) := by
  cases hkey : isValidKey c.key with
  | false =>
    have hrejects := LocalDirectory.rejects root hkey
    obtain rfl := Option.some.inj (he.symm.trans (hrejects c u reply rfl h).2)
    exact .refused hrejects
  | true =>
    cases c with
    | upload key content =>
      exact .of_write id (fails_upload hkey content u e (Lifecycle.eq_error he ▸ h))
    | download key => exact .of_look trivial (fails_download hkey u e (Lifecycle.eq_error he ▸ h))
    | version key => exact .of_look trivial (fails_version hkey u e (Lifecycle.eq_error he ▸ h))
    | delete key => exact .of_write id (fails_delete hkey u e (Lifecycle.eq_error he ▸ h))

theorem Nowhere.failsAs (h : (Nowhere.driver.answer c).Executes u reply)
    (he : storageError c reply = some e) : FailsAs Nowhere.driver c u e (.ofStorage e) := by
  cases c with
  | upload key content =>
    have hfails : Nowhere.upload.Fails fun _ _ => False := Nowhere.fails_upload
    exact (hfails u e (Lifecycle.eq_error he ▸ h)).elim
  | download key =>
    obtain ⟨-, rfl⟩ := Program.executes_done.1 h
    obtain rfl := Option.some.inj he
    exact .absent trivial
  | version key =>
    obtain ⟨-, rfl⟩ := Program.executes_done.1 h
    cases he
  | delete key =>
    obtain ⟨-, rfl⟩ := Program.executes_done.1 h
    cases he

/-- However the host and the store behave, a call that fails tells in its error, and in what a run
makes of it, whether the object was looked at or written: a write that fails is reported as a
failed write, unless it is an upload that was accepted and that could not be probed. -/
theorem errors_directed
    (hdriver : (∃ b, driver = Bucket.driver b) ∨ (∃ root, driver = LocalDirectory.driver root) ∨
      driver = Nowhere.driver)
    (h : (driver.answer c).Executes u reply) (he : storageError c reply = some e) :
    FailsAs driver c u e (.ofStorage e) := by
  rcases hdriver with ⟨b, rfl⟩ | ⟨root, rfl⟩ | rfl
  · exact Bucket.failsAs h he
  · exact LocalDirectory.failsAs h he
  · exact Nowhere.failsAs h he

end

namespace Bucket.Sample

def forbidden : ObjectReply := ⟨403, none, none, none, [], true⟩

def rejected : Journal := [⟨.send (bucket.putRequest "dev.tfstate" content), .ok forbidden⟩]

theorem executes_rejected : (bucket.driver.answer (.upload "dev.tfstate" content)).Executes rejected
    (.error (.write "dev.tfstate" "service error")) :=
  .step _ (.done _)

theorem errors_directed_rejected :
    (bucket.driver.answer (.upload "dev.tfstate" content)).Executes rejected
        (.error (.write "dev.tfstate" "service error")) ∧
      FailsAs bucket.driver (.upload "dev.tfstate" content) rejected
        (.write "dev.tfstate" "service error")
        (.storageWrite "Failed to write 'dev.tfstate' to storage: service error") :=
  ⟨executes_rejected, errors_directed (.inl ⟨bucket, rfl⟩) executes_rejected rfl⟩

def unseen : Journal := [
  ⟨.send (bucket.putRequest "dev.tfstate" content), .ok present⟩,
  ⟨.log ⟨.debug, "Uploaded s3://states/dev.tfstate"⟩, ()⟩,
  ⟨.send (bucket.request .head "dev.tfstate"), .ok forbidden⟩]

theorem unseen_upload_misdirected :
    (bucket.driver.answer (.upload "dev.tfstate" content)).Executes unseen
        (.error (.read "dev.tfstate" "service error")) ∧
      Lifecycle.Error.ofStorage (.read "dev.tfstate" "service error") =
        .storageRead "Failed to read 'dev.tfstate' from storage: service error" :=
  ⟨.step _ (.step _ (.step _ (.done _))), rfl⟩

end Bucket.Sample

end Provision.Storage
