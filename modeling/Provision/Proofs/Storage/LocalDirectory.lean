import Provision.Proofs.Codec
import Provision.Proofs.Host.Journal
import Provision.Storage.LocalDirectory

/-!
# What a local directory keeps

An upload leaves the content in the object's file, and a version file that reads back as the
version it answers with. A probe and a download that find both files as the upload left them
give that version, and the content.
-/

namespace Provision

open Provision.Host

theorem Host.Uuid.text_ne_empty (u : Uuid) : u.text ≠ "" := by
  intro h
  have hlist := congrArg String.toList h
  rw [Uuid.text, String.toList_ofList] at hlist
  simp at hlist

namespace Storage.LocalDirectory

open Provision.Json
open Provision.Program (yields_one)
open Provision.Task (Achieves achieves_bind achieves_lift achieves_pure executes_bind_ok
  executes_lift_ok executes_mapError_ok only_bind only_lift only_mapError only_pure only_throw)

namespace VersionRecord

theorem decode?_encode {r : VersionRecord}
    (h : Timestamp.ofText? r.lastModified.text = some r.lastModified) :
    decode? r.encode = some r := by
  have hfold : Document.foldMembers (record.readMember 126) record.start
      (Document.ofMembers [("version", .string r.version),
        ("last_modified", .string r.lastModified.text)]) true =
      .ok ⟨some r.version, some r.lastModified⟩ := by
    rw [Document.ofMembers, foldMembers_field (e := ⟨some r.version, none⟩) rfl rfl rfl,
      Document.ofMembers,
      foldMembers_field (e := ⟨some r.version, some r.lastModified⟩) rfl rfl
        (by simp only [Document.ofValue, Decoder.timestamp, h]; rfl)]
    rfl
  have hwordy : r.toJson.Wordy := ⟨trivial, trivial, trivial⟩
  have hdecode : decodeBytes record.decoder r.encode =
      .ok ⟨some r.version, some r.lastModified⟩ := by
    rw [encode, decodeBytes_encode, decodeText_pretty _ hwordy]
    simp only [Record.decoder, toJson, Document.ofValue, maxDepth, Decoder.enter, hfold]
    rfl
  rw [decode?, hdecode]

end VersionRecord

theorem versionPath_ne (path : String) : path ≠ versionPath path := by
  intro h
  have hlength : path.toList.length = path.toList.length + ".version".toList.length := by
    rw [← List.length_append, ← String.toList_append]
    exact congrArg (fun s => s.toList.length) h
  have hsuffix : ".version".toList.length = 8 := rfl
  omega

theorem objectPath_bind {α : Type} {root key : String} (hkey : isValidKey key = true)
    (f : String → Work α) :
    (ExceptT.mk (pure (objectPath root key)) >>= f : Work α) = f (Path.join root key) := by
  rw [objectPath, if_pos hkey]
  rfl

section Reading

variable {P : Event effects → Prop} {root key : String} {content : Bytes} {r : VersionRecord}

theorem achieves_readVersion (path : String)
    (htime : Timestamp.ofText? r.lastModified.text = some r.lastModified)
    (hread : ∀ reply, P ⟨.readFile (versionPath path), reply⟩ → reply = .ok r.encode) :
    (readVersion key path).Achieves P fun _ v => v = ⟨r.version, some r.lastModified⟩ := by
  refine achieves_bind (achieves_lift (yields_one
    (Q := fun _ (reply : Except Fault Bytes) => reply = .ok r.encode)
    fun reply hreply => hread reply hreply)) fun _ reply hreply => ?_
  subst hreply
  simp only [VersionRecord.decode?_encode htime]
  exact achieves_pure rfl

theorem achieves_version (hkey : isValidKey key = true)
    (htime : Timestamp.ofText? r.lastModified.text = some r.lastModified)
    (hexists : ∀ found, P ⟨.pathExists (Path.join root key), found⟩ → found = true)
    (hread : ∀ reply, P ⟨.readFile (versionPath (Path.join root key)), reply⟩ →
      reply = .ok r.encode) :
    (version root key).Achieves P fun _ v => v = ⟨r.version, some r.lastModified⟩ := by
  simp only [version, objectPath, hkey, if_true]
  refine achieves_bind (Q := fun _ path => path = Path.join root key) (achieves_pure rfl)
    fun _ path hpath => ?_
  subst hpath
  refine achieves_bind (achieves_lift (yields_one
    (Q := fun _ (found : Bool) => found = true)
    fun found hfound => hexists found hfound)) fun _ found hfound => ?_
  subst hfound
  exact achieves_readVersion _ htime hread

theorem achieves_download (hkey : isValidKey key = true) (hversion : r.version ≠ "")
    (htime : Timestamp.ofText? r.lastModified.text = some r.lastModified)
    (hread : ∀ reply, P ⟨.readFile (versionPath (Path.join root key)), reply⟩ →
      reply = .ok r.encode)
    (hcontent : ∀ reply, P ⟨.readFile (Path.join root key), reply⟩ → reply = .ok content) :
    (download root key).Achieves P fun _ object =>
      object = (content, ⟨r.version, some r.lastModified⟩) := by
  simp only [download, objectPath, hkey, if_true]
  refine achieves_bind (Q := fun _ path => path = Path.join root key) (achieves_pure rfl)
    fun _ path hpath => ?_
  subst hpath
  refine achieves_bind (achieves_readVersion _ htime hread) fun _ v hv => ?_
  subst hv
  have hzero : ObjectVersion.isZero ⟨r.version, some r.lastModified⟩ = false := by
    rw [← Bool.not_eq_true, ObjectVersion.isZero, String.isEmpty_iff]
    exact hversion
  simp only [hzero, Bool.false_eq_true, if_false]
  refine achieves_bind (achieves_lift (yields_one
    (Q := fun _ (reply : Except Fault Bytes) => reply = .ok content)
    fun reply hreply => hcontent reply hreply)) fun _ reply hreply => ?_
  subst hreply
  exact achieves_pure rfl

end Reading

def store (key path : String) (content : Bytes) : Work ObjectVersion := do
  attempt (writeFile path content) fun fault => .write key fault.message
  let token ← Task.lift freshUuid
  let time ← Task.lift now
  attempt (writeFile (versionPath path) (VersionRecord.encode ⟨token.text, time⟩))
    fun fault => .write key fault.message
  return ⟨token.text, some time⟩

theorem executes_store {key path : String} {content : Bytes} {j : Journal} {v : ObjectVersion}
    (h : (store key path content).run.Executes j (.ok v)) :
    ∃ (token : Uuid) (time : Timestamp), v = ⟨token.text, some time⟩ ∧
      j = [⟨.writeFile path content, (.ok () : Except Fault Unit)⟩, ⟨.freshUuid, token⟩,
        ⟨.now, time⟩, ⟨.writeFile (versionPath path) (VersionRecord.encode ⟨token.text, time⟩),
          (.ok () : Except Fault Unit)⟩] := by
  obtain ⟨j₁, _, _, hobject, h₁, rfl⟩ := executes_bind_ok.1 h
  obtain ⟨j₂, _, token, htoken, h₂, rfl⟩ := executes_bind_ok.1 h₁
  obtain ⟨j₃, _, time, htime, h₃, rfl⟩ := executes_bind_ok.1 h₂
  obtain ⟨j₄, _, _, hrecord, h₄, rfl⟩ := executes_bind_ok.1 h₃
  obtain ⟨rfl, hv⟩ := Task.executes_pure.1 h₄
  obtain rfl := Program.executes_one.1 (executes_mapError_ok.1 hobject)
  obtain rfl := Program.executes_one.1 (executes_lift_ok.1 htoken)
  obtain rfl := Program.executes_one.1 (executes_lift_ok.1 htime)
  obtain rfl := Program.executes_one.1 (executes_mapError_ok.1 hrecord)
  exact ⟨token, time, Except.ok.inj hv, rfl⟩

theorem executes_upload {root key : String} {content : Bytes} {j : Journal} {v : ObjectVersion}
    (h : (upload root key content).run.Executes j (.ok v)) :
    isValidKey key = true ∧ ∃ r : VersionRecord, v = ⟨r.version, some r.lastModified⟩ ∧
      r.version ≠ "" ∧ (⟨.now, r.lastModified⟩ : Event effects) ∈ j ∧
      lastWritten (Path.join root key) j = some content ∧
      lastWritten (versionPath (Path.join root key)) j = some r.encode := by
  unfold upload at h
  obtain ⟨j₁, j₂, path, hpath, hrun, rfl⟩ := executes_bind_ok.1 h
  obtain ⟨rfl, hobject⟩ := Program.executes_done.1 hpath
  unfold objectPath at hobject
  split at hobject
  · next hkey =>
    obtain rfl := Except.ok.inj hobject
    obtain ⟨j₃, j₄, hsplit, hstore⟩ : ∃ j₃ j₄, j₂ = j₃ ++ j₄ ∧
        (store key (Path.join root key) content).run.Executes j₄ (.ok v) := by
      cases hp : Path.parent? (Path.join root key) with
      | none =>
        rw [hp] at hrun
        exact ⟨[], j₂, rfl, hrun⟩
      | some directory =>
        rw [hp] at hrun
        obtain ⟨j₃, j₄, _, -, hstore, rfl⟩ := executes_bind_ok.1 hrun
        exact ⟨j₃, j₄, rfl, hstore⟩
    obtain ⟨token, time, rfl, rfl⟩ := executes_store hstore
    subst hsplit
    refine ⟨hkey, ⟨token.text, time⟩, rfl, token.text_ne_empty, by simp, ?_, ?_⟩
    · refine lastWritten_append_some (j := []) (lastWritten_write ?_)
      simp only [List.mem_cons, List.not_mem_nil, or_false, forall_eq_or_imp, forall_eq]
      -- The version file is written later, but under another path.
      exact ⟨rfl, rfl, written?_other (versionPath_ne _).symm⟩
    · refine lastWritten_append_some (j := []) (lastWritten_append_some ?_)
      exact lastWritten_write (j := [_, _, _]) fun _ h => absurd h List.not_mem_nil
  · cases hobject

variable {root key : String}

theorem reading_objectPath :
    (ExceptT.mk (pure (objectPath root key)) : Work String).run.Only Request.IsReading := trivial

theorem reading_readVersion (path : String) :
    (readVersion key path).run.Only Request.IsReading := by
  refine only_bind (only_lift ⟨trivial, fun _ => trivial⟩) fun reply => ?_
  cases reply with
  | error fault =>
    cases fault with
    | notFound => exact only_pure
    | _ => exact only_throw
  | ok bytes =>
    dsimp only
    cases VersionRecord.decode? bytes with
    | none => exact only_throw
    | some r => exact only_pure

theorem reading_download : (download root key).run.Only Request.IsReading := by
  refine only_bind reading_objectPath fun path => ?_
  refine only_bind (reading_readVersion path) fun version => ?_
  split
  · exact only_throw
  · refine only_bind (only_lift ⟨trivial, fun _ => trivial⟩) fun reply => ?_
    cases reply with
    | ok content => exact only_pure
    | error fault =>
      cases fault with
      | notFound => exact only_throw
      | _ => exact only_throw

theorem reading_version : (version root key).run.Only Request.IsReading := by
  refine only_bind reading_objectPath fun path => ?_
  refine only_bind (only_lift ⟨trivial, fun _ => trivial⟩) fun found => ?_
  cases found with
  | true => exact reading_readVersion path
  | false => exact only_pure

theorem filing_upload (content : Bytes) :
    (upload root key content).run.Only (Request.Touches fun _ => True) := by
  refine only_bind trivial fun path => ?_
  have hattempt {p : HostProgram (Except Fault Unit)} (h : p.Only (Request.Touches fun _ => True)) :
      (attempt p fun fault => .write key fault.message).run.Only
        (Request.Touches fun _ => True) :=
    only_mapError h
  have hstore : (store key path content).run.Only (Request.Touches fun _ => True) := by
    refine only_bind (hattempt ⟨trivial, fun _ => trivial⟩) fun _ => ?_
    refine only_bind (only_lift ⟨trivial, fun _ => trivial⟩) fun _ => ?_
    refine only_bind (only_lift ⟨trivial, fun _ => trivial⟩) fun _ => ?_
    exact only_bind (hattempt ⟨trivial, fun _ => trivial⟩) fun _ => only_pure
  cases Path.parent? path with
  | none => exact hstore
  | some directory => exact only_bind (hattempt ⟨trivial, fun _ => trivial⟩) fun _ => hstore

theorem filing_removeIfPresent (path : String) :
    (removeIfPresent key path).run.Only (Request.Touches fun _ => True) := by
  refine only_bind (only_lift ⟨trivial, fun _ => trivial⟩) fun reply => ?_
  cases reply with
  | ok _ => exact only_pure
  | error fault =>
    cases fault with
    | notFound => exact only_pure
    | _ => exact only_throw

theorem filing_driver (root : String) (c : Call) :
    ((driver root).answer c).Only (Request.Touches fun _ => True) := by
  cases c with
  | upload key content => exact filing_upload content
  | download key => exact reading_download.mono fun _ => Request.IsReading.touches
  | version key => exact reading_version.mono fun _ => Request.IsReading.touches
  | delete key =>
    refine only_bind trivial fun path => ?_
    exact only_bind (filing_removeIfPresent _) fun _ => filing_removeIfPresent _

theorem local_driver (root : String) (c : Call) :
    ((driver root).answer c).Only Request.IsLocal :=
  (filing_driver root c).mono fun _ => Request.Touches.isLocal

theorem mute_driver (root : String) (c : Call) : ((driver root).answer c).Only Request.IsMute :=
  (local_driver root c).mono fun _ => Request.IsLocal.isMute

end Storage.LocalDirectory

end Provision
