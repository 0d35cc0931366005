import Provision.Proofs.Host.Serving
import Provision.Proofs.Storage.LocalDirectory

/-!
# A local directory on a disk

What the operations of a local directory come to on a host whose files are on a disk. A probe, a
download and a deletion are functions of the disk; an upload depends on the identifier that was
drawn and the time as well.
-/

namespace Provision.Storage.LocalDirectory

open Provision.Host Provision.Host.Disk
open Provision.Program (comesTo_one)
open Provision.Task (comesTo_bind comesTo_bind_error comesTo_lift comesTo_mapError comesTo_pure
  comesTo_throw performs_bind_of_comesTo performs_lift_bind)

variable {current : Location} {d d' : Disk} {root key path : String} {content : Bytes}

section

variable (current : Location) (d : Disk) (key path : String)

def recorded : Except Error ObjectVersion :=
  match d.read current (versionPath path) with
  | .error .notFound => .ok .zero
  | .error fault => .error (.read key fault.message)
  | .ok bytes =>
    match VersionRecord.decode? bytes with
    | none => .error (.read key "corrupt version record: <json error>")
    | some r => .ok ⟨r.version, some r.lastModified⟩

def probed : Except Error ObjectVersion :=
  if d.exists? current path then recorded current d key path else .ok .zero

def fetched : Except Error (Bytes × ObjectVersion) :=
  match recorded current d key path with
  | .error e => .error e
  | .ok v =>
    if v.isZero then .error (.notFound key)
    else
      match d.read current path with
      | .ok content => .ok (content, v)
      | .error .notFound => .error (.notFound key)
      | .error fault => .error (.read key fault.message)

def cleared : Except Error Unit × Disk :=
  match d.remove current path with
  | .ok d' => (.ok (), d')
  | .error .notFound => (.ok (), d)
  | .error fault => (.error (.write key fault.message), d)

def deleted : Except Error Unit × Disk :=
  match cleared current d key (versionPath path) with
  | (.ok (), d') => cleared current d' key path
  | (.error e, d') => (.error e, d')

def kept (content : Bytes) (r : VersionRecord) : Except Error ObjectVersion × Disk :=
  match d.write current path content with
  | .error fault => (.error (.write key fault.message), d)
  | .ok d' =>
    match d'.write current (versionPath path) r.encode with
    | .error fault => (.error (.write key fault.message), d')
    | .ok d'' => (.ok ⟨r.version, some r.lastModified⟩, d'')

def uploaded (content : Bytes) (r : VersionRecord) : Except Error ObjectVersion × Disk :=
  match (Path.parent? path).map (d.makeDirectories current) with
  | none => kept current d key path content r
  | some (none, d') => kept current d' key path content r
  | some (some fault, d') => (.error (.write key fault.message), d')

end

theorem comesTo_readFile (path : String) :
    (readFile path).ComesTo (Serves current) d (d.read current path) d :=
  comesTo_one fun _ _ => Iff.rfl

theorem comesTo_pathExists (path : String) :
    (pathExists path).ComesTo (Serves current) d (d.exists? current path) d :=
  comesTo_one fun _ _ => Iff.rfl

theorem comesTo_removeFile (path : String) :
    (removeFile path).ComesTo (Serves current) d (d.settle (d.remove current path)).1
      (d.settle (d.remove current path)).2 :=
  comesTo_one fun _ _ => Prod.ext_iff

theorem comesTo_writeFile (path : String) (content : Bytes) :
    (writeFile path content).ComesTo (Serves current) d (d.settle (d.write current path content)).1
      (d.settle (d.write current path content)).2 :=
  comesTo_one fun _ _ => Prod.ext_iff

theorem comesTo_makeDirectories (path : String) :
    (makeDirectories path).ComesTo (Serves current) d
      (reportOf (d.makeDirectories current path).1) (d.makeDirectories current path).2 :=
  comesTo_one fun _ _ => Iff.rfl

theorem comesTo_readVersion :
    (readVersion key path).run.ComesTo (Serves current) d (recorded current d key path) d := by
  refine comesTo_bind (comesTo_lift (comesTo_readFile _)) ?_
  unfold recorded
  cases d.read current (versionPath path) with
  | error fault =>
    cases fault with
    | notFound => exact comesTo_pure
    | _ => exact comesTo_throw
  | ok bytes =>
    dsimp only
    cases VersionRecord.decode? bytes with
    | none => exact comesTo_throw
    | some r => exact comesTo_pure

theorem comesTo_version (hkey : isValidKey key = true) :
    (version root key).run.ComesTo (Serves current) d
      (probed current d key (Path.join root key)) d := by
  rw [version, objectPath_bind hkey]
  refine comesTo_bind (comesTo_lift (comesTo_pathExists _)) ?_
  unfold probed
  split
  · exact comesTo_readVersion
  · exact comesTo_pure

theorem comesTo_download (hkey : isValidKey key = true) :
    (download root key).run.ComesTo (Serves current) d
      (fetched current d key (Path.join root key)) d := by
  rw [download, objectPath_bind hkey, fetched]
  cases hrecorded : recorded current d key (Path.join root key) with
  | error e => exact comesTo_bind_error (hrecorded ▸ comesTo_readVersion)
  | ok v =>
    refine comesTo_bind (hrecorded ▸ comesTo_readVersion) ?_
    dsimp only
    split
    · exact comesTo_bind_error comesTo_throw
    · refine comesTo_bind (comesTo_lift (comesTo_readFile _)) ?_
      cases d.read current (Path.join root key) with
      | ok content => exact comesTo_pure
      | error fault =>
        cases fault with
        | notFound => exact comesTo_throw
        | _ => exact comesTo_throw

theorem comesTo_removeIfPresent (path : String) :
    (removeIfPresent key path).run.ComesTo (Serves current) d (cleared current d key path).1
      (cleared current d key path).2 := by
  have hremove : (removeFile path).ComesTo (Serves current) d
      (d.settle (d.remove current path)).1 (d.settle (d.remove current path)).2 :=
    comesTo_removeFile path
  unfold cleared
  cases hresult : d.remove current path with
  | ok d' =>
    rw [hresult] at hremove
    exact comesTo_bind (comesTo_lift hremove) comesTo_pure
  | error fault =>
    rw [hresult] at hremove
    refine comesTo_bind (comesTo_lift hremove) ?_
    cases fault with
    | notFound => exact comesTo_pure
    | _ => exact comesTo_throw

theorem comesTo_delete (hkey : isValidKey key = true) :
    (delete root key).run.ComesTo (Serves current) d
      (deleted current d key (Path.join root key)).1
      (deleted current d key (Path.join root key)).2 := by
  rw [delete, objectPath_bind hkey, deleted]
  have hversion : (removeIfPresent key (versionPath (Path.join root key))).run.ComesTo
      (Serves current) d _ _ := comesTo_removeIfPresent _
  cases hcleared : cleared current d key (versionPath (Path.join root key)) with
  | mk result d' =>
    rw [hcleared] at hversion
    cases result with
    | error e => exact comesTo_bind_error hversion
    | ok u => exact comesTo_bind hversion (comesTo_removeIfPresent _)

theorem exists?_of_cleared (h : cleared current d key path = (.ok (), d')) :
    d'.exists? current path = false := by
  unfold cleared at h
  split at h
  · next hremove =>
    cases h
    exact exists?_of_remove hremove
  · next hremove =>
    cases h
    exact exists?_of_remove_notFound hremove
  · cases h

theorem probed_of_deleted (h : deleted current d key path = (.ok (), d')) :
    probed current d' key path = .ok .zero := by
  unfold deleted at h
  split at h
  · rw [probed, exists?_of_cleared h]
    rfl
  · cases h

structure VersionRecord.Drawn (r : VersionRecord) : Prop where
  token : ∃ u : Uuid, r.version = u.text
  time : r.lastModified.Valid

theorem VersionRecord.exists_drawn : ∃ r : VersionRecord, r.Drawn :=
  ⟨⟨Uuid.text ⟨.replicate 16 0⟩, ⟨1970, 1, 1, 0, 0, 0, 0⟩⟩, ⟨_, rfl⟩, by decide⟩

theorem comesTo_write (current : Location) (d : Disk) (key path : String) (content : Bytes) :
    (attempt (writeFile path content) fun fault => Error.write key fault.message).run.ComesTo
      (Serves current) d
      ((d.settle (d.write current path content)).1.mapError fun fault =>
        .write key fault.message)
      (d.settle (d.write current path content)).2 :=
  comesTo_mapError (comesTo_writeFile path content)

theorem performs_store {r : Except Error ObjectVersion} :
    (store key path content).run.Performs (Serves current) d r d' ↔
      ∃ record : VersionRecord, record.Drawn ∧
        (r, d') = kept current d key path content record := by
  have hobject := comesTo_write current d key path content
  unfold store kept
  cases hwrite : d.write current path content with
  | error fault =>
    rw [hwrite] at hobject
    constructor
    · intro h
      obtain ⟨rfl, rfl⟩ := (comesTo_bind_error hobject _ _).1 h
      obtain ⟨record, hrecord⟩ := VersionRecord.exists_drawn
      exact ⟨record, hrecord, rfl⟩
    · rintro ⟨record, -, h⟩
      cases h
      exact (comesTo_bind_error hobject).performs
  | ok d₁ =>
    rw [hwrite] at hobject
    -- What is left draws an identifier, reads the clock and writes the version file.
    have hrest (record : VersionRecord) :
        (attempt (writeFile (versionPath path) record.encode)
            (fun fault => Error.write key fault.message) >>= fun _ =>
          (return ⟨record.version, some record.lastModified⟩ : Work ObjectVersion)).run.ComesTo
          (Serves current) d₁ (kept current d key path content record).1
          (kept current d key path content record).2 := by
      have hversion := comesTo_write current d₁ key (versionPath path) record.encode
      simp only [kept, hwrite]
      cases hwrite' : d₁.write current (versionPath path) record.encode with
      | error fault =>
        rw [hwrite'] at hversion
        exact comesTo_bind_error hversion
      | ok d₂ =>
        rw [hwrite'] at hversion
        exact comesTo_bind hversion comesTo_pure
    simp only [kept, hwrite] at hrest
    rw [performs_bind_of_comesTo hobject, performs_lift_bind]
    constructor
    · rintro ⟨token, d₂, htoken, hdrawn⟩
      obtain rfl : d₂ = d₁ := Program.performs_one.1 htoken
      obtain ⟨time, d₃, htime, htimed⟩ := performs_lift_bind.1 hdrawn
      obtain ⟨hvalid, rfl⟩ : time.Valid ∧ d₃ = d₂ := Program.performs_one.1 htime
      exact ⟨⟨token.text, time⟩, ⟨⟨token, rfl⟩, hvalid⟩,
        Prod.ext_iff.2 ((hrest ⟨token.text, time⟩ _ _).1 htimed)⟩
    · rintro ⟨⟨_, time⟩, ⟨⟨token, rfl⟩, hvalid⟩, h⟩
      refine ⟨token, d₁, Program.performs_one.2 rfl, performs_lift_bind.2 ?_⟩
      exact ⟨time, d₁, Program.performs_one.2 ⟨hvalid, rfl⟩,
        (hrest ⟨token.text, time⟩ _ _).2 (Prod.ext_iff.1 h)⟩

theorem performs_upload (hkey : isValidKey key = true) {r : Except Error ObjectVersion} :
    (upload root key content).run.Performs (Serves current) d r d' ↔
      ∃ record : VersionRecord, record.Drawn ∧
        (r, d') = uploaded current d key (Path.join root key) content record := by
  rw [upload, objectPath_bind hkey]
  unfold uploaded
  cases Path.parent? (Path.join root key) with
  | none => exact performs_store
  | some directory =>
    have hmake : (attempt (makeDirectories directory)
        fun fault => Error.write key fault.message).run.ComesTo (Serves current) d
        ((reportOf (d.makeDirectories current directory).1).mapError fun fault =>
          .write key fault.message)
        (d.makeDirectories current directory).2 :=
      comesTo_mapError (comesTo_makeDirectories directory)
    rw [Option.map_some]
    cases hmade : d.makeDirectories current directory with
    | mk fault d₁ =>
      rw [hmade] at hmake
      cases fault with
      | none => exact (performs_bind_of_comesTo hmake).trans performs_store
      | some fault =>
        constructor
        · intro h
          obtain ⟨rfl, rfl⟩ := (comesTo_bind_error hmake _ _).1 h
          obtain ⟨record, hrecord⟩ := VersionRecord.exists_drawn
          exact ⟨record, hrecord, rfl⟩
        · rintro ⟨record, -, h⟩
          cases h
          exact (comesTo_bind_error hmake).performs

end Provision.Storage.LocalDirectory
