import Provision.Proofs.Lifecycle.Looking
import Provision.Proofs.Storage.Keys
import Provision.Proofs.Storage.Refinement
import Provision.Proofs.Storage.Refusal

/-!
# Uploads that fail

An upload makes the directory of the object, writes the object, and last its version file. One
that fails before the object is written leaves at most more directories. One that cannot write
the version file leaves the new object behind, without a version: a probe that answered zero runs
into a fault from then on. What could be downloaded before the failure can be downloaded after
it, with the version that it had.
-/

namespace Provision.Storage.LocalDirectory

open Provision.Host Provision.Host.Disk

section

variable {current : Location} {d d₁ d' : Disk} {root key path : String} {content : Bytes}
  {r : VersionRecord} {e : Error} {v : ObjectVersion}

structure HalfWritten (current : Location) (path : String) (content : Bytes) (d d' : Disk) :
    Prop where
  object : d.write current path content = .ok d'
  version : ∃ (record : Bytes) (fault : Fault),
    d'.write current (versionPath path) record = .error fault

def HasFolder (current : Location) (d : Disk) (path : String) : Prop :=
  ∀ directory, Path.parent? path = some directory → d.Reaches current directory

theorem kept_error (h : kept current d key path content r = (.error e, d')) :
    d' = d ∨ HalfWritten current path content d d' := by
  unfold kept at h
  split at h
  · cases h
    exact .inl rfl
  · next d₁ hobject =>
    split at h
    · next fault hversion =>
      cases h
      exact .inr ⟨hobject, _, fault, hversion⟩
    · cases h

theorem uploaded_error (h : uploaded current d key path content r = (.error e, d')) :
    ∃ d₁, Grows d d₁ ∧ (HasFolder current d path → d₁ = d) ∧
      (d' = d₁ ∨ HalfWritten current path content d₁ d') := by
  unfold uploaded at h
  cases hparent : Path.parent? path with
  | none =>
    rw [hparent] at h
    exact ⟨d, .refl d, fun _ => rfl, kept_error h⟩
  | some directory =>
    have hgrows := grows_makeDirectories d current directory
    have hsame (hfolder : HasFolder current d path) :
        (d.makeDirectories current directory).2 = d := by
      rw [makeDirectories_of_reaches (hfolder directory hparent)]
    rw [hparent, Option.map_some] at h
    cases hmade : d.makeDirectories current directory with
    | mk fault d₁ =>
      rw [hmade] at h hgrows hsame
      refine ⟨d₁, hgrows, hsame, ?_⟩
      cases fault with
      | none => exact kept_error h
      | some fault =>
        cases h
        exact .inl rfl

namespace HalfWritten

variable (h : HalfWritten current path content d d')

include h

theorem changesOnly : ChangesOnly (· = place current path) d d' :=
  changesOnly_write_place h.object

theorem read_version : ∃ fault, fault ≠ .notFound ∧
    d.read current (versionPath path) = .error fault ∧
    d'.read current (versionPath path) = .error fault := by
  obtain ⟨⟨inside, name, hlocate, -⟩, -, -⟩ := write_ok.1 h.object
  obtain ⟨record, fault, hversion⟩ := h.version
  obtain ⟨front, -, hname⟩ := segments_of_locate hlocate
  have hlonger : Path.IsName (name ++ ".version") :=
    isName_append hname.plain (by decide) (by decide)
  have hsame : d'.lookup (inside ++ [name ++ ".version"]) =
      d.lookup (inside ++ [name ++ ".version"]) := by
    refine h.changesOnly.same _ fun heq => ?_
    rw [← location_of_locate hlocate, Target.location] at heq
    exact versionPath_ne name (List.cons.inj (List.append_cancel_left heq)).1.symm
  have hbefore := locate_append hlonger (by decide) hlocate
  have hafter := locate_append hlonger (by decide) (locate_mono h.changesOnly.keeps hlocate)
  rw [read_eq, read_eq, versionPath, hbefore, hafter]
  rw [write, versionPath, hafter] at hversion
  split
  · exact ⟨.nameTooLong, by decide, rfl, rfl⟩
  · next hshort =>
    rw [if_neg hshort] at hversion
    simp only [bind, Except.bind, child, hsame] at hversion ⊢
    by_cases hfits : maxName < byteSize (name ++ ".version")
    · simp only [if_pos hfits]
      exact ⟨.nameTooLong, by decide, rfl, rfl⟩
    · simp only [if_neg hfits] at hversion ⊢
      cases hlookup : d.lookup (inside ++ [name ++ ".version"]) with
      | none =>
        rw [hlookup] at hversion
        cases hversion
      | some entry =>
        rw [hlookup] at hversion
        cases entry with
        | file content => cases hversion
        | directory => exact ⟨.isADirectory, by decide, rfl, rfl⟩

theorem recorded (key : String) : ∃ cause,
    recorded current d key path = .error (.read key cause) ∧
      LocalDirectory.recorded current d' key path = .error (.read key cause) := by
  obtain ⟨fault, hfault, hbefore, hafter⟩ := h.read_version
  have hrecorded {d : Disk} (hread : d.read current (versionPath path) = .error fault) :
      LocalDirectory.recorded current d key path = .error (.read key fault.message) := by
    unfold LocalDirectory.recorded
    rw [hread]
    cases fault with
    | notFound => exact absurd rfl hfault
    | _ => rfl
  exact ⟨fault.message, hrecorded hbefore, hrecorded hafter⟩

end HalfWritten

theorem read_keep (hkeeps : KeepsDirectories d d')
    (hfile : ∀ content, d.lookup (place current path) = some (.file content) →
      d'.lookup (place current path) = some (.file content))
    (h : d.read current path = .ok content) : d'.read current path = .ok content := by
  obtain ⟨hseats, hlookup⟩ := read_ok.1 h
  exact read_ok.2 ⟨hseats.mono hkeeps, hfile content hlookup⟩

theorem fetched_ok :
    fetched current d key path = .ok (content, v) ↔
      recorded current d key path = .ok v ∧ v.isZero = false ∧
        d.read current path = .ok content := by
  unfold fetched
  cases recorded current d key path with
  | error e => simp
  | ok w =>
    dsimp only
    cases hzero : w.isZero with
    | true =>
      rw [if_pos rfl]
      constructor
      · exact fun h => by cases h
      · rintro ⟨heq, hnonzero, -⟩
        cases heq
        rw [hzero] at hnonzero
        cases hnonzero
    | false =>
      rw [if_neg Bool.false_ne_true]
      constructor
      · intro h
        split at h
        · next hread =>
          cases h
          exact ⟨rfl, hzero, hread⟩
        · cases h
        · cases h
      · rintro ⟨heq, -, hread⟩
        cases heq
        rw [hread]

theorem read_of_recorded (h : recorded current d key path = .ok v) (hzero : v.isZero = false) :
    ∃ record, d.read current (versionPath path) = .ok record := by
  unfold recorded at h
  cases hread : d.read current (versionPath path) with
  | ok record => exact ⟨record, rfl⟩
  | error fault =>
    rw [hread] at h
    cases fault with
    | notFound =>
      cases h
      cases hzero
    | _ => cases h

theorem fetched_keep (hkeeps : KeepsDirectories d d')
    (hobject : ∀ content, d.lookup (place current path) = some (.file content) →
      d'.lookup (place current path) = some (.file content))
    (hversion : ∀ content, d.lookup (place current (versionPath path)) = some (.file content) →
      d'.lookup (place current (versionPath path)) = some (.file content))
    (h : fetched current d key path = .ok (content, v)) :
    fetched current d' key path = .ok (content, v) ∧ probed current d' key path = .ok v := by
  obtain ⟨hrecorded, hzero, hread⟩ := fetched_ok.1 h
  obtain ⟨record, hrecord⟩ := read_of_recorded hrecorded hzero
  have hread' := read_keep hkeeps hobject hread
  have hrecorded' : recorded current d' key path = .ok v := by
    rw [← hrecorded, recorded, recorded, hrecord, read_keep hkeeps hversion hrecord]
  refine ⟨fetched_ok.2 ⟨hrecorded', hzero, hread'⟩, ?_⟩
  rw [probed, exists?_of_read hread', if_pos rfl, hrecorded']

/-- Answers that the driver can give. -/
def Answers (current : Location) (root : String) (d : Disk) (c : Call) (reply : c.Reply) : Prop :=
  ∃ d', (driver root).Handles (Serves current) d ⟨c, reply⟩ d'

theorem answers_version (hkey : isValidKey key = true) {reply : Except Error ObjectVersion} :
    Answers current root d (.version key) reply ↔
      reply = probed current d key (Path.join root key) :=
  ⟨fun ⟨_, h⟩ => ((comesTo_version hkey _ _).1 h).1,
    fun h => ⟨d, (comesTo_version hkey _ _).2 ⟨h, rfl⟩⟩⟩

theorem answers_download (hkey : isValidKey key = true)
    {reply : Except Error (Bytes × ObjectVersion)} :
    Answers current root d (.download key) reply ↔
      reply = fetched current d key (Path.join root key) :=
  ⟨fun ⟨_, h⟩ => ((comesTo_download hkey _ _).1 h).1,
    fun h => ⟨d, (comesTo_download hkey _ _).2 ⟨h, rfl⟩⟩⟩

theorem performs_refused {α : Type} (hkey : isValidKey key = false) {f : String → Work α}
    {reply : Except Error α} :
    (ExceptT.mk (pure (objectPath root key)) >>= f : Work α).run.Performs (Serves current) d reply
      d' ↔ reply = .error (invalidKey key) ∧ d' = d := by
  rw [objectPath, hkey, if_neg Bool.false_ne_true]
  exact Task.performs_throw

theorem answers_of_invalid {c : Call} {reply : c.Reply} (hlooks : c.Looks)
    (hkey : isValidKey c.key = false) :
    Answers current root d c reply ↔ Answers current root d' c reply := by
  have hrefused {α : Type} {f : String → Work α} {reply : Except Error α} (d : Disk) :
      (∃ d', (ExceptT.mk (pure (objectPath root c.key)) >>= f : Work α).run.Performs
        (Serves current) d reply d') ↔ reply = .error (invalidKey c.key) :=
    ⟨fun ⟨_, h⟩ => ((performs_refused hkey).1 h).1,
      fun h => ⟨d, (performs_refused hkey).2 ⟨h, rfl⟩⟩⟩
  cases c with
  | version key => exact (hrefused d).trans (hrefused d').symm
  | download key => exact (hrefused d).trans (hrefused d').symm
  | _ => exact hlooks.elim

/-- A failed upload may have made the directory of the object; the disk is left like that, or with
an object that has no version file. -/
theorem failed_upload
    (h : (driver root).Handles (Serves current) d ⟨.upload key content, .error e⟩ d') :
    ∃ d₁, Grows d d₁ ∧ (HasFolder current d (Path.join root key) → d₁ = d) ∧
      (d' = d₁ ∨ isValidKey key = true ∧
        HalfWritten current (Path.join root key) content d₁ d') := by
  cases hkey : isValidKey key with
  | false => exact ⟨d, .refl d, fun _ => rfl, .inl ((performs_refused hkey).1 h).2⟩
  | true =>
    obtain ⟨r, -, hresult⟩ := (performs_upload hkey).1 h
    obtain ⟨d₁, hgrows, hsame, hcases⟩ := uploaded_error hresult.symm
    exact ⟨d₁, hgrows, hsame, hcases.imp_right fun hhalf => ⟨rfl, hhalf⟩⟩

theorem answers_keep {other : String} {object : Bytes × ObjectVersion}
    (hkeeps : KeepsDirectories d d')
    (hobject : ∀ content, d.lookup (place current (Path.join root other)) = some (.file content) →
      d'.lookup (place current (Path.join root other)) = some (.file content))
    (hversion : ∀ content,
      d.lookup (place current (versionPath (Path.join root other))) = some (.file content) →
        d'.lookup (place current (versionPath (Path.join root other))) = some (.file content))
    (h : Answers current root d (.download other) (.ok object)) :
    Answers current root d' (.download other) (.ok object) ∧
      Answers current root d' (.version other) (.ok object.2) := by
  cases hkey : isValidKey other with
  | false =>
    obtain ⟨_, h⟩ := h
    cases ((performs_refused hkey).1 h).1
  | true =>
    have hfetched := (answers_download hkey).1 h
    obtain ⟨hafter, hprobed⟩ := fetched_keep hkeeps hobject hversion hfetched.symm
    exact ⟨(answers_download hkey).2 hafter.symm, (answers_version hkey).2 hprobed.symm⟩

theorem answers_grow {other : String} {object : Bytes × ObjectVersion} (hgrows : Grows d d')
    (h : Answers current root d (.download other) (.ok object)) :
    Answers current root d' (.download other) (.ok object) ∧
      Answers current root d' (.version other) (.ok object.2) :=
  answers_keep hgrows.keeps (fun _ => hgrows.file_iff.2) (fun _ => hgrows.file_iff.2) h

namespace HalfWritten

variable (h : HalfWritten current (Path.join root key) content d d')

include h

theorem answers_downloaded {other : String} {object : Bytes × ObjectVersion}
    (hother : other = key ∨
      place current (Path.join root other) ≠ place current (Path.join root key) ∧
        place current (versionPath (Path.join root other)) ≠ place current (Path.join root key))
    (hkey : isValidKey key = true)
    (hfetch : Answers current root d (.download other) (.ok object)) :
    Answers current root d' (.download other) (.ok object) ∧
      Answers current root d' (.version other) (.ok object.2) := by
  rcases hother with rfl | ⟨hobject, hversion⟩
  · -- An object that can be downloaded has a version file, which can be written again.
    obtain ⟨hrecorded, -, -⟩ := fetched_ok.1 ((answers_download hkey).1 hfetch).symm
    obtain ⟨cause, hbefore, -⟩ := h.recorded other
    rw [hbefore] at hrecorded
    cases hrecorded
  · have hchanges := h.changesOnly
    refine answers_keep hchanges.keeps (fun _ hfile => ?_) (fun _ hfile => ?_) hfetch
    · rw [hchanges.same _ hobject, hfile]
    · rw [hchanges.same _ hversion, hfile]

theorem answers_download_iff (hkey : isValidKey key = true)
    (reply : Except Error (Bytes × ObjectVersion)) :
    Answers current root d (.download key) reply ↔
      Answers current root d' (.download key) reply := by
  obtain ⟨cause, hbefore, hafter⟩ := h.recorded key
  rw [answers_download hkey, answers_download hkey, fetched, fetched, hbefore, hafter]

theorem answers_version_or (hkey : isValidKey key = true) :
    (∀ reply, Answers current root d (.version key) reply ↔
        Answers current root d' (.version key) reply) ∨
      Answers current root d (.version key) (.ok .zero) ∧
        ∃ cause, Answers current root d' (.version key) (.error (.read key cause)) := by
  obtain ⟨cause, hbefore, hafter⟩ := h.recorded key
  have hread : d'.read current (Path.join root key) = .ok content := by
    obtain ⟨hseats, -, -⟩ := write_ok.1 h.object
    exact read_ok.2 ⟨hseats.mono h.changesOnly.keeps, lookup_write h.object⟩
  have hprobed : probed current d' key (Path.join root key) = .error (.read key cause) := by
    rw [probed, exists?_of_read hread, if_pos rfl, hafter]
  by_cases hexists : d.exists? current (Path.join root key) = true
  · left
    intro reply
    rw [answers_version hkey, answers_version hkey, hprobed, probed, if_pos hexists, hbefore]
  · right
    refine ⟨(answers_version hkey).2 ?_, cause, (answers_version hkey).2 hprobed.symm⟩
    rw [probed, if_neg hexists]

theorem answers_apart (hkey : isValidKey key = true) {c : Call} {reply : c.Reply}
    (hlooks : c.Looks)
    (hobject : ¬ place current (Path.join root key) <+: place current (Path.join root c.key))
    (hversion : ¬ place current (Path.join root key) <+:
      place current (versionPath (Path.join root c.key))) :
    Answers current root d c reply ↔ Answers current root d' c reply := by
  cases hvalid : isValidKey c.key with
  | false => exact answers_of_invalid hlooks hvalid
  | true =>
    have hreaches := reaches_of_seats hkey (write_ok.1 h.object).1
    have hreaches' := hreaches.mono h.changesOnly.keeps
    have hsame {path : String} (hpath : ¬ place current (Path.join root key) <+: place current path)
        (l : Location) (hl : l <+: place current path) : d'.lookup l = d.lookup l := by
      refine h.changesOnly.same l ?_
      rintro rfl
      exact hpath hl
    have hstat := stat_congr hvalid hreaches hreaches' (hsame hobject)
    have hread : d'.read current (Path.join root c.key) =
        d.read current (Path.join root c.key) := by
      rw [Disk.read, Disk.read, hstat]
    have hrecorded : LocalDirectory.recorded current d' c.key (Path.join root c.key) =
        LocalDirectory.recorded current d c.key (Path.join root c.key) := by
      rw [versionPath_join hvalid] at hversion
      rw [LocalDirectory.recorded, LocalDirectory.recorded, versionPath_join hvalid,
        read_congr (isValidKey_version hvalid) hreaches hreaches' (hsame hversion)]
    cases c with
    | version other =>
      dsimp only [Call.key] at *
      rw [answers_version hvalid, answers_version hvalid, probed, probed, exists?, exists?, hstat,
        hrecorded]
    | download other =>
      dsimp only [Call.key] at *
      rw [answers_download hvalid, answers_download hvalid, fetched, fetched, hrecorded, hread]
    | _ => exact hlooks.elim

end HalfWritten

/-- A failed upload changes no regular file but that of its object, which is left alone or holds
the new content. What could be downloaded, of the same key or of one whose files are elsewhere,
can be downloaded still and has its version. If the directory of the object was there, a download
of the key answers as before, and so does every call that looks at a key with nothing at the object
or below it; a probe of the key answers as before, or with a fault where it was zero. -/
theorem failed_upload_keeps
    (h : (driver root).Handles (Serves current) d ⟨.upload key content, .error e⟩ d') :
    (∀ l written, l ≠ place current (Path.join root key) →
      (d'.lookup l = some (.file written) ↔ d.lookup l = some (.file written))) ∧
    ((∀ written, d'.lookup (place current (Path.join root key)) = some (.file written) ↔
        d.lookup (place current (Path.join root key)) = some (.file written)) ∨
      d'.lookup (place current (Path.join root key)) = some (.file content)) ∧
    (∀ other object, other = key ∨
        place current (Path.join root other) ≠ place current (Path.join root key) ∧
          place current (versionPath (Path.join root other)) ≠
            place current (Path.join root key) →
      Answers current root d (.download other) (.ok object) →
        Answers current root d' (.download other) (.ok object) ∧
          Answers current root d' (.version other) (.ok object.2)) ∧
    (HasFolder current d (Path.join root key) →
      (∀ reply, Answers current root d (.download key) reply ↔
        Answers current root d' (.download key) reply) ∧
      ((∀ reply, Answers current root d (.version key) reply ↔
          Answers current root d' (.version key) reply) ∨
        Answers current root d (.version key) (.ok .zero) ∧
          ∃ cause, Answers current root d' (.version key) (.error (.read key cause))) ∧
      ∀ (c : Call) (reply : c.Reply), c.Looks →
        ¬ place current (Path.join root key) <+: place current (Path.join root c.key) →
        ¬ place current (Path.join root key) <+:
          place current (versionPath (Path.join root c.key)) →
        (Answers current root d c reply ↔ Answers current root d' c reply)) := by
  obtain ⟨d₁, hgrows, hfolder, rfl | ⟨hkey, hhalf⟩⟩ := failed_upload h
  · refine ⟨fun _ _ _ => hgrows.file_iff, .inl fun _ => hgrows.file_iff,
      fun _ _ _ => answers_grow hgrows, fun hthere => ?_⟩
    rw [hfolder hthere]
    exact ⟨fun _ => Iff.rfl, .inl fun _ => Iff.rfl, fun _ _ _ _ _ => Iff.rfl⟩
  · refine ⟨fun l written hl => ?_, .inr (lookup_write hhalf.object),
      fun other object hother hd => ?_, fun hthere => ?_⟩
    · rw [hhalf.changesOnly.same l hl]
      exact hgrows.file_iff
    · exact hhalf.answers_downloaded hother hkey (answers_grow hgrows hd).1
    · rw [hfolder hthere] at hhalf
      exact ⟨hhalf.answers_download_iff hkey, hhalf.answers_version_or hkey,
        fun c reply => hhalf.answers_apart hkey⟩

end

namespace Sample

def inTheWay : Disk :=
  (uploaded [] disk "a.version/x" (Path.join "/states" "a.version/x") content record).2

def halfWritten : Disk :=
  (uploaded [] inTheWay "a" (Path.join "/states" "a") content record).2

theorem handles_upload_inTheWay : (driver "/states").Handles (Serves []) disk
    ⟨.upload "a.version/x" content, .ok version⟩ inTheWay :=
  (performs_upload (by decide)).2 ⟨record, drawn_record, rfl⟩

theorem handles_upload_half : (driver "/states").Handles (Serves []) inTheWay
    ⟨.upload "a" content, .error (.write "a" Fault.isADirectory.message)⟩ halfWritten :=
  (performs_upload (by decide)).2 ⟨record, drawn_record, rfl⟩

theorem answers_inTheWay :
    Answers [] "/states" inTheWay (.download "a.version/x") (.ok (content, version)) := by
  have hversion : inTheWay.read [] (versionPath (Path.join "/states" "a.version/x")) =
      .ok record.encode := rfl
  have hrecorded : recorded [] inTheWay "a.version/x" (Path.join "/states" "a.version/x") =
      .ok version := drawn_record.recorded hversion
  exact (answers_download (by decide)).2 (fetched_ok.2 ⟨hrecorded, drawn_record.isZero, rfl⟩).symm

theorem failed_upload_keeps_inTheWay :
    Answers [] "/states" halfWritten (.download "a.version/x") (.ok (content, version)) ∧
      (Answers [] "/states" inTheWay (.version "b") (.ok .zero) ↔
        Answers [] "/states" halfWritten (.version "b") (.ok .zero)) := by
  obtain ⟨-, -, hbound, hfolder⟩ := failed_upload_keeps handles_upload_half
  constructor
  · exact (hbound "a.version/x" (content, version) (.inr ⟨by decide, by decide⟩)
      answers_inTheWay).1
  · refine (hfolder fun directory hdirectory => ?_).2.2 (.version "b") (.ok .zero) trivial
      (by decide) (by decide)
    have hroot : directory = "/states" := Option.some.inj (hdirectory.symm.trans (by decide))
    subst hroot
    exact reaches_of_walk (l := ["states"]) rfl

/-- An upload that fails at the version file has stored the object, and a probe that answered zero
does not any more. -/
theorem failed_upload_spoils_probe :
    ∃ (t : List (Event calls)) (d d' : Disk) (e : Error),
      Passes ((driver "/states").Handles (Serves [])) disk t d ∧
        (driver "/states").Handles (Serves []) d ⟨.upload "a" content, .error e⟩ d' ∧
        Answers [] "/states" d (.version "a") (.ok .zero) ∧
        ¬ Answers [] "/states" d' (.version "a") (.ok .zero) := by
  refine ⟨_, inTheWay, halfWritten, _, .cons handles_upload_inTheWay (.nil inTheWay),
    handles_upload_half, (answers_version (by decide)).2 rfl, fun h => ?_⟩
  cases (answers_version (by decide)).1 h

end Sample

end Provision.Storage.LocalDirectory
