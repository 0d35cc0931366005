import Provision.Proofs.Storage.Keys
import Provision.Proofs.Storage.Refinement
import Provision.Proofs.Storage.Refusal
import Provision.Proofs.Storage.Viewing

/-!
# A local directory keeps to its root

Of the files of the host it is only assumed that they form a tree without links. What a path
names is then at the place that its text leads to, so a request that writes or removes a path can
change nothing else; making directories puts directories where nothing was; looking changes
nothing. A request may still fail, for any reason and half-way through.

An operation of a local directory writes and removes no path but those of its object and of the
version file, and both are below the root.
-/

namespace Provision

open Provision.Host Provision.Host.Disk

namespace Host

variable {σ α : Type} {current : Location} {look : σ → Location → Option Entry}
  {R : σ → Event effects → σ → Prop} {s s' : σ} {files : String → Prop}

/-- What is at each location, and how requests may change it where there are no links. -/
structure IsFileTree (current : Location) (look : σ → Location → Option Entry)
    (R : σ → Event effects → σ → Prop) : Prop where
  write : ∀ {s s' path content reply}, R s ⟨.writeFile path content, reply⟩ s' →
    ∀ l, l ≠ place current path → look s' l = look s l
  remove : ∀ {s s' path reply}, R s ⟨.removeFile path, reply⟩ s' →
    ∀ l, l ≠ place current path → look s' l = look s l
  make : ∀ {s s' path reply}, R s ⟨.makeDirectories path, reply⟩ s' →
    ∀ l, look s' l = look s l ∨ look s l = none ∧ look s' l = some .directory
  reading : ∀ {s s' r reply}, Request.IsReading r → R s ⟨r, reply⟩ s' → look s' = look s

theorem IsFileTree.step (htree : IsFileTree current look R) {e : Event effects}
    (he : e.op.Touches files) (h : R s e s') {l : Location}
    (hl : ∀ path, files path → l ≠ place current path) (content : Bytes) :
    look s' l = some (.file content) ↔ look s l = some (.file content) := by
  obtain ⟨r, reply⟩ := e
  have hread (hr : r.IsReading) :
      look s' l = some (.file content) ↔ look s l = some (.file content) := by
    rw [htree.reading hr h]
  cases r with
  | writeFile path written => rw [htree.write h l (hl path he)]
  | removeFile path => rw [htree.remove h l (hl path he)]
  | makeDirectories path =>
    rcases htree.make h l with hsame | ⟨hnone, hdirectory⟩
    · rw [hsame]
    · rw [hnone, hdirectory]
      simp
  | _ => exact hread he

theorem IsFileTree.performs (htree : IsFileTree current look R) {p : HostProgram α} {a : α}
    (hp : p.Only (Request.Touches files)) (h : p.Performs R s a s') {l : Location}
    (hl : ∀ path, files path → l ≠ place current path) (content : Bytes) :
    look s' l = some (.file content) ↔ look s l = some (.file content) := by
  obtain ⟨t, hexec, hpasses⟩ := h
  exact hpasses.preserves
    (I := fun s₁ => look s₁ l = some (.file content) ↔ look s l = some (.file content))
    (fun _ _ _ he hR hI => (htree.step (hp.executes hexec _ he) hR hl content).trans hI) Iff.rfl

theorem IsFileTree.performs_reading (htree : IsFileTree current look R) {p : HostProgram α} {a : α}
    (hp : p.Only Request.IsReading) (h : p.Performs R s a s') : look s' = look s := by
  obtain ⟨t, hexec, hpasses⟩ := h
  exact hpasses.preserves (I := fun s₁ => look s₁ = look s)
    (fun _ _ _ he hR hI => (htree.reading (hp.executes hexec _ he) hR).trans hI) rfl

theorem changesOnly_of_settle {at_ : Location → Prop} {d d' : Disk} {reply : Except Fault Unit}
    {result : Except Fault Disk} (h : (reply, d') = d.settle result)
    (hresult : ∀ d₁, result = .ok d₁ → ChangesOnly at_ d d₁) : ChangesOnly at_ d d' := by
  cases result with
  | error fault =>
    cases h
    exact .refl d
  | ok d₁ =>
    cases h
    exact hresult _ rfl

theorem isFileTree_serves (current : Location) :
    IsFileTree current Disk.lookup (Serves current) where
  write h l hl := (changesOnly_of_settle h fun _ => changesOnly_write_place).same l hl
  remove h l hl := (changesOnly_of_settle h fun _ => changesOnly_remove_place).same l hl
  make {d d' path reply} h l := by
    rw [h.2]
    exact grows_makeDirectories d current path l
  reading hr h := by rw [h.unchanged hr.isViewing]

end Host

namespace Storage.LocalDirectory

open Provision.Task (only_bind only_lift only_mapError only_pure only_throw)

def IsFileOf (path file : String) : Prop := file = path ∨ file = versionPath path

section Touches

variable {root key path : String} {files : String → Prop}

theorem touches_write (hpath : files path) (content : Bytes) :
    (attempt (writeFile path content) fun fault => .write key fault.message).run.Only
      (Request.Touches files) :=
  only_mapError ⟨hpath, fun _ => trivial⟩

theorem touches_store (content : Bytes) :
    (store key path content).run.Only (Request.Touches (IsFileOf path)) := by
  refine only_bind (touches_write (.inl rfl) content) fun _ => ?_
  refine only_bind (only_lift ⟨trivial, fun _ => trivial⟩) fun _ => ?_
  refine only_bind (only_lift ⟨trivial, fun _ => trivial⟩) fun _ => ?_
  exact only_bind (touches_write (.inr rfl) _) fun _ => only_pure

theorem touches_removeIfPresent (hpath : files path) :
    (removeIfPresent key path).run.Only (Request.Touches files) := by
  refine only_bind (only_lift ⟨hpath, fun _ => trivial⟩) fun reply => ?_
  cases reply with
  | ok _ => exact only_pure
  | error fault =>
    cases fault with
    | notFound => exact only_pure
    | _ => exact only_throw

theorem touches_driver {c : Call} (hpath : objectPath root c.key = .ok path) :
    ((driver root).answer c).Only (Request.Touches (IsFileOf path)) := by
  obtain ⟨hkey, rfl⟩ := objectPath_eq_ok.1 hpath
  cases c with
  | version key => exact reading_version.mono fun _ => Request.IsReading.touches
  | download key => exact reading_download.mono fun _ => Request.IsReading.touches
  | upload key content =>
    change (upload root key content).run.Only _
    rw [Call.key] at hkey
    rw [upload, objectPath_bind hkey]
    dsimp only [Call.key]
    cases Path.parent? (Path.join root key) with
    | none => exact touches_store content
    | some directory =>
      exact only_bind (only_mapError ⟨trivial, fun _ => trivial⟩) fun _ => touches_store content
  | delete key =>
    change (delete root key).run.Only _
    rw [Call.key] at hkey
    rw [delete, objectPath_bind hkey]
    exact only_bind (touches_removeIfPresent (.inr rfl)) fun _ =>
      touches_removeIfPresent (.inl rfl)

end Touches

/-- A key has a path exactly if it is made of ordinary names, and both files of its object are
then strictly below the root. Whatever comes of a call, every other regular file is afterwards
what it was before; a probe and a download change nothing at all. A key without a path is
refused before the host is asked for anything. -/
theorem keeps_to_root {σ : Type} {current : Location} {look : σ → Location → Option Entry}
    {R : σ → Event effects → σ → Prop} (htree : IsFileTree current look R) (root key : String) :
    ((∃ path, objectPath root key = .ok path) ↔
      key ≠ "" ∧ ∀ component ∈ Path.components key, ∃ name, component = .name name) ∧
    (∀ path, objectPath root key = .ok path →
      IsBelow current root path ∧ IsBelow current root (versionPath path) ∧
      ∀ (c : Call) (reply : c.Reply) (s s' : σ), c.key = key →
        (driver root).Handles R s ⟨c, reply⟩ s' →
        ∀ l, l ≠ place current path → l ≠ place current (versionPath path) →
          ∀ content, look s' l = some (.file content) ↔ look s l = some (.file content)) ∧
    (∀ (c : Call) (reply : c.Reply) (s s' : σ), c.Looks →
      (driver root).Handles R s ⟨c, reply⟩ s' → look s' = look s) ∧
    ((∀ path, objectPath root key ≠ .ok path) → ∀ (c : Call) (reply : c.Reply) (u : Journal),
      c.key = key → ((driver root).answer c).Executes u reply →
        u = [] ∧ Lifecycle.Record.storageError c reply = some (invalidKey key)) := by
  refine ⟨?_, fun path hpath => ?_, fun c reply s s' hlooks h => ?_, fun hnone => ?_⟩
  · rw [← isValidKey_iff_components]
    constructor
    · rintro ⟨path, hpath⟩
      exact (objectPath_eq_ok.1 hpath).1
    · exact fun hkey => ⟨_, objectPath_eq_ok.2 ⟨hkey, rfl⟩⟩
  · obtain ⟨hkey, rfl⟩ := objectPath_eq_ok.1 hpath
    refine ⟨isBelow_join hkey current root, isBelow_version hkey current root, ?_⟩
    rintro c reply s s' rfl h l hobject hversion content
    refine htree.performs (touches_driver hpath) h ?_ content
    rintro file (rfl | rfl)
    · exact hobject
    · exact hversion
  · exact htree.performs_reading (reading_of_looks hlooks) h
  · rintro c reply u rfl h
    have hkey : isValidKey c.key = false :=
      Bool.eq_false_iff.2 fun hkey => hnone _ (objectPath_eq_ok.2 ⟨hkey, rfl⟩)
    exact rejects root hkey c u reply rfl h

namespace Sample

def shared : Disk := ⟨[(["states"], .directory), (["notes"], .file [1])]⟩

def sharedAfter : Disk :=
  (uploaded [] shared "envs//dev" (Path.join "/states/." "envs//dev") content record).2

theorem handles_upload_nested : (driver "/states/.").Handles (Serves []) shared
    ⟨.upload "envs//dev" content, .ok version⟩ sharedAfter :=
  (performs_upload (by decide)).2 ⟨record, drawn_record, rfl⟩

theorem keeps_to_root_nested :
    objectPath "/states/." "envs//dev" = .ok "/states/./envs//dev" ∧
      IsBelow [] "/states/." (versionPath "/states/./envs//dev") ∧
      sharedAfter.lookup ["notes"] = some (.file [1]) := by
  have hpath : objectPath "/states/." "envs//dev" = .ok "/states/./envs//dev" :=
    objectPath_eq_ok.2 ⟨by decide, by decide⟩
  obtain ⟨-, hfiles, -, -⟩ := keeps_to_root (isFileTree_serves []) "/states/." "envs//dev"
  obtain ⟨-, hversion, hother⟩ := hfiles _ hpath
  refine ⟨hpath, hversion, ?_⟩
  exact (hother _ _ shared sharedAfter rfl handles_upload_nested ["notes"] (by decide) (by decide)
    [1]).2 rfl

end Sample

end Storage.LocalDirectory

end Provision
