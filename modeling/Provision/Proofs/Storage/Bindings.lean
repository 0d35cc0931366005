import Provision.Lifecycle.StateFile
import Provision.Proofs.Storage.OnDisk
import Provision.Proofs.Time.Timestamp

/-!
# A local directory as a map

A history of calls on a driver binds a key at every upload that succeeds and unbinds it at every
deletion that succeeds. A local directory that starts out empty answers as this map, although
one binding is two files that are written and removed one after the other: what is bound has
both files as its upload left them, and what is unbound has no version file.
-/

namespace Provision.Storage

open Provision.Host

abbrev calls : Signature := ⟨Call, Call.Reply⟩

/-- The driver can answer the call as it was, on surroundings that go from one state to the
other meanwhile. -/
def Driver.Handles {σ : Type} (driver : Driver) (R : σ → Event effects → σ → Prop) (s : σ)
    (e : Event calls) (s' : σ) : Prop :=
  (driver.answer e.op).Performs R s e.reply s'

abbrev Bindings : Type := String → Option (Bytes × ObjectVersion)

namespace Bindings

def after (m : Bindings) : Event calls → Bindings
  | ⟨.upload key content, .ok v⟩ => fun k => if k = key then some (content, v) else m k
  | ⟨.delete key, .ok _⟩ => fun k => if k = key then none else m k
  | _ => m

def ofHistory (t : List (Event calls)) : Bindings := t.foldl after fun _ => none

/-- The answer is the one that the map gives, if it is an answer at all and no fault. -/
def Explains (m : Bindings) : Event calls → Prop
  | ⟨.version key, .ok v⟩ => v = ((m key).map (·.2)).getD .zero
  | ⟨.download key, .ok object⟩ => m key = some object
  | ⟨.download key, .error (.notFound _)⟩ => m key = none
  | _ => True

theorem after_of_ne {m : Bindings} {e : Event calls} {key : String} (h : key ≠ e.op.key) :
    m.after e key = m key := by
  obtain ⟨c, reply⟩ := e
  cases c with
  | upload k content =>
    cases reply with
    | ok v => exact if_neg h
    | error e => rfl
  | delete k =>
    cases reply with
    | ok u => exact if_neg h
    | error e => rfl
  | version k => rfl
  | download k => rfl

end Bindings

namespace LocalDirectory

open Provision.Host.Disk

/-- A key that names a file in the root, and not the version file of another key. -/
structure IsFlat (key : String) : Prop where
  isName : Path.IsName key
  notVersion : ∀ other, key ≠ other ++ ".version"

theorem isName_append {name suffix : String} (hname : '/' ∉ name.toList)
    (hsuffix : '/' ∉ suffix.toList) (hlength : 2 < suffix.toList.length) :
    Path.IsName (name ++ suffix) := by
  have hlong : 2 < (name ++ suffix).toList.length := by
    rw [String.toList_append, List.length_append]
    omega
  refine ⟨?_, ?_, ?_⟩
  · rw [String.toList_append, List.mem_append]
    exact fun h => h.elim hname hsuffix
  · rw [Path.isIdle, Bool.or_eq_false_iff, decide_eq_false_iff_not]
    constructor
    · cases hlist : (name ++ suffix).toList with
      | nil =>
        rw [hlist] at hlong
        exact absurd hlong (by decide)
      | cons c cs => rfl
    · intro hdot
      rw [hdot] at hlong
      exact absurd hlong (by decide)
  · intro hdots
    rw [hdots] at hlong
    exact absurd hlong (by decide)

theorem IsFlat.versionName {key : String} (h : IsFlat key) : Path.IsName (key ++ ".version") :=
  isName_append h.isName.plain (by decide) (by decide)

theorem IsFlat.versionPath_join {key : String} (h : IsFlat key) (root : String) :
    versionPath (Path.join root key) = Path.join root (key ++ ".version") :=
  Path.join_append h.isName root ".version" h.versionName

theorem IsFlat.isValidKey {key : String} (h : IsFlat key) : isValidKey key = true := by
  have hsegments : Path.segments key = [key.toList] := Text.splitAt_of_not_mem h.isName.plain
  have hidle := h.isName.notIdle
  have hhere : key.toList ≠ ['.'] := of_decide_eq_false (Bool.or_eq_false_iff.1 hidle).2
  have hnil : key.toList ≠ [] := by
    intro hnil
    rw [hnil] at hidle
    cases hidle
  have hempty : key.isEmpty = false := by
    rw [Bool.eq_false_iff, Ne, String.isEmpty_iff]
    rintro rfl
    exact hnil rfl
  have hcomponents : Path.components key = [.name key.toList] := by
    simp only [Path.components, hsegments, h.isName.isAbsolute_eq, hhere, Bool.false_eq_true,
      if_false, Path.Component.ofSegment, hidle, h.isName.notUp]
    rfl
  rw [LocalDirectory.isValidKey, hempty, hcomponents]
  rfl

theorem isFlat_stateKey (env : String) (h : '/' ∉ env.toList) :
    IsFlat (Lifecycle.StateFile.stateKey env) where
  isName := isName_append h (by decide) (by decide)
  notVersion other heq := by
    have hlast := congrArg (fun s => s.toList.getLast?) heq
    simp [Lifecycle.StateFile.stateKey] at hlast

/-- A bound key has both files as its upload left them; an unbound one has no version file. -/
def Keeps (current : Location) (root key : String) (d : Disk) :
    Option (Bytes × ObjectVersion) → Prop
  | some (content, v) => ∃ r : VersionRecord, r.Drawn ∧ v = ⟨r.version, some r.lastModified⟩ ∧
      d.read current (Path.join root key) = .ok content ∧
      d.read current (Path.join root (key ++ ".version")) = .ok r.encode
  | none => ∀ content,
      d.lookup (place current root ++ [key ++ ".version"]) ≠ some (.file content)

variable {current : Location} {d d₁ d₂ d' : Disk} {root key : String} {content : Bytes}
  {v : ObjectVersion} {bound : Option (Bytes × ObjectVersion)} {r : VersionRecord}

theorem VersionRecord.Drawn.decode?_encode (h : r.Drawn) :
    VersionRecord.decode? r.encode = some r :=
  VersionRecord.decode?_encode (Timestamp.ofText?_text h.time)

theorem VersionRecord.Drawn.isZero (h : r.Drawn) :
    ObjectVersion.isZero ⟨r.version, some r.lastModified⟩ = false := by
  obtain ⟨u, hu⟩ := h.token
  rw [ObjectVersion.isZero, Bool.eq_false_iff, Ne, String.isEmpty_iff]
  exact hu ▸ u.text_ne_empty

theorem VersionRecord.Drawn.recorded {path : String} (h : r.Drawn)
    (hread : d.read current (versionPath path) = .ok r.encode) :
    LocalDirectory.recorded current d key path = .ok ⟨r.version, some r.lastModified⟩ := by
  simp only [LocalDirectory.recorded, hread, h.decode?_encode]

theorem Keeps.grows (hflat : IsFlat key) (h : Keeps current root key d bound)
    (hgrows : Grows d d') : Keeps current root key d' bound := by
  cases bound with
  | none => exact fun content hfile => h content (hgrows.file_iff.1 hfile)
  | some object =>
    obtain ⟨r, hr, hv, hobject, hversion⟩ := h
    have hread {name : String} {content : Bytes} (hname : Path.IsName name)
        (hread : d.read current (Path.join root name) = .ok content) :
        d'.read current (Path.join root name) = .ok content := by
      obtain ⟨l, hseat, hfile⟩ := (read_join_ok hname).1 hread
      exact (read_join_ok hname).2 ⟨l, seat_mono hgrows.keeps hseat, hgrows.file_iff.2 hfile⟩
    exact ⟨r, hr, hv, hread hflat.isName hobject, hread hflat.versionName hversion⟩

theorem Keeps.changes {at_ : Location → Prop} (hflat : IsFlat key)
    (h : Keeps current root key d bound) (hchanges : ChangesOnly at_ d d')
    (hobject : bound ≠ none → ¬ at_ (place current root ++ [key]))
    (hversion : ¬ at_ (place current root ++ [key ++ ".version"])) :
    Keeps current root key d' bound := by
  cases bound with
  | none =>
    intro content hfile
    rw [hchanges.same _ hversion] at hfile
    exact h content hfile
  | some object =>
    obtain ⟨r, hr, hv, hread, hread'⟩ := h
    refine ⟨r, hr, hv, read_mono hflat.isName hchanges.keeps (hchanges.same _ ?_) hread,
      read_mono hflat.versionName hchanges.keeps (hchanges.same _ hversion) hread'⟩
    exact hobject (Option.some_ne_none _)

theorem append_version_ne (key : String) : key ++ ".version" ≠ key :=
  fun h => versionPath_ne key h.symm

theorem object_ne_version :
    place current root ++ [key] ≠ place current root ++ [key ++ ".version"] := by
  intro h
  exact append_version_ne key (List.cons.inj (List.append_cancel_left h)).1.symm

theorem Keeps.recorded (hflat : IsFlat key) (h : Keeps current root key d bound)
    (hv : recorded current d key (Path.join root key) = .ok v) :
    v = (bound.map (·.2)).getD .zero := by
  unfold LocalDirectory.recorded at hv
  rw [hflat.versionPath_join] at hv
  cases bound with
  | none =>
    split at hv
    · exact (Except.ok.inj hv).symm
    · cases hv
    · next hread =>
      obtain ⟨l, hseat, hfile⟩ := (read_join_ok hflat.versionName).1 hread
      obtain rfl := eq_of_seat hseat
      exact absurd hfile (h _)
  | some object =>
    obtain ⟨r, hr, hversion, -, hread⟩ := h
    simp only [hread, hr.decode?_encode] at hv
    rw [← Except.ok.inj hv]
    exact hversion.symm

theorem Keeps.recorded_some (hflat : IsFlat key)
    (h : Keeps current root key d (some (content, v))) :
    LocalDirectory.recorded current d key (Path.join root key) = .ok v ∧ v.isZero = false := by
  obtain ⟨r, hr, rfl, -, hread⟩ := h
  rw [← hflat.versionPath_join] at hread
  exact ⟨hr.recorded hread, hr.isZero⟩

theorem Keeps.probed (hflat : IsFlat key) (h : Keeps current root key d bound)
    (hv : probed current d key (Path.join root key) = .ok v) :
    v = (bound.map (·.2)).getD .zero := by
  unfold LocalDirectory.probed at hv
  split at hv
  · exact h.recorded hflat hv
  · next hexists =>
    cases bound with
    | none => exact (Except.ok.inj hv).symm
    | some object =>
      obtain ⟨r, -, -, hread, -⟩ := h
      exact absurd (exists?_of_read hread) hexists

theorem Keeps.fetched_some (hflat : IsFlat key)
    (h : Keeps current root key d (some (content, v))) :
    fetched current d key (Path.join root key) = .ok (content, v) := by
  obtain ⟨hrecorded, hzero⟩ := h.recorded_some hflat
  obtain ⟨r, -, -, hread, -⟩ := h
  simp only [fetched, hrecorded, hzero, hread, Bool.false_eq_true, if_false]

theorem Keeps.fetched_none (hflat : IsFlat key) (h : Keeps current root key d none)
    (object : Bytes × ObjectVersion) :
    fetched current d key (Path.join root key) ≠ .ok object := by
  intro hfetched
  unfold fetched at hfetched
  split at hfetched
  · cases hfetched
  · next v hrecorded =>
    obtain rfl := h.recorded hflat hrecorded
    cases hfetched

def Belongs (current : Location) (root key : String) (l : Location) : Prop :=
  l = place current root ++ [key] ∨ l = place current root ++ [key ++ ".version"]

theorem not_belongs {other : String} (current : Location) (root : String) (hflat : IsFlat key)
    (hother : IsFlat other) (hne : other ≠ key) :
    ¬ Belongs current root key (place current root ++ [other]) ∧
      ¬ Belongs current root key (place current root ++ [other ++ ".version"]) := by
  constructor
  · rintro (h | h)
    · exact hne (List.cons.inj (List.append_cancel_left h)).1
    · exact hother.notVersion key (List.cons.inj (List.append_cancel_left h)).1
  · rintro (h | h)
    · exact hflat.notVersion other (List.cons.inj (List.append_cancel_left h)).1.symm
    · have hnames : other ++ ".version" = key ++ ".version" :=
        (List.cons.inj (List.append_cancel_left h)).1
      have hlists := congrArg String.toList hnames
      rw [String.toList_append, String.toList_append] at hlists
      exact hne (String.toList_injective (List.append_cancel_right hlists))

theorem keeps_kept (hflat : IsFlat key) (hr : r.Drawn)
    (h : kept current d key (Path.join root key) content r = (.ok v, d')) :
    Keeps current root key d' (some (content, v)) := by
  unfold kept at h
  rw [hflat.versionPath_join] at h
  split at h
  · cases h
  · next d₁ hobject =>
    split at h
    · cases h
    · next d₂ hversion =>
      cases h
      refine ⟨r, hr, rfl, ?_, read_write hflat.versionName hversion⟩
      have hchanges := changesOnly_write hflat.versionName hversion
      exact read_mono hflat.isName hchanges.keeps (hchanges.same _ object_ne_version)
        (read_write hflat.isName hobject)

theorem Keeps.kept_error {e : Error} (hflat : IsFlat key) (h : Keeps current root key d bound)
    (hkept : kept current d key (Path.join root key) content r = (.error e, d')) :
    Keeps current root key d' bound := by
  unfold kept at hkept
  rw [hflat.versionPath_join] at hkept
  split at hkept
  · cases hkept
    exact h
  · next d₁ hobject =>
    have hchanges := changesOnly_write hflat.isName hobject
    split at hkept
    · next hversion =>
      cases hkept
      refine h.changes hflat hchanges (fun hbound => ?_) object_ne_version.symm
      cases bound with
      | none => exact absurd rfl hbound
      | some object =>
        obtain ⟨r', -, -, -, hread⟩ := h
        have hread' := read_mono hflat.versionName hchanges.keeps
          (hchanges.same _ object_ne_version.symm) hread
        obtain ⟨d₂, hwrite⟩ := write_of_read hflat.versionName hread' r.encode
        rw [hwrite] at hversion
        cases hversion
    · cases hkept

theorem changesOnly_kept {result : Except Error ObjectVersion} (hflat : IsFlat key)
    (h : kept current d key (Path.join root key) content r = (result, d')) :
    ChangesOnly (Belongs current root key) d d' := by
  unfold kept at h
  rw [hflat.versionPath_join] at h
  split at h
  · cases h
    exact .refl d
  · next d₁ hobject =>
    have hfirst : ChangesOnly (Belongs current root key) d d₁ :=
      (changesOnly_write hflat.isName hobject).mono fun _ => .inl
    split at h
    · cases h
      exact hfirst
    · next hversion =>
      cases h
      exact hfirst.trans ((changesOnly_write hflat.versionName hversion).mono fun _ => .inr)

theorem uploaded_cases (current : Location) (d : Disk) (root : String) (hflat : IsFlat key)
    (content : Bytes) (r : VersionRecord) :
    ∃ fault d₁, d.makeDirectories current (Path.folder root) = (fault, d₁) ∧ Grows d d₁ ∧
      (d.Reaches current root → d₁ = d) ∧
      uploaded current d key (Path.join root key) content r =
        match fault with
        | none => kept current d₁ key (Path.join root key) content r
        | some fault => (.error (.write key fault.message), d₁) := by
  have hgrows := grows_makeDirectories d current (Path.folder root)
  cases hmade : d.makeDirectories current (Path.folder root) with
  | mk fault d₁ =>
    rw [hmade] at hgrows
    refine ⟨fault, d₁, rfl, hgrows, fun hreaches => ?_, ?_⟩
    · rw [makeDirectories_of_reaches hreaches.folder] at hmade
      exact (Prod.ext_iff.1 hmade).2.symm
    · rw [uploaded, Path.parent?_join hflat.isName, Option.map_some, hmade]
      cases fault <;> rfl

theorem deleted_cases (current : Location) (d : Disk) (root : String) (hflat : IsFlat key) :
    (∃ e, deleted current d key (Path.join root key) = (.error e, d) ∧
        ∀ d₁, d.remove current (Path.join root (key ++ ".version")) ≠ .ok d₁) ∨
      ∃ d₁, (d.remove current (Path.join root (key ++ ".version")) = .ok d₁ ∨
          d.remove current (Path.join root (key ++ ".version")) = .error .notFound ∧ d₁ = d) ∧
        deleted current d key (Path.join root key) =
          cleared current d₁ key (Path.join root key) := by
  unfold deleted
  rw [hflat.versionPath_join, cleared]
  cases hremove : d.remove current (Path.join root (key ++ ".version")) with
  | ok d₁ => exact .inr ⟨d₁, .inl rfl, rfl⟩
  | error fault =>
    cases fault with
    | notFound => exact .inr ⟨d, .inr ⟨rfl, rfl⟩, rfl⟩
    | _ => exact .inl ⟨_, rfl, fun d₁ h => by cases h⟩

theorem changesOnly_cleared {result : Except Error Unit} (hflat : IsFlat key)
    (h : cleared current d key (Path.join root key) = (result, d')) :
    ChangesOnly (· = place current root ++ [key]) d d' := by
  unfold cleared at h
  split at h
  · next hremove =>
    cases h
    exact changesOnly_remove hflat.isName hremove
  · cases h
    exact .refl d
  · cases h
    exact .refl d

theorem changesOnly_deleted {result : Except Error Unit} (hflat : IsFlat key)
    (h : deleted current d key (Path.join root key) = (result, d')) :
    ChangesOnly (Belongs current root key) d d' := by
  rcases deleted_cases current d root hflat with
    ⟨e, heq, -⟩ | ⟨d₁, hversion, heq⟩
  · rw [heq] at h
    cases h
    exact .refl d
  · rw [heq] at h
    have hlast : ChangesOnly (Belongs current root key) d₁ d' :=
      (changesOnly_cleared hflat h).mono fun _ => .inl
    rcases hversion with hremove | ⟨-, rfl⟩
    · exact ((changesOnly_remove hflat.versionName hremove).mono fun _ => .inr).trans hlast
    · exact hlast

theorem Keeps.deleted_ok (hflat : IsFlat key) (h : Keeps current root key d bound)
    (hdeleted : deleted current d key (Path.join root key) = (.ok (), d')) :
    Keeps current root key d' none := by
  rcases deleted_cases current d root hflat with
    ⟨e, heq, -⟩ | ⟨d₁, hversion, heq⟩
  · rw [heq] at hdeleted
    cases hdeleted
  · rw [heq] at hdeleted
    have hnone : Keeps current root key d₁ none := by
      rcases hversion with hremove | ⟨hremove, rfl⟩
      · intro content hfile
        rw [lookup_remove hflat.versionName hremove] at hfile
        cases hfile
      · cases bound with
        | none => exact h
        | some object =>
          obtain ⟨r, -, -, -, hread⟩ := h
          obtain ⟨d₂, hremove'⟩ := remove_of_read hflat.versionName hread
          rw [hremove] at hremove'
          cases hremove'
    exact hnone.changes hflat (changesOnly_cleared hflat hdeleted) (fun h => absurd rfl h)
      object_ne_version.symm

theorem Keeps.deleted_error {e : Error} (hflat : IsFlat key) (h : Keeps current root key d bound)
    (hdeleted : deleted current d key (Path.join root key) = (.error e, d')) :
    Keeps current root key d' bound := by
  cases bound with
  | none =>
    intro content hfile
    rcases deleted_cases current d root hflat with
      ⟨e, heq, -⟩ | ⟨d₁, hversion, heq⟩
    · rw [heq] at hdeleted
      cases hdeleted
      exact h content hfile
    · rw [heq] at hdeleted
      rw [(changesOnly_cleared hflat hdeleted).same _ object_ne_version.symm] at hfile
      rcases hversion with hremove | ⟨-, rfl⟩
      · rw [lookup_remove hflat.versionName hremove] at hfile
        cases hfile
      · exact h content hfile
  | some object =>
    obtain ⟨r, -, -, hobject, hversion⟩ := h
    obtain ⟨d₁, hremove⟩ := remove_of_read hflat.versionName hversion
    have hchanges := changesOnly_remove hflat.versionName hremove
    have hobject' := read_mono hflat.isName hchanges.keeps
      (hchanges.same _ object_ne_version) hobject
    obtain ⟨d₂, hremove'⟩ := remove_of_read hflat.isName hobject'
    have hdeleted' : LocalDirectory.deleted current d key (Path.join root key) = (.ok (), d₂) := by
      simp only [LocalDirectory.deleted, cleared, hflat.versionPath_join, hremove, hremove']
    rw [hdeleted'] at hdeleted
    cases hdeleted

theorem upload_cases {reply : Except Error ObjectVersion} (hflat : IsFlat key)
    (h : (upload root key content).run.Performs (Serves current) d reply d') :
    ∃ d₁, Grows d d₁ ∧ (d.Reaches current root → d₁ = d) ∧
      ((∃ fault : Fault, reply = .error (.write key fault.message) ∧ d' = d₁) ∨
        ∃ r : VersionRecord, r.Drawn ∧
          kept current d₁ key (Path.join root key) content r = (reply, d')) := by
  obtain ⟨r, hr, hresult⟩ := (performs_upload hflat.isValidKey).1 h
  obtain ⟨fault, d₁, -, hgrows, hsame, heq⟩ :=
    uploaded_cases current d root hflat content r
  rw [heq] at hresult
  refine ⟨d₁, hgrows, hsame, ?_⟩
  cases fault with
  | none => exact .inr ⟨r, hr, hresult.symm⟩
  | some fault => exact .inl ⟨fault, (Prod.ext_iff.1 hresult).1, (Prod.ext_iff.1 hresult).2⟩

theorem performs_delete {reply : Except Error Unit} (hflat : IsFlat key)
    (h : (delete root key).run.Performs (Serves current) d reply d') :
    deleted current d key (Path.join root key) = (reply, d') :=
  (Prod.ext_iff.2 ((comesTo_delete hflat.isValidKey _ _).1 h)).symm

theorem handles_changes {c : Call} {reply : c.Reply} (hflat : IsFlat c.key)
    (h : (driver root).Handles (Serves current) d ⟨c, reply⟩ d') :
    ∃ d₁, Grows d d₁ ∧ (d.Reaches current root → d₁ = d) ∧
      ChangesOnly (Belongs current root c.key) d₁ d' := by
  cases c with
  | upload key content =>
    obtain ⟨d₁, hgrows, hsame, hresult⟩ := upload_cases hflat h
    refine ⟨d₁, hgrows, hsame, ?_⟩
    rcases hresult with ⟨fault, -, rfl⟩ | ⟨r, -, hkept⟩
    · exact .refl d'
    · exact changesOnly_kept hflat hkept
  | download key =>
    obtain ⟨-, rfl⟩ := (comesTo_download hflat.isValidKey _ _).1 h
    exact ⟨_, .refl _, fun _ => rfl, .refl _⟩
  | version key =>
    obtain ⟨-, rfl⟩ := (comesTo_version hflat.isValidKey _ _).1 h
    exact ⟨_, .refl _, fun _ => rfl, .refl _⟩
  | delete key =>
    exact ⟨d, .refl d, fun _ => rfl, changesOnly_deleted hflat (performs_delete hflat h)⟩

theorem Keeps.call {m : Bindings} {c : Call} {reply : c.Reply} (hflat : IsFlat c.key)
    (hm : Keeps current root c.key d (m c.key))
    (h : (driver root).Handles (Serves current) d ⟨c, reply⟩ d') :
    Keeps current root c.key d' (m.after ⟨c, reply⟩ c.key) := by
  cases c with
  | upload key content =>
    obtain ⟨d₁, hgrows, -, hresult⟩ := upload_cases hflat h
    rcases hresult with ⟨fault, rfl, rfl⟩ | ⟨r, hr, hkept⟩
    · exact hm.grows hflat hgrows
    · cases reply with
      | ok v =>
        have hbound : m.after ⟨.upload key content, .ok v⟩ key = some (content, v) := if_pos rfl
        rw [Call.key, hbound]
        exact keeps_kept hflat hr hkept
      | error e => exact (hm.grows hflat hgrows).kept_error hflat hkept
  | download key =>
    obtain ⟨-, rfl⟩ := (comesTo_download hflat.isValidKey _ _).1 h
    exact hm
  | version key =>
    obtain ⟨-, rfl⟩ := (comesTo_version hflat.isValidKey _ _).1 h
    exact hm
  | delete key =>
    have hdeleted := performs_delete hflat h
    cases reply with
    | ok u =>
      have hunbound : m.after ⟨.delete key, .ok u⟩ key = none := if_pos rfl
      rw [Call.key, hunbound]
      exact hm.deleted_ok hflat hdeleted
    | error e => exact hm.deleted_error hflat hdeleted

/-- The disk keeps of every key what the map binds. -/
def Represents (current : Location) (root : String) (d : Disk) (m : Bindings) : Prop :=
  ∀ key, IsFlat key → Keeps current root key d (m key)

theorem Represents.step {m : Bindings} {e : Event calls} (hflat : IsFlat e.op.key)
    (hm : Represents current root d m) (h : (driver root).Handles (Serves current) d e d') :
    Represents current root d' (m.after e) := by
  intro key hkey
  by_cases hother : key = e.op.key
  · subst hother
    exact (hm _ hkey).call hflat h
  · obtain ⟨d₁, hgrows, -, hchanges⟩ := handles_changes hflat h
    obtain ⟨hobject, hversion⟩ := not_belongs current root hflat hkey hother
    rw [Bindings.after_of_ne hother]
    exact ((hm key hkey).grows hkey hgrows).changes hkey hchanges (fun _ => hobject) hversion

theorem Represents.history {m : Bindings} {t : List (Event calls)}
    (hflat : ∀ e ∈ t, IsFlat e.op.key) (hm : Represents current root d m)
    (h : Passes ((driver root).Handles (Serves current)) d t d') :
    Represents current root d' (t.foldl Bindings.after m) := by
  induction h generalizing m with
  | nil d => exact hm
  | cons he _ ih =>
    exact ih (fun e he => hflat e (List.mem_cons_of_mem _ he))
      (hm.step (hflat _ List.mem_cons_self) he)

theorem represents_empty
    (hempty : ∀ name, d.lookup (place current root ++ [name]) = none) :
    Represents current root d fun _ => none := by
  intro key _ content hfile
  rw [hempty] at hfile
  cases hfile

theorem Keeps.explains {m : Bindings} {c : Call} {reply : c.Reply} (hflat : IsFlat c.key)
    (hm : Keeps current root c.key d (m c.key))
    (h : (driver root).Handles (Serves current) d ⟨c, reply⟩ d') : m.Explains ⟨c, reply⟩ := by
  cases c with
  | upload key content => trivial
  | delete key => trivial
  | version key =>
    obtain ⟨hreply, -⟩ := (comesTo_version hflat.isValidKey _ _).1 h
    cases reply with
    | ok v => exact hm.probed hflat hreply.symm
    | error e => trivial
  | download key =>
    rw [Call.key] at hm hflat
    obtain ⟨hreply, -⟩ : reply = fetched current d key (Path.join root key) ∧ d' = d :=
      (comesTo_download hflat.isValidKey _ _).1 h
    cases hbound : m key with
    | some object =>
      rw [hbound] at hm
      rw [hm.fetched_some hflat] at hreply
      subst hreply
      exact hbound
    | none =>
      rw [hbound] at hm
      cases reply with
      | ok object => exact absurd hreply.symm (hm.fetched_none hflat object)
      | error e =>
        cases e with
        | notFound k => exact hbound
        | _ => trivial

end LocalDirectory

end Provision.Storage
