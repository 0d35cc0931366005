import Provision.Proofs.Storage.Bindings

/-!
# A local directory answers as a map

Two disks that agree in the two places of a key, and on which the root can be reached, allow the
same answers to every call on the key. A call on one state key changes nothing in the places of
another, so no environment sees what happens to the others.
-/

namespace Provision.Storage.LocalDirectory

open Provision.Host Provision.Host.Disk

variable {current : Location} {d d₁ d₂ d' : Disk} {root key : String}

/-- Two disks that a key cannot tell apart. -/
structure Alike (current : Location) (root key : String) (d d' : Disk) : Prop where
  left : d.Reaches current root
  right : d'.Reaches current root
  same : ∀ l, Belongs current root key l → d'.lookup l = d.lookup l

theorem Alike.symm (h : Alike current root key d d') : Alike current root key d' d :=
  ⟨h.right, h.left, fun l hl => (h.same l hl).symm⟩

theorem Alike.changes {l : Location} {e : Option Entry} (h : Alike current root key d d')
    (hleft : ChangesOnly (· = l) d d₁) (hright : ChangesOnly (· = l) d' d₂)
    (hat : d₁.lookup l = e) (hat' : d₂.lookup l = e) : Alike current root key d₁ d₂ where
  left := h.left.mono hleft.keeps
  right := h.right.mono hright.keeps
  same l' hl' := by
    by_cases heq : l' = l
    · rw [heq, hat, hat']
    · rw [hleft.same l' heq, hright.same l' heq, h.same l' hl']

section Names

variable {name : String} (h : Alike current root key d d') (hname : Path.IsName name)
  (hbelongs : Belongs current root key (place current root ++ [name]))

include h hbelongs

theorem Alike.seat_cases :
    (∃ fault, d.seat current root name = .error fault ∧
        d'.seat current root name = .error fault) ∨
      d.seat current root name = .ok (place current root ++ [name]) ∧
        d'.seat current root name = .ok (place current root ++ [name]) ∧
        d'.lookup (place current root ++ [name]) = d.lookup (place current root ++ [name]) := by
  rw [seat_of_reaches h.right h.left]
  cases hseat : d.seat current root name with
  | error fault => exact .inl ⟨fault, rfl, rfl⟩
  | ok l =>
    obtain rfl := eq_of_seat hseat
    exact .inr ⟨rfl, rfl, h.same _ hbelongs⟩

include hname

theorem Alike.stat : d'.stat current (Path.join root name) =
    d.stat current (Path.join root name) := by
  rw [stat_join hname, stat_join hname]
  rcases h.seat_cases hbelongs with ⟨fault, hleft, hright⟩ | ⟨hleft, hright, hsame⟩
  · rw [hleft, hright]
    rfl
  · rw [hleft, hright]
    simp only [Except.bind, hsame]

theorem Alike.read : d'.read current (Path.join root name) =
    d.read current (Path.join root name) := by
  rw [Disk.read, Disk.read, h.stat hname hbelongs]

theorem Alike.write (content : Bytes) :
    (∃ fault, d.write current (Path.join root name) content = .error fault ∧
        d'.write current (Path.join root name) content = .error fault) ∨
      ∃ d₁ d₂, d.write current (Path.join root name) content = .ok d₁ ∧
        d'.write current (Path.join root name) content = .ok d₂ ∧
        Alike current root key d₁ d₂ := by
  have hput (d : Disk) : (d.put (place current root ++ [name]) (.file content)).lookup
      (place current root ++ [name]) = some (.file content) := by
    rw [lookup_put d place_append_ne_nil, if_pos rfl]
  rw [write_join hname, write_join hname]
  rcases h.seat_cases hbelongs with ⟨fault, hleft, hright⟩ | ⟨hleft, hright, hsame⟩
  · rw [hleft, hright]
    exact .inl ⟨fault, rfl, rfl⟩
  · rw [hleft, hright]
    simp only [Except.bind, hsame]
    split
    · exact .inl ⟨_, rfl, rfl⟩
    · next hlookup =>
      refine .inr ⟨_, _, rfl, rfl, h.changes (changesOnly_put place_append_ne_nil hlookup)
        (changesOnly_put place_append_ne_nil ?_) (hput d) (hput d')⟩
      rwa [hsame]

theorem Alike.remove :
    (∃ fault, d.remove current (Path.join root name) = .error fault ∧
        d'.remove current (Path.join root name) = .error fault) ∨
      ∃ d₁ d₂, d.remove current (Path.join root name) = .ok d₁ ∧
        d'.remove current (Path.join root name) = .ok d₂ ∧ Alike current root key d₁ d₂ := by
  have herase (d : Disk) : (d.erase (place current root ++ [name])).lookup
      (place current root ++ [name]) = none := by
    rw [lookup_erase d place_append_ne_nil, if_pos rfl]
  rw [remove_join hname, remove_join hname]
  rcases h.seat_cases hbelongs with ⟨fault, hleft, hright⟩ | ⟨hleft, hright, hsame⟩
  · rw [hleft, hright]
    exact .inl ⟨fault, rfl, rfl⟩
  · rw [hleft, hright]
    simp only [Except.bind, hsame]
    split
    · exact .inl ⟨_, rfl, rfl⟩
    · next file hlookup =>
      have hfile : d.lookup (place current root ++ [name]) ≠ some .directory := by simp [hlookup]
      refine .inr ⟨_, _, rfl, rfl, h.changes (changesOnly_erase place_append_ne_nil hfile)
        (changesOnly_erase place_append_ne_nil ?_) (herase d) (herase d')⟩
      rwa [hsame]
    · exact .inl ⟨_, rfl, rfl⟩

end Names

section Calls

variable (hflat : IsFlat key) (h : Alike current root key d d')

include hflat h

theorem Alike.recorded : recorded current d' key (Path.join root key) =
    recorded current d key (Path.join root key) := by
  unfold LocalDirectory.recorded
  rw [hflat.versionPath_join, h.read hflat.versionName (.inr rfl)]

theorem Alike.probed : probed current d' key (Path.join root key) =
    probed current d key (Path.join root key) := by
  rw [LocalDirectory.probed, LocalDirectory.probed, Disk.exists?, Disk.exists?,
    h.stat hflat.isName (.inl rfl), h.recorded hflat]

theorem Alike.fetched : fetched current d' key (Path.join root key) =
    fetched current d key (Path.join root key) := by
  rw [LocalDirectory.fetched, LocalDirectory.fetched, h.recorded hflat,
    h.read hflat.isName (.inl rfl)]

theorem Alike.kept (content : Bytes) (r : VersionRecord) :
    (kept current d' key (Path.join root key) content r).1 =
      (kept current d key (Path.join root key) content r).1 := by
  unfold LocalDirectory.kept
  rw [hflat.versionPath_join]
  rcases h.write hflat.isName (.inl rfl) content with
    ⟨fault, hleft, hright⟩ | ⟨d₁, d₂, hleft, hright, halike⟩
  · simp only [hleft, hright]
  · simp only [hleft, hright]
    rcases halike.write hflat.versionName (.inr rfl) r.encode with
      ⟨fault, hleft', hright'⟩ | ⟨d₃, d₄, hleft', hright', -⟩
    · simp only [hleft', hright']
    · simp only [hleft', hright']

theorem Alike.deleted : (deleted current d' key (Path.join root key)).1 =
    (deleted current d key (Path.join root key)).1 := by
  have hcleared {d d' : Disk} (h : Alike current root key d d') :
      (cleared current d' key (Path.join root key)).1 =
        (cleared current d key (Path.join root key)).1 := by
    unfold cleared
    rcases h.remove hflat.isName (.inl rfl) with
      ⟨fault, hleft, hright⟩ | ⟨d₁, d₂, hleft, hright, -⟩
    · rw [hleft, hright]
      cases fault <;> rfl
    · rw [hleft, hright]
  rw [LocalDirectory.deleted, LocalDirectory.deleted, hflat.versionPath_join]
  rcases h.remove hflat.versionName (.inr rfl) with
    ⟨fault, hleft, hright⟩ | ⟨d₁, d₂, hleft, hright, halike⟩
  · simp only [cleared, hleft, hright]
    cases fault with
    | notFound => exact hcleared h
    | _ => rfl
  · simp only [cleared, hleft, hright]
    exact hcleared halike

end Calls

theorem Alike.handles {c : Call} {reply : c.Reply} (hflat : IsFlat c.key)
    (h : Alike current root c.key d d')
    (hcall : ∃ d₁, (driver root).Handles (Serves current) d ⟨c, reply⟩ d₁) :
    ∃ d₂, (driver root).Handles (Serves current) d' ⟨c, reply⟩ d₂ := by
  obtain ⟨d₁, hcall⟩ := hcall
  cases c with
  | upload key content =>
    rw [Call.key] at h hflat
    obtain ⟨r, hr, hresult⟩ := (performs_upload hflat.isValidKey).1 hcall
    refine ⟨(uploaded current d' key (Path.join root key) content r).2,
      (performs_upload hflat.isValidKey).2 ⟨r, hr, Prod.ext ?_ rfl⟩⟩
    refine (Prod.ext_iff.1 hresult).1.trans ?_
    rw [uploaded, uploaded, Path.parent?_join hflat.isName, Option.map_some, Option.map_some,
      makeDirectories_of_reaches h.left.folder, makeDirectories_of_reaches h.right.folder]
    generalize (if Path.lineage (Path.folder root) = [] then none else _ : Option Fault) = fault
    cases fault with
    | none => exact (h.kept hflat content r).symm
    | some fault => rfl
  | download key =>
    obtain ⟨hreply, -⟩ := (comesTo_download hflat.isValidKey _ _).1 hcall
    exact ⟨d', (comesTo_download hflat.isValidKey _ _).2
      ⟨hreply.trans (h.fetched hflat).symm, rfl⟩⟩
  | version key =>
    obtain ⟨hreply, -⟩ := (comesTo_version hflat.isValidKey _ _).1 hcall
    exact ⟨d', (comesTo_version hflat.isValidKey _ _).2 ⟨hreply.trans (h.probed hflat).symm, rfl⟩⟩
  | delete key =>
    obtain ⟨hreply, -⟩ := (comesTo_delete hflat.isValidKey _ _).1 hcall
    exact ⟨_, (comesTo_delete hflat.isValidKey _ _).2 ⟨hreply.trans (h.deleted hflat).symm, rfl⟩⟩

/-- A call on another key leaves the disk as it is for a key, once the root is there. -/
theorem alike_of_handles {c : Call} {reply : c.Reply} (hflat : IsFlat c.key) (hkey : IsFlat key)
    (hne : key ≠ c.key) (hreaches : d.Reaches current root)
    (h : (driver root).Handles (Serves current) d ⟨c, reply⟩ d') :
    Alike current root key d d' := by
  obtain ⟨d₁, -, hsame, hchanges⟩ := handles_changes hflat h
  rw [hsame hreaches] at hchanges
  obtain ⟨hobject, hversion⟩ := not_belongs current root hflat hkey hne
  refine ⟨hreaches, hreaches.mono hchanges.keeps, ?_⟩
  rintro l (rfl | rfl)
  · exact hchanges.same _ hobject
  · exact hchanges.same _ hversion

theorem reaches_history {t : List (Event calls)} (hflat : ∀ e ∈ t, IsFlat e.op.key)
    (h : Passes ((driver root).Handles (Serves current)) d t d')
    (hreaches : d.Reaches current root) : d'.Reaches current root := by
  refine h.preserves (I := fun d => d.Reaches current root) (fun d e d' he hstep hd => ?_) hreaches
  obtain ⟨d₁, -, hsame, hchanges⟩ := handles_changes (hflat e he) hstep
  rw [hsame hd] at hchanges
  exact hd.mono hchanges.keeps

/-- A local directory whose root holds nothing at first, or is not there yet, answers every call
after every history on state keys as the map of the history does. If the root is there, calls
on one environment leave the possible answers to calls on another as they are. -/
theorem answers_as_bindings {t : List (Event calls)} {e : Event calls}
    (hempty : ∀ name, d.lookup (place current root ++ [name]) = none)
    (hkeys : ∀ e' ∈ t ++ [e], ∃ env : String, '/' ∉ env.toList ∧
      e'.op.key = Lifecycle.StateFile.stateKey env)
    (ht : Passes ((driver root).Handles (Serves current)) d t d₁)
    (he : (driver root).Handles (Serves current) d₁ e d₂) :
    (Bindings.ofHistory t).Explains e ∧
      (d.Reaches current root → ∀ (env : String) (c : Call) (reply : c.Reply),
        '/' ∉ env.toList → c.key = Lifecycle.StateFile.stateKey env → c.key ≠ e.op.key →
        ((∃ d₃, (driver root).Handles (Serves current) d₁ ⟨c, reply⟩ d₃) ↔
          ∃ d₃, (driver root).Handles (Serves current) d₂ ⟨c, reply⟩ d₃)) := by
  have hflat : ∀ e' ∈ t ++ [e], IsFlat e'.op.key := by
    intro e' he'
    obtain ⟨env, hplain, hkey⟩ := hkeys e' he'
    exact hkey ▸ isFlat_stateKey _ hplain
  have hhistory : ∀ e' ∈ t, IsFlat e'.op.key := fun e' he' => hflat e' (List.mem_append_left _ he')
  have hlast : IsFlat e.op.key := hflat e (List.mem_append_right _ List.mem_cons_self)
  constructor
  · have hm : Represents current root d₁ (Bindings.ofHistory t) :=
      (represents_empty hempty).history hhistory ht
    exact (hm _ hlast).explains hlast he
  · intro hreaches env c reply hplain hkey hne
    have hc : IsFlat c.key := hkey ▸ isFlat_stateKey _ hplain
    have halike : Alike current root c.key d₁ d₂ :=
      alike_of_handles hlast hc hne (reaches_history hhistory ht hreaches) he
    exact ⟨halike.handles hc, halike.symm.handles hc⟩

namespace Sample

def disk : Disk := ⟨[(["states"], .directory)]⟩

def content : Bytes := [123, 125]

def record : VersionRecord := ⟨Uuid.text ⟨.replicate 16 7⟩, ⟨2024, 5, 6, 12, 30, 0, 0⟩⟩

def version : ObjectVersion := ⟨record.version, some record.lastModified⟩

def stored : Disk :=
  (disk.put ["states", "dev.tfstate"] (.file content)).put ["states", "dev.tfstate.version"]
    (.file record.encode)

def history : List (Event calls) := [⟨.upload "dev.tfstate" content, .ok version⟩]

theorem drawn_record : record.Drawn := ⟨⟨_, rfl⟩, by decide⟩

theorem isFlat_dev : IsFlat "dev.tfstate" := isFlat_stateKey "dev" (by decide)

theorem kept_dev : kept [] disk "dev.tfstate" (Path.join "/states" "dev.tfstate") content record =
    (.ok version, stored) := rfl

theorem handles_upload : (driver "/states").Handles (Serves []) disk
    ⟨.upload "dev.tfstate" content, .ok version⟩ stored :=
  (performs_upload isFlat_dev.isValidKey).2 ⟨record, drawn_record, rfl⟩

theorem handles_download : (driver "/states").Handles (Serves []) stored
    ⟨.download "dev.tfstate", .ok (content, version)⟩ stored := by
  have hkeeps := keeps_kept isFlat_dev drawn_record kept_dev
  exact (comesTo_download isFlat_dev.isValidKey _ _).2 ⟨(hkeeps.fetched_some isFlat_dev).symm, rfl⟩

theorem disk_empty (name : String) : disk.lookup (place [] "/states" ++ [name]) = none := by
  have hplace : place [] "/states" = ["states"] := by decide
  simp [hplace, lookup, disk, find]

theorem keys_dev (e : Event calls) (h : e.op.key = "dev.tfstate") :
    ∃ env : String, '/' ∉ env.toList ∧ e.op.key = Lifecycle.StateFile.stateKey env :=
  ⟨"dev", by decide, h⟩

theorem answers_as_bindings_dev :
    Bindings.ofHistory history "dev.tfstate" = some (content, version) ∧
      ((∃ d, (driver "/states").Handles (Serves []) disk
          ⟨.version "prod.tfstate", .ok .zero⟩ d) ↔
        ∃ d, (driver "/states").Handles (Serves []) stored
          ⟨.version "prod.tfstate", .ok .zero⟩ d) := by
  constructor
  · refine (answers_as_bindings (e := ⟨.download "dev.tfstate", .ok (content, version)⟩)
      disk_empty (fun e he => keys_dev e ?_) (.cons handles_upload (.nil stored))
      handles_download).1
    rcases List.mem_cons.1 he with rfl | he
    · rfl
    · exact List.mem_singleton.1 he ▸ rfl
  · refine (answers_as_bindings (t := []) disk_empty (fun e he => keys_dev e ?_) (.nil disk)
      handles_upload).2 (reaches_of_walk (l := ["states"]) rfl) "prod" (.version "prod.tfstate")
      (.ok .zero) (by decide) rfl (by decide)
    exact List.mem_singleton.1 he ▸ rfl

end Sample

end Provision.Storage.LocalDirectory
