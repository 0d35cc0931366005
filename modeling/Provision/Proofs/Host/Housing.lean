import Provision.Proofs.Host.Resolving
import Provision.Proofs.Host.Scratch

/-!
# Runs that keep to their scratch directory

A process that is confined changes nothing but what is below the directory it works in. A run that
starts its processes in the directory it was lent, and writes nothing but in there, leaves the rest
of the disk alone. `Houses` compares the disk with one on which the directory was never made, so
that a file which the run delivers elsewhere shows on both, and only such files are left when the
directory is given back.
-/

namespace Provision.Host

open Provision.Host.Path

namespace Disk

def Below (l l' : Location) : Prop := l <+: l' ∧ l' ≠ l

/-- A process changes nothing but what is below its working directory. -/
def Confined (current : Location) (Process : Disk → Invocation → Disk → Prop) : Prop :=
  ∀ d i d', Process d i d' → ∀ l,
    (∀ w, d.enter current i.directory = .ok w → ¬ Below w l) → d'.lookup l = d.lookup l

def Spares (current : Location) (Process : Disk → Invocation → Disk → Prop)
    (kind : Invocation → Prop) (name : String) : Prop :=
  ∀ d i d' w, Process d i d' → kind i → d.enter current i.directory = .ok w →
    d'.lookup (w ++ [name]) = d.lookup (w ++ [name])

theorem place_of_enter {d : Disk} {current l : Location} {path : String}
    (h : d.enter current path = .ok l) : l = place current path := by
  unfold enter at h
  split at h
  · cases h
  · split at h
    · cases h
    · split at h
      · cases h
      · exact eq_destination_of_walk h

end Disk

def Request.Stays (root : String) : Request → Prop
  | .writeFile path _ => ∃ name, IsName name ∧ path = Path.join root name
  | .makeDirectories path => path = folder root
  | .start i => i.directory = root
  | r => r.IsInert

theorem Request.IsInert.stays {root : String} {r : Request} (h : r.IsInert) : r.Stays root := by
  cases r with
  | writeFile path content => exact h.elim
  | makeDirectories path => exact h.elim
  | start i => exact h.elim
  | _ => exact h

variable {current : Location} {Process : Disk → Invocation → Disk → Prop} {d d' : Disk}
  {u : Journal}

namespace Disk

variable {d₀ d₁ d₂ : Disk} {root directory name : String} {content : Bytes}

/-- The disk is like `d₀`, on which nothing is at the root, but that the root is there, with
whatever is below it. -/
structure Houses (current : Location) (root : String) (d₀ d : Disk) : Prop where
  free : d₀.IsFree (place current root)
  there : d.lookup (place current root) = some .directory
  same : ∀ l, ¬ place current root <+: l → d.lookup l = d₀.lookup l
  reaches : (d₀.put (place current root) .directory).Reaches current root

theorem houses_of_opened (h : Lodges current Process d ⟨.openScratch, .ok root⟩ d') :
    Houses current root d d' := by
  obtain ⟨hfree, rfl, hreaches⟩ := h
  refine ⟨hfree, ?_, fun l hl => ?_, hreaches⟩
  · rw [lookup_put d hfree.ne_nil, if_pos rfl]
  · rw [lookup_put d hfree.ne_nil, if_neg]
    rintro rfl
    exact hl (List.prefix_refl _)

namespace Houses

variable (h : Houses current root d₀ d₁)

include h

theorem keeps : KeepsDirectories (d₀.put (place current root) .directory) d₁ := by
  intro l hl
  rw [lookup_put d₀ h.free.ne_nil] at hl
  split at hl
  · next heq => rw [heq, h.there]
  · by_cases hbelow : place current root <+: l
    · rw [h.free l hbelow] at hl
      cases hl
    · rw [h.same l hbelow, hl]

theorem changed (hsame : ∀ l, ¬ Below (place current root) l → d₂.lookup l = d₁.lookup l) :
    Houses current root d₀ d₂ where
  free := h.free
  there := (hsame _ fun hbelow => hbelow.2 rfl).trans h.there
  same l hl := (hsame l fun hbelow => hl hbelow.1).trans (h.same l hl)
  reaches := h.reaches

theorem stays (hprocess : Confined current Process) {e : Event effects}
    (he : e.op.Stays root) (hlodges : Lodges current Process d₁ e d₂) :
    Houses current root d₀ d₂ := by
  obtain ⟨op, reply⟩ := e
  cases op with
  | writeFile path content =>
    obtain ⟨name, hname, rfl⟩ := he
    cases reply with
    | error fault => exact hlodges.not_written ▸ h
    | ok _ =>
      obtain ⟨-, -, rfl⟩ := write_join_ok hname hlodges.written
      refine h.changed fun l hl => ?_
      rw [lookup_put d₁ place_append_ne_nil, if_neg]
      rintro rfl
      exact hl ⟨List.prefix_append _ _, fun heq => by simpa using congrArg List.length heq⟩
  | makeDirectories path =>
    obtain rfl : path = folder root := he
    rcases hlodges with ⟨-, rfl⟩ | ⟨-, rfl⟩
    · rw [makeDirectories_of_reaches (h.reaches.mono h.keeps).folder]
      exact h
    · exact h
  | start i =>
    obtain rfl : i.directory = root := he
    exact h.changed fun l hl => hprocess _ _ _ hlodges l fun w hw => place_of_enter hw ▸ hl
  | _ => exact hlodges.unchanged he ▸ h

theorem run (hprocess : Confined current Process) (hu : ∀ e ∈ u, e.op.Stays root)
    (hpasses : Passes (Lodges current Process) d₁ u d₂) : Houses current root d₀ d₂ :=
  hpasses.preserves (I := Houses current root d₀)
    (fun _ e _ he hlodges h => h.stays hprocess (hu e he) hlodges) h

theorem outside {l : Location} (hl : d₀.lookup l = some .directory) :
    ¬ place current root <+: l := by
  intro hbelow
  rw [h.free l hbelow] at hl
  cases hl

theorem delivered (hname : IsName name)
    (hdirectory : d₀.lookup (place current directory) = some .directory)
    (hlodges : Lodges current Process d₁
      ⟨.writeFile (Path.join directory name) content, .ok ()⟩ d₂) :
    Houses current root (d₀.put (place current directory ++ [name]) (.file content)) d₂ ∧
      ¬ place current root <+: place current directory ++ [name] ∧
      d₂ = d₁.put (place current directory ++ [name]) (.file content) := by
  obtain ⟨-, hfile, rfl⟩ := write_join_ok hname hlodges.written
  have houtside : ¬ place current root <+: place current directory ++ [name] := by
    intro hbelow
    rcases List.prefix_concat_iff.1 hbelow with heq | hinside
    · rw [← heq, h.there] at hfile
      exact hfile rfl
    · exact h.outside hdirectory hinside
  refine ⟨⟨fun l hl => ?_, ?_, fun l hl => ?_, h.reaches.mono fun l hl => ?_⟩, houtside, rfl⟩
  · rw [lookup_put d₀ place_append_ne_nil, if_neg, h.free l hl]
    rintro rfl
    exact houtside hl
  · rw [lookup_put d₁ place_append_ne_nil, if_neg, h.there]
    intro heq
    exact houtside (heq ▸ List.prefix_refl _)
  · rw [lookup_put d₁ place_append_ne_nil, lookup_put d₀ place_append_ne_nil, h.same l hl]
  · rw [lookup_put _ h.free.ne_nil] at hl ⊢
    split
    · rfl
    · next hne =>
      rw [if_neg hne] at hl
      rw [lookup_put d₀ place_append_ne_nil, if_neg, hl]
      rintro rfl
      exact hfile ((h.same _ houtside).trans hl)

theorem closed {reply : Unit} (hlodges : Lodges current Process d₁ ⟨.closeScratch root, reply⟩ d₂)
    (l : Location) : d₂.lookup l = d₀.lookup l := by
  rw [show d₂ = _ from hlodges, lookup_eraseTree d₁ h.free.ne_nil]
  split
  · next hbelow => exact (h.free l hbelow).symm
  · next hl => exact h.same l hl

end Houses

def holding (d : Disk) (l : Location) (files : List (String × Bytes)) : Disk :=
  files.foldl (fun d file => d.put (l ++ [file.1]) (.file file.2)) d

theorem holding_append (d : Disk) (l : Location) (files more : List (String × Bytes)) :
    d.holding l (files ++ more) = (d.holding l files).holding l more :=
  List.foldl_append

theorem lookup_holding {l : Location} (hl : d.lookup l = some .directory)
    (files : List (String × Bytes)) : (d.holding l files).lookup l = some .directory := by
  induction files generalizing d with
  | nil => exact hl
  | cons file files ih =>
    refine ih ?_
    have hne : l ++ [file.1] ≠ [] := List.append_ne_nil_of_right_ne_nil _ (List.cons_ne_nil _ _)
    rw [lookup_put d hne, if_neg, hl]
    exact fun heq => by simpa using congrArg List.length heq

/-- The files are in the directory, and nothing else is changed. -/
structure Gains (l : Location) (files : List (String × Bytes)) (d d' : Disk) : Prop where
  written : ∀ file ∈ files, d'.lookup (l ++ [file.1]) = some (.file file.2)
  same : ∀ l', (∀ file ∈ files, l' ≠ l ++ [file.1]) → d'.lookup l' = d.lookup l'

theorem gains_holding (l : Location) {files : List (String × Bytes)}
    (hnames : (files.map Prod.fst).Nodup) : Gains l files d (d.holding l files) := by
  induction files generalizing d with
  | nil => exact ⟨fun _ h => absurd h List.not_mem_nil, fun _ _ => rfl⟩
  | cons file files ih =>
    have hne : l ++ [file.1] ≠ [] := List.append_ne_nil_of_right_ne_nil _ (List.cons_ne_nil _ _)
    obtain ⟨hfirst, hrest⟩ := List.nodup_cons.1 hnames
    obtain ⟨hwritten, hsame⟩ := ih (d := d.put (l ++ [file.1]) (.file file.2)) hrest
    refine ⟨fun other hother => ?_, fun l' hl' => ?_⟩
    · rcases List.mem_cons.1 hother with rfl | hother
      · refine (hsame _ fun later hlater heq => hfirst ?_).trans
          (by rw [lookup_put d hne, if_pos rfl])
        have hname : other.1 = later.1 := by simpa using heq
        exact hname ▸ List.mem_map_of_mem hlater
      · exact hwritten other hother
    · refine (hsame l' fun later hlater => hl' later (List.mem_cons_of_mem _ hlater)).trans ?_
      rw [lookup_put d hne, if_neg (hl' file List.mem_cons_self)]

theorem Gains.congr {l : Location} {files : List (String × Bytes)} (h : Gains l files d d₁)
    (hsame : ∀ l', d'.lookup l' = d₁.lookup l') : Gains l files d d' where
  written file hfile := (hsame _).trans (h.written file hfile)
  same l' hl' := (hsame l').trans (h.same l' hl')

end Disk

end Provision.Host
