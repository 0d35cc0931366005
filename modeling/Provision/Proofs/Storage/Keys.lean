import Provision.Proofs.Host.Resolving
import Provision.Proofs.Storage.Bindings

/-!
# Keys and the paths that they stand for

Keys are checked by their components, which leave out doubled slashes and single dots, while the
paths of an object and of its version file are the key as it was written, joined to the root.
The two views agree: a valid key begins with a name and never goes up, so its path leads from the
root down through its names, and the suffix of the version file only makes the last of them
another name.
-/

namespace Provision.Storage.LocalDirectory

open Provision.Host Provision.Host.Disk

variable {root key path : String} {current : Location}

theorem objectPath_eq_ok :
    objectPath root key = .ok path ↔ isValidKey key = true ∧ path = Path.join root key := by
  unfold objectPath
  split
  · next h => simp [h, eq_comm]
  · next h => simp [h]

theorem isValidKey_iff_components :
    isValidKey key = true ↔
      key ≠ "" ∧ ∀ c ∈ Path.components key, ∃ s, c = .name s := by
  simp only [isValidKey, Bool.and_eq_true, Bool.not_eq_true', ← Bool.not_eq_true,
    String.isEmpty_iff, List.all_eq_true]
  refine and_congr_right fun _ => forall₂_congr fun c _ => ?_
  cases c <;> simp

theorem ofSegment_names {segments : List Path.Segment} :
    (∀ c ∈ segments.filterMap Path.Component.ofSegment, ∃ s, c = .name s) ↔
      ∀ s ∈ segments, s ≠ ['.', '.'] := by
  simp only [List.mem_filterMap]
  constructor
  · rintro h s hs rfl
    obtain ⟨_, heq⟩ := h .up ⟨_, hs, rfl⟩
    cases heq
  · rintro h c ⟨s, hs, heq⟩
    unfold Path.Component.ofSegment at heq
    split at heq
    · cases heq
    · rw [if_neg (h s hs)] at heq
      exact ⟨s, (Option.some.inj heq).symm⟩

theorem first_ne_nil {first : Path.Segment} {rest : List Path.Segment} (hne : key ≠ "")
    (hrelative : Path.isAbsolute key = false) (hsegments : Path.segments key = first :: rest) :
    first ≠ [] := by
  cases hlist : key.toList with
  | nil => exact absurd (String.toList_injective hlist) hne
  | cons c cs =>
    have hc : c ≠ '/' := by
      rintro rfl
      simp [Path.isAbsolute, hlist] at hrelative
    obtain ⟨l, ls, -, heq⟩ := Text.splitAt_cons_ne hc cs
    rw [Path.segments, hlist, heq] at hsegments
    cases hsegments
    exact List.cons_ne_nil _ _

theorem components_cases {first : Path.Segment} {rest : List Path.Segment}
    (hsegments : Path.segments key = first :: rest) :
    Path.components key =
      if Path.isAbsolute key then .root :: rest.filterMap Path.Component.ofSegment
      else if first = ['.'] then .here :: rest.filterMap Path.Component.ofSegment
      else (first :: rest).filterMap Path.Component.ofSegment := by
  unfold Path.components
  rw [hsegments]
  dsimp only
  split
  · rfl
  · split
    · rfl
    · rw [List.filterMap_cons]
      cases Path.Component.ofSegment first <;> rfl

/-- A key is valid if its text begins with a name and nowhere goes up. -/
theorem isValidKey_iff :
    isValidKey key = true ↔ ∃ first rest, Path.segments key = first :: rest ∧
      Path.isIdle first = false ∧ ∀ s ∈ first :: rest, s ≠ ['.', '.'] := by
  obtain ⟨first, rest, hsegments⟩ : ∃ first rest, Path.segments key = first :: rest :=
    List.exists_cons_of_ne_nil (Text.splitAt_ne_nil key.toList)
  rw [isValidKey_iff_components, components_cases hsegments, hsegments]
  constructor
  · rintro ⟨hne, hnames⟩
    split at hnames
    · obtain ⟨_, heq⟩ := hnames _ List.mem_cons_self
      cases heq
    · next habsolute =>
      split at hnames
      · obtain ⟨_, heq⟩ := hnames _ List.mem_cons_self
        cases heq
      · next hdot =>
        have hfirst := first_ne_nil hne (Bool.eq_false_iff.2 habsolute) hsegments
        exact ⟨first, rest, rfl, by simp [Path.isIdle, hfirst, hdot], ofSegment_names.1 hnames⟩
  · rintro ⟨_, _, heq, hidle, hup⟩
    cases heq
    have hdot : first ≠ ['.'] := of_decide_eq_false (Bool.or_eq_false_iff.1 hidle).2
    have hempty : first ≠ [] := by
      rintro rfl
      cases hidle
    have hrelative : ¬ Path.isAbsolute key = true := by
      intro habsolute
      obtain ⟨cs, -, heq⟩ := Path.segments_of_isAbsolute habsolute
      rw [hsegments] at heq
      exact hempty (List.cons.inj heq).1
    refine ⟨?_, ?_⟩
    · rintro rfl
      exact hempty (List.cons.inj hsegments).1.symm
    · rw [if_neg hrelative, if_neg hdot]
      exact ofSegment_names.2 hup

theorem isAbsolute_of_isValidKey (h : isValidKey key = true) : Path.isAbsolute key = false := by
  obtain ⟨first, rest, hsegments, hidle, -⟩ := isValidKey_iff.1 h
  rw [Bool.eq_false_iff]
  intro habsolute
  obtain ⟨cs, -, heq⟩ := Path.segments_of_isAbsolute habsolute
  rw [hsegments] at heq
  obtain rfl := (List.cons.inj heq).1
  cases hidle

theorem isValidKey_version (h : isValidKey key = true) : isValidKey (key ++ ".version") = true := by
  obtain ⟨first, rest, hsegments, hidle, hup⟩ := isValidKey_iff.1 h
  obtain ⟨front, last, hkey, hversion⟩ : ∃ front last, Path.segments key = front ++ [last] ∧
      Path.segments (key ++ ".version") = front ++ [last ++ ".version".toList] := by
    simp only [Path.segments, String.toList_append]
    exact Text.splitAt_append key.toList (by decide)
  have hplain : '/' ∉ (String.ofList last).toList := by
    rw [String.toList_ofList]
    exact Text.not_mem_of_mem_splitAt (hkey ▸ List.mem_append_right _ List.mem_cons_self)
  have hlast : Path.IsName (String.ofList last ++ ".version") :=
    isName_append hplain (by decide) (by decide)
  have hlastIdle := hlast.notIdle
  have hlastUp := hlast.notUp
  rw [String.toList_append, String.toList_ofList] at hlastIdle hlastUp
  rw [hkey] at hsegments
  rw [isValidKey_iff, hversion]
  cases front with
  | nil =>
    exact ⟨_, [], rfl, hlastIdle, fun s hs => List.mem_singleton.1 hs ▸ hlastUp⟩
  | cons first' front =>
    obtain ⟨rfl, rfl⟩ := List.cons.inj hsegments
    refine ⟨first', front ++ [last ++ ".version".toList], rfl, hidle, fun s hs => ?_⟩
    rw [List.mem_cons, List.mem_append, List.mem_singleton] at hs
    rcases hs with rfl | hs | rfl
    · exact hup s List.mem_cons_self
    · exact hup s (List.mem_cons_of_mem _ (List.mem_append_left _ hs))
    · exact hlastUp

theorem versionPath_join (h : isValidKey key = true) (root : String) :
    versionPath (Path.join root key) = Path.join root (key ++ ".version") :=
  Path.join_append_relative (isAbsolute_of_isValidKey h) root ".version"
    (isAbsolute_of_isValidKey (isValidKey_version h))

def names (key : String) : Location := (Path.steps (Path.segments key)).map String.ofList

theorem place_join (h : isValidKey key = true) (current : Location) (root : String) :
    place current (Path.join root key) = place current root ++ names key := by
  have hrelative := isAbsolute_of_isValidKey h
  obtain ⟨first, rest, hsegments, -, hup⟩ := isValidKey_iff.1 h
  have hstart : Disk.start current (Path.join root key) = Disk.start current root := by
    rw [Disk.start, Path.isAbsolute_join_relative hrelative, Disk.start]
  have hstem (l : Location) : destination l (Path.stem root) =
      destination l (Path.segments root) := by
    rw [← destination_steps, Path.steps_stem, destination_steps]
  rw [place, hstart, Path.segments_join_relative hrelative, destination_append, hstem,
    destination_down (hsegments ▸ hup)]
  rfl

theorem names_ne_nil (h : isValidKey key = true) : names key ≠ [] := by
  obtain ⟨first, rest, hsegments, hidle, -⟩ := isValidKey_iff.1 h
  simp [names, hsegments, Path.steps, hidle]

/-- Wherever a disk lets the path lead, it leads strictly below the place of the root. -/
structure IsBelow (current : Location) (root path : String) : Prop where
  below : ∃ names, names ≠ [] ∧ place current path = place current root ++ names
  leads : ∀ d t, Disk.locate d current path = .ok t → t.location = place current path

theorem isBelow_join (h : isValidKey key = true) (current : Location) (root : String) :
    IsBelow current root (Path.join root key) where
  below := ⟨names key, names_ne_nil h, place_join h current root⟩
  leads _ _ := location_of_locate

theorem isBelow_version (h : isValidKey key = true) (current : Location) (root : String) :
    IsBelow current root (versionPath (Path.join root key)) :=
  versionPath_join h root ▸ isBelow_join (isValidKey_version h) current root

theorem core_ne_nil (h : isValidKey key = true) : core key ≠ [] := by
  obtain ⟨first, rest, hsegments, hidle, -⟩ := isValidKey_iff.1 h
  obtain ⟨dropped, hcore, hdropped⟩ := segments_core key
  intro hnil
  rw [hnil, List.nil_append, hsegments] at hcore
  rw [hdropped first (hcore ▸ List.mem_cons_self)] at hidle
  cases hidle

theorem core_join (h : isValidKey key = true) (root : String) :
    core (Path.join root key) = Path.stem root ++ core key := by
  have hne : ((Path.segments key).reverse.dropWhile (·.isEmpty)).isEmpty = false := by
    have hcore := core_ne_nil h
    rw [core] at hcore
    simpa [List.isEmpty_iff] using hcore
  rw [core, Path.segments_join_relative (isAbsolute_of_isValidKey h), List.reverse_append,
    List.dropWhile_append, hne, if_neg Bool.false_ne_true, List.reverse_append,
    List.reverse_reverse, core]

theorem core_down (h : isValidKey key = true) : ∀ s ∈ core key, s ≠ ['.', '.'] := by
  obtain ⟨first, rest, hsegments, -, hup⟩ := isValidKey_iff.1 h
  obtain ⟨dropped, hcore, -⟩ := segments_core key
  intro s hs
  exact hup s (hsegments ▸ hcore ▸ List.mem_append_left _ hs)

section Below

variable {d d' : Disk} (h : isValidKey key = true)

include h

theorem walk_join (d : Disk) (current : Location) (root : String) :
    d.walk (Disk.start current (Path.join root key)) (core (Path.join root key)).dropLast =
      (d.walk (Disk.start current root) (Path.segments root)).bind fun l =>
        d.walk l (core key).dropLast := by
  have hstart : Disk.start current (Path.join root key) = Disk.start current root := by
    rw [Disk.start, Path.isAbsolute_join_relative (isAbsolute_of_isValidKey h), Disk.start]
  have hstem : d.walk (Disk.start current root) (Path.stem root) =
      d.walk (Disk.start current root) (Path.segments root) := by
    rw [← walk_steps, Path.steps_stem, walk_steps]
  rw [core_join h, List.dropLast_append_of_ne_nil (core_ne_nil h), hstart, walk_append, hstem]

theorem reaches_of_seats (hseats : d.Seats current (Path.join root key)) :
    d.Reaches current root := by
  obtain ⟨inside, name, hlocate, -⟩ := hseats
  obtain ⟨l, hwalk, -⟩ := walk_of_locate hlocate
  rw [walk_join h] at hwalk
  cases hroot : d.walk (Disk.start current root) (Path.segments root) with
  | error fault =>
    rw [hroot] at hwalk
    cases hwalk
  | ok l => exact reaches_of_walk hroot

section Alike

variable (hreaches : d.Reaches current root) (hreaches' : d'.Reaches current root)
  (hsame : ∀ l, l <+: place current (Path.join root key) → d'.lookup l = d.lookup l)

include hreaches hreaches' hsame

theorem locate_congr : d'.locate current (Path.join root key) =
    d.locate current (Path.join root key) := by
  have hway : destination (place current root) (core key).dropLast <+:
      place current (Path.join root key) := by
    rw [place_join h, names, steps_core,
      destination_down fun s hs => core_down h s (List.dropLast_subset _ hs)]
    exact (List.prefix_append_right_inj _).2 (((List.dropLast_prefix _).filter _).map _)
  rw [locate_eq, locate_eq, walk_join h, walk_join h, hreaches, hreaches', Except.bind, Except.bind,
    walk_congr (fun s hs => core_down h s (List.dropLast_subset _ hs))
      fun l hl => hsame l (hl.trans hway)]

theorem stat_congr : d'.stat current (Path.join root key) =
    d.stat current (Path.join root key) := by
  rw [Disk.stat, Disk.stat, locate_congr h hreaches hreaches' hsame]
  cases hlocate : d.locate current (Path.join root key) with
  | error fault => rfl
  | ok t =>
    cases t with
    | directory l => rfl
    | named inside name slashed =>
      have hplace := location_of_locate hlocate
      have hlookup := hsame _ (List.prefix_rfl)
      rw [← hplace, Target.location] at hlookup
      simp only [bind, Except.bind, child, hlookup]

theorem read_congr : d'.read current (Path.join root key) =
    d.read current (Path.join root key) := by
  rw [Disk.read, Disk.read, stat_congr h hreaches hreaches' hsame]

end Alike

end Below

end Provision.Storage.LocalDirectory
