import Provision.Host.Disk
import Provision.Proofs.Host.Path
import Provision.Proofs.Transitions
import Provision.Host.Effects

/-!
# Files in a directory of a disk

What the operations of a disk do on a name joined to a path, the root. All of them first walk
to the root, and where they end up is known from the text of the root alone: `place` is where it
leads once all directories on the way are there. A change that leaves directories where they are
cannot lead a walk elsewhere, so an operation on one name only ever meets what is at that name.
-/

namespace Provision.Host.Disk

open Provision.Host.Path

variable {d d₁ d₂ d' : Disk} {current l l' : Location} {root name path : String}

def start (current : Location) (path : String) : Location :=
  if isAbsolute path then [] else current

def destination : Location → List Segment → Location
  | l, [] => l
  | l, s :: rest =>
    if isIdle s then destination l rest
    else if s = ['.', '.'] then destination l.dropLast rest
    else destination (l ++ [String.ofList s]) rest

def place (current : Location) (path : String) : Location :=
  destination (start current path) (segments path)

theorem walk_append (a b : List Segment) :
    d.walk l (a ++ b) = (d.walk l a).bind fun l => d.walk l b := by
  induction a generalizing l with
  | nil => rfl
  | cons s a ih =>
    simp only [List.cons_append, walk]
    split
    · exact ih
    · split
      · exact ih
      · split
        · rfl
        · split
          · rfl
          · rfl
          · exact ih

theorem walk_idle {s : Segment} (h : isIdle s = true) (rest : List Segment) :
    d.walk l (s :: rest) = d.walk l rest := by
  rw [walk, if_pos h]

theorem walk_steps (segments : List Segment) : d.walk l (steps segments) = d.walk l segments := by
  induction segments generalizing l with
  | nil => rfl
  | cons s rest ih =>
    cases hs : isIdle s with
    | true => rw [steps_cons_idle hs, walk_idle hs, ih]
    | false =>
      have hsteps : steps (s :: rest) = s :: steps rest := by simp [steps, hs]
      simp only [hsteps, walk, hs, ih]

theorem eq_destination_of_walk {segments : List Segment} (h : d.walk l segments = .ok l') :
    l' = destination l segments := by
  induction segments generalizing l with
  | nil => exact (Except.ok.inj h).symm
  | cons s rest ih =>
    simp only [walk] at h
    simp only [destination]
    split at h
    · next hidle => rw [if_pos hidle]; exact ih h
    · next hidle =>
      rw [if_neg hidle]
      split at h
      · next hup => rw [if_pos hup]; exact ih h
      · next hup =>
        rw [if_neg hup]
        split at h
        · cases h
        · split at h
          · cases h
          · cases h
          · exact ih h

def KeepsDirectories (d d' : Disk) : Prop :=
  ∀ l, d.lookup l = some .directory → d'.lookup l = some .directory

theorem KeepsDirectories.walk (h : KeepsDirectories d d') {segments : List Segment}
    (hwalk : d.walk l segments = .ok l') : d'.walk l segments = .ok l' := by
  induction segments generalizing l with
  | nil => exact hwalk
  | cons s rest ih =>
    simp only [Disk.walk] at hwalk ⊢
    split at hwalk
    · next hidle => rw [if_pos hidle]; exact ih hwalk
    · next hidle =>
      rw [if_neg hidle]
      split at hwalk
      · next hup => rw [if_pos hup]; exact ih hwalk
      · next hup =>
        rw [if_neg hup]
        split at hwalk
        · cases hwalk
        · next hlength =>
          rw [if_neg hlength]
          split at hwalk
          · cases hwalk
          · cases hwalk
          · next hdirectory => simp only [h _ hdirectory]; exact ih hwalk

def Reaches (d : Disk) (current : Location) (path : String) : Prop :=
  d.walk (start current path) (segments path) = .ok (place current path)

theorem reaches_of_walk (h : d.walk (start current path) (segments path) = .ok l) :
    d.Reaches current path := by
  rw [Reaches, h, eq_destination_of_walk h]
  rfl

theorem Reaches.mono (h : d.Reaches current path) (hkeeps : KeepsDirectories d d') :
    d'.Reaches current path :=
  hkeeps.walk h

def core (path : String) : List Segment :=
  ((segments path).reverse.dropWhile (·.isEmpty)).reverse

def target (first : Location) (core : List Segment) (slashed : Bool) (inside : Location) :
    Target :=
  match core.getLast? with
  | none => .directory first
  | some last =>
    if isIdle last then .directory inside
    else if last = ['.', '.'] then .directory inside.dropLast
    else .named inside (String.ofList last) slashed

theorem locate_eq (d : Disk) (current : Location) (path : String) :
    d.locate current path =
      if path.toList.contains '\x00' then .error .nulInPath
      else if path.isEmpty then .error .notFound
      else if maxPath < byteSize path then .error .nameTooLong
      else
        (d.walk (start current path) (core path).dropLast).map
          (target (start current path) (core path)
            ((core path).length < (segments path).length)) := by
  have hend (first inside : Location) (segments : List Segment) (slashed : Bool) :
      (match segments.getLast? with
      | none => return .directory first
      | some last =>
        if Path.isIdle last then return .directory inside
        else if last = ['.', '.'] then return .directory inside.dropLast
        else return .named inside (String.ofList last) slashed : Except Fault Target) =
      .ok (target first segments slashed inside) := by
    unfold target
    split
    · rfl
    · split
      · rfl
      · split <;> rfl
  by_cases hnul : path.toList.contains '\x00' = true
  · simp only [locate, hnul, if_true]
    rfl
  · by_cases hempty : path.isEmpty = true
    · simp only [locate, hnul, hempty, if_true]
      rfl
    · by_cases hlong : maxPath < byteSize path
      · simp only [locate, hnul, hempty, hlong, if_true]
        rfl
      · simp only [locate, hnul, hempty, hlong, if_false]
        change (d.walk (start current path) (core path).dropLast).bind _ = _
        cases d.walk (start current path) (core path).dropLast with
        | error fault => rfl
        | ok inside => exact hend _ _ _ _

theorem locate_of_segments {front : List Segment} (hname : IsName name)
    (hsegments : segments path = front ++ [name.toList]) :
    d.locate current path =
      if path.toList.contains '\x00' then .error .nulInPath
      else if maxPath < byteSize path then .error .nameTooLong
      else (d.walk (start current path) front).map (.named · name false) := by
  have hlast : name.toList.isEmpty = false := (Bool.or_eq_false_iff.1 hname.notIdle).1
  have hempty : path.isEmpty = false := by
    rw [Bool.eq_false_iff, Ne, String.isEmpty_iff]
    rintro rfl
    have hmem : name.toList ∈ segments "" := hsegments ▸ List.mem_append_right _ List.mem_cons_self
    rw [List.mem_singleton.1 hmem] at hlast
    cases hlast
  have hcore : core path = front ++ [name.toList] := by simp [core, hsegments, hlast]
  have htarget : target (start current path) (front ++ [name.toList]) false =
      (.named · name false) := by
    funext inside
    simp only [target, List.getLast?_concat, hname.notIdle, hname.notUp, Bool.false_eq_true,
      if_false, String.ofList_toList]
  rw [locate_eq, hempty, hcore, hsegments, List.dropLast_concat]
  simp only [Bool.false_eq_true, if_false, Nat.lt_irrefl, decide_false, htarget]

def seat (d : Disk) (current : Location) (root name : String) : Except Fault Location :=
  if (Path.join root name).toList.contains '\x00' then .error .nulInPath
  else if maxPath < byteSize (Path.join root name) then .error .nameTooLong
  else
    match d.walk (start current root) (segments root) with
    | .error fault => .error fault
    | .ok inside =>
      if maxName < byteSize name then .error .nameTooLong else .ok (inside ++ [name])

theorem seat_of_reaches (h : d.Reaches current root) (h' : d'.Reaches current root)
    (name : String) : d.seat current root name = d'.seat current root name := by
  simp only [seat, h.trans h'.symm]

theorem reaches_of_seat (h : d.seat current root name = .ok l) : d.Reaches current root := by
  unfold seat at h
  split at h
  · cases h
  · split at h
    · cases h
    · split at h
      · cases h
      · next hwalk => exact reaches_of_walk hwalk

theorem eq_of_seat (h : d.seat current root name = .ok l) :
    l = place current root ++ [name] := by
  have hreaches : d.walk _ _ = _ := reaches_of_seat h
  simp only [seat, hreaches] at h
  split at h
  · cases h
  · split at h
    · cases h
    · split at h
      · cases h
      · exact (Except.ok.inj h).symm

theorem seat_mono (hkeeps : KeepsDirectories d d') (h : d.seat current root name = .ok l) :
    d'.seat current root name = .ok l := by
  have hreaches := reaches_of_seat h
  rwa [← seat_of_reaches hreaches (hreaches.mono hkeeps)]

section Named

variable (hname : IsName name)

include hname

theorem locate_join :
    d.locate current (Path.join root name) =
      if (Path.join root name).toList.contains '\x00' then .error .nulInPath
      else if maxPath < byteSize (Path.join root name) then .error .nameTooLong
      else (d.walk (start current root) (segments root)).map (.named · name false) := by
  have hstart : start current (Path.join root name) = start current root := by
    rw [start, isAbsolute_join hname, start]
  have hwalk : d.walk (start current root) (stem root) =
      d.walk (start current root) (segments root) := by
    rw [← walk_steps, steps_stem, walk_steps]
  rw [locate_of_segments hname (segments_join hname root), hstart, hwalk]

theorem locate_bind {α : Type} {f : Target → Except Fault α}
    {k : Location → Option Entry → Except Fault α}
    (hf : ∀ inside, f (.named inside name false) =
      (d.child inside name).bind (k (inside ++ [name]))) :
    (d.locate current (Path.join root name)).bind f =
      (d.seat current root name).bind fun l => k l (d.lookup l) := by
  rw [locate_join hname, seat]
  split
  · rfl
  · split
    · rfl
    · cases d.walk (start current root) (segments root) with
      | error fault => rfl
      | ok inside =>
        by_cases hlong : maxName < byteSize name
        · simp only [Except.map, Except.bind, hf, child, hlong, if_true]
        · simp only [Except.map, Except.bind, hf, child, hlong, if_false]

theorem stat_join :
    d.stat current (Path.join root name) =
      (d.seat current root name).bind fun l =>
        match d.lookup l with
        | none => .error .notFound
        | some e => .ok e := by
  refine locate_bind hname (k := fun _ e =>
    match e with
    | none => .error .notFound
    | some e => .ok e) fun inside => ?_
  simp only [Bool.false_eq_true, if_false]
  cases d.child inside name with
  | error fault => rfl
  | ok e =>
    cases e with
    | none => rfl
    | some e => cases e <;> rfl

theorem read_join :
    d.read current (Path.join root name) =
      (d.seat current root name).bind fun l =>
        match d.lookup l with
        | none => .error .notFound
        | some (.file content) => .ok content
        | some .directory => .error .isADirectory := by
  rw [read, stat_join hname]
  cases d.seat current root name with
  | error fault => rfl
  | ok l =>
    simp only [Except.bind]
    cases d.lookup l with
    | none => rfl
    | some e => cases e <;> rfl

theorem write_join (content : Bytes) :
    d.write current (Path.join root name) content =
      (d.seat current root name).bind fun l =>
        match d.lookup l with
        | some .directory => .error .isADirectory
        | _ => .ok (d.put l (.file content)) := by
  refine locate_bind hname (k := fun l e =>
    match e with
    | some .directory => .error .isADirectory
    | _ => .ok (d.put l (.file content))) fun inside => ?_
  simp only [Bool.false_eq_true, if_false]
  cases d.child inside name with
  | error fault => rfl
  | ok e =>
    cases e with
    | none => rfl
    | some e => cases e <;> rfl

theorem remove_join :
    d.remove current (Path.join root name) =
      (d.seat current root name).bind fun l =>
        match d.lookup l with
        | none => .error .notFound
        | some (.file _) => .ok (d.erase l)
        | some .directory => .error .isADirectory := by
  refine locate_bind hname (k := fun l e =>
    match e with
    | none => .error .notFound
    | some (.file _) => .ok (d.erase l)
    | some .directory => .error .isADirectory) fun inside => ?_
  simp only [Bool.false_eq_true, if_false]
  cases d.child inside name with
  | error fault => rfl
  | ok e =>
    cases e with
    | none => rfl
    | some e => cases e <;> rfl

end Named

theorem KeepsDirectories.trans (h : KeepsDirectories d d₁) (h' : KeepsDirectories d₁ d₂) :
    KeepsDirectories d d₂ :=
  fun l hl => h' l (h l hl)

structure ChangesOnly (at_ : Location → Prop) (d d' : Disk) : Prop where
  same : ∀ l, ¬ at_ l → d'.lookup l = d.lookup l
  keeps : KeepsDirectories d d'

def Grows (d d' : Disk) : Prop :=
  ∀ l, d'.lookup l = d.lookup l ∨ d.lookup l = none ∧ d'.lookup l = some .directory

section Changes

variable {at_ : Location → Prop} {content : Bytes}

theorem ChangesOnly.refl (d : Disk) : ChangesOnly at_ d d := ⟨fun _ _ => rfl, fun _ h => h⟩

theorem ChangesOnly.trans (h : ChangesOnly at_ d d₁) (h' : ChangesOnly at_ d₁ d₂) :
    ChangesOnly at_ d d₂ where
  same l hl := (h'.same l hl).trans (h.same l hl)
  keeps := h.keeps.trans h'.keeps

theorem ChangesOnly.mono {more : Location → Prop} (h : ChangesOnly at_ d d')
    (hmore : ∀ l, at_ l → more l) : ChangesOnly more d d' where
  same l hl := h.same l fun hat => hl (hmore l hat)
  keeps := h.keeps

theorem changesOnly_put (hne : l ≠ []) (h : d.lookup l ≠ some .directory) :
    ChangesOnly (· = l) d (d.put l (.file content)) where
  same l' hl' := by rw [lookup_put d hne, if_neg hl']
  keeps l' hl' := by
    have hother : l' ≠ l := by
      rintro rfl
      exact h hl'
    rw [lookup_put d hne, if_neg hother, hl']

theorem changesOnly_erase (hne : l ≠ []) (h : d.lookup l ≠ some .directory) :
    ChangesOnly (· = l) d (d.erase l) where
  same l' hl' := by rw [lookup_erase d hne, if_neg hl']
  keeps l' hl' := by
    have hother : l' ≠ l := by
      rintro rfl
      exact h hl'
    rw [lookup_erase d hne, if_neg hother, hl']

theorem Grows.refl (d : Disk) : Grows d d := fun _ => .inl rfl

theorem Grows.trans (h : Grows d d₁) (h' : Grows d₁ d₂) : Grows d d₂ := by
  intro l
  rcases h l with hsame | ⟨hnone, hdirectory⟩
  · rcases h' l with hsame' | hnew
    · exact .inl (hsame'.trans hsame)
    · exact .inr (hsame ▸ hnew)
  · rcases h' l with hsame' | ⟨hnone', -⟩
    · exact .inr ⟨hnone, hsame'.trans hdirectory⟩
    · rw [hdirectory] at hnone'
      cases hnone'

theorem Grows.keeps (h : Grows d d') : KeepsDirectories d d' := by
  intro l hl
  rcases h l with hsame | ⟨hnone, -⟩
  · rw [hsame, hl]
  · rw [hl] at hnone
    cases hnone

theorem Grows.file_iff (h : Grows d d') :
    d'.lookup l = some (.file content) ↔ d.lookup l = some (.file content) := by
  rcases h l with hsame | ⟨hnone, hdirectory⟩
  · rw [hsame]
  · simp [hnone, hdirectory]

end Changes

section OneName

variable {content other : Bytes} (hname : IsName name)

theorem place_append_ne_nil : place current root ++ [name] ≠ [] :=
  List.append_ne_nil_of_right_ne_nil _ (List.cons_ne_nil _ _)

include hname

theorem read_join_ok :
    d.read current (Path.join root name) = .ok content ↔
      ∃ l, d.seat current root name = .ok l ∧ d.lookup l = some (.file content) := by
  rw [read_join hname]
  cases d.seat current root name with
  | error fault => simp [Except.bind]
  | ok l =>
    simp only [Except.bind, Except.ok.injEq, exists_eq_left']
    split <;> simp_all

theorem read_mono (hkeeps : KeepsDirectories d d')
    (hsame : d'.lookup (place current root ++ [name]) = d.lookup (place current root ++ [name]))
    (h : d.read current (Path.join root name) = .ok content) :
    d'.read current (Path.join root name) = .ok content := by
  obtain ⟨l, hseat, hfile⟩ := (read_join_ok hname).1 h
  obtain rfl := eq_of_seat hseat
  exact (read_join_ok hname).2 ⟨_, seat_mono hkeeps hseat, hsame.trans hfile⟩

theorem write_join_ok (h : d.write current (Path.join root name) content = .ok d') :
    d.seat current root name = .ok (place current root ++ [name]) ∧
      d.lookup (place current root ++ [name]) ≠ some .directory ∧
      d' = d.put (place current root ++ [name]) (.file content) := by
  rw [write_join hname] at h
  cases hseat : d.seat current root name with
  | error fault =>
    rw [hseat] at h
    cases h
  | ok l =>
    obtain rfl := eq_of_seat hseat
    rw [hseat] at h
    simp only [Except.bind] at h
    split at h
    · cases h
    · next hlookup =>
      cases h
      exact ⟨rfl, hlookup, rfl⟩

theorem changesOnly_write (h : d.write current (Path.join root name) content = .ok d') :
    ChangesOnly (· = place current root ++ [name]) d d' := by
  obtain ⟨-, hlookup, rfl⟩ := write_join_ok hname h
  exact changesOnly_put place_append_ne_nil hlookup

theorem read_write (h : d.write current (Path.join root name) content = .ok d') :
    d'.read current (Path.join root name) = .ok content := by
  obtain ⟨hseat, -, rfl⟩ := write_join_ok hname h
  refine (read_join_ok hname).2 ⟨_, seat_mono (changesOnly_write hname h).keeps hseat, ?_⟩
  rw [lookup_put d place_append_ne_nil, if_pos rfl]

theorem write_of_read (h : d.read current (Path.join root name) = .ok other) (content : Bytes) :
    ∃ d', d.write current (Path.join root name) content = .ok d' := by
  obtain ⟨l, hseat, hfile⟩ := (read_join_ok hname).1 h
  refine ⟨d.put l (.file content), ?_⟩
  rw [write_join hname, hseat]
  simp only [Except.bind, hfile]

theorem remove_join_ok (h : d.remove current (Path.join root name) = .ok d') :
    d.lookup (place current root ++ [name]) ≠ some .directory ∧
      d' = d.erase (place current root ++ [name]) := by
  rw [remove_join hname] at h
  cases hseat : d.seat current root name with
  | error fault =>
    rw [hseat] at h
    cases h
  | ok l =>
    obtain rfl := eq_of_seat hseat
    rw [hseat] at h
    simp only [Except.bind] at h
    split at h
    · cases h
    · next hlookup =>
      cases h
      exact ⟨by simp [hlookup], rfl⟩
    · cases h

theorem changesOnly_remove (h : d.remove current (Path.join root name) = .ok d') :
    ChangesOnly (· = place current root ++ [name]) d d' := by
  obtain ⟨hlookup, rfl⟩ := remove_join_ok hname h
  exact changesOnly_erase place_append_ne_nil hlookup

theorem lookup_remove (h : d.remove current (Path.join root name) = .ok d') :
    d'.lookup (place current root ++ [name]) = none := by
  obtain ⟨-, rfl⟩ := remove_join_ok hname h
  rw [lookup_erase d place_append_ne_nil, if_pos rfl]

theorem remove_of_read (h : d.read current (Path.join root name) = .ok other) :
    ∃ d', d.remove current (Path.join root name) = .ok d' := by
  obtain ⟨l, hseat, hfile⟩ := (read_join_ok hname).1 h
  refine ⟨d.erase l, ?_⟩
  rw [remove_join hname, hseat]
  simp only [Except.bind, hfile]

end OneName

theorem exists?_of_read (h : d.read current path = .ok content) :
    d.exists? current path = true := by
  unfold read at h
  unfold exists?
  cases hstat : d.stat current path with
  | error fault =>
    rw [hstat] at h
    cases h
  | ok entry => rfl

theorem locate_mono (hkeeps : KeepsDirectories d d') {t : Target}
    (h : d.locate current path = .ok t) : d'.locate current path = .ok t := by
  rw [locate_eq] at h ⊢
  split at h
  · cases h
  · next hnul =>
    rw [if_neg hnul]
    split at h
    · cases h
    · next hempty =>
      rw [if_neg hempty]
      split at h
      · cases h
      · next hlong =>
        rw [if_neg hlong]
        cases hwalk : d.walk (start current path) (core path).dropLast with
        | error fault =>
          rw [hwalk] at h
          cases h
        | ok inside =>
          rw [hwalk] at h
          rw [hkeeps.walk hwalk]
          exact h

theorem exists?_of_locate {inside : Location} {name : String} {slashed : Bool}
    (h : d.locate current path = .ok (.named inside name slashed))
    (hnone : d.lookup (inside ++ [name]) = none) : d.exists? current path = false := by
  have hstat : d.stat current path = (d.child inside name).bind fun e =>
      match e with
      | none => .error .notFound
      | some (.file content) => if slashed then .error .notADirectory else .ok (.file content)
      | some .directory => .ok .directory := by
    rw [stat, h]
    rfl
  rw [exists?, hstat, child]
  split
  · rfl
  · rw [hnone]
    rfl

theorem exists?_of_remove (h : d.remove current path = .ok d') :
    d'.exists? current path = false := by
  unfold remove at h
  cases hlocate : d.locate current path with
  | error fault =>
    rw [hlocate] at h
    cases h
  | ok target =>
    rw [hlocate] at h
    cases target with
    | directory l => cases h
    | named inside name slashed =>
      simp only [child, bind, Except.bind] at h
      split at h
      · cases h
      · next hchild =>
        split at hchild
        · cases hchild
        · cases hchild
          split at h
          · cases h
          · cases h
          · next content hlookup =>
            split at h
            · cases h
            · cases h
              have hne : inside ++ [name] ≠ [] :=
                List.append_ne_nil_of_right_ne_nil _ (List.cons_ne_nil _ _)
              have hkeeps : KeepsDirectories d (d.erase (inside ++ [name])) :=
                (changesOnly_erase hne (hlookup ▸ nofun)).keeps
              refine exists?_of_locate (locate_mono hkeeps hlocate) ?_
              rw [lookup_erase d hne, if_pos rfl]

theorem exists?_of_remove_notFound (h : d.remove current path = .error .notFound) :
    d.exists? current path = false := by
  unfold remove at h
  cases hlocate : d.locate current path with
  | error fault =>
    rw [exists?, stat, hlocate]
    rfl
  | ok target =>
    rw [hlocate] at h
    cases target with
    | directory l => cases h
    | named inside name slashed =>
      simp only [child, bind, Except.bind] at h
      split at h
      · next hchild =>
        split at hchild
        · cases hchild
          cases h
        · cases hchild
      · next hchild =>
        split at hchild
        · cases hchild
        · cases hchild
          split at h
          · next hlookup => exact exists?_of_locate hlocate hlookup
          · cases h
          · split at h <;> cases h

theorem grows_makeDirectory (h : d.makeDirectory current path = .ok d') : Grows d d' := by
  unfold makeDirectory at h
  cases hlocate : d.locate current path with
  | error fault =>
    rw [hlocate] at h
    cases h
  | ok t =>
    rw [hlocate] at h
    cases t with
    | directory l => cases h
    | named inside name slashed =>
      change (d.child inside name).bind _ = _ at h
      unfold child at h
      split at h
      · cases h
      · cases hlookup : d.lookup (inside ++ [name]) with
        | some e =>
          rw [hlookup] at h
          cases h
        | none =>
          rw [hlookup] at h
          cases h
          intro l
          rw [lookup_put d (List.append_ne_nil_of_right_ne_nil _ (List.cons_ne_nil _ _))]
          by_cases hl : l = inside ++ [name]
          · rw [if_pos hl, hl]
            exact .inr ⟨hlookup, rfl⟩
          · rw [if_neg hl]
            exact .inl rfl

theorem grows_makeChain (paths : List String) : Grows d (d.makeChain current paths).2 := by
  induction paths generalizing d with
  | nil => exact .refl d
  | cons path above ih =>
    have hretry (d₁ : Disk) (fault : Fault) : Grows d₁
        (if isDirectory d₁ current path then (none, d₁) else (some fault, d₁)).2 := by
      split <;> exact .refl d₁
    unfold makeChain
    split
    · next hmade => exact grows_makeDirectory hmade
    · have habove := ih (d := d)
      split
      · next hchain => rwa [hchain] at habove
      · next hchain =>
        rw [hchain] at habove
        split
        · next hmade => exact habove.trans (grows_makeDirectory hmade)
        · exact habove.trans (hretry _ _)
    · exact hretry _ _

theorem grows_makeDirectories (d : Disk) (current : Location) (path : String) :
    Grows d (d.makeDirectories current path).2 :=
  grows_makeChain _

theorem locate_of_reaches (h : d.Reaches current path)
    (hnul : ¬ path.toList.contains '\x00' = true) (hempty : ¬ path.isEmpty = true)
    (hlong : ¬ maxPath < byteSize path) :
    (∃ l, d.locate current path = .ok (.directory l)) ∨
      ∃ inside name slashed, d.locate current path = .ok (.named inside name slashed) ∧
        d.child inside name = .ok (some .directory) := by
  have hcore : ∃ dropped, segments path = core path ++ dropped :=
    ⟨((segments path).reverse.takeWhile (·.isEmpty)).reverse, by
      rw [core, ← List.reverse_append, List.takeWhile_append_dropWhile, List.reverse_reverse]⟩
  obtain ⟨dropped, hdropped⟩ := hcore
  obtain ⟨l, hl⟩ : ∃ l, d.walk (start current path) (core path) = .ok l := by
    rw [Reaches, hdropped, walk_append] at h
    cases hwalk : d.walk (start current path) (core path) with
    | error fault =>
      rw [hwalk] at h
      cases h
    | ok l => exact ⟨l, rfl⟩
  rw [locate_eq, if_neg hnul, if_neg hempty, if_neg hlong]
  rcases List.eq_nil_or_concat (core path) with hnil | ⟨front, last, hconcat⟩
  · left
    simp [hnil, Disk.walk, Except.map, target]
  · rw [hconcat, List.concat_eq_append] at hl ⊢
    rw [walk_append] at hl
    rw [List.dropLast_concat]
    cases hfront : d.walk (start current path) front with
    | error fault =>
      rw [hfront] at hl
      cases hl
    | ok inside =>
      rw [hfront] at hl
      simp only [Except.bind, Disk.walk] at hl
      simp only [Except.map, target, List.getLast?_concat]
      split at hl
      · next hidle => exact .inl ⟨inside, by rw [if_pos hidle]⟩
      · next hidle =>
        split at hl
        · next hup => exact .inl ⟨inside.dropLast, by rw [if_neg hidle, if_pos hup]⟩
        · next hup =>
          right
          refine ⟨inside, String.ofList last, _, by rw [if_neg hidle, if_neg hup], ?_⟩
          split at hl
          · cases hl
          · next hname =>
            rw [child, if_neg hname]
            split at hl
            · cases hl
            · cases hl
            · next hdirectory => rw [hdirectory]

theorem ancestors_head {fuel : Nat} {p : String} {above : List String}
    (h : ancestors fuel path = p :: above) : p = path ∧ path ≠ "" := by
  cases fuel with
  | zero => cases h
  | succ fuel =>
    unfold ancestors at h
    split at h
    · cases h
    · next hparent =>
      refine ⟨(List.cons.inj h).1.symm, ?_⟩
      rintro rfl
      have hnone : parent? "" = none := by decide
      rw [hnone] at hparent
      cases hparent

theorem makeDirectories_of_reaches (h : d.Reaches current path) :
    d.makeDirectories current path =
      (if lineage path = [] then none
      else if path.toList.contains '\x00' then some .nulInPath
      else if maxPath < byteSize path then some .nameTooLong
      else none, d) := by
  unfold makeDirectories
  cases hlineage : lineage path with
  | nil => rfl
  | cons p above =>
    obtain ⟨rfl, hne⟩ := ancestors_head hlineage
    have hempty : ¬ p.isEmpty = true := fun hempty => hne (String.isEmpty_iff.1 hempty)
    rw [if_neg (List.cons_ne_nil _ _), makeChain]
    by_cases hnul : p.toList.contains '\x00' = true
    · have hlocate : d.locate current p = .error .nulInPath := by rw [locate_eq, if_pos hnul]
      simp only [makeDirectory, isDirectory, stat, hlocate, hnul, if_true]
      rfl
    · by_cases hlong : maxPath < byteSize p
      · have hlocate : d.locate current p = .error .nameTooLong := by
          rw [locate_eq, if_neg hnul, if_neg hempty, if_pos hlong]
        simp only [makeDirectory, isDirectory, stat, hlocate, hnul, hlong, if_true]
        rfl
      · rw [if_neg hnul, if_neg hlong]
        rcases locate_of_reaches h hnul hempty hlong with
          ⟨l, hlocate⟩ | ⟨inside, name, slashed, hlocate, hchild⟩
        · have hmake : d.makeDirectory current p = .error .alreadyExists := by
            simp only [makeDirectory, hlocate]
            rfl
          have hthere : d.isDirectory current p = true := by
            simp only [isDirectory, stat, hlocate]
            rfl
          simp only [hmake, hthere, if_true]
        · have hmake : d.makeDirectory current p = .error .alreadyExists := by
            simp only [makeDirectory, hlocate]
            change (d.child inside name).bind _ = _
            rw [hchild]
            rfl
          have hstat : d.stat current p = .ok .directory := by
            simp only [stat, hlocate]
            change (d.child inside name).bind _ = _
            rw [hchild]
            rfl
          have hthere : d.isDirectory current p = true := by simp only [isDirectory, hstat]
          simp only [hmake, hthere, if_true]

theorem Reaches.folder (h : d.Reaches current root) : d.Reaches current (folder root) := by
  refine reaches_of_walk (l := place current root) ?_
  rw [start, isAbsolute_folder, ← walk_steps, steps_folder, walk_steps]
  exact h

end Provision.Host.Disk
