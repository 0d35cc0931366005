import Provision.Proofs.Host.Disk

/-!
# Paths of any shape

Slashes may be doubled or stand at the end, and dots may stand anywhere: wherever a disk lets a
path lead, it leads to its `place`, which the text of the path alone decides. What is read,
written or removed is the file at this place, and nothing else is touched.
-/

namespace Provision.Host.Disk

open Provision.Host.Path

variable {d d' : Disk} {current l : Location} {path : String} {content : Bytes}

theorem destination_append (l : Location) (a b : List Segment) :
    destination l (a ++ b) = destination (destination l a) b := by
  induction a generalizing l with
  | nil => rfl
  | cons s a ih =>
    simp only [List.cons_append, destination]
    split
    · exact ih l
    · split <;> exact ih _

theorem destination_of_idle {segments : List Segment} (h : ∀ s ∈ segments, isIdle s = true)
    (l : Location) : destination l segments = l := by
  induction segments with
  | nil => rfl
  | cons s rest ih =>
    rw [destination, if_pos (h s List.mem_cons_self)]
    exact ih fun s hs => h s (List.mem_cons_of_mem _ hs)

theorem destination_steps (l : Location) (segments : List Segment) :
    destination l (steps segments) = destination l segments := by
  induction segments generalizing l with
  | nil => rfl
  | cons s rest ih =>
    cases hs : isIdle s with
    | true => rw [steps_cons_idle hs, destination, if_pos hs, ih]
    | false =>
      have hsteps : steps (s :: rest) = s :: steps rest := by simp [steps, hs]
      simp only [hsteps, destination, hs, ih]

theorem destination_down {segments : List Segment} (h : ∀ s ∈ segments, s ≠ ['.', '.'])
    (l : Location) : destination l segments = l ++ (steps segments).map String.ofList := by
  induction segments generalizing l with
  | nil => simp [steps, destination]
  | cons s rest ih =>
    have hrest := ih fun s hs => h s (List.mem_cons_of_mem _ hs)
    cases hs : isIdle s with
    | true => rw [steps_cons_idle hs, destination, if_pos hs, hrest]
    | false =>
      have hsteps : steps (s :: rest) = s :: steps rest := by simp [steps, hs]
      rw [destination, if_neg (by simp [hs]), if_neg (h s List.mem_cons_self), hrest, hsteps,
        List.map_cons, List.append_assoc, List.singleton_append]

theorem walk_congr {segments : List Segment} (hdown : ∀ s ∈ segments, s ≠ ['.', '.'])
    (hsame : ∀ l', l' <+: destination l segments → d'.lookup l' = d.lookup l') :
    d'.walk l segments = d.walk l segments := by
  induction segments generalizing l with
  | nil => rfl
  | cons s rest ih =>
    have hrest : ∀ s ∈ rest, s ≠ ['.', '.'] := fun s hs => hdown s (List.mem_cons_of_mem _ hs)
    simp only [walk]
    simp only [destination] at hsame
    split
    · next hidle =>
      rw [if_pos hidle] at hsame
      exact ih hrest hsame
    · next hidle =>
      rw [if_neg hidle] at hsame
      rw [if_neg (hdown s List.mem_cons_self)] at hsame ⊢
      rw [if_neg (hdown s List.mem_cons_self)]
      have hfirst : l ++ [String.ofList s] <+: destination (l ++ [String.ofList s]) rest := by
        rw [destination_down hrest]
        exact List.prefix_append _ _
      rw [hsame _ hfirst, ih hrest hsame]

theorem segments_core (path : String) :
    ∃ dropped, segments path = core path ++ dropped ∧ ∀ s ∈ dropped, isIdle s = true := by
  refine ⟨((segments path).reverse.takeWhile (·.isEmpty)).reverse, ?_, fun s hs => ?_⟩
  · rw [core, ← List.reverse_append, List.takeWhile_append_dropWhile, List.reverse_reverse]
  · have hempty := List.all_eq_true.1 List.all_takeWhile s (List.mem_reverse.1 hs)
    exact Bool.or_eq_true_iff.2 (.inl hempty)

theorem steps_core (path : String) : steps (segments path) = steps (core path) := by
  obtain ⟨dropped, hsegments, hidle⟩ := segments_core path
  rw [hsegments, steps_append, steps_of_idle hidle, List.append_nil]

theorem place_eq_core (current : Location) (path : String) :
    place current path = destination (start current path) (core path) := by
  obtain ⟨dropped, hsegments, hidle⟩ := segments_core path
  rw [place, hsegments, destination_append, destination_of_idle hidle]

def Target.location : Target → Location
  | .directory l => l
  | .named inside name _ => inside ++ [name]

theorem location_target (first : Location) (core : List Segment) (slashed : Bool) :
    (target first core slashed (destination first core.dropLast)).location =
      destination first core := by
  rcases List.eq_nil_or_concat core with rfl | ⟨front, last, rfl⟩
  · rfl
  · rw [List.concat_eq_append, List.dropLast_concat, target, List.getLast?_concat,
      destination_append]
    dsimp only
    simp only [destination]
    split
    · rfl
    · split <;> rfl

theorem walk_of_locate {t : Target} (h : d.locate current path = .ok t) :
    ∃ inside, d.walk (start current path) (core path).dropLast = .ok inside ∧
      t = target (start current path) (core path)
        ((core path).length < (segments path).length) inside := by
  rw [locate_eq] at h
  split at h
  · cases h
  · split at h
    · cases h
    · split at h
      · cases h
      · cases hwalk : d.walk (start current path) (core path).dropLast with
        | error fault =>
          rw [hwalk] at h
          cases h
        | ok inside =>
          rw [hwalk] at h
          exact ⟨inside, rfl, (Except.ok.inj h).symm⟩

theorem location_of_locate {t : Target} (h : d.locate current path = .ok t) :
    t.location = place current path := by
  obtain ⟨inside, hwalk, rfl⟩ := walk_of_locate h
  rw [eq_destination_of_walk hwalk, location_target, place_eq_core]

def Seats (d : Disk) (current : Location) (path : String) : Prop :=
  ∃ inside name, d.locate current path = .ok (.named inside name false) ∧
    byteSize name ≤ maxName

theorem Seats.place_ne_nil (h : d.Seats current path) : place current path ≠ [] := by
  obtain ⟨inside, name, hlocate, -⟩ := h
  rw [← location_of_locate hlocate]
  exact List.append_ne_nil_of_right_ne_nil _ (List.cons_ne_nil _ _)

theorem Seats.mono (h : d.Seats current path) (hkeeps : KeepsDirectories d d') :
    d'.Seats current path := by
  obtain ⟨inside, name, hlocate, hname⟩ := h
  exact ⟨inside, name, locate_mono hkeeps hlocate, hname⟩

theorem locate_bind_ok {α : Type} {f : Target → Except Fault α} {a : α}
    {k : Location → Option Entry → Except Fault α}
    (hdirectory : ∀ l, f (.directory l) ≠ .ok a)
    (hslashed : ∀ inside name, f (.named inside name true) ≠ .ok a)
    (hnamed : ∀ inside name, f (.named inside name false) =
      (d.child inside name).bind (k (inside ++ [name]))) :
    (d.locate current path).bind f = .ok a ↔
      d.Seats current path ∧ k (place current path) (d.lookup (place current path)) = .ok a := by
  constructor
  · intro h
    cases hlocate : d.locate current path with
    | error fault =>
      rw [hlocate] at h
      cases h
    | ok t =>
      rw [hlocate, Except.bind] at h
      cases t with
      | directory l => exact absurd h (hdirectory l)
      | named inside name slashed =>
        cases slashed with
        | true => exact absurd h (hslashed inside name)
        | false =>
          rw [hnamed, child] at h
          split at h
          · cases h
          · next hname =>
            rw [← location_of_locate hlocate]
            exact ⟨⟨inside, name, hlocate, Nat.not_lt.1 hname⟩, h⟩
  · rintro ⟨⟨inside, name, hlocate, hname⟩, h⟩
    rw [← location_of_locate hlocate] at h
    rw [hlocate, Except.bind, hnamed, child, if_neg (Nat.not_lt.2 hname)]
    exact h

theorem read_eq (d : Disk) (current : Location) (path : String) :
    d.read current path = (d.locate current path).bind fun t =>
      match t with
      | .directory _ => .error .isADirectory
      | .named inside name slashed => (d.child inside name).bind fun e =>
        match e with
        | none => .error .notFound
        | some (.file content) => if slashed then .error .notADirectory else .ok content
        | some .directory => .error .isADirectory := by
  unfold read stat
  cases d.locate current path with
  | error fault => rfl
  | ok t =>
    cases t with
    | directory l => rfl
    | named inside name slashed =>
      simp only [bind, Except.bind]
      cases d.child inside name with
      | error fault => rfl
      | ok e =>
        cases e with
        | none => rfl
        | some e =>
          cases e with
          | directory => rfl
          | file content => cases slashed <;> rfl

theorem read_ok : d.read current path = .ok content ↔
    d.Seats current path ∧ d.lookup (place current path) = some (.file content) := by
  rw [read_eq]
  refine (locate_bind_ok (k := fun _ e =>
    match e with
    | none => .error .notFound
    | some (.file content) => .ok content
    | some .directory => .error .isADirectory) (fun l h => by cases h) (fun inside name h => ?_)
    fun inside name => ?_).trans (and_congr_right fun _ => ?_)
  · dsimp only at h
    cases hchild : d.child inside name with
    | error fault =>
      rw [hchild] at h
      cases h
    | ok e =>
      rw [hchild] at h
      cases e with
      | none => cases h
      | some e => cases e <;> cases h
  · simp only [Bool.false_eq_true, if_false]
  · cases d.lookup (place current path) with
    | none => simp
    | some e => cases e <;> simp

theorem write_ok : d.write current path content = .ok d' ↔
    d.Seats current path ∧ d.lookup (place current path) ≠ some .directory ∧
      d' = d.put (place current path) (.file content) := by
  rw [write]
  refine (locate_bind_ok (k := fun l e =>
    if e = some .directory then .error .isADirectory else .ok (d.put l (.file content)))
    (fun l h => by cases h) (fun _ _ h => by cases h) fun inside name => ?_).trans
      (and_congr_right fun _ => ?_)
  · simp only [Bool.false_eq_true, if_false]
    cases d.child inside name with
    | error fault => rfl
    | ok e =>
      cases e with
      | none => rfl
      | some e => cases e <;> rfl
  · cases d.lookup (place current path) with
    | none => simp [eq_comm]
    | some e => cases e <;> simp [eq_comm]

theorem remove_ok : d.remove current path = .ok d' ↔
    d.Seats current path ∧ (∃ content, d.lookup (place current path) = some (.file content)) ∧
      d' = d.erase (place current path) := by
  rw [remove]
  refine (locate_bind_ok (k := fun l e =>
    match e with
    | some (.file _) => .ok (d.erase l)
    | some .directory => .error .isADirectory
    | none => .error .notFound) (fun l h => by cases h) (fun inside name h => ?_)
    fun inside name => ?_).trans (and_congr_right fun _ => ?_)
  · simp only [bind] at h
    cases hchild : d.child inside name with
    | error fault =>
      rw [hchild] at h
      cases h
    | ok e =>
      rw [hchild] at h
      cases e with
      | none => cases h
      | some e => cases e <;> cases h
  · simp only [Bool.false_eq_true, if_false]
    cases d.child inside name with
    | error fault => rfl
    | ok e =>
      cases e with
      | none => rfl
      | some e => cases e <;> rfl
  · cases d.lookup (place current path) with
    | none => simp
    | some e => cases e <;> simp [eq_comm]

theorem segments_of_locate {inside : Location} {name : String}
    (h : d.locate current path = .ok (.named inside name false)) :
    ∃ front, segments path = front ++ [name.toList] ∧ IsName name := by
  obtain ⟨l, -, htarget⟩ := walk_of_locate h
  unfold target at htarget
  split at htarget
  · cases htarget
  · next last hlast =>
    split at htarget
    · cases htarget
    · next hidle =>
      split at htarget
      · cases htarget
      · next hup =>
        obtain ⟨front, hfront⟩ := List.getLast?_eq_some_iff.1 hlast
        obtain ⟨dropped, hsegments, -⟩ := segments_core path
        simp only [Target.named.injEq] at htarget
        obtain ⟨-, rfl, hslashed⟩ := htarget
        have hlength := of_decide_eq_false hslashed.symm
        have hnil : dropped = [] := by
          rw [hsegments, List.length_append] at hlength
          exact List.length_eq_zero_iff.1 (by omega)
        rw [hnil, List.append_nil, hfront] at hsegments
        refine ⟨front, by rw [hsegments, String.toList_ofList], ?_, ?_, ?_⟩
        · rw [String.toList_ofList]
          exact Text.not_mem_of_mem_splitAt
            (hsegments ▸ List.mem_append_right _ List.mem_cons_self)
        · rwa [String.toList_ofList, ← Bool.not_eq_true]
        · rwa [String.toList_ofList]

theorem locate_append {inside : Location} {name suffix : String} (hlonger : IsName (name ++ suffix))
    (hsuffix : '\x00' ∉ suffix.toList)
    (h : d.locate current path = .ok (.named inside name false)) :
    d.locate current (path ++ suffix) =
      if maxPath < byteSize (path ++ suffix) then .error .nameTooLong
      else .ok (.named inside (name ++ suffix) false) := by
  obtain ⟨front, hsegments, hname⟩ := segments_of_locate h
  have hplain : '/' ∉ suffix.toList := fun hmem => hlonger.plain (by
    rw [String.toList_append]
    exact List.mem_append_right _ hmem)
  have hlast : segments (path ++ suffix) = front ++ [(name ++ suffix).toList] := by
    obtain ⟨front', last, hpath, happend⟩ : ∃ front' last, segments path = front' ++ [last] ∧
        segments (path ++ suffix) = front' ++ [last ++ suffix.toList] := by
      simp only [segments, String.toList_append]
      exact Text.splitAt_append path.toList hplain
    obtain ⟨rfl, hlast⟩ := List.append_inj' (hsegments.symm.trans hpath) rfl
    obtain rfl := (List.cons.inj hlast).1
    rw [happend, String.toList_append]
  have hstart : start current (path ++ suffix) = start current path := by
    have hne : path.toList ≠ [] := by
      intro hnil
      have hmem : name.toList ∈ segments path :=
        hsegments ▸ List.mem_append_right _ List.mem_cons_self
      rw [segments, hnil] at hmem
      have hidle := hname.notIdle
      rw [List.mem_singleton.1 hmem] at hidle
      cases hidle
    obtain ⟨c, cs, hcs⟩ := List.exists_cons_of_ne_nil hne
    rw [start, start, isAbsolute, isAbsolute, String.toList_append, hcs]
    rfl
  rw [locate_of_segments hname hsegments] at h
  split at h
  · cases h
  · next hnul =>
    split at h
    · cases h
    · cases hwalk : d.walk (start current path) front with
      | error fault =>
        rw [hwalk] at h
        cases h
      | ok l =>
        rw [hwalk] at h
        cases h
        have hnul' : ¬ (path ++ suffix).toList.contains '\x00' = true := by
          simp only [String.toList_append, List.contains_eq_mem, List.mem_append,
            decide_eq_true_eq] at hnul ⊢
          exact fun hmem => hmem.elim hnul hsuffix
        rw [locate_of_segments hlonger hlast, if_neg hnul', hstart, hwalk]
        rfl

theorem changesOnly_write_place (h : d.write current path content = .ok d') :
    ChangesOnly (· = place current path) d d' := by
  obtain ⟨hseats, hlookup, rfl⟩ := write_ok.1 h
  exact changesOnly_put hseats.place_ne_nil hlookup

theorem changesOnly_remove_place (h : d.remove current path = .ok d') :
    ChangesOnly (· = place current path) d d' := by
  obtain ⟨hseats, ⟨content, hlookup⟩, rfl⟩ := remove_ok.1 h
  exact changesOnly_erase hseats.place_ne_nil (hlookup ▸ nofun)

theorem lookup_write (h : d.write current path content = .ok d') :
    d'.lookup (place current path) = some (.file content) := by
  obtain ⟨hseats, -, rfl⟩ := write_ok.1 h
  rw [lookup_put d hseats.place_ne_nil, if_pos rfl]

end Provision.Host.Disk
