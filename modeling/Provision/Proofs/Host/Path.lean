import Provision.Host.Path

/-!
# Paths to names in a directory

Joining a plain name to a path adds one step to the steps of the path, and taking the parent
takes that step away again. Slashes and single dots in between are no steps, so a path and the
parent of what is joined to it may differ in their text.
-/

namespace Provision

namespace Text

variable {sep : Char} {cs : List Char}

theorem splitAt_ne_nil (cs : List Char) : splitAt sep cs ≠ [] := by
  cases cs with
  | nil => simp [splitAt]
  | cons c cs =>
    unfold splitAt
    split
    · exact List.cons_ne_nil _ _
    · split <;> exact List.cons_ne_nil _ _

theorem splitAt_cons_ne {c : Char} (h : c ≠ sep) (cs : List Char) :
    ∃ l ls, splitAt sep cs = l :: ls ∧ splitAt sep (c :: cs) = (c :: l) :: ls := by
  obtain ⟨l, ls, heq⟩ := List.exists_cons_of_ne_nil (splitAt_ne_nil cs)
  exact ⟨l, ls, heq, by simp only [splitAt, h, if_false, heq]⟩

theorem splitAt_of_not_mem (h : sep ∉ cs) : splitAt sep cs = [cs] := by
  induction cs with
  | nil => rfl
  | cons c cs ih =>
    have hc : c ≠ sep := (List.ne_of_not_mem_cons h).symm
    obtain ⟨l, ls, hrest, heq⟩ := splitAt_cons_ne hc cs
    rw [ih (List.not_mem_of_not_mem_cons h)] at hrest
    cases hrest
    exact heq

theorem splitAt_append_sep (ds : List Char) :
    splitAt sep (cs ++ sep :: ds) = splitAt sep cs ++ splitAt sep ds := by
  induction cs with
  | nil => simp [splitAt]
  | cons c cs ih =>
    by_cases hc : c = sep
    · subst hc
      simp only [List.cons_append, splitAt, if_true, ih]
    · obtain ⟨l, ls, hrest, heq⟩ := splitAt_cons_ne hc cs
      rw [heq, List.cons_append, splitAt, if_neg hc, ih, hrest]
      rfl

theorem splitAt_append (cs : List Char) {ds : List Char} (h : sep ∉ ds) :
    ∃ front last, splitAt sep cs = front ++ [last] ∧
      splitAt sep (cs ++ ds) = front ++ [last ++ ds] := by
  induction cs with
  | nil => exact ⟨[], [], rfl, splitAt_of_not_mem h⟩
  | cons c cs ih =>
    obtain ⟨front, last, heq, happend⟩ := ih
    by_cases hc : c = sep
    · subst hc
      exact ⟨[] :: front, last, by rw [splitAt, if_pos rfl, heq]; rfl,
        by rw [List.cons_append, splitAt, if_pos rfl, happend]; rfl⟩
    · rw [List.cons_append, splitAt, if_neg hc, splitAt, if_neg hc, heq, happend]
      cases front with
      | nil => exact ⟨[], c :: last, rfl, rfl⟩
      | cons first front => exact ⟨(c :: first) :: front, last, rfl, rfl⟩

theorem not_mem_of_mem_splitAt {s : List Char} (h : s ∈ splitAt sep cs) : sep ∉ s := by
  induction cs generalizing s with
  | nil =>
    obtain rfl := List.mem_singleton.1 h
    exact List.not_mem_nil
  | cons c cs ih =>
    by_cases hc : c = sep
    · rw [splitAt, if_pos hc] at h
      rcases List.mem_cons.1 h with rfl | h
      · exact List.not_mem_nil
      · exact ih h
    · obtain ⟨l, ls, hrest, heq⟩ := splitAt_cons_ne hc cs
      rw [hrest] at ih
      rw [heq] at h
      rcases List.mem_cons.1 h with rfl | h
      · exact List.not_mem_cons_of_ne_of_not_mem (Ne.symm hc) (ih List.mem_cons_self)
      · exact ih (List.mem_cons_of_mem _ h)

end Text

namespace Host.Path

open Provision.Text

structure IsName (name : String) : Prop where
  plain : '/' ∉ name.toList
  notIdle : isIdle name.toList = false
  notUp : name.toList ≠ ['.', '.']

def steps (segments : List Segment) : List Segment := segments.filter fun s => !isIdle s

theorem steps_append (a b : List Segment) : steps (a ++ b) = steps a ++ steps b :=
  List.filter_append ..

theorem steps_cons_idle {s : Segment} (h : isIdle s = true) (rest : List Segment) :
    steps (s :: rest) = steps rest := by
  simp [steps, h]

theorem steps_of_idle {segments : List Segment} (h : ∀ s ∈ segments, isIdle s = true) :
    steps segments = [] := by
  rw [steps, List.filter_eq_nil_iff]
  intro s hs
  simp [h s hs]

def stem (root : String) : List Segment :=
  if root.toList.isEmpty || root.toList.getLast? = some '/' then (segments root).dropLast
  else segments root

theorem steps_stem (root : String) : steps (stem root) = steps (segments root) := by
  unfold stem
  split
  · next hend =>
    -- The last segment is the empty one after the last slash.
    have hlast : ∃ front, segments root = front ++ [[]] := by
      rcases Bool.or_eq_true_iff.1 hend with hempty | hslash
      · exact ⟨[], by rw [segments, List.isEmpty_iff.1 hempty]; rfl⟩
      · obtain ⟨cs, hcs⟩ := List.getLast?_eq_some_iff.1 (of_decide_eq_true hslash)
        exact ⟨splitAt '/' cs, by rw [segments, hcs]; exact splitAt_append_sep []⟩
    obtain ⟨front, hfront⟩ := hlast
    rw [hfront, List.dropLast_concat, steps_append]
    exact (List.append_nil _).symm
  · rfl

section Relative

variable {rest : String} (h : isAbsolute rest = false)

include h

theorem segments_join_relative (root : String) :
    segments (join root rest) = stem root ++ segments rest := by
  rw [join, if_neg (by simp [h]), stem]
  by_cases hend : (root.toList.isEmpty || root.toList.getLast? = some '/') = true
  · rw [if_pos hend, if_pos hend]
    rcases Bool.or_eq_true_iff.1 hend with hempty | hslash
    · have hroot : root.toList = [] := List.isEmpty_iff.1 hempty
      rw [segments, String.toList_append, hroot, segments, hroot, List.nil_append]
      rfl
    · obtain ⟨cs, hcs⟩ := List.getLast?_eq_some_iff.1 (of_decide_eq_true hslash)
      have hroot : segments root = splitAt '/' cs ++ [[]] := by
        rw [segments, hcs]
        exact splitAt_append_sep []
      rw [hroot, List.dropLast_concat, segments, String.toList_append, hcs, List.append_assoc,
        List.singleton_append, splitAt_append_sep, segments]
  · rw [if_neg hend, if_neg hend, segments, String.toList_append, String.toList_append,
      List.append_assoc]
    exact splitAt_append_sep _

theorem isAbsolute_join_relative (root : String) :
    isAbsolute (join root rest) = isAbsolute root := by
  rw [join, if_neg (by simp [h])]
  cases hroot : root.toList with
  | nil =>
    simp only [isAbsolute, List.isEmpty_nil, Bool.true_or, if_true, String.toList_append, hroot,
      List.nil_append]
    simpa [isAbsolute] using h
  | cons c cs => split <;> simp [isAbsolute, String.toList_append, hroot]

theorem join_append_relative (root suffix : String)
    (hlonger : isAbsolute (rest ++ suffix) = false) :
    join root rest ++ suffix = join root (rest ++ suffix) := by
  simp only [join, h, hlonger, Bool.false_eq_true, if_false]
  split <;> simp only [String.append_assoc]

end Relative

section Name

variable {name : String}

theorem IsName.isAbsolute_eq (h : IsName name) : isAbsolute name = false := by
  have hplain := h.plain
  rw [isAbsolute, decide_eq_false_iff_not]
  cases hcs : name.toList with
  | nil => exact fun hnone => by cases hnone
  | cons c cs =>
    intro hslash
    obtain rfl := Option.some.inj hslash
    exact hplain (hcs ▸ List.mem_cons_self)

theorem segments_join (h : IsName name) (root : String) :
    segments (join root name) = stem root ++ [name.toList] := by
  rw [segments_join_relative h.isAbsolute_eq, segments, splitAt_of_not_mem h.plain]

theorem isAbsolute_join (h : IsName name) (root : String) :
    isAbsolute (join root name) = isAbsolute root :=
  isAbsolute_join_relative h.isAbsolute_eq root

theorem join_append (h : IsName name) (root suffix : String) (hlonger : IsName (name ++ suffix)) :
    join root name ++ suffix = join root (name ++ suffix) :=
  join_append_relative h.isAbsolute_eq root suffix hlonger.isAbsolute_eq

def body (root : String) (segments : List Segment) : List Segment :=
  if isAbsolute root then segments.drop 1 else segments

def folder (root : String) : String :=
  let rest := glue (dropIdleEnd (isAbsolute root) (body root (stem root)))
  String.ofList (if isAbsolute root then '/' :: rest else rest)

theorem dropIdleEnd_append {s : Segment} (hs : isIdle s = false) (absolute : Bool)
    (front : List Segment) : dropIdleEnd absolute (front ++ [s]) = front ++ [s] := by
  have hempty : s.isEmpty = false := (Bool.or_eq_false_iff.1 hs).1
  cases front with
  | nil => simp [dropIdleEnd, hs, hempty]
  | cons first front => simp [dropIdleEnd, hs]

theorem dropIdleEnd_append_idle (absolute : Bool) (segments : List Segment) :
    ∃ dropped, segments = dropIdleEnd absolute segments ++ dropped ∧
      ∀ s ∈ dropped, isIdle s = true := by
  cases segments with
  | nil => exact ⟨[], rfl, fun s hs => absurd hs List.not_mem_nil⟩
  | cons first rest =>
    have hsplit : rest = (rest.reverse.dropWhile isIdle).reverse ++
        (rest.reverse.takeWhile isIdle).reverse := by
      rw [← List.reverse_append, List.takeWhile_append_dropWhile, List.reverse_reverse]
    have hidle : ∀ s ∈ (rest.reverse.takeWhile isIdle).reverse, isIdle s = true :=
      fun s hs => List.all_eq_true.1 List.all_takeWhile s (List.mem_reverse.1 hs)
    revert hsplit hidle
    simp only [dropIdleEnd]
    generalize (rest.reverse.takeWhile isIdle).reverse = dropped
    intro hsplit hidle
    split
    · next hnil =>
      rw [hnil, List.nil_append] at hsplit
      subst hsplit
      split
      · next hfirst =>
        refine ⟨first :: rest, rfl, fun s hs => ?_⟩
        rcases List.mem_cons.1 hs with rfl | hs
        · rcases Bool.or_eq_true_iff.1 hfirst with hempty | hdot
          · exact Bool.or_eq_true_iff.2 (.inl hempty)
          · exact (Bool.and_eq_true_iff.1 hdot).2
        · exact hidle s hs
      · exact ⟨rest, rfl, hidle⟩
    · exact ⟨dropped, by rw [List.cons_append, ← hsplit], hidle⟩

theorem steps_dropIdleEnd (absolute : Bool) (segments : List Segment) :
    steps (dropIdleEnd absolute segments) = steps segments := by
  obtain ⟨dropped, hsplit, hidle⟩ := dropIdleEnd_append_idle absolute segments
  conv => rhs; rw [hsplit, steps_append, steps_of_idle hidle, List.append_nil]

theorem splitAt_glue {segments : List Segment} (hne : segments ≠ [])
    (hplain : ∀ s ∈ segments, '/' ∉ s) : splitAt '/' (glue segments) = segments := by
  induction segments with
  | nil => exact absurd rfl hne
  | cons s rest ih =>
    have hs : splitAt '/' s = [s] := splitAt_of_not_mem (hplain s List.mem_cons_self)
    cases rest with
    | nil => exact hs
    | cons s' rest =>
      rw [glue, splitAt_append_sep, hs,
        ih (List.cons_ne_nil _ _) fun s hs => hplain s (List.mem_cons_of_mem _ hs)]
      · rfl
      · exact List.cons_ne_nil _ _

theorem steps_splitAt_glue {segments : List Segment} (hplain : ∀ s ∈ segments, '/' ∉ s) :
    steps (splitAt '/' (glue segments)) = steps segments := by
  by_cases hne : segments = []
  · subst hne
    rfl
  · rw [splitAt_glue hne hplain]

theorem not_mem_of_mem_stem {root : String} {s : Segment} (h : s ∈ stem root) : '/' ∉ s := by
  unfold stem at h
  split at h
  · exact not_mem_of_mem_splitAt ((List.dropLast_sublist _).subset h)
  · exact not_mem_of_mem_splitAt h

theorem segments_of_isAbsolute {path : String} (h : isAbsolute path = true) :
    ∃ cs, path.toList = '/' :: cs ∧ segments path = [] :: splitAt '/' cs := by
  obtain ⟨cs, hcs⟩ := List.head?_eq_some_iff.1 (of_decide_eq_true h)
  exact ⟨cs, hcs, by rw [segments, hcs, splitAt, if_pos rfl]⟩

theorem stem_of_isAbsolute {root : String} (h : isAbsolute root = true) :
    ∃ rest, stem root = [] :: rest := by
  obtain ⟨cs, -, hsegments⟩ := segments_of_isAbsolute h
  rw [stem, hsegments]
  split
  · exact ⟨(splitAt '/' cs).dropLast, List.dropLast_cons_of_ne_nil (splitAt_ne_nil cs)⟩
  · exact ⟨_, rfl⟩

theorem parent?_join (h : IsName name) (root : String) :
    parent? (join root name) = some (folder root) := by
  have hbody : body root (stem root ++ [name.toList]) = body root (stem root) ++ [name.toList] := by
    unfold body
    split
    · next habsolute =>
      obtain ⟨rest, hrest⟩ := stem_of_isAbsolute habsolute
      rw [hrest]
      rfl
    · rfl
  have hsteps : dropIdleEnd (isAbsolute root) (body root (stem root ++ [name.toList])) =
      body root (stem root) ++ [name.toList] := by
    rw [hbody, dropIdleEnd_append h.notIdle]
  rw [parent?, isAbsolute_join h, segments_join h]
  rw [body] at hsteps
  simp only [hsteps]
  split
  · next hnil => exact absurd (List.append_eq_nil_iff.1 hnil).2 (List.cons_ne_nil _ _)
  · rw [List.dropLast_concat]
    rfl

theorem isAbsolute_folder (root : String) : isAbsolute (folder root) = isAbsolute root := by
  cases habsolute : isAbsolute root with
  | true =>
    rw [folder, habsolute]
    simp [isAbsolute]
  | false =>
    have hrelative : stem root = [] ∨ ∃ c l ls, c ≠ '/' ∧ stem root = (c :: l) :: ls := by
      cases hroot : root.toList with
      | nil =>
        left
        simp [stem, hroot, segments, splitAt]
      | cons c cs =>
        have hc : c ≠ '/' := by
          rintro rfl
          simp [isAbsolute, hroot] at habsolute
        obtain ⟨l, ls, -, heq⟩ := splitAt_cons_ne hc cs
        rw [stem, segments, hroot, heq]
        split
        · cases ls with
          | nil => exact .inl rfl
          | cons l' ls => exact .inr ⟨c, l, _, hc, rfl⟩
        · exact .inr ⟨c, l, ls, hc, rfl⟩
    rw [folder, body, habsolute]
    simp only [Bool.false_eq_true, if_false]
    rcases hrelative with hnil | ⟨c, l, ls, hc, hcons⟩
    · rw [hnil]
      rfl
    · rw [hcons, isAbsolute, String.toList_ofList, dropIdleEnd, decide_eq_false_iff_not]
      split
      · simpa [glue] using hc
      · next rest _ =>
        cases rest with
        | nil => simpa [glue] using hc
        | cons s rest => simpa [glue] using hc

theorem steps_folder (root : String) :
    steps (segments (folder root)) = steps (segments root) := by
  have hplain : ∀ s ∈ dropIdleEnd (isAbsolute root) (body root (stem root)), '/' ∉ s := by
    intro s hs
    obtain ⟨dropped, hsplit, -⟩ :=
      dropIdleEnd_append_idle (isAbsolute root) (body root (stem root))
    have hbody : s ∈ body root (stem root) := hsplit ▸ List.mem_append_left _ hs
    unfold body at hbody
    split at hbody
    · exact not_mem_of_mem_stem (List.mem_of_mem_drop hbody)
    · exact not_mem_of_mem_stem hbody
  have hbody : steps (body root (stem root)) = steps (segments root) := by
    rw [← steps_stem]
    unfold body
    split
    · next habsolute =>
      obtain ⟨rest, hrest⟩ := stem_of_isAbsolute habsolute
      rw [hrest]
      exact (steps_cons_idle rfl rest).symm
    · rfl
  have hglue := steps_splitAt_glue hplain
  rw [steps_dropIdleEnd, hbody] at hglue
  rw [folder, segments, String.toList_ofList]
  split
  · rw [splitAt, if_pos rfl, steps_cons_idle rfl, hglue]
  · exact hglue

end Name

end Host.Path

end Provision
