import Provision.Host.Process

/-!
# The environment of a process

A process finds a variable in the first line that begins with its name and an equals sign. The
lines are in the order of the names, so a variable that is set is found as it was set, whatever
else is. One that is taken out is still found if another name begins with its name and an equals
sign: the lines do not tell where a name ends.
-/

namespace Provision

theorem Text.after?_eq_none {start s : String} :
    after? start s = none ↔ ¬ start.toList <+: s.toList := by
  simp [after?, List.isPrefixOf_iff_prefix]

theorem Text.after?_append (start s : String) : after? start (start ++ s) = some s := by
  have hprefix : start.toList.isPrefixOf (start ++ s).toList = true := by
    rw [List.isPrefixOf_iff_prefix, String.toList_append]
    exact List.prefix_append _ _
  rw [after?, if_pos hprefix, String.toList_append, List.drop_left, String.ofList_toList]

namespace Host.Invocation

def Extends (name key : String) : Prop := (name ++ "=").toList <+: key.toList

instance (name key : String) : Decidable (Extends name key) :=
  inferInstanceAs (Decidable (_ <+: _))

theorem prefix_line {name key value : List Char} (h : '=' ∉ name) :
    name ++ ['='] <+: key ++ '=' :: value ↔ key = name ∨ name ++ ['='] <+: key := by
  induction name generalizing key with
  | nil =>
    cases key with
    | nil => simp
    | cons c cs => simp [List.cons_prefix_cons]
  | cons a as ih =>
    rw [List.mem_cons, not_or] at h
    cases key with
    | nil =>
      have hne : a ≠ '=' := Ne.symm h.1
      simp [List.cons_prefix_cons, hne]
    | cons c cs =>
      simp only [List.cons_append, List.cons_prefix_cons, ih h.2, List.cons.injEq]
      constructor
      · rintro ⟨rfl, rfl | hprefix⟩
        · exact .inl ⟨rfl, rfl⟩
        · exact .inr ⟨rfl, hprefix⟩
      · rintro (⟨rfl, rfl⟩ | ⟨rfl, hprefix⟩)
        · exact ⟨rfl, .inl rfl⟩
        · exact ⟨rfl, .inr hprefix⟩

theorem not_lt_of_prefix {name key : List Char} (h : name <+: key) : ¬ key < name := by
  induction name generalizing key with
  | nil => exact List.not_lt_nil key
  | cons a as ih =>
    cases key with
    | nil => exact absurd (List.prefix_nil.1 h) (List.cons_ne_nil _ _)
    | cons c cs =>
      obtain ⟨rfl, htail⟩ := List.cons_prefix_cons.1 h
      rw [List.cons_lt_cons_iff]
      rintro (hlt | ⟨-, hlt⟩)
      · exact absurd hlt (Char.lt_irrefl _)
      · exact ih htail hlt

variable {name key value : String}

theorem after?_line_eq_none (h : '=' ∉ name.toList) :
    Text.after? (name ++ "=") (key ++ "=" ++ value) = none ↔
      key ≠ name ∧ ¬ Extends name key := by
  have hline : (name ++ "=").toList <+: (key ++ "=" ++ value).toList ↔
      key.toList = name.toList ∨ Extends name key := by
    rw [Extends, String.toList_append, String.toList_append, String.toList_append,
      List.append_assoc]
    exact prefix_line h
  rw [Text.after?_eq_none, hline, not_or, String.toList_inj]

variable {d : Dict (Option String)}

theorem entries_split (h : d.get? name = some (some value)) :
    ∃ before after, d.entries = before ++ (name, some value) :: after ∧
      ∀ e ∈ before, e.1 < name := by
  obtain ⟨before, after, heq⟩ := List.append_of_mem (Dict.get?_eq_some.1 h)
  refine ⟨before, after, heq, fun e he => ?_⟩
  exact (List.pairwise_append.1 (heq ▸ d.ascending)).2.2 e he _ List.mem_cons_self

theorem valueIn_set (h : '=' ∉ name.toList) (hset : d.get? name = some (some value)) :
    valueIn name (d.entries.filterMap environmentLine) = some value := by
  obtain ⟨before, after, heq, hbefore⟩ := entries_split hset
  have hnone : valueIn name (before.filterMap environmentLine) = none := by
    refine List.findSome?_eq_none_iff.2 fun line hline => ?_
    obtain ⟨⟨key, value⟩, he, hvalue⟩ := List.mem_filterMap.1 hline
    obtain ⟨value, rfl, rfl⟩ := Option.map_eq_some_iff.1 hvalue
    have hlt : key < name := hbefore _ he
    refine (after?_line_eq_none h).2 ⟨fun hkey => String.lt_irrefl _ (hkey ▸ hlt), fun hext => ?_⟩
    rw [Extends, String.toList_append] at hext
    exact not_lt_of_prefix ((List.prefix_append _ _).trans hext) (String.lt_iff.1 hlt)
  rw [valueIn] at hnone ⊢
  rw [heq, List.filterMap_append, List.findSome?_append, hnone, Option.none_or]
  simp only [List.filterMap_cons, environmentLine, Option.map_some, List.findSome?_cons,
    Text.after?_append]

/-- A variable that is taken out is not found, unless a name that is set extends its name. -/
theorem valueIn_unset (h : '=' ∉ name.toList) (hunset : d.get? name = some none) :
    valueIn name (d.entries.filterMap environmentLine) = none ↔
      ∀ key value, Extends name key → d.get? key ≠ some (some value) := by
  rw [valueIn, List.findSome?_eq_none_iff]
  constructor
  · intro hnone key value hext hset
    have hline := List.mem_filterMap.2
      ⟨(key, some value), Dict.get?_eq_some.1 hset, (rfl : environmentLine _ = _)⟩
    exact ((after?_line_eq_none h).1 (hnone _ hline)).2 hext
  · intro hnone line hline
    obtain ⟨⟨key, value⟩, he, hvalue⟩ := List.mem_filterMap.1 hline
    obtain ⟨value, rfl, rfl⟩ := Option.map_eq_some_iff.1 hvalue
    have hset := Dict.get?_eq_some.2 he
    refine (after?_line_eq_none h).2 ⟨?_, fun hext => hnone key value hext hset⟩
    rintro rfl
    cases hset.symm.trans hunset

end Host.Invocation

end Provision
