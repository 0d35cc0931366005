import Mathlib.Data.List.DropRight
import Provision.Text.Blank

/-!
# Trimmed texts

A text is trimmed if there is something in it and no blank at an end of it. What `trim` leaves of a
text is the one trimmed part that has nothing but blanks around it, if there is any.
-/

namespace Provision.Text

variable {p : Char → Bool} {cs blanks : List Char} {s text : String}

structure IsTrimmed (s : String) : Prop where
  ne_empty : s ≠ ""
  head : ∀ c ∈ s.toList.head?, isBlank c = false
  last : ∀ c ∈ s.toList.getLast?, isBlank c = false

def Surrounds (text s : String) : Prop :=
  ∃ before after : List Char, text.toList = before ++ s.toList ++ after ∧
    (∀ c ∈ before, isBlank c = true) ∧ ∀ c ∈ after, isBlank c = true

theorem dropEndWhile_eq_nil : dropEndWhile p cs = [] ↔ ∀ c ∈ cs, p c = true :=
  List.rdropWhile_eq_nil_iff

theorem dropEndWhile_dropWhile_eq_nil :
    dropEndWhile p (cs.dropWhile p) = [] ↔ ∀ c ∈ cs, p c = true := by
  rw [dropEndWhile_eq_nil, ← List.dropWhile_eq_nil_iff, List.dropWhile_idempotent,
    List.dropWhile_eq_nil_iff]

theorem dropWhile_eq_self (h : ∀ c ∈ cs.head?, p c = false) : cs.dropWhile p = cs := by
  cases cs with
  | nil => rfl
  | cons c cs => exact List.dropWhile_cons_of_neg (by simp [h c rfl])

theorem dropEndWhile_append (hblanks : ∀ c ∈ blanks, p c = true)
    (h : ∀ c ∈ cs.getLast?, p c = false) : dropEndWhile p (cs ++ blanks) = cs := by
  have hreverse : ∀ c ∈ blanks.reverse, p c = true := fun c hc => hblanks c (List.mem_reverse.1 hc)
  rw [dropEndWhile, List.reverse_append, List.dropWhile_append_of_pos hreverse,
    dropWhile_eq_self (by rwa [List.head?_reverse]), List.reverse_reverse]

theorem head?_dropWhile : ∀ c ∈ (cs.dropWhile p).head?, p c = false := by
  intro c hc
  simpa [Option.mem_def.1 hc] using List.head?_dropWhile_not p cs

theorem exists_dropEndWhile (p : Char → Bool) (cs : List Char) :
    ∃ blanks, cs = dropEndWhile p cs ++ blanks ∧ (∀ c ∈ blanks, p c = true) ∧
      ∀ c ∈ (dropEndWhile p cs).getLast?, p c = false := by
  refine ⟨(cs.reverse.takeWhile p).reverse, ?_, fun c hc => ?_, ?_⟩
  · rw [dropEndWhile, ← List.reverse_append, List.takeWhile_append_dropWhile, List.reverse_reverse]
  · exact List.mem_takeWhile_imp (List.mem_reverse.1 hc)
  · rw [dropEndWhile, List.getLast?_reverse]
    exact head?_dropWhile

theorem isAllBlank_iff : isAllBlank text = true ↔ ∀ c ∈ text.toList, isBlank c = true :=
  List.all_eq_true

theorem IsTrimmed.toList_ne_nil (h : IsTrimmed s) : s.toList ≠ [] :=
  mt String.toList_eq_nil_iff.1 h.ne_empty

theorem IsTrimmed.isAllBlank_eq (h : IsTrimmed s) : isAllBlank s = false := by
  cases hs : s.toList with
  | nil => exact absurd hs h.toList_ne_nil
  | cons c cs =>
    have hc : isBlank c = false := h.head c (by rw [hs]; rfl)
    simp [isAllBlank, hs, hc]

theorem trim_eq (h : IsTrimmed s) (htext : Surrounds text s) : trim text = s := by
  obtain ⟨before, after, heq, hbefore, hafter⟩ := htext
  have hstop : (s.toList ++ after).dropWhile isBlank = s.toList ++ after := by
    refine dropWhile_eq_self fun c hc => ?_
    rw [List.head?_append_of_ne_nil _ h.toList_ne_nil] at hc
    exact h.head c hc
  rw [trim, heq, List.append_assoc, List.dropWhile_append_of_pos hbefore, hstop,
    dropEndWhile_append hafter h.last, String.ofList_toList]

theorem trim_eq_empty : trim text = "" ↔ isAllBlank text = true := by
  rw [trim, String.ofList_eq_empty_iff, dropEndWhile_dropWhile_eq_nil, isAllBlank_iff]

theorem surrounds_trim (text : String) : Surrounds text (trim text) := by
  obtain ⟨after, heq, hafter, -⟩ := exists_dropEndWhile isBlank (text.toList.dropWhile isBlank)
  refine ⟨text.toList.takeWhile isBlank, after, ?_, fun c => List.mem_takeWhile_imp, hafter⟩
  rw [trim, String.toList_ofList, List.append_assoc, ← heq, List.takeWhile_append_dropWhile]

theorem isTrimmed_trim (h : isAllBlank text = false) : IsTrimmed (trim text) := by
  have hne : trim text ≠ "" := fun heq => by
    rw [trim_eq_empty.1 heq] at h
    cases h
  obtain ⟨after, heq, -, hlast⟩ := exists_dropEndWhile isBlank (text.toList.dropWhile isBlank)
  have hlist : (trim text).toList = dropEndWhile isBlank (text.toList.dropWhile isBlank) :=
    String.toList_ofList
  refine ⟨hne, fun c hc => ?_, by rwa [hlist]⟩
  have hhead : (text.toList.dropWhile isBlank).head? = (trim text).toList.head? := by
    rw [heq, ← hlist, List.head?_append_of_ne_nil _ (mt String.toList_eq_nil_iff.1 hne)]
  exact head?_dropWhile c (hhead ▸ hc)

theorem isTrimmed_iff : IsTrimmed s ↔ s ≠ "" ∧ trim s = s := by
  constructor
  · exact fun h => ⟨h.ne_empty, trim_eq h ⟨[], [], by simp, nofun, nofun⟩⟩
  · rintro ⟨hne, heq⟩
    have hblank : isAllBlank s = false :=
      Bool.eq_false_iff.2 fun hall => hne (heq.symm.trans (trim_eq_empty.2 hall))
    exact heq ▸ isTrimmed_trim hblank

instance : DecidablePred IsTrimmed := fun _ => decidable_of_iff _ isTrimmed_iff.symm

theorem IsTrimmed.append (hs : IsTrimmed s) (middle : String) (htext : IsTrimmed text) :
    IsTrimmed (s ++ middle ++ text) := by
  have hlist : (s ++ middle ++ text).toList = s.toList ++ (middle.toList ++ text.toList) := by
    simp [String.toList_append]
  refine ⟨fun hempty => ?_, fun c hc => ?_, fun c hc => ?_⟩
  · simp [hempty, hs.ne_empty] at hlist
  · rw [hlist, List.head?_append_of_ne_nil _ hs.toList_ne_nil] at hc
    exact hs.head c hc
  · rw [hlist, ← List.append_assoc, List.getLast?_append_of_ne_nil _ htext.toList_ne_nil] at hc
    exact htext.last c hc

theorem splitLines_ne_nil (cs : List Char) : splitLines cs ≠ [] := by
  cases cs with
  | nil => simp [splitLines]
  | cons c cs =>
    simp only [splitLines]
    split
    · simp
    · split <;> simp

theorem splitLines_append {l : List Char} (h : '\n' ∉ l) (rest : List Char) :
    splitLines (l ++ '\n' :: rest) = l :: splitLines rest := by
  induction l with
  | nil => simp [splitLines]
  | cons c l ih =>
    obtain ⟨hc, hl⟩ := not_or.1 (mt List.mem_cons.2 h)
    simp [splitLines, Ne.symm hc, ih hl]

theorem closeLines_cons (l : List Char) {ls : List (List Char)} (h : ls ≠ []) :
    closeLines (l :: ls) = dropReturn l :: closeLines ls := by
  cases ls with
  | nil => exact absurd rfl h
  | cons l' ls => rfl

def FitsLine (s : String) : Prop := '\n' ∉ s.toList ∧ s.toList.getLast? ≠ some '\r'

theorem lines_join {ls : List String} (h : ∀ l ∈ ls, FitsLine l) :
    lines (String.join (ls.map fun l => l ++ "\n")) = ls := by
  rw [lines, String.toList_join]
  induction ls with
  | nil => rfl
  | cons l ls ih =>
    obtain ⟨⟨hbreak, hreturn⟩, hls⟩ := List.forall_mem_cons.1 h
    have htext : (l ++ "\n").toList = l.toList ++ ['\n'] := String.toList_append
    rw [List.map_cons, List.flatMap_cons, htext, List.append_assoc, List.singleton_append,
      splitLines_append hbreak, closeLines_cons _ (splitLines_ne_nil _), dropReturn,
      if_neg hreturn, List.map_cons, String.ofList_toList, ih hls]

end Provision.Text
