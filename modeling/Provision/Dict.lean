/-!
# Maps keyed by text

Entries are kept in ascending order of their keys, each key once, so that two maps with the
same bindings are equal and print alike. `get?_insert` and `get?_extend` say what a change
does to look-ups.
-/

namespace Provision

/-- A finite map from text, in ascending key order. -/
structure Dict (α : Type) where
  entries : List (String × α)
  ascending : entries.Pairwise (fun a b => a.1 < b.1)

namespace Dict

variable {α β : Type}

def empty : Dict α := ⟨[], .nil⟩

instance : EmptyCollection (Dict α) := ⟨empty⟩

instance : Inhabited (Dict α) := ⟨empty⟩

def find (key : String) : List (String × α) → Option α
  | [] => none
  | (k, v) :: rest => if k = key then some v else find key rest

def get? (d : Dict α) (key : String) : Option α :=
  find key d.entries

def isEmpty (d : Dict α) : Bool :=
  d.entries.isEmpty

def keys (d : Dict α) : List String :=
  d.entries.map (·.1)

def place (key : String) (value : α) : List (String × α) → List (String × α)
  | [] => [(key, value)]
  | (k, v) :: rest =>
    if key < k then (key, value) :: (k, v) :: rest
    else if key = k then (key, value) :: rest
    else (k, v) :: place key value rest

theorem mem_place {key : String} {value : α} {l : List (String × α)} {e : String × α}
    (h : e ∈ place key value l) : e = (key, value) ∨ e ∈ l := by
  induction l with
  | nil => simpa [place] using h
  | cons a rest ih =>
    simp only [place] at h
    split at h
    · simpa using h
    · split at h
      · rcases List.mem_cons.1 h with h | h
        · exact .inl h
        · exact .inr (List.mem_cons_of_mem _ h)
      · rcases List.mem_cons.1 h with h | h
        · exact .inr (h ▸ List.mem_cons_self)
        · exact (ih h).imp_right (List.mem_cons_of_mem _)

theorem place_ascending (key : String) (value : α) {l : List (String × α)}
    (h : l.Pairwise (fun a b => a.1 < b.1)) :
    (place key value l).Pairwise (fun a b => a.1 < b.1) := by
  induction l with
  | nil => simp [place]
  | cons a rest ih =>
    obtain ⟨k, v⟩ := a
    have hrest := List.pairwise_cons.1 h
    simp only [place]
    split
    · next hlt =>
      refine List.pairwise_cons.2 ⟨fun e he => ?_, h⟩
      rcases List.mem_cons.1 he with rfl | he
      · exact hlt
      · exact String.lt_trans hlt (hrest.1 e he)
    · next hge =>
      split
      · next heq =>
        subst heq
        exact List.pairwise_cons.2 ⟨hrest.1, hrest.2⟩
      · next hne =>
        refine List.pairwise_cons.2 ⟨fun e he => ?_, ih hrest.2⟩
        rcases mem_place he with rfl | he
        · exact Std.lt_of_le_of_ne hge (Ne.symm hne)
        · exact hrest.1 e he

def insert (d : Dict α) (key : String) (value : α) : Dict α :=
  ⟨place key value d.entries, place_ascending key value d.ascending⟩

def extend (d other : Dict α) : Dict α :=
  other.entries.foldl (fun acc e => acc.insert e.1 e.2) d

def ofList (l : List (String × α)) : Dict α :=
  l.foldl (fun acc e => acc.insert e.1 e.2) empty

def map (f : α → β) (d : Dict α) : Dict β :=
  ⟨d.entries.map fun e => (e.1, f e.2), by
    simpa [List.pairwise_map] using d.ascending⟩

theorem find_place (key k : String) (value : α) (l : List (String × α)) :
    find k (place key value l) = if key = k then some value else find k l := by
  induction l with
  | nil => simp [place, find]
  | cons a rest ih =>
    obtain ⟨k', v⟩ := a
    simp only [place]
    split
    · simp [find]
    · split
      · next h =>
        subst h
        by_cases hk : key = k <;> simp [find, hk]
      · next h =>
        by_cases hk : k' = k
        · subst hk
          simp [find, h]
        · simp [find, hk, ih]

@[simp] theorem get?_empty (k : String) : (empty : Dict α).get? k = none := rfl

theorem get?_insert (d : Dict α) (key k : String) (value : α) :
    (d.insert key value).get? k = if key = k then some value else d.get? k :=
  find_place key k value d.entries

theorem find_eq_none {k : String} {l : List (String × α)} (h : ∀ e ∈ l, k < e.1) :
    find k l = none := by
  induction l with
  | nil => rfl
  | cons a rest ih =>
    have hne : ¬ a.1 = k := fun he => String.lt_irrefl k (he ▸ h a List.mem_cons_self)
    simp only [find, hne, if_false]
    exact ih fun e he => h e (List.mem_cons_of_mem _ he)

theorem find_eq_some {k : String} {v : α} {l : List (String × α)}
    (h : l.Pairwise (fun a b => a.1 < b.1)) : find k l = some v ↔ (k, v) ∈ l := by
  induction l with
  | nil => simp [find]
  | cons a rest ih =>
    obtain ⟨k', v'⟩ := a
    have hrest := List.pairwise_cons.1 h
    rw [List.mem_cons, Prod.mk.injEq, ← ih hrest.2]
    by_cases hk : k' = k
    · have hnone : find k rest = none := find_eq_none fun e he => hk ▸ hrest.1 e he
      simp [find, hk, hnone, eq_comm]
    · simp [find, hk, Ne.symm hk]

theorem get?_eq_some {d : Dict α} {k : String} {v : α} :
    d.get? k = some v ↔ (k, v) ∈ d.entries :=
  find_eq_some d.ascending

theorem get?_foldl_insert (l : List (String × α)) (h : l.Pairwise (fun a b => a.1 < b.1))
    (d : Dict α) (k : String) :
    (l.foldl (fun acc e => acc.insert e.1 e.2) d).get? k = (find k l).or (d.get? k) := by
  induction l generalizing d with
  | nil => simp [find]
  | cons a rest ih =>
    have hrest := List.pairwise_cons.1 h
    rw [List.foldl_cons, ih hrest.2, get?_insert]
    by_cases hk : a.1 = k
    · have hnone : find k rest = none := find_eq_none fun e he => hk ▸ hrest.1 e he
      simp [find, hk, hnone]
    · simp [find, hk]

theorem get?_extend (d other : Dict α) (k : String) :
    (d.extend other).get? k = (other.get? k).or (d.get? k) :=
  get?_foldl_insert other.entries other.ascending d k

theorem find_map (f : α → β) (k : String) (l : List (String × α)) :
    find k (l.map fun e => (e.1, f e.2)) = (find k l).map f := by
  induction l with
  | nil => rfl
  | cons a rest ih =>
    by_cases hk : a.1 = k <;> simp [find, hk, ih]

theorem get?_map (f : α → β) (d : Dict α) (k : String) :
    (d.map f).get? k = (d.get? k).map f :=
  find_map f k d.entries

end Dict

end Provision
