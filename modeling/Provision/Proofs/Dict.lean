import Mathlib.Data.List.Perm.Basic
import Provision.Dict

/-!
# Maps as layers

A map is determined by its look-ups. So laying maps over each other is a matter of single keys: the
last layer that has the key decides, and layers that have no key in common may change places.
-/

namespace Provision.Dict

variable {α : Type} {d d' : Dict α} {k : String}

theorem nodup_entries (d : Dict α) : d.entries.Nodup :=
  d.ascending.imp fun {a b} (h : a.1 < b.1) (heq : a = b) => String.lt_irrefl b.1 (heq ▸ h)

theorem ext_get? (h : ∀ k, d.get? k = d'.get? k) : d = d' := by
  have hmem (e : String × α) : e ∈ d.entries ↔ e ∈ d'.entries := by
    rw [← get?_eq_some (d := d), ← get?_eq_some (d := d'), h]
  have hperm : d.entries.Perm d'.entries :=
    (List.perm_ext_iff_of_nodup d.nodup_entries d'.nodup_entries).2 hmem
  have hentries : d.entries = d'.entries :=
    hperm.eq_of_pairwise (fun a b _ _ hab hba => absurd hab (String.lt_asymm hba))
      d.ascending d'.ascending
  cases d
  cases d'
  cases hentries
  rfl

theorem get?_eq_none (h : k ∉ d.keys) : d.get? k = none :=
  Option.eq_none_iff_forall_ne_some.2 fun v hv =>
    h (List.mem_map.2 ⟨(k, v), get?_eq_some.1 hv, rfl⟩)

def Apart (d d' : Dict α) : Prop := ∀ k ∈ d.keys, k ∉ d'.keys

theorem Apart.symm (h : d.Apart d') : d'.Apart d := fun k hk hk' => h k hk' hk

theorem extend_empty (d : Dict α) : d.extend {} = d := rfl

theorem extend_comm (h : d.Apart d') (start : Dict α) :
    (start.extend d).extend d' = (start.extend d').extend d := by
  refine ext_get? fun k => ?_
  simp only [get?_extend]
  by_cases hk : k ∈ d.keys
  · rw [get?_eq_none (h k hk), Option.none_or, Option.none_or]
  · rw [get?_eq_none hk, Option.none_or, Option.none_or]

theorem get?_foldl_extend (layers : List (Dict α)) (start : Dict α) :
    (layers.foldl extend start).get? k =
      (layers.reverse.findSome? fun d => d.get? k).or (start.get? k) := by
  induction layers generalizing start with
  | nil => rfl
  | cons d rest ih =>
    rw [List.foldl_cons, ih, get?_extend, List.reverse_cons, List.findSome?_append,
      List.findSome?_singleton, Option.or_assoc]

end Provision.Dict
