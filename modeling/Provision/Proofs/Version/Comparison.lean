import Provision.Version

/-!
# Comparing versions

Versions with the same environment, serial and token are the same, whatever their times and plan
flags. Of two others the first is below the second exactly if both have a serial, in one
environment, and that of the first is the lower one. So versions are partially ordered, as far as
they are not the same, and only the serials of one environment are ever ordered.
-/

namespace Provision.Version

variable {u v w v' w' : Version} {o : Ordering}

/-- Identified by a serial or by a token or by neither, but not by both. -/
def OneIdentity (v : Version) : Prop := v.serial = none ∨ v.storageVersion = none

theorem oneIdentity_iff :
    v.OneIdentity ↔ (v.serial.isSome && v.storageVersion.isSome) = false := by
  rw [OneIdentity, Bool.and_eq_false_iff, Option.isSome_eq_false_iff, Option.isSome_eq_false_iff,
    Option.isNone_iff_eq_none, Option.isNone_iff_eq_none]

theorem validate_eq_ok :
    v.validate = .ok () ↔ Text.isAllBlank v.envName = false ∧ v.OneIdentity := by
  rw [oneIdentity_iff]
  unfold validate
  cases Text.isAllBlank v.envName <;> cases v.serial.isSome && v.storageVersion.isSome <;> simp

theorem same_iff :
    v.same w = true ↔
      v.envName = w.envName ∧ v.serial = w.serial ∧ v.storageVersion = w.storageVersion := by
  simp only [same, Bool.and_eq_true, decide_eq_true_eq, and_assoc]

theorem same_equivalence : Equivalence fun v w : Version => v.same w = true where
  refl v := same_iff.2 ⟨rfl, rfl, rfl⟩
  symm h := by
    obtain ⟨henv, hserial, htoken⟩ := same_iff.1 h
    exact same_iff.2 ⟨henv.symm, hserial.symm, htoken.symm⟩
  trans h h' := by
    obtain ⟨henv, hserial, htoken⟩ := same_iff.1 h
    obtain ⟨henv', hserial', htoken'⟩ := same_iff.1 h'
    exact same_iff.2 ⟨henv.trans henv', hserial.trans hserial', htoken.trans htoken'⟩

/-- A comparison looks at nothing in which versions that are the same may differ. -/
theorem compare?_congr (hv : v.same v' = true) (hw : w.same w' = true) :
    v.compare? w = v'.compare? w' := by
  obtain ⟨henv, hserial, htoken⟩ := same_iff.1 hv
  obtain ⟨henv', hserial', htoken'⟩ := same_iff.1 hw
  unfold compare? same
  rw [henv, hserial, htoken, henv', hserial', htoken']

theorem compare?_of_same (h : v.same w = true) : v.compare? w = some .eq := if_pos h

theorem compare?_eq_some (h : v.same w = false) :
    v.compare? w = some o ↔
      v.envName = w.envName ∧ ∃ a b, v.serial = some a ∧ w.serial = some b ∧ compare a b = o := by
  unfold compare?
  rw [if_neg (Bool.not_eq_true _ ▸ h)]
  by_cases henv : v.envName = w.envName
  · rw [if_neg (not_not_intro henv)]
    cases v.serial <;> cases w.serial <;> simp [henv]
  · simp [henv]

/-- Both have a serial in one environment, and that of the first is the lower one. -/
def Below (v w : Version) : Prop :=
  v.envName = w.envName ∧ ∃ a b, v.serial = some a ∧ w.serial = some b ∧ a < b

theorem Below.not_same (h : v.Below w) : v.same w = false := by
  obtain ⟨-, a, b, hv, hw, hlt⟩ := h
  rw [← Bool.not_eq_true]
  intro hsame
  have hserial : some a = some b := hv ▸ hw ▸ (same_iff.1 hsame).2.1
  exact Nat.ne_of_lt hlt (Option.some.inj hserial)

theorem Below.irrefl (v : Version) : ¬ v.Below v := fun h =>
  Bool.false_ne_true (h.not_same.symm.trans (same_equivalence.refl v))

theorem Below.trans (h : u.Below v) (h' : v.Below w) : u.Below w := by
  obtain ⟨henv, a, b, hu, hv, hlt⟩ := h
  obtain ⟨henv', b', c, hv', hw, hlt'⟩ := h'
  obtain rfl := Option.some.inj (hv.symm.trans hv')
  exact ⟨henv.trans henv', a, c, hu, hw, Nat.lt_trans hlt hlt'⟩

theorem compare?_eq_lt : v.compare? w = some .lt ↔ v.Below w := by
  cases hsame : v.same w with
  | true =>
    rw [compare?_of_same hsame]
    exact ⟨nofun, fun h => nomatch hsame.symm.trans h.not_same⟩
  | false =>
    rw [compare?_eq_some hsame]
    simp only [Nat.compare_eq_lt, Below]

theorem compare?_eq_gt : v.compare? w = some .gt ↔ w.Below v := by
  cases hsame : v.same w with
  | true =>
    rw [compare?_of_same hsame]
    have hsame' := same_equivalence.symm hsame
    exact ⟨nofun, fun h => nomatch hsame'.symm.trans h.not_same⟩
  | false =>
    rw [compare?_eq_some hsame]
    constructor
    · rintro ⟨henv, a, b, hv, hw, hgt⟩
      exact ⟨henv.symm, b, a, hw, hv, Nat.compare_eq_gt.1 hgt⟩
    · rintro ⟨henv, b, a, hw, hv, hlt⟩
      exact ⟨henv.symm, a, b, hv, hw, Nat.compare_eq_gt.2 hlt⟩

theorem compare?_eq_eq (hv : v.OneIdentity) (hw : w.OneIdentity) :
    v.compare? w = some .eq ↔ v.same w = true := by
  refine ⟨fun h => ?_, compare?_of_same⟩
  cases hsame : v.same w with
  | true => rfl
  | false =>
    obtain ⟨henv, a, b, ha, hb, heq⟩ := (compare?_eq_some hsame).1 h
    obtain rfl := Nat.compare_eq_eq.1 heq
    have htoken : v.storageVersion = none := hv.resolve_left (by simp [ha])
    have htoken' : w.storageVersion = none := hw.resolve_left (by simp [hb])
    exact hsame.symm.trans
      (same_iff.2 ⟨henv, ha.trans hb.symm, htoken.trans htoken'.symm⟩)

theorem isSome_compare? (h : v.same w = false) :
    (v.compare? w).isSome = true ↔
      v.envName = w.envName ∧ v.serial.isSome = true ∧ w.serial.isSome = true := by
  simp only [Option.isSome_iff_exists, compare?_eq_some h]
  constructor
  · rintro ⟨_, henv, a, b, hv, hw, -⟩
    exact ⟨henv, ⟨a, hv⟩, ⟨b, hw⟩⟩
  · rintro ⟨henv, ⟨a, hv⟩, ⟨b, hw⟩⟩
    exact ⟨_, henv, a, b, hv, hw, rfl⟩

theorem compare?_eq_none (h : v.same w = false)
    (hserial : v.envName = w.envName → v.serial = none ∨ w.serial = none) :
    v.compare? w = none := by
  rw [← Option.not_isSome_iff_eq_none, isSome_compare? h]
  rintro ⟨henv, hv, hw⟩
  rcases hserial henv with hnone | hnone
  · rw [hnone] at hv
    cases hv
  · rw [hnone] at hw
    cases hw

theorem compare?_of_envName_ne (h : v.envName ≠ w.envName) : v.compare? w = none := by
  refine compare?_eq_none ?_ fun henv => absurd henv h
  rw [← Bool.not_eq_true, same_iff]
  exact fun hsame => h hsame.1

theorem serial_eq_none_of_legacy (h : v.mode = some .legacy) : v.serial = none := by
  unfold mode at h
  cases hserial : v.serial with
  | none => rfl
  | some n =>
    rw [hserial] at h
    cases h

theorem compare?_of_mode_ne (h : v.mode ≠ w.mode) : v.compare? w = none := by
  refine compare?_eq_none ?_ fun _ => ?_
  · rw [← Bool.not_eq_true, same_iff]
    rintro ⟨-, hserial, htoken⟩
    exact h (by rw [mode, mode, hserial, htoken])
  · cases hv : v.serial with
    | none => exact .inl rfl
    | some a =>
      cases hw : w.serial with
      | none => exact .inr rfl
      | some b => exact absurd (by simp [mode, hv, hw]) h

theorem isZero_eq (v : Version) : v.isZero = v.mode.isNone := by
  unfold isZero mode
  cases v.serial <;> cases v.storageVersion <;> rfl

theorem compare?_of_isZero_ne (h : v.isZero ≠ w.isZero) : v.compare? w = none := by
  refine compare?_of_mode_ne fun hmode => h ?_
  rw [isZero_eq, isZero_eq, hmode]

/-- Comparing agrees with being the same, orders the serials of one environment as numbers, and
orders nothing else. -/
theorem comparison_lawful :
    (∀ v : Version,
      v.validate = .ok () ↔ Text.isAllBlank v.envName = false ∧ v.OneIdentity) ∧
    Equivalence (fun v w : Version => v.same w = true) ∧
    (∀ v w : Version, v.OneIdentity → w.OneIdentity →
      (v.compare? w = some .eq ↔ v.same w = true)) ∧
    (∀ v w : Version, v.compare? w = some .lt ↔ w.compare? v = some .gt) ∧
    (∀ v w : Version, v.isLess w = true ↔ v.Below w) ∧
    (∀ v : Version, v.isLess v = false) ∧
    (∀ u v w : Version, u.isLess v = true → v.isLess w = true → u.isLess w = true) ∧
    (∀ v v' w w' : Version, v.same v' = true → w.same w' = true →
      v.isLess w = v'.isLess w') ∧
    (∀ v w : Version, v.same w = false →
      ((v.compare? w).isSome = true ↔
        v.envName = w.envName ∧ v.serial.isSome = true ∧ w.serial.isSome = true)) ∧
    ∀ v w : Version, v.same w = false →
      v.envName ≠ w.envName ∨ v.mode ≠ w.mode ∨
        v.mode = some .legacy ∧ w.mode = some .legacy ∨ v.isZero ≠ w.isZero →
      v.compare? w = none := by
  have hless : ∀ v w : Version, v.isLess w = true ↔ v.Below w := fun v w => by
    rw [isLess, decide_eq_true_eq, compare?_eq_lt]
  refine ⟨fun v => validate_eq_ok, same_equivalence, fun v w => compare?_eq_eq,
    fun v w => compare?_eq_lt.trans compare?_eq_gt.symm, hless, fun v => ?_,
    fun u v w h h' => ?_, fun v v' w w' hv hw => ?_, fun v w => isSome_compare?,
    fun v w hsame h => ?_⟩
  · rw [← Bool.not_eq_true, hless]
    exact Below.irrefl v
  · exact (hless u w).2 (((hless u v).1 h).trans ((hless v w).1 h'))
  · rw [isLess, isLess, compare?_congr hv hw]
  · rcases h with h | h | ⟨h, -⟩ | h
    · exact compare?_of_envName_ne h
    · exact compare?_of_mode_ne h
    · exact compare?_eq_none hsame fun _ => .inl (serial_eq_none_of_legacy h)
    · exact compare?_of_isZero_ne h

theorem comparison_lawful_dev :
    (empty "dev").compare? (plan "dev") = some .eq ∧
    { ofSerial "dev" 5 with planOnly := true }.compare? (ofSerial "dev" 3) = some .gt ∧
    (ofSerial "dev" 3).isLess { ofSerial "dev" 5 with planOnly := true } = true ∧
    (ofStorage "dev" ⟨"t1", none⟩).compare? (ofStorage "dev" ⟨"t2", none⟩) = none ∧
    ((ofSerial "dev" 5).compare? (ofSerial "dev" 3)).isSome = true ∧
    (empty "dev").compare? (ofSerial "dev" 3) = none := by
  obtain ⟨-, -, hequal, hflip, hless, -, htrans, hcongr, hcomparable, hnone⟩ := comparison_lawful
  have hlow : (ofSerial "dev" 3).isLess (ofSerial "dev" 4) = true :=
    (hless _ _).2 ⟨rfl, 3, 4, rfl, rfl, by decide⟩
  have hhigh : (ofSerial "dev" 4).isLess (ofSerial "dev" 5) = true :=
    (hless _ _).2 ⟨rfl, 4, 5, rfl, rfl, by decide⟩
  have hplanned : (ofSerial "dev" 3).isLess { ofSerial "dev" 5 with planOnly := true } = true := by
    rw [← hcongr _ _ (ofSerial "dev" 5) _ (same_equivalence.refl _) (by decide)]
    exact htrans _ _ _ hlow hhigh
  exact ⟨(hequal _ _ (.inl rfl) (.inl rfl)).2 (by decide),
    (hflip _ _).1 (of_decide_eq_true hplanned), hplanned,
    hnone _ _ (by decide) (.inr (.inr (.inl (by decide)))),
    (hcomparable _ _ (by decide)).2 ⟨rfl, rfl, rfl⟩,
    hnone _ _ (by decide) (.inr (.inl (by decide)))⟩

end Provision.Version
