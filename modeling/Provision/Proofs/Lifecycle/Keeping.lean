import Provision.Proofs.Lifecycle.Conformance

/-!
# What becomes of a stored state

An apply over a stored state moves two things: the local copy, which the engine rewrites as it
likes, and the stored object. On return the object is as it was if nothing was applied, it is
gone if a failed apply was made up for, and else it is the local copy, unless the one upload of
the run failed.
-/

namespace Provision.Lifecycle

open Protocol Record

/-- The local copy and the stored object of an environment, as far as they exist. -/
structure Copies where
  copy : Option Bytes
  object : Option Bytes

/-- What a step may do to the two. A store replaces on upload and removes on delete; what it does
when it fails is left open. The engine may do anything to the local copy, except while it only
reads the output. -/
def Changes (f : StateFile) (before : Copies) : Event steps → Copies → Prop
  | ⟨.storage (.upload key content), .ok _⟩, after =>
    after = if key = f.key then { before with object := some content } else before
  | ⟨.storage (.delete key), .ok _⟩, after =>
    after = if key = f.key then { before with object := none } else before
  | ⟨.storage (.upload _ _), .error _⟩, after => after.copy = before.copy
  | ⟨.storage (.delete _), .error _⟩, after => after.copy = before.copy
  | ⟨.engine (.readOutput _), _⟩, after => after = before
  | ⟨.engine _, _⟩, after => after.object = before.object
  | ⟨.host (.writeFile path content), .ok _⟩, after =>
    after = if path = f.localPath then { before with copy := some content } else before
  | ⟨.host (.writeFile _ _), .error _⟩, after => after.object = before.object
  | ⟨.host (.readFile path), .ok content⟩, after =>
    after = before ∧ (path = f.localPath → before.copy = some content)
  | ⟨.host (.isFile path), found⟩, after =>
    after = before ∧ (path = f.localPath → found = before.copy.isSome)
  | _, after => after = before

inductive Evolves (f : StateFile) : Copies → Record → Copies → Prop where
  | nil (c : Copies) : Evolves f c [] c
  | cons {before between after : Copies} {e : Event steps} {t : Record} :
      Changes f before e between → Evolves f between t after → Evolves f before (e :: t) after

/-- The destroy that makes up for a failed apply, with the removal of the state, went well. -/
def Compensated (t : Record) : Prop := destroys t = [.ok ()] ∧ drops t = [.ok ()]

/-- The store did not take the local copy, or it could not be read. -/
def UploadFailed (f : StateFile) (t : Record) : Prop :=
  (∃ e, .error e ∈ uploads t) ∨ ∃ fault, ofHost (.readFile f.localPath) (.error fault) ∈ t

structure Kept (f : StateFile) (t : Record) (before after : Copies) : Prop where
  uploaded_once : (uploads t).length ≤ 1
  unchanged : applies t = [] → after.object = before.object
  removed : Compensated t → after.object = none
  saved : applies t ≠ [] → ¬ Compensated t →
    ∀ content, after.copy = some content → UploadFailed f t ∨ after.object = some content

section Keeping

variable {a : Action} {f : StateFile} {t u : Record} {e : Event steps} {before after : Copies}

theorem evolves_append :
    Evolves f before (t ++ u) after ↔
      ∃ between, Evolves f before t between ∧ Evolves f between u after := by
  constructor
  · intro h
    induction t generalizing before with
    | nil => exact ⟨before, .nil before, h⟩
    | cons d rest ih =>
      cases h with
      | cons hchange hrest =>
        obtain ⟨between, hleft, hright⟩ := ih hrest
        exact ⟨between, .cons hchange hleft, hright⟩
  · rintro ⟨between, hleft, hright⟩
    induction hleft with
    | nil => exact hright
    | cons hchange _ ih => exact .cons hchange (ih hright)

theorem evolves_one : Evolves f before [e] after ↔ Changes f before e after := by
  constructor
  · intro h
    cases h with
    | cons hchange hrest =>
      cases hrest
      exact hchange
  · exact fun h => .cons h (.nil after)

theorem evolves_snoc (h : Evolves f before (t ++ [e]) after) :
    ∃ between, Evolves f before t between ∧ Changes f between e after := by
  obtain ⟨between, hbefore, hlast⟩ := evolves_append.1 h
  exact ⟨between, hbefore, evolves_one.1 hlast⟩

theorem not_compensated (h : destroys t = []) : ¬ Compensated t := by
  rintro ⟨hd, -⟩
  rw [h] at hd
  cases hd

/-- What is known in each phase of an apply over a stored state. -/
def Secures (f : StateFile) (t : Record) (before now : Copies) : Phase → Prop
  | .pullState => False
  | .readCopy => applies t ≠ [] ∧ destroys t = [] ∧ uploads t = []
  | .upload content =>
    applies t ≠ [] ∧ destroys t = [] ∧ uploads t = [] ∧ now.copy = some content
  | .readOutput _ =>
    applies t ≠ [] ∧ destroys t = [] ∧ (uploads t).length ≤ 1 ∧
      ∀ content, now.copy = some content → now.object = some content
  | .destroy _ => applies t ≠ [] ∧ destroys t = [] ∧ drops t = [] ∧ uploads t = []
  | .dropState _ => applies t ≠ [] ∧ destroys t = [.ok ()] ∧ drops t = [] ∧ uploads t = []
  | .lookForCopy _ | .readPartial _ => applies t ≠ [] ∧ ¬ Compensated t ∧ uploads t = []
  | .uploadPartial _ content =>
    applies t ≠ [] ∧ ¬ Compensated t ∧ uploads t = [] ∧ now.copy = some content
  | .ended _ => Kept f t before now
  | _ =>
    applies t = [] ∧ destroys t = [] ∧ drops t = [] ∧ uploads t = [] ∧
      now.object = before.object

theorem secures_prepared {ε α : Type} {now : Copies} {outcome : Except ε α}
    {report : ε → Error} {good : α → Phase}
    (h : applies t = [] ∧ destroys t = [] ∧ drops t = [] ∧ uploads t = [] ∧
      now.object = before.object)
    (hc : after.object = now.object) (ha : applied? e = none) (hd : destroyed? e = none)
    (hr : dropped? e = none) (hu : uploaded? e = none)
    (hgood : ∀ x u, applies u = [] ∧ destroys u = [] ∧ drops u = [] ∧ uploads u = [] ∧
      after.object = before.object → Secures f u before after (good x)) :
    Secures f (t ++ [e]) before after (.orElse (fun x => .failed (report x)) good outcome) := by
  have hsnoc : applies (t ++ [e]) = [] ∧ destroys (t ++ [e]) = [] ∧ drops (t ++ [e]) = [] ∧
      uploads (t ++ [e]) = [] ∧ after.object = before.object := by
    simpa only [applies, destroys, drops, uploads, filterMap_snoc_none, ha, hd, hr, hu, hc] using h
  cases outcome with
  | ok x => exact hgood x _ hsnoc
  | error x =>
    obtain ⟨happlies, hdestroys, -, huploads, hobject⟩ := hsnoc
    exact {
      uploaded_once := by simp [huploads]
      unchanged := fun _ => hobject
      removed := fun h => absurd h (not_compensated hdestroys)
      saved := fun h => absurd happlies h }

theorem secures_afterPreparation {now : Copies}
    (h : applies t = [] ∧ destroys t = [] ∧ drops t = [] ∧ uploads t = [] ∧
      now.object = before.object) :
    Secures f t before now (.afterPreparation a) := by
  unfold Phase.afterPreparation
  split
  · exact h
  · exact h

theorem secures_adoptNext {now : Copies} (pending : List (String × String))
    (h : applies t = [] ∧ destroys t = [] ∧ drops t = [] ∧ uploads t = [] ∧
      now.object = before.object) :
    Secures f t before now (.adoptNext pending) := by
  cases pending with
  | nil => exact h
  | cons e rest => exact h

theorem secures_preserve {now : Copies} (hb : a.backend = .stored f) (report : Error)
    (h : applies t ≠ [] ∧ ¬ Compensated t ∧ uploads t = []) :
    Secures f t before now (.preserve a report) := by
  simp only [Phase.preserve, hb]
  exact h

theorem kept_of_applied {now : Copies} (ha : applies t ≠ []) (hn : ¬ Compensated t)
    (hu : (uploads t).length ≤ 1)
    (hsaved : ∀ content, now.copy = some content →
      UploadFailed f t ∨ now.object = some content) : Kept f t before now where
  uploaded_once := hu
  unchanged := fun h => absurd h ha
  removed := fun h => absurd h hn
  saved := fun _ _ => hsaved

theorem applies_snoc_ne_nil (h : applies t ≠ []) : applies (t ++ [e]) ≠ [] := by
  rw [applies, List.filterMap_append]
  exact List.append_ne_nil_of_left_ne_nil h _

theorem compensated_snoc (hd : destroyed? e = none) (hr : dropped? e = none) :
    Compensated (t ++ [e]) ↔ Compensated t := by
  simp only [Compensated, destroys, drops, filterMap_snoc_none hd, filterMap_snoc_none hr]

theorem unsettled_snoc (hd : destroyed? e = none) (hr : dropped? e = none)
    (hu : uploaded? e = none) (h : applies t ≠ [] ∧ ¬ Compensated t ∧ uploads t = []) :
    applies (t ++ [e]) ≠ [] ∧ ¬ Compensated (t ++ [e]) ∧ uploads (t ++ [e]) = [] := by
  obtain ⟨ha, hn, huploads⟩ := h
  refine ⟨applies_snoc_ne_nil ha, mt (compensated_snoc hd hr).1 hn, ?_⟩
  exact (filterMap_snoc_none hu).trans huploads

theorem kept_of_unread {fault : Host.Fault}
    (h : applies t ≠ [] ∧ ¬ Compensated t ∧ uploads t = []) :
    Kept f (t ++ [⟨.host (.readFile f.localPath), .error fault⟩]) before after := by
  obtain ⟨ha, hn, hu⟩ := unsettled_snoc (e := ⟨.host (.readFile f.localPath), .error fault⟩)
    rfl rfl rfl h
  refine kept_of_applied ha hn (by simp [hu]) fun _ _ => .inl (.inr ⟨fault, ?_⟩)
  exact List.mem_append_right _ (List.mem_singleton_self _)

theorem kept_of_uploaded {now : Copies} {content : Bytes}
    {reply : Except Storage.Error Storage.ObjectVersion}
    (h : applies t ≠ [] ∧ ¬ Compensated t ∧ uploads t = []) (hcopy : now.copy = some content)
    (hc : Changes f now ⟨.storage (.upload f.key content), reply⟩ after) :
    Kept f (t ++ [⟨.storage (.upload f.key content), reply⟩]) before after := by
  obtain ⟨ha, hn, hu⟩ := h
  have ha' := applies_snoc_ne_nil (e := ⟨.storage (.upload f.key content), reply⟩) ha
  have hn' :=
    mt (compensated_snoc (e := ⟨.storage (.upload f.key content), reply⟩) rfl rfl).1 hn
  have hu' : uploads (t ++ [⟨.storage (.upload f.key content), reply⟩]) = [reply] :=
    filterMap_snoc_first hu rfl
  refine kept_of_applied ha' hn' (by simp [hu']) fun c h => ?_
  cases reply with
  | ok v =>
    simp only [Changes, if_true] at hc
    subst hc
    exact .inr (hcopy.symm.trans h)
  | error e => exact .inl (.inl ⟨e, by simp [hu']⟩)

theorem secures_applied {now : Copies} {reply : Except Error Unit} (hb : a.backend = .stored f)
    (h : applies t = [] ∧ destroys t = [] ∧ drops t = [] ∧ uploads t = []) :
    Secures f (t ++ [⟨.engine (.apply a.envName), reply⟩]) before now
      (.orElse (.compensate a) (fun _ => .record a) reply) := by
  obtain ⟨-, hd, hr, hu⟩ := h
  have happlied : applies (t ++ [⟨.engine (.apply a.envName), reply⟩]) ≠ [] := by
    rw [applies, filterMap_snoc_some (x := reply) rfl]
    exact List.append_ne_nil_of_right_ne_nil _ (List.cons_ne_nil _ _)
  have hdestroys : destroys (t ++ [⟨.engine (.apply a.envName), reply⟩]) = [] :=
    (filterMap_snoc_none rfl).trans hd
  have hdrops : drops (t ++ [⟨.engine (.apply a.envName), reply⟩]) = [] :=
    (filterMap_snoc_none rfl).trans hr
  have huploads : uploads (t ++ [⟨.engine (.apply a.envName), reply⟩]) = [] :=
    (filterMap_snoc_none rfl).trans hu
  cases reply with
  | ok _ =>
    simp only [Phase.orElse, Phase.record, hb]
    exact ⟨happlied, hdestroys, huploads⟩
  | error cause =>
    simp only [Phase.orElse, Phase.compensate]
    split
    · exact ⟨happlied, hdestroys, hdrops, huploads⟩
    · exact secures_preserve hb _ ⟨happlied, not_compensated hdestroys, huploads⟩

theorem secures_destroyed {now : Copies} {cause : Error} {reply : Except Error Unit}
    (hb : a.backend = .stored f)
    (h : applies t ≠ [] ∧ destroys t = [] ∧ drops t = [] ∧ uploads t = []) :
    Secures f (t ++ [⟨.engine (.destroy a.envName), reply⟩]) before now
      (.orElse (fun e => .preserve a (.rollbackFailed cause e))
        (fun _ => .afterDestroy a cause) reply) := by
  obtain ⟨ha, hd, hr, hu⟩ := h
  have hdestroys : destroys (t ++ [⟨.engine (.destroy a.envName), reply⟩]) = [reply] :=
    filterMap_snoc_first hd rfl
  have hdrops : drops (t ++ [⟨.engine (.destroy a.envName), reply⟩]) = [] :=
    (filterMap_snoc_none rfl).trans hr
  have huploads : uploads (t ++ [⟨.engine (.destroy a.envName), reply⟩]) = [] :=
    (filterMap_snoc_none rfl).trans hu
  cases reply with
  | ok _ =>
    simp only [Phase.orElse, Phase.afterDestroy, hb, reduceCtorEq, false_and, if_false]
    exact ⟨applies_snoc_ne_nil ha, hdestroys, hdrops, huploads⟩
  | error second =>
    refine secures_preserve hb _ ⟨applies_snoc_ne_nil ha, fun hcompensated => ?_, huploads⟩
    cases hdestroys.symm.trans hcompensated.1

theorem secures_dropped {now : Copies} {cause : Error} {reply : Except Storage.Error Unit}
    (hb : a.backend = .stored f)
    (h : applies t ≠ [] ∧ destroys t = [.ok ()] ∧ drops t = [] ∧ uploads t = [])
    (hc : Changes f now ⟨.storage (.delete f.key), reply⟩ after) :
    Secures f (t ++ [⟨.storage (.delete f.key), reply⟩]) before after
      (.afterDrop a cause (reply.mapError .ofStorage)) := by
  obtain ⟨ha, hd, hr, hu⟩ := h
  have hdrops : drops (t ++ [⟨.storage (.delete f.key), reply⟩]) =
      [reply.mapError .ofStorage] := filterMap_snoc_first hr rfl
  have hdestroys : destroys (t ++ [⟨.storage (.delete f.key), reply⟩]) = [.ok ()] :=
    (filterMap_snoc_none rfl).trans hd
  have huploads : uploads (t ++ [⟨.storage (.delete f.key), reply⟩]) = [] :=
    (filterMap_snoc_none rfl).trans hu
  cases reply with
  | ok _ =>
    simp only [Changes, if_true] at hc
    subst hc
    exact {
      uploaded_once := by simp [huploads]
      unchanged := fun h => absurd h (applies_snoc_ne_nil ha)
      removed := fun _ => rfl
      saved := fun _ h => absurd ⟨hdestroys, hdrops⟩ h }
  | error second =>
    refine secures_preserve hb _ ⟨applies_snoc_ne_nil ha, fun hcompensated => ?_, huploads⟩
    cases hdrops.symm.trans hcompensated.2

theorem secures_step {p : Phase} {s : Step} {next : s.Reply → Phase} {now : Copies}
    (reply : s.Reply) (hb : a.backend = .stored f) (h : Asks a p s next)
    (hc : Changes f now ⟨s, reply⟩ after) (ht : Secures f t before now p) :
    Secures f (t ++ [⟨s, reply⟩]) before after (next reply) := by
  cases h with
  | initLocal hb => exact secures_prepared ht hc rfl rfl rfl rfl fun _ _ hu => hu
  | probe hb =>
    refine secures_prepared ht (congrArg _ hc) rfl rfl rfl rfl fun v u hu => ?_
    cases v.isZero with
    | true => exact secures_afterPreparation hu
    | false => exact hu
  | @download g hb =>
    refine secures_prepared ht (congrArg _ hc) rfl rfl rfl rfl fun object u hu => ?_
    unfold Phase.place
    split <;> exact hu
  | makeDirectory hb directory content =>
    exact secures_prepared ht (congrArg _ hc) rfl rfl rfl rfl fun _ _ hu => hu
  | writeCopy hb content =>
    refine secures_prepared ht ?_ rfl rfl rfl rfl fun _ _ => secures_afterPreparation
    cases reply with
    | ok _ =>
      rw [show after = _ from hc]
      split <;> rfl
    | error fault => exact hc
  | listState =>
    exact secures_prepared ht hc rfl rfl rfl rfl fun _ _ => secures_adoptNext _
  | adopt address id pending =>
    exact secures_prepared ht hc rfl rfl rfl rfl fun _ _ => secures_adoptNext _
  | apply => exact secures_applied hb ⟨ht.1, ht.2.1, ht.2.2.1, ht.2.2.2.1⟩
  | @readCopy g hg =>
    obtain rfl : f = g := Backend.stored.inj (hb.symm.trans hg)
    obtain ⟨ha, hd, hu⟩ := ht
    cases reply with
    | ok content =>
      refine ⟨applies_snoc_ne_nil ha, ?_, ?_, hc.1 ▸ hc.2 rfl⟩
      · exact (filterMap_snoc_none rfl).trans hd
      · exact (filterMap_snoc_none rfl).trans hu
    | error fault => exact kept_of_unread ⟨ha, not_compensated hd, hu⟩
  | @upload g hg content =>
    obtain rfl : f = g := Backend.stored.inj (hb.symm.trans hg)
    obtain ⟨ha, hd, hu, hcopy⟩ := ht
    cases reply with
    | ok v =>
      have hu' : uploads (t ++ [⟨.storage (.upload f.key content), .ok v⟩]) = [.ok v] :=
        filterMap_snoc_first hu rfl
      refine ⟨applies_snoc_ne_nil ha, (filterMap_snoc_none rfl).trans hd, by simp [hu'], ?_⟩
      simp only [Changes, if_true] at hc
      subst hc
      exact fun c h => hcopy.symm.trans h
    | error e => exact kept_of_uploaded ⟨ha, not_compensated hd, hu⟩ hcopy hc
  | readOutput version =>
    obtain ⟨ha, hd, hu, hsaved⟩ := ht
    have ha' := applies_snoc_ne_nil (e := ⟨.engine (.readOutput a.envName), reply⟩) ha
    have hd' : destroys (t ++ [⟨.engine (.readOutput a.envName), reply⟩]) = [] :=
      (filterMap_snoc_none rfl).trans hd
    have hu' : (uploads (t ++ [⟨.engine (.readOutput a.envName), reply⟩])).length ≤ 1 := by
      rwa [uploads, filterMap_snoc_none rfl]
    obtain rfl : after = now := hc
    have hkept : Kept f _ before after :=
      kept_of_applied ha' (not_compensated hd') hu' fun c h => .inr (hsaved c h)
    cases reply with
    | ok output => exact hkept
    | error e => exact hkept
  | destroy cause => exact secures_destroyed hb ht
  | @deleteObject g hg cause =>
    obtain rfl : f = g := Backend.stored.inj (hb.symm.trans hg)
    exact secures_dropped hb ht hc
  | @lookForCopy g hg report =>
    obtain rfl : f = g := Backend.stored.inj (hb.symm.trans hg)
    obtain ⟨ha, hn, hu⟩ := unsettled_snoc (e := ⟨.host (.isFile f.localPath), reply⟩) rfl rfl rfl ht
    cases reply with
    | true => exact ⟨ha, hn, hu⟩
    | false =>
      refine kept_of_applied ha hn (by simp [hu]) fun content hcontent => ?_
      have hfound := hc.2 rfl
      rw [← hc.1, hcontent] at hfound
      cases hfound
  | @readPartial g hg report =>
    obtain rfl : f = g := Backend.stored.inj (hb.symm.trans hg)
    cases reply with
    | ok content =>
      obtain ⟨ha, hn, hu⟩ :=
        unsettled_snoc (e := ⟨.host (.readFile f.localPath), .ok content⟩) rfl rfl rfl ht
      exact ⟨ha, hn, hu, hc.1 ▸ hc.2 rfl⟩
    | error fault => exact kept_of_unread ht
  | @uploadPartial g hg report content =>
    obtain rfl : f = g := Backend.stored.inj (hb.symm.trans hg)
    obtain ⟨ha, hn, hu, hcopy⟩ := ht
    exact kept_of_uploaded ⟨ha, hn, hu⟩ hcopy hc
  | initBackend hw => cases hb.symm.trans hw
  | listWorkspaces hw => cases hb.symm.trans hw
  | newWorkspace hw => cases hb.symm.trans hw
  | pullState hw => cases hb.symm.trans hw
  | deleteWorkspace hw => cases hb.symm.trans hw

theorem secures_log {p : Phase} (line : Host.LogLine) (reply : Unit)
    (h : Secures f t before after p) :
    Secures f (t ++ [⟨.host (.log line), reply⟩]) before after p := by
  have happlies : applies (t ++ [⟨.host (.log line), reply⟩]) = applies t :=
    filterMap_snoc_none rfl
  have hdestroys : destroys (t ++ [⟨.host (.log line), reply⟩]) = destroys t :=
    filterMap_snoc_none rfl
  have hdrops : drops (t ++ [⟨.host (.log line), reply⟩]) = drops t := filterMap_snoc_none rfl
  have huploads : uploads (t ++ [⟨.host (.log line), reply⟩]) = uploads t :=
    filterMap_snoc_none rfl
  have hcompensated : Compensated (t ++ [⟨.host (.log line), reply⟩]) ↔ Compensated t :=
    compensated_snoc rfl rfl
  cases p with
  | ended r =>
    exact {
      uploaded_once := huploads ▸ h.uploaded_once
      unchanged := fun ha => h.unchanged (happlies ▸ ha)
      removed := fun hc => h.removed (hcompensated.1 hc)
      saved := by
        intro ha hn content hcopy
        refine (h.saved (happlies ▸ ha) (mt hcompensated.2 hn) content hcopy).imp_left ?_
        rintro (⟨e, he⟩ | ⟨fault, hfault⟩)
        · exact .inl ⟨e, huploads ▸ he⟩
        · exact .inr ⟨fault, List.mem_append_left _ hfault⟩ }
  | pullState => exact h.elim
  | _ => simpa only [Secures, happlies, hdestroys, hdrops, huploads, hcompensated] using h

end Keeping

/-- No apply forgets what it created: whatever the engine does to the local copy and wherever the
run fails, the stored object is in step with it on return. -/
theorem apply_keepsState {a : Action} {f : StateFile} {t : Record} {r : Except Error RunResult}
    {before after : Copies} (hb : a.backend = .stored f) (h : a.apply.run.Executes t r)
    (hc : Evolves f before t after) : Kept f t before after := by
  cases hn : Text.isAllBlank a.envName with
  | true =>
    obtain ⟨rfl, -⟩ := Action.apply_executes_of_blank hn h
    cases hc
    exact {
      uploaded_once := Nat.zero_le _
      unchanged := fun _ => rfl
      removed := fun h => nomatch h.1
      saved := fun h => absurd rfl h }
  | false =>
    have hrun : Leads a .start t (.ended r) := Action.tracks_apply hn t r h
    -- A step can change the two in many ways, so the invariant is about all of them.
    have hsecures : ∀ now, Evolves f before ([] ++ t) now →
        Secures f ([] ++ t) before now (.ended r) := by
      refine hrun.preserves
        (I := fun u p => ∀ now, Evolves f before u now → Secures f u before now p) ?_ ?_ [] ?_
      · intro u p line reply hu now hnow
        obtain ⟨between, hbetween, rfl⟩ := evolves_snoc hnow
        exact secures_log line reply (hu _ hbetween)
      · intro u p s next reply hask hu now hnow
        obtain ⟨between, hbetween, hchange⟩ := evolves_snoc hnow
        exact secures_step reply hb hask hchange (hu between hbetween)
      · intro now hnow
        cases hnow
        exact ⟨rfl, rfl, rfl, rfl, rfl⟩
    exact hsecures after hc

def undeleted : Record := [
  ofEngine .initLocal (.ok ()),
  ofStorage (.version "dev.tfstate") (.ok .zero),
  ofLog .debug "No remote state at 'dev.tfstate'",
  ofLog .info "No prior state at 'dev.tfstate'; this is the first apply",
  ofLog .info "== Terraform Apply: dev ==",
  ofEngine (.apply "dev") (.error (.engine "terraform apply" "exit status 1" "quota")),
  ofLog .error "Failed to run terraform apply",
  ofLog .warn "Cleaning up partially created resources...",
  ofEngine (.destroy "dev") (.ok ()),
  ofStorage (.delete "dev.tfstate") (.error (.io "busy")),
  ofLog .error "Failed to run terraform destroy",
  ofHost (.isFile "terraform.tfstate") true,
  ofHost (.readFile "terraform.tfstate") (.ok [2]),
  ofStorage (.upload "dev.tfstate" [2]) (.ok ⟨"2", none⟩),
  ofLog .info "Uploaded state 'dev.tfstate' (version 2)",
  ofLog .warn "Uploaded partial state to 'dev.tfstate' (version 2)"]

theorem apply_keepsState_undeleted :
    Kept ⟨"terraform.tfstate", "dev.tfstate"⟩ undeleted ⟨none, none⟩ ⟨some [2], some [2]⟩ := by
  refine apply_keepsState (a := ⟨.stored ⟨"terraform.tfstate", "dev.tfstate"⟩, "dev", true, {}⟩)
    (r := .error (.rollbackFailed (.engine "terraform apply" "exit status 1" "quota")
      (.storageRead "I/O error: busy"))) rfl ?_ ?_
  · exact .step _ (.step _ (.step _ (.step _ (.step _ (.step _ (.step _ (.step _ (.step _ (.step _
      (.step _ (.step _ (.step _ (.step _ (.step _ (.step _ (.done _))))))))))))))))
  · have hrewritten : Evolves ⟨"terraform.tfstate", "dev.tfstate"⟩ ⟨some [2], none⟩
        (undeleted.drop 6) ⟨some [2], some [2]⟩ :=
      .cons rfl (.cons rfl (.cons rfl (.cons rfl (.cons rfl (.cons ⟨rfl, fun _ => rfl⟩
        (.cons ⟨rfl, fun _ => rfl⟩ (.cons rfl (.cons rfl (.cons rfl (.nil _))))))))))
    have happly : Changes ⟨"terraform.tfstate", "dev.tfstate"⟩ ⟨none, none⟩
        (ofEngine (.apply "dev") (.error (.engine "terraform apply" "exit status 1" "quota")))
        ⟨some [2], none⟩ := rfl
    exact .cons rfl (.cons rfl (.cons rfl (.cons rfl (.cons rfl (.cons happly hrewritten)))))

end Provision.Lifecycle
