import Mathlib.Logic.ExistsUnique
import Provision.Proofs.Lifecycle.Conformance

/-!
# How an apply ends

The result of an apply follows from its record in exactly one of five ways. The infrastructure
was not touched, and the first failure is reported as it is. It was applied and read back. It
was applied and could not be read back, which is told apart from a failed apply and never
answered by a destroy. The apply failed, and the destroy that was to make up for it was not
wanted or went well. Or that destroy failed too, and both errors are reported.
-/

namespace Provision.Lifecycle

open Protocol Record

inductive Ending where
  | unapplied
  | completed
  | unverified
  | failed
  | unrecovered
deriving DecidableEq

/-- The engine's one apply ended with `reply`, after a preparation without failures; `after` is
what came then. -/
def AppliedOnce (a : Action) (t : Record) (reply : Except Error Unit) (after : Record) : Prop :=
  ∃ before, t = before ++ ⟨.engine (.apply a.envName), reply⟩ :: after ∧
    failures before = [] ∧ applies before = [] ∧ destroys before = [] ∧ applies after = []

def Recorded (a : Action) (after : Record) (version : Version) : Prop :=
  match a.backend with
  | .workspace => ∃ n, serials after = [.ok n] ∧ version = .ofSerial a.envName n
  | .stored _ => ∃ v, uploads after = [.ok v] ∧ version = .ofStorage a.envName v

/-- How the removals of the state end in a destroy that goes well. -/
def dropsOfDestroy (a : Action) : List (Except Error Unit) :=
  if a.backend = .workspace ∧ a.envName = Engine.defaultWorkspace then [] else [.ok ()]

def Ending.Describes (a : Action) (t : Record) (r : Except Error RunResult) : Ending → Prop
  | .unapplied =>
    applies t = [] ∧ destroys t = [] ∧ ∃ e, r = .error e ∧
      (if Text.isAllBlank a.envName then t = [] ∧ e = .validation "env_name must not be empty"
       else failures t = [e])
  | .completed =>
    ∃ after result, AppliedOnce a t (.ok ()) after ∧ failures after = [] ∧
      destroys after = [] ∧ r = .ok result ∧ Recorded a after result.version ∧
      outputs after = [.ok result.output]
  | .unverified =>
    ∃ after e, AppliedOnce a t (.ok ()) after ∧ failures after = [e] ∧ destroys after = [] ∧
      r = .error (.postApply e)
  | .failed =>
    ∃ after e, AppliedOnce a t (.error e) after ∧ r = .error (.applyFailed e) ∧
      (a.deleteOnFailure = false ∧ destroys after = [] ∧ drops after = [] ∨
        a.deleteOnFailure = true ∧ destroys after = [.ok ()] ∧ drops after = dropsOfDestroy a)
  | .unrecovered =>
    ∃ after e d, AppliedOnce a t (.error e) after ∧ a.deleteOnFailure = true ∧
      r = .error (.rollbackFailed e d) ∧
      (destroys after = [.error d] ∧ drops after = [] ∨
        destroys after = [.ok ()] ∧ drops after = [.error d])

namespace AppliedOnce

variable {a : Action} {t after : Record} {reply : Except Error Unit}

theorem applies_eq (h : AppliedOnce a t reply after) : applies t = [reply] := by
  obtain ⟨before, rfl, -, hbefore, -, hafter⟩ := h
  simp [applied?, hbefore, hafter]

theorem destroys_eq (h : AppliedOnce a t reply after) : destroys t = destroys after := by
  obtain ⟨before, rfl, -, -, hbefore, -⟩ := h
  rw [destroys, List.filterMap_append, ← destroys, hbefore]
  rfl

theorem start (hf : failures t = []) (ha : applies t = []) (hd : destroys t = []) :
    AppliedOnce a (t ++ [⟨.engine (.apply a.envName), reply⟩]) reply [] :=
  ⟨t, rfl, hf, ha, hd, rfl⟩

theorem snoc {e : Event steps} (h : AppliedOnce a t reply after) (he : applied? e = none) :
    AppliedOnce a (t ++ [e]) reply (after ++ [e]) := by
  obtain ⟨before, rfl, hf, hbefore, hd, hafter⟩ := h
  refine ⟨before, by simp, hf, hbefore, hd, ?_⟩
  simp [hafter, he]

end AppliedOnce

namespace Ending

def ofRecord (t : Record) (r : Except Error RunResult) : Ending :=
  match applies t, r with
  | [], _ => .unapplied
  | .ok _ :: _, .ok _ => .completed
  | .ok _ :: _, .error _ => .unverified
  | .error _ :: _, .error (.rollbackFailed _ _) => .unrecovered
  | .error _ :: _, _ => .failed

theorem eq_ofRecord {a : Action} {t : Record} {r : Except Error RunResult} {k : Ending}
    (h : k.Describes a t r) : k = ofRecord t r := by
  cases k with
  | unapplied =>
    obtain ⟨ht, -, -⟩ := h
    simp only [ofRecord, ht]
  | completed =>
    obtain ⟨after, result, ht, -, -, rfl, -⟩ := h
    simp only [ofRecord, ht.applies_eq]
  | unverified =>
    obtain ⟨after, e, ht, -, -, rfl⟩ := h
    simp only [ofRecord, ht.applies_eq]
  | failed =>
    obtain ⟨after, e, ht, rfl, -⟩ := h
    simp only [ofRecord, ht.applies_eq]
  | unrecovered =>
    obtain ⟨after, e, d, ht, -, rfl, -⟩ := h
    simp only [ofRecord, ht.applies_eq]

end Ending

def Settled (a : Action) (t : Record) (report : Error) : Prop :=
  Ending.failed.Describes a t (.error report) ∨ Ending.unrecovered.Describes a t (.error report)

/-- What the record looks like in each phase. -/
def Accords (a : Action) (t : Record) : Phase → Prop
  | .pullState | .readCopy | .upload _ =>
    ∃ after, AppliedOnce a t (.ok ()) after ∧ failures after = [] ∧ destroys after = [] ∧
      serials after = [] ∧ uploads after = [] ∧ outputs after = []
  | .readOutput version =>
    ∃ after, AppliedOnce a t (.ok ()) after ∧ failures after = [] ∧ destroys after = [] ∧
      Recorded a after version ∧ outputs after = []
  | .destroy cause =>
    ∃ after, AppliedOnce a t (.error cause) after ∧ a.deleteOnFailure = true ∧
      destroys after = [] ∧ drops after = []
  | .dropState cause =>
    ∃ after, AppliedOnce a t (.error cause) after ∧ a.deleteOnFailure = true ∧
      destroys after = [.ok ()] ∧ drops after = [] ∧ dropsOfDestroy a = [.ok ()]
  | .lookForCopy report | .readPartial report | .uploadPartial report _ => Settled a t report
  | .ended r => ∃ k : Ending, k.Describes a t r
  | _ => failures t = [] ∧ applies t = [] ∧ destroys t = []

section Accords

variable {a : Action} {t : Record} {report : Error} {e : Event steps}

theorem Recorded.snoc {after : Record} {version : Version} (h : Recorded a after version)
    (hp : pulled? e = none) (hu : uploaded? e = none) : Recorded a (after ++ [e]) version := by
  simpa only [Recorded, serials, uploads, filterMap_snoc_none hp, filterMap_snoc_none hu] using h

theorem Settled.snoc (h : Settled a t report) (ha : applied? e = none)
    (hd : destroyed? e = none) (hr : dropped? e = none) : Settled a (t ++ [e]) report := by
  rcases h with ⟨after, cause, ht, heq, h⟩ | ⟨after, cause, second, ht, hw, heq, h⟩
  · refine .inl ⟨after ++ [e], cause, ht.snoc ha, heq, ?_⟩
    simpa [hd, hr] using h
  · refine .inr ⟨after ++ [e], cause, second, ht.snoc ha, hw, heq, ?_⟩
    simpa [hd, hr] using h

theorem accords_failed (h : Settled a t report) : Accords a t (.failed report) := by
  rcases h with h | h
  · exact ⟨_, h⟩
  · exact ⟨_, h⟩

theorem accords_preserve (h : Settled a t report) : Accords a t (.preserve a report) := by
  unfold Phase.preserve
  cases a.backend with
  | workspace => exact accords_failed h
  | stored f => exact h

theorem accords_next {ε α : Type} {s : Step} {reply : s.Reply} {outcome : Except ε α}
    (report : ε → Error) {good : α → Phase} (hn : Text.isAllBlank a.envName = false)
    (ht : failures t = [] ∧ applies t = [] ∧ destroys t = [])
    (hf : failure? ⟨s, reply⟩ = (errorOf outcome).map report)
    (ha : applied? ⟨s, reply⟩ = none) (hd : destroyed? ⟨s, reply⟩ = none)
    (hgood : ∀ x u, failures u = [] ∧ applies u = [] ∧ destroys u = [] → Accords a u (good x)) :
    Accords a (t ++ [⟨s, reply⟩]) (.orElse (fun e => .failed (report e)) good outcome) := by
  obtain ⟨htf, hta, htd⟩ := ht
  cases outcome with
  | ok x =>
    simp only [errorOf, Option.map_none] at hf
    exact hgood x _ (by simp [htf, hta, htd, hf, ha, hd])
  | error e =>
    simp only [errorOf, Option.map_some] at hf
    refine ⟨.unapplied, by simp [hta, ha], by simp [htd, hd], report e, rfl, ?_⟩
    simp [hn, htf, hf]

theorem accords_verify {ε α : Type} {s : Step} {reply : s.Reply} {outcome : Except ε α}
    {after : Record} (report : ε → Error) {good : α → Phase}
    (ht : AppliedOnce a t (.ok ()) after) (htf : failures after = []) (htd : destroys after = [])
    (hf : failure? ⟨s, reply⟩ = (errorOf outcome).map report)
    (ha : applied? ⟨s, reply⟩ = none) (hd : destroyed? ⟨s, reply⟩ = none)
    (hgood : ∀ x, outcome = .ok x → failures (after ++ [⟨s, reply⟩]) = [] →
      destroys (after ++ [⟨s, reply⟩]) = [] → Accords a (t ++ [⟨s, reply⟩]) (good x)) :
    Accords a (t ++ [⟨s, reply⟩])
      (.orElse (fun e => .failed (.postApply (report e))) good outcome) := by
  cases outcome with
  | ok x =>
    simp only [errorOf, Option.map_none] at hf
    exact hgood x rfl (by simp [htf, hf]) (by simp [htd, hd])
  | error e =>
    simp only [errorOf, Option.map_some] at hf
    refine ⟨.unverified, _, report e, ht.snoc ha, ?_, ?_, rfl⟩
    · simp [htf, hf]
    · simp [htd, hd]

theorem accords_afterPreparation
    (ht : failures t = [] ∧ applies t = [] ∧ destroys t = []) :
    Accords a t (.afterPreparation a) := by
  unfold Phase.afterPreparation
  split
  · exact ht
  · exact ht

theorem accords_adoptNext (pending : List (String × String))
    (ht : failures t = [] ∧ applies t = [] ∧ destroys t = []) :
    Accords a t (.adoptNext pending) := by
  cases pending with
  | nil => exact ht
  | cons e rest => exact ht

theorem accords_place (f : StateFile) (content : Bytes)
    (ht : failures t = [] ∧ applies t = [] ∧ destroys t = []) :
    Accords a t (.place f content) := by
  unfold Phase.place
  split
  · exact ht
  · exact ht

theorem accords_applied {reply : Except Error Unit}
    (ht : failures t = [] ∧ applies t = [] ∧ destroys t = []) :
    Accords a (t ++ [⟨.engine (.apply a.envName), reply⟩])
      (.orElse (.compensate a) (fun _ => .record a) reply) := by
  obtain ⟨htf, hta, htd⟩ := ht
  have honce : AppliedOnce a _ reply [] := .start htf hta htd
  cases reply with
  | ok _ =>
    cases hb : a.backend <;> simp only [Phase.orElse, Phase.record, hb] <;>
      exact ⟨[], honce, rfl, rfl, rfl, rfl, rfl⟩
  | error cause =>
    simp only [Phase.orElse, Phase.compensate]
    cases hw : a.deleteOnFailure with
    | true => exact ⟨[], honce, hw, rfl, rfl⟩
    | false => exact accords_preserve (.inl ⟨[], cause, honce, rfl, .inl ⟨hw, rfl, rfl⟩⟩)

theorem accords_destroyed {cause : Error} {after : Record} {reply : Except Error Unit}
    (ht : AppliedOnce a t (.error cause) after) (hw : a.deleteOnFailure = true)
    (htd : destroys after = []) (htr : drops after = []) :
    Accords a (t ++ [⟨.engine (.destroy a.envName), reply⟩])
      (.orElse (fun e => .preserve a (.rollbackFailed cause e))
        (fun _ => .afterDestroy a cause) reply) := by
  have honce := ht.snoc (e := ⟨.engine (.destroy a.envName), reply⟩) rfl
  have hdestroys : destroys (after ++ [⟨.engine (.destroy a.envName), reply⟩]) = [reply] := by
    simp [htd, destroyed?]
  have hdrops : drops (after ++ [⟨.engine (.destroy a.envName), reply⟩]) = [] := by
    simp [htr, dropped?]
  cases reply with
  | error second =>
    exact accords_preserve (.inr ⟨_, cause, second, honce, hw, rfl, .inl ⟨hdestroys, hdrops⟩⟩)
  | ok _ =>
    simp only [Phase.orElse, Phase.afterDestroy]
    by_cases hkept : a.backend = .workspace ∧ a.envName = Engine.defaultWorkspace
    · rw [if_pos hkept]
      refine ⟨.failed, _, cause, honce, rfl, .inr ⟨hw, hdestroys, ?_⟩⟩
      rw [hdrops, dropsOfDestroy, if_pos hkept]
    · rw [if_neg hkept]
      exact ⟨_, honce, hw, hdestroys, hdrops, if_neg hkept⟩

theorem accords_dropped {cause : Error} {after : Record} {outcome : Except Error Unit}
    (ht : AppliedOnce a t (.error cause) after) (hw : a.deleteOnFailure = true)
    (htd : destroys after = [.ok ()]) (htr : drops after = [])
    (hall : dropsOfDestroy a = [.ok ()]) (ha : applied? e = none) (hd : destroyed? e = none)
    (hr : dropped? e = some outcome) :
    Accords a (t ++ [e]) (.afterDrop a cause outcome) := by
  have hdestroys : destroys (after ++ [e]) = [.ok ()] := by simp [htd, hd]
  have hdrops : drops (after ++ [e]) = [outcome] := by simp [htr, hr]
  cases outcome with
  | ok _ =>
    refine ⟨.failed, _, cause, ht.snoc ha, rfl, .inr ⟨hw, hdestroys, ?_⟩⟩
    rw [hdrops, hall]
  | error second =>
    exact accords_preserve
      (.inr ⟨_, cause, second, ht.snoc ha, hw, rfl, .inr ⟨hdestroys, hdrops⟩⟩)

theorem accords_step {p : Phase} {s : Step} {next : s.Reply → Phase} (reply : s.Reply)
    (hn : Text.isAllBlank a.envName = false) (h : Asks a p s next) (ht : Accords a t p) :
    Accords a (t ++ [⟨s, reply⟩]) (next reply) := by
  -- Errors of the engine are reported as they are.
  have hid : ∀ {α : Type} (r : Except Error α), errorOf r = (errorOf r).map id :=
    fun r => by rw [Option.map_id_fun, id]
  cases h with
  | initBackend hb => exact accords_next id hn ht (hid reply) rfl rfl fun _ _ hu => hu
  | listWorkspaces hb =>
    refine accords_next id hn ht (hid reply) rfl rfl fun names u hu => ?_
    cases names.contains a.envName with
    | true => exact accords_afterPreparation hu
    | false => exact hu
  | newWorkspace hb =>
    exact accords_next id hn ht (hid reply) rfl rfl fun _ _ => accords_afterPreparation
  | initLocal hb => exact accords_next id hn ht (hid reply) rfl rfl fun _ _ hu => hu
  | probe hb =>
    refine accords_next .ofStorage hn ht rfl rfl rfl fun v u hu => ?_
    cases v.isZero with
    | true => exact accords_afterPreparation hu
    | false => exact hu
  | download hb =>
    exact accords_next .ofStorage hn ht rfl rfl rfl fun _ _ => accords_place _ _
  | makeDirectory hb directory content =>
    exact accords_next _ hn ht (Option.map_map ..) rfl rfl fun _ _ hu => hu
  | writeCopy hb content =>
    exact accords_next _ hn ht (Option.map_map ..) rfl rfl fun _ _ => accords_afterPreparation
  | listState =>
    exact accords_next id hn ht (hid reply) rfl rfl fun _ _ => accords_adoptNext _
  | adopt address id' pending =>
    exact accords_next id hn ht (hid reply) rfl rfl fun _ _ => accords_adoptNext _
  | apply => exact accords_applied ht
  | pullState hb =>
    obtain ⟨after, ht, hf, hd, hs, hu, ho⟩ := ht
    refine accords_verify id ht hf hd (hid _) rfl rfl fun n hr hf hd => ?_
    refine ⟨_, ht.snoc rfl, hf, hd, ?_, by simp [ho, output?]⟩
    simp [Recorded, hb, hs, pulled?, hr]
  | readCopy hb =>
    obtain ⟨after, ht, hf, hd, hs, hu, ho⟩ := ht
    refine accords_verify _ ht hf hd (Option.map_map ..) rfl rfl fun content hr hf hd => ?_
    exact ⟨_, ht.snoc rfl, hf, hd, by simp [hs, pulled?], by simp [hu, uploaded?],
      by simp [ho, output?]⟩
  | upload hb content =>
    obtain ⟨after, ht, hf, hd, hs, hu, ho⟩ := ht
    refine accords_verify .ofStorage ht hf hd rfl rfl rfl fun v hr hf hd => ?_
    refine ⟨_, ht.snoc rfl, hf, hd, ?_, by simp [ho, output?]⟩
    simp only [Recorded, hb]
    exact ⟨v, by simp [hu, uploaded?, hr], rfl⟩
  | readOutput version =>
    obtain ⟨after, ht, hf, hd, hv, ho⟩ := ht
    refine accords_verify id ht hf hd (hid reply) rfl rfl fun output hr hf hd => ?_
    refine ⟨.completed, _, ⟨version, output⟩, ht.snoc rfl, hf, hd, rfl, ?_, ?_⟩
    · exact hv.snoc rfl rfl
    · simp [ho, output?, hr]
  | destroy cause =>
    obtain ⟨after, ht, hw, hd, hr⟩ := ht
    exact accords_destroyed ht hw hd hr
  | deleteWorkspace hb cause =>
    obtain ⟨after, ht, hw, hd, hr, hall⟩ := ht
    exact accords_dropped ht hw hd hr hall rfl rfl rfl
  | deleteObject hb cause =>
    obtain ⟨after, ht, hw, hd, hr, hall⟩ := ht
    exact accords_dropped ht hw hd hr hall rfl rfl rfl
  | lookForCopy hb report =>
    cases reply with
    | true => exact Settled.snoc ht rfl rfl rfl
    | false => exact accords_failed (ht.snoc rfl rfl rfl)
  | readPartial hb report =>
    cases reply with
    | ok content => exact Settled.snoc ht rfl rfl rfl
    | error fault => exact accords_failed (ht.snoc rfl rfl rfl)
  | uploadPartial hb report content => exact accords_failed (ht.snoc rfl rfl rfl)

theorem accords_log {p : Phase} (line : Host.LogLine) (reply : Unit)
    (hn : Text.isAllBlank a.envName = false) (h : Accords a t p) :
    Accords a (t ++ [⟨.host (.log line), reply⟩]) p := by
  have hquiet (u : Record) :
      failures (u ++ [⟨.host (.log line), reply⟩]) = failures u ∧
      applies (u ++ [⟨.host (.log line), reply⟩]) = applies u ∧
      destroys (u ++ [⟨.host (.log line), reply⟩]) = destroys u ∧
      drops (u ++ [⟨.host (.log line), reply⟩]) = drops u ∧
      serials (u ++ [⟨.host (.log line), reply⟩]) = serials u ∧
      uploads (u ++ [⟨.host (.log line), reply⟩]) = uploads u ∧
      outputs (u ++ [⟨.host (.log line), reply⟩]) = outputs u :=
    ⟨filterMap_snoc_none rfl, filterMap_snoc_none rfl, filterMap_snoc_none rfl,
      filterMap_snoc_none rfl, filterMap_snoc_none rfl, filterMap_snoc_none rfl,
      filterMap_snoc_none rfl⟩
  cases p with
  | pullState | readCopy | upload =>
    obtain ⟨after, ht, h⟩ := h
    exact ⟨_, ht.snoc rfl, by simpa only [hquiet after] using h⟩
  | readOutput version =>
    obtain ⟨after, ht, hf, hd, hv, ho⟩ := h
    refine ⟨_, ht.snoc rfl, ?_⟩
    simpa only [hquiet after] using ⟨hf, hd, hv.snoc rfl rfl, ho⟩
  | destroy cause =>
    obtain ⟨after, ht, h⟩ := h
    exact ⟨_, ht.snoc rfl, by simpa only [hquiet after] using h⟩
  | dropState cause =>
    obtain ⟨after, ht, h⟩ := h
    exact ⟨_, ht.snoc rfl, by simpa only [hquiet after] using h⟩
  | lookForCopy | readPartial | uploadPartial => exact Settled.snoc h rfl rfl rfl
  | ended r =>
    obtain ⟨k, h⟩ := h
    refine ⟨k, ?_⟩
    cases k with
    | unapplied =>
      simpa only [Ending.Describes, hquiet t, hn, Bool.false_eq_true, if_false] using h
    | completed =>
      obtain ⟨after, result, ht, hf, hd, hr, hv, ho⟩ := h
      refine ⟨_, result, ht.snoc rfl, ?_⟩
      simpa only [hquiet after] using ⟨hf, hd, hr, hv.snoc rfl rfl, ho⟩
    | unverified =>
      obtain ⟨after, e, ht, h⟩ := h
      exact ⟨_, e, ht.snoc rfl, by simpa only [hquiet after] using h⟩
    | failed =>
      obtain ⟨after, e, ht, h⟩ := h
      exact ⟨_, e, ht.snoc rfl, by simpa only [hquiet after] using h⟩
    | unrecovered =>
      obtain ⟨after, e, d, ht, h⟩ := h
      exact ⟨_, e, d, ht.snoc rfl, by simpa only [hquiet after] using h⟩
  | _ => simpa only [Accords, hquiet t] using h

end Accords

/-- A run ends in exactly one of the ways, whatever the calls of the run reply. -/
theorem apply_ending {a : Action} {t : Record} {r : Except Error RunResult}
    (h : a.apply.run.Executes t r) : ∃! k : Ending, k.Describes a t r := by
  suffices hk : ∃ k : Ending, k.Describes a t r by
    obtain ⟨k, hk⟩ := hk
    exact ⟨k, hk, fun l hl => (Ending.eq_ofRecord hl).trans (Ending.eq_ofRecord hk).symm⟩
  cases hn : Text.isAllBlank a.envName with
  | true =>
    obtain ⟨rfl, rfl⟩ := Action.apply_executes_of_blank hn h
    exact ⟨.unapplied, rfl, rfl, _, rfl, by simp [hn]⟩
  | false =>
    -- `Accords` is the invariant: at the end it names the ending.
    have hrun : Leads a .start t (.ended r) := Action.tracks_apply hn t r h
    exact hrun.preserves (I := Accords a) (fun u p line reply => accords_log line reply hn)
      (fun u p s next reply => accords_step reply hn) [] ⟨rfl, rfl, rfl⟩

def lockedOut : Record := [
  ofEngine (.initBackend "dev") (.ok ()),
  ofEngine .listWorkspaces (.ok ["default", "dev"]),
  ofLog .info "== Terraform Apply: dev ==",
  ofEngine (.apply "dev") (.error (.engine "terraform apply" "exit status 1" "quota")),
  ofLog .error "Failed to run terraform apply",
  ofLog .warn "Cleaning up partially created resources...",
  ofEngine (.destroy "dev") (.error (.engine "terraform destroy" "exit status 1" "locked")),
  ofLog .error "Failed to run terraform destroy"]

theorem apply_ending_lockedOut :
    ∃! k : Ending, k.Describes ⟨.workspace, "dev", true, {}⟩ lockedOut
      (.error (.rollbackFailed (.engine "terraform apply" "exit status 1" "quota")
        (.engine "terraform destroy" "exit status 1" "locked"))) := by
  refine apply_ending ?_
  exact .step _ (.step _ (.step _ (.step _ (.step _ (.step _ (.step _ (.step _ (.done _))))))))

end Provision.Lifecycle
