import Provision.Proofs.Lifecycle.Steps
import Provision.Proofs.Pipeline.Refusal

/-!
# One mode for each run

Where the state is kept is told three times: by the settings, by the backend of the action and by
the configuration of the engine. They never disagree, and every call of a run is one of its mode.
So the errors that would report a disagreement are never seen.

The lemmas about what a validation error says are about any property of texts that holds wherever
the first character rules a dispute out.
-/

namespace Provision

open Provision.Host
open Provision.Program (Backed)
open Provision.Task (Fails executes_lift_ok executes_mapError_ok fails_bind fails_lift
  fails_mapError fails_pure fails_throw)

namespace Lifecycle

/-- What would be said if the settings, the configuration and the calls disagreed. -/
def disputes : List String := [
  "backend_type and a legacy state file are mutually exclusive",
  "either backend_type or legacy storage must be configured",
  "init_with_backend requires backend_type"]

def Error.Undisputed (e : Error) : Prop := ∀ text ∈ disputes, e ≠ .validation text

instance : DecidablePred Error.Undisputed :=
  fun e => inferInstanceAs (Decidable (∀ text ∈ disputes, e ≠ .validation text))

theorem heads_disputes :
    disputes.map (fun text => text.toList.head?) = ['b', 'e', 'i'].map some := rfl

def Apart (text : String) : Prop := ∃ c, text.toList.head? = some c ∧ c ∉ ['b', 'e', 'i']

theorem Apart.append {text rest : String} (h : Apart text) : Apart (text ++ rest) := by
  obtain ⟨c, hhead, hc⟩ := h
  refine ⟨c, ?_, hc⟩
  rw [String.toList_append, List.head?_append, hhead, Option.some_or]

theorem Apart.not_mem_disputes {text : String} (h : Apart text) : text ∉ disputes := by
  intro hmem
  obtain ⟨c, hhead, hc⟩ := h
  have hdispute : text.toList.head? ∈ ['b', 'e', 'i'].map some :=
    heads_disputes ▸ List.mem_map_of_mem hmem
  obtain ⟨c', hc', heq⟩ := List.mem_map.1 hdispute
  obtain rfl := Option.some.inj (heq.trans hhead)
  exact hc hc'

theorem nameless_not_mem_disputes : Action.namelessText ∉ disputes := by
  decide +kernel

def Error.Within (T : String → Prop) (e : Error) : Prop := ∀ text, e = .validation text → T text

section Within

variable {T : String → Prop} {text : String} {e : Error}

theorem Error.within_validation (h : T text) : (Error.validation text).Within T := by
  rintro _ ⟨⟩
  exact h

theorem Error.Within.undisputed (h : e.Within (· ∉ disputes)) : e.Undisputed :=
  fun text hmem heq => h text heq hmem

theorem Error.Undisputed.within (h : e.Undisputed) : e.Within (· ∉ disputes) :=
  fun text heq hmem => h text hmem heq

theorem within_ofStorage (hT : ∀ text, Apart text → T text) (e : Storage.Error) :
    (Error.ofStorage e).Within T := by
  cases e with
  | unsupportedDriver name => exact Error.within_validation (hT _ (.append ⟨'U', rfl, by decide⟩))
  | configuration text => exact Error.within_validation (hT _ (.append ⟨'S', rfl, by decide⟩))
  | _ => exact fun _ => nofun

end Within

def Step.Suits (m : Mode) : Step → Prop
  | .engine (.initBackend _) => m = .workspace
  | .engine .listWorkspaces => m = .workspace
  | .engine (.newWorkspace _) => m = .workspace
  | .engine (.deleteWorkspace _) => m = .workspace
  | .engine .initLocal => m = .legacy
  | .storage _ => m = .legacy
  | _ => True

namespace Action

variable {a : Action}

theorem mode_workspace (hb : a.backend = .workspace) : a.mode = .workspace := by
  rw [mode, hb, Backend.mode]

theorem mode_stored {f : StateFile} (hb : a.backend = .stored f) : a.mode = .legacy := by
  rw [mode, hb, Backend.mode]

theorem mayDestroy_suits : a.MayDestroy (Step.Suits a.mode) where
  log _ := trivial
  pullState := trivial
  readOutput := trivial
  initBackend := mode_workspace
  listWorkspaces := mode_workspace
  initLocal _ := mode_stored
  probe _ := mode_stored
  download _ := mode_stored
  readCopy _ _ := trivial
  writeCopy _ _ _ := trivial
  makeParent _ _ _ _ := trivial
  apply := trivial
  listState := trivial
  adopt _ _ := trivial
  newWorkspace := mode_workspace
  findCopy _ _ := trivial
  upload _ hb _ := mode_stored hb
  destroy := trivial
  deleteWorkspace := mode_workspace
  delete _ := mode_stored

end Action

theorem Refused.exists_refuses {a : Action} {text : String} {t : Record} (h : Refused a text t) :
    ∃ e ∈ t, Refuses text e := by
  induction h with
  | atStart hc hrefuses => exact ⟨_, List.mem_singleton_self _, hrefuses⟩
  | atProbe hb hrefuses => exact ⟨_, List.mem_cons_of_mem _ (List.mem_singleton_self _), hrefuses⟩
  | later hlast hprobed hrefuses =>
    exact ⟨_, List.mem_append_right _ (List.mem_singleton_self _), hrefuses⟩
  | logged he h ih =>
    obtain ⟨e, hmem, hrefuses⟩ := ih
    exact ⟨e, List.mem_cons_of_mem _ hmem, hrefuses⟩

end Lifecycle

open Provision.Lifecycle (Apart Refuses disputes within_ofStorage)
open Provision.Lifecycle.Error (within_validation)

variable {T : String → Prop}

namespace Engine.Terraform

variable {c : Config} {u : Journal}

theorem Allowed.within {e : Lifecycle.Error} (h : Allowed u e) : e.Within T :=
  fun text heq => absurd heq (h text)

section Engine

variable (hT : ∀ text, Apart text → T text)

include hT

theorem within_initBackend (hc : c.backendType.isSome = true) (env : String) :
    (initBackend c env).Fails fun _ e => e.Within T := by
  obtain ⟨backendType, hbackend⟩ := Option.isSome_iff_exists.1 hc
  simp only [initBackend, hbackend]
  refine fails_bind (fails_bind fails_lift fun _ reply _ => ?_) fun _ _ _ =>
    fails_bind fails_lift fun _ _ _ =>
      fails_bind ((fails_run _ _).mono fun _ _ => Allowed.within) fun _ _ _ => fails_pure
  cases reply with
  | ok _ => exact fails_pure
  | error fault =>
    exact fails_throw
      (within_validation (hT _ (.append (.append (.append ⟨'F', rfl, by decide⟩)))))

/-- A call that suits the configuration is refused for other reasons, if at all. -/
theorem within_engine {call : Engine.Call} {reply : call.Reply} {text : String}
    (hsuits : Lifecycle.Step.Suits c.mode (.engine call))
    (hbackend : c.mode = .workspace → c.backendType.isSome = true)
    (h : (engine c call).Executes u reply) (hrefuses : Refuses text ⟨.engine call, reply⟩) :
    T text := by
  by_cases hinit : Lifecycle.IsInit call
  · cases call with
    | initBackend env =>
      exact within_initBackend hT (hbackend hsuits) env u _ (Lifecycle.eq_error hrefuses ▸ h)
        text rfl
    | initLocal =>
      have hfails : (initLocal c).Fails Allowed :=
        fails_bind (fails_run _ _) fun _ _ _ => fails_pure
      exact absurd rfl (hfails u _ (Lifecycle.eq_error hrefuses ▸ h) text)
    | _ => exact hinit.elim
  · obtain ⟨path, content, fault, -, rfl⟩ := refused_late hinit h hrefuses
    exact hT _ (.append (.append (.append ⟨'F', rfl, by decide⟩)))

end Engine

end Engine.Terraform

theorem Version.undisputed_validate {v : Version} {e : Lifecycle.Error}
    (h : v.validate = .error e) : e.Undisputed := by
  unfold validate at h
  split at h
  · cases h
    decide
  · split at h
    · cases h
      decide
    · cases h

namespace Pipeline

namespace Settings

section Fails

variable {r : Request} {directory envName : String} {terraformSource : Option String}

section Within

variable (hT : ∀ text, Apart text → T text)

include hT

theorem within_validate {s : Settings} {e : Lifecycle.Error}
    (hname : Text.isAllBlank s.envName = true → T Lifecycle.Action.namelessText)
    (h : s.validate = .error e) : e.Within T := by
  unfold validate at h
  split at h
  · next hblank =>
    cases h
    exact within_validation (hname hblank)
  · split at h
    · cases h
      exact within_validation (hT _ ⟨'M', rfl, by decide⟩)
    · cases h
      exact within_validation (hT _ ⟨'`', rfl, by decide⟩)
    · cases h

theorem within_loadMap {α : Type} (parse : String → Option (Dict α)) (kind path : String) :
    (loadMap parse kind path).Fails fun _ e => e.Within T := by
  refine fails_bind fails_lift fun _ reply _ => ?_
  cases reply with
  | error fault =>
    exact fails_throw (within_validation (hT _ (.append (.append (.append (.append
      (.append ⟨'F', rfl, by decide⟩)))))))
  | ok text =>
    dsimp only
    split
    · exact fails_pure
    · cases parse text with
      | none =>
        exact fails_throw (within_validation (hT _ (.append (.append (.append (.append
          ⟨'F', rfl, by decide⟩))))))
      | some d => exact fails_pure

theorem within_loadAll {α : Type} (parse : String → Option (Dict α)) (kind : String)
    (start : Dict α) (files : List String) :
    (loadAll parse kind directory start files).Fails fun _ e => e.Within T := by
  induction files generalizing start with
  | nil => exact fails_pure
  | cons file rest ih => exact fails_bind (within_loadMap hT _ _ _) fun _ d _ => ih _

theorem within_assemble
    (hname : Text.isAllBlank envName = true → T Lifecycle.Action.namelessText) :
    (assemble r directory envName terraformSource).Fails fun _ e => e.Within T := by
  refine fails_bind (within_loadAll hT _ _ _ _) fun _ vars _ =>
    fails_bind (within_loadAll hT _ _ _ _) fun _ imports _ =>
      fails_bind (fun t e h => ?_) fun _ _ _ => fails_pure
  exact within_validate hT hname (Program.executes_done.1 h).2.symm

theorem within_merge (hname : Text.isAllBlank envName = true → T Lifecycle.Action.namelessText) :
    (merge r directory envName terraformSource).Fails fun _ e => e.Within T := by
  rw [merge_eq]
  split
  · exact fails_bind fails_lift fun _ _ _ => within_assemble hT hname
  · exact within_assemble hT hname

theorem within_resolveEnvName : (resolveEnvName r directory).Fails fun _ e => e.Within T := by
  have hname (name : String) : (do
      if name.isEmpty then throw (.validation "Resolved env_name is empty")
      return name : StepTask String).Fails fun _ e => e.Within T := by
    dsimp only
    split
    · exact fails_bind (fails_throw (within_validation (hT _ ⟨'R', rfl, by decide⟩)))
        fun _ _ _ => fails_pure
    · exact fails_pure
  unfold resolveEnvName
  cases nonBlank r.params.envName with
  | some name => exact fails_bind fails_pure fun _ name _ => hname name
  | none =>
    cases nonBlank r.params.envNameFile with
    | some file =>
      refine fails_bind (fails_bind fails_lift fun _ reply _ => ?_) fun _ name _ => hname name
      cases reply with
      | ok text => exact fails_pure
      | error fault =>
        exact fails_throw
          (within_validation (hT _ (.append (.append (.append ⟨'F', rfl, by decide⟩)))))
    | none =>
      cases r.params.generateRandomName with
      | true =>
        refine fails_bind ?_ fun _ name _ => hname name
        rw [map_eq_pure_bind]
        exact fails_bind fails_lift fun _ _ _ => fails_pure
      | false =>
        cases nonBlank r.source.envName with
        | some name => exact fails_bind fails_pure fun _ name _ => hname name
        | none =>
          exact fails_bind (fails_throw (within_validation (hT _ (.append ⟨'M', rfl, by decide⟩))))
            fun _ name _ => hname name

theorem within_ofPut (hname : ∀ t name, (resolveEnvName r directory).run.Executes t (.ok name) →
      Text.isAllBlank name = true → T Lifecycle.Action.namelessText) :
    (ofPut r directory).Fails fun _ e => e.Within T := by
  refine fails_bind (within_resolveEnvName hT) fun t envName henv => ?_
  cases r.params.terraformSource.or r.source.terraformSource with
  | none => exact fails_throw (within_validation (hT _ ⟨'M', rfl, by decide⟩))
  | some source => exact within_merge hT (hname t envName henv)

end Within

theorem undisputed_ofGet : (ofGet r directory).Fails fun _ e => e.Within (· ∉ disputes) := by
  unfold ofGet
  cases r.version with
  | none => exact fails_throw (within_validation (by decide))
  | some version =>
    dsimp only
    cases version.validate with
    | ok _ =>
      exact within_merge (fun _ => Apart.not_mem_disputes)
        fun _ => Lifecycle.nameless_not_mem_disputes
    | error e =>
      exact fails_throw
        (within_validation (Apart.not_mem_disputes (.append ⟨'I', rfl, by decide⟩)))

theorem executes_ofGet {s : Settings} {t : Journal}
    (h : (ofGet r directory).run.Executes t (.ok s)) : ∃ envName, s.Reflects r envName := by
  unfold ofGet at h
  cases hversion : r.version with
  | none =>
    rw [hversion] at h
    cases (Task.executes_throw.1 h).2
  | some version =>
    rw [hversion] at h
    dsimp only at h
    cases hvalid : version.validate with
    | error e =>
      rw [hvalid] at h
      cases (Task.executes_throw.1 h).2
    | ok _ =>
      rw [hvalid] at h
      exact ⟨version.envName, executes_merge h⟩

end Fails

end Settings

namespace Prepared

variable {s : Settings} {scratch : String} {p : Prepared}

/-- The action and the configuration have the mode of the settings, and the configuration has what
that mode needs and nothing of the other. -/
structure Agrees (p : Prepared) (s : Settings) : Prop where
  action : p.action.mode = s.mode
  config : p.config.mode = s.mode
  legacy : s.mode = .legacy → ∃ f, p.action.backend = .stored f ∧
    p.config.stateFile = some f.localPath ∧ p.config.backendType = none ∧
    p.config.backendConfig = {}
  workspace : s.mode = .workspace → p.config.stateFile = none ∧
    p.config.backendType = s.backendType ∧ s.backendType.isSome = true ∧
    p.config.backendConfig = s.backendConfig

theorem agrees_of_draft (hs : s.validate = .ok ()) (h : draft s scratch = .ok p) :
    p.Agrees s := by
  rcases Settings.place_of_valid hs with ⟨backendType, hb, -⟩ | ⟨c, hb, hc⟩
  · have hsome : s.backendType.isSome = true := by rw [hb]; rfl
    have hmode : s.mode = .workspace := if_pos hsome
    rw [draft_workspace hsome] at h
    obtain rfl := Except.ok.inj h
    exact ⟨hmode.symm, hmode.symm, fun hlegacy => (by rw [hmode] at hlegacy; cases hlegacy),
      fun _ => ⟨rfl, rfl, hsome, rfl⟩⟩
  · have hmode := Settings.mode_legacy hb
    rw [draft_legacy hb hc] at h
    cases hdriver : Storage.Driver.ofConfig c with
    | error e =>
      rw [hdriver] at h
      cases h
    | ok driver =>
      rw [hdriver] at h
      obtain rfl := Except.ok.inj h
      exact ⟨hmode.symm, hmode.symm, fun _ => ⟨_, rfl, rfl, rfl, rfl⟩,
        fun hworkspace => (by rw [hmode] at hworkspace; cases hworkspace)⟩

theorem Agrees.validateMode (h : p.Agrees s) : p.config.validateMode = .ok () := by
  unfold Engine.Terraform.Config.validateMode
  cases hmode : s.mode with
  | legacy =>
    obtain ⟨f, -, hfile, hbackend, -⟩ := h.legacy hmode
    rw [hfile, hbackend]
  | workspace =>
    obtain ⟨hfile, hbackend, hsome, -⟩ := h.workspace hmode
    obtain ⟨backendType, heq⟩ := Option.isSome_iff_exists.1 hsome
    rw [hfile, hbackend, heq]

theorem Agrees.executes_validate (h : p.Agrees s) {u : Journal} {e : Lifecycle.Error}
    (hv : p.config.validate.Executes u (.error e)) :
    u = [⟨.isDirectory p.config.source, false⟩] ∧
      e = .validation ("terraform source '" ++ p.config.source ++ "' is not a directory") := by
  obtain ⟨u₁, u₂, found, hfound, hrest, rfl⟩ := Program.executes_bind.1 hv
  obtain rfl := Program.executes_one.1 hfound
  cases found with
  | true =>
    obtain ⟨-, heq⟩ := Program.executes_done.1 hrest
    rw [h.validateMode] at heq
    cases heq
  | false =>
    obtain ⟨rfl, heq⟩ := Program.executes_done.1 hrest
    exact ⟨rfl, Except.error.inj heq⟩

theorem within_ofSettings (hT : ∀ text, Apart text → T text) (hs : s.validate = .ok ()) :
    (ofSettings s scratch).Fails fun _ e => e.Within T := by
  refine fails_bind (fun t e h => ?_) fun _ p hp => fails_bind (fun t e h => ?_) fun _ _ _ =>
    fails_bind fails_lift fun _ _ _ => fails_pure
  · obtain ⟨-, heq⟩ := Program.executes_done.1 h
    unfold draft at heq
    split at heq
    · split at heq
      · cases heq
        exact within_ofStorage hT _
      · cases heq
    · cases heq
  · have hagrees := agrees_of_draft hs (Program.executes_done.1 hp).2.symm
    obtain ⟨-, rfl⟩ := hagrees.executes_validate h
    exact within_validation (hT _ (.append (.append ⟨'t', rfl, by decide⟩)))

theorem Agrees.within_answer (hT : ∀ text, Apart text → T text) (h : p.Agrees s)
    {step : Lifecycle.Step} {reply : step.Reply} {u : Journal} {text : String}
    (hsuits : step.Suits s.mode) (hx : (p.answer step).Executes u reply)
    (hrefuses : Refuses text ⟨step, reply⟩) : T text := by
  cases step with
  | engine c =>
    refine Engine.Terraform.within_engine hT (h.config ▸ hsuits) (fun hmode => ?_) hx hrefuses
    obtain ⟨-, hbackend, hsome, -⟩ := h.workspace (h.config ▸ hmode)
    rw [hbackend, hsome]
  | storage c =>
    obtain ⟨e, -, htext⟩ := Option.map_eq_some_iff.1 hrefuses
    exact within_ofStorage hT e text htext
  | host r =>
    obtain ⟨e, -, htext⟩ := Option.map_eq_some_iff.1 hrefuses
    exact within_ofStorage hT e text htext

theorem IsRun.only {a : Lifecycle.Action} {K : Lifecycle.Step → Prop} (hK : a.MayDestroy K)
    {x : Lifecycle.RunTask RunResult} (hx : IsRun a x) : x.run.Only K := by
  cases hx with
  | apply => exact Lifecycle.Action.only_apply hK
  | destroy => exact Lifecycle.Action.only_destroy hK
  | fetch planOnly => exact Lifecycle.Action.only_fetch hK.toMayLook planOnly

theorem Agrees.mayDestroy (h : p.Agrees s) :
    p.action.MayDestroy (Lifecycle.Step.Suits s.mode) :=
  h.action ▸ Lifecycle.Action.mayDestroy_suits

def KeepsTo (p : Prepared) (m : Mode) {α : Type} (x : Lifecycle.RunTask α) : Prop :=
  ∀ u r, (p.run x).run.Executes u r → ∃ t, x.run.Executes t r ∧ Backed p.answer t u ∧
    ∀ e ∈ t, e.op.Suits m ∧ ∀ text ∈ disputes, ¬ Refuses text e

theorem Agrees.keepsTo (h : p.Agrees s) {α : Type} {x : Lifecycle.RunTask α}
    (hx : x.run.Only (Lifecycle.Step.Suits s.mode)) : p.KeepsTo s.mode x := by
  intro u r hu
  obtain ⟨t, ht, hbacked⟩ := executes_run hu
  refine ⟨t, ht, hbacked, fun e he => ⟨hx.executes ht e he, fun text hmem hrefuses => ?_⟩⟩
  obtain ⟨v, -, hanswer⟩ := hbacked.mem he
  exact h.within_answer (fun _ => Apart.not_mem_disputes) (hx.executes ht e he) hanswer hrefuses
    hmem

def Asks {S : Signature} {α : Type} : Program S α → Prop
  | .done _ => False
  | .step _ _ => True

theorem asks_bind {α β : Type} {x : Lifecycle.RunTask α} {f : α → Lifecycle.RunTask β}
    (h : Asks x.run) : Asks (x >>= f).run := by
  rw [ExceptT.run_bind]
  generalize x.run = q at h
  cases q with
  | done r => exact h.elim
  | step op next => trivial

theorem IsRun.asks {a : Lifecycle.Action} (hname : Text.isAllBlank a.envName = false)
    {x : Lifecycle.RunTask RunResult} (hx : IsRun a x) : Asks x.run := by
  have hvalidate : a.validate = pure () := by
    simp [Lifecycle.Action.validate, hname]
  cases hx with
  | apply =>
    rw [Lifecycle.Action.apply, hvalidate, pure_bind]
    refine asks_bind (asks_bind ?_)
    unfold Lifecycle.Action.prepareState
    cases a.backend with
    | workspace => exact asks_bind trivial
    | stored file => exact asks_bind trivial
  | destroy =>
    rw [Lifecycle.Action.destroy, hvalidate, pure_bind]
    exact asks_bind trivial
  | fetch planOnly =>
    rw [Lifecycle.Action.fetch, hvalidate, pure_bind]
    cases a.backend with
    | workspace => exact asks_bind trivial
    | stored file => exact asks_bind trivial

theorem Agrees.within_run (hT : ∀ text, Apart text → T text) (h : p.Agrees s)
    (hname : Text.isAllBlank p.action.envName = false) {x : Lifecycle.RunTask RunResult}
    (hx : IsRun p.action x) : (p.run x).Fails fun _ e => e.Within T := by
  rintro u _ hu text rfl
  obtain ⟨t, ht, hbacked⟩ := executes_run hu
  have honly := (hx.only h.mayDestroy).executes ht
  rcases hx.refused ht with ⟨rfl, -⟩ | hrefused
  · -- Refused with nothing done is refused for want of a name, and there is one.
    have hasks := hx.asks hname
    cases ht with
    | done r => exact hasks.elim
  · obtain ⟨e, he, hrefuses⟩ := hrefused.exists_refuses
    obtain ⟨v, -, hanswer⟩ := hbacked.mem he
    exact h.within_answer hT (honly e he) hanswer hrefuses

end Prepared

/-- The failure, also of one part of the request, is no dispute. -/
def Failure.Undisputed (f : Failure) : Prop := ∀ text ∈ disputes, f.validation? ≠ some text

def Failure.Within (T : String → Prop) (f : Failure) : Prop :=
  ∀ text, f.validation? = some text → T text

theorem Failure.IsOther.within {u : Journal} {f : Failure} (h : Failure.IsOther u f) :
    f.Within T := by
  intro text heq
  rw [Failure.IsOther] at h
  rw [h] at heq
  cases heq

theorem Failure.Within.undisputed {f : Failure} (h : f.Within (· ∉ disputes)) : f.Undisputed :=
  fun text hmem heq => h text heq hmem

namespace Command

variable {α : Type} {directory : String} {s : Settings} {p : Prepared}

theorem within_failure {e : Lifecycle.Error} (h : e.Within T) : (Failure.run e).Within T := by
  intro text heq
  cases e <;> cases heq
  exact h text rfl

theorem within_ofStep {y : StepTask α} (hy : y.Fails fun _ e => e.Within T) :
    (ofStep y).Fails fun _ f => f.Within T :=
  fails_mapError (hy.mono fun _ _ => within_failure)

theorem within_withScratch {body : String → Command α}
    (hbody : ∀ scratch, (body scratch).Fails fun _ f => f.Within T) :
    (withScratch body).Fails fun _ f => f.Within T := by
  intro t f h
  rcases executes_withScratch h with ⟨fault, hfault, -⟩ | ⟨scratch, v, hv, rfl⟩
  · cases hfault
    exact fun _ => nofun
  · exact hbody scratch v f hv

theorem agrees_of_ofSettings {scratch : String} {t : Journal} (hs : s.validate = .ok ())
    (hp : (ofStep (Prepared.ofSettings s scratch)).run.Executes t (.ok p)) :
    p.Agrees s ∧ Text.isAllBlank p.action.envName = false := by
  have hdraft := Prepared.executes_ofSettings (executes_mapError_ok.1 hp)
  refine ⟨Prepared.agrees_of_draft hs hdraft, ?_⟩
  rw [(Prepared.action_of_draft hdraft).1]
  exact Settings.not_blank_of_valid hs

section Within

variable (hT : ∀ text, Apart text → T text)

include hT

theorem within_readRequest : readRequest.Fails fun _ f => f.Within T := by
  refine fails_bind (fails_mapError fun _ _ _ _ => nofun) fun _ raw _ =>
    within_ofStep fun t e h => ?_
  have heq := (Program.executes_done.1 h).2
  unfold Request.ofBytes at heq
  split at heq
  · cases heq
  · cases heq
    exact within_validation (hT _ (.append ⟨'F', rfl, by decide⟩))

theorem within_run (h : p.Agrees s) (hname : Text.isAllBlank p.action.envName = false)
    {x : Lifecycle.RunTask RunResult} (hx : Prepared.IsRun p.action x) :
    (ofStep (p.run x)).Fails fun _ f => f.Within T :=
  within_ofStep (h.within_run hT hname hx)

theorem within_perform (h : p.Agrees s) (hname : Text.isAllBlank p.action.envName = false) :
    (perform s p).Fails fun _ f => f.Within T := by
  unfold perform
  split
  · exact fails_bind fails_lift fun _ _ _ =>
      fails_bind (within_run hT h hname (.fetch true)) fun _ _ _ => fails_pure
  · cases s.action with
    | create =>
      refine fails_bind fails_lift fun _ _ _ => fails_bind fails_lift fun u outcome houtcome => ?_
      cases outcome with
      | ok result => exact fails_bind fails_lift fun _ _ _ => fails_pure
      | error e =>
        have herror := within_failure
          (h.within_run hT hname .apply u e (executes_lift_ok.1 houtcome))
        dsimp only
        split
        · exact fails_bind fails_lift fun _ _ _ => fails_throw herror
        · exact fails_throw herror
    | destroy =>
      exact fails_bind fails_lift fun _ _ _ =>
        fails_bind (within_run hT h hname .destroy) fun _ _ _ => fails_bind fails_lift
          fun _ _ _ => fails_pure

theorem within_put (hname : ∀ r t name,
      (Settings.resolveEnvName r directory).run.Executes t (.ok name) →
        Text.isAllBlank name = true → T Lifecycle.Action.namelessText) :
    (put directory).Fails fun _ f => f.Within T := by
  refine fails_bind (within_readRequest hT) fun _ request _ =>
    fails_bind (within_ofStep (Settings.within_ofPut hT (hname request))) fun _ s hs => ?_
  obtain ⟨envName, hreflects⟩ := Settings.executes_ofPut (executes_mapError_ok.1 hs)
  refine within_withScratch fun scratch =>
    fails_bind (within_ofStep (Prepared.within_ofSettings hT hreflects.valid)) fun _ p hp => ?_
  obtain ⟨hagrees, hnamed⟩ := agrees_of_ofSettings hreflects.valid hp
  exact fails_bind (within_perform hT hagrees hnamed) fun _ _ _ =>
    fails_bind (fails_engineVersion p) fun _ _ _ => fails_lift

end Within

theorem undisputed_put : (put directory).Fails fun _ f => f.Undisputed :=
  (within_put (fun _ => Apart.not_mem_disputes)
    fun _ _ _ _ _ => Lifecycle.nameless_not_mem_disputes).mono
    fun _ _ => Failure.Within.undisputed

theorem within_requestedVersion {r : Request} {f : Failure} (h : requestedVersion r = .error f) :
    f.Within (· ∉ disputes) := by
  unfold requestedVersion at h
  split at h
  · cases h
    exact fun _ => nofun
  · split at h
    · cases h
    · next e hversion =>
      cases h
      intro text heq hmem
      cases e <;> cases heq
      exact Version.undisputed_validate hversion text hmem rfl

theorem undisputed_get : (get directory).Fails fun _ f => f.Undisputed := by
  have hT : ∀ text, Apart text → text ∉ disputes := fun _ => Apart.not_mem_disputes
  refine Fails.mono (E := fun _ f => f.Within (· ∉ disputes)) ?_
    fun _ _ => Failure.Within.undisputed
  refine fails_bind (within_readRequest hT) fun _ request _ =>
    fails_bind (fun t f h => within_requestedVersion (Program.executes_done.1 h).2.symm)
      fun _ requested _ => ?_
  split
  · exact fails_lift
  · refine fails_bind (within_ofStep Settings.undisputed_ofGet) fun _ s hs =>
      fails_bind fails_lift fun _ _ _ => ?_
    obtain ⟨envName, hreflects⟩ := Settings.executes_ofGet (executes_mapError_ok.1 hs)
    refine within_withScratch fun scratch =>
      fails_bind (within_ofStep (Prepared.within_ofSettings hT hreflects.valid)) fun _ p hp => ?_
    obtain ⟨hagrees, hnamed⟩ := agrees_of_ofSettings hreflects.valid hp
    exact fails_bind (within_run hT hagrees hnamed (.fetch _)) fun _ result _ =>
      fails_bind (fails_deliver.mono fun _ _ => Failure.IsOther.within) fun _ _ _ => fails_lift

/-- What is prepared agrees with its settings, is refused for its directory only, and keeps to
its mode. -/
structure Coherent (p : Prepared) (s : Settings) : Prop where
  agrees : p.Agrees s
  validate : ∀ u e, p.config.validate.Executes u (.error e) →
    u = [⟨.isDirectory p.config.source, false⟩] ∧
      e = .validation ("terraform source '" ++ p.config.source ++ "' is not a directory")
  run : ∀ x, Prepared.IsRun p.action x → p.KeepsTo s.mode x
  stateContents : p.KeepsTo s.mode p.action.stateContents
  engineVersion : p.KeepsTo s.mode Lifecycle.Action.engineVersion

theorem coherent_of_draft {scratch : String} (hs : s.validate = .ok ())
    (hp : Prepared.draft s scratch = .ok p) : Coherent p s := by
  have hagrees := Prepared.agrees_of_draft hs hp
  have hlook := hagrees.mayDestroy.toMayLook
  exact {
    agrees := hagrees
    validate := fun _ _ => hagrees.executes_validate
    run := fun _ hx => hagrees.keepsTo (hx.only hagrees.mayDestroy)
    stateContents := hagrees.keepsTo (Lifecycle.Action.only_stateContents hlook)
    engineVersion := hagrees.keepsTo ⟨trivial, fun _ => trivial⟩ }

/-- The settings of a request keep the state in one place, and all that is prepared from them has
the mode of that place. So no command reports that modes disagree. -/
theorem modes_agree (directory : String) :
    (∀ r t s, (Settings.ofPut r directory).run.Executes t (.ok s) ∨
        (Settings.ofGet r directory).run.Executes t (.ok s) →
      s.backendType.isSome = !s.storage.isSome ∧
        ∀ scratch p, Prepared.draft s scratch = .ok p → Coherent p s) ∧
    ∀ u f, (put directory).run.Executes u (.error f) ∨
        (get directory).run.Executes u (.error f) → f.Undisputed := by
  refine ⟨fun r t s h => ?_, fun u f h => h.elim (undisputed_put u f) (undisputed_get u f)⟩
  have hs : s.validate = .ok () := by
    rcases h with h | h
    · obtain ⟨envName, hreflects⟩ := Settings.executes_ofPut h
      exact hreflects.valid
    · obtain ⟨envName, hreflects⟩ := Settings.executes_ofGet h
      exact hreflects.valid
  refine ⟨?_, fun scratch p => coherent_of_draft hs⟩
  rcases Settings.place_of_valid hs with ⟨backendType, hb, hc⟩ | ⟨c, hb, hc⟩
  · rw [hb, hc]
    rfl
  · rw [hb, hc]
    rfl

-- A store next to the settings of a backend that is not named.
namespace Unnamed

def request : Request where
  source := {
    envName := some "dev"
    backendType := some " "
    backendConfig := Dict.ofList [("bucket", .string "states")]
    storage := some Stray.storage
    terraformSource := some "infra" }

def machine : (r : effects.Op) → effects.Reply r := Sample.machine "" false fun _ => []

def settingsRun : Journal × Except Lifecycle.Error Settings :=
  (Settings.ofPut request "/work").run.replay machine

def putRun : Journal × Except Failure Unit := (put "/work").run.replay machine

theorem modes_agree_unnamed :
    (∃ s p, (Settings.ofPut request "/work").run.Executes settingsRun.1 (.ok s) ∧
      Prepared.draft s "/tmp/run" = .ok p ∧ s.backendType.isSome = !s.storage.isSome ∧
      Coherent p s) ∧
    ∃ f, (put "/work").run.Executes putRun.1 (.error f) ∧ f.Undisputed := by
  obtain ⟨s, hs⟩ := Lifecycle.exists_ok (r := settingsRun.2) (by decide +kernel)
  obtain ⟨f, hf⟩ := Lifecycle.exists_error (r := putRun.2) (by decide +kernel)
  have hsettings : (Settings.ofPut request "/work").run.Executes settingsRun.1 (.ok s) :=
    hs ▸ Program.executes_replay _ _
  have hput : (put "/work").run.Executes putRun.1 (.error f) := hf ▸ Program.executes_replay _ _
  have hdraft : Prepared.draft s "/tmp/run" = .ok (.inDirectory s "/tmp/run" "/states") := by
    obtain ⟨envName, hreflects⟩ := Settings.executes_ofPut hsettings
    have hblank : nonBlank request.source.backendType = none := by decide +kernel
    rw [Prepared.draft_stored (hreflects.backendType.trans hblank) hreflects.storage rfl,
      Stray.rootOf_storage]
  obtain ⟨hplace, hcoherent⟩ := (modes_agree "/work").1 request settingsRun.1 s (.inl hsettings)
  exact ⟨⟨s, _, hsettings, hdraft, hplace, hcoherent "/tmp/run" _ hdraft⟩, f, hput,
    (modes_agree "/work").2 putRun.1 f (.inl hput)⟩

end Unnamed

end Command

end Pipeline

end Provision
