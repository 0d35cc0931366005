import Provision.Proofs.Host.Alike
import Provision.Proofs.Pipeline.Preview

/-!
# What a get reads of its parameters

A get is told to read the action, the module and the state file of its parameters only. It reads
no other for what it answers. But it also loads the files of variables and imports that are meant
for a put, and cannot do without them; and it runs the engine with the variables of the
environment that its parameters name.
-/

namespace Provision

open Provision.Host
open Provision.Task (executes_mapError_ok)

namespace Engine.Terraform

variable {R : Invocation → Invocation → Prop} {c c' : Config}

def Config.Akin (R : Invocation → Invocation → Prop) (c c' : Config) : Prop :=
  ∃ vars env, c' = { c with vars, env } ∧ ∀ arguments workspace,
    R (invocation c arguments workspace) (invocation c' arguments workspace)

theorem alike_run (h : c.Akin R c') (arguments : List String) (workspace : Option String) :
    Alike R (run c arguments workspace).run (run c' arguments workspace).run := by
  obtain ⟨vars, env, rfl, hR⟩ := h
  exact .task_bind (.refl _) fun _ =>
    .task_bind (.lift (.start (hR _ _) fun _ => .done _)) fun _ => .refl _

theorem alike_looks (h : c.Akin R c') {call : Engine.Call} (hc : call.Looks) :
    Alike R (engine c call) (engine c' call) := by
  have hrun := alike_run h
  obtain ⟨vars, env, rfl, -⟩ := h
  cases call with
  | initBackend name =>
    simp only [engine, initBackend]
    cases c.backendType with
    | none => exact .refl _
    | some backendType =>
      exact .task_bind (.refl _) fun _ => .task_bind (.refl _) fun _ =>
        .task_bind (hrun _ _) fun _ => .refl _
  | initLocal => exact .task_bind (hrun _ _) fun _ => .refl _
  | listWorkspaces => exact .task_bind (hrun _ _) fun _ => .refl _
  | pullState name =>
    obtain ⟨_, _, _, _, _, _, _, stateFile, _⟩ := c
    cases stateFile with
    | none => exact .task_bind (hrun _ _) fun _ => .refl _
    | some path => exact .refl _
  | readOutput name =>
    refine .task_bind (.refl _) fun missing => ?_
    cases missing with
    | true => exact .refl _
    | false => exact .task_bind (hrun _ _) fun _ => .refl _
  | engineVersion => exact .task_bind (hrun _ _) fun _ => .refl _
  | _ => exact hc.elim

end Engine.Terraform

namespace Pipeline

variable {R : Invocation → Invocation → Prop} {s s' : Settings} {p p' : Prepared}

structure Settings.Akin (R : Invocation → Invocation → Prop) (s s' : Settings) : Prop where
  envName : s'.envName = s.envName
  terraformSource : s'.terraformSource = s.terraformSource
  backendType : s'.backendType = s.backendType
  backendConfig : s'.backendConfig = s.backendConfig
  storage : s'.storage = s.storage
  outputModule : s'.outputModule = s.outputModule
  outputStatefile : s'.outputStatefile = s.outputStatefile
  processes : ∀ (c : Engine.Terraform.Config) vars arguments workspace, c.env = s.env →
    R (Engine.Terraform.invocation c arguments workspace)
      (Engine.Terraform.invocation { c with vars, env := s'.env } arguments workspace)

namespace Prepared

structure Akin (R : Invocation → Invocation → Prop) (p p' : Prepared) : Prop where
  backend : p'.action.backend = p.action.backend
  envName : p'.action.envName = p.action.envName
  driver : p'.driver = p.driver
  config : p.config.Akin R p'.config

theorem akin_terraformConfig (h : s.Akin R s') (scratch : String)
    (file : Option Lifecycle.StateFile) :
    (s.terraformConfig scratch file).Akin R (s'.terraformConfig scratch file) := by
  have hconfig : s'.terraformConfig scratch file =
      { s.terraformConfig scratch file with vars := s'.vars, env := s'.env } := by
    cases file <;>
      simp only [Settings.terraformConfig, h.terraformSource, h.backendType, h.backendConfig,
        h.outputModule]
  refine ⟨s'.vars, s'.env, hconfig, fun arguments workspace => ?_⟩
  rw [hconfig]
  refine h.processes _ _ _ _ ?_
  cases file <;> rfl

theorem drafts_akin (h : s.Akin R s') (hs : s.validate = .ok ()) (scratch : String) :
    (∃ e, draft s scratch = .error e ∧ draft s' scratch = .error e) ∨
      ∃ p p', draft s scratch = .ok p ∧ draft s' scratch = .ok p' ∧ p.Akin R p' := by
  have hconfig := akin_terraformConfig h scratch
  rcases Settings.place_of_valid hs with ⟨backendType, hb, -⟩ | ⟨c, hb, hc⟩
  · have hsome : s.backendType.isSome = true := by rw [hb]; rfl
    exact .inr ⟨_, _, draft_workspace hsome, draft_workspace (h.backendType ▸ hsome), rfl,
      h.envName, rfl, hconfig none⟩
  · rw [draft_legacy hb hc, draft_legacy (h.backendType.trans hb) (h.storage.trans hc)]
    cases Storage.Driver.ofConfig c with
    | error e => exact .inl ⟨_, rfl, rfl⟩
    | ok driver =>
      refine .inr ⟨_, _, rfl, rfl, ?_, h.envName, rfl, ?_⟩
      · simp only [withDriver, h.envName]
      · simp only [withDriver, h.envName]
        exact hconfig _

theorem Akin.looks (h : p.Akin R p') :
    (∀ planOnly, p'.action.fetch planOnly = p.action.fetch planOnly) ∧
      p'.action.stateContents = p.action.stateContents ∧ p'.action.mode = p.action.mode := by
  obtain ⟨⟨backend, envName, _, _⟩, _, _⟩ := p
  obtain ⟨⟨backend', envName', _, _⟩, _, _⟩ := p'
  obtain ⟨hbackend, henvName, -, -⟩ := h
  cases hbackend
  cases henvName
  exact ⟨fun _ => rfl, rfl, rfl⟩

theorem Akin.run (h : p.Akin R p') {files : String → Prop} {α : Type}
    {x : Lifecycle.RunTask α} (hx : x.run.Only (Lifecycle.Step.Looks files)) :
    Alike R (p.run x).run (p'.run x).run := by
  refine Alike.interpret hx fun step hstep => ?_
  cases step with
  | engine c => exact Engine.Terraform.alike_looks h.config hstep
  | storage c => exact h.driver ▸ .refl _
  | host r => exact .refl _

end Prepared

namespace Command

variable {directory : String} {requested : Version} {α : Type}

theorem alike_ofStep {x y : StepTask α} (h : Alike R x.run y.run) :
    Alike R (ofStep x).run (ofStep y).run :=
  .mapError h _

theorem alike_withScratch {body body' : String → Command α}
    (h : ∀ scratch, Alike R (body scratch).run (body' scratch).run) :
    Alike R (withScratch body).run (withScratch body').run :=
  .task_bind (.refl _) fun scratch => .task_bind (.outcome (h scratch)) fun _ => .refl _

theorem ofSettings_of_draft {scratch : String} (hp : Prepared.draft s scratch = .ok p) :
    Prepared.ofSettings s scratch = (do
      Task.ofProgram p.config.validate
      Task.lift (log .debug ("Running in " ++ p.action.mode.text ++ " mode for environment '" ++
        s.envName ++ "'"))
      return p) := by
  rw [Prepared.ofSettings, hp]
  rfl

theorem alike_prepared {k k' : Prepared → Command α} (h : s.Akin R s')
    (hs : s.validate = .ok ()) (scratch : String)
    (hk : ∀ p p', p.Akin R p' → Alike R (k p).run (k' p').run) :
    Alike R (ofStep (Prepared.ofSettings s scratch) >>= k).run
      (ofStep (Prepared.ofSettings s' scratch) >>= k').run := by
  rcases Prepared.drafts_akin h hs scratch with ⟨e, he, he'⟩ | ⟨p, p', hp, hp', hakin⟩
  · rw [Prepared.ofSettings, he, Prepared.ofSettings, he']
    exact .refl _
  · rw [ofSettings_of_draft hp, ofSettings_of_draft hp']
    obtain ⟨vars, env, hconfig, -⟩ := hakin.config
    have hvalidate : p'.config.validate = p.config.validate := by rw [hconfig]; rfl
    rw [hvalidate, hakin.looks.2.2, h.envName]
    simp only [ofStep, Task.mapError_bind, bind_assoc]
    refine .task_bind (.refl _) fun _ => .task_bind (.refl _) fun _ => ?_
    exact hk p p' hakin

theorem alike_engineVersion (h : p.Akin R p') :
    Alike R (engineVersion p).run (engineVersion p').run := by
  have hlooks : Lifecycle.Action.engineVersion.run.Only (Lifecycle.Step.Looks fun _ => False) :=
    Lifecycle.Action.looks_engineVersion
  exact .task_bind (.outcome (h.run hlooks)) fun _ => .refl _

theorem alike_deliver (hs : s.Akin R s') (h : p.Akin R p') (result : RunResult) :
    Alike R (deliver directory s p requested result).run
      (deliver directory s' p' requested result).run := by
  have hrest (state : Option Bytes) : Alike R
      (do
        writeOutputs directory result state
        let response := Response.ofResult result (← engineVersion p)
        return if requested.planOnly then { response with version := requested } else response :
        Command Response).run
      (do
        writeOutputs directory result state
        let response := Response.ofResult result (← engineVersion p')
        return if requested.planOnly then { response with version := requested } else response :
        Command Response).run :=
    .task_bind (.refl _) fun _ => .task_bind (alike_engineVersion h) fun _ => .refl _
  unfold deliver
  rw [hs.envName, hs.outputStatefile, h.looks.2.1]
  refine .task_bind (.refl _) fun _ => ?_
  split
  · exact .refl _
  · dsimp only
    split
    · rw [map_eq_pure_bind, bind_assoc, map_eq_pure_bind, bind_assoc]
      exact .task_bind (alike_ofStep (h.run Lifecycle.Action.looks_stateContents))
        fun content => hrest (some content)
    · exact hrest none

theorem alike_getRun (hs : s.Akin R s') (h : p.Akin R p') :
    Alike R (getRun directory requested s p).run (getRun directory requested s' p').run := by
  unfold getRun
  rw [h.looks.1]
  exact .task_bind (alike_ofStep (h.run (Lifecycle.Action.looks_fetch _))) fun result =>
    .task_bind (alike_deliver hs h result) fun _ => .refl _

def fetching (directory : String) (requested : Version) (s : Settings) : Command Unit := do
  banner "Fetching" s.envName
  withScratch fun scratch => do
    let p ← ofStep (Prepared.ofSettings s scratch)
    getRun directory requested s p

theorem alike_fetching (h : s.Akin R s') (hs : s.validate = .ok ()) :
    Alike R (fetching directory requested s).run (fetching directory requested s').run := by
  unfold fetching
  rw [h.envName]
  exact .task_bind (.refl _) fun _ => alike_withScratch fun scratch =>
    alike_prepared h hs scratch fun _ _ hp => alike_getRun h hp

/-- The answer to a request for a get. -/
def respond (directory : String) (r : Request) : Command Unit := do
  let requested ← ExceptT.mk (pure (requestedVersion r))
  if r.params.action = .destroy then writeResponse (.bare requested)
  else
    let s ← ofStep (Settings.ofGet r directory)
    fetching directory requested s

theorem get_eq : get directory = (do respond directory (← readRequest)) := rfl

def warning (r : Request) : Command Unit :=
  if r.source.privateKey.isSome then
    Task.lift (log .warn "`source.private_key` is ignored; configure module access on the agent")
  else pure ()

def loading (directory : String) (r : Request) : StepTask (Dict Json.Value × Dict String) := do
  let vars ← Settings.loadAll Yaml.Document.values? "var file" directory r.source.vars
    r.params.varFiles
  let imports ← Settings.loadAll Yaml.Document.texts? "import file" directory r.source.imports
    r.params.importFiles
  return (vars, imports)

def merged (directory : String) (r : Request) (requested : Version)
    (loaded : Dict Json.Value × Dict String) : Settings :=
  Settings.assembled r requested.envName (r.source.terraformSource.map (Path.join directory))
    loaded.1 loaded.2

def finish (directory : String) (requested : Version) (s : Settings) : Command Unit := do
  ofStep (ExceptT.mk (pure s.validate))
  fetching directory requested s

theorem alike_finish (h : s.Akin R s') :
    Alike R (finish directory requested s).run (finish directory requested s').run := by
  have hvalidate : s'.validate = s.validate :=
    Settings.validate_congr h.envName h.backendType h.storage
  unfold finish
  rw [hvalidate]
  cases hs : s.validate with
  | error e => exact .done (Except.error (Failure.run e))
  | ok _ => exact .task_bind (.refl _) fun _ => alike_fetching h hs

section Respond

variable {r : Request}

theorem respond_error {f : Failure} (h : requestedVersion r = .error f) :
    respond directory r = throw f := by
  rw [respond, h]
  rfl

theorem respond_destroy (hversion : requestedVersion r = .ok requested)
    (haction : r.params.action = .destroy) :
    respond directory r = writeResponse (.bare requested) := by
  rw [respond, hversion]
  exact if_pos haction

structure Loads (r : Request) (requested : Version) : Prop where
  version : requestedVersion r = .ok requested
  action : r.params.action ≠ .destroy

theorem Loads.ofGet_eq (h : Loads r requested) :
    Settings.ofGet r directory = Settings.merge r directory requested.envName
      (r.source.terraformSource.map (Path.join directory)) := by
  have hversion := h.version
  unfold requestedVersion at hversion
  split at hversion
  · cases hversion
  · next hsome =>
    split at hversion
    · next hvalid =>
      cases hversion
      simp only [Settings.ofGet, hsome, hvalid]
    · cases hversion

theorem Loads.respond_eq (h : Loads r requested) :
    respond directory r = (do
      warning r
      let loaded ← ofStep (loading directory r)
      finish directory requested (merged directory r requested loaded)) := by
  have hresponds : respond directory r = (do
      fetching directory requested (← ofStep (Settings.merge r directory requested.envName
        (r.source.terraformSource.map (Path.join directory))))) := by
    rw [respond, h.version, h.ofGet_eq]
    exact if_neg h.action
  have hassemble : Settings.assemble r directory requested.envName
      (r.source.terraformSource.map (Path.join directory)) = (do
        let loaded ← loading directory r
        ExceptT.mk (pure (merged directory r requested loaded).validate)
        return merged directory r requested loaded) := by
    simp only [Settings.assemble, loading, merged, bind_assoc, pure_bind]
  rw [hresponds, Settings.merge_eq, warning]
  split <;>
  · simp only [hassemble, ofStep, finish, Task.mapError_bind, bind_assoc]
    rfl

end Respond

/-- The requests agree in all that a get is told to read. -/
structure Agree (x y : Request) : Prop where
  source : y.source = x.source
  version : y.version = x.version
  action : y.params.action = x.params.action
  outputModule : y.params.outputModule = x.params.outputModule
  outputStatefile : y.params.outputStatefile = x.params.outputStatefile

def environment (r : Request) : Dict String := r.source.env.extend r.params.env

/-- What a get loads and has no use for. -/
def consult (directory : String) (r : Request) : StepTask Unit :=
  match requestedVersion r with
  | .error _ => pure ()
  | .ok _ =>
    if r.params.action = .destroy then pure ()
    else do
      let _ ← loading directory r
      return ()

section Agree

variable {x y : Request} {t : Journal} {r : Except Failure Unit}

theorem Agree.sameVersion (h : Agree x y) : requestedVersion y = requestedVersion x := by
  simp only [requestedVersion, h.version]

theorem Agree.loads (h : Agree x y) (hx : Loads x requested) : Loads y requested :=
  ⟨h.sameVersion.trans hx.version, h.action ▸ hx.action⟩

theorem Agree.warning (h : Agree x y) : warning y = warning x := by
  rw [Command.warning, Command.warning, h.source]

theorem Agree.akin (h : Agree x y)
    (hprocesses : ∀ (c : Engine.Terraform.Config) vars arguments workspace,
      c.env = environment x → R (Engine.Terraform.invocation c arguments workspace)
        (Engine.Terraform.invocation { c with vars, env := environment y } arguments workspace))
    (loaded loaded' : Dict Json.Value × Dict String) :
    (merged directory x requested loaded).Akin R (merged directory y requested loaded') where
  envName := rfl
  terraformSource := by simp only [merged, Settings.assembled, h.source]
  backendType := by simp only [merged, Settings.assembled, h.source]
  backendConfig := by simp only [merged, Settings.assembled, h.source]
  storage := by simp only [merged, Settings.assembled, h.source]
  outputModule := by simp only [merged, Settings.assembled, h.outputModule]
  outputStatefile := by simp only [merged, Settings.assembled, h.outputStatefile]
  processes := hprocesses

theorem Agree.alike_finish (h : Agree x y) (loaded loaded' : Dict Json.Value × Dict String) :
    Alike Invocation.SameCommand
      (finish directory requested (merged directory x requested loaded)).run
      (finish directory requested (merged directory y requested loaded')).run :=
  Command.alike_finish (h.akin (fun _ _ _ _ _ => rfl) loaded loaded')

theorem Agree.finish_eq (h : Agree x y) (henv : environment y = environment x)
    (loaded loaded' : Dict Json.Value × Dict String) :
    (finish directory requested (merged directory x requested loaded)).run =
      (finish directory requested (merged directory y requested loaded')).run := by
  refine (Command.alike_finish (h.akin (fun c vars arguments workspace hc => ?_) loaded loaded')).eq
  rw [henv, ← hc]
  rfl

/-- With the same files, the steps are the same, and so are the processes but for their
environment. -/
theorem alike_respond (h : Agree x y) (hvars : y.params.varFiles = x.params.varFiles)
    (himports : y.params.importFiles = x.params.importFiles) :
    Alike Invocation.SameCommand (respond directory x).run (respond directory y).run ∧
      (environment y = environment x → respond directory y = respond directory x) := by
  cases hversion : requestedVersion x with
  | error f =>
    rw [respond_error hversion, respond_error (h.sameVersion.trans hversion)]
    exact ⟨.refl _, fun _ => rfl⟩
  | ok requested =>
    have hversion' := h.sameVersion.trans hversion
    by_cases haction : x.params.action = .destroy
    · rw [respond_destroy hversion haction,
        respond_destroy hversion' (h.action.trans haction)]
      exact ⟨.refl _, fun _ => rfl⟩
    · have hx : Loads x requested := ⟨hversion, haction⟩
      have hloading : loading directory y = loading directory x := by
        rw [loading, loading, h.source, hvars, himports]
      rw [hx.respond_eq, (h.loads hx).respond_eq, h.warning, hloading]
      refine ⟨.task_bind (.refl _) fun _ => .task_bind (.refl _) fun loaded =>
        h.alike_finish loaded loaded, fun henv => ?_⟩
      refine bind_congr fun _ => bind_congr fun loaded => ?_
      exact (ExceptT.ext (h.finish_eq henv loaded loaded)).symm

/-- What a run of a get with `x` tells of one with `y`, which may name other files: nothing if the
files of `x` cannot be loaded, and all but the loading if they can. -/
inductive Mirrored (directory : String) (x y : Request) (t : Journal) (r : Except Failure Unit) :
    Prop where
  | refused {e : Lifecycle.Error} {before loads : Journal} (hr : r = .error (.run e))
      (ht : t = before ++ loads) (hreading : ∀ e ∈ t, e.op.IsReading)
      (hloads : (consult directory x).run.Executes loads (.error e))
  | answered {before loads after : Journal} (ht : t = before ++ (loads ++ after))
      (hloads : (consult directory x).run.Executes loads (.ok ()))
      (h : ∀ loads', (consult directory y).run.Executes loads' (.ok ()) → ∃ after',
        List.Forall₂ (Mirrors Invocation.SameCommand) after after' ∧
        (environment y = environment x → after' = after) ∧
        (respond directory y).run.Executes (before ++ (loads' ++ after')) r)

theorem Mirrored.unloaded (hx : consult directory x = pure ()) (hy : consult directory y = pure ())
    (hrespond : respond directory y = respond directory x)
    (ht : (respond directory x).run.Executes t r) : Mirrored directory x y t r := by
  have hcut : t = t ++ ([] ++ []) := by rw [List.append_nil, List.append_nil]
  refine .answered hcut ?_ fun loads' hloads' => ?_
  · rw [hx]
    exact Program.executes_done.2 ⟨rfl, rfl⟩
  · rw [hy] at hloads'
    obtain ⟨rfl, -⟩ := Program.executes_done.1 hloads'
    refine ⟨[], .nil, fun _ => rfl, ?_⟩
    rwa [List.append_nil, List.append_nil, hrespond]

theorem executes_warning {u : Journal} {result : Except Failure Unit}
    (h : (warning x).run.Executes u result) : result = .ok () ∧ ∀ e ∈ u, e.op.IsReading := by
  unfold warning at h
  split at h
  · obtain ⟨_, hlog, rfl⟩ := Task.executes_lift.1 h
    obtain rfl := Program.executes_one.1 hlog
    refine ⟨rfl, fun e he => ?_⟩
    obtain rfl := List.mem_singleton.1 he
    trivial
  · obtain ⟨rfl, rfl⟩ := Task.executes_pure.1 h
    exact ⟨rfl, fun _ he => absurd he List.not_mem_nil⟩

theorem reading_loading : (loading directory x).run.Only Host.Request.IsReading :=
  Task.only_bind (Settings.reading_loadAll _ _ _ _) fun _ =>
    Task.only_bind (Settings.reading_loadAll _ _ _ _) fun _ => Task.only_pure

theorem Loads.executes_consult (h : Loads x requested) {u : Journal}
    {result : Except Lifecycle.Error Unit} :
    (consult directory x).run.Executes u result ↔
      ∃ loaded, (loading directory x).run.Executes u loaded ∧ result = loaded.map fun _ => () := by
  have heq : consult directory x = (do
      let _ ← loading directory x
      return ()) := by
    rw [consult, h.version]
    exact if_neg h.action
  rw [heq, Task.executes_bind]
  constructor
  · rintro (⟨e, he, rfl⟩ | ⟨u₁, u₂, loaded, hloaded, hpure, rfl⟩)
    · exact ⟨_, he, rfl⟩
    · obtain ⟨rfl, rfl⟩ := Task.executes_pure.1 hpure
      exact ⟨_, by rwa [List.append_nil], rfl⟩
  · rintro ⟨loaded, hloaded, rfl⟩
    cases loaded with
    | error e => exact .inl ⟨e, hloaded, rfl⟩
    | ok loaded =>
      exact .inr ⟨u, [], loaded, hloaded, Task.executes_pure.2 ⟨rfl, rfl⟩,
        (List.append_nil u).symm⟩

theorem Loads.executes_respond (h : Loads x requested) :
    (respond directory x).run.Executes t r ↔
      ∃ before u, (warning x).run.Executes before (.ok ()) ∧ t = before ++ u ∧
        ((∃ e, (loading directory x).run.Executes u (.error e) ∧ r = .error (.run e)) ∨
          ∃ loads after loaded, (loading directory x).run.Executes loads (.ok loaded) ∧
            (finish directory requested (merged directory x requested loaded)).run.Executes
              after r ∧
            u = loads ++ after) := by
  rw [h.respond_eq, Task.executes_bind]
  constructor
  · rintro (⟨f, hf, -⟩ | ⟨before, u, _, hbefore, hrest, rfl⟩)
    · cases (executes_warning hf).1
    · refine ⟨before, u, hbefore, rfl, ?_⟩
      rcases Task.executes_bind.1 hrest with
        ⟨f, hf, rfl⟩ | ⟨loads, after, loaded, hloads, hafter, rfl⟩
      · obtain ⟨outcome, hloads, heq⟩ := Task.executes_mapError.1 hf
        cases outcome with
        | ok loaded => cases heq
        | error e => exact .inl ⟨e, hloads, congrArg _ (Except.error.inj heq)⟩
      · exact .inr ⟨loads, after, loaded, executes_mapError_ok.1 hloads, hafter, rfl⟩
  · rintro ⟨before, u, hbefore, rfl, hrest⟩
    refine .inr ⟨before, u, (), hbefore, Task.executes_bind.2 ?_, rfl⟩
    rcases hrest with ⟨e, he, rfl⟩ | ⟨loads, after, loaded, hloads, hafter, rfl⟩
    · exact .inl ⟨.run e, Task.executes_mapError.2 ⟨_, he, rfl⟩, rfl⟩
    · exact .inr ⟨loads, after, loaded, Task.executes_mapError.2 ⟨_, hloads, rfl⟩, hafter, rfl⟩

theorem Agree.mirrored_loads (h : Agree x y) (hx : Loads x requested)
    (ht : (respond directory x).run.Executes t r) : Mirrored directory x y t r := by
  have hy := h.loads hx
  obtain ⟨before, u, hbefore, rfl, ⟨e, he, rfl⟩ | ⟨loads, after, loaded, hloads, hafter, rfl⟩⟩ :=
    hx.executes_respond.1 ht
  · refine .refused rfl rfl (fun e he' => ?_) (hx.executes_consult.2 ⟨_, he, rfl⟩)
    rcases List.mem_append.1 he' with he' | he'
    · exact (executes_warning hbefore).2 e he'
    · exact reading_loading.executes he e he'
  · refine .answered rfl (hx.executes_consult.2 ⟨_, hloads, rfl⟩) fun loads' hloads' => ?_
    obtain ⟨outcome, houtcome, heq⟩ := hy.executes_consult.1 hloads'
    obtain ⟨loaded', rfl⟩ : ∃ loaded', outcome = .ok loaded' := by
      cases outcome with
      | ok loaded' => exact ⟨loaded', rfl⟩
      | error e => cases heq
    have hresponds (after' : Journal) (hafter' : (finish directory requested
        (merged directory y requested loaded')).run.Executes after' r) :
        (respond directory y).run.Executes (before ++ (loads' ++ after')) r :=
      hy.executes_respond.2 ⟨before, _, h.warning ▸ hbefore, rfl,
        .inr ⟨loads', after', loaded', houtcome, hafter', rfl⟩⟩
    by_cases henv : environment y = environment x
    · refine ⟨after, List.forall₂_same.2 fun e _ => .same e, fun _ => rfl, hresponds after ?_⟩
      rwa [← h.finish_eq henv loaded loaded']
    · obtain ⟨after', hlike, hafter'⟩ := (h.alike_finish loaded loaded').executes hafter
      exact ⟨after', hlike, fun heq => absurd heq henv, hresponds after' hafter'⟩

theorem Agree.mirrored (h : Agree x y) (ht : (respond directory x).run.Executes t r) :
    Mirrored directory x y t r := by
  cases hversion : requestedVersion x with
  | error f =>
    have hversion' := h.sameVersion.trans hversion
    refine .unloaded ?_ ?_ ?_ ht
    · rw [consult, hversion]
    · rw [consult, hversion']
    · rw [respond_error hversion, respond_error hversion']
  | ok requested =>
    by_cases haction : x.params.action = .destroy
    · have hversion' := h.sameVersion.trans hversion
      have haction' := h.action.trans haction
      refine .unloaded ?_ ?_ ?_ ht
      · rw [consult, hversion]
        exact if_pos haction
      · rw [consult, hversion']
        exact if_pos haction'
      · rw [respond_destroy hversion haction, respond_destroy hversion' haction']
    · exact h.mirrored_loads ⟨hversion, haction⟩ ht

end Agree

/-- A get reads its request and responds to it. Of the parameters that it is not told to read, the
files have to be loaded, and the variables of the environment are those of the processes; nothing
else makes a difference. -/
theorem get_reads_params (directory : String) :
    get directory = (do respond directory (← readRequest)) ∧
    ∀ x y, Agree x y →
      (y.params.varFiles = x.params.varFiles → y.params.importFiles = x.params.importFiles →
        Alike Invocation.SameCommand (respond directory x).run (respond directory y).run ∧
        (environment y = environment x → respond directory y = respond directory x)) ∧
      ∀ t r, (respond directory x).run.Executes t r → Mirrored directory x y t r :=
  ⟨get_eq, fun _ _ h => ⟨alike_respond h, fun _ _ => h.mirrored⟩⟩

-- Parameters that were meant for a put.
namespace Leftover

def plain : Request where
  source := { storage := some ⟨some "null", {}⟩ }
  version := some (.plan "dev")

def renamed : Request :=
  { plain with params := {
      envName := some "prod"
      terraformSource := some "elsewhere"
      vars := Dict.ofList [("size", .bool true)]
      deleteOnFailure := true
      imports := Dict.ofList [("address", "id")] } }

def filed : Request := { plain with params := { varFiles := ["vars.yml"] } }

def machine : (r : effects.Op) → effects.Reply r := Sample.machine "" false fun _ => []

def bare : (r : effects.Op) → effects.Reply r
  | .readFile _ => .error .notFound
  | r => machine r

def plainRun : Journal × Except Failure Unit := (respond "/out" plain).run.replay machine

def filesRun : Journal × Except Lifecycle.Error Unit := (consult "/out" filed).run.replay machine

theorem agree_renamed : Agree plain renamed := ⟨rfl, rfl, rfl, rfl, rfl⟩

theorem agree_filed : Agree plain filed := ⟨rfl, rfl, rfl, rfl, rfl⟩

/-- Without its file, a get fails that reads nothing of it. -/
theorem files_stop_get : Agree plain filed ∧ environment filed = environment plain ∧
    (∃ result, ((respond "/out" plain).run.replay bare).2 = .ok result) ∧
    ∃ f, ((respond "/out" filed).run.replay bare).2 = .error f :=
  ⟨agree_filed, rfl, Lifecycle.exists_ok (by decide +kernel),
    Lifecycle.exists_error (by decide +kernel)⟩

theorem get_reads_params_leftover :
    respond "/out" renamed = respond "/out" plain ∧
    (∃ loads, (consult "/out" filed).run.Executes loads (.ok ())) ∧
    Mirrored "/out" plain filed plainRun.1 plainRun.2 := by
  obtain ⟨⟨⟩, hfiles⟩ := Lifecycle.exists_ok (r := filesRun.2) (by decide +kernel)
  have hloads : (consult "/out" filed).run.Executes filesRun.1 (.ok ()) :=
    hfiles ▸ Program.executes_replay _ _
  exact ⟨(((get_reads_params "/out").2 plain renamed agree_renamed).1 rfl rfl).2 rfl,
    ⟨filesRun.1, hloads⟩,
    ((get_reads_params "/out").2 plain filed agree_filed).2 _ _ (Program.executes_replay _ _)⟩

end Leftover

end Command

end Pipeline

end Provision
