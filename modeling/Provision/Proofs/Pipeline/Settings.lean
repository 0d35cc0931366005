import Provision.Pipeline.Settings
import Provision.Proofs.Host.Journal

/-!
# What settings keep of a request

A put step and a get step of one resource agree on where the state is kept, because that is
taken from the resource alone. A get step without parameters reads no file, so its settings
are right as soon as those of a put step for the same environment were.
-/

namespace Provision.Pipeline

open Provision.Host
open Provision.Program (yields_done yields_one)
open Provision.Task (Achieves achieves_bind achieves_lift achieves_pure executes_bind_ok
  executes_pure_ok only_bind only_lift only_pure only_throw)

namespace Settings

variable {r : Request} {directory envName : String} {terraformSource : Option String}
  {s : Settings} {t : Journal}

def assembled (r : Request) (envName : String) (terraformSource : Option String)
    (vars : Dict Json.Value) (imports : Dict String) : Settings where
  action := r.params.action
  envName
  terraformSource
  backendType := nonBlank r.source.backendType
  backendConfig := r.source.backendConfig
  storage := r.source.storage
  vars := vars.extend r.params.vars
  env := r.source.env.extend r.params.env
  deleteOnFailure := r.source.deleteOnFailure || r.params.deleteOnFailure
  imports := imports.extend r.params.imports
  outputModule := nonBlank r.params.outputModule
  outputStatefile := r.params.outputStatefile
  planOnly := r.params.planOnly

def assemble (r : Request) (directory envName : String) (terraformSource : Option String) :
    StepTask Settings := do
  let vars ←
    loadAll Yaml.Document.values? "var file" directory r.source.vars r.params.varFiles
  let imports ←
    loadAll Yaml.Document.texts? "import file" directory r.source.imports r.params.importFiles
  ExceptT.mk (pure (assembled r envName terraformSource vars imports).validate)
  return assembled r envName terraformSource vars imports

theorem merge_eq : merge r directory envName terraformSource =
    (if r.source.privateKey.isSome then do
      Task.lift (log .warn
        "`source.private_key` is ignored; configure module access on the agent")
      assemble r directory envName terraformSource
    else assemble r directory envName terraformSource) := rfl

/-- The settings are right, and are those of the request. -/
structure Reflects (s : Settings) (r : Request) (envName : String) : Prop where
  valid : s.validate = .ok ()
  action : s.action = r.params.action
  planOnly : s.planOnly = r.params.planOnly
  outputStatefile : s.outputStatefile = r.params.outputStatefile
  backendType : s.backendType = nonBlank r.source.backendType
  storage : s.storage = r.source.storage
  envName : s.envName = envName

theorem assembled_of_merge
    (h : (merge r directory envName terraformSource).run.Executes t (.ok s)) :
    ∃ vars imports, s = assembled r envName terraformSource vars imports ∧ s.validate = .ok () := by
  obtain ⟨u, hu⟩ : ∃ u, (assemble r directory envName terraformSource).run.Executes u (.ok s) := by
    rw [merge_eq] at h
    split at h
    · obtain ⟨_, u, _, -, hu, -⟩ := executes_bind_ok.1 h
      exact ⟨u, hu⟩
    · exact ⟨t, h⟩
  obtain ⟨_, _, vars, -, h₁, rfl⟩ := executes_bind_ok.1 hu
  obtain ⟨_, _, imports, -, h₂, rfl⟩ := executes_bind_ok.1 h₁
  obtain ⟨_, _, _, hvalid, h₃, rfl⟩ := executes_bind_ok.1 h₂
  obtain ⟨-, rfl⟩ := executes_pure_ok.1 h₃
  exact ⟨vars, imports, rfl, (Program.executes_done.1 hvalid).2.symm⟩

theorem executes_merge (h : (merge r directory envName terraformSource).run.Executes t (.ok s)) :
    s.Reflects r envName := by
  obtain ⟨vars, imports, rfl, hvalid⟩ := assembled_of_merge h
  exact ⟨hvalid, rfl, rfl, rfl, rfl, rfl, rfl⟩

theorem executes_ofPut (h : (ofPut r directory).run.Executes t (.ok s)) :
    ∃ envName, s.Reflects r envName := by
  obtain ⟨_, _, envName, -, h₁, rfl⟩ := executes_bind_ok.1 h
  cases hsource : r.params.terraformSource.or r.source.terraformSource with
  | none =>
    rw [hsource] at h₁
    cases (Task.executes_throw.1 h₁).2
  | some source =>
    rw [hsource] at h₁
    exact ⟨envName, executes_merge h₁⟩

theorem validate_congr {s' : Settings} (henv : s'.envName = s.envName)
    (hbackend : s'.backendType = s.backendType) (hstorage : s'.storage = s.storage) :
    s'.validate = s.validate := by
  simp only [validate, henv, hbackend, hstorage]

theorem not_blank_of_valid (h : s.validate = .ok ()) : Text.isAllBlank s.envName = false := by
  unfold validate at h
  split at h
  · cases h
  · next hblank => exact Bool.not_eq_true _ ▸ hblank

theorem place_of_valid (h : s.validate = .ok ()) :
    (∃ backendType, s.backendType = some backendType ∧ s.storage = none) ∨
      ∃ c, s.backendType = none ∧ s.storage = some c := by
  unfold validate at h
  split at h
  · cases h
  · cases hb : s.backendType with
    | some backendType =>
      cases hs : s.storage with
      | some c =>
        rw [hb, hs] at h
        cases h
      | none => exact .inl ⟨backendType, rfl, rfl⟩
    | none =>
      cases hs : s.storage with
      | some c => exact .inr ⟨c, rfl, rfl⟩
      | none =>
        rw [hb, hs] at h
        cases h

theorem mode_legacy (hb : s.backendType = none) : s.mode = .legacy := by
  simp only [mode, hb, Option.isSome_none, Bool.false_eq_true, if_false]

section Get

variable {P : Event effects → Prop} {version : Version}

theorem achieves_ofGet {source : Source} (hversion : version.validate = .ok ())
    (hs : s.validate = .ok ()) (henv : version.envName = s.envName)
    (hbackend : nonBlank source.backendType = s.backendType)
    (hstorage : source.storage = s.storage) :
    (ofGet ⟨source, some version, {}⟩ directory).Achieves P fun _ s' =>
      s'.Reflects ⟨source, some version, {}⟩ s.envName := by
  have hassemble (terraformSource : Option String) :
      (assemble ⟨source, some version, {}⟩ directory version.envName terraformSource).Achieves P
        fun _ s' => s'.Reflects ⟨source, some version, {}⟩ s.envName := by
    have hvalid : (assembled ⟨source, some version, {}⟩ version.envName terraformSource
        source.vars source.imports).validate = .ok () := by
      rw [← hs]
      exact validate_congr henv hbackend hstorage
    refine achieves_bind (Q := fun _ vars => vars = source.vars) (achieves_pure rfl)
      fun _ vars hvars => ?_
    subst hvars
    refine achieves_bind (Q := fun _ imports => imports = source.imports) (achieves_pure rfl)
      fun _ imports himports => ?_
    subst himports
    refine achieves_bind (Q := fun _ _ => True) (yields_done ⟨(), hvalid, trivial⟩) fun _ _ _ => ?_
    exact achieves_pure ⟨hvalid, rfl, rfl, rfl, rfl, rfl, henv⟩
  simp only [ofGet, hversion, merge_eq]
  split
  · exact achieves_bind (Q := fun _ _ => True) (achieves_lift (yields_one fun _ _ => trivial))
      fun _ _ _ => hassemble _
  · exact hassemble _

end Get

theorem reading_readText (path : String) : (readText path).Only Request.IsReading := by
  refine Program.only_bind ⟨trivial, fun _ => trivial⟩ fun reply => ?_
  cases reply with
  | error fault => trivial
  | ok bytes =>
    dsimp only
    cases Text.Utf8.text? bytes with
    | none => trivial
    | some text => trivial

theorem reading_loadMap {α : Type} (parse : String → Option (Dict α)) (kind path : String) :
    (loadMap parse kind path).run.Only Request.IsReading := by
  refine only_bind (only_lift (reading_readText path)) fun reply => ?_
  cases reply with
  | error fault => exact only_throw
  | ok text =>
    dsimp only
    split
    · exact only_pure
    · cases parse text with
      | none => exact only_throw
      | some d => exact only_pure

theorem reading_loadAll {α : Type} (parse : String → Option (Dict α)) (kind : String)
    (start : Dict α) (files : List String) :
    (loadAll parse kind directory start files).run.Only Request.IsReading := by
  induction files generalizing start with
  | nil => exact only_pure
  | cons file rest ih => exact only_bind (reading_loadMap _ _ _) fun d => ih _

theorem reading_assemble :
    (assemble r directory envName terraformSource).run.Only Request.IsReading := by
  refine only_bind (reading_loadAll _ _ _ _) fun vars => ?_
  refine only_bind (reading_loadAll _ _ _ _) fun imports => ?_
  exact only_bind trivial fun _ => only_pure

theorem reading_merge : (merge r directory envName terraformSource).run.Only Request.IsReading := by
  rw [merge_eq]
  split
  · exact only_bind (only_lift ⟨trivial, fun _ => trivial⟩) fun _ => reading_assemble
  · exact reading_assemble

theorem reading_ofGet : (ofGet r directory).run.Only Request.IsReading := by
  unfold ofGet
  cases r.version with
  | none => exact only_throw
  | some version =>
    dsimp only
    cases version.validate with
    | error e => exact only_throw
    | ok _ => exact reading_merge

theorem reading_nameFromFile (path : String) : (nameFromFile path).run.Only Request.IsReading := by
  refine only_bind (only_lift (reading_readText path)) fun reply => ?_
  cases reply with
  | ok text => exact only_pure
  | error fault => exact only_throw

theorem reading_resolveEnvName : (resolveEnvName r directory).run.Only Request.IsReading := by
  have hname (name : String) : (do
      if name.isEmpty then throw (.validation "Resolved env_name is empty")
      return name : StepTask String).run.Only Request.IsReading := by
    dsimp only
    split
    · exact only_bind only_throw fun _ => only_pure
    · exact only_pure
  unfold resolveEnvName
  cases nonBlank r.params.envName with
  | some name => exact only_bind only_pure hname
  | none =>
    cases nonBlank r.params.envNameFile with
    | some file => exact only_bind (reading_nameFromFile _) hname
    | none =>
      cases r.params.generateRandomName with
      | true =>
        refine only_bind ?_ hname
        rw [map_eq_pure_bind]
        exact only_bind (only_lift ⟨trivial, fun _ => trivial⟩) fun u => only_pure
      | false =>
        cases nonBlank r.source.envName with
        | some name => exact only_bind only_pure hname
        | none => exact only_bind only_throw hname

theorem reading_ofPut : (ofPut r directory).run.Only Request.IsReading := by
  refine only_bind reading_resolveEnvName fun envName => ?_
  cases r.params.terraformSource.or r.source.terraformSource with
  | none => exact only_throw
  | some source => exact reading_merge

end Settings

end Provision.Pipeline
