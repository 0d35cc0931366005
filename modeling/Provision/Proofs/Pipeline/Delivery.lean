import Provision.Proofs.Host.Housing
import Provision.Proofs.Lifecycle.FailedDestroy
import Provision.Proofs.Pipeline.Replies

/-!
# What a get delivers

A get works in its scratch directory and writes at most three files into the output directory: the
name, the outputs and the state. It begins with them when its fetch has gone well, and it may stop
after each of them. An engine that writes in its working directory only has no hand in this, except
that a stored state is delivered as the engine has left its local copy. The host may refuse any
request about a file, which then leaves the disk as it was.
-/

namespace Provision

open Provision.Host
open Provision.Lifecycle (Record StateFile)
open Provision.Program (Backed)
open Provision.Task (executes_bind_ok executes_mapError_ok executes_pure_ok only_bind only_lift
  only_mapError only_pure)

namespace Lifecycle

open Record

variable {a : Action} {f : StateFile} {t : Record} {planOnly : Bool} {result : RunResult}

theorem Action.executes_fetch_stored (hb : a.backend = .stored f)
    (hzero : result.version.isZero = false)
    (h : (a.fetch planOnly).run.Executes t (.ok result)) :
    ∃ content u, Copied f content u ∧
      t = u ++ [ofEngine (.readOutput a.envName) (.ok result.output)] := by
  obtain ⟨t₁, _, _, -, h₁, rfl⟩ := executes_bind_ok.1 h
  rw [hb] at h₁
  obtain ⟨t₂, _, _, -, h₂, rfl⟩ := executes_bind_ok.1 h₁
  obtain ⟨t₃, t₄, v, hdownload, h₃, rfl⟩ := executes_bind_ok.1 h₂
  cases hv : v.isZero with
  | true =>
    simp only [hv, if_true] at h₃
    obtain ⟨-, hmissing⟩ := Action.executes_missingState h₃
    cases planOnly with
    | false =>
      obtain ⟨_, heq⟩ := hmissing
      cases heq
    | true =>
      cases hmissing
      cases hzero
  | false =>
    simp only [hv, Bool.false_eq_true, if_false] at h₃
    obtain ⟨_, _, output, houtput, h₄, rfl⟩ := executes_bind_ok.1 h₃
    obtain ⟨rfl, rfl⟩ := executes_pure_ok.1 h₄
    obtain rfl := Program.executes_one.1 houtput
    obtain ⟨content, hcopied⟩ := StateFile.executes_download hv (executes_mapError_ok.1 hdownload)
    refine ⟨content, t₁ ++ (t₂ ++ t₃), hcopied.preceded.preceded, ?_⟩
    simp only [List.append_assoc, List.append_nil, ofEngine]

def Step.Stays (root : String) : Step → Prop
  | .engine _ => True
  | .storage c => c.Looks
  | .host r => r.Stays root

theorem StateFile.isName_localName : Path.IsName StateFile.localName :=
  ⟨by decide, by decide, by decide⟩

theorem Action.mayLook_stays {root : String}
    (hcopy : ∀ f, a.backend = .stored f → f.localPath = Path.join root StateFile.localName) :
    a.MayLook (Step.Stays root) where
  log _ := trivial
  pullState := trivial
  readOutput := trivial
  initBackend _ := trivial
  listWorkspaces _ := trivial
  initLocal _ _ := trivial
  probe _ _ := trivial
  download _ _ := trivial
  readCopy _ _ := trivial
  writeCopy f hb _ := ⟨_, StateFile.isName_localName, hcopy f hb⟩
  makeParent f hb directory hparent := by
    rw [hcopy f hb, Path.parent?_join StateFile.isName_localName] at hparent
    exact (Option.some.inj hparent).symm

end Lifecycle

namespace Pipeline

variable {s : Settings} {p : Prepared} {scratch directory : String} {requested : Version}
  {result : RunResult} {u v : Journal}

theorem Settings.terraformSource_of_ofGet {request : Request}
    (hsource : request.source.terraformSource = none)
    (h : (ofGet request directory).run.Executes u (.ok s)) : s.terraformSource = none := by
  unfold ofGet at h
  split at h
  · cases (Task.executes_throw.1 h).2
  · split at h
    · cases (Task.executes_throw.1 h).2
    · obtain ⟨_, _, rfl, -⟩ := assembled_of_merge h
      exact Option.map_eq_none_iff.2 hsource

namespace Prepared

structure WorksIn (p : Prepared) (scratch : String) : Prop where
  source : p.config.source = scratch
  vars : p.config.scratch = scratch
  copy : ∀ f, p.action.backend = .stored f → f.localPath = Path.join scratch StateFile.localName
  views : p.driver.Views
  workspace : p.action.backend = .workspace → p.config.stateFile = none

theorem worksIn_of_draft (hsource : s.terraformSource = none) (h : draft s scratch = .ok p) :
    p.WorksIn scratch := by
  have hviews := views_of_draft h
  unfold draft at h
  split at h
  · split at h
    · cases h
    · cases h
      refine ⟨congrArg (·.getD scratch) hsource, rfl, fun f hb => ?_, hviews, nofun⟩
      cases hb
      rfl
  · cases h
    exact ⟨congrArg (·.getD scratch) hsource, rfl, nofun, hviews, fun _ => rfl⟩

namespace WorksIn

variable (h : p.WorksIn scratch)

include h

theorem mayRun : Engine.Terraform.MayRun p.config (Host.Request.Stays scratch) where
  log _ := trivial
  start _ _ := h.source
  findState _ := trivial
  readState _ := trivial
  selectBackend _ := ⟨"terrace_backend_override.tf.json", ⟨by decide, by decide, by decide⟩, by
    rw [Engine.Terraform.Config.overridePath, h.source]⟩
  writeVars _ := ⟨"vars.tfvars.json", ⟨by decide, by decide, by decide⟩, by
    rw [Engine.Terraform.Config.varsPath, h.vars]⟩

theorem stays_run {α : Type} {x : Lifecycle.RunTask α}
    (hx : x.run.Only (Lifecycle.Step.Stays scratch)) :
    (p.run x).run.Only (Host.Request.Stays scratch) := by
  refine Program.only_interpret hx fun step hstep => ?_
  cases step with
  | engine c => exact Engine.Terraform.only_engine h.mayRun c
  | storage c => exact (h.views c hstep).mono fun _ hview => hview.isInert.stays
  | host r => exact ⟨hstep, fun _ => trivial⟩

theorem stays_fetch (planOnly : Bool) :
    (p.run (p.action.fetch planOnly)).run.Only (Host.Request.Stays scratch) :=
  h.stays_run (Lifecycle.Action.only_fetch (Lifecycle.Action.mayLook_stays h.copy) planOnly)

theorem stays_stateContents :
    (p.run p.action.stateContents).run.Only (Host.Request.Stays scratch) :=
  h.stays_run (Lifecycle.Action.only_stateContents (Lifecycle.Action.mayLook_stays h.copy))

theorem stays_engineVersion :
    (Command.engineVersion p).run.Only (Host.Request.Stays scratch) := by
  refine only_bind (only_lift (Program.only_bind
    (Engine.Terraform.only_engine h.mayRun .engineVersion) fun _ => trivial)) fun outcome => ?_
  cases outcome with
  | ok version => exact only_pure
  | error e => exact only_bind (only_lift ⟨trivial, fun _ => trivial⟩) fun _ => only_pure

end WorksIn

section Copy

variable {current : Location} {Process : Disk → Invocation → Disk → Prop} {d d' : Disk}

/-- The engine leaves the local copy alone when it reads the outputs. -/
def KeepsCopy (current : Location) (Process : Disk → Invocation → Disk → Prop) : Prop :=
  Disk.Spares current Process (fun i => i.arguments.head? = some "output") StateFile.localName

def IsOutput (root : String) : Host.Request → Prop
  | .start i => i.directory = root ∧ i.arguments.head? = some "output"
  | r => r.IsInert

theorem WorksIn.copy_of_readOutput (h : p.WorksIn scratch)
    (hprocess : Disk.Confined current Process) (hkeeps : KeepsCopy current Process)
    {env : String} {r : Except Lifecycle.Error Provision.Outputs}
    (hr : (Engine.Terraform.readOutput p.config env).run.Executes u r)
    (hu : Passes (Disk.Lodges current Process) d u d') :
    d'.lookup (Disk.place current scratch ++ [StateFile.localName]) =
      d.lookup (Disk.place current scratch ++ [StateFile.localName]) := by
  have honly : (Engine.Terraform.readOutput p.config env).run.Only (IsOutput scratch) :=
    Engine.Terraform.only_readOutput (fun _ => trivial) (fun _ => trivial)
      (fun _ _ => ⟨h.source, rfl⟩) env
  refine hu.preserves (I := fun d₁ =>
    d₁.lookup (Disk.place current scratch ++ [StateFile.localName]) =
      d.lookup (Disk.place current scratch ++ [StateFile.localName]))
    (fun d₁ e d₂ he hlodges heq => ?_) rfl
  refine Eq.trans ?_ heq
  have hkind := honly.executes hr e he
  obtain ⟨op, reply⟩ := e
  cases op with
  | start i =>
    obtain ⟨hdirectory, houtput⟩ := hkind
    cases hentered : d₁.enter current i.directory with
    | ok w =>
      have hsame := hkeeps d₁ i d₂ w hlodges houtput hentered
      rwa [Disk.place_of_enter hentered, hdirectory] at hsame
    | error fault =>
      refine hprocess d₁ i d₂ hlodges _ fun w hw => ?_
      rw [hentered] at hw
      cases hw
  | _ => rw [hlodges.unchanged hkind]

theorem WorksIn.copy_of_fetch (h : p.WorksIn scratch) (hprocess : Disk.Confined current Process)
    {f : StateFile} (hb : p.action.backend = .stored f) (hzero : result.version.isZero = false)
    {t : Record} {planOnly : Bool} (hfetch : (p.action.fetch planOnly).run.Executes t (.ok result))
    (hbacked : Backed p.answer t u) (hu : Passes (Disk.Lodges current Process) d u d') :
    ∃ (stored : Bytes) (v : Storage.ObjectVersion),
      ⟨.storage (.download f.key),
        (.ok (stored, v) : Except Storage.Error (Bytes × Storage.ObjectVersion))⟩ ∈ t ∧
      (KeepsCopy current Process →
        d'.lookup (Disk.place current scratch ++ [StateFile.localName]) =
          some (.file stored)) := by
  obtain ⟨stored, w, ⟨v, w, line, hmem, rfl⟩, rfl⟩ :=
    Lifecycle.Action.executes_fetch_stored hb hzero hfetch
  refine ⟨stored, v, List.mem_append_left _ (List.mem_append_left _ hmem), fun hkeeps => ?_⟩
  -- What came before the copy does not matter, and after it the outputs were read.
  obtain ⟨_, u₂, hbefore, houtput, rfl⟩ := hbacked.append
  obtain ⟨u₁, _, -, hcopy, rfl⟩ := hbefore.append
  obtain ⟨_, _, hwrite, hlog, rfl⟩ := Program.Backed.cons_iff.1 hcopy
  obtain rfl := Program.executes_one.1 hwrite
  obtain rfl := Program.executes_one.1 (Program.Backed.one_iff.1 hlog)
  obtain ⟨d₃, hfirst, hlast⟩ := passes_append.1 hu
  obtain ⟨d₁, -, hcopied⟩ := passes_append.1 hfirst
  obtain ⟨d₂, hput, hlogged⟩ := passes_cons.1 hcopied
  obtain rfl : d₃ = d₂ := unchanged_of_inert hlogged fun e he => by
    rw [List.mem_singleton.1 he]
    trivial
  rw [h.copy_of_readOutput hprocess hkeeps (Program.Backed.one_iff.1 houtput) hlast]
  rw [h.copy f hb] at hput
  obtain ⟨-, -, rfl⟩ := Disk.write_join_ok StateFile.isName_localName hput.written
  rw [Disk.lookup_put d₁ Disk.place_append_ne_nil, if_pos rfl]

end Copy

end Prepared

namespace Command

open Prepared (KeepsCopy WorksIn)

/-- A delivered state was printed by the engine after the fetch, or was read from the local copy of
the object that the fetch had downloaded. -/
inductive StateOf (p : Prepared) (kept : Prop) (t : Record) (u : Journal) (content : Bytes) :
    Prop where
  | pulled {finished : Finished} (hbackend : p.action.backend = .workspace)
      (hpull : ⟨.start (Engine.Terraform.invocation p.config ["state", "pull"]
        (some p.action.envName)), (.ok finished : Except Fault Finished)⟩ ∈ u)
      (hcontent : content = finished.output) : StateOf p kept t u content
  | copied {f : StateFile} {stored : Bytes} {v : Storage.ObjectVersion}
      (hbackend : p.action.backend = .stored f)
      (hdownload : ⟨.storage (.download f.key),
        (.ok (stored, v) : Except Storage.Error (Bytes × Storage.ObjectVersion))⟩ ∈ t)
      (hread : ⟨.readFile f.localPath, (.ok content : Except Fault Bytes)⟩ ∈ u)
      (hsame : kept → content = stored) : StateOf p kept t u content

theorem StateOf.mono {kept : Prop} {t : Record} {content : Bytes} (h : StateOf p kept t u content)
    (hu : u ⊆ v) : StateOf p kept t v content := by
  cases h with
  | pulled hbackend hpull hcontent => exact .pulled hbackend (hu hpull) hcontent
  | copied hbackend hdownload hread hsame => exact .copied hbackend hdownload (hu hread) hsame

variable {current : Location} {Process : Disk → Invocation → Disk → Prop}
  {d₀ d₁ d₂ d d' : Disk} {t : Record} {kept : Prop} {name : String} {content : Bytes}

def HasCopy (current : Location) (scratch : String) (p : Prepared) (kept : Prop) (t : Record)
    (d : Disk) : Prop :=
  ∀ f, p.action.backend = .stored f → ∃ (stored : Bytes) (v : Storage.ObjectVersion),
    ⟨.storage (.download f.key),
      (.ok (stored, v) : Except Storage.Error (Bytes × Storage.ObjectVersion))⟩ ∈ t ∧
    (kept → d.lookup (Disk.place current scratch ++ [StateFile.localName]) = some (.file stored))

theorem stateOf_of_stateContents (hp : p.WorksIn scratch)
    (hcopy : HasCopy current scratch p kept t d)
    (h : (p.run p.action.stateContents).run.Executes u (.ok content))
    (hu : Passes (Disk.Lodges current Process) d u d') : StateOf p kept t u content := by
  obtain ⟨steps, hsteps, hbacked⟩ := Prepared.executes_run h
  unfold Lifecycle.Action.stateContents at hsteps
  cases hb : p.action.backend with
  | workspace =>
    rw [hb] at hsteps
    obtain rfl := Program.executes_one.1 hsteps
    obtain ⟨finished, hcontent, hpull⟩ := Engine.Terraform.executes_pullState (hp.workspace hb)
      (Program.Backed.one_iff.1 hbacked)
    exact .pulled hb hpull hcontent
  | stored f =>
    rw [hb] at hsteps
    obtain rfl := Program.executes_one.1 (executes_mapError_ok.1 (executes_mapError_ok.1 hsteps))
    obtain rfl := Program.executes_one.1 (Program.Backed.one_iff.1 hbacked)
    obtain ⟨stored, v, hdownload, hsame⟩ := hcopy f hb
    refine .copied hb hdownload (List.mem_singleton_self _) fun hkept => ?_
    obtain ⟨_, hread, -⟩ := passes_cons.1 hu
    rw [hp.copy f hb] at hread
    obtain ⟨l, hseat, hfile⟩ := (Disk.read_join_ok StateFile.isName_localName).1 hread.found
    rw [Disk.eq_of_seat hseat, hsame hkept] at hfile
    cases hfile
    rfl

def outputs (result : RunResult) (state : Option Bytes) : List (String × Bytes) :=
  ("metadata", Text.Utf8.encode (Json.Value.ofDict result.rawOutput).compact) ::
    (state.map fun content => (StateFile.localName, content)).toList

def contents (envName : String) (result : RunResult) (state : Option Bytes) :
    List (String × Bytes) :=
  ("name", Text.Utf8.encode envName) ::
    if result.version.isZero then [] else outputs result state

theorem contents_of_zero (envName : String) (state : Option Bytes)
    (h : result.version.isZero = true) :
    contents envName result state = [("name", Text.Utf8.encode envName)] := by
  rw [contents, if_pos h]

theorem contents_of_found (envName : String) (state : Option Bytes)
    (h : result.version.isZero = false) :
    contents envName result state =
      ("name", Text.Utf8.encode envName) :: outputs result state := by
  rw [contents, h, if_neg Bool.false_ne_true]

/-- What has been written by the end of a get that fetched `result`: the first of the files, all of
them if it has gone well. A state is among them only if there is one and it was wanted. -/
structure Delivers {α : Type} (directory envName : String) (wanted : Bool) (result : RunResult)
    (source : Bytes → Prop) (r : Except Failure α) (state : Option Bytes)
    (files : List (String × Bytes)) : Prop where
  begun : files <+: contents envName result state
  named : files = [] → ∃ fault, r = .error (.noFile "name" (Path.join directory "name") fault)
  ended : ∀ x, r = .ok x → files = contents envName result state ∧
    (wanted = true → result.version.isZero = false → state.isSome = true)
  state : ∀ content, state = some content →
    wanted = true ∧ result.version.isZero = false ∧ source content

theorem Delivers.congr {α β : Type} {envName : String} {wanted : Bool} {source more : Bytes → Prop}
    {r : Except Failure α} {r' : Except Failure β} {state : Option Bytes}
    {files : List (String × Bytes)}
    (h : Delivers directory envName wanted result source r state files)
    (herror : ∀ f, r = .error f → r' = .error f) (hok : ∀ y, r' = .ok y → ∃ x, r = .ok x)
    (hsource : ∀ content, source content → more content) :
    Delivers directory envName wanted result more r' state files where
  begun := h.begun
  named hnil := by
    obtain ⟨fault, hr⟩ := h.named hnil
    exact ⟨fault, herror _ hr⟩
  ended y hy := by
    obtain ⟨x, hx⟩ := hok y hy
    exact h.ended x hx
  state content hcontent := by
    obtain ⟨hwanted, hzero, hfrom⟩ := h.state content hcontent
    exact ⟨hwanted, hzero, hsource _ hfrom⟩

section Writing

variable (hprocess : Disk.Confined current Process)
  (hdirectory : d₀.lookup (Disk.place current directory) = some .directory)
  (hhouse : Disk.Houses current scratch d₀ d₁)

include hdirectory hhouse

theorem holds_writeFile {r : Except Failure Unit} (hname : Path.IsName name)
    (h : (writeFile directory name content).run.Executes u r)
    (hu : Passes (Disk.Lodges current Process) d₁ u d₂) :
    (∃ fault, r = .error (.noFile name (Path.join directory name) fault) ∧
      Disk.Houses current scratch d₀ d₂) ∨
    (r = .ok () ∧ Disk.Houses current scratch
      (d₀.holding (Disk.place current directory) [(name, content)]) d₂ ∧
      ∀ l, Disk.place current scratch <+: l → d₂.lookup l = d₁.lookup l) := by
  obtain ⟨reply, hreply, rfl⟩ := Task.executes_mapError.1 h
  obtain rfl := Program.executes_one.1 hreply
  obtain ⟨_, hwrite, hnil⟩ := passes_cons.1 hu
  obtain rfl := passes_nil.1 hnil
  cases reply with
  | error fault => exact .inl ⟨fault, rfl, hwrite.not_written ▸ hhouse⟩
  | ok _ =>
    obtain ⟨hhouse', houtside, rfl⟩ := hhouse.delivered hname hdirectory hwrite
    refine .inr ⟨rfl, hhouse', fun l hl => ?_⟩
    rw [Disk.lookup_put d₁ Disk.place_append_ne_nil, if_neg]
    rintro rfl
    exact houtside hl

theorem holds_writeOutputs {state : Option Bytes} {r : Except Failure Unit}
    (h : (writeOutputs directory result state).run.Executes u r)
    (hu : Passes (Disk.Lodges current Process) d₁ u d₂) :
    ∃ files, Disk.Houses current scratch
        (d₀.holding (Disk.place current directory) files) d₂ ∧
      files <+: outputs result state ∧ (r = .ok () → files = outputs result state) := by
  have hname : Path.IsName "metadata" := ⟨by decide, by decide, by decide⟩
  rcases Task.executes_bind.1 h with ⟨f, hf, rfl⟩ | ⟨u₁, u₂, _, h₁, h₂, rfl⟩
  · rcases holds_writeFile hdirectory hhouse hname hf hu with ⟨fault, -, hhouse'⟩ | ⟨heq, -, -⟩
    · exact ⟨[], hhouse', List.nil_prefix, nofun⟩
    · cases heq
  · obtain ⟨d₃, hu₁, hu₂⟩ := passes_append.1 hu
    rcases holds_writeFile hdirectory hhouse hname h₁ hu₁ with ⟨_, heq, -⟩ | ⟨-, hhouse', -⟩
    · cases heq
    cases state with
    | none =>
      obtain ⟨rfl, rfl⟩ := Task.executes_pure.1 h₂
      obtain rfl := passes_nil.1 hu₂
      exact ⟨_, hhouse', List.prefix_refl _, fun _ => rfl⟩
    | some content =>
      rcases holds_writeFile (Disk.lookup_holding hdirectory _) hhouse' StateFile.isName_localName
        h₂ hu₂ with ⟨fault, rfl, hhouse''⟩ | ⟨-, hhouse'', -⟩
      · exact ⟨[("metadata", _)], hhouse'', ⟨[(StateFile.localName, content)], rfl⟩, nofun⟩
      · rw [← Disk.holding_append] at hhouse''
        exact ⟨_, hhouse'', List.prefix_refl _, fun _ => rfl⟩

include hprocess

theorem holds_rest (hp : p.WorksIn scratch) {state : Option Bytes} {r : Except Failure Response}
    (h : (do
      writeOutputs directory result state
      let response := Response.ofResult result (← engineVersion p)
      return if requested.planOnly then { response with version := requested } else response :
        Command Response).run.Executes u r)
    (hu : Passes (Disk.Lodges current Process) d₁ u d₂) :
    ∃ files, Disk.Houses current scratch
        (d₀.holding (Disk.place current directory) files) d₂ ∧
      files <+: outputs result state ∧ ∀ x, r = .ok x → files = outputs result state := by
  rcases Task.executes_bind.1 h with ⟨f, hf, rfl⟩ | ⟨u₁, u₂, _, h₁, h₂, rfl⟩
  · obtain ⟨files, hhouse', hbegun, -⟩ := holds_writeOutputs hdirectory hhouse hf hu
    exact ⟨files, hhouse', hbegun, nofun⟩
  · obtain ⟨d₃, hu₁, hu₂⟩ := passes_append.1 hu
    obtain ⟨files, hhouse', hbegun, hended⟩ := holds_writeOutputs hdirectory hhouse h₁ hu₁
    have hstays := only_bind hp.stays_engineVersion fun version =>
      only_pure (a := if requested.planOnly then
        { Response.ofResult result version with version := requested }
        else Response.ofResult result version)
    exact ⟨files, hhouse'.run hprocess (hstays.executes h₂) hu₂, hbegun, fun _ _ => hended rfl⟩

section Named

variable {envName : String}
  (hnamed : Disk.Houses current scratch
    (d₀.holding (Disk.place current directory) [("name", Text.Utf8.encode envName)]) d₁)

include hnamed

omit hhouse hdirectory in
theorem delivers_nothing {wanted : Bool} {source : Bytes → Prop} {r : Except Failure Response}
    (hzero : result.version.isZero = true)
    (h : (do
      sayLine "No state yet; nothing to fetch"
      return .bare requested : Command Response).run.Executes u r)
    (hu : Passes (Disk.Lodges current Process) d₁ u d₂) :
    ∃ files state, Disk.Houses current scratch
        (d₀.holding (Disk.place current directory) files) d₂ ∧
      Delivers directory envName wanted result source r state files := by
  have hstays : (do
      sayLine "No state yet; nothing to fetch"
      return .bare requested : Command Response).run.Only (Host.Request.Stays scratch) :=
    only_bind (only_lift ⟨trivial, fun _ => trivial⟩) fun _ => only_pure
  have hcontents := contents_of_zero envName none hzero
  refine ⟨_, none, hnamed.run hprocess (hstays.executes h) hu, hcontents ▸ List.prefix_refl _,
    nofun, fun _ _ => ⟨hcontents.symm, fun _ hfound => ?_⟩, nofun⟩
  cases hzero.symm.trans hfound

omit hhouse in
theorem delivers_rest (hp : p.WorksIn scratch) {wanted : Bool} {source : Bytes → Prop}
    (state : Option Bytes) {r : Except Failure Response}
    (hfound : result.version.isZero = false) (hpresent : wanted = true → state.isSome = true)
    (hstate : ∀ content, state = some content → wanted = true ∧ source content)
    (h : (do
      writeOutputs directory result state
      let response := Response.ofResult result (← engineVersion p)
      return if requested.planOnly then { response with version := requested } else response :
        Command Response).run.Executes u r)
    (hu : Passes (Disk.Lodges current Process) d₁ u d₂) :
    ∃ files state, Disk.Houses current scratch
        (d₀.holding (Disk.place current directory) files) d₂ ∧
      Delivers directory envName wanted result source r state files := by
  obtain ⟨files, hhouse', hbegun, hended⟩ :=
    holds_rest hprocess (Disk.lookup_holding hdirectory _) hnamed hp h hu
  rw [← Disk.holding_append] at hhouse'
  refine ⟨_, state, hhouse', ?_, nofun, fun x hx => ⟨?_, fun hwanted _ => hpresent hwanted⟩,
    fun content hcontent => ?_⟩
  · rw [contents_of_found _ _ hfound]
    exact (List.prefix_cons_inj _).2 hbegun
  · rw [contents_of_found _ _ hfound, hended x hx]
    rfl
  · obtain ⟨hwanted, hsource⟩ := hstate content hcontent
    exact ⟨hwanted, hfound, hsource⟩

omit hhouse in
theorem delivers_found (hp : p.WorksIn scratch) (hcopy : HasCopy current scratch p kept t d₁)
    {wanted : Bool} {r : Except Failure Response} (hfound : result.version.isZero = false)
    (h : (do
      let state ← if wanted then some <$> ofStep (p.run p.action.stateContents) else pure none
      writeOutputs directory result state
      let response := Response.ofResult result (← engineVersion p)
      return if requested.planOnly then { response with version := requested } else response :
        Command Response).run.Executes u r)
    (hu : Passes (Disk.Lodges current Process) d₁ u d₂) :
    ∃ files state, Disk.Houses current scratch
        (d₀.holding (Disk.place current directory) files) d₂ ∧
      Delivers directory envName wanted result (StateOf p kept t u) r state files := by
  cases wanted with
  | false =>
    simp only [Bool.false_eq_true, if_false, pure_bind] at h
    exact delivers_rest hprocess hdirectory hnamed hp none hfound nofun nofun h hu
  | true =>
    have hstays := only_mapError (f := Failure.run) hp.stays_stateContents
    simp only [if_true, map_eq_pure_bind, bind_assoc, pure_bind] at h
    rcases Task.executes_bind.1 h with ⟨f, hf, rfl⟩ | ⟨u₁, u₂, content, h₁, h₂, rfl⟩
    · refine ⟨_, none, hnamed.run hprocess (hstays.executes hf) hu, ?_, nofun, nofun, nofun⟩
      exact contents_of_found envName none hfound ▸ ⟨_, rfl⟩
    · obtain ⟨d₃, hu₁, hu₂⟩ := passes_append.1 hu
      have hsource : StateOf p kept t u₁ content :=
        stateOf_of_stateContents hp hcopy (executes_mapError_ok.1 h₁) hu₁
      refine delivers_rest hprocess hdirectory (hnamed.run hprocess (hstays.executes h₁) hu₁) hp
        (some content) hfound (fun _ => rfl) (fun other hother => ?_) h₂ hu₂
      obtain rfl := Option.some.inj hother
      exact ⟨rfl, hsource.mono (List.subset_append_left _ _)⟩

end Named

theorem delivers (hp : p.WorksIn scratch)
    (hcopy : result.version.isZero = false → HasCopy current scratch p kept t d₁)
    {r : Except Failure Response} (h : (deliver directory s p requested result).run.Executes u r)
    (hu : Passes (Disk.Lodges current Process) d₁ u d₂) :
    ∃ files state, Disk.Houses current scratch
        (d₀.holding (Disk.place current directory) files) d₂ ∧
      Delivers directory s.envName s.outputStatefile result (StateOf p kept t u) r state files := by
  have hname : Path.IsName "name" := ⟨by decide, by decide, by decide⟩
  rcases Task.executes_bind.1 h with ⟨f, hf, rfl⟩ | ⟨u₁, u₂, _, h₁, h₂, rfl⟩
  · rcases holds_writeFile hdirectory hhouse hname hf hu with ⟨fault, heq, hhouse'⟩ | ⟨heq, -, -⟩
    · obtain rfl := Except.error.inj heq
      exact ⟨[], none, hhouse', List.nil_prefix, fun _ => ⟨fault, rfl⟩, nofun, nofun⟩
    · cases heq
  obtain ⟨d₃, hu₁, hu₂⟩ := passes_append.1 hu
  rcases holds_writeFile hdirectory hhouse hname h₁ hu₁ with ⟨_, heq, -⟩ | ⟨-, hnamed, hsame⟩
  · cases heq
  cases hzero : result.version.isZero with
  | true =>
    simp only [hzero, if_true] at h₂
    exact delivers_nothing hprocess hnamed hzero h₂ hu₂
  | false =>
    simp only [hzero, Bool.false_eq_true, if_false] at h₂
    -- The name was written elsewhere, so the local copy is still the one of the fetch.
    have hcopy₃ : HasCopy current scratch p kept t d₃ := by
      intro f hb
      obtain ⟨stored, v, hdownload, hkept⟩ := hcopy hzero f hb
      exact ⟨stored, v, hdownload, fun hk => (hsame _ (List.prefix_append _ _)).trans (hkept hk)⟩
    obtain ⟨files, state, hhouse', hfiles⟩ :=
      delivers_found hprocess hdirectory hnamed hp hcopy₃ hzero h₂ hu₂
    exact ⟨files, state, hhouse', hfiles.congr (fun _ => id) (fun y hy => ⟨y, hy⟩)
      fun _ hsource => hsource.mono (List.subset_append_right _ _)⟩

theorem holds_getRun (hp : p.WorksIn scratch) {r : Except Failure Unit}
    (h : (getRun directory requested s p).run.Executes u r)
    (hu : Passes (Disk.Lodges current Process) d₁ u d₂) :
    ∃ t fetching after files, u = fetching ++ after ∧ Backed p.answer t fetching ∧
      Disk.Houses current scratch (d₀.holding (Disk.place current directory) files) d₂ ∧
      ((∃ e, (p.action.fetch requested.planOnly).run.Executes t (.error e) ∧
          r = .error (.run e) ∧ files = []) ∨
        ∃ result state, (p.action.fetch requested.planOnly).run.Executes t (.ok result) ∧
          Delivers directory s.envName s.outputStatefile result
            (StateOf p (KeepsCopy current Process) t after) r state files) := by
  have hstays := only_mapError (f := Failure.run) (hp.stays_fetch requested.planOnly)
  rcases Task.executes_bind.1 h with ⟨f, hf, rfl⟩ | ⟨u₁, u₂, result, h₁, h₂, rfl⟩
  · have hhouse' := hhouse.run hprocess (hstays.executes hf) hu
    obtain ⟨outcome, hrun, heq⟩ := Task.executes_mapError.1 hf
    obtain ⟨t, hfetch, hbacked⟩ := Prepared.executes_run hrun
    cases outcome with
    | ok _ => cases heq
    | error e =>
      obtain rfl := Except.error.inj heq
      exact ⟨t, u, [], [], (List.append_nil u).symm, hbacked, hhouse', .inl ⟨e, hfetch, rfl, rfl⟩⟩
  · obtain ⟨d₃, hu₁, hu₂⟩ := passes_append.1 hu
    have hhouse' := hhouse.run hprocess (hstays.executes h₁) hu₁
    obtain ⟨t, hfetch, hbacked⟩ := Prepared.executes_run (executes_mapError_ok.1 h₁)
    have hcopy (hzero : result.version.isZero = false) :
        HasCopy current scratch p (KeepsCopy current Process) t d₃ := fun f hb =>
      hp.copy_of_fetch hprocess hb hzero hfetch hbacked hu₁
    rcases Task.executes_bind.1 h₂ with ⟨f, hf, rfl⟩ | ⟨u₃, u₄, response, h₃, h₄, rfl⟩
    · obtain ⟨files, state, hhouse'', hfiles⟩ :=
        delivers hprocess hdirectory hhouse' hp hcopy hf hu₂
      exact ⟨t, u₁, u₂, files, rfl, hbacked, hhouse'', .inr ⟨result, state, hfetch,
        hfiles.congr (fun _ heq => by cases heq; rfl) nofun fun _ => id⟩⟩
    · obtain ⟨d₄, hu₃, hu₄⟩ := passes_append.1 hu₂
      obtain ⟨files, state, hhouse'', hfiles⟩ :=
        delivers hprocess hdirectory hhouse' hp hcopy h₃ hu₃
      obtain ⟨_, hprint, rfl⟩ := Task.executes_lift.1 h₄
      have hprints : (writeResponse response).run.Only (Host.Request.Stays scratch) :=
        only_lift ⟨trivial, fun _ => trivial⟩
      refine ⟨t, u₁, u₃ ++ u₄, files, rfl, hbacked,
        hhouse''.run hprocess (hprints.executes h₄) hu₄, .inr ⟨result, state, hfetch,
          hfiles.congr nofun (fun _ _ => ⟨response, rfl⟩) fun _ hfrom =>
            hfrom.mono (List.subset_append_left _ _)⟩⟩

end Writing

/-- If there is a scratch directory, the disk houses it while `body` runs on it, and what is left
at the end is as if it had never been there. -/
theorem passes_withScratch {body : String → Command Unit} {r : Except Failure Unit}
    (h : (withScratch body).run.Executes u r) (hu : Passes (Disk.Lodges current Process) d u d') :
    (∃ fault, r = .error (.noScratch fault) ∧
      u = [⟨.openScratch, (.error fault : Except Fault String)⟩] ∧ d' = d) ∨
    ∃ scratch w d₁ d₂, (body scratch).run.Executes w r ∧
      u = ⟨.openScratch, (.ok scratch : Except Fault String)⟩ ::
        (w ++ [⟨.closeScratch scratch, ()⟩]) ∧
      Disk.Houses current scratch d d₁ ∧ Passes (Disk.Lodges current Process) d₁ w d₂ ∧
      ∀ {d₀}, Disk.Houses current scratch d₀ d₂ → ∀ l, d'.lookup l = d₀.lookup l := by
  rcases executes_withScratch h with ⟨fault, rfl, rfl⟩ | ⟨scratch, w, hw, rfl⟩
  · obtain ⟨_, hopen, hnil⟩ := passes_cons.1 hu
    obtain rfl := passes_nil.1 hnil
    exact .inl ⟨fault, rfl, rfl, hopen⟩
  · obtain ⟨d₁, hopen, hrest⟩ := passes_cons.1 hu
    obtain ⟨d₂, hw', hlast⟩ := passes_append.1 hrest
    obtain ⟨_, hclose, hnil⟩ := passes_cons.1 hlast
    obtain rfl := passes_nil.1 hnil
    exact .inr ⟨scratch, w, d₁, d₂, hw, rfl, Disk.houses_of_opened hopen, hw',
      fun hhouse => hhouse.closed hclose⟩

/-- A get that has prepared its parts: the steps of its fetch, and its journal before, during and
after them. -/
structure Fetching (request : Request) (u : Journal) where
  requested : Version
  settings : Settings
  scratch : String
  prepared : Prepared
  steps : Record
  before : Journal
  fetching : Journal
  after : Journal
  version : request.version = some requested
  reflects : settings.Reflects request requested.envName
  drafts : Prepared.draft settings scratch = .ok prepared
  backed : Backed prepared.answer steps fetching
  journal : u = before ++ (fetching ++ (after ++ [⟨.closeScratch scratch, ()⟩]))

/-- What a get leaves in its output directory: nothing if it had nothing to fetch, or if it has
failed before its fetch has gone well, and after that what it delivers. -/
inductive Leaves (kept : Prop) (directory : String) (u : Journal) (r : Except Failure Unit) :
    List (String × Bytes) → Prop where
  | stopped {f : Failure} (hr : r = .error f) (hu : ∀ e ∈ u, e.op.IsHarmless) :
      Leaves kept directory u r []
  | destroyed {request : Request} (hrequest : Begins u request)
      (haction : request.params.action = .destroy) : Leaves kept directory u r []
  | unfetched {request : Request} {e : Lifecycle.Error} (run : Fetching request u)
      (hrequest : Begins u request) (haction : request.params.action = .create)
      (hfetch : (run.prepared.action.fetch run.requested.planOnly).run.Executes run.steps
        (.error e))
      (hr : r = .error (.run e)) : Leaves kept directory u r []
  | fetched {request : Request} {result : RunResult} {state : Option Bytes}
      {files : List (String × Bytes)} (run : Fetching request u)
      (hrequest : Begins u request) (haction : request.params.action = .create)
      (hfetch : (run.prepared.action.fetch run.requested.planOnly).run.Executes run.steps
        (.ok result))
      (hfiles : Delivers directory run.requested.envName request.params.outputStatefile result
        (StateOf run.prepared kept run.steps run.after) r state files) :
      Leaves kept directory u r files

theorem Leaves.nodup {kept : Prop} {r : Except Failure Unit} {files : List (String × Bytes)}
    (h : Leaves kept directory u r files) : (files.map Prod.fst).Nodup := by
  cases h with
  | @fetched _ result state _ run _ _ _ hfiles =>
    have hnames : ((contents run.requested.envName result state).map Prod.fst).Nodup := by
      unfold contents
      split
      · exact (by decide : ["name"].Nodup)
      · cases state with
        | none => exact (by decide : ["name", "metadata"].Nodup)
        | some content => exact (by decide : ["name", "metadata", StateFile.localName].Nodup)
    exact hnames.sublist (hfiles.begun.sublist.map _)
  | _ => exact List.nodup_nil

section Get

variable {r : Except Failure Unit} {request : Request}

def LeavesOn (current : Location) (Process : Disk → Invocation → Disk → Prop) (directory : String)
    (d : Disk) (u : Journal) (r : Except Failure Unit) (d' : Disk) : Prop :=
  ∃ files, (∀ l, d'.lookup l = (d.holding (Disk.place current directory) files).lookup l) ∧
    Leaves (KeepsCopy current Process) directory u r files

theorem leavesOn_stopped {f : Failure} (hr : r = .error f) (hreads : ∀ e ∈ u, e.op.IsReading)
    (hu : Passes (Disk.Lodges current Process) d u d') :
    LeavesOn current Process directory d u r d' := by
  obtain rfl : d' = d := unchanged_of_inert hu fun e he => (hreads e he).isInert
  exact ⟨[], fun _ => rfl, .stopped hr fun e he => (hreads e he).isHarmless⟩

theorem Begins.append {t : Journal} (h : Begins t request) (w : Journal) :
    Begins (t ++ w) request := by
  obtain ⟨raw, rest, rfl, hraw⟩ := h
  exact ⟨raw, rest ++ w, rfl, hraw⟩

variable (hprocess : Disk.Confined current Process)
  (hdirectory : d.lookup (Disk.place current directory) = some .directory)

include hprocess hdirectory

theorem leavesOn_withScratch (hrequest : Begins v request) (hbefore : ∀ e ∈ v, e.op.IsHarmless)
    (haction : request.params.action = .create) (hversion : request.version = some requested)
    (hs : s.Reflects request requested.envName) (hsource : s.terraformSource = none)
    (h : (withScratch fun scratch => do
      let p ← ofStep (Prepared.ofSettings s scratch)
      getRun directory requested s p).run.Executes u r)
    (hu : Passes (Disk.Lodges current Process) d u d') :
    LeavesOn current Process directory d (v ++ u) r d' := by
  rcases passes_withScratch h hu with ⟨fault, rfl, rfl, rfl⟩ |
    ⟨scratch, w, d₁, d₂, hw, rfl, hhouse, hw', hclosed⟩
  · exact ⟨[], fun _ => rfl, .stopped rfl (List.forall_mem_append.2
      ⟨hbefore, List.forall_mem_singleton.2 fun _ => trivial⟩)⟩
  have hprepare : (ofStep (Prepared.ofSettings s scratch)).run.Only Host.Request.IsReading :=
    only_mapError Prepared.reading_ofSettings
  rcases Task.executes_bind.1 hw with ⟨f, hf, rfl⟩ | ⟨t₁, t₂, p, hp, hbody, rfl⟩
  · have hreads := hprepare.executes hf
    have hhouse' := hhouse.run hprocess (fun e he => (hreads e he).isInert.stays) hw'
    refine ⟨[], hclosed hhouse', .stopped rfl (List.forall_mem_append.2 ⟨hbefore, ?_⟩)⟩
    exact List.forall_mem_cons.2 ⟨fun _ => trivial, List.forall_mem_append.2
      ⟨fun e he => (hreads e he).isHarmless, List.forall_mem_singleton.2 fun _ => trivial⟩⟩
  · obtain ⟨d₃, ht₁, ht₂⟩ := passes_append.1 hw'
    have hhouse' := hhouse.run hprocess
      (fun e he => (hprepare.executes hp e he).isInert.stays) ht₁
    have hdraft := Prepared.executes_ofSettings (executes_mapError_ok.1 hp)
    obtain ⟨steps, fetching, after, files, rfl, hbacked, hhouse'', hends⟩ :=
      holds_getRun hprocess hdirectory hhouse' (Prepared.worksIn_of_draft hsource hdraft) hbody ht₂
    refine ⟨files, hclosed hhouse'', ?_⟩
    have hbegins := hrequest.append (⟨.openScratch, .ok scratch⟩ ::
      ((t₁ ++ (fetching ++ after)) ++ [⟨.closeScratch scratch, ()⟩]))
    let run : Fetching request (v ++ ⟨.openScratch, (.ok scratch : Except Fault String)⟩ ::
        ((t₁ ++ (fetching ++ after)) ++ [⟨.closeScratch scratch, ()⟩])) :=
      { requested := requested
        settings := s
        scratch := scratch
        prepared := p
        steps := steps
        before := v ++ ⟨.openScratch, .ok scratch⟩ :: t₁
        fetching := fetching
        after := after
        version := hversion
        reflects := hs
        drafts := hdraft
        backed := hbacked
        journal := by simp }
    rcases hends with ⟨e, hfetch, rfl, rfl⟩ | ⟨result, state, hfetch, hfiles⟩
    · exact .unfetched run hbegins haction hfetch rfl
    · rw [hs.envName, hs.outputStatefile] at hfiles
      exact .fetched run hbegins haction hfetch hfiles

theorem leavesOn_create {raw : Bytes} (hraw : Request.ofBytes raw = .ok request)
    (hsource : request.source.terraformSource = none)
    (haction : request.params.action = .create) (hversion : request.version = some requested)
    (h : (do
      let s ← ofStep (Settings.ofGet request directory)
      banner "Fetching" s.envName
      withScratch fun scratch => do
        let p ← ofStep (Prepared.ofSettings s scratch)
        getRun directory requested s p).run.Executes u r)
    (hu : Passes (Disk.Lodges current Process) d
      (⟨.readInput, (.ok raw : Except Fault Bytes)⟩ :: u) d') :
    LeavesOn current Process directory d (⟨.readInput, (.ok raw : Except Fault Bytes)⟩ :: u) r
      d' := by
  rcases Task.executes_bind.1 h with ⟨f, hf, rfl⟩ | ⟨t, _, s, hs, h₁, rfl⟩
  · have hreads := (only_mapError (f := Failure.run) Settings.reading_ofGet).executes hf
    exact leavesOn_stopped rfl (List.forall_mem_cons.2 ⟨trivial, hreads⟩) hu
  obtain ⟨_, w, _, hbanner, h₂, rfl⟩ := Task.executes_lift_bind.1 h₁
  obtain rfl := Program.executes_one.1 hbanner
  have hsettings := executes_mapError_ok.1 hs
  have hreads := Settings.reading_ofGet.executes hsettings
  rw [← List.append_assoc, ← List.cons_append] at hu ⊢
  obtain ⟨d₁, hbefore, hwithin⟩ := passes_append.1 hu
  obtain rfl : d₁ = d := unchanged_of_inert hbefore (List.forall_mem_cons.2 ⟨trivial,
    List.forall_mem_append.2
      ⟨fun e he => (hreads e he).isInert, List.forall_mem_singleton.2 trivial⟩⟩)
  refine leavesOn_withScratch hprocess hdirectory ⟨raw, _, rfl, hraw⟩ ?_ haction hversion
    (Settings.reflects_of_ofGet hversion hsettings)
    (Settings.terraformSource_of_ofGet hsource hsettings) h₂ hwithin
  exact List.forall_mem_cons.2 ⟨fun _ => trivial, List.forall_mem_append.2
    ⟨fun e he => (hreads e he).isHarmless, List.forall_mem_singleton.2 fun _ => trivial⟩⟩

theorem leavesOn_get (hsource : ∀ request, Begins u request → request.source.terraformSource = none)
    (h : (get directory).run.Executes u r) (hu : Passes (Disk.Lodges current Process) d u d') :
    LeavesOn current Process directory d u r d' := by
  rcases Task.executes_bind.1 h with ⟨f, hf, rfl⟩ | ⟨t₁, t₂, request, hrequest, h₁, rfl⟩
  · obtain ⟨reply, rfl⟩ := journal_readRequest hf
    exact leavesOn_stopped rfl (List.forall_mem_singleton.2 trivial) hu
  obtain ⟨raw, rfl, hraw⟩ := journal_readRequest_ok hrequest
  rcases Task.executes_bind.1 h₁ with ⟨f, hf, rfl⟩ | ⟨t₃, t₄, requested, hrequested, h₂, rfl⟩
  · obtain ⟨rfl, -⟩ := Program.executes_done.1 hf
    exact leavesOn_stopped rfl (List.forall_mem_singleton.2 trivial) hu
  obtain ⟨rfl, hfit⟩ := Program.executes_done.1 hrequested
  obtain ⟨hversion, -⟩ := requestedVersion_eq_ok.1 hfit.symm
  have hbegins : Begins (⟨.readInput, (.ok raw : Except Fault Bytes)⟩ :: t₄) request :=
    ⟨raw, t₄, rfl, hraw⟩
  split at h₂
  · next haction =>
    obtain ⟨_, hprint, -⟩ := Task.executes_lift.1 h₂
    obtain rfl := Program.executes_one.1 hprint
    obtain rfl : d' = d := unchanged_of_inert hu (by simp [Request.IsInert])
    exact ⟨[], fun _ => rfl, .destroyed hbegins haction⟩
  · next haction =>
    have hcreate : request.params.action = .create := by
      cases h : request.params.action with
      | create => rfl
      | destroy => exact absurd h haction
    exact leavesOn_create hprocess hdirectory hraw (hsource request hbegins) hcreate hversion h₂ hu

/-- A get changes nothing but what it leaves in its output directory. -/
theorem get_leaves
    (hsource : ∀ request, Begins u request → request.source.terraformSource = none)
    (h : (get directory).run.Executes u r) (hu : Passes (Disk.Lodges current Process) d u d') :
    ∃ files, Disk.Gains (Disk.place current directory) files d d' ∧
      Leaves (KeepsCopy current Process) directory u r files := by
  obtain ⟨files, hsame, hleaves⟩ := leavesOn_get hprocess hdirectory hsource h hu
  exact ⟨files, (Disk.gains_holding _ hleaves.nodup).congr hsame, hleaves⟩

end Get

-- An engine that has no outputs, and may put another state in place of the local copy when it is
-- asked for them.
namespace Copying

open Storage.LocalDirectory (VersionRecord)

def request : Json.Value := .object [
  ("source", .object [
    ("storage", .object [("driver", .string "local"), ("path", .string "/states")])]),
  ("version", .object [("env_name", .string "dev")]),
  ("params", .object [("output_statefile", .bool true)])]

def stored : Bytes := Text.Utf8.encode "{}"

def replacement : Bytes := Text.Utf8.encode "[]"

def disk : Disk := ⟨[(["tmp"], .directory), (["out"], .directory), (["states"], .directory),
  (["states", "dev.tfstate"], .file stored),
  (["states", "dev.tfstate.version"],
    .file (VersionRecord.encode ⟨"t1", ⟨2024, 5, 6, 12, 30, 0, 0⟩⟩))]⟩

def process (left : Option Bytes) (i : Invocation) (d : Disk) : Finished × Disk :=
  if i.arguments.head? = some "output" then
    (⟨.code 0, Text.Utf8.encode "{}", []⟩,
      match left, d.enter [] i.directory with
      | some content, .ok w => d.put (w ++ [StateFile.localName]) (.file content)
      | _, _ => d)
  else (⟨.code 0, [], []⟩, d)

def host (left : Option Bytes) : Lodging where
  scratch := "/tmp/run"
  clock := ⟨2024, 5, 6, 12, 30, 0, 0⟩
  uuid := ⟨.replicate 16 7⟩
  input := Text.Utf8.encode request.compact
  process := process left

theorem confined_host (left : Option Bytes) : Disk.Confined [] (host left).Changes := by
  rintro d i _ rfl l hl
  change (process left i d).2.lookup l = d.lookup l
  unfold process
  split
  · split
    · next content w hentered =>
      have hne : w ++ [StateFile.localName] ≠ [] :=
        List.append_ne_nil_of_right_ne_nil _ (List.cons_ne_nil _ _)
      rw [Disk.lookup_put d hne, if_neg]
      rintro rfl
      refine hl w hentered ⟨List.prefix_append _ _, fun heq => ?_⟩
      simpa using congrArg List.length heq
    · rfl
  · rfl

theorem keepsCopy_host : KeepsCopy [] (host none).Changes := by
  rintro d i _ w rfl - -
  change (process none i d).2.lookup _ = d.lookup _
  unfold process
  split <;> rfl

def getRun (left : Option Bytes) : Journal × Except Failure Unit × Disk :=
  (host left).rehearse (get "/out").run disk

theorem getRun_ok (left : Option Bytes) (h : (Lifecycle.errorOf (getRun left).2.1).isNone = true) :
    (get "/out").run.Executes (getRun left).1 (.ok ()) := by
  obtain ⟨⟨⟩, hok⟩ := Lifecycle.exists_ok h
  rw [← hok]
  unfold getRun
  exact (host left).executes_rehearse (get "/out").run disk

theorem passes_getRun (left : Option Bytes) :
    Passes (Disk.Lodges [] (host left).Changes) disk (getRun left).1 (getRun left).2.2 := by
  have hclock : (host left).clock.Valid :=
    show (⟨2024, 5, 6, 12, 30, 0, 0⟩ : Timestamp).Valid by decide
  unfold getRun
  exact Lodging.passes_rehearse hclock (get "/out").run disk

theorem source_getRun (left : Option Bytes) (r : Request) (h : Begins (getRun left).1 r) :
    r.source.terraformSource = none := by
  obtain ⟨raw, rest, hu, hraw⟩ := h
  have hmem : ⟨.readInput, (.ok raw : Except Fault Bytes)⟩ ∈ (getRun left).1 :=
    hu ▸ List.mem_cons_self
  unfold getRun at hmem
  have hinput : (host left).input = Text.Utf8.encode request.compact := by
    simp only [host]
  rw [Except.ok.inj (Lodging.eq_of_readInput hmem), hinput] at hraw
  have hsource : (Request.ofBytes (Text.Utf8.encode request.compact)).toOption.map
      (fun r => r.source.terraformSource) = some none := by decide +kernel
  rw [hraw] at hsource
  exact Option.some.inj hsource

theorem get_leaves_stored :
    KeepsCopy [] (host none).Changes ∧
    (∃ files, Disk.Gains ["out"] files disk (getRun none).2.2 ∧
      Leaves (KeepsCopy [] (host none).Changes) "/out" (getRun none).1 (.ok ()) files) ∧
    (getRun none).2.2.lookup ["out", "name"] = some (.file (Text.Utf8.encode "dev")) ∧
    (getRun none).2.2.lookup ["out", "metadata"] = some (.file (Text.Utf8.encode "{}")) ∧
    (getRun none).2.2.lookup ["out", "terraform.tfstate"] = some (.file stored) := by
  have hplace : Disk.place [] "/out" = ["out"] := by decide
  have hrun : (Lifecycle.errorOf (getRun none).2.1).isNone = true ∧
      (getRun none).2.2.lookup ["out", "name"] = some (.file (Text.Utf8.encode "dev")) ∧
      (getRun none).2.2.lookup ["out", "metadata"] = some (.file (Text.Utf8.encode "{}")) ∧
      (getRun none).2.2.lookup ["out", "terraform.tfstate"] = some (.file stored) := by
    decide +kernel
  have hleaves := get_leaves (confined_host none) (by decide) (source_getRun none)
    (getRun_ok none hrun.1) (passes_getRun none)
  rw [hplace] at hleaves
  exact ⟨keepsCopy_host, hleaves, hrun.2⟩

/-- An engine that writes only where it works can have another state delivered than the stored
one. -/
theorem replaced_delivered :
    Disk.Confined [] (host (some replacement)).Changes ∧
    (∀ r, Begins (getRun (some replacement)).1 r → r.source.terraformSource = none) ∧
    (get "/out").run.Executes (getRun (some replacement)).1 (.ok ()) ∧
    Passes (Disk.Lodges [] (host (some replacement)).Changes) disk (getRun (some replacement)).1
      (getRun (some replacement)).2.2 ∧
    disk.lookup ["states", "dev.tfstate"] = some (.file stored) ∧
    (getRun (some replacement)).2.2.lookup ["states", "dev.tfstate"] = some (.file stored) ∧
    (getRun (some replacement)).2.2.lookup ["out", "terraform.tfstate"] =
      some (.file replacement) ∧ replacement ≠ stored := by
  have hrun : (Lifecycle.errorOf (getRun (some replacement)).2.1).isNone = true ∧
      disk.lookup ["states", "dev.tfstate"] = some (.file stored) ∧
      (getRun (some replacement)).2.2.lookup ["states", "dev.tfstate"] = some (.file stored) ∧
      (getRun (some replacement)).2.2.lookup ["out", "terraform.tfstate"] =
        some (.file replacement) ∧ replacement ≠ stored := by
    decide +kernel
  exact ⟨confined_host _, source_getRun _, getRun_ok _ hrun.1, passes_getRun _, hrun.2⟩

end Copying

end Command

end Pipeline

end Provision
