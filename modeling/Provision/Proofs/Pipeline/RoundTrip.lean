import Provision.Proofs.Pipeline.Applied
import Provision.Proofs.Pipeline.Runs

/-!
# A get after a put

The version that a put answers with, given to a get of the same resource, comes back as it was,
as long as the store and the engine's state are as the put has left them. With a stored state,
the copy that the get fetches is the one that the put uploaded.
-/

namespace Provision

def Lifecycle.Backend.key? : Lifecycle.Backend → Option String
  | .workspace => none
  | .stored file => some file.key

namespace Pipeline

open Provision.Host
open Provision.Engine.Terraform (Reply.workspaces)
open Provision.Storage.LocalDirectory (rootOf versionPath)

/-- What a later run `t'` finds is what the run `t` has left: all of its requests go well, the
engine lists the environment's workspace and prints the state document that it printed before,
and the object's two files in a local directory are as they were written last. -/
structure Undisturbed (source : Source) (envName : String) (t t' : Journal) : Prop where
  succeeds : ∀ e ∈ t', Succeeds e
  outputs : Prepared.Outputs (· ∈ t')
  lists : ∀ i finished, ⟨.start i, (.ok finished : Except Fault Finished)⟩ ∈ t' →
    i.arguments = ["workspace", "list"] →
    envName ∈ Reply.workspaces (Text.Utf8.lossy finished.output)
  pulls : ∀ i i' finished finished',
    ⟨.start i, (.ok finished : Except Fault Finished)⟩ ∈ t →
    ⟨.start i', (.ok finished' : Except Fault Finished)⟩ ∈ t' →
    i.arguments = ["state", "pull"] → i'.arguments = ["state", "pull"] →
    i.environment.get? "TF_WORKSPACE" = i'.environment.get? "TF_WORKSPACE" →
    finished'.output = finished.output
  files : ∀ c root path content, source.storage = some c → rootOf c = .ok root →
    (path = Path.join root (Lifecycle.StateFile.stateKey envName) ∨
      path = versionPath (Path.join root (Lifecycle.StateFile.stateKey envName))) →
    lastWritten path t = some content → Finds (· ∈ t') path content

namespace Undisturbed

variable {source : Source} {s s' : Settings} {scratch : String} {t t' : Journal}

theorem achieves_fetch_workspace (h : Undisturbed source s.envName t t') (scratch' : String)
    (henv : s'.envName = s.envName) (hn : Text.isAllBlank s.envName = false)
    (hb : s'.backendType.isSome = true) {finished : Finished} {n : Nat}
    (hserial : Lifecycle.parseSerial finished.output = .ok n)
    (hpulled : ⟨.start (Engine.Terraform.invocation (Prepared.inWorkspace s scratch).config
      ["state", "pull"] (some s.envName)), (.ok finished : Except Fault Finished)⟩ ∈ t) :
    ((Prepared.inWorkspace s' scratch').run
      ((Prepared.inWorkspace s' scratch').action.fetch false)).Achieves (· ∈ t')
        fun _ result => result.version = .ofSerial s.envName n := by
  rw [← henv] at hn h hpulled ⊢
  refine Prepared.achieves_fetch_workspace h.succeeds h.outputs hn hb ?_ ?_
  · intro later hlater
    exact h.lists _ _ hlater rfl
  · intro later hlater
    have hworkspace : (Engine.Terraform.environment (Prepared.inWorkspace s scratch).config
        (some s'.envName)).get? "TF_WORKSPACE" = (Engine.Terraform.environment
        (Prepared.inWorkspace s' scratch').config (some s'.envName)).get? "TF_WORKSPACE" := by
      rw [Engine.Terraform.workspace_environment, Engine.Terraform.workspace_environment]
    rw [h.pulls _ _ _ _ hpulled hlater rfl rfl hworkspace]
    exact hserial

theorem achieves_fetch_directory {c : Storage.Config} {root : String} {content : Bytes}
    {r : Storage.LocalDirectory.VersionRecord} (h : Undisturbed source s.envName t t')
    (scratch' : String) (henv : s'.envName = s.envName) (hn : Text.isAllBlank s.envName = false)
    (hc : source.storage = some c) (hroot : rootOf c = .ok root)
    (hkey : Storage.LocalDirectory.isValidKey (Lifecycle.StateFile.stateKey s.envName) = true)
    (hr : r.version ≠ "") (htime : Timestamp.ofText? r.lastModified.text = some r.lastModified)
    (hobject : lastWritten (Path.join root (Lifecycle.StateFile.stateKey s.envName)) t =
      some content)
    (hrecord : lastWritten (versionPath (Path.join root (Lifecycle.StateFile.stateKey s.envName))) t
      = some r.encode) :
    ((Prepared.inDirectory s' scratch' root).run
      ((Prepared.inDirectory s' scratch' root).action.fetch false)).Achieves (· ∈ t')
        fun u result => result.version = .ofStorage s.envName ⟨r.version, some r.lastModified⟩ ∧
          lastWritten (Lifecycle.StateFile.ofEnv s'.envName scratch').localPath u =
            some content := by
  rw [← henv] at hn h hkey hobject hrecord ⊢
  exact Prepared.achieves_fetch_directory h.succeeds h.outputs hn hkey hr htime
    (h.files c root _ content hc hroot (.inl rfl) hobject)
    (h.files c root _ _ hc hroot (.inr rfl) hrecord)

end Undisturbed

namespace Command

variable {directory : String} {request : Request} {t : Journal}

theorem Creation.applying_subset (run : Creation request directory t) : run.applying ⊆ t := by
  intro e he
  rw [run.journal]
  simp [he]

theorem Retrieval.fetching_subset (run : Retrieval request directory t) : run.fetching ⊆ t := by
  intro e he
  rw [run.journal]
  simp [he]

theorem Creation.lastWritten_eq (run : Creation request directory t) {path : String}
    {content : Bytes} (h : lastWritten path run.applying = some content) :
    lastWritten path t = some content := by
  have hasking : ∀ e ∈ run.asking, written? path e = none := fun e he =>
    written?_of_silent (silent_engineVersion.executes run.asks e he)
  have hlast : ∀ e ∈ said "Apply complete!" :: (run.asking ++
      [⟨.printOutput (Response.ofResult run.result run.engineVersion).line, ()⟩,
        ⟨.closeScratch run.scratch, ()⟩]), written? path e = none := by
    simp only [List.mem_cons, List.mem_append, List.not_mem_nil, or_false]
    rintro e (rfl | he | rfl | rfl)
    · rfl
    · exact hasking e he
    · rfl
    · rfl
  obtain ⟨u, v, ht, hv⟩ : ∃ u v, t = u ++ (run.applying ++ v) ∧ ∀ e ∈ v, written? path e = none :=
    ⟨⟨.readInput, (.ok run.raw : Except Fault Bytes)⟩ :: (run.resolving ++
      ⟨.openScratch, (.ok run.scratch : Except Fault String)⟩ :: (run.preparing ++
        [said ("Terraform Apply" ++ " " ++ run.settings.envName)])), _,
      run.journal.trans (by simp only [List.append_assoc, List.cons_append, List.nil_append]),
      hlast⟩
  rw [ht]
  exact lastWritten_append_some ((lastWritten_append_unwritten hv).trans h)

abbrev followUp (request : Request) (v : Version) : Request := ⟨request.source, some v, {}⟩

def Creation.Uploaded (run : Creation request directory t) (content : Bytes) : Prop :=
  ∃ file c root, run.prepared.action.backend = .stored file ∧ request.source.storage = some c ∧
    rootOf c = .ok root ∧
    ⟨.readFile file.localPath, (.ok content : Except Fault Bytes)⟩ ∈ run.applying ∧
    lastWritten (Path.join root file.key) run.applying = some content

/-- The state document that the run can emit after its fetch. -/
def Retrieval.Emits (run : Retrieval request directory t) (content : Bytes) : Prop :=
  ∃ file, run.prepared.action.backend = .stored file ∧
    lastWritten file.localPath run.fetching = some content ∧
    ∀ u r, (run.prepared.run run.prepared.action.stateContents).run.Executes u r →
      Finds (· ∈ u) file.localPath content → r = .ok content

/-- A put and a later get tell of the same state, and have printed what they tell. -/
structure Closes {v : Version} {directory' : String} {t' : Journal}
    (run : Creation request directory t)
    (run' : Retrieval (followUp request v) directory' t') : Prop where
  printed : printed t' = [(Response.ofResult run'.result run'.engineVersion).line]
  envName : run'.prepared.action.envName = run.prepared.action.envName
  key : run'.prepared.action.backend.key? = run.prepared.action.backend.key?
  version : run'.result.version = run.result.version
  document : run.prepared.action.mode = .legacy →
    ∃ content, run.Uploaded content ∧ run'.Emits content

theorem retrieves {s : Settings} {envName : String} {v : Version} {outcome : Except Failure Unit}
    (hs : s.Reflects request envName) (hv : Prepared.Settled v s.envName)
    (h : (get directory).run.Executes t outcome) (hread : Reads t (followUp request v))
    (hsucceeds : ∀ e ∈ t, Succeeds e)
    (hprepare : ∀ s' scratch, s'.Reflects (followUp request v) s.envName → ∃ p,
      Prepared.draft s' scratch = .ok p ∧ p.config.validateMode = .ok () ∧
      (p.run (p.action.fetch false)).Achieves (· ∈ t) fun _ result => result.version = v) :
    outcome = .ok () ∧ ∃ run : Retrieval (followUp request v) directory t,
      run.settings.Reflects (followUp request v) s.envName ∧ run.result.version = v := by
  rw [← hv.envName] at hprepare ⊢
  refine exists_retrieval h hread hsucceeds hv.valid hv.kept hv.actual ?_ hprepare
  have hresolve : (Settings.ofGet (followUp request v) directory).Achieves (· ∈ t) fun _ s' =>
      s'.Reflects (followUp request v) s.envName :=
    Settings.achieves_ofGet hv.valid hs.valid hv.envName hs.backendType.symm hs.storage.symm
  rwa [← hv.envName] at hresolve

section Workspace

variable {envName : String} (run : Creation request directory t)
  (hs : run.settings.Reflects request envName) (hb : run.settings.backendType.isSome = true)
  (hp : run.prepared = .inWorkspace run.settings run.scratch)

include hs hb hp

theorem closes_workspace :
    Prepared.Settled run.result.version run.prepared.action.envName ∧
    printed t = [(Response.ofResult run.result run.engineVersion).line] ∧
    ∀ directory' t' outcome, (get directory').run.Executes t' outcome →
      Reads t' (followUp request run.result.version) →
      Undisturbed request.source run.prepared.action.envName t t' →
      outcome = .ok () ∧
        ∃ run' : Retrieval (followUp request run.result.version) directory' t', Closes run run' := by
  have happly := run.applies
  have henv : run.prepared.action.envName = run.settings.envName := by rw [hp]; rfl
  rw [hp] at happly
  rw [henv]
  obtain ⟨hn, finished, n, hserial, hversion, hpulled⟩ := Prepared.executes_apply_workspace happly
  have hsettled : Prepared.Settled run.result.version run.settings.envName := by
    rw [hversion]
    exact Prepared.settled_ofSerial hn (Lifecycle.parseSerial_lt hserial)
  have hprinted := run.printed (by rw [hp]; exact Storage.Nowhere.mute_driver)
  have hbackend {s' : Settings} (hs' : s'.Reflects (followUp request run.result.version)
      run.settings.envName) : s'.backendType.isSome = true := by
    rw [hs'.backendType, ← hs.backendType]
    exact hb
  refine ⟨hsettled, hprinted, fun directory' t' outcome hget hread hsame => ?_⟩
  obtain ⟨houtcome, run', hs', hversion'⟩ := retrieves hs hsettled hget hread hsame.succeeds
    fun s' scratch' hs' => ⟨_, Prepared.draft_workspace (hbackend hs'),
      Prepared.validateMode_inWorkspace (hbackend hs'), by
        rw [hversion]
        exact hsame.achieves_fetch_workspace scratch' hs'.envName hn (hbackend hs') hserial
          (run.applying_subset hpulled)⟩
  have hp' : run'.prepared = .inWorkspace run'.settings run'.scratch := by
    have hdraft := Prepared.executes_ofSettings run'.prepares
    rw [Prepared.draft_workspace (hbackend hs')] at hdraft
    exact (Except.ok.inj hdraft).symm
  refine ⟨houtcome, run', run'.printed ?_, ?_, ?_, hversion', ?_⟩
  · rw [hp']
    exact Storage.Nowhere.mute_driver
  · rw [henv, hp']
    exact hs'.envName
  · rw [hp, hp']
    rfl
  · rw [hp]
    exact fun h => by cases h

end Workspace

section Directory

variable {envName root : String} {c : Storage.Config} (run : Creation request directory t)
  (hs : run.settings.Reflects request envName) (hb : run.settings.backendType = none)
  (hc : run.settings.storage = some c) (hlocal : c.driverName = "local")
  (hroot : rootOf c = .ok root) (hp : run.prepared = .inDirectory run.settings run.scratch root)
  (hclock : ∀ time, ⟨.now, time⟩ ∈ t → Timestamp.ofText? time.text = some time)

include hs hb hc hlocal hroot hp hclock

theorem closes_directory :
    Prepared.Settled run.result.version run.prepared.action.envName ∧
    printed t = [(Response.ofResult run.result run.engineVersion).line] ∧
    ∀ directory' t' outcome, (get directory').run.Executes t' outcome →
      Reads t' (followUp request run.result.version) →
      Undisturbed request.source run.prepared.action.envName t t' →
      outcome = .ok () ∧
        ∃ run' : Retrieval (followUp request run.result.version) directory' t', Closes run run' := by
  have happly := run.applies
  have henv : run.prepared.action.envName = run.settings.envName := by rw [hp]; rfl
  rw [hp] at happly
  rw [henv]
  obtain ⟨hn, hkey, content, r, hversion, hr, hnow, hcopy, hobject, hrecord⟩ :=
    Prepared.executes_apply_directory happly
  have htime := hclock r.lastModified (run.applying_subset hnow)
  have hsettled : Prepared.Settled run.result.version run.settings.envName := by
    rw [hversion]
    refine Prepared.settled_ofStorage hn ?_ fun time h => ?_
    · rw [← Bool.not_eq_true, Storage.ObjectVersion.isZero, String.isEmpty_iff]
      exact hr
    · rw [← Option.some.inj h]
      exact htime
  have hprinted := run.printed (by rw [hp]; exact Storage.LocalDirectory.mute_driver root)
  have hsource : request.source.storage = some c := hs.storage.symm.trans hc
  -- The place of the state comes from the resource, so that the get prepares the same one.
  have hdraft {s' : Settings} (scratch' : String)
      (hs' : s'.Reflects (followUp request run.result.version) run.settings.envName) :
      Prepared.draft s' scratch' = .ok (.inDirectory s' scratch' root) := by
    have hb' : s'.backendType = none := hs'.backendType.trans (hs.backendType.symm.trans hb)
    rw [Prepared.draft_stored hb' (hs'.storage.trans hsource) hlocal, hroot]
  refine ⟨hsettled, hprinted, fun directory' t' outcome hget hread hsame => ?_⟩
  have hfetch {s' : Settings} (scratch' : String)
      (hs' : s'.Reflects (followUp request run.result.version) run.settings.envName) :=
    hsame.achieves_fetch_directory scratch' hs'.envName hn hsource hroot hkey hr htime
      (run.lastWritten_eq hobject) (run.lastWritten_eq hrecord)
  obtain ⟨houtcome, run', hs', hversion'⟩ := retrieves hs hsettled hget hread hsame.succeeds
    fun s' scratch' hs' => ⟨_, hdraft scratch' hs', Prepared.validateMode_inDirectory,
      (hfetch scratch' hs').weaken fun _ _ h => h.1.trans hversion.symm⟩
  have hp' : run'.prepared = .inDirectory run'.settings run'.scratch root := by
    have h := Prepared.executes_ofSettings run'.prepares
    rw [hdraft _ hs'] at h
    exact (Except.ok.inj h).symm
  have hfetches := run'.fetches
  rw [hp'] at hfetches
  obtain ⟨_, -, -, hwritten⟩ :=
    hfetch run'.scratch hs' _ _ hfetches fun e he => run'.fetching_subset he
  refine ⟨houtcome, run', run'.printed ?_, ?_, ?_, hversion', fun _ => ⟨content, ?_, ?_⟩⟩
  · rw [hp']
    exact Storage.LocalDirectory.mute_driver root
  · rw [henv, hp']
    exact hs'.envName
  · rw [hp, hp']
    exact congrArg (fun name => some (Lifecycle.StateFile.stateKey name)) hs'.envName
  · exact ⟨_, c, root, by rw [hp]; rfl, hsource, hroot, hcopy, hobject⟩
  · refine ⟨_, by rw [hp']; rfl, hwritten, fun u outcome hcontents hfinds => ?_⟩
    rw [hp'] at hcontents
    obtain ⟨_, rfl, rfl⟩ :=
      Prepared.achieves_stateContents hfinds u outcome hcontents fun e he => he
    rfl

end Directory

theorem get_of_put (hput : (put directory).run.Executes t (.ok ())) (hread : Reads t request)
    (hcreate : request.params.action = .create) (hplan : request.params.planOnly = false)
    (hkind : (nonBlank request.source.backendType).isSome = true ∨
      ∃ c, request.source.storage = some c ∧ c.driverName = "local")
    (hclock : ∀ time, ⟨.now, time⟩ ∈ t → Timestamp.ofText? time.text = some time) :
    ∃ (run : Creation request directory t) (response : Response),
      printed t = [response.line] ∧ Response.ofLine response.line = .ok response ∧
      response.version = run.result.version ∧ run.result.version.validate = .ok () ∧
      ∀ directory' t' outcome, (get directory').run.Executes t' outcome →
        Reads t' (followUp request response.version) →
        Undisturbed request.source response.version.envName t t' →
        outcome = .ok () ∧
        ∃ (run' : Retrieval (followUp request response.version) directory' t')
          (response' : Response),
          printed t' = [response'.line] ∧ Response.ofLine response'.line = .ok response' ∧
          response'.version = response.version ∧ Closes run run' := by
  obtain ⟨run⟩ := exists_creation hput hread hcreate hplan
  obtain ⟨envName, hs⟩ := Settings.executes_ofPut run.resolves
  have hdraft := Prepared.executes_ofSettings run.prepares
  rw [← hs.backendType, ← hs.storage] at hkind
  obtain ⟨hsettled, hprinted, hget⟩ :
      Prepared.Settled run.result.version run.prepared.action.envName ∧
      printed t = [(Response.ofResult run.result run.engineVersion).line] ∧
      ∀ directory' t' outcome, (get directory').run.Executes t' outcome →
        Reads t' (followUp request run.result.version) →
        Undisturbed request.source run.prepared.action.envName t t' →
        outcome = .ok () ∧
          ∃ run' : Retrieval (followUp request run.result.version) directory' t',
            Closes run run' := by
    -- From here on the two kinds of state differ only in what they leave behind.
    rcases Prepared.cases_of_draft hkind hdraft with
      ⟨hb, hp⟩ | ⟨c, root, hb, hc, hlocal, hroot, hp⟩
    · exact closes_workspace run hs hb hp
    · exact closes_directory run hs hb hc hlocal hroot hp hclock
  refine ⟨run, .ofResult run.result run.engineVersion, hprinted,
    Response.ofLine_line hsettled.writable, rfl, hsettled.valid, ?_⟩
  intro directory' t' outcome h hread' hsame
  have henv : (Response.ofResult run.result run.engineVersion).version.envName =
      run.prepared.action.envName := hsettled.envName
  rw [henv] at hsame
  obtain ⟨houtcome, run', hcloses⟩ := hget directory' t' outcome h hread' hsame
  have hwritable : run'.result.version.Writable := by
    rw [hcloses.version]
    exact hsettled.writable
  exact ⟨houtcome, run', .ofResult run'.result run'.engineVersion, hcloses.printed,
    Response.ofLine_line hwritable, hcloses.version, hcloses⟩

namespace Sample

def listing : Bytes := Text.Utf8.encode "  default\n* dev\n"

def machine (input : String) (found : Bool) (disk : String → Bytes) :
    (r : effects.Op) → effects.Reply r
  | .readFile path => .ok (disk path)
  | .writeFile _ _ => .ok ()
  | .removeFile _ => .ok ()
  | .makeDirectories _ => .ok ()
  | .isFile _ => true
  | .isDirectory _ => true
  | .pathExists _ => found
  | .openScratch => .ok "/tmp/run"
  | .closeScratch _ => ()
  | .start i => .ok ⟨.code 0, if i.arguments = ["workspace", "list"] then listing else [], []⟩
  | .send _ => .error .unreachable
  | .freshUuid => ⟨#v[0, 1, 2, 3, 4, 5, 6, 7, 8, 9, 10, 11, 12, 13, 14, 15]⟩
  | .now => ⟨2024, 5, 6, 12, 30, 0, 0⟩
  | .log _ => ()
  | .readInput => .ok (Text.Utf8.encode input)
  | .printOutput _ => ()
  | .printError _ => ()

def description : Json.Value := .object [
  ("env_name", .string "dev"),
  ("storage", .object [("driver", .string "local"), ("path", .string "/states")]),
  ("terraform_source", .string "infra")]

def source : Source :=
  match Source.decoder 126 (Json.Document.ofValue description) with
  | .ok source => source
  | .error _ => {}

def answered : Version where
  envName := "dev"
  serial := none
  storageVersion := some "00010203-0405-0607-0809-0a0b0c0d0e0f"
  lastModified := some ⟨2024, 5, 6, 12, 30, 0, 0⟩
  planOnly := false

def input (version : Option Version) : String :=
  (Request.document description version).compact ++ "\n"

def putRun : Journal × Except Failure Unit :=
  (put "/work").run.replay (machine (input none) false fun _ => Text.Utf8.encode "{}")

def getRun : Journal × Except Failure Unit :=
  (get "/out").run.replay
    (machine (input (some answered)) true fun path => (lastWritten path putRun.1).getD [])

theorem source_ok : Source.decoder 126 (Json.Document.ofValue description) = .ok source := by
  have hok : (Source.decoder 126 (Json.Document.ofValue description)).toOption.isSome = true := by
    decide +kernel
  rw [source]
  cases h : Source.decoder 126 (Json.Document.ofValue description) with
  | ok source => rfl
  | error e =>
    rw [h] at hok
    cases hok

theorem put_ok : putRun.2 = .ok () := by
  have hok : putRun.2.toOption.isSome = true := by decide +kernel
  cases h : putRun.2 with
  | ok _ => rfl
  | error e =>
    rw [h] at hok
    cases hok

theorem answered_writable : answered.Writable where
  serial _ h := by cases h
  token := by decide
  time _ h := by
    rw [← Option.some.inj h]
    decide +kernel

theorem reads_input {version : Option Version} {found : Bool} {disk : String → Bytes} {α : Type}
    {p : HostProgram α} (hversion : ∀ v, version = some v → v.Writable) :
    Reads (p.replay (machine (input version) found disk)).1 ⟨source, version, {}⟩ := by
  intro raw hraw
  have hreply : (.ok raw : Except Fault Bytes) = .ok (Text.Utf8.encode (input version)) :=
    Program.eq_of_mem_replay hraw
  rw [Except.ok.inj hreply]
  exact Request.ofBytes_document ⟨trivial, ⟨trivial, trivial, trivial⟩, trivial, trivial⟩ source_ok
    hversion

section Machine

variable {text : String} {found : Bool} {disk : String → Bytes} {α : Type} {p : HostProgram α}

theorem succeeds_machine (op : effects.Op) : Succeeds ⟨op, machine text found disk op⟩ := by
  cases op with
  | readFile path => exact ⟨_, rfl⟩
  | writeFile path content => rfl
  | makeDirectories path => rfl
  | isDirectory path => rfl
  | openScratch => exact ⟨_, rfl⟩
  | start i => exact ⟨_, rfl, rfl⟩
  | readInput => exact ⟨_, rfl⟩
  | _ => trivial

theorem output_machine {i : Invocation} {finished : Finished}
    (h : ⟨.start i, (.ok finished : Except Fault Finished)⟩ ∈
      (p.replay (machine text found disk)).1) :
    finished.output = if i.arguments = ["workspace", "list"] then listing else [] := by
  have hreply : (.ok finished : Except Fault Finished) = .ok ⟨.code 0, _, []⟩ :=
    Program.eq_of_mem_replay h
  rw [Except.ok.inj hreply]

end Machine

theorem undisturbed : Undisturbed source answered.envName putRun.1 getRun.1 where
  succeeds := by
    rintro ⟨op, reply⟩ he
    have hreply : reply = machine _ _ _ op := Program.eq_of_mem_replay he
    rw [hreply]
    exact succeeds_machine op
  outputs i finished he hi := by
    rw [output_machine he, if_neg fun hlist => absurd (hlist ▸ hi) (by decide)]
    rfl
  lists i finished he hi := by
    rw [output_machine he, if_pos hi]
    decide +kernel
  pulls i i' finished finished' he he' hi hi' _ := by
    rw [output_machine he, output_machine he', hi, hi']
  files c root path content _ _ _ hwritten := by
    constructor
    · intro found he
      exact Program.eq_of_mem_replay he
    · intro reply he
      have hreply : reply = .ok ((lastWritten path putRun.1).getD []) :=
        Program.eq_of_mem_replay he
      rw [hreply, hwritten]
      rfl

theorem get_of_put_dev :
    (put "/work").run.Executes putRun.1 (.ok ()) ∧ (get "/out").run.Executes getRun.1 (.ok ()) ∧
    ∃ (run : Creation ⟨source, none, {}⟩ "/work" putRun.1)
      (run' : Retrieval (followUp ⟨source, none, {}⟩ answered) "/out" getRun.1),
      run.result.version = answered ∧ run'.result.version = answered ∧ Closes run run' := by
  have hput : (put "/work").run.Executes putRun.1 (.ok ()) := by
    rw [← put_ok]
    exact Program.executes_replay _ _
  have hlocal : source.storage.map (·.driverName) = some "local" := by decide +kernel
  obtain ⟨run, response, hprinted, hline, hversion, -, hget⟩ :=
    get_of_put hput (reads_input fun v h => by cases h) rfl rfl
      (.inr (Option.map_eq_some_iff.1 hlocal)) fun time h => by
        have htime : time = ⟨2024, 5, 6, 12, 30, 0, 0⟩ := Program.eq_of_mem_replay h
        rw [htime]
        decide +kernel
  have hanswer : printed putRun.1 = [(Response.bare answered).line] := by decide +kernel
  obtain rfl : response = .bare answered := by
    have hsame : response.line = (Response.bare answered).line := by
      rw [hprinted] at hanswer
      exact (List.cons.inj hanswer).1
    rw [hsame, Response.ofLine_line answered_writable] at hline
    exact (Except.ok.inj hline).symm
  obtain ⟨houtcome, run', response', -, -, hversion', hcloses⟩ :=
    hget "/out" getRun.1 getRun.2 (Program.executes_replay _ _)
      (reads_input fun v h => Option.some.inj h ▸ answered_writable) undisturbed
  refine ⟨hput, ?_, run, run', hversion.symm, hcloses.version.trans hversion.symm, hcloses⟩
  rw [← houtcome]
  exact Program.executes_replay _ _

end Sample

end Command

end Pipeline

end Provision
