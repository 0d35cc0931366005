import Provision.Pipeline.Command
import Provision.Proofs.Codec
import Provision.Proofs.Pipeline.Prepared
import Provision.Proofs.Pipeline.Settings

/-!
# Runs of the commands

A put that went well, and a get that went well, part by part: the journal of the whole is the
journal of each part in its place, and the line that was printed is the response.
-/

namespace Provision.Pipeline

open Provision.Host
open Provision.Program (yields_done yields_one)
open Provision.Task (Achieves achieves_bind achieves_lift achieves_mapError achieves_pure
  executes_bind_ok executes_lift_ok executes_mapError_ok executes_pure_ok only_bind only_lift
  only_pure)

/-- What a journal's input says, if there was any. -/
def Reads (t : Journal) (request : Request) : Prop :=
  ∀ raw : Bytes, ⟨.readInput, (.ok raw : Except Fault Bytes)⟩ ∈ t →
    Request.ofBytes raw = .ok request

namespace Command

variable {directory : String} {request : Request} {t : Journal}

def said (text : String) : Event effects := ⟨.printError (text ++ "\n"), ()⟩

def Begins (t : Journal) (request : Request) : Prop :=
  ∃ (raw : Bytes) (rest : Journal), t = ⟨.readInput, (.ok raw : Except Fault Bytes)⟩ :: rest ∧
    Request.ofBytes raw = .ok request

theorem journal_readRequest_ok (h : readRequest.run.Executes t (.ok request)) :
    ∃ raw : Bytes, t = [⟨.readInput, (.ok raw : Except Fault Bytes)⟩] ∧
      Request.ofBytes raw = .ok request := by
  obtain ⟨_, _, raw, hraw, h₁, rfl⟩ := executes_bind_ok.1 h
  obtain rfl := Program.executes_one.1 (executes_mapError_ok.1 hraw)
  obtain ⟨rfl, hrequest⟩ := Program.executes_done.1 (executes_mapError_ok.1 h₁)
  exact ⟨raw, rfl, hrequest.symm⟩

theorem executes_readRequest (hread : Reads t request) {t₁ t₂ : Journal} {request' : Request}
    (h : readRequest.run.Executes t₁ (.ok request')) (ht : t = t₁ ++ t₂) :
    request' = request ∧ ∃ raw : Bytes, t₁ = [⟨.readInput, (.ok raw : Except Fault Bytes)⟩] := by
  obtain ⟨raw, rfl, hrequest⟩ := journal_readRequest_ok h
  subst ht
  rw [hread raw (by simp)] at hrequest
  exact ⟨(Except.ok.inj hrequest).symm, raw, rfl⟩

theorem executes_sayLine {text : String} {u : Journal} {x : Unit}
    (h : (sayLine text).run.Executes u (.ok x)) : u = [said text] :=
  Program.executes_one.1 (executes_lift_ok.1 h)

theorem executes_withScratch {α : Type} {body : String → Command α} {u : Journal}
    {r : Except Failure α} (h : (withScratch body).run.Executes u r) :
    (∃ fault, r = .error (.noScratch fault) ∧
      u = [⟨.openScratch, (.error fault : Except Fault String)⟩]) ∨
    ∃ scratch v, (body scratch).run.Executes v r ∧
      u = ⟨.openScratch, (.ok scratch : Except Fault String)⟩ ::
        (v ++ [⟨.closeScratch scratch, ()⟩]) := by
  -- The body is run for its outcome, so that only the opening can fail here.
  rcases Task.executes_bind.1 h with ⟨e, hopen, rfl⟩ | ⟨_, _, scratch, hopen, h₁, rfl⟩
  · obtain ⟨reply, hreply, heq⟩ := Task.executes_mapError.1 hopen
    obtain rfl := Program.executes_one.1 hreply
    cases reply with
    | ok scratch => cases heq
    | error fault =>
      cases heq
      exact .inl ⟨fault, rfl, rfl⟩
  · obtain rfl := Program.executes_one.1 (executes_mapError_ok.1 hopen)
    rcases Task.executes_bind.1 h₁ with ⟨e, hbody, -⟩ | ⟨v, _, outcome, hbody, h₂, rfl⟩
    · obtain ⟨_, -, heq⟩ := Task.executes_lift.1 hbody
      cases heq
    · rcases Task.executes_bind.1 h₂ with ⟨e, hclose, -⟩ | ⟨_, _, _, hclose, h₃, rfl⟩
      · obtain ⟨_, -, heq⟩ := Task.executes_lift.1 hclose
        cases heq
      · obtain rfl := Program.executes_one.1 (executes_lift_ok.1 hclose)
        obtain ⟨rfl, rfl⟩ := Program.executes_done.1 h₃
        exact .inr ⟨scratch, v, executes_lift_ok.1 hbody, rfl⟩

theorem silent_engineVersion {p : Prepared} : (engineVersion p).run.Only Request.IsSilent := by
  refine only_bind (only_lift ?_) fun outcome => ?_
  · exact Program.only_bind (Engine.Terraform.silent_engineVersion) fun _ => trivial
  · cases outcome with
    | ok version => exact only_pure
    | error e => exact only_bind (only_lift ⟨trivial, fun _ => trivial⟩) fun _ => only_pure

theorem achieves_engineVersion {P : Event effects → Prop} {p : Prepared} :
    (engineVersion p).Achieves P fun _ _ => True := by
  refine achieves_bind (Q := fun _ _ => True) (achieves_lift fun _ _ _ _ => trivial)
    fun _ outcome _ => ?_
  cases outcome with
  | ok version => exact achieves_pure trivial
  | error e =>
    exact achieves_bind (Q := fun _ _ => True) (achieves_lift fun _ _ _ _ => trivial)
      fun _ _ _ => achieves_pure trivial

/-- The parts of a put that created an environment. -/
structure Creation (request : Request) (directory : String) (t : Journal) where
  raw : Bytes
  settings : Settings
  scratch : String
  prepared : Prepared
  result : RunResult
  engineVersion : Option String
  resolving : Journal
  preparing : Journal
  applying : Journal
  asking : Journal
  resolves : (Settings.ofPut request directory).run.Executes resolving (.ok settings)
  prepares : (Prepared.ofSettings settings scratch).run.Executes preparing (.ok prepared)
  applies : (prepared.run prepared.action.apply).run.Executes applying (.ok result)
  asks : (Command.engineVersion prepared).run.Executes asking (.ok engineVersion)
  journal : t = ⟨.readInput, (.ok raw : Except Fault Bytes)⟩ :: (resolving ++
    ⟨.openScratch, (.ok scratch : Except Fault String)⟩ :: (preparing ++
      said ("Terraform Apply" ++ " " ++ settings.envName) :: (applying ++
        said "Apply complete!" :: (asking ++
          [⟨.printOutput (Response.ofResult result engineVersion).line, ()⟩,
            ⟨.closeScratch scratch, ()⟩]))))

theorem executes_create {s : Settings} {p : Prepared} {u : Journal} {result : RunResult}
    (h : (create s p).run.Executes u (.ok result)) :
    ∃ applying, (p.run p.action.apply).run.Executes applying (.ok result) ∧
      u = said ("Terraform Apply" ++ " " ++ s.envName) ::
        (applying ++ [said "Apply complete!"]) := by
  obtain ⟨_, _, _, hbanner, h₁, rfl⟩ := executes_bind_ok.1 h
  obtain ⟨applying, _, outcome, happly, h₂, rfl⟩ := executes_bind_ok.1 h₁
  obtain rfl := executes_sayLine hbanner
  cases outcome with
  | error e =>
    dsimp only at h₂
    split at h₂
    · obtain ⟨_, _, _, -, h₃, -⟩ := executes_bind_ok.1 h₂
      cases (Task.executes_throw.1 h₃).2
    · cases (Task.executes_throw.1 h₂).2
  | ok r =>
    obtain ⟨_, _, _, hdone, h₃, rfl⟩ := executes_bind_ok.1 h₂
    obtain ⟨rfl, rfl⟩ := executes_pure_ok.1 h₃
    obtain rfl := executes_sayLine hdone
    exact ⟨applying, executes_lift_ok.1 happly, rfl⟩

theorem exists_creation (h : (put directory).run.Executes t (.ok ())) (hread : Reads t request)
    (hcreate : request.params.action = .create) (hplan : request.params.planOnly = false) :
    Nonempty (Creation request directory t) := by
  obtain ⟨t₁, t₂, request', hrequest, h₁, ht⟩ := executes_bind_ok.1 h
  obtain ⟨rfl, raw, rfl⟩ := executes_readRequest hread hrequest ht
  obtain ⟨resolving, _, s, hresolve, h₂, rfl⟩ := executes_bind_ok.1 h₁
  rcases executes_withScratch h₂ with ⟨_, hfault, -⟩ | ⟨scratch, v, hbody, rfl⟩
  · cases hfault
  obtain ⟨preparing, _, p, hprepare, h₃, rfl⟩ := executes_bind_ok.1 hbody
  obtain ⟨_, _, result, hperform, h₄, rfl⟩ := executes_bind_ok.1 h₃
  obtain ⟨asking, _, engineVersion, hask, h₅, rfl⟩ := executes_bind_ok.1 h₄
  obtain rfl := Program.executes_one.1 (executes_lift_ok.1 h₅)
  have hresolves := executes_mapError_ok.1 hresolve
  obtain ⟨envName, hs⟩ := Settings.executes_ofPut hresolves
  simp only [perform, hs.planOnly, hplan, hs.action, hcreate, Bool.false_eq_true, if_false]
    at hperform
  obtain ⟨applying, happlies, rfl⟩ := executes_create hperform
  exact ⟨⟨raw, s, scratch, p, result, engineVersion, resolving, preparing, applying, asking,
    hresolves, executes_mapError_ok.1 hprepare, happlies, hask, by
      rw [ht]
      simp only [List.append_assoc, List.cons_append, List.nil_append]
      rfl⟩⟩

theorem Creation.printed (run : Creation request directory t)
    (hdriver : ∀ c, (run.prepared.driver.answer c).Only Request.IsMute) :
    printed t = [(Response.ofResult run.result run.engineVersion).line] := by
  obtain ⟨steps, hsteps, hbacked⟩ := Prepared.executes_run run.applies
  have hresolving := printed_of_reading (Settings.reading_ofPut.executes run.resolves)
  have hpreparing := printed_of_reading (Prepared.reading_ofSettings.executes run.prepares)
  have happlying := printed_of_mute (hbacked.only (Lifecycle.Action.mute_apply hsteps)
    (Prepared.mute_answer hdriver))
  have hasking := printed_of_mute ((silent_engineVersion.mono fun _ => Request.IsSilent.isMute)
    |>.executes run.asks)
  refine (congrArg Host.printed run.journal).trans ?_
  simp only [Host.printed, List.filterMap_append, List.filterMap_cons, said, printed?, hresolving,
    hpreparing, happlying, hasking, List.nil_append, List.filterMap_nil]

structure Retrieval (request : Request) (directory : String) (t : Journal) where
  raw : Bytes
  settings : Settings
  scratch : String
  prepared : Prepared
  result : RunResult
  engineVersion : Option String
  resolving : Journal
  preparing : Journal
  fetching : Journal
  asking : Journal
  resolves : (Settings.ofGet request directory).run.Executes resolving (.ok settings)
  prepares : (Prepared.ofSettings settings scratch).run.Executes preparing (.ok prepared)
  fetches : (prepared.run (prepared.action.fetch false)).run.Executes fetching (.ok result)
  asks : (Command.engineVersion prepared).run.Executes asking (.ok engineVersion)
  journal : t = ⟨.readInput, (.ok raw : Except Fault Bytes)⟩ :: (resolving ++
    said ("Fetching" ++ " " ++ settings.envName) ::
      ⟨.openScratch, (.ok scratch : Except Fault String)⟩ :: (preparing ++ (fetching ++
        ⟨.writeFile (Path.join directory "name") (Text.Utf8.encode settings.envName),
          (.ok () : Except Fault Unit)⟩ ::
        ⟨.writeFile (Path.join directory "metadata")
            (Text.Utf8.encode (Json.Value.ofDict result.rawOutput).compact),
          (.ok () : Except Fault Unit)⟩ :: (asking ++
          [⟨.printOutput (Response.ofResult result engineVersion).line, ()⟩,
            ⟨.closeScratch scratch, ()⟩]))))

section Get

variable {P : Event effects → Prop} {v : Version}

theorem achieves_readRequest (hP : ∀ e, P e → Succeeds e)
    (hread : ∀ raw : Bytes, P ⟨.readInput, (.ok raw : Except Fault Bytes)⟩ →
      Request.ofBytes raw = .ok request) :
    readRequest.Achieves P fun t request' => request' = request ∧
      ∃ raw : Bytes, t = [⟨.readInput, (.ok raw : Except Fault Bytes)⟩] := by
  refine achieves_bind (Q := fun (t : Journal) raw => Request.ofBytes raw = .ok request ∧
    t = [⟨.readInput, (.ok raw : Except Fault Bytes)⟩]) (achieves_mapError ?_) fun t raw hraw => ?_
  · refine yields_one fun reply hreply => ?_
    obtain ⟨raw, rfl⟩ : ∃ raw, reply = .ok raw := hP _ hreply
    exact ⟨raw, rfl, hread raw hreply, rfl⟩
  · obtain ⟨hrequest, rfl⟩ := hraw
    exact achieves_mapError (yields_done ⟨request, hrequest, rfl, raw, rfl⟩)

theorem achieves_writeFile (hP : ∀ e, P e → Succeeds e) (name : String) (content : Bytes) :
    (writeFile directory name content).Achieves P fun t _ =>
      t = [⟨.writeFile (Path.join directory name) content, (.ok () : Except Fault Unit)⟩] := by
  refine achieves_mapError (yields_one fun reply hreply => ?_)
  obtain rfl : reply = .ok () := hP _ hreply
  exact ⟨(), rfl, rfl⟩

theorem achieves_sayLine (text : String) :
    (sayLine text).Achieves P fun t _ => t = [said text] :=
  achieves_lift (yields_one fun _ _ => rfl)

theorem achieves_writeOutputs (hP : ∀ e, P e → Succeeds e) (result : RunResult) :
    (writeOutputs directory result none).Achieves P fun t _ =>
      t = [⟨.writeFile (Path.join directory "metadata")
        (Text.Utf8.encode (Json.Value.ofDict result.rawOutput).compact),
        (.ok () : Except Fault Unit)⟩] := by
  refine achieves_bind (achieves_writeFile hP _ _) fun t _ ht => achieves_pure ?_
  rw [ht, List.append_nil]

theorem executes_deliver {s : Settings} {p : Prepared} {result : RunResult} {u : Journal}
    {outcome : Except Failure Response} (hP : ∀ e, P e → Succeeds e)
    (hzero : result.version.isZero = false) (hstate : s.outputStatefile = false)
    (hplan : v.planOnly = false)
    (h : (deliver directory s p v result).run.Executes u outcome) (hu : ∀ e ∈ u, P e) :
    ∃ asking engineVersion, (Command.engineVersion p).run.Executes asking (.ok engineVersion) ∧
      outcome = .ok (.ofResult result engineVersion) ∧
      u = ⟨.writeFile (Path.join directory "name") (Text.Utf8.encode s.envName),
          (.ok () : Except Fault Unit)⟩ ::
        ⟨.writeFile (Path.join directory "metadata")
            (Text.Utf8.encode (Json.Value.ofDict result.rawOutput).compact),
          (.ok () : Except Fault Unit)⟩ :: asking := by
  unfold deliver at h
  simp only [hzero, hstate, hplan, Bool.false_eq_true, if_false, pure_bind] at h
  obtain ⟨_, _, _, -, rfl, h₁, rfl⟩ := (achieves_writeFile hP _ _).bind_executes h hu
  obtain ⟨_, _, _, -, rfl, h₂, rfl⟩ := (achieves_writeOutputs hP _).bind_executes h₁
    fun e he => hu e (List.mem_append_right _ he)
  obtain ⟨asking, _, engineVersion, hask, -, h₃, rfl⟩ := achieves_engineVersion.bind_executes h₂
    fun e he => hu e (List.mem_append_right _ (List.mem_append_right _ he))
  obtain ⟨rfl, rfl⟩ := Task.executes_pure.1 h₃
  exact ⟨asking, engineVersion, hask, rfl, by simp only [List.append_nil, List.cons_append,
    List.nil_append]⟩

theorem exists_retrieval {source : Source} {outcome : Except Failure Unit}
    (h : (get directory).run.Executes t outcome)
    (hread : Reads t ⟨source, some v, {}⟩) (hsucceeds : ∀ e ∈ t, Succeeds e)
    (hvalid : v.validate = .ok ()) (hzero : v.isZero = false) (hplan : v.planOnly = false)
    (hresolve : (Settings.ofGet ⟨source, some v, {}⟩ directory).Achieves (· ∈ t) fun _ s =>
      s.Reflects ⟨source, some v, {}⟩ v.envName)
    (hprepare : ∀ s scratch, s.Reflects ⟨source, some v, {}⟩ v.envName → ∃ p,
      Prepared.draft s scratch = .ok p ∧ p.config.validateMode = .ok () ∧
      (p.run (p.action.fetch false)).Achieves (· ∈ t) fun _ result => result.version = v) :
    outcome = .ok () ∧ ∃ run : Retrieval ⟨source, some v, {}⟩ directory t,
      run.settings.Reflects ⟨source, some v, {}⟩ v.envName ∧ run.result.version = v := by
  unfold get at h
  obtain ⟨_, t₁, _, -, ⟨rfl, raw, rfl⟩, h₁, ht₁⟩ :=
    (achieves_readRequest hsucceeds hread).bind_executes h fun e he => he
  have hrequested : (ExceptT.mk (pure (requestedVersion ⟨source, some v, {}⟩)) :
      Command Version) = pure v := by
    simp only [requestedVersion, hvalid]
    rfl
  simp only [hrequested, pure_bind, reduceCtorEq, if_false] at h₁
  -- What is left of the journal after each part is known to go well, as part of the whole.
  have hmem₁ : ∀ e ∈ t₁, e ∈ t := fun e he => ht₁ ▸ List.mem_append_right _ he
  obtain ⟨resolving, t₂, s, hresolves, hs, h₂, rfl⟩ :=
    (achieves_mapError hresolve).bind_executes h₁ hmem₁
  have hmem₂ : ∀ e ∈ t₂, e ∈ t := fun e he => hmem₁ e (List.mem_append_right _ he)
  obtain ⟨_, t₃, _, -, rfl, h₃, rfl⟩ := (achieves_sayLine _).bind_executes h₂ hmem₂
  have hmem₃ : ∀ e ∈ t₃, e ∈ t := fun e he => hmem₂ e (List.mem_append_right _ he)
  rcases executes_withScratch h₃ with ⟨fault, -, rfl⟩ | ⟨scratch, t₄, h₄, rfl⟩
  · obtain ⟨_, hreply⟩ := hsucceeds _ (hmem₃ _ (List.mem_singleton_self _))
    cases hreply
  have hmem₄ : ∀ e ∈ t₄, e ∈ t := fun e he =>
    hmem₃ e (List.mem_cons_of_mem _ (List.mem_append_left _ he))
  obtain ⟨p, hdraft, hmode, hfetch⟩ := hprepare s scratch hs
  obtain ⟨preparing, t₅, q, hprepares, rfl, h₅, rfl⟩ :=
    (achieves_mapError (Prepared.achieves_ofSettings hsucceeds hdraft hmode)).bind_executes h₄ hmem₄
  have hmem₅ : ∀ e ∈ t₅, e ∈ t := fun e he => hmem₄ e (List.mem_append_right _ he)
  rw [hplan] at h₅
  obtain ⟨fetching, t₆, result, hfetches, hresult, h₆, rfl⟩ :=
    (achieves_mapError hfetch).bind_executes h₅ hmem₅
  have hmem₆ : ∀ e ∈ t₆, e ∈ t := fun e he => hmem₅ e (List.mem_append_right _ he)
  subst hresult
  have hdelivered {u : Journal} {r : Except Failure Response} (hu : ∀ e ∈ u, e ∈ t)
      (hr : (deliver directory s q result.version result).run.Executes u r) :=
    executes_deliver hsucceeds hzero hs.outputStatefile hplan hr hu
  rcases Task.executes_bind.1 h₆ with ⟨e, he, rfl⟩ | ⟨t₇, t₈, response, h₇, h₈, rfl⟩
  · obtain ⟨_, _, -, heq, -⟩ := hdelivered hmem₆ he
    cases heq
  · obtain ⟨asking, engineVersion, hasks, hresponse, rfl⟩ :=
      hdelivered (fun e he => hmem₆ e (List.mem_append_left _ he)) h₇
    obtain rfl := Except.ok.inj hresponse
    obtain ⟨_, hprint, rfl⟩ := Task.executes_lift.1 h₈
    obtain rfl := Program.executes_one.1 hprint
    refine ⟨rfl, ⟨raw, s, scratch, q, result, engineVersion, resolving, preparing, fetching, asking,
      executes_mapError_ok.1 hresolves, executes_mapError_ok.1 hprepares,
      executes_mapError_ok.1 hfetches, hasks, ?_⟩, hs, rfl⟩
    rw [ht₁]
    simp only [List.append_assoc, List.cons_append, List.nil_append]
    rfl

theorem Retrieval.printed (run : Retrieval request directory t)
    (hdriver : ∀ c, (run.prepared.driver.answer c).Only Request.IsMute) :
    printed t = [(Response.ofResult run.result run.engineVersion).line] := by
  have hresolving := printed_of_reading (Settings.reading_ofGet.executes run.resolves)
  have hpreparing := printed_of_reading (Prepared.reading_ofSettings.executes run.prepares)
  have hfetching := printed_of_mute ((Prepared.mute_run hdriver
    (Lifecycle.Action.mute_fetch false)).executes run.fetches)
  have hasking := printed_of_mute ((silent_engineVersion.mono fun _ => Request.IsSilent.isMute)
    |>.executes run.asks)
  refine (congrArg Host.printed run.journal).trans ?_
  simp only [Host.printed, List.filterMap_append, List.filterMap_cons, said, printed?, hresolving,
    hpreparing, hfetching, hasking, List.nil_append, List.filterMap_nil]

end Get

end Command

end Provision.Pipeline
