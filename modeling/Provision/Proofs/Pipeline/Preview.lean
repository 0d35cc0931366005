import Provision.Proofs.Lifecycle.Finding
import Provision.Proofs.Pipeline.Refusal
import Provision.Proofs.Storage.Viewing

/-!
# Previews and reads

A put that only tells what is there, and every get, make no call on the engine or on the driver
that changes anything, however they end. So the workspaces and the stored objects are afterwards
as they were before. A preview prints a version that is marked as a plan, and that there is no
state is no reason for it to fail.
-/

namespace Provision.Pipeline

open Provision.Host
open Provision.Lifecycle (Record StateFile StoppedBy Workspaces)
open Provision.Program (Backed)
open Provision.Task (executes_mapError_ok)

def IsLooking (files : String → Prop) (s : Lifecycle.Step) : Prop :=
  s.Looks files ∨ ∃ text, s = .host (.printOutput text)

theorem isLooking_of_keeps {files : String → Prop} {r : Host.Request} (h : r.Keeps files) :
    IsLooking files (.host r) := by
  cases r with
  | printOutput text => exact .inr ⟨text, rfl⟩
  | _ => exact .inl ⟨h, trivial⟩

theorem IsLooking.mono {files others : String → Prop} {s : Lifecycle.Step}
    (h : IsLooking files s) (hsub : ∀ path, files path → others path) : IsLooking others s :=
  h.imp_left fun h => h.mono hsub

theorem unchanged_of_looking {files : String → Prop} {s s' : Workspaces}
    {e : Event Lifecycle.steps} (he : IsLooking files e.op) (h : Workspaces.Reflects s e s') :
    s' = s := by
  obtain ⟨op, reply⟩ := e
  rcases he with he | ⟨text, rfl⟩
  · cases op with
    | engine c =>
      cases c with
      | listWorkspaces => exact h.1
      | initBackend env => exact h
      | initLocal => exact h
      | pullState env => exact h
      | readOutput env => exact h
      | engineVersion => exact h
      | _ => exact he.elim
    | storage c => exact h
    | host r => exact h
  · exact h

namespace Prepared

variable {p : Prepared} {s : Settings} {scratch : String} {files : String → Prop} {t : Record}
  {u v : Journal}

def Looking (p : Prepared) (files : String → Prop) (u : Journal) : Prop :=
  ∃ t : Record, Backed p.answer t u ∧ ∀ e ∈ t, IsLooking files e.op

theorem Looking.append (h : p.Looking files u) (h' : p.Looking files v) :
    p.Looking files (u ++ v) := by
  obtain ⟨t, hbacked, hlooks⟩ := h
  obtain ⟨t', hbacked', hlooks'⟩ := h'
  exact ⟨t ++ t', hbacked.concat hbacked', fun e he =>
    (List.mem_append.1 he).elim (hlooks e) (hlooks' e)⟩

theorem Looking.mono {others : String → Prop} (h : p.Looking files u)
    (hsub : ∀ path, files path → others path) : p.Looking others u := by
  obtain ⟨t, hbacked, hlooks⟩ := h
  exact ⟨t, hbacked, fun e he => (hlooks e he).mono hsub⟩

theorem looking_of_keeps (h : ∀ e ∈ u, e.op.Keeps files) : p.Looking files u := by
  induction u with
  | nil => exact ⟨[], .nil, fun _ he => absurd he List.not_mem_nil⟩
  | cons e u ih =>
    have hbacked : Backed p.answer [⟨.host e.op, e.reply⟩] ([e] ++ []) :=
      .cons (Program.executes_one.2 rfl) .nil
    refine Looking.append (u := [e]) ⟨_, hbacked, fun e' he' => ?_⟩
      (ih fun e he => h e (List.mem_cons_of_mem _ he))
    obtain rfl := List.mem_singleton.1 he'
    exact isLooking_of_keeps (h e List.mem_cons_self)

theorem looking_of_run {α : Type} {x : Lifecycle.RunTask α} {r : Except Lifecycle.Error α}
    (hx : x.run.Only (Lifecycle.Step.Looks files)) (h : (p.run x).run.Executes u r) :
    p.Looking files u := by
  obtain ⟨t, ht, hbacked⟩ := executes_run h
  exact ⟨t, hbacked, fun e he => .inl (hx.executes ht e he)⟩

theorem copy_of_draft {path : String} (h : draft s scratch = .ok p)
    (hpath : p.action.IsCopy path) : path = Path.join scratch StateFile.localName := by
  unfold Lifecycle.Action.IsCopy at hpath
  rcases (action_of_draft h).2 with hb | hb
  · rw [hb] at hpath
    exact hpath.elim
  · rw [hb] at hpath
    exact hpath

/-- The journal `u` of the steps `t`, which only look: the requests on the host, the workspaces and
what the driver keeps. -/
structure Spectates (p : Prepared) (files : String → Prop) (t : Record) (u : Journal) : Prop where
  backed : Backed p.answer t u
  steps : ∀ e ∈ t, IsLooking files e.op
  requests : ∀ e ∈ u, Engine.Terraform.Looks
    (fun path => files path ∨ path = p.config.overridePath) e.op
  workspaces : ∀ w w', Passes Workspaces.Reflects w t w' → w' = w
  store : ∀ (c : Storage.Call) reply v, ⟨.storage c, reply⟩ ∈ t →
    (p.driver.answer c).Executes v reply → ∀ current d d', Passes (Disk.Serves current) d v d' →
      d' = d

theorem looks_answer (hdriver : p.driver.Views) {step : Lifecycle.Step}
    (h : IsLooking files step) : (p.answer step).Only
      (Engine.Terraform.Looks fun path => files path ∨ path = p.config.overridePath) := by
  rcases h with h | ⟨text, rfl⟩
  · cases step with
    | engine c => exact Engine.Terraform.looks_engine h (.inr rfl)
    | storage c => exact (hdriver c h).mono fun _ => Engine.Terraform.looks_of_viewing
    | host r =>
      exact ⟨Engine.Terraform.looks_of_keeps (h.1.mono fun _ => .inl), fun _ => trivial⟩
  · exact ⟨trivial, fun _ => trivial⟩

theorem Looking.spectates (hdriver : p.driver.Views) (h : p.Looking files u) :
    ∃ t, p.Spectates files t u := by
  obtain ⟨t, hbacked, hlooks⟩ := h
  refine ⟨t, hbacked, hlooks, hbacked.only hlooks fun _ => looks_answer hdriver, ?_, ?_⟩
  · intro w w' hpasses
    exact hpasses.preserves (I := (· = w)) (fun _ e _ he hreflects heq =>
      (unchanged_of_looking (hlooks e he) hreflects).trans heq) rfl
  · intro c reply v hmem hexecutes current d d' hpasses
    have hlooking : IsLooking files (.storage c) := hlooks _ hmem
    rcases hlooking with hc | ⟨text, heq⟩
    · exact unchanged_of_viewing hpasses ((hdriver c hc).executes hexecutes)
    · cases heq

end Prepared

/-- Nothing was changed: the command ended before it was prepared, or its run only looked. -/
inductive Untouched (files : String → Prop) (u : Journal) : Prop where
  | unprepared (h : ∀ e ∈ u, e.op.IsHarmless)
  | prepared {s : Settings} {scratch : String} {p : Prepared} {t : Record}
      (hp : Prepared.draft s scratch = .ok p) (h : p.Spectates files t u)

namespace Command

variable {directory : String} {request : Request} {u : Journal}

def IsPrelude (r : Host.Request) : Prop := r.IsHarmless ∧ r.IsMute

theorem isPrelude_of_reading {r : Host.Request} (h : r.IsReading) : IsPrelude r :=
  ⟨h.isHarmless, h.isMute⟩

inductive Frames (body : Settings → Prepared → Command Unit) (P : Settings → Prop) (u : Journal)
    (r : Except Failure Unit) : Prop where
  | early {f : Failure} (hr : r = .error f) (h : ∀ e ∈ u, IsPrelude e.op)
  | framed {s : Settings} {scratch : String} {p : Prepared} {before v : Journal} (hs : P s)
      (hp : Prepared.draft s scratch = .ok p)
      (hu : u = before ++ (v ++ [⟨.closeScratch scratch, ()⟩]))
      (hscratch : ⟨.openScratch, (.ok scratch : Except Fault String)⟩ ∈ before)
      (hbefore : ∀ e ∈ before, IsPrelude e.op) (hv : (body s p).run.Executes v r)

section Frames

variable {body : Settings → Prepared → Command Unit} {P : Settings → Prop} {t : Journal}
  {r : Except Failure Unit}

theorem Frames.after (ht : ∀ e ∈ t, IsPrelude e.op) (h : Frames body P u r) :
    Frames body P (t ++ u) r := by
  cases h with
  | early hr h => exact .early hr fun e he => (List.mem_append.1 he).elim (ht e) (h e)
  | framed hs hp hu hscratch hbefore hv =>
    refine .framed hs hp ?_ (List.mem_append_right t hscratch)
      (fun e he => (List.mem_append.1 he).elim (ht e) (hbefore e)) hv
    rw [hu, List.append_assoc]

theorem frames_bind {α : Type} {x : Command α} {g : α → Command Unit}
    (hx : x.run.Only IsPrelude) (h : (x >>= g).run.Executes u r)
    (hg : ∀ t v y, x.run.Executes t (.ok y) → (g y).run.Executes v r → Frames body P v r) :
    Frames body P u r := by
  rcases Task.executes_bind.1 h with ⟨f, hf, rfl⟩ | ⟨t₁, t₂, y, h₁, h₂, rfl⟩
  · exact .early rfl (hx.executes hf)
  · exact (hg t₁ t₂ y h₁ h₂).after (hx.executes h₁)

theorem prelude_ofStep {α : Type} {y : StepTask α} (hy : y.run.Only Host.Request.IsReading) :
    (ofStep y).run.Only IsPrelude :=
  Task.only_mapError (hy.mono fun _ => isPrelude_of_reading)

theorem prelude_readRequest : readRequest.run.Only IsPrelude :=
  Task.only_bind (Task.only_mapError ⟨isPrelude_of_reading trivial, fun _ => trivial⟩) fun _ =>
    prelude_ofStep trivial

theorem prelude_sayLine (text : String) : (sayLine text).run.Only IsPrelude :=
  Task.only_lift ⟨⟨fun _ => trivial, trivial⟩, fun _ => trivial⟩

theorem frames_withScratch {s : Settings} (hs : P s) (h : (withScratch fun scratch => do
      let p ← ofStep (Prepared.ofSettings s scratch)
      body s p).run.Executes u r) : Frames body P u r := by
  have hopen : IsPrelude .openScratch := ⟨fun _ => trivial, trivial⟩
  have hprepare (scratch : String) : (ofStep (Prepared.ofSettings s scratch)).run.Only IsPrelude :=
    prelude_ofStep Prepared.reading_ofSettings
  rcases executes_withScratch h with ⟨fault, rfl, rfl⟩ | ⟨scratch, v, hv, rfl⟩
  · refine .early rfl fun e he => ?_
    obtain rfl := List.mem_singleton.1 he
    exact hopen
  rcases Task.executes_bind.1 hv with ⟨f, hf, rfl⟩ | ⟨t₁, t₂, p, hp, hbody, rfl⟩
  · refine .early rfl fun e he => ?_
    rcases List.mem_cons.1 he with rfl | he
    · exact hopen
    · rcases List.mem_append.1 he with he | he
      · exact (hprepare scratch).executes hf e he
      · obtain rfl := List.mem_singleton.1 he
        exact ⟨fun _ => trivial, trivial⟩
  · have hjournal : (⟨.openScratch, (.ok scratch : Except Fault String)⟩ :: ((t₁ ++ t₂) ++
        [⟨.closeScratch scratch, ()⟩]) : Journal) = (⟨.openScratch, .ok scratch⟩ :: t₁) ++
          (t₂ ++ [⟨.closeScratch scratch, ()⟩]) := by
      simp only [List.append_assoc, List.cons_append]
    refine .framed hs (Prepared.executes_ofSettings (executes_mapError_ok.1 hp)) hjournal
      List.mem_cons_self (fun e he => ?_) hbody
    rcases List.mem_cons.1 he with rfl | he
    · exact hopen
    · exact (hprepare scratch).executes hp e he

end Frames

def putRun (s : Settings) (p : Prepared) : Command Unit := do
  let result ← perform s p
  writeResponse (.ofResult result (← engineVersion p))

theorem frames_put {r : Except Failure Unit} (hread : Reads u request)
    (h : (put directory).run.Executes u r) :
    Frames putRun (fun s => ∃ envName, s.Reflects request envName) u r := by
  rcases Task.executes_bind.1 h with ⟨f, hf, rfl⟩ | ⟨t₁, t₂, request', hrequest, h₁, rfl⟩
  · exact .early rfl (prelude_readRequest.executes hf)
  obtain ⟨rfl, -⟩ := executes_readRequest hread hrequest rfl
  refine .after (prelude_readRequest.executes hrequest) ?_
  refine frames_bind (prelude_ofStep Settings.reading_ofPut) h₁ fun t v s hs hv => ?_
  exact frames_withScratch (Settings.executes_ofPut (executes_mapError_ok.1 hs)) hv

def getRun (directory : String) (requested : Version) (s : Settings) (p : Prepared) :
    Command Unit := do
  let result ← ofStep (p.run (p.action.fetch requested.planOnly))
  writeResponse (← deliver directory s p requested result)

theorem frames_get {r : Except Failure Unit} (h : (get directory).run.Executes u r) :
    (∀ e ∈ u, e.op.IsHarmless) ∨
      ∃ requested, Frames (getRun directory requested) (fun _ => True) u r := by
  rcases Task.executes_bind.1 h with ⟨f, hf, rfl⟩ | ⟨t₁, t₂, request, hrequest, h₁, rfl⟩
  · exact .inl (harmless_readRequest.executes hf)
  rcases Task.executes_bind.1 h₁ with ⟨f, hf, rfl⟩ | ⟨t₃, t₄, requested, hrequested, h₂, rfl⟩
  · obtain ⟨rfl, -⟩ := Program.executes_done.1 hf
    rw [List.append_nil]
    exact .inl (harmless_readRequest.executes hrequest)
  obtain ⟨rfl, -⟩ := Program.executes_done.1 hrequested
  split at h₂
  · left
    obtain ⟨_, hprint, -⟩ := Task.executes_lift.1 h₂
    obtain rfl := Program.executes_one.1 hprint
    intro e he
    rcases List.mem_append.1 he with he | he
    · exact harmless_readRequest.executes hrequest e he
    · obtain rfl := List.mem_singleton.1 he
      exact fun _ => trivial
  · refine .inr ⟨requested, .after (prelude_readRequest.executes hrequest) ?_⟩
    refine frames_bind (prelude_ofStep Settings.reading_ofGet) h₂ fun t v s hs hv => ?_
    refine frames_bind (prelude_sayLine _) hv fun t v _ hbanner hv => ?_
    exact frames_withScratch trivial hv

def OnlyLooks (p : Prepared) (files : String → Prop) {α : Type} (x : Command α) : Prop :=
  ∀ u r, x.run.Executes u r → p.Looking files u

section OnlyLooks

variable {p : Prepared} {files : String → Prop} {s : Settings} {α β : Type}

theorem onlyLooks_bind {x : Command α} {g : α → Command β} (hx : OnlyLooks p files x)
    (hg : ∀ y, OnlyLooks p files (g y)) : OnlyLooks p files (x >>= g) := by
  intro u r h
  rcases Task.executes_bind.1 h with ⟨f, hf, -⟩ | ⟨t₁, t₂, y, h₁, h₂, rfl⟩
  · exact hx u _ hf
  · exact (hx t₁ _ h₁).append (hg y t₂ r h₂)

theorem onlyLooks_own {x : Command α} (h : x.run.Only (Host.Request.Keeps files)) :
    OnlyLooks p files x :=
  fun _ _ hx => Prepared.looking_of_keeps (h.executes hx)

theorem onlyLooks_run {x : Lifecycle.RunTask α} (hx : x.run.Only (Lifecycle.Step.Looks files)) :
    OnlyLooks p files (ofStep (p.run x)) := by
  intro u r h
  obtain ⟨_, hrun, -⟩ := Task.executes_mapError.1 h
  exact Prepared.looking_of_run hx hrun

theorem onlyLooks_sayLine (text : String) : OnlyLooks p files (sayLine text) :=
  onlyLooks_own (Task.only_lift ⟨trivial, fun _ => trivial⟩)

theorem onlyLooks_writeResponse (response : Response) :
    OnlyLooks p files (writeResponse response) :=
  onlyLooks_own (Task.only_lift ⟨trivial, fun _ => trivial⟩)

theorem onlyLooks_engineVersion : OnlyLooks p files (engineVersion p) := by
  refine onlyLooks_bind (fun u r h => ?_) fun outcome => ?_
  · obtain ⟨_, hrun, -⟩ := Task.executes_lift.1 h
    exact Prepared.looking_of_run Lifecycle.Action.looks_engineVersion hrun
  · cases outcome with
    | ok version => exact onlyLooks_own Task.only_pure
    | error e =>
      exact onlyLooks_bind (onlyLooks_own (Task.only_lift ⟨trivial, fun _ => trivial⟩)) fun _ =>
        onlyLooks_own Task.only_pure

theorem onlyLooks_writeFile {name : String} {content : Bytes}
    (h : files (Path.join directory name)) : OnlyLooks p files (writeFile directory name content) :=
  onlyLooks_own (Task.only_mapError ⟨h, fun _ => trivial⟩)

theorem onlyLooks_preview (hplan : s.planOnly = true)
    (hcopy : ∀ path, p.action.IsCopy path → files path) : OnlyLooks p files (putRun s p) := by
  simp only [putRun, perform, hplan, if_true, preview]
  refine onlyLooks_bind (onlyLooks_bind (onlyLooks_sayLine _) fun _ => onlyLooks_bind ?_ fun _ =>
    onlyLooks_own Task.only_pure) fun _ => onlyLooks_bind onlyLooks_engineVersion fun _ =>
      onlyLooks_writeResponse _
  exact onlyLooks_run ((Lifecycle.Action.looks_fetch true).mono fun _ h => h.mono hcopy)

def outputNames : List String := ["name", "metadata", StateFile.localName]

theorem onlyLooks_deliver {requested : Version} {result : RunResult}
    (hcopy : ∀ path, p.action.IsCopy path → files path)
    (hnames : ∀ name ∈ outputNames, files (Path.join directory name)) :
    OnlyLooks p files (deliver directory s p requested result) := by
  have hrest (state : Option Bytes) : OnlyLooks p files (do
      writeOutputs directory result state
      let response := Response.ofResult result (← engineVersion p)
      return if requested.planOnly then { response with version := requested } else response) := by
    refine onlyLooks_bind (onlyLooks_bind (onlyLooks_writeFile (hnames _ (by decide))) fun _ => ?_)
      fun _ => onlyLooks_bind onlyLooks_engineVersion fun _ => onlyLooks_own Task.only_pure
    cases state with
    | none => exact onlyLooks_own Task.only_pure
    | some content => exact onlyLooks_writeFile (hnames _ (by decide))
  refine onlyLooks_bind (onlyLooks_writeFile (hnames _ (by decide))) fun _ => ?_
  split
  · exact onlyLooks_bind (onlyLooks_sayLine _) fun _ => onlyLooks_own Task.only_pure
  · dsimp only
    split
    · rw [map_eq_pure_bind, bind_assoc]
      exact onlyLooks_bind (onlyLooks_run (Lifecycle.Action.looks_stateContents.mono fun _ h =>
        h.mono hcopy)) fun content => hrest (some content)
    · exact hrest none

theorem onlyLooks_get {requested : Version}
    (hcopy : ∀ path, p.action.IsCopy path → files path)
    (hnames : ∀ name ∈ outputNames, files (Path.join directory name)) :
    OnlyLooks p files (getRun directory requested s p) :=
  onlyLooks_bind (onlyLooks_run ((Lifecycle.Action.looks_fetch _).mono fun _ h => h.mono hcopy))
    fun _ => onlyLooks_bind (onlyLooks_deliver hcopy hnames) fun _ => onlyLooks_writeResponse _

end OnlyLooks

theorem Frames.untouched {body : Settings → Prepared → Command Unit} {P : Settings → Prop}
    {r : Except Failure Unit} {files : String → Prop} (h : Frames body P u r)
    (hbody : ∀ s scratch p, P s → Prepared.draft s scratch = .ok p →
      ⟨.openScratch, (.ok scratch : Except Fault String)⟩ ∈ u → OnlyLooks p files (body s p)) :
    Untouched files u := by
  cases h with
  | early hr h => exact .unprepared fun e he => (h e he).1
  | @framed s scratch p before v hs hp hu hscratch hbefore hv =>
    have hopened : ⟨.openScratch, (.ok scratch : Except Fault String)⟩ ∈ u :=
      hu ▸ List.mem_append_left _ hscratch
    have hclose : ∀ e ∈ ([⟨.closeScratch scratch, ()⟩] : Journal), e.op.Keeps files := by
      intro e he
      obtain rfl := List.mem_singleton.1 he
      trivial
    have hlooking : p.Looking files u := by
      rw [hu]
      exact (Prepared.looking_of_keeps fun e he => (hbefore e he).1.keeps).append
        ((hbody s scratch p hs hp hopened v r hv).append (Prepared.looking_of_keeps hclose))
    obtain ⟨t, ht⟩ := hlooking.spectates (Prepared.views_of_draft hp)
    exact .prepared hp ht

theorem executes_preview {s : Settings} {p : Prepared} {r : Except Failure Unit}
    (hplan : s.planOnly = true) (h : (putRun s p).run.Executes u r) :
    ∃ t outcome looking after, (p.action.fetch true).run.Executes t outcome ∧
      Backed p.answer t looking ∧
      u = said ("Previewing" ++ " " ++ s.envName) :: (looking ++ after) ∧
      match outcome with
      | .error e => r = .error (.run e) ∧ after = []
      | .ok result => r = .ok () ∧ ∃ asking version,
          (engineVersion p).run.Executes asking (.ok version) ∧
          after = asking ++ [⟨.printOutput (Response.ofResult
            { result with version := { result.version with planOnly := true } } version).line,
            ()⟩] := by
  simp only [putRun, perform, hplan, if_true, preview, bind_assoc] at h
  rcases Task.executes_bind.1 h with ⟨f, hf, -⟩ | ⟨t₁, t₂, _, hbanner, h₁, rfl⟩
  · obtain ⟨_, -, heq⟩ := Task.executes_lift.1 hf
    cases heq
  obtain rfl := executes_sayLine hbanner
  rcases Task.executes_bind.1 h₁ with ⟨f, hf, rfl⟩ | ⟨t₃, t₄, result, hfetch, h₂, rfl⟩
  · obtain ⟨outcome, hrun, heq⟩ := Task.executes_mapError.1 hf
    obtain ⟨t, ht, hbacked⟩ := Prepared.executes_run hrun
    cases outcome with
    | ok result => cases heq
    | error e =>
      cases heq
      exact ⟨t, .error e, t₂, [], ht, hbacked, by rw [List.append_nil]; rfl, rfl, rfl⟩
  · obtain ⟨t, ht, hbacked⟩ := Prepared.executes_run (executes_mapError_ok.1 hfetch)
    simp only [pure_bind] at h₂
    rcases Task.executes_bind.1 h₂ with ⟨f, hf, -⟩ | ⟨t₅, t₆, version, hversion, h₃, rfl⟩
    · exact (fails_engineVersion (E := fun _ _ => False) p _ _ hf).elim
    obtain ⟨_, hprint, rfl⟩ := Task.executes_lift.1 h₃
    obtain rfl := Program.executes_one.1 hprint
    exact ⟨t, .ok result, t₃, _, ht, hbacked, rfl, rfl, t₅, version, hversion, rfl⟩

/-- The local copy of the state in the directory for the files of the command. -/
def IsCopyIn (u : Journal) (path : String) : Prop :=
  ∃ scratch : String, ⟨.openScratch, (.ok scratch : Except Fault String)⟩ ∈ u ∧
    path = Path.join scratch StateFile.localName

theorem isCopyIn_of_draft {s : Settings} {scratch : String} {p : Prepared}
    (hp : Prepared.draft s scratch = .ok p)
    (hopened : ⟨.openScratch, (.ok scratch : Except Fault String)⟩ ∈ u) (path : String)
    (h : p.action.IsCopy path) : IsCopyIn u path :=
  ⟨scratch, hopened, Prepared.copy_of_draft hp h⟩

/-- A preview that failed had changed nothing: before it was prepared, or when a step of its fetch
failed. It does not fail for a missing environment. -/
inductive PreviewFails (u : Journal) (f : Failure) : Prop where
  | early (h : ∀ e ∈ u, e.op.IsHarmless)
  | stopped {s : Settings} {scratch : String} {p : Prepared} {t : Record} {v : Journal}
      {e : Lifecycle.Error} (hp : Prepared.draft s scratch = .ok p) (hf : f = .run e)
      (ht : (p.action.fetch true).run.Executes t (.error e)) (hbacked : Backed p.answer t v)
      (hv : v <:+: u) (hstopped : StoppedBy t e) (hmissed : ¬ p.action.Missed t) :
      PreviewFails u f

theorem printed_preview {s : Settings} {p : Prepared} {before v : Journal} {scratch : String}
    (hplan : s.planOnly = true) (hdriver : p.driver.Views)
    (hbefore : ∀ e ∈ before, IsPrelude e.op) (h : (putRun s p).run.Executes v (.ok ())) :
    ∃ response : Response,
      printed (before ++ (v ++ [⟨.closeScratch scratch, ()⟩])) = [response.line] ∧
        response.version.planOnly = true := by
  obtain ⟨t, outcome, looking, after, ht, hbacked, rfl, hends⟩ := executes_preview hplan h
  cases outcome with
  | error e => cases hends.1
  | ok result =>
    obtain ⟨-, asking, version, hasking, rfl⟩ := hends
    refine ⟨.ofResult { result with version := { result.version with planOnly := true } } version,
      ?_, rfl⟩
    have hlooking := printed_of_mute (hbacked.only (L := Host.Request.IsMute)
      ((Lifecycle.Action.looks_fetch true).executes ht) fun step hstep => ?_)
    · have hprelude := printed_of_mute fun e he => (hbefore e he).2
      have hasked := printed_of_mute ((silent_engineVersion.mono fun _ =>
        Host.Request.IsSilent.isMute).executes hasking)
      simp only [Host.printed, List.filterMap_append, List.filterMap_cons, said, printed?,
        hprelude, hlooking, hasked, List.nil_append, List.filterMap_nil]
      rfl
    · cases step with
      | engine c => exact Engine.Terraform.mute_engine c
      | storage c => exact (hdriver c hstep).mono fun _ => Host.Request.IsViewing.isMute
      | host r => exact ⟨hstep.2, fun _ => trivial⟩

theorem stopped_preview {s : Settings} {p : Prepared} {before v : Journal} {scratch : String}
    {f : Failure} {envName : String} (hs : s.Reflects request envName)
    (hplan : s.planOnly = true) (hp : Prepared.draft s scratch = .ok p)
    (h : (putRun s p).run.Executes v (.error f)) :
    PreviewFails (before ++ (v ++ [⟨.closeScratch scratch, ()⟩])) f := by
  obtain ⟨t, outcome, looking, after, ht, hbacked, rfl, hends⟩ := executes_preview hplan h
  cases outcome with
  | ok result => cases hends.1
  | error e =>
    obtain ⟨heq, rfl⟩ := hends
    have hn : Text.isAllBlank p.action.envName = false := by
      rw [(Prepared.action_of_draft hp).1]
      exact Settings.not_blank_of_valid hs.valid
    refine .stopped hp (Except.error.inj heq) ht hbacked ?_ (Lifecycle.stops_fetch_plan hn t e ht)
      fun hmissed => ?_
    · refine ⟨before ++ [said ("Previewing" ++ " " ++ s.envName)],
        [⟨.closeScratch scratch, ()⟩], ?_⟩
      simp only [List.append_assoc, List.cons_append, List.nil_append]
    · cases (Lifecycle.missing_of_missed hn ht hmissed).2

/-- No preview and no get changes a workspace or a stored object. What a preview prints is marked
as a plan, and a preview does not fail for want of a state. -/
theorem previews_and_reads_look :
    (∀ request directory u r, Reads u request → request.params.planOnly = true →
      (put directory).run.Executes u r →
        Untouched (IsCopyIn u) u ∧
        (r = .ok () → ∃ response : Response, printed u = [response.line] ∧
          response.version.planOnly = true) ∧
        ∀ f, r = .error f → PreviewFails u f) ∧
    ∀ directory u r, (get directory).run.Executes u r →
      Untouched (fun path => IsCopyIn u path ∨
        ∃ name ∈ outputNames, path = Path.join directory name) u := by
  refine ⟨fun request directory u r hread hrequest h => ?_, fun directory u r h => ?_⟩
  · have hframes := frames_put hread h
    refine ⟨hframes.untouched fun s scratch p hs hp hopened => ?_, ?_, ?_⟩
    · obtain ⟨envName, hs⟩ := hs
      exact onlyLooks_preview (hs.planOnly.trans hrequest) (isCopyIn_of_draft hp hopened)
    · rintro rfl
      cases hframes with
      | early hr _ => cases hr
      | framed hs hp hu _ hbefore hv =>
        obtain ⟨envName, hs⟩ := hs
        rw [hu]
        exact printed_preview (hs.planOnly.trans hrequest) (Prepared.views_of_draft hp) hbefore hv
    · rintro f rfl
      cases hframes with
      | early _ hprelude => exact .early fun e he => (hprelude e he).1
      | framed hs hp hu _ _ hv =>
        obtain ⟨envName, hs⟩ := hs
        rw [hu]
        exact stopped_preview hs (hs.planOnly.trans hrequest) hp hv
  · rcases frames_get h with hharmless | ⟨requested, hframes⟩
    · exact .unprepared hharmless
    · exact hframes.untouched fun s scratch p _ hp hopened =>
        onlyLooks_get (fun path hpath => .inl (isCopyIn_of_draft hp hopened path hpath))
          fun name hname => .inr ⟨name, hname, rfl⟩

-- An environment of which there is nothing yet.
namespace Foresight

def document : Json.Value := .object [
  ("source", Sample.description),
  ("version", .object [("env_name", .string "dev")]),
  ("params", .object [("plan_only", .bool true)])]

def machine : (r : effects.Op) → effects.Reply r :=
  Sample.machine document.compact false fun _ => []

def putRun : Journal × Except Failure Unit := (put "/work").run.replay machine

def getRun : Journal × Except Failure Unit := (get "/out").run.replay machine

def asked : Request :=
  ((Request.ofBytes (Text.Utf8.encode document.compact)).toOption).getD {}

theorem ofBytes_document :
    Request.ofBytes (Text.Utf8.encode document.compact) = .ok asked ∧
      asked.params.planOnly = true := by
  have hread : (Request.ofBytes (Text.Utf8.encode document.compact)).toOption.map
      (·.params.planOnly) = some true := by decide +kernel
  rw [asked]
  cases h : Request.ofBytes (Text.Utf8.encode document.compact) with
  | ok r =>
    rw [h] at hread
    exact ⟨rfl, Option.some.inj hread⟩
  | error e =>
    rw [h] at hread
    cases hread

theorem reads_document : Reads putRun.1 asked := by
  intro raw hraw
  have hreply : (.ok raw : Except Fault Bytes) = .ok (Text.Utf8.encode document.compact) :=
    Program.eq_of_mem_replay hraw
  rw [Except.ok.inj hreply]
  exact ofBytes_document.1

theorem put_ok : putRun.2 = .ok () := by
  obtain ⟨⟨⟩, hok⟩ := Lifecycle.exists_ok (r := putRun.2) (by decide +kernel)
  exact hok

theorem previews_and_reads_look_dev :
    (put "/work").run.Executes putRun.1 (.ok ()) ∧ Untouched (IsCopyIn putRun.1) putRun.1 ∧
    (∃ response : Response, printed putRun.1 = [response.line] ∧
      response.version.planOnly = true) ∧
    Untouched (fun path => IsCopyIn getRun.1 path ∨
      ∃ name ∈ outputNames, path = Path.join "/out" name) getRun.1 := by
  have hput : (put "/work").run.Executes putRun.1 (.ok ()) :=
    put_ok ▸ Program.executes_replay _ _
  obtain ⟨huntouched, hprinted, -⟩ := previews_and_reads_look.1 asked "/work" putRun.1 (.ok ())
    reads_document ofBytes_document.2 hput
  exact ⟨hput, huntouched, hprinted rfl,
    previews_and_reads_look.2 "/out" getRun.1 getRun.2 (Program.executes_replay _ _)⟩

end Foresight

end Command

end Provision.Pipeline
