import Provision.Proofs.Lifecycle.Results
import Provision.Proofs.Pipeline.Preview

/-!
# How commands answer

A command that ends well has printed one line, its response, and one that fails has printed
nothing. All that a command does besides is mute, so the line is determined by the last of its
parts; `Answers` carries what is known of the response from part to part.
-/

namespace Provision

open Provision.Host
open Provision.Task (executes_mapError_ok)

def Lifecycle.Step.IsInner : Lifecycle.Step → Prop
  | .host r => r.IsInner
  | _ => True

theorem Lifecycle.Action.mayDestroy_inner {a : Lifecycle.Action} :
    a.MayDestroy Lifecycle.Step.IsInner where
  log _ := trivial
  pullState := trivial
  readOutput := trivial
  initBackend _ := trivial
  listWorkspaces _ := trivial
  initLocal _ _ := trivial
  probe _ _ := trivial
  download _ _ := trivial
  readCopy _ _ := trivial
  writeCopy _ _ _ := trivial
  makeParent _ _ _ _ := trivial
  apply := trivial
  listState := trivial
  adopt _ _ := trivial
  newWorkspace _ := trivial
  findCopy _ _ := trivial
  upload _ _ _ := trivial
  destroy := trivial
  deleteWorkspace _ := trivial
  delete _ _ := trivial

namespace Pipeline

namespace Prepared

theorem inner_of_draft {s : Settings} {scratch : String} {p : Prepared}
    (h : draft s scratch = .ok p) (c : Storage.Call) :
    (p.driver.answer c).Only Request.IsInner := by
  unfold draft at h
  split at h
  · split at h
    · cases h
    · next hdriver =>
      cases h
      exact Storage.Driver.inner_ofConfig hdriver c
  · cases h
    exact (Storage.Nowhere.reading_driver c).mono fun _ => Request.IsReading.isInner

theorem inner_run {α : Type} {p : Prepared} {x : Lifecycle.RunTask α}
    (hdriver : ∀ c, (p.driver.answer c).Only Request.IsInner)
    (hx : x.run.Only Lifecycle.Step.IsInner) : (p.run x).run.Only Request.IsInner := by
  refine Program.only_interpret hx fun step hstep => ?_
  cases step with
  | engine c => exact Engine.Terraform.inner_engine c
  | storage c => exact hdriver c
  | host r => exact ⟨hstep, fun _ => trivial⟩

end Prepared

namespace Command

variable {P : Journal → Response → Prop} {directory : String} {s : Settings} {p : Prepared}

/-- Whatever the command does, it prints its response, of which `P` says something, or it fails
and prints nothing. -/
def Answers (P : Journal → Response → Prop) (x : Command Unit) : Prop :=
  ∀ u r, x.run.Executes u r →
    (r = .ok () → ∃ response, P u response ∧ printed u = [response.line]) ∧
    ∀ f, r = .error f → printed u = []

theorem Answers.mono {Q : Journal → Response → Prop} {x : Command Unit} (hx : Answers P x)
    (h : ∀ u response, P u response → Q u response) : Answers Q x := by
  intro u r hu
  refine ⟨fun hr => ?_, (hx u r hu).2⟩
  obtain ⟨response, hresponse, hprinted⟩ := (hx u r hu).1 hr
  exact ⟨response, h u response hresponse, hprinted⟩

theorem answers_bind {α : Type} {x : Command α} {g : α → Command Unit}
    (hx : x.run.Only Host.Request.IsInner)
    (hg : ∀ t y, x.run.Executes t (.ok y) → Answers (fun v => P (t ++ v)) (g y)) :
    Answers P (x >>= g) := by
  intro u r h
  have hmute {t : Journal} {r : Except Failure α} (ht : x.run.Executes t r) : printed t = [] :=
    printed_of_mute fun e he => (hx.executes ht e he).isMute
  rcases Task.executes_bind.1 h with ⟨f, hf, rfl⟩ | ⟨t, v, y, ht, hv, rfl⟩
  · exact ⟨nofun, fun _ _ => hmute hf⟩
  · have hprinted : printed (t ++ v) = printed v := by
      rw [printed, List.filterMap_append]
      exact congrArg (· ++ _) (hmute ht)
    rw [hprinted]
    exact hg t y ht v r hv

theorem answers_writeResponse {response : Response}
    (h : P [⟨.printOutput response.line, ()⟩] response) : Answers P (writeResponse response) := by
  intro u r hu
  obtain ⟨_, hprint, rfl⟩ := Task.executes_lift.1 hu
  obtain rfl := Program.executes_one.1 hprint
  exact ⟨fun _ => ⟨response, h, rfl⟩, nofun⟩

theorem answers_withScratch {body : String → Command Unit}
    (h : ∀ scratch, Answers (fun v => P (⟨.openScratch, (.ok scratch : Except Fault String)⟩ ::
      (v ++ [⟨.closeScratch scratch, ()⟩]))) (body scratch)) : Answers P (withScratch body) := by
  intro u r hu
  rcases executes_withScratch hu with ⟨fault, rfl, rfl⟩ | ⟨scratch, v, hv, rfl⟩
  · exact ⟨nofun, fun _ _ => rfl⟩
  · have hprinted : printed (⟨.openScratch, (.ok scratch : Except Fault String)⟩ ::
        (v ++ [⟨.closeScratch scratch, ()⟩])) = printed v := by
      simp only [printed, List.filterMap_cons, List.filterMap_append, printed?, List.filterMap_nil,
        List.append_nil]
    rw [hprinted]
    exact h scratch v r hv

theorem inner_ofStep {α : Type} {y : StepTask α} (hy : y.run.Only Host.Request.IsReading) :
    (ofStep y).run.Only Host.Request.IsInner :=
  Task.only_mapError (hy.mono fun _ => Host.Request.IsReading.isInner)

theorem inner_readRequest : readRequest.run.Only Host.Request.IsInner :=
  Task.only_bind (Task.only_mapError ⟨trivial, fun _ => trivial⟩) fun _ => inner_ofStep trivial

theorem inner_sayLine (text : String) : (sayLine text).run.Only Host.Request.IsInner :=
  Task.only_lift ⟨trivial, fun _ => trivial⟩

theorem inner_engineVersion : (engineVersion p).run.Only Host.Request.IsInner := by
  refine Task.only_bind (Task.only_lift (Program.only_bind (Engine.Terraform.inner_engine
    .engineVersion) fun _ => trivial)) fun outcome => ?_
  cases outcome with
  | ok version => exact Task.only_pure
  | error e => exact Task.only_bind (Task.only_lift ⟨trivial, fun _ => trivial⟩) fun _ =>
      Task.only_pure

section Inner

variable (hdriver : ∀ c, (p.driver.answer c).Only Host.Request.IsInner)

include hdriver

theorem inner_ofRun {α : Type} {x : Lifecycle.RunTask α}
    (hx : x.run.Only Lifecycle.Step.IsInner) : (ofStep (p.run x)).run.Only Host.Request.IsInner :=
  Task.only_mapError (Prepared.inner_run hdriver hx)

theorem inner_perform : (perform s p).run.Only Host.Request.IsInner := by
  have hlooks := Lifecycle.Action.mayDestroy_inner (a := p.action)
  unfold perform
  split
  · exact Task.only_bind (inner_sayLine _) fun _ => Task.only_bind
      (inner_ofRun hdriver (Lifecycle.Action.only_fetch hlooks.toMayLook true)) fun _ =>
        Task.only_pure
  · cases s.action with
    | destroy =>
      exact Task.only_bind (inner_sayLine _) fun _ =>
        Task.only_bind (inner_ofRun hdriver (Lifecycle.Action.only_destroy hlooks)) fun _ =>
          Task.only_bind (inner_sayLine _) fun _ => Task.only_pure
    | create =>
      refine Task.only_bind (inner_sayLine _) fun _ => Task.only_bind
        (Task.only_lift (Prepared.inner_run hdriver (Lifecycle.Action.only_apply hlooks)))
        fun outcome => ?_
      cases outcome with
      | ok result => exact Task.only_bind (inner_sayLine _) fun _ => Task.only_pure
      | error e =>
        dsimp only
        split
        · exact Task.only_bind (inner_sayLine _) fun _ => Task.only_throw
        · exact Task.only_throw

theorem inner_deliver {requested : Version} {result : RunResult} :
    (deliver directory s p requested result).run.Only Host.Request.IsInner := by
  have hwrite (name : String) (content : Bytes) :
      (writeFile directory name content).run.Only Host.Request.IsInner :=
    Task.only_mapError ⟨trivial, fun _ => trivial⟩
  have hrest (state : Option Bytes) : (do
      writeOutputs directory result state
      let response := Response.ofResult result (← engineVersion p)
      return if requested.planOnly then { response with version := requested } else response :
        Command Response).run.Only Host.Request.IsInner := by
    refine Task.only_bind (Task.only_bind (hwrite _ _) fun _ => ?_) fun _ =>
      Task.only_bind inner_engineVersion fun _ => Task.only_pure
    cases state with
    | none => exact Task.only_pure
    | some content => exact hwrite _ _
  refine Task.only_bind (hwrite _ _) fun _ => ?_
  split
  · exact Task.only_bind (inner_sayLine _) fun _ => Task.only_pure
  · dsimp only
    split
    · rw [map_eq_pure_bind, bind_assoc]
      exact Task.only_bind (inner_ofRun hdriver (Lifecycle.Action.only_stateContents
        Lifecycle.Action.mayDestroy_inner.toMayLook)) fun content => hrest (some content)
    · exact hrest none

end Inner

theorem answers_put (h : ∀ u t scratch s p result version, Prepared.draft s scratch = .ok p →
      (perform s p).run.Executes t (.ok result) → t ⊆ u → P u (.ofResult result version)) :
    Answers P (put directory) := by
  refine answers_bind inner_readRequest fun t₁ request _ =>
    answers_bind (inner_ofStep Settings.reading_ofPut) fun t₂ s _ =>
      answers_withScratch fun scratch =>
        answers_bind (inner_ofStep Prepared.reading_ofSettings) fun t₃ p hp => ?_
  have hdraft := Prepared.executes_ofSettings (executes_mapError_ok.1 hp)
  refine answers_bind (inner_perform (Prepared.inner_of_draft hdraft)) fun t₄ result hresult =>
    answers_bind inner_engineVersion fun t₅ version _ => answers_writeResponse ?_
  exact h _ t₄ scratch s p result version hdraft hresult fun e he => by simp [he]

end Command

end Pipeline

end Provision
