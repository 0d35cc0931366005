import Provision.Proofs.Engine.Refusal
import Provision.Proofs.Pipeline.RoundTrip
import Provision.Proofs.Storage.Refusal

/-!
# Validation errors of the commands

A command that ends with a validation error has started nothing and changed nothing, with two
exceptions. A key that the driver has no path for is refused only when the stored object is first
probed, after the engine was initialized. And the file of variables is written last before the
engine is started, so that a failure to write it can come after a setup, but after nothing more.
-/

namespace Provision.Pipeline

open Provision.Host
open Provision.Engine.Terraform (SetsUp)
open Provision.Program (Backed)
open Provision.Task (Fails executes_lift_ok executes_mapError_ok fails_bind fails_lift
  fails_mapError fails_pure fails_throw only_bind only_lift only_mapError)

def localInit : List String := ["init", "-input=false", "-no-color", "-backend=false", "-get=true"]

/-- The files that a setup writes: the local copy, the override and the file of variables. -/
def Prepared.IsOwn (p : Prepared) (path : String) : Prop :=
  p.action.IsCopy path ∨ path = p.config.overridePath ∨ path = p.config.varsPath

/-- What the journal of a command shows that ended with the validation error `text`. -/
inductive Refusal (text : String) : Journal → Prop where
  | untouched {u : Journal} (h : ∀ e ∈ u, Harmless e) : Refusal text u
  | key {before after : Journal} {i : Invocation} {reply : Except Fault Finished} {key : String}
      (hkey : Storage.LocalDirectory.isValidKey key = false)
      (htext : text = (Storage.invalidKey key).message) (hi : i.arguments = localInit)
      (hbefore : ∀ e ∈ before, Harmless e) (hafter : ∀ e ∈ after, Harmless e) :
      Refusal text (before ++ ⟨.start i, reply⟩ :: after)
  | vars {s : Settings} {scratch : String} {p : Prepared} {before after : Journal}
      {content : Bytes} {fault : Fault} (hp : Prepared.draft s scratch = .ok p)
      (htext : text = "Failed to write vars file '" ++ p.config.varsPath ++ "': " ++ fault.message)
      (hbefore : ∀ e ∈ before, Harmless e ∨ SetsUp p.IsOwn e.op)
      (hafter : ∀ e ∈ after, Harmless e) :
      Refusal text (before ++ ⟨.writeFile p.config.varsPath content, .error fault⟩ :: after)

variable {text : String} {j u : Journal}

theorem Refusal.preceded (hj : ∀ e ∈ j, Harmless e) (h : Refusal text u) :
    Refusal text (j ++ u) := by
  cases h with
  | untouched h =>
    exact .untouched fun e he => (List.mem_append.1 he).elim (hj e) (h e)
  | key hkey htext hi hbefore hafter =>
    rw [← List.append_assoc]
    exact .key hkey htext hi (fun e he => (List.mem_append.1 he).elim (hj e) (hbefore e)) hafter
  | vars hp htext hbefore hafter =>
    rw [← List.append_assoc]
    exact .vars hp htext
      (fun e he => (List.mem_append.1 he).elim (fun he => .inl (hj e he)) (hbefore e)) hafter

theorem Refusal.followed (hj : ∀ e ∈ j, Harmless e) (h : Refusal text u) :
    Refusal text (u ++ j) := by
  cases h with
  | untouched h =>
    exact .untouched fun e he => (List.mem_append.1 he).elim (h e) (hj e)
  | key hkey htext hi hbefore hafter =>
    rw [List.append_assoc, List.cons_append]
    exact .key hkey htext hi hbefore fun e he => (List.mem_append.1 he).elim (hafter e) (hj e)
  | vars hp htext hbefore hafter =>
    rw [List.append_assoc, List.cons_append]
    exact .vars hp htext hbefore fun e he => (List.mem_append.1 he).elim (hafter e) (hj e)

namespace Prepared

open Provision.Lifecycle (Refused Refuses)

variable {s : Settings} {scratch : String} {p : Prepared} {t : Lifecycle.Record}

theorem refusesKeys_of_draft (h : draft s scratch = .ok p) : p.driver.RefusesKeys := by
  unfold draft at h
  split at h
  · split at h
    · cases h
    · next hdriver =>
      cases h
      exact Storage.Driver.refusesKeys_ofConfig hdriver
  · cases h
    exact Storage.Nowhere.refusesKeys

theorem rejects_of_refuses (hdriver : p.driver.RefusesKeys) {c : Storage.Call} {reply : c.Reply}
    (h : (p.driver.answer c).Executes u reply) (hrefuses : Refuses text ⟨.storage c, reply⟩) :
    Storage.LocalDirectory.isValidKey c.key = false ∧ p.driver.Rejects c.key ∧ u = [] ∧
      text = (Storage.invalidKey c.key).message := by
  obtain ⟨e, he, htext⟩ := Option.map_eq_some_iff.1 hrefuses
  rcases hdriver c u reply e h he with htransfer | ⟨hkey, hrejects⟩
  · cases e <;> first | exact htransfer.elim | cases htext
  · obtain ⟨hu, herror⟩ := hrejects c u reply rfl h
    obtain rfl := Option.some.inj (he.symm.trans herror)
    cases htext
    exact ⟨hkey, hrejects, hu, rfl⟩

theorem journal_initLocal {c : Engine.Terraform.Config}
    (h : (Engine.Terraform.initLocal c).run.Executes u (.ok ())) :
    ∃ line i reply, i.arguments = localInit ∧ u = [⟨.log line, ()⟩, ⟨.start i, reply⟩] := by
  obtain ⟨_, _, _, hrun, h₁, rfl⟩ := Task.executes_bind_ok.1 h
  obtain ⟨rfl, -⟩ := Task.executes_pure_ok.1 h₁
  obtain ⟨line, reply, rfl⟩ := Engine.Terraform.journal_run hrun
  exact ⟨line, _, reply, rfl, List.append_nil _⟩

theorem setsUp_answer (hdriver : p.driver.Views) {step : Lifecycle.Step}
    (h : step.SetsUp p.action.IsCopy) : (p.answer step).Only (SetsUp p.IsOwn) := by
  cases step with
  | engine c => exact Engine.Terraform.setsUp_engine h (.inr (.inl rfl)) (.inr (.inr rfl))
  | storage c =>
    exact (hdriver c h).mono fun _ hviews => (Engine.Terraform.looks_of_viewing hviews).setsUp
  | host r =>
    exact ⟨(Engine.Terraform.looks_of_keeps (h.1.mono fun _ => .inl)).setsUp, fun _ => trivial⟩

theorem refusal_of_refused (hp : draft s scratch = .ok p) (h : Refused p.action text t)
    (hvars : p.action.VarsAfterSetup t) (hb : Backed p.answer t u) : Refusal text u := by
  have hdriver := refusesKeys_of_draft hp
  induction h generalizing u with
  | @atStart c reply hc hrefuses =>
    obtain ⟨u₁, _, hcall, hrest, rfl⟩ := Program.Backed.cons_iff.1 hb
    cases hrest
    rw [List.append_nil]
    exact .untouched (Engine.Terraform.refused_init hc hcall hrefuses)
  | @atProbe f reply hstored hrefuses =>
    obtain ⟨u₁, _, hinit, hrest, rfl⟩ := Program.Backed.cons_iff.1 hb
    obtain ⟨u₂, _, hprobe, hnil, rfl⟩ := Program.Backed.cons_iff.1 hrest
    cases hnil
    obtain ⟨line, i, answer, hi, rfl⟩ := journal_initLocal hinit
    obtain ⟨hkey, -, rfl, htext⟩ := rejects_of_refuses hdriver hprobe hrefuses
    have hline : ∀ e ∈ ([⟨.log line, ()⟩] : Journal), Harmless e := by
      intro e he
      obtain rfl := List.mem_singleton.1 he
      trivial
    exact .key hkey htext hi hline fun e he => absurd he List.not_mem_nil
  | @later t last hlast hprobed hrefuses =>
    obtain ⟨u₁, _, hbefore, hrest, rfl⟩ := hb.append
    obtain ⟨u₂, _, hcall, hnil, rfl⟩ := Program.Backed.cons_iff.1 hrest
    cases hnil
    obtain ⟨op, reply⟩ := last
    cases op with
    | engine c =>
      obtain ⟨htakes, content, fault, rfl, htext⟩ :=
        Engine.Terraform.refused_late hlast hcall hrefuses
      have hsetup := hbefore.only (hvars t _ rfl htakes) fun _ => setsUp_answer (views_of_draft hp)
      exact .vars hp htext (fun e he => .inr (hsetup e he)) fun e he => absurd he List.not_mem_nil
    | storage c =>
      -- A key that is rejected was not answered by the probe before.
      obtain ⟨f, hstored, hkey⟩ := hlast
      obtain ⟨-, hrejects, -, -⟩ := rejects_of_refuses hdriver hcall hrefuses
      obtain ⟨v, hprobe⟩ := hprobed f hstored
      obtain ⟨w, -, hanswer⟩ := hbefore.mem hprobe
      obtain ⟨-, herror⟩ := hrejects (.version f.key) w _ hkey.symm hanswer
      cases herror
    | host r => exact hlast.elim
  | @logged e t he h ih =>
    obtain ⟨u₁, u₂, hline, hrest, rfl⟩ := Program.Backed.cons_iff.1 hb
    refine (ih hvars.tail hrest).preceded fun e' he' => ?_
    obtain ⟨op, reply⟩ := e
    cases op with
    | engine c => exact he.elim
    | storage c => exact he.elim
    | host r =>
      cases r with
      | log line =>
        obtain rfl := Program.executes_one.1 hline
        obtain rfl := List.mem_singleton.1 he'
        trivial
      | _ => exact he.elim

inductive IsRun (a : Lifecycle.Action) : Lifecycle.RunTask RunResult → Prop where
  | apply : IsRun a a.apply
  | destroy : IsRun a a.destroy
  | fetch (planOnly : Bool) : IsRun a (a.fetch planOnly)

theorem IsRun.refused {a : Lifecycle.Action} {x : Lifecycle.RunTask RunResult} (hx : IsRun a x)
    (h : x.run.Executes t (.error (.validation text))) :
    Lifecycle.Action.RefusedRun a text t := by
  cases hx with
  | apply => exact Lifecycle.Action.refused_apply h
  | destroy => exact Lifecycle.Action.refused_destroy h
  | fetch planOnly => exact Lifecycle.Action.refused_fetch h

theorem IsRun.afterSetup {a : Lifecycle.Action} {x : Lifecycle.RunTask RunResult} (hx : IsRun a x)
    (h : x.run.Executes t (.error (.validation text))) : a.VarsAfterSetup t := by
  cases hx with
  | apply => exact Lifecycle.Action.afterSetup_apply h
  | destroy => exact Lifecycle.Action.afterSetup_destroy t _ h
  | fetch planOnly => exact Lifecycle.Action.afterSetup_fetch planOnly t _ h

theorem refusal_of_run {x : Lifecycle.RunTask RunResult} (hp : draft s scratch = .ok p)
    (hx : IsRun p.action x) (h : (p.run x).run.Executes u (.error (.validation text))) :
    Refusal text u := by
  obtain ⟨t, ht, hb⟩ := executes_run h
  rcases hx.refused ht with ⟨rfl, -⟩ | hrefused
  · cases hb
    exact .untouched fun e he => absurd he List.not_mem_nil
  · exact refusal_of_refused hp hrefused (hx.afterSetup ht) hb

theorem fails_stateContents (p : Prepared) :
    (p.run p.action.stateContents).Fails Engine.Terraform.Allowed := by
  intro u e h
  obtain ⟨t, ht, hb⟩ := executes_run h
  unfold Lifecycle.Action.stateContents at ht
  cases hbackend : p.action.backend with
  | workspace =>
    rw [hbackend] at ht
    obtain rfl := Program.executes_one.1 ht
    obtain ⟨v, _, hpull, hnil, rfl⟩ := Program.Backed.cons_iff.1 hb
    cases hnil
    rw [List.append_nil]
    exact Engine.Terraform.fails_pullState _ v e hpull
  | stored file =>
    rw [hbackend] at ht
    have hread : (Lifecycle.fromStorage file.readLocal).Fails fun _ e =>
        ∀ text, e ≠ .validation text :=
      fails_mapError (fails_mapError fun _ _ _ => nofun)
    exact hread t e ht

end Prepared

/-- The text of a validation error, also of one that says which part of the request is invalid. -/
def Failure.validation? : Failure → Option String
  | .run (.validation text) => some text
  | .invalidVersion (.validation text) => some text
  | _ => none

def Failure.IsOther (_ : Journal) (f : Failure) : Prop := f.validation? = none

namespace Command

def Tells (u : Journal) (f : Failure) : Prop :=
  ∀ text, f.validation? = some text → Refusal text u

section Tells

variable {α β : Type} {x : Command α}

theorem tells_of_harmless (hx : x.run.Only Host.Request.IsHarmless) : x.Fails Tells :=
  fun _ _ h _ _ => .untouched fun e he => hx.executes h e he e.reply

theorem tells_bind {g : α → Command β} (hx : x.run.Only Host.Request.IsHarmless)
    (hg : ∀ t y, x.run.Executes t (.ok y) → (g y).Fails Tells) : (x >>= g).Fails Tells :=
  fails_bind (tells_of_harmless hx) fun t y hy => (hg t y hy).mono fun _ _ h text htext =>
    (h text htext).preceded fun e he => hx.executes hy e he e.reply

theorem tells_then {g : α → Command β} (hx : x.Fails Tells)
    (hg : ∀ y, (g y).Fails Failure.IsOther) : (x >>= g).Fails Tells :=
  fails_bind hx fun _ y _ => (hg y).mono fun _ f h text htext => by
    rw [Failure.IsOther] at h
    rw [h] at htext
    cases htext

theorem tells_withScratch {body : String → Command α}
    (hbody : ∀ scratch, (body scratch).Fails Tells) : (withScratch body).Fails Tells := by
  intro t f h text htext
  rcases executes_withScratch h with ⟨fault, hfault, -⟩ | ⟨scratch, v, hv, rfl⟩
  · cases hfault
    cases htext
  · refine .preceded (j := [_]) ?_ (.followed ?_ (hbody scratch v f hv text htext)) <;>
    · intro e he
      obtain rfl := List.mem_singleton.1 he
      trivial

theorem tells_ofStep {y : StepTask α}
    (hy : y.Fails fun u e => ∀ text, e = .validation text → Refusal text u) :
    (ofStep y).Fails Tells := by
  refine fails_mapError (hy.mono fun u e h text htext => h text ?_)
  cases e <;> cases htext
  rfl

end Tells

theorem harmless_ofStep {α : Type} {y : StepTask α} (hy : y.run.Only Host.Request.IsReading) :
    (ofStep y).run.Only Host.Request.IsHarmless :=
  only_mapError (hy.mono fun _ => Host.Request.IsReading.isHarmless)

theorem harmless_sayLine (text : String) : (sayLine text).run.Only Host.Request.IsHarmless :=
  only_lift ⟨fun _ => trivial, fun _ => trivial⟩

theorem harmless_readRequest : readRequest.run.Only Host.Request.IsHarmless :=
  only_bind (only_mapError ⟨fun _ => trivial, fun _ => trivial⟩) fun _ => harmless_ofStep trivial

theorem fails_engineVersion {E : Journal → Failure → Prop} (p : Prepared) :
    (engineVersion p).Fails E := by
  intro u f h
  obtain ⟨_, heq, -⟩ := achieves_engineVersion (P := fun _ => True) u _ h fun _ _ => trivial
  cases heq

theorem tells_create {s : Settings} {p : Prepared} {scratch : String}
    (hp : Prepared.draft s scratch = .ok p) : (create s p).Fails Tells := by
  refine tells_bind (harmless_sayLine _) fun _ _ _ => ?_
  refine fails_bind fails_lift fun u outcome houtcome => ?_
  cases outcome with
  | ok result => exact fails_bind fails_lift fun _ _ _ => fails_pure
  | error e =>
    have hrefusal (text : String) (htext : (Failure.run e).validation? = some text) :
        Refusal text u := by
      obtain rfl : e = .validation text := by
        cases e <;> cases htext
        rfl
      exact Prepared.refusal_of_run hp .apply (executes_lift_ok.1 houtcome)
    have hthrow {v : Journal} (hv : ∀ e ∈ v, Harmless e) : Tells (u ++ v) (.run e) :=
      fun text htext => (hrefusal text htext).followed hv
    dsimp only
    split
    · refine fails_bind fails_lift fun v _ hv => fails_throw ?_
      rw [List.append_nil]
      exact hthrow fun e he => (harmless_sayLine _).executes hv e he e.reply
    · exact fails_throw (hthrow fun _ he => absurd he List.not_mem_nil)

theorem tells_perform {s : Settings} {p : Prepared} {scratch : String}
    (hp : Prepared.draft s scratch = .ok p) : (perform s p).Fails Tells := by
  have hrun {x : Lifecycle.RunTask RunResult} (hx : Prepared.IsRun p.action x) :
      (ofStep (p.run x)).Fails Tells :=
    tells_ofStep fun u e h text htext => Prepared.refusal_of_run hp hx (htext ▸ h)
  unfold perform
  split
  · exact tells_bind (harmless_sayLine _) fun _ _ _ =>
      tells_then (hrun (.fetch true)) fun _ => fails_pure
  · cases s.action with
    | create => exact tells_create hp
    | destroy =>
      exact tells_bind (harmless_sayLine _) fun _ _ _ =>
        tells_then (hrun .destroy) fun _ => fails_bind fails_lift fun _ _ _ => fails_pure

theorem tells_put (directory : String) : (put directory).Fails Tells := by
  refine tells_bind harmless_readRequest fun _ request _ => ?_
  refine tells_bind (harmless_ofStep Settings.reading_ofPut) fun _ s _ => ?_
  refine tells_withScratch fun scratch => ?_
  refine tells_bind (harmless_ofStep Prepared.reading_ofSettings) fun _ p hp => ?_
  have hdraft := Prepared.executes_ofSettings (executes_mapError_ok.1 hp)
  exact tells_then (tells_perform hdraft) fun result =>
    fails_bind (fails_engineVersion p) fun _ _ _ => fails_lift

theorem fails_deliver {directory : String} {s : Settings} {p : Prepared} {requested : Version}
    {result : RunResult} :
    (deliver directory s p requested result).Fails Failure.IsOther := by
  have hwrite (name : String) (content : Bytes) :
      (writeFile directory name content).Fails Failure.IsOther :=
    fails_mapError fun _ _ _ => rfl
  have hstate : (ofStep (p.run p.action.stateContents)).Fails Failure.IsOther := by
    refine fails_mapError ((Prepared.fails_stateContents p).mono fun _ e he => ?_)
    cases e with
    | validation text => exact absurd rfl (he text)
    | _ => rfl
  have hrest (state : Option Bytes) : (do
      writeOutputs directory result state
      let response := Response.ofResult result (← engineVersion p)
      return if requested.planOnly then { response with version := requested } else response :
      Command Response).Fails Failure.IsOther := by
    refine fails_bind (fails_bind (hwrite _ _) fun _ _ _ => ?_) fun _ _ _ =>
      fails_bind (fails_engineVersion p) fun _ _ _ => fails_pure
    cases state with
    | none => exact fails_pure
    | some content => exact hwrite _ _
  refine fails_bind (hwrite _ _) fun _ _ _ => ?_
  split
  · exact fails_bind fails_lift fun _ _ _ => fails_pure
  · dsimp only
    split
    · rw [map_eq_pure_bind, bind_assoc]
      exact fails_bind hstate fun _ content _ => hrest (some content)
    · exact hrest none

theorem tells_get (directory : String) : (get directory).Fails Tells := by
  refine tells_bind harmless_readRequest fun _ request _ => ?_
  refine tells_bind (x := ExceptT.mk (pure (requestedVersion request))) trivial
    fun _ requested _ => ?_
  split
  · exact fails_lift
  · refine tells_bind (harmless_ofStep Settings.reading_ofGet) fun _ s _ => ?_
    refine tells_bind (harmless_sayLine _) fun _ _ _ => ?_
    refine tells_withScratch fun scratch => ?_
    refine tells_bind (harmless_ofStep Prepared.reading_ofSettings) fun _ p hp => ?_
    have hdraft := Prepared.executes_ofSettings (executes_mapError_ok.1 hp)
    refine tells_then (tells_ofStep fun u e h text htext =>
      Prepared.refusal_of_run hdraft (.fetch _) (htext ▸ h)) fun result => ?_
    exact fails_bind fails_deliver fun _ _ _ => fails_lift

theorem validation_precedes_effects (text : String) (u : Journal) :
    (∀ directory f, (put directory).run.Executes u (.error f) → f.validation? = some text →
      Refusal text u) ∧
    (∀ directory f, (get directory).run.Executes u (.error f) → f.validation? = some text →
      Refusal text u) ∧
    ∀ s scratch p x, Prepared.draft s scratch = .ok p → Prepared.IsRun p.action x →
      (p.run x).run.Executes u (.error (.validation text)) → Refusal text u :=
  ⟨fun directory f h htext => tells_put directory u f h text htext,
    fun directory f h htext => tells_get directory u f h text htext,
    fun _ _ _ _ hp hx h => Prepared.refusal_of_run hp hx h⟩

namespace Stray

def name : String := "../x"

def description : Json.Value := .object [
  ("env_name", .string name),
  ("storage", .object [("driver", .string "local"), ("path", .string "/states")]),
  ("terraform_source", .string "infra")]

def version : Version := .plan name

def machine (requested : Option Version) : (r : effects.Op) → effects.Reply r :=
  Sample.machine (Request.document description requested).compact false fun _ => []

def putRun : Journal × Except Failure Unit := (put "/work").run.replay (machine none)

def getRun : Journal × Except Failure Unit := (get "/out").run.replay (machine (some version))

def storage : Storage.Config where
  driver := some "local"
  attributes := Dict.ofList [("path", .string "/states")]

def settings : Settings where
  action := .destroy
  envName := name
  terraformSource := some "/work/infra"
  backendType := none
  backendConfig := {}
  storage := some storage
  vars := {}
  env := {}
  deleteOnFailure := false
  imports := {}
  outputModule := none
  outputStatefile := false
  planOnly := false

def refusalText : String := (Storage.invalidKey "../x.tfstate").message

def prepared : Prepared := .inDirectory settings "/tmp/run" "/states"

def destroyRun : Journal × Except Lifecycle.Error RunResult :=
  (prepared.run prepared.action.destroy).run.replay (machine none)

section Fails

variable {r : Except Failure Unit}

theorem exists_failure (h : (Lifecycle.errorOf r).bind Failure.validation? = some refusalText) :
    ∃ f, r = .error f ∧ f.validation? = some refusalText := by
  obtain ⟨f, hf, htext⟩ := Option.bind_eq_some_iff.1 h
  exact ⟨f, Lifecycle.eq_error hf, htext⟩

end Fails

theorem rootOf_storage : Storage.LocalDirectory.rootOf storage = .ok "/states" := by
  have hpath : storage.string? "path" = some "/states" := by decide +kernel
  rw [Storage.LocalDirectory.rootOf, Storage.Config.requireString, hpath]

theorem put_fails : ∃ f, putRun.2 = .error f ∧ f.validation? = some refusalText :=
  exists_failure (by decide +kernel)

theorem get_fails : ∃ f, getRun.2 = .error f ∧ f.validation? = some refusalText :=
  exists_failure (by decide +kernel)

theorem destroy_fails : destroyRun.2 = .error (.validation refusalText) :=
  Lifecycle.eq_error (by decide +kernel)

def started? : Event effects → Option Invocation
  | ⟨.start i, _⟩ => some i
  | _ => none

/-- The engine is started before the key is refused. -/
theorem starts_before_refusal : ∃ u f text, (put "/work").run.Executes u (.error f) ∧
    f.validation? = some text ∧ ∃ i reply, (⟨.start i, reply⟩ : Event effects) ∈ u := by
  obtain ⟨f, hf, htext⟩ := put_fails
  have hstarted : (putRun.1.findSome? started?).isSome = true := by decide +kernel
  obtain ⟨_, hfound⟩ := Option.isSome_iff_exists.1 hstarted
  obtain ⟨⟨op, reply⟩, he, hstart⟩ := List.exists_of_findSome?_eq_some hfound
  cases op with
  | start i =>
    exact ⟨putRun.1, f, refusalText, hf ▸ Program.executes_replay _ _, htext, i, reply, he⟩
  | _ => cases hstart

theorem validation_precedes_effects_stray :
    (∃ f, (put "/work").run.Executes putRun.1 (.error f) ∧ f.validation? = some refusalText ∧
      Refusal refusalText putRun.1) ∧
    (∃ f, (get "/out").run.Executes getRun.1 (.error f) ∧ f.validation? = some refusalText ∧
      Refusal refusalText getRun.1) ∧
    Prepared.draft settings "/tmp/run" = .ok prepared ∧
    (prepared.run prepared.action.destroy).run.Executes destroyRun.1
      (.error (.validation refusalText)) ∧
    Refusal refusalText destroyRun.1 := by
  obtain ⟨f, hf, htext⟩ := put_fails
  obtain ⟨f', hf', htext'⟩ := get_fails
  have hput : (put "/work").run.Executes putRun.1 (.error f) := hf ▸ Program.executes_replay _ _
  have hget : (get "/out").run.Executes getRun.1 (.error f') := hf' ▸ Program.executes_replay _ _
  have hdestroy : (prepared.run prepared.action.destroy).run.Executes destroyRun.1
      (.error (.validation refusalText)) := destroy_fails ▸ Program.executes_replay _ _
  have hdraft : Prepared.draft settings "/tmp/run" = .ok prepared := by
    rw [Prepared.draft_stored rfl rfl rfl, rootOf_storage]
    rfl
  exact ⟨⟨f, hput, htext, (validation_precedes_effects _ _).1 _ _ hput htext⟩,
    ⟨f', hget, htext', (validation_precedes_effects _ _).2.1 _ _ hget htext'⟩, hdraft, hdestroy,
    (validation_precedes_effects _ _).2.2 _ _ _ _ hdraft .destroy hdestroy⟩

end Stray

end Command

end Provision.Pipeline
