import Mathlib.Data.List.TakeWhile
import Provision.Proofs.Engine.Pinning
import Provision.Proofs.Lifecycle.Reporting
import Provision.Proofs.Storage.BucketKeeping

/-!
# What failed commands printed

A process that exits with a failure has printed why. Both of its texts, without the blanks at
their ends, are in the message of the error that its command ends in, and therefore in the message
of the run that made the call.
-/

namespace Provision.Engine.Terraform

open Provision.Host
open Provision.Lifecycle (Action Complains Contains Record RunTask Step onHost)
open Provision.Program (Backed Mute Reports executes_interpret executes_one reports_mute)
open Provision.Task (executes_lift_bind only_bind only_lift only_pure only_throw
  reports_ask reports_bind reports_mapError reports_pure reports_throw)
open Provision.Text (Within within_empty within_refl)

/-- What the process printed, and what it printed as errors, without the blanks at the ends. -/
def texts (finished : Finished) : List String :=
  [Text.trimEnd (Text.Utf8.lossy finished.output), Text.trimEnd (Text.Utf8.lossy finished.errors)]

def Diagnoses (d : Event effects) (text : String) : Prop :=
  ∃ i finished, d = ⟨.start i, (.ok finished : Except Fault Finished)⟩ ∧
    finished.status.isSuccess = false ∧ text ∈ texts finished

theorem mute_of_quiet {r : Request} (h : r.IsQuiet) : Mute Diagnoses r := by
  rintro reply text ⟨i, finished, heq, -⟩
  cases heq
  exact h i rfl

theorem trimEnd_of_blank {text : String} (h : Text.isAllBlank text = true) :
    Text.trimEnd text = "" := by
  have hnone : text.toList.reverse.dropWhile Text.isBlank = [] := by
    refine List.dropWhile_eq_nil_iff.2 fun c hc => ?_
    exact List.all_eq_true.1 h c (List.mem_reverse.1 hc)
  rw [Text.trimEnd, Text.dropEndWhile, hnone]
  rfl

theorem within_combine {output errors text : String}
    (h : text = Text.trimEnd output ∨ text = Text.trimEnd errors) :
    Within text (Reply.combine output errors) := by
  unfold Reply.combine
  split
  · next hblank =>
    rcases h with rfl | rfl
    · rw [trimEnd_of_blank hblank]
      exact within_empty _
    · exact within_refl _
  · split
    · next hblank =>
      rcases h with rfl | rfl
      · exact within_refl _
      · rw [trimEnd_of_blank hblank]
        exact within_empty _
    · rcases h with rfl | rfl
      · exact ((within_refl _).before "\n").before _
      · exact (within_refl _).after _

def InOutput (text : String) : Lifecycle.Error → Prop
  | .engine _ _ output => Within text output
  | _ => False

theorem InOutput.contains {text : String} {e : Lifecycle.Error} (h : InOutput text e) :
    Contains text e := by
  cases e with
  | engine command message output => exact Within.after h _
  | _ => exact h.elim

theorem InOutput.newWorkspace {text : String} {e : Lifecycle.Error} (name : String)
    (h : InOutput text e) : Contains text (newWorkspaceError name e) := by
  cases e with
  | engine command message output =>
    rw [newWorkspaceError]
    split
    · exact Within.after h _
    · exact h.contains
  | _ => exact h.elim

variable {c : Config}

theorem reports_quiet {ε α : Type} {kept : String → ε → Prop} {x : Task effects ε α}
    (h : x.run.Only Request.IsQuiet) : x.run.Reports Diagnoses kept :=
  reports_mute (h.mono fun _ => mute_of_quiet)

theorem reports_lift {ε α : Type} {kept : String → ε → Prop} {p : HostProgram α}
    (h : p.Only Request.IsQuiet) : (Task.lift p : Task effects ε α).run.Reports Diagnoses kept :=
  reports_quiet (only_lift h)

theorem reports_run (arguments : List String) (workspace : Option String) :
    (run c arguments workspace).run.Reports Diagnoses InOutput := by
  refine reports_bind (reports_lift ⟨nofun, fun _ => trivial⟩) fun _ =>
    reports_ask (fun reply => ?_) fun reply text htext u r h => ?_
  · cases reply with
    | error fault => exact reports_throw
    | ok finished =>
      dsimp only
      split
      · exact reports_pure
      · exact reports_throw
  · obtain ⟨i, finished, heq, hstatus, hmem⟩ := htext
    cases heq
    simp only [hstatus] at h
    obtain ⟨-, rfl⟩ := Task.executes_throw.1 h
    exact ⟨_, rfl, within_combine (by simpa [texts] using hmem)⟩

theorem reports_after {α : Type} {arguments : List String} {workspace : Option String}
    {f : Printed → Command α} (hf : ∀ printed, (f printed).run.Only Request.IsQuiet) :
    (run c arguments workspace >>= f).run.Reports Diagnoses Contains :=
  reports_bind ((reports_run _ _).mono fun _ _ => InOutput.contains) fun printed =>
    reports_quiet (hf printed)

theorem quiet_echo (lines : List String) : (echo lines).Only Request.IsQuiet :=
  only_echo (fun _ => nofun) lines

theorem reports_runLogged (arguments : List String) (workspace : Option String) :
    (runLogged c arguments workspace).run.Reports Diagnoses Contains :=
  reports_after fun _ => only_lift (quiet_echo _)

theorem quiet_varArguments : (varArguments c).run.Only Request.IsQuiet := by
  unfold varArguments
  split
  · exact only_pure
  · refine only_bind (only_lift ⟨nofun, fun _ => trivial⟩) fun reply => ?_
    cases reply with
    | ok _ => exact only_pure
    | error fault => exact only_throw

theorem quiet_writeOverride (backendType : String) :
    (writeOverride c backendType).run.Only Request.IsQuiet := by
  refine only_bind (only_lift ⟨nofun, fun _ => trivial⟩) fun reply => ?_
  cases reply with
  | ok _ => exact only_pure
  | error fault => exact only_throw

theorem quiet_stateMissing : (stateMissing c).Only Request.IsQuiet := by
  unfold stateMissing
  split
  · trivial
  · exact ⟨nofun, fun _ => trivial⟩

theorem reports_withVars (words : List String → List String) (workspace : Option String) :
    (do runLogged c (words (← varArguments c)) workspace : Command Unit).run.Reports Diagnoses
      Contains :=
  reports_bind (reports_quiet quiet_varArguments) fun _ => reports_runLogged _ _

theorem reports_engine {call : Engine.Call} {u : Journal} {reply : call.Reply}
    (h : (engine c call).Executes u reply) {d : Event effects} (hd : d ∈ u) {text : String}
    (htext : Diagnoses d text) :
    ∃ e, Lifecycle.Record.engineError call reply = some e ∧ Contains text e := by
  have told {α : Type} {x : Command α} {r : Except Lifecycle.Error α}
      (hx : x.run.Reports Diagnoses Contains) (h : x.run.Executes u r) :
      ∃ e, Lifecycle.errorOf r = some e ∧ Contains text e := by
    obtain ⟨e, rfl, hcontains⟩ := hx u r h d hd text htext
    exact ⟨e, rfl, hcontains⟩
  cases call with
  | initBackend env =>
    refine told (x := initBackend c env) ?_ h
    unfold initBackend
    split
    · exact reports_throw
    · exact reports_bind (reports_quiet (quiet_writeOverride _)) fun _ =>
        reports_bind (reports_lift ⟨nofun, fun _ => trivial⟩) fun _ =>
          reports_after fun _ => only_pure
  | initLocal => exact told (x := initLocal c) (reports_after fun _ => only_pure) h
  | listWorkspaces => exact told (x := listWorkspaces c) (reports_after fun _ => only_pure) h
  | newWorkspace name =>
    refine told (x := newWorkspace c name) ?_ h
    exact reports_bind (reports_mapError (reports_run _ _) fun _ _ => InOutput.newWorkspace name)
      fun _ => reports_pure
  | deleteWorkspace name =>
    exact told (x := deleteWorkspace c name) (reports_after fun _ => only_pure) h
  | apply env => exact told (x := mutate c "apply" env) (reports_withVars _ _) h
  | destroy env => exact told (x := mutate c "destroy" env) (reports_withVars _ _) h
  | pullState env =>
    have hpull : (pullState c env).run.Reports Diagnoses Contains := by
      unfold pullState
      split
      · refine reports_bind (reports_lift ⟨nofun, fun _ => trivial⟩) fun read => ?_
        cases read with
        | ok content => exact reports_pure
        | error fault => exact reports_throw
      · exact reports_after fun _ => only_pure
    obtain ⟨e, rfl, hcontains⟩ := hpull u reply h d hd text htext
    exact ⟨e, rfl, hcontains⟩
  | listState env =>
    refine told (x := listState c env) ?_ h
    refine reports_bind (reports_lift quiet_stateMissing) fun missing => ?_
    cases missing with
    | true => exact reports_pure
    | false => exact reports_after fun _ => only_pure
  | adopt env address id =>
    exact told (x := adopt c env address id) (reports_withVars (fun vars =>
      ["import", "-input=false", "-no-color"] ++ vars ++ stateArguments c ++ [address, id]) _) h
  | readOutput env =>
    refine told (x := readOutput c env) ?_ h
    refine reports_bind (reports_lift quiet_stateMissing) fun missing => ?_
    cases missing with
    | true => exact reports_pure
    | false =>
      refine reports_after fun printed => ?_
      cases Reply.outputs? printed.output with
      | some outputs => exact only_pure
      | none => exact only_throw
  | engineVersion =>
    refine told (x := engineVersion c) (reports_after fun printed => ?_) h
    cases Reply.version? printed.text with
    | some version => exact only_pure
    | none => exact only_throw

theorem verb_of_start {call : Engine.Call} {u : Journal} {reply : call.Reply} {i : Invocation}
    {outcome : Except Fault Finished} (h : (engine c call).Executes u reply)
    (hi : ⟨.start i, outcome⟩ ∈ u) : i.arguments.head? = (verb call).head? := by
  rcases settled_engine h with
    ⟨-, hquiet⟩ | ⟨-, before, i', reply', after, rfl, hbefore, hafter, hfits⟩
  · exact (hquiet _ hi i rfl).elim
  · obtain ⟨options, hwords, -⟩ := hfits.words
    rcases List.mem_append.1 hi with hi | hi
    · exact (hbefore _ hi i rfl).elim
    · rcases List.mem_cons.1 hi with heq | hi
      · cases heq
        rw [hwords]
        cases call <;> rfl
      · exact (hafter _ hi i rfl).elim

theorem quiet_ofConfig {s : Storage.Config} {driver : Storage.Driver}
    (h : Storage.Driver.ofConfig s = .ok driver) (call : Storage.Call) :
    (driver.answer call).Only Request.IsQuiet := by
  rcases Storage.Driver.ofConfig_cases h with ⟨b, rfl⟩ | ⟨root, rfl⟩ | rfl
  · refine (Storage.Bucket.only_concerns b call).mono fun r hr => ?_
    rintro i rfl
    exact hr
  · exact (Storage.LocalDirectory.local_driver root call).mono fun _ => Request.IsLocal.isQuiet
  · exact (Storage.Nowhere.local_driver call).mono fun _ => Request.IsLocal.isQuiet

def StartsNothing : Step → Prop
  | .host r => r.IsQuiet
  | _ => True

theorem mayDestroy_startsNothing (a : Action) : a.MayDestroy StartsNothing where
  log _ := nofun
  pullState := trivial
  readOutput := trivial
  initBackend _ := trivial
  listWorkspaces _ := trivial
  initLocal _ _ := trivial
  probe _ _ := trivial
  download _ _ := trivial
  readCopy _ _ := nofun
  writeCopy _ _ _ := nofun
  makeParent _ _ _ _ := nofun
  apply := trivial
  listState := trivial
  adopt _ _ := trivial
  newWorkspace _ := trivial
  findCopy _ _ := nofun
  upload _ _ _ := trivial
  destroy := trivial
  deleteWorkspace _ := trivial
  delete _ _ := trivial

theorem startsNothing_run {a : Action} {x : RunTask RunResult} (h : a.IsRun x) :
    x.run.Only StartsNothing := by
  have hmay := mayDestroy_startsNothing a
  cases h with
  | apply => exact Action.only_apply hmay
  | destroy => exact Action.only_destroy hmay
  | fetch planOnly => exact Action.only_fetch hmay.toMayLook planOnly

section Runs

variable {driver : Storage.Driver} {a : Action} {x : RunTask RunResult} {t : Record} {u : Journal}
  {r : Except Lifecycle.Error RunResult} {i : Invocation} {outcome : Except Fault Finished}

theorem call_of_start (hdriver : ∀ call, (driver.answer call).Only Request.IsQuiet)
    (hx : a.IsRun x) (h : x.run.Executes t r) (hbacked : Backed (Step.onHost (engine c) driver) t u)
    (hi : ⟨.start i, outcome⟩ ∈ u) :
    ∃ call reply v, Record.ofEngine call reply ∈ t ∧ (engine c call).Executes v reply ∧
      ⟨.start i, outcome⟩ ∈ v := by
  obtain ⟨⟨op, reply⟩, hmem, v, hv, hexec⟩ := hbacked.origin hi
  have hop := (startsNothing_run hx).executes h _ hmem
  cases op with
  | engine call => exact ⟨call, reply, v, hmem, hexec, hv⟩
  | storage call => exact ((hdriver call).executes hexec _ hv i rfl).elim
  | host q =>
    obtain rfl := executes_one.1 hexec
    cases List.mem_singleton.1 hv
    exact (hop i rfl).elim

theorem texts_of_call {call : Engine.Call} {reply : call.Reply} {finished : Finished}
    (h : (engine c call).Executes u reply)
    (hi : ⟨.start i, (.ok finished : Except Fault Finished)⟩ ∈ u)
    (hfailed : finished.status.isSuccess = false) :
    ∃ e, Record.engineError call reply = some e ∧
      ∀ text ∈ texts finished, Within text e.message := by
  have htold : ∀ text ∈ texts finished, ∃ e, Record.engineError call reply = some e ∧
      Contains text e := by
    intro text htext
    exact reports_engine h hi ⟨i, finished, rfl, hfailed, htext⟩
  obtain ⟨e, he, -⟩ := htold _ List.mem_cons_self
  refine ⟨e, he, fun text htext => ?_⟩
  obtain ⟨e', he', hcontains⟩ := htold text htext
  rw [he] at he'
  cases he'
  exact hcontains

/-- The message of a run contains both texts of every process that exited with a failure. Where the
engine fails to apply and then to destroy, the texts of the first stand before those of the
second. -/
theorem keeps_diagnostics (hdriver : ∀ call, (driver.answer call).Only Request.IsQuiet) :
    (∀ x, a.IsRun x → ∀ u r, (onHost (engine c) driver x.run).Executes u r →
      ∀ i finished, ⟨.start i, (.ok finished : Except Fault Finished)⟩ ∈ u →
        finished.status.isSuccess = false →
          ∃ e, r = .error e ∧ ∀ text ∈ texts finished, Within text e.message) ∧
    ∀ t u r cause second, a.apply.run.Executes t r →
      Backed (Step.onHost (engine c) driver) t u →
      Record.ofEngine (.apply a.envName) (.error cause) ∈ t →
      Record.ofEngine (.destroy a.envName) (.error second) ∈ t →
        ∃ e, r = .error e ∧
          e.message = "Apply Error: " ++ cause.message ++ "\nDestroy Error: " ++ second.message ∧
          ∀ i finished, ⟨.start i, (.ok finished : Except Fault Finished)⟩ ∈ u →
            finished.status.isSuccess = false →
              (i.arguments.head? = some "apply" →
                ∀ text ∈ texts finished, Within text cause.message) ∧
              (i.arguments.head? = some "destroy" →
                ∀ text ∈ texts finished, Within text second.message) := by
  constructor
  · intro x hx u r h i finished hi hfailed
    obtain ⟨t, ht, hbacked⟩ := executes_interpret h
    obtain ⟨call, reply, v, hmem, hexec, hv⟩ := call_of_start hdriver hx ht hbacked hi
    obtain ⟨e, he, htexts⟩ := texts_of_call hexec hv hfailed
    have htold : Complains (Record.ofEngine call reply) e.message := ⟨e, he, rfl⟩
    obtain ⟨report, rfl, hcontains⟩ := hx.reports t r ht _ hmem _ htold
    exact ⟨report, rfl, fun text htext => (htexts text htext).trans hcontains⟩
  · intro t u r cause second h hbacked happly hdestroy
    obtain ⟨cause', happlies, hdestroys, rfl⟩ := Lifecycle.rolledBack_of_destroy h
      (List.mem_filterMap.2 ⟨_, hdestroy, rfl⟩)
    have hcause {reply : Except Lifecycle.Error Unit} {env : String}
        (hmem : Record.ofEngine (.apply env) reply ∈ t) : reply = .error cause' :=
      List.mem_singleton.1 (happlies ▸ List.mem_filterMap.2 ⟨_, hmem, rfl⟩)
    have hsecond {reply : Except Lifecycle.Error Unit} {env : String}
        (hmem : Record.ofEngine (.destroy env) reply ∈ t) : reply = .error second :=
      List.mem_singleton.1 (hdestroys ▸ List.mem_filterMap.2 ⟨_, hmem, rfl⟩)
    cases hcause happly
    refine ⟨_, rfl, rfl, fun i finished hi hfailed => ?_⟩
    obtain ⟨call, reply, v, hmem, hexec, hv⟩ := call_of_start hdriver .apply h hbacked hi
    obtain ⟨e, he, htexts⟩ := texts_of_call hexec hv hfailed
    rw [verb_of_start hexec hv]
    constructor
    · intro hverb
      cases call with
      | apply env =>
        obtain rfl := hcause hmem
        cases he
        exact htexts
      | _ => simp [verb] at hverb
    · intro hverb
      cases call with
      | destroy env =>
        obtain rfl := hsecond hmem
        cases he
        exact htexts
      | _ => simp [verb] at hverb

end Runs

namespace OverQuota

def keeper : Config where
  source := "/infra"
  scratch := "/scratch"
  stateFile := some "/terraform.tfstate"

def dev : Action where
  backend := .stored ⟨"/terraform.tfstate", "dev.tfstate"⟩
  envName := "dev"
  deleteOnFailure := true

def started : Finished := ⟨.code 0, [], []⟩

def quota : Finished :=
  ⟨.code 1, Text.Utf8.encode "creating...\n", Text.Utf8.encode "quota exceeded\n"⟩

def locked : Finished := ⟨.code 1, [], Text.Utf8.encode "state locked\n"⟩

def command (finished : Finished) (arguments : List String) : Journal :=
  [⟨.log ⟨.debug, "Running: " ++ displayCommand arguments⟩, ()⟩,
    ⟨.start (invocation keeper arguments none), (.ok finished : Except Fault Finished)⟩]

def failure (finished : Finished) (arguments : List String) : Lifecycle.Error :=
  .engine (displayCommand arguments) finished.status.message
    (Reply.combine (Text.Utf8.lossy finished.output) (Text.Utf8.lossy finished.errors))

theorem executes_failed (finished : Finished) (h : finished.status.isSuccess = false)
    (arguments : List String) :
    (run keeper arguments none).run.Executes (command finished arguments)
      (.error (failure finished arguments)) := by
  refine executes_lift_bind.2 ⟨[_], [_], (), executes_one.2 rfl, ?_, rfl⟩
  refine executes_lift_bind.2 ⟨[_], [], .ok finished, executes_one.2 rfl, ?_, rfl⟩
  simp only [h]
  exact Task.executes_throw.2 ⟨rfl, rfl⟩

def words (verb : String) : List String :=
  [verb, "-auto-approve", "-input=false", "-no-color", "-state=/terraform.tfstate"]

def cause : Lifecycle.Error := failure quota (words "apply")

def second : Lifecycle.Error := failure locked (words "destroy")

def record : Record := [
  Record.ofEngine .initLocal (.ok ()),
  Record.ofStorage (.version "dev.tfstate") (.ok .zero),
  Record.ofLog .debug "No remote state at 'dev.tfstate'",
  Record.ofLog .info "No prior state at 'dev.tfstate'; this is the first apply",
  Record.ofLog .info "== Terraform Apply: dev ==",
  Record.ofEngine (.apply "dev") (.error cause),
  Record.ofLog .error "Failed to run terraform apply",
  Record.ofLog .warn "Cleaning up partially created resources...",
  Record.ofEngine (.destroy "dev") (.error second),
  Record.ofLog .error "Failed to run terraform destroy",
  Record.ofHost (.isFile "/terraform.tfstate") false]

theorem executes_record : dev.apply.run.Executes record (.error (.rollbackFailed cause second)) :=
  .step _ (.step _ (.step _ (.step _ (.step _ (.step _ (.step _ (.step _ (.step _ (.step _
    (.step _ (.done _)))))))))))

theorem executes_mutate (verb : String) (finished : Finished)
    (h : finished.status.isSuccess = false) :
    (mutate keeper verb "dev").run.Executes (command finished (words verb))
      (.error (failure finished (words verb))) := by
  refine Task.executes_bind.2 (.inr ⟨[], _, [], .done _, ?_, rfl⟩)
  exact Task.executes_bind.2 (.inl ⟨_, executes_failed finished h (words verb), rfl⟩)

theorem executes_initLocal : (initLocal keeper).run.Executes
    (command started ["init", "-input=false", "-no-color", "-backend=false", "-get=true"])
    (.ok ()) :=
  .step _ (.step _ (.done _))

def logged (level : Level) (message : String) : Event effects := ⟨.log ⟨level, message⟩, ()⟩

def journal : Journal :=
  command started ["init", "-input=false", "-no-color", "-backend=false", "-get=true"] ++
  [logged .debug "No remote state at 'dev.tfstate'",
    logged .info "No prior state at 'dev.tfstate'; this is the first apply",
    logged .info "== Terraform Apply: dev =="] ++
  command quota (words "apply") ++
  [logged .error "Failed to run terraform apply",
    logged .warn "Cleaning up partially created resources..."] ++
  command locked (words "destroy") ++
  [logged .error "Failed to run terraform destroy", ⟨.isFile "/terraform.tfstate", false⟩]

theorem backed_record :
    Backed (Step.onHost (engine keeper) Storage.Nowhere.driver) record journal := by
  have hone {r : Request} {reply : r.Reply} : (Host.ask r).Executes [⟨r, reply⟩] reply :=
    executes_one.2 rfl
  refine Backed.cons_iff.2 ⟨command _ _, _, executes_initLocal, ?_, rfl⟩
  refine Backed.cons_iff.2 ⟨[], _, .done _, ?_, rfl⟩
  refine Backed.cons_iff.2 ⟨[_], _, hone, Backed.cons_iff.2 ⟨[_], _, hone, ?_, rfl⟩, rfl⟩
  refine Backed.cons_iff.2 ⟨[_], _, hone, ?_, rfl⟩
  refine Backed.cons_iff.2 ⟨command _ _, _, executes_mutate "apply" quota rfl, ?_, rfl⟩
  refine Backed.cons_iff.2 ⟨[_], _, hone, Backed.cons_iff.2 ⟨[_], _, hone, ?_, rfl⟩, rfl⟩
  refine Backed.cons_iff.2 ⟨command _ _, _, executes_mutate "destroy" locked rfl, ?_, rfl⟩
  refine Backed.cons_iff.2 ⟨[_], _, hone, Backed.cons_iff.2 ⟨[_], _, hone, .nil, rfl⟩, rfl⟩

theorem keeps_diagnostics_overQuota :
    ∃ e, (onHost (engine keeper) Storage.Nowhere.driver dev.apply.run).Executes journal
        (.error e) ∧
      Within "quota exceeded" e.message ∧
      e.message = "Apply Error: " ++ cause.message ++ "\nDestroy Error: " ++ second.message ∧
      Within "creating..." cause.message ∧ Within "quota exceeded" cause.message ∧
      Within "state locked" second.message := by
  have hnull : Storage.Driver.ofConfig ⟨some "null", {}⟩ = .ok Storage.Nowhere.driver := rfl
  obtain ⟨hall, hboth⟩ := keeps_diagnostics (c := keeper) (a := dev) (quiet_ofConfig hnull)
  have hrun := executes_record.interpret backed_record
  have hquota : texts quota = ["creating...", "quota exceeded"] := by decide
  have hlocked : texts locked = ["", "state locked"] := by decide
  have happly : ⟨.start (invocation keeper (words "apply") none),
      (.ok quota : Except Fault Finished)⟩ ∈ journal := by simp [journal, command]
  have hdestroy : ⟨.start (invocation keeper (words "destroy") none),
      (.ok locked : Except Fault Finished)⟩ ∈ journal := by simp [journal, command]
  obtain ⟨e, heq, htexts⟩ := hall _ .apply _ _ hrun _ _ happly rfl
  cases heq
  obtain ⟨_, heq, hmessage, hparts⟩ := hboth record journal _ cause second executes_record
    backed_record (by simp [record, dev]) (by simp [record, dev])
  cases heq
  have hfirst := (hparts _ _ happly rfl).1 rfl
  have hsecond := (hparts _ _ hdestroy rfl).2 rfl
  rw [hquota] at htexts hfirst
  rw [hlocked] at hsecond
  exact ⟨_, hrun, htexts _ (by simp), hmessage, hfirst _ (by simp), hfirst _ (by simp),
    hsecond _ (by simp)⟩

end OverQuota

end Provision.Engine.Terraform
