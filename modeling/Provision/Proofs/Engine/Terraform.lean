import Provision.Engine.Terraform
import Provision.Proofs.Lifecycle.Looking

/-!
# Terraform in known surroundings

What the commands of terraform achieve when every process ends well and every file can be used,
and which steps they can take at all: none of them prints, and the ones that only look write no
file either.
-/

namespace Provision.Engine.Terraform

open Provision.Host
open Provision.Program (Yields yields_one)
open Provision.Task (Achieves achieves_bind achieves_lift achieves_pure executes_bind_ok
  executes_lift_bind executes_lift_ok executes_pure_ok)

variable {c : Config} {P : Event effects → Prop}

theorem workspace_environment (c : Config) (workspace : Option String) :
    (environment c workspace).get? "TF_WORKSPACE" = some workspace := by
  rw [environment, Dict.get?_insert, if_pos rfl]

theorem achieves_log {ε : Type} (level : Level) (message : String) :
    (Task.lift (log level message) : Task effects ε Unit).Achieves P fun _ _ => True :=
  achieves_lift (yields_one fun _ _ => trivial)

theorem achieves_run (hP : ∀ e, P e → Succeeds e) (arguments : List String)
    (workspace : Option String) :
    (run c arguments workspace).Achieves P fun _ printed =>
      ∃ finished, P ⟨.start (invocation c arguments workspace), .ok finished⟩ ∧
        printed.output = finished.output := by
  refine achieves_bind (achieves_log _ _) fun _ _ _ => ?_
  refine achieves_bind (achieves_lift (yields_one
    (Q := fun _ reply => P ⟨.start (invocation c arguments workspace), reply⟩)
    fun reply hreply => hreply)) fun t reply hreply => ?_
  obtain ⟨finished, rfl, hstatus⟩ := hP _ hreply
  simp only [hstatus, if_true]
  exact achieves_pure ⟨finished, hreply, rfl⟩

theorem achieves_initBackend (hP : ∀ e, P e → Succeeds e) (hc : c.backendType.isSome)
    (env : String) : (initBackend c env).Achieves P fun _ _ => True := by
  obtain ⟨backendType, hbackend⟩ := Option.isSome_iff_exists.1 hc
  simp only [initBackend, hbackend]
  refine achieves_bind (Q := fun _ _ => True) ?_ fun _ _ _ =>
    achieves_bind (achieves_log _ _) fun _ _ _ =>
      achieves_bind (achieves_run hP _ _) fun _ _ _ => achieves_pure trivial
  refine achieves_bind (achieves_lift (yields_one
    (Q := fun _ (reply : Except Fault Unit) => reply = .ok ())
    fun reply hreply => hP _ hreply)) fun _ reply hreply => ?_
  subst hreply
  exact achieves_pure trivial

theorem achieves_initLocal (hP : ∀ e, P e → Succeeds e) :
    (initLocal c).Achieves P fun _ _ => True :=
  achieves_bind (achieves_run hP _ _) fun _ _ _ => achieves_pure trivial

theorem achieves_listWorkspaces (hP : ∀ e, P e → Succeeds e) :
    (listWorkspaces c).Achieves P fun _ names =>
      ∃ finished, P ⟨.start (invocation c ["workspace", "list"] none), .ok finished⟩ ∧
        names = Reply.workspaces (Text.Utf8.lossy finished.output) := by
  refine achieves_bind (achieves_run hP _ _) fun _ printed hprinted => ?_
  obtain ⟨finished, hfinished, houtput⟩ := hprinted
  exact achieves_pure ⟨finished, hfinished, by rw [Printed.text, houtput]⟩

theorem workspaceOf_eq (hc : c.stateFile = none) (env : String) :
    workspaceOf c env = some env := by
  simp only [workspaceOf, Config.mode, hc, Option.isSome_none, Bool.false_eq_true, if_false]

theorem achieves_pullState (hP : ∀ e, P e → Succeeds e) (hc : c.stateFile = none)
    (env : String) :
    (pullState c env).Achieves P fun _ raw =>
      ∃ finished, P ⟨.start (invocation c ["state", "pull"] (some env)), .ok finished⟩ ∧
        raw = finished.output := by
  simp only [pullState, hc, workspaceOf_eq hc]
  refine achieves_bind (achieves_run hP _ _) fun _ printed hprinted => ?_
  obtain ⟨finished, hfinished, houtput⟩ := hprinted
  exact achieves_pure ⟨finished, hfinished, houtput⟩

theorem journal_run {arguments : List String} {workspace : Option String} {j : Journal}
    {r : Except Lifecycle.Error Printed} (h : (run c arguments workspace).run.Executes j r) :
    ∃ line reply, j = [⟨.log line, ()⟩, ⟨.start (invocation c arguments workspace), reply⟩] := by
  obtain ⟨_, _, _, hlog, h₁, rfl⟩ := executes_lift_bind.1 h
  obtain ⟨_, _, reply, hstart, h₂, rfl⟩ := executes_lift_bind.1 h₁
  obtain rfl := Program.executes_one.1 hlog
  obtain rfl := Program.executes_one.1 hstart
  obtain rfl : _ = [] := by
    cases reply with
    | error fault => exact (Task.executes_throw.1 h₂).1
    | ok finished =>
      dsimp only at h₂
      split at h₂
      · exact (Task.executes_pure.1 h₂).1
      · exact (Task.executes_throw.1 h₂).1
  exact ⟨_, reply, rfl⟩

theorem executes_run {arguments : List String} {workspace : Option String} {j : Journal}
    {printed : Printed} (h : (run c arguments workspace).run.Executes j (.ok printed)) :
    ∃ finished, printed.output = finished.output ∧
      (⟨.start (invocation c arguments workspace), (.ok finished : Except Fault Finished)⟩ :
        Event effects) ∈ j := by
  obtain ⟨_, _, _, -, h₁, rfl⟩ := executes_bind_ok.1 h
  obtain ⟨_, _, reply, hstart, h₂, rfl⟩ := executes_bind_ok.1 h₁
  obtain rfl := Program.executes_one.1 (executes_lift_ok.1 hstart)
  cases reply with
  | error fault => cases (Task.executes_throw.1 h₂).2
  | ok finished =>
    dsimp only at h₂
    split at h₂
    · obtain ⟨rfl, rfl⟩ := executes_pure_ok.1 h₂
      exact ⟨finished, rfl, by simp⟩
    · cases (Task.executes_throw.1 h₂).2

theorem executes_pullState (hc : c.stateFile = none) {env : String} {j : Journal} {raw : Bytes}
    (h : (pullState c env).run.Executes j (.ok raw)) :
    ∃ finished, raw = finished.output ∧
      (⟨.start (invocation c ["state", "pull"] (some env)),
        (.ok finished : Except Fault Finished)⟩ : Event effects) ∈ j := by
  simp only [pullState, hc, workspaceOf_eq hc] at h
  obtain ⟨j₁, _, printed, hrun, h₁, rfl⟩ := executes_bind_ok.1 h
  obtain ⟨rfl, rfl⟩ := executes_pure_ok.1 h₁
  obtain ⟨finished, houtput, hmem⟩ := executes_run hrun
  exact ⟨finished, houtput, List.mem_append_left _ hmem⟩

theorem achieves_readOutput (hP : ∀ e, P e → Succeeds e)
    (houtput : ∀ i finished, P ⟨.start i, .ok finished⟩ → i.arguments.head? = some "output" →
      (Reply.outputs? finished.output).isSome) (env : String) :
    (readOutput c env).Achieves P fun _ _ => True := by
  refine achieves_bind (Q := fun _ _ => True) (achieves_lift ?_) fun _ missing _ => ?_
  · intro t missing _ _
    trivial
  · cases missing with
    | true => exact achieves_pure trivial
    | false =>
      simp only [Bool.false_eq_true, if_false]
      refine achieves_bind (achieves_run hP _ _) fun _ printed hprinted => ?_
      obtain ⟨finished, hfinished, hsame⟩ := hprinted
      obtain ⟨outputs, houtputs⟩ := Option.isSome_iff_exists.1 (houtput _ _ hfinished rfl)
      simp only [hsame, houtputs]
      exact achieves_pure trivial

section Only

open Provision.Task (only_pure only_throw only_bind only_lift only_mapError)

variable {K : Request → Prop}

theorem only_run {arguments : List String} {workspace : Option String}
    (hlog : ∀ line, K (.log line)) (hstart : K (.start (invocation c arguments workspace))) :
    (run c arguments workspace).run.Only K := by
  refine only_bind (only_lift ⟨hlog _, fun _ => trivial⟩) fun _ => ?_
  refine only_bind (only_lift ⟨hstart, fun _ => trivial⟩) fun reply => ?_
  cases reply with
  | error fault => exact only_throw
  | ok finished =>
    dsimp only
    split
    · exact only_pure
    · exact only_throw

theorem only_echo (hlog : ∀ line, K (.log line)) (lines : List String) : (echo lines).Only K := by
  induction lines with
  | nil => trivial
  | cons line rest ih => exact ⟨hlog _, fun _ => ih⟩

theorem only_runLogged {arguments : List String} {workspace : Option String}
    (hlog : ∀ line, K (.log line)) (hstart : K (.start (invocation c arguments workspace))) :
    (runLogged c arguments workspace).run.Only K :=
  only_bind (only_run hlog hstart) fun _ => only_lift (only_echo hlog _)

theorem only_varArguments (hwrite : ∀ content, K (.writeFile c.varsPath content)) :
    (varArguments c).run.Only K := by
  unfold varArguments
  split
  · exact only_pure
  · refine only_bind (only_lift ⟨hwrite _, fun _ => trivial⟩) fun reply => ?_
    cases reply with
    | ok _ => exact only_pure
    | error fault => exact only_throw

theorem only_stateMissing (hfile : ∀ path, K (.isFile path)) : (stateMissing c).Only K := by
  unfold stateMissing
  split
  · trivial
  · exact ⟨hfile _, fun _ => trivial⟩

theorem only_readOutput (hlog : ∀ line, K (.log line)) (hfile : ∀ path, K (.isFile path))
    (hstart : ∀ rest workspace, K (.start (invocation c ("output" :: rest) workspace)))
    (env : String) : (readOutput c env).run.Only K := by
  refine only_bind (only_lift (only_stateMissing hfile)) fun missing => ?_
  cases missing with
  | true => exact only_pure
  | false =>
    refine only_bind (only_run hlog (hstart _ _)) fun printed => ?_
    cases Reply.outputs? printed.output with
    | none => exact only_throw
    | some outputs => exact only_pure

theorem only_engineVersion (hlog : ∀ line, K (.log line))
    (hstart : K (.start (invocation c ["-v"] none))) : (engineVersion c).run.Only K := by
  refine only_bind (only_run hlog hstart) fun printed => ?_
  cases Reply.version? printed.text with
  | none => exact only_throw
  | some version => exact only_pure

theorem only_initBackend (hlog : ∀ line, K (.log line))
    (hwrite : ∀ content, K (.writeFile c.overridePath content))
    (hstart : ∀ rest, K (.start (invocation c ("init" :: rest) none))) (env : String) :
    (initBackend c env).run.Only K := by
  unfold initBackend
  split
  · exact only_throw
  · refine only_bind (only_bind (only_lift ⟨hwrite _, fun _ => trivial⟩) fun reply => ?_)
      fun _ => only_bind (only_lift ⟨hlog _, fun _ => trivial⟩) fun _ =>
        only_bind (only_run hlog (hstart _)) fun _ => only_pure
    cases reply with
    | ok _ => exact only_pure
    | error fault => exact only_throw

theorem only_listState (hlog : ∀ line, K (.log line)) (hfile : ∀ path, K (.isFile path))
    (hstart : ∀ rest workspace, K (.start (invocation c ("state" :: "list" :: rest) workspace)))
    (env : String) : (listState c env).run.Only K := by
  refine only_bind (only_lift (only_stateMissing hfile)) fun missing => ?_
  cases missing with
  | true => exact only_pure
  | false => exact only_bind (only_run hlog (hstart _ _)) fun _ => only_pure

theorem only_adopt (hlog : ∀ line, K (.log line))
    (hwrite : ∀ content, K (.writeFile c.varsPath content))
    (hstart : ∀ rest workspace, K (.start (invocation c ("import" :: rest) workspace)))
    (env address id : String) : (adopt c env address id).run.Only K :=
  only_bind (only_varArguments hwrite) fun _ => only_runLogged hlog (hstart _ _)

theorem only_pullState (hlog : ∀ line, K (.log line)) (hread : ∀ path, K (.readFile path))
    (hstart : ∀ workspace, K (.start (invocation c ["state", "pull"] workspace)))
    (env : String) : (pullState c env).run.Only K := by
  unfold pullState
  split
  · refine only_bind (only_lift ⟨hread _, fun _ => trivial⟩) fun reply => ?_
    cases reply with
    | ok content => exact only_pure
    | error fault => exact only_throw
  · exact only_bind (only_run hlog (hstart _)) fun _ => only_pure

theorem silent_readOutput (env : String) : (readOutput c env).run.Only Request.IsSilent :=
  only_readOutput (fun _ => trivial) (fun _ => trivial) (fun _ _ => trivial) env

theorem silent_engineVersion : (engineVersion c).run.Only Request.IsSilent :=
  only_engineVersion (fun _ => trivial) trivial

structure MayRun (c : Config) (K : Request → Prop) : Prop where
  log : ∀ line, K (.log line)
  start : ∀ arguments workspace, K (.start (invocation c arguments workspace))
  findState : ∀ path, K (.isFile path)
  readState : ∀ path, K (.readFile path)
  selectBackend : ∀ content, K (.writeFile c.overridePath content)
  writeVars : ∀ content, K (.writeFile c.varsPath content)

section MayRun

variable (h : MayRun c K)

include h

theorem only_engine (call : Engine.Call) : (engine c call).Only K := by
  have hrun (arguments : List String) (workspace : Option String) :
      (run c arguments workspace).run.Only K :=
    only_run h.log (h.start _ _)
  have hmutate (verb env : String) : (mutate c verb env).run.Only K :=
    only_bind (only_varArguments h.writeVars) fun _ => only_runLogged h.log (h.start _ _)
  cases call with
  | initBackend env => exact only_initBackend h.log h.selectBackend (fun _ => h.start _ _) env
  | initLocal => exact only_bind (hrun _ _) fun _ => only_pure
  | listWorkspaces => exact only_bind (hrun _ _) fun _ => only_pure
  | newWorkspace name => exact only_bind (only_mapError (hrun _ _)) fun _ => only_pure
  | deleteWorkspace name => exact only_bind (hrun _ _) fun _ => only_pure
  | apply env => exact hmutate _ env
  | destroy env => exact hmutate _ env
  | pullState env => exact only_pullState h.log h.readState (fun _ => h.start _ _) env
  | listState env => exact only_listState h.log h.findState (fun _ => h.start _) env
  | adopt env address id => exact only_adopt h.log h.writeVars (fun _ => h.start _) env address id
  | readOutput env => exact only_readOutput h.log h.findState (fun _ => h.start _) env
  | engineVersion => exact only_engineVersion h.log (h.start _ _)

end MayRun

theorem inner_engine (call : Engine.Call) : (engine c call).Only Request.IsInner :=
  only_engine ⟨fun _ => trivial, fun _ _ => trivial, fun _ => trivial, fun _ => trivial,
    fun _ => trivial, fun _ => trivial⟩ call

theorem mute_engine (call : Engine.Call) : (engine c call).Only Request.IsMute :=
  (inner_engine call).mono fun _ => Request.IsInner.isMute

def IsLook : List String → Prop
  | "init" :: _ => True
  | "output" :: _ => True
  | ["workspace", "list"] => True
  | ["state", "pull"] => True
  | ["-v"] => True
  | _ => False

/-- Requests of a run that only looks: its commands are looks, objects are only read, and no file
but `files` is touched. -/
def Looks (files : String → Prop) : Request → Prop
  | .start i => IsLook i.arguments
  | .send q => q.method = .head ∨ q.method = .get
  | r => r.Keeps files

theorem looks_of_keeps {files : String → Prop} {r : Request} (h : r.Keeps files) :
    Looks files r := by
  cases r with
  | start i => exact h.elim
  | send q => exact h.elim
  | _ => exact h

theorem looks_of_viewing {files : String → Prop} {r : Request} (h : r.IsViewing) :
    Looks files r := by
  cases r with
  | send q => exact h
  | start i => exact h.elim
  | writeFile path content => exact h.elim
  | removeFile path => exact h
  | makeDirectories path => exact h.elim
  | _ => trivial

variable {files : String → Prop}

theorem looks_run {arguments : List String} {workspace : Option String} (h : IsLook arguments) :
    (run c arguments workspace).run.Only (Looks files) :=
  only_run (fun _ => trivial) h

theorem looks_engine {call : Engine.Call} (h : call.Looks) (hfile : files c.overridePath) :
    (engine c call).Only (Looks files) := by
  cases call with
  | initBackend env =>
    exact only_initBackend (fun _ => trivial) (fun _ => hfile) (fun _ => trivial) env
  | initLocal => exact only_bind (looks_run trivial) fun _ => only_pure
  | listWorkspaces => exact only_bind (looks_run trivial) fun _ => only_pure
  | pullState env =>
    exact only_pullState (fun _ => trivial) (fun _ => trivial) (fun _ => trivial) env
  | readOutput env =>
    exact only_readOutput (fun _ => trivial) (fun _ => trivial) (fun _ _ => trivial) env
  | engineVersion => exact only_engineVersion (fun _ => trivial) trivial
  | _ => exact h.elim

def IsSetUp : List String → Prop
  | "import" :: _ => True
  | "state" :: "list" :: _ => True
  | ["workspace", "new", _] => True
  | arguments => IsLook arguments

/-- Requests of a setup: it neither applies nor destroys anything, sends nothing but reads to a
store, and touches no file but `files`. -/
def SetsUp (files : String → Prop) : Request → Prop
  | .start i => IsSetUp i.arguments
  | r => Looks files r

theorem Looks.setsUp {r : Request} (h : Looks files r) : SetsUp files r := by
  cases r with
  | start i =>
    have hlook : IsLook i.arguments := h
    show IsSetUp i.arguments
    unfold IsSetUp
    split
    · trivial
    · trivial
    · trivial
    · exact hlook
  | _ => exact h

theorem setsUp_engine {call : Engine.Call} (h : call.SetsUp) (hoverride : files c.overridePath)
    (hvars : files c.varsPath) : (engine c call).Only (SetsUp files) := by
  have hlook {call : Engine.Call} (h : call.Looks) : (engine c call).Only (SetsUp files) :=
    (looks_engine h hoverride).mono fun _ => Looks.setsUp
  cases call with
  | newWorkspace name =>
    exact only_bind (only_mapError (only_run (fun _ => trivial) trivial)) fun _ => only_pure
  | listState env =>
    exact only_listState (fun _ => trivial) (fun _ => trivial) (fun _ _ => trivial) env
  | adopt env address id =>
    exact only_adopt (fun _ => trivial) (fun _ => hvars) (fun _ _ => trivial) env address id
  | _ => exact hlook h

end Only

end Provision.Engine.Terraform
