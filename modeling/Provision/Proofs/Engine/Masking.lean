import Provision.Engine.Terraform
import Provision.Proofs.Host.Alike
import Provision.Proofs.Host.Environment

/-!
# Settings that only the engine sees

The settings of a backend are arguments of a command, and their values may be secrets. People see
the command in the log and in the error of a command that failed, and there every setting ends after
its key. Where the key ends is told by the first equals sign, which comes before the value whatever
the two are, so two configurations with the same keys are the same to people.
-/

namespace Provision.Engine.Terraform

open Provision.Host

variable {c c' : Config} {arguments arguments' : List String}

theorem settingKey_setting (key value : String) :
    settingKey (key ++ "=" ++ value) = settingKey key := by
  have hcut (cs : List Char) :
      (cs ++ '=' :: value.toList).takeWhile (· ≠ '=') = cs.takeWhile (· ≠ '=') := by
    induction cs with
    | nil => rfl
    | cons a cs ih => rw [List.cons_append, List.takeWhile_cons, ih, List.takeWhile_cons]
  have htext : (key ++ "=" ++ value).toList = key.toList ++ '=' :: value.toList := by
    simp [String.toList_append]
  rw [settingKey, htext, hcut, settingKey]

theorem maskArgument_setting (key value : String) :
    maskArgument (backendOption ++ key ++ "=" ++ value) =
      backendOption ++ settingKey key ++ "=***" := by
  have hafter : Text.after? backendOption (backendOption ++ key ++ "=" ++ value) =
      some (key ++ "=" ++ value) := by
    rw [String.append_assoc, String.append_assoc, Text.after?_append, String.append_assoc]
  simp only [maskArgument, hafter, settingKey_setting]

theorem map_maskArgument_backendArguments (c : Config) :
    (backendArguments c).map maskArgument =
      c.backendConfig.keys.map fun key => backendOption ++ settingKey key ++ "=***" := by
  simp only [backendArguments, Dict.keys, List.map_map]
  exact List.map_congr_left fun e _ => maskArgument_setting e.1 e.2.display

theorem displayCommand_append (arguments : List String) :
    displayCommand (arguments ++ backendArguments c) = "terraform " ++ " ".intercalate
      (arguments.map maskArgument ++
        c.backendConfig.keys.map fun key => backendOption ++ settingKey key ++ "=***") := by
  rw [displayCommand, List.map_append, map_maskArgument_backendArguments]

/-- The configurations differ in the values of backend settings only. -/
def Config.SameKeys (c c' : Config) : Prop :=
  ∃ settings : Dict Json.Value, settings.keys = c.backendConfig.keys ∧
    c' = { c with backendConfig := settings }

/-- The processes differ in their arguments only, and people see the same of these. -/
def SeenAlike (i i' : Invocation) : Prop :=
  i' = { i with arguments := i'.arguments } ∧
    displayCommand i'.arguments = displayCommand i.arguments

theorem alike_run_seen (settings : Dict Json.Value) (workspace : Option String)
    (h : displayCommand arguments' = displayCommand arguments) :
    Alike SeenAlike (run c arguments workspace).run
      (run { c with backendConfig := settings } arguments' workspace).run := by
  simp only [run, h]
  exact .task_bind (.refl _) fun _ =>
    .task_bind (.lift (.start ⟨rfl, h⟩ fun _ => .done _)) fun _ => .refl _

theorem alike_engine (h : c.SameKeys c') (call : Engine.Call) :
    Alike SeenAlike (engine c call) (engine c' call) := by
  obtain ⟨settings, hkeys, rfl⟩ := h
  cases call with
  | initBackend env =>
    have hdisplay (arguments : List String) :
        displayCommand (arguments ++ backendArguments { c with backendConfig := settings }) =
          displayCommand (arguments ++ backendArguments c) := by
      rw [displayCommand_append, displayCommand_append, hkeys]
    simp only [engine, initBackend]
    cases c.backendType with
    | none => exact .refl _
    | some backendType =>
      exact .task_bind (.refl _) fun _ => .task_bind (.refl _) fun _ =>
        .task_bind (alike_run_seen settings none (hdisplay _)) fun _ => .refl _
  | _ => exact .refl _

/-- Whatever the values of the backend settings are, every call can go in the same way, with the
same lines in the log and the same result. It cannot go in another way where processes and files
reply the same. -/
theorem settings_unseen (h : c.SameKeys c') (call : Engine.Call) :
    (∀ t reply, (engine c call).Executes t reply →
      ∃ t', List.Forall₂ (Mirrors SeenAlike) t t' ∧ (engine c' call).Executes t' reply) ∧
    ∀ t t' reply reply', (engine c call).Executes t reply → (engine c' call).Executes t' reply' →
      SameReplies t t' → logged t' = logged t ∧ reply' = reply := by
  have halike := alike_engine h call
  refine ⟨fun t reply ht => halike.executes ht, fun t t' reply reply' ht ht' hsame => ?_⟩
  obtain ⟨htold, hreply⟩ := halike.agree ht ht' hsame
  exact ⟨logged_of_mirrors htold, hreply⟩

namespace Sample

def locked (secret : String) : Config where
  source := "/infra"
  scratch := "/scratch"
  backendType := some "s3"
  backendConfig := Dict.ofList [("bucket", .string "states"), ("token=a", .string secret)]

def initArguments (c : Config) : List String :=
  ["init", "-input=false", "-no-color", "-reconfigure", "-get=true"] ++ backendArguments c

def denied (c : Config) : Journal :=
  [⟨.writeFile c.overridePath (Text.Utf8.encode (Json.Value.object [("terraform",
      .object [("backend", .object [("s3", .object [])])])]).pretty),
      (.ok () : Except Fault Unit)⟩,
    ⟨.log ⟨.info, "Initializing " ++ "s3" ++ " backend for environment '" ++ "dev" ++ "'"⟩, ()⟩,
    ⟨.log ⟨.debug, "Running: " ++ displayCommand (initArguments c)⟩, ()⟩,
    ⟨.start (invocation c (initArguments c) none), (.error .denied : Except Fault Finished)⟩]

theorem executes_denied (secret : String) :
    (engine (locked secret) (.initBackend "dev")).Executes (denied (locked secret))
      (.error (.engine (displayCommand (initArguments (locked secret)))
        ("failed to start: " ++ Fault.denied.message) "")) :=
  .step _ (.step _ (.step _ (.step _ (.done _))))

theorem settings_unseen_denied :
    initArguments (locked "x y=z") ≠ initArguments (locked "-backend-config=b=c") ∧
    ∃ e : Lifecycle.Error,
      (engine (locked "x y=z") (.initBackend "dev")).Executes (denied (locked "x y=z"))
        (.error e) ∧
      (engine (locked "-backend-config=b=c") (.initBackend "dev")).Executes
        (denied (locked "-backend-config=b=c")) (.error e) ∧
      logged (denied (locked "-backend-config=b=c")) = logged (denied (locked "x y=z")) ∧
      e.message = "`terraform init -input=false -no-color -reconfigure -get=true " ++
        "-backend-config=bucket=*** -backend-config=token=***` failed: failed to start: " ++
        "Permission denied (os error 13)\nOutput:\n" := by
  have hkeys : (locked "x y=z").SameKeys (locked "-backend-config=b=c") :=
    ⟨(locked "-backend-config=b=c").backendConfig, by decide +kernel, rfl⟩
  have hsame : SameReplies (denied (locked "x y=z")) (denied (locked "-backend-config=b=c")) :=
    ⟨sameReply_refl _, sameReply_log, sameReply_log, sameReply_start _, trivial⟩
  obtain ⟨hlogged, hresult⟩ := (settings_unseen hkeys (.initBackend "dev")).2 _ _ _ _
    (executes_denied "x y=z") (executes_denied "-backend-config=b=c") hsame
  refine ⟨by decide +kernel, _, executes_denied "x y=z", ?_, hlogged, by decide +kernel⟩
  exact hresult ▸ executes_denied "-backend-config=b=c"

end Sample

end Provision.Engine.Terraform
