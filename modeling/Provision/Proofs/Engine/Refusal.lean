import Provision.Proofs.Engine.Terraform
import Provision.Proofs.Lifecycle.Refusal

/-!
# Calls that terraform refuses

Two files are written before a process is started: the override that selects a backend, and the
file of variables. Either of them is a validation error if it cannot be written, and then the call
ends there. No process that was started is refused with a validation error.
-/

namespace Provision.Engine.Terraform

open Provision.Host
open Provision.Lifecycle (IsInit Refuses)
open Provision.Lifecycle.Action (TakesVars)
open Provision.Task (executes_lift_ok fails_bind fails_lift fails_mapError fails_pure fails_throw)

def Unwritten (c : Config) (text : String) (u : Journal) : Prop :=
  ∃ content fault, u = [⟨.writeFile c.varsPath content, (.error fault : Except Fault Unit)⟩] ∧
    text = "Failed to write vars file '" ++ c.varsPath ++ "': " ++ fault.message

def Allowed (_ : Journal) (e : Lifecycle.Error) : Prop := ∀ text, e ≠ .validation text

variable {c : Config}

theorem fails_run (arguments : List String) (workspace : Option String) :
    (run c arguments workspace).Fails Allowed := by
  refine fails_bind fails_lift fun _ _ _ => fails_bind fails_lift fun _ reply _ => ?_
  cases reply with
  | error fault => exact fails_throw nofun
  | ok finished =>
    dsimp only
    split
    · exact fails_pure
    · exact fails_throw nofun

theorem fails_runLogged (arguments : List String) (workspace : Option String) :
    (runLogged c arguments workspace).Fails Allowed :=
  fails_bind (fails_run _ _) fun _ _ _ => fails_lift

theorem fails_newWorkspace (name : String) : (newWorkspace c name).Fails Allowed := by
  refine fails_bind (fails_mapError fun t e he text => ?_) fun _ _ _ => fails_pure
  have hallowed := fails_run _ _ t e he
  unfold newWorkspaceError
  split
  · split
    · nofun
    · exact hallowed text
  · exact hallowed text

theorem fails_pullState (env : String) : (pullState c env).Fails Allowed := by
  unfold pullState
  split
  · refine fails_bind fails_lift fun _ reply _ => ?_
    cases reply with
    | ok content => exact fails_pure
    | error fault => exact fails_throw nofun
  · exact fails_bind (fails_run _ _) fun _ _ _ => fails_pure

theorem fails_listState (env : String) : (listState c env).Fails Allowed := by
  refine fails_bind fails_lift fun _ missing _ => ?_
  cases missing with
  | true => exact fails_pure
  | false => exact fails_bind (fails_run _ _) fun _ _ _ => fails_pure

theorem fails_readOutput (env : String) : (readOutput c env).Fails Allowed := by
  refine fails_bind fails_lift fun _ missing _ => ?_
  cases missing with
  | true => exact fails_pure
  | false =>
    refine fails_bind (fails_run _ _) fun _ printed _ => ?_
    cases Reply.outputs? printed.output with
    | some outputs => exact fails_pure
    | none => exact fails_throw nofun

theorem fails_engineVersion : (engineVersion c).Fails Allowed := by
  refine fails_bind (fails_run _ _) fun _ printed _ => ?_
  cases Reply.version? printed.text with
  | some version => exact fails_pure
  | none => exact fails_throw nofun

theorem fails_varArguments :
    (varArguments c).Fails fun u e => ∀ text, e = .validation text → Unwritten c text u := by
  unfold varArguments
  split
  · exact fails_pure
  · refine fails_bind fails_lift fun t reply ht => ?_
    obtain rfl := Program.executes_one.1 (executes_lift_ok.1 ht)
    cases reply with
    | ok _ => exact fails_pure
    | error fault =>
      refine fails_throw ?_
      rintro text ⟨⟩
      exact ⟨_, fault, rfl, rfl⟩

theorem fails_withVars (arguments : List String → List String) (workspace : Option String) :
    (do runLogged c (arguments (← varArguments c)) workspace : Command Unit).Fails
      fun u e => ∀ text, e = .validation text → Unwritten c text u :=
  fails_bind fails_varArguments fun _ _ _ =>
    (fails_runLogged _ _).mono fun _ _ h text htext => absurd htext (h text)

theorem fails_initBackend (env : String) :
    (initBackend c env).Fails fun u e => Allowed u e ∨ ∀ e' ∈ u, Harmless e' := by
  unfold initBackend
  split
  · exact fails_throw (.inr fun _ h => absurd h List.not_mem_nil)
  · refine fails_bind (fails_bind fails_lift fun t reply ht => ?_) fun _ _ _ =>
      fails_bind fails_lift fun _ _ _ =>
        fails_bind ((fails_run _ _).mono fun _ _ => .inl) fun _ _ _ => fails_pure
    obtain rfl := Program.executes_one.1 (executes_lift_ok.1 ht)
    cases reply with
    | ok _ => exact fails_pure
    | error fault =>
      refine fails_throw (.inr fun e' he' => ?_)
      obtain rfl := List.mem_singleton.1 he'
      exact ⟨fault, rfl⟩

section Refused

variable {call : Engine.Call} {u : Journal} {reply : call.Reply} {text : String}

theorem refused_init (hc : IsInit call) (h : (engine c call).Executes u reply)
    (hrefuses : Refuses text ⟨.engine call, reply⟩) : ∀ e ∈ u, Harmless e := by
  cases call with
  | initBackend env =>
    rcases fails_initBackend env u _ (Lifecycle.eq_error hrefuses ▸ h) with hallowed | hharmless
    · exact absurd rfl (hallowed text)
    · exact hharmless
  | initLocal =>
    have hfails : (initLocal c).Fails Allowed :=
      fails_bind (fails_run _ _) fun _ _ _ => fails_pure
    exact absurd rfl (hfails u _ (Lifecycle.eq_error hrefuses ▸ h) text)
  | _ => exact hc.elim

theorem refused_late (hc : ¬ IsInit call) (h : (engine c call).Executes u reply)
    (hrefuses : Refuses text ⟨.engine call, reply⟩) :
    TakesVars (.engine call) ∧ Unwritten c text u := by
  have never {α : Type} {x : Command α} {e : Lifecycle.Error} (hx : x.Fails Allowed)
      (he : x.run.Executes u (.error e)) (htext : e = .validation text) :
      TakesVars (.engine call) ∧ Unwritten c text u :=
    absurd htext (hx u e he text)
  cases call with
  | initBackend env => exact absurd trivial hc
  | initLocal => exact absurd trivial hc
  | listWorkspaces =>
    exact never (fails_bind (fails_run _ _) fun _ _ _ => fails_pure)
      (Lifecycle.eq_error hrefuses ▸ h) rfl
  | newWorkspace name =>
    exact never (fails_newWorkspace name) (Lifecycle.eq_error hrefuses ▸ h) rfl
  | deleteWorkspace name =>
    exact never (fails_bind (fails_run _ _) fun _ _ _ => fails_pure)
      (Lifecycle.eq_error hrefuses ▸ h) rfl
  | apply env =>
    exact ⟨trivial, fails_withVars _ _ u _ (Lifecycle.eq_error hrefuses ▸ h) text rfl⟩
  | destroy env =>
    exact ⟨trivial, fails_withVars _ _ u _ (Lifecycle.eq_error hrefuses ▸ h) text rfl⟩
  | pullState env =>
    have hbind : reply.bind Lifecycle.parseSerial = .error (.validation text) :=
      Lifecycle.eq_error hrefuses
    cases reply with
    | error e =>
      cases hbind
      exact never (fails_pullState env) h rfl
    | ok raw => exact absurd hbind Lifecycle.parseSerial_ne
  | listState env => exact never (fails_listState env) (Lifecycle.eq_error hrefuses ▸ h) rfl
  | adopt env address id =>
    exact ⟨trivial, fails_withVars (fun vars => ["import", "-input=false", "-no-color"] ++ vars ++
      stateArguments c ++ [address, id]) _ u _ (Lifecycle.eq_error hrefuses ▸ h) text rfl⟩
  | readOutput env => exact never (fails_readOutput env) (Lifecycle.eq_error hrefuses ▸ h) rfl
  | engineVersion => exact never fails_engineVersion (Lifecycle.eq_error hrefuses ▸ h) rfl

end Refused

end Provision.Engine.Terraform
