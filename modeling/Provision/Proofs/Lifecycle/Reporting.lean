import Provision.Proofs.Lifecycle.Ending
import Provision.Proofs.Lifecycle.Steps
import Provision.Proofs.Reporting

/-!
# What a run reports of failed calls

A failed call on the engine has a message, and every run that made the call fails with a message
that contains it, whatever the error was wrapped in on the way and whatever was done about it
after. Nothing is said of failures of the driver or of the host: one that comes after a failed
apply is only logged.
-/

namespace Provision

namespace Text

/-- The text stands somewhere in the message. -/
def Within (text message : String) : Prop := ∃ before after, message = before ++ text ++ after

variable {text whole message : String}

theorem within_refl (text : String) : Within text text := ⟨"", "", by simp⟩

theorem within_empty (message : String) : Within "" message := ⟨"", message, by simp⟩

theorem Within.trans (h : Within text whole) (hw : Within whole message) : Within text message := by
  obtain ⟨before, after, rfl⟩ := h
  obtain ⟨front, back, rfl⟩ := hw
  exact ⟨front ++ before, after ++ back, by simp only [String.append_assoc]⟩

theorem Within.after (h : Within text message) (front : String) : Within text (front ++ message) :=
  h.trans ⟨front, "", by simp⟩

theorem Within.before (h : Within text message) (back : String) : Within text (message ++ back) :=
  h.trans ⟨"", back, by simp⟩

end Text

namespace Lifecycle

open Provision.Program (Mute Reports not_told_of_mute reports_mute)
open Provision.Task (executes_lift_bind only_bind only_mapError reports_bind reports_mapError
  reports_pure reports_rescue reports_throw)
open Provision.Text (Within within_refl)

namespace Error

theorem within_postApply {text : String} {e : Error} (h : Within text e.message) :
    Within text (postApply e).message :=
  h.after _

theorem within_applyFailed {text : String} {e : Error} (h : Within text e.message) :
    Within text (applyFailed e).message :=
  h.after _

theorem within_rollback_second {text : String} (first : Error) {second : Error}
    (h : Within text second.message) : Within text (rollback first second).message := by
  unfold rollback
  split
  · exact h.after _
  · exact h.after _

theorem within_rollback_first {text : String} {first : Error} (second : Error)
    (h : Within text first.message) : Within text (rollback first second).message := by
  unfold rollback
  split
  · exact (h.before "\nDestroy Error: ").before _
  · exact ((h.after "Apply Error: ").before "\nDestroy Error: ").before _

end Error

def Complains : Event steps → String → Prop
  | ⟨.engine c, reply⟩, text => ∃ e, Record.engineError c reply = some e ∧ e.message = text
  | _, _ => False

def Contains (text : String) (e : Error) : Prop := Within text e.message

theorem mute_storage (c : Storage.Call) : Mute Complains (.storage c) := fun _ _ => id

theorem mute_host (r : Host.Request) : Mute Complains (.host r) := fun _ _ => id

variable {a : Action} {f : StateFile}

theorem reports_log {ε : Type} {kept : String → ε → Prop} (level : Host.Level) (message : String) :
    (Task.lift (log level message) : Task steps ε Unit).run.Reports Complains kept :=
  reports_mute (only_log (fun _ => mute_host _) level message)

theorem reports_call {α : Type} {c : Engine.Call} {next : c.Reply → Except Error α}
    (hnext : ∀ reply e, Record.engineError c reply = some e → next reply = .error e) :
    (Task.ofProgram (Program.step (S := steps) (.engine c) fun reply => .done (next reply))
      ).run.Reports Complains Contains := by
  intro t r h d hd text htext
  obtain ⟨reply, _, hdone, rfl⟩ := Program.executes_step.1 h
  obtain ⟨rfl, rfl⟩ := Program.executes_done.1 hdone
  obtain rfl := List.mem_singleton.1 hd
  obtain ⟨e, he, rfl⟩ := htext
  exact ⟨e, hnext reply e he, within_refl _⟩

namespace StateFile

theorem mayLoad_mute (f : StateFile) : f.MayLoad (Mute Complains) where
  log _ := mute_host _
  probe := mute_storage _
  download := mute_storage _
  writeCopy _ := mute_host _
  makeParent _ _ := mute_host _

theorem mayStore_mute (f : StateFile) : f.MayStore (Mute Complains) where
  log _ := mute_host _
  findCopy := mute_host _
  readCopy := mute_host _
  upload _ := mute_storage _

theorem reports_download (f : StateFile) :
    (fromStorage f.download).run.Reports Complains Contains :=
  reports_mute (only_mapError (only_download f.mayLoad_mute))

theorem reports_upload (f : StateFile) :
    (fromStorage f.upload).run.Reports Complains Contains :=
  reports_mute (only_mapError (only_upload f.mayStore_mute))

theorem reports_delete (f : StateFile) :
    (fromStorage f.delete).run.Reports Complains Contains :=
  reports_mute (only_mapError (only_bind ⟨mute_storage _, fun _ => trivial⟩ fun _ =>
    only_log (fun _ => mute_host _) _ _))

end StateFile

namespace Action

theorem reports_validate : a.validate.run.Reports Complains Contains :=
  reports_mute only_validate

theorem reports_workspaceExists : a.workspaceExists.run.Reports Complains Contains :=
  reports_bind (reports_call fun _ _ => eq_error) fun _ => reports_pure

theorem reports_ensureWorkspace : a.ensureWorkspace.run.Reports Complains Contains := by
  refine reports_bind reports_workspaceExists fun found => ?_
  cases found with
  | true => exact reports_pure
  | false =>
    exact reports_bind (reports_log _ _) fun _ => reports_call fun _ _ => eq_error

theorem currentSerial_eq : a.currentSerial = Task.ofProgram (Program.step (S := steps)
    (.engine (.pullState a.envName)) fun reply => .done (reply.bind parseSerial)) := by
  refine congrArg (Program.step (S := steps) (.engine (.pullState a.envName)))
    (funext fun reply => ?_)
  cases reply with
  | ok raw => rfl
  | error e => rfl

theorem reports_currentSerial : a.currentSerial.run.Reports Complains Contains := by
  rw [currentSerial_eq]
  exact reports_call fun _ _ => eq_error

theorem reports_adoptAll (tracked : List String) (imports : List (String × String)) :
    (a.adoptAll tracked imports).run.Reports Complains Contains := by
  induction imports with
  | nil => exact reports_pure
  | cons entry rest ih =>
    obtain ⟨address, id⟩ := entry
    unfold adoptAll
    split
    · exact reports_bind (reports_log _ _) fun _ => ih
    · exact reports_bind (reports_log _ _) fun _ =>
        reports_bind (reports_call fun _ _ => eq_error) fun _ => ih

theorem reports_prepareState : a.prepareState.run.Reports Complains Contains := by
  unfold prepareState
  cases a.backend with
  | workspace =>
    exact reports_bind (reports_call fun _ _ => eq_error) fun _ => reports_ensureWorkspace
  | stored file =>
    refine reports_bind (reports_call fun _ _ => eq_error) fun _ =>
      reports_bind file.reports_download fun prior => ?_
    split
    · exact reports_log _ _
    · exact reports_pure

theorem reports_setup : a.setup.run.Reports Complains Contains := by
  refine reports_bind reports_prepareState fun _ => ?_
  split
  · exact reports_pure
  · exact reports_bind (reports_call fun _ _ => eq_error) fun tracked => reports_adoptAll _ _

theorem reports_readBack : a.readBack.run.Reports Complains Contains := by
  refine reports_bind ?_ fun _ =>
    reports_bind (reports_call fun _ _ => eq_error) fun _ => reports_pure
  unfold recordVersion
  cases a.backend with
  | workspace => exact reports_bind reports_currentSerial fun _ => reports_pure
  | stored file => exact reports_bind file.reports_upload fun _ => reports_pure

theorem reports_attemptApply : a.attemptApply.run.Reports Complains Contains :=
  reports_bind (reports_mapError (reports_call fun _ _ => eq_error)
      fun _ _ => Error.within_applyFailed) fun _ =>
    reports_mapError reports_readBack fun _ _ => Error.within_postApply

theorem reports_attemptDestroy : a.attemptDestroy.run.Reports Complains Contains := by
  refine reports_bind (reports_call fun _ _ => eq_error) fun _ =>
    reports_bind ?_ fun _ => reports_pure
  unfold dropState
  cases a.backend with
  | workspace =>
    dsimp only
    split
    · exact reports_log _ _
    · exact reports_call fun _ _ => eq_error
  | stored file => exact file.reports_delete

theorem reports_hasState : a.hasState.run.Reports Complains Contains := by
  unfold hasState
  cases a.backend with
  | workspace =>
    exact reports_bind (reports_call fun _ _ => eq_error) fun _ => reports_workspaceExists
  | stored file =>
    exact reports_bind (reports_call fun _ _ => eq_error) fun _ =>
      reports_bind file.reports_download fun _ => reports_pure

theorem reports_missingState (planOnly : Bool) (text : String) :
    (a.missingState planOnly text).run.Reports Complains Contains := by
  cases planOnly with
  | true => exact reports_bind (reports_log _ _) fun _ => reports_pure
  | false => exact reports_throw

theorem mute_preservePartialState : a.preservePartialState.Only (Mute Complains) :=
  only_preservePartialState fun f _ => f.mayStore_mute

theorem recover_cases {failure report : Error} {t : Record}
    (h : (a.recover failure).Executes t report) :
    report = failure ∧ (∀ d ∈ t, ∀ text, ¬ Complains d text) ∨
      ∃ second, report = .rollback failure second ∧
        ∀ d ∈ t, ∀ text, Complains d text → Contains text second := by
  unfold recover at h
  split at h
  · obtain ⟨rfl, rfl⟩ := Program.executes_done.1 h
    exact .inl ⟨rfl, fun d hd => absurd hd List.not_mem_nil⟩
  split at h
  · obtain ⟨t₁, _, _, hkeep, hdone, rfl⟩ := Program.executes_bind.1 h
    obtain ⟨rfl, rfl⟩ := Program.executes_done.1 hdone
    rw [List.append_nil]
    exact .inl ⟨rfl, fun d hd => not_told_of_mute mute_preservePartialState hkeep hd⟩
  obtain ⟨t₁, rfl, h₁⟩ := executes_log_then h
  obtain ⟨t₂, _, outcome, hdestroy, h₂, rfl⟩ := Program.executes_bind.1 h₁
  cases outcome with
  | ok result =>
    obtain ⟨_, rfl, hdone⟩ := executes_log_then h₂
    obtain ⟨rfl, rfl⟩ := Program.executes_done.1 hdone
    refine .inl ⟨rfl, fun d hd => ?_⟩
    simp only [List.mem_cons, List.mem_append, List.not_mem_nil, or_false] at hd
    rcases hd with rfl | hd | rfl
    · exact fun _ => id
    · exact reports_attemptDestroy.not_told hdestroy hd
    · exact fun _ => id
  | error second =>
    obtain ⟨_, rfl, h₃⟩ := executes_log_then h₂
    obtain ⟨t₃, _, _, hkeep, hdone, rfl⟩ := Program.executes_bind.1 h₃
    obtain ⟨rfl, rfl⟩ := Program.executes_done.1 hdone
    refine .inr ⟨second, rfl, fun d hd text htext => ?_⟩
    simp only [List.mem_cons, List.mem_append, List.not_mem_nil, or_false] at hd
    rcases hd with rfl | hd | rfl | hd
    · cases htext
    · obtain ⟨e, heq, hcontains⟩ := reports_attemptDestroy t₂ _ hdestroy d hd text htext
      cases heq
      exact hcontains
    · cases htext
    · exact absurd htext (not_told_of_mute mute_preservePartialState hkeep hd text)

theorem recover_keeps {failure report : Error} {t : Record}
    (h : (a.recover failure).Executes t report) {text : String} (htext : Contains text failure) :
    Contains text report := by
  rcases recover_cases h with ⟨rfl, -⟩ | ⟨second, rfl, -⟩
  · exact htext
  · exact Error.within_rollback_first second htext

theorem recover_adds {failure report : Error} {t : Record}
    (h : (a.recover failure).Executes t report) {d : Event steps} (hd : d ∈ t) {text : String}
    (htext : Complains d text) : Contains text report := by
  rcases recover_cases h with ⟨-, hnone⟩ | ⟨second, rfl, hsecond⟩
  · exact absurd htext (hnone d hd text)
  · exact Error.within_rollback_second failure (hsecond d hd text htext)

theorem reports_recover (failure : Error) :
    (do throw (← Task.lift (a.recover failure)) : RunTask RunResult).run.Reports Complains
      Contains := by
  intro t r h d hd text htext
  obtain ⟨t₁, t₂, report, hrecover, hthrow, rfl⟩ := executes_lift_bind.1 h
  obtain ⟨rfl, rfl⟩ := Task.executes_throw.1 hthrow
  rw [List.append_nil] at hd
  exact ⟨report, rfl, recover_adds hrecover hd htext⟩

theorem reports_apply : a.apply.run.Reports Complains Contains := by
  refine reports_bind reports_validate fun _ => reports_bind reports_setup fun _ =>
    reports_bind (reports_log _ _) fun _ =>
      reports_rescue reports_attemptApply (fun outcome => ?_) fun failure t r h => ?_
  · cases outcome with
    | ok result => exact reports_bind (reports_log _ _) fun _ => reports_pure
    | error failure => exact reports_bind (reports_log _ _) fun _ => reports_recover failure
  · obtain ⟨_, _, _, -, h₁, -⟩ := executes_lift_bind.1 h
    obtain ⟨_, _, report, hrecover, hthrow, -⟩ := executes_lift_bind.1 h₁
    obtain ⟨-, rfl⟩ := Task.executes_throw.1 hthrow
    exact ⟨report, rfl, fun text => recover_keeps hrecover⟩

theorem reports_destroy : a.destroy.run.Reports Complains Contains := by
  refine reports_bind reports_validate fun _ => reports_bind (reports_log _ _) fun _ =>
    reports_bind reports_hasState fun found => ?_
  cases found with
  | true =>
    exact reports_bind reports_attemptDestroy fun _ =>
      reports_bind (reports_log _ _) fun _ => reports_pure
  | false => exact reports_bind (reports_log _ _) fun _ => reports_pure

theorem reports_fetch (planOnly : Bool) : (a.fetch planOnly).run.Reports Complains Contains := by
  refine reports_bind reports_validate fun _ => ?_
  cases a.backend with
  | workspace =>
    refine reports_bind (reports_call fun _ _ => eq_error) fun _ =>
      reports_bind reports_workspaceExists fun found => ?_
    cases found with
    | true =>
      exact reports_bind reports_currentSerial fun _ =>
        reports_bind (reports_call fun _ _ => eq_error) fun _ => reports_pure
    | false => exact reports_missingState _ _
  | stored file =>
    refine reports_bind (reports_call fun _ _ => eq_error) fun _ =>
      reports_bind file.reports_download fun version => ?_
    split
    · exact reports_missingState _ _
    · exact reports_bind (reports_call fun _ _ => eq_error) fun _ => reports_pure

inductive IsRun (a : Action) : RunTask RunResult → Prop where
  | apply : IsRun a a.apply
  | destroy : IsRun a a.destroy
  | fetch (planOnly : Bool) : IsRun a (a.fetch planOnly)

theorem IsRun.reports {x : RunTask RunResult} (h : a.IsRun x) :
    x.run.Reports Complains Contains := by
  cases h with
  | apply => exact reports_apply
  | destroy => exact reports_destroy
  | fetch planOnly => exact reports_fetch planOnly

end Action

/-- A destroy in an apply makes up for the one apply of the engine, and both errors are reported. -/
theorem rolledBack_of_destroy {t : Record} {r : Except Error RunResult} {second : Error}
    (h : a.apply.run.Executes t r) (hd : .error second ∈ Record.destroys t) :
    ∃ cause, Record.applies t = [.error cause] ∧ Record.destroys t = [.error second] ∧
      r = .error (.rollbackFailed cause second) := by
  cases hn : Text.isAllBlank a.envName with
  | true =>
    obtain ⟨rfl, -⟩ := Action.apply_executes_of_blank hn h
    cases hd
  | false =>
    have hrun : Protocol.Leads a .start t (.ended r) := Action.tracks_apply hn t r h
    obtain ⟨ending, hending⟩ : ∃ k : Ending, k.Describes a t r :=
      hrun.preserves (I := Accords a) (fun u p line reply => accords_log line reply hn)
        (fun u p s next reply => accords_step reply hn) [] ⟨rfl, rfl, rfl⟩
    -- Of the five ways to end, only one has a destroy that failed.
    cases ending with
    | unapplied =>
      rw [hending.2.1] at hd
      cases hd
    | completed =>
      obtain ⟨after, _, ht, -, hnone, -⟩ := hending
      rw [ht.destroys_eq, hnone] at hd
      cases hd
    | unverified =>
      obtain ⟨after, _, ht, -, hnone, -⟩ := hending
      rw [ht.destroys_eq, hnone] at hd
      cases hd
    | failed =>
      obtain ⟨after, _, ht, -, ⟨-, hnone, -⟩ | ⟨-, hdone, -⟩⟩ := hending
      · rw [ht.destroys_eq, hnone] at hd
        cases hd
      · rw [ht.destroys_eq, hdone] at hd
        cases List.mem_singleton.1 hd
    | unrecovered =>
      obtain ⟨after, cause, d, ht, -, rfl, ⟨hfailed, -⟩ | ⟨hdone, -⟩⟩ := hending
      · have hdestroys : Record.destroys t = [.error d] := ht.destroys_eq.trans hfailed
        rw [hdestroys] at hd
        cases List.mem_singleton.1 hd
        exact ⟨cause, ht.applies_eq, hdestroys, rfl⟩
      · rw [ht.destroys_eq, hdone] at hd
        cases List.mem_singleton.1 hd

end Lifecycle

end Provision
