import Provision.Proofs.Lifecycle.Protocol

/-!
# An apply keeps to its protocol

Every execution of an apply is led by the protocol from its first phase to the end that carries
the result of the execution.
-/

namespace Provision.Lifecycle

open Protocol

variable {a : Action} {f : StateFile}

namespace StateFile

theorem tracks_writeLocal (hb : a.backend = .stored f) (content : Bytes) :
    Tracks a (.place f content) (f.writeLocal content).run
      (.orElse (fun e => .failed (.ofStorage e)) fun _ => .afterPreparation a) := by
  have hcopy : Tracks a (.writeCopy content)
      (attempt (host (.writeFile f.localPath content)) fun fault =>
        "Failed to write state file to '" ++ f.localPath ++ "': " ++ fault.message).run
      (.orElse (fun e => .failed (.ofStorage e)) fun _ => .afterPreparation a) := by
    refine tracks_mapError ((tracks_step (.writeCopy hb content)).congr fun r => ?_)
    cases r <;> rfl
  cases hp : Host.Path.parent? f.localPath with
  | none => simpa only [Phase.place, writeLocal, hp] using hcopy
  | some directory =>
    simp only [Phase.place, writeLocal, hp]
    refine tracks_andThen (.orElse (fun e => .failed (.ofStorage e))
      fun _ => .writeCopy content) ?_ (fun _ => rfl) fun _ => hcopy
    refine tracks_mapError ((tracks_step (.makeDirectory hb directory content)).congr fun r => ?_)
    cases r <;> rfl

theorem tracks_download (hb : a.backend = .stored f) :
    Tracks a .probe f.download.run
      (.orElse (fun e => .failed (.ofStorage e)) fun _ => .afterPreparation a) := by
  refine tracks_andThen _ (tracks_step (.probe hb)) (fun _ => rfl) fun probed => ?_
  cases hz : probed.isZero with
  | true =>
    simp only [Phase.orElse, hz, if_true]
    exact tracks_logged (tracks_pure rfl)
  | false =>
    simp only [Phase.orElse, hz, Bool.false_eq_true, if_false]
    refine tracks_andThen _ (tracks_step (.download hb)) (fun _ => rfl) fun object => ?_
    refine tracks_andThen _ (tracks_writeLocal hb object.1) (fun _ => rfl) fun _ => ?_
    exact tracks_logged (tracks_pure rfl)

theorem tracks_upload {p : Phase} {q : Bytes → Phase}
    {after : Except Storage.Error Storage.ObjectVersion → Phase}
    (hread : Asks a p (.host (.readFile f.localPath))
      (.orElse (fun fault => after (.error (unreadableCopy f.localPath fault))) q))
    (hupload : ∀ content, Asks a (q content) (.storage (.upload f.key content)) after) :
    Tracks a p f.upload.run after := by
  refine tracks_andThen (.orElse (fun e => after (.error e)) q) ?_ (fun _ => rfl) ?_
  · refine tracks_mapError ((tracks_step hread).congr fun r => ?_)
    cases r <;> rfl
  · intro content
    refine tracks_andThen _ (tracks_step (hupload content)) (fun _ => rfl) fun version => ?_
    exact tracks_logged (tracks_pure rfl)

end StateFile

namespace Action

theorem tracks_ensureWorkspace (hb : a.backend = .workspace) :
    Tracks a .listWorkspaces a.ensureWorkspace.run (.next fun _ => .afterPreparation a) := by
  refine tracks_andThen (.next fun found : Bool =>
    if found then .afterPreparation a else .createWorkspace) ?_ (fun _ => rfl) fun found => ?_
  · exact tracks_andThen _ (tracks_step (.listWorkspaces hb)) (fun _ => rfl) fun names =>
      tracks_pure rfl
  · cases found with
    | true => exact tracks_pure rfl
    | false => exact tracks_logged (tracks_step (.newWorkspace hb))

theorem tracks_prepareState :
    Tracks a .start a.prepareState.run (.next fun _ => .afterPreparation a) := by
  cases hb : a.backend with
  | workspace =>
    simp only [prepareState, hb]
    exact tracks_andThen _ (tracks_step (.initBackend hb)) (fun _ => rfl) fun _ =>
      tracks_ensureWorkspace hb
  | stored f =>
    simp only [prepareState, hb]
    refine tracks_andThen _ (tracks_step (.initLocal hb)) (fun _ => rfl) fun _ => ?_
    refine tracks_andThen (.next fun _ => .afterPreparation a)
      (tracks_mapError ((StateFile.tracks_download hb).congr fun r => ?_)) (fun _ => rfl)
      fun prior => ?_
    · cases r <;> rfl
    · cases prior.isZero with
      | true => exact tracks_lift (tracks_log _ _)
      | false => exact tracks_pure rfl

theorem tracks_adoptAll (tracked : List String) (imports : List (String × String)) :
    Tracks a (.adoptNext (untracked tracked imports)) (adoptAll a tracked imports).run
      (.next fun _ => .apply) := by
  induction imports with
  | nil => exact tracks_pure rfl
  | cons e rest ih =>
    obtain ⟨address, id⟩ := e
    cases ht : tracked.contains address with
    | true =>
      have hskip : untracked tracked ((address, id) :: rest) =
          untracked tracked rest := by
        simp only [untracked, List.filter_cons, ht, Bool.not_true, Bool.false_eq_true,
          if_false]
      simp only [adoptAll, ht, if_true, hskip]
      exact tracks_logged ih
    | false =>
      have htake : untracked tracked ((address, id) :: rest) =
          (address, id) :: untracked tracked rest := by
        simp only [untracked, List.filter_cons, ht, Bool.not_false, if_true]
      simp only [adoptAll, ht, Bool.false_eq_true, if_false, htake]
      exact tracks_logged (tracks_andThen _ (tracks_step (.adopt address id _)) (fun _ => rfl)
        fun _ => ih)

theorem tracks_setup : Tracks a .start a.setup.run (.next fun _ => .apply) := by
  refine tracks_andThen _ tracks_prepareState (fun _ => rfl) fun _ => ?_
  cases hi : a.imports.isEmpty with
  | true =>
    simp only [Phase.next, Phase.orElse, Phase.afterPreparation, hi, if_true]
    exact tracks_pure rfl
  | false =>
    simp only [Phase.next, Phase.orElse, Phase.afterPreparation, hi, Bool.false_eq_true, if_false]
    exact tracks_andThen _ (tracks_step .listState) (fun _ => rfl) fun tracked =>
      tracks_adoptAll _ _

theorem tracks_recordVersion :
    Tracks a (.record a) a.recordVersion.run (.verify .readOutput) := by
  cases hb : a.backend with
  | workspace =>
    simp only [Phase.record, recordVersion, hb]
    refine tracks_andThen (.verify fun n => .readOutput (.ofSerial a.envName n))
      ?_ (fun _ => rfl) fun n => tracks_pure rfl
    refine tracks_andThen _ (tracks_step (.pullState hb)) (fun _ => rfl) fun raw => ?_
    exact tracks_done rfl
  | stored f =>
    simp only [Phase.record, recordVersion, hb]
    have hupload := StateFile.tracks_upload (.readCopy hb) (.upload hb)
    refine tracks_andThen (.verify fun v => .readOutput (.ofStorage a.envName v))
      (tracks_mapError (hupload.congr fun r => ?_)) (fun _ => rfl) fun v => tracks_pure rfl
    cases r <;> rfl

theorem tracks_readBack :
    Tracks a (.record a) a.readBack.run (.verify fun result => .ended (.ok result)) := by
  refine tracks_andThen _ tracks_recordVersion (fun _ => rfl) fun version => ?_
  exact tracks_andThen _ (tracks_step (.readOutput version)) (fun _ => rfl) fun output =>
    tracks_pure rfl

def afterAttempt (a : Action) : Except Error RunResult → Phase
  | .ok result => .ended (.ok result)
  | .error (.applyFailed e) => .compensate a e
  | .error e => .failed e

theorem tracks_attemptApply : Tracks a .apply a.attemptApply.run (afterAttempt a) := by
  refine tracks_andThen (fun
      | .ok _ => .record a
      | .error e => afterAttempt a (.error e)) (tracks_mapError ((tracks_step .apply).congr ?_))
    (fun _ => rfl) fun _ => tracks_mapError (tracks_readBack.congr ?_)
  · intro r
    cases r <;> rfl
  · intro r
    cases r <;> rfl

def afterCompensation {α : Type} (a : Action) (cause : Error) : Except Error α → Phase
  | .ok _ => .failed (.applyFailed cause)
  | .error e => .preserve a (.rollbackFailed cause e)

theorem tracks_dropState (cause : Error) :
    Tracks a (.afterDestroy a cause) a.dropState.run (afterCompensation a cause) := by
  cases hb : a.backend with
  | workspace =>
    by_cases hd : a.envName = Engine.defaultWorkspace
    · simp only [Phase.afterDestroy, dropState, hb, hd, and_self, if_true]
      exact tracks_lift (tracks_log _ _)
    · simp only [Phase.afterDestroy, dropState, hb, hd, and_false, if_false]
      refine (tracks_step (.deleteWorkspace hb cause)).congr fun r => ?_
      cases r <;> rfl
  | stored f =>
    simp only [Phase.afterDestroy, dropState, hb, reduceCtorEq, false_and, if_false]
    refine tracks_mapError (tracks_andThen _ (tracks_step (.deleteObject hb cause))
      (fun _ => rfl) fun _ => ?_)
    exact tracks_lift (tracks_log _ _)

theorem tracks_attemptDestroy (cause : Error) :
    Tracks a (.destroy cause) a.attemptDestroy.run (afterCompensation a cause) := by
  refine tracks_andThen _ (tracks_step (.destroy cause)) (fun _ => rfl) fun _ => ?_
  exact tracks_andThen _ (tracks_dropState cause) (fun _ => rfl) fun _ => tracks_pure rfl

theorem tracks_preservePartialState (report : Error) :
    Tracks a (.preserve a report) a.preservePartialState fun _ => .failed report := by
  cases hb : a.backend with
  | workspace =>
    simp only [Phase.preserve, preservePartialState, hb]
    exact tracks_done rfl
  | stored f =>
    have hupload : Tracks a (.readPartial report) f.upload.run fun _ => .failed report :=
      StateFile.tracks_upload (.readPartial hb report) (.uploadPartial hb report)
    simp only [Phase.preserve, preservePartialState, hb]
    refine tracks_bind (tracks_step (.lookForCopy hb report)) fun found => ?_
    cases found with
    | false => exact tracks_done rfl
    | true =>
      refine tracks_bind hupload fun outcome => ?_
      cases outcome with
      | ok version => exact tracks_log _ _
      | error e => exact tracks_log _ _

theorem tracks_recover (cause : Error) :
    Tracks a (.compensate a cause) (a.recover (.applyFailed cause)) .failed := by
  cases hd : a.deleteOnFailure with
  | false =>
    simp only [Phase.compensate, recover, Error.isApplyFailed, hd, Bool.not_true, Bool.not_false,
      Bool.false_eq_true, if_false, if_true]
    exact tracks_bind (tracks_preservePartialState _) fun _ => tracks_done rfl
  | true =>
    simp only [Phase.compensate, recover, Error.isApplyFailed, hd, Bool.not_true,
      Bool.false_eq_true, if_false, if_true]
    refine tracks_bind (tracks_log _ _) fun _ => ?_
    refine tracks_bind (tracks_attemptDestroy cause) fun outcome => ?_
    cases outcome with
    | ok _ => exact tracks_bind (tracks_log _ _) fun _ => tracks_done rfl
    | error second =>
      refine tracks_bind (tracks_log _ _) fun _ => ?_
      exact tracks_bind (tracks_preservePartialState _) fun _ => tracks_done rfl

theorem tracks_recover_other (failure : Error) (h : failure.isApplyFailed = false) :
    Tracks a (.failed failure) (a.recover failure) .failed := by
  simp only [recover, h, Bool.not_false, if_true]
  exact tracks_done rfl

theorem tracks_validate (hn : Text.isAllBlank a.envName = false) :
    Tracks a .start a.validate.run (.next fun _ => .start) := by
  simp only [validate, hn, Bool.false_eq_true, if_false]
  exact tracks_pure rfl

theorem tracks_apply (hn : Text.isAllBlank a.envName = false) :
    Tracks a .start a.apply.run .ended := by
  refine tracks_andThen _ (tracks_validate hn) (fun _ => rfl) fun _ => ?_
  refine tracks_andThen _ tracks_setup (fun _ => rfl) fun _ => tracks_logged ?_
  refine tracks_andThen (fun
      | .ok outcome => afterAttempt a outcome
      | .error e => .failed e) (tracks_outcome tracks_attemptApply) (fun _ => rfl)
    fun outcome => ?_
  cases outcome with
  | ok result => exact tracks_logged (tracks_pure rfl)
  | error failure =>
    refine tracks_logged (tracks_andThen (fun
      | .ok report => .failed report
      | .error e => .failed e) (tracks_lift ?_) (fun _ => rfl) fun report => tracks_throw rfl)
    -- Only a failed apply is made up for.
    cases failure with
    | applyFailed cause => exact tracks_recover cause
    | _ => exact tracks_recover_other _ rfl

theorem apply_executes_of_blank {t : Record} {r : Except Error RunResult}
    (hn : Text.isAllBlank a.envName = true) (h : a.apply.run.Executes t r) :
    t = [] ∧ r = .error (.validation "env_name must not be empty") := by
  have hv : a.validate = throw (.validation "env_name must not be empty") := by
    simp only [validate, hn, if_true]
  rw [apply, hv] at h
  rcases Task.executes_bind.1 h with ⟨e, he, rfl⟩ | ⟨t₁, t₂, x, hx, -, -⟩
  · obtain ⟨rfl, heq⟩ := Task.executes_throw.1 he
    cases heq
    exact ⟨rfl, rfl⟩
  · cases (Task.executes_throw.1 hx).2

end Action

end Provision.Lifecycle
