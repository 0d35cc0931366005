import Provision.Lifecycle.Action
import Provision.Proofs.Surroundings

/-!
# Steps that runs can take

The steps of the parts of an action, and of its runs, whatever their replies. They are told by
what a kind of steps `K` has to contain: to look at an environment, to change it, and to take it
away. What is called depends on where the state is kept, so every condition on a call of one mode
is only asked for in that mode.
-/

namespace Provision.Lifecycle

open Provision.Task (only_bind only_lift only_mapError only_pure only_throw)

variable {a : Action} {f : StateFile} {K : Step → Prop}

structure StateFile.MayLoad (f : StateFile) (K : Step → Prop) : Prop where
  log : ∀ line, K (.host (.log line))
  probe : K (.storage (.version f.key))
  download : K (.storage (.download f.key))
  writeCopy : ∀ content, K (.host (.writeFile f.localPath content))
  makeParent : ∀ directory, Host.Path.parent? f.localPath = some directory →
    K (.host (.makeDirectories directory))

structure StateFile.MayStore (f : StateFile) (K : Step → Prop) : Prop where
  log : ∀ line, K (.host (.log line))
  findCopy : K (.host (.isFile f.localPath))
  readCopy : K (.host (.readFile f.localPath))
  upload : ∀ content, K (.storage (.upload f.key content))

namespace Action

structure MayLook (a : Action) (K : Step → Prop) : Prop where
  log : ∀ line, K (.host (.log line))
  pullState : K (.engine (.pullState a.envName))
  readOutput : K (.engine (.readOutput a.envName))
  initBackend : a.backend = .workspace → K (.engine (.initBackend a.envName))
  listWorkspaces : a.backend = .workspace → K (.engine .listWorkspaces)
  initLocal : ∀ f, a.backend = .stored f → K (.engine .initLocal)
  probe : ∀ f, a.backend = .stored f → K (.storage (.version f.key))
  download : ∀ f, a.backend = .stored f → K (.storage (.download f.key))
  readCopy : ∀ f, a.backend = .stored f → K (.host (.readFile f.localPath))
  writeCopy : ∀ f, a.backend = .stored f → ∀ content, K (.host (.writeFile f.localPath content))
  makeParent : ∀ f, a.backend = .stored f → ∀ directory,
    Host.Path.parent? f.localPath = some directory → K (.host (.makeDirectories directory))

structure MaySetUp (a : Action) (K : Step → Prop) : Prop extends a.MayLook K where
  listState : K (.engine (.listState a.envName))
  adopt : ∀ address id, K (.engine (.adopt a.envName address id))
  newWorkspace : a.backend = .workspace → K (.engine (.newWorkspace a.envName))

structure MayApply (a : Action) (K : Step → Prop) : Prop extends a.MaySetUp K where
  apply : K (.engine (.apply a.envName))
  findCopy : ∀ f, a.backend = .stored f → K (.host (.isFile f.localPath))
  upload : ∀ f, a.backend = .stored f → ∀ content, K (.storage (.upload f.key content))

structure MayDestroy (a : Action) (K : Step → Prop) : Prop extends a.MayApply K where
  destroy : K (.engine (.destroy a.envName))
  deleteWorkspace : a.backend = .workspace → K (.engine (.deleteWorkspace a.envName))
  delete : ∀ f, a.backend = .stored f → K (.storage (.delete f.key))

theorem MayLook.mono {L : Step → Prop} (h : a.MayLook K) (hsub : ∀ s, K s → L s) :
    a.MayLook L where
  log line := hsub _ (h.log line)
  pullState := hsub _ h.pullState
  readOutput := hsub _ h.readOutput
  initBackend hb := hsub _ (h.initBackend hb)
  listWorkspaces hb := hsub _ (h.listWorkspaces hb)
  initLocal f hb := hsub _ (h.initLocal f hb)
  probe f hb := hsub _ (h.probe f hb)
  download f hb := hsub _ (h.download f hb)
  readCopy f hb := hsub _ (h.readCopy f hb)
  writeCopy f hb content := hsub _ (h.writeCopy f hb content)
  makeParent f hb directory hparent := hsub _ (h.makeParent f hb directory hparent)

theorem MayLook.load (h : a.MayLook K) (hb : a.backend = .stored f) : f.MayLoad K where
  log := h.log
  probe := h.probe f hb
  download := h.download f hb
  writeCopy := h.writeCopy f hb
  makeParent := h.makeParent f hb

theorem MayApply.store (h : a.MayApply K) (hb : a.backend = .stored f) : f.MayStore K where
  log := h.log
  findCopy := h.findCopy f hb
  readCopy := h.readCopy f hb
  upload := h.upload f hb

end Action

theorem only_log {ε : Type} (h : ∀ line, K (.host (.log line))) (level : Host.Level)
    (message : String) : (Task.lift (log level message) : Task steps ε Unit).run.Only K :=
  only_lift ⟨h _, fun _ => trivial⟩

namespace StateFile

theorem only_writeLocal (h : f.MayLoad K) (content : Bytes) :
    (f.writeLocal content).run.Only K := by
  have hcopy : (attempt (host (.writeFile f.localPath content)) fun fault =>
      "Failed to write state file to '" ++ f.localPath ++ "': " ++ fault.message).run.Only K :=
    only_mapError ⟨h.writeCopy content, fun _ => trivial⟩
  unfold writeLocal
  split
  · next directory hdirectory =>
    refine only_bind (only_mapError ⟨h.makeParent directory hdirectory, fun _ => trivial⟩)
      fun _ => ?_
    exact hcopy
  · exact hcopy

theorem only_readLocal (h : K (.host (.readFile f.localPath))) : f.readLocal.run.Only K :=
  only_mapError ⟨h, fun _ => trivial⟩

theorem only_download (h : f.MayLoad K) : f.download.run.Only K := by
  refine only_bind ⟨h.probe, fun _ => trivial⟩ fun probed => ?_
  cases probed.isZero with
  | true => exact only_bind (only_log h.log _ _) fun _ => only_pure
  | false =>
    refine only_bind ⟨h.download, fun _ => trivial⟩ fun object => ?_
    exact only_bind (only_writeLocal h _) fun _ =>
      only_bind (only_log h.log _ _) fun _ => only_pure

theorem only_upload (h : f.MayStore K) : f.upload.run.Only K :=
  only_bind (only_readLocal h.readCopy) fun content =>
    only_bind ⟨h.upload content, fun _ => trivial⟩ fun _ =>
      only_bind (only_log h.log _ _) fun _ => only_pure

end StateFile

namespace Action

theorem only_validate : a.validate.run.Only K := by
  unfold validate
  split
  · exact only_throw
  · exact only_pure

section Look

variable (h : a.MayLook K)

include h

theorem only_workspaceExists (hb : a.backend = .workspace) : a.workspaceExists.run.Only K :=
  only_bind ⟨h.listWorkspaces hb, fun _ => trivial⟩ fun _ => only_pure

theorem only_currentSerial : a.currentSerial.run.Only K :=
  only_bind ⟨h.pullState, fun _ => trivial⟩ fun _ => trivial

theorem only_hasState : a.hasState.run.Only K := by
  unfold hasState
  cases hb : a.backend with
  | workspace =>
    exact only_bind ⟨h.initBackend hb, fun _ => trivial⟩ fun _ => only_workspaceExists h hb
  | stored file =>
    exact only_bind ⟨h.initLocal file hb, fun _ => trivial⟩ fun _ =>
      only_bind (only_mapError (StateFile.only_download (h.load hb))) fun _ => only_pure

theorem only_missingState (planOnly : Bool) (text : String) :
    (a.missingState planOnly text).run.Only K := by
  cases planOnly with
  | true => exact only_bind (only_log h.log _ _) fun _ => only_pure
  | false => exact only_throw

theorem only_fetch (planOnly : Bool) : (a.fetch planOnly).run.Only K := by
  refine only_bind only_validate fun _ => ?_
  cases hb : a.backend with
  | workspace =>
    refine only_bind ⟨h.initBackend hb, fun _ => trivial⟩ fun _ =>
      only_bind (only_workspaceExists h hb) fun found => ?_
    cases found with
    | false => exact only_missingState h _ _
    | true =>
      refine only_bind (only_currentSerial h) fun _ => ?_
      exact only_bind ⟨h.readOutput, fun _ => trivial⟩ fun _ => only_pure
  | stored file =>
    refine only_bind ⟨h.initLocal file hb, fun _ => trivial⟩ fun _ =>
      only_bind (only_mapError (StateFile.only_download (h.load hb))) fun version => ?_
    split
    · exact only_missingState h _ _
    · exact only_bind ⟨h.readOutput, fun _ => trivial⟩ fun _ => only_pure

theorem only_stateContents : a.stateContents.run.Only K := by
  unfold stateContents
  cases hb : a.backend with
  | workspace => exact ⟨h.pullState, fun _ => trivial⟩
  | stored file => exact only_mapError (StateFile.only_readLocal (h.readCopy file hb))

end Look

section SetUp

variable (h : a.MaySetUp K)

include h

theorem only_ensureWorkspace (hb : a.backend = .workspace) : a.ensureWorkspace.run.Only K := by
  refine only_bind (only_workspaceExists h.toMayLook hb) fun found => ?_
  cases found with
  | true => exact only_pure
  | false =>
    exact only_bind (only_log h.log _ _) fun _ => ⟨h.newWorkspace hb, fun _ => trivial⟩

theorem only_adoptAll (tracked : List String) (imports : List (String × String)) :
    (a.adoptAll tracked imports).run.Only K := by
  induction imports with
  | nil => exact only_pure
  | cons entry rest ih =>
    obtain ⟨address, id⟩ := entry
    unfold adoptAll
    split
    · exact only_bind (only_log h.log _ _) fun _ => ih
    · exact only_bind (only_log h.log _ _) fun _ =>
        only_bind ⟨h.adopt address id, fun _ => trivial⟩ fun _ => ih

theorem only_prepareState : a.prepareState.run.Only K := by
  unfold prepareState
  cases hb : a.backend with
  | workspace =>
    exact only_bind ⟨h.initBackend hb, fun _ => trivial⟩ fun _ => only_ensureWorkspace h hb
  | stored file =>
    refine only_bind ⟨h.initLocal file hb, fun _ => trivial⟩ fun _ =>
      only_bind (only_mapError (StateFile.only_download (h.load hb))) fun prior => ?_
    split
    · exact only_log h.log _ _
    · exact only_pure

theorem only_setup : a.setup.run.Only K := by
  refine only_bind (only_prepareState h) fun _ => ?_
  split
  · exact only_pure
  · exact only_bind ⟨h.listState, fun _ => trivial⟩ fun _ => only_adoptAll h _ _

end SetUp

section Apply

variable (h : a.MayApply K)

include h

theorem only_attemptApply : a.attemptApply.run.Only K := by
  refine only_bind (only_mapError ⟨h.apply, fun _ => trivial⟩) fun _ => only_mapError ?_
  refine only_bind ?_ fun _ => only_bind ⟨h.readOutput, fun _ => trivial⟩ fun _ => only_pure
  unfold recordVersion
  cases hb : a.backend with
  | workspace => exact only_bind (only_currentSerial h.toMayLook) fun _ => only_pure
  | stored file => exact only_bind (only_mapError (StateFile.only_upload (h.store hb))) fun _ =>
      only_pure

end Apply

theorem only_preservePartialState (h : ∀ f, a.backend = .stored f → f.MayStore K) :
    a.preservePartialState.Only K := by
  unfold preservePartialState
  cases hb : a.backend with
  | workspace => trivial
  | stored file =>
    have hstore := h file hb
    refine Program.only_bind ⟨hstore.findCopy, fun _ => trivial⟩ fun found => ?_
    cases found with
    | false => trivial
    | true =>
      refine Program.only_bind (StateFile.only_upload hstore) fun outcome => ?_
      cases outcome with
      | ok version => exact ⟨hstore.log _, fun _ => trivial⟩
      | error e => exact ⟨hstore.log _, fun _ => trivial⟩

section Destroy

variable (h : a.MayDestroy K)

include h

theorem only_attemptDestroy : a.attemptDestroy.run.Only K := by
  refine only_bind ⟨h.destroy, fun _ => trivial⟩ fun _ => only_bind ?_ fun _ => only_pure
  unfold dropState
  cases hb : a.backend with
  | workspace =>
    dsimp only
    split
    · exact only_log h.log _ _
    · exact ⟨h.deleteWorkspace hb, fun _ => trivial⟩
  | stored file =>
    exact only_mapError (only_bind ⟨h.delete file hb, fun _ => trivial⟩ fun _ =>
      only_log h.log _ _)

theorem only_recover (failure : Error) : (a.recover failure).Only K := by
  have hlog (level : Host.Level) (message : String) : (log level message).Only K :=
    ⟨h.log _, fun _ => trivial⟩
  unfold recover
  split
  · trivial
  · split
    · exact Program.only_bind (only_preservePartialState fun _ => h.store) fun _ => trivial
    · refine Program.only_bind (hlog _ _) fun _ =>
        Program.only_bind (only_attemptDestroy h) fun outcome => ?_
      cases outcome with
      | ok result => exact Program.only_bind (hlog _ _) fun _ => trivial
      | error second =>
        exact Program.only_bind (hlog _ _) fun _ =>
          Program.only_bind (only_preservePartialState fun _ => h.store) fun _ => trivial

theorem only_apply : a.apply.run.Only K := by
  refine only_bind only_validate fun _ => only_bind (only_setup h.toMaySetUp) fun _ =>
    only_bind (only_log h.log _ _) fun _ =>
      only_bind (only_lift (only_attemptApply h.toMayApply)) fun outcome => ?_
  cases outcome with
  | ok result => exact only_bind (only_log h.log _ _) fun _ => only_pure
  | error failure =>
    exact only_bind (only_log h.log _ _) fun _ =>
      only_bind (only_lift (only_recover h failure)) fun _ => only_throw

theorem only_destroy : a.destroy.run.Only K := by
  refine only_bind only_validate fun _ => only_bind (only_log h.log _ _) fun _ =>
    only_bind (only_hasState h.toMayLook) fun found => ?_
  cases found with
  | false => exact only_bind (only_log h.log _ _) fun _ => only_pure
  | true =>
    exact only_bind (only_attemptDestroy h) fun _ =>
      only_bind (only_log h.log _ _) fun _ => only_pure

end Destroy

end Action

end Provision.Lifecycle
