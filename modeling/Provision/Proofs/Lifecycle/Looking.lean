import Provision.Proofs.Host.Journal
import Provision.Proofs.Lifecycle.Steps

/-!
# Runs that only look

The calls on the engine and on the driver that find something out and change nothing. A fetch
makes no other, and writes no file but the local copy of the state, whatever the calls reply. The
setup of an apply makes a workspace and adopts resources besides.
-/

namespace Provision

def Engine.Call.Looks : Engine.Call → Prop
  | .initBackend _ => True
  | .initLocal => True
  | .listWorkspaces => True
  | .pullState _ => True
  | .readOutput _ => True
  | .engineVersion => True
  | _ => False

def Engine.Call.SetsUp : Engine.Call → Prop
  | .newWorkspace _ => True
  | .listState _ => True
  | .adopt _ _ _ => True
  | c => c.Looks

theorem Engine.Call.Looks.setsUp {c : Engine.Call} (h : c.Looks) : c.SetsUp := by
  cases c with
  | newWorkspace name => exact h.elim
  | listState env => exact h.elim
  | adopt env address id => exact h.elim
  | _ => exact h

def Storage.Call.Looks : Storage.Call → Prop
  | .version _ => True
  | .download _ => True
  | _ => False

namespace Lifecycle

def Step.Looks (files : String → Prop) : Step → Prop
  | .engine c => c.Looks
  | .storage c => c.Looks
  | .host r => r.Keeps files ∧ r.IsMute

theorem Step.Looks.mono {files others : String → Prop} {s : Step} (h : s.Looks files)
    (hsub : ∀ path, files path → others path) : s.Looks others := by
  cases s with
  | engine c => exact h
  | storage c => exact h
  | host r => exact ⟨h.1.mono hsub, h.2⟩

def Step.SetsUp (files : String → Prop) : Step → Prop
  | .engine c => c.SetsUp
  | s => s.Looks files

theorem Step.Looks.setsUp {files : String → Prop} {s : Step} (h : s.Looks files) :
    s.SetsUp files := by
  cases s with
  | engine c => exact Engine.Call.Looks.setsUp h
  | _ => exact h

namespace Action

variable {a : Action}

def IsCopy (a : Action) (path : String) : Prop :=
  match a.backend with
  | .workspace => False
  | .stored f => path = f.localPath

theorem isCopy_localPath {f : StateFile} (hb : a.backend = .stored f) : a.IsCopy f.localPath := by
  rw [IsCopy, hb]

theorem mayLook_looks : a.MayLook (Step.Looks a.IsCopy) where
  log _ := ⟨trivial, trivial⟩
  pullState := trivial
  readOutput := trivial
  initBackend _ := trivial
  listWorkspaces _ := trivial
  initLocal _ _ := trivial
  probe _ _ := trivial
  download _ _ := trivial
  readCopy _ _ := ⟨trivial, trivial⟩
  writeCopy _ hb _ := ⟨isCopy_localPath hb, trivial⟩
  makeParent f hb _ hparent := ⟨⟨f.localPath, isCopy_localPath hb, hparent⟩, trivial⟩

theorem maySetUp_setsUp : a.MaySetUp (Step.SetsUp a.IsCopy) where
  toMayLook := mayLook_looks.mono fun _ => Step.Looks.setsUp
  listState := trivial
  adopt _ _ := trivial
  newWorkspace _ := trivial

theorem setsUp_setup : a.setup.run.Only (Step.SetsUp a.IsCopy) := only_setup maySetUp_setsUp

theorem looks_fetch (planOnly : Bool) : (a.fetch planOnly).run.Only (Step.Looks a.IsCopy) :=
  only_fetch mayLook_looks planOnly

theorem looks_stateContents : a.stateContents.run.Only (Step.Looks a.IsCopy) :=
  only_stateContents mayLook_looks

theorem looks_engineVersion {files : String → Prop} :
    engineVersion.run.Only (Step.Looks files) :=
  ⟨trivial, fun _ => trivial⟩

end Action

end Lifecycle

end Provision
