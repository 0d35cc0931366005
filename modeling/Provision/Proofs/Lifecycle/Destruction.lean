import Provision.Proofs.Lifecycle.Idempotence
import Provision.Proofs.Storage.Refinement
import Provision.Proofs.Storage.Refusal

/-!
# Destroying for good

What a destroy leaves behind when the state is stored in a local directory, and the whole of what
is sure about destroying: the state is dropped only when the infrastructure is gone, the engine
destroys only what was found, and after a destroy that went well there is nothing to find.
-/

namespace Provision.Lifecycle

open Provision.Host (Disk Location)
open Provision.Host.Disk (Serves)
open Provision.Storage.LocalDirectory (comesTo_delete comesTo_download comesTo_version deleted
  driver fetched isValidKey probed probed_of_deleted versionPath)
open Provision.Task (performs_bind_ok performs_lift_ok performs_mapError_ok performs_pure)

variable {a : Action} {f : StateFile} {current : Location} {root : String} {d d' : Disk}

namespace StateFile

def objectPath (f : StateFile) (root : String) : String := Host.Path.join root f.key

/-- A run with the object in a local directory, on a host whose files are on a disk. The engine may
do anything; but when it initializes, it leaves the object and its version file as they are. -/
def OnDisk (f : StateFile) (current : Location) (root : String) (d : Disk) :
    Event steps → Disk → Prop
  | ⟨.engine .initLocal, _⟩, d' =>
    d'.stat current (f.objectPath root) = d.stat current (f.objectPath root) ∧
      d'.read current (versionPath (f.objectPath root)) =
        d.read current (versionPath (f.objectPath root))
  | ⟨.engine _, _⟩, _ => True
  | ⟨.storage c, reply⟩, d' => (driver root).Handles (Serves current) d ⟨c, reply⟩ d'
  | ⟨.host r, reply⟩, d' => Serves current d ⟨r, reply⟩ d'

def IsAbsent (f : StateFile) (current : Location) (root : String) (d : Disk) : Prop :=
  ∃ v, probed current d f.key (f.objectPath root) = .ok v ∧ v.isZero = true

theorem hides_stored (hb : a.backend = .stored f) (hkey : isValidKey f.key = true) :
    Hides (f.OnDisk current root) a (f.IsAbsent current root) where
  log d line reply d' hd hstep := by
    cases hstep
    exact hd
  initBackend hw := by cases hb.symm.trans hw
  listing hw := by cases hb.symm.trans hw
  initLocal g hg d reply d' hd hstep := by
    obtain ⟨v, hprobed, hzero⟩ := hd
    obtain ⟨hstat, hread⟩ := hstep
    refine ⟨v, ?_, hzero⟩
    rw [← hprobed, probed, probed, Storage.LocalDirectory.recorded,
      Storage.LocalDirectory.recorded, Disk.exists?, Disk.exists?, hstat, hread]
  probe g hg d reply d' hd hstep := by
    obtain rfl := Backend.stored.inj (hb.symm.trans hg)
    obtain ⟨hreply, rfl⟩ := (comesTo_version hkey _ _).1 hstep
    obtain ⟨v, hprobed, hzero⟩ := hd
    exact ⟨⟨v, hprobed, hzero⟩, v, hreply.trans hprobed, hzero⟩

theorem not_zero_of_fetched {key path : String} {content : Bytes} {v : Storage.ObjectVersion}
    (h : fetched current d key path = .ok (content, v)) : v.isZero = false := by
  unfold fetched at h
  split at h
  · cases h
  · split at h
    · cases h
    · next hzero =>
      split at h
      · cases h
        exact Bool.not_eq_true _ ▸ hzero
      · cases h
      · cases h

theorem performs_log {level : Host.Level} {message : String} {y : Unit}
    (h : (log level message).Performs (f.OnDisk current root) d y d') : d' = d :=
  Program.performs_one.1 h

theorem valid_of_remoteVersion {v : Storage.ObjectVersion}
    (h : f.remoteVersion.run.Performs (f.OnDisk current root) d (.ok v) d') :
    isValidKey f.key = true ∧ d' = d ∧ probed current d f.key (f.objectPath root) = .ok v := by
  have hstep : f.OnDisk current root d ⟨.storage (.version f.key), .ok v⟩ d' :=
    Program.performs_one.1 h
  cases hkey : isValidKey f.key with
  | true =>
    obtain ⟨hreply, rfl⟩ := (comesTo_version hkey _ _).1 hstep
    exact ⟨rfl, rfl, hreply.symm⟩
  | false =>
    obtain ⟨u, hu, -⟩ := hstep
    obtain ⟨-, herror⟩ := Storage.LocalDirectory.rejects root hkey (.version f.key) u _ rfl hu
    cases herror

theorem absent_of_download {v : Storage.ObjectVersion} (hzero : v.isZero = true)
    (h : f.download.run.Performs (f.OnDisk current root) d (.ok v) d') :
    isValidKey f.key = true ∧ f.IsAbsent current root d' := by
  obtain ⟨found, d₁, hprobe, h₁⟩ := performs_bind_ok.1 h
  obtain ⟨hkey, rfl, hprobed⟩ := valid_of_remoteVersion hprobe
  refine ⟨hkey, ?_⟩
  cases hfound : found.isZero with
  | true =>
    simp only [hfound, if_true] at h₁
    obtain ⟨_, d₂, hlog, h₂⟩ := performs_bind_ok.1 h₁
    obtain ⟨-, rfl⟩ := performs_pure.1 h₂
    obtain rfl := performs_log (performs_lift_ok.1 hlog)
    exact ⟨found, hprobed, hfound⟩
  | false =>
    simp only [hfound, Bool.false_eq_true, if_false] at h₁
    obtain ⟨⟨content, version⟩, d₂, hdownload, h₂⟩ := performs_bind_ok.1 h₁
    obtain ⟨_, _, -, h₃⟩ := performs_bind_ok.1 h₂
    obtain ⟨_, _, -, h₄⟩ := performs_bind_ok.1 h₃
    obtain ⟨heq, -⟩ := performs_pure.1 h₄
    obtain rfl := Except.ok.inj heq
    obtain ⟨hreply, -⟩ := (comesTo_download hkey _ _).1 (Program.performs_one.1 hdownload)
    rw [not_zero_of_fetched hreply.symm] at hzero
    cases hzero

end StateFile

theorem absent_of_destroy_stored (hb : a.backend = .stored f) {result : RunResult}
    (h : a.destroy.run.Performs (f.OnDisk current root) d (.ok result) d') :
    isValidKey f.key = true ∧ f.IsAbsent current root d' := by
  obtain ⟨_, _, -, h₁⟩ := performs_bind_ok.1 h
  obtain ⟨_, _, -, h₂⟩ := performs_bind_ok.1 h₁
  obtain ⟨found, d₁, hstate, h₃⟩ := performs_bind_ok.1 h₂
  rw [Action.hasState, hb] at hstate
  obtain ⟨_, d₂, -, hasked⟩ := performs_bind_ok.1 hstate
  obtain ⟨v, d₃, hdownload, hpure⟩ := performs_bind_ok.1 hasked
  obtain ⟨hfound, rfl⟩ := performs_pure.1 hpure
  have hdownload := performs_mapError_ok.1 hdownload
  cases found with
  | false =>
    have hzero : v.isZero = true := by
      cases hv : v.isZero with
      | true => rfl
      | false =>
        rw [hv] at hfound
        cases hfound
    obtain ⟨hkey, habsent⟩ := StateFile.absent_of_download hzero hdownload
    obtain ⟨_, d₄, hsay, h₄⟩ := performs_bind_ok.1 h₃
    obtain ⟨-, rfl⟩ := performs_pure.1 h₄
    obtain rfl := StateFile.performs_log (performs_lift_ok.1 hsay)
    exact ⟨hkey, habsent⟩
  | true =>
    obtain ⟨_, _, hprobe, -⟩ := performs_bind_ok.1 hdownload
    obtain ⟨hkey, -, -⟩ := StateFile.valid_of_remoteVersion hprobe
    obtain ⟨_, d₄, hattempt, h₄⟩ := performs_bind_ok.1 h₃
    obtain ⟨_, d₅, hsay, h₅⟩ := performs_bind_ok.1 h₄
    obtain ⟨-, rfl⟩ := performs_pure.1 h₅
    obtain rfl := StateFile.performs_log (performs_lift_ok.1 hsay)
    obtain ⟨_, _, -, h₆⟩ := performs_bind_ok.1 hattempt
    obtain ⟨_, d₆, hdrop, h₇⟩ := performs_bind_ok.1 h₆
    obtain ⟨-, rfl⟩ := performs_pure.1 h₇
    rw [Action.dropState, hb] at hdrop
    obtain ⟨_, d₇, hdelete, hlog⟩ := performs_bind_ok.1 (performs_mapError_ok.1 hdrop)
    obtain rfl := StateFile.performs_log (performs_lift_ok.1 hlog)
    obtain ⟨hreply, hdisk⟩ := (comesTo_delete hkey _ _).1 (Program.performs_one.1 hdelete)
    exact ⟨hkey, _, probed_of_deleted (Prod.ext hreply.symm hdisk.symm), rfl⟩

/-- In every run the state is dropped only right after the infrastructure was destroyed, and never
the default workspace; a destroy asks the engine to destroy only what it found, and once. An
environment whose destroy went well stays gone. -/
theorem destroys_for_good :
    (∀ (a : Action) (t : Record) (r : Except Error RunResult),
      a.apply.run.Executes t r ∨ a.destroy.run.Executes t r → Orderly a t) ∧
    (∀ (a : Action) (t : Record) (r : Except Error RunResult),
      a.destroy.run.Executes t r → a.DestroysFound t) ∧
    (∀ (a : Action) (result : RunResult) (s s' : Workspaces),
      a.backend = .workspace → a.envName ≠ Engine.defaultWorkspace →
      a.destroy.run.Performs Workspaces.Reflects s (.ok result) s' →
        StaysGone Workspaces.Reflects a (fun s => ¬ s a.envName) s') ∧
    (∀ (a : Action) (f : StateFile) (current : Location) (root : String) (result : RunResult)
      (d d' : Disk), a.backend = .stored f →
      a.destroy.run.Performs (f.OnDisk current root) d (.ok result) d' →
        StaysGone (f.OnDisk current root) a (f.IsAbsent current root) d') := by
  refine ⟨?_, fun a t r => Action.destroysFound_destroy, ?_, ?_⟩
  · rintro a t r (h | h)
    · exact Action.orderly_apply h
    · exact Action.orderly_destroy h
  · intro a result s s' hb hname h
    obtain ⟨t, hx, -⟩ := id h
    exact staysGone (hides_workspace hb) (not_blank_of_destroy hx)
      (absent_of_destroy_workspace hb hname h)
  · intro a f current root result d d' hb h
    obtain ⟨t, hx, -⟩ := id h
    obtain ⟨hkey, habsent⟩ := absent_of_destroy_stored hb h
    exact staysGone (StateFile.hides_stored hb hkey) (not_blank_of_destroy hx) habsent

namespace Sample

open Record (ofEngine ofLog)

-- An environment that is destroyed, and looked for afterwards, in a workspace.
def tenant : Action where
  backend := .workspace
  envName := "dev"

def before : Workspaces := fun name => name = "default" ∨ name = "dev"

def after : Workspaces := fun name => name = "default"

def destroyed : Record := [
  ofLog .info "== Terraform Destroy: dev ==",
  ofEngine (.initBackend "dev") (.ok ()),
  ofEngine .listWorkspaces (.ok ["default", "dev"]),
  ofEngine (.destroy "dev") (.ok ()),
  ofEngine (.deleteWorkspace "dev") (.ok ()),
  ofLog .info "Successfully ran terraform destroy"]

def visits : List Visited := [
  ⟨.destroy, [
    ofLog .info "== Terraform Destroy: dev ==",
    ofEngine (.initBackend "dev") (.ok ()),
    ofEngine .listWorkspaces (.ok ["default"]),
    ofLog .info "Environment 'dev' has no state; nothing to destroy"],
    .ok ⟨.empty "dev", {}⟩⟩,
  ⟨.fetch true, [
    ofEngine (.initBackend "dev") (.ok ()),
    ofEngine .listWorkspaces (.ok ["default"]),
    ofLog .info "Workspace 'dev' does not exist in backend. Returning an empty plan version."],
    .ok ⟨.plan "dev", {}⟩⟩]

theorem executes_destroyed :
    tenant.destroy.run.Executes destroyed (.ok ⟨.empty "dev", {}⟩) :=
  .step _ (.step _ (.step _ (.step _ (.step _ (.step _ (.done _))))))

theorem passes_destroyed : Passes Workspaces.Reflects before destroyed after := by
  refine .cons rfl (.cons rfl (.cons ⟨rfl, ?_⟩ (.cons rfl (.cons ⟨?_, ?_⟩ (.cons rfl (.nil _))))))
  · intro names hnames name
    cases hnames
    simp [before]
  · intro other hother
    simp [before, after, hother]
  · intro _
    simp [after]

theorem visits_after : Visits Workspaces.Reflects tenant after visits after := by
  have hlisting : Workspaces.Reflects after (ofEngine .listWorkspaces (.ok ["default"])) after := by
    refine ⟨rfl, fun names hnames name => ?_⟩
    cases hnames
    simp [after]
  refine .cons (.step _ (.step _ (.step _ (.step _ (.done _)))))
    (.cons rfl (.cons rfl (.cons hlisting (.cons rfl (.nil _))))) ?_
  exact .cons (.step _ (.step _ (.step _ (.done _))))
    (.cons rfl (.cons hlisting (.cons rfl (.nil _)))) (.nil _)

-- The same with the state in a local directory.
def file : StateFile := ⟨"/terraform.tfstate", "dev.tfstate"⟩

def keeper : Action where
  backend := .stored file
  envName := "dev"

open Storage.LocalDirectory (keeps_kept)
open Storage.LocalDirectory.Sample (content drawn_record handles_download isFlat_dev kept_dev
  stored version)

def emptied : Record := [
  ofLog .info "== Terraform Destroy: dev ==",
  ofEngine .initLocal (.ok ()),
  Record.ofStorage (.version "dev.tfstate") (.ok version),
  Record.ofStorage (.download "dev.tfstate") (.ok (content, version)),
  Record.ofHost (.makeDirectories "/") (.ok ()),
  Record.ofHost (.writeFile "/terraform.tfstate" content) (.ok ()),
  ofLog .info ("Downloaded state 'dev.tfstate' (version " ++ version.display ++ ")"),
  ofEngine (.destroy "dev") (.ok ()),
  Record.ofStorage (.delete "dev.tfstate") (.ok ()),
  ofLog .info "Deleted state 'dev.tfstate'",
  ofLog .info "Successfully ran terraform destroy"]

theorem executes_emptied : keeper.destroy.run.Executes emptied (.ok ⟨.empty "dev", {}⟩) :=
  .step _ (.step _ (.step _ (.step _ (.step _ (.step _ (.step _ (.step _ (.step _ (.step _
    (.step _ (.done _)))))))))))

def cleared : Disk := (deleted [] stored "dev.tfstate" "/states/dev.tfstate").2

theorem passes_emptied : Passes (file.OnDisk [] "/states") stored emptied cleared := by
  have hkeeps := keeps_kept isFlat_dev drawn_record kept_dev
  have hprobed : probed [] stored "dev.tfstate" "/states/dev.tfstate" = .ok version := by
    rw [probed, if_pos (by decide +kernel)]
    exact (hkeeps.recorded_some isFlat_dev).1
  have hprobe : file.OnDisk [] "/states" stored (Record.ofStorage (.version "dev.tfstate")
      (.ok version)) stored :=
    (comesTo_version isFlat_dev.isValidKey _ _).2 ⟨hprobed.symm, rfl⟩
  have hdelete : file.OnDisk [] "/states" stored (Record.ofStorage (.delete "dev.tfstate")
      (.ok ())) cleared :=
    (comesTo_delete isFlat_dev.isValidKey _ _).2 ⟨rfl, rfl⟩
  exact .cons rfl (.cons ⟨rfl, rfl⟩ (.cons hprobe (.cons handles_download
    (.cons ⟨rfl, rfl⟩ (.cons rfl (.cons rfl (.cons trivial (.cons hdelete (.cons rfl (.cons rfl
      (.nil _)))))))))))

def lookups : List Visited := [
  ⟨.destroy, [
    ofLog .info "== Terraform Destroy: dev ==",
    ofEngine .initLocal (.ok ()),
    Record.ofStorage (.version "dev.tfstate") (.ok .zero),
    ofLog .debug "No remote state at 'dev.tfstate'",
    ofLog .info "Environment 'dev' has no state; nothing to destroy"],
    .ok ⟨.empty "dev", {}⟩⟩]

theorem visits_cleared : Visits (file.OnDisk [] "/states") keeper cleared lookups cleared := by
  have hprobe : file.OnDisk [] "/states" cleared (Record.ofStorage (.version "dev.tfstate")
      (.ok .zero)) cleared :=
    (comesTo_version isFlat_dev.isValidKey _ _).2 ⟨(probed_of_deleted (Prod.ext rfl rfl)).symm, rfl⟩
  exact .cons (.step _ (.step _ (.step _ (.step _ (.step _ (.done _))))))
    (.cons rfl (.cons ⟨rfl, rfl⟩ (.cons hprobe (.cons rfl (.cons rfl (.nil _)))))) (.nil _)

theorem destroys_for_good_dev :
    Orderly tenant destroyed ∧ tenant.DestroysFound destroyed ∧ ¬ after "dev" ∧
      (∀ v ∈ visits, v.IsIdle tenant) ∧ file.IsAbsent [] "/states" cleared ∧
      ∀ v ∈ lookups, v.IsIdle keeper := by
  obtain ⟨hafter, hvisits⟩ := destroys_for_good.2.2.1 tenant _ before after rfl (by decide)
    ⟨destroyed, executes_destroyed, passes_destroyed⟩
  obtain ⟨hcleared, hlookups⟩ := destroys_for_good.2.2.2 keeper file [] "/states" _ stored cleared
    rfl ⟨emptied, executes_emptied, passes_emptied⟩
  exact ⟨destroys_for_good.1 _ _ _ (.inr executes_destroyed),
    destroys_for_good.2.1 _ _ _ executes_destroyed, hafter, (hvisits _ _ visits_after).2, hcleared,
    (hlookups _ _ visits_cleared).2⟩

end Sample

end Provision.Lifecycle
