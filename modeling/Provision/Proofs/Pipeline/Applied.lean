import Provision.Proofs.Codec
import Provision.Proofs.Lifecycle.Serial
import Provision.Proofs.Pipeline.Prepared

/-!
# What an apply leaves and a fetch finds

In a workspace, the serial of an apply is the one in the state document that the engine
printed, and a fetch that is shown the same document has the same serial. In a local directory,
an apply leaves the local copy in the object's file and its version in the file next to it, and
a fetch that finds both as they were left has that version, and the same copy.
-/

namespace Provision.Pipeline.Prepared

open Provision.Host
open Provision.Engine.Terraform (invocation)
open Provision.Lifecycle (parseSerial)
open Provision.Program (Answered Backed)
open Provision.Storage.LocalDirectory (VersionRecord isValidKey versionPath)
open Provision.Task (Achieves)

variable {s : Settings} {scratch root : String} {u : Journal} {result : RunResult}

structure Settled (v : Version) (envName : String) : Prop where
  writable : v.Writable
  valid : v.validate = .ok ()
  kept : v.isZero = false
  actual : v.planOnly = false
  envName : v.envName = envName

theorem settled_ofSerial {envName : String} {n : Nat} (hn : Text.isAllBlank envName = false)
    (h : n < Json.Number.wordLimit) : Settled (.ofSerial envName n) envName where
  writable := Version.writable_ofSerial h
  valid := Version.validate_ofSerial hn
  kept := rfl
  actual := rfl
  envName := rfl

theorem settled_ofStorage {envName : String} {v : Storage.ObjectVersion}
    (hn : Text.isAllBlank envName = false) (hv : v.isZero = false)
    (h : ∀ t, v.lastModified = some t → Timestamp.ofText? t.text = some t) :
    Settled (.ofStorage envName v) envName := by
  have hfields : Version.ofStorage envName v =
      { Version.empty envName with
        storageVersion := some v.token, lastModified := v.lastModified } := by
    simp only [Version.ofStorage, hv, Bool.false_eq_true, if_false]
  have hwritable : (Version.ofStorage envName v).Writable := Version.writable_ofStorage h
  have hvalid : (Version.ofStorage envName v).validate = .ok () := Version.validate_ofStorage hn
  rw [hfields] at hwritable hvalid ⊢
  exact ⟨hwritable, hvalid, rfl, rfl, rfl⟩

theorem executes_apply_workspace
    (h : ((inWorkspace s scratch).run (inWorkspace s scratch).action.apply).run.Executes u
      (.ok result)) :
    Text.isAllBlank s.envName = false ∧ ∃ finished n, parseSerial finished.output = .ok n ∧
      result.version = .ofSerial s.envName n ∧
      (⟨.start (invocation (inWorkspace s scratch).config ["state", "pull"] (some s.envName)),
        (.ok finished : Except Fault Finished)⟩ : Event effects) ∈ u := by
  obtain ⟨steps, hsteps, hbacked⟩ := executes_run h
  obtain ⟨hn, t₁, t₂, line, hread, rfl⟩ := Lifecycle.Action.executes_apply hsteps
  obtain ⟨t₃, hrecord, rfl⟩ := Lifecycle.Action.executes_readBack hread
  obtain ⟨raw, n, hserial, hversion, rfl⟩ :=
    Lifecycle.Action.executes_recordVersion_workspace rfl hrecord
  obtain ⟨v, hv, hexec⟩ :=
    hbacked.mem (List.mem_append_right _ (List.mem_append_left _ List.mem_cons_self))
  have hpull : (Engine.Terraform.pullState (inWorkspace s scratch).config s.envName).run.Executes v
      (.ok raw) := hexec
  obtain ⟨finished, rfl, hmem⟩ := Engine.Terraform.executes_pullState rfl hpull
  exact ⟨hn, finished, n, hserial, hversion, hv.subset hmem⟩

theorem executes_apply_directory
    (h : ((inDirectory s scratch root).run (inDirectory s scratch root).action.apply).run.Executes u
      (.ok result)) :
    let file := Lifecycle.StateFile.ofEnv s.envName scratch
    let path := Path.join root file.key
    Text.isAllBlank s.envName = false ∧ isValidKey file.key = true ∧
    ∃ (content : Bytes) (r : VersionRecord),
      result.version = .ofStorage s.envName ⟨r.version, some r.lastModified⟩ ∧ r.version ≠ "" ∧
      (⟨.now, r.lastModified⟩ : Event effects) ∈ u ∧
      (⟨.readFile file.localPath, (.ok content : Except Fault Bytes)⟩ : Event effects) ∈ u ∧
      lastWritten path u = some content ∧ lastWritten (versionPath path) u = some r.encode := by
  intro file path
  obtain ⟨steps, hsteps, hbacked⟩ := executes_run h
  obtain ⟨hn, t₁, t₂, line, hread, rfl⟩ := Lifecycle.Action.executes_apply hsteps
  obtain ⟨t₃, hrecord, rfl⟩ := Lifecycle.Action.executes_readBack hread
  obtain ⟨content, stored, line', hversion, rfl⟩ :=
    Lifecycle.Action.executes_recordVersion_stored (f := file) rfl hrecord
  -- The record ends with the copy read, the upload and steps that write nothing; the journal
  -- is cut accordingly.
  obtain ⟨u₁, _, -, hlast, rfl⟩ := hbacked.append
  obtain ⟨u₂, _, hcopy, hlast₁, rfl⟩ := Backed.cons_iff.1 hlast
  obtain ⟨u₃, u₄, hexec, hlast₂, rfl⟩ := Backed.cons_iff.1 hlast₁
  obtain rfl := Program.executes_one.1 hcopy
  have hupload : (Storage.LocalDirectory.upload root file.key content).run.Executes u₃
      (.ok stored) := hexec
  obtain ⟨hkey, r, rfl, hr, htime, hcontent, hrecorded⟩ :=
    Storage.LocalDirectory.executes_upload hupload
  have hquiet (p : String) : ∀ e ∈ u₄, written? p e = none := by
    refine unwritten_of_quiet p hlast₂ ?_
    simp [IsQuiet]
  have hkept {p : String} {written : Bytes} (h : lastWritten p u₃ = some written) :
      lastWritten p (u₁ ++ ([⟨.readFile file.localPath, .ok content⟩] ++ (u₃ ++ u₄))) =
        some written := by
    refine lastWritten_append_some (lastWritten_append_some ?_)
    rw [lastWritten_append_unwritten (hquiet p)]
    exact h
  refine ⟨hn, hkey, content, r, hversion, hr, ?_, ?_, hkept hcontent, hkept hrecorded⟩
  · exact List.mem_append_right _ (List.mem_append_right _ (List.mem_append_left _ htime))
  · exact List.mem_append_right _ (List.mem_append_left _ List.mem_cons_self)

section Fetch

variable {P : Event effects → Prop} {p : Prepared} {n : Nat} {content : Bytes} {r : VersionRecord}

def Outputs (P : Event effects → Prop) : Prop :=
  ∀ i finished, P ⟨.start i, (.ok finished : Except Fault Finished)⟩ →
    i.arguments.head? = some "output" →
    (Engine.Terraform.Reply.outputs? finished.output).isSome = true

theorem provides_host (hP : ∀ e, P e → Succeeds e) :
    Lifecycle.Provides (Answered p.answer P) := by
  rintro r reply ⟨v, hv, hexec⟩
  obtain rfl := Program.executes_one.1 hexec
  exact hP _ (hv _ (List.mem_singleton_self _))

theorem answered_output (hP : ∀ e, P e → Succeeds e) (houtput : Outputs P) {env : String} {reply}
    (h : Answered p.answer P ⟨.engine (.readOutput env), reply⟩) :
    ∃ output, reply = .ok output := by
  obtain ⟨_, output, heq, -⟩ := h.of_yields (Engine.Terraform.achieves_readOutput hP houtput env)
  exact ⟨output, heq⟩

theorem achieves_fetch_workspace (hP : ∀ e, P e → Succeeds e) (houtput : Outputs P)
    (hn : Text.isAllBlank s.envName = false) (hb : s.backendType.isSome = true)
    (hlist : ∀ finished, P ⟨.start (invocation (inWorkspace s scratch).config
        ["workspace", "list"] none), (.ok finished : Except Fault Finished)⟩ →
      s.envName ∈ Engine.Terraform.Reply.workspaces (Text.Utf8.lossy finished.output))
    (hpull : ∀ finished, P ⟨.start (invocation (inWorkspace s scratch).config
        ["state", "pull"] (some s.envName)), (.ok finished : Except Fault Finished)⟩ →
      parseSerial finished.output = .ok n) :
    ((inWorkspace s scratch).run ((inWorkspace s scratch).action.fetch false)).Achieves P
      fun _ result => result.version = .ofSerial s.envName n := by
  refine (achieves_run (Lifecycle.Action.achieves_fetch_workspace (n := n) rfl hn ?_ ?_ ?_ ?_
    false)).weaken fun _ result h => ?_
  · intro reply h
    obtain ⟨_, _, rfl, -⟩ := h.of_yields (Engine.Terraform.achieves_initBackend hP hb _)
    rfl
  · intro reply h
    obtain ⟨_, names, rfl, finished, hfinished, rfl⟩ :=
      h.of_yields (Engine.Terraform.achieves_listWorkspaces hP)
    exact ⟨_, rfl, List.contains_iff_mem.2 (hlist finished hfinished)⟩
  · intro reply h
    obtain ⟨_, raw, rfl, finished, hfinished, rfl⟩ := h.of_yields
      (Engine.Terraform.achieves_pullState (c := (inWorkspace s scratch).config) hP rfl s.envName)
    exact ⟨_, rfl, hpull finished hfinished⟩
  · exact fun reply h => answered_output hP houtput h
  · obtain ⟨t, -, hversion⟩ := h
    exact hversion

theorem achieves_fetch_directory (hP : ∀ e, P e → Succeeds e) (houtput : Outputs P)
    (hn : Text.isAllBlank s.envName = false)
    (hkey : isValidKey (Lifecycle.StateFile.stateKey s.envName) = true)
    (hr : r.version ≠ "") (htime : Timestamp.ofText? r.lastModified.text = some r.lastModified)
    (hobject : Finds P (Path.join root (Lifecycle.StateFile.stateKey s.envName)) content)
    (hrecord : Finds P (versionPath (Path.join root (Lifecycle.StateFile.stateKey s.envName)))
      r.encode) :
    ((inDirectory s scratch root).run ((inDirectory s scratch root).action.fetch false)).Achieves P
      fun u result => result.version = .ofStorage s.envName ⟨r.version, some r.lastModified⟩ ∧
        lastWritten (Lifecycle.StateFile.ofEnv s.envName scratch).localPath u = some content := by
  let file := Lifecycle.StateFile.ofEnv s.envName scratch
  have hv : Storage.ObjectVersion.isZero ⟨r.version, some r.lastModified⟩ = false := by
    rw [← Bool.not_eq_true, Storage.ObjectVersion.isZero, String.isEmpty_iff]
    exact hr
  refine (achieves_run (Lifecycle.Action.achieves_fetch_stored (f := file) content
    (provides_host hP) rfl hn hv ?_ ?_ ?_ ?_ false)).weaken fun u result h => ?_
  · intro reply h
    obtain ⟨_, _, rfl, -⟩ := h.of_yields (Engine.Terraform.achieves_initLocal hP)
    rfl
  · intro reply h
    obtain ⟨_, _, rfl, rfl⟩ := h.of_yields
      (Storage.LocalDirectory.achieves_version hkey htime hobject.found hrecord.read)
    rfl
  · intro reply h
    obtain ⟨_, _, rfl, rfl⟩ := h.of_yields
      (Storage.LocalDirectory.achieves_download hkey hr htime hrecord.read hobject.read)
    rfl
  · exact fun reply h => answered_output hP houtput h
  · obtain ⟨t, hbacked, hversion, t₁, line, reply, rfl⟩ := h
    refine ⟨hversion, ?_⟩
    -- After the copy is written, the fetch only reads the outputs.
    obtain ⟨u₁, _, -, hlast, rfl⟩ := hbacked.append
    obtain ⟨u₂, u₃, hcopy, hlast₁, rfl⟩ := Backed.cons_iff.1 hlast
    obtain rfl := Program.executes_one.1 hcopy
    refine lastWritten_write (unwritten_of_quiet _ hlast₁ ?_)
    simp [IsQuiet]

theorem achieves_stateContents
    (hcopy : Finds P (Lifecycle.StateFile.ofEnv s.envName scratch).localPath content) :
    ((inDirectory s scratch root).run (inDirectory s scratch root).action.stateContents).Achieves P
      fun _ document => document = content := by
  refine (achieves_run (Q := fun _ document => document = content) ?_).weaken fun _ _ h => ?_
  · refine Task.achieves_mapError (Task.achieves_mapError (Program.yields_one fun reply h => ?_))
    obtain ⟨v, hv, hexec⟩ := h
    obtain rfl := Program.executes_one.1 hexec
    obtain rfl := hcopy.read _ (hv _ (List.mem_singleton_self _))
    exact ⟨content, rfl, rfl⟩
  · obtain ⟨t, -, hdocument⟩ := h
    exact hdocument

end Fetch

end Provision.Pipeline.Prepared
