import Provision.Proofs.Lifecycle.Finding
import Provision.Proofs.Version.Wire

/-!
# Results of runs

What a fetch that went well can answer with: the plan of an environment that is not there, if a
plan was asked for, or the version and the outputs that were just read of one that is. The
versions that runs answer with are all of the kinds that can be written and read again, as long
as the store tells times in the calendar.
-/

namespace Provision

theorem Version.token_ofStorage {envName : String} (v : Storage.ObjectVersion) :
    (ofStorage envName v).storageVersion ≠ some "" := by
  unfold ofStorage
  split
  · exact nofun
  · next hzero =>
    intro h
    exact hzero (String.isEmpty_iff.2 (Option.some.inj h))

def Storage.ObjectVersion.Dated (v : ObjectVersion) : Prop :=
  ∀ time, v.lastModified = some time → time.Valid

namespace Lifecycle

open Provision.Task (executes_bind_ok executes_mapError_ok executes_pure_ok)

variable {a : Action} {f : StateFile} {t u : Record} {planOnly : Bool} {result : RunResult}

theorem StateFile.mem_download {v : Storage.ObjectVersion} (hv : v.isZero = false)
    (h : (fromStorage f.download).run.Executes t (.ok v)) :
    (∃ probed : Storage.ObjectVersion, probed.isZero = false ∧
      ⟨.storage (.version f.key),
        (.ok probed : Except Storage.Error Storage.ObjectVersion)⟩ ∈ t) ∧
    ∃ content : Bytes, ⟨.storage (.download f.key),
      (.ok (content, v) : Except Storage.Error (Bytes × Storage.ObjectVersion))⟩ ∈ t := by
  have hbind := StateFile.download_bind (f := f) (pure : Storage.ObjectVersion → RunTask _)
  rw [bind_pure] at hbind
  rw [hbind] at h
  obtain ⟨t₁, t₂, probed, hprobe, h₁, rfl⟩ := executes_bind_ok.1 h
  obtain rfl := Program.executes_one.1 (executes_mapError_ok.1 hprobe)
  cases hprobed : probed.isZero with
  | true =>
    simp only [hprobed, if_true] at h₁
    obtain ⟨_, _, _, -, h₂, -⟩ := executes_bind_ok.1 h₁
    obtain ⟨-, rfl⟩ := executes_pure_ok.1 h₂
    rw [hv] at hprobed
    cases hprobed
  | false =>
    simp only [hprobed, Bool.false_eq_true, if_false, bind_pure] at h₁
    obtain ⟨content, hmem⟩ := StateFile.executes_retrieve h₁
    exact ⟨⟨probed, hprobed, by simp⟩, content, List.mem_append_right _ hmem⟩

/-- How a fetch can end well. -/
inductive Fetched (a : Action) (planOnly : Bool) (t : Record) : RunResult → Prop where
  | planned (hplan : planOnly = true) : Fetched a planOnly t ⟨.plan a.envName, {}⟩
  | told {result : RunResult} (hfound : a.Found t) (htells : Tells a t result)
      (htoken : result.version.storageVersion ≠ some "") : Fetched a planOnly t result

theorem planned_of_missingState {text : String} (u : Record)
    (h : (a.missingState planOnly text).run.Executes t (.ok result)) :
    Fetched a planOnly u result := by
  have hnothing := (Action.executes_missingState h).2
  cases planOnly with
  | false =>
    obtain ⟨_, heq⟩ := hnothing
    cases heq
  | true =>
    cases hnothing
    exact .planned rfl

theorem fetched_of_workspace (hb : a.backend = .workspace)
    (h : (a.fetch planOnly).run.Executes t (.ok result)) : Fetched a planOnly t result := by
  obtain ⟨t₁, _, _, -, h₁, rfl⟩ := executes_bind_ok.1 h
  rw [hb] at h₁
  obtain ⟨t₂, _, _, -, h₂, rfl⟩ := executes_bind_ok.1 h₁
  obtain ⟨t₃, t₄, found, hfound, h₃, rfl⟩ := executes_bind_ok.1 h₂
  cases found with
  | false => exact planned_of_missingState _ h₃
  | true =>
    have htells : Tells a t₄ result := tells_readSerial hb h₃
    have htoken : result.version.storageVersion ≠ some "" := by
      have hversion := htells.version
      rw [hb] at hversion
      obtain ⟨_, _, -, hv, -⟩ := hversion
      rw [hv]
      exact nofun
    obtain ⟨reply, rfl, heq⟩ := Action.executes_workspaceExists hfound
    cases reply with
    | error e => cases heq
    | ok names =>
      refine .told ?_ (htells.mono fun e he => by simp [he]) htoken
      rw [Action.Found, hb]
      exact ⟨names, List.contains_iff_mem.1 (Except.ok.inj heq).symm, by simp⟩

theorem fetched_of_stored (hb : a.backend = .stored f)
    (h : (a.fetch planOnly).run.Executes t (.ok result)) : Fetched a planOnly t result := by
  obtain ⟨t₁, _, _, -, h₁, rfl⟩ := executes_bind_ok.1 h
  rw [hb] at h₁
  obtain ⟨t₂, _, _, -, h₂, rfl⟩ := executes_bind_ok.1 h₁
  obtain ⟨t₃, t₄, v, hdownload, h₃, rfl⟩ := executes_bind_ok.1 h₂
  have hread : (a.readStored f planOnly v).run.Executes t₄ (.ok result) := h₃
  cases hzero : v.isZero with
  | true =>
    simp only [Action.readStored, hzero, if_true] at hread
    exact planned_of_missingState _ hread
  | false =>
    obtain ⟨⟨probed, hprobed, hprobe⟩, content, hcontent⟩ :=
      StateFile.mem_download hzero hdownload
    have htells := (tells_readStored hb hzero hcontent hread).1 result rfl
    refine .told ?_ (htells.mono fun e he => by simp [List.mem_append.1 he]) ?_
    · rw [Action.Found, hb]
      exact ⟨probed, hprobed, by simp [hprobe]⟩
    · simp only [Action.readStored, hzero, Bool.false_eq_true, if_false] at hread
      obtain ⟨_, _, _, -, h₄, -⟩ := executes_bind_ok.1 hread
      obtain ⟨-, rfl⟩ := executes_pure_ok.1 h₄
      exact Version.token_ofStorage v

theorem Action.fetched (h : (a.fetch planOnly).run.Executes t (.ok result)) :
    Fetched a planOnly t result := by
  cases hb : a.backend with
  | workspace => exact fetched_of_workspace hb h
  | stored f => exact fetched_of_stored hb h

structure Dated (t : Record) : Prop where
  uploads : ∀ (key : String) (content : Bytes) (v : Storage.ObjectVersion),
    ⟨.storage (.upload key content),
      (.ok v : Except Storage.Error Storage.ObjectVersion)⟩ ∈ t → v.Dated
  downloads : ∀ (key : String) (content : Bytes) (v : Storage.ObjectVersion),
    ⟨.storage (.download key),
      (.ok (content, v) : Except Storage.Error (Bytes × Storage.ObjectVersion))⟩ ∈ t → v.Dated

theorem writable_of_fetched (ht : Dated t) (h : Fetched a planOnly t result) :
    result.version.Writable := by
  cases h with
  | planned _ => exact (Version.Built.plan _).writable
  | told _ htells htoken =>
    have hversion := htells.version
    cases hb : a.backend with
    | workspace =>
      rw [hb] at hversion
      obtain ⟨_, n, hn, hv, -⟩ := hversion
      rw [hv]
      exact Version.writable_ofSerial (parseSerial_lt (parseSerial_eq_ok.2 hn))
    | stored f =>
      rw [hb] at hversion
      obtain ⟨content, v, hv, hmem⟩ := hversion
      rw [hv] at htoken ⊢
      exact ⟨nofun, htoken, fun time htime =>
        Timestamp.ofText?_text (ht.downloads _ _ _ hmem time htime)⟩

theorem writable_of_apply (ht : Dated t) (h : a.apply.run.Executes t (.ok result)) :
    result.version.Writable := by
  obtain ⟨-, t₁, t₂, line, hread, rfl⟩ := Action.executes_apply h
  obtain ⟨t₃, hversion, rfl⟩ := Action.executes_readBack hread
  cases hb : a.backend with
  | workspace =>
    obtain ⟨raw, n, hn, hv, -⟩ := Action.executes_recordVersion_workspace hb hversion
    rw [hv]
    exact Version.writable_ofSerial (parseSerial_lt hn)
  | stored f =>
    obtain ⟨content, v, _, hv, rfl⟩ := Action.executes_recordVersion_stored hb hversion
    rw [hv]
    exact Version.writable_ofStorage fun time htime =>
      Timestamp.ofText?_text (ht.uploads f.key content v (by simp) time htime)

theorem empty_of_destroy (h : a.destroy.run.Executes t (.ok result)) :
    result = ⟨.empty a.envName, {}⟩ := by
  obtain ⟨_, _, _, -, h₁, -⟩ := executes_bind_ok.1 h
  obtain ⟨_, _, _, -, h₂, -⟩ := executes_bind_ok.1 h₁
  obtain ⟨_, _, found, -, h₃, -⟩ := executes_bind_ok.1 h₂
  cases found with
  | false =>
    obtain ⟨_, _, _, -, h₄, -⟩ := executes_bind_ok.1 h₃
    exact (executes_pure_ok.1 h₄).2
  | true =>
    obtain ⟨_, _, dropped, hattempt, h₄, -⟩ := executes_bind_ok.1 h₃
    obtain ⟨_, _, _, -, h₅, -⟩ := executes_bind_ok.1 h₄
    obtain ⟨-, rfl⟩ := executes_pure_ok.1 h₅
    obtain ⟨_, _, _, -, h₆, -⟩ := executes_bind_ok.1 hattempt
    obtain ⟨_, _, _, -, h₇, -⟩ := executes_bind_ok.1 h₆
    exact (executes_pure_ok.1 h₇).2

end Lifecycle

end Provision
