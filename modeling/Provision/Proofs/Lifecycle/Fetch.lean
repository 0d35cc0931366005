import Provision.Proofs.Host.Journal
import Provision.Proofs.Lifecycle.Conformance
import Provision.Proofs.Lifecycle.Steps

/-!
# What a fetch finds of an apply

An apply that went well ends with reading back: the serial of the state document, or the upload
of the local copy, gives the version, and only the outputs are read after that. A fetch that is
answered with the same document, or with the stored object, comes to the same version.
-/

namespace Provision.Lifecycle

open Provision.Program (yields_one)
open Provision.Task (Achieves achieves_bind achieves_lift achieves_mapError achieves_pure
  executes_bind_ok executes_lift_ok executes_mapError_ok executes_pure_ok)

variable {a : Action} {f : StateFile}

def Step.IsMute : Step → Prop
  | .host r => r.IsMute
  | _ => True

def Step.Spares : Step → Prop
  | .engine (.destroy _) => False
  | .engine (.deleteWorkspace _) => False
  | .storage (.delete _) => False
  | .host r => r.IsMute
  | _ => True

theorem Step.Spares.isMute {s : Step} (h : s.Spares) : s.IsMute := by
  cases s with
  | host r => exact h
  | _ => trivial

theorem Protocol.Leads.mute {p q : Phase} {t : Record} (h : Leads a p t q) :
    ∀ e ∈ t, e.op.IsMute := by
  refine h.preserves (I := fun t _ => ∀ e ∈ t, e.op.IsMute) ?_ ?_ []
    fun e he => absurd he List.not_mem_nil
  · intro u p line reply hu e he
    rcases List.mem_append.1 he with he | he
    · exact hu e he
    · obtain rfl := List.mem_singleton.1 he
      trivial
  · intro u p s after reply hs hu e he
    rcases List.mem_append.1 he with he | he
    · exact hu e he
    · obtain rfl := List.mem_singleton.1 he
      cases hs <;> trivial

namespace Action

theorem mute_apply {t : Record} {r : Except Error RunResult} (h : a.apply.run.Executes t r) :
    ∀ e ∈ t, e.op.IsMute := by
  cases hn : Text.isAllBlank a.envName with
  | true =>
    obtain ⟨rfl, -⟩ := apply_executes_of_blank hn h
    exact fun e he => absurd he List.not_mem_nil
  | false => exact (tracks_apply hn t r h).mute

theorem executes_readBack {t : Record} {result : RunResult}
    (h : a.readBack.run.Executes t (.ok result)) :
    ∃ t₁, a.recordVersion.run.Executes t₁ (.ok result.version) ∧
      t = t₁ ++
        [⟨.engine (.readOutput a.envName), (.ok result.output : Except Error Outputs)⟩] := by
  obtain ⟨t₁, _, version, hversion, h₁, rfl⟩ := executes_bind_ok.1 h
  obtain ⟨_, _, output, houtput, h₂, rfl⟩ := executes_bind_ok.1 h₁
  obtain ⟨rfl, rfl⟩ := executes_pure_ok.1 h₂
  obtain rfl := Program.executes_one.1 houtput
  exact ⟨t₁, hversion, rfl⟩

theorem executes_apply {t : Record} {result : RunResult}
    (h : a.apply.run.Executes t (.ok result)) :
    Text.isAllBlank a.envName = false ∧ ∃ t₁ t₂ line,
      a.readBack.run.Executes t₂ (.ok result) ∧
      t = t₁ ++ (t₂ ++ [⟨.host (.log line), ()⟩]) := by
  have hn : Text.isAllBlank a.envName = false := by
    cases hn : Text.isAllBlank a.envName with
    | false => rfl
    | true => cases (apply_executes_of_blank hn h).2
  refine ⟨hn, ?_⟩
  obtain ⟨t₁, _, _, -, h₁, rfl⟩ := executes_bind_ok.1 h
  obtain ⟨t₂, _, _, -, h₂, rfl⟩ := executes_bind_ok.1 h₁
  obtain ⟨t₃, _, _, -, h₃, rfl⟩ := executes_bind_ok.1 h₂
  obtain ⟨_, _, outcome, hattempt, h₄, rfl⟩ := executes_bind_ok.1 h₃
  -- A failed attempt is reported by throwing, whatever was done about it.
  cases outcome with
  | error failure =>
    obtain ⟨_, _, _, -, h₅, rfl⟩ := executes_bind_ok.1 h₄
    obtain ⟨_, _, _, -, h₆, rfl⟩ := executes_bind_ok.1 h₅
    cases (Task.executes_throw.1 h₆).2
  | ok r =>
    obtain ⟨_, _, _, hlog, h₅, rfl⟩ := executes_bind_ok.1 h₄
    obtain ⟨rfl, rfl⟩ := executes_pure_ok.1 h₅
    obtain rfl := Program.executes_one.1 (executes_lift_ok.1 hlog)
    have hrun := executes_lift_ok.1 hattempt
    obtain ⟨t₄, t₅, _, -, hread, rfl⟩ := executes_bind_ok.1 hrun
    refine ⟨t₁ ++ (t₂ ++ (t₃ ++ t₄)), t₅,
      ⟨.info, "Successfully ran terraform apply (" ++ result.version.display ++ ")"⟩,
      executes_mapError_ok.1 hread, ?_⟩
    simp only [List.append_assoc, List.append_nil]

theorem executes_currentSerial {t : Record} {n : Nat}
    (h : a.currentSerial.run.Executes t (.ok n)) :
    ∃ raw, parseSerial raw = .ok n ∧
      t = [⟨.engine (.pullState a.envName), (.ok raw : Except Error Bytes)⟩] := by
  obtain ⟨_, _, raw, hraw, h₁, rfl⟩ := executes_bind_ok.1 h
  obtain ⟨rfl, hn⟩ := Program.executes_done.1 h₁
  obtain rfl := Program.executes_one.1 hraw
  exact ⟨raw, hn.symm, rfl⟩

theorem executes_recordVersion_workspace {t : Record} {v : Version} (hb : a.backend = .workspace)
    (h : a.recordVersion.run.Executes t (.ok v)) :
    ∃ raw n, parseSerial raw = .ok n ∧ v = .ofSerial a.envName n ∧
      t = [⟨.engine (.pullState a.envName), (.ok raw : Except Error Bytes)⟩] := by
  simp only [recordVersion, hb] at h
  obtain ⟨_, _, n, hserial, h₁, rfl⟩ := executes_bind_ok.1 h
  obtain ⟨rfl, rfl⟩ := executes_pure_ok.1 h₁
  obtain ⟨raw, hn, rfl⟩ := executes_currentSerial hserial
  exact ⟨raw, n, hn, rfl, rfl⟩

theorem executes_recordVersion_stored {t : Record} {v : Version} (hb : a.backend = .stored f)
    (h : a.recordVersion.run.Executes t (.ok v)) :
    ∃ content stored line, v = .ofStorage a.envName stored ∧
      t = [⟨.host (.readFile f.localPath), (.ok content : Except Host.Fault Bytes)⟩,
        ⟨.storage (.upload f.key content),
          (.ok stored : Except Storage.Error Storage.ObjectVersion)⟩,
        ⟨.host (.log line), ()⟩] := by
  simp only [recordVersion, hb] at h
  obtain ⟨_, _, stored, hupload, h₁, rfl⟩ := executes_bind_ok.1 h
  obtain ⟨rfl, rfl⟩ := executes_pure_ok.1 h₁
  obtain ⟨_, _, content, hread, h₂, rfl⟩ := executes_bind_ok.1 (executes_mapError_ok.1 hupload)
  obtain ⟨_, _, _, hstore, h₃, rfl⟩ := executes_bind_ok.1 h₂
  obtain ⟨_, _, _, hlog, h₄, rfl⟩ := executes_bind_ok.1 h₃
  obtain ⟨rfl, rfl⟩ := executes_pure_ok.1 h₄
  obtain rfl := Program.executes_one.1 (executes_mapError_ok.1 hread)
  obtain rfl := Program.executes_one.1 hstore
  obtain rfl := Program.executes_one.1 (executes_lift_ok.1 hlog)
  exact ⟨content, _, _, rfl, rfl⟩

end Action

namespace Action

theorem mayApply_spares : a.MayApply Step.Spares where
  log _ := trivial
  pullState := trivial
  readOutput := trivial
  initBackend _ := trivial
  listWorkspaces _ := trivial
  initLocal _ _ := trivial
  probe _ _ := trivial
  download _ _ := trivial
  readCopy _ _ := trivial
  writeCopy _ _ _ := trivial
  makeParent _ _ _ _ := trivial
  apply := trivial
  listState := trivial
  adopt _ _ := trivial
  newWorkspace _ := trivial
  findCopy _ _ := trivial
  upload _ _ _ := trivial

theorem mute_fetch (planOnly : Bool) : (a.fetch planOnly).run.Only Step.IsMute :=
  (only_fetch mayApply_spares.toMayLook planOnly).mono fun _ => Step.Spares.isMute

end Action

def Provides (P : Event steps → Prop) : Prop :=
  ∀ (r : Host.Request) reply, P ⟨.host r, reply⟩ → Host.Succeeds ⟨r, reply⟩

section Fetch

variable {P : Event steps → Prop}

theorem achieves_log {ε : Type} (level : Host.Level) (message : String) :
    (Task.lift (log level message) : Task steps ε Unit).Achieves P fun t _ =>
      ∃ line, t = [⟨.host (.log line), ()⟩] :=
  achieves_lift (yields_one fun _ _ => ⟨_, rfl⟩)

namespace StateFile

variable {content : Bytes} {v : Storage.ObjectVersion}

theorem achieves_writeLocal (hP : Provides P) (content : Bytes) :
    (f.writeLocal content).Achieves P fun t _ => ∃ t₁, t = t₁ ++
      [⟨.host (.writeFile f.localPath content), (.ok () : Except Host.Fault Unit)⟩] := by
  have hwrite : (attempt (host (.writeFile f.localPath content)) fun fault =>
      "Failed to write state file to '" ++ f.localPath ++ "': " ++ fault.message).Achieves P
        fun t _ => t = [⟨.host (.writeFile f.localPath content),
          (.ok () : Except Host.Fault Unit)⟩] :=
    achieves_mapError (yields_one fun reply hreply => by
      obtain rfl : reply = .ok () := hP _ _ hreply
      exact ⟨(), rfl, rfl⟩)
  unfold writeLocal
  cases Host.Path.parent? f.localPath with
  | none => exact hwrite.weaken fun t _ ht => ⟨[], ht⟩
  | some directory =>
    refine achieves_bind (Q := fun _ _ => True) ?_ fun t _ _ =>
      hwrite.weaken fun u _ hu => ⟨t, by rw [hu]⟩
    exact achieves_mapError (yields_one fun reply hreply => by
      obtain rfl : reply = .ok () := hP _ _ hreply
      exact ⟨(), rfl, trivial⟩)

theorem achieves_download (hP : Provides P) (hv : v.isZero = false)
    (hprobe : ∀ reply, P ⟨.storage (.version f.key), reply⟩ → reply = .ok v)
    (hdownload : ∀ reply, P ⟨.storage (.download f.key), reply⟩ → reply = .ok (content, v)) :
    f.download.Achieves P fun t stored => stored = v ∧ ∃ t₁ line, t = t₁ ++
      [⟨.host (.writeFile f.localPath content), (.ok () : Except Host.Fault Unit)⟩,
        ⟨.host (.log line), ()⟩] := by
  refine achieves_bind (Q := fun _ probed => probed = v) (yields_one fun reply hreply =>
    ⟨v, hprobe reply hreply, rfl⟩) fun t₀ probed hprobed => ?_
  subst hprobed
  simp only [hv, Bool.false_eq_true, if_false]
  refine achieves_bind (Q := fun _ object => object = (content, probed))
    (yields_one fun reply hreply => ⟨_, hdownload reply hreply, rfl⟩) fun t₁ object hobject => ?_
  subst hobject
  refine achieves_bind (achieves_writeLocal hP content) fun t₂ _ ht₂ => ?_
  refine achieves_bind (achieves_log _ _) fun t₃ _ ht₃ => achieves_pure ⟨rfl, ?_⟩
  obtain ⟨t₄, rfl⟩ := ht₂
  obtain ⟨line, rfl⟩ := ht₃
  exact ⟨t₀ ++ (t₁ ++ t₄), line, by simp only [List.append_assoc, List.append_nil,
    List.cons_append, List.nil_append]⟩

end StateFile

namespace Action

theorem achieves_validate (hn : Text.isAllBlank a.envName = false) :
    a.validate.Achieves P fun _ _ => True := by
  simp only [validate, hn, Bool.false_eq_true, if_false]
  exact achieves_pure trivial

theorem achieves_fetch_workspace {n : Nat} (hb : a.backend = .workspace)
    (hn : Text.isAllBlank a.envName = false)
    (hinit : ∀ reply, P ⟨.engine (.initBackend a.envName), reply⟩ → reply = .ok ())
    (hlist : ∀ reply, P ⟨.engine .listWorkspaces, reply⟩ →
      ∃ names, reply = .ok names ∧ names.contains a.envName = true)
    (hpull : ∀ reply, P ⟨.engine (.pullState a.envName), reply⟩ →
      ∃ raw, reply = .ok raw ∧ parseSerial raw = .ok n)
    (houtput : ∀ reply, P ⟨.engine (.readOutput a.envName), reply⟩ → ∃ output, reply = .ok output)
    (planOnly : Bool) :
    (a.fetch planOnly).Achieves P fun _ result => result.version = .ofSerial a.envName n := by
  refine achieves_bind (achieves_validate hn) fun _ _ _ => ?_
  simp only [hb]
  refine achieves_bind (Q := fun _ _ => True) (yields_one fun reply hreply =>
    ⟨(), hinit reply hreply, trivial⟩) fun _ _ _ => ?_
  refine achieves_bind (Q := fun _ found => found = true) ?_ fun _ found hfound => ?_
  · refine achieves_bind (Q := fun _ names => names.contains a.envName = true)
      (yields_one fun reply hreply => hlist reply hreply) fun _ names hnames => ?_
    exact achieves_pure hnames
  · subst hfound
    refine achieves_bind (Q := fun _ serial => serial = n) ?_ fun _ serial hserial => ?_
    · refine achieves_bind (Q := fun _ raw => parseSerial raw = .ok n)
        (yields_one fun reply hreply => hpull reply hreply) fun _ raw hraw => ?_
      exact Program.yields_done ⟨n, hraw, rfl⟩
    · subst hserial
      refine achieves_bind (Q := fun _ _ => True) (yields_one fun reply hreply => ?_)
        fun _ output _ => achieves_pure rfl
      obtain ⟨output, houtput⟩ := houtput reply hreply
      exact ⟨output, houtput, trivial⟩

theorem achieves_fetch_stored (content : Bytes) {v : Storage.ObjectVersion} (hP : Provides P)
    (hb : a.backend = .stored f) (hn : Text.isAllBlank a.envName = false)
    (hv : v.isZero = false)
    (hinit : ∀ reply, P ⟨.engine .initLocal, reply⟩ → reply = .ok ())
    (hprobe : ∀ reply, P ⟨.storage (.version f.key), reply⟩ → reply = .ok v)
    (hdownload : ∀ reply, P ⟨.storage (.download f.key), reply⟩ → reply = .ok (content, v))
    (houtput : ∀ reply, P ⟨.engine (.readOutput a.envName), reply⟩ → ∃ output, reply = .ok output)
    (planOnly : Bool) :
    (a.fetch planOnly).Achieves P fun t result => result.version = .ofStorage a.envName v ∧
      ∃ t₁ line reply, t = t₁ ++
        [⟨.host (.writeFile f.localPath content), (.ok () : Except Host.Fault Unit)⟩,
          ⟨.host (.log line), ()⟩, ⟨.engine (.readOutput a.envName), reply⟩] := by
  refine achieves_bind (achieves_validate hn) fun t₁ _ _ => ?_
  simp only [hb]
  refine achieves_bind (Q := fun _ _ => True) (yields_one fun reply hreply =>
    ⟨(), hinit reply hreply, trivial⟩) fun t₂ _ _ => ?_
  refine achieves_bind (achieves_mapError (StateFile.achieves_download hP hv hprobe hdownload))
    fun t₃ stored hstored => ?_
  obtain ⟨rfl, t₄, line, rfl⟩ := hstored
  simp only [hv, Bool.false_eq_true, if_false]
  refine achieves_bind
    (Q := fun (t : Record) _ => ∃ reply, t = [⟨.engine (.readOutput a.envName), reply⟩])
    (yields_one fun reply hreply => ?_) fun t₅ output ht₅ => achieves_pure ⟨rfl, ?_⟩
  · obtain ⟨output, houtput⟩ := houtput reply hreply
    exact ⟨output, houtput, reply, rfl⟩
  · obtain ⟨reply, rfl⟩ := ht₅
    exact ⟨t₁ ++ (t₂ ++ t₄), line, reply, by simp only [List.append_assoc, List.append_nil,
      List.cons_append, List.nil_append]⟩

end Action

end Fetch

end Provision.Lifecycle
