import Provision.Proofs.Lifecycle.Idempotence
import Provision.Proofs.Lifecycle.Serial

/-!
# Missing and present environments

A fetch finds out first whether there is the environment: its name is listed, or the probe of its
object has a version. A missing environment is told in the same way in both modes, and nothing is
read of it. Of a present one the version and the outputs are those that were read. All errors but
that of a missing environment are errors of the last step.
-/

namespace Provision.Lifecycle

open Provision.Task (executes_bind_ok executes_lift_ok executes_mapError_ok executes_pure_ok
  fails_bind fails_lift fails_mapError fails_one fails_pure only_bind only_lift only_mapError
  only_pure)

variable {a : Action} {f : StateFile} {t u : Record} {e : Error} {planOnly : Bool}
  {result : RunResult} {r : Except Error RunResult}

/-- The last step failed with the error: its own, or that of a state document without a serial. -/
def StoppedBy (t : Record) (e : Error) : Prop :=
  ∃ t₀ last, t = t₀ ++ [last] ∧ Record.failure? last = some e ∧
    ∀ env (raw : Bytes), last = ⟨.engine (.pullState env), (.ok raw : Except Error Bytes)⟩ →
      ∃ text, e = .malformedState text

theorem stoppedBy_of_failure {last : Event steps} (h : Record.failure? last = some e) :
    StoppedBy [last] e := by
  refine ⟨[], last, rfl, h, ?_⟩
  rintro env raw rfl
  exact malformed_of_parseSerial (eq_error h)

theorem StoppedBy.after (h : StoppedBy u e) : StoppedBy (t ++ u) e := by
  obtain ⟨u₀, last, rfl, hlast⟩ := h
  exact ⟨t ++ u₀, last, (List.append_assoc _ _ _).symm, hlast⟩

theorem stops_bind {α β : Type} {x : RunTask α} {g : α → RunTask β} (hx : x.Fails StoppedBy)
    (hg : ∀ y, (g y).Fails StoppedBy) : (x >>= g).Fails StoppedBy :=
  fails_bind hx fun _ y _ => (hg y).mono fun _ _ h => h.after

theorem stops_step {α : Type} {s : Step} {next : s.Reply → Except Error α}
    (h : ∀ reply e, next reply = .error e → Record.failure? ⟨s, reply⟩ = some e) :
    (Task.ofProgram (Program.step (S := steps) s fun reply => .done (next reply))).Fails
      StoppedBy :=
  fails_one fun reply e he => stoppedBy_of_failure (h reply e he)

namespace StateFile

theorem stops_makeDirectories (directory : String) :
    (fromStorage (attempt (host (.makeDirectories directory)) fun fault => fault.message)).Fails
      StoppedBy :=
  fails_mapError (fails_mapError (fails_one fun _ _ hfault =>
    stoppedBy_of_failure (by cases hfault; rfl)))

theorem stops_writeFile (content : Bytes) :
    (fromStorage (attempt (host (.writeFile f.localPath content)) fun fault =>
      "Failed to write state file to '" ++ f.localPath ++ "': " ++ fault.message)).Fails
      StoppedBy :=
  fails_mapError (fails_mapError (fails_one fun _ _ hfault =>
    stoppedBy_of_failure (by cases hfault; rfl)))

theorem stops_writeLocal (content : Bytes) :
    (fromStorage (f.writeLocal content)).Fails StoppedBy := by
  unfold writeLocal
  split
  · rw [fromStorage_bind]
    exact stops_bind (stops_makeDirectories _) fun _ => stops_writeFile content
  · exact stops_writeFile content

def retrieve (f : StateFile) : StorageTask Storage.ObjectVersion := do
  let (content, version) ←
    Task.ofProgram (Program.perform (S := steps) (.storage (.download f.key)))
  f.writeLocal content
  Task.lift (log .info
    ("Downloaded state '" ++ f.key ++ "' (version " ++ version.display ++ ")"))
  return version

theorem stops_retrieve : (fromStorage f.retrieve).Fails StoppedBy := by
  simp only [retrieve, fromStorage_bind]
  refine stops_bind (fails_mapError (fails_one fun reply e he => stoppedBy_of_failure ?_))
    fun _ => stops_bind (stops_writeLocal _) fun _ =>
      stops_bind (fails_mapError fails_lift) fun _ => fails_pure
  cases he
  rfl

end StateFile

def Action.seen? (a : Action) : Event steps → Option Bool
  | ⟨.engine .listWorkspaces, .ok names⟩ =>
    match a.backend with
    | .workspace => some (names.contains a.envName)
    | .stored _ => none
  | ⟨.storage (.version key), .ok v⟩ =>
    match a.backend with
    | .workspace => none
    | .stored f => if key = f.key then some !v.isZero else none
  | _ => none

def Step.ReadsState : Step → Prop
  | .engine (.pullState _) => True
  | .engine (.readOutput _) => True
  | .storage (.download _) => True
  | _ => False

/-- The environment is not there: it was not listed, or the probe of its object found none. -/
def Action.Missed (a : Action) (t : Record) : Prop :=
  match a.backend with
  | .workspace => ∃ names : List String, a.envName ∉ names ∧
      ⟨.engine .listWorkspaces, (.ok names : Except Error (List String))⟩ ∈ t
  | .stored f => ∃ v : Storage.ObjectVersion, v.isZero = true ∧
      ⟨.storage (.version f.key), (.ok v : Except Storage.Error Storage.ObjectVersion)⟩ ∈ t

section Seen

variable {found : Bool} {ev : Event steps}

theorem seen?_workspace (hb : a.backend = .workspace) : a.seen? ev = some found ↔
    ∃ names : List String, ev = ⟨.engine .listWorkspaces,
      (.ok names : Except Error (List String))⟩ ∧ names.contains a.envName = found := by
  constructor
  · intro h
    unfold Action.seen? at h
    split at h
    · next names =>
      rw [hb] at h
      exact ⟨names, rfl, Option.some.inj h⟩
    · rw [hb] at h
      cases h
    · cases h
  · rintro ⟨names, rfl, rfl⟩
    simp only [Action.seen?, hb]

theorem seen?_stored (hb : a.backend = .stored f) : a.seen? ev = some found ↔
    ∃ v : Storage.ObjectVersion, ev = ⟨.storage (.version f.key),
      (.ok v : Except Storage.Error Storage.ObjectVersion)⟩ ∧ v.isZero = !found := by
  constructor
  · intro h
    unfold Action.seen? at h
    split at h
    · rw [hb] at h
      cases h
    · next key v =>
      rw [hb] at h
      dsimp only at h
      split at h
      · next hkey =>
        subst hkey
        exact ⟨v, rfl, by rw [← Option.some.inj h, Bool.not_not]⟩
      · cases h
    · cases h
  · rintro ⟨v, rfl, hv⟩
    simp only [Action.seen?, hb, if_true, hv, Bool.not_not]

theorem missed_iff : a.Missed t ↔ false ∈ t.filterMap a.seen? := by
  rw [List.mem_filterMap, Action.Missed]
  cases hb : a.backend with
  | workspace =>
    constructor
    · rintro ⟨names, hname, hmem⟩
      exact ⟨_, hmem, (seen?_workspace hb).2
        ⟨names, rfl, Bool.eq_false_iff.2 fun h => hname (List.contains_iff_mem.1 h)⟩⟩
    · rintro ⟨ev, hmem, hseen⟩
      obtain ⟨names, rfl, hname⟩ := (seen?_workspace hb).1 hseen
      exact ⟨names, fun h => Bool.eq_false_iff.1 hname (List.contains_iff_mem.2 h), hmem⟩
  | stored f =>
    constructor
    · rintro ⟨v, hv, hmem⟩
      exact ⟨_, hmem, (seen?_stored hb).2 ⟨v, rfl, hv⟩⟩
    · rintro ⟨ev, hmem, hseen⟩
      obtain ⟨v, rfl, hv⟩ := (seen?_stored hb).1 hseen
      exact ⟨v, hv, hmem⟩

theorem found_iff : a.Found t ↔ true ∈ t.filterMap a.seen? := by
  rw [List.mem_filterMap, Action.Found]
  cases hb : a.backend with
  | workspace =>
    constructor
    · rintro ⟨names, hname, hmem⟩
      exact ⟨_, hmem, (seen?_workspace hb).2 ⟨names, rfl, List.contains_iff_mem.2 hname⟩⟩
    · rintro ⟨ev, hmem, hseen⟩
      obtain ⟨names, rfl, hname⟩ := (seen?_workspace hb).1 hseen
      exact ⟨names, List.contains_iff_mem.1 hname, hmem⟩
  | stored f =>
    constructor
    · rintro ⟨v, hv, hmem⟩
      exact ⟨_, hmem, (seen?_stored hb).2 ⟨v, rfl, hv⟩⟩
    · rintro ⟨ev, hmem, hseen⟩
      obtain ⟨v, rfl, hv⟩ := (seen?_stored hb).1 hseen
      exact ⟨v, hv, hmem⟩

end Seen

def Step.IsBlind : Step → Prop
  | .engine .listWorkspaces => False
  | .storage (.version _) => False
  | _ => True

theorem seen?_of_blind {e : Event steps} (h : e.op.IsBlind) : a.seen? e = none := by
  obtain ⟨op, reply⟩ := e
  cases op with
  | engine c =>
    cases c with
    | listWorkspaces => exact h.elim
    | _ => rfl
  | storage c =>
    cases c with
    | version key => exact h.elim
    | _ => rfl
  | host r => rfl

theorem seen_of_blind (h : ∀ e ∈ t, e.op.IsBlind) : t.filterMap a.seen? = [] :=
  List.filterMap_eq_nil_iff.2 fun e he => seen?_of_blind (h e he)

/-- The version and the outputs are those that were read, and the version is that of a state. -/
structure Tells (a : Action) (t : Record) (result : RunResult) : Prop where
  version : match a.backend with
    | .workspace => ∃ raw n, Shows raw n ∧ result.version = .ofSerial a.envName n ∧
        ⟨.engine (.pullState a.envName), (.ok raw : Except Error Bytes)⟩ ∈ t
    | .stored f => ∃ (content : Bytes) (v : Storage.ObjectVersion),
        result.version = ⟨a.envName, none, some v.token, v.lastModified, false⟩ ∧
        ⟨.storage (.download f.key),
          (.ok (content, v) : Except Storage.Error (Bytes × Storage.ObjectVersion))⟩ ∈ t
  output :
    ⟨.engine (.readOutput a.envName), (.ok result.output : Except Error Outputs)⟩ ∈ t

theorem Tells.mono (h : Tells a t result) (hsub : t ⊆ u) : Tells a u result where
  version := by
    have hversion := h.version
    cases hb : a.backend with
    | workspace =>
      rw [hb] at hversion
      obtain ⟨raw, n, hn, hv, hmem⟩ := hversion
      exact ⟨raw, n, hn, hv, hsub hmem⟩
    | stored f =>
      rw [hb] at hversion
      obtain ⟨content, v, hv, hmem⟩ := hversion
      exact ⟨content, v, hv, hsub hmem⟩
  output := hsub h.output

theorem Tells.identifies (h : Tells a t result) : result.version.isZero = false ∧
    result.version.planOnly = false ∧ result.version.mode = some a.mode := by
  have hversion := h.version
  unfold Action.mode
  cases hb : a.backend with
  | workspace =>
    rw [hb] at hversion
    obtain ⟨_, n, -, hv, -⟩ := hversion
    rw [hv]
    exact ⟨rfl, rfl, rfl⟩
  | stored f =>
    rw [hb] at hversion
    obtain ⟨_, v, hv, -⟩ := hversion
    rw [hv]
    exact ⟨rfl, rfl, rfl⟩

/-- The driver gives a version to what it downloads, if its probe has found one. -/
def DownloadsVersions (t : Record) : Prop :=
  ∀ key (probed v : Storage.ObjectVersion) (content : Bytes), probed.isZero = false →
    ⟨.storage (.version key), (.ok probed : Except Storage.Error Storage.ObjectVersion)⟩ ∈ t →
    ⟨.storage (.download key),
      (.ok (content, v) : Except Storage.Error (Bytes × Storage.ObjectVersion))⟩ ∈ t →
    v.isZero = false

theorem DownloadsVersions.mono (h : DownloadsVersions u) (hsub : t ⊆ u) : DownloadsVersions t :=
  fun key v w content hv hprobe hdownload => h key v w content hv (hsub hprobe) (hsub hdownload)

/-- How a part of a fetch can go, by what it sees of the environment. -/
inductive Course (a : Action) (planOnly : Bool) : Record → Except Error RunResult → Prop where
  | stopped {t : Record} {e : Error} (hseen : t.filterMap a.seen? = []) (h : StoppedBy t e) :
      Course a planOnly t (.error e)
  | missing {t : Record} {r : Except Error RunResult} (hseen : t.filterMap a.seen? = [false])
      (hreads : ∀ e ∈ t, ¬ e.op.ReadsState) (h : (Visit.fetch planOnly).FindsNothing a r) :
      Course a planOnly t r
  | present {t : Record} {r : Except Error RunResult} (hseen : t.filterMap a.seen? = [true])
      (h : DownloadsVersions t → (∀ result, r = .ok result → Tells a t result) ∧
        ∀ e, r = .error e → StoppedBy t e) : Course a planOnly t r

theorem seen_append_blind (ht : ∀ e ∈ t, e.op.IsBlind) :
    (t ++ u).filterMap a.seen? = u.filterMap a.seen? := by
  rw [List.filterMap_append, seen_of_blind ht, List.nil_append]

theorem Course.after (ht : ∀ e ∈ t, e.op.IsBlind ∧ ¬ e.op.ReadsState)
    (h : Course a planOnly u r) : Course a planOnly (t ++ u) r := by
  have hblind : ∀ e ∈ t, e.op.IsBlind := fun e he => (ht e he).1
  cases h with
  | stopped hseen h => exact .stopped ((seen_append_blind hblind).trans hseen) h.after
  | missing hseen hreads h =>
    refine .missing ((seen_append_blind hblind).trans hseen) (fun e he => ?_) h
    exact (List.mem_append.1 he).elim (fun he => (ht e he).2) (hreads e)
  | present hseen h =>
    refine .present ((seen_append_blind hblind).trans hseen) fun hversions => ?_
    obtain ⟨htells, hstops⟩ := h (hversions.mono (List.subset_append_right _ _))
    exact ⟨fun result hr => (htells result hr).mono (List.subset_append_right _ _),
      fun e he => (hstops e he).after⟩

theorem log_is_blind {e : Event steps} (h : Record.IsLog e) :
    e.op.IsBlind ∧ ¬ e.op.ReadsState := by
  obtain ⟨op, reply⟩ := e
  cases op with
  | engine c => exact h.elim
  | storage c => exact h.elim
  | host r => exact ⟨trivial, id⟩

theorem Action.executes_missingState {text : String}
    (h : (a.missingState planOnly text).run.Executes t r) :
    (∀ e ∈ t, Record.IsLog e) ∧ (Visit.fetch planOnly).FindsNothing a r := by
  cases planOnly with
  | true =>
    rcases Task.executes_bind.1 h with ⟨e, he, -⟩ | ⟨t₁, t₂, _, hlog, hdone, rfl⟩
    · obtain ⟨_, -, heq⟩ := Task.executes_lift.1 he
      cases heq
    · obtain ⟨rfl, rfl⟩ := Task.executes_pure.1 hdone
      obtain rfl := Program.executes_one.1 (executes_lift_ok.1 hlog)
      exact ⟨fun e he => by obtain rfl := List.mem_singleton.1 he; trivial, rfl⟩
  | false =>
    obtain ⟨rfl, rfl⟩ := Task.executes_throw.1 h
    exact ⟨fun _ he => absurd he List.not_mem_nil, _, rfl⟩

theorem course_missing {e : Event steps} (he : a.seen? e = some false) (hreads : ¬ e.op.ReadsState)
    (ht : ∀ e ∈ t, Record.IsLog e) (h : (Visit.fetch planOnly).FindsNothing a r) :
    Course a planOnly (e :: t) r := by
  refine .missing ?_ (fun e' he' => ?_) h
  · rw [List.filterMap_cons_some he, seen_of_blind fun e he => (log_is_blind (ht e he)).1]
  · rcases List.mem_cons.1 he' with rfl | he'
    · exact hreads
    · exact (log_is_blind (ht e' he')).2

section Workspace

variable (hb : a.backend = .workspace)

theorem Action.executes_workspaceExists {found : Except Error Bool}
    (h : a.workspaceExists.run.Executes t found) :
    ∃ reply : Except Error (List String), t = [⟨.engine .listWorkspaces, reply⟩] ∧
      match reply with
      | .error e => found = .error e
      | .ok names => found = .ok (names.contains a.envName) := by
  rcases Task.executes_bind.1 h with ⟨e, he, rfl⟩ | ⟨t₁, t₂, names, hlist, hdone, rfl⟩
  · exact ⟨.error e, Program.executes_one.1 he, rfl⟩
  · obtain ⟨rfl, rfl⟩ := Task.executes_pure.1 hdone
    exact ⟨.ok names, by rw [Program.executes_one.1 hlist, List.append_nil], rfl⟩

def Action.readSerial (a : Action) : RunTask RunResult := do
  let serial ← a.currentSerial
  let output ← Task.ofProgram (call (.readOutput a.envName))
  return ⟨.ofSerial a.envName serial, output⟩

theorem stops_readOutput :
    (Task.ofProgram (Action.call (.readOutput a.envName))).Fails StoppedBy :=
  stops_step fun _ _ he => by cases he; rfl

theorem stops_readSerial : a.readSerial.Fails StoppedBy := by
  refine stops_bind ?_ fun _ => stops_bind stops_readOutput fun _ => fails_pure
  refine fails_bind (stops_step fun _ _ he => by cases he; rfl) fun t raw hraw u e he => ?_
  -- A document without a serial makes the pull the step to blame.
  obtain ⟨rfl, heq⟩ := Program.executes_done.1 he
  obtain rfl := Program.executes_one.1 hraw
  refine stoppedBy_of_failure ?_
  change errorOf (parseSerial raw) = some e
  rw [← heq]
  rfl

include hb in
theorem tells_readSerial (h : a.readSerial.run.Executes t (.ok result)) : Tells a t result := by
  obtain ⟨_, _, n, hserial, h₁, rfl⟩ := executes_bind_ok.1 h
  obtain ⟨_, _, output, houtput, h₂, rfl⟩ := executes_bind_ok.1 h₁
  obtain ⟨rfl, rfl⟩ := executes_pure_ok.1 h₂
  obtain ⟨raw, hn, rfl⟩ := Action.executes_currentSerial hserial
  obtain rfl := Program.executes_one.1 houtput
  refine ⟨?_, by simp⟩
  rw [hb]
  exact ⟨raw, n, parseSerial_eq_ok.1 hn, rfl, by simp⟩

theorem blind_readSerial : a.readSerial.run.Only Step.IsBlind :=
  only_bind (only_bind ⟨trivial, fun _ => trivial⟩ fun _ => trivial) fun _ =>
    only_bind ⟨trivial, fun _ => trivial⟩ fun _ => only_pure

include hb in
theorem course_workspace (h : (do
      Task.ofProgram (Action.call (.initBackend a.envName))
      if ← a.workspaceExists then a.readSerial
      else a.missingState planOnly ("Workspace '" ++ a.envName ++ "' does not exist in backend.")
        : RunTask RunResult).run.Executes t r) : Course a planOnly t r := by
  rcases Task.executes_bind.1 h with ⟨e, he, rfl⟩ | ⟨t₁, t₂, _, hinit, h₁, rfl⟩
  · obtain rfl := Program.executes_one.1 he
    exact .stopped rfl (stoppedBy_of_failure rfl)
  obtain rfl := Program.executes_one.1 hinit
  refine .after (fun e he => by obtain rfl := List.mem_singleton.1 he; exact ⟨trivial, id⟩) ?_
  rcases Task.executes_bind.1 h₁ with ⟨e, he, rfl⟩ | ⟨t₃, t₄, found, hlist, h₂, rfl⟩
  · obtain ⟨reply, rfl, heq⟩ := Action.executes_workspaceExists he
    cases reply with
    | ok names => cases heq
    | error e' =>
      cases heq
      exact .stopped rfl (stoppedBy_of_failure rfl)
  obtain ⟨reply, rfl, heq⟩ := Action.executes_workspaceExists hlist
  cases reply with
  | error e' => cases heq
  | ok names =>
    obtain rfl := Except.ok.inj heq
    have hseen := (seen?_workspace hb).2 ⟨names, rfl, rfl⟩
    cases hfound : names.contains a.envName with
    | false =>
      rw [hfound] at h₂ hseen
      obtain ⟨hlogs, hnothing⟩ := Action.executes_missingState h₂
      exact course_missing hseen id hlogs hnothing
    | true =>
      rw [hfound] at h₂ hseen
      refine .present ?_ fun _ => ⟨fun result hr => ?_, fun e he => ?_⟩
      · rw [List.singleton_append, List.filterMap_cons_some hseen,
          seen_of_blind (blind_readSerial.executes h₂)]
      · subst hr
        exact (tells_readSerial hb h₂).mono (List.subset_append_right _ _)
      · subst he
        exact (stops_readSerial _ _ h₂).after

end Workspace

namespace StateFile

theorem download_bind {α : Type} (g : Storage.ObjectVersion → RunTask α) :
    fromStorage f.download >>= g = fromStorage f.remoteVersion >>= fun probed =>
      if probed.isZero then do
        fromStorage (Task.lift (log .debug ("No remote state at '" ++ f.key ++ "'")))
        g probed
      else fromStorage f.retrieve >>= g := by
  rw [download, fromStorage_bind, bind_assoc]
  refine bind_congr fun probed => ?_
  split
  · rw [fromStorage_bind, bind_assoc]
    rfl
  · rfl

theorem blind_retrieve : f.retrieve.run.Only Step.IsBlind := by
  have hwrite (content : Bytes) : (attempt (host (.writeFile f.localPath content)) fun fault =>
      "Failed to write state file to '" ++ f.localPath ++ "': " ++ fault.message).run.Only
        Step.IsBlind :=
    only_mapError ⟨trivial, fun _ => trivial⟩
  refine only_bind ⟨trivial, fun _ => trivial⟩ fun object => only_bind ?_ fun _ =>
    only_bind (only_lift ⟨trivial, fun _ => trivial⟩) fun _ => only_pure
  unfold writeLocal
  split
  · exact only_bind (only_mapError ⟨trivial, fun _ => trivial⟩) fun _ => hwrite _
  · exact hwrite _

theorem executes_retrieve {v : Storage.ObjectVersion}
    (h : (fromStorage f.retrieve).run.Executes t (.ok v)) :
    ∃ content : Bytes, ⟨.storage (.download f.key),
      (.ok (content, v) : Except Storage.Error (Bytes × Storage.ObjectVersion))⟩ ∈ t := by
  obtain ⟨_, _, ⟨content, v⟩, hdownload, h₁, rfl⟩ :=
    executes_bind_ok.1 (executes_mapError_ok.1 h)
  obtain ⟨_, _, _, -, h₂, rfl⟩ := executes_bind_ok.1 h₁
  obtain ⟨_, _, _, -, h₃, rfl⟩ := executes_bind_ok.1 h₂
  obtain ⟨-, rfl⟩ := executes_pure_ok.1 h₃
  obtain rfl := Program.executes_one.1 hdownload
  exact ⟨content, by simp⟩

end StateFile

section Stored

variable (hb : a.backend = .stored f)

def Action.readStored (a : Action) (f : StateFile) (planOnly : Bool)
    (version : Storage.ObjectVersion) : RunTask RunResult :=
  if version.isZero then
    a.missingState planOnly ("State file does not exist with key '" ++ f.key ++ "'.")
  else do
    let output ← Task.ofProgram (call (.readOutput a.envName))
    return ⟨.ofStorage a.envName version, output⟩

theorem blind_readStored {v : Storage.ObjectVersion}
    (h : (a.readStored f planOnly v).run.Executes t r) : ∀ e ∈ t, e.op.IsBlind := by
  unfold Action.readStored at h
  split at h
  · exact fun e he => (log_is_blind ((Action.executes_missingState h).1 e he)).1
  · have hread : (do
        let output ← Task.ofProgram (Action.call (.readOutput a.envName))
        return ⟨.ofStorage a.envName v, output⟩ : RunTask RunResult).run.Only Step.IsBlind :=
      only_bind ⟨trivial, fun _ => trivial⟩ fun _ => only_pure
    exact hread.executes h

include hb

theorem tells_readStored {content : Bytes} {v : Storage.ObjectVersion} (hzero : v.isZero = false)
    (hmem : ⟨.storage (.download f.key),
      (.ok (content, v) : Except Storage.Error (Bytes × Storage.ObjectVersion))⟩ ∈ t)
    (h : (a.readStored f planOnly v).run.Executes u r) :
    (∀ result, r = .ok result → Tells a (t ++ u) result) ∧
      ∀ e, r = .error e → StoppedBy (t ++ u) e := by
  simp only [Action.readStored, hzero, Bool.false_eq_true, if_false] at h
  refine ⟨fun result hr => ?_, fun e he => ?_⟩
  · subst hr
    obtain ⟨_, _, output, houtput, h₁, rfl⟩ := executes_bind_ok.1 h
    obtain ⟨rfl, rfl⟩ := executes_pure_ok.1 h₁
    obtain rfl := Program.executes_one.1 houtput
    refine ⟨?_, by simp⟩
    rw [hb]
    refine ⟨content, v, ?_, List.mem_append_left _ hmem⟩
    simp only [Version.ofStorage, hzero, Bool.false_eq_true, if_false, Version.empty]
  · subst he
    exact (stops_bind stops_readOutput (fun _ => fails_pure) _ _ h).after

theorem course_retrieve {probed : Storage.ObjectVersion} (hprobed : probed.isZero = false)
    (h : (fromStorage f.retrieve >>= a.readStored f planOnly).run.Executes t r) :
    Course a planOnly (⟨.storage (.version f.key),
      (.ok probed : Except Storage.Error Storage.ObjectVersion)⟩ :: t) r := by
  have hseen : a.seen? ⟨.storage (.version f.key),
      (.ok probed : Except Storage.Error Storage.ObjectVersion)⟩ = some true :=
    (seen?_stored hb).2 ⟨probed, rfl, hprobed⟩
  have hblind : (fromStorage f.retrieve).run.Only Step.IsBlind :=
    only_mapError StateFile.blind_retrieve
  rcases Task.executes_bind.1 h with ⟨e, he, rfl⟩ | ⟨t₁, t₂, v, hv, h₁, rfl⟩
  · refine .present ?_ fun _ => ⟨nofun, fun e' he' => ?_⟩
    · rw [List.filterMap_cons_some hseen, seen_of_blind (hblind.executes he)]
    · cases he'
      exact StoppedBy.after (t := [_]) (StateFile.stops_retrieve _ _ he)
  · obtain ⟨content, hmem⟩ := StateFile.executes_retrieve hv
    refine .present ?_ fun hversions => ?_
    · rw [List.filterMap_cons_some hseen, List.filterMap_append,
        seen_of_blind (hblind.executes hv), seen_of_blind (blind_readStored h₁), List.append_nil]
    · have hzero : v.isZero = false :=
        hversions _ probed v content hprobed List.mem_cons_self
          (List.mem_cons_of_mem _ (List.mem_append_left _ hmem))
      exact tells_readStored hb hzero (List.mem_cons_of_mem _ hmem) h₁

theorem course_stored (h : (do
      Task.ofProgram (Action.call .initLocal)
      fromStorage f.download >>= a.readStored f planOnly
        : RunTask RunResult).run.Executes t r) : Course a planOnly t r := by
  rcases Task.executes_bind.1 h with ⟨e, he, rfl⟩ | ⟨t₁, t₂, _, hinit, h₁, rfl⟩
  · obtain rfl := Program.executes_one.1 he
    exact .stopped rfl (stoppedBy_of_failure rfl)
  obtain rfl := Program.executes_one.1 hinit
  refine .after (fun e he => by obtain rfl := List.mem_singleton.1 he; exact ⟨trivial, id⟩) ?_
  rw [StateFile.download_bind] at h₁
  rcases Task.executes_bind.1 h₁ with ⟨e, he, rfl⟩ | ⟨t₃, t₄, probed, hprobe, h₂, rfl⟩
  · obtain ⟨reply, hreply, heq⟩ := Task.executes_mapError.1 he
    obtain rfl := Program.executes_one.1 hreply
    cases reply with
    | ok probed => cases heq
    | error e' =>
      cases heq
      exact .stopped rfl (stoppedBy_of_failure rfl)
  obtain rfl := Program.executes_one.1 (executes_mapError_ok.1 hprobe)
  cases hprobed : probed.isZero with
  | false =>
    simp only [hprobed, Bool.false_eq_true, if_false] at h₂
    exact course_retrieve hb hprobed h₂
  | true =>
    simp only [hprobed, if_true] at h₂
    have hseen : a.seen? ⟨.storage (.version f.key),
        (.ok probed : Except Storage.Error Storage.ObjectVersion)⟩ = some false :=
      (seen?_stored hb).2 ⟨probed, rfl, hprobed⟩
    rcases Task.executes_bind.1 h₂ with ⟨e, he, -⟩ | ⟨t₅, t₆, _, hlog, h₃, rfl⟩
    · exact (fails_mapError (E := fun _ _ => False) fails_lift _ _ he).elim
    obtain rfl := Program.executes_one.1 (executes_lift_ok.1 (executes_mapError_ok.1 hlog))
    simp only [Action.readStored, hprobed, if_true] at h₃
    obtain ⟨hlogs, hnothing⟩ := Action.executes_missingState h₃
    refine course_missing hseen id (fun e he => ?_) hnothing
    rcases List.mem_cons.1 he with rfl | he
    · trivial
    · exact hlogs e he

end Stored

/-- Every fetch takes one of the three courses. -/
theorem course_fetch (hn : Text.isAllBlank a.envName = false)
    (h : (a.fetch planOnly).run.Executes t r) : Course a planOnly t r := by
  simp only [Action.fetch, Action.validate, hn, Bool.false_eq_true, if_false, pure_bind] at h
  cases hb : a.backend with
  | workspace =>
    rw [hb] at h
    exact course_workspace hb (by simpa only [Action.readSerial] using h)
  | stored f =>
    rw [hb] at h
    exact course_stored hb h

theorem missing_of_missed (hn : Text.isAllBlank a.envName = false)
    (h : (a.fetch planOnly).run.Executes t r) (hmissed : a.Missed t) :
    (∀ e ∈ t, ¬ e.op.ReadsState) ∧ (Visit.fetch planOnly).FindsNothing a r := by
  rw [missed_iff] at hmissed
  cases course_fetch hn h with
  | stopped hseen _ =>
    rw [hseen] at hmissed
    exact absurd hmissed List.not_mem_nil
  | missing _ hreads hnothing => exact ⟨hreads, hnothing⟩
  | present hseen _ =>
    rw [hseen] at hmissed
    cases List.mem_singleton.1 hmissed

theorem stops_fetch_plan (hn : Text.isAllBlank a.envName = false) :
    (a.fetch true).Fails StoppedBy := by
  have hmissing (text : String) : (a.missingState true text).Fails StoppedBy :=
    fun _ _ he => absurd (Action.executes_missingState he).2 nofun
  simp only [Action.fetch, Action.validate, hn, Bool.false_eq_true, if_false, pure_bind]
  cases hb : a.backend with
  | workspace =>
    refine stops_bind (stops_step fun _ _ he => by cases he; rfl) fun _ =>
      stops_bind (stops_bind (stops_step fun _ _ he => by cases he; rfl) fun _ => fails_pure)
        fun found => ?_
    cases found with
    | true => exact stops_readSerial
    | false => exact hmissing _
  | stored f =>
    refine stops_bind (stops_step fun _ _ he => by cases he; rfl) fun _ => ?_
    rw [StateFile.download_bind]
    have hread (v : Storage.ObjectVersion) : (a.readStored f true v).Fails StoppedBy := by
      unfold Action.readStored
      split
      · exact hmissing _
      · exact stops_bind stops_readOutput fun _ => fails_pure
    refine stops_bind (fails_mapError (fails_one fun reply e he => stoppedBy_of_failure ?_))
      fun probed => ?_
    · cases he
      rfl
    · split
      · exact stops_bind (fails_mapError fails_lift) fun _ => hmissing _
      · exact stops_bind StateFile.stops_retrieve hread

/-- In both modes, a missing environment gives the plan version or the error that there is no
state, and nothing is read; a present one gives what was read or the error of the step that
failed; and if it is not known whether there is one, the last step failed. -/
theorem fetch_tells (hn : Text.isAllBlank a.envName = false) (hversions : DownloadsVersions t)
    (h : (a.fetch planOnly).run.Executes t r) :
    (a.Missed t → (∀ e ∈ t, ¬ e.op.ReadsState) ∧ (Visit.fetch planOnly).FindsNothing a r) ∧
    (a.Found t → ¬ a.Missed t ∧
      (∀ result, r = .ok result → Tells a t result ∧ result.version.isZero = false ∧
        result.version.planOnly = false ∧ result.version.mode = some a.mode) ∧
      ∀ e, r = .error e → StoppedBy t e) ∧
    (¬ a.Missed t → ¬ a.Found t → ∃ e, r = .error e ∧ StoppedBy t e) := by
  refine ⟨missing_of_missed hn h, ?_⟩
  rw [missed_iff, found_iff]
  cases course_fetch hn h with
  | stopped hseen hstop =>
    rw [hseen]
    exact ⟨nofun, fun _ _ => ⟨_, rfl, hstop⟩⟩
  | missing hseen _ _ =>
    rw [hseen]
    refine ⟨fun hfound => ?_, fun hmissed => absurd (List.mem_singleton_self _) hmissed⟩
    cases List.mem_singleton.1 hfound
  | present hseen hpresent =>
    obtain ⟨htells, hstops⟩ := hpresent hversions
    rw [hseen]
    refine ⟨fun _ => ⟨fun hmissed => ?_, fun result hr => ?_, hstops⟩,
      fun _ hfound => absurd (List.mem_singleton_self _) hfound⟩
    · cases List.mem_singleton.1 hmissed
    · exact ⟨htells result hr, (htells result hr).identifies⟩

-- An object that is there, and a workspace that is not.
namespace Sighting

open Record (ofEngine ofHost ofLog)

def keeper : Action := ⟨.stored ⟨"/terraform.tfstate", "dev.tfstate"⟩, "dev", false, {}⟩

def tenant : Action := ⟨.workspace, "dev", false, {}⟩

def version : Storage.ObjectVersion := ⟨"v1", none⟩

def downloaded : Record := [
  ofEngine .initLocal (.ok ()),
  Record.ofStorage (.version "dev.tfstate") (.ok version),
  Record.ofStorage (.download "dev.tfstate") (.ok ([], version)),
  ofHost (.makeDirectories "/") (.ok ()),
  ofHost (.writeFile "/terraform.tfstate" []) (.ok ()),
  ofLog .info ("Downloaded state 'dev.tfstate' (version " ++ version.display ++ ")"),
  ofEngine (.readOutput "dev") (.ok {})]

def unlisted : Record := [
  ofEngine (.initBackend "dev") (.ok ()),
  ofEngine .listWorkspaces (.ok ["default"])]

theorem executes_downloaded (planOnly : Bool) : (keeper.fetch planOnly).run.Executes downloaded
    (.ok ⟨.ofStorage "dev" version, {}⟩) :=
  .step _ (.step _ (.step _ (.step _ (.step _ (.step _ (.step _ (.done _)))))))

theorem executes_unlisted : (tenant.fetch false).run.Executes unlisted
    (.error (.storageNotFound ("Workspace 'dev' does not exist in backend." ++
      "\nIf you intended to run the `destroy` action, add `put.get_params.action: destroy`."))) :=
  .step _ (.step _ (.done _))

theorem downloadsVersions_downloaded : DownloadsVersions downloaded := by
  rintro key probed v content - - hmem
  simp [downloaded, ofEngine, ofHost, ofLog, Record.ofStorage] at hmem
  obtain ⟨-, -, rfl⟩ := hmem
  rfl

theorem fetch_tells_dev :
    Tells keeper downloaded ⟨.ofStorage "dev" version, {}⟩ ∧ ∀ e ∈ unlisted, ¬ e.op.ReadsState := by
  constructor
  · refine (((fetch_tells rfl downloadsVersions_downloaded (executes_downloaded true)).2.1
      ⟨version, rfl, List.mem_cons_of_mem _ List.mem_cons_self⟩).2.1 _ rfl).1
  · refine ((fetch_tells rfl ?_ executes_unlisted).1
      ⟨["default"], by decide, List.mem_cons_of_mem _ List.mem_cons_self⟩).1
    rintro key probed v content - - hmem
    simp [unlisted, ofEngine] at hmem

end Sighting

end Provision.Lifecycle
