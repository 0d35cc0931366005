import Provision.Proofs.Lifecycle.Record

/-!
# The protocol of an apply

In which order an apply calls the engine and the storage driver, for every way in which these
calls may end. A phase stands for what has to be done next: it asks for one step, and the reply
to that step decides the phase after it. The only steps that the protocol leaves free are log
lines. The phase that asks for nothing is the end of the run, and carries its result.

The file operations of a local copy are part of the protocol, because an upload starts with
reading the copy and a download ends with writing it.
-/

namespace Provision.Lifecycle

open Provision.Program (Executes)

namespace Protocol

inductive Phase where
  | start
  | listWorkspaces
  | createWorkspace
  | probe
  | download
  | makeDirectory (directory : String) (content : Bytes)
  | writeCopy (content : Bytes)
  | listState
  | adopt (address id : String) (pending : List (String × String))
  | apply
  | pullState
  | readCopy
  | upload (content : Bytes)
  | readOutput (version : Version)
  | destroy (cause : Error)
  | dropState (cause : Error)
  | lookForCopy (report : Error)
  | readPartial (report : Error)
  | uploadPartial (report : Error) (content : Bytes)
  | ended (result : Except Error RunResult)

def untracked (tracked : List String) (imports : List (String × String)) :
    List (String × String) :=
  imports.filter fun e => !tracked.contains e.1

namespace Phase

def failed (e : Error) : Phase := .ended (.error e)

def orElse {ε α : Type} (bad : ε → Phase) (good : α → Phase) : Except ε α → Phase
  | .error e => bad e
  | .ok x => good x

def next {α : Type} (good : α → Phase) (reply : Except Error α) : Phase :=
  orElse failed good reply

def verify {α : Type} (good : α → Phase) (reply : Except Error α) : Phase :=
  orElse (fun e => failed (.postApply e)) good reply

def afterPreparation (a : Action) : Phase :=
  if a.imports.isEmpty then .apply else .listState

def adoptNext : List (String × String) → Phase
  | [] => .apply
  | (address, id) :: pending => .adopt address id pending

def place (f : StateFile) (content : Bytes) : Phase :=
  match Host.Path.parent? f.localPath with
  | some directory => .makeDirectory directory content
  | none => .writeCopy content

def record (a : Action) : Phase :=
  match a.backend with
  | .workspace => .pullState
  | .stored _ => .readCopy

def preserve (a : Action) (report : Error) : Phase :=
  match a.backend with
  | .workspace => failed report
  | .stored _ => .lookForCopy report

def compensate (a : Action) (cause : Error) : Phase :=
  if a.deleteOnFailure then .destroy cause else preserve a (.applyFailed cause)

def afterDestroy (a : Action) (cause : Error) : Phase :=
  if a.backend = .workspace ∧ a.envName = Engine.defaultWorkspace then
    failed (.applyFailed cause)
  else .dropState cause

def afterDrop (a : Action) (cause : Error) (reply : Except Error Unit) : Phase :=
  orElse (fun e => preserve a (.rollbackFailed cause e)) (fun _ => failed (.applyFailed cause))
    reply

end Phase

/-- What a phase asks for, and the phase after each reply. -/
inductive Asks (a : Action) : Phase → (s : Step) → (s.Reply → Phase) → Prop where
  | initBackend (hb : a.backend = .workspace) :
      Asks a .start (.engine (.initBackend a.envName)) (.next fun _ => .listWorkspaces)
  | listWorkspaces (hb : a.backend = .workspace) :
      Asks a .listWorkspaces (.engine .listWorkspaces) (.next fun names =>
        if names.contains a.envName then .afterPreparation a else .createWorkspace)
  | newWorkspace (hb : a.backend = .workspace) :
      Asks a .createWorkspace (.engine (.newWorkspace a.envName))
        (.next fun _ => .afterPreparation a)
  | initLocal {f : StateFile} (hb : a.backend = .stored f) :
      Asks a .start (.engine .initLocal) (.next fun _ => .probe)
  | probe {f : StateFile} (hb : a.backend = .stored f) :
      Asks a .probe (.storage (.version f.key)) (.orElse (fun e => .failed (.ofStorage e))
        fun v => if v.isZero then .afterPreparation a else .download)
  | download {f : StateFile} (hb : a.backend = .stored f) :
      Asks a .download (.storage (.download f.key)) (.orElse (fun e => .failed (.ofStorage e))
        fun object => .place f object.1)
  | makeDirectory {f : StateFile} (hb : a.backend = .stored f) (directory : String)
      (content : Bytes) :
      Asks a (.makeDirectory directory content) (.host (.makeDirectories directory))
        (.orElse (fun fault => .failed (.ofStorage (unmadeDirectory fault)))
          fun _ => .writeCopy content)
  | writeCopy {f : StateFile} (hb : a.backend = .stored f) (content : Bytes) :
      Asks a (.writeCopy content) (.host (.writeFile f.localPath content))
        (.orElse (fun fault => .failed (.ofStorage (unwritableCopy f.localPath fault)))
          fun _ => .afterPreparation a)
  | listState :
      Asks a .listState (.engine (.listState a.envName)) (.next fun tracked =>
        .adoptNext (untracked tracked a.imports.entries))
  | adopt (address id : String) (pending : List (String × String)) :
      Asks a (.adopt address id pending) (.engine (.adopt a.envName address id))
        (.next fun _ => .adoptNext pending)
  | apply :
      Asks a .apply (.engine (.apply a.envName)) (.orElse (.compensate a) fun _ => .record a)
  | pullState (hb : a.backend = .workspace) :
      Asks a .pullState (.engine (.pullState a.envName)) fun reply =>
        .verify (fun n => .readOutput (.ofSerial a.envName n)) (reply.bind parseSerial)
  | readCopy {f : StateFile} (hb : a.backend = .stored f) :
      Asks a .readCopy (.host (.readFile f.localPath))
        (.orElse (fun fault => .failed (.postApply (.ofStorage (unreadableCopy f.localPath fault))))
          .upload)
  | upload {f : StateFile} (hb : a.backend = .stored f) (content : Bytes) :
      Asks a (.upload content) (.storage (.upload f.key content))
        (.orElse (fun e => .failed (.postApply (.ofStorage e)))
          fun v => .readOutput (.ofStorage a.envName v))
  | readOutput (version : Version) :
      Asks a (.readOutput version) (.engine (.readOutput a.envName))
        (.verify fun output => .ended (.ok ⟨version, output⟩))
  | destroy (cause : Error) :
      Asks a (.destroy cause) (.engine (.destroy a.envName))
        (.orElse (fun e => .preserve a (.rollbackFailed cause e)) fun _ => .afterDestroy a cause)
  | deleteWorkspace (hb : a.backend = .workspace) (cause : Error) :
      Asks a (.dropState cause) (.engine (.deleteWorkspace a.envName)) (.afterDrop a cause)
  | deleteObject {f : StateFile} (hb : a.backend = .stored f) (cause : Error) :
      Asks a (.dropState cause) (.storage (.delete f.key)) fun reply =>
        .afterDrop a cause (reply.mapError .ofStorage)
  | lookForCopy {f : StateFile} (hb : a.backend = .stored f) (report : Error) :
      Asks a (.lookForCopy report) (.host (.isFile f.localPath)) fun found =>
        if found then .readPartial report else .failed report
  | readPartial {f : StateFile} (hb : a.backend = .stored f) (report : Error) :
      Asks a (.readPartial report) (.host (.readFile f.localPath))
        (.orElse (fun _ => .failed report) (.uploadPartial report))
  | uploadPartial {f : StateFile} (hb : a.backend = .stored f) (report : Error)
      (content : Bytes) :
      Asks a (.uploadPartial report content) (.storage (.upload f.key content)) fun _ =>
        .failed report

/-- The steps `t` lead from one phase to another. -/
inductive Leads (a : Action) : Phase → Record → Phase → Prop where
  | stay (p : Phase) : Leads a p [] p
  | log {p q : Phase} {t : Record} (line : Host.LogLine) (reply : Unit) :
      Leads a p t q → Leads a p (⟨.host (.log line), reply⟩ :: t) q
  | take {p q : Phase} {s : Step} {after : s.Reply → Phase} {t : Record} (reply : s.Reply) :
      Asks a p s after → Leads a (after reply) t q → Leads a p (⟨s, reply⟩ :: t) q

namespace Leads

variable {a : Action} {p q s : Phase} {t u : Record}

theorem append (h₁ : Leads a p t q) (h₂ : Leads a q u s) : Leads a p (t ++ u) s := by
  induction h₁ with
  | stay p => exact h₂
  | log line reply _ ih => exact .log line reply (ih h₂)
  | take reply hd _ ih => exact .take reply hd (ih h₂)

/-- What log lines and due steps preserve holds at the end. -/
theorem preserves {I : Record → Phase → Prop}
    (hlog : ∀ u p line reply, I u p → I (u ++ [⟨.host (.log line), reply⟩]) p)
    (hstep : ∀ u p s after reply, Asks a p s after → I u p → I (u ++ [⟨s, reply⟩]) (after reply))
    (h : Leads a p t q) (u : Record) (hu : I u p) : I (u ++ t) q := by
  -- The record of what came before grows along the run.
  induction h generalizing u with
  | stay p => simpa only [List.append_nil] using hu
  | log line reply _ ih =>
    simpa only [List.append_assoc, List.singleton_append] using ih _ (hlog u _ line reply hu)
  | take reply hd _ ih =>
    simpa only [List.append_assoc, List.singleton_append] using ih _ (hstep u _ _ _ reply hd hu)

end Leads

/-- Every execution of the program `x` in phase `p` is led by the protocol, and its result decides
the phase it ends in. Each part of an apply has one lemma of this form. -/
def Tracks (a : Action) (p : Phase) {α : Type} (x : Run α) (after : α → Phase) : Prop :=
  ∀ t r, x.Executes t r → Leads a p t (after r)

section Tracks

variable {a : Action} {p : Phase} {α β ε ε' : Type}

theorem tracks_done {x : α} {after : α → Phase} (h : after x = p) :
    Tracks a p (.done x) after := by
  intro t r hx
  obtain ⟨rfl, rfl⟩ := Program.executes_done.1 hx
  rw [h]
  exact .stay p

theorem Tracks.congr {x : Run α} {after after' : α → Phase} (h : Tracks a p x after)
    (heq : ∀ r, after r = after' r) : Tracks a p x after' := by
  intro t r hx
  rw [← heq]
  exact h t r hx

theorem tracks_step {s : Step} {after : s.Reply → Phase} (h : Asks a p s after) :
    Tracks a p (.step s .done) after := by
  intro t r hx
  obtain rfl := Program.executes_one.1 hx
  exact .take r h (.stay _)

theorem tracks_log (level : Host.Level) (message : String) :
    Tracks a p (log level message) fun _ => p := by
  intro t r hx
  obtain rfl := Program.executes_one.1 hx
  exact .log _ r (.stay p)

theorem tracks_bind {x : Run α} {f : α → Run β} {middle : α → Phase} {after : β → Phase}
    (hx : Tracks a p x middle) (hf : ∀ y, Tracks a (middle y) (f y) after) :
    Tracks a p (x >>= f) after := by
  intro t r h
  obtain ⟨t₁, t₂, y, h₁, h₂, rfl⟩ := Program.executes_bind.1 h
  exact (hx t₁ y h₁).append (hf y t₂ r h₂)

theorem tracks_andThen {x : Task steps ε α} {f : α → Task steps ε β}
    {after : Except ε β → Phase} (middle : Except ε α → Phase) (hx : Tracks a p x.run middle)
    (herror : ∀ e, middle (.error e) = after (.error e))
    (hf : ∀ y, Tracks a (middle (.ok y)) (f y).run after) :
    Tracks a p (x >>= f).run after := by
  intro t r h
  rcases Task.executes_bind.1 h with ⟨e, he, rfl⟩ | ⟨t₁, t₂, y, h₁, h₂, rfl⟩
  · rw [← herror]
    exact hx t _ he
  · exact (hx t₁ _ h₁).append (hf y t₂ r h₂)

theorem tracks_pure {x : α} {after : Except ε α → Phase} (h : after (.ok x) = p) :
    Tracks a p (pure x : Task steps ε α).run after :=
  tracks_done h

theorem tracks_throw {e : ε} {after : Except ε α → Phase} (h : after (.error e) = p) :
    Tracks a p (throw e : Task steps ε α).run after :=
  tracks_done h

theorem tracks_lift {x : Run α} {after : Except ε α → Phase}
    (h : Tracks a p x fun y => after (.ok y)) : Tracks a p (Task.lift x).run after := by
  intro t r hx
  obtain ⟨y, hy, rfl⟩ := Task.executes_lift.1 hx
  exact h t y hy

theorem tracks_mapError {x : Task steps ε α} {f : ε → ε'} {after : Except ε' α → Phase}
    (h : Tracks a p x.run fun r => after (r.mapError f)) :
    Tracks a p (x.mapError f).run after := by
  intro t r hx
  obtain ⟨r', hr, rfl⟩ := Task.executes_mapError.1 hx
  exact h t r' hr

theorem tracks_outcome {x : Task steps ε α} {after : Except ε' (Except ε α) → Phase}
    (h : Tracks a p x.run fun r => after (.ok r)) :
    Tracks a p (Task.outcome x : Task steps ε' (Except ε α)).run after :=
  tracks_lift h

theorem tracks_logged {level : Host.Level} {message : String} {x : Task steps ε α}
    {after : Except ε α → Phase} (h : Tracks a p x.run after) :
    Tracks a p (do Task.lift (log level message); x : Task steps ε α).run after :=
  tracks_andThen (fun
      | .ok _ => p
      | .error e => after (.error e)) (tracks_lift (tracks_log level message))
    (fun _ => rfl) fun _ => h

end Tracks

end Protocol

end Provision.Lifecycle
