import Mathlib.Data.Finset.Basic
import Mathlib.Data.Finset.Dedup
import Provision.Engine.Terraform
import Provision.Lifecycle.Action
import Provision.Proofs.Text.Blank
import Provision.Proofs.Text.Utf8
import Provision.Proofs.Transitions
import Provision.Storage.Nowhere

/-!
# Workspaces by their listing

The engine prints one line for each workspace, and a run looks for its environment among the names
that it reads out of them. No name that can be one is read as another, so the environment is found
exactly if it has a workspace. A run that does not find it makes a workspace, and later runs find
that one, however often they make sure of it.
-/

namespace Provision.Engine.Terraform

open Provision.Host
open Provision.Task (performs_bind performs_lift_bind performs_mapError performs_mapError_ok
  performs_pure performs_throw)

variable {c : Config} {name current : String} {listed : List String}

/-- A name that stands on a line of its own, with no blank at an end and no star before it. -/
structure IsWorkspaceName (name : String) : Prop where
  trimmed : Text.IsTrimmed name
  unbroken : '\n' ∉ name.toList
  unstarred : name.toList.head? ≠ some '*'

def mark (current name : String) : String := if name = current then "* " else "  "

def listing (current : String) (listed : List String) : String :=
  String.join ((listed.map fun name => mark current name ++ name).map fun line => line ++ "\n")

theorem mark_cases (current name : String) :
    mark current name = "* " ∨ mark current name = "  " := by
  unfold mark
  split
  · exact .inl rfl
  · exact .inr rfl

theorem isBlank_space : Text.isBlank ' ' = true := by decide

namespace IsWorkspaceName

theorem fitsLine (h : IsWorkspaceName name) : Text.FitsLine (mark current name ++ name) := by
  rw [Text.FitsLine, String.toList_append, List.getLast?_append_of_ne_nil _ h.trimmed.toList_ne_nil]
  refine ⟨fun hmem => ?_, fun hlast => ?_⟩
  · rcases List.mem_append.1 hmem with hmark | hname
    · rcases mark_cases current name with heq | heq <;> simp [heq] at hmark
    · exact h.unbroken hname
  · cases h.trimmed.last '\r' hlast

theorem trim_line (h : IsWorkspaceName name) (current : String) :
    Text.trim (mark current name ++ name) = name ∨
      Text.trim (mark current name ++ name) = "* " ++ name := by
  rcases mark_cases current name with heq | heq
  · have hstarred : Text.IsTrimmed ("*" ++ " " ++ name) := .append (by decide) " " h.trimmed
    rw [heq]
    exact .inr (Text.isTrimmed_iff.1 hstarred).2
  · rw [heq]
    refine .inl (Text.trim_eq h.trimmed ⟨[' ', ' '], [], ?_, by simp [isBlank_space], nofun⟩)
    simp [String.toList_append]

theorem trimCharStart_eq (h : IsWorkspaceName name) : Text.trimCharStart '*' name = name := by
  rw [Text.trimCharStart, Text.dropWhile_eq_self, String.ofList_toList]
  intro c hc
  simpa using fun heq : c = '*' => h.unstarred (heq ▸ hc)

theorem unstar_line (h : IsWorkspaceName name) (current : String) :
    Reply.unstar (mark current name ++ name) = name := by
  rw [Reply.unstar]
  rcases h.trim_line current with heq | heq
  · rw [heq, h.trimCharStart_eq]
    exact (Text.isTrimmed_iff.1 h.trimmed).2
  · have hstar : Text.trimCharStart '*' ("* " ++ name) = " " ++ name := by
      simp [Text.trimCharStart, String.toList_append]
    rw [heq, hstar]
    exact Text.trim_eq h.trimmed
      ⟨[' '], [], by simp [String.toList_append], by simp [isBlank_space], nofun⟩

end IsWorkspaceName

theorem workspaces_listing (h : ∀ name ∈ listed, IsWorkspaceName name) :
    Reply.workspaces (listing current listed) = listed := by
  have hlines : ∀ line ∈ listed.map fun name => mark current name ++ name, Text.FitsLine line := by
    intro line hline
    obtain ⟨name, hname, rfl⟩ := List.mem_map.1 hline
    exact (h name hname).fitsLine
  have hitems : (listed.map fun name => mark current name ++ name).map Reply.unstar = listed := by
    rw [List.map_map]
    exact (List.map_congr_left fun name hname => (h name hname).unstar_line _).trans (List.map_id _)
  rw [Reply.workspaces, Reply.nonEmptyLines, listing, Text.lines_join hlines, hitems,
    List.filter_eq_self]
  intro name hname
  simpa using (h name hname).trimmed.ne_empty

example : Reply.workspaces "  default\n* a * b\n" = ["default", "a * b"] := by decide

/-- The names of the workspaces, and the names that a new workspace was asked for under so far. -/
structure Workspaces where
  names : Finset String
  asked : List String

/-- The engine lists its workspaces in any order and marks any line. It makes a workspace only under
a name that is new. -/
inductive Keeps : Workspaces → Event effects → Workspaces → Prop where
  | log (w : Workspaces) (line : LogLine) : Keeps w ⟨.log line, ()⟩ w
  | list {w : Workspaces} {i : Invocation} {finished : Finished} {listed : List String}
      {current : String} (hi : i.arguments = ["workspace", "list"]) (hlisted : listed.Nodup)
      (hnames : listed.toFinset = w.names) (hstatus : finished.status.isSuccess = true)
      (houtput : finished.output = Text.Utf8.encode (listing current listed)) :
      Keeps w ⟨.start i, (.ok finished : Except Fault Finished)⟩ w
  | make {w : Workspaces} {i : Invocation} {finished : Finished} {name : String}
      (hi : i.arguments = ["workspace", "new", name]) (hname : name ∉ w.names)
      (hstatus : finished.status.isSuccess = true) :
      Keeps w ⟨.start i, (.ok finished : Except Fault Finished)⟩
        ⟨insert name w.names, w.asked ++ [name]⟩
  | taken {w : Workspaces} {i : Invocation} {finished : Finished} {name : String}
      (hi : i.arguments = ["workspace", "new", name]) (hname : name ∈ w.names)
      (hstatus : finished.status.isSuccess = false)
      (herrors : Text.contains (Text.Utf8.lossy finished.errors) "already exists" = true) :
      Keeps w ⟨.start i, (.ok finished : Except Fault Finished)⟩ ⟨w.names, w.asked ++ [name]⟩

variable {w w' : Workspaces} {arguments : List String} {workspace : Option String}

/-- How a command ends, by how its process did. -/
def ended (arguments : List String) (finished : Finished) : Except Lifecycle.Error Printed :=
  let combined :=
    Reply.combine (Text.Utf8.lossy finished.output) (Text.Utf8.lossy finished.errors)
  if finished.status.isSuccess then .ok ⟨finished.output, combined⟩
  else .error (.engine (displayCommand arguments) finished.status.message combined)

theorem performs_run {r : Except Lifecycle.Error Printed} :
    (run c arguments workspace).run.Performs Keeps w r w' ↔
      ∃ finished : Finished, r = ended arguments finished ∧
        Keeps w ⟨.start (invocation c arguments workspace), .ok finished⟩ w' := by
  have hend (finished : Finished) (w₁ : Workspaces) : (do
      let combined :=
        Reply.combine (Text.Utf8.lossy finished.output) (Text.Utf8.lossy finished.errors)
      if finished.status.isSuccess then return ⟨finished.output, combined⟩
      throw (.engine (displayCommand arguments) finished.status.message combined) :
      Command Printed).run.Performs Keeps w₁ r w' ↔ r = ended arguments finished ∧ w' = w₁ := by
    unfold ended
    dsimp only
    split
    · exact performs_pure
    · exact performs_throw
  simp only [run]
  rw [performs_lift_bind]
  constructor
  · rintro ⟨_, _, hlog, hrest⟩
    cases Program.performs_one.1 hlog
    obtain ⟨reply, w₁, hstart, hrest⟩ := performs_lift_bind.1 hrest
    have hkeeps := Program.performs_one.1 hstart
    cases reply with
    | error fault => cases hkeeps
    | ok finished =>
      obtain ⟨hr, rfl⟩ := (hend finished w₁).1 hrest
      exact ⟨finished, hr, hkeeps⟩
  · rintro ⟨finished, hr, hkeeps⟩
    exact ⟨(), w, Program.performs_one.2 (.log w _), performs_lift_bind.2
      ⟨.ok finished, w', Program.performs_one.2 hkeeps, (hend finished w').2 ⟨hr, rfl⟩⟩⟩

section Replies

variable {i : Invocation} {finished : Finished}

theorem ended_of_success (h : finished.status.isSuccess = true) :
    ∃ combined, ended arguments finished = .ok ⟨finished.output, combined⟩ := by
  simp [ended, h]

theorem keeps_list (hi : i.arguments = ["workspace", "list"])
    (h : Keeps w ⟨.start i, .ok finished⟩ w') :
    w' = w ∧ finished.status.isSuccess = true ∧ ∃ listed current, listed.Nodup ∧
      listed.toFinset = w.names ∧
      finished.output = Text.Utf8.encode (listing current listed) := by
  cases h with
  | list _ hlisted hnames hstatus houtput =>
    exact ⟨rfl, hstatus, _, _, hlisted, hnames, houtput⟩
  | make hnew _ _ => simp [hi] at hnew
  | taken hnew _ _ _ => simp [hi] at hnew

theorem keeps_new (hi : i.arguments = ["workspace", "new", name]) (hname : name ∉ w.names)
    (h : Keeps w ⟨.start i, .ok finished⟩ w') :
    w' = ⟨insert name w.names, w.asked ++ [name]⟩ ∧ finished.status.isSuccess = true := by
  cases h with
  | list hlist _ _ _ _ => simp [hi] at hlist
  | make hnew _ hstatus =>
    simp only [hi, List.cons.injEq, and_true, true_and] at hnew
    subst hnew
    exact ⟨rfl, hstatus⟩
  | taken hnew htaken _ _ =>
    simp only [hi, List.cons.injEq, and_true, true_and] at hnew
    subst hnew
    exact absurd htaken hname

end Replies

theorem performs_listWorkspaces (hnames : ∀ name ∈ w.names, IsWorkspaceName name)
    {r : Except Lifecycle.Error (List String)} :
    (listWorkspaces c).run.Performs Keeps w r w' ↔
      w' = w ∧ ∃ listed : List String,
        r = .ok listed ∧ listed.Nodup ∧ listed.toFinset = w.names := by
  have hread {listed : List String} (hlisted : listed.toFinset = w.names) (current : String) :
      Reply.workspaces (Text.Utf8.lossy (Text.Utf8.encode (listing current listed))) = listed := by
    rw [Text.Utf8.lossy_encode]
    exact workspaces_listing fun name hname => hnames name (hlisted ▸ List.mem_toFinset.2 hname)
  rw [listWorkspaces, performs_bind]
  constructor
  · rintro (⟨e, hrun, -⟩ | ⟨printed, w₁, hrun, hrest⟩)
    · obtain ⟨finished, hended, hkeeps⟩ := performs_run.1 hrun
      obtain ⟨-, hsuccess, -⟩ := keeps_list rfl hkeeps
      obtain ⟨combined, hok⟩ := ended_of_success hsuccess
      cases hended.trans hok
    · obtain ⟨finished, hended, hkeeps⟩ := performs_run.1 hrun
      obtain ⟨rfl, hsuccess, listed, current, hnodup, hlisted, houtput⟩ := keeps_list rfl hkeeps
      obtain ⟨combined, hok⟩ := ended_of_success hsuccess
      cases hended.trans hok
      obtain ⟨rfl, rfl⟩ := performs_pure.1 hrest
      exact ⟨rfl, listed, by rw [Printed.text, houtput, hread hlisted], hnodup, hlisted⟩
  · rintro ⟨rfl, listed, rfl, hnodup, hlisted⟩
    -- Which line has the star does not matter, so none has it here.
    let finished : Finished := ⟨.code 0, Text.Utf8.encode (listing "" listed), []⟩
    have hkeeps : Keeps w' ⟨.start (invocation c ["workspace", "list"] none), .ok finished⟩ w' :=
      .list rfl hnodup hlisted rfl rfl
    refine .inr ⟨_, _, performs_run.2 ⟨finished, rfl, hkeeps⟩, performs_pure.2 ⟨?_, rfl⟩⟩
    exact congrArg _ (hread hlisted "").symm

theorem comesTo_newWorkspace (hname : name ∉ w.names) :
    (newWorkspace c name).run.ComesTo Keeps w (.ok ())
      ⟨insert name w.names, w.asked ++ [name]⟩ := by
  intro r w'
  rw [newWorkspace, performs_bind]
  constructor
  · rintro (⟨e, hrun, -⟩ | ⟨printed, w₁, hrun, hrest⟩)
    · obtain ⟨r', hrun, heq⟩ := performs_mapError.1 hrun
      obtain ⟨finished, rfl, hkeeps⟩ := performs_run.1 hrun
      obtain ⟨-, hsuccess⟩ := keeps_new rfl hname hkeeps
      obtain ⟨combined, hok⟩ := ended_of_success hsuccess
      rw [hok] at heq
      cases heq
    · obtain ⟨finished, -, hkeeps⟩ := performs_run.1 (performs_mapError_ok.1 hrun)
      obtain ⟨rfl, -⟩ := keeps_new rfl hname hkeeps
      exact performs_pure.1 hrest
  · rintro ⟨rfl, rfl⟩
    let finished : Finished := ⟨.code 0, [], []⟩
    have hkeeps : Keeps w ⟨.start (invocation c ["workspace", "new", name] none), .ok finished⟩
        ⟨insert name w.names, w.asked ++ [name]⟩ := .make rfl hname rfl
    exact .inr ⟨_, _, performs_mapError_ok.2 (performs_run.2 ⟨finished, rfl, hkeeps⟩),
      performs_pure.2 ⟨rfl, rfl⟩⟩

def ensureTimes (a : Lifecycle.Action) : Nat → Lifecycle.Run (List (Except Lifecycle.Error Unit))
  | 0 => return []
  | n + 1 => do
    let result ← a.ensureWorkspace.run
    let rest ← ensureTimes a n
    return result :: rest

def Workspaces.ensured (w : Workspaces) (name : String) : Workspaces where
  names := insert name w.names
  asked := if name ∈ w.names then w.asked else w.asked ++ [name]

theorem Workspaces.ensured_of_mem (h : name ∈ w.names) : w.ensured name = w := by
  rw [ensured, Finset.insert_eq_of_mem h, if_pos h]

section OnHost

variable {driver : Storage.Driver} {a : Lifecycle.Action}

theorem interpret_call (q : Engine.Call) :
    (Lifecycle.Action.call q).interpret (Lifecycle.Step.onHost (engine c) driver) = engine c q :=
  Program.bind_done _

theorem comesTo_workspaceExists (hnames : ∀ name ∈ w.names, IsWorkspaceName name) :
    (Lifecycle.onHost (engine c) driver a.workspaceExists.run).ComesTo Keeps w
      (.ok (decide (a.envName ∈ w.names))) w := by
  have hcontains {listed : List String} (hlisted : listed.toFinset = w.names) :
      listed.contains a.envName = decide (a.envName ∈ w.names) := by
    rw [List.contains_eq_mem, ← hlisted]
    simp only [List.mem_toFinset]
  intro r w'
  rw [Lifecycle.onHost, Lifecycle.Action.workspaceExists, ExceptT.run_bind, Program.interpret_bind,
    Program.performs_bind, Task.ofProgram, ExceptT.run_mk, interpret_call]
  constructor
  · rintro ⟨reply, w₁, hlist, hrest⟩
    obtain ⟨rfl, listed, rfl, -, hlisted⟩ := (performs_listWorkspaces hnames).1 hlist
    rw [← hcontains hlisted]
    exact Program.performs_done.1 hrest
  · rintro ⟨rfl, rfl⟩
    have hlisted : w'.names.toList.toFinset = w'.names := Finset.toList_toFinset _
    refine ⟨_, w', (performs_listWorkspaces hnames).2
      ⟨rfl, w'.names.toList, rfl, Finset.nodup_toList _, hlisted⟩, ?_⟩
    rw [← hcontains hlisted]
    exact Program.performs_done.2 ⟨rfl, rfl⟩

theorem comesTo_onHost_bind {α β : Type} {x : Lifecycle.RunTask α} {f : α → Lifecycle.RunTask β}
    {y : α} {r : Except Lifecycle.Error β} {w₁ : Workspaces}
    (hx : (Lifecycle.onHost (engine c) driver x.run).ComesTo Keeps w (.ok y) w₁)
    (hf : (Lifecycle.onHost (engine c) driver (f y).run).ComesTo Keeps w₁ r w') :
    (Lifecycle.onHost (engine c) driver (x >>= f).run).ComesTo Keeps w r w' := by
  rw [ExceptT.run_bind, Lifecycle.onHost, Program.interpret_bind]
  exact Program.comesTo_bind hx hf

theorem comesTo_log (level : Level) (message : String) :
    (Lifecycle.onHost (engine c) driver
      (Task.lift (Lifecycle.log level message) : Lifecycle.RunTask Unit).run).ComesTo Keeps w
      (.ok ()) w := by
  refine Program.comesTo_bind (a := ())
    (Program.comesTo_one fun reply w₁ => ?_) Program.comesTo_done
  constructor
  · intro h
    cases h
    exact ⟨rfl, rfl⟩
  · rintro ⟨-, rfl⟩
    exact .log w₁ _

/-- The listing decides, so a name that is taken is never asked for. -/
theorem comesTo_ensureWorkspace (hnames : ∀ name ∈ w.names, IsWorkspaceName name) :
    (Lifecycle.onHost (engine c) driver a.ensureWorkspace.run).ComesTo Keeps w (.ok ())
      (w.ensured a.envName) := by
  refine comesTo_onHost_bind (comesTo_workspaceExists hnames) ?_
  by_cases hname : a.envName ∈ w.names
  · rw [w.ensured_of_mem hname, if_pos (decide_eq_true hname)]
    exact Program.comesTo_done
  · rw [Workspaces.ensured, if_neg hname, if_neg (by simpa using hname)]
    refine comesTo_onHost_bind (comesTo_log _ _) ?_
    rw [Lifecycle.onHost, Task.ofProgram, ExceptT.run_mk, interpret_call]
    exact comesTo_newWorkspace hname

theorem onHost_ensureTimes (n : Nat) :
    Lifecycle.onHost (engine c) driver (ensureTimes a (n + 1)) = (do
      let result ← Lifecycle.onHost (engine c) driver a.ensureWorkspace.run
      let rest ← Lifecycle.onHost (engine c) driver (ensureTimes a n)
      return result :: rest) := by
  rw [ensureTimes, Lifecycle.onHost, Program.interpret_bind]
  refine bind_congr fun result => ?_
  rw [Program.interpret_bind]
  rfl

theorem comesTo_ensureTimes_of_mem (hnames : ∀ name ∈ w.names, IsWorkspaceName name)
    (hname : a.envName ∈ w.names) (n : Nat) :
    (Lifecycle.onHost (engine c) driver (ensureTimes a n)).ComesTo Keeps w
      (List.replicate n (.ok ())) w := by
  induction n with
  | zero => exact Program.comesTo_done
  | succ n ih =>
    have hfirst : (Lifecycle.onHost (engine c) driver a.ensureWorkspace.run).ComesTo Keeps w
        (.ok ()) (w.ensured a.envName) := comesTo_ensureWorkspace hnames
    rw [w.ensured_of_mem hname] at hfirst
    rw [onHost_ensureTimes]
    exact Program.comesTo_bind hfirst (Program.comesTo_bind ih Program.comesTo_done)

theorem comesTo_ensureTimes (hnames : ∀ name ∈ w.names, IsWorkspaceName name)
    (henv : IsWorkspaceName a.envName) (n : Nat) :
    (Lifecycle.onHost (engine c) driver (ensureTimes a (n + 1))).ComesTo Keeps w
      (List.replicate (n + 1) (.ok ())) (w.ensured a.envName) := by
  have hmem : a.envName ∈ (w.ensured a.envName).names := Finset.mem_insert_self _ _
  have hnames' : ∀ name ∈ (w.ensured a.envName).names, IsWorkspaceName name :=
    (Finset.forall_mem_insert _ _ _).2 ⟨henv, hnames⟩
  rw [onHost_ensureTimes]
  -- Whether it was there or not, it is after the first run, and the others find it.
  exact Program.comesTo_bind (comesTo_ensureWorkspace hnames)
    (Program.comesTo_bind (comesTo_ensureTimes_of_mem hnames' hmem n) Program.comesTo_done)

end OnHost

/-- The listing reads back as the names, so the environment is found exactly if it has a workspace.
Runs that make sure of the workspace one after the other all end well. They ask for a new workspace
once if it is missing and never if it is there, and no other workspace comes or goes. -/
theorem workspace_made_once (c : Config) (driver : Storage.Driver) (a : Lifecycle.Action)
    {names : Finset String} (hnames : ∀ name ∈ names, IsWorkspaceName name)
    (henv : IsWorkspaceName a.envName) :
    (∀ listed current, listed.toFinset = names →
      Reply.workspaces (Text.Utf8.lossy (Text.Utf8.encode (listing current listed))) = listed) ∧
    (∀ asked, (Lifecycle.onHost (engine c) driver a.workspaceExists.run).ComesTo Keeps
      ⟨names, asked⟩ (.ok (decide (a.envName ∈ names))) ⟨names, asked⟩) ∧
    ∀ n asked, 1 ≤ n →
      (Lifecycle.onHost (engine c) driver (ensureTimes a n)).ComesTo Keeps ⟨names, asked⟩
        (List.replicate n (.ok ())) ⟨insert a.envName names,
          if a.envName ∈ names then asked else asked ++ [a.envName]⟩ := by
  refine ⟨fun listed current hlisted => ?_, fun asked => comesTo_workspaceExists hnames,
    fun n asked hn => ?_⟩
  · rw [Text.Utf8.lossy_encode]
    exact workspaces_listing fun name hname => hnames name (hlisted ▸ List.mem_toFinset.2 hname)
  · obtain ⟨m, rfl⟩ := Nat.exists_eq_add_of_le' hn
    exact comesTo_ensureTimes (w := ⟨names, asked⟩) hnames henv m

namespace Sample

def config : Config where
  source := "/infra"
  scratch := "/scratch"

def action : Lifecycle.Action where
  backend := .workspace
  envName := "two words"

theorem isWorkspaceName_taken : ∀ name ∈ ({"default", "a * b"} : Finset String),
    IsWorkspaceName name := by
  intro name hname
  rcases Finset.mem_insert.1 hname with rfl | hname
  · exact ⟨by decide, by decide, by decide⟩
  · obtain rfl := Finset.mem_singleton.1 hname
    exact ⟨by decide, by decide, by decide⟩

theorem workspace_made_once_fresh :
    (Lifecycle.onHost (engine config) Storage.Nowhere.driver (ensureTimes action 3)).ComesTo Keeps
      ⟨{"default", "a * b"}, []⟩ [.ok (), .ok (), .ok ()]
      ⟨{"two words", "default", "a * b"}, ["two words"]⟩ :=
  (workspace_made_once config Storage.Nowhere.driver action isWorkspaceName_taken
    ⟨by decide, by decide, by decide⟩).2.2 3 [] (by decide)

end Sample

end Provision.Engine.Terraform
