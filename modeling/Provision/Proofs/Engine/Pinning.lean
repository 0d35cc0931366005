import Provision.Proofs.Engine.Terraform
import Provision.Proofs.Host.Environment

/-!
# Commands and the state that they work on

Every call is at most one process. Its command line is told from the call: the words that name the
command, options, and names from outside. Where the engine keeps the state, the workspace of a
command on an environment is that environment, and a workspace is deleted from the default one;
every other command takes the workspace out of its environment. Where the state is a local file,
commands on the state name it.
-/

namespace Provision.Engine.Terraform

open Provision.Host
open Provision.Host.Invocation (Extends finds valueIn_set valueIn_unset)
open Provision.Task (executes_lift_bind executes_lift_ok only_bind only_lift only_pure only_throw)

def Posing (name : String) (d : Dict String) : Prop :=
  ∃ key, Extends name key ∧ (d.get? key).isSome

variable {c : Config} {inherited : Dict String}

theorem equals_notin_workspace : '=' ∉ "TF_WORKSPACE".toList := by decide

theorem fullEnvironment_get? (i : Invocation) (key : String) :
    (i.fullEnvironment inherited).get? key =
      (i.environment.get? key).or ((inherited.get? key).map some) := by
  rw [Invocation.fullEnvironment, Dict.get?_extend, Dict.get?_map]

theorem environment_extends {workspace : Option String} {key : String}
    (h : Extends "TF_WORKSPACE" key) :
    (environment c workspace).get? key = (c.env.get? key).map some := by
  have hne : ∀ name, ¬ Extends "TF_WORKSPACE" name → name ≠ key := by
    rintro name hname rfl
    exact hname h
  have hworkspace := hne "TF_WORKSPACE" (by decide)
  have hautomation := hne "TF_IN_AUTOMATION" (by decide)
  have hinput := hne "TF_INPUT" (by decide)
  rw [environment, Dict.get?_insert, if_neg hworkspace, Dict.get?_extend, Dict.get?_map]
  simp only [Dict.ofList, List.foldl_cons, List.foldl_nil, Dict.get?_insert, if_neg hautomation,
    if_neg hinput, Dict.get?_empty, Option.or_none]

theorem finds_workspace {i : Invocation} {name : String}
    (h : i.environment = environment c (some name)) :
    i.finds inherited "TF_WORKSPACE" = some name := by
  refine valueIn_set equals_notin_workspace ?_
  rw [fullEnvironment_get?, h, workspace_environment]
  rfl

theorem finds_no_workspace {i : Invocation} (h : i.environment = environment c none) :
    i.finds inherited "TF_WORKSPACE" = none ↔
      ¬ Posing "TF_WORKSPACE" inherited ∧ ¬ Posing "TF_WORKSPACE" c.env := by
  have hunset : (i.fullEnvironment inherited).get? "TF_WORKSPACE" = some none := by
    rw [fullEnvironment_get?, h, workspace_environment]
    rfl
  have hother : ∀ key, Extends "TF_WORKSPACE" key → (i.fullEnvironment inherited).get? key =
      ((c.env.get? key).map some).or ((inherited.get? key).map some) := by
    intro key hkey
    rw [fullEnvironment_get?, h, environment_extends hkey]
  rw [finds, valueIn_unset equals_notin_workspace hunset]
  constructor
  · intro hnone
    constructor
    · rintro ⟨key, hkey, hsome⟩
      obtain ⟨value, hvalue⟩ := Option.isSome_iff_exists.1 hsome
      have hget := hother key hkey
      rw [hvalue] at hget
      cases henv : c.env.get? key with
      | none =>
        rw [henv] at hget
        exact hnone key value hkey hget
      | some v =>
        rw [henv] at hget
        exact hnone key v hkey hget
    · rintro ⟨key, hkey, hsome⟩
      obtain ⟨value, hvalue⟩ := Option.isSome_iff_exists.1 hsome
      have hget := hother key hkey
      rw [hvalue] at hget
      exact hnone key value hkey hget
  · rintro ⟨hinherited, henv⟩ key value hkey hget
    have hnothere : c.env.get? key = none :=
      Option.not_isSome_iff_eq_none.1 fun hsome => henv ⟨key, hkey, hsome⟩
    have hnotthere : inherited.get? key = none :=
      Option.not_isSome_iff_eq_none.1 fun hsome => hinherited ⟨key, hkey, hsome⟩
    rw [hother key hkey, hnothere, hnotthere] at hget
    cases hget

def verb : Engine.Call → List String
  | .initBackend _ => ["init"]
  | .initLocal => ["init"]
  | .listWorkspaces => ["workspace", "list"]
  | .newWorkspace _ => ["workspace", "new"]
  | .deleteWorkspace _ => ["workspace", "delete"]
  | .apply _ => ["apply"]
  | .destroy _ => ["destroy"]
  | .pullState _ => ["state", "pull"]
  | .listState _ => ["state", "list"]
  | .adopt _ _ _ => ["import"]
  | .readOutput _ => ["output"]
  | .engineVersion => ["-v"]

def operands : Engine.Call → List String
  | .newWorkspace name => [name]
  | .deleteWorkspace name => [name]
  | .adopt _ address id => [address, id]
  | _ => []

def subject? : Engine.Call → Option String
  | .apply env => some env
  | .destroy env => some env
  | .pullState env => some env
  | .listState env => some env
  | .adopt env _ _ => some env
  | .readOutput env => some env
  | _ => none

def pinned (c : Config) : Engine.Call → Option String
  | .deleteWorkspace _ => some "default"
  | call => if c.stateFile.isSome then none else subject? call

def takesState : Engine.Call → Bool
  | .apply _ => true
  | .destroy _ => true
  | .listState _ => true
  | .adopt _ _ _ => true
  | .readOutput _ => true
  | _ => false

def takesVars : Engine.Call → Bool
  | .apply _ => true
  | .destroy _ => true
  | .adopt _ _ _ => true
  | _ => false

def isOption (start argument : String) : Bool := start.toList.isPrefixOf argument.toList

def varContent (c : Config) : Bytes := Text.Utf8.encode (Json.Value.ofDict c.vars).pretty

/-- The process is the one that the call is to start, after these steps. -/
structure Fits (c : Config) (call : Engine.Call) (before : Journal) (i : Invocation) : Prop where
  program : i.program = c.binary ∧ i.directory = c.source
  workspace : ∀ inherited, match pinned c call with
    | some name => i.finds inherited "TF_WORKSPACE" = some name
    | none => i.finds inherited "TF_WORKSPACE" = none ↔
        ¬ Posing "TF_WORKSPACE" inherited ∧ ¬ Posing "TF_WORKSPACE" c.env
  words : ∃ options, i.arguments = verb call ++ options ++ operands call ∧
    options.filter (isOption "-state=") =
      (if takesState call then (c.stateFile.map fun path => "-state=" ++ path).toList else []) ∧
    options.filter (isOption "-var-file=") =
      (if takesVars call && !c.vars.isEmpty then ["-var-file=" ++ c.varsPath] else [])
  vars : takesVars call && !c.vars.isEmpty → lastWritten c.varsPath before = some (varContent c)

/-- One process is started in the steps, and it fits the call. -/
def Launches (c : Config) (call : Engine.Call) (u : Journal) : Prop :=
  ∃ before i reply after, u = before ++ ⟨.start i, reply⟩ :: after ∧
    (∀ e ∈ before, e.op.IsQuiet) ∧ (∀ e ∈ after, e.op.IsQuiet) ∧ Fits c call before i

/-- Why the call starts nothing: the state is a local file that is read as it is, or that is not
there, or a file that the command needs cannot be written. -/
def Spared (c : Config) : Engine.Call → Journal → Prop
  | .pullState _, _ => c.stateFile.isSome
  | .listState _, u => ∃ path, c.stateFile = some path ∧ ⟨.isFile path, false⟩ ∈ u
  | .readOutput _, u => ∃ path, c.stateFile = some path ∧ ⟨.isFile path, false⟩ ∈ u
  | .initBackend _, u => c.backendType = none ∨ ∃ content fault,
      ⟨.writeFile c.overridePath content, (.error fault : Except Fault Unit)⟩ ∈ u
  | .apply _, u => ∃ fault,
      ⟨.writeFile c.varsPath (varContent c), (.error fault : Except Fault Unit)⟩ ∈ u
  | .destroy _, u => ∃ fault,
      ⟨.writeFile c.varsPath (varContent c), (.error fault : Except Fault Unit)⟩ ∈ u
  | .adopt _ _ _, u => ∃ fault,
      ⟨.writeFile c.varsPath (varContent c), (.error fault : Except Fault Unit)⟩ ∈ u
  | _, _ => False

def IsLog : Request → Prop
  | .log _ => True
  | _ => False

def Ran (c : Config) (arguments : List String) (workspace : Option String) (u : Journal) : Prop :=
  ∃ line reply after,
    u = ⟨.log line, ()⟩ :: ⟨.start (invocation c arguments workspace), reply⟩ :: after ∧
      ∀ e ∈ after, IsLog e.op

variable {arguments : List String} {workspace : Option String} {u : Journal}

theorem ran_bind {α : Type} {f : Printed → Command α} (hf : ∀ printed, (f printed).run.Only IsLog)
    {r : Except Lifecycle.Error α} (h : (run c arguments workspace >>= f).run.Executes u r) :
    Ran c arguments workspace u := by
  rcases Task.executes_bind.1 h with ⟨_, hrun, -⟩ | ⟨_, after, printed, hrun, hafter, rfl⟩
  · obtain ⟨line, reply, rfl⟩ := journal_run hrun
    exact ⟨line, reply, [], rfl, fun _ he => absurd he List.not_mem_nil⟩
  · obtain ⟨line, reply, rfl⟩ := journal_run hrun
    exact ⟨line, reply, after, rfl, (hf printed).executes hafter⟩

theorem ran_runLogged {r : Except Lifecycle.Error Unit}
    (h : (runLogged c arguments workspace).run.Executes u r) : Ran c arguments workspace u :=
  ran_bind (fun _ => only_lift (only_echo (fun _ => trivial) _)) h

theorem ran_newWorkspace {name : String} {r : Except Lifecycle.Error Unit}
    (h : (newWorkspace c name).run.Executes u r) : Ran c ["workspace", "new", name] none u := by
  rcases Task.executes_bind.1 h with ⟨_, hrun, -⟩ | ⟨_, _, _, hrun, hpure, rfl⟩
  · obtain ⟨_, hrun, -⟩ := Task.executes_mapError.1 hrun
    obtain ⟨line, reply, rfl⟩ := journal_run hrun
    exact ⟨line, reply, [], rfl, fun _ he => absurd he List.not_mem_nil⟩
  · obtain ⟨_, hrun, -⟩ := Task.executes_mapError.1 hrun
    obtain ⟨line, reply, rfl⟩ := journal_run hrun
    obtain ⟨rfl, -⟩ := Task.executes_pure.1 hpure
    exact ⟨line, reply, [], rfl, fun _ he => absurd he List.not_mem_nil⟩

theorem quiet_nil : ∀ e ∈ ([] : Journal), e.op.IsQuiet := fun _ he => absurd he List.not_mem_nil

theorem quiet_one {d : Event effects} (h : d.op.IsQuiet) : ∀ e ∈ [d], e.op.IsQuiet := by
  intro e he
  obtain rfl := List.mem_singleton.1 he
  exact h

theorem quiet_of_log {r : Request} (h : IsLog r) : r.IsQuiet := by
  rintro i rfl
  exact h

theorem Ran.mem (h : Ran c arguments workspace u) {e : Event effects} (he : e ∈ u) :
    IsLog e.op ∨ ¬ e.op.IsQuiet := by
  obtain ⟨line, reply, after, rfl, hafter⟩ := h
  rcases List.mem_cons.1 he with rfl | he
  · exact .inl trivial
  · rcases List.mem_cons.1 he with rfl | he
    · exact .inr fun hquiet => hquiet _ rfl
    · exact .inl (hafter e he)

theorem Ran.writes_nothing (h : Ran c arguments workspace u) {path : String} {content : Bytes}
    {reply : Except Fault Unit} : ⟨.writeFile path content, reply⟩ ∉ u := by
  intro he
  rcases h.mem he with hlog | hstart
  · exact hlog
  · exact hstart nofun

theorem Ran.looks_for_nothing (h : Ran c arguments workspace u) {path : String} {found : Bool} :
    ⟨.isFile path, found⟩ ∉ u := by
  intro he
  rcases h.mem he with hlog | hstart
  · exact hlog
  · exact hstart nofun

theorem Ran.launches {call : Engine.Call} (h : Ran c arguments workspace u) {before : Journal}
    (hbefore : ∀ e ∈ before, e.op.IsQuiet)
    (hfits : ∀ line, Fits c call (before ++ [⟨.log line, ()⟩])
      (invocation c arguments workspace)) : Launches c call (before ++ u) := by
  obtain ⟨line, reply, after, rfl, hafter⟩ := h
  refine ⟨before ++ [⟨.log line, ()⟩], _, reply, after, by simp, fun e he => ?_, fun e he => ?_,
    hfits line⟩
  · rcases List.mem_append.1 he with he | he
    · exact hbefore e he
    · exact quiet_one (by nofun) e he
  · exact quiet_of_log (hafter e he)

theorem isOption_self (start s : String) : isOption start (start ++ s) = true := by
  rw [isOption, String.toList_append, List.isPrefixOf_iff_prefix]
  exact List.prefix_append _ _

theorem isOption_other {start other : String} (s : String)
    (h : ∀ l, start.toList.isPrefixOf (other.toList ++ l) = false) :
    isOption start (other ++ s) = false := by
  rw [isOption, String.toList_append]
  exact h _

theorem filter_stateArguments : (stateArguments c).filter (isOption "-state=") =
    (c.stateFile.map fun path => "-state=" ++ path).toList := by
  rw [stateArguments]
  cases c.stateFile with
  | none => rfl
  | some path => exact List.filter_cons_of_pos (isOption_self _ _)

theorem filter_var_stateArguments : (stateArguments c).filter (isOption "-var-file=") = [] := by
  rw [stateArguments]
  cases c.stateFile with
  | none => rfl
  | some path =>
    have hother : isOption "-var-file=" ("-state=" ++ path) = false :=
      isOption_other path fun _ => rfl
    simp [hother]

theorem filter_moduleArguments {start : String}
    (h : ∀ l, start.toList.isPrefixOf ("-module=".toList ++ l) = false) :
    (moduleArguments c).filter (isOption start) = [] := by
  rw [moduleArguments]
  cases c.outputModule with
  | none => rfl
  | some name => simp [isOption_other name h]

theorem filter_backendArguments {start : String}
    (h : ∀ l, start.toList.isPrefixOf (backendOption.toList ++ l) = false) :
    (backendArguments c).filter (isOption start) = [] := by
  refine List.filter_eq_nil_iff.2 fun argument hargument => ?_
  obtain ⟨e, -, rfl⟩ := List.mem_map.1 hargument
  rw [String.append_assoc, String.append_assoc, isOption_other _ h]
  exact Bool.false_ne_true

def Settled (c : Config) (call : Engine.Call) (u : Journal) : Prop :=
  (Spared c call u ∧ ∀ e ∈ u, e.op.IsQuiet) ∨ (¬ Spared c call u ∧ Launches c call u)

theorem fits {call : Engine.Call} {before : Journal} (options : List String)
    (harguments : arguments = verb call ++ options ++ operands call)
    (hstate : options.filter (isOption "-state=") =
      if takesState call then (c.stateFile.map fun path => "-state=" ++ path).toList else [])
    (hvars : options.filter (isOption "-var-file=") =
      if takesVars call && !c.vars.isEmpty then ["-var-file=" ++ c.varsPath] else [])
    (hwritten : takesVars call && !c.vars.isEmpty →
      lastWritten c.varsPath before = some (varContent c)) :
    Fits c call before (invocation c arguments (pinned c call)) where
  program := ⟨rfl, rfl⟩
  workspace inherited := by
    cases hpinned : pinned c call with
    | some name => exact finds_workspace rfl
    | none => exact finds_no_workspace rfl
  words := ⟨options, harguments, hstate, hvars⟩
  vars := hwritten

theorem pinned_eq_workspaceOf {call : Engine.Call} {env : String} (h : subject? call = some env) :
    pinned c call = workspaceOf c env := by
  have hpinned : pinned c call = if c.stateFile.isSome then none else some env := by
    cases call <;> cases h <;> rfl
  rw [hpinned, workspaceOf, Config.mode]
  cases c.stateFile <;> rfl

theorem pinned_eq_none {call : Engine.Call} (h : subject? call = none)
    (hdelete : ∀ name, call ≠ .deleteWorkspace name) : pinned c call = none := by
  have hpinned : pinned c call = if c.stateFile.isSome then none else none := by
    cases call with
    | deleteWorkspace name => exact absurd rfl (hdelete name)
    | _ => cases h <;> rfl
  rw [hpinned, ite_self]

theorem settled_of_ran {call : Engine.Call} (before : Journal)
    (h : Ran c arguments workspace u) (hpinned : pinned c call = workspace)
    (options : List String) (hbefore : ∀ e ∈ before, e.op.IsQuiet)
    (hspared : ¬ Spared c call (before ++ u))
    (harguments : arguments = verb call ++ options ++ operands call)
    (hstate : options.filter (isOption "-state=") =
      if takesState call then (c.stateFile.map fun path => "-state=" ++ path).toList else [])
    (hvars : options.filter (isOption "-var-file=") = []) (hnone : takesVars call = false) :
    Settled c call (before ++ u) := by
  subst hpinned
  refine .inr ⟨hspared, h.launches hbefore fun line => fits options harguments hstate ?_ ?_⟩
  · rw [hvars, hnone]
    rfl
  · rw [hnone]
    exact nofun

theorem executes_varArguments {r : Except Lifecycle.Error (List String)}
    (h : (varArguments c).run.Executes u r) :
    (c.vars.isEmpty = true ∧ u = [] ∧ r = .ok []) ∨
    (c.vars.isEmpty = false ∧
      u = [⟨.writeFile c.varsPath (varContent c), (.ok () : Except Fault Unit)⟩] ∧
      r = .ok ["-var-file=" ++ c.varsPath]) ∨
    ∃ fault e, u = [⟨.writeFile c.varsPath (varContent c), (.error fault : Except Fault Unit)⟩] ∧
      r = .error e := by
  unfold varArguments at h
  split at h
  · next hempty =>
    obtain ⟨rfl, rfl⟩ := Task.executes_pure.1 h
    exact .inl ⟨hempty, rfl, rfl⟩
  · next hempty =>
    obtain ⟨_, _, reply, hwrite, hrest, rfl⟩ := executes_lift_bind.1 h
    obtain rfl := Program.executes_one.1 hwrite
    cases reply with
    | ok _ =>
      obtain ⟨rfl, rfl⟩ := Task.executes_pure.1 hrest
      exact .inr (.inl ⟨Bool.eq_false_iff.2 hempty, rfl, rfl⟩)
    | error fault =>
      obtain ⟨rfl, rfl⟩ := Task.executes_throw.1 hrest
      exact .inr (.inr ⟨fault, _, rfl, rfl⟩)

section WithVars

variable {call : Engine.Call} {env : String} {words : List String → List String}

theorem launches_withVars {fixed vars : List String} {before v : Journal}
    (hsubject : subject? call = some env)
    (htakes : takesVars call = true ∧ takesState call = true)
    (hwords : words vars = verb call ++ (fixed ++ vars ++ stateArguments c) ++ operands call)
    (hfixed : fixed.filter (isOption "-state=") = [] ∧ fixed.filter (isOption "-var-file=") = [])
    (hran : Ran c (words vars) (workspaceOf c env) v) (hbefore : ∀ e ∈ before, e.op.IsQuiet)
    (hstate : vars.filter (isOption "-state=") = [])
    (hvars : vars.filter (isOption "-var-file=") =
      if !c.vars.isEmpty then ["-var-file=" ++ c.varsPath] else [])
    (hwritten : !c.vars.isEmpty → ∀ line,
      lastWritten c.varsPath (before ++ [⟨.log line, ()⟩]) = some (varContent c)) :
    Launches c call (before ++ v) := by
  rw [← pinned_eq_workspaceOf hsubject] at hran
  refine hran.launches hbefore fun line =>
    fits (fixed ++ vars ++ stateArguments c) hwords ?_ ?_ ?_
  · rw [List.filter_append, List.filter_append, hfixed.1, hstate, filter_stateArguments,
      htakes.2]
    rfl
  · rw [List.filter_append, List.filter_append, hfixed.2, hvars, filter_var_stateArguments,
      htakes.1]
    simp
  · rw [htakes.1]
    exact fun hne => hwritten hne line

theorem settled_withVars (fixed : List String) (hsubject : subject? call = some env)
    (htakes : takesVars call = true ∧ takesState call = true)
    (hspared : ∀ v : Journal, Spared c call v ↔ ∃ fault,
      ⟨.writeFile c.varsPath (varContent c), (.error fault : Except Fault Unit)⟩ ∈ v)
    (hwords : ∀ vars, words vars =
      verb call ++ (fixed ++ vars ++ stateArguments c) ++ operands call)
    (hfixed : fixed.filter (isOption "-state=") = [] ∧ fixed.filter (isOption "-var-file=") = [])
    {r : Except Lifecycle.Error Unit}
    (h : (varArguments c >>= fun vars =>
      runLogged c (words vars) (workspaceOf c env)).run.Executes u r) : Settled c call u := by
  rcases Task.executes_bind.1 h with ⟨_, hvars, -⟩ | ⟨before, v, vars, hvars, hrun, rfl⟩
  · rcases executes_varArguments hvars with ⟨-, -, heq⟩ | ⟨-, -, heq⟩ | ⟨fault, e, rfl, -⟩
    · cases heq
    · cases heq
    · exact .inl ⟨(hspared _).2 ⟨fault, List.mem_singleton_self _⟩, quiet_one nofun⟩
  · have hran := ran_runLogged hrun
    rcases executes_varArguments hvars with ⟨hempty, rfl, heq⟩ | ⟨hempty, rfl, heq⟩ | ⟨_, _, -, heq⟩
    · cases heq
      refine .inr ⟨fun hs => ?_, launches_withVars hsubject htakes (hwords []) hfixed hran quiet_nil
        rfl ?_ ?_⟩
      · obtain ⟨fault, he⟩ := (hspared _).1 hs
        exact hran.writes_nothing he
      · rw [hempty]
        rfl
      · rw [hempty]
        exact nofun
    · cases heq
      refine .inr ⟨fun hs => ?_, launches_withVars hsubject htakes (hwords _) hfixed hran
        (quiet_one nofun) ?_ ?_ fun _ line => ?_⟩
      · obtain ⟨fault, he⟩ := (hspared _).1 hs
        rcases List.mem_append.1 he with he | he
        · cases List.mem_singleton.1 he
        · exact hran.writes_nothing he
      · have hother : isOption "-state=" ("-var-file=" ++ c.varsPath) = false :=
          isOption_other _ fun _ => rfl
        simp [hother]
      · rw [hempty]
        exact List.filter_cons_of_pos (isOption_self _ _)
      · refine lastWritten_write (j := []) fun e he => ?_
        obtain rfl := List.mem_singleton.1 he
        rfl
    · cases heq

end WithVars

theorem executes_writeOverride {backendType : String} {r : Except Lifecycle.Error Unit}
    (h : (writeOverride c backendType).run.Executes u r) :
    ∃ content reply, u = [⟨.writeFile c.overridePath content, reply⟩] ∧
      ((∃ fault e, reply = .error fault ∧ r = .error e) ∨ reply = .ok () ∧ r = .ok ()) := by
  obtain ⟨_, _, reply, hwrite, hrest, rfl⟩ := executes_lift_bind.1 h
  obtain rfl := Program.executes_one.1 hwrite
  cases reply with
  | ok _ =>
    obtain ⟨rfl, rfl⟩ := Task.executes_pure.1 hrest
    exact ⟨_, _, rfl, .inr ⟨rfl, rfl⟩⟩
  | error fault =>
    obtain ⟨rfl, rfl⟩ := Task.executes_throw.1 hrest
    exact ⟨_, _, rfl, .inl ⟨fault, _, rfl, rfl⟩⟩

theorem settled_initBackend {env : String} {r : Except Lifecycle.Error Unit}
    (h : (initBackend c env).run.Executes u r) : Settled c (.initBackend env) u := by
  unfold initBackend at h
  split at h
  · next hnone =>
    obtain ⟨rfl, -⟩ := Task.executes_throw.1 h
    exact .inl ⟨.inl hnone, quiet_nil⟩
  · next backendType hsome =>
    rcases Task.executes_bind.1 h with ⟨_, hwrite, -⟩ | ⟨_, _, _, hwrite, hrest, rfl⟩
    · obtain ⟨content, _, rfl, ⟨fault, _, rfl, -⟩ | ⟨-, heq⟩⟩ := executes_writeOverride hwrite
      · exact .inl ⟨.inr ⟨content, fault, List.mem_singleton_self _⟩, quiet_one nofun⟩
      · cases heq
    · obtain ⟨content, _, rfl, ⟨_, _, -, heq⟩ | ⟨rfl, -⟩⟩ := executes_writeOverride hwrite
      · cases heq
      obtain ⟨_, _, _, hlog, hrun, rfl⟩ := executes_lift_bind.1 hrest
      obtain rfl := Program.executes_one.1 hlog
      have hran := ran_bind (fun _ => only_pure) hrun
      rw [← List.append_assoc]
      refine settled_of_ran _ hran (pinned_eq_none rfl nofun)
        (["-input=false", "-no-color", "-reconfigure", "-get=true"] ++ backendArguments c)
        (fun e he => ?_) ?_ ?_ ?_ ?_ rfl
      · rcases List.mem_cons.1 he with rfl | he
        · exact nofun
        · exact quiet_one (by nofun) e he
      · rintro (hnone | ⟨_, _, he⟩)
        · cases hsome.symm.trans hnone
        · rcases List.mem_append.1 he with he | he
          · rcases List.mem_cons.1 he with heq | he
            · cases heq
            · cases List.mem_singleton.1 he
          · exact hran.writes_nothing he
      · simp [verb, operands]
      · rw [List.filter_append, filter_backendArguments fun _ => rfl]
        rfl
      · rw [List.filter_append, filter_backendArguments fun _ => rfl]
        rfl

theorem settled_pullState {env : String} {r : Except Lifecycle.Error Bytes}
    (h : (pullState c env).run.Executes u r) : Settled c (.pullState env) u := by
  unfold pullState at h
  split at h
  · next path hsome =>
    refine .inl ⟨by rw [Spared, hsome]; rfl, ?_⟩
    obtain ⟨_, _, reply, hread, hrest, rfl⟩ := executes_lift_bind.1 h
    obtain rfl := Program.executes_one.1 hread
    obtain rfl : _ = [] := by
      cases reply with
      | ok content => exact (Task.executes_pure.1 hrest).1
      | error fault => exact (Task.executes_throw.1 hrest).1
    exact quiet_one nofun
  · next hnone =>
    refine settled_of_ran [] (ran_bind (fun _ => only_pure) h) (pinned_eq_workspaceOf rfl) []
      quiet_nil ?_ rfl rfl rfl rfl
    rw [Spared, hnone]
    exact Bool.false_ne_true

theorem executes_stateMissing {missing : Bool} (h : (stateMissing c).Executes u missing) :
    (c.stateFile = none ∧ u = [] ∧ missing = false) ∨
    ∃ path, c.stateFile = some path ∧ u = [⟨.isFile path, !missing⟩] := by
  unfold stateMissing at h
  split at h
  · next hnone =>
    obtain ⟨rfl, rfl⟩ := Program.executes_done.1 h
    exact .inl ⟨hnone, rfl, rfl⟩
  · next path hsome =>
    obtain ⟨_, _, found, hfound, hdone, rfl⟩ := Program.executes_bind.1 h
    obtain rfl := Program.executes_one.1 hfound
    obtain ⟨rfl, rfl⟩ := Program.executes_done.1 hdone
    exact .inr ⟨path, hsome, by rw [Bool.not_not]; rfl⟩

theorem settled_reading {α : Type} {call : Engine.Call} {env : String} (options : List String)
    (hsubject : subject? call = some env)
    (htakes : takesVars call = false ∧ takesState call = true)
    (hspared : ∀ v : Journal, Spared c call v ↔
      ∃ path, c.stateFile = some path ∧ ⟨.isFile path, false⟩ ∈ v)
    (harguments : arguments = verb call ++ options ++ operands call)
    (hstate : options.filter (isOption "-state=") =
      (c.stateFile.map fun path => "-state=" ++ path).toList)
    (hvars : options.filter (isOption "-var-file=") = [])
    {absent : α} {f : Printed → Command α} (hf : ∀ printed, (f printed).run.Only IsLog)
    {r : Except Lifecycle.Error α}
    (h : (do
      if ← Task.lift (stateMissing c) then return absent
      let printed ← run c arguments (workspaceOf c env)
      f printed : Command α).run.Executes u r) : Settled c call u := by
  obtain ⟨before, v, missing, hmissing, hrest, rfl⟩ := executes_lift_bind.1 h
  have hlook := executes_stateMissing hmissing
  cases missing with
  | true =>
    obtain ⟨rfl, -⟩ := Task.executes_pure.1 hrest
    obtain ⟨-, -, hfalse⟩ | ⟨path, hsome, rfl⟩ := hlook
    · cases hfalse
    · exact .inl ⟨(hspared _).2 ⟨path, hsome, List.mem_singleton_self _⟩, quiet_one nofun⟩
  | false =>
    have hran := ran_bind hf hrest
    refine settled_of_ran _ hran (pinned_eq_workspaceOf hsubject) options (fun e he => ?_)
      (fun hs => ?_) harguments ?_ hvars htakes.1
    · obtain ⟨-, rfl, -⟩ | ⟨path, -, rfl⟩ := hlook
      · cases he
      · exact quiet_one (by nofun) e he
    · obtain ⟨path, hsome, he⟩ := (hspared _).1 hs
      rcases List.mem_append.1 he with he | he
      · obtain ⟨-, rfl, -⟩ | ⟨_, -, rfl⟩ := hlook
        · cases he
        · cases List.mem_singleton.1 he
      · exact hran.looks_for_nothing he
    · rw [hstate, htakes.2]
      rfl

theorem settled_engine {call : Engine.Call} {reply : call.Reply}
    (h : (engine c call).Executes u reply) : Settled c call u := by
  cases call with
  | initBackend env => exact settled_initBackend h
  | initLocal =>
    exact settled_of_ran [] (ran_bind (fun _ => only_pure) h) (pinned_eq_none rfl nofun)
      ["-input=false", "-no-color", "-backend=false", "-get=true"] quiet_nil nofun rfl rfl rfl rfl
  | listWorkspaces =>
    exact settled_of_ran [] (ran_bind (fun _ => only_pure) h) (pinned_eq_none rfl nofun) []
      quiet_nil nofun rfl rfl rfl rfl
  | newWorkspace name =>
    exact settled_of_ran [] (ran_newWorkspace h) (pinned_eq_none rfl nofun) [] quiet_nil nofun rfl
      rfl rfl rfl
  | deleteWorkspace name =>
    exact settled_of_ran [] (ran_bind (fun _ => only_pure) h) rfl [] quiet_nil nofun rfl rfl rfl rfl
  | apply env =>
    exact settled_withVars ["-auto-approve", "-input=false", "-no-color"] rfl ⟨rfl, rfl⟩
      (fun _ => Iff.rfl) (fun vars => by simp [verb, operands]) ⟨rfl, rfl⟩ h
  | destroy env =>
    exact settled_withVars ["-auto-approve", "-input=false", "-no-color"] rfl ⟨rfl, rfl⟩
      (fun _ => Iff.rfl) (fun vars => by simp [verb, operands]) ⟨rfl, rfl⟩ h
  | pullState env => exact settled_pullState h
  | listState env =>
    exact settled_reading (stateArguments c) rfl ⟨rfl, rfl⟩ (fun _ => Iff.rfl)
      (List.append_nil _).symm filter_stateArguments filter_var_stateArguments
      (fun _ => only_pure) h
  | adopt env address id =>
    exact settled_withVars ["-input=false", "-no-color"] rfl ⟨rfl, rfl⟩ (fun _ => Iff.rfl)
      (fun vars => by simp [verb, operands]) ⟨rfl, rfl⟩ h
  | readOutput env =>
    refine settled_reading (["-json", "-no-color"] ++ stateArguments c ++ moduleArguments c) rfl
      ⟨rfl, rfl⟩ (fun _ => Iff.rfl) (by simp [verb, operands]) ?_ ?_ (fun printed => ?_) h
    · rw [List.filter_append, List.filter_append, filter_stateArguments,
        filter_moduleArguments fun _ => rfl, List.append_nil]
      rfl
    · rw [List.filter_append, List.filter_append, filter_var_stateArguments,
        filter_moduleArguments fun _ => rfl]
      rfl
    · cases Reply.outputs? printed.output with
      | some outputs => exact only_pure
      | none => exact only_throw
  | engineVersion =>
    refine settled_of_ran [] (ran_bind (fun printed => ?_) h) (pinned_eq_none rfl nofun) []
      quiet_nil nofun rfl rfl rfl rfl
    cases Reply.version? printed.text with
    | some version => exact only_pure
    | none => exact only_throw

/-- A call starts the one process that fits it, or there is a reason to start none. -/
theorem processes_pinned {c : Config} {call : Engine.Call} {u : Journal} {reply : call.Reply}
    (h : (engine c call).Executes u reply) :
    (Spared c call u → ∀ e ∈ u, e.op.IsQuiet) ∧ (¬ Spared c call u → Launches c call u) := by
  rcases settled_engine h with ⟨hspared, hquiet⟩ | ⟨hneeded, hlaunches⟩
  · exact ⟨fun _ => hquiet, fun hneeded => absurd hspared hneeded⟩
  · exact ⟨fun hspared => absurd hspared hneeded, fun _ => hlaunches⟩

namespace Sample

def finished : Finished := ⟨.code 0, [], []⟩

def steps (c : Config) (arguments : List String) (workspace : Option String) : Journal :=
  [⟨.log ⟨.debug, "Running: " ++ displayCommand arguments⟩, ()⟩,
    ⟨.start (invocation c arguments workspace), (.ok finished : Except Fault Finished)⟩]

theorem executes_finished (c : Config) (arguments : List String) (workspace : Option String) :
    (run c arguments workspace).run.Executes (steps c arguments workspace) (.ok ⟨[], ""⟩) := by
  refine Task.executes_bind.2 (.inr ⟨[_], [_], (), ?_, ?_, rfl⟩)
  · exact executes_lift_ok.2 (Program.executes_one.2 rfl)
  refine Task.executes_bind.2 (.inr ⟨[_], [], .ok finished, ?_, Program.Executes.done _, rfl⟩)
  exact executes_lift_ok.2 (Program.executes_one.2 rfl)

def prod : Config where
  source := "/infra"
  scratch := "/scratch"
  vars := Dict.ofList [("size", .string "m")]
  env := Dict.ofList [("TF_WORKSPACE", "other")]
  backendType := some "s3"

def applies : Journal :=
  ⟨.writeFile prod.varsPath (varContent prod), (.ok () : Except Fault Unit)⟩ ::
    steps prod (["apply", "-auto-approve", "-input=false", "-no-color"] ++
      ["-var-file=" ++ prod.varsPath] ++ stateArguments prod) (some "prod")

theorem executes_applies : (engine prod (.apply "prod")).Executes applies (.ok ()) := by
  refine Task.executes_bind.2 (.inr ⟨[_], _, ["-var-file=" ++ prod.varsPath], ?_, ?_, rfl⟩)
  · refine Task.executes_bind.2 (.inr ⟨[_], [], .ok (), ?_, .done _, rfl⟩)
    exact executes_lift_ok.2 (Program.executes_one.2 rfl)
  · refine Task.executes_bind.2
      (.inr ⟨_, [], _, executes_finished _ _ _, ?_, (List.append_nil _).symm⟩)
    exact Task.executes_lift.2 ⟨(), .done _, rfl⟩

theorem processes_pinned_apply :
    ∃ before i reply after,
      (engine prod (.apply "prod")).Executes (before ++ ⟨.start i, reply⟩ :: after) (.ok ()) ∧
        i.finds {} "TF_WORKSPACE" = some "prod" ∧
        lastWritten prod.varsPath before = some (varContent prod) := by
  have hneeded : ¬ Spared prod (.apply "prod") applies := by
    rintro ⟨fault, he⟩
    simp [applies, steps] at he
  obtain ⟨before, i, reply, after, heq, -, -, hfits⟩ :=
    (processes_pinned executes_applies).2 hneeded
  exact ⟨before, i, reply, after, heq ▸ executes_applies, hfits.workspace {},
    hfits.vars (by decide)⟩

def posing : Config where
  source := "/infra"
  scratch := "/scratch"
  env := Dict.ofList [("TF_WORKSPACE=x", "y")]
  backendType := some "s3"

/-- The workspace is meant to be unset, and the process finds one. -/
theorem posing_workspace :
    posing.validateMode = .ok () ∧ pinned posing .listWorkspaces = none ∧
      ∃ u i reply, (engine posing .listWorkspaces).Executes u (.ok []) ∧
        ⟨.start i, reply⟩ ∈ u ∧ i.finds {} "TF_WORKSPACE" = some "x=y" := by
  refine ⟨rfl, rfl, _, invocation posing ["workspace", "list"] none, .ok finished,
    Task.executes_bind.2 (.inr ⟨_, _, _, executes_finished _ _ _, .done _, rfl⟩), ?_, by decide⟩
  simp [steps]

end Sample

end Provision.Engine.Terraform
