import Provision.Lifecycle.Action
import Provision.Proofs.Execution

/-!
# The record of a run

What the steps of a run tell afterwards: which calls were made, how they ended, and which steps
failed with what error. A pulled state document without a usable serial counts as a failure of
the pull.
-/

namespace Provision.Lifecycle

/-- The steps of a run in their order, each with its reply. -/
abbrev Record : Type := List (Event steps)

def errorOf {ε α : Type} : Except ε α → Option ε
  | .error e => some e
  | .ok _ => none

theorem eq_error {ε α : Type} {r : Except ε α} {e : ε} (h : errorOf r = some e) :
    r = .error e := by
  cases r with
  | error _ => exact congrArg _ (Option.some.inj h)
  | ok _ => cases h

theorem exists_error {ε α : Type} {r : Except ε α} (h : (errorOf r).isSome = true) :
    ∃ e, r = .error e := by
  obtain ⟨e, he⟩ := Option.isSome_iff_exists.1 h
  exact ⟨e, eq_error he⟩

theorem exists_ok {ε α : Type} {r : Except ε α} (h : (errorOf r).isNone = true) :
    ∃ a, r = .ok a := by
  cases r with
  | ok a => exact ⟨a, rfl⟩
  | error e => cases h

def unreadableCopy (path : String) (fault : Host.Fault) : Storage.Error :=
  .io ("Failed to read state file '" ++ path ++ "': " ++ fault.message)

def unwritableCopy (path : String) (fault : Host.Fault) : Storage.Error :=
  .io ("Failed to write state file to '" ++ path ++ "': " ++ fault.message)

def unmadeDirectory (fault : Host.Fault) : Storage.Error := .io fault.message

namespace Record

def ofEngine (c : Engine.Call) (reply : c.Reply) : Event steps := ⟨.engine c, reply⟩

def ofStorage (c : Storage.Call) (reply : c.Reply) : Event steps := ⟨.storage c, reply⟩

def ofHost (q : Host.Request) (reply : q.Reply) : Event steps := ⟨.host q, reply⟩

def ofLog (level : Host.Level) (message : String) : Event steps :=
  ofHost (.log ⟨level, message⟩) ()

def IsLog : Event steps → Prop
  | ⟨.host (.log _), _⟩ => True
  | _ => False

def engineError : (c : Engine.Call) → c.Reply → Option Error
  | .initBackend _, r => errorOf r
  | .initLocal, r => errorOf r
  | .listWorkspaces, r => errorOf r
  | .newWorkspace _, r => errorOf r
  | .deleteWorkspace _, r => errorOf r
  | .apply _, r => errorOf r
  | .destroy _, r => errorOf r
  | .pullState _, r => errorOf (r.bind parseSerial)
  | .listState _, r => errorOf r
  | .adopt _ _ _, r => errorOf r
  | .readOutput _, r => errorOf r
  | .engineVersion, r => errorOf r

def storageError : (c : Storage.Call) → c.Reply → Option Storage.Error
  | .upload _ _, r => errorOf r
  | .download _, r => errorOf r
  | .version _, r => errorOf r
  | .delete _, r => errorOf r

def hostError : (q : Host.Request) → q.Reply → Option Storage.Error
  | .makeDirectories _, r => (errorOf r).map unmadeDirectory
  | .writeFile path _, r => (errorOf r).map (unwritableCopy path)
  | .readFile path, r => (errorOf r).map (unreadableCopy path)
  | _, _ => none

/-- The error of a step that failed, in the terms of a run. -/
def failure? : Event steps → Option Error
  | ⟨.engine c, r⟩ => engineError c r
  | ⟨.storage c, r⟩ => (storageError c r).map .ofStorage
  | ⟨.host q, r⟩ => (hostError q r).map .ofStorage

def applied? : Event steps → Option (Except Error Unit)
  | ⟨.engine (.apply _), r⟩ => some r
  | _ => none

def destroyed? : Event steps → Option (Except Error Unit)
  | ⟨.engine (.destroy _), r⟩ => some r
  | _ => none

def dropped? : Event steps → Option (Except Error Unit)
  | ⟨.engine (.deleteWorkspace _), r⟩ => some r
  | ⟨.storage (.delete _), r⟩ => some (r.mapError .ofStorage)
  | _ => none

def uploaded? : Event steps → Option (Except Storage.Error Storage.ObjectVersion)
  | ⟨.storage (.upload _ _), r⟩ => some r
  | _ => none

def pulled? : Event steps → Option (Except Error Nat)
  | ⟨.engine (.pullState _), r⟩ => some (r.bind parseSerial)
  | _ => none

def output? : Event steps → Option (Except Error Outputs)
  | ⟨.engine (.readOutput _), r⟩ => some r
  | _ => none

def adopted? : Event steps → Option String
  | ⟨.engine (.adopt _ address _), _⟩ => some address
  | _ => none

def listed? : Event steps → Option (List String)
  | ⟨.engine (.listState _), .ok tracked⟩ => some tracked
  | _ => none

theorem filterMap_snoc_none {α : Type} {f : Event steps → Option α} {t : Record} {e : Event steps}
    (h : f e = none) : (t ++ [e]).filterMap f = t.filterMap f := by
  rw [List.filterMap_append, List.filterMap_cons_none h, List.filterMap_nil, List.append_nil]

theorem filterMap_snoc_some {α : Type} {f : Event steps → Option α} {t : Record} {e : Event steps}
    {x : α} (h : f e = some x) : (t ++ [e]).filterMap f = t.filterMap f ++ [x] := by
  rw [List.filterMap_append, List.filterMap_cons_some h, List.filterMap_nil]

theorem filterMap_snoc_first {α : Type} {f : Event steps → Option α} {t : Record} {e : Event steps}
    {x : α} (ht : t.filterMap f = []) (h : f e = some x) : (t ++ [e]).filterMap f = [x] := by
  rw [filterMap_snoc_some h, ht, List.nil_append]

abbrev failures (t : Record) : List Error := t.filterMap failure?

/-- How the applies of the engine ended. -/
abbrev applies (t : Record) : List (Except Error Unit) := t.filterMap applied?

abbrev destroys (t : Record) : List (Except Error Unit) := t.filterMap destroyed?

abbrev drops (t : Record) : List (Except Error Unit) := t.filterMap dropped?

abbrev uploads (t : Record) : List (Except Storage.Error Storage.ObjectVersion) :=
  t.filterMap uploaded?

abbrev serials (t : Record) : List (Except Error Nat) := t.filterMap pulled?

abbrev outputs (t : Record) : List (Except Error Outputs) := t.filterMap output?

abbrev adoptions (t : Record) : List String := t.filterMap adopted?

abbrev listings (t : Record) : List (List String) := t.filterMap listed?

end Record

theorem executes_log_then {α : Type} {level : Host.Level} {message : String} {g : Unit → Run α}
    {t : Record} {x : α} (h : (log level message >>= g).Executes t x) :
    ∃ u, t = Record.ofLog level message :: u ∧ (g ()).Executes u x := by
  obtain ⟨_, u, _, hlog, hrest, rfl⟩ := Program.executes_bind.1 h
  obtain rfl := Program.executes_one.1 hlog
  exact ⟨u, rfl, hrest⟩

end Provision.Lifecycle
