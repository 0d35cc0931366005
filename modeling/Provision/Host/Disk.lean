import Provision.Host.Fault
import Provision.Host.Path
import Provision.Text.Utf8

/-!
# A disk

A disk binds locations, lists of names from the root, to files and directories. Operations
take a path as written, resolve it from a current directory, and fail exactly when the path
forces it: there are no links, no permissions and no limits but those on the length of names
and paths. `lookup_put` and `lookup_erase` say all that a change does.
-/

namespace Provision.Host

inductive Entry where
  | file (content : Bytes)
  | directory
deriving DecidableEq, Inhabited

/-- Names from the root down; the root itself is the empty list. -/
abbrev Location : Type := List String

structure Disk where
  entries : List (Location × Entry)
deriving Inhabited

namespace Disk

def find (l : Location) : List (Location × Entry) → Option Entry
  | [] => none
  | (k, e) :: rest => if k = l then some e else find l rest

def lookup (d : Disk) (l : Location) : Option Entry :=
  if l = [] then some .directory else find l d.entries

def put (d : Disk) (l : Location) (e : Entry) : Disk :=
  ⟨(l, e) :: d.entries.filter (·.1 ≠ l)⟩

def erase (d : Disk) (l : Location) : Disk :=
  ⟨d.entries.filter (·.1 ≠ l)⟩

def eraseTree (d : Disk) (l : Location) : Disk :=
  ⟨d.entries.filter fun e => !l.isPrefixOf e.1⟩

theorem find_filter_ne {l l' : Location} (h : l' ≠ l) (es : List (Location × Entry)) :
    find l' (es.filter (·.1 ≠ l)) = find l' es := by
  induction es with
  | nil => rfl
  | cons e rest ih =>
    by_cases hk : e.1 = l
    · have hne : ¬ l = l' := fun he => h he.symm
      simpa [List.filter, hk, find, hne] using ih
    · simp only [ne_eq, decide_not] at ih
      simp [List.filter, hk, find, ih]

theorem find_filter_self (l : Location) (es : List (Location × Entry)) :
    find l (es.filter (·.1 ≠ l)) = none := by
  induction es with
  | nil => rfl
  | cons e rest ih =>
    simp only [ne_eq, decide_not] at ih
    by_cases hk : e.1 = l <;> simp [List.filter, hk, find, ih]

theorem lookup_put (d : Disk) {l : Location} (hl : l ≠ []) (e : Entry) (l' : Location) :
    (d.put l e).lookup l' = if l' = l then some e else d.lookup l' := by
  by_cases h : l' = l
  · subst h
    simp [lookup, hl, put, find]
  · have hne : ¬ l = l' := fun he => h he.symm
    by_cases hroot : l' = []
    · simp [lookup, hroot, hl]
    · simp only [lookup, hroot, put, find, hne, h, if_false]
      exact find_filter_ne h d.entries

theorem lookup_erase (d : Disk) {l : Location} (hl : l ≠ []) (l' : Location) :
    (d.erase l).lookup l' = if l' = l then none else d.lookup l' := by
  by_cases h : l' = l
  · subst h
    simpa [lookup, hl, erase] using find_filter_self l' d.entries
  · by_cases hroot : l' = []
    · simp [lookup, hroot]
      intro he
      exact absurd he hl
    · simp only [lookup, hroot, erase, h, if_false]
      exact find_filter_ne h d.entries

def maxName : Nat := 255

def maxPath : Nat := 4095

def byteSize (s : String) : Nat := (Text.Utf8.encode s).length

def walk (d : Disk) : Location → List Path.Segment → Except Fault Location
  | l, [] => .ok l
  | l, s :: rest =>
    if Path.isIdle s then walk d l rest
    else if s = ['.', '.'] then walk d l.dropLast rest
    else
      let name := String.ofList s
      if maxName < byteSize name then .error .nameTooLong
      else
        match d.lookup (l ++ [name]) with
        | none => .error .notFound
        | some (.file _) => .error .notADirectory
        | some .directory => walk d (l ++ [name]) rest

/-- What a path comes down to: a directory reached by dots or the root, or a name in a
directory, perhaps with a slash after it. -/
inductive Target where
  | directory (l : Location)
  | named (inside : Location) (name : String) (slashed : Bool)
deriving DecidableEq

def locate (d : Disk) (current : Location) (path : String) : Except Fault Target := do
  if path.toList.contains '\x00' then throw .nulInPath
  if path.isEmpty then throw .notFound
  if maxPath < byteSize path then throw .nameTooLong
  let start := if Path.isAbsolute path then [] else current
  let all := Path.segments path
  let core := (all.reverse.dropWhile (·.isEmpty)).reverse
  let slashed := core.length < all.length
  let inside ← walk d start core.dropLast
  match core.getLast? with
  | none => return .directory start
  | some last =>
    if Path.isIdle last then return .directory inside
    else if last = ['.', '.'] then return .directory inside.dropLast
    else return .named inside (String.ofList last) slashed

def enter (d : Disk) (current : Location) (path : String) : Except Fault Location :=
  if path.toList.contains '\x00' then .error .nulInPath
  else if path.isEmpty then .error .notFound
  else if maxPath < byteSize path then .error .nameTooLong
  else walk d (if Path.isAbsolute path then [] else current) (Path.segments path)

def child (d : Disk) (inside : Location) (name : String) : Except Fault (Option Entry) :=
  if maxName < byteSize name then .error .nameTooLong
  else .ok (d.lookup (inside ++ [name]))

def stat (d : Disk) (current : Location) (path : String) : Except Fault Entry := do
  match ← locate d current path with
  | .directory _ => return .directory
  | .named inside name slashed =>
    match ← child d inside name with
    | none => throw .notFound
    | some (.file content) => if slashed then throw .notADirectory else return .file content
    | some .directory => return .directory

def isFile (d : Disk) (current : Location) (path : String) : Bool :=
  match stat d current path with
  | .ok (.file _) => true
  | _ => false

def isDirectory (d : Disk) (current : Location) (path : String) : Bool :=
  match stat d current path with
  | .ok .directory => true
  | _ => false

def exists? (d : Disk) (current : Location) (path : String) : Bool :=
  (stat d current path).isOk

def read (d : Disk) (current : Location) (path : String) : Except Fault Bytes := do
  match ← stat d current path with
  | .file content => return content
  | .directory => throw .isADirectory

def write (d : Disk) (current : Location) (path : String) (content : Bytes) :
    Except Fault Disk := do
  match ← locate d current path with
  | .directory _ => throw .isADirectory
  | .named inside name slashed =>
    if slashed then throw .isADirectory
    match ← child d inside name with
    | some .directory => throw .isADirectory
    | _ => return d.put (inside ++ [name]) (.file content)

def remove (d : Disk) (current : Location) (path : String) : Except Fault Disk := do
  match ← locate d current path with
  | .directory _ => throw .isADirectory
  | .named inside name slashed =>
    match ← child d inside name with
    | none => throw .notFound
    | some .directory => throw .isADirectory
    | some (.file _) =>
      if slashed then throw .notADirectory
      else return d.erase (inside ++ [name])

def makeDirectory (d : Disk) (current : Location) (path : String) : Except Fault Disk := do
  match ← locate d current path with
  | .directory _ => throw .alreadyExists
  | .named inside name _ =>
    match ← child d inside name with
    | some _ => throw .alreadyExists
    | none => return d.put (inside ++ [name]) .directory

/-- Makes the first of the given directories, and before it those after it that are missing.
Directories made before a failure stay. -/
def makeChain (d : Disk) (current : Location) : List String → Option Fault × Disk
  | [] => (none, d)
  | path :: above =>
    match makeDirectory d current path with
    | .ok d => (none, d)
    | .error .notFound =>
      match makeChain d current above with
      | (some fault, d) => (some fault, d)
      | (none, d) =>
        match makeDirectory d current path with
        | .ok d => (none, d)
        | .error fault => if isDirectory d current path then (none, d) else (some fault, d)
    | .error fault => if isDirectory d current path then (none, d) else (some fault, d)

def makeDirectories (d : Disk) (current : Location) (path : String) : Option Fault × Disk :=
  makeChain d current (Path.lineage path)

def filesBelow (d : Disk) (l : Location) : List (Location × Bytes) :=
  d.entries.filterMap fun
    | (k, .file content) =>
      if l.isPrefixOf k then some (k.drop l.length, content) else none
    | (_, .directory) => none

def text (l : Location) : String := "/" ++ "/".intercalate l

end Disk

end Provision.Host
