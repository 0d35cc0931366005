import Provision.Text.Blank

/-!
# Paths as text

A path is the text that was written: joining and taking the parent only cut and paste, and
nothing is looked up. Empty segments and single dots name no step, except a dot that comes
first in a relative path.
-/

namespace Provision.Host.Path

abbrev Segment : Type := List Char

def segments (path : String) : List Segment := Text.splitAt '/' path.toList

def isAbsolute (path : String) : Bool := path.toList.head? = some '/'

/-- `rest` below `base`; an absolute `rest` stands for itself. -/
def join (base rest : String) : String :=
  if isAbsolute rest then rest
  else if base.toList.isEmpty || base.toList.getLast? = some '/' then base ++ rest
  else base ++ "/" ++ rest

def isIdle (s : Segment) : Bool := s.isEmpty || s = ['.']

inductive Component where
  | root
  | here
  | up
  | name (s : Segment)
deriving DecidableEq

def Component.ofSegment (s : Segment) : Option Component :=
  if isIdle s then none
  else if s = ['.', '.'] then some .up
  else some (.name s)

def components (path : String) : List Component :=
  match segments path with
  | [] => []
  | first :: rest =>
    let start :=
      if isAbsolute path then [.root]
      else if first = ['.'] then [.here]
      else (Component.ofSegment first).toList
    start ++ rest.filterMap Component.ofSegment

def dropIdleEnd (absolute : Bool) : List Segment → List Segment
  | [] => []
  | first :: rest =>
    match (rest.reverse.dropWhile isIdle).reverse with
    | [] => if first.isEmpty || (absolute && isIdle first) then [] else [first]
    | rest => first :: rest

def glue : List Segment → List Char
  | [] => []
  | [s] => s
  | s :: rest => s ++ '/' :: glue rest

def parent? (path : String) : Option String :=
  let absolute := isAbsolute path
  let body := if absolute then (segments path).drop 1 else segments path
  match dropIdleEnd absolute body with
  | [] => none
  | steps =>
    let rest := glue (dropIdleEnd absolute steps.dropLast)
    some (String.ofList (if absolute then '/' :: rest else rest))

def ancestors : Nat → String → List String
  | 0, _ => []
  | fuel + 1, path =>
    match parent? path with
    | none => []
    | some up => path :: ancestors fuel up

def lineage (path : String) : List String := ancestors (path.length + 1) path

end Provision.Host.Path
