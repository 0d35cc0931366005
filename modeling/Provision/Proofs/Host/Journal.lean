import Provision.Host.Effects
import Provision.Host.Path
import Provision.Proofs.Surroundings

/-!
# The journal of a host

What the steps of a program on its host tell afterwards: what was printed and logged, what each
file was last written with, and whether all went well. Paths are told apart by their text.
-/

namespace Provision.Host

/-- The steps of a program on its host, each with the reply. -/
abbrev Journal : Type := List (Event effects)

def printed? : Event effects → Option String
  | ⟨.printOutput text, _⟩ => some text
  | _ => none

def logged? : Event effects → Option LogLine
  | ⟨.log line, _⟩ => some line
  | _ => none

def written? (path : String) : Event effects → Option Bytes
  | ⟨.writeFile p content, .ok _⟩ => if p = path then some content else none
  | _ => none

abbrev printed (j : Journal) : List String := j.filterMap printed?

abbrev logged (j : Journal) : List LogLine := j.filterMap logged?

def lastWritten (path : String) (j : Journal) : Option Bytes :=
  (j.filterMap (written? path)).getLast?

def Succeeds : Event effects → Prop
  | ⟨.readFile _, reply⟩ => ∃ content, reply = .ok content
  | ⟨.writeFile _ _, reply⟩ => reply = .ok ()
  | ⟨.makeDirectories _, reply⟩ => reply = .ok ()
  | ⟨.isDirectory _, found⟩ => found = true
  | ⟨.openScratch, reply⟩ => ∃ directory, reply = .ok directory
  | ⟨.start _, reply⟩ => ∃ finished, reply = .ok finished ∧ finished.status.isSuccess = true
  | ⟨.readInput, reply⟩ => ∃ raw, reply = .ok raw
  | _ => True

structure Finds (P : Event effects → Prop) (path : String) (content : Bytes) : Prop where
  found : ∀ reply, P ⟨.pathExists path, reply⟩ → reply = true
  read : ∀ reply, P ⟨.readFile path, reply⟩ → reply = .ok content

def Request.IsMute : Request → Prop
  | .printOutput _ => False
  | _ => True

def Request.IsSilent : Request → Prop
  | .printOutput _ => False
  | .writeFile _ _ => False
  | _ => True

theorem Request.IsSilent.isMute {r : Request} (h : r.IsSilent) : r.IsMute := by
  cases r with
  | printOutput text => exact h
  | _ => trivial

def Request.IsReading : Request → Prop
  | .readFile _ => True
  | .isFile _ => True
  | .isDirectory _ => True
  | .pathExists _ => True
  | .freshUuid => True
  | .now => True
  | .log _ => True
  | .readInput => True
  | _ => False

theorem Request.IsReading.isMute {r : Request} (h : r.IsReading) : r.IsMute := by
  cases r with
  | printOutput text => exact h
  | _ => trivial

def Request.IsLocal : Request → Prop
  | .start _ => False
  | .send _ => False
  | .printOutput _ => False
  | .printError _ => False
  | _ => True

theorem Request.IsLocal.isMute {r : Request} (h : r.IsLocal) : r.IsMute := by
  cases r with
  | printOutput text => exact h
  | _ => trivial

def Request.IsQuiet (r : Request) : Prop := ∀ i, r ≠ .start i

theorem Request.IsLocal.isQuiet {r : Request} (h : r.IsLocal) : r.IsQuiet := by
  rintro i rfl
  exact h

theorem Request.IsReading.isLocal {r : Request} (h : r.IsReading) : r.IsLocal := by
  cases r with
  | start i => exact h
  | send q => exact h
  | printOutput text => exact h
  | printError text => exact h
  | _ => trivial

def Request.Touches (files : String → Prop) : Request → Prop
  | .writeFile path _ => files path
  | .removeFile path => files path
  | .makeDirectories _ => True
  | r => r.IsReading

theorem Request.IsReading.touches {files : String → Prop} {r : Request} (h : r.IsReading) :
    r.Touches files := by
  cases r with
  | writeFile path content => exact h.elim
  | removeFile path => exact h.elim
  | makeDirectories path => trivial
  | _ => exact h

theorem Request.Touches.isLocal {files : String → Prop} {r : Request} (h : r.Touches files) :
    r.IsLocal := by
  cases r with
  | writeFile path content => trivial
  | removeFile path => trivial
  | makeDirectories path => trivial
  | _ => exact Request.IsReading.isLocal h

def Request.IsInner : Request → Prop
  | .printOutput _ => False
  | .openScratch => False
  | .closeScratch _ => False
  | _ => True

theorem Request.IsInner.isMute {r : Request} (h : r.IsInner) : r.IsMute := by
  cases r with
  | printOutput text => exact h
  | _ => trivial

theorem Request.Touches.isInner {files : String → Prop} {r : Request} (h : r.Touches files) :
    r.IsInner := by
  cases r with
  | printOutput text => exact h
  | openScratch => exact h
  | closeScratch path => exact h
  | _ => trivial

theorem Request.IsReading.isInner {r : Request} (h : r.IsReading) : r.IsInner := by
  have htouches : r.Touches fun _ => False := h.touches
  exact htouches.isInner

/-- Nothing was started, sent, written, made or removed. A file that could not be written was not
written; the directory for the files of a run is no one else's. -/
def Harmless : Event effects → Prop
  | ⟨.start _, _⟩ => False
  | ⟨.send _, _⟩ => False
  | ⟨.writeFile _ _, reply⟩ => ∃ fault, reply = .error fault
  | ⟨.makeDirectories _, _⟩ => False
  | ⟨.removeFile _, _⟩ => False
  | _ => True

def Request.IsHarmless (r : Request) : Prop := ∀ reply, Harmless ⟨r, reply⟩

theorem Request.IsReading.isHarmless {r : Request} (h : r.IsReading) : r.IsHarmless := by
  intro reply
  cases r with
  | start i => exact h
  | send r => exact h
  | writeFile path content => exact h.elim
  | makeDirectories path => exact h
  | removeFile path => exact h
  | _ => trivial

def Request.IsViewing : Request → Prop
  | .send q => q.method = .head ∨ q.method = .get
  | r => r.IsReading

theorem Request.IsReading.isViewing {r : Request} (h : r.IsReading) : r.IsViewing := by
  cases r with
  | send q => exact h.elim
  | _ => exact h

def Request.IsInert : Request → Prop
  | .writeFile _ _ => False
  | .removeFile _ => False
  | .makeDirectories _ => False
  | .openScratch => False
  | .closeScratch _ => False
  | .start _ => False
  | _ => True

theorem Request.IsViewing.isInert {r : Request} (h : r.IsViewing) : r.IsInert := by
  cases r with
  | writeFile path content => exact h.elim
  | removeFile path => exact h.elim
  | makeDirectories path => exact h.elim
  | openScratch => exact h.elim
  | closeScratch path => exact h.elim
  | start i => exact h.elim
  | _ => trivial

theorem Request.IsReading.isInert {r : Request} (h : r.IsReading) : r.IsInert := h.isViewing.isInert

theorem Request.IsViewing.isMute {r : Request} (h : r.IsViewing) : r.IsMute := by
  cases r with
  | printOutput text => exact h
  | _ => trivial

def Request.Keeps (files : String → Prop) : Request → Prop
  | .writeFile path _ => files path
  | .makeDirectories path => ∃ file, files file ∧ Path.parent? file = some path
  | .removeFile _ => False
  | .start _ => False
  | .send _ => False
  | _ => True

theorem Request.IsHarmless.keeps {files : String → Prop} {r : Request} (h : r.IsHarmless) :
    r.Keeps files := by
  cases r with
  | writeFile path content =>
    obtain ⟨_, heq⟩ := h (.ok ())
    cases heq
  | makeDirectories path => exact (h (.ok ())).elim
  | removeFile path => exact h (.ok ())
  | start i => exact h (.error .notFound)
  | send q => exact h (.error .unreachable)
  | _ => trivial

theorem Request.Keeps.mono {files others : String → Prop} {r : Request} (h : r.Keeps files)
    (hsub : ∀ path, files path → others path) : r.Keeps others := by
  cases r with
  | writeFile path content => exact hsub path h
  | makeDirectories path =>
    obtain ⟨file, hfile, hparent⟩ := h
    exact ⟨file, hsub file hfile, hparent⟩
  | _ => exact h

theorem printed_of_mute {j : Journal} (h : ∀ e ∈ j, e.op.IsMute) : printed j = [] := by
  refine List.filterMap_eq_nil_iff.2 fun e he => ?_
  obtain ⟨op, reply⟩ := e
  have hmute := h _ he
  cases op with
  | printOutput text => exact hmute.elim
  | _ => rfl

theorem printed_of_reading {j : Journal} (h : ∀ e ∈ j, e.op.IsReading) : printed j = [] :=
  printed_of_mute fun e he => (h e he).isMute

theorem written?_of_silent {path : String} {e : Event effects} (h : e.op.IsSilent) :
    written? path e = none := by
  obtain ⟨op, reply⟩ := e
  cases op with
  | writeFile p content => exact h.elim
  | _ => rfl

theorem lastWritten_append_unwritten {path : String} {j k : Journal}
    (h : ∀ e ∈ k, written? path e = none) : lastWritten path (j ++ k) = lastWritten path j := by
  rw [lastWritten, List.filterMap_append, List.filterMap_eq_nil_iff.2 h, List.append_nil,
    lastWritten]

theorem lastWritten_append_some {path : String} {j k : Journal} {content : Bytes}
    (h : lastWritten path k = some content) : lastWritten path (j ++ k) = some content := by
  rw [lastWritten, List.filterMap_append, List.getLast?_append]
  rw [lastWritten] at h
  rw [h, Option.some_or]

theorem written?_other {path p : String} {content : Bytes} {reply : Except Fault Unit}
    (h : p ≠ path) : written? path ⟨.writeFile p content, reply⟩ = none := by
  cases reply with
  | ok _ => exact if_neg h
  | error fault => rfl

theorem lastWritten_write {path : String} {content : Bytes} {j k : Journal}
    (h : ∀ e ∈ k, written? path e = none) :
    lastWritten path (j ++ ⟨.writeFile path content, (.ok () : Except Fault Unit)⟩ :: k) =
      some content := by
  have hwritten : written? path ⟨.writeFile path content, (.ok () : Except Fault Unit)⟩ =
      some content := if_pos rfl
  have hrest : k.filterMap (written? path) = [] := List.filterMap_eq_nil_iff.2 h
  rw [lastWritten, List.filterMap_append, List.filterMap_cons_some hwritten, hrest,
    List.getLast?_append, List.getLast?_singleton, Option.some_or]

end Provision.Host
