import Provision.Proofs.Host.Journal
import Provision.Proofs.Host.Serving

/-!
# Scratch directories

A host with files on a disk that lends a run a directory. The directory is made where nothing was,
and all of it is removed when the run gives it back: this is what it means that no process leaves
anything there that cannot be removed. Of a process nothing else is known than that it changes
the disk as the relation `Process` allows. The host may refuse any request about files, also if
the paths would not make it fail.
-/

namespace Provision.Host

namespace Disk

variable {d : Disk} {l : Location}

/-- Nothing is at the location or below it. -/
def IsFree (d : Disk) (l : Location) : Prop := ∀ l', l <+: l' → d.lookup l' = none

theorem IsFree.ne_nil (h : d.IsFree l) : l ≠ [] := by
  rintro rfl
  cases h [] (List.prefix_refl _)

theorem find_filter {l : Location} {p : Location × Entry → Bool} (kept : Bool)
    (hp : ∀ e, e.1 = l → p e = kept) (es : List (Location × Entry)) :
    find l (es.filter p) = if kept then find l es else none := by
  induction es with
  | nil => cases kept <;> rfl
  | cons e rest ih =>
    by_cases hkey : e.1 = l
    · have hkeep := hp e hkey
      cases kept
      · simpa [find, hkey, hkeep] using ih
      · simp [find, hkey, hkeep]
    · cases hkeep : p e <;> simp [find, hkey, hkeep, ih]

theorem lookup_eraseTree (d : Disk) (hl : l ≠ []) (l' : Location) :
    (d.eraseTree l).lookup l' = if l <+: l' then none else d.lookup l' := by
  by_cases hroot : l' = []
  · simp [lookup, hroot, hl]
  · have hfilter := find_filter (l := l') (p := fun e => !l.isPrefixOf e.1) (!l.isPrefixOf l')
      (fun e he => by rw [he]) d.entries
    simp only [lookup, hroot, if_false, eraseTree, hfilter]
    by_cases hbelow : l <+: l'
    · simp [hbelow, List.isPrefixOf_iff_prefix.2 hbelow]
    · have hnot : l.isPrefixOf l' = false :=
        Bool.eq_false_iff.2 fun h => hbelow (List.isPrefixOf_iff_prefix.1 h)
      simp [hbelow, hnot]

theorem isFree_eraseTree (d : Disk) (hl : l ≠ []) : (d.eraseTree l).IsFree l := by
  intro l' hbelow
  rw [lookup_eraseTree d hl, if_pos hbelow]

/-- A request about files that the host refuses for reasons of its own. -/
def Refused : Event effects → Prop
  | ⟨.readFile _, .error _⟩ => True
  | ⟨.writeFile _ _, .error _⟩ => True
  | ⟨.removeFile _, .error _⟩ => True
  | ⟨.makeDirectories _, .error _⟩ => True
  | ⟨.isFile _, found⟩ => found = false
  | ⟨.isDirectory _, found⟩ => found = false
  | ⟨.pathExists _, found⟩ => found = false
  | _ => False

/-- How requests change a disk on which scratch directories are made. -/
def Lodges (current : Location) (Process : Disk → Invocation → Disk → Prop) (d : Disk) :
    Event effects → Disk → Prop
  | ⟨.openScratch, .ok path⟩, d' =>
    d.IsFree (place current path) ∧ d' = d.put (place current path) .directory ∧
      d'.Reaches current path
  | ⟨.openScratch, .error _⟩, d' => d' = d
  | ⟨.closeScratch path, _⟩, d' => d' = d.eraseTree (place current path)
  | ⟨.start i, _⟩, d' => Process d i d'
  | e, d' => Serves current d e d' ∨ Refused e ∧ d' = d

end Disk

def opened? : Event effects → Option String
  | ⟨.openScratch, .ok path⟩ => some path
  | _ => none

/-- The scratch directories that were made. -/
def opened (u : Journal) : List String := u.filterMap opened?

theorem opened_append (u v : Journal) : opened (u ++ v) = opened u ++ opened v :=
  List.filterMap_append

def Tidy (u : Journal) : Prop :=
  ∀ path ∈ opened u,
    ∃ v w, u = v ++ ⟨.closeScratch path, ()⟩ :: w ∧ ∀ e ∈ w, ∃ text, e.op = .printError text

variable {current : Location} {Process : Disk → Invocation → Disk → Prop} {d d' : Disk}
  {u : Journal}

theorem Disk.Lodges.unchanged {e : Event effects} (h : Disk.Lodges current Process d e d')
    (he : e.op.IsInert) : d' = d := by
  obtain ⟨op, reply⟩ := e
  cases op with
  | readFile path => exact h.elim And.right And.right
  | isFile path => exact h.elim And.right And.right
  | isDirectory path => exact h.elim And.right And.right
  | pathExists path => exact h.elim And.right And.right
  | now => exact h.elim And.right And.right
  | send q => exact h.elim id And.right
  | freshUuid => exact h.elim id And.right
  | log line => exact h.elim id And.right
  | readInput => exact h.elim id And.right
  | printOutput text => exact h.elim id And.right
  | printError text => exact h.elim id And.right
  | _ => exact he.elim

variable {path : String} {content : Bytes} {fault : Fault}

theorem Disk.Lodges.written
    (h : Disk.Lodges current Process d ⟨.writeFile path content, .ok ()⟩ d') :
    d.write current path content = .ok d' :=
  Disk.ok_of_settle (h.resolve_right And.left)

theorem Disk.Lodges.not_written
    (h : Disk.Lodges current Process d ⟨.writeFile path content, .error fault⟩ d') : d' = d :=
  h.elim Disk.unchanged_of_settle And.right

theorem Disk.Lodges.found
    (h : Disk.Lodges current Process d ⟨.readFile path, .ok content⟩ d') :
    d.read current path = .ok content :=
  ((h.resolve_right And.left).1).symm

theorem unchanged_of_inert (h : Passes (Disk.Lodges current Process) d u d')
    (hu : ∀ e ∈ u, e.op.IsInert) : d' = d :=
  h.preserves (I := (· = d)) (fun _ e _ he hlodges heq => (hlodges.unchanged (hu e he)).trans heq)
    rfl

/-- What it takes of surroundings that nothing is left of a directory: that giving it back removes
all of it, and that messages change no file. The other steps may change and reply anything. -/
structure Disk.GivesBack (current : Location) (path : String)
    (Step : Disk → Event effects → Disk → Prop) : Prop where
  closed : ∀ {d d' : Disk}, Step d ⟨.closeScratch path, ()⟩ d' → d'.IsFree (place current path)
  message : ∀ {d d' : Disk} {text : String}, Step d ⟨.printError text, ()⟩ d' → d' = d

/-- A tidy run leaves nothing of the directories that were made for it. -/
theorem Tidy.isFree {Step : Disk → Event effects → Disk → Prop} (h : Tidy u)
    (hpath : path ∈ opened u) (hback : Disk.GivesBack current path Step) (hu : Passes Step d u d') :
    d'.IsFree (Disk.place current path) := by
  obtain ⟨v, w, rfl, hw⟩ := h path hpath
  obtain ⟨_, -, hrest⟩ := passes_append.1 hu
  obtain ⟨d₂, hclosed, hmessages⟩ := passes_cons.1 hrest
  have hsame : d' = d₂ := by
    refine hmessages.preserves (I := (· = d₂)) (fun d e d' he hstep heq => ?_) rfl
    obtain ⟨text, htext⟩ := hw e he
    obtain ⟨op, reply⟩ := e
    cases htext
    exact (hback.message hstep).trans heq
  rw [hsame]
  exact hback.closed hclosed

structure Lodging where
  current : Location := []
  scratch : String
  clock : Timestamp
  uuid : Uuid
  input : Bytes
  process : Invocation → Disk → Finished × Disk

namespace Lodging

variable (m : Lodging)

def Changes (d : Disk) (i : Invocation) (d' : Disk) : Prop := d' = (m.process i d).2

def openScratch (d : Disk) : Except Fault String × Disk :=
  let l := Disk.place m.current m.scratch
  let d' := d.put l .directory
  match d'.walk (Disk.start m.current m.scratch) (Path.segments m.scratch) with
  | .error fault => (.error fault, d)
  | .ok _ =>
    if l ≠ [] ∧ d.entries.all (fun e => !l.isPrefixOf e.1) then (.ok m.scratch, d')
    else (.error .alreadyExists, d)

def answer : (r : Request) → Disk → r.Reply × Disk
  | .readFile path, d => (d.read m.current path, d)
  | .writeFile path content, d => d.settle (d.write m.current path content)
  | .removeFile path, d => d.settle (d.remove m.current path)
  | .makeDirectories path, d =>
    let (fault, d') := d.makeDirectories m.current path
    (Disk.reportOf fault, d')
  | .isFile path, d => (d.isFile m.current path, d)
  | .isDirectory path, d => (d.isDirectory m.current path, d)
  | .pathExists path, d => (d.exists? m.current path, d)
  | .openScratch, d => m.openScratch d
  | .closeScratch path, d => ((), d.eraseTree (Disk.place m.current path))
  | .start i, d =>
    let (finished, d') := m.process i d
    (.ok finished, d')
  | .send _, d => (.error .unreachable, d)
  | .freshUuid, d => (m.uuid, d)
  | .now, d => (m.clock, d)
  | .log _, d => ((), d)
  | .readInput, d => (.ok m.input, d)
  | .printOutput _, d => ((), d)
  | .printError _, d => ((), d)

variable {m}

theorem lodges_openScratch (d : Disk) : Disk.Lodges m.current m.Changes d
    ⟨.openScratch, (m.openScratch d).1⟩ (m.openScratch d).2 := by
  unfold openScratch
  dsimp only
  split
  · rfl
  · next hwalk =>
    split
    · next hroom =>
      obtain ⟨hl, hall⟩ := hroom
      have hsame : d.eraseTree (Disk.place m.current m.scratch) = d := by
        rw [Disk.eraseTree, List.filter_eq_self.2 (List.all_eq_true.1 hall)]
      exact ⟨hsame ▸ Disk.isFree_eraseTree d hl, rfl, Disk.reaches_of_walk hwalk⟩
    · rfl

theorem lodges_answer (hclock : m.clock.Valid) (r : Request) (d : Disk) :
    Disk.Lodges m.current m.Changes d ⟨r, (m.answer r d).1⟩ (m.answer r d).2 := by
  cases r with
  | openScratch => exact lodges_openScratch d
  | closeScratch path => exact rfl
  | start i => exact rfl
  | now => exact .inl ⟨hclock, rfl⟩
  | readFile path => exact .inl ⟨rfl, rfl⟩
  | makeDirectories path => exact .inl ⟨rfl, rfl⟩
  | isFile path => exact .inl ⟨rfl, rfl⟩
  | isDirectory path => exact .inl ⟨rfl, rfl⟩
  | pathExists path => exact .inl ⟨rfl, rfl⟩
  | _ => exact .inl rfl

def rehearse {α : Type} (m : Lodging) (p : HostProgram α) (d : Disk) : Journal × α × Disk :=
  Program.rehearse m.answer p d

theorem executes_rehearse {α : Type} (m : Lodging) (p : HostProgram α) (d : Disk) :
    p.Executes (m.rehearse p d).1 (m.rehearse p d).2.1 :=
  Program.executes_rehearse (S := effects) m.answer p d

theorem passes_rehearse {α : Type} (hclock : m.clock.Valid) (p : HostProgram α) (d : Disk) :
    Passes (Disk.Lodges m.current m.Changes) d (m.rehearse p d).1 (m.rehearse p d).2.2 :=
  Program.passes_rehearse (lodges_answer hclock) p d

theorem eq_of_readInput {α : Type} {p : HostProgram α} {d : Disk} {reply : Except Fault Bytes}
    (h : ⟨.readInput, reply⟩ ∈ (m.rehearse p d).1) : reply = .ok m.input := by
  have hpasses : Passes (fun _ (e : Event effects) _ => ∀ reply : Except Fault Bytes,
      e = ⟨.readInput, reply⟩ → reply = .ok m.input) d (m.rehearse p d).1 (m.rehearse p d).2.2 :=
    Program.passes_rehearse (fun r d reply heq => by cases heq; rfl) p d
  obtain ⟨_, _, hinput⟩ := hpasses.of_mem h
  exact hinput reply rfl

end Lodging

end Provision.Host
