import Provision.Proofs.Host.Disk
import Provision.Rehearsal.Machine

/-!
# Hosts whose files are on a disk

`Serves` says which replies a disk allows and which disk is there afterwards. Requests about
files are answered as the disk answers them, so that only what the paths force can fail. The
clock tells times of the calendar. Processes and scratch directories may change anything; they
are constrained where they matter. A rehearsed machine is such a host.
-/

namespace Provision

open Provision.Host

namespace Host.Disk

def settle (d : Disk) : Except Fault Disk → Except Fault Unit × Disk
  | .ok d' => (.ok (), d')
  | .error fault => (.error fault, d)

theorem ok_of_settle {d d' : Disk} {result : Except Fault Disk}
    (h : (.ok (), d') = d.settle result) : result = .ok d' := by
  cases result with
  | ok d₁ => rw [← (Prod.mk.inj h).2]
  | error fault => cases h

theorem unchanged_of_settle {d d' : Disk} {result : Except Fault Disk} {fault : Fault}
    (h : (.error fault, d') = d.settle result) : d' = d := by
  cases result with
  | ok d₁ => cases h
  | error fault => exact (Prod.mk.inj h).2

def reportOf : Option Fault → Except Fault Unit
  | none => .ok ()
  | some fault => .error fault

def Serves (current : Location) (d : Disk) : Event effects → Disk → Prop
  | ⟨.readFile path, reply⟩, d' => reply = d.read current path ∧ d' = d
  | ⟨.writeFile path content, reply⟩, d' =>
    (reply, d') = d.settle (d.write current path content)
  | ⟨.removeFile path, reply⟩, d' => (reply, d') = d.settle (d.remove current path)
  | ⟨.makeDirectories path, reply⟩, d' =>
    reply = reportOf (d.makeDirectories current path).1 ∧
      d' = (d.makeDirectories current path).2
  | ⟨.isFile path, found⟩, d' => found = d.isFile current path ∧ d' = d
  | ⟨.isDirectory path, found⟩, d' => found = d.isDirectory current path ∧ d' = d
  | ⟨.pathExists path, found⟩, d' => found = d.exists? current path ∧ d' = d
  | ⟨.now, time⟩, d' => time.Valid ∧ d' = d
  | ⟨.openScratch, _⟩, _ | ⟨.closeScratch _, _⟩, _ | ⟨.start _, _⟩, _ => True
  | _, d' => d' = d

end Host.Disk

namespace Rehearsal.Machine

open Provision.Host.Disk (Serves settle reportOf)

/-- Every reply of a rehearsed machine is one that its disk allows, as long as its clock is set
to a time of the calendar, and the clock and the current directory stay. -/
theorem serves_answer {m : Machine} (hclock : m.clock.Valid) (r : Request) :
    Serves m.current m.disk ⟨r, (answer r m).1⟩ (answer r m).2.disk ∧
      (answer r m).2.clock = m.clock ∧ (answer r m).2.current = m.current := by
  have hchange (result : Except Fault Disk) :
      ((m.change result).1, (m.change result).2.disk) = m.disk.settle result ∧
        (m.change result).2.clock = m.clock ∧ (m.change result).2.current = m.current := by
    cases result with
    | ok d => exact ⟨rfl, rfl, rfl⟩
    | error fault => exact ⟨rfl, rfl, rfl⟩
  cases r with
  | writeFile path content => exact hchange _
  | removeFile path => exact hchange _
  | makeDirectories path =>
    refine ⟨⟨?_, rfl⟩, rfl, rfl⟩
    change (match (m.disk.makeDirectories m.current path).1 with
      | none => .ok ()
      | some fault => .error fault : Except Fault Unit) = _
    cases (m.disk.makeDirectories m.current path).1 with
    | none => rfl
    | some fault => rfl
  | closeScratch path =>
    refine ⟨trivial, ?_⟩
    change (m.closeScratch path).clock = m.clock ∧ (m.closeScratch path).current = m.current
    unfold closeScratch
    split <;> exact ⟨rfl, rfl⟩
  | start i =>
    refine ⟨trivial, ?_⟩
    change (m.start i).2.clock = m.clock ∧ (m.start i).2.current = m.current
    unfold start
    split
    · exact ⟨rfl, rfl⟩
    · split
      · exact ⟨rfl, rfl⟩
      · split <;> exact ⟨rfl, rfl⟩
  | now => exact ⟨⟨hclock, rfl⟩, rfl, rfl⟩
  | openScratch => exact ⟨trivial, rfl, rfl⟩
  | send request => exact ⟨rfl, rfl, rfl⟩
  | freshUuid => exact ⟨rfl, rfl, rfl⟩
  | log line => exact ⟨rfl, rfl, rfl⟩
  | readInput => exact ⟨rfl, rfl, rfl⟩
  | printOutput text => exact ⟨rfl, rfl, rfl⟩
  | printError text => exact ⟨rfl, rfl, rfl⟩
  | readFile path => exact ⟨⟨rfl, rfl⟩, rfl, rfl⟩
  | isFile path => exact ⟨⟨rfl, rfl⟩, rfl, rfl⟩
  | isDirectory path => exact ⟨⟨rfl, rfl⟩, rfl, rfl⟩
  | pathExists path => exact ⟨⟨rfl, rfl⟩, rfl, rfl⟩

theorem performs_run {α : Type} {m : Machine} (hclock : m.clock.Valid) (p : HostProgram α) :
    p.Performs (Serves m.current) m.disk (m.run p).1 (m.run p).2.disk ∧
      (m.run p).2.clock = m.clock ∧ (m.run p).2.current = m.current := by
  induction p generalizing m with
  | done a => exact ⟨Program.performs_done.2 ⟨rfl, rfl⟩, rfl, rfl⟩
  | step r next ih =>
    obtain ⟨hserves, hclock', hcurrent⟩ := serves_answer hclock r
    obtain ⟨hrest, hclock'', hcurrent'⟩ :=
      ih (answer r m).1 (m := (answer r m).2) (hclock' ▸ hclock)
    rw [hcurrent] at hrest
    exact ⟨Program.performs_step.2 ⟨_, _, hserves, hrest⟩, hclock''.trans hclock',
      hcurrent'.trans hcurrent⟩

end Rehearsal.Machine

end Provision
