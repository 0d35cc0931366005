import Provision.Proofs.Engine.Terraform
import Provision.Proofs.Lifecycle.Fetch
import Provision.Proofs.Pipeline.Settings
import Provision.Proofs.Storage.Viewing

/-!
# Prepared runs

What settings prepare: a run in a workspace, or a run with a state that is stored in a local
directory. A run on the host is a run of steps, each of them answered by the engine, by the
driver or by the host itself.
-/

namespace Provision

open Provision.Host
open Provision.Program (Answered Backed executes_interpret only_interpret yields_bind yields_done
  yields_interpret yields_one)
open Provision.Task (Achieves achieves_bind achieves_lift achieves_pure executes_bind_ok only_bind
  only_lift only_pure)

namespace Pipeline.Prepared

variable {s : Settings} {scratch root : String} {c : Storage.Config} {p : Prepared}

def inWorkspace (s : Settings) (scratch : String) : Prepared where
  action := ⟨.workspace, s.envName, s.deleteOnFailure, s.imports⟩
  config := s.terraformConfig scratch none
  driver := Storage.Nowhere.driver

def inDirectory (s : Settings) (scratch root : String) : Prepared where
  action := ⟨.stored (.ofEnv s.envName scratch), s.envName, s.deleteOnFailure, s.imports⟩
  config := s.terraformConfig scratch (some (.ofEnv s.envName scratch))
  driver := Storage.LocalDirectory.driver root

theorem draft_workspace (hb : s.backendType.isSome = true) :
    draft s scratch = .ok (inWorkspace s scratch) := by
  have hmode : s.mode = .workspace := if_pos hb
  simp only [draft, hmode]
  rfl

def withDriver (s : Settings) (scratch : String) (driver : Storage.Driver) : Prepared where
  action := ⟨.stored (.ofEnv s.envName scratch), s.envName, s.deleteOnFailure, s.imports⟩
  config := s.terraformConfig scratch (some (.ofEnv s.envName scratch))
  driver

theorem draft_legacy (hb : s.backendType = none) (hs : s.storage = some c) :
    draft s scratch = match Storage.Driver.ofConfig c with
      | .error e => .error (.ofStorage e)
      | .ok driver => .ok (withDriver s scratch driver) := by
  simp only [draft, Settings.mode_legacy hb, hs]
  rfl

theorem draft_stored (hb : s.backendType = none) (hs : s.storage = some c)
    (hlocal : c.driverName = "local") :
    draft s scratch = match Storage.LocalDirectory.rootOf c with
      | .error e => .error (.ofStorage e)
      | .ok root => .ok (inDirectory s scratch root) := by
  simp only [draft_legacy hb hs, Storage.Driver.ofConfig, hlocal]
  cases Storage.LocalDirectory.rootOf c with
  | error e => rfl
  | ok root => rfl

theorem validateMode_inWorkspace (hb : s.backendType.isSome = true) :
    (inWorkspace s scratch).config.validateMode = .ok () := by
  obtain ⟨backendType, hbackend⟩ := Option.isSome_iff_exists.1 hb
  simp only [inWorkspace, Settings.terraformConfig, Engine.Terraform.Config.validateMode, hbackend]

theorem validateMode_inDirectory : (inDirectory s scratch root).config.validateMode = .ok () := rfl

theorem views_of_draft (h : draft s scratch = .ok p) : p.driver.Views := by
  unfold draft at h
  split at h
  · split at h
    · cases h
    · next hdriver =>
      cases h
      exact Storage.Driver.views_ofConfig hdriver
  · cases h
    exact Storage.Nowhere.views

theorem executes_ofSettings {t : Journal} (h : (ofSettings s scratch).run.Executes t (.ok p)) :
    draft s scratch = .ok p := by
  obtain ⟨_, _, p', hdraft, h₁, rfl⟩ := executes_bind_ok.1 h
  obtain ⟨_, _, _, -, h₂, rfl⟩ := executes_bind_ok.1 h₁
  obtain ⟨_, _, _, -, h₃, rfl⟩ := executes_bind_ok.1 h₂
  obtain ⟨-, rfl⟩ := Task.executes_pure_ok.1 h₃
  exact (Program.executes_done.1 hdraft).2.symm

theorem action_of_draft (h : draft s scratch = .ok p) : p.action.envName = s.envName ∧
    (p.action.backend = .workspace ∨
      p.action.backend = .stored (.ofEnv s.envName scratch)) := by
  unfold draft at h
  split at h
  · split at h
    · cases h
    · cases h
      exact ⟨rfl, .inr rfl⟩
  · cases h
    exact ⟨rfl, .inl rfl⟩

theorem cases_of_draft
    (hkind : s.backendType.isSome = true ∨ ∃ c, s.storage = some c ∧ c.driverName = "local")
    (h : draft s scratch = .ok p) :
    (s.backendType.isSome = true ∧ p = inWorkspace s scratch) ∨
      ∃ c root, s.backendType = none ∧ s.storage = some c ∧ c.driverName = "local" ∧
        Storage.LocalDirectory.rootOf c = .ok root ∧ p = inDirectory s scratch root := by
  cases hb : s.backendType with
  | some backendType =>
    have hsome : s.backendType.isSome = true := by rw [hb]; rfl
    rw [draft_workspace hsome] at h
    exact .inl ⟨rfl, (Except.ok.inj h).symm⟩
  | none =>
    obtain ⟨c, hs, hlocal⟩ : ∃ c, s.storage = some c ∧ c.driverName = "local" := by
      rcases hkind with hsome | hstored
      · rw [hb] at hsome
        cases hsome
      · exact hstored
    rw [draft_stored hb hs hlocal] at h
    cases hroot : Storage.LocalDirectory.rootOf c with
    | error e =>
      rw [hroot] at h
      cases h
    | ok root =>
      rw [hroot] at h
      exact .inr ⟨c, root, rfl, hs, hlocal, hroot, (Except.ok.inj h).symm⟩

section Running

variable {P : Event effects → Prop} {α : Type} {x : Lifecycle.RunTask α}

theorem achieves_ofSettings (hP : ∀ e, P e → Succeeds e) (hdraft : draft s scratch = .ok p)
    (hmode : p.config.validateMode = .ok ()) :
    (ofSettings s scratch).Achieves P fun _ p' => p' = p := by
  refine achieves_bind (Q := fun _ p' => p' = p) (yields_done ⟨p, hdraft, rfl⟩) fun _ p' hp' => ?_
  subst hp'
  refine achieves_bind (Q := fun _ _ => True) ?_ fun _ _ _ =>
    achieves_bind (Q := fun _ _ => True) (achieves_lift (yields_one fun _ _ => trivial))
      fun _ _ _ => achieves_pure rfl
  refine yields_bind (Q := fun _ found => found = true)
    (yields_one fun found hfound => hP _ hfound) fun _ found hfound => ?_
  subst hfound
  exact yields_done ⟨(), hmode, trivial⟩

theorem reading_ofSettings : (ofSettings s scratch).run.Only Request.IsReading := by
  refine only_bind trivial fun p => ?_
  refine only_bind (Program.only_bind ⟨trivial, fun _ => trivial⟩ fun found => ?_) fun _ =>
    only_bind (only_lift ⟨trivial, fun _ => trivial⟩) fun _ => only_pure
  cases found <;> trivial

def answer (p : Prepared) : (s : Lifecycle.steps.Op) → HostProgram (Lifecycle.steps.Reply s) :=
  Lifecycle.Step.onHost (Engine.Terraform.engine p.config) p.driver

theorem executes_run {u : Journal} {r : Except Lifecycle.Error α}
    (h : (p.run x).run.Executes u r) :
    ∃ t, x.run.Executes t r ∧ Backed p.answer t u :=
  executes_interpret h

theorem achieves_run {Q : List (Event Lifecycle.steps) → α → Prop}
    (hx : x.Achieves (Answered p.answer P) Q) :
    (p.run x).Achieves P fun u a => ∃ t, Backed p.answer t u ∧ Q t a := by
  intro u r hr hu
  obtain ⟨t, hbacked, a, ha, hq⟩ := yields_interpret hx u r hr hu
  exact ⟨a, ha, t, hbacked, hq⟩

def IsQuiet : Lifecycle.Step → Prop
  | .host (.log _) => True
  | .engine (.readOutput _) => True
  | _ => False

theorem silent_answer (s : Lifecycle.Step) (hs : IsQuiet s) :
    (p.answer s).Only Request.IsSilent := by
  cases s with
  | engine c =>
    cases c with
    | readOutput env => exact Engine.Terraform.silent_readOutput env
    | _ => exact hs.elim
  | storage c => exact hs.elim
  | host r =>
    cases r with
    | log line => exact ⟨trivial, fun _ => trivial⟩
    | _ => exact hs.elim

theorem unwritten_of_quiet {t : List (Event Lifecycle.steps)} {u : Journal} (path : String)
    (h : Backed p.answer t u) (ht : ∀ e ∈ t, IsQuiet e.op) : ∀ e ∈ u, written? path e = none :=
  fun e he => written?_of_silent (h.only ht silent_answer e he)

variable (hdriver : ∀ c, (p.driver.answer c).Only Request.IsMute)

include hdriver

theorem mute_answer (s : Lifecycle.Step) (hs : s.IsMute) :
    (p.answer s).Only Request.IsMute := by
  cases s with
  | engine c => exact Engine.Terraform.mute_engine c
  | storage c => exact hdriver c
  | host r => exact ⟨hs, fun _ => trivial⟩

theorem mute_run (hx : x.run.Only Lifecycle.Step.IsMute) :
    (p.run x).run.Only Request.IsMute :=
  only_interpret hx (mute_answer hdriver)

end Running

end Pipeline.Prepared

end Provision
