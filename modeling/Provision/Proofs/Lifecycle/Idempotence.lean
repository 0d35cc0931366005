import Provision.Proofs.Lifecycle.Dropping
import Provision.Proofs.Lifecycle.Refusal
import Provision.Proofs.Transitions

/-!
# An environment that is gone

Once an environment is absent, a run that destroys or fetches it finds nothing, leaves everything
as it is, and says so. What absence means depends on where the state is kept, so it is a predicate
on the surroundings here; `Hides` is all that the runs need of it. By induction, any number of
runs on an absent environment leaves it absent.
-/

namespace Provision.Lifecycle

open Provision.Task (performs_bind_ok performs_lift_ok performs_pure)

variable {σ : Type} {R : σ → Event steps → σ → Prop} {a : Action} {Absent : σ → Prop}
  {α β : Type}

/-- What is asked about an absent environment is answered so, and it stays absent. -/
structure Hides (R : σ → Event steps → σ → Prop) (a : Action) (Absent : σ → Prop) : Prop where
  log : ∀ ⦃s line reply s'⦄, Absent s → R s ⟨.host (.log line), reply⟩ s' → Absent s'
  initBackend : a.backend = .workspace → ∀ ⦃s reply s'⦄, Absent s →
    R s ⟨.engine (.initBackend a.envName), reply⟩ s' → Absent s'
  listing : a.backend = .workspace → ∀ ⦃s reply s'⦄, Absent s →
    R s ⟨.engine .listWorkspaces, reply⟩ s' →
      Absent s' ∧ ∀ names, reply = .ok names → a.envName ∉ names
  initLocal : ∀ ⦃f⦄, a.backend = .stored f → ∀ ⦃s reply s'⦄, Absent s →
    R s ⟨.engine .initLocal, reply⟩ s' → Absent s'
  probe : ∀ ⦃f⦄, a.backend = .stored f → ∀ ⦃s reply s'⦄, Absent s →
    R s ⟨.storage (.version f.key), reply⟩ s' →
      Absent s' ∧ ∃ v : Storage.ObjectVersion, reply = .ok v ∧ v.isZero = true

def Settles (R : σ → Event steps → σ → Prop) (Absent : σ → Prop) (x : RunTask α)
    (Q : Except Error α → Prop) : Prop :=
  ∀ s t r s', Absent s → x.run.Executes t r → Passes R s t s' →
    Absent s' ∧ (∀ e ∈ t, e.op.Spares) ∧
      (Q r ∨ ∃ c reply e, ⟨.engine c, reply⟩ ∈ t ∧
        Record.failure? ⟨.engine c, reply⟩ = some e ∧ r = .error e)

section Settles

variable {Q : Except Error α → Prop}

theorem settles_pure {y : α} (h : Q (.ok y)) : Settles R Absent (pure y) Q := by
  intro s t r s' hs hx hpass
  obtain ⟨rfl, rfl⟩ := Task.executes_pure.1 hx
  obtain rfl := passes_nil.1 hpass
  exact ⟨hs, fun _ he => absurd he List.not_mem_nil, .inl h⟩

theorem error_ne_ok (y : α) (e : Error) : ¬ (.error e : Except Error α) = .ok y := by
  intro h
  cases h

theorem not_exists_of_error {P : α → Prop} (e : Error) :
    ¬ ∃ y, (.error e : Except Error α) = .ok y ∧ P y := by
  rintro ⟨y, hy, -⟩
  cases hy

theorem settles_throw {e : Error} (h : Q (.error e)) : Settles R Absent (throw e) Q := by
  intro s t r s' hs hx hpass
  obtain ⟨rfl, rfl⟩ := Task.executes_throw.1 hx
  obtain rfl := passes_nil.1 hpass
  exact ⟨hs, fun _ he => absurd he List.not_mem_nil, .inl h⟩

theorem settles_bind {x : RunTask α} {g : α → RunTask β} {Q' : Except Error β → Prop}
    (hx : Settles R Absent x Q) (herror : ∀ e, ¬ Q (.error e))
    (hg : ∀ y, Q (.ok y) → Settles R Absent (g y) Q') : Settles R Absent (x >>= g) Q' := by
  intro s t r s' hs h hpass
  rcases Task.executes_bind.1 h with ⟨e, he, rfl⟩ | ⟨t₁, t₂, y, h₁, h₂, rfl⟩
  · obtain ⟨hs', hspares, hq | ⟨c, reply, e', hmem, hfailure, heq⟩⟩ := hx s t _ s' hs he hpass
    · exact absurd hq (herror e)
    · cases heq
      exact ⟨hs', hspares, .inr ⟨c, reply, e, hmem, hfailure, rfl⟩⟩
  · obtain ⟨s₁, hpass₁, hpass₂⟩ := passes_append.1 hpass
    obtain ⟨hs₁, hspares₁, hq | ⟨_, _, _, -, -, heq⟩⟩ := hx s t₁ _ s₁ hs h₁ hpass₁
    · obtain ⟨hs', hspares₂, hq'⟩ := hg y hq s₁ t₂ r s' hs₁ h₂ hpass₂
      refine ⟨hs', fun e he => (List.mem_append.1 he).elim (hspares₁ e) (hspares₂ e), ?_⟩
      rcases hq' with hq' | ⟨c, reply, e, hmem, hfailure, heq⟩
      · exact .inl hq'
      · exact .inr ⟨c, reply, e, List.mem_append_right _ hmem, hfailure, heq⟩
    · cases heq

theorem settles_log (hhides : Hides R a Absent) (level : Host.Level) (message : String) :
    Settles R Absent (Task.lift (log level message)) (· = .ok ()) := by
  intro s t r s' hs h hpass
  obtain ⟨_, hlog, rfl⟩ := Task.executes_lift.1 h
  obtain rfl := Program.executes_one.1 hlog
  obtain ⟨s₁, hstep, hnil⟩ := passes_cons.1 hpass
  obtain rfl := passes_nil.1 hnil
  refine ⟨hhides.log hs hstep, fun e he => ?_, .inl rfl⟩
  obtain rfl := List.mem_singleton.1 he
  trivial

theorem settles_call {c : Engine.Call} {next : c.Reply → Except Error α}
    (hspares : Step.Spares (.engine c))
    (hnext : ∀ reply e, next reply = .error e → Record.failure? ⟨.engine c, reply⟩ = some e)
    (h : ∀ s reply s', Absent s → R s ⟨.engine c, reply⟩ s' →
      Absent s' ∧ ∀ y, next reply = .ok y → Q (.ok y)) :
    Settles R Absent
      (Task.ofProgram (Program.step (S := steps) (.engine c) fun reply => .done (next reply)))
      Q := by
  intro s t r s' hs hx hpass
  obtain ⟨reply, _, hdone, rfl⟩ := Program.executes_step.1 hx
  obtain ⟨rfl, rfl⟩ := Program.executes_done.1 hdone
  obtain ⟨s₁, hstep, hnil⟩ := passes_cons.1 hpass
  obtain rfl := passes_nil.1 hnil
  obtain ⟨hs', hq⟩ := h s reply s' hs hstep
  refine ⟨hs', fun e he => ?_, ?_⟩
  · obtain rfl := List.mem_singleton.1 he
    exact hspares
  · cases hr : next reply with
    | ok y => exact .inl (hq y hr)
    | error e => exact .inr ⟨c, reply, e, List.mem_singleton_self _, hnext reply e hr, rfl⟩

end Settles

section Hides

variable (hhides : Hides R a Absent)

include hhides

theorem settles_workspaceExists (hb : a.backend = .workspace) :
    Settles R Absent a.workspaceExists (· = .ok false) := by
  refine settles_bind (Q := fun r => ∃ names, r = .ok names ∧ a.envName ∉ names)
    (settles_call trivial (fun reply e he => by cases he; rfl) fun s reply s' hs hstep => ?_)
    not_exists_of_error fun names hnames => ?_
  · obtain ⟨hs', habsent⟩ := hhides.listing hb hs hstep
    exact ⟨hs', fun names hreply => ⟨names, rfl, habsent names hreply⟩⟩
  · obtain ⟨_, heq, habsent⟩ := hnames
    cases heq
    exact settles_pure (congrArg Except.ok (Bool.eq_false_iff.2 fun h =>
      habsent (List.contains_iff_mem.1 h)))

theorem settles_initBackend (hb : a.backend = .workspace) :
    Settles R Absent (Task.ofProgram (Action.call (.initBackend a.envName))) (· = .ok ()) :=
  settles_call trivial (fun reply e he => by cases he; rfl) fun _ _ _ hs hstep =>
    ⟨hhides.initBackend hb hs hstep, fun _ _ => rfl⟩

variable {f : StateFile}

theorem settles_initLocal (hb : a.backend = .stored f) :
    Settles R Absent (Task.ofProgram (Action.call .initLocal)) (· = .ok ()) :=
  settles_call trivial (fun reply e he => by cases he; rfl) fun _ _ _ hs hstep =>
    ⟨hhides.initLocal hb hs hstep, fun _ _ => rfl⟩

theorem settles_download (hb : a.backend = .stored f) :
    Settles R Absent (fromStorage f.download) fun r => ∃ v, r = .ok v ∧ v.isZero = true := by
  have hprobe : Settles R Absent (fromStorage f.remoteVersion)
      fun r => ∃ v, r = .ok v ∧ v.isZero = true := by
    intro s t r s' hs hx hpass
    obtain ⟨r', hone, rfl⟩ := Task.executes_mapError.1 hx
    obtain rfl := Program.executes_one.1 hone
    obtain ⟨s₁, hstep, hnil⟩ := passes_cons.1 hpass
    obtain rfl := passes_nil.1 hnil
    obtain ⟨hs', v, rfl, hzero⟩ := hhides.probe hb hs hstep
    refine ⟨hs', fun e he => ?_, .inl ⟨v, rfl, hzero⟩⟩
    obtain rfl := List.mem_singleton.1 he
    trivial
  rw [StateFile.download, fromStorage_bind]
  refine settles_bind hprobe not_exists_of_error fun probed hprobed => ?_
  obtain ⟨_, heq, hzero⟩ := hprobed
  cases heq
  simp only [hzero, if_true, fromStorage_bind]
  refine settles_bind (Q := (· = .ok ())) ?_ (error_ne_ok _) fun _ _ => settles_pure ⟨_, rfl, hzero⟩
  exact fun s t r s' hs hx hpass => settles_log hhides _ _ s t r s' hs (by
    obtain ⟨r', hr', rfl⟩ := Task.executes_mapError.1 hx
    obtain ⟨_, hlog, rfl⟩ := Task.executes_lift.1 hr'
    exact Task.executes_lift.2 ⟨_, hlog, rfl⟩) hpass

theorem settles_hasState : Settles R Absent a.hasState (· = .ok false) := by
  unfold Action.hasState
  cases hb : a.backend with
  | workspace =>
    exact settles_bind (settles_initBackend hhides hb) (error_ne_ok _) fun _ _ =>
      settles_workspaceExists hhides hb
  | stored f =>
    refine settles_bind (settles_initLocal hhides hb) (error_ne_ok _) fun _ _ =>
      settles_bind (settles_download hhides hb) not_exists_of_error fun v hv => ?_
    obtain ⟨_, heq, hzero⟩ := hv
    cases heq
    exact settles_pure (by rw [hzero]; rfl)

end Hides

/-- The runs that may come after a destroy without bringing the environment back. -/
inductive Visit where
  | destroy
  | fetch (planOnly : Bool)

namespace Visit

def run (a : Action) : Visit → RunTask RunResult
  | destroy => a.destroy
  | fetch planOnly => a.fetch planOnly

/-- How a run says that there is no environment. -/
def FindsNothing (a : Action) : Visit → Except Error RunResult → Prop
  | destroy, r => r = .ok ⟨.empty a.envName, {}⟩
  | fetch true, r => r = .ok ⟨.plan a.envName, {}⟩
  | fetch false, r => ∃ text, r = .error (.storageNotFound text)

end Visit

structure Visited where
  visit : Visit
  record : Record
  result : Except Error RunResult

namespace Visited

/-- Nothing was taken away, and the environment was not found, unless the engine failed. -/
def IsIdle (a : Action) (v : Visited) : Prop :=
  (∀ e ∈ v.record, e.op.Spares) ∧
    (v.visit.FindsNothing a v.result ∨ ∃ c reply e, ⟨.engine c, reply⟩ ∈ v.record ∧
      Record.failure? ⟨.engine c, reply⟩ = some e ∧ v.result = .error e)

end Visited

inductive Visits (R : σ → Event steps → σ → Prop) (a : Action) : σ → List Visited → σ → Prop where
  | nil (s : σ) : Visits R a s [] s
  | cons {s s₁ s' : σ} {v : Visited} {rest : List Visited} :
      (v.visit.run a).run.Executes v.record v.result → Passes R s v.record s₁ →
      Visits R a s₁ rest s' → Visits R a s (v :: rest) s'

section Visits

theorem settles_validate (hn : Text.isAllBlank a.envName = false) :
    Settles R Absent a.validate (· = .ok ()) := by
  simp only [Action.validate, hn, Bool.false_eq_true, if_false]
  exact settles_pure rfl

theorem settles_missingState (hhides : Hides R a Absent) (planOnly : Bool) (text : String) :
    Settles R Absent (a.missingState planOnly text) ((Visit.fetch planOnly).FindsNothing a) := by
  cases planOnly with
  | true => exact settles_bind (settles_log hhides _ _) (error_ne_ok _) fun _ _ => settles_pure rfl
  | false => exact settles_throw ⟨_, rfl⟩

variable (hhides : Hides R a Absent) (hn : Text.isAllBlank a.envName = false)

include hhides hn

theorem settles_visit (v : Visit) : Settles R Absent (v.run a) (v.FindsNothing a) := by
  cases v with
  | destroy =>
    refine settles_bind (settles_validate hn) (error_ne_ok _) fun _ _ =>
      settles_bind (settles_log hhides _ _) (error_ne_ok _) fun _ _ =>
        settles_bind (settles_hasState hhides) (error_ne_ok _) fun found hfound => ?_
    cases hfound
    exact settles_bind (settles_log hhides _ _) (error_ne_ok _) fun _ _ => settles_pure rfl
  | fetch planOnly =>
    refine settles_bind (settles_validate hn) (error_ne_ok _) fun _ _ => ?_
    cases hb : a.backend with
    | workspace =>
      refine settles_bind (settles_initBackend hhides hb) (error_ne_ok _) fun _ _ =>
        settles_bind (settles_workspaceExists hhides hb) (error_ne_ok _) fun found hfound => ?_
      cases hfound
      exact settles_missingState hhides planOnly _
    | stored f =>
      refine settles_bind (settles_initLocal hhides hb) (error_ne_ok _) fun _ _ =>
        settles_bind (settles_download hhides hb) not_exists_of_error
          fun version hversion => ?_
      obtain ⟨_, heq, hzero⟩ := hversion
      cases heq
      simp only [hzero, if_true]
      exact settles_missingState hhides planOnly _

theorem Visits.idle {s s' : σ} {vs : List Visited} (h : Visits R a s vs s') (hs : Absent s) :
    Absent s' ∧ ∀ v ∈ vs, v.IsIdle a := by
  induction h with
  | nil s => exact ⟨hs, fun _ hv => absurd hv List.not_mem_nil⟩
  | cons hx hpass _ ih =>
    obtain ⟨hs₁, hspares, hresult⟩ := settles_visit hhides hn _ _ _ _ _ hs hx hpass
    obtain ⟨hs', hrest⟩ := ih hs₁
    refine ⟨hs', fun v hv => ?_⟩
    rcases List.mem_cons.1 hv with rfl | hv
    · exact ⟨hspares, hresult⟩
    · exact hrest v hv

/-- The environment is absent, and no number of runs finds it again. -/
def StaysGone (R : σ → Event steps → σ → Prop) (a : Action) (Absent : σ → Prop) (s : σ) : Prop :=
  Absent s ∧ ∀ vs s', Visits R a s vs s' → Absent s' ∧ ∀ v ∈ vs, v.IsIdle a

theorem staysGone {s : σ} (hs : Absent s) : StaysGone R a Absent s :=
  ⟨hs, fun _ _ h => h.idle hhides hn hs⟩

end Visits

abbrev Workspaces : Type := String → Prop

/-- The listing reflects which workspaces were made and deleted. A call that failed may have
touched the workspace that it was about. -/
def Workspaces.Reflects (s : Workspaces) : Event steps → Workspaces → Prop
  | ⟨.engine .listWorkspaces, reply⟩, s' =>
    s' = s ∧ ∀ names, reply = .ok names → ∀ name, name ∈ names ↔ s name
  | ⟨.engine (.newWorkspace name), reply⟩, s' =>
    (∀ other, other ≠ name → (s' other ↔ s other)) ∧ (reply = .ok () → s' name)
  | ⟨.engine (.deleteWorkspace name), reply⟩, s' =>
    (∀ other, other ≠ name → (s' other ↔ s other)) ∧ (reply = .ok () → ¬ s' name)
  | _, s' => s' = s

theorem hides_workspace (hb : a.backend = .workspace) :
    Hides Workspaces.Reflects a fun s => ¬ s a.envName where
  log s line reply s' hs hstep := by
    cases hstep
    exact hs
  initBackend _ s reply s' hs hstep := by
    cases hstep
    exact hs
  listing _ s reply s' hs hstep := by
    obtain ⟨rfl, hnames⟩ := hstep
    exact ⟨hs, fun names hreply hmem => hs ((hnames names hreply _).1 hmem)⟩
  initLocal f hf := by cases hb.symm.trans hf
  probe f hf := by cases hb.symm.trans hf

theorem not_blank_of_destroy {t : Record} {result : RunResult}
    (h : a.destroy.run.Executes t (.ok result)) : Text.isAllBlank a.envName = false := by
  obtain ⟨_, _, _, hvalidate, -, -⟩ := Task.executes_bind_ok.1 h
  unfold Action.validate at hvalidate
  split at hvalidate
  · cases (Task.executes_throw.1 hvalidate).2
  · next hn => exact Bool.not_eq_true _ ▸ hn

theorem absent_of_destroy_workspace (hb : a.backend = .workspace)
    (hname : a.envName ≠ Engine.defaultWorkspace) {result : RunResult} {s s' : Workspaces}
    (h : a.destroy.run.Performs Workspaces.Reflects s (.ok result) s') : ¬ s' a.envName := by
  have hlog {level : Host.Level} {message : String} {s s' : Workspaces} {y : Unit}
      (h : (Task.lift (log level message) : RunTask Unit).run.Performs Workspaces.Reflects s
        (.ok y) s') : s' = s :=
    Program.performs_one.1 (performs_lift_ok.1 h)
  obtain ⟨_, _, -, h₁⟩ := performs_bind_ok.1 h
  obtain ⟨_, _, -, h₂⟩ := performs_bind_ok.1 h₁
  obtain ⟨found, s₁, hstate, h₃⟩ := performs_bind_ok.1 h₂
  cases found with
  | false =>
    -- The listing that did not show it was true of the workspaces, which have not changed since.
    obtain ⟨_, s₂, hsay, h₄⟩ := performs_bind_ok.1 h₃
    obtain ⟨-, rfl⟩ := performs_pure.1 h₄
    obtain rfl := hlog hsay
    rw [Action.hasState, hb] at hstate
    obtain ⟨_, _, -, hexists⟩ := performs_bind_ok.1 hstate
    obtain ⟨names, s₂, hlist, hpure⟩ := performs_bind_ok.1 hexists
    obtain ⟨hcontains, rfl⟩ := performs_pure.1 hpure
    obtain ⟨rfl, hnames⟩ := Program.performs_one.1 hlist
    intro hmem
    have hfound := List.contains_iff_mem.2 ((hnames names rfl _).2 hmem)
    rw [← Except.ok.inj hcontains] at hfound
    cases hfound
  | true =>
    obtain ⟨_, s₂, hattempt, h₄⟩ := performs_bind_ok.1 h₃
    obtain ⟨_, s₃, hsay, h₅⟩ := performs_bind_ok.1 h₄
    obtain ⟨-, rfl⟩ := performs_pure.1 h₅
    obtain rfl := hlog hsay
    obtain ⟨_, _, -, h₆⟩ := performs_bind_ok.1 hattempt
    obtain ⟨_, s₄, hdrop, h₇⟩ := performs_bind_ok.1 h₆
    obtain ⟨-, rfl⟩ := performs_pure.1 h₇
    simp only [Action.dropState, hb, hname, if_false] at hdrop
    exact (Program.performs_one.1 hdrop).2 rfl

end Provision.Lifecycle
