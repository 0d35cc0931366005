import Provision.Proofs.Failing
import Provision.Proofs.Lifecycle.Looking
import Provision.Proofs.Lifecycle.Record

/-!
# Validation errors of a run

A run ends with a validation error for one of two reasons: its environment has no name, or its
last step was refused. Errors of the apply itself are wrapped, and a file of the local copy that
cannot be used is a read error. What comes before the refused step depends on the step: nothing
but log lines before the engine is initialized, the initialization before the first probe of the
stored object, a probe that was answered before any other call on the driver, and no more than the
setup before a call that takes variables.
-/

namespace Provision.Lifecycle

open Provision.Task (executes_bind_ok executes_lift_ok executes_mapError_ok fails_bind fails_lift
  fails_mapError fails_one fails_pure fails_throw)

def Refuses (text : String) (e : Event steps) : Prop :=
  Record.failure? e = some (.validation text)

def Blames (K : Event steps → Prop) (t : Record) (e : Error) : Prop :=
  ∀ text, e = .validation text → ∃ t₀ last, t = t₀ ++ [last] ∧ K last ∧ Refuses text last

section Blames

variable {K : Event steps → Prop} {e : Error}

theorem Blames.after {t u : Record} (h : Blames K u e) : Blames K (t ++ u) e := by
  intro text htext
  obtain ⟨u₀, last, rfl, hlast, hrefuses⟩ := h text htext
  exact ⟨t ++ u₀, last, (List.append_assoc _ _ _).symm, hlast, hrefuses⟩

theorem blames_one {last : Event steps} (hlast : K last) (h : Record.failure? last = some e) :
    Blames K [last] e := by
  rintro text rfl
  exact ⟨[], last, rfl, hlast, h⟩

theorem blames_of_ne {t : Record} (h : ∀ text, e ≠ .validation text) : Blames K t e :=
  fun text htext => absurd htext (h text)

theorem fails_then {α β : Type} {x : RunTask α} {f : α → RunTask β} (hx : x.Fails (Blames K))
    (hf : ∀ a, (f a).Fails (Blames K)) : (x >>= f).Fails (Blames K) :=
  fails_bind hx fun _ a _ => (hf a).mono fun _ _ h => h.after

end Blames

theorem executes_left {α β : Type} {x : RunTask α} {f : α → RunTask β} {t : Record} {e : Error}
    (h : (x >>= f).run.Executes t (.error e)) (hf : ∀ y, (f y).Fails fun _ e' => e' ≠ e) :
    x.run.Executes t (.error e) := by
  rcases Task.executes_bind.1 h with ⟨e', hx, heq⟩ | ⟨_, u, y, -, hy, -⟩
  · cases heq
    exact hx
  · exact absurd rfl (hf y u e hy)

def IsInit : Engine.Call → Prop
  | .initBackend _ => True
  | .initLocal => True
  | _ => False

def Late (a : Action) : Event steps → Prop
  | ⟨.engine c, _⟩ => ¬ IsInit c
  | ⟨.storage c, _⟩ => ∃ f, a.backend = .stored f ∧ c.key = f.key
  | ⟨.host _, _⟩ => False

def Probed (f : StateFile) (t : Record) : Prop :=
  ∃ v : Storage.ObjectVersion,
    ⟨.storage (.version f.key), (.ok v : Except Storage.Error Storage.ObjectVersion)⟩ ∈ t

inductive Refused (a : Action) (text : String) : Record → Prop where
  | atStart {c : Engine.Call} {reply : c.Reply} (hc : IsInit c)
      (h : Refuses text ⟨.engine c, reply⟩) : Refused a text [⟨.engine c, reply⟩]
  | atProbe {f : StateFile} {reply : Except Storage.Error Storage.ObjectVersion}
      (hb : a.backend = .stored f) (h : Refuses text ⟨.storage (.version f.key), reply⟩) :
      Refused a text
        [⟨.engine .initLocal, (.ok () : Except Error Unit)⟩, ⟨.storage (.version f.key), reply⟩]
  | later {t : Record} {last : Event steps} (hlast : Late a last)
      (hprobed : ∀ f, a.backend = .stored f → Probed f t) (h : Refuses text last) :
      Refused a text (t ++ [last])
  | logged {e : Event steps} {t : Record} (he : Record.IsLog e) (h : Refused a text t) :
      Refused a text (e :: t)

/-- A part that initializes the engine and probes the stored object, if there is one. -/
structure Opens {α : Type} (a : Action) (x : RunTask α) : Prop where
  refused : x.Fails fun t e => ∀ text, e = .validation text → Refused a text t
  probed : ∀ t y, x.run.Executes t (.ok y) → ∀ f, a.backend = .stored f → Probed f t

variable {a : Action} {f : StateFile}

theorem Opens.bind {α β : Type} {x : RunTask α} {g : α → RunTask β} (hx : Opens a x)
    (hg : ∀ y, (g y).Fails (Blames (Late a))) : Opens a (x >>= g) where
  refused := by
    refine fails_bind hx.refused fun t y hy => (hg y).mono fun u e h text htext => ?_
    obtain ⟨u₀, last, rfl, hlast, hrefuses⟩ := h text htext
    rw [← List.append_assoc]
    refine .later hlast (fun f hb => ?_) hrefuses
    obtain ⟨v, hv⟩ := hx.probed t y hy f hb
    exact ⟨v, List.mem_append_left _ hv⟩
  probed t z hz f hb := by
    obtain ⟨t₁, t₂, y, hy, -, rfl⟩ := executes_bind_ok.1 hz
    obtain ⟨v, hv⟩ := hx.probed t₁ y hy f hb
    exact ⟨v, List.mem_append_left _ hv⟩

theorem Opens.logged {α : Type} {x : RunTask α} (hx : Opens a x) (level : Host.Level)
    (message : String) : Opens a (do Task.lift (log level message); x) where
  refused := by
    refine fails_bind fails_lift fun t _ ht => hx.refused.mono fun u e h text htext => ?_
    obtain rfl := Program.executes_one.1 (executes_lift_ok.1 ht)
    exact .logged trivial (h text htext)
  probed t y hy f hb := by
    obtain ⟨t₁, t₂, _, -, hy', rfl⟩ := executes_bind_ok.1 hy
    obtain ⟨v, hv⟩ := hx.probed t₂ y hy' f hb
    exact ⟨v, List.mem_append_right _ hv⟩

theorem fromStorage_bind {α β : Type} (x : StorageTask α) (g : α → StorageTask β) :
    fromStorage (x >>= g) = fromStorage x >>= fun y => fromStorage (g y) :=
  Task.mapError_bind x g

namespace StateFile

variable {K : Event steps → Prop}

theorem fails_attempt {α : Type} {p : Run (Except Host.Fault α)} {report : Host.Fault → String} :
    (fromStorage (attempt p report)).Fails (Blames K) :=
  fails_mapError (fails_mapError fun _ _ _ => blames_of_ne nofun)

theorem fails_call {c : Storage.Call} {α : Type} {next : c.Reply → Except Storage.Error α}
    (hK : ∀ reply, K ⟨.storage c, reply⟩)
    (hnext : ∀ reply e, next reply = .error e → Record.storageError c reply = some e) :
    (fromStorage (Task.ofProgram
      (Program.step (S := steps) (.storage c) fun reply => .done (next reply)))).Fails (Blames K) :=
  fails_mapError (fails_one fun reply e he =>
    blames_one (hK reply) (by simp only [Record.failure?, hnext reply e he, Option.map_some]))

theorem fails_log (level : Host.Level) (message : String) :
    (fromStorage (Task.lift (log level message))).Fails (Blames K) :=
  fails_mapError fails_lift

theorem fails_writeLocal (content : Bytes) :
    (fromStorage (f.writeLocal content)).Fails (Blames K) := by
  unfold writeLocal
  split
  · rw [fromStorage_bind]
    exact fails_then fails_attempt fun _ => fails_attempt
  · exact fails_attempt

variable (hb : a.backend = .stored f)

include hb

theorem fails_delete : (fromStorage f.delete).Fails (Blames (Late a)) := by
  simp only [delete, fromStorage_bind]
  refine fails_then ?_ fun _ => fails_log _ _
  exact fails_call (fun _ => ⟨f, hb, rfl⟩) fun reply e he => by cases he; rfl

theorem opens_probe : Opens a (do
    Task.ofProgram (Action.call .initLocal)
    fromStorage f.remoteVersion) where
  refused := by
    refine fails_bind (fails_one fun reply e he text htext => ?_) fun t _ ht => ?_
    · cases he
      exact .atStart trivial (congrArg some htext)
    · obtain rfl := Program.executes_one.1 ht
      refine fails_mapError (fails_one fun reply e he text htext => ?_)
      cases he
      exact .atProbe hb (congrArg some htext)
  probed t v ht f' hb' := by
    obtain rfl := Backend.stored.inj (hb.symm.trans hb')
    obtain ⟨_, _, _, -, hprobe, rfl⟩ := executes_bind_ok.1 ht
    obtain rfl := Program.executes_one.1 (executes_mapError_ok.1 hprobe)
    exact ⟨v, List.mem_append_right _ (List.mem_singleton_self _)⟩

theorem opens_download {α : Type} {g : Storage.ObjectVersion → RunTask α}
    (hg : ∀ v, (g v).Fails (Blames (Late a))) : Opens a (do
      Task.ofProgram (Action.call .initLocal)
      let v ← fromStorage f.download
      g v) := by
  simp only [download, fromStorage_bind, bind_assoc]
  rw [← bind_assoc]
  refine (opens_probe hb).bind fun probed => ?_
  split
  · refine fails_then ?_ hg
    rw [fromStorage_bind]
    exact fails_then (fails_log _ _) fun _ => fails_pure
  · simp only [fromStorage_bind, bind_assoc]
    refine fails_then (fails_call (fun _ => ⟨f, hb, rfl⟩) fun reply e he => by cases he; rfl)
      fun object => fails_then (fails_writeLocal _) fun _ => fails_then (fails_log _ _) fun _ => ?_
    exact fails_then fails_pure hg

end StateFile

theorem malformed_of_parseSerial {raw : Bytes} {e : Error} (h : parseSerial raw = .error e) :
    ∃ text, e = .malformedState text := by
  unfold parseSerial at h
  split at h
  · cases h
    exact ⟨_, rfl⟩
  · split at h
    · cases h
      exact ⟨_, rfl⟩
    · cases h
    · cases h
      exact ⟨_, rfl⟩

theorem parseSerial_ne {raw : Bytes} {text : String} :
    parseSerial raw ≠ .error (.validation text) := by
  intro h
  obtain ⟨_, heq⟩ := malformed_of_parseSerial h
  cases heq

namespace Action

theorem opens_initBackend (hb : a.backend = .workspace) :
    Opens a (Task.ofProgram (call (.initBackend a.envName))) where
  refused := fails_one fun reply e he text htext => by
    cases he
    exact .atStart trivial (congrArg some htext)
  probed t _ _ f hf := by cases hb.symm.trans hf

theorem fails_engine {c : Engine.Call} {α : Type} {next : c.Reply → Except Error α}
    (hc : ¬ IsInit c) (hnext : ∀ reply e, next reply = .error e →
      Record.failure? ⟨.engine c, reply⟩ = some e) :
    (Task.ofProgram (Program.step (S := steps) (.engine c) fun reply =>
      .done (next reply))).Fails (Blames (Late a)) :=
  fails_one fun reply e he => blames_one hc (hnext reply e he)

theorem fails_log (level : Host.Level) (message : String) :
    (Task.lift (log level message) : RunTask Unit).Fails (Blames (Late a)) :=
  fails_lift

theorem fails_workspaceExists : a.workspaceExists.Fails (Blames (Late a)) :=
  fails_then (fails_engine id fun reply e he => by cases he; rfl) fun _ => fails_pure

theorem fails_ensureWorkspace : a.ensureWorkspace.Fails (Blames (Late a)) := by
  refine fails_then fails_workspaceExists fun found => ?_
  cases found with
  | true => exact fails_pure
  | false =>
    exact fails_then (fails_log _ _) fun _ => fails_engine id fun reply e he => by cases he; rfl

theorem fails_currentSerial : a.currentSerial.Fails (Blames (Late a)) := by
  refine fails_then (fails_engine id fun reply e he => by cases he; rfl) fun raw t e he => ?_
  obtain ⟨rfl, heq⟩ := Program.executes_done.1 he
  refine blames_of_ne ?_
  rintro text rfl
  exact parseSerial_ne heq.symm

theorem fails_readOutput :
    (Task.ofProgram (call (.readOutput a.envName))).Fails (Blames (Late a)) :=
  fails_engine id fun reply e he => by cases he; rfl

theorem fails_adoptAll (tracked : List String) (imports : List (String × String)) :
    (a.adoptAll tracked imports).Fails (Blames (Late a)) := by
  induction imports with
  | nil => exact fails_pure
  | cons entry rest ih =>
    obtain ⟨address, id⟩ := entry
    unfold adoptAll
    split
    · exact fails_then (fails_log _ _) fun _ => ih
    · exact fails_then (fails_log _ _) fun _ =>
        fails_then (fails_engine (fun h => h) fun reply e he => by cases he; rfl) fun _ => ih

theorem opens_prepareState : Opens a a.prepareState := by
  unfold prepareState
  cases hb : a.backend with
  | workspace => exact (opens_initBackend hb).bind fun _ => fails_ensureWorkspace
  | stored file =>
    refine StateFile.opens_download hb fun prior => ?_
    split
    · exact fails_log _ _
    · exact fails_pure

theorem opens_setup : Opens a a.setup := by
  refine opens_prepareState.bind fun _ => ?_
  split
  · exact fails_pure
  · exact fails_then (fails_engine id fun reply e he => by cases he; rfl) fun tracked =>
      fails_adoptAll _ _

theorem opens_hasState : Opens a a.hasState := by
  unfold hasState
  cases hb : a.backend with
  | workspace => exact (opens_initBackend hb).bind fun _ => fails_workspaceExists
  | stored file => exact StateFile.opens_download hb fun _ => fails_pure

theorem fails_attemptDestroy : a.attemptDestroy.Fails (Blames (Late a)) := by
  refine fails_then (fails_engine id fun reply e he => by cases he; rfl) fun _ =>
    fails_then ?_ fun _ => fails_pure
  unfold dropState
  cases hb : a.backend with
  | workspace =>
    dsimp only
    split
    · exact fails_log _ _
    · exact fails_engine id fun reply e he => by cases he; rfl
  | stored file => exact StateFile.fails_delete hb

theorem fails_missingState (planOnly : Bool) (text : String) :
    (a.missingState planOnly text).Fails (Blames (Late a)) := by
  cases planOnly with
  | true => exact fails_then (fails_log _ _) fun _ => fails_pure
  | false => exact fails_throw (blames_of_ne nofun)

theorem fails_attemptApply : a.attemptApply.Fails fun _ e => e.infrastructureMayBeLive = true :=
  fails_bind (fails_mapError fun _ _ _ => rfl) fun _ _ _ => fails_mapError fun _ _ _ => rfl

theorem rollback_live (apply destroy : Error) :
    (Error.rollback apply destroy).infrastructureMayBeLive = true := by
  unfold Error.rollback
  split <;> rfl

theorem recover_live {failure report : Error} {t : Record}
    (hfailure : failure.infrastructureMayBeLive = true)
    (h : (a.recover failure).Executes t report) : report.infrastructureMayBeLive = true := by
  unfold recover at h
  split at h
  · obtain ⟨-, rfl⟩ := Program.executes_done.1 h
    exact hfailure
  · split at h
    · obtain ⟨_, _, _, -, h₁, -⟩ := Program.executes_bind.1 h
      obtain ⟨-, rfl⟩ := Program.executes_done.1 h₁
      exact hfailure
    · obtain ⟨_, _, _, -, h₁, -⟩ := Program.executes_bind.1 h
      obtain ⟨_, _, outcome, -, h₂, -⟩ := Program.executes_bind.1 h₁
      cases outcome with
      | ok result =>
        obtain ⟨_, _, _, -, h₃, -⟩ := Program.executes_bind.1 h₂
        obtain ⟨-, rfl⟩ := Program.executes_done.1 h₃
        exact hfailure
      | error second =>
        obtain ⟨_, _, _, -, h₃, -⟩ := Program.executes_bind.1 h₂
        obtain ⟨_, _, _, -, h₄, -⟩ := Program.executes_bind.1 h₃
        obtain ⟨-, rfl⟩ := Program.executes_done.1 h₄
        exact rollback_live failure second

def TakesVars : Step → Prop
  | .engine (.apply _) => True
  | .engine (.destroy _) => True
  | .engine (.adopt _ _ _) => True
  | _ => False

/-- If the last step takes variables, only a setup came before it. -/
def VarsAfterSetup (a : Action) (t : Record) : Prop :=
  ∀ t₀ last, t = t₀ ++ [last] → TakesVars last.op → ∀ e ∈ t₀, e.op.SetsUp a.IsCopy

theorem varsAfterSetup_of_setsUp {t : Record} (h : ∀ e ∈ t, e.op.SetsUp a.IsCopy) :
    a.VarsAfterSetup t := by
  rintro t₀ last rfl - e he
  exact h e (List.mem_append_left _ he)

theorem varsAfterSetup_of_not {t : Record} {last : Event steps} (h : ¬ TakesVars last.op) :
    a.VarsAfterSetup (t ++ [last]) := by
  intro t₀ last' heq hvars
  obtain ⟨-, hlast⟩ := List.append_inj' heq rfl
  obtain rfl := List.singleton_inj.1 hlast
  exact absurd hvars h

theorem varsAfterSetup_one {last : Event steps} : a.VarsAfterSetup [last] := by
  intro t₀ last' heq _ e he
  have hnil : [] = t₀ := (List.append_inj' ((List.nil_append [last]).trans heq) rfl).1
  exact absurd (hnil ▸ he) List.not_mem_nil

theorem VarsAfterSetup.after {t u : Record} (h : a.VarsAfterSetup u)
    (ht : ∀ e ∈ t, e.op.SetsUp a.IsCopy) : a.VarsAfterSetup (t ++ u) := by
  intro t₀ last heq hvars e he
  rcases List.eq_nil_or_concat u with rfl | ⟨u₀, last', rfl⟩
  · rw [List.append_nil] at heq
    exact ht e (heq ▸ List.mem_append_left _ he)
  · rw [List.concat_eq_append, ← List.append_assoc] at heq
    obtain ⟨rfl, hlast⟩ := List.append_inj' heq rfl
    obtain rfl := List.singleton_inj.1 hlast
    exact (List.mem_append.1 he).elim (ht e) (h u₀ _ (List.concat_eq_append ..) hvars e)

theorem VarsAfterSetup.tail {e : Event steps} {t : Record} (h : a.VarsAfterSetup (e :: t)) :
    a.VarsAfterSetup t :=
  fun t₀ last heq hvars e' he' =>
    h (e :: t₀) last (congrArg (e :: ·) heq) hvars e' (List.mem_cons_of_mem _ he')

theorem afterSetup_bind {α β : Type} {x : RunTask α} {f : α → RunTask β}
    (hx : x.run.Only (Step.SetsUp a.IsCopy))
    (hf : ∀ y, (f y).Fails fun t _ => a.VarsAfterSetup t) :
    (x >>= f).Fails fun t _ => a.VarsAfterSetup t :=
  fails_bind (fun _ _ h => varsAfterSetup_of_setsUp (hx.executes h)) fun _ y hy =>
    (hf y).mono fun _ _ h => h.after (hx.executes hy)

theorem fails_dropState : a.dropState.Fails fun t _ => ∃ last, t = [last] ∧
    ¬ TakesVars last.op := by
  unfold dropState
  cases hb : a.backend with
  | workspace =>
    dsimp only
    split
    · exact fails_lift
    · exact fails_one fun reply e _ => ⟨_, rfl, id⟩
  | stored file =>
    refine fails_mapError (fails_bind (fails_one fun reply e _ => ⟨_, rfl, id⟩) fun _ _ _ => ?_)
    exact fails_lift

theorem afterSetup_attemptDestroy :
    a.attemptDestroy.Fails fun t _ => a.VarsAfterSetup t := by
  refine fails_bind (fails_one fun _ _ _ => varsAfterSetup_one) fun t _ _ =>
    fails_bind (fails_dropState.mono fun u _ h => ?_) fun _ _ _ => fails_pure
  obtain ⟨last, rfl, hlast⟩ := h
  exact varsAfterSetup_of_not hlast

def namelessText : String := "env_name must not be empty"

theorem executes_validate {t : Record} {r : Except Error Unit}
    (h : a.validate.run.Executes t r) :
    t = [] ∧ ∀ e, r = .error e → e = .validation namelessText := by
  unfold validate at h
  split at h
  · obtain ⟨rfl, rfl⟩ := Task.executes_throw.1 h
    exact ⟨rfl, fun e he => (Except.error.inj he).symm⟩
  · obtain ⟨rfl, rfl⟩ := Task.executes_pure.1 h
    exact ⟨rfl, nofun⟩

def RefusedRun (a : Action) (text : String) (t : Record) : Prop :=
  t = [] ∧ text = namelessText ∨ Refused a text t

theorem Opens.validated {α : Type} {x : RunTask α} (hx : Opens a x) {t : Record} {text : String}
    (h : (do a.validate; x : RunTask α).run.Executes t (.error (.validation text))) :
    RefusedRun a text t := by
  rcases Task.executes_bind.1 h with ⟨e, hvalidate, heq⟩ | ⟨t₁, t₂, _, hvalidate, hrest, rfl⟩
  · obtain ⟨rfl, herror⟩ := executes_validate hvalidate
    exact .inl ⟨rfl, Error.validation.inj ((Except.error.inj heq).trans (herror e rfl))⟩
  · rw [(executes_validate hvalidate).1, List.nil_append]
    exact .inr (hx.refused t₂ _ hrest text rfl)

variable {t : Record} {text : String}

/-- A validation error of an apply is one of its setup, since later ones are wrapped. -/
theorem setup_of_apply (h : a.apply.run.Executes t (.error (.validation text))) :
    (do a.validate; a.setup).run.Executes t (.error (.validation text)) := by
  rw [apply, ← bind_assoc] at h
  refine executes_left h fun _ => fails_bind fails_lift fun _ _ _ =>
    fails_bind fails_lift fun u outcome houtcome => ?_
  cases outcome with
  | ok result => exact fails_bind fails_lift fun _ _ _ => fails_pure
  | error failure =>
    have hfailure := fails_attemptApply u failure (executes_lift_ok.1 houtcome)
    refine fails_bind fails_lift fun _ _ _ => fails_bind fails_lift fun _ report hreport => ?_
    have hreport := recover_live hfailure (executes_lift_ok.1 hreport)
    refine fails_throw ?_
    rintro rfl
    cases hreport

theorem refused_apply (h : a.apply.run.Executes t (.error (.validation text))) :
    RefusedRun a text t :=
  Opens.validated opens_setup (setup_of_apply h)

theorem refused_destroy (h : a.destroy.run.Executes t (.error (.validation text))) :
    RefusedRun a text t := by
  refine Opens.validated (Opens.logged (opens_hasState.bind fun found => ?_) _ _) h
  cases found with
  | true =>
    exact fails_then fails_attemptDestroy fun _ => fails_then (fails_log _ _) fun _ => fails_pure
  | false => exact fails_then (fails_log _ _) fun _ => fails_pure

theorem refused_fetch {planOnly : Bool}
    (h : (a.fetch planOnly).run.Executes t (.error (.validation text))) :
    RefusedRun a text t := by
  refine Opens.validated ?_ h
  cases hb : a.backend with
  | workspace =>
    refine (opens_initBackend hb).bind fun _ => fails_then fails_workspaceExists fun found => ?_
    cases found with
    | true =>
      exact fails_then fails_currentSerial fun _ => fails_then fails_readOutput fun _ => fails_pure
    | false => exact fails_missingState _ _
  | stored file =>
    refine StateFile.opens_download hb fun version => ?_
    split
    · exact fails_missingState _ _
    · exact fails_then fails_readOutput fun _ => fails_pure

theorem afterSetup_apply (h : a.apply.run.Executes t (.error (.validation text))) :
    a.VarsAfterSetup t :=
  varsAfterSetup_of_setsUp
    ((Task.only_bind only_validate fun _ => setsUp_setup).executes (setup_of_apply h))

theorem afterSetup_destroy : a.destroy.Fails fun t _ => a.VarsAfterSetup t := by
  have hlooks {α : Type} {x : RunTask α} (hx : x.run.Only (Step.Looks a.IsCopy)) :
      x.run.Only (Step.SetsUp a.IsCopy) := hx.mono fun _ => Step.Looks.setsUp
  refine afterSetup_bind only_validate fun _ => afterSetup_bind ?_ fun _ =>
    afterSetup_bind (hlooks (only_hasState mayLook_looks)) fun found => ?_
  · exact hlooks (only_log mayLook_looks.log _ _)
  · cases found with
    | true => exact fails_bind afterSetup_attemptDestroy fun _ _ _ =>
        fails_bind fails_lift fun _ _ _ => fails_pure
    | false => exact fails_bind fails_lift fun _ _ _ => fails_pure

theorem afterSetup_fetch (planOnly : Bool) :
    (a.fetch planOnly).Fails fun t _ => a.VarsAfterSetup t :=
  fun _ _ h => varsAfterSetup_of_setsUp fun e he =>
    Step.Looks.setsUp ((looks_fetch planOnly).executes h e he)

end Action

end Provision.Lifecycle
