import Provision.Proofs.Lifecycle.Fetch

/-!
# What is dropped, and when

The state of an environment is the only record of its infrastructure. A run removes it in one
place, right after the engine has destroyed the infrastructure; all other steps of an apply and
of a destroy spare both. A destroy asks the engine to destroy only what it has found, and once.
-/

namespace Provision.Lifecycle

open Provision.Task (executes_bind_ok executes_lift_ok executes_mapError_ok executes_pure_ok
  only_bind only_lift only_pure)

variable {a : Action} {t u : Record}

/-- Whatever is dropped was destroyed in the step before, and the default workspace is kept. -/
def Orderly (a : Action) (t : Record) : Prop :=
  ∀ t₁ e t₂, t = t₁ ++ e :: t₂ → (Record.dropped? e).isSome →
    (∃ t₀, t₁ = t₀ ++ [⟨.engine (.destroy a.envName), (.ok () : Except Error Unit)⟩]) ∧
      e.op ≠ .engine (.deleteWorkspace Engine.defaultWorkspace)

theorem dropped?_of_spares {e : Event steps} (h : e.op.Spares) : Record.dropped? e = none := by
  obtain ⟨op, reply⟩ := e
  cases op with
  | engine c =>
    cases c with
    | deleteWorkspace name => exact h.elim
    | _ => rfl
  | storage c =>
    cases c with
    | delete key => exact h.elim
    | _ => rfl
  | host r => rfl

theorem destroyed?_of_spares {e : Event steps} (h : e.op.Spares) :
    Record.destroyed? e = none := by
  obtain ⟨op, reply⟩ := e
  cases op with
  | engine c =>
    cases c with
    | destroy env => exact h.elim
    | _ => rfl
  | _ => rfl

theorem destroys_of_spares (h : ∀ e ∈ t, e.op.Spares) : Record.destroys t = [] :=
  List.filterMap_eq_nil_iff.2 fun e he => destroyed?_of_spares (h e he)

theorem destroys_append_nil (ht : Record.destroys t = []) (hu : Record.destroys u = []) :
    Record.destroys (t ++ u) = [] := by
  rw [Record.destroys] at ht hu ⊢
  rw [List.filterMap_append, ht, hu, List.append_nil]

theorem orderly_of_none (h : ∀ e ∈ t, Record.dropped? e = none) : Orderly a t := by
  rintro t₁ e t₂ rfl hdropped
  rw [h e (List.mem_append_right _ List.mem_cons_self)] at hdropped
  cases hdropped

theorem orderly_of_spares (h : ∀ e ∈ t, e.op.Spares) : Orderly a t :=
  orderly_of_none fun e he => dropped?_of_spares (h e he)

theorem Orderly.append (ht : Orderly a t) (hu : Orderly a u) : Orderly a (t ++ u) := by
  intro t₁ e t₂ heq hdropped
  rcases List.append_eq_append_iff.1 heq with ⟨v, rfl, rfl⟩ | ⟨v, rfl, hv⟩
  · obtain ⟨⟨u₀, rfl⟩, hdefault⟩ := hu v e t₂ rfl hdropped
    exact ⟨⟨t ++ u₀, (List.append_assoc _ _ _).symm⟩, hdefault⟩
  · cases v with
    | nil =>
      obtain ⟨⟨u₀, hnil⟩, -⟩ := hu [] e t₂ hv.symm hdropped
      exact absurd hnil.symm (List.append_ne_nil_of_right_ne_nil _ (List.cons_ne_nil _ _))
    | cons e' v =>
      obtain ⟨rfl, -⟩ := List.cons.inj hv
      exact ht t₁ e v rfl hdropped

theorem orderly_drop {e : Event steps}
    (he : e.op ≠ .engine (.deleteWorkspace Engine.defaultWorkspace)) :
    Orderly a [⟨.engine (.destroy a.envName), (.ok () : Except Error Unit)⟩, e] := by
  intro t₁ e' t₂ heq hdropped
  match t₁, heq with
  | [], heq =>
    obtain ⟨rfl, -⟩ := List.cons.inj heq
    cases hdropped
  | [d], heq =>
    obtain ⟨rfl, hrest⟩ := List.cons.inj heq
    obtain ⟨rfl, -⟩ := List.cons.inj hrest
    exact ⟨⟨[], rfl⟩, he⟩
  | d :: d' :: t₁, heq =>
    have hlength := congrArg List.length heq
    simp at hlength

namespace Action

theorem spares_log {ε : Type} (level : Host.Level) (message : String) :
    (Task.lift (log level message) : Task steps ε Unit).run.Only Step.Spares :=
  only_log (fun _ => trivial) level message

theorem spares_setup : a.setup.run.Only Step.Spares := only_setup mayApply_spares.toMaySetUp

theorem spares_attemptApply : a.attemptApply.run.Only Step.Spares :=
  only_attemptApply mayApply_spares

theorem spares_preservePartialState : a.preservePartialState.Only Step.Spares :=
  only_preservePartialState fun _ => mayApply_spares.store

theorem spares_hasState : a.hasState.run.Only Step.Spares :=
  only_hasState mayApply_spares.toMayLook

theorem executes_dropState {r : Except Error Unit} (h : a.dropState.run.Executes t r) :
    (∀ e ∈ t, e.op.Spares) ∨ ∃ e u, t = e :: u ∧
      e.op ≠ .engine (.deleteWorkspace Engine.defaultWorkspace) ∧
      Record.destroyed? e = none ∧ ∀ e' ∈ u, e'.op.Spares := by
  unfold dropState at h
  cases hb : a.backend with
  | workspace =>
    rw [hb] at h
    dsimp only at h
    split at h
    · exact .inl ((spares_log _ _).executes h)
    · next hname =>
      obtain rfl := Program.executes_one.1 h
      refine .inr ⟨_, [], rfl, fun heq => hname ?_, rfl, fun _ he => absurd he List.not_mem_nil⟩
      exact Engine.Call.deleteWorkspace.inj (Step.engine.inj heq)
  | stored file =>
    rw [hb] at h
    obtain ⟨r', hdelete, -⟩ := Task.executes_mapError.1 h
    rcases Task.executes_bind.1 hdelete with ⟨e, hcall, -⟩ | ⟨_, u, _, hcall, hlog, rfl⟩
    · obtain rfl := Program.executes_one.1 hcall
      exact .inr ⟨_, [], rfl, nofun, rfl, fun _ he => absurd he List.not_mem_nil⟩
    · obtain rfl := Program.executes_one.1 hcall
      exact .inr ⟨_, u, rfl, nofun, rfl, (spares_log _ _).executes hlog⟩

theorem executes_attemptDestroy {r : Except Error RunResult}
    (h : a.attemptDestroy.run.Executes t r) :
    Orderly a t ∧ ∃ reply u, t = ⟨.engine (.destroy a.envName), reply⟩ :: u ∧
      Record.destroys u = [] := by
  rcases Task.executes_bind.1 h with ⟨e, hdestroy, -⟩ | ⟨_, t₁, _, hdestroy, hrest, rfl⟩
  · obtain rfl := Program.executes_one.1 hdestroy
    refine ⟨orderly_of_none fun e' he' => ?_, _, [], rfl, rfl⟩
    obtain rfl := List.mem_singleton.1 he'
    rfl
  · obtain rfl := Program.executes_one.1 hdestroy
    obtain ⟨r', hdrop⟩ : ∃ r', a.dropState.run.Executes t₁ r' := by
      rcases Task.executes_bind.1 hrest with ⟨e, hdrop, -⟩ | ⟨u, _, _, hdrop, hpure, rfl⟩
      · exact ⟨_, hdrop⟩
      · obtain ⟨rfl, -⟩ := Task.executes_pure.1 hpure
        exact ⟨_, (List.append_nil u).symm ▸ hdrop⟩
    rcases executes_dropState hdrop with hspares | ⟨e, u, rfl, hdefault, hdestroyed, hspares⟩
    · refine ⟨Orderly.append (orderly_of_none fun e he => ?_) (orderly_of_spares hspares), _, t₁,
        rfl, destroys_of_spares hspares⟩
      obtain rfl := List.mem_singleton.1 he
      rfl
    · refine ⟨(orderly_drop hdefault).append (orderly_of_spares hspares), _, e :: u, rfl, ?_⟩
      exact (List.filterMap_cons_none hdestroyed).trans (destroys_of_spares hspares)

theorem orderly_recover {failure report : Error} (h : (a.recover failure).Executes t report) :
    Orderly a t := by
  have hlog {level : Host.Level} {message : String} {t : Record} {y : Unit}
      (h : (log level message).Executes t y) : Orderly a t :=
    orderly_of_spares fun e he => by
      obtain rfl := Program.executes_one.1 h
      obtain rfl := List.mem_singleton.1 he
      trivial
  have hdone {t : Record} {e e' : Error} (h : (.done e : Run Error).Executes t e') :
      Orderly a t := by
    obtain ⟨rfl, -⟩ := Program.executes_done.1 h
    exact orderly_of_spares fun _ he => absurd he List.not_mem_nil
  have hpreserve {t : Record} {y : Unit} (h : a.preservePartialState.Executes t y) : Orderly a t :=
    orderly_of_spares (spares_preservePartialState.executes h)
  unfold recover at h
  split at h
  · exact hdone h
  · split at h
    · obtain ⟨_, _, _, hkeep, h₁, rfl⟩ := Program.executes_bind.1 h
      exact (hpreserve hkeep).append (hdone h₁)
    · obtain ⟨_, _, _, hwarn, h₁, rfl⟩ := Program.executes_bind.1 h
      obtain ⟨_, _, outcome, hdestroy, h₂, rfl⟩ := Program.executes_bind.1 h₁
      refine (hlog hwarn).append ((executes_attemptDestroy hdestroy).1.append ?_)
      cases outcome with
      | ok result =>
        obtain ⟨_, _, _, hsay, h₃, rfl⟩ := Program.executes_bind.1 h₂
        exact (hlog hsay).append (hdone h₃)
      | error second =>
        obtain ⟨_, _, _, hsay, h₃, rfl⟩ := Program.executes_bind.1 h₂
        obtain ⟨_, _, _, hkeep, h₄, rfl⟩ := Program.executes_bind.1 h₃
        exact (hlog hsay).append ((hpreserve hkeep).append (hdone h₄))

/-- What holds of nothing, and is not lost by steps that spare the environment, may be shown for the
rest of a task alone. -/
theorem after_spares {P : Record → Prop} (hnil : P [])
    (hspares : ∀ t u, (∀ e ∈ t, e.op.Spares) → P u → P (t ++ u)) {α β : Type} {x : RunTask α}
    {g : α → RunTask β} {r : Except Error β} (hx : x.run.Only Step.Spares)
    (h : (x >>= g).run.Executes t r) (hg : ∀ y u, (g y).run.Executes u r → P u) : P t := by
  rcases Task.executes_bind.1 h with ⟨e, he, -⟩ | ⟨t₁, t₂, y, h₁, h₂, rfl⟩
  · rw [← List.append_nil t]
    exact hspares t [] (hx.executes he) hnil
  · exact hspares t₁ t₂ (hx.executes h₁) (hg y t₂ h₂)

theorem orderly_after {α β : Type} {x : RunTask α} {g : α → RunTask β} {r : Except Error β}
    (hx : x.run.Only Step.Spares) (h : (x >>= g).run.Executes t r)
    (hg : ∀ y u, (g y).run.Executes u r → Orderly a u) : Orderly a t :=
  after_spares (orderly_of_none fun _ he => absurd he List.not_mem_nil)
    (fun _ _ ht hu => (orderly_of_spares ht).append hu) hx h hg

theorem orderly_apply {r : Except Error RunResult} (h : a.apply.run.Executes t r) :
    Orderly a t := by
  refine orderly_after only_validate h fun _ t h => ?_
  refine orderly_after spares_setup h fun _ t h => ?_
  refine orderly_after (spares_log _ _) h fun _ t h => ?_
  refine orderly_after (only_lift spares_attemptApply) h fun outcome t h => ?_
  cases outcome with
  | ok result =>
    exact orderly_of_spares ((only_bind (spares_log _ _) fun _ => only_pure).executes h)
  | error failure =>
    refine orderly_after (spares_log _ _) h fun _ t h => ?_
    rcases Task.executes_bind.1 h with ⟨e, he, -⟩ | ⟨t₁, t₂, report, h₁, h₂, rfl⟩
    · obtain ⟨_, -, heq⟩ := Task.executes_lift.1 he
      cases heq
    · obtain ⟨rfl, -⟩ := Task.executes_throw.1 h₂
      rw [List.append_nil]
      exact orderly_recover (executes_lift_ok.1 h₁)

/-- The environment was found: it was listed, or the probe of its object found one. -/
def Found (a : Action) (t : Record) : Prop :=
  match a.backend with
  | .workspace => ∃ names : List String, a.envName ∈ names ∧
      ⟨.engine .listWorkspaces, (.ok names : Except Error (List String))⟩ ∈ t
  | .stored f => ∃ v : Storage.ObjectVersion, v.isZero = false ∧
      ⟨.storage (.version f.key), (.ok v : Except Storage.Error Storage.ObjectVersion)⟩ ∈ t

theorem Found.mono (h : Found a t) (hsub : t ⊆ u) : Found a u := by
  unfold Found at h ⊢
  cases hb : a.backend with
  | workspace =>
    rw [hb] at h
    obtain ⟨names, hname, hmem⟩ := h
    exact ⟨names, hname, hsub hmem⟩
  | stored f =>
    rw [hb] at h
    obtain ⟨v, hv, hmem⟩ := h
    exact ⟨v, hv, hsub hmem⟩

theorem found_of_hasState (h : a.hasState.run.Executes t (.ok true)) : Found a t := by
  unfold hasState at h
  unfold Found
  cases hb : a.backend with
  | workspace =>
    rw [hb] at h
    obtain ⟨_, _, _, -, h₁, rfl⟩ := executes_bind_ok.1 h
    obtain ⟨_, _, names, hlist, h₂, rfl⟩ := executes_bind_ok.1 h₁
    obtain ⟨rfl, hfound⟩ := executes_pure_ok.1 h₂
    obtain rfl := Program.executes_one.1 hlist
    exact ⟨names, List.contains_iff_mem.1 hfound.symm, by simp⟩
  | stored f =>
    rw [hb] at h
    obtain ⟨_, _, _, -, h₁, rfl⟩ := executes_bind_ok.1 h
    obtain ⟨_, _, v, hdownload, h₂, rfl⟩ := executes_bind_ok.1 h₁
    obtain ⟨rfl, hfound⟩ := executes_pure_ok.1 h₂
    obtain ⟨_, _, probed, hprobe, h₃, rfl⟩ := executes_bind_ok.1 (executes_mapError_ok.1 hdownload)
    obtain rfl := Program.executes_one.1 hprobe
    refine ⟨probed, ?_, by simp⟩
    -- An object that the probe does not find is not downloaded, and its version stays zero.
    cases hzero : probed.isZero with
    | false => rfl
    | true =>
      simp only [hzero, if_true] at h₃
      obtain ⟨_, _, _, -, h₄, -⟩ := executes_bind_ok.1 h₃
      obtain ⟨-, rfl⟩ := executes_pure_ok.1 h₄
      rw [hzero] at hfound
      cases hfound

theorem orderly_destroy {r : Except Error RunResult} (h : a.destroy.run.Executes t r) :
    Orderly a t := by
  refine orderly_after only_validate h fun _ t h => ?_
  refine orderly_after (spares_log _ _) h fun _ t h => ?_
  refine orderly_after spares_hasState h fun found t h => ?_
  cases found with
  | false =>
    exact orderly_of_spares ((only_bind (spares_log _ _) fun _ => only_pure).executes h)
  | true =>
    rcases Task.executes_bind.1 h with ⟨e, he, -⟩ | ⟨t₁, t₂, result, h₁, h₂, rfl⟩
    · exact (executes_attemptDestroy he).1
    · refine (executes_attemptDestroy h₁).1.append (orderly_of_spares ?_)
      exact (only_bind (spares_log _ _) fun _ => only_pure).executes h₂

/-- At most one destroy, and only of what was found before. -/
inductive DestroysFound (a : Action) : Record → Prop where
  | none {t : Record} (h : Record.destroys t = []) : DestroysFound a t
  | once {before after : Record} (reply : Except Error Unit) (hfound : Found a before)
      (hbefore : Record.destroys before = []) (hafter : Record.destroys after = []) :
      DestroysFound a (before ++ ⟨.engine (.destroy a.envName), reply⟩ :: after)

theorem DestroysFound.after (ht : ∀ e ∈ t, e.op.Spares) (hu : DestroysFound a u) :
    DestroysFound a (t ++ u) := by
  cases hu with
  | none h => exact .none (destroys_append_nil (destroys_of_spares ht) h)
  | once reply hfound hbefore hafter =>
    rw [← List.append_assoc]
    exact .once reply (hfound.mono (List.subset_append_right _ _))
      (destroys_append_nil (destroys_of_spares ht) hbefore) hafter

theorem destroysFound_destroy {r : Except Error RunResult} (h : a.destroy.run.Executes t r) :
    DestroysFound a t := by
  have hnone {t : Record} (ht : ∀ e ∈ t, e.op.Spares) : DestroysFound a t :=
    .none (destroys_of_spares ht)
  refine after_spares (.none rfl) (fun _ _ => .after) only_validate h fun _ t h => ?_
  refine after_spares (.none rfl) (fun _ _ => .after) (spares_log _ _) h fun _ t h => ?_
  rcases Task.executes_bind.1 h with ⟨e, he, -⟩ | ⟨t₁, t₂, found, h₁, h₂, rfl⟩
  · exact hnone (spares_hasState.executes he)
  · have hlast {y : RunResult} {message : String} {t : Record} {r : Except Error RunResult}
        (h : (do
          Task.lift (log .info message)
          return y : RunTask RunResult).run.Executes t r) : ∀ e ∈ t, e.op.Spares :=
      (only_bind (spares_log _ _) fun _ => only_pure).executes h
    cases found with
    | false => exact .after (spares_hasState.executes h₁) (hnone (hlast h₂))
    | true =>
      have hbefore := destroys_of_spares (spares_hasState.executes h₁)
      rcases Task.executes_bind.1 h₂ with ⟨e, he, -⟩ | ⟨t₃, t₄, result, h₃, h₄, rfl⟩
      · obtain ⟨-, reply, u, rfl, hu⟩ := executes_attemptDestroy he
        exact .once reply (found_of_hasState h₁) hbefore hu
      · obtain ⟨-, reply, u, rfl, hu⟩ := executes_attemptDestroy h₃
        exact .once reply (found_of_hasState h₁) hbefore
          (destroys_append_nil hu (destroys_of_spares (hlast h₄)))

end Action

end Provision.Lifecycle
