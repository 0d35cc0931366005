import Provision.Proofs.Conduct
import Provision.Proofs.Lifecycle.Rising

/-!
# Addresses that are adopted once

An apply asks once which addresses are in the state, and then adopts those of the configured
addresses that are not, one by one. It may stop between two of them; a later apply asks again and
goes on from there. So no address is adopted that is in the state already, and the engine applies
only when all that are configured are in it. Over a row of applies every address is adopted once at
most.
-/

namespace Provision.Lifecycle

open Provision.Task (Conducts conducts_bind conducts_of_only conducts_one conducts_pure only_bind
  only_lift only_mapError only_pure only_throw)

variable {σ : Type} {R : σ → Event steps → σ → Prop} {Held : σ → String → String → Prop}
  {s s' : σ} {a : Action}

/-- The surroundings hold addresses in the state of each environment. A listing tells all of them
and no others, and an address that was adopted is added. Only a call that takes something away can
lose one; in particular an apply keeps them, be it answered with an error or not. -/
structure Lists (R : σ → Event steps → σ → Prop) (Held : σ → String → String → Prop) : Prop where
  listed : ∀ ⦃s env names s'⦄, R s ⟨.engine (.listState env), .ok names⟩ s' →
    ∀ address, address ∈ names ↔ Held s' env address
  adopted : ∀ ⦃s env address id s'⦄, R s ⟨.engine (.adopt env address id), .ok ()⟩ s' →
    ∀ other, Held s' env other ↔ other = address ∨ Held s env other
  logged : ∀ ⦃s line reply s'⦄, R s ⟨.host (.log line), reply⟩ s' →
    ∀ env address, Held s' env address ↔ Held s env address
  keeps : ∀ ⦃s e s'⦄, R s e s' → e.op.Spares →
    ∀ env address, Held s env address → Held s' env address

/-- What is in the state is not adopted, and what is configured is in it when the engine applies. -/
def InOrder (Held : σ → String → String → Prop) (imports : Dict String) (s : σ) :
    Event steps → Prop
  | ⟨.engine (.adopt env address _), _⟩ => ¬ Held s env address
  | ⟨.engine (.apply env), _⟩ => ∀ address ∈ imports.keys, Held s env address
  | _ => True

def Step.Prepares : Step → Prop
  | .engine (.adopt _ _ _) => False
  | .engine (.apply _) => False
  | op => op.Spares

def Step.Concludes (env : String) : Step → Prop
  | .engine (.adopt _ _ _) => False
  | .engine (.apply name) => name = env
  | op => op.Spares

theorem Step.Prepares.inOrder {e : Event steps} (h : e.op.Prepares) (imports : Dict String)
    (s : σ) : InOrder Held imports s e := by
  obtain ⟨op, reply⟩ := e
  cases op with
  | engine c =>
    cases c with
    | adopt env address id => exact h.elim
    | apply env => exact h.elim
    | _ => trivial
  | _ => trivial

theorem Step.Concludes.spares {op : Step} {env : String} (h : op.Concludes env) : op.Spares := by
  cases op with
  | engine c =>
    cases c with
    | adopt name address id => exact h.elim
    | apply name => trivial
    | _ => exact h
  | _ => exact h

theorem Step.Concludes.inOrder {e : Event steps} {env : String} (h : e.op.Concludes env)
    {imports : Dict String} (hs : ∀ address ∈ imports.keys, Held s env address) :
    InOrder Held imports s e := by
  obtain ⟨op, reply⟩ := e
  cases op with
  | engine c =>
    cases c with
    | adopt name address id => exact h.elim
    | apply name =>
      obtain rfl : name = env := h
      exact hs
    | _ => trivial
  | _ => trivial

/-- Some addresses are finished, and the listing is right for those that are still to come. -/
structure Midway (Held : σ → String → String → Prop) (env : String) (tracked finished : List String)
    (entries : List (String × String)) (s : σ) : Prop where
  finished : ∀ address ∈ finished, Held s env address
  listed : ∀ e ∈ entries, e.1 ∈ tracked ↔ Held s env e.1

namespace Midway

variable {env address id : String} {tracked finished : List String}
  {entries rest : List (String × String)}

theorem congr (h : Midway Held env tracked finished entries s)
    (hsame : ∀ address, Held s' env address ↔ Held s env address) :
    Midway Held env tracked finished entries s' where
  finished k hk := (hsame k).2 (h.finished k hk)
  listed e he := (h.listed e he).trans (hsame e.1).symm

theorem skip (h : Midway Held env tracked finished ((address, id) :: rest) s)
    (htracked : address ∈ tracked) : Midway Held env tracked (address :: finished) rest s where
  finished := List.forall_mem_cons.2 ⟨(h.listed _ List.mem_cons_self).1 htracked, h.finished⟩
  listed e he := h.listed e (List.mem_cons_of_mem _ he)

theorem adopt (h : Midway Held env tracked finished ((address, id) :: rest) s)
    (hadded : ∀ other, Held s' env other ↔ other = address ∨ Held s env other)
    (hother : ∀ e ∈ rest, ¬ e.1 = address) :
    Midway Held env tracked (address :: finished) rest s' where
  finished := List.forall_mem_cons.2
    ⟨(hadded address).2 (.inl rfl), fun k hk => (hadded k).2 (.inr (h.finished k hk))⟩
  listed e he := by
    rw [h.listed e (List.mem_cons_of_mem _ he), hadded e.1, or_iff_right (hother e he)]

end Midway

namespace Action

theorem prepares_log {ε : Type} (level : Host.Level) (message : String) :
    (Task.lift (log level message) : Task steps ε Unit).run.Only Step.Prepares :=
  only_log (fun _ => trivial) level message

theorem prepares_prepareState (hb : a.backend = .workspace) :
    a.prepareState.run.Only Step.Prepares := by
  simp only [prepareState, hb]
  refine only_bind ⟨trivial, fun _ => trivial⟩ fun _ => ?_
  refine only_bind (only_bind ⟨trivial, fun _ => trivial⟩ fun _ => only_pure) fun found => ?_
  cases found with
  | true => exact only_pure
  | false => exact only_bind (prepares_log _ _) fun _ => ⟨trivial, fun _ => trivial⟩

theorem concludes_log {ε : Type} (level : Host.Level) (message : String) :
    (Task.lift (log level message) : Task steps ε Unit).run.Only (Step.Concludes a.envName) :=
  only_log (fun _ => trivial) level message

theorem concludes_attemptApply (hb : a.backend = .workspace) :
    a.attemptApply.run.Only (Step.Concludes a.envName) := by
  refine only_bind (only_mapError ⟨rfl, fun _ => trivial⟩) fun _ => only_mapError ?_
  refine only_bind ?_ fun version => only_bind ⟨trivial, fun _ => trivial⟩ fun _ => only_pure
  simp only [recordVersion, hb]
  exact only_bind (only_bind ⟨trivial, fun _ => trivial⟩ fun _ => trivial) fun _ => only_pure

theorem concludes_recover (hb : a.backend = .workspace) (hkeep : a.deleteOnFailure = false)
    (failure : Error) : (a.recover failure).Only (Step.Concludes a.envName) := by
  unfold recover
  split
  · trivial
  · simp only [hkeep, preservePartialState, hb, Bool.not_false, if_true]
    trivial

section Adopting

variable (hl : Lists R Held)

include hl

theorem conducts_log {imports : Dict String} {level : Host.Level} {message : String}
    {I : σ → Prop}
    (hI : ∀ s s', (∀ env address, Held s' env address ↔ Held s env address) → I s → I s') :
    Conducts R (InOrder Held imports) I (Task.lift (log level message) : RunTask Unit)
      fun _ => I := by
  intro s t r hs h
  obtain ⟨_, hlog, rfl⟩ := Task.executes_lift.1 h
  obtain rfl := Program.executes_one.1 hlog
  refine ⟨⟨trivial, fun _ _ => trivial⟩, fun _ s' _ hpass => ?_⟩
  obtain ⟨s₁, hstep, hnil⟩ := passes_cons.1 hpass
  obtain rfl := passes_nil.1 hnil
  exact hI s s' (hl.logged hstep) hs

theorem conducts_adoptAll (imports : Dict String) (tracked : List String)
    {entries : List (String × String)} (hkeys : entries.Pairwise fun e e' => e.1 < e'.1)
    (finished : List String) :
    Conducts R (InOrder Held imports) (Midway Held a.envName tracked finished entries)
      (a.adoptAll tracked entries)
      fun _ s => (∀ address ∈ finished, Held s a.envName address) ∧
        ∀ e ∈ entries, Held s a.envName e.1 := by
  -- Each round moves the first entry to those that are finished, adopted or not.
  induction entries generalizing finished with
  | nil => exact conducts_pure fun s hs => ⟨hs.finished, fun e he => absurd he List.not_mem_nil⟩
  | cons entry rest ih =>
    obtain ⟨address, id⟩ := entry
    obtain ⟨hfirst, hrest⟩ := List.pairwise_cons.1 hkeys
    have hlog (message : String) : Conducts R (InOrder Held imports)
        (Midway Held a.envName tracked finished ((address, id) :: rest))
        (Task.lift (log .info message))
        fun _ => Midway Held a.envName tracked finished ((address, id) :: rest) :=
      conducts_log hl fun _ _ hsame hs => hs.congr (hsame a.envName)
    have hgo : Conducts R (InOrder Held imports)
        (Midway Held a.envName tracked (address :: finished) rest) (a.adoptAll tracked rest)
        fun _ s => (∀ k ∈ finished, Held s a.envName k) ∧
          ∀ e ∈ (address, id) :: rest, Held s a.envName e.1 :=
      (ih hrest (address :: finished)).imp (fun _ hs => hs) fun _ _ hend =>
        ⟨fun k hk => hend.1 k (List.mem_cons_of_mem _ hk),
          List.forall_mem_cons.2 ⟨hend.1 address List.mem_cons_self, hend.2⟩⟩
    unfold adoptAll
    split
    · next htracked =>
      exact conducts_bind (hlog _) fun _ =>
        hgo.imp (fun _ hs => hs.skip (List.contains_iff_mem.1 htracked)) fun _ _ hend => hend
    · next htracked =>
      refine conducts_bind (hlog _) fun _ => conducts_bind (conducts_one ?_ ?_) fun _ => hgo
      · intro s reply hs hheld
        exact htracked (List.contains_iff_mem.2 ((hs.listed _ List.mem_cons_self).2 hheld))
      · rintro s reply s' ⟨⟩ hs hstep rfl
        exact hs.adopt (hl.adopted hstep) fun e he heq => String.lt_irrefl _ (heq ▸ hfirst e he)

theorem conducts_setup (hb : a.backend = .workspace) :
    Conducts R (InOrder Held a.imports) (fun _ => True) a.setup
      fun _ s => ∀ address ∈ a.imports.keys, Held s a.envName address := by
  refine conducts_bind (conducts_of_only (prepares_prepareState hb)
    (fun s e he _ => he.inOrder _ s) fun _ _ _ _ _ _ => trivial) fun _ => ?_
  split
  · next hempty =>
    refine conducts_pure fun s _ address haddress => ?_
    rw [Dict.keys, List.isEmpty_iff.1 hempty] at haddress
    cases haddress
  · refine conducts_bind (Q := fun tracked => Midway Held a.envName tracked [] a.imports.entries)
      (conducts_one (fun _ _ _ => trivial) ?_) fun tracked =>
        (conducts_adoptAll hl a.imports tracked a.imports.ascending []).imp (fun _ hs => hs) ?_
    · rintro s reply s' names - hstep rfl
      exact ⟨fun _ h => absurd h List.not_mem_nil, fun e _ => hl.listed hstep e.1⟩
    · intro _ s hend address haddress
      obtain ⟨e, he, rfl⟩ := List.mem_map.1 haddress
      exact hend.2 e he

/-- Every step of an apply is in order, in the state in which it is taken. -/
theorem conducts_apply (hb : a.backend = .workspace) (hkeep : a.deleteOnFailure = false) :
    Conducts R (InOrder Held a.imports) (fun _ => True) a.apply
      fun _ s => ∀ address ∈ a.imports.keys, Held s a.envName address := by
  refine conducts_bind (Q := fun _ _ => True) (conducts_of_only (K := fun _ => False) only_validate
    (fun _ _ h => h.elim) fun _ _ _ h => h.elim) fun _ => ?_
  refine conducts_bind (conducts_setup hl hb) fun _ => conducts_of_only
    (K := Step.Concludes a.envName) ?_ (fun s e he hs => he.inOrder hs) fun s e s' he hstep hs =>
      fun address haddress => hl.keeps hstep he.spares _ _ (hs address haddress)
  refine only_bind (concludes_log _ _) fun _ =>
    only_bind (only_lift (concludes_attemptApply hb)) fun outcome => ?_
  cases outcome with
  | ok result => exact only_bind (concludes_log _ _) fun _ => only_pure
  | error failure =>
    exact only_bind (concludes_log _ _) fun _ =>
      only_bind (only_lift (concludes_recover hb hkeep failure)) fun _ => only_throw

end Adopting

end Action

/-- The address that a step has added to the state of the environment. -/
def added? (env : String) : Event steps → Option String
  | ⟨.engine (.adopt name address _), .ok _⟩ => if name = env then some address else none
  | _ => none

def added (env : String) (t : Record) : List String := t.filterMap (added? env)

structure Adds (Held : σ → String → String → Prop) (env : String) (s : σ) (t : Record) (s' : σ) :
    Prop where
  once : (added env t).Nodup
  new : ∀ address ∈ added env t, ¬ Held s env address
  held : ∀ address ∈ added env t, Held s' env address
  keeps : ∀ address, Held s env address → Held s' env address

variable {env : String} {imports : Dict String} {t u : Record}

theorem added_append : added env (t ++ u) = added env t ++ added env u := List.filterMap_append

theorem adds_nil : Adds Held env s [] s :=
  ⟨.nil, fun _ h => absurd h List.not_mem_nil, fun _ h => absurd h List.not_mem_nil, fun _ h => h⟩

theorem Adds.append {s₁ : σ} (ht : Adds Held env s t s₁) (hu : Adds Held env s₁ u s') :
    Adds Held env s (t ++ u) s' where
  once := by
    rw [added_append]
    refine List.nodup_append.2 ⟨ht.once, hu.once, ?_⟩
    rintro address ht' _ hu' rfl
    exact hu.new address hu' (ht.held address ht')
  new := by
    rw [added_append]
    intro address h
    rcases List.mem_append.1 h with h | h
    · exact ht.new address h
    · exact fun hs => hu.new address h (ht.keeps address hs)
  held := by
    rw [added_append]
    intro address h
    rcases List.mem_append.1 h with h | h
    · exact hu.keeps address (ht.held address h)
    · exact hu.held address h
  keeps address h := hu.keeps address (ht.keeps address h)

section Adding

variable (hl : Lists R Held)

include hl

theorem adds_one {e : Event steps} (hstep : R s e s') (hspares : e.op.Spares)
    (horder : InOrder Held imports s e) : Adds Held env s [e] s' := by
  have hkeeps := hl.keeps hstep hspares env
  have hnone (h : added? env e = none) : Adds Held env s [e] s' := by
    have hnil : added env [e] = [] := List.filterMap_cons_none h
    refine ⟨?_, ?_, ?_, hkeeps⟩ <;> rw [hnil]
    · exact .nil
    · exact fun _ h => absurd h List.not_mem_nil
    · exact fun _ h => absurd h List.not_mem_nil
  obtain ⟨op, reply⟩ := e
  cases op with
  | engine c =>
    cases c with
    | adopt name address id =>
      cases reply with
      | error e => exact hnone rfl
      | ok y =>
        by_cases hname : name = env
        · subst hname
          have hone : added name [⟨.engine (.adopt name address id), .ok y⟩] = [address] :=
            List.filterMap_cons_some (if_pos rfl)
          refine ⟨?_, ?_, ?_, hkeeps⟩ <;> rw [hone]
          · exact List.pairwise_singleton _ address
          · exact List.forall_mem_singleton.2 horder
          · exact List.forall_mem_singleton.2 ((hl.adopted hstep address).2 (.inl rfl))
        · exact hnone (if_neg hname)
    | _ => exact hnone rfl
  | _ => exact hnone rfl

theorem adds_of_along (hpass : Passes R s t s') (hspares : ∀ e ∈ t, e.op.Spares)
    (halong : Along R (InOrder Held imports) s t) : Adds Held env s t s' := by
  induction hpass with
  | nil s => exact adds_nil
  | cons hstep _ ih =>
    refine (adds_one hl hstep (hspares _ List.mem_cons_self) halong.1).append ?_
    exact ih (fun e he => hspares e (List.mem_cons_of_mem _ he)) (halong.2 _ hstep)

end Adding

structure Applied where
  env : String
  imports : Dict String
  record : Record

namespace Applied

def action (x : Applied) : Action := ⟨.workspace, x.env, false, x.imports⟩

def WasRun (x : Applied) : Prop := ∃ result, x.action.apply.run.Executes x.record result

end Applied

def recordOf (row : List Applied) : Record := row.flatMap (·.record)

theorem adds_row (hl : Lists R Held) {row : List Applied} (hrow : ∀ x ∈ row, x.WasRun)
    (hpass : Passes R s (recordOf row) s') : Adds Held env s (recordOf row) s' := by
  induction row generalizing s with
  | nil =>
    obtain rfl := passes_nil.1 hpass
    exact adds_nil
  | cons x rest ih =>
    obtain ⟨s₁, hfirst, hrest⟩ := passes_append.1 hpass
    obtain ⟨result, hx⟩ := hrow x List.mem_cons_self
    have halong := (Action.conducts_apply hl (a := x.action) rfl rfl).along (s := s) trivial hx
    have hadds : Adds Held env s x.record s₁ :=
      adds_of_along hl hfirst ((Action.spares_apply (a := x.action) rfl).executes hx) halong
    exact hadds.append (ih (fun y hy => hrow y (List.mem_cons_of_mem _ hy)) hrest)

/-- Over any row of applies, of any environments and with any imports, and however their calls end,
no address is adopted twice in one environment, and none that was in its state before; and each
apply, in whatever state it starts, finds all that it is configured with in the state when the
engine applies. -/
theorem adopts_once (hl : Lists R Held) {row : List Applied} (hrow : ∀ x ∈ row, x.WasRun)
    (hpass : Passes R s (recordOf row) s') :
    (∀ env, (added env (recordOf row)).Nodup ∧
      ∀ address ∈ added env (recordOf row), ¬ Held s env address) ∧
    ∀ x ∈ row, ∀ s₁, Along R (InOrder Held x.imports) s₁ x.record := by
  refine ⟨fun env => ?_, ?_⟩
  · have hadds : Adds Held env s (recordOf row) s' := adds_row hl hrow hpass
    exact ⟨hadds.once, hadds.new⟩
  · intro x hx s₁
    obtain ⟨result, hx⟩ := hrow x hx
    exact (Action.conducts_apply hl (a := x.action) rfl rfl).along (s := s₁) trivial hx

namespace Resumed

open Record

def Serves : (String → List String) → Event steps → (String → List String) → Prop
  | s, ⟨.engine (.listState env), reply⟩, s' =>
    s' = s ∧ ∀ names, reply = .ok names → names = s env
  | s, ⟨.engine (.adopt env address _), .ok _⟩, s' =>
    s' = fun name => if name = env then address :: s name else s name
  | s, _, s' => s' = s

def HeldIn (s : String → List String) (env address : String) : Prop := address ∈ s env

theorem lists : Lists Serves HeldIn where
  listed := by
    rintro s env names s' ⟨rfl, hnames⟩ address
    rw [hnames names rfl]
    exact Iff.rfl
  adopted := by
    intro s env address id s' hstep other
    obtain rfl : s' = _ := hstep
    simp only [HeldIn, if_true]
    exact List.mem_cons
  logged := by
    intro s line reply s' hstep env address
    obtain rfl : s' = s := hstep
    exact Iff.rfl
  keeps := by
    rintro s ⟨op, reply⟩ s' hstep - env address h
    have hsame (heq : s' = s) : HeldIn s' env address := heq ▸ h
    cases op with
    | engine c =>
      cases c with
      | listState name => exact hsame hstep.1
      | adopt name added id =>
        cases reply with
        | error e => exact hsame hstep
        | ok y =>
          obtain rfl : s' = _ := hstep
          dsimp only [HeldIn]
          split
          · exact List.mem_cons_of_mem _ h
          · exact h
      | _ => exact hsame hstep
    | _ => exact hsame hstep

def disks : Dict String := (Dict.empty.insert "disk.a" "v-1").insert "disk.b" "v-2"

def stopped : Applied := ⟨"dev", disks, [
  ofEngine (.initBackend "dev") (.ok ()),
  ofEngine .listWorkspaces (.ok ["dev"]),
  ofEngine (.listState "dev") (.ok []),
  ofLog .info "Importing 'v-1' as 'disk.a'",
  ofEngine (.adopt "dev" "disk.a" "v-1") (.ok ()),
  ofLog .info "Importing 'v-2' as 'disk.b'",
  ofEngine (.adopt "dev" "disk.b" "v-2")
    (.error (.engine "terraform import" "exit status 1" "locked"))]⟩

def resumed : Applied := ⟨"dev", disks, [
  ofEngine (.initBackend "dev") (.ok ()),
  ofEngine .listWorkspaces (.ok ["dev"]),
  ofEngine (.listState "dev") (.ok ["disk.a"]),
  ofLog .info "Skipping import of 'disk.a': already in state",
  ofLog .info "Importing 'v-2' as 'disk.b'",
  ofEngine (.adopt "dev" "disk.b" "v-2") (.ok ()),
  ofLog .info "== Terraform Apply: dev ==",
  ofEngine (.apply "dev") (.error (.engine "terraform apply" "exit status 1" "over quota")),
  ofLog .error "Failed to run terraform apply"]⟩

theorem wasRun : ∀ x ∈ [stopped, resumed], x.WasRun := by
  have hstopped : stopped.WasRun :=
    ⟨_, .step _ (.step _ (.step _ (.step _ (.step _ (.step _ (.step _ (.done _)))))))⟩
  have hresumed : resumed.WasRun :=
    ⟨_, .step _ (.step _ (.step _ (.step _ (.step _ (.step _ (.step _ (.step _ (.step _
      (.done _)))))))))⟩
  exact List.forall_mem_cons.2 ⟨hstopped, List.forall_mem_singleton.2 hresumed⟩

def diskA : String → List String := fun name => if name = "dev" then ["disk.a"] else []

def both : String → List String := fun name =>
  if name = "dev" then ["disk.b", "disk.a"] else []

theorem names_eq {names names' : List String} (heq : names = names') (other : List String)
    (hother : (.ok names : Except Error (List String)) = .ok other) : other = names' :=
  (Except.ok.inj hother).symm.trans heq

theorem passes_stopped : Passes Serves (fun _ => []) (recordOf [stopped]) diskA :=
  passes_append.2 ⟨diskA, .cons rfl (.cons rfl (.cons ⟨rfl, names_eq rfl⟩ (.cons rfl (.cons rfl
    (.cons rfl (.cons rfl (.nil _))))))), .nil _⟩

theorem passes_resumed : Passes Serves diskA resumed.record both := by
  have hboth : both = fun name => if name = "dev" then "disk.b" :: diskA name else diskA name := by
    funext name
    by_cases hname : name = "dev" <;> simp [both, diskA, hname]
  exact .cons rfl (.cons rfl (.cons ⟨rfl, names_eq rfl⟩ (.cons rfl (.cons rfl (.cons hboth
    (.cons rfl (.cons rfl (.cons rfl (.nil _)))))))))

theorem passes_row : Passes Serves (fun _ => []) (recordOf [stopped, resumed]) both := by
  have hrow : recordOf [stopped, resumed] = recordOf [stopped] ++ resumed.record := rfl
  exact hrow ▸ passes_append.2 ⟨diskA, passes_stopped, passes_resumed⟩

theorem adopts_once_resumed :
    Lists Serves HeldIn ∧ (∀ x ∈ [stopped, resumed], x.WasRun) ∧
      Passes Serves (fun _ => []) (recordOf [stopped, resumed]) both ∧
      added "dev" (recordOf [stopped, resumed]) = ["disk.a", "disk.b"] ∧
      (added "dev" (recordOf [stopped, resumed])).Nodup ∧
      Along Serves (InOrder HeldIn disks) diskA resumed.record :=
  have honce := adopts_once lists wasRun passes_row
  ⟨lists, wasRun, passes_row, rfl, (honce.1 "dev").1,
    honce.2 resumed (List.mem_cons_of_mem _ List.mem_cons_self) diskA⟩

end Resumed

end Provision.Lifecycle
