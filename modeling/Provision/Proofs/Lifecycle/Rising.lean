import Provision.Proofs.Lifecycle.Dropping
import Provision.Proofs.Lifecycle.Serial
import Provision.Proofs.Transitions

/-!
# Serials that only rise

An engine counts the writes of each workspace, and no call takes a count back but the one that
deletes the workspace. Applies and fetches never delete one, so the serials that a row of them
reports are in the order of time, whichever of their calls fail in between.
-/

namespace Provision.Lifecycle

open Provision.Task (only_bind only_lift only_pure only_throw performs_bind_ok performs_lift_ok
  performs_mapError_ok performs_pure performs_throw)

variable {σ : Type} {R : σ → Event steps → σ → Prop} {serial : σ → String → Option Nat}
  {s s' : σ} {a : Action} {env : String}

/-- The surroundings keep a serial for every workspace that exists. Any call may raise it, be it
answered with an error or not; a listing and a creation tell the truth, and the state that is
pulled shows a serial that the workspace has had in the meantime. -/
structure Counts (R : σ → Event steps → σ → Prop) (serial : σ → String → Option Nat) : Prop where
  rises : ∀ ⦃s e s'⦄, R s e s' → ∀ ⦃name⦄, e.op ≠ .engine (.deleteWorkspace name) →
    ∀ ⦃n⦄, serial s name = some n → ∃ m, serial s' name = some m ∧ n ≤ m
  listed : ∀ ⦃s names s'⦄, R s ⟨.engine .listWorkspaces, .ok names⟩ s' →
    ∀ name ∈ names, ∃ n, serial s' name = some n
  created : ∀ ⦃s name s'⦄, R s ⟨.engine (.newWorkspace name), .ok ()⟩ s' →
    ∃ n, serial s' name = some n
  pulled : ∀ ⦃s name raw s'⦄, R s ⟨.engine (.pullState name), .ok raw⟩ s' →
    ∀ ⦃n⦄, serial s name = some n →
      ∃ k m, Shows raw k ∧ serial s' name = some m ∧ n ≤ k ∧ k ≤ m

theorem Step.Spares.keeps {op : Step} (h : op.Spares) (name : String) :
    op ≠ .engine (.deleteWorkspace name) := by
  rintro rfl
  exact h

def Past (serial : σ → String → Option Nat) (env : String) (n : Nat) (s : σ) : Prop :=
  ∃ m, serial s env = some m ∧ n ≤ m

def Between (serial : σ → String → Option Nat) (env : String) (s : σ) (v : Version) (s' : σ) :
    Prop :=
  ∃ k, v = .ofSerial env k ∧ Past serial env k s' ∧ ∀ n, Past serial env n s → n ≤ k

theorem Between.extend {v : Version} {s₀ s₁ s₂ s₃ : σ} (h : Between serial env s₁ v s₂)
    (hbefore : ∀ n, Past serial env n s₀ → Past serial env n s₁)
    (hafter : ∀ n, Past serial env n s₂ → Past serial env n s₃) : Between serial env s₀ v s₃ := by
  obtain ⟨k, rfl, hk, hlow⟩ := h
  exact ⟨k, rfl, hafter k hk, fun n hn => hlow n (hbefore n hn)⟩

namespace Action

theorem spares_recover (hkeep : a.deleteOnFailure = false) (failure : Error) :
    (a.recover failure).Only Step.Spares := by
  unfold recover
  split
  · trivial
  · simp only [hkeep, Bool.not_false, if_true]
    exact Program.only_bind spares_preservePartialState fun _ => trivial

theorem spares_apply (hkeep : a.deleteOnFailure = false) : a.apply.run.Only Step.Spares := by
  refine only_bind only_validate fun _ => only_bind spares_setup fun _ =>
    only_bind (spares_log _ _) fun _ =>
      only_bind (only_lift spares_attemptApply) fun outcome => ?_
  cases outcome with
  | ok result => exact only_bind (spares_log _ _) fun _ => only_pure
  | error failure =>
    exact only_bind (spares_log _ _) fun _ =>
      only_bind (only_lift (spares_recover hkeep failure)) fun _ => only_throw

theorem spares_fetch (planOnly : Bool) : (a.fetch planOnly).run.Only Step.Spares :=
  only_fetch mayApply_spares.toMayLook planOnly

end Action

section Counts

variable (hc : Counts R serial)

include hc

theorem past_of_only {α : Type} {p : Run α} {y : α} (hp : p.Only Step.Spares)
    (h : p.Performs R s y s') {n : Nat} (hn : Past serial env n s) : Past serial env n s' := by
  obtain ⟨t, ht, hpass⟩ := h
  refine hpass.preserves (fun s₁ e s₂ he hstep hs₁ => ?_) hn
  obtain ⟨m, hm, hnm⟩ := hs₁
  obtain ⟨m', hm', hle⟩ := hc.rises hstep ((hp.executes ht e he).keeps env) hm
  exact ⟨m', hm', Nat.le_trans hnm hle⟩

theorem past_of_step (op : Step) {reply : op.Reply} (hop : op.Spares) (h : R s ⟨op, reply⟩ s')
    {n : Nat} (hn : Past serial env n s) : Past serial env n s' := by
  obtain ⟨m, hm, hnm⟩ := hn
  obtain ⟨m', hm', hle⟩ := hc.rises h (hop.keeps env) hm
  exact ⟨m', hm', Nat.le_trans hnm hle⟩

namespace Action

theorem exists_of_workspaceExists (h : a.workspaceExists.run.Performs R s (.ok true) s') :
    Past serial a.envName 0 s' := by
  obtain ⟨names, s₁, hlist, h₁⟩ := performs_bind_ok.1 h
  obtain ⟨hfound, rfl⟩ := performs_pure.1 h₁
  have hname := List.contains_iff_mem.1 (Except.ok.inj hfound).symm
  obtain ⟨n, hn⟩ := hc.listed (Program.performs_one.1 hlist) _ hname
  exact ⟨n, hn, Nat.zero_le n⟩

theorem exists_of_ensureWorkspace (h : a.ensureWorkspace.run.Performs R s (.ok ()) s') :
    Past serial a.envName 0 s' := by
  obtain ⟨found, s₁, hfound, h₁⟩ := performs_bind_ok.1 h
  cases found with
  | true =>
    obtain ⟨-, rfl⟩ := performs_pure.1 h₁
    exact exists_of_workspaceExists hc hfound
  | false =>
    obtain ⟨_, _, -, h₂⟩ := performs_bind_ok.1 h₁
    obtain ⟨n, hn⟩ := hc.created (Program.performs_one.1 h₂)
    exact ⟨n, hn, Nat.zero_le n⟩

theorem exists_of_setup (hb : a.backend = .workspace)
    (h : a.setup.run.Performs R s (.ok ()) s') : Past serial a.envName 0 s' := by
  obtain ⟨_, s₁, hprepare, h₁⟩ := performs_bind_ok.1 h
  have hexists : Past serial a.envName 0 s₁ := by
    simp only [prepareState, hb] at hprepare
    obtain ⟨_, _, -, hensure⟩ := performs_bind_ok.1 hprepare
    exact exists_of_ensureWorkspace hc hensure
  refine past_of_only hc ?_ h₁ hexists
  split
  · exact only_pure
  · exact only_bind ⟨trivial, fun _ => trivial⟩ fun _ =>
      only_adoptAll mayApply_spares.toMaySetUp _ _

theorem between_of_currentSerial {k : Nat} (hexists : Past serial a.envName 0 s)
    (h : a.currentSerial.run.Performs R s (.ok k) s') :
    Between serial a.envName s (.ofSerial a.envName k) s' := by
  obtain ⟨raw, s₁, hpull, h₁⟩ := performs_bind_ok.1 h
  obtain ⟨hparsed, rfl⟩ := Program.performs_done.1 h₁
  obtain ⟨n, hn, -⟩ := hexists
  obtain ⟨k', m, hshows, hm, hnk, hkm⟩ := hc.pulled (Program.performs_one.1 hpull) hn
  rw [parseSerial_eq_ok.2 hshows] at hparsed
  cases hparsed
  refine ⟨k, rfl, ⟨m, hm, hkm⟩, fun n' hn' => ?_⟩
  obtain ⟨n'', hn'', hle⟩ := hn'
  obtain rfl := Option.some.inj (hn.symm.trans hn'')
  exact Nat.le_trans hle hnk

theorem between_of_attemptApply {result : RunResult} (hb : a.backend = .workspace)
    (hexists : Past serial a.envName 0 s)
    (h : a.attemptApply.run.Performs R s (.ok result) s') :
    Between serial a.envName s result.version s' := by
  obtain ⟨_, s₁, happly, h₁⟩ := performs_bind_ok.1 h
  have hrises : ∀ n, Past serial a.envName n s → Past serial a.envName n s₁ := fun n =>
    past_of_step hc (.engine (.apply a.envName)) trivial
      (Program.performs_one.1 (performs_mapError_ok.1 happly))
  obtain ⟨version, s₂, hversion, h₂⟩ := performs_bind_ok.1 (performs_mapError_ok.1 h₁)
  obtain ⟨output, s₃, hread, h₃⟩ := performs_bind_ok.1 h₂
  obtain ⟨heq, rfl⟩ := performs_pure.1 h₃
  cases heq
  simp only [recordVersion, hb] at hversion
  obtain ⟨k, s₄, hserial, h₄⟩ := performs_bind_ok.1 hversion
  obtain ⟨heq, rfl⟩ := performs_pure.1 h₄
  cases heq
  exact (between_of_currentSerial hc (hrises 0 hexists) hserial).extend hrises fun n =>
    past_of_step hc (.engine (.readOutput a.envName)) trivial (Program.performs_one.1 hread)

theorem between_of_apply {result : RunResult} (hb : a.backend = .workspace)
    (h : a.apply.run.Performs R s (.ok result) s') :
    Between serial a.envName s result.version s' := by
  obtain ⟨_, s₁, hvalidate, h₁⟩ := performs_bind_ok.1 h
  obtain ⟨_, s₂, hsetup, h₂⟩ := performs_bind_ok.1 h₁
  obtain ⟨_, s₃, hlog, h₃⟩ := performs_bind_ok.1 h₂
  obtain ⟨outcome, s₄, hattempt, h₄⟩ := performs_bind_ok.1 h₃
  have hexists := past_of_only hc (spares_log _ _) hlog (exists_of_setup hc hb hsetup)
  have hbefore : ∀ n, Past serial a.envName n s → Past serial a.envName n s₃ := fun n hn =>
    past_of_only hc (spares_log _ _) hlog
      (past_of_only hc spares_setup hsetup (past_of_only hc only_validate hvalidate hn))
  cases outcome with
  | ok applied =>
    obtain ⟨_, s₅, hsay, h₅⟩ := performs_bind_ok.1 h₄
    obtain ⟨heq, rfl⟩ := performs_pure.1 h₅
    cases heq
    refine (between_of_attemptApply hc hb hexists (performs_lift_ok.1 hattempt)).extend hbefore
      fun n => past_of_only hc (spares_log _ _) hsay
  | error failure =>
    obtain ⟨_, _, -, h₅⟩ := performs_bind_ok.1 h₄
    obtain ⟨_, _, -, h₆⟩ := performs_bind_ok.1 h₅
    cases (performs_throw.1 h₆).1

theorem between_of_fetch {planOnly : Bool} {result : RunResult} (hb : a.backend = .workspace)
    (hplan : result.version.planOnly = false)
    (h : (a.fetch planOnly).run.Performs R s (.ok result) s') :
    Between serial a.envName s result.version s' := by
  obtain ⟨_, s₁, hvalidate, h₁⟩ := performs_bind_ok.1 h
  simp only [hb] at h₁
  obtain ⟨_, s₂, hinit, h₂⟩ := performs_bind_ok.1 h₁
  obtain ⟨found, s₃, hfound, h₃⟩ := performs_bind_ok.1 h₂
  have hbefore : ∀ n, Past serial a.envName n s → Past serial a.envName n s₃ := fun n hn =>
    past_of_only hc (only_workspaceExists mayApply_spares.toMayLook hb) hfound
      (past_of_step hc (.engine (.initBackend a.envName)) trivial
        (Program.performs_one.1 hinit) (past_of_only hc only_validate hvalidate hn))
  cases found with
  | true =>
    obtain ⟨k, s₄, hserial, h₄⟩ := performs_bind_ok.1 h₃
    obtain ⟨output, s₅, hread, h₅⟩ := performs_bind_ok.1 h₄
    obtain ⟨heq, rfl⟩ := performs_pure.1 h₅
    cases heq
    exact (between_of_currentSerial hc (exists_of_workspaceExists hc hfound) hserial).extend
      hbefore fun n => past_of_step hc (.engine (.readOutput a.envName)) trivial
        (Program.performs_one.1 hread)
  | false =>
    -- Of an environment that is not there, only a plan is told.
    cases planOnly with
    | false => cases (performs_throw.1 h₃).1
    | true =>
      obtain ⟨_, _, -, h₄⟩ := performs_bind_ok.1 h₃
      obtain ⟨heq, -⟩ := performs_pure.1 h₄
      cases heq
      cases hplan

end Action

end Counts

/-- A run that takes nothing away, with the settings of its action that are free. -/
inductive Turn where
  | apply (imports : Dict String)
  | fetch (deleteOnFailure : Bool) (imports : Dict String) (planOnly : Bool)

def Turn.run (env : String) : Turn → RunTask RunResult
  | apply imports => Action.apply ⟨.workspace, env, false, imports⟩
  | fetch deleteOnFailure imports planOnly =>
    Action.fetch ⟨.workspace, env, deleteOnFailure, imports⟩ planOnly

inductive Turns (R : σ → Event steps → σ → Prop) (env : String) :
    σ → List (Turn × Except Error RunResult) → σ → Prop where
  | nil (s : σ) : Turns R env s [] s
  | cons {s s₁ s' : σ} {turn : Turn} {result : Except Error RunResult}
      {rest : List (Turn × Except Error RunResult)} :
      (turn.run env).run.Performs R s result s₁ → Turns R env s₁ rest s' →
      Turns R env s ((turn, result) :: rest) s'

/-- The version that a run reports of the state that it found or left. -/
def reported? : Turn × Except Error RunResult → Option Version
  | (_, .ok result) => if result.version.planOnly then none else some result.version
  | (_, .error _) => none

def reported (turns : List (Turn × Except Error RunResult)) : List Version :=
  turns.filterMap reported?

theorem Turn.spares_run (turn : Turn) : (turn.run env).run.Only Step.Spares := by
  cases turn with
  | apply imports => exact Action.spares_apply rfl
  | fetch deleteOnFailure imports planOnly => exact Action.spares_fetch planOnly

theorem Turn.between (hc : Counts R serial) {turn : Turn} {result : Except Error RunResult}
    {v : Version} (hv : reported? (turn, result) = some v)
    (h : (turn.run env).run.Performs R s result s') : Between serial env s v s' := by
  cases result with
  | error e => cases hv
  | ok result =>
    simp only [reported?] at hv
    split at hv
    · cases hv
    · next hplan =>
      cases hv
      cases turn with
      | apply imports => exact Action.between_of_apply hc rfl h
      | fetch deleteOnFailure imports planOnly =>
        exact Action.between_of_fetch hc rfl (Bool.not_eq_true _ ▸ hplan) h

theorem reported_cons (turn : Turn × Except Error RunResult)
    (rest : List (Turn × Except Error RunResult)) :
    reported (turn :: rest) = (reported? turn).toList ++ reported rest := by
  cases h : reported? turn <;> simp [reported, h]

/-- Whatever is reported from a state on is not below a serial that was passed before it. -/
theorem Turns.reported_past (hc : Counts R serial) {turns : List (Turn × Except Error RunResult)}
    {n : Nat} (h : Turns R env s turns s') (hn : Past serial env n s) :
    ∀ v ∈ reported turns, ∃ k, v = .ofSerial env k ∧ n ≤ k := by
  induction h with
  | nil s => exact fun v hv => absurd hv List.not_mem_nil
  | @cons s s₁ s' turn result rest hrun _ ih =>
    intro v hv
    rw [reported_cons, List.mem_append] at hv
    rcases hv with hv | hv
    · obtain ⟨k, rfl, -, hlow⟩ := turn.between hc (Option.mem_toList.1 hv) hrun
      exact ⟨k, rfl, hlow n hn⟩
    · exact ih (past_of_only hc turn.spares_run hrun hn) v hv

theorem compare?_ofSerial_of_le {j k : Nat} (h : j ≤ k) :
    (Version.ofSerial env j).compare? (.ofSerial env k) = some .lt ∨
      (Version.ofSerial env j).compare? (.ofSerial env k) = some .eq := by
  rcases Nat.lt_or_eq_of_le h with hlt | rfl
  · left
    have hne : j ≠ k := Nat.ne_of_lt hlt
    simp [Version.compare?, Version.same, Version.ofSerial, Version.empty, hne,
      Nat.compare_eq_lt.2 hlt]
  · right
    simp [Version.compare?, Version.same]

/-- Of any two versions that runs report of a workspace, the earlier is less or equal. -/
theorem reported_ascending (hc : Counts R serial)
    {turns : List (Turn × Except Error RunResult)} (h : Turns R env s turns s') :
    (reported turns).Pairwise fun v w =>
      v.compare? w = some .lt ∨ v.compare? w = some .eq := by
  induction h with
  | nil s => exact .nil
  | @cons s s₁ s' turn result rest hrun hrest ih =>
    rw [reported_cons, List.pairwise_append]
    refine ⟨?_, ih, fun v hv w hw => ?_⟩
    · cases reported? (turn, result) with
      | none => exact .nil
      | some v => exact List.pairwise_singleton _ v
    · obtain ⟨j, rfl, hj, -⟩ := turn.between hc (Option.mem_toList.1 hv) hrun
      obtain ⟨k, rfl, hjk⟩ := hrest.reported_past hc hj w hw
      exact compare?_ofSerial_of_le hjk

namespace Counted

open Record

def Serves : Option Nat → Event steps → Option Nat → Prop
  | s, ⟨.engine .listWorkspaces, reply⟩, s' =>
    s' = s ∧ ∀ names, reply = .ok names → names = if s.isSome then ["dev"] else []
  | s, ⟨.engine (.newWorkspace name), reply⟩, s' =>
    s' = some (s.getD 0) ∧ (reply = .ok () → name = "dev")
  | s, ⟨.engine (.deleteWorkspace name), _⟩, s' => s' = if name = "dev" then none else s
  | s, ⟨.engine (.apply _), _⟩, s' => s' = s.map (· + 1)
  | s, ⟨.engine (.adopt _ _ _), _⟩, s' => s' = s.map (· + 1)
  | s, ⟨.engine (.pullState _), reply⟩, s' =>
    s' = s ∧ ∀ raw, reply = .ok raw → Shows raw (s.getD 0)
  | s, _, s' => s' = s

def serialOf (s : Option Nat) (name : String) : Option Nat := if name = "dev" then s else none

theorem serialOf_eq_some {s : Option Nat} {name : String} {n : Nat} :
    serialOf s name = some n ↔ name = "dev" ∧ s = some n := by
  unfold serialOf
  split <;> simp_all

theorem counts : Counts Serves serialOf where
  rises := by
    rintro s ⟨op, reply⟩ s' h name hop n hn
    have hsame : s' = s → ∃ m, serialOf s' name = some m ∧ n ≤ m := by
      rintro rfl
      exact ⟨n, hn, Nat.le_refl n⟩
    obtain ⟨rfl, rfl⟩ := serialOf_eq_some.1 hn
    cases op with
    | engine c =>
      cases c with
      | deleteWorkspace other =>
        have hother : other ≠ "dev" := fun heq => hop (by rw [heq])
        exact hsame (h.trans (if_neg hother))
      | listWorkspaces => exact hsame h.1
      | pullState env => exact hsame h.1
      | newWorkspace name => exact hsame h.1
      | apply env => exact ⟨n + 1, by rw [show s' = _ from h]; rfl, Nat.le_succ n⟩
      | adopt env address id => exact ⟨n + 1, by rw [show s' = _ from h]; rfl, Nat.le_succ n⟩
      | _ => exact hsame h
    | _ => exact hsame h
  listed := by
    rintro s names s' ⟨rfl, hnames⟩ name hname
    obtain rfl := hnames names rfl
    cases s' with
    | none => cases hname
    | some n =>
      obtain rfl := List.mem_singleton.1 hname
      exact ⟨n, rfl⟩
  created := by
    rintro s name s' ⟨rfl, hname⟩
    obtain rfl := hname rfl
    exact ⟨_, rfl⟩
  pulled := by
    rintro s name raw s' ⟨rfl, hshows⟩ n hn
    obtain ⟨-, rfl⟩ := serialOf_eq_some.1 hn
    exact ⟨n, n, hshows raw rfl, hn, Nat.le_refl n, Nat.le_refl n⟩

-- The first apply makes the workspace. The import of the second fails, and leaves a state that has
-- been written once more; the fetch after it reports that.
def created (raw : Bytes) : Record := [
  ofEngine (.initBackend "dev") (.ok ()),
  ofEngine .listWorkspaces (.ok []),
  ofLog .info "Creating workspace 'dev'",
  ofEngine (.newWorkspace "dev") (.ok ()),
  ofLog .info "== Terraform Apply: dev ==",
  ofEngine (.apply "dev") (.ok ()),
  ofEngine (.pullState "dev") (.ok raw),
  ofEngine (.readOutput "dev") (.ok {}),
  ofLog .info "Successfully ran terraform apply (dev (serial 1))"]

theorem executes_created {raw : Bytes} (h : parseSerial raw = .ok 1) :
    ((Turn.apply {}).run "dev").run.Executes (created raw) (.ok ⟨.ofSerial "dev" 1, {}⟩) := by
  refine .step _ (.step _ (.step _ (.step _ (.step _ (.step _ (.step _ ?_))))))
  simp only [pure, Program.bind, ExceptT.bindCont, ExceptT.mk, h]
  exact .step _ (.step _ (.done _))

def refused : Error := .engine "terraform import" "exit status 1" "no such volume"

def stopped : Record := [
  ofEngine (.initBackend "dev") (.ok ()),
  ofEngine .listWorkspaces (.ok ["dev"]),
  ofEngine (.listState "dev") (.ok []),
  ofLog .info "Importing 'v-1' as 'disk.a'",
  ofEngine (.adopt "dev" "disk.a" "v-1") (.error refused)]

def looked (raw : Bytes) : Record := [
  ofEngine (.initBackend "dev") (.ok ()),
  ofEngine .listWorkspaces (.ok ["dev"]),
  ofEngine (.pullState "dev") (.ok raw),
  ofEngine (.readOutput "dev") (.ok {})]

theorem executes_looked {raw : Bytes} (h : parseSerial raw = .ok 2) :
    ((Turn.fetch true {} true).run "dev").run.Executes (looked raw)
      (.ok ⟨.ofSerial "dev" 2, {}⟩) := by
  refine .step _ (.step _ (.step _ ?_))
  simp only [pure, Program.bind, ExceptT.bindCont, ExceptT.mk, h]
  exact .step _ (.done _)

def document (n : String) : Bytes :=
  Text.Utf8.encode ("\x7b\"version\": 4, \"serial\": " ++ n ++ "\x7d")

theorem parseSerial_document :
    parseSerial (document "1") = .ok 1 ∧ parseSerial (document "2") = .ok 2 := by
  have hsome {r : Except Error Nat} {n : Nat} (h : r.toOption = some n) : r = .ok n := by
    cases r with
    | error e => cases h
    | ok m => exact congrArg _ (Option.some.inj h)
  exact ⟨hsome (by decide +kernel), hsome (by decide +kernel)⟩

def turns : List (Turn × Except Error RunResult) := [
  (.apply {}, .ok ⟨.ofSerial "dev" 1, {}⟩),
  (.apply (Dict.empty.insert "disk.a" "v-1"), .error refused),
  (.fetch true {} true, .ok ⟨.ofSerial "dev" 2, {}⟩)]

theorem turns_new : Turns Serves "dev" none turns (some 2) := by
  obtain ⟨hone, htwo⟩ := parseSerial_document
  have hshows {raw : Bytes} {n : Nat} (h : parseSerial raw = .ok n) (other : Bytes)
      (heq : (.ok raw : Except Error Bytes) = .ok other) : Shows other n := by
    cases heq
    exact parseSerial_eq_ok.1 h
  have hnames {names : List String} (other : List String)
      (heq : (.ok names : Except Error (List String)) = .ok other) : other = names :=
    (Except.ok.inj heq).symm
  have hcreated : ((Turn.apply {}).run "dev").run.Performs Serves none
      (.ok ⟨.ofSerial "dev" 1, {}⟩) (some 1) :=
    ⟨created (document "1"), executes_created hone, .cons rfl (.cons ⟨rfl, hnames⟩ (.cons rfl
      (.cons ⟨rfl, fun _ => rfl⟩ (.cons rfl (.cons rfl (.cons ⟨rfl, hshows hone⟩ (.cons rfl
        (.cons rfl (.nil _)))))))))⟩
  have hstopped : ((Turn.apply (Dict.empty.insert "disk.a" "v-1")).run "dev").run.Performs Serves
      (some 1) (.error refused) (some 2) :=
    ⟨stopped, .step _ (.step _ (.step _ (.step _ (.step _ (.done _))))),
      .cons rfl (.cons ⟨rfl, hnames⟩ (.cons rfl (.cons rfl (.cons rfl (.nil _)))))⟩
  have hlooked : ((Turn.fetch true {} true).run "dev").run.Performs Serves (some 2)
      (.ok ⟨.ofSerial "dev" 2, {}⟩) (some 2) :=
    ⟨looked (document "2"), executes_looked htwo,
      .cons rfl (.cons ⟨rfl, hnames⟩ (.cons ⟨rfl, hshows htwo⟩ (.cons rfl (.nil _))))⟩
  exact .cons hcreated (.cons hstopped (.cons hlooked (.nil _)))

theorem reported_ascending_new :
    Counts Serves serialOf ∧ Turns Serves "dev" none turns (some 2) ∧
      reported turns = [.ofSerial "dev" 1, .ofSerial "dev" 2] ∧
      (reported turns).Pairwise fun v w =>
        v.compare? w = some .lt ∨ v.compare? w = some .eq :=
  ⟨counts, turns_new, rfl, reported_ascending counts turns_new⟩

end Counted

end Provision.Lifecycle
