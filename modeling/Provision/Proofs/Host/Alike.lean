import Mathlib.Data.List.Forall2
import Provision.Proofs.Host.Journal

/-!
# Programs that differ in their processes only

Two programs are alike if they ask their host for the same and go on alike after every reply,
where the processes that they start need only be related. Each execution of the one is then told
step by step by an execution of the other, and where the host replies the same to both, they log
the same and come to the same result.
-/

namespace Provision.Host

variable {R : Invocation → Invocation → Prop} {α β : Type}

inductive Alike (R : Invocation → Invocation → Prop) {α : Type} :
    HostProgram α → HostProgram α → Prop where
  | done (a : α) : Alike R (.done a) (.done a)
  | step {op : effects.Op} {next next' : effects.Reply op → HostProgram α}
      (h : ∀ reply, Alike R (next reply) (next' reply)) : Alike R (.step op next) (.step op next')
  | start {i i' : Invocation} {next next' : Except Fault Finished → HostProgram α} (hi : R i i')
      (h : ∀ reply, Alike R (next reply) (next' reply)) :
      Alike R (Program.step (S := effects) (.start i) next)
        (Program.step (S := effects) (.start i') next')

/-- A step that tells the same, of a process that may only be related. -/
inductive Mirrors (R : Invocation → Invocation → Prop) : Event effects → Event effects → Prop where
  | same (e : Event effects) : Mirrors R e e
  | start {i i' : Invocation} (hi : R i i') (reply : Except Fault Finished) :
      Mirrors R ⟨.start i, reply⟩ ⟨.start i', reply⟩

/-- The host makes no difference between the steps: it replies the same to the same request, and it
does so to two processes. -/
structure SameReply (e e' : Event effects) : Prop where
  request : e'.op = e.op → e' = e
  process : ∀ i i' (reply reply' : Except Fault Finished), e = ⟨.start i, reply⟩ →
    e' = ⟨.start i', reply'⟩ → reply' = reply

def SameReplies : Journal → Journal → Prop
  | e :: t, e' :: t' => SameReply e e' ∧ SameReplies t t'
  | _, _ => True

theorem SameReply.eq {op : effects.Op} {reply reply' : effects.Reply op}
    (h : SameReply ⟨op, reply⟩ ⟨op, reply'⟩) : reply' = reply := by
  cases h.request rfl
  rfl

theorem sameReply_refl (e : Event effects) : SameReply e e where
  request _ := rfl
  process i i' reply reply' h h' := by
    cases h.symm.trans h'
    rfl

theorem sameReply_log {line line' : LogLine} : SameReply ⟨.log line, ()⟩ ⟨.log line', ()⟩ where
  request h := by
    cases h
    rfl
  process := nofun

theorem sameReply_start {i i' : Invocation} (reply : Except Fault Finished) :
    SameReply ⟨.start i, reply⟩ ⟨.start i', reply⟩ where
  request h := by
    cases h
    rfl
  process _ _ _ _ h h' := by
    cases h
    cases h'
    rfl

theorem Mirrors.logged?_eq {e e' : Event effects} (h : Mirrors R e e') :
    logged? e' = logged? e := by
  cases h <;> rfl

theorem logged_of_mirrors {t t' : Journal} (h : List.Forall₂ (Mirrors R) t t') :
    logged t' = logged t := by
  induction h with
  | nil => rfl
  | cons he _ ih =>
    simp only [logged, List.filterMap_cons, he.logged?_eq] at ih ⊢
    rw [ih]

def Invocation.SameCommand (i i' : Invocation) : Prop :=
  i' = { i with environment := i'.environment }

namespace Alike

variable {p q : HostProgram α}

theorem refl (p : HostProgram α) : Alike R p p := by
  induction p with
  | done a => exact .done a
  | step op next ih => exact .step ih

theorem bind {f g : α → HostProgram β} (h : Alike R p q) (hfg : ∀ a, Alike R (f a) (g a)) :
    Alike R (p >>= f) (q >>= g) := by
  induction h with
  | done a => exact hfg a
  | step _ ih => exact .step ih
  | start hi _ ih => exact .start hi ih

theorem eq (h : Alike Eq p q) : p = q := by
  induction h with
  | done a => rfl
  | step _ ih => exact congrArg _ (funext ih)
  | start hi _ ih => rw [hi, funext ih]

theorem executes (h : Alike R p q) {t : List (Event effects)} {a : α} (hp : p.Executes t a) :
    ∃ t', List.Forall₂ (Mirrors R) t t' ∧ q.Executes t' a := by
  induction h generalizing t with
  | done b => exact ⟨t, List.forall₂_same.2 fun e _ => .same e, hp⟩
  | step _ ih =>
    obtain ⟨reply, t₁, h₁, rfl⟩ := Program.executes_step.1 hp
    obtain ⟨t', htold, hq⟩ := ih reply h₁
    exact ⟨_, .cons (.same _) htold, .step reply hq⟩
  | start hi _ ih =>
    obtain ⟨reply, t₁, h₁, rfl⟩ := Program.executes_step.1 hp
    obtain ⟨t', htold, hq⟩ := ih reply h₁
    exact ⟨_, .cons (.start hi reply) htold, Program.executes_step.2 ⟨reply, t', hq, rfl⟩⟩

/-- Two executions that the host makes no difference between are told by each other. -/
theorem agree (h : Alike R p q) {t t' : Journal} {a b : α} (hp : p.Executes t a)
    (hq : q.Executes t' b) (hsame : SameReplies t t') :
    List.Forall₂ (Mirrors R) t t' ∧ b = a := by
  induction h generalizing t t' with
  | done c =>
    obtain ⟨rfl, rfl⟩ := Program.executes_done.1 hp
    obtain ⟨rfl, rfl⟩ := Program.executes_done.1 hq
    exact ⟨.nil, rfl⟩
  | step _ ih =>
    obtain ⟨reply, t₁, h₁, rfl⟩ := Program.executes_step.1 hp
    obtain ⟨reply', t₁', h₁', rfl⟩ := Program.executes_step.1 hq
    obtain rfl := hsame.1.eq
    obtain ⟨htold, hresult⟩ := ih _ h₁ h₁' hsame.2
    exact ⟨.cons (.same _) htold, hresult⟩
  | start hi _ ih =>
    obtain ⟨reply, t₁, h₁, rfl⟩ := Program.executes_step.1 hp
    obtain ⟨reply', t₁', h₁', rfl⟩ := Program.executes_step.1 hq
    obtain rfl := hsame.1.process _ _ _ _ rfl rfl
    obtain ⟨htold, hresult⟩ := ih _ h₁ h₁' hsame.2
    exact ⟨.cons (.start hi _) htold, hresult⟩

theorem interpret {S : Signature} {K : S.Op → Prop} {x : Program S α} (hx : x.Only K)
    {answer answer' : (op : S.Op) → HostProgram (S.Reply op)}
    (h : ∀ op, K op → Alike R (answer op) (answer' op)) :
    Alike R (x.interpret answer) (x.interpret answer') := by
  induction x with
  | done a => exact .done a
  | step op next ih => exact (h op hx.1).bind fun reply => ih reply (hx.2 reply)

section Tasks

variable {ε ε' : Type} {x y : Task effects ε α}

theorem task_bind {f g : α → Task effects ε β} (h : Alike R x.run y.run)
    (hfg : ∀ a, Alike R (f a).run (g a).run) : Alike R (x >>= f).run (y >>= g).run := by
  rw [ExceptT.run_bind, ExceptT.run_bind]
  refine h.bind fun r => ?_
  cases r with
  | ok a => exact hfg a
  | error e => exact .done _

theorem mapError (h : Alike R x.run y.run) (f : ε → ε') :
    Alike R (x.mapError f).run (y.mapError f).run := by
  change Alike R (Except.mapError f <$> x.run) (Except.mapError f <$> y.run)
  rw [map_eq_pure_bind, map_eq_pure_bind]
  exact h.bind fun _ => .done _

theorem lift (h : Alike R p q) :
    Alike R (Task.lift p : Task effects ε α).run (Task.lift q : Task effects ε α).run := by
  rw [Task.lift, ExceptT.run_lift, map_eq_pure_bind, Task.lift, ExceptT.run_lift, map_eq_pure_bind]
  exact h.bind fun _ => .done _

theorem outcome (h : Alike R x.run y.run) :
    Alike R (Task.outcome x : Task effects ε' (Except ε α)).run (Task.outcome y).run :=
  lift h

end Tasks

end Alike

end Provision.Host
