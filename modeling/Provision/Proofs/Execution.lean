import Provision.Program

/-!
# Executions of programs

An execution of a program is the list of its steps, each with the reply that it got, and the
result at its end. Replies may be anything, so the executions of a program are its behaviours
on all surroundings, whatever these remember of earlier steps. An execution of a program that
is carried out by other programs is an execution of its own steps, each backed by an execution
of the program that answers it.
-/

namespace Provision

structure Event (S : Signature) where
  op : S.Op
  reply : S.Reply op

namespace Program

variable {S T : Signature} {α β : Type}

inductive Executes : Program S α → List (Event S) → α → Prop where
  | done (a : α) : Executes (.done a) [] a
  | step {op : S.Op} {next : S.Reply op → Program S α} {t : List (Event S)} {a : α}
      (reply : S.Reply op) :
      Executes (next reply) t a → Executes (.step op next) (⟨op, reply⟩ :: t) a

@[simp] theorem executes_done {a b : α} {t : List (Event S)} :
    (done a : Program S α).Executes t b ↔ t = [] ∧ b = a := by
  constructor
  · intro h
    cases h
    exact ⟨rfl, rfl⟩
  · rintro ⟨rfl, rfl⟩
    exact .done _

theorem executes_step {op : S.Op} {next : S.Reply op → Program S α} {t : List (Event S)}
    {a : α} :
    (step op next).Executes t a ↔
      ∃ reply t', (next reply).Executes t' a ∧ t = ⟨op, reply⟩ :: t' := by
  constructor
  · intro h
    cases h with
    | step reply h => exact ⟨reply, _, h, rfl⟩
  · rintro ⟨reply, t', h, rfl⟩
    exact .step reply h

theorem executes_bind {p : Program S α} {f : α → Program S β} {t : List (Event S)} {b : β} :
    (p >>= f).Executes t b ↔
      ∃ t₁ t₂ a, p.Executes t₁ a ∧ (f a).Executes t₂ b ∧ t = t₁ ++ t₂ := by
  constructor
  · intro h
    -- Only the end of the first program tells where the record is cut.
    induction p generalizing t with
    | done a => exact ⟨[], t, a, .done a, h, rfl⟩
    | step op next ih =>
      rw [step_bind, executes_step] at h
      obtain ⟨reply, t', h, rfl⟩ := h
      obtain ⟨t₁, t₂, a, h₁, h₂, rfl⟩ := ih reply h
      exact ⟨_, t₂, a, .step reply h₁, h₂, rfl⟩
  · rintro ⟨t₁, t₂, a, h₁, h₂, rfl⟩
    induction h₁ with
    | done a => exact h₂
    | step reply _ ih => exact .step reply (ih h₂)

@[simp] theorem executes_one {op : S.Op} {t : List (Event S)} {reply : S.Reply op} :
    (step op .done).Executes t reply ↔ t = [⟨op, reply⟩] := by
  rw [executes_step]
  constructor
  · rintro ⟨reply', t', h, rfl⟩
    obtain ⟨rfl, rfl⟩ := executes_done.1 h
    rfl
  · rintro rfl
    exact ⟨reply, [], .done reply, rfl⟩

/-- The execution in surroundings that answer a step always in the same way. -/
def replay (answer : (op : S.Op) → S.Reply op) : Program S α → List (Event S) × α
  | done a => ([], a)
  | step op next =>
    let rest := (next (answer op)).replay answer
    (⟨op, answer op⟩ :: rest.1, rest.2)

theorem executes_replay (answer : (op : S.Op) → S.Reply op) (p : Program S α) :
    p.Executes (p.replay answer).1 (p.replay answer).2 := by
  induction p with
  | done a => exact .done a
  | step op next ih => exact .step _ (ih _)

theorem eq_of_mem_replay {answer : (op : S.Op) → S.Reply op} {p : Program S α} {e : Event S}
    (h : e ∈ (p.replay answer).1) : e.reply = answer e.op := by
  induction p with
  | done a => cases h
  | step op next ih =>
    rcases List.mem_cons.1 h with rfl | h
    · rfl
    · exact ih _ h

def value (answer : (op : S.Op) → S.Reply op) (p : Program S α) : α := (p.replay answer).2

theorem executes_answered {answer : (op : S.Op) → S.Reply op} {p : Program S α} {a : α} :
    (∃ t, p.Executes t a ∧ ∀ e ∈ t, e.reply = answer e.op) ↔ a = p.value answer := by
  constructor
  · rintro ⟨t, h, ht⟩
    induction h with
    | done a => rfl
    | step reply _ ih =>
      obtain ⟨hreply, hrest⟩ := List.forall_mem_cons.1 ht
      obtain rfl : reply = answer _ := hreply
      exact ih hrest
  · rintro rfl
    exact ⟨_, executes_replay answer p, fun _ => eq_of_mem_replay⟩

theorem value_bind {answer : (op : S.Op) → S.Reply op} {p : Program S α}
    {f : α → Program S β} : (p >>= f).value answer = (f (p.value answer)).value answer := by
  induction p with
  | done a => rfl
  | step op next ih => exact ih (answer op)

/-- The steps of `t` are answered by executions that make up `u`. -/
inductive Backed (answer : (op : S.Op) → Program T (S.Reply op)) :
    List (Event S) → List (Event T) → Prop where
  | nil : Backed answer [] []
  | cons {op : S.Op} {reply : S.Reply op} {t : List (Event S)} {u₁ u₂ : List (Event T)} :
      (answer op).Executes u₁ reply → Backed answer t u₂ →
      Backed answer (⟨op, reply⟩ :: t) (u₁ ++ u₂)

theorem executes_interpret {answer : (op : S.Op) → Program T (S.Reply op)} {p : Program S α}
    {u : List (Event T)} {a : α} (h : (p.interpret answer).Executes u a) :
    ∃ t, p.Executes t a ∧ Backed answer t u := by
  induction p generalizing u with
  | done b =>
    obtain ⟨rfl, rfl⟩ := executes_done.1 h
    exact ⟨[], .done a, .nil⟩
  | step op next ih =>
    rw [interpret, executes_bind] at h
    obtain ⟨u₁, u₂, reply, h₁, h₂, rfl⟩ := h
    obtain ⟨t, ht, hu⟩ := ih reply h₂
    exact ⟨_, .step reply ht, .cons h₁ hu⟩

theorem Executes.interpret {answer : (op : S.Op) → Program T (S.Reply op)} {p : Program S α}
    {t : List (Event S)} {u : List (Event T)} {a : α} (h : p.Executes t a)
    (hu : Backed answer t u) : (p.interpret answer).Executes u a := by
  induction h generalizing u with
  | done a =>
    cases hu
    exact .done a
  | step reply _ ih =>
    cases hu with
    | cons hfirst hrest => exact executes_bind.2 ⟨_, _, reply, hfirst, ih hrest, rfl⟩

end Program

namespace Task

variable {S : Signature} {ε ε' α β : Type} {t : List (Event S)}

@[simp] theorem executes_pure {a : α} {r : Except ε α} :
    (pure a : Task S ε α).run.Executes t r ↔ t = [] ∧ r = .ok a :=
  Program.executes_done

@[simp] theorem executes_throw {e : ε} {r : Except ε α} :
    (throw e : Task S ε α).run.Executes t r ↔ t = [] ∧ r = .error e :=
  Program.executes_done

theorem executes_bind {x : Task S ε α} {f : α → Task S ε β} {r : Except ε β} :
    (x >>= f).run.Executes t r ↔
      (∃ e, x.run.Executes t (.error e) ∧ r = .error e) ∨
        ∃ t₁ t₂ a, x.run.Executes t₁ (.ok a) ∧ (f a).run.Executes t₂ r ∧ t = t₁ ++ t₂ := by
  rw [ExceptT.run_bind, Program.executes_bind]
  constructor
  · rintro ⟨t₁, t₂, r₁, h₁, h₂, rfl⟩
    cases r₁ with
    | error e =>
      obtain ⟨rfl, rfl⟩ := Program.executes_done.1 h₂
      exact .inl ⟨e, by simpa using h₁, rfl⟩
    | ok a => exact .inr ⟨t₁, t₂, a, h₁, h₂, rfl⟩
  · rintro (⟨e, h, rfl⟩ | ⟨t₁, t₂, a, h₁, h₂, rfl⟩)
    · exact ⟨t, [], .error e, h, .done _, by simp⟩
    · exact ⟨t₁, t₂, .ok a, h₁, h₂, rfl⟩

theorem executes_lift {p : Program S α} {r : Except ε α} :
    (lift p : Task S ε α).run.Executes t r ↔ ∃ a, p.Executes t a ∧ r = .ok a := by
  rw [lift, ExceptT.run_lift, map_eq_pure_bind, Program.executes_bind]
  constructor
  · rintro ⟨t₁, t₂, a, h₁, h₂, rfl⟩
    obtain ⟨rfl, rfl⟩ := Program.executes_done.1 h₂
    exact ⟨a, by simpa using h₁, rfl⟩
  · rintro ⟨a, h, rfl⟩
    exact ⟨t, [], a, h, .done _, by simp⟩

theorem executes_lift_bind {p : Program S α} {f : α → Task S ε β} {r : Except ε β} :
    (lift p >>= f).run.Executes t r ↔
      ∃ t₁ t₂ a, p.Executes t₁ a ∧ (f a).run.Executes t₂ r ∧ t = t₁ ++ t₂ := by
  rw [executes_bind]
  constructor
  · rintro (⟨_, h, -⟩ | ⟨t₁, t₂, a, h₁, h₂, rfl⟩)
    · obtain ⟨_, -, heq⟩ := executes_lift.1 h
      cases heq
    · obtain ⟨_, h₁, heq⟩ := executes_lift.1 h₁
      cases heq
      exact ⟨t₁, t₂, a, h₁, h₂, rfl⟩
  · rintro ⟨t₁, t₂, a, h₁, h₂, rfl⟩
    exact .inr ⟨t₁, t₂, a, executes_lift.2 ⟨a, h₁, rfl⟩, h₂, rfl⟩

theorem executes_mapError {x : Task S ε α} {f : ε → ε'} {r : Except ε' α} :
    (x.mapError f).run.Executes t r ↔ ∃ r', x.run.Executes t r' ∧ r = r'.mapError f := by
  change ((Except.mapError f <$> x.run : Program S (Except ε' α))).Executes t r ↔ _
  rw [map_eq_pure_bind, Program.executes_bind]
  constructor
  · rintro ⟨t₁, t₂, r₁, h₁, h₂, rfl⟩
    obtain ⟨rfl, rfl⟩ := Program.executes_done.1 h₂
    exact ⟨r₁, by simpa using h₁, rfl⟩
  · rintro ⟨r', h, rfl⟩
    exact ⟨t, [], r', h, .done _, by simp⟩

def value (answer : (op : S.Op) → S.Reply op) (x : Task S ε α) : Except ε α :=
  x.run.value answer

section Value

variable {answer : (op : S.Op) → S.Reply op}

theorem value_lift {p : Program S α} :
    (lift p : Task S ε α).value answer = .ok (p.value answer) := by
  rw [value, lift, ExceptT.run_lift, map_eq_pure_bind, Program.value_bind]
  rfl

theorem value_bind {x : Task S ε α} {f : α → Task S ε β} :
    value answer (x >>= f) = (x.value answer).bind fun a => (f a).value answer := by
  rw [value, ExceptT.run_bind, Program.value_bind, value]
  cases x.run.value answer <;> rfl

end Value

theorem mapError_bind {f : ε → ε'} (x : Task S ε α) (g : α → Task S ε β) :
    (x >>= g).mapError f = x.mapError f >>= fun a => (g a).mapError f := by
  apply ExceptT.ext
  change Except.mapError _ <$> (x >>= g).run = (Except.mapError _ <$> x.run) >>= _
  rw [ExceptT.run_bind, map_eq_pure_bind, bind_assoc, map_eq_pure_bind, bind_assoc]
  refine bind_congr fun r => ?_
  cases r with
  | error e => rfl
  | ok a => rw [← map_eq_pure_bind]; rfl

end Task

end Provision
