/-!
# Programs as trees of steps

A program is a result, or one step on its surroundings followed by a continuation for every
reply. Nothing happens until a program is interpreted, so one text of a program serves a run
on a real machine, a run on a rehearsed one, and every statement about all possible replies.
-/

namespace Provision

/-- The steps a program may take, each with the type of its reply. -/
structure Signature where
  Op : Type
  Reply : Op → Type

inductive Program (S : Signature) (α : Type) : Type where
  | done (result : α)
  | step (op : S.Op) (next : S.Reply op → Program S α)

namespace Program

variable {S T : Signature} {α β γ : Type}

def bind : Program S α → (α → Program S β) → Program S β
  | done a, f => f a
  | step op next, f => step op fun reply => (next reply).bind f

instance : Monad (Program S) where
  pure := done
  bind := bind

def perform (op : S.Op) : Program S (S.Reply op) :=
  step op done

def interpret {m : Type → Type} [Monad m] (answer : (op : S.Op) → m (S.Reply op)) :
    Program S α → m α
  | done a => Pure.pure a
  | step op next => answer op >>= fun reply => (next reply).interpret answer

@[simp] theorem pure_eq_done (a : α) : (Pure.pure a : Program S α) = done a := rfl

@[simp] theorem done_bind (a : α) (f : α → Program S β) : done a >>= f = f a := rfl

@[simp] theorem step_bind (op : S.Op) (next : S.Reply op → Program S α) (f : α → Program S β) :
    step op next >>= f = step op fun reply => next reply >>= f := rfl

theorem bind_done (p : Program S α) : p >>= done = p := by
  induction p with
  | done a => rfl
  | step op next ih => simp only [step_bind, ih]

theorem bind_assoc (p : Program S α) (f : α → Program S β) (g : β → Program S γ) :
    p >>= f >>= g = p >>= fun a => f a >>= g := by
  induction p with
  | done a => rfl
  | step op next ih => simp only [step_bind, ih]

instance : LawfulMonad (Program S) :=
  LawfulMonad.mk' (Program S) (fun p => bind_done p) (fun _ _ => rfl) bind_assoc

theorem interpret_bind {m : Type → Type} [Monad m] [LawfulMonad m]
    (answer : (op : S.Op) → m (S.Reply op)) (p : Program S α) (f : α → Program S β) :
    (p >>= f).interpret answer = p.interpret answer >>= fun a => (f a).interpret answer := by
  induction p with
  | done a => simp [interpret]
  | step op next ih => simp [interpret, ih]

end Program

/-- A program that may stop early with an error. -/
abbrev Task (S : Signature) (ε α : Type) : Type :=
  ExceptT ε (Program S) α

namespace Task

variable {S : Signature} {ε ε' α β : Type}

def ofProgram (p : Program S (Except ε α)) : Task S ε α :=
  ExceptT.mk p

def lift (p : Program S α) : Task S ε α :=
  ExceptT.lift p

def mapError (f : ε → ε') (t : Task S ε α) : Task S ε' α :=
  ExceptT.adapt f t

def outcome (t : Task S ε α) : Task S ε' (Except ε α) :=
  ExceptT.lift t.run

end Task

end Provision
