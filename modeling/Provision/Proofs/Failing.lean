import Provision.Proofs.Surroundings

/-!
# How tasks fail

`x.Fails E` says of every execution of the task `x` that ends in an error what `E` says of its
steps and of that error. Nothing is said of executions that end well, so a part that cannot
fail fails in every way.
-/

namespace Provision.Task

variable {S : Signature} {ε ε' α β : Type} {E : List (Event S) → ε → Prop}

def Fails (x : Task S ε α) (E : List (Event S) → ε → Prop) : Prop :=
  ∀ t e, x.run.Executes t (.error e) → E t e

theorem fails_pure {a : α} : (pure a : Task S ε α).Fails E := by
  intro t e h
  cases (executes_pure.1 h).2

theorem fails_throw {e : ε} (he : E [] e) : (throw e : Task S ε α).Fails E := by
  intro t e' h
  obtain ⟨rfl, heq⟩ := executes_throw.1 h
  cases heq
  exact he

theorem fails_lift {p : Program S α} : (lift p : Task S ε α).Fails E := by
  intro t e h
  obtain ⟨_, -, heq⟩ := executes_lift.1 h
  cases heq

theorem fails_mapError {x : Task S ε' α} {f : ε' → ε} (hx : x.Fails fun t e => E t (f e)) :
    (x.mapError f).Fails E := by
  intro t e h
  obtain ⟨r, hr, heq⟩ := executes_mapError.1 h
  cases r with
  | ok a => cases heq
  | error e' =>
    cases heq
    exact hx t e' hr

theorem fails_bind {x : Task S ε α} {f : α → Task S ε β} (hx : x.Fails E)
    (hf : ∀ t a, x.run.Executes t (.ok a) → (f a).Fails fun u e => E (t ++ u) e) :
    (x >>= f).Fails E := by
  intro t e h
  rcases executes_bind.1 h with ⟨e', he, heq⟩ | ⟨t₁, t₂, a, h₁, h₂, rfl⟩
  · cases heq
    exact hx t _ he
  · exact hf t₁ a h₁ t₂ e h₂

theorem Fails.mono {x : Task S ε α} {F : List (Event S) → ε → Prop} (hx : x.Fails E)
    (h : ∀ t e, E t e → F t e) : x.Fails F :=
  fun t e he => h t e (hx t e he)

theorem fails_one {op : S.Op} {next : S.Reply op → Except ε α}
    (h : ∀ reply e, next reply = .error e → E [⟨op, reply⟩] e) :
    (ofProgram (Program.step op fun reply => .done (next reply))).Fails E := by
  intro t e he
  obtain ⟨reply, _, hdone, rfl⟩ := Program.executes_step.1 he
  obtain ⟨rfl, heq⟩ := Program.executes_done.1 hdone
  exact h reply e heq.symm

end Provision.Task
