import Provision.Proofs.Surroundings
import Provision.Proofs.Transitions

/-!
# What is done in which state

Whether a step is in order can depend on the state in which it finds the surroundings. `Along`
says that every step of a record is in order, on every way that the surroundings can go with it.
A program conducts itself so if all of its records do; what its parts establish for each other are
predicates on the states between them.
-/

namespace Provision

variable {S : Signature} {σ α β ε ε' : Type} {R : σ → Event S → σ → Prop}
  {P : σ → Event S → Prop} {s s' : σ} {t u : List (Event S)}

/-- `P` holds of every step and of each state in which it can be taken. -/
def Along (R : σ → Event S → σ → Prop) (P : σ → Event S → Prop) : σ → List (Event S) → Prop
  | _, [] => True
  | s, e :: t => P s e ∧ ∀ s', R s e s' → Along R P s' t

theorem along_append (ht : Along R P s t) (hu : ∀ s', Passes R s t s' → Along R P s' u) :
    Along R P s (t ++ u) := by
  induction t generalizing s with
  | nil => exact hu s (.nil s)
  | cons e t ih =>
    exact ⟨ht.1, fun s₁ he => ih (ht.2 s₁ he) fun s' hpass => hu s' (.cons he hpass)⟩

namespace Task

variable {I : σ → Prop} {K : S.Op → Prop}

/-- From a state of `I` the task does every step as `P` asks; where it ends well, `Q` holds. -/
def Conducts (R : σ → Event S → σ → Prop) (P : σ → Event S → Prop) (I : σ → Prop)
    (x : Task S ε α) (Q : α → σ → Prop) : Prop :=
  ∀ s t r, I s → x.run.Executes t r →
    Along R P s t ∧ ∀ y s', r = .ok y → Passes R s t s' → Q y s'

variable {Q : α → σ → Prop} {T : β → σ → Prop}

theorem conducts_pure {y : α} (h : ∀ s, I s → Q y s) :
    Conducts R P I (pure y : Task S ε α) Q := by
  intro s t r hs hx
  obtain ⟨rfl, rfl⟩ := executes_pure.1 hx
  refine ⟨trivial, fun y' s' heq hpass => ?_⟩
  cases heq
  obtain rfl := passes_nil.1 hpass
  exact h s' hs

theorem conducts_bind {x : Task S ε α} {f : α → Task S ε β} (hx : Conducts R P I x Q)
    (hf : ∀ y, Conducts R P (Q y) (f y) T) : Conducts R P I (x >>= f) T := by
  intro s t r hs h
  rcases executes_bind.1 h with ⟨e, he, rfl⟩ | ⟨t₁, t₂, y, h₁, h₂, rfl⟩
  · exact ⟨(hx s t _ hs he).1, fun _ _ heq => by cases heq⟩
  · obtain ⟨halong, hend⟩ := hx s t₁ _ hs h₁
    have hrest (s₁ : σ) (hpass : Passes R s t₁ s₁) := hf y s₁ t₂ r (hend y s₁ rfl hpass) h₂
    refine ⟨along_append halong fun s₁ hpass => (hrest s₁ hpass).1, fun y' s' heq hpass => ?_⟩
    obtain ⟨s₁, hpass₁, hpass₂⟩ := passes_append.1 hpass
    exact (hrest s₁ hpass₁).2 y' s' heq hpass₂

theorem conducts_one {op : S.Op} {next : S.Reply op → Except ε α}
    (hP : ∀ s reply, I s → P s ⟨op, reply⟩)
    (hQ : ∀ s reply s' y, I s → R s ⟨op, reply⟩ s' → next reply = .ok y → Q y s') :
    Conducts R P I (ofProgram (Program.step op fun reply => .done (next reply))) Q := by
  intro s t r hs h
  obtain ⟨reply, _, hdone, rfl⟩ := Program.executes_step.1 h
  obtain ⟨rfl, rfl⟩ := Program.executes_done.1 hdone
  refine ⟨⟨hP s reply hs, fun _ _ => trivial⟩, fun y s' heq hpass => ?_⟩
  obtain ⟨s₁, hstep, hnil⟩ := passes_cons.1 hpass
  obtain rfl := passes_nil.1 hnil
  exact hQ s reply s' y hs hstep heq

theorem conducts_of_only {x : Task S ε α} (hx : x.run.Only K)
    (hP : ∀ s e, K e.op → I s → P s e)
    (hI : ∀ s e s', K e.op → R s e s' → I s → I s') : Conducts R P I x fun _ => I := by
  intro s t r hs h
  have ht := hx.executes h
  refine ⟨?_, fun _ s' _ hpass =>
    hpass.preserves (fun s₁ e s₂ he hstep => hI s₁ e s₂ (ht e he) hstep) hs⟩
  clear hx h
  induction t generalizing s with
  | nil => trivial
  | cons e t ih =>
    have he := ht e List.mem_cons_self
    exact ⟨hP s e he hs, fun s' hstep => ih s' (hI s e s' he hstep hs)
      fun e' he' => ht e' (List.mem_cons_of_mem _ he')⟩

theorem Conducts.imp {I' : σ → Prop} {Q' : α → σ → Prop} {x : Task S ε α}
    (hx : Conducts R P I x Q) (hI : ∀ s, I' s → I s) (hQ : ∀ y s, Q y s → Q' y s) :
    Conducts R P I' x Q' := by
  intro s t r hs h
  obtain ⟨halong, hend⟩ := hx s t r (hI s hs) h
  exact ⟨halong, fun y s' heq hpass => hQ y s' (hend y s' heq hpass)⟩

theorem Conducts.along {x : Task S ε α} (hx : Conducts R P I x Q) (hs : I s) {r : Except ε α}
    (h : x.run.Executes t r) : Along R P s t :=
  (hx s t r hs h).1

end Task

end Provision
