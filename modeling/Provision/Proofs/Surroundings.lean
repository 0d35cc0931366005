import Provision.Proofs.Execution

/-!
# Programs in known surroundings

What a program is sure to do when something is known of every step that its surroundings
answer. `Yields` speaks of all executions whose steps are as assumed, and says what their record
and their result are; `Achieves` says in addition that a task does not fail. `Only` is about the
program alone: which steps it can ever take.
-/

namespace Provision

namespace Program

variable {S T : Signature} {α β : Type} {P : Event S → Prop}

def Yields (P : Event S → Prop) (p : Program S α) (Q : List (Event S) → α → Prop) : Prop :=
  ∀ t a, p.Executes t a → (∀ e ∈ t, P e) → Q t a

theorem yields_done {a : α} {Q : List (Event S) → α → Prop} (h : Q [] a) :
    (done a : Program S α).Yields P Q := by
  intro t b hb _
  obtain ⟨rfl, rfl⟩ := executes_done.1 hb
  exact h

theorem yields_one {op : S.Op} {Q : List (Event S) → S.Reply op → Prop}
    (h : ∀ reply, P ⟨op, reply⟩ → Q [⟨op, reply⟩] reply) : (step op .done).Yields P Q := by
  intro t reply hreply ht
  obtain rfl := executes_one.1 hreply
  exact h reply (ht _ (List.mem_singleton_self _))

theorem yields_bind {p : Program S α} {f : α → Program S β} {Q : List (Event S) → α → Prop}
    {R : List (Event S) → β → Prop} (hp : p.Yields P Q)
    (hf : ∀ t a, Q t a → (f a).Yields P fun u b => R (t ++ u) b) : (p >>= f).Yields P R := by
  intro t b hb ht
  obtain ⟨t₁, t₂, a, h₁, h₂, rfl⟩ := executes_bind.1 hb
  have hq := hp t₁ a h₁ fun e he => ht e (List.mem_append_left _ he)
  exact hf t₁ a hq t₂ b h₂ fun e he => ht e (List.mem_append_right _ he)

/-- All steps of the program are of the kind `K`. -/
def Only (K : S.Op → Prop) : Program S α → Prop
  | done _ => True
  | step op next => K op ∧ ∀ reply, (next reply).Only K

variable {K : S.Op → Prop}

theorem only_bind {p : Program S α} {f : α → Program S β} (hp : p.Only K)
    (hf : ∀ a, (f a).Only K) : (p >>= f).Only K := by
  induction p with
  | done a => exact hf a
  | step op next ih => exact ⟨hp.1, fun reply => ih reply (hp.2 reply)⟩

theorem Only.mono {p : Program S α} {L : S.Op → Prop} (hp : p.Only K) (h : ∀ op, K op → L op) :
    p.Only L := by
  induction p with
  | done a => trivial
  | step op next ih => exact ⟨h op hp.1, fun reply => ih reply (hp.2 reply)⟩

theorem Only.executes {p : Program S α} (hp : p.Only K) {t : List (Event S)} {a : α}
    (h : p.Executes t a) : ∀ e ∈ t, K e.op := by
  induction h with
  | done a => exact fun e he => absurd he List.not_mem_nil
  | step reply _ ih =>
    intro e he
    rcases List.mem_cons.1 he with rfl | he
    · exact hp.1
    · exact ih (hp.2 reply) e he

theorem only_interpret {L : T.Op → Prop} {answer : (op : S.Op) → Program T (S.Reply op)}
    {p : Program S α} (hp : p.Only K) (hanswer : ∀ op, K op → (answer op).Only L) :
    (p.interpret answer).Only L := by
  induction p with
  | done a => trivial
  | step op next ih => exact only_bind (hanswer op hp.1) fun reply => ih reply (hp.2 reply)

theorem Backed.cons_iff {answer : (op : S.Op) → Program T (S.Reply op)} {e : Event S}
    {t : List (Event S)} {u : List (Event T)} :
    Backed answer (e :: t) u ↔
      ∃ u₁ u₂, (answer e.op).Executes u₁ e.reply ∧ Backed answer t u₂ ∧ u = u₁ ++ u₂ := by
  constructor
  · intro h
    cases h with
    | cons hfirst hrest => exact ⟨_, _, hfirst, hrest, rfl⟩
  · rintro ⟨u₁, u₂, hfirst, hrest, rfl⟩
    exact .cons hfirst hrest

theorem Backed.one_iff {answer : (op : S.Op) → Program T (S.Reply op)} {e : Event S}
    {u : List (Event T)} : Backed answer [e] u ↔ (answer e.op).Executes u e.reply := by
  constructor
  · intro h
    obtain ⟨u₁, u₂, hfirst, hrest, rfl⟩ := cons_iff.1 h
    cases hrest
    rwa [List.append_nil]
  · intro h
    exact cons_iff.2 ⟨u, [], h, .nil, (List.append_nil u).symm⟩

theorem Backed.append {answer : (op : S.Op) → Program T (S.Reply op)} {t₁ t₂ : List (Event S)}
    {u : List (Event T)} (h : Backed answer (t₁ ++ t₂) u) :
    ∃ u₁ u₂, Backed answer t₁ u₁ ∧ Backed answer t₂ u₂ ∧ u = u₁ ++ u₂ := by
  induction t₁ generalizing u with
  | nil => exact ⟨[], u, .nil, h, rfl⟩
  | cons e t₁ ih =>
    obtain ⟨v, w, hfirst, hrest, rfl⟩ := cons_iff.1 h
    obtain ⟨u₁, u₂, h₁, h₂, rfl⟩ := ih hrest
    exact ⟨_, u₂, .cons hfirst h₁, h₂, (List.append_assoc _ _ _).symm⟩

theorem Backed.concat {answer : (op : S.Op) → Program T (S.Reply op)} {t₁ t₂ : List (Event S)}
    {u₁ u₂ : List (Event T)} (h₁ : Backed answer t₁ u₁) (h₂ : Backed answer t₂ u₂) :
    Backed answer (t₁ ++ t₂) (u₁ ++ u₂) := by
  induction h₁ with
  | nil => exact h₂
  | cons hfirst _ ih =>
    rw [List.cons_append, List.append_assoc]
    exact .cons hfirst ih

theorem Backed.mem {answer : (op : S.Op) → Program T (S.Reply op)} {t : List (Event S)}
    {u : List (Event T)} (h : Backed answer t u) {e : Event S} (he : e ∈ t) :
    ∃ v, v <:+: u ∧ (answer e.op).Executes v e.reply := by
  induction h with
  | nil => cases he
  | @cons op reply t u₁ u₂ hfirst hrest ih =>
    rcases List.mem_cons.1 he with rfl | he
    · exact ⟨u₁, ⟨[], u₂, rfl⟩, hfirst⟩
    · obtain ⟨v, hv, hexec⟩ := ih he
      exact ⟨v, hv.trans (List.suffix_append _ _).isInfix, hexec⟩

theorem Backed.only {K : S.Op → Prop} {L : T.Op → Prop}
    {answer : (op : S.Op) → Program T (S.Reply op)} {t : List (Event S)} {u : List (Event T)}
    (h : Backed answer t u) (ht : ∀ e ∈ t, K e.op)
    (hanswer : ∀ op, K op → (answer op).Only L) : ∀ e ∈ u, L e.op := by
  induction h with
  | nil => exact fun e he => absurd he List.not_mem_nil
  | @cons op reply t u₁ u₂ hfirst hrest ih =>
    intro e he
    rcases List.mem_append.1 he with he | he
    · exact (hanswer op (ht _ List.mem_cons_self)).executes hfirst e he
    · exact ih (fun e he => ht e (List.mem_cons_of_mem _ he)) e he

/-- The step can be answered as it was by programs whose own steps are as assumed. -/
def Answered (answer : (op : S.Op) → Program T (S.Reply op)) (P : Event T → Prop)
    (e : Event S) : Prop :=
  ∃ v, (∀ e' ∈ v, P e') ∧ (answer e.op).Executes v e.reply

section Answered

variable {answer : (op : S.Op) → Program T (S.Reply op)} {P : Event T → Prop}

theorem Answered.of_yields {op : S.Op} {reply : S.Reply op}
    {Q : List (Event T) → S.Reply op → Prop} (h : Answered answer P ⟨op, reply⟩)
    (hanswer : (answer op).Yields P Q) : ∃ v, Q v reply := by
  obtain ⟨v, hv, hexec⟩ := h
  exact ⟨v, hanswer v reply hexec hv⟩

theorem yields_interpret {p : Program S α} {Q : List (Event S) → α → Prop}
    (hp : p.Yields (Answered answer P) Q) :
    (p.interpret answer).Yields P fun u a => ∃ t, Backed answer t u ∧ Q t a := by
  intro u a h hu
  obtain ⟨t, ht, hbacked⟩ := executes_interpret h
  refine ⟨t, hbacked, hp t a ht fun e he => ?_⟩
  obtain ⟨v, hv, hexec⟩ := hbacked.mem he
  exact ⟨v, fun e' he' => hu e' (hv.subset he'), hexec⟩

end Answered

end Program

namespace Task

variable {S : Signature} {ε ε' α β : Type} {P : Event S → Prop}

def Achieves (P : Event S → Prop) (x : Task S ε α) (Q : List (Event S) → α → Prop) : Prop :=
  x.run.Yields P fun t r => ∃ a, r = .ok a ∧ Q t a

theorem achieves_pure {a : α} {Q : List (Event S) → α → Prop} (h : Q [] a) :
    (pure a : Task S ε α).Achieves P Q :=
  Program.yields_done ⟨a, rfl, h⟩

theorem Achieves.bind_executes {x : Task S ε α} {f : α → Task S ε β}
    {Q : List (Event S) → α → Prop} {t : List (Event S)} {r : Except ε β} (hx : x.Achieves P Q)
    (h : (x >>= f).run.Executes t r) (ht : ∀ e ∈ t, P e) :
    ∃ t₁ t₂ a, x.run.Executes t₁ (.ok a) ∧ Q t₁ a ∧ (f a).run.Executes t₂ r ∧ t = t₁ ++ t₂ := by
  rcases executes_bind.1 h with ⟨e, he, rfl⟩ | ⟨t₁, t₂, a, h₁, h₂, rfl⟩
  · obtain ⟨a, ha, -⟩ := hx t _ he ht
    cases ha
  · obtain ⟨a', ha, hq⟩ := hx t₁ _ h₁ fun e he => ht e (List.mem_append_left _ he)
    cases ha
    exact ⟨t₁, t₂, a, h₁, hq, h₂, rfl⟩

theorem achieves_bind {x : Task S ε α} {f : α → Task S ε β} {Q : List (Event S) → α → Prop}
    {R : List (Event S) → β → Prop} (hx : x.Achieves P Q)
    (hf : ∀ t a, Q t a → (f a).Achieves P fun u b => R (t ++ u) b) : (x >>= f).Achieves P R := by
  intro t r hr ht
  obtain ⟨t₁, t₂, a, -, hq, h₂, rfl⟩ := hx.bind_executes hr ht
  exact hf t₁ a hq t₂ r h₂ fun e he => ht e (List.mem_append_right _ he)

theorem achieves_lift {p : Program S α} {Q : List (Event S) → α → Prop} (h : p.Yields P Q) :
    (lift p : Task S ε α).Achieves P Q := by
  intro t r hr ht
  obtain ⟨a, ha, rfl⟩ := executes_lift.1 hr
  exact ⟨a, rfl, h t a ha ht⟩

theorem achieves_mapError {x : Task S ε α} {f : ε → ε'} {Q : List (Event S) → α → Prop}
    (h : x.Achieves P Q) : (x.mapError f).Achieves P Q := by
  intro t r hr ht
  obtain ⟨r', hr', rfl⟩ := executes_mapError.1 hr
  obtain ⟨a, rfl, hq⟩ := h t r' hr' ht
  exact ⟨a, rfl, hq⟩

theorem Achieves.weaken {x : Task S ε α} {Q R : List (Event S) → α → Prop}
    (hx : x.Achieves P Q) (h : ∀ t a, Q t a → R t a) : x.Achieves P R := by
  intro t r hr ht
  obtain ⟨a, rfl, hq⟩ := hx t r hr ht
  exact ⟨a, rfl, h t a hq⟩

theorem executes_bind_ok {x : Task S ε α} {f : α → Task S ε β} {t : List (Event S)} {b : β} :
    (x >>= f).run.Executes t (.ok b) ↔
      ∃ t₁ t₂ a, x.run.Executes t₁ (.ok a) ∧ (f a).run.Executes t₂ (.ok b) ∧ t = t₁ ++ t₂ := by
  rw [executes_bind]
  constructor
  · rintro (⟨e, -, he⟩ | h)
    · cases he
    · exact h
  · exact .inr

theorem executes_pure_ok {t : List (Event S)} {a b : α} :
    (pure a : Task S ε α).run.Executes t (.ok b) ↔ t = [] ∧ b = a := by
  rw [executes_pure, Except.ok.injEq]

theorem executes_mapError_ok {x : Task S ε α} {f : ε → ε'} {t : List (Event S)} {a : α} :
    (x.mapError f).run.Executes t (.ok a) ↔ x.run.Executes t (.ok a) := by
  rw [executes_mapError]
  constructor
  · rintro ⟨r, hr, heq⟩
    cases r with
    | ok b =>
      cases heq
      exact hr
    | error e => cases heq
  · exact fun h => ⟨_, h, rfl⟩

theorem executes_lift_ok {p : Program S α} {t : List (Event S)} {a : α} :
    (lift p : Task S ε α).run.Executes t (.ok a) ↔ p.Executes t a := by
  rw [executes_lift]
  constructor
  · rintro ⟨b, hb, heq⟩
    cases heq
    exact hb
  · exact fun h => ⟨a, h, rfl⟩

variable {K : S.Op → Prop}

theorem only_pure {a : α} : (pure a : Task S ε α).run.Only K := trivial

theorem only_throw {e : ε} : (throw e : Task S ε α).run.Only K := trivial

theorem only_bind {x : Task S ε α} {f : α → Task S ε β} (hx : x.run.Only K)
    (hf : ∀ a, (f a).run.Only K) : (x >>= f).run.Only K := by
  rw [ExceptT.run_bind]
  refine Program.only_bind hx fun r => ?_
  cases r with
  | ok a => exact hf a
  | error e => trivial

theorem only_lift {p : Program S α} (h : p.Only K) : (lift p : Task S ε α).run.Only K := by
  rw [lift, ExceptT.run_lift]
  exact Program.only_bind h fun _ => trivial

theorem only_mapError {x : Task S ε α} {f : ε → ε'} (h : x.run.Only K) :
    (x.mapError f).run.Only K :=
  Program.only_bind h fun _ => trivial

end Task

end Provision
