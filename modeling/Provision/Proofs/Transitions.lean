import Provision.Proofs.Execution

/-!
# Programs that change the state of their surroundings

A relation `R` says how surroundings in one state may answer a step, and which state they are in
afterwards. `Passes` follows a record through the states, and `Performs` is what a whole program
can come to: its result and the last state, for a first state.
-/

namespace Provision

variable {S T : Signature} {σ α β : Type} {R : σ → Event S → σ → Prop} {s s' : σ}

inductive Passes (R : σ → Event S → σ → Prop) : σ → List (Event S) → σ → Prop where
  | nil (s : σ) : Passes R s [] s
  | cons {s s₁ s' : σ} {e : Event S} {t : List (Event S)} :
      R s e s₁ → Passes R s₁ t s' → Passes R s (e :: t) s'

@[simp] theorem passes_nil : Passes R s [] s' ↔ s' = s := by
  constructor
  · intro h
    cases h
    rfl
  · rintro rfl
    exact .nil _

@[simp] theorem passes_cons {e : Event S} {t : List (Event S)} :
    Passes R s (e :: t) s' ↔ ∃ s₁, R s e s₁ ∧ Passes R s₁ t s' := by
  constructor
  · intro h
    cases h with
    | cons he ht => exact ⟨_, he, ht⟩
  · rintro ⟨s₁, he, ht⟩
    exact .cons he ht

theorem passes_append {t u : List (Event S)} :
    Passes R s (t ++ u) s' ↔ ∃ s₁, Passes R s t s₁ ∧ Passes R s₁ u s' := by
  induction t generalizing s with
  | nil => simp
  | cons e t ih =>
    rw [List.cons_append, passes_cons]
    constructor
    · rintro ⟨s₁, he, h⟩
      obtain ⟨s₂, ht, hu⟩ := ih.1 h
      exact ⟨s₂, .cons he ht, hu⟩
    · rintro ⟨s₂, ht, hu⟩
      obtain ⟨s₁, he, ht⟩ := passes_cons.1 ht
      exact ⟨s₁, he, ih.2 ⟨s₂, ht, hu⟩⟩

/-- What every step preserves, the whole record preserves. -/
theorem Passes.preserves {I : σ → Prop} {t : List (Event S)} (h : Passes R s t s')
    (hstep : ∀ s e s', e ∈ t → R s e s' → I s → I s') (hs : I s) : I s' := by
  induction h with
  | nil s => exact hs
  | cons he _ ih =>
    exact ih (fun s e s' hmem => hstep s e s' (List.mem_cons_of_mem _ hmem))
      (hstep _ _ _ List.mem_cons_self he hs)

theorem Passes.of_mem {e : Event S} {t : List (Event S)} (h : Passes R s t s') (he : e ∈ t) :
    ∃ s₁ s₂, R s₁ e s₂ := by
  induction h with
  | nil s => cases he
  | cons hstep _ ih =>
    rcases List.mem_cons.1 he with rfl | he
    · exact ⟨_, _, hstep⟩
    · exact ih he

namespace Program

def Performs (R : σ → Event S → σ → Prop) (p : Program S α) (s : σ) (a : α) (s' : σ) : Prop :=
  ∃ t, p.Executes t a ∧ Passes R s t s'

@[simp] theorem performs_done {a b : α} :
    (done a : Program S α).Performs R s b s' ↔ b = a ∧ s' = s := by
  constructor
  · rintro ⟨t, h, ht⟩
    obtain ⟨rfl, rfl⟩ := executes_done.1 h
    exact ⟨rfl, passes_nil.1 ht⟩
  · rintro ⟨rfl, rfl⟩
    exact ⟨[], .done _, .nil _⟩

theorem performs_step {op : S.Op} {next : S.Reply op → Program S α} {a : α} :
    (step op next).Performs R s a s' ↔
      ∃ reply s₁, R s ⟨op, reply⟩ s₁ ∧ (next reply).Performs R s₁ a s' := by
  constructor
  · rintro ⟨t, h, ht⟩
    obtain ⟨reply, t, hrest, rfl⟩ := executes_step.1 h
    obtain ⟨s₁, he, ht⟩ := passes_cons.1 ht
    exact ⟨reply, s₁, he, t, hrest, ht⟩
  · rintro ⟨reply, s₁, he, t, h, ht⟩
    exact ⟨_, .step reply h, .cons he ht⟩

@[simp] theorem performs_one {op : S.Op} {reply : S.Reply op} :
    (step op .done).Performs R s reply s' ↔ R s ⟨op, reply⟩ s' := by
  rw [performs_step]
  constructor
  · rintro ⟨_, _, he, h⟩
    obtain ⟨rfl, rfl⟩ := performs_done.1 h
    exact he
  · exact fun he => ⟨reply, s', he, performs_done.2 ⟨rfl, rfl⟩⟩

theorem performs_bind {p : Program S α} {f : α → Program S β} {b : β} :
    (p >>= f).Performs R s b s' ↔ ∃ a s₁, p.Performs R s a s₁ ∧ (f a).Performs R s₁ b s' := by
  constructor
  · rintro ⟨t, h, ht⟩
    obtain ⟨t₁, t₂, a, h₁, h₂, rfl⟩ := executes_bind.1 h
    obtain ⟨s₁, ht₁, ht₂⟩ := passes_append.1 ht
    exact ⟨a, s₁, ⟨t₁, h₁, ht₁⟩, ⟨t₂, h₂, ht₂⟩⟩
  · rintro ⟨a, s₁, ⟨t₁, h₁, ht₁⟩, ⟨t₂, h₂, ht₂⟩⟩
    exact ⟨t₁ ++ t₂, executes_bind.2 ⟨t₁, t₂, a, h₁, h₂, rfl⟩, passes_append.2 ⟨s₁, ht₁, ht₂⟩⟩

/-- The record, the result and the last state in surroundings that are a function of their
state. -/
def rehearse (answer : (op : S.Op) → σ → S.Reply op × σ) :
    Program S α → σ → List (Event S) × α × σ
  | done a, s => ([], a, s)
  | step op next, s =>
    let (reply, s₁) := answer op s
    let (t, result) := (next reply).rehearse answer s₁
    (⟨op, reply⟩ :: t, result)

theorem executes_rehearse (answer : (op : S.Op) → σ → S.Reply op × σ) (p : Program S α) (s : σ) :
    p.Executes (p.rehearse answer s).1 (p.rehearse answer s).2.1 := by
  induction p generalizing s with
  | done a => exact .done a
  | step op next ih => exact .step _ (ih _ _)

theorem passes_rehearse {answer : (op : S.Op) → σ → S.Reply op × σ}
    (h : ∀ op s, R s ⟨op, (answer op s).1⟩ (answer op s).2) (p : Program S α) (s : σ) :
    Passes R s (p.rehearse answer s).1 (p.rehearse answer s).2.2 := by
  induction p generalizing s with
  | done a => exact .nil s
  | step op next ih => exact .cons (h op s) (ih _ _)

/-- From the first state the program can come to one result and one state only, and does. -/
def ComesTo (R : σ → Event S → σ → Prop) (p : Program S α) (s : σ) (a : α) (s' : σ) : Prop :=
  ∀ b s₁, p.Performs R s b s₁ ↔ b = a ∧ s₁ = s'

theorem ComesTo.performs {p : Program S α} {a : α} (h : p.ComesTo R s a s') :
    p.Performs R s a s' :=
  (h a s').2 ⟨rfl, rfl⟩

theorem comesTo_done {a : α} : (done a : Program S α).ComesTo R s a s := fun _ _ => performs_done

theorem comesTo_one {op : S.Op} {reply : S.Reply op}
    (h : ∀ other s₁, R s ⟨op, other⟩ s₁ ↔ other = reply ∧ s₁ = s') :
    (step op .done).ComesTo R s reply s' :=
  fun other s₁ => performs_one.trans (h other s₁)

theorem comesTo_bind {p : Program S α} {f : α → Program S β} {a : α} {b : β} {s₁ : σ}
    (hp : p.ComesTo R s a s₁) (hf : (f a).ComesTo R s₁ b s') : (p >>= f).ComesTo R s b s' := by
  intro b' s₂
  rw [performs_bind]
  constructor
  · rintro ⟨a', s₁', h₁, h₂⟩
    obtain ⟨rfl, rfl⟩ := (hp a' s₁').1 h₁
    exact (hf b' s₂).1 h₂
  · rintro ⟨rfl, rfl⟩
    exact ⟨a, s₁, hp.performs, hf.performs⟩

end Program

namespace Task

variable {ε ε' : Type}

@[simp] theorem performs_pure {a : α} {r : Except ε α} :
    (pure a : Task S ε α).run.Performs R s r s' ↔ r = .ok a ∧ s' = s :=
  Program.performs_done

@[simp] theorem performs_throw {e : ε} {r : Except ε α} :
    (throw e : Task S ε α).run.Performs R s r s' ↔ r = .error e ∧ s' = s :=
  Program.performs_done

theorem performs_bind {x : Task S ε α} {f : α → Task S ε β} {r : Except ε β} :
    (x >>= f).run.Performs R s r s' ↔
      (∃ e, x.run.Performs R s (.error e) s' ∧ r = .error e) ∨
        ∃ a s₁, x.run.Performs R s (.ok a) s₁ ∧ (f a).run.Performs R s₁ r s' := by
  rw [ExceptT.run_bind, Program.performs_bind]
  constructor
  · rintro ⟨r₁, s₁, h₁, h₂⟩
    cases r₁ with
    | error e =>
      obtain ⟨rfl, rfl⟩ := Program.performs_done.1 h₂
      exact .inl ⟨e, h₁, rfl⟩
    | ok a => exact .inr ⟨a, s₁, h₁, h₂⟩
  · rintro (⟨e, h, rfl⟩ | ⟨a, s₁, h₁, h₂⟩)
    · exact ⟨_, s', h, Program.performs_done.2 ⟨rfl, rfl⟩⟩
    · exact ⟨_, s₁, h₁, h₂⟩

theorem performs_bind_ok {x : Task S ε α} {f : α → Task S ε β} {b : β} :
    (x >>= f).run.Performs R s (.ok b) s' ↔
      ∃ a s₁, x.run.Performs R s (.ok a) s₁ ∧ (f a).run.Performs R s₁ (.ok b) s' := by
  rw [performs_bind]
  constructor
  · rintro (⟨e, -, heq⟩ | h)
    · cases heq
    · exact h
  · exact .inr

theorem performs_lift {p : Program S α} {r : Except ε α} :
    (lift p : Task S ε α).run.Performs R s r s' ↔ ∃ a, p.Performs R s a s' ∧ r = .ok a := by
  rw [lift, ExceptT.run_lift, map_eq_pure_bind, Program.performs_bind]
  constructor
  · rintro ⟨a, s₁, h₁, h₂⟩
    obtain ⟨rfl, rfl⟩ := Program.performs_done.1 h₂
    exact ⟨a, h₁, rfl⟩
  · rintro ⟨a, h, rfl⟩
    exact ⟨a, s', h, Program.performs_done.2 ⟨rfl, rfl⟩⟩

theorem performs_lift_ok {p : Program S α} {a : α} :
    (lift p : Task S ε α).run.Performs R s (.ok a) s' ↔ p.Performs R s a s' := by
  rw [performs_lift]
  constructor
  · rintro ⟨b, hb, heq⟩
    cases heq
    exact hb
  · exact fun h => ⟨a, h, rfl⟩

theorem performs_mapError {x : Task S ε α} {f : ε → ε'} {r : Except ε' α} :
    (x.mapError f).run.Performs R s r s' ↔
      ∃ r', x.run.Performs R s r' s' ∧ r = r'.mapError f := by
  change ((Except.mapError f <$> x.run : Program S (Except ε' α))).Performs R s r s' ↔ _
  rw [map_eq_pure_bind, Program.performs_bind]
  constructor
  · rintro ⟨r₁, s₁, h₁, h₂⟩
    obtain ⟨rfl, rfl⟩ := Program.performs_done.1 h₂
    exact ⟨r₁, h₁, rfl⟩
  · rintro ⟨r', h, rfl⟩
    exact ⟨r', s', h, Program.performs_done.2 ⟨rfl, rfl⟩⟩

theorem performs_mapError_ok {x : Task S ε α} {f : ε → ε'} {a : α} :
    (x.mapError f).run.Performs R s (.ok a) s' ↔ x.run.Performs R s (.ok a) s' := by
  rw [performs_mapError]
  constructor
  · rintro ⟨r, hr, heq⟩
    cases r with
    | ok b =>
      cases heq
      exact hr
    | error e => cases heq
  · exact fun h => ⟨_, h, rfl⟩

theorem comesTo_pure {a : α} : (pure a : Task S ε α).run.ComesTo R s (.ok a) s :=
  Program.comesTo_done

theorem comesTo_throw {e : ε} : (throw e : Task S ε α).run.ComesTo R s (.error e) s :=
  Program.comesTo_done

theorem comesTo_bind {x : Task S ε α} {f : α → Task S ε β} {a : α} {r : Except ε β} {s₁ : σ}
    (hx : x.run.ComesTo R s (.ok a) s₁) (hf : (f a).run.ComesTo R s₁ r s') :
    (x >>= f).run.ComesTo R s r s' := by
  rw [ExceptT.run_bind]
  exact Program.comesTo_bind hx hf

theorem performs_bind_of_comesTo {x : Task S ε α} {f : α → Task S ε β} {a : α} {r : Except ε β}
    {s₁ : σ} (hx : x.run.ComesTo R s (.ok a) s₁) :
    (x >>= f).run.Performs R s r s' ↔ (f a).run.Performs R s₁ r s' := by
  rw [Task.performs_bind]
  constructor
  · rintro (⟨e, he, -⟩ | ⟨b, s₂, hb, hrest⟩)
    · cases ((hx _ _).1 he).1
    · obtain ⟨heq, rfl⟩ := (hx _ _).1 hb
      cases heq
      exact hrest
  · exact fun hrest => .inr ⟨a, s₁, hx.performs, hrest⟩

theorem performs_lift_bind {p : Program S α} {f : α → Task S ε β} {r : Except ε β} :
    (lift p >>= f).run.Performs R s r s' ↔
      ∃ a s₁, p.Performs R s a s₁ ∧ (f a).run.Performs R s₁ r s' := by
  rw [performs_bind]
  constructor
  · rintro (⟨e, he, -⟩ | ⟨a, s₁, h₁, h₂⟩)
    · obtain ⟨_, -, heq⟩ := performs_lift.1 he
      cases heq
    · obtain ⟨_, h₁, heq⟩ := performs_lift.1 h₁
      cases heq
      exact ⟨a, s₁, h₁, h₂⟩
  · rintro ⟨a, s₁, h₁, h₂⟩
    exact .inr ⟨a, s₁, performs_lift.2 ⟨a, h₁, rfl⟩, h₂⟩

theorem comesTo_bind_error {x : Task S ε α} {f : α → Task S ε β} {e : ε}
    (hx : x.run.ComesTo R s (.error e) s') : (x >>= f).run.ComesTo R s (.error e) s' := by
  rw [ExceptT.run_bind]
  exact Program.comesTo_bind hx Program.comesTo_done

theorem comesTo_lift {p : Program S α} {a : α} (h : p.ComesTo R s a s') :
    (lift p : Task S ε α).run.ComesTo R s (.ok a) s' := by
  rw [lift, ExceptT.run_lift, map_eq_pure_bind]
  exact Program.comesTo_bind h Program.comesTo_done

theorem comesTo_mapError {x : Task S ε α} {f : ε → ε'} {r : Except ε α}
    (h : x.run.ComesTo R s r s') : (x.mapError f).run.ComesTo R s (r.mapError f) s' := by
  change ((Except.mapError f <$> x.run : Program S (Except ε' α))).ComesTo R s _ s'
  rw [map_eq_pure_bind]
  exact Program.comesTo_bind h Program.comesTo_done

end Task

end Provision
