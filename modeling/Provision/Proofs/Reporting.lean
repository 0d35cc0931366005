import Provision.Proofs.Surroundings

/-!
# Texts that are handed on

A step may tell a text that must not be lost. A program reports such texts if it fails whenever
one of its steps told one, with an error that keeps every text that was told. What it means to
keep a text is left open, so one program can be asked for texts in its message, and another one for
texts in a part of it. A part that tells nothing has nothing to report.
-/

namespace Provision

variable {S T : Signature} {α β ε ε' : Type} {told : Event S → String → Prop}
  {kept : String → ε → Prop}

namespace Program

def Reports (told : Event S → String → Prop) (kept : String → ε → Prop)
    (p : Program S (Except ε α)) : Prop :=
  ∀ t r, p.Executes t r → ∀ d ∈ t, ∀ text, told d text → ∃ e, r = .error e ∧ kept text e

def Mute (told : Event S → String → Prop) (op : S.Op) : Prop :=
  ∀ reply text, ¬ told ⟨op, reply⟩ text

theorem not_told_of_mute {p : Program S α} (hp : p.Only (Mute told)) {t : List (Event S)} {a : α}
    (h : p.Executes t a) {d : Event S} (hd : d ∈ t) (text : String) : ¬ told d text :=
  hp.executes h d hd d.reply text

theorem reports_mute {p : Program S (Except ε α)} (hp : p.Only (Mute told)) :
    p.Reports told kept :=
  fun _ _ h _ hd text htext => absurd htext (not_told_of_mute hp h hd text)

theorem Reports.mono {p : Program S (Except ε α)} {kept' : String → ε → Prop}
    (hp : p.Reports told kept) (h : ∀ text e, kept text e → kept' text e) :
    p.Reports told kept' := by
  intro t r ht d hd text htext
  obtain ⟨e, heq, hkept⟩ := hp t r ht d hd text htext
  exact ⟨e, heq, h text e hkept⟩

theorem Reports.not_told {p : Program S (Except ε α)} (hp : p.Reports told kept)
    {t : List (Event S)} {a : α} (h : p.Executes t (.ok a)) {d : Event S} (hd : d ∈ t)
    (text : String) : ¬ told d text := by
  intro htext
  obtain ⟨_, heq, -⟩ := hp t _ h d hd text htext
  cases heq

theorem Backed.origin {answer : (op : S.Op) → Program T (S.Reply op)} {t : List (Event S)}
    {u : List (Event T)} (h : Backed answer t u) {d : Event T} (hd : d ∈ u) :
    ∃ e ∈ t, ∃ v, d ∈ v ∧ (answer e.op).Executes v e.reply := by
  induction h with
  | nil => cases hd
  | @cons op reply t u₁ u₂ hfirst _ ih =>
    rcases List.mem_append.1 hd with hd | hd
    · exact ⟨_, List.mem_cons_self, u₁, hd, hfirst⟩
    · obtain ⟨e, he, hsource⟩ := ih hd
      exact ⟨e, List.mem_cons_of_mem _ he, hsource⟩

end Program

namespace Task

open Provision.Program (Mute Reports reports_mute)

theorem reports_bind {x : Task S ε α} {f : α → Task S ε β} (hx : x.run.Reports told kept)
    (hf : ∀ a, (f a).run.Reports told kept) : (x >>= f).run.Reports told kept := by
  intro t r h d hd text htext
  rcases executes_bind.1 h with ⟨e, he, rfl⟩ | ⟨t₁, t₂, a, h₁, h₂, rfl⟩
  · obtain ⟨e', heq, hkept⟩ := hx t _ he d hd text htext
    cases heq
    exact ⟨e, rfl, hkept⟩
  · rcases List.mem_append.1 hd with hd | hd
    · exact absurd htext (hx.not_told h₁ hd text)
    · exact hf a t₂ r h₂ d hd text htext

theorem reports_pure {a : α} : (pure a : Task S ε α).run.Reports told kept := reports_mute trivial

theorem reports_throw {e : ε} : (throw e : Task S ε α).run.Reports told kept :=
  reports_mute trivial

theorem reports_ask {op : S.Op} {f : S.Reply op → Task S ε β}
    (hf : ∀ reply, (f reply).run.Reports told kept)
    (hkept : ∀ reply text, told ⟨op, reply⟩ text → ∀ t r, (f reply).run.Executes t r →
      ∃ e, r = .error e ∧ kept text e) :
    (do f (← Task.lift (Program.step op .done)) : Task S ε β).run.Reports told kept := by
  intro t r h d hd text htext
  obtain ⟨_, t₁, reply, hop, hrest, rfl⟩ := executes_lift_bind.1 h
  obtain rfl := Program.executes_one.1 hop
  rcases List.mem_cons.1 hd with rfl | hd
  · exact hkept reply text htext t₁ r hrest
  · exact hf reply t₁ r hrest d hd text htext

theorem reports_mapError {x : Task S ε α} {f : ε → ε'} {kept' : String → ε' → Prop}
    (hx : x.run.Reports told kept) (hf : ∀ text e, kept text e → kept' text (f e)) :
    (x.mapError f).run.Reports told kept' := by
  intro t r h d hd text htext
  obtain ⟨r', hr, rfl⟩ := executes_mapError.1 h
  obtain ⟨e, rfl, hkept⟩ := hx t r' hr d hd text htext
  exact ⟨f e, rfl, hf text e hkept⟩

theorem reports_rescue {x : Task S ε α} {g : Except ε α → Task S ε β}
    (hx : x.run.Reports told kept) (hg : ∀ r, (g r).run.Reports told kept)
    (hfailed : ∀ e t r, (g (.error e)).run.Executes t r →
      ∃ e', r = .error e' ∧ ∀ text, kept text e → kept text e') :
    (do g (← Task.outcome x) : Task S ε β).run.Reports told kept := by
  intro t r h d hd text htext
  obtain ⟨t₁, t₂, outcome, h₁, h₂, rfl⟩ := executes_lift_bind.1 h
  rcases List.mem_append.1 hd with hd | hd
  · obtain ⟨e, rfl, hkept⟩ := hx t₁ outcome h₁ d hd text htext
    obtain ⟨e', rfl, hkeeps⟩ := hfailed e t₂ r h₂
    exact ⟨e', rfl, hkeeps text hkept⟩
  · exact hg outcome t₂ r h₂ d hd text htext

end Task

end Provision
