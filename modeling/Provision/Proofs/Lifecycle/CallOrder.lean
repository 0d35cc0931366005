import Provision.Proofs.Lifecycle.Conformance

/-!
# The order of the calls of an apply

An apply takes its steps in the order of the protocol, whatever the replies are. Two facts about
whole records are drawn from the protocol. The addresses that are taken into the state are those
that were not found in it, in ascending order, each once. And a step that fails is the last one
of the run, unless it is the apply or a part of the destroy that makes up for it.
-/

namespace Provision.Lifecycle

open Protocol Record

/-- A failed step that ends the run. -/
def IsFatal (e : Event steps) : Prop :=
  (failure? e).isSome ∧ applied? e = none ∧ destroyed? e = none ∧ dropped? e = none

/-- The configured addresses that the state was found to lack. -/
def missing (a : Action) (t : Record) : List String :=
  match listings t with
  | [] => []
  | tracked :: _ => (untracked tracked a.imports.entries).map (·.1)

section Order

variable {a : Action} {t : Record} {e : Event steps}

/-- A phase asks for one step only, and the phases after it are settled. -/
theorem Protocol.Asks.unique {p : Phase} {s s' : Step} {next : s.Reply → Phase}
    {next' : s'.Reply → Phase} (h : Asks a p s next) (h' : Asks a p s' next') :
    (⟨s, next⟩ : Σ s : Step, s.Reply → Phase) = ⟨s', next'⟩ := by
  cases h <;> cases h' <;> simp_all

theorem missing_ascending (a : Action) (t : Record) : (missing a t).Pairwise (· < ·) := by
  unfold missing
  split
  · exact .nil
  · rw [List.pairwise_map]
    exact a.imports.ascending.filter _

theorem missing_snoc (h : listed? e = none) : missing a (t ++ [e]) = missing a t := by
  simp only [missing, listings, filterMap_snoc_none h]

def Protocol.Phase.Late : Phase → Prop
  | .apply | .pullState | .readCopy | .upload _ | .readOutput _ | .destroy _ | .dropState _
  | .lookForCopy _ | .readPartial _ | .uploadPartial _ _ | .ended _ => True
  | _ => False

theorem late_preserve (report : Error) : (Phase.preserve a report).Late := by
  unfold Phase.preserve
  cases a.backend with
  | workspace => trivial
  | stored f => trivial

theorem Protocol.Asks.late {p : Phase} {s : Step} {next : s.Reply → Phase} (h : Asks a p s next)
    (hp : p.Late) (reply : s.Reply) :
    (next reply).Late ∧ adopted? ⟨s, reply⟩ = none ∧ listed? ⟨s, reply⟩ = none := by
  cases h with
  | apply =>
    refine ⟨?_, rfl, rfl⟩
    cases reply with
    | ok _ => cases hb : a.backend <;> simp [Phase.orElse, Phase.record, hb, Phase.Late]
    | error cause =>
      cases hd : a.deleteOnFailure with
      | true => simp [Phase.orElse, Phase.compensate, hd, Phase.Late]
      | false => simpa [Phase.orElse, Phase.compensate, hd] using late_preserve _
  | pullState hb =>
    have hverify (outcome : Except Error Nat) :
        (Phase.verify (fun n => .readOutput (.ofSerial a.envName n)) outcome).Late := by
      cases outcome <;> trivial
    exact ⟨hverify _, rfl, rfl⟩
  | readCopy hb => cases reply <;> exact ⟨trivial, rfl, rfl⟩
  | upload hb content => cases reply <;> exact ⟨trivial, rfl, rfl⟩
  | readOutput version => cases reply <;> exact ⟨trivial, rfl, rfl⟩
  | destroy cause =>
    refine ⟨?_, rfl, rfl⟩
    cases reply with
    | ok _ =>
      simp only [Phase.orElse, Phase.afterDestroy]
      split <;> trivial
    | error second => exact late_preserve _
  | deleteWorkspace hb cause =>
    refine ⟨?_, rfl, rfl⟩
    cases reply with
    | ok _ => trivial
    | error second => exact late_preserve _
  | deleteObject hb cause =>
    refine ⟨?_, rfl, rfl⟩
    cases reply with
    | ok _ => trivial
    | error second => exact late_preserve _
  | lookForCopy hb report => cases reply <;> exact ⟨trivial, rfl, rfl⟩
  | readPartial hb report => cases reply <;> exact ⟨trivial, rfl, rfl⟩
  | uploadPartial hb report content => exact ⟨trivial, rfl, rfl⟩
  | _ => exact hp.elim

/-- What is known of the imports in each phase. -/
def Imports (a : Action) (t : Record) : Phase → Prop
  | .adopt address _ pending =>
    applies t = [] ∧ missing a t = adoptions t ++ address :: pending.map (·.1)
  | .ended _ => adoptions t <+: missing a t ∧ (applies t ≠ [] → adoptions t = missing a t)
  | .apply | .pullState | .readCopy | .upload _ | .readOutput _ | .destroy _ | .dropState _
  | .lookForCopy _ | .readPartial _ | .uploadPartial _ _ => adoptions t = missing a t
  | _ => applies t = [] ∧ listings t = [] ∧ adoptions t = []

theorem imports_of_late {p : Phase} (hp : p.Late) (h : adoptions t = missing a t) :
    Imports a t p := by
  cases p with
  | ended r => exact ⟨h ▸ List.prefix_refl _, fun _ => h⟩
  | apply | pullState | readCopy | upload | readOutput | destroy | dropState | lookForCopy
  | readPartial | uploadPartial => exact h
  | _ => exact hp.elim

theorem eq_missing_of_late {p : Phase} (hp : p.Late) (hended : ∀ r, p ≠ .ended r)
    (h : Imports a t p) : adoptions t = missing a t := by
  cases p with
  | ended r => exact absurd rfl (hended r)
  | apply | pullState | readCopy | upload | readOutput | destroy | dropState | lookForCopy
  | readPartial | uploadPartial => exact h
  | _ => exact hp.elim

theorem imports_afterPreparation
    (h : applies t = [] ∧ listings t = [] ∧ adoptions t = []) :
    Imports a t (.afterPreparation a) := by
  unfold Phase.afterPreparation
  split
  · rw [Imports, missing, h.2.1, h.2.2]
  · exact h

theorem imports_adoptNext {pending : List (String × String)} (ha : applies t = [])
    (h : missing a t = adoptions t ++ pending.map (·.1)) : Imports a t (.adoptNext pending) := by
  cases pending with
  | nil => simpa [Phase.adoptNext, Imports] using h.symm
  | cons e rest => exact ⟨ha, h⟩

theorem imports_prepared {ε α : Type} {outcome : Except ε α} {report : ε → Error}
    {good : α → Phase} (h : applies t = [] ∧ listings t = [] ∧ adoptions t = [])
    (ha : applied? e = none) (hl : listed? e = none) (hd : adopted? e = none)
    (hgood : ∀ x u, applies u = [] ∧ listings u = [] ∧ adoptions u = [] → Imports a u (good x)) :
    Imports a (t ++ [e]) (.orElse (fun x => .failed (report x)) good outcome) := by
  have hsnoc : applies (t ++ [e]) = [] ∧ listings (t ++ [e]) = [] ∧ adoptions (t ++ [e]) = [] := by
    simpa only [applies, listings, adoptions, filterMap_snoc_none, ha, hl, hd] using h
  cases outcome with
  | ok x => exact hgood x _ hsnoc
  | error x =>
    refine ⟨?_, fun happlied => absurd hsnoc.1 happlied⟩
    rw [hsnoc.2.2]
    exact List.nil_prefix

theorem imports_step {p : Phase} {s : Step} {next : s.Reply → Phase} (reply : s.Reply)
    (h : Asks a p s next) (ht : Imports a t p) :
    Imports a (t ++ [⟨s, reply⟩]) (next reply) := by
  -- From the apply on, one argument serves all phases.
  have hlate (hp : p.Late) (hended : ∀ r, p ≠ .ended r) :
      Imports a (t ++ [⟨s, reply⟩]) (next reply) := by
    obtain ⟨hnext, hadopted, hlisted⟩ := h.late hp reply
    refine imports_of_late hnext ?_
    rw [adoptions, filterMap_snoc_none hadopted, missing_snoc hlisted]
    exact eq_missing_of_late hp hended ht
  cases h with
  | initBackend hb => exact imports_prepared ht rfl rfl rfl fun _ _ hu => hu
  | listWorkspaces hb =>
    refine imports_prepared ht rfl rfl rfl fun names u hu => ?_
    cases names.contains a.envName with
    | true => exact imports_afterPreparation hu
    | false => exact hu
  | newWorkspace hb =>
    exact imports_prepared ht rfl rfl rfl fun _ _ => imports_afterPreparation
  | initLocal hb => exact imports_prepared ht rfl rfl rfl fun _ _ hu => hu
  | probe hb =>
    refine imports_prepared ht rfl rfl rfl fun v u hu => ?_
    cases v.isZero with
    | true => exact imports_afterPreparation hu
    | false => exact hu
  | @download f hb =>
    refine imports_prepared ht rfl rfl rfl fun object u hu => ?_
    unfold Phase.place
    split <;> exact hu
  | makeDirectory hb directory content =>
    exact imports_prepared ht rfl rfl rfl fun _ _ hu => hu
  | writeCopy hb content =>
    exact imports_prepared ht rfl rfl rfl fun _ _ => imports_afterPreparation
  | listState =>
    obtain ⟨ha, hl, hd⟩ := ht
    have hd' : adoptions (t ++ [⟨.engine (.listState a.envName), reply⟩]) = [] :=
      (filterMap_snoc_none rfl).trans hd
    have ha' : applies (t ++ [⟨.engine (.listState a.envName), reply⟩]) = [] :=
      (filterMap_snoc_none rfl).trans ha
    cases reply with
    | error e => exact ⟨hd' ▸ List.nil_prefix, fun h => absurd ha' h⟩
    | ok tracked =>
      refine imports_adoptNext ha' ?_
      simp [missing, listings, hl, listed?, hd']
  | adopt address id pending =>
    obtain ⟨ha, hm⟩ := ht
    have hd : adoptions (t ++ [⟨.engine (.adopt a.envName address id), reply⟩]) =
        adoptions t ++ [address] := filterMap_snoc_some rfl
    have hm' : missing a (t ++ [⟨.engine (.adopt a.envName address id), reply⟩]) =
        adoptions t ++ address :: pending.map (·.1) := (missing_snoc rfl).trans hm
    have ha' : applies (t ++ [⟨.engine (.adopt a.envName address id), reply⟩]) = [] :=
      (filterMap_snoc_none rfl).trans ha
    cases reply with
    | error e =>
      refine ⟨?_, fun h => absurd ha' h⟩
      rw [hd, hm']
      exact ⟨pending.map (·.1), by simp⟩
    | ok _ =>
      refine imports_adoptNext ha' ?_
      rw [hd, hm', List.append_assoc, List.singleton_append]
  | _ => exact hlate trivial fun _ h => nomatch h

theorem imports_log {p : Phase} (line : Host.LogLine) (reply : Unit) (h : Imports a t p) :
    Imports a (t ++ [⟨.host (.log line), reply⟩]) p := by
  have happlies : applies (t ++ [⟨.host (.log line), reply⟩]) = applies t :=
    filterMap_snoc_none rfl
  have hlistings : listings (t ++ [⟨.host (.log line), reply⟩]) = listings t :=
    filterMap_snoc_none rfl
  have hadoptions : adoptions (t ++ [⟨.host (.log line), reply⟩]) = adoptions t :=
    filterMap_snoc_none rfl
  cases p <;> simpa only [Imports, missing, happlies, hlistings, hadoptions] using h

def Halts (t : Record) (p : Phase) : Prop :=
  (t.Pairwise fun e later => IsFatal e → IsLog later) ∧
    ((∃ e ∈ t, IsFatal e) → ∃ r, p = .ended r)

theorem not_isFatal_log (line : Host.LogLine) (reply : Unit) :
    ¬ IsFatal ⟨.host (.log line), reply⟩ :=
  fun h => Bool.false_ne_true h.1

theorem halts_log {p : Phase} (line : Host.LogLine) (reply : Unit) (h : Halts t p) :
    Halts (t ++ [⟨.host (.log line), reply⟩]) p := by
  refine ⟨List.pairwise_append.2 ⟨h.1, List.pairwise_singleton _ _, ?_⟩, ?_⟩
  · rintro e - later hlater -
    rw [List.mem_singleton.1 hlater]
    trivial
  · rintro ⟨e, he, hfatal⟩
    rcases List.mem_append.1 he with he | he
    · exact h.2 ⟨e, he, hfatal⟩
    · rw [List.mem_singleton.1 he] at hfatal
      exact absurd hfatal (not_isFatal_log line reply)

theorem Protocol.Asks.ended_of_isFatal {p : Phase} {s : Step} {next : s.Reply → Phase}
    (h : Asks a p s next) {reply : s.Reply} (hfatal : IsFatal ⟨s, reply⟩) :
    ∃ r, next reply = .ended r := by
  obtain ⟨hfailed, happlied, hdestroyed, hdropped⟩ := hfatal
  cases h with
  | apply => cases happlied
  | destroy cause => cases hdestroyed
  | deleteWorkspace hb cause => cases hdropped
  | deleteObject hb cause => cases hdropped
  | pullState hb =>
    -- A document without a serial counts as a failure of the pull.
    have hverify (outcome : Except Error Nat) (h : (errorOf outcome).isSome) : ∃ r,
        Phase.verify (fun n => .readOutput (.ofSerial a.envName n)) outcome = .ended r := by
      cases outcome with
      | ok n => cases h
      | error e => exact ⟨_, rfl⟩
    exact hverify _ hfailed
  | lookForCopy hb report => cases hfailed
  | uploadPartial hb report content => exact ⟨_, rfl⟩
  | _ =>
    cases reply with
    | ok x => cases hfailed
    | error e => exact ⟨_, rfl⟩

theorem halts_step {p : Phase} {s : Step} {next : s.Reply → Phase} (reply : s.Reply)
    (h : Asks a p s next) (ht : Halts t p) : Halts (t ++ [⟨s, reply⟩]) (next reply) := by
  have hnone : ¬ ∃ e ∈ t, IsFatal e := by
    intro hfatal
    obtain ⟨r, rfl⟩ := ht.2 hfatal
    cases h
  refine ⟨List.pairwise_append.2 ⟨ht.1, List.pairwise_singleton _ _, ?_⟩, ?_⟩
  · intro e he later _ hfatal
    exact absurd ⟨e, he, hfatal⟩ hnone
  · rintro ⟨e, he, hfatal⟩
    rcases List.mem_append.1 he with he | he
    · exact absurd ⟨e, he, hfatal⟩ hnone
    · rw [List.mem_singleton.1 he] at hfatal
      exact h.ended_of_isFatal hfatal

end Order

/-- The order of the calls of a run, whatever these reply. -/
theorem apply_callOrder {a : Action} {t : Record} {r : Except Error RunResult}
    (h : a.apply.run.Executes t r) :
    (if Text.isAllBlank a.envName then t = [] else Leads a .start t (.ended r)) ∧
      adoptions t <+: missing a t ∧ (missing a t).Pairwise (· < ·) ∧
      (applies t ≠ [] → adoptions t = missing a t) ∧
      t.Pairwise fun e later => IsFatal e → IsLog later := by
  cases hn : Text.isAllBlank a.envName with
  | true =>
    obtain ⟨rfl, -⟩ := Action.apply_executes_of_blank hn h
    exact ⟨rfl, List.nil_prefix, missing_ascending a [], fun _ => rfl, .nil⟩
  | false =>
    have hrun : Leads a .start t (.ended r) := Action.tracks_apply hn t r h
    have himports : Imports a ([] ++ t) (.ended r) :=
      hrun.preserves (fun _ _ => imports_log) (fun _ _ _ _ => imports_step) [] ⟨rfl, rfl, rfl⟩
    have hhalts : Halts ([] ++ t) (.ended r) :=
      hrun.preserves (fun _ _ => halts_log) (fun _ _ _ _ => halts_step) []
        ⟨.nil, fun ⟨_, he, _⟩ => nomatch he⟩
    exact ⟨hrun, himports.1, missing_ascending a t, himports.2, hhalts.1⟩

def importing : Action where
  backend := .workspace
  envName := "dev"
  imports := ((({} : Dict String).insert "c" "3").insert "b" "2").insert "a" "1"

def halfImported : Record := [
  ofEngine (.initBackend "dev") (.ok ()),
  ofEngine .listWorkspaces (.ok ["default"]),
  ofLog .info "Creating workspace 'dev'",
  ofEngine (.newWorkspace "dev") (.ok ()),
  ofEngine (.listState "dev") (.ok ["b"]),
  ofLog .info "Importing '1' as 'a'",
  ofEngine (.adopt "dev" "a" "1") (.ok ()),
  ofLog .info "Skipping import of 'b': already in state",
  ofLog .info "Importing '3' as 'c'",
  ofEngine (.adopt "dev" "c" "3") (.error (.engine "terraform import" "exit status 1" "gone"))]

theorem apply_callOrder_halfImported :
    (if Text.isAllBlank "dev" then halfImported = [] else Leads importing .start halfImported
      (.ended (.error (.engine "terraform import" "exit status 1" "gone")))) ∧
      adoptions halfImported <+: missing importing halfImported ∧
      (missing importing halfImported).Pairwise (· < ·) ∧
      (applies halfImported ≠ [] → adoptions halfImported = missing importing halfImported) ∧
      halfImported.Pairwise fun e later => IsFatal e → IsLog later := by
  refine apply_callOrder (a := importing) ?_
  exact .step _ (.step _ (.step _ (.step _ (.step _ (.step _ (.step _ (.step _ (.step _
    (.step _ (.done _))))))))))

end Provision.Lifecycle
