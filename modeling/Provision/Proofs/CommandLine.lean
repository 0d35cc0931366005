import Provision.CommandLine
import Provision.Proofs.Host.Scratch
import Provision.Proofs.Pipeline.Wire

/-!
# Runs of the program

A get and a put end in one of two ways. They exit with 0 and have printed one line, their response;
or they exit with 1 and have printed nothing. In both cases nothing is left of the directory that
was made for the files of the run, whatever went wrong before it was given back.
-/

namespace Provision

open Provision.Host

namespace Pipeline.Command

variable {directory : String} {s : Settings} {p : Prepared} {u : Journal} {r : Except Failure Unit}

def Tidies (x : Command Unit) : Prop := ∀ u r, x.run.Executes u r → Tidy u

theorem opened_of_inner {α : Type} {x : Command α} (hx : x.run.Only Host.Request.IsInner)
    {r : Except Failure α} (h : x.run.Executes u r) : opened u = [] := by
  refine List.filterMap_eq_nil_iff.2 fun e he => ?_
  have hinner := hx.executes h e he
  obtain ⟨op, reply⟩ := e
  cases op with
  | openScratch => exact hinner.elim
  | _ => rfl

theorem tidies_bind {α : Type} {x : Command α} {g : α → Command Unit}
    (hx : x.run.Only Host.Request.IsInner) (hg : ∀ y, Tidies (g y)) : Tidies (x >>= g) := by
  intro u r h path hpath
  rcases Task.executes_bind.1 h with ⟨f, hf, rfl⟩ | ⟨t, v, y, ht, hv, rfl⟩
  · rw [opened_of_inner hx hf] at hpath
    cases hpath
  · rw [opened_append] at hpath
    rcases List.mem_append.1 hpath with hpath | hpath
    · rw [opened_of_inner hx ht] at hpath
      cases hpath
    · obtain ⟨before, after, rfl, hafter⟩ := hg y v r hv path hpath
      exact ⟨t ++ before, after, (List.append_assoc _ _ _).symm, hafter⟩

theorem tidies_withScratch {body : String → Command Unit}
    (h : ∀ scratch v r, (body scratch).run.Executes v r → opened v = []) :
    Tidies (withScratch body) := by
  intro u r hu path hpath
  rcases executes_withScratch hu with ⟨fault, -, rfl⟩ | ⟨scratch, v, hv, rfl⟩
  · cases hpath
  · have hopened : opened (⟨.openScratch, (.ok scratch : Except Fault String)⟩ ::
        (v ++ [⟨.closeScratch scratch, ()⟩])) = [scratch] := by
      change scratch :: opened (v ++ [⟨.closeScratch scratch, ()⟩]) = _
      rw [opened_append, h scratch v r hv]
      rfl
    rw [hopened] at hpath
    obtain rfl := List.mem_singleton.1 hpath
    exact ⟨⟨.openScratch, .ok path⟩ :: v, [], rfl, fun _ he => absurd he List.not_mem_nil⟩

theorem opened_of_prepared (s : Settings) (scratch : String) (body : Prepared → Command Response)
    (hbody : ∀ p, Prepared.draft s scratch = .ok p → (body p).run.Only Host.Request.IsInner)
    (h : (do
      let p ← ofStep (Prepared.ofSettings s scratch)
      writeResponse (← body p) : Command Unit).run.Executes u r) : opened u = [] := by
  have hprepare : (ofStep (Prepared.ofSettings s scratch)).run.Only Host.Request.IsInner :=
    inner_ofStep Prepared.reading_ofSettings
  rcases Task.executes_bind.1 h with ⟨f, hf, -⟩ | ⟨t₁, _, p, hp, h₁, rfl⟩
  · exact opened_of_inner hprepare hf
  have hinner := hbody p (Prepared.executes_ofSettings (Task.executes_mapError_ok.1 hp))
  rcases Task.executes_bind.1 h₁ with ⟨f, hf, -⟩ | ⟨t₂, _, response, hresponse, h₂, rfl⟩
  · rw [opened_append, opened_of_inner hprepare hp, opened_of_inner hinner hf]
    rfl
  · obtain ⟨_, hprint, -⟩ := Task.executes_lift.1 h₂
    obtain rfl := Program.executes_one.1 hprint
    rw [opened_append, opened_append, opened_of_inner hprepare hp,
      opened_of_inner hinner hresponse]
    rfl

theorem tidies_put : Tidies (put directory) := by
  refine tidies_bind inner_readRequest fun request =>
    tidies_bind (inner_ofStep Settings.reading_ofPut) fun s =>
      tidies_withScratch fun scratch v r h => ?_
  refine opened_of_prepared s scratch (fun p => do
    let result ← perform s p
    return .ofResult result (← engineVersion p)) (fun p hp => ?_) (by simpa using h)
  exact Task.only_bind (inner_perform (Prepared.inner_of_draft hp)) fun result =>
    Task.only_bind inner_engineVersion fun _ => Task.only_pure

theorem tidies_get : Tidies (get directory) := by
  refine tidies_bind inner_readRequest fun request =>
    tidies_bind (x := ExceptT.mk (pure (requestedVersion request))) trivial fun requested => ?_
  split
  · intro u r h
    obtain ⟨_, hprint, -⟩ := Task.executes_lift.1 h
    obtain rfl := Program.executes_one.1 hprint
    exact fun path hpath => absurd hpath List.not_mem_nil
  · refine tidies_bind (inner_ofStep Settings.reading_ofGet) fun s =>
      tidies_bind (inner_sayLine _) fun _ => tidies_withScratch fun scratch v r h => ?_
    refine opened_of_prepared s scratch (fun p => do
      let result ← ofStep (p.run (p.action.fetch requested.planOnly))
      deliver directory s p requested result) (fun p hp => ?_) (by simpa using h)
    have hdriver := Prepared.inner_of_draft hp
    exact Task.only_bind (inner_ofRun hdriver (Lifecycle.Action.only_fetch
      Lifecycle.Action.mayDestroy_inner.toMayLook _)) fun result => inner_deliver hdriver

theorem executes_exitCode {c : Command Unit} {code : Nat} (h : (exitCode c).Executes u code) :
    ∃ t r, c.run.Executes t r ∧ ((r = .ok () ∧ code = 0 ∧ u = t) ∨
      ∃ f text, r = .error f ∧ code = 1 ∧ u = t ++ [⟨.printError text, ()⟩]) := by
  obtain ⟨t, v, r, ht, hv, rfl⟩ := Program.executes_bind.1 h
  cases r with
  | ok _ =>
    obtain ⟨rfl, rfl⟩ := Program.executes_done.1 hv
    exact ⟨t, _, ht, .inl ⟨rfl, rfl, List.append_nil t⟩⟩
  | error f =>
    obtain ⟨_, _, _, hprint, hdone, rfl⟩ := Program.executes_bind.1 hv
    obtain rfl := Program.executes_one.1 hprint
    obtain ⟨rfl, rfl⟩ := Program.executes_done.1 hdone
    exact ⟨t, _, ht, .inr ⟨f, _, rfl, rfl, rfl⟩⟩

theorem Tidies.exitCode {x : Command Unit} (hx : Tidies x) {code : Nat}
    (h : (exitCode x).Executes u code) : Tidy u := by
  obtain ⟨t, r, ht, ⟨-, -, rfl⟩ | ⟨f, text, -, -, rfl⟩⟩ := executes_exitCode h
  · exact hx u r ht
  · intro path hpath
    rw [opened_append] at hpath
    rcases List.mem_append.1 hpath with hpath | hpath
    · obtain ⟨v, w, rfl, hw⟩ := hx t r ht path hpath
      refine ⟨v, w ++ [⟨.printError text, ()⟩], by simp, fun e he => ?_⟩
      rcases List.mem_append.1 he with he | he
      · exact hw e he
      · exact ⟨text, by rw [List.mem_singleton.1 he]⟩
    · cases hpath

theorem Answers.exitCode {P : Journal → Response → Prop} {x : Command Unit} (hx : Answers P x)
    {code : Nat} (h : (exitCode x).Executes u code) :
    (code = 0 ∧ ∃ response, P u response ∧ printed u = [response.line]) ∨
      (code = 1 ∧ printed u = []) := by
  obtain ⟨t, r, ht, ⟨hr, rfl, rfl⟩ | ⟨f, text, hr, rfl, rfl⟩⟩ := executes_exitCode h
  · exact .inl ⟨rfl, (hx u r ht).1 hr⟩
  · refine .inr ⟨rfl, ?_⟩
    rw [printed, List.filterMap_append]
    exact congrArg (· ++ _) ((hx t r ht).2 f hr)

end Pipeline.Command

namespace CommandLine

open Provision.Pipeline.Command (Answers Tidies answers_get_writable answers_put_writable tidies_get
  tidies_put)

variable {directory : String}

theorem Verb.tidies (v : Verb) : Tidies (v.command directory) := by
  cases v with
  | get => exact tidies_get
  | put => exact tidies_put

theorem Verb.answers (v : Verb) :
    Answers (fun u response => Clocked u → response.version.Writable) (v.command directory) := by
  cases v with
  | get => exact answers_get_writable
  | put => exact answers_put_writable

/-- A get and a put either exit with 0, having printed one line that is a response and reads back
as it, or exit with 1, having printed nothing. Whatever was made for their files is gone wherever
giving it back removes it. -/
theorem run_clean {arguments : List String} {v : Verb} {u : Journal} {code : Nat}
    (hline : Request.ofCommandLine arguments = .run v directory)
    (h : (run arguments).Executes u code) :
    ((code = 0 ∧ ∃ response : Response, printed u = [response.line] ∧
        Text.IsLine response.line ∧ (Clocked u → Response.ofLine response.line = .ok response)) ∨
      (code = 1 ∧ printed u = [])) ∧
    ∀ path ∈ opened u, ∀ (current : Location) (Step : Disk → Event effects → Disk → Prop),
      Disk.GivesBack current path Step →
      ∀ d d' : Disk, Passes Step d u d' → d'.IsFree (Disk.place current path) := by
  have hcommand : (Pipeline.Command.exitCode (v.command directory)).Executes u code := by
    simpa only [run, hline] using h
  refine ⟨?_, fun path hpath current Step hback d d' hu =>
    (v.tidies.exitCode hcommand).isFree hpath hback hu⟩
  rcases v.answers.exitCode hcommand with ⟨hcode, response, hwritable, hprinted⟩ | hfailed
  · exact .inl ⟨hcode, response, hprinted, response.isLine_line,
      fun hclock => Response.ofLine_line (hwritable hclock)⟩
  · exact .inr hfailed

namespace Sample

def request : Json.Value := .object [("source", .object [
  ("env_name", .string "dev"),
  ("storage", .object [("driver", .string "local"), ("path", .string "/states")]),
  ("terraform_source", .string "infra"),
  ("vars", .object [("size", .string "small")])])]

def disk : Disk := ⟨[(["tmp"], .directory), (["work"], .directory), (["work", "infra"], .directory),
  (["states"], .directory)]⟩

def host (succeeds : Bool) : Lodging where
  scratch := "/tmp/run"
  clock := ⟨2024, 5, 6, 12, 30, 0, 0⟩
  uuid := ⟨.replicate 16 7⟩
  input := Text.Utf8.encode request.compact
  process i d :=
    if i.arguments.head? = some "apply" then
      (⟨.code (if succeeds then 0 else 1), [], []⟩,
        (d.put ["tmp", "run", "terraform.tfstate"] (.file (Text.Utf8.encode "{}"))).put
          ["tmp", "run", "plugins"] .directory)
    else (⟨.code 0, [], []⟩, d)

def answer (succeeds locked : Bool) : (r : Host.Request) → Disk → r.Reply × Disk
  | .writeFile path content, d =>
    if locked then (.error .denied, d) else (host succeeds).answer (.writeFile path content) d
  | r, d => (host succeeds).answer r d

def putRun (succeeds locked : Bool) : Journal × Nat × Disk :=
  Program.rehearse (S := effects) (answer succeeds locked) (run ["put", "/work"]) disk

variable (succeeds locked : Bool)

def Step (d : Disk) (e : Event effects) (d' : Disk) : Prop :=
  (e.reply, d') = answer succeeds locked e.op d

theorem executes_putRun :
    (run ["put", "/work"]).Executes (putRun succeeds locked).1 (putRun succeeds locked).2.1 := by
  unfold putRun
  generalize run ["put", "/work"] = p
  exact Program.executes_rehearse (answer succeeds locked) p disk

theorem passes_putRun :
    Passes (Step succeeds locked) disk (putRun succeeds locked).1 (putRun succeeds locked).2.2 := by
  unfold putRun
  generalize run ["put", "/work"] = p
  exact Program.passes_rehearse (fun _ _ => rfl) p disk

theorem clocked_putRun : Clocked (putRun succeeds locked).1 := by
  intro time htime
  obtain ⟨d, _, hstep⟩ := (passes_putRun succeeds locked).of_mem htime
  obtain rfl : time = ⟨2024, 5, 6, 12, 30, 0, 0⟩ := congrArg Prod.fst hstep
  decide

theorem givesBack_run : Disk.GivesBack [] "/tmp/run" (Step succeeds locked) where
  closed {d d'} h := by
    obtain rfl : d' = d.eraseTree (Disk.place [] "/tmp/run") := congrArg Prod.snd h
    exact Disk.isFree_eraseTree d (by decide)
  message h := congrArg Prod.snd h

theorem run_clean_put :
    ((putRun true false).2.1 = 0 ∧ (∃ response : Response,
        printed (putRun true false).1 = [response.line] ∧
        Response.ofLine response.line = .ok response) ∧
      opened (putRun true false).1 = ["/tmp/run"] ∧
      (putRun true false).2.2.IsFree ["tmp", "run"]) ∧
    ((putRun false false).2.1 = 1 ∧ printed (putRun false false).1 = [] ∧
      opened (putRun false false).1 = ["/tmp/run"] ∧
      (putRun false false).2.2.IsFree ["tmp", "run"]) ∧
    (putRun true true).2.1 = 1 ∧ printed (putRun true true).1 = [] ∧
      opened (putRun true true).1 = ["/tmp/run"] ∧ (putRun true true).2.2.IsFree ["tmp", "run"] := by
  have hline : Request.ofCommandLine ["put", "/work"] = .run .put "/work" := rfl
  have hplace : Disk.place [] "/tmp/run" = ["tmp", "run"] := by decide
  have hclean (succeeds locked : Bool) := run_clean hline (executes_putRun succeeds locked)
  have hfine : (putRun true false).2.1 = 0 ∧ opened (putRun true false).1 = ["/tmp/run"] := by
    decide +kernel
  have hfailed : (putRun false false).2.1 = 1 ∧ opened (putRun false false).1 = ["/tmp/run"] := by
    decide +kernel
  have hlocked : (putRun true true).2.1 = 1 ∧ opened (putRun true true).1 = ["/tmp/run"] := by
    decide +kernel
  have hfree {succeeds locked : Bool} (h : opened (putRun succeeds locked).1 = ["/tmp/run"]) :
      (putRun succeeds locked).2.2.IsFree ["tmp", "run"] := by
    rw [← hplace]
    exact (hclean succeeds locked).2 _ (h ▸ List.mem_singleton_self _) _ _
      (givesBack_run succeeds locked) _ _ (passes_putRun succeeds locked)
  have hsilent {succeeds locked : Bool} (h : (putRun succeeds locked).2.1 = 1) :
      printed (putRun succeeds locked).1 = [] := by
    rcases (hclean succeeds locked).1 with ⟨hzero, -⟩ | ⟨-, hprinted⟩
    · cases h.symm.trans hzero
    · exact hprinted
  refine ⟨⟨hfine.1, ?_, hfine.2, hfree hfine.2⟩,
    ⟨hfailed.1, hsilent hfailed.1, hfailed.2, hfree hfailed.2⟩,
    hlocked.1, hsilent hlocked.1, hlocked.2, hfree hlocked.2⟩
  rcases (hclean true false).1 with ⟨-, response, hprinted, -, hreads⟩ | ⟨hone, -⟩
  · exact ⟨response, hprinted, hreads (clocked_putRun true false)⟩
  · cases hfine.1.symm.trans hone

end Sample

end CommandLine

end Provision
