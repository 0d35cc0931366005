import Provision.Proofs.Pipeline.Answering

/-!
# What a get replies

A get for a destroy echoes the version that was asked for and does nothing else. A get for a plan
echoes that version, whether there is a state or not. Any other get replies with the version that
it has just read of a state that is there. A request without a version to ask for is refused
before anything is done.
-/

namespace Provision

open Provision.Host
open Provision.Lifecycle (Fetched Tells)
open Provision.Program (Backed)
open Provision.Task (executes_bind_ok executes_lift_ok executes_mapError_ok executes_pure_ok)

theorem Lifecycle.Tells.envName {a : Lifecycle.Action} {t : Lifecycle.Record} {result : RunResult}
    (h : Tells a t result) : result.version.envName = a.envName := by
  have hversion := h.version
  cases hb : a.backend with
  | workspace =>
    rw [hb] at hversion
    obtain ⟨_, _, -, hv, -⟩ := hversion
    rw [hv]
    rfl
  | stored f =>
    rw [hb] at hversion
    obtain ⟨_, _, hv, -⟩ := hversion
    rw [hv]

namespace Pipeline

def Request.mode (request : Request) : Mode :=
  if (nonBlank request.source.backendType).isSome then .workspace else .legacy

/-- The request gives no version that could be looked up. -/
def Request.Unfit (request : Request) : Prop :=
  request.version = none ∨ ∃ version, request.version = some version ∧
    (Text.isAllBlank version.envName = true ∨
      version.serial.isSome = true ∧ version.storageVersion.isSome = true)

theorem Prepared.mode_of_draft {request : Request} {envName scratch : String} {s : Settings}
    {p : Prepared} (hs : s.Reflects request envName) (hp : draft s scratch = .ok p) :
    p.action.mode = request.mode := by
  rcases Settings.place_of_valid hs.valid with ⟨backendType, hb, -⟩ | ⟨c, hb, hstorage⟩
  · rw [draft_workspace (by rw [hb]; rfl)] at hp
    cases hp
    rw [Request.mode, ← hs.backendType, hb]
    rfl
  · rw [draft_legacy hb hstorage] at hp
    split at hp
    · cases hp
    · cases hp
      rw [Request.mode, ← hs.backendType, hb]
      rfl

theorem Settings.reflects_of_ofGet {request : Request} {directory : String} {requested : Version}
    {s : Settings} {t : Journal} (hversion : request.version = some requested)
    (h : (ofGet request directory).run.Executes t (.ok s)) :
    s.Reflects request requested.envName := by
  simp only [ofGet, hversion] at h
  split at h
  · cases (Task.executes_throw.1 h).2
  · exact executes_merge h

/-- The version is that of a state that the run has found, and was read in the run. -/
inductive FreshlyRead (request : Request) (requested : Version) (u : Journal) : Version → Prop where
  | read {s : Settings} {scratch : String} {p : Prepared} {t : Lifecycle.Record} {v : Journal}
      {result : RunResult} (hs : s.Reflects request requested.envName)
      (hp : Prepared.draft s scratch = .ok p) (hbacked : Backed p.answer t v) (hv : v <:+: u)
      (hfound : p.action.Found t) (htells : Tells p.action t result)
      (htoken : result.version.storageVersion ≠ some "") :
      FreshlyRead request requested u result.version

namespace FreshlyRead

variable {request : Request} {requested version : Version} {u w : Journal}

theorem within (h : FreshlyRead request requested u version) (hu : u <:+: w) :
    FreshlyRead request requested w version := by
  cases h with
  | read hs hp hbacked hv hfound htells htoken =>
    exact .read hs hp hbacked (hv.trans hu) hfound htells htoken

theorem identifies (h : FreshlyRead request requested u version) :
    version.isZero = false ∧ version.mode = some request.mode ∧
      version.envName = requested.envName := by
  cases h with
  | read hs hp _ _ _ htells _ =>
    obtain ⟨hzero, -, hmode⟩ := htells.identifies
    refine ⟨hzero, ?_, ?_⟩
    · rw [hmode, Prepared.mode_of_draft hs hp]
    · rw [htells.envName, (Prepared.action_of_draft hp).1, hs.envName]

end FreshlyRead

namespace Command

variable {directory : String} {request : Request} {requested : Version} {s : Settings}
  {p : Prepared} {u : Journal}

inductive Replies (request : Request) (requested : Version) (u : Journal) : Response → Prop where
  | bare (haction : request.params.action = .destroy) (raw : Bytes)
      (hu : u = [⟨.readInput, (.ok raw : Except Fault Bytes)⟩,
        ⟨.printOutput (Response.bare requested).line, ()⟩]) :
      Replies request requested u (.bare requested)
  | echoed {response : Response} (haction : request.params.action = .create)
      (hplan : requested.planOnly = true) (hversion : response.version = requested) :
      Replies request requested u response
  | told {response : Response} (haction : request.params.action = .create)
      (hplan : requested.planOnly = false)
      (hread : FreshlyRead request requested u response.version) :
      Replies request requested u response

theorem Replies.within {response : Response} {w : Journal}
    (h : Replies request requested u response) (haction : request.params.action = .create)
    (hu : u <:+: w) : Replies request requested w response := by
  cases h with
  | bare hdestroy _ _ => cases haction.symm.trans hdestroy
  | echoed _ hplan hversion => exact .echoed haction hplan hversion
  | told _ hplan hread => exact .told haction hplan (hread.within hu)

theorem requestedVersion_eq_ok : requestedVersion request = .ok requested ↔
    request.version = some requested ∧ requested.validate = .ok () := by
  unfold requestedVersion
  cases request.version with
  | none => exact ⟨nofun, fun h => nomatch h.1⟩
  | some version =>
    dsimp only
    constructor
    · intro h
      split at h
      · next hvalid =>
        cases h
        exact ⟨rfl, hvalid⟩
      · cases h
    · rintro ⟨heq, hvalid⟩
      cases heq
      rw [hvalid]

theorem not_valid_of_unfit (h : request.Unfit) (hversion : request.version = some requested) :
    requested.validate ≠ .ok () := by
  intro hvalid
  rcases h with hnone | ⟨version, hsome, hwrong⟩
  · cases hversion.symm.trans hnone
  · cases hversion.symm.trans hsome
    unfold Version.validate at hvalid
    rcases hwrong with hblank | ⟨hserial, hstorage⟩
    · rw [if_pos hblank] at hvalid
      cases hvalid
    · simp only [hserial, hstorage, Bool.and_self, if_true] at hvalid
      split at hvalid <;> cases hvalid

theorem version_of_deliver {result : RunResult} {response : Response} {t : Journal}
    (h : (deliver directory s p requested result).run.Executes t (.ok response)) :
    response.version =
      if result.version.isZero || requested.planOnly then requested else result.version := by
  obtain ⟨_, _, _, -, h₁, -⟩ := executes_bind_ok.1 h
  cases hzero : result.version.isZero with
  | true =>
    simp only [hzero, if_true] at h₁
    obtain ⟨_, _, _, -, h₂, -⟩ := executes_bind_ok.1 h₁
    obtain ⟨-, rfl⟩ := executes_pure_ok.1 h₂
    rfl
  | false =>
    have hrest {state : Option Bytes} {t : Journal} (h : (do
        writeOutputs directory result state
        let response := Response.ofResult result (← engineVersion p)
        return if requested.planOnly then { response with version := requested } else response :
          Command Response).run.Executes t (.ok response)) : response.version =
        if requested.planOnly then requested else result.version := by
      obtain ⟨_, _, _, -, h₃, -⟩ := executes_bind_ok.1 h
      obtain ⟨_, _, version, -, h₄, -⟩ := executes_bind_ok.1 h₃
      obtain ⟨-, rfl⟩ := executes_pure_ok.1 h₄
      cases requested.planOnly <;> rfl
    simp only [hzero, Bool.false_eq_true, if_false] at h₁
    rw [Bool.false_or]
    split at h₁
    · obtain ⟨_, _, state, -, h₂, -⟩ := executes_bind_ok.1 h₁
      exact hrest h₂
    · obtain ⟨_, _, state, -, h₂, -⟩ := executes_bind_ok.1 h₁
      exact hrest h₂

theorem answers_getRun (hs : s.Reflects request requested.envName)
    {scratch : String} (hp : Prepared.draft s scratch = .ok p)
    (haction : request.params.action = .create) :
    Answers (fun u response => Replies request requested u response)
      (getRun directory requested s p) := by
  have hdriver := Prepared.inner_of_draft hp
  refine answers_bind (inner_ofRun hdriver (Lifecycle.Action.only_fetch
    Lifecycle.Action.mayDestroy_inner.toMayLook _)) fun t₁ result hfetch =>
      answers_bind (inner_deliver hdriver) fun t₂ response hdeliver => answers_writeResponse ?_
  have hversion := version_of_deliver hdeliver
  obtain ⟨t, ht, hbacked⟩ := Prepared.executes_run (executes_mapError_ok.1 hfetch)
  have hfetched := Lifecycle.Action.fetched ht
  cases hplan : requested.planOnly with
  | true =>
    rw [hplan, Bool.or_true, if_pos rfl] at hversion
    exact .echoed haction hplan hversion
  | false =>
    rw [hplan] at hversion hfetched
    cases hfetched with
    | planned h => cases h
    | told hfound htells htoken =>
      rw [htells.identifies.1, Bool.or_false, if_neg Bool.false_ne_true] at hversion
      refine .told haction hplan (hversion ▸ .read hs hp hbacked ?_ hfound htells htoken)
      exact (List.prefix_append _ _).isInfix

theorem answers_get : Answers (fun u response => ∃ request requested, Begins u request ∧
    request.version = some requested ∧ Replies request requested u response) (get directory) := by
  refine answers_bind inner_readRequest fun t₁ request hrequest => ?_
  refine answers_bind (x := ExceptT.mk (pure (requestedVersion request))) trivial
    fun t₂ requested hrequested => ?_
  obtain ⟨raw, rfl, hraw⟩ := journal_readRequest_ok hrequest
  obtain ⟨rfl, hvalid⟩ := Program.executes_done.1 hrequested
  obtain ⟨hversion, -⟩ := requestedVersion_eq_ok.1 hvalid.symm
  split
  · next haction =>
    exact answers_writeResponse
      ⟨request, requested, ⟨raw, _, rfl, hraw⟩, hversion, .bare haction raw rfl⟩
  · next haction =>
    have hcreate : request.params.action = .create := by
      cases h : request.params.action with
      | create => rfl
      | destroy => exact absurd h haction
    refine answers_bind (inner_ofStep Settings.reading_ofGet) fun t₃ s hs =>
      answers_bind (inner_sayLine _) fun t₄ _ _ => answers_withScratch fun scratch =>
        answers_bind (inner_ofStep Prepared.reading_ofSettings) fun t₅ p hp => ?_
    have hreflects := Settings.reflects_of_ofGet hversion (executes_mapError_ok.1 hs)
    have hdraft := Prepared.executes_ofSettings (executes_mapError_ok.1 hp)
    refine (answers_getRun hreflects hdraft hcreate).mono fun v response hreplies =>
      ⟨request, requested, ⟨raw, _, rfl, hraw⟩, hversion, hreplies.within hcreate ?_⟩
    exact ⟨[⟨.readInput, .ok raw⟩] ++ (t₃ ++ (t₄ ++ ⟨.openScratch, .ok scratch⟩ :: t₅)),
      [⟨.closeScratch scratch, ()⟩], by simp⟩

theorem journal_readRequest {r : Except Failure Request} (h : readRequest.run.Executes u r) :
    ∃ reply, u = [⟨.readInput, reply⟩] := by
  rcases Task.executes_bind.1 h with ⟨f, hf, -⟩ | ⟨_, _, raw, hraw, h₁, rfl⟩
  · obtain ⟨reply, hreply, -⟩ := Task.executes_mapError.1 hf
    exact ⟨reply, Program.executes_one.1 hreply⟩
  · obtain rfl := Program.executes_one.1 (executes_mapError_ok.1 hraw)
    obtain ⟨_, hdone, -⟩ := Task.executes_mapError.1 h₁
    obtain ⟨rfl, -⟩ := Program.executes_done.1 hdone
    exact ⟨_, rfl⟩

theorem refused_of_unfit {r : Except Failure Unit} (hread : Reads u request)
    (hunfit : request.Unfit) (h : (get directory).run.Executes u r) :
    ∃ f reply, r = .error f ∧ u = [⟨.readInput, reply⟩] := by
  rcases Task.executes_bind.1 h with ⟨f, hf, rfl⟩ | ⟨t₁, t₂, request', hrequest, h₁, rfl⟩
  · obtain ⟨reply, rfl⟩ := journal_readRequest hf
    exact ⟨f, reply, rfl, rfl⟩
  obtain ⟨rfl, -⟩ := executes_readRequest hread hrequest rfl
  obtain ⟨reply, rfl⟩ := journal_readRequest hrequest
  rcases Task.executes_bind.1 h₁ with ⟨f, hf, rfl⟩ | ⟨t₃, t₄, requested, hrequested, -, rfl⟩
  · obtain ⟨rfl, -⟩ := Program.executes_done.1 hf
    exact ⟨f, reply, rfl, rfl⟩
  · obtain ⟨-, hvalid⟩ := Program.executes_done.1 hrequested
    obtain ⟨hversion, hvalid⟩ := requestedVersion_eq_ok.1 hvalid.symm
    exact absurd hvalid (not_valid_of_unfit hunfit hversion)

/-- A get replies with the version that was asked for, to a destroy without doing anything, or with
one that is not zero and was read in its run. What gives no version is refused at once. -/
theorem get_replies {r : Except Failure Unit} (hread : Reads u request)
    (h : (get directory).run.Executes u r) :
    (request.Unfit → ∃ f reply, r = .error f ∧ u = [⟨.readInput, reply⟩]) ∧
    (r = .ok () → ∃ (requested : Version) (response : Response), request.version = some requested ∧
      printed u = [response.line] ∧
      (request.params.action = .destroy → response = .bare requested ∧
        ∃ raw : Bytes, u = [⟨.readInput, (.ok raw : Except Fault Bytes)⟩,
          ⟨.printOutput response.line, ()⟩]) ∧
      (requested.planOnly = true → response.version = requested) ∧
      (request.params.action = .create → requested.planOnly = false →
        FreshlyRead request requested u response.version ∧ response.version.isZero = false ∧
          response.version.mode = some request.mode ∧
          response.version.envName = requested.envName)) := by
  refine ⟨fun hunfit => refused_of_unfit hread hunfit h, fun hr => ?_⟩
  obtain ⟨response, hresponse, hprinted⟩ := (answers_get u r h).1 hr
  obtain ⟨request', requested, ⟨raw, rest, rfl, hraw⟩, hversion, hreplies⟩ := hresponse
  obtain rfl : request' = request := by
    rw [hread raw List.mem_cons_self] at hraw
    exact (Except.ok.inj hraw).symm
  refine ⟨requested, response, hversion, hprinted, ?_⟩
  cases hreplies with
  | bare haction raw hu =>
    refine ⟨fun _ => ⟨rfl, raw, hu⟩, fun _ => rfl, fun hcreate => ?_⟩
    cases haction.symm.trans hcreate
  | echoed haction hplan hsame =>
    refine ⟨fun hdestroy => ?_, fun _ => hsame, fun _ hnoplan => ?_⟩
    · cases haction.symm.trans hdestroy
    · cases hplan.symm.trans hnoplan
  | told haction hplan hfresh =>
    refine ⟨fun hdestroy => ?_, fun hisplan => ?_, fun _ _ => ⟨hfresh, hfresh.identifies⟩⟩
    · cases haction.symm.trans hdestroy
    · cases hplan.symm.trans hisplan

-- A version that is there, and one of two modes at once.
namespace Asking

open Provision.Pipeline.Command.Sample (answered machine reads_input source)

def torn : Version := { answered with serial := some 1 }

theorem torn_writable : torn.Writable where
  serial n h := by
    obtain rfl := Option.some.inj h
    decide
  token := Sample.answered_writable.token
  time := Sample.answered_writable.time

def storedRun : Journal × Except Failure Unit :=
  (get "/out").run.replay (machine (Sample.input (some answered)) true fun _ =>
    Storage.LocalDirectory.VersionRecord.encode ⟨"t1", ⟨2024, 5, 6, 12, 30, 0, 0⟩⟩)

def tornRun : Journal × Except Failure Unit :=
  (get "/out").run.replay (machine (Sample.input (some torn)) true fun _ => [])

theorem storedRun_ok : storedRun.2 = .ok () := by
  obtain ⟨⟨⟩, hok⟩ := Lifecycle.exists_ok (r := storedRun.2) (by decide +kernel)
  exact hok

theorem get_replies_dev :
    (get "/out").run.Executes storedRun.1 (.ok ()) ∧
    (∃ response : Response, printed storedRun.1 = [response.line] ∧
      FreshlyRead ⟨source, some answered, {}⟩ answered storedRun.1 response.version ∧
      response.version.mode = some .legacy ∧ response.version.envName = "dev") ∧
    ∃ f reply, tornRun.2 = .error f ∧ tornRun.1 = [⟨.readInput, reply⟩] := by
  have hget : (get "/out").run.Executes storedRun.1 (.ok ()) :=
    storedRun_ok ▸ Program.executes_replay _ _
  have hmode : Request.mode ⟨source, some answered, {}⟩ = .legacy := by decide +kernel
  obtain ⟨requested, response, hrequested, hprinted, -, -, hfresh⟩ :=
    (get_replies (reads_input fun v h => Option.some.inj h ▸ Sample.answered_writable) hget).2 rfl
  obtain rfl := Option.some.inj hrequested
  obtain ⟨hread, -, hkept, henv⟩ := hfresh rfl rfl
  refine ⟨hget, ⟨response, hprinted, hread, hkept.trans (congrArg some hmode), henv⟩, ?_⟩
  exact (get_replies (reads_input fun v h => Option.some.inj h ▸ torn_writable)
    (Program.executes_replay _ _)).1 (.inr ⟨torn, rfl, .inr ⟨rfl, rfl⟩⟩)

end Asking

end Command

end Pipeline

end Provision
