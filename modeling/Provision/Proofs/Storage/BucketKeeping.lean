import Mathlib.Logic.Function.Basic
import Provision.Proofs.Storage.Absence
import Provision.Proofs.Storage.Viewing

/-!
# Objects kept in a bucket

A call that looks at an object is one request, and the answer to it decides the reply: a report of
success with a readable date tells the version, the status 404 is absence, and anything else is an
error. A store keeps objects if it stores what is put, removes what is deleted, and answers whoever
looks from what it has stored. On such a store the version that an upload returns is the one that
every probe and every download tells until the object is uploaded or deleted again.
-/

namespace Provision.Storage

open Provision.Host

def Driver.MustReply {σ : Type} (driver : Driver) (R : σ → Event effects → σ → Prop) (s : σ)
    (c : Call) (reply : c.Reply) : Prop :=
  (∃ s', driver.Handles R s ⟨c, reply⟩ s') ∧
    ∀ other s', driver.Handles R s ⟨c, other⟩ s' → other = reply

namespace Bucket

-- What is sent does not depend on how keys are joined.
attribute [local irreducible] joinKey

section Looking

variable {b : Bucket} {key objectKey : String} {method : Method} {t : List (Event effects)}
  {α β : Type} {found : ObjectReply → ObjectVersion → Except Error α}
  {absent result : Except Error α} {answer : Except NoReply ObjectReply}

theorem executes_exchange {r : ObjectRequest} {x : Except Failure ObjectReply} :
    (exchange r).Executes t x ↔
      (r.key = "" ∧ t = [] ∧ x = .error .unsendable) ∨
        r.key ≠ "" ∧ ∃ answer, t = [⟨.send r, answer⟩] ∧ x = verdict answer := by
  rw [exchange_eq]
  split
  · next hempty =>
    rw [String.isEmpty_iff] at hempty
    simp [hempty]
  · next hkey =>
    rw [String.isEmpty_iff] at hkey
    rw [Program.executes_bind]
    constructor
    · rintro ⟨t₁, t₂, answer, hasked, hrest, rfl⟩
      obtain rfl := Program.executes_one.1 hasked
      obtain ⟨rfl, rfl⟩ := Program.executes_done.1 hrest
      exact .inr ⟨hkey, answer, rfl, rfl⟩
    · rintro (⟨hempty, -, -⟩ | ⟨-, answer, rfl, rfl⟩)
      · exact absurd hempty hkey
      · exact ⟨_, [], answer, Program.executes_one.2 rfl, .done _, rfl⟩

theorem performs_exchange_ok {σ : Type} {R : σ → Event effects → σ → Prop} {s s' : σ}
    {r : ObjectRequest} {reply : ObjectReply} (h : (exchange r).Performs R s (.ok reply) s') :
    r.key ≠ "" ∧ R s ⟨.send r, .ok reply⟩ s' ∧ isSuccess reply.status = true := by
  obtain ⟨t, ht, hpasses⟩ := h
  rcases executes_exchange.1 ht with ⟨-, -, hunsent⟩ | ⟨hkey, answer, rfl, hverdict⟩
  · cases hunsent
  · obtain ⟨s₁, hanswer, hrest⟩ := passes_cons.1 hpasses
    obtain rfl := passes_nil.1 hrest
    refine ⟨hkey, ?_⟩
    cases answer with
    | error e => cases hverdict
    | ok other =>
      unfold verdict at hverdict
      dsimp only at hverdict
      split at hverdict
      · next hsuccess =>
        cases hverdict
        exact ⟨hanswer, hsuccess⟩
      · cases hverdict

inductive Settles (objectKey : String) (found : ObjectReply → ObjectVersion → Except Error α)
    (absent : Except Error α) : Except NoReply ObjectReply → Except Error α → Prop where
  | found {reply : ObjectReply} {v : ObjectVersion} : isSuccess reply.status = true →
      replyVersion reply = .ok v → Settles objectKey found absent (.ok reply) (found reply v)
  | missing {reply : ObjectReply} : reply.status = 404 →
      Settles objectKey found absent (.ok reply) absent
  | unreadable {reply : ObjectReply} : isSuccess reply.status = true → modified reply = none →
      Settles objectKey found absent (.ok reply)
        (.error (.read objectKey (Failure.refused reply.status).message))
  | refused {reply : ObjectReply} : isSuccess reply.status = false → reply.status ≠ 404 →
      Settles objectKey found absent (.ok reply)
        (.error (.read objectKey (Failure.refused reply.status).message))
  | unreachable : Settles objectKey found absent (.error .unreachable)
      (.error (.read objectKey Failure.unreachable.message))

def settle (objectKey : String) (found : ObjectReply → ObjectVersion → Except Error α)
    (absent : Except Error α) (x : Except Failure ObjectReply) : Except Error α :=
  match x.bind fun reply => (replyVersion reply).map (found reply) with
  | .ok result => result
  | .error failure =>
    if failure.meansAbsent then absent else .error (.read objectKey failure.message)

theorem settle_ok {reply : ObjectReply} {v : ObjectVersion} (h : replyVersion reply = .ok v) :
    settle objectKey found absent (.ok reply) = found reply v := by
  simp only [settle, Except.bind, h, Except.map]

theorem settle_unreadable {reply : ObjectReply} (h : modified reply = none) :
    settle objectKey found absent (.ok reply) =
      settle objectKey found absent (.error (.refused reply.status)) := by
  simp only [settle, Except.bind, replyVersion, h, Except.map]

theorem settle_refused {status : Nat} :
    settle objectKey found absent (.error (.refused status)) =
      if status = 404 then absent
      else .error (.read objectKey (Failure.refused status).message) := by
  simp only [settle, Except.bind, meansAbsent_iff, Failure.refused.injEq]

theorem status_ne_of_isSuccess {status : Nat} (h : isSuccess status = true) : status ≠ 404 := by
  rintro rfl
  cases h

theorem settles_iff : Settles objectKey found absent answer result ↔
    result = settle objectKey found absent (verdict answer) := by
  constructor
  · intro h
    cases h with
    | found hsuccess hv => rw [verdict, if_pos hsuccess, settle_ok hv]
    | @missing reply hstatus =>
      have hfailed : ¬ isSuccess reply.status = true := fun h => status_ne_of_isSuccess h hstatus
      rw [verdict, if_neg hfailed, settle_refused, if_pos hstatus]
    | unreadable hsuccess hdate =>
      rw [verdict, if_pos hsuccess, settle_unreadable hdate, settle_refused,
        if_neg (status_ne_of_isSuccess hsuccess)]
    | refused hfailed hstatus =>
      rw [verdict, if_neg (Bool.eq_false_iff.1 hfailed), settle_refused, if_neg hstatus]
    | unreachable => rfl
  · rintro rfl
    cases answer with
    | error e =>
      cases e
      exact .unreachable
    | ok reply =>
      by_cases hsuccess : isSuccess reply.status = true
      · rw [verdict, if_pos hsuccess]
        cases hdate : modified reply with
        | none =>
          rw [settle_unreadable hdate, settle_refused, if_neg (status_ne_of_isSuccess hsuccess)]
          exact .unreadable hsuccess hdate
        | some time =>
          obtain ⟨v, hv⟩ : ∃ v, replyVersion reply = .ok v := ⟨_, by rw [replyVersion, hdate]⟩
          rw [settle_ok hv]
          exact .found hsuccess hv
      · rw [verdict, if_neg hsuccess, settle_refused]
        by_cases hstatus : reply.status = 404
        · rw [if_pos hstatus]
          exact .missing hstatus
        · rw [if_neg hstatus]
          exact .refused (Bool.eq_false_iff.2 hsuccess) hstatus

theorem Settles.of_success {reply : ObjectReply}
    (h : Settles objectKey found absent (.ok reply) result)
    (hsuccess : isSuccess reply.status = true) :
    (∃ v, replyVersion reply = .ok v ∧ result = found reply v) ∨
      ∃ cause, result = .error (.read objectKey cause) := by
  cases h with
  | found _ hv => exact .inl ⟨_, hv, rfl⟩
  | missing hstatus => exact absurd hstatus (status_ne_of_isSuccess hsuccess)
  | unreadable _ _ => exact .inr ⟨_, rfl⟩
  | refused hfailed _ => exact absurd hsuccess (Bool.eq_false_iff.1 hfailed)

def Looked (b : Bucket) (method : Method) (key : String)
    (found : ObjectReply → ObjectVersion → Except Error α) (absent : Except Error α)
    (t : List (Event effects)) (result : Except Error α) : Prop :=
  (b.objectKey key = "" ∧ t = [] ∧
      result = .error (.read (b.objectKey key) Failure.unsendable.message)) ∨
    b.objectKey key ≠ "" ∧ ∃ answer, t = [⟨.send (b.request method key), answer⟩] ∧
      Settles (b.objectKey key) found absent answer result

theorem looked_iff : b.Looked method key found absent t result ↔
    ∃ x, (exchange (b.request method key)).Executes t x ∧
      result = settle (b.objectKey key) found absent x := by
  simp only [executes_exchange, request_key, Looked, settles_iff]
  constructor
  · rintro (⟨hkey, rfl, rfl⟩ | ⟨hkey, answer, rfl, rfl⟩)
    · exact ⟨_, .inl ⟨hkey, rfl, rfl⟩, rfl⟩
    · exact ⟨_, .inr ⟨hkey, answer, rfl, rfl⟩, rfl⟩
  · rintro ⟨x, ⟨hkey, rfl, rfl⟩ | ⟨hkey, answer, rfl, rfl⟩, rfl⟩
    · exact .inl ⟨hkey, rfl, rfl⟩
    · exact .inr ⟨hkey, answer, rfl, rfl⟩

theorem executes_lift_done {p : HostProgram β} {f : β → Work α} {g : β → Except Error α}
    (hf : ∀ x, (f x).run = .done (g x)) :
    (Task.lift p >>= f).run.Executes t result ↔ ∃ x, p.Executes t x ∧ result = g x := by
  rw [ExceptT.run_bind, Task.lift, ExceptT.run_lift, map_eq_pure_bind, Program.bind_assoc,
    Program.executes_bind]
  constructor
  · rintro ⟨t₁, t₂, x, hp, hrest, rfl⟩
    have hdone : (f x).run.Executes t₂ result := hrest
    rw [hf, Program.executes_done] at hdone
    obtain ⟨rfl, rfl⟩ := hdone
    exact ⟨x, by rwa [List.append_nil], rfl⟩
  · rintro ⟨x, hp, rfl⟩
    have hdone : (f x).run.Executes [] (g x) := by
      rw [hf, Program.executes_done]
      exact ⟨rfl, rfl⟩
    exact ⟨t, [], x, hp, hdone, (List.append_nil t).symm⟩

def Probed (b : Bucket) (key : String) :
    List (Event effects) → Except Error ObjectVersion → Prop :=
  b.Looked .head key (fun _ v => .ok v) (.ok .zero)

def delivered (objectKey : String) (reply : ObjectReply) (v : ObjectVersion) :
    Except Error (Bytes × ObjectVersion) :=
  if reply.complete then .ok (reply.body, v)
  else .error (.read objectKey Failure.brokenOff.message)

def Fetched (b : Bucket) (key : String) :
    List (Event effects) → Except Error (Bytes × ObjectVersion) → Prop :=
  b.Looked .get key (delivered (b.objectKey key)) (.error (.notFound (b.objectKey key)))

theorem executes_version {probed : Except Error ObjectVersion} :
    (b.version key).run.Executes t probed ↔ b.Probed key t probed := by
  rw [Probed, looked_iff]
  refine executes_lift_done fun x => ?_
  unfold settle
  cases x with
  | error failure =>
    dsimp only [Except.bind]
    split <;> rfl
  | ok reply =>
    dsimp only [Except.bind]
    cases replyVersion reply with
    | ok v => rfl
    | error failure =>
      dsimp only [Except.map]
      split <;> rfl

theorem executes_download {fetched : Except Error (Bytes × ObjectVersion)} :
    (b.download key).run.Executes t fetched ↔ b.Fetched key t fetched := by
  rw [Fetched, looked_iff]
  refine executes_lift_done fun x => ?_
  unfold settle
  cases x with
  | error failure =>
    dsimp only [Except.bind]
    split <;> rfl
  | ok reply =>
    dsimp only [Except.bind]
    cases replyVersion reply with
    | ok v =>
      dsimp only [Except.map, delivered]
      split <;> rfl
    | error failure =>
      dsimp only [Except.map]
      split <;> rfl

def putRequest (b : Bucket) (key : String) (content : Bytes) : ObjectRequest :=
  { b.request .put key with
    contentType := some "application/json"
    encryption := b.encryption
    body := content }

/-- What an upload replies: the content is refused, or it is accepted and logged, and then the
reply is that of a probe, where none has to find the object missing. -/
inductive Uploaded (b : Bucket) (key : String) (content : Bytes) :
    List (Event effects) → Except Error ObjectVersion → Prop where
  | refused {t : List (Event effects)} {failure : Failure} :
      (exchange (b.putRequest key content)).Executes t (.error failure) →
      Uploaded b key content t (.error (.write (b.objectKey key) failure.message))
  | unprobed {t t' : List (Event effects)} {line : LogLine} {reply : ObjectReply} {e : Error} :
      (exchange (b.putRequest key content)).Executes t (.ok reply) →
      b.Probed key t' (.error e) →
      Uploaded b key content (t ++ ⟨.log line, ()⟩ :: t') (.error e)
  | missing {t t' : List (Event effects)} {line : LogLine} {reply : ObjectReply}
      {v : ObjectVersion} :
      (exchange (b.putRequest key content)).Executes t (.ok reply) →
      b.Probed key t' (.ok v) → v.isZero = true →
      Uploaded b key content (t ++ ⟨.log line, ()⟩ :: t')
        (.error (.write (b.objectKey key) "object missing immediately after upload"))
  | done {t t' : List (Event effects)} {line : LogLine} {reply : ObjectReply}
      {v : ObjectVersion} :
      (exchange (b.putRequest key content)).Executes t (.ok reply) →
      b.Probed key t' (.ok v) → v.isZero = false →
      Uploaded b key content (t ++ ⟨.log line, ()⟩ :: t') (.ok v)

theorem uploaded_of_executes {content : Bytes} {uploaded : Except Error ObjectVersion}
    (h : (b.upload key content).run.Executes t uploaded) :
    b.Uploaded key content t uploaded := by
  obtain ⟨t₁, t₂, x, hput, hrest, rfl⟩ := Task.executes_lift_bind.1 h
  cases x with
  | error failure =>
    obtain ⟨rfl, rfl⟩ := Task.executes_throw.1 hrest
    rw [List.append_nil]
    exact .refused hput
  | ok reply =>
    obtain ⟨tlog, t', u, hlog, hprobed, rfl⟩ := Task.executes_lift_bind.1 hrest
    obtain rfl := Program.executes_one.1 hlog
    rcases Task.executes_bind.1 hprobed with ⟨e, hprobe, rfl⟩ | ⟨t₃, t₄, v, hprobe, hend, rfl⟩
    · exact .unprobed hput (executes_version.1 hprobe)
    · dsimp only at hend
      split at hend
      · next hzero =>
        obtain ⟨rfl, rfl⟩ := Task.executes_throw.1 hend
        rw [List.append_nil]
        exact .missing hput (executes_version.1 hprobe) hzero
      · next hzero =>
        obtain ⟨rfl, rfl⟩ := Task.executes_pure.1 hend
        rw [List.append_nil]
        exact .done hput (executes_version.1 hprobe) (Bool.eq_false_iff.2 hzero)

theorem performs_looked {σ : Type} {R : σ → Event effects → σ → Prop} {s : σ}
    {p : HostProgram (Except Error α)}
    (hp : ∀ t result, p.Executes t result ↔ b.Looked method key found absent t result)
    (hkey : b.objectKey key ≠ "")
    (hanswers : ∃ answer s', R s ⟨.send (b.request method key), answer⟩ s')
    (hsettles : ∀ answer s', R s ⟨.send (b.request method key), answer⟩ s' →
      Settles (b.objectKey key) found absent answer result) :
    (∃ s', p.Performs R s result s') ∧ ∀ other s', p.Performs R s other s' → other = result := by
  constructor
  · obtain ⟨answer, s', hanswer⟩ := hanswers
    have hsettled := hsettles answer s' hanswer
    exact ⟨s', _, (hp _ _).2 (.inr ⟨hkey, answer, rfl, hsettled⟩), .cons hanswer (.nil s')⟩
  · rintro other s' ⟨t, ht, hpasses⟩
    rcases (hp t other).1 ht with ⟨hempty, -⟩ | ⟨-, answer, rfl, hother⟩
    · exact absurd hempty hkey
    · obtain ⟨s₁, hanswer, -⟩ := passes_cons.1 hpasses
      exact (settles_iff.1 hother).trans (settles_iff.1 (hsettles answer s₁ hanswer)).symm

end Looking

/-- What a store has under a key: the content, and the headers that tell its version. -/
structure Stored where
  content : Bytes
  versionId : Option String
  entityTag : Option String
  lastModified : Option String

def Stored.reply (o : Stored) : ObjectReply :=
  ⟨200, o.versionId, o.entityTag, o.lastModified, o.content, true⟩

structure Stored.IsToldBy (o : Stored) (reply : ObjectReply) : Prop where
  success : isSuccess reply.status = true
  versionId : reply.versionId = o.versionId
  entityTag : reply.entityTag = o.entityTag
  lastModified : reply.lastModified = o.lastModified

theorem Stored.IsToldBy.replyVersion_iff {o : Stored} {reply : ObjectReply} {v : ObjectVersion}
    (h : o.IsToldBy reply) : replyVersion reply = .ok v ↔ replyVersion o.reply = .ok v := by
  have hmodified : modified o.reply = modified reply := by
    rw [modified, modified, h.lastModified, Stored.reply]
  rw [replyVersion, replyVersion, hmodified, h.versionId, h.entityTag]
  cases modified reply with
  | none => exact iff_of_false (fun heq => by cases heq) fun heq => by cases heq
  | some time => exact Iff.rfl

def Receives (b : Bucket) (r : ObjectRequest) : Prop :=
  r.endpoint = b.endpoint ∧ r.bucket = b.name

/-- A store that has in each state the objects in `view`. It stores what it accepts, hands out
what it has stored, and forgets what it has removed. A request that it refuses may do anything to
its own object; no request touches another one. The headers of an object need not tell a version,
and where they do not, the upload fails. -/
structure KeptBy {σ : Type} (b : Bucket) (R : σ → Event effects → σ → Prop)
    (view : σ → String → Option Stored) : Prop where
  put : ∀ {s s' r reply}, b.Receives r → r.method = .put → R s ⟨.send r, .ok reply⟩ s' →
    isSuccess (reply : ObjectReply).status = true →
    ∃ o, view s' r.key = some o ∧ o.content = r.body
  delete : ∀ {s s' r reply}, b.Receives r → r.method = .delete → R s ⟨.send r, .ok reply⟩ s' →
    isSuccess (reply : ObjectReply).status = true → view s' r.key = none
  found : ∀ {s s' r answer o}, b.Receives r → (Request.send r).IsViewing →
    R s ⟨.send r, answer⟩ s' → view s r.key = some o →
    ∃ reply : ObjectReply, answer = .ok reply ∧ o.IsToldBy reply ∧
      (r.method = .get → reply.body = o.content ∧ reply.complete = true)
  missing : ∀ {s s' r answer}, b.Receives r → (Request.send r).IsViewing →
    R s ⟨.send r, answer⟩ s' → view s r.key = none →
    ∃ reply : ObjectReply, answer = .ok reply ∧ reply.status = 404
  answers : ∀ s {r}, b.Receives r → (Request.send r).IsViewing →
    ∃ answer s', R s ⟨.send r, answer⟩ s'
  looked : ∀ {s s' r answer}, b.Receives r → (Request.send r).IsViewing →
    R s ⟨.send r, answer⟩ s' → view s' = view s
  elsewhere : ∀ {s s' r answer object}, b.Receives r → object ≠ r.key →
    R s ⟨.send r, answer⟩ s' → view s' object = view s object
  logged : ∀ {s s' line u}, R s ⟨.log line, u⟩ s' → view s' = view s

def Concerns (b : Bucket) (c : Call) : Request → Prop
  | .send r => b.Receives r ∧ r.key = b.objectKey c.key ∧ (c.Looks → (Request.send r).IsViewing)
  | .log _ => True
  | _ => False

theorem concerns_request {b : Bucket} {c : Call} {method : Method}
    (h : c.Looks → method = .head ∨ method = .get) :
    b.Concerns c (.send (b.request method c.key)) :=
  ⟨⟨rfl, rfl⟩, request_key method, h⟩

theorem only_concerns (b : Bucket) (c : Call) : (b.driver.answer c).Only (b.Concerns c) := by
  cases c with
  | upload key content =>
    have hput (put : ObjectRequest) (hreceived : b.Receives put)
        (hkey : put.key = b.objectKey key) : b.Concerns (.upload key content) (.send put) :=
      ⟨hreceived, hkey, fun h => h.elim⟩
    refine Task.only_bind (Task.only_lift (only_exchange (hput _ ⟨rfl, rfl⟩ rfl))) fun x => ?_
    cases x with
    | error failure => exact Task.only_throw
    | ok reply =>
      refine Task.only_bind (Task.only_lift ⟨trivial, fun _ => trivial⟩) fun _ => ?_
      refine Task.only_bind (only_version (concerns_request fun h => h.elim)) fun v => ?_
      dsimp only
      split
      · exact Task.only_throw
      · exact Task.only_pure
  | download key => exact only_download (concerns_request fun _ => .inr rfl)
  | version key => exact only_version (concerns_request fun _ => .inl rfl)
  | delete key =>
    refine Task.only_bind (Task.only_lift (only_exchange (concerns_request fun h => h.elim)))
      fun x => ?_
    cases x with
    | error failure => exact Task.only_throw
    | ok reply => exact Task.only_pure

namespace KeptBy

variable {σ : Type} {R : σ → Event effects → σ → Prop} {b : Bucket}
  {view : σ → String → Option Stored} (hstore : b.KeptBy R view) {s s' : σ}
  {key object : String}

include hstore

theorem answers_request {method : Method} (h : method = .head ∨ method = .get) :
    ∃ answer s', R s ⟨.send (b.request method key), answer⟩ s' :=
  hstore.answers s ⟨rfl, rfl⟩ h

theorem found_request {method : Method} {answer : Except NoReply ObjectReply} {o : Stored}
    (h : method = .head ∨ method = .get) (hview : view s (b.objectKey key) = some o)
    (hanswer : R s ⟨.send (b.request method key), answer⟩ s') :
    ∃ reply, answer = .ok reply ∧ o.IsToldBy reply ∧
      (method = .get → reply.body = o.content ∧ reply.complete = true) :=
  hstore.found (r := b.request method key) ⟨rfl, rfl⟩ h hanswer (by rwa [request_key])

theorem missing_request {method : Method} {answer : Except NoReply ObjectReply}
    (h : method = .head ∨ method = .get) (hview : view s (b.objectKey key) = none)
    (hanswer : R s ⟨.send (b.request method key), answer⟩ s') :
    ∃ reply, answer = .ok reply ∧ reply.status = 404 :=
  hstore.missing (r := b.request method key) ⟨rfl, rfl⟩ h hanswer (by rwa [request_key])

theorem view_step {c : Call} {e : Event effects} (hconcerns : b.Concerns c e.op)
    (hother : c.Looks ∨ b.objectKey c.key ≠ object) (h : R s e s') :
    view s' object = view s object := by
  obtain ⟨op, reply⟩ := e
  cases op with
  | send r =>
    obtain ⟨hreceived, hkey, hlooks⟩ := hconcerns
    rcases hother with hc | hne
    · exact congrFun (hstore.looked hreceived (hlooks hc) h) object
    · rw [← hkey] at hne
      exact hstore.elsewhere hreceived hne.symm h
  | log line => exact congrFun (hstore.logged h) object
  | _ => exact hconcerns.elim

theorem view_call {e : Event calls} (hother : e.op.Looks ∨ b.objectKey e.op.key ≠ object)
    (h : b.driver.Handles R s e s') : view s' object = view s object := by
  obtain ⟨u, hu, hpasses⟩ := h
  have hconcerns := (only_concerns b e.op).executes hu
  exact hpasses.preserves (I := fun s₁ => view s₁ object = view s object)
    (fun s₁ e' s₂ he' hstep heq => (hstore.view_step (hconcerns e' he') hother hstep).trans heq) rfl

theorem view_run {t : List (Event calls)}
    (hother : ∀ e ∈ t, e.op.Looks ∨ b.objectKey e.op.key ≠ object)
    (h : Passes (b.driver.Handles R) s t s') : view s' object = view s object :=
  h.preserves (I := fun s₁ => view s₁ object = view s object)
    (fun _ e _ he hstep heq => (hstore.view_call (hother e he) hstep).trans heq) rfl

theorem told_of_probe {o : Stored} {v : ObjectVersion}
    (hview : view s (b.objectKey key) = some o)
    (h : (b.version key).run.Performs R s (.ok v) s') : replyVersion o.reply = .ok v := by
  obtain ⟨t, ht, hpasses⟩ := h
  rcases executes_version.1 ht with ⟨-, -, hunsent⟩ | ⟨-, answer, rfl, hsettles⟩
  · cases hunsent
  · obtain ⟨s₁, hanswer, -⟩ := passes_cons.1 hpasses
    obtain ⟨reply, rfl, htold, -⟩ := hstore.found_request (.inl rfl) hview hanswer
    rcases hsettles.of_success htold.success with ⟨w, hw, hreply⟩ | ⟨cause, hfailed⟩
    · cases hreply
      exact htold.replyVersion_iff.1 hw
    · cases hfailed

theorem view_uploaded {content : Bytes} {v : ObjectVersion}
    (h : b.driver.Handles R s ⟨.upload key content, .ok v⟩ s') :
    b.objectKey key ≠ "" ∧ v.isZero = false ∧
      ∃ o, view s' (b.objectKey key) = some o ∧ o.content = content ∧
        replyVersion o.reply = .ok v := by
  have hrun : (b.upload key content).run.Performs R s (.ok v) s' := h
  unfold Bucket.upload at hrun
  obtain ⟨x, s₁, hput, hrun⟩ := Task.performs_lift_bind.1 hrun
  cases x with
  | error failure => cases (Task.performs_throw.1 hrun).1
  | ok accepted =>
    obtain ⟨u, s₂, hlog, hrun⟩ := Task.performs_lift_bind.1 hrun
    obtain ⟨w, s₃, hprobe, hrun⟩ := Task.performs_bind_ok.1 hrun
    dsimp only at hrun
    split at hrun
    · cases (Task.performs_throw.1 hrun).1
    · next hzero =>
      obtain ⟨hv, rfl⟩ := Task.performs_pure.1 hrun
      cases hv
      obtain ⟨hkey, hanswer, hsuccess⟩ := performs_exchange_ok hput
      obtain ⟨o, hview, hcontent⟩ := hstore.put ⟨rfl, rfl⟩ rfl hanswer hsuccess
      have hlogged : view s₂ (b.objectKey key) = some o :=
        (congrFun (hstore.logged (Program.performs_one.1 hlog)) _).trans hview
      have hkept : view s' (b.objectKey key) = view s₂ (b.objectKey key) :=
        hstore.view_call (e := ⟨.version key, .ok v⟩) (.inl trivial) hprobe
      exact ⟨hkey, Bool.eq_false_iff.2 hzero, o, hkept.trans hlogged, hcontent,
        hstore.told_of_probe hlogged hprobe⟩

theorem view_deleted (h : b.driver.Handles R s ⟨.delete key, .ok ()⟩ s') :
    b.objectKey key ≠ "" ∧ view s' (b.objectKey key) = none := by
  have hrun : (b.delete key).run.Performs R s (.ok ()) s' := h
  unfold Bucket.delete at hrun
  obtain ⟨x, s₁, hdelete, hrun⟩ := Task.performs_lift_bind.1 hrun
  cases x with
  | error failure => cases (Task.performs_throw.1 hrun).1
  | ok reply =>
    obtain ⟨-, rfl⟩ := Task.performs_pure.1 hrun
    obtain ⟨hkey, hanswer, hsuccess⟩ := performs_exchange_ok hdelete
    have hgone := hstore.delete ⟨rfl, rfl⟩ rfl hanswer hsuccess
    rw [request_key] at hkey hgone
    exact ⟨hkey, hgone⟩

end KeptBy

/-- What has to be replied about an object, or about a key without one. -/
def Tells {σ : Type} (b : Bucket) (R : σ → Event effects → σ → Prop) (s : σ) (key : String) :
    Option (Bytes × ObjectVersion) → Prop
  | some (content, v) =>
    b.driver.MustReply R s (.version key) (.ok v) ∧
      b.driver.MustReply R s (.download key) (.ok (content, v))
  | none =>
    b.driver.MustReply R s (.version key) (.ok .zero) ∧
      b.driver.MustReply R s (.download key) (.error (.notFound (b.objectKey key)))

/-- Until its next upload or deletion, this has to be replied about the object, by whichever key
it is called. -/
def Remains {σ : Type} (b : Bucket) (R : σ → Event effects → σ → Prop) (s : σ) (key : String)
    (object : Option (Bytes × ObjectVersion)) : Prop :=
  ∀ t s', Passes (b.driver.Handles R) s t s' →
    (∀ e ∈ t, e.op.Looks ∨ b.objectKey e.op.key ≠ b.objectKey key) →
    ∀ other, b.objectKey other = b.objectKey key → b.Tells R s' other object

namespace KeptBy

variable {σ : Type} {R : σ → Event effects → σ → Prop} {b : Bucket}
  {view : σ → String → Option Stored} (hstore : b.KeptBy R view) {s s' : σ} {key : String}

include hstore

theorem tells_some {o : Stored} {v : ObjectVersion} (hkey : b.objectKey key ≠ "")
    (hview : view s (b.objectKey key) = some o) (hv : replyVersion o.reply = .ok v) :
    b.Tells R s key (some (o.content, v)) := by
  constructor
  · refine performs_looked (fun _ _ => executes_version) hkey
      (hstore.answers_request (.inl rfl)) fun answer s' hanswer => ?_
    obtain ⟨reply, rfl, htold, -⟩ := hstore.found_request (.inl rfl) hview hanswer
    exact .found htold.success (htold.replyVersion_iff.2 hv)
  · refine performs_looked (fun _ _ => executes_download) hkey
      (hstore.answers_request (.inr rfl)) fun answer s' hanswer => ?_
    obtain ⟨reply, rfl, htold, hbody⟩ := hstore.found_request (.inr rfl) hview hanswer
    obtain ⟨hbody, hcomplete⟩ := hbody rfl
    have hdelivered : delivered (b.objectKey key) reply v = .ok (o.content, v) := by
      rw [delivered, if_pos hcomplete, hbody]
    rw [← hdelivered]
    exact .found htold.success (htold.replyVersion_iff.2 hv)

theorem tells_none (hkey : b.objectKey key ≠ "") (hview : view s (b.objectKey key) = none) :
    b.Tells R s key none := by
  constructor
  · refine performs_looked (fun _ _ => executes_version) hkey
      (hstore.answers_request (.inl rfl)) fun answer s' hanswer => ?_
    obtain ⟨reply, rfl, hstatus⟩ := hstore.missing_request (.inl rfl) hview hanswer
    exact .missing hstatus
  · refine performs_looked (fun _ _ => executes_download) hkey
      (hstore.answers_request (.inr rfl)) fun answer s' hanswer => ?_
    obtain ⟨reply, rfl, hstatus⟩ := hstore.missing_request (.inr rfl) hview hanswer
    exact .missing hstatus

end KeptBy

/-- On a store that keeps objects, an upload returns a version that is not zero, and from then on
every probe replies this version and every download the content with it, until the object is
uploaded or deleted again; after a deletion probes reply zero and downloads do not find the object.
On any store at all, a probe takes an error for absence, and a download fails for want of the
object, only where the status is 404, and any other error is reported. -/
theorem keeps_objects (b : Bucket) :
    (∀ {σ : Type} {R : σ → Event effects → σ → Prop} {view : σ → String → Option Stored},
      b.KeptBy R view → ∀ (s s' : σ) (key : String),
        (∀ content v, b.driver.Handles R s ⟨.upload key content, .ok v⟩ s' →
          v.isZero = false ∧ b.Remains R s' key (some (content, v))) ∧
        (b.driver.Handles R s ⟨.delete key, .ok ()⟩ s' → b.Remains R s' key none)) ∧
    ∀ (key : String) (t : List (Event effects)),
      (∀ probed, (b.driver.answer (.version key)).Executes t probed ↔ b.Probed key t probed) ∧
      (∀ fetched, (b.driver.answer (.download key)).Executes t fetched ↔
        b.Fetched key t fetched) := by
  refine ⟨fun hstore s s' key => ⟨fun content v h => ?_, fun h => ?_⟩,
    fun key t => ⟨fun _ => executes_version, fun _ => executes_download⟩⟩
  · obtain ⟨hkey, hzero, o, hview, rfl, hv⟩ := hstore.view_uploaded h
    refine ⟨hzero, fun t s₁ ht hother other hsame => hstore.tells_some (hsame ▸ hkey) ?_ hv⟩
    rw [hsame, hstore.view_run hother ht, hview]
  · obtain ⟨hkey, hview⟩ := hstore.view_deleted h
    intro t s₁ ht hother other hsame
    refine hstore.tells_none (hsame ▸ hkey) ?_
    rw [hsame, hstore.view_run hother ht, hview]

end Bucket

namespace Bucket.Sample

def content : Bytes := [123, 125]

def stored (content : Bytes) : Stored := ⟨content, none, some "5d41402a", none⟩

def stores (objects : String → Option Stored) : Event effects → (String → Option Stored) → Prop
  | ⟨.send r, answer⟩, objects' =>
    match r.method with
    | .put => answer = .ok present ∧ objects' = Function.update objects r.key (some (stored r.body))
    | .delete => answer = .ok removed ∧ objects' = Function.update objects r.key none
    | _ => answer = .ok (((objects r.key).map Stored.reply).getD missing) ∧ objects' = objects
  | _, objects' => objects' = objects

theorem stores_look {objects objects' : String → Option Stored} {r : ObjectRequest}
    {answer : Except NoReply ObjectReply} (h : (Request.send r).IsViewing) :
    stores objects ⟨.send r, answer⟩ objects' ↔
      answer = .ok (((objects r.key).map Stored.reply).getD missing) ∧ objects' = objects := by
  unfold stores
  rcases h with h | h <;> simp only [h]

theorem keptBy : bucket.KeptBy stores id where
  put := by
    intro s s' r reply _ hput h _
    simp only [stores, hput] at h
    exact ⟨stored r.body, by simp [h.2], rfl⟩
  delete := by
    intro s s' r reply _ hdelete h _
    simp only [stores, hdelete] at h
    simp [h.2]
  found := by
    intro s s' r answer o _ hlooks h hview
    obtain ⟨rfl, -⟩ := (stores_look hlooks).1 h
    have hobject : s r.key = some o := hview
    exact ⟨o.reply, by simp [hobject], ⟨rfl, rfl, rfl, rfl⟩, fun _ => ⟨rfl, rfl⟩⟩
  missing := by
    intro s s' r answer _ hlooks h hview
    obtain ⟨rfl, -⟩ := (stores_look hlooks).1 h
    have hobject : s r.key = none := hview
    exact ⟨missing, by simp [hobject], rfl⟩
  answers := fun s _ _ hlooks => ⟨_, s, (stores_look hlooks).2 ⟨rfl, rfl⟩⟩
  looked := fun _ hlooks h => ((stores_look hlooks).1 h).2
  elsewhere := by
    intro s s' r answer object _ hother h
    unfold stores at h
    cases hmethod : r.method <;> simp only [hmethod] at h <;> simp [h.2, hother]
  logged := fun h => h

def version : ObjectVersion := ⟨"5d41402a", none⟩

theorem objectKey_dev : bucket.objectKey "dev.tfstate" = "dev.tfstate" := by decide

def uploaded : String → Option Stored :=
  Function.update (fun _ => none) "dev.tfstate" (some (stored content))

theorem handles_upload : bucket.driver.Handles stores (fun _ => none)
    ⟨.upload "dev.tfstate" content, .ok version⟩ uploaded := by
  have hkey : bucket.objectKey "dev.tfstate" ≠ "" := by
    rw [objectKey_dev]
    decide
  have hput (put : ObjectRequest) (hmethod : put.method = .put) (hbody : put.body = content)
      (hobject : put.key = "dev.tfstate") :
      stores (fun _ => none) ⟨.send put, .ok present⟩ uploaded := by
    simp only [stores, hmethod, hbody, hobject, uploaded, and_self]
  have hhead : stores uploaded
      ⟨.send (bucket.request .head "dev.tfstate"), .ok (stored content).reply⟩ uploaded := by
    refine (stores_look (.inl rfl)).2 ⟨?_, rfl⟩
    rw [request_key, objectKey_dev, uploaded, Function.update_self]
    rfl
  refine Task.performs_lift_bind.2 ⟨.ok present, uploaded,
    ⟨_, executes_exchange.2 (.inr ⟨hkey, .ok present, rfl, rfl⟩),
      .cons (hput _ rfl rfl objectKey_dev) (.nil uploaded)⟩, ?_⟩
  refine Task.performs_lift_bind.2 ⟨(), uploaded, Program.performs_one.2 rfl, ?_⟩
  refine Task.performs_bind_ok.2 ⟨version, uploaded,
    ⟨_, executes_version.2 (.inr ⟨hkey, .ok (stored content).reply, rfl, .found rfl rfl⟩),
      .cons hhead (.nil uploaded)⟩, ?_⟩
  exact Task.performs_pure.2 ⟨rfl, rfl⟩

theorem keeps_objects_dev :
    version.isZero = false ∧
      bucket.driver.MustReply stores uploaded (.download "dev.tfstate") (.ok (content, version)) ∧
      ∀ objects, bucket.driver.Handles stores uploaded ⟨.delete "prod.tfstate", .ok ()⟩ objects →
        bucket.driver.MustReply stores objects (.version "dev.tfstate") (.ok version) ∧
          bucket.driver.MustReply stores objects (.version "prod.tfstate") (.ok .zero) := by
  obtain ⟨hzero, hremains⟩ :=
    ((keeps_objects bucket).1 keptBy (fun _ => none) uploaded "dev.tfstate").1 content version
      handles_upload
  refine ⟨hzero, (hremains [] uploaded (.nil uploaded) nofun "dev.tfstate" rfl).2,
    fun objects hdelete => ⟨?_, ?_⟩⟩
  · refine (hremains _ objects (.cons hdelete (.nil objects)) (fun e he => ?_) "dev.tfstate" rfl).1
    obtain rfl := List.mem_singleton.1 he
    exact .inr (by decide)
  · exact (((keeps_objects bucket).1 keptBy uploaded objects "prod.tfstate").2 hdelete [] objects
      (.nil objects) nofun "prod.tfstate" rfl).1

end Bucket.Sample

end Provision.Storage
