import Provision.Proofs.Storage.Dates
import Provision.Proofs.Storage.BucketKeeping
import Provision.Proofs.Text.Blank

/-!
# Tokens of objects in a bucket

An object is told by the first of three headers that is of use: the version id, the entity tag, and
the modification time. A tag is of use if there is anything in it but quotes. Yet a tag that is
nothing but quotes keeps the time from being used, and the object is told as one that is absent.
-/

namespace Provision

open Provision.Host

theorem Text.trimChar_eq_empty {c : Char} {s : String} :
    trimChar c s = "" ↔ ∀ d ∈ s.toList, d = c := by
  rw [trimChar, String.ofList_eq_empty_iff, dropEndWhile_dropWhile_eq_nil]
  simp only [beq_iff_eq]

namespace Storage.Bucket

variable {versionId entityTag : Option String} {lastModified : Option Timestamp} {token : String}

/-- A bucket that keeps no versions tells the id `null`. -/
def UsableId (id : String) : Prop := id ≠ "" ∧ id ≠ "null"

/-- There is something in the tag but quotes. -/
def UsableTag (tag : String) : Prop := ∃ c ∈ tag.toList, c ≠ '"'

/-- The token that the headers offer: the first of the three that is of use. -/
inductive Offers (versionId entityTag : Option String) (lastModified : Option Timestamp) :
    String → Prop where
  | id {id : String} : id ∈ versionId → UsableId id → Offers versionId entityTag lastModified id
  | tag {tag : String} : (∀ id ∈ versionId, ¬ UsableId id) → tag ∈ entityTag → UsableTag tag →
      Offers versionId entityTag lastModified (Text.trimChar '"' tag)
  | time {time : Timestamp} : (∀ id ∈ versionId, ¬ UsableId id) →
      (∀ tag ∈ entityTag, ¬ UsableTag tag) → time ∈ lastModified →
      Offers versionId entityTag lastModified time.offsetText

/-- Without a version id, a tag that is nothing but quotes is taken for a token. -/
def Hides (versionId entityTag : Option String) : Prop :=
  (∀ id ∈ versionId, ¬ UsableId id) ∧ ∃ tag ∈ entityTag, tag ≠ "" ∧ ¬ UsableTag tag

theorem trimChar_ne_empty {tag : String} : Text.trimChar '"' tag ≠ "" ↔ UsableTag tag := by
  simp only [Ne, Text.trimChar_eq_empty, UsableTag, not_forall, exists_prop]

theorem UsableTag.ne_empty {tag : String} (h : UsableTag tag) : tag ≠ "" := by
  rintro rfl
  obtain ⟨c, hc, -⟩ := h
  cases hc

theorem offsetText_ne_empty (time : Timestamp) : time.offsetText ≠ "" := by
  rw [Timestamp.offsetText, Ne, String.ofList_eq_empty_iff]
  exact List.append_ne_nil_of_right_ne_nil _ (List.cons_ne_nil _ _)

theorem Offers.ne_empty (h : Offers versionId entityTag lastModified token) : token ≠ "" := by
  cases h with
  | id _ hid => exact hid.1
  | tag _ _ htag => exact trimChar_ne_empty.2 htag
  | time _ _ _ => exact offsetText_ne_empty _

theorem exists_offers : (∃ token, Offers versionId entityTag lastModified token) ↔
    (∃ id ∈ versionId, UsableId id) ∨ (∃ tag ∈ entityTag, UsableTag tag) ∨
      lastModified.isSome = true := by
  constructor
  · rintro ⟨_, h⟩
    cases h with
    | id hmem hid => exact .inl ⟨_, hmem, hid⟩
    | tag _ hmem htag => exact .inr (.inl ⟨_, hmem, htag⟩)
    | time _ _ htime => exact .inr (.inr (Option.isSome_of_mem htime))
  · intro h
    by_cases hid : ∃ id ∈ versionId, UsableId id
    · obtain ⟨id, hmem, hid⟩ := hid
      exact ⟨id, .id hmem hid⟩
    · have hnoId : ∀ id ∈ versionId, ¬ UsableId id := fun id hmem h => hid ⟨id, hmem, h⟩
      by_cases htag : ∃ tag ∈ entityTag, UsableTag tag
      · obtain ⟨tag, hmem, htag⟩ := htag
        exact ⟨_, .tag hnoId hmem htag⟩
      · obtain ⟨time, htime⟩ := Option.isSome_iff_exists.1 ((h.resolve_left hid).resolve_left htag)
        exact ⟨_, .time hnoId (fun tag hmem h => htag ⟨tag, hmem, h⟩) htime⟩

theorem token_of_id {id : String} (hid : UsableId id) :
    (versionOf (some id) entityTag lastModified).token = id := by
  have hused : (id.isEmpty || id = "null") = false := by
    rw [Bool.or_eq_false_iff, Bool.eq_false_iff, Ne, String.isEmpty_iff, decide_eq_false_iff_not]
    exact hid
  simp only [versionOf, hused, Bool.false_eq_true, if_false]

theorem versionOf_eq (hid : ∀ id ∈ versionId, ¬ UsableId id) :
    versionOf versionId entityTag lastModified = versionOf none entityTag lastModified := by
  cases versionId with
  | none => rfl
  | some id =>
    have hunused : (id.isEmpty || id = "null") = true := by
      rw [Bool.or_eq_true, String.isEmpty_iff, decide_eq_true_eq, or_iff_not_imp_left]
      exact fun hsome => not_not.1 fun hother => hid id rfl ⟨hsome, hother⟩
    simp only [versionOf, hunused, if_true]

theorem token_of_tag {tag : String} (htag : tag ≠ "") :
    (versionOf none (some tag) lastModified).token = Text.trimChar '"' tag := by
  have hused : tag.isEmpty = false := by
    rwa [Bool.eq_false_iff, Ne, String.isEmpty_iff]
  simp only [versionOf, hused, Bool.false_eq_true, if_false]

theorem token_of_time (htag : ∀ tag ∈ entityTag, tag = "") :
    (versionOf none entityTag lastModified).token =
      (lastModified.map (·.offsetText)).getD "" := by
  cases entityTag with
  | none => rfl
  | some tag =>
    obtain rfl := htag tag rfl
    rfl

theorem token_of_hides (h : Hides versionId entityTag) :
    (versionOf versionId entityTag lastModified).token = "" := by
  obtain ⟨hid, tag, rfl, htag, hquotes⟩ := h
  rw [versionOf_eq hid, token_of_tag htag]
  exact not_not.1 fun hne => hquotes (trimChar_ne_empty.1 hne)

theorem eq_empty_of_not_hides (hid : ∀ id ∈ versionId, ¬ UsableId id)
    (htag : ∀ tag ∈ entityTag, ¬ UsableTag tag) (hshown : ¬ Hides versionId entityTag) :
    ∀ tag ∈ entityTag, tag = "" :=
  fun tag hmem => not_not.1 fun hne => hshown ⟨hid, tag, hmem, hne, htag tag hmem⟩

theorem token_of_offers (h : Offers versionId entityTag lastModified token)
    (hshown : ¬ Hides versionId entityTag) :
    (versionOf versionId entityTag lastModified).token = token := by
  cases h with
  | id hmem hid =>
    obtain rfl := Option.mem_def.1 hmem
    exact token_of_id hid
  | tag hid hmem htag =>
    obtain rfl := Option.mem_def.1 hmem
    rw [versionOf_eq hid, token_of_tag htag.ne_empty]
  | time hid htag hmem =>
    obtain rfl := Option.mem_def.1 hmem
    rw [versionOf_eq hid, token_of_time (eq_empty_of_not_hides hid htag hshown)]
    rfl

theorem token_of_no_offer (hnone : ¬ ∃ token, Offers versionId entityTag lastModified token) :
    (versionOf versionId entityTag lastModified).token = "" := by
  by_cases hhides : Hides versionId entityTag
  · exact token_of_hides hhides
  · simp only [exists_offers, not_or, not_exists, not_and, Option.not_isSome_iff_eq_none] at hnone
    obtain ⟨hid, htag, rfl⟩ := hnone
    rw [versionOf_eq hid, token_of_time (eq_empty_of_not_hides hid htag hhides)]
    rfl

theorem isZero_versionOf_iff : (versionOf versionId entityTag lastModified).isZero = true ↔
    Hides versionId entityTag ∨ ¬ ∃ token, Offers versionId entityTag lastModified token := by
  rw [ObjectVersion.isZero, String.isEmpty_iff]
  constructor
  · intro hzero
    by_cases hhides : Hides versionId entityTag
    · exact .inl hhides
    · right
      rintro ⟨token, h⟩
      exact h.ne_empty ((token_of_offers h hhides).symm.trans hzero)
  · rintro (hhides | hnone)
    · exact token_of_hides hhides
    · exact token_of_no_offer hnone

variable {b : Bucket} {key : String} {v : ObjectVersion} {u : Journal}

/-- The version that a reply about an object tells. -/
inductive Reports (reply : ObjectReply) : ObjectVersion → Prop where
  | absent : reply.status = 404 → Reports reply .zero
  | present {time : Option Timestamp} : isSuccess reply.status = true →
      modified reply = some time →
      Reports reply (versionOf reply.versionId reply.entityTag time)

def ToldBy (b : Bucket) (key : String) (u : Journal) (v : ObjectVersion) : Prop :=
  ∃ method reply, (method = .head ∨ method = .get) ∧
    ⟨.send (b.request method key), .ok reply⟩ ∈ u ∧ Reports reply v

theorem ToldBy.mono {u' : Journal} (h : b.ToldBy key u v) (hu : u ⊆ u') : b.ToldBy key u' v := by
  obtain ⟨method, reply, hmethod, hmem, hreports⟩ := h
  exact ⟨method, reply, hmethod, hu hmem, hreports⟩

theorem reports_of_replyVersion {reply : ObjectReply} (hsuccess : isSuccess reply.status = true)
    (h : replyVersion reply = .ok v) : Reports reply v := by
  unfold replyVersion at h
  cases hmodified : modified reply with
  | none =>
    rw [hmodified] at h
    cases h
  | some time =>
    rw [hmodified] at h
    obtain rfl := Except.ok.inj h
    exact .present hsuccess hmodified

theorem toldBy_version (h : b.Probed key u (.ok v)) : b.ToldBy key u v := by
  rcases h with ⟨-, -, hunsent⟩ | ⟨-, answer, rfl, hsettles⟩
  · cases hunsent
  · have hmem (reply : ObjectReply) := List.mem_singleton_self
      (⟨.send (b.request .head key), .ok reply⟩ : Event effects)
    cases hsettles with
    | found hsuccess hv =>
      exact ⟨.head, _, .inl rfl, hmem _, reports_of_replyVersion hsuccess hv⟩
    | missing hstatus => exact ⟨.head, _, .inl rfl, hmem _, .absent hstatus⟩

theorem toldBy_download {content : Bytes} (h : b.Fetched key u (.ok (content, v))) :
    b.ToldBy key u v := by
  rcases h with ⟨-, -, hunsent⟩ | ⟨-, answer, rfl, hsettles⟩
  · cases hunsent
  · generalize hfetched : (.ok (content, v) : Except Error (Bytes × ObjectVersion)) = fetched
      at hsettles
    cases hsettles with
    | @found reply v' hsuccess hv =>
      unfold delivered at hfetched
      split at hfetched
      · cases hfetched
        exact ⟨.get, reply, .inr rfl, List.mem_singleton_self _,
          reports_of_replyVersion hsuccess hv⟩
      · cases hfetched
    | _ => cases hfetched

theorem toldBy_upload {content : Bytes} (h : b.Uploaded key content u (.ok v)) :
    b.ToldBy key u v := by
  cases h with
  | @done t t' _ _ _ _ hprobed _ =>
    exact (toldBy_version hprobed).mono fun _ he =>
      List.mem_append_right t (List.mem_cons_of_mem _ he)

theorem toldBy_of_told {c : Call} {reply : c.Reply} (h : (b.driver.answer c).Executes u reply)
    (htold : told? c reply = some v) : b.ToldBy c.key u v := by
  cases c with
  | upload key content =>
    cases reply with
    | ok v' =>
      cases htold
      exact toldBy_upload (uploaded_of_executes h)
    | error e => cases htold
  | download key =>
    cases reply with
    | ok found =>
      cases htold
      exact toldBy_download (executes_download.1 h)
    | error e => cases htold
  | version key =>
    cases reply with
    | ok v' =>
      cases htold
      exact toldBy_version (executes_version.1 h)
    | error e => cases htold
  | delete key => cases reply <;> cases htold

theorem Reports.of_isZero {reply : ObjectReply} (h : Reports reply v) (hzero : v.isZero = true) :
    reply.status = 404 ∨ modified reply = some none ∨
      Hides reply.versionId reply.entityTag := by
  cases h with
  | absent hstatus => exact .inl hstatus
  | @present time _ hmodified =>
    rcases isZero_versionOf_iff.1 hzero with hhides | hnone
    · exact .inr (.inr hhides)
    · have htime : ¬ time.isSome = true := fun h => hnone (exists_offers.2 (.inr (.inr h)))
      rw [Option.not_isSome_iff_eq_none.1 htime] at hmodified
      exact .inr (.inl hmodified)

/-- The token is the first that the headers offer, and one is offered exactly if there is a version
id, a tag that holds more than quotes, or a time; only a tag of quotes alone, without a version id,
makes it empty all the same. So a call tells zero of an object that exists only if it has no
modification time or such a tag. -/
theorem tells_first_usable (b : Bucket) :
    (∀ versionId entityTag lastModified,
      ((∃ token, Offers versionId entityTag lastModified token) ↔
        (∃ id ∈ versionId, UsableId id) ∨ (∃ tag ∈ entityTag, UsableTag tag) ∨
          lastModified.isSome = true) ∧
      (∀ token, Offers versionId entityTag lastModified token → ¬ Hides versionId entityTag →
        token ≠ "" ∧ versionOf versionId entityTag lastModified = ⟨token, lastModified⟩) ∧
      (Hides versionId entityTag →
        versionOf versionId entityTag lastModified = ⟨"", lastModified⟩)) ∧
    ∀ (c : Call) u reply v, (b.driver.answer c).Executes u reply → told? c reply = some v →
      ∃ method answer, (method = .head ∨ method = .get) ∧
        ⟨.send (b.request method c.key), .ok answer⟩ ∈ u ∧ Reports answer v ∧
        (v.isZero = true → answer.status = 404 ∨ modified answer = some none ∨
          Hides answer.versionId answer.entityTag) := by
  refine ⟨fun versionId entityTag lastModified => ⟨exists_offers, fun token h hshown => ?_,
    fun hhides => ?_⟩, fun c u reply v h htold => ?_⟩
  · exact ⟨h.ne_empty, congrArg (ObjectVersion.mk · lastModified) (token_of_offers h hshown)⟩
  · exact congrArg (ObjectVersion.mk · lastModified) (token_of_hides hhides)
  · obtain ⟨method, answer, hmethod, hmem, hreports⟩ := toldBy_of_told h htold
    exact ⟨method, answer, hmethod, hmem, hreports, hreports.of_isZero⟩

namespace Sample

def date : String := "Wed, 21 Oct 2015 07:28:00 GMT"

def time : Timestamp := ⟨2015, 10, 21, 7, 28, 0, 0⟩

def dated (tag : String) : ObjectReply := ⟨200, some "null", some tag, some date, [], true⟩

theorem modified_dated (tag : String) : modified (dated tag) = some (some time) := by
  have hdate : HttpDate.ofText? date = some time := by decide
  show (HttpDate.ofText? date).map some = some (some time)
  rw [hdate]
  rfl

theorem executes_probe (tag : String) :
    (bucket.driver.answer (.version "dev.tfstate")).Executes
      [⟨.send (bucket.request .head "dev.tfstate"), .ok (dated tag)⟩]
      (.ok (versionOf (some "null") (some tag) (some time))) := by
  have hversion : replyVersion (dated tag) =
      .ok (versionOf (some "null") (some tag) (some time)) := by
    rw [replyVersion, modified_dated]
    rfl
  exact executes_version.2 (.inr ⟨by decide, _, rfl, .found rfl hversion⟩)

def tag : String := "\"5d41402a\""

theorem usableTag : UsableTag tag := ⟨'5', by decide, by decide⟩

theorem tells_first_usable_dated :
    versionOf (some "null") (some tag) (some time) = ⟨"5d41402a", some time⟩ ∧
      versionOf none none (some time) = ⟨"2015-10-21T07:28:00+00:00", some time⟩ ∧
      ∃ method answer, (method = .head ∨ method = .get) ∧
        ⟨.send (bucket.request method "dev.tfstate"), .ok answer⟩ ∈
          [(⟨.send (bucket.request .head "dev.tfstate"), .ok (dated tag)⟩ : Event effects)] ∧
        Reports answer (versionOf (some "null") (some tag) (some time)) := by
  have hnull : ∀ id ∈ some "null", ¬ UsableId id := by
    rintro _ ⟨⟩ ⟨-, hnull⟩
    exact hnull rfl
  have hshown (versionId : Option String) : ¬ Hides versionId (some tag) := by
    rintro ⟨-, _, ⟨⟩, -, hquotes⟩
    exact hquotes usableTag
  have htells := tells_first_usable bucket
  refine ⟨?_, ?_, ?_⟩
  · exact ((htells.1 _ _ _).2.1 _ (.tag hnull rfl usableTag) (hshown _)).2
  · have hnone {Q : String → Prop} : ∀ x ∈ (none : Option String), ¬ Q x := by rintro _ ⟨⟩
    have hshown : ¬ Hides none none := by rintro ⟨-, _, ⟨⟩, -⟩
    exact ((htells.1 _ _ _).2.1 _ (.time hnone hnone rfl) hshown).2
  · obtain ⟨method, answer, hmethod, hmem, hreports, -⟩ :=
      htells.2 (.version "dev.tfstate") _ _ _ (executes_probe tag) rfl
    exact ⟨method, answer, hmethod, hmem, hreports⟩

/-- The time is not used. -/
theorem quotes_hide_time :
    (bucket.driver.answer (.version "dev.tfstate")).Executes
      [⟨.send (bucket.request .head "dev.tfstate"), .ok (dated "\"\"")⟩]
      (.ok ⟨"", some time⟩) ∧
    isSuccess (dated "\"\"").status = true ∧ modified (dated "\"\"") = some (some time) ∧
    (ObjectVersion.mk "" (some time)).isZero = true :=
  ⟨executes_probe "\"\"", rfl, modified_dated _, rfl⟩

end Sample

end Storage.Bucket

end Provision
