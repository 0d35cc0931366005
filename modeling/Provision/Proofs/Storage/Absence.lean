import Provision.Proofs.Storage.Refinement
import Provision.Storage.Bucket
import Provision.Storage.Nowhere

/-!
# Absent objects

A driver tells absence the same way by all of its calls if a probe answers the zero version
exactly where a download fails for want of the object, and a deletion then succeeds and changes
nothing. Storage that forgets everything does, and so does a bucket on a store that answers both
kinds of reading alike. A local directory does for keys that are names and whose version files
can exist. For other keys a probe can take the path of an object for absent where reading and
removing run into a fault; that is the only way in which it departs from a download.
-/

namespace Provision.Storage

open Provision.Host

/-- What the calls on a key have to say to each other about its absence. -/
structure Driver.TellsAbsence {σ : Type} (driver : Driver) (R : σ → Event effects → σ → Prop)
    (s : σ) (key : String) : Prop where
  probe_iff : ∀ probed fetched s₁ s₂, driver.Handles R s ⟨.version key, probed⟩ s₁ →
    driver.Handles R s ⟨.download key, fetched⟩ s₂ →
    ((∃ v : ObjectVersion, probed = .ok v ∧ v.isZero = true) ↔
      ∃ k, fetched = .error (.notFound k))
  delete : ∀ probed deleted s₁ s₂, driver.Handles R s ⟨.version key, probed⟩ s₁ →
    (∃ v : ObjectVersion, probed = .ok v ∧ v.isZero = true) →
    driver.Handles R s ⟨.delete key, deleted⟩ s₂ → deleted = .ok () ∧ s₂ = s

theorem Nowhere.tellsAbsence {σ : Type} (R : σ → Event effects → σ → Prop) (s : σ)
    (key : String) : Nowhere.driver.TellsAbsence R s key where
  probe_iff probed fetched s₁ s₂ hprobed hfetched := by
    obtain ⟨rfl, -⟩ := Program.performs_done.1 hprobed
    obtain ⟨rfl, -⟩ := Program.performs_done.1 hfetched
    exact ⟨fun _ => ⟨key, rfl⟩, fun _ => ⟨.zero, rfl, rfl⟩⟩
  delete probed deleted s₁ s₂ _ _ hdeleted := Program.performs_done.1 hdeleted

namespace Bucket

def told (reply : ObjectReply) : Nat × Option String × Option String × Option String :=
  (reply.status, reply.versionId, reply.entityTag, reply.lastModified)

/-- An object store that answers HEAD and GET alike, gives every object an entity tag, and has
nothing to do when an absent object is deleted. -/
structure Answered {σ : Type} (R : σ → Event effects → σ → Prop) (b : Bucket) : Prop where
  alike : ∀ {s s₁ s₂ key head get}, R s ⟨.send (b.request .head key), head⟩ s₁ →
    R s ⟨.send (b.request .get key), get⟩ s₂ →
    (head : Except NoReply ObjectReply).map told = (get : Except NoReply ObjectReply).map told
  tagged : ∀ {s s₁ key reply}, R s ⟨.send (b.request .head key), .ok reply⟩ s₁ →
    isSuccess (reply : ObjectReply).status = true →
    ∃ tag, reply.entityTag = some tag ∧ Text.trimChar '"' tag ≠ ""
  absent : ∀ {s s₁ s₂ key head deleted}, R s ⟨.send (b.request .head key), .ok head⟩ s₁ →
    (head : ObjectReply).status = 404 → R s ⟨.send (b.request .delete key), deleted⟩ s₂ →
    (∃ reply : ObjectReply, deleted = .ok reply ∧ isSuccess reply.status = true) ∧ s₂ = s

variable {σ : Type} {R : σ → Event effects → σ → Prop} {b : Bucket} {s s' : σ} {key : String}

@[simp] theorem request_key (method : Method) :
    (b.request method key).key = b.objectKey key := by
  rw [request]

def verdict : Except NoReply ObjectReply → Except Failure ObjectReply
  | .error .unreachable => .error .unreachable
  | .ok reply =>
    if isSuccess reply.status then .ok reply else .error (.refused reply.status)

theorem exchange_eq (r : ObjectRequest) :
    exchange r =
      if r.key.isEmpty then pure (.error .unsendable)
      else send r >>= fun answer => pure (verdict answer) := by
  unfold exchange
  split
  · rfl
  · refine bind_congr fun answer => ?_
    cases answer with
    | error e =>
      cases e
      rfl
    | ok reply =>
      dsimp only [verdict]
      split <;> rfl

theorem performs_exchange {r : ObjectRequest} {answer : Except Failure ObjectReply}
    (h : (exchange r).Performs R s answer s') :
    (answer = .error .unsendable ∧ r.key.isEmpty = true) ∨
      ∃ reply, ¬ r.key.isEmpty = true ∧ R s ⟨.send r, reply⟩ s' ∧ answer = verdict reply := by
  rw [exchange_eq] at h
  split at h
  · next hempty =>
    obtain ⟨rfl, -⟩ := Program.performs_done.1 h
    exact .inl ⟨rfl, hempty⟩
  · next hkey =>
    obtain ⟨reply, s₁, hsent, h⟩ := Program.performs_bind.1 h
    obtain ⟨rfl, rfl⟩ := Program.performs_done.1 h
    exact .inr ⟨reply, hkey, Program.performs_one.1 hsent, rfl⟩

theorem meansAbsent_iff {failure : Failure} :
    failure.meansAbsent = true ↔ failure = .refused 404 :=
  decide_eq_true_iff

theorem performs_version {probed : Except Error ObjectVersion}
    (h : (b.version key).run.Performs R s probed s') :
    ∃ answer, (exchange (b.request .head key)).Performs R s answer s' ∧
      ((∃ v : ObjectVersion, probed = .ok v ∧ v.isZero = true) ↔
        answer.bind replyVersion = .error (.refused 404) ∨
          ∃ v, answer.bind replyVersion = .ok v ∧ v.isZero = true) := by
  obtain ⟨answer, s₁, hanswer, h⟩ := Task.performs_lift_bind.1 h
  refine ⟨answer, ?_⟩
  cases hv : answer.bind replyVersion with
  | ok v =>
    rw [hv] at h
    obtain ⟨rfl, rfl⟩ := Task.performs_pure.1 h
    exact ⟨hanswer, by simp⟩
  | error failure =>
    rw [hv] at h
    dsimp only at h
    split at h
    · next habsent =>
      obtain ⟨rfl, rfl⟩ := Task.performs_pure.1 h
      refine ⟨hanswer, fun _ => .inl ?_, fun _ => ⟨.zero, rfl, rfl⟩⟩
      rw [meansAbsent_iff.1 habsent]
    · next hother =>
      obtain ⟨rfl, rfl⟩ := Task.performs_throw.1 h
      rw [meansAbsent_iff] at hother
      exact ⟨hanswer, by simp [hother]⟩

theorem performs_download {fetched : Except Error (Bytes × ObjectVersion)}
    (h : (b.download key).run.Performs R s fetched s') :
    ∃ answer, (exchange (b.request .get key)).Performs R s answer s' ∧
      ((∃ k, fetched = .error (.notFound k)) ↔
        answer.bind replyVersion = .error (.refused 404)) := by
  obtain ⟨answer, s₁, hanswer, h⟩ := Task.performs_lift_bind.1 h
  refine ⟨answer, ?_⟩
  cases hv : answer.bind replyVersion with
  | error failure =>
    have hpaired : (answer.bind fun reply => (replyVersion reply).map (reply, ·)) =
        .error failure := by
      cases answer with
      | error e =>
        cases hv
        rfl
      | ok reply =>
        simp only [Except.bind] at hv ⊢
        rw [hv]
        rfl
    rw [hpaired] at h
    dsimp only at h
    split at h
    · next habsent =>
      obtain ⟨rfl, rfl⟩ := Task.performs_throw.1 h
      rw [meansAbsent_iff.1 habsent]
      exact ⟨hanswer, by simp⟩
    · next hother =>
      obtain ⟨rfl, rfl⟩ := Task.performs_throw.1 h
      rw [meansAbsent_iff] at hother
      exact ⟨hanswer, by simp [hother]⟩
  | ok v =>
    cases answer with
    | error failure => cases hv
    | ok reply =>
      simp only [Except.bind] at hv h
      rw [hv] at h
      dsimp only [Except.map] at h
      split at h
      · obtain ⟨rfl, rfl⟩ := Task.performs_pure.1 h
        exact ⟨hanswer, by simp⟩
      · obtain ⟨rfl, rfl⟩ := Task.performs_throw.1 h
        exact ⟨hanswer, by simp⟩

theorem isZero_versionOf {tag : String} (htag : Text.trimChar '"' tag ≠ "")
    (versionId : Option String) (lastModified : Option Timestamp) :
    (versionOf versionId (some tag) lastModified).isZero = false := by
  have hempty : tag.isEmpty = false := by
    rw [Bool.eq_false_iff, Ne, String.isEmpty_iff]
    rintro rfl
    exact htag rfl
  have htrimmed : (Text.trimChar '"' tag).isEmpty = false := by
    rwa [Bool.eq_false_iff, Ne, String.isEmpty_iff]
  simp only [versionOf, hempty, Bool.false_eq_true, if_false, ObjectVersion.isZero]
  cases versionId with
  | none => exact htrimmed
  | some id =>
    dsimp only
    split
    · exact htrimmed
    · next hid =>
      rw [Bool.or_eq_true, not_or] at hid
      exact Bool.eq_false_iff.2 hid.1

theorem replyVersion_of_told {head get : Except NoReply ObjectReply}
    (h : head.map told = get.map told) :
    (verdict head).bind replyVersion = (verdict get).bind replyVersion := by
  cases head with
  | error e =>
    cases get with
    | error e' => rfl
    | ok reply => cases h
  | ok reply =>
    cases get with
    | error e => cases h
    | ok reply' =>
      have htold : told reply = told reply' := Except.ok.inj h
      simp only [told, Prod.mk.injEq] at htold
      obtain ⟨hstatus, hid, htag, htime⟩ := htold
      simp only [verdict, hstatus]
      split
      · simp only [Except.bind, replyVersion, modified, hstatus, hid, htag, htime]
      · rfl

theorem status_of_refused {head : Except NoReply ObjectReply}
    (h : (verdict head).bind replyVersion = .error (.refused 404)) :
    ∃ reply, head = .ok reply ∧ reply.status = 404 := by
  cases head with
  | error e =>
    cases e
    cases h
  | ok reply =>
    refine ⟨reply, rfl, ?_⟩
    unfold verdict at h
    dsimp only at h
    split at h
    · simp only [Except.bind, replyVersion] at h
      split at h
      · simpa using h
      · cases h
    · simpa [Except.bind] using h

theorem not_isZero_of_tagged (hstore : b.Answered R) {head : Except NoReply ObjectReply}
    {v : ObjectVersion} (hsent : R s ⟨.send (b.request .head key), head⟩ s')
    (hv : (verdict head).bind replyVersion = .ok v) : v.isZero = false := by
  cases head with
  | error e =>
    cases e
    cases hv
  | ok reply =>
    unfold verdict at hv
    dsimp only at hv
    split at hv
    · next hsuccess =>
      obtain ⟨tag, htag, htrimmed⟩ := hstore.tagged hsent hsuccess
      simp only [Except.bind, replyVersion, htag] at hv
      split at hv
      · cases hv
      · cases hv
        exact isZero_versionOf htrimmed _ _
    · cases hv

theorem refused_of_zero (hstore : b.Answered R) {probed : Except Error ObjectVersion}
    (h : (b.version key).run.Performs R s probed s')
    (hzero : ∃ v : ObjectVersion, probed = .ok v ∧ v.isZero = true) :
    ∃ head, ¬ (b.objectKey key).isEmpty = true ∧ R s ⟨.send (b.request .head key), head⟩ s' ∧
      (verdict head).bind replyVersion = .error (.refused 404) := by
  obtain ⟨answer, hexchange, hiff⟩ := performs_version h
  rcases performs_exchange hexchange with ⟨rfl, -⟩ | ⟨head, hkey, hsent, rfl⟩
  · rcases hiff.1 hzero with hrefused | ⟨v, hv, -⟩
    · cases hrefused
    · cases hv
  · rw [request_key] at hkey
    refine ⟨head, hkey, hsent, ?_⟩
    rcases hiff.1 hzero with hrefused | ⟨v, hv, hvzero⟩
    · exact hrefused
    · rw [not_isZero_of_tagged hstore hsent hv] at hvzero
      cases hvzero

theorem tellsAbsence (hstore : b.Answered R) (s : σ) (key : String) :
    b.driver.TellsAbsence R s key where
  probe_iff probed fetched s₁ s₂ hprobed hfetched := by
    obtain ⟨answer, hget, hmissing⟩ := performs_download hfetched
    rw [hmissing]
    constructor
    · intro hzero
      obtain ⟨head, hkey, hsent, hrefused⟩ := refused_of_zero hstore hprobed hzero
      rcases performs_exchange hget with ⟨-, hempty⟩ | ⟨get, -, hsent', rfl⟩
      · rw [request_key] at hempty
        exact absurd hempty hkey
      · rw [← replyVersion_of_told (hstore.alike hsent hsent'), hrefused]
    · intro hrefused
      obtain ⟨answer', hhead, hzero⟩ := performs_version hprobed
      rcases performs_exchange hget with ⟨rfl, -⟩ | ⟨get, hkey, hsent', rfl⟩
      · cases hrefused
      · rcases performs_exchange hhead with ⟨-, hempty⟩ | ⟨head, -, hsent, rfl⟩
        · rw [request_key] at hempty hkey
          exact absurd hempty hkey
        · rw [← replyVersion_of_told (hstore.alike hsent hsent')] at hrefused
          exact hzero.2 (.inl hrefused)
  delete probed deleted s₁ s₂ hprobed hzero hdeleted := by
    obtain ⟨head, hkey, hsent, hrefused⟩ := refused_of_zero hstore hprobed hzero
    obtain ⟨reply, rfl, hstatus⟩ := status_of_refused hrefused
    have hrun : (b.delete key).run.Performs R s deleted s₂ := hdeleted
    unfold Bucket.delete at hrun
    obtain ⟨answer, s₃, hexchange, hrest⟩ := Task.performs_lift_bind.1 hrun
    rcases performs_exchange hexchange with ⟨-, hempty⟩ | ⟨gone, -, hsent', rfl⟩
    · rw [request_key] at hempty
      exact absurd hempty hkey
    · obtain ⟨⟨reply', rfl, hsuccess⟩, rfl⟩ := hstore.absent hsent hstatus hsent'
      have hverdict : verdict (.ok reply') = .ok reply' := if_pos hsuccess
      rw [hverdict] at hrest
      exact Task.performs_pure.1 hrest

end Bucket

namespace LocalDirectory

open Provision.Host.Disk

variable {current : Location} {d d' : Disk} {root key path : String} {v : ObjectVersion}

theorem recorded_error {e : Error} (h : recorded current d key path = .error e) :
    ∃ cause, e = .read key cause := by
  unfold recorded at h
  split at h
  · cases h
  · cases h
    exact ⟨_, rfl⟩
  · split at h
    · cases h
      exact ⟨_, rfl⟩
    · cases h

theorem stat_of_read_error {fault : Fault} (h : d.read current path = .error fault)
    (hfault : fault ≠ .isADirectory) : d.exists? current path = false := by
  unfold Disk.read at h
  unfold exists?
  cases hstat : d.stat current path with
  | error e => rfl
  | ok entry =>
    rw [hstat] at h
    cases entry with
    | file content => cases h
    | directory =>
      cases h
      exact absurd rfl hfault

theorem probed_of_fetched {k : String} (h : fetched current d key path = .error (.notFound k)) :
    ∃ v : ObjectVersion, probed current d key path = .ok v ∧ v.isZero = true := by
  unfold fetched at h
  unfold probed
  cases hrecorded : recorded current d key path with
  | error e =>
    obtain ⟨cause, rfl⟩ := recorded_error hrecorded
    rw [hrecorded] at h
    cases h
  | ok v =>
    rw [hrecorded] at h
    by_cases hzero : v.isZero = true
    · split
      · exact ⟨v, rfl, hzero⟩
      · exact ⟨.zero, rfl, rfl⟩
    · dsimp only at h
      rw [if_neg hzero] at h
      split at h
      · cases h
      · next hread =>
        rw [stat_of_read_error hread (by decide)]
        exact ⟨.zero, rfl, rfl⟩
      · cases h

theorem fetched_of_probed (h : probed current d key path = .ok v) (hzero : v.isZero = true) :
    (∃ k, fetched current d key path = .error (.notFound k)) ∨
      d.exists? current path = false ∧
        ∃ cause, fetched current d key path = .error (.read key cause) := by
  unfold probed at h
  unfold fetched
  cases hrecorded : recorded current d key path with
  | error e =>
    obtain ⟨cause, rfl⟩ := recorded_error hrecorded
    rw [hrecorded] at h
    split at h
    · cases h
    · next hexists => exact .inr ⟨Bool.eq_false_iff.2 hexists, cause, rfl⟩
  | ok w =>
    rw [hrecorded] at h
    dsimp only
    by_cases hw : w.isZero = true
    · rw [if_pos hw]
      exact .inl ⟨key, rfl⟩
    · rw [if_neg hw]
      split at h
      · cases h
        exact absurd hzero hw
      · next hexists =>
        split
        · next hread =>
          unfold Disk.read at hread
          unfold exists? at hexists
          cases hstat : d.stat current path with
          | error e =>
            rw [hstat] at hread
            cases hread
          | ok entry =>
            rw [hstat] at hexists
            exact absurd rfl hexists
        · exact .inl ⟨key, rfl⟩
        · exact .inr ⟨Bool.eq_false_iff.2 hexists, _, rfl⟩

structure Fits (root key : String) : Prop where
  noNul : '\x00' ∉ (Path.join root (key ++ ".version")).toList
  path : byteSize (Path.join root (key ++ ".version")) ≤ maxPath
  name : byteSize (key ++ ".version") ≤ maxName

structure Vacant (current : Location) (root key : String) (d : Disk) : Prop where
  object : d.lookup (place current root ++ [key]) = none
  version : d.lookup (place current root ++ [key ++ ".version"]) = none

theorem byteSize_append (s t : String) : byteSize (s ++ t) = byteSize s + byteSize t := by
  simp only [byteSize, Text.Utf8.encode, String.toList_append, List.flatMap_append,
    List.length_append]

section Flat

variable (hflat : IsFlat key) (hfits : Fits root key) (hreaches : d.Reaches current root)

include hfits hreaches

theorem seat_version : d.seat current root (key ++ ".version") =
    .ok (place current root ++ [key ++ ".version"]) := by
  have hname : ¬ maxName < byteSize (key ++ ".version") := Nat.not_lt.2 hfits.name
  have hclean := mt List.contains_iff_mem.1 hfits.noNul
  rw [seat, if_neg hclean, if_neg (Nat.not_lt.2 hfits.path), hreaches]
  exact if_neg hname

include hflat

theorem seat_object : d.seat current root key = .ok (place current root ++ [key]) := by
  have hpath := hfits.path
  have hname := hfits.name
  have hnul := hfits.noNul
  rw [← Path.join_append hflat.isName root ".version" hflat.versionName] at hpath hnul
  rw [byteSize_append] at hpath hname
  rw [String.toList_append, List.mem_append, not_or] at hnul
  have hclean := mt List.contains_iff_mem.1 hnul.1
  have hshort : ¬ maxName < byteSize key := by omega
  rw [seat, if_neg hclean, if_neg (by omega), hreaches]
  exact if_neg hshort

theorem Vacant.recorded (h : Vacant current root key d) :
    recorded current d key (Path.join root key) = .ok .zero := by
  unfold LocalDirectory.recorded
  rw [hflat.versionPath_join, read_join hflat.versionName, seat_version hfits hreaches]
  simp only [Except.bind, h.version]

theorem Vacant.probed (h : Vacant current root key d) :
    probed current d key (Path.join root key) = .ok .zero := by
  rw [LocalDirectory.probed, h.recorded hflat hfits hreaches, ite_self]

theorem Vacant.fetched (h : Vacant current root key d) :
    fetched current d key (Path.join root key) = .error (.notFound key) := by
  simp only [LocalDirectory.fetched, h.recorded hflat hfits hreaches]
  rfl

theorem Vacant.deleted (h : Vacant current root key d) :
    deleted current d key (Path.join root key) = (.ok (), d) := by
  have hversion : d.remove current (Path.join root (key ++ ".version")) = .error .notFound := by
    rw [remove_join hflat.versionName, seat_version hfits hreaches]
    simp only [Except.bind, h.version]
  have hobject : d.remove current (Path.join root key) = .error .notFound := by
    rw [remove_join hflat.isName, seat_object hflat hfits hreaches]
    simp only [Except.bind, h.object]
  simp only [LocalDirectory.deleted, cleared, hflat.versionPath_join, hversion, hobject]

theorem Vacant.kept (h : Vacant current root key d) (content : Bytes) (r : VersionRecord) :
    ∃ d', kept current d key (Path.join root key) content r =
      (.ok ⟨r.version, some r.lastModified⟩, d') := by
  have hobject : d.write current (Path.join root key) content =
      .ok (d.put (place current root ++ [key]) (.file content)) := by
    rw [write_join hflat.isName, seat_object hflat hfits hreaches]
    simp only [Except.bind, h.object]
  have hchanges := changesOnly_write hflat.isName hobject
  have hversion : (d.put (place current root ++ [key]) (.file content)).write current
      (Path.join root (key ++ ".version")) r.encode =
        .ok ((d.put (place current root ++ [key]) (.file content)).put
          (place current root ++ [key ++ ".version"]) (.file r.encode)) := by
    rw [write_join hflat.versionName, seat_version hfits (hreaches.mono hchanges.keeps)]
    simp only [Except.bind, hchanges.same _ object_ne_version.symm, h.version]
  refine ⟨(d.put (place current root ++ [key]) (.file content)).put
    (place current root ++ [key ++ ".version"]) (.file r.encode), ?_⟩
  simp only [LocalDirectory.kept, hflat.versionPath_join, hobject, hversion]

theorem vacant_deleted
    (h : deleted current d key (Path.join root key) = (.ok (), d')) :
    Vacant current root key d' := by
  have hgone {d d' : Disk} {name : String} (hname : Path.IsName name)
      (hseat : d.seat current root name = .ok (place current root ++ [name]))
      (hremove : d.remove current (Path.join root name) = .ok d' ∨
        d.remove current (Path.join root name) = .error .notFound ∧ d' = d) :
      d'.lookup (place current root ++ [name]) = none := by
    rcases hremove with hremove | ⟨hremove, rfl⟩
    · exact lookup_remove hname hremove
    · rw [remove_join hname, hseat] at hremove
      simp only [Except.bind] at hremove
      split at hremove
      · next hnone => exact hnone
      · cases hremove
      · cases hremove
  rcases deleted_cases current d root hflat with
    ⟨e, heq, -⟩ | ⟨d₁, hversion, heq⟩
  · rw [heq] at h
    cases h
  · rw [heq] at h
    have hchanges := changesOnly_cleared hflat h
    have hreaches' : d₁.Reaches current root := by
      rcases hversion with hremove | ⟨-, rfl⟩
      · exact hreaches.mono (changesOnly_remove hflat.versionName hremove).keeps
      · exact hreaches
    constructor
    · refine hgone hflat.isName (seat_object hflat hfits hreaches') ?_
      unfold cleared at h
      split at h
      · next hremove =>
        cases h
        exact .inl hremove
      · next hremove =>
        cases h
        exact .inr ⟨hremove, rfl⟩
      · cases h
    · rw [hchanges.same _ object_ne_version.symm]
      exact hgone hflat.versionName (seat_version hfits hreaches) hversion

end Flat

theorem vacant_call {m : Bindings} {c : Call} {reply : c.Reply} (hflat : IsFlat c.key)
    (hfits : Fits root c.key) (hreaches : d.Reaches current root)
    (hm : m c.key = none → Vacant current root c.key d)
    (h : (driver root).Handles (Serves current) d ⟨c, reply⟩ d')
    (hunbound : m.after ⟨c, reply⟩ c.key = none) : Vacant current root c.key d' := by
  cases c with
  | upload key content =>
    cases reply with
    | ok v =>
      have hbound : m.after ⟨.upload key content, .ok v⟩ key = some (content, v) := if_pos rfl
      rw [Call.key, hbound] at hunbound
      cases hunbound
    | error e =>
      have hvacant := hm hunbound
      obtain ⟨d₁, -, hsame, hresult⟩ := upload_cases hflat h
      obtain rfl := hsame hreaches
      rcases hresult with ⟨fault, -, rfl⟩ | ⟨r, -, hkept⟩
      · exact hvacant
      · obtain ⟨d₂, hkept'⟩ := hvacant.kept hflat hfits hreaches content r
        cases hkept'.symm.trans hkept
  | download key =>
    obtain ⟨-, rfl⟩ := (comesTo_download hflat.isValidKey _ _).1 h
    exact hm hunbound
  | version key =>
    obtain ⟨-, rfl⟩ := (comesTo_version hflat.isValidKey _ _).1 h
    exact hm hunbound
  | delete key =>
    have hdeleted := performs_delete hflat h
    cases reply with
    | ok u => exact vacant_deleted hflat hfits hreaches hdeleted
    | error e =>
      have hvacant := hm hunbound
      cases (hvacant.deleted hflat hfits hreaches).symm.trans hdeleted

def Tidy (current : Location) (root : String) (d : Disk) (m : Bindings) : Prop :=
  ∀ key, IsFlat key → Fits root key → m key = none → Vacant current root key d

theorem Tidy.step {m : Bindings} {e : Event calls} (hflat : IsFlat e.op.key)
    (hreaches : d.Reaches current root) (hm : Tidy current root d m)
    (h : (driver root).Handles (Serves current) d e d') : Tidy current root d' (m.after e) := by
  intro key hkey hfits hunbound
  by_cases hother : key = e.op.key
  · subst hother
    exact vacant_call hkey hfits hreaches (hm _ hkey hfits) h hunbound
  · rw [Bindings.after_of_ne hother] at hunbound
    have hvacant := hm key hkey hfits hunbound
    have halike := alike_of_handles hflat hkey hother hreaches h
    exact ⟨(halike.same _ (.inl rfl)).trans hvacant.object,
      (halike.same _ (.inr rfl)).trans hvacant.version⟩

theorem Tidy.history {m : Bindings} {t : List (Event calls)} (hflat : ∀ e ∈ t, IsFlat e.op.key)
    (hreaches : d.Reaches current root) (hm : Tidy current root d m)
    (h : Passes ((driver root).Handles (Serves current)) d t d') :
    Tidy current root d' (t.foldl Bindings.after m) := by
  induction h generalizing m with
  | nil d => exact hm
  | @cons d d₁ d' e t he ht ih =>
    have hfirst : ∀ e' ∈ [e], IsFlat e'.op.key := fun e' he' =>
      List.mem_singleton.1 he' ▸ hflat e List.mem_cons_self
    exact ih (fun e he => hflat e (List.mem_cons_of_mem _ he))
      (reaches_history hfirst (.cons he (.nil d₁)) hreaches)
      (hm.step (hflat e List.mem_cons_self) hreaches he)

theorem tellsAbsence {bound : Option (Bytes × ObjectVersion)} (hflat : IsFlat key)
    (hfits : Fits root key) (hreaches : d.Reaches current root)
    (hkeeps : Keeps current root key d bound)
    (hvacant : bound = none → Vacant current root key d) :
    (driver root).TellsAbsence (Serves current) d key := by
  have hzero (v : ObjectVersion)
      (h : LocalDirectory.probed current d key (Path.join root key) = .ok v) :
      v.isZero = true ↔ bound = none := by
    obtain rfl := hkeeps.probed hflat h
    cases bound with
    | none => simp [ObjectVersion.zero, ObjectVersion.isZero]
    | some object =>
      have hnonzero := (hkeeps.recorded_some hflat).2
      simp [hnonzero]
  constructor
  · intro probed fetched d₁ d₂ hprobed hfetched
    obtain ⟨rfl, -⟩ : probed = LocalDirectory.probed current d key (Path.join root key) ∧ _ :=
      (comesTo_version hflat.isValidKey _ _).1 hprobed
    obtain ⟨rfl, -⟩ : fetched = LocalDirectory.fetched current d key (Path.join root key) ∧ _ :=
      (comesTo_download hflat.isValidKey _ _).1 hfetched
    constructor
    · rintro ⟨v, hv, hvzero⟩
      exact ⟨key, (hvacant ((hzero v hv).1 hvzero)).fetched hflat hfits hreaches⟩
    · rintro ⟨k, hk⟩
      exact probed_of_fetched hk
  · rintro probed deleted d₁ d₂ hprobed ⟨v, rfl, hvzero⟩ hdeleted
    obtain ⟨hv, -⟩ : Except.ok v = LocalDirectory.probed current d key (Path.join root key) ∧ _ :=
      (comesTo_version hflat.isValidKey _ _).1 hprobed
    have hresult := performs_delete hflat hdeleted
    rw [(hvacant ((hzero v hv.symm).1 hvzero)).deleted hflat hfits hreaches] at hresult
    exact ⟨(Prod.ext_iff.1 hresult).1.symm, (Prod.ext_iff.1 hresult).2.symm⟩

def crowded : Disk :=
  (Sample.disk.put ["states", "a"] (.file Sample.content)).put ["states", "a.version"]
    (.file Sample.record.encode)

theorem handles_upload_crowded : (driver "/states").Handles (Serves []) Sample.disk
    ⟨.upload "a" Sample.content, .ok Sample.version⟩ crowded :=
  (performs_upload (by decide)).2 ⟨Sample.record, Sample.drawn_record, rfl⟩

/-- Below an object there is no room for other objects, and a probe takes this for absence where
a download fails with a fault. -/
theorem probe_hides_fault :
    ∃ (t : List (Event calls)) (d : Disk),
      Passes ((driver "/states").Handles (Serves [])) Sample.disk t d ∧
        isValidKey "a/b" = true ∧ ¬ (driver "/states").TellsAbsence (Serves []) d "a/b" := by
  have hprobe : (driver "/states").Handles (Serves []) crowded ⟨.version "a/b", .ok .zero⟩
      crowded :=
    (comesTo_version (by decide) _ _).2 ⟨rfl, rfl⟩
  have hfetch : (driver "/states").Handles (Serves []) crowded
      ⟨.download "a/b", .error (.read "a/b" Fault.notADirectory.message)⟩ crowded :=
    (comesTo_download (by decide) _ _).2 ⟨rfl, rfl⟩
  refine ⟨_, crowded, .cons handles_upload_crowded (.nil crowded), by decide, fun h => ?_⟩
  obtain ⟨k, hk⟩ := (h.probe_iff _ _ _ _ hprobe hfetch).1 ⟨.zero, rfl, rfl⟩
  cases hk

end LocalDirectory

/-- Storage that forgets and buckets tell absence in one way for every key. So does a local
directory for keys that are names, after every history of calls on such keys. For any other key,
on any disk, a probe answers zero if a download does not find the object, and the converse fails
only where the path of the object cannot be looked up. -/
theorem drivers_tellAbsence (key : String) (current : Location) (root : String) :
    (∀ (σ : Type) (R : σ → Event effects → σ → Prop) (s : σ),
      Nowhere.driver.TellsAbsence R s key) ∧
    (∀ (σ : Type) (R : σ → Event effects → σ → Prop) (b : Bucket), b.Answered R →
      ∀ s : σ, b.driver.TellsAbsence R s key) ∧
    (∀ (d d' : Disk) (t : List (Event calls)),
      (∀ name, d.lookup (Disk.place current root ++ [name]) = none) →
      d.Reaches current root → (∀ e ∈ t, LocalDirectory.IsFlat e.op.key) →
      Passes ((LocalDirectory.driver root).Handles (Disk.Serves current)) d t d' →
      LocalDirectory.IsFlat key → LocalDirectory.Fits root key →
      (LocalDirectory.driver root).TellsAbsence (Disk.Serves current) d' key) ∧
    (∀ (d d₁ d₂ : Disk) (probed : Except Error ObjectVersion)
      (fetched : Except Error (Bytes × ObjectVersion)),
      LocalDirectory.isValidKey key = true →
      (LocalDirectory.driver root).Handles (Disk.Serves current) d ⟨.version key, probed⟩ d₁ →
      (LocalDirectory.driver root).Handles (Disk.Serves current) d ⟨.download key, fetched⟩ d₂ →
      ((∃ k, fetched = .error (.notFound k)) → ∃ v, probed = .ok v ∧ v.isZero = true) ∧
        ((∃ v, probed = .ok v ∧ v.isZero = true) → (∃ k, fetched = .error (.notFound k)) ∨
          d.exists? current (Path.join root key) = false ∧
            ∃ cause, fetched = .error (.read key cause))) := by
  refine ⟨fun _ R s => Nowhere.tellsAbsence R s key,
    fun _ _ _ hstore s => Bucket.tellsAbsence hstore s key, ?_, ?_⟩
  · intro d d' t hempty hreaches hcalls ht hflat hfits
    have hm : LocalDirectory.Represents current root d' (Bindings.ofHistory t) :=
      (LocalDirectory.represents_empty hempty).history hcalls ht
    have htidy : LocalDirectory.Tidy current root d' (Bindings.ofHistory t) :=
      LocalDirectory.Tidy.history (m := fun _ => none) hcalls hreaches
        (fun key _ _ _ => ⟨hempty key, hempty (key ++ ".version")⟩) ht
    exact LocalDirectory.tellsAbsence hflat hfits
      (LocalDirectory.reaches_history hcalls ht hreaches) (hm key hflat) (htidy key hflat hfits)
  · intro d d₁ d₂ probed fetched hkey hprobed hfetched
    obtain ⟨rfl, -⟩ : probed = LocalDirectory.probed current d key (Path.join root key) ∧ _ :=
      (LocalDirectory.comesTo_version hkey _ _).1 hprobed
    obtain ⟨rfl, -⟩ : fetched = LocalDirectory.fetched current d key (Path.join root key) ∧ _ :=
      (LocalDirectory.comesTo_download hkey _ _).1 hfetched
    constructor
    · rintro ⟨k, hk⟩
      exact LocalDirectory.probed_of_fetched hk
    · rintro ⟨v, hv, hzero⟩
      exact LocalDirectory.fetched_of_probed hv hzero

namespace Bucket.Sample

def bucket : Bucket := ⟨"states", "", none, ⟨defaultRegion, none, false, none⟩⟩

def present : ObjectReply := ⟨200, none, some "5d41402a", none, [123, 125], true⟩

def missing : ObjectReply := ⟨404, none, none, none, [], true⟩

def removed : ObjectReply := ⟨204, none, none, none, [], true⟩

def reply (there : Bool) (r : ObjectRequest) : ObjectReply × Bool :=
  match r.method with
  | .put => (present, true)
  | .delete => (removed, there && r.key != "dev.tfstate")
  | _ => (if there && r.key == "dev.tfstate" then present else missing, there)

def serves (there : Bool) : Event effects → Bool → Prop
  | ⟨.send r, answer⟩, there' => answer = .ok (reply there r).1 ∧ there' = (reply there r).2
  | _, there' => there' = there

theorem answered : bucket.Answered serves where
  alike := by
    rintro s s₁ s₂ key head get ⟨rfl, -⟩ ⟨rfl, -⟩
    rfl
  tagged := by
    rintro s s₁ key answer ⟨hanswer, -⟩ hsuccess
    obtain rfl := Except.ok.inj hanswer
    cases hthere : s && bucket.objectKey key == "dev.tfstate" with
    | true => exact ⟨"5d41402a", by simp [reply, request, hthere, present], by decide⟩
    | false => simp [reply, request, hthere, missing, isSuccess] at hsuccess
  absent := by
    rintro s s₁ s₂ key head deleted ⟨hhead, -⟩ hstatus ⟨rfl, rfl⟩
    obtain rfl := Except.ok.inj hhead
    refine ⟨⟨removed, rfl, by decide⟩, ?_⟩
    cases hthere : s && bucket.objectKey key == "dev.tfstate" with
    | true => simp [reply, request, hthere, present] at hstatus
    | false =>
      cases s with
      | false => rfl
      | true =>
        rw [Bool.true_and] at hthere
        simp [reply, request, bne, hthere]

end Bucket.Sample

theorem drivers_tellAbsence_dev :
    (∀ there, Bucket.Sample.bucket.driver.TellsAbsence Bucket.Sample.serves there "dev.tfstate") ∧
      (LocalDirectory.driver "/states").TellsAbsence (Disk.Serves [])
        LocalDirectory.Sample.stored "prod.tfstate" := by
  refine ⟨fun there => (drivers_tellAbsence "dev.tfstate" [] "/states").2.1 Bool
      Bucket.Sample.serves Bucket.Sample.bucket Bucket.Sample.answered there,
    (drivers_tellAbsence "prod.tfstate" [] "/states").2.2.1 _ _ LocalDirectory.Sample.history
      LocalDirectory.Sample.disk_empty (Disk.reaches_of_walk (l := ["states"]) rfl)
      (fun e he => ?_) (.cons LocalDirectory.Sample.handles_upload (.nil _))
      (LocalDirectory.isFlat_stateKey "prod" (by decide)) ?_⟩
  · exact List.mem_singleton.1 he ▸ LocalDirectory.Sample.isFlat_dev
  · exact ⟨by decide, by decide, by decide⟩

end Provision.Storage
