import Provision.Proofs.Lifecycle.Results
import Provision.Proofs.Storage.Viewing

/-!
# Times that stores tell

A store takes the time of an object from the reply of a bucket, from a version file, or from the
clock. What is read from a text is a time of the calendar, so that all times that a store tells
are, if those of the clock are.
-/

namespace Provision

open Provision.Host
open Provision.Task (executes_bind_ok executes_lift_ok executes_pure_ok)

/-- The clock told times of the calendar only. -/
def Host.Clocked (u : Journal) : Prop := ∀ time : Timestamp, ⟨.now, time⟩ ∈ u → time.Valid

theorem Host.Clocked.mono {u v : Journal} (h : Clocked v) (hu : u ⊆ v) : Clocked u :=
  fun time htime => h time (hu htime)

theorem HttpDate.valid_of_ofText? {text : String} {time : Timestamp}
    (h : ofText? text = some time) : time.Valid := by
  unfold ofText? read? at h
  -- The last of its parts but the time itself is a guard that asks for it.
  iterate 10 obtain ⟨_, -, h⟩ := Option.bind_eq_some_iff.1 h
  obtain ⟨_, hvalid, htime⟩ := Option.bind_eq_some_iff.1 h
  obtain rfl := Option.some.inj htime
  unfold guard at hvalid
  split at hvalid
  · next hguard => exact hguard.1
  · cases hvalid

namespace Storage

theorem ObjectVersion.dated_zero : ObjectVersion.zero.Dated := nofun

def told? : (c : Call) → c.Reply → Option ObjectVersion
  | .upload _ _, .ok v => some v
  | .download _, .ok (_, v) => some v
  | .version _, .ok v => some v
  | _, _ => none

def Driver.TellsDates (driver : Driver) : Prop :=
  ∀ (c : Call) (u : Journal) (reply : c.Reply) (v : ObjectVersion), Clocked u →
    (driver.answer c).Executes u reply → told? c reply = some v → v.Dated

namespace Bucket

variable {b : Bucket} {key : String} {u : Journal} {v : ObjectVersion}

theorem valid_of_modified {reply : ObjectReply} {time : Timestamp}
    (h : modified reply = some (some time)) : time.Valid := by
  unfold modified at h
  split at h
  · cases h
  · obtain ⟨time', hdate, heq⟩ := Option.map_eq_some_iff.1 h
    cases heq
    exact HttpDate.valid_of_ofText? hdate

theorem dated_of_replyVersion {reply : ObjectReply} (h : replyVersion reply = .ok v) : v.Dated := by
  unfold replyVersion at h
  split at h
  · cases h
  · next hmodified =>
    cases h
    rintro time rfl
    exact valid_of_modified hmodified

theorem dated_of_version (h : (b.version key).run.Executes u (.ok v)) : v.Dated := by
  obtain ⟨_, _, answer, -, h₁, -⟩ := executes_bind_ok.1 h
  split at h₁
  · next found hfound =>
    obtain ⟨-, rfl⟩ := executes_pure_ok.1 h₁
    cases answer with
    | error failure => cases hfound
    | ok reply => exact dated_of_replyVersion hfound
  · split at h₁
    · obtain ⟨-, rfl⟩ := executes_pure_ok.1 h₁
      exact ObjectVersion.dated_zero
    · cases (Task.executes_throw.1 h₁).2

theorem dated_of_download {content : Bytes}
    (h : (b.download key).run.Executes u (.ok (content, v))) : v.Dated := by
  obtain ⟨_, _, answer, -, h₁, -⟩ := executes_bind_ok.1 h
  split at h₁
  · split at h₁ <;> cases (Task.executes_throw.1 h₁).2
  · next reply v' heq =>
    split at h₁
    · obtain ⟨-, hsame⟩ := executes_pure_ok.1 h₁
      cases hsame
      cases answer with
      | error failure => cases heq
      | ok reply' =>
        dsimp only [Except.bind] at heq
        cases hversion : replyVersion reply' with
        | error failure =>
          rw [hversion] at heq
          cases heq
        | ok v'' =>
          rw [hversion] at heq
          cases heq
          exact dated_of_replyVersion hversion
    · cases (Task.executes_throw.1 h₁).2

theorem dated_of_upload {content : Bytes}
    (h : (b.upload key content).run.Executes u (.ok v)) : v.Dated := by
  obtain ⟨_, _, answer, -, h₁, -⟩ := executes_bind_ok.1 h
  cases answer with
  | error failure => cases (Task.executes_throw.1 h₁).2
  | ok _ =>
    obtain ⟨_, _, _, -, h₂, -⟩ := executes_bind_ok.1 h₁
    obtain ⟨_, _, v', hversion, h₃, -⟩ := executes_bind_ok.1 h₂
    dsimp only at h₃
    split at h₃
    · obtain ⟨_, _, _, hthrow, -, -⟩ := executes_bind_ok.1 h₃
      cases (Task.executes_throw.1 hthrow).2
    · obtain ⟨-, rfl⟩ := executes_pure_ok.1 h₃
      exact dated_of_version hversion

theorem tellsDates (b : Bucket) : (driver b).TellsDates := by
  intro c u reply v _ h htold
  cases c with
  | upload key content =>
    cases reply with
    | ok v' =>
      cases htold
      exact dated_of_upload h
    | error e => cases htold
  | download key =>
    cases reply with
    | ok found =>
      cases htold
      exact dated_of_download h
    | error e => cases htold
  | version key =>
    cases reply with
    | ok v' =>
      cases htold
      exact dated_of_version h
    | error e => cases htold
  | delete key => cases reply <;> cases htold

end Bucket

namespace LocalDirectory

variable {root key path : String} {u : Journal} {v : ObjectVersion}

theorem VersionRecord.record_preserves : record.Preserves (fun _ => True)
    fun draft => ∀ time, draft.lastModified = some time → time.Valid := by
  intro field hfield draft next room doc _ hdraft hread
  simp only [record, List.mem_cons, List.not_mem_nil, or_false] at hfield
  rcases hfield with rfl | rfl
  all_goals
    obtain ⟨value, hvalue, hnext⟩ := Json.Result.bind_eq_ok.1 hread
    obtain rfl := Except.ok.inj hnext
  · exact hdraft
  · rintro time heq
    cases heq
    exact Version.valid_of_timestamp hvalue

theorem VersionRecord.valid_of_decode? {raw : Bytes} {r : VersionRecord}
    (h : decode? raw = some r) : r.lastModified.Valid := by
  unfold decode? at h
  split at h
  · next hdecode =>
    cases h
    exact record_preserves.decoder nofun (fun _ _ => trivial) (Json.decode_ok hdecode) _ rfl
  · cases h

theorem dated_of_readVersion (h : (readVersion key path).run.Executes u (.ok v)) : v.Dated := by
  obtain ⟨_, _, answer, -, h₁, -⟩ := executes_bind_ok.1 h
  split at h₁
  · obtain ⟨-, rfl⟩ := executes_pure_ok.1 h₁
    exact ObjectVersion.dated_zero
  · cases (Task.executes_throw.1 h₁).2
  · split at h₁
    · cases (Task.executes_throw.1 h₁).2
    · next hrecord =>
      obtain ⟨-, rfl⟩ := executes_pure_ok.1 h₁
      rintro time heq
      cases heq
      exact VersionRecord.valid_of_decode? hrecord

theorem dated_of_version (h : (version root key).run.Executes u (.ok v)) : v.Dated := by
  obtain ⟨_, _, path, -, h₁, -⟩ := executes_bind_ok.1 h
  obtain ⟨_, _, found, -, h₂, -⟩ := executes_bind_ok.1 h₁
  split at h₂
  · exact dated_of_readVersion h₂
  · obtain ⟨-, rfl⟩ := executes_pure_ok.1 h₂
    exact ObjectVersion.dated_zero

theorem dated_of_download {content : Bytes}
    (h : (download root key).run.Executes u (.ok (content, v))) : v.Dated := by
  obtain ⟨_, _, path, -, h₁, -⟩ := executes_bind_ok.1 h
  obtain ⟨_, _, v', hversion, h₂, -⟩ := executes_bind_ok.1 h₁
  dsimp only at h₂
  split at h₂
  · obtain ⟨_, _, _, hthrow, -, -⟩ := executes_bind_ok.1 h₂
    cases (Task.executes_throw.1 hthrow).2
  · obtain ⟨_, _, answer, -, h₃, -⟩ := executes_bind_ok.1 h₂
    split at h₃
    · obtain ⟨-, heq⟩ := executes_pure_ok.1 h₃
      cases heq
      exact dated_of_readVersion hversion
    · cases (Task.executes_throw.1 h₃).2
    · cases (Task.executes_throw.1 h₃).2

theorem tellsDates (root : String) : (driver root).TellsDates := by
  intro c u reply v hclock h htold
  cases c with
  | upload key content =>
    cases reply with
    | ok v' =>
      cases htold
      obtain ⟨-, r, rfl, -, hnow, -⟩ := executes_upload h
      rintro time heq
      cases heq
      exact hclock _ hnow
    | error e => cases htold
  | download key =>
    cases reply with
    | ok found =>
      cases htold
      exact dated_of_download h
    | error e => cases htold
  | version key =>
    cases reply with
    | ok v' =>
      cases htold
      exact dated_of_version h
    | error e => cases htold
  | delete key => cases reply <;> cases htold

end LocalDirectory

theorem Nowhere.tellsDates : driver.TellsDates := by
  intro c u reply v hclock h htold
  cases c with
  | upload key content =>
    obtain ⟨_, _, token, -, h₁, rfl⟩ := Task.executes_lift_bind.1 h
    obtain ⟨_, _, time, hnow, h₂, rfl⟩ := Task.executes_lift_bind.1 h₁
    obtain rfl := Program.executes_one.1 hnow
    obtain ⟨-, rfl⟩ := Task.executes_pure.1 h₂
    cases htold
    rintro _ heq
    cases heq
    exact hclock time (by simp)
  | download key =>
    obtain ⟨-, rfl⟩ := Program.executes_done.1 h
    cases htold
  | version key =>
    obtain ⟨-, rfl⟩ := Program.executes_done.1 h
    cases htold
    exact ObjectVersion.dated_zero
  | delete key => cases reply <;> cases htold

theorem Driver.tellsDates_ofConfig {c : Config} {driver : Driver}
    (h : Driver.ofConfig c = .ok driver) : driver.TellsDates := by
  rcases ofConfig_cases h with ⟨b, rfl⟩ | ⟨root, rfl⟩ | rfl
  · exact Bucket.tellsDates b
  · exact LocalDirectory.tellsDates root
  · exact Nowhere.tellsDates

end Storage

end Provision
