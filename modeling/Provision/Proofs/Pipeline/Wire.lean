import Provision.Proofs.Pipeline.Replies
import Provision.Proofs.Storage.Dates

/-!
# Responses on the wire

A response is printed as one line, and the line reads back as the response. This takes a version
that can be written: one that was built from what the store or the engine has told, or one that was
read from the request.
-/

namespace Provision

open Provision.Host
open Provision.Program (Backed)
open Provision.Task (executes_bind_ok executes_lift_ok executes_mapError_ok executes_pure_ok)

def Text.IsLine (text : String) : Prop :=
  ∃ body : String, text = body ++ "\n" ∧ '\n' ∉ body.toList

theorem Response.isLine_line (r : Response) : Text.IsLine r.line := by
  refine ⟨r.toJson.compact, rfl, ?_⟩
  rw [Json.Value.compact, String.toList_ofList]
  exact Json.lineEnd_notMem_write _ r.wordy_toJson

namespace Pipeline

theorem Request.record_preserves : record.Preserves Json.Document.IsWordly
    fun p => ∀ v, p.value.version = some v → v.Writable := by
  intro field hfield draft next room doc hdoc hdraft hread
  simp only [record, List.mem_cons, List.not_mem_nil, or_false] at hfield
  rcases hfield with rfl | rfl | rfl
  all_goals
    obtain ⟨value, hvalue, hnext⟩ := Json.Result.bind_eq_ok.1 hread
    obtain rfl := Except.ok.inj hnext
  · exact hdraft
  · rintro v rfl
    unfold Json.Decoder.optional at hvalue
    split at hvalue
    · cases hvalue
    · obtain ⟨w, hw, heq⟩ := Json.Result.map_eq_ok.1 hvalue
      obtain rfl := Option.some.inj heq
      exact Version.writable_of_decoder hdoc.2 hw
  · exact hdraft

theorem Request.writable_of_ofBytes {raw : Bytes} {request : Request} {v : Version}
    (h : ofBytes raw = .ok request) (hv : request.version = some v) : v.Writable := by
  unfold ofBytes at h
  split at h
  · next hdecode =>
    cases h
    obtain ⟨p, hp, hvalue⟩ := Json.Result.bind_eq_ok.1 (Json.decode_ok hdecode)
    obtain rfl := Except.ok.inj hvalue
    exact record_preserves.decoder nofun (Json.Document.isWordly_children _ _) hp v hv
  · cases h

namespace Prepared

variable {s : Settings} {scratch : String} {p : Prepared} {t : Lifecycle.Record} {u : Journal}

theorem tellsDates_of_draft (h : draft s scratch = .ok p) : p.driver.TellsDates := by
  unfold draft at h
  split at h
  · split at h
    · cases h
    · next hdriver =>
      cases h
      exact Storage.Driver.tellsDates_ofConfig hdriver
  · cases h
    exact Storage.Nowhere.tellsDates

theorem dated_of_backed (hdriver : p.driver.TellsDates) (hu : Clocked u)
    (h : Backed p.answer t u) : Lifecycle.Dated t where
  uploads key content v hmem := by
    obtain ⟨w, hw, hexec⟩ := h.mem hmem
    exact hdriver (.upload key content) w (.ok v) v (hu.mono hw.subset) hexec rfl
  downloads key content v hmem := by
    obtain ⟨w, hw, hexec⟩ := h.mem hmem
    exact hdriver (.download key) w (.ok (content, v)) v (hu.mono hw.subset) hexec rfl

end Prepared

theorem FreshlyRead.writable {request : Request} {requested version : Version} {u : Journal}
    (h : FreshlyRead request requested u version) (hu : Clocked u) : version.Writable := by
  cases h with
  | read _ hp hbacked hv hfound htells htoken =>
    have hdated := Prepared.dated_of_backed (Prepared.tellsDates_of_draft hp)
      (hu.mono hv.subset) hbacked
    have hfetched : Lifecycle.Fetched _ false _ _ := .told hfound htells htoken
    exact Lifecycle.writable_of_fetched hdated hfetched

namespace Command

variable {directory : String} {s : Settings} {p : Prepared} {u : Journal}

theorem writable_of_perform {scratch : String} {result : RunResult}
    (hp : Prepared.draft s scratch = .ok p) (hu : Clocked u)
    (h : (perform s p).run.Executes u (.ok result)) : result.version.Writable := by
  have hdated {α : Type} {x : Lifecycle.RunTask α} {a : α} {v : Journal} (hv : v ⊆ u)
      (hrun : (p.run x).run.Executes v (.ok a)) :
      ∃ t, x.run.Executes t (.ok a) ∧ Lifecycle.Dated t := by
    obtain ⟨t, ht, hbacked⟩ := Prepared.executes_run hrun
    exact ⟨t, ht, Prepared.dated_of_backed (Prepared.tellsDates_of_draft hp) (hu.mono hv) hbacked⟩
  unfold perform at h
  split at h
  · obtain ⟨_, _, _, -, h₁, rfl⟩ := executes_bind_ok.1 h
    obtain ⟨v, _, fetched, hfetch, h₂, rfl⟩ := executes_bind_ok.1 h₁
    obtain ⟨-, rfl⟩ := executes_pure_ok.1 h₂
    obtain ⟨t, ht, hdates⟩ := hdated (fun e he => by simp [he]) (executes_mapError_ok.1 hfetch)
    have hwritable := Lifecycle.writable_of_fetched hdates (Lifecycle.Action.fetched ht)
    exact ⟨hwritable.serial, hwritable.token, hwritable.time⟩
  · cases haction : s.action with
    | create =>
      simp only [haction] at h
      obtain ⟨applying, happly, rfl⟩ := executes_create h
      obtain ⟨t, ht, hdates⟩ := hdated (fun e he => by simp [he]) happly
      exact Lifecycle.writable_of_apply hdates ht
    | destroy =>
      simp only [haction] at h
      obtain ⟨_, _, _, -, h₁, -⟩ := executes_bind_ok.1 h
      obtain ⟨_, _, destroyed, hdestroy, h₂, -⟩ := executes_bind_ok.1 h₁
      obtain ⟨_, _, _, -, h₃, -⟩ := executes_bind_ok.1 h₂
      obtain ⟨-, rfl⟩ := executes_pure_ok.1 h₃
      obtain ⟨t, ht, -⟩ := Prepared.executes_run (executes_mapError_ok.1 hdestroy)
      rw [Lifecycle.empty_of_destroy ht]
      exact Version.writable_empty _

theorem answers_put_writable :
    Answers (fun u response => Clocked u → response.version.Writable) (put directory) :=
  answers_put fun _ _ _ _ _ _ _ hp h ht hu => writable_of_perform hp (hu.mono ht) h

theorem answers_get_writable :
    Answers (fun u response => Clocked u → response.version.Writable) (get directory) := by
  refine answers_get.mono ?_
  rintro u response ⟨request, requested, ⟨raw, _, rfl, hraw⟩, hversion, hreplies⟩ hu
  have hwritable := Request.writable_of_ofBytes hraw hversion
  cases hreplies with
  | bare _ _ _ => exact hwritable
  | echoed _ _ hsame => rwa [hsame]
  | told _ _ hread => exact hread.writable hu

end Command

end Pipeline

end Provision
