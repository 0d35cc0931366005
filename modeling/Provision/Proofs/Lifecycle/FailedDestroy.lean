import Provision.Proofs.Lifecycle.Destruction
import Provision.Proofs.Lifecycle.Keeping
import Provision.Proofs.Lifecycle.Looking

/-!
# A destroy that fails half-way

An engine that fails to destroy everything may have rewritten the local copy of the state by then.
The destroy that makes up for a failed apply uploads this copy. A destroy that was asked for does
not: it ends at the failure, and the stored object still lists what is gone.
-/

namespace Provision.Lifecycle

open Record
open Provision.Task (executes_bind_ok executes_lift_ok executes_mapError_ok executes_pure_ok
  only_bind only_pure)

variable {a : Action} {f : StateFile} {t u : Record} {e : Error} {before after : Copies}

theorem object_of_looks {files : String → Prop} {d : Event steps} (hd : d.op.Looks files)
    (h : Changes f before d after) : after.object = before.object := by
  obtain ⟨s, reply⟩ := d
  cases s with
  | engine c =>
    cases c with
    | readOutput env => rw [show after = before from h]
    | _ => exact h
  | storage c =>
    cases c with
    | version key => rw [show after = before from h]
    | download key => rw [show after = before from h]
    | _ => exact hd.elim
  | host r =>
    cases r with
    | writeFile path content =>
      cases reply with
      | ok _ =>
        rw [show after = _ from h]
        split <;> rfl
      | error fault => exact h
    | readFile path =>
      cases reply with
      | ok content => rw [h.1]
      | error fault => rw [show after = before from h]
    | isFile path => rw [h.1]
    | _ => rw [show after = before from h]

theorem object_of_evolves {files : String → Prop} (ht : ∀ d ∈ t, d.op.Looks files)
    (h : Evolves f before t after) : after.object = before.object := by
  induction h with
  | nil c => rfl
  | cons hchange _ ih =>
    exact (ih fun d hd => ht d (List.mem_cons_of_mem _ hd)).trans
      (object_of_looks (ht _ List.mem_cons_self) hchange)

theorem Step.Looks.spares {files : String → Prop} {s : Step} (h : s.Looks files) : s.Spares := by
  cases s with
  | engine c =>
    cases c with
    | destroy env => exact h.elim
    | deleteWorkspace name => exact h.elim
    | _ => trivial
  | storage c =>
    cases c with
    | delete key => exact h.elim
    | _ => trivial
  | host r => exact h.2

theorem destroys_of_looks {files : String → Prop} (h : ∀ d ∈ t, d.op.Looks files) :
    destroys t = [] :=
  destroys_of_spares fun d hd => (h d hd).spares

theorem drops_of_looks {files : String → Prop} (h : ∀ d ∈ t, d.op.Looks files) : drops t = [] :=
  List.filterMap_eq_nil_iff.2 fun d hd => dropped?_of_spares (h d hd).spares

theorem uploads_of_looks {files : String → Prop} (h : ∀ d ∈ t, d.op.Looks files) :
    uploads t = [] := by
  refine List.filterMap_eq_nil_iff.2 fun d hd => ?_
  have hlooks := h d hd
  obtain ⟨s, reply⟩ := d
  cases s with
  | storage c =>
    cases c with
    | upload key content => exact hlooks.elim
    | _ => rfl
  | _ => rfl

def Copied (f : StateFile) (content : Bytes) (t : Record) : Prop :=
  ∃ version u line, ofStorage (.download f.key) (.ok (content, version)) ∈ u ∧
    t = u ++ [ofHost (.writeFile f.localPath content) (.ok ()), ofHost (.log line) ()]

theorem Copied.preceded {content : Bytes} (h : Copied f content u) : Copied f content (t ++ u) := by
  obtain ⟨version, v, line, hmem, rfl⟩ := h
  exact ⟨version, t ++ v, line, List.mem_append_right _ hmem, (List.append_assoc _ _ _).symm⟩

theorem Copied.copy {content : Bytes} (h : Copied f content t) (hc : Evolves f before t after) :
    after.copy = some content := by
  obtain ⟨version, u, line, -, rfl⟩ := h
  obtain ⟨c, -, hlast⟩ := evolves_append.1 hc
  cases hlast with
  | cons hwrite hrest =>
    obtain rfl : after = _ := evolves_one.1 hrest
    rw [show after = _ from hwrite, if_pos rfl]

namespace StateFile

theorem executes_writeLocal {content : Bytes} (h : (f.writeLocal content).run.Executes t (.ok ())) :
    ∃ u, t = u ++ [ofHost (.writeFile f.localPath content) (.ok ())] := by
  have hwrite {t : Record} (h : (attempt (host (.writeFile f.localPath content)) fun fault =>
      "Failed to write state file to '" ++ f.localPath ++ "': " ++ fault.message).run.Executes t
        (.ok ())) : t = [ofHost (.writeFile f.localPath content) (.ok ())] :=
    Program.executes_one.1 (executes_mapError_ok.1 h)
  unfold writeLocal at h
  cases hparent : Host.Path.parent? f.localPath with
  | none =>
    rw [hparent] at h
    exact ⟨[], hwrite h⟩
  | some directory =>
    rw [hparent] at h
    obtain ⟨u, v, _, -, hrest, rfl⟩ := executes_bind_ok.1 h
    exact ⟨u, by rw [hwrite hrest]⟩

theorem executes_download {version : Storage.ObjectVersion} (hzero : version.isZero = false)
    (h : f.download.run.Executes t (.ok version)) : ∃ content, Copied f content t := by
  obtain ⟨t₁, t₂, probed, -, h₁, rfl⟩ := executes_bind_ok.1 h
  cases hprobed : probed.isZero with
  | true =>
    rw [hprobed, if_pos rfl] at h₁
    obtain ⟨_, _, _, -, hpure, rfl⟩ := executes_bind_ok.1 h₁
    obtain ⟨-, rfl⟩ := executes_pure_ok.1 hpure
    rw [hprobed] at hzero
    cases hzero
  | false =>
    rw [hprobed, if_neg Bool.false_ne_true] at h₁
    obtain ⟨_, _, ⟨content, v⟩, hfetch, h₂, rfl⟩ := executes_bind_ok.1 h₁
    obtain ⟨_, _, _, hwrite, h₃, rfl⟩ := executes_bind_ok.1 h₂
    obtain ⟨_, _, ⟨⟩, hlog, h₄, rfl⟩ := executes_bind_ok.1 h₃
    obtain ⟨rfl, rfl⟩ := executes_pure_ok.1 h₄
    obtain rfl := Program.executes_one.1 hfetch
    obtain ⟨u, rfl⟩ := executes_writeLocal hwrite
    obtain rfl := Program.executes_one.1 (executes_lift_ok.1 hlog)
    refine ⟨content, Copied.preceded ⟨version,
      ofStorage (.download f.key) (.ok (content, version)) :: u,
      ⟨.info, "Downloaded state '" ++ f.key ++ "' (version " ++ version.display ++ ")"⟩,
      List.mem_cons_self, ?_⟩⟩
    rw [List.append_nil, List.append_assoc]
    rfl

end StateFile

namespace Action

theorem executes_hasState_stored (hb : a.backend = .stored f)
    (h : a.hasState.run.Executes t (.ok true)) : ∃ content, Copied f content t := by
  rw [hasState, hb] at h
  obtain ⟨t₁, _, _, -, h₁, rfl⟩ := executes_bind_ok.1 h
  obtain ⟨t₂, _, version, hdownload, hpure, rfl⟩ := executes_bind_ok.1 h₁
  obtain ⟨rfl, hfound⟩ := executes_pure_ok.1 hpure
  have hzero : version.isZero = false := by simpa using hfound.symm
  obtain ⟨content, hcopied⟩ := StateFile.executes_download hzero (executes_mapError_ok.1 hdownload)
  exact ⟨content, (List.append_nil t₂).symm ▸ hcopied.preceded⟩

theorem executes_past_looks {α β : Type} {files : String → Prop} {x : RunTask α}
    {g : α → RunTask β} {r : Except Error β} (hx : x.run.Only (Step.Looks files))
    (h : (x >>= g).run.Executes t r) (hd : destroys t = [.error e]) :
    ∃ t₁ t₂ y, x.run.Executes t₁ (.ok y) ∧ (∀ d ∈ t₁, d.op.Looks files) ∧
      (g y).run.Executes t₂ r ∧ destroys t₂ = [.error e] ∧ t = t₁ ++ t₂ := by
  rcases Task.executes_bind.1 h with ⟨_, he, -⟩ | ⟨t₁, t₂, y, h₁, h₂, rfl⟩
  · rw [destroys_of_looks (hx.executes he)] at hd
    cases hd
  · have hlooks := hx.executes h₁
    refine ⟨t₁, t₂, y, h₁, hlooks, h₂, ?_, rfl⟩
    rwa [destroys, List.filterMap_append, ← destroys, destroys_of_looks hlooks,
      List.nil_append] at hd

theorem executes_attemptDestroy_failed {r : Except Error RunResult}
    (h : a.attemptDestroy.run.Executes t r) (hd : .error e ∈ destroys t) :
    r = .error e ∧ t = [ofEngine (.destroy a.envName) (.error e)] := by
  obtain ⟨-, reply, u, rfl, hu⟩ := executes_attemptDestroy h
  have hdestroys : destroys (⟨.engine (.destroy a.envName), reply⟩ :: u) = [reply] :=
    congrArg (reply :: ·) hu
  obtain rfl := List.mem_singleton.1 (hdestroys ▸ hd)
  rcases Task.executes_bind.1 h with ⟨e', hdestroy, rfl⟩ | ⟨_, _, _, hdestroy, -, heq⟩
  · cases Program.executes_one.1 hdestroy
    exact ⟨rfl, rfl⟩
  · rw [Program.executes_one.1 hdestroy] at heq
    cases heq

theorem executes_destroy_failed (hb : a.backend = .stored f) {r : Except Error RunResult}
    (h : a.destroy.run.Executes t r) (hd : destroys t = [.error e]) :
    r = .error e ∧ ∃ u content, (∀ d ∈ u, d.op.Looks a.IsCopy) ∧ Copied f content u ∧
      t = u ++ [ofEngine (.destroy a.envName) (.error e)] := by
  have hlog {ε : Type} (level : Host.Level) (message : String) :
      (Task.lift (log level message) : Task steps ε Unit).run.Only (Step.Looks a.IsCopy) :=
    only_log (fun _ => ⟨trivial, trivial⟩) level message
  obtain ⟨t₁, _, _, -, hlooks₁, h₁, hd₁, rfl⟩ :=
    executes_past_looks (only_validate : a.validate.run.Only (Step.Looks a.IsCopy)) h hd
  obtain ⟨t₂, _, _, -, hlooks₂, h₂, hd₂, rfl⟩ := executes_past_looks (hlog _ _) h₁ hd₁
  obtain ⟨t₃, t₄, found, hfound, hlooks₃, h₃, hd₃, rfl⟩ :=
    executes_past_looks (only_hasState a.mayLook_looks) h₂ hd₂
  cases found with
  | false =>
    obtain ⟨_, _, _, -, -, h₄, hd₄, -⟩ := executes_past_looks (hlog _ _) h₃ hd₃
    obtain ⟨rfl, -⟩ := Task.executes_pure.1 h₄
    cases hd₄
  | true =>
    obtain ⟨content, hcopied⟩ := executes_hasState_stored hb hfound
    obtain ⟨rfl, rfl⟩ : r = .error e ∧ t₄ = [ofEngine (.destroy a.envName) (.error e)] := by
      rcases Task.executes_bind.1 h₃ with ⟨_, he, rfl⟩ | ⟨u, w, result, hdone, hrest, rfl⟩
      · obtain ⟨heq, rfl⟩ := executes_attemptDestroy_failed (e := e) he (by simp [hd₃])
        cases heq
        exact ⟨rfl, rfl⟩
      · have hw : destroys w = [] :=
          destroys_of_looks ((only_bind (hlog _ _) fun _ => only_pure).executes hrest)
        rw [destroys, List.filterMap_append, ← destroys, ← destroys, hw, List.append_nil] at hd₃
        cases (executes_attemptDestroy_failed (e := e) hdone (by simp [hd₃])).1
    refine ⟨rfl, t₁ ++ (t₂ ++ t₃), content, fun d hdmem => ?_, hcopied.preceded.preceded, ?_⟩
    · rcases List.mem_append.1 hdmem with hmem | hmem
      · exact hlooks₁ d hmem
      · rcases List.mem_append.1 hmem with hmem | hmem
        · exact hlooks₂ d hmem
        · exact hlooks₃ d hmem
    · rw [List.append_assoc, List.append_assoc]

end Action

theorem UploadFailed.mono (h : UploadFailed f u) (hsub : u ⊆ t) : UploadFailed f t := by
  rcases h with ⟨cause, hmem⟩ | ⟨fault, hmem⟩
  · obtain ⟨d, hd, heq⟩ := List.mem_filterMap.1 hmem
    exact .inl ⟨cause, List.mem_filterMap.2 ⟨d, hsub hd, heq⟩⟩
  · exact .inr ⟨fault, hsub hmem⟩

theorem evolves_log {level : Host.Level} {message : String} {y : Unit}
    (h : (log level message).Executes t y) (hc : Evolves f before t after) : after = before := by
  obtain rfl := Program.executes_one.1 h
  exact evolves_one.1 hc

theorem StateFile.executes_readLocal {r : Except Storage.Error Bytes}
    (h : f.readLocal.run.Executes t r) :
    (∃ content, r = .ok content ∧ t = [ofHost (.readFile f.localPath) (.ok content)]) ∨
      ∃ fault, t = [ofHost (.readFile f.localPath) (.error fault)] := by
  obtain ⟨reply, hreply, rfl⟩ := Task.executes_mapError.1 h
  obtain rfl := Program.executes_one.1 hreply
  cases reply with
  | ok content => exact .inl ⟨content, rfl, rfl⟩
  | error fault => exact .inr ⟨fault, rfl⟩

theorem StateFile.upload_saves {r : Except Storage.Error Storage.ObjectVersion}
    (h : f.upload.run.Executes t r) (hc : Evolves f before t after) :
    UploadFailed f t ∨ ∃ content, after = ⟨some content, some content⟩ := by
  rcases Task.executes_bind.1 h with ⟨_, hread, -⟩ | ⟨t₁, t₂, content, hread, h₁, rfl⟩
  · rcases executes_readLocal hread with ⟨_, heq, -⟩ | ⟨fault, rfl⟩
    · cases heq
    · exact .inl (.inr ⟨fault, List.mem_singleton_self _⟩)
  · rcases executes_readLocal hread with ⟨_, heq, rfl⟩ | ⟨fault, rfl⟩
    · cases heq
      obtain ⟨between, hbefore, hafter⟩ := evolves_append.1 hc
      obtain ⟨rfl, hcopy⟩ := evolves_one.1 hbefore
      rcases Task.executes_bind.1 h₁ with ⟨cause, hfail, -⟩ | ⟨u, v, version, hdone, h₂, rfl⟩
      · obtain rfl := Program.executes_one.1 hfail
        exact .inl (.inl ⟨cause, List.mem_singleton_self _⟩)
      · right
        obtain rfl := Program.executes_one.1 hdone
        obtain ⟨stored, hstored, hlast⟩ := evolves_append.1 hafter
        obtain ⟨_, w, hpure, rfl⟩ := Program.executes_step.1 h₂
        obtain ⟨rfl, -⟩ := Task.executes_pure.1 hpure
        obtain rfl : after = stored := evolves_one.1 hlast
        have hchange : Changes f between (ofStorage (.upload f.key content) (.ok version)) after :=
          evolves_one.1 hstored
        refine ⟨content, ?_⟩
        rw [show after = _ from hchange, if_pos rfl, ← hcopy rfl]
    · exact .inl (.inr ⟨fault, List.mem_append_left _ (List.mem_singleton_self _)⟩)

theorem Action.preserve_saves (hb : a.backend = .stored f) {y : Unit}
    (h : a.preservePartialState.Executes t y) (hc : Evolves f before t after) {content : Bytes}
    (hcopy : after.copy = some content) : UploadFailed f t ∨ after.object = some content := by
  rw [preservePartialState, hb] at h
  obtain ⟨_, t₁, found, hask, hrest, rfl⟩ := Program.executes_bind.1 h
  obtain rfl := Program.executes_one.1 hask
  cases hc with
  | cons hlook hc =>
    obtain ⟨rfl, hfound⟩ := hlook
    cases found with
    | false =>
      obtain ⟨rfl, -⟩ := Program.executes_done.1 hrest
      cases hc
      rw [hcopy] at hfound
      cases hfound rfl
    | true =>
      obtain ⟨t₂, t₃, r, hupload, hsay, rfl⟩ := Program.executes_bind.1 hrest
      obtain ⟨between, hbetween, hafter⟩ := (evolves_append (t := t₂)).1 hc
      have hlog : after = between := by
        cases r with
        | ok version => exact evolves_log hsay hafter
        | error cause => exact evolves_log hsay hafter
      subst hlog
      rcases StateFile.upload_saves hupload hbetween with hfailed | ⟨saved, rfl⟩
      · refine .inl (hfailed.mono fun d hd => ?_)
        exact List.mem_append_right _ (List.mem_append_left _ hd)
      · exact .inr hcopy

theorem Action.executes_recover_failed {failure report : Error}
    (h : (a.recover failure).Executes t report) (hd : destroys t = [.error e]) :
    ∃ u y, a.preservePartialState.Executes u y ∧ u <:+ t := by
  unfold recover at h
  split at h
  · obtain ⟨rfl, -⟩ := Program.executes_done.1 h
    cases hd
  · split at h
    · obtain ⟨t₁, t₂, _, hkeep, hdone, rfl⟩ := Program.executes_bind.1 h
      obtain ⟨rfl, -⟩ := Program.executes_done.1 hdone
      rw [List.append_nil, destroys_of_spares (spares_preservePartialState.executes hkeep)] at hd
      cases hd
    · obtain ⟨t₁, rfl, h₁⟩ := executes_log_then h
      obtain ⟨t₂, t₃, outcome, hdestroy, h₂, rfl⟩ := Program.executes_bind.1 h₁
      cases outcome with
      | ok result =>
        obtain ⟨u, rfl, hdone⟩ := executes_log_then h₂
        obtain ⟨rfl, -⟩ := Program.executes_done.1 hdone
        have hfailed : destroys t₂ ++ [] = [.error e] := List.filterMap_append.symm.trans hd
        rw [List.append_nil] at hfailed
        cases (executes_attemptDestroy_failed (e := e) hdestroy (by simp [hfailed])).1
      | error second =>
        obtain ⟨t₄, rfl, h₃⟩ := executes_log_then h₂
        obtain ⟨t₅, t₆, y, hkeep, hdone, rfl⟩ := Program.executes_bind.1 h₃
        obtain ⟨rfl, -⟩ := Program.executes_done.1 hdone
        refine ⟨t₅, y, hkeep, ?_⟩
        rw [List.append_nil]
        exact ((List.suffix_cons _ _).trans (List.suffix_append t₂ _)).trans (List.suffix_cons _ _)

/-- After a failed destroy that was to make up for a failed apply, the object is the local copy,
unless the upload failed. -/
theorem Action.recover_saves (hb : a.backend = .stored f) {failure report : Error}
    (h : (a.recover failure).Executes t report) (hd : destroys t = [.error e])
    (hc : Evolves f before t after) {content : Bytes} (hcopy : after.copy = some content) :
    UploadFailed f t ∨ after.object = some content := by
  obtain ⟨u, y, hkeep, v, rfl⟩ := executes_recover_failed h hd
  obtain ⟨between, -, hafter⟩ := evolves_append.1 hc
  exact (preserve_saves hb hkeep hafter hcopy).imp_left fun hfailed =>
    hfailed.mono (List.subset_append_right v u)

/-- What the store hands out is what it holds. -/
def HandsOut (f : StateFile) (object : Option Bytes) (t : Record) : Prop :=
  ∀ content version, ofStorage (.download f.key) (.ok (content, version)) ∈ t →
    object = some content

/-- A destroy whose engine fails reports the failure at once: nothing is uploaded or removed, and
the object stays what it was. It was in step with the local copy before the engine was asked, and
is in step with it on return only if the engine left the copy alone or took it away. The same
failure of a destroy that makes up for a failed apply is followed by an upload, and only a failure
of that leaves the two out of step. -/
theorem failed_destroy_uploads_nothing (hb : a.backend = .stored f) :
    (∀ t r before after, a.destroy.run.Executes t r → destroys t = [.error e] →
      Evolves f before t after → HandsOut f before.object t →
      r = .error e ∧ uploads t = [] ∧ drops t = [] ∧
      ∃ u content, t = u ++ [ofEngine (.destroy a.envName) (.error e)] ∧
        Evolves f before u ⟨some content, some content⟩ ∧ after.object = some content ∧
        ((∀ left, after.copy = some left → after.object = some left) ↔
          after.copy = none ∨ after.copy = some content)) ∧
    ∀ failure t report before after, (a.recover failure).Executes t report →
      destroys t = [.error e] → Evolves f before t after →
      ∀ left, after.copy = some left → UploadFailed f t ∨ after.object = some left := by
  constructor
  · intro t r before after h hd hc hhands
    obtain ⟨rfl, u, content, hlooks, hcopied, rfl⟩ := Action.executes_destroy_failed hb h hd
    obtain ⟨⟨copy, object⟩, hbefore, hlast⟩ := evolves_append.1 hc
    obtain rfl : copy = some content := hcopied.copy hbefore
    obtain ⟨version, v, line, hmem, rfl⟩ := hcopied
    have hkept : object = before.object := object_of_evolves hlooks hbefore
    have hobject : before.object = some content :=
      hhands content version (List.mem_append_left _ (List.mem_append_left _ hmem))
    obtain rfl : object = some content := hkept.trans hobject
    have hafter : after.object = some content := evolves_one.1 hlast
    refine ⟨rfl, ?_, ?_, _, content, rfl, hbefore, hafter, ?_⟩
    · rw [uploads, List.filterMap_append, ← uploads, uploads_of_looks hlooks]
      rfl
    · rw [drops, List.filterMap_append, ← drops, drops_of_looks hlooks]
      rfl
    · rw [hafter]
      cases after.copy with
      | none => simp
      | some left => simp [eq_comm]
  · intro failure t report before after h hd hc left hcopy
    exact Action.recover_saves hb h hd hc hcopy

namespace Sample

def givenUp : Record := [
  ofLog .info "== Terraform Destroy: dev ==",
  ofEngine .initLocal (.ok ()),
  ofStorage (.version "dev.tfstate") (.ok ⟨"7", none⟩),
  ofStorage (.download "dev.tfstate") (.ok ([4], ⟨"7", none⟩)),
  ofHost (.makeDirectories "/") (.ok ()),
  ofHost (.writeFile "/terraform.tfstate" [4]) (.ok ()),
  ofLog .info "Downloaded state 'dev.tfstate' (version 7)",
  ofEngine (.destroy "dev") (.error (.engine "terraform destroy" "exit status 1" "quota"))]

theorem executes_givenUp : keeper.destroy.run.Executes givenUp
    (.error (.engine "terraform destroy" "exit status 1" "quota")) :=
  .step _ (.step _ (.step _ (.step _ (.step _ (.step _ (.step _ (.step _ (.done _))))))))

theorem evolves_givenUp : Evolves file ⟨none, some [4]⟩ givenUp ⟨some [5], some [4]⟩ := by
  have hdestroy : Changes file ⟨some [4], some [4]⟩ (ofEngine (.destroy "dev")
      (.error (.engine "terraform destroy" "exit status 1" "quota"))) ⟨some [5], some [4]⟩ := rfl
  have hlast : Evolves file ⟨some [4], some [4]⟩ (givenUp.drop 6) ⟨some [5], some [4]⟩ :=
    .cons rfl (.cons hdestroy (.nil _))
  exact .cons rfl (.cons rfl (.cons rfl (.cons rfl (.cons rfl (.cons rfl hlast)))))

theorem handsOut_givenUp : HandsOut file (some [4]) givenUp := by
  intro content version hmem
  simp [givenUp, ofStorage, ofLog, ofEngine, ofHost] at hmem
  simp [hmem]

def salvaged : Record := [
  ofLog .warn "Cleaning up partially created resources...",
  ofEngine (.destroy "dev") (.error (.engine "terraform destroy" "exit status 1" "quota")),
  ofLog .error "Failed to run terraform destroy",
  ofHost (.isFile "/terraform.tfstate") true,
  ofHost (.readFile "/terraform.tfstate") (.ok [5]),
  ofStorage (.upload "dev.tfstate" [5]) (.ok ⟨"8", none⟩),
  ofLog .info "Uploaded state 'dev.tfstate' (version 8)",
  ofLog .warn "Uploaded partial state to 'dev.tfstate' (version 8)"]

def eager : Action where
  backend := .stored file
  envName := "dev"
  deleteOnFailure := true

theorem executes_salvaged :
    (eager.recover (.applyFailed (.engine "terraform apply" "exit status 1" "quota"))).Executes
      salvaged (.rollbackFailed (.engine "terraform apply" "exit status 1" "quota")
        (.engine "terraform destroy" "exit status 1" "quota")) :=
  .step _ (.step _ (.step _ (.step _ (.step _ (.step _ (.step _ (.step _ (.done _))))))))

theorem evolves_salvaged : Evolves file ⟨some [4], some [4]⟩ salvaged ⟨some [5], some [5]⟩ := by
  have hdestroy : Changes file ⟨some [4], some [4]⟩ (ofEngine (.destroy "dev")
      (.error (.engine "terraform destroy" "exit status 1" "quota"))) ⟨some [5], some [4]⟩ := rfl
  have hlast : Evolves file ⟨some [5], some [5]⟩ (salvaged.drop 6) ⟨some [5], some [5]⟩ :=
    .cons rfl (.cons rfl (.nil _))
  exact .cons rfl (.cons hdestroy (.cons rfl (.cons ⟨rfl, fun _ => rfl⟩
    (.cons ⟨rfl, fun _ => rfl⟩ (.cons rfl hlast)))))

theorem failed_destroy_uploads_nothing_dev :
    uploads givenUp = [] ∧
      (¬ ∀ left, (some [5] : Option Bytes) = some left → (some [4] : Option Bytes) = some left) ∧
      (UploadFailed file salvaged ∨ (some [5] : Option Bytes) = some [5]) := by
  obtain ⟨-, huploads, -, u, content, -, -, hobject, hinStep⟩ :=
    (failed_destroy_uploads_nothing (a := keeper) rfl).1 givenUp _ _ _ executes_givenUp rfl
      evolves_givenUp handsOut_givenUp
  refine ⟨huploads, fun h => ?_, ?_⟩
  · obtain rfl : [4] = content := Option.some.inj hobject
    exact absurd (hinStep.1 h) (by decide)
  · exact (failed_destroy_uploads_nothing (a := eager) rfl).2 _ _ _ _ _ executes_salvaged rfl
      evolves_salvaged _ rfl

/-- An object can be left behind the local copy without any upload having failed. -/
theorem failed_destroy_forgets :
    ∃ (a : Action) (f : StateFile) (t : Record) (r : Except Error RunResult) (e : Error)
      (before after : Copies) (left : Bytes),
      a.backend = .stored f ∧ a.destroy.run.Executes t r ∧ destroys t = [.error e] ∧
        Evolves f before t after ∧ HandsOut f before.object t ∧ ¬ UploadFailed f t ∧
        after.copy = some left ∧ after.object ≠ some left := by
  refine ⟨keeper, file, givenUp, _, _, _, _, [5], rfl, executes_givenUp, rfl, evolves_givenUp,
    handsOut_givenUp, ?_, rfl, by decide⟩
  rintro (⟨cause, hmem⟩ | ⟨fault, hmem⟩)
  · cases hmem
  · simp [givenUp, ofStorage, ofLog, ofEngine, ofHost] at hmem

end Sample

end Provision.Lifecycle
