import Provision.Pipeline.Settings
import Provision.Proofs.Storage.BucketKeeping

/-!
# Environments that share a bucket

The object of an environment's state lies below the bucket's folder, without the slashes that its
name begins with; without a folder its key is the name as it is. So two environments have the
objects of their own exactly if their names differ, and, below a folder, still differ without the
slashes at their beginnings. Then whatever is done to other environments, no request names the
object, and a store that keeps objects keeps it.
-/

namespace Provision

open Provision.Host
open Provision.Lifecycle (StateFile)

namespace Text

theorem toList_trimCharStart (c : Char) (s : String) :
    (trimCharStart c s).toList = s.toList.dropWhile (· == c) :=
  String.toList_ofList

theorem trimCharStart_append {c d : Char} (hd : d ≠ c) (s : String) (tail : List Char) :
    trimCharStart c (s ++ String.ofList (d :: tail)) =
      trimCharStart c s ++ String.ofList (d :: tail) := by
  have hstop : (d :: tail).dropWhile (· == c) = d :: tail :=
    List.dropWhile_cons_of_neg (by simpa using hd)
  apply String.toList_injective
  simp only [toList_trimCharStart, String.toList_append, String.toList_ofList,
    List.dropWhile_append, hstop]
  split
  · next hempty => rw [List.isEmpty_iff.1 hempty, List.nil_append]
  · rfl

end Text

namespace Storage.Bucket

theorem stateKey_injective : Function.Injective StateFile.stateKey := by
  intro env other h
  exact (String.append_left_inj ".tfstate").1 h

theorem trimCharStart_stateKey (env : String) :
    Text.trimCharStart '/' (StateFile.stateKey env) =
      StateFile.stateKey (Text.trimCharStart '/' env) :=
  Text.trimCharStart_append (by decide) env _

theorem joinKey_inj {folder key other : String} :
    joinKey folder key = joinKey folder other ↔
      if Text.trimChar '/' folder = "" then key = other
      else Text.trimCharStart '/' key = Text.trimCharStart '/' other := by
  simp only [joinKey, String.isEmpty_iff]
  split
  · rfl
  · exact String.append_right_inj _

/-- The environments have objects of their own. -/
def ToldApart (b : Bucket) (env other : String) : Prop :=
  if Text.trimChar '/' b.folder = "" then env ≠ other
  else Text.trimCharStart '/' env ≠ Text.trimCharStart '/' other

instance (b : Bucket) (env other : String) : Decidable (b.ToldApart env other) :=
  inferInstanceAs (Decidable (ite _ _ _))

variable {b : Bucket} {env other : String}

theorem objectKey_ne_iff :
    b.objectKey (StateFile.stateKey env) ≠ b.objectKey (StateFile.stateKey other) ↔
      b.ToldApart env other := by
  rw [objectKey, objectKey, Ne, joinKey_inj, ToldApart]
  split
  · rw [stateKey_injective.eq_iff]
  · rw [trimCharStart_stateKey, trimCharStart_stateKey, stateKey_injective.eq_iff]

/-- The request is about no object, or about another one. -/
def Avoids (object : String) : Request → Prop
  | .send r => r.key ≠ object
  | _ => True

theorem avoids_object {c : Call} (hkey : c.key = StateFile.stateKey env)
    (h : b.ToldApart env other) :
    (b.driver.answer c).Only (Avoids (b.objectKey (StateFile.stateKey other))) := by
  refine (only_concerns b c).mono fun r hr => ?_
  cases r with
  | send q =>
    obtain ⟨-, hq, -⟩ := hr
    rw [Avoids, hq, hkey]
    exact objectKey_ne_iff.2 h
  | _ => trivial

/-- Which environments have no object in common with this one, and what that means: no request of
theirs is about its object, and a store that keeps objects has the same one after any of their
calls. -/
theorem environments_apart (b : Bucket) (other : String) :
    (∀ env, b.objectKey (StateFile.stateKey env) ≠ b.objectKey (StateFile.stateKey other) ↔
      b.ToldApart env other) ∧
    (∀ (env : String) (c : Call), b.ToldApart env other → c.key = StateFile.stateKey env →
      (b.driver.answer c).Only (Avoids (b.objectKey (StateFile.stateKey other)))) ∧
    ∀ {σ : Type} {R : σ → Event effects → σ → Prop} {view : σ → String → Option Stored},
      b.KeptBy R view → ∀ (t : List (Event calls)) (s s' : σ),
        Passes (b.driver.Handles R) s t s' →
        (∀ e ∈ t, ∃ env, b.ToldApart env other ∧ e.op.key = StateFile.stateKey env) →
        view s' (b.objectKey (StateFile.stateKey other)) =
          view s (b.objectKey (StateFile.stateKey other)) := by
  refine ⟨fun env => objectKey_ne_iff, fun env c h hkey => avoids_object hkey h,
    fun hstore t s s' ht hothers => hstore.view_run (fun e he => ?_) ht⟩
  obtain ⟨env, hapart, hkey⟩ := hothers e he
  exact .inr (hkey ▸ objectKey_ne_iff.2 hapart)

end Storage.Bucket

namespace Storage.Bucket.Sample

open Provision.Pipeline

def shelf : Bucket := { bucket with folder := "/envs/" }

theorem keptBy_shelf : shelf.KeptBy stores id where
  put := keptBy.put
  delete := keptBy.delete
  found := keptBy.found
  missing := keptBy.missing
  answers := keptBy.answers
  looked := keptBy.looked
  elsewhere := keptBy.elsewhere
  logged := keptBy.logged

def shelved : String → Option Stored :=
  Function.update (fun _ => none) "envs/dev.tfstate" (some (stored content))

theorem handles_delete {key : String} (hkey : shelf.objectKey key ≠ "")
    (objects : String → Option Stored) :
    shelf.driver.Handles stores objects ⟨.delete key, .ok ()⟩
      (Function.update objects (shelf.objectKey key) none) := by
  have hanswer : stores objects ⟨.send (shelf.request .delete key), .ok removed⟩
      (Function.update objects (shelf.objectKey key) none) := ⟨rfl, by rw [request_key]⟩
  refine Task.performs_lift_bind.2 ⟨.ok removed, _,
    ⟨_, executes_exchange.2 (.inr ⟨hkey, .ok removed, rfl, rfl⟩), .cons hanswer (.nil _)⟩, ?_⟩
  exact Task.performs_pure.2 ⟨rfl, rfl⟩

theorem environments_apart_dev :
    shelf.objectKey (StateFile.stateKey "/prod") ≠ shelf.objectKey (StateFile.stateKey "dev") ∧
      (shelf.driver.answer (.delete (StateFile.stateKey "/prod"))).Only
        (Avoids (shelf.objectKey (StateFile.stateKey "dev"))) ∧
      Function.update shelved (shelf.objectKey (StateFile.stateKey "/prod")) none
        (shelf.objectKey (StateFile.stateKey "dev")) =
          shelved (shelf.objectKey (StateFile.stateKey "dev")) := by
  obtain ⟨hkeys, honly, hkept⟩ := environments_apart shelf "dev"
  have hapart : shelf.ToldApart "/prod" "dev" := by decide
  have hkey : shelf.objectKey (StateFile.stateKey "/prod") ≠ "" := by decide
  have hdelete := handles_delete hkey shelved
  refine ⟨(hkeys "/prod").2 hapart, honly "/prod" _ hapart rfl,
    hkept keptBy_shelf _ _ _ (.cons hdelete (.nil _)) fun e he => ?_⟩
  obtain rfl := List.mem_singleton.1 he
  exact ⟨"/prod", hapart, rfl⟩

def naming (env : String) : Pipeline.Request := { params := { envName := some env } }

/-- Two names that are accepted as they are have one object below a folder, so what is deleted for
the one is gone for the other. -/
theorem leadingSlash_shares :
    (Settings.resolveEnvName (naming "/dev") ".").run.Executes [] (.ok "/dev") ∧
      (Settings.resolveEnvName (naming "dev") ".").run.Executes [] (.ok "dev") ∧
      shelf.objectKey (StateFile.stateKey "/dev") = shelf.objectKey (StateFile.stateKey "dev") ∧
      shelved (shelf.objectKey (StateFile.stateKey "dev")) = some (stored content) ∧
      ∃ objects, shelf.driver.Handles stores shelved
          ⟨.delete (StateFile.stateKey "/dev"), .ok ()⟩ objects ∧
        objects (shelf.objectKey (StateFile.stateKey "dev")) = none := by
  have hkey : shelf.objectKey (StateFile.stateKey "/dev") = "envs/dev.tfstate" := by decide
  have hother : shelf.objectKey (StateFile.stateKey "dev") = "envs/dev.tfstate" := by decide
  refine ⟨.done _, .done _, hkey.trans hother.symm, ?_, _,
    handles_delete (by rw [hkey]; decide) shelved, ?_⟩
  · rw [hother, shelved, Function.update_self]
  · rw [hkey, hother, Function.update_self]

end Storage.Bucket.Sample

end Provision
