import Mathlib.Data.List.Forall2
import Provision.Pipeline.Response
import Provision.Proofs.Dict

/-!
# Sensitive outputs stay out of responses

A response is read by people and kept in the logs of builds. It has one text for each output: of a
sensitive one the marker, so that nothing in the response depends on the value. Machines that need
the values read the raw view, which leaves nothing out.
-/

namespace Provision

variable {r r' : RunResult}

/-- The results differ in the values of sensitive outputs only. -/
structure RunResult.SameButSensitive (r r' : RunResult) : Prop where
  version : r'.version = r.version
  flags : ∀ name, (r'.output.get? name).map (·.sensitive) = (r.output.get? name).map (·.sensitive)
  values : ∀ name o o', r.output.get? name = some o → r'.output.get? name = some o' →
    o.sensitive = false → o'.value = o.value

/-- What people are to see of an output. -/
inductive Response.Displays : String × OutputRecord → MetadataField → Prop where
  | sensitive (name : String) (value : Json.Value) :
      Displays (name, ⟨value, true⟩) ⟨name, "<sensitive>"⟩
  | text (name text : String) : Displays (name, ⟨.string text, false⟩) ⟨name, text⟩
  | other (name : String) {value : Json.Value} (h : ∀ text, value ≠ .string text) :
      Displays (name, ⟨value, false⟩) ⟨name, value.compact⟩

theorem OutputRecord.display_sensitive {o : OutputRecord} (h : o.sensitive = true) :
    o.display = sensitiveMarker := by
  simp [display, h]

theorem OutputRecord.display_public {o : OutputRecord} (h : o.sensitive = false) :
    o.display = o.value.display := by
  simp [display, h]

theorem RunResult.SameButSensitive.display_eq (h : r.SameButSensitive r') (name : String) :
    (r'.output.get? name).map (·.display) = (r.output.get? name).map (·.display) := by
  have hflags := h.flags name
  cases ho : r.output.get? name with
  | none =>
    rw [ho, Option.map_none, Option.map_eq_none_iff] at hflags
    rw [hflags]
  | some o =>
    rw [ho, Option.map_some, Option.map_eq_some_iff] at hflags
    -- The flags agree, so both outputs are hidden or both are shown.
    obtain ⟨o', ho', hsame⟩ := hflags
    rw [ho', Option.map_some, Option.map_some, Option.some_inj]
    cases hsensitive : o.sensitive with
    | true =>
      rw [OutputRecord.display_sensitive hsensitive,
        OutputRecord.display_sensitive (hsame.trans hsensitive)]
    | false =>
      rw [OutputRecord.display_public hsensitive,
        OutputRecord.display_public (hsame.trans hsensitive), h.values name o o' ho ho' hsensitive]

theorem RunResult.SameButSensitive.sanitizedOutput_eq (h : r.SameButSensitive r') :
    r'.sanitizedOutput = r.sanitizedOutput := by
  refine Dict.ext_get? fun name => ?_
  rw [sanitizedOutput, sanitizedOutput, Dict.get?_map, Dict.get?_map, h.display_eq]

namespace Response

theorem ofResult_eq (h : r.SameButSensitive r') (engineVersion : Option String) :
    ofResult r' engineVersion = ofResult r engineVersion := by
  rw [ofResult, ofResult, h.version, h.sanitizedOutput_eq]

theorem displays_display (name : String) (o : OutputRecord) :
    Displays (name, o) ⟨name, o.display⟩ := by
  obtain ⟨value, sensitive⟩ := o
  cases sensitive with
  | true => exact .sensitive name value
  | false =>
    cases value with
    | string text => exact .text name text
    | _ => exact .other name nofun

theorem displays_entries (entries : List (String × OutputRecord)) :
    List.Forall₂ Displays entries (entries.map fun e => ⟨e.1, e.2.display⟩) := by
  induction entries with
  | nil => exact .nil
  | cons e entries ih => exact .cons (displays_display e.1 e.2) ih

/-- The text of a response is the same whatever the values of the sensitive outputs are. It has one
entry for each output, in ascending order of the names, and the version of the engine last. The raw
view has the same names and every value as it is. -/
theorem sensitive_unseen (r : RunResult) (engineVersion : Option String) :
    (∀ r', r.SameButSensitive r' →
      (ofResult r' engineVersion).toJson.compact = (ofResult r engineVersion).toJson.compact) ∧
    (∃ shown : List MetadataField,
      (ofResult r engineVersion).metadata =
        shown ++ (engineVersion.map fun text => ⟨"terraform_version", text⟩).toList ∧
      shown.Pairwise (fun f g => f.name < g.name) ∧
      List.Forall₂ Displays r.output.entries shown) ∧
    r.rawOutput.keys = r.output.keys ∧
    ∀ name, r.rawOutput.get? name = (r.output.get? name).map (·.value) := by
  refine ⟨fun r' h => by rw [ofResult_eq h], ?_, ?_, fun name => Dict.get?_map _ _ name⟩
  · refine ⟨r.output.entries.map fun e => ⟨e.1, e.2.display⟩, ?_, ?_, displays_entries _⟩
    · simp [ofResult, RunResult.sanitizedOutput, Dict.map]
    · exact List.pairwise_map.2 r.output.ascending
  · simp [Dict.keys, RunResult.rawOutput, Dict.map]

namespace Sample

def login (password : Json.Value) : RunResult where
  version := .empty "dev"
  output := Dict.ofList [("zones", ⟨.array [.string "a", .string "b"], false⟩),
    ("password", ⟨password, true⟩), ("url", ⟨.string "https://dev", false⟩)]

theorem get?_login (password : Json.Value) (name : String) :
    (login password).output.get? name =
      if "url" = name then some ⟨.string "https://dev", false⟩
      else if "password" = name then some ⟨password, true⟩
      else if "zones" = name then some ⟨.array [.string "a", .string "b"], false⟩
      else none := by
  simp [login, Dict.ofList, Dict.get?_insert]

theorem sameButSensitive_login (password password' : Json.Value) :
    (login password).SameButSensitive (login password') where
  version := rfl
  flags name := by
    rw [get?_login, get?_login]
    split_ifs <;> rfl
  values name o o' ho ho' hpublic := by
    rw [get?_login] at ho ho'
    split_ifs at ho ho' with hurl hpassword hzones
    all_goals
      cases ho
      cases ho'
    · rfl
    · cases hpublic
    · rfl

theorem sensitive_unseen_login :
    (ofResult (login (.object [("token", .string "hunter2")])) (some "1.5.0")).toJson.compact =
      (ofResult (login (.string "a")) (some "1.5.0")).toJson.compact ∧
    (ofResult (login (.string "a")) (some "1.5.0")).toJson.compact =
      "\x7b\"version\":\x7b\"env_name\":\"dev\"\x7d,\"metadata\":[" ++
        "\x7b\"name\":\"password\",\"value\":\"<sensitive>\"\x7d," ++
        "\x7b\"name\":\"url\",\"value\":\"https://dev\"\x7d," ++
        "\x7b\"name\":\"zones\",\"value\":\"[\\\"a\\\",\\\"b\\\"]\"\x7d," ++
        "\x7b\"name\":\"terraform_version\",\"value\":\"1.5.0\"\x7d]\x7d" :=
  ⟨(sensitive_unseen (login (.string "a")) (some "1.5.0")).1 _ (sameButSensitive_login _ _),
    by decide +kernel⟩

end Sample

end Response

end Provision
