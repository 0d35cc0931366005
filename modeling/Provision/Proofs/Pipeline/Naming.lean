import Provision.Proofs.Pipeline.Modes
import Provision.Proofs.Text.Blank
import Provision.Proofs.Text.Utf8

/-!
# Names of environments

A put step takes the name of its environment from the first of four places that says one. A place
that is blank says nothing. Once a name file is chosen, the name stands in it or the step fails. So
every name that comes of it is trimmed, there is something in it, and nothing that checks it again
finds fault with it.
-/

namespace Provision.Pipeline

open Provision.Host
open Provision.Task (executes_lift_bind)

variable {r : Request} {directory path name : String} {entry : Option String} {t : Journal}
  {result : Except Lifecycle.Error String}

def Says (entry : Option String) (name : String) : Prop :=
  ∃ text, entry = some text ∧ Text.Surrounds text name ∧ Text.IsTrimmed name

def Silent (entry : Option String) : Prop :=
  ∀ text, entry = some text → ∀ c ∈ text.toList, Text.isBlank c = true

theorem Says.isTrimmed (h : Says entry name) : Text.IsTrimmed name := by
  obtain ⟨_, -, -, htrimmed⟩ := h
  exact htrimmed

theorem nonBlank_some (text : String) :
    nonBlank (some text) = if Text.isAllBlank text then none else some (Text.trim text) := by
  rw [nonBlank, Option.map_some, Option.filter_some]
  cases h : Text.isAllBlank text with
  | true => simp [Text.trim_eq_empty.2 h]
  | false => simp [(Text.isTrimmed_trim h).ne_empty]

theorem nonBlank_eq_some : nonBlank entry = some name ↔ Says entry name := by
  constructor
  · intro h
    cases entry with
    | none => cases h
    | some text =>
      rw [nonBlank_some] at h
      split at h
      · cases h
      · next hblank =>
        obtain rfl := Option.some.inj h
        exact ⟨text, rfl, Text.surrounds_trim text, Text.isTrimmed_trim (by simpa using hblank)⟩
  · rintro ⟨text, rfl, hsurrounds, htrimmed⟩
    have htrim := Text.trim_eq htrimmed hsurrounds
    rw [nonBlank_some, htrim, if_neg]
    exact fun hblank => htrimmed.ne_empty (htrim.symm.trans (Text.trim_eq_empty.2 hblank))

theorem nonBlank_eq_none : nonBlank entry = none ↔ Silent entry := by
  cases entry with
  | none => exact iff_of_true rfl nofun
  | some text =>
    simp [nonBlank_some, Text.isAllBlank_iff, Silent]

/-- The name is to be read from the file. -/
def FileChosen (r : Request) (directory path : String) : Prop :=
  Silent r.params.envName ∧
    ∃ file, Says r.params.envNameFile file ∧ path = Path.join directory file

def Unnamed (r : Request) : Prop := Silent r.params.envName ∧ Silent r.params.envNameFile

/-- How a name is resolved: what is asked of the host, and what comes of it. -/
inductive Resolves (r : Request) (directory : String) :
    Journal → Except Lifecycle.Error String → Prop where
  | parameter {name : String} (h : Says r.params.envName name) : Resolves r directory [] (.ok name)
  | file {path text name : String} {bytes : Bytes} (hfile : FileChosen r directory path)
      (htext : Text.Utf8.text? bytes = some text) (h : Says (some text) name) :
      Resolves r directory [⟨.readFile path, (.ok bytes : Except Fault Bytes)⟩] (.ok name)
  | blankFile {path text : String} {bytes : Bytes} (hfile : FileChosen r directory path)
      (htext : Text.Utf8.text? bytes = some text) (h : Silent (some text)) :
      Resolves r directory [⟨.readFile path, (.ok bytes : Except Fault Bytes)⟩]
        (.error (.validation "Resolved env_name is empty"))
  | noText {path : String} {bytes : Bytes} (hfile : FileChosen r directory path)
      (htext : Text.Utf8.text? bytes = none) :
      Resolves r directory [⟨.readFile path, (.ok bytes : Except Fault Bytes)⟩]
        (.error (.validation
          ("Failed to read env_name_file '" ++ path ++ "': " ++ Fault.notText.message)))
  | unreadable {path : String} (fault : Fault) (hfile : FileChosen r directory path) :
      Resolves r directory [⟨.readFile path, (.error fault : Except Fault Bytes)⟩]
        (.error (.validation
          ("Failed to read env_name_file '" ++ path ++ "': " ++ fault.message)))
  | generated (u : Uuid) (hunnamed : Unnamed r) (h : r.params.generateRandomName = true) :
      Resolves r directory [⟨.freshUuid, u⟩] (.ok (generatedName u))
  | source {name : String} (hunnamed : Unnamed r) (hrandom : r.params.generateRandomName = false)
      (h : Says r.source.envName name) : Resolves r directory [] (.ok name)
  | nowhere (hunnamed : Unnamed r) (hrandom : r.params.generateRandomName = false)
      (h : Silent r.source.envName) :
      Resolves r directory [] (.error (.validation
        ("Must specify `put.params.env_name`, `put.params.env_name_file`, " ++
          "`put.params.generate_random_name`, or `source.env_name`")))

theorem mem_hexByte {b : UInt8} {d : Char} (h : d ∈ Uuid.hexByte b) :
    d ∈ "0123456789abcdef".toList := by
  have hdigit : ∀ n < 16, Nat.digitChar n ∈ "0123456789abcdef".toList := by decide
  have hb := b.toNat_lt
  rcases List.mem_cons.1 h with rfl | h
  · exact hdigit _ (by omega)
  · obtain rfl := List.mem_singleton.1 h
    exact hdigit _ (by omega)

theorem length_digits (u : Uuid) : u.digits.length = 32 := by
  have hlength (bs : List UInt8) : (bs.flatMap Uuid.hexByte).length = 2 * bs.length := by
    induction bs with
    | nil => rfl
    | cons b bs ih =>
      rw [List.flatMap_cons, List.length_append, ih, List.length_cons]
      simp only [Uuid.hexByte, List.length_cons, List.length_nil]
      omega
  rw [Uuid.digits, hlength, Vector.length_toList]

theorem getElem?_pick (words : Vector String 20) (b : UInt8) :
    words[b.toNat % 20]? = some (pick words b) :=
  Vector.getElem?_eq_getElem (Nat.mod_lt _ (by decide))

theorem generatedName_parts (u : Uuid) :
    ∃ first second : UInt8, ∃ adjective noun : String, ∃ digits : List Char,
      u.bytes[0]? = some first ∧ u.bytes[1]? = some second ∧
      adjectives[first.toNat % 20]? = some adjective ∧ nouns[second.toNat % 20]? = some noun ∧
      digits <+: u.digits ∧ digits.length = 6 ∧ (∀ d ∈ digits, d ∈ "0123456789abcdef".toList) ∧
      generatedName u = adjective ++ "-" ++ noun ++ "-" ++ String.ofList digits := by
  refine ⟨_, _, _, _, u.digits.take 6, Vector.getElem?_eq_getElem (by decide),
    Vector.getElem?_eq_getElem (by decide), getElem?_pick adjectives _, getElem?_pick nouns _,
    List.take_prefix _ _, ?_, fun d hd => ?_, rfl⟩
  · rw [List.length_take, length_digits]
    rfl
  · obtain ⟨b, -, hb⟩ := List.mem_flatMap.1 (List.mem_of_mem_take hd)
    exact mem_hexByte hb

theorem isTrimmed_generatedName (u : Uuid) : Text.IsTrimmed (generatedName u) := by
  obtain ⟨_, _, adjective, noun, digits, -, -, hadjective, -, -, hlength, hdigits, heq⟩ :=
    generatedName_parts u
  have hwords : ∀ word ∈ adjectives.toList, Text.IsTrimmed word := by decide +kernel
  have hhex : ("0123456789abcdef".toList.all fun d => !Text.isBlank d) = true := by decide
  have hblank : ∀ d ∈ (String.ofList digits).toList, Text.isBlank d = false := by
    rw [String.toList_ofList]
    exact fun d hd => by simpa using List.all_eq_true.1 hhex d (hdigits d hd)
  have hend : Text.IsTrimmed (String.ofList digits) :=
    ⟨fun hempty => by simp [String.ofList_eq_empty_iff.1 hempty] at hlength,
      fun d hd => hblank d (List.mem_of_mem_head? hd),
      fun d hd => hblank d (List.mem_of_mem_getLast? hd)⟩
  -- Only the two ends are of interest, so nothing is asked of the noun.
  have hparts : generatedName u =
      adjective ++ ("-" ++ noun ++ "-") ++ String.ofList digits := by
    simp [heq, String.append_assoc]
  rw [hparts]
  have hmem := Vector.mem_toList_iff.2 (Vector.mem_of_getElem? hadjective)
  exact (hwords adjective hmem).append _ hend

namespace Settings

def checkName (name : String) : StepTask String := do
  if name.isEmpty then throw (.validation "Resolved env_name is empty")
  return name

theorem checkName_of_ne (h : name ≠ "") : checkName name = pure name := by
  rw [checkName, if_neg (by simpa using h)]

theorem resolveEnvName_parameter (h : Says r.params.envName name) :
    resolveEnvName r directory = pure name := by
  rw [← checkName_of_ne h.isTrimmed.ne_empty, resolveEnvName, nonBlank_eq_some.2 h]
  rfl

theorem resolveEnvName_file (h : FileChosen r directory path) :
    resolveEnvName r directory = nameFromFile path >>= checkName := by
  obtain ⟨hsilent, file, hfile, rfl⟩ := h
  rw [resolveEnvName, nonBlank_eq_none.2 hsilent, nonBlank_eq_some.2 hfile]
  rfl

theorem resolveEnvName_generated (h : Unnamed r) (hrandom : r.params.generateRandomName = true) :
    resolveEnvName r directory = Task.lift freshUuid >>= fun u => pure (generatedName u) := by
  simp only [← checkName_of_ne (isTrimmed_generatedName _).ne_empty]
  rw [resolveEnvName, nonBlank_eq_none.2 h.1, nonBlank_eq_none.2 h.2, hrandom]
  rfl

theorem resolveEnvName_source (h : Unnamed r) (hrandom : r.params.generateRandomName = false)
    (hgiven : Says r.source.envName name) : resolveEnvName r directory = pure name := by
  rw [← checkName_of_ne hgiven.isTrimmed.ne_empty, resolveEnvName, nonBlank_eq_none.2 h.1,
    nonBlank_eq_none.2 h.2, hrandom, nonBlank_eq_some.2 hgiven]
  rfl

theorem resolveEnvName_nowhere (h : Unnamed r) (hrandom : r.params.generateRandomName = false)
    (hsilent : Silent r.source.envName) : resolveEnvName r directory = throw (.validation
      ("Must specify `put.params.env_name`, `put.params.env_name_file`, " ++
        "`put.params.generate_random_name`, or `source.env_name`")) := by
  rw [resolveEnvName, nonBlank_eq_none.2 h.1, nonBlank_eq_none.2 h.2, hrandom,
    nonBlank_eq_none.2 hsilent]
  rfl

def textOf : Except Fault Bytes → Except Fault String
  | .error fault => .error fault
  | .ok bytes =>
    match Text.Utf8.text? bytes with
    | some text => .ok text
    | none => .error .notText

theorem readText_eq : readText path =
    Program.step (S := effects) (.readFile path) fun reply => .done (textOf reply) := by
  refine congrArg (Program.step (S := effects) (.readFile path)) (funext fun reply => ?_)
  cases reply with
  | error fault => rfl
  | ok bytes =>
    change (match Text.Utf8.text? bytes with
      | some text => return .ok text
      | none => return .error .notText : HostProgram (Except Fault String)) =
        .done (textOf (.ok bytes))
    rw [textOf]
    cases Text.Utf8.text? bytes <;> rfl

def nameIn (path : String) : Except Fault String → Except Lifecycle.Error String
  | .ok text =>
    match nonBlank (some text) with
    | some name => .ok name
    | none => .error (.validation "Resolved env_name is empty")
  | .error fault => .error (.validation
    ("Failed to read env_name_file '" ++ path ++ "': " ++ fault.message))

theorem run_nameFromFile : (nameFromFile path >>= checkName).run =
    Program.step (S := effects) (.readFile path) fun reply =>
      .done (nameIn path (textOf reply)) := by
  have hnext (outcome : Except Fault String) : ((match outcome with
      | .ok text => return Text.trim text
      | .error fault => throw (.validation
        ("Failed to read env_name_file '" ++ path ++ "': " ++ fault.message)) : StepTask String) >>=
        checkName).run = .done (nameIn path outcome) := by
    cases outcome with
    | error fault => rfl
    | ok text =>
      have hname := nonBlank_some text
      split at hname
      · next hblank =>
        rw [pure_bind, nameIn, hname, Text.trim_eq_empty.2 hblank]
        rfl
      · next hblank =>
        rw [pure_bind, nameIn, hname, checkName_of_ne fun h => hblank (Text.trim_eq_empty.1 h)]
        rfl
  rw [nameFromFile, readText_eq]
  exact congrArg (Program.step (S := effects) (.readFile path))
    (funext fun reply => hnext (textOf reply))

theorem nameIn_text {text : String} {bytes : Bytes} (htext : Text.Utf8.text? bytes = some text) :
    nameIn path (textOf (.ok bytes)) = nameIn path (.ok text) := by
  simp only [textOf, htext]

theorem resolves_nameIn (h : FileChosen r directory path) (reply : Except Fault Bytes) :
    Resolves r directory [⟨.readFile path, reply⟩] (nameIn path (textOf reply)) := by
  cases reply with
  | error fault => exact .unreadable fault h
  | ok bytes =>
    cases htext : Text.Utf8.text? bytes with
    | none =>
      simp only [textOf, htext, nameIn]
      exact .noText h htext
    | some text =>
      rw [nameIn_text htext]
      cases hname : nonBlank (some text) with
      | none =>
        simp only [nameIn, hname]
        exact .blankFile h htext (nonBlank_eq_none.1 hname)
      | some name =>
        simp only [nameIn, hname]
        exact .file h htext (nonBlank_eq_some.1 hname)

theorem executes_file (h : FileChosen r directory path) {reply : Except Fault Bytes}
    (hname : nameIn path (textOf reply) = result) :
    (resolveEnvName r directory).run.Executes [⟨.readFile path, reply⟩] result := by
  rw [resolveEnvName_file h, run_nameFromFile, ← hname]
  exact Program.executes_step.2 ⟨reply, [], .done _, rfl⟩

theorem resolves_of_executes (h : (resolveEnvName r directory).run.Executes t result) :
    Resolves r directory t result := by
  cases hparam : nonBlank r.params.envName with
  | some name =>
    have hgiven := nonBlank_eq_some.1 hparam
    rw [resolveEnvName_parameter hgiven] at h
    obtain ⟨rfl, rfl⟩ := Task.executes_pure.1 h
    exact .parameter hgiven
  | none =>
    have hsilent := nonBlank_eq_none.1 hparam
    cases hfile : nonBlank r.params.envNameFile with
    | some file =>
      have hchosen : FileChosen r directory (Path.join directory file) :=
        ⟨hsilent, file, nonBlank_eq_some.1 hfile, rfl⟩
      rw [resolveEnvName_file hchosen, run_nameFromFile] at h
      obtain ⟨reply, _, hdone, rfl⟩ := Program.executes_step.1 h
      obtain ⟨rfl, rfl⟩ := Program.executes_done.1 hdone
      exact resolves_nameIn hchosen reply
    | none =>
      have hunnamed : Unnamed r := ⟨hsilent, nonBlank_eq_none.1 hfile⟩
      cases hrandom : r.params.generateRandomName with
      | true =>
        rw [resolveEnvName_generated hunnamed hrandom] at h
        obtain ⟨_, _, u, hu, hdone, rfl⟩ := executes_lift_bind.1 h
        obtain rfl := Program.executes_one.1 hu
        obtain ⟨rfl, rfl⟩ := Task.executes_pure.1 hdone
        exact .generated u hunnamed hrandom
      | false =>
        cases hsource : nonBlank r.source.envName with
        | some name =>
          have hgiven := nonBlank_eq_some.1 hsource
          rw [resolveEnvName_source hunnamed hrandom hgiven] at h
          obtain ⟨rfl, rfl⟩ := Task.executes_pure.1 h
          exact .source hunnamed hrandom hgiven
        | none =>
          have hnowhere := nonBlank_eq_none.1 hsource
          rw [resolveEnvName_nowhere hunnamed hrandom hnowhere] at h
          obtain ⟨rfl, rfl⟩ := Task.executes_throw.1 h
          exact .nowhere hunnamed hrandom hnowhere

theorem executes_of_resolves (h : Resolves r directory t result) :
    (resolveEnvName r directory).run.Executes t result := by
  cases h with
  | parameter hgiven =>
    rw [resolveEnvName_parameter hgiven]
    exact .done _
  | file hfile htext hgiven =>
    refine executes_file hfile ((nameIn_text htext).trans ?_)
    simp only [nameIn, nonBlank_eq_some.2 hgiven]
  | blankFile hfile htext hsilent =>
    refine executes_file hfile ((nameIn_text htext).trans ?_)
    simp only [nameIn, nonBlank_eq_none.2 hsilent]
  | noText hfile htext =>
    refine executes_file hfile ?_
    simp only [textOf, htext, nameIn]
  | unreadable fault hfile => exact executes_file hfile rfl
  | generated u hunnamed hrandom =>
    rw [resolveEnvName_generated hunnamed hrandom]
    exact Program.executes_step.2 ⟨u, [], .done _, rfl⟩
  | source hunnamed hrandom hgiven =>
    rw [resolveEnvName_source hunnamed hrandom hgiven]
    exact .done _
  | nowhere hunnamed hrandom hsilent =>
    rw [resolveEnvName_nowhere hunnamed hrandom hsilent]
    exact .done _

theorem isTrimmed_of_executes (h : (resolveEnvName r directory).run.Executes t (.ok name)) :
    Text.IsTrimmed name := by
  cases resolves_of_executes h with
  | parameter hgiven => exact hgiven.isTrimmed
  | file _ _ hgiven => exact hgiven.isTrimmed
  | generated u _ _ => exact isTrimmed_generatedName u
  | source _ _ hgiven => exact hgiven.isTrimmed

end Settings

theorem ne_nameless {text : String} (h : Lifecycle.Apart text) :
    text ≠ Lifecycle.Action.namelessText := by
  rintro rfl
  obtain ⟨c, hhead, hc⟩ := h
  obtain rfl : 'e' = c := Option.some.inj hhead
  exact hc (by decide)

theorem Command.put_ne_nameless {f : Failure} (h : (put directory).run.Executes t (.error f)) :
    f.validation? ≠ some Lifecycle.Action.namelessText := by
  have hnamed : (put directory).Fails fun _ f => f.Within (· ≠ Lifecycle.Action.namelessText) := by
    refine within_put (fun _ => ne_nameless) fun r u name hname hblank => ?_
    rw [(Settings.isTrimmed_of_executes hname).isAllBlank_eq] at hblank
    cases hblank
  exact fun heq => hnamed t f h _ heq rfl

/-- The name comes from the first place that says one, and a name file that is chosen decides. Every
name that is resolved is trimmed, also one that is made of random bytes. So a put step never fails
because a name is empty that was resolved. -/
theorem resolved_name_usable (r : Request) (directory : String) :
    (∀ t result, (Settings.resolveEnvName r directory).run.Executes t result ↔
      Resolves r directory t result) ∧
    (∀ t name, (Settings.resolveEnvName r directory).run.Executes t (.ok name) →
      Text.IsTrimmed name) ∧
    (∀ u : Uuid, ∃ first second : UInt8, ∃ adjective noun : String, ∃ digits : List Char,
      u.bytes[0]? = some first ∧ u.bytes[1]? = some second ∧
      adjectives[first.toNat % 20]? = some adjective ∧ nouns[second.toNat % 20]? = some noun ∧
      digits <+: u.digits ∧ digits.length = 6 ∧ (∀ d ∈ digits, d ∈ "0123456789abcdef".toList) ∧
      generatedName u = adjective ++ "-" ++ noun ++ "-" ++ String.ofList digits) ∧
    ∀ t f, (Command.put directory).run.Executes t (.error f) →
      f.validation? ≠ some "env_name must not be empty" :=
  ⟨fun _ _ => ⟨Settings.resolves_of_executes, Settings.executes_of_resolves⟩,
    fun _ _ => Settings.isTrimmed_of_executes, generatedName_parts,
    fun _ _ => Command.put_ne_nameless⟩

namespace Sample

def request : Request where
  source := { envName := some "prod" }
  version := none
  params := { envName := some " \t", envNameFile := some "name", generateRandomName := true }

theorem resolved_name_usable_file :
    ∃ t, (Settings.resolveEnvName request "/work").run.Executes t (.ok "dev") ∧
      Text.IsTrimmed "dev" := by
  have hfile : FileChosen request "/work" "/work/name" :=
    ⟨nonBlank_eq_none.1 (by decide), "name", nonBlank_eq_some.1 (by decide), by decide⟩
  have hname : Says (some "  dev\n") "dev" := nonBlank_eq_some.1 (by decide)
  have h := ((resolved_name_usable request "/work").1 _ _).2
    (.file hfile (Text.Utf8.text?_encode _) hname)
  exact ⟨_, h, (resolved_name_usable request "/work").2.1 _ _ h⟩

end Sample

end Provision.Pipeline
