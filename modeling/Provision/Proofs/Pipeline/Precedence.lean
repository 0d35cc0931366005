import Provision.Proofs.Dict
import Provision.Proofs.Pipeline.RoundTrip

/-!
# Which setting takes precedence

Variables, imports and environment are laid over each other: what the resource has, then each listed
file, then what the step's own parameters have. The last layer that has a key decides. Before all
that, every listed file has to be readable, the files of variables first, and the first one that is
not ends the step.
-/

namespace Provision.Pipeline

open Provision.Host

variable {answer : (op : effects.Op) → effects.Reply op} {α : Type}
  {parse : String → Option (Dict α)} {kind directory path envName : String} {r : Request}
  {terraformSource : Option String} {s : Settings}

namespace Settings

def held (answer : (op : effects.Op) → effects.Reply op) (parse : String → Option (Dict α))
    (path : String) : Option (Dict α) :=
  match (readText path).value answer with
  | .error _ => none
  | .ok text => if Text.isAllBlank text then some {} else parse text

def flaw (answer : (op : effects.Op) → effects.Reply op) (parse : String → Option (Dict α))
    (kind path : String) : Option String :=
  match (readText path).value answer with
  | .error fault => some ("Failed to read " ++ kind ++ " '" ++ path ++ "': " ++ fault.message)
  | .ok text =>
    if Text.isAllBlank text || (parse text).isSome then none
    else some ("Failed to parse " ++ kind ++ " '" ++ path ++ "': <yaml error>")

theorem value_loadMap : Task.value answer (loadMap parse kind path) =
    match flaw answer parse kind path with
    | some message => .error (.validation message)
    | none => .ok ((held answer parse path).getD {}) := by
  rw [loadMap, Task.value_bind, Task.value_lift, flaw, held]
  cases (readText path).value answer with
  | error fault => rfl
  | ok text =>
    dsimp only [Except.bind]
    cases hblank : Text.isAllBlank text with
    | true => rfl
    | false =>
      cases parse text with
      | none => rfl
      | some d => rfl

theorem flaw_eq_none : flaw answer parse kind path = none ↔ (held answer parse path).isSome := by
  rw [flaw, held]
  cases (readText path).value answer with
  | error fault => exact iff_of_false (fun h => nomatch h) (fun h => nomatch h)
  | ok text =>
    dsimp only
    cases hblank : Text.isAllBlank text <;> cases parse text <;> simp

def layers (answer : (op : effects.Op) → effects.Reply op) (parse : String → Option (Dict α))
    (directory : String) (files : List String) : List (Dict α) :=
  files.filterMap fun file => held answer parse (Path.join directory file)

/-- What is wrong with the first listed file that holds no map. -/
def firstFlaw (answer : (op : effects.Op) → effects.Reply op) (parse : String → Option (Dict α))
    (kind directory : String) (files : List String) : Option String :=
  files.findSome? fun file => flaw answer parse kind (Path.join directory file)

theorem layers_cons {file : String} {rest : List String} {d : Dict α}
    (h : held answer parse (Path.join directory file) = some d) :
    layers answer parse directory (file :: rest) = d :: layers answer parse directory rest :=
  List.filterMap_cons_some h

theorem layers_append {files others : List String} :
    layers answer parse directory (files ++ others) =
      layers answer parse directory files ++ layers answer parse directory others :=
  List.filterMap_append

theorem firstFlaw_cons {file : String} {rest : List String} :
    firstFlaw answer parse kind directory (file :: rest) =
      (flaw answer parse kind (Path.join directory file)).or
        (firstFlaw answer parse kind directory rest) := by
  rw [firstFlaw, List.findSome?_cons]
  cases flaw answer parse kind (Path.join directory file) <;> rfl

theorem value_loadAll {files : List String} (start : Dict α) :
    Task.value answer (loadAll parse kind directory start files) =
      match firstFlaw answer parse kind directory files with
      | some message => .error (.validation message)
      | none => .ok ((layers answer parse directory files).foldl Dict.extend start) := by
  -- The layers that were read so far are in `start`.
  induction files generalizing start with
  | nil => rfl
  | cons file rest ih =>
    rw [loadAll, Task.value_bind, value_loadMap, firstFlaw_cons]
    cases hflaw : flaw answer parse kind (Path.join directory file) with
    | some message => rfl
    | none =>
      obtain ⟨d, hd⟩ := Option.isSome_iff_exists.1 (flaw_eq_none.1 hflaw)
      rw [layers_cons hd, hd, Option.none_or]
      exact ih (start.extend d)

def listedFlaw (answer : (op : effects.Op) → effects.Reply op) (r : Request) (directory : String) :
    Option String :=
  (firstFlaw answer Yaml.Document.values? "var file" directory r.params.varFiles).or
    (firstFlaw answer Yaml.Document.texts? "import file" directory r.params.importFiles)

def laid (answer : (op : effects.Op) → effects.Reply op) (r : Request)
    (directory envName : String) (terraformSource : Option String) : Settings :=
  assembled r envName terraformSource
    ((layers answer Yaml.Document.values? directory r.params.varFiles).foldl Dict.extend
      r.source.vars)
    ((layers answer Yaml.Document.texts? directory r.params.importFiles).foldl Dict.extend
      r.source.imports)

def merged (answer : (op : effects.Op) → effects.Reply op) (r : Request) (directory : String)
    (place : String × Option String) : Except Lifecycle.Error Settings :=
  match listedFlaw answer r directory with
  | some message => .error (.validation message)
  | none =>
    let s := laid answer r directory place.1 place.2
    s.validate.map fun _ => s

theorem value_assemble : Task.value answer (assemble r directory envName terraformSource) =
    merged answer r directory (envName, terraformSource) := by
  rw [assemble, Task.value_bind, value_loadAll, merged, listedFlaw]
  cases firstFlaw answer Yaml.Document.values? "var file" directory r.params.varFiles with
  | some message => rfl
  | none =>
    rw [Option.none_or]
    dsimp only [Except.bind]
    rw [Task.value_bind, value_loadAll]
    cases firstFlaw answer Yaml.Document.texts? "import file" directory r.params.importFiles with
    | some message => rfl
    | none =>
      dsimp only [Except.bind]
      rw [Task.value_bind]
      change ((laid answer r directory envName terraformSource).validate.bind _) = _
      cases (laid answer r directory envName terraformSource).validate <;> rfl

theorem value_merge : Task.value answer (merge r directory envName terraformSource) =
    merged answer r directory (envName, terraformSource) := by
  rw [merge_eq, ← value_assemble]
  split
  · rw [Task.value_bind, Task.value_lift]
    rfl
  · rfl

end Settings

inductive StepKind where
  | put
  | get

def StepKind.settings : StepKind → Request → String → StepTask Settings
  | put => Settings.ofPut
  | get => Settings.ofGet

/-- The same request with other files listed. -/
def Request.withFiles (r : Request) (varFiles importFiles : List String) : Request :=
  { r with params := { r.params with varFiles, importFiles } }

namespace Settings

/-- The environment of a step and where its engine runs, which are found before any listed file is
opened. -/
def resolved (answer : (op : effects.Op) → effects.Reply op) (r : Request) (directory : String) :
    StepKind → Except Lifecycle.Error (String × Option String)
  | .put => do
    let envName ← Task.value answer (resolveEnvName r directory)
    match r.params.terraformSource.or r.source.terraformSource with
    | none => throw (.validation "Missing required field `terraform_source`")
    | some source => return (envName, some (Path.join directory source))
  | .get =>
    match r.version with
    | none => throw (.validation "Missing `version` in request")
    | some version =>
      match version.validate with
      | .error e => throw (.validation ("Invalid Version request: " ++ e.message))
      | .ok () => return (version.envName, r.source.terraformSource.map (Path.join directory))

theorem value_settings (step : StepKind) :
    Task.value answer (step.settings r directory) =
      (resolved answer r directory step).bind (merged answer r directory) := by
  cases step with
  | put =>
    rw [StepKind.settings, ofPut, Task.value_bind, resolved]
    cases Task.value answer (resolveEnvName r directory) with
    | error e => rfl
    | ok envName =>
      cases r.params.terraformSource.or r.source.terraformSource with
      | none => rfl
      | some source => exact value_merge
  | get =>
    rw [StepKind.settings, ofGet, resolved]
    cases r.version with
    | none => rfl
    | some version =>
      dsimp only
      cases version.validate with
      | error e => rfl
      | ok _ => exact value_merge

theorem value_settings_congr {varFiles importFiles varFiles' importFiles' : List String}
    (h : merged answer (r.withFiles varFiles importFiles) directory =
      merged answer (r.withFiles varFiles' importFiles') directory) (step : StepKind) :
    Task.value answer (step.settings (r.withFiles varFiles importFiles) directory) =
      Task.value answer (step.settings (r.withFiles varFiles' importFiles') directory) := by
  rw [value_settings, value_settings, h]
  cases step <;> rfl

/-- The value of the key in the last of the files that has it. -/
def lastHeld (answer : (op : effects.Op) → effects.Reply op) (parse : String → Option (Dict α))
    (directory : String) (files : List String) (k : String) : Option α :=
  files.reverse.findSome? fun file =>
    (held answer parse (Path.join directory file)).bind fun d => d.get? k

theorem get?_layers {files : List String} {start : Dict α} {k : String} :
    ((layers answer parse directory files).foldl Dict.extend start).get? k =
      (lastHeld answer parse directory files k).or (start.get? k) := by
  rw [Dict.get?_foldl_extend, layers, ← List.filterMap_reverse, ← List.head?_filterMap,
    List.filterMap_filterMap, List.head?_filterMap, lastHeld]

/-- The settings are the layers of the request, each over those below it. -/
structure Layered (answer : (op : effects.Op) → effects.Reply op) (r : Request)
    (directory : String) (s : Settings) : Prop where
  readable : listedFlaw answer r directory = none
  vars : ∀ k, s.vars.get? k = (r.params.vars.get? k).or
    ((lastHeld answer Yaml.Document.values? directory r.params.varFiles k).or
      (r.source.vars.get? k))
  imports : ∀ k, s.imports.get? k = (r.params.imports.get? k).or
    ((lastHeld answer Yaml.Document.texts? directory r.params.importFiles k).or
      (r.source.imports.get? k))
  env : ∀ k, s.env.get? k = (r.params.env.get? k).or (r.source.env.get? k)
  deleteOnFailure : s.deleteOnFailure = (r.source.deleteOnFailure || r.params.deleteOnFailure)
  backendType : s.backendType = nonBlank r.source.backendType
  backendConfig : s.backendConfig = r.source.backendConfig
  storage : s.storage = r.source.storage

theorem layered_laid (h : listedFlaw answer r directory = none) :
    (laid answer r directory envName terraformSource).Layered answer r directory where
  readable := h
  vars k := (Dict.get?_extend _ _ k).trans (congrArg _ get?_layers)
  imports k := (Dict.get?_extend _ _ k).trans (congrArg _ get?_layers)
  env k := Dict.get?_extend _ _ k
  deleteOnFailure := rfl
  backendType := rfl
  backendConfig := rfl
  storage := rfl

theorem merged_ok {place : String × Option String}
    (h : merged answer r directory place = .ok s) :
    listedFlaw answer r directory = none ∧ s = laid answer r directory place.1 place.2 := by
  unfold merged at h
  split at h
  · cases h
  · next hnone =>
    dsimp only at h
    cases hvalid : (laid answer r directory place.1 place.2).validate with
    | error e =>
      rw [hvalid] at h
      cases h
    | ok _ =>
      rw [hvalid] at h
      exact ⟨hnone, (Except.ok.inj h).symm⟩

section Listed

variable {files others before after : List String} {file text : String}

theorem held_of_blank (htext : (readText path).value answer = .ok text)
    (hblank : Text.isAllBlank text = true) : held answer parse path = some {} := by
  simp only [held, htext, hblank, if_true]

theorem firstFlaw_insert (hheld : held answer parse (Path.join directory file) = some {}) :
    firstFlaw answer parse kind directory (before ++ file :: after) =
      firstFlaw answer parse kind directory (before ++ after) := by
  have hflaw : flaw answer parse kind (Path.join directory file) = none :=
    flaw_eq_none.2 (by rw [hheld]; rfl)
  simp only [firstFlaw, List.findSome?_append, List.findSome?_cons, hflaw]

theorem foldl_layers_insert (hheld : held answer parse (Path.join directory file) = some {})
    (start : Dict α) :
    (layers answer parse directory (before ++ file :: after)).foldl Dict.extend start =
      (layers answer parse directory (before ++ after)).foldl Dict.extend start := by
  rw [layers_append, layers_append, layers_cons hheld, List.foldl_append, List.foldl_append,
    List.foldl_cons, Dict.extend_empty]

def FilesApart (answer : (op : effects.Op) → effects.Reply op) (parse : String → Option (Dict α))
    (directory file other : String) : Prop :=
  ∀ d ∈ held answer parse (Path.join directory file),
    ∀ d' ∈ held answer parse (Path.join directory other), d.Apart d'

/-- Files that hold no key in common change places, one with the next, any number of times. -/
inductive Reordered (apart : String → String → Prop) : List String → List String → Prop where
  | refl (files : List String) : Reordered apart files files
  | cons (file : String) {files others : List String} : Reordered apart files others →
      Reordered apart (file :: files) (file :: others)
  | swap {file other : String} (rest : List String) : apart file other →
      Reordered apart (file :: other :: rest) (other :: file :: rest)
  | trans {files others further : List String} : Reordered apart files others →
      Reordered apart others further → Reordered apart files further

variable {apart : String → String → Prop}

theorem Reordered.perm (h : Reordered apart files others) : files.Perm others := by
  induction h with
  | refl files => exact .refl files
  | cons file _ ih => exact ih.cons file
  | swap rest _ => exact .swap _ _ rest
  | trans _ _ ih ih' => exact ih.trans ih'

theorem Reordered.of_perm (hsymm : ∀ {file other}, apart file other → apart other file)
    (hperm : files.Perm others) (hapart : files.Pairwise apart) : Reordered apart files others := by
  induction hperm with
  | nil => exact .refl []
  | cons file _ ih => exact .cons file (ih (List.pairwise_cons.1 hapart).2)
  | swap file other rest => exact .swap rest ((List.pairwise_cons.1 hapart).1 file List.mem_cons_self)
  | trans hperm _ ih ih' =>
    exact .trans (ih hapart) (ih' ((hperm.pairwise_iff hsymm).1 hapart))

theorem FilesApart.symm {other : String} (h : FilesApart answer parse directory file other) :
    FilesApart answer parse directory other file :=
  fun d hd d' hd' => (h d' hd' d hd).symm

theorem foldl_layers_reordered (h : Reordered (FilesApart answer parse directory) files others)
    (start : Dict α) :
    (layers answer parse directory others).foldl Dict.extend start =
      (layers answer parse directory files).foldl Dict.extend start := by
  induction h generalizing start with
  | refl files => rfl
  | cons file _ ih =>
    simp only [layers, List.filterMap_cons]
    cases held answer parse (Path.join directory file) with
    | none => exact ih start
    | some d => exact ih (start.extend d)
  | @swap file other rest hapart =>
    simp only [layers, List.filterMap_cons]
    cases hfile : held answer parse (Path.join directory file) with
    | none => rfl
    | some d =>
      cases hother : held answer parse (Path.join directory other) with
      | none => rfl
      | some d' =>
        simp only [List.foldl_cons, Dict.extend_comm (hapart d hfile d' hother)]
  | trans _ _ ih ih' => exact (ih' start).trans (ih start)

theorem firstFlaw_reordered (h : Reordered apart files others)
    (hnone : firstFlaw answer parse kind directory files = none) :
    firstFlaw answer parse kind directory others = none := by
  rw [firstFlaw, List.findSome?_eq_none_iff] at hnone ⊢
  exact fun file hfile => hnone file (h.perm.mem_iff.2 hfile)

theorem merged_blank (before after listed : List String)
    (htext : (readText (Path.join directory file)).value answer = .ok text)
    (hblank : Text.isAllBlank text = true) :
    merged answer (r.withFiles (before ++ file :: after) listed) directory =
        merged answer (r.withFiles (before ++ after) listed) directory ∧
      merged answer (r.withFiles listed (before ++ file :: after)) directory =
        merged answer (r.withFiles listed (before ++ after)) directory := by
  constructor <;> funext place <;> simp only [merged, listedFlaw, laid, Request.withFiles,
    firstFlaw_insert (held_of_blank htext hblank),
    foldl_layers_insert (held_of_blank htext hblank)] <;> rfl

theorem merged_reordered {place : String × Option String}
    (h : Reordered (FilesApart answer Yaml.Document.values? directory) r.params.varFiles files)
    (hok : merged answer r directory place = .ok s) :
    merged answer (r.withFiles files r.params.importFiles) directory place = .ok s := by
  have hnone := (merged_ok hok).1
  have hlaid : laid answer (r.withFiles files r.params.importFiles) directory place.1 place.2 =
      laid answer r directory place.1 place.2 := by
    simp only [laid, Request.withFiles, foldl_layers_reordered h]
    rfl
  have hlisted : listedFlaw answer (r.withFiles files r.params.importFiles) directory = none := by
    rw [listedFlaw, Option.or_eq_none_iff] at hnone ⊢
    exact ⟨firstFlaw_reordered h hnone.1, hnone.2⟩
  rw [merged, hnone] at hok
  rw [merged, hlisted, hlaid]
  exact hok

end Listed

/-- In any work directory, settings that come of a request are its layers. They stay the same if
files of variables that have no key in common are listed in another order, and nothing changes with
a blank file. Where the environment is resolved and a listed file holds no map, the step fails with
what is wrong with the first such file. -/
theorem settings_layered (answer : (op : effects.Op) → effects.Reply op) (step : StepKind)
    (r : Request) (directory : String) :
    (∀ s, Task.value answer (step.settings r directory) = .ok s →
      s.Layered answer r directory ∧
      ∀ files,
        Reordered (FilesApart answer Yaml.Document.values? directory) r.params.varFiles files →
        Task.value answer (step.settings (r.withFiles files r.params.importFiles) directory) =
          .ok s) ∧
    (∀ file text, (readText (Path.join directory file)).value answer = .ok text →
      Text.isAllBlank text = true → ∀ before after listed,
        Task.value answer (step.settings (r.withFiles (before ++ file :: after) listed) directory) =
          Task.value answer (step.settings (r.withFiles (before ++ after) listed) directory) ∧
        Task.value answer (step.settings (r.withFiles listed (before ++ file :: after)) directory) =
          Task.value answer (step.settings (r.withFiles listed (before ++ after)) directory)) ∧
    ∀ place message, resolved answer r directory step = .ok place →
      listedFlaw answer r directory = some message →
      Task.value answer (step.settings r directory) = .error (.validation message) := by
  refine ⟨fun s h => ?_, fun file text htext hblank before after listed => ?_,
    fun place message hplace hmessage => ?_⟩
  · rw [value_settings] at h
    cases hplace : resolved answer r directory step with
    | error e =>
      rw [hplace] at h
      cases h
    | ok place =>
      rw [hplace] at h
      obtain ⟨hnone, rfl⟩ := merged_ok h
      refine ⟨layered_laid hnone, fun files hfiles => ?_⟩
      have hsame : resolved answer (r.withFiles files r.params.importFiles) directory step =
          .ok place := by
        rw [← hplace]
        cases step <;> rfl
      rw [value_settings, hsame]
      exact merged_reordered hfiles h
  · have hmerged := merged_blank (r := r) before after listed htext hblank
    exact ⟨value_settings_congr hmerged.1 step, value_settings_congr hmerged.2 step⟩
  · rw [value_settings, hplace]
    dsimp only [Except.bind]
    rw [merged, hmessage]

namespace Filed

def request : Request where
  source := {
    backendType := some "s3"
    imports := Dict.ofList [("disk.a", "v-0"), ("disk.b", "v-1")] }
  version := some (.empty "dev")
  params := {
    varFiles := ["zone.yml", "size.yml"]
    importFiles := ["disks.yml", "blank.yml"] }

def texts : String → Option String
  | "in/zone.yml" => some "zone: a"
  | "in/size.yml" => some "size: 2"
  | "in/disks.yml" => some "disk.b: v-2"
  | "in/blank.yml" => some " "
  | _ => none

def work : (op : effects.Op) → effects.Reply op
  | .readFile path => ((texts path).map fun text => Except.ok (Text.Utf8.encode text)).getD
      (.error .notFound)
  | op => Command.Sample.machine "" false (fun _ => []) op

def settings : Settings := laid work request "in" "dev" none

theorem value_request : Task.value work (StepKind.get.settings request "in") = .ok settings := by
  have hflaw : listedFlaw work request "in" = none := by decide +kernel
  rw [value_settings]
  change merged work request "in" ("dev", none) = _
  rw [merged, hflaw]
  rfl

theorem apart :
    ["zone.yml", "size.yml"].Pairwise (FilesApart work Yaml.Document.values? "in") := by
  have hzone : (held work Yaml.Document.values? (Path.join "in" "zone.yml")).map Dict.keys =
    some ["zone"] := by decide +kernel
  have hsize : (held work Yaml.Document.values? (Path.join "in" "size.yml")).map Dict.keys =
    some ["size"] := by decide +kernel
  refine List.pairwise_pair.2 fun d hd d' hd' k hk => ?_
  rw [Option.mem_def.1 hd] at hzone
  rw [Option.mem_def.1 hd'] at hsize
  rw [Option.some.inj hzone] at hk
  rw [Option.some.inj hsize, List.mem_singleton.1 hk]
  decide

theorem settings_layered_filed :
    (∃ t, (StepKind.get.settings request "in").run.Executes t (.ok settings)) ∧
      settings.imports.get? "disk.a" = some "v-0" ∧ settings.imports.get? "disk.b" = some "v-2" ∧
      Task.value work (StepKind.get.settings
        (request.withFiles ["size.yml", "zone.yml"] ["disks.yml", "blank.yml"]) "in") =
          .ok settings ∧
      Task.value work (StepKind.get.settings
        (request.withFiles ["zone.yml", "size.yml"] ["disks.yml"]) "in") = .ok settings ∧
      Task.value work (StepKind.get.settings (request.withFiles ["gone.yml"] ["lost.yml"]) "in") =
        .error (.validation
          "Failed to read var file 'in/gone.yml': No such file or directory (os error 2)") := by
  obtain ⟨hok, hblank, -⟩ := settings_layered work .get request "in"
  obtain ⟨hlayered, hreordered⟩ := hok settings value_request
  obtain ⟨t, ht, -⟩ := Program.executes_answered.2 value_request.symm
  refine ⟨⟨t, ht⟩, ?_, ?_, ?_, ?_, ?_⟩
  · rw [hlayered.imports]
    decide +kernel
  · rw [hlayered.imports]
    decide +kernel
  · exact hreordered _ (.of_perm .symm (.swap _ _ []) apart)
  · have hsame := (hblank "blank.yml" " " (by decide +kernel) (by decide) ["disks.yml"] []
      ["zone.yml", "size.yml"]).2
    exact hsame.symm.trans value_request
  · exact (settings_layered work .get (request.withFiles ["gone.yml"] ["lost.yml"]) "in").2.2
      ("dev", none) _ rfl (by decide +kernel)

end Filed

end Settings

end Provision.Pipeline
