import ProgramFacts.Proofs.BreakingSettings
import ProgramFacts.Proofs.Courses
import ProgramFacts.Proofs.WalkFaults

/-!
# How a command line ends

A command line ends with zero after a report and with one after a fault that is told. Over a program that was loaded and
has proper documentation all faults are told, but for those of settings that break the program.
-/

namespace ProgramFacts

open CommandLine (tellingConfig tellingSetup tellingRun)

/-! ## Runs -/

/-- A script comes to its end if and only if all of its actions can be done. -/
theorem Script.result_perform_eq_ok {α : Type} {t : FileTree} {s : Script α} {a : α} :
    (s.perform t).result = .ok a ↔ (ProgramFacts.perform t s.actions).result = .ok () ∧ s.result = .ok a := by
  rw [Script.perform]
  cases (ProgramFacts.perform t s.actions).result with
  | ok _ => simp
  | error f => simp

theorem perform_of_no_writes (t : FileTree) {as : List Action} (none : Action.writes as = []) :
    (perform t as).result = .ok () := by
  induction as with
  | nil => rfl
  | cons a as ih =>
    cases a with
    | tell m => exact ih none
    | write path content => cases none

/-- What is left of a program has the documentation that it had. -/
theorem Generator.hasTextDocs_kept (g : Generator) {p : Program} (text : p.hasTextDocs = true) :
    (g.kept p).hasTextDocs = true := by
  rw [Program.hasTextDocs, List.all_eq_true] at text ⊢
  intro doc there
  obtain ⟨s, inside, member⟩ := List.mem_flatMap.1 there
  refine text doc (List.mem_flatMap.2 ⟨s, ?_, member⟩)
  have packages : (g.kept p).packages ⊆ p.packages := List.filter_subset_self _
  rcases List.mem_append.1 inside with module | package
  · exact List.mem_append_left _ module
  · exact List.mem_append_right _ (List.map_subset _ packages package)

namespace Generator

variable {g : Generator} {p : Program}

/-- A run with a directory that is no text has nothing to write, and its fault is not foreseen. -/
theorem generate_of_no_directory (working : List String)
    (noText : ∀ s, (g.settings.get? "output_dir").getD (.text "prolog-facts") ≠ .text s) :
    Action.writes (g.generate working p).actions = [] ∧
      FailsWith (tellingRun · = .unforeseen) (g.generate working p).result := by
  have refused : ∃ kind, g.directory = .error (.path kind) := by
    unfold directory
    split
    · next s told => exact absurd told (noText s)
    · exact ⟨_, rfl⟩
  obtain ⟨kind, failed⟩ := refused
  rw [generate, generateWith, Script.bind_of_ok rfl, Script.bind_of_error failed]
  refine ⟨?_, ⟨_, rfl, rfl⟩⟩
  simp [Action.writes_map_tell]

/-- With a directory and modes, all that can go wrong in a run over proper documentation is told. -/
theorem not_failsWith_generate {directory : Path} {ms : List Mode} (found : g.directory = .ok directory)
    (chosen : g.modes = .ok ms) (text : p.hasTextDocs = true) (working : List String) :
    ¬FailsWith (tellingRun · = .unforeseen) (g.generate working p).result := by
  rintro ⟨e, failed, unforeseen⟩
  obtain ⟨_, _, -, -, -, fault⟩ := generate_calls found chosen working p
  obtain ⟨m, -, refused⟩ := fault e failed
  cases e with
  | load | path | mode => cases refused
  | encode f =>
    rw [Program.onlyOversized_walk (g.hasTextDocs_kept text) m.hasDocs f refused] at unforeseen
    cases unforeseen
  | output f =>
    cases f with
    | nullCharacter => cases unforeseen
    | system path f => cases refused

/-- A run with modes over proper documentation breaks if and only if it has no directory, and then it does so before it
writes anything. -/
theorem generate_breaks_iff {ms : List Mode} (chosen : g.modes = .ok ms) (text : p.hasTextDocs = true)
    (t : FileTree) :
    (perform t (g.generate t.working p).actions).result = .ok () ∧
        FailsWith (tellingRun · = .unforeseen) (g.generate t.working p).result ↔
      ∀ s, (g.settings.get? "output_dir").getD (.text "prolog-facts") ≠ .text s := by
  constructor
  · rintro ⟨-, fails⟩ s told
    have found : g.directory = .ok (.ofText s) := by
      rw [directory, told]
      rfl
    exact not_failsWith_generate found chosen text t.working fails
  · intro noText
    obtain ⟨none, fails⟩ := generate_of_no_directory t.working noText
    exact ⟨perform_of_no_writes t none, fails⟩

end Generator

/-! ## Endings -/

namespace CommandLine

theorem Failure.ending_closing (f : Failure) :
    f.closing.ending = if f.telling = .unforeseen then .broken f else .exit 1 := by
  unfold closing
  split <;> simp_all

namespace Session

variable {s : Session}

/-- Whatever keeps a file from being written is told. -/
theorem ending_of_output_fault (f : OutputFault) : (s.closing (.error f)).ending = .exit 1 := by
  cases f <;> exact Failure.ending_closing _

theorem ending_of_fault {f : Failure} (failed : s.result = .error f) :
    (s.closing (.ok ())).ending = if f.telling = .unforeseen then .broken f else .exit 1 := by
  unfold closing
  rw [failed]
  exact f.ending_closing

theorem ending_of_report {r : Report} (reported : s.result = .ok r) : (s.closing (.ok ())).ending = .exit 0 := by
  unfold closing
  rw [reported]

/-- How a session ends: with zero after a report, broken after a fault that is not foreseen, and with one otherwise. -/
theorem ending_closing (s : Session) (done : Except OutputFault Unit) :
    ((s.closing done).ending = .exit 0 ↔ done = .ok () ∧ ∃ r, s.result = .ok r) ∧
      ((∃ f, (s.closing done).ending = .broken f) ↔
        done = .ok () ∧ FailsWith (Failure.telling · = .unforeseen) s.result) ∧
      ((s.closing done).ending = .exit 0 ∨ (s.closing done).ending = .exit 1 ∨
        ∃ f, (s.closing done).ending = .broken f) := by
  cases done with
  | error f => simp [ending_of_output_fault]
  | ok done =>
    cases result : s.result with
    | ok r => simp [ending_of_report result, FailsWith]
    | error f =>
      by_cases unforeseen : f.telling = .unforeseen <;>
        simp [ending_of_fault result, failsWith_error, unforeseen]

end Session

/-! ## Command lines -/

/-- The settings in the file that arguments name. -/
def Arguments.userSettings (a : Arguments) (contents : Contents) : Except ConfigFault Entries :=
  match a.configPath? with
  | none => .ok []
  | some path => SettingsFile.read { path, content := contents path }

/-- The settings of arguments over those of a file. -/
def Arguments.settingsOver (a : Arguments) (user : Entries) : Entries := Config.merge defaultSettings user a.settings

theorem generatorOf_eq (a : Arguments) (contents : Contents) (host : Host) :
    generatorOf a contents host = (do
      let user ← (a.userSettings contents).mapError .config
      (Config.validate (a.settingsOver user)).mapError .config
      (Generator.ofSettings (a.settingsOver user) host).mapError .setup) := by
  have loaded : Config.load (.mapping defaultSettings)
      (a.configPath?.map fun path => { path, content := contents path : SettingsFile }) (.mapping a.settings) = (do
        let user ← a.userSettings contents
        Config.validate (a.settingsOver user)
        pure (a.settingsOver user)) := by
    unfold Arguments.userSettings
    cases a.configPath? <;> rfl
  unfold generatorOf
  simp only [loaded, mapError_bind, bind_assoc]
  rfl

/-- Whatever keeps a file of settings from being read is told. -/
theorem tellingConfig_of_read {file : SettingsFile} {f : ConfigFault} (failed : file.read = .error f) :
    tellingConfig f = .asUsage := by
  unfold SettingsFile.read at failed
  split at failed
  · cases failed
    rfl
  · cases failed
    rfl
  · split at failed
    · cases failed
      rfl
    · split at failed
      · cases failed
        rfl
      · cases failed
      · cases failed
        rfl

theorem not_failsWith_userSettings (a : Arguments) (contents : Contents) :
    ¬FailsWith (tellingConfig · = .unforeseen) (a.userSettings contents) := by
  rintro ⟨f, failed, unforeseen⟩
  unfold Arguments.userSettings at failed
  split at failed
  · cases failed
  · cases (tellingConfig_of_read failed).symm.trans unforeseen

/-- Which generators there are for arguments. -/
theorem generatorOf_eq_ok {a : Arguments} {contents : Contents} {host : Host} {g : Generator} :
    generatorOf a contents host = .ok g ↔
      ∃ user, a.userSettings contents = .ok user ∧ Config.validate (a.settingsOver user) = .ok () ∧
        Generator.ofSettings (a.settingsOver user) host = .ok g := by
  simp only [generatorOf_eq, bind_eq_ok_iff, mapError_eq_ok, Unique.exists_iff, PUnit.default_eq_unit]

theorem failsWith_generatorOf {a : Arguments} {contents : Contents} {host : Host} :
    FailsWith (Failure.telling · = .unforeseen) (generatorOf a contents host) ↔
      ∃ user, a.userSettings contents = .ok user ∧
        (FailsWith (tellingConfig · = .unforeseen) (Config.validate (a.settingsOver user)) ∨
          Config.validate (a.settingsOver user) = .ok () ∧
            FailsWith (tellingSetup · = .unforeseen) (Generator.ofSettings (a.settingsOver user) host)) := by
  have read := not_failsWith_userSettings a contents
  simp only [generatorOf_eq, failsWith_bind, failsWith_mapError, mapError_eq_ok, Unique.exists_iff,
    PUnit.default_eq_unit, Failure.telling, read, false_or]

/-- How what arguments ask for ends on a file tree. -/
def Arguments.ending (a : Arguments) (host : Host) (t : FileTree) : Ending :=
  let s := sessionOf a t.working t.readBytes host
  (s.closing (perform t s.actions).result).ending

section

variable {host : Host} {t : FileTree} {a : Arguments} {s : String} {p : Program}

/-- Over a program that was loaded, a run goes on with its facts. -/
theorem run_of_loaded (loaded : loadProgram (.ofText s) (t.readBytes (.ofText s)) = .ok p) (g : Generator) :
    (perform t (g.run t.working s (t.readBytes (.ofText s))).actions).result =
        (perform t (g.generate t.working p).actions).result ∧
      (g.run t.working s (t.readBytes (.ofText s))).result = (g.generate t.working p).result := by
  rw [Generator.run, Script.bind_of_ok rfl, loaded, Script.bind_of_ok rfl]
  exact ⟨rfl, rfl⟩

theorem sessionOf_eq {g : Generator} (model : a.model = some (.text s))
    (made : generatorOf a t.readBytes host = .ok g) :
    (sessionOf a t.working t.readBytes host).actions = (g.run t.working s (t.readBytes (.ofText s))).actions ∧
      (sessionOf a t.working t.readBytes host).result =
        (g.run t.working s (t.readBytes (.ofText s))).result.mapError .run := by
  rw [sessionOf, made, model]
  exact ⟨rfl, rfl⟩

/-- The program ends with zero after a report. -/
theorem ending_eq_zero_iff (model : a.model = some (.text s)) :
    a.ending host t = .exit 0 ↔ ∃ g r, generatorOf a t.readBytes host = .ok g ∧ (g.runOn t s).result = .ok r := by
  have zero : a.ending host t = .exit 0 ↔ _ := (Session.ending_closing _ _).1
  rw [zero]
  cases made : generatorOf a t.readBytes host with
  | error f =>
    rw [sessionOf, made]
    simp
  | ok g =>
    obtain ⟨actions, result⟩ := sessionOf_eq model made
    rw [actions, result]
    simp only [Generator.runOn_eq_perform]
    constructor
    · rintro ⟨done, r, ran⟩
      exact ⟨g, r, rfl, Script.result_perform_eq_ok.2 ⟨done, mapError_eq_ok.1 ran⟩⟩
    · rintro ⟨_, r, ⟨⟩, returned⟩
      obtain ⟨done, ran⟩ := Script.result_perform_eq_ok.1 returned
      exact ⟨done, r, mapError_eq_ok.2 ran⟩

/-- Without a generator nothing is done, so that the fault of the settings alone decides. -/
theorem ending_broken_of_no_generator {f : Failure} (unmade : generatorOf a t.readBytes host = .error f) :
    (∃ f, a.ending host t = .broken f) ↔
      ∃ user, a.userSettings t.readBytes = .ok user ∧ Config.Breaks host (a.settingsOver user) := by
  have broken : (∃ f, a.ending host t = .broken f) ↔ _ := (Session.ending_closing _ _).2.1
  have unforeseen : FailsWith (Failure.telling · = .unforeseen) (generatorOf a t.readBytes host) ↔ _ :=
    failsWith_generatorOf
  have nothing : (sessionOf a t.working t.readBytes host).actions = [] ∧
      (sessionOf a t.working t.readBytes host).result = .error f := by
    rw [sessionOf, unmade]
    exact ⟨rfl, rfl⟩
  rw [unmade, failsWith_error] at unforeseen
  rw [broken, nothing.1, nothing.2, failsWith_error, unforeseen]
  simp only [Config.breaks_iff]
  constructor
  · rintro ⟨-, user, read, checked | ⟨valid, refused⟩⟩
    · exact ⟨user, read, .inl checked⟩
    · exact ⟨user, read, .inr ⟨valid, .inl refused⟩⟩
  · rintro ⟨user, read, checked | ⟨valid, refused | ⟨⟨g, made⟩, -⟩⟩⟩
    · exact ⟨rfl, user, read, .inl checked⟩
    · exact ⟨rfl, user, read, .inr ⟨valid, refused⟩⟩
    · cases unmade.symm.trans (generatorOf_eq_ok.2 ⟨user, read, valid, made⟩)

/-- Where the settings have passed and made a generator, all that is left to break is the directory. -/
theorem ending_broken_of_generator {g : Generator} (made : generatorOf a t.readBytes host = .ok g)
    (model : a.model = some (.text s)) (loaded : loadProgram (.ofText s) (t.readBytes (.ofText s)) = .ok p)
    (text : p.hasTextDocs = true) :
    (∃ f, a.ending host t = .broken f) ↔
      ∃ user, a.userSettings t.readBytes = .ok user ∧ Config.Breaks host (a.settingsOver user) := by
  have broken : (∃ f, a.ending host t = .broken f) ↔ _ := (Session.ending_closing _ _).2.1
  obtain ⟨user, read, valid, ofUser⟩ := generatorOf_eq_ok.1 made
  obtain ⟨⟨ms, chosen⟩, width, -, told⟩ := Config.validate_eq_ok valid
  have settings := (Generator.ofSettings_eq_ok ofUser told).1
  have modes : g.modes = .ok ms := by
    rw [Generator.modes, settings, chosen]
    rfl
  have run := Generator.generate_breaks_iff modes text t
  rw [settings] at run
  obtain ⟨actions, result⟩ := sessionOf_eq model made
  obtain ⟨performed, ran⟩ := run_of_loaded loaded g
  rw [broken, actions, result, performed, ran, failsWith_mapError]
  simp only [Config.breaks_iff]
  constructor
  · intro breaks
    exact ⟨user, read, .inr ⟨valid, .inr ⟨⟨g, ofUser⟩, run.1 breaks⟩⟩⟩
  · rintro ⟨user', read', fault⟩
    obtain rfl : user = user' := Except.ok.inj (read.symm.trans read')
    rw [valid, ofUser] at fault
    rcases fault with checked | ⟨-, refused | ⟨-, noText⟩⟩
    · exact absurd checked (not_failsWith_ok _ _)
    · exact absurd refused (not_failsWith_ok _ _)
    · exact run.2 noText

/-- **Settings that break the program.** Let arguments name a model that can be loaded and has proper documentation.
Then the program ends with zero if and only if there is a generator for the settings and its run comes to a report. It
breaks if and only if the file of settings can be read and the settings, with those of the arguments over them, are
among those that break it. In all other cases it ends with one. -/
theorem ending_breaks_iff (model : a.model = some (.text s))
    (loaded : loadProgram (.ofText s) (t.readBytes (.ofText s)) = .ok p) (text : p.hasTextDocs = true) :
    (a.ending host t = .exit 0 ↔ ∃ g r, generatorOf a t.readBytes host = .ok g ∧ (g.runOn t s).result = .ok r) ∧
      ((∃ f, a.ending host t = .broken f) ↔
        ∃ user, a.userSettings t.readBytes = .ok user ∧ Config.Breaks host (a.settingsOver user)) ∧
      (a.ending host t = .exit 0 ∨ a.ending host t = .exit 1 ∨ ∃ f, a.ending host t = .broken f) ∧
      ∀ words, parse words = .ok (.generate a) → (runOn t words host).ending = a.ending host t := by
  refine ⟨ending_eq_zero_iff model, ?_, (Session.ending_closing _ _).2.2, ?_⟩
  · cases made : generatorOf a t.readBytes host with
    | error f => exact ending_broken_of_no_generator made
    | ok g => exact ending_broken_of_generator made model loaded text
  · intro words parsed
    rw [runOn, parsed]
    rfl

end

/-- The failure at which the program broke, if it did. -/
def Ending.failure? : Ending → Option Failure
  | .exit _ => none
  | .broken f => some f

theorem Ending.failure?_eq_some {e : Ending} {f : Failure} : e.failure? = some f ↔ e = .broken f := by
  cases e <;> simp [failure?]

/-- A model of nothing, and two files of settings: one that chooses modes by a list, and one that passes but has a
number among its patterns. -/
def settledTree : FileTree :=
  { working := ["w"]
    entries := [(["w", "m.json"], .file "\x7b\x7d"), (["w", "modes.json"], .file "\x7b\"output_mode\": []\x7d"),
      (["w", "patterns.json"], .file "\x7b\"exclude\": [\"a\", 5]\x7d")] }

theorem exists_loadProgram_settledTree :
    ∃ p, loadProgram (.ofText "m.json") (settledTree.readBytes (.ofText "m.json")) = .ok p ∧ p.hasTextDocs = true := by
  have proper : (match loadProgram (.ofText "m.json") (settledTree.readBytes (.ofText "m.json")) with
      | .ok p => p.hasTextDocs
      | .error _ => false) = true := by decide +kernel
  split at proper
  · next p loaded => exact ⟨p, loaded, proper⟩
  · cases proper

def Arguments.patternSample : Arguments := { model := some (.text "m.json"), config := some (.text "patterns.json") }

theorem ending_breaks_iff_numbered :
    ∃ p user f, Arguments.patternSample.model = some (.text "m.json") ∧
      loadProgram (.ofText "m.json") (settledTree.readBytes (.ofText "m.json")) = .ok p ∧ p.hasTextDocs = true ∧
      Arguments.patternSample.ending .standard settledTree = .broken f ∧
      f.message = "pattern=5 is not a string, re.Pattern, or None." ∧
      Arguments.patternSample.userSettings settledTree.readBytes = .ok user ∧
      Config.Breaks .standard (Arguments.patternSample.settingsOver user) := by
  obtain ⟨p, loaded, text⟩ := exists_loadProgram_settledTree
  have broken : (Arguments.patternSample.ending .standard settledTree).failure?.map Failure.message =
      some "pattern=5 is not a string, re.Pattern, or None." := by decide +kernel
  obtain ⟨f, failed, message⟩ := Option.map_eq_some_iff.1 broken
  have ending := Ending.failure?_eq_some.1 failed
  obtain ⟨user, read, breaks⟩ := (ending_breaks_iff rfl loaded text).2.1.1 ⟨f, ending⟩
  exact ⟨p, user, f, rfl, loaded, text, ending, message, read, breaks⟩

/-- A list in place of the choice of modes ends the program with neither zero nor one. -/
theorem runOn_breaks_on_list :
    (∃ p, loadProgram (.ofText "m.json") (settledTree.readBytes (.ofText "m.json")) = .ok p ∧ p.hasTextDocs = true) ∧
      ∃ f, (runOn settledTree ["--model", "m.json", "--config", "modes.json"]).ending = .broken f ∧
        f.message = "unhashable type: 'list'" := by
  refine ⟨exists_loadProgram_settledTree, ?_⟩
  have broken : (runOn settledTree ["--model", "m.json", "--config", "modes.json"]).ending.failure?.map
      Failure.message = some "unhashable type: 'list'" := by decide +kernel
  obtain ⟨f, failed, message⟩ := Option.map_eq_some_iff.1 broken
  exact ⟨f, Ending.failure?_eq_some.1 failed, message⟩

end CommandLine

end ProgramFacts
