import ProgramFacts.Proofs.Courses
import ProgramFacts.Proofs.GeneratedFiles

/-!
# Runs that stop at a failure

A write that fails leaves all files as they were, though it may have made directories on its way. Actions are done up to
the first write that fails, so what they have tried is an initial part of what they would write if nothing failed, and
the files are those that all tries but the last have left.

A generator writes mode after mode, in each the facts of the walk and then those of the index (`Mode.calls`). A run ends
in one of two ways: in some mode a write fails, and it was the last that was tried; or no write fails, and then all was
written of every mode, or else of the modes up to one that has a fault of its own.
-/

namespace ProgramFacts

/-! ## Writes in order -/

namespace FileTree

theorem writeFile_eq_error {t after : FileTree} {p : Path} {content : String} {f : WriteFault}
    (h : t.writeFile p content = (after, .error f)) : after = t := by
  unfold writeFile at h
  split at h
  · cases h
    rfl
  · split at h
    · cases h
      rfl
    · cases h
      rfl
    · split at h
      · cases h
        rfl
      · cases h
        rfl
      · cases h

/-- A write that fails leaves all files as they were. -/
theorem write_eq_error {t after : FileTree} {p : Path} {content : String} {f : WriteFault}
    (h : t.write p content = (after, .error f)) : t.SameFiles after := by
  have directories := makeDirectories_sameFiles t p.parent p.parent.parts.length
  unfold write at h
  split at h
  · next made g failed =>
    cases h
    rw [failed] at directories
    exact directories
  · next made ready =>
    rw [ready] at directories
    rw [writeFile_eq_error h]
    exact directories

/-- The places that paths lead to, with what is to be written there. -/
def puts (t : FileTree) (ws : List (Path × String)) : List (List String × String) :=
  ws.map fun w => (t.place w.1, w.2)

theorem puts_of_working {t made : FileTree} (same : made.working = t.working) (ws : List (Path × String)) :
    made.puts ws = t.puts ws := by
  unfold puts
  simp only [place_of_working same]

/-- Writes that succeed one after the other, from a tree to the one that they leave. -/
inductive Written : FileTree → List (Path × String) → FileTree → Prop
  | nil (t : FileTree) : Written t [] t
  | cons {t made after : FileTree} {path : Path} {content : String} {ws : List (Path × String)}
      (first : t.write path content = (made, .ok ())) (later : Written made ws after) :
      Written t ((path, content) :: ws) after

/-- Writes that succeed put their contents to their places and change no other file. -/
theorem Written.files {t after : FileTree} {ws : List (Path × String)} (h : Written t ws after) :
    after.working = t.working ∧ after.filesBelow [] = (t.puts ws).foldl put (t.filesBelow []) := by
  induction h with
  | nil t => exact ⟨rfl, rfl⟩
  | @cons t made after path content ws first later ih =>
    obtain ⟨working, files⟩ := write_eq_ok first
    obtain ⟨workingLater, filesLater⟩ := ih
    constructor
    · rw [workingLater, working]
    · rw [filesLater, files, puts_of_working working]
      rfl

/-- How trying writes in order ends: all of them succeed, or one fails and is the last that is tried. -/
inductive Tried (t : FileTree) (ws : List (Path × String)) : FileTree → Except OutputFault Unit → Prop
  | all {after : FileTree} (written : Written t ws after) : Tried t ws after (.ok ())
  | stopped {before after : FileTree} {done rest : List (Path × String)} {path : Path} {content : String}
      {f : WriteFault} (split : ws = done ++ (path, content) :: rest) (written : Written t done before)
      (failed : before.write path content = (after, .error f)) : Tried t ws after (.error (.of path f))

theorem Tried.cons {t made after : FileTree} {path : Path} {content : String} {ws : List (Path × String)}
    {r : Except OutputFault Unit} (first : t.write path content = (made, .ok ())) (later : Tried made ws after r) :
    Tried t ((path, content) :: ws) after r := by
  cases later with
  | all written =>
    apply Tried.all
    exact .cons first written
  | @stopped before _ done rest last text _ split written failed =>
    have order : (path, content) :: ws = ((path, content) :: done) ++ (last, text) :: rest := by
      rw [split, List.cons_append]
    exact .stopped order (.cons first written) failed

end FileTree

/-- Doing actions tries their writes in order. -/
theorem perform_tried (t : FileTree) (as : List Action) :
    t.Tried (Action.writes as) (perform t as).tree (perform t as).result := by
  induction as generalizing t with
  | nil => exact .all (.nil t)
  | cons a as ih =>
    cases a with
    | tell m => exact ih t
    | write path content =>
      unfold perform
      cases outcome : t.write path content with
      | mk made result =>
        cases result with
        | ok _ => exact .cons outcome (ih made)
        | error f =>
          have order : Action.writes (.write path content :: as) = [] ++ (path, content) :: Action.writes as := rfl
          exact .stopped order (.nil t) outcome

/-! ## What a mode writes -/

/-- The facts of an index with their files. -/
def Index.facts (i : Index) : List (FactFile × Term) :=
  (if i.modules.isEmpty then [] else [(⟨"", "module_index"⟩, i.moduleFact)]) ++
    [(⟨"", "package_index"⟩, i.packageFact)]

/-- What a walk hands on to be written: its facts and, if it comes to its end, those of the index. -/
def Walk.outputs (w : Walk Index) : List (FactFile × Term) :=
  w.writes.map (fun call => (call.1.file, call.2)) ++
    match w.result with
    | .ok i => i.facts
    | .error _ => []

theorem Walk.writes_steps (w : Walk Index) : w.steps.filterMap Output.Step.write? = w.outputs := by
  have events : (w.events.map Event.step).filterMap Output.Step.write? =
      w.writes.map fun call => (call.1.file, call.2) := by
    rw [Walk.writes, List.filterMap_map, List.map_filterMap]
    congr 1
    funext event
    cases event <;> rfl
  unfold Walk.steps Walk.outputs
  rw [List.filterMap_append, events]
  cases w.result with
  | error e => rfl
  | ok i =>
    simp only [Index.steps, Index.facts]
    split <;> rfl

namespace Mode

/-- What a mode writes if nothing fails, in order. A directory that no system takes is refused before the walk, so that
there is nothing to write. -/
def calls (style : Term.Style) (directory : Path) (p : Program) (m : Mode) : List (Path × String) :=
  if (m.root directory).hasNull then []
  else (p.walk m.hasDocs).outputs.map fun w => (w.1.path (m.root directory), content style w.2)

/-- The faults that a mode has of its own, whatever can be written. -/
def Refuses (directory : Path) (p : Program) (m : Mode) : RunFault → Prop
  | .encode e => (p.walk m.hasDocs).result = .error e
  | .output .nullCharacter => (m.root directory).hasNull = true
  | _ => False

end Mode

namespace Script

variable {α β : Type}

theorem bind_of_ok {x : Script α} {a : α} (h : x.result = .ok a) (f : α → Script β) :
    x >>= f = ⟨x.actions ++ (f a).actions, (f a).result⟩ := by
  simp [bind, h]

theorem bind_of_error {x : Script α} {e : RunFault} (h : x.result = .error e) (f : α → Script β) :
    x >>= f = ⟨x.actions, .error e⟩ := by
  simp [bind, h]

end Script

section Modes

variable (working : List String) (style : Term.Style) (directory : Path) (p : Program)

/-- A mode writes its calls, whether it comes to its end or not, and only a fault of its own keeps it from its end. -/
theorem generateMode_calls (m : Mode) :
    Action.writes (generateMode working style directory p m).actions = m.calls style directory p ∧
      ∀ e, (generateMode working style directory p m).result = .error e → m.Refuses directory p e := by
  rw [generateMode, generateModeWith, Mode.calls]
  by_cases null : (m.root directory).hasNull = true
  · have refused : (directory.join (.ofText m.name)).hasNull = true := null
    rw [if_pos null, if_pos refused]
    constructor
    · rfl
    · intro e failed
      cases failed
      exact null
  · have clean : ¬(directory.join (.ofText m.name)).hasNull = true := null
    rw [if_neg null, if_neg clean]
    have told : ∀ ms : List Message, Action.writes (ms.map .tell) = [] := Action.writes_map_tell id
    have planned : Action.writes
        (Output.plan { root := directory.join (.ofText m.name), style } (p.walk m.hasDocs).steps).2 =
          (p.walk m.hasDocs).outputs.map fun w => (w.1.path (m.root directory), Mode.content style w.2) := by
      rw [Output.writes_plan, Walk.writes_steps]
      rfl
    cases walked : (p.walk m.hasDocs).result with
    | ok i =>
      simp only [bind, Script.tell, Script.act, Script.ofResult, walked, Except.mapError, pure]
      constructor
      · simpa [told] using planned
      · intro e failed
        cases failed
    | error f =>
      simp only [bind, Script.tell, Script.act, Script.ofResult, walked, Except.mapError]
      constructor
      · simpa using planned
      · intro e failed
        cases failed
        exact walked

/-- Of several modes, those that are begun write their calls. None is left, or the last one begun has a fault of its
own. -/
theorem generateModes_calls (ms : List Mode) :
    ∃ begun left, ms = begun ++ left ∧
      Action.writes (generateModes working style directory p ms).actions =
        begun.flatMap (Mode.calls style directory p) ∧
      (∀ done, (generateModes working style directory p ms).result = .ok done → left = []) ∧
      ∀ e, (generateModes working style directory p ms).result = .error e →
        ∃ m, begun.getLast? = some m ∧ m.Refuses directory p e := by
  induction ms with
  | nil =>
    refine ⟨[], [], rfl, rfl, fun _ _ => rfl, ?_⟩
    intro e impossible
    cases impossible
  | cons m ms ih =>
    obtain ⟨first, refuses⟩ := generateMode_calls working style directory p m
    obtain ⟨begun, left, split, wrote, whole, fault⟩ := ih
    rw [generateModes, generateModesWith]
    cases result : (generateMode working style directory p m).result with
    | error f =>
      rw [Script.bind_of_error result]
      refine ⟨[m], ms, rfl, ?_, ?_, ?_⟩
      · simpa using first
      · intro done impossible
        cases impossible
      · intro e failed
        cases failed
        exact ⟨m, rfl, refuses f result⟩
    | ok one =>
      rw [Script.bind_of_ok result]
      refine ⟨m :: begun, left, by rw [split, List.cons_append], ?_⟩
      cases later : (generateModes working style directory p ms).result with
      | error f =>
        obtain ⟨last, there, refused⟩ := fault f later
        rw [Script.bind_of_error later]
        refine ⟨?_, ?_, ?_⟩
        · rw [Action.writes_append, first, wrote, List.flatMap_cons]
        · intro done impossible
          cases impossible
        · intro e failed
          cases failed
          exact ⟨last, by rw [List.getLast?_cons, there, Option.getD_some], refused⟩
      | ok rest =>
        rw [Script.bind_of_ok later]
        refine ⟨?_, fun _ _ => whole rest later, ?_⟩
        · simp [first, wrote]
        · intro e impossible
          cases impossible

end Modes

/-! ## Runs -/

/-- What is written in several modes up to some write: all of the modes before one of them, and a part of that one. -/
theorem flatMap_eq_append_cons {α β : Type} {f : α → List β} {as : List α} {done rest : List β} {b : β}
    (h : as.flatMap f = done ++ b :: rest) :
    ∃ before a after part others, as = before ++ a :: after ∧ f a = part ++ b :: others ∧
      done = before.flatMap f ++ part := by
  induction as generalizing done with
  | nil =>
    have impossible := congrArg List.length h
    simp at impossible
  | cons a as ih =>
    rw [List.flatMap_cons] at h
    rcases List.append_eq_append_iff.1 h with ⟨more, split, later⟩ | ⟨more, split, later⟩
    · obtain ⟨before, c, after, part, others, parts, here, before_done⟩ := ih later
      refine ⟨a :: before, c, after, part, others, ?_, here, ?_⟩
      · rw [parts, List.cons_append]
      · rw [split, before_done, List.flatMap_cons, List.append_assoc]
    · cases more with
      | nil =>
        rw [List.nil_append] at later
        have whole : as.flatMap f = [] ++ b :: rest := later.symm
        obtain ⟨before, c, after, part, others, parts, here, before_done⟩ := ih whole
        refine ⟨a :: before, c, after, part, others, ?_, here, ?_⟩
        · rw [parts, List.cons_append]
        · rw [List.append_nil] at split
          rw [List.flatMap_cons, List.append_assoc, ← before_done, List.append_nil, split]
      | cons d more =>
        rw [List.cons_append, List.cons.injEq] at later
        obtain ⟨rfl, -⟩ := later
        exact ⟨[], a, as, done, more, rfl, split, rfl⟩

/-- How a run over modes ended, where `calls` are the writes of a mode if nothing fails and `refuses` are the faults of
its own. -/
inductive RunEnds (calls : Mode → List (Path × String)) (refuses : Mode → RunFault → Prop) (t : FileTree)
    (ms : List Mode) (run : Run Report) : Prop
  /-- No write failed. The modes begun have tried all of their calls. None is left, or the last one begun has a fault of
  its own. -/
  | whole {begun left : List Mode} (split : ms = begun ++ left)
      (written : t.Written (begun.flatMap calls) run.tree)
      (files : run.tree.filesBelow [] = (t.puts (begun.flatMap calls)).foldl FileTree.put (t.filesBelow []))
      (result : match run.result with
        | .ok _ => left = []
        | .error e => ∃ m, begun.getLast? = some m ∧ refuses m e)
  /-- A write failed. The modes before have tried all of their calls, and this mode those up to the one that failed,
  which alone left no file. -/
  | stopped {before after : List Mode} {m : Mode} {done rest : List (Path × String)} {path : Path} {content : String}
      {tree : FileTree} {f : WriteFault} (split : ms = before ++ m :: after)
      (tried : calls m = done ++ (path, content) :: rest)
      (written : t.Written (before.flatMap calls ++ done) tree)
      (failed : tree.write path content = (run.tree, .error f))
      (files : run.tree.filesBelow [] =
        (t.puts (before.flatMap calls ++ done)).foldl FileTree.put (t.filesBelow []))
      (result : run.result = .error (.output (.of path f)))

namespace Generator

variable {g : Generator} {directory : Path} {ms : List Mode}

/-- What a generator writes if nothing fails. -/
theorem generate_calls (found : g.directory = .ok directory) (chosen : g.modes = .ok ms) (working : List String)
    (p : Program) :
    ∃ begun left, ms = begun ++ left ∧
      Action.writes (g.generate working p).actions = begun.flatMap (Mode.calls g.style directory (g.kept p)) ∧
      (∀ r, (g.generate working p).result = .ok r → left = []) ∧
      ∀ e, (g.generate working p).result = .error e →
        ∃ m, begun.getLast? = some m ∧ m.Refuses directory (g.kept p) e := by
  obtain ⟨begun, left, split, wrote, whole, fault⟩ := generateModes_calls working g.style directory (g.kept p) ms
  refine ⟨begun, left, split, ?_⟩
  rw [generate, generateWith, Script.bind_of_ok rfl, Script.bind_of_ok found, Script.bind_of_ok chosen]
  cases result : (generateModes working g.style directory (p.without g.excludesPath) ms).result with
  | error f =>
    rw [Script.bind_of_error result]
    refine ⟨?_, ?_, ?_⟩
    · simpa [kept, Action.writes_map_tell] using wrote
    · intro r impossible
      cases impossible
    · intro e failed
      cases failed
      exact fault f result
  | ok done =>
    rw [Script.bind_of_ok result, Script.bind_of_ok rfl]
    refine ⟨?_, fun _ _ => whole done result, ?_⟩
    · simpa [kept, Action.writes_map_tell, Script.tell, Action.writes] using wrote
    · intro e impossible
      cases impossible

/-- **Runs stop at the first failure.** Let settings be accepted and name a directory, and let the file tree be any. A
run that writes each fact when it is finished ends as the script of all facts does when it is done. If no write fails,
it tries in each mode the facts of the walk and then those of the index, all of them. If a write fails, it is the last
one tried: nothing later in its mode and no later mode is written, the files are those that were there with what the
tries before it have put, and the run gives a fault that names its path. -/
theorem generate_stops_at_failure {defaults overrides : Document} {user : Option SettingsFile} {es : Entries}
    {host : Host} {dir : String} (loaded : Config.load defaults user overrides = .ok es)
    (made : ofSettings es host = .ok g)
    (output : (es.get? "output_dir").getD (.text "prolog-facts") = .text dir) (t : FileTree) (p : Program) :
    ∃ (ms : List Mode) (width : Nat),
      (Config.outputMode es).modes = .ok ms ∧ Config.indent es = .scalar (.integer width) ∧ 0 < width ∧
      (g.stream t.working p).on t = (g.generate t.working p).perform t ∧
      RunEnds (Mode.calls (Config.style es width) (.ofText dir) (g.kept p)) (Mode.Refuses (.ofText dir) (g.kept p)) t ms
        ((g.stream t.working p).on t) := by
  obtain ⟨⟨ms, chosen⟩, width, positive, told⟩ := Config.validate_eq_ok (Config.validate_of_load loaded)
  obtain ⟨settings, style⟩ := ofSettings_eq_ok made told
  refine ⟨ms, width, chosen, told, positive, on_stream g t p, ?_⟩
  have found : g.directory = .ok (.ofText dir) := by
    rw [Generator.directory, settings, output]
    rfl
  have modes : g.modes = .ok ms := by
    rw [Generator.modes, settings, chosen]
    rfl
  obtain ⟨begun, left, split, wrote, whole, fault⟩ := generate_calls found modes t.working p
  have tried := perform_tried t (g.generate t.working p).actions
  rw [wrote, style] at tried
  rw [on_stream, Script.perform]
  generalize ProgramFacts.perform t (g.generate t.working p).actions = deed at tried
  obtain ⟨tree, messages, result⟩ := deed
  cases tried with
  | all written =>
    apply RunEnds.whole split written written.files.2
    cases own : (g.generate t.working p).result with
    | ok r => exact whole r own
    | error e => exact fault e own
  | @stopped before _ done _ path content f reached written failed =>
    obtain ⟨earlier, m, later, part, rest, parts, here, rfl⟩ := flatMap_eq_append_cons reached
    have order : ms = earlier ++ m :: (later ++ left) := by
      rw [split, parts, List.append_assoc, List.cons_append]
    have files : tree.filesBelow [] = before.filesBelow [] := (FileTree.write_eq_error failed).files
    apply RunEnds.stopped order here written failed _ rfl
    rw [files, written.files.2]

/-- A generator that has been told nothing. -/
def default : Generator := { settings := defaultSettings, rules := [], unit := "    " }

/-- A directory stands where the fact of a package is to be written. -/
def blockedTree : FileTree :=
  { working := ["w"]
    entries := [(["w", "prolog-facts"], .directory), (["w", "prolog-facts", "full"], .directory),
      (["w", "prolog-facts", "full", "p"], .directory), (["w", "prolog-facts", "full", "p", "package.pl"], .directory),
      (["w", "old.txt"], .file "kept")] }

/-- The facts of a module and of two types have been written, and nothing after them. -/
theorem generate_stops_at_failure_blocked :
    ∃ run, (default.stream blockedTree.working sharedProgram).on blockedTree = run ∧
      RunEnds (Mode.calls .oneLine (.ofText "prolog-facts") sharedProgram)
        (Mode.Refuses (.ofText "prolog-facts") sharedProgram) blockedTree [.full, .minimal] run ∧
      run.result.isOk = false ∧
      (run.tree.filesBelow ["w"]).map Prod.fst =
        [["prolog-facts", "full", "p", "A.pl"], ["prolog-facts", "full", "m", "module.pl"], ["old.txt"]] := by
  have loaded : Config.load (.mapping defaultSettings) none (.mapping []) = .ok defaultSettings := rfl
  have made : ofSettings defaultSettings = .ok default := by
    have blanks : unitOf .standard 4 = .ok "    " := by decide +kernel
    exact bind_eq_ok_iff.2 ⟨[], rfl, bind_eq_ok_iff.2 ⟨4, rfl, bind_eq_ok_iff.2 ⟨_, blanks, rfl⟩⟩⟩
  have output : (defaultSettings.get? "output_dir").getD (.text "prolog-facts") = .text "prolog-facts" := rfl
  obtain ⟨ms, width, chosen, -, -, -, ends⟩ := generate_stops_at_failure loaded made output blockedTree sharedProgram
  obtain rfl : [.full, .minimal] = ms := Except.ok.inj chosen
  exact ⟨_, rfl, ends, by decide +kernel, by decide +kernel⟩

end Generator

end ProgramFacts
