import Mathlib.Data.List.Dedup
import ProgramFacts.Proofs.Objects
import ProgramFacts.Proofs.Symbols
import ProgramFacts.Proofs.WriteConditions

/-!
# Modes side by side

Each mode writes the same files below a directory of its own, and makes the same directories there. All that modes share
is the way to the output directory, which each of them makes. So a run in several modes leaves below the directory of
each what a run in that mode alone leaves there; it succeeds only if each of them would, and reports what they do, with
the files of all of them.
-/

namespace ProgramFacts

/-! ## The directories that lead to plain files -/

/-- Names that only lead down pass the places of their initial parts. -/
theorem FileTree.mem_route_of_downward {names : List String} (downward : ∀ n ∈ names, n ≠ "..")
    {place q : List String} :
    q ∈ route place names ↔ ∃ initial, initial ≠ [] ∧ initial <+: names ∧ q = place ++ initial := by
  induction names generalizing place with
  | nil =>
    simp only [route, List.not_mem_nil, List.prefix_nil, false_iff]
    rintro ⟨initial, some, none, -⟩
    exact some none
  | cons n names ih =>
    have first : n ≠ ".." := downward n List.mem_cons_self
    rw [route, if_neg first, List.mem_cons, ih fun m member => downward m (List.mem_cons_of_mem _ member)]
    constructor
    · rintro (rfl | ⟨initial, -, part, rfl⟩)
      · exact ⟨[n], by simp, by simp, rfl⟩
      · exact ⟨n :: initial, by simp, by simpa using part, by simp⟩
    · rintro ⟨initial, some, part, rfl⟩
      cases initial with
      | nil => exact absurd rfl some
      | cons m initial =>
        obtain ⟨rfl, rest⟩ := List.cons_prefix_cons.1 part
        by_cases last : initial = []
        · exact Or.inl (by rw [last])
        · exact Or.inr ⟨initial, last, rest, by simp⟩

namespace Mode

variable {style : Term.Style} {directory : Path} {p : Program} {m : Mode} {i : Index} {t : FileTree}

/-- A file of a mode needs the directories that lead to the output directory, and those from there down to it. -/
theorem mem_above {f : FactFile} (plain : f.IsPlain) {q : List String} :
    q ∈ t.above (f.path (m.root directory)) ↔
      q ∈ FileTree.route (t.start directory) directory.parts ∨
        ∃ names, names <+: f.names.dropLast ∧ q = t.place (m.root directory) ++ names := by
  have parts : (f.path (m.root directory)).parts.dropLast = directory.parts ++ (m.name :: f.names.dropLast) := by
    have own : f.names ≠ [] := by simp [FactFile.names]
    rw [FactFile.path_of_plain plain, root_eq, List.dropLast_append_of_ne_nil own, List.append_assoc]
    rfl
  have start : t.start (f.path (m.root directory)) = t.start directory := by
    rw [FactFile.path_of_plain plain, root_eq]
    rfl
  have downward : ∀ n ∈ m.name :: f.names.dropLast, n ≠ ".." := by
    refine List.forall_mem_cons.2 ⟨by cases m <;> decide, fun n member => ?_⟩
    exact f.downward_names n ((List.dropLast_sublist _).subset member)
  rw [FileTree.above, start, parts, FileTree.route_append, List.mem_append, FileTree.mem_route_of_downward downward]
  refine or_congr_right ?_
  rw [place_root]
  constructor
  · rintro ⟨initial, some, part, rfl⟩
    cases initial with
    | nil => exact absurd rfl some
    | cons n initial =>
      obtain ⟨rfl, rest⟩ := List.cons_prefix_cons.1 part
      exact ⟨initial, rest, by rw [List.append_assoc]; rfl⟩
  · rintro ⟨names, part, rfl⟩
    exact ⟨m.name :: names, by simp, by simpa using part, by rw [List.append_assoc]; rfl⟩

end Mode

/-! ## What a mode writes -/

/-- The files of a program: those of its subjects and of its index, in the order in which they are written. -/
def Program.files (p : Program) : List FactFile :=
  p.subjects.map (·.key.file) ++
    ((if p.modules.isEmpty then [] else [⟨"", "module_index"⟩]) ++ [⟨"", "package_index"⟩])

theorem Program.files_outputs {docs : Bool} {p : Program} {i : Index} (ended : (p.walk docs).result = .ok i) :
    (p.outputs docs).map Prod.fst = p.files := by
  have keys := congrArg (List.map Key.file) (Program.keys_walk ended)
  rw [List.map_map, List.map_map] at keys
  have subjects : ((p.walk docs).writes.map fun call => (call.1.file, call.2)).map Prod.fst =
      p.subjects.map (·.key.file) := by
    rw [List.map_map]
    exact keys
  rw [Program.outputs, Program.files, List.map_append, List.map_append, subjects]
  cases p.modules <;> rfl

theorem Program.isPlain_files {p : Program} (plain : ∀ s ∈ p.subjects, s.key.file.IsPlain) :
    ∀ f ∈ p.files, f.IsPlain := by
  intro f member
  rcases List.mem_append.1 member with own | index
  · obtain ⟨s, held, rfl⟩ := List.mem_map.1 own
    exact plain s held
  · have either : f = ⟨"", "module_index"⟩ ∨ f = ⟨"", "package_index"⟩ := by
      split at index
      · exact Or.inr (List.mem_singleton.1 index)
      · simpa using index
    rcases either with rfl | rfl <;> exact ⟨by decide, by decide⟩

namespace Mode

variable {style : Term.Style} {directory : Path} {p : Program} {m : Mode} {i : Index} {t : FileTree}

/-- What a mode writes if it comes to its end, in order. -/
def writes (style : Term.Style) (directory : Path) (p : Program) (m : Mode) : List (Path × String) :=
  (m.facts directory p).map fun w => (w.1, content style w.2)

theorem puts_writes : t.puts (m.writes style directory p) = m.puts t style directory p := by
  rw [FileTree.puts, writes, puts, List.map_map]
  rfl

theorem paths_facts (ended : (p.walk m.hasDocs).result = .ok i) :
    (m.facts directory p).map Prod.fst = p.files.map (FactFile.path (m.root directory)) := by
  rw [← Program.files_outputs ended, facts, List.map_map, List.map_map]
  rfl

variable (ended : (p.walk m.hasDocs).result = .ok i) (plain : ∀ s ∈ p.subjects, s.key.file.IsPlain)

include ended plain

/-- The directories that a mode needs: those that lead to the output directory, and those above its files. -/
theorem mem_ways {q : List String} :
    q ∈ t.ways (m.writes style directory p) ↔
      q ∈ FileTree.route (t.start directory) directory.parts ∨
        ∃ f ∈ p.files, ∃ names, names <+: f.names.dropLast ∧ q = t.place (m.root directory) ++ names := by
  have files := Program.isPlain_files plain
  have all : q ∈ t.ways (m.writes style directory p) ↔ ∃ f ∈ p.files, q ∈ t.above (f.path (m.root directory)) := by
    have paths : (m.writes style directory p).map Prod.fst = p.files.map (FactFile.path (m.root directory)) := by
      rw [← paths_facts ended, writes, List.map_map]
      rfl
    rw [FileTree.ways, List.mem_flatMap]
    constructor
    · rintro ⟨w, held, above⟩
      have listed := List.mem_map_of_mem (f := Prod.fst) held
      rw [paths] at listed
      obtain ⟨f, member, same⟩ := List.mem_map.1 listed
      exact ⟨f, member, by rwa [same]⟩
    · rintro ⟨f, member, above⟩
      have listed : f.path (m.root directory) ∈ (m.writes style directory p).map Prod.fst := by
        rw [paths]
        exact List.mem_map_of_mem member
      obtain ⟨w, held, same⟩ := List.mem_map.1 listed
      exact ⟨w, held, by rwa [same]⟩
  rw [all]
  constructor
  · rintro ⟨f, member, above⟩
    rcases (mem_above (files f member)).1 above with shared | ⟨names, part, same⟩
    · exact Or.inl shared
    · exact Or.inr ⟨f, member, names, part, same⟩
  · rintro (shared | ⟨f, member, own⟩)
    · -- the index of packages is written in any case
      have index : (⟨"", "package_index"⟩ : FactFile) ∈ p.files := by simp [Program.files]
      exact ⟨_, index, (mem_above (files _ index)).2 (Or.inl shared)⟩
    · exact ⟨f, member, (mem_above (files f member)).2 (Or.inr own)⟩

/-- As many paths are noted in a mode as files have different names, whatever the mode. -/
theorem length_written :
    (m.plan style directory p).1.written.length = (p.files.map FactFile.names).dedup.length := by
  obtain ⟨nodup, members⟩ : (m.plan style directory p).1.written.Nodup ∧
      ∀ q, q ∈ (m.plan style directory p).1.written ↔ q ∈ (m.facts directory p).map Prod.fst := written_plan ended
  let below (names : List String) : Path := { m.root directory with parts := (m.root directory).parts ++ names }
  have apart : Function.Injective below := by
    intro a b same
    exact List.append_cancel_left (Path.mk.inj same).2
  have once : ((p.files.map FactFile.names).dedup.map below).Nodup := (List.nodup_dedup _).map apart
  have paths : p.files.map (FactFile.path (m.root directory)) = (p.files.map FactFile.names).map below := by
    rw [List.map_map]
    refine List.map_congr_left fun f member => ?_
    exact FactFile.path_of_plain (Program.isPlain_files plain f member) _
  have same : ∀ q, q ∈ (m.plan style directory p).1.written ↔ q ∈ (p.files.map FactFile.names).dedup.map below := by
    intro q
    rw [members, paths_facts ended, paths]
    simp only [List.mem_map, List.mem_dedup]
  have lengths := ((List.perm_ext_iff_of_nodup nodup once).2 same).length_eq
  rwa [List.length_map] at lengths

end Mode

/-! ## Runs in several modes -/

section Modes

variable {style : Term.Style} {directory : Path} {p : Program} {ms : List Mode} {t : FileTree}

/-- What several modes write, one after the other. -/
def writesIn (style : Term.Style) (directory : Path) (p : Program) (ms : List Mode) : List (Path × String) :=
  ms.flatMap (Mode.writes style directory p)

theorem puts_writesIn : t.puts (writesIn style directory p ms) = writtenIn t directory style p ms := by
  rw [FileTree.puts, writesIn, List.map_flatMap, writtenIn]
  refine List.flatMap_congr fun m _ => ?_
  exact Mode.puts_writes

variable (ended : ∀ m ∈ ms, ∃ i, (p.walk m.hasDocs).result = .ok i) (plain : ∀ s ∈ p.subjects, s.key.file.IsPlain)

include ended plain

/-- Below the directory of a mode, no other mode needs directories. -/
theorem mem_ways_below {m : Mode} (chosen : m ∈ ms) {names : List String} :
    t.place (m.root directory) ++ names ∈ t.ways (writesIn style directory p ms) ↔
      t.place (m.root directory) ++ names ∈ t.ways (m.writes style directory p) := by
  obtain ⟨i, done⟩ := ended m chosen
  constructor
  · intro needed
    obtain ⟨w, held, above⟩ := List.mem_flatMap.1 needed
    obtain ⟨n, other, written⟩ := List.mem_flatMap.1 held
    obtain ⟨j, doneToo⟩ := ended n other
    have way : t.place (m.root directory) ++ names ∈ t.ways (n.writes style directory p) :=
      List.mem_flatMap.2 ⟨w, written, above⟩
    rw [Mode.mem_ways done plain]
    rcases (Mode.mem_ways doneToo plain).1 way with shared | ⟨f, member, initial, part, same⟩
    · exact Or.inl shared
    · rw [Mode.place_root, Mode.place_root, List.append_assoc, List.append_assoc] at same
      obtain ⟨-, own⟩ : m.name = n.name ∧ names = initial := by simpa using List.append_cancel_left same
      rw [← own] at part
      exact Or.inr ⟨f, member, names, part, rfl⟩
  · intro needed
    obtain ⟨w, written, above⟩ := List.mem_flatMap.1 needed
    exact List.mem_flatMap.2 ⟨w, List.mem_flatMap.2 ⟨m, chosen, written⟩, above⟩

/-- A mode leaves below its directory what it would leave alone. -/
theorem sameBelow_alone {after alone : FileTree} {m : Mode} (chosen : m ∈ ms)
    (all : t.Written (writesIn style directory p ms) after) (one : t.Written (m.writes style directory p) alone) :
    FileTree.SameBelow (t.place (m.root directory)) alone after := by
  obtain ⟨-, -, lookupAll⟩ := all.admits
  obtain ⟨-, -, lookupOne⟩ := one.admits
  have last : ∀ names,
      (t.puts (writesIn style directory p ms)).reverse.lookup (t.place (m.root directory) ++ names) =
        (t.puts (m.writes style directory p)).reverse.lookup (t.place (m.root directory) ++ names) := by
    intro names
    rw [puts_writesIn, Mode.puts_writes]
    exact lookup_writtenIn ended plain chosen names
  constructor
  case lookup =>
    intro names
    rw [lookupAll, lookupOne, FileTree.overlay, FileTree.overlay, last]
    simp only [mem_ways_below ended plain chosen]
  case files =>
    rintro ⟨names, content⟩
    rw [FileTree.mem_filesBelow (t := after), FileTree.mem_filesBelow (t := alone), all.files.2, one.files.2,
      FileTree.mem_foldl_put, FileTree.mem_foldl_put, ← FileTree.lookup_reverse_eq_none,
      ← FileTree.lookup_reverse_eq_none, last]

/-- Where no files were, those below the directory of a mode are named as the files of the program. -/
theorem names_below {after : FileTree} {m : Mode} (chosen : m ∈ ms) (empty : t.filesBelow (t.place directory) = [])
    (all : t.Written (writesIn style directory p ms) after) (names : List String) :
    names ∈ (after.filesBelow (t.place (m.root directory))).map Prod.fst ↔ ∃ f ∈ p.files, f.names = names := by
  obtain ⟨i, done⟩ := ended m chosen
  have files := all.files.2
  rw [puts_writesIn] at files
  have paths : (m.facts directory p).map Prod.fst = p.files.map (FactFile.path (m.root directory)) :=
    Mode.paths_facts done
  rw [names_below_root ended plain empty files chosen]
  constructor
  · rintro ⟨w, held, place⟩
    have listed := List.mem_map_of_mem (f := Prod.fst) held
    rw [paths] at listed
    obtain ⟨f, member, same⟩ := List.mem_map.1 listed
    rw [← same, FactFile.place_path (Program.isPlain_files plain f member)] at place
    exact ⟨f, member, List.append_cancel_left place⟩
  · rintro ⟨f, member, rfl⟩
    have listed : f.path (m.root directory) ∈ (m.facts directory p).map Prod.fst := by
      rw [paths]
      exact List.mem_map_of_mem member
    obtain ⟨w, held, same⟩ := List.mem_map.1 listed
    exact ⟨w, held, by rw [same, FactFile.place_path (Program.isPlain_files plain f member)]⟩

/-- Where nothing was, and only names lead to the output directory, the directories below that of a mode are those above
the files of the program. -/
theorem directories_below {after : FileTree} {m : Mode} (chosen : m ∈ ms)
    (bare : ∀ names, names ≠ [] → t.lookup (t.place directory ++ names) = none)
    (downward : ∀ n ∈ directory.parts, n ≠ "..") (all : t.Written (writesIn style directory p ms) after)
    (names : List String) :
    after.lookup (t.place (m.root directory) ++ names) = some .directory ↔
      ∃ f ∈ p.files, names <+: f.names.dropLast := by
  obtain ⟨i, done⟩ := ended m chosen
  obtain ⟨-, -, lookup⟩ := all.admits
  have below : t.place (m.root directory) ++ names = t.place directory ++ m.name :: names := by
    rw [Mode.place_root, List.append_assoc]
    rfl
  have nothing : t.lookup (t.place (m.root directory) ++ names) = none := by
    rw [below]
    exact bare _ (List.cons_ne_nil _ _)
  have needed : after.lookup (t.place (m.root directory) ++ names) = some .directory ↔
      t.place (m.root directory) ++ names ∈ t.ways (writesIn style directory p ms) := by
    refine ⟨fun there => ?_, all.lookup_of_mem_ways⟩
    rw [lookup, FileTree.overlay] at there
    split at there
    · cases there
    · split at there
      · next new => exact new.2
      · rw [nothing] at there
        cases there
  rw [needed, mem_ways_below ended plain chosen, Mode.mem_ways done plain]
  constructor
  · rintro (shared | ⟨f, member, initial, part, same⟩)
    · -- the way to the output directory ends there
      obtain ⟨initial, -, part, same⟩ := (FileTree.mem_route_of_downward downward).1 shared
      rw [below, FileTree.place, FileTree.descend_of_downward downward] at same
      have longer := congrArg List.length same
      have shorter := part.length_le
      simp at longer
      omega
    · rw [List.append_cancel_left same]
      exact ⟨f, member, part⟩
  · rintro ⟨f, member, part⟩
    exact Or.inr ⟨f, member, names, part, rfl⟩

end Modes

/-! ## Reports -/

section Results

variable {working : List String} {style : Term.Style} {directory : Path} {p : Program}

theorem mapError_eq_ok {ε ε' α : Type} {x : Except ε α} {f : ε → ε'} {a : α} : x.mapError f = .ok a ↔ x = .ok a := by
  cases x <;> simp [Except.mapError]

/-- A mode comes to its end unless its directory is refused or its walk does not end. -/
theorem generateMode_result {m : Mode} {done : Tally × Output} :
    (generateMode working style directory p m).result = .ok done ↔
      ((m.root directory).hasNull = false ∧ ∃ i, (p.walk m.hasDocs).result = .ok i) ∧
        done = ((p.walk m.hasDocs).tally, (m.plan style directory p).1) := by
  rw [generateMode, generateModeWith]
  by_cases null : (m.root directory).hasNull = true
  · have refused : (directory.join (.ofText m.name)).hasNull = true := null
    rw [if_pos refused]
    simp [Script.ofResult, null]
  · have clean : ¬(directory.join (.ofText m.name)).hasNull = true := null
    rw [if_neg clean]
    constructor
    · intro h
      obtain ⟨_, -, h⟩ := Script.result_bind_eq_ok.1 h
      obtain ⟨_, -, h⟩ := Script.result_bind_eq_ok.1 h
      obtain ⟨i, walked, h⟩ := Script.result_bind_eq_ok.1 h
      obtain ⟨_, -, h⟩ := Script.result_bind_eq_ok.1 h
      cases h
      exact ⟨⟨by simpa using null, i, mapError_eq_ok.1 walked⟩, rfl⟩
    · rintro ⟨⟨-, i, walked⟩, rfl⟩
      refine Script.result_bind_eq_ok.2 ⟨(), rfl, Script.result_bind_eq_ok.2 ⟨(), rfl, ?_⟩⟩
      exact Script.result_bind_eq_ok.2 ⟨i, mapError_eq_ok.2 walked, Script.result_bind_eq_ok.2 ⟨(), rfl, rfl⟩⟩

theorem generateModes_result {ms : List Mode} {done : List (Tally × Output)} :
    (generateModes working style directory p ms).result = .ok done ↔
      (∀ m ∈ ms, (m.root directory).hasNull = false ∧ ∃ i, (p.walk m.hasDocs).result = .ok i) ∧
        done = ms.map fun m => ((p.walk m.hasDocs).tally, (m.plan style directory p).1) := by
  induction ms generalizing done with
  | nil =>
    rw [generateModes, generateModesWith]
    constructor
    · intro h
      cases h
      exact ⟨by simp, rfl⟩
    · rintro ⟨-, rfl⟩
      rfl
  | cons m ms ih =>
    rw [generateModes, generateModesWith]
    simp only [Script.result_bind_eq_ok, generateMode_result, ih, List.forall_mem_cons, List.map_cons]
    constructor
    · rintro ⟨_, ⟨first, rfl⟩, _, ⟨others, rfl⟩, same⟩
      exact ⟨⟨first, others⟩, (Except.ok.inj same).symm⟩
    · rintro ⟨⟨first, others⟩, rfl⟩
      exact ⟨_, ⟨first, rfl⟩, _, ⟨others, rfl⟩, rfl⟩

end Results

/-- Walks that come to their ends count the same, with documentation or without. -/
theorem Program.tally_walk {p : Program} {docs docs' : Bool} {i j : Index} (ended : (p.walk docs).result = .ok i)
    (endedToo : (p.walk docs').result = .ok j) : (p.walk docs).tally = (p.walk docs').tally := by
  rw [Program.walk_tallies docs p (Walk.isOk_iff.2 ⟨i, ended⟩),
    Program.walk_tallies docs' p (Walk.isOk_iff.2 ⟨j, endedToo⟩)]

namespace Generator

section Runs

variable {g : Generator} {directory : Path} {ms : List Mode} {t : FileTree} {p : Program} {r : Report}

/-- A run is done if each mode is, and then it reports what the modes come to. -/
theorem generate_result {working : List String} (found : g.directory = .ok directory) (modes : g.modes = .ok ms) :
    (g.generate working p).result = .ok r ↔
      (∀ m ∈ ms, (m.root directory).hasNull = false ∧ ∃ i, ((g.kept p).walk m.hasDocs).result = .ok i) ∧
        r = report (g.excludedPackages p).length
          (ms.map fun m => (((g.kept p).walk m.hasDocs).tally, (m.plan g.style directory (g.kept p)).1)) := by
  rw [generate, generateWith]
  constructor
  · intro h
    obtain ⟨_, -, h⟩ := Script.result_bind_eq_ok.1 h
    obtain ⟨directory', here, h⟩ := Script.result_bind_eq_ok.1 h
    obtain ⟨ms', chosen, h⟩ := Script.result_bind_eq_ok.1 h
    obtain ⟨done, generated, h⟩ := Script.result_bind_eq_ok.1 h
    obtain ⟨_, -, h⟩ := Script.result_bind_eq_ok.1 h
    obtain rfl : directory = directory' := Except.ok.inj (found.symm.trans here)
    obtain rfl : ms = ms' := Except.ok.inj (modes.symm.trans chosen)
    obtain ⟨all, rfl⟩ := generateModes_result.1 generated
    cases h
    exact ⟨all, rfl⟩
  · rintro ⟨all, rfl⟩
    refine Script.result_bind_eq_ok.2 ⟨(), rfl, Script.result_bind_eq_ok.2 ⟨directory, found, ?_⟩⟩
    refine Script.result_bind_eq_ok.2 ⟨ms, modes, Script.result_bind_eq_ok.2 ⟨_, generateModes_result.2 ⟨all, rfl⟩, ?_⟩⟩
    exact Script.result_bind_eq_ok.2 ⟨(), rfl, rfl⟩

/-- What a run that would come to its end writes. -/
theorem writes_generate {working : List String} (found : g.directory = .ok directory) (modes : g.modes = .ok ms)
    (result : (g.generate working p).result = .ok r) :
    Action.writes (g.generate working p).actions = writesIn g.style directory (g.kept p) ms := by
  obtain ⟨directory', ms', here, chosen, ended, -, wrote⟩ := generate_eq_ok result
  obtain rfl : directory = directory' := Except.ok.inj (found.symm.trans here)
  obtain rfl : ms = ms' := Except.ok.inj (modes.symm.trans chosen)
  rw [wrote, writesIn]
  refine List.flatMap_congr fun m member => ?_
  obtain ⟨i, done⟩ := ended m member
  exact Mode.writes_plan done

theorem generate_written (found : g.directory = .ok directory) (modes : g.modes = .ok ms)
    (returned : ((g.generate t.working p).perform t).result = .ok r) :
    t.Written (writesIn g.style directory (g.kept p) ms) ((g.generate t.working p).perform t).tree := by
  obtain ⟨result, performed, tree⟩ := Script.perform_result_eq_ok returned
  rw [tree, ← writes_generate found modes result]
  exact written_of_perform performed

/-- What a run reports: the counts of any of its modes, and as many files for each of them. -/
theorem report_generate {working : List String} (found : g.directory = .ok directory) (modes : g.modes = .ok ms)
    (plain : ∀ s ∈ (g.kept p).subjects, s.key.file.IsPlain) (result : (g.generate working p).result = .ok r) :
    (∀ m ∈ ms, r.tally = ((g.kept p).walk m.hasDocs).tally) ∧ r.excluded = (g.excludedPackages p).length ∧
      r.files = ms.length * ((g.kept p).files.map FactFile.names).dedup.length := by
  obtain ⟨all, rfl⟩ := (generate_result found modes).1 result
  refine ⟨fun m member => ?_, rfl, ?_⟩
  · obtain ⟨-, i, done⟩ := all m member
    cases ms with
    | nil => cases member
    | cons n ms =>
      obtain ⟨-, j, first⟩ := all n List.mem_cons_self
      exact Program.tally_walk first done
  · have counts : ms.map (fun m => (m.plan g.style directory (g.kept p)).1.written.length) =
        ms.map fun _ => ((g.kept p).files.map FactFile.names).dedup.length := by
      refine List.map_congr_left fun m member => ?_
      obtain ⟨-, i, done⟩ := all m member
      exact Mode.length_written done plain
    rw [List.map_const'] at counts
    rw [report, List.map_map]
    change (ms.map fun m => (m.plan g.style directory (g.kept p)).1.written.length).sum = _
    rw [counts, List.sum_replicate_nat]

/-- Where a run in several modes comes to its end, so does a run in one of them. It leaves the same below the directory
of that mode, and counts the same. -/
theorem generate_alone (one : Generator) {m : Mode} (rules : one.rules = g.rules) (style : one.style = g.style)
    (here : one.directory = g.directory) (alone : one.modes = .ok [m]) (chosen : m ∈ ms)
    (found : g.directory = .ok directory) (modes : g.modes = .ok ms)
    (plain : ∀ s ∈ (g.kept p).subjects, s.key.file.IsPlain)
    (returned : ((g.generate t.working p).perform t).result = .ok r) :
    ∃ r', ((one.generate t.working p).perform t).result = .ok r' ∧
      FileTree.SameBelow (t.place (m.root directory)) ((one.generate t.working p).perform t).tree
        ((g.generate t.working p).perform t).tree ∧
      r'.tally = r.tally ∧ r'.excluded = r.excluded ∧ r.files = ms.length * r'.files := by
  have alike : one.excludesPath = g.excludesPath := funext fun path => by rw [excludesPath, excludesPath, rules]
  have kept : one.kept p = g.kept p := by rw [Generator.kept, Generator.kept, alike]
  have excluded : one.excludedPackages p = g.excludedPackages p := by simp only [excludedPackages, excludes, alike]
  have foundToo : one.directory = .ok directory := here.trans found
  have written := generate_written found modes returned
  have whole := (Script.perform_result_eq_ok returned).1
  obtain ⟨all, -⟩ := (generate_result found modes).1 whole
  -- the script of the one mode comes to its end
  obtain ⟨r', result⟩ : ∃ r', (one.generate t.working p).result = .ok r' := by
    refine ⟨_, (generate_result foundToo alone).2 ⟨?_, rfl⟩⟩
    rw [kept]
    simpa using all m chosen
  -- its writes are some of those of the whole run, so they succeed
  have writes : Action.writes (one.generate t.working p).actions = m.writes g.style directory (g.kept p) := by
    rw [writes_generate foundToo alone result, kept, style, writesIn, List.flatMap_singleton]
  have part : m.writes g.style directory (g.kept p) ⊆ writesIn g.style directory (g.kept p) ms :=
    fun w member => List.mem_flatMap.2 ⟨m, chosen, member⟩
  obtain ⟨after, succeeded⟩ := (written.admits.1.subset part).written
  have performed := perform_of_written (by rwa [writes])
  have run : (one.generate t.working p).perform t =
      ⟨after, (one.generate t.working p).actions.filterMap Action.message?, .ok r'⟩ := by
    rw [Script.perform, performed, result]
  obtain ⟨tallies, excludedAll, filesAll⟩ := report_generate found modes plain whole
  obtain ⟨talliesOne, excludedOne, filesOne⟩ := report_generate foundToo alone (by rwa [kept]) result
  refine ⟨r', by rw [run], ?_, ?_, ?_, ?_⟩
  · rw [run]
    exact sameBelow_alone (fun n member => (all n member).2) plain chosen written succeeded
  · rw [talliesOne m List.mem_cons_self, kept, tallies m chosen]
  · rw [excludedOne, excluded, excludedAll]
  · rw [filesAll, filesOne, kept, List.length_singleton, Nat.one_mul]

end Runs

end Generator

/-! ## Settings that differ in the mode -/

/-- Whether settings are the same but for the choice of modes. -/
def Config.AgreeExceptMode (es es' : Entries) : Prop := ∀ name, name ≠ "output_mode" → es'.get? name = es.get? name

namespace Generator

/-- Settings that differ only in the mode make generators that differ only in the settings they keep. -/
theorem ofSettings_of_agree {host : Host} {es es' : Entries} {g : Generator} (agree : Config.AgreeExceptMode es es')
    (made : ofSettings es host = .ok g) :
    g.settings = es ∧ ofSettings es' host = .ok { g with settings := es' } ∧
      Generator.style { g with settings := es' } = g.style ∧
      Generator.directory { g with settings := es' } = g.directory := by
  have indent : Config.indent es' = Config.indent es := by rw [Config.indent, Config.indent, agree _ (by decide)]
  rw [ofSettings] at made
  obtain ⟨rules, ruled, made⟩ := bind_eq_ok_iff.1 made
  obtain ⟨width, wide, made⟩ := bind_eq_ok_iff.1 made
  obtain ⟨unit, blank, made⟩ := bind_eq_ok_iff.1 made
  cases made
  refine ⟨rfl, ?_, ?_, ?_⟩
  · rw [ofSettings, agree _ (by decide), indent]
    exact bind_eq_ok_iff.2 ⟨rules, ruled, bind_eq_ok_iff.2 ⟨width, wide, bind_eq_ok_iff.2 ⟨unit, blank, rfl⟩⟩⟩
  · rw [style, style, agree _ (by decide)]
  · rw [Generator.directory, Generator.directory, agree _ (by decide)]

theorem modes_of_choice {g : Generator} {choice : String} {ms : List Mode}
    (told : Config.outputMode g.settings = .text choice) (known : Mode.ofChoice? choice = some ms) :
    g.modes = .ok ms := by
  rw [modes, told, Document.text, Document.modes, known]
  rfl

/-- How a run in both modes compares with runs in each of them from the same file tree. -/
structure Composed (t : FileTree) (directory : Path) (both full minimal : FileTree) (r rFull rMinimal : Report) :
    Prop where
  full : FileTree.SameBelow (t.place (Mode.full.root directory)) full both
  minimal : FileTree.SameBelow (t.place (Mode.minimal.root directory)) minimal both
  /-- Where no files were, the same ones are in both trees, -/
  files : t.filesBelow (t.place directory) = [] → ∀ names,
    names ∈ (both.filesBelow (t.place (Mode.full.root directory))).map Prod.fst ↔
      names ∈ (both.filesBelow (t.place (Mode.minimal.root directory))).map Prod.fst
  /-- and where nothing was, so are the same directories, if the path of the output directory does not lead out of it
  again. -/
  directories : (∀ names, names ≠ [] → t.lookup (t.place directory ++ names) = none) →
    (∀ n ∈ directory.parts, n ≠ "..") → ∀ names,
    both.lookup (t.place (Mode.full.root directory) ++ names) = some .directory ↔
      both.lookup (t.place (Mode.minimal.root directory) ++ names) = some .directory
  tally : rFull.tally = r.tally ∧ rMinimal.tally = r.tally
  excluded : rFull.excluded = r.excluded ∧ rMinimal.excluded = r.excluded
  counted : r.files = rFull.files + rMinimal.files ∧ rFull.files = rMinimal.files

/-- **Modes compose.** Let the names of what is written have no slashes, and let a run in both modes come to its end.
Then so do runs from the same file tree with settings that choose one mode and are the same otherwise. Below the
directory of each mode they leave the same files and directories, with the same contents; both trees have the same
paths; what is counted is the same in all three reports, and the files of both modes are those of each, as many in one
as in the other. -/
theorem generate_composes {host : Host} {es esFull esMinimal : Entries} {g : Generator} {directory : Path}
    {t : FileTree} {p : Program} {run : Run Report} {r : Report}
    (made : ofSettings es host = .ok g) (both : Config.outputMode es = .text "both")
    (likeFull : Config.AgreeExceptMode es esFull) (full : Config.outputMode esFull = .text "full")
    (likeMinimal : Config.AgreeExceptMode es esMinimal) (minimal : Config.outputMode esMinimal = .text "minimal")
    (found : g.directory = .ok directory) (plain : ∀ s ∈ (g.kept p).subjects, s.key.file.IsPlain)
    (ran : (g.generate t.working p).perform t = run) (returned : run.result = .ok r) :
    ∃ (gFull gMinimal : Generator) (runFull runMinimal : Run Report) (rFull rMinimal : Report),
      ofSettings esFull host = .ok gFull ∧ (gFull.generate t.working p).perform t = runFull ∧
      runFull.result = .ok rFull ∧
      ofSettings esMinimal host = .ok gMinimal ∧ (gMinimal.generate t.working p).perform t = runMinimal ∧
      runMinimal.result = .ok rMinimal ∧
      Composed t directory run.tree runFull.tree runMinimal.tree r rFull rMinimal := by
  subst ran
  obtain ⟨settings, madeFull, styleFull, directoryFull⟩ := ofSettings_of_agree likeFull made
  obtain ⟨-, madeMinimal, styleMinimal, directoryMinimal⟩ := ofSettings_of_agree likeMinimal made
  have modes : g.modes = .ok [.full, .minimal] := modes_of_choice (settings ▸ both) rfl
  have onlyFull : Generator.modes { g with settings := esFull } = .ok [.full] := modes_of_choice full rfl
  have onlyMinimal : Generator.modes { g with settings := esMinimal } = .ok [.minimal] := modes_of_choice minimal rfl
  obtain ⟨rFull, endsFull, belowFull, tallyFull, excludedFull, filesFull⟩ :=
    generate_alone (g := g) { g with settings := esFull } rfl styleFull directoryFull onlyFull (by decide) found modes
      plain returned
  obtain ⟨rMinimal, endsMinimal, belowMinimal, tallyMinimal, excludedMinimal, filesMinimal⟩ :=
    generate_alone (g := g) { g with settings := esMinimal } rfl styleMinimal directoryMinimal onlyMinimal (by decide)
      found modes plain returned
  have written := generate_written found modes returned
  obtain ⟨all, -⟩ := (generate_result found modes).1 (Script.perform_result_eq_ok returned).1
  have ended : ∀ m ∈ [Mode.full, .minimal], ∃ i, ((g.kept p).walk m.hasDocs).result = .ok i :=
    fun m member => (all m member).2
  refine ⟨_, _, _, _, rFull, rMinimal, madeFull, rfl, endsFull, madeMinimal, rfl, endsMinimal, ?_⟩
  constructor
  case full => exact belowFull
  case minimal => exact belowMinimal
  case files =>
    intro empty names
    rw [names_below ended plain (by decide) empty written, names_below ended plain (by decide) empty written]
  case directories =>
    intro bare downward names
    rw [directories_below ended plain (by decide) bare downward written,
      directories_below ended plain (by decide) bare downward written]
  case tally => exact ⟨tallyFull, tallyMinimal⟩
  case excluded => exact ⟨excludedFull, excludedMinimal⟩
  case counted =>
    rw [List.length_cons, List.length_singleton] at filesFull filesMinimal
    omega

/-- A class and a record in it share a file, so each mode alone reports six files, and both report twelve. -/
theorem generate_composes_shared :
    ∃ (gFull gMinimal : Generator) (run runFull runMinimal : Run Report) (r rFull rMinimal : Report),
      (default.generate treeSample.working sharedProgram).perform treeSample = run ∧ run.result = .ok r ∧
      ofSettings (defaultSettings.set (.text "output_mode") (.text "full")) = .ok gFull ∧
      (gFull.generate treeSample.working sharedProgram).perform treeSample = runFull ∧ runFull.result = .ok rFull ∧
      ofSettings (defaultSettings.set (.text "output_mode") (.text "minimal")) = .ok gMinimal ∧
      (gMinimal.generate treeSample.working sharedProgram).perform treeSample = runMinimal ∧
      runMinimal.result = .ok rMinimal ∧
      Composed treeSample (.ofText "prolog-facts") run.tree runFull.tree runMinimal.tree r rFull rMinimal ∧
      r.files = 12 ∧ rFull.files = 6 := by
  have made : ofSettings defaultSettings = .ok default := by
    have blanks : unitOf .standard 4 = .ok "    " := by decide +kernel
    exact bind_eq_ok_iff.2 ⟨[], rfl, bind_eq_ok_iff.2 ⟨4, rfl, bind_eq_ok_iff.2 ⟨_, blanks, rfl⟩⟩⟩
  have alike : ∀ choice, Config.AgreeExceptMode defaultSettings
      (defaultSettings.set (.text "output_mode") (.text choice)) := by
    intro choice name other
    exact Entries.get?_set_of_ne other _
  have plain : ∀ s ∈ (default.kept sharedProgram).subjects, s.key.file.IsPlain := by
    have remaining : default.kept sharedProgram = sharedProgram := rfl
    rw [remaining]
    decide
  have ends : ((default.generate treeSample.working sharedProgram).perform treeSample).result.toOption.map (·.files) =
      some 12 := by
    decide +kernel
  obtain ⟨r, returned, files⟩ : ∃ r,
      ((default.generate treeSample.working sharedProgram).perform treeSample).result = .ok r ∧ r.files = 12 := by
    cases result : ((default.generate treeSample.working sharedProgram).perform treeSample).result with
    | ok r =>
      rw [result] at ends
      exact ⟨r, rfl, Option.some.inj ends⟩
    | error f =>
      rw [result] at ends
      cases ends
  obtain ⟨gFull, gMinimal, runFull, runMinimal, rFull, rMinimal, madeFull, ranFull, endsFull, madeMinimal, ranMinimal,
      endsMinimal, composed⟩ :=
    generate_composes made rfl (alike "full") rfl (alike "minimal") rfl rfl plain rfl returned
  obtain ⟨sum, same⟩ := composed.counted
  exact ⟨gFull, gMinimal, _, runFull, runMinimal, r, rFull, rMinimal, rfl, returned, madeFull, ranFull, endsFull,
    madeMinimal, ranMinimal, endsMinimal, composed, files, by omega⟩

end Generator

end ProgramFacts
