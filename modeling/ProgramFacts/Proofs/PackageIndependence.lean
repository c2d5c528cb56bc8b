import ProgramFacts.Proofs.ModeComposition
import ProgramFacts.Proofs.PackageIndex

/-!
# Packages are independent

The facts of a package are those of its own walk. So where no path is written twice, the files of a package are the same
in all runs that do not exclude it, whatever else is in the program. What is shared by all packages is the index of
them, and there each has an entry of its own.
-/

namespace ProgramFacts

/-! ## Facts with their files -/

/-- Where no key is written twice, what was written last is what was written. -/
theorem FileTree.lookup_reverse_of_nodup {α β : Type} [BEq α] [LawfulBEq α] {ws : List (α × β)}
    (once : (ws.map Prod.fst).Nodup) {key : α} {value : β} :
    ws.reverse.lookup key = some value ↔ (key, value) ∈ ws := by
  induction ws with
  | nil => simp
  | cons w ws ih =>
    rw [List.map_cons, List.nodup_cons] at once
    rw [List.reverse_cons, List.lookup_append, List.lookup_cons, List.lookup_nil, List.mem_cons, ← ih once.2]
    by_cases here : key = w.1
    · have none : ws.reverse.lookup key = none := lookup_reverse_eq_none.2 (here ▸ once.1)
      rw [none, beq_iff_eq.2 here, Option.none_or]
      simp [Prod.ext_iff, here, eq_comm]
    · rw [beq_eq_false_iff_ne.2 here, Option.or_none]
      simp [Prod.ext_iff, here]

/-- The facts of a program with their files: those of its subjects and of its index. -/
theorem Program.mem_outputs {docs : Bool} {p : Program} {i : Index} (ended : (p.walk docs).result = .ok i)
    {f : FactFile} {fact : Term} :
    (f, fact) ∈ p.outputs docs ↔
      (∃ s ∈ p.subjects, f = s.key.file ∧ s.HasFact docs fact) ∨
        (p.modules ≠ [] ∧ f = ⟨"", "module_index"⟩ ∧ fact = p.index.moduleFact) ∨
        (f = ⟨"", "package_index"⟩ ∧ fact = p.index.packageFact) := by
  have subjects : (f, fact) ∈ (p.walk docs).writes.map (fun call => (call.1.file, call.2)) ↔
      ∃ s ∈ p.subjects, f = s.key.file ∧ s.HasFact docs fact := by
    rw [List.mem_map]
    constructor
    · rintro ⟨⟨key, _⟩, there, same⟩
      cases same
      obtain ⟨s, member, rfl, own⟩ := (Program.mem_writes ended).1 there
      exact ⟨s, member, rfl, own⟩
    · rintro ⟨s, member, rfl, own⟩
      exact ⟨(s.key, fact), (Program.mem_writes ended).2 ⟨s, member, rfl, own⟩, rfl⟩
  rw [Program.outputs, List.mem_append, subjects]
  cases p.modules <;> simp

/-! ## Modes that write each path once -/

/-- What a run leaves below the directory of a mode where no path is written twice: each fact of the program in its
file. -/
structure HoldsOnce (t after : FileTree) (directory : Path) (style : Term.Style) (p : Program) (m : Mode) : Prop where
  ended : ∃ i, (p.walk m.hasDocs).result = .ok i
  once : (p.files.map FactFile.names).Nodup
  files : ∀ names content, (names, content) ∈ after.filesBelow (t.place (m.root directory)) ↔
    ∃ o ∈ p.outputs m.hasDocs, o.1.names = names ∧ content = Mode.content style o.2

theorem Program.once_outputs {docs : Bool} {p : Program} {i : Index} (ended : (p.walk docs).result = .ok i)
    (once : (p.files.map FactFile.names).Nodup) : ((p.outputs docs).map fun o => o.1.names).Nodup := by
  rw [← Program.files_outputs ended, List.map_map] at once
  exact once

theorem Mode.puts_eq {t : FileTree} {style : Term.Style} {directory : Path} {p : Program} {m : Mode} {i : Index}
    (ended : (p.walk m.hasDocs).result = .ok i) (plain : ∀ s ∈ p.subjects, s.key.file.IsPlain) :
    m.puts t style directory p =
      (p.outputs m.hasDocs).map fun o => (t.place (m.root directory) ++ o.1.names, content style o.2) := by
  rw [puts, facts, List.map_map]
  refine List.map_congr_left fun o member => ?_
  have place := FactFile.place_path (Program.isPlain_outputs ended plain o member) t (m.root directory)
  simp [place]

section Run

variable {t after : FileTree} {directory : Path} {style : Term.Style} {p : Program} {ms : List Mode} {m : Mode}

theorem holdsOnce_of_files (ended : ∀ m ∈ ms, ∃ i, (p.walk m.hasDocs).result = .ok i)
    (plain : ∀ s ∈ p.subjects, s.key.file.IsPlain) (empty : t.filesBelow (t.place directory) = [])
    (files : after.filesBelow [] = (writtenIn t directory style p ms).foldl FileTree.put (t.filesBelow []))
    (chosen : m ∈ ms) (once : (p.files.map FactFile.names).Nodup) : HoldsOnce t after directory style p m := by
  obtain ⟨i, done⟩ := ended m chosen
  refine ⟨⟨i, done⟩, once, fun names content => ?_⟩
  have apart : ((m.puts t style directory p).map Prod.fst).Nodup := by
    rw [Mode.puts_eq done plain, List.map_map]
    have places := (Program.once_outputs done once).map (f := fun names => t.place (m.root directory) ++ names)
      fun _ _ same => List.append_cancel_left same
    rwa [List.map_map] at places
  rw [mem_below_root ended plain empty files chosen, FileTree.lookup_reverse_of_nodup apart, Mode.puts_eq done plain,
    List.mem_map]
  refine exists_congr fun o => and_congr_right fun _ => ?_
  rw [Prod.mk.injEq, List.append_cancel_left_eq]
  exact and_congr_right fun _ => eq_comm

/-- No path is written twice in a mode only if no two files have the same names. -/
theorem Mode.once_of_paths {i : Index} (ended : (p.walk m.hasDocs).result = .ok i)
    (plain : ∀ s ∈ p.subjects, s.key.file.IsPlain) (once : ((m.facts directory p).map Prod.fst).Nodup) :
    (p.files.map FactFile.names).Nodup := by
  have paths : (m.facts directory p).map Prod.fst = (p.files.map FactFile.names).map fun names =>
      { m.root directory with parts := (m.root directory).parts ++ names } := by
    rw [paths_facts ended, List.map_map]
    refine List.map_congr_left fun f member => ?_
    exact FactFile.path_of_plain (Program.isPlain_files plain f member) _
  rw [paths] at once
  exact once.of_map _

namespace HoldsOnce

/-- A fact is the only content of its file. -/
theorem content_iff (h : HoldsOnce t after directory style p m) {f : FactFile} {fact : Term}
    (there : (f, fact) ∈ p.outputs m.hasDocs) (content : String) :
    (f.names, content) ∈ after.filesBelow (t.place (m.root directory)) ↔ content = Mode.content style fact := by
  obtain ⟨i, ended⟩ := h.ended
  rw [h.files]
  constructor
  · rintro ⟨o, member, same, rfl⟩
    have single := List.inj_on_of_nodup_map (Program.once_outputs ended h.once) member there same
    rw [single]
  · rintro rfl
    exact ⟨(f, fact), there, rfl, rfl⟩

/-- The file of a subject holds the fact of its own walk. -/
theorem subject (h : HoldsOnce t after directory style p m) {s : Subject} (member : s ∈ p.subjects) :
    ∃ fact, s.HasFact m.hasDocs fact ∧ ∀ content,
      (s.key.file.names, content) ∈ after.filesBelow (t.place (m.root directory)) ↔
        content = Mode.content style fact := by
  obtain ⟨i, ended⟩ := h.ended
  obtain ⟨fact, own⟩ := Program.hasFact_of_mem ended member
  exact ⟨fact, own, h.content_iff ((Program.mem_outputs ended).2 (Or.inl ⟨s, member, rfl, own⟩))⟩

/-- The file of the index lists the packages that no module exports to some modules only. -/
theorem packageIndex (h : HoldsOnce t after directory style p m) (content : String) :
    (["package_index.pl"], content) ∈ after.filesBelow (t.place (m.root directory)) ↔
      content = Mode.content style
        (.compound "package_index" [atoms ((p.packages.map (·.name)).filter (· ∉ p.internal))]) := by
  obtain ⟨i, ended⟩ := h.ended
  have index := (Program.mem_outputs ended).2 (Or.inr (Or.inr ⟨rfl, rfl⟩))
  rw [Index.packageFact, p.packages_index] at index
  exact h.content_iff index content

end HoldsOnce

end Run

/-! ## Other packages -/

section Compared

variable {t t' after after' : FileTree} {directory : Path} {style : Term.Style} {p p' : Program} {m : Mode}

/-- The facts of programs that have the same modules, and the same packages in any order. -/
theorem Program.mem_outputs_of_perm {docs : Bool} {i i' : Index} (ended : (p.walk docs).result = .ok i)
    (ended' : (p'.walk docs).result = .ok i') (modules : p'.modules = p.modules)
    (packages : p.packages.Perm p'.packages) {f : FactFile} (other : f ≠ ⟨"", "package_index"⟩) {fact : Term} :
    (f, fact) ∈ p.outputs docs ↔ (f, fact) ∈ p'.outputs docs := by
  have subjects : ∀ s, s ∈ p.subjects ↔ s ∈ p'.subjects := by
    intro s
    rw [Program.subjects, Program.subjects, modules]
    exact ((packages.flatMap_right _).append_left _).mem_iff
  have index : p'.index.moduleFact = p.index.moduleFact := by
    rw [Index.moduleFact, Index.moduleFact, p'.modules_index, p.modules_index, modules]
  rw [mem_outputs ended, mem_outputs ended', modules, index]
  simp only [subjects, other, false_and, or_false]

/-- Whether a name is that of a file of a package that has one of some paths. -/
def Program.OwnedBy (out : String → Bool) (p : Program) (names : List String) : Prop :=
  ∃ q ∈ p.packages, out q.path = true ∧ ∃ s ∈ q.subjects, s.key.file.names = names

theorem Program.without_without {out out' : String → Bool} (more : ∀ path, out path = true → out' path = true)
    (p : Program) : (p.without out).without out' = p.without out' := by
  rw [without, without, List.filter_filter]
  congr 1
  refine List.filter_congr fun q _ => ?_
  cases excluded : out q.path with
  | false => simp
  | true => simp [more _ excluded]

/-- The files of a program are those of the packages with some paths, and those of the program without them. -/
theorem Program.files_perm_without (out : String → Bool) (p : Program) :
    p.files.Perm (((p.packages.filter fun q => out q.path).flatMap Package.subjects).map (·.key.file) ++
      (p.without out).files) := by
  have packages := (List.filter_append_perm (fun q => out q.path) p.packages).symm
  have subjects : p.subjects.Perm ((p.packages.filter fun q => out q.path).flatMap Package.subjects ++
      (p.without out).subjects) := by
    rw [Program.subjects, Program.subjects]
    refine ((packages.flatMap_right Package.subjects).append_left _).trans ?_
    rw [List.flatMap_append]
    exact List.perm_append_comm_assoc ..
  have own := (subjects.map (·.key.file)).append_right
    ((if p.modules.isEmpty then [] else [⟨"", "module_index"⟩]) ++ [⟨"", "package_index"⟩])
  rw [List.map_append, List.append_assoc] at own
  exact own

theorem Program.mem_subjects {s : Subject} :
    s ∈ p.subjects ↔ (∃ m ∈ p.modules, .module m = s) ∨ ∃ q ∈ p.packages, s ∈ q.subjects := by
  rw [Program.subjects, List.mem_append, List.mem_map, List.mem_flatMap]

/-- A subject of a program is one of the program without some packages, or belongs to one of them. -/
theorem Program.mem_subjects_without {out : String → Bool} {s : Subject} (member : s ∈ p.subjects) :
    s ∈ (p.without out).subjects ∨ p.OwnedBy out s.key.file.names := by
  rcases Program.mem_subjects.1 member with ⟨m, held, same⟩ | ⟨q, held, own⟩
  · exact Or.inl (Program.mem_subjects.2 (Or.inl ⟨m, held, same⟩))
  · cases excluded : out q.path with
    | false =>
      have kept : q ∈ (p.without out).packages := List.mem_filter.2 ⟨held, by rw [excluded]; rfl⟩
      exact Or.inl (Program.mem_subjects.2 (Or.inr ⟨q, kept, own⟩))
    | true => exact Or.inr ⟨q, held, excluded, s, own, rfl⟩

theorem Program.subjects_without {out : String → Bool} {s : Subject} (member : s ∈ (p.without out).subjects) :
    s ∈ p.subjects := by
  rcases Program.mem_subjects.1 member with same | ⟨q, kept, own⟩
  · exact Program.mem_subjects.2 (Or.inl same)
  · exact Program.mem_subjects.2 (Or.inr ⟨q, (List.mem_filter.1 kept).1, own⟩)

/-- Where no two files have the same names, none of the remaining files belongs to what is left out. -/
theorem Program.not_ownedBy {out : String → Bool} (once : (p.files.map FactFile.names).Nodup) {f : FactFile}
    (member : f ∈ (p.without out).files) : ¬p.OwnedBy out f.names := by
  rintro ⟨q, held, excluded, s, own, same⟩
  have apart := ((p.files_perm_without out).map FactFile.names).nodup_iff.1 once
  rw [List.map_append, List.nodup_append] at apart
  have gone : s.key.file.names ∈
      (((p.packages.filter fun q => out q.path).flatMap Package.subjects).map (·.key.file)).map FactFile.names := by
    refine List.mem_map_of_mem (List.mem_map.2 ⟨s, ?_, rfl⟩)
    exact List.mem_flatMap.2 ⟨q, List.mem_filter.2 ⟨held, excluded⟩, own⟩
  exact apart.2.2 _ gone _ (List.mem_map_of_mem member) same

/-- Without some packages, their files are missing and no others. -/
theorem Program.mem_outputs_without {docs : Bool} {i i' : Index} {out : String → Bool}
    (ended : (p.walk docs).result = .ok i) (ended' : ((p.without out).walk docs).result = .ok i')
    (once : (p.files.map FactFile.names).Nodup) {f : FactFile} (other : f ≠ ⟨"", "package_index"⟩) {fact : Term} :
    (f, fact) ∈ (p.without out).outputs docs ↔ (f, fact) ∈ p.outputs docs ∧ ¬p.OwnedBy out f.names := by
  have index : (p.without out).index.moduleFact = p.index.moduleFact := by
    rw [Index.moduleFact, Index.moduleFact, (p.without out).modules_index, p.modules_index]
    rfl
  constructor
  · intro there
    have file : f ∈ (p.without out).files := by
      rw [← Program.files_outputs ended']
      exact List.mem_map_of_mem (f := Prod.fst) there
    refine ⟨(Program.mem_outputs ended).2 ?_, Program.not_ownedBy once file⟩
    rcases (Program.mem_outputs ended').1 there with ⟨s, member, same, own⟩ | ⟨some, same, fact⟩ | ⟨same, -⟩
    · exact Or.inl ⟨s, Program.subjects_without member, same, own⟩
    · exact Or.inr (Or.inl ⟨some, same, fact.trans index⟩)
    · exact absurd same other
  · rintro ⟨there, free⟩
    refine (Program.mem_outputs ended').2 ?_
    rcases (Program.mem_outputs ended).1 there with ⟨s, member, rfl, own⟩ | ⟨some, same, fact⟩ | ⟨same, -⟩
    · have kept := (Program.mem_subjects_without member).resolve_right free
      exact Or.inl ⟨s, kept, rfl, own⟩
    · exact Or.inr (Or.inl ⟨some, same, fact.trans index.symm⟩)
    · exact absurd same other

theorem FactFile.ne_packageIndex {f : FactFile} {names : List String} (same : f.names = names)
    (other : names ≠ ["package_index.pl"]) : f ≠ ⟨"", "package_index"⟩ := by
  rintro rfl
  exact other same.symm

namespace HoldsOnce

/-- The order of packages shows in their index only. -/
theorem mem_iff_of_perm (h : HoldsOnce t after directory style p m) (h' : HoldsOnce t' after' directory style p' m)
    (modules : p'.modules = p.modules) (packages : p.packages.Perm p'.packages) {names : List String}
    (other : names ≠ ["package_index.pl"]) (content : String) :
    (names, content) ∈ after.filesBelow (t.place (m.root directory)) ↔
      (names, content) ∈ after'.filesBelow (t'.place (m.root directory)) := by
  obtain ⟨i, ended⟩ := h.ended
  obtain ⟨i', ended'⟩ := h'.ended
  rw [h.files, h'.files]
  constructor
  · rintro ⟨o, there, same, rfl⟩
    have apart := FactFile.ne_packageIndex same other
    exact ⟨o, (Program.mem_outputs_of_perm ended ended' modules packages apart).1 there, same, rfl⟩
  · rintro ⟨o, there, same, rfl⟩
    have apart := FactFile.ne_packageIndex same other
    exact ⟨o, (Program.mem_outputs_of_perm ended ended' modules packages apart).2 there, same, rfl⟩

/-- To leave out packages takes their own files away, and shows elsewhere in the index only. -/
theorem mem_iff_without {out : String → Bool} (h : HoldsOnce t after directory style p m)
    (h' : HoldsOnce t' after' directory style (p.without out) m) {names : List String}
    (other : names ≠ ["package_index.pl"]) (content : String) :
    (names, content) ∈ after'.filesBelow (t'.place (m.root directory)) ↔
      (names, content) ∈ after.filesBelow (t.place (m.root directory)) ∧ ¬p.OwnedBy out names := by
  obtain ⟨i, ended⟩ := h.ended
  obtain ⟨i', ended'⟩ := h'.ended
  rw [h.files, h'.files]
  constructor
  · rintro ⟨o, there, same, rfl⟩
    have apart := FactFile.ne_packageIndex same other
    obtain ⟨held, free⟩ := (Program.mem_outputs_without ended ended' h.once apart).1 there
    exact ⟨⟨o, held, same, rfl⟩, same ▸ free⟩
  · rintro ⟨⟨o, held, same, rfl⟩, free⟩
    have apart := FactFile.ne_packageIndex same other
    exact ⟨o, (Program.mem_outputs_without ended ended' h.once apart).2 ⟨held, same ▸ free⟩, same, rfl⟩

end HoldsOnce

end Compared

/-! ## Runs -/

/-- The files below the directory of a mode after a run. -/
def Run.filesIn {α : Type} (run : Run α) (t : FileTree) (directory : Path) (m : Mode) : List (List String × String) :=
  run.tree.filesBelow (t.place (m.root directory))

/-- Whether settings are the same but for the patterns. -/
def Config.AgreeExceptExclude (es es' : Entries) : Prop := ∀ name, name ≠ "exclude" → es'.get? name = es.get? name

namespace Generator

theorem ofSettings_exclude {host : Host} {es es' : Entries} {g g' : Generator}
    (agree : Config.AgreeExceptExclude es es') (made : ofSettings es host = .ok g)
    (made' : ofSettings es' host = .ok g') :
    g'.style = g.style ∧ g'.directory = g.directory ∧ g'.modes = g.modes := by
  have indent : Config.indent es' = Config.indent es := by rw [Config.indent, Config.indent, agree _ (by decide)]
  have mode : Config.outputMode es' = Config.outputMode es := by
    rw [Config.outputMode, Config.outputMode, agree _ (by decide)]
  rw [ofSettings] at made made'
  obtain ⟨rules, -, made⟩ := bind_eq_ok_iff.1 made
  obtain ⟨width, wide, made⟩ := bind_eq_ok_iff.1 made
  obtain ⟨unit, blank, made⟩ := bind_eq_ok_iff.1 made
  obtain ⟨rules', -, made'⟩ := bind_eq_ok_iff.1 made'
  obtain ⟨width', wide', made'⟩ := bind_eq_ok_iff.1 made'
  obtain ⟨unit', blank', made'⟩ := bind_eq_ok_iff.1 made'
  cases made
  cases made'
  rw [indent, wide] at wide'
  obtain rfl := Except.ok.inj wide'
  rw [blank] at blank'
  obtain rfl := Except.ok.inj blank'
  refine ⟨?_, ?_, ?_⟩
  · rw [style, style, agree _ (by decide)]
  · rw [Generator.directory, Generator.directory, agree _ (by decide)]
  · rw [Generator.modes, Generator.modes, mode]

/-- What a run leaves that writes no path twice. -/
theorem generateWithout_holdsOnce {g : Generator} {out : String → Bool} {directory : Path} {ms : List Mode}
    {t : FileTree} {p : Program} {r : Report} (found : g.directory = .ok directory) (modes : g.modes = .ok ms)
    (plain : ∀ s ∈ (p.without out).subjects, s.key.file.IsPlain) (empty : t.filesBelow (t.place directory) = [])
    (returned : ((g.generateWithout out t.working p).perform t).result = .ok r)
    (once : ((Action.writes (g.generateWithout out t.working p).actions).map Prod.fst).Nodup) {m : Mode}
    (chosen : m ∈ ms) :
    HoldsOnce t ((g.generateWithout out t.working p).perform t).tree directory g.style (p.without out) m := by
  obtain ⟨result, performed, tree⟩ := Script.perform_result_eq_ok returned
  obtain ⟨directory', ms', here, told, ended, -, wrote⟩ := generateWithout_eq_ok result
  obtain rfl : directory = directory' := Except.ok.inj (found.symm.trans here)
  obtain rfl : ms = ms' := Except.ok.inj (modes.symm.trans told)
  obtain ⟨i, done⟩ := ended m chosen
  have files := filesBelow_perform performed
  rw [← tree, wrote, writtenIn_eq ended] at files
  -- the paths of one mode are among those of all
  have own : ((m.facts directory (p.without out)).map Prod.fst).Nodup := by
    rw [wrote, List.map_flatMap, List.nodup_flatMap] at once
    have alone := once.1 m chosen
    rw [Mode.writes_plan done, List.map_map] at alone
    exact alone
  exact holdsOnce_of_files ended plain empty files chosen (Mode.once_of_paths done plain own)

/-- **Packages are independent.** Let two runs have settings that differ in the patterns only, and start from file trees
with nothing below the output directory. Let the names of what is written have no slashes, let both runs come to their
ends, and let neither write a path twice. Whatever packages they leave out, by their paths, each file of a package that
both of them keep holds the same fact in both. If the packages are the same in another order, so are all files but the
index of packages. If one run leaves out more packages of the same program, the files of these are missing and no
others. In the index of packages are those that are kept, less those that modules export to some modules only. -/
theorem generate_packages_independent {host : Host} {es es' : Entries} {g g' : Generator}
    {out out' : String → Bool} {directory : Path} {ms : List Mode} {t t' : FileTree} {p p' : Program}
    {run run' : Run Report} {r r' : Report} (made : ofSettings es host = .ok g) (made' : ofSettings es' host = .ok g')
    (agree : Config.AgreeExceptExclude es es') (found : g.directory = .ok directory) (modes : g.modes = .ok ms)
    (plain : ∀ s ∈ (p.without out).subjects, s.key.file.IsPlain)
    (plain' : ∀ s ∈ (p'.without out').subjects, s.key.file.IsPlain)
    (empty : t.filesBelow (t.place directory) = []) (empty' : t'.filesBelow (t'.place directory) = [])
    (ran : (g.generateWithout out t.working p).perform t = run) (returned : run.result = .ok r)
    (ran' : (g'.generateWithout out' t'.working p').perform t' = run') (returned' : run'.result = .ok r')
    (once : ((Action.writes (g.generateWithout out t.working p).actions).map Prod.fst).Nodup)
    (once' : ((Action.writes (g'.generateWithout out' t'.working p').actions).map Prod.fst).Nodup) :
    (∀ working, g.generate working p = g.generateWithout g.excludesPath working p ∧
      g'.generate working p' = g'.generateWithout g'.excludesPath working p') ∧
    ∀ m ∈ ms,
      (∀ q ∈ (p.without out).packages, q ∈ (p'.without out').packages → ∀ s ∈ q.subjects,
        ∃ fact, s.HasFact m.hasDocs fact ∧ ∀ content,
          ((s.key.file.names, content) ∈ run.filesIn t directory m ↔ content = Mode.content g.style fact) ∧
          ((s.key.file.names, content) ∈ run'.filesIn t' directory m ↔ content = Mode.content g.style fact)) ∧
      (p'.modules = p.modules → p.packages.Perm p'.packages → out' = out →
        ∀ names, names ≠ ["package_index.pl"] → ∀ content,
          (names, content) ∈ run.filesIn t directory m ↔ (names, content) ∈ run'.filesIn t' directory m) ∧
      (p' = p → (∀ path, out path = true → out' path = true) →
        ∀ names, names ≠ ["package_index.pl"] → ∀ content,
          (names, content) ∈ run'.filesIn t' directory m ↔
            (names, content) ∈ run.filesIn t directory m ∧ ¬(p.without out).OwnedBy out' names) ∧
      ∀ content,
        ((["package_index.pl"], content) ∈ run.filesIn t directory m ↔
          content = Mode.content g.style (.compound "package_index"
            [atoms (((p.without out).packages.map (·.name)).filter (· ∉ p.internal))])) ∧
        ((["package_index.pl"], content) ∈ run'.filesIn t' directory m ↔
          content = Mode.content g.style (.compound "package_index"
            [atoms (((p'.without out').packages.map (·.name)).filter (· ∉ p'.internal))])) := by
  subst ran ran'
  obtain ⟨style, directories, choices⟩ := ofSettings_exclude agree made made'
  refine ⟨fun working => ⟨rfl, rfl⟩, fun m chosen => ?_⟩
  have holds := generateWithout_holdsOnce found modes plain empty returned once chosen
  have holds' := generateWithout_holdsOnce (directories.trans found) (choices.trans modes) plain' empty' returned' once'
    chosen
  rw [style] at holds'
  refine ⟨fun q kept kept' s own => ?_, fun same order alike names other content => ?_,
    fun same more names other content => ?_, fun content => ⟨holds.packageIndex content, holds'.packageIndex content⟩⟩
  · obtain ⟨fact, fits, holder⟩ := holds.subject (Program.mem_subjects.2 (Or.inr ⟨q, kept, own⟩))
    obtain ⟨fact', fits', holder'⟩ := holds'.subject (Program.mem_subjects.2 (Or.inr ⟨q, kept', own⟩))
    obtain rfl := fits.unique fits'
    exact ⟨fact, fits, fun content => ⟨holder content, holder' content⟩⟩
  · subst alike
    exact holds.mem_iff_of_perm holds' same (order.filter _) other content
  · subst same
    rw [← Program.without_without more p'] at holds'
    exact holds.mem_iff_without holds' other content

theorem Run.exists_result {α : Type} (run : Run α) (h : run.result.isOk = true) : ∃ a, run.result = .ok a := by
  cases result : run.result with
  | ok a => exact ⟨a, rfl⟩
  | error f =>
    rw [result] at h
    cases h

/-- A package with a class. -/
def classPackage (package name : String) : Package :=
  { name := package, members := [.ofType { kind := "CLASS", name } []] }

def apartProgram : Program := { modules := [{ name := "m" }], packages := [classPackage "p" "A", classPackage "q" "B"] }

/-- The settings and the generator without patterns. -/
def openSettings : Entries := settingsSample.set (.text "exclude") (.list [])

def openSample : Generator := { sample with settings := openSettings, rules := [] }

/-- Without the second package, the file of the class in the first is the same, and that of the other class is gone. -/
theorem generate_packages_independent_apart :
    ∃ run run' r r', (openSample.generate treeSample.working apartProgram).perform treeSample = run ∧
      run.result = .ok r ∧ (sample.generate treeSample.working apartProgram).perform treeSample = run' ∧
      run'.result = .ok r' ∧
      (∃ content, (["p", "A.pl"], content) ∈ run.filesIn treeSample (.ofText "out") .full ∧
        (["p", "A.pl"], content) ∈ run'.filesIn treeSample (.ofText "out") .full) ∧
      ∀ content, (["q", "B.pl"], content) ∉ run'.filesIn treeSample (.ofText "out") .full := by
  have rules : rulesOf .standard (.list [.text "q/"]) = .ok sample.rules := by decide +kernel
  have blanks : unitOf .standard 2 = .ok "  " := by decide +kernel
  have made : ofSettings openSettings = .ok openSample :=
    bind_eq_ok_iff.2 ⟨[], rfl, bind_eq_ok_iff.2 ⟨2, rfl, bind_eq_ok_iff.2 ⟨_, blanks, rfl⟩⟩⟩
  have made' : ofSettings settingsSample = .ok sample :=
    bind_eq_ok_iff.2 ⟨_, rules, bind_eq_ok_iff.2 ⟨2, rfl, bind_eq_ok_iff.2 ⟨_, blanks, rfl⟩⟩⟩
  have agree : Config.AgreeExceptExclude openSettings settingsSample := by
    intro name other
    exact (Entries.get?_set_of_ne other _).symm
  have plain : ∀ s ∈ (apartProgram.without openSample.excludesPath).subjects, s.key.file.IsPlain := by decide +kernel
  have plain' : ∀ s ∈ (apartProgram.without sample.excludesPath).subjects, s.key.file.IsPlain := by decide +kernel
  have empty : treeSample.filesBelow (treeSample.place (.ofText "out")) = [] := rfl
  have once : ((Action.writes (openSample.generateWithout openSample.excludesPath treeSample.working
      apartProgram).actions).map Prod.fst).Nodup := by decide +kernel
  have once' : ((Action.writes (sample.generateWithout sample.excludesPath treeSample.working
      apartProgram).actions).map Prod.fst).Nodup := by decide +kernel
  obtain ⟨r, returned⟩ := Run.exists_result ((openSample.generateWithout openSample.excludesPath treeSample.working
    apartProgram).perform treeSample) (by decide +kernel)
  obtain ⟨r', returned'⟩ := Run.exists_result ((sample.generateWithout sample.excludesPath treeSample.working
    apartProgram).perform treeSample) (by decide +kernel)
  obtain ⟨generated, compared⟩ := generate_packages_independent made made' agree rfl rfl plain plain' empty empty rfl
    returned rfl returned' once once'
  obtain ⟨own, -, fewer, -⟩ := compared .full (by decide)
  have kept : classPackage "p" "A" ∈ (apartProgram.without openSample.excludesPath).packages :=
    List.mem_filter.2 ⟨List.mem_cons_self, by decide +kernel⟩
  have kept' : classPackage "p" "A" ∈ (apartProgram.without sample.excludesPath).packages :=
    List.mem_filter.2 ⟨List.mem_cons_self, by decide +kernel⟩
  have other : classPackage "q" "B" ∈ (apartProgram.without openSample.excludesPath).packages :=
    List.mem_filter.2 ⟨List.mem_cons_of_mem _ List.mem_cons_self, by decide +kernel⟩
  have none : ∀ path, openSample.excludesPath path = true → sample.excludesPath path = true :=
    fun path impossible => by cases impossible
  obtain ⟨fact, -, holder⟩ := own _ kept kept' (.type "p" { kind := "CLASS", name := "A" } []) List.mem_cons_self
  refine ⟨_, _, r, r', rfl, returned, rfl, returned', ⟨_, (holder _).1.2 rfl, (holder _).2.2 rfl⟩, ?_⟩
  intro content there
  refine ((fewer rfl none ["q", "B.pl"] (by decide) content).1 there).2 ?_
  exact ⟨_, other, by decide +kernel, _, List.mem_cons_self, rfl⟩

end Generator

end ProgramFacts
