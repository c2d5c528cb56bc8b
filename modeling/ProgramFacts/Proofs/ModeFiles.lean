import ProgramFacts.Proofs.FactPaths
import ProgramFacts.Proofs.Scripts
import ProgramFacts.Proofs.WriteOrder

/-!
# The files of modes

The facts of a program and of its index have files below the directory of each mode. When all that several modes write
has been put to its places, a directory that was empty holds these files, each once and with the last fact written to
its path (`HoldsFacts`); as many as the mode has noted. All other files are as they were.
-/

namespace ProgramFacts

/-! ## The facts of a program and their files -/

/-- The name of a scope that is a module. -/
def Scope.moduleName? : Scope → Option String
  | .module m => some m.name
  | .package _ => none

/-- The index of all scopes of a program. -/
def Program.index (p : Program) : Index := p.scopes.foldl Index.enter {}

theorem walkScopes_eq_ok {docs : Bool} {ss : List Scope} {i j : Index} (h : (walkScopes docs i ss).result = .ok j) :
    j = ss.foldl Index.enter i := by
  induction ss generalizing i with
  | nil =>
    cases h
    rfl
  | cons s ss ih =>
    obtain ⟨_, -, later⟩ := Walk.result_bind_eq_ok.1 h
    exact ih later

theorem Index.modules_foldl_enter (ss : List Scope) (i : Index) :
    (ss.foldl Index.enter i).modules = i.modules ++ ss.filterMap Scope.moduleName? := by
  induction ss generalizing i with
  | nil => simp
  | cons s ss ih =>
    rw [List.foldl_cons, ih]
    cases s with
    | module m => simp [Index.enter, Scope.moduleName?]
    | package p =>
      have kept : (i.enter (.package p)).modules = i.modules := by
        rw [Index.enter]
        split <;> rfl
      rw [kept]
      rfl

theorem Program.modules_index (p : Program) : p.index.modules = p.modules.map (·.name) := by
  have modules : (p.modules.map Scope.module).filterMap Scope.moduleName? = p.modules.map (·.name) := by
    simp [List.filterMap_map, Function.comp_def, Scope.moduleName?]
  have packages : (p.packages.map Scope.package).filterMap Scope.moduleName? = [] := by
    simp [List.filterMap_map, Function.comp_def, Scope.moduleName?]
  rw [Program.index, Index.modules_foldl_enter, Program.scopes, List.filterMap_append, modules, packages]
  simp

/-- What a run writes for a program, in order: the facts of its subjects, and those of the index, which has modules
only if there are any. -/
def Program.outputs (docs : Bool) (p : Program) : List (FactFile × Term) :=
  (p.walk docs).writes.map (fun call => (call.1.file, call.2)) ++
    ((if p.modules.isEmpty then [] else [(⟨"", "module_index"⟩, p.index.moduleFact)]) ++
      [(⟨"", "package_index"⟩, p.index.packageFact)])

section Walked

variable {docs : Bool} {p : Program} {i : Index}

theorem Program.keys_walk (ended : (p.walk docs).result = .ok i) :
    (p.walk docs).writes.map Prod.fst = p.subjects.map Subject.key :=
  Subject.keys_of_writes (Program.writes_subjects ended)

theorem Program.writes_steps (ended : (p.walk docs).result = .ok i) :
    (p.walk docs).steps.filterMap Output.Step.write? = p.outputs docs := by
  have index : i = p.index := walkScopes_eq_ok ended
  have events : ((p.walk docs).events.map Event.step).filterMap Output.Step.write? =
      (p.walk docs).writes.map fun call => (call.1.file, call.2) := by
    rw [Walk.writes, List.filterMap_map, List.map_filterMap]
    congr 1
    funext event
    cases event <;> rfl
  have modules : i.modules.isEmpty = p.modules.isEmpty := by
    rw [index, Program.modules_index, List.isEmpty_map]
  rw [Walk.steps, ended, List.filterMap_append, events, Program.outputs, ← index]
  dsimp only
  rw [Index.steps, modules]
  split <;> rfl

/-- The files of a program: those of its subjects and of its index. -/
theorem Program.mem_files_outputs (ended : (p.walk docs).result = .ok i) (f : FactFile) :
    f ∈ (p.outputs docs).map Prod.fst ↔
      (∃ s ∈ p.subjects, s.key.file = f) ∨ f = ⟨"", "package_index"⟩ ∨ (p.modules ≠ [] ∧ f = ⟨"", "module_index"⟩) := by
  have keys := congrArg (List.map Key.file) (Program.keys_walk ended)
  rw [List.map_map, List.map_map] at keys
  have subjects : ((p.walk docs).writes.map fun call => (call.1.file, call.2)).map Prod.fst =
      p.subjects.map (Key.file ∘ Subject.key) := by
    rw [← keys, List.map_map]
    rfl
  rw [Program.outputs, List.map_append, subjects, List.mem_append, List.mem_map]
  cases p.modules with
  | nil => simp
  | cons m ms => simp [or_comm]

theorem Program.isPlain_outputs (ended : (p.walk docs).result = .ok i)
    (plain : ∀ s ∈ p.subjects, s.key.file.IsPlain) : ∀ w ∈ p.outputs docs, w.1.IsPlain := by
  intro w member
  rcases (Program.mem_files_outputs ended w.1).1 (List.mem_map_of_mem member) with ⟨s, held, same⟩ | same | ⟨-, same⟩
  · rw [← same]
    exact plain s held
  · rw [same]
    exact ⟨by decide, by decide⟩
  · rw [same]
    exact ⟨by decide, by decide⟩

end Walked

/-! ## The writes of a mode -/

namespace Mode

/-- What is written in a mode, in order: each fact with its path. -/
def facts (directory : Path) (p : Program) (m : Mode) : List (Path × Term) :=
  (p.outputs m.hasDocs).map fun w => (w.1.path (m.root directory), w.2)

/-- What a file with a fact holds. -/
def content (style : Term.Style) (fact : Term) : String := fact.render style ++ "\n"

/-- What a mode puts where. -/
def puts (t : FileTree) (style : Term.Style) (directory : Path) (p : Program) (m : Mode) :
    List (List String × String) :=
  (m.facts directory p).map fun w => (t.place w.1, content style w.2)

theorem root_eq (directory : Path) (m : Mode) :
    m.root directory = { directory with parts := directory.parts ++ [m.name] } := by
  have one : Path.ofText m.name = ⟨0, [m.name]⟩ := by
    cases m <;> rfl
  rw [root, one, Path.join, if_pos rfl]

theorem place_root (t : FileTree) (directory : Path) (m : Mode) :
    t.place (m.root directory) = t.place directory ++ [m.name] := by
  have downward : ∀ n ∈ [m.name], n ≠ ".." := by
    cases m <;> decide
  rw [root_eq, FileTree.place, FileTree.descend_append, FileTree.descend_of_downward downward]
  rfl

variable {style : Term.Style} {directory : Path} {p : Program} {m : Mode} {i : Index}

theorem writes_plan (ended : (p.walk m.hasDocs).result = .ok i) :
    Action.writes (m.plan style directory p).2 = (m.facts directory p).map fun w => (w.1, content style w.2) := by
  rw [plan, Output.writes_plan, Program.writes_steps ended, facts, List.map_map]
  simp only [Output.content, content, Function.comp_def]

theorem written_plan (ended : (p.walk m.hasDocs).result = .ok i) :
    (m.plan style directory p).1.written.Nodup ∧
      ∀ q, q ∈ (m.plan style directory p).1.written ↔ q ∈ (m.facts directory p).map Prod.fst := by
  obtain ⟨nodup, members⟩ := Output.written_plan { root := m.root directory, style } List.nodup_nil
    (p.walk m.hasDocs).steps
  refine ⟨nodup, fun q => ?_⟩
  rw [plan, members, Program.writes_steps ended, facts, List.map_map]
  simp [Function.comp_def]

/-- The paths of a mode have different places below its directory. -/
theorem place_facts (ended : (p.walk m.hasDocs).result = .ok i) (plain : ∀ s ∈ p.subjects, s.key.file.IsPlain)
    (t : FileTree) :
    (∀ w ∈ m.facts directory p, ∃ names, t.place w.1 = t.place (m.root directory) ++ names) ∧
      ∀ w ∈ m.facts directory p, ∀ w' ∈ m.facts directory p, t.place w.1 = t.place w'.1 → w.1 = w'.1 := by
  have outputs := Program.isPlain_outputs ended plain
  constructor
  · intro w member
    obtain ⟨o, held, rfl⟩ := List.mem_map.1 member
    dsimp only
    exact ⟨o.1.names, FactFile.place_path (outputs o held) t _⟩
  · intro w member w' member' same
    obtain ⟨o, held, rfl⟩ := List.mem_map.1 member
    obtain ⟨o', held', rfl⟩ := List.mem_map.1 member'
    dsimp only at same ⊢
    exact FactFile.path_eq_of_place_eq (outputs o held) (outputs o' held') same

/-- The places of a mode: those of the subjects and of the index. -/
theorem place_facts_iff (ended : (p.walk m.hasDocs).result = .ok i) {t : FileTree} {names : List String} :
    (∃ w ∈ m.facts directory p, t.place w.1 = t.place (m.root directory) ++ names) ↔
      (∃ s ∈ p.subjects, t.place (s.key.file.path (m.root directory)) = t.place (m.root directory) ++ names) ∨
        names = ["package_index.pl"] ∨ (p.modules ≠ [] ∧ names = ["module_index.pl"]) := by
  have packages : t.place (FactFile.path (m.root directory) ⟨"", "package_index"⟩) =
      t.place (m.root directory) ++ ["package_index.pl"] := FactFile.place_path ⟨by decide, by decide⟩ t _
  have modules : t.place (FactFile.path (m.root directory) ⟨"", "module_index"⟩) =
      t.place (m.root directory) ++ ["module_index.pl"] := FactFile.place_path ⟨by decide, by decide⟩ t _
  constructor
  · rintro ⟨w, held, place⟩
    obtain ⟨o, listed, rfl⟩ := List.mem_map.1 held
    dsimp only at place
    rcases (Program.mem_files_outputs ended o.1).1 (List.mem_map_of_mem listed) with
      ⟨s, subject, same⟩ | same | ⟨some, same⟩
    · rw [← same] at place
      exact Or.inl ⟨s, subject, place⟩
    · rw [same, packages] at place
      exact Or.inr (Or.inl (List.append_cancel_left place).symm)
    · rw [same, modules] at place
      exact Or.inr (Or.inr ⟨some, (List.append_cancel_left place).symm⟩)
  · intro expected
    have written : ∃ f ∈ (p.outputs m.hasDocs).map Prod.fst,
        t.place (f.path (m.root directory)) = t.place (m.root directory) ++ names := by
      rcases expected with ⟨s, subject, place⟩ | rfl | ⟨some, rfl⟩
      · exact ⟨s.key.file, (Program.mem_files_outputs ended _).2 (Or.inl ⟨s, subject, rfl⟩), place⟩
      · exact ⟨_, (Program.mem_files_outputs ended _).2 (Or.inr (Or.inl rfl)), packages⟩
      · exact ⟨_, (Program.mem_files_outputs ended _).2 (Or.inr (Or.inr ⟨some, rfl⟩)), modules⟩
    obtain ⟨f, listed, place⟩ := written
    obtain ⟨o, held, rfl⟩ := List.mem_map.1 listed
    exact ⟨(o.1.path (m.root directory), o.2), List.mem_map.2 ⟨o, held, rfl⟩, place⟩

theorem name_injective {m n : Mode} (same : m.name = n.name) : m = n := by
  cases m <;> cases n <;> first | rfl | exact absurd same (by decide)

end Mode

/-! ## Last writes -/

section LastWrites

variable {α β γ δ μ : Type} [BEq α] [LawfulBEq α] [BEq γ] [LawfulBEq γ]

/-- Where keys are told apart by a function, they may be looked up by what it gives. -/
theorem lookup_map_key {ws : List (α × β)} {key : α → γ} {value : β → δ} {a : α}
    (apart : ∀ w ∈ ws, key w.1 = key a → w.1 = a) :
    (ws.map fun w => (key w.1, value w.2)).lookup (key a) = (ws.lookup a).map value := by
  induction ws with
  | nil => rfl
  | cons w ws ih =>
    have later := ih fun v member => apart v (List.mem_cons_of_mem _ member)
    obtain ⟨b, c⟩ := w
    rw [List.map_cons, List.lookup_cons, List.lookup_cons]
    by_cases here : a = b
    · subst here
      simp
    · have other : key a ≠ key b := fun same => here (apart (b, c) List.mem_cons_self same.symm).symm
      rw [beq_eq_false_iff_ne.2 here, beq_eq_false_iff_ne.2 other]
      exact later

/-- The last write to a key is that of the one part that writes to it. -/
theorem lookup_reverse_flatMap {ms : List μ} {ws : μ → List (α × β)} {m : μ} (member : m ∈ ms) {key : α}
    (others : ∀ n ∈ ms, n ≠ m → key ∉ (ws n).map Prod.fst) :
    (ms.flatMap ws).reverse.lookup key = (ws m).reverse.lookup key := by
  classical
  induction ms with
  | nil => cases member
  | cons n ms ih =>
    have rest := fun n' held => others n' (List.mem_cons_of_mem _ held)
    rw [List.flatMap_cons, List.reverse_append, List.lookup_append]
    by_cases later : m ∈ ms
    · rw [ih later rest]
      by_cases same : n = m
      · rw [same, Option.or_self]
      · rw [FileTree.lookup_reverse_eq_none.2 (others n List.mem_cons_self same), Option.or_none]
    · have here : n = m := ((List.mem_cons.1 member).resolve_right later).symm
      have none : (ms.flatMap ws).reverse.lookup key = none := by
        refine FileTree.lookup_reverse_eq_none.2 fun held => ?_
        obtain ⟨w, found, same⟩ := List.mem_map.1 held
        obtain ⟨n', part, written⟩ := List.mem_flatMap.1 found
        have different : n' ≠ m := fun equal => later (equal ▸ part)
        exact rest n' part different (List.mem_map.2 ⟨w, written, same⟩)
      rw [none, Option.none_or, here]

end LastWrites

/-! ## The files of a mode -/

/-- What a run leaves below a root: each file once, the files of the subjects and of the index, and in each the last
fact that was written to its path. -/
structure HoldsFacts (t after : FileTree) (directory : Path) (style : Term.Style) (p : Program) (m : Mode) : Prop where
  once : ((after.filesBelow (t.place (m.root directory))).map Prod.fst).Nodup
  named : ∀ names, names ∈ (after.filesBelow (t.place (m.root directory))).map Prod.fst ↔
    (∃ s ∈ p.subjects, t.place (s.key.file.path (m.root directory)) = t.place (m.root directory) ++ names) ∨
      names = ["package_index.pl"] ∨ (p.modules ≠ [] ∧ names = ["module_index.pl"])
  last : ∀ names content, (names, content) ∈ after.filesBelow (t.place (m.root directory)) ↔
    ∃ path fact, t.place path = t.place (m.root directory) ++ names ∧
      (m.facts directory p).reverse.lookup path = some fact ∧ content = fact.render style ++ "\n"

section Modes

variable {t after : FileTree} {directory : Path} {style : Term.Style} {p : Program} {ms : List Mode}

/-- The places that the modes write to, in order, with what they write. -/
def writtenIn (t : FileTree) (directory : Path) (style : Term.Style) (p : Program) (ms : List Mode) :
    List (List String × String) :=
  ms.flatMap (Mode.puts t style directory p)

theorem writtenIn_eq (ended : ∀ m ∈ ms, ∃ i, (p.walk m.hasDocs).result = .ok i) :
    (ms.flatMap fun m => Action.writes (m.plan style directory p).2).map (fun w => (t.place w.1, w.2)) =
      writtenIn t directory style p ms := by
  rw [List.map_flatMap, writtenIn]
  refine List.flatMap_congr fun m chosen => ?_
  obtain ⟨i, done⟩ := ended m chosen
  rw [Mode.writes_plan done, Mode.puts, List.map_map]
  rfl

theorem mem_writtenIn (ended : ∀ m ∈ ms, ∃ i, (p.walk m.hasDocs).result = .ok i)
    (plain : ∀ s ∈ p.subjects, s.key.file.IsPlain) {place : List String}
    (written : place ∈ (writtenIn t directory style p ms).map Prod.fst) :
    ∃ m ∈ ms, ∃ names, place = t.place (m.root directory) ++ names := by
  obtain ⟨w, held, rfl⟩ := List.mem_map.1 written
  obtain ⟨m, chosen, part⟩ := List.mem_flatMap.1 held
  obtain ⟨f, listed, rfl⟩ := List.mem_map.1 part
  obtain ⟨i, done⟩ := ended m chosen
  obtain ⟨names, place⟩ := (Mode.place_facts done plain t).1 f listed
  exact ⟨m, chosen, names, place⟩

/-- Modes write to directories of their own. -/
theorem lookup_writtenIn (ended : ∀ m ∈ ms, ∃ i, (p.walk m.hasDocs).result = .ok i)
    (plain : ∀ s ∈ p.subjects, s.key.file.IsPlain) {m : Mode} (chosen : m ∈ ms) (names : List String) :
    (writtenIn t directory style p ms).reverse.lookup (t.place (m.root directory) ++ names) =
      (m.puts t style directory p).reverse.lookup (t.place (m.root directory) ++ names) := by
  rw [writtenIn]
  refine lookup_reverse_flatMap chosen ?_
  intro n other different written
  have single : t.place (m.root directory) ++ names ∈ (writtenIn t directory style p [n]).map Prod.fst := by
    rwa [writtenIn, List.flatMap_singleton]
  have walked : ∀ k ∈ [n], ∃ i, (p.walk k.hasDocs).result = .ok i := by
    intro k held
    rw [List.mem_singleton.1 held]
    exact ended n other
  obtain ⟨n', same, names', place⟩ := mem_writtenIn walked plain single
  obtain rfl := List.mem_singleton.1 same
  rw [Mode.place_root, Mode.place_root, List.append_assoc, List.append_assoc] at place
  have heads := List.append_cancel_left place
  exact different (Mode.name_injective (List.cons.inj heads).1.symm)

variable (ended : ∀ m ∈ ms, ∃ i, (p.walk m.hasDocs).result = .ok i) (plain : ∀ s ∈ p.subjects, s.key.file.IsPlain)
  (empty : t.filesBelow (t.place directory) = [])
  (files : after.filesBelow [] = (writtenIn t directory style p ms).foldl FileTree.put (t.filesBelow []))
  {m : Mode} (chosen : m ∈ ms)

include empty in
/-- There was no file below the directory of a mode. -/
theorem not_mem_below_root (names : List String) (content : String) :
    (t.place (m.root directory) ++ names, content) ∉ t.filesBelow [] := by
  intro held
  rw [Mode.place_root, List.append_assoc] at held
  have below := FileTree.mem_filesBelow.2 held
  rw [empty] at below
  cases below

include ended plain empty files chosen

theorem mem_below_root (names : List String) (content : String) :
    (names, content) ∈ after.filesBelow (t.place (m.root directory)) ↔
      (m.puts t style directory p).reverse.lookup (t.place (m.root directory) ++ names) = some content := by
  rw [FileTree.mem_filesBelow, files, FileTree.mem_foldl_put, lookup_writtenIn ended plain chosen]
  exact or_iff_left fun old => not_mem_below_root empty names content old.2

theorem last_below_root (names : List String) (content : String) :
    (names, content) ∈ after.filesBelow (t.place (m.root directory)) ↔
      ∃ path fact, t.place path = t.place (m.root directory) ++ names ∧
        (m.facts directory p).reverse.lookup path = some fact ∧ content = Mode.content style fact := by
  obtain ⟨i, done⟩ := ended m chosen
  have apart : ∀ w ∈ m.facts directory p, ∀ v ∈ m.facts directory p, t.place w.1 = t.place v.1 → w.1 = v.1 :=
    (Mode.place_facts done plain t).2
  -- a path that was written to is looked up by its place as well as by itself
  have found : ∀ w ∈ m.facts directory p,
      (m.puts t style directory p).reverse.lookup (t.place w.1) =
        ((m.facts directory p).reverse.lookup w.1).map (Mode.content style) := by
    intro w held
    rw [Mode.puts, ← List.map_reverse]
    exact lookup_map_key fun v listed same => apart v (List.mem_reverse.1 listed) w held same
  rw [mem_below_root ended plain empty files chosen]
  constructor
  · intro last
    have written := FileTree.mem_of_lookup_reverse last
    rw [Mode.puts, List.map_map] at written
    obtain ⟨w, held, place⟩ := List.mem_map.1 written
    rw [← place] at last
    obtain ⟨fact, known, same⟩ := Option.map_eq_some_iff.1 ((found w held).symm.trans last)
    exact ⟨w.1, fact, place, known, same.symm⟩
  · rintro ⟨path, fact, place, known, rfl⟩
    obtain ⟨w, held, rfl⟩ := List.mem_map.1 (FileTree.mem_of_lookup_reverse known)
    rw [← place, found w held, known, Option.map_some]

theorem names_below_root (names : List String) :
    names ∈ (after.filesBelow (t.place (m.root directory))).map Prod.fst ↔
      ∃ w ∈ m.facts directory p, t.place w.1 = t.place (m.root directory) ++ names := by
  constructor
  · intro member
    obtain ⟨⟨_, content⟩, held, rfl⟩ := List.mem_map.1 member
    obtain ⟨path, fact, place, known, -⟩ := (last_below_root ended plain empty files chosen _ content).1 held
    obtain ⟨w, listed, rfl⟩ := List.mem_map.1 (FileTree.mem_of_lookup_reverse known)
    exact ⟨w, listed, place⟩
  · rintro ⟨w, held, place⟩
    cases last : (m.facts directory p).reverse.lookup w.1 with
    | none => exact absurd (List.mem_map_of_mem held) (FileTree.lookup_reverse_eq_none.1 last)
    | some fact =>
      have there := (last_below_root ended plain empty files chosen names _).2 ⟨w.1, fact, place, last, rfl⟩
      exact List.mem_map.2 ⟨_, there, rfl⟩

omit ended plain chosen in
theorem once_below_root : ((after.filesBelow (t.place (m.root directory))).map Prod.fst).Nodup := by
  have none : (t.filesBelow []).filter ((t.place (m.root directory)).isPrefixOf ·.1) = [] := by
    refine List.filter_eq_nil_iff.2 fun f held within => ?_
    obtain ⟨names, same⟩ := List.isPrefixOf_iff_prefix.1 within
    refine not_mem_below_root empty (m := m) names f.2 ?_
    rw [same]
    exact held
  have start : (((t.filesBelow []).filter ((t.place (m.root directory)).isPrefixOf ·.1)).map Prod.fst).Nodup := by
    rw [none]
    exact List.nodup_nil
  have once := FileTree.nodup_foldl_put _ start (writtenIn t directory style p ms)
  rw [← files] at once
  exact FileTree.nodup_filesBelow once

/-- As many files are left below the directory of a mode as were noted. -/
theorem length_below_root :
    (after.filesBelow (t.place (m.root directory))).length = (m.plan style directory p).1.written.length := by
  obtain ⟨i, done⟩ := ended m chosen
  obtain ⟨nodup, members⟩ : (m.plan style directory p).1.written.Nodup ∧
      ∀ q, q ∈ (m.plan style directory p).1.written ↔ q ∈ (m.facts directory p).map Prod.fst := Mode.written_plan done
  have left : (((after.filesBelow (t.place (m.root directory))).map Prod.fst).map
      (t.place (m.root directory) ++ ·)).Nodup := by
    refine (once_below_root empty files).map_on ?_
    intro a _ b _ same
    exact List.append_cancel_left same
  have right : ((m.plan style directory p).1.written.map t.place).Nodup := by
    refine nodup.map_on ?_
    intro a noted b noted' same
    obtain ⟨w, held, rfl⟩ := List.mem_map.1 ((members a).1 noted)
    obtain ⟨v, held', rfl⟩ := List.mem_map.1 ((members b).1 noted')
    exact (Mode.place_facts done plain t).2 w held v held' same
  have places : ∀ q, q ∈ ((after.filesBelow (t.place (m.root directory))).map Prod.fst).map
      (t.place (m.root directory) ++ ·) ↔ q ∈ (m.plan style directory p).1.written.map t.place := by
    intro q
    constructor
    · intro member
      obtain ⟨names, held, rfl⟩ := List.mem_map.1 member
      obtain ⟨w, listed, place⟩ := (names_below_root ended plain empty files chosen names).1 held
      exact List.mem_map.2 ⟨w.1, (members _).2 (List.mem_map_of_mem listed), place⟩
    · intro member
      obtain ⟨path, noted, rfl⟩ := List.mem_map.1 member
      obtain ⟨w, listed, rfl⟩ := List.mem_map.1 ((members path).1 noted)
      obtain ⟨names, place⟩ := (Mode.place_facts done plain t).1 w listed
      have held := (names_below_root ended plain empty files chosen names).2 ⟨w, listed, place⟩
      exact List.mem_map.2 ⟨names, held, place.symm⟩
  have lengths := ((List.perm_ext_iff_of_nodup left right).2 places).length_eq
  simpa using lengths

theorem holdsFacts_of_files : HoldsFacts t after directory style p m := by
  obtain ⟨i, done⟩ := ended m chosen
  constructor
  case once => exact once_below_root empty files
  case last => exact last_below_root ended plain empty files chosen
  case named =>
    intro names
    rw [names_below_root ended plain empty files chosen, Mode.place_facts_iff done]

omit chosen in
/-- Only below the directories of modes is there anything new, and nothing is lost. -/
theorem others_of_files :
    (∀ f ∈ t.filesBelow [], f ∈ after.filesBelow []) ∧
      ∀ f ∈ after.filesBelow [], f ∈ t.filesBelow [] ∨ ∃ m ∈ ms, t.place (m.root directory) <+: f.1 := by
  constructor
  · rintro ⟨place, content⟩ old
    rw [files]
    refine FileTree.mem_foldl_put.2 (Or.inr ⟨fun written => ?_, old⟩)
    obtain ⟨m, -, names, same⟩ := mem_writtenIn ended plain written
    rw [same] at old
    exact not_mem_below_root empty names content old
  · rintro ⟨place, content⟩ new
    rw [files] at new
    rcases FileTree.mem_foldl_put.1 new with last | ⟨-, old⟩
    · obtain ⟨m, chosen, names, same⟩ := mem_writtenIn ended plain (FileTree.mem_of_lookup_reverse last)
      exact Or.inr ⟨m, chosen, names, same.symm⟩
    · exact Or.inl old

end Modes

end ProgramFacts
