import ProgramFacts.Proofs.AbortedRuns

/-!
# Files that stay below the root

Names may have slashes. Then the file of a fact may lie anywhere: a piece that starts with a slash leads away from the
root, and two dots between slashes lead up. The names of a file are confined (`FactFile.IsConfined`) if no piece starts
with a slash and two dots never lead above where the pieces start. This is what it takes for the file to lie below the
root whatever the root is, and then no run, however it ends, touches a file outside the directories of its modes.
-/

namespace ProgramFacts

/-! ## Names that lead up -/

namespace FileTree

/-- Whether names never lead above a place, from so many steps below it. -/
def staysBelow : Nat → List String → Bool
  | _, [] => true
  | depth, n :: ns => if n = ".." then decide (0 < depth) && staysBelow (depth - 1) ns else staysBelow (depth + 1) ns

theorem staysBelow_of_append {a b : List String} {depth : Nat} (stays : staysBelow depth (a ++ b) = true) :
    staysBelow depth a = true := by
  induction a generalizing depth with
  | nil => rfl
  | cons n a ih =>
    rw [List.cons_append, staysBelow] at stays
    rw [staysBelow]
    by_cases up : n = ".."
    · rw [if_pos up, Bool.and_eq_true] at stays ⊢
      exact ⟨stays.1, ih stays.2⟩
    · rw [if_neg up] at stays ⊢
      exact ih stays

theorem descend_of_staysBelow {names : List String} (below : List String) (stays : staysBelow below.length names = true)
    (place : List String) : ∃ rest, descend (place ++ below) names = place ++ rest := by
  induction names generalizing below with
  | nil => exact ⟨below, rfl⟩
  | cons n names ih =>
    rw [staysBelow] at stays
    by_cases up : n = ".."
    · rw [if_pos up, Bool.and_eq_true, decide_eq_true_eq, ← List.length_dropLast] at stays
      obtain ⟨some, stays⟩ := stays
      obtain ⟨rest, later⟩ := ih _ stays
      refine ⟨rest, ?_⟩
      rw [descend, List.foldl_cons, if_pos up, List.dropLast_append_of_ne_nil (List.ne_nil_of_length_pos some)]
      exact later
    · have longer : (below ++ [n]).length = below.length + 1 := by simp
      rw [if_neg up, ← longer] at stays
      obtain ⟨rest, later⟩ := ih _ stays
      refine ⟨rest, ?_⟩
      rw [descend, List.foldl_cons, if_neg up, List.append_assoc]
      exact later

/-- Names that lead above a place first lead back to it. -/
theorem back_of_not_staysBelow {names : List String} (below : List String)
    (leaves : staysBelow below.length names = false) :
    ∃ initial rest, names = initial ++ ".." :: rest ∧ ∀ place, descend (place ++ below) initial = place := by
  induction names generalizing below with
  | nil => cases leaves
  | cons n names ih =>
    rw [staysBelow] at leaves
    by_cases up : n = ".."
    · rw [if_pos up] at leaves
      by_cases here : below = []
      · refine ⟨[], names, by rw [up]; rfl, fun place => ?_⟩
        rw [here, List.append_nil]
        rfl
      · have some : decide (0 < below.length) = true := decide_eq_true (List.length_pos_iff.2 here)
        rw [some, Bool.true_and, ← List.length_dropLast] at leaves
        obtain ⟨initial, rest, split, back⟩ := ih _ leaves
        refine ⟨n :: initial, rest, by rw [split, List.cons_append], fun place => ?_⟩
        rw [descend, List.foldl_cons, if_pos up, List.dropLast_append_of_ne_nil here]
        exact back place
    · have longer : (below ++ [n]).length = below.length + 1 := by simp
      rw [if_neg up, ← longer] at leaves
      obtain ⟨initial, rest, split, back⟩ := ih _ leaves
      refine ⟨n :: initial, rest, by rw [split, List.cons_append], fun place => ?_⟩
      rw [descend, List.foldl_cons, if_neg up, List.append_assoc]
      exact back place

end FileTree

/-! ## Pieces of paths -/

namespace Path

theorem foldl_join_of_relative {qs : List Path} (relative : ∀ q ∈ qs, q.slashes = 0) (root : Path) :
    qs.foldl join root = { root with parts := root.parts ++ qs.flatMap parts } := by
  induction qs generalizing root with
  | nil => simp
  | cons q qs ih =>
    have first : q.slashes = 0 := relative q List.mem_cons_self
    have others := ih fun r member => relative r (List.mem_cons_of_mem _ member)
    rw [List.foldl_cons, others, join, if_pos first, List.flatMap_cons, List.append_assoc]

/-- A piece that starts with a slash leads to the same from everywhere. -/
theorem foldl_join_of_absolute {qs : List Path} {q : Path} (member : q ∈ qs) (absolute : q.slashes ≠ 0)
    (root root' : Path) : qs.foldl join root = qs.foldl join root' := by
  induction qs generalizing root root' with
  | nil => cases member
  | cons r qs ih =>
    rw [List.foldl_cons, List.foldl_cons]
    rcases List.mem_cons.1 member with rfl | later
    · rw [join, join, if_neg absolute, if_neg absolute]
    · exact ih later _ _

end Path

/-- What is appended without a separator is appended to the last piece. -/
theorem Text.split_append (separator : Char) (cs : List Char) {more : List Char} (absent : separator ∉ more) :
    ∃ initial last, split separator (cs ++ more) = initial ++ [last ++ more] := by
  induction cs with
  | nil => exact ⟨[], [], split_of_not_mem absent⟩
  | cons c cs ih =>
    obtain ⟨initial, last, pieces⟩ := ih
    rw [List.cons_append, split, pieces]
    by_cases here : c = separator
    · rw [if_pos here]
      exact ⟨[] :: initial, last, rfl⟩
    · rw [if_neg here]
      cases initial with
      | nil => exact ⟨[], c :: last, rfl⟩
      | cons piece initial => exact ⟨(c :: piece) :: initial, last, rfl⟩

namespace FactFile

/-- What the path of the file is joined of, after the root. -/
def pieces (f : FactFile) : List Path :=
  ((if f.hierarchy = "" then [] else (Text.split '.' f.hierarchy.toList).map String.ofList) ++
    [f.name ++ factExtension]).map .ofText

theorem path_eq_foldl (f : FactFile) (root : Path) : f.path root = f.pieces.foldl Path.join root := by
  rw [path, pieces, List.foldl_map, List.foldl_append]
  rfl

/-- The last name that leads to the file is its own, which is never two dots. -/
theorem parts_pieces (f : FactFile) : ∃ names last, last ≠ ".." ∧ f.pieces.flatMap Path.parts = names ++ [last] := by
  have slashless : '/' ∉ ['.', 'p', 'l'] := by decide
  obtain ⟨initial, last, cut⟩ := Text.split_append '/' f.name.toList slashless
  have part : Path.isPart (last ++ ['.', 'p', 'l']) = true := by
    cases last with
    | nil => rfl
    | cons c cs => simp [Path.isPart]
  have own : (Path.ofText (f.name ++ factExtension)).parts =
      (initial.filter Path.isPart).map String.ofList ++ [String.ofList (last ++ ['.', 'p', 'l'])] := by
    rw [Path.ofText, Path.partsOf, toList_append_extension, cut, List.filter_append, List.filter_singleton, part]
    simp
  have other : String.ofList (last ++ ['.', 'p', 'l']) ≠ ".." := by
    intro same
    have chars := congrArg String.toList same
    rw [String.toList_ofList] at chars
    have length := congrArg List.length chars
    simp at length
  rw [pieces, List.map_append, List.map_singleton, List.flatMap_append, List.flatMap_singleton, own,
    ← List.append_assoc]
  exact ⟨_, _, other, rfl⟩

/-- Whether the names of the file lead nowhere but down from a root: none of the pieces starts with a slash, and two
dots only lead back what other names have led down. -/
def IsConfined (f : FactFile) : Prop :=
  (∀ q ∈ f.pieces, q.slashes = 0) ∧ FileTree.staysBelow 0 (f.pieces.flatMap Path.parts) = true

instance (f : FactFile) : Decidable f.IsConfined := inferInstanceAs (Decidable (_ ∧ _))

theorem IsConfined.place_path {f : FactFile} (confined : f.IsConfined) (t : FileTree) (root : Path) :
    ∃ names, names ≠ [] ∧ t.place (f.path root) = t.place root ++ names := by
  obtain ⟨relative, stays⟩ := confined
  obtain ⟨names, last, down, split⟩ := f.parts_pieces
  rw [split] at stays
  obtain ⟨rest, below⟩ := FileTree.descend_of_staysBelow [] (FileTree.staysBelow_of_append stays) (t.place root)
  rw [List.append_nil] at below
  have downward : ∀ n ∈ [last], n ≠ ".." := fun n member => by rwa [List.mem_singleton.1 member]
  refine ⟨rest ++ [last], by simp, ?_⟩
  rw [path_eq_foldl, Path.foldl_join_of_relative relative, split, FileTree.place, ← List.append_assoc,
    FileTree.descend_append, FileTree.descend_append, FileTree.descend_of_downward downward, ← List.append_assoc]
  exact congrArg (· ++ [last]) below

/-- Names that are not confined lead to one place from different roots. -/
theorem place_of_not_isConfined {f : FactFile} (free : ¬f.IsConfined) (t : FileTree) :
    ∃ place, ∀ name, name ≠ ".." → t.place (f.path ⟨1, [name]⟩) = place := by
  by_cases relative : ∀ q ∈ f.pieces, q.slashes = 0
  · have leaves : FileTree.staysBelow 0 (f.pieces.flatMap Path.parts) = false := by
      rw [Bool.eq_false_iff]
      exact fun stays => free ⟨relative, stays⟩
    obtain ⟨initial, rest, split, back⟩ := FileTree.back_of_not_staysBelow [] leaves
    -- what led down is led back, and then two dots lead to the root of the tree
    refine ⟨FileTree.descend [] rest, fun name down => ?_⟩
    have start := back [name]
    rw [List.append_nil] at start
    have first : FileTree.descend [] [name] = [name] := by simp [FileTree.descend, down]
    rw [path_eq_foldl, Path.foldl_join_of_relative relative, split]
    change FileTree.descend [] ([name] ++ (initial ++ ".." :: rest)) = _
    rw [FileTree.descend_append, first, FileTree.descend_append, start]
    rfl
  · obtain ⟨q, member, absolute⟩ : ∃ q ∈ f.pieces, q.slashes ≠ 0 := by simpa using relative
    refine ⟨t.place (f.path ⟨1, []⟩), fun name _ => ?_⟩
    rw [path_eq_foldl, path_eq_foldl, Path.foldl_join_of_absolute member absolute]

/-- Names are confined if and only if they lead below the root, whatever it is. -/
theorem isConfined_iff {f : FactFile} :
    f.IsConfined ↔
      ∀ (t : FileTree) (root : Path), ∃ names, names ≠ [] ∧ t.place (f.path root) = t.place root ++ names := by
  constructor
  · exact IsConfined.place_path
  · intro inside
    by_contra free
    obtain ⟨place, leads⟩ := place_of_not_isConfined free { working := [] }
    obtain ⟨names, -, first⟩ := inside { working := [] } ⟨1, ["a"]⟩
    obtain ⟨names', -, second⟩ := inside { working := [] } ⟨1, ["b"]⟩
    rw [leads "a" (by decide)] at first
    rw [leads "b" (by decide)] at second
    have heads : ["a"] ++ names = ["b"] ++ names' := first.symm.trans second
    exact absurd (List.cons.inj heads).1 (by decide)

theorem IsPlain.isConfined {f : FactFile} (plain : f.IsPlain) : f.IsConfined := by
  refine isConfined_iff.2 fun t root => ⟨f.names, ?_, place_path plain t root⟩
  simp [names]

end FactFile

/-! ## What is tried -/

/-- Whatever is tried, the files are those that an initial part of the writes has left. -/
theorem FileTree.Tried.files {t after : FileTree} {ws : List (Path × String)} {r : Except OutputFault Unit}
    (h : Tried t ws after r) :
    ∃ done, done <+: ws ∧ after.filesBelow [] = (t.puts done).foldl put (t.filesBelow []) := by
  cases h with
  | all written => exact ⟨ws, List.prefix_rfl, written.files.2⟩
  | @stopped before _ done rest path content f split written failed =>
    refine ⟨done, ⟨(path, content) :: rest, split.symm⟩, ?_⟩
    rw [(write_eq_error failed).files, written.files.2]

/-- A mode writes to files of subjects and of the index, whether its walk comes to its end or not. -/
theorem Mode.file_of_calls {style : Term.Style} {directory : Path} {p : Program} {m : Mode} {w : Path × String}
    (member : w ∈ m.calls style directory p) :
    ∃ f : FactFile, w.1 = f.path (m.root directory) ∧ ((∃ s ∈ p.subjects, s.key.file = f) ∨ f.IsPlain) := by
  rw [calls] at member
  split at member
  · cases member
  · obtain ⟨o, held, rfl⟩ := List.mem_map.1 member
    refine ⟨o.1, rfl, ?_⟩
    rcases List.mem_append.1 held with own | index
    · obtain ⟨call, written, rfl⟩ := List.mem_map.1 own
      obtain ⟨done, rest, split, wrote, -⟩ := Program.walk_answers m.hasDocs p
      have key := List.mem_map_of_mem (f := Prod.fst) written
      rw [Subject.keys_of_writes wrote] at key
      obtain ⟨s, begun, same⟩ := List.mem_map.1 key
      refine Or.inl ⟨s, ?_, congrArg Key.file same⟩
      rw [split]
      exact List.mem_append_left _ begun
    · right
      cases result : (p.walk m.hasDocs).result with
      | error e => simp [result] at index
      | ok i =>
        have either : o.1 = ⟨"", "module_index"⟩ ∨ o.1 = ⟨"", "package_index"⟩ := by
          have listed : o ∈ i.facts := by simpa [result] using index
          rcases List.mem_append.1 listed with modules | packages
          · split at modules
            · cases modules
            · exact Or.inl (congrArg Prod.fst (List.mem_singleton.1 modules))
          · exact Or.inr (congrArg Prod.fst (List.mem_singleton.1 packages))
        rcases either with same | same <;> rw [same] <;> exact ⟨by decide, by decide⟩

namespace Generator

/-- A run writes in its modes only, and nothing at all without a directory or modes. -/
theorem call_of_generate {g : Generator} {working : List String} {p : Program} {w : Path × String}
    (member : w ∈ Action.writes (g.generate working p).actions) :
    ∃ directory ms, g.directory = .ok directory ∧ g.modes = .ok ms ∧
      ∃ m ∈ ms, w ∈ m.calls g.style directory (g.kept p) := by
  cases found : g.directory with
  | error e =>
    rw [generate, generateWith, Script.bind_of_ok rfl, found, Script.bind_of_error rfl] at member
    simp [Action.writes_map_tell] at member
  | ok directory =>
    cases chosen : g.modes with
    | error e =>
      rw [generate, generateWith, Script.bind_of_ok rfl, found, Script.bind_of_ok rfl, chosen,
        Script.bind_of_error rfl] at member
      simp [Action.writes_map_tell] at member
    | ok ms =>
      obtain ⟨begun, left, split, wrote, -⟩ := generate_calls found chosen working p
      rw [wrote] at member
      obtain ⟨m, begunToo, call⟩ := List.mem_flatMap.1 member
      exact ⟨directory, ms, rfl, rfl, m, by rw [split]; exact List.mem_append_left _ begunToo, call⟩

/-- **Facts are written below the root where names are confined.** A file lies below its root, whatever that is, if and
only if no piece of its names starts with a slash and two dots never lead above where the pieces start. Where this holds
for all that is not excluded, a run leaves every file outside the directories of its modes as it was, however the run
ends. -/
theorem generate_confined (g : Generator) (t : FileTree) (p : Program) :
    (∀ f : FactFile, f.IsConfined ↔
      ∀ (u : FileTree) (root : Path), ∃ names, names ≠ [] ∧ u.place (f.path root) = u.place root ++ names) ∧
    ((∀ s ∈ (g.kept p).subjects, s.key.file.IsConfined) →
      ∀ f, (∀ directory ms, g.directory = .ok directory → g.modes = .ok ms →
          ∀ m ∈ ms, ¬t.place (m.root directory) <+: f.1) →
        (f ∈ ((g.generate t.working p).perform t).tree.filesBelow [] ↔ f ∈ t.filesBelow [])) := by
  refine ⟨fun f => FactFile.isConfined_iff, ?_⟩
  rintro confined ⟨place, content⟩ outside
  obtain ⟨done, part, files⟩ := (perform_tried t (g.generate t.working p).actions).files
  have untouched : place ∉ (t.puts done).map Prod.fst := by
    intro written
    rw [FileTree.puts, List.map_map] at written
    obtain ⟨w, held, rfl⟩ := List.mem_map.1 written
    obtain ⟨directory, ms, found, chosen, m, member, call⟩ := call_of_generate (part.subset held)
    obtain ⟨f, path, kind⟩ := Mode.file_of_calls call
    have own : f.IsConfined := by
      rcases kind with ⟨s, subject, rfl⟩ | plain
      · exact confined s subject
      · exact plain.isConfined
    obtain ⟨names, -, below⟩ := own.place_path t (m.root directory)
    refine outside directory ms found chosen m member ⟨names, ?_⟩
    rw [← below, ← path]
    rfl
  have tree : ((g.generate t.working p).perform t).tree =
      (ProgramFacts.perform t (g.generate t.working p).actions).tree := by
    rw [Script.perform]
    split <;> rfl
  rw [tree, files, FileTree.mem_foldl_put, FileTree.lookup_reverse_eq_none.2 untouched]
  simp [untouched]

/-- A package with one class. -/
def oneClass (name : String) : Program :=
  { packages := [{ name := "p", members := [.ofType { kind := "CLASS", name } []] }] }

/-- The document of a package with one class. -/
def oneClassDocument (name : String) : Document :=
  .mapping [(.text "packages", .list [.mapping [(.text "name", .text "p"), (.text "members", .list [.mapping [
    (.text "kind", .text "CLASS"), (.text "name", .text name)]])]])]

theorem readProgram_oneClass (name : String) : readProgram (oneClassDocument name) = .ok (oneClass name) := by
  rfl

/-- A name that leads up only as far as the package has led down is confined. -/
theorem generate_confined_back :
    (∀ s ∈ (default.kept (oneClass "../p/./A")).subjects, s.key.file.IsConfined) ∧
      ((["w", "old.txt"], "kept") ∈
        ((default.generate treeSample.working (oneClass "../p/./A")).perform treeSample).tree.filesBelow []) ∧
      ((default.generate treeSample.working (oneClass "../p/./A")).perform treeSample).tree.lookup
        ["w", "prolog-facts", "full", "p", "A.pl"] ≠ none := by
  have confined : ∀ s ∈ (default.kept (oneClass "../p/./A")).subjects, s.key.file.IsConfined := by
    have remaining : default.kept (oneClass "../p/./A") = oneClass "../p/./A" := rfl
    rw [remaining]
    decide
  refine ⟨confined, ?_, by decide +kernel⟩
  have outside : ∀ directory ms, default.directory = .ok directory → default.modes = .ok ms →
      ∀ m ∈ ms, ¬treeSample.place (m.root directory) <+: ["w", "old.txt"] := by
    rintro directory ms ⟨⟩ ⟨⟩
    decide
  exact ((generate_confined default treeSample _).2 confined (["w", "old.txt"], "kept") outside).2 (by decide)

/-- A document is read whose class has a name that leads up three times. The run comes to its end, and the fact of the
class replaces a file next to the output directory. -/
theorem generate_escapes :
    ∃ (t : FileTree) (run : Run Report),
      readProgram (oneClassDocument "../../../old") = .ok (oneClass "../../../old") ∧
      (default.generate t.working (oneClass "../../../old")).perform t = run ∧ run.result.isOk = true ∧
      ¬t.place (Mode.full.root (.ofText "prolog-facts")) <+:
        t.place (FactFile.path (Mode.full.root (.ofText "prolog-facts")) ⟨"p", "../../../old"⟩) ∧
      t.lookup ["w", "old.pl"] = some (.file "kept") ∧
      run.tree.lookup ["w", "old.pl"] =
        some (.file "class('../../../old', p, [], [], 'null', [], [], [], [], '').\n") := by
  refine ⟨{ working := ["w"], entries := [(["w", "old.pl"], .file "kept")] }, _, readProgram_oneClass _, rfl, ?_⟩
  decide +kernel

end Generator

end ProgramFacts
