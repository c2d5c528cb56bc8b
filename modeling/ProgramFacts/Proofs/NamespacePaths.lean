import ProgramFacts.Generation
import ProgramFacts.Proofs.FactPaths

/-!
# Dotted names as directories

The file of a fact is told by a dotted name and a name of its own. As long as no slash stands in them, its path is the
root with the names between the dots, those that are not empty, and one name more. So nothing is lost but empty names:
files have one path only if they agree in the rest. No path leads through a file, since files are told from directories
by the dot in their names. A package's own path, with slashes for dots, is the way from the root to its directory, so
exclusion patterns match the directories that would be written.
-/

namespace ProgramFacts

/-! ## Dots and slashes -/

/-- A text without slashes has between its slashes, once these stand for its dots, what it had between its dots. -/
theorem split_packagePath {cs : List Char} (plain : '/' ∉ cs) :
    Text.split '/' (packagePath cs) = Text.split '.' cs := by
  induction cs with
  | nil => rfl
  | cons c cs ih =>
    obtain ⟨first, others⟩ := not_or.1 (fun h => plain (List.mem_cons.2 h))
    have later := ih others
    rw [packagePath] at later
    rw [packagePath, List.map_cons, Text.split, Text.split, later]
    by_cases dot : c = '.'
    · simp [dot]
    · simp [dot, Ne.symm first]

theorem packagePath_eq_join {cs : List Char} (plain : '/' ∉ cs) :
    packagePath cs = Text.join '/' (Text.split '.' cs) := by
  rw [← split_packagePath plain, Text.join_split]

namespace Path

theorem isPart_of_dotless {piece : List Char} (dotless : '.' ∉ piece) (some? : piece ≠ []) : isPart piece = true := by
  have other : piece ≠ ['.'] := by
    rintro rfl
    exact dotless List.mem_cons_self
  simp [isPart, some?, other]

/-- Whether a path leads through another one. -/
def IsAbove (p q : Path) : Prop := p.slashes = q.slashes ∧ p.parts <+: q.parts ∧ p ≠ q

end Path

/-! ## Names between dots -/

/-- The names between the dots of a text, without the empty ones. -/
def dottedNames (name : String) : List String :=
  ((Text.split '.' name.toList).filter (· ≠ [])).map String.ofList

theorem dotless_of_mem_dottedNames {name s : String} (member : s ∈ dottedNames name) : '.' ∉ s.toList := by
  obtain ⟨piece, held, rfl⟩ := List.mem_map.1 member
  rw [String.toList_ofList]
  exact (Text.mem_split (List.mem_filter.1 held).1).1

/-- A name without empty ones between its dots is the path of those once slashes stand for its dots. -/
theorem ofText_packagePath {p : Package} (plain : '/' ∉ p.name.toList) (full : [] ∉ Text.split '.' p.name.toList) :
    Path.ofText p.path = ⟨0, dottedNames p.name⟩ := by
  have slashes : Path.slashesOf (packagePath p.name.toList) = 0 := by
    cases chars : p.name.toList with
    | nil =>
      rw [chars] at full
      exact absurd List.mem_cons_self full
    | cons c cs =>
      rw [chars] at plain full
      have dot : c ≠ '.' := by
        rintro rfl
        rw [Text.split, if_pos rfl] at full
        exact full List.mem_cons_self
      have slash : (c == '/') = false := beq_eq_false_iff_ne.2 fun same => plain (same ▸ List.mem_cons_self)
      simp [Path.slashesOf, packagePath, dot, slash]
  have kept : (Text.split '.' p.name.toList).filter Path.isPart =
      (Text.split '.' p.name.toList).filter (· ≠ []) := by
    refine List.filter_congr fun piece member => ?_
    have some? : piece ≠ [] := fun none => full (none ▸ member)
    rw [Path.isPart_of_dotless (Text.mem_split member).1 some?]
    exact (decide_eq_true some?).symm
  rw [Path.ofText, Package.path, String.toList_ofList, slashes, Path.partsOf, split_packagePath plain, kept]
  rfl

/-- and that path is written as the name with slashes for dots. -/
theorem text_dottedNames {p : Package} (plain : '/' ∉ p.name.toList) (full : [] ∉ Text.split '.' p.name.toList) :
    Path.text ⟨0, dottedNames p.name⟩ = p.path := by
  have whole : dottedNames p.name = (Text.split '.' p.name.toList).map String.ofList := by
    have all : (Text.split '.' p.name.toList).filter (· ≠ []) = Text.split '.' p.name.toList :=
      List.filter_eq_self.2 fun piece member => decide_eq_true fun none => full (none ▸ member)
    rw [dottedNames, all]
  have some? : dottedNames p.name ≠ [] := by
    rw [whole]
    simpa using Text.split_ne_nil '.' p.name.toList
  have chars : (dottedNames p.name).map String.toList = Text.split '.' p.name.toList := by
    rw [whole, List.map_map]
    simp [Function.comp_def]
  rw [Path.text, if_neg fun nowhere => some? nowhere.2, Package.path, packagePath_eq_join plain, Text.joinWith, chars]
  exact String.empty_append

/-! ## Paths of fact files -/

namespace FactFile

variable {f g : FactFile}

theorem names_eq (f : FactFile) : f.names = dottedNames f.hierarchy ++ [f.name ++ factExtension] := rfl

theorem name_extension_inj {n m : String} : n ++ factExtension = m ++ factExtension ↔ n = m := by
  refine ⟨fun same => ?_, fun same => by rw [same]⟩
  have chars := congrArg String.toList same
  rw [toList_append_extension, toList_append_extension] at chars
  exact String.toList_inj.1 (List.append_cancel_right chars)

theorem names_eq_iff : f.names = g.names ↔ f.name = g.name ∧ dottedNames f.hierarchy = dottedNames g.hierarchy := by
  rw [names_eq, names_eq, ← List.concat_eq_append, ← List.concat_eq_append, List.concat_inj, name_extension_inj,
    and_comm]

/-- A directory has no dot in its name, and a file has one. -/
theorem names_eq_of_isPrefixOf (h : f.names <+: g.names) : f.names = g.names := by
  obtain ⟨rest, more⟩ := h
  rcases List.eq_nil_or_concat rest with rfl | ⟨rest, last, rfl⟩
  · rw [← more, List.append_nil]
  · rw [names_eq g, List.concat_eq_append, ← List.append_assoc] at more
    have directory : f.name ++ factExtension ∈ dottedNames g.hierarchy := by
      rw [← (List.append_inj' more rfl).1, names_eq]
      simp
    refine absurd ?_ (dotless_of_mem_dottedNames directory)
    rw [toList_append_extension]
    simp

theorem relativeTo?_path (plain : f.IsPlain) (root : Path) : (f.path root).relativeTo? root = some ⟨0, f.names⟩ := by
  rw [path_of_plain plain, Path.relativeTo?]
  simp

/-- **Dotted names lead to files one to one.** Let no slash stand in the names of two files, and take any root. The path
of the first is the root with the names between the dots, those that are not empty, and its own name with the extension;
so it lies below the root, both by its names and in every file tree, whatever its names are. The two have one path if
and only if they have one name and the same names between the dots. The path of the one does not lead through that of
the other. For a package without empty names between its dots, the directory of its files is the root with the path that
exclusion patterns are matched against. -/
theorem path_faithful (root : Path) (plain : f.IsPlain) (plain' : g.IsPlain) :
    f.path root = ⟨root.slashes, root.parts ++ dottedNames f.hierarchy ++ [f.name ++ factExtension]⟩ ∧
      (f.path root).relativeTo? root = some ⟨0, dottedNames f.hierarchy ++ [f.name ++ factExtension]⟩ ∧
      (∀ t : FileTree, t.place (f.path root) =
        t.place root ++ dottedNames f.hierarchy ++ [f.name ++ factExtension]) ∧
      (f.path root = g.path root ↔ f.name = g.name ∧ dottedNames f.hierarchy = dottedNames g.hierarchy) ∧
      ¬(f.path root).IsAbove (g.path root) ∧
      ∀ p : Package, p.name = f.hierarchy → [] ∉ Text.split '.' p.name.toList →
        (f.path root).parent = root.join (.ofText p.path) ∧
          ∃ way, (f.path root).parent.relativeTo? root = some way ∧ way.text = p.path ∧
            ∀ r : Generator, r.excludes p = Exclusion.excludes r.rules (way.text ++ "/").toList := by
  have path := path_of_plain plain root
  have path' := path_of_plain plain' root
  refine ⟨?_, relativeTo?_path plain root, fun t => ?_, ?_, ?_, ?_⟩
  · rw [path, names_eq, List.append_assoc]
  · rw [place_path plain, names_eq, List.append_assoc]
  · rw [path, path', ← names_eq_iff]
    simp
  · rintro ⟨-, through, other⟩
    rw [path, path'] at through other
    have within : f.names <+: g.names := (List.prefix_append_right_inj root.parts).1 through
    rw [names_eq_of_isPrefixOf within] at other
    exact other rfl
  · intro p hierarchy full
    have slashless : '/' ∉ p.name.toList := hierarchy ▸ plain.1
    have directory : (f.path root).parent = ⟨root.slashes, root.parts ++ dottedNames p.name⟩ := by
      rw [path, names_eq, ← List.append_assoc, Path.parent, List.dropLast_concat, hierarchy]
    have text := text_dottedNames slashless full
    refine ⟨?_, ⟨0, dottedNames p.name⟩, ?_, text, fun r => ?_⟩
    · rw [directory, ofText_packagePath slashless full, Path.join, if_pos rfl]
    · rw [directory, Path.relativeTo?]
      simp
    · rw [text]
      rfl

/-- Empty names do not tell directories apart, and names that start with dots are like any other. -/
theorem path_faithful_dots :
    ∃ f g : FactFile, f.hierarchy = "a.b" ∧ g.hierarchy = ".a..b" ∧ f.name = "..C" ∧ g.name = "..C" ∧
      f.path (.ofText "out") = g.path (.ofText "out") ∧ ¬(f.path (.ofText "out")).IsAbove (g.path (.ofText "out")) ∧
      (f.path (.ofText "out")).parent = (Path.ofText "out").join (.ofText (Package.path { name := "a.b" })) := by
  have plain : (⟨"a.b", "..C"⟩ : FactFile).IsPlain := by decide +kernel
  have plain' : (⟨".a..b", "..C"⟩ : FactFile).IsPlain := by decide +kernel
  have full : [] ∉ Text.split '.' "a.b".toList := by decide +kernel
  have names : dottedNames "a.b" = dottedNames ".a..b" := by decide +kernel
  obtain ⟨-, -, -, same, above, directory⟩ := path_faithful (.ofText "out") plain plain'
  exact ⟨_, _, rfl, rfl, rfl, rfl, same.2 ⟨rfl, names⟩, above, (directory { name := "a.b" } rfl full).1⟩

end FactFile

end ProgramFacts
