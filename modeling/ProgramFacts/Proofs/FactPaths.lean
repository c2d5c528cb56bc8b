import ProgramFacts.Proofs.FileWrites

/-!
# Where fact files lie

The names of modules, packages and types may have any characters but slashes. Then the file of a fact lies below the
root that it is written to, whatever dots stand in the names: empty names between dots are left out, no name is two
dots, and the file's own name is the last one. Files below one root therefore share a place only if they share a path.
-/

namespace ProgramFacts

/-! ## Pieces -/

namespace Text

theorem mem_split {separator : Char} {cs piece : List Char} (h : piece ∈ split separator cs) :
    separator ∉ piece ∧ ∀ c ∈ piece, c ∈ cs := by
  induction cs generalizing piece with
  | nil =>
    obtain rfl := List.mem_singleton.1 h
    simp
  | cons c cs ih =>
    rw [split] at h
    split at h
    · rcases List.mem_cons.1 h with rfl | later
      · simp
      · obtain ⟨clean, part⟩ := ih later
        exact ⟨clean, fun d member => List.mem_cons_of_mem _ (part d member)⟩
    · next other =>
      cases pieces : split separator cs with
      | nil => exact absurd pieces (split_ne_nil _ _)
      | cons p ps =>
        rw [pieces] at h ih
        rcases List.mem_cons.1 h with rfl | later
        · obtain ⟨clean, part⟩ := ih List.mem_cons_self
          refine ⟨fun member => ?_, fun d member => ?_⟩
          · rcases List.mem_cons.1 member with same | inside
            · exact other same.symm
            · exact clean inside
          · rcases List.mem_cons.1 member with rfl | inside
            · exact List.mem_cons_self
            · exact List.mem_cons_of_mem _ (part d inside)
        · obtain ⟨clean, part⟩ := ih (List.mem_cons_of_mem _ later)
          exact ⟨clean, fun d member => List.mem_cons_of_mem _ (part d member)⟩

end Text

/-! ## Paths -/

/-- A text without slashes is the path of one name, or of none if it leads nowhere. -/
theorem Path.ofText_of_plain {s : String} (plain : '/' ∉ s.toList) :
    Path.ofText s = ⟨0, if Path.isPart s.toList then [s] else []⟩ := by
  have slashes : Path.slashesOf s.toList = 0 := by
    rw [Path.slashesOf]
    cases chars : s.toList with
    | nil => rfl
    | cons c cs =>
      have other : (c == '/') = false := by
        refine beq_eq_false_iff_ne.2 fun same => plain ?_
        rw [chars, same]
        exact List.mem_cons_self
      simp [List.takeWhile, other]
  have parts : Path.partsOf s.toList = if Path.isPart s.toList then [s] else [] := by
    rw [Path.partsOf, Text.split_of_not_mem plain, List.filter_cons, List.filter_nil]
    split <;> simp
  rw [Path.ofText, slashes, parts]

namespace FactFile

/-- Whether no slash stands in the names of the file. -/
def IsPlain (f : FactFile) : Prop := '/' ∉ f.hierarchy.toList ∧ '/' ∉ f.name.toList

instance (f : FactFile) : Decidable f.IsPlain := inferInstanceAs (Decidable (_ ∧ _))

/-- The names that lead to the file from a root. -/
def names (f : FactFile) : List String :=
  (((Text.split '.' f.hierarchy.toList).filter (· ≠ [])).map String.ofList) ++ [f.name ++ factExtension]

theorem toList_append_extension (name : String) : (name ++ factExtension).toList = name.toList ++ ['.', 'p', 'l'] := by
  rw [factExtension, String.toList_append]
  rfl

theorem downward_names (f : FactFile) : ∀ n ∈ f.names, n ≠ ".." := by
  intro n member dots
  have chars : n.toList = ['.', '.'] := by
    rw [dots]
    rfl
  rcases List.mem_append.1 member with directory | own
  · obtain ⟨piece, held, rfl⟩ := List.mem_map.1 directory
    obtain ⟨clean, -⟩ := Text.mem_split (List.mem_filter.1 held).1
    rw [String.toList_ofList] at chars
    simp [chars] at clean
  · rw [List.mem_singleton.1 own, toList_append_extension] at chars
    have length := congrArg List.length chars
    simp at length

/-- Names between dots are steps down, unless they are empty. -/
theorem foldl_join_pieces {pieces : List (List Char)} (plain : ∀ p ∈ pieces, '/' ∉ p ∧ '.' ∉ p) (root : Path) :
    (pieces.map String.ofList).foldl (fun p s => p.join (.ofText s)) root =
      { root with parts := root.parts ++ (pieces.filter (· ≠ [])).map String.ofList } := by
  induction pieces generalizing root with
  | nil => simp
  | cons piece pieces ih =>
    obtain ⟨slashless, dotless⟩ := plain piece List.mem_cons_self
    have others := ih fun p member => plain p (List.mem_cons_of_mem _ member)
    have one : Path.ofText (String.ofList piece) = ⟨0, if piece ≠ [] then [String.ofList piece] else []⟩ := by
      have part : Path.isPart piece = decide (piece ≠ []) := by
        have other : piece ≠ ['.'] := by
          rintro rfl
          exact dotless List.mem_cons_self
        cases piece with
        | nil => rfl
        | cons c cs => simp [Path.isPart, beq_eq_false_iff_ne.2 other]
      rw [Path.ofText_of_plain (by rwa [String.toList_ofList]), String.toList_ofList, part]
      simp
    rw [List.map_cons, List.foldl_cons, others, one, Path.join, if_pos rfl]
    by_cases empty : piece = []
    · simp [empty]
    · simp [empty]

theorem path_of_plain {f : FactFile} (plain : f.IsPlain) (root : Path) :
    f.path root = { root with parts := root.parts ++ f.names } := by
  have segments : (if f.hierarchy = "" then [] else (Text.split '.' f.hierarchy.toList).map String.ofList).foldl
      (fun p s => p.join (.ofText s)) root =
        { root with parts :=
          root.parts ++ ((Text.split '.' f.hierarchy.toList).filter (· ≠ [])).map String.ofList } := by
    split
    · next nameless =>
      rw [nameless]
      simp [Text.split]
    · refine foldl_join_pieces (fun piece member => ?_) root
      obtain ⟨clean, part⟩ := Text.mem_split member
      exact ⟨fun slash => plain.1 (part _ slash), clean⟩
  have own : Path.ofText (f.name ++ factExtension) = ⟨0, [f.name ++ factExtension]⟩ := by
    have slashless : '/' ∉ (f.name ++ factExtension).toList := by
      rw [toList_append_extension]
      simpa using plain.2
    have part : Path.isPart (f.name ++ factExtension).toList = true := by
      rw [toList_append_extension]
      cases f.name.toList with
      | nil => rfl
      | cons c cs => simp [Path.isPart]
    rw [Path.ofText_of_plain slashless, if_pos part]
  rw [FactFile.path, segments, own, Path.join, if_pos rfl, names, List.append_assoc]

theorem place_path {f : FactFile} (plain : f.IsPlain) (t : FileTree) (root : Path) :
    t.place (f.path root) = t.place root ++ f.names := by
  rw [path_of_plain plain, FileTree.place, FileTree.descend_append, FileTree.descend_of_downward f.downward_names]
  rfl

/-- Files below one root have one place only if they have one path. -/
theorem path_eq_of_place_eq {f f' : FactFile} (plain : f.IsPlain) (plain' : f'.IsPlain) {t : FileTree} {root : Path}
    (same : t.place (f.path root) = t.place (f'.path root)) : f.path root = f'.path root := by
  rw [place_path plain, place_path plain'] at same
  rw [path_of_plain plain, path_of_plain plain', List.append_cancel_left same]

end FactFile

end ProgramFacts
