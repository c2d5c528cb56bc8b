import Mathlib.Data.List.Nodup
import ProgramFacts.Output

/-!
# What writing leaves

A path leads to one place, wherever directories have to be made on the way (`FileTree.place`). Making directories keeps
all files; writing a file puts it at its place and keeps all others. So actions that were all done leave the files that
putting their writes one after the other gives: at each place the last one written there, or else what was there before.
-/

namespace ProgramFacts

namespace FileTree

/-! ## Places -/

/-- The place that names lead to from another one, two dots being one step up. -/
def descend (place : List String) (names : List String) : List String :=
  names.foldl (fun place n => if n = ".." then place.dropLast else place ++ [n]) place

/-- The place that a path leads to. -/
def place (t : FileTree) (p : Path) : List String := descend (t.start p) p.parts

theorem descend_append (place a b : List String) : descend place (a ++ b) = descend (descend place a) b :=
  List.foldl_append

theorem descend_of_downward {names : List String} (downward : ∀ n ∈ names, n ≠ "..") (place : List String) :
    descend place names = place ++ names := by
  induction names generalizing place with
  | nil => simp [descend]
  | cons n names ih =>
    have first : n ≠ ".." := downward n List.mem_cons_self
    have others := ih (fun m member => downward m (List.mem_cons_of_mem _ member)) (place ++ [n])
    rw [descend] at others ⊢
    rw [List.foldl_cons, if_neg first, others, List.append_assoc, List.singleton_append]

theorem place_of_working {t t' : FileTree} (same : t'.working = t.working) (p : Path) : t'.place p = t.place p := by
  rw [place, place, start, start, same]

theorem enter_eq_ok {t : FileTree} {place q : List String} {names : List String}
    (h : t.enter place names = .ok q) : q = descend place names := by
  induction names generalizing place with
  | nil =>
    rw [enter] at h
    cases h
    rfl
  | cons n names ih =>
    rw [enter] at h
    rw [descend, List.foldl_cons]
    by_cases up : n = ".."
    · rw [if_pos up] at h ⊢
      exact ih h
    · rw [if_neg up] at h ⊢
      split at h
      · cases h
      · split at h
        · exact ih h
        · cases h
        · cases h

theorem locate_eq_some {t : FileTree} {p : Path} {q : List String} (h : t.locate p = .ok (some q)) : q = t.place p := by
  rw [locate] at h
  split at h
  · cases h
  · split at h
    · cases h
    · next name last =>
      obtain ⟨above, split⟩ := List.getLast?_eq_some_iff.1 last
      rw [split, List.dropLast_concat] at h
      cases entered : t.enter (t.start p) above with
      | error f =>
        rw [entered] at h
        cases h
      | ok directory =>
        rw [entered] at h
        change (if name = ".." then _ else _) = _ at h
        by_cases up : name = ".."
        · rw [if_pos up] at h
          cases h
        · rw [if_neg up] at h
          split at h
          · cases h
          · cases h
            rw [place, split, descend_append, ← enter_eq_ok entered, descend_of_downward]
            intro n member
            rw [List.mem_singleton.1 member]
            exact up

/-! ## Files -/

/-- The files after one more is written: what was at its place is gone. -/
def put (files : List (List String × String)) (f : List String × String) : List (List String × String) :=
  f :: files.filter (·.1 ≠ f.1)

theorem filesBelow_eq (t : FileTree) (place : List String) :
    t.filesBelow place =
      ((t.filesBelow []).filter (place.isPrefixOf ·.1)).map fun f => (f.1.drop place.length, f.2) := by
  rw [filesBelow, filesBelow]
  induction t.entries with
  | nil => rfl
  | cons e entries ih =>
    obtain ⟨q, entry⟩ := e
    cases entry with
    | directory => simpa using ih
    | file content =>
      by_cases within : place.isPrefixOf q = true
      · simp_all
      · simp_all

theorem mem_filesBelow {t : FileTree} {place q : List String} {content : String} :
    (q, content) ∈ t.filesBelow place ↔ (place ++ q, content) ∈ t.filesBelow [] := by
  rw [filesBelow_eq, List.mem_map]
  constructor
  · rintro ⟨⟨r, c⟩, member, same⟩
    obtain ⟨held, within⟩ := List.mem_filter.1 member
    obtain ⟨rest, rfl⟩ := List.isPrefixOf_iff_prefix.1 within
    obtain ⟨rfl, rfl⟩ := Prod.mk.inj same
    rwa [List.drop_left]
  · intro held
    refine ⟨(place ++ q, content), List.mem_filter.2 ⟨held, ?_⟩, ?_⟩
    · exact List.isPrefixOf_iff_prefix.2 (List.prefix_append place q)
    · simp

/-- Names from a place tell files apart as well as names from the root do. -/
theorem nodup_filesBelow {t : FileTree} {place : List String}
    (h : (((t.filesBelow []).filter (place.isPrefixOf ·.1)).map Prod.fst).Nodup) :
    ((t.filesBelow place).map Prod.fst).Nodup := by
  have dropped := h.map_on (f := List.drop place.length) ?_
  · rw [filesBelow_eq]
    simp only [List.map_map, Function.comp_def] at dropped ⊢
    exact dropped
  intro a held b held' same
  obtain ⟨f, listed, rfl⟩ := List.mem_map.1 held
  obtain ⟨f', listed', rfl⟩ := List.mem_map.1 held'
  obtain ⟨names, below⟩ := List.isPrefixOf_iff_prefix.1 (List.mem_filter.1 listed).2
  obtain ⟨names', below'⟩ := List.isPrefixOf_iff_prefix.1 (List.mem_filter.1 listed').2
  rw [← below, ← below', List.drop_left, List.drop_left] at same
  rw [← below, ← below', same]

theorem filesBelow_set_file (t : FileTree) (place : List String) (content : String) :
    (t.set place (.file content)).filesBelow [] = put (t.filesBelow []) (place, content) := by
  have others : ∀ entries : List (List String × FileEntry),
      filesBelow { t with entries := entries.filter (·.1 ≠ place) } [] =
        (filesBelow { t with entries := entries } []).filter (·.1 ≠ place) := by
    intro entries
    induction entries with
    | nil => rfl
    | cons e entries ih =>
      obtain ⟨q, entry⟩ := e
      cases entry <;> by_cases here : q = place <;> simp_all [filesBelow]
  rw [set, put, ← others t.entries]
  simp [filesBelow]

theorem filesBelow_set_directory {t : FileTree} {place : List String} (absent : t.lookup place = none) :
    (t.set place .directory).filesBelow [] = t.filesBelow [] := by
  have free : t.entries.lookup place = none := by
    rw [lookup] at absent
    split at absent
    · cases absent
    · exact absent
  have kept : t.entries.filter (·.1 ≠ place) = t.entries := by
    refine List.filter_eq_self.2 fun e member => ?_
    have other := List.lookup_eq_none_iff.1 free e member
    simpa using fun same => (bne_iff_ne.1 other) same.symm
  rw [set, kept]
  simp [filesBelow]

/-- Nothing but directories tells the trees apart. -/
structure SameFiles (t t' : FileTree) : Prop where
  working : t'.working = t.working
  files : t'.filesBelow [] = t.filesBelow []

theorem SameFiles.refl (t : FileTree) : t.SameFiles t := ⟨rfl, rfl⟩

theorem SameFiles.trans {t t' t'' : FileTree} (first : t.SameFiles t') (second : t'.SameFiles t'') : t.SameFiles t'' :=
  ⟨second.working.trans first.working, second.files.trans first.files⟩

theorem makeDirectory_sameFiles {t made : FileTree} {p : Path} (h : t.makeDirectory p = .ok made) :
    t.SameFiles made := by
  rw [makeDirectory] at h
  split at h
  · cases h
  · split at h
    · cases h
    · cases h
    · split at h
      · cases h
      · cases h
      · next absent _ =>
        cases h
        exact ⟨rfl, filesBelow_set_directory absent⟩

theorem orExisting_sameFiles (t : FileTree) (p q : Path) : t.SameFiles (t.orExisting q (t.makeDirectory p)).1 := by
  cases made : t.makeDirectory p with
  | ok _ => exact makeDirectory_sameFiles made
  | error f =>
    cases f with
    | nullCharacter => exact .refl t
    | system f =>
      rw [orExisting]
      · split <;> exact .refl t
      · exact fun impossible => by cases impossible

/-- Making directories keeps all files, also where it comes to no end. -/
theorem makeDirectories_sameFiles (t : FileTree) (p : Path) (n : Nat) : t.SameFiles (t.makeDirectories p n).1 := by
  induction n with
  | zero => exact orExisting_sameFiles t _ _
  | succ n ih =>
    rw [makeDirectories]
    split
    · split
      · next above f made =>
        rw [made] at ih
        exact ih
      · next above made =>
        rw [made] at ih
        exact ih.trans (orExisting_sameFiles above _ _)
    · exact orExisting_sameFiles t _ _

theorem writeFile_eq_ok {t made : FileTree} {p : Path} {content : String}
    (h : t.writeFile p content = (made, .ok ())) : made = t.set (t.place p) (.file content) := by
  rw [writeFile] at h
  split at h
  · cases h
  · split at h
    · cases h
    · cases h
    · next place located =>
      rw [← locate_eq_some located]
      split at h
      · cases h
      · cases h
      · cases h
        rfl

/-- What one write leaves if it succeeds. -/
theorem write_eq_ok {t made : FileTree} {p : Path} {content : String} (h : t.write p content = (made, .ok ())) :
    made.working = t.working ∧ made.filesBelow [] = put (t.filesBelow []) (t.place p, content) := by
  have same := makeDirectories_sameFiles t p.parent p.parent.parts.length
  rw [write] at h
  split at h
  · cases h
  · next directories ready =>
    rw [ready] at same
    rw [writeFile_eq_ok h, filesBelow_set_file, place_of_working same.working, same.files]
    exact ⟨same.working, rfl⟩

/-! ## One write after the other -/

theorem mem_put {files : List (List String × String)} {f : List String × String} {place : List String}
    {content : String} :
    (place, content) ∈ put files f ↔ (place, content) = f ∨ (place ≠ f.1 ∧ (place, content) ∈ files) := by
  rw [put, List.mem_cons, List.mem_filter, decide_eq_true_iff, and_comm]

/-- There is a last one among those that were written to a place, unless none was. -/
theorem lookup_reverse_eq_none {α β : Type} [BEq α] [LawfulBEq α] {ws : List (α × β)} {key : α} :
    ws.reverse.lookup key = none ↔ key ∉ ws.map Prod.fst := by
  rw [List.lookup_eq_none_iff]
  constructor
  · intro others member
    obtain ⟨w, held, same⟩ := List.mem_map.1 member
    exact bne_iff_ne.1 (others w (List.mem_reverse.2 held)) same.symm
  · intro absent w held
    refine bne_iff_ne.2 fun same => absent ?_
    exact List.mem_map.2 ⟨w, List.mem_reverse.1 held, same.symm⟩

theorem mem_of_lookup_reverse {α β : Type} [BEq α] [LawfulBEq α] {ws : List (α × β)} {key : α} {value : β}
    (last : ws.reverse.lookup key = some value) : key ∈ ws.map Prod.fst := by
  by_contra absent
  rw [lookup_reverse_eq_none.2 absent] at last
  cases last

/-- After writes, a place holds what was written there last, or what it held before. -/
theorem mem_foldl_put {files ws : List (List String × String)} {place : List String} {content : String} :
    (place, content) ∈ ws.foldl put files ↔
      ws.reverse.lookup place = some content ∨ (place ∉ ws.map Prod.fst ∧ (place, content) ∈ files) := by
  induction ws generalizing files with
  | nil => simp
  | cons w ws ih =>
    obtain ⟨q, c⟩ := w
    rw [List.foldl_cons, ih, List.reverse_cons, List.lookup_append, mem_put]
    cases last : ws.reverse.lookup place with
    | some d =>
      simp [mem_of_lookup_reverse last]
    | none =>
      have absent := lookup_reverse_eq_none.1 last
      by_cases here : place = q
      · subst here
        simp [absent, eq_comm]
      · have other : (place == q) = false := beq_eq_false_iff_ne.2 here
        simp [absent, here, List.lookup_cons, other]

/-- Where no two files share a place, writes leave it so. -/
theorem nodup_foldl_put (within : List String → Bool) {files : List (List String × String)}
    (h : ((files.filter (within ·.1)).map Prod.fst).Nodup) (ws : List (List String × String)) :
    (((ws.foldl put files).filter (within ·.1)).map Prod.fst).Nodup := by
  induction ws generalizing files with
  | nil => exact h
  | cons w ws ih =>
    refine ih ?_
    have others : (((files.filter (·.1 ≠ w.1)).filter (within ·.1)).map Prod.fst).Nodup := by
      rw [List.filter_comm]
      exact h.sublist (List.filter_sublist.map _)
    rw [put]
    by_cases inside : within w.1 = true
    · rw [List.filter_cons, if_pos inside, List.map_cons]
      refine List.nodup_cons.2 ⟨fun member => ?_, others⟩
      obtain ⟨f, held, same⟩ := List.mem_map.1 member
      have other := (List.mem_filter.1 (List.mem_filter.1 held).1).2
      exact of_decide_eq_true other same
    · rwa [List.filter_cons, if_neg inside]

end FileTree

/-! ## Actions -/

namespace Action

/-- The writes among actions. -/
def writes : List Action → List (Path × String)
  | [] => []
  | .tell _ :: as => writes as
  | .write path content :: as => (path, content) :: writes as

@[simp] theorem writes_tell (m : Message) (as : List Action) : writes (.tell m :: as) = writes as := rfl

@[simp] theorem writes_append (as bs : List Action) : writes (as ++ bs) = writes as ++ writes bs := by
  induction as with
  | nil => rfl
  | cons a as ih => cases a <;> simp [writes, ih]

theorem writes_map_tell {α : Type} (message : α → Message) (as : List α) :
    writes (as.map fun a => .tell (message a)) = [] := by
  induction as with
  | nil => rfl
  | cons a as ih => exact ih

end Action

/-- Actions that could all be done leave the files that putting their writes one after the other gives. -/
theorem filesBelow_perform {t : FileTree} {as : List Action} (h : (perform t as).result = .ok ()) :
    (perform t as).tree.filesBelow [] =
      ((Action.writes as).map fun w => (t.place w.1, w.2)).foldl FileTree.put (t.filesBelow []) := by
  induction as generalizing t with
  | nil => rfl
  | cons a as ih =>
    cases a with
    | tell m => exact ih h
    | write path content =>
      rw [perform] at h ⊢
      cases done : t.write path content with
      | mk made result =>
        cases result with
        | error f =>
          rw [done] at h
          cases h
        | ok _ =>
          rw [done] at h
          obtain ⟨working, files⟩ := FileTree.write_eq_ok done
          dsimp only
          rw [ih h, files]
          simp only [FileTree.place_of_working working]
          rfl

end ProgramFacts
