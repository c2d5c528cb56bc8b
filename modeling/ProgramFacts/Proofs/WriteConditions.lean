import ProgramFacts.Proofs.AbortedRuns

/-!
# When writes succeed

A path leads down through places where directories have to be (`FileTree.route`). Making directories succeeds unless a
file is at one of them, or nothing, and the system refuses to make a directory there; and then they are all there. So a
list of writes succeeds, from the first to the last, under conditions that do not depend on the order
(`FileTree.Admits`): no path is refused for its own sake, no file is in the way, nothing is written where a directory is
or has to be, and the system does not refuse any place. What is at each place afterwards is then known as well
(`FileTree.overlay`).
-/

namespace ProgramFacts

/-! ## Paths that are taken -/

/-- Whether no system refuses the path, whatever there is: for a null character, for its length or that of a name. -/
structure Path.IsTaken (p : Path) : Prop where
  clean : p.hasNull = false
  short : p.text.utf8ByteSize < FileTree.pathLimit
  fit : ∀ n ∈ p.parts, n.utf8ByteSize ≤ FileTree.nameLimit

/-- The first pieces joined are the start of all of them joined. -/
theorem Text.intercalate_take (separator : List Char) (pieces : List (List Char)) (n : Nat) :
    ∃ rest, separator.intercalate pieces = separator.intercalate (pieces.take n) ++ rest := by
  induction pieces generalizing n with
  | nil => exact ⟨[], by simp⟩
  | cons p ps ih =>
    match n, ps with
    | 0, ps => exact ⟨separator.intercalate (p :: ps), by simp⟩
    | n + 1, [] => exact ⟨[], by simp⟩
    | 1, q :: ps => exact ⟨separator ++ separator.intercalate (q :: ps), by simp⟩
    | n + 2, q :: ps =>
      obtain ⟨rest, later⟩ := ih (n + 1)
      refine ⟨rest, ?_⟩
      rw [List.take_succ_cons] at later ⊢
      rw [List.take_succ_cons, List.intercalate_cons_cons, List.intercalate_cons_cons, later]
      simp only [List.append_assoc]

namespace Path

theorem text_of_parts {p : Path} (leads : ¬(p.slashes = 0 ∧ p.parts = [])) :
    p.text = String.ofList (List.replicate p.slashes '/') ++ Text.joinWith "/" p.parts := by
  rw [text, if_neg leads]

theorem text_take_le (p : Path) (n : Nat) : (p.take n).text.utf8ByteSize ≤ max 1 p.text.utf8ByteSize := by
  by_cases nowhere : (p.take n).slashes = 0 ∧ (p.take n).parts = []
  · have dot : (p.take n).text = "." := if_pos nowhere
    rw [dot]
    exact Nat.le_max_left 1 _
  · have leads : ¬(p.slashes = 0 ∧ p.parts = []) := by
      rintro ⟨relative, nameless⟩
      exact nowhere ⟨relative, by simp [take, nameless]⟩
    obtain ⟨rest, longer⟩ := Text.intercalate_take "/".toList (p.parts.map String.toList) n
    rw [← List.map_take] at longer
    rw [text_of_parts nowhere, text_of_parts leads, Text.joinWith, Text.joinWith, longer, String.ofList_append]
    simp only [String.utf8ByteSize_append, take]
    omega

theorem IsTaken.take {p : Path} (h : p.IsTaken) (n : Nat) : (p.take n).IsTaken := by
  constructor
  case clean =>
    have all := List.any_eq_false.1 h.clean
    refine List.any_eq_false.2 fun name there => all name ?_
    exact List.mem_of_mem_take there
  case short =>
    have size := p.text_take_le n
    have short := h.short
    have limit : 1 < FileTree.pathLimit := by decide
    omega
  case fit =>
    intro name there
    exact h.fit name (List.mem_of_mem_take there)

theorem IsTaken.parent {p : Path} (h : p.IsTaken) : p.parent.IsTaken := by
  rw [Path.parent, List.dropLast_eq_take]
  exact h.take _

end Path

namespace FileTree

/-! ## The way to a place -/

/-- The places that names lead down to, one after the other; two dots only lead back. -/
def route (place : List String) : List String → List (List String)
  | [] => []
  | n :: ns => if n = ".." then route place.dropLast ns else (place ++ [n]) :: route (place ++ [n]) ns

theorem route_append (place a b : List String) :
    route place (a ++ b) = route place a ++ route (descend place a) b := by
  induction a generalizing place with
  | nil => rfl
  | cons n a ih =>
    by_cases up : n = ".."
    · have later := ih place.dropLast
      simpa [route, descend, up] using later
    · have later := ih (place ++ [n])
      simpa [route, descend, up] using later

/-- Names are entered if directories are there all along the way. If not, the first place where none is tells why. -/
theorem enter_cases (t : FileTree) (place : List String) {names : List String}
    (fit : ∀ n ∈ names, n.utf8ByteSize ≤ nameLimit) :
    (t.enter place names = .ok (descend place names) ∧ ∀ q ∈ route place names, t.lookup q = some .directory) ∨
      (t.enter place names = .error .notFound ∧ ∃ q ∈ route place names, t.lookup q = none) ∨
      (t.enter place names = .error .notDirectory ∧ ∃ q ∈ route place names, ∃ c, t.lookup q = some (.file c)) := by
  induction names generalizing place with
  | nil => simp [enter, descend, route]
  | cons n names ih =>
    have others := fun place => ih place fun m there => fit m (List.mem_cons_of_mem _ there)
    by_cases up : n = ".."
    · have later := others place.dropLast
      simpa [enter, descend, route, up] using later
    · have fits : ¬nameLimit < n.utf8ByteSize := Nat.not_lt.2 (fit n List.mem_cons_self)
      have later := others (place ++ [n])
      cases here : t.lookup (place ++ [n]) with
      | none => exact Or.inr (Or.inl (by simp [enter, route, up, fits, here]))
      | some entry =>
        cases entry with
        | file c => exact Or.inr (Or.inr (by simp [enter, route, up, fits, here]))
        | directory => simpa [enter, descend, route, up, fits, here] using later

theorem fit_of_enter {t : FileTree} {place q names : List String} (h : t.enter place names = .ok q) :
    ∀ n ∈ names, n.utf8ByteSize ≤ nameLimit := by
  induction names generalizing place with
  | nil => simp
  | cons n names ih =>
    rw [enter] at h
    split at h
    · next up =>
      have later := ih h
      have dots : "..".utf8ByteSize ≤ nameLimit := by decide
      simpa [up, dots] using later
    · split at h
      · cases h
      · next fits =>
        split at h
        · have later := ih h
          simpa [Nat.not_lt.1 fits] using later
        · cases h
        · cases h

theorem enter_of_directories {t : FileTree} {place names : List String}
    (fit : ∀ n ∈ names, n.utf8ByteSize ≤ nameLimit) (there : ∀ q ∈ route place names, t.lookup q = some .directory) :
    t.enter place names = .ok (descend place names) := by
  rcases t.enter_cases place fit with ⟨ok, -⟩ | ⟨-, q, member, found⟩ | ⟨-, q, member, c, found⟩
  · exact ok
  · rw [there q member] at found
    cases found
  · rw [there q member] at found
    cases found

/-! ## Trees with one more entry -/

theorem lookup_filter_ne {entries : List (List String × FileEntry)} {place q : List String} (other : q ≠ place) :
    (entries.filter (·.1 ≠ place)).lookup q = entries.lookup q := by
  induction entries with
  | nil => rfl
  | cons e entries ih =>
    obtain ⟨r, entry⟩ := e
    by_cases here : r = place
    · have apart : (q == r) = false := beq_eq_false_iff_ne.2 fun same => other (same.trans here)
      rw [List.filter_cons_of_neg (by simpa using here), List.lookup_cons, apart, ih]
    · rw [List.filter_cons_of_pos (by simpa using here), List.lookup_cons, List.lookup_cons, ih]

/-- What is put where no directory is, is found there, and all else as before. -/
theorem lookup_set {t : FileTree} {place : List String} (free : t.lookup place ≠ some .directory) (e : FileEntry)
    (q : List String) : (t.set place e).lookup q = if q = place then some e else t.lookup q := by
  by_cases here : q = place
  · have outside : ¬place.isPrefixOf t.working = true := by
      intro inside
      rw [lookup, if_pos inside] at free
      exact free rfl
    rw [here, if_pos rfl, lookup, set, if_neg outside, List.lookup_cons_self]
  · have apart : (q == place) = false := beq_eq_false_iff_ne.2 here
    rw [if_neg here, lookup, lookup, set, List.lookup_cons, apart, lookup_filter_ne here]

/-! ## Making directories -/

/-- The same working directory and the same refusals. -/
structure SameGround (t made : FileTree) : Prop where
  working : made.working = t.working
  refused : made.refused = t.refused

theorem SameGround.refl (t : FileTree) : t.SameGround t := ⟨rfl, rfl⟩

theorem SameGround.trans {t mid made : FileTree} (first : t.SameGround mid) (second : mid.SameGround made) :
    t.SameGround made :=
  ⟨second.working.trans first.working, second.refused.trans first.refused⟩

/-- Whether a directory is at the place, or can be made there. -/
structure Passes (t : FileTree) (q : List String) : Prop where
  clear : ∀ c, t.lookup q ≠ some (.file c)
  free : t.lookup q = none → t.refused q = none

theorem passes_of_directory {t : FileTree} {q : List String} (there : t.lookup q = some .directory) : t.Passes q := by
  constructor
  · intro c
    rw [there]
    simp
  · intro nothing
    rw [there] at nothing
    cases nothing

/-- The tree with directories at those of the places where nothing was. -/
structure Filled (t : FileTree) (places : List (List String)) (made : FileTree) : Prop where
  ground : t.SameGround made
  lookup : ∀ q, made.lookup q = if t.lookup q = none ∧ q ∈ places then some .directory else t.lookup q

/-- What making directories at places comes to. -/
inductive Makes (t : FileTree) (places : List (List String)) : FileTree × Except WriteFault Unit → Prop
  /-- One of the places neither is nor becomes that of a directory. -/
  | blocked {made : FileTree} {f : WriteFault} (blocked : ∃ q ∈ places, ¬t.Passes q) : Makes t places (made, .error f)
  /-- Nothing is in the way, and directories are at all of the places. -/
  | filled {made : FileTree} (clear : ∀ q ∈ places, t.Passes q) (filled : t.Filled places made) :
      Makes t places (made, .ok ())

theorem Filled.refl {t : FileTree} {places : List (List String)}
    (there : ∀ q ∈ places, t.lookup q = some .directory) : t.Filled places t := by
  refine ⟨.refl t, fun q => ?_⟩
  rw [if_neg]
  rintro ⟨nothing, member⟩
  rw [there q member] at nothing
  cases nothing

theorem Filled.trans {t mid made : FileTree} {a b : List (List String)} (first : t.Filled a mid)
    (second : mid.Filled b made) : t.Filled (a ++ b) made := by
  refine ⟨first.ground.trans second.ground, fun q => ?_⟩
  rw [second.lookup, first.lookup]
  by_cases nothing : t.lookup q = none <;> by_cases inA : q ∈ a <;> simp [nothing, inA]

/-- Where nothing was in the way, directories are at all places. -/
theorem Filled.directory {t made : FileTree} {places : List (List String)} (filled : t.Filled places made)
    (clear : ∀ q ∈ places, t.Passes q) : ∀ q ∈ places, made.lookup q = some .directory := by
  intro q member
  rw [filled.lookup]
  cases here : t.lookup q with
  | none => simp [member]
  | some entry =>
    cases entry with
    | file c => exact absurd here ((clear q member).clear c)
    | directory => simp

/-- Directories that were made are in nobody's way. -/
theorem Filled.passes_iff {t made : FileTree} {places : List (List String)} (filled : t.Filled places made)
    (clear : ∀ q ∈ places, t.Passes q) (q : List String) : made.Passes q ↔ t.Passes q := by
  by_cases member : q ∈ places
  · exact iff_of_true (passes_of_directory (filled.directory clear q member)) (clear q member)
  · have same : made.lookup q = t.lookup q := by rw [filled.lookup, if_neg fun new => member new.2]
    constructor
    · rintro ⟨none, free⟩
      rw [same] at none free
      exact ⟨none, filled.ground.refused ▸ free⟩
    · rintro ⟨none, free⟩
      rw [← same] at none free
      exact ⟨none, filled.ground.refused ▸ free⟩

theorem Makes.after {t mid : FileTree} {a b : List (List String)} {r : FileTree × Except WriteFault Unit}
    (clear : ∀ q ∈ a, t.Passes q) (first : t.Filled a mid) (second : mid.Makes b r) : t.Makes (a ++ b) r := by
  have passes := first.passes_iff clear
  cases second with
  | blocked blocked =>
    obtain ⟨q, member, misfit⟩ := blocked
    exact .blocked ⟨q, List.mem_append_right a member, mt (passes q).2 misfit⟩
  | filled clear' filled =>
    refine .filled (fun q member => ?_) (first.trans filled)
    rcases List.mem_append.1 member with inA | inB
    · exact clear q inA
    · exact (passes q).1 (clear' q inB)

section LastDirectory

variable {t : FileTree} {p : Path} {above : List String} {name : String}

theorem locate_concat (taken : p.IsTaken) (parts : p.parts = above ++ [name]) :
    t.locate p = t.enter (t.start p) above >>= fun place =>
      .ok (if name = ".." then none else some (place ++ [name])) := by
  have fits : ¬nameLimit < name.utf8ByteSize := Nat.not_lt.2 (taken.fit name (by simp [parts]))
  have short : ¬pathLimit ≤ p.text.utf8ByteSize := Nat.not_le.2 taken.short
  simp only [locate, if_neg short, parts, List.getLast?_concat, List.dropLast_concat, if_neg fits]
  congr 1
  funext place
  split <;> rfl

/-- Making a directory in one that is there. -/
theorem makes_last (taken : p.IsTaken) (parts : p.parts = above ++ [name])
    (entered : t.enter (t.start p) above = .ok (descend (t.start p) above)) :
    t.Makes (route (descend (t.start p) above) [name]) (t.orExisting p (t.makeDirectory p)) := by
  have located := locate_concat (t := t) taken parts
  rw [entered] at located
  change t.locate p = .ok (if name = ".." then none else some (descend (t.start p) above ++ [name])) at located
  by_cases up : name = ".."
  · have outcome : t.orExisting p (t.makeDirectory p) = (t, .ok ()) := by
      simp [orExisting, makeDirectory, isDirectory, find, taken.clean, located, up]
    rw [outcome, route, if_pos up]
    exact .filled (by simp [route]) (.refl (by simp [route]))
  · rw [if_neg up] at located
    rw [route, if_neg up, route]
    generalize descend (t.start p) above ++ [name] = place at located
    cases here : t.lookup place with
    | none =>
      cases refused : t.refused place with
      | none =>
        have outcome : t.orExisting p (t.makeDirectory p) = (t.set place .directory, .ok ()) := by
          simp [orExisting, makeDirectory, taken.clean, located, here, refused]
        have passes : t.Passes place := ⟨by simp [here], fun _ => refused⟩
        rw [outcome]
        refine .filled (by simpa using passes) ⟨⟨rfl, rfl⟩, fun q => ?_⟩
        rw [lookup_set (by simp [here])]
        by_cases same : q = place
        · simp [same, here]
        · simp [same]
      | some fault =>
        have outcome : t.orExisting p (t.makeDirectory p) = (t, .error (.system (.other fault.1 fault.2))) := by
          simp [orExisting, makeDirectory, isDirectory, find, taken.clean, located, here, refused]
        have misfit : ¬t.Passes place := fun passes => by simpa [refused] using passes.free here
        rw [outcome]
        exact .blocked ⟨place, List.mem_cons_self, misfit⟩
    | some entry =>
      cases entry with
      | file c =>
        have outcome : t.orExisting p (t.makeDirectory p) = (t, .error (.system .exists)) := by
          simp [orExisting, makeDirectory, isDirectory, find, taken.clean, located, here]
        have misfit : ¬t.Passes place := fun passes => passes.clear c here
        rw [outcome]
        exact .blocked ⟨place, List.mem_cons_self, misfit⟩
      | directory =>
        have outcome : t.orExisting p (t.makeDirectory p) = (t, .ok ()) := by
          simp [orExisting, makeDirectory, isDirectory, find, taken.clean, located, here]
        rw [outcome]
        exact .filled (by simpa using passes_of_directory here) (.refl (by simp [here]))

end LastDirectory

section MakeDirectories

variable {t : FileTree} {p : Path} {n : Nat}

/-- Once the directories above are there, only the last one is to be made. -/
theorem makes_next {mid : FileTree} (taken : p.IsTaken) (inside : n < p.parts.length)
    (clear : ∀ q ∈ route (t.start p) (p.parts.take n), t.Passes q)
    (filled : t.Filled (route (t.start p) (p.parts.take n)) mid) :
    t.Makes (route (t.start p) (p.parts.take (n + 1)))
      (mid.orExisting (p.take (n + 1)) (mid.makeDirectory (p.take (n + 1)))) := by
  have parts : (p.take (n + 1)).parts = p.parts.take n ++ [p.parts[n]] := (List.take_append_getElem inside).symm
  have start : mid.start (p.take (n + 1)) = t.start p := by
    simp only [FileTree.start, filled.ground.working, Path.take]
  have entered : mid.enter (t.start p) (p.parts.take n) = .ok (descend (t.start p) (p.parts.take n)) :=
    enter_of_directories (fun m there => taken.fit m (List.mem_of_mem_take there)) (filled.directory clear)
  rw [← start] at entered
  have whole := (makes_last (taken.take (n + 1)) parts entered).after clear filled
  rwa [start, ← route_append, List.take_append_getElem inside] at whole

theorem makeDirectory_of_located {place? : Option (List String)} (located : t.locate p = .ok place?) :
    t.makeDirectory p ≠ .error (.system .notFound) := by
  rw [makeDirectory, located]
  split
  · simp
  · cases place? with
    | none => simp
    | some place =>
      dsimp only
      split <;> simp

theorem makeDirectory_of_unlocated {f : SystemFault} (taken : p.IsTaken) (failed : t.locate p = .error f) :
    t.makeDirectory p = .error (.system f) := by
  simp [makeDirectory, taken.clean, failed]

end MakeDirectories

/-- Making directories leaves one at every place on the way, unless something is in the way. -/
theorem makeDirectories_makes (t : FileTree) {p : Path} (taken : p.IsTaken) {n : Nat} (within : n ≤ p.parts.length) :
    t.Makes (route (t.start p) (p.parts.take n)) (t.makeDirectories p n) := by
  induction n with
  | zero =>
    have located : t.locate (p.take 0) = .ok none := by
      rw [locate, if_neg (Nat.not_le.2 (taken.take 0).short)]
      rfl
    have outcome : t.makeDirectories p 0 = (t, .ok ()) := by
      simp [makeDirectories, orExisting, makeDirectory, isDirectory, find, (taken.take 0).clean, located]
    rw [outcome, List.take_zero, route]
    exact .filled (by simp) (.refl (by simp))
  | succ n ih =>
    have inside : n < p.parts.length := within
    have parts : (p.take (n + 1)).parts = p.parts.take n ++ [p.parts[n]] := (List.take_append_getElem inside).symm
    have located := locate_concat (t := t) (taken.take (n + 1)) parts
    have start : t.start (p.take (n + 1)) = t.start p := rfl
    have further : ∀ q ∈ route (t.start p) (p.parts.take n), q ∈ route (t.start p) (p.parts.take (n + 1)) := by
      intro q member
      rw [← List.take_append_getElem inside, route_append]
      exact List.mem_append_left _ member
    rw [start] at located
    -- how far the way is there already decides which directories are made
    rcases t.enter_cases (t.start p) (fun m there => taken.fit m (List.mem_of_mem_take there)) with
      ⟨entered, there⟩ | ⟨missing, -⟩ | ⟨misfit, q, member, c, found⟩
    · rw [entered] at located
      have known := makeDirectory_of_located located
      have clear : ∀ q ∈ route (t.start p) (p.parts.take n), t.Passes q :=
        fun q member => passes_of_directory (there q member)
      rw [makeDirectories]
      split
      · next unknown => exact absurd unknown known
      · exact makes_next taken inside clear (.refl there)
    · rw [missing] at located
      rw [makeDirectories, makeDirectory_of_unlocated (taken.take (n + 1)) located]
      dsimp only
      have earlier := ih (Nat.le_of_lt inside)
      cases outcome : t.makeDirectories p n with
      | mk made result =>
        rw [outcome] at earlier
        cases earlier with
        | blocked blocked =>
          obtain ⟨q, member, misfit⟩ := blocked
          exact .blocked ⟨q, further q member, misfit⟩
        | filled clear filled => exact makes_next taken inside clear filled
    · rw [misfit] at located
      have failed : t.locate (p.take (n + 1)) = .error .notDirectory := located
      have outcome : t.makeDirectories p (n + 1) = (t, .error (.system .notDirectory)) := by
        simp [makeDirectories, orExisting, makeDirectory, isDirectory, find, (taken.take (n + 1)).clean, failed]
      rw [outcome]
      exact .blocked ⟨q, further q member, fun passes => passes.clear c found⟩

/-! ## Writing -/

/-- The places where directories have to be for a path. -/
def above (t : FileTree) (p : Path) : List (List String) := route (t.start p) p.parts.dropLast

/-- The places where directories have to be for writes. -/
def ways (t : FileTree) (ws : List (Path × String)) : List (List String) := ws.flatMap fun w => t.above w.1

/-- What is at a place once writes have succeeded: the last content written there; or else what was there before, but a
directory where nothing was and one had to be. -/
def overlay (t : FileTree) (ws : List (Path × String)) (q : List String) : Option FileEntry :=
  match (t.puts ws).reverse.lookup q with
  | some content => some (.file content)
  | none => if t.lookup q = none ∧ q ∈ t.ways ws then some .directory else t.lookup q

/-- What it takes for writes to succeed one after the other. -/
structure Admits (t : FileTree) (ws : List (Path × String)) : Prop where
  taken : ∀ w ∈ ws, w.1.IsTaken
  /-- Each path ends with the name of a file. -/
  named : ∀ w ∈ ws, ∃ name, w.1.parts.getLast? = some name ∧ name ≠ ".."
  /-- Nothing is in the way. -/
  clear : ∀ q ∈ t.ways ws, t.Passes q
  /-- No directory is where a file is to be. -/
  free : ∀ w ∈ ws, t.lookup (t.place w.1) ≠ some .directory
  /-- No place is refused. -/
  allowed : ∀ w ∈ ws, t.refused (t.place w.1) = none
  /-- No file is to be where a directory has to be. -/
  apart : ∀ w ∈ ws, t.place w.1 ∉ t.ways ws

theorem start_of_working {t made : FileTree} (same : made.working = t.working) (p : Path) :
    made.start p = t.start p := by
  rw [start, start, same]

theorem ways_of_working {t made : FileTree} (same : made.working = t.working) (ws : List (Path × String)) :
    made.ways ws = t.ways ws := by
  simp only [ways, above, start_of_working same]

theorem ways_cons (t : FileTree) (w : Path × String) (ws : List (Path × String)) :
    t.ways (w :: ws) = t.above w.1 ++ t.ways ws := rfl

/-- Some of the writes succeed if all of them do. -/
theorem Admits.subset {t : FileTree} {ws vs : List (Path × String)} (h : t.Admits ws) (part : vs ⊆ ws) :
    t.Admits vs := by
  have fewer : t.ways vs ⊆ t.ways ws := by
    intro q member
    obtain ⟨v, held, onWay⟩ := List.mem_flatMap.1 member
    exact List.mem_flatMap.2 ⟨v, part held, onWay⟩
  constructor
  case taken => exact fun v held => h.taken v (part held)
  case named => exact fun v held => h.named v (part held)
  case clear => exact fun q member => h.clear q (fewer member)
  case free => exact fun v held => h.free v (part held)
  case allowed => exact fun v held => h.allowed v (part held)
  case apart => exact fun v held member => h.apart v (part held) (fewer member)

section OneWrite

variable {t made : FileTree} {p : Path} {content : String}

/-- Where a path leads once the directories above its last name are there. -/
theorem locate_of_directories (taken : p.IsTaken) {name : String} (last : p.parts.getLast? = some name)
    (down : name ≠ "..") (there : ∀ q ∈ t.above p, t.lookup q = some .directory) :
    t.locate p = .ok (some (t.place p)) := by
  obtain ⟨names, parts⟩ := List.getLast?_eq_some_iff.1 last
  rw [above, parts, List.dropLast_concat] at there
  have fit : ∀ n ∈ names, n.utf8ByteSize ≤ nameLimit := by
    intro n member
    exact taken.fit n (by rw [parts]; exact List.mem_append_left _ member)
  have entered := enter_of_directories fit there
  have place : t.place p = descend (t.start p) names ++ [name] := by
    rw [FileTree.place, parts, descend_append, descend_of_downward]
    intro n member
    rwa [List.mem_singleton.1 member]
  rw [locate_concat taken parts, entered, place]
  exact congrArg Except.ok (if_neg down)

/-- A path that leads to a place ends with a name, and no part of it is too long. -/
theorem taken_of_locate {place : List String} (h : t.locate p = .ok (some place)) :
    p.text.utf8ByteSize < pathLimit ∧ (∀ n ∈ p.parts, n.utf8ByteSize ≤ nameLimit) ∧
      ∃ name, p.parts.getLast? = some name ∧ name ≠ ".." := by
  rw [locate] at h
  split at h
  · cases h
  · next short =>
    split at h
    · cases h
    · next name last =>
      obtain ⟨names, parts⟩ := List.getLast?_eq_some_iff.1 last
      rw [parts, List.dropLast_concat] at h
      obtain ⟨directory, entered, h⟩ := bind_eq_ok_iff.1 h
      split at h
      · cases h
      · next down =>
        split at h
        · cases h
        · next fits =>
          refine ⟨by omega, fun n member => ?_, name, last, down⟩
          rw [parts] at member
          rcases List.mem_append.1 member with earlier | own
          · exact fit_of_enter entered n earlier
          · rw [List.mem_singleton.1 own]
            omega

/-- Only a path that is taken, with the name of a file at its end, is written to, and only where no directory is and
the system does not refuse. -/
theorem taken_of_writeFile (h : t.writeFile p content = (made, .ok ())) :
    p.IsTaken ∧ (∃ name, p.parts.getLast? = some name ∧ name ≠ "..") ∧ t.lookup (t.place p) ≠ some .directory ∧
      t.refused (t.place p) = none := by
  rw [writeFile] at h
  split at h
  · cases h
  · next clean =>
    split at h
    · cases h
    · cases h
    · next place located =>
      obtain ⟨short, fit, named⟩ := taken_of_locate located
      refine ⟨⟨by simpa using clean, short, fit⟩, named, ?_⟩
      rw [← locate_eq_some located]
      split at h
      · cases h
      · cases h
      · next free other => exact ⟨other, free⟩

/-- Making the directories for a path. -/
theorem makes_above (t : FileTree) (taken : p.IsTaken) :
    t.Makes (t.above p) (t.makeDirectories p.parent p.parent.parts.length) := by
  have makes := t.makeDirectories_makes taken.parent (Nat.le_refl p.parent.parts.length)
  rwa [List.take_length] at makes

/-- What one write that succeeds asked for, and what it leaves. -/
theorem admits_of_write (h : t.write p content = (made, .ok ())) :
    t.Admits [(p, content)] ∧ t.SameGround made ∧ ∀ q, made.lookup q = t.overlay [(p, content)] q := by
  rw [write] at h
  split at h
  · cases h
  · next mid directories =>
    obtain ⟨taken, named, free, allowed⟩ := taken_of_writeFile h
    have makes := t.makes_above taken
    rw [directories] at makes
    cases makes with
    | filled clear filled =>
      have place := place_of_working filled.ground.working p
      have ways : t.ways [(p, content)] = t.above p := by simp [ways]
      rw [place] at free allowed
      rw [filled.ground.refused] at allowed
      have unfilled : t.place p ∉ t.above p := fun member => free (filled.directory clear _ member)
      have before : t.lookup (t.place p) ≠ some .directory := by
        intro there
        rw [filled.lookup, there] at free
        simp at free
      refine ⟨?_, ?_, fun q => ?_⟩
      · constructor
        case taken => simpa using taken
        case named => simpa using named
        case clear => rwa [ways]
        case free => simpa using before
        case allowed => simpa using allowed
        case apart => simpa [ways] using unfilled
      · rw [writeFile_eq_ok h]
        exact ⟨filled.ground.working, filled.ground.refused⟩
      · rw [writeFile_eq_ok h, place, lookup_set free, filled.lookup, overlay, ways]
        by_cases here : q = t.place p
        · simp [here, puts]
        · have other : (q == t.place p) = false := beq_eq_false_iff_ne.2 here
          simp [here, puts, List.lookup_cons, other]

/-- One write succeeds if all that it asks for is given. -/
theorem write_of_admits (h : t.Admits [(p, content)]) : ∃ made, t.write p content = (made, .ok ()) := by
  have taken := h.taken _ List.mem_cons_self
  obtain ⟨name, last, down⟩ := h.named _ List.mem_cons_self
  have ways : t.ways [(p, content)] = t.above p := by simp [ways]
  have clear := h.clear
  have apart := h.apart _ List.mem_cons_self
  rw [ways] at clear apart
  have makes := t.makes_above taken
  rw [write]
  cases directories : t.makeDirectories p.parent p.parent.parts.length with
  | mk mid result =>
    rw [directories] at makes
    cases makes with
    | blocked blocked =>
      obtain ⟨q, member, misfit⟩ := blocked
      exact absurd (clear q member) misfit
    | filled _ filled =>
      have place := place_of_working filled.ground.working p
      have above : mid.above p = t.above p := by
        rw [FileTree.above, FileTree.above, start_of_working filled.ground.working]
      have there : ∀ q ∈ mid.above p, mid.lookup q = some .directory := by
        rw [above]
        exact filled.directory clear
      have located := locate_of_directories taken last down there
      have free : mid.lookup (mid.place p) ≠ some .directory := by
        rw [place, filled.lookup, if_neg fun new => apart new.2]
        exact h.free _ List.mem_cons_self
      have allowed : mid.refused (mid.place p) = none := by
        rw [place, filled.ground.refused]
        exact h.allowed _ List.mem_cons_self
      refine ⟨mid.set (mid.place p) (.file content), ?_⟩
      dsimp only
      rw [writeFile, located]
      simp only [taken.clean, Bool.false_eq_true, if_false, allowed]

end OneWrite

/-! ## One write after the other -/

theorem overlay_singleton (t : FileTree) (w : Path × String) (q : List String) :
    t.overlay [w] q =
      if q = t.place w.1 then some (.file w.2)
      else if t.lookup q = none ∧ q ∈ t.above w.1 then some .directory else t.lookup q := by
  have ways : t.ways [w] = t.above w.1 := by simp [ways]
  rw [overlay, ways, puts, List.map_singleton, List.reverse_singleton, List.lookup_cons, List.lookup_nil]
  by_cases here : q = t.place w.1
  · simp [here]
  · simp [here, beq_eq_false_iff_ne.2 here]

section Writes

variable {t made : FileTree} {w : Path × String} {ws : List (Path × String)}

section

variable (ground : t.SameGround made) (lookup : ∀ q, made.lookup q = t.overlay [w] q)

include ground lookup

/-- What later writes leave on top of a first one is what all of them leave. -/
theorem overlay_cons (q : List String) : made.overlay ws q = t.overlay (w :: ws) q := by
  have all : (t.puts (w :: ws)).reverse.lookup q =
      ((t.puts ws).reverse.lookup q).or (if q = t.place w.1 then some w.2 else none) := by
    rw [puts, List.map_cons, List.reverse_cons, List.lookup_append, List.lookup_cons, List.lookup_nil, puts]
    by_cases here : q = t.place w.1
    · simp [here]
    · simp [here, beq_eq_false_iff_ne.2 here]
  rw [overlay, overlay, all, puts_of_working ground.working, ways_of_working ground.working, ways_cons, lookup,
    overlay_singleton]
  cases (t.puts ws).reverse.lookup q with
  | some content => simp
  | none =>
    by_cases here : q = t.place w.1
    · simp [here]
    · by_cases nothing : t.lookup q = none <;> by_cases onWay : q ∈ t.above w.1 <;> simp [here, nothing, onWay]

omit ground in
/-- What is at a place after a first write, in cases. -/
theorem lookup_after (q : List String) :
    made.lookup q = if q = t.place w.1 then some (.file w.2)
      else if t.lookup q = none ∧ q ∈ t.above w.1 then some .directory else t.lookup q :=
  (lookup q).trans (overlay_singleton t w q)

/-- Where a first write has succeeded, the conditions of later ones were there for all of them. -/
theorem Admits.cons (first : t.Admits [w]) (later : made.Admits ws) : t.Admits (w :: ws) := by
  have onWay : ∀ q, q ∈ t.ways [w] ↔ q ∈ t.above w.1 := by simp [ways]
  have free := first.free w List.mem_cons_self
  have apart := first.apart w List.mem_cons_self
  rw [onWay] at apart
  have found := lookup_after lookup
  have working := ground.working
  have clear := later.clear
  rw [ways_of_working working] at clear
  -- the file just written is not on the way of a later one
  have ownApart : t.place w.1 ∉ t.ways ws := by
    intro member
    refine (clear _ member).clear w.2 ?_
    rw [found, if_pos rfl]
  constructor
  case taken => exact List.forall_mem_cons.2 ⟨first.taken w List.mem_cons_self, later.taken⟩
  case named => exact List.forall_mem_cons.2 ⟨first.named w List.mem_cons_self, later.named⟩
  case clear =>
    intro q member
    rw [ways_cons] at member
    by_cases here : q ∈ t.above w.1
    · exact first.clear q ((onWay q).2 here)
    · -- nothing was made there by the first write
      have there := (List.mem_append.1 member).resolve_left here
      have other : q ≠ t.place w.1 := fun same => ownApart (same ▸ there)
      have same : made.lookup q = t.lookup q := by rw [found, if_neg other, if_neg fun new => here new.2]
      obtain ⟨none, free⟩ := clear q there
      rw [same] at none free
      exact ⟨none, ground.refused ▸ free⟩
  case free =>
    refine List.forall_mem_cons.2 ⟨free, fun v held there => ?_⟩
    refine later.free v held ?_
    have other : t.place v.1 ≠ t.place w.1 := fun same => free (same ▸ there)
    rw [place_of_working working, found, if_neg other, there]
    simp
  case allowed =>
    refine List.forall_mem_cons.2 ⟨first.allowed w List.mem_cons_self, fun v held => ?_⟩
    rw [← place_of_working working, ← ground.refused]
    exact later.allowed v held
  case apart =>
    refine List.forall_mem_cons.2 ⟨?_, fun v held member => ?_⟩
    · rw [ways_cons, List.mem_append]
      exact not_or.2 ⟨apart, ownApart⟩
    · rw [ways_cons] at member
      have place := place_of_working working v.1
      rcases List.mem_append.1 member with here | there
      · refine later.free v held ?_
        have other : t.place v.1 ≠ t.place w.1 := fun same => apart (same ▸ here)
        rw [place, found, if_neg other]
        cases entry : t.lookup (t.place v.1) with
        | none => simp [here]
        | some e =>
          cases e with
          | file c => exact absurd entry ((first.clear _ ((onWay _).2 here)).clear c)
          | directory => simp
      · refine later.apart v held ?_
        rwa [place, ways_of_working working]

/-- A first write that has succeeded takes nothing away from the conditions of later ones. -/
theorem Admits.tail (all : t.Admits (w :: ws)) : made.Admits ws := by
  have rest := all.subset (List.subset_cons_self w ws)
  have found := lookup_after lookup
  have working := ground.working
  constructor
  case taken => exact rest.taken
  case named => exact rest.named
  case clear =>
    intro q member
    rw [ways_of_working working] at member
    have other : q ≠ t.place w.1 := by
      rintro rfl
      exact all.apart w List.mem_cons_self (List.mem_append_right _ member)
    have here := found q
    rw [if_neg other] at here
    split at here
    · exact passes_of_directory here
    · obtain ⟨none, free⟩ := rest.clear q member
      rw [← here] at none free
      exact ⟨none, ground.refused ▸ free⟩
  case free =>
    intro v held there
    rw [place_of_working working, found] at there
    split at there
    · cases there
    · split at there
      · next new => exact all.apart v (List.mem_cons_of_mem _ held) (List.mem_append_left _ new.2)
      · exact rest.free v held there
  case allowed =>
    intro v held
    rw [place_of_working working, ground.refused]
    exact rest.allowed v held
  case apart =>
    intro v held member
    rw [place_of_working working, ways_of_working working] at member
    exact rest.apart v held member

end

/-- What writes that succeed asked for, and what they leave. -/
theorem Written.admits {after : FileTree} (h : Written t ws after) :
    t.Admits ws ∧ t.SameGround after ∧ ∀ q, after.lookup q = t.overlay ws q := by
  induction h with
  | nil t =>
    refine ⟨⟨by simp, by simp, by simp [ways], by simp, by simp, by simp⟩, .refl t, fun q => ?_⟩
    simp [overlay, puts, ways]
  | @cons t made after path content ws first later ih =>
    obtain ⟨one, ground, lookup⟩ := admits_of_write first
    obtain ⟨others, groundLater, lookupLater⟩ := ih
    refine ⟨Admits.cons ground lookup one others, ground.trans groundLater, fun q => ?_⟩
    rw [lookupLater, overlay_cons ground lookup]

/-- Writes succeed if all that they ask for is given. -/
theorem Admits.written (h : t.Admits ws) : ∃ after, Written t ws after := by
  induction ws generalizing t with
  | nil => exact ⟨t, .nil t⟩
  | cons w ws ih =>
    have one : t.Admits [w] := h.subset (by simp)
    obtain ⟨made, first⟩ := write_of_admits one
    obtain ⟨-, ground, lookup⟩ := admits_of_write first
    obtain ⟨after, later⟩ := ih (Admits.tail ground lookup h)
    exact ⟨after, .cons first later⟩

/-- A place that was written to holds a file. -/
theorem Written.lookup_of_mem {after : FileTree} (h : Written t ws after) (held : w ∈ ws) :
    ∃ content, after.lookup (t.place w.1) = some (.file content) := by
  obtain ⟨-, -, lookup⟩ := h.admits
  cases last : (t.puts ws).reverse.lookup (t.place w.1) with
  | none =>
    refine absurd ?_ (lookup_reverse_eq_none.1 last)
    rw [puts, List.map_map]
    exact List.mem_map_of_mem held
  | some content =>
    refine ⟨content, ?_⟩
    rw [lookup, overlay, last]

/-- A directory is wherever one had to be. -/
theorem Written.lookup_of_mem_ways {after : FileTree} (h : Written t ws after) {q : List String}
    (onWay : q ∈ t.ways ws) : after.lookup q = some .directory := by
  obtain ⟨admits, -, lookup⟩ := h.admits
  have unwritten : (t.puts ws).reverse.lookup q = none := by
    refine lookup_reverse_eq_none.2 fun member => ?_
    rw [puts, List.map_map] at member
    obtain ⟨w, held, rfl⟩ := List.mem_map.1 member
    exact admits.apart w held onWay
  rw [lookup, overlay, unwritten]
  cases here : t.lookup q with
  | none => simp [onWay]
  | some entry =>
    cases entry with
    | file c => exact absurd here ((admits.clear q onWay).clear c)
    | directory => simp

end Writes

/-- Nothing tells the trees apart below a place: the same directories, and the same files with the same contents. -/
structure SameBelow (place : List String) (t t' : FileTree) : Prop where
  lookup : ∀ names, t'.lookup (place ++ names) = t.lookup (place ++ names)
  files : ∀ f, f ∈ t'.filesBelow place ↔ f ∈ t.filesBelow place

end FileTree

/-- Actions that could all be done have made all of their writes. -/
theorem written_of_perform {t : FileTree} {as : List Action} (h : (perform t as).result = .ok ()) :
    t.Written (Action.writes as) (perform t as).tree := by
  have tried := perform_tried t as
  rw [h] at tried
  cases tried with
  | all written => exact written

/-- Actions whose writes succeed are all done. -/
theorem perform_of_written {t after : FileTree} {as : List Action} (h : t.Written (Action.writes as) after) :
    perform t as = ⟨after, as.filterMap Action.message?, .ok ()⟩ := by
  induction as generalizing t with
  | nil =>
    cases h
    rfl
  | cons a as ih =>
    cases a with
    | tell m =>
      rw [perform, ih h]
      rfl
    | write path content =>
      cases h with
      | cons first later =>
        rw [perform, first]
        exact ih later

end ProgramFacts
