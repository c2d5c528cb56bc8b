import ProgramFacts.Proofs.WriteConditions

/-!
# Calls on one output

An output is called again and again: for the facts of modules, packages and types, and for indices. Some calls succeed
and some fail, in any order, on whatever file tree there is (`Output.turns`). What the output has noted is then known
from the calls that succeeded alone: their paths, each where it came first. A call that succeeds warns if and only if
one before it succeeded with the same path. A call that fails leaves the notes and all files as they were.
-/

namespace ProgramFacts

namespace FileTree

/-! ## Failed writes -/

/-- What is there stays, and only directories are new. -/
structure Grown (t after : FileTree) : Prop where
  files : ∀ q content, after.lookup q = some (.file content) ↔ t.lookup q = some (.file content)
  directories : ∀ q, t.lookup q = some .directory → after.lookup q = some .directory

theorem Grown.refl (t : FileTree) : t.Grown t := ⟨fun _ _ => Iff.rfl, fun _ => id⟩

theorem Grown.trans {t mid after : FileTree} (first : t.Grown mid) (second : mid.Grown after) : t.Grown after where
  files q content := (second.files q content).trans (first.files q content)
  directories q there := second.directories q (first.directories q there)

theorem makeDirectory_grown {t made : FileTree} {p : Path} (h : t.makeDirectory p = .ok made) : t.Grown made := by
  rw [makeDirectory] at h
  split at h
  · cases h
  · split at h
    · cases h
    · cases h
    · next place _ =>
      split at h
      · cases h
      · cases h
      · next absent _ =>
        cases h
        have found := lookup_set (e := .directory) (show t.lookup place ≠ some .directory by rw [absent]; simp)
        constructor
        · intro q content
          rw [found]
          split
          · next here => simp [here, absent]
          · exact Iff.rfl
        · intro q there
          rw [found, there, ite_self]

theorem orExisting_grown (t : FileTree) (p q : Path) : t.Grown (t.orExisting q (t.makeDirectory p)).1 := by
  cases made : t.makeDirectory p with
  | ok _ => exact makeDirectory_grown made
  | error f =>
    cases f with
    | nullCharacter => exact .refl t
    | system f =>
      rw [orExisting]
      · split <;> exact .refl t
      · exact fun impossible => by cases impossible

/-- However far making directories comes, it makes nothing else. -/
theorem makeDirectories_grown (t : FileTree) (p : Path) (n : Nat) : t.Grown (t.makeDirectories p n).1 := by
  induction n with
  | zero => exact orExisting_grown t _ _
  | succ n ih =>
    rw [makeDirectories]
    split
    · split
      · next above f made =>
        rw [made] at ih
        exact ih
      · next above made =>
        rw [made] at ih
        exact ih.trans (orExisting_grown above _ _)
    · exact orExisting_grown t _ _

theorem grown_of_write_error {t after : FileTree} {p : Path} {content : String} {f : WriteFault}
    (h : t.write p content = (after, .error f)) : t.Grown after := by
  have directories := makeDirectories_grown t p.parent p.parent.parts.length
  unfold write at h
  split at h
  · next made g failed =>
    cases h
    rwa [failed] at directories
  · next made ready =>
    rw [ready] at directories
    rwa [writeFile_eq_error h]

/-! ## Null characters -/

theorem hasNull_of_take {p : Path} {n : Nat} (h : (p.take n).hasNull = true) : p.hasNull = true := by
  obtain ⟨name, member, null⟩ := List.any_eq_true.1 h
  exact List.any_eq_true.2 ⟨name, List.mem_of_mem_take member, null⟩

theorem hasNull_of_makeDirectory {t : FileTree} {p : Path} (h : t.makeDirectory p = .error .nullCharacter) :
    p.hasNull = true := by
  rw [makeDirectory] at h
  split at h
  · assumption
  · split at h
    · cases h
    · cases h
    · split at h <;> cases h

theorem hasNull_of_orExisting {t : FileTree} {p q : Path}
    (h : (t.orExisting q (t.makeDirectory p)).2 = .error .nullCharacter) : p.hasNull = true := by
  cases made : t.makeDirectory p with
  | ok _ =>
    rw [made] at h
    cases h
  | error f =>
    cases f with
    | nullCharacter => exact hasNull_of_makeDirectory made
    | system f =>
      rw [made, orExisting] at h
      · split at h <;> cases h
      · exact fun impossible => by cases impossible

theorem hasNull_of_makeDirectories {t : FileTree} {p : Path} {n : Nat}
    (h : (t.makeDirectories p n).2 = .error .nullCharacter) : p.hasNull = true := by
  induction n with
  | zero => exact hasNull_of_take (hasNull_of_orExisting h)
  | succ n ih =>
    rw [makeDirectories] at h
    split at h
    · split at h
      · next above f made =>
        rw [made] at ih
        exact ih h
      · exact hasNull_of_take (hasNull_of_orExisting h)
    · exact hasNull_of_take (hasNull_of_orExisting h)

/-- What no system was asked is refused for a null character in the path. -/
theorem hasNull_of_write {t : FileTree} {p : Path} {content : String}
    (h : (t.write p content).2 = .error .nullCharacter) : p.hasNull = true := by
  unfold write at h
  split at h
  · next made f failed =>
    have refused : (t.makeDirectories p.parent p.parent.parts.length).2 = .error .nullCharacter := by
      rw [failed]
      exact h
    have parent := hasNull_of_makeDirectories refused
    rw [Path.parent, List.dropLast_eq_take] at parent
    exact hasNull_of_take parent
  · unfold writeFile at h
    split at h
    · assumption
    · split at h
      · cases h
      · cases h
      · split at h <;> cases h

end FileTree

namespace Output

/-! ## Calls and turns -/

/-- A fact to be written: one that a walk gives, or an index, which may have a name of its own. -/
inductive Call
  | ofWalk (key : Key) (fact : Term)
  | index (name : String) (fact : Term)

namespace Call

def file : Call → FactFile
  | .ofWalk key _ => key.file
  | .index name fact => .ofIndex name fact

def term : Call → Term
  | .ofWalk _ fact => fact
  | .index _ fact => fact

end Call

/-- A call with the output and the file tree that it found and left. -/
structure Turn where
  call : Call
  output : Output
  tree : FileTree
  after : Output
  deed : Deed

namespace Turn

/-- The path that the call is to write to. -/
def path (u : Turn) : Path := u.call.file.path u.output.root

/-- What the call is to write. -/
def content (u : Turn) : String := u.output.content u.call.term

def succeeds (u : Turn) : Bool := u.deed.result.isOk

/-- The paths of the calls that succeeded, in order. -/
def reached (us : List Turn) : List Path := (us.filter succeeds).map path

theorem reached_append (us vs : List Turn) : reached (us ++ vs) = reached us ++ reached vs := by
  rw [reached, List.filter_append, List.map_append]
  rfl

/-- What was told in the course of several calls. -/
def messages (us : List Turn) : List Message := us.flatMap (·.deed.messages)

end Turn

/-- One call. -/
def turn (o : Output) (t : FileTree) (c : Call) : Turn :=
  let written := o.write t c.file c.term
  ⟨c, o, t, written.1, written.2⟩

/-- Calls one after the other, each on what the one before has left. -/
def turns (o : Output) (t : FileTree) : List Call → List Turn
  | [] => []
  | c :: cs =>
    let u := o.turn t c
    u :: u.after.turns u.deed.tree cs

/-! ## One call -/

namespace Turn

/-- Whether the turn is what the call comes to. -/
def IsMade (u : Turn) : Prop := (u.after, u.deed) = u.output.write u.tree u.call.file u.call.term

variable {u : Turn}

/-- A call ends as its write does: it notes the path and may warn, or it leaves the notes and tells nothing. -/
theorem IsMade.cases (h : u.IsMade) :
    (∃ made, u.tree.write u.path u.content = (made, .ok ()) ∧ u.after = u.output.note u.path ∧
      u.deed = ⟨made, if u.path ∈ u.output.written then [overwrote u.path] else [], .ok ()⟩) ∨
    ∃ made f, u.tree.write u.path u.content = (made, .error f) ∧ u.after = u.output ∧
      u.deed = ⟨made, [], .error (.of u.path f)⟩ := by
  obtain ⟨c, o, t, after, deed⟩ := u
  cases outcome : t.write (c.file.path o.root) (o.content c.term) with
  | mk made result =>
    cases result with
    | ok _ =>
      refine Or.inl ⟨made, outcome, Prod.mk.inj (h.trans ?_)⟩
      by_cases known : c.file.path o.root ∈ o.written
      · simp [write, writing, perform, outcome, path, known]
      · simp [write, writing, perform, outcome, path, known]
    | error f =>
      refine Or.inr ⟨made, f, outcome, Prod.mk.inj (h.trans ?_)⟩
      simp [write, writing, perform, outcome, path]

theorem IsMade.messages_eq (h : u.IsMade) :
    u.deed.messages = if u.succeeds = true ∧ u.path ∈ u.output.written then [overwrote u.path] else [] := by
  rcases h.cases with ⟨made, -, -, deed⟩ | ⟨made, f, -, -, deed⟩
  · have ok : u.succeeds = true := by rw [succeeds, deed]; rfl
    simp [ok, deed]
  · have failed : u.succeeds = false := by rw [succeeds, deed]; rfl
    simp [failed, deed]

/-- A call that succeeds leaves its content where its path leads. -/
theorem IsMade.lookup_path (h : u.IsMade) (ok : u.deed.result = .ok ()) :
    u.deed.tree.lookup (u.tree.place u.path) = some (.file u.content) := by
  rcases h.cases with ⟨made, wrote, -, deed⟩ | ⟨made, f, -, -, deed⟩
  · obtain ⟨-, -, lookup⟩ := FileTree.admits_of_write wrote
    rw [deed, lookup, FileTree.overlay_singleton, if_pos rfl]
  · rw [deed] at ok
    cases ok

/-- A call that fails leaves all but directories as it was. -/
theorem IsMade.keeps (h : u.IsMade) {f : OutputFault} (failed : u.deed.result = .error f) :
    u.after.written = u.output.written ∧ u.tree.Grown u.deed.tree := by
  rcases h.cases with ⟨made, -, -, deed⟩ | ⟨made, g, wrote, after, deed⟩
  · rw [deed] at failed
    cases failed
  · rw [deed, after]
    exact ⟨rfl, FileTree.grown_of_write_error wrote⟩

/-- A fault of the system is told with the path of the call. -/
theorem IsMade.result_eq_system (h : u.IsMade) (p : Path) (f : SystemFault) :
    u.deed.result = .error (.system p f) ↔
      p = u.path ∧ (u.tree.write u.path u.content).2 = .error (.system f) := by
  rcases h.cases with ⟨made, wrote, -, deed⟩ | ⟨made, g, wrote, -, deed⟩
  · simp [deed, wrote]
  · rw [deed, wrote]
    cases g with
    | nullCharacter => simp [OutputFault.of]
    | system g => simp [OutputFault.of, eq_comm]

theorem IsMade.hasNull (h : u.IsMade) (refused : u.deed.result = .error .nullCharacter) : u.path.hasNull = true := by
  rcases h.cases with ⟨made, -, -, deed⟩ | ⟨made, g, wrote, -, deed⟩
  · rw [deed] at refused
    cases refused
  · rw [deed] at refused
    cases g with
    | nullCharacter =>
      have write : (u.tree.write u.path u.content).2 = .error .nullCharacter := by rw [wrote]
      exact FileTree.hasNull_of_write write
    | system g => cases refused

end Turn

/-! ## What has been noted -/

/-- How an output stands after calls: the same root and layout as ever, the paths of the calls that succeeded without
the repetitions, and a warning for each repetition. -/
structure Accounts (root : Path) (style : Term.Style) (done : List Turn) (o : Output) : Prop where
  root : o.root = root
  style : o.style = style
  written : o.written = (Turn.reached done).eraseDups
  once : o.written.Nodup
  repeated : (Turn.reached done).length = o.written.length + (Turn.messages done).length

variable {root : Path} {style : Term.Style} {done : List Turn}

/-- Nothing has been called. -/
theorem accounts_nil (root : Path) (style : Term.Style) : Accounts root style [] { root, style } :=
  ⟨rfl, rfl, rfl, List.nodup_nil, rfl⟩

theorem Accounts.mem_written {o : Output} (h : Accounts root style done o) {p : Path} :
    p ∈ o.written ↔ p ∈ Turn.reached done := by
  rw [h.written, List.mem_eraseDups]

/-- A path that was noted before is left out as a repetition, any other one is put last. -/
theorem written_note {o : Output} {ps : List Path} (noted : o.written = ps.eraseDups) (p : Path) :
    (o.note p).written = (ps ++ [p]).eraseDups := by
  have known : p ∈ o.written ↔ p ∈ ps := by rw [noted, List.mem_eraseDups]
  rw [List.eraseDups_append, note]
  by_cases member : p ∈ ps
  · rw [if_pos (known.2 member), noted]
    simp [List.removeAll, member]
  · rw [if_neg (mt known.1 member), noted]
    simp [List.removeAll, member, List.eraseDups_cons]

/-- One more call keeps the accounts. -/
theorem Accounts.step {u : Turn} (h : Accounts root style done u.output) (made : u.IsMade) :
    Accounts root style (done ++ [u]) u.after := by
  have told : Turn.messages (done ++ [u]) = Turn.messages done ++ u.deed.messages := by simp [Turn.messages]
  have count := h.repeated
  rcases made.cases with ⟨tree, -, after, deed⟩ | ⟨tree, f, -, after, deed⟩
  · have one : Turn.reached [u] = [u.path] := by simp [Turn.reached, Turn.succeeds, deed, Except.toBool]
    constructor
    case root => rw [after, ← h.root, note]; split <;> rfl
    case style => rw [after, ← h.style, note]; split <;> rfl
    case written => rw [after, Turn.reached_append, one, written_note h.written]
    case once =>
      rw [after]
      exact nodup_note h.once _
    case repeated =>
      rw [Turn.reached_append, one, after, told, deed, note]
      split <;> simp <;> omega
  · have none : Turn.reached [u] = [] := by simp [Turn.reached, Turn.succeeds, deed, Except.toBool]
    have silent : u.deed.messages = [] := by rw [deed]
    constructor
    case root => rw [after, h.root]
    case style => rw [after, h.style]
    case written => rw [after, Turn.reached_append, none, List.append_nil, h.written]
    case once =>
      rw [after]
      exact h.once
    case repeated => rw [after, Turn.reached_append, none, List.append_nil, told, silent, List.append_nil, count]

/-- Each of several calls finds the accounts of those before it. -/
theorem Accounts.run {o : Output} (h : Accounts root style done o) {t : FileTree} {calls : List Call}
    {before later : List Turn} {u : Turn} (split : o.turns t calls = before ++ u :: later) :
    Accounts root style (done ++ before) u.output ∧ u.IsMade := by
  induction calls generalizing done o t before with
  | nil =>
    have impossible := congrArg List.length split
    simp [turns] at impossible
  | cons c calls ih =>
    rw [turns] at split
    have made : (o.turn t c).IsMade := by simp only [Turn.IsMade, turn]
    cases before with
    | nil =>
      obtain ⟨rfl, -⟩ := List.cons.inj split
      rw [List.append_nil]
      exact ⟨h, made⟩
    | cons first before =>
      obtain ⟨rfl, rest⟩ := List.cons.inj split
      have next : Accounts root style (done ++ [o.turn t c]) (o.turn t c).after := Accounts.step h made
      have found := ih next rest
      rwa [List.append_assoc, List.singleton_append] at found

/-! ## Sequences of calls -/

/-- **What calls on one output leave.** Take any root, layout and file tree, any calls, and any one of them. After it
the output has noted the paths of the calls that have succeeded, in order of first success and each once. The call told
that it overwrote its path, if it succeeded and one before it had with the same path, and else nothing; so there have
been as many successes as paths and warnings. If it succeeded, its content is at the place of its path. If it failed, it
left the notes, every file and every directory as they were; and it failed with its own path whatever fault the system
found, and otherwise only for a null character in the path. -/
theorem turns_account (root : Path) (style : Term.Style) (t : FileTree) (calls : List Call) {before later : List Turn}
    {u : Turn} (split : Output.turns { root, style } t calls = before ++ u :: later) :
    u.path = u.call.file.path root ∧
      (u.after.written = (Turn.reached (before ++ [u])).eraseDups ∧ u.after.written.Nodup) ∧
      u.deed.messages = (if u.succeeds = true ∧ u.path ∈ Turn.reached before then [overwrote u.path] else []) ∧
      (Turn.reached (before ++ [u])).length = u.after.written.length + (Turn.messages (before ++ [u])).length ∧
      (u.deed.result = .ok () → u.deed.tree.lookup (u.tree.place u.path) = some (.file u.content)) ∧
      (∀ f, u.deed.result = .error f → u.after.written = u.output.written ∧ u.tree.Grown u.deed.tree) ∧
      (∀ p f, u.deed.result = .error (.system p f) ↔
        p = u.path ∧ (u.tree.write u.path u.content).2 = .error (.system f)) ∧
      (u.deed.result = .error .nullCharacter → u.path.hasNull = true) := by
  obtain ⟨found, made⟩ := (accounts_nil root style).run split
  rw [List.nil_append] at found
  have left := found.step made
  have messages := made.messages_eq
  simp only [found.mem_written] at messages
  have path : u.path = u.call.file.path root := by rw [Turn.path, found.root]
  exact ⟨path, ⟨left.written, left.once⟩, messages, left.repeated, made.lookup_path, fun _ => made.keeps,
    made.result_eq_system, made.hasNull⟩

/-- A file stands where the directory of one package is to be, and a directory where the fact of a type is. -/
def crowdedTree : FileTree :=
  { working := ["w"]
    entries := [(["w", "out", "q"], .file "old"), (["w", "out", "p", "D.pl"], .directory),
      (["w", "out", "p"], .directory), (["w", "out"], .directory)] }

/-- Two types that cannot be written come between a type and one of the same name. -/
def crowdedCalls : List Call :=
  [.ofWalk (.type "p" "A") (.compound "first" []), .ofWalk (.type "q" "B") (.compound "second" []),
    .ofWalk (.type "p" "D") (.compound "third" []), .ofWalk (.type "p" "A") (.compound "fourth" [])]

theorem turns_account_crowded :
    ∃ before u, Output.turns { root := .ofText "out", style := .oneLine } crowdedTree crowdedCalls = before ++ u :: [] ∧
      before.map Turn.succeeds = [true, false, false] ∧
      u.after.written = (Turn.reached (before ++ [u])).eraseDups ∧ u.after.written = [.ofText "out/p/A.pl"] ∧
      u.deed.messages = [overwrote (.ofText "out/p/A.pl")] ∧
      (Turn.reached (before ++ [u])).length = u.after.written.length + (Turn.messages (before ++ [u])).length ∧
      (Turn.messages (before ++ [u])).length = 1 := by
  have split : Output.turns { root := .ofText "out", style := .oneLine } crowdedTree crowdedCalls =
      [_, _, _] ++ _ :: [] := rfl
  obtain ⟨-, ⟨written, -⟩, -, count, -⟩ := turns_account (.ofText "out") .oneLine crowdedTree crowdedCalls split
  exact ⟨_, _, split, by decide +kernel, written, by decide +kernel, by decide +kernel, count, by decide +kernel⟩

end Output

end ProgramFacts
