import Mathlib.Algebra.GroupWithZero.Nat
import ProgramFacts.Generation
import ProgramFacts.Proofs.FileWrites

/-!
# What scripts do that come to their end

A script comes to its end if both of its parts do, and then it does what both do. So a run of a generator that comes to
its end has walked the program to the end in every mode; its writes are those of the modes one after the other, and it
reports how many paths each mode wrote to, whatever was written twice.
-/

namespace ProgramFacts

namespace Script

variable {α β : Type}

theorem result_bind_eq_ok {x : Script α} {f : α → Script β} {b : β} :
    (x >>= f).result = .ok b ↔ ∃ a, x.result = .ok a ∧ (f a).result = .ok b := by
  cases h : x.result <;> simp [bind, h]

theorem actions_bind_of_ok {x : Script α} {a : α} (h : x.result = .ok a) (f : α → Script β) :
    (x >>= f).actions = x.actions ++ (f a).actions := by
  simp [bind, h]

@[simp] theorem actions_pure (a : α) : (pure a : Script α).actions = [] := rfl

@[simp] theorem actions_act (as : List Action) : (act as).actions = as := rfl

@[simp] theorem actions_ofResult (r : Except RunFault α) : (ofResult r).actions = [] := rfl

/-- A script is done to its end only if all of its actions are. -/
theorem perform_result_eq_ok {t : FileTree} {s : Script α} {a : α} (h : (s.perform t).result = .ok a) :
    s.result = .ok a ∧ (ProgramFacts.perform t s.actions).result = .ok () ∧
      (s.perform t).tree = (ProgramFacts.perform t s.actions).tree := by
  rw [Script.perform] at h ⊢
  cases done : (ProgramFacts.perform t s.actions).result with
  | error f =>
    rw [done] at h
    cases h
  | ok _ =>
    rw [done] at h
    exact ⟨h, rfl, rfl⟩

/-- However a script ends, it leaves what its actions leave. -/
theorem tree_perform (t : FileTree) (s : Script α) : (s.perform t).tree = (ProgramFacts.perform t s.actions).tree := by
  rw [Script.perform]
  split <;> rfl

end Script

/-! ## Plans -/

/-- The fact that a step writes, with its file. -/
def Output.Step.write? : Output.Step → Option (FactFile × Term)
  | .tell _ => none
  | .write f fact => some (f, fact)

namespace Output

/-- The writes of a plan are those of its steps. -/
theorem writes_plan (o : Output) (steps : List Step) :
    Action.writes (o.plan steps).2 =
      (steps.filterMap Step.write?).map fun w => (w.1.path o.root, o.content w.2) := by
  induction steps generalizing o with
  | nil => rfl
  | cons s steps ih =>
    cases s with
    | tell m => exact ih o
    | write f fact =>
      have same : (o.note (f.path o.root)).root = o.root ∧ (o.note (f.path o.root)).style = o.style := by
        rw [note]
        split <;> exact ⟨rfl, rfl⟩
      have later := ih (o.note (f.path o.root))
      have one : Action.writes (o.writing f fact) = [(f.path o.root, o.content fact)] := by
        rw [writing]
        split <;> rfl
      simp only [content, same] at later
      simp only [plan, Action.writes_append, one, later]
      rfl

theorem nodup_note {o : Output} (once : o.written.Nodup) (path : Path) : (o.note path).written.Nodup := by
  rw [note]
  split
  · exact once
  · next fresh =>
    refine List.nodup_append.2 ⟨once, List.nodup_singleton path, ?_⟩
    intro a known b new same
    rw [List.mem_singleton.1 new] at same
    exact fresh (same ▸ known)

theorem mem_note {o : Output} {path q : Path} : q ∈ (o.note path).written ↔ q ∈ o.written ∨ q = path := by
  rw [note]
  split
  · next known =>
    refine ⟨Or.inl, fun h => h.elim id ?_⟩
    rintro rfl
    exact known
  · simp

/-- A plan notes the paths that it writes to, each once. -/
theorem written_plan (o : Output) (once : o.written.Nodup) (steps : List Step) :
    (o.plan steps).1.written.Nodup ∧
      ∀ q, q ∈ (o.plan steps).1.written ↔
        q ∈ o.written ∨ q ∈ (steps.filterMap Step.write?).map fun w => w.1.path o.root := by
  induction steps generalizing o with
  | nil => exact ⟨once, fun q => by simp [plan]⟩
  | cons s steps ih =>
    cases s with
    | tell m => exact ih o once
    | write f fact =>
      have root : (o.note (f.path o.root)).root = o.root := by
        rw [note]
        split <;> rfl
      obtain ⟨nodup, members⟩ := ih (o.note (f.path o.root)) (nodup_note once _)
      refine ⟨nodup, fun q => ?_⟩
      have later := members q
      rw [root, mem_note] at later
      change q ∈ ((o.note (f.path o.root)).plan steps).1.written ↔ _
      rw [later, List.filterMap_cons, Step.write?, List.map_cons, List.mem_cons]
      tauto

end Output

/-! ## Modes -/

/-- The directory of a mode. -/
def Mode.root (directory : Path) (m : Mode) : Path := directory.join (.ofText m.name)

/-- What is planned for a program in one mode. -/
def Mode.plan (style : Term.Style) (directory : Path) (p : Program) (m : Mode) : Output × List Action :=
  Output.plan { root := m.root directory, style } (p.walk m.hasDocs).steps

theorem generateMode_eq_ok {working : List String} {style : Term.Style} {directory : Path} {p : Program} {m : Mode}
    {done : Tally × Output} (h : (generateMode working style directory p m).result = .ok done) :
    (∃ i, (p.walk m.hasDocs).result = .ok i) ∧ done.2 = (m.plan style directory p).1 ∧
      Action.writes (generateMode working style directory p m).actions =
        Action.writes (m.plan style directory p).2 := by
  rw [generateMode, generateModeWith] at h ⊢
  split at h
  · cases h
  · next clean =>
    rw [if_neg clean]
    obtain ⟨_, -, h⟩ := Script.result_bind_eq_ok.1 h
    obtain ⟨_, -, h⟩ := Script.result_bind_eq_ok.1 h
    obtain ⟨i, walked, h⟩ := Script.result_bind_eq_ok.1 h
    obtain ⟨_, -, h⟩ := Script.result_bind_eq_ok.1 h
    have ended : (p.walk m.hasDocs).result = .ok i := by
      cases result : (p.walk m.hasDocs).result with
      | ok j =>
        rw [result] at walked
        cases walked
        rfl
      | error f =>
        rw [result] at walked
        cases walked
    cases h
    refine ⟨⟨i, ended⟩, rfl, ?_⟩
    rw [Script.actions_bind_of_ok rfl, Script.actions_bind_of_ok rfl, Script.actions_bind_of_ok walked,
      Script.actions_bind_of_ok rfl]
    have reported : ∀ ms : List Message, Action.writes (ms.map .tell) = [] := Action.writes_map_tell id
    simp [Script.tell, reported, Mode.plan, Mode.root]

/-- What a run in several modes has done at its end: in each it has walked the program to the end, done the writes that
were planned, and noted what was to be noted. -/
theorem generateModes_eq_ok {working : List String} {style : Term.Style} {directory : Path} {p : Program}
    {ms : List Mode} {done : List (Tally × Output)}
    (h : (generateModes working style directory p ms).result = .ok done) :
    (∀ m ∈ ms, ∃ i, (p.walk m.hasDocs).result = .ok i) ∧
      done.map Prod.snd = ms.map (fun m => (m.plan style directory p).1) ∧
      Action.writes (generateModes working style directory p ms).actions =
        ms.flatMap fun m => Action.writes (m.plan style directory p).2 := by
  induction ms generalizing done with
  | nil =>
    cases h
    exact ⟨by simp, rfl, rfl⟩
  | cons m ms ih =>
    rw [generateModes, generateModesWith] at h ⊢
    obtain ⟨one, first, h⟩ := Script.result_bind_eq_ok.1 h
    obtain ⟨others, rest, h⟩ := Script.result_bind_eq_ok.1 h
    cases h
    obtain ⟨ended, noted, wrote⟩ := generateMode_eq_ok first
    obtain ⟨endedRest, notedRest, wroteRest⟩ := ih rest
    refine ⟨?_, ?_, ?_⟩
    · intro n member
      rcases List.mem_cons.1 member with rfl | later
      · exact ended
      · exact endedRest n later
    · rw [List.map_cons, List.map_cons, noted, notedRest]
    · rw [Script.actions_bind_of_ok first, Script.actions_bind_of_ok rest, Script.actions_pure, List.append_nil,
        Action.writes_append, wrote, wroteRest, List.flatMap_cons]

/-! ## Runs

A run leaves out packages by their paths, and nothing else in it depends on how it is told which. -/

namespace Generator

variable {g : Generator} {working : List String} {p : Program} {r : Report}

/-- A run that leaves out the packages with some paths, whatever the rules of the generator are. -/
def generateWithout (g : Generator) (out : String → Bool) (working : List String) (p : Program) : Script Report :=
  g.generateWith reportWritten out working p

/-- What a run has done at its end. -/
theorem generateWithout_eq_ok {out : String → Bool} (h : (g.generateWithout out working p).result = .ok r) :
    ∃ directory ms, g.directory = .ok directory ∧ g.modes = .ok ms ∧
      (∀ m ∈ ms, ∃ i, ((p.without out).walk m.hasDocs).result = .ok i) ∧
      r.files = (ms.map fun m => (m.plan g.style directory (p.without out)).1.written.length).sum ∧
      Action.writes (g.generateWithout out working p).actions =
        ms.flatMap fun m => Action.writes (m.plan g.style directory (p.without out)).2 := by
  rw [generateWithout, generateWith] at h ⊢
  obtain ⟨_, -, h⟩ := Script.result_bind_eq_ok.1 h
  obtain ⟨directory, found, h⟩ := Script.result_bind_eq_ok.1 h
  obtain ⟨ms, chosen, h⟩ := Script.result_bind_eq_ok.1 h
  obtain ⟨done, generated, h⟩ := Script.result_bind_eq_ok.1 h
  obtain ⟨_, -, h⟩ := Script.result_bind_eq_ok.1 h
  cases h
  obtain ⟨ended, noted, wrote⟩ := generateModes_eq_ok generated
  refine ⟨directory, ms, found, chosen, ended, ?_, ?_⟩
  · have counts := congrArg (List.map (·.written.length)) noted
    rw [List.map_map, List.map_map] at counts
    exact congrArg List.sum counts
  · rw [Script.actions_bind_of_ok rfl, Script.actions_bind_of_ok found, Script.actions_bind_of_ok chosen,
      Script.actions_bind_of_ok generated, Script.actions_bind_of_ok rfl]
    simp [Action.writes_map_tell, wrote, Script.tell, Action.writes]

/-- What a run of a generator has done at its end. -/
theorem generate_eq_ok (h : (g.generate working p).result = .ok r) :
    ∃ directory ms, g.directory = .ok directory ∧ g.modes = .ok ms ∧
      (∀ m ∈ ms, ∃ i, ((g.kept p).walk m.hasDocs).result = .ok i) ∧
      r.files = (ms.map fun m => (m.plan g.style directory (g.kept p)).1.written.length).sum ∧
      Action.writes (g.generate working p).actions =
        ms.flatMap fun m => Action.writes (m.plan g.style directory (g.kept p)).2 := by
  rw [kept]
  exact generateWithout_eq_ok h

end Generator

end ProgramFacts
