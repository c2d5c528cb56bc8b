import Mathlib.Data.List.Forall2
import ProgramFacts.Proofs.Scripts

/-!
# The console does not matter

A generator that works before a console shows a message when it is told, if the console is to show it, and does not even
put together the report of written files if none of it would be shown. All that the console decides is which messages
are shown and in which colours: such a run leaves the same files and comes to the same as one that tells everything, and
it shows what the console shows of all that is told.
-/

namespace ProgramFacts

/-! ## Runs before a console -/

namespace Console

/-- Reports written files, unless messages of that level are dropped anyway. -/
def reportWritten (c : Console) (root : Path) (paths : List Path) : List Message :=
  if Level.debug.rank < c.threshold then [] else ProgramFacts.reportWritten root paths

/-- Does actions in order on a file tree, up to the first that fails, and shows what is told at once. -/
def perform (c : Console) (t : FileTree) : List Action → Deed
  | [] => ⟨t, [], .ok ()⟩
  | .tell m :: as =>
    let d := c.perform t as
    { d with messages := (c.shown? m).toList ++ d.messages }
  | .write path content :: as =>
    match t.write path content with
    | (made, .ok ()) => c.perform made as
    | (made, .error f) => ⟨made, [], .error (.of path f)⟩

end Console

/-- Runs a script on a file tree before a console. -/
def Script.performBefore {α : Type} (c : Console) (t : FileTree) (s : Script α) : Run α :=
  let d := c.perform t s.actions
  match d.result with
  | .ok () => ⟨d.tree, d.messages, s.result⟩
  | .error f => ⟨d.tree, d.messages, .error (.output f)⟩

/-- Writes the facts of a program to a file tree before a console. -/
def Generator.generateBefore (g : Generator) (c : Console) (t : FileTree) (p : Program) : Run Report :=
  (g.generateWith c.reportWritten g.excludesPath t.working p).performBefore c t

/-! ## Messages that are dropped -/

/-- Whether there is anything to see of an action: a file that is written, or a message that is shown. -/
def Console.sees (c : Console) : Action → Bool
  | .tell m => c.shows m
  | .write _ _ => true

/-- Scripts that come to the same, and differ at most in messages that are dropped. -/
structure Script.Alike {α : Type} (c : Console) (s s' : Script α) : Prop where
  actions : s.actions.filter c.sees = s'.actions.filter c.sees
  result : s.result = s'.result

namespace Script

variable {α β : Type} {c : Console}

theorem Alike.refl (s : Script α) : s.Alike c s := ⟨rfl, rfl⟩

theorem Alike.bind {x x' : Script α} (first : x.Alike c x') {f f' : α → Script β}
    (next : ∀ a, (f a).Alike c (f' a)) : (x >>= f).Alike c (x' >>= f') := by
  obtain ⟨before, result⟩ := x
  obtain ⟨before', result'⟩ := x'
  obtain rfl : result = result' := first.result
  have told : before.filter c.sees = before'.filter c.sees := first.actions
  cases result with
  | error e => exact ⟨told, rfl⟩
  | ok a =>
    refine ⟨?_, (next a).result⟩
    change (before ++ (f a).actions).filter c.sees = (before' ++ (f' a).actions).filter c.sees
    rw [List.filter_append, List.filter_append, told, (next a).actions]

theorem Alike.bind_left (x : Script α) {f f' : α → Script β} (next : ∀ a, (f a).Alike c (f' a)) :
    (x >>= f).Alike c (x >>= f') :=
  (Alike.refl x).bind next

end Script

/-- A report that is not put together would not be seen. -/
theorem Console.alike_reportWritten (c : Console) (root : Path) (paths : List Path) :
    (Script.act ((c.reportWritten root paths).map .tell)).Alike c
      (.act ((ProgramFacts.reportWritten root paths).map .tell)) := by
  refine ⟨?_, rfl⟩
  rw [reportWritten]
  split
  · next high =>
    symm
    simp only [Script.actions_act, List.map_nil, List.filter_nil, List.filter_eq_nil_iff]
    intro a told
    obtain ⟨m, reported, rfl⟩ := List.mem_map.1 told
    obtain ⟨path, -, rfl⟩ := List.mem_map.1 reported
    simpa [sees, shows] using high
  · rfl

theorem alike_generateModeWith (c : Console) (working : List String) (style : Term.Style) (directory : Path)
    (p : Program) (m : Mode) :
    (generateModeWith c.reportWritten working style directory p m).Alike c
      (generateModeWith reportWritten working style directory p m) := by
  rw [generateModeWith, generateModeWith]
  split
  · exact .refl _
  · refine .bind_left _ fun _ => .bind_left _ fun _ => .bind_left _ fun _ => ?_
    exact (c.alike_reportWritten _ _).bind fun _ => .refl _

theorem alike_generateModesWith (c : Console) (working : List String) (style : Term.Style) (directory : Path)
    (p : Program) (ms : List Mode) :
    (generateModesWith c.reportWritten working style directory p ms).Alike c
      (generateModesWith reportWritten working style directory p ms) := by
  induction ms with
  | nil => exact .refl _
  | cons m ms ih =>
    refine (alike_generateModeWith c working style directory p m).bind fun done => ?_
    exact ih.bind fun rest => .refl _

theorem Generator.alike_generateWith (g : Generator) (c : Console) (working : List String) (p : Program) :
    (g.generateWith c.reportWritten g.excludesPath working p).Alike c (g.generate working p) := by
  rw [generate]
  refine .bind_left _ fun _ => .bind_left _ fun directory => .bind_left _ fun ms => ?_
  exact (alike_generateModesWith c _ _ _ _ ms).bind fun done => .refl _

/-! ## What is shown -/

namespace Console

theorem log_cons (c : Console) (m : Message) (ms : List Message) :
    c.log (m :: ms) = (c.shown? m).toList ++ c.log ms := by
  rw [log, List.filterMap_cons]
  cases c.shown? m <;> rfl

theorem shown?_of_not_shows {c : Console} {m : Message} (dropped : ¬ c.shows m = true) : c.shown? m = none :=
  if_neg dropped

/-- Nothing but what is seen of actions counts. -/
theorem perform_filter_sees (c : Console) (t : FileTree) (as : List Action) :
    c.perform t (as.filter c.sees) = c.perform t as := by
  induction as generalizing t with
  | nil => rfl
  | cons a as ih =>
    cases a with
    | tell m =>
      by_cases shown : c.shows m = true
      · rw [List.filter_cons_of_pos (by exact shown), perform, perform, ih]
      · rw [List.filter_cons_of_neg (by exact shown), perform, ih, shown?_of_not_shows shown]
        rfl
    | write path content =>
      rw [List.filter_cons_of_pos rfl, perform, perform]
      split
      · exact ih _
      · rfl

/-- Messages that are shown as they are told are what is shown of all messages in the end. -/
theorem perform_eq (c : Console) (t : FileTree) (as : List Action) :
    let d := ProgramFacts.perform t as
    c.perform t as = { d with messages := c.log d.messages } := by
  induction as generalizing t with
  | nil => rfl
  | cons a as ih =>
    cases a with
    | tell m => simp only [perform, ProgramFacts.perform, ih, log_cons]
    | write path content =>
      rcases written : t.write path content with ⟨made, f | done⟩
      · simp only [perform, ProgramFacts.perform, written]
        rfl
      · simp only [perform, ProgramFacts.perform, written]
        exact ih made

end Console

namespace Script

variable {α : Type} {c : Console}

theorem Alike.performBefore_eq {s s' : Script α} (alike : s.Alike c s') (t : FileTree) :
    s.performBefore c t = s'.performBefore c t := by
  have same : c.perform t s.actions = c.perform t s'.actions := by
    rw [← c.perform_filter_sees t s.actions, alike.actions, c.perform_filter_sees]
  rw [performBefore, performBefore, same, alike.result]

theorem performBefore_eq (c : Console) (t : FileTree) (s : Script α) :
    s.performBefore c t = { s.perform t with messages := c.log (s.perform t).messages } := by
  rw [performBefore, perform, c.perform_eq]
  cases (ProgramFacts.perform t s.actions).result <;> rfl

end Script

/-- A run before a console is a run, with what the console shows of its messages. -/
theorem Generator.generateBefore_eq (g : Generator) (c : Console) (t : FileTree) (p : Program) :
    g.generateBefore c t p =
      { (g.generate t.working p).perform t with messages := c.log ((g.generate t.working p).perform t).messages } := by
  rw [generateBefore, (g.alike_generateWith c t.working p).performBefore_eq, Script.performBefore_eq]

/-! ## Two consoles -/

namespace Console

/-- How a console may show a message that was told: as it is, or with the codes of its level around it, which takes
colours. -/
def MayShow (c : Console) (told shown : Message) : Prop :=
  shown.level = told.level ∧
    (shown.text = told.text ∨ c.colored = true ∧ shown.text = told.level.color ++ told.text ++ reset)

/-- One message, as two consoles may show it. -/
def SameUpToColors (c c' : Console) (m m' : Message) : Prop := ∃ told, c.MayShow told m ∧ c'.MayShow told m'

theorem mayShow_paint (c : Console) (m : Message) : c.MayShow m { m with text := c.paint m.text m.level.color } := by
  refine ⟨rfl, ?_⟩
  rw [paint]
  split
  · next painted => exact .inr ⟨(Bool.and_eq_true_iff.1 painted).1, rfl⟩
  · exact .inl rfl

theorem shows_of_le {c c' : Console} (le : c.threshold ≤ c'.threshold) {m : Message} (shown : c'.shows m = true) :
    c.shows m = true :=
  decide_eq_true (Int.le_trans le (of_decide_eq_true shown))

/-- A higher threshold drops some of the messages that a lower one leaves. -/
theorem log_filter_of_le {c c' : Console} (le : c.threshold ≤ c'.threshold) (ms : List Message) :
    List.Forall₂ (SameUpToColors c c') ((c.log ms).filter (c'.shows ·)) (c'.log ms) := by
  induction ms with
  | nil => exact .nil
  | cons m ms ih =>
    rw [log_cons, log_cons, List.filter_append]
    refine List.rel_append ?_ ih
    -- Colours leave the level as it is, so that both consoles decide on the message as it was told.
    have level : ∀ text, c'.shows { m with text } = c'.shows m := fun text => rfl
    by_cases high : c'.shows m = true
    · rw [shown?, if_pos (shows_of_le le high), shown?, if_pos high, Option.toList_some, Option.toList_some,
        List.filter_cons_of_pos ((level _).trans high), List.filter_nil]
      exact .cons ⟨m, c.mayShow_paint m, c'.mayShow_paint m⟩ .nil
    · have dropped : (c.shown? m).toList.filter (c'.shows ·) = [] := by
        rw [shown?]
        split
        · exact List.filter_cons_of_neg (by rwa [level])
        · rfl
      rw [dropped, shown?_of_not_shows high]
      exact .nil

end Console

/-- **The console does not matter.** Before any two consoles a run leaves the same files and comes to the same report or
to the same fault: what a run leaves that tells everything. What it shows is what the console shows of all that is told,
and with a higher threshold it is, in the same order, just those of the messages shown with a lower one that reach the
higher, each with the same text up to the codes of colours around it. -/
theorem Generator.generate_ignores_console (g : Generator) (t : FileTree) (p : Program) (c c' : Console) :
    let all := (g.generate t.working p).perform t
    let run := g.generateBefore c t p
    let run' := g.generateBefore c' t p
    (run.tree = run'.tree ∧ run.result = run'.result) ∧
      (run.tree = all.tree ∧ run.result = all.result ∧ run.messages = c.log all.messages) ∧
      (c.threshold ≤ c'.threshold →
        List.Forall₂ (c.SameUpToColors c') (run.messages.filter fun m => c'.threshold ≤ m.level.rank)
          run'.messages) := by
  intro all run run'
  have before : run = { all with messages := c.log all.messages } := g.generateBefore_eq c t p
  have before' : run' = { all with messages := c'.log all.messages } := g.generateBefore_eq c' t p
  rw [before, before']
  exact ⟨⟨rfl, rfl⟩, ⟨rfl, rfl, rfl⟩, fun le => Console.log_filter_of_le le all.messages⟩

end ProgramFacts
