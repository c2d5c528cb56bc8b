import ProgramFacts.Generation
import ProgramFacts.Proofs.SinkWalks

/-!
# Courses follow scripts

A course works out a fact, writes it, and goes on only if that was done. A script works out all facts and then writes
them. Both leave the same file tree, tell the same, and come to the same result, wherever a write fails: what is worked
out does not depend on what is written, and a fault of a write comes before any later fault.
-/

namespace ProgramFacts

/-- Actions are done after others only if none of those failed. -/
theorem perform_append (t : FileTree) (as later : List Action) :
    perform t (as ++ later) =
      match perform t as with
      | ⟨made, told, .ok ()⟩ =>
        ⟨(perform made later).tree, told ++ (perform made later).messages, (perform made later).result⟩
      | ⟨made, told, .error f⟩ => ⟨made, told, .error f⟩ := by
  induction as generalizing t with
  | nil => rfl
  | cons a as ih =>
    cases a with
    | tell m =>
      rw [List.cons_append, perform, perform, ih t]
      rcases perform t as with ⟨made, told, f | ⟨⟩⟩ <;> rfl
    | write path content =>
      rw [List.cons_append, perform, perform]
      rcases t.write path content with ⟨made, f | ⟨⟩⟩
      · rfl
      · exact ih made

instance : LawfulMonad Course :=
  LawfulMonad.mk' Course
    (fun x => funext fun w => by
      simp only [Functor.map]
      rcases x w with ⟨w, e | a⟩ <;> rfl)
    (fun _ _ => rfl)
    (fun x _ _ => funext fun w => by
      simp only [bind]
      rcases x w with ⟨w, e | a⟩ <;> rfl)

/-! ## Scripts as courses -/

/-- The world after actions that were done in it. -/
def World.after (w : World) (d : Deed) : World := ⟨d.tree, w.messages ++ d.messages⟩

namespace Script

variable {α β : Type}

/-- Does what a script says. -/
def course (s : Script α) : Course α := fun w =>
  let d := ProgramFacts.perform w.tree s.actions
  (w.after d, match d.result with
    | .ok () => s.result
    | .error f => .error (.output f))

theorem on_course (t : FileTree) (s : Script α) : s.course.on t = s.perform t := by
  simp only [Course.on, course, World.after, perform, List.nil_append]
  cases (ProgramFacts.perform t s.actions).result <;> rfl

theorem course_ofResult (r : Except RunFault α) : (ofResult r).course = Course.ofResult r := by
  funext w
  simp [course, ofResult, Course.ofResult, ProgramFacts.perform, World.after]

theorem course_pure (a : α) : (pure a : Script α).course = pure a := course_ofResult (.ok a)

theorem course_bind (x : Script α) (f : α → Script β) : (x >>= f).course = x.course >>= fun a => (f a).course := by
  funext w
  obtain ⟨actions, result⟩ := x
  cases result with
  | error e =>
    change course ⟨actions, .error e⟩ w = (course ⟨actions, .error e⟩ >>= fun a => (f a).course) w
    simp only [bind, course]
    rcases ProgramFacts.perform w.tree actions with ⟨made, told, f | ⟨⟩⟩ <;> rfl
  | ok a =>
    change course ⟨actions ++ (f a).actions, (f a).result⟩ w = _
    simp only [bind, course, perform_append, World.after]
    rcases ProgramFacts.perform w.tree actions with ⟨made, told, f | ⟨⟩⟩
    · rfl
    · simp only [List.append_assoc]

theorem perform_tells (t : FileTree) (ms : List Message) :
    ProgramFacts.perform t (ms.map .tell) = ⟨t, ms, .ok ()⟩ := by
  induction ms with
  | nil => rfl
  | cons m ms ih => rw [List.map_cons, ProgramFacts.perform, ih]

theorem course_tells (ms : List Message) : (act (ms.map .tell)).course = Course.tell ms := by
  funext w
  simp only [course, act, perform_tells]
  rfl

theorem course_tell (level : Level) (text : String) : (tell level text).course = Course.tell [⟨level, text⟩] :=
  course_tells [_]

end Script

theorem Course.ofResult_error_bind {α β : Type} (e : RunFault) (f : α → Course β) :
    ofResult (.error e) >>= f = ofResult (.error e) := rfl

/-! ## Output -/

namespace Output

theorem plan_append (o : Output) (steps later : List Step) :
    o.plan (steps ++ later) =
      (((o.plan steps).1.plan later).1, (o.plan steps).2 ++ ((o.plan steps).1.plan later).2) := by
  induction steps generalizing o with
  | nil => rfl
  | cons s steps ih =>
    cases s with
    | tell m => simp only [List.cons_append, plan, ih]
    | write f fact => simp only [List.cons_append, plan, ih, List.append_assoc]

/-- Does steps as they are planned, and gives the output they leave. -/
def following (o : Output) (steps : List Step) : Script Output := ⟨(o.plan steps).2, .ok (o.plan steps).1⟩

theorem following_eq (o : Output) (steps : List Step) :
    o.following steps = Script.act (o.plan steps).2 >>= fun _ => pure (o.plan steps).1 := by
  simp [following, Script.act, bind, pure]

theorem put_eq_course (o : Output) (f : FactFile) (fact : Term) :
    o.put f fact = (o.following [.write f fact]).course := by
  funext w
  simp only [put, write, Script.course, following, plan, List.append_nil, World.after]
  rcases perform w.tree (o.writing f fact) with ⟨made, told, f | ⟨⟩⟩ <;> rfl

theorem following_append (o : Output) (steps later : List Step) :
    o.following (steps ++ later) = o.following steps >>= fun o => o.following later := by
  simp only [following, plan_append, bind]

theorem following_cons (o : Output) (s : Step) (steps : List Step) :
    o.following (s :: steps) = o.following [s] >>= fun o => o.following steps :=
  o.following_append [s] steps

theorem putIndex_eq_course (o : Output) (i : Index) : o.putIndex i = (o.following i.steps).course := by
  rw [putIndex, Index.steps, List.map_append, following_append, Script.course_bind]
  cases i.modules.isEmpty with
  | true =>
    have nothing : (o.following []).course = pure o := Script.course_pure o
    simp only [if_true, List.map_nil, List.map_cons, nothing, put_eq_course]
  | false => simp only [Bool.false_eq_true, if_false, List.map_nil, List.map_cons, put_eq_course]

/-- Hands events to the sink, and gives the output that this leaves. -/
def accepting (o : Output) (events : List Event) : Course Output := fun w =>
  match sink.accept events (o, w) with
  | ((after, w), .ok ()) => (w, .ok after)
  | ((_, w), .error f) => (w, .error (.output f))

/-- A fact is written before the later events are looked at. -/
theorem accepting_write (o : Output) (key : Key) (fact : Term) (events : List Event) :
    o.accepting (.write key fact :: events) = o.put key.file fact >>= fun o => o.accepting events := by
  funext w
  simp only [accepting, Sink.accept, sink, put, bind]
  rcases o.write w.tree key.file fact with ⟨after, made, told, f | ⟨⟩⟩ <;> rfl

/-- The sink takes events as they are planned. -/
theorem accepting_eq_course (o : Output) (events : List Event) :
    o.accepting events = (o.following (events.map Event.step)).course := by
  induction events generalizing o with
  | nil => exact (Script.course_pure o).symm
  | cons e events ih =>
    rw [List.map_cons, following_cons, Script.course_bind]
    simp only [← ih]
    cases e with
    | warning w => rfl
    | write key fact => rw [accepting_write, put_eq_course, Event.step]

/-- A walk that writes facts as they are finished follows the plan of all of them. -/
theorem walk_eq_course (o : Output) (docs : Bool) (p : Program) :
    o.walk docs p =
      (do
        let after ← o.following ((p.walk docs).events.map Event.step)
        let i ← Script.ofResult ((p.walk docs).result.mapError .encode)
        pure (i, (p.walk docs).tally, after)).course := by
  simp only [Script.course_bind, Script.course_ofResult, Script.course_pure, ← accepting_eq_course]
  funext w
  simp only [walk, Sink.walk_eq_feed, Sink.feed, accepting, bind, Course.ofResult]
  rcases sink.accept (p.walk docs).events (o, w) with ⟨⟨after, made⟩, f | ⟨⟩⟩
  · rfl
  · cases (p.walk docs).result <;> rfl

end Output

/-! ## Runs -/

section

variable (working : List String) (style : Term.Style) (directory : Path) (p : Program)

theorem streamMode_eq_course (m : Mode) :
    streamMode working style directory p m = (generateMode working style directory p m).course := by
  rw [streamMode, generateMode, generateModeWith]
  split
  · exact (Script.course_ofResult _).symm
  · simp only [Output.walk_eq_course, Output.putIndex_eq_course, Output.following_eq, Script.course_bind,
      Script.course_ofResult, Script.course_pure, Script.course_tells, Script.course_tell, bind_assoc, pure_bind]
    -- A walk with a fault has no index to write, and both sides end with that fault, if no write has failed before.
    cases result : (p.walk m.hasDocs).result with
    | error f =>
      have steps : (p.walk m.hasDocs).steps = (p.walk m.hasDocs).events.map Event.step := by
        rw [Walk.steps, result]
        exact List.append_nil _
      have own : (Except.error f : Except EncodeFault Index).mapError RunFault.encode = .error (.encode f) := rfl
      simp only [own, Course.ofResult_error_bind, steps]
    | ok i =>
      have steps : (p.walk m.hasDocs).steps = (p.walk m.hasDocs).events.map Event.step ++ i.steps := by
        rw [Walk.steps, result]
      have both (as later : List Action) : (Script.act (as ++ later)).course =
          (Script.act as).course >>= fun _ => (Script.act later).course :=
        Script.course_bind (.act as) fun _ => .act later
      have given : Course.ofResult ((Except.ok i : Except EncodeFault Index).mapError RunFault.encode) = pure i := rfl
      simp only [given, steps, Output.plan_append, both, bind_assoc, pure_bind]

theorem streamModes_eq_course (ms : List Mode) :
    streamModes working style directory p ms = (generateModes working style directory p ms).course := by
  induction ms with
  | nil => exact (Script.course_pure []).symm
  | cons m ms ih =>
    rw [streamModes, generateModes, generateModesWith, streamMode_eq_course, ih]
    simp only [Script.course_bind, Script.course_pure]

end

namespace Generator

theorem stream_eq_course (g : Generator) (working : List String) (p : Program) :
    g.stream working p = (g.generate working p).course := by
  rw [stream, generate, generateWith]
  have excluded : (p.packages.filter fun q => g.excludesPath q.path).map (fun q => Action.tell (excludeMessage q)) =
      ((g.excludedPackages p).map excludeMessage).map .tell := by
    rw [List.map_map]
    rfl
  simp only [Script.course_bind, Script.course_ofResult, Script.course_pure, Script.course_tell, excluded,
    Script.course_tells, streamModes_eq_course]
  rfl

/-- **Facts written as they are finished.** A run that writes each fact before it works out the next leaves the file
tree, tells what is told, and comes to the report or the fault of the script of all facts, wherever a write fails. -/
theorem on_stream (g : Generator) (t : FileTree) (p : Program) :
    (g.stream t.working p).on t = (g.generate t.working p).perform t := by
  rw [stream_eq_course, Script.on_course]

theorem runOn_eq_perform (g : Generator) (t : FileTree) (path : String) :
    g.runOn t path = (g.run t.working path (t.readBytes (.ofText path))).perform t := by
  rw [← Script.on_course, runOn, run]
  simp only [Script.course_bind, Script.course_ofResult, Script.course_tell, stream_eq_course]

end Generator

end ProgramFacts
