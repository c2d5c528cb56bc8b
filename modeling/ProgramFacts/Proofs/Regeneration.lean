import ProgramFacts.Proofs.WriteConditions

/-!
# Writing again

Where writes have succeeded, directories are on all their ways and files at all their places. So the same writes succeed
once more, make no directory and leave at each place what was written there last, which is there already. A generator
does the same in every run from one working directory: what it writes and tells does not depend on what there is. A run
that comes to its end can therefore be repeated, and changes nothing.
-/

namespace ProgramFacts

namespace FileTree

section Again

variable {t after : FileTree} {ws : List (Path × String)}

/-- Writes that have succeeded succeed once more. -/
theorem Written.admits_again (h : Written t ws after) : after.Admits ws := by
  obtain ⟨admits, ground, -⟩ := h.admits
  have working := ground.working
  constructor
  case taken => exact admits.taken
  case named => exact admits.named
  case clear =>
    intro q onWay
    rw [ways_of_working working] at onWay
    exact passes_of_directory (h.lookup_of_mem_ways onWay)
  case free =>
    intro w held there
    obtain ⟨content, found⟩ := h.lookup_of_mem held
    rw [place_of_working working, found] at there
    cases there
  case allowed =>
    intro w held
    rw [place_of_working working, ground.refused]
    exact admits.allowed w held
  case apart =>
    intro w held
    rw [place_of_working working, ways_of_working working]
    exact admits.apart w held

/-- Writes that are made once more change nothing. -/
theorem Written.again (h : Written t ws after) : ∃ again, Written after ws again ∧ SameBelow [] after again := by
  obtain ⟨-, ground, lookup⟩ := h.admits
  have working := ground.working
  obtain ⟨again, written⟩ := h.admits_again.written
  obtain ⟨-, -, lookupAgain⟩ := written.admits
  refine ⟨again, written, fun q => ?_, fun f => ?_⟩
  · rw [List.nil_append, lookupAgain, overlay, puts_of_working working, ways_of_working working]
    cases last : (t.puts ws).reverse.lookup q with
    | some content =>
      rw [lookup, overlay, last]
    | none =>
      refine if_neg ?_
      rintro ⟨nothing, onWay⟩
      rw [h.lookup_of_mem_ways onWay] at nothing
      cases nothing
  · obtain ⟨place, content⟩ := f
    rw [written.files.2, puts_of_working working, mem_foldl_put, h.files.2, mem_foldl_put]
    tauto

end Again

end FileTree

/-- Actions that could all be done can be done once more, and then tell the same and change nothing. -/
theorem perform_again {t : FileTree} {as : List Action} (h : (perform t as).result = .ok ()) :
    (perform (perform t as).tree as).result = .ok () ∧
      (perform (perform t as).tree as).messages = (perform t as).messages ∧
      FileTree.SameBelow [] (perform t as).tree (perform (perform t as).tree as).tree := by
  have written := written_of_perform h
  obtain ⟨again, writtenAgain, same⟩ := written.again
  rw [perform_of_written writtenAgain, perform_of_written written]
  exact ⟨rfl, rfl, same⟩

namespace Generator

/-- **Generating again changes nothing.** Let a run of a generator come to its end, whatever its settings, the program
and the files that there were. Then the same run after it comes to its end with the same report, tells the same
messages, and leaves every directory and the content of every file as they are. -/
theorem generate_again {g : Generator} {t : FileTree} {p : Program} {first second : Run Report} {r : Report}
    (ran : (g.generate t.working p).perform t = first) (returned : first.result = .ok r)
    (ranAgain : (g.generate first.tree.working p).perform first.tree = second) :
    second.result = .ok r ∧ second.messages = first.messages ∧ FileTree.SameBelow [] first.tree second.tree := by
  subst ran ranAgain
  obtain ⟨result, performed, tree⟩ := Script.perform_result_eq_ok returned
  have working := (written_of_perform performed).files.1
  obtain ⟨performedAgain, messages, same⟩ := perform_again performed
  rw [tree, working]
  simp only [Script.perform, performed, performedAgain]
  exact ⟨result, messages, same⟩

/-- A class and a record in it share a file. The second run finds the file of the class, writes the record there and
then the class once more, and warns as the first has. -/
theorem generate_again_shared :
    ∃ first second r, (sample.generate treeSample.working sharedProgram).perform treeSample = first ∧
      first.result = .ok r ∧ (sample.generate first.tree.working sharedProgram).perform first.tree = second ∧
      second.result = .ok r ∧
      Output.overwrote (FactFile.path (Mode.full.root (.ofText "out")) ⟨"p", "A"⟩) ∈ second.messages ∧
      second.tree.lookup ["w", "out", "full", "p", "A.pl"] =
        some (.file (sharedFact.render (.indented "  ") ++ "\n")) := by
  have ends : ((sample.generate treeSample.working sharedProgram).perform treeSample).result.isOk = true := by
    decide +kernel
  obtain ⟨r, returned⟩ : ∃ r,
      ((sample.generate treeSample.working sharedProgram).perform treeSample).result = .ok r := by
    cases result : ((sample.generate treeSample.working sharedProgram).perform treeSample).result with
    | ok r => exact ⟨r, rfl⟩
    | error f =>
      rw [result] at ends
      cases ends
  obtain ⟨again, messages, same⟩ := generate_again rfl returned rfl
  refine ⟨_, _, r, rfl, returned, rfl, again, ?_, ?_⟩
  · rw [messages]
    decide +kernel
  · have kept := same.lookup ["w", "out", "full", "p", "A.pl"]
    rw [List.nil_append] at kept
    rw [kept]
    decide +kernel

end Generator

end ProgramFacts
