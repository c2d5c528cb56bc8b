import ProgramFacts.Proofs.ModeFiles

/-!
# The files that a run leaves

Settings that were accepted choose modes and a number of blanks. A run with them that comes to its end leaves the facts
of the program that were not excluded, below the directory of each mode, and counts them.
-/

namespace ProgramFacts

/-! ## Settings -/

/-- What two steps give was given by both of them. -/
theorem bind_eq_ok_iff {ε α β : Type} {x : Except ε α} {f : α → Except ε β} {b : β} :
    x >>= f = .ok b ↔ ∃ a, x = .ok a ∧ f a = .ok b := by
  cases x <;> simp [bind, Except.bind]

namespace Config

/-- Settings are only given after they were checked. -/
theorem validate_of_load {defaults overrides : Document} {user : Option SettingsFile} {es : Entries}
    (h : load defaults user overrides = .ok es) : validate es = .ok () := by
  have checked : ∀ file : Entries, (do
      let base ← layer defaults .defaults
      let last ← layer overrides .overrides
      validate (merge base file last)
      pure (merge base file last)) = .ok es → validate es = .ok () := by
    intro file merged
    obtain ⟨base, -, merged⟩ := bind_eq_ok_iff.1 merged
    obtain ⟨last, -, merged⟩ := bind_eq_ok_iff.1 merged
    obtain ⟨_, passed, merged⟩ := bind_eq_ok_iff.1 merged
    cases merged
    exact passed
  cases user with
  | none => exact checked [] h
  | some f =>
    obtain ⟨file, -, rest⟩ := bind_eq_ok_iff.1 h
    exact checked file rest

/-- Settings that pass choose modes and a number of blanks. -/
theorem validate_eq_ok {es : Entries} (h : validate es = .ok ()) :
    (∃ ms, (outputMode es).modes = .ok ms) ∧ ∃ width : Nat, 0 < width ∧ indent es = .scalar (.integer width) := by
  rw [validate] at h
  split at h
  · cases h
  · next ms chosen =>
    split at h
    · next isWide =>
      refine ⟨⟨ms, chosen⟩, ?_⟩
      unfold isWidth at isWide
      split at isWide
      · next n told =>
        have positive := of_decide_eq_true isWide
        refine ⟨n.toNat, by omega, ?_⟩
        rw [told, Int.toNat_of_nonneg (by omega)]
      · cases isWide
    · cases h

/-- How facts are laid out: over several lines if the settings say so, else on one. -/
def style (es : Entries) (width : Nat) : Term.Style :=
  if ((es.get? "pretty_print").getD (.scalar (.bool false))).isGiven then
    .indented (String.ofList (List.replicate width ' '))
  else .oneLine

end Config

namespace Generator

theorem unitOf_eq_ok {host : Host} {width : Int} {unit : String} (h : unitOf host width = .ok unit) :
    unit = String.ofList (List.replicate width.toNat ' ') := by
  rw [unitOf] at h
  split at h
  · cases h
  · split at h
    · cases h
    · cases h
      rfl

/-- A generator keeps its settings, and a level is indented by as many blanks as they say. -/
theorem ofSettings_eq_ok {host : Host} {es : Entries} {g : Generator} (h : ofSettings es host = .ok g) {width : Nat}
    (told : Config.indent es = .scalar (.integer width)) :
    g.settings = es ∧ g.style = Config.style es width := by
  rw [ofSettings, told] at h
  obtain ⟨rules, -, rest⟩ := bind_eq_ok_iff.1 h
  obtain ⟨n, wide, laid⟩ := bind_eq_ok_iff.1 rest
  obtain ⟨unit, blanks, last⟩ := bind_eq_ok_iff.1 laid
  obtain rfl : (width : Int) = n := Except.ok.inj wide
  obtain rfl := Except.ok.inj last
  have blank := unitOf_eq_ok blanks
  rw [Int.toNat_natCast] at blank
  refine ⟨rfl, ?_⟩
  rw [style, Config.style, blank]

/-! ## Runs -/

/-- **What a run leaves.** Let settings be accepted and name a directory with no files below it, and let the names of
what is written have no slashes. Then a run that comes to its end leaves below the directory of each mode that the
settings choose the files of the modules, packages and types that were not excluded, and of the index, each with the
last fact written to its path, laid out as the settings say and with documentation only in the full mode. It makes no
other file, loses none, and reports how many files these are. -/
theorem generate_leaves_facts {defaults overrides : Document} {user : Option SettingsFile} {es : Entries}
    {host : Host} {g : Generator} {dir : String} {t : FileTree} {p : Program} {run : Run Report} {r : Report}
    (loaded : Config.load defaults user overrides = .ok es) (made : ofSettings es host = .ok g)
    (output : (es.get? "output_dir").getD (.text "prolog-facts") = .text dir)
    (plain : ∀ s ∈ (g.kept p).subjects, s.key.file.IsPlain)
    (empty : t.filesBelow (t.place (.ofText dir)) = [])
    (ran : (g.generate t.working p).perform t = run) (returned : run.result = .ok r) :
    ∃ (ms : List Mode) (width : Nat),
      (Config.outputMode es).modes = .ok ms ∧ Config.indent es = .scalar (.integer width) ∧ 0 < width ∧
      (∀ m ∈ ms, HoldsFacts t run.tree (.ofText dir) (Config.style es width) (g.kept p) m) ∧
      (∀ f ∈ t.filesBelow [], f ∈ run.tree.filesBelow []) ∧
      (∀ f ∈ run.tree.filesBelow [], f ∈ t.filesBelow [] ∨ ∃ m ∈ ms, t.place (m.root (.ofText dir)) <+: f.1) ∧
      r.files = (ms.map fun m => (run.tree.filesBelow (t.place (m.root (.ofText dir)))).length).sum := by
  subst ran
  obtain ⟨⟨ms, chosen⟩, width, positive, told⟩ := Config.validate_eq_ok (Config.validate_of_load loaded)
  obtain ⟨settings, style⟩ := ofSettings_eq_ok made told
  obtain ⟨result, performed, tree⟩ := Script.perform_result_eq_ok returned
  obtain ⟨directory, ms', found, modes, ended, counted, wrote⟩ := generate_eq_ok result
  have here : directory = .ofText dir := by
    rw [Generator.directory, settings, output] at found
    cases found
    rfl
  have same : ms' = ms := by
    rw [Generator.modes, settings, chosen] at modes
    cases modes
    rfl
  subst here same
  rw [style] at wrote counted
  have files := filesBelow_perform performed
  rw [← tree, wrote, writtenIn_eq ended] at files
  obtain ⟨kept, new⟩ := others_of_files ended plain empty files
  refine ⟨ms', width, chosen, told, positive, ?_, kept, new, ?_⟩
  · intro m member
    exact holdsFacts_of_files ended plain empty files member
  · rw [counted]
    refine congrArg List.sum (List.map_congr_left fun m member => ?_)
    exact (length_below_root ended plain empty files member).symm

/-- Settings for both modes over several lines, with a pattern that excludes a package. -/
def settingsSample : Entries :=
  [(.text "output_dir", .text "out"), (.text "output_mode", .text "both"), (.text "pretty_print", .scalar (.bool true)),
    (.text "indent", .scalar (.integer 2)), (.text "exclude", .list [.text "q/"])]

/-- A class and a record in it share a file, since both are named alike. -/
def sharedPackage : Package :=
  { name := "p"
    members := [.ofType { kind := "CLASS", name := "A", doc := .scalar (.text "Outer.") }
      [.ofType { kind := "RECORD", name := "A" } []]] }

/-- The fact of the class, which is written after that of the record. -/
def sharedFact : Term :=
  .compound "class" [.atom "A", .atom "p", .list [], .list [], .atom "null", .list [], .list [],
    .list [.compound "type_declaration" [.atom "A", .atom "RECORD"]], .list [], .atom "Outer."]

def sharedProgram : Program := { modules := [{ name := "m" }], packages := [sharedPackage, { name := "q" }] }

def treeSample : FileTree := { working := ["w"], entries := [(["w", "old.txt"], .file "kept")] }

def sample : Generator :=
  { settings := settingsSample, rules := [⟨false, .pieces [.leading, .literal 'q', .literal '/']⟩], unit := "  " }

theorem generate_leaves_facts_shared :
    ∃ run r, (sample.generate treeSample.working sharedProgram).perform treeSample = run ∧ run.result = .ok r ∧
      (["p", "A.pl"], sharedFact.render (.indented "  ") ++ "\n") ∈ run.tree.filesBelow ["w", "out", "full"] ∧
      (["w", "old.txt"], "kept") ∈ run.tree.filesBelow [] := by
  have loaded : Config.load (.mapping defaultSettings) none (.mapping settingsSample) = .ok settingsSample := rfl
  have made : ofSettings settingsSample = .ok sample := by
    have rules : rulesOf .standard (.list [.text "q/"]) = .ok sample.rules := by decide +kernel
    have blanks : unitOf .standard 2 = .ok "  " := by decide +kernel
    exact bind_eq_ok_iff.2 ⟨_, rules, bind_eq_ok_iff.2 ⟨2, rfl, bind_eq_ok_iff.2 ⟨_, blanks, rfl⟩⟩⟩
  have remaining : sample.kept sharedProgram = { sharedProgram with packages := [sharedPackage] } := by
    have first : sample.excludesPath sharedPackage.path = false := by decide +kernel
    have second : sample.excludesPath (Package.path { name := "q" }) = true := by decide +kernel
    rw [kept, sharedProgram, Program.without]
    simp [first, second]
  have plain : ∀ s ∈ (sample.kept sharedProgram).subjects, s.key.file.IsPlain := by
    rw [remaining]
    decide
  have ends : ((sample.generate treeSample.working sharedProgram).perform treeSample).result.isOk = true := by
    decide +kernel
  obtain ⟨r, returned⟩ :
      ∃ r, ((sample.generate treeSample.working sharedProgram).perform treeSample).result = .ok r := by
    cases result : ((sample.generate treeSample.working sharedProgram).perform treeSample).result with
    | ok r => exact ⟨r, rfl⟩
    | error f =>
      rw [result] at ends
      cases ends
  have output : (settingsSample.get? "output_dir").getD (.text "prolog-facts") = .text "out" := rfl
  have empty : treeSample.filesBelow (treeSample.place (.ofText "out")) = [] := rfl
  obtain ⟨ms, width, chosen, told, -, holds, old, -, -⟩ :=
    generate_leaves_facts loaded made output plain empty rfl returned
  obtain rfl : [.full, .minimal] = ms := Except.ok.inj chosen
  have blanks : Config.indent settingsSample = .scalar (.integer 2) := rfl
  rw [blanks, Document.scalar.injEq, Scalar.integer.injEq] at told
  obtain rfl : width = 2 := by omega
  have last := (holds .full (by decide)).last
  rw [remaining] at last
  refine ⟨_, r, rfl, returned, ?_, old _ (by decide)⟩
  exact (last ["p", "A.pl"] _).2 ⟨FactFile.path (Mode.full.root (.ofText "out")) ⟨"p", "A"⟩, sharedFact, rfl, rfl, rfl⟩

end Generator

end ProgramFacts
