import ProgramFacts.CommandLine
import ProgramFacts.Proofs.ModeComposition

/-!
# Settings that break the program

Settings are checked before anything is made of them, but not for all that is asked of them later. A choice of modes
that is a collection breaks the check itself. Settings that pass may still hold a pattern that is no text, more blanks
than there is room for, or a directory that is no text.
-/

namespace ProgramFacts

/-- Whether there is no result, for a reason of some kind. -/
def FailsWith {ε α : Type} (P : ε → Prop) (x : Except ε α) : Prop := ∃ e, x = .error e ∧ P e

section

variable {ε ε' α β : Type} {x : Except ε α}

theorem not_failsWith_ok (P : ε → Prop) (a : α) : ¬FailsWith P (.ok a : Except ε α) := by
  rintro ⟨e, impossible, -⟩
  cases impossible

theorem failsWith_error {P : ε → Prop} {e : ε} : FailsWith P (.error e : Except ε α) ↔ P e := by
  simp [FailsWith]

/-- Two steps fail where the first does, or where the second does after the first. -/
theorem failsWith_bind {P : ε → Prop} {f : α → Except ε β} :
    FailsWith P (x >>= f) ↔ FailsWith P x ∨ ∃ a, x = .ok a ∧ FailsWith P (f a) := by
  cases x <;> simp [FailsWith, bind, Except.bind]

theorem mapError_bind {g : ε → ε'} {f : α → Except ε β} :
    (x >>= f).mapError g = x.mapError g >>= fun a => (f a).mapError g := by
  cases x <;> rfl

theorem failsWith_mapError {P : ε' → Prop} {g : ε → ε'} :
    FailsWith P (x.mapError g) ↔ FailsWith (fun e => P (g e)) x := by
  cases x <;> simp [FailsWith, Except.mapError]

end

open CommandLine (tellingConfig tellingSetup tellingRun)

/-! ## Patterns

What a text means as a pattern is up to the host. -/

namespace Document

/-- Whether a pattern has a rule, if it counts at all. -/
def IsPattern (host : Host) (d : Document) : Prop :=
  d.isGiven = true → ∃ s r, d = .text s ∧ host.readRule s.toList = .ok r

/-- Whether a pattern is no text, or one with a range that ends before it starts. -/
def BreaksRule (host : Host) (d : Document) : Prop :=
  d.isGiven = true ∧ ∀ s, d = .text s → ∃ r, host.readRule s.toList = .error (.reversed r)

/-- Patterns of which the first without a rule breaks the program. A text that means nothing is told instead, and then
those after it do not matter. -/
inductive BreakRules (host : Host) : List Document → Prop
  | here {d : Document} {ds : List Document} (breaks : d.BreaksRule host) : BreakRules host (d :: ds)
  | later {d : Document} {ds : List Document} (proper : d.IsPattern host) (others : BreakRules host ds) :
    BreakRules host (d :: ds)

end Document

namespace Generator

open Document (BreakRules)

variable {host : Host}

theorem ruleOf_eq_ok {d : Document} :
    (∃ r, ruleOf host d = .ok r) ↔ ∃ s r, d = .text s ∧ host.readRule s.toList = .ok r := by
  constructor
  · rintro ⟨r, ruled⟩
    unfold ruleOf at ruled
    split at ruled
    · next s => exact ⟨s, r, rfl, mapError_eq_ok.1 ruled⟩
    · cases ruled
  · rintro ⟨s, r, rfl, parsed⟩
    exact ⟨r, mapError_eq_ok.2 parsed⟩

theorem failsWith_ruleOf {d : Document} (given : d.isGiven = true) :
    FailsWith (tellingSetup · = .unforeseen) (ruleOf host d) ↔ d.BreaksRule host := by
  unfold ruleOf
  split
  · next s =>
    rw [failsWith_mapError]
    constructor
    · rintro ⟨e, failed, unforeseen⟩
      refine ⟨given, ?_⟩
      rintro _ ⟨⟩
      cases e with
      | meaningless text => cases unforeseen
      | reversed r => exact ⟨r, failed⟩
    · rintro ⟨-, breaks⟩
      obtain ⟨r, failed⟩ := breaks s rfl
      exact ⟨.reversed r, failed, rfl⟩
  · next noText =>
    rw [failsWith_error]
    exact ⟨fun _ => ⟨given, fun s same => absurd same (noText s)⟩, fun _ => rfl⟩

theorem rulesOfList_eq_ok {ds : List Document} :
    (∃ rs, rulesOfList host ds = .ok rs) ↔ ∀ d ∈ ds, d.IsPattern host := by
  induction ds with
  | nil => exact ⟨fun _ => by simp, fun _ => ⟨[], rfl⟩⟩
  | cons d ds ih =>
    rw [List.forall_mem_cons, ← ih, rulesOfList]
    split
    · next given =>
      constructor
      · rintro ⟨rs, ruled⟩
        obtain ⟨r, one, ruled⟩ := bind_eq_ok_iff.1 ruled
        obtain ⟨others, rest, -⟩ := bind_eq_ok_iff.1 ruled
        exact ⟨fun _ => ruleOf_eq_ok.1 ⟨r, one⟩, others, rest⟩
      · rintro ⟨proper, others, rest⟩
        obtain ⟨r, one⟩ := ruleOf_eq_ok.2 (proper given)
        exact ⟨_, bind_eq_ok_iff.2 ⟨r, one, bind_eq_ok_iff.2 ⟨others, rest, rfl⟩⟩⟩
    · next absent => exact ⟨fun ruled => ⟨fun given => absurd given absent, ruled⟩, And.right⟩

theorem failsWith_rulesOfList {ds : List Document} :
    FailsWith (tellingSetup · = .unforeseen) (rulesOfList host ds) ↔ BreakRules host ds := by
  induction ds with
  | nil => exact ⟨fun failed => absurd failed (not_failsWith_ok _ _), fun breaks => nomatch breaks⟩
  | cons d ds ih =>
    rw [rulesOfList]
    split
    · next given =>
      have last : ∀ (r : Option Exclusion.Rule) (rs : List Exclusion.Rule),
          ¬FailsWith (tellingSetup · = .unforeseen) (pure (r.toList ++ rs)) := fun r rs => not_failsWith_ok _ _
      simp only [failsWith_bind, failsWith_ruleOf given, ih, last, and_false, exists_false, or_false]
      constructor
      · rintro (breaks | ⟨r, one, others⟩)
        · exact .here breaks
        · exact .later (fun _ => ruleOf_eq_ok.1 ⟨r, one⟩) others
      · rintro (breaks | ⟨proper, others⟩)
        · exact .inl breaks
        · obtain ⟨r, one⟩ := ruleOf_eq_ok.2 (proper given)
          exact .inr ⟨r, one, others⟩
    · next absent =>
      -- What does not count is passed over, so it neither has to have a rule nor can break anything.
      rw [ih]
      constructor
      · exact .later fun given => absurd given absent
      · rintro (breaks | ⟨-, others⟩)
        · exact absurd breaks.1 absent
        · exact others

/-- There is no indentation of too many blanks. -/
theorem failsWith_unitOf {width : Int} (positive : 0 < width) :
    FailsWith (tellingSetup · = .unforeseen) (unitOf host width) ↔ host.room ≤ width := by
  have limit := host.room_le
  unfold unitOf
  split
  · next huge =>
    rw [failsWith_error]
    exact ⟨fun _ => by omega, fun _ => rfl⟩
  · split
    · next wide =>
      rw [failsWith_error]
      exact ⟨fun _ => wide, fun _ => rfl⟩
    · next room => exact ⟨fun failed => absurd failed (not_failsWith_ok _ _), fun wide => absurd wide room⟩

/-- The patterns of settings are those of their list, which is empty if there is none. -/
theorem rulesOf_exclude {es : Entries} {ds : List Document} (patterns : Config.exclude es = .list ds) :
    rulesOf host ((es.get? "exclude").getD .null) = rulesOfList host ds := by
  rw [Config.exclude] at patterns
  cases found : es.get? "exclude" with
  | none =>
    rw [found] at patterns
    cases patterns
    rfl
  | some d =>
    rw [found] at patterns
    obtain rfl : d = .list ds := patterns
    cases ds <;> rfl

/-- Which settings that pass break the generator that is made of them. -/
theorem failsWith_ofSettings {es : Entries} {ds : List Document} {width : Int}
    (patterns : Config.exclude es = .list ds) (told : Config.indent es = .scalar (.integer width))
    (positive : 0 < width) :
    FailsWith (tellingSetup · = .unforeseen) (ofSettings es host) ↔
      BreakRules host ds ∨ (∀ d ∈ ds, d.IsPattern host) ∧ host.room ≤ width := by
  have wide : widthOf (.scalar (.integer width)) = .ok width := rfl
  have last : ∀ g : Generator, ¬FailsWith (tellingSetup · = .unforeseen) (pure g) := fun g => not_failsWith_ok _ _
  simp only [ofSettings, rulesOf_exclude patterns, told, wide, failsWith_bind, failsWith_rulesOfList,
    failsWith_unitOf positive, not_failsWith_ok, last, and_false, exists_false, or_false, false_or,
    Except.ok.injEq, exists_eq_left', exists_and_right, rulesOfList_eq_ok]

/-- Which settings that pass have a generator. -/
theorem exists_ofSettings_eq_ok {es : Entries} {ds : List Document} {width : Int}
    (patterns : Config.exclude es = .list ds) (told : Config.indent es = .scalar (.integer width))
    (positive : 0 < width) :
    (∃ g, ofSettings es host = .ok g) ↔ (∀ d ∈ ds, d.IsPattern host) ∧ width < host.room := by
  constructor
  · rintro ⟨g, made⟩
    have whole := made
    rw [ofSettings, rulesOf_exclude patterns] at made
    obtain ⟨rs, ruled, -⟩ := bind_eq_ok_iff.1 made
    have proper := rulesOfList_eq_ok.1 ⟨rs, ruled⟩
    refine ⟨proper, Int.not_le.1 fun wide => ?_⟩
    have fails := (failsWith_ofSettings patterns told positive).2 (.inr ⟨proper, wide⟩)
    rw [whole] at fails
    exact not_failsWith_ok _ _ fails
  · rintro ⟨proper, room⟩
    obtain ⟨rs, ruled⟩ := rulesOfList_eq_ok.2 proper
    have limit := host.room_le
    have unit : unitOf host width = .ok (String.ofList (List.replicate width.toNat ' ')) := by
      rw [unitOf, if_neg (by omega), if_neg (by omega)]
    rw [ofSettings, rulesOf_exclude patterns, told]
    exact ⟨_, bind_eq_ok_iff.2 ⟨rs, ruled, bind_eq_ok_iff.2 ⟨width, rfl, bind_eq_ok_iff.2 ⟨_, unit, rfl⟩⟩⟩⟩

end Generator

/-! ## Settings -/

namespace Config

theorem exclude_of_validate {es : Entries} (valid : validate es = .ok ()) : ∃ ds, exclude es = .list ds := by
  unfold validate at valid
  split at valid
  · cases valid
  · split at valid
    · split at valid
      · next several =>
        unfold isList at several
        split at several
        · next ds patterns => exact ⟨ds, patterns⟩
        · cases several
      · cases valid
    · cases valid

/-- No name is looked up for a collection. -/
theorem failsWith_modes {d : Document} :
    FailsWith (fun f => tellingConfig (.mode f) = .unforeseen) d.modes ↔ ∀ s, d ≠ .scalar s := by
  have unknown : ∀ shown : String, tellingConfig (.mode (.unknown shown)) ≠ .unforeseen := fun _ => nofun
  cases d with
  | scalar s =>
    refine ⟨?_, fun collection => absurd rfl (collection s)⟩
    rintro ⟨f, failed, unforeseen⟩
    unfold Document.modes at failed
    split at failed
    · split at failed
      · cases failed
      · cases failed
        exact absurd unforeseen (unknown _)
    · cases failed
      exact absurd unforeseen (unknown _)
    · next notText noScalar => exact absurd rfl (noScalar s)
  | list | tuple | set | mapping | knot | endless => exact ⟨fun _ _ => nofun, fun _ => ⟨_, rfl, rfl⟩⟩

/-- The only fault of a check that is not foreseen. -/
theorem failsWith_validate {es : Entries} :
    FailsWith (tellingConfig · = .unforeseen) (validate es) ↔ ∀ s, outputMode es ≠ .scalar s := by
  rw [← failsWith_modes]
  unfold validate
  cases (outputMode es).modes with
  | error f => rw [failsWith_error, failsWith_error]
  | ok ms =>
    refine ⟨?_, fun failed => absurd failed (not_failsWith_ok _ _)⟩
    rintro ⟨f, failed, unforeseen⟩
    dsimp only at failed
    split at failed
    · split at failed
      · cases failed
      · cases failed
        cases unforeseen
    · cases failed
      cases unforeseen

/-- Settings that break the program. -/
inductive Breaks (host : Host) (es : Entries) : Prop
  /-- The choice of modes is a collection. -/
  | modes (collection : ∀ s, outputMode es ≠ .scalar s)
  /-- The first pattern that has no rule is no text, or has a range that ends before it starts. -/
  | patterns {ds : List Document} (valid : validate es = .ok ()) (several : exclude es = .list ds)
      (breaks : Document.BreakRules host ds)
  /-- There is no room for the blanks of a level. -/
  | indent {ds : List Document} {width : Int} (valid : validate es = .ok ()) (several : exclude es = .list ds)
      (proper : ∀ d ∈ ds, d.IsPattern host) (told : indent es = .scalar (.integer width)) (wide : host.room ≤ width)
  /-- The directory is no text. -/
  | directory {ds : List Document} (valid : validate es = .ok ()) (several : exclude es = .list ds)
      (proper : ∀ d ∈ ds, d.IsPattern host)
      (noText : ∀ s, (es.get? "output_dir").getD (.text "prolog-facts") ≠ .text s)

/-- Settings break the program when they are checked, when a generator is made of them, or when it looks for its
directory. -/
theorem breaks_iff {host : Host} {es : Entries} :
    Breaks host es ↔
      FailsWith (tellingConfig · = .unforeseen) (validate es) ∨
        validate es = .ok () ∧
          (FailsWith (tellingSetup · = .unforeseen) (Generator.ofSettings es host) ∨
            (∃ g, Generator.ofSettings es host = .ok g) ∧
              ∀ s, (es.get? "output_dir").getD (.text "prolog-facts") ≠ .text s) := by
  rw [failsWith_validate]
  constructor
  · rintro (collection | ⟨valid, several, breaks⟩ | ⟨valid, several, proper, told, wide⟩ |
      ⟨valid, several, proper, noText⟩)
    · exact .inl collection
    · obtain ⟨-, width, positive, told⟩ := validate_eq_ok valid
      exact .inr ⟨valid, .inl ((Generator.failsWith_ofSettings several told (by omega)).2 (.inl breaks))⟩
    · obtain ⟨-, n, positive, same⟩ := validate_eq_ok valid
      cases told.symm.trans same
      exact .inr ⟨valid, .inl ((Generator.failsWith_ofSettings several told (by omega)).2 (.inr ⟨proper, wide⟩))⟩
    · obtain ⟨-, width, positive, told⟩ := validate_eq_ok valid
      refine .inr ⟨valid, ?_⟩
      rcases Int.lt_or_le width host.room with room | wide
      · exact .inr ⟨(Generator.exists_ofSettings_eq_ok several told (by omega)).2 ⟨proper, room⟩, noText⟩
      · exact .inl ((Generator.failsWith_ofSettings several told (by omega)).2 (.inr ⟨proper, wide⟩))
  · rintro (collection | ⟨valid, fault⟩)
    · exact .modes collection
    obtain ⟨ds, several⟩ := exclude_of_validate valid
    obtain ⟨-, width, positive, told⟩ := validate_eq_ok valid
    rcases fault with fails | ⟨made, noText⟩
    · rcases (Generator.failsWith_ofSettings several told (by omega)).1 fails with breaks | ⟨proper, wide⟩
      · exact .patterns valid several breaks
      · exact .indent valid several proper told wide
    · exact .directory valid several ((Generator.exists_ofSettings_eq_ok several told (by omega)).1 made).1 noText

end Config

end ProgramFacts
