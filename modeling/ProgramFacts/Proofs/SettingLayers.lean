import ProgramFacts.Proofs.AbortedRuns
import ProgramFacts.Proofs.BreakingSettings
import ProgramFacts.Proofs.Objects

/-!
# Layers of settings

The defaults, the file of the user and the command line are laid one over the other. A name has what the command line
says, unless that is null, else what the file says, be it null, else its default. What the layers come to is given if
and only if it chooses modes that there are, a positive number of blanks and a list of patterns, and then a generator
lacks none of them.
-/

namespace ProgramFacts

/-! ## What the layers come to -/

/-- A file of settings holds an object, or it is not read. -/
theorem SettingsFile.isObject_of_read {file : SettingsFile} {es : Entries} (read : file.read = .ok es) :
    es.IsObject := by
  unfold SettingsFile.read at read
  split at read
  · cases read
  · cases read
  · split at read
    · cases read
    · split at read
      · cases read
      · next parsed =>
        cases read
        exact Document.mapsNames_mapping.1 (Json.mapsNames_parse parsed)
      · cases read

namespace Config

/-- The settings in the file of the user, if there is one. -/
def userSettings : Option SettingsFile → Except ConfigFault Entries
  | none => .ok []
  | some file => file.read

theorem isObject_userSettings {user : Option SettingsFile} {es : Entries} (read : userSettings user = .ok es) :
    es.IsObject := by
  cases user with
  | none =>
    cases read
    exact Entries.isObject_nil
  | some file => exact SettingsFile.isObject_of_read read

/-- Whether settings are those of three layers: the names that a layer says anything about, in the order in which they
first appear, each with what the last of these layers says. What the command line leaves null it does not say. -/
structure Layered (defaults user overrides es : Entries) : Prop where
  keys : es.keys = (defaults.keys ++ user.keys ++ overrides.made.keys).eraseDups
  values : ∀ name, es.get? name =
    ((overrides.get? name).filter fun d => !d.isNull).or ((user.get? name).or (defaults.get? name))

section

variable {defaults user overrides es : Entries}

/-- The merged layers, as one object over another. -/
theorem merge_eq (defaults user overrides : Entries) :
    merge defaults user overrides = defaults.update (user ++ overrides.made) :=
  Entries.update_update defaults user overrides.made

theorem texts_append (userObject : user.IsObject) (object : overrides.IsObject) :
    ∀ k ∈ Entries.keys (user ++ overrides.made), ∃ name, k = .text name := by
  intro k member
  rw [Entries.keys_append] at member
  rcases List.mem_append.1 member with first | second
  · exact userObject.texts k first
  · exact object.made.texts k second

theorem layered_merge (base : defaults.IsObject) (userObject : user.IsObject) (object : overrides.IsObject) :
    Layered defaults user overrides (merge defaults user overrides) where
  keys := by
    rw [merge_eq, Entries.keys_update base (texts_append userObject object), Entries.keys_append, List.append_assoc]
  values name := by
    have merged : merge defaults user overrides = (defaults.update user).update overrides.made := rfl
    rw [merged, Entries.get?_update _ object.made, Entries.get?_update _ userObject, Entries.get?_made object]

theorem Layered.eq_merge (base : defaults.IsObject) (userObject : user.IsObject) (object : overrides.IsObject)
    (layered : Layered defaults user overrides es) : es = merge defaults user overrides := by
  have merged := layered_merge base userObject object
  have object : (merge defaults user overrides).IsObject :=
    merge_eq defaults user overrides ▸ base.update (texts_append userObject object)
  exact (object.ext (merged.keys.trans layered.keys.symm) fun name =>
    (merged.values name).trans (layered.values name).symm).symm

end

end Config

/-! ## What is accepted -/

theorem Mode.exists_ofChoice? {choice : String} :
    (∃ ms, Mode.ofChoice? choice = some ms) ↔ choice ∈ ["minimal", "full", "both"] := by
  unfold Mode.ofChoice?
  constructor
  · rintro ⟨ms, chosen⟩
    split at chosen
    · next same => simp [same]
    · split at chosen
      · next same => simp [same]
      · split at chosen
        · next same => simp [same]
        · cases chosen
  · intro member
    simp only [List.mem_cons, List.not_mem_nil, or_false] at member
    rcases member with rfl | rfl | rfl
    · exact ⟨_, rfl⟩
    · exact ⟨_, rfl⟩
    · exact ⟨_, rfl⟩

theorem Mode.ne_nil_of_ofChoice? {choice : String} {ms : List Mode} (chosen : Mode.ofChoice? choice = some ms) :
    ms ≠ [] := by
  rintro rfl
  unfold Mode.ofChoice? at chosen
  split at chosen
  · cases chosen
  · split at chosen
    · cases chosen
    · split at chosen
      · cases chosen
      · cases chosen

/-- A document chooses modes if it is the name of a choice. -/
theorem Document.modes_eq_ok {d : Document} {ms : List Mode} :
    d.modes = .ok ms ↔ ∃ choice, d = .text choice ∧ Mode.ofChoice? choice = some ms := by
  constructor
  · intro chosen
    unfold Document.modes at chosen
    split at chosen
    · next choice =>
      split at chosen
      · next known =>
        cases chosen
        exact ⟨choice, rfl, known⟩
      · cases chosen
    · cases chosen
    · cases chosen
  · rintro ⟨choice, rfl, known⟩
    rw [Document.text, Document.modes, known]

namespace Config

/-- Whether settings can be used: they choose modes that there are, a positive number of blanks and a list of patterns,
or leave any of them out. -/
structure IsUsable (es : Entries) : Prop where
  modes : ∃ choice ∈ ["minimal", "full", "both"], (es.get? "output_mode").getD (.text "both") = .text choice
  blanks : ∃ width : Int, 1 ≤ width ∧ (es.get? "indent").getD (.scalar (.integer 4)) = .scalar (.integer width)
  patterns : ∃ ds, (es.get? "exclude").getD (.list []) = .list ds

theorem validate_eq_ok_iff {es : Entries} : validate es = .ok () ↔ IsUsable es := by
  constructor
  · intro valid
    obtain ⟨⟨ms, chosen⟩, width, positive, told⟩ := validate_eq_ok valid
    obtain ⟨choice, named, known⟩ := Document.modes_eq_ok.1 chosen
    exact ⟨⟨choice, Mode.exists_ofChoice?.1 ⟨ms, known⟩, named⟩, ⟨width, by omega, told⟩, exclude_of_validate valid⟩
  · rintro ⟨⟨choice, member, named⟩, ⟨width, positive, told⟩, ⟨ds, several⟩⟩
    obtain ⟨ms, known⟩ := Mode.exists_ofChoice?.2 member
    have chosen : (outputMode es).modes = .ok ms := Document.modes_eq_ok.2 ⟨choice, named, known⟩
    have wide : isWidth (indent es) = true := by
      rw [indent, told]
      exact decide_eq_true (by omega)
    have list : isList (exclude es) = true := by
      rw [exclude, several]
      rfl
    rw [validate, chosen, wide, list]
    rfl

/-- The layers are checked when all of them are there. -/
theorem load_eq (defaults overrides : Entries) (user : Option SettingsFile) :
    load (.mapping defaults) user (.mapping overrides) = (do
      let written ← userSettings user
      validate (merge defaults written overrides)
      pure (merge defaults written overrides)) := by
  cases user <;> rfl

theorem load_eq_ok {defaults overrides es : Entries} {user : Option SettingsFile} :
    load (.mapping defaults) user (.mapping overrides) = .ok es ↔
      ∃ written, userSettings user = .ok written ∧ es = merge defaults written overrides ∧ IsUsable es := by
  rw [load_eq, bind_eq_ok_iff]
  refine exists_congr fun written => and_congr_right fun _ => ?_
  rw [bind_eq_ok_iff]
  constructor
  · rintro ⟨⟨⟩, valid, given⟩
    cases given
    exact ⟨rfl, validate_eq_ok_iff.1 valid⟩
  · rintro ⟨rfl, usable⟩
    exact ⟨(), validate_eq_ok_iff.2 usable, rfl⟩

end Config

/-! ## What a generator makes of it -/

theorem bind_eq_error_iff {ε α β : Type} {x : Except ε α} {f : α → Except ε β} {e : ε} :
    x >>= f = .error e ↔ x = .error e ∨ ∃ a, x = .ok a ∧ f a = .error e := by
  cases x <;> simp [bind, Except.bind]

/-- Whether a fault is one of a single pattern. -/
def SetupFault.isOfPattern : SetupFault → Bool
  | .patternKind _ => true
  | .pattern _ => true
  | _ => false

/-- Whether a fault is that there is no room for so many blanks. -/
def SetupFault.isOfRoom : SetupFault → Bool
  | .indentWide => true
  | .indentHuge => true
  | _ => false

namespace Generator

variable {host : Host}

theorem isOfPattern_of_ruleOf {d : Document} {f : SetupFault} (failed : ruleOf host d = .error f) :
    f.isOfPattern = true := by
  unfold ruleOf at failed
  split at failed
  · next s =>
    cases parsed : host.readRule s.toList with
    | ok r =>
      rw [parsed] at failed
      cases failed
    | error p =>
      rw [parsed] at failed
      cases failed
      rfl
  · cases failed
    rfl

theorem isOfPattern_of_rulesOfList {ds : List Document} {f : SetupFault} (failed : rulesOfList host ds = .error f) :
    f.isOfPattern = true := by
  induction ds with
  | nil => cases failed
  | cons d ds ih =>
    rw [rulesOfList] at failed
    split at failed
    · rcases bind_eq_error_iff.1 failed with one | ⟨r, -, failed⟩
      · exact isOfPattern_of_ruleOf one
      · rcases bind_eq_error_iff.1 failed with rest | ⟨rs, -, impossible⟩
        · exact ih rest
        · cases impossible
    · exact ih failed

theorem isOfRoom_of_unitOf {width : Int} {f : SetupFault} (positive : 1 ≤ width)
    (failed : unitOf host width = .error f) :
    f.isOfRoom = true ∧ host.room ≤ width := by
  have limits := And.intro host.room_pos host.room_le
  unfold unitOf at failed
  split at failed
  · next huge =>
    cases failed
    exact ⟨rfl, by omega⟩
  · split at failed
    · next wide =>
      cases failed
      exact ⟨rfl, wide⟩
    · cases failed

/-- No run of a generator with modes fails for want of them. -/
theorem generate_ne_mode {g : Generator} {ms : List Mode} (chosen : g.modes = .ok ms) (working : List String)
    (p : Program) (f : ModeFault) : (g.generate working p).result ≠ .error (.mode f) := by
  intro failed
  cases found : g.directory with
  | error e =>
    rw [generate, generateWith, Script.bind_of_ok rfl, Script.bind_of_error found] at failed
    obtain rfl : e = .mode f := Except.error.inj failed
    unfold directory at found
    split at found
    · cases found
    · cases found
  | ok directory =>
    obtain ⟨_, _, -, -, -, fault⟩ := generate_calls found chosen working p
    obtain ⟨m, -, refused⟩ := fault _ failed
    cases refused

theorem runOn_ne_mode {g : Generator} {ms : List Mode} (chosen : g.modes = .ok ms) (t : FileTree) (path : String)
    (f : ModeFault) : (g.runOn t path).result ≠ .error (.mode f) := by
  intro failed
  rw [runOn_eq_perform, Script.perform] at failed
  split at failed
  · rw [run, Script.bind_of_ok rfl] at failed
    cases loaded : loadProgram (.ofText path) (t.readBytes (.ofText path)) with
    | error e =>
      rw [loaded, Script.bind_of_error rfl] at failed
      cases failed
    | ok p =>
      rw [loaded, Script.bind_of_ok rfl] at failed
      exact generate_ne_mode chosen t.working p f failed
  · cases failed

end Generator

namespace Config

/-- What settings are good for: a generator is only refused for a pattern, or for want of room, and one that is made has
the blanks and the modes that the settings say, at least one of each, so that no run of it fails for want of modes. -/
structure Serves (host : Host) (es : Entries) : Prop where
  refused : ∀ f, Generator.ofSettings es host = .error f → f.isOfPattern = true ∨
    f.isOfRoom = true ∧ ∃ width, (es.get? "indent").getD (.scalar (.integer 4)) = .scalar (.integer width) ∧
      host.room ≤ width ∧ (4 < host.room → es.get? "indent" = some (.scalar (.integer width)))
  blanks : ∀ g, Generator.ofSettings es host = .ok g → ∃ width : Nat, 1 ≤ width ∧
    (es.get? "indent").getD (.scalar (.integer 4)) = .scalar (.integer width) ∧
    g.unit = String.ofList (List.replicate width ' ')
  modes : ∀ g, Generator.ofSettings es host = .ok g → ∃ choice ms,
    (es.get? "output_mode").getD (.text "both") = .text choice ∧ Mode.ofChoice? choice = some ms ∧ ms ≠ [] ∧
    g.modes = .ok ms
  runs : ∀ g, Generator.ofSettings es host = .ok g → ∀ t path f, (g.runOn t path).result ≠ .error (.mode f)

section

variable {host : Host} {es : Entries}

/-- The patterns come first, then the blanks, of which there is a number already. -/
theorem ofSettings_eq {ds : List Document} {width : Int} (several : exclude es = .list ds)
    (told : indent es = .scalar (.integer width)) :
    Generator.ofSettings es host = (do
      let rules ← Generator.rulesOfList host ds
      let unit ← Generator.unitOf host width
      pure { settings := es, rules, unit }) := by
  rw [Generator.ofSettings, Generator.rulesOf_exclude several, told]
  rfl

theorem get?_indent_of_wide {width : Int} (told : indent es = .scalar (.integer width))
    (wide : 4 < width) : es.get? "indent" = some (.scalar (.integer width)) := by
  rw [indent] at told
  cases found : es.get? "indent" with
  | none =>
    rw [found] at told
    cases told
    omega
  | some d =>
    rw [found] at told
    rw [← told]
    rfl

theorem IsUsable.serves (usable : IsUsable es) : Serves host es := by
  obtain ⟨⟨choice, member, named⟩, ⟨width, positive, told⟩, ⟨ds, several⟩⟩ := usable
  obtain ⟨ms, known⟩ := Mode.exists_ofChoice?.2 member
  have made : Generator.ofSettings es host = _ := ofSettings_eq several told
  have parts : ∀ g, Generator.ofSettings es host = .ok g →
      g.settings = es ∧ Generator.unitOf host width = .ok g.unit := by
    intro g given
    rw [made] at given
    obtain ⟨rules, -, given⟩ := bind_eq_ok_iff.1 given
    obtain ⟨unit, blank, given⟩ := bind_eq_ok_iff.1 given
    cases given
    exact ⟨rfl, blank⟩
  -- The generator keeps the settings, so it looks its modes up where they were checked.
  have chosen : ∀ g, Generator.ofSettings es host = .ok g → g.modes = .ok ms := by
    intro g given
    refine Generator.modes_of_choice ?_ known
    rw [(parts g given).1]
    exact named
  refine ⟨?_, ?_, ?_, ?_⟩
  · intro f failed
    rw [made] at failed
    rcases bind_eq_error_iff.1 failed with unruled | ⟨rules, -, failed⟩
    · exact .inl (Generator.isOfPattern_of_rulesOfList unruled)
    · rcases bind_eq_error_iff.1 failed with noRoom | ⟨unit, -, impossible⟩
      · obtain ⟨room, wide⟩ := Generator.isOfRoom_of_unitOf positive noRoom
        exact .inr ⟨room, width, told, wide, fun enough => get?_indent_of_wide told (by omega)⟩
      · cases impossible
  · intro g given
    refine ⟨width.toNat, by omega, ?_, Generator.unitOf_eq_ok (parts g given).2⟩
    rw [told, Int.toNat_of_nonneg (by omega)]
  · intro g given
    exact ⟨choice, ms, named, known, Mode.ne_nil_of_ofChoice? known, chosen g given⟩
  · intro g given t path f
    exact Generator.runOn_ne_mode (chosen g given) t path f

end

/-! ## Loading -/

/-- **What layers of settings come to.** Let the defaults and what the command line says be objects. Settings are given
if and only if the file of the user is read, if there is one, and they are those of the three layers and can be used.
There are always such settings of three layers, and only one, so that nothing but their use decides. Settings that are
given lack neither modes nor blanks for a generator. -/
theorem load_layers {defaults overrides : Entries} (base : defaults.IsObject) (last : overrides.IsObject)
    (user : Option SettingsFile) (host : Host) :
    (∀ es, load (.mapping defaults) user (.mapping overrides) = .ok es ↔
        ∃ written, userSettings user = .ok written ∧ Layered defaults written overrides es ∧ IsUsable es) ∧
      (∀ written, userSettings user = .ok written → ∃! es, Layered defaults written overrides es) ∧
      ∀ es, load (.mapping defaults) user (.mapping overrides) = .ok es → Serves host es := by
  refine ⟨fun es => ?_, fun written read => ?_, fun es given => ?_⟩
  · rw [load_eq_ok]
    refine exists_congr fun written => and_congr_right fun read => and_congr_left fun _ => ?_
    have object := isObject_userSettings read
    constructor
    · rintro rfl
      exact layered_merge base object last
    · exact Layered.eq_merge base object last
  · have object := isObject_userSettings read
    exact ⟨_, layered_merge base object last, fun es layered => layered.eq_merge base object last⟩
  · obtain ⟨-, -, -, usable⟩ := load_eq_ok.1 given
    exact usable.serves

/-- A file with a comment. It chooses a mode and the blanks, leaves the directory null and says something of its own. -/
def layerSample : SettingsFile :=
  { path := .ofText "facts.jsonc"
    content := .ok ("\x7b// keep docs\n\"output_mode\": \"full\", \"note\": 1, " ++
      "\"indent\": 2, \"output_dir\": null,\x7d").toUTF8.toList }

/-- A command line that leaves two names null, of which the file has one, and says something about three others. -/
def overrideSample : Entries :=
  [(.text "indent", .null), (.text "extra", .list []), (.text "note", .text "kept"), (.text "absent", .null),
    (.text "pretty_print", .scalar (.bool true))]

def mergedSample : Entries :=
  [(.text "output_dir", .null), (.text "output_mode", .text "full"), (.text "pretty_print", .scalar (.bool true)),
    (.text "indent", .scalar (.integer 2)), (.text "exclude", .list []), (.text "note", .text "kept"),
    (.text "extra", .list [])]

theorem load_layers_commented :
    defaultSettings.IsObject ∧ overrideSample.IsObject ∧
      load (.mapping defaultSettings) (some layerSample) (.mapping overrideSample) = .ok mergedSample ∧
      (∃ written, userSettings (some layerSample) = .ok written ∧
        Layered defaultSettings written overrideSample mergedSample ∧ IsUsable mergedSample) ∧
      Serves .standard mergedSample := by
  have base : defaultSettings.IsObject := ⟨by simp [Entries.keys, defaultSettings], by decide⟩
  have last : overrideSample.IsObject := ⟨by simp [Entries.keys, overrideSample], by decide⟩
  have loaded : load (.mapping defaultSettings) (some layerSample) (.mapping overrideSample) = .ok mergedSample := by
    with_unfolding_all rfl
  obtain ⟨given, -, serves⟩ := load_layers base last (some layerSample) .standard
  exact ⟨base, last, loaded, (given _).1 loaded, serves _ loaded⟩

-- Without defaults there is only what the command line says.
example : load (.mapping []) none (.mapping [(.text "indent", .scalar (.integer 3))]) =
    .ok [(.text "indent", .scalar (.integer 3))] := rfl

end Config

end ProgramFacts
