import ProgramFacts.Exclusion
import ProgramFacts.Numeral.Reading
import ProgramFacts.Run

/-!
# Generation

A generator turns a model into fact files, one tree of them for each mode. It takes settings as they are, so
it says itself what is wrong with them: the patterns and the indentation when it is made, the rest when it
runs and has loaded a model. What it does is there twice: as a script, which is known before any of it is done, and as a
course, which writes each fact when it is finished.
-/

namespace ProgramFacts

/-- Why there is no generator. -/
inductive SetupFault
  /-- The patterns are not several. -/
  | patterns (shown : String)
  /-- A pattern is no text. -/
  | patternKind (shown : String)
  | pattern (f : Exclusion.PatternFault)
  | indentKind (kind : String)
  | indentText (f : Numeral.IntegerFault)
  | indentNotNumber
  | indentInfinite
  /-- There is no room for such a text. -/
  | indentWide
  /-- No text is that long. -/
  | indentHuge
  /-- The settings are no mapping but of this kind. -/
  | settings (kind : String)
deriving DecidableEq

def SetupFault.message : SetupFault → String
  | .patterns shown => "lines:" ++ shown ++ " is not an iterable."
  | .patternKind shown => "pattern=" ++ shown ++ " is not a string, re.Pattern, or None."
  | .pattern (.meaningless text) => "Invalid git pattern: " ++ Text.quoted text
  | .pattern (.reversed r) => r.message
  | .indentKind kind =>
    "int() argument must be a string, a bytes-like object or a real number, not '" ++ kind ++ "'"
  | .indentText f => f.message
  | .indentNotNumber => "cannot convert float NaN to integer"
  | .indentInfinite => "cannot convert float infinity to integer"
  | .indentWide => ""
  | .indentHuge => "cannot fit 'int' into an index-sized integer"
  | .settings kind => "'" ++ kind ++ "' object has no attribute 'get'"

/-- What a run reports. -/
structure Report where
  tally : Tally := {}
  /-- How many packages were excluded. -/
  excluded : Nat := 0
  /-- How many files were written, each once. -/
  files : Nat := 0
  directories : List Path := []

/-- The program without the packages that have some paths. -/
def Program.without (out : String → Bool) (p : Program) : Program :=
  { p with packages := p.packages.filter fun q => !out q.path }

/-- Texts are shorter than this. -/
def lengthLimit : Int := Int.pow 2 63

/-- What a generator is made on. -/
structure Host where
  /-- There is room for texts shorter than this. -/
  room : Int
  room_pos : 0 < room
  room_le : room ≤ lengthLimit
  /-- The rule of a pattern, if it has one. -/
  readRule : List Char → Except Exclusion.PatternFault (Option Exclusion.Rule)

/-- A host that reads patterns as they are written for version control. -/
def Host.standard : Host where
  room := Int.pow 2 40
  room_pos := by decide +kernel
  room_le := by decide +kernel
  readRule := Exclusion.parseRule

structure Generator where
  settings : Entries
  rules : List Exclusion.Rule
  /-- The indentation of a level. -/
  unit : String

namespace Generator

/-- The rule of a pattern, if it has one. -/
def ruleOf (host : Host) : Document → Except SetupFault (Option Exclusion.Rule)
  | .scalar (.text s) =>
    (host.readRule s.toList).mapError .pattern
  | d => .error (.patternKind d.shown)

/-- The rules of patterns, those not given left out. -/
def rulesOfList (host : Host) : List Document → Except SetupFault (List Exclusion.Rule)
  | [] => .ok []
  | d :: ds =>
    if d.isGiven then do
      let r ← ruleOf host d
      let rs ← rulesOfList host ds
      pure (r.toList ++ rs)
    else rulesOfList host ds

/-- The rules of the setting of patterns. -/
def rulesOf (host : Host) (d : Document) : Except SetupFault (List Exclusion.Rule) :=
  if d.isGiven then
    match d with
    | .list ds => rulesOfList host ds
    | .mapping es => rulesOfList host (es.map fun e => .scalar e.1)
    | d => .error (.patterns d.shown)
  else .ok []

/-- The number of blanks that the setting of indentation tells. -/
def widthOf : Document → Except SetupFault Int
  | .scalar (.bool b) => .ok (if b then 1 else 0)
  | .scalar (.integer n) => .ok n
  | .scalar (.number .nan) => .error .indentNotNumber
  | .scalar (.number x) =>
    match x.truncate? with
    | some n => .ok n
    | none => .error .indentInfinite
  | .scalar (.text s) =>
    (Numeral.integer 10 s.toList).mapError .indentText
  | d => .error (.indentKind d.kindName)

def unitOf (host : Host) (width : Int) : Except SetupFault String :=
  if lengthLimit ≤ width ∨ width < -lengthLimit then .error .indentHuge
  else if host.room ≤ width then .error .indentWide
  else .ok (String.ofList (List.replicate width.toNat ' '))

/-- The generator of settings. -/
def ofSettings (es : Entries) (host : Host := .standard) : Except SetupFault Generator := do
  let rules ← rulesOf host ((es.get? "exclude").getD .null)
  let width ← widthOf (Config.indent es)
  let unit ← unitOf host width
  pure { settings := es, rules, unit }

/-- The generator of settings as they were read. -/
def ofDocument (d : Document) (host : Host := .standard) : Except SetupFault Generator :=
  match d with
  | .mapping es => ofSettings es host
  | d => .error (.settings d.kindName)

/-- Whether the package with a path is excluded. It is a directory, so that patterns for directories match it. -/
def excludesPath (g : Generator) (path : String) : Bool := Exclusion.excludes g.rules (path ++ "/").toList

def excludes (g : Generator) (p : Package) : Bool := g.excludesPath p.path

/-- The program without the excluded packages. -/
def kept (g : Generator) (p : Program) : Program := p.without g.excludesPath

def excludedPackages (g : Generator) (p : Program) : List Package := p.packages.filter (g.excludes ·)

def directory (g : Generator) : Except RunFault Path :=
  match (g.settings.get? "output_dir").getD (.text "prolog-facts") with
  | .scalar (.text s) => .ok (.ofText s)
  | d => .error (.path d.kindName)

def modes (g : Generator) : Except RunFault (List Mode) := (Config.outputMode g.settings).modes.mapError .mode

def style (g : Generator) : Term.Style :=
  if ((g.settings.get? "pretty_print").getD (.scalar (.bool false))).isGiven then .indented g.unit else .oneLine

end Generator

/-- The facts of an index: the modules, if there are any, and the packages. -/
def Index.steps (i : Index) : List Output.Step :=
  let modules := if i.modules.isEmpty then [] else [i.moduleFact]
  (modules ++ [i.packageFact]).map fun fact => .write (.ofIndex "" fact) fact

/-- What the walk of a program has written: all of it, or what came before a fault. -/
def Walk.steps (w : Walk Index) : List Output.Step :=
  w.events.map (·.step) ++
    match w.result with
    | .ok i => i.steps
    | .error _ => []

/-- Writes the facts of a program in one mode below a directory, and gives the counts and the output. How the written
files are reported is up to the caller. -/
def generateModeWith (report : Path → List Path → List Message) (working : List String) (style : Term.Style)
    (directory : Path) (p : Program) (m : Mode) : Script (Tally × Output) :=
  let o : Output := { root := directory.join (.ofText m.name), style }
  if o.root.hasNull then .ofResult (.error (.output .nullCharacter))
  else do
    .tell .info ("Generating " ++ m.name ++ " facts to: " ++ (o.root.resolve working).text)
    let w := p.walk m.hasDocs
    let (after, actions) := o.plan w.steps
    .act actions
    let _ ← Script.ofResult (w.result.mapError .encode)
    .act ((report o.root after.written).map .tell)
    pure (w.tally, after)

/-- Writes the facts of a program in several modes. -/
def generateModesWith (report : Path → List Path → List Message) (working : List String) (style : Term.Style)
    (directory : Path) (p : Program) : List Mode → Script (List (Tally × Output))
  | [] => pure []
  | m :: ms => do
    let done ← generateModeWith report working style directory p m
    let rest ← generateModesWith report working style directory p ms
    pure (done :: rest)

@[inherit_doc generateModeWith]
abbrev generateMode : List String → Term.Style → Path → Program → Mode → Script (Tally × Output) :=
  generateModeWith reportWritten

@[inherit_doc generateModesWith]
abbrev generateModes : List String → Term.Style → Path → Program → List Mode → Script (List (Tally × Output)) :=
  generateModesWith reportWritten

namespace Generator

/-- What is reported of a run: every mode walks the same program, so it is counted once. -/
def report (excluded : Nat) (done : List (Tally × Output)) : Report :=
  { tally := (done.head?.map (·.1)).getD {}
    excluded
    files := (done.map (·.2.written.length)).foldr (· + ·) 0
    directories := done.map (·.2.root) }

def excludeMessage (p : Package) : Message := ⟨.debug, "EXCLUDE: " ++ p.name⟩

/-- Writes the facts of a program without the packages that have some paths, seen from a working directory. -/
def generateWith (g : Generator) (report : Path → List Path → List Message) (out : String → Bool)
    (working : List String) (p : Program) : Script Report := do
  let excluded := p.packages.filter fun q => out q.path
  .act (excluded.map fun q => .tell (excludeMessage q))
  let directory ← .ofResult g.directory
  let modes ← .ofResult g.modes
  let done ← generateModesWith report working g.style directory (p.without out) modes
  .tell .info "Fact generation completed successfully."
  pure (Generator.report excluded.length done)

/-- Writes the facts of a program without the excluded packages. -/
def generate (g : Generator) (working : List String) (p : Program) : Script Report :=
  g.generateWith reportWritten g.excludesPath working p

def loadingText (path : String) : String := "Loading program model from '" ++ path ++ "'"

/-- Loads a program from a file with some content and writes its facts. -/
def run (g : Generator) (working : List String) (path : String) (content : Except SystemFault (List UInt8)) :
    Script Report := do
  .tell .info (loadingText path)
  let p ← .ofResult ((loadProgram (.ofText path) content).mapError .load)
  g.generate working p

end Generator

/-! ## Courses -/

/-- Writes the facts of an index: the modules, if there are any, and the packages. -/
def Output.putIndex (o : Output) (i : Index) : Course Output := do
  let o ← if i.modules.isEmpty then pure o else o.put (.ofIndex "" i.moduleFact) i.moduleFact
  o.put (.ofIndex "" i.packageFact) i.packageFact

/-- Writes the facts of a program in one mode, each when it is finished. -/
def streamMode (working : List String) (style : Term.Style) (directory : Path) (p : Program) (m : Mode) :
    Course (Tally × Output) :=
  let o : Output := { root := directory.join (.ofText m.name), style }
  if o.root.hasNull then .ofResult (.error (.output .nullCharacter))
  else do
    .tell [⟨.info, "Generating " ++ m.name ++ " facts to: " ++ (o.root.resolve working).text⟩]
    let (i, tally, after) ← o.walk m.hasDocs p
    let after ← after.putIndex i
    .tell (reportWritten o.root after.written)
    pure (tally, after)

/-- Writes the facts of a program in one mode after the other. -/
def streamModes (working : List String) (style : Term.Style) (directory : Path) (p : Program) :
    List Mode → Course (List (Tally × Output))
  | [] => pure []
  | m :: ms => do
    let done ← streamMode working style directory p m
    let rest ← streamModes working style directory p ms
    pure (done :: rest)

namespace Generator

/-- Writes the facts of a program without the excluded packages, each when it is finished. -/
def stream (g : Generator) (working : List String) (p : Program) : Course Report := do
  .tell ((g.excludedPackages p).map excludeMessage)
  let directory ← .ofResult g.directory
  let modes ← .ofResult g.modes
  let done ← streamModes working g.style directory (g.kept p) modes
  .tell [⟨.info, "Fact generation completed successfully."⟩]
  pure (report (g.excludedPackages p).length done)

/-- Loads a program from a file tree and writes its facts there. -/
def runOn (g : Generator) (t : FileTree) (path : String) : Run Report :=
  Course.on t do
    .tell [⟨.info, loadingText path⟩]
    let p ← .ofResult ((loadProgram (.ofText path) (t.readBytes (.ofText path))).mapError .load)
    g.stream t.working p

end Generator

end ProgramFacts
