import ProgramFacts.CommandLine.Arguments
import ProgramFacts.Generation

/-!
# The command line

What a command line does, given what the files that it names hold: actions, and how they end. Faults of the
input are told and end the program with one. Others are not foreseen, and nothing is told of them here.
-/

namespace ProgramFacts.CommandLine

/-- The name of the program. -/
def programName : String := "declfacts"

def usageLines : List String :=
  ["usage: declfacts [-h] --model MODEL [--config CONFIG] [-d OUTPUT_DIR]",
    "                 [-e EXCLUDES] [--output-mode \x7bboth,full,minimal\x7d]",
    "                 [--pretty-print | --no-pretty-print] [--indent INDENT]",
    "                 [-v | -q] [--no-color] [--print-summary]"]

def helpLines : List String :=
  usageLines ++
  ["",
    "Program model to Prolog facts generator.",
    "",
    "options:",
    "  -h, --help            show this help message and exit",
    "  --model MODEL         Program model document (YAML or JSON).",
    "  --config CONFIG       Path to JSON/JSONC config.",
    "  -d OUTPUT_DIR, --output OUTPUT_DIR",
    "                        Output root.",
    "  -e EXCLUDES, --exclude EXCLUDES",
    "                        gitwildmatch pattern over package paths (a/b/c). Repeatable.",
    "  --output-mode \x7bboth,full,minimal\x7d",
    "  --pretty-print, --no-pretty-print",
    "                        Indent nested terms over several lines.",
    "  --indent INDENT       Pretty-print indent width.",
    "  -v, --verbose",
    "  -q, --quiet",
    "  --no-color",
    "  --print-summary"]

/-- Lines, each with its end. -/
def textOf (lines : List String) : String := String.join (lines.map (· ++ "\n"))

/-- Why a command line that was understood came to no report. -/
inductive Failure
  | config (f : ConfigFault)
  | setup (f : SetupFault)
  | run (f : RunFault)

/-- How a failure is told. -/
inductive Telling
  /-- As a fault of the usage. -/
  | asUsage
  | asItIs
  /-- Not at all, since it is not foreseen. -/
  | unforeseen
deriving DecidableEq

def tellingConfig : ConfigFault → Telling
  | .defaults _ | .overrides _ | .mode (.collection _) => .unforeseen
  | _ => .asUsage

def tellingSetup : SetupFault → Telling
  | .pattern (.meaningless _) | .indentText _ | .indentNotNumber => .asUsage
  | _ => .unforeseen

def tellingScalar : Yaml.Fault → Telling
  | .truth _ | .noDigits | .moment | .momentMapping | .tooManySixties | .endless => .unforeseen
  | .codePoint n => if n < Yaml.Fault.codePointLimit then .asUsage else .unforeseen
  | _ => .asUsage

def tellingRun : RunFault → Telling
  | .load (.scalar f) => tellingScalar f
  | .load (.model .endless) => .unforeseen
  | .load _ => .asUsage
  | .encode .oversized => .asUsage
  | .output .nullCharacter => .asUsage
  | .output (.system _ _) => .asItIs
  | _ => .unforeseen

namespace Failure

def message : Failure → String
  | .config f => f.message
  | .setup f => f.message
  | .run f => f.message

def telling : Failure → Telling
  | .config f => tellingConfig f
  | .setup f => tellingSetup f
  | .run f => tellingRun f

end Failure

namespace Arguments

def console (a : Arguments) : Console :=
  { threshold := (match a.verbosity with
      | some .verbose => Level.debug
      | some .quiet => .error
      | _ => .info).rank
    colored := !a.noColor }

/-- The settings that the command line makes. -/
def settings (a : Arguments) : Entries :=
  [(.text "output_dir", a.output.getD .null), (.text "output_mode", a.outputMode.getD .null),
    (.text "pretty_print", (a.prettyPrint.map fun b => .scalar (.bool b)).getD .null),
    (.text "indent", a.indent.getD .null),
    (.text "exclude", if a.excludes.isEmpty then .null else .list a.excludes)]

/-- The path that a value tells. -/
def pathOf? : Document → Option Path
  | .scalar (.text s) => some (.ofText s)
  | _ => none

/-- The path of the file of settings; what does not count as given is none. -/
def configPath? (a : Arguments) : Option Path := (a.config.filter (·.isGiven)).bind pathOf?

/-- The files that the command line reads. -/
def inputs (a : Arguments) : List Path := a.configPath?.toList ++ (a.model.bind pathOf?).toList

end Arguments

/-- What files hold. -/
abbrev Contents := Path → Except SystemFault (List UInt8)

/-- The generator that arguments ask for. -/
def generatorOf (a : Arguments) (contents : Contents) (host : Host := .standard) : Except Failure Generator := do
  let file := a.configPath?.map fun p => { path := p, content := contents p : SettingsFile }
  let settings ← (Config.load (.mapping defaultSettings) file (.mapping a.settings)).mapError .config
  (Generator.ofSettings settings host).mapError .setup

/-- Actions, and what they come to if all of them can be done. -/
structure Session where
  console : Console
  /-- Whether a summary is asked for. -/
  summarizes : Bool
  actions : List Action
  result : Except Failure Report

/-- Runs a generator on the model that a value tells. -/
def runModel (g : Generator) (working : List String) (contents : Contents) : Document → Script Report
  | .scalar (.text s) => g.run working s (contents (.ofText s))
  | d => do
    .tell .info (Generator.loadingText d.asText)
    .ofResult (.error (.path d.kindName))

/-- What arguments ask for, seen from a working directory. -/
def sessionOf (a : Arguments) (working : List String) (contents : Contents) (host : Host := .standard) : Session :=
  match generatorOf a contents host with
  | .error f => { console := a.console, summarizes := a.printSummary, actions := [], result := .error f }
  | .ok g =>
    let s := runModel g working contents (a.model.getD .null)
    { console := a.console, summarizes := a.printSummary, actions := s.actions, result := s.result.mapError .run }

/-- The rows of a summary. -/
def summaryRows (r : Report) : List (String × Nat) :=
  [("Modules", r.tally.modules), ("Packages", r.tally.packages), ("  - Excluded", r.excluded),
    ("Types", r.tally.types), ("Methods", r.tally.methods), ("Constructors", r.tally.constructors),
    ("Fields", r.tally.fields), ("Skipped (Unsupported)", r.tally.skipped), ("Files Written", r.files)]

/-- The width of the first column of a summary. -/
def labelWidth (rows : List (String × Nat)) : Nat := (rows.map (·.1.length)).foldl max 0

/-- The lines of a summary. Only a terminal shows three of the numbers in colours. What is printed elsewhere, as it is
taken to be here, loses them, whether colours are asked for or not. -/
def summaryLines (r : Report) : List String :=
  let rows := summaryRows r
  let row (e : String × Nat) : String :=
    String.ofList (e.1.toList.rightpad (labelWidth rows) ' ') ++ " : " ++ toString e.2
  ["", "--- Fact Generation Summary ---"] ++ rows.map row ++ ["-------------------------------"]

inductive Ending
  | exit (code : UInt32)
  /-- A failure that is not foreseen. -/
  | broken (f : Failure)

/-- The end of a session: last messages, what is printed, and how the program ends. -/
structure Closing where
  messages : List Message
  printed : String
  ending : Ending

def Failure.closing (f : Failure) : Closing :=
  match f.telling with
  | .asUsage => ⟨[⟨.critical, "Configuration or Usage Error: " ++ f.message⟩], "", .exit 1⟩
  | .asItIs => ⟨[⟨.critical, f.message⟩], "", .exit 1⟩
  | .unforeseen => ⟨[], "", .broken f⟩

namespace Session

/-- The end of a session after its actions; a summary is printed unless messages of its level are dropped. -/
def closing (s : Session) (done : Except OutputFault Unit) : Closing :=
  match done, s.result with
  | .error f, _ => (Failure.run (.output f)).closing
  | .ok (), .error f => f.closing
  | .ok (), .ok r =>
    let told := s.summarizes && decide (s.console.threshold ≤ Level.info.rank)
    ⟨[], if told then textOf (summaryLines r) else "", .exit 0⟩

/-- Messages as the console shows them, one a line. -/
def shown (s : Session) (ms : List Message) : String := textOf ((s.console.log ms).map (·.text))

end Session

/-- The text for a command line that was not understood. -/
def usageText (f : UsageFault) : String :=
  textOf (usageLines ++ [programName ++ ": error: " ++ f.message])

/-- What a command line leaves: files, what was printed, what was told, and how the program ended. -/
structure Outcome where
  tree : FileTree
  printed : String
  told : String
  ending : Ending

/-- Runs a command line on a file tree. -/
def runOn (t : FileTree) (words : List String) (host : Host := .standard) : Outcome :=
  match parse words with
  | .error f => ⟨t, "", usageText f, .exit 2⟩
  | .ok .help => ⟨t, textOf helpLines, "", .exit 0⟩
  | .ok (.generate a) =>
    let s := sessionOf a t.working t.readBytes host
    let d := perform t s.actions
    let c := s.closing d.result
    ⟨d.tree, c.printed, s.shown (d.messages ++ c.messages), c.ending⟩

end ProgramFacts.CommandLine
