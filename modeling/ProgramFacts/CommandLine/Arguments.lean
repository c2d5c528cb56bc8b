import ProgramFacts.Config
import ProgramFacts.Numeral.Reading

/-!
# Arguments

The words of a command line. Every word is classified before any is used: a word that begins with a hyphen
is an option, or a cluster of one-letter options, unless it looks like a negative number or has a blank in it.
Long options may be cut short as long as only one is meant. A value in the same word as its option counts as
several: if it is two hyphens, nothing is left of it.
-/

namespace ProgramFacts.CommandLine

inductive CommandOption
  | help
  | model
  | config
  | output
  | exclude
  | outputMode
  | prettyPrint
  | indent
  | verbose
  | quiet
  | noColor
  | printSummary
deriving DecidableEq

namespace CommandOption

/-- The ways to write an option. -/
def spellings : CommandOption → List String
  | .help => ["-h", "--help"]
  | .model => ["--model"]
  | .config => ["--config"]
  | .output => ["-d", "--output"]
  | .exclude => ["-e", "--exclude"]
  | .outputMode => ["--output-mode"]
  | .prettyPrint => ["--pretty-print", "--no-pretty-print"]
  | .indent => ["--indent"]
  | .verbose => ["-v", "--verbose"]
  | .quiet => ["-q", "--quiet"]
  | .noColor => ["--no-color"]
  | .printSummary => ["--print-summary"]

/-- Whether a value follows the option. -/
def takesValue : CommandOption → Bool
  | .model | .config | .output | .exclude | .outputMode | .indent => true
  | _ => false

def all : List CommandOption :=
  [.help, .model, .config, .output, .exclude, .outputMode, .prettyPrint, .indent, .verbose, .quiet, .noColor,
    .printSummary]

/-- The option as messages name it. -/
def name (o : CommandOption) : String := Text.joinWith "/" o.spellings

end CommandOption

/-- An option, and how it was written. -/
structure Spelled where
  option : CommandOption
  spelling : String
deriving DecidableEq

/-- Every way to write every option. -/
def allSpelled : List Spelled := CommandOption.all.flatMap fun o => o.spellings.map (⟨o, ·⟩)

/-- What is wrong with a command line. -/
inductive UsageFault
  | required
  | unrecognized (words : List String)
  | ambiguous (word : String) (spellings : List String)
  | expectedValue (o : CommandOption)
  | ignoredValue (o : CommandOption) (value : String)
  | notAllowed (o other : CommandOption)
  | invalidMode (value : String)
  | invalidInteger (value : String)
deriving DecidableEq

/-- A message about an option. -/
def aboutOption (o : CommandOption) (message : String) : String := "argument " ++ o.name ++ ": " ++ message

def UsageFault.message : UsageFault → String
  | .required => "the following arguments are required: " ++ CommandOption.model.name
  | .unrecognized words => "unrecognized arguments: " ++ Text.joinWith " " words
  | .ambiguous word spellings =>
    "ambiguous option: " ++ word ++ " could match " ++ Text.joinWith ", " spellings
  | .expectedValue o => aboutOption o "expected one argument"
  | .ignoredValue o value => aboutOption o ("ignored explicit argument " ++ Text.quoted value)
  | .notAllowed o other => aboutOption o ("not allowed with argument " ++ other.name)
  | .invalidMode value =>
    aboutOption .outputMode ("invalid choice: " ++ Text.quoted value ++ " (choose from " ++
      Text.joinWith ", " (Mode.choices.map Text.quoted) ++ ")")
  | .invalidInteger value => aboutOption .indent ("invalid int value: " ++ Text.quoted value)

/-- What a word is. -/
inductive Word
  | value
  /-- The first option in the word, and what follows it there. -/
  | option (s : Spelled) (tail : Option (List Char))
  /-- Like an option, but none. -/
  | unknown
  /-- Two hyphens: no options follow. -/
  | separator
deriving DecidableEq

/-- Whether a word is a negative number; a line feed may end it. -/
def isNegativeNumber (cs : List Char) : Bool :=
  let isDigit (c : Char) : Bool := (Text.digitValue? c).isSome
  match cs with
  | '-' :: rest =>
    let body := if rest.getLast? = some '\n' then rest.dropLast else rest
    let after := body.dropWhile isDigit
    match after with
    | [] => !body.isEmpty
    | '.' :: fraction => !fraction.isEmpty && fraction.all isDigit
    | _ => false
  | _ => false

/-- The part before the first equals sign, and what follows it. -/
def splitEquals (cs : List Char) : List Char × Option (List Char) :=
  match cs.dropWhile (· ≠ '=') with
  | [] => (cs, none)
  | _ :: after => (cs.takeWhile (· ≠ '='), some after)

def spelled? (cs : List Char) : Option Spelled := allSpelled.find? (·.spelling.toList == cs)

/-- The options that a word may begin, with what follows each. -/
def candidates (cs : List Char) : List (Spelled × Option (List Char)) :=
  match cs with
  | '-' :: '-' :: _ =>
    let (start, tail) := splitEquals cs
    (allSpelled.filter (start.isPrefixOf ·.spelling.toList)).map (·, tail)
  | _ => (allSpelled.filter (·.spelling.toList == cs.take 2)).map (·, some (cs.drop 2))

/-- What a word that begins with a hyphen is, if it is not an option as it stands. -/
def classifyOther (word : String) : Except UsageFault Word :=
  let cs := word.toList
  match candidates cs with
  | [(s, tail)] => .ok (.option s tail)
  | [] =>
    if isNegativeNumber cs || cs.contains ' ' then .ok .value else .ok .unknown
  | several => .error (.ambiguous word (several.map (·.1.spelling)))

/-- What a word is. -/
def classify (word : String) : Except UsageFault Word :=
  let cs := word.toList
  if cs.head? ≠ some '-' then .ok .value
  else if cs = ['-', '-'] then .ok .separator
  else match spelled? cs with
    | some s => .ok (.option s none)
    | none =>
      if cs.length = 1 then .ok .value
      else match splitEquals cs with
        | (start, some tail) =>
          match spelled? start with
          | some s => .ok (.option s (some tail))
          | none => classifyOther word
        | (_, none) => classifyOther word

/-- What the words of a command line are: behind two hyphens all are values. -/
def classifyAll : List String → Except UsageFault (List (String × Word))
  | [] => .ok []
  | w :: ws => do
    let c ← classify w
    if c = .separator then pure ((w, c) :: ws.map (·, .value))
    else
      let rest ← classifyAll ws
      pure ((w, c) :: rest)

/-- What a command line asks for. A value is a text, unless nothing was left of it. -/
structure Arguments where
  model : Option Document := none
  config : Option Document := none
  output : Option Document := none
  excludes : List Document := []
  outputMode : Option Document := none
  prettyPrint : Option Bool := none
  indent : Option Document := none
  /-- Which of the two options on how much is told was given. -/
  verbosity : Option CommandOption := none
  noColor : Bool := false
  printSummary : Bool := false

/-- What a command line comes to. -/
inductive Request
  | help
  | generate (a : Arguments)

/-- Why reading a command line stops. -/
inductive Stop
  | help
  | usage (f : UsageFault)

namespace Arguments

/-- Takes one of two options that exclude each other. -/
def tellHow (a : Arguments) (o other : CommandOption) : Except Stop Arguments :=
  if a.verbosity = some other then .error (.usage (.notAllowed o other))
  else .ok { a with verbosity := some o }

/-- Takes an option without a value. -/
def takeFlag (a : Arguments) (s : Spelled) : Except Stop Arguments :=
  match s.option with
  | .help => .error .help
  | .prettyPrint => .ok { a with prettyPrint := some (s.spelling == "--pretty-print") }
  | .verbose => a.tellHow .verbose .quiet
  | .quiet => a.tellHow .quiet .verbose
  | .noColor => .ok { a with noColor := true }
  | .printSummary => .ok { a with printSummary := true }
  | _ => .ok a

/-- What an option makes of a text. -/
def convert (o : CommandOption) (value : String) : Except Stop Document :=
  match o with
  | .outputMode => if value ∈ Mode.choices then .ok (.text value) else .error (.usage (.invalidMode value))
  | .indent =>
    match Numeral.integer 10 value.toList with
    | .ok n => .ok (.scalar (.integer n))
    | .error _ => .error (.usage (.invalidInteger value))
  | _ => .ok (.text value)

/-- Takes an option with its value. -/
def takeValue (a : Arguments) (o : CommandOption) (d : Document) : Arguments :=
  match o with
  | .model => { a with model := some d }
  | .config => { a with config := some d }
  | .output => { a with output := some d }
  | .exclude => { a with excludes := a.excludes ++ [d] }
  | .outputMode => { a with outputMode := some d }
  | .indent => { a with indent := some d }
  | _ => a

/-- Takes an option with a word for its value. -/
def takeWord (a : Arguments) (o : CommandOption) (value : String) : Except Stop Arguments := do
  let d ← convert o value
  pure (a.takeValue o d)

/-- Takes an option with a value from the same word. -/
def takeAttached (a : Arguments) (o : CommandOption) (value : List Char) : Except Stop Arguments :=
  if value = ['-', '-'] then .ok (a.takeValue o (.list [])) else a.takeWord o (String.ofList value)

def takeFlags (a : Arguments) : List Spelled → Except Stop Arguments
  | [] => .ok a
  | s :: ss => do
    let after ← a.takeFlag s
    after.takeFlags ss

end Arguments

/-- The options in a word: those without a value, the last one, and the value that follows it there. -/
structure Cluster where
  flags : List Spelled
  last : Spelled
  value : Option (List Char)

/-- The options in a word that has more than its first one. A letter may follow a letter if it is an option, and
nothing else may follow an option without a value. -/
def clusterFrom (s : Spelled) : List Char → Except UsageFault Cluster
  | [] => if s.option.takesValue then .ok ⟨[], s, some []⟩ else .error (.ignoredValue s.option "")
  | c :: cs =>
    if s.option.takesValue then .ok ⟨[], s, some (c :: cs)⟩
    else
      let next := if s.spelling.length = 2 then spelled? ['-', c] else none
      match next, cs with
      | none, _ => .error (.ignoredValue s.option (String.ofList (c :: cs)))
      | some next, [] => .ok ⟨[s], next, none⟩
      | some next, cs => do
        let more ← clusterFrom next cs
        pure { more with flags := s :: more.flags }

def clusterOf (s : Spelled) : Option (List Char) → Except UsageFault Cluster
  | none => .ok ⟨[], s, none⟩
  | some tail => clusterFrom s tail

/-- Takes classified words in order, and gives those that no option took. -/
def takeWords (a : Arguments) : List (String × Word) → Except Stop (Arguments × List String)
  | [] => .ok (a, [])
  | (_, .option s tail) :: ws => do
    let c ← (clusterOf s tail).mapError .usage
    match c.value, ws with
    | some value, ws => do
      let flagged ← a.takeFlags c.flags
      let after ← flagged.takeAttached c.last.option value
      takeWords after ws
    | none, ws =>
      if c.last.option.takesValue then
        match ws with
        | (value, .value) :: ws => do
          let flagged ← a.takeFlags c.flags
          let after ← flagged.takeWord c.last.option value
          takeWords after ws
        | _ => .error (.usage (.expectedValue c.last.option))
      else do
        let flagged ← a.takeFlags (c.flags ++ [c.last])
        takeWords flagged ws
  | (w, _) :: ws => do
    let (after, extras) ← takeWords a ws
    pure (after, w :: extras)

/-- What a command line asks for. -/
def parse (words : List String) : Except UsageFault Request := do
  let classified ← classifyAll words
  match takeWords {} classified with
  | .error .help => pure .help
  | .error (.usage f) => .error f
  | .ok (a, extras) =>
    if a.model.isNone then .error .required
    else if extras.isEmpty then pure (.generate a)
    else .error (.unrecognized extras)

end ProgramFacts.CommandLine
