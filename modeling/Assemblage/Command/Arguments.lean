import Assemblage.Binary64.Read
import Assemblage.Config.Overrides

/-!
The arguments of the command line. A command has options by name: an option with a value takes the
rest of its own argument behind an equals sign, or else the next argument whatever that looks like;
letters behind one dash are options run together. Of an option given twice the last value counts.
-/

namespace Assemblage
set_option autoImplicit false

/-- What a command line asks for. -/
inductive Command where
  | build (config : Option String) (overrides : Overrides)
  | preview (kind : AssetKind) (config : Option String) (overrides : Overrides)
      (output : Option String)
  | init (output : String) (force : Bool)
  | version
  | help
  deriving DecidableEq, Repr

/-- An option, by one of its names. -/
structure CommandOption where
  name : String
  /-- The parameter that it sets. -/
  parameter : String
  /-- What it sets without a value; an option without this takes a value. -/
  flag : Option Bool
  deriving DecidableEq, Repr

/-- What a parameter is set to. -/
inductive Given where
  | text (s : String)
  | flag (b : Bool)
  deriving DecidableEq, Repr

/-- Arguments taken apart: the parameters in the order in which they are set, and what belongs to
no option. -/
structure Arguments where
  given : List (String × Given)
  positionals : List String
  deriving DecidableEq, Repr

namespace CommandOption

/-- Options with values, each under its name. -/
def texts (names : List String) : List CommandOption :=
  names.map fun name => ⟨"--" ++ name, name, none⟩

def text (letter name : String) : List CommandOption :=
  [⟨"--" ++ name, name, none⟩, ⟨"-" ++ letter, name, none⟩]

def switch (letter name : String) : List CommandOption :=
  [⟨"--" ++ name, name, some true⟩, ⟨"-" ++ letter, name, some true⟩]

/-- An option and its negation. -/
def choice (name : String) : List CommandOption :=
  [⟨"--" ++ name, name, some true⟩, ⟨"--no-" ++ name, name, some false⟩]

def help : CommandOption := ⟨"--help", "help", some true⟩

end CommandOption

namespace Arguments

def push (parameter : String) (value : Given) (a : Arguments) : Arguments :=
  { a with given := (parameter, value) :: a.given }

/-- Whether an argument is made of options: a dash with something behind it. -/
def isOption (s : List Char) : Bool := s.head? == some '-' && 1 < s.length

def isLong (s : List Char) : Bool := "--".toList.isPrefixOf s

def find? (options : List CommandOption) (name : List Char) : Option CommandOption :=
  options.find? fun o => o.name.toList == name

/-- The option of a long name, and the value behind an equals sign. -/
def long? (options : List CommandOption) (s : List Char) :
    Option (CommandOption × Option String) :=
  let name := s.takeWhile (· != '=')
  if !isLong name then none
  else (find? options name).map fun o => (o, (s.dropWhile (· != '=')).tail?.map String.ofList)

/-- The options of letters run together: what they set, and the parameter that still wants its
value from the next argument. The first letter with a value takes what is behind it. -/
def letters? (options : List CommandOption) :
    List Char → Option (List (String × Given) × Option String)
  | [] => some ([], none)
  | c :: rest => do
    let o ← find? options ['-', c]
    match o.flag with
    | some b =>
      let (given, open?) ← letters? options rest
      return ((o.parameter, .flag b) :: given, open?)
    | none =>
      if rest.isEmpty then return ([], some o.parameter)
      else return ([(o.parameter, .text (String.ofList rest))], none)

/-- Takes arguments apart; none if an option is unknown, lacks its value or has one that it cannot
take. Two dashes end the options. -/
def read? (options : List CommandOption) : List String → Option Arguments
  | [] => some ⟨[], []⟩
  | arg :: rest =>
    let s := arg.toList
    if arg = "--" then some ⟨[], rest⟩
    else if !isOption s then
      (read? options rest).map fun a => { a with positionals := arg :: a.positionals }
    else
      match long? options s with
      | some (o, value) =>
        match o.flag, value with
        | some b, none => (read? options rest).map (push o.parameter (.flag b))
        | some _, some _ => none
        | none, some value => (read? options rest).map (push o.parameter (.text value))
        | none, none =>
          match rest with
          | [] => none
          | value :: rest => (read? options rest).map (push o.parameter (.text value))
      | none =>
        if isLong s then none
        else
          match letters? options (s.drop 1) with
          | none => none
          | some (given, none) =>
            (read? options rest).map fun a => { a with given := given ++ a.given }
          | some (given, some parameter) =>
            match rest with
            | [] => none
            | value :: rest =>
              (read? options rest).map fun a =>
                { a with given := given ++ (parameter, .text value) :: a.given }

/-- Every text that a parameter is set to. -/
def texts (a : Arguments) (parameter : String) : List String :=
  a.given.filterMap fun g =>
    match g with
    | (name, .text s) => if name = parameter then some s else none
    | _ => none

def text? (a : Arguments) (parameter : String) : Option String := (a.texts parameter).getLast?

/-- A text that is not empty. -/
def word? (a : Arguments) (parameter : String) : Option String :=
  (a.text? parameter).filter (· != "")

def path? (a : Arguments) (parameter : String) : Option Path :=
  (a.word? parameter).map Path.ofString

def flag? (a : Arguments) (parameter : String) : Option Bool :=
  (a.given.filterMap fun g =>
    match g with
    | (name, .flag b) => if name = parameter then some b else none
    | _ => none).getLast?

def asksForHelp (a : Arguments) : Bool := (a.flag? "help").isSome

end Arguments

namespace Command

/-! ## The commands -/

def buildOptions : List CommandOption :=
  CommandOption.texts
      ["script-directory", "script-output", "scene-directory", "scene-output",
        "system-directory", "system-output", "reference", "compiler", "timeout"] ++
    CommandOption.choice "recursive" ++ CommandOption.choice "strict" ++
    CommandOption.text "c" "config" ++ CommandOption.switch "v" "verbose" ++ [.help]

def previewOptions : List CommandOption :=
  CommandOption.text "d" "directory" ++ CommandOption.choice "recursive" ++
    CommandOption.text "c" "config" ++ CommandOption.text "o" "output" ++
    CommandOption.switch "v" "verbose" ++ [.help]

def initOptions : List CommandOption :=
  CommandOption.text "o" "output" ++ CommandOption.switch "f" "force" ++ [.help]

/-- The file that a configuration is written to if none is named. -/
def usualFile : String := "grapplebuild.yaml"

/-- Reads a timeout: one second at least. -/
def timeout? (a : Arguments) : Option (Option Int) :=
  match a.text? "timeout" with
  | none => some none
  | some s => (Numeral.integer? s.toList).bind fun n => if 1 ≤ n then some (some n) else none

def ofBuild (a : Arguments) : Option Command := do
  let timeout ← timeout? a
  if !a.positionals.isEmpty then none
  else
    return .build (a.word? "config")
      { scripts := ⟨a.path? "script-directory", a.path? "script-output"⟩
        systems := ⟨a.path? "system-directory", a.path? "system-output"⟩
        scenes := ⟨a.path? "scene-directory", a.path? "scene-output"⟩
        recursive := a.flag? "recursive"
        references := (a.texts "reference").map Path.ofString
        compiler := (a.word? "compiler").toList
        strict := a.flag? "strict"
        timeout := timeout }

def ofPreview (a : Arguments) : Option Command := do
  let kind ←
    match a.positionals with
    | [] => some .scripts
    | [name] => AssetKind.ofName? name
    | _ => none
  let overrides := Overrides.none.setKind ⟨a.path? "directory", none⟩ kind
  return .preview kind (a.word? "config") { overrides with recursive := a.flag? "recursive" }
    (a.word? "output")

def ofInit (a : Arguments) : Option Command :=
  if a.positionals.isEmpty then
    some (.init ((a.text? "output").getD usualFile) ((a.flag? "force").getD false))
  else none

def ofVersion (a : Arguments) : Option Command :=
  if a.positionals.isEmpty then some .version else none

/-- Reads the arguments of a command; help is given even where another value is wrong. -/
def ofArguments (options : List CommandOption) (command : Arguments → Option Command)
    (args : List String) : Option Command :=
  match Arguments.read? options args with
  | none => none
  | some a => if a.asksForHelp then some .help else command a

/-- Takes the options in front of a command off: whether help is asked for, and the rest. There is
no other option than that. -/
def front? : List String → Option (Bool × List String)
  | [] => some (false, [])
  | arg :: rest =>
    if arg = "--" then some (false, rest)
    else if arg = "--help" then (front? rest).map fun r => (true, r.2)
    else if Arguments.isOption arg.toList then none
    else some (false, arg :: rest)

/-- The command of this name with its arguments. -/
def named? (name : String) (args : List String) : Option Command :=
  if name = "build" then ofArguments buildOptions ofBuild args
  else if name = "preview" then ofArguments previewOptions ofPreview args
  else if name = "init" then ofArguments initOptions ofInit args
  else if name = "version" then ofArguments [.help] ofVersion args
  else
    match front? (name :: args) with
    | some (true, _) => some .help
    | _ => none

/-- The command of a command line, if it has the form of one. -/
def read? (args : List String) : Option Command :=
  match front? args with
  | some (true, _) => some .help
  | some (false, name :: args) => named? name args
  | _ => none

end Command

end Assemblage
