/-!
# Command-line arguments

The words of a command line are read from left to right. A word that starts with a dash names
options and flags; an option without an attached value takes the next word, unless that starts
with a dash itself. Such an option is settled when the next one is met or the words end, and what
is wrong with its value shows only then.
-/

namespace PayeeProposal

/-- Why a command line is not followed. Two of the causes are wishes: to see the help, and to see
the version. -/
inductive UsageError where
  | helpRequested
  | versionRequested
  /-- No arguments are given at all. -/
  | nothingGiven
  | missingCommand
  | unknownCommand
  | unknownArgument
  | repeatedArgument
  /-- An option lacks its value or has one that it cannot have. -/
  | invalidValue
  /-- A flag has a value. -/
  | unexpectedValue
deriving DecidableEq, Repr

/-- What is reported of a command line that is not followed. -/
def UsageError.message : UsageError → String
  | .helpRequested =>
    "usage: ocr2-payees [-c FILE] propose-payees [--state ADDRESS] [--proposal ADDRESS] " ++
      "[--input JSON|FILE] [--rdd FILE] [--link MINT] [--allow-unfunded-payee] [-y] [--dry-run]"
  | .versionRequested => "ocr2-payees 0.1.0"
  | .nothingGiven => "no command is given; see --help"
  | .missingCommand => "a command is missing; see --help"
  | .unknownCommand => "there is no such command; see --help"
  | .unknownArgument => "there is no such argument; see --help"
  | .repeatedArgument => "an argument is given twice"
  | .invalidValue => "a value is missing or empty"
  | .unexpectedValue => "a value is given where none is taken"

/-- The options, which take a value. -/
inductive OptionName where
  | config
  | state
  | proposal
  | input
  | description
  | link
deriving DecidableEq, Repr

/-- Whether the value of an option is the path of a file, which is not empty. -/
def OptionName.isPath : OptionName → Bool
  | .config | .description => true
  | _ => false

/-- The flags, which are there or not. -/
inductive FlagName where
  | allowUnfunded
  | yes
  | dryRun
deriving DecidableEq, Repr

/-- What a name on the command line stands for. -/
inductive Switch where
  | option (name : OptionName)
  | flag (name : FlagName)
  | help
  | version
deriving DecidableEq, Repr

/-- The names that are known in a part of the command line. -/
structure Vocabulary where
  long : List (String × Switch)
  short : List (Char × Switch)

namespace Vocabulary

/-- The names that are known before the command. -/
def general : Vocabulary where
  long := [("config", .option .config), ("help", .help), ("version", .version)]
  short := [('c', .option .config), ('h', .help), ('V', .version)]

/-- The names that are known behind the command. -/
def propose : Vocabulary where
  long :=
    [("state", .option .state), ("proposal", .option .proposal), ("proposal-id", .option .proposal),
     ("proposalId", .option .proposal), ("input", .option .input), ("rdd", .option .description),
     ("link", .option .link), ("allow-unfunded-payee", .flag .allowUnfunded), ("yes", .flag .yes),
     ("dry-run", .flag .dryRun), ("help", .help)]
  short := [('y', .flag .yes), ('h', .help)]

end Vocabulary

/-! ## Reading -/

/-- What a part of the command line has given so far. -/
structure Given where
  values : List (OptionName × String)
  flags : List FlagName
  /-- An option that has not been settled, with its value if that has come. -/
  pending : Option (OptionName × Option String)
deriving DecidableEq, Repr

namespace Given

/-- Nothing has been given. -/
def nothing : Given :=
  ⟨[], [], none⟩

/-- The option whose value is to come next. -/
def awaiting (g : Given) : Option OptionName :=
  match g.pending with
  | some (name, none) => some name
  | _ => none

/-- Takes the value of an option. -/
def put (g : Given) (name : OptionName) : Option String → Except UsageError Given
  | none => .error .invalidValue
  | some value =>
    if (g.values.lookup name).isSome then .error .repeatedArgument
    else if name.isPath && value == "" then .error .invalidValue
    else .ok { g with values := (name, value) :: g.values }

/-- Settles the option that has not been settled. -/
def settle (g : Given) : Except UsageError Given :=
  match g.pending with
  | none => .ok g
  | some (name, value) => { g with pending := none }.put name value

/-- Meets an option whose value is attached or to come. -/
def option (g : Given) (name : OptionName) (attached : Option String) : Except UsageError Given := do
  let g ← g.settle
  match attached with
  | some value => g.put name (some value)
  | none => .ok { g with pending := some (name, none) }

/-- Meets a flag. -/
def flag (g : Given) (name : FlagName) : Except UsageError Given := do
  let g ← g.settle
  if g.flags.contains name then .error .repeatedArgument
  else .ok { g with flags := name :: g.flags }

/-- Meets what a name stands for, without a value attached. -/
def plain (g : Given) : Switch → Except UsageError Given
  | .option name => g.option name none
  | .flag name => g.flag name
  | .help => do
    let _ ← g.settle
    .error .helpRequested
  | .version => do
    let _ ← g.settle
    .error .versionRequested

/-- Meets what a name stands for, with a value attached. -/
def attached (g : Given) (value : String) : Switch → Except UsageError Given
  | .option name => g.option name (some value)
  | _ => .error .unexpectedValue

/-- Reads a long name, which a value may be attached to behind an equals sign. -/
def long (vocabulary : Vocabulary) (g : Given) (word : List Char) : Except UsageError Given :=
  let name := String.ofList (word.takeWhile (· != '='))
  match vocabulary.long.lookup name with
  | none => .error .unknownArgument
  | some switch =>
    match word.dropWhile (· != '=') with
    | [] => g.plain switch
    | _ :: value => g.attached (String.ofList value) switch

/-- Reads short names. Behind one that takes a value the rest of the word is that value. -/
def short (vocabulary : Vocabulary) (g : Given) : List Char → Except UsageError Given
  | [] => .ok g
  | c :: rest =>
    match vocabulary.short.lookup c with
    | none => .error .unknownArgument
    | some (.option name) =>
      match rest with
      | [] => g.option name none
      | '=' :: value => g.option name (some (String.ofList value))
      | value => g.option name (some (String.ofList value))
    | some switch => do
      let g ← g.plain switch
      short vocabulary g rest

/-- Reads a word that names options and flags; other words give nothing. -/
def dashed? (vocabulary : Vocabulary) (g : Given) (word : String) :
    Option (Except UsageError Given) :=
  match word.toList with
  | ['-'] => none
  | '-' :: '-' :: rest => some (g.long vocabulary rest)
  | '-' :: rest => some (g.short vocabulary rest)
  | _ => none

/-- Reads the words behind the command. After a double dash there may be none. -/
def readPropose (g : Given) : List String → Except UsageError Given
  | [] => g.settle
  | word :: words =>
    if word = "--" then
      if words.isEmpty then g.settle else .error .unknownArgument
    else
      match g.dashed? .propose word with
      | some (.error e) => .error e
      | some (.ok g) => readPropose g words
      | none =>
        match g.awaiting with
        | some name => readPropose { g with pending := some (name, some word) } words
        | none => .error .unknownArgument

end Given

/-! ## The command line -/

/-- The arguments of the command. -/
structure ProposeArguments where
  state : Option String
  proposal : Option String
  input : Option String
  description : Option String
  link : Option String
  allowUnfunded : Bool
  yes : Bool
  dryRun : Bool
deriving DecidableEq, Repr

/-- What a command line says. -/
structure CommandLine where
  config : Option String
  arguments : ProposeArguments
deriving DecidableEq, Repr

namespace CommandLine

/-- The names of the command. -/
def commandNames : List String :=
  ["propose-payees", "ocr2:propose_payees"]

/-- The name of the command that explains others. -/
def helpName : String :=
  "help"

/-- Whether a word names a command. -/
def isCommand (word : String) : Bool :=
  commandNames.contains word || word == helpName

/-- What asking for help on some words leads to: on a command or on help itself there is some. -/
def help : List String → UsageError
  | [] => .helpRequested
  | [word] => if isCommand word then .helpRequested else .unknownCommand
  | _ => .unknownCommand

/-- What is said when the words end before a command. -/
def withoutCommand (g : Given) : Except UsageError CommandLine := do
  let g ← g.settle
  .error (if g.values.isEmpty then .nothingGiven else .missingCommand)

/-- What is said when a double dash stands before the words. -/
def afterDoubleDash (g : Given) : List String → Except UsageError CommandLine
  | [] => withoutCommand g
  | word :: _ => .error (if isCommand word then .unknownArgument else .unknownCommand)

/-- What has been given before and behind the command. -/
def ofGiven (before behind : Given) : CommandLine where
  config := before.values.lookup .config
  arguments :=
    { state := behind.values.lookup .state
      proposal := behind.values.lookup .proposal
      input := behind.values.lookup .input
      description := behind.values.lookup .description
      link := behind.values.lookup .link
      allowUnfunded := behind.flags.contains .allowUnfunded
      yes := behind.flags.contains .yes
      dryRun := behind.flags.contains .dryRun }

/-- Reads the words from the command on. -/
def readCommand (g : Given) (word : String) (words : List String) :
    Except UsageError CommandLine :=
  if word = helpName then .error (help words)
  else do
    let behind ← Given.nothing.readPropose words
    let before ← g.settle
    .ok (ofGiven before behind)

/-- Reads the words. -/
def readWords (g : Given) : List String → Except UsageError CommandLine
  | [] => withoutCommand g
  | word :: words =>
    if g.awaiting = none ∧ isCommand word then readCommand g word words
    else if word = "--" then afterDoubleDash g words
    else
      match g.dashed? .general word with
      | some (.error e) => .error e
      | some (.ok g) => readWords g words
      | none =>
        match g.awaiting with
        | some name => readWords { g with pending := some (name, some word) } words
        | none => .error .unknownCommand

/-- Reads a command line, whose first word names the program. -/
def parse (argv : List String) : Except UsageError CommandLine :=
  readWords .nothing argv.tail

end CommandLine

end PayeeProposal
