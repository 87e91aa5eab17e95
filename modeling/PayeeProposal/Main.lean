import PayeeProposal.Command

/-!
# The program

Reads the words of the command line, the environment and the files that are named there, runs the
command, and prints what comes of it. The input is read only when the user is asked something. No
node can be reached from here: the network of a run is the empty one.
-/

namespace PayeeProposal.Main

/-- Why the system could not read a file. -/
def fileError : IO.Error → FileError
  | .inappropriateType _ code _ => if code = 20 then .notDirectory else .isDirectory
  | .resourceExhausted (some _) _ _ => .nameTooLong
  | _ => .notFound

/-- What the path leads to. -/
def readPath (path : String) : IO (String × Except FileError Content) := do
  try
    let bytes ← IO.FS.readBinFile path
    return (path, .ok (.file bytes.data.toList))
  catch e =>
    match fileError e with
    | .isDirectory => return (path, .ok .directory)
    | e => return (path, .error e)

/-- The files that have been read. -/
def filesOf (known : List (String × Except FileError Content)) : Files := fun path =>
  (known.lookup path).getD (.error .notFound)

/-- The paths at which a configuration may be. -/
def configPaths (line : CommandLine) : List String :=
  match line.config with
  | some path => [path]
  | none => Config.usualPaths

/-- The paths that arguments and configuration name. -/
def inputPaths (line : CommandLine) (config : Config) : List String :=
  let named := line.arguments.input.map Text.trim
  named.toList ++ line.arguments.description.toList ++ config.program.descriptionPath.toList

/-- Reads all the files that a command line may need. -/
def readFiles (argv : List String) : IO Files := do
  match CommandLine.parse argv with
  | .error _ => return filesOf []
  | .ok line =>
    let configs ← (configPaths line).mapM readPath
    match Config.load (filesOf configs) line.config with
    | .error _ => return filesOf configs
    | .ok config =>
      let inputs ← (inputPaths line config).mapM readPath
      return filesOf (configs ++ inputs)

/-- The variables of the environment. -/
def readEnvironment : IO Environment := do
  return ⟨← IO.getEnv "LINK", ← IO.getEnv "OCR2_PAYEES_RPC_URL",
    ← IO.getEnv "OCR2_PAYEES_PRIVATE_KEY"⟩

/-- A line of the input; bytes that are no text stand for one that cannot be read. -/
def readLine : IO (List UInt8) := do
  try
    return Text.utf8 (← (← IO.getStdin).getLine)
  catch _ => return [0xff]

/-- Prints what a run prints behind what has been printed already, and how it ends. -/
def report (printed : String) (r : Run) : IO UInt32 := do
  IO.print (String.ofList (r.output.toList.drop printed.length))
  match r.result with
  | .ok _ => return 0
  | .error (.usage .helpRequested) =>
    IO.println (UsageError.message .helpRequested)
    return 0
  | .error (.usage .versionRequested) =>
    IO.println (UsageError.message .versionRequested)
    return 0
  | .error (.usage e) =>
    IO.eprintln ("error: " ++ e.message)
    return 2
  | .error e =>
    IO.eprintln ("Error: " ++ e.message Cause.text)
    return 1

/-- Runs the program: once without input, and if that ends in a question that is not answered, once
more with the line that answers it. -/
def run (argv : List String) : IO UInt32 := do
  let environment ← readEnvironment
  let files ← readFiles argv
  let unanswered := Command.run argv ⟨environment, files, [], Network.unreachable⟩
  match unanswered.result with
  | .error (.propose .cancelled) =>
    IO.print unanswered.output
    (← IO.getStdout).flush
    let line ← readLine
    report unanswered.output (Command.run argv ⟨environment, files, line, Network.unreachable⟩)
  | _ => report "" unanswered

end PayeeProposal.Main

/-- The program. -/
def main (words : List String) : IO UInt32 :=
  PayeeProposal.Main.run ("ocr2-payees" :: words)
