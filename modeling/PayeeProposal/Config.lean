import PayeeProposal.Cause
import PayeeProposal.Text.Blank
import PayeeProposal.Yaml.Reader

/-!
# Configuration

The settings that a YAML file may hold. Every section and every field may be missing. A missing
section is the default one, and in a section that is there each missing field has a default of its
own.
-/

namespace PayeeProposal

/-- The level from which on messages are logged. -/
def LoggingConfig.defaultLevel : String :=
  "info"

/-- Local time is universal time. -/
def LoggingConfig.defaultOffsetHours : Int :=
  0

/-- How the program logs. -/
structure LoggingConfig where
  level : String := LoggingConfig.defaultLevel
  asJson : Bool := false
  /-- The hours by which local time is ahead of universal time. -/
  offsetHours : Int := LoggingConfig.defaultOffsetHours
deriving DecidableEq, Repr

/-- The name of the usual commitment. -/
def GlobalConfig.defaultCommitment : String :=
  "confirmed"

/-- What the program needs to reach the chain. -/
structure GlobalConfig where
  rpcUrl : Option String := none
  commitment : String := GlobalConfig.defaultCommitment
  privateKey : String := ""
  logging : LoggingConfig := {}
deriving DecidableEq, Repr

/-- The address of the aggregator program on the main network. -/
def ProgramConfig.defaultProgramId : String :=
  "cjg3oHmg9uuPsP8D6g29NWvhySJkdYdAo9D25PRbKXJ"

/-- What the program needs to know of the aggregator program. -/
structure ProgramConfig where
  programId : String := ProgramConfig.defaultProgramId
  /-- The token that rewards are paid in. -/
  linkMint : Option String := none
  /-- The file that describes the deployment. -/
  descriptionPath : Option String := none
deriving DecidableEq, Repr

/-- The configuration. -/
structure Config where
  global : GlobalConfig := {}
  program : ProgramConfig := {}
deriving DecidableEq, Repr

/-- Why there is no configuration. -/
inductive ConfigError where
  | unreadable (path : String) (error : FileError)
  | unparsable (path : String)
  | notFound (path : String)
deriving DecidableEq, Repr

/-- What is reported of a failure. -/
def ConfigError.message (wording : Wording) : ConfigError → String
  | .unreadable path error => "failed to read config at " ++ path ++ ": " ++ wording (.file error)
  | .unparsable path => "failed to parse config at " ++ path ++ ": " ++ wording .yaml
  | .notFound path => "config file not found: " ++ path

namespace LoggingConfig

/-- A section of which some fields have been read. -/
structure Partial where
  level : Option String := none
  asJson : Option Bool := none
  offsetHours : Option Int := none

/-- What a key of the section means. -/
def member (name : String) (p : Partial) : Yaml.Member Partial :=
  if name = "level" then
    .once p.level Yaml.Reader.text fun t => { p with level := some t }
  else if name = "json" then
    .once p.asJson Yaml.Reader.boolean fun b => { p with asJson := some b }
  else if name = "timezone_offset_hours" then
    .once p.offsetHours Yaml.Reader.smallInteger fun i => { p with offsetHours := some i }
  else .unknown

/-- The section with its defaults filled in. -/
def complete (p : Partial) : LoggingConfig :=
  ⟨p.level.getD defaultLevel, p.asJson.getD false, p.offsetHours.getD defaultOffsetHours⟩

/-- Reads the section. -/
def reader : Yaml.Reader LoggingConfig :=
  Yaml.Reader.record {} member complete

end LoggingConfig

namespace GlobalConfig

/-- What a key of the section on the wallet means. -/
def walletMember (name : String) (p : Option String) : Yaml.Member (Option String) :=
  if name = "private_key" then .once p Yaml.Reader.text some else .unknown

/-- Reads the section on the wallet, which holds nothing but the private key. -/
def walletReader : Yaml.Reader String :=
  Yaml.Reader.record none walletMember fun p => p.getD ""

/-- Reads an address of a node: blanks around it do not count, and a blank one is none. -/
def urlReader : Yaml.Reader (Option String) := fun d n =>
  (Yaml.Reader.optionalText d n).map fun url => (url.bind Text.unlessBlank).map Text.trim

/-- A section of which some fields have been read. -/
structure Partial where
  rpcUrl : Option (Option String) := none
  commitment : Option String := none
  privateKey : Option String := none
  logging : Option LoggingConfig := none

/-- What a key of the section means. -/
def member (name : String) (p : Partial) : Yaml.Member Partial :=
  if name = "rpc_url" then
    .once p.rpcUrl urlReader fun u => { p with rpcUrl := some u }
  else if name = "commitment" then
    .once p.commitment Yaml.Reader.text fun t => { p with commitment := some t }
  else if name = "wallet" then
    .once p.privateKey walletReader fun t => { p with privateKey := some t }
  else if name = "logging" then
    .once p.logging LoggingConfig.reader fun l => { p with logging := some l }
  else .unknown

/-- The section with its defaults filled in. -/
def complete (p : Partial) : GlobalConfig :=
  ⟨p.rpcUrl.getD none, p.commitment.getD defaultCommitment, p.privateKey.getD "",
    p.logging.getD {}⟩

/-- Reads the section. -/
def reader : Yaml.Reader GlobalConfig :=
  Yaml.Reader.record {} member complete

end GlobalConfig

namespace ProgramConfig

/-- A section of which some fields have been read. -/
structure Partial where
  programId : Option String := none
  linkMint : Option (Option String) := none
  descriptionPath : Option (Option String) := none

/-- What a key of the section means. -/
def member (name : String) (p : Partial) : Yaml.Member Partial :=
  if name = "program_id" then
    .once p.programId Yaml.Reader.text fun t => { p with programId := some t }
  else if name = "link_mint" then
    .once p.linkMint Yaml.Reader.optionalText fun t => { p with linkMint := some t }
  else if name = "rdd_path" then
    .once p.descriptionPath Yaml.Reader.optionalText fun t => { p with descriptionPath := some t }
  else .unknown

/-- The section with its defaults filled in. -/
def complete (p : Partial) : ProgramConfig :=
  ⟨p.programId.getD defaultProgramId, p.linkMint.getD none, p.descriptionPath.getD none⟩

/-- Reads the section. -/
def reader : Yaml.Reader ProgramConfig :=
  Yaml.Reader.record {} member complete

end ProgramConfig

namespace Config

/-- A configuration of which some sections have been read. -/
structure Partial where
  global : Option GlobalConfig := none
  program : Option ProgramConfig := none

/-- What a key of the configuration means. -/
def member (name : String) (p : Partial) : Yaml.Member Partial :=
  if name = "global" then
    .once p.global GlobalConfig.reader fun g => { p with global := some g }
  else if name = "ocr2" then
    .once p.program ProgramConfig.reader fun o => { p with program := some o }
  else .unknown

/-- The configuration with its defaults filled in. -/
def complete (p : Partial) : Config :=
  ⟨p.global.getD {}, p.program.getD {}⟩

/-- Reads a configuration. -/
def reader : Yaml.Reader Config :=
  Yaml.Reader.record {} member complete

/-- The configuration that a YAML document holds. -/
def ofDocument (d : Yaml.Document) : Option Config :=
  Yaml.Reader.ofDocument reader d

/-- The configuration that a YAML text holds. -/
def ofYaml (s : String) : Option Config :=
  Yaml.Reader.parse reader s

/-- The configuration in the file at a path, where something has to be. -/
def read (files : Files) (path : String) : Except ConfigError Config :=
  match files.readText path with
  | .error e => .error (.unreadable path e)
  | .ok s =>
    match ofYaml s with
    | none => .error (.unparsable path)
    | some config => .ok config

/-- Where a configuration is looked for when no path is given. -/
def usualPaths : List String :=
  ["ocr2-payees.yaml", "config/ocr2-payees.yaml"]

/-- The configuration at the given path, or at the first of the usual ones where something is, or
the default one. -/
def load (files : Files) : Option String → Except ConfigError Config
  | some path => if files.exists? path then read files path else .error (.notFound path)
  | none =>
    match usualPaths.find? files.exists? with
    | some path => read files path
    | none => .ok {}

end Config

end PayeeProposal
