import JarCensus.CommandLine.Reader
import JarCensus.Program.Fault
import JarCensus.Report.Written

/-!
# Runs

A run reads its command line, finds and reads its configuration, does what the command
asks, and prints or saves the product. A fault ends the run with exit code one, and a
bad command line ends it before anything is read.
-/

namespace JarCensus.Program

/-- The variables that a run can look up. -/
abbrev Environment := String → Option String

/-- The variables that a run looks up. -/
def variableNames : List String :=
  [Config.pathVariable, Config.keyVariable, Config.seedVariable, "XDG_CONFIG_HOME", "HOME"]

/-- The folder of the user's configurations. A relative folder in the first variable does
not count. -/
def userFolder? (environment : Environment) : Option String :=
  match (environment "XDG_CONFIG_HOME").filter Path.isAbsolute with
  | some folder => some folder
  | none => ((environment "HOME").filter (· != "")).map (Path.join · ".config")

/-- The path of the user's own configuration. -/
def userConfig? (environment : Environment) : Option String :=
  (userFolder? environment).map fun folder =>
    Path.join (Path.join folder "entity-scan") "config.json"

/-- The path of the configuration: the one on the line, else that of the environment,
else that of the user if there is one. -/
def configPath? (fs : FileSystem) (environment : Environment) (line : CommandLine) :
    Option String :=
  match line.config, environment Config.pathVariable with
  | some path, _ => some path
  | none, some path => some path
  | none, none => (userConfig? environment).filter fs.pathExists

/-- The paths that a run follows. -/
def paths (environment : Environment) (line : CommandLine) : List String :=
  line.config.toList ++ (environment Config.pathVariable).toList ++
    (userConfig? environment).toList ++
    match line.command with
    | .scan archive dependencies _ output => archive :: dependencies ++ output.toList
    | .inspect classFile _ => [classFile]
    | .seal input output => [input, output]

/-- The configuration in the file at a path. -/
def configAt (fs : FileSystem) (path : String) : Except Config.FileFault Config :=
  match fs.read path with
  | .error cause => .error (.unreadable path cause.message)
  | .ok bytes => Config.ofBytes path bytes

/-- The configuration of a run. Variables go before the file, and the line goes before
both. -/
def configuration (fs : FileSystem) (environment : Environment) (line : CommandLine) :
    Except Config.FileFault Config := do
  let config ←
    match configPath? fs environment line with
    | some path => configAt fs path
    | none => pure .standard
  let config := config.applyEnvironment environment
  return { config with threads := line.threads <|> config.threads }

/-- Scans the entries of an archive and of the dependency jars. -/
def scan (fs : FileSystem) (pools : PoolBuilder) (config : Config) (archive : String)
    (dependencies : List String) : Except Fault CensusReport := do
  let session ← (config.session pools).mapError .start
  let own ← (Listing.atPath fs archive true).mapError .listing
  let (others, count) ← (Dependencies.entries fs dependencies).mapError .dependency
  let (session, _) := session.scan (own ++ others)
  return .ofSession archive count config.decryption.isSome session

/-- Inspects the class file at a path, as an entry of the same path unless another is
given. -/
def inspect (fs : FileSystem) (pools : PoolBuilder) (config : Config) (classFile : String)
    (path : Option String) : Except Fault ClassReport := do
  let raw ← (fs.read classFile).mapError (.unreadable classFile)
  let path := path.getD classFile
  let session ← (config.session pools).mapError .start
  let finding ←
    (Session.examine session.gate session.criteria path raw).mapError .entry
  return .ofInspection path (session.gate.isProtected path) finding

/-- The key that classes are encrypted with. -/
def sealingKey (config : Config) : Except SealError Decryption.Secret :=
  match config.decryption with
  | none => .error .noKey
  | some decryption =>
    match decryption.keyBytes with
    | .error fault => .error (.badKey fault)
    | .ok key => (Decryption.Secret.make key decryption.seed).mapError .setup

/-- Encrypts the class file at a path. The key is made before the file is read. -/
def sealFile (fs : FileSystem) (config : Config) (input : String) : Except Fault Bytes := do
  let key ← (sealingKey config).mapError .sealing
  let plain ← (fs.read input).mapError (.unreadable input)
  return Decryption.StandardCipher.encrypt key plain

/-- What a command yields. -/
inductive Product where
  /-- A scan report in a form, for a file or for printing. -/
  | scanned (report : CensusReport) (format : Format) (output : Option String)
  /-- A class report. -/
  | inspected (report : ClassReport)
  /-- An encrypted class for a file. -/
  | encrypted (bytes : Bytes) (output : String)

/-- Does what a command asks under a configuration. -/
def perform (fs : FileSystem) (pools : PoolBuilder) (config : Config) :
    Command → Except Fault Product
  | .scan archive dependencies format output => do
    return .scanned (← scan fs pools config archive dependencies) format output
  | .inspect classFile path => do return .inspected (← inspect fs pools config classFile path)
  | .seal input output => do return .encrypted (← sealFile fs config input) output

/-- Does what a command line asks. -/
def produce (fs : FileSystem) (pools : PoolBuilder) (environment : Environment)
    (line : CommandLine) : Except Fault Product := do
  let config ← (configuration fs environment line).mapError .config
  perform fs pools config line.command

/-- Saves bytes at a path. The folder of the path is made when it is missing, and stays also when
the file cannot be written. -/
def save (fs : FileSystem) (path : String) (content : Bytes) : FileSystem × Except Fault Unit :=
  let folder := (Path.parent? path).getD ""
  match fs.makeFolders folder with
  | (fs, .error cause) => (fs, .error (.cannotMakeFolder folder cause))
  | (fs, .ok ()) =>
    match fs.write path content with
    | .error cause => (fs, .error (.cannotWrite path cause))
    | .ok fs => (fs, .ok ())

/-- A text with a line break at its end. -/
def endLine (text : String) : String :=
  if text.toList.getLast? = some '\n' then text else text ++ "\n"

/-- Prints or saves a product that took the given milliseconds: the files afterwards, and the
printed text. -/
def deliver (fs : FileSystem) (duration : Nat) : Product → FileSystem × Except Fault String
  | .scanned report format none => (fs, .ok (endLine (report.write format duration)))
  | .scanned report format (some output) =>
    let (files, saved) := save fs output (report.write format duration).toUTF8.toList
    (files, saved.map fun _ => "")
  | .inspected report => (fs, .ok (report.toJson.pretty ++ "\n"))
  | .encrypted bytes output =>
    let (files, saved) := save fs output bytes
    (files, saved.map fun _ => "")

/-- How a run ends. -/
structure Ending where
  /-- The exit code. -/
  exitCode : Nat
  /-- What was printed. -/
  printed : String
  /-- What was said of a fault. -/
  complaint : String
  /-- The files after the run. -/
  files : FileSystem

/-- The end of a run whose command took the given milliseconds. -/
def finish (fs : FileSystem) (duration : Nat) : Except Fault Product → Ending
  | .error fault => ⟨1, "", fault.lastWords, fs⟩
  | .ok product =>
    match deliver fs duration product with
    | (files, .ok printed) => ⟨0, printed, "", files⟩
    | (files, .error fault) => ⟨1, "", fault.lastWords, files⟩

/-- Runs the arguments of a command line. A fault leaves all files as they were; a fault in saving
may leave new folders behind. -/
def run (fs : FileSystem) (environment : Environment) (duration : Nat)
    (arguments : List String) (pools : PoolBuilder := .unlimited) :
    Except UsageError Ending := do
  let line ← CommandLine.read arguments
  return finish fs duration (produce fs pools environment line)

end JarCensus.Program
