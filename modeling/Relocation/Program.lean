import Relocation.Answer
import Relocation.CommandLine.Reader
import Relocation.ConfigFile
import Relocation.Log.Filter
import Relocation.Trace

/-!
# A run of the program

A run starts the log, reads the command line, loads the configuration and answers the command, in this order; the
first step that fails ends it. What is left is a file system, what was written to the two output streams, and an
exit status: 0 for an answer, 1 for a failure, 2 for a command line that makes no sense.

The log is a file in the directory of the program's state. If it cannot be used, what would have been logged goes to
the error stream.
-/

namespace Relocation

open Log

/-- What a run finds. -/
structure World where
  files : FileSystem
  process : ProcessInfo
  environment : Environment
  workDir : NativePath
  /-- The time, as it is put in front of the lines of the log. -/
  stamp : Text

/-- What a run leaves. -/
structure Outcome where
  files : FileSystem
  /-- What is written to the output stream. -/
  output : Text
  /-- What is written to the error stream. -/
  errors : Text
  status : Nat

namespace Program

/-! ### The log -/

/-- Where the log goes. -/
inductive Sink where
  | file (path : NativePath)
  | errors
  deriving DecidableEq

/-- What has changed so far. -/
structure Progress where
  files : FileSystem
  errors : Text

/-- A log in use. -/
structure Logger where
  sink : Sink
  filter : Filter
  stamp : Text

namespace Logger

def lines (log : Logger) (events : List Event) : Text :=
  (events.filter log.filter.allows).flatMap (Event.line log.stamp)

def log (logger : Logger) (events : List Event) (p : Progress) : Progress :=
  match logger.sink with
  | .errors => { p with errors := p.errors ++ logger.lines events }
  | .file path =>
    match p.files.appendFile path (Utf8.encode (logger.lines events)) with
    | .ok written => { p with files := written }
    | .error _ => p

/-- A log on the error stream leaves all files alone. -/
theorem files_log_of_errors (logger : Logger) (events : List Event) (p : Progress) (h : logger.sink = .errors) :
    (logger.log events p).files = p.files := by
  simp [log, h]

/-- A log in a file leaves the error stream alone. -/
theorem errors_log_of_file (logger : Logger) (events : List Event) (p : Progress) (path : NativePath)
    (h : logger.sink = .file path) : (logger.log events p).errors = p.errors := by
  unfold log
  rw [h]
  dsimp only
  split <;> rfl

end Logger

def openLog (fs : FileSystem) (env : Environment) (workDir : NativePath) : FileSystem × Except FileError NativePath :=
  match env.refusal? with
  | some e => (fs, .error e)
  | none =>
    match fs.makeDirectories (workDir.join env.stateDirectory) with
    | (left, some e) => (left, .error e)
    | (ready, none) =>
      match ready.appendFile (workDir.join env.logFile) [] with
      | .ok opened => (opened, .ok env.logFile)
      | .error e => (ready, .error e)

def startLog (w : World) : Logger × Progress :=
  let filter := Filter.ofVariable w.environment.logFilter
  match openLog w.files w.environment w.workDir with
  | (opened, .ok path) =>
    let logger : Logger := ⟨.file (w.workDir.join path), filter, w.stamp⟩
    (logger, logger.log [Trace.logOpened path] ⟨opened, []⟩)
  | (left, .error e) =>
    let logger : Logger := ⟨.errors, filter, w.stamp⟩
    (logger, logger.log [Trace.logRefused e] ⟨left, []⟩)

/-! ### The steps behind it -/

/-- Why a run fails. -/
inductive Failure where
  | config (cause : ConfigError)
  | override (origin : Text) (cause : LocateError)
  | command (cause : CommandError)
  deriving DecidableEq

def Failure.message : Failure → Text
  | config cause => cause.fullMessage
  | override origin cause => Config.overrideMessage origin cause
  | command cause => cause.message

def Failure.report (f : Failure) : Text :=
  "binreloc error: ".toList ++ f.message ++ ['\n']

/-- The configuration file a request names, or else the usual one. -/
def loadConfig [Toml.Complaints] (w : World) (fs : FileSystem) (r : Request) :
    FileSystem × Except ConfigError Config.Loaded :=
  match r.configFile with
  | some path => (fs, (Config.load fs w.workDir path).map fun c => ⟨c, none⟩)
  | none => Config.loadOrCreate fs w.environment w.workDir

/-- Answers a command with a configuration in force. -/
def answer (w : World) (logger : Logger) (c : Config) (command : Command) (p : Progress) :
    Progress × Except Failure Text :=
  match c.provider p.files with
  | .error e => (p, .error (.override (c.origin.getD []) e))
  | .ok provider =>
    let l : Locator := ⟨⟨p.files, w.process⟩, provider⟩
    (logger.log (Trace.ofCommand l command) p, (command.answer l c.fallbacks.get).mapError .command)

/-- Carries out a request. -/
def carryOut [Toml.Complaints] (w : World) (logger : Logger) (r : Request) (p : Progress) :
    Progress × Except Failure Text :=
  match loadConfig w p.files r with
  | (files, .error e) => ({ p with files := files }, .error (.config e))
  | (files, .ok loaded) =>
    let c := loaded.config.withOrigin r.origin
    answer w logger c r.command (logger.log (Trace.ofConfig loaded.created c) { p with files := files })

/-- The outcome once it is known what a request leads to. -/
def conclude : Progress × Except Failure Text → Outcome
  | (p, .ok output) => ⟨p.files, output, p.errors, 0⟩
  | (p, .error f) => ⟨p.files, [], p.errors ++ f.report, 1⟩

/-! ### Wrong command lines -/

def usage : Text :=
  ("Usage: binreloc [--origin <PATH|URI>] [--config <FILE>] <COMMAND>\n\n"
    ++ "Commands:\n"
    ++ "  show                Print the origin, startup directory and every installation directory\n"
    ++ "  dir <NAME> [--url]  Print one installation directory\n"
    ++ "  origin              Print where the code was loaded from, or why it cannot be told\n").toList

/-- What a wrong command line leads to. Only a request for help is answered on the output stream. -/
def refuse (e : CommandLine.UsageError) (p : Progress) : Outcome :=
  match e with
  | .help => ⟨p.files, usage, p.errors, e.status⟩
  | _ =>
    let said := e.message?.elim [] fun t => "error: ".toList ++ t ++ "\n\n".toList
    ⟨p.files, [], p.errors ++ said ++ usage, e.status⟩

/-! ### The run -/

/-- A run with arguments, which do not hold the name of the program. -/
def run [Toml.Complaints] (w : World) (args : List Bytes) : Outcome :=
  let (logger, started) := startLog w
  match CommandLine.read args with
  | .error e => refuse e started
  | .ok r => conclude (carryOut w logger r started)

end Program

end Relocation
