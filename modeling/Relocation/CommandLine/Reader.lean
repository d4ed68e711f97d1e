import Relocation.CommandLine.Usage

/-!
# Reading a command line

Arguments are read one after the other, first in the scope of the program and, behind the word of a command, in the
scope of that command. What is given in the scope of a command wins over what is given before it.

A value is taken in two steps. An argument behind a parameter that waits for its value is set aside; it is checked
when the next parameter or the end of the scope comes, so an argument that is wrong in itself is reported before a
wrong value. A value attached to its parameter is checked at once.
-/

namespace Relocation.CommandLine

/-! ### Arguments -/

def dashByte : UInt8 := 0x2D

/-- The sign between a parameter and a value attached to it. -/
def equalsByte : UInt8 := 0x3D

/-- How an argument reads unless all that follows is taken literally. -/
inductive Argument where
  /-- Two dashes: all that follows is taken literally. -/
  | separator
  /-- Two dashes and a word, perhaps with a value. -/
  | long (word : Bytes) (value : Option Bytes)
  /-- One dash and letters. -/
  | short (letters : Bytes)
  | plain
  deriving DecidableEq

/-- How an argument reads; a single dash is nothing special. -/
def Argument.ofBytes : Bytes → Argument
  | first :: second :: rest =>
    if first ≠ dashByte then plain
    else if second ≠ dashByte then short (second :: rest)
    else if rest = [] then separator
    else
      match cutAt? equalsByte rest with
      | some (word, value) => long word (some value)
      | none => long rest none
  | _ => plain

/-! ### What has been given -/

/-- What has been given in one scope. -/
structure Given where
  origin : Option Text
  configFile : Option NativePath
  directory : Option InstallDir
  url : Bool
  deriving DecidableEq

namespace Given

def nothing : Given := ⟨none, none, none, false⟩

def has (g : Given) : Parameter → Bool
  | .origin => g.origin.isSome
  | .configFile => g.configFile.isSome
  | .name => g.directory.isSome
  | .url => g.url
  | .help => false

def withValue (g : Given) (value : Bytes) : Parameter → Except UsageError Given
  | .origin =>
    match Utf8.decode? value with
    | some t => .ok { g with origin := some t }
    | none => .error .notText
  | .configFile =>
    if value = [] then .error (.noValue .configFile) else .ok { g with configFile := some ⟨value⟩ }
  | .name =>
    match Utf8.decode? value with
    | none => .error .notText
    | some t =>
      match InstallDir.ofName? t with
      | some d => .ok { g with directory := some d }
      | none => .error (.unknownDirectory t)
  | .url => .ok { g with url := true }
  | .help => .error .help

/-- A parameter given once more, which must be for the first time. -/
def take (g : Given) (p : Parameter) (value : Bytes) : Except UsageError Given :=
  if g.has p then .error (.repeated p) else g.withValue value p

/-- What a request holds if a command with something given to it follows what is given before. -/
def request (outer inner : Given) (c : Command) : Request :=
  ⟨inner.origin.or outer.origin, inner.configFile.or outer.configFile, c⟩

end Given

/-! ### One scope -/

/-- Where an argument stands. -/
inductive Scope where
  /-- Before the command. -/
  | program
  /-- Behind the word of the command. -/
  | command (v : Verb)
  deriving DecidableEq

def Scope.offers : Scope → Parameter → Bool
  | _, .origin => true
  | _, .configFile => true
  | _, .help => true
  | s, .name => s == .command .directory
  | s, .url => s == .command .directory

/-- How far a scope has been read. -/
structure Reading where
  given : Given
  /-- The parameter not yet checked, and its value if there is one already. -/
  waiting : Option (Parameter × Option Bytes)
  /-- Whether all that follows is taken literally. -/
  literal : Bool
  deriving DecidableEq

namespace Reading

def start : Reading := ⟨.nothing, none, false⟩

/-- The parameter that is set aside is checked. -/
def settle (r : Reading) : Except UsageError Reading :=
  match r.waiting with
  | none => .ok r
  | some (p, none) => .error (.noValue p)
  | some (p, some value) =>
    match r.given.take p value with
    | .ok g => .ok { r with given := g, waiting := none }
    | .error e => .error e

/-- A parameter is checked at once. -/
def give (r : Reading) (p : Parameter) (value : Bytes) : Except UsageError Reading :=
  match r.settle with
  | .error e => .error e
  | .ok settled =>
    match settled.given.take p value with
    | .ok g => .ok { settled with given := g }
    | .error e => .error e

/-- A parameter is set aside. -/
def setAside (r : Reading) (p : Parameter) (value : Option Bytes) : Except UsageError Reading :=
  match r.settle with
  | .error e => .error e
  | .ok settled => .ok { settled with waiting := some (p, value) }

/-- The parameter whose value is still to come. -/
def needy? (r : Reading) : Option Parameter :=
  match r.waiting with
  | some (p, none) => some p
  | _ => none

/-- Whether a directory has been named. -/
def hasName (r : Reading) : Bool :=
  r.given.has .name || r.waiting.any fun pair => pair.1 == .name

/-- An argument that is no parameter and no value of one. -/
def literalArgument (s : Scope) (r : Reading) (arg : Bytes) : Except UsageError Reading :=
  match s with
  | .program =>
    if r.literal && (Verb.ofBytes? arg).isSome then .error (.unexpected (Utf8.lossy arg))
    else .error (.unknownCommand (Utf8.lossy arg))
  | .command _ =>
    if s.offers .name && !r.hasName then r.setAside .name (some arg)
    else .error (.unexpected (Utf8.lossy arg))

def longParameter (s : Scope) (r : Reading) (word : Bytes) (value : Option Bytes) : Except UsageError Reading :=
  let unknown : UsageError := .unexpected ("--".toList ++ Utf8.lossy word)
  match Parameter.ofWord? word with
  | none => .error unknown
  | some p =>
    if !s.offers p then .error unknown
    else if p.takesValue then
      match value with
      | some v => r.give p v
      | none => r.setAside p none
    else
      match value with
      | some v => .error (.unneeded (Utf8.lossy v) p)
      | none => r.give p []

/-- Letters behind one dash: only the one for help is known. -/
def shortParameter (r : Reading) (letters : Bytes) : Except UsageError Reading :=
  match Utf8.pieces letters with
  | .scalar 'h' :: _ => r.give .help []
  | .scalar c :: _ => .error (.unexpected ['-', c])
  | _ => .error (.unexpected ('-' :: Utf8.lossy letters))

def step (s : Scope) (r : Reading) (arg : Bytes) : Except UsageError Reading :=
  if r.literal then r.literalArgument s arg
  else
    match Argument.ofBytes arg with
    | .separator => .ok { r with literal := true }
    | .long word value => r.longParameter s word value
    | .short letters => r.shortParameter letters
    | .plain =>
      match r.needy? with
      | some p => .ok { r with waiting := some (p, some arg) }
      | none => r.literalArgument s arg

def steps (s : Scope) (r : Reading) : List Bytes → Except UsageError Reading
  | [] => r.settle
  | arg :: rest =>
    match r.step s arg with
    | .ok next => next.steps s rest
    | .error e => .error e

end Reading

/-! ### The whole -/

/-- The answer to a request for help on what the arguments name: commands have no commands of their own. -/
def readHelp : List Bytes → UsageError
  | [] => .help
  | arg :: rest =>
    match Verb.ofBytes? arg, rest with
    | none, _ => .unknownCommand (Utf8.lossy arg)
    | some _, [] => .help
    | some _, next :: _ => .unknownCommand (Utf8.lossy next)

/-- What is given behind the word of a command, and the command. -/
def readCommand (v : Verb) (args : List Bytes) : Except UsageError (Given × Command) :=
  match v with
  | .help => .error (readHelp args)
  | v =>
    match Reading.start.steps (.command v) args with
    | .error e => .error e
    | .ok r =>
      match v, r.given.directory with
      | .list, _ => .ok (r.given, .list)
      | .directory, some d => .ok (r.given, .directory d r.given.url)
      | .directory, none => .error .noDirectory
      | _, _ => .ok (r.given, .origin)

/-- The command an argument starts: none if it is the value of a parameter or taken literally. -/
def Reading.commandAt? (r : Reading) (arg : Bytes) : Option Verb :=
  if r.literal || r.needy?.isSome then none else Verb.ofBytes? arg

/-- Reads the arguments in the scope of the program up to the command, and the command. -/
def readProgram (r : Reading) : List Bytes → Except UsageError Request
  | [] =>
    match r.settle with
    | .error e => .error e
    | .ok settled => if settled.given = .nothing then .error .nothingSaid else .error .noCommand
  | arg :: rest =>
    match r.commandAt? arg with
    | some v =>
      match readCommand v rest with
      | .error e => .error e
      | .ok (inner, c) =>
        match r.settle with
        | .error e => .error e
        | .ok settled => .ok (settled.given.request inner c)
    | none =>
      match r.step .program arg with
      | .ok next => readProgram next rest
      | .error e => .error e

/-- The request of a command line, without the name of the program. -/
def read (args : List Bytes) : Except UsageError Request :=
  readProgram .start args

/-! ### Small facts -/

/-- Once nothing waits, checking changes nothing. -/
theorem Reading.settle_of_waiting_eq_none (r : Reading) (h : r.waiting = none) : r.settle = .ok r := by
  simp [settle, h]

theorem Reading.waiting_of_settle (r settled : Reading) (h : r.settle = .ok settled) : settled.waiting = none := by
  unfold settle at h
  split at h
  · next hw => cases h; exact hw
  · cases h
  · split at h
    · cases h; rfl
    · cases h

/-- A parameter can be given only once in a scope. -/
theorem Given.take_of_has (g : Given) (p : Parameter) (value : Bytes) (h : g.has p = true) :
    g.take p value = .error (.repeated p) := by
  simp [take, h]

end Relocation.CommandLine
