import Relocation.InstallDir
import Relocation.NativePath

/-!
# What a command line can say

A command line names one command and may give it parameters. The parameters that choose the origin and the
configuration belong to the program and may stand anywhere; the others belong to one command.

* `Request`: what a well-formed command line asks for;
* `Verb` / `Parameter`: the words it is made of;
* `UsageError`: how a command line can be wrong, with the words that say so.
-/

namespace Relocation

/-- What the program is asked to do. -/
inductive Command where
  /-- To list every location. -/
  | list
  /-- To tell one directory, as a native path or as a URL. -/
  | directory (d : InstallDir) (asUrl : Bool)
  /-- To tell the origin. -/
  | origin
  deriving DecidableEq

/-- What a command line asks for. -/
structure Request where
  /-- The origin to use instead of the one that would be found. -/
  origin : Option Text
  /-- The configuration to use instead of the usual one. -/
  configFile : Option NativePath
  command : Command
  deriving DecidableEq

namespace CommandLine

/-! ### Words -/

/-- The first word of a command. -/
inductive Verb where
  | list
  | directory
  | origin
  | help
  deriving DecidableEq

def Verb.all : List Verb := [list, directory, origin, help]

def Verb.word : Verb → Text
  | list => "show".toList
  | directory => "dir".toList
  | origin => "origin".toList
  | help => "help".toList

def Verb.ofBytes? (arg : Bytes) : Option Verb :=
  all.find? fun v => Utf8.encode v.word == arg

/-- What can be given besides a command. -/
inductive Parameter where
  | origin
  | configFile
  | name
  | url
  | help
  deriving DecidableEq

namespace Parameter

/-- The parameters that are given by a word of their own. -/
def named : List Parameter := [origin, configFile, url, help]

/-- The word of a parameter; the name of a directory needs none. -/
def word : Parameter → Text
  | origin => "origin".toList
  | configFile => "config".toList
  | name => []
  | url => "url".toList
  | help => "help".toList

def ofWord? (w : Bytes) : Option Parameter :=
  named.find? fun p => Utf8.encode p.word == w

def takesValue : Parameter → Bool
  | origin | configFile | name => true
  | url | help => false

/-- The parameter as it is shown to the user. -/
def display : Parameter → Text
  | origin => "--origin <PATH|URI>".toList
  | configFile => "--config <FILE>".toList
  | name => "<NAME>".toList
  | url => "--url".toList
  | help => "--help".toList

end Parameter

/-! ### Errors -/

/-- Why a command line asks for nothing that can be done. -/
inductive UsageError where
  /-- It asks for help. -/
  | help
  /-- It says nothing, which is answered with help. -/
  | nothingSaid
  | noCommand
  | unknownCommand (word : Text)
  | unexpected (argument : Text)
  /-- A value is given to a parameter that takes none. -/
  | unneeded (value : Text) (p : Parameter)
  | noValue (p : Parameter)
  | repeated (p : Parameter)
  /-- A value that has to be text is none. -/
  | notText
  | unknownDirectory (name : Text)
  | noDirectory
  deriving DecidableEq

namespace UsageError

/-- What is said of the error; help says nothing of one. -/
def wording? : UsageError → Option Text
  | help => none
  | nothingSaid => none
  | noCommand => some "'binreloc' requires a subcommand but one was not provided".toList
  | unknownCommand w => some ("unrecognized subcommand '".toList ++ w ++ "'".toList)
  | unexpected a => some ("unexpected argument '".toList ++ a ++ "' found".toList)
  | unneeded v p =>
    some ("unexpected value '".toList ++ v ++ "' for '".toList ++ p.display
      ++ "' found; no more were expected".toList)
  | noValue p => some ("a value is required for '".toList ++ p.display ++ "' but none was supplied".toList)
  | repeated p => some ("the argument '".toList ++ p.display ++ "' cannot be used multiple times".toList)
  | notText => some "invalid UTF-8 was detected in one or more arguments".toList
  | unknownDirectory n =>
    some ("invalid value '".toList ++ n ++ "' for '".toList ++ Parameter.name.display ++ "': ".toList
      ++ InstallDir.unknownMessage n)
  | noDirectory => some "the following required arguments were not provided:".toList

def message? (e : UsageError) : Option Text :=
  e.wording?.map fun t => t.takeWhile fun c => c != '\n'

/-- The exit status: asking for help is no failure. -/
def status : UsageError → Nat
  | help => 0
  | _ => 2

theorem newline_not_mem_message? (e : UsageError) (t : Text) (h : e.message? = some t) : '\n' ∉ t := by
  unfold message? at h
  cases hw : e.wording? with
  | none => simp [hw] at h
  | some w =>
    simp only [hw, Option.map_some, Option.some.injEq] at h
    subst h
    intro hm
    have := List.all_takeWhile (p := fun c => c != '\n') (l := w)
    rw [List.all_eq_true] at this
    simpa using this _ hm

end UsageError

end CommandLine

end Relocation
