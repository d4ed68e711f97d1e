import Relocation.Text.Utf8

/-!
# Log events

An event has a level, the part of the program it comes from, a message and named details. It is written as one line
behind the time it happened.
-/

namespace Relocation.Log

/-- How important an event is. -/
inductive Level where
  | error
  | warn
  | info
  | debug
  | trace
  deriving DecidableEq

namespace Level

def all : List Level := [error, warn, info, debug, trace]

def name : Level → Text
  | error => "ERROR".toList
  | warn => "WARN".toList
  | info => "INFO".toList
  | debug => "DEBUG".toList
  | trace => "TRACE".toList

/-- How many levels have to be let through to see this one. -/
def depth : Level → Nat
  | error => 1
  | warn => 2
  | info => 3
  | debug => 4
  | trace => 5

def nameWidth : Nat := 5

end Level

/-- Something that happened. -/
structure Event where
  level : Level
  /-- The part of the program it comes from. -/
  source : Text
  message : Text
  details : List (Text × Text)
  deriving DecidableEq

/-- A character of a message; those that could steer a terminal are written by number. -/
def writeChar (c : Char) : Text :=
  let n := c.toNat
  if n = 0x07 ∨ n = 0x08 ∨ n = 0x0C ∨ n = 0x1B ∨ n = 0x7F then "\\x".toList ++ padLeft '0' 2 (lowerHex n)
  else if 0x80 ≤ n ∧ n ≤ 0x9F then "\\u\x7b".toList ++ lowerHex n ++ ['\x7d']
  else [c]

namespace Event

def writeDetail (d : Text × Text) : Text :=
  ' ' :: d.1 ++ '=' :: d.2

def text (e : Event) : Text :=
  padLeft ' ' Level.nameWidth e.level.name ++ ' ' :: e.source ++ ": ".toList ++ e.message.flatMap writeChar
    ++ e.details.flatMap writeDetail

def line (stamp : Text) (e : Event) : Text :=
  stamp ++ ' ' :: (e.text ++ ['\n'])

end Event

end Relocation.Log
