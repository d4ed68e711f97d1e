import Relocation.Toml.Reader

/-!
# What is said of a text that is no configuration

The library that reads TOML explains why it does not take a text: it tells the place of the fault, shows the line and
says what it expected there. Nothing a program does depends on these words but its report, so they are a parameter
wherever a report is made.

What runs has the words for one fault, a line that breaks off behind a name without quotes, such as a line of a log.
Of every other fault it says only that there is one.
-/

namespace Relocation.Toml

/-- The words of the library. -/
class Complaints where
  /-- What is said of a text that cannot be read, or not as what it should say. -/
  about : Text → Text

/-! ### A line that breaks off -/

/-- The text from the first line on that cannot be read. -/
def unreadFrom? : Nat → Text → Option Text
  | 0, _ => none
  | fuel + 1, t =>
    match dropSpaces t with
    | [] => none
    | c :: rest =>
      match readLine? (c :: rest) with
      | some (_, next) => unreadFrom? fuel next
      | none => some t

/-- How many characters stand before the place where a line breaks off behind a name. -/
def brokenOff? (line : Text) : Option Nat :=
  match line.span isKeyChar with
  | ([], _) => none
  | (name, c :: _) => if isSpace c ∨ c = '.' ∨ c = '=' then none else some name.length
  | (name, []) => some name.length

/-- The fault shown in its line, which is counted from one. -/
def pointAt (number column : Nat) (line : Text) : Text :=
  let margin := List.replicate ((decimal number).length + 1) ' ' ++ ['|']
  " at line ".toList ++ decimal number ++ ", column ".toList ++ decimal (column + 1) ++ ['\n']
    ++ margin ++ ['\n']
    ++ decimal number ++ " | ".toList ++ line ++ ['\n']
    ++ margin ++ List.replicate (column + 1) ' ' ++ "^\n".toList

/-- Where a text breaks off behind a name, and what was expected there. A fault in what the lines before it say
together would have been found first. -/
def faultIn? (t : Text) : Option Text :=
  match unreadFrom? (t.length + 1) t with
  | none => none
  | some rest =>
    let before := t.take (t.length - rest.length)
    let line := rest.takeWhile (· != '\n')
    match readDocument? before, brokenOff? line with
    | some _, some column =>
      some (pointAt (before.count '\n' + 1) column line ++ "expected \x60.\x60, \x60=\x60\n".toList)
    | _, _ => none

instance : Complaints where
  about t := "TOML parse error".toList ++ (faultIn? t).getD []

end Relocation.Toml
