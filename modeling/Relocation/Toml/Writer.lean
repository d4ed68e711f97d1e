import Relocation.Toml.Strings

/-!
# Writing TOML strings

A string is written in the plainest quotes that hold it: double quotes if nothing in it needs an escape, else
single quotes, else three double ones, else three single ones. Only what fits none of these is written with
escapes, over several lines if it has line ends.
-/

namespace Relocation.Toml

/-! ### What is in a string -/

def runInFront (c : Char) : Text → Nat
  | [] => 0
  | d :: rest => if d = c then runInFront c rest + 1 else 0

/-- The length of the longest run of `c`. -/
def longestRun (c : Char) : Text → Nat
  | [] => 0
  | d :: rest => max (runInFront c (d :: rest)) (longestRun c rest)

/-- Whether the character can only be written by its number or a letter. -/
def needsCode (c : Char) : Bool :=
  c != '\t' && c != '\n' && (c.toNat < 0x20 || c.toNat == 0x7F)

/-- How a string is quoted. -/
inductive Quoting where
  | basic
  | literal
  | basicBlock
  | literalBlock
  deriving DecidableEq

/-- The plainest quotes that hold the string. -/
def quotingOf (t : Text) : Quoting :=
  let code := t.any needsCode
  let backslash := t.contains '\\'
  let newline := t.contains '\n'
  let doubles := longestRun basicQuote t
  let singles := longestRun literalQuote t
  if !code && !backslash && doubles == 0 && !newline then .basic
  else if !code && singles == 0 && !newline then .literal
  else if !code && !backslash && doubles ≤ 2 then .basicBlock
  else if !code && singles ≤ 2 then .literalBlock
  else if newline then .basicBlock
  else .basic

/-! ### Escapes -/

/-- The letter that stands for a character behind a backslash. -/
def letterFor? (c : Char) : Option Char :=
  if c = '\x08' then some 'b'
  else if c = '\t' then some 't'
  else if c = '\n' then some 'n'
  else if c = '\x0c' then some 'f'
  else if c = '\r' then some 'r'
  else if c = basicQuote then some basicQuote
  else if c = '\\' then some '\\'
  else none

/-- A character by a letter or by its number, or as it is. -/
def escape (c : Char) : Text :=
  match letterFor? c with
  | some letter => ['\\', letter]
  | none =>
    if c.toNat < 0x20 ∨ c.toNat = 0x7F then
      "\\u".toList ++ (padLeft '0' 4 (lowerHex c.toNat)).map Char.toUpper
    else [c]

def writeBasic (t : Text) : Text :=
  t.flatMap escape

/-- The text of a string between three double quotes: line ends stay, and so do quotes unless they would make
three in a row. -/
def writeBasicBlock : Nat → Text → Text
  | _, [] => []
  | quotes, c :: rest =>
    if c = basicQuote then
      if 2 ≤ quotes then ['\\', basicQuote] ++ writeBasicBlock 0 rest
      else basicQuote :: writeBasicBlock (quotes + 1) rest
    else if c = '\n' then '\n' :: writeBasicBlock 0 rest
    else escape c ++ writeBasicBlock 0 rest

/-! ### Strings -/

def tripled (quote : Char) : Text := [quote, quote, quote]

/-- A string in quotes. A string over several lines starts on a line of its own. -/
def writeString (t : Text) : Text :=
  let firstLine : Text := if t.contains '\n' then ['\n'] else []
  match quotingOf t with
  | .basic => basicQuote :: writeBasic t ++ [basicQuote]
  | .literal => literalQuote :: t ++ [literalQuote]
  | .basicBlock => tripled basicQuote ++ firstLine ++ writeBasicBlock 0 t ++ tripled basicQuote
  | .literalBlock => tripled literalQuote ++ firstLine ++ t ++ tripled literalQuote

/-- A pair of a key without quotes and a string, on a line of its own. -/
def writePair (key t : Text) : Text :=
  key ++ " = ".toList ++ writeString t ++ ['\n']

def writeHeader (name : Text) : Text :=
  '[' :: name ++ "]\n".toList

end Relocation.Toml
