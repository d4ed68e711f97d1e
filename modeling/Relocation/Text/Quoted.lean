import Relocation.Text.Printable
import Relocation.Text.Utf8

/-!
# Quoted text

Texts and paths appear in messages between double quotes, with everything that could be misread escaped. Text
escapes the double quote; a path escapes the single quote as well and shows bytes that are no text by number.
-/

namespace Relocation

/-- The character that opens and closes a quoted text. -/
def doubleQuote : Char := '\x22'

def singleQuote : Char := '\x27'

/-- A character by its number, in hexadecimal between braces. -/
def escapeByNumber (c : Char) : Text :=
  "\\u\x7b".toList ++ lowerHex c.toNat ++ "\x7d".toList

/-- One character inside quotes; `both` asks for the single quote to be escaped too. -/
def quoteChar (both : Bool) (c : Char) : Text :=
  if c = '\x00' then "\\0".toList
  else if c = '\t' then "\\t".toList
  else if c = '\r' then "\\r".toList
  else if c = '\n' then "\\n".toList
  else if c = '\\' then "\\\\".toList
  else if c = doubleQuote then ['\\', doubleQuote]
  else if c = singleQuote then (if both then ['\\', singleQuote] else [c])
  else if isAttaching c then escapeByNumber c
  else if isPrintable c then [c]
  else escapeByNumber c

def quoteText (t : Text) : Text :=
  doubleQuote :: t.flatMap (quoteChar false) ++ [doubleQuote]

def quotePiece : Utf8.Piece → Text
  | .scalar c => quoteChar true c
  | .broken run => run.flatMap fun b => "\\x".toList ++ upperHexByte b

def quoteBytes (bs : Bytes) : Text :=
  doubleQuote :: (Utf8.pieces bs).flatMap quotePiece ++ [doubleQuote]

/-- Quoting respects concatenation between the outer quotes. -/
theorem quoteText_append (s t : Text) :
    quoteText (s ++ t)
      = doubleQuote :: (s.flatMap (quoteChar false) ++ t.flatMap (quoteChar false)) ++ [doubleQuote] := by
  simp [quoteText]

end Relocation
