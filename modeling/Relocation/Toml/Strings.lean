import Relocation.Text.Basic

/-!
# TOML strings

A string is quoted once or three times, with double quotes (escapes count) or single quotes (they do not). Each
reader below starts behind the opening quotes and gives the string and what follows the closing ones.
-/

namespace Relocation.Toml

abbrev StringRead := Option (Text × Text)

/-- Puts characters in front of the string that was read. -/
def StringRead.after (out : Text) : StringRead → StringRead
  | some (t, rest) => some (out ++ t, rest)
  | none => none

def basicQuote : Char := '\x22'

def literalQuote : Char := '\x27'

/-- Characters that may stand in a comment or, quotes and backslash aside, in a string. -/
def isPlain (c : Char) : Bool :=
  c == '\t' || (0x20 ≤ c.toNat && c.toNat ≤ 0x7E) || 0x80 ≤ c.toNat

/-- Characters that separate the parts of a line. -/
def isSpace (c : Char) : Bool :=
  c == ' ' || c == '\t'

/-! ### Escapes -/

/-- The character that a letter behind a backslash stands for. -/
def escaped? (c : Char) : Option Char :=
  if c = 'b' then some '\x08'
  else if c = 't' then some '\t'
  else if c = 'n' then some '\n'
  else if c = 'f' then some '\x0c'
  else if c = 'r' then some '\r'
  else if c = basicQuote then some basicQuote
  else if c = '\\' then some '\\'
  else none

/-- How many digits follow a letter behind a backslash that asks for a character by number. -/
def digitsAfter? (c : Char) : Option Nat :=
  if c = 'u' then some 4 else if c = 'U' then some 8 else none

def charOf? (n : Nat) : Option Char :=
  if n < 0xD800 ∨ (0xDFFF < n ∧ n < 0x110000) then some (Char.ofNat n) else none

/-! ### One line -/

/-- Where the reader of a string on one line stands. -/
inductive LineState where
  | plain
  /-- Behind a backslash. -/
  | escape
  /-- In a number with some digits left. -/
  | number (left : Nat) (value : Nat)
  deriving DecidableEq

def readBasic : LineState → Text → StringRead
  | _, [] => none
  | .plain, c :: rest =>
    if c = basicQuote then some ([], rest)
    else if c = '\\' then readBasic .escape rest
    else if isPlain c then StringRead.after [c] (readBasic .plain rest)
    else none
  | .escape, c :: rest =>
    match escaped? c, digitsAfter? c with
    | some d, _ => StringRead.after [d] (readBasic .plain rest)
    | none, some n => readBasic (.number n 0) rest
    | none, none => none
  | .number left value, c :: rest =>
    match digitIn? 16 c with
    | none => none
    | some d =>
      if left ≤ 1 then
        match charOf? (16 * value + d) with
        | some e => StringRead.after [e] (readBasic .plain rest)
        | none => none
      else readBasic (.number (left - 1) (16 * value + d)) rest

def readLiteral : Text → StringRead
  | [] => none
  | c :: rest =>
    if c = literalQuote then some ([], rest)
    else if isPlain c then StringRead.after [c] (readLiteral rest)
    else none

/-! ### Several lines -/

/-- Where the reader of a string over several lines stands. -/
inductive BlockState where
  /-- Behind some quotes in a row, which may or may not be closing ones. -/
  | body (quotes : Nat)
  /-- Behind a backslash. -/
  | escape
  /-- In a number with some digits left. -/
  | number (left : Nat) (value : Nat)
  /-- Behind a carriage return. -/
  | lineEnd
  /-- Behind a backslash and blanks; the line must end. -/
  | folding
  /-- Behind a backslash, blanks and a carriage return. -/
  | foldingEnd
  /-- Behind a folded line end; blanks and line ends are dropped. -/
  | folded
  /-- Behind a carriage return that is being dropped. -/
  | foldedEnd
  deriving DecidableEq

/-- One character of a string over several lines: what it adds, and where the reader stands then. -/
def blockStep (quote : Char) (escapes : Bool) : BlockState → Char → Option (Text × BlockState)
  | .body n, c =>
    if c = quote then some ([], .body (n + 1))
    else
      let open_ := List.replicate n quote
      if c = '\\' ∧ escapes then some (open_, .escape)
      else if c = '\n' then some (open_ ++ ['\n'], .body 0)
      else if c = '\r' then some (open_, .lineEnd)
      else if isPlain c then some (open_ ++ [c], .body 0)
      else none
  | .escape, c =>
    if isSpace c then some ([], .folding)
    else if c = '\n' then some ([], .folded)
    else if c = '\r' then some ([], .foldingEnd)
    else
      match escaped? c, digitsAfter? c with
      | some d, _ => some ([d], .body 0)
      | none, some n => some ([], .number n 0)
      | none, none => none
  | .number left value, c =>
    match digitIn? 16 c with
    | none => none
    | some d =>
      if left ≤ 1 then (charOf? (16 * value + d)).map fun e => ([e], .body 0)
      else some ([], .number (left - 1) (16 * value + d))
  | .lineEnd, c => if c = '\n' then some (['\n'], .body 0) else none
  | .folding, c =>
    if isSpace c then some ([], .folding)
    else if c = '\n' then some ([], .folded)
    else if c = '\r' then some ([], .foldingEnd)
    else none
  | .foldingEnd, c => if c = '\n' then some ([], .folded) else none
  | .folded, c =>
    if isSpace c ∨ c = '\n' then some ([], .folded)
    else if c = '\r' then some ([], .foldedEnd)
    else if c = quote then some ([], .body 1)
    else if c = '\\' ∧ escapes then some ([], .escape)
    else if isPlain c then some ([c], .body 0)
    else none
  | .foldedEnd, c => if c = '\n' then some ([], .folded) else none

/-- Whether three quotes have been seen and the next character is no further one that could belong to them: the
string may end in up to two quotes of its own. -/
def isClosed (quote : Char) : BlockState → Text → Bool
  | .body n, [] => 3 ≤ n
  | .body n, c :: _ => 3 ≤ n && (c != quote || n == 5)
  | _, _ => false

/-- The quotes of its own with which a string ends. -/
def ownQuotes (quote : Char) : BlockState → Text
  | .body n => List.replicate (n - 3) quote
  | _ => []

def readBlock (quote : Char) (escapes : Bool) : BlockState → Text → StringRead
  | s, [] => if isClosed quote s [] then some (ownQuotes quote s, []) else none
  | s, c :: rest =>
    if isClosed quote s (c :: rest) then some (ownQuotes quote s, c :: rest)
    else
      match blockStep quote escapes s c with
      | some (out, next) => StringRead.after out (readBlock quote escapes next rest)
      | none => none

def dropLineEnd (t : Text) : Text :=
  match t with
  | '\n' :: rest => rest
  | '\r' :: '\n' :: rest => rest
  | _ => t

def readString? (t : Text) : StringRead :=
  match t with
  | a :: b :: c :: rest =>
    if a = basicQuote ∧ b = basicQuote ∧ c = basicQuote then readBlock basicQuote true (.body 0) (dropLineEnd rest)
    else if a = literalQuote ∧ b = literalQuote ∧ c = literalQuote then
      readBlock literalQuote false (.body 0) (dropLineEnd rest)
    else if a = basicQuote then readBasic .plain (b :: c :: rest)
    else if a = literalQuote then readLiteral (b :: c :: rest)
    else none
  | a :: rest =>
    if a = basicQuote then readBasic .plain rest
    else if a = literalQuote then readLiteral rest
    else none
  | [] => none

def readLineString? : Text → StringRead
  | [] => none
  | a :: rest =>
    if a = basicQuote then readBasic .plain rest
    else if a = literalQuote then readLiteral rest
    else none

end Relocation.Toml
