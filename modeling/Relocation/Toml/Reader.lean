import Relocation.Toml.Scalars

/-!
# Reading TOML

A document is read in two passes: its text becomes the pairs before the first header and one block for each
header, and these are put together to a table. Values inside each other are read with fuel, of which every step
takes one unit; a step takes at least every second character off the text, so the fuel the document starts with is
enough. How deep values may be inside each other is bounded by the language itself.
-/

namespace Relocation.Toml

/-! ### Between values -/

def dropSpaces (t : Text) : Text :=
  t.dropWhile isSpace

/-- The text without blanks, line ends and comments in front. -/
def dropFiller : Bool → Text → Text
  | false, '#' :: rest => dropFiller true rest
  | _, '\r' :: '\n' :: rest => dropFiller false rest
  | false, c :: rest => if isSpace c ∨ c = '\n' then dropFiller false rest else c :: rest
  | true, c :: rest =>
    if c = '\n' then dropFiller false rest else if isPlain c then dropFiller true rest else c :: rest
  | _, [] => []

/-- What follows the end of a line, before which blanks and a comment may stand. -/
def endLine? (t : Text) : Option Text :=
  let rest := match dropSpaces t with
    | '#' :: comment => comment.dropWhile isPlain
    | other => other
  match rest with
  | [] => some []
  | '\n' :: after => some after
  | '\r' :: '\n' :: after => some after
  | _ => none

/-! ### Keys -/

/-- Characters of a key without quotes. -/
def isKeyChar (c : Char) : Bool :=
  c.isAlphanum || c == '-' || c == '_'

/-- How deep values may be inside each other, and how many names a key may have. -/
def maxDepth : Nat := 79

def readName? (t : Text) : Option (Text × Text) :=
  match t.span isKeyChar with
  | ([], _) => readLineString? t
  | (name, rest) => some (name, rest)

/-- The names of a key, which dots separate; blanks around them do not count. -/
def readNames? : Nat → Text → Option (List Text × Text)
  | 0, _ => none
  | fuel + 1, t =>
    match readName? (dropSpaces t) with
    | none => none
    | some (name, rest) =>
      match dropSpaces rest with
      | '.' :: more => (readNames? fuel more).map fun (names, after) => (name :: names, after)
      | other => some ([name], other)

/-- A key: its names before the last one, and the last one. -/
def readKey? (t : Text) : Option ((List Text × Text) × Text) :=
  match readNames? maxDepth t with
  | none => none
  | some (names, rest) =>
    match names.getLast? with
    | some last => some ((names.dropLast, last), rest)
    | none => none

/-! ### Values -/

mutual

def readValue? : Nat → Nat → Text → Option (Value × Text)
  | 0, _, _ => none
  | fuel + 1, depth, t =>
    match t with
    | [] => none
    | c :: rest =>
      if c = '[' then
        match depth with
        | 0 => none
        | deeper + 1 => (readItems? fuel deeper rest).map fun (items, after) => (.array items, after)
      else if c = '\x7b' then
        match depth with
        | 0 => none
        | deeper + 1 =>
          match dropSpaces rest with
          | '\x7d' :: after => some (.table .closed [], after)
          | inner =>
            match readInline? fuel deeper inner with
            | none => none
            | some (pairs, after) => (addPairs pairs []).map fun entries => (.table .closed entries, after)
      else if c = basicQuote ∨ c = literalQuote then
        (readString? (c :: rest)).map fun (s, after) => (.string s, after)
      else readScalar? (c :: rest)

/-- Reads the rest of an array; a comma may precede its end. -/
def readItems? : Nat → Nat → Text → Option (List Value × Text)
  | 0, _, _ => none
  | fuel + 1, depth, t =>
    match dropFiller false t with
    | ']' :: after => some ([], after)
    | inner =>
      match readValue? fuel depth inner with
      | none => none
      | some (item, rest) =>
        match dropFiller false rest with
        | ']' :: after => some ([item], after)
        | ',' :: more => (readItems? fuel depth more).map fun (items, after) => (item :: items, after)
        | _ => none

/-- Reads the pairs of a table between braces, of which there is at least one. -/
def readInline? : Nat → Nat → Text → Option (List (List Text × Text × Value) × Text)
  | 0, _, _ => none
  | fuel + 1, depth, t =>
    match readKey? t with
    | some ((path, key), '=' :: afterKey) =>
      match readValue? fuel depth (dropSpaces afterKey) with
      | none => none
      | some (v, rest) =>
        match dropSpaces rest with
        | '\x7d' :: after => some ([(path, key, v)], after)
        | ',' :: more =>
          (readInline? fuel depth more).map fun (pairs, after) => ((path, key, v) :: pairs, after)
        | _ => none
    | _ => none

end

/-! ### Lines -/

/-- A line with content. -/
inductive Line where
  | pair (path : List Text) (key : Text) (v : Value)
  | header (path : List Text) (key : Text) (repeated : Bool)

def readPair? (fuel : Nat) (t : Text) : Option (Line × Text) :=
  match readKey? t with
  | some ((path, key), '=' :: rest) =>
    match readValue? fuel maxDepth (dropSpaces rest) with
    | none => none
    | some (v, after) => (endLine? after).map fun next => (.pair path key v, next)
  | _ => none

/-- Reads a header, behind its first bracket, up to the end of its line. -/
def readHeader? (t : Text) : Option (Line × Text) :=
  match t with
  | '[' :: rest =>
    match readKey? rest with
    | some ((path, key), ']' :: ']' :: after) => (endLine? after).map fun next => (.header path key true, next)
    | _ => none
  | _ =>
    match readKey? t with
    | some ((path, key), ']' :: after) => (endLine? after).map fun next => (.header path key false, next)
    | _ => none

/-- Reads a line, which may be empty or a comment, behind the blanks in front of it. -/
def readLine? (t : Text) : Option (Option Line × Text) :=
  match t with
  | '\n' :: next => some (none, next)
  | '\r' :: '\n' :: next => some (none, next)
  | '#' :: rest => (endLine? ('#' :: rest)).map fun next => (none, next)
  | '[' :: rest => (readHeader? rest).map fun (line, next) => (some line, next)
  | other => (readPair? (2 * other.length + 2) other).map fun (line, next) => (some line, next)

/-- Reads all lines; every one takes at least a character. -/
def readLines? : Nat → Text → Option (List Line)
  | 0, _ => none
  | fuel + 1, t =>
    match dropSpaces t with
    | [] => some []
    | c :: rest =>
      match readLine? (c :: rest) with
      | some (line, next) => (readLines? fuel next).map (line.toList ++ ·)
      | none => none

/-! ### Documents -/

/-- The pairs before the first header, and the blocks. -/
def blocksOf : List Line → List (List Text × Text × Value) × List Block
  | [] => ([], [])
  | .pair path key v :: rest =>
    let (pairs, blocks) := blocksOf rest
    ((path, key, v) :: pairs, blocks)
  | .header path key repeated :: rest =>
    let (pairs, blocks) := blocksOf rest
    ([], ⟨path, key, repeated, pairs⟩ :: blocks)

def dropMark (t : Text) : Text :=
  match t with
  | c :: rest => if c.toNat = 0xFEFF then rest else c :: rest
  | [] => []

def readDocument? (t : Text) : Option Entries :=
  match readLines? (t.length + 1) (dropMark t) with
  | none => none
  | some lines =>
    let (pairs, blocks) := blocksOf lines
    match addPairs pairs [] with
    | none => none
    | some root => addBlocks blocks root

end Relocation.Toml
