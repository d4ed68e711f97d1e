import Relocation.Assoc
import Relocation.Text.Basic

/-!
# TOML values

A document is a table of values. While it is being read, a table remembers how it came to be, because that decides
what may still be added to it: dotted keys extend only tables that dotted keys or longer headers made, and a header
opens a table only once.
-/

namespace Relocation.Toml

/-- How a table came to be. -/
inductive Shape where
  /-- Written between braces; nothing can be added. -/
  | closed
  /-- Made by a dotted key. -/
  | dotted
  /-- Made on the way to the table of a header. -/
  | implied
  /-- Opened by a header. -/
  | opened
  deriving DecidableEq

/-- A value. -/
inductive Value where
  | string (t : Text)
  | integer (n : Int)
  /-- A number with a fraction or an exponent, as it is spelled. -/
  | float (t : Text)
  | boolean (b : Bool)
  /-- A date, a time or both, as it is spelled. -/
  | moment (t : Text)
  | array (items : List Value)
  | table (shape : Shape) (entries : List (Text × Value))
  /-- The tables that headers in double brackets opened. -/
  | tables (items : List (List (Text × Value)))

abbrev Entries := List (Text × Value)

/-! ### Dotted keys -/

/-- Adds a value below a dotted key. `inside` says whether the table at hand was made by a dotted key; the last
table on the way has to be, unless the key has no dots. -/
def addBelow (key : Text) (v : Value) : Bool → List Text → Entries → Option Entries
  | inside, [], entries =>
    match inside, valueOf? key entries with
    | true, none => some (withValue key v entries)
    | _, _ => none
  | _, first :: path, entries =>
    match valueOf? first entries with
    | none => (addBelow key v true path []).map fun sub => withValue first (.table .dotted sub) entries
    | some (.table .dotted sub) =>
      (addBelow key v true path sub).map fun sub => withValue first (.table .dotted sub) entries
    | some (.table .implied sub) =>
      (addBelow key v false path sub).map fun sub => withValue first (.table .implied sub) entries
    | some (.tables items) =>
      match items.getLast? with
      | none => none
      | some last =>
        (addBelow key v false path last).map fun last =>
          withValue first (.tables (items.dropLast ++ [last])) entries
    | some _ => none

/-- Adds a value under a key, given as the names between its dots and the last one. -/
def addPair (path : List Text) (key : Text) (v : Value) (entries : Entries) : Option Entries :=
  addBelow key v (path = []) path entries

def addPairs : List (List Text × Text × Value) → Entries → Option Entries
  | [], entries => some entries
  | (path, key, v) :: rest, entries =>
    match addPair path key v entries with
    | some more => addPairs rest more
    | none => none

theorem addPair_plain (key : Text) (v : Value) (entries : Entries) (h : valueOf? key entries = none) :
    addPair [] key v entries = some (withValue key v entries) := by
  simp [addPair, addBelow, h]

/-! ### Headers -/

/-- Changes the table at a path of headers; tables missing on the way are made. -/
def changeAt (change : Entries → Option Entries) : List Text → Entries → Option Entries
  | [], entries => change entries
  | first :: path, entries =>
    match valueOf? first entries with
    | none => (changeAt change path []).map fun sub => withValue first (.table .implied sub) entries
    | some (.table .closed _) => none
    | some (.table shape sub) =>
      (changeAt change path sub).map fun sub => withValue first (.table shape sub) entries
    | some (.tables items) =>
      match items.getLast? with
      | none => none
      | some last =>
        (changeAt change path last).map fun last =>
          withValue first (.tables (items.dropLast ++ [last])) entries
    | some _ => none

/-- The part of a document under one header. -/
structure Block where
  path : List Text
  key : Text
  /-- Whether the header is in double brackets. -/
  repeated : Bool
  pairs : List (List Text × Text × Value)

/-- Opens the table of a block below its parent and fills it. -/
def openBlock (b : Block) (parent : Entries) : Option Entries :=
  if b.repeated then
    match valueOf? b.key parent with
    | none => (addPairs b.pairs []).map fun sub => withValue b.key (.tables [sub]) parent
    | some (.tables items) =>
      (addPairs b.pairs []).map fun sub => withValue b.key (.tables (items ++ [sub])) parent
    | some _ => none
  else
    match valueOf? b.key parent with
    | none => (addPairs b.pairs []).map fun sub => withValue b.key (.table .opened sub) parent
    | some (.table .implied sub) =>
      (addPairs b.pairs sub).map fun sub => withValue b.key (.table .opened sub) parent
    | some _ => none

def addBlocks : List Block → Entries → Option Entries
  | [], entries => some entries
  | b :: rest, entries =>
    match changeAt (openBlock b) b.path entries with
    | some more => addBlocks rest more
    | none => none

end Relocation.Toml
