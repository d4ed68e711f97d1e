import Relocation.Log.Event

/-!
# Which events are logged

A filter is written as rules with commas between them. A rule names a level, a source, or a source and a level; a
source stands for every source whose name it begins. The rule with the longest matching source decides, and of two
rules for one source the later one. No level is let through where no rule matches.

A rule may also name a span of the program in brackets; as no event happens in one, such a rule decides nothing.
-/

namespace Relocation.Log

/-- How far down the levels are let through; zero lets nothing through. -/
abbrev Depth := Nat

/-- The depth that lets everything through. -/
def fullDepth : Depth := 5

/-- A rule for the sources whose name begins in a way. -/
structure Rule where
  source : Text
  depth : Depth
  deriving DecidableEq

/-- The rules of a filter. -/
structure Filter where
  rules : List Rule
  deriving DecidableEq

/-! ### Deciding -/

namespace Filter

/-- The better of two rules: the one with the longer source, and the later one if they are equally long. -/
def better (r : Rule) : Option Rule → Rule
  | none => r
  | some later => if later.source.length < r.source.length then r else later

def rule? (source : Text) : List Rule → Option Rule
  | [] => none
  | r :: rest => if r.source.isPrefixOf source then some (better r (rule? source rest)) else rule? source rest

/-- How far down the levels are let through for a source. -/
def depthOf (f : Filter) (source : Text) : Depth :=
  match rule? source f.rules with
  | some r => r.depth
  | none => 0

def allows (f : Filter) (e : Event) : Bool :=
  e.level.depth ≤ f.depthOf e.source

/-! ### Reading -/

/-- A number, which a plus sign may precede. -/
def readNumber? : Text → Option Nat
  | '+' :: digits => readDigits? 10 digits
  | digits => readDigits? 10 digits

/-- The depth a word names: a number, the name of a level in any case, or the word for nothing. -/
def readDepth? (t : Text) : Option Depth :=
  match readNumber? t with
  | some n => if n ≤ fullDepth then some n else none
  | none =>
    let word := lowerAscii t
    if word = "off".toList then some 0
    else (Level.all.find? fun l => lowerAscii l.name == word).map Level.depth

/-- Whether a rule may begin with the character; beyond ASCII any one is taken for a letter. -/
def startsRule (c : Char) : Bool :=
  c == '-' || c == ':' || c == '_' || c == '[' || c.isAlphanum || 0x80 ≤ c.toNat

/-- The rules a part of the text stands for: one, none if it names a span, or it is wrong. -/
def readRule? (part : Text) : Option (List Rule) :=
  let t := trimWhere isBlank part
  match t with
  | [] => some [⟨[], fullDepth⟩]
  | first :: _ =>
    if !startsRule first then none
    else if (t.takeWhile fun c => c != '=').contains '[' then some []
    else
      match cutAt? '=' t with
      | none =>
        match readDepth? t with
        | some d => some [⟨[], d⟩]
        | none => some [⟨t, fullDepth⟩]
      | some (source, []) => some [⟨source, fullDepth⟩]
      | some (source, level) => (readDepth? level).map fun d => [⟨source, d⟩]

def readRules? : List Text → Option (List Rule)
  | [] => some []
  | part :: rest =>
    match readRule? part, readRules? rest with
    | some rules, some more => some (rules ++ more)
    | _, _ => none

/-- The filter a text describes. A text without any rule lets errors through. -/
def read? (t : Text) : Option Filter :=
  match (splitOn ',' t).filter fun part => part != [] with
  | [] => some ⟨[⟨[], Level.error.depth⟩]⟩
  | parts => (readRules? parts).map Filter.mk

/-- The filter used if none is described. -/
def usual : Filter :=
  ⟨[⟨[], Level.info.depth⟩, ⟨"binreloc".toList, Level.debug.depth⟩, ⟨"binreloc_core".toList, Level.debug.depth⟩]⟩

/-- The filter a variable describes, or the usual one if it describes none. -/
def ofVariable (v : Option Bytes) : Filter :=
  match v.bind Utf8.decode? with
  | some t => (read? t).getD usual
  | none => usual

example : read? "info,binreloc=debug,binreloc_core=debug".toList = some usual := by decide

end Filter

end Relocation.Log
