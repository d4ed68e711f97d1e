import Relocation.Text.Basic

/-!
# The memory map of a process

The kernel describes the mappings of a process line by line: bounds, permissions, four more fields and, for a
mapping of a file, its path, which may hold blanks. Two questions are answered from the text: which file the
process executes, and which file holds the code at an address.
-/

namespace Relocation

/-- A mapping of a file. -/
structure Mapping where
  start : Nat
  /-- The first address behind the mapping. -/
  stop : Nat
  permissions : Text
  path : Text
  deriving DecidableEq

namespace Mapping

def codePermissions : Text := "r-xp".toList

/-- What follows the path of a file that has been removed. -/
def deletedMark : Text := " (deleted)".toList

def isCode (m : Mapping) : Bool :=
  m.permissions == codePermissions

def holds (m : Mapping) (address : Nat) : Bool :=
  m.start ≤ address && address < m.stop

theorem holds_stop (m : Mapping) : m.holds m.stop = false := by
  simp [holds]

end Mapping

namespace MemoryMap

/-! ### Fields -/

/-- The first field of a line and what follows it; no field is empty. -/
def nextField? (t : Text) : Option (Text × Text) :=
  match t.dropWhile isBlank with
  | [] => none
  | rest => some (rest.span fun c => !isBlank c)

/-- Addresses are below this number. -/
def addressBound : Nat := Nat.pow 2 64

/-- An address in hexadecimal, which a plus sign may precede. -/
def readAddress? (t : Text) : Option Nat :=
  let digits := match t with
    | '+' :: rest => rest
    | other => other
  match readDigits? 16 digits with
  | some n => if n < addressBound then some n else none
  | none => none

/-- The bounds of a mapping, printed with the same width. -/
def readBounds? (t : Text) : Option (Nat × Nat) :=
  match cutAt? '-' t with
  | none => none
  | some (start, stop) =>
    if start.length ≠ stop.length then none
    else
      match readAddress? start, readAddress? stop with
      | some a, some b => some (a, b)
      | _, _ => none

/-! ### Lines -/

def isLineEnd (c : Char) : Bool :=
  c == '\n' || c == '\r'

/-- A path without the mark of a removed file. -/
def withoutMark (path : Text) : Text :=
  (stripEnd? Mapping.deletedMark path).getD path

/-- The mapping a line describes, if it is one of a file: its path starts at the first slash of the line. -/
def readLine? (line : Text) : Option Mapping :=
  let trimmed := trimEndWhere isLineEnd line
  match nextField? trimmed with
  | none => none
  | some (bounds, afterBounds) =>
    match nextField? afterBounds with
    | none => none
    | some (permissions, _) =>
      match readBounds? bounds, indexOf? (· == '/') trimmed with
      | some (start, stop), some slash =>
        if slash ≤ bounds.length then none
        else some ⟨start, stop, permissions, withoutMark (trimmed.drop slash)⟩
      | _, _ => none

/-- The line without a carriage return at its end. -/
def dropReturn (line : Text) : Text :=
  if line.getLast? = some '\r' then line.dropLast else line

/-- The lines of a text; what follows the last line end is a line unless it is empty. -/
def lines (t : Text) : List Text :=
  let pieces := splitOn '\n' t
  let ended := pieces.dropLast.map dropReturn
  match pieces.getLast? with
  | some last => if last = [] then ended else ended ++ [last]
  | none => ended

/-- The mappings of files, in the order of their lines. -/
def mappings (t : Text) : List Mapping :=
  (lines t).filterMap readLine?

/-! ### The two questions -/

/-- The file the process executes: the one on the first line, if some mapping of it holds code. -/
def executable? (t : Text) : Option Text :=
  match lines t with
  | [] => none
  | first :: _ =>
    match readLine? first with
    | none => none
    | some m => if (mappings t).any fun other => other.isCode && other.path == m.path then some m.path else none

/-- The file that holds the code at an address: the first one whose code is mapped there. -/
def moduleAt? (t : Text) (address : Nat) : Option Text :=
  ((mappings t).find? fun m => m.isCode && m.holds address).map Mapping.path

/-- The code at an address belongs to a mapping of the text. -/
theorem mem_of_moduleAt? (t : Text) (address : Nat) (path : Text) (h : moduleAt? t address = some path) :
    ∃ m ∈ mappings t, m.isCode = true ∧ m.holds address = true ∧ m.path = path := by
  unfold moduleAt? at h
  cases hf : (mappings t).find? fun m => m.isCode && m.holds address with
  | none => simp [hf] at h
  | some m =>
    have hp := List.find?_some hf
    have hm := List.mem_of_find?_eq_some hf
    simp [hf] at h
    simp at hp
    exact ⟨m, hm, hp.1, hp.2, h⟩

end MemoryMap

end Relocation
