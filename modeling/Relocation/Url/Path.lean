import Relocation.Url.Basic

/-!
# Reading paths

The text of a path is cut into segments at slashes (and backslashes, for special schemes) and read from left to
right. `..` takes back the segment before it, `.` adds none, both also when their dots are spelled `%2e`; at the
end of a path they leave an empty segment. Tabs and line ends vanish, and what may not stand in a path is escaped.

A segment that starts like a drive letter is never taken back. In `file` URLs a first segment that is a drive
letter gets a colon, and empty segments in front of all others are dropped.
-/

namespace Relocation.Url

/-! ### Characters -/

/-- Characters that vanish wherever they stand in a URL. -/
def isSkipped (c : Char) : Bool :=
  c == '\t' || c == '\n' || c == '\r'

def unskipped (t : Text) : Text :=
  t.filter fun c => !isSkipped c

def isSeparator (kind : SchemeKind) (c : Char) : Bool :=
  c == '/' || (kind.isSpecial && c == '\\')

/-- The raw segments of a path, whose leading slash has been taken off. -/
def rawSegments (kind : SchemeKind) (t : Text) : List Text :=
  splitOn '/' (t.map fun c => if isSeparator kind c then '/' else c)

/-- A raw segment as it is spelled in a URL, its meaning aside. -/
def tidySegment (raw : Text) : Text :=
  Percent.encodeText Percent.pathSet (unskipped raw)

/-! ### Dots and drive letters -/

/-- The text with every `%2e` read as a dot. -/
def dots : Text → Text
  | '%' :: '2' :: 'e' :: rest => '.' :: dots rest
  | '%' :: '2' :: 'E' :: rest => '.' :: dots rest
  | c :: rest => c :: dots rest
  | [] => []

/-- Whether the segment stays where it is. -/
def isSingleDot (segment : Text) : Bool :=
  dots segment == ['.']

/-- Whether the segment goes one up. -/
def isDoubleDot (segment : Text) : Bool :=
  dots segment == ['.', '.']

/-- Whether the two characters are a drive letter and its mark. -/
def isDrivePair (letter sign : Char) : Bool :=
  letter.isAlpha && (sign == ':' || sign == '|')

/-- Whether the segment is a drive letter and nothing else. -/
def isDriveLetter : Text → Bool
  | [letter, sign] => isDrivePair letter sign
  | _ => false

/-- Whether the segment starts with a drive letter that stands by itself. -/
def startsWithDriveLetter : Text → Bool
  | [letter, sign] => isDrivePair letter sign
  | letter :: sign :: next :: _ => isDrivePair letter sign && next == '\\'
  | _ => false

/-- The segments with the last one taken back, unless it starts like a drive letter. -/
def takeBack (closed : List Text) : List Text :=
  match closed.getLast? with
  | some last => if startsWithDriveLetter last then closed else closed.dropLast
  | none => closed

/-- A raw segment in which a vanishing character follows directly on a drive letter with its colon and something
else follows later: the drive letter, and the rest. -/
def splitDrive? (raw : Text) : Option (Text × Text) :=
  match raw.dropWhile isSkipped with
  | letter :: afterLetter =>
    match afterLetter.dropWhile isSkipped with
    | ':' :: next :: rest =>
      if letter.isAlpha && isSkipped next && unskipped rest != [] then some ([letter, ':'], unskipped rest)
      else none
    | _ => none
  | [] => none

/-! ### Reading -/

/-- How far a path has been read. -/
structure Trail where
  /-- The segments so far. -/
  closed : List Text
  /-- Whether the first segment of a `file` path was a drive letter. -/
  onDrive : Bool
  deriving DecidableEq

/-- What a segment does to the path. -/
inductive Move where
  | up
  | stay
  | into (segments : List Text) (drive : Bool)
  deriving DecidableEq

/-- What a raw segment does to the path. -/
def moveOf (kind : SchemeKind) (closed : List Text) (raw : Text) : Move :=
  let first := kind == .file && closed == []
  match (if first then splitDrive? raw else none) with
  | some (drive, rest) => .into [drive, Percent.encodeText Percent.pathSet rest] false
  | none =>
    let segment := tidySegment raw
    if isDoubleDot segment then .up
    else if isSingleDot segment then .stay
    else if first && isDriveLetter segment then .into [segment.take 1 ++ [':']] true
    else .into [segment] false

def Trail.close (kind : SchemeKind) (trail : Trail) (raw : Text) : Trail :=
  match moveOf kind trail.closed raw with
  | .up => { trail with closed := takeBack trail.closed }
  | .stay => trail
  | .into segments drive => ⟨trail.closed ++ segments, trail.onDrive || drive⟩

def Trail.finish (kind : SchemeKind) (trail : Trail) (raw : Text) : Trail :=
  match moveOf kind trail.closed raw with
  | .up => { trail with closed := takeBack trail.closed ++ [[]] }
  | .stay => { trail with closed := trail.closed ++ [[]] }
  | .into segments drive => ⟨trail.closed ++ segments, trail.onDrive || drive⟩

def Trail.readAll (kind : SchemeKind) (trail : Trail) : List Text → Trail
  | [] => trail
  | [last] => trail.finish kind last
  | raw :: rest => (trail.close kind raw).readAll kind rest

/-- The segments without the empty ones in front of another one. -/
def dropLeadingEmpty : List Text → List Text
  | [] :: next :: rest => dropLeadingEmpty (next :: rest)
  | list => list

/-- A path read from its text, whose leading slash has been taken off. -/
def readTrail (kind : SchemeKind) (t : Text) : Trail :=
  let trail := Trail.readAll kind ⟨[], false⟩ (rawSegments kind t)
  if kind = .file then { trail with closed := dropLeadingEmpty trail.closed } else trail

def dropSeparator (kind : SchemeKind) (t : Text) : Text :=
  match t.dropWhile isSkipped with
  | c :: rest => if isSeparator kind c then rest else t
  | [] => []

/-- The segments of a path. Only a special scheme turns the empty text into a path. -/
def readSegments (kind : SchemeKind) (t : Text) : List Text :=
  if !kind.isSpecial && unskipped t == [] then []
  else (readTrail kind (dropSeparator kind t)).closed

/-! ### Replacing the path -/

/-- The URL with another path. The guard stays as it was, and nothing but the path changes; a path not made of
segments is kept. -/
def withPath (u : Url) (t : Text) : Url :=
  match u.path with
  | .verbatim _ => u
  | .segments guarded _ => { u with path := .segments guarded (readSegments u.kind t) }

/-- Replacing the path leaves everything before it as it was. -/
theorem beforePath_withPath (u : Url) (t : Text) : (u.withPath t).beforePath = u.beforePath := by
  unfold withPath
  split <;> rfl

/-- Replacing the path leaves everything after it as it was. -/
theorem afterPath_withPath (u : Url) (t : Text) : (u.withPath t).afterPath = u.afterPath := by
  unfold withPath
  split <;> rfl

/-- Replacing the path changes neither scheme nor authority nor query nor fragment. -/
theorem parts_withPath (u : Url) (t : Text) :
    (u.withPath t).scheme = u.scheme ∧ (u.withPath t).authority = u.authority
      ∧ (u.withPath t).query = u.query ∧ (u.withPath t).fragment = u.fragment := by
  unfold withPath
  split <;> exact ⟨rfl, rfl, rfl, rfl⟩

end Relocation.Url
