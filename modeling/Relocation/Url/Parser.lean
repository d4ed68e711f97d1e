import Relocation.Url.Host
import Relocation.Url.Path

/-!
# Reading URLs

The text is trimmed and its scheme read; what follows is read as the scheme asks. Characters that vanish do so
everywhere, so the readers below take the text without them wherever nothing depends on their place.
-/

namespace Relocation.Url

/-! ### Scheme -/

/-- Whether a character may stand in a scheme after its first one. -/
def isSchemeChar (c : Char) : Bool :=
  c.isAlphanum || c == '+' || c == '-' || c == '.'

/-- The rest of a scheme, read up to its colon, and what follows. -/
def readSchemeRest? : Text → Option (Text × Text)
  | [] => none
  | c :: rest =>
    if isSkipped c then readSchemeRest? rest
    else if c = ':' then some ([], rest)
    else if isSchemeChar c then (readSchemeRest? rest).map fun (scheme, after) => (c.toLower :: scheme, after)
    else none

/-- The scheme in lower case, and what follows its colon. -/
def readScheme? (t : Text) : Option (Text × Text) :=
  match t.dropWhile isSkipped with
  | c :: rest =>
    if c.isAlpha then (readSchemeRest? rest).map fun (scheme, after) => (c.toLower :: scheme, after) else none
  | [] => none

/-! ### Query and fragment -/

def endsPath (c : Char) : Bool :=
  c == '?' || c == '#'

/-- Query and fragment, from the text that follows the path. -/
def readAfterPath (kind : SchemeKind) (t : Text) : Option Text × Option Text :=
  let fragment := fun t => Percent.encodeText Percent.fragmentSet (unskipped t)
  let query := fun t =>
    Percent.encodeText (if kind.isSpecial then Percent.specialQuerySet else Percent.querySet) (unskipped t)
  match t with
  | '#' :: rest => (none, some (fragment rest))
  | '?' :: rest =>
    match cutAt? '#' rest with
    | some (before, after) => (some (query before), some (fragment after))
    | none => (some (query rest), none)
  | _ => (none, none)

/-- The text up to the end of the path, and what follows. -/
def cutPath (t : Text) : Text × Text :=
  t.span fun c => !endsPath c

/-! ### Authority -/

/-- User name and password; an empty password counts as none. -/
def readUser (t : Text) : Text × Option Text :=
  let encode := Percent.encodeText Percent.userinfoSet
  match cutAt? ':' t with
  | some (name, []) => (encode name, none)
  | some (name, password) => (encode name, some (encode password))
  | none => (encode t, none)

/-- The host of an authority, up to the colon before the port if there is one. -/
def cutHost (inside : Bool) : Text → Text × Text
  | [] => ([], [])
  | c :: rest =>
    if c = ':' ∧ inside = false then ([], c :: rest)
    else
      let (host, after) := cutHost (if c = '[' then true else if c = ']' then false else inside) rest
      (c :: host, after)

/-- A port: its number, unless it is the default one of the scheme. Whatever follows the digits must be the path
that a backslash begins. -/
def readPort (scheme : Text) (t : Text) : Except Error (Option Nat × Text) :=
  let (digits, rest) := t.span Char.isDigit
  match rest with
  | [] | '\\' :: _ =>
    match readDigits? 10 digits with
    | none => .ok (none, rest)
    | some n =>
      if 65535 < n then .error .invalidPort
      else .ok (if defaultPort? scheme = some n then none else some n, rest)
  | _ => .error .invalidPort

/-- Host and port, and what of the text already belongs to the path. -/
def readHostAndPort (scheme : Text) (t : Text) : Except Error (Option Host × Option Nat × Text) :=
  let kind := SchemeKind.ofScheme scheme
  let (hostText, rest) := cutHost false t
  if hostText = [] then
    if kind.isSpecial || rest != [] then .error .emptyHost else .ok (none, none, [])
  else
    match readHost kind hostText with
    | .error e => .error e
    | .ok host =>
      match rest with
      | ':' :: portText => (readPort scheme portText).map fun (port, after) => (some host, port, after)
      | _ => .ok (some host, none, [])

/-- User and host part of an authority, from its text. -/
def cutUser (t : Text) : (Text × Option Text) × Text :=
  match cutAtLast? '@' t with
  | some (before, after) => (readUser before, after)
  | none => (([], none), t)

/-- The whole authority from its text, without the characters that vanish, and what of it already belongs to the
path. A user needs a host; an empty user needs one, too, if anything follows the authority. -/
def readAuthority (scheme : Text) (t : Text) (followed : Bool) : Except Error (Authority × Text) :=
  if t = ['@'] ∧ followed then .error .emptyHost
  else
    let (user, hostText) := cutUser t
    match readHostAndPort scheme hostText with
    | .error e => .error e
    | .ok (host, port, early) =>
      if host = none ∧ (user.1 ≠ [] ∨ user.2 ≠ none) then .error .emptyHost
      else .ok (⟨user.1, user.2, host, port⟩, early)

def endsAuthority (kind : SchemeKind) (c : Char) : Bool :=
  isSeparator kind c || endsPath c

/-- The URL whose text after the slashes of its authority is `t`. -/
def readAfterSlashes (scheme : Text) (t : Text) : Except Error Url :=
  let kind := SchemeKind.ofScheme scheme
  let (authorityText, rest) := t.span fun c => !endsAuthority kind c
  match readAuthority scheme (unskipped authorityText) (rest != []) with
  | .error e => .error e
  | .ok (authority, early) =>
    let (pathText, after) := cutPath (early ++ rest)
    let (query, fragment) := readAfterPath kind after
    .ok ⟨scheme, some authority, .segments false (readSegments kind pathText), query, fragment⟩

/-! ### The three kinds of schemes -/

/-- A URL of a network scheme: any number of slashes before the authority. -/
def readNetwork (scheme : Text) (t : Text) : Except Error Url :=
  readAfterSlashes scheme (t.dropWhile fun c => isSkipped c || isSeparator .network c)

/-- The text after two separators, if it starts with them. -/
def dropTwoSeparators? (kind : SchemeKind) (t : Text) : Option Text :=
  match t.dropWhile isSkipped with
  | c :: rest =>
    if isSeparator kind c then
      match rest.dropWhile isSkipped with
      | d :: after => if isSeparator kind d then some after else none
      | [] => none
    else none
  | [] => none

/-- A path that would read as an authority needs a guard. -/
def needsGuard : List Text → Bool
  | [] :: _ :: _ => true
  | _ => false

/-- A URL of a plain scheme: an authority after two slashes, segments after one, anything else as it is. -/
def readPlain (scheme : Text) (t : Text) : Except Error Url :=
  match dropTwoSeparators? .plain t with
  | some rest => readAfterSlashes scheme rest
  | none =>
    let (pathText, after) := cutPath t
    let (query, fragment) := readAfterPath .plain after
    match pathText.dropWhile isSkipped with
    | '/' :: rest =>
      let list := (readTrail .plain rest).closed
      .ok ⟨scheme, none, .segments (needsGuard list) list, query, fragment⟩
    | _ => .ok ⟨scheme, none, .verbatim (Percent.encodeText Percent.controls (unskipped pathText)), query, fragment⟩

/-- The host of a `file` URL; none if it names this machine. -/
def readLocalHost (t : Text) : Except Error (Option Host) :=
  if t = [] then .ok none
  else
    match readSpecialHost t with
    | .error e => .error e
    | .ok host => .ok (if host = .domain "localhost".toList then none else some host)

/-- A `file` URL from its host on. A host is dropped if a drive letter follows it. -/
def readAfterHost (scheme : Text) (host : Option Host) (pathText : Text) (after : Text) : Url :=
  let (query, fragment) := readAfterPath .file after
  let trail := readTrail .file pathText
  ⟨scheme, some { Authority.empty with host := if trail.onDrive then none else host },
    .segments false trail.closed, query, fragment⟩

/-- A URL of the scheme of local files: a host after two slashes, unless it is a drive letter. -/
def readLocal (scheme : Text) (t : Text) : Except Error Url :=
  match dropTwoSeparators? .file t with
  | some rest =>
    let (hostText, remaining) := rest.span fun c => !endsAuthority .file c
    if isDriveLetter (unskipped hostText) then
      let (pathText, after) := cutPath rest
      .ok (readAfterHost scheme none pathText after)
    else
      match readLocalHost (unskipped hostText) with
      | .error e => .error e
      | .ok host =>
        let (pathText, after) := cutPath remaining
        .ok (readAfterHost scheme host (dropSeparator .file pathText) after)
  | none =>
    let (pathText, after) := cutPath t
    .ok (readAfterHost scheme none (dropSeparator .file pathText) after)

/-! ### The whole URL -/

/-- Characters that are dropped at both ends of a URL. -/
def isTrimmed (c : Char) : Bool :=
  c.toNat ≤ 0x20

def parse (t : Text) : Except Error Url :=
  match readScheme? (trimWhere isTrimmed t) with
  | none => .error .relativeWithoutBase
  | some (scheme, rest) =>
    match SchemeKind.ofScheme scheme with
    | .file => readLocal scheme rest
    | .network => readNetwork scheme rest
    | .plain => readPlain scheme rest

end Relocation.Url
