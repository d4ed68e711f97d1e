import Relocation.NativePath
import Relocation.Url.Parser

/-!
# URLs and native paths

A native path becomes a `file` URL name by name, with everything escaped that would not stay inside its segment;
a URL without a host becomes a native path by decoding its segments. A path that would end in a bare drive letter
gets a slash.
-/

namespace Relocation.Url

/-! ### From a native path -/

/-- The segments that spell the names of a path. A directory has an empty segment behind its names; so has the
root, which has no names. -/
def segmentsOfNames (names : List Bytes) (directory : Bool) : List Text :=
  let spelled := names.map (Percent.encode Percent.nameSet)
  if spelled = [] ∨ directory then spelled ++ [[]] else spelled

/-- The `file` URL of an absolute path. -/
def ofNativePath? (p : NativePath) (directory : Bool) : Option Url :=
  if p.isAbsolute then
    some ⟨"file".toList, some Authority.empty, .segments false (segmentsOfNames p.names directory), none, none⟩
  else none

theorem ofNativePath?_isSome (p : NativePath) (directory : Bool) :
    (ofNativePath? p directory).isSome = p.isAbsolute := by
  unfold ofNativePath?
  split <;> simp_all

/-! ### To a native path -/

/-- Whether the bytes end in a bare drive letter. -/
def endsInDriveLetter (bs : Bytes) : Bool :=
  match bs.reverse with
  | sign :: letter :: _ :: _ =>
    (Char.ofNat letter.toNat).isAlpha && (sign == 0x3A || sign == 0x7C)
  | _ => false

/-- Bytes that do not end in a bare drive letter. -/
def closeDriveLetter (bs : Bytes) : Bytes :=
  if endsInDriveLetter bs then bs ++ [slashByte] else bs

def bytesOfSegments (list : List Text) : Bytes :=
  list.flatMap fun segment => slashByte :: Percent.decodeText segment

/-- Whether the host names this machine or there is none. -/
def isOnThisMachine (u : Url) : Bool :=
  u.host? = none ∨ u.host? = some (.domain "localhost".toList)

/-- The native path of a URL with segments and without a foreign host; the scheme does not matter. -/
def toNativePath? (u : Url) : Option NativePath :=
  match u.path with
  | .segments _ (segment :: rest) =>
    if u.isOnThisMachine then some ⟨closeDriveLetter (bytesOfSegments (segment :: rest))⟩ else none
  | _ => none

end Relocation.Url
