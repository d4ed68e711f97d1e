import Relocation.Text.Basic

/-!
# Schemes

The scheme decides how the rest of a URL is read. A few network schemes and `file` are special: they treat the
backslash as a slash, always have a path and, except for `file`, always have a host.
-/

namespace Relocation.Url

/-- How the rest of a URL is read. -/
inductive SchemeKind where
  /-- The scheme of local files. -/
  | file
  /-- A special network scheme. -/
  | network
  /-- Any other scheme. -/
  | plain
  deriving DecidableEq

namespace SchemeKind

/-- Whether the scheme is one of the special ones. -/
def isSpecial : SchemeKind → Bool
  | file => true
  | network => true
  | plain => false

/-- The kind of a scheme, given in lower case. -/
def ofScheme (scheme : Text) : SchemeKind :=
  if scheme = "file".toList then file
  else if ["http", "https", "ws", "wss", "ftp"].any fun s => s.toList == scheme then network
  else plain

end SchemeKind

def defaultPort? (scheme : Text) : Option Nat :=
  if scheme = "http".toList ∨ scheme = "ws".toList then some 80
  else if scheme = "https".toList ∨ scheme = "wss".toList then some 443
  else if scheme = "ftp".toList then some 21
  else none

end Relocation.Url
