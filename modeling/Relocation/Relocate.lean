import Relocation.Locate
import Relocation.Origin

/-!
# Places relative to the origin

A place relative to the origin is the origin's URL with another path, and so exists whenever the origin has a path
of segments with enough slashes in it. As a native path it exists only if the URL names a local file and nothing
else, that is, has neither query nor fragment nor a foreign host.
-/

namespace Relocation

/-! ### As URLs -/

/-- The URL with another path; a URL whose path is not made of segments has none. -/
def rebuild? (u : Url) (path : Text) : Option Url :=
  if u.isVerbatim then none else some (u.withPath path)

/-- The place at `suffix` below the base of the installation; the empty suffix is the base itself. -/
def subpath? (o : Origin) (suffix : Text) : Option Url :=
  match installBase? o.pathText with
  | some base => rebuild? o.url (joinSuffix base suffix)
  | none => none

/-- The directory the origin is in. -/
def startup? (o : Origin) : Option Url :=
  match startupDir? o.pathText with
  | some dir => rebuild? o.url dir
  | none => none

/-! ### As native paths -/

/-- The native path of a URL that names a local file and nothing else. -/
def localPath? (u : Url) : Option NativePath :=
  if u.scheme = "file".toList ∧ u.query = none ∧ u.fragment = none then u.toNativePath? else none

/-- The place at `suffix` below the base of the installation, as a native path. -/
def subpathFile? (o : Origin) (suffix : Text) : Option NativePath :=
  (subpath? o suffix).bind localPath?

/-- The directory the origin is in, as a native path. -/
def startupFile? (o : Origin) : Option NativePath :=
  (startup? o).bind localPath?

end Relocation
