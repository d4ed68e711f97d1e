import Relocation.Percent
import Relocation.Url.Ipv4
import Relocation.Url.Ipv6
import Relocation.Url.Scheme

/-!
# URLs

A URL is kept in its parts, each already in its final spelling; `text` puts them together. Two things about the
text are not visible in any part alone:

* a path that starts with an empty segment would read as an authority if nothing stood before it, so such a path
  may carry a guard, written `/.`;
* a URL with an authority may have no host in it (`file:///x`).
-/

namespace Relocation

namespace Url

/-- The host of a URL. -/
inductive Host where
  /-- A name, ASCII for special schemes and percent-coded for others. -/
  | domain (name : Text)
  /-- A 32-bit address. -/
  | ipv4 (address : Nat)
  /-- The eight groups of a 128-bit address. -/
  | ipv6 (groups : List Nat)
  deriving DecidableEq

def Host.text : Host → Text
  | domain name => name
  | ipv4 address => Ipv4.write address
  | ipv6 groups => '[' :: Ipv6.write groups ++ [']']

/-- What stands between `//` and the path. -/
structure Authority where
  username : Text
  /-- Never empty. -/
  password : Option Text
  host : Option Host
  /-- The port, unless it is the default one of the scheme. -/
  port : Option Nat
  deriving DecidableEq

namespace Authority

def empty : Authority := ⟨[], none, none, none⟩

/-- The user part with its closing sign, if there is any user. -/
def userText (a : Authority) : Text :=
  match a.password with
  | some password => a.username ++ ':' :: password ++ ['@']
  | none => if a.username = [] then [] else a.username ++ ['@']

/-- The authority as it stands in a URL, with its leading slashes. -/
def text (a : Authority) : Text :=
  "//".toList ++ a.userText ++ (a.host.elim [] Host.text)
    ++ (a.port.elim [] fun n => ':' :: decimal n)

end Authority

/-- The path of a URL. -/
inductive Path where
  /-- A path that is not made of segments; no other path can be derived from it. -/
  | verbatim (text : Text)
  /-- A path of segments, each written after a slash. -/
  | segments (guarded : Bool) (list : List Text)
  deriving DecidableEq

def segmentsText (list : List Text) : Text :=
  list.flatMap fun segment => '/' :: segment

theorem segmentsText_append (xs ys : List Text) :
    segmentsText (xs ++ ys) = segmentsText xs ++ segmentsText ys := by
  simp [segmentsText]

theorem segmentsText_cons (s : Text) (rest : List Text) :
    segmentsText (s :: rest) = '/' :: s ++ segmentsText rest := by
  simp [segmentsText]

end Url

/-- A URL in its parts. -/
structure Url where
  /-- In lower case. -/
  scheme : Text
  authority : Option Url.Authority
  path : Url.Path
  query : Option Text
  fragment : Option Text
  deriving DecidableEq

namespace Url

def kind (u : Url) : SchemeKind :=
  SchemeKind.ofScheme u.scheme

/-- The path as text, without its guard. -/
def pathText (u : Url) : Text :=
  match u.path with
  | .verbatim t => t
  | .segments _ list => segmentsText list

/-- The path as it stands in the URL. -/
def guardedPathText (u : Url) : Text :=
  match u.path with
  | .verbatim t => t
  | .segments guarded list => (if guarded then "/.".toList else []) ++ segmentsText list

/-- Query and fragment as they stand in the URL. -/
def afterPath (u : Url) : Text :=
  (u.query.elim [] fun q => '?' :: q) ++ (u.fragment.elim [] fun f => '#' :: f)

def beforePath (u : Url) : Text :=
  u.scheme ++ ':' :: (u.authority.elim [] Authority.text)

def text (u : Url) : Text :=
  u.beforePath ++ u.guardedPathText ++ u.afterPath

/-- Whether no other path can be derived from this one. -/
def isVerbatim (u : Url) : Bool :=
  match u.path with
  | .verbatim _ => true
  | .segments _ _ => false

def host? (u : Url) : Option Host :=
  u.authority.bind Authority.host

/-- The user name; empty if there is none. -/
def username (u : Url) : Text :=
  u.authority.elim [] Authority.username

def password? (u : Url) : Option Text :=
  u.authority.bind Authority.password

/-- The port, unless it is the default one. -/
def port? (u : Url) : Option Nat :=
  u.authority.bind Authority.port

end Url

end Relocation
