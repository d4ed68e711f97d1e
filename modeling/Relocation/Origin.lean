import Relocation.Files.Resolve
import Relocation.Url.FilePath

/-!
# Origins

The origin is the place the running code was loaded from. It is kept as a URL, so that scheme, user, host, port,
query and fragment survive when its path is rewritten. It comes from a URL text, from a native path, or from a
text that may be either.
-/

namespace Relocation

/-- Why the origin cannot be told. -/
inductive LocateError where
  | readLink (cause : FileError)
  | currentExecutable (cause : FileError)
  | openMaps (cause : FileError)
  | readMaps (cause : FileError)
  | invalidMaps
  | notMapped (address : Nat)
  | notAbsolute (path : NativePath)
  | insecureHardLink (path : NativePath)
  | invalidUrl (cause : Url.Error)
  | unsupported
  deriving DecidableEq

def LocateError.message : LocateError → Text
  | readLink cause => "cannot read executable link: ".toList ++ cause.message
  | currentExecutable cause => "cannot determine current executable: ".toList ++ cause.message
  | openMaps cause => "cannot open /proc/self/maps: ".toList ++ cause.message
  | readMaps cause => "cannot read /proc/self/maps: ".toList ++ cause.message
  | invalidMaps => "/proc/self/maps has an unexpected format".toList
  | notMapped address =>
    "address 0x".toList ++ lowerHex address ++ " is not inside any executable mapping".toList
  | notAbsolute path => "origin path is not absolute: ".toList ++ path.display
  | insecureHardLink path =>
    "refusing to relocate hard-linked set-user-ID executable ".toList ++ path.display
  | invalidUrl cause => "invalid origin URI: ".toList ++ cause.message
  | unsupported => "origin lookup is not supported on this platform".toList

/-- The failure behind this one, in words, if another one is behind it. -/
def LocateError.cause? : LocateError → Option Text
  | readLink cause => some cause.message
  | currentExecutable cause => some cause.message
  | openMaps cause => some cause.message
  | readMaps cause => some cause.message
  | invalidUrl cause => some cause.message
  | _ => none

def LocateError.fullMessage (e : LocateError) : Text :=
  e.message ++ e.cause?.elim [] fun cause => ": ".toList ++ cause

/-- The place the running code was loaded from. -/
structure Origin where
  url : Url
  deriving DecidableEq

namespace Origin

def parse (t : Text) : Except LocateError Origin :=
  match Url.parse t with
  | .ok url => .ok ⟨url⟩
  | .error e => .error (.invalidUrl e)

/-- Whether a path is that of a directory: it ends in a slash or a directory is there. -/
def namesDirectory (fs : FileSystem) (p : NativePath) : Bool :=
  p.endsWithSlash || fs.isDirectory p

def ofNativePath (fs : FileSystem) (p : NativePath) : Except LocateError Origin :=
  match Url.ofNativePath? p (namesDirectory fs p) with
  | some url => .ok ⟨url⟩
  | none => .error (.notAbsolute p)

/-- The origin a text names: an absolute path, or else a URL. -/
def read (fs : FileSystem) (t : Text) : Except LocateError Origin :=
  let p := NativePath.ofText t
  if p.isAbsolute then ofNativePath fs p else parse t

/-- The path of the origin as it stands in its URL. -/
def pathText (o : Origin) : Text :=
  o.url.pathText

def text (o : Origin) : Text :=
  o.url.text

theorem ofNativePath_isOk (fs : FileSystem) (p : NativePath) (h : p.isAbsolute = true) :
    ∃ o, ofNativePath fs p = .ok o := by
  unfold ofNativePath
  have hs := Url.ofNativePath?_isSome p (namesDirectory fs p)
  rw [h] at hs
  obtain ⟨url, hu⟩ := Option.isSome_iff_exists.mp hs
  exact ⟨⟨url⟩, by simp [hu]⟩

end Origin

end Relocation
