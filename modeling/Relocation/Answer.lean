import Relocation.CommandLine.Usage
import Relocation.Layout

/-!
# What a command answers

* listing every location gives a table with a row for the origin, the startup directory and each directory of the
  installation; a location that does not exist is shown as a dash;
* asking for one directory gives its location, or the fallback for it as a native path;
* asking for the origin gives its URL and, if it has one, its native path.
-/

namespace Relocation

/-- Why a command has no answer. -/
inductive CommandError where
  | unknownDirectory (d : InstallDir)
  | unknownOrigin (cause : LocateError)
  deriving DecidableEq

def CommandError.message : CommandError → Text
  | unknownDirectory d => d.name ++ " directory cannot be determined and has no fallback".toList
  | unknownOrigin cause => "cannot locate origin: ".toList ++ cause.fullMessage

namespace Answer

/-! ### The table -/

/-- A location under a name. -/
structure Row where
  name : Text
  url : Option Url
  path : Option NativePath
  deriving DecidableEq

def absent : Text := "-".toList

def nameWidth : Nat := 8

def urlWidth : Nat := 40

def columns (name url path : Text) : Text :=
  padRight ' ' nameWidth name ++ ' ' :: (padRight ' ' urlWidth url ++ ' ' :: (path ++ ['\n']))

def Row.urlText (r : Row) : Text :=
  r.url.elim absent Url.text

/-- The native path of a row as it is shown. -/
def Row.pathText (r : Row) : Text :=
  r.path.elim absent NativePath.display

def Row.line (r : Row) : Text :=
  columns r.name r.urlText r.pathText

/-- The row of the origin. Any origin with a path that can be read as a native one is shown with it. -/
def originRow (l : Locator) : Row :=
  ⟨"origin".toList, l.origin?.map Origin.url, l.origin?.bind fun o => o.url.toNativePath?⟩

def startupRow (l : Locator) : Row :=
  ⟨"startup".toList, l.startupUrl?, l.startupFile?⟩

def directoryRow (l : Locator) (d : InstallDir) : Row :=
  ⟨d.name, l.dirUrl? d, l.dirFile? d⟩

def rows (l : Locator) : List Row :=
  originRow l :: startupRow l :: InstallDir.all.map (directoryRow l)

def head : Text := columns "NAME".toList "URL".toList "PATH".toList

def table (l : Locator) : Text :=
  head ++ (rows l).flatMap Row.line

/-! ### One directory -/

/-- A directory as it is told: its URL or its native path, or else its fallback. -/
def directory? (l : Locator) (fallbacks : FallbackTable) (d : InstallDir) (asUrl : Bool) : Option Text :=
  if asUrl then ((l.dirUrl? d).map Url.text).or ((fallbacks d).map NativePath.display)
  else (l.dirFileWith? d fallbacks).map NativePath.display

/-! ### The origin -/

def origin (o : Origin) : Text :=
  o.text ++ '\n' :: o.url.toNativePath?.elim [] fun p => p.display ++ ['\n']

end Answer

def Command.answer (l : Locator) (fallbacks : FallbackTable) : Command → Except CommandError Text
  | .list => .ok (Answer.table l)
  | .directory d asUrl =>
    match Answer.directory? l fallbacks d asUrl with
    | some t => .ok (t ++ ['\n'])
    | none => .error (.unknownDirectory d)
  | .origin =>
    match l.machine.locate l.provider with
    | .ok o => .ok (Answer.origin o)
    | .error e => .error (.unknownOrigin e)

namespace Answer

/-- A directory told as a native path is told as a URL, too. -/
theorem directory?_url_isSome (l : Locator) (fallbacks : FallbackTable) (d : InstallDir)
    (h : (directory? l fallbacks d false).isSome) : (directory? l fallbacks d true).isSome := by
  simp only [directory?, Locator.dirFileWith?, Bool.false_eq_true, if_false, if_true, Option.isSome_map,
    Option.isSome_or, Bool.or_eq_true] at h ⊢
  exact h.imp_left (l.dirUrl?_isSome_of_dirFile? d)

theorem answer_list (l : Locator) (fallbacks : FallbackTable) :
    Command.answer l fallbacks .list = .ok (table l) := rfl

end Answer

end Relocation
