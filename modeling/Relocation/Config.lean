import Relocation.Layout
import Relocation.Toml.Reader
import Relocation.Toml.Writer

/-!
# Configuration

A configuration may name an origin that replaces the one the program would find, and a fallback for each directory
that cannot be derived. It is kept as a TOML document; keys it does not know are skipped.
-/

namespace Relocation

/-- A configuration. -/
structure Config where
  /-- An absolute path or a URL. -/
  origin : Option Text
  fallbacks : Fallbacks
  deriving DecidableEq

namespace Config

def default : Config := ⟨none, {}⟩

/-- The directories that have a fallback, in the order they are listed. -/
def namedFallbacks (f : Fallbacks) : List (InstallDir × NativePath) :=
  InstallDir.all.filterMap fun d => (f.get d).map fun p => (d, p)

/-! ### Reading -/

/-- A text that may be missing; any other value is wrong. -/
def textField? (v : Option Toml.Value) : Option (Option Text) :=
  match v with
  | none => some none
  | some (.string t) => some (some t)
  | some _ => none

/-- Fallbacks from the values of the fields in their order, each of which may be missing. -/
def readFallbacks? (values : List (Option Toml.Value)) : Option Fallbacks :=
  (values.mapM textField?).bind fun texts => Fallbacks.ofFields? (texts.map (Option.map NativePath.ofText))

/-- The values of the fields, if they stand in their order in a list; what follows them is skipped. -/
def listed (items : List Toml.Value) : List (Option Toml.Value) :=
  (List.range Fallbacks.keys.length).map fun i => items[i]?

/-- Fallbacks from a table, in which they stand under their keys; from an array, in which they stand in the order of
the fields; or from a date, which is a table of no known keys. -/
def fallbacksOf? : Toml.Value → Option Fallbacks
  | .table _ entries => readFallbacks? (Fallbacks.keys.map fun key => valueOf? key entries)
  | .array items => readFallbacks? (listed items)
  | .tables items => readFallbacks? (listed (items.map (.table .opened)))
  | .moment _ => some {}
  | _ => none

def ofDocument? (entries : Toml.Entries) : Option Config :=
  match textField? (valueOf? "origin".toList entries) with
  | none => none
  | some origin =>
    match valueOf? "fallbacks".toList entries with
    | none => some ⟨origin, {}⟩
    | some v => (fallbacksOf? v).map fun fallbacks => ⟨origin, fallbacks⟩

def read? (t : Text) : Option Config :=
  match Toml.readDocument? t with
  | some entries => ofDocument? entries
  | none => none

/-! ### Writing -/

/-- The text of a configuration. A fallback is written as text. -/
def write (c : Config) : Text :=
  (c.origin.elim [] fun t => Toml.writePair "origin".toList t ++ ['\n'])
    ++ Toml.writeHeader "fallbacks".toList
    ++ (namedFallbacks c.fallbacks).flatMap fun pair => Toml.writePair pair.1.name pair.2.display

/-! ### Use -/

/-- The provider a configuration asks for: the origin it names, or the program the process executes. -/
def provider (c : Config) (fs : FileSystem) : Except LocateError Provider :=
  match c.origin with
  | some t => (Origin.read fs t).map Provider.fixed
  | none => .ok .executable

/-- The configuration with another origin, if one is given. -/
def withOrigin (c : Config) : Option Text → Config
  | some t => { c with origin := some t }
  | none => c

/-- What is said of an origin that cannot be read. -/
def overrideMessage (t : Text) (e : LocateError) : Text :=
  "invalid origin override ".toList ++ quoteText t ++ ": ".toList ++ e.fullMessage

/-- Without another origin a configuration stays as it is. -/
theorem withOrigin_none (c : Config) : c.withOrigin none = c := rfl

/-- Another origin leaves the fallbacks in force. -/
theorem fallbacks_withOrigin (c : Config) (t : Option Text) : (c.withOrigin t).fallbacks = c.fallbacks := by
  cases t <;> rfl

end Config

end Relocation
