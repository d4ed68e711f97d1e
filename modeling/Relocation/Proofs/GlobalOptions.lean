import Mathlib.Data.List.Perm.Basic
import Relocation.CommandLine.Reader
import Relocation.Proofs.Escaping
import Relocation.Proofs.Pieces
import Relocation.Proofs.Utf8Reading

/-!
# Options that may stand anywhere

The origin and the configuration are given to the program, whatever its command, and each may stand before the word of
the command, behind it, and between all that belongs to it. The two sides of that word are read by different scopes, and
a value is checked only when something else follows. So what is followed through a command line is what a reading comes
to once nothing is owed (`ComesTo`): an option adds itself to it in every scope, and leaves alone what the words of the
command say.

* `Inserted`: a command line with options between its words;
* `exists_passes`: what an option adds to a reading, in every scope and in both spellings;
* `exists_steps_inserted`, `readProgram_inserted`: the scope of the command, and that of the program;
* `read_options_anywhere`: where the options stand and how they are spelled does not matter.
-/

namespace Relocation

namespace CommandLine

/-! ### Command lines with options in them -/

/-- The argument that announces a parameter. -/
def Parameter.flag (p : Parameter) : Bytes :=
  dashByte :: dashByte :: Utf8.encode p.word

/-- What can be given to the program whatever its command. -/
inductive GlobalOption where
  | origin (t : Text)
  | configFile (p : NativePath)

namespace GlobalOption

def parameter : GlobalOption → Parameter
  | origin _ => .origin
  | configFile _ => .configFile

def value : GlobalOption → Bytes
  | origin t => Utf8.encode t
  | configFile p => p.bytes

def origin? : GlobalOption → Option Text
  | origin t => some t
  | configFile _ => none

def configFile? : GlobalOption → Option NativePath
  | origin _ => none
  | configFile p => some p

/-- How an option is spelled: its value is an argument of its own, and then does not begin with a dash, or attached. -/
inductive IsSpelled (o : GlobalOption) : List Bytes → Prop
  | apart : o.value ≠ [] → o.value.head? ≠ some dashByte → IsSpelled o [o.parameter.flag, o.value]
  | attached : o.value ≠ [] → IsSpelled o [o.parameter.flag ++ equalsByte :: o.value]

end GlobalOption

/-- Arguments that are some words with options before, between and behind them, in this order. -/
inductive Inserted : List GlobalOption → List Bytes → List Bytes → Prop
  | nil : Inserted [] [] []
  | word {options : List GlobalOption} {words args : List Bytes} (w : Bytes) :
      Inserted options words args → Inserted options (w :: words) (w :: args)
  | option {o : GlobalOption} {spelled : List Bytes} {options : List GlobalOption} {words args : List Bytes} :
      o.IsSpelled spelled → Inserted options words args → Inserted (o :: options) words (spelled ++ args)

theorem inserted_nil (words : List Bytes) : Inserted [] words words := by
  induction words with
  | nil => exact .nil
  | cons w rest ih => exact .word w ih

/-- What stands behind the word of a command that asks for just this. A directory is named in any mixture of cases, and
asked for as a URL before or behind its name. -/
inductive IsAskedBy : Command → Verb → List Bytes → Prop
  | list : IsAskedBy .list .list []
  | origin : IsAskedBy .origin .origin []
  | directory {d : InstallDir} {name : Text} : lowerAscii name = d.name →
      IsAskedBy (.directory d false) .directory [Utf8.encode name]
  | directoryUrl {d : InstallDir} {name : Text} : lowerAscii name = d.name →
      IsAskedBy (.directory d true) .directory [Utf8.encode name, Parameter.url.flag]
  | urlDirectory {d : InstallDir} {name : Text} : lowerAscii name = d.name →
      IsAskedBy (.directory d true) .directory [Parameter.url.flag, Utf8.encode name]

/-! ### How arguments read -/

theorem ofBytes_of_head? {value : Bytes} (h : value.head? ≠ some dashByte) : Argument.ofBytes value = .plain := by
  match value with
  | [] => rfl
  | [_] => rfl
  | first :: second :: rest =>
    have hfirst : first ≠ dashByte := fun he => h (by rw [List.head?_cons, he])
    rw [Argument.ofBytes, if_pos hfirst]

theorem ofBytes_flag : ∀ p ∈ Parameter.named, Argument.ofBytes p.flag = .long (Utf8.encode p.word) none := by
  decide

theorem ofBytes_attached (p : Parameter) (value : Bytes) :
    Argument.ofBytes (p.flag ++ equalsByte :: value) = .long (Utf8.encode p.word) (some value) := by
  have hword : equalsByte ∉ Utf8.encode p.word := by cases p <;> decide
  have hne : Utf8.encode p.word ++ equalsByte :: value ≠ [] := by simp
  show Argument.ofBytes (dashByte :: dashByte :: (Utf8.encode p.word ++ equalsByte :: value)) = _
  rw [Argument.ofBytes, if_neg (not_not.mpr rfl), if_neg (not_not.mpr rfl), if_neg hne,
    cutAt?_append_sep equalsByte _ value hword]

theorem ofWord?_word : ∀ p ∈ Parameter.named, Parameter.ofWord? (Utf8.encode p.word) = some p := by
  decide

theorem ofBytes?_word (v : Verb) : Verb.ofBytes? (Utf8.encode v.word) = some v := by
  cases v <;> rfl

/-- The word of a command does not begin with a dash. -/
theorem ofBytes?_of_dash (rest : Bytes) : Verb.ofBytes? (dashByte :: rest) = none := by
  rw [Verb.ofBytes?, List.find?_eq_none]
  intro v _ hv
  rw [beq_iff_eq] at hv
  cases v <;> exact absurd (List.cons.inj hv).1 (by decide)

theorem ofName?_of_lowerAscii {name : Text} {d : InstallDir} (h : lowerAscii name = d.name) :
    InstallDir.ofName? name = some d := by
  rw [InstallDir.ofName?, h]
  cases d <;> decide

/-- There is no dash in the name of a directory, in any mixture of cases. -/
theorem head?_name_ne_dash {name : Text} {d : InstallDir} (h : lowerAscii name = d.name) :
    (Utf8.encode name).head? ≠ some dashByte := by
  intro hdash
  have hmem : '-' ∈ name := Utf8.mem_of_mem_encode name dashByte (List.mem_of_head? hdash) (by decide)
  have hlower : '-' ∈ lowerAscii name := List.mem_map.mpr ⟨'-', hmem, rfl⟩
  rw [h] at hlower
  cases d <;> exact absurd hlower (by decide)

namespace GlobalOption

variable (o : GlobalOption)

theorem parameter_mem_named : o.parameter ∈ Parameter.named := by
  cases o with
  | origin t => exact List.mem_cons_self
  | configFile p => exact List.mem_cons_of_mem _ List.mem_cons_self

theorem offers_parameter (s : Scope) : s.offers o.parameter = true := by
  cases o <;> cases s <;> rfl

theorem takesValue_parameter : o.parameter.takesValue = true := by
  cases o <;> rfl

end GlobalOption

/-! ### What is given -/

namespace Given

/-- What is given once an option has been added. -/
def adding (g : Given) : GlobalOption → Given
  | .origin t => { g with origin := some t }
  | .configFile p => { g with configFile := some p }

theorem take_option {g : Given} {o : GlobalOption} (hfree : g.has o.parameter = false) (hne : o.value ≠ []) :
    g.take o.parameter o.value = .ok (g.adding o) := by
  rw [take, hfree, if_neg Bool.false_ne_true]
  cases o with
  | origin t =>
    have hdecode : Utf8.decode? (GlobalOption.origin t).value = some t := Utf8.decode?_encode t
    simp only [GlobalOption.parameter, withValue, hdecode, adding]
  | configFile p => exact if_neg hne

theorem take_name {g : Given} {name : Text} {d : InstallDir} (hfree : g.directory = none)
    (h : lowerAscii name = d.name) :
    g.take .name (Utf8.encode name) = .ok { g with directory := some d } := by
  simp only [take, has, hfree, Option.isSome_none, Bool.false_eq_true, if_false, withValue, Utf8.decode?_encode,
    ofName?_of_lowerAscii h]

/-- Whatever is taken, a directory that is named stays named, and the name of one is taken for a directory. -/
theorem directory_of_take {g given : Given} {p : Parameter} {value : Bytes} (h : g.take p value = .ok given)
    (hnone : given.directory = none) : g.directory = none ∧ p ≠ .name := by
  rw [take] at h
  split at h
  · cases h
  · cases p with
    | name =>
      rw [withValue] at h
      cases hdecode : Utf8.decode? value with
      | none => simp [hdecode] at h
      | some t =>
        cases hname : InstallDir.ofName? t with
        | none => simp [hdecode, hname] at h
        | some d =>
          simp only [hdecode, hname, Except.ok.injEq] at h
          rw [← h] at hnone
          cases hnone
    | origin =>
      rw [withValue] at h
      cases hdecode : Utf8.decode? value with
      | none => simp [hdecode] at h
      | some t =>
        simp only [hdecode, Except.ok.injEq] at h
        rw [← h] at hnone
        exact ⟨hnone, by decide⟩
    | configFile =>
      rw [withValue] at h
      split at h
      · cases h
      · cases h
        exact ⟨hnone, by decide⟩
    | url =>
      cases h
      exact ⟨hnone, by decide⟩
    | help => cases h

end Given

/-! ### What a reading comes to -/

namespace Reading

/-- Once what is set aside has been checked, this is given; nothing is owed, and nothing is taken literally. -/
structure ComesTo (r : Reading) (g : Given) : Prop where
  literal : r.literal = false
  needy : r.needy? = none
  settle : r.settle = .ok ⟨g, none, false⟩

theorem comesTo_of_waiting_eq_none (g : Given) : ComesTo ⟨g, none, false⟩ g :=
  ⟨rfl, rfl, rfl⟩

/-- A parameter set aside with a value that will be taken is as good as given. -/
theorem comesTo_waiting {g given : Given} {p : Parameter} {value : Bytes} (h : g.take p value = .ok given) :
    ComesTo ⟨g, some (p, some value), false⟩ given := by
  refine ⟨rfl, rfl, ?_⟩
  rw [settle]
  simp only [h]

theorem ComesTo.hasName_eq_false {r : Reading} {g : Given} (h : r.ComesTo g) (hnone : g.directory = none) :
    r.hasName = false := by
  obtain ⟨given, waiting, literal⟩ := r
  have hs := h.settle
  match waiting with
  | none =>
    cases hs
    simp [hasName, Given.has, hnone]
  | some (p, none) => cases hs
  | some (p, some value) =>
    simp only [Reading.settle] at hs
    split at hs
    · next taken htaken =>
      cases hs
      obtain ⟨hdir, hp⟩ := Given.directory_of_take htaken hnone
      simp [hasName, Given.has, hdir, hp]
    · cases hs

/-- Words that lead from one reading to another wherever they stand; none of them starts a command. -/
structure Passes (r : Reading) (words : List Bytes) (next : Reading) : Prop where
  command : ∀ s rest, r.steps s (words ++ rest) = next.steps s rest
  program : ∀ rest, readProgram r (words ++ rest) = readProgram next rest

theorem passes_single {r next : Reading} {arg : Bytes} (hstep : ∀ s, r.step s arg = .ok next)
    (hcommand : r.commandAt? arg = none) : Passes r [arg] next := by
  constructor
  · intro s rest
    rw [List.singleton_append, steps, hstep]
  · intro rest
    rw [List.singleton_append, readProgram, hcommand, hstep]

theorem Passes.append {r mid next : Reading} {xs ys : List Bytes} (h : Passes r xs mid) (g : Passes mid ys next) :
    Passes r (xs ++ ys) next := by
  constructor
  · intro s rest
    rw [List.append_assoc, h.command, g.command]
  · intro rest
    rw [List.append_assoc, h.program, g.program]

theorem commandAt?_of_dash (r : Reading) (rest : Bytes) : r.commandAt? (dashByte :: rest) = none := by
  rw [commandAt?, ofBytes?_of_dash, ite_self]

section Option

variable {r : Reading} {g : Given} {o : GlobalOption} (h : r.ComesTo g)
include h

theorem ComesTo.step_long {arg word : Bytes} {value : Option Bytes} (s : Scope)
    (harg : Argument.ofBytes arg = .long word value) : r.step s arg = r.longParameter s word value := by
  rw [step, h.literal, if_neg Bool.false_ne_true, harg]

theorem ComesTo.step_flag (s : Scope) :
    r.step s o.parameter.flag = .ok ⟨g, some (o.parameter, none), false⟩ := by
  rw [h.step_long s (ofBytes_flag _ o.parameter_mem_named), longParameter,
    ofWord?_word _ o.parameter_mem_named]
  simp only [o.offers_parameter, o.takesValue_parameter, Bool.not_true, Bool.false_eq_true, if_false, if_true,
    setAside, h.settle]

theorem ComesTo.step_attached (s : Scope) (hfree : g.has o.parameter = false) (hne : o.value ≠ []) :
    r.step s (o.parameter.flag ++ equalsByte :: o.value) = .ok ⟨g.adding o, none, false⟩ := by
  rw [h.step_long s (ofBytes_attached _ _), longParameter, ofWord?_word _ o.parameter_mem_named]
  simp only [o.offers_parameter, o.takesValue_parameter, Bool.not_true, Bool.false_eq_true, if_false, if_true,
    give, h.settle, Given.take_option hfree hne]

/-- An option is read alike in every scope, and is added to what the reading comes to. -/
theorem ComesTo.exists_passes {spelled : List Bytes} (hfree : g.has o.parameter = false)
    (hspelled : o.IsSpelled spelled) : ∃ next : Reading, r.Passes spelled next ∧ next.ComesTo (g.adding o) := by
  cases hspelled with
  | attached hne =>
    exact ⟨_, passes_single (fun s => h.step_attached s hfree hne) (commandAt?_of_dash r _),
      comesTo_of_waiting_eq_none _⟩
  | apart hne hplain =>
    have hflag : r.Passes [o.parameter.flag] ⟨g, some (o.parameter, none), false⟩ :=
      passes_single h.step_flag (commandAt?_of_dash r _)
    -- while the value is awaited, not even the word of a command is one
    have hvalue : Passes ⟨g, some (o.parameter, none), false⟩ [o.value]
        ⟨g, some (o.parameter, some o.value), false⟩ := by
      refine passes_single (fun s => ?_) rfl
      rw [step, if_neg Bool.false_ne_true, ofBytes_of_head? hplain]
      rfl
    exact ⟨_, hflag.append hvalue, comesTo_waiting (Given.take_option hfree hne)⟩

end Option

/-! ### The words of a command -/

section Words

variable {r : Reading} {g : Given} (h : r.ComesTo g)
include h

/-- The name of a directory is set aside where a directory is asked for and none has been named. -/
theorem ComesTo.step_name {name : Text} {d : InstallDir} (hfree : g.directory = none)
    (hname : lowerAscii name = d.name) :
    ∃ next : Reading, r.step (.command .directory) (Utf8.encode name) = .ok next
      ∧ next.ComesTo { g with directory := some d } := by
  refine ⟨_, ?_, comesTo_waiting (Given.take_name hfree hname)⟩
  rw [step, h.literal, if_neg Bool.false_ne_true, ofBytes_of_head? (head?_name_ne_dash hname), h.needy]
  simp only [literalArgument, Scope.offers, h.hasName_eq_false hfree, setAside, h.settle, beq_self_eq_true,
    Bool.not_false, Bool.and_self, if_true]

theorem ComesTo.step_url (hfree : g.url = false) :
    ∃ next : Reading, r.step (.command .directory) Parameter.url.flag = .ok next
      ∧ next.ComesTo { g with url := true } := by
  have hword : Argument.ofBytes Parameter.url.flag = .long (Utf8.encode Parameter.url.word) none := rfl
  have hparameter : Parameter.ofWord? (Utf8.encode Parameter.url.word) = some .url := rfl
  refine ⟨_, ?_, comesTo_of_waiting_eq_none _⟩
  rw [h.step_long _ hword, longParameter, hparameter]
  simp only [Scope.offers, Parameter.takesValue, beq_self_eq_true, Bool.not_true, Bool.false_eq_true, if_false, give,
    h.settle, Given.take, Given.has, hfree, Given.withValue]

end Words

end Reading

/-! ### Options between words -/

namespace Given

/-- What is given and what the options say is each said at most once. -/
structure AtMostOnce (g : Given) (options : List GlobalOption) : Prop where
  origin : (g.origin.toList ++ options.filterMap GlobalOption.origin?).length ≤ 1
  configFile : (g.configFile.toList ++ options.filterMap GlobalOption.configFile?).length ≤ 1

/-- An origin and a configuration are what was given of them, or else what the options say. -/
structure Completes (g : Given) (options : List GlobalOption) (origin : Option Text) (configFile : Option NativePath) :
    Prop where
  origin : origin.toList = g.origin.toList ++ options.filterMap GlobalOption.origin?
  configFile : configFile.toList = g.configFile.toList ++ options.filterMap GlobalOption.configFile?

variable {g : Given} {o : GlobalOption} {options : List GlobalOption}

/-- What is still to be said has not been given. -/
theorem AtMostOnce.has_eq_false (h : g.AtMostOnce (o :: options)) : g.has o.parameter = false := by
  cases o with
  | origin t =>
    have hlength := h.origin
    cases ho : g.origin with
    | none => simp [has, GlobalOption.parameter, ho]
    | some u => simp [ho, GlobalOption.origin?] at hlength
  | configFile p =>
    have hlength := h.configFile
    cases hc : g.configFile with
    | none => simp [has, GlobalOption.parameter, hc]
    | some q => simp [hc, GlobalOption.configFile?] at hlength

/-- Adding an option moves it from what is to be said to what is given. -/
theorem toList_adding (options : List GlobalOption) (h : g.has o.parameter = false) :
    (g.adding o).origin.toList ++ options.filterMap GlobalOption.origin?
        = g.origin.toList ++ (o :: options).filterMap GlobalOption.origin?
      ∧ (g.adding o).configFile.toList ++ options.filterMap GlobalOption.configFile?
        = g.configFile.toList ++ (o :: options).filterMap GlobalOption.configFile? := by
  cases o with
  | origin t =>
    have hnone : g.origin = none := by simpa [has, GlobalOption.parameter] using h
    simp [adding, hnone, GlobalOption.origin?, GlobalOption.configFile?, List.filterMap_cons]
  | configFile p =>
    have hnone : g.configFile = none := by simpa [has, GlobalOption.parameter] using h
    simp [adding, hnone, GlobalOption.origin?, GlobalOption.configFile?, List.filterMap_cons]

theorem AtMostOnce.adding (h : g.AtMostOnce (o :: options)) : (g.adding o).AtMostOnce options := by
  obtain ⟨horigin, hconfig⟩ := toList_adding options h.has_eq_false
  exact ⟨horigin ▸ h.origin, hconfig ▸ h.configFile⟩

theorem Completes.of_adding {origin : Option Text} {configFile : Option NativePath} (h : g.has o.parameter = false)
    (hc : (g.adding o).Completes options origin configFile) : g.Completes (o :: options) origin configFile := by
  obtain ⟨horigin, hconfig⟩ := toList_adding options h
  exact ⟨hc.origin.trans horigin, hc.configFile.trans hconfig⟩

/-- Nothing is said twice by fewer. -/
theorem AtMostOnce.nothing (h : g.AtMostOnce options) : Given.nothing.AtMostOnce options := by
  have horigin := h.origin
  have hconfig := h.configFile
  rw [List.length_append] at horigin hconfig
  exact ⟨Nat.le_of_add_left_le horigin, Nat.le_of_add_left_le hconfig⟩

theorem toList_or {α : Type} {a b : Option α} (h : (a.toList ++ b.toList).length ≤ 1) :
    (b.or a).toList = a.toList ++ b.toList := by
  cases a with
  | none => cases b <;> rfl
  | some x =>
    cases b with
    | none => rfl
    | some y => exact absurd h (by simp)

/-- A request holds what is given before its command, and what is given behind it. -/
theorem AtMostOnce.completes_request {inner : Given} (h : g.AtMostOnce options)
    (hinner : Given.nothing.Completes options inner.origin inner.configFile) (c : Command) :
    g.Completes options (g.request inner c).origin (g.request inner c).configFile := by
  have horigin : inner.origin.toList = options.filterMap GlobalOption.origin? := hinner.origin
  have hconfig : inner.configFile.toList = options.filterMap GlobalOption.configFile? := hinner.configFile
  constructor
  · rw [← horigin]
    exact toList_or (horigin ▸ h.origin)
  · rw [← hconfig]
    exact toList_or (hconfig ▸ h.configFile)

end Given

/-- What the words behind that of a command add to the directory asked for and to whether it is asked for as a URL. -/
inductive Adds (v : Verb) : List Bytes → Option InstallDir → Bool → Option InstallDir → Bool → Prop
  | nothing {dir : Option InstallDir} {url : Bool} : Adds v [] dir url dir url
  | name {d : InstallDir} {name : Text} {words : List Bytes} {url : Bool} {dir' : Option InstallDir} {url' : Bool} :
      v = .directory → lowerAscii name = d.name → Adds v words (some d) url dir' url' →
      Adds v (Utf8.encode name :: words) none url dir' url'
  | url {words : List Bytes} {dir dir' : Option InstallDir} {url' : Bool} :
      v = .directory → Adds v words dir true dir' url' → Adds v (Parameter.url.flag :: words) dir false dir' url'

theorem IsAskedBy.adds {d : InstallDir} {asUrl : Bool} {v : Verb} {words : List Bytes}
    (h : IsAskedBy (.directory d asUrl) v words) : v = .directory ∧ Adds v words none false (some d) asUrl := by
  cases h with
  | directory hname => exact ⟨rfl, .name rfl hname .nothing⟩
  | directoryUrl hname => exact ⟨rfl, .name rfl hname (.url rfl .nothing)⟩
  | urlDirectory hname => exact ⟨rfl, .url rfl (.name rfl hname .nothing)⟩

/-- In the scope of a command, options and the words of the command are added side by side. -/
theorem exists_steps_inserted {v : Verb} {options : List GlobalOption} {words args : List Bytes}
    (hin : Inserted options words args) {r : Reading} {g : Given} (hr : r.ComesTo g) (honce : g.AtMostOnce options)
    {dir : Option InstallDir} {url : Bool} (hadds : Adds v words g.directory g.url dir url) :
    ∃ given : Given, r.steps (.command v) args = .ok ⟨given, none, false⟩
      ∧ g.Completes options given.origin given.configFile ∧ given.directory = dir ∧ given.url = url := by
  induction hin generalizing r g with
  | nil =>
    cases hadds
    exact ⟨g, hr.settle, ⟨(List.append_nil _).symm, (List.append_nil _).symm⟩, rfl, rfl⟩
  | word w _ ih =>
    generalize hd : g.directory = dirBefore, hu : g.url = urlBefore at hadds
    cases hadds with
    | @name d _ _ _ _ _ hv hname hmore =>
      subst hv hu
      obtain ⟨next, hstep, hnext⟩ := hr.step_name hd hname
      obtain ⟨given, hsteps, hcompletes, hasked⟩ := ih hnext ⟨honce.origin, honce.configFile⟩ hmore
      exact ⟨given, by rw [Reading.steps, hstep]; exact hsteps, ⟨hcompletes.origin, hcompletes.configFile⟩, hasked⟩
    | url hv hmore =>
      subst hv hd
      obtain ⟨next, hstep, hnext⟩ := hr.step_url hu
      obtain ⟨given, hsteps, hcompletes, hasked⟩ := ih hnext ⟨honce.origin, honce.configFile⟩ hmore
      exact ⟨given, by rw [Reading.steps, hstep]; exact hsteps, ⟨hcompletes.origin, hcompletes.configFile⟩, hasked⟩
  | @option o spelled options words args hspelled _ ih =>
    have hfree := honce.has_eq_false
    obtain ⟨next, hpasses, hnext⟩ := hr.exists_passes hfree hspelled
    have hsame : (g.adding o).directory = g.directory ∧ (g.adding o).url = g.url := by cases o <;> exact ⟨rfl, rfl⟩
    obtain ⟨given, hsteps, hcompletes, hasked⟩ :=
      ih hnext honce.adding (hsame.1.symm ▸ hsame.2.symm ▸ hadds)
    exact ⟨given, by rw [hpasses.command]; exact hsteps, hcompletes.of_adding hfree, hasked⟩

/-- Behind its word, a command is read with the options that stand there. -/
theorem readCommand_inserted {command : Command} {v : Verb} {options : List GlobalOption} {words args : List Bytes}
    (hasked : IsAskedBy command v words) (hin : Inserted options words args)
    (honce : Given.nothing.AtMostOnce options) :
    ∃ inner : Given, readCommand v args = .ok (inner, command)
      ∧ Given.nothing.Completes options inner.origin inner.configFile := by
  have hstart := Reading.comesTo_of_waiting_eq_none .nothing
  cases command with
  | list =>
    cases hasked
    obtain ⟨inner, hsteps, hcompletes, -⟩ := exists_steps_inserted (v := .list) hin hstart honce .nothing
    exact ⟨inner, by simp only [readCommand, Reading.start, hsteps], hcompletes⟩
  | origin =>
    cases hasked
    obtain ⟨inner, hsteps, hcompletes, -⟩ := exists_steps_inserted (v := .origin) hin hstart honce .nothing
    exact ⟨inner, by simp only [readCommand, Reading.start, hsteps], hcompletes⟩
  | directory d asUrl =>
    obtain ⟨rfl, hadds⟩ := hasked.adds
    obtain ⟨inner, hsteps, hcompletes, hdir, hurl⟩ := exists_steps_inserted hin hstart honce hadds
    exact ⟨inner, by simp only [readCommand, Reading.start, hsteps, hdir, hurl], hcompletes⟩

/-- In the scope of the program, options are added up to the word of the command, and what was added on either side of it
makes up the request. -/
theorem readProgram_inserted {command : Command} {v : Verb} {options : List GlobalOption} {words args : List Bytes}
    (hasked : IsAskedBy command v words) (hin : Inserted options (Utf8.encode v.word :: words) args) {r : Reading}
    {g : Given} (hr : r.ComesTo g) (honce : g.AtMostOnce options) :
    ∃ request : Request, readProgram r args = .ok request ∧ request.command = command
      ∧ g.Completes options request.origin request.configFile := by
  generalize hline : Utf8.encode v.word :: words = line at hin
  induction hin generalizing r g with
  | nil => cases hline
  | word w hmore _ =>
    cases hline
    obtain ⟨inner, hread, hinner⟩ := readCommand_inserted hasked hmore honce.nothing
    have hcommand : r.commandAt? (Utf8.encode v.word) = some v := by
      rw [Reading.commandAt?, hr.literal, hr.needy, ofBytes?_word]
      rfl
    exact ⟨g.request inner command, by simp only [readProgram, hcommand, hread, hr.settle], rfl,
      honce.completes_request hinner command⟩
  | option hspelled _ ih =>
    have hfree := honce.has_eq_false
    obtain ⟨next, hpasses, hnext⟩ := hr.exists_passes hfree hspelled
    obtain ⟨request, hread, hcommand, hcompletes⟩ := ih hnext honce.adding hline
    exact ⟨request, by rw [hpasses.program]; exact hread, hcommand, hcompletes.of_adding hfree⟩

/-! ### The whole line -/

/-- The options of a request. -/
def globalOptions (origin : Option Text) (configFile : Option NativePath) : List GlobalOption :=
  (origin.map .origin).toList ++ (configFile.map .configFile).toList

theorem eq_toList_of_perm {α : Type} {l : List α} {a : Option α} (h : l.Perm a.toList) : l = a.toList := by
  cases a with
  | none => exact h.eq_nil
  | some x => exact h.eq_singleton

/-- In whatever order the options stand, they say the same. -/
theorem filterMap_of_perm {options : List GlobalOption} {origin : Option Text} {configFile : Option NativePath}
    (h : options.Perm (globalOptions origin configFile)) :
    options.filterMap GlobalOption.origin? = origin.toList
      ∧ options.filterMap GlobalOption.configFile? = configFile.toList := by
  have horigin : (globalOptions origin configFile).filterMap GlobalOption.origin? = origin.toList := by
    cases origin <;> cases configFile <;> rfl
  have hconfig : (globalOptions origin configFile).filterMap GlobalOption.configFile? = configFile.toList := by
    cases origin <;> cases configFile <;> rfl
  exact ⟨eq_toList_of_perm (horigin ▸ h.filterMap _), eq_toList_of_perm (hconfig ▸ h.filterMap _)⟩

theorem toList_injective {α : Type} {a b : Option α} (h : a.toList = b.toList) : a = b := by
  cases a <;> cases b <;> simp_all

/-- A line of the words of a command, with options put in, is read as the request of just these. -/
theorem read_inserted {command : Command} {v : Verb} {options : List GlobalOption} {words args : List Bytes}
    {origin : Option Text} {configFile : Option NativePath} (hasked : IsAskedBy command v words)
    (hin : Inserted options (Utf8.encode v.word :: words) args)
    (hoptions : options.Perm (globalOptions origin configFile)) :
    read args = .ok ⟨origin, configFile, command⟩ := by
  obtain ⟨horigin, hconfig⟩ := filterMap_of_perm hoptions
  have honce : Given.nothing.AtMostOnce options := by
    constructor
    · rw [horigin]
      exact Option.length_toList_le
    · rw [hconfig]
      exact Option.length_toList_le
  obtain ⟨request, hread, hcommand, hcompletes⟩ :=
    readProgram_inserted hasked hin (Reading.comesTo_of_waiting_eq_none .nothing) honce
  have ho : request.origin = origin := toList_injective (hcompletes.origin.trans horigin)
  have hc : request.configFile = configFile := toList_injective (hcompletes.configFile.trans hconfig)
  rw [read, Reading.start, hread, ← ho, ← hc, ← hcommand]

/-- An origin and a configuration are read wherever they stand among the words of a command, in either order and either
spelling, and whatever they say; and the command is read as without them. -/
theorem read_options_anywhere (command : Command) (v : Verb) (words : List Bytes) (origin : Option Text)
    (configFile : Option NativePath) (options : List GlobalOption) (args : List Bytes)
    (hasked : IsAskedBy command v words) (hoptions : options.Perm (globalOptions origin configFile))
    (hin : Inserted options (Utf8.encode v.word :: words) args) :
    read args = .ok ⟨origin, configFile, command⟩
      ∧ read (Utf8.encode v.word :: words) = .ok ⟨none, none, command⟩ :=
  ⟨read_inserted hasked hin hoptions, read_inserted hasked (inserted_nil _) (List.Perm.refl [])⟩

/-- An origin that reads like a command, between the words of another one. -/
theorem read_options_anywhere_helpOrigin :
    IsAskedBy (.directory .libexec true) .directory [Utf8.encode "LibExec".toList, Utf8.encode "--url".toList]
      ∧ read (["--config=c", "dir", "--origin", "help", "LibExec", "--url"].map fun arg => Utf8.encode arg.toList)
        = .ok ⟨some "help".toList, some (.ofText "c".toList), .directory .libexec true⟩ := by
  have hasked : IsAskedBy (.directory .libexec true) .directory
      [Utf8.encode "LibExec".toList, Utf8.encode "--url".toList] := .directoryUrl (by decide)
  have hconfig : (GlobalOption.configFile (.ofText "c".toList)).IsSpelled [Utf8.encode "--config=c".toList] :=
    .attached (by decide)
  have horigin : (GlobalOption.origin "help".toList).IsSpelled
      [Utf8.encode "--origin".toList, Utf8.encode "help".toList] := .apart (by decide) (by decide)
  exact ⟨hasked, (read_options_anywhere _ _ _ (some "help".toList) (some (.ofText "c".toList)) _ _ hasked
    (List.Perm.swap _ _ []) (.option hconfig (.word _ (.option horigin (inserted_nil _))))).1⟩

end CommandLine

end Relocation
