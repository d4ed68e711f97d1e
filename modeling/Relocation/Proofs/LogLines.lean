import Relocation.Proofs.LinkCounts
import Relocation.Proofs.TouchedFiles

/-!
# What logging leaves alone

A run writes to its log between all its steps, and nothing it finds out later depends on that. Once the log is open, the
path of its file keeps leading to it, whatever else is made, so that writing a line changes the content of that file and
nothing else; and what is located does not depend on what is in the files.

* `outline`: a file system without what is in its files;
* `outline_log`: an open log leaves the outline as it is;
* `content_log_of_writesTo`, `content_log_of_not_writesTo`: an open log writes its lines behind what is in its file, and
  leaves the other files;
* `locate_eq_of_outline`: with the same outline, the same is located;
* `errors_log`: what a log says on the error stream.
-/

namespace Relocation

open FileSystem

/-! ### What is located with the same outline -/

/-- The file system without what is in its files. -/
def FileSystem.outline (fs : FileSystem) : FileSystem :=
  { fs with contents := [] }

section Outline

variable {fs gs : FileSystem} (h : gs.outline = fs.outline)
include h

theorem entryAt?_eq_of_outline (here : Location) : gs.entryAt? here = fs.entryAt? here := by
  show gs.outline.entryAt? here = fs.outline.entryAt? here
  rw [h]

theorem denial?_eq_of_outline (wanted : Access) : gs.denial? wanted = fs.denial? wanted := by
  show gs.outline.denial? wanted = fs.outline.denial? wanted
  rw [h]

theorem sameNames_of_outline : gs.SameNames fs := by
  refine ⟨fun place => ?_, fun place => denial?_eq_of_outline h (.search place)⟩
  rw [entryAt?_eq_of_outline h]
  rcases fs.entryAt? place with _ | _ | number | target
  · exact .nothing
  · exact .directory
  · exact .file number number
  · exact .link target

theorem find_eq_of_outline (purpose : Purpose) (p : NativePath) : gs.find purpose p = fs.find purpose p := by
  rw [find, find, resolve_eq (sameNames_of_outline h)]
  simp only [entryAt?_eq_of_outline h]

theorem linkCount?_eq_of_outline (p : NativePath) : gs.linkCount? p = fs.linkCount? p := by
  have hlinks (number : Nat) : gs.linksOf number = fs.linksOf number := by
    show gs.outline.linksOf number = fs.outline.linksOf number
    rw [h]
  have hdirectory (place : Location) : gs.linksOfDirectory place = fs.linksOfDirectory place := by
    show gs.outline.linksOfDirectory place = fs.outline.linksOfDirectory place
    rw [h]
  rw [linkCount?, linkCount?, find_eq_of_outline h]
  simp only [hlinks, hdirectory]

/-- What is located does not depend on what is in the files. -/
theorem locate_eq_of_outline (process : ProcessInfo) (provider : Provider) :
    Machine.locate ⟨gs, process⟩ provider = Machine.locate ⟨fs, process⟩ provider := by
  have hnames := sameNames_of_outline h
  cases provider with
  | fixed o => rfl
  | none => rfl
  | executable =>
    show Machine.locateExecutable _ = Machine.locateExecutable _
    rw [Machine.locateExecutable, Machine.locateExecutable, ProcessInfo.program_eq hnames]
    cases process.program fs with
    | error e => rfl
    | ok path =>
      have htrusts : process.trusts gs path = process.trusts fs path := by
        rw [ProcessInfo.trusts, ProcessInfo.trusts, linkCount?_eq_of_outline h]
      simp only [htrusts, ofNativePath_eq_of_sameNames hnames]
  | moduleAt address =>
    show Machine.locateModule _ _ = Machine.locateModule _ _
    rw [Machine.locateModule, Machine.locateModule]
    simp only [ofNativePath_eq_of_sameNames hnames]

theorem Origin.read_eq_of_outline (t : Text) : Origin.read gs t = Origin.read fs t := by
  rw [Origin.read, Origin.read]
  simp only [ofNativePath_eq_of_sameNames (sameNames_of_outline h)]

theorem provider_eq_of_outline (c : Config) : c.provider gs = c.provider fs := by
  rw [Config.provider, Config.provider]
  simp only [Origin.read_eq_of_outline h]

end Outline

/-! ### What is answered, and what is left in the log -/

theorem AnswersAlike.rows_eq {l k : Locator} (h : AnswersAlike l k) : Answer.rows l = Answer.rows k := by
  have horigin : Answer.originRow l = Answer.originRow k := by
    show Answer.Row.mk _ (l.origin?.map Origin.url) (l.origin?.bind fun o => o.url.toNativePath?) = _
    rw [h.origin]
    rfl
  have hstartup : Answer.startupRow l = Answer.startupRow k := by
    show Answer.Row.mk _ l.startupUrl? l.startupFile? = _
    rw [h.startupUrl, h.startupFile]
    rfl
  have hdirectory : Answer.directoryRow l = Answer.directoryRow k := funext fun d => by
    rw [Answer.directoryRow, Answer.directoryRow, h.dirUrl, h.dirFile]
  rw [Answer.rows, Answer.rows, horigin, hstartup, hdirectory]

/-- What is located decides what a command answers. -/
theorem Command.answer_eq_of_locate {l k : Locator} (h : l.machine.locate l.provider = k.machine.locate k.provider)
    (fallbacks : FallbackTable) (command : Command) : command.answer l fallbacks = command.answer k fallbacks := by
  have halike := answersAlike_of_locate h
  cases command with
  | list => rw [Answer.answer_list, Answer.answer_list, Answer.table, Answer.table, halike.rows_eq]
  | directory d asUrl =>
    have htold : Answer.directory? l fallbacks d asUrl = Answer.directory? k fallbacks d asUrl := by
      rw [Answer.directory?, Answer.directory?, halike.dirUrl, halike.dirFileWith]
    rw [Command.answer, Command.answer, htold]
  | origin => rw [Command.answer, Command.answer, h]

/-- What a question leaves in the log does not depend on what is in the files, as its answer does not. -/
theorem Trace.ofCommand_eq_of_outline {fs gs : FileSystem} (h : gs.outline = fs.outline) (process : ProcessInfo)
    (provider : Provider) (command : Command) :
    Trace.ofCommand ⟨⟨gs, process⟩, provider⟩ command = Trace.ofCommand ⟨⟨fs, process⟩, provider⟩ command := by
  have hnames := sameNames_of_outline h
  have hlocate := locate_eq_of_outline h process provider
  have halike := answersAlike_of_locate (l := ⟨⟨gs, process⟩, provider⟩) (k := ⟨⟨fs, process⟩, provider⟩) hlocate
  have htrace : Trace.ofLocate ⟨gs, process⟩ provider = Trace.ofLocate ⟨fs, process⟩ provider := by
    cases provider with
    | executable =>
      rw [Trace.ofLocate, Trace.ofLocate]
      simp only [ProcessInfo.programByLink_eq hnames, ProcessInfo.program_eq hnames]
    | fixed o => rfl
    | none => rfl
    | moduleAt address => rfl
  have horigin : Trace.ofOrigin ⟨⟨gs, process⟩, provider⟩ = Trace.ofOrigin ⟨⟨fs, process⟩, provider⟩ := by
    simp only [Trace.ofOrigin, htrace, hlocate]
  cases command with
  | list =>
    simp only [Trace.ofCommand, Trace.ofTable, Trace.ofStartup, Trace.ofDirectory, horigin, halike.startupUrl,
      halike.dirUrl]
  | directory d asUrl => simp only [Trace.ofCommand, Trace.ofDirectory, horigin, halike.dirUrl]
  | origin => exact htrace

/-! ### The log -/

namespace Program

open Log

namespace Logger

variable {logger : Logger} {fs : FileSystem} {p : Progress}

/-- A log is in this file. -/
def WritesTo (logger : Logger) (fs : FileSystem) (number : Nat) : Prop :=
  ∃ path here, logger.sink = .file path ∧ fs.resolve .file path = .ok here ∧ fs.entryAt? here = some (.file number)

/-- If the log is a file, its path leads to one, which may be written. -/
def IsOpen (logger : Logger) (fs : FileSystem) : Prop :=
  ∀ path, logger.sink = .file path → ∃ here number, fs.resolve .file path = .ok here
    ∧ fs.entryAt? here = some (.file number) ∧ fs.denial? (.write number) = none

theorem lines_append (logger : Logger) (events more : List Event) :
    logger.lines (events ++ more) = logger.lines events ++ logger.lines more := by
  rw [lines, List.filter_append, List.flatMap_append]
  rfl

/-- What is written to the error stream for events: their lines, unless there is a file for them. -/
def said (logger : Logger) (events : List Event) : Text :=
  match logger.sink with
  | .errors => logger.lines events
  | .file _ => []

theorem said_append (logger : Logger) (events more : List Event) :
    logger.said (events ++ more) = logger.said events ++ logger.said more := by
  rw [said, said, said]
  split
  · exact logger.lines_append events more
  · rfl

theorem errors_log (logger : Logger) (events : List Event) (p : Progress) :
    (logger.log events p).errors = p.errors ++ logger.said events := by
  rw [said]
  split
  · next hs => rw [log, hs]
  · next path hs => rw [logger.errors_log_of_file events p path hs, List.append_nil]

theorem IsOpen.keeps {gs : FileSystem} (h : logger.IsOpen fs) (hk : Keeps fs gs) : logger.IsOpen gs := by
  intro path hs
  obtain ⟨here, number, hr, hf, hwrite⟩ := h path hs
  exact ⟨here, number, hk.resolve (.inl rfl) hr fun hnone => by simp [hf] at hnone, hk.entries here _ hf,
    (hk.denial?_eq _).trans hwrite⟩

/-- An open log stays in its file. -/
theorem IsOpen.writesTo_keeps {gs : FileSystem} (h : logger.IsOpen fs) (hk : Keeps fs gs) {number : Nat} :
    logger.WritesTo gs number ↔ logger.WritesTo fs number := by
  constructor
  · rintro ⟨path, there, hs, hthere, hentry⟩
    obtain ⟨here, number', hr, hf, -⟩ := h path hs
    have hlater := hk.resolve (.inl rfl) hr fun hnone => by simp [hf] at hnone
    cases hthere.symm.trans hlater
    cases hentry.symm.trans (hk.entries there _ hf)
    exact ⟨path, there, hs, hr, hf⟩
  · rintro ⟨path, here, hs, hr, hf⟩
    exact ⟨path, here, hs, hk.resolve (.inl rfl) hr fun hnone => by simp [hf] at hnone, hk.entries here _ hf⟩

/-- What an open log is told goes into its file, behind what is there, and nowhere else. -/
theorem log_of_isOpen (h : logger.IsOpen p.files) (events : List Event) {path : NativePath}
    (hs : logger.sink = .file path) : ∃ number, logger.WritesTo p.files number
      ∧ logger.log events p = { p with
        files := p.files.withContent number (p.files.content number ++ Utf8.encode (logger.lines events)) } := by
  obtain ⟨here, number, hr, hf, hwrite⟩ := h path hs
  refine ⟨number, ⟨path, here, hs, hr, hf⟩, ?_⟩
  rw [log, hs]
  dsimp only
  rw [appendFile, update, hr]
  dsimp only
  rw [updateAt, hf]
  dsimp only
  rw [hwrite]

theorem WritesTo.unique {number other : Nat} (h : logger.WritesTo fs number) (k : logger.WritesTo fs other) :
    number = other := by
  obtain ⟨path, here, hs, hr, hf⟩ := h
  obtain ⟨path', there, hs', hr', hf'⟩ := k
  cases hs.symm.trans hs'
  cases hr.symm.trans hr'
  cases hf.symm.trans hf'
  rfl

/-- An open log changes nothing but what is in its file. -/
theorem outline_log (h : logger.IsOpen p.files) (events : List Event) :
    (logger.log events p).files.outline = p.files.outline := by
  cases hs : logger.sink with
  | errors => rw [logger.files_log_of_errors events p hs]
  | file path =>
    obtain ⟨number, -, hlog⟩ := log_of_isOpen h events hs
    rw [hlog]
    rfl

/-- In its file, an open log puts its lines behind what is there. -/
theorem content_log_of_writesTo (h : logger.IsOpen p.files) (events : List Event) {number : Nat}
    (hn : logger.WritesTo p.files number) : (logger.log events p).files.content number
      = p.files.content number ++ Utf8.encode (logger.lines events) := by
  obtain ⟨path, -, hs, -, -⟩ := id hn
  obtain ⟨other, hother, hlog⟩ := log_of_isOpen h events hs
  rw [hn.unique hother, hlog]
  exact content_withContent_same _ _ _

/-- An open log leaves what is in the other files. -/
theorem content_log_of_not_writesTo (h : logger.IsOpen p.files) (events : List Event) {number : Nat}
    (hn : ¬logger.WritesTo p.files number) : (logger.log events p).files.content number = p.files.content number := by
  cases hs : logger.sink with
  | errors => rw [logger.files_log_of_errors events p hs]
  | file path =>
    obtain ⟨other, hother, hlog⟩ := log_of_isOpen h events hs
    rw [hlog]
    exact content_withContent_other _ _ _ _ fun he => hn (he ▸ hother)

/-- A log makes at most its file. -/
theorem keeps_log (logger : Logger) (events : List Event) (p : Progress) :
    Keeps p.files (logger.log events p).files := by
  rw [log]
  split
  · exact .refl _
  · split
    · next written hwritten => exact keeps_update hwritten
    · exact .refl _

end Logger

/-- The log is open once it is started. -/
theorem isOpen_startLog (w : World) : (startLog w).1.IsOpen (startLog w).2.files := by
  rw [startLog]
  dsimp only
  split
  · next opened path ho =>
    obtain ⟨rfl, ready, happend⟩ := openLog_eq_ok ho
    have hopen : Logger.IsOpen ⟨.file w.logPath, Filter.ofVariable w.environment.logFilter, w.stamp⟩ opened := by
      intro path hs
      cases hs
      exact resolve_of_update happend
    exact hopen.keeps (Logger.keeps_log _ _ ⟨opened, []⟩)
  · intro path hs
    cases hs

end Program

end Relocation
