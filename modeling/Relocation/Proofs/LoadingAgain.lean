import Relocation.Proofs.LogLines

/-!
# Loading the usual configuration again

When a configuration is made, the log is told so. The log can be a file itself: then a line is put behind what is in it,
and that is all that changes of what was there. The next time the configuration is there, so that nothing is made and
nothing is told. It comes out as it did the first time, unless it was made by a process that may not read what it makes;
such a process finds the file closed.

* `Loaded.told`: what is left once the log is told;
* `files_log_ofConfig`: in a run, the log is told this first;
* `loadOrCreate_settles`: loading or making the configuration once and again.
-/

namespace Relocation

open FileSystem Log Program

namespace Config

/-! ### Telling the log -/

/-- What is left of the files once a log is told of the one that was made, if one was. -/
def Loaded.told (loaded : Loaded) (logger : Logger) (after : FileSystem) : FileSystem :=
  match loaded.created with
  | none => after
  | some path => (logger.log [Trace.configCreated path] ⟨after, []⟩).files

/-- What a log is told of a configuration that was loaded. -/
def Loaded.lines (loaded : Loaded) (logger : Logger) : Text :=
  logger.lines (loaded.created.toList.map Trace.configCreated)

section Told

variable {logger : Logger} {after : FileSystem}

theorem keeps_told (loaded : Loaded) (logger : Logger) (after : FileSystem) :
    Keeps after (loaded.told logger after) := by
  rw [Loaded.told]
  split
  · exact .refl after
  · exact Logger.keeps_log logger _ ⟨after, []⟩

/-- In a run, the log is told of the file that was made before it is told of the configuration. -/
theorem files_log_ofConfig (h : logger.IsOpen after) (loaded : Loaded) (c : Config) (errors : Text) :
    (logger.log (Trace.ofConfig loaded.created c) ⟨after, errors⟩).files
      = (logger.log [Trace.configLoaded c] ⟨loaded.told logger after, errors⟩).files := by
  rw [Loaded.told, Trace.ofConfig]
  cases loaded.created with
  | none => rfl
  | some path =>
    cases hs : logger.sink with
    | errors => simp only [logger.files_log_of_errors _ _ hs]
    | file log =>
      have hkept := Logger.keeps_log logger [Trace.configCreated path] ⟨after, []⟩
      obtain ⟨number, hn, hall⟩ := Logger.log_of_isOpen (p := ⟨after, errors⟩) h
        ([Trace.configCreated path] ++ [Trace.configLoaded c]) hs
      obtain ⟨first, hfirst, htold⟩ := Logger.log_of_isOpen (p := ⟨after, []⟩) h [Trace.configCreated path] hs
      obtain ⟨second, hsecond, hloaded⟩ := Logger.log_of_isOpen
        (p := ⟨(logger.log [Trace.configCreated path] ⟨after, []⟩).files, errors⟩) (h.keeps hkept)
        [Trace.configLoaded c] hs
      obtain rfl := hn.unique hfirst
      obtain rfl := hn.unique ((h.writesTo_keeps hkept).mp hsecond)
      show (logger.log ([Trace.configCreated path] ++ [Trace.configLoaded c]) ⟨after, errors⟩).files = _
      rw [hall, hloaded, htold]
      dsimp only
      rw [content_withContent_same, withContent_withContent, Logger.lines_append, Utf8.encode_append, List.append_assoc]

/-- What is not in the log is found as it was. -/
theorem foundAt_told_of_not_writesTo (h : logger.IsOpen after) (loaded : Loaded) {here : Location}
    (hn : ∀ number content, after.foundAt here = .file number content → ¬logger.WritesTo after number) :
    (loaded.told logger after).foundAt here = after.foundAt here := by
  rw [Loaded.told]
  split
  · rfl
  · next path _ =>
    refine foundAt_eq (entryAt?_eq_of_outline (Logger.outline_log (p := ⟨after, []⟩) h _) here) fun number hfile => ?_
    exact Logger.content_log_of_not_writesTo (p := ⟨after, []⟩) h _ (hn number _ (foundAt_of_file hfile))

/-- What is in the log stays in front of what it is told. -/
theorem foundAt_told_of_writesTo (h : logger.IsOpen after) (loaded : Loaded) {here : Location} {number : Nat}
    {content : Bytes} (hfile : after.foundAt here = .file number content) (hn : logger.WritesTo after number) :
    (loaded.told logger after).foundAt here = .file number (content ++ Utf8.encode (loaded.lines logger)) := by
  obtain ⟨hentry, rfl⟩ := foundAt_eq_file hfile
  rw [Loaded.told, Loaded.lines]
  cases loaded.created with
  | none =>
    rw [hfile]
    show _ = Found.file number (after.content number ++ [])
    rw [List.append_nil]
  | some path =>
    have htold := Logger.content_log_of_writesTo (p := ⟨after, []⟩) h [Trace.configCreated path] hn
    have hlater : (logger.log [Trace.configCreated path] ⟨after, []⟩).files.entryAt? here = some (.file number) :=
      (entryAt?_eq_of_outline (Logger.outline_log (p := ⟨after, []⟩) h _) here).trans hentry
    exact (foundAt_of_file hlater).trans (congrArg (Found.file number) htold)

end Told

/-! ### Once and again -/

section Loading

variable [Toml.Complaints]

/-- Loading the usual configuration, or making it, changes nothing that is there, also where something in its way may
not be searched, read or written; only if the log is a file, and a configuration has been made, the line that says so
stands behind what is in the log. Once that has succeeded, doing it again changes nothing at all. It gives the same
configuration again, and so does loading its file, if this was there before, or may be read by the process that has made
it; else both say that it may not be read. The file that is made holds a text that says what was given. -/
theorem loadOrCreate_settles (fs : FileSystem) (env : Environment) (workDir : NativePath) (logger : Logger)
    (hlog : logger.IsOpen fs) :
    (∀ here, fs.foundAt here ≠ .nothing → (loadOrCreate fs env workDir).1.foundAt here = fs.foundAt here)
      ∧ ∀ after loaded, loadOrCreate fs env workDir = (after, .ok loaded) →
        (∀ here, fs.foundAt here ≠ .nothing →
          (∀ number content, fs.foundAt here = .file number content → ¬logger.WritesTo fs number) →
          (loaded.told logger after).foundAt here = fs.foundAt here)
        ∧ (∀ here number content, fs.foundAt here = .file number content → logger.WritesTo fs number →
          (loaded.told logger after).foundAt here = .file number (content ++ Utf8.encode (loaded.lines logger)))
        ∧ (loaded.created = none → loaded.told logger after = after ∧ IsSettled after env workDir (.ok loaded.config))
        ∧ ∀ path ∈ loaded.created, path = env.configFile ∧ loaded.config = default
          ∧ read? (write default) = some default
          ∧ ∃ here number, (loaded.told logger after).find .target (workDir.join path) = .ok (here, .file number)
            ∧ (loaded.told logger after).content number = Utf8.encode (write default)
            ∧ (fs.denial? (.read number) = none → IsSettled (loaded.told logger after) env workDir (.ok default))
            ∧ ∀ cause, fs.denial? (.read number) = some cause →
              IsSettled (loaded.told logger after) env workDir (.error (.read path cause)) := by
  refine ⟨fun here => foundAt_loadOrCreate fs env workDir, fun after loaded h => ?_⟩
  have hkept := keeps_loadOrCreate fs env workDir
  have hfound here (hthere : fs.foundAt here ≠ .nothing) := foundAt_loadOrCreate fs env workDir hthere
  rw [h] at hkept
  rw [h] at hfound
  have hopen := hlog.keeps hkept
  refine ⟨fun here hthere hn => ?_, fun here number content hfile hn => ?_, fun hnone => ?_, fun path hpath => ?_⟩
  · rw [foundAt_told_of_not_writesTo hopen loaded, hfound here hthere]
    intro number content hfile hwrites
    rw [hfound here hthere] at hfile
    exact hn number content hfile ((hlog.writesTo_keeps hkept).mp hwrites)
  · have hafter := hfound here (by simp [hfile])
    rw [hfile] at hafter
    exact foundAt_told_of_writesTo hopen loaded hafter ((hlog.writesTo_keeps hkept).mpr hn)
  · have htold : loaded.told logger after = after := by rw [Loaded.told, hnone]
    exact ⟨htold, isSettled_of_loaded h hnone⟩
  · obtain ⟨hname, hconfig, here, number, hfind, hcontent, hnew, hsettled⟩ := isSettled_of_made h hpath
    have htold := keeps_told loaded logger after
    -- the log was there before, so that it is another file
    have hother : ¬logger.WritesTo after number := by
      intro hwrites
      obtain ⟨-, there, -, -, hfile⟩ := (hlog.writesTo_keeps hkept).mp hwrites
      exact hnew there hfile
    have hsame : (loaded.told logger after).content number = after.content number := by
      rw [Loaded.told]
      split
      · rfl
      · exact Logger.content_log_of_not_writesTo (p := ⟨after, []⟩) hopen _ hother
    obtain ⟨hopened, hclosed⟩ := hsettled _ htold hsame
    exact ⟨hname, hconfig, read?_write isTextual_default, here, number, htold.find hfind, hsame.trans hcontent, hopened,
      hclosed⟩

end Loading

def keptFile : Location :=
  ["h", "c", "kept.toml"].map fun name => Utf8.encode name.toList

def homeLog : Location :=
  ["h", "log"].map fun name => Utf8.encode name.toList

/-- A home with a log, whose settings are elsewhere behind a link. The link of the configuration leads to nothing.
Whoever has this home may be masked from reading the next file that is made. -/
def danglingHome (masked : Bool) : FileSystem where
  entries :=
    [(homeLog.take 1, .directory), (homeLog, .file 0),
      ([Utf8.encode "h".toList, Utf8.encode ".config".toList], .link (.ofText "c".toList)),
      (keptFile.take 2, .directory),
      (keptFile.take 2 ++ [Utf8.encode "binreloc".toList], .directory),
      (keptFile.take 2 ++ [Utf8.encode "binreloc".toList, Utf8.encode "config.toml".toList],
        .link (.ofText "../kept.toml".toList))]
  contents := [(0, Utf8.encode "before\n".toList)]
  denials := if masked then [(.read 1, .accessDenied)] else []

def homeEnvironment : Environment :=
  ⟨some (.ofText "/h".toList), none, none, none⟩

/-- The home once its configuration is made. -/
def settledHome (masked : Bool) : FileSystem :=
  (danglingHome masked).withNewFile keptFile (Utf8.encode (write default))

/-- The default configuration, which had to be made. -/
def madeDefault : Loaded :=
  ⟨default, some homeEnvironment.configFile⟩

def homeLogger : Logger :=
  ⟨.file (.ofText "/h/log".toList), Filter.ofVariable none, "now".toList⟩

theorem resolve_homeLog (masked : Bool) :
    (danglingHome masked).resolve .file (.ofText "/h/log".toList) = .ok homeLog := by
  cases masked <;> cbv

theorem isOpen_homeLogger (masked : Bool) : homeLogger.IsOpen (danglingHome masked) := by
  have hwrite : (danglingHome masked).denial? (.write 0) = none := by
    cases masked <;> rfl
  intro path hs
  cases hs
  exact ⟨homeLog, 0, resolve_homeLog masked, rfl, hwrite⟩

theorem writesTo_homeLogger (masked : Bool) : homeLogger.WritesTo (danglingHome masked) 0 :=
  ⟨_, homeLog, rfl, resolve_homeLog masked, rfl⟩

theorem foundAt_homeLog (masked : Bool) :
    (danglingHome masked).foundAt homeLog = .file 0 (Utf8.encode "before\n".toList) := by
  cases masked <;> rfl

theorem loadOrCreate_danglingHome (masked : Bool) :
    loadOrCreate (danglingHome masked) homeEnvironment (.ofText "/".toList)
      = (settledHome masked, .ok madeDefault) := by
  have hplace : place (danglingHome masked) homeEnvironment (.ofText "/".toList)
      = (danglingHome masked, .ok homeEnvironment.configFile) := by
    cases masked <;> cbv
  have hfree : (danglingHome masked).pathExists ((NativePath.ofText "/".toList).join homeEnvironment.configFile)
      = false := by
    cases masked <;> cbv
  have hresolve : (danglingHome masked).resolve .file ((NativePath.ofText "/".toList).join homeEnvironment.configFile)
      = .ok keptFile := by
    cases masked <;> cbv
  have hnone : (danglingHome masked).entryAt? keptFile = none := by
    cases masked <;> decide
  have hmay : (danglingHome masked).denial? (.change keptFile.dropLast) = none := by
    cases masked <;> rfl
  simp only [loadOrCreate, hplace, hfree, writeFile, update, hresolve, updateAt, hnone, addEntry, hmay]
  rfl

/-- What stands in the log of the home once it is told of the configuration. -/
theorem lines_madeDefault : Utf8.encode "before\n".toList ++ Utf8.encode (madeDefault.lines homeLogger)
    = Utf8.encode ("before\nnow  INFO binreloc_core::config: created default config at ".toList
      ++ "/h/.config/binreloc/config.toml\n".toList) := by
  decide +kernel

theorem loadOrCreate_settles_danglingHome :
    let told := madeDefault.told homeLogger (settledHome false)
    homeLogger.IsOpen (danglingHome false)
      ∧ loadOrCreate (danglingHome false) homeEnvironment (.ofText "/".toList) = (settledHome false, .ok madeDefault)
      ∧ told.foundAt homeLog = .file 0 (Utf8.encode
        ("before\nnow  INFO binreloc_core::config: created default config at ".toList
          ++ "/h/.config/binreloc/config.toml\n".toList))
      ∧ loadOrCreate told homeEnvironment (.ofText "/".toList) = (told, .ok ⟨default, none⟩)
      ∧ load told (.ofText "/".toList) homeEnvironment.configFile = .ok default := by
  intro told
  have hopen := isOpen_homeLogger false
  have hfirst := loadOrCreate_danglingHome false
  obtain ⟨-, hsettles⟩ :=
    loadOrCreate_settles (danglingHome false) homeEnvironment (.ofText "/".toList) homeLogger hopen
  obtain ⟨-, hlog, -, hmade⟩ := hsettles _ _ hfirst
  have htold := hlog homeLog 0 _ (foundAt_homeLog false) (writesTo_homeLogger false)
  rw [lines_madeDefault] at htold
  obtain ⟨-, -, -, here, number, -, -, hopened, -⟩ := hmade _ rfl
  have hsettled := hopened rfl
  exact ⟨hopen, hfirst, htold, hsettled.loadOrCreate, hsettled.load⟩

/-- A process that is masked from reading what it makes is given the default configuration once and never again, and the
log that was there has changed by it. -/
theorem not_settled_danglingHome :
    let told := madeDefault.told homeLogger (settledHome true)
    loadOrCreate (danglingHome true) homeEnvironment (.ofText "/".toList) = (settledHome true, .ok madeDefault)
      ∧ loadOrCreate (settledHome true) homeEnvironment (.ofText "/".toList)
        = (settledHome true, .error (.read homeEnvironment.configFile .accessDenied))
      ∧ load (settledHome true) (.ofText "/".toList) homeEnvironment.configFile
        = .error (.read homeEnvironment.configFile .accessDenied)
      ∧ (danglingHome true).foundAt homeLog = .file 0 (Utf8.encode "before\n".toList)
      ∧ told.foundAt homeLog = .file 0 (Utf8.encode
        ("before\nnow  INFO binreloc_core::config: created default config at ".toList
          ++ "/h/.config/binreloc/config.toml\n".toList)) := by
  intro told
  have hfirst := loadOrCreate_danglingHome true
  have hkept := keeps_loadOrCreate (danglingHome true) homeEnvironment (.ofText "/".toList)
  have hthere : (danglingHome true).foundAt homeLog ≠ .nothing := by
    rw [foundAt_homeLog]
    simp
  have hfound := foundAt_loadOrCreate (danglingHome true) homeEnvironment (.ofText "/".toList) hthere
  rw [hfirst] at hkept hfound
  obtain ⟨-, -, here, number, hfind, -, -, hsettled⟩ := isSettled_of_made hfirst rfl
  have hplace : (settledHome true).find .target ((NativePath.ofText "/".toList).join homeEnvironment.configFile)
      = .ok (keptFile, .file 1) := by cbv
  cases hfind.symm.trans hplace
  obtain ⟨-, hclosed⟩ := hsettled _ (.refl _) rfl
  have hagain := hclosed _ (by rfl)
  have hwrites := ((isOpen_homeLogger true).writesTo_keeps hkept).mpr (writesTo_homeLogger true)
  have htold := foundAt_told_of_writesTo ((isOpen_homeLogger true).keeps hkept) madeDefault
    (hfound.trans (foundAt_homeLog true)) hwrites
  rw [lines_madeDefault] at htold
  exact ⟨hfirst, hagain.loadOrCreate, hagain.load, foundAt_homeLog true, htold⟩

end Config

end Relocation
