import Relocation.Log.Stamp
import Relocation.Proofs.AlikeRuns
import Relocation.Proofs.GlobalOptions

/-!
# An origin on the command line

An origin can be named on the command line or in the configuration. A run that is given both takes the one on the
command line, and what it says then is what it says if that one stands in the configuration: whatever the configured
origin is, it is never read as one, and the fallbacks stay in force.

There is one configuration for which the two runs do not report the same: the log. It is started first, so that its
first line stands behind the configuration by the time this is read. No run takes it for a configuration then, and each
shows the place in its own text.

* `CommandLine.Spells`: the command lines of a request;
* `LogSpares`: the log is not written into the configuration;
* `run_of_load`: a run that is told its configuration;
* `run_of_not_logSpares`: a run whose configuration is the log;
* `run_origin_overrides`: the origin on the command line against the same origin in the configuration.
-/

namespace Relocation

open FileSystem

/-- Arguments that spell a request: the words of its command, with its options somewhere between them. -/
def CommandLine.Spells (args : List Bytes) (r : Request) : Prop :=
  ∃ v words options, IsAskedBy r.command v words ∧ options.Perm (globalOptions r.origin r.configFile)
    ∧ Inserted options (Utf8.encode v.word :: words) args

theorem CommandLine.Spells.read_eq {args : List Bytes} {r : Request} (h : Spells args r) : read args = .ok r := by
  obtain ⟨v, words, options, hasked, hoptions, hin⟩ := h
  exact read_inserted hasked hin hoptions

/-! ### The first line of a log -/

theorem IsNumeral.isKeyChar {t : Text} (h : IsNumeral t) : ∀ c ∈ t, Toml.isKeyChar c = true := by
  have hall : ∀ d < 16, Toml.isKeyChar (Nat.digitChar d) = true := by decide
  intro c hc
  obtain ⟨d, hd, rfl⟩ := h c hc
  exact hall d hd

namespace Log

namespace Stamp

theorem isKeyChar_padded (width n : Nat) : ∀ c ∈ padded width n, Toml.isKeyChar c = true :=
  ((isNumeral_decimal n).padLeft width).isKeyChar

theorem isKeyChar_writeDate (d : Date) : ∀ c ∈ writeDate d, Toml.isKeyChar c = true := by
  intro c hc
  simp only [writeDate, List.mem_append, List.mem_cons] at hc
  rcases hc with (hc | rfl | hc) | rfl | hc
  · exact isKeyChar_padded _ _ c hc
  · rfl
  · exact isKeyChar_padded _ _ c hc
  · rfl
  · exact isKeyChar_padded _ _ c hc

/-- A time stamp is a date and an hour, and the rest of the time behind a colon. -/
theorem write_eq (microseconds : Nat) :
    ∃ hour time, write microseconds = hour ++ ':' :: time ∧ Toml.IsBareKey hour := by
  rw [write]
  generalize dateOfDays (microseconds / 1000000 / 86400) = date, microseconds / 1000000 % 86400 = ofDay
  obtain ⟨rest, hrest⟩ : ∃ rest, writeTime ofDay = padded 2 (ofDay / 3600) ++ ':' :: rest :=
    ⟨_, List.append_assoc _ _ _⟩
  refine ⟨writeDate date ++ 'T' :: padded 2 (ofDay / 3600), rest ++ '.' :: padded 6 (microseconds % 1000000) ++ ['Z'], ?_,
    by simp, fun c hc => ?_⟩
  · simp only [hrest, List.append_assoc, List.cons_append]
  · simp only [List.mem_append, List.mem_cons] at hc
    rcases hc with hc | rfl | hc
    · exact isKeyChar_writeDate date c hc
    · rfl
    · exact isKeyChar_padded _ _ c hc

end Stamp

/-- A line of a log is no line of a configuration: it breaks off behind the hour. -/
theorem Event.isBroken_line (e : Event) (microseconds : Nat) : Toml.IsBroken (e.line (Stamp.write microseconds)) := by
  obtain ⟨date, time, hwrite, hdate⟩ := Stamp.write_eq microseconds
  rw [Event.line, hwrite, List.append_assoc, List.cons_append]
  exact Toml.isBroken_of_bareKey hdate (by decide) (by decide) (by decide) (by decide) _

end Log

namespace Program

/-! ### The configuration once the log is started -/

/-- Starting the log leaves the content of the file under a path as it is. -/
def LogSpares (w : World) (p : NativePath) : Prop :=
  ∀ here number, w.files.find .target p = .ok (here, .file number) →
    (startLog w).2.files.content number = w.files.content number

/-- Starting the log makes things, and takes nothing away. -/
theorem keeps_startLog (w : World) : Keeps w.files (startLog w).2.files :=
  startLog_invariant (fun _ _ _ h happend => h.trans (keeps_update happend)) (.refl _) (keeps_makeDirectories _ _)

theorem content_openLog (w : World) (number : Nat) :
    (openLog w.files w.environment w.workDir).1.content number = w.files.content number := by
  have hdirs := content_makeDirectories w.files (w.workDir.join w.environment.stateDirectory) number
  rw [openLog]
  split
  · rfl
  · split
    · next left e hleft =>
      rw [hleft] at hdirs
      exact hdirs
    · next ready hready =>
      rw [hready] at hdirs
      split
      · next opened happend =>
        have hopened := content_appendFile happend number
        rw [List.append_nil, or_self] at hopened
        exact hopened.trans hdirs
      · exact hdirs

/-- Starting the log puts at most its first line behind what is in a file. -/
theorem content_startLog (w : World) (number : Nat) :
    (startLog w).2.files.content number = w.files.content number
      ∨ (startLog w).1 = ⟨.file w.logPath, Log.Filter.ofVariable w.environment.logFilter, w.stamp⟩
        ∧ opening w = Trace.logOpened w.environment.logFile
        ∧ (startLog w).2.files.content number
          = w.files.content number ++ Utf8.encode ((startLog w).1.lines [opening w]) := by
  have hopened := content_openLog w number
  rw [startLog, opening]
  cases hopen : openLog w.files w.environment w.workDir with
  | mk opened result =>
    rw [hopen] at hopened
    cases result with
    | error e =>
      dsimp only
      rw [Logger.files_log_of_errors _ _ _ rfl]
      exact .inl hopened
    | ok path =>
      obtain ⟨rfl, -⟩ := openLog_eq_ok hopen
      dsimp only
      rw [Logger.log]
      dsimp only
      split
      · next written happend =>
        rw [← hopened]
        exact (content_appendFile happend number).imp id fun h => ⟨rfl, rfl, h⟩
      · exact .inl hopened

section Started

variable {w : World} {p : NativePath} {content : Bytes}

/-- What the log spares is found as it was. -/
theorem LogSpares.holds (hlog : LogSpares w p) (h : w.files.Holds p content) :
    (startLog w).2.files.Holds p content := by
  obtain ⟨here, number, hfind, hread, hcontent⟩ := h
  have hkeeps := keeps_startLog w
  exact ⟨here, number, hkeeps.find hfind, (hkeeps.denial?_eq _).trans hread, (hlog here number hfind).trans hcontent⟩

/-- What the log does not spare has its first line behind it. -/
theorem holds_of_not_logSpares (hlog : ¬LogSpares w p) (h : w.files.Holds p content) :
    (∃ path, (startLog w).1.sink = .file path) ∧ (startLog w).2.files.Holds p
      (content ++ Utf8.encode ((Trace.logOpened w.environment.logFile).line w.stamp)) := by
  obtain ⟨here, number, hfind, hread, rfl⟩ := h
  have hkeeps := keeps_startLog w
  have hspoilt : (startLog w).2.files.content number ≠ w.files.content number := by
    intro he
    refine hlog fun there other hother => ?_
    cases hfind.symm.trans hother
    exact he
  obtain he | ⟨hlogger, hopening, he⟩ := content_startLog w number
  · exact absurd he hspoilt
  · rw [hlogger, hopening, Logger.lines, List.filter_cons] at he
    split at he
    · refine ⟨⟨_, congrArg Logger.sink hlogger⟩, here, number, hkeeps.find hfind, (hkeeps.denial?_eq _).trans hread, ?_⟩
      rw [he, List.filter_nil, List.flatMap_singleton]
    · rw [List.filter_nil, List.flatMap_nil] at he
      exact absurd (he.trans (List.append_nil _)) hspoilt

/-- The log spares the same on a machine with other contents. -/
theorem LogSpares.withFiles (hlog : LogSpares w p) {other : FileSystem} (hsame : w.files.SameFiles other) :
    LogSpares (w.withFiles other) p := by
  intro here number hfind
  rw [World.withFiles, find_eq_of_outline hsame.outline] at hfind
  obtain ⟨-, -, hgrown⟩ := alike_startLog hsame
  obtain ⟨more, hf, hg⟩ := hgrown.content number
  rw [hlog here number hfind] at hf
  obtain rfl : more = [] := List.self_eq_append_right.mp hf
  rw [hg, List.append_nil]
  rfl

end Started

/-! ### Runs that are told their configuration -/

/-- With an origin that can be read, a command is answered for this origin, with the configured fallbacks. -/
theorem answer_of_read (w : World) (c : Config) (command : Command) {logger : Logger} {p : Progress} {origin : Text}
    {o : Origin} (h : Origin.read p.files origin = .ok o) :
    ∃ q, answer w logger (c.withOrigin (some origin)) command p
      = (q, (command.answer ⟨⟨w.files, w.process⟩, .fixed o⟩ c.fallbacks.get).mapError .command) := by
  have hprovider : (c.withOrigin (some origin)).provider p.files = .ok (.fixed o) := Provides.provider_eq (.fixed h)
  have hanswer := Command.answer_eq_of_locate (l := ⟨⟨p.files, w.process⟩, .fixed o⟩)
    (k := ⟨⟨w.files, w.process⟩, .fixed o⟩) rfl c.fallbacks.get command
  rw [answer, hprovider]
  dsimp only
  rw [Config.fallbacks_withOrigin, hanswer]
  exact ⟨_, rfl⟩

section Runs

variable [Toml.Complaints]

/-- What is carried out once the named configuration has been loaded. -/
theorem carryOut_of_load {w : World} {logger : Logger} {origin : Option Text} {path : NativePath} {command : Command}
    {p : Progress} {c : Config} (h : Config.load p.files w.workDir path = .ok c) :
    carryOut w logger ⟨origin, some path, command⟩ p = answer w logger (c.withOrigin origin) command
      (logger.log [Trace.configLoaded (c.withOrigin origin)] p) := by
  rw [carryOut, loadConfig]
  simp only [h]
  rfl

/-- A run that is told which configuration to load, once that is read. -/
theorem run_of_load {w : World} {args : List Bytes} {origin : Option Text} {path : NativePath} {command : Command}
    {c : Config} (hread : CommandLine.read args = .ok ⟨origin, some path, command⟩)
    (h : Config.load (startLog w).2.files w.workDir path = .ok c) :
    run w args = conclude (answer w (startLog w).1 (c.withOrigin origin) command
      ((startLog w).1.log [Trace.configLoaded (c.withOrigin origin)] (startLog w).2)) := by
  rw [run_of_read hread, carryOut_of_load h]

/-- What is reported of a file that describes no configuration: what the library says of its text. -/
def parseReport (path : NativePath) (t : Text) : Text :=
  "binreloc error: parse ".toList ++ path.display ++ ": ".toList ++ Toml.Complaints.about t ++ ['\n']

/-- A written configuration with the first line of the log behind it ends every run that is told to load it. -/
theorem run_of_not_logSpares {w : World} {args : List Bytes} {origin : Option Text} {path : NativePath}
    {command : Command} {c : Config} {microseconds : Nat}
    (hread : CommandLine.read args = .ok ⟨origin, some path, command⟩) (hstamp : w.stamp = Log.Stamp.write microseconds)
    (hfile : w.files.Holds (w.workDir.join path) (Utf8.encode (Config.write c)))
    (hlog : ¬LogSpares w (w.workDir.join path)) :
    (run w args).status = 1 ∧ (run w args).output = [] ∧ (run w args).errors
      = parseReport path (Config.write c ++ (Trace.logOpened w.environment.logFile).line w.stamp) := by
  obtain ⟨⟨sink, hsink⟩, hholds⟩ := holds_of_not_logSpares hlog hfile
  rw [← Utf8.encode_append] at hholds
  have hnone := Config.read?_write_append ((Trace.logOpened w.environment.logFile).isBroken_line microseconds) c
  rw [← hstamp] at hnone
  have hload := Loading.named (r := ⟨origin, some path, command⟩) rfl (.unparsed (readText_of_holds hholds) hnone)
  obtain ⟨hstatus, houtput, herrors⟩ := run_of_failsBy hread (.config hload)
  refine ⟨hstatus, houtput, herrors.trans ?_⟩
  rw [Logger.said, hsink]
  rfl

/-! ### The origin on the command line -/

/-- An origin on the command line is as good as the same origin in the configuration. Take any configuration that can be
written down, with an origin or without one, and be it a text that is none. Run with another origin on the file of this
configuration, or without that on a file at the same path which says it with the other origin, the program ends with the
same status and gives the same answer. It also reports the same, and if the given origin can be read, what is answered is
answered for it, with the fallbacks of this configuration; unless starting the log writes into that very file. Then both
runs fail, and what each reports is what is said of its own text with the first line of the log behind it. -/
theorem run_origin_overrides (w : World) (other : FileSystem) (path : NativePath) (c : Config) (origin : Text)
    (command : Command) (args args' : List Bytes) (hc : c.IsTextual)
    (hfile : w.files.Holds (w.workDir.join path) (Utf8.encode (Config.write c)))
    (hsame : w.files.SameFiles other)
    (hother : other.Holds (w.workDir.join path) (Utf8.encode (Config.write (c.withOrigin (some origin)))))
    (hargs : CommandLine.Spells args ⟨some origin, some path, command⟩)
    (hargs' : CommandLine.Spells args' ⟨none, some path, command⟩) :
    (LogSpares w (w.workDir.join path) →
      (run (w.withFiles other) args').status = (run w args).status
        ∧ (run (w.withFiles other) args').output = (run w args).output
        ∧ (run (w.withFiles other) args').errors = (run w args).errors
        ∧ ∀ o, Origin.read (startLog w).2.files origin = .ok o → ∃ p, run w args
          = conclude (p, (command.answer ⟨⟨w.files, w.process⟩, .fixed o⟩ c.fallbacks.get).mapError .command))
      ∧ ∀ microseconds, w.stamp = Log.Stamp.write microseconds →
        (run (w.withFiles other) args').status = (run w args).status
          ∧ (run (w.withFiles other) args').output = (run w args).output
          ∧ (¬LogSpares w (w.workDir.join path) → (run w args).status = 1 ∧ (run w args).output = []
            ∧ (run w args).errors
              = parseReport path (Config.write c ++ (Trace.logOpened w.environment.logFile).line w.stamp)
            ∧ (run (w.withFiles other) args').errors = parseReport path
              (Config.write (c.withOrigin (some origin)) ++ (Trace.logOpened w.environment.logFile).line w.stamp)) := by
  have hc' : (c.withOrigin (some origin)).IsTextual := hc
  have hspared (hlog : LogSpares w (w.workDir.join path)) :
      (run (w.withFiles other) args').status = (run w args).status
        ∧ (run (w.withFiles other) args').output = (run w args).output
        ∧ (run (w.withFiles other) args').errors = (run w args).errors
        ∧ ∀ o, Origin.read (startLog w).2.files origin = .ok o → ∃ p, run w args
          = conclude (p, (command.answer ⟨⟨w.files, w.process⟩, .fixed o⟩ c.fallbacks.get).mapError .command) := by
    have hload : Config.load (startLog w).2.files w.workDir path = .ok c :=
      Config.load_of_holds (hlog.holds hfile) (Config.read?_write hc)
    have hload' : Config.load (startLog (w.withFiles other)).2.files w.workDir path = .ok (c.withOrigin (some origin)) :=
      Config.load_of_holds ((hlog.withFiles hsame).holds hother) (Config.read?_write hc')
    have hrun := run_of_load hargs.read_eq hload
    -- from here on both have the same configuration
    obtain ⟨hlogger, halike, -⟩ := alike_startLog hsame
    obtain ⟨htold, -⟩ := halike.log (startLog w).1 [Trace.configLoaded (c.withOrigin (some origin))]
    have hanswer := sameResult_answer htold w other (startLog w).1 (c.withOrigin (some origin)) command
    rw [hrun, run_of_load hargs'.read_eq hload', hlogger, Config.withOrigin_none]
    obtain ⟨hstatus, houtput, herrors⟩ := conclude_of_sameResult hanswer
    refine ⟨hstatus, houtput, herrors, fun o ho => ?_⟩
    -- telling the configuration to the log has changed no entry
    have houtline := Logger.outline_log (isOpen_startLog w) [Trace.configLoaded (c.withOrigin (some origin))]
    rw [← Origin.read_eq_of_outline houtline] at ho
    obtain ⟨q, hq⟩ := answer_of_read w c command ho
    rw [hq]
    exact ⟨q, rfl⟩
  refine ⟨hspared, fun microseconds hstamp => ?_⟩
  by_cases hlog : LogSpares w (w.workDir.join path)
  · obtain ⟨hstatus, houtput, -⟩ := hspared hlog
    exact ⟨hstatus, houtput, fun hspoilt => absurd hlog hspoilt⟩
  · have hlog' : ¬LogSpares (w.withFiles other) (w.workDir.join path) := fun h => hlog (h.withFiles hsame.symm)
    obtain ⟨hstatus, houtput, herrors⟩ := run_of_not_logSpares hargs.read_eq hstamp hfile hlog
    obtain ⟨hstatus', houtput', herrors'⟩ := run_of_not_logSpares (w := w.withFiles other) hargs'.read_eq hstamp hother hlog'
    exact ⟨hstatus'.trans hstatus.symm, houtput'.trans houtput.symm, fun _ => ⟨hstatus, houtput, herrors, herrors'⟩⟩

end Runs

/-- A machine without a place for a log, and with a configuration of this content. -/
def configuredMachine (content : Bytes) : World :=
  homelessMachine.withFiles
    { entries := [([Utf8.encode "c".toList], .file 0)]
      contents := [(0, content)] }

theorem holds_configuredMachine (content : Bytes) :
    (configuredMachine content).files.Holds ((NativePath.ofText "/".toList).join (.ofText "c".toList)) content :=
  ⟨[Utf8.encode "c".toList], 0, by cbv, rfl, rfl⟩

theorem logSpares_configuredMachine (content : Bytes) (p : NativePath) : LogSpares (configuredMachine content) p := by
  have hopen : openLog (configuredMachine content).files homelessMachine.environment homelessMachine.workDir
      = ((configuredMachine content).files, .error .homeless) := rfl
  have hstarted : (startLog (configuredMachine content)).2.files = (configuredMachine content).files := by
    show (startLog (homelessMachine.withFiles (configuredMachine content).files)).2.files = _
    simp only [startLog, World.withFiles, hopen]
    rfl
  intro here number _
  rw [hstarted]

/-- A configuration whose origin is none, and which has a fallback. -/
def spoiledConfig : Config :=
  ⟨some "nowhere".toList, { data := some (.ofText "/d".toList) }⟩

/-- A program on another machine. -/
def mirroredTool : Origin :=
  ⟨⟨"https".toList, some ⟨[], none, some (.domain "mirror".toList), none⟩,
    .segments false ["opt".toList, "bin".toList, "tool".toList], none, none⟩⟩

theorem run_origin_overrides_spoiledConfig :
    let origin : Text := "https://mirror/opt/bin/tool".toList
    let told := spoiledConfig.withOrigin (some origin)
    let w := configuredMachine (Utf8.encode (Config.write spoiledConfig))
    let other := (configuredMachine (Utf8.encode (Config.write told))).files
    let args := ["--origin=https://mirror/opt/bin/tool", "dir", "--config", "c", "data"].map fun arg =>
      Utf8.encode arg.toList
    let args' := ["dir", "data", "--config=c"].map fun arg => Utf8.encode arg.toList
    (spoiledConfig.IsTextual ∧ w.files.SameFiles other
        ∧ CommandLine.Spells args ⟨some origin, some (.ofText "c".toList), .directory .data false⟩
        ∧ CommandLine.Spells args' ⟨none, some (.ofText "c".toList), .directory .data false⟩)
      ∧ (run w args).status = 0 ∧ (run w args).output = "/d\n".toList
      ∧ (run (w.withFiles other) args').status = (run w args).status
      ∧ (run (w.withFiles other) args').output = (run w args).output
      ∧ (run (w.withFiles other) args').errors = (run w args).errors := by
  intro origin told w other args args'
  have htext : spoiledConfig.IsTextual := by
    intro d p hp
    cases d <;> cases hp
    exact ⟨_, rfl⟩
  have hsame : w.files.SameFiles other := ⟨rfl, rfl⟩
  have hasked : CommandLine.IsAskedBy (.directory .data false) .directory [Utf8.encode "data".toList] :=
    .directory (by decide)
  have horigin : (CommandLine.GlobalOption.origin origin).IsSpelled
      [Utf8.encode "--origin=https://mirror/opt/bin/tool".toList] := .attached (by decide)
  have hconfig : (CommandLine.GlobalOption.configFile (.ofText "c".toList)).IsSpelled
      [Utf8.encode "--config".toList, Utf8.encode "c".toList] := .apart (by decide) (by decide)
  have hattached : (CommandLine.GlobalOption.configFile (.ofText "c".toList)).IsSpelled
      [Utf8.encode "--config=c".toList] := .attached (by decide)
  have hargs : CommandLine.Spells args ⟨some origin, some (.ofText "c".toList), .directory .data false⟩ :=
    ⟨_, _, _, hasked, .refl _, .option horigin (.word _ (.option hconfig (CommandLine.inserted_nil _)))⟩
  have hargs' : CommandLine.Spells args' ⟨none, some (.ofText "c".toList), .directory .data false⟩ :=
    ⟨_, _, _, hasked, .refl _, .word _ (.word _ (.option hattached (CommandLine.inserted_nil [])))⟩
  obtain ⟨hstatus, houtput, herrors, htold⟩ := (run_origin_overrides w other (.ofText "c".toList) spoiledConfig origin _
    args args' htext (holds_configuredMachine _) hsame (holds_configuredMachine _) hargs hargs').1
    (logSpares_configuredMachine _ _)
  have hread : Origin.read (startLog w).2.files origin = .ok mirroredTool := by rfl
  have hanswer : (Command.directory .data false).answer ⟨⟨w.files, w.process⟩, .fixed mirroredTool⟩
      spoiledConfig.fallbacks.get = .ok "/d\n".toList := by rfl
  obtain ⟨p, hrun⟩ := htold mirroredTool hread
  rw [hanswer] at hrun
  exact ⟨⟨htext, hsame, hargs, hargs'⟩, congrArg Outcome.status hrun, congrArg Outcome.output hrun, hstatus, houtput,
    herrors⟩

/-- A machine on whose log stands something else. -/
def loggedMachine (content : Bytes) : World :=
  { usedMachine with
    files := { usedMachine.files with contents := [(0, content)] }
    stamp := Log.Stamp.write 0 }

theorem holds_loggedMachine (content : Bytes) : (loggedMachine content).files.Holds usedMachine.logPath content :=
  ⟨oldLog, 0, by cbv, rfl, rfl⟩

theorem not_logSpares_loggedMachine (content : Bytes) : ¬LogSpares (loggedMachine content) usedMachine.logPath := by
  have hfind : (loggedMachine content).files.find .target usedMachine.logPath = .ok (oldLog, .file 0) := by cbv
  have hopen : openLog (loggedMachine content).files (loggedMachine content).environment (loggedMachine content).workDir
      = ((loggedMachine (content ++ [])).files, .ok usedMachine.environment.logFile) := by cbv
  have happend (more : Bytes) : (loggedMachine content).files.appendFile usedMachine.logPath more
      = .ok (loggedMachine (content ++ more)).files := by
    have hresolve : (loggedMachine content).files.resolve .file usedMachine.logPath = .ok oldLog := by cbv
    rw [appendFile, update, hresolve]
    rfl
  let logger : Logger := ⟨.file usedMachine.logPath, Log.Filter.ofVariable none, Log.Stamp.write 0⟩
  have hstarted : startLog (loggedMachine content)
      = (logger, logger.log [Trace.logOpened usedMachine.environment.logFile] ⟨(loggedMachine content).files, []⟩) := by
    rw [startLog, hopen, List.append_nil]
    rfl
  have hline : Utf8.encode (logger.lines [Trace.logOpened usedMachine.environment.logFile]) ≠ [] := by decide +kernel
  intro hlog
  have hcontent := hlog oldLog 0 hfind
  rw [hstarted, Logger.log] at hcontent
  dsimp only [logger] at hcontent
  rw [happend] at hcontent
  exact hline (List.append_right_eq_self.mp hcontent)

/-- With the log as configuration, the two runs do not report the same: with the origin in the configuration, the line of
the log stands two lines further down. -/
theorem reports_differ_loggedMachine :
    let origin : Text := "/opt/app/bin/app".toList
    let told := Config.default.withOrigin (some origin)
    let path : NativePath := .ofText "/h/s/binreloc/binreloc.log".toList
    let w := loggedMachine (Utf8.encode (Config.write .default))
    let other := (loggedMachine (Utf8.encode (Config.write told))).files
    let args := ["--config=/h/s/binreloc/binreloc.log", "--origin=/opt/app/bin/app", "dir", "data"].map fun arg =>
      Utf8.encode arg.toList
    let args' := ["--config=/h/s/binreloc/binreloc.log", "dir", "data"].map fun arg => Utf8.encode arg.toList
    let report (line : Text) : Text :=
      "binreloc error: parse /h/s/binreloc/binreloc.log: TOML parse error at line ".toList
        ++ (line ++ (", column 14\n  |\n".toList ++ (line
        ++ (" | 1970-01-01T00:00:00.000000Z  INFO binreloc_core::logging: binreloc logging initialized at ".toList
        ++ "/h/s/binreloc/binreloc.log\n  |              ^\nexpected \x60.\x60, \x60=\x60\n\n".toList))))
    (Config.default.IsTextual
        ∧ w.files.Holds (w.workDir.join path) (Utf8.encode (Config.write .default))
        ∧ w.files.SameFiles other
        ∧ other.Holds (w.workDir.join path) (Utf8.encode (Config.write told))
        ∧ CommandLine.Spells args ⟨some origin, some path, .directory .data false⟩
        ∧ CommandLine.Spells args' ⟨none, some path, .directory .data false⟩)
      ∧ (run w args).errors = report ['2'] ∧ (run (w.withFiles other) args').errors = report ['4']
      ∧ (run (w.withFiles other) args').errors ≠ (run w args).errors := by
  intro origin told path w other args args' report
  have hdata : CommandLine.IsAskedBy (.directory .data false) .directory [Utf8.encode "data".toList] :=
    .directory (by decide)
  have horigin : (CommandLine.GlobalOption.origin origin).IsSpelled [Utf8.encode "--origin=/opt/app/bin/app".toList] :=
    .attached (by decide)
  have hconfig : (CommandLine.GlobalOption.configFile path).IsSpelled
      [Utf8.encode "--config=/h/s/binreloc/binreloc.log".toList] := .attached (by decide)
  have hargs : CommandLine.Spells args ⟨some origin, some path, .directory .data false⟩ :=
    ⟨_, _, _, hdata, .swap _ _ _, .option hconfig (.option horigin (CommandLine.inserted_nil _))⟩
  have hargs' : CommandLine.Spells args' ⟨none, some path, .directory .data false⟩ :=
    ⟨_, _, _, hdata, .refl _, .option hconfig (CommandLine.inserted_nil _)⟩
  have htext : Config.default.IsTextual := by
    intro d p hp
    cases d <;> cases hp
  have hpath : w.workDir.join path = usedMachine.logPath := by decide
  have hfile := holds_loggedMachine (Utf8.encode (Config.write .default))
  have hother := holds_loggedMachine (Utf8.encode (Config.write told))
  have hlog := not_logSpares_loggedMachine (Utf8.encode (Config.write .default))
  have hlog' := not_logSpares_loggedMachine (Utf8.encode (Config.write told))
  rw [← hpath] at hfile hother hlog hlog'
  obtain ⟨-, -, herrors⟩ := run_of_not_logSpares hargs.read_eq (w := w) rfl hfile hlog
  obtain ⟨-, -, herrors'⟩ := run_of_not_logSpares hargs'.read_eq (w := w.withFiles other) rfl hother hlog'
  have hreport : (run w args).errors = report ['2'] := herrors.trans (by decide +kernel)
  have hreport' : (run (w.withFiles other) args').errors = report ['4'] := herrors'.trans (by decide +kernel)
  refine ⟨⟨htext, hfile, ⟨rfl, rfl⟩, hother, hargs, hargs'⟩, hreport, hreport', ?_⟩
  rw [hreport, hreport']
  intro h
  exact absurd (congrArg List.head? (List.append_cancel_left h)) (by decide)

end Program

end Relocation
