import Relocation.Program
import Relocation.Proofs.SettledConfig

/-!
# What a run touches

A run works on two files: the log, and the configuration at its usual place. With no links on the way to them, whatever
a run does and wherever it ends, it only makes what is missing of their directories, makes the log or lets it grow at
its end, and makes the configuration where nothing exists. The latter, and the directories it needs, are only for a run
whose command line is understood and names no configuration of its own.

* `World.permit`: what a run may change, place by place;
* `startLog_invariant`: what starting the log leaves true;
* `changes_startLog`, `changes_loadConfig`, `changes_carryOut`: the steps of a run as changes it permits;
* `run_mayBecome`: what a run may make of any place.
-/

namespace Relocation

open FileSystem

/-! ### The two files -/

namespace World

def logDirectory (w : World) : NativePath :=
  w.workDir.join w.environment.stateDirectory

def logPath (w : World) : NativePath :=
  w.workDir.join w.environment.logFile

def configDirectory (w : World) : NativePath :=
  w.workDir.join w.environment.configDirectory

def configPath (w : World) : NativePath :=
  w.workDir.join w.environment.configFile

/-- No link is on the way to the log and to the configuration, and the log has no other name. -/
structure HasPlainPlaces (w : World) : Prop where
  log : w.files.IsLinkless w.logPath
  config : w.files.IsLinkless w.configPath
  sole : w.files.IsSole w.logPath.place

/-- What a run may change. The configuration is made only if a run asks for the usual one. -/
def permit (w : World) (usual : Prop) : Permit where
  directory here := w.logDirectory.Passes here ∨ usual ∧ w.configDirectory.Passes here
  grow here := here = w.logPath.place
  create here content := usual ∧ here = w.configPath.place ∧ content = Utf8.encode (Config.write .default)

variable (w : World)

theorem logPath_eq : w.logPath = w.logDirectory.child "binreloc.log" :=
  NativePath.join_join w.workDir w.environment.stateDirectory rfl

theorem configPath_eq : w.configPath = w.configDirectory.child "config.toml" :=
  NativePath.join_join w.workDir w.environment.configDirectory rfl

theorem place_logPath : w.logPath.place = w.logDirectory.place ++ [Utf8.encode "binreloc.log".toList] := by
  rw [logPath_eq, NativePath.child, NativePath.place_join _ rfl]
  rfl

theorem place_configPath : w.configPath.place = w.configDirectory.place ++ [Utf8.encode "config.toml".toList] := by
  rw [configPath_eq, NativePath.child, NativePath.place_join _ rfl]
  rfl

/-- The log and the configuration have different names, wherever their directories are. -/
theorem place_configPath_ne : w.configPath.place ≠ w.logPath.place := by
  rw [place_logPath, place_configPath]
  intro h
  exact absurd (List.append_inj_right' h rfl) (by decide)

variable {w}

theorem HasPlainPlaces.logDirectory (h : w.HasPlainPlaces) : w.files.IsLinkless w.logDirectory :=
  fun here target hp => h.log here target (w.logPath_eq ▸ hp.of_join rfl)

theorem HasPlainPlaces.configDirectory (h : w.HasPlainPlaces) : w.files.IsLinkless w.configDirectory :=
  fun here target hp => h.config here target (w.configPath_eq ▸ hp.of_join rfl)

end World

/-- A command line that is understood and names no configuration asks for the usual one. -/
def CommandLine.AsksForUsualConfig (args : List Bytes) : Prop :=
  ∃ r, CommandLine.read args = .ok r ∧ r.configFile = none

namespace Program

open Log

/-! ### The log -/

/-- Whether a log is written to the error stream or to its usual file. -/
def Logger.IsOf (logger : Logger) (w : World) : Prop :=
  logger.sink = .errors ∨ logger.sink = .file w.logPath

section Steps

theorem files_conclude (p : Progress) (answered : Except Failure Text) :
    (conclude (p, answered)).files = p.files := by
  cases answered <;> rfl

theorem files_refuse (e : CommandLine.UsageError) (p : Progress) : (refuse e p).files = p.files := by
  cases e <;> rfl

variable {w : World} {usual : Prop}

/-- An open log has been appended to under its usual path. -/
theorem openLog_eq_ok {opened : FileSystem} {path : NativePath}
    (h : openLog w.files w.environment w.workDir = (opened, .ok path)) :
    path = w.environment.logFile ∧ ∃ ready : FileSystem, ready.appendFile w.logPath [] = .ok opened := by
  rw [openLog] at h
  split at h
  · cases h
  · split at h
    · cases h
    · next ready _ =>
      split at h
      · next happend =>
        cases h
        exact ⟨rfl, ready, happend⟩
      · cases h

theorem isOf_startLog : (startLog w).1.IsOf w := by
  rw [startLog]
  dsimp only
  split
  · next opened path ho => exact .inr (by rw [(openLog_eq_ok ho).1]; rfl)
  · exact .inl rfl

section Invariant

variable {holds : FileSystem → Prop}
  (happend : ∀ bs fs gs, holds fs → fs.appendFile w.logPath bs = .ok gs → holds gs)
include happend

/-- What appending to the usual log leaves true is true once something is logged. -/
theorem log_invariant {logger : Logger} (hl : logger.IsOf w) (events : List Event) {p : Progress}
    (h : holds p.files) : holds (logger.log events p).files := by
  rcases hl with hs | hs
  · rw [logger.files_log_of_errors events p hs]
    exact h
  · rw [Logger.log, hs]
    dsimp only
    split
    · next written ha => exact happend _ _ _ h ha
    · exact h

/-- What is true with the directories of the log, and what appending to it leaves true, is true once it is started. -/
theorem startLog_invariant (hstart : holds w.files) (hdirs : holds (w.files.makeDirectories w.logDirectory).1) :
    holds (startLog w).2.files := by
  have hopen : holds (openLog w.files w.environment w.workDir).1 := by
    rw [openLog]
    split
    · exact hstart
    · split
      · next left e hleft =>
        rw [World.logDirectory, hleft] at hdirs
        exact hdirs
      · next ready hready =>
        rw [World.logDirectory, hready] at hdirs
        split
        · next opened ha => exact happend _ _ _ hdirs ha
        · exact hdirs
  have hof : (startLog w).1.IsOf w := isOf_startLog
  rw [startLog] at hof ⊢
  dsimp only at hof ⊢
  split
  · next opened path ho =>
    rw [ho] at hopen hof
    exact log_invariant happend hof _ hopen
  · next left e hleft =>
    rw [hleft] at hopen hof
    exact log_invariant happend hof _ hopen

end Invariant

theorem changes_appendLog (hw : w.HasPlainPlaces) (bs : Bytes) (fs gs : FileSystem)
    (h : Changes (w.permit usual) w.files fs) (happend : fs.appendFile w.logPath bs = .ok gs) :
    Changes (w.permit usual) w.files gs :=
  h.trans (changes_appendFile rfl (h.isLinkless hw.log) happend)

theorem changes_log (hw : w.HasPlainPlaces) {logger : Logger} (hl : logger.IsOf w) (events : List Event)
    {p : Progress} (h : Changes (w.permit usual) w.files p.files) :
    Changes (w.permit usual) w.files (logger.log events p).files :=
  log_invariant (changes_appendLog hw) hl events h

theorem changes_startLog (hw : w.HasPlainPlaces) : Changes (w.permit usual) w.files (startLog w).2.files :=
  startLog_invariant (changes_appendLog hw) (.refl _ w.files)
    (changes_makeDirectories (fun _ hp => Or.inl hp) hw.logDirectory)

/-! ### The steps behind it -/

theorem changes_answer (hw : w.HasPlainPlaces) {logger : Logger} (hl : logger.IsOf w) (c : Config) (command : Command)
    {p : Progress} (h : Changes (w.permit usual) w.files p.files) :
    Changes (w.permit usual) w.files (answer w logger c command p).1.files := by
  rw [answer]
  split
  · exact h
  · exact changes_log hw hl _ h

variable [Toml.Complaints]

/-- The usual configuration is made where nothing exists, and nothing else is done to it. -/
theorem changes_loadOrCreate (hw : w.HasPlainPlaces) (husual : usual) {fs : FileSystem}
    (h : Changes (w.permit usual) w.files fs) :
    Changes (w.permit usual) w.files (Config.loadOrCreate fs w.environment w.workDir).1 := by
  have hdirs : Changes (w.permit usual) w.files (fs.makeDirectories w.configDirectory).1 :=
    h.trans (changes_makeDirectories (fun _ hp => Or.inr ⟨husual, hp⟩) (h.isLinkless hw.configDirectory))
  exact Config.loadOrCreate_invariant h hdirs fun _ _ hready hfree hwritten =>
    hready.trans (changes_writeFile ⟨husual, rfl, rfl⟩ (hready.isLinkless hw.config) hfree hwritten)

/-- Loading a configuration changes something only if none is named. -/
theorem changes_loadConfig (hw : w.HasPlainPlaces) {r : Request} (hr : r.configFile = none → usual)
    {fs : FileSystem} (h : Changes (w.permit usual) w.files fs) :
    Changes (w.permit usual) w.files (loadConfig w fs r).1 := by
  rw [loadConfig]
  split
  · exact h
  · next hnone => exact changes_loadOrCreate hw (hr hnone) h

theorem changes_carryOut (hw : w.HasPlainPlaces) {logger : Logger} (hl : logger.IsOf w) {r : Request}
    (hr : r.configFile = none → usual) {p : Progress} (h : Changes (w.permit usual) w.files p.files) :
    Changes (w.permit usual) w.files (carryOut w logger r p).1.files := by
  have hload := changes_loadConfig hw hr h
  rw [carryOut]
  split
  · next files e hfiles =>
    rw [hfiles] at hload
    exact hload
  · next files loaded hfiles =>
    rw [hfiles] at hload
    exact changes_answer hw hl _ _ (changes_log hw hl _ hload)

/-! ### The run -/

/-- A run makes only changes that are permitted to it. -/
theorem changes_run (hw : w.HasPlainPlaces) (args : List Bytes) :
    Changes (w.permit (CommandLine.AsksForUsualConfig args)) w.files (run w args).files := by
  have hstart : Changes (w.permit (CommandLine.AsksForUsualConfig args)) w.files (startLog w).2.files :=
    changes_startLog hw
  rw [run]
  dsimp only
  split
  · rw [files_refuse]
    exact hstart
  · next r hread =>
    rw [files_conclude]
    exact changes_carryOut hw isOf_startLog (fun hnone => ⟨r, hread, hnone⟩) hstart

end Steps

/-- With no links on the way to the log and to the usual configuration, a run makes of any place only what is permitted
to it: the missing directories on the way to the two files, the log, whose earlier content stays in front, and a
configuration where nothing was. A configuration that exists is left as it is, and none is made by a run that does not
ask for the usual one. -/
theorem run_mayBecome [Toml.Complaints] (w : World) (args : List Bytes) (hw : w.HasPlainPlaces) :
    (∀ here, MayBecome (w.permit (CommandLine.AsksForUsualConfig args)) here (w.files.foundAt here)
        ((run w args).files.foundAt here))
      ∧ (∀ number content, w.files.foundAt w.configPath.place = .file number content →
        (run w args).files.foundAt w.configPath.place = .file number content)
      ∧ (¬CommandLine.AsksForUsualConfig args → w.files.foundAt w.configPath.place = .nothing →
        ∀ number content, (run w args).files.foundAt w.configPath.place ≠ .file number content) := by
  have hsole (here : Location) (hg : (w.permit (CommandLine.AsksForUsualConfig args)).grow here) :
      w.files.IsSole here := hg ▸ hw.sole
  have hframe := (changes_run hw args).mayBecome hsole
  have hconfig := hframe w.configPath.place
  -- the configuration has another name than the log, so that it never grows
  have hgrow : ¬(w.permit (CommandLine.AsksForUsualConfig args)).grow w.configPath.place := w.place_configPath_ne
  refine ⟨hframe, fun number content hfile => ?_, fun husual hnone number content hfile => ?_⟩
  · rw [hfile] at hconfig
    generalize (run w args).files.foundAt w.configPath.place = after at hconfig
    cases hconfig with
    | same => rfl
    | grown _ _ more hg => exact absurd hg hgrow
  · rw [hnone, hfile] at hconfig
    cases hconfig with
    | file _ _ hmay =>
      rcases hmay with hg | hc
      · exact hgrow hg
      · exact husual hc.1

def oldLog : Location :=
  ["h", "s", "binreloc", "binreloc.log"].map fun name => Utf8.encode name.toList

def oldLines : Bytes := Utf8.encode "before\n".toList

/-- A machine with a log on it, and without a configuration. -/
def usedMachine : World where
  files :=
    { entries :=
        [(oldLog.take 1, .directory), (oldLog.take 2, .directory), (oldLog.take 3, .directory), (oldLog, .file 0)]
      contents := [(0, oldLines)] }
  process := ⟨.error .noEntry, .unopened .noEntry, 0, 0⟩
  environment := ⟨some (.ofText "/h".toList), none, some (.ofText "/h/s".toList), none⟩
  workDir := .ofText "/".toList
  stamp := "now".toList

theorem hasPlainPlaces_usedMachine : usedMachine.HasPlainPlaces := by
  have hlink (here : Location) (target : NativePath) : usedMachine.files.entryAt? here ≠ some (.link target) := by
    intro h
    have hm := mem_of_entryAt? h (by simp)
    simp [usedMachine] at hm
  refine ⟨fun here target _ => hlink here target, fun here target _ => hlink here target, ?_⟩
  intro other number h1 h2
  have hm1 := mem_of_entryAt? h1 (by simp)
  have hm2 := mem_of_entryAt? h2 (by simp)
  simp only [usedMachine, List.mem_cons, Prod.mk.injEq, reduceCtorEq, and_false, Entry.file.injEq, false_or,
    List.not_mem_nil, or_false] at hm1 hm2
  exact hm2.1.trans hm1.1.symm

theorem run_mayBecome_usedMachine :
    usedMachine.HasPlainPlaces ∧ ∃ more, (run usedMachine [Utf8.encode "show".toList]).files.foundAt oldLog
      = .file 0 (oldLines ++ more) := by
  obtain ⟨hframe, -, -⟩ := run_mayBecome usedMachine [Utf8.encode "show".toList] hasPlainPlaces_usedMachine
  have hlog := hframe oldLog
  have hbefore : usedMachine.files.foundAt oldLog = .file 0 oldLines := by decide
  rw [hbefore] at hlog
  refine ⟨hasPlainPlaces_usedMachine, ?_⟩
  generalize (run usedMachine _).files.foundAt oldLog = after at hlog ⊢
  cases hlog with
  | same => exact ⟨[], by rw [List.append_nil]⟩
  | grown _ _ more _ => exact ⟨more, rfl⟩

end Program

end Relocation
