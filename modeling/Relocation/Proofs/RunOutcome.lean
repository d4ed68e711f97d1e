import Relocation.Proofs.LogLines

/-!
# When a run fails

A run whose command line is understood goes through four stages: the log, the configuration, the origin that is asked
for, and the command. Each but the first can end it, and the first one that fails decides.

* `Loading`: what comes of the configuration;
* `FailsBy`: why a run fails, stage by stage;
* `failsBy_or_answers`: a request fails for one of these reasons or is answered;
* `run_status`: what a run leaves, on its streams and as its status.
-/

namespace Relocation

open FileSystem

/-! ### Origins that are asked for -/

/-- A text is no origin if it is no absolute path and no URL; the files do not matter. -/
theorem Origin.read_eq_error_iff {fs : FileSystem} {t : Text} {e : LocateError} :
    Origin.read fs t = .error e ↔ (NativePath.ofText t).isAbsolute = false ∧ Origin.parse t = .error e := by
  rw [Origin.read]
  split
  · next habs =>
    obtain ⟨o, ho⟩ := Origin.ofNativePath_isOk fs _ habs
    simp [ho, habs]
  · next habs => simp [habs]

/-- Who tells the origin: the executed program, or a text that is one. -/
inductive Provides (fs : FileSystem) : Option Text → Provider → Prop
  | executable : Provides fs none .executable
  | fixed {t : Text} {o : Origin} : Origin.read fs t = .ok o → Provides fs (some t) (.fixed o)

theorem provides_of_provider {c : Config} {fs : FileSystem} {provider : Provider} (h : c.provider fs = .ok provider) :
    Provides fs c.origin provider := by
  rw [Config.provider] at h
  split at h
  · next t ht =>
    rw [ht]
    cases hr : Origin.read fs t with
    | error e =>
      rw [hr] at h
      cases h
    | ok o =>
      rw [hr] at h
      cases h
      exact .fixed hr
  · next hnone =>
    cases h
    rw [hnone]
    exact .executable

theorem Provides.provider_eq {c : Config} {fs : FileSystem} {provider : Provider}
    (h : Provides fs c.origin provider) : c.provider fs = .ok provider := by
  rw [Config.provider]
  generalize c.origin = origin at h
  cases h with
  | executable => rfl
  | fixed hr =>
    dsimp only
    rw [hr]
    rfl

theorem provider_eq_error_iff {c : Config} {fs : FileSystem} {e : LocateError} :
    c.provider fs = .error e
      ↔ ∃ t, c.origin = some t ∧ (NativePath.ofText t).isAbsolute = false ∧ Origin.parse t = .error e := by
  rw [Config.provider]
  cases c.origin with
  | none => simp
  | some t =>
    simp only [Option.some.injEq, exists_eq_left', ← @Origin.read_eq_error_iff fs]
    cases Origin.read fs t <;> simp [Except.map]

/-! ### Commands without an answer -/

/-- A directory that cannot be derived in the form that is asked for. -/
def Locator.IsMissing (l : Locator) (d : InstallDir) (asUrl : Bool) : Prop :=
  if asUrl then l.dirUrl? d = none else l.dirFile? d = none

theorem Answer.directory?_eq_none_iff {l : Locator} {fallbacks : FallbackTable} {d : InstallDir} {asUrl : Bool} :
    Answer.directory? l fallbacks d asUrl = none ↔ l.IsMissing d asUrl ∧ fallbacks d = none := by
  cases asUrl with
  | true => simp [Answer.directory?, Locator.IsMissing]
  | false => simp [Answer.directory?, Locator.IsMissing, Locator.dirFileWith?]

/-- Why a command has no answer. -/
inductive Unanswered (l : Locator) (fallbacks : FallbackTable) : Command → CommandError → Prop
  | directory {d : InstallDir} {asUrl : Bool} : l.IsMissing d asUrl → fallbacks d = none →
      Unanswered l fallbacks (.directory d asUrl) (.unknownDirectory d)
  | origin {e : LocateError} : l.machine.locate l.provider = .error e →
      Unanswered l fallbacks .origin (.unknownOrigin e)

theorem Command.answer_eq_error_iff {l : Locator} {fallbacks : FallbackTable} {command : Command} {e : CommandError} :
    command.answer l fallbacks = .error e ↔ Unanswered l fallbacks command e := by
  cases command with
  | list =>
    constructor
    · intro h
      cases h
    · intro h
      cases h
  | directory d asUrl =>
    rw [Command.answer]
    constructor
    · intro h
      split at h
      · cases h
      · next hnone =>
        cases h
        obtain ⟨hmissing, hfallback⟩ := Answer.directory?_eq_none_iff.mp hnone
        exact .directory hmissing hfallback
    · intro h
      cases h with
      | directory hmissing hfallback => rw [Answer.directory?_eq_none_iff.mpr ⟨hmissing, hfallback⟩]
  | origin =>
    rw [Command.answer]
    constructor
    · intro h
      split at h
      · cases h
      · next cause hl =>
        cases h
        exact .origin hl
    · intro h
      cases h with
      | origin hl => rw [hl]

namespace Program

open Log

/-! ### The first event -/

/-- The first that is told: where the log is, or why it is not there. -/
def opening (w : World) : Event :=
  match (openLog w.files w.environment w.workDir).2 with
  | .ok path => Trace.logOpened path
  | .error e => Trace.logRefused e

theorem errors_startLog (w : World) : (startLog w).2.errors = (startLog w).1.said [opening w] := by
  rw [startLog, opening]
  cases openLog w.files w.environment w.workDir with
  | mk left opened => cases opened <;> exact Logger.errors_log _ _ _

/-! ### The configuration -/

theorem origin_withOrigin (c : Config) (origin : Option Text) : (c.withOrigin origin).origin = origin.or c.origin := by
  cases origin <;> rfl

section Reports

variable [Toml.Complaints]

/-- What comes of reading a file as a configuration. -/
inductive Loads (fs : FileSystem) (workDir path : NativePath) : Except ConfigError Config → Prop
  | config {t : Text} {c : Config} : fs.readText (workDir.join path) = .ok t → Config.read? t = some c →
      Loads fs workDir path (.ok c)
  /-- There is no file, or its content may not be read or is no text. -/
  | unread {cause : FileError} : fs.readText (workDir.join path) = .error cause →
      Loads fs workDir path (.error (.read path cause))
  | unparsed {t : Text} : fs.readText (workDir.join path) = .ok t → Config.read? t = none →
      Loads fs workDir path (.error (.parse path (Toml.Complaints.about t)))

theorem loads_load (fs : FileSystem) (workDir path : NativePath) :
    Loads fs workDir path (Config.load fs workDir path) := by
  rw [Config.load]
  cases ht : fs.readText (workDir.join path) with
  | error cause => exact .unread ht
  | ok t =>
    dsimp only
    cases hc : Config.read? t with
    | some c => exact .config ht hc
    | none => exact .unparsed ht hc

theorem Loads.load_eq {fs : FileSystem} {workDir path : NativePath} {result : Except ConfigError Config}
    (h : Loads fs workDir path result) : Config.load fs workDir path = result := by
  rw [Config.load]
  cases h with
  | config ht hc => simp only [ht, hc]
  | unread ht => simp only [ht]
  | unparsed ht hc => simp only [ht, hc]

/-- What comes of the configuration a request names, or else of the usual one, and the files that are left then. -/
inductive Loading (w : World) (fs : FileSystem) (r : Request) : FileSystem → Except ConfigError Config.Loaded → Prop
  | named {path : NativePath} {result : Except ConfigError Config} : r.configFile = some path →
      Loads fs w.workDir path result → Loading w fs r fs (result.map fun c => ⟨c, none⟩)
  | homeless : r.configFile = none → w.environment.home = none → Loading w fs r fs (.error (.make .homeless))
  | noDirectory {left : FileSystem} {cause : FileError} : r.configFile = none → w.environment.home ≠ none →
      fs.makeDirectories w.configDirectory = (left, some cause) → Loading w fs r left (.error (.make cause))
  | usual {ready : FileSystem} {result : Except ConfigError Config} : r.configFile = none →
      w.environment.home ≠ none → fs.makeDirectories w.configDirectory = (ready, none) →
      ready.pathExists w.configPath = true → Loads ready w.workDir w.environment.configFile result →
      Loading w fs r ready (result.map fun c => ⟨c, none⟩)
  | created {ready written : FileSystem} : r.configFile = none → w.environment.home ≠ none →
      fs.makeDirectories w.configDirectory = (ready, none) → ready.pathExists w.configPath = false →
      ready.writeFile w.configPath (Utf8.encode (Config.write .default)) = .ok written →
      Loading w fs r written (.ok ⟨.default, some w.environment.configFile⟩)
  | notCreated {ready : FileSystem} {cause : FileError} : r.configFile = none → w.environment.home ≠ none →
      fs.makeDirectories w.configDirectory = (ready, none) → ready.pathExists w.configPath = false →
      ready.writeFile w.configPath (Utf8.encode (Config.write .default)) = .error cause →
      Loading w fs r ready (.error (.make cause))

/-- Loading a configuration ends in one of these ways. -/
theorem loading_loadConfig (w : World) (fs : FileSystem) (r : Request) :
    Loading w fs r (loadConfig w fs r).1 (loadConfig w fs r).2 := by
  rw [loadConfig]
  cases hfile : r.configFile with
  | some path => exact .named hfile (loads_load fs w.workDir path)
  | none =>
    dsimp only
    rw [Config.loadOrCreate, Config.place, Environment.refusal?]
    by_cases hhome : w.environment.home = none
    · rw [if_pos hhome]
      exact .homeless hfile hhome
    · rw [if_neg hhome]
      cases hmade : fs.makeDirectories (w.workDir.join w.environment.configDirectory) with
      | mk ready failure =>
        cases failure with
        | some cause => exact .noDirectory hfile hhome hmade
        | none =>
          dsimp only
          split
          · next hexists => exact .usual hfile hhome hmade hexists (loads_load ready w.workDir _)
          · next hfree =>
            rw [Bool.not_eq_true] at hfree
            split
            · next cause hwrite => exact .notCreated hfile hhome hmade hfree hwrite
            · next written hwrite => exact .created hfile hhome hmade hfree hwrite

section Loading

variable {w : World} {fs gs : FileSystem} {r : Request} {result : Except ConfigError Config.Loaded}

theorem Loading.loadConfig_eq (h : Loading w fs r gs result) : loadConfig w fs r = (gs, result) := by
  cases h with
  | named hfile hload => simp only [loadConfig, hfile, hload.load_eq]
  | homeless hfile hhome =>
    simp only [loadConfig, hfile, Config.loadOrCreate, Config.place, Environment.refusal?, hhome, if_true]
  | noDirectory hfile hhome hm =>
    rw [World.configDirectory] at hm
    simp only [loadConfig, hfile, Config.loadOrCreate, Config.place, Environment.refusal?, hhome, if_false, hm]
  | usual hfile hhome hm hexists hload =>
    rw [World.configDirectory] at hm
    rw [World.configPath] at hexists
    simp only [loadConfig, hfile, Config.loadOrCreate, Config.place, Environment.refusal?, hhome, if_false, hm, hexists,
      if_true, hload.load_eq]
  | created hfile hhome hm hfree hwrite =>
    rw [World.configDirectory] at hm
    rw [World.configPath] at hfree hwrite
    simp only [loadConfig, hfile, Config.loadOrCreate, Config.place, Environment.refusal?, hhome, hm, hfree, hwrite,
      Bool.false_eq_true, if_false]
  | notCreated hfile hhome hm hfree hwrite =>
    rw [World.configDirectory] at hm
    rw [World.configPath] at hfree hwrite
    simp only [loadConfig, hfile, Config.loadOrCreate, Config.place, Environment.refusal?, hhome, hm, hfree, hwrite,
      Bool.false_eq_true, if_false]

theorem keeps_loadConfig (w : World) (fs : FileSystem) (r : Request) : Keeps fs (loadConfig w fs r).1 := by
  rw [loadConfig]
  split
  · exact .refl fs
  · exact Config.keeps_loadOrCreate fs w.environment w.workDir

theorem Loading.keeps (h : Loading w fs r gs result) : Keeps fs gs := by
  have hkept := keeps_loadConfig w fs r
  rw [h.loadConfig_eq] at hkept
  exact hkept

end Loading

/-! ### How a run ends -/

/-- Why a run fails, and what it has told since its log was started. Every stage is reached only if those before it have
not failed. -/
inductive FailsBy (w : World) (r : Request) : List Event → Failure → Prop
  | config {gs : FileSystem} {e : ConfigError} : Loading w (startLog w).2.files r gs (.error e) →
      FailsBy w r [] (.config e)
  | override {gs : FileSystem} {loaded : Config.Loaded} {t : Text} {e : LocateError} :
      Loading w (startLog w).2.files r gs (.ok loaded) → r.origin.or loaded.config.origin = some t →
      (NativePath.ofText t).isAbsolute = false → Origin.parse t = .error e →
      FailsBy w r (Trace.ofConfig loaded.created (loaded.config.withOrigin r.origin)) (.override t e)
  | command {gs : FileSystem} {loaded : Config.Loaded} {provider : Provider} {e : CommandError} :
      Loading w (startLog w).2.files r gs (.ok loaded) → Provides gs (r.origin.or loaded.config.origin) provider →
      Unanswered ⟨⟨gs, w.process⟩, provider⟩ loaded.config.fallbacks.get r.command e →
      FailsBy w r (Trace.ofConfig loaded.created (loaded.config.withOrigin r.origin)
        ++ Trace.ofCommand ⟨⟨gs, w.process⟩, provider⟩ r.command) (.command e)

/-- What a run answers, and what it has told since its log was started. -/
inductive Answers (w : World) (r : Request) : List Event → Text → Prop
  | intro {gs : FileSystem} {loaded : Config.Loaded} {provider : Provider} {output : Text} :
      Loading w (startLog w).2.files r gs (.ok loaded) → Provides gs (r.origin.or loaded.config.origin) provider →
      r.command.answer ⟨⟨gs, w.process⟩, provider⟩ loaded.config.fallbacks.get = .ok output →
      Answers w r (Trace.ofConfig loaded.created (loaded.config.withOrigin r.origin)
        ++ Trace.ofCommand ⟨⟨gs, w.process⟩, provider⟩ r.command) output

/-- What is left of a request that ends after some events, with an answer or a failure. -/
def EndsWith (w : World) (r : Request) (events : List Event) (answered : Except Failure Text) : Prop :=
  ∃ files, carryOut w (startLog w).1 r (startLog w).2
    = (⟨files, (startLog w).1.said (opening w :: events)⟩, answered)

section Stages

variable {w : World} {r : Request} {gs : FileSystem}

/-- A configuration that cannot be loaded ends the run. -/
theorem endsWith_of_loading_error {e : ConfigError} (h : Loading w (startLog w).2.files r gs (.error e)) :
    EndsWith w r [] (.error (.config e)) := by
  rw [EndsWith, carryOut, h.loadConfig_eq]
  exact ⟨gs, by rw [← errors_startLog]⟩

/-- With a configuration, the command is answered on a file system of the outline that is there then. -/
theorem carryOut_of_loading {loaded : Config.Loaded} (h : Loading w (startLog w).2.files r gs (.ok loaded)) :
    ∃ p : Progress, p.files.outline = gs.outline
      ∧ p.errors = (startLog w).1.said
        (opening w :: Trace.ofConfig loaded.created (loaded.config.withOrigin r.origin))
      ∧ carryOut w (startLog w).1 r (startLog w).2
        = answer w (startLog w).1 (loaded.config.withOrigin r.origin) r.command p := by
  have hopen := (isOpen_startLog w).keeps h.keeps
  rw [carryOut, h.loadConfig_eq]
  refine ⟨_, Logger.outline_log (p := { (startLog w).2 with files := gs }) hopen _, ?_, rfl⟩
  rw [Logger.errors_log, errors_startLog, ← Logger.said_append]
  rfl

/-- An origin that is asked for and is none ends the run. -/
theorem endsWith_of_provider_error {loaded : Config.Loaded} {t : Text} {e : LocateError}
    (h : Loading w (startLog w).2.files r gs (.ok loaded)) (ht : r.origin.or loaded.config.origin = some t)
    (habs : (NativePath.ofText t).isAbsolute = false) (he : Origin.parse t = .error e) :
    EndsWith w r (Trace.ofConfig loaded.created (loaded.config.withOrigin r.origin)) (.error (.override t e)) := by
  obtain ⟨p, -, herrors, hcarry⟩ := carryOut_of_loading h
  rw [← origin_withOrigin] at ht
  rw [EndsWith, hcarry, answer, provider_eq_error_iff.mpr ⟨t, ht, habs, he⟩, ht, ← herrors]
  exact ⟨p.files, rfl⟩

/-- With somebody to tell the origin, what the command answers ends the run. -/
theorem endsWith_of_provides {loaded : Config.Loaded} {provider : Provider}
    (h : Loading w (startLog w).2.files r gs (.ok loaded))
    (hp : Provides gs (r.origin.or loaded.config.origin) provider) :
    EndsWith w r (Trace.ofConfig loaded.created (loaded.config.withOrigin r.origin)
        ++ Trace.ofCommand ⟨⟨gs, w.process⟩, provider⟩ r.command)
      ((r.command.answer ⟨⟨gs, w.process⟩, provider⟩ loaded.config.fallbacks.get).mapError .command) := by
  obtain ⟨p, houtline, herrors, hcarry⟩ := carryOut_of_loading h
  rw [← origin_withOrigin] at hp
  have hanswer := Command.answer_eq_of_locate (l := ⟨⟨p.files, w.process⟩, provider⟩) (k := ⟨⟨gs, w.process⟩, provider⟩)
    (locate_eq_of_outline houtline w.process provider) loaded.config.fallbacks.get r.command
  rw [EndsWith, hcarry, answer, provider_eq_of_outline houtline, hp.provider_eq]
  dsimp only
  rw [Trace.ofCommand_eq_of_outline houtline, Config.fallbacks_withOrigin, hanswer, ← List.cons_append,
    Logger.said_append, ← herrors, ← Logger.errors_log]
  exact ⟨_, rfl⟩

end Stages

section Ends

variable {w : World} {r : Request} {events : List Event}

theorem FailsBy.endsWith {f : Failure} (h : FailsBy w r events f) : EndsWith w r events (.error f) := by
  cases h with
  | config hl => exact endsWith_of_loading_error hl
  | override hl ht habs he => exact endsWith_of_provider_error hl ht habs he
  | command hl hp hun =>
    have hends := endsWith_of_provides hl hp
    rw [Command.answer_eq_error_iff.mpr hun] at hends
    exact hends

theorem Answers.endsWith {output : Text} (h : Answers w r events output) : EndsWith w r events (.ok output) := by
  cases h with
  | intro hl hp hanswer =>
    have hends := endsWith_of_provides hl hp
    rw [hanswer] at hends
    exact hends

/-- A request fails for one of the reasons, or it is answered. -/
theorem failsBy_or_answers (w : World) (r : Request) :
    (∃ events f, FailsBy w r events f) ∨ ∃ events output, Answers w r events output := by
  have hl := loading_loadConfig w (startLog w).2.files r
  generalize (loadConfig w (startLog w).2.files r).1 = gs, (loadConfig w (startLog w).2.files r).2 = result at hl
  cases result with
  | error e => exact .inl ⟨_, _, .config hl⟩
  | ok loaded =>
    cases hprovider : (loaded.config.withOrigin r.origin).provider gs with
    | error e =>
      obtain ⟨t, ht, habs, hparse⟩ := provider_eq_error_iff.mp hprovider
      rw [origin_withOrigin] at ht
      exact .inl ⟨_, _, .override hl ht habs hparse⟩
    | ok provider =>
      have hp := provides_of_provider hprovider
      rw [origin_withOrigin] at hp
      cases hanswer : r.command.answer ⟨⟨gs, w.process⟩, provider⟩ loaded.config.fallbacks.get with
      | error e => exact .inl ⟨_, _, .command hl hp (Command.answer_eq_error_iff.mp hanswer)⟩
      | ok output => exact .inr ⟨_, _, .intro hl hp hanswer⟩

/-- No request both fails and is answered. -/
theorem FailsBy.not_answers {told : List Event} {f : Failure} {output : Text} (h : FailsBy w r events f) :
    ¬Answers w r told output := by
  intro ha
  obtain ⟨files, hf⟩ := h.endsWith
  obtain ⟨files', ho⟩ := ha.endsWith
  cases congrArg Prod.snd (hf.symm.trans ho)

end Ends

/-! ### What a run leaves -/

section Runs

variable {w : World} {args : List Bytes} {r : Request} (h : CommandLine.read args = .ok r) {events : List Event}
include h

theorem run_of_read : run w args = conclude (carryOut w (startLog w).1 r (startLog w).2) := by
  rw [run, h]

theorem run_of_failsBy {f : Failure} (hf : FailsBy w r events f) : (run w args).status = 1 ∧ (run w args).output = []
    ∧ (run w args).errors
      = (startLog w).1.said (opening w :: events) ++ "binreloc error: ".toList ++ f.message ++ ['\n'] := by
  obtain ⟨files, hcarry⟩ := hf.endsWith
  have hreport : f.report = "binreloc error: ".toList ++ f.message ++ ['\n'] := rfl
  simp only [run_of_read h, hcarry, conclude, hreport, List.append_assoc, and_self]

theorem run_of_answers {output : Text} (ha : Answers w r events output) : (run w args).status = 0
    ∧ (run w args).output = output ∧ (run w args).errors = (startLog w).1.said (opening w :: events) := by
  obtain ⟨files, hcarry⟩ := ha.endsWith
  rw [run_of_read h, hcarry, conclude]
  exact ⟨rfl, rfl, rfl⟩

end Runs

/-- The table is told whether or not the origin is located. -/
theorem answers_list {w : World} {r : Request} {gs : FileSystem} {loaded : Config.Loaded} {provider : Provider}
    (hr : r.command = .list) (hl : Loading w (startLog w).2.files r gs (.ok loaded))
    (hp : Provides gs (r.origin.or loaded.config.origin) provider) : ∃ events output, Answers w r events output :=
  ⟨_, _, .intro hl hp (by rw [hr]; rfl)⟩

/-- A run whose command line is understood fails exactly for one of the reasons of its stages. Then its status is 1,
nothing is on the output stream, and on the error stream stands one report behind what the log says there, which is
known event by event; else its status is 0, what the command answers is on the output stream, and nothing is reported.
A table is told whether or not the origin is located. -/
theorem run_status (w : World) (args : List Bytes) (r : Request) (h : CommandLine.read args = .ok r) :
    ((run w args).status = 1 ↔ ∃ events f, FailsBy w r events f)
      ∧ ((run w args).status = 0 ↔ ¬∃ events f, FailsBy w r events f)
      ∧ (∀ events f, FailsBy w r events f → (run w args).output = []
        ∧ (run w args).errors
          = (startLog w).1.said (opening w :: events) ++ "binreloc error: ".toList ++ f.message ++ ['\n'])
      ∧ ((run w args).status = 0 → ∃ events output, Answers w r events output ∧ (run w args).output = output
        ∧ (run w args).errors = (startLog w).1.said (opening w :: events))
      ∧ (r.command = .list → ∀ gs loaded provider, Loading w (startLog w).2.files r gs (.ok loaded) →
        Provides gs (r.origin.or loaded.config.origin) provider → (run w args).status = 0) := by
  have hlist (hr : r.command = .list) gs loaded provider (hl : Loading w (startLog w).2.files r gs (.ok loaded))
      (hp : Provides gs (r.origin.or loaded.config.origin) provider) : (run w args).status = 0 := by
    obtain ⟨events, output, ha⟩ := answers_list hr hl hp
    exact (run_of_answers h ha).1
  have hreport events f (hf : FailsBy w r events f) := (run_of_failsBy h hf).2
  rcases failsBy_or_answers w r with ⟨events, f, hf⟩ | ⟨events, output, ha⟩
  · have hone := (run_of_failsBy h hf).1
    refine ⟨⟨fun _ => ⟨events, f, hf⟩, fun _ => hone⟩, ⟨fun hs => ?_, fun hn => absurd ⟨events, f, hf⟩ hn⟩, hreport,
      fun hs => ?_, hlist⟩
    · exact absurd (hone.symm.trans hs) Nat.one_ne_zero
    · exact absurd (hone.symm.trans hs) Nat.one_ne_zero
  · obtain ⟨hzero, houtput, herrors⟩ := run_of_answers h ha
    have hnone : ¬∃ events f, FailsBy w r events f := fun ⟨_, _, hf⟩ => hf.not_answers ha
    refine ⟨⟨fun hs => ?_, fun hf => absurd hf hnone⟩, ⟨fun _ => hnone, fun _ => hzero⟩, hreport, fun _ => ?_, hlist⟩
    · exact absurd (hzero.symm.trans hs) Nat.zero_ne_one
    · exact ⟨events, output, ha, houtput, herrors⟩

end Reports

/-- A machine on which no home directory is known, with a configuration that may not be read. -/
def homelessMachine : World where
  files :=
    { entries := [([Utf8.encode "c".toList], .file 0)]
      contents := []
      denials := [(.read 0, .accessDenied)] }
  process := ⟨.error .noEntry, .unopened .noEntry, 0, 0⟩
  environment := ⟨none, none, none, none⟩
  workDir := .ofText "/".toList
  stamp := "now".toList

/-- Without a home directory there is no place for a log nor for a configuration, and only the first is told before the
report. A configuration that is named and may not be read ends the run as well. -/
theorem run_status_homelessMachine :
    (CommandLine.read [Utf8.encode "show".toList] = .ok ⟨none, none, .list⟩
      ∧ (run homelessMachine [Utf8.encode "show".toList]).status = 1
      ∧ (run homelessMachine [Utf8.encode "show".toList]).output = []
      ∧ (run homelessMachine [Utf8.encode "show".toList]).errors
        = ("now  WARN binreloc: file logging unavailable: $HOME must be set\n"
          ++ "binreloc error: $HOME must be set\n").toList)
    ∧ CommandLine.read [Utf8.encode "--config=c".toList, Utf8.encode "show".toList]
        = .ok ⟨none, some (.ofText "c".toList), .list⟩
      ∧ (run homelessMachine [Utf8.encode "--config=c".toList, Utf8.encode "show".toList]).status = 1
      ∧ (run homelessMachine [Utf8.encode "--config=c".toList, Utf8.encode "show".toList]).output = []
      ∧ (run homelessMachine [Utf8.encode "--config=c".toList, Utf8.encode "show".toList]).errors
        = ("now  WARN binreloc: file logging unavailable: $HOME must be set\n"
          ++ "binreloc error: read c: Permission denied (os error 13)\n").toList := by
  have hread : CommandLine.read [Utf8.encode "show".toList] = .ok ⟨none, none, .list⟩ := by rfl
  have hnamed : CommandLine.read [Utf8.encode "--config=c".toList, Utf8.encode "show".toList]
      = .ok ⟨none, some (.ofText "c".toList), .list⟩ := by rfl
  have hopen : openLog homelessMachine.files homelessMachine.environment homelessMachine.workDir
      = (homelessMachine.files, .error .homeless) := rfl
  have hsaid : (startLog homelessMachine).1.said [opening homelessMachine]
      = "now  WARN binreloc: file logging unavailable: $HOME must be set\n".toList := by
    rw [startLog, opening, hopen]
    decide
  have hf : FailsBy homelessMachine ⟨none, none, .list⟩ [] (.config (.make .homeless)) :=
    .config (.homeless rfl rfl)
  have hdenied : homelessMachine.files.readText (homelessMachine.workDir.join (.ofText "c".toList))
      = .error .accessDenied := by cbv
  have hg : FailsBy homelessMachine ⟨none, some (.ofText "c".toList), .list⟩ []
      (.config (.read (.ofText "c".toList) .accessDenied)) :=
    .config (.named rfl (.unread hdenied))
  obtain ⟨hone, -, hreport, -, -⟩ := run_status homelessMachine _ _ hread
  obtain ⟨hone', -, hreport', -, -⟩ := run_status homelessMachine _ _ hnamed
  refine ⟨⟨hread, hone.mpr ⟨_, _, hf⟩, (hreport _ _ hf).1, ?_⟩, hnamed, hone'.mpr ⟨_, _, hg⟩, (hreport' _ _ hg).1, ?_⟩
  · rw [(hreport _ _ hf).2, hsaid]
    decide +kernel
  · rw [(hreport' _ _ hg).2, hsaid]
    decide +kernel

end Program

end Relocation
