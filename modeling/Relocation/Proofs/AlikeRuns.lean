import Relocation.Proofs.RunOutcome

/-!
# Two machines that differ in what their files hold

A run asks for the content of one file only, its configuration; everything else it finds out is a matter of entries and
rights. So two machines with the same entries and rights go through a run side by side: directories are made in both or
in neither, the log is opened in both or in neither, and what is put behind the content of a file is the same in both.
Where both load the same configuration, both say the same.

* `SameFiles`: the same outline, and the same numbers in use, so that new files get the same numbers;
* `GrownAlike`: what a step makes of two such file systems;
* `alike_startLog`: the log, step by step;
* `sameResult_answer`, `conclude_of_sameResult`: a command, and what is left of a run besides files.
-/

namespace Relocation

/-- The same result, with states that are related. -/
inductive SameResult {σ α : Type} (related : σ → σ → Prop) : σ × α → σ × α → Prop
  | intro {s t : σ} (a : α) : related s t → SameResult related (s, a) (t, a)

namespace FileSystem

/-- The same outline, and the same numbers in use. What the files hold may differ. -/
structure SameFiles (fs gs : FileSystem) : Prop where
  outline : gs.outline = fs.outline
  numbers : gs.contents.map Prod.fst = fs.contents.map Prod.fst

/-- The same has been made in both file systems, and the same has been put behind what the files held. -/
structure GrownAlike (fs gs fs' gs' : FileSystem) : Prop where
  same : fs'.SameFiles gs'
  content : ∀ number, ∃ more, fs'.content number = fs.content number ++ more
    ∧ gs'.content number = gs.content number ++ more

/-- A change that fails alike in both file systems, or makes the same of both. -/
inductive ChangedAlike (fs gs : FileSystem) : Except FileError FileSystem → Except FileError FileSystem → Prop
  | failed (e : FileError) : ChangedAlike fs gs (.error e) (.error e)
  | changed {fs' gs' : FileSystem} : GrownAlike fs gs fs' gs' → ChangedAlike fs gs (.ok fs') (.ok gs')

section Same

variable {fs gs : FileSystem}

theorem SameFiles.freshNumber_eq (h : fs.SameFiles gs) : gs.freshNumber = fs.freshNumber := by
  have hentries : gs.entries = fs.entries := by
    show gs.outline.entries = fs.outline.entries
    rw [h.outline]
  have hdenials : gs.denials = fs.denials := by
    show gs.outline.denials = fs.outline.denials
    rw [h.outline]
  rw [freshNumber, freshNumber, FileSystem.numbers, FileSystem.numbers, hentries, hdenials, h.numbers]

theorem SameFiles.symm (h : fs.SameFiles gs) : gs.SameFiles fs :=
  ⟨h.outline.symm, h.numbers.symm⟩

theorem SameFiles.withEntry (h : fs.SameFiles gs) (here : Location) (e : Entry) :
    (fs.withEntry here e).SameFiles (gs.withEntry here e) := by
  refine ⟨?_, h.numbers⟩
  show gs.outline.withEntry here e = fs.outline.withEntry here e
  rw [h.outline]

theorem SameFiles.withContent (h : fs.SameFiles gs) (number : Nat) (bs cs : Bytes) :
    (fs.withContent number bs).SameFiles (gs.withContent number cs) := by
  refine ⟨h.outline, ?_⟩
  show (withValue number cs gs.contents).map Prod.fst = (withValue number bs fs.contents).map Prod.fst
  rw [map_fst_withValue, map_fst_withValue, h.numbers]

/-! ### What grows alike -/

theorem SameFiles.grownAlike (h : fs.SameFiles gs) : GrownAlike fs gs fs gs :=
  ⟨h, fun _ => ⟨[], (List.append_nil _).symm, (List.append_nil _).symm⟩⟩

theorem GrownAlike.trans {fs' gs' fs'' gs'' : FileSystem} (h : GrownAlike fs gs fs' gs')
    (k : GrownAlike fs' gs' fs'' gs'') : GrownAlike fs gs fs'' gs'' := by
  refine ⟨k.same, fun number => ?_⟩
  obtain ⟨more, hf, hg⟩ := h.content number
  obtain ⟨again, hf', hg'⟩ := k.content number
  exact ⟨more ++ again, by rw [hf', hf, List.append_assoc], by rw [hg', hg, List.append_assoc]⟩

/-- An entry says nothing of what files hold. -/
theorem SameFiles.grownAlike_withEntry (h : fs.SameFiles gs) (here : Location) (e : Entry) :
    GrownAlike fs gs (fs.withEntry here e) (gs.withEntry here e) :=
  ⟨h.withEntry here e, h.grownAlike.content⟩

theorem SameFiles.grownAlike_withContent (h : fs.SameFiles gs) (number : Nat) (more : Bytes) :
    GrownAlike fs gs (fs.withContent number (fs.content number ++ more))
      (gs.withContent number (gs.content number ++ more)) := by
  refine ⟨h.withContent number _ _, fun other => ?_⟩
  by_cases ho : other = number
  · subst ho
    exact ⟨more, content_withContent_same _ _ _, content_withContent_same _ _ _⟩
  · rw [content_withContent_other _ _ _ _ ho, content_withContent_other _ _ _ _ ho]
    exact h.grownAlike.content other

/-- A new file has the same number in both, and no content to put something behind. -/
theorem SameFiles.grownAlike_withNewFile (h : fs.SameFiles gs) (here : Location) (bs : Bytes) :
    GrownAlike fs gs (fs.withNewFile here bs) (gs.withNewFile here bs) := by
  have hmade := h.grownAlike_withEntry here (.file fs.freshNumber)
  have hnone : (fs.withEntry here (.file fs.freshNumber)).content fs.freshNumber = [] := fs.content_freshNumber
  have hnone' : (gs.withEntry here (.file fs.freshNumber)).content fs.freshNumber = [] :=
    h.freshNumber_eq ▸ gs.content_freshNumber
  have hgrown := hmade.same.grownAlike_withContent fs.freshNumber bs
  rw [hnone, hnone', List.nil_append] at hgrown
  rw [withNewFile, withNewFile, h.freshNumber_eq]
  exact hmade.trans hgrown

end Same

/-! ### Changes to both -/

section Changes

variable {fs gs : FileSystem} (h : fs.SameFiles gs)
include h

theorem SameFiles.changedAlike_makeDirectory (p : NativePath) :
    ChangedAlike fs gs (fs.makeDirectory p) (gs.makeDirectory p) := by
  have hname : gs.resolveName p = fs.resolveName p := by
    rw [resolveName, resolveName, walk_eq (sameNames_of_outline h.outline)]
  rw [makeDirectory, makeDirectory, hname]
  cases fs.resolveName p with
  | error e => exact .failed e
  | ok here =>
    dsimp only
    rw [addNewEntry, addNewEntry, entryAt?_eq_of_outline h.outline]
    cases fs.entryAt? here with
    | some e => exact .failed _
    | none =>
      dsimp only
      rw [addEntry, addEntry, denial?_eq_of_outline h.outline]
      cases fs.denial? (.change here.dropLast) with
      | some e => exact .failed e
      | none => exact .changed (h.grownAlike_withEntry here .directory)

theorem SameFiles.changedAlike_appendFile (p : NativePath) (bs : Bytes) :
    ChangedAlike fs gs (fs.appendFile p bs) (gs.appendFile p bs) := by
  rw [appendFile, appendFile, update, update, resolve_eq (sameNames_of_outline h.outline)]
  cases fs.resolve .file p with
  | error e => exact .failed e
  | ok here =>
    dsimp only
    rw [updateAt, updateAt, entryAt?_eq_of_outline h.outline]
    rcases fs.entryAt? here with _ | _ | number | target
    · dsimp only
      rw [addEntry, addEntry, denial?_eq_of_outline h.outline]
      cases fs.denial? (.change here.dropLast) with
      | some e => exact .failed e
      | none => exact .changed (h.grownAlike_withNewFile here bs)
    · exact .failed _
    · dsimp only
      rw [denial?_eq_of_outline h.outline]
      cases fs.denial? (.write number) with
      | some e => exact .failed e
      | none => exact .changed (h.grownAlike_withContent number bs)
    · exact .failed _

end Changes

/-- Making directories comes as far in both file systems. -/
theorem SameFiles.sameResult_makeAll {fs gs : FileSystem} (h : fs.SameFiles gs) (paths : List NativePath) :
    SameResult (GrownAlike fs gs) (fs.makeAll paths) (gs.makeAll paths) := by
  -- a directory that cannot be made is as good as made if it is there
  have hfailed {left left' : FileSystem} (hl : GrownAlike fs gs left left') (p : NativePath) (e : FileError) :
      SameResult (GrownAlike fs gs) (left, if left.isDirectory p then none else some e)
        (left', if left'.isDirectory p then none else some e) := by
    rw [isDirectory_eq (sameNames_of_outline hl.same.outline)]
    exact .intro _ hl
  induction paths with
  | nil => exact .intro none h.grownAlike
  | cons p above ih =>
    have hmade := h.changedAlike_makeDirectory p
    rw [makeAll, makeAll]
    generalize fs.makeDirectory p = a, gs.makeDirectory p = b at hmade
    cases hmade with
    | changed hgrown => exact .intro none hgrown
    | failed e =>
      by_cases he : e = .noEntry
      · subst he
        dsimp only
        generalize fs.makeAll above = x, gs.makeAll above = y at ih
        cases ih with
        | @intro left left' refused hgrown =>
          cases refused with
          | some e => exact .intro _ hgrown
          | none =>
            have hagain := hgrown.same.changedAlike_makeDirectory p
            dsimp only
            generalize left.makeDirectory p = a, left'.makeDirectory p = b at hagain
            cases hagain with
            | changed hmore => exact .intro none (hgrown.trans hmore)
            | failed e => exact hfailed hgrown p e
      · cases e with
        | noEntry => exact absurd rfl he
        | _ => exact hfailed h.grownAlike p _

end FileSystem

open FileSystem

namespace Program

/-! ### The log -/

/-- Two runs that have come equally far: the same files are there, and the same has been said. -/
structure Progress.Alike (p q : Progress) : Prop where
  files : p.files.SameFiles q.files
  errors : q.errors = p.errors

/-- The log says the same in both runs, and puts the same behind the content of its file. -/
theorem Progress.Alike.log {p q : Progress} (h : p.Alike q) (logger : Logger) (events : List Log.Event) :
    (logger.log events p).Alike (logger.log events q)
      ∧ GrownAlike p.files q.files (logger.log events p).files (logger.log events q).files := by
  have hgrown : GrownAlike p.files q.files (logger.log events p).files (logger.log events q).files := by
    rw [Logger.log, Logger.log]
    split
    · exact h.files.grownAlike
    · next path _ =>
      have hwritten := h.files.changedAlike_appendFile path (Utf8.encode (logger.lines events))
      generalize p.files.appendFile path _ = a, q.files.appendFile path _ = b at hwritten
      cases hwritten with
      | failed e => exact h.files.grownAlike
      | changed hmore => exact hmore
  refine ⟨⟨hgrown.same, ?_⟩, hgrown⟩
  rw [Logger.errors_log, Logger.errors_log, h.errors]

/-- Opening the log fails alike in both, or opens the same path. -/
theorem sameResult_openLog {fs gs : FileSystem} (h : fs.SameFiles gs) (env : Environment) (workDir : NativePath) :
    SameResult (GrownAlike fs gs) (openLog fs env workDir) (openLog gs env workDir) := by
  have hmade := h.sameResult_makeAll (workDir.join env.stateDirectory).ancestors
  rw [openLog, openLog, makeDirectories, makeDirectories]
  cases env.refusal? with
  | some e => exact .intro _ h.grownAlike
  | none =>
    generalize fs.makeAll _ = x, gs.makeAll _ = y at hmade
    cases hmade with
    | @intro ready ready' refused hready =>
      cases refused with
      | some e => exact .intro _ hready
      | none =>
        have hopened := hready.same.changedAlike_appendFile (workDir.join env.logFile) []
        dsimp only
        generalize ready.appendFile _ _ = a, ready'.appendFile _ _ = b at hopened
        cases hopened with
        | failed e => exact .intro _ hready
        | changed hmore => exact .intro _ (hready.trans hmore)

end Program

/-- The same machine with other files. -/
def World.withFiles (w : World) (fs : FileSystem) : World :=
  { w with files := fs }

namespace Program

variable {w : World} {other : FileSystem}

/-- Both runs start with the same log. -/
theorem alike_startLog (h : w.files.SameFiles other) :
    (startLog (w.withFiles other)).1 = (startLog w).1
      ∧ (startLog w).2.Alike (startLog (w.withFiles other)).2
      ∧ GrownAlike w.files other (startLog w).2.files (startLog (w.withFiles other)).2.files := by
  have hopened := sameResult_openLog h w.environment w.workDir
  rw [startLog, startLog]
  simp only [World.withFiles]
  generalize openLog w.files w.environment w.workDir = x, openLog other w.environment w.workDir = y at hopened
  cases hopened with
  | @intro opened opened' result hgrown =>
    have hstart : Progress.Alike ⟨opened, []⟩ ⟨opened', []⟩ := ⟨hgrown.same, rfl⟩
    cases result with
    | ok path =>
      obtain ⟨halike, hmore⟩ := hstart.log ⟨.file (w.workDir.join path),
        Log.Filter.ofVariable w.environment.logFilter, w.stamp⟩ [Trace.logOpened path]
      exact ⟨rfl, halike, hgrown.trans hmore⟩
    | error e =>
      obtain ⟨halike, hmore⟩ := hstart.log ⟨.errors, Log.Filter.ofVariable w.environment.logFilter, w.stamp⟩
        [Trace.logRefused e]
      exact ⟨rfl, halike, hgrown.trans hmore⟩

/-- With one configuration, a command is answered alike in both runs, and the same is said on the way. -/
theorem sameResult_answer {p q : Progress} (h : p.Alike q) (w : World) (other : FileSystem) (logger : Logger)
    (c : Config) (command : Command) :
    SameResult Progress.Alike (answer w logger c command p) (answer (w.withFiles other) logger c command q) := by
  rw [answer, answer, provider_eq_of_outline h.files.outline]
  simp only [World.withFiles]
  cases c.provider p.files with
  | error e => exact .intro _ h
  | ok provider =>
    have hlocate := locate_eq_of_outline h.files.outline w.process provider
    have hanswer := Command.answer_eq_of_locate (l := ⟨⟨q.files, w.process⟩, provider⟩)
      (k := ⟨⟨p.files, w.process⟩, provider⟩) hlocate c.fallbacks.get command
    dsimp only
    rw [Trace.ofCommand_eq_of_outline h.files.outline, hanswer]
    exact .intro _ (h.log _ _).1

/-- Runs that have come equally far, and end alike, leave the same but for the files. -/
theorem conclude_of_sameResult {x y : Progress × Except Failure Text} (h : SameResult Progress.Alike x y) :
    (conclude y).status = (conclude x).status ∧ (conclude y).output = (conclude x).output
      ∧ (conclude y).errors = (conclude x).errors := by
  cases h with
  | intro answered halike =>
    cases answered with
    | ok output => exact ⟨rfl, rfl, halike.errors⟩
    | error f => exact ⟨rfl, rfl, congrArg (· ++ f.report) halike.errors⟩

end Program

end Relocation
