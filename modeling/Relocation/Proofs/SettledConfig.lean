import Relocation.Proofs.ConfigText
import Relocation.Proofs.FileChanges

/-!
# The usual configuration settles

The usual configuration is loaded or, where nothing is, made. Nothing that is there is changed by that, even if it fails
halfway. When it succeeds its directory is there and so is its file, so that the next time both are only looked at, and
the file says what was given the first time, even if that was made up. It may be closed to the process even if the
process has made it; then it is still not made again.

* `makeDirectory_of_isDirectory` / `isDirectory_of_makeDirectory`: a directory that is there is not made again, and one
  that is made is there;
* `makeDirectories_again`: making directories succeeds again and changes nothing;
* `find_of_writeFile`: what is written is there;
* `foundAt_loadOrCreate`: what is there stays as it is;
* `isSettled_of_loaded`, `isSettled_of_made`: what comes of loading the configuration again.
-/

namespace Relocation

namespace FileSystem

/-! ### Directories that are there -/

/-- Where a walk finds something behind slashes, there is something under the name in front of them. -/
theorem exists_walk_self {fs : FileSystem} {links : Nat} {dir here : Location} {steps slashes : List WalkStep}
    {e : Entry} (hs : ∀ step ∈ slashes, step = .slash) (hw : fs.walk .target links dir (steps ++ slashes) = .ok here)
    (he : fs.entryAt? here = some e) :
    ∃ there found, fs.walk .self links dir steps = .ok there ∧ fs.entryAt? there = some found := by
  match steps with
  | [] =>
    rw [List.nil_append, walk_slashes fs _ _ _ _ hs] at hw
    cases hw
    exact ⟨dir, e, by rw [walk], he⟩
  | .slash :: rest =>
    rw [List.cons_append, walk] at hw
    rw [walk]
    exact exists_walk_self hs hw he
  | .stay :: rest =>
    have hd := searched_of_walk hw (by simp)
    rw [List.cons_append, walk_stay hd] at hw
    rw [walk_stay hd]
    exact exists_walk_self hs hw he
  | .up :: rest =>
    have hd := searched_of_walk hw (by simp)
    rw [List.cons_append, walk_up hd] at hw
    rw [walk_up hd]
    exact exists_walk_self hs hw he
  | .into name :: rest =>
    rw [List.cons_append] at hw
    have hd := searched_of_walk hw (by simp)
    have hl := short_of_walk hw
    rw [walk_into hd (by decide) links name _ hl] at hw
    rw [walk_into hd (by decide) links name _ hl]
    generalize hentry : fs.entryAt? (dir ++ [name]) = found at hw
    cases found with
    | none =>
      dsimp only at hw
      split at hw
      · cases hw
        rw [hentry] at he
        cases he
      · cases hw
    | some entry =>
      cases entry with
      | directory => exact exists_walk_self hs hw he
      | file number =>
        dsimp only at hw
        split at hw
        · next hr => exact ⟨dir ++ [name], _, if_pos (List.append_eq_nil_iff.mp hr).1, hentry⟩
        · cases hw
      | link target =>
        by_cases hr : rest = []
        · exact ⟨dir ++ [name], _, if_pos ⟨hr, rfl⟩, hentry⟩
        · -- behind the name the link is followed in both walks
          simp only [hr, false_and, if_false]
          simp only [reduceCtorEq, and_false, if_false] at hw
          cases links with
          | zero => cases hw
          | succ left =>
            rw [← List.append_assoc] at hw
            exact exists_walk_self hs hw he
  termination_by (links, steps.length)

/-- A directory made where a walk ended at nothing is found there, also with slashes behind its name. -/
theorem walk_of_made {fs gs : FileSystem} (hk : Keeps fs gs) {links : Nat} {dir here : Location}
    {steps slashes : List WalkStep} (hs : ∀ step ∈ slashes, step = .slash)
    (hw : fs.walk .self links dir steps = .ok here) (hnone : fs.entryAt? here = none)
    (hdir : gs.entryAt? here = some .directory) : gs.walk .target links dir (steps ++ slashes) = .ok here := by
  match steps with
  | [] =>
    rw [walk] at hw
    cases hw
    exact walk_slashes gs _ _ _ _ hs
  | .slash :: rest =>
    rw [walk] at hw
    rw [List.cons_append, walk]
    exact walk_of_made hk hs hw hnone hdir
  | .stay :: rest =>
    have hd := searched_of_walk hw (by simp)
    rw [walk_stay hd] at hw
    rw [List.cons_append, walk_stay ((hk.denial?_eq _).trans hd)]
    exact walk_of_made hk hs hw hnone hdir
  | .up :: rest =>
    have hd := searched_of_walk hw (by simp)
    rw [walk_up hd] at hw
    rw [List.cons_append, walk_up ((hk.denial?_eq _).trans hd)]
    exact walk_of_made hk hs hw hnone hdir
  | .into name :: rest =>
    have hd := searched_of_walk hw (by simp)
    have hl := short_of_walk hw
    rw [walk_into hd (by decide) links name _ hl] at hw
    rw [List.cons_append, walk_into ((hk.denial?_eq _).trans hd) (by decide) links name _ hl]
    have hkept := hk.entries (dir ++ [name])
    generalize hentry : fs.entryAt? (dir ++ [name]) = found at hw hkept
    cases found with
    | none =>
      dsimp only at hw
      split at hw
      · next hr =>
        cases hw
        rw [hdir, hr, List.nil_append]
        exact walk_slashes gs _ _ _ _ hs
      · cases hw
    | some entry =>
      rw [hkept entry rfl]
      cases entry with
      | directory => exact walk_of_made hk hs hw hnone hdir
      | file number =>
        dsimp only at hw
        split at hw
        · cases hw
          rw [hnone] at hentry
          cases hentry
        · cases hw
      | link target =>
        dsimp only at hw ⊢
        split at hw
        · cases hw
          rw [hnone] at hentry
          cases hentry
        · simp only [reduceCtorEq, and_false, if_false]
          cases links with
          | zero => cases hw
          | succ left =>
            rw [← List.append_assoc]
            exact walk_of_made hk hs hw hnone hdir
  termination_by (links, steps.length)

section Directories

variable {fs gs ready : FileSystem} {p : NativePath}

theorem Keeps.isDirectory (h : Keeps fs gs) (hd : fs.isDirectory p = true) : gs.isDirectory p = true := by
  obtain ⟨here, hf⟩ := isDirectory_iff.mp hd
  exact isDirectory_iff.mpr ⟨here, h.find hf⟩

/-- The steps of a path are those of its name and slashes. -/
theorem exists_steps_eq (p : NativePath) :
    ∃ slashes, p.steps = p.stepsOfName ++ slashes ∧ ∀ step ∈ slashes, step = .slash := by
  obtain ⟨tail, htail, hall⟩ := trimEndWhere_append_tail (· == WalkStep.slash) p.steps
  exact ⟨tail, htail, fun step hs => by simpa using hall step hs⟩

/-- A directory that is there is not made again. -/
theorem makeDirectory_of_isDirectory (h : fs.isDirectory p = true) : fs.makeDirectory p = .error .alreadyExists := by
  obtain ⟨here, hf⟩ := isDirectory_iff.mp h
  obtain ⟨hrefusal, hwalk, hentry⟩ := find_eq_ok hf
  obtain ⟨slashes, hsteps, hs⟩ := exists_steps_eq p
  rw [hsteps] at hwalk
  obtain ⟨there, found, hself, hfound⟩ := exists_walk_self hs hwalk hentry
  rw [makeDirectory, resolveName, hrefusal]
  simp only [hself, addNewEntry, hfound]

/-- A directory that is made is there. -/
theorem isDirectory_of_makeDirectory (h : fs.makeDirectory p = .ok gs) : gs.isDirectory p = true := by
  have hkeeps := keeps_makeDirectory h
  obtain ⟨here, hname, hnone, rfl⟩ := makeDirectory_eq_ok fs gs p h
  have hentry := entryAt?_withEntry_same fs here .directory (ne_nil_of_entryAt? hnone)
  obtain ⟨slashes, hsteps, hs⟩ := exists_steps_eq p
  rw [resolveName] at hname
  split at hname
  · cases hname
  · next hrefusal =>
    have hwalk := walk_of_made hkeeps hs hname hnone hentry
    rw [← hsteps] at hwalk
    refine isDirectory_iff.mpr ⟨here, ?_⟩
    rw [find, resolve, hrefusal]
    simp only [hwalk, hentry]

/-- A path with something above it is the first of its ancestors. -/
theorem ancestors_cases (p : NativePath) : p.ancestors = [] ∨ ∃ above, p.ancestors = p :: above := by
  rw [NativePath.ancestors]
  cases p.bytes.length with
  | zero => exact .inl rfl
  | succ fuel =>
    rw [NativePath.ancestorsWithin]
    split
    · exact .inl rfl
    · exact .inr ⟨_, rfl⟩

theorem isDirectory_of_makeAll {above : List NativePath} (h : fs.makeAll (p :: above) = (ready, none)) :
    ready.isDirectory p = true := by
  rw [makeAll] at h
  split at h
  · next made hm =>
    cases h
    exact isDirectory_of_makeDirectory hm
  · split at h
    · cases h
    · split at h
      · next made hm =>
        cases h
        exact isDirectory_of_makeDirectory hm
      · split at h
        · next hd =>
          cases h
          exact hd
        · cases h
  · split at h
    · next hd =>
      cases h
      exact hd
    · cases h

theorem makeAll_of_isDirectory {above : List NativePath} (h : fs.isDirectory p = true) :
    fs.makeAll (p :: above) = (fs, none) := by
  rw [makeAll, makeDirectory_of_isDirectory h]
  simp only [h, if_true]

/-- Directories that were made are there later, and making them again changes nothing. -/
theorem makeDirectories_again (h : fs.makeDirectories p = (ready, none)) (hk : Keeps ready gs) :
    gs.makeDirectories p = (gs, none) := by
  rw [makeDirectories] at h ⊢
  rcases ancestors_cases p with hnil | ⟨above, habove⟩
  · rw [hnil]
    rfl
  · rw [habove] at h ⊢
    exact makeAll_of_isDirectory (hk.isDirectory (isDirectory_of_makeAll h))

/-- A file that is written where nothing was is there with its content, be it one that may be read or not. -/
theorem find_of_writeFile {bs : Bytes} (hfree : fs.pathExists p = false) (h : fs.writeFile p bs = .ok gs) :
    ∃ here, gs.find .target p = .ok (here, .file fs.freshNumber) ∧ gs.content fs.freshNumber = bs := by
  obtain ⟨here, hr, ⟨number, hfile, -⟩ | ⟨hnone, rfl⟩⟩ := update_eq_ok h
  · rw [entryAt?_of_not_pathExists hfree hr] at hfile
    cases hfile
  · have hentry : (fs.withNewFile here bs).entryAt? here = some (.file fs.freshNumber) := by
      rw [entryAt?_withNewFile fs _ (ne_nil_of_entryAt? hnone), if_pos rfl]
    have htarget := (keeps_update h).resolve (.inr ⟨rfl, rfl⟩) hr fun _ target => by simp [hentry]
    refine ⟨here, ?_, content_withContent_same _ _ _⟩
    rw [find, htarget]
    simp only [hentry]

theorem pathExists_of_find {here : Location} {e : Entry} (h : fs.find .target p = .ok (here, e)) :
    fs.pathExists p = true := by
  rw [pathExists, h]

end Directories

end FileSystem

open FileSystem

/-! ### Nothing is changed -/

/-- Anything may be made where nothing is. -/
def Permit.additions : Permit where
  directory _ := True
  grow _ := False
  create _ _ := True

section Additions

variable {fs gs : FileSystem} {p : NativePath}

theorem changes_makeDirectories_additions (fs : FileSystem) (p : NativePath) :
    Changes .additions fs (fs.makeDirectories p).1 := by
  refine makeAll_invariant (fun q _ gs made h hm => h.trans ?_) (.refl _ fs)
  obtain ⟨here, -, hnone, rfl⟩ := makeDirectory_eq_ok gs made q hm
  exact .of_change (.directory trivial hnone)

theorem changes_writeFile_additions {bs : Bytes} (hfree : fs.pathExists p = false) (h : fs.writeFile p bs = .ok gs) :
    Changes .additions fs gs := by
  obtain ⟨here, hr, hcases⟩ := update_eq_ok h
  have hnone := entryAt?_of_not_pathExists hfree hr
  obtain ⟨number, hfile, -⟩ | ⟨-, rfl⟩ := hcases
  · rw [hnone] at hfile
    cases hfile
  · exact .of_change (.file bs (.inr trivial) hnone)

/-- What is there stays as it is when things are only added. -/
theorem Changes.foundAt_eq (h : Changes .additions fs gs) {here : Location} (hf : fs.foundAt here ≠ .nothing) :
    gs.foundAt here = fs.foundAt here := by
  have hplace := h.mayBecome (fun _ hgrow => hgrow.elim) here
  generalize fs.foundAt here = before, gs.foundAt here = after at hf hplace
  cases hplace with
  | same => rfl
  | directory _ => exact absurd rfl hf
  | file _ _ _ => exact absurd rfl hf
  | grown _ _ _ hgrow => exact hgrow.elim

end Additions

namespace Config

/-! ### Loading and making -/

theorem isTextual_default : default.IsTextual := by
  intro d p hp
  rw [default, get_empty] at hp
  cases hp

theorem place_of_makeDirectories {fs ready : FileSystem} {env : Environment} {workDir : NativePath}
    (henv : env.refusal? = none) (hdirs : fs.makeDirectories (workDir.join env.configDirectory) = (ready, none)) :
    place fs env workDir = (ready, .ok env.configFile) := by
  rw [place, henv, hdirs]

section Loading

variable [Toml.Complaints]

/-- What making directories and writing the file leave true is true after loading or making the configuration, however
far that comes. -/
theorem loadOrCreate_invariant {holds : FileSystem → Prop} {fs : FileSystem} {env : Environment} {workDir : NativePath}
    (hstart : holds fs) (hdirs : holds (fs.makeDirectories (workDir.join env.configDirectory)).1)
    (hwrite : ∀ ready written, holds ready → ready.pathExists (workDir.join env.configFile) = false →
      ready.writeFile (workDir.join env.configFile) (Utf8.encode (write default)) = .ok written → holds written) :
    holds (loadOrCreate fs env workDir).1 := by
  rw [loadOrCreate, place]
  cases env.refusal? with
  | some e => exact hstart
  | none =>
    cases hmade : fs.makeDirectories (workDir.join env.configDirectory) with
    | mk ready failure =>
      rw [hmade] at hdirs
      cases failure with
      | some e => exact hdirs
      | none =>
        dsimp only
        split
        · exact hdirs
        · next hfree =>
          rw [Bool.not_eq_true] at hfree
          split
          · exact hdirs
          · next written hwritten => exact hwrite ready written hdirs hfree hwritten

/-- A configuration comes from the file that is there, or the default one is made. -/
theorem loadOrCreate_eq_ok {fs after : FileSystem} {env : Environment} {workDir : NativePath} {loaded : Loaded}
    (h : loadOrCreate fs env workDir = (after, .ok loaded)) :
    env.refusal? = none ∧ ∃ ready, fs.makeDirectories (workDir.join env.configDirectory) = (ready, none)
      ∧ ((ready.pathExists (workDir.join env.configFile) = true ∧ after = ready
          ∧ load ready workDir env.configFile = .ok loaded.config ∧ loaded.created = none)
        ∨ (ready.pathExists (workDir.join env.configFile) = false
          ∧ ready.writeFile (workDir.join env.configFile) (Utf8.encode (write default)) = .ok after
          ∧ loaded = ⟨default, some env.configFile⟩)) := by
  rw [loadOrCreate, place] at h
  cases henv : env.refusal? with
  | some e =>
    rw [henv] at h
    cases h
  | none =>
    rw [henv] at h
    cases hmade : fs.makeDirectories (workDir.join env.configDirectory) with
    | mk ready failure =>
      rw [hmade] at h
      cases failure with
      | some e => cases h
      | none =>
        refine ⟨rfl, ready, rfl, ?_⟩
        dsimp only at h
        split at h
        · next hexists =>
          cases hload : load ready workDir env.configFile with
          | error e =>
            rw [hload] at h
            cases h
          | ok c =>
            rw [hload] at h
            cases h
            exact .inl ⟨hexists, rfl, rfl, rfl⟩
        · next hfree =>
          rw [Bool.not_eq_true] at hfree
          split at h
          · cases h
          · next written hwritten =>
            cases h
            exact .inr ⟨hfree, hwritten, rfl⟩

/-- Loading the configuration, or making it, changes nothing that is there, also where something in its way may not be
searched, read or written. -/
theorem foundAt_loadOrCreate (fs : FileSystem) (env : Environment) (workDir : NativePath) {here : Location}
    (h : fs.foundAt here ≠ .nothing) : (loadOrCreate fs env workDir).1.foundAt here = fs.foundAt here := by
  have hadded : Changes .additions fs (loadOrCreate fs env workDir).1 :=
    loadOrCreate_invariant (.refl _ fs) (changes_makeDirectories_additions fs _) fun _ _ hready hfree hwritten =>
      hready.trans (changes_writeFile_additions hfree hwritten)
  exact hadded.foundAt_eq h

theorem keeps_loadOrCreate (fs : FileSystem) (env : Environment) (workDir : NativePath) :
    Keeps fs (loadOrCreate fs env workDir).1 :=
  loadOrCreate_invariant (.refl fs) (keeps_makeDirectories fs _) fun _ _ hready _ hwritten =>
    hready.trans (keeps_update hwritten)

/-! ### Loading again -/

/-- Loading the usual configuration comes to this, and so does loading its file; nothing is made for it. -/
structure IsSettled (fs : FileSystem) (env : Environment) (workDir : NativePath) (result : Except ConfigError Config) :
    Prop where
  place : place fs env workDir = (fs, .ok env.configFile)
  load : load fs workDir env.configFile = result
  loadOrCreate : loadOrCreate fs env workDir = (fs, result.map fun c => ⟨c, none⟩)

/-- With its directory and its file there, the configuration is only loaded. -/
theorem isSettled_of_place {fs : FileSystem} {env : Environment} {workDir : NativePath}
    (hplace : place fs env workDir = (fs, .ok env.configFile))
    (hexists : fs.pathExists (workDir.join env.configFile) = true) :
    IsSettled fs env workDir (load fs workDir env.configFile) := by
  refine ⟨hplace, rfl, ?_⟩
  rw [loadOrCreate, hplace]
  dsimp only
  rw [if_pos hexists]

/-- A configuration that was there is loaded again. -/
theorem isSettled_of_loaded {fs after : FileSystem} {env : Environment} {workDir : NativePath} {loaded : Loaded}
    (h : loadOrCreate fs env workDir = (after, .ok loaded)) (hcreated : loaded.created = none) :
    IsSettled after env workDir (.ok loaded.config) := by
  obtain ⟨henv, ready, hmade, ⟨hexists, rfl, hload, -⟩ | ⟨-, -, rfl⟩⟩ := loadOrCreate_eq_ok h
  · rw [← hload]
    exact isSettled_of_place (place_of_makeDirectories henv (makeDirectories_again hmade (.refl after))) hexists
  · cases hcreated

/-- A configuration that was made is the default one. It is found at its place, also when more is made and written
elsewhere, and what comes of loading it is decided by whether its file may be read. -/
theorem isSettled_of_made {fs after : FileSystem} {env : Environment} {workDir path : NativePath} {loaded : Loaded}
    (h : loadOrCreate fs env workDir = (after, .ok loaded)) (hcreated : loaded.created = some path) :
    path = env.configFile ∧ loaded.config = default
      ∧ ∃ here number, after.find .target (workDir.join path) = .ok (here, .file number)
        ∧ after.content number = Utf8.encode (write default) ∧ (∀ there, fs.entryAt? there ≠ some (.file number))
        ∧ ∀ later, Keeps after later → later.content number = after.content number →
          (fs.denial? (.read number) = none → IsSettled later env workDir (.ok default))
            ∧ ∀ cause, fs.denial? (.read number) = some cause →
              IsSettled later env workDir (.error (.read path cause)) := by
  have hkept := keeps_loadOrCreate fs env workDir
  rw [h] at hkept
  obtain ⟨henv, ready, hmade, ⟨-, -, -, hnone⟩ | ⟨hfree, hwritten, rfl⟩⟩ := loadOrCreate_eq_ok h
  · rw [hnone] at hcreated
    cases hcreated
  · cases hcreated
    obtain ⟨here, hfind, hcontent⟩ := find_of_writeFile hfree hwritten
    have hready := keeps_makeDirectories fs (workDir.join env.configDirectory)
    rw [hmade] at hready
    refine ⟨rfl, rfl, here, ready.freshNumber, hfind, hcontent, fun there hfile => ?_, fun later hk hsame => ?_⟩
    · exact ne_freshNumber (hready.entries there _ hfile) rfl
    · have hlater := hk.find hfind
      have hread : later.denial? (.read ready.freshNumber) = fs.denial? (.read ready.freshNumber) :=
        (hkept.trans hk).denial?_eq _
      have hsettled := isSettled_of_place
        (place_of_makeDirectories henv (makeDirectories_again hmade ((keeps_update hwritten).trans hk)))
        (pathExists_of_find hlater)
      refine ⟨fun hmay => ?_, fun cause hdenied => ?_⟩
      · have hholds : later.Holds (workDir.join env.configFile) (Utf8.encode (write default)) :=
          ⟨here, _, hlater, hread.trans hmay, hsame.trans hcontent⟩
        rwa [load_of_holds hholds (read?_write isTextual_default)] at hsettled
      · rwa [load_of_denial hlater (hread.trans hdenied)] at hsettled

end Loading

end Config

end Relocation
