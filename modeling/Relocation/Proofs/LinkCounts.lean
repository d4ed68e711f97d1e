import Relocation.Layout
import Relocation.Proofs.RunningProgram

/-!
# Hard links and every way out

A process that runs with another user's rights looks for its program in two ways, and whatever path it finds must have
exactly one hard link. There is no way around that check: every place is derived from the origin, and the origin from a
path that was checked.

* `FindsProgram`: the one path that is found;
* `IsSilent`, `AnswersAlike`: all that can be asked of a locator, at once;
* `walk_eq`, `ofNativePath_eq_of_sameNames`: nothing else looks at which file an entry belongs to;
* `privileged_linkCount`: with another user's rights, no answer without the one hard link; without them, no answer
  depends on how many there are.
-/

namespace Relocation

/-! ### The path that is found -/

/-- The path a process finds for its program. -/
inductive FindsProgram (m : Machine) : NativePath → Prop
  /-- The end of the chain that begins with the kernel's link. -/
  | byLink {path : NativePath} : m.process.programByLink m.files = .ok path → FindsProgram m path
  /-- If that chain fails, the path that the memory map names. -/
  | byMaps {cause : LocateError} {path : NativePath} : m.process.programByLink m.files = .error cause →
      m.process.programByMaps = .ok path → FindsProgram m path

theorem program_eq_ok (m : Machine) (path : NativePath) :
    m.process.program m.files = .ok path ↔ FindsProgram m path := by
  rw [ProcessInfo.program]
  constructor
  · intro h
    cases hl : m.process.programByLink m.files with
    | ok found =>
      rw [hl] at h
      cases h
      exact .byLink hl
    | error cause =>
      rw [hl] at h
      exact .byMaps hl h
  · intro h
    cases h with
    | byLink hl => rw [hl]
    | byMaps hl hm =>
      rw [hl]
      exact hm

theorem FindsProgram.unique {m : Machine} {p q : NativePath} (hp : FindsProgram m p) (hq : FindsProgram m q) :
    p = q := by
  rw [← program_eq_ok] at hp hq
  rw [hp] at hq
  exact Except.ok.inj hq

/-! ### All that can be asked -/

/-- Whatever is asked, the answer is what is given when there is no place. -/
structure IsSilent (l : Locator) : Prop where
  origin : l.origin? = none
  startupUrl : l.startupUrl? = none
  startupFile : l.startupFile? = none
  dirUrl : ∀ d, l.dirUrl? d = none
  dirFile : ∀ d, l.dirFile? d = none
  dirFileOr : ∀ d default, l.dirFileOr d default = default
  dirFileWith : ∀ d fallbacks, l.dirFileWith? d fallbacks = fallbacks d

/-- Some question for a place is answered with one. -/
def Yields (l : Locator) : Prop :=
  l.origin? ≠ none ∨ l.startupUrl? ≠ none ∨ l.startupFile? ≠ none ∨ ∃ d, l.dirUrl? d ≠ none ∨ l.dirFile? d ≠ none

theorem isSilent_of_origin? {l : Locator} (h : l.origin? = none) : IsSilent l := by
  have hfile : ∀ d, l.dirFile? d = none := fun d => by
    rw [Locator.dirFile?, h]
    rfl
  refine ⟨h, ?_, ?_, fun d => ?_, hfile, fun d default => ?_, fun d fallbacks => ?_⟩
  · rw [Locator.startupUrl?, h]
    rfl
  · rw [Locator.startupFile?, h]
    rfl
  · rw [Locator.dirUrl?, h]
    rfl
  · rw [Locator.dirFileOr, hfile]
    rfl
  · rw [Locator.dirFileWith?, hfile]
    rfl

theorem isSilent_of_locate_error {l : Locator} {e : LocateError} (h : l.machine.locate l.provider = .error e) :
    IsSilent l := by
  apply isSilent_of_origin?
  rw [Locator.origin?, Machine.origin?, h]

theorem IsSilent.not_yields {l : Locator} (h : IsSilent l) : ¬Yields l := by
  rintro (ho | hu | hf | ⟨d, hu | hf⟩)
  · exact ho h.origin
  · exact hu h.startupUrl
  · exact hf h.startupFile
  · exact hu (h.dirUrl d)
  · exact hf (h.dirFile d)

/-- Two locators that answer every question alike. -/
structure AnswersAlike (l k : Locator) : Prop where
  locate : l.machine.locate l.provider = k.machine.locate k.provider
  origin : l.origin? = k.origin?
  startupUrl : l.startupUrl? = k.startupUrl?
  startupFile : l.startupFile? = k.startupFile?
  dirUrl : ∀ d, l.dirUrl? d = k.dirUrl? d
  dirFile : ∀ d, l.dirFile? d = k.dirFile? d
  dirFileOr : ∀ d default, l.dirFileOr d default = k.dirFileOr d default
  dirFileWith : ∀ d fallbacks, l.dirFileWith? d fallbacks = k.dirFileWith? d fallbacks

/-- What is located decides all the answers. -/
theorem answersAlike_of_locate {l k : Locator} (h : l.machine.locate l.provider = k.machine.locate k.provider) :
    AnswersAlike l k := by
  have ho : l.origin? = k.origin? := by
    rw [Locator.origin?, Locator.origin?, Machine.origin?, Machine.origin?, h]
  have hfile : ∀ d, l.dirFile? d = k.dirFile? d := fun d => by rw [Locator.dirFile?, Locator.dirFile?, ho]
  refine ⟨h, ho, ?_, ?_, fun d => ?_, hfile, fun d default => ?_, fun d fallbacks => ?_⟩
  · rw [Locator.startupUrl?, Locator.startupUrl?, ho]
  · rw [Locator.startupFile?, Locator.startupFile?, ho]
  · rw [Locator.dirUrl?, Locator.dirUrl?, ho]
  · rw [Locator.dirFileOr, Locator.dirFileOr, hfile]
  · rw [Locator.dirFileWith?, Locator.dirFileWith?, hfile]

/-! ### File systems that differ in their links only -/

namespace FileSystem

/-- The same is found at a place, but for which file it is. -/
inductive SameEntry : Option Entry → Option Entry → Prop
  | nothing : SameEntry none none
  | directory : SameEntry (some .directory) (some .directory)
  | file (n k : Nat) : SameEntry (some (.file n)) (some (.file k))
  | link (target : NativePath) : SameEntry (some (.link target)) (some (.link target))

/-- Two file systems with the same names in them and the same directories open to a search. Which names are hard links
of one file may differ, and so may the number of hard links of everything. -/
structure SameNames (fs gs : FileSystem) : Prop where
  entries : ∀ place, SameEntry (fs.entryAt? place) (gs.entryAt? place)
  searches : ∀ place, fs.denial? (.search place) = gs.denial? (.search place)

variable {fs gs : FileSystem}

/-- A walk never asks which file it meets. -/
theorem walk_eq (h : SameNames fs gs) (purpose : Purpose) (links : Nat) (dir : Location) (steps : List WalkStep) :
    fs.walk purpose links dir steps = gs.walk purpose links dir steps := by
  match steps with
  | [] => simp only [walk]
  | .slash :: rest => simpa only [walk] using walk_eq h purpose links dir rest
  | .stay :: rest => simp only [walk, h.searches, walk_eq h purpose links dir rest]
  | .up :: rest => simp only [walk, h.searches, walk_eq h purpose links dir.dropLast rest]
  | .into name :: rest =>
    have hhere := h.entries (dir ++ [name])
    simp only [walk, h.searches]
    split
    · rfl
    · split
      · rfl
      · split
        · rfl
        · -- whatever stands there, the walk goes on in both or ends in both
          generalize fs.entryAt? (dir ++ [name]) = e, gs.entryAt? (dir ++ [name]) = f at hhere ⊢
          cases hhere with
          | nothing => rfl
          | directory => exact walk_eq h purpose links (dir ++ [name]) rest
          | file n k => rfl
          | link target =>
            simp only
            split
            · rfl
            · cases links with
              | zero => rfl
              | succ left => exact walk_eq h purpose left (if target.isAbsolute then [] else dir) (target.steps ++ rest)
  termination_by (links, steps.length)

theorem resolve_eq (h : SameNames fs gs) (purpose : Purpose) (p : NativePath) :
    fs.resolve purpose p = gs.resolve purpose p := by
  rw [resolve, resolve, walk_eq h]

/-- A path fails in both file systems for the same reason, or it leads to one place in both, and there the same is
found but for which file it is. -/
theorem find_cases (h : SameNames fs gs) (purpose : Purpose) (p : NativePath) :
    (∃ e, fs.find purpose p = .error e ∧ gs.find purpose p = .error e)
      ∨ ∃ here a b, fs.find purpose p = .ok (here, a) ∧ gs.find purpose p = .ok (here, b)
        ∧ SameEntry (some a) (some b) := by
  rw [find, find, ← resolve_eq h]
  cases fs.resolve purpose p with
  | error e => exact .inl ⟨e, rfl, rfl⟩
  | ok here =>
    have hhere := h.entries here
    simp only
    generalize fs.entryAt? here = a, gs.entryAt? here = b at hhere ⊢
    cases hhere with
    | nothing => exact .inl ⟨.noEntry, rfl, rfl⟩
    | directory => exact .inr ⟨here, _, _, rfl, rfl, .directory⟩
    | file n k => exact .inr ⟨here, _, _, rfl, rfl, .file n k⟩
    | link target => exact .inr ⟨here, _, _, rfl, rfl, .link target⟩

theorem isDirectory_eq (h : SameNames fs gs) (p : NativePath) : fs.isDirectory p = gs.isDirectory p := by
  rw [isDirectory, isDirectory]
  obtain ⟨e, hf, hg⟩ | ⟨here, a, b, hf, hg, hs⟩ := find_cases h .target p
  · rw [hf, hg]
  · rw [hf, hg]
    cases hs <;> rfl

theorem isLink_eq (h : SameNames fs gs) (p : NativePath) : fs.isLink p = gs.isLink p := by
  rw [isLink, isLink]
  obtain ⟨e, hf, hg⟩ | ⟨here, a, b, hf, hg, hs⟩ := find_cases h .self p
  · rw [hf, hg]
  · rw [hf, hg]
    cases hs <;> rfl

theorem readLink_eq (h : SameNames fs gs) (p : NativePath) : fs.readLink p = gs.readLink p := by
  rw [readLink, readLink]
  obtain ⟨e, hf, hg⟩ | ⟨here, a, b, hf, hg, hs⟩ := find_cases h .self p
  · rw [hf, hg]
  · rw [hf, hg]
    cases hs <;> rfl

end FileSystem

/-! ### What is located in them -/

section SameNames

variable {fs gs : FileSystem} (h : fs.SameNames gs)
include h

theorem LinkChain.chase_eq (hops : Nat) (start : NativePath) :
    LinkChain.chase fs hops start = LinkChain.chase gs hops start := by
  induction hops generalizing start with
  | zero => rfl
  | succ hops ih =>
    have hfollow : LinkChain.follow fs start = LinkChain.follow gs start := by
      rw [LinkChain.follow, LinkChain.follow, FileSystem.readLink_eq h]
    rw [LinkChain.chase, LinkChain.chase, FileSystem.isLink_eq h, hfollow]
    simp only [ih]

theorem ProcessInfo.programByLink_eq (p : ProcessInfo) : p.programByLink fs = p.programByLink gs := by
  rw [ProcessInfo.programByLink, ProcessInfo.programByLink]
  simp only [LinkChain.chase_eq h]

theorem ProcessInfo.program_eq (p : ProcessInfo) : p.program fs = p.program gs := by
  rw [ProcessInfo.program, ProcessInfo.program, ProcessInfo.programByLink_eq h]

theorem ofNativePath_eq_of_sameNames (p : NativePath) : Origin.ofNativePath fs p = Origin.ofNativePath gs p := by
  rw [Origin.ofNativePath, Origin.ofNativePath, Origin.namesDirectory, Origin.namesDirectory,
    FileSystem.isDirectory_eq h]

/-- Without another user's rights, which names are hard links of one file does not matter. -/
theorem locate_eq_of_sameNames {process : ProcessInfo} (hp : process.isPrivileged = false) (provider : Provider) :
    Machine.locate ⟨fs, process⟩ provider = Machine.locate ⟨gs, process⟩ provider := by
  cases provider with
  | fixed o => rfl
  | none => rfl
  | executable =>
    show Machine.locateExecutable _ = Machine.locateExecutable _
    rw [Machine.locateExecutable, Machine.locateExecutable, ProcessInfo.program_eq h]
    simp only [Machine.trusts_of_not_isPrivileged _ _ _ hp, ofNativePath_eq_of_sameNames h]
  | moduleAt address =>
    show Machine.locateModule _ _ = Machine.locateModule _ _
    rw [Machine.locateModule, Machine.locateModule]
    simp only [ofNativePath_eq_of_sameNames h]

end SameNames

/-! ### Accepted and refused -/

/-- How a process that runs with another user's rights treats the hard links of its program. -/
structure ChecksLinks (m : Machine) : Prop where
  /-- Nothing is told but of a path whose file has one hard link. -/
  yields : Yields ⟨m, .executable⟩ → ∃ path, FindsProgram m path ∧ m.files.linkCount? path = some 1
  /-- Such a path makes the origin. -/
  accepts : ∀ path, FindsProgram m path → m.files.linkCount? path = some 1 →
    m.locate .executable = Origin.ofNativePath m.files path
  /-- Any other path is refused by name, whether its file has more hard links or there is none to look at. -/
  refuses : ∀ path, FindsProgram m path → m.files.linkCount? path ≠ some 1 →
    m.locate .executable = .error (.insecureHardLink path)
  /-- The memory map is no way around a refusal of what the link leads to. -/
  ignoresMaps : ∀ path, m.process.programByLink m.files = .ok path → m.files.linkCount? path ≠ some 1 →
    ∀ maps, Machine.locate ⟨m.files, { m.process with maps := maps }⟩ .executable = .error (.insecureHardLink path)
  /-- Where no path is accepted, every question is answered as without a place. -/
  silent : (∀ path, FindsProgram m path → m.files.linkCount? path ≠ some 1) → IsSilent ⟨m, .executable⟩

theorem locateExecutable_of_linkCount?_eq_one {m : Machine} {path : NativePath} (hf : FindsProgram m path)
    (hl : m.files.linkCount? path = some 1) : m.locateExecutable = Origin.ofNativePath m.files path := by
  have htrust : m.process.trusts m.files path = true := by
    rw [ProcessInfo.trusts, hl]
    exact Bool.or_true _
  rw [Machine.locateExecutable, (program_eq_ok m path).mpr hf]
  exact if_pos htrust

section Privileged

variable {m : Machine} (hp : m.process.isPrivileged = true)
include hp

/-- A found path whose file is not known to have one hard link is refused by name. -/
theorem locateExecutable_of_linkCount? {path : NativePath} (hf : FindsProgram m path)
    (hl : m.files.linkCount? path ≠ some 1) : m.locateExecutable = .error (.insecureHardLink path) := by
  apply Machine.locateExecutable_of_not_trusts m path ((program_eq_ok m path).mpr hf)
  rw [Bool.eq_false_iff, Ne, trusts_iff hp]
  exact hl

/-- An origin is told only of a path that was found and whose file has one hard link. -/
theorem findsProgram_of_locateExecutable {o : Origin} (h : m.locateExecutable = .ok o) :
    ∃ path, FindsProgram m path ∧ m.files.linkCount? path = some 1 := by
  obtain ⟨path, hprog, hl, -⟩ := (locateExecutable_eq_ok hp o).mp h
  exact ⟨path, (program_eq_ok m path).mp hprog, hl⟩

theorem isSilent_of_linkCount? (h : ∀ path, FindsProgram m path → m.files.linkCount? path ≠ some 1) :
    IsSilent ⟨m, .executable⟩ := by
  cases hloc : m.locateExecutable with
  | error e => exact isSilent_of_locate_error hloc
  | ok o =>
    obtain ⟨path, hf, hl⟩ := findsProgram_of_locateExecutable hp hloc
    exact absurd hl (h path hf)

theorem checksLinks : ChecksLinks m where
  yields hy := by
    by_contra hnone
    exact (isSilent_of_linkCount? hp fun path hf hl => hnone ⟨path, hf, hl⟩).not_yields hy
  accepts path hf hl := locateExecutable_of_linkCount?_eq_one hf hl
  refuses path hf hl := locateExecutable_of_linkCount? hp hf hl
  -- the other process finds the same path, by its link, too
  ignoresMaps path hlink hl maps :=
    locateExecutable_of_linkCount? (m := ⟨m.files, { m.process with maps := maps }⟩) hp (.byLink hlink) hl
  silent := isSilent_of_linkCount? hp

end Privileged

/-- A process with another user's rights tells nothing but of a path whose file has exactly one hard link, and refuses
every other path it finds. In a process without them, no answer depends on which names are hard links of one file. -/
theorem privileged_linkCount (m : Machine) :
    (m.process.isPrivileged = true → ChecksLinks m)
    ∧ (m.process.isPrivileged = false → ∀ gs, m.files.SameNames gs → ∀ provider,
        AnswersAlike ⟨m, provider⟩ ⟨⟨gs, m.process⟩, provider⟩) := by
  refine ⟨checksLinks, fun hp gs h provider => ?_⟩
  exact answersAlike_of_locate (locate_eq_of_sameNames h hp provider)

/-- A tree with two programs, or with two names of one. -/
def twoTools (n k : Nat) : FileSystem where
  entries := [([Utf8.encode "tool".toList], .file n), ([Utf8.encode "copy".toList], .file k)]
  contents := []

theorem sameNames_twoTools (n k n' k' : Nat) : (twoTools n k).SameNames (twoTools n' k') := by
  refine ⟨fun place => ?_, fun _ => rfl⟩
  rw [FileSystem.entryAt?, FileSystem.entryAt?]
  split
  · exact .directory
  · simp only [twoTools, valueOf?]
    split
    · exact .file n n'
    · split
      · exact .file k k'
      · exact .nothing

/-- Two names of one program: refused with another user's rights, and without them the same as two programs. -/
theorem privileged_linkCount_twoTools :
    Machine.locate ⟨twoTools 0 0, privilegedAt "/tool".toList⟩ .executable
        = .error (.insecureHardLink (.ofText "/tool".toList))
      ∧ IsSilent ⟨⟨twoTools 0 0, privilegedAt "/tool".toList⟩, .executable⟩
      ∧ Yields ⟨⟨twoTools 0 1, privilegedAt "/tool".toList⟩, .executable⟩
      ∧ AnswersAlike ⟨⟨twoTools 0 0, { privilegedAt "/tool".toList with realUser := 0 }⟩, .executable⟩
          ⟨⟨twoTools 0 1, { privilegedAt "/tool".toList with realUser := 0 }⟩, .executable⟩ := by
  have hfound : FindsProgram ⟨twoTools 0 0, privilegedAt "/tool".toList⟩ (.ofText "/tool".toList) := .byLink (by cbv)
  have hcount : (twoTools 0 0).linkCount? (.ofText "/tool".toList) = some 2 := by cbv
  have htwo : (twoTools 0 0).linkCount? (.ofText "/tool".toList) ≠ some 1 := by
    rw [hcount]
    decide
  have hrefuses := (privileged_linkCount ⟨twoTools 0 0, privilegedAt "/tool".toList⟩).1 (by decide)
  have halone := (privileged_linkCount ⟨twoTools 0 1, privilegedAt "/tool".toList⟩).1 (by decide)
  have halike := (privileged_linkCount ⟨twoTools 0 0, { privilegedAt "/tool".toList with realUser := 0 }⟩).2 (by decide)
    (twoTools 0 1) (sameNames_twoTools 0 0 0 1) .executable
  refine ⟨hrefuses.refuses _ hfound htwo, hrefuses.silent fun path hf => ?_, ?_, halike⟩
  · rw [hf.unique hfound]
    exact htwo
  · have hone : (twoTools 0 1).linkCount? (.ofText "/tool".toList) = some 1 := by cbv
    have hloc := halone.accepts (.ofText "/tool".toList) (.byLink (by cbv)) hone
    obtain ⟨o, ho⟩ := Origin.ofNativePath_isOk (twoTools 0 1) (.ofText "/tool".toList) (by decide)
    left
    rw [Locator.origin?, Machine.origin?, hloc, ho]
    exact Option.some_ne_none o

end Relocation
