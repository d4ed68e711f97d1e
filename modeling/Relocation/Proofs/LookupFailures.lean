import Relocation.Proofs.ChainReach
import Relocation.Proofs.LinkCounts

/-!
# Why an origin cannot be told

Whatever a process is told about itself, the path a lookup arrives at is absolute. A link is only met below a directory,
so that a relative target always has one to be seen from; and what a line of a memory map names begins at the first
slash of the line. An absolute path always makes an origin. What is left is a memory map that cannot be read or does not
say what is asked, and a program with hard links.

* `exists_path_of_readLine?`: any line that is read names an absolute path;
* `locate_eq_error_iff`: the failures of both lookups, and when each is given.
-/

namespace Relocation

/-! ### Paths in a memory map -/

namespace MemoryMap

/-- Whatever line is read, its path begins with a slash, also without the mark of a removed file. -/
theorem exists_path_of_readLine? {line : Text} {m : Mapping} (h : readLine? line = some m) :
    ∃ rest, m.path = '/' :: rest := by
  obtain ⟨slash, hslash, hpath⟩ := exists_slash_of_readLine? h
  obtain ⟨c, rest, hdrop, hc⟩ := drop_of_indexOf? _ _ _ hslash
  rw [hpath, hdrop, beq_iff_eq.mp hc]
  exact withoutMark_slash rest

theorem exists_path_of_executable? {t path : Text} (h : executable? t = some path) : ∃ rest, path = '/' :: rest := by
  rw [executable?] at h
  split at h
  · cases h
  · split at h
    · cases h
    · next hm =>
      split at h
      · cases h
        exact exists_path_of_readLine? hm
      · cases h

theorem exists_path_of_moduleAt? {t path : Text} {address : Nat} (h : moduleAt? t address = some path) :
    ∃ rest, path = '/' :: rest := by
  obtain ⟨m, hm, -, -, rfl⟩ := mem_of_moduleAt? t address path h
  obtain ⟨line, -, hline⟩ := List.mem_filterMap.mp hm
  exact exists_path_of_readLine? hline

end MemoryMap

/-! ### Paths a lookup arrives at -/

theorem NativePath.isAbsolute_ofText_slash (t : Text) : (ofText ('/' :: t)).isAbsolute = true := rfl

namespace ProcessInfo

/-- What the kernel's link reads as, seen from that link. -/
theorem seenFrom_selfLink (target : NativePath) :
    ∃ current, LinkChain.seenFrom selfLink target = .ok current ∧ current.isAbsolute = true := by
  have hparent : selfLink.parent? = some (.ofText "/proc/self".toList) := by decide
  rw [LinkChain.seenFrom, hparent]
  by_cases ht : target.isAbsolute = true
  · exact ⟨target, if_pos ht, ht⟩
  · exact ⟨_, if_neg ht, NativePath.isAbsolute_join _ target (by decide)⟩

theorem isAbsolute_programByLink {p : ProcessInfo} {fs : FileSystem} {path : NativePath}
    (h : p.programByLink fs = .ok path) : path.isAbsolute = true := by
  rw [programByLink] at h
  split at h
  · cases h
  · next target _ =>
    obtain ⟨current, hseen, ha⟩ := seenFrom_selfLink target
    simp only [hseen] at h
    exact LinkChain.isAbsolute_chase fs _ current path ha h

end ProcessInfo

theorem FindsProgram.isAbsolute {m : Machine} {path : NativePath} (h : FindsProgram m path) :
    path.isAbsolute = true := by
  cases h with
  | byLink hl => exact ProcessInfo.isAbsolute_programByLink hl
  | byMaps _ hm =>
    rw [ProcessInfo.programByMaps] at hm
    split at hm
    · cases hm
    · split at hm
      · next hx =>
        obtain ⟨rest, rfl⟩ := MemoryMap.exists_path_of_executable? hx
        cases hm
        exact NativePath.isAbsolute_ofText_slash rest
      · cases hm

theorem isAbsolute_moduleAt {p : ProcessInfo} {address : Nat} {path : NativePath} (h : p.moduleAt address = .ok path) :
    path.isAbsolute = true := by
  rw [ProcessInfo.moduleAt] at h
  split at h
  · cases h
  · split at h
    · next hx =>
      obtain ⟨rest, rfl⟩ := MemoryMap.exists_path_of_moduleAt? hx
      cases h
      exact NativePath.isAbsolute_ofText_slash rest
    · cases h

/-! ### The failures -/

/-- Why the program a process executes is not told. -/
inductive ExecutableFailure (m : Machine) : LocateError → Prop
  /-- The link is of no use, and the memory map cannot be opened. -/
  | openMaps {unusable : LocateError} {cause : FileError} : m.process.programByLink m.files = .error unusable →
      m.process.maps = .unopened cause → ExecutableFailure m (.openMaps cause)
  /-- The link is of no use, and the memory map cannot be read. -/
  | readMaps {unusable : LocateError} {cause : FileError} : m.process.programByLink m.files = .error unusable →
      m.process.maps = .unread cause → ExecutableFailure m (.readMaps cause)
  /-- The link is of no use, and the memory map does not tell a program. -/
  | invalidMaps {unusable : LocateError} {t : Text} : m.process.programByLink m.files = .error unusable →
      m.process.maps = .text t → MemoryMap.executable? t = none → ExecutableFailure m .invalidMaps
  /-- A program is found, but a process with another user's rights does not know that its file has one hard link. -/
  | insecureHardLink {path : NativePath} : FindsProgram m path → m.process.isPrivileged = true →
      m.files.linkCount? path ≠ some 1 → ExecutableFailure m (.insecureHardLink path)

/-- Why the file that holds the code at an address is not told. -/
inductive ModuleFailure (m : Machine) (address : Nat) : LocateError → Prop
  | openMaps {cause : FileError} : m.process.maps = .unopened cause → ModuleFailure m address (.openMaps cause)
  | readMaps {cause : FileError} : m.process.maps = .unread cause → ModuleFailure m address (.readMaps cause)
  /-- No mapping of code holds the address. -/
  | notMapped {t : Text} : m.process.maps = .text t → MemoryMap.moduleAt? t address = none →
      ModuleFailure m address (.notMapped address)

/-- Only a privileged process ever distrusts a path, and only for its number of hard links. -/
theorem trusts_eq_false_iff {p : ProcessInfo} {fs : FileSystem} {path : NativePath} :
    p.trusts fs path = false ↔ p.isPrivileged = true ∧ fs.linkCount? path ≠ some 1 := by
  cases hp : p.isPrivileged with
  | false => simp [Machine.trusts_of_not_isPrivileged p fs path hp]
  | true => rw [Bool.eq_false_iff, Ne, trusts_iff hp, and_iff_right rfl]

/-- A program that is found fails to be told only if its path is not trusted. -/
theorem locateExecutable_eq_error_of_findsProgram {m : Machine} {path : NativePath} (hf : FindsProgram m path)
    (e : LocateError) : m.locateExecutable = .error e ↔
      e = .insecureHardLink path ∧ m.process.isPrivileged = true ∧ m.files.linkCount? path ≠ some 1 := by
  have hprogram := (program_eq_ok m path).mpr hf
  cases ht : m.process.trusts m.files path with
  | true =>
    obtain ⟨o, ho⟩ := Origin.ofNativePath_isOk m.files path hf.isAbsolute
    have hok : m.locateExecutable = .ok o := by
      rw [Machine.locateExecutable, hprogram]
      simp only [ht, if_true, ho]
    rw [hok, ← trusts_eq_false_iff, ht]
    simp
  | false =>
    rw [Machine.locateExecutable_of_not_trusts m path hprogram ht, Except.error.injEq, ← trusts_eq_false_iff, ht,
      and_iff_left rfl, eq_comm]

theorem locateExecutable_eq_error_iff (m : Machine) (e : LocateError) :
    m.locateExecutable = .error e ↔ ExecutableFailure m e := by
  constructor
  · intro h
    cases hprogram : m.process.program m.files with
    | ok path =>
      have hf := (program_eq_ok m path).mp hprogram
      obtain ⟨rfl, hp, hl⟩ := (locateExecutable_eq_error_of_findsProgram hf e).mp h
      exact .insecureHardLink hf hp hl
    | error cause =>
      -- nothing is found, so the failure is that of the memory map
      rw [Machine.locateExecutable, hprogram, Except.error.injEq] at h
      subst h
      cases hlink : m.process.programByLink m.files with
      | ok path =>
        rw [ProcessInfo.program, hlink] at hprogram
        cases hprogram
      | error unusable =>
        rw [ProcessInfo.program, hlink] at hprogram
        simp only [ProcessInfo.programByMaps, ProcessInfo.readMaps] at hprogram
        cases hmaps : m.process.maps with
        | unopened cause =>
          rw [hmaps] at hprogram
          cases hprogram
          exact .openMaps hlink hmaps
        | unread cause =>
          rw [hmaps] at hprogram
          cases hprogram
          exact .readMaps hlink hmaps
        | text t =>
          simp only [hmaps] at hprogram
          split at hprogram
          · cases hprogram
          · next hx =>
            cases hprogram
            exact .invalidMaps hlink hmaps hx
  · intro h
    cases h with
    | openMaps hlink hmaps =>
      rw [Machine.locateExecutable, ProcessInfo.program, hlink, ProcessInfo.programByMaps, ProcessInfo.readMaps, hmaps]
    | readMaps hlink hmaps =>
      rw [Machine.locateExecutable, ProcessInfo.program, hlink, ProcessInfo.programByMaps, ProcessInfo.readMaps, hmaps]
    | invalidMaps hlink hmaps hx =>
      rw [Machine.locateExecutable, ProcessInfo.program, hlink, ProcessInfo.programByMaps, ProcessInfo.readMaps, hmaps]
      simp only [hx]
    | insecureHardLink hf hp hl => exact (locateExecutable_eq_error_of_findsProgram hf _).mpr ⟨rfl, hp, hl⟩

theorem locateModule_eq_error_iff (m : Machine) (address : Nat) (e : LocateError) :
    m.locateModule address = .error e ↔ ModuleFailure m address e := by
  constructor
  · intro h
    cases hfound : m.process.moduleAt address with
    | ok path =>
      obtain ⟨o, ho⟩ := Origin.ofNativePath_isOk m.files path (isAbsolute_moduleAt hfound)
      rw [Machine.locateModule, hfound] at h
      simp only [ho] at h
      cases h
    | error cause =>
      rw [Machine.locateModule, hfound, Except.error.injEq] at h
      subst h
      simp only [ProcessInfo.moduleAt, ProcessInfo.readMaps] at hfound
      cases hmaps : m.process.maps with
      | unopened cause =>
        rw [hmaps] at hfound
        cases hfound
        exact .openMaps hmaps
      | unread cause =>
        rw [hmaps] at hfound
        cases hfound
        exact .readMaps hmaps
      | text t =>
        simp only [hmaps] at hfound
        split at hfound
        · cases hfound
        · next hx =>
          cases hfound
          exact .notMapped hmaps hx
  · intro h
    cases h with
    | openMaps hmaps => rw [Machine.locateModule, ProcessInfo.moduleAt, ProcessInfo.readMaps, hmaps]
    | readMaps hmaps => rw [Machine.locateModule, ProcessInfo.moduleAt, ProcessInfo.readMaps, hmaps]
    | notMapped hmaps hx =>
      rw [Machine.locateModule, ProcessInfo.moduleAt, ProcessInfo.readMaps, hmaps]
      simp only [hx]

/-- Both lookups fail for just the reasons listed, each told with what it is about; whatever path they arrive at is
absolute, and a chain that begins at an absolute path fails only because a link in it cannot be read. -/
theorem locate_eq_error_iff (m : Machine) (address : Nat) :
    (∀ e, m.locate .executable = .error e ↔ ExecutableFailure m e)
      ∧ (∀ e, m.locate (.moduleAt address) = .error e ↔ ModuleFailure m address e)
      ∧ (∀ path, FindsProgram m path → path.isAbsolute = true)
      ∧ (∀ path, m.process.moduleAt address = .ok path → path.isAbsolute = true)
      ∧ ∀ start e, start.isAbsolute = true → LinkChain.resolve m.files start = .error e →
        ∃ cause, e = .readLink cause := by
  refine ⟨locateExecutable_eq_error_iff m, locateModule_eq_error_iff m address, ?_, ?_, ?_⟩
  · exact fun path hf => hf.isAbsolute
  · exact fun path hfound => isAbsolute_moduleAt hfound
  · exact fun start e ha h => LinkChain.resolve_eq_error ha h

def twiceNamedMaps : Text := "00400000-0040b000 r-xp 00000000 00:00 0 /tool (deleted)\n".toList

/-- A process with another user's rights, started through a relative link. Its program has two names, and a link beside
it leads to itself. -/
def twiceNamed : Machine where
  files :=
    { entries :=
        [([Utf8.encode "proc".toList], .directory), ([Utf8.encode "proc".toList, Utf8.encode "self".toList], .directory),
          ([Utf8.encode "tool".toList], .file 0), ([Utf8.encode "copy".toList], .file 0),
          ([Utf8.encode "loop".toList], .link (.ofText "loop".toList))]
      contents := [] }
  process := ⟨.ok (.ofText "../../tool".toList), .text twiceNamedMaps, 1000, 0⟩

theorem locate_eq_error_iff_twiceNamed :
    (FindsProgram twiceNamed (.ofText "/proc/self/../../tool".toList)
        ∧ (NativePath.ofText "/proc/self/../../tool".toList).isAbsolute = true
        ∧ twiceNamed.locate .executable = .error (.insecureHardLink (.ofText "/proc/self/../../tool".toList)))
      ∧ (twiceNamed.process.moduleAt 0x400000 = .ok (.ofText "/tool".toList)
        ∧ (NativePath.ofText "/tool".toList).isAbsolute = true
        ∧ twiceNamed.locate (.moduleAt 0x40b000) = .error (.notMapped 0x40b000))
      ∧ LinkChain.resolve twiceNamed.files (.ofText "/loop".toList) = .error (.readLink .chainTooLong)
      ∧ ∃ cause, LocateError.readLink .chainTooLong = .readLink cause := by
  obtain ⟨hexecutable, -, hprogram, -, hchain⟩ := locate_eq_error_iff twiceNamed 0x400000
  have hmodule := (locate_eq_error_iff twiceNamed 0x400000).2.2.2.1
  have hunmapped := (locate_eq_error_iff twiceNamed 0x40b000).2.1
  have hfinds : FindsProgram twiceNamed (.ofText "/proc/self/../../tool".toList) := .byLink (by cbv)
  have hcount : twiceNamed.files.linkCount? (.ofText "/proc/self/../../tool".toList) = some 2 := by cbv
  have hpath : MemoryMap.moduleAt? twiceNamedMaps 0x400000 = some "/tool".toList := by decide +kernel
  have hnone : MemoryMap.moduleAt? twiceNamedMaps 0x40b000 = none := by decide +kernel
  have hfound : twiceNamed.process.moduleAt 0x400000 = .ok (.ofText "/tool".toList) := by
    rw [ProcessInfo.moduleAt]
    simp only [ProcessInfo.readMaps, twiceNamed, hpath]
  have hloop : LinkChain.resolve twiceNamed.files (.ofText "/loop".toList) = .error (.readLink .chainTooLong) := by cbv
  refine ⟨⟨hfinds, hprogram _ hfinds, (hexecutable _).mpr (.insecureHardLink hfinds (by decide) ?_)⟩,
    ⟨hfound, hmodule _ hfound, (hunmapped _).mpr (.notMapped rfl hnone)⟩, hloop, hchain _ _ (by decide) hloop⟩
  rw [hcount]
  decide

end Relocation
