import Mathlib
import Relocation.Files.Change
import Relocation.Proofs.MapLines
import Relocation.Proofs.BoundlessWalks
import Relocation.Proofs.NativePlaces
import Relocation.Provider

/-!
# Whether a privileged process finds its own program

The kernel tells a process the path its program was started through, and puts a mark behind that path once the entry
is gone. A process that runs with another user's rights trusts what it finds there if it is a file with exactly one
hard link. What it finds need not be its program: whoever can write where the program was started from can remove the
entry and put a file of their own at the path with the mark.

* `locateExecutable_eq_ok`: what it takes for a privileged process to accept an origin;
* `program_eq_ok_iff`: the one path that is looked at, told from what the kernel says;
* `find_place`: the file at the path of an origin is the file at the path it was made from;
* `locateExecutable_isRunning_iff`: the process finds its own program exactly as long as the path it looks at names
  nothing else with one hard link, and always while the entry is there and can be reached;
* `locateExecutable_planted`: a run in which another user's file is found.
-/

namespace Relocation

open Url Percent FileSystem

/-! ### What the kernel tells -/

/-- How a program was started: the entry it was started through, the number of its file, and whether the entry has
been removed since. -/
structure Start where
  entry : Location
  number : Nat
  removed : Bool

namespace Start

/-- The path of the entry, with the mark of a removed one. -/
def shown (s : Start) : NativePath :=
  ⟨behindSlashes s.entry ++ if s.removed then Utf8.encode Mapping.deletedMark else []⟩

/-- The same path as it is written into a line of the memory map. -/
def mapped (s : Start) : Bytes :=
  s.shown.bytes.flatMap fun b => if b = 0x0A then Utf8.encode "\\012".toList else [b]

end Start

/-- What the kernel tells a process about the program it executes, and what it guarantees: an entry that has not been
removed still leads to the file. -/
structure KernelTells (m : Machine) (s : Start) : Prop where
  started : s.entry ≠ []
  named : ∀ name ∈ s.entry, IsName name
  present : s.removed = false → IsFileAt m.files [] s.entry s.number
  link : m.process.executableLink = .ok s.shown
  maps : ∀ t, m.process.maps = .text t → ∃ fields name rest, Utf8.decode? s.mapped = some name
    ∧ t = (fields ++ name) ++ '\n' :: rest ∧ '/' ∉ fields ∧ '\n' ∉ fields ++ name

/-- The file at a path of an origin, as the file system takes it. -/
def Origin.place (o : Origin) : NativePath :=
  ⟨decodeText o.pathText⟩

/-- The origin's path names the very file the process executes, and that is its only hard link. -/
def IsRunning (m : Machine) (s : Start) (o : Origin) : Prop :=
  ∃ here, m.files.find .target o.place = .ok (here, .file s.number) ∧ m.files.linksOf s.number = 1

/-- The path a process takes for that of its program. -/
inductive Taken (m : Machine) (s : Start) : NativePath → Prop
  /-- The end of the links that begin at the path of the entry. -/
  | byLink {path : NativePath} : LinkChain.chase m.files LinkChain.maxHops s.shown = .ok path → Taken m s path
  /-- If they end nowhere, the path in the first line of the memory map, without the mark. -/
  | byMaps {cause : LocateError} {t name : Text} :
      LinkChain.chase m.files LinkChain.maxHops s.shown = .error cause → m.process.maps = .text t →
      (MemoryMap.executable? t).isSome = true → Utf8.decode? s.mapped = some name →
      Taken m s (NativePath.ofText (MemoryMap.withoutMark (trimEndWhere MemoryMap.isLineEnd name)))

/-! ### The file at the path of an origin -/

theorem decodeText_segmentsText (names : List Bytes) (tail : List Text) :
    decodeText (segmentsText (spelledNames names ++ tail)) = behindSlashes names ++ decodeText (segmentsText tail) := by
  induction names with
  | nil => rfl
  | cons name rest ih =>
    have hslash : (0x2F : UInt8) ≠ 0x25 := by decide
    rw [spelledNames, List.map_cons, List.cons_append, segmentsText_cons, decodeText, List.cons_append,
      Utf8.encode_cons, Utf8.encode_append]
    show decode (0x2F :: (Utf8.encode (encode nameSet name) ++ Utf8.encode (segmentsText (spelledNames rest ++ tail)))) = _
    rw [decode_cons_of_ne _ _ hslash, decode_encode_append holdsHigh_nameSet name _ fun b _ => ne_percent_of_nameSet b]
    show slashByte :: (name ++ decodeText (segmentsText (spelledNames rest ++ tail))) = _
    rw [ih, behindSlashes, behindSlashes, List.flatMap_cons, List.cons_append, List.cons_append, List.append_assoc]

theorem isDirectory_of_find {fs : FileSystem} {p : NativePath} {here : Location} {n : Nat}
    (h : fs.find .target p = .ok (here, .file n)) : fs.isDirectory p = false := by
  rw [FileSystem.isDirectory, h]

/-- Origins are made of absolute paths only. -/
theorem isAbsolute_of_ofNativePath {fs : FileSystem} {p : NativePath} {o : Origin}
    (h : Origin.ofNativePath fs p = .ok o) : p.isAbsolute = true := by
  by_cases ha : p.isAbsolute = true
  · exact ha
  · rw [Origin.ofNativePath, ofNativePath?, if_neg ha] at h
    cases h

theorem place_of_ofNativePath {fs : FileSystem} {p : NativePath} {o : Origin} (h : Origin.ofNativePath fs p = .ok o) :
    o.place = ⟨decodeText (segmentsText (segmentsOfNames p.names (Origin.namesDirectory fs p)))⟩ := by
  rw [ofNativePath_eq fs p (isAbsolute_of_ofNativePath h), Except.ok.injEq] at h
  rw [← h]
  rfl

/-- The file at the path of an origin is the file at the path it was made from. -/
theorem find_place {fs : FileSystem} {p : NativePath} {o : Origin} {here : Location} {n : Nat}
    (h : fs.find .target p = .ok (here, .file n)) (ho : Origin.ofNativePath fs p = .ok o) :
    fs.find .target o.place = .ok (here, .file n) := by
  have habs := isAbsolute_of_ofNativePath ho
  rw [place_of_ofNativePath ho, segmentsOfNames_eq, Origin.namesDirectory, isDirectory_of_find h, Bool.or_false]
  -- a regular file is no directory, so that only a slash in the path itself ends the path of the origin
  by_cases hs : p.endsWithSlash = true
  · rw [if_pos (Or.inr hs), decodeText_segmentsText]
    exact find_behindSlashes_slash habs hs h
  · have hl := decodeText_segmentsText p.names []
    rw [List.append_nil] at hl
    rw [if_neg fun hc => hc.elim (names_ne_nil habs h) hs, hl]
    show fs.find .target ⟨behindSlashes p.names ++ []⟩ = _
    rw [List.append_nil]
    exact find_behindSlashes habs h

/-- The path of an origin that was made from the path of a directory does not lead to a file. -/
theorem find_place_of_directory {fs : FileSystem} {p : NativePath} {o : Origin} {here there : Location} {n : Nat}
    (h : fs.find .target p = .ok (here, .directory)) (ho : Origin.ofNativePath fs p = .ok o) :
    fs.find .target o.place ≠ .ok (there, .file n) := by
  have habs := isAbsolute_of_ofNativePath ho
  have hdir : fs.isDirectory p = true := isDirectory_iff.mpr ⟨here, h⟩
  have hends : o.place.endsWithSlash = true := by
    rw [place_of_ofNativePath ho, segmentsOfNames_eq, Origin.namesDirectory, hdir, Bool.or_true,
      if_pos (Or.inr rfl), decodeText_segmentsText]
    exact beq_iff_eq.mpr List.getLast?_concat
  exact not_file_of_endsWithSlash hends

/-! ### What a privileged process accepts -/

theorem linkCount?_of_file {fs : FileSystem} {p : NativePath} {here : Location} {n : Nat}
    (h : fs.find .target p = .ok (here, .file n)) : fs.linkCount? p = some (fs.linksOf n) := by
  simp only [FileSystem.linkCount?, h]

/-- Only what is there has hard links, and nothing that is found behind all links is a link. -/
theorem exists_find_of_linkCount? {fs : FileSystem} {p : NativePath} {count : Nat} (h : fs.linkCount? p = some count) :
    ∃ here e, fs.find .target p = .ok (here, e) ∧ (e = .directory ∨ ∃ n, e = .file n) := by
  rw [FileSystem.linkCount?] at h
  split at h
  · next here n hf => exact ⟨here, _, hf, .inr ⟨n, rfl⟩⟩
  · next here hf => exact ⟨here, _, hf, .inl rfl⟩
  · cases h

/-- With another user's rights, only a path whose file has one hard link is trusted. -/
theorem trusts_iff {p : ProcessInfo} (hp : p.isPrivileged = true) (fs : FileSystem) (path : NativePath) :
    p.trusts fs path = true ↔ fs.linkCount? path = some 1 := by
  rw [ProcessInfo.trusts, ProcessInfo.trustsLinkCount, hp]
  simp

/-- What it takes for a privileged process to accept an origin. -/
theorem locateExecutable_eq_ok {m : Machine} (hp : m.process.isPrivileged = true) (o : Origin) :
    m.locateExecutable = .ok o ↔ ∃ path, m.process.program m.files = .ok path
      ∧ m.files.linkCount? path = some 1 ∧ Origin.ofNativePath m.files path = .ok o := by
  rw [Machine.locateExecutable]
  cases hprog : m.process.program m.files with
  | error e =>
    simp only [reduceCtorEq, false_and, exists_false]
  | ok path =>
    constructor
    · intro h
      simp only at h
      split at h
      · next ht => exact ⟨path, rfl, (trusts_iff hp m.files path).mp ht, h⟩
      · cases h
    · rintro ⟨taken, htaken, hl, ho⟩
      cases htaken
      simp only
      rw [if_pos ((trusts_iff hp m.files path).mpr hl)]
      exact ho

/-! ### The path that is looked at -/

namespace KernelTells

variable {m : Machine} {s : Start}

theorem bytes_shown (h : KernelTells m s) : ∃ rest, s.shown.bytes = slashByte :: rest := by
  obtain ⟨name, more, he⟩ := List.exists_cons_of_ne_nil h.started
  rw [Start.shown, he]
  exact ⟨_, rfl⟩

theorem isAbsolute_shown (h : KernelTells m s) : s.shown.isAbsolute = true := by
  obtain ⟨rest, hb⟩ := h.bytes_shown
  rw [NativePath.isAbsolute, hb]
  rfl

theorem decode?_mapped (h : KernelTells m s) {name : Text} (hn : Utf8.decode? s.mapped = some name) :
    ∃ tail, name = '/' :: tail := by
  obtain ⟨rest, hb⟩ := h.bytes_shown
  rw [Start.mapped, hb, List.flatMap_cons] at hn
  have hpieces : ∀ bs, Utf8.decode? (slashByte :: bs) = (Utf8.decode? bs).map ('/' :: ·) := fun _ => rfl
  have hone : (if slashByte = 0x0A then Utf8.encode "\\012".toList else [slashByte]) = [slashByte] := by decide
  rw [hone, List.singleton_append, hpieces, Option.map_eq_some_iff] at hn
  obtain ⟨tail, -, rfl⟩ := hn
  exact ⟨tail, rfl⟩

theorem programByLink_eq (h : KernelTells m s) :
    m.process.programByLink m.files = LinkChain.chase m.files LinkChain.maxHops s.shown := by
  have hseen : LinkChain.seenFrom ProcessInfo.selfLink s.shown = .ok s.shown := by
    rw [LinkChain.seenFrom, if_pos h.isAbsolute_shown]
  rw [ProcessInfo.programByLink, h.link]
  simp only [hseen]

/-- A program that is found in the memory map is found at the path the kernel shows, without the mark. -/
theorem executable?_maps (h : KernelTells m s) {t found : Text} (hm : m.process.maps = .text t)
    (hx : MemoryMap.executable? t = some found) :
    ∃ name, Utf8.decode? s.mapped = some name
      ∧ found = MemoryMap.withoutMark (trimEndWhere MemoryMap.isLineEnd name) := by
  obtain ⟨fields, name, rest, hn, rfl, hf, hnl⟩ := h.maps t hm
  obtain ⟨tail, rfl⟩ := h.decode?_mapped hn
  exact ⟨_, hn, MemoryMap.executable?_eq_some fields tail rest found hf hnl hx⟩

theorem programByMaps_eq_ok_iff (h : KernelTells m s) (path : NativePath) :
    m.process.programByMaps = .ok path ↔
      ∃ t name, m.process.maps = .text t ∧ (MemoryMap.executable? t).isSome = true
        ∧ Utf8.decode? s.mapped = some name
        ∧ path = NativePath.ofText (MemoryMap.withoutMark (trimEndWhere MemoryMap.isLineEnd name)) := by
  rw [ProcessInfo.programByMaps, ProcessInfo.readMaps]
  constructor
  · intro hp
    cases hm : m.process.maps with
    | unopened e =>
      rw [hm] at hp
      cases hp
    | unread e =>
      rw [hm] at hp
      cases hp
    | text t =>
      rw [hm] at hp
      cases hx : MemoryMap.executable? t with
      | none =>
        simp only [hx] at hp
        cases hp
      | some found =>
        simp only [hx, Except.ok.injEq] at hp
        obtain ⟨name, hn, rfl⟩ := h.executable?_maps hm hx
        exact ⟨t, name, rfl, by rw [hx]; rfl, hn, hp.symm⟩
  · rintro ⟨t, name, hm, hx, hn, rfl⟩
    obtain ⟨found, hfound⟩ := Option.isSome_iff_exists.mp hx
    obtain ⟨shown, hshown, rfl⟩ := h.executable?_maps hm hfound
    rw [hn, Option.some.injEq] at hshown
    rw [hm]
    simp only [hfound, hshown]

/-- The path of the program is the one taken. -/
theorem program_eq_ok_iff (h : KernelTells m s) (path : NativePath) :
    m.process.program m.files = .ok path ↔ Taken m s path := by
  rw [ProcessInfo.program, h.programByLink_eq]
  cases hc : LinkChain.chase m.files LinkChain.maxHops s.shown with
  | ok last =>
    constructor
    · intro hp
      cases hp
      exact .byLink hc
    · intro ht
      cases ht with
      | byLink hl =>
        rw [hc] at hl
        exact hl
      | byMaps hl _ _ _ =>
        rw [hc] at hl
        cases hl
  | error cause =>
    show m.process.programByMaps = .ok path ↔ _
    rw [h.programByMaps_eq_ok_iff]
    constructor
    · rintro ⟨t, name, hm, hx, hn, rfl⟩
      exact .byMaps hc hm hx hn
    · intro ht
      cases ht with
      | byLink hl =>
        rw [hc] at hl
        cases hl
      | byMaps _ hm hx hn => exact ⟨_, _, hm, hx, hn, rfl⟩

/-- While the entry is there and can be reached, its path is the one taken, and it leads to the program. -/
theorem taken_of_present (h : KernelTells m s) (hr : s.removed = false) (hl : s.shown.bytes.length < maxPath)
    (hreach : m.files.CanReach [] s.entry) :
    Taken m s s.shown ∧ m.files.find .target s.shown = .ok (s.entry, .file s.number) := by
  have hshown : s.shown = ⟨behindSlashes s.entry⟩ := by
    rw [Start.shown, hr, if_neg (by simp), List.append_nil]
  have hfind : ∀ {purpose : Purpose}, purpose ≠ .file →
      m.files.find purpose s.shown = .ok (s.entry, .file s.number) := by
    intro purpose hp
    rw [hshown] at hl ⊢
    exact find_isFileAt hp (h.present hr) hreach hl
  refine ⟨.byLink ?_, hfind (by decide)⟩
  have hlink : m.files.isLink s.shown = .ok false := by
    rw [isLink, hfind (by decide)]
  show LinkChain.chase m.files (39 + 1) s.shown = _
  rw [LinkChain.chase, hlink]

end KernelTells

theorem Taken.isAbsolute {m : Machine} {s : Start} {path : NativePath} (hk : KernelTells m s) (h : Taken m s path) :
    path.isAbsolute = true := by
  cases h with
  | byLink hl => exact LinkChain.isAbsolute_chase m.files _ s.shown path hk.isAbsolute_shown hl
  | byMaps _ _ _ hn =>
    obtain ⟨tail, rfl⟩ := hk.decode?_mapped hn
    have htrim : trimEndWhere MemoryMap.isLineEnd ('/' :: tail) = '/' :: trimEndWhere MemoryMap.isLineEnd tail :=
      trimEndWhere_append_cons _ [] '/' tail (by decide)
    obtain ⟨rest, hw⟩ := MemoryMap.withoutMark_slash (trimEndWhere MemoryMap.isLineEnd tail)
    rw [htrim, hw]
    rfl

/-! ### The guarantee and its limits -/

section Privileged

variable {m : Machine} {s : Start} (hk : KernelTells m s) (hp : m.process.isPrivileged = true)
include hk hp

/-- Whatever is accepted is the running program exactly if the path taken names nothing else with one hard link. -/
theorem isRunning_iff_taken :
    (∀ o, m.locateExecutable = .ok o → IsRunning m s o) ↔
      ∀ path here e, Taken m s path → m.files.find .target path = .ok (here, e) →
        m.files.linkCount? path = some 1 → e = .file s.number := by
  constructor
  · intro hall path here e ht hf hl
    obtain ⟨o, ho⟩ := Origin.ofNativePath_isOk m.files path (ht.isAbsolute hk)
    have hok : m.locateExecutable = .ok o :=
      (locateExecutable_eq_ok hp o).mpr ⟨path, (hk.program_eq_ok_iff path).mpr ht, hl, ho⟩
    obtain ⟨there, hplace, -⟩ := hall o hok
    obtain ⟨place, found, hfound, hkind⟩ := exists_find_of_linkCount? hl
    rw [hf] at hfound
    cases hfound
    -- the origin made from the path leads back to the file that was looked at, and to none if that was a directory
    rcases hkind with rfl | ⟨n, rfl⟩
    · exact absurd hplace (find_place_of_directory hf ho)
    · rw [find_place hf ho] at hplace
      cases hplace
      rfl
  · intro hall o hok
    obtain ⟨path, hprog, hl, ho⟩ := (locateExecutable_eq_ok hp o).mp hok
    obtain ⟨here, e, hf, -⟩ := exists_find_of_linkCount? hl
    have he : e = .file s.number := hall path here e ((hk.program_eq_ok_iff path).mp hprog) hf hl
    subst he
    rw [linkCount?_of_file hf] at hl
    exact ⟨here, find_place hf ho, Option.some.inj hl⟩

/-- While the entry is there and can be reached, nothing but the running program is accepted. -/
theorem isRunning_of_present (hr : s.removed = false) (hlen : s.shown.bytes.length < maxPath)
    (hreach : m.files.CanReach [] s.entry) : ∀ o, m.locateExecutable = .ok o → IsRunning m s o := by
  obtain ⟨htaken, hfind⟩ := hk.taken_of_present hr hlen hreach
  have hprog := (hk.program_eq_ok_iff s.shown).mpr htaken
  refine (isRunning_iff_taken hk hp).mpr fun path here e ht hf _ => ?_
  rw [← hk.program_eq_ok_iff, hprog] at ht
  cases ht
  rw [hfind] at hf
  cases hf
  rfl

/-- While the entry is there and can be reached, the program is accepted exactly if it has one hard link. -/
theorem locateExecutable_isOk_of_present (hr : s.removed = false) (hlen : s.shown.bytes.length < maxPath)
    (hreach : m.files.CanReach [] s.entry) :
    (∃ o, m.locateExecutable = .ok o) ↔ m.files.linksOf s.number = 1 := by
  obtain ⟨htaken, hfind⟩ := hk.taken_of_present hr hlen hreach
  have hprog := (hk.program_eq_ok_iff s.shown).mpr htaken
  have hcount := linkCount?_of_file hfind
  constructor
  · rintro ⟨o, hok⟩
    obtain ⟨path, hpath, hl, -⟩ := (locateExecutable_eq_ok hp o).mp hok
    rw [hprog] at hpath
    cases hpath
    exact Option.some.inj (hcount.symm.trans hl)
  · intro hl
    obtain ⟨o, ho⟩ := Origin.ofNativePath_isOk m.files s.shown hk.isAbsolute_shown
    exact ⟨o, (locateExecutable_eq_ok hp o).mpr ⟨s.shown, hprog, by rw [hcount, hl], ho⟩⟩

end Privileged

/-- The process finds its own program, and nothing but its program, exactly as long as the path it takes does not name
anything else with one hard link, be it another file or a directory. While the entry is there, and its path can be
reached and is not too long to be looked up, it always does, and then it is refused exactly if its file has other hard
links. -/
theorem locateExecutable_isRunning_iff (m : Machine) (s : Start) (hk : KernelTells m s)
    (hp : m.process.isPrivileged = true) :
    ((∀ o, m.locateExecutable = .ok o → IsRunning m s o) ↔
      ∀ path here e, Taken m s path → m.files.find .target path = .ok (here, e) →
        m.files.linkCount? path = some 1 → e = .file s.number)
    ∧ (s.removed = false → s.shown.bytes.length < maxPath → m.files.CanReach [] s.entry →
      (∀ o, m.locateExecutable = .ok o → IsRunning m s o)
        ∧ ((∃ o, m.locateExecutable = .ok o) ↔ m.files.linksOf s.number = 1)) := by
  refine ⟨isRunning_iff_taken hk hp, fun hr hlen hreach => ⟨isRunning_of_present hk hp hr hlen hreach, ?_⟩⟩
  exact locateExecutable_isOk_of_present hk hp hr hlen hreach

/-! ### A run that is led astray -/

/-- A program with one hard link, and a directory for everybody. -/
def sharedTree : FileSystem where
  entries :=
    [([Utf8.encode "usr".toList], .directory), ([Utf8.encode "usr".toList, Utf8.encode "tool".toList], .file 0),
      ([Utf8.encode "tmp".toList], .directory)]
  contents := []

/-- A process with another user's rights that is shown a path. -/
def privilegedAt (shown : Text) : ProcessInfo :=
  ⟨.ok (NativePath.ofText shown), .text ("00400000-0040b000 r-xp 00000000 08:02 7 ".toList ++ shown ++ ['\n']), 1000, 0⟩

theorem kernelTells_privilegedAt (fs : FileSystem) (s : Start) (shown : Text) (h1 : s.entry ≠ [])
    (h2 : ∀ name ∈ s.entry, IsName name) (h3 : s.removed = false → IsFileAt fs [] s.entry s.number)
    (h4 : NativePath.ofText shown = s.shown) (h5 : Utf8.decode? s.mapped = some shown) (h6 : '\n' ∉ shown) :
    KernelTells ⟨fs, privilegedAt shown⟩ s := by
  refine ⟨h1, h2, h3, congrArg Except.ok h4, fun t ht => ?_⟩
  refine ⟨"00400000-0040b000 r-xp 00000000 08:02 7 ".toList, shown, [], h5, (MapsSource.text.inj ht).symm, by decide, ?_⟩
  intro hm
  rcases List.mem_append.mp hm with hm | hm
  · exact absurd hm (by decide)
  · exact h6 hm

theorem locateExecutable_isRunning_tool :
    ∃ o, (Machine.mk sharedTree (privilegedAt "/usr/tool".toList)).locateExecutable = .ok o
      ∧ IsRunning ⟨sharedTree, privilegedAt "/usr/tool".toList⟩
          ⟨[Utf8.encode "usr".toList, Utf8.encode "tool".toList], 0, false⟩ o := by
  have hk : KernelTells ⟨sharedTree, privilegedAt "/usr/tool".toList⟩
      ⟨[Utf8.encode "usr".toList, Utf8.encode "tool".toList], 0, false⟩ :=
    kernelTells_privilegedAt _ _ _ (by decide) (by decide) (fun _ => ⟨by decide, by decide, by decide⟩) (by decide)
      (by decide) (by decide)
  obtain ⟨hall, hok⟩ := (locateExecutable_isRunning_iff _ _ hk (by decide)).2 rfl (by decide) (fun _ _ => rfl)
  obtain ⟨o, ho⟩ := hok.mpr (by decide)
  exact ⟨o, ho, hall o ho⟩

/-- Another user makes a hard link to the program, starts it through that link, removes the link and puts a file of
their own where the kernel's text now points: that file is found and trusted. -/
theorem locateExecutable_planted :
    ∃ linked removed planted,
      sharedTree.makeHardLink (.ofText "/tmp/x".toList) (.ofText "/usr/tool".toList) = .ok linked
      ∧ KernelTells ⟨linked, privilegedAt "/tmp/x".toList⟩ ⟨[Utf8.encode "tmp".toList, Utf8.encode "x".toList], 0, false⟩
      ∧ linked.remove (.ofText "/tmp/x".toList) = .ok removed
      ∧ removed.writeFile (.ofText "/tmp/x (deleted)".toList) [] = .ok planted
      ∧ KernelTells ⟨planted, privilegedAt "/tmp/x (deleted)".toList⟩
          ⟨[Utf8.encode "tmp".toList, Utf8.encode "x".toList], 0, true⟩
      ∧ (privilegedAt "/tmp/x (deleted)".toList).isPrivileged = true
      ∧ ∃ o, (Machine.mk planted (privilegedAt "/tmp/x (deleted)".toList)).locateExecutable = .ok o
        ∧ ¬IsRunning ⟨planted, privilegedAt "/tmp/x (deleted)".toList⟩
            ⟨[Utf8.encode "tmp".toList, Utf8.encode "x".toList], 0, true⟩ o := by
  refine ⟨sharedTree.withEntry [Utf8.encode "tmp".toList, Utf8.encode "x".toList] (.file 0), sharedTree,
    (sharedTree.withEntry [Utf8.encode "tmp".toList, Utf8.encode "x (deleted)".toList] (.file 1)).withContent 1 [],
    by cbv, ?_, by cbv, by cbv, ?_, by decide,
    ⟨⟨"file".toList, some Authority.empty, .segments false ["tmp".toList, "x%20(deleted)".toList], none, none⟩⟩,
    by cbv, ?_⟩
  · exact kernelTells_privilegedAt _ _ _ (by decide) (by decide) (fun _ => ⟨by decide, by decide, by decide⟩)
      (by decide) (by decide) (by decide)
  · exact kernelTells_privilegedAt _ _ _ (by decide) (by decide) (fun h => by cases h) (by decide) (by decide)
      (by decide)
  · rintro ⟨here, hf, -⟩
    have hother : FileSystem.find
        ((sharedTree.withEntry [Utf8.encode "tmp".toList, Utf8.encode "x (deleted)".toList] (.file 1)).withContent 1 [])
        .target (NativePath.ofText "/tmp/x (deleted)".toList)
        = .ok ([Utf8.encode "tmp".toList, Utf8.encode "x (deleted)".toList], .file 1) := by cbv
    have hplace : Origin.place ⟨⟨"file".toList, some Authority.empty,
        .segments false ["tmp".toList, "x%20(deleted)".toList], none, none⟩⟩
        = NativePath.ofText "/tmp/x (deleted)".toList := by decide
    rw [hplace] at hf
    have hsame := hother.symm.trans hf
    cases hsame

end Relocation
