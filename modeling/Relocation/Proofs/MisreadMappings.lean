import Relocation.Proofs.MapTable

/-!
# Mappings that are lost and names that are taken for paths

What is read of a line of the memory map is decided by the width of its bounds and by its slashes. The bounds of a
mapping need not have the same width: one that begins below four gibibytes and ends above them is printed with eight
digits and with nine, and is not read at all, although it is one of a file. And the name of some memory need not be
free of slashes: a process may call its memory `/usr/lib/libfoo.so`, which the kernel prints as
`[anon:/usr/lib/libfoo.so]`, and all from the slash on is read as the path of a file.

* `IsSkipped`: a line no lookup takes an answer from, wherever it stands;
* `Region.file_isFound_iff_isLevel`: the mappings of files that are found are those whose bounds have the same width;
* `Region.memory_isSkipped_or_taken`: memory is taken for a file exactly if its name holds a slash and its bounds have
  the same width.
-/

namespace Relocation

namespace MemoryMap

/-! ### Lines nothing is read of -/

/-- No answer is taken from a line, wherever it stands: with it or without it, the lookups tell the same, except that
no program is told where it is the first. -/
structure IsSkipped (line : Text) : Prop where
  moduleAt?_first : ∀ after address, moduleAt? (line ++ '\n' :: after) address = moduleAt? after address
  moduleAt?_later : ∀ before after address,
    moduleAt? (before ++ '\n' :: (line ++ '\n' :: after)) address = moduleAt? (before ++ '\n' :: after) address
  executable?_first : ∀ after, executable? (line ++ '\n' :: after) = none
  executable?_later : ∀ before after,
    executable? (before ++ '\n' :: (line ++ '\n' :: after)) = executable? (before ++ '\n' :: after)

theorem isSkipped_of_readLine? {line : Text} (hline : '\n' ∉ line) (hr : readLine? line = none) : IsSkipped line := by
  have hlater (before after : Text) :
      mappings (before ++ '\n' :: (line ++ '\n' :: after)) = mappings (before ++ '\n' :: after) := by
    rw [mappings_append, mappings_line hline, hr, Option.toList_none, List.nil_append, ← mappings_append]
  constructor
  · intro after address
    rw [moduleAt?_line hline, hr]
    rfl
  · intro before after address
    rw [moduleAt?, hlater, moduleAt?]
  · intro after
    rw [executable?_line hline, hr]
    rfl
  · intro before after
    refine executable?_congr ?_ (hlater before after)
    rw [head?_lines_append, head?_lines_append]

end MemoryMap

namespace Region

open MemoryMap

/-- The line of a region is read as one of a file at a path: if it maps code, that is the file at each of its addresses,
and the program where the line is the first. -/
structure Tells (r : Region) (path : Text) : Prop where
  readLine?_eq : readLine? r.line = some ⟨r.start, r.stop, r.permissions, path⟩
  moduleAt?_eq : r.permissions = Mapping.codePermissions → ∀ after address, r.start ≤ address → address < r.stop →
    moduleAt? (r.line ++ '\n' :: after) address = some path
  executable?_eq : r.permissions = Mapping.codePermissions → ∀ after,
    executable? (r.line ++ '\n' :: after) = some path

theorem tells_of_readLine? {r : Region} {path : Text} (hline : '\n' ∉ r.line)
    (hr : readLine? r.line = some ⟨r.start, r.stop, r.permissions, path⟩) : r.Tells path := by
  refine ⟨hr, fun hcode after address hstart hstop => ?_, fun hcode after => ?_⟩
  · rw [moduleAt?_line hline, hr,
      Option.filter_some_pos (by simp [Mapping.isCode, Mapping.holds, hcode, hstart, hstop])]
    rfl
  · rw [executable?_line hline, hr, Option.bind_some, mappings_line hline, hr]
    exact if_pos (by simp [Mapping.isCode, hcode])

/-! ### Files -/

/-- A file is told by the line of its mapping, and at the addresses of its code, as long as no power of sixteen with
more than eight digits lies between the bounds. Otherwise nothing is read of the line, and no lookup sees it. -/
theorem file_isFound_iff_isLevel (r : Region) (path : MappedPath) (removed : Bool)
    (hname : r.name = (Backing.file path removed).shown) :
    (readLine? r.line = some ⟨r.start, r.stop, r.permissions, path.text⟩ ↔ r.IsLevel)
      ∧ (readLine? r.line = none ↔ ¬r.IsLevel)
      ∧ (∀ ending, ending = [] ∨ ending = ['\n'] → ∀ address,
          moduleAt? (r.line ++ ending) address
            = if r.IsLevel ∧ r.permissions = Mapping.codePermissions ∧ r.start ≤ address ∧ address < r.stop
              then some path.text else none)
      ∧ (¬r.IsLevel → IsSkipped r.line) := by
  have hnewline : '\n' ∉ r.line := by
    rw [r.newline_mem_line, hname]
    exact Backing.newline_not_mem_shown path removed
  by_cases hlevel : r.IsLevel
  · have hread : readLine? r.line = some ⟨r.start, r.stop, r.permissions, path.text⟩ := readLine?_of_file hlevel hname
    refine ⟨iff_of_true hread hlevel, iff_of_false (by simp [hread]) (not_not_intro hlevel), ?_, fun h => absurd hlevel h⟩
    intro ending he address
    rw [moduleAt?_only hnewline he, hread]
    by_cases hat : r.permissions = Mapping.codePermissions ∧ r.start ≤ address ∧ address < r.stop
    · rw [if_pos ⟨hlevel, hat⟩, Option.filter_some_pos (by simpa [Mapping.isCode, Mapping.holds] using hat)]
      rfl
    · rw [if_neg fun h => hat h.2, Option.filter_some_neg (by simpa [Mapping.isCode, Mapping.holds] using hat)]
      rfl
  · have hread : readLine? r.line = none := readLine?_of_not_isLevel hlevel
    have hskipped : IsSkipped r.line := isSkipped_of_readLine? hnewline hread
    refine ⟨iff_of_false (by simp [hread]) hlevel, iff_of_true hread hlevel, ?_, fun _ => hskipped⟩
    intro ending he address
    rw [moduleAt?_only hnewline he, hread, if_neg fun h => hlevel h.1]
    rfl

/-- A library whose path holds no blank. -/
def libraryPath : MappedPath :=
  ⟨"/usr/lib/libfoo.so".toList, by decide, by decide, by decide, by decide⟩

/-- A region of a library's code. -/
def libraryCode (start stop : Nat) (start_lt : start < addressBound) (stop_lt : stop < addressBound) : Region :=
  ⟨start, stop, Mapping.codePermissions, 0, 8, 2, 173521, libraryPath.text, start_lt, stop_lt, by decide, by decide⟩

theorem file_isFound_iff_isLevel_highRegion :
    let r := libraryCode 0x7f1c80021000 0x7f1c80042000 (by decide) (by decide)
    r.name = (Backing.file libraryPath false).shown
      ∧ readLine? r.line = some ⟨0x7f1c80021000, 0x7f1c80042000, Mapping.codePermissions, libraryPath.text⟩
      ∧ moduleAt? (r.line ++ ['\n']) 0x7f1c80041fff = some libraryPath.text
      ∧ moduleAt? (r.line ++ ['\n']) 0x7f1c80042000 = none := by
  intro r
  have hname : r.name = (Backing.file libraryPath false).shown := by decide
  obtain ⟨hread, -, hmodule, -⟩ := file_isFound_iff_isLevel r libraryPath false hname
  refine ⟨hname, hread.mpr (by decide), ?_, ?_⟩
  · rw [hmodule _ (.inr rfl)]
    decide
  · rw [hmodule _ (.inr rfl)]
    decide

/-- Code that is mapped across four gibibytes is not found, since one bound has eight digits and the other nine. -/
theorem file_lost_acrossFourGiB :
    let r := libraryCode 0xfffff000 0x100001000 (by decide) (by decide)
    r.line = "fffff000-100001000 r-xp 00000000 08:02 173521                            /usr/lib/libfoo.so".toList
      ∧ r.name = (Backing.file libraryPath false).shown
      ∧ r.start < r.stop
      ∧ readLine? r.line = none
      ∧ moduleAt? (r.line ++ ['\n']) r.start = none := by
  decide

/-! ### Memory -/

/-- Nothing is read of the line of memory exactly if its name holds no slash or a power of sixteen with more than eight
digits lies between its bounds, and then no lookup sees the line. Otherwise what follows the first slash of the name is
taken for the path of a file. -/
theorem memory_isSkipped_or_taken (r : Region) (hname : r.name.head? ≠ some '/') (hline : '\n' ∉ r.name) :
    (readLine? r.line = none ↔ '/' ∉ r.name ∨ ¬r.IsLevel)
      ∧ ('/' ∉ r.name ∨ ¬r.IsLevel → IsSkipped r.line)
      ∧ ('/' ∈ r.name ∧ r.IsLevel →
          ∃ front tail, front ≠ [] ∧ '/' ∉ front ∧ r.name = front ++ '/' :: tail
            ∧ r.Tells (withoutMark ('/' :: trimEndWhere isLineEnd tail))) := by
  have hnewline : '\n' ∉ r.line := fun h => hline (r.newline_mem_line.mp h)
  refine ⟨readLine?_eq_none_iff, fun h => isSkipped_of_readLine? hnewline (readLine?_eq_none_iff.mpr h), ?_⟩
  rintro ⟨hslash, hlevel⟩
  obtain ⟨front, tail, hsplit, hfront⟩ := List.eq_append_cons_of_mem hslash
  -- the bracket of the name, or what else it begins with, is in front of its first slash and is lost
  have hne : front ≠ [] := by
    rintro rfl
    rw [hsplit] at hname
    exact hname rfl
  have hread := readLine?_of_slash hlevel hsplit hfront
  exact ⟨front, tail, hne, hfront, hsplit, tells_of_readLine? hnewline hread⟩

/-- Memory of code with a name. -/
def namedMemory (name : Text) : Region :=
  ⟨0x7f1c80000000, 0x7f1c80021000, Mapping.codePermissions, 0, 0, 0, 0, name, by decide, by decide, by decide,
    by decide⟩

theorem memory_isSkipped_or_taken_names :
    readLine? (namedMemory "[heap]".toList).line = none
      ∧ IsSkipped (namedMemory "[anon:jit code]".toList).line
      ∧ (namedMemory "[anon:a/b]".toList).Tells "/b]".toList := by
  refine ⟨?_, ?_, ?_⟩
  · exact (memory_isSkipped_or_taken (namedMemory "[heap]".toList) (by decide) (by decide)).1.mpr (by decide)
  · exact (memory_isSkipped_or_taken (namedMemory "[anon:jit code]".toList) (by decide) (by decide)).2.1 (by decide)
  · obtain ⟨front, tail, -, -, -, htells⟩ :=
      (memory_isSkipped_or_taken (namedMemory "[anon:a/b]".toList) (by decide) (by decide)).2.2 (by decide)
    have hread : readLine? (namedMemory "[anon:a/b]".toList).line
        = some ⟨0x7f1c80000000, 0x7f1c80021000, Mapping.codePermissions, "/b]".toList⟩ := by decide
    have hpath : withoutMark ('/' :: trimEndWhere isLineEnd tail) = "/b]".toList :=
      congrArg Mapping.path (Option.some.inj (htells.readLine?_eq.symm.trans hread))
    exact hpath ▸ htells

/-- Memory of code that a process has called like a library is taken for a file, whose path ends in the bracket that the
kernel prints behind the name. -/
theorem memory_taken_libraryName :
    let r := namedMemory "[anon:/usr/lib/libfoo.so]".toList
    r.line = "7f1c80000000-7f1c80021000 r-xp 00000000 00:00 0                          [anon:/usr/lib/libfoo.so]".toList
      ∧ r.name.head? ≠ some '/'
      ∧ readLine? r.line
          = some ⟨0x7f1c80000000, 0x7f1c80021000, Mapping.codePermissions, "/usr/lib/libfoo.so]".toList⟩
      ∧ moduleAt? (r.line ++ ['\n']) 0x7f1c80000000 = some "/usr/lib/libfoo.so]".toList
      ∧ executable? (r.line ++ ['\n']) = some "/usr/lib/libfoo.so]".toList := by
  decide

end Region

end Relocation
