import Relocation.Proofs.PrintedMappings
import Relocation.Provider

/-!
# The memory map as a table

The kernel keeps one record for each mapping and prints them one after the other, each on a line of its own. The text
is all that is read, but what is looked up in it is what a look into the records would find, in their order.

* `MapRecord.text`: the lines the kernel prints;
* `lines_line`: the first line of a record tells its mapping, and others tell nothing;
* `mappings_text`: the mappings read are those of the records;
* `mapText_lookups`: the file at an address and the program are those of the records.
-/

namespace Relocation

open MemoryMap

/-! ### Records -/

/-- The path of a mapped file, as the kernel prints it. -/
structure MappedPath where
  text : Text
  absolute : text.head? = some '/'
  oneLine : '\n' ∉ text
  noReturn : text.getLast? ≠ some '\r'
  unmarked : ¬Mapping.deletedMark <:+ text

/-- What is mapped: a file, which may have been removed since, or memory, which may have a name. -/
inductive Backing where
  | file (path : MappedPath) (removed : Bool)
  | memory (name : Text) (noSlash : '/' ∉ name)

/-- What the kernel prints of what is mapped. -/
def Backing.shown : Backing → Text
  | .file path removed => path.text ++ if removed then Mapping.deletedMark else []
  | .memory name _ => name

/-- What the kernel keeps of one mapping. -/
structure MapRecord where
  start : Nat
  /-- The first address behind the mapping. -/
  stop : Nat
  permissions : Text
  offset : Nat
  major : Nat
  minor : Nat
  inode : Nat
  backing : Backing
  start_lt : start < addressBound
  stop_lt : stop < addressBound
  sameWidth : (fixedHex 8 start).length = (fixedHex 8 stop).length
  length_permissions : permissions.length = 4
  isUnbroken_permissions : IsUnbroken permissions

namespace MapRecord

/-- The path of the file that is mapped. -/
def path? (r : MapRecord) : Option Text :=
  match r.backing with
  | .file path _ => some path.text
  | .memory _ _ => none

/-- The record is of a file whose code is mapped at an address. -/
def codeAt? (address : Nat) (r : MapRecord) : Option Text :=
  if r.permissions = Mapping.codePermissions ∧ r.start ≤ address ∧ address < r.stop then r.path? else none

/-- A record as it is printed. -/
def region (r : MapRecord) : Region where
  start := r.start
  stop := r.stop
  permissions := r.permissions
  offset := r.offset
  major := r.major
  minor := r.minor
  inode := r.inode
  name := r.backing.shown
  start_lt := r.start_lt
  stop_lt := r.stop_lt
  length_permissions := r.length_permissions
  isUnbroken_permissions := r.isUnbroken_permissions

/-- The line of a record. -/
def line (r : MapRecord) : Text :=
  r.region.line

/-- The text of all records. -/
def text (records : List MapRecord) : Text :=
  records.flatMap fun r => r.line ++ ['\n']

/-- The mapping a record is of, if it is one of a file. -/
def mapping? (r : MapRecord) : Option Mapping :=
  r.path?.map (Mapping.mk r.start r.stop r.permissions)

/-! ### Its line -/

theorem isLevel_region (r : MapRecord) : r.region.IsLevel :=
  r.region.isLevel_iff.mpr r.sameWidth

end MapRecord

namespace Backing

variable (path : MappedPath) (removed : Bool)

theorem shown_file : ∃ tail, (Backing.file path removed).shown = '/' :: tail := by
  obtain ⟨more, hm⟩ := List.head?_eq_some_iff.mp path.absolute
  rw [shown, hm]
  exact ⟨_, rfl⟩

theorem newline_not_mem_shown : '\n' ∉ (Backing.file path removed).shown := by
  intro h
  rcases List.mem_append.mp h with h | h
  · exact path.oneLine h
  · cases removed
    · cases h
    · exact absurd h (by decide)

/-- Nothing is trimmed off the path of a record. -/
theorem isLineEnd_getLast?_shown : ∀ c ∈ (Backing.file path removed).shown.getLast?, isLineEnd c = false := by
  intro c hc
  have hn : c ≠ '\n' := by
    rintro rfl
    exact newline_not_mem_shown path removed (List.mem_of_getLast? hc)
  have hr : c ≠ '\r' := by
    rintro rfl
    cases removed with
    | true =>
      rw [shown, if_pos rfl, List.getLast?_append_of_ne_nil _ (by decide)] at hc
      exact absurd hc (by decide)
    | false =>
      rw [shown, if_neg (by simp), List.append_nil] at hc
      exact path.noReturn hc
  simp [isLineEnd, hn, hr]

theorem withoutMark_shown : withoutMark (Backing.file path removed).shown = path.text := by
  cases removed with
  | true => exact withoutMark_append path.text
  | false =>
    rw [shown, if_neg (by simp), List.append_nil]
    exact withoutMark_of_not_isSuffix path.unmarked

end Backing

/-- The line of a mapped file tells its mapping, as long as the bounds have the same width. -/
theorem Region.readLine?_of_file {r : Region} {path : MappedPath} {removed : Bool} (h : r.IsLevel)
    (hn : r.name = (Backing.file path removed).shown) :
    readLine? r.line = some ⟨r.start, r.stop, r.permissions, path.text⟩ := by
  obtain ⟨tail, htail⟩ := Backing.shown_file path removed
  have hlast := Backing.isLineEnd_getLast?_shown path removed
  have hpath := Backing.withoutMark_shown path removed
  have htrim : trimEndWhere isLineEnd ('/' :: tail) = '/' :: tail := trimEndWhere_eq_self _ _ (htail ▸ hlast)
  have hslash : trimEndWhere isLineEnd ('/' :: tail) = '/' :: trimEndWhere isLineEnd tail :=
    trimEndWhere_append_cons isLineEnd [] '/' tail (by decide)
  have hread := readLine?_of_slash h (hn.trans htail) List.not_mem_nil
  rwa [← hslash, htrim, ← htail, hpath] at hread

namespace MapRecord

/-- The record of a file is one line, which tells its mapping. -/
theorem lines_line_file {r : MapRecord} {path : MappedPath} {removed : Bool} (hb : r.backing = .file path removed)
    (rest : Text) : lines (r.line ++ '\n' :: rest) = r.line :: lines rest ∧ readLine? r.line = r.mapping? := by
  have hname : r.region.name = (Backing.file path removed).shown := congrArg Backing.shown hb
  have hnewline : '\n' ∉ r.line := by
    rw [line, Region.newline_mem_line, hname]
    exact Backing.newline_not_mem_shown path removed
  have hreturn : dropReturn r.line = r.line := by
    obtain ⟨blanks, -, hline⟩ := r.region.exists_line_eq
    obtain ⟨tail, htail⟩ := Backing.shown_file path removed
    have hne : (Backing.file path removed).shown ≠ [] := htail ▸ List.cons_ne_nil '/' tail
    refine dropReturn_eq_self ?_
    rw [line, hline, hname, List.getLast?_append_of_ne_nil _ hne]
    exact Backing.isLineEnd_getLast?_shown path removed
  constructor
  · rw [lines_append_newline _ _ hnewline, hreturn]
  · rw [line, Region.readLine?_of_file r.isLevel_region hname, mapping?, path?, hb]
    rfl

/-- The record of memory holds no slash, and no line of it describes a mapping. -/
theorem readLine?_of_memory {r : MapRecord} {name : Text} {noSlash : '/' ∉ name} (hb : r.backing = .memory name noSlash) :
    ∀ piece ∈ (splitOn '\n' r.line).map dropReturn, readLine? piece = none := by
  have hslash : '/' ∉ r.line := by
    rw [line, Region.slash_mem_line, region, hb]
    exact noSlash
  -- its name may hold line ends, but no piece of the line holds more slashes than the line
  intro piece hp
  obtain ⟨whole, hw, rfl⟩ := List.mem_map.mp hp
  exact readLine?_eq_none fun h =>
    hslash (mem_of_mem_splitOn '\n' '/' _ whole hw ((dropReturn_sublist whole).subset h))

/-- The lines of a record: the first one tells its mapping, and there are no more than that unless the name of some
memory is written on several. -/
theorem lines_line (r : MapRecord) (rest : Text) :
    ∃ first more, lines (r.line ++ '\n' :: rest) = first :: (more ++ lines rest) ∧ readLine? first = r.mapping?
      ∧ ∀ other ∈ more, readLine? other = none := by
  cases hb : r.backing with
  | file path removed =>
    obtain ⟨hlines, hread⟩ := lines_line_file hb rest
    exact ⟨r.line, [], hlines, hread, by simp⟩
  | memory name noSlash =>
    have hnone := readLine?_of_memory hb
    obtain ⟨first, more, hpieces⟩ : ∃ first more, (splitOn '\n' r.line).map dropReturn = first :: more :=
      List.exists_cons_of_ne_nil (by simp [splitOn_ne_nil])
    rw [hpieces] at hnone
    refine ⟨first, more, ?_, ?_, fun other ho => hnone other (List.mem_cons_of_mem _ ho)⟩
    · rw [lines_append, hpieces, List.cons_append]
    · rw [hnone first List.mem_cons_self, mapping?, path?, hb]
      rfl

/-! ### Their text -/

theorem text_cons (r : MapRecord) (records : List MapRecord) : text (r :: records) = r.line ++ '\n' :: text records := by
  rw [text, List.flatMap_cons, List.append_assoc]
  rfl

theorem mappings_text (records : List MapRecord) : mappings (text records) = records.filterMap mapping? := by
  induction records with
  | nil => rfl
  | cons r more ih =>
    obtain ⟨first, others, hlines, hfirst, hothers⟩ := r.lines_line (text more)
    have hnone : others.filterMap readLine? = [] := List.filterMap_eq_nil_iff.mpr hothers
    rw [mappings] at ih ⊢
    rw [text_cons, hlines, List.filterMap_cons, List.filterMap_cons, hfirst, List.filterMap_append, hnone,
      List.nil_append, ih]

theorem path_of_mapping? {r : MapRecord} {m : Mapping} (h : r.mapping? = some m) :
    r.path? = some m.path ∧ m.permissions = r.permissions := by
  rw [mapping?, Option.map_eq_some_iff] at h
  obtain ⟨path, hp, rfl⟩ := h
  exact ⟨hp, rfl⟩

/-- The file that holds the code at an address is that of the first record that says so. -/
theorem moduleAt?_text (records : List MapRecord) (address : Nat) :
    moduleAt? (text records) address = records.findSome? (codeAt? address) := by
  have hone : ∀ r : MapRecord, r.codeAt? address
      = r.mapping?.bind (Option.map Mapping.path ∘ Option.guard fun m => m.isCode && m.holds address) := by
    intro r
    rw [codeAt?, mapping?]
    cases r.path? with
    | none => simp
    | some path =>
      simp only [Option.map_some, Option.bind_some, Function.comp, Option.guard, Mapping.isCode, Mapping.holds]
      by_cases h : r.permissions = Mapping.codePermissions ∧ r.start ≤ address ∧ address < r.stop
      · simp [h]
      · rw [if_neg h, if_neg (by simpa using h)]
        rfl
  rw [moduleAt?, mappings_text, List.find?_eq_findSome?_guard, List.map_findSome?, ← List.head?_filterMap,
    List.filterMap_filterMap, ← List.head?_filterMap, funext hone]

/-- A path is that of the first record, and some record maps code of its file. -/
def IsProgram (records : List MapRecord) (path : Text) : Prop :=
  (∃ first, records.head? = some first ∧ first.path? = some path)
    ∧ ∃ r ∈ records, r.permissions = Mapping.codePermissions ∧ r.path? = some path

theorem any_mappings_text (records : List MapRecord) (path : Text) :
    ((mappings (text records)).any fun other => other.isCode && other.path == path) = true ↔
      ∃ r ∈ records, r.permissions = Mapping.codePermissions ∧ r.path? = some path := by
  rw [mappings_text, List.any_eq_true]
  constructor
  · rintro ⟨m, hm, hcode⟩
    obtain ⟨r, hr, hrm⟩ := List.mem_filterMap.mp hm
    obtain ⟨hpath, hperm⟩ := path_of_mapping? hrm
    rw [Mapping.isCode, Bool.and_eq_true, beq_iff_eq, beq_iff_eq] at hcode
    exact ⟨r, hr, hperm ▸ hcode.1, by rw [hpath, hcode.2]⟩
  · rintro ⟨r, hr, hperm, hpath⟩
    refine ⟨⟨r.start, r.stop, r.permissions, path⟩, List.mem_filterMap.mpr ⟨r, hr, ?_⟩, ?_⟩
    · rw [mapping?, hpath]
      rfl
    · simp [Mapping.isCode, hperm]

theorem executable?_text (records : List MapRecord) (path : Text) :
    executable? (text records) = some path ↔ IsProgram records path := by
  cases records with
  | nil =>
    constructor
    · intro h
      cases h
    · rintro ⟨⟨first, hfirst, -⟩, -⟩
      cases hfirst
  | cons r more =>
    obtain ⟨first, others, hlines, hfirst, -⟩ := r.lines_line (text more)
    rw [← text_cons] at hlines
    rw [executable?, hlines]
    simp only [hfirst, IsProgram, List.head?_cons, Option.some.injEq, exists_eq_left']
    cases hm : r.mapping? with
    | none =>
      have hpath : r.path? = none := by simpa [mapping?] using hm
      simp [hpath]
    | some m =>
      obtain ⟨hpath, -⟩ := path_of_mapping? hm
      rw [hpath, Option.some.injEq]
      simp only
      constructor
      · intro h
        split at h
        · next hany =>
          cases h
          exact ⟨rfl, (any_mappings_text _ m.path).mp hany⟩
        · cases h
      · rintro ⟨rfl, hany⟩
        rw [if_pos ((any_mappings_text _ m.path).mpr hany)]

/-- What is found in the text is what the records say: the file that holds the code at an address is that of the first
record of a file whose code is mapped there, and the program is the file of the first record, as long as some record
maps code of it; otherwise the map is invalid. -/
theorem mapText_lookups (records : List MapRecord) :
    (∀ address, moduleAt? (text records) address = records.findSome? (codeAt? address))
      ∧ (∀ path, executable? (text records) = some path ↔ IsProgram records path)
      ∧ ∀ p : ProcessInfo, p.maps = .text (text records) →
        (∀ place, p.programByMaps = .ok place ↔ ∃ path, IsProgram records path ∧ place = NativePath.ofText path)
          ∧ ((¬∃ path, IsProgram records path) → p.programByMaps = .error .invalidMaps) := by
  refine ⟨moduleAt?_text records, executable?_text records, fun p hp => ?_⟩
  have hread : p.readMaps = .ok (text records) := by rw [ProcessInfo.readMaps, hp]
  cases hx : executable? (text records) with
  | none =>
    have hprogram : p.programByMaps = .error .invalidMaps := by
      rw [ProcessInfo.programByMaps, hread]
      simp only [hx]
    refine ⟨fun place => ⟨fun h => ?_, ?_⟩, fun _ => hprogram⟩
    · rw [hprogram] at h
      cases h
    · rintro ⟨path, hpath, -⟩
      rw [← executable?_text, hx] at hpath
      cases hpath
  | some found =>
    have hprogram : p.programByMaps = .ok (NativePath.ofText found) := by
      rw [ProcessInfo.programByMaps, hread]
      simp only [hx]
    have hfound := (executable?_text records found).mp hx
    refine ⟨fun place => ?_, fun hnone => absurd ⟨found, hfound⟩ hnone⟩
    rw [hprogram, Except.ok.injEq]
    constructor
    · rintro rfl
      exact ⟨found, hfound, rfl⟩
    · rintro ⟨path, hpath, rfl⟩
      rw [← executable?_text, hx, Option.some.injEq] at hpath
      rw [hpath]

/-- A removed program whose path holds blanks, as it is mapped, and a heap. -/
def removedTool : List MapRecord :=
  let path : MappedPath := ⟨"/opt/a tool".toList, by decide, by decide, by decide, by decide⟩
  [⟨0x560bc65fb000, 0x560bc65fd000, "r--p".toList, 0, 0xfe, 0, 194999, .file path true, by decide, by decide,
      by decide, by decide, by decide⟩,
    ⟨0x560bce8a0000, 0x560bce8c1000, "rw-p".toList, 0, 0, 0, 0, .memory "[heap]".toList (by decide), by decide,
      by decide, by decide, by decide, by decide⟩,
    ⟨0x560bc65fd000, 0x560bc6603000, "r-xp".toList, 0x2000, 0xfe, 0, 194999, .file path true, by decide, by decide,
      by decide, by decide, by decide⟩]

theorem mapText_lookups_removedTool :
    let p : ProcessInfo := ⟨.error .noEntry, .text (text removedTool), 0, 0⟩
    p.maps = .text (text removedTool)
      ∧ p.programByMaps = .ok (.ofText "/opt/a tool".toList)
      ∧ moduleAt? (text removedTool) 0x560bc6602fff = some "/opt/a tool".toList
      ∧ moduleAt? (text removedTool) 0x560bc6603000 = none := by
  obtain ⟨hmodule, -, hprogram⟩ := mapText_lookups removedTool
  have hfirst : IsProgram removedTool "/opt/a tool".toList :=
    ⟨⟨_, rfl, by decide⟩, removedTool[2], List.getElem_mem _, by decide, by decide⟩
  refine ⟨rfl, ((hprogram _ rfl).1 _).mpr ⟨_, hfirst, rfl⟩, ?_, ?_⟩
  · rw [hmodule]
    decide
  · rw [hmodule]
    decide

end MapRecord

end Relocation
