import Relocation.Proofs.NativePlaces
import Relocation.Proofs.SameTree
import Relocation.Proofs.WhenPlacesExist

/-!
# Native places below the base

Dots are resolved in the text of a URL, segment by segment, and each segment is decoded afterwards. So a place whose URL
lies below that of the base has the names of the base in front of its own, but its own names are those of decoded
segments, and a segment may be decoded to more than one name. That is one way in which a native path can leave the base
where the URL does not: an escaped slash with `..` beside it. The other one needs no escape. Behind a drive letter dots
can be held, and a drive letter is looked for right below the root.

* `names_bytesOfSegments`: the names of decoded segments;
* `isDots_eq_false_below`: there are no held dots below a base other than the root;
* `subpathFile?_below`: which names a place below the base has, and when `..` is one of them.
-/

namespace Relocation

open Url Percent

/-! ### Names of decoded segments -/

/-- The names that the segments of a text have once they are decoded. -/
def decodedNames (t : Text) : List Bytes :=
  (splitOn '/' t).flatMap fun segment => NativePath.names ⟨decodeText segment⟩

theorem names_append_bytesOfSegments (front : Bytes) (list : List Text) :
    NativePath.names ⟨front ++ bytesOfSegments list⟩
      = NativePath.names ⟨front⟩ ++ list.flatMap fun segment => NativePath.names ⟨decodeText segment⟩ := by
  induction list generalizing front with
  | nil =>
    show NativePath.names ⟨front ++ []⟩ = NativePath.names ⟨front⟩ ++ []
    rw [List.append_nil, List.append_nil]
  | cons segment rest ih =>
    have hbytes : front ++ bytesOfSegments (segment :: rest)
        = front ++ slashByte :: (decodeText segment ++ bytesOfSegments rest) := rfl
    rw [hbytes, names_append_slash, ih, List.flatMap_cons]

/-- Between the slashes in front of them, segments have names of their own. -/
theorem names_bytesOfSegments (list : List Text) : NativePath.names ⟨bytesOfSegments list⟩
    = list.flatMap fun segment => NativePath.names ⟨decodeText segment⟩ :=
  names_append_bytesOfSegments [] list

/-- The slash that closes a drive letter adds no name. -/
theorem names_closeDriveLetter (bs : Bytes) : NativePath.names ⟨closeDriveLetter bs⟩ = NativePath.names ⟨bs⟩ := by
  rw [closeDriveLetter]
  split
  · exact names_snoc_slash bs
  · rfl

/-- A single segment without an escaped slash that has the name `..` goes one up. -/
theorem isDoubleDot_of_mem_names {segment : Text} (hslash : slashByte ∉ decodeText segment)
    (h : [dotByte, dotByte] ∈ NativePath.names ⟨decodeText segment⟩) : isDoubleDot segment = true := by
  have hone := (List.mem_filter.mp h).1
  rw [splitOn_of_not_mem slashByte _ hslash, List.mem_singleton] at hone
  exact (isDoubleDot_iff segment).mpr hone.symm

/-! ### Segments below segments -/

/-- The pieces of a text that goes on behind complete segments are the segments that follow them. -/
theorem eq_append_splitOn {front list : List Text} {tail : Text} (hf : ∀ s ∈ front, '/' ∉ s)
    (hl : ∀ s ∈ list, '/' ∉ s) (h : segmentsText list = segmentsText front ++ '/' :: tail) :
    list = front ++ splitOn '/' tail := by
  have hcut := congrArg (splitOn '/') h
  rw [splitOn_append, splitOn_segmentsText hl, splitOn_segmentsText hf, List.cons_append, List.cons.injEq] at hcut
  exact hcut.2

/-- A drive letter and segments behind it, none of which is a dot segment. -/
def IsOnDrive (list : List Text) : Prop :=
  ∃ letter rest, letter.isAlpha = true ∧ list = [letter, ':'] :: rest ∧ ∀ s ∈ rest, isDots s = false

/-- Where a drive letter is in front, nothing that is read takes it back, and no other is looked for. -/
theorem isKept_isOnDrive : IsKept .file IsOnDrive where
  back := by
    rintro _ ⟨letter, rest, hl, rfl, hd⟩
    rw [takeBack]
    split
    · next last hlast =>
      split
      · exact ⟨letter, rest, hl, rfl, hd⟩
      · next hdrive =>
        cases rest with
        | nil =>
          -- what would be taken back is the drive letter
          obtain rfl : [letter, ':'] = last := Option.some.inj hlast
          rw [startsWithDriveLetter, isDrivePair, hl] at hdrive
          exact absurd rfl hdrive
        | cons second more =>
          rw [List.dropLast_cons_cons]
          exact ⟨letter, _, hl, rfl, fun s hs => hd s (List.dropLast_subset _ hs)⟩
    · exact ⟨letter, rest, hl, rfl, hd⟩
  snoc := by
    rintro _ s - hs ⟨letter, rest, hl, rfl, hd⟩
    refine ⟨letter, rest ++ [s], hl, rfl, fun r hr => ?_⟩
    rcases List.mem_append.mp hr with hr | hr
    · exact hd r hr
    · rw [List.mem_singleton.mp hr]
      exact hs
  drive := by
    rintro - ⟨letter, rest, -, he, -⟩
    cases he

/-- Below segments that are kept, no dots are held. -/
theorem isDots_eq_false_below {front raws more : List Text} (hne : front ≠ [])
    (hraws : ∀ raw ∈ raws, ∀ c ∈ raw, isSeparator .file c = false)
    (hkept : settle .file (finishOn .file front raws) = front ++ more) (hread : WellRead .file (front ++ more)) :
    ∀ s ∈ more, isDots s = false := by
  intro s hs
  rw [Bool.eq_false_iff]
  intro hd
  obtain ⟨before, after, rfl⟩ := List.append_of_mem hs
  obtain ⟨-, letter, hl, hb⟩ := hread.dots (front ++ before) s after (List.append_assoc _ _ _).symm hd
  -- the dots stand right behind a drive letter, which has to be all that is kept
  have hfront : front = [[letter, ':']] := by
    rcases List.append_eq_singleton_iff.mp hb with ⟨hnil, -⟩ | ⟨hfront, -⟩
    · exact absurd hnil hne
    · exact hfront
  subst hfront
  have hstart : IsOnDrive [[letter, ':']] := ⟨letter, [], hl, rfl, by simp⟩
  obtain ⟨other, rest, -, hfinish, hrest⟩ := isKept_isOnDrive.finishOn hraws hstart
  have hsettled : settle .file ([other, ':'] :: rest) = [other, ':'] :: rest := settle_eq_self fun _ _ he => by cases he
  rw [hfinish, hsettled, List.singleton_append, List.cons.injEq] at hkept
  rw [hrest s (hkept.2 ▸ hs)] at hd
  cases hd

/-! ### Places below the base -/

/-- Dots held behind a drive letter at the beginning of a text. -/
def HoldsDotsFirst (t : Text) : Prop :=
  ∃ letter held more, letter.isAlpha = true ∧ splitOn '/' t = [letter, ':'] :: held :: more ∧ isDoubleDot held = true

/-- A segment that has the name `..` only because a slash in it is escaped. -/
def HidesParent (segment : Text) : Prop :=
  slashByte ∈ decodeText segment ∧ [dotByte, dotByte] ∈ NativePath.names ⟨decodeText segment⟩

/-- What leads up from decoded segments: an escaped slash, or dots held behind a drive letter in front of all. -/
theorem dots_mem_decodedNames {front : List Text} {raws : List Text} {tail : Text}
    (hraws : ∀ raw ∈ raws, ∀ c ∈ raw, isSeparator .file c = false)
    (hkept : settle .file (finishOn .file front raws) = front ++ splitOn '/' tail)
    (hread : WellRead .file (front ++ splitOn '/' tail)) :
    [dotByte, dotByte] ∈ decodedNames tail
      ↔ (∃ segment ∈ splitOn '/' tail, HidesParent segment) ∨ (front = [] ∧ HoldsDotsFirst tail) := by
  rw [decodedNames, List.mem_flatMap]
  constructor
  · rintro ⟨segment, hs, hmem⟩
    by_cases hslash : slashByte ∈ decodeText segment
    · exact .inl ⟨segment, hs, hslash, hmem⟩
    · have hdouble := isDoubleDot_of_mem_names hslash hmem
      have hd : isDots segment = true := by rw [isDots, hdouble, Bool.or_true]
      by_cases hne : front = []
      · subst hne
        obtain ⟨before, after, he⟩ := List.append_of_mem hs
        rw [List.nil_append, he] at hread
        obtain ⟨-, letter, hl, rfl⟩ := hread.dots before segment after rfl hd
        exact .inr ⟨rfl, letter, segment, after, hl, he, hdouble⟩
      · rw [isDots_eq_false_below hne hraws hkept hread segment hs] at hd
        cases hd
  · rintro (⟨segment, hs, -, hmem⟩ | ⟨-, letter, held, more, -, he, hdouble⟩)
    · exact ⟨segment, hs, hmem⟩
    · refine ⟨held, by rw [he]; simp, ?_⟩
      rw [(isDoubleDot_iff held).mp hdouble]
      decide

/-- The base of a native URL and a place below it: the same segments, and what follows them. -/
theorem exists_kept {list : List Text} (hr : IsReadPath .file list) {base url : Url} {s : Text}
    (hbase : subpath? ⟨nativeUrl list⟩ [] = some base) (hurl : subpath? ⟨nativeUrl list⟩ s = some url) :
    ∃ front kept, base = nativeUrl (front ++ [[]]) ∧ url = nativeUrl kept
      ∧ settle .file (finishOn .file front (rawSegments .file s)) = kept ∧ kept ≠ [] ∧ WellRead .file front
      ∧ WellRead .file kept := by
  have hpath : HasReadPath (nativeUrl list) := hasReadPath_of_segments rfl hr
  have hl : 2 ≤ list.length := by
    obtain ⟨guarded, segments, hp, -, hl⟩ := segments_of_subpath? hpath hbase
    rw [(Path.segments.inj hp).2]
    exact hl
  have hthere := subpath?_base (o := ⟨nativeUrl list⟩) rfl hr hl
  have hbelow := subpath?_of_segments (o := ⟨nativeUrl list⟩) s rfl hr.toWellRead
  rw [if_neg (by omega)] at hbelow
  have hreadThere := hasReadPath_subpath? hpath hthere false _ rfl
  have hreadBelow := hasReadPath_subpath? hpath hbelow false _ rfl
  exact ⟨_, _, Option.some.inj (hbase.symm.trans hthere), Option.some.inj (hurl.symm.trans hbelow), rfl,
    settle_ne_nil (finishOn_ne_nil _ _ _ (splitOn_ne_nil '/' _)), hreadThere.toWellRead.of_append,
    hreadBelow.toWellRead⟩

/-- For an origin made from an absolute path without `..`: a place whose URL begins with that of the base has a native
path that begins with the names of the base, and the others are those of the decoded segments. A name `..` is among
them exactly if a segment hides it behind an escaped slash, or the base is the root and dots are held behind a drive
letter. -/
theorem subpathFile?_below (fs : FileSystem) (p : NativePath) (habs : p.isAbsolute = true)
    (hup : ∀ name ∈ p.names, name ≠ [dotByte, dotByte]) (s : Text) :
    ∃ o, Origin.ofNativePath fs p = .ok o ∧ ∀ base url tail, subpath? o [] = some base → subpath? o s = some url →
      url.pathText = base.pathText ++ tail → ∃ there below, subpathFile? o [] = some there
        ∧ subpathFile? o s = some below ∧ below.names = there.names ++ decodedNames tail
        ∧ ([dotByte, dotByte] ∈ decodedNames tail
          ↔ (∃ segment ∈ splitOn '/' tail, HidesParent segment) ∨ (base.pathText = ['/'] ∧ HoldsDotsFirst tail)) := by
  refine ⟨_, ofNativePath_eq fs p habs, fun base url tail hbase hurl htail => ?_⟩
  obtain ⟨front, kept, rfl, rfl, hkept, hne, hfront, hread⟩ :=
    exists_kept (isReadPath_segmentsOfNames hup (Origin.namesDirectory fs p)) hbase hurl
  have htext : (nativeUrl (front ++ [[]])).pathText = segmentsText front ++ ['/'] := segmentsText_snoc front []
  have hbelow : kept = front ++ splitOn '/' tail := by
    refine eq_append_splitOn hfront.slash_not_mem hread.slash_not_mem ?_
    rw [htext, List.append_assoc] at htail
    exact htail
  have hroot : (nativeUrl (front ++ [[]])).pathText = ['/'] ↔ front = [] := by
    rw [htext]
    cases front with
    | nil => simp [segmentsText]
    | cons first rest => simp [segmentsText]
  refine ⟨⟨closeDriveLetter (bytesOfSegments (front ++ [[]]))⟩, ⟨closeDriveLetter (bytesOfSegments kept)⟩,
    ?_, ?_, ?_, ?_⟩
  · rw [subpathFile?, hbase, Option.bind_some, localPath?_nativeUrl _ (by simp)]
  · rw [subpathFile?, hurl, Option.bind_some, localPath?_nativeUrl _ hne]
  · rw [names_closeDriveLetter, names_closeDriveLetter, names_bytesOfSegments, names_bytesOfSegments, hbelow,
      List.flatMap_append, List.flatMap_append]
    show _ = _ ++ [] ++ decodedNames tail
    rw [List.append_nil]
    rfl
  · rw [hroot]
    rw [hbelow] at hkept hread
    exact dots_mem_decodedNames (fun raw => isSeparator_of_mem_rawSegments .file s raw) hkept hread

theorem ofNativePath_tool : Origin.ofNativePath FileSystem.empty ⟨Utf8.encode "/usr/bin/tool".toList⟩
    = .ok ⟨nativeUrl ["usr".toList, "bin".toList, "tool".toList]⟩ := by
  have hnothing : Origin.namesDirectory FileSystem.empty ⟨Utf8.encode "/usr/bin/tool".toList⟩ = false := by cbv
  rw [ofNativePath_eq _ _ (by decide), hnothing]
  decide

/-- A suffix that leads up and down again, with an escaped slash in its last segment. -/
theorem subpathFile?_below_escapedSlash :
    ∃ o there below, Origin.ofNativePath FileSystem.empty ⟨Utf8.encode "/usr/bin/tool".toList⟩ = .ok o
      ∧ subpathFile? o [] = some there ∧ subpathFile? o "../%2e%2e/usr/b%2fc".toList = some below
      ∧ below.names = there.names ++ [Utf8.encode ['b'], Utf8.encode ['c']] := by
  obtain ⟨o, ho, hall⟩ := subpathFile?_below FileSystem.empty ⟨Utf8.encode "/usr/bin/tool".toList⟩ (by decide)
    (by decide) "../%2e%2e/usr/b%2fc".toList
  obtain rfl := Except.ok.inj (ho.symm.trans ofNativePath_tool)
  obtain ⟨there, below, hthere, hbelow, hnames, -⟩ := hall (nativeUrl ["usr".toList, []])
    (nativeUrl ["usr".toList, "b%2fc".toList]) "b%2fc".toList (by decide) (by decide) (by decide)
  exact ⟨_, there, below, ho, hthere, hbelow, hnames⟩

/-- Escaped slashes in a suffix lead from the base to a place outside of it. -/
theorem subpathFile?_leavesBase :
    ∃ o base url there below rest, Origin.ofNativePath FileSystem.empty ⟨Utf8.encode "/usr/bin/tool".toList⟩ = .ok o
      ∧ subpath? o [] = some base ∧ subpath? o "x%2f..%2f..%2fetc/passwd".toList = some url
      ∧ base.pathText <+: url.pathText
      ∧ subpathFile? o [] = some there ∧ subpathFile? o "x%2f..%2f..%2fetc/passwd".toList = some below
      ∧ below.names = there.names ++ rest ∧ [dotByte, dotByte] ∈ rest :=
  ⟨_, nativeUrl ["usr".toList, []], nativeUrl ["usr".toList, "x%2f..%2f..%2fetc".toList, "passwd".toList],
    ⟨Utf8.encode "/usr/".toList⟩, ⟨Utf8.encode "/usr/x/../../etc/passwd".toList⟩,
    ["x".toList, "..".toList, "..".toList, "etc".toList, "passwd".toList].map Utf8.encode, ofNativePath_tool, by decide,
    by decide, by decide, by decide, by decide, by decide, by decide⟩

end Relocation
