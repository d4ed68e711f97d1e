import Relocation.Proofs.NativePlaces

/-!
# Native paths read back from their URLs

The URL of an absolute path spells the names of the path and says nothing else of it, so that reading it back gives
the names with one slash in front of each. Three things put a slash behind them: one at the end of the path, a
directory that is there, and a last name that would read as a drive letter.

* `toNativePath?_segmentsOfNames`: the bytes that are read back, for any names;
* `isOfDirectory_segmentsOfNames`: when the path of the URL ends in a slash;
* `segmentsOfNames_inj`: names and ending are all that the segments keep, and they keep both;
* `toNativePath?_ofNativePath`: all of it for two paths, each in a file system of its own.
-/

namespace Relocation

open Url Percent

/-- Whether the origin is a directory's: its path ends in a slash. -/
def Origin.isOfDirectory (o : Origin) : Bool :=
  o.pathText.getLast? == some '/'

/-- A slash and the names with slashes between them. If there are names, one more slash follows those of a directory,
and those that would end more than two bytes in a drive letter. -/
def spelledBack (names : List Bytes) (directory : Bool) : NativePath :=
  let joined := slashByte :: joinWith slashByte names
  if names ≠ [] ∧ (directory = true ∨ 2 < joined.length ∧ startsLikeDrive (joined.drop (joined.length - 2)) = true)
  then ⟨joined ++ [slashByte]⟩
  else ⟨joined⟩

/-! ### Reading the names back -/

theorem toNativePath?_nativeUrl (list : List Text) (h : list ≠ []) :
    (nativeUrl list).toNativePath? = some ⟨closeDriveLetter (bytesOfSegments list)⟩ :=
  localPath?_nativeUrl list h

theorem toNativePath?_segmentsOfNames (names : List Bytes) (directory : Bool) :
    (nativeUrl (segmentsOfNames names directory)).toNativePath? = some (spelledBack names directory) := by
  rw [toNativePath?_nativeUrl _ (segmentsOfNames_ne_nil names directory), segmentsOfNames_eq, spelledBack]
  by_cases hn : names = []
  · rw [hn, if_pos (Or.inl rfl), if_neg fun h => h.1 rfl]
    rfl
  · have hjoin := behindSlashes_eq_joinWith hn
    by_cases hd : directory = true
    · -- the empty segment of a directory is the slash behind its names
      rw [if_pos (Or.inr hd), if_pos ⟨hn, Or.inl hd⟩, bytesOfSegments_append, bytesOfSegments_names, hjoin]
      exact congrArg (fun bs => some (NativePath.mk bs)) (closeDriveLetter_snoc_slash _)
    · rw [if_neg fun h => h.elim hn hd, bytesOfSegments_names, closeDriveLetter_eq, withDriveClosed, ← hjoin]
      by_cases hc : 2 < (behindSlashes names).length
          ∧ startsLikeDrive ((behindSlashes names).drop ((behindSlashes names).length - 2)) = true
      · rw [if_pos hc, if_pos ⟨hn, Or.inr hc⟩]
      · rw [if_neg hc, if_neg fun h => h.2.elim hd hc]

/-! ### Names and ending are kept -/

theorem getLast?_segmentsText_spelledNames {p : NativePath} (names : List Bytes) (hn : ∀ name ∈ names, name ∈ p.names) :
    (segmentsText (spelledNames names)).getLast? ≠ some '/' := by
  rcases List.eq_nil_or_concat names with rfl | ⟨front, last, rfl⟩
  · simp [spelledNames, segmentsText]
  · have hmem : encode nameSet last ∈ spelledNames (front.concat last) := by simp [spelledNames]
    have hne := ne_nil_of_mem_spelledNames _ hn _ hmem
    have hslash := slash_not_mem_of_whole (isTidy_of_mem_spelledNames _ _ hmem).whole
    have hsplit : spelledNames (front.concat last) = spelledNames front ++ [encode nameSet last] := by
      simp [spelledNames]
    rw [hsplit, segmentsText_snoc, List.getLast?_append, List.getLast?_cons_of_ne_nil hne]
    intro he
    rw [List.getLast?_eq_some_getLast hne, Option.some_or, Option.some.injEq] at he
    exact hslash (he ▸ List.getLast_mem hne)

/-- The path of a URL made from names ends in a slash if a directory was asked for, or there are no names. -/
theorem isOfDirectory_segmentsOfNames (p : NativePath) (directory : Bool) :
    Origin.isOfDirectory ⟨nativeUrl (segmentsOfNames p.names directory)⟩ = true ↔ p.names = [] ∨ directory = true := by
  have htext : Origin.pathText ⟨nativeUrl (segmentsOfNames p.names directory)⟩
      = segmentsText (segmentsOfNames p.names directory) := rfl
  rw [Origin.isOfDirectory, htext, beq_iff_eq, segmentsOfNames_eq]
  by_cases h : p.names = [] ∨ directory = true
  · rw [if_pos h, segmentsText_snoc]
    simp [h]
  · rw [if_neg h]
    exact iff_of_false (getLast?_segmentsText_spelledNames p.names fun _ hm => hm) h

/-- The segments of names are theirs, an empty one aside. -/
theorem names_of_segmentsOfNames (p : NativePath) (directory : Bool) :
    ((segmentsOfNames p.names directory).filter (· ≠ [])).map decodeText = p.names := by
  have hkeep : (spelledNames p.names).filter (· ≠ []) = spelledNames p.names :=
    List.filter_eq_self.mpr fun s hs => by
      simpa using ne_nil_of_mem_spelledNames p.names (fun _ hm => hm) s hs
  have hback : (spelledNames p.names).map decodeText = p.names := by
    rw [spelledNames, List.map_map]
    exact (List.map_congr_left fun name _ => decodeText_encode_nameSet name).trans (List.map_id _)
  rw [segmentsOfNames_eq]
  split
  · rw [List.filter_append, hkeep, List.map_append, hback]
    simp
  · rw [hkeep, hback]

/-- Two paths have the same segments exactly if they have the same names and the same ending. -/
theorem segmentsOfNames_inj (p q : NativePath) (d e : Bool) :
    segmentsOfNames p.names d = segmentsOfNames q.names e ↔
      p.names = q.names ∧ (p.names = [] ∨ d = true ↔ q.names = [] ∨ e = true) := by
  constructor
  · intro h
    have hnames : p.names = q.names := by
      rw [← names_of_segmentsOfNames p d, h, names_of_segmentsOfNames q e]
    refine ⟨hnames, ?_⟩
    rw [← isOfDirectory_segmentsOfNames, h, isOfDirectory_segmentsOfNames]
  · rintro ⟨hnames, hends⟩
    rw [segmentsOfNames_eq, segmentsOfNames_eq, ← hnames]
    rw [← hnames] at hends
    by_cases h : p.names = [] ∨ d = true
    · rw [if_pos h, if_pos (hends.mp h)]
    · rw [if_neg h, if_neg fun he => h (hends.mpr he)]

/-! ### Origins of native paths -/

/-- Every absolute path has an origin, a `file` URL that holds nothing but the path. Reading the URL back gives the
names of the path, each behind a slash, and a closing slash for a directory or a drive letter. Two absolute paths have
the same origin, that is, origins of the same text, exactly if they have the same names and both or none of the origins
are directories'. -/
theorem toNativePath?_ofNativePath (fs gs : FileSystem) (p q : NativePath) (hp : p.isAbsolute = true)
    (hq : q.isAbsolute = true) :
    ∃ o r, Origin.ofNativePath fs p = .ok o ∧ Origin.ofNativePath gs q = .ok r
      ∧ o.url.scheme = "file".toList ∧ o.url.host? = none ∧ o.url.query = none ∧ o.url.fragment = none
      ∧ o.url.toNativePath? = some (spelledBack p.names (p.endsWithSlash || fs.isDirectory p))
      ∧ (o.isOfDirectory = true ↔ p.names = [] ∨ p.endsWithSlash = true ∨ fs.isDirectory p = true)
      ∧ (o = r ↔ p.names = q.names ∧ o.isOfDirectory = r.isOfDirectory)
      ∧ (o.text = r.text ↔ o = r) := by
  refine ⟨_, _, ofNativePath_eq fs p hp, ofNativePath_eq gs q hq, rfl, rfl, rfl, rfl,
    toNativePath?_segmentsOfNames _ _, ?_, ?_, ?_⟩
  · rw [isOfDirectory_segmentsOfNames, Origin.namesDirectory, Bool.or_eq_true]
  · have hurl : ∀ list more : List Text, (⟨nativeUrl list⟩ : Origin) = ⟨nativeUrl more⟩ ↔ list = more := by
      intro list more
      simp [nativeUrl]
    have hends : ∀ d e : Bool, Origin.isOfDirectory ⟨nativeUrl (segmentsOfNames p.names d)⟩
        = Origin.isOfDirectory ⟨nativeUrl (segmentsOfNames q.names e)⟩
        ↔ (p.names = [] ∨ d = true ↔ q.names = [] ∨ e = true) := by
      intro d e
      rw [Bool.eq_iff_iff, isOfDirectory_segmentsOfNames, isOfDirectory_segmentsOfNames]
    rw [hurl, segmentsOfNames_inj, hends]
  · rw [Origin.mk.injEq]
    exact text_nativeUrl_inj (slash_not_mem_segmentsOfNames _ _) (slash_not_mem_segmentsOfNames _ _)

/-- A path through a directory above, to a name that reads as a drive letter. -/
def oddPlace : NativePath :=
  ⟨Utf8.encode "//a/./%2F".toList ++ 0xFF :: Utf8.encode "/../C:".toList⟩

theorem toNativePath?_ofNativePath_oddPlace :
    ∃ o r, Origin.ofNativePath FileSystem.empty oddPlace = .ok o
      ∧ Origin.ofNativePath FileSystem.empty ⟨oddPlace.bytes ++ [slashByte]⟩ = .ok r
      ∧ o.url.toNativePath? = some ⟨Utf8.encode "/a/%2F".toList ++ 0xFF :: Utf8.encode "/../C:/".toList⟩
      ∧ r.url.toNativePath? = o.url.toNativePath? ∧ o ≠ r := by
  have hdir : FileSystem.empty.isDirectory oddPlace = false := by cbv
  obtain ⟨o, r, ho, hr, -, -, -, -, hback, hends, hsame, -⟩ :=
    toNativePath?_ofNativePath FileSystem.empty FileSystem.empty oddPlace ⟨oddPlace.bytes ++ [slashByte]⟩ (by decide)
      (by decide)
  obtain ⟨r', -, hr', -, -, -, -, -, hback', hends', -⟩ :=
    toNativePath?_ofNativePath FileSystem.empty FileSystem.empty ⟨oddPlace.bytes ++ [slashByte]⟩ oddPlace (by decide)
      (by decide)
  cases hr.symm.trans hr'
  have hslash : NativePath.endsWithSlash ⟨oddPlace.bytes ++ [slashByte]⟩ = true := by decide
  refine ⟨o, r, ho, hr, ?_, ?_, ?_⟩
  · rw [hback, hdir]
    decide
  · rw [hback, hback', hdir, hslash, Bool.true_or]
    decide
  · intro he
    have hdirs := (hsame.mp he).2.trans (hends'.mpr (Or.inr (Or.inl hslash)))
    rw [hends, hdir] at hdirs
    exact absurd hdirs (by decide)

end Relocation
