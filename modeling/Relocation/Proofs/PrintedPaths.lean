import Relocation.Proofs.NativePlaces
import Relocation.Proofs.PrintedPlaces

/-!
# Native paths read back from the text of their URLs

The URL of a native path is printed name by name, and its text is read by rules that know nothing of names: both ends
are trimmed, some characters vanish, others end the path, and dots and drive letters move. Every byte that would set
one of these rules off has been escaped, and an escape sets none of them off. Two things are left that need no escape,
the name `..` and a drive letter in front. So whatever the names are, another `file` URL with nothing but a path is
read (`parse_text_nativeUrl`), and without a drive letter in front it is the same one exactly if no name is `..`:

* `stays_segmentsOfNames`: without `..` the segments stay as they are;
* `name_ne_dots_of_wellRead`: with `..` they are nothing that reading could leave;
* `parse_text_ofNativePath`: both, for the origin of any absolute path.
-/

namespace Relocation

open Url Percent

/-! ### The text of segments in their final spelling -/

theorem isScheme_file : IsScheme "file".toList := by
  have hread : readScheme? "file:".toList = some ("file".toList, []) := rfl
  exact isScheme_readScheme? hread

/-- What is printed for segments is read as a `file` URL of segments, with neither host nor query nor fragment. -/
theorem parse_text_nativeUrl {list : List Text} {tail : Text} (hb : IsBelowSlash .file list tail) :
    Url.parse (nativeUrl list).text = .ok (nativeUrl (readTrail .file tail).closed) := by
  have htext : (nativeUrl list).text
      = "file".toList ++ ':' :: (("//".toList ++ []) ++ '/' :: (tail ++ [])) := by
    rw [text_of_authority (u := nativeUrl list) (a := Authority.empty) rfl rfl, hb.text]
    rfl
  have hvisible : Lacks isTrimmed (tail ++ []) := by
    rw [List.append_nil]
    exact hb.visible
  have hlocal : Url.parse ("file".toList ++ ':' :: (("//".toList ++ []) ++ '/' :: (tail ++ [])))
      = .ok (readAfterHost "file".toList none tail []) :=
    parse_ofFile isScheme_file hb.noEnd hvisible (fun c hc => by cases hc) rfl .nil rfl
  rw [htext, hlocal]
  simp only [readAfterHost, ite_self]
  rfl

/-! ### Names that stay -/

/-- The first segment spells the first name, if there is one. -/
theorem segmentsOfNames_cons (name : Bytes) (rest : List Bytes) (directory : Bool) :
    ∃ more, segmentsOfNames (name :: rest) directory = encode nameSet name :: more := by
  rw [segmentsOfNames_eq]
  split
  · exact ⟨_, rfl⟩
  · exact ⟨_, rfl⟩

section Names

variable {p : NativePath} (hdrive : ∀ name ∈ p.names.head?, startsLikeDrive name = false)
include hdrive

/-- The first segment of a path is no drive letter if its first name does not begin like one. -/
theorem isDriveLetter_segmentsOfNames (directory : Bool) :
    ∀ s ∈ (segmentsOfNames p.names directory).head?, isDriveLetter s = false := by
  intro s hs
  cases hn : p.names with
  | nil =>
    rw [hn] at hs
    cases hs
    rfl
  | cons name rest =>
    obtain ⟨more, hm⟩ := segmentsOfNames_cons name rest directory
    rw [hn, hm] at hs
    cases hs
    exact isDriveLetter_encode_nameSet name (hdrive name (by rw [hn]; rfl))

/-- Without `..` the segments of names are read back as they are. -/
theorem stays_segmentsOfNames (hup : ∀ name ∈ p.names, name ≠ [dotByte, dotByte]) (directory : Bool) :
    Stays .file (segmentsOfNames p.names directory) := by
  have hdots := forall_mem_segmentsOfNames (isDots_of_mem_spelledNames hup p.names fun _ h => h) rfl directory
  have htail : ∀ s ∈ (segmentsOfNames p.names directory).tail, isDots s = false := fun s hs =>
    hdots s (List.mem_of_mem_tail hs)
  refine ⟨isReadPath_segmentsOfNames hup directory, fun _ => ⟨fun first hf => ?_, htail⟩, segmentsOfNames_ne_nil _ _⟩
  rw [withColon, isDriveLetter_segmentsOfNames hdrive directory first hf]
  rfl

/-- A name `..` spells a segment that no reading leaves but behind a drive letter. -/
theorem name_ne_dots_of_wellRead {directory : Bool} (h : WellRead .file (segmentsOfNames p.names directory)) :
    ∀ name ∈ p.names, name ≠ [dotByte, dotByte] := by
  rintro name hname rfl
  have hmem : encode nameSet [dotByte, dotByte] ∈ segmentsOfNames p.names directory := by
    have hspelled : encode nameSet [dotByte, dotByte] ∈ spelledNames p.names := List.mem_map_of_mem hname
    rw [segmentsOfNames_eq]
    split
    · exact List.mem_append_left _ hspelled
    · exact hspelled
  obtain ⟨before, after, he⟩ := List.append_of_mem hmem
  obtain ⟨-, letter, hl, rfl⟩ := h.dots before _ after he (by decide)
  have hletter := isDriveLetter_segmentsOfNames hdrive directory [letter, ':'] (by rw [he]; rfl)
  rw [isDriveLetter, isDrivePair, hl] at hletter
  cases hletter

end Names

/-! ### Origins of native paths -/

/-- The text of the origin of an absolute path is read as an origin with the scheme of local files and nothing but a
path. Unless the first name of the path begins like a drive, it is the same origin, that is, one of the same text,
exactly if no name is `..`. -/
theorem parse_text_ofNativePath (fs : FileSystem) (p : NativePath) (habs : p.isAbsolute = true)
    (hdrive : ∀ name ∈ p.names.head?, startsLikeDrive name = false) :
    ∃ o, Origin.ofNativePath fs p = .ok o
      ∧ (Origin.parse o.text = .ok o ↔ ∀ name ∈ p.names, name ≠ [dotByte, dotByte])
      ∧ ∃ again, Origin.parse o.text = .ok again ∧ (again.text = o.text ↔ again = o)
        ∧ again.url.scheme = "file".toList ∧ again.url.host? = none ∧ again.url.query = none
        ∧ again.url.fragment = none := by
  have htidy := forall_mem_segmentsOfNames (isTidy_of_mem_spelledNames p.names) (isTidy_nil .file)
    (Origin.namesDirectory fs p)
  obtain ⟨tail, hb⟩ := exists_isBelowSlash htidy (segmentsOfNames_ne_nil _ _)
  have hparse : Origin.parse (Origin.text ⟨nativeUrl (segmentsOfNames p.names (Origin.namesDirectory fs p))⟩)
      = .ok ⟨nativeUrl (readTrail .file tail).closed⟩ := by
    rw [Origin.parse, Origin.text, parse_text_nativeUrl hb]
  refine ⟨_, ofNativePath_eq fs p habs, ⟨fun hsame => ?_, fun hup => ?_⟩, _, hparse, ?_, rfl, rfl, rfl, rfl⟩
  · -- what was read is as reading leaves it, and the segments are what was read
    rw [hparse, Except.ok.injEq] at hsame
    have hclosed : (readTrail .file tail).closed = segmentsOfNames p.names (Origin.namesDirectory fs p) :=
      (Path.segments.inj (congrArg (fun o : Origin => o.url.path) hsame)).2
    have hread := isReadPath_readTrail .file tail
    rw [hclosed] at hread
    exact name_ne_dots_of_wellRead hdrive hread.toWellRead
  · rw [hparse, (stays_segmentsOfNames hdrive hup _).closed_readTrail hb]
  · rw [Origin.mk.injEq]
    exact text_nativeUrl_inj (isReadPath_readTrail .file tail).toWellRead.slash_not_mem
      (slash_not_mem_segmentsOfNames _ _)

/-- Names that look like escapes, ends, blanks and drive letters, one of them no text. -/
def oddNames : NativePath :=
  ⟨Utf8.encode "/%2e%2e/a?#\t/".toList ++ 0xFF :: Utf8.encode " C:".toList⟩

theorem parse_text_ofNativePath_oddNames :
    (∃ o, Origin.ofNativePath FileSystem.empty oddNames = .ok o ∧ Origin.parse o.text = .ok o)
      ∧ ∃ o, Origin.ofNativePath FileSystem.empty ⟨Utf8.encode "/a/../b".toList⟩ = .ok o
        ∧ Origin.parse o.text ≠ .ok o := by
  obtain ⟨o, ho, hsame, -⟩ := parse_text_ofNativePath FileSystem.empty oddNames (by decide) (by decide)
  obtain ⟨r, hr, hother, -⟩ :=
    parse_text_ofNativePath FileSystem.empty ⟨Utf8.encode "/a/../b".toList⟩ (by decide) (by decide)
  exact ⟨⟨o, ho, hsame.mpr (by decide)⟩, r, hr, fun he => absurd (hother.mp he) (by decide)⟩

end Relocation
