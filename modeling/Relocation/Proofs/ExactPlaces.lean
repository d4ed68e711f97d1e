import Relocation.Layout
import Relocation.Proofs.SameTree

/-!
# The paths of places, to the letter

The path of a directory is meant to be the base of the origin's path and the suffix behind it, with nothing changed in
either. The path is read anew when it is replaced, so this takes a base that reading leaves as it is. Every origin that
was read has one (`isStable_of_not_startsAtDrive`), unless its path begins with a drive letter: then the letter can get
a colon, and dots held behind it can be dropped.

* `subpath?_suffix`: the segments of the directories of any origin that was read;
* `pathText_dirUrl?`: their paths as text.
-/

namespace Relocation

namespace Url

/-! ### Paths that begin with a drive letter -/

/-- Whether the first segment of a path begins with a drive letter, in either spelling. -/
def startsAtDrive : Text → Bool
  | '/' :: letter :: sign :: _ => isDrivePair letter sign
  | _ => false

theorem startsAtDrive_drive (letter sign : Char) (rest : List Text) :
    startsAtDrive (segmentsText ([letter, sign] :: rest)) = isDrivePair letter sign := rfl

/-- Reading a path again changes nothing in it unless it begins with a drive letter. -/
theorem isStable_of_not_startsAtDrive {kind : SchemeKind} {list : List Text} (h : WellRead kind list)
    (hd : kind = .file → startsAtDrive (segmentsText list) = false) : IsStable kind list := by
  cases list with
  | nil => exact isStable_nil kind
  | cons first rest =>
    intro hk
    have hno : ∀ letter sign : Char, isDrivePair letter sign = true → first ≠ [letter, sign] := by
      intro letter sign hpair he
      have hstart := hd hk
      rw [he, startsAtDrive_drive, hpair] at hstart
      cases hstart
    constructor
    · intro s hs
      cases hs
      have hletter : ¬isDriveLetter first = true := by
        intro hl
        obtain ⟨letter, sign, halpha, hsign, he⟩ := isDriveLetter_eq_true first hl
        refine hno letter sign ?_ he
        rcases hsign with rfl | rfl <;> simp [isDrivePair, halpha]
      rw [withColon, if_neg hletter]
    · intro s hs
      rw [Bool.eq_false_iff]
      intro hdots
      -- only a drive letter holds dots behind it
      obtain ⟨before, after, rfl⟩ := List.append_of_mem hs
      obtain ⟨-, letter, hl, he⟩ := h.dots (first :: before) s after rfl hdots
      rw [List.cons.injEq] at he
      refine hno letter ':' ?_ he.1
      rw [isDrivePair, hl]
      rfl

theorem eq_file_of_ofScheme {scheme : Text} (h : SchemeKind.ofScheme scheme = .file) : scheme = "file".toList := by
  rw [SchemeKind.ofScheme] at h
  split at h
  · assumption
  · split at h <;> cases h

end Url

open Url

/-! ### The suffixes of directories -/

namespace InstallDir

theorem isPlainName_of_mem (d : InstallDir) : ∀ raw ∈ splitOn '/' d.suffix, IsPlainName raw := by
  have hall : ∀ raw ∈ splitOn '/' d.suffix, '/' ∉ raw ∧ '\\' ∉ raw ∧ '\t' ∉ raw ∧ '\r' ∉ raw ∧ '\n' ∉ raw
      ∧ isDots raw = false := by
    cases d <;> decide
  intro raw hm
  obtain ⟨hs, hb, ht, hr, hn, hd⟩ := hall raw hm
  exact ⟨hs, hb, ht, hr, hn, hd⟩

theorem map_tidySegment (d : InstallDir) : (splitOn '/' d.suffix).map tidySegment = splitOn '/' d.suffix := by
  cases d <;> decide

theorem isDriveLetter_head (d : InstallDir) : ∀ raw ∈ (splitOn '/' d.suffix).head?, isDriveLetter raw = false := by
  cases d <;> decide

theorem eq_nil_of_splitOn (d : InstallDir) {rest : List Text} (h : splitOn '/' d.suffix = [] :: rest) : rest = [] := by
  cases d <;> cases h
  rfl

/-- The suffix of a directory is read segment by segment, whatever it stands behind. -/
theorem finishOn_suffix (d : InstallDir) (kind : SchemeKind) (closed : List Text) :
    finishOn kind closed (rawSegments kind d.suffix) = closed ++ splitOn '/' d.suffix := by
  have hraw : rawSegments kind d.suffix = splitOn '/' d.suffix := by
    cases d <;> cases kind <;> decide
  rw [hraw, finishOn_plain kind closed _ (fun raw hm => (d.isPlainName_of_mem raw hm).isSkipped_of_mem)
    (fun raw hm => (d.isPlainName_of_mem raw hm).dots) (fun _ _ => d.isDriveLetter_head), d.map_tidySegment]

end InstallDir

/-! ### The segments of places -/

/-- The segments of a directory: the reread base, and those of the suffix. -/
def dirSegments (kind : SchemeKind) (list : List Text) (d : InstallDir) : List Text :=
  reread kind list.dropLast.dropLast ++ splitOn '/' d.suffix

theorem subpath?_suffix {o : Origin} {guarded : Bool} {list : List Text} (hp : o.url.path = .segments guarded list)
    (hr : IsReadPath o.url.kind list) (hl : 2 ≤ list.length) (d : InstallDir) :
    subpath? o d.suffix = some (withSegments o.url guarded (dirSegments o.url.kind list d)) := by
  have hfull : IsFull o.url.kind (reread o.url.kind list.dropLast.dropLast) := (hr.isFull hl).dropLast.dropLast.reread
  rw [subpath?_of_segments d.suffix hp hr.toWellRead, if_neg (by omega), d.finishOn_suffix,
    hfull.settle_append fun rest => d.eq_nil_of_splitOn]
  rfl

/-! ### Their paths as text -/

theorem segmentsText_dirSegments {kind : SchemeKind} {list : List Text} (h : IsStable kind list) (d : InstallDir) :
    segmentsText (dirSegments kind list d) = segmentsText list.dropLast.dropLast ++ '/' :: d.suffix := by
  rw [dirSegments, reread_eq_self h.dropLast.dropLast, segmentsText_append]
  exact congrArg _ (flatMap_splitOn '/' d.suffix)

theorem segmentsText_startupSegments {kind : SchemeKind} {list : List Text} (h : IsStable kind list) :
    segmentsText (startupSegments kind list) = segmentsText list.dropLast ++ ['/'] := by
  rw [startupSegments, reread_eq_self h.dropLast, segmentsText_append]
  rfl

/-- The path of a directory is the base of the origin's path and the suffix of the directory behind it, letter by
letter, and the path of the origin's own directory is the beginning of the origin's path. -/
theorem pathText_dirUrl? (m : Machine) (t : Text) (o : Origin) (h : Origin.parse t = .ok o)
    (hv : o.url.isVerbatim = false) (hd : o.url.scheme = "file".toList → startsAtDrive o.pathText = false) :
    (∀ d, ((⟨m, .fixed o⟩ : Locator).dirUrl? d).map Url.pathText
        = (installBase? o.pathText).map fun base => base ++ d.suffix)
      ∧ (⟨m, .fixed o⟩ : Locator).startupUrl?.map Url.pathText = startupDir? o.pathText := by
  have hread : HasReadPath o.url := hasReadPath_parse t o.url (parse_of_origin_parse h)
  cases hp : o.url.path with
  | verbatim text =>
    rw [isVerbatim, hp] at hv
    cases hv
  | segments guarded list =>
    have hr := hread guarded list hp
    have hpath : o.pathText = segmentsText list := pathText_of_segments hp
    have hstable : IsStable o.url.kind list := by
      refine isStable_of_not_startsAtDrive hr.toWellRead fun hk => ?_
      rw [← hpath]
      exact hd (eq_file_of_ofScheme hk)
    have hdirs : ∀ d, (⟨m, .fixed o⟩ : Locator).dirUrl? d = subpath? o d.suffix := fun d => rfl
    have hstart : (⟨m, .fixed o⟩ : Locator).startupUrl? = startup? o := rfl
    constructor
    · intro d
      rw [hdirs, hpath, installBase?_segmentsText list hr.slash_not_mem]
      by_cases hl : list.length < 2
      · rw [if_pos hl, subpath?_of_segments d.suffix hp hr.toWellRead, if_pos hl]
        rfl
      · rw [if_neg hl, subpath?_suffix hp hr (by omega), Option.map_some, Option.map_some, pathText_of_segments rfl,
          segmentsText_dirSegments hstable, List.append_assoc, List.singleton_append]
    · rw [hstart, hpath, startupDir?_segmentsText list hr.slash_not_mem]
      by_cases hl : list.length < 1
      · rw [if_pos hl, startup?_of_segments hp hr.toWellRead, if_pos hl]
        rfl
      · rw [if_neg hl, startup?_eq_some hp hr (by omega), Option.map_some, pathText_of_segments rfl,
          segmentsText_startupSegments hstable]

/-- Odd segments and a query of a plain scheme. -/
theorem pathText_dirUrl?_odd :
    ∃ o, Origin.parse "git://h/a%2Fb//x|y/tool?q".toList = .ok o
      ∧ ((⟨⟨.empty, ⟨.error .noEntry, .unopened .noEntry, 0, 0⟩⟩, .fixed o⟩ : Locator).dirUrl? .locale).map Url.pathText
        = some "/a%2Fb//share/locale".toList
      ∧ (⟨⟨.empty, ⟨.error .noEntry, .unopened .noEntry, 0, 0⟩⟩, .fixed o⟩ : Locator).startupUrl?.map Url.pathText
        = some "/a%2Fb//x|y/".toList := by
  have hread : Origin.parse "git://h/a%2Fb//x|y/tool?q".toList
      = .ok ⟨⟨"git".toList, some ⟨[], none, some (.domain "h".toList), none⟩,
        .segments false ["a%2Fb".toList, [], "x|y".toList, "tool".toList], some "q".toList, none⟩⟩ := by rfl
  obtain ⟨hdir, hstart⟩ := pathText_dirUrl? ⟨.empty, ⟨.error .noEntry, .unopened .noEntry, 0, 0⟩⟩ _ _ hread rfl (by decide)
  refine ⟨_, hread, ?_, ?_⟩
  · rw [hdir]
    decide
  · rw [hstart]
    decide

end Relocation
