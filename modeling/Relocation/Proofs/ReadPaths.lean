import Relocation.Proofs.PathRereading
import Relocation.Relocate

/-!
# The paths of origins and of the places derived from them

Whatever text a path is read from, its segments are as reading leaves them (`IsReadPath`), and replacing the path of a
URL keeps that true of it (`HasReadPath`). For such a URL the two derivations are told from the segments alone: the base
is reread, and the suffix is read behind it.

* `isReadPath_readSegments`, `HasReadPath.withPath`: where such paths come from;
* `subpath?_of_segments`, `startup?_of_segments`: the two derivations.
-/

namespace Relocation

namespace Url

/-- The segments of a path once all of it has been read. -/
structure IsReadPath (kind : SchemeKind) (list : List Text) : Prop extends WellRead kind list where
  /-- No empty segment stands in front of the others in a `file` path. -/
  head : kind = .file → ∀ rest, list = [] :: rest → rest = []

/-- The path of the URL, if it is made of segments, is a read one. -/
def HasReadPath (u : Url) : Prop :=
  ∀ guarded list, u.path = .segments guarded list → IsReadPath u.kind list

/-! ### Where read paths come from -/

theorem isReadPath_settle {kind : SchemeKind} {list : List Text} (h : WellRead kind list) :
    IsReadPath kind (settle kind list) := by
  refine ⟨h.settle, fun hk rest he => ?_⟩
  rw [settle, if_pos hk] at he
  exact eq_nil_of_dropLeadingEmpty list rest he

theorem isReadPath_readTrail (kind : SchemeKind) (t : Text) : IsReadPath kind (readTrail kind t).closed := by
  rw [closed_readTrail]
  exact isReadPath_settle ((wellRead_nil kind).finishOn fun raw => isSeparator_of_mem_rawSegments kind t raw)

theorem isReadPath_readSegments (kind : SchemeKind) (t : Text) : IsReadPath kind (readSegments kind t) := by
  rw [readSegments]
  split
  · exact ⟨wellRead_nil kind, fun _ rest he => by cases he⟩
  · exact isReadPath_readTrail kind _

theorem hasReadPath_of_segments {u : Url} {guarded : Bool} {list : List Text} (hp : u.path = .segments guarded list)
    (h : IsReadPath u.kind list) : HasReadPath u := by
  intro g l hl
  rw [hp, Path.segments.injEq] at hl
  exact hl.2 ▸ h

/-- Replacing the path gives a read path, whatever the new text is. -/
theorem HasReadPath.withPath {u : Url} (h : HasReadPath u) (t : Text) : HasReadPath (u.withPath t) := by
  rw [Url.withPath]
  split
  · exact h
  · exact hasReadPath_of_segments rfl (isReadPath_readSegments _ _)

theorem WellRead.slash_not_mem {kind : SchemeKind} {list : List Text} (h : WellRead kind list) :
    ∀ s ∈ list, '/' ∉ s := by
  intro s hs
  exact slash_not_mem_of_whole (h.tidy s hs).whole

end Url

/-! ### The two derivations, told from segments -/

open Url

theorem hasReadPath_rebuild? {u v : Url} {t : Text} (h : HasReadPath u) (hv : rebuild? u t = some v) :
    HasReadPath v := by
  rw [rebuild?] at hv
  split at hv
  · cases hv
  · cases hv
    exact h.withPath t

theorem hasReadPath_subpath? {o : Origin} {s : Text} {v : Url} (h : HasReadPath o.url)
    (hv : subpath? o s = some v) : HasReadPath v := by
  rw [subpath?] at hv
  split at hv
  · exact hasReadPath_rebuild? h hv
  · cases hv

theorem hasReadPath_startup? {o : Origin} {v : Url} (h : HasReadPath o.url) (hv : startup? o = some v) :
    HasReadPath v := by
  rw [startup?] at hv
  split at hv
  · exact hasReadPath_rebuild? h hv
  · cases hv

/-- The URL with other segments. -/
def withSegments (u : Url) (guarded : Bool) (list : List Text) : Url :=
  { u with path := .segments guarded list }

theorem withSegments_eq_self {u : Url} {g : Bool} {list : List Text} (hp : u.path = .segments g list) :
    withSegments u g list = u := by
  rw [withSegments, ← hp]

/-- Segments that were read, followed by a text: the segments are reread, and the text is read behind them. -/
theorem rebuild?_below {u : Url} {guarded : Bool} {list front : List Text} (t : Text)
    (hp : u.path = .segments guarded list) (hf : WellRead u.kind front) :
    rebuild? u (segmentsText front ++ '/' :: t)
      = some (withSegments u guarded (settle u.kind (finishOn u.kind (reread u.kind front) (rawSegments u.kind t)))) := by
  have hv : u.isVerbatim = false := by
    rw [isVerbatim, hp]
  rw [rebuild?, hv, if_neg (by simp), withPath, hp, ← closeAll_eq_reread hf,
    ← readSegments_below u.kind front t fun s hs => (hf.tidy s hs).whole]
  rfl

theorem pathText_of_segments {u : Url} {guarded : Bool} {list : List Text} (hp : u.path = .segments guarded list) :
    u.pathText = segmentsText list := by
  rw [Url.pathText, hp]

/-- A place below the base: the base is reread, and the suffix is read behind it. -/
theorem subpath?_of_segments {o : Origin} {guarded : Bool} {list : List Text} (s : Text)
    (hp : o.url.path = .segments guarded list) (hr : WellRead o.url.kind list) :
    subpath? o s = if list.length < 2 then none else
      some (withSegments o.url guarded (settle o.url.kind
        (finishOn o.url.kind (reread o.url.kind list.dropLast.dropLast) (rawSegments o.url.kind s)))) := by
  rw [subpath?, Origin.pathText, pathText_of_segments hp, installBase?_segmentsText list hr.slash_not_mem]
  by_cases hl : list.length < 2
  · rw [if_pos hl, if_pos hl]
  · rw [if_neg hl, if_neg hl]
    show rebuild? o.url (joinSuffix (segmentsText list.dropLast.dropLast ++ ['/']) s) = _
    rw [joinSuffix, List.append_assoc, List.singleton_append, rebuild?_below s hp hr.dropLast.dropLast]

/-- Nothing behind closed segments is read as an empty one. -/
theorem finishOn_rawSegments_nil (kind : SchemeKind) (closed : List Text) :
    finishOn kind closed (rawSegments kind []) = closed ++ [[]] := by
  refine finishOn_plain _ _ _ ?_ ?_ ?_
  · intro raw hm c hc
    rw [List.mem_singleton.mp hm] at hc
    cases hc
  · intro raw hm
    rw [List.mem_singleton.mp hm]
    rfl
  · intro _ _ raw hm
    cases hm
    rfl

/-- The directory of an origin: its segments but the last are reread, and an empty one is put behind them. -/
theorem startup?_of_segments {o : Origin} {guarded : Bool} {list : List Text}
    (hp : o.url.path = .segments guarded list) (hr : WellRead o.url.kind list) :
    startup? o = if list.length < 1 then none else
      some (withSegments o.url guarded (settle o.url.kind (reread o.url.kind list.dropLast ++ [[]]))) := by
  rw [startup?, Origin.pathText, pathText_of_segments hp, startupDir?_segmentsText list hr.slash_not_mem]
  by_cases hl : list.length < 1
  · rw [if_pos hl, if_pos hl]
  · rw [if_neg hl, if_neg hl]
    show rebuild? o.url (segmentsText list.dropLast ++ '/' :: []) = _
    rw [rebuild?_below [] hp hr.dropLast, finishOn_rawSegments_nil]

/-- A URL whose path can be replaced has a path of segments. -/
theorem segments_of_rebuild? {u v : Url} {t : Text} (hr : HasReadPath u) (h : rebuild? u t = some v) :
    ∃ guarded list, u.path = .segments guarded list ∧ IsReadPath u.kind list := by
  cases hp : u.path with
  | verbatim text =>
    have hv : u.isVerbatim = true := by rw [isVerbatim, hp]
    rw [rebuild?, if_pos hv] at h
    cases h
  | segments guarded list => exact ⟨guarded, list, rfl, hr guarded list hp⟩

/-- An origin with a place below its base has a path of at least two segments. -/
theorem segments_of_subpath? {o : Origin} {s : Text} {v : Url} (hr : HasReadPath o.url) (h : subpath? o s = some v) :
    ∃ guarded list, o.url.path = .segments guarded list ∧ IsReadPath o.url.kind list ∧ 2 ≤ list.length := by
  have hplace := h
  rw [subpath?] at hplace
  split at hplace
  · obtain ⟨guarded, list, hp, hl⟩ := segments_of_rebuild? hr hplace
    refine ⟨guarded, list, hp, hl, ?_⟩
    rw [subpath?_of_segments s hp hl.toWellRead] at h
    split at h
    · cases h
    · omega
  · cases hplace

/-- An origin that is in a directory has a path of segments, with one at least. -/
theorem segments_of_startup? {o : Origin} {v : Url} (hr : HasReadPath o.url) (h : startup? o = some v) :
    ∃ guarded list, o.url.path = .segments guarded list ∧ IsReadPath o.url.kind list ∧ 1 ≤ list.length := by
  have hplace := h
  rw [startup?] at hplace
  split at hplace
  · obtain ⟨guarded, list, hp, hl⟩ := segments_of_rebuild? hr hplace
    refine ⟨guarded, list, hp, hl, ?_⟩
    rw [startup?_of_segments hp hl.toWellRead] at h
    split at h
    · cases h
    · omega
  · cases hplace

end Relocation
