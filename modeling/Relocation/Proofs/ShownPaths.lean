import Relocation.Proofs.WhenPlacesExist

/-!
# Which rows show a native path

Two questions decide whether a URL is shown with a native path: whether it has one at all, by its segments and its host
(`HasNativePath`), and whether it names a file and nothing else (`NamesFileOnly`). The row of the startup directory asks
both, like the rows of all directories; the row of the origin asks the first only. So the startup directory never has a
native path where the origin has none, but the origin may have one alone.

* `isSome_toNativePath?_iff`, `isSome_startupFile?_iff`: what each row asks;
* `isSome_path_originRow`: when the two rows agree.
-/

namespace Relocation

namespace Url

/-- The URL has segments, and its host is this machine or none. -/
structure HasNativePath (u : Url) : Prop where
  segments : u.isVerbatim = false
  slash : 1 ≤ u.pathText.count '/'
  host : u.host? = none ∨ u.host? = some (.domain "localhost".toList)

/-- The URL names a file, on whatever host, and nothing else. -/
structure NamesFileOnly (u : Url) : Prop where
  scheme : u.scheme = "file".toList
  query : u.query = none
  fragment : u.fragment = none

/-- A URL is local if it names a file on this machine and nothing else. -/
theorem isLocal_iff {u : Url} (h : u.HasNativePath) : IsLocal u ↔ u.NamesFileOnly := by
  constructor
  · intro hl
    exact ⟨hl.scheme, hl.query, hl.fragment⟩
  · intro hf
    exact ⟨hf.scheme, h.host, hf.query, hf.fragment⟩

/-- Scheme, query and fragment have no say in whether a URL can be read as a native path. -/
theorem isSome_toNativePath?_iff (u : Url) : u.toNativePath?.isSome = true ↔ u.HasNativePath := by
  cases hp : u.path with
  | verbatim t =>
    refine iff_of_false (by simp [toNativePath?, hp]) fun h => ?_
    have hv := h.segments
    rw [isVerbatim, hp] at hv
    cases hv
  | segments guarded list =>
    have hv : u.isVerbatim = false := by rw [isVerbatim, hp]
    have htext : u.pathText = segmentsText list := by rw [pathText, hp]
    cases list with
    | nil =>
      refine iff_of_false (by simp [toNativePath?, hp]) fun h => ?_
      have hslash := h.slash
      rw [htext] at hslash
      exact absurd hslash (by simp [segmentsText])
    | cons first rest =>
      have hslash : 1 ≤ u.pathText.count '/' := by
        rw [htext, segmentsText_cons, List.cons_append, List.count_cons_self]
        exact Nat.le_add_left 1 _
      rw [isSome_toNativePath? hp (List.cons_ne_nil first rest), isOnThisMachine_iff]
      exact ⟨fun hh => ⟨hv, hslash, hh⟩, fun h => h.host⟩

end Url

open Url

/-- The startup directory has a native path exactly if the origin has one and names a file and nothing else. -/
theorem isSome_startupFile?_iff (o : Origin) :
    (startupFile? o).isSome = true ↔ o.url.HasNativePath ∧ o.url.NamesFileOnly := by
  rw [isSome_startupFile?, isSome_startup?]
  constructor
  · rintro ⟨⟨hv, hslash⟩, hl⟩
    exact ⟨⟨hv, hslash, hl.host⟩, (isLocal_iff ⟨hv, hslash, hl.host⟩).mp hl⟩
  · rintro ⟨hpath, hfile⟩
    exact ⟨⟨hpath.segments, hpath.slash⟩, (isLocal_iff hpath).mpr hfile⟩

/-- The rows of the origin and of the startup directory both show a native path, or neither does, unless the origin has
one although it names more than a file; then only the row of the origin shows one. -/
theorem isSome_path_originRow (l : Locator) :
    (∀ o, l.origin? = some o →
        ((Answer.originRow l).path.isSome = true ↔ o.url.HasNativePath)
        ∧ ((Answer.startupRow l).path.isSome = true ↔ o.url.HasNativePath ∧ o.url.NamesFileOnly))
      ∧ ((Answer.startupRow l).path.isSome = true → (Answer.originRow l).path.isSome = true)
      ∧ (((Answer.originRow l).path.isSome = true ↔ (Answer.startupRow l).path.isSome = true)
        ↔ ∀ o, l.origin? = some o → o.url.HasNativePath → o.url.NamesFileOnly) := by
  have hrows (o : Origin) (ho : l.origin? = some o) :
      ((Answer.originRow l).path.isSome = true ↔ o.url.HasNativePath)
        ∧ ((Answer.startupRow l).path.isSome = true ↔ o.url.HasNativePath ∧ o.url.NamesFileOnly) := by
    rw [originRow_eq l ho, startupRow_eq l ho]
    exact ⟨isSome_toNativePath?_iff o.url, isSome_startupFile?_iff o⟩
  refine ⟨hrows, (shownWith_originRow l).path, ?_⟩
  cases ho : l.origin? with
  | none =>
    have horigin : (Answer.originRow l).path = none := by
      show (l.origin?.bind fun o => o.url.toNativePath?) = none
      rw [ho, Option.bind_none]
    have hstartup : (Answer.startupRow l).path = none := by
      show l.startupFile? = none
      rw [Locator.startupFile?, ho, Option.bind_none]
    rw [horigin, hstartup]
    exact iff_of_true Iff.rfl fun o h => by cases h
  | some o =>
    obtain ⟨horigin, hstartup⟩ := hrows o ho
    rw [horigin, hstartup]
    constructor
    · rintro h p hp hpath
      cases hp
      exact (h.mp hpath).2
    · intro h
      exact ⟨fun hpath => ⟨hpath, h o rfl hpath⟩, And.left⟩

/-- A machine on which nothing is found, and an origin that is told to it. -/
def Locator.told (u : Url) : Locator :=
  ⟨⟨.empty, ⟨.error .noEntry, .unopened .noEntry, 0, 0⟩⟩, .fixed ⟨u⟩⟩

/-- The `file` URL of a tool, with something more perhaps. -/
def toolUrl (scheme : Text) (host : Option Host) (query fragment : Option Text) : Url :=
  ⟨scheme, some ⟨[], none, host, none⟩, .segments false ["usr".toList, "bin".toList, "tool".toList], query, fragment⟩

theorem isSome_path_originRow_localTool :
    ∃ u, Origin.parse "file:///usr/bin/tool".toList = .ok ⟨u⟩
      ∧ (Answer.startupRow (.told u)).path.isSome = true ∧ (Answer.originRow (.told u)).path.isSome = true := by
  have hread : Origin.parse "file:///usr/bin/tool".toList = .ok ⟨toolUrl "file".toList none none none⟩ := by rfl
  obtain ⟨hrows, hshown, -⟩ := isSome_path_originRow (.told (toolUrl "file".toList none none none))
  have hstartup := (hrows _ rfl).2.mpr ⟨⟨rfl, by decide, .inl rfl⟩, rfl, rfl, rfl⟩
  exact ⟨_, hread, hstartup, hshown hstartup⟩

/-- The origin a text names is shown with this native path, and its startup directory with none. -/
def IsShownAlone (t : Text) (p : NativePath) : Prop :=
  ∃ u, Origin.parse t = .ok ⟨u⟩
    ∧ (Answer.originRow (.told u)).path = some p ∧ (Answer.startupRow (.told u)).path = none

/-- A query, a fragment or another scheme takes the native path from the row of the startup directory and leaves it in
the row of the origin. -/
theorem path_originRow_alone :
    IsShownAlone "file:///usr/bin/tool?x=1".toList (.ofText "/usr/bin/tool".toList)
      ∧ IsShownAlone "file:///usr/bin/tool#x".toList (.ofText "/usr/bin/tool".toList)
      ∧ IsShownAlone "https://localhost/usr/bin/tool".toList (.ofText "/usr/bin/tool".toList) := by
  have hquery : Origin.parse "file:///usr/bin/tool?x=1".toList
      = .ok ⟨toolUrl "file".toList none (some "x=1".toList) none⟩ := by rfl
  have hfragment : Origin.parse "file:///usr/bin/tool#x".toList
      = .ok ⟨toolUrl "file".toList none none (some "x".toList)⟩ := by rfl
  have hscheme : Origin.parse "https://localhost/usr/bin/tool".toList
      = .ok ⟨toolUrl "https".toList (some (.domain "localhost".toList)) none none⟩ := by rfl
  refine ⟨⟨_, hquery, ?_, ?_⟩, ⟨_, hfragment, ?_, ?_⟩, _, hscheme, ?_, ?_⟩
  all_goals decide

end Relocation
