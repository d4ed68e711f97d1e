import Relocation.Answer
import Relocation.Proofs.PathReading

/-!
# When a place exists

Whether an origin has a place is a matter of its path alone: a place below the base takes two slashes, the directory
of the origin one, and the suffix has no say in it. Reading a suffix behind a base never leaves a path without
segments (`readSegments_ne_nil`), so that the place can be told as a native path exactly if the origin names a local
file and nothing else (`IsLocal`).

* `isSome_startupDir?`, `isSome_installBase?`: how many slashes it takes;
* `isSome_localPath?_withPath`: a native path never fails on account of a suffix;
* `place_isSome_iff`: all places of an origin, and the rows in which they are shown.
-/

namespace Relocation

/-! ### How many slashes it takes -/

theorem isSome_startupDir? (path : Text) : (startupDir? path).isSome = true ↔ 1 ≤ path.count '/' := by
  rw [Nat.one_le_iff_ne_zero, Ne, List.count_eq_zero, startupDir?]
  cases hc : cutAtLast? '/' path with
  | none => simp [(cutAtLast?_eq_none '/' path).mp hc]
  | some cut =>
    obtain ⟨before, after⟩ := cut
    obtain ⟨hpath, -⟩ := cutAtLast?_eq_some '/' path before after hc
    simp [hpath]

theorem isSome_installBase? (path : Text) : (installBase? path).isSome = true ↔ 2 ≤ path.count '/' := by
  rw [installBase?]
  cases hc : cutAtLast? '/' path with
  | none =>
    have hzero := List.count_eq_zero.mpr ((cutAtLast?_eq_none '/' path).mp hc)
    simp [hzero]
  | some cut =>
    obtain ⟨before, after⟩ := cut
    -- behind the last slash there is none, so that all the others stand before it
    obtain ⟨hpath, hafter⟩ := cutAtLast?_eq_some '/' path before after hc
    have hcount : path.count '/' = before.count '/' + 1 := by
      rw [hpath, List.count_append, List.count_cons_self, List.count_eq_zero.mpr hafter]
    rw [hcount, Nat.succ_le_succ_iff]
    exact isSome_startupDir? before

namespace Url

/-! ### Reading leaves a segment -/

theorem moveOf_into_ne_nil {kind : SchemeKind} {closed segments : List Text} {raw : Text} {drive : Bool}
    (h : moveOf kind closed raw = .into segments drive) : segments ≠ [] := by
  simp only [moveOf] at h
  split at h
  · cases h
    exact List.cons_ne_nil _ _
  · split at h
    · cases h
    · split at h
      · cases h
      · split at h <;> cases h <;> exact List.cons_ne_nil _ _

/-- The last raw segment leaves a segment, whatever it does. -/
theorem finishOn_singleton_ne_nil (kind : SchemeKind) (closed : List Text) (raw : Text) :
    finishOn kind closed [raw] ≠ [] := by
  rw [finishOn, Trail.readAll, Trail.finish]
  cases hm : moveOf kind closed raw with
  | up => simp
  | stay => simp
  | into segments drive => simp [moveOf_into_ne_nil hm]

theorem finishOn_ne_nil (kind : SchemeKind) (closed raws : List Text) (h : raws ≠ []) :
    finishOn kind closed raws ≠ [] := by
  induction raws generalizing closed with
  | nil => exact absurd rfl h
  | cons raw rest ih =>
    cases rest with
    | nil => exact finishOn_singleton_ne_nil kind closed raw
    | cons next more =>
      rw [finishOn_cons]
      exact ih (closeOn kind closed raw) (List.cons_ne_nil _ _)

theorem settle_ne_nil {kind : SchemeKind} {list : List Text} (h : list ≠ []) : settle kind list ≠ [] := by
  rw [settle]
  split
  · induction list using dropLeadingEmpty.induct with
    | case1 next rest ih =>
      rw [dropLeadingEmpty]
      exact ih (List.cons_ne_nil _ _)
    | case2 list hl =>
      rw [dropLeadingEmpty]
      · exact h
      · exact hl
  · exact h

/-- A text with a slash in it is never read as a path without segments. -/
theorem readSegments_ne_nil (kind : SchemeKind) {t : Text} (h : '/' ∈ t) : readSegments kind t ≠ [] := by
  have hkept : '/' ∈ unskipped t := List.mem_filter.mpr ⟨h, rfl⟩
  have hne : unskipped t ≠ [] := List.ne_nil_of_mem hkept
  have hplain : ¬(!kind.isSpecial && unskipped t == []) = true := by simp [hne]
  rw [readSegments, if_neg hplain, closed_readTrail]
  exact settle_ne_nil (finishOn_ne_nil kind [] _ (splitOn_ne_nil '/' _))

/-! ### Local files -/

/-- The URL names a file of this machine and nothing else. -/
structure IsLocal (u : Url) : Prop where
  scheme : u.scheme = "file".toList
  host : u.host? = none ∨ u.host? = some (.domain "localhost".toList)
  query : u.query = none
  fragment : u.fragment = none

theorem isOnThisMachine_iff (u : Url) :
    u.isOnThisMachine = true ↔ u.host? = none ∨ u.host? = some (.domain "localhost".toList) := by
  rw [isOnThisMachine, decide_eq_true_eq]

/-- Replacing the path keeps a URL local, or not local. -/
theorem isLocal_withPath (u : Url) (t : Text) : IsLocal (u.withPath t) ↔ IsLocal u := by
  obtain ⟨hscheme, hauthority, hquery, hfragment⟩ := parts_withPath u t
  have hhost : (u.withPath t).host? = u.host? := by rw [host?, host?, hauthority]
  constructor
  · intro h
    exact ⟨hscheme ▸ h.scheme, hhost ▸ h.host, hquery ▸ h.query, hfragment ▸ h.fragment⟩
  · intro h
    exact ⟨hscheme ▸ h.scheme, hhost ▸ h.host, hquery ▸ h.query, hfragment ▸ h.fragment⟩

end Url

open Url

theorem isSome_toNativePath? {u : Url} {guarded : Bool} {list : List Text} (hp : u.path = .segments guarded list)
    (hne : list ≠ []) : u.toNativePath?.isSome = true ↔ u.isOnThisMachine = true := by
  obtain ⟨first, rest, rfl⟩ := List.exists_cons_of_ne_nil hne
  rw [toNativePath?, hp]
  by_cases h : u.isOnThisMachine = true
  · simp [h]
  · simp [h]

theorem isSome_localPath? {u : Url} {guarded : Bool} {list : List Text} (hp : u.path = .segments guarded list)
    (hne : list ≠ []) : (localPath? u).isSome = true ↔ IsLocal u := by
  rw [localPath?]
  by_cases h : u.scheme = "file".toList ∧ u.query = none ∧ u.fragment = none
  · rw [if_pos h, isSome_toNativePath? hp hne, isOnThisMachine_iff]
    exact ⟨fun hh => ⟨h.1, hh, h.2.1, h.2.2⟩, fun hl => hl.host⟩
  · rw [if_neg h]
    exact iff_of_false (by simp) fun hl => h ⟨hl.scheme, hl.query, hl.fragment⟩

/-- Any text with a slash in it, taken for the path of a URL, is a native path exactly if the URL was local before. -/
theorem isSome_localPath?_withPath {u : Url} (hv : u.isVerbatim = false) {t : Text} (ht : '/' ∈ t) :
    (localPath? (u.withPath t)).isSome = true ↔ IsLocal u := by
  cases hp : u.path with
  | verbatim text =>
    rw [isVerbatim, hp] at hv
    cases hv
  | segments guarded list =>
    have hnew : (u.withPath t).path = .segments guarded (readSegments u.kind t) := by rw [withPath, hp]
    rw [isSome_localPath? hnew (readSegments_ne_nil u.kind ht), isLocal_withPath]

/-! ### The places of an origin -/

theorem isSome_rebuild? (u : Url) (t : Text) : (rebuild? u t).isSome = true ↔ u.isVerbatim = false := by
  rw [rebuild?]
  cases u.isVerbatim <;> simp

/-- A rebuilt URL is a native path exactly if it is there and the old one was local. -/
theorem isSome_rebuild?_localPath? (u : Url) {t : Text} (ht : '/' ∈ t) :
    ((rebuild? u t).bind localPath?).isSome = true ↔ (rebuild? u t).isSome = true ∧ IsLocal u := by
  rw [rebuild?]
  cases hv : u.isVerbatim with
  | true => simp
  | false =>
    have hlocal := isSome_localPath?_withPath hv ht
    simpa using hlocal

theorem isSome_subpath? (o : Origin) (s : Text) :
    (subpath? o s).isSome = true ↔ o.url.isVerbatim = false ∧ 2 ≤ o.pathText.count '/' := by
  rw [← isSome_installBase?, subpath?]
  cases installBase? o.pathText with
  | none => simp
  | some base => simp [isSome_rebuild?]

theorem isSome_startup? (o : Origin) :
    (startup? o).isSome = true ↔ o.url.isVerbatim = false ∧ 1 ≤ o.pathText.count '/' := by
  rw [← isSome_startupDir?, startup?]
  cases startupDir? o.pathText with
  | none => simp
  | some dir => simp [isSome_rebuild?]

theorem isSome_subpathFile? (o : Origin) (s : Text) :
    (subpathFile? o s).isSome = true ↔ (subpath? o s).isSome = true ∧ IsLocal o.url := by
  rw [subpathFile?, subpath?]
  cases hb : installBase? o.pathText with
  | none => simp
  | some base =>
    have hslash : '/' ∈ base := List.mem_of_getLast? (installBase?_getLast? _ _ hb)
    exact isSome_rebuild?_localPath? o.url (List.mem_append_left s hslash)

theorem isSome_startupFile? (o : Origin) :
    (startupFile? o).isSome = true ↔ (startup? o).isSome = true ∧ IsLocal o.url := by
  rw [startupFile?, startup?]
  cases hd : startupDir? o.pathText with
  | none => simp
  | some dir => exact isSome_rebuild?_localPath? o.url (List.mem_of_getLast? (startupDir?_getLast? _ _ hd))

/-- An origin with a place has a path of segments, and at least one of them. -/
theorem isSome_toNativePath?_of_startupFile? {o : Origin} (h : (startupFile? o).isSome = true) :
    o.url.toNativePath?.isSome = true := by
  obtain ⟨hstart, hlocal⟩ := (isSome_startupFile? o).mp h
  obtain ⟨hv, hcount⟩ := (isSome_startup? o).mp hstart
  cases hp : o.url.path with
  | verbatim t =>
    rw [isVerbatim, hp] at hv
    cases hv
  | segments guarded list =>
    have hne : list ≠ [] := by
      rintro rfl
      rw [Origin.pathText, Url.pathText, hp] at hcount
      exact absurd hcount (by simp [segmentsText])
    exact (isSome_toNativePath? hp hne).mpr ((isOnThisMachine_iff _).mpr hlocal.host)

/-! ### The rows in which places are shown -/

section Rows

variable (l : Locator) {o : Origin} (ho : l.origin? = some o)
include ho

theorem directoryRow_eq (d : InstallDir) :
    Answer.directoryRow l d = ⟨d.name, subpath? o d.suffix, subpathFile? o d.suffix⟩ := by
  rw [Answer.directoryRow, Locator.dirUrl?, Locator.dirFile?, ho]
  rfl

theorem startupRow_eq : Answer.startupRow l = ⟨"startup".toList, startup? o, Relocation.startupFile? o⟩ := by
  show Answer.Row.mk _ l.startupUrl? l.startupFile? = _
  rw [Locator.startupUrl?, Locator.startupFile?, ho]
  rfl

theorem originRow_eq : Answer.originRow l = ⟨"origin".toList, some o.url, o.url.toNativePath?⟩ := by
  show Answer.Row.mk _ (l.origin?.map Origin.url) (l.origin?.bind fun o => o.url.toNativePath?) = _
  rw [ho]
  rfl

end Rows

/-- Without an origin no directory is shown. -/
theorem directoryRow_of_origin?_eq_none (l : Locator) (h : l.origin? = none) (d : InstallDir) :
    Answer.directoryRow l d = ⟨d.name, none, none⟩ := by
  rw [Answer.directoryRow, Locator.dirUrl?, Locator.dirFile?, h]
  rfl

/-- What is shown in one row is never shown without the same in the other. -/
structure ShownWith (r other : Answer.Row) : Prop where
  url : r.url.isSome = true → other.url.isSome = true
  path : r.path.isSome = true → other.path.isSome = true

theorem ShownWith.of_absent {r other : Answer.Row} (hu : r.url = none) (hp : r.path = none) : ShownWith r other := by
  constructor
  · intro h
    rw [hu] at h
    cases h
  · intro h
    rw [hp] at h
    cases h

theorem ShownWith.trans {r s t : Answer.Row} (h : ShownWith r s) (g : ShownWith s t) : ShownWith r t :=
  ⟨fun hr => g.url (h.url hr), fun hr => g.path (h.path hr)⟩

/-- A directory is shown only if the directory of the origin is. -/
theorem shownWith_startupRow (l : Locator) (d : InstallDir) :
    ShownWith (Answer.directoryRow l d) (Answer.startupRow l) := by
  cases ho : l.origin? with
  | none =>
    rw [directoryRow_of_origin?_eq_none l ho]
    exact .of_absent rfl rfl
  | some o =>
    rw [directoryRow_eq l ho, startupRow_eq l ho]
    have hurl : (subpath? o d.suffix).isSome = true → (startup? o).isSome = true := by
      rw [isSome_subpath?, isSome_startup?]
      exact fun h => ⟨h.1, by omega⟩
    refine ⟨hurl, fun h => ?_⟩
    obtain ⟨hsub, hlocal⟩ := (isSome_subpathFile? o d.suffix).mp h
    exact (isSome_startupFile? o).mpr ⟨hurl hsub, hlocal⟩

/-- The directory of the origin is shown only if the origin is. -/
theorem shownWith_originRow (l : Locator) : ShownWith (Answer.startupRow l) (Answer.originRow l) := by
  cases ho : l.origin? with
  | none =>
    have hurl : l.startupUrl? = none := by rw [Locator.startupUrl?, ho, Option.bind_none]
    have hpath : l.startupFile? = none := by rw [Locator.startupFile?, ho, Option.bind_none]
    exact .of_absent hurl hpath
  | some o =>
    rw [startupRow_eq l ho, originRow_eq l ho]
    exact ⟨fun _ => rfl, isSome_toNativePath?_of_startupFile?⟩

/-- Directories are shown together. -/
theorem shownWith_directoryRow (l : Locator) (d e : InstallDir) :
    ShownWith (Answer.directoryRow l d) (Answer.directoryRow l e) := by
  cases ho : l.origin? with
  | none =>
    rw [directoryRow_of_origin?_eq_none l ho]
    exact .of_absent rfl rfl
  | some o =>
    rw [directoryRow_eq l ho, directoryRow_eq l ho]
    constructor
    · intro h
      rw [isSome_subpath?] at h ⊢
      exact h
    · intro h
      rw [isSome_subpathFile?, isSome_subpath?] at h ⊢
      exact h

/-- A place below the base is there exactly if the path of the origin is one of segments with two slashes in it, the
directory of the origin exactly if there is one slash; each is a native path exactly if it is there and the origin is
local. So the suffix does not matter: in a table, all directories have their URLs or none has, and so with their native
paths; and none has one that the directory of the origin or the origin itself has not. -/
theorem place_isSome_iff (o : Origin) (s : Text) (l : Locator) (d e : InstallDir) :
    ((subpath? o s).isSome = true ↔ o.url.isVerbatim = false ∧ 2 ≤ o.pathText.count '/')
      ∧ ((startup? o).isSome = true ↔ o.url.isVerbatim = false ∧ 1 ≤ o.pathText.count '/')
      ∧ ((subpathFile? o s).isSome = true ↔ (subpath? o s).isSome = true ∧ IsLocal o.url)
      ∧ ((startupFile? o).isSome = true ↔ (startup? o).isSome = true ∧ IsLocal o.url)
      ∧ (Answer.directoryRow l d).url.isSome = (Answer.directoryRow l e).url.isSome
      ∧ (Answer.directoryRow l d).path.isSome = (Answer.directoryRow l e).path.isSome
      ∧ ShownWith (Answer.directoryRow l d) (Answer.startupRow l)
      ∧ ShownWith (Answer.directoryRow l d) (Answer.originRow l) := by
  have hde := shownWith_directoryRow l d e
  have hed := shownWith_directoryRow l e d
  have hstartup := shownWith_startupRow l d
  refine ⟨isSome_subpath? o s, isSome_startup? o, isSome_subpathFile? o s, isSome_startupFile? o, ?_, ?_, hstartup,
    hstartup.trans (shownWith_originRow l)⟩
  · exact Bool.eq_iff_iff.mpr ⟨hde.url, hed.url⟩
  · exact Bool.eq_iff_iff.mpr ⟨hde.path, hed.path⟩

end Relocation
